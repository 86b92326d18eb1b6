/-
# How a mount point is spelled

`createMount` stores the mount point as it is written, and the lookups compare it with
normalised paths.  A mount whose mount point is not its own normalisation is therefore dead: no
request ever reaches it.
-/
import LaminaFS.Mount.Containment
import LaminaFS.Path.Compose

namespace LaminaFS

open Components

variable {D W : Type}

/-- The path that a mount hands to its device for a request, if the mount is consulted. -/
def MountInfo.consult (m : MountInfo D W) (request : CString) : Option CString :=
  if m.accepts (normalizePath request) then some (m.devicePath (normalizePath request)) else none

/-- Apart from the prefix, a new record does not depend on the mount point. -/
lemma makeMount_mountPoint {interfaces : List (DeviceInterface D W)} {args : MountArgs}
    {handle : ℕ} {w : W} {m : MountInfo D W}
    (h : (makeMount interfaces args handle w).1.2 = some m) :
    m.prefixStr = args.mountPoint ∧ ∀ mountPoint,
      (makeMount interfaces { args with mountPoint := mountPoint } handle w).1.2 =
        some { m with prefixStr := mountPoint } := by
  unfold makeMount at h ⊢
  cases hi : interfaces[args.deviceType]? with
  | none => rw [hi] at h; cases h
  | some interface =>
    rw [hi] at h
    dsimp only at h ⊢
    split at h
    · cases h
    · rename_i hpermissions
      split at h
      · rename_i hcreate
        cases h
        refine ⟨rfl, fun mountPoint => ?_⟩
        simp only [hi, if_neg hpermissions, hcreate]
      · cases h

/-! ### Paths of proper names -/

/-- A path of proper names, each led by a slash, is its own normalisation. -/
lemma normalizePath_led {names : List (List UInt8)} (hne : names ≠ [])
    (h : ∀ c ∈ names, ProperName c ∧ slash ∉ c) (h0 : (0 : UInt8) ∉ led slash names)
    (hlen : (led slash names).length < 2 ^ 32) :
    normalizePath (led slash names) = led slash names := by
  have hresolve : resolve (led slash names) = (names.map (⟨·, false⟩)).reverse := by
    rw [resolve, splitOn_led fun c hc => (h c hc).2]
    simp only [if_pos]
    rw [foldl_pushComponent fun c hc => (h c hc).1, List.append_nil]
  have hunmarked : ((names.map (⟨·, false⟩)).reverse).any Entry.first = false := by simp
  have hled : led slash names ≠ [] := by
    obtain ⟨c, cs, rfl⟩ := List.exists_cons_of_ne_nil hne
    simp
  rw [normalizePath_eq_reference h0 hlen, reference, if_neg hled, hresolve]
  simp only [hunmarked, Bool.false_eq_true, if_false, List.reverse_reverse, List.map_map]
  rw [← cons_intercalate slash hne]
  congr 2
  exact List.map_id names

lemma unmarked_push {stack : List Entry} (h : ∀ e ∈ stack, e.first = false) (c : List UInt8) :
    ∀ e ∈ pushComponent stack c, e.first = false := by
  unfold pushComponent
  split
  · exact h
  · split
    · exact fun e he => h e (List.mem_of_mem_tail he)
    · intro e he
      rcases List.mem_cons.mp he with rfl | he
      · rfl
      · exact h e he

lemma unmarked_foldl {cs : List (List UInt8)} {stack : List Entry}
    (h : ∀ e ∈ stack, e.first = false) : ∀ e ∈ cs.foldl pushComponent stack, e.first = false := by
  induction cs generalizing stack with
  | nil => exact h
  | cons c cs ih => exact ih (unmarked_push h c)

/-- The normalisation of a path that starts with a slash is the root or a path of proper
names. -/
lemma normalizePath_absolute {s : CString} (hslash : s.head? = some slash)
    (h0 : (0 : UInt8) ∉ s) (hs : s.length < 2 ^ 32) :
    normalizePath s = [slash] ∨ ∃ names : List (List UInt8), names ≠ [] ∧
      (∀ c ∈ names, ProperName c ∧ slash ∉ c) ∧ normalizePath s = led slash names := by
  rw [normalizePath_eq_reference h0 hs]
  obtain ⟨rest, rfl⟩ : ∃ rest, s = slash :: rest := by
    cases s with
    | nil => cases hslash
    | cons b rest => exact ⟨rest, by simpa using hslash⟩
  have hunmarked : (resolve (slash :: rest)).any Entry.first = false := by
    have hfold : resolve (slash :: rest) = (rest.splitOn slash).foldl pushComponent [] :=
      resolve_join [] rest
    rw [hfold, List.any_eq_false]
    intro e he
    rw [unmarked_foldl (by simp) e he]
    exact Bool.false_ne_true
  have hhead : (reference (slash :: rest)).head? = some slash := by
    rw [reference, if_neg (List.cons_ne_nil _ _)]
    simp [hunmarked]
  rcases reference_absolute hhead with h | ⟨names, hnames, h⟩
  · exact Or.inl h
  · refine Or.inr ⟨names, ?_, hnames, h⟩
    rintro rfl
    rw [h] at hhead
    cases hhead

/-! ### Dead mounts -/

/-- A normalised path below a mount: the mount is at the root or its mount point is
normalised, and behind a mount point other than the root there are two bytes more. -/
lemma accepts_normalized {m : MountInfo D W} (hm : m.prefixStr.head? = some slash)
    (hm0 : (0 : UInt8) ∉ m.prefixStr) {path : CString} (hlen : path.length < 2 ^ 32)
    (hpath : path = [slash] ∨
      ∃ names : List (List UInt8), (∀ c ∈ names, ProperName c ∧ slash ∉ c) ∧
        path = led slash names)
    (ha : m.accepts path = true) :
    m.prefixStr = [slash] ∨ normalizePath m.prefixStr = m.prefixStr ∧
      m.prefixStr.length + 2 ≤ path.length := by
  obtain ⟨hpre, hend⟩ := accepts_iff.mp ha
  have hle := hpre.length_le
  have hplen : m.prefixLen = m.prefixStr.length := u32_of_lt (by omega)
  obtain ⟨rest, hrest⟩ : ∃ rest, m.prefixStr = slash :: rest := by
    cases hs : m.prefixStr with
    | nil => rw [hs] at hm; cases hm
    | cons b rest => exact ⟨rest, by rw [hs] at hm; simpa using hm⟩
  by_cases h1 : m.prefixLen = 1
  · left
    rw [hplen, hrest, List.length_cons] at h1
    rw [hrest, List.length_eq_zero_iff.mp (show rest.length = 0 by omega)]
  · rcases hpath with rfl | ⟨names, hnames, rfl⟩
    · -- the root has no room for a longer prefix
      rw [hplen, hrest] at h1
      rw [hrest] at hle
      simp only [List.length_cons, List.length_nil] at h1 hle
      omega
    · obtain ⟨above, below, rfl, hne, habove, -⟩ :=
        accepts_led (fun c hc => (hnames c hc).2) hlen ha h1
      right
      rw [habove]
      rw [habove] at hm hm0 hle
      constructor
      · refine normalizePath_led ?_ (fun c hc => hnames c (List.mem_append_left _ hc)) hm0
          (by omega)
        rintro rfl
        cases hm
      · obtain ⟨c, cs, rfl⟩ := List.exists_cons_of_ne_nil hne
        have hc : c ≠ [] := (hnames c (by simp)).1.1
        have := List.length_pos_iff.mpr hc
        rw [led_append, led_cons]
        simp only [List.length_append, List.length_cons]
        omega

/-- A mount that is consulted for some request is spelled as its normalisation. -/
lemma normalized_of_consult {m : MountInfo D W} (hm : m.prefixStr.head? = some slash)
    (hm0 : (0 : UInt8) ∉ m.prefixStr) {p : CString} (h0 : (0 : UInt8) ∉ p)
    (hp : p.length < 2 ^ 32) (h : m.consult p ≠ none) :
    normalizePath m.prefixStr = m.prefixStr ∧ m.prefixStr.length + 2 < 2 ^ 32 := by
  have hle := length_normalizePath_le h0 hp
  have ha : m.accepts (normalizePath p) = true := by
    by_contra hno
    rw [MountInfo.consult, if_neg hno] at h
    exact h rfl
  have hhead : (normalizePath p).head? = some slash := by
    obtain ⟨⟨t, ht⟩, -⟩ := accepts_iff.mp ha
    cases hs : m.prefixStr with
    | nil => rw [hs] at hm; cases hm
    | cons b rest =>
      rw [hs] at ht hm
      rw [← ht]
      exact hm
  have habsolute := by
    rw [normalizePath_eq_reference h0 hp] at hhead
    exact reference_absolute hhead
  rw [← normalizePath_eq_reference h0 hp] at habsolute
  rcases accepts_normalized hm hm0 (by omega) habsolute ha with hroot | ⟨hnormal, hroom⟩
  · rw [hroot]
    exact ⟨by decide, by decide⟩
  · exact ⟨hnormal, by omega⟩

/-- A mount that is spelled as its normalisation is consulted for the file `x` below it. -/
lemma exists_consult {m : MountInfo D W} (hm0 : (0 : UInt8) ∉ m.prefixStr)
    (hlen : m.prefixStr.length + 2 < 2 ^ 32)
    (hm : m.prefixStr = [slash] ∨ ∃ names : List (List UInt8), names ≠ [] ∧
      (∀ c ∈ names, ProperName c ∧ slash ∉ c) ∧ m.prefixStr = led slash names) :
    ∃ p : CString, (0 : UInt8) ∉ p ∧ p.length < 2 ^ 32 ∧ m.consult p ≠ none := by
  have hprefs : m.prefixLen = m.prefixStr.length := u32_of_lt (by omega)
  have hfile : ProperName [120] ∧ slash ∉ [(120 : UInt8)] := by
    refine ⟨⟨?_, ?_, ?_⟩, ?_⟩ <;> decide
  rcases hm with hm | ⟨names, hne, hnames, hm⟩
  · have hpath : normalizePath [slash, 120] = [slash, 120] := by decide
    have ha : m.accepts [slash, 120] = true :=
      accepts_iff.mpr ⟨⟨[120], by rw [hm]; rfl⟩, Or.inr (by rw [hprefs, hm]; rfl)⟩
    exact ⟨[slash, 120], by decide, by decide, by rw [MountInfo.consult, hpath, if_pos ha]; simp⟩
  · have hp : led slash (names ++ [[120]]) = m.prefixStr ++ [slash, 120] := by
      rw [led_append, ← hm]
      rfl
    have hp0 : (0 : UInt8) ∉ m.prefixStr ++ [slash, 120] := by
      simp [hm0, slash]
    have hplen : (m.prefixStr ++ [slash, 120]).length < 2 ^ 32 := by
      rw [List.length_append, List.length_cons, List.length_singleton]
      omega
    have hpath : normalizePath (m.prefixStr ++ [slash, 120]) = m.prefixStr ++ [slash, 120] := by
      rw [← hp] at hp0 hplen ⊢
      refine normalizePath_led (by simp) ?_ hp0 hplen
      intro c hc
      rcases List.mem_append.mp hc with hc | hc
      · exact hnames c hc
      · rw [List.mem_singleton.mp hc]
        exact hfile
    have hbyte : byteAt (m.prefixStr ++ [slash, 120]) m.prefixLen = slash := by
      rw [hprefs, byteAt, List.getD_eq_getElem?_getD,
        List.getElem?_append_right (Nat.le_refl _), Nat.sub_self]
      rfl
    have ha : m.accepts (m.prefixStr ++ [slash, 120]) = true :=
      accepts_iff.mpr ⟨List.prefix_append _ _, Or.inl hbyte⟩
    refine ⟨_, hp0, hplen, ?_⟩
    rw [MountInfo.consult, hpath, if_pos ha]
    exact Option.some_ne_none _

/-- **Spelling.**  A mount is consulted for the requests, and with the device paths, of a mount
at the normalised mount point if and only if its mount point is normalised already, or so long
that no request fits below it. -/
theorem consult_spelling_iff {interfaces : List (DeviceInterface D W)} {args : MountArgs}
    {handle : ℕ} {w : W} {m : MountInfo D W}
    (hslash : args.mountPoint.head? = some slash) (h0 : (0 : UInt8) ∉ args.mountPoint)
    (hlen : args.mountPoint.length < 2 ^ 32)
    (hmade : (makeMount interfaces args handle w).1.2 = some m) :
    ∃ m', (makeMount interfaces { args with mountPoint := normalizePath args.mountPoint }
        handle w).1.2 = some m' ∧
      ((∀ p : CString, (0 : UInt8) ∉ p → p.length < 2 ^ 32 → m.consult p = m'.consult p) ↔
        (normalizePath args.mountPoint = args.mountPoint ∨
          2 ^ 32 ≤ (normalizePath args.mountPoint).length + 2)) := by
  obtain ⟨hprefs, hmake⟩ := makeMount_mountPoint hmade
  have hmake := hmake (normalizePath args.mountPoint)
  have hsame : normalizePath args.mountPoint = args.mountPoint →
      { m with prefixStr := normalizePath args.mountPoint } = m := by
    intro h
    rw [h, ← hprefs]
  have hprefs' : ({ m with prefixStr := normalizePath args.mountPoint } :
      MountInfo D W).prefixStr = normalizePath args.mountPoint := rfl
  generalize { m with prefixStr := normalizePath args.mountPoint } = m' at hmake hsame hprefs'
  refine ⟨m', hmake, ?_⟩
  have habsolute := normalizePath_absolute hslash h0 hlen
  have hnul := nul_free_normalizePath args.mountPoint
  have hslash' : (normalizePath args.mountPoint).head? = some slash := by
    rcases habsolute with h | ⟨names, hne, -, h⟩
    · rw [h]
      rfl
    · obtain ⟨c, cs, rfl⟩ := List.exists_cons_of_ne_nil hne
      rw [h, led_cons]
      rfl
  have hnormal : ∀ p : CString, (0 : UInt8) ∉ p → p.length < 2 ^ 32 → m.consult p ≠ none →
      normalizePath args.mountPoint = args.mountPoint ∧ args.mountPoint.length + 2 < 2 ^ 32 := by
    intro p hp0 hp h
    rw [← hprefs] at hslash h0 ⊢
    exact normalized_of_consult hslash h0 hp0 hp h
  constructor
  · intro h
    by_contra hno
    rw [not_or, Nat.not_le] at hno
    obtain ⟨hne, hshort⟩ := hno
    -- the mount at the normalised mount point is consulted, the other one is dead
    rw [← hprefs'] at hnul hshort habsolute
    obtain ⟨p, hp0, hp, hconsult⟩ := exists_consult hnul hshort habsolute
    rw [← h p hp0 hp] at hconsult
    exact hne (hnormal p hp0 hp hconsult).1
  · rintro (h | h) p hp0 hp
    · rw [hsame h]
    · -- no request fits below either of the two
      have hdead : m.consult p = none := by
        by_contra hconsult
        obtain ⟨heq, hroom⟩ := hnormal p hp0 hp hconsult
        rw [heq] at h
        omega
      have hdead' : m'.consult p = none := by
        by_contra hconsult
        rw [← hprefs'] at hslash' hnul h
        have hroom := (normalized_of_consult hslash' hnul hp0 hp hconsult).2
        omega
      rw [hdead, hdead']

/-- The mount point `"/a/b"`. -/
theorem consult_spelling_iff_normalized :
    ∃ m', (makeMount [.empty] { (⟨0, [slash, 97, slash, 98], [], 0⟩ : MountArgs) with
        mountPoint := normalizePath [slash, 97, slash, 98] } 1 ()).1.2 = some m' ∧
      ((∀ p : CString, (0 : UInt8) ∉ p → p.length < 2 ^ 32 →
          (⟨1, [slash, 97, slash, 98], (), .empty, .mountRead⟩ : MountInfo Unit Unit).consult p =
            m'.consult p) ↔
        (normalizePath [slash, 97, slash, 98] = [slash, 97, slash, 98] ∨
          2 ^ 32 ≤ (normalizePath [slash, 97, slash, 98]).length + 2)) :=
  @consult_spelling_iff Unit Unit [.empty] ⟨0, [slash, 97, slash, 98], [], 0⟩ 1 () _
    (by decide) (by decide) (by decide) (by rfl)

/-- A mount at `"/a/"` is not consulted for `"/a/x"`, but a mount at `"/a"` is. -/
theorem consult_trailing_slash :
    ∃ m m', (makeMount [.empty] ⟨0, [slash, 97, slash], [], 0⟩ 1 ()).1.2 = some m ∧
      (makeMount [.empty] ⟨0, normalizePath [slash, 97, slash], [], 0⟩ 1 ()).1.2 = some m' ∧
      ¬∀ p : CString, (0 : UInt8) ∉ p → p.length < 2 ^ 32 → m.consult p = m'.consult p := by
  refine ⟨⟨1, [slash, 97, slash], (), .empty, .mountRead⟩,
    ⟨1, normalizePath [slash, 97, slash], (), .empty, .mountRead⟩, rfl, rfl, fun h => ?_⟩
  have hx := h [slash, 97, slash, 120] (by decide) (by decide)
  revert hx
  decide

end LaminaFS
