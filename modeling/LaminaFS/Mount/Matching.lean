/-
# Matching by components

The test of the two lookup loops is made of `strstr`, one byte and the length of the prefix.
On normalised paths it compares components: a mount captures what is below its mount point, and
the device gets the components that are left.

The length of the prefix is kept in a `uint32_t`, so that all this is true of mount points shorter
than `2 ^ 32` bytes only.
-/
import LaminaFS.Mount.Spelling

namespace LaminaFS

open Components

variable {D W : Type} {m : MountInfo D W} {path : CString}

/-- The components of an absolute path; the root has none. -/
noncomputable def components (path : CString) : List CString :=
  if path = [slash] then [] else (path.splitOn slash).tail

/-- A mount at `mountPoint` is to have the path: it is the root, or its components are the first
ones of the path, and not all. -/
def Captures (mountPoint path : CString) : Prop :=
  mountPoint = [slash] ∨
    components mountPoint <+: components path ∧ components mountPoint ≠ components path

/-- The path that the device of a mount at `mountPoint` is to get: the other components, behind a
slash. -/
noncomputable def remainder (mountPoint path : CString) : CString :=
  if mountPoint = [slash] then path
  else slash :: [slash].intercalate ((components path).drop (components mountPoint).length)

lemma components_led {names : List CString} (hne : names ≠ [])
    (h : ∀ c ∈ names, ProperName c ∧ slash ∉ c) : components (led slash names) = names := by
  rw [components, if_neg, splitOn_led fun c hc => (h c hc).2, List.tail_cons]
  obtain ⟨c, cs, rfl⟩ := List.exists_cons_of_ne_nil hne
  have hc : c ≠ [] := (h c (by simp)).1.1
  intro he
  rw [led_cons, List.cons_append, List.cons.injEq] at he
  exact hc (List.append_eq_nil_iff.mp he.2).1

/-- The normalised absolute paths are the root and the paths of proper names. -/
lemma Contained.cases (h : Contained path) :
    path = [slash] ∨ ∃ names : List CString, names ≠ [] ∧
      (∀ c ∈ names, ProperName c ∧ slash ∉ c) ∧ path = led slash names := by
  obtain ⟨hhead, rfl | hproper⟩ := h
  · exact Or.inl rfl
  · obtain ⟨rest, rfl⟩ : ∃ rest, path = slash :: rest := by
      cases path with
      | nil => cases hhead
      | cons b rest => exact ⟨rest, by rw [Option.some.inj hhead]⟩
    have hsplit : (slash :: rest).splitOn slash = [] :: rest.splitOn slash := by
      simp [List.splitOn_cons_eq_if_modifyHead]
    rw [hsplit, List.tail_cons] at hproper
    refine Or.inr ⟨rest.splitOn slash, List.splitOn_ne_nil _ _, fun c hc => ?_, ?_⟩
    · exact ⟨hproper c hc, not_mem_of_mem_splitOn hc⟩
    · exact (eq_append_led_of_splitOn hsplit).trans (List.nil_append _)

/-- The contained paths are the absolute paths that are their own normalisation. -/
lemma contained_iff (h0 : (0 : UInt8) ∉ path) (hlen : path.length < 2 ^ 32) :
    Contained path ↔ path.head? = some slash ∧ normalizePath path = path := by
  constructor
  · intro h
    refine ⟨h.1, ?_⟩
    rcases h.cases with rfl | ⟨names, hne, hnames, rfl⟩
    · decide
    · exact normalizePath_led hne hnames h0 hlen
  · rintro ⟨hhead, he⟩
    rcases normalizePath_absolute hhead h0 hlen with h | ⟨names, hne, hnames, h⟩
    · rw [← he, h]
      exact ⟨rfl, Or.inl rfl⟩
    · rw [← he, h]
      exact contained_led hne hnames

/-- A mount at the root accepts every absolute path, and keeps it whole. -/
lemma accepts_root (hm : m.prefixStr = [slash]) (hp : path.head? = some slash) :
    m.accepts path = true ∧ m.devicePath path = path := by
  have hplen : m.prefixLen = 1 := by rw [MountInfo.prefixLen, hm]; rfl
  refine ⟨accepts_iff.mpr ⟨?_, Or.inr hplen⟩, by rw [MountInfo.devicePath, if_pos hplen]⟩
  cases path with
  | nil => cases hp
  | cons b rest =>
    rw [hm, Option.some.inj hp]
    exact ⟨rest, rfl⟩

/-- A mount accepts what has more components than its mount point, and the same ones at first. -/
lemma accepts_below {above below : List CString} (hm : m.prefixStr = led slash above)
    (hplen : m.prefixLen = m.prefixStr.length) (hbelow : below ≠ []) :
    m.accepts (led slash (above ++ below)) = true := by
  refine accepts_iff.mpr ⟨?_, Or.inl ?_⟩
  · rw [hm, led_append]
    exact ⟨_, rfl⟩
  · obtain ⟨c, cs, rfl⟩ := List.exists_cons_of_ne_nil hbelow
    rw [hplen, hm, led_append, led_cons, byteAt, List.getD_eq_getElem?_getD,
      List.getElem?_append_right (Nat.le_refl _), Nat.sub_self]
    rfl

/-- The prefix of a mount below the root has more than one byte. -/
lemma prefixLen_ne_one {above : List CString} (hne : above ≠ [])
    (habove : ∀ c ∈ above, ProperName c ∧ slash ∉ c) (hm : m.prefixStr = led slash above)
    (hplen : m.prefixLen = m.prefixStr.length) : m.prefixLen ≠ 1 := by
  obtain ⟨c, cs, rfl⟩ := List.exists_cons_of_ne_nil hne
  have hc := List.length_pos_iff.mpr (habove c (by simp)).1.1
  rw [hplen, hm, led_cons, List.length_append, List.length_cons]
  omega

/-- The other way round, and what the device gets. -/
lemma below_of_accepts {above names : List CString} (hne : above ≠ [])
    (habove : ∀ c ∈ above, ProperName c ∧ slash ∉ c) (hm : m.prefixStr = led slash above)
    (hplen : m.prefixLen = m.prefixStr.length) (hnames : ∀ c ∈ names, ProperName c ∧ slash ∉ c)
    (ha : m.accepts (led slash names) = true) :
    ∃ below, below ≠ [] ∧ names = above ++ below ∧
      m.devicePath (led slash names) = led slash below := by
  obtain ⟨above', below, rfl, hbelow, hm', hdevice⟩ :=
    accepts_led_of_prefixLen (fun c hc => (hnames c hc).2) hplen ha
      (prefixLen_ne_one hne habove hm hplen)
  -- the mount point has the same components in both spellings
  have hcomponents := components_led hne habove
  have hne' : above' ≠ [] := by
    rintro rfl
    obtain ⟨c, cs, rfl⟩ := List.exists_cons_of_ne_nil hne
    rw [hm, led_cons] at hm'
    cases hm'
  rw [← hm, hm', components_led hne' fun c hc => hnames c (List.mem_append_left _ hc)]
    at hcomponents
  subst hcomponents
  exact ⟨below, hbelow, rfl, hdevice⟩

/-- **One mount.**  On normalised paths a mount accepts what it captures, its device gets the
remainder, and mount point and device path spell the path again. -/
lemma accepts_iff_captures (hm : Contained m.prefixStr) (hlen : m.prefixStr.length < 2 ^ 32)
    (hp : Contained path) :
    (m.accepts path = true ↔ Captures m.prefixStr path) ∧
      (m.accepts path = true → m.devicePath path = remainder m.prefixStr path ∧
        (if m.prefixStr = [slash] then m.devicePath path
          else m.prefixStr ++ m.devicePath path) = path) := by
  have hplen : m.prefixLen = m.prefixStr.length := u32_of_lt hlen
  rcases hm.cases with hroot | ⟨above, hne, habove, hprefs⟩
  · obtain ⟨ha, hdevice⟩ := accepts_root hroot hp.1
    refine ⟨iff_of_true ha (Or.inl hroot), fun _ => ⟨?_, ?_⟩⟩
    · rw [hdevice, remainder, if_pos hroot]
    · rw [if_pos hroot, hdevice]
  · have h1 := prefixLen_ne_one hne habove hprefs hplen
    have hnoroot : m.prefixStr ≠ [slash] := fun he => h1 (by rw [hplen, he]; rfl)
    have hcomponents : components m.prefixStr = above := by
      rw [hprefs, components_led hne habove]
    rw [Captures, hcomponents, remainder, if_neg hnoroot, hcomponents, if_neg hnoroot]
    rcases hp.cases with rfl | ⟨names, hne', hnames, rfl⟩
    · -- the root is below no other mount point
      have hno : ¬m.accepts [slash] = true := by
        intro ha
        have hle := (accepts_iff.mp ha).1.length_le
        have hpos := List.length_pos_iff.mpr fun h : m.prefixStr = [] => by
          rw [h] at hm
          cases hm.1
        rw [List.length_singleton] at hle
        omega
      refine ⟨iff_of_false hno ?_, fun ha => absurd ha hno⟩
      rintro (he | ⟨hpre, -⟩)
      · exact hnoroot he
      · rw [components, if_pos rfl] at hpre
        exact hne (List.prefix_nil.mp hpre)
    · rw [components_led hne' hnames]
      constructor
      · constructor
        · intro ha
          obtain ⟨below, hbelow, rfl, -⟩ := below_of_accepts hne habove hprefs hplen hnames ha
          exact Or.inr ⟨⟨below, rfl⟩, fun he => hbelow (by simpa using he)⟩
        · rintro (he | ⟨⟨below, rfl⟩, hbelow⟩)
          · exact absurd he hnoroot
          · exact accepts_below hprefs hplen fun h => hbelow (by rw [h, List.append_nil])
      · intro ha
        obtain ⟨below, hbelow, rfl, hdevice⟩ :=
          below_of_accepts hne habove hprefs hplen hnames ha
        rw [hdevice, List.drop_left, cons_intercalate slash hbelow, hprefs, led_append]
        exact ⟨rfl, rfl⟩

/-- **Matching.**  Both lookup loops take a mount for a path if it captures it (and can be read, or
passes the filter), and hand the remainder to its device; mount point and device path spell the
path again. -/
theorem visit_iff_captures (hm : Contained m.prefixStr) (hlen : m.prefixStr.length < 2 ^ 32)
    (hp : Contained path) (devicePath : CString) :
    (visitNext path none m = .found devicePath ↔
      m.readable = true ∧ Captures m.prefixStr path ∧
        devicePath = remainder m.prefixStr path) ∧
    (∀ op, visitMutable path op m = some devicePath ↔
      passedOver op m.permissions = false ∧ Captures m.prefixStr path ∧
        devicePath = remainder m.prefixStr path) ∧
    (Captures m.prefixStr path →
      (if m.prefixStr = [slash] then remainder m.prefixStr path
        else m.prefixStr ++ remainder m.prefixStr path) = path) := by
  obtain ⟨hcaptures, hdevice⟩ := accepts_iff_captures hm hlen hp
  rw [← hcaptures]
  refine ⟨?_, fun op => ?_, fun ha => ?_⟩
  · rw [visitNext]
    cases hr : m.readable with
    | false => simp
    | true =>
      cases ha : m.accepts path with
      | false => simp
      | true =>
        rw [← (hdevice ha).1]
        simpa using eq_comm
  · rw [visitMutable]
    cases ha : m.accepts path with
    | false => simp
    | true =>
      rw [← (hdevice ha).1]
      cases passedOver op m.permissions with
      | false => simpa using eq_comm
      | true => simp
  · obtain ⟨hd, hspell⟩ := hdevice ha
    rwa [hd] at hspell

/-- The mount at `"/four"` captures `"/four/x"`. -/
theorem visit_iff_captures_four :
    let m : MountInfo Unit Unit := ⟨1, [slash, 102, 111, 117, 114], (), .empty, .mountRead⟩
    (visitNext [slash, 102, 111, 117, 114, slash, 120] none m = .found [slash, 120] ↔
      m.readable = true ∧ Captures m.prefixStr [slash, 102, 111, 117, 114, slash, 120] ∧
        [slash, 120] = remainder m.prefixStr [slash, 102, 111, 117, 114, slash, 120]) ∧
    (∀ op, visitMutable [slash, 102, 111, 117, 114, slash, 120] op m = some [slash, 120] ↔
      passedOver op m.permissions = false ∧
        Captures m.prefixStr [slash, 102, 111, 117, 114, slash, 120] ∧
        [slash, 120] = remainder m.prefixStr [slash, 102, 111, 117, 114, slash, 120]) ∧
    (Captures m.prefixStr [slash, 102, 111, 117, 114, slash, 120] →
      (if m.prefixStr = [slash] then
          remainder m.prefixStr [slash, 102, 111, 117, 114, slash, 120]
        else m.prefixStr ++ remainder m.prefixStr [slash, 102, 111, 117, 114, slash, 120]) =
          [slash, 102, 111, 117, 114, slash, 120]) :=
  visit_iff_captures
    (@contained_led [[102, 111, 117, 114]] (by decide) (by simp [ProperName, slash, dot]))
    (by decide)
    (@contained_led [[102, 111, 117, 114], [120]] (by decide) (by simp [ProperName, slash, dot]))
    [slash, 120]

/-- A mount below the root whose `_prefixLen` has wrapped around to 1 accepts every path that
starts with its prefix, also in the middle of a component. -/
lemma accepts_of_wrapped {name : CString} (hlen : name.length % 2 ^ 32 = 0) (tail : CString)
    (hm : m.prefixStr = slash :: name) :
    m.accepts (slash :: (name ++ tail)) = true ∧
      m.devicePath (slash :: (name ++ tail)) = slash :: (name ++ tail) := by
  have hplen : m.prefixLen = 1 := by
    rw [MountInfo.prefixLen, hm, List.length_cons, u32]
    omega
  refine ⟨accepts_iff.mpr ⟨?_, Or.inr hplen⟩, by rw [MountInfo.devicePath, if_pos hplen]⟩
  rw [hm]
  exact ⟨tail, rfl⟩

lemma not_captures_longer {name : CString} {tail : CString} (hne : tail ≠ [])
    (hname : ProperName name ∧ slash ∉ name)
    (hlonger : ProperName (name ++ tail) ∧ slash ∉ name ++ tail) :
    ¬Captures (slash :: name) (slash :: (name ++ tail)) := by
  have hshort : slash :: name = led slash [name] := by simp
  have hlong : slash :: (name ++ tail) = led slash [name ++ tail] := by simp
  rintro (he | ⟨hpre, -⟩)
  · exact hname.1.1 (List.cons.inj he).2
  · rw [hshort, hlong, components_led (by simp) (by simpa using hname),
      components_led (by simp) (by simpa using hlonger)] at hpre
    obtain ⟨rest, hrest⟩ := hpre
    rw [List.singleton_append, List.cons.injEq] at hrest
    exact hne (List.append_right_eq_self.mp hrest.1.symm)

/-- A name of many equal bytes, with or without another one behind them. -/
lemma properName_replicate {n : ℕ} (hn : 3 ≤ n) {tail : CString} (htail : slash ∉ tail) :
    ProperName (List.replicate n 97 ++ tail) ∧ slash ∉ List.replicate n 97 ++ tail := by
  have hlen (l : CString) (hl : l.length < 3) : List.replicate n 97 ++ tail ≠ l := by
    rintro rfl
    rw [List.length_append, List.length_replicate] at hl
    omega
  refine ⟨⟨hlen _ (by decide), hlen _ (by decide), hlen _ (by decide)⟩, ?_⟩
  rw [List.mem_append, not_or]
  exact ⟨fun h => absurd (List.eq_of_mem_replicate h) (by decide), htail⟩

/-- A mount point of one name of `2 ^ 32` bytes, and the path to a file whose name is one byte
longer: the mount takes it, and hands the whole path to its device. -/
theorem visit_not_captures :
    let m : MountInfo Unit Unit :=
      ⟨1, slash :: List.replicate (2 ^ 32) 97, (), .empty, .mountRead⟩
    let path : CString := slash :: (List.replicate (2 ^ 32) 97 ++ [98])
    Contained m.prefixStr ∧ Contained path ∧ visitNext path none m = .found path ∧
      ¬Captures m.prefixStr path := by
  intro m path
  have hname := @properName_replicate (2 ^ 32) (by decide) [] (by decide)
  have hlonger := @properName_replicate (2 ^ 32) (by decide) [98] (by decide)
  have hlen : (List.replicate (2 ^ 32) (97 : UInt8)).length % 2 ^ 32 = 0 := by
    rw [List.length_replicate, Nat.mod_self]
  have hprefs : m.prefixStr = slash :: List.replicate (2 ^ 32) 97 := rfl
  have hpermissions : m.permissions = Permissions.mountRead := rfl
  have hpath : path = slash :: (List.replicate (2 ^ 32) 97 ++ [98]) := rfl
  clear_value m path
  rw [List.append_nil] at hname
  generalize List.replicate (2 ^ 32) (97 : UInt8) = name at hname hlonger hlen hprefs hpath
  subst hpath
  obtain ⟨ha, hdevice⟩ := accepts_of_wrapped hlen [98] hprefs
  refine ⟨?_, ?_, ?_, ?_⟩
  · rw [hprefs]
    simpa using @contained_led [name] (by simp) (by simpa using hname)
  · simpa using @contained_led [name ++ [98]] (by simp) (by simpa using hlonger)
  · have hread : m.readable = true := by
      rw [MountInfo.readable, hpermissions]
      decide
    rw [visitNext, hread, ha, hdevice]
    rfl
  · rw [hprefs]
    exact not_captures_longer (by simp) hname hlonger

end LaminaFS
