/-
# Requests stay below the root of the device

A mount point starts with a slash, so that only a normalised path that is absolute reaches
a device, and such a path has no `.` and no `..` in it.  The device appends what is left
of the path behind the mount point to its root.
-/
import LaminaFS.Device.Directory
import LaminaFS.Mount.Lookup
import LaminaFS.Path.Reference

namespace LaminaFS

open Components

/-- A device path: it starts with a slash and is just the slash, or none of its components is
empty, `.` or `..`. -/
def Contained (devicePath : CString) : Prop :=
  devicePath.head? = some slash ∧
    (devicePath = [slash] ∨ ∀ c ∈ (devicePath.splitOn slash).tail, ProperName c)

/-- The depth below the root after walking along the components; `none` once the walk has
left the root upwards. -/
def lexicalDepth : List (List UInt8) → ℕ → Option ℕ
  | [], depth => some depth
  | c :: cs, depth =>
    if c = [dot, dot] then
      if depth = 0 then none else lexicalDepth cs (depth - 1)
    else if c = [] ∨ c = [dot] then lexicalDepth cs depth
    else lexicalDepth cs (depth + 1)

/-- The path never leads above the directory it starts in. -/
def NeverClimbs (path : CString) : Prop := lexicalDepth (path.splitOn slash) 0 ≠ none

lemma lexicalDepth_ne_none {cs : List (List UInt8)} (h : ∀ c ∈ cs, c ≠ [dot, dot]) (n : ℕ) :
    lexicalDepth cs n ≠ none := by
  induction cs generalizing n with
  | nil => simp [lexicalDepth]
  | cons c cs ih =>
    have ih := ih fun d hd => h d (by simp [hd])
    rw [lexicalDepth, if_neg (h c (by simp))]
    split
    · exact ih n
    · exact ih (n + 1)

lemma contained_led {names : List (List UInt8)} (hne : names ≠ [])
    (h : ∀ c ∈ names, ProperName c ∧ slash ∉ c) : Contained (led slash names) := by
  constructor
  · obtain ⟨c, cs, rfl⟩ := List.exists_cons_of_ne_nil hne
    simp
  · right
    rw [splitOn_led fun c hc => (h c hc).2, List.tail_cons]
    exact fun c hc => (h c hc).1

lemma Contained.neverClimbs {devicePath : CString} (h : Contained devicePath) :
    NeverClimbs devicePath := by
  obtain ⟨hhead, rfl | hproper⟩ := h
  · simp [NeverClimbs, List.splitOn_cons_eq_if_modifyHead, lexicalDepth]
  · obtain ⟨rest, rfl⟩ : ∃ rest, devicePath = slash :: rest := by
      cases devicePath with
      | nil => simp at hhead
      | cons b rest => exact ⟨rest, by simpa using hhead⟩
    have hsplit : (slash :: rest).splitOn slash = [] :: rest.splitOn slash := by
      simp [List.splitOn_cons_eq_if_modifyHead]
    rw [hsplit, List.tail_cons] at hproper
    rw [NeverClimbs, hsplit]
    refine lexicalDepth_ne_none (fun c hc => ?_) 0
    rcases List.mem_cons.mp hc with rfl | hc
    · simp
    · exact (hproper c hc).2.2

section Accepts

variable {D W : Type} {m : MountInfo D W} {path : CString}

lemma accepts_iff : m.accepts path = true ↔
    m.prefixStr <+: path ∧ (byteAt path m.prefixLen = slash ∨ m.prefixLen = 1) := by
  simp [MountInfo.accepts, strstr_eq_zero]

/-- A mount whose prefix is not too long for `_prefixLen` accepts a path of components that start
with its own; the device gets the others, at least one. -/
lemma accepts_led_of_prefixLen {names : List (List UInt8)} (hnames : ∀ c ∈ names, slash ∉ c)
    (hplen : m.prefixLen = m.prefixStr.length) (ha : m.accepts (led slash names) = true)
    (h1 : m.prefixLen ≠ 1) :
    ∃ above below, names = above ++ below ∧ below ≠ [] ∧ m.prefixStr = led slash above ∧
      m.devicePath (led slash names) = led slash below := by
  obtain ⟨hpre, hend⟩ := accepts_iff.mp ha
  obtain ⟨t, ht⟩ := hpre
  have hdevice : m.devicePath (led slash names) = t := by
    rw [MountInfo.devicePath, if_neg h1, hplen, ← ht, List.drop_left]
  have hslash : byteAt t 0 = slash := by
    have hbyte := hend.resolve_right h1
    rw [hplen, ← ht, byteAt, List.getD_eq_getElem?_getD,
      List.getElem?_append_right (Nat.le_refl _), Nat.sub_self,
      ← List.getD_eq_getElem?_getD] at hbyte
    exact hbyte
  cases t with
  | nil => cases hslash
  | cons b t =>
    have hb : b = slash := hslash
    subst hb
    obtain ⟨below, ⟨above, rfl⟩, hbelow⟩ := led_eq_append hnames ht.symm
    refine ⟨above, below, rfl, ?_, ?_, hdevice.trans hbelow⟩
    · rintro rfl
      cases hbelow
    · rw [led_append, ← hbelow] at ht
      exact List.append_cancel_right ht

/-- On a path below `2 ^ 32` bytes no accepting mount has too long a prefix. -/
lemma accepts_led {names : List (List UInt8)} (hnames : ∀ c ∈ names, slash ∉ c)
    (hlen : (led slash names).length < 2 ^ 32) (ha : m.accepts (led slash names) = true)
    (h1 : m.prefixLen ≠ 1) :
    ∃ above below, names = above ++ below ∧ below ≠ [] ∧ m.prefixStr = led slash above ∧
      m.devicePath (led slash names) = led slash below := by
  have hle := (accepts_iff.mp ha).1.length_le
  exact accepts_led_of_prefixLen hnames (u32_of_lt (by omega)) ha h1

/-- What a mount whose prefix starts with a slash hands to its device, of a path that is the
root or consists of proper names. -/
lemma contained_devicePath (hm : m.prefixStr.head? = some slash) (hlen : path.length < 2 ^ 32)
    (hpath : path = [slash] ∨
      ∃ names : List (List UInt8), (∀ c ∈ names, ProperName c ∧ slash ∉ c) ∧
        path = led slash names)
    (ha : m.accepts path = true) : Contained (m.devicePath path) := by
  obtain ⟨hpre, hend⟩ := accepts_iff.mp ha
  have hpos : m.prefixStr ≠ [] := by
    intro h
    simp [h] at hm
  by_cases h1 : m.prefixLen = 1
  · -- the mount at the root keeps the whole path
    rw [MountInfo.devicePath, if_pos h1]
    rcases hpath with rfl | ⟨names, hnames, rfl⟩
    · exact ⟨rfl, Or.inl rfl⟩
    · refine contained_led ?_ hnames
      rintro rfl
      exact hpos (List.prefix_nil.mp hpre)
  · rcases hpath with rfl | ⟨names, hnames, rfl⟩
    · -- the root has no room for a longer prefix
      have hle := hpre.length_le
      have hplen : m.prefixLen = m.prefixStr.length := u32_of_lt (by omega)
      have hlt : m.prefixLen < [slash].length :=
        NormalizePath.lt_length_of_byteAt (by rw [hend.resolve_right h1]; decide)
      have := List.length_pos_iff.mpr hpos
      rw [List.length_singleton] at hlt
      omega
    · obtain ⟨above, below, rfl, hne, -, hdevice⟩ :=
        accepts_led (fun c hc => (hnames c hc).2) hlen ha h1
      rw [hdevice]
      exact contained_led hne fun c hc => hnames c (List.mem_append_right _ hc)

end Accepts

/-- **Containment.**  Every device path that the two lookups hand out for the normalised form
of a request path is contained, and the disk path that a directory device makes of it is
its root followed by a path that never climbs. -/
theorem findMount_contained {D W : Type} {mounts : List (MountInfo D W)}
    (hmounts : ∀ m ∈ mounts, m.prefixStr.head? = some slash) {path : CString}
    (hnul : (0 : UInt8) ∉ path) (hlen : path.length < 2 ^ 32) {m : MountInfo D W}
    {devicePath : CString}
    (hfound : (∃ searchStart,
        findNextMountAndPath mounts (normalizePath path) searchStart = some (m, devicePath)) ∨
      ∃ op, findMutableMountAndPath mounts (normalizePath path) op = some (m, devicePath)) :
    Contained devicePath ∧ NeverClimbs devicePath ∧
      ∀ root : CString, root.length < 2 ^ 32 →
        (DirectoryDevice.new root).getDevicePath devicePath = root ++ devicePath := by
  -- both lookups return a mount of the table that accepts the path
  obtain ⟨hmem, hacc, rfl⟩ : m ∈ mounts ∧ m.accepts (normalizePath path) = true ∧
      devicePath = m.devicePath (normalizePath path) := by
    rcases hfound with ⟨searchStart, h⟩ | ⟨op, h⟩
    · obtain ⟨hmem, -, hacc, hdp⟩ := scanNext_found h
      exact ⟨List.mem_reverse.mp hmem, hacc, hdp⟩
    · rw [findMutableMountAndPath, scanMutable_eq, Option.map_eq_some_iff] at h
      obtain ⟨x, hx, he⟩ := h
      cases he
      have hp := List.find?_some hx
      rw [Bool.and_eq_true] at hp
      exact ⟨List.mem_reverse.mp (List.mem_of_find?_eq_some hx), hp.1, rfl⟩
  have hm := hmounts m hmem
  have hnlen := length_normalizePath_le hnul hlen
  have hhead : (normalizePath path).head? = some slash := by
    obtain ⟨hpre, -⟩ := accepts_iff.mp hacc
    obtain ⟨t, ht⟩ := hpre
    cases hs : m.prefixStr with
    | nil => simp [hs] at hm
    | cons b rest =>
      rw [hs] at ht hm
      rw [← ht]
      simpa using hm
  have hcontained : Contained (m.devicePath (normalizePath path)) := by
    refine contained_devicePath hm (by omega) ?_ hacc
    rw [normalizePath_eq_reference hnul hlen] at hhead ⊢
    exact reference_absolute hhead
  exact ⟨hcontained, hcontained.neverClimbs,
    fun root hroot => DirectoryDevice.getDevicePath_new hroot _⟩

/-- The request `/a//../a/./b/` reaches the mount at `/a`. -/
theorem findMount_contained_dotted :
    Contained [slash, 98] ∧ NeverClimbs [slash, 98] ∧
      ∀ root : CString, root.length < 2 ^ 32 →
        (DirectoryDevice.new root).getDevicePath [slash, 98] = root ++ [slash, 98] :=
  @findMount_contained Unit Unit
    [⟨1, [slash, 97], (), .empty, .mountRead⟩] (by simp)
    [slash, 97, slash, slash, dot, dot, slash, 97, slash, dot, slash, 98, slash]
    (by decide) (by decide) ⟨1, [slash, 97], (), .empty, .mountRead⟩ [slash, 98]
    (Or.inl ⟨none, by rfl⟩)

end LaminaFS
