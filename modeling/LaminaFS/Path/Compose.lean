/-
# Joining normalised paths

The stack of a joined path is the stack of its first part, with the components of the second
part pushed onto it; and a normalised path stands for the stack it was made from.  So
normalising the first part beforehand changes nothing, and normalising twice is normalising
once.
-/
import LaminaFS.Path.Reference

namespace LaminaFS

open Components

variable {p q s : CString}

/-- The second part of a joined path goes on from the stack of the first. -/
lemma resolve_join (p q : CString) :
    resolve (p ++ slash :: q) = (q.splitOn slash).foldl pushComponent (resolve p) := by
  unfold resolve
  rw [List.splitOn_append_cons_self]
  cases hp : p.splitOn slash with
  | nil => exact absurd hp (List.splitOn_ne_nil _ _)
  | cons c cs =>
    simp only [List.cons_append, List.foldl_append]
    split <;> rfl

/-- Proper names pile up on the stack. -/
lemma foldl_pushComponent {names : List (List UInt8)} (h : ∀ c ∈ names, ProperName c)
    (stack : List Entry) :
    names.foldl pushComponent stack = (names.map (⟨·, false⟩)).reverse ++ stack := by
  induction names generalizing stack with
  | nil => rfl
  | cons c names ih =>
    obtain ⟨hnil, hdot, hdotdot⟩ := h c (by simp)
    have hpush : pushComponent stack c = ⟨c, false⟩ :: stack := by
      simp [pushComponent, hnil, hdot, hdotdot]
    rw [List.foldl_cons, hpush, ih fun d hd => h d (by simp [hd])]
    simp

/-- The marked component, if it is there, is the one at the bottom. -/
lemma Stacked.exists_bottom {stack : List Entry} (h : Stacked stack)
    (hf : stack.any Entry.first = true) :
    ∃ top c, stack = top ++ [⟨c, true⟩] ∧ ∀ e ∈ top, e.first = false := by
  induction stack with
  | nil => simp at hf
  | cons e stack ih =>
    obtain ⟨-, -, hfirst, htail⟩ := h
    cases he : e.first with
    | true => exact ⟨[], e.name, by rw [hfirst he, ← he]; rfl, by simp⟩
    | false =>
      obtain ⟨top, c, rfl, htop⟩ := ih htail (by simpa [he] using hf)
      exact ⟨e :: top, c, rfl, by simpa [he] using htop⟩

lemma map_unmarked {stack : List Entry} (h : ∀ e ∈ stack, e.first = false) :
    ((stack.reverse.map Entry.name).map (⟨·, false⟩)).reverse = stack := by
  rw [List.map_reverse, List.map_reverse, List.reverse_reverse, List.map_map]
  refine (List.map_congr_left fun e he => ?_).trans (List.map_id stack)
  show Entry.mk e.name false = e
  rw [← h e he]

/-- A normalised path stands for the stack it was made from. -/
lemma resolve_reference (s : CString) : resolve (reference s) = resolve s := by
  have hstack := stacked_resolve s
  have hsep := hstack.slash_free
  have hproper := properName_resolve s
  unfold reference
  split
  · rename_i hs
    rw [hs]
  · generalize resolve s = stack at hstack hsep hproper
    dsimp only
    split
    · -- a relative path whose first component is still there
      rename_i hf
      obtain ⟨top, c, rfl, htop⟩ := hstack.exists_bottom hf
      have hc : c ≠ [] := hstack.name_ne_nil (Entry.mk c true) (by simp)
      have hnames : ∀ d ∈ top.reverse.map Entry.name, ProperName d := by
        intro d hd
        obtain ⟨e, he, rfl⟩ := List.mem_map.mp hd
        have he := List.mem_reverse.mp he
        exact hproper e (by simp [he]) (htop e he)
      -- splitting gives the names back, as there is no slash in them
      have hsplit :
          ([slash].intercalate ((top ++ [Entry.mk c true]).reverse.map Entry.name)).splitOn slash =
            c :: top.reverse.map Entry.name := by
        rw [List.reverse_concat, List.map_cons]
        refine List.splitOn_intercalate slash ?_ (by simp)
        intro d hd
        rcases List.mem_cons.mp hd with rfl | hd
        · exact hsep (Entry.mk d true) (by simp)
        · obtain ⟨e, he, rfl⟩ := List.mem_map.mp hd
          exact hsep e (by simp [List.mem_reverse.mp he])
      rw [resolve, hsplit]
      simp only [if_neg hc]
      rw [foldl_pushComponent hnames, map_unmarked htop]
    · -- the path starts with a slash
      rename_i hf
      have hunmarked : ∀ e ∈ stack, e.first = false := by
        intro e he
        cases hfe : e.first with
        | true => exact absurd (List.any_eq_true.mpr ⟨e, he, hfe⟩) hf
        | false => rfl
      by_cases hempty : stack = []
      · -- the root itself
        subst hempty
        rfl
      · have hnames : ∀ d ∈ stack.reverse.map Entry.name, ProperName d ∧ slash ∉ d := by
          intro d hd
          obtain ⟨e, he, rfl⟩ := List.mem_map.mp hd
          have he := List.mem_reverse.mp he
          exact ⟨hproper e he (hunmarked e he), hsep e he⟩
        rw [cons_intercalate slash (by simpa using hempty), resolve,
          splitOn_led fun d hd => (hnames d hd).2]
        simp only [if_pos]
        rw [foldl_pushComponent fun d hd => (hnames d hd).1, map_unmarked hunmarked,
          List.append_nil]

/-- The normalised path depends on the stack alone, but for the empty path. -/
lemma reference_congr (hp : p ≠ []) (hq : q ≠ []) (h : resolve p = resolve q) :
    reference p = reference q := by
  rw [reference, reference, if_neg hp, if_neg hq, h]

/-- A normalised path has no NUL in it. -/
lemma nul_free_normalizePath (s : CString) : (0 : UInt8) ∉ normalizePath s := by
  intro h
  have hne := List.all_eq_true.mp List.all_takeWhile _ h
  simp at hne

lemma reference_ne_nil (h : s ≠ []) : reference s ≠ [] := by
  rw [reference, if_neg h]
  dsimp only
  split
  · rename_i hf
    have hne : resolve s ≠ [] := by
      intro h0
      simp [h0] at hf
    obtain ⟨b, rest, hb, -⟩ := renderOut_of_first (stacked_resolve s) hf
    rw [reverse_renderOut (stacked_resolve s) hne, if_pos hf] at hb
    rw [hb]
    simp
  · simp

/-- **Joining.**  Joining onto a normalised path and normalising twice change nothing. -/
theorem normalizePath_join (hp : (0 : UInt8) ∉ p) (hq : (0 : UInt8) ∉ q)
    (hlen : p.length + q.length < 2 ^ 32 - 1) :
    normalizePath (p ++ slash :: q) = normalizePath (normalizePath p ++ slash :: q) ∧
      normalizePath (normalizePath p) = normalizePath p := by
  have hp32 : p.length < 2 ^ 32 := by omega
  have hle := length_normalizePath_le hp hp32
  have hnul := nul_free_normalizePath p
  have hjoin (r : CString) (hr : (0 : UInt8) ∉ r) (hl : r.length ≤ p.length) :
      normalizePath (r ++ slash :: q) = reference (r ++ slash :: q) := by
    refine normalizePath_eq_reference ?_ ?_
    · simp [hr, hq, slash]
    · rw [List.length_append, List.length_cons]
      omega
  constructor
  · rw [hjoin p hp (Nat.le_refl _), hjoin _ hnul hle]
    refine reference_congr (by simp) (by simp) ?_
    rw [resolve_join, resolve_join, normalizePath_eq_reference hp hp32, resolve_reference]
  · rw [normalizePath_eq_reference hnul (by omega), normalizePath_eq_reference hp hp32]
    by_cases hnil : p = []
    · rw [hnil]
      rfl
    · exact reference_congr (reference_ne_nil hnil) hnil (resolve_reference p)

/-- `..` at the front of the second part climbs out of the first. -/
theorem normalizePath_join_parent :
    normalizePath ([97, slash, 98, slash] ++ slash :: [dot, dot, slash, dot, dot, slash, 99]) =
        normalizePath (normalizePath [97, slash, 98, slash] ++
          slash :: [dot, dot, slash, dot, dot, slash, 99]) ∧
      normalizePath (normalizePath [97, slash, 98, slash]) =
        normalizePath [97, slash, 98, slash] :=
  normalizePath_join (by decide) (by decide) (by decide)

end LaminaFS
