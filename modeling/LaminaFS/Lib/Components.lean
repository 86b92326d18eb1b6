/-
# Lists cut into components by a separator

`List.splitOn` cuts a list at a separator and `List.intercalate` puts it together again.
Here is the third form, in which every component follows a separator: `led sep cs` is the
concatenation of `sep :: c` for the components `c` of `cs`.
-/
import Mathlib.Tactic.Common

namespace Components

variable {α : Type*}

/-- The components, each led by the separator. -/
def led (sep : α) (cs : List (List α)) : List α := cs.flatMap (sep :: ·)

@[simp] lemma led_nil (sep : α) : led sep [] = [] := rfl

@[simp] lemma led_cons (sep : α) (c : List α) (cs : List (List α)) :
    led sep (c :: cs) = sep :: c ++ led sep cs := by
  simp [led]

lemma led_append (sep : α) (cs ds : List (List α)) :
    led sep (cs ++ ds) = led sep cs ++ led sep ds := by
  simp [led]

/-- The list starts with the separator, or there is none. -/
lemma led_eq_nil_or (sep : α) (cs : List (List α)) :
    led sep cs = [] ∨ ∃ l, led sep cs = sep :: l := by
  cases cs with
  | nil => exact Or.inl rfl
  | cons c cs => exact Or.inr ⟨_, led_cons sep c cs⟩

lemma intercalate_eq_led (sep : α) (c : List α) (cs : List (List α)) :
    [sep].intercalate (c :: cs) = c ++ led sep cs := by
  induction cs generalizing c with
  | nil => simp
  | cons d cs ih => simp [List.intercalate_cons_cons, ih d]

lemma cons_intercalate (sep : α) {cs : List (List α)} (h : cs ≠ []) :
    sep :: [sep].intercalate cs = led sep cs := by
  cases cs with
  | nil => exact absurd rfl h
  | cons c cs => rw [intercalate_eq_led, led_cons, List.cons_append]

/-- What is left of a list of led components from one of the separators on is a list of led
components again. -/
lemma led_eq_append {sep : α} {cs : List (List α)} (h : ∀ c ∈ cs, sep ∉ c) {a b : List α}
    (he : led sep cs = a ++ sep :: b) : ∃ ds, ds <:+ cs ∧ sep :: b = led sep ds := by
  induction cs generalizing a with
  | nil => simp at he
  | cons c cs ih =>
    have ih := fun {a} => ih (fun d hd => h d (by simp [hd])) (a := a)
    have hc : sep ∉ c := h c (by simp)
    rw [led_cons, List.cons_append] at he
    cases a with
    | nil => exact ⟨c :: cs, List.suffix_refl _, by rw [led_cons]; exact he.symm⟩
    | cons x a =>
      simp only [List.cons_append, List.cons.injEq] at he
      -- the separator is not inside `c`
      rcases List.append_eq_append_iff.mp he.2 with ⟨a', rfl, hb⟩ | ⟨c', rfl, hb⟩
      · obtain ⟨ds, hds, hled⟩ := ih hb
        exact ⟨ds, hds.trans (List.suffix_cons _ _), hled⟩
      · cases c' with
        | nil =>
          obtain ⟨ds, hds, hled⟩ := ih (a := []) hb.symm
          exact ⟨ds, hds.trans (List.suffix_cons _ _), hled⟩
        | cons y c' =>
          simp only [List.cons_append, List.cons.injEq] at hb
          exact absurd (by simp [hb.1]) hc

section Split

variable [BEq α] [LawfulBEq α]

lemma not_mem_of_mem_splitOn {sep : α} {l c : List α} (h : c ∈ l.splitOn sep) : sep ∉ c := by
  induction l generalizing c with
  | nil =>
    have : c = [] := by simpa [List.splitOn_eq_splitOnP] using h
    simp [this]
  | cons x l ih =>
    rw [List.splitOn_cons_eq_if_modifyHead] at h
    split at h
    · rcases List.mem_cons.mp h with rfl | h
      · simp
      · exact ih h
    · rename_i hx
      cases hs : l.splitOn sep with
      | nil => exact absurd hs (List.splitOn_ne_nil _ _)
      | cons d ds =>
        rw [hs, List.modifyHead_cons] at h
        rcases List.mem_cons.mp h with rfl | h
        · have hd : sep ∉ d := ih (by simp [hs])
          have hne : sep ≠ x := fun he => hx (by simp [he])
          simp [hd, hne]
        · exact ih (by simp [hs, h])

/-- Cutting a list gives its components back, the first one without a separator. -/
lemma eq_append_led_of_splitOn {sep : α} {l c : List α} {cs : List (List α)}
    (h : l.splitOn sep = c :: cs) : l = c ++ led sep cs := by
  rw [← intercalate_eq_led, ← h, List.intercalate_splitOn]

lemma splitOn_led {sep : α} {cs : List (List α)} (h : ∀ c ∈ cs, sep ∉ c) :
    (led sep cs).splitOn sep = [] :: cs := by
  have hi : led sep cs = [sep].intercalate ([] :: cs) := by
    rw [intercalate_eq_led, List.nil_append]
  rw [hi]
  refine List.splitOn_intercalate sep ?_ (by simp)
  intro c hc
  rcases List.mem_cons.mp hc with rfl | hc
  · simp
  · exact h c hc

end Split

end Components
