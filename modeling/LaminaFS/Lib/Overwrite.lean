/-
# Overwriting a part of a list

`overwrite fill l pos b` is `l` with `b` put at the position `pos`: what lies outside `b` is
kept, and a gap between the end of `l` and `pos` is filled up.  `patch` puts the same list
together from three pieces, as a write to a file does.
-/
import Mathlib.Tactic.Common

namespace Overwrite

variable {α : Type*} {fill : α} {l b : List α} {pos : ℕ}

/-- The entry at `i` after `b` has been put at `pos`. -/
def entry (fill : α) (l : List α) (pos : ℕ) (b : List α) (i : ℕ) : α :=
  if pos ≤ i ∧ i < pos + b.length then b.getD (i - pos) fill else l.getD i fill

/-- `l` with `b` put at `pos`. -/
def overwrite (fill : α) (l : List α) (pos : ℕ) (b : List α) : List α :=
  (List.range (max l.length (pos + b.length))).map (entry fill l pos b)

/-- The list before `pos`, filled up, then `b`, then the list behind `b`. -/
def patch (fill : α) (l : List α) (pos : ℕ) (b : List α) : List α :=
  (l ++ List.replicate (pos - l.length) fill).take pos ++ (b ++ l.drop (pos + b.length))

@[simp] lemma length_overwrite :
    (overwrite fill l pos b).length = max l.length (pos + b.length) := by
  rw [overwrite, List.length_map, List.length_range]

lemma getElem?_overwrite {i : ℕ} (h : i < max l.length (pos + b.length)) :
    (overwrite fill l pos b)[i]? = some (entry fill l pos b i) := by
  rw [overwrite, List.getElem?_map, List.getElem?_range h]
  rfl

lemma length_patch : (patch fill l pos b).length = max l.length (pos + b.length) := by
  simp only [patch, List.length_append, List.length_take, List.length_replicate,
    List.length_drop]
  omega

/-- The pieces make up the overwritten list. -/
theorem patch_eq_overwrite (fill : α) (l : List α) (pos : ℕ) (b : List α) :
    patch fill l pos b = overwrite fill l pos b := by
  refine List.ext_getElem? fun i => ?_
  have hhead : ((l ++ List.replicate (pos - l.length) fill).take pos).length = pos := by
    simp only [List.length_take, List.length_append, List.length_replicate]
    omega
  by_cases hi : i < max l.length (pos + b.length)
  · rw [getElem?_overwrite hi, entry, patch]
    rcases Nat.lt_or_ge i pos with hlt | hge
    · -- before `pos`, inside the list or in the gap
      rw [if_neg (by omega), List.getElem?_append_left (by omega), List.getElem?_take_of_lt hlt,
        List.getD_eq_getElem?_getD]
      rcases Nat.lt_or_ge i l.length with hl | hl
      · rw [List.getElem?_append_left hl, List.getElem?_eq_getElem hl]
        rfl
      · rw [List.getElem?_append_right hl, List.getElem?_replicate_of_lt (by omega),
          List.getElem?_eq_none hl]
        rfl
    · rw [List.getElem?_append_right (by omega), hhead]
      rcases Nat.lt_or_ge i (pos + b.length) with hb | hb
      · -- what has been written
        rw [if_pos ⟨hge, hb⟩, List.getElem?_append_left (by omega),
          List.getD_eq_getElem?_getD, List.getElem?_eq_getElem (by omega)]
        rfl
      · rw [if_neg (by omega), List.getElem?_append_right (by omega), List.getElem?_drop,
          List.getD_eq_getElem?_getD,
          show pos + b.length + (i - pos - b.length) = i by omega,
          List.getElem?_eq_getElem (by omega)]
        rfl
  · rw [List.getElem?_eq_none (by rw [length_patch]; omega),
      List.getElem?_eq_none (by rw [length_overwrite]; omega)]

/-- What has been put there is found there. -/
lemma getElem?_patch_add {i : ℕ} (h : i < b.length) : (patch fill l pos b)[pos + i]? = b[i]? := by
  rw [patch_eq_overwrite, getElem?_overwrite (by omega), entry, if_pos (by omega),
    Nat.add_sub_cancel_left, List.getD_eq_getElem?_getD, List.getElem?_eq_getElem h]
  rfl

/-- Outside of it the list is as before. -/
lemma getElem?_patch_of_not {i : ℕ} (h : i < l.length) (hout : i < pos ∨ pos + b.length ≤ i) :
    (patch fill l pos b)[i]? = l[i]? := by
  rw [patch_eq_overwrite, getElem?_overwrite (by omega), entry, if_neg (by omega),
    List.getD_eq_getElem?_getD, List.getElem?_eq_getElem h]
  rfl

/-- What is put at the end of a list is appended. -/
lemma patch_length (fill : α) (l b : List α) : patch fill l l.length b = l ++ b := by
  simp [patch]

end Overwrite
