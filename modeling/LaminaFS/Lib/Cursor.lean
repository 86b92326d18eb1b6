/-
# Searching through a cursor

A search asks the candidates of a list one after the other until one of them ends it; asking
changes a state.  A cursor has no position: it gives the candidate behind the one with a given
key.  Where the cursor follows the list, the search through the cursor is the search along the
list, and it ends.
-/
import Mathlib.Tactic.Common

namespace Cursor

variable {α β κ σ : Type*}

/-- The effect of asking a candidate: the new state, a record of the answer, and whether the
search is over. -/
structure Answer (σ β : Type*) where
  state : σ
  record : β
  stop : Bool

/-- The search along a list.  The candidates are asked in turn, the `i`-th with the number
`i`; the records of the answers are kept. -/
def search (ask : ℕ → α → σ → Answer σ β) : ℕ → List α → σ → σ × List β
  | _, [], s => (s, [])
  | i, a :: as, s =>
    let answer := ask i a s
    if answer.stop then (answer.state, [answer.record])
    else
      let later := search ask (i + 1) as answer.state
      (later.1, answer.record :: later.2)

/-- The search through a cursor; `next i k` is the candidate behind the one with the key `k`,
as the cursor sees it in the `i`-th round. -/
def searchBy (next : ℕ → Option κ → Option α) (key : α → κ) (ask : ℕ → α → σ → Answer σ β) :
    ℕ → ℕ → Option κ → σ → Option (σ × List β)
  | 0, _, _, _ => none
  | fuel + 1, i, k, s =>
    match next i k with
    | none => some (s, [])
    | some a =>
      let answer := ask i a s
      if answer.stop then some (answer.state, [answer.record])
      else
        (searchBy next key ask fuel (i + 1) (some (key a)) answer.state).map
          fun later => (later.1, answer.record :: later.2)

variable {ask : ℕ → α → σ → Answer σ β} {next : ℕ → Option κ → Option α} {key : α → κ}

/-- **The cursor rule.**  If the cursor starts at the head of the list and gives, for every
candidate of the list, the one behind it, then the search through the cursor is the search
along the list. -/
theorem searchBy_eq_search {l : List α} {i fuel : ℕ} {k : Option κ} {s : σ}
    (start : next i k = l.head?)
    (follow : ∀ j a as, a :: as <:+ l → next j (some (key a)) = as.head?)
    (hfuel : l.length < fuel) :
    searchBy next key ask fuel i k s = some (search ask i l s) := by
  induction l generalizing i fuel k s with
  | nil =>
    obtain ⟨fuel, rfl⟩ := Nat.exists_eq_succ_of_ne_zero (Nat.ne_of_gt hfuel)
    simp [searchBy, search, start]
  | cons a as ih =>
    obtain ⟨fuel, rfl⟩ := Nat.exists_eq_succ_of_ne_zero (Nat.ne_of_gt (Nat.zero_lt_of_lt hfuel))
    have ih := @ih (i + 1) fuel (some (key a)) (ask i a s).state
      (follow _ _ _ (List.suffix_refl _))
      (fun j b bs hb => follow j b bs (hb.trans (List.suffix_cons a as)))
      (by simpa using hfuel)
    rw [searchBy, start, List.head?_cons, search]
    dsimp only
    split
    · rfl
    · rw [ih, Option.map_some]

/-! ### What a search has asked -/

section Records

variable {f : β → α} {l : List α} {i : ℕ} {s : σ}

/-- The candidates asked are the first ones of the list. -/
lemma map_search_prefix (hf : ∀ i a s, f (ask i a s).record = a) :
    (search ask i l s).2.map f <+: l := by
  induction l generalizing i s with
  | nil => simp [search]
  | cons a as ih =>
    rw [search]
    dsimp only
    split
    · simp [hf]
    · simpa [hf] using @ih (i + 1) (ask i a s).state

/-- How a search ends.  Either the last candidate asked has ended it and all before it have
missed, or the whole list has been asked and everyone has missed. -/
lemma search_end (missed : β → Prop) (unresolved : σ → Prop) (final : β → σ → Prop)
    (hf : ∀ i a s, f (ask i a s).record = a)
    (hstop : ∀ i a s, unresolved s → (ask i a s).stop = true →
      final (ask i a s).record (ask i a s).state)
    (hmiss : ∀ i a s, unresolved s → (ask i a s).stop = false →
      missed (ask i a s).record ∧ unresolved (ask i a s).state)
    (hs : unresolved s) :
    (∃ before b, (search ask i l s).2 = before ++ [b] ∧ (∀ c ∈ before, missed c) ∧
        final b (search ask i l s).1) ∨
      ((search ask i l s).2.map f = l ∧ (∀ c ∈ (search ask i l s).2, missed c) ∧
        unresolved (search ask i l s).1) := by
  induction l generalizing i s with
  | nil => exact Or.inr ⟨rfl, by simp [search], hs⟩
  | cons a as ih =>
    rw [search]
    dsimp only
    cases hend : (ask i a s).stop with
    | true =>
      rw [if_pos rfl]
      exact Or.inl ⟨[], _, rfl, by simp, hstop i a s hs hend⟩
    | false =>
      rw [if_neg (by simp)]
      obtain ⟨hm, ho⟩ := hmiss i a s hs hend
      rcases @ih (i + 1) (ask i a s).state ho with ⟨before, b, h₁, h₂, h₃⟩ | ⟨h₁, h₂, h₃⟩
      · refine Or.inl ⟨(ask i a s).record :: before, b, by simp [h₁], ?_, h₃⟩
        rintro c (_ | ⟨_, hc⟩)
        · exact hm
        · exact h₂ c hc
      · refine Or.inr ⟨by simp [hf, h₁], ?_, h₃⟩
        rintro c (_ | ⟨_, hc⟩)
        · exact hm
        · exact h₂ c hc

/-- A search in which the candidates alone decide, while the states meet `inv`, finds the first
one that `p` holds of, and its answer is the last. -/
lemma search_eq_find {p : α → Bool} (inv : σ → Prop)
    (hstop : ∀ i a s, a ∈ l → inv s → (ask i a s).stop = p a)
    (hinv : ∀ i a s, a ∈ l → inv s → p a = false → inv (ask i a s).state) (hs : inv s) :
    (l.find? p = none ∧ inv (search ask i l s).1) ∨
      ∃ a j s' before, l.find? p = some a ∧ inv s' ∧
        (search ask i l s).1 = (ask j a s').state ∧
        (search ask i l s).2 = before ++ [(ask j a s').record] := by
  induction l generalizing i s with
  | nil => exact Or.inl ⟨rfl, hs⟩
  | cons a as ih =>
    rw [search, List.find?_cons]
    dsimp only
    rw [hstop i a s (by simp) hs]
    cases ha : p a with
    | true => exact Or.inr ⟨a, i, s, [], rfl, hs, rfl, rfl⟩
    | false =>
      rw [if_neg (by simp)]
      rcases @ih (i + 1) (ask i a s).state (fun j b t hb => hstop j b t (by simp [hb]))
        (fun j b t hb => hinv j b t (by simp [hb])) (hinv i a s (by simp) hs ha) with h | h
      · exact Or.inl h
      · obtain ⟨b, j, s', before, h₁, h₂, h₃, h₄⟩ := h
        exact Or.inr ⟨b, j, s', (ask i a s).record :: before, h₁, h₂, h₃, by simp [h₄]⟩

end Records

end Cursor
