/-
# Slots that are taken and given back

`capacity` slots, each with an address.  The state is the set of the slots that are live.
`alloc` takes the lowest slot that is not live, and `free` gives the slot at an address back.
-/
import LaminaFS.Lib.Machine
import Mathlib.Data.Finset.Basic

namespace Slots

variable {capacity : ℕ} {live : Finset ℕ} {i : ℕ}

/-- A call, with the address that it is made with. -/
inductive Call where
  | alloc
  | free (v : ℕ)

/-- The lowest slot that is not live. -/
def lowest (capacity : ℕ) (live : Finset ℕ) : Option ℕ :=
  (List.range capacity).find? fun i => decide (i ∉ live)

/-- The answer to a call, an address or nothing, and the slots that are live then. -/
def call (address : ℕ → ℕ) (capacity : ℕ) (live : Finset ℕ) : Call → Option ℕ × Finset ℕ
  | .alloc =>
    match lowest capacity live with
    | some i => (some (address i), insert i live)
    | none => (none, live)
  | .free v => (none, live.filter fun i => address i ≠ v)

lemma lowest_eq_none : lowest capacity live = none ↔ ∀ i < capacity, i ∈ live := by
  rw [lowest, List.find?_eq_none]
  simp

lemma lowest_eq_some :
    lowest capacity live = some i ↔ i < capacity ∧ i ∉ live ∧ ∀ j < i, j ∈ live := by
  rw [lowest, List.find?_range_eq_some, decide_eq_true_eq, List.mem_range, and_left_comm]
  simp

end Slots
