/-
# Bounded queues

A list of at most `capacity` items.  `push` puts an item behind the others if there is room,
and `pop` takes the first one out, or gives a default value when there is none.
-/
import LaminaFS.Lib.Machine

namespace Fifo

variable {α : Type*} {capacity : ℕ}

/-- A call of the queue. -/
inductive Call (α : Type*) where
  | push (v : α)
  | pop (defaultValue : α)

/-- The answer to a call: whether the item has been taken in, and whether it is the only one
then, or the item that has been taken out. -/
inductive Answer (α : Type*) where
  | pushed (done notify : Bool)
  | popped (v : α)

/-- The queue of the items `l`. -/
def call (capacity : ℕ) (l : List α) : Call α → Answer α × List α
  | .push v =>
    if l.length < capacity then (.pushed true l.isEmpty, l ++ [v])
    else (.pushed false false, l)
  | .pop defaultValue => (.popped (l.headD defaultValue), l.tail)

/-- The items that the calls put into the queue, in their order. -/
def entered (capacity : ℕ) : List α → List (Call α) → List α
  | _, [] => []
  | l, .push v :: calls =>
    (if l.length < capacity then [v] else []) ++
      entered capacity (call capacity l (.push v)).2 calls
  | l, .pop d :: calls => entered capacity (call capacity l (.pop d)).2 calls

/-- The items that the calls take out of the queue, in their order. -/
def gone (capacity : ℕ) : List α → List (Call α) → List α
  | _, [] => []
  | l, .push v :: calls => gone capacity (call capacity l (.push v)).2 calls
  | l, .pop d :: calls => l.take 1 ++ gone capacity (call capacity l (.pop d)).2 calls

/-- **Conservation.**  Nothing is lost, doubled or put into another order: what was there and
what has come in is what has gone out and what is there. -/
theorem entered_gone (l : List α) (calls : List (Call α)) :
    l ++ entered capacity l calls =
      gone capacity l calls ++ (Machine.run (call capacity) l calls).2 := by
  induction calls generalizing l with
  | nil => simp [entered, gone]
  | cons c calls ih =>
    rw [Machine.run_cons]
    cases c with
    | push v =>
      have hnext := ih (call capacity l (.push v)).2
      rw [entered, gone, ← hnext, ← List.append_assoc]
      congr 1
      rw [call]
      split <;> simp
    | pop d =>
      have hnext := ih (call capacity l (.pop d)).2
      rw [entered, gone, List.append_assoc, ← hnext, ← List.append_assoc]
      congr 1
      exact (List.take_append_drop 1 l).symm.trans (by rw [call, List.drop_one])

/-- The queue stays within its capacity. -/
lemma length_call {l : List α} (h : l.length ≤ capacity) (c : Call α) :
    (call capacity l c).2.length ≤ capacity := by
  cases c with
  | push v =>
    rw [call]
    split
    · rw [List.length_append, List.length_singleton]
      omega
    · exact h
  | pop d =>
    rw [call, List.length_tail]
    omega

end Fifo
