/-
# `util::RingBuffer`

The critical sections of `push` and `pop`, and `getCount`, on the fields of the class.
Equal positions mean an empty or a full buffer, and `full` tells which.  `contents` reads
the buffer as the queue it stands for, oldest item first; `push` and `pop` are described by
what they do to it.
-/
import LaminaFS.Lib.Fifo
import Mathlib.Logic.Function.Basic

namespace LaminaFS

/-- The fields of `RingBuffer<T>`; `buffer` is the memory behind `_buffer`. -/
structure RingBuffer (α : Type) where
  buffer : ℕ → α
  capacity : ℕ
  readPos : ℕ
  writePos : ℕ
  full : Bool

namespace RingBuffer

variable {α : Type}

/-- The constructor; the memory is not initialised. -/
def new (memory : ℕ → α) (capacity : ℕ) : RingBuffer α where
  buffer := memory
  capacity := capacity
  readPos := 0
  writePos := 0
  full := false

/-- A position moved on by one, with the wrap at the end of the buffer. -/
def next (capacity pos : ℕ) : ℕ := if pos + 1 = capacity then 0 else pos + 1

/-- What the critical section of `push` leaves: the buffer and the flags `notify` and
`done`. -/
structure Pushed (α : Type) where
  ring : RingBuffer α
  notify : Bool
  done : Bool

/-- The critical section of `push`. -/
def push (r : RingBuffer α) (v : α) : Pushed α :=
  if r.full then ⟨r, false, false⟩
  else
    let notify := r.writePos == r.readPos
    let writePos := next r.capacity r.writePos
    ⟨{ r with
        buffer := Function.update r.buffer r.writePos v
        writePos := writePos
        full := writePos == r.readPos }, notify, true⟩

/-- `pop`: the item, or the default value when the buffer is empty. -/
def pop (r : RingBuffer α) (defaultValue : α) : α × RingBuffer α :=
  if r.full || r.readPos != r.writePos then
    (r.buffer r.readPos, { r with full := false, readPos := next r.capacity r.readPos })
  else (defaultValue, r)

/-- `getCount`. -/
def getCount (r : RingBuffer α) : ℕ :=
  if r.full then r.capacity
  else if r.readPos ≤ r.writePos then r.writePos - r.readPos
  else r.capacity - r.readPos + r.writePos

/-- The representation invariant. -/
structure WF (r : RingBuffer α) : Prop where
  read_lt : r.readPos < r.capacity
  write_lt : r.writePos < r.capacity
  full_eq : r.full = true → r.readPos = r.writePos

/-- The `k`-th cell from the read position on. -/
def cell (r : RingBuffer α) (k : ℕ) : ℕ :=
  if r.readPos + k < r.capacity then r.readPos + k else r.readPos + k - r.capacity

/-- The items in the buffer, oldest first. -/
def contents (r : RingBuffer α) : List α :=
  (List.range r.getCount).map fun k => r.buffer (r.cell k)

variable {r : RingBuffer α}

lemma wf_new (memory : ℕ → α) {capacity : ℕ} (h : 1 ≤ capacity) : (new memory capacity).WF :=
  ⟨h, h, by simp [new]⟩

@[simp] lemma contents_new (memory : ℕ → α) (capacity : ℕ) :
    (new memory capacity).contents = [] := by
  simp [contents, getCount, new]

@[simp] lemma length_contents : r.contents.length = r.getCount := by simp [contents]

lemma next_lt {capacity pos : ℕ} (h : pos < capacity) : next capacity pos < capacity := by
  unfold next
  split <;> omega

lemma getCount_le (h : r.WF) : r.getCount ≤ r.capacity := by
  have h₁ := h.read_lt
  have h₂ := h.write_lt
  unfold getCount
  split_ifs <;> omega

/-- The buffer is empty exactly when the positions agree and it is not full. -/
lemma contents_eq_nil (h : r.WF) :
    r.contents = [] ↔ r.full = false ∧ r.readPos = r.writePos := by
  have h₁ := h.read_lt
  have h₂ := h.write_lt
  rw [← List.length_eq_zero_iff, length_contents, getCount]
  cases r.full
  · simp only [Bool.false_eq_true, if_false, true_and]
    split_ifs <;> omega
  · simp only [if_true, Bool.true_eq_false, false_and, iff_false]
    omega

lemma full_iff (h : r.WF) : r.full = true ↔ r.contents.length = r.capacity := by
  have h₁ := h.read_lt
  have h₂ := h.write_lt
  rw [length_contents, getCount]
  cases r.full
  · simp only [Bool.false_eq_true, if_false, false_iff]
    split_ifs <;> omega
  · simp

/-! ### `push` -/

@[simp] lemma push_capacity (v : α) : (r.push v).ring.capacity = r.capacity := by
  unfold push
  split <;> rfl

lemma push_done (v : α) : (r.push v).done = !r.full := by
  cases hf : r.full <;> simp [push, hf]

lemma wf_push (h : r.WF) (v : α) : (r.push v).ring.WF := by
  cases hf : r.full with
  | true => simpa [push, hf] using h
  | false =>
    simp only [push, hf, Bool.false_eq_true, if_false]
    refine ⟨h.read_lt, next_lt h.write_lt, ?_⟩
    intro he
    exact (beq_iff_eq.mp he).symm

/-- `push` notifies exactly on the step from empty to not empty. -/
lemma push_notify (h : r.WF) (v : α) : (r.push v).notify = true ↔ r.contents = [] := by
  rw [contents_eq_nil h]
  cases hf : r.full with
  | true => simp [push, hf]
  | false =>
    simp only [push, hf, Bool.false_eq_true, if_false, true_and, beq_iff_eq]
    exact eq_comm

lemma getCount_push (h : r.WF) (hf : r.full = false) (v : α) :
    (r.push v).ring.getCount = r.getCount + 1 := by
  have h₁ := h.read_lt
  have h₂ := h.write_lt
  simp only [push, hf, Bool.false_eq_true, if_false, getCount, next, beq_iff_eq]
  split_ifs <;> omega

/-- A push on a buffer that is not full appends the item. -/
lemma contents_push (h : r.WF) (hf : r.full = false) (v : α) :
    (r.push v).ring.contents = r.contents ++ [v] := by
  have h₁ := h.read_lt
  have h₂ := h.write_lt
  have hcount : r.getCount < r.capacity := by
    simp only [getCount, hf, Bool.false_eq_true, if_false]
    split_ifs <;> omega
  have hlast : r.cell r.getCount = r.writePos := by
    simp only [cell, getCount, hf, Bool.false_eq_true, if_false]
    split_ifs <;> omega
  have hbuf : (r.push v).ring.buffer = Function.update r.buffer r.writePos v := by
    simp [push, hf]
  have hcell : ∀ k, (r.push v).ring.cell k = r.cell k := by
    intro k
    simp [push, hf, cell]
  unfold contents
  rw [getCount_push h hf, List.range_succ, List.map_append, List.map_singleton, hbuf, hcell,
    hlast, Function.update_self]
  congr 1
  refine List.map_congr_left fun k hk => ?_
  have hk := List.mem_range.mp hk
  rw [hcell, Function.update_of_ne]
  -- the cells in use are other cells than the one written
  rw [← hlast]
  unfold cell
  split_ifs <;> omega

/-! ### `pop` -/

lemma wf_pop (h : r.WF) (d : α) : (r.pop d).2.WF := by
  unfold pop
  split
  · exact ⟨next_lt h.read_lt, h.write_lt, by simp⟩
  · exact h

@[simp] lemma pop_capacity (d : α) : (r.pop d).2.capacity = r.capacity := by
  unfold pop
  split <;> rfl

/-- `pop` on an empty buffer gives the default value and changes nothing. -/
lemma pop_of_nil (h : r.WF) (hr : r.contents = []) (d : α) : r.pop d = (d, r) := by
  obtain ⟨hf, he⟩ := (contents_eq_nil h).mp hr
  simp [pop, hf, he]

lemma getCount_pop (h : r.WF) (hr : r.contents ≠ []) (d : α) :
    r.getCount = (r.pop d).2.getCount + 1 := by
  have h₁ := h.read_lt
  have h₂ := h.write_lt
  have h₃ := h.full_eq
  rw [Ne, contents_eq_nil h] at hr
  unfold pop
  cases hf : r.full with
  | true =>
    have h₃ := h₃ hf
    simp only [Bool.true_or, if_true, getCount, hf, next, Bool.false_eq_true, if_false]
    split_ifs <;> omega
  | false =>
    have hne : r.readPos ≠ r.writePos := fun he => hr ⟨hf, he⟩
    have hb : (r.readPos != r.writePos) = true := bne_iff_ne.mpr hne
    simp only [Bool.false_or, hb, if_true, getCount, hf, next, Bool.false_eq_true, if_false]
    split_ifs <;> omega

/-- `pop` on a buffer that is not empty takes the oldest item out. -/
lemma pop_of_ne_nil (h : r.WF) (hr : r.contents ≠ []) (d : α) :
    r.contents = (r.pop d).1 :: (r.pop d).2.contents := by
  have h₁ := h.read_lt
  have hcount := getCount_pop h hr d
  have hle := getCount_le h
  have hpop : r.pop d =
      (r.buffer r.readPos, { r with full := false, readPos := next r.capacity r.readPos }) := by
    rw [Ne, contents_eq_nil h] at hr
    unfold pop
    refine if_pos ?_
    cases hf : r.full with
    | true => rfl
    | false => simpa using fun he => hr ⟨hf, he⟩
  have hcell : ∀ k, k + 1 < r.capacity → (r.pop d).2.cell k = r.cell (k + 1) := by
    intro k hk
    rw [hpop]
    simp only [cell, next]
    split_ifs <;> omega
  have hbuf : (r.pop d).2.buffer = r.buffer := by rw [hpop]
  have hfirst : r.buffer (r.cell 0) = (r.pop d).1 := by
    rw [hpop, cell, Nat.add_zero, if_pos h₁]
  unfold contents
  rw [hcount, List.range_succ_eq_map, List.map_cons, hfirst, List.map_map, hbuf]
  congr 1
  refine List.map_congr_left fun k hk => ?_
  have hk := List.mem_range.mp hk
  rw [Function.comp_apply, hcell k (by omega)]

/-- What `pop` of a buffer of pointers gives, when it is not the null pointer, was in the
buffer. -/
lemma contents_of_pop_some {q q' : RingBuffer (Option α)} {x : α} (h : q.WF)
    (hpop : q.pop none = (some x, q')) : q.contents = some x :: q'.contents := by
  have hne : q.contents ≠ [] := fun hnil => by
    rw [pop_of_nil h hnil, Prod.mk.injEq] at hpop
    exact Option.some_ne_none x hpop.1.symm
  rw [pop_of_ne_nil h hne none, hpop]

/-- A `pop` that gives the null pointer takes nothing but a null pointer out. -/
lemma contents_of_pop_none {q q' : RingBuffer (Option α)} (h : q.WF)
    (hpop : q.pop none = (none, q')) :
    q.contents = q'.contents ∨ q.contents = none :: q'.contents := by
  by_cases hnil : q.contents = []
  · rw [pop_of_nil h hnil, Prod.mk.injEq] at hpop
    exact Or.inl (congrArg contents hpop.2)
  · refine Or.inr ?_
    rw [pop_of_ne_nil h hnil none, hpop]

/-! ### Critical sections of any threads -/

/-- The answer of a critical section, and the buffer that it leaves. -/
def call (r : RingBuffer α) : Fifo.Call α → Fifo.Answer α × RingBuffer α
  | .push v => (.pushed (r.push v).done (r.push v).notify, (r.push v).ring)
  | .pop defaultValue => (.popped (r.pop defaultValue).1, (r.pop defaultValue).2)

/-- The index at which a critical section reads or writes `_buffer`. -/
def indexUsed (r : RingBuffer α) : Fifo.Call α → Option ℕ
  | .push _ => if r.full then none else some r.writePos
  | .pop _ => if r.full || r.readPos != r.writePos then some r.readPos else none

/-- The buffer represents the queue of the items `queue`. -/
structure Represents (capacity : ℕ) (r : RingBuffer α) (queue : List α) : Prop where
  wf : r.WF
  capacity_eq : r.capacity = capacity
  contents_eq : r.contents = queue

/-- A critical section does to the buffer what the queue does. -/
lemma Represents.call {capacity : ℕ} {queue : List α} (h : Represents capacity r queue)
    (c : Fifo.Call α) :
    (r.call c).1 = (Fifo.call capacity queue c).1 ∧
      Represents capacity (r.call c).2 (Fifo.call capacity queue c).2 := by
  obtain ⟨hwf, rfl, rfl⟩ := h
  cases c with
  | push v =>
    have hfull := full_iff hwf
    have hle := getCount_le hwf
    rw [← length_contents] at hle
    have hnotify := push_notify hwf v
    have hdone := push_done (r := r) v
    rw [RingBuffer.call, Fifo.call]
    cases hf : r.full with
    | true =>
      rw [if_neg (by rw [hfull.mp hf]; exact Nat.lt_irrefl _)]
      have hpush : r.push v = ⟨r, false, false⟩ := by rw [push, if_pos hf]
      rw [hpush]
      exact ⟨rfl, hwf, rfl, rfl⟩
    | false =>
      have hne : r.contents.length ≠ r.capacity := fun he => by
        rw [hfull.mpr he] at hf
        cases hf
      rw [if_pos (by omega)]
      refine ⟨?_, wf_push hwf v, push_capacity v, contents_push hwf hf v⟩
      rw [hdone, hf, Bool.eq_iff_iff.mpr (hnotify.trans List.isEmpty_iff.symm)]
      rfl
  | pop d =>
    rw [RingBuffer.call, Fifo.call]
    by_cases hr : r.contents = []
    · rw [pop_of_nil hwf hr, hr]
      exact ⟨rfl, hwf, rfl, hr⟩
    · have hpop := pop_of_ne_nil hwf hr d
      rw [hpop]
      exact ⟨rfl, wf_pop hwf d, pop_capacity d, rfl⟩

lemma WF.indexUsed_lt (h : r.WF) {c : Fifo.Call α} {i : ℕ} (hi : r.indexUsed c = some i) :
    i < r.capacity := by
  cases c with
  | push v =>
    rw [indexUsed] at hi
    split at hi <;> cases hi
    exact h.write_lt
  | pop d =>
    rw [indexUsed] at hi
    split at hi <;> cases hi
    exact h.read_lt

/-- **The ring buffer is a bounded queue.**  Whatever critical sections are run one after the
other, they answer as those of a queue with the capacity of the buffer, and the buffer
represents that queue: nothing is lost, doubled or put into another order. -/
theorem run_refines_fifo (memory : ℕ → α) {capacity : ℕ} (h : 1 ≤ capacity)
    (calls : List (Fifo.Call α)) :
    let r := (Machine.run call (new memory capacity) calls).2
    let queue := (Machine.run (Fifo.call capacity) [] calls).2
    (Machine.run call (new memory capacity) calls).1 =
        (Machine.run (Fifo.call capacity) [] calls).1 ∧
      r.WF ∧ r.contents = queue ∧ r.getCount = queue.length ∧ queue.length ≤ capacity ∧
      Fifo.entered capacity [] calls = Fifo.gone capacity [] calls ++ queue ∧
      ∀ c i, r.indexUsed c = some i → i < capacity := by
  intro r queue
  have hinit : Represents capacity (new memory capacity) ([] : List α) :=
    ⟨wf_new memory h, rfl, contents_new memory capacity⟩
  obtain ⟨hanswers, hwf, hcapacity, hcontents⟩ := Machine.simulate
    (fun _ _ c hr _ => hr.call c) hinit (Machine.allowed_of_forall (fun _ _ => trivial) calls)
  have hcount : r.getCount = queue.length := by rw [← length_contents, hcontents]
  have hlength : queue.length ≤ capacity :=
    Machine.invariant (I := fun l : List α => l.length ≤ capacity)
      (fun _ c hl _ => Fifo.length_call hl c) (Nat.zero_le _)
      (Machine.allowed_of_forall (fun _ _ => trivial) calls)
  refine ⟨hanswers, hwf, hcontents, hcount, hlength, Fifo.entered_gone [] calls, ?_⟩
  intro c i hi
  have hlt := hwf.indexUsed_lt hi
  rw [hcapacity] at hlt
  exact hlt

/-- Three items go through two cells. -/
theorem run_refines_fifo_two :
    let calls : List (Fifo.Call ℕ) := [.push 7, .push 8, .pop 0, .push 9]
    let r := (Machine.run call (new (fun _ => 0) 2) calls).2
    let queue := (Machine.run (Fifo.call 2) [] calls).2
    (Machine.run call (new (fun _ => 0) 2) calls).1 = (Machine.run (Fifo.call 2) [] calls).1 ∧
      r.WF ∧ r.contents = queue ∧ r.getCount = queue.length ∧ queue.length ≤ 2 ∧
      Fifo.entered 2 [] calls = Fifo.gone 2 [] calls ++ queue ∧
      ∀ c i, r.indexUsed c = some i → i < 2 :=
  run_refines_fifo (fun _ => 0) (by decide) [.push 7, .push 8, .pop 0, .push 9]

end RingBuffer

end LaminaFS
