/-
# What the pool and the queue hold

The pool and the queue keep their capacities, and the queue holds nothing but items.  So the
ledger counts the same items as the queue does.
-/
import LaminaFS.Context.Refinement
import LaminaFS.Lib.HandoffCount

namespace LaminaFS

open Transition

variable {D W : Type} {cfg : Config D W} {s s' : State D W} {act : Action}

/-! ### The pool -/

/-- A step takes a slot, gives one back, or leaves the pool alone. -/
inductive PoolStep (s s' : State D W) : Prop
  | same (hpool : s'.pool = s.pool)
  | alloc (hpool : s'.pool = s.pool.alloc.2)
  | free (v : ℕ) (hpool : s'.pool = s.pool.free v)

lemma clientStep_pool {a : Agent} {act : ClientAct} (hs : clientStep s a act = some s') :
    PoolStep s s' := by
  cases clientMove hs with
  | releases p => exact .free _ rfl
  | _ => exact .same rfl

lemma agentStep_pool {a : Agent} (hs : agentStep cfg s a = some s') : PoolStep s s' := by
  cases agentMove hs with
  | takes c i pool _ halloc => exact .alloc (congrArg Prod.snd halloc).symm
  | _ => exact .same rfl

lemma procStep_pool (hs : procStep s = some s') : PoolStep s s' := by
  cases procMove hs with
  | executes p e _ hs => exact .same (execStep_frame hs).pool
  | releases p => exact .free _ rfl
  | _ => exact .same rfl

lemma step_pool (hs : step cfg s act = some s') : PoolStep s s' := by
  cases stepBy hs with
  | client a act _ hs => exact clientStep_pool hs
  | agent a hs => exact agentStep_pool hs
  | proc hs => exact procStep_pool hs
  | control hs => exact .same (controlStep_frame hs).1.pool
  | controlAct act _ hs => exact .same (controlActStep_frame hs).1.pool
  | callbackReturns => exact .same rfl
  | wakeProc | wakeAgent a => exact .same rfl

lemma step_pool_capacity (hs : step cfg s act = some s') : s'.pool.capacity = s.pool.capacity := by
  cases step_pool hs with
  | same hpool => rw [hpool]
  | alloc hpool => rw [hpool, PoolAllocator.alloc_capacity]
  | free v hpool => rw [hpool, PoolAllocator.free_capacity]

/-! ### The queue -/

/-- A step pushes an item, takes one, or leaves the queue alone. -/
inductive QueueStep (s s' : State D W) (act : Action) : Prop
  | same (hring : s'.ring = s.ring)
  | push (a : Agent) (c : Call) (p : ItemPtr) (hact : act = .agent a)
      (hpc : s.agents a = .pushLock c p) (hfull : s.ring.full = false)
      (hring : s'.ring = (s.ring.push (some p)).ring)
  | pop (hact : act = .proc) (hpc : s.proc.hand = .free) (hring : s'.ring = (s.ring.pop none).2)

lemma agentStep_queue {a : Agent} (hs : agentStep cfg s a = some s') :
    QueueStep s s' (.agent a) := by
  cases agentMove hs with
  | pushes c p hpc hdone =>
    exact .push a c p rfl hpc (by simpa [RingBuffer.push_done] using hdone) rfl
  | _ => exact .same rfl

lemma procStep_queue (hs : procStep s = some s') : QueueStep s s' .proc := by
  cases procMove hs with
  | fetches p ring hpc hpop | findsEmpty ring hpc hpop =>
    exact .pop rfl (by rw [hpc]; rfl) (congrArg Prod.snd hpop).symm
  | executes p e _ hs => exact .same (execStep_frame hs).ring
  | _ => exact .same rfl

lemma step_queue (hs : step cfg s act = some s') : QueueStep s s' act := by
  cases stepBy hs with
  | client a act _ hs => exact .same (clientStep_frame hs).ring
  | agent a hs => exact agentStep_queue hs
  | proc hs => exact procStep_queue hs
  | control hs => exact .same (controlStep_frame hs).1.ring
  | controlAct act _ hs => exact .same (controlActStep_frame hs).1.ring
  | callbackReturns => exact .same rfl
  | wakeProc | wakeAgent a => exact .same rfl

/-- The queue has its capacity, and there are only items in it. -/
structure QueueInv (capacity : ℕ) (s : State D W) : Prop where
  ring : s.ring.WF
  capacity : s.ring.capacity = capacity
  items : none ∉ s.ring.contents

namespace QueueInv

variable {capacity : ℕ}

lemma step (h : QueueInv capacity s) (hs : step cfg s act = some s') : QueueInv capacity s' := by
  cases step_queue hs with
  | same hring =>
    constructor <;> rw [hring]
    · exact h.ring
    · exact h.capacity
    · exact h.items
  | push a c p _ _ hfull hring =>
    constructor <;> rw [hring]
    · exact RingBuffer.wf_push h.ring _
    · rw [RingBuffer.push_capacity]
      exact h.capacity
    · rw [RingBuffer.contents_push h.ring hfull]
      simpa using h.items
  | pop _ _ hring =>
    constructor <;> rw [hring]
    · exact RingBuffer.wf_pop h.ring _
    · rw [RingBuffer.pop_capacity]
      exact h.capacity
    · by_cases hempty : s.ring.contents = []
      · rw [RingBuffer.pop_of_nil h.ring hempty]
        exact h.items
      · intro hnone
        refine h.items ?_
        rw [RingBuffer.pop_of_ne_nil h.ring hempty none]
        exact List.mem_cons_of_mem _ hnone

/-- The ledger counts the items in the queue. -/
lemma length_ledger (h : QueueInv capacity s) : s.ledger.queue.length = s.ring.getCount := by
  have hlength : (s.ring.contents.filterMap id).length = s.ring.contents.length := by
    refine List.filterMap_length_eq_length.mpr fun x hx => ?_
    cases x with
    | none => exact absurd hx h.items
    | some p => rfl
  exact hlength.trans RingBuffer.length_contents

end QueueInv

/-! ### Runs -/

section Runs

variable {pool : PoolAllocator} {capacity : ℕ} {memory : ℕ → WorkItem} {world : W}
  {ok : State D W → Action → Prop}

lemma pool_capacity (h : Reach (step cfg) ok (State.init pool capacity memory world) s) :
    s.pool.capacity = pool.capacity :=
  h.invariant (I := fun s => s.pool.capacity = pool.capacity) rfl
    fun _ _ _ hi _ hs => (step_pool_capacity hs).trans hi

lemma queueInv (hcapacity : 1 ≤ capacity)
    (h : Reach (step cfg) ok (State.init pool capacity memory world) s) : QueueInv capacity s :=
  h.invariant ⟨RingBuffer.wf_new _ hcapacity, rfl, by simp [State.init]⟩
    fun _ _ _ hi _ hs => hi.step hs

end Runs

end LaminaFS
