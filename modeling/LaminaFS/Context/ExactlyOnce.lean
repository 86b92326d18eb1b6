/-
# Every callback is called exactly once

A call that finds no slot finds none because all of them are taken; they are taken by the items
that are being submitted, that are in the queue and that the processing thread has.  When there
are none of these, all callbacks have been called, each by the one or the other thread.
-/
import LaminaFS.Context.CallbackRuns

namespace LaminaFS

open Transition

variable {D W : Type} {cfg : Config D W} {s s' s₀ : State D W} {a : Agent} {c : Call} {g : ℕ}
  {act : Action} {ok : State D W → Action → Prop}

/-! ### Slots that are taken -/

/-- The agent has a slot, and fills it or pushes it. -/
def AgentPc.fills : AgentPc → Bool
  | .construct .. | .store .. | .pushTest .. | .pushLock .. => true
  | _ => false

/-- The slots that are taken. -/
def State.liveSlots (s : State D W) : ℕ :=
  ((List.range s.pool.capacity).filter fun i => !s.pool.isFree i).length

/-- No submission is in progress, the queue is empty, and the processing thread has no item. -/
structure State.Quiet (s : State D W) : Prop where
  agents : ∀ a, (s.agents a).asksForSlot = none ∧ (s.agents a).submits = false
  queue : s.ring.contents = []
  proc : s.proc.hand = .free

/-- All slots are taken. -/
def State.exhausted (s : State D W) : Prop := ∀ i < s.pool.capacity, s.pool.isFree i = false

lemma isBuilding_iff {pc : AgentPc} : pc.role.IsBuilding ↔ pc.fills = true := by
  cases pc <;> simp [AgentPc.role, AgentPc.fills, Handoff.Role.IsBuilding]

lemma submits_of_fills {pc : AgentPc} (h : pc.fills = true) : pc.submits = true := by
  cases pc <;> first | rfl | cases h

lemma ptrs_eq (pc : ProcPc D W) : pc.hand.ptrs = pc.item.toList := by
  cases pc <;> rfl

lemma alloc_none_iff (hpool : s.pool.WF) : s.pool.alloc.1 = none ↔ s.exhausted := by
  rw [PoolAllocator.alloc_eq_none]
  constructor
  · intro h i _
    exact h i
  · intro h i
    by_contra hfree
    rw [Bool.not_eq_false] at hfree
    rw [h i (hpool.free_lt i hfree)] at hfree
    cases hfree

/-! ### The call that finds no slot -/

/-- The call of `_workItemPool.alloc()` fails exactly if all slots are taken, and then it changes
nothing. -/
lemma alloc_step (hpool : s.pool.WF) (hpc : s.agents a = .alloc c)
    (hs : step cfg s (.agent a) = some s') :
    (s'.agents a = .failed c ↔ s.exhausted) ∧
      (s.exhausted → s' = { s with agents := Function.update s.agents a (.failed c) }) := by
  have hnone := alloc_none_iff hpool
  simp only [step, agentStep, hpc] at hs
  split at hs <;> rename_i halloc <;> rw [halloc] at hnone <;> cases hs
  · exact ⟨iff_of_true (Function.update_self _ _ _) (hnone.mp rfl), fun _ => rfl⟩
  · have hsome : ¬s.exhausted := fun h => by cases hnone.mpr h
    refine ⟨iff_of_false ?_ hsome, fun h => absurd h hsome⟩
    dsimp only
    rw [Function.update_self]
    simp

/-- The agent calls the callback, and does nothing else to what others see. -/
lemma failed_step (hc : c.withCallback.isSome = true) (hpc : s.agents a = .failed c)
    (hs : step cfg s (.agent a) = some s') :
    s' = { s with agents := Function.update s.agents a .idle, log := .errorCallback a c :: s.log }
    := by
  simp only [step, agentStep, hpc, Call.callback_isSome, hc, if_true, Option.some.injEq] at hs
  exact hs.symm

lemma comesToFail (hs : step cfg s act = some s') (hpc' : s'.agents a = .failed c) :
    s.agents a = .failed c ∨ act = .agent a ∧ s.agents a = .alloc c ∧ s.pool.alloc.1 = none := by
  by_cases hact : act = .agent a
  · subst hact
    refine Or.inr ⟨rfl, ?_⟩
    cases agentMove (show agentStep cfg s a = some s' from hs) with
    | noSlot c' pool hpc halloc =>
      dsimp only at hpc'
      rw [Function.update_self] at hpc'
      cases hpc'
      exact ⟨hpc, congrArg Prod.fst halloc⟩
    | pushes =>
      dsimp only at hpc'
      rw [Function.update_self] at hpc'
      split at hpc' <;> cases hpc'
    | _ =>
      dsimp only at hpc'
      rw [Function.update_self] at hpc'
      cases hpc'
  · refine Or.inl ?_
    rcases step_agents hs hact with ha | ha | ⟨hidle, -⟩
    · rw [← ha, hpc']
    · rw [hpc'] at ha
      cases hpc : s.agents a <;> rw [hpc] at ha <;> first | exact ha.symm | cases ha
    · rcases asks_step hs (by rw [hpc']; rfl) with hasks | hclient
      · rw [hidle] at hasks
        cases hasks
      · -- a call begins with the pool
        subst hclient
        cases stepBy hs with
        | client _ _ _ hs =>
          cases hs
          dsimp only at hpc'
          rw [Function.update_self] at hpc'
          cases hpc'

/-- On the way to the state the agent has come to the pool with the call, and all slots were
taken. -/
def State.Refused (s : State D W) (cfg : Config D W) (ok : State D W → Action → Prop)
    (s₀ : State D W) (a : Agent) (c : Call) : Prop :=
  ∃ t, Reach (step cfg) ok s₀ t ∧ t.agents a = .alloc c ∧ t.exhausted ∧ Reach (step cfg) ok t s

lemma Refused.trans (h : s.Refused cfg ok s₀ a c) (hr : Reach (step cfg) ok s s') :
    s'.Refused cfg ok s₀ a c := by
  obtain ⟨t, h₀, hpc, hexhausted, h₁⟩ := h
  exact ⟨t, h₀, hpc, hexhausted, h₁.trans hr⟩

/-- The calls that have found no slot, and those that are about to say so. -/
structure RefusalInv (cfg : Config D W) (ok : State D W → Action → Prop) (s₀ s : State D W) :
    Prop where
  called : ∀ a c, .errorCallback a c ∈ s.log → s.Refused cfg ok s₀ a c
  due : ∀ a c, s.agents a = .failed c → s.Refused cfg ok s₀ a c

lemma RefusalInv.step (h : RefusalInv cfg ok s₀ s) (hr : Reach (LaminaFS.step cfg) ok s₀ s)
    (hok : ok s act) (hpool : s.pool.WF) (hs : LaminaFS.step cfg s act = some s') :
    RefusalInv cfg ok s₀ s' := by
  have hnext : Reach (LaminaFS.step cfg) ok s s' := .tail .refl hok hs
  constructor
  · intro a c hev
    rcases errorCallback_step hs hev with hold | hpc
    · exact Refused.trans (h.called a c hold) hnext
    · exact Refused.trans (h.due a c hpc) hnext
  · intro a c hpc'
    rcases comesToFail hs hpc' with hpc | ⟨-, hpc, hnone⟩
    · exact Refused.trans (h.due a c hpc) hnext
    · exact ⟨s, hr, hpc, (alloc_none_iff hpool).mp hnone, hnext⟩

/-! ### What holds together -/

/-- What an agent without a slot does on its own: the path is copied, the callback is called with
an item that says that there is none, and the copy is freed. -/
lemma outOfSlots_eq (hc : c.CallsBack) (contextAlloc : Allocator) (stack : Option Allocator)
    (block : ℕ) : ∃ cb ∈ c.withCallback, ∃ errorItem : WorkItem,
      c.outOfSlots contextAlloc stack block = [.allocPath block,
        .callback cb.callback errorItem cb.callbackUserData, .freePath block] ∧
      errorItem.resultCode = .outOfWorkItems ∧ errorItem.completed = true := by
  obtain ⟨cb, hcb, -⟩ := hc
  obtain ⟨verb, path, callback⟩ := c
  cases hcb
  cases verb <;> exact ⟨cb, rfl, _, rfl, rfl, rfl⟩

lemma plan_callback {cb : CallbackArgs} (hcb : cb ∈ c.withCallback) (contextAlloc : Allocator) :
    (c.plan contextAlloc).callback = some cb.callback := by
  obtain ⟨verb, path, callback⟩ := c
  cases hcb
  cases verb <;> rfl

namespace CallbackInv

/-- What is called is the callback of the submission's own call. -/
lemma calls_own (h : CallbackInv s) (hk : Accounted cfg s) {p : ItemPtr}
    (hpc : s.proc = .invoke p) : s.occupant p.slot = p.submission ∧
      ∃ cb ∈ (s.tickets p.submission).call.withCallback,
        (s.slots p.slot).callback = some cb.callback := by
  obtain ⟨hrec, hposted⟩ := posted_of_hand hk (p := p) (Or.inl (by rw [hpc]; rfl))
  have hfits := fits_of_hand hk.ledger (show s.proc.hand = .calling p by rw [hpc]; rfl)
  have hst : s.stage p.submission = .completed := hfits.2.1
  obtain ⟨cb, hcb, -⟩ := h.tickets p.submission (by rw [hst]; simp)
  refine ⟨OwnInv.occupant_of_live hk.ledger hfits.1 (by rw [hst]; rfl), cb, hcb, ?_⟩
  rw [hrec, (hk.own.records _ hposted).1]
  exact plan_callback hcb cfg.contextAlloc

lemma live_stage (hk : Accounted cfg s) (h : CallbackInv s) (hquiet : s.Quiet)
    (hcount : Handoff.Counted s.pool.capacity s.ledger) : (s.stage g).isLive = false := by
  by_contra hlive
  rw [Bool.not_eq_false] at hlive
  have hdead : s.ledger.hand ≠ .dead := by
    rw [show s.ledger.hand = .free from hquiet.proc]
    simp
  have hmem := (Handoff.mem_inUse hk.ledger (fun _ hborn => h.byWorker hborn) hdead).mpr hlive
  rw [Handoff.Ledger.inUse, show s.ledger.hand = .free from hquiet.proc,
    show s.ledger.queue = [] by show s.ring.contents.filterMap id = _; rw [hquiet.queue]; rfl]
    at hmem
  have hbuilding : g ∈ s.ledger.building := by simpa [Handoff.Hand.ptrs] using hmem
  -- who builds it is in a submission
  have hrole := hcount.building g ((Handoff.mem_building hk.ledger).mp hbuilding)
  have hfills : (s.agents (s.tickets g).agent).fills = true := isBuilding_iff.mp ⟨_, hrole⟩
  have hno := (hquiet.agents (s.tickets g).agent).2
  rw [submits_of_fills hfills] at hno
  cases hno

/-- When nothing is going on, all that have been given a slot have been called. -/
lemma calls_of_quiet (hk : Accounted cfg s) (h : CallbackInv s) (hquiet : s.Quiet)
    (hcount : Handoff.Counted s.pool.capacity s.ledger) (hlt : g < s.nextSubmission) :
    s.calls g = 1 := by
  have hborn : s.stage g ≠ .unborn := fun hst =>
    Nat.not_le_of_lt hlt ((hk.ledger.born g).mp hst)
  have hlive := live_stage (g := g) hk h hquiet hcount
  have hst : s.stage g = .released := by
    cases hst : s.stage g <;> rw [hst] at hlive hborn <;> first
      | rfl
      | exact absurd rfl hborn
      | cases hlive
  rw [calls_eq_ledger, hk.ledger.calls, if_pos (Or.inr ⟨hst, h.byWorker hborn⟩)]

/-- No slot is lost. -/
lemma conserved {capacity : ℕ} (hk : Accounted cfg s) (h : CallbackInv s)
    (hqueue : QueueInv capacity s) (hcount : Handoff.Counted s.pool.capacity s.ledger) :
    ∃ building : Finset Agent, (∀ a, a ∈ building ↔ (s.agents a).fills = true) ∧
      s.liveSlots = building.card + s.ring.getCount + s.proc.item.toList.length := by
  obtain ⟨building, hmem, hcard⟩ := Handoff.exists_builders hk.ledger hcount
  have hdead : s.ledger.hand ≠ .dead := by
    intro hhand
    refine h.alive.1 ?_
    have hhand : s.proc.hand = .dead := hhand
    cases hpc : s.proc <;> rw [hpc] at hhand <;> first | rfl | cases hhand
  refine ⟨building, fun a => (hmem a).trans isBuilding_iff, ?_⟩
  have htaken := Handoff.length_taken hk.ledger hcount (fun g hborn => hk.own.slot_lt g hborn)
    (fun _ hborn => h.byWorker hborn) hdead
  rw [hcard, ← hqueue.length_ledger, ← ptrs_eq]
  exact htaken

end CallbackInv

/-- What holds of the callbacks in a state of a run with the actions `acts`. -/
structure CalledBack (cfg : Config D W) (s₀ : State D W) (acts : List Action) (s : State D W) :
    Prop where
  /-- a call has not been given a slot yet, or it has been given one, or it has found none and
  called the callback -/
  accounted : ∀ a c, c.CallsBack → acts.count (.client a (.submit c)) =
    s.asking a c + s.accepted a c + s.refused a c
  /-- a call that has been given a slot is called back at most once -/
  once : ∀ g, s.calls g ≤ 1
  /-- when nothing is going on, every call has been called back -/
  quiet : s.Quiet → (∀ g < s.nextSubmission, s.calls g = 1) ∧
    ∀ a c, c.CallsBack → acts.count (.client a (.submit c)) = s.accepted a c + s.refused a c
  /-- the callback is the call's own -/
  own : ∀ p, s.proc = .invoke p → s.occupant p.slot = p.submission ∧
    ∃ cb ∈ (s.tickets p.submission).call.withCallback,
      (s.slots p.slot).callback = some cb.callback
  /-- it is called after the item has been executed, with the result of that -/
  result : ∀ g code, .invoked g code ∈ s.log →
    .executed g ∈ s.log ∧ s.Resulted cfg CallbacksOnly s₀ g code
  /-- a call finds no slot exactly if all are taken, and then it changes nothing -/
  exhausted : ∀ a c s', s.agents a = .alloc c → step cfg s (.agent a) = some s' →
    (s'.agents a = .failed c ↔ s.exhausted) ∧
      (s.exhausted → s' = { s with agents := Function.update s.agents a (.failed c) })
  /-- it goes on to call the callback with the error, and frees the copy of the path -/
  failed : ∀ a c s', s.agents a = .failed c → step cfg s (.agent a) = some s' →
    s' = { s with
      agents := Function.update s.agents a .idle
      log := .errorCallback a c :: s.log } ∧
    ∀ stack block, ∃ cb ∈ c.withCallback, ∃ errorItem : WorkItem,
      c.outOfSlots cfg.contextAlloc stack block = [.allocPath block,
        .callback cb.callback errorItem cb.callbackUserData, .freePath block] ∧
      errorItem.resultCode = .outOfWorkItems ∧ errorItem.completed = true
  /-- an agent calls a callback only if it has found all slots taken -/
  refused : ∀ a c, .errorCallback a c ∈ s.log → s.Refused cfg CallbacksOnly s₀ a c
  /-- the slots that are taken are those of the items that are being submitted, that are queued
  and that the processing thread has -/
  conserved : ∃ building : Finset Agent, (∀ a, a ∈ building ↔ (s.agents a).fills = true) ∧
    s.liveSlots = building.card + s.ring.getCount + s.proc.item.toList.length

/-! ### Runs -/

section Runs

variable {storage size n capacity : ℕ} {memory : ℕ → WorkItem} {world : W}

/-- In the runs with callbacks only the processing thread tests the right `_callback`. -/
lemma callbacksOnly_run (hpool : 0 < storage ∧ 0 < size) (hcapacity : 1 ≤ capacity)
    (h : Reach (step cfg) CallbacksOnly
      (State.init (.new storage size n) capacity memory world) s) :
    (Accounted cfg s ∧ CallbackInv s) ∧ Reach (step cfg) TestsOwn
      (State.init (.new storage size n) capacity memory world) s := by
  have hwf := PoolAllocator.wf_new n hpool.1 hpool.2
  refine h.strengthen (I := fun s => Accounted cfg s ∧ CallbackInv s) ⟨?_, ?_⟩
    (fun _ _ hi _ => hi.2.testsOwn hi.1) ?_
  · exact (refines_handoff hwf hcapacity (fun _ _ hok => hok)
      (.refl : Reach (step cfg) TestsOwn _ _)).1
  · refine ⟨fun g hg => absurd rfl hg, fun a c hc => ?_, fun g hg => ?_, by simp [State.init]⟩
    · cases hc
    · cases hg.1
  · intro s act s' hi hok hs
    exact ⟨hi.1.step (hi.2.testsOwn hi.1) hs, hi.2.step hi.1 hok hs⟩

/-- **Callbacks.**  Clients submit with callbacks only, which submit nothing.  In every state of
every run each call has been called back at most once, and exactly once when nothing is going
on: by the agent itself if all slots are taken, and otherwise by the processing thread, with the
result of the operation.  And no slot is lost. -/
theorem called_back (hstorage : 0 < storage) (hsize : 0 < size) (hcapacity : 1 ≤ capacity)
    {acts : List Action}
    (h : Trace (step cfg) CallbacksOnly
      (State.init (.new storage size n) capacity memory world) acts s) :
    CalledBack cfg (State.init (.new storage size n) capacity memory world) acts s := by
  have hwf := PoolAllocator.wf_new n hstorage hsize
  have known (t : State D W) (ht : Reach (step cfg) CallbacksOnly
      (State.init (.new storage size n) capacity memory world) t) :
      Reach (step cfg) CallbacksOnly (State.init (.new storage size n) capacity memory world) t ∧
        Accounted cfg t ∧ CallbackInv t :=
    ⟨ht, (callbacksOnly_run ⟨hstorage, hsize⟩ hcapacity ht).1⟩
  obtain ⟨⟨hk, hi⟩, hreach⟩ := callbacksOnly_run ⟨hstorage, hsize⟩ hcapacity h.reach
  have hresult : ResultInv cfg CallbacksOnly
      (State.init (.new storage size n) capacity memory world) s := by
    refine h.reach.invariant_of known ⟨fun g code hev => ?_, fun p hp => ?_⟩ ?_
    · cases hev
    · cases hp
    · intro s act s' ⟨hr, hk, hi⟩ hinv hok hs
      exact hinv.step hr hok hk (hk.step (hi.testsOwn hk) hs) hi (hi.step hk hok hs) hs
  have hrefusal : RefusalInv cfg CallbacksOnly
      (State.init (.new storage size n) capacity memory world) s := by
    refine h.reach.invariant_of known ⟨fun a c hev => ?_, fun a c hpc => ?_⟩ ?_
    · cases hev
    · cases hpc
    · intro s act s' ⟨hr, hk, hi⟩ hinv hok hs
      exact hinv.step hr hok hk.own.pool hs
  have hcount : Handoff.Counted s.pool.capacity s.ledger := by
    rw [pool_capacity hreach]
    refine .run ledger_initial (fun i hlt => ?_)
      (refines_handoff hwf hcapacity (fun _ _ hok => hok) hreach).2
    show (PoolAllocator.new storage size n).isFree i = true
    rw [PoolAllocator.isFree_new, decide_eq_true_eq]
    exact hlt
  refine
    { accounted := fun a c hc => ?_
      once := fun g => ?_
      quiet := fun hquiet => ⟨fun g => hi.calls_of_quiet hk hquiet hcount, fun a c hc => ?_⟩
      own := fun p => hi.calls_own hk
      result := fun g code hev =>
        ⟨(owned_of_ledger hk.ledger).invoked g code hev, hresult.called g code hev⟩
      exhausted := fun a c s' => alloc_step hk.own.pool
      failed := fun a c s' hpc hs => ?_
      refused := hrefusal.called
      conserved := hi.conserved hk (queueInv hcapacity hreach) hcount }
  · rw [accounted hc.isSome h]
    omega
  · rw [calls_eq_ledger, hk.ledger.calls]
    split <;> omega
  · rw [accounted hc.isSome h, State.asking, (hquiet.agents a).1]
    simp only [reduceCtorEq, if_false]
    omega
  · have hc : c.CallsBack := hi.asks a c (by rw [hpc]; rfl)
    exact ⟨failed_step hc.isSome hpc hs, outOfSlots_eq hc cfg.contextAlloc⟩

end Runs

/-- A call with a callback. -/
def sizeCall : Call := ⟨.fileSize, [slash, 97], some ⟨7, .doNotFreeBuffer, 0⟩⟩

/-- With one slot, the first of two calls is called back by the processing thread, and the second
one by its own agent. -/
theorem called_back_two :
    ∃ acts s, Trace (step smallConfig) CallbacksOnly
        (State.init (.new 1 1 1) 2 (fun _ => .new) ()) acts s ∧
      s.calls 0 = 1 ∧ .errorCallback (.client 1) sizeCall ∈ s.log ∧
      CalledBack smallConfig (State.init (.new 1 1 1) 2 (fun _ => .new) ()) acts s := by
  obtain ⟨s, hs, hp⟩ := @Trace.of_guardedRun_any _ _ (step smallConfig) CallbacksOnly
    (State.init (.new 1 1 1) 2 (fun _ => .new) ())
    (fun s act => decide (CallbacksOnly s act)) (fun _ _ => of_decide_eq_true)
    (submits 0 sizeCall 14 ++ submits 1 sizeCall 2 ++ List.replicate 8 .proc ++
      [.callbackReturns, .proc, .proc])
    (fun s => decide (s.calls 0 = 1 ∧ .errorCallback (.client 1) sizeCall ∈ s.log))
    (by decide +kernel)
  rw [decide_eq_true_eq] at hp
  exact ⟨_, s, hs, hp.1, hp.2, called_back (by decide) (by decide) (by decide) hs⟩

end LaminaFS
