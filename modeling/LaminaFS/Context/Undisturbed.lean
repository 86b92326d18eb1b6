/-
# A thread that nobody disturbs

While the others stand still, a submission function fills its item, and pushes it if there is
room in the queue; and the processing thread, when there are no mounts, takes the item that has
been in the queue longest up to its callback.
-/
import LaminaFS.Context.Capacity

namespace LaminaFS

open Transition

variable {D W : Type} {cfg : Config D W} {s s' s'' : State D W} {a : Agent} {c : Call}
  {p : ItemPtr}

lemma testsOwn_of_ne {act : Action} (h : act ≠ .proc) : TestsOwn s act := fun he => absurd he h

/-- The slots from `j` on are free, up to `n`. -/
def PoolAllocator.FreeFrom (pool : PoolAllocator) (j n : ℕ) : Prop :=
  ∀ i, pool.isFree i = decide (j ≤ i ∧ i < n)

lemma PoolAllocator.alloc_freeFrom {pool : PoolAllocator} {j n : ℕ} (h : pool.FreeFrom j n)
    (hj : j < n) : ∃ pool', pool.alloc = (some j, pool') ∧ pool'.FreeFrom (j + 1) n := by
  have hfree : pool.isFree j = true := by
    rw [h]
    simpa using hj
  cases ha : pool.alloc with
  | mk r pool' =>
    cases r with
    | none =>
      have hnone := alloc_eq_none.mp (congrArg Prod.fst ha)
      rw [hnone] at hfree
      cases hfree
    | some i =>
      obtain ⟨hi, hlow, hnext⟩ := alloc_eq_some (congrArg Prod.fst ha)
      rw [h, decide_eq_true_eq] at hi
      have hij : i = j := by
        by_contra hne
        rw [hlow j (by omega)] at hfree
        cases hfree
      subst hij
      refine ⟨pool', rfl, fun k => ?_⟩
      rw [ha] at hnext
      rw [hnext, h, ← Bool.decide_and, decide_eq_decide]
      omega

/-- What an agent's own steps leave alone while it submits. -/
structure Beside (a : Agent) (s s' : State D W) : Prop where
  agents : ∀ b, b ≠ a → s'.agents b = s.agents b
  proc : s'.proc = s.proc
  control : s'.control = s.control
  processing : s'.processing = s.processing
  mounts : s'.mounts = s.mounts

namespace Beside

lemma trans (h : Beside a s s') (h' : Beside a s' s'') : Beside a s s'' where
  agents b hb := (h'.agents b hb).trans (h.agents b hb)
  proc := h'.proc.trans h.proc
  control := h'.control.trans h.control
  processing := h'.processing.trans h.processing
  mounts := h'.mounts.trans h.mounts

end Beside

/-! ### Submitting -/

/-- The assignments that are left are made, and the agent comes to the push. -/
lemma stores_run {todo : List Store} (hpc : s.agents a = .store c p todo) :
    Reach (step cfg) TestsOwn s { s with
      agents := Function.update s.agents a (.pushTest c p)
      slots := Function.update s.slots p.slot (Store.applyAll todo (s.slots p.slot)) } := by
  induction todo generalizing s with
  | nil =>
    refine .tail .refl (testsOwn_of_ne (show Action.agent a ≠ .proc by simp)) ?_
    simp [step, agentStep, hpc]
  | cons store todo ih =>
    have hstep : step cfg s (.agent a) = some { s with
        agents := Function.update s.agents a (.store c p todo)
        slots := Function.update s.slots p.slot (store.apply (s.slots p.slot)) } := by
      simp [step, agentStep, hpc]
    have hrest := ih (s := { s with
        agents := Function.update s.agents a (.store c p todo)
        slots := Function.update s.slots p.slot (store.apply (s.slots p.slot)) })
      (Function.update_self _ _ _)
    simp only [Function.update_self, Function.update_idem] at hrest
    exact .trans (.tail .refl (testsOwn_of_ne (by simp)) hstep) hrest

/-- An agent that is going to take a slot, and finds one free, fills its item. -/
lemma fills {j n : ℕ} (hpc : s.agents a = .alloc c) (hfree : s.pool.FreeFrom j n) (hj : j < n) :
    ∃ s', Reach (step cfg) TestsOwn s s' ∧ Beside a s s' ∧ s'.ring = s.ring ∧
      s'.pool.FreeFrom (j + 1) n ∧ s'.agents a = .pushTest c ⟨j, s.nextSubmission⟩ ∧
      s'.slots j = (c.plan cfg.contextAlloc).built ∧ s'.occupant j = s.nextSubmission := by
  obtain ⟨pool, halloc, hnext⟩ := PoolAllocator.alloc_freeFrom hfree hj
  have h₁ : step cfg s (.agent a) = some { s with
      agents := Function.update s.agents a (.construct c ⟨j, s.nextSubmission⟩)
      pool := pool
      nextSubmission := s.nextSubmission + 1
      tickets := Function.update s.tickets s.nextSubmission ⟨c, a, j⟩
      occupant := Function.update s.occupant j s.nextSubmission
      stage := Function.update s.stage s.nextSubmission .building } := by
    simp [step, agentStep, hpc, halloc]
  generalize hs₁ : ({ s with
      agents := Function.update s.agents a (.construct c ⟨j, s.nextSubmission⟩)
      pool := pool
      nextSubmission := s.nextSubmission + 1
      tickets := Function.update s.tickets s.nextSubmission ⟨c, a, j⟩
      occupant := Function.update s.occupant j s.nextSubmission
      stage := Function.update s.stage s.nextSubmission .building } : State D W) = s₁ at h₁
  have hpc₁ : s₁.agents a = .construct c ⟨j, s.nextSubmission⟩ := by
    rw [← hs₁]
    exact Function.update_self _ _ _
  have hside : Beside a s s₁ := by
    subst hs₁
    exact ⟨fun b hb => Function.update_of_ne hb _ _, rfl, rfl, rfl, rfl⟩
  have h₂ : step cfg s₁ (.agent a) = some { s₁ with
      agents := Function.update s₁.agents a
        (.store c ⟨j, s.nextSubmission⟩ (c.plan cfg.contextAlloc).stores)
      slots := Function.update s₁.slots j .new } := by
    simp [step, agentStep, hpc₁]
  have h₃ := @stores_run _ _ cfg { s₁ with
      agents := Function.update s₁.agents a
        (.store c ⟨j, s.nextSubmission⟩ (c.plan cfg.contextAlloc).stores)
      slots := Function.update s₁.slots j .new } a c ⟨j, s.nextSubmission⟩ _
    (Function.update_self _ _ _)
  have hne : Action.agent a ≠ .proc := by simp
  refine ⟨_, .trans (.tail (.tail .refl (testsOwn_of_ne hne) h₁) (testsOwn_of_ne hne) h₂) h₃,
    hside.trans ⟨fun b hb => ?_, rfl, rfl, rfl, rfl⟩, ?_, ?_, Function.update_self _ _ _, ?_, ?_⟩
  · show Function.update (Function.update s₁.agents a _) a _ b = s₁.agents b
    rw [Function.update_of_ne hb, Function.update_of_ne hb]
  · subst hs₁
    rfl
  · subst hs₁
    exact hnext
  · show Function.update (Function.update s₁.slots j _) j _ j = _
    rw [Function.update_self]
    exact congrArg (Store.applyAll _) (Function.update_self _ _ _)
  · subst hs₁
    exact Function.update_self _ _ _

variable (cfg) in
/-- An agent that finds room in the queue pushes its item, and returns. -/
lemma pushes (hpc : s.agents a = .pushTest c p) (hlate : (c.plan cfg.contextAlloc).late = [])
    (hroom : s.ring.full = false) (hawake : s.proc.wake = s.proc) :
    ∃ s', Reach (step cfg) TestsOwn s s' ∧ Beside a s s' ∧ s'.agents a = .idle ∧
      s'.ring = (s.ring.push (some p)).ring ∧ s'.pool = s.pool ∧ s'.slots = s.slots ∧
      s'.occupant = s.occupant := by
  have hne : Action.agent a ≠ .proc := by simp
  -- the way back from a state behind the push
  have returns {t : State D W} (ht : t.agents a = .late c p []) :
      Reach (step cfg) TestsOwn t { t with
        agents := Function.update t.agents a .idle
        held := if (c.plan cfg.contextAlloc).returnsItem then p :: t.held else t.held
        returned := p.submission :: t.returned } :=
    .tail .refl (testsOwn_of_ne hne) (by simp [step, agentStep, ht])
  have h₁ : step cfg s (.agent a) = some { s with
      agents := Function.update s.agents a (.pushLock c p) } := by
    simp [step, agentStep, hpc, hroom]
  have h₂ : step cfg { s with agents := Function.update s.agents a (.pushLock c p) } (.agent a) =
      some { s with
        agents := Function.update s.agents a
          (if (s.ring.push (some p)).notify then .notify c p else .late c p [])
        ring := (s.ring.push (some p)).ring
        stage := Function.update s.stage p.submission .queued } := by
    simp [step, agentStep, RingBuffer.push_done, hroom, hlate]
  have h₁₂ := Reach.tail (Reach.tail .refl (testsOwn_of_ne hne) h₁) (testsOwn_of_ne hne) h₂
  cases hnotify : (s.ring.push (some p)).notify with
  | false =>
    rw [hnotify, if_neg Bool.false_ne_true] at h₁₂
    refine ⟨_, h₁₂.trans (returns (Function.update_self _ _ _)),
      ⟨fun b hb => ?_, rfl, rfl, rfl, rfl⟩, Function.update_self _ _ _, rfl, rfl, rfl, rfl⟩
    show Function.update (Function.update s.agents a _) a _ b = s.agents b
    rw [Function.update_of_ne hb, Function.update_of_ne hb]
  | true =>
    rw [hnotify, if_pos rfl] at h₁₂
    generalize hs₂ : ({ s with
        agents := Function.update s.agents a (.notify c p)
        ring := (s.ring.push (some p)).ring
        stage := Function.update s.stage p.submission .queued } : State D W) = s₂ at h₁₂
    have hpc₂ : s₂.agents a = .notify c p := by
      rw [← hs₂]
      exact Function.update_self _ _ _
    have hproc₂ : s₂.proc = s.proc := by rw [← hs₂]
    have h₃ : step cfg s₂ (.agent a) = some { s₂ with
        agents := Function.update s₂.agents a (.notifyOne c p)
        sem := (s₂.sem + 1) % 2 ^ 32 } := by
      simp [step, agentStep, hpc₂]
    have h₄ : step cfg { s₂ with
        agents := Function.update s₂.agents a (.notifyOne c p)
        sem := (s₂.sem + 1) % 2 ^ 32 } (.agent a) = some { s₂ with
          agents := Function.update s₂.agents a (.late c p [])
          sem := (s₂.sem + 1) % 2 ^ 32
          proc := s₂.proc.wake } := by
      simp [step, agentStep, hlate]
    refine ⟨_, (h₁₂.tail (testsOwn_of_ne hne) h₃).tail (testsOwn_of_ne hne) h₄ |>.trans
      (returns (Function.update_self _ _ _)), ⟨fun b hb => ?_, ?_, ?_, ?_, ?_⟩,
      Function.update_self _ _ _, ?_, ?_, ?_, ?_⟩
    · show Function.update (Function.update s₂.agents a _) a _ b = s.agents b
      rw [Function.update_of_ne hb, Function.update_of_ne hb, ← hs₂]
      exact Function.update_of_ne hb _ _
    · show s₂.proc.wake = s.proc
      rw [hproc₂, hawake]
    all_goals
      subst hs₂
      rfl

/-! ### Executing -/

/-- What the processing thread leaves alone on its way to a callback. -/
structure Ahead (s s' : State D W) : Prop where
  agents : s'.agents = s.agents
  control : s'.control = s.control
  pool : s'.pool = s.pool
  occupant : s'.occupant = s.occupant

lemma testsOwn_of_untested (h : s.proc.tested = none) : TestsOwn s .proc := by
  intro _ q hq
  rw [h] at hq
  cases hq

variable (cfg) in
/-- Without mounts there is no file: the processing thread takes the item that has been in the
queue longest, and is soon done with it. -/
lemma executes {rest : List (Option ItemPtr)} (hpc : s.proc = .top)
    (hprocessing : s.processing = true) (hmounts : s.mounts = []) (hwf : s.ring.WF)
    (hqueue : s.ring.contents = some p :: rest) (hop : (s.slots p.slot).operation = .opExists) :
    ∃ s', Reach (step cfg) TestsOwn s s' ∧ Ahead s s' ∧ s'.proc = .complete p ∧
      s'.ring = (s.ring.pop none).2 ∧
      (s'.slots p.slot).callback = (s.slots p.slot).callback := by
  have hfirst := RingBuffer.pop_of_ne_nil hwf (by rw [hqueue]; simp) none
  rw [hqueue] at hfirst
  have hpop : s.ring.pop none = (some p, (s.ring.pop none).2) :=
    Prod.ext (List.cons.inj hfirst).1.symm rfl
  generalize (s.ring.pop none).2 = ring at hpop ⊢
  have h₁ : step cfg s .proc = some { s with proc := .pop } := by
    simp [step, procStep, hpc, hprocessing]
  have h₂ : step cfg { s with proc := .pop } .proc = some { s with
      ring := ring
      stage := Function.update s.stage p.submission .executing
      proc := .exec p .dispatch } := by
    simp [step, procStep, hpop]
  have r₂ := Reach.tail (Reach.tail .refl (testsOwn_of_untested (by rw [hpc]; rfl)) h₁)
    (testsOwn_of_untested rfl) h₂
  obtain ⟨t, ht⟩ : ∃ t : State D W, t = { s with
      ring := ring
      stage := Function.update s.stage p.submission .executing
      proc := .exec p .dispatch } := ⟨_, rfl⟩
  rw [← ht] at r₂
  have hdispatch : (t.slots p.slot).dispatch =
      ({ t.slots p.slot with resultCode := .notFound }, .lookup .fileExists) := by
    have hop' : (t.slots p.slot).operation = .opExists := by rwa [ht]
    simp [WorkItem.dispatch, hop']
  -- the search is over at once
  have h₃ : step cfg t .proc = some { t with
      slots := Function.update t.slots p.slot { t.slots p.slot with resultCode := .notFound }
      proc := .exec p (.findNext .fileExists none) } := by
    have hpc' : t.proc = .exec p .dispatch := by rw [ht]
    simp only [step, procStep, hpc', execStep, hdispatch]
  have h₄ : step cfg { t with
      slots := Function.update t.slots p.slot { t.slots p.slot with resultCode := .notFound }
      proc := .exec p (.findNext .fileExists none) } .proc = some { t with
        slots := Function.update t.slots p.slot { t.slots p.slot with resultCode := .notFound }
        proc := .exec p (.scanNext .fileExists (t.slots p.slot).filename none [])
        log := .searched p.submission (t.slots p.slot).operation (t.slots p.slot).filename ::
          t.log } := by
    have hmounts' : t.mounts = [] := by rwa [ht]
    simp [step, procStep, execStep, hmounts']
  have h₅ : step cfg { t with
      slots := Function.update t.slots p.slot { t.slots p.slot with resultCode := .notFound }
      proc := .exec p (.scanNext .fileExists (t.slots p.slot).filename none [])
      log := .searched p.submission (t.slots p.slot).operation (t.slots p.slot).filename ::
        t.log } .proc = some { t with
        slots := Function.update t.slots p.slot { t.slots p.slot with resultCode := .notFound }
        proc := .complete p
        log := .searched p.submission (t.slots p.slot).operation (t.slots p.slot).filename ::
          t.log } := rfl
  refine ⟨_, ((r₂.tail (testsOwn_of_untested (by rw [ht]; rfl)) h₃).tail
    (testsOwn_of_untested rfl) h₄).tail (testsOwn_of_untested rfl) h₅, ⟨?_, ?_, ?_, ?_⟩, rfl,
    ?_, ?_⟩
  · rw [ht]
  · rw [ht]
  · rw [ht]
  · rw [ht]
  · rw [ht]
  · show (Function.update t.slots p.slot _ p.slot).callback = _
    rw [Function.update_self, ht]

variable (cfg) in
/-- The processing thread calls the callback of a complete item that is still in its slot. -/
lemma invokes (hpc : s.proc = .complete p)
    (hcallback : (s.slots p.slot).callback.isSome = true)
    (hocc : s.occupant p.slot = p.submission) :
    ∃ s', Reach (step cfg) TestsOwn s s' ∧ Ahead s s' ∧ s'.proc = .inCallback p ∧
      s'.ring = s.ring := by
  have h₁ : step cfg s .proc = some { s with
      slots := Function.update s.slots p.slot { s.slots p.slot with completed := true }
      stage := Function.update s.stage p.submission .completed
      proc := .testCallback p
      log := .executed p.submission :: s.log } := by
    simp only [step, procStep, hpc]
  have r₁ := Reach.tail .refl (testsOwn_of_untested (by rw [hpc]; rfl)) h₁
  obtain ⟨t, ht⟩ : ∃ t : State D W, t = { s with
      slots := Function.update s.slots p.slot { s.slots p.slot with completed := true }
      stage := Function.update s.stage p.submission .completed
      proc := .testCallback p
      log := .executed p.submission :: s.log } := ⟨_, rfl⟩
  rw [← ht] at r₁
  have hcallback' : (t.slots p.slot).callback.isSome = true := by
    rw [ht]
    show (Function.update s.slots p.slot _ p.slot).callback.isSome = true
    rw [Function.update_self]
    exact hcallback
  have hown : TestsOwn t .proc := by
    intro _ q hq
    rw [ht] at hq
    cases hq
    left
    rw [ht]
    exact hocc
  have h₂ : step cfg t .proc = some { t with proc := .invoke p } := by
    have hpc' : t.proc = .testCallback p := by rw [ht]
    simp only [step, procStep, hpc', hcallback', if_true]
  have h₃ : step cfg { t with proc := .invoke p } .proc = some { t with
      stage := Function.update t.stage (t.occupant p.slot) .called
      proc := .inCallback p
      log := .invoked (t.occupant p.slot) (t.slots p.slot).resultCode :: t.log } := by
    simp only [step, procStep, hcallback', if_true]
  refine ⟨_, (r₁.tail hown h₂).tail (testsOwn_of_untested rfl) h₃, ⟨?_, ?_, ?_, ?_⟩, rfl, ?_⟩
  all_goals rw [ht]

end LaminaFS
