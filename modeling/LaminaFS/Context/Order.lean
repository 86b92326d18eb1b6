/-
# Items are executed in the order of their pushes

One processing thread at a time takes the items from the front of the queue, and it takes the
next one only when it has completed the last: what has been pushed earlier is complete before
anything is done for what has been pushed later.

A client that releases an item before the processing thread has left the iteration that
executed it may spoil that, since the slot may be another item's when `_callback` is tested.
In runs without such a release the processing thread tests the right field.
-/
import LaminaFS.Context.Ownership
import LaminaFS.Context.Progress
import LaminaFS.Lib.HandoffOrder

namespace LaminaFS

open Transition

variable {D W : Type} {cfg : Config D W} {s s' : State D W} {a b g : ℕ} {act : Action}

/-! ### Releases -/

/-- The item that the iteration of the processing thread is about. -/
def ProcPc.item : ProcPc D W → Option ItemPtr
  | .exec p _ | .complete p | .testCallback p | .invoke p | .inCallback p | .testAction p
  | .freeBuffer p | .release p => some p
  | _ => none

/-- No client releases the item that the iteration of the processing thread is about. -/
def ReleasesLate (s : State D W) : Action → Prop
  | .client _ (.release p) => ∀ q ∈ s.proc.item, q.submission ≠ p.submission
  | _ => True

instance (s : State D W) : DecidablePred (ReleasesLate s) := fun act =>
  match act with
  | .client _ (.release p) =>
    inferInstanceAs (Decidable (∀ q ∈ s.proc.item, q.submission ≠ p.submission))
  | .client _ (.submit _) | .client _ (.check _) | .client _ (.wait _) | .client _ (.freeBuffer _)
  | .agent _ | .proc | .callbackReturns | .controlAct _ | .control | .wakeProc
  | .wakeAgent _ => inferInstanceAs (Decidable True)

/-- What agents do to the stages. -/
lemma agentStep_stage {c : Agent} (hs : agentStep cfg s c = some s') :
    s'.stage = s.stage ∨ s'.stage = Function.update s.stage s.nextSubmission .building ∨
      ∃ call p, s.agents c = .pushLock call p ∧
        s'.stage = Function.update s.stage p.submission .queued := by
  cases agentMove hs with
  | takes => exact Or.inr (Or.inl rfl)
  | pushes call p hpc => exact Or.inr (Or.inr ⟨call, p, hpc, rfl⟩)
  | _ => exact Or.inl rfl

/-- A complete item stays so while others act, unless a client releases it. -/
lemma completed_stays (hk : Accounted cfg s) (hok : ReleasesLate s act) (hact : act ≠ .proc)
    {p : ItemPtr} (hp : p ∈ s.proc.item) (hst : s.stage p.submission = .completed)
    (hs : step cfg s act = some s') : s'.stage p.submission = .completed := by
  cases stepBy hs with
  | proc hs => exact absurd rfl hact
  | client c act _ hs =>
    cases clientMove hs with
    | releases q hheld =>
      have hne : p.submission ≠ q.submission := hok p hp
      have hocc : s.occupant q.slot = q.submission :=
        OwnInv.occupant_of_live hk.ledger (hk.ledger.held q hheld).1
          (hk.ledger.live_of_held hheld)
      simp only [releaseStep, hocc]
      rw [Function.update_of_ne hne]
      exact hst
    | _ => exact hst
  | agent c hs =>
    rcases agentStep_stage hs with he | he | ⟨call, q, hpc, he⟩ <;> rw [he]
    · exact hst
    · rw [Function.update_of_ne]
      · exact hst
      · intro hnew
        have hunborn : s.stage s.nextSubmission = .unborn :=
          (hk.ledger.born _).mpr (Nat.le_refl _)
        rw [← hnew, hst] at hunborn
        cases hunborn
    · rw [Function.update_of_ne]
      · exact hst
      · intro hq
        have hbuilding : s.stage q.submission = .building :=
          (building_of_role (a := c) hk.ledger (by rw [hpc]; rfl)).2.1
        rw [← hq, hst] at hbuilding
        cases hbuilding
  | controlAct act _ hs => rw [(controlActStep_frame hs).1.stage, hst]
  | control hs => rw [(controlStep_frame hs).1.stage, hst]
  | callbackReturns => exact hst
  | wakeProc | wakeAgent c => exact hst

/-- What the processing thread tests next is complete and has not been released. -/
def TestsCompleted (s : State D W) : Prop :=
  ∀ p ∈ s.proc.tested, s.stage p.submission = .completed

lemma tested_item {pc : ProcPc D W} {p : ItemPtr} (h : p ∈ pc.tested) :
    pc = .testCallback p ∧ p ∈ pc.item := by
  cases pc <;> cases h
  exact ⟨rfl, rfl⟩

lemma comesToTest {p : ItemPtr} (hs : step cfg s act = some s')
    (hpc' : s'.proc = .testCallback p) :
    act = .proc ∧ s.proc = .complete p ∨ act ≠ .proc ∧ s.proc = .testCallback p := by
  by_cases hact : act = .proc
  · subst hact
    refine Or.inl ⟨rfl, ?_⟩
    have hgoes := procStep_goes hs
    rw [hpc'] at hgoes
    generalize s.proc = pc at hgoes
    cases hgoes
    rfl
  · refine Or.inr ⟨hact, ?_⟩
    rcases step_proc hs hact with hp | hp | ⟨-, hp⟩ | ⟨q, -, -, hp⟩ <;> rw [hp] at hpc'
    · exact hpc'
    · cases hpc : s.proc <;> rw [hpc] at hpc' <;> first | exact hpc' | cases hpc'
    · cases hpc'
    · cases hpc'

/-- When the processing thread comes to the test of `_callback`, the item is complete. -/
lemma testsCompleted_step (hk : Accounted cfg s) (hok : ReleasesLate s act)
    (h : TestsCompleted s) (hs : step cfg s act = some s') : TestsCompleted s' := by
  intro p hp
  obtain ⟨hpc', -⟩ := tested_item hp
  rcases comesToTest hs hpc' with ⟨hact, hpc⟩ | ⟨hact, hpc⟩
  · subst hact
    simp only [step, procStep, hpc, Option.some.injEq] at hs
    subst hs
    exact Function.update_self _ _ _
  · have htested : p ∈ s.proc.tested := by rw [hpc]; rfl
    exact completed_stays hk hok hact (tested_item htested).2 (h p htested) hs

/-- A run without an early release tests the right `_callback`. -/
lemma testsOwn_of_completed (hk : Accounted cfg s) (h : TestsCompleted s) : TestsOwn s act := by
  intro _ p hp
  have hfits := fits_of_hand hk.ledger
    (show s.proc.hand = .finished p by rw [(tested_item hp).1]; rfl)
  exact Or.inl (OwnInv.occupant_of_live hk.ledger hfits.1 (by rw [h p hp]; rfl))

/-! ### The record -/

/-- The submission whose execution the event is part of. -/
def Event.concerns : Event → Option ℕ
  | .searched g _ _ | .deviceCall g _ _ _ | .executed g => some g
  | _ => none

/-- An event that is part of an execution is recorded during it. -/
lemma step_concerns (hk : Accounted cfg s) (hs : step cfg s act = some s') :
    s'.log = s.log ∨
      ∃ ev, s'.log = ev :: s.log ∧ ∀ g ∈ ev.concerns, s.stage g = .executing := by
  have hworking {p : ItemPtr} (hhand : s.proc.hand = .working p) :
      s.stage p.submission = .executing := by
    have hfits := fits_of_hand hk.ledger hhand
    exact hfits.2
  rcases step_event hs with hlog | ⟨ev, hlog, hrecords⟩
  · exact Or.inl hlog
  · refine Or.inr ⟨ev, hlog, fun g hg => ?_⟩
    cases hrecords with
    | searched p e op path hpc | deviceCall p e handle prefixStr call hpc | executed p hpc =>
      obtain rfl : p.submission = g := Option.some.inj hg
      exact hworking (by rw [hpc]; rfl)
    | _ => cases hg

/-- What is known of the runs without an early release. -/
structure Serial (cfg : Config D W) (s : State D W) : Prop where
  accounted : Accounted cfg s
  tests : TestsCompleted s
  concerned : ∀ ev ∈ s.log, ∀ g ∈ ev.concerns, (s.stage g).isFetched = true

namespace Serial

lemma step (h : Serial cfg s) (hok : ReleasesLate s act)
    (hs : LaminaFS.step cfg s act = some s') : Serial cfg s' := by
  have hown : TestsOwn s act := testsOwn_of_completed h.accounted h.tests
  have hstays (g : ℕ) (hg : (s.stage g).isFetched = true) : (s'.stage g).isFetched = true := by
    rcases h.accounted.stage_next hown hs g with hsame | hnext
    · rw [hsame]
      exact hg
    · exact hnext.isFetched hg
  refine ⟨h.accounted.step hown hs, testsCompleted_step h.accounted hok h.tests hs,
    fun ev hev g hg => hstays g ?_⟩
  rcases step_concerns h.accounted hs with hlog | ⟨ev', hlog, hexecuting⟩ <;> rw [hlog] at hev
  · exact h.concerned ev hev g hg
  · rcases List.mem_cons.mp hev with rfl | hmem
    · rw [hexecuting g hg]
      rfl
    · exact h.concerned ev hmem g hg

end Serial

/-! ### The order of the executions -/

/-- All that is done for `a` has been done, and `a` is complete, before anything is done for
`b`. -/
structure InOrder (s : State D W) (a b : ℕ) : Prop where
  /-- when the processing thread has `b`, it has executed `a` -/
  started : ∀ p, s.proc.hand = .working p → p.submission = b → .executed a ∈ s.log
  /-- what has been done for `b` has been done after `a` was complete, and after that nothing
  has been done for `a` -/
  recorded : ∀ newer ev older, s.log = newer ++ ev :: older → ev.concerns = some b →
    .executed a ∈ older ∧ ∀ ev' ∈ newer, ev'.concerns ≠ some a
  /-- and then `a` is marked as complete, if it still has its slot -/
  marked : (∃ ev ∈ s.log, ev.concerns = some b) → s.Occupies a → (s.record a).completed = true
  /-- a client that has been told that `b` is complete may rely on `a` -/
  told : ∀ p ∈ s.held, p ∈ s.reported → p.submission = b → .executed a ∈ s.log

namespace Serial

/-- The events of `a` and `b` are in order. -/
lemma recorded_step (h : Serial cfg s) (hahead : Handoff.Ahead s.ledger a b)
    (hs : LaminaFS.step cfg s act = some s')
    (hold : ∀ newer ev older, s.log = newer ++ ev :: older → ev.concerns = some b →
      .executed a ∈ older ∧ ∀ ev' ∈ newer, ev'.concerns ≠ some a) :
    ∀ newer ev older, s'.log = newer ++ ev :: older → ev.concerns = some b →
      .executed a ∈ older ∧ ∀ ev' ∈ newer, ev'.concerns ≠ some a := by
  intro newer ev older heq hb
  rcases step_concerns h.accounted hs with hlog | ⟨ev₀, hlog, hexecuting⟩ <;> rw [hlog] at heq
  · exact hold newer ev older heq hb
  · cases newer with
    | nil =>
      -- something is done for `b` now
      obtain ⟨rfl, rfl⟩ := List.cons.inj heq
      have hst : s.stage b = .executing := hexecuting b hb
      refine ⟨executed_of_isDone h.accounted.ledger (hahead.done ?_), fun _ hmem => by cases hmem⟩
      show (s.stage b).isFetched = true
      rw [hst]
      rfl
    | cons ev₁ newer =>
      obtain ⟨rfl, hrest⟩ := List.cons.inj heq
      obtain ⟨hbefore, hafter⟩ := hold newer ev older hrest hb
      refine ⟨hbefore, fun ev' hmem ha => ?_⟩
      rcases List.mem_cons.mp hmem with rfl | hmem
      · -- nothing is done for `a` any more
        have hst : s.stage a = .executing := hexecuting a ha
        have hfetched : (s.stage b).isFetched = true :=
          h.concerned ev (by rw [hrest]; simp) b hb
        have hdone : (s.stage a).isDone = true := hahead.done hfetched
        rw [hst] at hdone
        cases hdone
      · exact hafter ev' hmem ha

/-- What is ahead in the ledger is ahead in the context. -/
lemma inOrder (h : Serial cfg s) (hahead : Handoff.Ahead s.ledger a b)
    (hrecorded : ∀ newer ev older, s.log = newer ++ ev :: older → ev.concerns = some b →
      .executed a ∈ older ∧ ∀ ev' ∈ newer, ev'.concerns ≠ some a) : InOrder s a b where
  started p hhand hp := by
    subst hp
    have hfits := fits_of_hand h.accounted.ledger hhand
    exact executed_of_isDone h.accounted.ledger (hahead.done (by rw [hfits.2]; rfl))
  recorded := hrecorded
  marked := by
    rintro ⟨ev, hmem, hb⟩ hocc
    have hdone : (s.stage a).isDone = true := hahead.done (h.concerned ev hmem b hb)
    rw [(h.accounted.own.records a ⟨hahead.posted, hocc⟩).2, hdone]
  told p hheld hreported hp := by
    subst hp
    have hst : s.stage p.submission = .completed := h.accounted.ledger.told p hheld hreported
    refine executed_of_isDone h.accounted.ledger (hahead.done ?_)
    show (s.stage p.submission).isFetched = true
    rw [hst]
    rfl

end Serial

section Runs

variable {pool : PoolAllocator} {capacity : ℕ} {memory : ℕ → WorkItem} {world : W}

lemma serial_of_reach (hpool : pool.WF) (hcapacity : 1 ≤ capacity)
    (h : Reach (step cfg) ReleasesLate (State.init pool capacity memory world) s) :
    Serial cfg s := by
  have hstart : Reach (step cfg) TestsOwn (State.init pool capacity memory world)
      (State.init pool capacity memory world) := .refl
  have haccounted := (refines_handoff hpool hcapacity (fun _ _ hok => hok) hstart).1
  exact h.invariant ⟨haccounted, fun p hp => (by cases hp), fun ev hev => (by cases hev)⟩
    fun _ _ _ hi hok hs => hi.step hok hs

/-- **Order.**  In runs in which no client releases an item while the processing thread is in
the iteration that executed it: if `a` has been pushed in some state and `b` has not, then in
every later state all that is done for `a` has been done before anything is done for `b`. -/
theorem executes_in_order {s₁ s₂ : State D W} (hpool : pool.WF) (hcapacity : 1 ≤ capacity)
    (h₁ : Reach (step cfg) ReleasesLate (State.init pool capacity memory world) s₁)
    (ha : (s₁.stage a).isPosted = true) (hb : (s₁.stage b).isPosted = false)
    (h₂ : Reach (step cfg) ReleasesLate s₁ s₂) : InOrder s₂ a b := by
  have hserial := serial_of_reach hpool hcapacity h₁
  have hstart : Handoff.Ahead s₁.ledger a b := .of_posted ha hb
  -- nothing has been done for `b` yet
  have hnone : ∀ newer ev older, s₁.log = newer ++ ev :: older → ev.concerns = some b →
      .executed a ∈ older ∧ ∀ ev' ∈ newer, ev'.concerns ≠ some a := by
    intro newer ev older heq hev
    have hfetched := hserial.concerned ev (by rw [heq]; simp) b hev
    cases hst : s₁.stage b <;> rw [hst] at hb hfetched <;> first
      | (cases hb; done)
      | cases hfetched
  obtain ⟨hs₂, hahead, hrecorded⟩ := h₂.invariant
    (I := fun t => Serial cfg t ∧ Handoff.Ahead t.ledger a b ∧
      ∀ newer ev older, t.log = newer ++ ev :: older → ev.concerns = some b →
        .executed a ∈ older ∧ ∀ ev' ∈ newer, ev'.concerns ≠ some a)
    ⟨hserial, hstart, hnone⟩ fun t act t' ⟨hi, hahead, hrecorded⟩ hok hs => by
      refine ⟨hi.step hok hs, ?_, hi.recorded_step hahead hs hrecorded⟩
      have hown : TestsOwn t act := testsOwn_of_completed hi.accounted hi.tests
      exact hi.accounted.ledger.ahead_reflGen
        (hi.accounted.own.moves hi.accounted.ledger hi.accounted.control hown hs) hahead
  exact hs₂.inOrder hahead hrecorded

end Runs

/-- Two clients push one item each, and both items are executed. -/
theorem executes_in_order_two :
    ∃ s₁ s₂, Reach (step smallConfig) ReleasesLate smallInit s₁ ∧
      Reach (step smallConfig) ReleasesLate s₁ s₂ ∧ .executed 1 ∈ s₂.log ∧ InOrder s₂ 0 1 := by
  obtain ⟨s₁, h₁, hp₁⟩ := @Reach.of_guardedRun_any _ _ (step smallConfig) ReleasesLate smallInit
    (fun s act => decide (ReleasesLate s act)) (fun _ _ => of_decide_eq_true)
    (submits 0 ⟨.fileExists, [slash, 97], none⟩ 14)
    (fun s₁ => decide ((s₁.stage 0).isPosted = true ∧ (s₁.stage 1).isPosted = false) &&
      (guardedRun (step smallConfig) (fun s act => decide (ReleasesLate s act)) s₁
        (submits 1 ⟨.fileSize, [slash, 97], none⟩ 12 ++ List.replicate 14 Action.proc)).any
          fun s₂ : State Unit Unit => decide (Event.executed 1 ∈ s₂.log)) (by decide +kernel)
  rw [Bool.and_eq_true, decide_eq_true_eq] at hp₁
  obtain ⟨⟨ha, hb⟩, hrun⟩ := hp₁
  obtain ⟨s₂, h₂, hp₂⟩ := @Reach.of_guardedRun_any _ _ (step smallConfig) ReleasesLate s₁
    (fun s act => decide (ReleasesLate s act)) (fun _ _ => of_decide_eq_true) _ _ hrun
  refine ⟨s₁, s₂, h₁, h₂, of_decide_eq_true hp₂, ?_⟩
  exact executes_in_order (PoolAllocator.wf_new 2 (by decide) (by decide)) (by decide) h₁ ha hb h₂

end LaminaFS
