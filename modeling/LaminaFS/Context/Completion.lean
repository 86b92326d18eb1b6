/-
# No completion is missed

A client waits for its item on the completion condition variable, which all clients share.  The
processing thread sets `_completed` under the completion mutex, and calls `notify_all` later,
without the mutex, if the item has no callback.  So the clients and the processing thread are a
monitor in the sense of `Lib.CondVar`, whose conditions are that a submission has been executed.

Clients do not release what somebody waits for.
-/
import LaminaFS.Context.Order
import LaminaFS.Lib.CondVar

namespace LaminaFS

open Transition

variable {D W : Type} {cfg : Config D W} {s s' : State D W} {a : Agent} {act : Action}

/-! ### The monitor -/

/-- Where an agent is with respect to the completion condition variable. -/
def AgentPc.place : AgentPc → CondVar.Place ℕ
  | .waitTest p => .testing p.submission
  | .blocked p => .asleep p.submission
  | _ => .away

@[simp] lemma AgentPc.place_wake (pc : AgentPc) : pc.wake.place = pc.place.wake := by
  cases pc <;> rfl

lemma AgentPc.role_asking {pc : AgentPc} {p : ItemPtr} :
    pc.role = .asking p ↔ pc = .waitTest p ∨ pc = .blocked p := by
  cases pc <;> simp [role]

/-- The processing thread has completed an item, and has not got to what follows. -/
def ProcPc.finishes : ProcPc D W → Bool
  | .testCallback _ | .notifyAll => true
  | _ => false

@[simp] lemma ProcPc.finishes_wake (pc : ProcPc D W) : pc.wake.finishes = pc.finishes := by
  cases pc <;> rfl

/-- The submission whose execution is recorded. -/
def Event.completes : Event → Option ℕ
  | .executed g => some g
  | _ => none

namespace State

/-- The submission that has been executed last. -/
def lastExecuted (s : State D W) : Option ℕ := s.log.findSome? Event.completes

/-- The clients that wait, the submissions that have been executed, and the one of which the
processing thread has not yet told the clients. -/
def monitor (s : State D W) : CondVar.Monitor Agent ℕ where
  place := AgentPc.place ∘ s.agents
  holds := {g | .executed g ∈ s.log}
  owed := {g | s.proc.finishes = true ∧ s.lastExecuted = some g}

/-- The item is the last one that has been completed, and `notify_all` is still to be called for
it: the processing thread is about to find that it has no callback, or has found that. -/
def NotifyPending (s : State D W) (p : ItemPtr) : Prop :=
  s.lastExecuted = some p.submission ∧
    (s.proc = .testCallback p ∧ (s.slots p.slot).callback = none ∨ s.proc = .notifyAll)

lemma mem_monitor_holds {g : ℕ} : g ∈ s.monitor.holds ↔ .executed g ∈ s.log := Iff.rfl

lemma mem_monitor_owed {g : ℕ} :
    g ∈ s.monitor.owed ↔ s.proc.finishes = true ∧ s.lastExecuted = some g := Iff.rfl

end State

variable {p : ItemPtr}

/-- What is pending comes: within two steps of the processing thread everybody has been woken. -/
theorem State.NotifyPending.wakes (h : s.NotifyPending p) :
    ∃ n ≤ 2, run (step cfg) s (List.replicate n .proc) =
      some { s with agents := fun a => (s.agents a).wake, proc := .top } := by
  obtain ⟨-, ⟨hpc, hcallback⟩ | hpc⟩ := h
  · exact ⟨2, by omega, by simp [List.replicate, step, procStep, hpc, hcallback]⟩
  · exact ⟨1, by omega, by simp [List.replicate, step, procStep, hpc]⟩

/-! ### The steps are moves -/

/-- Others than the processing thread leave it where it is while it finishes an item. -/
lemma finishes_step (hctl : ControlInv s) (hs : step cfg s act = some s') (hact : act ≠ .proc) :
    s'.proc.finishes = s.proc.finishes := by
  rcases step_proc hs hact with hp | hp | ⟨hstart, hp⟩ | ⟨p, hpc, -, hp⟩
  · rw [hp]
  · rw [hp, ProcPc.finishes_wake]
  · rw [hp, hctl.exited_of_start hstart]
    rfl
  · rw [hp, hpc]
    rfl

/-- Executions are recorded when an item is completed, and then only. -/
lemma executed_step (hs : step cfg s act = some s')
    (hact : act = .proc → ∀ p, s.proc ≠ .complete p) :
    s'.monitor.holds = s.monitor.holds ∧ s'.lastExecuted = s.lastExecuted := by
  simp only [State.monitor, State.lastExecuted]
  rcases step_event hs with hlog | ⟨ev, hlog, hrecords⟩ <;> rw [hlog]
  · exact ⟨rfl, rfl⟩
  · have hev : ev.completes = none := by
      cases hrecords with
      | executed p hpc => exact absurd hpc (hact rfl p)
      | _ => rfl
    refine ⟨?_, by rw [List.findSome?_cons, hev]⟩
    ext g
    simp only [Set.mem_ofPred_eq, List.mem_cons, or_iff_right_iff_imp]
    rintro rfl
    cases hev

/-- `_completed` of an item that the clients have tells whether it has been executed. -/
lemma completed_iff_executed (hk : Accounted cfg s) (hp : p ∈ s.held) :
    (s.slots p.slot).completed = true ↔ .executed p.submission ∈ s.log := by
  obtain ⟨hrecord, hposted⟩ := OwnInv.posted_of_held hk.ledger hp
  rw [hrecord, (hk.own.records _ hposted).2]
  exact ⟨executed_of_isDone hk.ledger, isDone_of_executed hk.ledger⟩

/-- What is known of the clients that wait, as long as nobody releases what they wait for. -/
structure WaitInv (s : State D W) : Prop where
  kept : ∀ a p, (s.agents a).role = .asking p → p ∈ s.held
  last : ∀ p ∈ s.proc.tested, s.lastExecuted = some p.submission

section Moves

open CondVar (Step)
open Relation (ReflGen)

/-- Others than the processing thread change where the agents are, and nothing else. -/
lemma monitor_others (hctl : ControlInv s) (hs : step cfg s act = some s')
    (hact : act ≠ .proc) :
    s'.monitor = { s.monitor with place := AgentPc.place ∘ s'.agents } := by
  obtain ⟨hholds, hlast⟩ := executed_step hs fun h => absurd h hact
  have howed : s'.monitor.owed = s.monitor.owed := by
    simp only [State.monitor, hlast, finishes_step hctl hs hact]
  exact CondVar.Monitor.ext rfl hholds howed

lemma stay_place {pc : AgentPc} (h : pc.place = (s.agents a).place) :
    ReflGen Step s.monitor
      { s.monitor with place := AgentPc.place ∘ Function.update s.agents a pc } := by
  rw [Function.comp_update, h]
  have hself : Function.update (AgentPc.place ∘ s.agents) a (s.agents a).place =
      AgentPc.place ∘ s.agents := Function.update_eq_self _ _
  rw [hself]
  exact .refl

/-- Client code. -/
lemma client_waits {act : ClientAct} (hidle : s.agents a = .idle)
    (hs : clientStep s a act = some s') :
    ReflGen Step s.monitor { s.monitor with place := AgentPc.place ∘ s'.agents } := by
  cases clientMove hs with
  | submits c => exact stay_place (by rw [hidle]; rfl)
  | waits p =>
    refine .single ?_
    rw [Function.comp_update]
    exact Step.come (m := s.monitor) a p.submission (congrArg AgentPc.place hidle)
  | frees p | freesNull p => exact stay_place (congrArg AgentPc.place hidle).symm
  | _ => exact .refl

/-- The functions that clients call: the test in `WaitForWorkItem` is a test of the condition. -/
lemma agent_waits (hk : Accounted cfg s) (hw : WaitInv s) (hs : agentStep cfg s a = some s') :
    ReflGen Step s.monitor { s.monitor with place := AgentPc.place ∘ s'.agents } := by
  cases agentMove hs with
  | told p hpc hcompleted =>
    have hp : p ∈ s.held := hw.kept a p (AgentPc.role_asking.mpr (Or.inl hpc))
    refine .single ?_
    rw [Function.comp_update]
    exact Step.leave (m := s.monitor) a _ (congrArg AgentPc.place hpc)
      ((completed_iff_executed hk hp).mp hcompleted)
  | blocks p hpc hcompleted =>
    have hp : p ∈ s.held := hw.kept a p (AgentPc.role_asking.mpr (Or.inl hpc))
    refine .single ?_
    rw [Function.comp_update]
    exact Step.sleep (m := s.monitor) a _ (congrArg AgentPc.place hpc)
      (mt (completed_iff_executed hk hp).mpr hcompleted)
  | pushes c p hpc =>
    refine stay_place ?_
    rw [hpc]
    split <;> rfl
  | _ => exact stay_place (by rw [‹s.agents a = _›]; rfl)

/-! ### The processing thread -/

lemma owed_eq_empty (h : s.proc.finishes = false) : s.monitor.owed = ∅ := by
  ext g
  simp [State.mem_monitor_owed, h]

/-- The processing thread comes to finish an item by completing it. -/
lemma finishes_of_goes {pc pc' : ProcPc D W} (h : pc.Goes pc') (hpc : pc.finishes = false)
    (hcomplete : ∀ p, pc ≠ .complete p) : pc'.finishes = false := by
  cases h with
  | complete p => exact absurd rfl (hcomplete p)
  | callback p | noCallback p | notified => cases hpc
  | _ => rfl

/-- The agents go on waiting while the processing thread does anything but notify them. -/
lemma procStep_agents_eq (hs : procStep s = some s') (h : s.proc ≠ .notifyAll) :
    s'.agents = s.agents := by
  cases procMove hs with
  | executes p e _ hs => exact (execStep_frame hs).agents
  | notifies hpc => exact absurd hpc h
  | _ => rfl

/-- A client that sleeps has an item without a callback, which the processing thread has if it is
the last one that it has executed. -/
lemma asleep_callback (hk : Accounted cfg s) (hw : WaitInv s)
    (hslot : p.slot = (s.tickets p.submission).slot)
    (hasleep : (s.agents a).place = .asleep p.submission) :
    s.agents a = .blocked p ∧ (s.slots p.slot).callback = none := by
  obtain ⟨q, hq, hsubmission⟩ :
      ∃ q, s.agents a = .blocked q ∧ q.submission = p.submission := by
    cases hpc : s.agents a with
    | blocked q =>
      rw [hpc] at hasleep
      exact ⟨q, rfl, CondVar.Place.asleep.inj hasleep⟩
    | _ =>
      rw [hpc] at hasleep
      cases hasleep
  have hheld : q ∈ s.held := hw.kept a q (AgentPc.role_asking.mpr (Or.inr hq))
  have hqslot : q.slot = (s.tickets q.submission).slot := (hk.ledger.held q hheld).1
  obtain rfl : q = p := by
    refine Handoff.Ptr.ext ?_ hsubmission
    rw [hqslot, hsubmission, hslot]
  exact ⟨hq, hk.own.callback_of_held hk.ledger hheld⟩

/-- The processing thread while it has nothing to tell. -/
lemma quiet_waits (hs : step cfg s .proc = some s') (hfin : s.proc.finishes = false)
    (hne : ∀ p, s.proc ≠ .complete p) : ReflGen Step s.monitor s'.monitor := by
  have hagents : s'.agents = s.agents := procStep_agents_eq hs fun h => by
    rw [h] at hfin
    cases hfin
  have hfin' : s'.proc.finishes = false := finishes_of_goes (procStep_goes hs) hfin hne
  have hsame : s'.monitor = s.monitor := by
    refine CondVar.Monitor.ext ?_ (executed_step hs fun _ => hne).1 ?_
    · exact congrArg (AgentPc.place ∘ ·) hagents
    · rw [owed_eq_empty hfin, owed_eq_empty hfin']
  rw [hsame]

/-- The processing thread: `_completed = true` makes the condition true, and the `notify_all`
that is owed then is left out for an item with a callback, which nobody waits for. -/
lemma proc_waits (hk : Accounted cfg s) (hw : WaitInv s) (hs : step cfg s .proc = some s') :
    ReflGen Step s.monitor s'.monitor := by
  cases procMove (show procStep s = some s' from hs) with
  | completes p hpc =>
    have howed : s.monitor.owed = ∅ := owed_eq_empty (by rw [hpc]; rfl)
    refine .single ?_
    convert Step.establish (m := s.monitor) p.submission using 1
    refine CondVar.Monitor.ext rfl ?_ ?_
    · ext g
      simp [State.mem_monitor_holds]
    · ext g
      have hlast : State.lastExecuted { s with log := .executed p.submission :: s.log } =
          some p.submission := rfl
      rw [howed]
      constructor
      · rintro ⟨-, hg⟩
        exact Or.inl (Option.some.inj (hg.symm.trans hlast))
      · rintro (rfl | hg)
        · exact ⟨rfl, hlast⟩
        · cases hg
  | leaves p hpc =>
    have hsame : State.monitor { s with proc := .notifyAll } = s.monitor := by
      refine CondVar.Monitor.ext rfl rfl ?_
      simp only [State.monitor, hpc]
      rfl
    rw [hsame]
  | keeps p hpc hcallback =>
    have hlast : s.lastExecuted = some p.submission := hw.last p (by rw [hpc]; rfl)
    have hfits := fits_of_hand hk.ledger (show s.proc.hand = .finished p by rw [hpc]; rfl)
    refine .single ?_
    convert Step.dismiss (m := s.monitor) p.submission ?_ using 1
    · -- what was owed was for this item
      have howed : s.monitor.owed \ {p.submission} = ∅ := by
        ext g
        constructor
        · rintro ⟨⟨-, hg⟩, hne⟩
          exact hne (Option.some.inj (hg.symm.trans hlast))
        · exact fun hg => hg.elim
      rw [howed]
      exact CondVar.Monitor.ext rfl rfl (owed_eq_empty rfl)
    · intro b hb
      rw [(asleep_callback hk hw hfits.1 hb).2] at hcallback
      cases hcallback
  | notifies hpc =>
    refine .single ?_
    convert Step.broadcast (m := s.monitor) using 1
    refine CondVar.Monitor.ext ?_ rfl (owed_eq_empty rfl)
    funext b
    exact AgentPc.place_wake _
  | _ => exact quiet_waits hs (by rw [‹s.proc = _›]; rfl) (by simp [‹s.proc = _›])

/-- **Refinement, step by step.**  Every step is a move of the monitor, or leaves it alone. -/
theorem waits (hk : Accounted cfg s) (hw : WaitInv s) (hs : step cfg s act = some s') :
    ReflGen Step s.monitor s'.monitor := by
  by_cases hact : act = .proc
  · subst hact
    exact proc_waits hk hw hs
  · rw [monitor_others hk.control hs hact]
    cases stepBy hs with
    | proc hs => exact absurd rfl hact
    | client b act hidle hs => exact client_waits hidle hs
    | agent b hs => exact agent_waits hk hw hs
    | wakeAgent b =>
      cases hplace : (s.agents b).place with
      | asleep g =>
        refine .single ?_
        rw [Function.comp_update, AgentPc.place_wake, hplace]
        exact Step.wake (m := s.monitor) b g hplace
      | away | testing g => exact stay_place (by rw [AgentPc.place_wake, hplace]; rfl)
    | callbackReturns => exact .refl
    | controlAct act _ hs =>
      rw [(controlActStep_frame hs).1.agents]
      exact .refl
    | control hs =>
      rw [(controlStep_frame hs).1.agents]
      exact .refl
    | wakeProc => exact .refl

end Moves

/-! ### Runs in which nobody releases what is waited for -/

/-- No client releases an item that an agent waits for, or the item that the iteration of the
processing thread is about. -/
def SparesWaited (s : State D W) (act : Action) : Prop :=
  ReleasesLate s act ∧
    ∀ b p, act = .client b (.release p) → ∀ a, (s.agents a).role ≠ .asking p

/-- A client releases an item. -/
def Action.isRelease : Action → Bool
  | .client _ (.release _) => true
  | _ => false

lemma sparesWaited_of_not_isRelease (h : act.isRelease = false) : SparesWaited s act := by
  refine ⟨?_, ?_⟩
  · unfold ReleasesLate
    split
    · cases h
    · trivial
  · rintro b p rfl
    cases h

/-- The clients keep an item unless they release it. -/
lemma held_step (hs : step cfg s act = some s')
    (hact : ∀ b, act ≠ .client b (.release p)) (hp : p ∈ s.held) : p ∈ s'.held := by
  cases stepBy hs with
  | client b act _ hs =>
    cases clientMove hs with
    | forgets q | releases q =>
      have hne : p ≠ q := fun he => hact b (by rw [he])
      exact List.mem_filter.mpr ⟨hp, decide_eq_true hne⟩
    | _ => exact hp
  | agent b hs =>
    cases agentMove hs with
    | returns c q =>
      dsimp only
      split
      · exact List.mem_cons_of_mem _ hp
      · exact hp
    | _ => exact hp
  | proc hs => rwa [(procStep_frame hs).held]
  | callbackReturns => exact hp
  | controlAct act _ hs => rwa [(controlActStep_frame hs).1.held]
  | control hs => rwa [(controlStep_frame hs).1.held]
  | wakeProc | wakeAgent b => exact hp

namespace WaitInv

lemma step (h : WaitInv s) (hserial : Serial cfg s) (hok : SparesWaited s act)
    (hs : LaminaFS.step cfg s act = some s') : WaitInv s' := by
  have hk := hserial.accounted
  have hown : TestsOwn s act := testsOwn_of_completed hk hserial.tests
  constructor
  · intro a p hasks'
    have hheld : p ∈ s.held := by
      rcases (Relation.reflGen_iff _ _ _).mp (hk.own.moves hk.ledger hk.control hown hs) with
        hsame | hmove
      · exact h.kept a p ((congrFun (congrArg Handoff.Ledger.role hsame) a).symm.trans hasks')
      · exact (Handoff.Inv.asking_of_step hmove hasks').elim (h.kept a p) id
    refine held_step hs ?_ hheld
    rintro b rfl
    -- a release leaves the agents where they are
    have hsame : s'.agents = s.agents := by
      cases stepBy hs with
      | client _ _ _ hs => cases clientMove hs <;> rfl
    exact hok.2 b p rfl a (hsame ▸ hasks')
  · intro p hp
    obtain ⟨hpc', -⟩ := tested_item hp
    rcases comesToTest hs hpc' with ⟨hact, hpc⟩ | ⟨hact, hpc⟩
    · subst hact
      simp only [LaminaFS.step, procStep, hpc, Option.some.injEq] at hs
      exact hs ▸ rfl
    · rw [(executed_step hs fun he => absurd he hact).2]
      exact h.last p (by rw [hpc]; rfl)

end WaitInv

section Runs

variable {pool : PoolAllocator} {capacity : ℕ} {memory : ℕ → WorkItem} {world : W}

/-- **Refinement.**  A run in which nobody releases what is waited for is, in the monitor, a run
of `Lib.CondVar`. -/
theorem refines_condVar (hpool : pool.WF) (hcapacity : 1 ≤ capacity)
    (h : Reach (step cfg) SparesWaited (State.init pool capacity memory world) s) :
    (Serial cfg s ∧ WaitInv s) ∧ Relation.ReflTransGen CondVar.Step
      (State.init pool capacity memory world : State D W).monitor s.monitor := by
  have init : Serial cfg (State.init pool capacity memory world) ∧
      WaitInv (State.init pool capacity memory world : State D W) :=
    ⟨serial_of_reach hpool hcapacity .refl,
      fun a p hasks => (by cases hasks), fun p htested => (by cases htested)⟩
  refine h.refines (I := fun s => Serial cfg s ∧ WaitInv s) init
    fun s act s' _ hinv hok hs => ?_
  exact ⟨⟨hinv.1.step hok.1 hs, hinv.2.step hinv.1 hok hs⟩, waits hinv.1.accounted hinv.2 hs⟩

lemma blocked_pending (hpool : pool.WF) (hcapacity : 1 ≤ capacity)
    (h : Reach (step cfg) SparesWaited (State.init pool capacity memory world) s)
    (hpc : s.agents a = .blocked p) (hcompleted : (s.slots p.slot).completed = true) :
    s.NotifyPending p := by
  obtain ⟨⟨hserial, hwait⟩, hrun⟩ := refines_condVar hpool hcapacity h
  have hk := hserial.accounted
  have hheld : p ∈ s.held := hwait.kept a p (AgentPc.role_asking.mpr (Or.inr hpc))
  have hplace : s.monitor.place a = .asleep p.submission := congrArg AgentPc.place hpc
  have hexecuted := (completed_iff_executed hk hheld).mp hcompleted
  obtain ⟨hfin, hlast⟩ : p.submission ∈ s.monitor.owed :=
    CondVar.noneLost_run (fun _ => rfl) hrun a p.submission hplace hexecuted
  refine ⟨hlast, ?_⟩
  cases hproc : s.proc with
  | testCallback q =>
    have hfits := fits_of_hand hk.ledger (show s.proc.hand = .finished q by rw [hproc]; rfl)
    have hsubmission : some q.submission = some p.submission :=
      (hwait.last q (by rw [hproc]; rfl)).symm.trans hlast
    obtain ⟨hq, hcallback⟩ := asleep_callback hk hwait hfits.1
      (hplace.trans (congrArg _ (Option.some.inj hsubmission).symm))
    obtain rfl : p = q := AgentPc.blocked.inj (hpc.symm.trans hq)
    exact Or.inl ⟨rfl, hcallback⟩
  | notifyAll => exact Or.inr rfl
  | _ =>
    rw [hproc] at hfin
    cases hfin

lemma executed_of_returns (hpool : pool.WF) (hcapacity : 1 ≤ capacity)
    (h : Reach (step cfg) SparesWaited (State.init pool capacity memory world) s)
    (hasks : (s.agents a).role = .asking p) (hs : step cfg s act = some s')
    (hreturns : s'.agents a = .idle) :
    (s.slots p.slot).completed = true ∧ .executed p.submission ∈ s.log := by
  obtain ⟨⟨hserial, hwait⟩, -⟩ := refines_condVar hpool hcapacity h
  have hk := hserial.accounted
  have hheld : p ∈ s.held := hwait.kept a p hasks
  have hwaits : (s.monitor.place a).waitsFor = some p.submission := by
    show (s.agents a).place.waitsFor = _
    rcases AgentPc.role_asking.mp hasks with hpc | hpc <;> rw [hpc] <;> rfl
  have haway : (s'.monitor.place a).waitsFor ≠ some p.submission := by
    show (s'.agents a).place.waitsFor ≠ _
    rw [hreturns]
    exact (Option.some_ne_none _).symm
  have hexecuted : .executed p.submission ∈ s.log := by
    rcases (Relation.reflGen_iff _ _ _).mp (waits hk hwait hs) with hsame | hmove
    · rw [hsame] at haway
      exact absurd hwaits haway
    · exact CondVar.holds_of_leaves hmove hwaits haway
  exact ⟨(completed_iff_executed hk hheld).mpr hexecuted, hexecuted⟩

/-- **No completion is missed.**  In runs in which nobody releases what is waited for: if an agent
sleeps in `WaitForWorkItem` although its item is complete, then the processing thread is going to
call `notify_all` for that item; and an agent that returns from `WaitForWorkItem` has found its
item complete. -/
theorem no_completion_missed (hpool : pool.WF) (hcapacity : 1 ≤ capacity)
    (h : Reach (step cfg) SparesWaited (State.init pool capacity memory world) s) :
    (∀ a p, s.agents a = .blocked p → (s.slots p.slot).completed = true → s.NotifyPending p) ∧
      ∀ a p act s', (s.agents a).role = .asking p → step cfg s act = some s' →
        s'.agents a = .idle →
        (s.slots p.slot).completed = true ∧ .executed p.submission ∈ s.log :=
  ⟨fun _ _ => blocked_pending hpool hcapacity h,
    fun _ _ _ _ => executed_of_returns hpool hcapacity h⟩

/-- An agent whose item is complete can return: it takes two steps of the processing thread at
most, and then one of its own. -/
theorem blocked_returns (hpool : pool.WF) (hcapacity : 1 ≤ capacity)
    (h : Reach (step cfg) SparesWaited (State.init pool capacity memory world) s)
    (hpc : s.agents a = .blocked p) (hcompleted : (s.slots p.slot).completed = true) :
    ∃ n ≤ 2, ∃ s₁ s₂, run (step cfg) s (List.replicate n .proc) = some s₁ ∧
      step cfg s₁ (.agent a) = some s₂ ∧ s₂.agents a = .idle := by
  have hpending : s.NotifyPending p := blocked_pending hpool hcapacity h hpc hcompleted
  obtain ⟨n, hn, hrun⟩ := @State.NotifyPending.wakes _ _ cfg _ _ hpending
  have hawake : (s.agents a).wake = .waitTest p := by
    rw [hpc]
    rfl
  refine ⟨n, hn, _, { s with
    agents := Function.update (fun b => (s.agents b).wake) a .idle
    proc := .top
    reported := p :: s.reported }, hrun, ?_, ?_⟩
  · simp [step, agentStep, hawake, hcompleted]
  · simp

end Runs

/-- Two clients wait for their items, and one of the items has just been completed. -/
theorem no_completion_missed_two :
    ∃ s, Reach (step smallConfig) SparesWaited smallInit s ∧
      s.agents (.client 0) = .blocked ⟨0, 0⟩ ∧ s.agents (.client 1) = .blocked ⟨1, 1⟩ ∧
      s.NotifyPending ⟨0, 0⟩ := by
  obtain ⟨s, hs, hp⟩ := @Reach.of_guardedRun_any _ _ (step smallConfig) SparesWaited smallInit
    (fun _ act => !act.isRelease)
    (fun _ _ h => sparesWaited_of_not_isRelease (by simpa using h))
    (submits 0 ⟨.fileExists, [slash], none⟩ 14 ++ submits 1 ⟨.fileExists, [slash], none⟩ 12 ++
      [.client (.client 0) (.wait ⟨0, 0⟩), .agent (.client 0),
        .client (.client 1) (.wait ⟨1, 1⟩), .agent (.client 1)] ++ processes)
    (fun s => decide (s.agents (.client 0) = .blocked ⟨0, 0⟩ ∧
      s.agents (.client 1) = .blocked ⟨1, 1⟩ ∧ (s.slots 0).completed = true))
    (by decide +kernel)
  obtain ⟨h₀, h₁, hcompleted⟩ := of_decide_eq_true hp
  exact ⟨s, hs, h₀, h₁, (no_completion_missed (PoolAllocator.wf_new 2 (by decide) (by decide))
    (by decide) hs).1 (.client 0) ⟨0, 0⟩ h₀ hcompleted⟩

end LaminaFS
