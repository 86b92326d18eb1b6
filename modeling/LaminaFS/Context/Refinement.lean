/-
# The context refines the ledger

The invariant that ties a state to its ledger is kept by every step that tests the right
`_callback`, and so every run of such steps is a run of `Lib.Handoff` in the ledger.
-/
import LaminaFS.Context.Records

namespace LaminaFS

open Transition

variable {D W : Type} {cfg : Config D W} {s s' : State D W} {a : Agent} {g : ℕ}

namespace OwnInv

/-! ### The pool and the queue stay well formed -/

/-- A step that leaves the pool and the queue alone, and takes no slot. -/
lemma sound_of_eq (h : s.Sound) (hpool : s'.pool = s.pool) (hring : s'.ring = s.ring)
    (htickets : s'.tickets = s.tickets) (hstage : s'.stage = s.stage) : s'.Sound := by
  refine ⟨hpool ▸ h.pool, hring ▸ h.ring, ?_⟩
  rw [hpool, htickets, hstage]
  exact h.slot_lt

/-- The slot of a submission is given back. -/
lemma sound_releaseStep (h : s.Sound) (hl : Handoff.Inv s.ledger) {p : ItemPtr} (by_ : Releaser)
    (hslot : p.slot = (s.tickets p.submission).slot)
    (hlive : (s.stage p.submission).isLive = true) : (releaseStep s p by_).Sound := by
  have hborn : s.stage p.submission ≠ .unborn := fun hst => by
    rw [hst] at hlive
    cases hlive
  have hlt : p.slot < s.pool.capacity := hslot ▸ h.slot_lt _ hborn
  refine ⟨PoolAllocator.wf_free h.pool hlt, h.ring, fun g hg => ?_⟩
  show (s.tickets g).slot < (s.pool.free _).capacity
  rw [PoolAllocator.free_capacity]
  refine h.slot_lt g fun hst => ?_
  rw [releaseStep, occupant_of_live hl hslot hlive] at hg
  dsimp only at hg
  by_cases he : g = p.submission
  · exact hborn (he ▸ hst)
  · rw [Function.update_of_ne he] at hg
    exact hg hst

/-- The stage of a submission that has been made moves on, and no slot is taken. -/
lemma sound_of_stage (h : s.Sound) {p : ItemPtr} {st : Handoff.Stage}
    (hborn : s.stage p.submission ≠ .unborn) (hpool : s'.pool = s.pool) (hring : s'.ring.WF)
    (htickets : s'.tickets = s.tickets)
    (hstage : s'.stage = Function.update s.stage p.submission st) : s'.Sound := by
  refine ⟨hpool ▸ h.pool, hring, fun g hg => ?_⟩
  rw [hpool, htickets]
  refine h.slot_lt g fun hst => ?_
  by_cases he : g = p.submission
  · exact hborn (he ▸ hst)
  · rw [hstage, Function.update_of_ne he] at hg
    exact hg hst

lemma client_sound (h : s.Sound) (hl : Handoff.Inv s.ledger) {act : ClientAct}
    (hs : clientStep s a act = some s') : s'.Sound := by
  cases clientMove hs with
  | releases p hheld =>
    exact sound_of_eq (sound_releaseStep h hl .client (hl.held p hheld).1
      (hl.live_of_held hheld)) rfl rfl rfl rfl
  | _ => exact sound_of_eq h rfl rfl rfl rfl

lemma agent_sound (h : s.Sound) (hl : Handoff.Inv s.ledger) (hs : agentStep cfg s a = some s') :
    s'.Sound := by
  cases agentMove hs with
  | takes c i pool _ hi =>
    have hwf := PoolAllocator.wf_alloc h.pool
    have hcap := PoolAllocator.alloc_capacity s.pool
    have hfree := (PoolAllocator.alloc_eq_some (p := s.pool) (i := i) (by rw [hi])).1
    rw [hi] at hwf hcap
    refine ⟨hwf, h.ring, fun g hg => ?_⟩
    show (Function.update s.tickets s.nextSubmission _ g).slot < pool.capacity
    rw [hcap]
    by_cases he : g = s.nextSubmission
    · rw [he, Function.update_self]
      exact h.pool.free_lt i hfree
    · rw [Function.update_of_ne he]
      exact h.slot_lt g (by simpa [Function.update_of_ne he] using hg)
  | pushes c p hpc =>
    have hst : s.stage p.submission = .building :=
      (building_of_role (a := a) hl (by rw [hpc]; rfl)).2.1
    exact sound_of_stage h (by rw [hst]; simp) rfl (RingBuffer.wf_push h.ring _) rfl rfl
  | _ => exact sound_of_eq h rfl rfl rfl rfl

lemma proc_sound (h : s.Sound) (hl : Handoff.Inv s.ledger) (hs : procStep s = some s') :
    s'.Sound := by
  cases procMove hs with
  | executes p e _ hs =>
    have hf := execStep_frame hs
    exact sound_of_eq h hf.pool hf.ring hf.tickets hf.stage
  | fetches p ring _ hpop =>
    have hring := RingBuffer.wf_pop h.ring none
    rw [hpop] at hring
    have hst : s.stage p.submission = .queued := by
      refine (hl.queue p ?_).2
      show p ∈ s.ring.contents.filterMap id
      rw [RingBuffer.contents_of_pop_some h.ring hpop]
      exact List.mem_cons_self
    exact sound_of_stage h (by rw [hst]; simp) rfl hring rfl rfl
  | findsEmpty ring _ hpop =>
    have hring := RingBuffer.wf_pop h.ring none
    rw [hpop] at hring
    exact ⟨h.pool, hring, h.slot_lt⟩
  | completes p hpc =>
    have hfits := fits_of_hand hl (show s.proc.hand = .working p by rw [hpc]; rfl)
    have hst : s.stage p.submission = .executing := hfits.2
    exact sound_of_stage h (by rw [hst]; simp) rfl h.ring rfl rfl
  | invokes p hpc =>
    have hfits := fits_of_hand hl (show s.proc.hand = .calling p by rw [hpc]; rfl)
    have hst : s.stage p.submission = .completed := hfits.2.1
    have hp := occupant_of_live hl hfits.1 (by rw [hst]; rfl)
    exact sound_of_stage h (by rw [hst]; simp) rfl h.ring rfl (by rw [hp])
  | releases p hpc =>
    have hfits := fits_of_hand hl (show s.proc.hand = .after p by rw [hpc]; rfl)
    have hst : s.stage p.submission = .called := hfits.2
    exact sound_of_eq (sound_releaseStep h hl .processing hfits.1 (by rw [hst]; rfl)) rfl rfl rfl
      rfl
  | _ => exact sound_of_eq h rfl rfl rfl rfl

lemma step_sound {act : Action} (h : s.Sound) (hl : Handoff.Inv s.ledger)
    (hs : step cfg s act = some s') : s'.Sound := by
  cases stepBy hs with
  | client a act _ hs => exact client_sound h hl hs
  | agent a hs => exact agent_sound h hl hs
  | proc hs => exact proc_sound h hl hs
  | callbackReturns => exact sound_of_eq h rfl rfl rfl rfl
  | controlAct act _ hs =>
    obtain ⟨hf, -⟩ := controlActStep_frame hs
    exact sound_of_eq h hf.pool hf.ring hf.tickets hf.stage
  | control hs =>
    obtain ⟨hf, -⟩ := controlStep_frame hs
    exact sound_of_eq h hf.pool hf.ring hf.tickets hf.stage
  | wakeProc | wakeAgent a => exact sound_of_eq h rfl rfl rfl rfl

/-! ### Every agent stays on its way -/

lemma agentStep_tickets (hs : agentStep cfg s a = some s') :
    s'.tickets = s.tickets ∨ ∃ t, s'.tickets = Function.update s.tickets s.nextSubmission t := by
  cases agentMove hs with
  | takes => exact Or.inr ⟨_, rfl⟩
  | _ => exact Or.inl rfl

/-- The tickets of the submissions that have been made stay. -/
lemma step_tickets {act : Action} (hl : Handoff.Inv s.ledger) (hs : step cfg s act = some s')
    (hborn : s.stage g ≠ .unborn) : s'.tickets g = s.tickets g := by
  have hall : s'.tickets = s.tickets ∨
      ∃ t, s'.tickets = Function.update s.tickets s.nextSubmission t := by
    cases stepBy hs with
    | agent a hs => exact agentStep_tickets hs
    | proc hs => exact Or.inl (procStep_frame hs).tickets
    | control hs => exact Or.inl (controlStep_frame hs).1.tickets
    | client a act _ hs => exact Or.inl (clientStep_frame hs).tickets
    | controlAct act _ hs => exact Or.inl (controlActStep_frame hs).1.tickets
    | callbackReturns => exact Or.inl rfl
    | wakeProc | wakeAgent a => exact Or.inl rfl
  rcases hall with he | ⟨t, he⟩ <;> rw [he]
  refine Function.update_of_ne ?_ _ _
  rintro rfl
  exact hborn ((hl.born _).mpr (Nat.le_refl _))

/-- What an agent has built stays as it is while others act. -/
lemma builds_kept {act : Action} {b : Agent} (h : OwnInv cfg s) (hl : Handoff.Inv s.ledger)
    (hl' : Handoff.Inv s'.ledger) (hs : step cfg s act = some s') (hact : act ≠ .agent b)
    (hrole : (s'.agents b).role = (s.agents b).role) : (s.agents b).Builds cfg s' b := by
  have hissued (c : Call) (p : ItemPtr) (hborn : s.stage p.submission ≠ .unborn)
      (hi : s.Issued b c p) : s'.Issued b c p := (step_tickets hl hs hborn).trans hi
  have hbuilding (p : ItemPtr) (hr : (s.agents b).role = .building p) :
      s.stage p.submission ≠ .unborn ∧ s'.slots p.slot = s.slots p.slot := by
    obtain ⟨hslot, hst, howner⟩ := building_of_role hl hr
    obtain ⟨hslot', hst', -⟩ := building_of_role hl' (hrole.trans hr)
    have hocc' : s'.Occupies p.submission := occupies_of_live hl' (by rw [hst']; rfl)
    have hrec := (h.record_step hl hs (by rw [hst']; simp) hocc').of_building hst
      (by rwa [howner])
    rw [State.record, ← hslot', State.record, ← hslot] at hrec
    exact ⟨by rw [hst]; simp, hrec⟩
  have hposted (p : ItemPtr) (hr : (s.agents b).role = .posted p) :
      s.stage p.submission ≠ .unborn := by
    have := (hl.posted b p hr).2.1
    intro hst
    rw [show s.ledger.stage p.submission = _ from hst] at this
    cases this
  have hbuilds := h.agents b
  cases hpc : s.agents b with
  | construct c p =>
    rw [hpc] at hbuilds
    exact hissued c p (hbuilding p (by rw [hpc]; rfl)).1 hbuilds
  | store c p todo =>
    rw [hpc] at hbuilds
    obtain ⟨hborn, hslots⟩ := hbuilding p (by rw [hpc]; rfl)
    obtain ⟨hi, done, hstores, hdone⟩ := hbuilds
    exact ⟨hissued c p hborn hi, done, hstores, hslots.trans hdone⟩
  | pushTest c p | pushLock c p =>
    rw [hpc] at hbuilds
    obtain ⟨hborn, hslots⟩ := hbuilding p (by rw [hpc]; rfl)
    exact ⟨hissued c p hborn hbuilds.1, hslots.trans hbuilds.2⟩
  | notify c p | notifyOne c p =>
    rw [hpc] at hbuilds
    exact hissued c p (hposted p (by rw [hpc]; rfl)) hbuilds
  | late c p todo =>
    rw [hpc] at hbuilds
    exact ⟨hissued c p (hposted p (by rw [hpc]; rfl)) hbuilds.1, hbuilds.2⟩
  | idle | alloc _ | failed _ | waitTest _ | blocked _ | crashed => trivial

lemma builds_of_eq {t : State D W} {pc : AgentPc} (hpc : t.agents a = pc)
    (h : pc.Builds cfg t a) : (t.agents a).Builds cfg t a := by
  rw [hpc]
  exact h

/-- An agent gets on with what it builds. -/
lemma builds_step (h : OwnInv cfg s) (hs : agentStep cfg s a = some s') :
    (s'.agents a).Builds cfg s' a := by
  have hbuilds := h.agents a
  cases agentMove hs with
  | noSlot | takes => simp [AgentPc.Builds, State.Issued]
  | constructs c p hpc =>
    rw [hpc] at hbuilds
    exact builds_of_eq (Function.update_self _ _ _) ⟨hbuilds, [], rfl, by simp⟩
  | filled c p hpc =>
    rw [hpc] at hbuilds
    obtain ⟨hissued, done, hstores, hdone⟩ := hbuilds
    refine builds_of_eq (Function.update_self _ _ _) ?_
    rw [List.append_nil] at hstores
    exact ⟨hissued, by rw [Plan.built, hstores]; exact hdone⟩
  | stores c p store todo hpc =>
    rw [hpc] at hbuilds
    obtain ⟨hissued, done, hstores, hdone⟩ := hbuilds
    refine builds_of_eq (Function.update_self _ _ _) ?_
    refine ⟨hissued, done ++ [store], by simp [hstores], ?_⟩
    show Function.update s.slots p.slot _ p.slot = _
    rw [Function.update_self, hdone, Store.applyAll_append]
    rfl
  | seesRoom c p hpc | findsFull c p hpc | notifies c p hpc =>
    rw [hpc] at hbuilds
    refine builds_of_eq (Function.update_self _ _ _) ?_
    exact hbuilds
  | pushes c p hpc =>
    rw [hpc] at hbuilds
    refine builds_of_eq (Function.update_self _ _ _) ?_
    split
    · exact hbuilds.1
    · exact ⟨hbuilds.1, [], rfl⟩
  | notifiesOne c p hpc =>
    rw [hpc] at hbuilds
    refine builds_of_eq (Function.update_self _ _ _) ?_
    exact ⟨hbuilds, [], rfl⟩
  | storesLate c p store todo hpc =>
    rw [hpc] at hbuilds
    obtain ⟨hissued, done, hlate⟩ := hbuilds
    exact builds_of_eq (Function.update_self _ _ _) ⟨hissued, done ++ [store], by simp [hlate]⟩
  | returns | refused | told | blocks =>
    exact builds_of_eq (Function.update_self _ _ _) trivial

lemma builds_wake {t : State D W} {b : Agent} {pc : AgentPc} (h : pc.Builds cfg t b) :
    pc.wake.Builds cfg t b := by
  cases pc <;> exact h

lemma step_builds {act : Action} (h : OwnInv cfg s) (hl : Handoff.Inv s.ledger)
    (hl' : Handoff.Inv s'.ledger) (hs : step cfg s act = some s') (b : Agent) :
    (s'.agents b).Builds cfg s' b := by
  by_cases hact : act = .agent b
  · subst hact
    exact h.builds_step hs
  · rcases step_agents hs hact with he | he | ⟨-, hnone⟩
    · exact builds_of_eq he (h.builds_kept hl hl' hs hact (by rw [he]))
    · refine builds_of_eq he (builds_wake (h.builds_kept hl hl' hs hact ?_))
      rw [he, AgentPc.role_wake]
    · -- client code builds nothing
      cases hpc : s'.agents b <;> first | trivial | (rw [hpc] at hnone; cases hnone)

/-! ### What the records show -/

lemma freeBuffer_marks (item : WorkItem) :
    item.freeBuffer.2.callback = item.callback ∧ item.freeBuffer.2.completed = item.completed := by
  unfold WorkItem.freeBuffer
  split <;> exact ⟨rfl, rfl⟩

lemma step_records {act : Action} (h : OwnInv cfg s) (hl : Handoff.Inv s.ledger)
    (hs : step cfg s act = some s') (g : ℕ) (hg : s'.Posted g) :
    (s'.record g).callback = (s'.plan cfg g).callback ∧
      (s'.record g).completed = (s'.stage g).isDone := by
  have hborn' : s'.stage g ≠ .unborn := hg.ne_unborn
  have hplan (hborn : s.stage g ≠ .unborn) : s'.plan cfg g = s.plan cfg g := by
    rw [State.plan, step_tickets hl hs hborn]
    rfl
  have hold (hposted : s.Posted g) : s'.plan cfg g = s.plan cfg g := hplan hposted.ne_unborn
  cases h.record_step hl hs hborn' hg.2 with
  | taken _ hstage | filled _ hstage => exact absurd hstage hg.ne_building
  | posted hact hborn hstage hrecord hpc =>
    rw [hrecord, hplan (by rw [hborn]; simp), hstage, State.plan]
    exact Call.built_callback _ _
  | same hborn hocc hposted hdone hrecord =>
    have hrec := h.records g ⟨hposted ▸ hg.1, hocc⟩
    rw [hrecord, hplan hborn, hdone]
    exact hrec
  | late hposted hstage hcallback hverb hrecord =>
    rw [hrecord, hold hposted, hstage]
    exact h.records g hposted
  | executing p e _ hp hslot hpc hstage hexec =>
    subst hp
    have hposted : s.Posted p.submission :=
      ⟨by rw [hstage]; rfl, occupies_of_live hl (by rw [hstage]; rfl)⟩
    have hkept := execStep_kept hexec
    have hf := execStep_frame hexec
    have hrec := h.records _ hposted
    rw [State.record, ← hslot] at hrec
    rw [hold hposted, State.record, hf.tickets, ← hslot, hkept.callback, hkept.completed, hf.stage]
    exact hrec
  | completed hposted hstage hrecord =>
    rw [hrecord, hold hposted, hstage]
    exact ⟨(h.records g hposted).1, rfl⟩
  | freed hposted hstage hdone hrecord =>
    rw [hrecord, hold hposted, hstage, (freeBuffer_marks _).1, (freeBuffer_marks _).2]
    exact h.records g hposted

/-- **The step lemma.**  Every step that tests the right `_callback` keeps the invariant. -/
theorem step {act : Action} (h : OwnInv cfg s) (hl : Handoff.Inv s.ledger) (hctl : ControlInv s)
    (hok : TestsOwn s act) (hs : step cfg s act = some s') : OwnInv cfg s' := by
  have hl' : Handoff.Inv s'.ledger := hl.reflGen (h.moves hl hctl hok hs)
  exact { step_sound h.toSound hl hs with
    agents := h.step_builds hl hl' hs
    records := h.step_records hl hs }

end OwnInv

/-- What is known of a state in which every slot is accounted for. -/
structure Accounted (cfg : Config D W) (s : State D W) : Prop where
  own : OwnInv cfg s
  ledger : Handoff.Inv s.ledger
  control : ControlInv s

lemma Accounted.step {act : Action} (h : Accounted cfg s) (hok : TestsOwn s act)
    (hs : step cfg s act = some s') : Accounted cfg s' :=
  ⟨h.own.step h.ledger h.control hok hs, h.ledger.reflGen (h.own.moves h.ledger h.control hok hs),
    h.control.step hs⟩

section Runs

variable {pool : PoolAllocator} {capacity : ℕ} {memory : ℕ → WorkItem} {world : W}
  {ok : State D W → Action → Prop}

lemma ledger_initial :
    (State.init pool capacity memory world : State D W).ledger.Initial := by
  constructor <;> first | rfl | exact fun _ => rfl

lemma ownInv_init (hpool : pool.WF) (hcapacity : 1 ≤ capacity) :
    OwnInv cfg (State.init pool capacity memory world) where
  pool := hpool
  ring := RingBuffer.wf_new _ hcapacity
  slot_lt _ hg := absurd rfl hg
  agents _ := trivial
  records _ hg := by cases hg.1

/-- **Refinement.**  A run whose every step tests the right `_callback` is, in the ledger, a run
of `Lib.Handoff`. -/
theorem refines_handoff (hpool : pool.WF) (hcapacity : 1 ≤ capacity)
    (hok : ∀ s act, ok s act → TestsOwn s act)
    (h : Reach (step cfg) ok (State.init pool capacity memory world) s) :
    Accounted cfg s ∧ Relation.ReflTransGen Handoff.Step
      (State.init pool capacity memory world : State D W).ledger s.ledger := by
  have init : Accounted cfg (State.init pool capacity memory world) :=
    ⟨ownInv_init hpool hcapacity, .of_initial ledger_initial,
      @controlInv _ _ cfg _ ok _ _ _ _ .refl⟩
  refine h.refines init fun s act s' _ hinv hact hs => ?_
  exact ⟨hinv.step (hok _ _ hact) hs,
    hinv.own.moves hinv.ledger hinv.control (hok _ _ hact) hs⟩

end Runs

end LaminaFS
