/-
# Where the work items are

The threads of a context hand the slots of its pool around as the parties of
`Lib.Handoff` do: the clients and the code inside callbacks are its agents, the processing
thread is its worker, and the items with a callback are the worker's to give back.  The ledger
of a state is read off the program counters, the pool, the queue and the record.

The processing thread reads `_callback` after it has published `_completed`, and the slot may be
another item's by then.  As long as that does no harm, the context does what the ledger
allows.
-/
import LaminaFS.Context.Control

namespace LaminaFS

open Transition

variable {D W : Type} {cfg : Config D W} {s s' : State D W} {a : Agent}

/-! ### The ledger of a state -/

/-- What an agent does with a slot. -/
def AgentPc.role : AgentPc → Handoff.Role
  | .construct _ p | .store _ p _ | .pushTest _ p | .pushLock _ p => .building p
  | .notify _ p | .notifyOne _ p | .late _ p _ => .posted p
  | .waitTest p | .blocked p => .asking p
  | .idle | .alloc _ | .failed _ | .crashed => .none

/-- What the processing thread does with a slot. -/
def ProcPc.hand : ProcPc D W → Handoff.Hand
  | .exec p _ | .complete p => .working p
  | .testCallback p => .finished p
  | .invoke p => .calling p
  | .inCallback p | .testAction p | .freeBuffer p | .release p => .after p
  | .top | .pop | .semTest | .semSleep | .notifyAll | .exited => .free
  | .crashed => .dead

@[simp] lemma AgentPc.role_wake (pc : AgentPc) : pc.wake.role = pc.role := by cases pc <;> rfl

@[simp] lemma ProcPc.hand_wake (pc : ProcPc D W) : pc.wake.hand = pc.hand := by
  cases pc <;> rfl

/-- The events that the ledger records. -/
def Event.entry : Event → Option Handoff.Entry
  | .executed g => some (.executed g)
  | .invoked g _ => some (.called g)
  | .released g by_ => some (.released g (by_ == .processing))
  | _ => none

/-- The item of the submission has a callback. -/
def Ticket.hasCallback (t : Ticket) : Bool := t.call.withCallback.isSome

/-- The ledger of a state. -/
def State.ledger (s : State D W) : Handoff.Ledger Agent where
  free := s.pool.isFree
  occupant := s.occupant
  next := s.nextSubmission
  slotOf := Ticket.slot ∘ s.tickets
  owner := Ticket.agent ∘ s.tickets
  byWorker := Ticket.hasCallback ∘ s.tickets
  stage := s.stage
  queue := s.ring.contents.filterMap id
  role := AgentPc.role ∘ s.agents
  hand := s.proc.hand
  held := s.held
  reported := s.reported
  returned := s.returned
  log := s.log.filterMap Event.entry

/-- What the processing thread has in its hand is where the invariant says. -/
lemma fits_of_hand {s : State D W} {hand : Handoff.Hand} (hl : Handoff.Inv s.ledger)
    (hhand : s.proc.hand = hand) : hand.Fits s.ledger := by
  rw [← hhand]
  exact hl.hand

/-- What an agent builds is its own, and is not posted yet. -/
lemma building_of_role {s : State D W} {p : ItemPtr} (hl : Handoff.Inv s.ledger)
    (hrole : (s.agents a).role = .building p) :
    p.slot = (s.tickets p.submission).slot ∧ s.stage p.submission = .building ∧
      (s.tickets p.submission).agent = a :=
  hl.building a p hrole

/-- The item whose `_callback` is tested next. -/
def ProcPc.tested : ProcPc D W → Option ItemPtr
  | .testCallback p => some p
  | _ => none

/-- What the processing thread reads as `_callback` is the field of the item that it has
executed, or it is null. -/
def TestsOwn (s : State D W) (act : Action) : Prop :=
  act = .proc → ∀ p ∈ s.proc.tested,
    s.occupant p.slot = p.submission ∨ (s.slots p.slot).callback = none

instance (s : State D W) : DecidablePred (TestsOwn s) :=
  fun _ => inferInstanceAs (Decidable (_ → _))

namespace State

/-- The plan of a submission. -/
def plan (cfg : Config D W) (s : State D W) (g : ℕ) : Plan :=
  (s.tickets g).call.plan cfg.contextAlloc

/-- The memory of the slot of a submission. -/
def record (s : State D W) (g : ℕ) : WorkItem := s.slots (s.tickets g).slot

/-- The slot of the submission has not been taken for another one. -/
def Occupies (s : State D W) (g : ℕ) : Prop := s.occupant (s.tickets g).slot = g

/-- The submission has been pushed, and its slot has not been taken for another one. -/
def Posted (s : State D W) (g : ℕ) : Prop := (s.stage g).isPosted = true ∧ s.Occupies g

end State

/-- What has been pushed is not unborn. -/
lemma State.Posted.ne_unborn {s : State D W} {g : ℕ} (h : s.Posted g) : s.stage g ≠ .unborn :=
  fun hst => by
    have hposted := h.1
    rw [hst] at hposted
    cases hposted

/-- What has been pushed is not being built. -/
lemma State.Posted.ne_building {s : State D W} {g : ℕ} (h : s.Posted g) :
    s.stage g ≠ .building := fun hst => by
  have hposted := h.1
  rw [hst] at hposted
  cases hposted

/-- The pointer belongs to a submission of the agent, for the call. -/
def State.Issued (s : State D W) (a : Agent) (c : Call) (p : ItemPtr) : Prop :=
  s.tickets p.submission = ⟨c, a, p.slot⟩

/-- How far the agent is with the item that it builds, or has to finish. -/
def AgentPc.Builds (cfg : Config D W) (s : State D W) (a : Agent) : AgentPc → Prop
  | .construct c p => s.Issued a c p
  | .store c p todo => s.Issued a c p ∧ ∃ done, (c.plan cfg.contextAlloc).stores = done ++ todo ∧
      s.slots p.slot = Store.applyAll done .new
  | .pushTest c p | .pushLock c p => s.Issued a c p ∧
      s.slots p.slot = (c.plan cfg.contextAlloc).built
  | .notify c p | .notifyOne c p => s.Issued a c p
  | .late c p todo => s.Issued a c p ∧ ∃ done, (c.plan cfg.contextAlloc).late = done ++ todo
  | _ => True

/-- The pool and the queue are well formed, and the slots that have been taken are of the pool. -/
structure State.Sound (s : State D W) : Prop where
  pool : s.pool.WF
  ring : s.ring.WF
  slot_lt : ∀ g, s.stage g ≠ .unborn → (s.tickets g).slot < s.pool.capacity

/-- What goes with the invariant of the ledger: every agent is on its way with its plan, and an
item that has been pushed shows the callback of its call and whether it is complete. -/
structure OwnInv (cfg : Config D W) (s : State D W) : Prop extends s.Sound where
  agents : ∀ a, (s.agents a).Builds cfg s a
  records : ∀ g, s.Posted g → (s.record g).callback = (s.plan cfg g).callback ∧
    (s.record g).completed = (s.stage g).isDone

/-! ### The steps are moves -/

section Moves

open Handoff (Step)
open Relation (ReflGen)

/-- An agent has moved on, and its role is the same. -/
lemma stay_agent (pc : AgentPc) (h : pc.role = (s.agents a).role) :
    ReflGen Step s.ledger
      { s.ledger with role := AgentPc.role ∘ Function.update s.agents a pc } := by
  have hrole : AgentPc.role ∘ Function.update s.agents a pc = AgentPc.role ∘ s.agents := by
    rw [Function.comp_update, h]
    exact Function.update_eq_self _ _
  rw [hrole]
  exact .refl

/-- The processing thread has moved on, and has the same in its hand. -/
lemma stay_proc (pc : ProcPc D W) (h : pc.hand = s.proc.hand) :
    ReflGen Step s.ledger { s.ledger with hand := pc.hand } := by
  rw [h]
  exact .refl

namespace OwnInv

/-- A submission that has a slot is in it. -/
lemma occupies_of_live (hl : Handoff.Inv s.ledger) {g : ℕ} (hlive : (s.stage g).isLive = true) :
    s.Occupies g :=
  (hl.lives g hlive).2

/-- A pointer to a submission that has a slot finds it there. -/
lemma occupant_of_live (hl : Handoff.Inv s.ledger) {p : ItemPtr}
    (hslot : p.slot = (s.tickets p.submission).slot)
    (hlive : (s.stage p.submission).isLive = true) : s.occupant p.slot = p.submission := by
  rw [hslot]
  exact occupies_of_live hl hlive

/-- An item that the clients have is in its slot. -/
lemma posted_of_held (hl : Handoff.Inv s.ledger) {p : ItemPtr} (hp : p ∈ s.held) :
    s.slots p.slot = s.record p.submission ∧ s.Posted p.submission := by
  obtain ⟨hslot, -, -, hreturned⟩ := hl.held p hp
  exact ⟨congrArg s.slots hslot, (hl.returned _ hreturned).1,
    occupies_of_live hl (hl.live_of_held hp)⟩

/-- It has no callback. -/
lemma callback_of_held (h : OwnInv cfg s) (hl : Handoff.Inv s.ledger) {p : ItemPtr}
    (hp : p ∈ s.held) : (s.slots p.slot).callback = none := by
  obtain ⟨hrec, hposted⟩ := posted_of_held hl hp
  have hagents : (s.tickets p.submission).call.withCallback.isSome = false := (hl.held p hp).2.1
  rw [hrec, (h.records _ hposted).1, ← Option.not_isSome_iff_eq_none, State.plan,
    Call.callback_isSome, hagents]
  exact Bool.false_ne_true

/-- What `WorkItemCompleted` and `WaitForWorkItem` read tells the truth about an item that the
clients have. -/
lemma completed_of_report (h : OwnInv cfg s) (hl : Handoff.Inv s.ledger) {p : ItemPtr}
    (hshows : ((s.slots p.slot).callback.isSome || (s.slots p.slot).completed) = true)
    (hp : p ∈ s.held) : s.stage p.submission = .completed := by
  obtain ⟨hrec, hposted⟩ := posted_of_held hl hp
  obtain ⟨-, hagents, hreleased, -⟩ := hl.held p hp
  rw [h.callback_of_held hl hp, hrec, (h.records _ hposted).2] at hshows
  cases hst : s.stage p.submission with
  | completed => rfl
  | released => exact absurd hst hreleased
  | called =>
    rw [(hl.called _ hst).1] at hagents
    cases hagents
  | _ =>
    rw [hst] at hshows
    cases hshows

/-- The functions that clients call. -/
lemma agent_moves (h : OwnInv cfg s) (hl : Handoff.Inv s.ledger)
    (hs : agentStep cfg s a = some s') : ReflGen Step s.ledger s'.ledger := by
  have hbuilds := h.agents a
  have hrole {pc : AgentPc} (hpc : s.agents a = pc) : s.ledger.role a = pc.role :=
    congrArg AgentPc.role hpc
  cases agentMove hs with
  | takes c i pool hpc halloc =>
    have hspec := PoolAllocator.alloc_eq_some (p := s.pool) (i := i) (by rw [halloc])
    rw [halloc] at hspec
    have hfree : pool.isFree = Function.update s.pool.isFree i false := by
      funext j
      rw [hspec.2.2, Function.update_apply]
      by_cases hj : j = i <;> simp [hj]
    refine .single ?_
    simp only [State.ledger, hfree, Function.comp_update]
    exact Step.take (l := s.ledger) a i c.withCallback.isSome (hrole hpc) hspec.1
  | pushes c p hpc hdone =>
    have hcontents : (s.ring.push (some p)).ring.contents = s.ring.contents ++ [some p] :=
      RingBuffer.contents_push h.ring (by simpa [RingBuffer.push_done] using hdone) _
    have hnext : (if (s.ring.push (some p)).notify then AgentPc.notify c p
        else .late c p (c.plan cfg.contextAlloc).late).role = .posted p := by
      split <;> rfl
    refine .single ?_
    simp only [State.ledger, Function.comp_update, hcontents, List.filterMap_append, hnext]
    exact Step.post (l := s.ledger) a p (hrole hpc)
  | returns c p hpc =>
    rw [hpc] at hbuilds
    have hcallback : s.ledger.byWorker p.submission = c.withCallback.isSome := by
      show (s.tickets p.submission).hasCallback = _
      rw [hbuilds.1]
      rfl
    -- only the functions without a callback return the item
    have hheld : (if (c.plan cfg.contextAlloc).returnsItem then p :: s.held else s.held) =
        if s.ledger.byWorker p.submission then s.held else p :: s.held := by
      rw [hcallback, Call.returnsItem_eq]
      cases c.withCallback <;> rfl
    refine .single ?_
    simp only [State.ledger, Function.comp_update, hheld]
    exact Step.ret (l := s.ledger) a p (hrole hpc)
  | told p hpc hcompleted =>
    refine .single ?_
    simp only [State.ledger, Function.comp_update]
    exact Step.tell (l := s.ledger) a p (Or.inl (hrole hpc))
      (h.completed_of_report hl (by rw [hcompleted, Bool.or_true]))
  | refused c hpc =>
    have hlog : (if (c.plan cfg.contextAlloc).callback.isSome then
        Event.errorCallback a c :: s.log else s.log).filterMap Event.entry =
        s.log.filterMap Event.entry := by
      split <;> rfl
    simp only [State.ledger, hlog]
    exact stay_agent _ (by rw [hpc]; rfl)
  | notifiesOne c p hpc =>
    simp only [State.ledger, ProcPc.hand_wake]
    exact stay_agent _ (by rw [hpc]; rfl)
  | _ => exact stay_agent _ (by rw [‹s.agents a = _›]; rfl)

/-- `_workItemPool.free` by the party that has to give the slot back. -/
lemma ledger_releaseStep (h : OwnInv cfg s) (hl : Handoff.Inv s.ledger) {p : ItemPtr}
    (by_ : Releaser) (hslot : p.slot = (s.tickets p.submission).slot)
    (hlive : (s.stage p.submission).isLive = true)
    (hby : (by_ == .processing) = (s.tickets p.submission).hasCallback) :
    (releaseStep s p by_).ledger = s.ledger.giveBack p := by
  have hocc := occupant_of_live hl hslot hlive
  have hlt : p.slot < s.pool.capacity := by
    rw [hslot]
    refine h.slot_lt _ fun hst => ?_
    rw [hst] at hlive
    cases hlive
  have hfree : (s.pool.free (s.pool.address p.slot)).isFree =
      Function.update s.pool.isFree p.slot true := by
    funext j
    rw [PoolAllocator.isFree_free h.pool hlt, Function.update_apply]
    by_cases hj : j = p.slot <;> simp [hj]
  simp only [releaseStep, State.ledger, Handoff.Ledger.giveBack, hfree, hocc,
    List.filterMap_cons, Event.entry, hby, Function.comp_apply]

/-- Client code. -/
lemma client_moves (h : OwnInv cfg s) (hl : Handoff.Inv s.ledger) {act : ClientAct}
    (hidle : s.agents a = .idle) (hs : clientStep s a act = some s') :
    ReflGen Step s.ledger s'.ledger := by
  have hrole : s.ledger.role a = .none := by
    show (s.agents a).role = _
    rw [hidle]
    rfl
  cases clientMove hs with
  | submits c => exact stay_agent _ (by rw [hidle]; rfl)
  | isTold p hheld hshows =>
    have htell := Step.tell (l := s.ledger) a p (Or.inr ⟨hrole, hheld⟩)
      (h.completed_of_report hl hshows)
    rw [← hrole, Function.update_eq_self] at htell
    exact .single htell
  | isNotTold p => exact .refl
  | waits p hheld =>
    refine .single ?_
    simp only [State.ledger, Function.comp_update]
    exact Step.ask (l := s.ledger) a p hrole hheld
  | frees p | freesNull p => exact stay_agent _ (congrArg AgentPc.role hidle).symm
  | waitsNot p hheld hcallback | forgets p hheld _ hcallback =>
    rw [h.callback_of_held hl hheld] at hcallback
    cases hcallback
  | releases p hheld hreported =>
    obtain ⟨hslot, hagents, -⟩ := hl.held p hheld
    have hrelease := Step.agentRelease (l := s.ledger) p hheld hreported
    rw [← h.ledger_releaseStep hl .client hslot (hl.live_of_held hheld)
      hagents.symm] at hrelease
    exact .single hrelease

/-- The execution of an item. -/
lemma exec_moves {p : ItemPtr} {e : ExecPc D W} (hpc : s.proc = .exec p e)
    (hs : execStep s p e = some s') : ReflGen Step s.ledger s'.ledger := by
  have hf := execStep_frame hs
  have hlog : s'.log.filterMap Event.entry = s.log.filterMap Event.entry := by
    cases execMove hs <;> rfl
  have hsame : s'.ledger = { s.ledger with hand := s'.proc.hand } := by
    simp only [State.ledger, hf.pool, hf.occupant, hf.nextSubmission, hf.tickets, hf.stage,
      hf.ring, hf.agents, hf.held, hf.reported, hf.returned, hlog]
  rw [hsame]
  rcases execStep_proc hs with hp | hp | ⟨e', hp⟩ <;> rw [hp]
  · exact stay_proc _ (by rw [hpc]; rfl)
  · exact .single .die
  · exact stay_proc _ (by rw [hpc]; rfl)

/-- A field of an item that is in its slot says whose the item is. -/
lemma callback_byWorker (h : OwnInv cfg s) {p : ItemPtr}
    (hslot : p.slot = (s.tickets p.submission).slot)
    (hposted : (s.stage p.submission).isPosted = true)
    (hocc : s.occupant p.slot = p.submission) :
    (s.slots p.slot).callback.isSome = s.ledger.byWorker p.submission := by
  have hrecord : s.slots p.slot = s.record p.submission := congrArg s.slots hslot
  have hown : s.Occupies p.submission := by rwa [State.Occupies, ← hslot]
  rw [hrecord, (h.records _ ⟨hposted, hown⟩).1, State.plan, Call.callback_isSome]
  rfl

/-- The processing thread. -/
lemma proc_moves (h : OwnInv cfg s) (hl : Handoff.Inv s.ledger) (hok : TestsOwn s .proc)
    (hs : procStep s = some s') : ReflGen Step s.ledger s'.ledger := by
  have hhand {pc : ProcPc D W} (hpc : s.proc = pc) : s.ledger.hand = pc.hand :=
    congrArg ProcPc.hand hpc
  cases procMove hs with
  | executes p e hpc hs => exact exec_moves hpc hs
  | fetches p ring hpc hpop =>
    refine .single (Step.fetch (l := s.ledger) p (ring.contents.filterMap id) (hhand hpc) ?_)
    show s.ring.contents.filterMap id = _
    rw [RingBuffer.contents_of_pop_some h.ring hpop]
    rfl
  | findsEmpty ring hpc hpop =>
    have hqueue : ring.contents.filterMap id = s.ring.contents.filterMap id := by
      rcases RingBuffer.contents_of_pop_none h.ring hpop with hc | hc <;> rw [hc]
      rfl
    simp only [State.ledger, hqueue]
    exact stay_proc .semTest (by rw [hpc]; rfl)
  | completes p hpc => exact .single (Step.finish (l := s.ledger) p (hhand hpc))
  | keeps p hpc hcallback =>
    obtain ⟨hslot, hstage⟩ := fits_of_hand hl (hhand hpc)
    have hposted : (s.stage p.submission).isPosted = true := by
      rcases hstage with hst | ⟨hst, -⟩ <;> rw [show s.stage p.submission = _ from hst] <;> rfl
    have hocc : s.occupant p.slot = p.submission :=
      (hok rfl p (by rw [hpc]; rfl)).resolve_right fun hnone => by simp [hnone] at hcallback
    refine .single (Step.keep (l := s.ledger) p (hhand hpc) ?_)
    rw [← h.callback_byWorker hslot hposted hocc, hcallback]
  | leaves p hpc hcallback =>
    obtain ⟨hslot, hstage⟩ := fits_of_hand hl (hhand hpc)
    refine .single (Step.leave (l := s.ledger) p (hhand hpc) ?_)
    rcases hstage with hst | ⟨-, hagents⟩
    · have hst : s.stage p.submission = .completed := hst
      have hocc := occupant_of_live hl hslot (by rw [hst]; rfl)
      rw [← h.callback_byWorker hslot (by rw [hst]; rfl) hocc, hcallback]
      rfl
    · exact hagents
  | invokes p hpc =>
    obtain ⟨hslot, hstage, -⟩ := fits_of_hand hl (hhand hpc)
    have hst : s.stage p.submission = .completed := hstage
    have hocc := occupant_of_live hl hslot (by rw [hst]; rfl)
    refine .single ?_
    simp only [State.ledger, hocc]
    exact Step.call (l := s.ledger) p (hhand hpc)
  | invokesNull | freesNull => exact .single .die
  | releases p hpc =>
    obtain ⟨hslot, hstage⟩ := fits_of_hand hl (hhand hpc)
    have hst : s.stage p.submission = .called := hstage
    have hrelease := Step.workerRelease (l := s.ledger) p (hhand hpc)
    rw [← h.ledger_releaseStep hl .processing hslot (by rw [hst]; rfl)
      (hl.called _ hstage).1.symm] at hrelease
    exact .single hrelease
  | notifies hpc =>
    have hroles : AgentPc.role ∘ (fun a => (s.agents a).wake) = AgentPc.role ∘ s.agents :=
      funext fun a => AgentPc.role_wake _
    simp only [State.ledger, hroles]
    exact stay_proc .top (by rw [hpc]; rfl)
  | _ => exact stay_proc _ (by rw [‹s.proc = _›]; rfl)

/-- The control thread gets nobody's slot. -/
lemma control_moves (hctl : ControlInv s) (hs : controlStep cfg s = some s') :
    ReflGen Step s.ledger s'.ledger := by
  obtain ⟨hf, -⟩ := controlStep_frame hs
  have hlog : s'.log.filterMap Event.entry = s.log.filterMap Event.entry := by
    cases controlMove hs <;> rfl
  have hsame : s'.ledger = { s.ledger with hand := s'.proc.hand } := by
    simp only [State.ledger, hf.pool, hf.occupant, hf.nextSubmission, hf.tickets, hf.stage,
      hf.ring, hf.agents, hf.held, hf.reported, hf.returned, hlog]
  rw [hsame]
  refine stay_proc _ ?_
  cases controlMove hs with
  | notifiesOne => exact ProcPc.hand_wake _
  | starts hpc =>
    -- the thread that starts anew has nothing in its hand, as had the one that has left
    rw [hctl.exited_of_start hpc]
    rfl
  | _ => rfl

/-- **Refinement, step by step.**  Every step that tests the right `_callback` is a move of the
ledger, or leaves the ledger alone. -/
theorem moves {act : Action} (h : OwnInv cfg s) (hl : Handoff.Inv s.ledger)
    (hctl : ControlInv s) (hok : TestsOwn s act) (hs : step cfg s act = some s') :
    ReflGen Step s.ledger s'.ledger := by
  cases stepBy hs with
  | client a act hidle hs => exact h.client_moves hl hidle hs
  | agent a hs => exact h.agent_moves hl hs
  | proc hs => exact h.proc_moves hl hok hs
  | callbackReturns p hpc _ => exact stay_proc (.testAction p) (by rw [hpc]; rfl)
  | controlAct act _ hs =>
    cases controlActMove hs <;> exact .refl
  | control hs => exact control_moves hctl hs
  | wakeProc => exact stay_proc _ (ProcPc.hand_wake _)
  | wakeAgent a => exact stay_agent _ (AgentPc.role_wake _)

end OwnInv

end Moves

end LaminaFS
