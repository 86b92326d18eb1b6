/-
# Callbacks are called once

While clients submit with callbacks only, and the callbacks submit nothing, the slots are the
processing thread's: a submission that has been given a slot is pushed, executed, called back and
released, and one that has found none is called back at once.
-/
import LaminaFS.Context.Capacity
import LaminaFS.Context.Order
import LaminaFS.Context.Tickets

namespace LaminaFS

open Transition

variable {D W : Type} {cfg : Config D W} {s s' : State D W} {a : Agent} {c : Call} {g : ℕ}
  {act : Action}

/-! ### The runs -/

/-- The call has a callback, and the buffer is not to be freed. -/
def Call.CallsBack (c : Call) : Prop :=
  ∃ cb ∈ c.withCallback, cb.bufferAction = .doNotFreeBuffer

instance (c : Call) : Decidable c.CallsBack :=
  match h : c.withCallback with
  | none => .isFalse (by simp [Call.CallsBack, h])
  | some cb => decidable_of_iff (cb.bufferAction = .doNotFreeBuffer) (by simp [Call.CallsBack, h])

/-- The processing thread is about to call a device function that the interface has not got. -/
def State.callsNull (s : State D W) : Bool :=
  match s.proc with
  | .exec p (.callMutable m mode mount devicePath) =>
    (callMutable m mode mount devicePath (s.slots p.slot) s.world).nullFunction
  | _ => false

/-- Clients submit with callbacks only, the code in callbacks submits nothing, and the device
functions return. -/
def CallbacksOnly (s : State D W) : Action → Prop
  | .client a (.submit c) => a ≠ .callback ∧ c.CallsBack
  | .proc => s.callsNull = false
  | _ => True

instance (s : State D W) : DecidablePred (CallbacksOnly s) := fun act =>
  match act with
  | .client _ (.submit _) => inferInstanceAs (Decidable (_ ∧ _))
  | .proc => inferInstanceAs (Decidable (_ = _))
  | .client _ (.check _) | .client _ (.wait _) | .client _ (.freeBuffer _)
  | .client _ (.release _) | .agent _ | .callbackReturns | .controlAct _ | .control | .wakeProc
  | .wakeAgent _ => inferInstanceAs (Decidable True)

namespace Call

lemma CallsBack.isSome (h : c.CallsBack) : c.withCallback.isSome = true := by
  obtain ⟨cb, hcb, -⟩ := h
  rw [hcb]
  rfl

lemma CallsBack.built_action (h : c.CallsBack) (contextAlloc : Allocator) :
    (c.plan contextAlloc).built.callbackBufferAction = .doNotFreeBuffer := by
  obtain ⟨cb, hcb, haction⟩ := h
  rw [built_eq]
  obtain ⟨verb, path, callback⟩ := c
  cases hcb
  cases verb <;> first | rfl | exact haction

end Call

/-! ### What a step does to calls and tickets -/

/-- The execution of an item leaves its buffer action alone. -/
lemma execStep_action {p : ItemPtr} {e : ExecPc D W} (hs : execStep s p e = some s') :
    (s'.slots p.slot).callbackBufferAction = (s.slots p.slot).callbackBufferAction := by
  have hwrites {item : WorkItem} (hslots : s'.slots = Function.update s.slots p.slot item)
      (h : item.callbackBufferAction = (s.slots p.slot).callbackBufferAction) :
      (s'.slots p.slot).callbackBufferAction = (s.slots p.slot).callbackBufferAction := by
    rw [hslots, Function.update_self, h]
  cases execMove hs with
  | dispatchesLookup item _ hd | dispatchesMutation item _ hd =>
    have hkept : (s.slots p.slot).dispatch.1.callbackBufferAction =
        (s.slots p.slot).callbackBufferAction := by
      unfold WorkItem.dispatch
      split <;> rfl
    rw [hd] at hkept
    exact hwrites rfl hkept
  | callsLookup l mount devicePath r hr =>
    subst hr
    refine hwrites rfl ?_
    cases l <;> rfl
  | callsMutable m mode mount devicePath r hr =>
    subst hr
    refine hwrites rfl ?_
    cases m <;> simp only [callMutable, callPath] <;> split <;> rfl
  | unlocksNone m =>
    refine hwrites rfl ?_
    cases m <;> rfl
  | _ => rfl

/-- The only function that is null is that of the device. -/
lemma execStep_crashed {p : ItemPtr} {e : ExecPc D W} (hpc : s.proc = .exec p e)
    (hs : execStep s p e = some s') (hnull : s.callsNull = false) : s'.proc ≠ .crashed := by
  cases execMove hs with
  | callsMutable m mode mount devicePath r hr =>
    have hcall : r.nullFunction = false := by
      rw [State.callsNull, hpc] at hnull
      exact hr ▸ hnull
    dsimp only
    rw [hcall]
    simp
  | callsLookup =>
    dsimp only
    split <;> simp
  | _ => simp

/-- What holds of the calls that agents ask a slot for holds of the calls of all submissions. -/
lemma calls_step {P : Call → Prop} (hk : Accounted cfg s) (hk' : Accounted cfg s')
    (hs : step cfg s act = some s')
    (htickets : ∀ g, s.stage g ≠ .unborn → P (s.tickets g).call)
    (hasks : ∀ a c, (s.agents a).asksForSlot = some c → P c) (hborn' : s'.stage g ≠ .unborn) :
    P (s'.tickets g).call := by
  by_cases hborn : s.stage g = .unborn
  · have hge : s.nextSubmission ≤ g := (hk.ledger.born g).mp hborn
    have hlt : g < s'.nextSubmission := by
      by_contra hge'
      exact hborn' ((hk'.ledger.born g).mpr (Nat.le_of_not_lt hge'))
    rcases step_next hs with ⟨hnext, -⟩ | ⟨a, c, i, hasked, hnext, hticket⟩
    · omega
    · have hg : g = s.nextSubmission := by omega
      rw [hticket, hg, Function.update_self]
      exact hasks a c hasked
  · rw [OwnInv.step_tickets hk.ledger hs hborn]
    exact htickets g hborn

/-! ### The invariant -/

/-- All calls have callbacks, no buffer is to be freed, and the processing thread is alive. -/
structure CallbackInv (s : State D W) : Prop where
  tickets : ∀ g, s.stage g ≠ .unborn → (s.tickets g).call.CallsBack
  asks : ∀ a c, (s.agents a).asksForSlot = some c → c.CallsBack
  action : ∀ g, s.Posted g → (s.record g).callbackBufferAction = .doNotFreeBuffer
  alive : s.proc ≠ .crashed ∧ ∀ p, s.proc ≠ .freeBuffer p

namespace CallbackInv

/-- The slots are the processing thread's. -/
lemma byWorker (h : CallbackInv s) (hborn : s.ledger.stage g ≠ .unborn) :
    s.ledger.byWorker g = true :=
  (h.tickets g hborn).isSome

/-- The item that has been executed is complete, as nobody else gives its slot back. -/
lemma completed_of_finished (h : CallbackInv s) (hk : Accounted cfg s) {p : ItemPtr}
    (hhand : s.proc.hand = .finished p) :
    p.slot = (s.tickets p.submission).slot ∧ s.stage p.submission = .completed := by
  obtain ⟨hslot, hst | ⟨hst, hagents⟩⟩ := fits_of_hand hk.ledger hhand
  · exact ⟨hslot, hst⟩
  · rw [h.byWorker (by rw [hst]; simp)] at hagents
    cases hagents

/-- The processing thread tests the `_callback` of the item that it has executed. -/
lemma testsOwn (h : CallbackInv s) (hk : Accounted cfg s) : TestsOwn s act :=
  testsOwn_of_completed hk fun p hp =>
    (h.completed_of_finished hk (by rw [(tested_item hp).1]; rfl)).2

lemma step_action (h : CallbackInv s) (hk : Accounted cfg s)
    (hs : LaminaFS.step cfg s act = some s') (hposted' : s'.Posted g) :
    (s'.record g).callbackBufferAction = .doNotFreeBuffer := by
  cases hk.own.record_step hk.ledger hs hposted'.ne_unborn hposted'.2 with
  | taken _ hstage | filled _ hstage => exact absurd hstage hposted'.ne_building
  | posted _ hbuilding _ hrecord _ =>
    rw [hrecord]
    exact (h.tickets g (by rw [hbuilding]; simp)).built_action _
  | same _ hocc hposted _ hrecord =>
    rw [hrecord]
    exact h.action g ⟨hposted ▸ hposted'.1, hocc⟩
  | late hposted _ _ _ hrecord | completed hposted _ hrecord =>
    rw [hrecord]
    exact h.action g hposted
  | freed hposted _ _ hrecord =>
    rw [hrecord, ← h.action g hposted]
    unfold WorkItem.freeBuffer
    split <;> rfl
  | executing p e _ hp hslot hpc hstage hexec =>
    have hposted : s.Posted g :=
      ⟨by rw [hstage]; rfl, OwnInv.occupies_of_live hk.ledger (by rw [hstage]; rfl)⟩
    have haction := h.action g hposted
    rw [State.record, ← hslot] at haction
    rw [State.record, (execStep_frame hexec).tickets, ← hslot, execStep_action hexec, haction]

/-- The item whose callback is called, or has been. -/
lemma posted_of_hand (hk : Accounted cfg s) {p : ItemPtr}
    (hhand : s.proc.hand = .calling p ∨ s.proc.hand = .after p) :
    s.slots p.slot = s.record p.submission ∧ s.Posted p.submission := by
  have hplace : p.slot = (s.tickets p.submission).slot ∧
      (s.stage p.submission = .completed ∨ s.stage p.submission = .called) := by
    rcases hhand with hhand | hhand
    · obtain ⟨hslot, hst, -⟩ := fits_of_hand hk.ledger hhand
      exact ⟨hslot, Or.inl hst⟩
    · obtain ⟨hslot, hst⟩ := fits_of_hand hk.ledger hhand
      exact ⟨hslot, Or.inr hst⟩
  refine ⟨congrArg s.slots hplace.1, ?_, ?_⟩
  · rcases hplace.2 with hst | hst <;> rw [hst] <;> rfl
  · exact OwnInv.occupies_of_live hk.ledger (by rcases hplace.2 with hst | hst <;> rw [hst] <;> rfl)

lemma proc_alive (h : CallbackInv s) (hk : Accounted cfg s) (hnull : s.callsNull = false)
    (hs : procStep s = some s') : s'.proc ≠ .crashed ∧ ∀ p, s'.proc ≠ .freeBuffer p := by
  cases procMove hs with
  | executes p e hpc hs =>
    refine ⟨execStep_crashed hpc hs hnull, fun q hq => ?_⟩
    rcases execStep_proc hs with hp | hp | ⟨e', hp⟩ <;> rw [hp] at hq <;> cases hq
  | invokesNull p hpc hcallback =>
    -- the item still shows the callback of its call
    obtain ⟨hrec, hposted⟩ := posted_of_hand hk (p := p) (Or.inl (by rw [hpc]; rfl))
    have hshows : (s.slots p.slot).callback.isSome = true := by
      rw [hrec, (hk.own.records _ hposted).1, State.plan, Call.callback_isSome]
      exact h.byWorker hposted.ne_unborn
    rw [hcallback] at hshows
    cases hshows
  | mayFree p hpc haction =>
    obtain ⟨hrec, hposted⟩ := posted_of_hand hk (p := p) (Or.inr (by rw [hpc]; rfl))
    rw [hrec, h.action _ hposted] at haction
    cases haction
  | freesNull p hpc => exact absurd hpc (h.alive.2 p)
  | _ => simp

lemma step_alive (h : CallbackInv s) (hk : Accounted cfg s) (hok : CallbacksOnly s act)
    (hs : LaminaFS.step cfg s act = some s') :
    s'.proc ≠ .crashed ∧ ∀ p, s'.proc ≠ .freeBuffer p := by
  by_cases hact : act = .proc
  · subst hact
    exact h.proc_alive hk hok hs
  · rcases step_proc hs hact with hp | hp | ⟨-, hp⟩ | ⟨q, -, -, hp⟩ <;> rw [hp]
    · exact h.alive
    · obtain ⟨hcrashed, hfree⟩ := h.alive
      cases hpc : s.proc <;> first
        | exact absurd hpc hcrashed
        | exact absurd hpc (hfree _)
        | simp [ProcPc.wake]
    · simp
    · simp

/-- **The step lemma.** -/
lemma step (h : CallbackInv s) (hk : Accounted cfg s) (hok : CallbacksOnly s act)
    (hs : LaminaFS.step cfg s act = some s') : CallbackInv s' := by
  refine ⟨fun _ => calls_step hk (hk.step (h.testsOwn hk) hs) hs h.tickets h.asks,
    fun a c hasks => ?_,
    fun g => h.step_action hk hs, h.step_alive hk hok hs⟩
  rcases asks_step hs hasks with hold | hact
  · exact h.asks a c hold
  · subst hact
    exact hok.2

end CallbackInv

end LaminaFS
