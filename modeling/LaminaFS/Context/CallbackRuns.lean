/-
# What a callback is told, and when

A callback that the processing thread calls is given the result that the execution of its item
has left.  A callback that the submission calls itself is told that there is no slot, and there
is none.  In between, the slots that are taken are those of the items being submitted, queued or
processed, and so, when nothing is going on, every callback has been called.
-/
import LaminaFS.Context.Callbacks

namespace LaminaFS

open Transition

variable {D W : Type} {cfg : Config D W} {s s' s₀ : State D W} {a : Agent} {c : Call} {g : ℕ}
  {code : ErrorCode} {act : Action} {ok : State D W → Action → Prop}

/-! ### What is recorded of callbacks -/

/-- The processing thread calls a callback with the result code in the item. -/
lemma invoked_step (hs : step cfg s act = some s') (hev : .invoked g code ∈ s'.log) :
    .invoked g code ∈ s.log ∨ ∃ p, act = .proc ∧ s.proc = .invoke p ∧ s.occupant p.slot = g ∧
      (s.slots p.slot).resultCode = code := by
  rcases step_event hs with hlog | ⟨ev, hlog, hrecords⟩ <;> rw [hlog] at hev
  · exact Or.inl hev
  · rcases List.mem_cons.mp hev with rfl | hev
    · cases hrecords with
      | invoked p hpc => exact Or.inr ⟨p, rfl, hpc, rfl, rfl⟩
    · exact Or.inl hev

/-- An agent that has found no slot calls the callback. -/
lemma errorCallback_step (hs : step cfg s act = some s') (hev : .errorCallback a c ∈ s'.log) :
    .errorCallback a c ∈ s.log ∨ s.agents a = .failed c := by
  rcases step_event hs with hlog | ⟨ev, hlog, hrecords⟩ <;> rw [hlog] at hev
  · exact Or.inl hev
  · rcases List.mem_cons.mp hev with rfl | hev
    · cases hrecords with
      | errorCallback _ _ hpc => exact Or.inr hpc
    · exact Or.inl hev

/-- A call of the callback of the submission by the processing thread. -/
def Event.invokes (g : ℕ) : Event → Bool
  | .invoked g' _ => g' == g
  | _ => false

/-- The calls of the callback of the submission by the processing thread. -/
def State.calls (s : State D W) (g : ℕ) : ℕ := s.log.countP (Event.invokes g)

lemma calls_eq_ledger : s.calls g = s.ledger.log.count (.called g) := by
  show s.log.countP _ = (s.log.filterMap Event.entry).count _
  induction s.log with
  | nil => rfl
  | cons ev log ih =>
    rw [List.countP_cons, ih]
    cases ev with
    | invoked g' code | executed g' | released g' by_ =>
      rw [List.filterMap_cons, Event.entry, List.count_cons]
      simp [Event.invokes]
    | _ =>
      rw [List.filterMap_cons_none rfl]
      simp [Event.invokes]

/-! ### The result of an operation -/

/-- On the way to the state the processing thread has executed the operation of the submission.
Its last step of that, from `t` to `t'`, has left the code as the result, and the callback had
not been called. -/
def State.Resulted (s : State D W) (cfg : Config D W) (ok : State D W → Action → Prop)
    (s₀ : State D W) (g : ℕ) (code : ErrorCode) : Prop :=
  ∃ t t' p e, Reach (step cfg) ok s₀ t ∧ t.proc = .exec p e ∧ p.submission = g ∧
    execStep t p e = some t' ∧ t'.proc = .complete p ∧ (t'.slots p.slot).resultCode = code ∧
    t'.calls g = 0 ∧ Reach (step cfg) ok t' s

lemma Resulted.trans (h : s.Resulted cfg ok s₀ g code) (hr : Reach (step cfg) ok s s') :
    s'.Resulted cfg ok s₀ g code := by
  obtain ⟨t, t', p, e, h₀, hpc, hp, hexec, hpc', hcode, hcalls, h₁⟩ := h
  exact ⟨t, t', p, e, h₀, hpc, hp, hexec, hpc', hcode, hcalls, h₁.trans hr⟩

/-- The item that has been executed, and whose callback has not been called. -/
def ProcPc.finished : ProcPc D W → Option ItemPtr
  | .complete p | .testCallback p | .invoke p => some p
  | _ => none

@[simp] lemma ProcPc.finished_wake (pc : ProcPc D W) : pc.wake.finished = pc.finished := by
  cases pc <;> rfl

lemma not_exec_of_finished {p : ItemPtr} (hp : p ∈ s.proc.finished) (q : ItemPtr)
    (e : ExecPc D W) : s.proc ≠ .exec q e := by
  intro hpc
  rw [hpc] at hp
  cases hp

lemma comesToFinish {p : ItemPtr} (hs : step cfg s act = some s') (hp' : p ∈ s'.proc.finished) :
    (∃ e, act = .proc ∧ s.proc = .exec p e ∧ execStep s p e = some s' ∧ s'.proc = .complete p) ∨
      p ∈ s.proc.finished := by
  by_cases hact : act = .proc
  · subst hact
    cases procMove (show procStep s = some s' from hs) with
    | executes q e hpc hs =>
      rcases execStep_proc hs with hpc' | hpc' | ⟨e', hpc'⟩ <;> rw [hpc'] at hp' <;> cases hp'
      exact Or.inl ⟨e, rfl, hpc, hs, hpc'⟩
    | completes q hpc | keeps q hpc =>
      cases hp'
      exact Or.inr (by rw [hpc]; rfl)
    | _ => cases hp'
  · refine Or.inr ?_
    rcases step_proc hs hact with hpc | hpc | ⟨-, hpc⟩ | ⟨q, -, -, hpc⟩ <;> rw [hpc] at hp'
    · exact hp'
    · rwa [ProcPc.finished_wake] at hp'
    · cases hp'
    · cases hp'

/-- The result code of an item stays when it is not executed. -/
lemma result_kept (hk : Accounted cfg s) (hk' : Accounted cfg s') (hs : step cfg s act = some s')
    {p : ItemPtr} (hslot : p.slot = (s.tickets p.submission).slot)
    (hposted : (s.stage p.submission).isPosted = true)
    (hposted' : (s'.stage p.submission).isPosted = true)
    (hlive' : (s'.stage p.submission).isLive = true) (hexec : ∀ q e, s.proc ≠ .exec q e) :
    (s'.slots p.slot).resultCode = (s.slots p.slot).resultCode := by
  have hborn : s.stage p.submission ≠ .unborn := fun h => by
    rw [h] at hposted
    cases hposted
  have hborn' : s'.stage p.submission ≠ .unborn := fun h => by
    rw [h] at hlive'
    cases hlive'
  have hrecord : (s'.record p.submission).resultCode = (s.record p.submission).resultCode := by
    cases hk.own.record_step hk.ledger hs hborn' (OwnInv.occupies_of_live hk'.ledger hlive') with
    | same _ _ _ _ hrecord | late _ _ _ _ hrecord | completed _ _ hrecord => rw [hrecord]
    | freed _ _ _ hrecord =>
      rw [hrecord]
      unfold WorkItem.freeBuffer
      split <;> rfl
    | filled _ hstage =>
      rw [hstage] at hposted'
      cases hposted'
    | taken h _ => exact absurd h hborn
    | posted _ h _ _ _ =>
      rw [h] at hposted
      cases hposted
    | executing q e _ _ _ hpc _ _ => exact absurd hpc (hexec q e)
  rwa [State.record, State.record, OwnInv.step_tickets hk.ledger hs hborn, ← hslot] at hrecord

/-- The results of the callbacks that have been called, and of the one that may be next. -/
structure ResultInv (cfg : Config D W) (ok : State D W → Action → Prop) (s₀ s : State D W) :
    Prop where
  called : ∀ g code, .invoked g code ∈ s.log → s.Resulted cfg ok s₀ g code
  due : ∀ p ∈ s.proc.finished, s.Resulted cfg ok s₀ p.submission (s.slots p.slot).resultCode

namespace ResultInv

lemma stage_of_finished (hk : Accounted cfg s) (hi : CallbackInv s) {p : ItemPtr}
    (hp : p ∈ s.proc.finished) : p.slot = (s.tickets p.submission).slot ∧
      (s.stage p.submission = .executing ∨ s.stage p.submission = .completed) := by
  cases hpc : s.proc <;> rw [hpc] at hp <;> cases hp
  case complete =>
    obtain ⟨hslot, hst⟩ := fits_of_hand hk.ledger (show s.proc.hand = .working p by rw [hpc]; rfl)
    exact ⟨hslot, Or.inl hst⟩
  case testCallback =>
    obtain ⟨hslot, hst⟩ := hi.completed_of_finished hk
      (show s.proc.hand = .finished p by rw [hpc]; rfl)
    exact ⟨hslot, Or.inr hst⟩
  case invoke =>
    obtain ⟨hslot, hst, -⟩ := fits_of_hand hk.ledger
      (show s.proc.hand = .calling p by rw [hpc]; rfl)
    exact ⟨hslot, Or.inr hst⟩

lemma step_due (h : ResultInv cfg ok s₀ s) (hr : Reach (LaminaFS.step cfg) ok s₀ s)
    (hok : ok s act) (hk : Accounted cfg s) (hk' : Accounted cfg s') (hi : CallbackInv s)
    (hi' : CallbackInv s') (hs : LaminaFS.step cfg s act = some s') {p : ItemPtr}
    (hp' : p ∈ s'.proc.finished) :
    s'.Resulted cfg ok s₀ p.submission (s'.slots p.slot).resultCode := by
  obtain ⟨-, hst'⟩ := stage_of_finished hk' hi' hp'
  rcases comesToFinish hs hp' with ⟨e, -, hpc, hexec, hpc'⟩ | hp
  · -- the execution ends in this step
    refine ⟨s, s', p, e, hr, hpc, rfl, hexec, hpc', rfl, ?_, .refl⟩
    rw [calls_eq_ledger, hk'.ledger.calls, if_neg]
    show ¬(s'.stage p.submission = .called ∨ _)
    rcases hst' with hst' | hst' <;> simp [State.ledger, hst']
  · obtain ⟨hslot, hst⟩ := stage_of_finished hk hi hp
    have hcode := result_kept hk hk' hs hslot (by rcases hst with hst | hst <;> rw [hst] <;> rfl)
      (by rcases hst' with hst' | hst' <;> rw [hst'] <;> rfl)
      (by rcases hst' with hst' | hst' <;> rw [hst'] <;> rfl) (not_exec_of_finished hp)
    rw [hcode]
    exact Resulted.trans (h.due p hp) (.tail .refl hok hs)

/-- **The step lemma.** -/
lemma step (h : ResultInv cfg ok s₀ s) (hr : Reach (LaminaFS.step cfg) ok s₀ s) (hok : ok s act)
    (hk : Accounted cfg s) (hk' : Accounted cfg s') (hi : CallbackInv s) (hi' : CallbackInv s')
    (hs : LaminaFS.step cfg s act = some s') : ResultInv cfg ok s₀ s' := by
  refine ⟨fun g code hev => ?_, fun p => h.step_due hr hok hk hk' hi hi' hs⟩
  have hnext : Reach (LaminaFS.step cfg) ok s s' := .tail .refl hok hs
  rcases invoked_step hs hev with hold | ⟨p, -, hpc, hocc, hcode⟩
  · exact Resulted.trans (h.called g code hold) hnext
  · have hp : p ∈ s.proc.finished := by rw [hpc]; rfl
    obtain ⟨hslot, hst⟩ := stage_of_finished hk hi hp
    have hsub : s.occupant p.slot = p.submission :=
      OwnInv.occupant_of_live hk.ledger hslot
        (by rcases hst with hst | hst <;> rw [hst] <;> rfl)
    rw [← hocc, hsub, ← hcode]
    exact Resulted.trans (h.due p hp) hnext

end ResultInv

end LaminaFS
