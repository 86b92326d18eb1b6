/-
# What a client has read stays true

Behind its execution an item shows the answer to its request until its slot is given to another
one: the getters give the same code and the same number of bytes, and the same buffer until the
buffer has been freed.
-/
import LaminaFS.Context.Order
import LaminaFS.Context.Service

namespace LaminaFS

open Transition

variable {D W : Type} {cfg : Config D W} {s s' : State D W} {act : Action} {g : ℕ} {ans : Answer}

/-- The getters show the answer, but for a buffer that has been freed. -/
structure State.Shows (s : State D W) (g : ℕ) (ans : Answer) : Prop where
  code : WorkItemGetResult (some (s.record g)) = ans.code
  bytes : WorkItemGetBytes (some (s.record g)) = ans.bytes
  buffer : WorkItemGetBuffer (some (s.record g)) = ans.buffer ∨
    WorkItemGetBuffer (some (s.record g)) = none ∧ ∃ result, .freedBuffer g result ∈ s.log

lemma shows_answer (s : State D W) (g : ℕ) : s.Shows g (s.record g).answer :=
  ⟨rfl, rfl, Or.inl rfl⟩

/-- The record only grows. -/
lemma log_step (hs : step cfg s act = some s') {ev : Event} (h : ev ∈ s.log) : ev ∈ s'.log := by
  rcases step_event hs with hlog | ⟨ev', hlog, -⟩ <;> rw [hlog]
  · exact h
  · exact List.mem_cons_of_mem _ h

namespace State.Shows

/-- A step that leaves what the getters show. -/
lemma keep (h : s.Shows g ans) (hs : step cfg s act = some s')
    (hanswer : (s'.record g).answer = (s.record g).answer) : s'.Shows g ans := by
  obtain ⟨hcode, hbytes, hbuffer⟩ := h
  refine ⟨(congrArg Answer.code hanswer).trans hcode,
    (congrArg Answer.bytes hanswer).trans hbytes, ?_⟩
  rw [show WorkItemGetBuffer (some (s'.record g)) = WorkItemGetBuffer (some (s.record g)) from
    congrArg Answer.buffer hanswer]
  exact hbuffer.imp_right fun ⟨hnull, result, hev⟩ => ⟨hnull, result, log_step hs hev⟩

end State.Shows

lemma freeBuffer_answer (item : WorkItem) :
    item.freeBuffer.2.resultCode = item.resultCode ∧
      item.freeBuffer.2.bufferBytes = item.bufferBytes ∧
      (item.freeBuffer.2.buffer = item.buffer ∨ item.freeBuffer.2.buffer = none) := by
  unfold WorkItem.freeBuffer
  split
  · exact ⟨rfl, rfl, Or.inl rfl⟩
  · exact ⟨rfl, rfl, Or.inl rfl⟩
  · exact ⟨rfl, rfl, Or.inr rfl⟩

/-- The buffer of an item is written to its slot. -/
lemma buffer_of_write {p : ItemPtr} {item : WorkItem} (hocc : s.Occupies g)
    (htickets : s'.tickets g = s.tickets g)
    (hslots : s'.slots = Function.update s.slots p.slot item)
    (hp : s.occupant p.slot = p.submission) (hne : g ≠ p.submission) :
    (s'.record g).buffer = (s.record g).buffer := by
  rw [State.record, htickets, hslots, Function.update_of_ne (other_slot hp hocc hne), State.record]

/-- Whoever frees the buffer of a complete item is on record. -/
lemma freed_logged (hk : Accounted cfg s) (hocc : s.Occupies g)
    (hdone : (s.stage g).isDone = true) (hs : step cfg s act = some s')
    (htickets : s'.tickets g = s.tickets g) :
    (s'.record g).buffer = (s.record g).buffer ∨ ∃ result, .freedBuffer g result ∈ s'.log := by
  -- what is being built or executed is another item
  have other {g' : ℕ} (hst : (s.stage g').isDone = false) : g ≠ g' := by
    rintro rfl
    rw [hdone] at hst
    cases hst
  have frees {t : State D W} {p : ItemPtr} {result : WorkItem.FreeBuffer} {log : List Event}
      (ht : t.tickets = s.tickets)
      (hslots : t.slots = Function.update s.slots p.slot (s.slots p.slot).freeBuffer.2)
      (hlog : t.log = .freedBuffer (s.occupant p.slot) result :: log) :
      (t.record g).buffer = (s.record g).buffer ∨ ∃ result, .freedBuffer g result ∈ t.log := by
    by_cases hslot : (s.tickets g).slot = p.slot
    · refine Or.inr ⟨result, ?_⟩
      rw [hlog, ← hslot, show s.occupant (s.tickets g).slot = g from hocc]
      exact List.mem_cons_self
    · left
      rw [State.record, ht, hslots, Function.update_of_ne hslot, State.record]
  cases stepBy hs with
  | client a act _ hs =>
    cases clientMove hs with
    | frees p | freesNull p => exact frees rfl rfl rfl
    | _ => exact Or.inl rfl
  | agent a hs =>
    have hbuilds := hk.own.agents a
    cases agentMove hs with
    | constructs c p hpc | stores c p store todo hpc =>
      obtain ⟨hslot, hst, -⟩ := building_of_role (a := a) hk.ledger (p := p) (by rw [hpc]; rfl)
      exact Or.inl (buffer_of_write hocc htickets rfl
        (OwnInv.occupant_of_live hk.ledger hslot (by rw [hst]; rfl)) (other (by rw [hst]; rfl)))
    | storesLate c p store todo hpc =>
      rw [hpc] at hbuilds
      obtain ⟨-, done, hlate⟩ := hbuilds
      obtain ⟨rfl, -⟩ := Call.of_late cfg.contextAlloc hlate
      left
      show (Function.update s.slots p.slot _ (s.tickets g).slot).buffer = _
      by_cases hslot : (s.tickets g).slot = p.slot
      · rw [hslot, Function.update_self, State.record, hslot]
        rfl
      · rw [Function.update_of_ne hslot, State.record]
    | takes c i =>
      left
      rw [State.record, htickets, State.record]
    | _ => exact Or.inl rfl
  | proc hs =>
    have working {p : ItemPtr} (hhand : s.proc.hand = .working p) :
        s.occupant p.slot = p.submission ∧ g ≠ p.submission := by
      obtain ⟨hslot, hst⟩ := fits_of_hand hk.ledger hhand
      have hst : s.stage p.submission = .executing := hst
      exact ⟨OwnInv.occupant_of_live hk.ledger hslot (by rw [hst]; rfl),
        other (by rw [hst]; rfl)⟩
    cases procMove hs with
    | executes p e hpc hs =>
      obtain ⟨hp, hne⟩ := working (p := p) (by rw [hpc]; rfl)
      obtain ⟨item, hslots⟩ := execStep_slots hs
      exact Or.inl (buffer_of_write hocc htickets hslots hp hne)
    | completes p hpc =>
      obtain ⟨hp, hne⟩ := working (p := p) (by rw [hpc]; rfl)
      exact Or.inl (buffer_of_write hocc htickets rfl hp hne)
    | frees p | freesNull p => exact frees rfl rfl rfl
    | _ => exact Or.inl rfl
  | controlAct act _ hs =>
    obtain ⟨hf, -⟩ := controlActStep_frame hs
    left
    rw [State.record, htickets, hf.slots, State.record]
  | control hs =>
    obtain ⟨hf, -⟩ := controlStep_frame hs
    left
    rw [State.record, htickets, hf.slots, State.record]
  | callbackReturns | wakeProc | wakeAgent a => exact Or.inl rfl

/-! ### What has been served -/

/-- The item has been executed, and is complete or about to be marked so. -/
def State.Served (s : State D W) (g : ℕ) : Prop :=
  .executed g ∈ s.log ∨ ∃ p, s.proc = .complete p ∧ p.submission = g

lemma State.Served.stage (h : s.Served g) (hk : Accounted cfg s) :
    (s.stage g).isDone = true ∨ s.stage g = .executing ∧ ∃ p, s.proc = .complete p := by
  rcases h with hlog | ⟨p, hpc, rfl⟩
  · exact Or.inl (isDone_of_executed hk.ledger hlog)
  · exact Or.inr ⟨(fits_of_hand hk.ledger (show s.proc.hand = .working p by rw [hpc]; rfl)).2, p,
      hpc⟩

/-- Others leave the processing thread where it is, unless it sleeps, is in a callback or has
left its loop. -/
lemma proc_stays (hctl : ControlInv s) (hact : act ≠ .proc) (hs : step cfg s act = some s')
    (hwake : s.proc.wake = s.proc) (hcallback : s.proc.isInCallback = false)
    (hexited : s.proc.isExited = false) : s'.proc = s.proc := by
  rcases step_proc hs hact with hp | hp | ⟨hstart, -⟩ | ⟨p, hpc, -⟩
  · exact hp
  · rw [hp, hwake]
  · rw [hctl.exited_of_start hstart] at hexited
    cases hexited
  · rw [hpc] at hcallback
    cases hcallback

/-- One more request has been served when an execution has come to its end. -/
lemma served_step (hctl : ControlInv s) (hs : step cfg s act = some s') :
    s'.Served g ↔ s.Served g ∨
      ∃ p e, act = .proc ∧ s.proc = .exec p e ∧ s'.proc = .complete p ∧ p.submission = g := by
  constructor
  · rintro (hlog' | ⟨p, hpc', rfl⟩)
    · rcases step_event hs with hlog | ⟨ev, hlog, hrecords⟩ <;> rw [hlog] at hlog'
      · exact Or.inl (Or.inl hlog')
      · rcases List.mem_cons.mp hlog' with rfl | hmem
        · cases hrecords with
          | executed p hpc => exact Or.inl (Or.inr ⟨p, hpc, rfl⟩)
        · exact Or.inl (Or.inl hmem)
    · by_cases hact : act = .proc
      · subst hact
        have hgoes := procStep_goes hs
        rw [hpc'] at hgoes
        cases hpc : s.proc <;> rw [hpc] at hgoes <;> cases hgoes
        exact Or.inr ⟨p, _, rfl, rfl, hpc', rfl⟩
      · refine Or.inl (Or.inr ⟨p, ?_, rfl⟩)
        rcases step_proc hs hact with hp | hp | ⟨-, hp⟩ | ⟨q, -, -, hp⟩ <;> rw [hp] at hpc'
        · exact hpc'
        · cases hpc : s.proc <;> rw [hpc] at hpc' <;> first | exact hpc' | cases hpc'
        · cases hpc'
        · cases hpc'
  · rintro ((hlog | ⟨p, hpc, rfl⟩) | ⟨p, e, -, -, hpc', rfl⟩)
    · exact Or.inl (log_step hs hlog)
    · by_cases hact : act = .proc
      · subst hact
        simp only [step, procStep, hpc, Option.some.injEq] at hs
        subst hs
        exact Or.inl List.mem_cons_self
      · have hstays := proc_stays hctl hact hs (by rw [hpc]; rfl) (by rw [hpc]; rfl)
          (by rw [hpc]; rfl)
        exact Or.inr ⟨p, hstays.trans hpc, rfl⟩
    · exact Or.inr ⟨p, hpc', rfl⟩

/-- **The step lemma.**  An item that has been served, and keeps its slot, had it before, and
goes on to show the answer. -/
lemma shows_step (hk : Accounted cfg s) (hk' : Accounted cfg s') (hserved : s.Served g)
    (hserved' : s'.Served g) (hs : step cfg s act = some s') (hocc' : s'.Occupies g) :
    s.Occupies g ∧ (s.Shows g ans → s'.Shows g ans) := by
  have stages {t : State D W} (ht : Accounted cfg t) (h : t.Served g) :
      t.stage g ≠ .unborn ∧ t.stage g ≠ .building := by
    rcases h.stage ht with hdone | ⟨hst, -⟩
    · constructor <;>
      · intro hst
        rw [hst] at hdone
        cases hdone
    · rw [hst]
      simp
  have htickets := OwnInv.step_tickets hk.ledger hs (stages hk hserved).1
  cases hk.own.record_step hk.ledger hs (stages hk' hserved').1 hocc' with
  | filled _ hst => exact absurd hst (stages hk' hserved').2
  | taken hst _ => exact absurd hst (stages hk hserved).1
  | posted _ hst _ _ _ => exact absurd hst (stages hk hserved).2
  | executing p e _ _ _ hpc hst _ =>
    rcases hserved.stage hk with hdone | ⟨-, q, hpc'⟩
    · rw [hst] at hdone
      cases hdone
    · rw [hpc] at hpc'
      cases hpc'
  | same _ hocc _ _ hrecord =>
    exact ⟨hocc, fun h => h.keep hs (by rw [hrecord])⟩
  | late hposted _ _ _ hrecord | completed hposted _ hrecord =>
    exact ⟨hposted.2, fun h => h.keep hs (by rw [hrecord]; rfl)⟩
  | freed hposted _ hdone hrecord =>
    refine ⟨hposted.2, fun h => ?_⟩
    obtain ⟨hcode, hbytes, hbuffer⟩ := freeBuffer_answer (s.record g)
    rw [← hrecord] at hcode hbytes hbuffer
    by_cases hsame : (s'.record g).buffer = (s.record g).buffer
    · refine h.keep hs ?_
      rw [WorkItem.answer_eq, WorkItem.answer_eq, hcode, hbytes, hsame]
    · exact ⟨hcode.trans h.code, hbytes.trans h.bytes, Or.inr ⟨hbuffer.resolve_left hsame,
        (freed_logged hk hposted.2 hdone hs htickets).resolve_left hsame⟩⟩

section Runs

variable {pool : PoolAllocator} {capacity : ℕ} {memory : ℕ → WorkItem} {world : W}

/-- **What has been read stays true.**  In runs in which no client releases an item while the
processing thread is in the iteration that executed it: an item that has been executed, and
whose slot is not another item's later on, shows the same code and the same number of bytes
then, and the same buffer or, if its buffer has been freed, none. -/
theorem answers_stay {s₁ s₂ : State D W} (hpool : pool.WF) (hcapacity : 1 ≤ capacity)
    (h₁ : Reach (step cfg) ReleasesLate (State.init pool capacity memory world) s₁)
    (hdone : .executed g ∈ s₁.log) (h₂ : Reach (step cfg) ReleasesLate s₁ s₂)
    (hocc : s₂.Occupies g) : s₁.Occupies g ∧ s₂.Shows g (s₁.record g).answer := by
  obtain ⟨-, -, h⟩ := h₂.invariant
    (I := fun t => Serial cfg t ∧ .executed g ∈ t.log ∧
      (t.Occupies g → s₁.Occupies g ∧ t.Shows g (s₁.record g).answer))
    ⟨serial_of_reach hpool hcapacity h₁, hdone, fun hocc => ⟨hocc, shows_answer _ _⟩⟩
    fun t act t' ⟨hi, hdone, h⟩ hok hs => by
      have hi' := hi.step hok hs
      have hdone' := log_step hs hdone
      refine ⟨hi', hdone', fun hocc' => ?_⟩
      have hstep : t.Occupies g ∧
          (t.Shows g (s₁.record g).answer → t'.Shows g (s₁.record g).answer) :=
        shows_step hi.accounted hi'.accounted (Or.inl hdone) (Or.inl hdone') hs hocc'
      exact ⟨(h hstep.1).1, hstep.2 (h hstep.1).2⟩
  exact h hocc

end Runs

/-- A client looks at its item again, after another client has had one executed. -/
theorem answers_stay_again :
    ∃ s₁ s₂, Reach (step smallConfig) ReleasesLate smallInit s₁ ∧
      Reach (step smallConfig) ReleasesLate s₁ s₂ ∧ .executed 1 ∈ s₂.log ∧
      WorkItemGetResult (some (s₁.record 0)) = .notFound ∧
      s₂.Shows 0 (s₁.record 0).answer := by
  obtain ⟨s₁, h₁, hp₁⟩ := @Reach.of_guardedRun_any _ _ (step smallConfig) ReleasesLate smallInit
    (fun s act => decide (ReleasesLate s act)) (fun _ _ => of_decide_eq_true)
    (submits 0 ⟨.fileExists, [slash, 97], none⟩ 14 ++ List.replicate 8 Action.proc)
    (fun s₁ => decide (Event.executed 0 ∈ s₁.log ∧
        WorkItemGetResult (some (s₁.record 0)) = .notFound) &&
      (guardedRun (step smallConfig) (fun s act => decide (ReleasesLate s act)) s₁
        (submits 1 ⟨.fileSize, [slash, 97], none⟩ 12 ++ List.replicate 9 Action.proc)).any
          fun s₂ : State Unit Unit => decide (Event.executed 1 ∈ s₂.log ∧
            s₂.occupant (s₂.tickets 0).slot = 0)) (by decide +kernel)
  rw [Bool.and_eq_true, decide_eq_true_eq] at hp₁
  obtain ⟨⟨hdone, hcode⟩, hrun⟩ := hp₁
  obtain ⟨s₂, h₂, hp₂⟩ := @Reach.of_guardedRun_any _ _ (step smallConfig) ReleasesLate s₁
    (fun s act => decide (ReleasesLate s act)) (fun _ _ => of_decide_eq_true) _ _ hrun
  rw [decide_eq_true_eq] at hp₂
  refine ⟨s₁, s₂, h₁, h₂, hp₂.1, hcode, ?_⟩
  exact (answers_stay (PoolAllocator.wf_new 2 (by decide) (by decide)) (by decide) h₁ hdone h₂
    hp₂.2).2

end LaminaFS
