/-
# Who owns a work item

A callback is called for an executed item, a slot is not given back while its item is queued
or executed, and every item is released once and by the right party: this holds as long as the
processing thread, when it reads `_callback`, reads the field of the item that it has executed
or reads null.  It does not hold in general, since the item may have been released, and its slot
taken for another item, between the assignment to `_completed` and that reading.
-/
import LaminaFS.Context.Refinement

namespace LaminaFS

open Transition

variable {D W : Type} {cfg : Config D W} {s : State D W} {g : ℕ}

/-- The item is in the queue, or the processing thread executes it. -/
def State.Uses (s : State D W) (p : ItemPtr) : Prop :=
  some p ∈ s.ring.contents ∨ s.proc.hand = .working p

/-- The submission has its slot. -/
def State.Lives (s : State D W) (g : ℕ) : Prop :=
  s.pool.isFree (s.tickets g).slot = false ∧ s.occupant (s.tickets g).slot = g

instance (s : State D W) (g : ℕ) : Decidable (s.Lives g) := inferInstanceAs (Decidable (_ ∧ _))

/-- The party that has to release the item of a call. -/
def Ticket.releaser (t : Ticket) : Releaser :=
  if t.hasCallback then .processing else .client

/-- What ownership of the work items means. -/
structure Owned (s : State D W) : Prop where
  /-- a callback is called for an item that has been executed -/
  invoked : ∀ g code, .invoked g code ∈ s.log → .executed g ∈ s.log
  /-- the item in a slot that is used is the one the slot was taken for, and the slot is not
  free -/
  used : ∀ p, s.Uses p → s.pool.isFree p.slot = false ∧ s.occupant p.slot = p.submission
  /-- an item has been released once if it does not have its slot any more, by the party that
  has to, and not at all if it has it -/
  released : ∀ g < s.nextSubmission, ∀ by_, s.log.count (.released g by_) =
    if s.Lives g ∨ by_ ≠ (s.tickets g).releaser then 0 else 1
  /-- the processing thread does not turn to something else before it has released -/
  processed : ∀ g, (s.tickets g).hasCallback = true → .executed g ∈ s.log →
    s.proc.hand = .free → .released g .processing ∈ s.log
  /-- the clients have every item that has been returned to them and not been released -/
  kept : ∀ g ∈ s.returned, (s.tickets g).hasCallback = false → s.Lives g →
    ⟨(s.tickets g).slot, g⟩ ∈ s.held

/-! ### The events in the ledger -/

lemma mem_log_executed : .executed g ∈ s.log ↔ .executed g ∈ s.ledger.log := by
  show _ ↔ Handoff.Entry.executed g ∈ s.log.filterMap Event.entry
  rw [List.mem_filterMap]
  constructor
  · exact fun h => ⟨_, h, rfl⟩
  · rintro ⟨e, he, heq⟩
    cases e <;> simp only [Event.entry, reduceCtorEq, Option.some.injEq,
      Handoff.Entry.executed.injEq] at heq
    exact heq ▸ he

lemma mem_log_called {code : ErrorCode} (h : .invoked g code ∈ s.log) :
    .called g ∈ s.ledger.log :=
  List.mem_filterMap.mpr ⟨_, h, rfl⟩

lemma invoked_of_called (h : .called g ∈ s.ledger.log) : ∃ code, .invoked g code ∈ s.log := by
  obtain ⟨e, he, heq⟩ := List.mem_filterMap.mp h
  cases e <;> simp only [Event.entry, reduceCtorEq, Option.some.injEq,
    Handoff.Entry.called.injEq] at heq
  exact ⟨_, heq ▸ he⟩

lemma count_log_released (by_ : Releaser) :
    s.log.count (.released g by_) = s.ledger.log.count (.released g (by_ == .processing)) := by
  show _ = (s.log.filterMap Event.entry).count _
  induction s.log with
  | nil => rfl
  | cons e log ih =>
    rw [List.count_cons, ih]
    cases e with
    | executed h | invoked h code =>
      rw [List.filterMap_cons, Event.entry, List.count_cons]
      simp
    | released h by' =>
      rw [List.filterMap_cons, Event.entry, List.count_cons]
      cases by_ <;> cases by' <;> simp
    | _ =>
      rw [List.filterMap_cons_none rfl]
      simp

/-! ### Ownership in runs that test the right field -/

lemma lives_iff (hl : Handoff.Inv s.ledger) (hborn : s.stage g ≠ .unborn) :
    s.Lives g ↔ s.stage g ≠ .released := by
  constructor
  · rintro ⟨hfree, hocc⟩ hst
    have hgiven := hl.given g hst hocc
    rw [show s.ledger.free (s.ledger.slotOf g) = _ from hfree] at hgiven
    cases hgiven
  · intro hst
    refine hl.lives g ?_
    show (s.stage g).isLive = true
    cases hs : s.stage g <;> first | rfl | exact absurd hs hborn | exact absurd hs hst

lemma executed_of_isDone (hl : Handoff.Inv s.ledger) (hdone : (s.stage g).isDone = true) :
    .executed g ∈ s.log := by
  have hcount : s.ledger.log.count (.executed g) = 1 := (hl.executions g).trans (if_pos hdone)
  exact mem_log_executed.mpr (List.count_pos_iff.mp (hcount ▸ Nat.one_pos))

lemma isDone_of_executed (hl : Handoff.Inv s.ledger) (h : .executed g ∈ s.log) :
    (s.stage g).isDone = true := by
  by_contra hdone
  have hcount : s.ledger.log.count (.executed g) = 0 := (hl.executions g).trans (if_neg hdone)
  exact List.count_eq_zero.mp hcount (mem_log_executed.mp h)

/-- The ledger tells who owns what. -/
lemma owned_of_ledger (hl : Handoff.Inv s.ledger) : Owned s where
  invoked g code h := by
    have hstage : (s.stage g).isDone = true := by
      by_contra hdone
      have hcalls := hl.calls g
      rw [if_neg, List.count_eq_zero] at hcalls
      · exact hcalls (mem_log_called h)
      · rintro (hst | ⟨hst, -⟩) <;> rw [show s.stage g = _ from hst] at hdone <;>
          exact hdone rfl
    exact executed_of_isDone hl hstage
  used p h := by
    have hlive : p.slot = (s.tickets p.submission).slot ∧
        (s.stage p.submission).isLive = true := by
      rcases h with hqueue | hhand
      · obtain ⟨hslot, hst⟩ := hl.queue p (List.mem_filterMap.mpr ⟨_, hqueue, rfl⟩)
        exact ⟨hslot, by rw [show s.stage p.submission = _ from hst]; rfl⟩
      · have hfits := fits_of_hand hl hhand
        exact ⟨hfits.1, by rw [show s.stage p.submission = _ from hfits.2]; rfl⟩
    rw [hlive.1]
    exact hl.lives _ hlive.2
  released g hg by_ := by
    have hborn : s.stage g ≠ .unborn := fun hst => by
      have := (hl.born g).mp hst
      exact absurd hg (Nat.not_lt.mpr this)
    have hparty : (s.tickets g).hasCallback = (by_ == .processing) ↔
        by_ = (s.tickets g).releaser := by
      unfold Ticket.releaser
      cases (s.tickets g).hasCallback <;> cases by_ <;> simp
    have hlives := lives_iff hl hborn
    rw [count_log_released, hl.releases]
    show (if s.stage g = .released ∧ (s.tickets g).hasCallback = _ then 1 else 0) = _
    simp only [hparty, hlives]
    by_cases hst : s.stage g = .released <;> by_cases hby : by_ = (s.tickets g).releaser <;>
      simp [hst, hby]
  processed g hcallback h hhand := by
    have hdone := isDone_of_executed hl h
    have hfree : s.ledger.hand = .free := hhand
    have hst : s.stage g = .released := by
      cases hs : s.stage g with
      | released => rfl
      | completed =>
        have := hl.completed g hs hcallback
        simp [hfree] at this
      | called =>
        have := (hl.called g hs).2
        simp [hfree] at this
      | _ =>
        rw [hs] at hdone
        cases hdone
    have hreleases := hl.releases g true
    rw [if_pos ⟨hst, hcallback⟩] at hreleases
    exact List.count_pos_iff.mp (by rw [count_log_released]; exact hreleases ▸ Nat.one_pos)
  kept g hg hagents hlives := by
    obtain ⟨hposted, hheld⟩ := hl.returned g hg
    refine hheld hagents ?_
    refine (lives_iff hl ?_).mp hlives
    intro hst
    rw [show s.ledger.stage g = _ from hst] at hposted
    cases hposted

section Runs

variable {pool : PoolAllocator} {capacity : ℕ} {memory : ℕ → WorkItem} {world : W}

/-- **Ownership.**  In every state of a run whose steps all test the right `_callback`,
callbacks are called for executed items only, no slot is free while its item is queued or
executed, and every item is released once, by the party that has to. -/
theorem items_owned (hpool : pool.WF) (hcapacity : 1 ≤ capacity)
    (h : Reach (step cfg) TestsOwn (State.init pool capacity memory world) s) : Owned s :=
  owned_of_ledger (Handoff.Inv.run ledger_initial
    (@refines_handoff _ _ cfg _ _ _ _ _ _ hpool hcapacity (fun _ _ hok => hok) h).2)

end Runs

/-- The steps of the processing thread up to the test of `_callback`, for an item whose path no
mount accepts. -/
def processes : List Action := List.replicate 6 .proc

/-- A client submits with a callback, and its item is executed, called and released by the
processing thread; the next item in the slot has no callback, and the client that submitted it
releases it. -/
theorem items_owned_released :
    ∃ s, Reach (step smallConfig) TestsOwn smallInit s ∧
      .released 0 .processing ∈ s.log ∧ .released 1 .client ∈ s.log ∧ Owned s := by
  obtain ⟨s, hs, hp⟩ := @Reach.of_guardedRun_any _ _ (step smallConfig) TestsOwn smallInit
    (fun s act => decide (TestsOwn s act)) (fun _ _ => of_decide_eq_true)
    (submits 0 ⟨.fileExists, [slash], some ⟨7, .doNotFreeBuffer, 0⟩⟩ 14 ++ processes ++
      [.proc, .proc, .callbackReturns, .proc, .proc] ++
      submits 1 ⟨.fileExists, [slash], none⟩ 14 ++ processes ++ [.proc, .proc] ++
      [.client (.client 1) (.check ⟨0, 1⟩), .client (.client 1) (.release ⟨0, 1⟩)])
    (fun s => decide (.released 0 .processing ∈ s.log ∧ .released 1 .client ∈ s.log))
    (by decide +kernel)
  rw [decide_eq_true_eq] at hp
  exact ⟨s, hs, hp.1, hp.2,
    items_owned (PoolAllocator.wf_new 2 (by decide) (by decide)) (by decide) hs⟩

/-- A client releases its item before the processing thread has tested `_callback`, and another
one submits into the same slot: its callback is called although nothing has been executed for
it, and its slot is given back before its item is pushed. -/
theorem callback_not_owned :
    ∃ s, Reach (step smallConfig) Free smallInit s ∧ ¬ Owned s ∧
      .invoked 1 .ok ∈ s.log ∧ .executed 1 ∉ s.log ∧
      some ⟨0, 1⟩ ∈ s.ring.contents ∧ s.pool.isFree 0 = true := by
  obtain ⟨s, hs, hp⟩ := @Reach.of_run_any _ _ (step smallConfig) smallInit
    (submits 0 ⟨.fileExists, [slash], none⟩ 14 ++ processes ++
      [.client (.client 0) (.check ⟨0, 0⟩), .client (.client 0) (.release ⟨0, 0⟩)] ++
      submits 1 ⟨.fileExists, [slash], some ⟨7, .doNotFreeBuffer, 0⟩⟩ 5 ++
      [.proc, .proc, .callbackReturns, .proc, .proc] ++ List.replicate 6 (.agent (.client 1)))
    (fun s => decide (.invoked 1 .ok ∈ s.log ∧ .executed 1 ∉ s.log ∧
      some ⟨0, 1⟩ ∈ s.ring.contents ∧ s.pool.isFree 0 = true)) (by decide +kernel)
  rw [decide_eq_true_eq] at hp
  exact ⟨s, hs, fun howned => hp.2.1 (howned.invoked 1 .ok hp.1), hp⟩

end LaminaFS
