/-
# Slots that go from hand to hand

A pool has slots, and a slot is taken for one submission after another.  The agent that takes a
slot fills it, posts it to a queue, and goes on.  One worker fetches the submissions from the
queue.  When it has executed one it either keeps it, calls somebody about it and gives the
slot back, or it leaves the slot to the agents, one of which gives it back, having been told
that the submission is complete.

The ledger says where each submission is.  A pointer names the slot and the submission that the
slot was taken for, so that a pointer that has outlived its submission can be told from a good
one.
-/
import Mathlib.Data.List.Nodup
import Mathlib.Logic.Function.Basic
import Mathlib.Logic.Relation
import Mathlib.Tactic.Common

namespace Handoff

/-- A pointer to a slot, with the submission that the slot belonged to when the pointer was
made. -/
@[ext, grind ext]
structure Ptr where
  slot : ℕ
  submission : ℕ
deriving DecidableEq, Repr

/-- How far a submission has come. -/
inductive Stage where
  | unborn
  | building
  | queued
  | executing
  | completed
  | called
  | released
deriving DecidableEq, Repr

namespace Stage

/-- The submission has a slot. -/
@[grind =]
def isLive : Stage → Bool
  | .unborn | .released => false
  | _ => true

/-- The submission has been posted. -/
@[grind =]
def isPosted : Stage → Bool
  | .unborn | .building => false
  | _ => true

/-- The submission has been executed. -/
@[grind =]
def isDone : Stage → Bool
  | .completed | .called | .released => true
  | _ => false

/-- The stages that follow a stage. -/
inductive Next : Stage → Stage → Prop
  | taken : Next .unborn .building
  | posted : Next .building .queued
  | fetched : Next .queued .executing
  | finished : Next .executing .completed
  | called : Next .completed .called
  | releasedByAgent : Next .completed .released
  | releasedByWorker : Next .called .released

lemma isLive_of_isPosted {st : Stage} (h : st.isPosted = true) (hne : st ≠ .released) :
    st.isLive = true := by
  cases st <;> first | rfl | exact absurd rfl hne | cases h

end Stage

/-- What an agent is doing. -/
inductive Role where
  | none
  | building (p : Ptr)
  /-- it has posted the submission and not yet returned from that -/
  | posted (p : Ptr)
  /-- it waits to be told that the submission is complete -/
  | asking (p : Ptr)
deriving DecidableEq, Repr

/-- What the worker is doing. -/
inductive Hand where
  | free
  | working (p : Ptr)
  /-- it has executed the submission, and has to find out whose it is now -/
  | finished (p : Ptr)
  | calling (p : Ptr)
  /-- behind the call -/
  | after (p : Ptr)
  | dead
deriving DecidableEq, Repr

/-- What is recorded: executions, calls, and who gave a slot back. -/
inductive Entry where
  | executed (g : ℕ)
  | called (g : ℕ)
  | released (g : ℕ) (byWorker : Bool)
deriving DecidableEq, Repr

/-- Where everything is. -/
structure Ledger (ι : Type*) where
  free : ℕ → Bool
  occupant : ℕ → ℕ
  next : ℕ
  slotOf : ℕ → ℕ
  owner : ℕ → ι
  /-- the worker gives the slot back -/
  byWorker : ℕ → Bool
  stage : ℕ → Stage
  queue : List Ptr
  role : ι → Role
  hand : Hand
  /-- the submissions that the agents have, and those reported to be complete -/
  held : List Ptr
  reported : List Ptr
  returned : List ℕ
  log : List Entry

variable {ι : Type*}

/-- No submission has been made. -/
structure Ledger.Initial (l : Ledger ι) : Prop where
  next : l.next = 0
  stage : ∀ g, l.stage g = .unborn
  queue : l.queue = []
  role : ∀ a, l.role a = .none
  hand : l.hand = .free
  held : l.held = []
  reported : l.reported = []
  returned : l.returned = []
  log : l.log = []

/-- The slot goes back to the pool. -/
def Ledger.giveBack (l : Ledger ι) (p : Ptr) : Ledger ι :=
  { l with
    free := Function.update l.free p.slot true
    stage := Function.update l.stage p.submission .released
    log := .released p.submission (l.byWorker p.submission) :: l.log }

/-- The moves. -/
inductive Step [DecidableEq ι] (l : Ledger ι) : Ledger ι → Prop
  /-- an agent takes a free slot -/
  | take (a : ι) (i : ℕ) (w : Bool) (hrole : l.role a = .none) (hfree : l.free i = true) :
    Step l { l with
      free := Function.update l.free i false
      occupant := Function.update l.occupant i l.next
      next := l.next + 1
      slotOf := Function.update l.slotOf l.next i
      owner := Function.update l.owner l.next a
      byWorker := Function.update l.byWorker l.next w
      stage := Function.update l.stage l.next .building
      role := Function.update l.role a (.building ⟨i, l.next⟩) }
  /-- it posts the submission -/
  | post (a : ι) (p : Ptr) (hrole : l.role a = .building p) :
    Step l { l with
      queue := l.queue ++ [p]
      stage := Function.update l.stage p.submission .queued
      role := Function.update l.role a (.posted p) }
  /-- it returns; what is not the worker's is now the agents' -/
  | ret (a : ι) (p : Ptr) (hrole : l.role a = .posted p) :
    Step l { l with
      held := if l.byWorker p.submission then l.held else p :: l.held
      returned := p.submission :: l.returned
      role := Function.update l.role a .none }
  /-- an agent asks about a submission -/
  | ask (a : ι) (p : Ptr) (hrole : l.role a = .none) (hheld : p ∈ l.held) :
    Step l { l with role := Function.update l.role a (.asking p) }
  /-- an agent is told that a submission is complete, which is true if the agents still have
  it -/
  | tell (a : ι) (p : Ptr) (hrole : l.role a = .asking p ∨ l.role a = .none ∧ p ∈ l.held)
      (htrue : p ∈ l.held → l.stage p.submission = .completed) :
    Step l { l with
      reported := p :: l.reported
      role := Function.update l.role a .none }
  /-- an agent gives the slot back -/
  | agentRelease (p : Ptr) (hheld : p ∈ l.held) (hreported : p ∈ l.reported) :
    Step l { l.giveBack p with held := l.held.filter (· ≠ p) }
  /-- the worker fetches the submission that has been in the queue longest -/
  | fetch (p : Ptr) (queue : List Ptr) (hhand : l.hand = .free) (hqueue : l.queue = p :: queue) :
    Step l { l with
      queue := queue
      stage := Function.update l.stage p.submission .executing
      hand := .working p }
  /-- it completes the submission -/
  | finish (p : Ptr) (hhand : l.hand = .working p) :
    Step l { l with
      stage := Function.update l.stage p.submission .completed
      hand := .finished p
      log := .executed p.submission :: l.log }
  /-- it leaves the submission to the agents -/
  | leave (p : Ptr) (hhand : l.hand = .finished p) (hagents : l.byWorker p.submission = false) :
    Step l { l with hand := .free }
  /-- it keeps the submission -/
  | keep (p : Ptr) (hhand : l.hand = .finished p) (hworker : l.byWorker p.submission = true) :
    Step l { l with hand := .calling p }
  /-- it calls somebody about it -/
  | call (p : Ptr) (hhand : l.hand = .calling p) :
    Step l { l with
      stage := Function.update l.stage p.submission .called
      hand := .after p
      log := .called p.submission :: l.log }
  /-- it gives the slot back -/
  | workerRelease (p : Ptr) (hhand : l.hand = .after p) :
    Step l { l.giveBack p with hand := .free }
  /-- it stops for ever, with what it has -/
  | die : Step l { l with hand := .dead }

/-! ### The invariant -/

/-- What the worker has in its hand is where it should be. -/
def Hand.Fits (l : Ledger ι) : Hand → Prop
  | .free | .dead => True
  | .working p => p.slot = l.slotOf p.submission ∧ l.stage p.submission = .executing
  | .finished p => p.slot = l.slotOf p.submission ∧
      (l.stage p.submission = .completed ∨
        l.stage p.submission = .released ∧ l.byWorker p.submission = false)
  | .calling p => p.slot = l.slotOf p.submission ∧ l.stage p.submission = .completed ∧
      l.byWorker p.submission = true
  | .after p => p.slot = l.slotOf p.submission ∧ l.stage p.submission = .called

/-- The invariant of the ledger. -/
structure Inv (l : Ledger ι) : Prop where
  born : ∀ g, l.stage g = .unborn ↔ l.next ≤ g
  lives : ∀ g, (l.stage g).isLive = true →
    l.free (l.slotOf g) = false ∧ l.occupant (l.slotOf g) = g
  given : ∀ g, l.stage g = .released → l.occupant (l.slotOf g) = g →
    l.free (l.slotOf g) = true
  queue : ∀ p ∈ l.queue, p.slot = l.slotOf p.submission ∧ l.stage p.submission = .queued
  nodup : l.queue.Nodup
  building : ∀ a p, l.role a = .building p → p.slot = l.slotOf p.submission ∧
    l.stage p.submission = .building ∧ l.owner p.submission = a
  posted : ∀ a p, l.role a = .posted p → p.slot = l.slotOf p.submission ∧
    (l.stage p.submission).isPosted = true ∧ l.owner p.submission = a ∧
    p.submission ∉ l.returned ∧
    (l.byWorker p.submission = false → l.stage p.submission ≠ .released)
  asking : ∀ a p, l.role a = .asking p → p.submission ∈ l.returned
  hand : l.hand.Fits l
  queued : ∀ g, l.stage g = .queued → ⟨l.slotOf g, g⟩ ∈ l.queue
  executing : ∀ g, l.stage g = .executing →
    l.hand = .working ⟨l.slotOf g, g⟩ ∨ l.hand = .dead
  completed : ∀ g, l.stage g = .completed → l.byWorker g = true →
    l.hand = .finished ⟨l.slotOf g, g⟩ ∨ l.hand = .calling ⟨l.slotOf g, g⟩ ∨ l.hand = .dead
  called : ∀ g, l.stage g = .called → l.byWorker g = true ∧
    (l.hand = .after ⟨l.slotOf g, g⟩ ∨ l.hand = .dead)
  held : ∀ p ∈ l.held, p.slot = l.slotOf p.submission ∧ l.byWorker p.submission = false ∧
    l.stage p.submission ≠ .released ∧ p.submission ∈ l.returned
  told : ∀ p ∈ l.held, p ∈ l.reported → l.stage p.submission = .completed
  reported : ∀ p ∈ l.reported, p.submission ∈ l.returned
  returned : ∀ g ∈ l.returned, (l.stage g).isPosted = true ∧
    (l.byWorker g = false → l.stage g ≠ .released → ⟨l.slotOf g, g⟩ ∈ l.held)
  executions : ∀ g, l.log.count (.executed g) = if (l.stage g).isDone then 1 else 0
  calls : ∀ g, l.log.count (.called g) =
    if l.stage g = .called ∨ l.stage g = .released ∧ l.byWorker g = true then 1 else 0
  releases : ∀ g w, l.log.count (.released g w) =
    if l.stage g = .released ∧ l.byWorker g = w then 1 else 0

namespace Inv

variable {l : Ledger ι}

lemma of_initial (h : l.Initial) : Inv l := by
  constructor
  case hand =>
    rw [h.hand]
    trivial
  all_goals simp [h.next, h.stage, h.queue, h.role, h.held, h.reported, h.returned, h.log,
    Stage.isLive, Stage.isDone]

/-! ### The moves keep the invariant -/

section Agents

variable [DecidableEq ι]

/-- The number is new: no pointer that anybody has carries it. -/
lemma take (h : Inv l) {a : ι} {i : ℕ} (w : Bool) (hfree : l.free i = true) :
    Inv { l with
      free := Function.update l.free i false
      occupant := Function.update l.occupant i l.next
      next := l.next + 1
      slotOf := Function.update l.slotOf l.next i
      owner := Function.update l.owner l.next a
      byWorker := Function.update l.byWorker l.next w
      stage := Function.update l.stage l.next .building
      role := Function.update l.role a (.building ⟨i, l.next⟩) } := by
  have hnew : l.stage l.next = .unborn := (h.born _).mpr (Nat.le_refl _)
  have hfits := h.hand
  cases h
  constructor <;> try assumption
  case hand => cases hh : l.hand <;> grind [Hand.Fits]
  all_goals simp only [Function.update_apply]
  all_goals grind

/-- The pointer goes from the agent to the end of the queue. -/
lemma post (h : Inv l) {a : ι} {p : Ptr} (hrole : l.role a = .building p) :
    Inv { l with
      queue := l.queue ++ [p]
      stage := Function.update l.stage p.submission .queued
      role := Function.update l.role a (.posted p) } := by
  obtain ⟨hslot, hstage, howner⟩ := h.building a p hrole
  have hfits := h.hand
  -- what is in the queue already is not being built
  have hp : p ∉ l.queue := fun hp => by
    have := (h.queue p hp).2
    rw [hstage] at this
    cases this
  have hnodup : (l.queue ++ [p]).Nodup := by
    simpa [List.nodup_append] using ⟨h.nodup, fun q hq he => hp (he ▸ hq)⟩
  cases h
  constructor <;> try assumption
  all_goals clear hnodup
  case hand => cases hh : l.hand <;> grind [Hand.Fits]
  all_goals simp only [Function.update_apply]
  all_goals grind

lemma ret (h : Inv l) {a : ι} {p : Ptr} (hrole : l.role a = .posted p) :
    Inv { l with
      held := if l.byWorker p.submission then l.held else p :: l.held
      returned := p.submission :: l.returned
      role := Function.update l.role a .none } := by
  obtain ⟨hslot, hposted, howner, hreturned, halive⟩ := h.posted a p hrole
  -- nobody has been told about it, as nobody has had it
  have hreported : p ∉ l.reported := fun hp => hreturned (h.reported p hp)
  cases h
  constructor <;> try assumption
  all_goals simp only [Function.update_apply]
  all_goals grind

lemma ask (h : Inv l) {a : ι} {p : Ptr} (hheld : p ∈ l.held) :
    Inv { l with role := Function.update l.role a (.asking p) } := by
  have hreturned := (h.held p hheld).2.2.2
  cases h
  constructor <;> try assumption
  all_goals simp only [Function.update_apply]
  all_goals grind

lemma tell (h : Inv l) {a : ι} {p : Ptr}
    (hrole : l.role a = .asking p ∨ l.role a = .none ∧ p ∈ l.held)
    (htrue : p ∈ l.held → l.stage p.submission = .completed) :
    Inv { l with
      reported := p :: l.reported
      role := Function.update l.role a .none } := by
  have hreturned : p.submission ∈ l.returned := by
    rcases hrole with hrole | ⟨-, hheld⟩
    · exact h.asking a p hrole
    · exact (h.held p hheld).2.2.2
  clear hrole
  cases h
  constructor <;> try assumption
  all_goals simp only [Function.update_apply]
  all_goals grind

end Agents

/-- The agents that are told that a submission of theirs is complete are told the truth, and so
the slot is given back after the worker is done with it. -/
lemma agentRelease (h : Inv l) {p : Ptr} (hheld : p ∈ l.held) (hreported : p ∈ l.reported) :
    Inv { l.giveBack p with held := l.held.filter (· ≠ p) } := by
  have hstage := h.told p hheld hreported
  obtain ⟨hslot, hagents, -, hreturned⟩ := h.held p hheld
  have hfits := h.hand
  cases h
  constructor <;> try assumption
  case hand =>
    cases hh : l.hand <;>
      simp only [hh, Hand.Fits, Ledger.giveBack, Function.update_apply] at hfits ⊢ <;> grind
  all_goals simp only [Function.update_apply, Ledger.giveBack]
  all_goals grind

lemma fetch (h : Inv l) {p : Ptr} {queue : List Ptr} (hhand : l.hand = .free)
    (hqueue : l.queue = p :: queue) :
    Inv { l with
      queue := queue
      stage := Function.update l.stage p.submission .executing
      hand := .working p } := by
  obtain ⟨hslot, hstage⟩ := h.queue p (by simp [hqueue])
  -- the pointer is not in the queue a second time
  have honce : p ∉ queue := by
    have := h.nodup
    rw [hqueue, List.nodup_cons] at this
    exact this.1
  cases h
  constructor <;> try assumption
  case hand => exact ⟨hslot, by simp⟩
  all_goals simp only [Function.update_apply]
  all_goals grind

lemma finish (h : Inv l) {p : Ptr} (hhand : l.hand = .working p) :
    Inv { l with
      stage := Function.update l.stage p.submission .completed
      hand := .finished p
      log := .executed p.submission :: l.log } := by
  have hfits := h.hand
  rw [hhand] at hfits
  obtain ⟨hslot, hstage⟩ := hfits
  cases h
  constructor <;> try assumption
  case hand => exact ⟨hslot, Or.inl (by simp)⟩
  all_goals simp only [Function.update_apply]
  all_goals grind

lemma leave (h : Inv l) {p : Ptr} (hhand : l.hand = .finished p)
    (hagents : l.byWorker p.submission = false) : Inv { l with hand := .free } := by
  cases h
  constructor <;> try assumption
  case hand => trivial
  all_goals grind

lemma keep (h : Inv l) {p : Ptr} (hhand : l.hand = .finished p)
    (hworker : l.byWorker p.submission = true) : Inv { l with hand := .calling p } := by
  have hfits := h.hand
  rw [hhand] at hfits
  have hstage : l.stage p.submission = .completed := by
    rcases hfits.2 with hstage | ⟨-, hagents⟩
    · exact hstage
    · rw [hagents] at hworker
      cases hworker
  cases h
  constructor <;> try assumption
  case hand => exact ⟨hfits.1, hstage, hworker⟩
  all_goals grind

lemma call (h : Inv l) {p : Ptr} (hhand : l.hand = .calling p) :
    Inv { l with
      stage := Function.update l.stage p.submission .called
      hand := .after p
      log := .called p.submission :: l.log } := by
  have hfits := h.hand
  rw [hhand] at hfits
  obtain ⟨hslot, hstage, hworker⟩ := hfits
  cases h
  constructor <;> try assumption
  case hand => exact ⟨hslot, by simp⟩
  all_goals simp only [Function.update_apply]
  all_goals grind

lemma workerRelease (h : Inv l) {p : Ptr} (hhand : l.hand = .after p) :
    Inv { l.giveBack p with hand := .free } := by
  have hfits := h.hand
  rw [hhand] at hfits
  obtain ⟨hslot, hstage⟩ := hfits
  have hworker := (h.called _ hstage).1
  cases h
  constructor <;> try assumption
  case hand => trivial
  all_goals simp only [Function.update_apply, Ledger.giveBack]
  all_goals grind

lemma die (h : Inv l) : Inv { l with hand := .dead } := by
  cases h
  constructor <;> try assumption
  case hand => trivial
  all_goals grind

variable [DecidableEq ι]

/-- **The step lemma.**  Every move keeps the invariant. -/
theorem step {l' : Ledger ι} (h : Inv l) (hs : Step l l') : Inv l' := by
  cases hs with
  | take a i w hrole hfree => exact h.take w hfree
  | post a p hrole => exact h.post hrole
  | ret a p hrole => exact h.ret hrole
  | ask a p hrole hheld => exact h.ask hheld
  | tell a p hrole htrue => exact h.tell hrole htrue
  | agentRelease p hheld hreported => exact h.agentRelease hheld hreported
  | fetch p queue hhand hqueue => exact h.fetch hhand hqueue
  | finish p hhand => exact h.finish hhand
  | leave p hhand hagents => exact h.leave hhand hagents
  | keep p hhand hworker => exact h.keep hhand hworker
  | call p hhand => exact h.call hhand
  | workerRelease p hhand => exact h.workerRelease hhand
  | die => exact h.die

/-- A move, or none, keeps the invariant. -/
lemma reflGen {l' : Ledger ι} (h : Inv l) (hs : Relation.ReflGen Step l l') : Inv l' := by
  cases hs with
  | refl => exact h
  | single hs => exact h.step hs

/-- **The run lemma.**  The invariant holds after any number of moves. -/
theorem run {l₀ : Ledger ι} (h₀ : l₀.Initial) (h : Relation.ReflTransGen Step l₀ l) : Inv l := by
  induction h with
  | refl => exact .of_initial h₀
  | tail _ hs ih => exact ih.step hs

/-- **Progress in order.**  A move takes a submission to a stage that follows its own, or leaves
it where it is. -/
theorem next_of_step {l' : Ledger ι} (h : Inv l) (hs : Step l l') (g : ℕ) :
    l'.stage g = l.stage g ∨ (l.stage g).Next (l'.stage g) := by
  have moved {p : Ptr} {st st' : Stage} (hst : l.stage p.submission = st) (hnext : st.Next st')
      (hl' : l'.stage = Function.update l.stage p.submission st') :
      l'.stage g = l.stage g ∨ (l.stage g).Next (l'.stage g) := by
    by_cases hg : g = p.submission
    · subst hg
      rw [hl', Function.update_self, hst]
      exact Or.inr hnext
    · exact Or.inl (by rw [hl', Function.update_of_ne hg])
  have hfits := h.hand
  cases hs with
  | take a i w _ _ =>
    exact @moved ⟨i, l.next⟩ _ _ ((h.born _).mpr (Nat.le_refl _)) .taken rfl
  | post a p hrole => exact moved (h.building a p hrole).2.1 .posted rfl
  | agentRelease p hheld hreported =>
    exact moved (h.told p hheld hreported) .releasedByAgent rfl
  | fetch p queue _ hqueue => exact moved (h.queue p (by simp [hqueue])).2 .fetched rfl
  | finish p hhand =>
    rw [hhand] at hfits
    exact moved hfits.2 .finished rfl
  | call p hhand =>
    rw [hhand] at hfits
    exact moved hfits.2.1 .called rfl
  | workerRelease p hhand =>
    rw [hhand] at hfits
    exact moved hfits.2 .releasedByWorker rfl
  | ret | ask | tell | leave | keep | die => exact Or.inl rfl

/-- Agents begin to ask about what the agents have. -/
lemma asking_of_step {l' : Ledger ι} (hs : Step l l') {a : ι} {p : Ptr}
    (h : l'.role a = .asking p) : l.role a = .asking p ∨ p ∈ l.held := by
  have moved {b : ι} {r : Role} (hr : r ≠ .asking p)
      (hb : Function.update l.role b r a = .asking p) : l.role a = .asking p := by
    by_cases he : a = b
    · subst he
      exact absurd ((Function.update_self _ _ _).symm.trans hb) hr
    · exact (Function.update_of_ne he _ _).symm.trans hb
  cases hs with
  | take | post | ret | tell => exact Or.inl (moved (by simp) h)
  | ask b q _ hheld =>
    by_cases hq : q = p
    · exact Or.inr (hq ▸ hheld)
    · exact Or.inl (moved (by simpa using hq) h)
  | agentRelease | fetch | finish | leave | keep | call | workerRelease | die => exact Or.inl h

/-! ### What follows from the invariant -/

omit [DecidableEq ι]

/-- Two submissions that have a slot do not share it. -/
lemma slot_inj (h : Inv l) {g g' : ℕ} (hg : (l.stage g).isLive = true)
    (hg' : (l.stage g').isLive = true) (he : l.slotOf g = l.slotOf g') : g = g' := by
  rw [← (h.lives g hg).2, ← (h.lives g' hg').2, he]

/-- The agents hold submissions that have a slot. -/
lemma live_of_held (h : Inv l) {p : Ptr} (hp : p ∈ l.held) :
    (l.stage p.submission).isLive = true := by
  obtain ⟨-, -, hreleased, hreturned⟩ := h.held p hp
  exact Stage.isLive_of_isPosted (h.returned _ hreturned).1 hreleased

end Inv

end Handoff
