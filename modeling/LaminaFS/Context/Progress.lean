/-
# How the processing thread gets on

Inversions of a step that several developments share: how the processing thread has come to
execute something, which step records something that is done for a submission, and how the
stage of a submission moves on.
-/
import LaminaFS.Context.Refinement

namespace LaminaFS

open Transition

variable {D W : Type} {cfg : Config D W} {s s' : State D W} {g : ℕ} {act : Action}

/-! ### The processing thread -/

lemma exec_of_wake {pc : ProcPc D W} {p : ItemPtr} {e : ExecPc D W} (h : pc.wake = .exec p e) :
    pc = .exec p e := by
  cases pc <;> first | exact h | cases h

/-- How the processing thread has come to execute something. -/
inductive ComesTo (s s' : State D W) (act : Action) (p : ItemPtr) (e : ExecPc D W) : Prop
  /-- it has popped the item -/
  | fetched (hact : act = .proc) (hpc : s.proc = .pop) (he : e = .dispatch)
      (hstage : s'.stage p.submission = .executing) (hqueue : some p ∈ s.ring.contents)
  /-- it has taken a step in the execution -/
  | continued (q : ItemPtr) (e' : ExecPc D W) (hact : act = .proc) (hpc : s.proc = .exec q e')
      (hs : execStep s q e' = some s')
  /-- another thread has acted -/
  | stayed (hact : act ≠ .proc) (hpc : s.proc = .exec p e)

lemma comesTo {p : ItemPtr} {e : ExecPc D W} (hring : s.ring.WF)
    (hs : step cfg s act = some s') (hpc' : s'.proc = .exec p e) : ComesTo s s' act p e := by
  by_cases hact : act = .proc
  · subst hact
    cases procMove (show procStep s = some s' from hs) with
    | fetches q ring hpc hpop =>
      cases hpc'
      refine .fetched rfl hpc rfl (Function.update_self _ _ _) ?_
      rw [RingBuffer.contents_of_pop_some hring hpop]
      exact List.mem_cons_self
    | executes q e' hpc hs => exact .continued q e' rfl hpc hs
    | _ => cases hpc'
  · rcases step_proc hs hact with hp | hp | ⟨-, hp⟩ | ⟨q, -, -, hp⟩ <;> rw [hp] at hpc'
    · exact .stayed hact hpc'
    · exact .stayed hact (exec_of_wake hpc')
    · cases hpc'
    · cases hpc'

/-! ### The record -/

/-- The submission that the processing thread works for. -/
def Event.worksFor : Event → Option ℕ
  | .searched g _ _ | .deviceCall g _ _ _ => some g
  | _ => none

/-- What a step records. -/
inductive LogStep (s s' : State D W) (act : Action) : Prop
  | same (hlog : s'.log = s.log)
  /-- nothing that is done for a submission; that it has been executed is recorded when it is
  complete -/
  | other (ev : Event) (hlog : s'.log = ev :: s.log) (hworks : ev.worksFor = none)
      (hexecuted : ∀ g, ev = .executed g → ∃ p, s.proc = .complete p ∧ p.submission = g)
  /-- the processing thread executes an item -/
  | exec (p : ItemPtr) (e : ExecPc D W) (hact : act = .proc) (hpc : s.proc = .exec p e)
      (hs : execStep s p e = some s')

lemma step_log (hs : step cfg s act = some s') : LogStep s s' act := by
  rcases step_event hs with hlog | ⟨ev, hlog, hrecords⟩
  · exact .same hlog
  · cases hrecords with
    | searched p e op path hpc | deviceCall p e handle prefixStr call hpc =>
      simp only [step, procStep, hpc] at hs
      exact .exec p e rfl hpc hs
    | executed p hpc => exact .other _ hlog rfl fun g hg => ⟨p, hpc, by cases hg; rfl⟩
    | _ => exact .other _ hlog rfl fun g hg => by cases hg

/-! ### The stages and the items -/

/-- The item that the call asks for. -/
def State.item (cfg : Config D W) (s : State D W) (g : ℕ) : WorkItem :=
  (s.tickets g).call.item cfg.contextAlloc

lemma item_of_tickets (h : s'.tickets g = s.tickets g) : s'.item cfg g = s.item cfg g := by
  rw [State.item, h, State.item]

namespace Accounted

/-- The stages go on. -/
lemma stage_next (hk : Accounted cfg s) (hok : TestsOwn s act)
    (hs : LaminaFS.step cfg s act = some s') (g : ℕ) :
    s'.stage g = s.stage g ∨ (s.stage g).Next (s'.stage g) := by
  rcases (Relation.reflGen_iff _ _ _).mp (hk.own.moves hk.ledger hk.control hok hs) with
    hsame | hmove
  · exact Or.inl (congrFun (congrArg Handoff.Ledger.stage hsame) g)
  · exact hk.ledger.next_of_step hmove g

/-- What the processing thread has in its hand. -/
lemma executing_hand (hk : Accounted cfg s) {p : ItemPtr} {e : ExecPc D W}
    (hpc : s.proc = .exec p e) :
    p.slot = (s.tickets p.submission).slot ∧ s.stage p.submission = .executing := by
  have hfits := fits_of_hand hk.ledger (show s.proc.hand = .working p by rw [hpc]; rfl)
  exact hfits

/-- What is executed is in its slot. -/
lemma executing_posted (hk : Accounted cfg s) {p : ItemPtr} {e : ExecPc D W}
    (hpc : s.proc = .exec p e) :
    s.slots p.slot = s.record p.submission ∧ s.Posted p.submission := by
  obtain ⟨hslot, hst⟩ := hk.executing_hand hpc
  exact ⟨congrArg s.slots hslot, by rw [hst]; rfl,
    OwnInv.occupies_of_live hk.ledger (by rw [hst]; rfl)⟩

end Accounted

end LaminaFS
