/-
# The control thread and the processing thread

`_processing` is set exactly while the control thread is neither stopping the processing
thread nor behind the stop, and behind the join the processing thread has left its loop.
-/
import LaminaFS.Context.Frames
import LaminaFS.Lib.Transition

namespace LaminaFS

open Transition

variable {D W : Type} {cfg : Config D W} {s s' : State D W} {a : Agent}

/-- Where the control thread is with respect to the stop of the processing thread. -/
inductive Phase where
  | running
  | stopping
  | stopped
deriving DecidableEq, Repr

namespace ControlPc

/-- The phase of a program counter. -/
def phase : ControlPc D W → Phase
  | .idle | .stop _ | .make _ _ | .lockCreate _ | .pushBack _ | .unlockCreate => .running
  | .stopNotify _ | .stopNotifyOne _ | .join _ => .stopping
  | _ => .stopped

/-- The control thread holds `_mountLock`. -/
def holdsTable : ControlPc D W → Bool
  | .find _ | .destroyDevice _ | .erase _ | .unlockRelease | .destroyAll _ | .unlockDestroy
  | .pushBack _ | .unlockCreate => true
  | _ => false

end ControlPc

namespace ProcPc

/-- The processing thread has left its loop. -/
def isExited : ProcPc D W → Bool
  | .exited => true
  | _ => false

/-- The processing thread holds `_mountLock` shared. -/
def holdsShared : ProcPc D W → Bool
  | .exec _ (.scanMutable ..) | .exec _ (.unlockShared ..) => true
  | _ => false

@[simp] lemma isExited_wake (pc : ProcPc D W) : pc.wake.isExited = pc.isExited := by
  cases pc <;> rfl

@[simp] lemma holdsShared_wake (pc : ProcPc D W) : pc.wake.holdsShared = pc.holdsShared := by
  cases pc <;> rfl

lemma isExited_iff {pc : ProcPc D W} : pc.isExited = true ↔ pc = .exited := by
  cases pc <;> simp [isExited]

end ProcPc

/-- Where the processing thread can be after a step of an execution. -/
lemma execStep_proc {p : ItemPtr} {e : ExecPc D W} (h : execStep s p e = some s') :
    s'.proc = .complete p ∨ s'.proc = .crashed ∨ ∃ e', s'.proc = .exec p e' := by
  cases execMove h with
  | findsNoNext | unlocksNone => exact Or.inl rfl
  | callsLookup | callsMutable =>
    dsimp only
    split <;> simp
  | _ => exact Or.inr (Or.inr ⟨_, rfl⟩)

/-- Where the processing thread can go in one step. -/
inductive ProcPc.Goes : ProcPc D W → ProcPc D W → Prop
  | enter : Goes .top .pop
  | leave : Goes .top .exited
  | fetch (p : ItemPtr) : Goes .pop (.exec p .dispatch)
  | empty : Goes .pop .semTest
  | sleep : Goes .semTest .semSleep
  | taken : Goes .semTest .top
  | exec (p : ItemPtr) (e e' : ExecPc D W) : Goes (.exec p e) (.exec p e')
  | executed (p : ItemPtr) (e : ExecPc D W) : Goes (.exec p e) (.complete p)
  | nullDevice (p : ItemPtr) (e : ExecPc D W) : Goes (.exec p e) .crashed
  | complete (p : ItemPtr) : Goes (.complete p) (.testCallback p)
  | callback (p : ItemPtr) : Goes (.testCallback p) (.invoke p)
  | noCallback (p : ItemPtr) : Goes (.testCallback p) .notifyAll
  | invoke (p : ItemPtr) : Goes (.invoke p) (.inCallback p)
  | nullCallback (p : ItemPtr) : Goes (.invoke p) .crashed
  | free (p : ItemPtr) : Goes (.testAction p) (.freeBuffer p)
  | keep (p : ItemPtr) : Goes (.testAction p) (.release p)
  | freed (p : ItemPtr) : Goes (.freeBuffer p) (.release p)
  | nullFree (p : ItemPtr) : Goes (.freeBuffer p) .crashed
  | released (p : ItemPtr) : Goes (.release p) .top
  | notified : Goes .notifyAll .top

lemma procStep_goes (hs : procStep s = some s') : s.proc.Goes s'.proc := by
  cases procMove hs with
  | executes p e hpc hs =>
    rw [hpc]
    rcases execStep_proc hs with hp | hp | ⟨e', hp⟩ <;> rw [hp]
    · exact .executed p e
    · exact .nullDevice p e
    · exact .exec p e e'
  | _ =>
    rw [‹s.proc = _›]
    constructor

/-- The invariant of starting and stopping. -/
structure ControlInv (s : State D W) : Prop where
  processing : s.processing = true ↔ s.control.phase = .running
  stopped : s.control.phase = .stopped → s.proc.isExited = true
  exited : s.proc.isExited = true → s.processing = false

namespace ControlInv

/-- Steps that leave `_processing` and the control thread alone, and leave the loop only when
it has been left. -/
lemma frame (h : ControlInv s) (hp : s'.processing = s.processing)
    (hc : s'.control = s.control) (he : s'.proc.isExited = s.proc.isExited) :
    ControlInv s' := by
  constructor
  · rw [hp, hc]
    exact h.processing
  · rw [hc, he]
    exact h.stopped
  · rw [he, hp]
    exact h.exited

lemma procStep (h : ControlInv s) (hs : procStep s = some s') : ControlInv s' := by
  -- behind the stop the thread takes no step
  have stay (hpc : s.proc.isExited = false) (hp : s'.processing = s.processing)
      (hc : s'.control = s.control) (hpc' : s'.proc.isExited = false) : ControlInv s' :=
    h.frame hp hc (hpc'.trans hpc.symm)
  cases procMove hs with
  | exits hpc hprocessing =>
    refine ⟨h.processing, fun hc => ?_, fun _ => hprocessing⟩
    have hexited := h.stopped hc
    rw [hpc] at hexited
    cases hexited
  | executes p e hpc hs =>
    have hf := execStep_frame hs
    refine stay (by rw [hpc]; rfl) hf.processing hf.control ?_
    rcases execStep_proc hs with h' | h' | ⟨e', h'⟩ <;> rw [h'] <;> rfl
  | _ => exact stay (by rw [‹s.proc = _›]; rfl) rfl rfl rfl

lemma controlStep (h : ControlInv s) (hs : controlStep cfg s = some s') : ControlInv s' := by
  obtain ⟨hproc, hstop, hexit⟩ := h
  cases controlMove hs with
  | stops k hpc hprocessing =>
    exact ⟨by simp [ControlPc.phase], fun hc => (by cases hc), fun _ => rfl⟩
  | starts hpc hprocessing =>
    exact ⟨by simp [ControlPc.phase], fun hc => (by cases hc), fun he => (by cases he)⟩
  | needNotStop k hpc hprocessing | needNotStart hpc hprocessing =>
    -- the flag tells where the control thread is
    rw [hpc, hprocessing] at hproc
    simp [ControlPc.phase] at hproc
  | joins k hpc hexited =>
    rw [hpc] at hproc
    exact ⟨by simpa [ControlPc.phase] using hproc,
      fun _ => ProcPc.isExited_iff.mpr hexited, hexit⟩
  | notifiesOne k hpc =>
    rw [hpc] at hproc
    rw [← ProcPc.isExited_wake] at hexit
    exact ⟨hproc, fun hc => (by cases hc), hexit⟩
  | _ =>
    rw [‹s.control = _›] at hproc hstop
    exact ⟨hproc, hstop, hexit⟩

/-- Every step keeps the invariant. -/
lemma step {act : Action} (h : ControlInv s) (hs : step cfg s act = some s') :
    ControlInv s' := by
  cases stepBy hs with
  | client a act _ hs =>
    have hf := clientStep_frame hs
    exact h.frame hf.processing hf.control (by rw [hf.proc])
  | agent a hs =>
    have hf := agentStep_frame hs
    refine h.frame hf.processing hf.control ?_
    rcases hf.proc with hp | hp <;> simp [hp]
  | proc hs => exact h.procStep hs
  | callbackReturns _ hpc _ => exact h.frame rfl rfl (by rw [hpc]; rfl)
  | controlAct act hidle hs =>
    obtain ⟨-, hp, hpr, -⟩ := controlActStep_frame hs
    have hrunning : s.control.phase = .running := by
      cases hc : s.control <;> rw [hc] at hidle <;> first | rfl | cases hidle
    have hrunning' : s'.control.phase = .running := by cases controlActMove hs <;> rfl
    refine ⟨?_, fun hc => ?_, ?_⟩
    · rw [hpr, hrunning', h.processing, hrunning]
    · rw [hrunning'] at hc
      cases hc
    · rw [hp, hpr]
      exact h.exited
  | control hs => exact h.controlStep hs
  | wakeProc => exact h.frame rfl rfl (by simp)
  | wakeAgent a => exact h.frame rfl rfl rfl

end ControlInv

/-- The processing thread that is started anew has left its loop. -/
lemma ControlInv.exited_of_start (h : ControlInv s) (hstart : s.control = .start) :
    s.proc = .exited :=
  ProcPc.isExited_iff.mp (h.stopped (by rw [hstart]; rfl))

/-- The invariant of starting and stopping holds in every reachable state. -/
lemma controlInv {ok : State D W → Action → Prop} {pool : PoolAllocator} {capacity : ℕ}
    {memory : ℕ → WorkItem} {world : W}
    (h : Reach (step cfg) ok (State.init pool capacity memory world) s) : ControlInv s :=
  h.invariant ⟨by simp [State.init, ControlPc.phase], by simp [State.init, ControlPc.phase],
    by simp [State.init, ProcPc.isExited]⟩ fun _ _ _ hi _ hs => hi.step hs

end LaminaFS
