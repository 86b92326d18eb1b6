/-
# A context whose devices are recorded

The context with the recorded device types does step for step what the context does, looked at
without the record.  So a run of the one is a run of the other, and what the record says about
every run is true of the context.
-/
import LaminaFS.Context.Control
import LaminaFS.Device.Tracked

namespace LaminaFS

open Transition

variable {D W : Type}

/-! ### Without the record -/

/-- The mounts in the local variables of the processing thread. -/
def ExecPc.mounts : ExecPc D W → List (MountInfo D W)
  | .scanNext _ _ _ rest | .scanMutable _ _ _ rest => rest
  | .callLookup _ mount _ | .unlockShared _ (some (mount, _)) | .modeSwitch mount _
  | .callMutable _ _ mount _ => [mount]
  | .dispatch | .findNext .. | .findMutable _ | .lockShared .. | .unlockShared _ none => []

def ProcPc.mounts : ProcPc D W → List (MountInfo D W)
  | .exec _ e => e.mounts
  | _ => []

/-- The mounts in the local variables of the control thread. -/
def ControlPc.mounts : ControlPc D W → List (MountInfo D W)
  | .destroyDevice mount | .lockCreate mount | .pushBack mount => [mount]
  | .destroyAll rest => rest
  | _ => []

def ExecPc.untracked : ExecPc (Tracked D) (Watched W) → ExecPc D W
  | .dispatch => .dispatch
  | .findNext l searchStart => .findNext l searchStart
  | .scanNext l path onlyAfter rest =>
    .scanNext l path onlyAfter (rest.map MountInfo.untracked)
  | .callLookup l mount devicePath => .callLookup l mount.untracked devicePath
  | .findMutable m => .findMutable m
  | .lockShared m op path => .lockShared m op path
  | .scanMutable m op path rest => .scanMutable m op path (rest.map MountInfo.untracked)
  | .unlockShared m found =>
    .unlockShared m (found.map fun f => (f.1.untracked, f.2))
  | .modeSwitch mount devicePath => .modeSwitch mount.untracked devicePath
  | .callMutable m mode mount devicePath => .callMutable m mode mount.untracked devicePath

def ProcPc.untracked : ProcPc (Tracked D) (Watched W) → ProcPc D W
  | .top => .top
  | .pop => .pop
  | .semTest => .semTest
  | .semSleep => .semSleep
  | .exec p e => .exec p e.untracked
  | .complete p => .complete p
  | .testCallback p => .testCallback p
  | .invoke p => .invoke p
  | .inCallback p => .inCallback p
  | .testAction p => .testAction p
  | .freeBuffer p => .freeBuffer p
  | .release p => .release p
  | .notifyAll => .notifyAll
  | .exited => .exited
  | .crashed => .crashed

def ControlPc.untracked : ControlPc (Tracked D) (Watched W) → ControlPc D W
  | .idle => .idle
  | .stop k => .stop k
  | .stopNotify k => .stopNotify k
  | .stopNotifyOne k => .stopNotifyOne k
  | .join k => .join k
  | .lockTable k => .lockTable k
  | .find handle => .find handle
  | .destroyDevice mount => .destroyDevice mount.untracked
  | .erase handle => .erase handle
  | .unlockRelease => .unlockRelease
  | .start => .start
  | .destroyAll rest => .destroyAll (rest.map MountInfo.untracked)
  | .unlockDestroy => .unlockDestroy
  | .destroyed => .destroyed
  | .make args handle => .make args handle
  | .lockCreate mount => .lockCreate mount.untracked
  | .pushBack mount => .pushBack mount.untracked
  | .unlockCreate => .unlockCreate

namespace State

/-- The state without the record. -/
def untracked (s : State (Tracked D) (Watched W)) : State D W :=
  { s with
    proc := s.proc.untracked
    control := s.control.untracked
    mounts := s.mounts.map MountInfo.untracked
    world := s.world.world }

/-- All mounts that there are are those of recorded devices. -/
structure IsTracked (s : State (Tracked D) (Watched W)) : Prop where
  table : ∀ m ∈ s.mounts, m.IsTracked
  proc : ∀ m ∈ s.proc.mounts, m.IsTracked
  control : ∀ m ∈ s.control.mounts, m.IsTracked

end State

/-- The context with the recorded device types. -/
def Config.tracked (cfg : Config D W) : Config (Tracked D) (Watched W) :=
  ⟨cfg.interfaces.mapIdx DeviceInterface.tracked, cfg.contextAlloc⟩

/-! ### The threads -/

variable {cfg : Config D W} {s s' : State (Tracked D) (Watched W)} {a : Agent} {act : Action}

lemma untracked_wake (pc : ProcPc (Tracked D) (Watched W)) :
    pc.untracked.wake = pc.wake.untracked := by
  cases pc <;> rfl

lemma untracked_isInCallback (pc : ProcPc (Tracked D) (Watched W)) :
    pc.untracked.isInCallback = pc.isInCallback := by
  cases pc <;> rfl

lemma untracked_acts : s.untracked.acts a = s.acts a := by
  have hcontrol : s.control.untracked.isDestroyed = s.control.isDestroyed := by
    cases s.control <;> rfl
  simp only [State.acts, State.untracked, untracked_isInCallback, hcontrol]

lemma untracked_isCallbackItem {p : ItemPtr} :
    s.untracked.isCallbackItem a p = s.isCallbackItem a p := by
  cases a with
  | client t => rfl
  | callback =>
    simp only [State.isCallbackItem, State.untracked]
    cases s.proc <;> rfl

lemma clientStep_untracked (act : ClientAct) :
    clientStep s.untracked a act = (clientStep s a act).map State.untracked := by
  cases act with
  | submit c => rfl
  | check p | wait p | release p =>
    simp only [clientStep, apply_ite (Option.map State.untracked)]
    rfl
  | freeBuffer p =>
    simp only [clientStep, untracked_isCallbackItem, apply_ite (Option.map State.untracked)]
    rfl

lemma agentStep_untracked :
    agentStep cfg s.untracked a = (agentStep cfg.tracked s a).map State.untracked := by
  have hagents : s.untracked.agents = s.agents := rfl
  cases hpc : s.agents a with
  | notifyOne c p =>
    simp only [agentStep, hpc, State.untracked, untracked_wake]
    rfl
  | store c p todo | late c p todo =>
    cases todo <;> simp only [agentStep, hagents, hpc] <;> rfl
  | alloc c =>
    have hpool : s.untracked.pool = s.pool := rfl
    simp only [agentStep, hagents, hpc, hpool]
    rcases s.pool.alloc with ⟨_ | i, pool⟩ <;> rfl
  | pushTest c p | pushLock c p | waitTest p =>
    simp only [agentStep, hagents, hpc, apply_ite (Option.map State.untracked)]
    rfl
  | idle | construct c p | notify c p | failed c | blocked p | crashed =>
    simp only [agentStep, hagents, hpc]
    rfl

lemma execStep_untracked (ht : s.IsTracked) {p : ItemPtr} {e : ExecPc (Tracked D) (Watched W)}
    (hpc : s.proc = .exec p e) :
    execStep s.untracked p e.untracked = (execStep s p e).map State.untracked := by
  have hheld : ∀ m ∈ e.mounts, m.IsTracked := fun m hm => ht.proc m (by rw [hpc]; exact hm)
  have hslots : s.untracked.slots = s.slots := rfl
  have hworld : s.untracked.world = s.world.world := rfl
  cases e with
  | dispatch =>
    simp only [execStep, ExecPc.untracked, hslots]
    rcases (s.slots p.slot).dispatch with ⟨item, l | m⟩ <;> rfl
  | findNext l searchStart =>
    simp only [execStep, ExecPc.untracked]
    simp only [State.untracked, ← List.map_reverse]
    rfl
  | scanNext l path onlyAfter rest =>
    cases rest with
    | nil => rfl
    | cons mount rest =>
      have hvisit : visitNext path onlyAfter mount.untracked =
        visitNext path onlyAfter mount := rfl
      simp only [execStep, ExecPc.untracked, List.map_cons, hvisit]
      cases visitNext path onlyAfter mount <;> rfl
  | callLookup l mount devicePath =>
    have hm := hheld mount (List.mem_singleton_self _)
    have hblock : s.untracked.nextBlock = s.nextBlock := rfl
    simp only [execStep, ExecPc.untracked, callLookup_tracked hm, hslots, hworld, hblock]
    rcases callLookup l mount.untracked devicePath s.nextBlock (s.slots p.slot) s.world.world
      with ⟨item, world, _ | _, called⟩ <;> rfl
  | findMutable m => rfl
  | lockShared m op path =>
    simp only [execStep, ExecPc.untracked, apply_ite (Option.map State.untracked)]
    simp only [State.untracked, ← List.map_reverse]
    rfl
  | scanMutable m op path rest =>
    cases rest with
    | nil => rfl
    | cons mount rest =>
      have hvisit : visitMutable path op mount.untracked = visitMutable path op mount := rfl
      simp only [execStep, ExecPc.untracked, List.map_cons, hvisit]
      cases visitMutable path op mount <;> rfl
  | unlockShared m found =>
    cases found with
    | none => rfl
    | some found => cases m <;> rfl
  | modeSwitch mount devicePath => rfl
  | callMutable m mode mount devicePath =>
    have hm := hheld mount (List.mem_singleton_self _)
    have hnull := @callMutable_null _ _ (s.slots p.slot) mount.untracked m mode devicePath
      s.world.world
    simp only [execStep, ExecPc.untracked, callMutable_tracked hm, hslots, hworld]
    revert hnull
    rcases callMutable m mode mount.untracked devicePath (s.slots p.slot) s.world.world
      with ⟨item, world, _ | _, called⟩ <;> intro hnull
    · rfl
    · obtain rfl := hnull rfl
      rfl

lemma procStep_untracked (ht : s.IsTracked) :
    procStep s.untracked = (procStep s).map State.untracked := by
  have hproc : s.untracked.proc = s.proc.untracked := rfl
  cases hpc : s.proc with
  | exec p e =>
    simp only [procStep, hproc, hpc, ProcPc.untracked]
    exact execStep_untracked ht hpc
  | pop =>
    have hring : s.untracked.ring = s.ring := rfl
    simp only [procStep, hproc, hpc, ProcPc.untracked, hring]
    rcases s.ring.pop none with ⟨_ | p, ring⟩ <;> rfl
  | top =>
    have hprocessing : s.untracked.processing = s.processing := rfl
    simp only [procStep, hproc, hpc, ProcPc.untracked, hprocessing]
    cases s.processing <;> rfl
  | testCallback p | testAction p | freeBuffer p =>
    simp only [procStep, hproc, hpc, ProcPc.untracked, Option.map_some, Option.some.injEq]
    simp only [State.untracked, apply_ite ProcPc.untracked]
    rfl
  | semTest | invoke p =>
    simp only [procStep, hproc, hpc, ProcPc.untracked, apply_ite (Option.map State.untracked)]
    rfl
  | semSleep | complete p | inCallback p | release p | notifyAll | exited | crashed =>
    simp only [procStep, hproc, hpc, ProcPc.untracked]
    rfl

lemma controlActStep_untracked (act : ControlAct) :
    controlActStep s.untracked act = (controlActStep s act).map State.untracked := by
  cases act with
  | createMount args handle =>
    have hhandles : s.untracked.mounts.map MountInfo.handle = s.mounts.map MountInfo.handle := by
      show (s.mounts.map MountInfo.untracked).map _ = _
      rw [List.map_map]
      rfl
    simp only [controlActStep, hhandles, apply_ite (Option.map State.untracked)]
    rfl
  | releaseMount handle | destroy => rfl

lemma controlStep_untracked (ht : s.IsTracked) :
    controlStep cfg s.untracked = (controlStep cfg.tracked s).map State.untracked := by
  have hcontrol : s.untracked.control = s.control.untracked := rfl
  have hmounts : s.untracked.mounts = s.mounts.map MountInfo.untracked := rfl
  have hworld : s.untracked.world = s.world.world := rfl
  cases hc : s.control with
  | join k =>
    have hproc : s.untracked.proc = s.proc.untracked := rfl
    simp only [controlStep, hcontrol, hc, ControlPc.untracked, hproc]
    cases s.proc <;> rfl
  | lockTable k =>
    simp only [controlStep, hcontrol, hc, ControlPc.untracked,
      apply_ite (Option.map State.untracked)]
    cases k <;> rfl
  | find handle =>
    simp only [controlStep, hcontrol, hc, ControlPc.untracked, hmounts, List.find?_map]
    show some _ = some _
    have hsame : (s.mounts.find? fun m => m.handle == handle) =
        s.mounts.find? ((fun m => m.handle == handle) ∘ MountInfo.untracked) := rfl
    rw [hsame]
    cases s.mounts.find? ((fun m => m.handle == handle) ∘ MountInfo.untracked) <;> rfl
  | destroyDevice mount =>
    have hm := ht.control mount (by rw [hc]; exact List.mem_singleton_self _)
    simp only [controlStep, hcontrol, hc, ControlPc.untracked, hworld, destroy_tracked hm]
    rfl
  | destroyAll rest =>
    cases rest with
    | nil =>
      simp only [controlStep, hcontrol, hc, ControlPc.untracked, List.map_nil]
      rfl
    | cons mount rest =>
      have hm := ht.control mount (by rw [hc]; exact List.mem_cons_self)
      simp only [controlStep, hcontrol, hc, ControlPc.untracked, List.map_cons, hworld,
        destroy_tracked hm]
      rfl
  | erase handle =>
    simp only [controlStep, hcontrol, hc, ControlPc.untracked, hmounts, List.eraseP_map]
    rfl
  | pushBack mount =>
    simp only [controlStep, hc, ControlPc.untracked, State.untracked, Option.map_some,
      List.map_append]
    rfl
  | make args handle =>
    have hinterfaces : cfg.tracked.interfaces =
        cfg.interfaces.mapIdx DeviceInterface.tracked := rfl
    simp only [controlStep, hcontrol, hc, ControlPc.untracked, hworld, hinterfaces,
      makeMount_tracked cfg.interfaces args handle s.world]
    rcases makeMount (cfg.interfaces.mapIdx DeviceInterface.tracked) args handle s.world
      with ⟨⟨code, _ | mount⟩, w⟩ <;> rfl
  | stopNotifyOne k =>
    simp only [controlStep, hc, State.untracked, ControlPc.untracked, untracked_wake]
    rfl
  | stop k | start | lockCreate mount =>
    simp only [controlStep, hcontrol, hc, ControlPc.untracked,
      apply_ite (Option.map State.untracked)]
    rfl
  | idle | stopNotify k | unlockRelease | unlockDestroy | destroyed | unlockCreate =>
    simp only [controlStep, hcontrol, hc, ControlPc.untracked]
    rfl

/-- **The record cannot be seen.**  A step of the context with recorded devices is, without the
record, the same step of the context. -/
theorem step_untracked (ht : s.IsTracked) :
    step cfg s.untracked act = (step cfg.tracked s act).map State.untracked := by
  cases act with
  | client a act =>
    simp only [step, untracked_acts, clientStep_untracked,
      apply_ite (Option.map State.untracked)]
    rfl
  | agent a => exact agentStep_untracked
  | proc => exact procStep_untracked ht
  | control => exact controlStep_untracked ht
  | controlAct act =>
    have hidle : s.untracked.control.isIdle = s.control.isIdle := by
      show s.control.untracked.isIdle = _
      cases s.control <;> rfl
    simp only [step, hidle, controlActStep_untracked, apply_ite (Option.map State.untracked)]
    rfl
  | callbackReturns =>
    have hproc : s.untracked.proc = s.proc.untracked := rfl
    simp only [step, hproc]
    cases s.proc with
    | inCallback p =>
      simp only [ProcPc.untracked, apply_ite (Option.map State.untracked)]
      rfl
    | _ => rfl
  | wakeProc =>
    simp only [step, State.untracked, untracked_wake]
    rfl
  | wakeAgent a => rfl

end LaminaFS
