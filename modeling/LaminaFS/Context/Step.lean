/-
# The steps of the threads

One step is what a thread does to the shared memory in one go: an assignment, a critical
section of `RingBuffer`, `PoolAllocator`, `Semaphore` or the completion mutex, a call of a
device function, the visit of one mount in a search.  `step` gives the state after a step, and
nothing if the thread cannot take it.
-/
import LaminaFS.Context.State

namespace LaminaFS

variable {D W : Type}

/-- What client code does next. -/
inductive ClientAct where
  /-- call a submission function -/
  | submit (c : Call)
  /-- `WorkItemCompleted` -/
  | check (p : ItemPtr)
  /-- `WaitForWorkItem` -/
  | wait (p : ItemPtr)
  /-- `WorkItemFreeBuffer` -/
  | freeBuffer (p : ItemPtr)
  /-- `releaseWorkItem` -/
  | release (p : ItemPtr)
deriving DecidableEq, Repr

/-- What the control thread does next. -/
inductive ControlAct where
  /-- `createMount`; the new record is put at `handle` -/
  | createMount (args : MountArgs) (handle : ℕ)
  | releaseMount (handle : ℕ)
  /-- `~FileContext` -/
  | destroy
deriving DecidableEq, Repr

/-- A choice of the scheduler. -/
inductive Action where
  /-- client code of an agent acts -/
  | client (a : Agent) (act : ClientAct)
  /-- the next step of the library function that an agent is in -/
  | agent (a : Agent)
  /-- the next step of the processing thread -/
  | proc
  /-- the client code of a callback returns -/
  | callbackReturns
  /-- the control thread begins something, or takes its next step -/
  | controlAct (act : ControlAct)
  | control
  /-- spurious wakeups -/
  | wakeProc
  | wakeAgent (a : Agent)
deriving DecidableEq, Repr

/-- A thread that sleeps on the condition variable of the semaphore wakes up. -/
def ProcPc.wake : ProcPc D W → ProcPc D W
  | .semSleep => .semTest
  | pc => pc

/-- A thread that sleeps on the completion condition variable wakes up. -/
def AgentPc.wake : AgentPc → AgentPc
  | .blocked p => .waitTest p
  | pc => pc

/-- The processing thread is in client code. -/
def ProcPc.isInCallback : ProcPc D W → Bool
  | .inCallback _ => true
  | _ => false

/-- The control thread is not in the context. -/
def ControlPc.isIdle : ControlPc D W → Bool
  | .idle => true
  | _ => false

/-- The destructor has returned. -/
def ControlPc.isDestroyed : ControlPc D W → Bool
  | .destroyed => true
  | _ => false

namespace State

variable (s : State D W)

/-- The agent is in client code, which runs, and the context is still there. -/
def acts (a : Agent) : Bool :=
  s.agents a == .idle && (a != .callback || s.proc.isInCallback) && !s.control.isDestroyed

/-- The client may use the item as a completed one: it has it, and has been told. -/
def owns (p : ItemPtr) : Bool := p ∈ s.held && p ∈ s.reported

/-- The item whose callback runs. -/
def isCallbackItem (a : Agent) (p : ItemPtr) : Bool :=
  match a, s.proc with
  | .callback, .inCallback q => p == q
  | _, _ => false

end State

/-! ### Client code -/

/-- What `WorkItemFreeBuffer` does to the item. -/
def freeBufferResult (s : State D W) (p : ItemPtr) : WorkItem.FreeBuffer :=
  (s.slots p.slot).freeBuffer.1

/-- The state after `WorkItemFreeBuffer`; what it did is recorded under the submission that the
slot belongs to. -/
def freeBufferStep (s : State D W) (p : ItemPtr) : State D W :=
  { s with
    slots := Function.update s.slots p.slot (s.slots p.slot).freeBuffer.2
    log := .freedBuffer (s.occupant p.slot) (freeBufferResult s p) :: s.log }

/-- `_workItemPool.free(item)`. -/
def releaseStep (s : State D W) (p : ItemPtr) (by_ : Releaser) : State D W :=
  { s with
    pool := s.pool.free (s.pool.address p.slot)
    stage := Function.update s.stage (s.occupant p.slot) .released
    log := .released (s.occupant p.slot) by_ :: s.log }

/-- Client code acts.  Clients ask about items that they have, and release an item, or free its
buffer, only after they have been told that it is complete. -/
def clientStep (s : State D W) (a : Agent) : ClientAct → Option (State D W)
  | .submit c => some { s with agents := Function.update s.agents a (.alloc c) }
  | .check p =>
    if p ∈ s.held then
      if (s.slots p.slot).callback.isSome || (s.slots p.slot).completed then
        some { s with reported := p :: s.reported }
      else some s
    else none
  | .wait p =>
    if p ∈ s.held then
      -- an item with a callback is not waited for
      if (s.slots p.slot).callback.isSome then some { s with reported := p :: s.reported }
      else some { s with agents := Function.update s.agents a (.waitTest p) }
    else none
  | .freeBuffer p =>
    if s.owns p || s.isCallbackItem a p then
      some { freeBufferStep s p with
        agents := Function.update s.agents a
          (if freeBufferResult s p = .nullFunction then .crashed else .idle) }
    else none
  | .release p =>
    if s.owns p then
      if (s.slots p.slot).callback.isSome then
        some { s with held := s.held.filter (· ≠ p) }
      else some { releaseStep s p .client with held := s.held.filter (· ≠ p) }
    else none

/-! ### Library functions called by clients -/

/-- The next step of the function that the agent is in. -/
def agentStep (cfg : Config D W) (s : State D W) (a : Agent) : Option (State D W) :=
  match s.agents a with
  | .idle => none
  | .alloc c =>
    match s.pool.alloc with
    | (none, _) => some { s with agents := Function.update s.agents a (.failed c) }
    | (some i, pool) =>
      some { s with
        agents := Function.update s.agents a (.construct c ⟨i, s.nextSubmission⟩)
        pool := pool
        nextSubmission := s.nextSubmission + 1
        tickets := Function.update s.tickets s.nextSubmission ⟨c, a, i⟩
        occupant := Function.update s.occupant i s.nextSubmission
        stage := Function.update s.stage s.nextSubmission .building }
  | .construct c p =>
    some { s with
      agents := Function.update s.agents a (.store c p (c.plan cfg.contextAlloc).stores)
      slots := Function.update s.slots p.slot .new }
  | .store c p [] => some { s with agents := Function.update s.agents a (.pushTest c p) }
  | .store c p (store :: todo) =>
    some { s with
      agents := Function.update s.agents a (.store c p todo)
      slots := Function.update s.slots p.slot (store.apply (s.slots p.slot)) }
  | .pushTest c p =>
    if s.ring.full then none
    else some { s with agents := Function.update s.agents a (.pushLock c p) }
  | .pushLock c p =>
    let r := s.ring.push (some p)
    if r.done then
      some { s with
        agents := Function.update s.agents a
          (if r.notify then .notify c p else .late c p (c.plan cfg.contextAlloc).late)
        ring := r.ring
        stage := Function.update s.stage p.submission .queued }
    else some { s with agents := Function.update s.agents a (.pushTest c p) }
  | .notify c p =>
    some { s with
      agents := Function.update s.agents a (.notifyOne c p)
      sem := (s.sem + 1) % 2 ^ 32 }
  | .notifyOne c p =>
    some { s with
      agents := Function.update s.agents a (.late c p (c.plan cfg.contextAlloc).late)
      proc := s.proc.wake }
  | .late c p [] =>
    some { s with
      agents := Function.update s.agents a .idle
      held := if (c.plan cfg.contextAlloc).returnsItem then p :: s.held else s.held
      returned := p.submission :: s.returned }
  | .late c p (store :: todo) =>
    some { s with
      agents := Function.update s.agents a (.late c p todo)
      slots := Function.update s.slots p.slot (store.apply (s.slots p.slot)) }
  | .failed c =>
    -- the item on the stack, its path and the callback are the agent's own affair
    some { s with
      agents := Function.update s.agents a .idle
      log := if (c.plan cfg.contextAlloc).callback.isSome then .errorCallback a c :: s.log
        else s.log }
  | .waitTest p =>
    if (s.slots p.slot).completed then
      some { s with
        agents := Function.update s.agents a .idle
        reported := p :: s.reported }
    else some { s with agents := Function.update s.agents a (.blocked p) }
  | .blocked _ => none
  | .crashed => none

/-! ### The processing thread -/

/-- The next step in the execution of an item. -/
def execStep (s : State D W) (p : ItemPtr) : ExecPc D W → Option (State D W)
  | .dispatch =>
    match (s.slots p.slot).dispatch with
    | (item, case) =>
      some { s with
        slots := Function.update s.slots p.slot item
        proc := .exec p (match case with
          | .lookup l => .findNext l none
          | .mutation m => .findMutable m) }
  | .findNext l searchStart =>
    let item := s.slots p.slot
    some { s with
      proc := .exec p (.scanNext l item.filename searchStart s.mounts.reverse)
      log := .searched p.submission item.operation item.filename :: s.log }
  | .scanNext _ _ _ [] => some { s with proc := .complete p }
  | .scanNext l path onlyAfter (mount :: rest) =>
    match visitNext path onlyAfter mount with
    | .next onlyAfter => some { s with proc := .exec p (.scanNext l path onlyAfter rest) }
    | .found devicePath => some { s with proc := .exec p (.callLookup l mount devicePath) }
  | .callLookup l mount devicePath =>
    let r := LaminaFS.callLookup l mount devicePath s.nextBlock (s.slots p.slot) s.world
    some { s with
      slots := Function.update s.slots p.slot r.item
      world := r.world
      nextBlock := s.nextBlock + 1
      blockOf := Function.update s.blockOf s.nextBlock
        (some (p.submission, (s.slots p.slot).allocator))
      proc := if r.stop then .complete p else .exec p (.findNext l (some mount.handle))
      log := .deviceCall p.submission mount.handle mount.prefixStr r.called.call :: s.log }
  | .findMutable m =>
    let item := s.slots p.slot
    some { s with
      proc := .exec p (.lockShared m item.operation item.filename)
      log := .searched p.submission item.operation item.filename :: s.log }
  | .lockShared m op path =>
    if s.lock = .free then
      some { s with
        lock := .shared
        proc := .exec p (.scanMutable m op path s.mounts.reverse) }
    else none
  | .scanMutable m _ _ [] => some { s with proc := .exec p (.unlockShared m none) }
  | .scanMutable m op path (mount :: rest) =>
    match visitMutable path op mount with
    | some devicePath =>
      some { s with proc := .exec p (.unlockShared m (some (mount, devicePath))) }
    | none => some { s with proc := .exec p (.scanMutable m op path rest) }
  | .unlockShared m none =>
    some { s with
      lock := .free
      slots := Function.update s.slots p.slot (noMutableMount m (s.slots p.slot))
      proc := .complete p }
  | .unlockShared m (some (mount, devicePath)) =>
    some { s with
      lock := .free
      proc := .exec p (match m with
        | .writeFile => .modeSwitch mount devicePath
        | m => .callMutable m .truncate mount devicePath) }
  | .modeSwitch mount devicePath =>
    some { s with
      proc := .exec p (.callMutable .writeFile (s.slots p.slot).writeMode mount devicePath) }
  | .callMutable m mode mount devicePath =>
    let r := LaminaFS.callMutable m mode mount devicePath (s.slots p.slot) s.world
    some { s with
      slots := Function.update s.slots p.slot r.item
      world := r.world
      proc := if r.nullFunction then .crashed else .complete p
      log := .deviceCall p.submission mount.handle mount.prefixStr r.called.call :: s.log }

/-- The next step of the processing thread. -/
def procStep (s : State D W) : Option (State D W) :=
  match s.proc with
  | .top => some { s with proc := if s.processing then .pop else .exited }
  | .pop =>
    match s.ring.pop none with
    | (some p, ring) =>
      some { s with
        ring := ring
        stage := Function.update s.stage p.submission .executing
        proc := .exec p .dispatch }
    | (none, ring) => some { s with ring := ring, proc := .semTest }
  | .semTest =>
    if s.sem = 0 then some { s with proc := .semSleep }
    else some { s with sem := s.sem - 1, proc := .top }
  | .semSleep => none
  | .exec p e => execStep s p e
  | .complete p =>
    some { s with
      slots := Function.update s.slots p.slot { s.slots p.slot with completed := true }
      stage := Function.update s.stage p.submission .completed
      proc := .testCallback p
      log := .executed p.submission :: s.log }
  | .testCallback p =>
    some { s with
      proc := if (s.slots p.slot).callback.isSome then .invoke p else .notifyAll }
  | .invoke p =>
    if (s.slots p.slot).callback.isSome then
      some { s with
        stage := Function.update s.stage (s.occupant p.slot) .called
        proc := .inCallback p
        log := .invoked (s.occupant p.slot) (s.slots p.slot).resultCode :: s.log }
    else some { s with proc := .crashed }
  | .inCallback _ => none
  | .testAction p =>
    some { s with
      proc := if (s.slots p.slot).callbackBufferAction = .freeBuffer then .freeBuffer p
        else .release p }
  | .freeBuffer p =>
    some { freeBufferStep s p with
      proc := if freeBufferResult s p = .nullFunction then .crashed else .release p }
  | .release p => some { releaseStep s p .processing with proc := .top }
  | .notifyAll => some { s with agents := fun a => (s.agents a).wake, proc := .top }
  | .exited => none
  | .crashed => none

/-! ### The control thread -/

/-- The control thread begins something. -/
def controlActStep (s : State D W) : ControlAct → Option (State D W)
  | .createMount args handle =>
    if handle ≠ 0 ∧ handle ∉ s.mounts.map MountInfo.handle then
      some { s with control := .make args handle }
    else none
  | .releaseMount handle =>
    some { s with control := .stop (.releaseMount handle), drain := s.returned }
  | .destroy => some { s with control := .stop .destroy, drain := s.returned }

/-- The next step of the control thread. -/
def controlStep (cfg : Config D W) (s : State D W) : Option (State D W) :=
  match s.control with
  | .idle => none
  | .stop k =>
    if s.processing then some { s with processing := false, control := .stopNotify k }
    else some { s with control := .lockTable k }
  | .stopNotify k =>
    some { s with sem := (s.sem + 1) % 2 ^ 32, control := .stopNotifyOne k }
  | .stopNotifyOne k => some { s with proc := s.proc.wake, control := .join k }
  | .join k =>
    match s.proc with
    | .exited => some { s with control := .lockTable k }
    | _ => none
  | .lockTable k =>
    if s.lock = .free then
      some { s with
        lock := .exclusive
        control := match k with
          | .releaseMount handle => .find handle
          | .destroy => .destroyAll s.mounts }
    else none
  | .find handle =>
    some { s with
      control := match s.mounts.find? fun m => m.handle == handle with
        | some mount => .destroyDevice mount
        | none => .unlockRelease }
  | .destroyDevice mount =>
    some { s with
      world := mount.interface.destroy mount.device s.world
      control := .erase mount.handle
      log := .destroyedDevice mount.handle :: s.log }
  | .erase handle =>
    some { s with
      mounts := s.mounts.eraseP fun m => m.handle == handle
      control := .unlockRelease }
  | .unlockRelease => some { s with lock := .free, control := .start }
  | .start =>
    if s.processing then some { s with control := .idle }
    else some { s with processing := true, proc := .top, control := .idle }
  | .destroyAll [] => some { s with control := .unlockDestroy }
  | .destroyAll (mount :: rest) =>
    some { s with
      world := mount.interface.destroy mount.device s.world
      control := .destroyAll rest
      log := .destroyedDevice mount.handle :: s.log }
  | .unlockDestroy => some { s with lock := .free, control := .destroyed }
  | .destroyed => none
  | .make args handle =>
    match makeMount cfg.interfaces args handle s.world with
    | ((_, some mount), w) => some { s with world := w, control := .lockCreate mount }
    | ((_, none), w) => some { s with world := w, control := .idle }
  | .lockCreate mount =>
    if s.lock = .free then some { s with lock := .exclusive, control := .pushBack mount }
    else none
  | .pushBack mount =>
    some { s with mounts := s.mounts ++ [mount], control := .unlockCreate }
  | .unlockCreate => some { s with lock := .free, control := .idle }

/-! ### The system -/

/-- One step of the system. -/
def step (cfg : Config D W) (s : State D W) : Action → Option (State D W)
  | .client a act => if s.acts a then clientStep s a act else none
  | .agent a => agentStep cfg s a
  | .proc => procStep s
  | .callbackReturns =>
    match s.proc with
    | .inCallback p =>
      if s.agents .callback = .idle then some { s with proc := .testAction p } else none
    | _ => none
  | .controlAct act => if s.control.isIdle then controlActStep s act else none
  | .control => controlStep cfg s
  | .wakeProc => some { s with proc := s.proc.wake }
  | .wakeAgent a => some { s with agents := Function.update s.agents a (s.agents a).wake }

/-! ### A small context -/

/-- A context with one device type, which has no files. -/
def smallConfig : Config Unit Unit := ⟨[.empty], ⟨0⟩⟩

/-- Its first state, with two slots and a queue of two. -/
def smallInit : State Unit Unit := .init (.new 1 1 2) 2 (fun _ => .new) ()

/-- A thread submits, and takes `n` steps in the submission function. -/
def submits (t : ℕ) (c : Call) (n : ℕ) : List Action :=
  .client (.client t) (.submit c) :: List.replicate n (.agent (.client t))

/-- The control thread mounts the first device type at the root. -/
def mountsRoot : List Action :=
  .controlAct (.createMount ⟨0, [slash], [], .mountDefault⟩ 1) :: List.replicate 4 .control

end LaminaFS
