/-
# The state of a context and its threads

The threads are the client threads, the processing thread and one control thread, which
creates and releases mounts and destroys the context.  Client code also runs inside a
callback, on the processing thread; there it is an agent of its own, which acts only while
the processing thread is in the callback.

A program counter names what the thread does next, and carries its local variables.  Besides
the shared memory the state has a record of what happened, which no thread reads: the
submission that a slot belongs to, how far each submission has come, and the events.
-/
import LaminaFS.Context.Submission
import LaminaFS.Lib.Handoff
import LaminaFS.Util.PoolAllocator
import LaminaFS.Util.RingBuffer

namespace LaminaFS

/-- Who runs client code: a client thread, or the processing thread in a callback. -/
inductive Agent where
  | client (t : ℕ)
  | callback
deriving DecidableEq, Repr

/-- A pointer to a work item: its slot in the pool.  The number tells which submission the slot
belonged to when the pointer was made; the code cannot see it. -/
abbrev ItemPtr := Handoff.Ptr

/-- Where an agent is. -/
inductive AgentPc where
  /-- in client code -/
  | idle
  /-- `_workItemPool.alloc()` -/
  | alloc (c : Call)
  /-- `new(...) T()` in the pool -/
  | construct (c : Call) (p : ItemPtr)
  /-- the assignments that are left before the push -/
  | store (c : Call) (p : ItemPtr) (todo : List Store)
  /-- `while (_full)` in `push` -/
  | pushTest (c : Call) (p : ItemPtr)
  /-- the critical section of `push` -/
  | pushLock (c : Call) (p : ItemPtr)
  /-- `++_value` in `notify` -/
  | notify (c : Call) (p : ItemPtr)
  /-- `_cond.notify_one()` in `notify` -/
  | notifyOne (c : Call) (p : ItemPtr)
  /-- the assignments that are left behind the push, and the return -/
  | late (c : Call) (p : ItemPtr) (todo : List Store)
  /-- the pool had no slot -/
  | failed (c : Call)
  /-- the test of `_completed` in `WaitForWorkItem` -/
  | waitTest (p : ItemPtr)
  /-- asleep on the completion condition variable -/
  | blocked (p : ItemPtr)
  /-- after the call of a null function pointer -/
  | crashed
deriving DecidableEq, Repr

/-- Where the processing thread is while it executes an item. -/
inductive ExecPc (D W : Type) where
  /-- the `switch` on the operation -/
  | dispatch
  /-- the call of `findNextMountAndPath` -/
  | findNext (l : Lookup) (searchStart : Option ℕ)
  /-- the loop in `findNextMountAndPath`, with the mounts that are left -/
  | scanNext (l : Lookup) (path : CString) (onlyAfter : Option ℕ)
      (rest : List (MountInfo D W))
  /-- the call of the device function -/
  | callLookup (l : Lookup) (mount : MountInfo D W) (devicePath : CString)
  /-- the call of `findMutableMountAndPath` -/
  | findMutable (m : Mutation)
  /-- the shared lock in `findMutableMountAndPath` -/
  | lockShared (m : Mutation) (op : Operation) (path : CString)
  /-- the loop in `findMutableMountAndPath`, with the mounts that are left -/
  | scanMutable (m : Mutation) (op : Operation) (path : CString)
      (rest : List (MountInfo D W))
  /-- the release of the shared lock -/
  | unlockShared (m : Mutation) (found : Option (MountInfo D W × CString))
  /-- the inner `switch` of the writing case -/
  | modeSwitch (mount : MountInfo D W) (devicePath : CString)
  /-- the call of the device function -/
  | callMutable (m : Mutation) (mode : WriteMode) (mount : MountInfo D W)
      (devicePath : CString)

/-- Where the processing thread is. -/
inductive ProcPc (D W : Type) where
  /-- `while (ctx->_processing)` -/
  | top
  /-- `pop` -/
  | pop
  /-- the test of `_value` in `wait` -/
  | semTest
  /-- asleep on the condition variable of the semaphore -/
  | semSleep
  /-- the outer `switch` -/
  | exec (p : ItemPtr) (e : ExecPc D W)
  /-- `_completed = true` -/
  | complete (p : ItemPtr)
  /-- `if (item->_callback)` -/
  | testCallback (p : ItemPtr)
  /-- the call of the callback -/
  | invoke (p : ItemPtr)
  /-- inside the callback -/
  | inCallback (p : ItemPtr)
  /-- the test of the buffer action -/
  | testAction (p : ItemPtr)
  /-- `WorkItemFreeBuffer` -/
  | freeBuffer (p : ItemPtr)
  /-- `releaseWorkItemInternal` -/
  | release (p : ItemPtr)
  /-- `notify_all` on the completion condition variable -/
  | notifyAll
  /-- `processingFunc` has returned -/
  | exited
  /-- after the call of a null function pointer -/
  | crashed

/-- What the control thread does once the processing thread has stopped. -/
inductive AfterStop where
  | releaseMount (handle : ℕ)
  | destroy
deriving DecidableEq, Repr

/-- Where the control thread is. -/
inductive ControlPc (D W : Type) where
  | idle
  /-- `stopProcessingThread` -/
  | stop (k : AfterStop)
  | stopNotify (k : AfterStop)
  | stopNotifyOne (k : AfterStop)
  | join (k : AfterStop)
  /-- `releaseMount` and `~FileContext` -/
  | lockTable (k : AfterStop)
  | find (handle : ℕ)
  | destroyDevice (mount : MountInfo D W)
  | erase (handle : ℕ)
  | unlockRelease
  | start
  | destroyAll (rest : List (MountInfo D W))
  | unlockDestroy
  | destroyed
  /-- `createMount` -/
  | make (args : MountArgs) (handle : ℕ)
  | lockCreate (mount : MountInfo D W)
  | pushBack (mount : MountInfo D W)
  | unlockCreate

/-- `_mountLock`. -/
inductive TableLock where
  | free
  | shared
  | exclusive
deriving DecidableEq, Repr

/-- A submission: the call, the agent that made it and the slot it was given. -/
structure Ticket where
  call : Call
  agent : Agent
  slot : ℕ
deriving DecidableEq, Repr

/-- Who gave a slot back. -/
inductive Releaser where
  | client
  | processing
deriving DecidableEq, Repr

/-- What has happened. -/
inductive Event where
  /-- one of the two searches has been called -/
  | searched (submission : ℕ) (op : Operation) (path : CString)
  /-- a device function has been called, on the mount with the handle and the prefix -/
  | deviceCall (submission : ℕ) (handle : ℕ) (prefixStr : CString) (call : DeviceCall)
  /-- the operation of the item has been executed -/
  | executed (submission : ℕ)
  /-- the callback of the item in the slot has been called by the processing thread -/
  | invoked (submission : ℕ) (code : ErrorCode)
  /-- the callback has been called for want of a slot -/
  | errorCallback (a : Agent) (c : Call)
  /-- `WorkItemFreeBuffer` has been called on the item in the slot -/
  | freedBuffer (submission : ℕ) (result : WorkItem.FreeBuffer)
  /-- the slot has been given back -/
  | released (submission : ℕ) (by_ : Releaser)
  /-- a device has been destroyed -/
  | destroyedDevice (handle : ℕ)
deriving DecidableEq, Repr

/-- What is fixed when a context is built. -/
structure Config (D W : Type) where
  interfaces : List (DeviceInterface D W)
  contextAlloc : Allocator

/-- The state of a context. -/
structure State (D W : Type) where
  agents : Agent → AgentPc
  proc : ProcPc D W
  control : ControlPc D W
  /-- `_workItemPool` and the memory of its slots -/
  pool : PoolAllocator
  slots : ℕ → WorkItem
  /-- `_workItemQueue` and `_workItemQueueSemaphore` -/
  ring : RingBuffer (Option ItemPtr)
  sem : ℕ
  processing : Bool
  /-- `_mountLock` and `_mounts` -/
  lock : TableLock
  mounts : List (MountInfo D W)
  world : W
  /-- the items that clients have and may release, and those reported complete -/
  held : List ItemPtr
  reported : List ItemPtr
  /-- the record -/
  nextSubmission : ℕ
  tickets : ℕ → Ticket
  occupant : ℕ → ℕ
  stage : ℕ → Handoff.Stage
  returned : List ℕ
  drain : List ℕ
  nextBlock : ℕ
  blockOf : ℕ → Option (ℕ × Option Allocator)
  log : List Event

namespace State

variable {D W : Type}

/-- The state after the constructor, with an empty queue and all slots free.  The memory is not
initialised. -/
def init (pool : PoolAllocator) (capacity : ℕ) (memory : ℕ → WorkItem) (world : W) :
    State D W where
  agents _ := .idle
  proc := .top
  control := .idle
  pool := pool
  slots := memory
  ring := .new (fun _ => none) capacity
  sem := 0
  processing := true
  lock := .free
  mounts := []
  world := world
  held := []
  reported := []
  nextSubmission := 0
  tickets _ := ⟨⟨.fileExists, [], none⟩, .callback, 0⟩
  occupant _ := 0
  stage _ := .unborn
  returned := []
  drain := []
  nextBlock := 0
  blockOf _ := none
  log := []

end State

end LaminaFS
