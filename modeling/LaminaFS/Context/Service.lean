/-
# What a context is for

A context that does one thing at a time: it keeps a queue of requests and a table of mounts, and
serves the oldest request as a whole, with the table and the world to itself.  A lookup is the
walk along the readable mounts that accept the path, newest first, up to the one that knows the
file; a mutation is one call, on the newest mount that accepts the path and allows it.

The threads of `Context` are compared with this.  What a request is answered with is what the
getters of its work item show.
-/
import LaminaFS.Context.State
import LaminaFS.Lib.Transition
import LaminaFS.Processing.Overlay

namespace LaminaFS

open Transition

variable {D W : Type}

/-! ### The getters -/

/-- `WorkItemGetResult`. -/
def WorkItemGetResult : Option WorkItem → ErrorCode
  | some workItem => workItem.resultCode
  | none => .outOfWorkItems

/-- `WorkItemGetBuffer`. -/
def WorkItemGetBuffer : Option WorkItem → Option Buffer
  | some workItem => workItem.buffer
  | none => none

/-- `WorkItemGetBytes`. -/
def WorkItemGetBytes : Option WorkItem → ℕ
  | some workItem => workItem.bufferBytes
  | none => 0

/-- What a client can learn about a request that has been served. -/
structure Answer where
  code : ErrorCode
  bytes : ℕ
  buffer : Option Buffer
deriving DecidableEq, Repr

/-- What the getters show. -/
def WorkItem.answer (item : WorkItem) : Answer where
  code := WorkItemGetResult (some item)
  bytes := WorkItemGetBytes (some item)
  buffer := WorkItemGetBuffer (some item)

lemma WorkItem.answer_eq (item : WorkItem) :
    item.answer = ⟨item.resultCode, item.bufferBytes, item.buffer⟩ := rfl

/-! ### Serving one request -/

/-- The item and the world behind a request, the number of the next block that an allocator
gives, and whether a function was missing. -/
structure Served (D W : Type) where
  item : WorkItem
  world : W
  nextBlock : ℕ
  nullFunction : Bool

/-- The mounts are asked in turn until one of them ends the lookup. -/
def serveLookup (l : Lookup) (path : CString) :
    ℕ → List (MountInfo D W) → WorkItem → W → Served D W
  | block, [], item, w => ⟨item, w, block, false⟩
  | block, m :: ms, item, w =>
    let r := callLookup l m (m.devicePath path) block item w
    if r.stop then ⟨r.item, r.world, block + 1, false⟩
    else serveLookup l path (block + 1) ms r.item r.world

/-- One request, served as a whole. -/
def serve (mounts : List (MountInfo D W)) (block : ℕ) (item : WorkItem) (w : W) : Served D W :=
  match item.dispatch with
  | (item, .lookup l) =>
    serveLookup l item.filename block (consulted mounts item.filename) item w
  | (item, .mutation m) =>
    let r := processMutation mounts m item w
    ⟨r.item, r.world, block, r.nullFunction⟩

section Serve

variable {mounts : List (MountInfo D W)} {block : ℕ} {item item' : WorkItem} {w : W}

lemma serve_lookup {l : Lookup} (h : item.dispatch = (item', .lookup l)) :
    serve mounts block item w =
      serveLookup l item'.filename block (consulted mounts item'.filename) item' w := by
  rw [serve, h]

lemma serve_mutation {m : Mutation} (h : item.dispatch = (item', .mutation m)) :
    serve mounts block item w =
      ⟨(processMutation mounts m item' w).item, (processMutation mounts m item' w).world, block,
        (processMutation mounts m item' w).nullFunction⟩ := by
  rw [serve, h]

end Serve

/-! ### The service -/

/-- The state of a context that does one thing at a time. -/
structure Service (D W : Type) where
  /-- the requests that have been accepted and not yet served, oldest first -/
  queue : List (ℕ × Call)
  mounts : List (MountInfo D W)
  /-- a mount that has been made and is not in the table yet -/
  pending : Option (MountInfo D W)
  world : W
  nextBlock : ℕ
  answers : ℕ → Option Answer

namespace Service

/-- What can happen to a service. -/
inductive Act where
  | accept (g : ℕ) (c : Call)
  /-- the oldest request is served -/
  | serve
  /-- `createMount` creates a device -/
  | make (args : MountArgs) (handle : ℕ)
  /-- `createMount` enters the mount -/
  | mount
  | release (handle : ℕ)
  | shutdown

/-- A service without requests and mounts. -/
def init (world : W) : Service D W where
  queue := []
  mounts := []
  pending := none
  world := world
  nextBlock := 0
  answers _ := none

/-- The devices of some mounts are destroyed, one after the other. -/
def destroyEach (mounts : List (MountInfo D W)) (w : W) : W :=
  mounts.foldl (fun w mount => mount.interface.destroy mount.device w) w

lemma destroyEach_append (mounts : List (MountInfo D W)) (mount : MountInfo D W) (w : W) :
    destroyEach (mounts ++ [mount]) w =
      mount.interface.destroy mount.device (destroyEach mounts w) := by
  simp [destroyEach]

/-- One thing happens. -/
def step (cfg : Config D W) (v : Service D W) : Act → Option (Service D W)
  | .accept g c =>
    if v.answers g = none ∧ g ∉ v.queue.map Prod.fst then
      some { v with queue := v.queue ++ [(g, c)] }
    else none
  | .serve =>
    match v.queue with
    | [] => none
    | (g, c) :: queue =>
      let r := LaminaFS.serve v.mounts v.nextBlock (c.item cfg.contextAlloc) v.world
      if r.nullFunction then none
      else
        some { v with
          queue := queue
          world := r.world
          nextBlock := r.nextBlock
          answers := Function.update v.answers g (some r.item.answer) }
  | .make args handle =>
    match makeMount cfg.interfaces args handle v.world with
    | ((_, mount), w) => some { v with world := w, pending := mount }
  | .mount =>
    match v.pending with
    | none => none
    | some mount => some { v with mounts := v.mounts ++ [mount], pending := none }
  | .release handle =>
    match v.mounts.find? fun m => m.handle == handle with
    | none => none
    | some mount =>
      some { v with
        world := mount.interface.destroy mount.device v.world
        mounts := v.mounts.eraseP fun m => m.handle == handle }
  | .shutdown => some { v with world := destroyEach v.mounts v.world, mounts := [] }

end Service

end LaminaFS
