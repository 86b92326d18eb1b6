/-
# Work items and what the processing thread does with them

`lfs_work_item_t` and the body of the `switch` in `processingFunc`.  The body is cut where
the processing thread touches something that others touch too: the dispatch on the
operation, the call of a lookup function on one mount, and the call of a mutating function
on one mount.  Both the sequential search loops and the threads of `Context` are put together
from these pieces.
-/
import LaminaFS.Mount.Lookup

namespace LaminaFS

/-- `lfs_work_item_t`.  The context pointer is left out, as there is one context, and the
string behind a null `_filename` is read as the empty one. -/
structure WorkItem where
  operation : Operation
  callback : Option ℕ
  callbackUserData : ℕ
  allocator : Option Allocator
  filename : CString
  buffer : Option Buffer
  bufferBytes : ℕ
  offset : ℕ
  callbackBufferAction : CallbackBufferAction
  resultCode : ErrorCode
  nullTerminate : Bool
  completed : Bool
deriving DecidableEq, Repr

/-- A call of a device function, with the arguments behind the device pointer. -/
inductive DeviceCall where
  | fileExists (devicePath : CString)
  | fileSize (devicePath : CString)
  | readFile (devicePath : CString) (offset maxBytes : ℕ) (alloc : Option Allocator)
      (nullTerminate : Bool)
  | writeFile (devicePath : CString) (offset : ℕ) (buffer : Option Buffer) (bufferBytes : ℕ)
      (writeMode : WriteMode)
  | deleteFile (devicePath : CString)
  | createDir (devicePath : CString)
  | deleteDir (devicePath : CString)
deriving DecidableEq, Repr

/-- A case of the `switch` that searches the readable mounts. -/
inductive Lookup where
  | fileExists
  | fileSize
  | readFile (maxBytes : ℕ)
deriving DecidableEq, Repr

/-- A case of the `switch` that looks for one mutable mount. -/
inductive Mutation where
  | writeFile
  | deleteFile
  | createDir
  | deleteDir
deriving DecidableEq, Repr

/-- The case that the `switch` selects. -/
inductive Case where
  | lookup (l : Lookup)
  | mutation (m : Mutation)
deriving DecidableEq, Repr

namespace WorkItem

/-- `lfs_work_item_t()`, which zeroes the record before the member initialisers run. -/
def new : WorkItem where
  operation := .opExists
  callback := none
  callbackUserData := 0
  allocator := none
  filename := []
  buffer := none
  bufferBytes := 0
  offset := 0
  callbackBufferAction := .doNotFreeBuffer
  resultCode := .ok
  nullTerminate := false
  completed := false

/-- The `switch` on the operation, with the assignments before the search. -/
def dispatch (item : WorkItem) : WorkItem × Case :=
  match item.operation with
  | .opExists => ({ item with resultCode := .notFound }, .lookup .fileExists)
  | .opSize => ({ item with resultCode := .notFound, bufferBytes := 0 }, .lookup .fileSize)
  | .opRead =>
    ({ item with resultCode := .notFound, bufferBytes := 0 },
      .lookup (.readFile item.bufferBytes))
  | .opWrite | .opWriteSegment | .opAppend => (item, .mutation .writeFile)
  | .opDelete => (item, .mutation .deleteFile)
  | .opCreateDir => (item, .mutation .createDir)
  | .opDeleteDir => (item, .mutation .deleteDir)

/-- The inner `switch` of the writing case. -/
def writeMode (item : WorkItem) : WriteMode :=
  match item.operation with
  | .opWrite => .truncate
  | .opWriteSegment => .segment
  | .opAppend => .append
  | _ => .truncate

/-- What `WorkItemFreeBuffer` does: nothing, a call of `_allocator.free` with the buffer, or a
call of a null `_allocator.free`. -/
inductive FreeBuffer where
  | nothing
  | freed (alloc : Allocator) (buffer : Buffer)
  | nullFunction
deriving DecidableEq, Repr

/-- `WorkItemFreeBuffer`. -/
def freeBuffer (item : WorkItem) : FreeBuffer × WorkItem :=
  match item.buffer, item.allocator with
  | none, _ => (.nothing, item)
  | some _, none => (.nullFunction, item)
  | some buffer, some alloc => (.freed alloc buffer, { item with buffer := none })

end WorkItem

/-- The contents of `*buffer` after a device call; a block that was allocated gets the name
`block`. -/
def BufferStore.apply (store : BufferStore) (block : ℕ) (buffer : Option Buffer) :
    Option Buffer :=
  match store with
  | .untouched => buffer
  | .null => none
  | .block bytes => some (.block block bytes)

section Calls

variable {D W : Type}

/-- A call of a device function: the mount, the call, and the code and the number of bytes
that it gave. -/
structure Called (D W : Type) where
  mount : MountInfo D W
  call : DeviceCall
  code : ErrorCode
  bytes : ℕ

/-- The state after one call of a lookup function; `stop` leaves the search loop. -/
structure LookedUp (D W : Type) where
  item : WorkItem
  world : W
  stop : Bool
  called : Called D W

/-- The body of the search loops: the call on the mount found, and the test for the end. -/
def callLookup (l : Lookup) (mount : MountInfo D W) (devicePath : CString) (block : ℕ)
    (item : WorkItem) (w : W) : LookedUp D W :=
  match l with
  | .fileExists =>
    match mount.interface.fileExists mount.device devicePath w with
    | (found, w) =>
      let code := if found then .ok else item.resultCode
      ⟨{ item with resultCode := code }, w, found, ⟨mount, .fileExists devicePath, code, 0⟩⟩
  | .fileSize =>
    match mount.interface.fileSize mount.device devicePath w with
    | (r, w) =>
      let code := r.error.getD item.resultCode
      ⟨{ item with bufferBytes := r.bytes, resultCode := code }, w, code != .notFound,
        ⟨mount, .fileSize devicePath, code, r.bytes⟩⟩
  | .readFile maxBytes =>
    match mount.interface.readFile mount.device devicePath item.offset maxBytes item.allocator
      item.nullTerminate w with
    | (r, w) =>
      let code := r.error.getD item.resultCode
      ⟨{ item with
          bufferBytes := r.bytes
          resultCode := code
          buffer := r.buffer.apply block item.buffer }, w, code != .notFound,
        ⟨mount, .readFile devicePath item.offset maxBytes item.allocator item.nullTerminate,
          code, r.bytes⟩⟩

/-- The state after the call of a mutating function; `nullFunction` tells that the interface
has no such function, so that the call went through a null pointer. -/
structure Mutated (D W : Type) where
  item : WorkItem
  world : W
  nullFunction : Bool
  called : Called D W

/-- The call of a function that takes a path and returns a code. -/
def callPath (function : Option (D → CString → W → ErrorCode × W)) (call : DeviceCall)
    (mount : MountInfo D W) (devicePath : CString) (item : WorkItem) (w : W) : Mutated D W :=
  match function with
  | none => ⟨item, w, true, ⟨mount, call, item.resultCode, 0⟩⟩
  | some f =>
    match f mount.device devicePath w with
    | (code, w) => ⟨{ item with resultCode := code }, w, false, ⟨mount, call, code, 0⟩⟩

/-- The call on the mount that `findMutableMountAndPath` returned; `mode` is the write mode
computed for the writing case. -/
def callMutable (m : Mutation) (mode : WriteMode) (mount : MountInfo D W)
    (devicePath : CString) (item : WorkItem) (w : W) : Mutated D W :=
  match m with
  | .writeFile =>
    let call := .writeFile devicePath item.offset item.buffer item.bufferBytes mode
    match mount.interface.writeFile with
    | none => ⟨item, w, true, ⟨mount, call, item.resultCode, 0⟩⟩
    | some f =>
      match f mount.device devicePath item.offset item.buffer item.bufferBytes mode w with
      | (r, w) =>
        let code := r.error.getD item.resultCode
        ⟨{ item with bufferBytes := r.bytes, resultCode := code }, w, false,
          ⟨mount, call, code, r.bytes⟩⟩
  | .deleteFile =>
    callPath mount.interface.deleteFile (.deleteFile devicePath) mount devicePath item w
  | .createDir =>
    callPath mount.interface.createDir (.createDir devicePath) mount devicePath item w
  | .deleteDir =>
    callPath mount.interface.deleteDir (.deleteDir devicePath) mount devicePath item w

/-- The `else` branches of the mutating cases. -/
def noMutableMount (m : Mutation) (item : WorkItem) : WorkItem :=
  match m with
  | .writeFile => { item with bufferBytes := 0, resultCode := .unsupported }
  | _ => { item with resultCode := .unsupported }

/-! ### The cases of the `switch` -/

/-- The state after the `switch`, and the calls of device functions in their order. -/
structure Processed (D W : Type) where
  item : WorkItem
  world : W
  nullFunction : Bool
  calls : List (Called D W)

/-- The search loop of the cases EXISTS, SIZE and READ.  Other threads move in between: the
`i`-th round meets the table `tables i`, and before its call the world goes through
`drift i`.  `searchStart` is the mount of the round before, and the rounds are bounded. -/
def lookupLoop (tables : ℕ → List (MountInfo D W)) (drift : ℕ → W → W) (l : Lookup) :
    ℕ → ℕ → Option ℕ → WorkItem → W → Option (Processed D W)
  | 0, _, _, _, _ => none
  | rounds + 1, i, searchStart, item, w =>
    match findNextMountAndPath (tables i) item.filename searchStart with
    | none => some ⟨item, w, false, []⟩
    | some (mount, devicePath) =>
      let r := callLookup l mount devicePath i item (drift i w)
      if r.stop then some ⟨r.item, r.world, false, [r.called]⟩
      else
        (lookupLoop tables drift l rounds (i + 1) (some mount.handle) r.item r.world).map
          fun later => { later with calls := r.called :: later.calls }

/-- The mutating cases. -/
def processMutation (mounts : List (MountInfo D W)) (m : Mutation) (item : WorkItem) (w : W) :
    Processed D W :=
  match findMutableMountAndPath mounts item.filename item.operation with
  | some (mount, devicePath) =>
    let r := callMutable m item.writeMode mount devicePath item w
    ⟨r.item, r.world, r.nullFunction, [r.called]⟩
  | none => ⟨noMutableMount m item, w, false, []⟩

/-- The `switch`, with a bound on the rounds of the search loop. -/
def processItem (tables : ℕ → List (MountInfo D W)) (drift : ℕ → W → W) (rounds : ℕ)
    (item : WorkItem) (w : W) : Option (Processed D W) :=
  match item.dispatch with
  | (item, .lookup l) => lookupLoop tables drift l rounds 0 none item w
  | (item, .mutation m) => some (processMutation (tables 0) m item w)

end Calls

end LaminaFS
