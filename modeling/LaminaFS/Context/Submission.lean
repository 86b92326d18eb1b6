/-
# Submission functions

What a submitting thread does with a work item is a sequence of assignments to its fields:
those of `initWorkItem`, those of the submission function itself, the push, and, in
`writeFile`, one assignment after the push.  A submission function is the plan of these
assignments.  What a call asks for, in the words of the interface, is stated apart.
-/
import LaminaFS.Path.Normalize
import LaminaFS.Processing.Item

namespace LaminaFS

/-- An assignment to a field of a work item. -/
inductive Store where
  | operation (op : Operation)
  | filename (path : CString)
  | callback (value : Option ℕ)
  | callbackUserData (data : ℕ)
  | callbackBufferAction (action : CallbackBufferAction)
  | completed (value : Bool)
  | allocator (alloc : Allocator)
  | nullTerminate (value : Bool)
  | bufferBytes (bytes : ℕ)
  | offset (value : ℕ)
  | buffer (value : Option Buffer)
deriving DecidableEq, Repr

namespace Store

/-- The item after the assignment. -/
def apply (item : WorkItem) : Store → WorkItem
  | .operation op => { item with operation := op }
  | .filename path => { item with filename := path }
  | .callback value => { item with callback := value }
  | .callbackUserData data => { item with callbackUserData := data }
  | .callbackBufferAction action => { item with callbackBufferAction := action }
  | .completed value => { item with completed := value }
  | .allocator alloc => { item with allocator := some alloc }
  | .nullTerminate value => { item with nullTerminate := value }
  | .bufferBytes bytes => { item with bufferBytes := bytes }
  | .offset value => { item with offset := value }
  | .buffer value => { item with buffer := value }

/-- The item after several assignments. -/
def applyAll (stores : List Store) (item : WorkItem) : WorkItem := stores.foldl apply item

@[simp] lemma applyAll_nil (item : WorkItem) : applyAll [] item = item := rfl

@[simp] lemma applyAll_cons (store : Store) (stores : List Store) (item : WorkItem) :
    applyAll (store :: stores) item = applyAll stores (store.apply item) := rfl

lemma applyAll_append (stores stores' : List Store) (item : WorkItem) :
    applyAll (stores ++ stores') item = applyAll stores' (applyAll stores item) := by
  simp [applyAll]

end Store

/-- `initWorkItem`; the path is copied and normalised before it is assigned. -/
def initWorkItem (path : CString) (op : Operation) (callback : Option ℕ)
    (callbackUserData : ℕ) (bufferAction : CallbackBufferAction) : List Store :=
  [.operation op, .filename (normalizePath path), .callback callback,
    .callbackUserData callbackUserData, .callbackBufferAction bufferAction, .completed false]

/-- What a submission function does after `_workItemPool.alloc()`: the assignments up to the
push, those behind it, and whether it returns the item. -/
structure Plan where
  callback : Option ℕ
  stores : List Store
  late : List Store
  returnsItem : Bool
deriving DecidableEq, Repr

namespace Plan

/-- The item at the push. -/
def built (plan : Plan) : WorkItem := Store.applyAll plan.stores .new

/-- The item when the submission function has returned. -/
def final (plan : Plan) : WorkItem := Store.applyAll plan.late plan.built

end Plan

/-- The submission functions without a callback: they return the item. -/
def submit (path : CString) (op : Operation) (stores : List Store) : Plan where
  callback := none
  stores := initWorkItem path op none 0 .doNotFreeBuffer ++ stores
  late := []
  returnsItem := true

/-- The submission functions with a callback. -/
def submitWithCallback (path : CString) (op : Operation) (callback callbackUserData : ℕ)
    (bufferAction : CallbackBufferAction) (stores : List Store) : Plan where
  callback := some callback
  stores := initWorkItem path op (some callback) callbackUserData bufferAction ++ stores
  late := []
  returnsItem := false

namespace FileContext

section Reads

variable (contextAlloc : Allocator)

/-- The assignments of the reading functions. -/
def readStores (alloc : Option Allocator) (nullTerminate : Bool) (maxBytes offset : ℕ) :
    List Store :=
  [.allocator (alloc.getD contextAlloc), .nullTerminate nullTerminate, .bufferBytes maxBytes,
    .offset offset]

/-- `readFileSegment`. -/
def readFileSegment (filepath : CString) (offset maxBytes : ℕ) (nullTerminate : Bool)
    (alloc : Option Allocator) : Plan :=
  submit filepath .opRead (readStores contextAlloc alloc nullTerminate maxBytes offset)

/-- `readFile`. -/
def readFile (filepath : CString) (nullTerminate : Bool) (alloc : Option Allocator) : Plan :=
  readFileSegment contextAlloc filepath 0 (2 ^ 64 - 1) nullTerminate alloc

/-- `readFileSegmentWithCallback`. -/
def readFileSegmentWithCallback (filepath : CString) (offset maxBytes : ℕ)
    (nullTerminate : Bool) (callback : ℕ) (bufferAction : CallbackBufferAction)
    (callbackUserData : ℕ) (alloc : Option Allocator) : Plan :=
  submitWithCallback filepath .opRead callback callbackUserData bufferAction
    (readStores contextAlloc alloc nullTerminate maxBytes offset)

/-- `readFileWithCallback`. -/
def readFileWithCallback (filepath : CString) (nullTerminate : Bool) (callback : ℕ)
    (bufferAction : CallbackBufferAction) (callbackUserData : ℕ) (alloc : Option Allocator) :
    Plan :=
  readFileSegmentWithCallback contextAlloc filepath 0 (2 ^ 64 - 1) nullTerminate callback
    bufferAction callbackUserData alloc

end Reads

/-- `writeFileSegment`. -/
def writeFileSegment (filepath : CString) (offset : ℕ) (buffer : Option Buffer)
    (bufferBytes : ℕ) : Plan :=
  submit filepath .opWriteSegment [.buffer buffer, .bufferBytes bufferBytes, .offset offset]

/-- `writeFile`: a segment write, whose operation is changed after the push. -/
def writeFile (filepath : CString) (buffer : Option Buffer) (bufferBytes : ℕ) : Plan :=
  { writeFileSegment filepath 0 buffer bufferBytes with late := [.operation .opWrite] }

/-- `writeFileWithCallback`. -/
def writeFileWithCallback (filepath : CString) (buffer : Option Buffer) (bufferBytes : ℕ)
    (callback : ℕ) (bufferAction : CallbackBufferAction) (callbackUserData : ℕ) : Plan :=
  submitWithCallback filepath .opWrite callback callbackUserData bufferAction
    [.buffer buffer, .bufferBytes bufferBytes, .offset 0]

/-- `writeFileSegmentWithCallback`. -/
def writeFileSegmentWithCallback (filepath : CString) (offset : ℕ) (buffer : Option Buffer)
    (bufferBytes : ℕ) (callback : ℕ) (bufferAction : CallbackBufferAction)
    (callbackUserData : ℕ) : Plan :=
  submitWithCallback filepath .opWriteSegment callback callbackUserData bufferAction
    [.buffer buffer, .bufferBytes bufferBytes, .offset offset]

/-- `appendFile`. -/
def appendFile (filepath : CString) (buffer : Option Buffer) (bufferBytes : ℕ) : Plan :=
  submit filepath .opAppend [.buffer buffer, .bufferBytes bufferBytes]

/-- `appendFileWithCallback`. -/
def appendFileWithCallback (filepath : CString) (buffer : Option Buffer) (bufferBytes : ℕ)
    (callback : ℕ) (bufferAction : CallbackBufferAction) (callbackUserData : ℕ) : Plan :=
  submitWithCallback filepath .opAppend callback callbackUserData bufferAction
    [.buffer buffer, .bufferBytes bufferBytes]

/-- `fileExists`. -/
def fileExists (filepath : CString) : Plan := submit filepath .opExists []

/-- `fileExistsWithCallback`. -/
def fileExistsWithCallback (filepath : CString) (callback callbackUserData : ℕ) : Plan :=
  submitWithCallback filepath .opExists callback callbackUserData .doNotFreeBuffer []

/-- `fileSize`. -/
def fileSize (filepath : CString) : Plan := submit filepath .opSize []

/-- `fileSizeWithCallback`. -/
def fileSizeWithCallback (filepath : CString) (callback callbackUserData : ℕ) : Plan :=
  submitWithCallback filepath .opSize callback callbackUserData .doNotFreeBuffer []

/-- `deleteFile`. -/
def deleteFile (filepath : CString) : Plan := submit filepath .opDelete []

/-- `deleteFileWithCallback`. -/
def deleteFileWithCallback (filepath : CString) (callback callbackUserData : ℕ) : Plan :=
  submitWithCallback filepath .opDelete callback callbackUserData .doNotFreeBuffer []

/-- `createDir`. -/
def createDir (path : CString) : Plan := submit path .opCreateDir []

/-- `createDirWithCallback`. -/
def createDirWithCallback (path : CString) (callback callbackUserData : ℕ) : Plan :=
  submitWithCallback path .opCreateDir callback callbackUserData .doNotFreeBuffer []

/-- `deleteDir`. -/
def deleteDir (path : CString) : Plan := submit path .opDeleteDir []

/-- `deleteDirWithCallback`. -/
def deleteDirWithCallback (path : CString) (callback callbackUserData : ℕ) : Plan :=
  submitWithCallback path .opDeleteDir callback callbackUserData .doNotFreeBuffer []

end FileContext

/-! ### Calls -/

/-- The functions of the interface that come with and without a callback, with their
arguments. -/
inductive Verb where
  | readFile (nullTerminate : Bool) (alloc : Option Allocator)
  | readFileSegment (offset maxBytes : ℕ) (nullTerminate : Bool) (alloc : Option Allocator)
  | writeFile (buffer : Option Buffer) (bufferBytes : ℕ)
  | writeFileSegment (offset : ℕ) (buffer : Option Buffer) (bufferBytes : ℕ)
  | appendFile (buffer : Option Buffer) (bufferBytes : ℕ)
  | fileExists
  | fileSize
  | deleteFile
  | createDir
  | deleteDir
deriving DecidableEq, Repr

/-- The arguments of a callback.  The functions that take no buffer action ignore it. -/
structure CallbackArgs where
  callback : ℕ
  bufferAction : CallbackBufferAction
  callbackUserData : ℕ
deriving DecidableEq, Repr

/-- A call of a submission function. -/
structure Call where
  verb : Verb
  path : CString
  withCallback : Option CallbackArgs
deriving DecidableEq, Repr

namespace Call

/-- The plan of the function that is called. -/
def plan (contextAlloc : Allocator) (c : Call) : Plan :=
  match c.verb, c.withCallback with
  | .readFile nullTerminate alloc, none =>
    FileContext.readFile contextAlloc c.path nullTerminate alloc
  | .readFile nullTerminate alloc, some cb =>
    FileContext.readFileWithCallback contextAlloc c.path nullTerminate cb.callback
      cb.bufferAction cb.callbackUserData alloc
  | .readFileSegment offset maxBytes nullTerminate alloc, none =>
    FileContext.readFileSegment contextAlloc c.path offset maxBytes nullTerminate alloc
  | .readFileSegment offset maxBytes nullTerminate alloc, some cb =>
    FileContext.readFileSegmentWithCallback contextAlloc c.path offset maxBytes nullTerminate
      cb.callback cb.bufferAction cb.callbackUserData alloc
  | .writeFile buffer bufferBytes, none => FileContext.writeFile c.path buffer bufferBytes
  | .writeFile buffer bufferBytes, some cb =>
    FileContext.writeFileWithCallback c.path buffer bufferBytes cb.callback cb.bufferAction
      cb.callbackUserData
  | .writeFileSegment offset buffer bufferBytes, none =>
    FileContext.writeFileSegment c.path offset buffer bufferBytes
  | .writeFileSegment offset buffer bufferBytes, some cb =>
    FileContext.writeFileSegmentWithCallback c.path offset buffer bufferBytes cb.callback
      cb.bufferAction cb.callbackUserData
  | .appendFile buffer bufferBytes, none => FileContext.appendFile c.path buffer bufferBytes
  | .appendFile buffer bufferBytes, some cb =>
    FileContext.appendFileWithCallback c.path buffer bufferBytes cb.callback cb.bufferAction
      cb.callbackUserData
  | .fileExists, none => FileContext.fileExists c.path
  | .fileExists, some cb =>
    FileContext.fileExistsWithCallback c.path cb.callback cb.callbackUserData
  | .fileSize, none => FileContext.fileSize c.path
  | .fileSize, some cb =>
    FileContext.fileSizeWithCallback c.path cb.callback cb.callbackUserData
  | .deleteFile, none => FileContext.deleteFile c.path
  | .deleteFile, some cb =>
    FileContext.deleteFileWithCallback c.path cb.callback cb.callbackUserData
  | .createDir, none => FileContext.createDir c.path
  | .createDir, some cb =>
    FileContext.createDirWithCallback c.path cb.callback cb.callbackUserData
  | .deleteDir, none => FileContext.deleteDir c.path
  | .deleteDir, some cb =>
    FileContext.deleteDirWithCallback c.path cb.callback cb.callbackUserData

/-! ### What a call names -/

/-- The operation that the call names. -/
def operation (c : Call) : Operation :=
  match c.verb with
  | .readFile .. | .readFileSegment .. => .opRead
  | .writeFile .. => .opWrite
  | .writeFileSegment .. => .opWriteSegment
  | .appendFile .. => .opAppend
  | .fileExists => .opExists
  | .fileSize => .opSize
  | .deleteFile => .opDelete
  | .createDir => .opCreateDir
  | .deleteDir => .opDeleteDir

/-- The device call that the call names, on the given device path. -/
def deviceCall (contextAlloc : Allocator) (c : Call) (devicePath : CString) : DeviceCall :=
  match c.verb with
  | .readFile nullTerminate alloc =>
    .readFile devicePath 0 (2 ^ 64 - 1) (some (alloc.getD contextAlloc)) nullTerminate
  | .readFileSegment offset maxBytes nullTerminate alloc =>
    .readFile devicePath offset maxBytes (some (alloc.getD contextAlloc)) nullTerminate
  | .writeFile buffer bufferBytes => .writeFile devicePath 0 buffer bufferBytes .truncate
  | .writeFileSegment offset buffer bufferBytes =>
    .writeFile devicePath offset buffer bufferBytes .segment
  | .appendFile buffer bufferBytes => .writeFile devicePath 0 buffer bufferBytes .append
  | .fileExists => .fileExists devicePath
  | .fileSize => .fileSize devicePath
  | .deleteFile => .deleteFile devicePath
  | .createDir => .createDir devicePath
  | .deleteDir => .deleteDir devicePath

/-- The item that the call asks for. -/
def item (contextAlloc : Allocator) (c : Call) : WorkItem :=
  let asked : WorkItem := { WorkItem.new with
    operation := c.operation
    filename := normalizePath c.path
    callback := c.withCallback.map CallbackArgs.callback
    callbackUserData := (c.withCallback.map CallbackArgs.callbackUserData).getD 0 }
  let action := (c.withCallback.map CallbackArgs.bufferAction).getD .doNotFreeBuffer
  match c.verb with
  | .readFile nullTerminate alloc =>
    { asked with
      allocator := some (alloc.getD contextAlloc)
      bufferBytes := 2 ^ 64 - 1
      nullTerminate := nullTerminate
      callbackBufferAction := action }
  | .readFileSegment offset maxBytes nullTerminate alloc =>
    { asked with
      allocator := some (alloc.getD contextAlloc)
      bufferBytes := maxBytes
      offset := offset
      nullTerminate := nullTerminate
      callbackBufferAction := action }
  | .writeFile buffer bufferBytes | .appendFile buffer bufferBytes =>
    { asked with
      buffer := buffer
      bufferBytes := bufferBytes
      callbackBufferAction := action }
  | .writeFileSegment offset buffer bufferBytes =>
    { asked with
      buffer := buffer
      bufferBytes := bufferBytes
      offset := offset
      callbackBufferAction := action }
  | .fileExists | .fileSize | .deleteFile | .createDir | .deleteDir => asked

/-! ### What the plans do -/

/-- The operation of the item at the push. -/
def pushedOperation (c : Call) : Operation :=
  match c.verb, c.withCallback with
  | .writeFile .., none => .opWriteSegment
  | _, _ => c.operation

variable (contextAlloc : Allocator) (c : Call)

/-- At the push the item is as asked for, but for the operation in `writeFile`. -/
lemma built_eq : (c.plan contextAlloc).built =
    { c.item contextAlloc with operation := c.pushedOperation } := by
  obtain ⟨verb, path, cb⟩ := c
  cases verb <;> cases cb <;> simp only [plan, operation, pushedOperation, item,
    FileContext.readFile, FileContext.readFileWithCallback, FileContext.readFileSegment,
    FileContext.readFileSegmentWithCallback, FileContext.writeFile,
    FileContext.writeFileWithCallback, FileContext.writeFileSegment,
    FileContext.writeFileSegmentWithCallback, FileContext.appendFile,
    FileContext.appendFileWithCallback, FileContext.fileExists,
    FileContext.fileExistsWithCallback, FileContext.fileSize, FileContext.fileSizeWithCallback,
    FileContext.deleteFile, FileContext.deleteFileWithCallback, FileContext.createDir,
    FileContext.createDirWithCallback, FileContext.deleteDir,
    FileContext.deleteDirWithCallback, submit, submitWithCallback, FileContext.readStores,
    Plan.built, initWorkItem, List.cons_append, List.nil_append, Store.applyAll_cons,
    Store.applyAll_nil, Store.apply, WorkItem.new, Option.map_none, Option.map_some,
    Option.getD_some, Option.getD_none]

/-- There is an assignment after the push exactly if the operation is not yet the one asked
for. -/
lemma late_eq_if : (c.plan contextAlloc).late =
    if c.pushedOperation = c.operation then [] else [.operation c.operation] := by
  obtain ⟨verb, path, cb⟩ := c
  cases verb <;> cases cb <;> rfl

lemma item_operation : (c.item contextAlloc).operation = c.operation := by
  unfold item
  cases c.verb <;> rfl

/-- **The plan of a call** ends with the item that the call asks for. -/
theorem final_eq : (c.plan contextAlloc).final = c.item contextAlloc := by
  have hitem : { c.item contextAlloc with operation := c.operation } = c.item contextAlloc := by
    rw [← item_operation contextAlloc c]
  rw [Plan.final, late_eq_if, built_eq]
  split
  · rename_i h
    rw [h, Store.applyAll_nil]
    exact hitem
  · exact hitem

/-- The item at the push shows the callback of the call, and that it is not complete. -/
lemma built_callback :
    (c.plan contextAlloc).built.callback = (c.plan contextAlloc).callback ∧
      (c.plan contextAlloc).built.completed = false := by
  obtain ⟨verb, path, cb⟩ := c
  cases verb <;> cases cb <;> exact ⟨rfl, rfl⟩

/-- The only assignment after a push is the one to the operation in `writeFile`. -/
lemma late_eq :
    (c.plan contextAlloc).late = [] ∨
      (c.plan contextAlloc).late = [.operation .opWrite] ∧ c.withCallback = none ∧
        ∃ buffer bufferBytes, c.verb = .writeFile buffer bufferBytes := by
  obtain ⟨verb, path, cb⟩ := c
  cases verb <;> cases cb <;> first | exact Or.inl rfl | exact Or.inr ⟨rfl, rfl, _, _, rfl⟩

/-- So an assignment that is still to be made after the push is that one. -/
lemma of_late {c : Call} {done todo : List Store} {store : Store}
    (h : (c.plan contextAlloc).late = done ++ store :: todo) :
    store = .operation .opWrite ∧ c.withCallback = none ∧
      ∃ buffer bufferBytes, c.verb = .writeFile buffer bufferBytes := by
  rcases late_eq contextAlloc c with hnil | ⟨hone, hcallback, hverb⟩
  · rw [hnil] at h
    simp at h
  · rw [hone] at h
    cases done with
    | nil =>
      simp only [List.nil_append, List.cons.injEq] at h
      exact ⟨h.1.symm, hcallback, hverb⟩
    | cons d done => simp at h

/-- A submission function returns the item exactly if it takes no callback. -/
lemma returnsItem_eq : (c.plan contextAlloc).returnsItem = !c.withCallback.isSome := by
  obtain ⟨verb, path, cb⟩ := c
  cases verb <;> cases cb <;> rfl

lemma callback_isSome : (c.plan contextAlloc).callback.isSome = c.withCallback.isSome := by
  obtain ⟨verb, path, cb⟩ := c
  cases verb <;> cases cb <;> rfl

end Call

/-! ### A pool without a free slot -/

/-- What `allocWorkItemCommon` does when the pool has no slot. -/
inductive OutOfSlots where
  /-- the memory for the copy of the path is allocated -/
  | allocPath (block : ℕ)
  /-- the callback is called with the item on the stack -/
  | callback (function : ℕ) (errorItem : WorkItem) (callbackUserData : ℕ)
  /-- the copy of the path is freed -/
  | freePath (block : ℕ)
deriving DecidableEq, Repr

/-- `allocWorkItemCommon` behind a failed `_workItemPool.alloc()`.  The `_allocator` of the item
on the stack is not initialised. -/
def allocWorkItemFailed (path : CString) (op : Operation) (callback : Option ℕ)
    (callbackUserData : ℕ) (bufferAction : CallbackBufferAction) (stack : Option Allocator)
    (block : ℕ) : List OutOfSlots :=
  match callback with
  | none => []
  | some function =>
    let errorItem := { Store.applyAll
        (initWorkItem path op callback callbackUserData bufferAction)
        { WorkItem.new with allocator := stack } with
      completed := true
      resultCode := .outOfWorkItems }
    [.allocPath block, .callback function errorItem callbackUserData, .freePath block]

namespace Call

/-- What the function that is called does when the pool has no slot. -/
def outOfSlots (contextAlloc : Allocator) (c : Call) (stack : Option Allocator) (block : ℕ) :
    List OutOfSlots :=
  let item := c.item contextAlloc
  allocWorkItemFailed c.path c.pushedOperation item.callback item.callbackUserData
    item.callbackBufferAction stack block

/-- The arguments of `allocWorkItemCommon` are the same as when there is a slot. -/
lemma stores_eq (contextAlloc : Allocator) (c : Call) :
    initWorkItem c.path c.pushedOperation (c.item contextAlloc).callback
        (c.item contextAlloc).callbackUserData (c.item contextAlloc).callbackBufferAction <+:
      (c.plan contextAlloc).stores := by
  obtain ⟨verb, path, cb⟩ := c
  cases verb <;> cases cb <;> exact ⟨_, rfl⟩

end Call

end LaminaFS
