/-
# Mutating operations and the permissions of mounts

What the permissions of mounts promise: a mutating operation reaches the newest mount that
accepts the path and has the permission, and nothing else.  The filter of
`findMutableMountAndPath` keeps this promise for every operation but `LFS_OP_WRITE_SEGMENT`,
which it does not mention.
-/
import LaminaFS.Processing.Item
import Mathlib.Data.List.Basic

namespace LaminaFS

open Permissions

/-- The permission that an operation needs. -/
def Operation.needed : Operation → Permissions
  | .opExists | .opSize | .opRead => mountRead
  | .opWrite | .opAppend | .opWriteSegment => mountWriteFile
  | .opDelete => mountDeleteFile
  | .opCreateDir => mountCreateDir
  | .opDeleteDir => mountDeleteDir

/-- The permission that a case of the `switch` needs. -/
def Mutation.permission : Mutation → Permissions
  | .writeFile => mountWriteFile
  | .deleteFile => mountDeleteFile
  | .createDir => mountCreateDir
  | .deleteDir => mountDeleteDir

variable {D W : Type} {mounts : List (MountInfo D W)} {item : WorkItem} {m : Mutation}

/-- The permissions of a mount are among those that its interface supports. -/
def MountInfo.Supported (mount : MountInfo D W) : Prop :=
  mount.permissions &&& mount.interface.supportedPermissions = mount.permissions

/-- The newest mount that accepts the path. -/
def newestMount (mounts : List (MountInfo D W)) (path : CString) : Option (MountInfo D W) :=
  mounts.reverse.find? fun mount => mount.accepts path

/-- The newest mount that accepts the path and has the permission for the operation. -/
def grantedMount (mounts : List (MountInfo D W)) (path : CString) (op : Operation) :
    Option (MountInfo D W) :=
  mounts.reverse.find? fun mount => mount.accepts path && mount.permissions.has op.needed

/-- The call that a mutating item asks for. -/
def WorkItem.mutationCall (item : WorkItem) (devicePath : CString) : Mutation → DeviceCall
  | .writeFile =>
    .writeFile devicePath item.offset item.buffer item.bufferBytes item.writeMode
  | .deleteFile => .deleteFile devicePath
  | .createDir => .createDir devicePath
  | .deleteDir => .deleteDir devicePath

/-- What the mutating function of the mount, if it has one, makes of the item and of what is
outside, when it is called with the device path. -/
def WorkItem.mutate (item : WorkItem) (mount : MountInfo D W) (w : W) :
    Mutation → Option (WorkItem × W)
  | .writeFile => mount.interface.writeFile.map fun f =>
    match f mount.device (mount.devicePath item.filename) item.offset item.buffer item.bufferBytes
      item.writeMode w with
    | (r, w) => ({ item with
        bufferBytes := r.bytes
        resultCode := r.error.getD item.resultCode }, w)
  | .deleteFile => mount.interface.deleteFile.map fun f =>
    match f mount.device (mount.devicePath item.filename) w with
    | (code, w) => ({ item with resultCode := code }, w)
  | .createDir => mount.interface.createDir.map fun f =>
    match f mount.device (mount.devicePath item.filename) w with
    | (code, w) => ({ item with resultCode := code }, w)
  | .deleteDir => mount.interface.deleteDir.map fun f =>
    match f mount.device (mount.devicePath item.filename) w with
    | (code, w) => ({ item with resultCode := code }, w)

/-- Processing the mutating item makes one device call, on the granted mount and with its
device path; what is in the item and outside then is what this one function has made of them,
and there is such a function if the mount is supported.  Without a granted mount it makes no
call, changes nothing outside and reports LFS_UNSUPPORTED. -/
def MutatesGranted (mounts : List (MountInfo D W)) (m : Mutation) (item : WorkItem) : Prop :=
  ∀ drift rounds w, ∃ r : Processed D W,
    processItem (fun _ => mounts) drift rounds item w = some r ∧
      match grantedMount mounts item.filename item.operation with
      | some mount =>
        r.calls.map (fun c => (c.mount, c.call)) =
            [(mount, item.mutationCall (mount.devicePath item.filename) m)] ∧
          (r.item, r.world) = (item.mutate mount w m).getD (item, w) ∧
          r.nullFunction = (item.mutate mount w m).isNone ∧
          (mount.Supported → r.nullFunction = false)
      | none =>
        r.calls = [] ∧ r.nullFunction = false ∧ r.world = w ∧ r.item.resultCode = .unsupported

/-! ### The filter -/

lemma needed_eq (hm : item.dispatch.2 = .mutation m) : item.operation.needed = m.permission := by
  unfold WorkItem.dispatch at hm
  cases h : item.operation <;> rw [h] at hm <;> cases hm <;> rfl

/-- For all mutating operations but one the filter passes over exactly the mounts without the
permission. -/
lemma passedOver_eq (hm : item.dispatch.2 = .mutation m)
    (hop : item.operation ≠ .opWriteSegment) (permissions : Permissions) :
    passedOver item.operation permissions = !permissions.has item.operation.needed := by
  unfold WorkItem.dispatch at hm
  simp only [passedOver]
  cases h : item.operation <;> rw [h] at hm hop
  case opWriteSegment => exact absurd rfl hop
  case opExists | opSize | opRead => cases hm
  all_goals
    simp only [Operation.needed]
    generalize permissions.has mountWriteFile = a
    generalize permissions.has mountDeleteFile = b
    generalize permissions.has mountCreateDir = c
    generalize permissions.has mountDeleteDir = d
    revert a b c d
    decide

/-- For `LFS_OP_WRITE_SEGMENT` the filter passes over no mount. -/
lemma passedOver_writeSegment (permissions : Permissions) :
    passedOver .opWriteSegment permissions = false := rfl

lemma find?_and_of_find? {α : Type} {p q : α → Bool} {l : List α} {a : α}
    (h : l.find? p = some a) (ha : q a = true) :
    l.find? (fun x => p x && q x) = some a := by
  induction l with
  | nil => cases h
  | cons b l ih =>
    rw [List.find?_cons] at h ⊢
    cases hb : p b with
    | true =>
      rw [hb] at h
      cases h
      simp [ha]
    | false =>
      rw [hb] at h
      simpa using ih h

lemma grantedMount_of_newest {path : CString} {op : Operation} {mount : MountInfo D W}
    (h : newestMount mounts path = some mount)
    (hp : mount.permissions.has op.needed = true) :
    grantedMount mounts path op = some mount :=
  find?_and_of_find? h hp

lemma grantedMount_has {path : CString} {op : Operation} {mount : MountInfo D W}
    (h : grantedMount mounts path op = some mount) :
    mount.permissions.has op.needed = true := by
  have := List.find?_some h
  rw [Bool.and_eq_true] at this
  exact this.2

lemma grantedMount_eq_none {path : CString} {op : Operation}
    (h : newestMount mounts path = none) : grantedMount mounts path op = none := by
  simp only [newestMount, grantedMount, List.find?_eq_none] at h ⊢
  intro x hx
  have := h x hx
  simp [this]

/-- `findMutableMountAndPath` gives the granted mount. -/
lemma findMutable_eq_granted (hm : item.dispatch.2 = .mutation m)
    (hop : item.operation ≠ .opWriteSegment) :
    findMutableMountAndPath mounts item.filename item.operation =
      (grantedMount mounts item.filename item.operation).map
        fun mount => (mount, mount.devicePath item.filename) := by
  rw [findMutableMountAndPath, scanMutable_eq]
  simp only [passedOver_eq hm hop, Bool.not_not, grantedMount]

/-- For `LFS_OP_WRITE_SEGMENT` it gives the newest mount. -/
lemma findMutable_writeSegment (path : CString) :
    findMutableMountAndPath mounts path .opWriteSegment =
      (newestMount mounts path).map fun mount => (mount, mount.devicePath path) := by
  rw [findMutableMountAndPath, scanMutable_eq]
  simp [passedOver_writeSegment, newestMount]

/-! ### The device functions -/

lemma has_of_supported {mount : MountInfo D W} {bit : Permissions} (h : mount.Supported)
    (hb : mount.permissions.has bit = true) :
    mount.interface.supportedPermissions.has bit = true := by
  unfold Permissions.has at hb ⊢
  rw [bne_iff_ne] at hb ⊢
  intro hz
  apply hb
  rw [← h, BitVec.and_assoc, hz]
  exact BitVec.and_zero

lemma callMutable_called {mount : MountInfo D W} {dp : CString} {w : W} :
    (callMutable m item.writeMode mount dp item w).called.mount = mount ∧
      (callMutable m item.writeMode mount dp item w).called.call = item.mutationCall dp m := by
  cases m <;> simp only [callMutable, callPath, WorkItem.mutationCall] <;> split <;> simp

/-- The call does what the function of the mount does, or goes through a null pointer. -/
lemma callMutable_mutate (m : Mutation) (item : WorkItem) (mount : MountInfo D W) (w : W) :
    ((callMutable m item.writeMode mount (mount.devicePath item.filename) item w).item,
        (callMutable m item.writeMode mount (mount.devicePath item.filename) item w).world) =
        (item.mutate mount w m).getD (item, w) ∧
      (callMutable m item.writeMode mount (mount.devicePath item.filename) item w).nullFunction =
        (item.mutate mount w m).isNone := by
  cases m with
  | writeFile =>
    rw [WorkItem.mutate, callMutable]
    cases mount.interface.writeFile <;> exact ⟨rfl, rfl⟩
  | deleteFile =>
    rw [WorkItem.mutate, callMutable]
    cases mount.interface.deleteFile <;> exact ⟨rfl, rfl⟩
  | createDir =>
    rw [WorkItem.mutate, callMutable]
    cases mount.interface.createDir <;> exact ⟨rfl, rfl⟩
  | deleteDir =>
    rw [WorkItem.mutate, callMutable]
    cases mount.interface.deleteDir <;> exact ⟨rfl, rfl⟩

/-- With the permission and a supported mount the function is there. -/
lemma callMutable_nullFunction {mount : MountInfo D W} {w : W}
    (hm : item.dispatch.2 = .mutation m) (hs : mount.Supported)
    (hp : mount.permissions.has item.operation.needed = true) :
    (callMutable m item.writeMode mount (mount.devicePath item.filename) item w).nullFunction =
      false := by
  have hsup := has_of_supported hs hp
  obtain ⟨hwrite, hdelete, hcreate, hremove⟩ := mount.interface.supportedPermissions_has
  rw [needed_eq hm] at hsup
  rw [(callMutable_mutate m item mount w).2, Option.isNone_eq_false_iff]
  cases m with
  | writeFile => rw [WorkItem.mutate, Option.isSome_map, ← hwrite]; exact hsup
  | deleteFile => rw [WorkItem.mutate, Option.isSome_map, ← hdelete]; exact hsup
  | createDir => rw [WorkItem.mutate, Option.isSome_map, ← hcreate]; exact hsup
  | deleteDir => rw [WorkItem.mutate, Option.isSome_map, ← hremove]; exact hsup

/-- The mounts that `createMount` makes are supported. -/
lemma makeMount_supported {interfaces : List (DeviceInterface D W)} {args : MountArgs}
    {handle : ℕ} {w : W} {mount : MountInfo D W}
    (h : (makeMount interfaces args handle w).1.2 = some mount) : mount.Supported := by
  unfold makeMount at h
  split at h
  · cases h
  · rename_i interface _
    dsimp only at h
    split at h
    · cases h
    · split at h
      · cases h
        unfold MountInfo.Supported DeviceInterface.calculatedPermissions
        dsimp only
        split
        · exact BitVec.and_self
        · rw [BitVec.and_assoc, BitVec.and_self]
      · cases h

/-! ### The promise -/

lemma processItem_mutation (hm : item.dispatch.2 = .mutation m) (drift : ℕ → W → W)
    (rounds : ℕ) (w : W) :
    processItem (fun _ => mounts) drift rounds item w =
      some (processMutation mounts m item w) := by
  have hitem : item.dispatch = (item, .mutation m) := by
    unfold WorkItem.dispatch at hm ⊢
    split at hm <;> cases hm <;> rfl
  rw [processItem, hitem]

/-- Where the search gives the granted mount, the promise is kept. -/
lemma mutatesGranted_of_found (hm : item.dispatch.2 = .mutation m)
    (h : findMutableMountAndPath mounts item.filename item.operation =
      (grantedMount mounts item.filename item.operation).map
        fun mount => (mount, mount.devicePath item.filename)) :
    MutatesGranted mounts m item := by
  intro drift rounds w
  refine ⟨_, processItem_mutation hm drift rounds w, ?_⟩
  rw [processMutation, h]
  cases hg : grantedMount mounts item.filename item.operation with
  | none =>
    simp only [Option.map_none]
    refine ⟨trivial, trivial, trivial, ?_⟩
    cases m <;> rfl
  | some mount =>
    simp only [Option.map_some, List.map_cons, List.map_nil]
    obtain ⟨hdone, hnull⟩ := callMutable_mutate m item mount w
    refine ⟨?_, hdone, hnull, fun hs => callMutable_nullFunction hm hs (grantedMount_has hg)⟩
    rw [callMutable_called.1, callMutable_called.2]

/-- **Permissions of mutations.**  The promise is kept for an item exactly when its operation
is not `LFS_OP_WRITE_SEGMENT` or the newest mount that accepts its path, if there is one, has
the permission to write. -/
theorem mutatesGranted_iff [Inhabited W] (hm : item.dispatch.2 = .mutation m) :
    MutatesGranted mounts m item ↔
      (item.operation = .opWriteSegment → ∀ mount, newestMount mounts item.filename = some mount →
        mount.permissions.has mountWriteFile = true) := by
  constructor
  · intro h hop mount hnewest
    obtain ⟨r, hr, h⟩ := h (fun _ w => w) 0 default
    rw [processItem_mutation hm, processMutation, hop, findMutable_writeSegment, hnewest] at hr
    cases hr
    rw [hop] at h
    cases hg : grantedMount mounts item.filename .opWriteSegment with
    | none =>
      rw [hg] at h
      exact absurd h.1 (by simp)
    | some granted =>
      rw [hg] at h
      have hcall := h.1
      simp only [Option.map_some, List.map_cons, List.map_nil, List.cons.injEq, Prod.mk.injEq]
        at hcall
      obtain rfl : mount = granted := callMutable_called.1.symm.trans hcall.1.1
      exact grantedMount_has hg
  · intro h
    by_cases hop : item.operation = .opWriteSegment
    · refine mutatesGranted_of_found hm ?_
      rw [hop, findMutable_writeSegment]
      cases hnewest : newestMount mounts item.filename with
      | none => rw [grantedMount_eq_none hnewest]
      | some mount =>
        rw [@grantedMount_of_newest _ _ _ _ .opWriteSegment _ hnewest (h hop mount hnewest)]
    · exact mutatesGranted_of_found hm (findMutable_eq_granted hm hop)

/-- A device type that notes in the world which devices have been written to. -/
def DeviceInterface.noting : DeviceInterface ℕ (List ℕ) where
  create _ w := ((.ok, some 0), w)
  destroy _ w := w
  fileExists _ _ w := (false, w)
  fileSize _ _ w := (⟨0, some .notFound⟩, w)
  readFile _ _ _ _ _ _ w := (⟨0, some .notFound, .untouched⟩, w)
  writeFile := some fun device _ _ _ bytes _ w => (⟨bytes, some .ok⟩, device :: w)
  deleteFile := none
  createDir := none
  deleteDir := none

/-- A writable base below a newer layer that may only be read. -/
def baseAndPatch : List (MountInfo ℕ (List ℕ)) :=
  [⟨1, [slash], 1, .noting, mountRead ||| mountWriteFile⟩, ⟨2, [slash], 2, .noting, mountRead⟩]

/-- Writing a file is within the promise: the layer that may only be read is passed over. -/
theorem mutatesGranted_iff_write :
    MutatesGranted baseAndPatch .writeFile
        { WorkItem.new with operation := .opWrite, filename := [slash, 97] } ↔
      (Operation.opWrite = .opWriteSegment → ∀ mount,
        newestMount baseAndPatch [slash, 97] = some mount →
        mount.permissions.has mountWriteFile = true) :=
  mutatesGranted_iff rfl

/-- `writeFileSegment` writes to the layer that may only be read. -/
theorem writeSegment_not_granted :
    ¬ MutatesGranted baseAndPatch .writeFile
      { WorkItem.new with operation := .opWriteSegment, filename := [slash, 97] } := by
  intro h
  obtain ⟨r, hr, h⟩ := h (fun _ w => w) 0 []
  have hcalls : r.calls.map (fun c => c.mount.handle) = [2] := by
    cases hr
    rfl
  have hgranted : (grantedMount baseAndPatch [slash, 97] .opWriteSegment).map
      MountInfo.handle = some 1 := by decide
  obtain ⟨mount, hmount, hhandle⟩ := Option.map_eq_some_iff.mp hgranted
  rw [hmount] at h
  have := congrArg (List.map fun c => c.1.handle) h.1
  rw [List.map_map] at this
  exact absurd (hcalls.symm.trans this) (by simp [hhandle])

end LaminaFS
