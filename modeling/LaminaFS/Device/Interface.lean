/-
# Device interfaces and mounts

`FileContext::DeviceInterface`, the table of functions of a device type, and
`FileContext::MountInfo`.  A device (the `void *` of the source) is a value of the type `D`,
and the functions read and change a world of type `W`, which is everything a device can
reach: disks, archives, its own memory.
-/
import LaminaFS.SharedTypes

namespace LaminaFS

/-- A client's `lfs_allocator_t`, whose functions can be called. -/
structure Allocator where
  id : ℕ
deriving DecidableEq, Repr

/-- The memory behind a buffer pointer: memory of the caller, or a block that a device
obtained from an allocator. -/
inductive Buffer where
  | client (id : ℕ) (bytes : List UInt8)
  | block (id : ℕ) (bytes : List UInt8)
deriving DecidableEq, Repr

/-- What `_fileSize` returns, and the code it stores through `outError`, if any. -/
structure SizeResult where
  bytes : ℕ
  error : Option ErrorCode
deriving DecidableEq, Repr

/-- What `_readFile` does to `*buffer`: a device stores nothing, null, or a block that it
allocated with the allocator it was passed. -/
inductive BufferStore where
  | untouched
  | null
  | block (bytes : List UInt8)
deriving DecidableEq, Repr

/-- What `_readFile` returns, and what it stores through its pointer arguments. -/
structure ReadResult where
  bytes : ℕ
  error : Option ErrorCode
  buffer : BufferStore
deriving DecidableEq, Repr

/-- What `_writeFile` returns, and the code it stores through `outError`, if any. -/
structure WriteResult where
  bytes : ℕ
  error : Option ErrorCode
deriving DecidableEq, Repr

/-- `FileContext::DeviceInterface`, as it is after `registerDeviceInterface` has checked that
the first five functions are there. -/
structure DeviceInterface (D W : Type) where
  create : CString → W → (ErrorCode × Option D) × W
  destroy : D → W → W
  fileExists : D → CString → W → Bool × W
  fileSize : D → CString → W → SizeResult × W
  readFile : D → CString → ℕ → ℕ → Option Allocator → Bool → W → ReadResult × W
  writeFile : Option (D → CString → ℕ → Option Buffer → ℕ → WriteMode → W → WriteResult × W)
  deleteFile : Option (D → CString → W → ErrorCode × W)
  createDir : Option (D → CString → W → ErrorCode × W)
  deleteDir : Option (D → CString → W → ErrorCode × W)

/-- The argument of `registerDeviceInterface`: any of the functions can be null. -/
structure DeviceFunctions (D W : Type) where
  create : Option (CString → W → (ErrorCode × Option D) × W)
  destroy : Option (D → W → W)
  fileExists : Option (D → CString → W → Bool × W)
  fileSize : Option (D → CString → W → SizeResult × W)
  readFile : Option (D → CString → ℕ → ℕ → Option Allocator → Bool → W → ReadResult × W)
  writeFile : Option (D → CString → ℕ → Option Buffer → ℕ → WriteMode → W → WriteResult × W)
  deleteFile : Option (D → CString → W → ErrorCode × W)
  createDir : Option (D → CString → W → ErrorCode × W)
  deleteDir : Option (D → CString → W → ErrorCode × W)

/-- `FileContext::registerDeviceInterface`: the result, an `int32_t`, and the registered
interfaces. -/
def registerDeviceInterface {D W : Type} (interfaces : List (DeviceInterface D W))
    (f : DeviceFunctions D W) : ℤ × List (DeviceInterface D W) :=
  match f.create, f.destroy, f.fileExists, f.fileSize, f.readFile with
  | some create, some destroy, some fileExists, some fileSize, some readFile =>
    (Int.bmod interfaces.length (2 ^ 32),
      interfaces ++ [⟨create, destroy, fileExists, fileSize, readFile, f.writeFile, f.deleteFile,
        f.createDir, f.deleteDir⟩])
  | _, _, _, _, _ => (-1, interfaces)

/-- A device type without any files, which supports the required functions only. -/
def DeviceInterface.empty : DeviceInterface Unit Unit where
  create _ w := ((.ok, some ()), w)
  destroy _ w := w
  fileExists _ _ w := (false, w)
  fileSize _ _ w := (⟨0, some .notFound⟩, w)
  readFile _ _ _ _ _ _ w := (⟨0, some .notFound, .untouched⟩, w)
  writeFile := none
  deleteFile := none
  createDir := none
  deleteDir := none

/-- `FileContext::MountInfo`; `handle` is the address of the record, the `Mount` that
`createMount` returns. -/
structure MountInfo (D W : Type) where
  handle : ℕ
  prefixStr : CString
  device : D
  interface : DeviceInterface D W
  permissions : Permissions

/-- `_prefixLen`. -/
def MountInfo.prefixLen {D W : Type} (m : MountInfo D W) : ℕ := u32 m.prefixStr.length

/-- An empty device that is mounted at the root. -/
def emptyMount (handle : ℕ) (permissions : Permissions) : MountInfo Unit Unit :=
  ⟨handle, [slash], (), .empty, permissions⟩

section CreateMount

variable {D W : Type}

open Permissions

/-- `supportedPermissions` in `createMount`. -/
def DeviceInterface.supportedPermissions (i : DeviceInterface D W) : Permissions :=
  mountRead |||
    (if i.writeFile.isSome then mountWriteFile else 0) |||
    (if i.deleteFile.isSome then mountDeleteFile else 0) |||
    (if i.createDir.isSome then mountCreateDir else 0) |||
    (if i.deleteDir.isSome then mountDeleteDir else 0)

/-- Each bit of the supported permissions stands for one of the optional functions. -/
lemma DeviceInterface.supportedPermissions_has (i : DeviceInterface D W) :
    i.supportedPermissions.has mountWriteFile = i.writeFile.isSome ∧
      i.supportedPermissions.has mountDeleteFile = i.deleteFile.isSome ∧
      i.supportedPermissions.has mountCreateDir = i.createDir.isSome ∧
      i.supportedPermissions.has mountDeleteDir = i.deleteDir.isSome := by
  unfold supportedPermissions
  generalize i.writeFile.isSome = a
  generalize i.deleteFile.isSome = b
  generalize i.createDir.isSome = c
  generalize i.deleteDir.isSome = d
  revert a b c d
  decide

/-- `calculatedPermissions` in `createMount`. -/
def DeviceInterface.calculatedPermissions (i : DeviceInterface D W)
    (mountPermissions : Permissions) : Permissions :=
  if mountPermissions = mountDefault then i.supportedPermissions
  else mountPermissions &&& i.supportedPermissions

/-- The arguments of `createMount`. -/
structure MountArgs where
  deviceType : ℕ
  mountPoint : CString
  devicePath : CString
  mountPermissions : Permissions
deriving DecidableEq, Repr

/-- `createMount` up to the lock: the result code and, on success, the new record, which the
allocator has put at `handle`. -/
def makeMount (interfaces : List (DeviceInterface D W)) (args : MountArgs) (handle : ℕ)
    (w : W) : (ErrorCode × Option (MountInfo D W)) × W :=
  match interfaces[args.deviceType]? with
  | none => ((.invalidDevice, none), w)
  | some interface =>
    let permissions := interface.calculatedPermissions args.mountPermissions
    if permissions = 0 then ((.permissionsError, none), w)
    else
      match interface.create args.devicePath w with
      | ((.ok, some device), w) =>
        ((.ok, some ⟨handle, args.mountPoint, device, interface, permissions⟩), w)
      | ((result, _), w) => ((result, none), w)

end CreateMount

end LaminaFS
