/-
# `DirectoryDevice`, Win32 branch

The calls of the Win32 branch as a record on a world `W`, and `readFile` and `writeFile` over them,
statement for statement.  `createFile` stands for `widen` and `CreateFileW` together.
`SetFilePointer` returns the low word of the new position, and the source takes the greatest word
for its failure; `ReadFile` and `WriteFile` get a count of 32 bits.
-/
import LaminaFS.Device.Writing

namespace LaminaFS

/-- The values of `GetLastError` that the device tells apart, and the others. -/
inductive WinError where
  | fileNotFound
  | pathNotFound
  | accessDenied
  | alreadyExists
  | diskFull
  | other (n : ℕ)
deriving DecidableEq, Repr

/-- `convertError`, Win32. -/
def WinError.convertError : WinError → ErrorCode
  | .fileNotFound => .notFound
  | .pathNotFound => .notFound
  | .accessDenied => .permissionsError
  | .alreadyExists => .alreadyExists
  | .diskFull => .outOfSpace
  | .other _ => .genericError

/-- The access modes of `CreateFileW` that the device uses. -/
inductive AccessMode where
  | genericRead
  | genericWrite
deriving DecidableEq, Repr

/-- The creation dispositions of `CreateFileW` that the device uses. -/
inductive CreateMode where
  | createAlways
  | openAlways
  | openExisting
deriving DecidableEq, Repr

/-- The starting points of `SetFilePointer`. -/
inductive MoveMethod where
  | fileBegin
  | fileEnd
deriving DecidableEq, Repr

/-- The system calls, and the outcome of an allocation of the given size.  `setFilePointer` gives
the whole new position.  `readFile` is told whether it has a buffer, and `closeHandle` gets no
handle for `INVALID_HANDLE_VALUE`. -/
structure Win32 (W : Type) where
  createFile : CString → AccessMode → CreateMode → W → Except WinError ℕ × W
  getFileSizeEx : ℕ → W → Except WinError ℕ × W
  setFilePointer : ℕ → ℤ → MoveMethod → W → Except WinError ℕ × W
  readFile : ℕ → Bool → ℕ → W → Except WinError (List UInt8) × W
  writeFile : ℕ → List UInt8 → W → Except WinError ℕ × W
  closeHandle : Option ℕ → W → W
  alloc : Option Allocator → ℕ → W → Bool × W

/-- `INVALID_SET_FILE_POINTER`. -/
def invalidSetFilePointer : ℕ := 2 ^ 32 - 1

/-- The word that `SetFilePointer` returns. -/
def lowPart : Except WinError ℕ → ℕ
  | .ok n => u32 n
  | .error _ => invalidSetFilePointer

/-- `fileSize` after `std::min` in `readFile`: how many bytes are asked for. -/
def readCount (fileSize offset maxBytes : ℕ) : ℕ := min (sub64 fileSize offset) maxBytes

/-- The disposition for a write mode. -/
def WriteMode.createFlags : WriteMode → CreateMode
  | .truncate => .createAlways
  | .append => .openAlways
  | .segment => .openExisting

namespace DirectoryDevice

variable {W : Type}

/-- The byte `'\\'`. -/
abbrev backslash : UInt8 := 92

/-- `getDevicePath`, with backslashes. -/
def getDevicePathWin32 (dev : DirectoryDevice) (filePath : CString) : CString :=
  (dev.getDevicePath filePath).map fun b => if b = slash then backslash else b

/-- `openFile`. -/
def openFileWin32 (os : Win32 W) (dev : DirectoryDevice) (filePath : CString)
    (accessMode : AccessMode) (createMode : CreateMode) (w : W) : Except WinError ℕ × W :=
  os.createFile (dev.getDevicePathWin32 filePath) accessMode createMode w

/-- `readFile` from the allocation on, with `count` bytes to read.  The pointer that the allocator
returns is not tested: a read into null fails, or reads nothing, and then the terminator is written
through it, which gives no result.  The code of a read that fails is overwritten. -/
def readBlockWin32 (os : Win32 W) (file count : ℕ) (alloc : Option Allocator)
    (nullTerminate : Bool) (w : W) : Option (ReadResult × W) :=
  match os.alloc alloc ((count + if nullTerminate then 1 else 0) % 2 ^ 64) w with
  | (allocated, w) =>
    match os.readFile file allocated (u32 count) w with
    | (.error _, w) =>
      some (⟨0, some .ok, if allocated then .block [] else .null⟩, os.closeHandle (some file) w)
    | (.ok bytes, w) =>
      if allocated then
        some (⟨bytes.length, some .ok, .block (terminated nullTerminate bytes)⟩,
          os.closeHandle (some file) w)
      else if nullTerminate then none
      else some (⟨bytes.length, some .ok, .null⟩, os.closeHandle (some file) w)

/-- `readFile` on the open file.  A seek that seems to fail leaves `outError` as it is. -/
def readOpenedWin32 (os : Win32 W) (file offset maxBytes : ℕ) (alloc : Option Allocator)
    (nullTerminate : Bool) (w : W) : Option (ReadResult × W) :=
  match os.getFileSizeEx file w with
  | (.error e, w) => some (⟨0, some e.convertError, .untouched⟩, os.closeHandle (some file) w)
  | (.ok fileSize, w) =>
    if fileSize ≠ 0 then
      match os.setFilePointer file (toOff offset) .fileBegin w with
      | (sought, w) =>
        if lowPart sought = invalidSetFilePointer then
          some (⟨0, none, .untouched⟩, os.closeHandle (some file) w)
        else
          readBlockWin32 os file (readCount fileSize offset maxBytes) alloc nullTerminate w
    else some (⟨0, some .ok, .null⟩, os.closeHandle (some file) w)

/-- `readFile`. -/
def readFileWin32 (os : Win32 W) (dev : DirectoryDevice) (filePath : CString)
    (offset maxBytes : ℕ) (alloc : Option Allocator) (nullTerminate : Bool) (w : W) :
    Option (ReadResult × W) :=
  match dev.openFileWin32 os filePath .genericRead .openExisting w with
  | (.error _, w) => some (⟨0, some .notFound, .untouched⟩, w)
  | (.ok file, w) => readOpenedWin32 os file offset maxBytes alloc nullTerminate w

/-- The seek of `writeFile` in the write mode; whether it seems to succeed. -/
def seekWin32 (os : Win32 W) (file offset : ℕ) (writeMode : WriteMode) (w : W) : Bool × W :=
  match writeMode with
  | .truncate => (true, w)
  | .append =>
    match os.setFilePointer file 0 .fileEnd w with
    | (sought, w) => (lowPart sought != invalidSetFilePointer, w)
  | .segment =>
    match os.setFilePointer file (toOff offset) .fileBegin w with
    | (sought, w) => (lowPart sought != invalidSetFilePointer, w)

/-- `writeFile`; the handle is closed also when there is none. -/
def writeFileWin32 (os : Win32 W) (dev : DirectoryDevice) (filePath : CString)
    (offset : ℕ) (buffer : Option Buffer) (bytesToWrite : ℕ) (writeMode : WriteMode) (w : W) :
    WriteResult × W :=
  match dev.openFileWin32 os filePath .genericWrite writeMode.createFlags w with
  | (.error e, w) => (⟨0, some e.convertError⟩, os.closeHandle none w)
  | (.ok file, w) =>
    match seekWin32 os file offset writeMode w with
    | (false, w) => (⟨0, some .genericError⟩, os.closeHandle (some file) w)
    | (true, w) =>
      match os.writeFile file ((buffer.elim [] Buffer.bytes).take (u32 bytesToWrite)) w with
      | (.error _, w) => (⟨0, some .genericError⟩, os.closeHandle (some file) w)
      | (.ok bytes, w) => (⟨bytes, some .ok⟩, os.closeHandle (some file) w)

end DirectoryDevice

end LaminaFS
