/-
# `DirectoryDevice`, POSIX branch

The device of the paths below one directory of the disk.  The functions that a lookup calls
are modelled statement for statement over the calls of `Posix`; `rounds` bounds how often a
call may be interrupted in a row.
-/
import LaminaFS.Device.Posix

namespace LaminaFS

/-- `DirectoryDevice`: the path of its root and the length kept in a `uint32_t`. -/
structure DirectoryDevice where
  devicePath : CString
  pathLen : ℕ
deriving DecidableEq, Repr

namespace DirectoryDevice

variable {W : Type}

/-- The constructor. -/
def new (path : CString) : DirectoryDevice where
  devicePath := path
  pathLen := u32 path.length

/-- `getDevicePath`: the string that the two `strcpy` calls leave. -/
def getDevicePath (dev : DirectoryDevice) (filePath : CString) : CString :=
  dev.devicePath.take dev.pathLen ++ filePath

lemma getDevicePath_new {root : CString} (h : root.length < 2 ^ 32) (filePath : CString) :
    (new root).getDevicePath filePath = root ++ filePath := by
  rw [getDevicePath, new, u32_of_lt h, List.take_length]

/-- `openFile`. -/
def openFile (os : Posix W) (rounds : ℕ) (dev : DirectoryDevice) (filePath : CString)
    (openFlags : OpenFlags) (w : W) : Except Errno ℕ × W :=
  retry (os.openFile (dev.getDevicePath filePath) openFlags) rounds w

/-- `fileExists`. -/
def fileExists (os : Posix W) (dev : DirectoryDevice) (filePath : CString) (w : W) :
    Bool × W :=
  match os.stat (dev.getDevicePath filePath) w with
  | .ok (.regular _) => (true, w)
  | _ => (false, w)

/-- `fileSize`. -/
def fileSize (os : Posix W) (dev : DirectoryDevice) (filePath : CString) (w : W) :
    SizeResult × W :=
  match os.stat (dev.getDevicePath filePath) w with
  | .ok (.regular size) => (⟨size, some .ok⟩, w)
  | .error e => (⟨0, some (convertError e)⟩, w)
  | .ok _ => (⟨0, some .unsupported⟩, w)

/-- The block that `readFile` fills: the bytes read, and the terminator behind them. -/
def terminated (nullTerminate : Bool) (bytes : List UInt8) : List UInt8 :=
  if nullTerminate then bytes ++ [0] else bytes

/-- `readFile` from the allocation on, with `count` bytes to read. -/
def readBlock (os : Posix W) (rounds : ℕ) (file count : ℕ) (alloc : Option Allocator)
    (nullTerminate : Bool) (w : W) : ReadResult × W :=
  match os.alloc alloc ((count + if nullTerminate then 1 else 0) % 2 ^ 64) w with
  | (true, w) =>
    match retry (os.read file count) rounds w with
    | (.error e, w) => (⟨0, some (convertError e), .null⟩, os.close file w)
    | (.ok bytes, w) =>
      (⟨bytes.length, some .ok, .block (terminated nullTerminate bytes)⟩, os.close file w)
  | (false, w) => (⟨0, some .ok, .null⟩, os.close file w)

/-- `readFile` on the open file.  The seek to the offset is stored as a boolean, so that its
failure is never noticed; and an empty file leaves `outError` and `buffer` as they are. -/
def readOpened (os : Posix W) (rounds : ℕ) (file offset maxBytes : ℕ)
    (alloc : Option Allocator) (nullTerminate : Bool) (w : W) : ReadResult × W :=
  match os.lseek file 0 .seekEnd w with
  | (sought, w) =>
    let fileSize := toU64 (raw sought)
    if fileSize = 2 ^ 64 - 1 then
      (⟨0, some (convertError (errnoOf (.other 0) sought)), .untouched⟩, os.close file w)
    else if fileSize ≠ 0 then
      match os.lseek file (toOff offset) .seekSet w with
      | (sought, w) =>
        let seekedOffset : ℤ := if raw sought = toOff offset then 1 else 0
        if seekedOffset ≠ -1 then
          readBlock os rounds file (min (sub64 fileSize offset) maxBytes) alloc nullTerminate w
        else
          (⟨0, some (convertError (errnoOf (.other 0) sought)), .untouched⟩, os.close file w)
    else (⟨0, none, .untouched⟩, os.close file w)

/-- `readFile`. -/
def readFile (os : Posix W) (rounds : ℕ) (dev : DirectoryDevice) (filePath : CString)
    (offset maxBytes : ℕ) (alloc : Option Allocator) (nullTerminate : Bool) (w : W) :
    ReadResult × W :=
  match dev.openFile os rounds filePath {} w with
  | (.error e, w) => (⟨0, some (convertError e), .untouched⟩, w)
  | (.ok file, w) => readOpened os rounds file offset maxBytes alloc nullTerminate w

/-- `create`. -/
def create (os : Posix W) (path : CString) (w : W) :
    (ErrorCode × Option DirectoryDevice) × W :=
  match os.stat path w with
  | .ok .directory => ((.ok, some (new path)), w)
  | _ => ((.notFound, none), w)

/-- The interface that the constructor of `FileContext` registers, with the functions that
change the disk as a parameter. -/
def interface (os : Posix W) (rounds : ℕ)
    (writeFile : DirectoryDevice → CString → ℕ → Option Buffer → ℕ → WriteMode → W →
      WriteResult × W)
    (deleteFile createDir deleteDir : DirectoryDevice → CString → W → ErrorCode × W) :
    DeviceInterface DirectoryDevice W where
  create := create os
  destroy _ w := w
  fileExists := fileExists os
  fileSize := fileSize os
  readFile := readFile os rounds
  writeFile := some writeFile
  deleteFile := some deleteFile
  createDir := some createDir
  deleteDir := some deleteDir

end DirectoryDevice

end LaminaFS
