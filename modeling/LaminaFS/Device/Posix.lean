/-
# The POSIX calls of the directory device

The system as the device sees it: a record of calls on a world `W`.  A call that fails
gives an `errno`.  `lseek` and the like return -1 then, and the source compares such raw
results with casts of its own numbers, so `raw` and the casts are spelled out.

`ByteFiles` below is the system in which regular files are byte arrays.
-/
import LaminaFS.Device.Interface
import Mathlib.Data.Int.Notation
import Mathlib.Logic.Function.Basic

namespace LaminaFS

/-- The values of `errno` that the device tells apart, and the others. -/
inductive Errno where
  | eexist
  | eperm
  | eacces
  | erofs
  | enoent
  | enospc
  | eintr
  | enotdir
  | eisdir
  | einval
  | other (n : ℕ)
deriving DecidableEq, Repr

/-- `convertError`, POSIX. -/
def convertError : Errno → ErrorCode
  | .eexist => .alreadyExists
  | .eperm => .permissionsError
  | .eacces => .permissionsError
  | .erofs => .unsupported
  | .enoent => .notFound
  | .enospc => .outOfSpace
  | _ => .genericError

lemma convertError_ne_ok (e : Errno) : convertError e ≠ .ok := by
  cases e <;> exact nofun

/-- The `whence` argument of `lseek`. -/
inductive Whence where
  | seekSet
  | seekEnd
deriving DecidableEq, Repr

/-- The flags of `open` that the device uses. -/
structure OpenFlags where
  write : Bool := false
  create : Bool := false
  truncate : Bool := false
  append : Bool := false
deriving DecidableEq, Repr

/-- What `stat` tells about a path: a regular file with its size, a directory, or something
else. -/
inductive FileStat where
  | regular (size : ℕ)
  | directory
  | special
deriving DecidableEq, Repr

/-- The system calls, and the outcome of an allocation of the given size. -/
structure Posix (W : Type) where
  stat : CString → W → Except Errno FileStat
  openFile : CString → OpenFlags → W → Except Errno ℕ × W
  lseek : ℕ → ℤ → Whence → W → Except Errno ℕ × W
  read : ℕ → ℕ → W → Except Errno (List UInt8) × W
  close : ℕ → W → W
  alloc : Option Allocator → ℕ → W → Bool × W

/-- The raw result of a call that returns -1 on failure. -/
def raw : Except Errno ℕ → ℤ
  | .ok n => n
  | .error _ => -1

/-- `errno` after a failed call; a call that succeeded leaves some older value. -/
def errnoOf {α : Type} (stale : Errno) : Except Errno α → Errno
  | .ok _ => stale
  | .error e => e

/-- `static_cast<uint64_t>`. -/
def toU64 (n : ℤ) : ℕ := (n % 2 ^ 64).toNat

/-- `static_cast<off_t>` of a `uint64_t`. -/
def toOff (n : ℕ) : ℤ :=
  if n % 2 ^ 64 < 2 ^ 63 then (n % 2 ^ 64 : ℕ) else (n % 2 ^ 64 : ℕ) - 2 ^ 64

/-- A subtraction of `uint64_t` values. -/
def sub64 (a b : ℕ) : ℕ := (a + (2 ^ 64 - b % 2 ^ 64)) % 2 ^ 64

/-- `do ... while (result == -1 && errno == EINTR)`, with a bound on the interruptions. -/
def retry {W α : Type} (call : W → Except Errno α × W) : ℕ → W → Except Errno α × W
  | 0, w => call w
  | rounds + 1, w =>
    match call w with
    | (.error .eintr, w) => retry call rounds w
    | r => r

/-! ### Files as byte arrays -/

/-- What is at a path. -/
inductive Node where
  | absent (errno : Errno)
  | directory
  | regular (bytes : List UInt8)
deriving DecidableEq, Repr

/-- A file opened for reading. -/
structure OpenFile where
  path : CString
  pos : ℕ
deriving DecidableEq, Repr

/-- A file system in which every path is absent, a directory or a regular file.  POSIX
leaves open what seeking to the end of a directory gives (`dirEnd`) and which blocks the
allocator can provide (`hasMemory`). -/
structure ByteFiles where
  node : CString → Node
  opened : ℕ → OpenFile
  nextFd : ℕ
  dirEnd : CString → Except Errno ℕ
  hasMemory : ℕ → Bool

namespace ByteFiles

/-- `stat`. -/
def stat (path : CString) (fs : ByteFiles) : Except Errno FileStat :=
  match fs.node path with
  | .absent e => .error e
  | .directory => .ok .directory
  | .regular bytes => .ok (.regular bytes.length)

/-- `open` for reading. -/
def openFile (path : CString) (_ : OpenFlags) (fs : ByteFiles) : Except Errno ℕ × ByteFiles :=
  match fs.node path with
  | .absent e => (.error e, fs)
  | _ => (.ok fs.nextFd,
      { fs with
        opened := Function.update fs.opened fs.nextFd ⟨path, 0⟩
        nextFd := fs.nextFd + 1 })

/-- The end of the open file `fd`. -/
def endOf (fd : ℕ) (fs : ByteFiles) : Except Errno ℕ :=
  match fs.node (fs.opened fd).path with
  | .absent e => .error e
  | .directory => fs.dirEnd (fs.opened fd).path
  | .regular bytes => .ok bytes.length

/-- The file `fd` moved to the position `pos`. -/
def moveTo (fd pos : ℕ) (fs : ByteFiles) : ByteFiles :=
  { fs with opened := Function.update fs.opened fd { fs.opened fd with pos := pos } }

/-- `lseek`. -/
def lseek (fd : ℕ) (offset : ℤ) (whence : Whence) (fs : ByteFiles) :
    Except Errno ℕ × ByteFiles :=
  match whence with
  | .seekSet =>
    if offset < 0 then (.error .einval, fs) else (.ok offset.toNat, moveTo fd offset.toNat fs)
  | .seekEnd =>
    match endOf fd fs with
    | .error e => (.error e, fs)
    | .ok n => (.ok n, moveTo fd n fs)

/-- `read`: everything that is there, up to `count` bytes. -/
def read (fd count : ℕ) (fs : ByteFiles) : Except Errno (List UInt8) × ByteFiles :=
  match fs.node (fs.opened fd).path with
  | .absent e => (.error e, fs)
  | .directory => (.error .eisdir, fs)
  | .regular bytes =>
    let got := (bytes.drop (fs.opened fd).pos).take count
    (.ok got, moveTo fd ((fs.opened fd).pos + got.length) fs)

/-- The calls on byte-array files. -/
def posix : Posix ByteFiles where
  stat := stat
  openFile := openFile
  lseek := lseek
  read := read
  close _ fs := fs
  alloc _ size fs := (fs.hasMemory size, fs)

end ByteFiles

end LaminaFS
