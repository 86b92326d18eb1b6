/-
# A disk that can be written to

The system in which regular files are byte arrays, with `write` and with the flags of `open`
that create, truncate and append.  Every call transfers all that it is asked for, and a file
cannot grow to `2 ^ 63` bytes.
-/
import LaminaFS.Device.Posix
import LaminaFS.Lib.Overwrite

namespace LaminaFS

/-- The system calls with `write`, which gets the bytes to write. -/
structure PosixWrite (W : Type) extends Posix W where
  write : ℕ → List UInt8 → W → Except Errno ℕ × W

/-- An open file; with `append` every write goes to the end of the file. -/
structure Descriptor where
  path : CString
  pos : ℕ
  append : Bool
deriving DecidableEq, Repr

/-- A file system in which every path is absent, a directory or a regular file. -/
structure Disk where
  node : CString → Node
  opened : ℕ → Descriptor
  nextFd : ℕ
  dirEnd : CString → Except Errno ℕ
  hasMemory : ℕ → Bool

namespace Disk

/-- `stat`. -/
def stat (path : CString) (d : Disk) : Except Errno FileStat :=
  match d.node path with
  | .absent e => .error e
  | .directory => .ok .directory
  | .regular bytes => .ok (.regular bytes.length)

/-- The disk with the regular file `bytes` at a path. -/
def setFile (path : CString) (bytes : List UInt8) (d : Disk) : Disk :=
  { d with node := Function.update d.node path (.regular bytes) }

/-- The disk with the path opened as the next file. -/
def openNext (path : CString) (append : Bool) (d : Disk) : Disk :=
  { d with
    opened := Function.update d.opened d.nextFd ⟨path, 0, append⟩
    nextFd := d.nextFd + 1 }

/-- The file `fd` moved to the position `pos`. -/
def moveTo (fd pos : ℕ) (d : Disk) : Disk :=
  { d with opened := Function.update d.opened fd { d.opened fd with pos := pos } }

/-- `open`. -/
def openFile (path : CString) (flags : OpenFlags) (d : Disk) : Except Errno ℕ × Disk :=
  match d.node path with
  | .absent e =>
    if flags.create = true ∧ e = .enoent then
      (.ok d.nextFd, (d.setFile path []).openNext path flags.append)
    else (.error e, d)
  | .directory =>
    if flags.write then (.error .eisdir, d)
    else (.ok d.nextFd, d.openNext path flags.append)
  | .regular bytes =>
    (.ok d.nextFd,
      (d.setFile path (if flags.truncate then [] else bytes)).openNext path flags.append)

/-- The end of the open file `fd`. -/
def endOf (fd : ℕ) (d : Disk) : Except Errno ℕ :=
  match d.node (d.opened fd).path with
  | .absent e => .error e
  | .directory => d.dirEnd (d.opened fd).path
  | .regular bytes => .ok bytes.length

/-- `lseek`. -/
def lseek (fd : ℕ) (offset : ℤ) (whence : Whence) (d : Disk) : Except Errno ℕ × Disk :=
  match whence with
  | .seekSet =>
    if offset < 0 then (.error .einval, d) else (.ok offset.toNat, d.moveTo fd offset.toNat)
  | .seekEnd =>
    match d.endOf fd with
    | .error e => (.error e, d)
    | .ok n => (.ok n, d.moveTo fd n)

/-- `read`: everything that is there, up to `count` bytes. -/
def read (fd count : ℕ) (d : Disk) : Except Errno (List UInt8) × Disk :=
  match d.node (d.opened fd).path with
  | .absent e => (.error e, d)
  | .directory => (.error .eisdir, d)
  | .regular bytes =>
    let got := (bytes.drop (d.opened fd).pos).take count
    (.ok got, d.moveTo fd ((d.opened fd).pos + got.length))

/-- `write`: at the position of the file or, with `O_APPEND`, at its end.  A gap is filled with
zeros, and a file that would grow too large gives `EFBIG`. -/
def write (fd : ℕ) (bytes : List UInt8) (d : Disk) : Except Errno ℕ × Disk :=
  let file := d.opened fd
  match d.node file.path with
  | .absent e => (.error e, d)
  | .directory => (.error .eisdir, d)
  | .regular old =>
    let pos := if file.append then old.length else file.pos
    if bytes = [] then (.ok 0, d)
    else if pos + bytes.length < 2 ^ 63 then
      (.ok bytes.length, (d.setFile file.path (Overwrite.patch 0 old pos bytes)).moveTo fd
        (pos + bytes.length))
    else (.error (.other 27), d)

/-- The calls on the disk. -/
def posix : PosixWrite Disk where
  stat := stat
  openFile := openFile
  lseek := lseek
  read := read
  close _ d := d
  alloc _ size d := (d.hasMemory size, d)
  write := write

end Disk

end LaminaFS
