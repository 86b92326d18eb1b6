/-
# One file, and calls that can fail

The system around one path, at which there is a regular file or nothing.  What is going to happen
to the calls is laid down in advance: how often they are interrupted, which of them fail and how,
whether there is memory, and how many bytes are transferred at most.  The two branches of the
device see the same file through their own calls.
-/
import LaminaFS.Device.Win32

namespace LaminaFS

open Overwrite

/-- The bytes of a regular file; its length fits in `off_t`. -/
structure FileBytes where
  bytes : List UInt8
  length_lt : bytes.length < 2 ^ 63

namespace FileBytes

/-- An empty file. -/
def empty : FileBytes := ⟨[], by decide⟩

/-- The file after `chunk` has been stored at `pos`; a gap is filled with zeros, and nothing is
stored that would make the file too large. -/
def put (c : FileBytes) (pos : ℕ) (chunk : List UInt8) : Option FileBytes :=
  if chunk = [] then some c
  else if h : pos + chunk.length < 2 ^ 63 then
    some ⟨patch 0 c.bytes pos chunk, by
      have := c.length_lt
      rw [length_patch]
      omega⟩
  else none

end FileBytes

/-- What is going to happen to the calls on a file.  `E` are the ways in which a call can fail. -/
structure Faults (E : Type) where
  openInterrupts : ℕ := 0
  openError : Option E := none
  sizeError : Option E := none
  seekError : Option E := none
  noMemory : Bool := false
  transferInterrupts : ℕ := 0
  transferError : Option E := none
  transferLimit : Option ℕ := none

/-- How many of `count` bytes are transferred at most. -/
def Faults.limit {E : Type} (faults : Faults E) (count : ℕ) : ℕ :=
  match faults.transferLimit with
  | none => count
  | some n => min count n

/-- A call that is recorded. -/
inductive FileEvent where
  | opened
  | closed
  | allocated (size : ℕ)
  | read (count : ℕ)
deriving DecidableEq, Repr

/-- The file, the position in it while it is open, and the calls made, the last one first. -/
structure SoleFile (E : Type) where
  contents : Option FileBytes
  pos : ℕ
  append : Bool
  faults : Faults E
  events : List FileEvent

/-- The failures that do not depend on the faults. -/
structure OwnErrors (E : Type) where
  notFound : E
  negativeSeek : E
  tooLarge : E

namespace SoleFile

variable {E : Type} (errors : OwnErrors E) (f : SoleFile E)

/-- A file that is not open, with nothing recorded. -/
def closed (contents : Option FileBytes) (faults : Faults E) : SoleFile E :=
  ⟨contents, 0, false, faults, []⟩

/-- The call is recorded. -/
def note (e : FileEvent) : SoleFile E := { f with events := e :: f.events }

/-- The bytes of the file; of no file there are none. -/
def bytes : List UInt8 := (f.contents.elim [] FileBytes.bytes)

/-- The file is opened at its start, with these contents. -/
def opened (contents : FileBytes) (append : Bool) : SoleFile E :=
  { f with contents := some contents, pos := 0, append := append, events := .opened :: f.events }

/-- Opening the file. -/
def openAs (create truncate append : Bool) : Except E ℕ × SoleFile E :=
  match f.faults.openError, f.contents with
  | some e, _ => (.error e, f)
  | none, none => if create then (.ok 3, f.opened .empty append) else (.error errors.notFound, f)
  | none, some c => (.ok 3, f.opened (if truncate then .empty else c) append)

/-- Asking for the size of the file. -/
def size : Except E ℕ :=
  match f.faults.sizeError with
  | some e => .error e
  | none => .ok f.bytes.length

/-- Moving to the position `pos`. -/
def seek (pos : ℤ) : Except E ℕ × SoleFile E :=
  if pos < 0 then (.error errors.negativeSeek, f)
  else
    match f.faults.seekError with
    | some e => (.error e, f)
    | none => (.ok pos.toNat, { f with pos := pos.toNat })

/-- Reading at most `count` bytes. -/
def get (count : ℕ) : Except E (List UInt8) × SoleFile E :=
  match f.faults.transferError with
  | some e => (.error e, f)
  | none =>
    let got := (f.bytes.drop f.pos).take (f.faults.limit count)
    (.ok got, { f with pos := f.pos + got.length })

/-- Writing the first ones of the bytes, at the position or, after opening to append, at the end
of the file. -/
def put (bytes : List UInt8) : Except E ℕ × SoleFile E :=
  match f.faults.transferError with
  | some e => (.error e, f)
  | none =>
    let chunk := bytes.take (f.faults.limit bytes.length)
    let pos := if f.append then f.bytes.length else f.pos
    match (f.contents.getD .empty).put pos chunk with
    | none => (.error errors.tooLarge, f)
    | some c => (.ok chunk.length, { f with contents := some c, pos := pos + chunk.length })

end SoleFile

/-! ### The calls of POSIX -/

/-- An `errno` other than `EINTR`. -/
abbrev Failure := { e : Errno // e ≠ .eintr }

/-- `ENOENT`, `EINVAL` and `EFBIG`. -/
def posixErrors : OwnErrors Failure where
  notFound := ⟨.enoent, by decide⟩
  negativeSeek := ⟨.einval, by decide⟩
  tooLarge := ⟨.other 27, by decide⟩

namespace SoleFile

/-- The result of a call with the `errno` of its failure. -/
def errno {α : Type} : Except Failure α → Except Errno α
  | .ok a => .ok a
  | .error e => .error e.val

variable (f : SoleFile Failure)

/-- One interruption of `open` less is left. -/
def openTick : SoleFile Failure :=
  { f with faults := { f.faults with openInterrupts := f.faults.openInterrupts - 1 } }

/-- One interruption of a transfer less is left. -/
def transferTick : SoleFile Failure :=
  { f with faults := { f.faults with transferInterrupts := f.faults.transferInterrupts - 1 } }

/-- `open`. -/
def posixOpen (flags : OpenFlags) : Except Errno ℕ × SoleFile Failure :=
  if f.faults.openInterrupts ≠ 0 then (.error .eintr, f.openTick)
  else
    (errno (f.openAs posixErrors flags.create flags.truncate flags.append).1,
      (f.openAs posixErrors flags.create flags.truncate flags.append).2)

/-- `lseek`. -/
def posixSeek (offset : ℤ) : Whence → Except Errno ℕ × SoleFile Failure
  | .seekSet => (errno (f.seek posixErrors offset).1, (f.seek posixErrors offset).2)
  | .seekEnd =>
    match f.size with
    | .error e => (.error e.val, f)
    | .ok n => (.ok n, { f with pos := n })

/-- `read`. -/
def posixRead (count : ℕ) : Except Errno (List UInt8) × SoleFile Failure :=
  if f.faults.transferInterrupts ≠ 0 then (.error .eintr, (f.note (.read count)).transferTick)
  else (errno ((f.note (.read count)).get count).1, ((f.note (.read count)).get count).2)

/-- `write`. -/
def posixWrite (bytes : List UInt8) : Except Errno ℕ × SoleFile Failure :=
  if f.faults.transferInterrupts ≠ 0 then (.error .eintr, f.transferTick)
  else (errno (f.put posixErrors bytes).1, (f.put posixErrors bytes).2)

/-- `EBADF`. -/
def ebadf : Errno := .other 9

/-- The calls on the file at `path`, which is opened as 3; there is no other file. -/
def posix (path : CString) : PosixWrite (SoleFile Failure) where
  stat other f :=
    if other = path then
      f.contents.elim (.error .enoent) fun c => .ok (.regular c.bytes.length)
    else .error .enoent
  openFile other flags f := if other = path then f.posixOpen flags else (.error .enoent, f)
  lseek fd offset whence f := if fd = 3 then f.posixSeek offset whence else (.error ebadf, f)
  read fd count f := if fd = 3 then f.posixRead count else (.error ebadf, f)
  close fd f := if fd = 3 then f.note .closed else f
  alloc _ size f := (!f.faults.noMemory, f.note (.allocated size))
  write fd bytes f := if fd = 3 then f.posixWrite bytes else (.error ebadf, f)

end SoleFile

/-! ### The calls of Win32 -/

/-- `ERROR_FILE_NOT_FOUND`, `ERROR_NEGATIVE_SEEK` and `ERROR_FILE_TOO_LARGE`. -/
def winErrors : OwnErrors WinError := ⟨.fileNotFound, .other 131, .other 223⟩

namespace SoleFile

variable (f : SoleFile WinError)

/-- `ReadFile`.  Without a buffer it fails with `ERROR_NOACCESS` when there is something to
store. -/
def winRead (buffer : Bool) (count : ℕ) : Except WinError (List UInt8) × SoleFile WinError :=
  match (f.note (.read count)).get count with
  | (.ok got, g) =>
    if !buffer && !got.isEmpty then (.error (.other 998), f.note (.read count)) else (.ok got, g)
  | r => r

/-- `ERROR_INVALID_HANDLE`. -/
def invalidHandle : WinError := .other 6

/-- The calls on the file at `path`, which is opened as 3; there is no other file. -/
def win32 (path : CString) : Win32 (SoleFile WinError) where
  createFile other _ createMode f :=
    if other = path then
      f.openAs winErrors (createMode != .openExisting) (createMode == .createAlways) false
    else (.error winErrors.notFound, f)
  getFileSizeEx file f := if file = 3 then (f.size, f) else (.error invalidHandle, f)
  setFilePointer file distance moveMethod f :=
    if file = 3 then
      f.seek winErrors (distance + if moveMethod = .fileEnd then (f.bytes.length : ℤ) else 0)
    else (.error invalidHandle, f)
  readFile file buffer count f :=
    if file = 3 then f.winRead buffer count else (.error invalidHandle, f)
  writeFile file bytes f := if file = 3 then f.put winErrors bytes else (.error invalidHandle, f)
  closeHandle file f := if file = some 3 then f.note .closed else f
  alloc _ size f := (!f.faults.noMemory, f.note (.allocated size))

end SoleFile

end LaminaFS
