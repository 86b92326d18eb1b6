/-
# The system that the directory device calls

The device deletes files and makes directories with `unlink` and `mkdir`.  The functions for that
are modelled here, over all the calls that the device makes.

The system behind the calls is a parameter.  A `FileSystem` is a system of calls with the laws that
their manuals state, for a disk that nobody else changes, on which the regular files are the leaves
of a tree of directories, without links, and on which nothing fails but for what there is on it.
What the manuals leave open is in the `Platform`.  A path is walked along from the root directory
or, when it does not begin with a slash, from the working directory; every directory on the way has
to be there, also before `.` and `..`.
-/
import LaminaFS.Device.DeleteDir
import LaminaFS.Device.SoleFile
import LaminaFS.Device.Writing
import LaminaFS.Lib.Components
import Mathlib.Data.List.DropRight

namespace LaminaFS

/-- All calls that the directory device makes. -/
structure DirectoryCalls (W : Type) extends PosixWrite W, Fts W where
  unlink : CString → W → Except Errno Unit × W
  mkdir : CString → W → Except Errno Unit × W

namespace DirectoryDevice

variable {W : Type}

/-- `deleteFile`. -/
def deleteFile (os : DirectoryCalls W) (dev : DirectoryDevice) (filePath : CString) (w : W) :
    ErrorCode × W :=
  match os.unlink (dev.getDevicePath filePath) w with
  | (.ok _, w) => (.ok, w)
  | (.error e, w) => (convertError e, w)

/-- `createDir`. -/
def createDir (os : DirectoryCalls W) (dev : DirectoryDevice) (path : CString) (w : W) :
    ErrorCode × W :=
  match os.mkdir (dev.getDevicePath path) w with
  | (.ok _, w) => (.ok, w)
  | (.error e, w) => (convertError e, w)

/-- The interface that the constructor of `FileContext` registers, over the calls. -/
def registered (os : DirectoryCalls W) (rounds : ℕ) : DeviceInterface DirectoryDevice W :=
  interface os.toPosix rounds (writeFile os.toPosixWrite rounds) (deleteFile os) (createDir os)
    (deleteDir os.toFts)

end DirectoryDevice

/-! ### What there is on a disk -/

/-- What there is at which path. -/
abbrev Folder := List CString → Option (TreeEntry FileBytes)

namespace Folder

/-- The folder with something else at a path, and nothing below. -/
def put (p : List CString) (x : Option (TreeEntry FileBytes)) (s : Folder) : Folder :=
  fun q => if q = p then x else if p <+: q then none else s q

/-- What is below a directory. -/
def below (p : List CString) (s : Folder) : Folder := fun q => s (p ++ q)

/-- Where a component leads. -/
def enter (current : List CString) (c : CString) : List CString :=
  if c = [] ∨ c = [dot] then current
  else if c = [dot, dot] then current.dropLast
  else current ++ [c]

/-- Walking along the components. -/
def walk (s : Folder) : List CString → List CString → Except Errno (List CString)
  | current, [] => .ok current
  | current, c :: cs =>
    match s current with
    | none => .error .enoent
    | some (.leaf _) => .error .enotdir
    | some .dir => walk s (enter current c) cs

end Folder

/-- What the manuals leave to the system. -/
structure Platform where
  workingDir : List CString
  /-- paths are shorter than this -/
  pathMax : ℕ
  /-- and names are not longer than this -/
  nameMax : ℕ
  /-- how many bytes `read` delivers at most, by the position and the number asked for -/
  readSize : ℕ → ℕ → Except Errno ℕ
  readSize_ne : ∀ pos count, readSize pos count ≠ .error .eintr
  /-- how many bytes `write` takes at most, by the position, the place where they go, which is not
  the position with `O_APPEND`, and their number -/
  writeSize : ℕ → ℕ → ℕ → Except Errno ℕ
  writeSize_ne : ∀ pos place count, writeSize pos place count ≠ .error .eintr
  /-- no file gets too large for `off_t` -/
  writeSize_fits : ∀ pos place count n, place < 2 ^ 63 →
    writeSize pos place count = .ok n → place + min n count < 2 ^ 63
  /-- what seeking to the end of a directory gives, by its path and by what is below -/
  dirEnd : List CString → Folder → Except Errno ℕ
  /-- why no file is created at a path with a slash at its end, by what is there -/
  createSlash : Option (TreeEntry FileBytes) → Errno
  createSlash_ne : ∀ x, createSlash x ≠ .eintr
  /-- why a directory is not unlinked -/
  unlinkDirectory : Errno
  /-- which blocks the allocator can provide -/
  hasMemory : ℕ → Bool

namespace Platform

variable (plat : Platform)

/-- The path is a string that is not too long for the system, nor is a name in it. -/
def Accepts (path : CString) : Prop :=
  (0 : UInt8) ∉ path ∧ path.length < plat.pathMax ∧
    ∀ c ∈ path.splitOn slash, c.length ≤ plat.nameMax

instance : DecidablePred plat.Accepts := fun _ => inferInstanceAs (Decidable (_ ∧ _ ∧ _))

/-- The path has a name at its end, which is neither `.` nor `..`; directories are not removed under
these. -/
def EndsInName (path : CString) : Prop :=
  ∀ c, ((path.splitOn slash).rdropWhile (· = [])).getLast? = some c → c ≠ [dot] ∧ c ≠ [dot, dot]

/-- Where the walk along a path begins. -/
def beginning (path : CString) : List CString :=
  if path.head? = some slash then [] else plat.workingDir

/-- The entry that a path leads to, which need not be there. -/
def locate (path : CString) (s : Folder) : Except Errno (List CString) :=
  if path = [] then .error .enoent else s.walk (plat.beginning path) (path.splitOn slash)

/-- The entry that a path leads to when its slashes at the end do not count. -/
def locateNew (path : CString) (s : Folder) : Except Errno (List CString) :=
  if path = [] then .error .enoent
  else s.walk (plat.beginning path) ((path.splitOn slash).rdropWhile (· = []))

/-- The entry that a path leads to when a file is to be created there. -/
def locateCreate (path : CString) (s : Folder) : Except Errno (List CString) :=
  if path.getLast? = some slash then
    match plat.locateNew path s with
    | .error e => .error e
    | .ok p => .error (plat.createSlash (s p))
  else plat.locate path s

/-- What `stat` tells. -/
def stat (path : CString) (s : Folder) : Except Errno FileStat :=
  match plat.locate path s with
  | .error e => .error e
  | .ok p =>
    match s p with
    | none => .error .enoent
    | some .dir => .ok .directory
    | some (.leaf c) => .ok (.regular c.bytes.length)

/-- What `open` opens, and what there is then. -/
def opening (path : CString) (flags : OpenFlags) (s : Folder) :
    Except Errno (List CString × Folder) :=
  match if flags.create then plat.locateCreate path s else plat.locate path s with
  | .error e => .error e
  | .ok p =>
    match s p with
    | none => if flags.create then .ok (p, s.put p (some (.leaf .empty))) else .error .enoent
    | some .dir => if flags.write then .error .eisdir else .ok (p, s)
    | some (.leaf _) => .ok (p, if flags.truncate then s.put p (some (.leaf .empty)) else s)

/-- What there is after `unlink`. -/
def unlinking (path : CString) (s : Folder) : Except Errno Folder :=
  match plat.locate path s with
  | .error e => .error e
  | .ok p =>
    match s p with
    | none => .error .enoent
    | some .dir => .error plat.unlinkDirectory
    | some (.leaf _) => .ok (s.put p none)

/-- What there is after `mkdir`. -/
def making (path : CString) (s : Folder) : Except Errno Folder :=
  match plat.locateNew path s with
  | .error e => .error e
  | .ok p =>
    match s p with
    | none => .ok (s.put p (some .dir))
    | some _ => .error .eexist

end Platform

/-- An open file: it is open to be read or, if it `writes`, to be written. -/
structure OpenEntry where
  path : List CString
  pos : ℕ
  writes : Bool
  append : Bool
deriving DecidableEq, Repr

/-- Where the next bytes are written: at the position or, with `O_APPEND`, at the end. -/
def OpenEntry.place (f : OpenEntry) (c : FileBytes) : ℕ :=
  if f.append then c.bytes.length else f.pos

/-- What `fts_read` delivers for a step of the walk. -/
def Ftsent.ofVisit : Visit CString FileBytes → Ftsent
  | .enter path => ⟨.d, path, .other 0⟩
  | .leaf path _ => ⟨.f, path, .other 0⟩
  | .leave path => ⟨.dp, path, .other 0⟩

/-- What the calls of `fts_read` return for a walk. -/
def FtsRead.ofVisits (vs : List (Visit CString FileBytes)) : List FtsRead :=
  vs.map fun v => .entry (Ftsent.ofVisit v)

/-- A system of calls on a disk. -/
structure FileSystem (plat : Platform) {W : Type} (os : DirectoryCalls W) where
  /-- what there is on the disk -/
  entries : W → Folder
  /-- the open files -/
  opened : W → ℕ → OpenEntry
  /-- There is nothing below a file. -/
  below_file : ∀ w p c q, entries w p = some (.leaf c) → q ≠ [] → entries w (p ++ q) = none
  stat : ∀ w path, plat.Accepts path → os.stat path w = plat.stat path (entries w)
  open_error : ∀ w path flags e, plat.Accepts path →
    plat.opening path flags (entries w) = .error e →
    ∃ w', os.openFile path flags w = (.error e, w') ∧ entries w' = entries w
  open_ok : ∀ w path flags p s, plat.Accepts path →
    plat.opening path flags (entries w) = .ok (p, s) →
    ∃ fd w', os.openFile path flags w = (.ok fd, w') ∧ entries w' = s ∧
      opened w' fd = ⟨p, 0, flags.write, flags.append⟩
  /-- The end of a file is behind its last byte. -/
  seek_end : ∀ w fd c, entries w (opened w fd).path = some (.leaf c) →
    ∃ w', os.lseek fd 0 .seekEnd w = (.ok c.bytes.length, w') ∧ entries w' = entries w ∧
      opened w' fd = { opened w fd with pos := c.bytes.length }
  seek_set : ∀ w fd c (n : ℕ), entries w (opened w fd).path = some (.leaf c) → n < 2 ^ 63 →
    ∃ w', os.lseek fd n .seekSet w = (.ok n, w') ∧ entries w' = entries w ∧
      opened w' fd = { opened w fd with pos := n }
  seek_negative : ∀ w fd c (n : ℤ), entries w (opened w fd).path = some (.leaf c) → n < 0 →
    ∃ w', os.lseek fd n .seekSet w = (.error .einval, w') ∧ entries w' = entries w ∧
      opened w' fd = opened w fd
  /-- Seeking in a directory may lead anywhere in it. -/
  seek_directory : ∀ w fd n whence, entries w (opened w fd).path = some .dir →
    ∃ r pos w', os.lseek fd n whence w = (r, w') ∧ entries w' = entries w ∧
      opened w' fd = { opened w fd with pos := pos } ∧
      (whence = .seekEnd → n = 0 →
        r = plat.dirEnd (opened w fd).path ((entries w).below (opened w fd).path))
  read_error : ∀ w fd count c e, entries w (opened w fd).path = some (.leaf c) →
    (opened w fd).writes = false → plat.readSize (opened w fd).pos count = .error e →
    ∃ w', os.read fd count w = (.error e, w') ∧ entries w' = entries w
  /-- The bytes from the position on are read, as many as there are. -/
  read_ok : ∀ w fd count c n, entries w (opened w fd).path = some (.leaf c) →
    (opened w fd).writes = false → plat.readSize (opened w fd).pos count = .ok n →
    ∃ w', os.read fd count w =
        (.ok ((c.bytes.drop (opened w fd).pos).take (min count n)), w') ∧ entries w' = entries w
  read_directory : ∀ w fd count, entries w (opened w fd).path = some .dir →
    (opened w fd).writes = false →
    ∃ w', os.read fd count w = (.error .eisdir, w') ∧ entries w' = entries w
  write_error : ∀ w fd bytes c e, entries w (opened w fd).path = some (.leaf c) →
    (opened w fd).writes = true →
    plat.writeSize (opened w fd).pos ((opened w fd).place c) bytes.length = .error e →
    ∃ w', os.write fd bytes w = (.error e, w') ∧ entries w' = entries w
  /-- The first bytes are stored in the file, which is filled with zeros up to them. -/
  write_ok : ∀ w fd bytes c n c', entries w (opened w fd).path = some (.leaf c) →
    (opened w fd).writes = true →
    plat.writeSize (opened w fd).pos ((opened w fd).place c) bytes.length = .ok n →
    c.put ((opened w fd).place c) (bytes.take n) = some c' →
    ∃ w', os.write fd bytes w = (.ok (bytes.take n).length, w') ∧
      entries w' = (entries w).put (opened w fd).path (some (.leaf c'))
  close : ∀ w fd, entries (os.close fd w) = entries w
  alloc : ∀ w a n, ∃ w', os.alloc a n w = (plat.hasMemory n, w') ∧ entries w' = entries w ∧
    opened w' = opened w
  unlink_error : ∀ w path e, plat.Accepts path → plat.unlinking path (entries w) = .error e →
    ∃ w', os.unlink path w = (.error e, w') ∧ entries w' = entries w
  unlink_ok : ∀ w path s, plat.Accepts path → plat.unlinking path (entries w) = .ok s →
    ∃ w', os.unlink path w = (.ok (), w') ∧ entries w' = s
  mkdir_error : ∀ w path e, plat.Accepts path → plat.making path (entries w) = .error e →
    ∃ w', os.mkdir path w = (.error e, w') ∧ entries w' = entries w
  mkdir_ok : ∀ w path s, plat.Accepts path → plat.making path (entries w) = .ok s →
    ∃ w', os.mkdir path w = (.ok (), w') ∧ entries w' = s
  /-- Where there is nothing to walk through the first call of `fts_read` says so. -/
  fts_error : ∀ w path e, path ≠ [] → plat.Accepts path → plat.stat path (entries w) = .error e →
    ∃ accpath w', os.ftsOpen path w = (some [.entry ⟨.ns, accpath, e⟩], w') ∧
      entries w' = entries w
  /-- The walk delivers what is below a path in some order, if no path on it is too long. -/
  fts_ok : ∀ w path p, plat.locate path (entries w) = .ok p → entries w p ≠ none →
    Platform.EndsInName path →
    (∀ q, entries w (p ++ q) ≠ none → plat.Accepts (path ++ Components.led slash q)) →
    ∃ (t : NamedTree CString FileBytes) (w' : W), t.Distinct ∧
      (∀ q, t.entry q = entries w (p ++ q)) ∧
      os.ftsOpen path w = (some (FtsRead.ofVisits (t.visits p)), w') ∧ entries w' = entries w
  /-- A file or an empty directory is removed, unless it is the root directory or the working
  directory. -/
  remove : ∀ w p, p ≠ [] → p ≠ plat.workingDir → entries w p ≠ none →
    (∀ q, q ≠ [] → entries w (p ++ q) = none) →
    ∃ w', os.remove p w = (.ok (), w') ∧ entries w' = (entries w).put p none
  ftsClose : ∀ w, entries (os.ftsClose w) = entries w

end LaminaFS
