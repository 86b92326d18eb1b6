/-
# What a directory device does at a path of the disk

Every function of the device looks at no more than what its path leads to, and changes nothing
else.  A spot is what a path leads to; what the functions answer, and what they put there, are
functions of the spot.
-/
import LaminaFS.Device.FileSystem
import LaminaFS.Device.Stores

namespace LaminaFS

/-- What a path leads to: there is no way to it, or there is nothing, a directory, in which seeking
to the end gives a result of its own, or a regular file. -/
inductive Spot where
  | blocked (errno : Errno)
  | vacant
  | directory (seekEnd : Except Errno ℕ)
  | file (contents : FileBytes)

/-- What is at the path after a call, if it puts something there: an entry, or nothing. -/
abbrev Edit := Option (Option (TreeEntry FileBytes))

namespace Spot

/-- The spot where there is an entry, or nothing. -/
def of (seekEnd : Except Errno ℕ) : Option (TreeEntry FileBytes) → Spot
  | none => vacant
  | some .dir => directory seekEnd
  | some (.leaf c) => file c

/-- The answer to `fileExists`. -/
def isFile : Spot → Bool
  | file _ => true
  | _ => false

/-- The answer to `fileSize`. -/
def size : Spot → SizeResult
  | blocked e => ⟨0, some (convertError e)⟩
  | vacant => ⟨0, some .notFound⟩
  | directory _ => ⟨0, some .unsupported⟩
  | file c => ⟨c.bytes.length, some .ok⟩

/-- How many bytes `readFile` asks for. -/
def readCount (size offset maxBytes : ℕ) : ℕ := min (sub64 size offset) maxBytes

/-- How much memory it asks for. -/
def blockSize (count : ℕ) (nullTerminate : Bool) : ℕ :=
  (count + if nullTerminate then 1 else 0) % 2 ^ 64

/-- Where reading begins: an offset that is negative as `off_t` leaves the file at its end. -/
def readStart (size offset : ℕ) : ℕ := if toOff offset < 0 then size else (toOff offset).toNat

/-- The answer to `readFile` when the file is at `pos`, and `count` bytes are asked for. -/
def readAt (plat : Platform) (c : FileBytes) (pos count : ℕ) (nullTerminate : Bool) :
    ReadResult :=
  if plat.hasMemory (blockSize count nullTerminate) then
    match plat.readSize pos count with
    | .error e => ⟨0, some (convertError e), .null⟩
    | .ok n =>
      let got := (c.bytes.drop pos).take (min count n)
      ⟨got.length, some .ok, .block (DirectoryDevice.terminated nullTerminate got)⟩
  else ⟨0, some .ok, .null⟩

/-- The answer to `readFile`.  A directory can be opened and has a length, but cannot be read. -/
def read (plat : Platform) (offset maxBytes : ℕ) (nullTerminate : Bool) : Spot → ReadResult
  | blocked e => ⟨0, some (convertError e), .untouched⟩
  | vacant => ⟨0, some .notFound, .untouched⟩
  | directory seekEnd =>
    let size := toU64 (raw seekEnd)
    if size = 2 ^ 64 - 1 then
      ⟨0, some (convertError (errnoOf (.other 0) seekEnd)), .untouched⟩
    else if size = 0 then ⟨0, none, .untouched⟩
    else if plat.hasMemory (blockSize (readCount size offset maxBytes) nullTerminate) then
      ⟨0, some .genericError, .null⟩
    else ⟨0, some .ok, .null⟩
  | file c =>
    if c.bytes = [] then ⟨0, none, .untouched⟩
    else
      readAt plat c (readStart c.bytes.length offset) (readCount c.bytes.length offset maxBytes)
        nullTerminate

/-- What `write` answers on an open file, and the file that there is then. -/
def stored (plat : Platform) (pos place : ℕ) (bytes : List UInt8) (old : FileBytes) :
    WriteResult × FileBytes :=
  match plat.writeSize pos place bytes.length with
  | .error e => (⟨0, some (convertError e)⟩, old)
  | .ok n => SoleFile.storeOutcome old place (bytes.take n)

/-- What `writeFile` does to a file that has been opened, with the contents that opening left.  The
failure of a seek to an offset that is negative as `off_t` goes unnoticed if the offset is -1. -/
def store (plat : Platform) (mode : WriteMode) (offset : ℕ) (bytes : List UInt8)
    (old : FileBytes) : WriteResult × FileBytes :=
  let pos := (toOff offset).toNat
  if toOff offset < -1 then (⟨0, some .genericError⟩, old)
  else stored plat pos (if mode = .append then old.bytes.length else pos) bytes old

/-- The answer to `writeFile`, and the file that there is then. -/
def write (plat : Platform) (mode : WriteMode) (offset : ℕ) (bytes : List UInt8) :
    Spot → WriteResult × Edit
  | blocked e => (⟨0, some (convertError e)⟩, none)
  | directory _ => (⟨0, some .genericError⟩, none)
  | vacant =>
    let r := store plat mode offset bytes .empty
    (r.1, some (some (.leaf r.2)))
  | file c =>
    let r := store plat mode offset bytes (if mode = .truncate then .empty else c)
    (r.1, some (some (.leaf r.2)))

/-- The answer to `deleteFile`. -/
def delete (plat : Platform) : Spot → ErrorCode × Edit
  | blocked e => (convertError e, none)
  | vacant => (.notFound, none)
  | directory _ => (convertError plat.unlinkDirectory, none)
  | file _ => (.ok, some none)

/-- The answer to `createDir`. -/
def createDir : Spot → ErrorCode × Edit
  | blocked e => (convertError e, none)
  | vacant => (.ok, some (some .dir))
  | _ => (.alreadyExists, none)

/-- The answer to `deleteDir`, which removes a file as well. -/
def deleteDir : Spot → ErrorCode × Edit
  | blocked e => (convertError e, none)
  | vacant => (.notFound, none)
  | _ => (.ok, some none)

lemma readStart_zero (offset : ℕ) : readStart 0 offset = (toOff offset).toNat := by
  rw [readStart]
  split <;> omega

end Spot

namespace Folder

/-- The spot that a walk has led to, in a folder whose directory on the disk is `top`. -/
def spotOf (plat : Platform) (top : List CString) (s : Folder) :
    Except Errno (List CString) → Spot
  | .error e => .blocked e
  | .ok p => .of (plat.dirEnd (top ++ p) (s.below p)) (s p)

/-- The folder after something has been put where a walk has led to. -/
def edit (place : Except Errno (List CString)) (e : Edit) (s : Folder) : Folder :=
  match place, e with
  | .ok p, some x => s.put p x
  | _, _ => s

variable {s : Folder} {p : List CString} {x y : Option (TreeEntry FileBytes)}

/-- The folder with nothing left in a directory. -/
def clear (p : List CString) (s : Folder) : Folder :=
  fun q => if p <+: q ∧ q ≠ p then none else s q

lemma edit_none {place : Except Errno (List CString)} : s.edit place none = s := by
  cases place <;> rfl

@[simp] lemma put_self : s.put p x p = x := if_pos rfl

@[simp] lemma put_put : (s.put p x).put p y = s.put p y := by
  funext q
  simp only [put]
  split_ifs <;> rfl

/-- Putting back what is alone there changes nothing. -/
lemma put_same (h : s p = x) (hbelow : ∀ q, q ≠ [] → s (p ++ q) = none) : s.put p x = s := by
  funext q
  rw [put]
  split_ifs with heq hpre
  · rw [heq, h]
  · obtain ⟨r, rfl⟩ := hpre
    exact (hbelow r fun hr => heq (by rw [hr, List.append_nil])).symm
  · rfl

lemma put_clear : (s.clear p).put p x = s.put p x := by
  funext q
  simp only [put, clear]
  split_ifs with heq hpre hin
  · rfl
  · rfl
  · exact absurd hin.1 hpre
  · rfl

/-- What goes from a directory is gone when nothing is left in it. -/
lemma clear_put (n : CString) : (s.put (p ++ [n]) none).clear p = s.clear p := by
  funext q
  simp only [put, clear]
  split_ifs with hin heq hpre
  · rfl
  · exact absurd ⟨heq ▸ List.prefix_append _ _, by rw [heq]; simp⟩ hin
  · refine absurd ⟨(List.prefix_append _ _).trans hpre, ?_⟩ hin
    rintro rfl
    have hlen := hpre.length_le
    rw [List.length_append, List.length_singleton] at hlen
    omega
  · rfl

/-- There is nothing to clear. -/
lemma clear_of_empty (h : ∀ q, q ≠ [] → s (p ++ q) = none) : s.clear p = s := by
  funext q
  rw [clear]
  split_ifs with hin
  · obtain ⟨⟨r, rfl⟩, hne⟩ := hin
    exact (h r fun hr => hne (by rw [hr, List.append_nil])).symm
  · rfl

end Folder

/-- A call that is not interrupted is not made again. -/
lemma retry_of_error {W α : Type} {call : W → Except Errno α × W} {e : Errno} {w w' : W}
    (h : call w = (.error e, w')) (he : e ≠ .eintr) (rounds : ℕ) :
    retry call rounds w = (.error e, w') := by
  rw [retry_settled (by rw [h]; exact fun hi => he (Except.error.inj hi)), h]

/-! ### Walks are not interrupted -/

lemma Folder.ne_eintr_of_walk {s : Folder} {e : Errno} {cur cs : List CString}
    (h : s.walk cur cs = .error e) : e ≠ .eintr := by
  induction cs generalizing cur with
  | nil => cases h
  | cons c cs ih =>
    rw [walk] at h
    split at h
    · cases h
      nofun
    · cases h
      nofun
    · exact ih h

namespace Platform

variable {plat : Platform} {s : Folder} {path : CString} {e : Errno}

lemma ne_eintr_of_locate (h : plat.locate path s = .error e) : e ≠ .eintr := by
  rw [locate] at h
  split at h
  · cases h
    nofun
  · exact Folder.ne_eintr_of_walk h

lemma ne_eintr_of_locateCreate (h : plat.locateCreate path s = .error e) : e ≠ .eintr := by
  rw [locateCreate] at h
  split at h
  · split at h
    · rename_i hnew
      cases h
      rw [locateNew] at hnew
      split at hnew
      · cases hnew
        nofun
      · exact Folder.ne_eintr_of_walk hnew
    · cases h
      exact plat.createSlash_ne _
  · exact ne_eintr_of_locate h

end Platform

namespace FileSystem

variable {W : Type} {plat : Platform} {os : DirectoryCalls W} (fs : FileSystem plat os) {w : W}
  {dev : DirectoryDevice} {filePath : CString}

/-- The spot of a path. -/
def spot (path : CString) (w : W) : Spot :=
  (fs.entries w).spotOf plat [] (plat.locate path (fs.entries w))

/-! ### The functions that only look -/

section Look

/-- What `stat` tells about a spot. -/
lemma stat_eq {path : CString} (hpath : plat.Accepts path) : os.stat path w =
    match fs.spot path w with
    | .blocked e => .error e
    | .vacant => .error .enoent
    | .directory _ => .ok .directory
    | .file c => .ok (.regular c.bytes.length) := by
  rw [fs.stat w path hpath, Platform.stat, spot]
  cases plat.locate path (fs.entries w) with
  | error e => rfl
  | ok p =>
    dsimp only [Folder.spotOf]
    rcases fs.entries w p with _ | _ | _ <;> rfl

lemma fileExists_eq (hpath : plat.Accepts (dev.getDevicePath filePath)) :
    dev.fileExists os.toPosix filePath w =
      ((fs.spot (dev.getDevicePath filePath) w).isFile, w) := by
  rw [DirectoryDevice.fileExists, fs.stat_eq hpath]
  cases fs.spot (dev.getDevicePath filePath) w <;> rfl

lemma fileSize_eq (hpath : plat.Accepts (dev.getDevicePath filePath)) :
    dev.fileSize os.toPosix filePath w =
      ((fs.spot (dev.getDevicePath filePath) w).size, w) := by
  rw [DirectoryDevice.fileSize, fs.stat_eq hpath]
  cases fs.spot (dev.getDevicePath filePath) w <;> rfl

variable {fd rounds offset maxBytes count : ℕ} {alloc : Option Allocator} {nullTerminate : Bool}
  {c : FileBytes}

/-- `readFile` from the allocation on, on a file. -/
lemma readBlock_file (hfile : fs.entries w (fs.opened w fd).path = some (.leaf c))
    (hreads : (fs.opened w fd).writes = false) :
    ∃ w', fs.entries w' = fs.entries w ∧
      DirectoryDevice.readBlock os.toPosix rounds fd count alloc nullTerminate w =
        (Spot.readAt plat c (fs.opened w fd).pos count nullTerminate, w') := by
  obtain ⟨w₁, halloc, hentries, hopened⟩ := fs.alloc w alloc (Spot.blockSize count nullTerminate)
  rw [← hentries, ← hopened] at hfile
  rw [← hopened] at hreads
  rw [DirectoryDevice.readBlock, ← Spot.blockSize, halloc, Spot.readAt, ← hopened, ← hentries]
  cases plat.hasMemory (Spot.blockSize count nullTerminate) with
  | false => exact ⟨_, fs.close w₁ fd, rfl⟩
  | true =>
    rw [if_pos rfl]
    cases hsize : plat.readSize (fs.opened w₁ fd).pos count with
    | error e =>
      obtain ⟨w₂, hread, hentries₂⟩ := fs.read_error w₁ fd count c e hfile hreads hsize
      dsimp only
      rw [retry_of_error hread fun he => plat.readSize_ne _ _ (he ▸ hsize)]
      exact ⟨_, (fs.close w₂ fd).trans hentries₂, rfl⟩
    | ok n =>
      obtain ⟨w₂, hread, hentries₂⟩ := fs.read_ok w₁ fd count c n hfile hreads hsize
      dsimp only
      rw [retry_ok hread]
      exact ⟨_, (fs.close w₂ fd).trans hentries₂, rfl⟩

/-- `readFile` from the allocation on, on a directory. -/
lemma readBlock_directory (hdir : fs.entries w (fs.opened w fd).path = some .dir)
    (hreads : (fs.opened w fd).writes = false) :
    ∃ w', fs.entries w' = fs.entries w ∧
      DirectoryDevice.readBlock os.toPosix rounds fd count alloc nullTerminate w =
        (if plat.hasMemory (Spot.blockSize count nullTerminate) then
          ⟨0, some .genericError, .null⟩ else ⟨0, some .ok, .null⟩, w') := by
  obtain ⟨w₁, halloc, hentries, hopened⟩ := fs.alloc w alloc (Spot.blockSize count nullTerminate)
  rw [← hentries, ← hopened] at hdir
  rw [← hopened] at hreads
  rw [DirectoryDevice.readBlock, ← Spot.blockSize, halloc, ← hentries]
  cases plat.hasMemory (Spot.blockSize count nullTerminate) with
  | false => exact ⟨_, fs.close w₁ fd, rfl⟩
  | true =>
    obtain ⟨w₂, hread, hentries₂⟩ := fs.read_directory w₁ fd count hdir hreads
    dsimp only
    rw [retry_of_error hread (by decide)]
    exact ⟨_, (fs.close w₂ fd).trans hentries₂, rfl⟩

/-- Seeking to the offset in a file: it fails for negative offsets, and seems to succeed for
`-1`. -/
lemma exists_sought (hfile : fs.entries w (fs.opened w fd).path = some (.leaf c)) (offset : ℕ) :
    ∃ r w', os.lseek fd (toOff offset) .seekSet w = (r, w') ∧ fs.entries w' = fs.entries w ∧
      fs.opened w' fd =
        { fs.opened w fd with pos := Spot.readStart (fs.opened w fd).pos offset } ∧
      (if raw r = toOff offset then ¬toOff offset < -1
        else toOff offset < -1 ∧ errnoOf (.other 0) r = .einval) := by
  rw [Spot.readStart]
  by_cases hneg : toOff offset < 0
  · obtain ⟨w', hseek, hentries, hopened⟩ := fs.seek_negative w fd c (toOff offset) hfile hneg
    refine ⟨_, w', hseek, hentries, by rw [hopened, if_pos hneg], ?_⟩
    rw [raw]
    split_ifs with hraw
    · omega
    · exact ⟨by omega, rfl⟩
  · have hlt : (toOff offset).toNat < 2 ^ 63 := by
      rw [toOff]
      split <;> omega
    have hcast : ((toOff offset).toNat : ℤ) = toOff offset := Int.toNat_of_nonneg (by omega)
    obtain ⟨w', hseek, hentries, hopened⟩ :=
      fs.seek_set w fd c (toOff offset).toNat hfile hlt
    rw [hcast] at hseek
    refine ⟨_, w', hseek, hentries, by rw [hopened, if_neg hneg], ?_⟩
    rw [raw, if_pos hcast]
    omega

/-- `readFile` on an open file, when the seeks have given these results.  Whether the seek to the
offset succeeds makes no difference. -/
lemma readOpened_of_seeks {sought r : Except Errno ℕ} {w₁ w₂ : W}
    (hend : os.lseek fd 0 .seekEnd w = (sought, w₁))
    (hseek : os.lseek fd (toOff offset) .seekSet w₁ = (r, w₂)) :
    DirectoryDevice.readOpened os.toPosix rounds fd offset maxBytes alloc nullTerminate w =
      if toU64 (raw sought) = 2 ^ 64 - 1 then
        (⟨0, some (convertError (errnoOf (.other 0) sought)), .untouched⟩, os.close fd w₁)
      else if toU64 (raw sought) = 0 then (⟨0, none, .untouched⟩, os.close fd w₁)
      else
        DirectoryDevice.readBlock os.toPosix rounds fd
          (Spot.readCount (toU64 (raw sought)) offset maxBytes) alloc nullTerminate w₂ := by
  have hrange : (if raw r = toOff offset then (1 : ℤ) else 0) ≠ -1 := by split <;> decide
  simp only [DirectoryDevice.readOpened, hend, hseek]
  rw [if_pos hrange, ← Spot.readCount]
  by_cases hmax : toU64 (raw sought) = 2 ^ 64 - 1
  · rw [if_pos hmax, if_pos hmax]
  · rw [if_neg hmax, if_neg hmax, ite_not]

/-- `readFile` on a file that has been opened. -/
lemma readOpened_file (hfile : fs.entries w (fs.opened w fd).path = some (.leaf c))
    (hreads : (fs.opened w fd).writes = false) :
    ∃ w', fs.entries w' = fs.entries w ∧
      DirectoryDevice.readOpened os.toPosix rounds fd offset maxBytes alloc nullTerminate w =
        ((Spot.file c).read plat offset maxBytes nullTerminate, w') := by
  obtain ⟨w₁, hend, hentries₁, hopened₁⟩ := fs.seek_end w fd c hfile
  have hfile₁ : fs.entries w₁ (fs.opened w₁ fd).path = some (.leaf c) := by
    rw [hentries₁, hopened₁, hfile]
  obtain ⟨r, w₂, hseek, hentries₂, hopened₂, -⟩ := fs.exists_sought hfile₁ offset
  have hlen : toU64 (raw (.ok c.bytes.length)) = c.bytes.length := by
    have := c.length_lt
    rw [raw, toU64]
    omega
  rw [readOpened_of_seeks hend hseek, hlen, if_neg (by have := c.length_lt; omega), Spot.read]
  by_cases hnil : c.bytes = []
  · rw [if_pos hnil, if_pos (by rw [hnil]; rfl)]
    exact ⟨_, (fs.close w₁ fd).trans hentries₁, rfl⟩
  · rw [if_neg hnil, if_neg (by simpa using hnil)]
    obtain ⟨w₃, hentries₃, hblock⟩ := @readBlock_file _ _ _ fs w₂ fd rounds
      (Spot.readCount c.bytes.length offset maxBytes) alloc nullTerminate c
      (by rw [hentries₂, hopened₂, hfile₁]) (by rw [hopened₂, hopened₁, hreads])
    refine ⟨w₃, hentries₃.trans (hentries₂.trans hentries₁), ?_⟩
    rw [hblock, hopened₂, hopened₁]

/-- `readFile` on a directory that has been opened. -/
lemma readOpened_directory (hdir : fs.entries w (fs.opened w fd).path = some .dir)
    (hreads : (fs.opened w fd).writes = false) :
    ∃ w', fs.entries w' = fs.entries w ∧
      DirectoryDevice.readOpened os.toPosix rounds fd offset maxBytes alloc nullTerminate w =
        ((Spot.directory (plat.dirEnd (fs.opened w fd).path
          ((fs.entries w).below (fs.opened w fd).path))).read plat offset maxBytes nullTerminate,
          w') := by
  generalize hend : plat.dirEnd _ _ = sought
  obtain ⟨_, pos, w₁, hseek₁, hentries₁, hopened₁, hsought⟩ :=
    fs.seek_directory w fd 0 .seekEnd hdir
  rw [hsought rfl rfl, hend] at hseek₁
  have hdir₁ : fs.entries w₁ (fs.opened w₁ fd).path = some .dir := by
    rw [hentries₁, hopened₁, hdir]
  obtain ⟨r, pos₂, w₂, hseek₂, hentries₂, hopened₂, -⟩ :=
    fs.seek_directory w₁ fd (toOff offset) .seekSet hdir₁
  have hdir₂ : fs.entries w₂ (fs.opened w₂ fd).path = some .dir := by
    rw [hentries₂, hopened₂, hdir₁]
  rw [readOpened_of_seeks hseek₁ hseek₂, Spot.read]
  by_cases hfailed : toU64 (raw sought) = 2 ^ 64 - 1
  · rw [if_pos hfailed, if_pos hfailed]
    exact ⟨_, (fs.close w₁ fd).trans hentries₁, rfl⟩
  · rw [if_neg hfailed, if_neg hfailed]
    by_cases hempty : toU64 (raw sought) = 0
    · rw [if_pos hempty, if_pos hempty]
      exact ⟨_, (fs.close w₁ fd).trans hentries₁, rfl⟩
    · rw [if_neg hempty, if_neg hempty]
      obtain ⟨w₃, hentries₃, hblock⟩ := fs.readBlock_directory hdir₂
        (by rw [hopened₂, hopened₁, hreads])
      exact ⟨w₃, hentries₃.trans (hentries₂.trans hentries₁), hblock⟩

/-- `readFile` answers as the spot says, and leaves the disk as it is. -/
lemma readFile_eq (hpath : plat.Accepts (dev.getDevicePath filePath)) :
    ∃ w', fs.entries w' = fs.entries w ∧
      dev.readFile os.toPosix rounds filePath offset maxBytes alloc nullTerminate w =
        ((fs.spot (dev.getDevicePath filePath) w).read plat offset maxBytes nullTerminate,
          w') := by
  rw [DirectoryDevice.readFile, DirectoryDevice.openFile, spot]
  revert hpath
  generalize dev.getDevicePath filePath = path
  intro hpath
  cases hloc : plat.locate path (fs.entries w) with
  | error e =>
    obtain ⟨w', hopen, hentries⟩ :=
      fs.open_error w path {} e hpath (by simp [Platform.opening, hloc])
    rw [retry_of_error hopen (Platform.ne_eintr_of_locate hloc)]
    exact ⟨w', hentries, rfl⟩
  | ok p =>
    dsimp only [Folder.spotOf]
    cases hentry : fs.entries w p with
    | none =>
      obtain ⟨w', hopen, hentries⟩ :=
        fs.open_error w path {} .enoent hpath (by simp [Platform.opening, hloc, hentry])
      rw [retry_of_error hopen (by decide)]
      exact ⟨w', hentries, rfl⟩
    | some x =>
      obtain ⟨fd, w₁, hopen, hentries₁, hopened₁⟩ := fs.open_ok w path {} p (fs.entries w) hpath
        (by cases x <;> simp [Platform.opening, hloc, hentry])
      rw [retry_ok hopen, ← hentries₁]
      have hpath₁ : (fs.opened w₁ fd).path = p := by rw [hopened₁]
      have hreads₁ : (fs.opened w₁ fd).writes = false := by rw [hopened₁]
      rw [← hentries₁, ← hpath₁] at hentry
      cases x with
      | dir =>
        obtain ⟨w₂, hentries₂, hread⟩ := @readOpened_directory _ _ _ fs w₁ fd rounds offset
          maxBytes alloc nullTerminate hentry hreads₁
        rw [hpath₁] at hread
        exact ⟨w₂, hentries₂, hread⟩
      | leaf c =>
        obtain ⟨w₂, hentries₂, hread⟩ := @readOpened_file _ _ _ fs w₁ fd rounds offset
          maxBytes alloc nullTerminate c hentry hreads₁
        exact ⟨w₂, hentries₂, hread⟩

end Look

/-! ### The functions that change something -/

section Change

variable {fd rounds offset : ℕ} {mode : WriteMode} {c : FileBytes} {p : List CString}

/-- Putting back what is there changes nothing. -/
lemma put_file (hfile : fs.entries w p = some (.leaf c)) :
    (fs.entries w).put p (some (.leaf c)) = fs.entries w :=
  Folder.put_same hfile fun q hq => fs.below_file w p c q hfile hq

/-- `write` on an open file. -/
lemma retry_write (bytes : List UInt8)
    (hfile : fs.entries w (fs.opened w fd).path = some (.leaf c))
    (hwrites : (fs.opened w fd).writes = true) (hplace : (fs.opened w fd).place c < 2 ^ 63) :
    let r := Spot.stored plat (fs.opened w fd).pos ((fs.opened w fd).place c) bytes c
    ∃ w', fs.entries w' = (fs.entries w).put (fs.opened w fd).path (some (.leaf r.2)) ∧
      ((∃ e, retry (os.write fd bytes) rounds w = (.error e, w') ∧
          r.1 = ⟨0, some (convertError e)⟩) ∨
        ∃ n, retry (os.write fd bytes) rounds w = (.ok n, w') ∧ r.1 = ⟨n, some .ok⟩) := by
  rw [Spot.stored]
  cases hsize : plat.writeSize (fs.opened w fd).pos ((fs.opened w fd).place c) bytes.length with
  | error e =>
    obtain ⟨w', hwrite, hentries⟩ := fs.write_error w fd bytes c e hfile hwrites hsize
    exact ⟨w', hentries.trans (fs.put_file hfile).symm,
      Or.inl ⟨e, retry_of_error hwrite (fun he => plat.writeSize_ne _ _ _ (he ▸ hsize)) rounds,
        rfl⟩⟩
  | ok n =>
    have hfits := plat.writeSize_fits _ _ _ _ hplace hsize
    obtain ⟨c', hput⟩ : ∃ c', c.put ((fs.opened w fd).place c) (bytes.take n) = some c' := by
      refine Option.ne_none_iff_exists'.mp fun hnone => ?_
      rw [SoleFile.put_eq_none_iff hplace, List.length_take] at hnone
      omega
    obtain ⟨w', hwrite, hentries⟩ := fs.write_ok w fd bytes c n c' hfile hwrites hsize hput
    dsimp only
    rw [SoleFile.storeOutcome, hput]
    exact ⟨w', hentries, Or.inr ⟨_, retry_ok hwrite rounds, rfl⟩⟩

/-- `writeFile` on a file that has been opened at its start. -/
lemma writeOpened_eq (buffer : Option Buffer) (count : ℕ)
    (hopened : fs.opened w fd = ⟨p, 0, true, decide (mode = .append)⟩)
    (hfile : fs.entries w p = some (.leaf c)) :
    let r := Spot.store plat mode offset ((buffer.elim [] Buffer.bytes).take count) c
    ∃ w', fs.entries w' = (fs.entries w).put p (some (.leaf r.2)) ∧
      DirectoryDevice.writeOpened os.toPosixWrite rounds fd offset buffer count w = (r.1, w') := by
  rw [DirectoryDevice.writeOpened]
  generalize (buffer.elim [] Buffer.bytes).take count = bytes
  have hpath : (fs.opened w fd).path = p := by rw [hopened]
  obtain ⟨sought, w₁, hseek, hentries₁, hopened₁, hfound⟩ :=
    fs.exists_sought (by rw [hpath, hfile]) offset
  rw [hopened] at hopened₁
  rw [hseek]
  dsimp only
  by_cases hraw : raw sought = toOff offset
  · rw [if_pos hraw] at hfound
    have hplace : (fs.opened w₁ fd).place c =
        if mode = .append then c.bytes.length else (toOff offset).toNat := by
      rw [hopened₁, OpenEntry.place, Spot.readStart_zero]
      simp only [decide_eq_true_eq]
    have hpos : (fs.opened w₁ fd).pos = (toOff offset).toNat := by
      rw [hopened₁]
      exact Spot.readStart_zero offset
    have hlt : (toOff offset).toNat < 2 ^ 63 := by
      rw [toOff]
      split <;> omega
    obtain ⟨w₂, hentries₂, hwrite⟩ := @retry_write _ _ _ fs w₁ fd rounds c bytes
      (by rw [hentries₁, hopened₁, hfile]) (by rw [hopened₁]) (by
        rw [hplace]
        split_ifs
        · exact c.length_lt
        · exact hlt)
    rw [hplace, hpos, hentries₁, hopened₁] at hentries₂
    rw [hplace, hpos] at hwrite
    rw [if_pos hraw, Spot.store, if_neg hfound]
    refine ⟨os.close fd w₂, (fs.close w₂ fd).trans hentries₂, ?_⟩
    rcases hwrite with ⟨e, hwrite, hr⟩ | ⟨n, hwrite, hr⟩ <;> rw [hwrite, hr]
  · rw [if_neg hraw] at hfound
    rw [if_neg hraw, Spot.store, if_pos hfound.1, hfound.2]
    exact ⟨os.close fd w₁, by rw [fs.close, hentries₁, fs.put_file hfile], rfl⟩

lemma create_openFlags (mode : WriteMode) :
    mode.openFlags.create = true ∧ mode.openFlags.write = true ∧
      mode.openFlags.truncate = decide (mode = .truncate) ∧
      mode.openFlags.append = decide (mode = .append) := by
  cases mode <;> exact ⟨rfl, rfl, rfl, rfl⟩

/-- `writeFile` answers as the spot says, and puts there what the spot says. -/
lemma writeFile_eq (hpath : plat.Accepts (dev.getDevicePath filePath)) (buffer : Option Buffer)
    (count : ℕ) (mode : WriteMode) :
    let place := plat.locateCreate (dev.getDevicePath filePath) (fs.entries w)
    let r := ((fs.entries w).spotOf plat [] place).write plat mode offset
      ((buffer.elim [] Buffer.bytes).take count)
    ∃ w', dev.writeFile os.toPosixWrite rounds filePath offset buffer count mode w = (r.1, w') ∧
      fs.entries w' = (fs.entries w).edit place r.2 := by
  obtain ⟨hcreate, hwriting, htruncate, happend⟩ := create_openFlags mode
  rw [DirectoryDevice.writeFile, DirectoryDevice.openFile]
  revert hpath
  generalize dev.getDevicePath filePath = path
  intro hpath
  cases hloc : plat.locateCreate path (fs.entries w) with
  | error e =>
    obtain ⟨w', hopen, hentries⟩ := fs.open_error w path mode.openFlags e hpath
      (by simp [Platform.opening, hcreate, hloc])
    rw [retry_of_error hopen (Platform.ne_eintr_of_locateCreate hloc)]
    exact ⟨w', rfl, hentries⟩
  | ok p =>
    dsimp only [Folder.spotOf]
    cases hentry : fs.entries w p with
    | none =>
      obtain ⟨fd, w₁, hopen, hentries₁, hopened₁⟩ := fs.open_ok w path mode.openFlags p
        ((fs.entries w).put p (some (.leaf .empty))) hpath
        (by simp [Platform.opening, hcreate, hloc, hentry])
      rw [hwriting, happend] at hopened₁
      obtain ⟨w₂, hentries₂, hwrite⟩ := @writeOpened_eq _ _ _ fs w₁ fd rounds offset mode .empty p
        buffer count hopened₁ (by rw [hentries₁, Folder.put_self])
      rw [retry_ok hopen]
      refine ⟨w₂, hwrite, hentries₂.trans ?_⟩
      rw [hentries₁, Folder.put_put]
      rfl
    | some x =>
      cases x with
      | dir =>
        obtain ⟨w', hopen, hentries⟩ := fs.open_error w path mode.openFlags .eisdir hpath
          (by simp [Platform.opening, hcreate, hwriting, hloc, hentry])
        rw [retry_of_error hopen (by decide)]
        exact ⟨w', rfl, hentries⟩
      | leaf c =>
        obtain ⟨fd, w₁, hopen, hentries₁, hopened₁⟩ := fs.open_ok w path mode.openFlags p
          ((fs.entries w).put p (some (.leaf (if mode = .truncate then .empty else c)))) hpath (by
            simp only [Platform.opening, hcreate, if_true, hloc, hentry, htruncate,
              decide_eq_true_eq]
            split_ifs
            · rfl
            · rw [fs.put_file hentry])
        rw [hwriting, happend] at hopened₁
        obtain ⟨w₂, hentries₂, hwrite⟩ := @writeOpened_eq _ _ _ fs w₁ fd rounds offset mode _ p
          buffer count hopened₁ (by rw [hentries₁, Folder.put_self])
        rw [retry_ok hopen]
        refine ⟨w₂, hwrite, hentries₂.trans ?_⟩
        rw [hentries₁, Folder.put_put]
        rfl

/-- `deleteFile` answers as the spot says, and removes what the spot says. -/
lemma deleteFile_eq (hpath : plat.Accepts (dev.getDevicePath filePath)) :
    let place := plat.locate (dev.getDevicePath filePath) (fs.entries w)
    let r := ((fs.entries w).spotOf plat [] place).delete plat
    ∃ w', dev.deleteFile os filePath w = (r.1, w') ∧
      fs.entries w' = (fs.entries w).edit place r.2 := by
  rw [DirectoryDevice.deleteFile]
  revert hpath
  generalize dev.getDevicePath filePath = path
  intro hpath
  have hfail (e : Errno) (h : plat.unlinking path (fs.entries w) = .error e) :
      ∃ w', os.unlink path w = (.error e, w') ∧ fs.entries w' = fs.entries w :=
    fs.unlink_error w path e hpath h
  cases hloc : plat.locate path (fs.entries w) with
  | error e =>
    obtain ⟨w', hunlink, hentries⟩ := hfail e (by simp [Platform.unlinking, hloc])
    rw [hunlink]
    exact ⟨w', rfl, hentries⟩
  | ok p =>
    dsimp only [Folder.spotOf]
    cases hentry : fs.entries w p with
    | none =>
      obtain ⟨w', hunlink, hentries⟩ := hfail .enoent (by simp [Platform.unlinking, hloc, hentry])
      rw [hunlink]
      exact ⟨w', rfl, hentries⟩
    | some x =>
      cases x with
      | dir =>
        obtain ⟨w', hunlink, hentries⟩ :=
          hfail plat.unlinkDirectory (by simp [Platform.unlinking, hloc, hentry])
        rw [hunlink]
        exact ⟨w', rfl, hentries⟩
      | leaf c =>
        obtain ⟨w', hunlink, hentries⟩ := fs.unlink_ok w path ((fs.entries w).put p none) hpath
          (by simp only [Platform.unlinking, hloc, hentry])
        rw [hunlink]
        exact ⟨w', rfl, hentries⟩

/-- `createDir` answers as the spot says, and makes what the spot says. -/
lemma createDir_eq (hpath : plat.Accepts (dev.getDevicePath filePath)) :
    let place := plat.locateNew (dev.getDevicePath filePath) (fs.entries w)
    let r := ((fs.entries w).spotOf plat [] place).createDir
    ∃ w', dev.createDir os filePath w = (r.1, w') ∧
      fs.entries w' = (fs.entries w).edit place r.2 := by
  rw [DirectoryDevice.createDir]
  revert hpath
  generalize dev.getDevicePath filePath = path
  intro hpath
  cases hloc : plat.locateNew path (fs.entries w) with
  | error e =>
    obtain ⟨w', hmkdir, hentries⟩ := fs.mkdir_error w path e hpath (by simp [Platform.making, hloc])
    rw [hmkdir]
    exact ⟨w', rfl, hentries⟩
  | ok p =>
    dsimp only [Folder.spotOf]
    cases hentry : fs.entries w p with
    | none =>
      obtain ⟨w', hmkdir, hentries⟩ := fs.mkdir_ok w path
        ((fs.entries w).put p (some .dir)) hpath (by simp only [Platform.making, hloc, hentry])
      rw [hmkdir]
      exact ⟨w', rfl, hentries⟩
    | some x =>
      obtain ⟨w', hmkdir, hentries⟩ := fs.mkdir_error w path .eexist hpath
        (by simp only [Platform.making, hloc, hentry])
      rw [hmkdir]
      cases x <;> exact ⟨w', rfl, hentries⟩

end Change

/-! ### `deleteDir` -/

section DeleteDir

variable {p : List CString}

/-- What the walk is done with is removed. -/
lemma deleteEntries_finished {v : Visit CString FileBytes} {path : List CString} {w' : W}
    (hv : v.finished = some path) (hremove : os.remove path w = (.ok (), w'))
    (reads : List FtsRead) :
    DirectoryDevice.deleteEntries os.toFts (.entry (.ofVisit v) :: reads) w =
      DirectoryDevice.deleteEntries os.toFts reads w' := by
  cases v with
  | enter path => cases hv
  | leaf path c | leave path =>
    cases hv
    rw [DirectoryDevice.deleteEntries]
    dsimp only [Ftsent.ofVisit]
    rw [hremove]

/-- An entry of a directory goes, when there is nothing below it. -/
lemma exists_removed {name : CString} (hwork : ¬p <+: plat.workingDir)
    (hthere : fs.entries w (p ++ [name]) ≠ none)
    (hempty : ∀ q, q ≠ [] → fs.entries w (p ++ [name] ++ q) = none) :
    ∃ w', os.remove (p ++ [name]) w = (.ok (), w') ∧
      fs.entries w' = (fs.entries w).put (p ++ [name]) none :=
  fs.remove w (p ++ [name]) (by simp) (fun he => hwork ⟨[name], he⟩) hthere hempty

/-- The other entries of the directory are as they were. -/
lemma entries_of_removed {f rest : Forest CString FileBytes} {name : CString} {s : Folder}
    (hbelow : ∀ q, q ≠ [] → s (p ++ q) = (NamedTree.dir f).entry q)
    (hrest : ∀ n, rest.get n = if name = n then none else f.get n) :
    ∀ q, q ≠ [] → s.put (p ++ [name]) none (p ++ q) = (NamedTree.dir rest).entry q := by
  intro q hq
  obtain ⟨n, ns, rfl⟩ := List.exists_cons_of_ne_nil hq
  have hentry (g : Forest CString FileBytes) :
      (NamedTree.dir g).entry (n :: ns) = (g.get n).bind (NamedTree.entry · ns) := by
    rw [NamedTree.entry, NamedTree.below, Option.map_bind]
    rfl
  rw [hentry, hrest]
  by_cases hname : name = n
  · subst hname
    have hpre : p ++ [name] <+: p ++ name :: ns := ⟨ns, by simp⟩
    rw [if_pos rfl, Folder.put, if_pos hpre, ite_self]
    rfl
  · have hpre : ¬p ++ [name] <+: p ++ n :: ns := by
      rw [List.prefix_append_right_inj, List.cons_prefix_cons]
      exact fun h => hname h.1
    have hne : p ++ n :: ns ≠ p ++ [name] := fun he => hpre (he ▸ List.prefix_refl _)
    rw [if_neg hname, Folder.put, if_neg hne, if_neg hpre, hbelow _ hq, hentry]

/-- The rest of a directory is what there is without its first entry. -/
lemma get_rest {f rest : Forest CString FileBytes} {name n : CString}
    (hname : name ∉ rest.names) (hother : name ≠ n → f.get n = rest.get n) :
    rest.get n = if name = n then none else f.get n := by
  by_cases hn : name = n
  · subst hn
    rw [if_pos rfl]
    by_contra hsome
    obtain ⟨t, ht⟩ := Option.ne_none_iff_exists'.mp hsome
    exact hname (Forest.mem_names_of_get ht)
  · rw [if_neg hn, hother hn]

/-- **The loop empties a directory.** -/
lemma deleteEntries_forest {f : Forest CString FileBytes} (hf : f.Distinct)
    (hwork : ¬p <+: plat.workingDir)
    (hbelow : ∀ q, q ≠ [] → fs.entries w (p ++ q) = (NamedTree.dir f).entry q)
    (reads : List FtsRead) :
    ∃ w', fs.entries w' = (fs.entries w).clear p ∧
      DirectoryDevice.deleteEntries os.toFts (FtsRead.ofVisits (f.visits p) ++ reads) w =
        DirectoryDevice.deleteEntries os.toFts reads w' := by
  induction f generalizing w p reads with
  | nil =>
    refine ⟨w, (Folder.clear_of_empty fun q hq => ?_).symm, rfl⟩
    obtain ⟨n, ns, rfl⟩ := List.exists_cons_of_ne_nil hq
    exact hbelow _ hq
  | leaf name c rest ih =>
    have hself : fs.entries w (p ++ [name]) = some (.leaf c) := by
      rw [hbelow [name] (by simp), NamedTree.entry, NamedTree.below, Forest.get, if_pos rfl]
      rfl
    obtain ⟨w₁, hremove, hentries₁⟩ := fs.exists_removed hwork (hself ▸ Option.some_ne_none _)
      fun q hq => fs.below_file w _ c q hself hq
    have hrest (n : CString) : rest.get n =
        if name = n then none else (Forest.leaf name c rest).get n :=
      get_rest hf.1 fun hn => by rw [Forest.get, if_neg hn]
    obtain ⟨w', hentries, hreads⟩ := ih hf.2 hwork (by
      rw [hentries₁]
      exact entries_of_removed hbelow hrest) reads
    refine ⟨w', by rw [hentries, hentries₁, Folder.clear_put], ?_⟩
    rw [← hreads]
    exact deleteEntries_finished rfl hremove _
  | dir name contents rest ihc ih =>
    have hinside (q : List CString) : fs.entries w (p ++ [name] ++ q) =
        (NamedTree.dir contents).entry q := by
      rw [List.append_assoc, hbelow _ (by simp), NamedTree.entry_append, NamedTree.below,
        Forest.get, if_pos rfl]
      rfl
    -- first what the directory contains, then the directory itself
    obtain ⟨w₁, hentries₁, hreads₁⟩ := ihc hf.2.1
      (fun hpre => hwork ((List.prefix_append _ _).trans hpre)) (fun q _ => hinside q)
      (.entry (.ofVisit (.leave (p ++ [name]))) ::
        (FtsRead.ofVisits (rest.visits p) ++ reads))
    have hself : fs.entries w₁ (p ++ [name]) = some .dir := by
      have h := hinside []
      rw [List.append_nil] at h
      rw [hentries₁, Folder.clear, if_neg fun h => h.2 rfl, h]
      rfl
    obtain ⟨w₂, hremove, hentries₂⟩ := fs.exists_removed hwork
      (hself ▸ Option.some_ne_none _) fun q hq => by
        rw [hentries₁, Folder.clear, if_pos ⟨List.prefix_append _ _, by simpa using hq⟩]
    rw [hentries₁, Folder.put_clear] at hentries₂
    have hrest (n : CString) : rest.get n =
        if name = n then none else (Forest.dir name contents rest).get n :=
      get_rest hf.1 fun hn => by rw [Forest.get, if_neg hn]
    obtain ⟨w', hentries, hreads⟩ := ih hf.2.2 hwork (by
      rw [hentries₂]
      exact entries_of_removed hbelow hrest) reads
    refine ⟨w', by rw [hentries, hentries₂, Folder.clear_put], ?_⟩
    rw [← hreads, ← deleteEntries_finished (v := .leave (p ++ [name])) rfl hremove, ← hreads₁]
    have hvisits : FtsRead.ofVisits ((Forest.dir name contents rest).visits p) ++ reads =
        .entry (.ofVisit (.enter (p ++ [name]))) ::
          (FtsRead.ofVisits (contents.visits (p ++ [name])) ++
            (.entry (.ofVisit (.leave (p ++ [name]))) ::
              (FtsRead.ofVisits (rest.visits p) ++ reads))) := by
      simp [FtsRead.ofVisits, Forest.visits]
    rw [hvisits, DirectoryDevice.deleteEntries]
    rfl

/-- The loop removes what is at a path and all that is below it. -/
lemma deleteEntries_tree {t : NamedTree CString FileBytes} (hp : p ≠ [])
    (hwork : ¬p <+: plat.workingDir) (ht : t.Distinct)
    (hentry : ∀ q, t.entry q = fs.entries w (p ++ q)) :
    ∃ w', fs.entries w' = (fs.entries w).put p none ∧
      DirectoryDevice.deleteEntries os.toFts (FtsRead.ofVisits (t.visits p)) w =
        ((false, none), w') := by
  have hne : p ≠ plat.workingDir := fun he => hwork (he ▸ List.prefix_refl _)
  have hself : fs.entries w p = some t.top := by
    have h := hentry []
    rw [List.append_nil] at h
    rw [← h]
    rfl
  cases t with
  | leaf c =>
    obtain ⟨w', hremove, hentries⟩ := fs.remove w p hp hne (by simp [hself])
      fun q hq => fs.below_file w p c q hself hq
    exact ⟨w', hentries, deleteEntries_finished (v := .leaf p c) rfl hremove []⟩
  | dir f =>
    obtain ⟨w₁, hentries₁, hreads⟩ := fs.deleteEntries_forest ht hwork (fun q _ => (hentry q).symm)
      [.entry (.ofVisit (.leave p))]
    obtain ⟨w', hremove, hentries⟩ := fs.remove w₁ p hp hne
      (by rw [hentries₁, Folder.clear, if_neg fun h => h.2 rfl, hself]; simp) fun q hq => by
        rw [hentries₁, Folder.clear, if_pos ⟨List.prefix_append _ _, by simpa using hq⟩]
    refine ⟨w', by rw [hentries, hentries₁, Folder.put_clear], ?_⟩
    have hvisits : FtsRead.ofVisits ((NamedTree.dir f).visits p) =
        .entry (.ofVisit (.enter p)) ::
          (FtsRead.ofVisits (f.visits p) ++ [.entry (.ofVisit (.leave p))]) := by
      simp [FtsRead.ofVisits, NamedTree.visits]
    rw [hvisits, DirectoryDevice.deleteEntries]
    exact hreads.trans (deleteEntries_finished (v := .leave p) rfl hremove [])

lemma deleteDir_of_loop {reads : List FtsRead} {error : Bool} {errno : Option Errno} {w₁ w₂ : W}
    (hopen : os.ftsOpen (dev.getDevicePath filePath) w = (some reads, w₁))
    (hloop : DirectoryDevice.deleteEntries os.toFts reads w₁ = ((error, errno), w₂)) :
    dev.deleteDir os.toFts filePath w =
      (if error || errno.isSome then errno.elim .genericError convertError else .ok,
        os.ftsClose w₂) := by
  simp only [DirectoryDevice.deleteDir, hopen, hloop]

/-- `deleteDir` answers as the spot says, and removes all that is there, unless that contains the
working directory or is the root directory of the disk. -/
lemma deleteDir_eq (hne : dev.getDevicePath filePath ≠ [])
    (hpath : plat.Accepts (dev.getDevicePath filePath))
    (hends : Platform.EndsInName (dev.getDevicePath filePath))
    (hbelow : ∀ p, plat.locate (dev.getDevicePath filePath) (fs.entries w) = .ok p →
      p ≠ [] ∧ ¬p <+: plat.workingDir ∧ ∀ q, fs.entries w (p ++ q) ≠ none →
        plat.Accepts (dev.getDevicePath filePath ++ Components.led slash q)) :
    let place := plat.locate (dev.getDevicePath filePath) (fs.entries w)
    let r := ((fs.entries w).spotOf plat [] place).deleteDir
    ∃ w', dev.deleteDir os.toFts filePath w = (r.1, w') ∧
      fs.entries w' = (fs.entries w).edit place r.2 := by
  have hfail (e : Errno)
      (h : plat.stat (dev.getDevicePath filePath) (fs.entries w) = .error e) :
      ∃ w', dev.deleteDir os.toFts filePath w = (convertError e, w') ∧
        fs.entries w' = fs.entries w := by
    obtain ⟨accpath, w₁, hopen, hentries⟩ := fs.fts_error w _ e hne hpath h
    exact ⟨os.ftsClose w₁, deleteDir_of_loop hopen rfl, (fs.ftsClose w₁).trans hentries⟩
  cases hloc : plat.locate (dev.getDevicePath filePath) (fs.entries w) with
  | error e => exact hfail e (by simp only [Platform.stat, hloc])
  | ok p =>
    dsimp only [Folder.spotOf]
    cases hentry : fs.entries w p with
    | none => exact hfail .enoent (by simp only [Platform.stat, hloc, hentry])
    | some x =>
      obtain ⟨hp, hwork, hshort⟩ := hbelow p hloc
      obtain ⟨t, w₁, ht, hentries, hopen, hentries₁⟩ := fs.fts_ok w _ p hloc
        (by simp [hentry]) hends hshort
      obtain ⟨w₂, hentries₂, hloop⟩ := @deleteEntries_tree _ _ _ fs w₁ p t hp hwork ht
        (by rw [hentries₁]; exact hentries)
      refine ⟨os.ftsClose w₂, ?_, ?_⟩
      · rw [deleteDir_of_loop hopen hloop]
        cases x <;> rfl
      · rw [fs.ftsClose, hentries₂, hentries₁]
        cases x <;> rfl

end DeleteDir

end FileSystem

end LaminaFS
