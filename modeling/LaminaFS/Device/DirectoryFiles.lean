/-
# A directory device on byte-array files

What the lookup functions of a directory device answer for one path, as functions of what
is at the path alone.  Opening a file and moving in it changes no file.
-/
import LaminaFS.Device.Directory

namespace LaminaFS

namespace ByteFiles

/-- The two systems hold the same files; only the open files may differ. -/
structure SameFiles (fs fs' : ByteFiles) : Prop where
  node : fs'.node = fs.node
  dirEnd : fs'.dirEnd = fs.dirEnd
  hasMemory : fs'.hasMemory = fs.hasMemory

lemma SameFiles.refl (fs : ByteFiles) : SameFiles fs fs := ⟨rfl, rfl, rfl⟩

lemma SameFiles.moveTo {fs w : ByteFiles} (h : SameFiles fs w) (fd pos : ℕ) :
    SameFiles fs (w.moveTo fd pos) :=
  ⟨h.node, h.dirEnd, h.hasMemory⟩

/-- File lengths and positions fit in `off_t`. -/
structure Sized (fs : ByteFiles) : Prop where
  regular : ∀ path bytes, fs.node path = .regular bytes → bytes.length < 2 ^ 63
  directory : ∀ path n, fs.dirEnd path = .ok n → n < 2 ^ 63

/-- A regular file is at the path. -/
def isFile (fs : ByteFiles) (path : CString) : Bool :=
  match fs.node path with
  | .regular _ => true
  | _ => false

/-- The answer to `fileSize`. -/
def sizeAt (fs : ByteFiles) (path : CString) : SizeResult :=
  match fs.node path with
  | .absent e => ⟨0, some (convertError e)⟩
  | .directory => ⟨0, some .unsupported⟩
  | .regular bytes => ⟨bytes.length, some .ok⟩

/-- The allocator can provide `size` bytes and the terminator. -/
def hasRoom (fs : ByteFiles) (nullTerminate : Bool) (size : ℕ) : Bool :=
  fs.hasMemory (size + if nullTerminate then 1 else 0)

/-- The answer to `readFile` of the whole file.  A directory can be opened, but not read; if the
memory for what seeks as its length cannot be allocated, then reading it succeeds. -/
def readAt (fs : ByteFiles) (nullTerminate : Bool) (path : CString) : ReadResult :=
  match fs.node path with
  | .absent e => ⟨0, some (convertError e), .untouched⟩
  | .directory =>
    match fs.dirEnd path with
    | .error e => ⟨0, some (convertError e), .untouched⟩
    | .ok n =>
      if n = 0 then ⟨0, none, .untouched⟩
      else if fs.hasRoom nullTerminate n then ⟨0, some .genericError, .null⟩
      else ⟨0, some .ok, .null⟩
  | .regular bytes =>
    if bytes = [] then ⟨0, none, .untouched⟩
    else if fs.hasRoom nullTerminate bytes.length then
      ⟨bytes.length, some .ok, .block (DirectoryDevice.terminated nullTerminate bytes)⟩
    else ⟨0, some .ok, .null⟩

end ByteFiles

/-- A call that always fails the same way without a change fails so after its retries. -/
lemma retry_error {W α : Type} {call : W → Except Errno α × W} {e : Errno} {w : W}
    (h : call w = (.error e, w)) (rounds : ℕ) : retry call rounds w = (.error e, w) := by
  induction rounds with
  | zero => exact h
  | succ rounds ih =>
    rw [retry, h]
    cases e <;> first | rfl | exact ih

lemma retry_ok {W α : Type} {call : W → Except Errno α × W} {a : α} {w w' : W}
    (h : call w = (.ok a, w')) (rounds : ℕ) : retry call rounds w = (.ok a, w') := by
  cases rounds with
  | zero => exact h
  | succ rounds => rw [retry, h]

/-- The greatest `uint64_t`, which asks `readFile` for everything. -/
def wholeFile : ℕ := 2 ^ 64 - 1

namespace DirectoryDevice

open ByteFiles

variable {fs w : ByteFiles} {dev : DirectoryDevice} {filePath : CString}

lemma fileExists_eq (h : SameFiles fs w) :
    dev.fileExists posix filePath w = (fs.isFile (dev.getDevicePath filePath), w) := by
  simp only [fileExists, posix, ByteFiles.stat, h.node, isFile]
  cases fs.node (dev.getDevicePath filePath) <;> rfl

lemma fileSize_eq (h : SameFiles fs w) :
    dev.fileSize posix filePath w = (fs.sizeAt (dev.getDevicePath filePath), w) := by
  simp only [fileSize, posix, ByteFiles.stat, h.node, sizeAt]
  cases fs.node (dev.getDevicePath filePath) <;> rfl

lemma sub64_zero {n : ℕ} (h : n < 2 ^ 63) : sub64 n 0 = n := by
  rw [sub64]
  omega

lemma toU64_ofNat {n : ℕ} (h : n < 2 ^ 63) : toU64 (n : ℤ) = n := by
  rw [toU64]
  omega

lemma toOff_zero : toOff 0 = 0 := by
  simp [toOff]

@[simp] lemma opened_moveTo (fd pos : ℕ) :
    (w.moveTo fd pos).opened fd = ⟨(w.opened fd).path, pos⟩ := by
  simp [ByteFiles.moveTo]

/-- `readFile` from the allocation on, on a file that is open at its start. -/
lemma readBlock_eq {fd n : ℕ} (rounds : ℕ) (alloc : Option Allocator) (nullTerminate : Bool)
    (h : SameFiles fs w) (hpos : (w.opened fd).pos = 0) (hn : n < 2 ^ 63) :
    ∃ w', SameFiles fs w' ∧ readBlock posix rounds fd n alloc nullTerminate w =
      (if fs.hasRoom nullTerminate n then
        match fs.node (w.opened fd).path with
        | .absent e => ⟨0, some (convertError e), .null⟩
        | .directory => ⟨0, some .genericError, .null⟩
        | .regular bytes =>
          ⟨(bytes.take n).length, some .ok, .block (terminated nullTerminate (bytes.take n))⟩
      else ⟨0, some .ok, .null⟩, w') := by
  have hsize : (n + if nullTerminate then 1 else 0) % 2 ^ 64 =
      n + if nullTerminate then 1 else 0 := by
    split <;> omega
  simp only [readBlock, hsize, hasRoom, ← h.hasMemory]
  cases hm : w.hasMemory (n + if nullTerminate then 1 else 0) with
  | false => exact ⟨w, h, by simp [posix, hm]⟩
  | true =>
    simp only [posix, hm, if_true, ← h.node]
    cases hnode : w.node (w.opened fd).path with
    | absent e =>
      refine ⟨w, h, ?_⟩
      rw [retry_error (by simp [ByteFiles.read, hnode] :
        ByteFiles.read fd n w = (.error e, w))]
    | directory =>
      refine ⟨w, h, ?_⟩
      rw [retry_error (by simp [ByteFiles.read, hnode] :
        ByteFiles.read fd n w = (.error .eisdir, w))]
      rfl
    | regular bytes =>
      refine ⟨w.moveTo fd (bytes.take n).length, h.moveTo _ _, ?_⟩
      rw [retry_ok (by simp [ByteFiles.read, hnode, hpos] : ByteFiles.read fd n w =
        (.ok (bytes.take n), w.moveTo fd (bytes.take n).length))]

/-- `readFile` after the seek to the end has given `n`. -/
lemma readOpened_eq {fd n : ℕ} (rounds : ℕ) (alloc : Option Allocator) (nullTerminate : Bool)
    (h : SameFiles fs w) (hend : w.endOf fd = .ok n) (hn : n < 2 ^ 63) (h0 : n ≠ 0) :
    ∃ w', SameFiles fs w' ∧ (w'.opened fd).pos = 0 ∧
      (w'.opened fd).path = (w.opened fd).path ∧
      readOpened posix rounds fd 0 wholeFile alloc nullTerminate w =
        readBlock posix rounds fd n alloc nullTerminate w' := by
  refine ⟨(w.moveTo fd n).moveTo fd 0, (h.moveTo _ _).moveTo _ _, by simp, by simp, ?_⟩
  have hne : n ≠ 18446744073709551615 := by omega
  have hcount : min (sub64 n 0) wholeFile = n := by
    rw [sub64_zero hn, wholeFile]
    omega
  simp [readOpened, posix, ByteFiles.lseek, hend, raw, toU64_ofNat hn, h0, hne, toOff_zero,
    hcount]

/-- `readFile` on an empty file or directory leaves everything as it is. -/
lemma readOpened_zero {rounds fd : ℕ} {alloc : Option Allocator} {nullTerminate : Bool}
    (h : SameFiles fs w) (hend : w.endOf fd = .ok 0) :
    ∃ w', SameFiles fs w' ∧ readOpened posix rounds fd 0 wholeFile alloc nullTerminate w =
      (⟨0, none, .untouched⟩, w') := by
  refine ⟨w.moveTo fd 0, h.moveTo _ _, ?_⟩
  simp [readOpened, posix, ByteFiles.lseek, hend, raw, toU64]

/-- `readFile` when seeking to the end fails. -/
lemma readOpened_error {rounds fd : ℕ} {alloc : Option Allocator} {nullTerminate : Bool}
    {e : Errno} (h : SameFiles fs w) (hend : w.endOf fd = .error e) :
    ∃ w', SameFiles fs w' ∧ readOpened posix rounds fd 0 wholeFile alloc nullTerminate w =
      (⟨0, some (convertError e), .untouched⟩, w') := by
  refine ⟨w, h, ?_⟩
  simp [readOpened, posix, ByteFiles.lseek, hend, raw, toU64, errnoOf]

/-- Opening what is there gives a file at its start. -/
lemma open_eq (path : CString) (h : SameFiles fs w) (hnode : ∀ e, fs.node path ≠ .absent e)
    (flags : OpenFlags) :
    ∃ w', SameFiles fs w' ∧ w'.opened w.nextFd = ⟨path, 0⟩ ∧
      posix.openFile path flags w = (.ok w.nextFd, w') := by
  refine ⟨{ w with
    opened := Function.update w.opened w.nextFd ⟨path, 0⟩
    nextFd := w.nextFd + 1 }, ⟨h.node, h.dirEnd, h.hasMemory⟩, by simp, ?_⟩
  simp only [posix, ByteFiles.openFile]
  split
  · rename_i e he
    rw [h.node] at he
    exact absurd he (hnode e)
  · rfl

lemma readFile_eq (hs : fs.Sized) (h : SameFiles fs w) (rounds : ℕ) (alloc : Option Allocator)
    (nullTerminate : Bool) :
    ∃ w', SameFiles fs w' ∧
      dev.readFile posix rounds filePath 0 wholeFile alloc nullTerminate w =
        (fs.readAt nullTerminate (dev.getDevicePath filePath), w') := by
  simp only [readFile, openFile, readAt]
  generalize dev.getDevicePath filePath = path
  cases hnode : fs.node path with
  | absent e =>
    refine ⟨w, h, ?_⟩
    rw [retry_error (by simp [posix, ByteFiles.openFile, h.node, hnode] :
      posix.openFile path {} w = (.error e, w))]
  | directory =>
    obtain ⟨w₁, h₁, hfd, hopen⟩ := open_eq path h (by simp [hnode]) {}
    have hend : w₁.endOf w.nextFd = fs.dirEnd path := by
      simp [endOf, hfd, h₁.node, hnode, h₁.dirEnd]
    rw [retry_ok hopen]
    dsimp only
    cases hdir : fs.dirEnd path with
    | error e => exact readOpened_error h₁ (hend.trans hdir)
    | ok n =>
      rw [hdir] at hend
      dsimp only
      by_cases hn : n = 0
      · subst hn
        exact readOpened_zero h₁ hend
      · have hlt := hs.directory _ _ hdir
        obtain ⟨w₂, h₂, hpos, hpath, hread⟩ := readOpened_eq rounds alloc nullTerminate
          h₁ hend hlt hn
        obtain ⟨w₃, h₃, hblock⟩ := readBlock_eq rounds alloc nullTerminate h₂ hpos hlt
        refine ⟨w₃, h₃, ?_⟩
        rw [hread, hblock, hpath, hfd, if_neg hn]
        simp only [hnode]
  | regular bytes =>
    obtain ⟨w₁, h₁, hfd, hopen⟩ := open_eq path h (by simp [hnode]) {}
    have hend : w₁.endOf w.nextFd = .ok bytes.length := by
      simp [endOf, hfd, h₁.node, hnode]
    rw [retry_ok hopen]
    dsimp only
    by_cases hn : bytes = []
    · subst hn
      exact readOpened_zero h₁ hend
    · have hlt := hs.regular _ _ hnode
      obtain ⟨w₂, h₂, hpos, hpath, hread⟩ := readOpened_eq rounds alloc nullTerminate
        h₁ hend hlt (by simpa using hn)
      obtain ⟨w₃, h₃, hblock⟩ := readBlock_eq rounds alloc nullTerminate h₂ hpos hlt
      refine ⟨w₃, h₃, ?_⟩
      rw [hread, hblock, hpath, hfd, if_neg hn]
      simp only [hnode, List.take_length]

end DirectoryDevice

end LaminaFS
