/-
# Writing to a directory device

`DirectoryDevice::writeFile`, POSIX branch.  The write mode is in the flags of `open` alone; the
seek to the offset is made in every mode.  On a disk of byte-array files any sequence of writes
leaves the file that a reference update makes of it, and the reading functions of the device
give it back.
-/
import LaminaFS.Device.Disk
import LaminaFS.Device.DirectoryFiles

namespace LaminaFS

open Overwrite

/-- The memory behind a buffer pointer. -/
def Buffer.bytes : Buffer → List UInt8
  | .client _ bytes | .block _ bytes => bytes

/-- `O_WRONLY | O_CREAT | openFlags`. -/
def WriteMode.openFlags : WriteMode → OpenFlags
  | .truncate => { write := true, create := true, truncate := true }
  | .append => { write := true, create := true, append := true }
  | .segment => { write := true, create := true }

namespace DirectoryDevice

variable {W : Type}

/-- `writeFile` on the open file. -/
def writeOpened (os : PosixWrite W) (rounds : ℕ) (file offset : ℕ) (buffer : Option Buffer)
    (bytesToWrite : ℕ) (w : W) : WriteResult × W :=
  match os.lseek file (toOff offset) .seekSet w with
  | (sought, w) =>
    if raw sought = toOff offset then
      match retry (os.write file ((buffer.elim [] Buffer.bytes).take bytesToWrite)) rounds w with
      | (.error e, w) => (⟨0, some (convertError e)⟩, os.close file w)
      | (.ok bytes, w) => (⟨bytes, some .ok⟩, os.close file w)
    else (⟨0, some (convertError (errnoOf (.other 0) sought))⟩, os.close file w)

/-- `writeFile`. -/
def writeFile (os : PosixWrite W) (rounds : ℕ) (dev : DirectoryDevice) (filePath : CString)
    (offset : ℕ) (buffer : Option Buffer) (bytesToWrite : ℕ) (writeMode : WriteMode) (w : W) :
    WriteResult × W :=
  match dev.openFile os.toPosix rounds filePath writeMode.openFlags w with
  | (.error e, w) => (⟨0, some (convertError e)⟩, w)
  | (.ok file, w) => writeOpened os rounds file offset buffer bytesToWrite w

end DirectoryDevice

/-! ### The reference -/

/-- A call of `writeFile` with all the bytes of a buffer. -/
structure WriteCall where
  mode : WriteMode
  offset : ℕ
  buffer : Buffer

namespace WriteCall

/-- The buffer is not empty, and only a segment has an offset. -/
structure Valid (c : WriteCall) : Prop where
  bytes_ne_nil : c.buffer.bytes ≠ []
  offset_eq : c.mode ≠ .segment → c.offset = 0

/-- What the call makes of the contents of the file: it replaces them, appends to them, or
overwrites them from the offset on. -/
def update (c : WriteCall) (old : List UInt8) : List UInt8 :=
  match c.mode with
  | .truncate => c.buffer.bytes
  | .append => old ++ c.buffer.bytes
  | .segment => overwrite 0 old c.offset c.buffer.bytes

end WriteCall

/-- The contents after the calls. -/
def contentsAfter (old : List UInt8) (calls : List WriteCall) : List UInt8 :=
  calls.foldl (fun old c => c.update old) old

/-- The contents stay within `2 ^ 63 - 1` bytes. -/
def Fits (old : List UInt8) : List WriteCall → Prop
  | [] => True
  | c :: calls => (c.update old).length ≤ 2 ^ 63 - 1 ∧ Fits (c.update old) calls

namespace Disk

/-- The contents of the file at a path that is absent or a regular file. -/
def contents (d : Disk) (path : CString) : List UInt8 :=
  match d.node path with
  | .regular bytes => bytes
  | _ => []

/-- The path is absent, and a file can be created there, or it is a regular file. -/
def Writable (d : Disk) (path : CString) : Prop :=
  d.node path = .absent .enoent ∨ ∃ bytes, d.node path = .regular bytes

/-- The calls of `writeFile`, one after the other. -/
def writeAll (dev : DirectoryDevice) (rounds : ℕ) (filePath : CString) :
    List WriteCall → Disk → List WriteResult × Disk
  | [], d => ([], d)
  | c :: calls, d =>
    match dev.writeFile posix rounds filePath c.offset (some c.buffer) c.buffer.bytes.length
      c.mode d with
    | (r, d) =>
      match writeAll dev rounds filePath calls d with
      | (rs, d) => (r :: rs, d)

/-! ### One call -/

lemma toOff_of_lt {n : ℕ} (h : n < 2 ^ 63) : toOff n = n := by
  rw [toOff]
  have hmod : n % 2 ^ 64 = n := Nat.mod_eq_of_lt (by omega)
  rw [hmod, if_pos h]

/-- Opening for writing creates the file or, with `O_TRUNC`, empties it. -/
lemma openFile_write {d : Disk} {path : CString} (h : d.Writable path) (mode : WriteMode) :
    openFile path mode.openFlags d = (.ok d.nextFd,
      (d.setFile path (if mode = .truncate then [] else d.contents path)).openNext path
        (decide (mode = .append))) := by
  rcases h with h | ⟨bytes, h⟩
  · simp only [openFile, contents, h]
    cases mode <;> rfl
  · simp only [openFile, contents, h]
    cases mode <;> rfl

/-- `write` on a regular file. -/
lemma write_eq {d : Disk} {fd pos : ℕ} {path : CString} {append : Bool} {old bytes : List UInt8}
    (hfd : d.opened fd = ⟨path, pos, append⟩) (hnode : d.node path = .regular old)
    (hne : bytes ≠ [])
    (hfits : (if append then old.length else pos) + bytes.length < 2 ^ 63) :
    d.write fd bytes = (.ok bytes.length,
      (d.setFile path (patch 0 old (if append then old.length else pos) bytes)).moveTo fd
        ((if append then old.length else pos) + bytes.length)) := by
  simp only [write, hfd, hnode, if_neg hne, if_pos hfits]

/-- What is written at the place that the mode selects is the update. -/
lemma patch_update {c : WriteCall} (hc : c.Valid) (old : List UInt8) :
    ∀ start, start = (if c.mode = .truncate then [] else old) →
      patch 0 start (if decide (c.mode = .append) then start.length else c.offset)
        c.buffer.bytes = c.update old := by
  rintro start rfl
  unfold WriteCall.update
  cases hm : c.mode with
  | truncate =>
    rw [hc.offset_eq (by rw [hm]; decide)]
    exact patch_length 0 [] c.buffer.bytes
  | append => exact patch_length 0 old c.buffer.bytes
  | segment => exact patch_eq_overwrite 0 old c.offset c.buffer.bytes

/-- **One write.**  The call writes everything, and the contents are updated. -/
lemma writeFile_eq {d : Disk} {dev : DirectoryDevice} {filePath : CString} (rounds : ℕ)
    {c : WriteCall} (hc : c.Valid) (h : d.Writable (dev.getDevicePath filePath))
    (hfits : (c.update (d.contents (dev.getDevicePath filePath))).length ≤ 2 ^ 63 - 1) :
    ∃ d', dev.writeFile posix rounds filePath c.offset (some c.buffer) c.buffer.bytes.length
        c.mode d = (⟨c.buffer.bytes.length, some .ok⟩, d') ∧
      d'.node (dev.getDevicePath filePath) =
        .regular (c.update (d.contents (dev.getDevicePath filePath))) ∧
      d'.hasMemory = d.hasMemory := by
  unfold DirectoryDevice.writeFile DirectoryDevice.openFile
  generalize dev.getDevicePath filePath = path at h hfits ⊢
  have hopen : posix.openFile path c.mode.openFlags d = _ := openFile_write h c.mode
  obtain ⟨start, hstart⟩ : ∃ start, start =
    (if c.mode = .truncate then [] else d.contents path) := ⟨_, rfl⟩
  have hpatch := patch_update hc (d.contents path) start hstart
  rw [← hstart] at hopen
  -- the place of the write, and the end of what is written, fit in `off_t`
  have hlen := congrArg List.length hpatch
  rw [length_patch] at hlen
  have hpos : (if decide (c.mode = .append) then start.length else c.offset) +
      c.buffer.bytes.length < 2 ^ 63 := by omega
  have hoffset : c.offset < 2 ^ 63 := by
    by_cases hm : c.mode = .segment
    · rw [hm] at hpos
      exact Nat.lt_of_le_of_lt (Nat.le_add_right _ _) hpos
    · rw [hc.offset_eq hm]
      decide
  generalize hd₁ : (d.setFile path start).openNext path (decide (c.mode = .append)) = d₁ at hopen
  have hnode₁ : d₁.node path = .regular start := by
    rw [← hd₁]
    exact Function.update_self _ _ _
  have hfd₁ : d₁.opened d.nextFd = ⟨path, 0, decide (c.mode = .append)⟩ := by
    rw [← hd₁]
    exact Function.update_self _ _ _
  have hmemory₁ : d₁.hasMemory = d.hasMemory := by
    rw [← hd₁]
    rfl
  have hseek : posix.lseek d.nextFd c.offset .seekSet d₁ =
      (.ok c.offset, d₁.moveTo d.nextFd c.offset) := by
    have hneg : ¬(c.offset : ℤ) < 0 := by omega
    show lseek d.nextFd c.offset .seekSet d₁ = _
    rw [lseek, if_neg hneg, Int.toNat_natCast]
  have hfd₂ : (d₁.moveTo d.nextFd c.offset).opened d.nextFd =
      ⟨path, c.offset, decide (c.mode = .append)⟩ := by
    rw [moveTo, hfd₁]
    exact Function.update_self _ _ _
  have hwrite : posix.write d.nextFd c.buffer.bytes _ = _ :=
    write_eq hfd₂ hnode₁ hc.bytes_ne_nil hpos
  rw [retry_ok hopen]
  dsimp only
  rw [DirectoryDevice.writeOpened, toOff_of_lt hoffset, hseek]
  simp only [raw, if_true, Option.elim_some, List.take_length]
  rw [retry_ok hwrite]
  refine ⟨_, rfl, ?_, hmemory₁⟩
  rw [← hpatch]
  exact Function.update_self _ _ _

/-! ### Reading back -/

/-- At most `maxBytes` bytes of the contents, from `offset` on. -/
def slice (bytes : List UInt8) (offset maxBytes : ℕ) : List UInt8 :=
  (bytes.drop offset).take maxBytes

lemma take_slice {bytes : List UInt8} {offset maxBytes : ℕ} :
    (bytes.drop offset).take (min (bytes.length - offset) maxBytes) =
      slice bytes offset maxBytes := by
  rw [slice, List.take_eq_take_iff, List.length_drop]
  omega

lemma length_slice {bytes : List UInt8} {offset maxBytes : ℕ} :
    (slice bytes offset maxBytes).length = min (bytes.length - offset) maxBytes := by
  rw [slice, List.length_take, List.length_drop, Nat.min_comm]

/-- `readFile` from the allocation on, on a file that is open at the offset. -/
lemma readBlock_slice {d : Disk} {fd offset maxBytes : ℕ} {path : CString} {append : Bool}
    {bytes : List UInt8} (hfd : d.opened fd = ⟨path, offset, append⟩)
    (hnode : d.node path = .regular bytes) (hlen : bytes.length < 2 ^ 63) (rounds : ℕ)
    (alloc : Option Allocator) (nullTerminate : Bool)
    (hmemory : slice bytes offset maxBytes ≠ [] → d.hasMemory
      ((slice bytes offset maxBytes).length + if nullTerminate then 1 else 0) = true) :
    ∃ store, (DirectoryDevice.readBlock posix.toPosix rounds fd
        (min (bytes.length - offset) maxBytes) alloc nullTerminate d).1 =
        ⟨(slice bytes offset maxBytes).length, some .ok, store⟩ ∧
      (store = .block (DirectoryDevice.terminated nullTerminate (slice bytes offset maxBytes)) ∨
        slice bytes offset maxBytes = [] ∧ store = .null) := by
  have hlen' := @length_slice bytes offset maxBytes
  rw [← hlen']
  -- the size of the block does not wrap around
  have hsize : ((slice bytes offset maxBytes).length + if nullTerminate then 1 else 0) % 2 ^ 64 =
      (slice bytes offset maxBytes).length + if nullTerminate then 1 else 0 := by
    split <;> omega
  have hread : posix.read fd (slice bytes offset maxBytes).length d =
      (.ok (slice bytes offset maxBytes),
        d.moveTo fd (offset + (slice bytes offset maxBytes).length)) := by
    have htake : (bytes.drop offset).take (slice bytes offset maxBytes).length =
        slice bytes offset maxBytes := by
      rw [hlen', take_slice]
    show read fd _ d = _
    simp only [read, hfd, hnode, htake]
  have halloc : posix.alloc alloc ((slice bytes offset maxBytes).length +
      if nullTerminate then 1 else 0) d = (d.hasMemory
        ((slice bytes offset maxBytes).length + if nullTerminate then 1 else 0), d) := rfl
  rw [DirectoryDevice.readBlock, hsize, halloc]
  cases hm : d.hasMemory ((slice bytes offset maxBytes).length + if nullTerminate then 1 else 0)
  · -- only an empty slice needs no block
    have hnil : slice bytes offset maxBytes = [] := by
      by_contra hne
      rw [hmemory hne] at hm
      cases hm
    exact ⟨.null, by rw [hnil]; rfl, Or.inr ⟨hnil, rfl⟩⟩
  · dsimp only
    rw [retry_ok hread]
    exact ⟨_, rfl, Or.inl rfl⟩

/-- **One read.**  A file that is not empty is read slice by slice. -/
lemma readFile_slice {d : Disk} {dev : DirectoryDevice} {filePath : CString}
    {bytes : List UInt8} (hnode : d.node (dev.getDevicePath filePath) = .regular bytes)
    (hne : bytes ≠ []) (hlen : bytes.length < 2 ^ 63) (rounds : ℕ) {offset maxBytes : ℕ}
    (hoffset : offset ≤ bytes.length) (alloc : Option Allocator) (nullTerminate : Bool)
    (hmemory : slice bytes offset maxBytes ≠ [] → d.hasMemory
      ((slice bytes offset maxBytes).length + if nullTerminate then 1 else 0) = true) :
    ∃ store, (dev.readFile posix.toPosix rounds filePath offset maxBytes alloc nullTerminate d).1 =
        ⟨(slice bytes offset maxBytes).length, some .ok, store⟩ ∧
      (store = .block (DirectoryDevice.terminated nullTerminate (slice bytes offset maxBytes)) ∨
        slice bytes offset maxBytes = [] ∧ store = .null) := by
  unfold DirectoryDevice.readFile DirectoryDevice.openFile
  generalize dev.getDevicePath filePath = path at hnode ⊢
  have hopen : posix.openFile path {} d =
      (.ok d.nextFd, (d.setFile path bytes).openNext path false) := by
    show openFile path {} d = _
    simp only [openFile, hnode]
    rfl
  rw [retry_ok hopen]
  generalize hd₁ : (d.setFile path bytes).openNext path false = d₁
  have hnode₁ : d₁.node path = .regular bytes := by
    rw [← hd₁]
    exact Function.update_self _ _ _
  have hfd₁ : d₁.opened d.nextFd = ⟨path, 0, false⟩ := by
    rw [← hd₁]
    exact Function.update_self _ _ _
  have hend : d₁.endOf d.nextFd = .ok bytes.length := by
    simp only [endOf, hfd₁, hnode₁]
  have hmax : bytes.length ≠ 18446744073709551615 := by omega
  have hzero : bytes.length ≠ 0 := by simpa using hne
  have hsub : sub64 bytes.length offset = bytes.length - offset := by
    rw [sub64]
    omega
  -- the two seeks leave the file at the offset
  obtain ⟨d₂, hd₂, hread⟩ : ∃ d₂, d₂ = (d₁.moveTo d.nextFd bytes.length).moveTo d.nextFd offset ∧
      DirectoryDevice.readOpened posix.toPosix rounds d.nextFd offset maxBytes alloc nullTerminate
        d₁ = DirectoryDevice.readBlock posix.toPosix rounds d.nextFd
          (min (bytes.length - offset) maxBytes) alloc nullTerminate d₂ := by
    have hneg : ¬(offset : ℤ) < 0 := by omega
    refine ⟨_, rfl, ?_⟩
    simp [DirectoryDevice.readOpened, posix, lseek, hend, hneg, raw,
      DirectoryDevice.toU64_ofNat hlen, hzero, hmax, hsub,
      toOff_of_lt (Nat.lt_of_le_of_lt hoffset hlen)]
  have hfd₂ : d₂.opened d.nextFd = ⟨path, offset, false⟩ := by
    simp [hd₂, moveTo, hfd₁]
  have hnode₂ : d₂.node path = .regular bytes := by
    rw [hd₂]
    exact hnode₁
  have hmemory₂ : d₂.hasMemory = d.hasMemory := by
    rw [hd₂, ← hd₁]
    rfl
  dsimp only
  rw [hread]
  exact readBlock_slice hfd₂ hnode₂ hlen rounds alloc nullTerminate (by rwa [hmemory₂])

/-! ### Sequences of writes -/

lemma contents_of_regular {d : Disk} {path : CString} {bytes : List UInt8}
    (h : d.node path = .regular bytes) : d.contents path = bytes := by
  rw [contents, h]

/-- A sequence of writes writes everything, and leaves the updated contents behind. -/
lemma writeAll_eq {dev : DirectoryDevice} {filePath : CString} (rounds : ℕ)
    {calls : List WriteCall} {d : Disk} (hvalid : ∀ c ∈ calls, c.Valid)
    (h : d.Writable (dev.getDevicePath filePath))
    (hfits : Fits (d.contents (dev.getDevicePath filePath)) calls) :
    ∃ d', writeAll dev rounds filePath calls d =
        (calls.map fun c => ⟨c.buffer.bytes.length, some .ok⟩, d') ∧
      d'.contents (dev.getDevicePath filePath) =
        contentsAfter (d.contents (dev.getDevicePath filePath)) calls ∧
      d'.Writable (dev.getDevicePath filePath) ∧ d'.hasMemory = d.hasMemory := by
  induction calls generalizing d with
  | nil => exact ⟨d, rfl, rfl, h, rfl⟩
  | cons c calls ih =>
    obtain ⟨d₁, hwrite, hnode, hmemory⟩ := writeFile_eq rounds (hvalid c (by simp)) h hfits.1
    have hcontents := contents_of_regular hnode
    obtain ⟨d', hall, hafter, hwritable, hmemory'⟩ := ih (fun x hx => hvalid x (by simp [hx]))
      (Or.inr ⟨_, hnode⟩) (by rw [hcontents]; exact hfits.2)
    refine ⟨d', ?_, ?_, hwritable, hmemory'.trans hmemory⟩
    · rw [writeAll, hwrite]
      dsimp only
      rw [hall]
      rfl
    · rw [hafter, hcontents]
      rfl

lemma update_ne_nil {c : WriteCall} (hc : c.Valid) (old : List UInt8) : c.update old ≠ [] := by
  have hpos := List.length_pos_iff.mpr hc.bytes_ne_nil
  intro h
  have hlen := congrArg List.length h
  unfold WriteCall.update at hlen
  cases hm : c.mode <;> simp only [hm, List.length_append, length_overwrite,
    List.length_nil] at hlen <;> omega

/-- The contents after the last of the calls are not empty, and fit. -/
lemma contentsAfter_fits {calls : List WriteCall} {old : List UInt8} (hne : calls ≠ [])
    (hvalid : ∀ c ∈ calls, c.Valid) (hfits : Fits old calls) :
    contentsAfter old calls ≠ [] ∧ (contentsAfter old calls).length < 2 ^ 63 := by
  induction calls generalizing old with
  | nil => exact absurd rfl hne
  | cons c calls ih =>
    rw [contentsAfter, List.foldl_cons]
    by_cases hcalls : calls = []
    · subst hcalls
      refine ⟨update_ne_nil (hvalid c (by simp)) old, ?_⟩
      have := hfits.1
      show (c.update old).length < 2 ^ 63
      omega
    · exact ih hcalls (fun x hx => hvalid x (by simp [hx])) hfits.2

/-- **File contents.**  On a path that is absent or a regular file, every call of a sequence of
writes succeeds and writes everything.  Afterwards `fileSize` gives the length of the contents
that the reference updates make, and `readFile` any slice of them for which there is memory. -/
theorem writeAll_refines {dev : DirectoryDevice} {filePath : CString} {rounds : ℕ}
    {calls : List WriteCall} {d : Disk} (hne : calls ≠ []) (hvalid : ∀ c ∈ calls, c.Valid)
    (h : d.Writable (dev.getDevicePath filePath))
    (hfits : Fits (d.contents (dev.getDevicePath filePath)) calls) :
    let contents := contentsAfter (d.contents (dev.getDevicePath filePath)) calls
    ∃ d', writeAll dev rounds filePath calls d =
        (calls.map fun c => ⟨c.buffer.bytes.length, some .ok⟩, d') ∧
      dev.fileSize posix.toPosix filePath d' = (⟨contents.length, some .ok⟩, d') ∧
      ∀ rounds offset maxBytes alloc nullTerminate, offset ≤ contents.length →
        (slice contents offset maxBytes ≠ [] → d.hasMemory
          ((slice contents offset maxBytes).length + if nullTerminate then 1 else 0) = true) →
        ∃ store, (dev.readFile posix.toPosix rounds filePath offset maxBytes alloc nullTerminate
            d').1 = ⟨(slice contents offset maxBytes).length, some .ok, store⟩ ∧
          (store = .block
              (DirectoryDevice.terminated nullTerminate (slice contents offset maxBytes)) ∨
            slice contents offset maxBytes = [] ∧ store = .null) := by
  intro contents
  obtain ⟨d', hall, hafter, hwritable, hmemory⟩ := writeAll_eq rounds hvalid h hfits
  obtain ⟨hnil, hlen⟩ := contentsAfter_fits hne hvalid hfits
  have hnode : d'.node (dev.getDevicePath filePath) = .regular contents := by
    rcases hwritable with habsent | ⟨bytes, hregular⟩
    · -- a file that something has been written to is there
      rw [Disk.contents, habsent] at hafter
      exact absurd hafter.symm hnil
    · rw [hregular, ← contents_of_regular hregular, hafter]
  refine ⟨d', hall, ?_, ?_⟩
  · have hstat : posix.stat (dev.getDevicePath filePath) d' = .ok (.regular contents.length) := by
      show stat _ d' = _
      simp only [stat, hnode]
    rw [DirectoryDevice.fileSize, hstat]
  · intro rounds offset maxBytes alloc nullTerminate hoffset hroom
    exact readFile_slice hnode hnil hlen rounds hoffset alloc nullTerminate (by rwa [hmemory])

/-- A disk without any files. -/
def empty : Disk where
  node _ := .absent .enoent
  opened _ := ⟨[], 0, false⟩
  nextFd := 3
  dirEnd _ := .error .einval
  hasMemory _ := true

/-- A new file is written from the offset 2 on, appended to, and read back with its gap. -/
theorem writeAll_refines_gap :
    ∃ d', writeAll (.new []) 0 [slash, 97] [⟨.segment, 2, .client 1 [5, 6]⟩,
        ⟨.append, 0, .client 1 [7]⟩] empty = ([⟨2, some .ok⟩, ⟨1, some .ok⟩], d') ∧
      ((DirectoryDevice.new []).readFile posix.toPosix 0 [slash, 97] 1 3 none true d').1 =
        ⟨3, some .ok, .block [0, 5, 6, 0]⟩ := by
  obtain ⟨d', hall, -, hread⟩ := @writeAll_refines (.new []) [slash, 97] 0
    [⟨.segment, 2, .client 1 [5, 6]⟩, ⟨.append, 0, .client 1 [7]⟩] empty (by decide)
    (by
      intro c hc
      simp only [List.mem_cons, List.not_mem_nil, or_false] at hc
      rcases hc with rfl | rfl <;> exact ⟨by decide, by decide⟩)
    (Or.inl rfl) ⟨by decide, by decide, trivial⟩
  obtain ⟨store, hr, hstore⟩ := hread 0 1 3 none true (by decide) fun _ => rfl
  rcases hstore with rfl | ⟨hnil, -⟩
  · exact ⟨d', hall, hr⟩
  · exact absurd hnil (by decide)

end Disk

end LaminaFS
