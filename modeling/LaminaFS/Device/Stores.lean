/-
# What `writeFile` stores

Where the bytes of one call go, in the POSIX branch for a segment under all outcomes of the calls,
and in both branches for all modes when the calls succeed.  The POSIX branch compares the result of
`lseek` with a cast of the offset, which gives -1 for the greatest offset.  The branches
differ in what they make of an absent file and of an offset in a mode without one, and the Win32
branch cuts the count to 32 bits and takes a position with the low word `0xFFFFFFFF` for a failed
seek.
-/
import LaminaFS.Device.Delivery

namespace LaminaFS

open Overwrite

namespace SoleFile

/-! ### One store -/

section Put

variable {E : Type} {errors : OwnErrors E} {f : SoleFile E} {c : FileBytes}

/-- The contents after `chunk` has been stored at `pos`. -/
def stored (old : List UInt8) (pos : ℕ) (chunk : List UInt8) : List UInt8 :=
  if chunk = [] then old else patch 0 old pos chunk

/-- Storing fails when the file would get too large. -/
lemma put_eq_none_iff {pos : ℕ} {chunk : List UInt8} (hpos : pos < 2 ^ 63) :
    c.put pos chunk = none ↔ 2 ^ 63 ≤ pos + chunk.length := by
  rw [FileBytes.put]
  split_ifs with hnil hfits
  · refine iff_of_false nofun ?_
    rw [hnil, List.length_nil]
    omega
  · exact iff_of_false nofun (by omega)
  · exact iff_of_true rfl (by omega)

lemma bytes_of_put {pos : ℕ} {chunk : List UInt8} {c' : FileBytes}
    (h : c.put pos chunk = some c') : c'.bytes = stored c.bytes pos chunk := by
  rw [FileBytes.put] at h
  rw [stored]
  split_ifs at h ⊢ with hnil hfits
  · cases h
    rfl
  · cases h
    rfl

lemma getElem?_stored_add {old chunk : List UInt8} {pos i : ℕ} (h : i < chunk.length) :
    (stored old pos chunk)[pos + i]? = chunk[i]? := by
  rw [stored, if_neg (List.ne_nil_of_length_pos (Nat.zero_lt_of_lt h))]
  exact getElem?_patch_add h

lemma getElem?_stored_of_not {old chunk : List UInt8} {pos i : ℕ} (h : i < old.length)
    (hout : i < pos ∨ pos + chunk.length ≤ i) : (stored old pos chunk)[i]? = old[i]? := by
  rw [stored]
  split_ifs with hnil
  · rfl
  · exact getElem?_patch_of_not h hout

/-- What a write that is not refused leads to. -/
def storeOutcome (c : FileBytes) (place : ℕ) (chunk : List UInt8) : WriteResult × FileBytes :=
  match c.put place chunk with
  | none => (⟨0, some .genericError⟩, c)
  | some c' => (⟨chunk.length, some .ok⟩, c')

lemma storeOutcome_of_lt {place : ℕ} {chunk : List UInt8} (hplace : place < 2 ^ 63)
    (h : place + chunk.length < 2 ^ 63) :
    (storeOutcome c place chunk).1 = ⟨chunk.length, some .ok⟩ ∧
      (storeOutcome c place chunk).2.bytes = stored c.bytes place chunk := by
  rw [storeOutcome]
  cases hput : c.put place chunk with
  | none =>
    rw [put_eq_none_iff hplace] at hput
    omega
  | some c' => exact ⟨rfl, bytes_of_put hput⟩

lemma storeOutcome_of_le {place : ℕ} {chunk : List UInt8} (hplace : place < 2 ^ 63)
    (h : 2 ^ 63 ≤ place + chunk.length) :
    storeOutcome c place chunk = (⟨0, some .genericError⟩, c) := by
  rw [storeOutcome, (put_eq_none_iff hplace).mpr h]

end Put

/-! ### The POSIX branch -/

section Posix

variable {f : SoleFile Failure} {c : FileBytes} {rounds offset : ℕ} {path : CString}

/-- The result of `writeFile` after `write`. -/
def written (r : Except Failure ℕ × SoleFile Failure) : WriteResult × SoleFile Failure :=
  match r with
  | (.error e, f) => (⟨0, some (convertError e.val)⟩, f.note .closed)
  | (.ok n, f) => (⟨n, some .ok⟩, f.note .closed)

lemma written_put_error {e : Failure} (bytes : List UInt8) (h : f.faults.transferError = some e) :
    written (f.put posixErrors bytes) = (⟨0, some (convertError e.val)⟩, f.note .closed) := by
  rw [put, h]
  rfl

lemma written_put (hc : f.contents = some c) (bytes : List UInt8)
    (h : f.faults.transferError = none) :
    (written (f.put posixErrors bytes)).1 =
        (storeOutcome c (if f.append then c.bytes.length else f.pos)
          (bytes.take (f.faults.limit bytes.length))).1 ∧
      (written (f.put posixErrors bytes)).2.contents =
        some (storeOutcome c (if f.append then c.bytes.length else f.pos)
          (bytes.take (f.faults.limit bytes.length))).2 := by
  have hbytes := bytes_of_contents hc
  rw [put, h, hc, hbytes, storeOutcome]
  dsimp only [Option.getD_some]
  cases c.put (if f.append then c.bytes.length else f.pos)
      (bytes.take (f.faults.limit bytes.length)) with
  | none => exact ⟨rfl, hc⟩
  | some c' => exact ⟨rfl, rfl⟩

/-- The seek seems to succeed. -/
lemma writeOpened_of_sought {g : SoleFile Failure} {sought : Except Errno ℕ}
    (b : Buffer) (hseek : (posix path).lseek 3 (toOff offset) .seekSet f = (sought, g))
    (hraw : raw sought = toOff offset) (h : g.faults.transferInterrupts ≤ rounds) :
    DirectoryDevice.writeOpened (posix path) rounds 3 offset (some b) b.bytes.length f =
      written (g.writeSettled.put posixErrors b.bytes) := by
  rw [DirectoryDevice.writeOpened, hseek]
  dsimp only [Option.elim]
  rw [if_pos hraw, List.take_length, retry_posixWrite b.bytes h]
  cases g.writeSettled.put posixErrors b.bytes with
  | mk r w =>
    cases r with
    | error e => rfl
    | ok n => rfl

lemma writeOpened_of_not_sought {g : SoleFile Failure} {e : Errno} (b : Buffer)
    (hseek : (posix path).lseek 3 (toOff offset) .seekSet f = (.error e, g))
    (hraw : toOff offset ≠ -1) :
    DirectoryDevice.writeOpened (posix path) rounds 3 offset (some b) b.bytes.length f =
      (⟨0, some (convertError e)⟩, g.note .closed) := by
  rw [DirectoryDevice.writeOpened, hseek]
  dsimp only
  rw [if_neg fun h => hraw h.symm]
  rfl

/-- The contents that opening for writing leaves. -/
def startContents (contents : Option FileBytes) (mode : WriteMode) : FileBytes :=
  match mode with
  | .truncate => .empty
  | _ => contents.getD .empty

/-- `writeFile` up to the seek. -/
lemma writeFile_posix (dev : DirectoryDevice) (filePath : CString) (contents : Option FileBytes)
    {faults : Faults Failure} (b : Buffer) (mode : WriteMode)
    (hinterrupts : faults.openInterrupts ≤ rounds) (hopen : faults.openError = none) :
    dev.writeFile (posix (dev.getDevicePath filePath)) rounds filePath offset (some b)
        b.bytes.length mode (closed contents faults) =
      DirectoryDevice.writeOpened (posix (dev.getDevicePath filePath)) rounds 3 offset (some b)
        b.bytes.length ((closed contents faults).openSettled.opened (startContents contents mode)
          (decide (mode = .append))) := by
  have hfaults : (closed contents faults).openSettled.faults.openError = none := hopen
  have hcontents : (closed contents faults).openSettled.contents = contents := rfl
  rw [DirectoryDevice.writeFile, DirectoryDevice.openFile,
    retry_posixOpen (f := closed contents faults) _ _ hinterrupts, openAs, hfaults, hcontents]
  cases contents with
  | none => cases mode <;> rfl
  | some c => cases mode <;> rfl

/-- A seek that succeeds moves to the offset. -/
lemma lseek_set (hoffset : offset < 2 ^ 63) (hseek : f.faults.seekError = none) :
    (posix path).lseek 3 (toOff offset) .seekSet f = (.ok offset, { f with pos := offset }) := by
  show (errno (f.seek posixErrors _).1, (f.seek posixErrors _).2) = _
  rw [Disk.toOff_of_lt hoffset, seek, if_neg (by omega), hseek, Int.toNat_natCast]
  rfl

/-- A seek that fails leaves the position as it is. -/
lemma lseek_failed (h : toOff offset < 0 ∨ f.faults.seekError ≠ none) :
    ∃ e, (posix path).lseek 3 (toOff offset) .seekSet f = (.error e, f) := by
  show ∃ e, (errno (f.seek posixErrors _).1, (f.seek posixErrors _).2) = _
  rw [seek]
  by_cases hneg : toOff offset < 0
  · rw [if_pos hneg]
    exact ⟨_, rfl⟩
  · rw [if_neg hneg]
    cases hseek : f.faults.seekError with
    | none => exact absurd hseek (h.resolve_left hneg)
    | some e => exact ⟨_, rfl⟩

/-- Only the greatest offset is cast to -1. -/
lemma toOff_eq_neg_one_iff (hoffset : offset < 2 ^ 64) :
    toOff offset = -1 ↔ offset = 2 ^ 64 - 1 := by
  rw [toOff, Nat.mod_eq_of_lt hoffset]
  split_ifs
  · exact iff_of_false id (by omega)
  · constructor <;> intro h <;> omega

end Posix

/-! ### Segments -/

section Segment

variable {rounds offset : ℕ}

/-- What a write of the segment `b` at `offset` has to keep to: what is reported is at its place and
nothing else has changed, and without a seek there is an error and nothing has changed. -/
structure SegmentKept (faults : Faults Failure) (old b : List UInt8) (offset : ℕ)
    (r : WriteResult × SoleFile Failure) : Prop where
  placed : r.1.error = some .ok → ∀ i < r.1.bytes,
    ∃ x, b[i]? = some x ∧ r.2.bytes[offset + i]? = some x
  kept : r.1.error = some .ok → ∀ i < old.length, i < offset ∨ offset + r.1.bytes ≤ i →
    r.2.bytes[i]? = old[i]?
  unseekable : toOff offset < 0 ∨ faults.seekError ≠ none →
    r.1.error ≠ some .ok ∧ r.2.bytes = old

/-- An error that leaves the contents as they are. -/
lemma segmentKept_of_error {faults : Faults Failure} {old b : List UInt8} {e : ErrorCode}
    {r : WriteResult × SoleFile Failure} (he : e ≠ .ok) (herror : r.1.error = some e)
    (h : r.2.bytes = old) : SegmentKept faults old b offset r := by
  have hne : r.1.error ≠ some .ok := by
    rw [herror]
    exact fun h => he (Option.some.inj h)
  exact ⟨fun h => absurd h hne, fun h => absurd h hne, fun _ => ⟨hne, h⟩⟩

/-- A write at the offset. -/
lemma segmentKept_of_written {f : SoleFile Failure} {c : FileBytes} (hc : f.contents = some c)
    (happend : f.append = false) (hpos : f.pos = offset) (hoffset : offset < 2 ^ 63)
    {faults : Faults Failure} (hseek : ¬(toOff offset < 0 ∨ faults.seekError ≠ none))
    (b : List UInt8) : SegmentKept faults c.bytes b offset (written (f.put posixErrors b)) := by
  cases htransfer : f.faults.transferError with
  | some e =>
    rw [written_put_error b htransfer]
    exact segmentKept_of_error (convertError_ne_ok e.val) rfl (bytes_of_contents hc)
  | none =>
  obtain ⟨hresult, hcontents⟩ := written_put hc b htransfer
  rw [happend, if_neg Bool.false_ne_true, hpos] at hresult hcontents
  generalize hchunk : b.take (f.faults.limit b.length) = chunk at hresult hcontents
  by_cases hlt : offset + chunk.length < 2 ^ 63
  · obtain ⟨hok, hstored⟩ := storeOutcome_of_lt (c := c) hoffset hlt
    have hbytes := bytes_of_contents hcontents
    rw [hstored] at hbytes
    rw [hok] at hresult
    refine ⟨fun _ i hi => ?_, fun _ i hi hout => ?_, fun h => absurd h hseek⟩
    · replace hi : i < chunk.length := by rwa [hresult] at hi
      refine ⟨chunk[i], ?_, ?_⟩
      · have hlimit : i < f.faults.limit b.length := by
          rw [← hchunk, List.length_take] at hi
          omega
        rw [← List.getElem?_eq_getElem hi, ← hchunk, List.getElem?_take_of_lt hlimit]
      · rw [hbytes, getElem?_stored_add hi, List.getElem?_eq_getElem hi]
    · rw [hresult] at hout
      rw [hbytes, getElem?_stored_of_not hi hout]
  · rw [storeOutcome_of_le hoffset (by omega)] at hresult hcontents
    exact segmentKept_of_error (e := .genericError) (by decide) (by rw [hresult])
      (bytes_of_contents hcontents)

/-- A write at the start after a seek that has failed is right only when it fails itself. -/
lemma segmentKept_at_start {f : SoleFile Failure} {c : FileBytes} (hc : f.contents = some c)
    (happend : f.append = false) (hpos : f.pos = 0) {faults : Faults Failure}
    (hfail : toOff offset < 0 ∨ faults.seekError ≠ none) (b : List UInt8) :
    SegmentKept faults c.bytes b offset (written (f.put posixErrors b)) ↔
      f.faults.transferError ≠ none ∨ 2 ^ 63 ≤ (b.take (f.faults.limit b.length)).length := by
  cases htransfer : f.faults.transferError with
  | some e =>
    rw [written_put_error b htransfer]
    exact iff_of_true (segmentKept_of_error (convertError_ne_ok e.val) rfl (bytes_of_contents hc))
      (Or.inl (Option.some_ne_none e))
  | none =>
  obtain ⟨hresult, hcontents⟩ := written_put hc b htransfer
  rw [happend, if_neg Bool.false_ne_true, hpos] at hresult hcontents
  generalize b.take (f.faults.limit b.length) = chunk at hresult hcontents ⊢
  by_cases hlt : chunk.length < 2 ^ 63
  · -- `LFS_OK` is reported although there was no seek
    refine iff_of_false (fun h => (h.unseekable hfail).1 ?_) (by simpa using hlt)
    rw [hresult, (storeOutcome_of_lt (by decide) (by omega)).1]
  · rw [storeOutcome_of_le (by decide) (by omega)] at hresult hcontents
    exact iff_of_true (segmentKept_of_error (e := .genericError) (by decide) (by rw [hresult])
      (bytes_of_contents hcontents)) (Or.inr (Nat.le_of_not_lt hlt))

/-- **Segments.**  A write of a segment keeps to its place, whatever the calls do, unless the
greatest offset lets the seek that fails pass for one that has succeeded, and the bytes are then
written at the start of the file. -/
theorem writeFile_segmentKept_iff (dev : DirectoryDevice) (filePath : CString)
    (contents : Option FileBytes) {faults : Faults Failure} (hoffset : offset < 2 ^ 64)
    (b : Buffer) (hopen : faults.openInterrupts ≤ rounds)
    (htransfer : faults.transferInterrupts ≤ rounds) :
    SegmentKept faults (contents.elim [] FileBytes.bytes) b.bytes offset
        (dev.writeFile (posix (dev.getDevicePath filePath)) rounds filePath offset (some b)
          b.bytes.length .segment (closed contents faults)) ↔
      offset ≠ 2 ^ 64 - 1 ∨ faults.openError ≠ none ∨ faults.transferError ≠ none ∨
        2 ^ 63 ≤ (b.bytes.take (faults.limit b.bytes.length)).length := by
  cases herror : faults.openError with
  | some e =>
    have hresult : dev.writeFile (posix (dev.getDevicePath filePath)) rounds filePath offset
        (some b) b.bytes.length .segment (closed contents faults) =
          (⟨0, some (convertError e.val)⟩, (closed contents faults).openSettled) := by
      have hfaults : (closed contents faults).openSettled.faults.openError = some e := herror
      rw [DirectoryDevice.writeFile, DirectoryDevice.openFile,
        retry_posixOpen (f := closed contents faults) _ _ hopen, openAs, hfaults]
      rfl
    rw [hresult]
    exact iff_of_true (segmentKept_of_error (convertError_ne_ok e.val) rfl rfl)
      (Or.inr (Or.inl (Option.some_ne_none e)))
  | none =>
  rw [writeFile_posix dev filePath contents b .segment hopen herror]
  generalize hf : (closed contents faults).openSettled.opened (startContents contents .segment)
    (decide (WriteMode.segment = .append)) = f
  obtain ⟨c, hc, hbytes⟩ : ∃ c, f.contents = some c ∧
      contents.elim [] FileBytes.bytes = c.bytes := by
    rw [← hf]
    refine ⟨_, rfl, ?_⟩
    cases contents <;> rfl
  obtain ⟨hpos, happend, hseekError, hinterrupts, htransferError, hlimit⟩ :
      f.pos = 0 ∧ f.append = false ∧ f.faults.seekError = faults.seekError ∧
        f.faults.transferInterrupts = faults.transferInterrupts ∧
        f.faults.transferError = faults.transferError ∧ f.faults.limit = faults.limit := by
    rw [← hf]
    exact ⟨rfl, rfl, rfl, rfl, rfl, rfl⟩
  rw [hbytes]
  -- the position is the offset after a seek that succeeds, and 0 after one that fails
  by_cases hfail : toOff offset < 0 ∨ faults.seekError ≠ none
  · obtain ⟨e, hseek⟩ := @lseek_failed f offset (dev.getDevicePath filePath) (by rwa [hseekError])
    by_cases hmax : offset = 2 ^ 64 - 1
    · have hraw : raw (.error e) = toOff offset := ((toOff_eq_neg_one_iff hoffset).mpr hmax).symm
      rw [writeOpened_of_sought b hseek hraw (by rwa [hinterrupts]), ← htransferError, ← hlimit]
      have hstart := segmentKept_at_start (f := f.writeSettled) hc happend hpos hfail b.bytes
      refine hstart.trans ⟨fun h => Or.inr (Or.inr h), ?_⟩
      rintro (h | h | h)
      · exact absurd hmax h
      · exact absurd rfl h
      · exact h
    · -- the failure is noticed
      rw [writeOpened_of_not_sought b hseek fun h => hmax ((toOff_eq_neg_one_iff hoffset).mp h)]
      exact iff_of_true (segmentKept_of_error (convertError_ne_ok e) rfl (bytes_of_contents hc))
        (Or.inl hmax)
  · have hlt : offset < 2 ^ 63 := by
      by_contra hge
      exact hfail (Or.inl (toOff_neg (Nat.le_of_not_lt hge) hoffset))
    have hnone : f.faults.seekError = none := by
      rw [hseekError]
      exact not_not.mp (not_or.mp hfail).2
    have hseek : (posix (dev.getDevicePath filePath)).lseek 3 (toOff offset) .seekSet _ = _ :=
      lseek_set hlt hnone
    rw [writeOpened_of_sought b hseek (Disk.toOff_of_lt hlt).symm (by rwa [hinterrupts])]
    refine iff_of_true ?_ (Or.inl (by omega))
    exact segmentKept_of_written (f := writeSettled { f with pos := offset }) hc happend rfl hlt
      hfail b.bytes

/-- One byte in the middle of a file. -/
theorem writeFile_segmentKept_middle :
    SegmentKept {} [1, 2, 3] [9] 1
      ((DirectoryDevice.new []).writeFile (posix [slash, 97]) 0 [slash, 97] 1 (some (.client 1 [9]))
        1 .segment (closed (some ⟨[1, 2, 3], by decide⟩) {})) :=
  (@writeFile_segmentKept_iff 0 1 (.new []) [slash, 97] (some ⟨[1, 2, 3], by decide⟩) {} (by decide)
    (.client 1 [9]) le_rfl le_rfl).mpr (Or.inl (by decide))

/-- A write at the greatest offset goes to the start of the file. -/
theorem writeFile_not_segmentKept_greatest :
    ¬SegmentKept {} [1, 2, 3] [9] (2 ^ 64 - 1)
      ((DirectoryDevice.new []).writeFile (posix [slash, 97]) 0 [slash, 97] (2 ^ 64 - 1)
        (some (.client 1 [9])) 1 .segment (closed (some ⟨[1, 2, 3], by decide⟩) {})) :=
  fun h => (h.unseekable (Or.inl (by decide))).1 (by decide)

end Segment

/-! ### Both branches -/

section Branches

variable {offset : ℕ}

/-- The place at which the POSIX branch writes. -/
def placePosix (contents : Option FileBytes) (mode : WriteMode) (offset : ℕ) : ℕ :=
  match mode with
  | .append => (startContents contents mode).bytes.length
  | _ => offset

lemma writeFile_posix_outcome (dev : DirectoryDevice) (rounds : ℕ) (filePath : CString)
    (contents : Option FileBytes) (hoffset : offset < 2 ^ 63) (b : Buffer) (mode : WriteMode) :
    (dev.writeFile (posix (dev.getDevicePath filePath)) rounds filePath offset (some b)
        b.bytes.length mode (closed contents {})).1 =
          (storeOutcome (startContents contents mode) (placePosix contents mode offset) b.bytes).1 ∧
      (dev.writeFile (posix (dev.getDevicePath filePath)) rounds filePath offset (some b)
        b.bytes.length mode (closed contents {})).2.contents =
          some (storeOutcome (startContents contents mode) (placePosix contents mode offset)
            b.bytes).2 := by
  have hseek := @lseek_set ((closed contents {}).openSettled.opened
    (startContents contents mode) (decide (mode = .append))) offset (dev.getDevicePath filePath)
    hoffset rfl
  rw [writeFile_posix dev filePath contents b mode (Nat.zero_le _) rfl,
    writeOpened_of_sought b hseek (Disk.toOff_of_lt hoffset).symm (Nat.zero_le _)]
  obtain ⟨hresult, hcontents⟩ := written_put (f := writeSettled { (closed contents
    {}).openSettled.opened (startContents contents mode) (decide (mode = .append)) with
      pos := offset }) (c := startContents contents mode) rfl b.bytes rfl
  have hsame : storeOutcome (startContents contents mode)
      (if decide (mode = .append) then (startContents contents mode).bytes.length else offset)
      (b.bytes.take b.bytes.length) =
        storeOutcome (startContents contents mode) (placePosix contents mode offset) b.bytes := by
    rw [List.take_length]
    cases mode <;> rfl
  exact ⟨hresult.trans (congrArg Prod.fst hsame),
    hcontents.trans (congrArg (fun r => some r.2) hsame)⟩

/-- The result of the Win32 branch after `WriteFile`. -/
def writtenWin32 (r : Except WinError ℕ × SoleFile WinError) : WriteResult × SoleFile WinError :=
  match r with
  | (.error _, f) => (⟨0, some .genericError⟩, f.note .closed)
  | (.ok n, f) => (⟨n, some .ok⟩, f.note .closed)

lemma writtenWin32_put {f : SoleFile WinError} {c : FileBytes} (hc : f.contents = some c)
    (happend : f.append = false) (hfaults : f.faults = {}) (bytes : List UInt8) :
    (writtenWin32 (f.put winErrors bytes)).1 = (storeOutcome c f.pos bytes).1 ∧
      (writtenWin32 (f.put winErrors bytes)).2.contents = some (storeOutcome c f.pos bytes).2 := by
  rw [put, hfaults, hc, happend, storeOutcome]
  dsimp only [Option.getD_some]
  rw [show ({} : Faults WinError).limit bytes.length = bytes.length from rfl, List.take_length,
    if_neg Bool.false_ne_true]
  cases c.put f.pos bytes with
  | none => exact ⟨rfl, hc⟩
  | some c' => exact ⟨rfl, rfl⟩

/-- What the Win32 branch makes of a seek to `place` and a write there. -/
def placedWin32 (c : FileBytes) (place : ℕ) (bytes : List UInt8) :
    WriteResult × Option FileBytes :=
  if u32 place = invalidSetFilePointer then (⟨0, some .genericError⟩, some c)
  else
    ((storeOutcome c place (bytes.take (u32 bytes.length))).1,
      some (storeOutcome c place (bytes.take (u32 bytes.length))).2)

/-- What the Win32 branch leads to. -/
def outcomeWin32 (contents : Option FileBytes) (mode : WriteMode) (offset : ℕ)
    (bytes : List UInt8) : WriteResult × Option FileBytes :=
  match mode, contents with
  | .truncate, _ =>
    ((storeOutcome .empty 0 (bytes.take (u32 bytes.length))).1,
      some (storeOutcome .empty 0 (bytes.take (u32 bytes.length))).2)
  | .append, contents =>
    placedWin32 (contents.getD .empty) (contents.getD .empty).bytes.length bytes
  | .segment, none => (⟨0, some .notFound⟩, none)
  | .segment, some c => placedWin32 c offset bytes

/-- `writeFile` after the open and the seek. -/
lemma writeFileWin32_of_seek {dev : DirectoryDevice} {filePath : CString} {b : Buffer}
    {mode : WriteMode} {f g g' : SoleFile WinError} {sought : Bool}
    (hopen : dev.openFileWin32 (win32 (dev.getDevicePathWin32 filePath)) filePath .genericWrite
      mode.createFlags f = (.ok 3, g))
    (hseek : DirectoryDevice.seekWin32 (win32 (dev.getDevicePathWin32 filePath)) 3 offset
      mode g = (sought, g')) :
    dev.writeFileWin32 (win32 (dev.getDevicePathWin32 filePath)) filePath offset (some b)
        b.bytes.length mode f =
      if sought then writtenWin32 (g'.put winErrors (b.bytes.take (u32 b.bytes.length)))
      else (⟨0, some .genericError⟩, g'.note .closed) := by
  rw [DirectoryDevice.writeFileWin32, hopen]
  dsimp only
  rw [hseek]
  cases sought with
  | false => rfl
  | true =>
    dsimp only [Option.elim, if_true]
    have hwrite : (win32 (dev.getDevicePathWin32 filePath)).writeFile 3
      (b.bytes.take (u32 b.bytes.length)) g' =
      g'.put winErrors (b.bytes.take (u32 b.bytes.length)) := rfl
    rw [hwrite, if_pos rfl]
    cases g'.put winErrors (b.bytes.take (u32 b.bytes.length)) with
    | mk r w =>
      cases r with
      | error e => rfl
      | ok n => rfl

lemma seek_natCast {f : SoleFile WinError} (hfaults : f.faults = {}) (place : ℕ) :
    f.seek winErrors place = (.ok place, { f with pos := place }) := by
  rw [seek, if_neg (by omega), hfaults, Int.toNat_natCast]

lemma seekWin32_append {f : SoleFile WinError} (path : CString) (hfaults : f.faults = {}) :
    DirectoryDevice.seekWin32 (win32 path) 3 offset .append f =
      (lowPart (.ok f.bytes.length) != invalidSetFilePointer,
        { f with pos := f.bytes.length }) := by
  have hseek : (win32 path).setFilePointer 3 0 .fileEnd f =
      (.ok f.bytes.length, { f with pos := f.bytes.length }) := by
    show f.seek winErrors (0 + (f.bytes.length : ℤ)) = _
    rw [zero_add, seek_natCast hfaults]
  rw [DirectoryDevice.seekWin32, hseek]

lemma seekWin32_segment {f : SoleFile WinError} (path : CString) (hfaults : f.faults = {})
    (hoffset : offset < 2 ^ 63) :
    DirectoryDevice.seekWin32 (win32 path) 3 offset .segment f =
      (lowPart (.ok offset) != invalidSetFilePointer, { f with pos := offset }) := by
  rw [DirectoryDevice.seekWin32, setFilePointer_begin, Disk.toOff_of_lt hoffset]
  dsimp only
  rw [seek_natCast hfaults]

/-- A write at a place that `SetFilePointer` has been asked for. -/
lemma placedWin32_eq {f : SoleFile WinError} {c : FileBytes} (hc : f.contents = some c)
    (happend : f.append = false) (hfaults : f.faults = {}) (place : ℕ) (bytes : List UInt8)
    {r : WriteResult × SoleFile WinError}
    (hr : r = if lowPart (.ok place) != invalidSetFilePointer then
        writtenWin32 (({ f with pos := place } : SoleFile WinError).put winErrors
          (bytes.take (u32 bytes.length)))
      else (⟨0, some .genericError⟩, ({ f with pos := place } : SoleFile WinError).note .closed)) :
    r.1 = (placedWin32 c place bytes).1 ∧ r.2.contents = (placedWin32 c place bytes).2 := by
  rw [hr, lowPart, placedWin32]
  by_cases hlow : u32 place = invalidSetFilePointer
  · rw [if_neg (by simp [hlow]), if_pos hlow]
    exact ⟨rfl, hc⟩
  · rw [if_pos (by simp [hlow]), if_neg hlow]
    exact writtenWin32_put (f := { f with pos := place }) hc happend hfaults _

lemma writeFile_win32_outcome (dev : DirectoryDevice) (filePath : CString)
    (contents : Option FileBytes) (hoffset : offset < 2 ^ 63) (b : Buffer) (mode : WriteMode) :
    (dev.writeFileWin32 (win32 (dev.getDevicePathWin32 filePath)) filePath offset (some b)
        b.bytes.length mode (closed contents {})).1 =
          (outcomeWin32 contents mode offset b.bytes).1 ∧
      (dev.writeFileWin32 (win32 (dev.getDevicePathWin32 filePath)) filePath offset (some b)
        b.bytes.length mode (closed contents {})).2.contents =
          (outcomeWin32 contents mode offset b.bytes).2 := by
  cases mode with
  | truncate =>
    have hopen : dev.openFileWin32 (win32 (dev.getDevicePathWin32 filePath)) filePath
        .genericWrite WriteMode.truncate.createFlags (closed contents {}) =
          (.ok 3, (closed contents {}).opened .empty false) := by
      rw [openFileWin32_eq]
      cases contents <;> rfl
    rw [writeFileWin32_of_seek hopen rfl, if_pos rfl]
    exact writtenWin32_put rfl rfl rfl _
  | append =>
    have hopen : dev.openFileWin32 (win32 (dev.getDevicePathWin32 filePath)) filePath
        .genericWrite WriteMode.append.createFlags (closed contents {}) =
          (.ok 3, (closed contents {}).opened (contents.getD .empty) false) := by
      rw [openFileWin32_eq]
      cases contents <;> rfl
    exact placedWin32_eq (f := (closed contents {}).opened _ false) rfl rfl rfl _ _
      (writeFileWin32_of_seek hopen (seekWin32_append _ rfl))
  | segment =>
    cases contents with
    | none =>
      rw [DirectoryDevice.writeFileWin32, openFileWin32_eq]
      exact ⟨rfl, rfl⟩
    | some c =>
      have hopen : dev.openFileWin32 (win32 (dev.getDevicePathWin32 filePath)) filePath
          .genericWrite WriteMode.segment.createFlags (closed (some c) {}) =
            (.ok 3, (closed (some c) {}).opened c false) := openFileWin32_eq _ _ _ _ _
      exact placedWin32_eq (f := (closed (some c) {}).opened c false) rfl rfl rfl _ _
        (writeFileWin32_of_seek hopen (seekWin32_segment _ rfl hoffset))

/-! ### Where they agree -/

lemma length_stored (old chunk : List UInt8) (pos : ℕ) :
    (stored old pos chunk).length =
      if chunk = [] then old.length else max old.length (pos + chunk.length) := by
  rw [stored]
  split_ifs with hnil
  · rfl
  · exact length_patch

lemma failed_ne_ok (m n : ℕ) :
    (⟨m, some .genericError⟩ : WriteResult) ≠ ⟨n, some .ok⟩ := by
  simp

/-- A write at `place` and one cut to 32 bits are the same. -/
lemma storeOutcome_take_iff {c : FileBytes} {place : ℕ} (hplace : place < 2 ^ 63)
    (bytes : List UInt8) :
    storeOutcome c place bytes = storeOutcome c place (bytes.take (u32 bytes.length)) ↔
      bytes.length < 2 ^ 32 ∨ 2 ^ 63 ≤ place + bytes.length % 2 ^ 32 := by
  have hmod : bytes.length % 2 ^ 32 ≤ bytes.length := Nat.mod_le _ _
  have hlength : (bytes.take (u32 bytes.length)).length = bytes.length % 2 ^ 32 := by
    rw [List.length_take, u32]
    omega
  by_cases hlt : bytes.length < 2 ^ 32
  · rw [u32_of_lt hlt, List.take_length]
    exact iff_of_true rfl (Or.inl hlt)
  by_cases hle : 2 ^ 63 ≤ place + bytes.length % 2 ^ 32
  · rw [storeOutcome_of_le hplace (by omega), storeOutcome_of_le hplace (by omega)]
    exact iff_of_true rfl (Or.inr hle)
  · -- the cut write succeeds, with a smaller count
    refine iff_of_false (fun h => ?_) (by omega)
    have hcut := (@storeOutcome_of_lt c place (bytes.take (u32 bytes.length)) hplace
      (by omega)).1
    rw [← h, hlength] at hcut
    by_cases hfits : place + bytes.length < 2 ^ 63
    · rw [(storeOutcome_of_lt hplace hfits).1] at hcut
      have := congrArg WriteResult.bytes hcut
      dsimp only at this
      omega
    · rw [storeOutcome_of_le hplace (by omega)] at hcut
      exact failed_ne_ok _ _ hcut

/-- A write at `place` fails, too. -/
lemma storeOutcome_failed_iff {c : FileBytes} {place : ℕ} (hplace : place < 2 ^ 63)
    (bytes : List UInt8) :
    storeOutcome c place bytes = (⟨0, some .genericError⟩, c) ↔
      2 ^ 63 ≤ place + bytes.length := by
  by_cases hle : 2 ^ 63 ≤ place + bytes.length
  · exact iff_of_true (storeOutcome_of_le hplace hle) hle
  · refine iff_of_false (fun h => ?_) hle
    have hok := (storeOutcome_of_lt (c := c) hplace (Nat.lt_of_not_le hle)).1
    rw [h] at hok
    exact failed_ne_ok _ _ hok

/-- The branches do the same at `place` with so many bytes. -/
def SameAt (place len : ℕ) : Prop :=
  if place % 2 ^ 32 = 2 ^ 32 - 1 then 2 ^ 63 ≤ place + len
  else len < 2 ^ 32 ∨ 2 ^ 63 ≤ place + len % 2 ^ 32

lemma placed_iff {c : FileBytes} {place : ℕ} (hplace : place < 2 ^ 63) (bytes : List UInt8) :
    (storeOutcome c place bytes).1 = (placedWin32 c place bytes).1 ∧
        some (storeOutcome c place bytes).2 = (placedWin32 c place bytes).2 ↔
      SameAt place bytes.length := by
  have hinvalid : u32 place = invalidSetFilePointer ↔ place % 2 ^ 32 = 2 ^ 32 - 1 := Iff.rfl
  rw [placedWin32, SameAt]
  by_cases hlow : place % 2 ^ 32 = 2 ^ 32 - 1
  · rw [if_pos (hinvalid.mpr hlow), if_pos hlow, ← storeOutcome_failed_iff (c := c) hplace,
      Prod.ext_iff]
    exact and_congr_right fun _ => Option.some_inj
  · rw [if_neg (hlow ∘ hinvalid.mp), if_neg hlow, ← storeOutcome_take_iff (c := c) hplace,
      Prod.ext_iff]
    exact and_congr_right fun _ => Option.some_inj

/-- Truncating, the POSIX branch writes at the offset and the Win32 branch at the start. -/
lemma truncate_iff (hoffset : offset < 2 ^ 63) (bytes : List UInt8) :
    storeOutcome .empty offset bytes =
        storeOutcome .empty 0 (bytes.take (u32 bytes.length)) ↔
      bytes.length = 0 ∨ offset = 0 ∧ bytes.length < 2 ^ 32 := by
  by_cases hnil : bytes = []
  · subst hnil
    exact iff_of_true rfl (Or.inl rfl)
  have hne : bytes.length ≠ 0 := fun h => hnil (List.length_eq_zero_iff.mp h)
  by_cases hzero : offset = 0
  · subst hzero
    rw [storeOutcome_take_iff (by decide)]
    omega
  refine iff_of_false (fun h => ?_) (by omega)
  have hlength : (bytes.take (u32 bytes.length)).length < 2 ^ 32 := by
    have hmod : u32 bytes.length < 2 ^ 32 := Nat.mod_lt _ (by decide)
    rw [List.length_take]
    omega
  obtain ⟨hok, hstored⟩ := @storeOutcome_of_lt .empty 0 (bytes.take (u32 bytes.length))
    (by decide) (by omega)
  rw [← h] at hok hstored
  by_cases hfits : offset + bytes.length < 2 ^ 63
  · -- the same count makes a longer file behind a gap
    obtain ⟨hok', hstored'⟩ := storeOutcome_of_lt (c := .empty) hoffset hfits
    rw [hok'] at hok
    rw [hstored'] at hstored
    have hcount := congrArg WriteResult.bytes hok
    have hlen := congrArg List.length hstored
    rw [length_stored, length_stored, if_neg hnil] at hlen
    dsimp only at hcount
    have hempty : FileBytes.empty.bytes.length = 0 := rfl
    rw [hempty] at hlen
    split_ifs at hlen <;> omega
  · rw [storeOutcome_of_le hoffset (by omega)] at hok
    exact failed_ne_ok _ _ hok

/-- The branches do the same: there is nothing to write or a short buffer for the start of a
truncated file; or the place of the write is the same, and found, and the buffer is short. -/
def SameWrite (contents : Option FileBytes) (offset len : ℕ) (mode : WriteMode) : Prop :=
  match mode with
  | .truncate => len = 0 ∨ offset = 0 ∧ len < 2 ^ 32
  | .append => SameAt (contents.elim 0 fun c => c.bytes.length) len
  | .segment => contents ≠ none ∧ SameAt offset len

/-- **Both branches.**  When the calls succeed, the branches give the same result and the same
contents exactly under `SameWrite`. -/
theorem writeFile_branches_iff (dev : DirectoryDevice) (rounds : ℕ) (filePath : CString)
    (contents : Option FileBytes) {offset : ℕ} (hoffset : offset < 2 ^ 63) (b : Buffer)
    (mode : WriteMode) :
    ((dev.writeFile (posix (dev.getDevicePath filePath)) rounds filePath offset
          (some b) b.bytes.length mode (closed contents {})).1 =
        (dev.writeFileWin32 (win32 (dev.getDevicePathWin32 filePath)) filePath offset
          (some b) b.bytes.length mode (closed contents {})).1 ∧
      (dev.writeFile (posix (dev.getDevicePath filePath)) rounds filePath offset
          (some b) b.bytes.length mode (closed contents {})).2.contents =
        (dev.writeFileWin32 (win32 (dev.getDevicePathWin32 filePath)) filePath offset
          (some b) b.bytes.length mode (closed contents {})).2.contents) ↔
      SameWrite contents offset b.bytes.length mode := by
  obtain ⟨hposix, hcontents⟩ := writeFile_posix_outcome dev rounds filePath contents hoffset b mode
  obtain ⟨hwin32, hcontents'⟩ := writeFile_win32_outcome dev filePath contents hoffset b mode
  rw [hposix, hcontents, hwin32, hcontents']
  cases mode with
  | truncate =>
    rw [SameWrite, ← truncate_iff hoffset, Prod.ext_iff]
    exact and_congr_right fun _ => Option.some_inj
  | append =>
    cases contents with
    | none => exact @placed_iff .empty 0 (by decide) b.bytes
    | some c => exact placed_iff (c := c) c.length_lt b.bytes
  | segment =>
    cases contents with
    | none =>
      refine iff_of_false (fun h => ?_) fun h => h.1 rfl
      exact absurd h.2 (Option.some_ne_none _)
    | some c =>
      exact (placed_iff (c := c) hoffset b.bytes).trans
        (and_iff_right (Option.some_ne_none c)).symm

/-- Appending to a file of three bytes. -/
theorem writeFile_branches_append :
    ((DirectoryDevice.new []).writeFile (posix [slash, 97]) 0 [slash, 97] 0 (some (.client 1 [9])) 1
          .append (closed (some ⟨[1, 2, 3], by decide⟩) {})).1 =
        ((DirectoryDevice.new []).writeFileWin32 (win32 [DirectoryDevice.backslash, 97]) [slash, 97]
          0 (some (.client 1 [9])) 1 .append (closed (some ⟨[1, 2, 3], by decide⟩) {})).1 ∧
      ((DirectoryDevice.new []).writeFile (posix [slash, 97]) 0 [slash, 97] 0 (some (.client 1 [9]))
          1 .append (closed (some ⟨[1, 2, 3], by decide⟩) {})).2.contents =
        ((DirectoryDevice.new []).writeFileWin32 (win32 [DirectoryDevice.backslash, 97]) [slash, 97]
          0 (some (.client 1 [9])) 1
          .append (closed (some ⟨[1, 2, 3], by decide⟩) {})).2.contents :=
  (@writeFile_branches_iff (.new []) 0 [slash, 97] (some ⟨[1, 2, 3], by decide⟩) 0 (by decide)
    (.client 1 [9]) .append).mpr (Or.inl (by decide))

/-- A segment of an absent file: the POSIX branch creates it, the Win32 branch does not. -/
theorem writeFile_branches_absent :
    ((DirectoryDevice.new []).writeFile (posix [slash, 97]) 0 [slash, 97] 0 (some (.client 1 [9])) 1
        .segment (closed none {})).1 = ⟨1, some .ok⟩ ∧
      ((DirectoryDevice.new []).writeFileWin32 (win32 [DirectoryDevice.backslash, 97]) [slash, 97] 0
        (some (.client 1 [9])) 1 .segment (closed none {})).1 = ⟨0, some .notFound⟩ := by
  decide

end Branches

end SoleFile

end LaminaFS
