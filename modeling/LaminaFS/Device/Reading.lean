/-
# Reading one file

What `DirectoryDevice::readFile` makes of one file under all outcomes of its calls, in the POSIX
and in the Win32 branch.  The count of bytes is a difference of unsigned words, so that an
offset behind the end of the file asks for a great number of bytes; the failure of a seek, the lack
of memory and a short read are not reported.
-/
import LaminaFS.Device.SoleFile

namespace LaminaFS

open SoleFile

/-! ### Interrupted calls -/

/-- A call that is not interrupted is not made again. -/
lemma retry_settled {W α : Type} {call : W → Except Errno α × W} {w : W}
    (h : (call w).1 ≠ .error .eintr) (rounds : ℕ) : retry call rounds w = call w := by
  induction rounds with
  | zero => rfl
  | succ rounds _ =>
    rw [retry]
    split
    · rename_i heq
      rw [heq] at h
      exact absurd rfl h
    · rfl

lemma errno_ne_eintr {α : Type} (r : Except Failure α) : SoleFile.errno r ≠ .error .eintr := by
  cases r with
  | ok a => simp [SoleFile.errno]
  | error e => simpa [SoleFile.errno] using e.property

/-- A call that is going to be interrupted `count w` times is made until it is not. -/
lemma retry_interrupted {W α : Type} {call : W → Except Errno α × W} {count : W → ℕ}
    {tick : W → W} {result : W → Except Failure α × W}
    (hcall : ∀ w, call w = if count w ≠ 0 then (.error .eintr, tick w)
      else (SoleFile.errno (result w).1, (result w).2))
    (htick : ∀ w, count (tick w) = count w - 1) {w : W} {rounds : ℕ} (h : count w ≤ rounds) :
    retry call rounds w = (SoleFile.errno (result (tick^[count w] w)).1,
      (result (tick^[count w] w)).2) := by
  induction rounds generalizing w with
  | zero =>
    have hzero := Nat.le_zero.mp h
    rw [hzero, retry, hcall, if_neg (not_not.mpr hzero)]
    rfl
  | succ rounds ih =>
    by_cases hzero : count w = 0
    · have hsettled : call w = (SoleFile.errno (result w).1, (result w).2) := by
        rw [hcall, if_neg (not_not.mpr hzero)]
      rw [retry_settled (by rw [hsettled]; exact errno_ne_eintr _), hsettled, hzero]
      rfl
    · -- the round uses up one of the interruptions
      have hcount : count (tick w) + 1 = count w := by
        rw [htick]
        exact Nat.sub_add_cancel (Nat.pos_of_ne_zero hzero)
      rw [retry, hcall, if_pos hzero]
      dsimp only
      rw [ih (by omega), ← hcount, Function.iterate_succ_apply]

namespace SoleFile

lemma bytes_of_contents {E : Type} {f : SoleFile E} {c : FileBytes} (h : f.contents = some c) :
    f.bytes = c.bytes := by
  rw [bytes, h]
  rfl

variable {f : SoleFile Failure} {rounds : ℕ} {path : CString}

/-- The file when `open` is not interrupted any more. -/
def openSettled (f : SoleFile Failure) : SoleFile Failure :=
  { f with faults := { f.faults with openInterrupts := 0 } }

/-- The file when `read` is not interrupted any more. -/
def readSettled (f : SoleFile Failure) (count : ℕ) : SoleFile Failure :=
  { f with
    faults := { f.faults with transferInterrupts := 0 }
    events := List.replicate f.faults.transferInterrupts (.read count) ++ f.events }

/-- The file when `write` is not interrupted any more. -/
def writeSettled (f : SoleFile Failure) : SoleFile Failure :=
  { f with faults := { f.faults with transferInterrupts := 0 } }

lemma iterate_openTick {n : ℕ} (hn : f.faults.openInterrupts = n) :
    openTick^[n] f = f.openSettled := by
  induction n generalizing f with
  | zero =>
    show f = _
    rw [openSettled, ← hn]
  | succ n ih =>
    rw [Function.iterate_succ_apply, ih (by rw [openTick, hn]; rfl)]
    rfl

lemma iterate_transferTick {n : ℕ} (hn : f.faults.transferInterrupts = n) :
    transferTick^[n] f = f.writeSettled := by
  induction n generalizing f with
  | zero =>
    show f = _
    rw [writeSettled, ← hn]
  | succ n ih =>
    rw [Function.iterate_succ_apply, ih (by rw [transferTick, hn]; rfl)]
    rfl

lemma iterate_readTick {n count : ℕ} (hn : f.faults.transferInterrupts = n) :
    (fun g : SoleFile Failure => (g.note (.read count)).transferTick)^[n] f =
      f.readSettled count := by
  induction n generalizing f with
  | zero =>
    show f = _
    rw [readSettled, hn, List.replicate_zero, List.nil_append, ← hn]
  | succ n ih =>
    have htick : (f.note (.read count)).transferTick.faults.transferInterrupts = n := by
      rw [transferTick, note, hn]
      rfl
    -- this call lies behind the ones that follow
    rw [Function.iterate_succ_apply, ih htick, readSettled, readSettled, htick, hn,
      List.replicate_succ']
    simp [transferTick, note]

lemma retry_posixOpen (path : CString) (flags : OpenFlags)
    (h : f.faults.openInterrupts ≤ rounds) :
    retry ((posix path).openFile path flags) rounds f =
      (errno (f.openSettled.openAs posixErrors flags.create flags.truncate flags.append).1,
        (f.openSettled.openAs posixErrors flags.create flags.truncate flags.append).2) := by
  have hretry := @retry_interrupted _ _ ((posix path).openFile path flags)
    (fun g => g.faults.openInterrupts) openTick _ (fun _ => if_pos rfl) (fun _ => rfl) f rounds h
  rw [hretry, iterate_openTick rfl]

lemma retry_posixRead (count : ℕ) (h : f.faults.transferInterrupts ≤ rounds) :
    retry ((posix path).read 3 count) rounds f =
      (errno (((f.readSettled count).note (.read count)).get count).1,
        (((f.readSettled count).note (.read count)).get count).2) := by
  have hretry := @retry_interrupted _ _ ((posix path).read 3 count)
    (fun g => g.faults.transferInterrupts) (fun g => (g.note (.read count)).transferTick) _
    (fun _ => rfl) (fun _ => rfl) f rounds h
  rw [hretry, iterate_readTick rfl]

lemma retry_posixWrite (bytes : List UInt8) (h : f.faults.transferInterrupts ≤ rounds) :
    retry ((posix path).write 3 bytes) rounds f =
      (errno (f.writeSettled.put posixErrors bytes).1,
        (f.writeSettled.put posixErrors bytes).2) := by
  have hretry := @retry_interrupted _ _ ((posix path).write 3 bytes)
    (fun g => g.faults.transferInterrupts) transferTick _ (fun _ => rfl) (fun _ => rfl) f rounds h
  rw [hretry, iterate_transferTick rfl]

/-! ### The run of `readFile`, POSIX -/

/-- The bytes that one call delivers. -/
def delivered {E : Type} (faults : Faults E) (bytes : List UInt8) (pos count : ℕ) : List UInt8 :=
  (bytes.drop pos).take (faults.limit count)

/-- The size of the block that is allocated for `count` bytes. -/
def allocSize (count : ℕ) (nullTerminate : Bool) : ℕ :=
  (count + if nullTerminate then 1 else 0) % 2 ^ 64

/-- What `readFile` returns when `count` bytes are asked for at `pos`. -/
def blockResult (faults : Faults Failure) (bytes : List UInt8) (pos count : ℕ)
    (nullTerminate : Bool) : ReadResult :=
  if faults.noMemory then ⟨0, some .ok, .null⟩
  else
    match faults.transferError with
    | some e => ⟨0, some (convertError e.val), .null⟩
    | none =>
      ⟨(delivered faults bytes pos count).length, some .ok,
        .block (DirectoryDevice.terminated nullTerminate (delivered faults bytes pos count))⟩

/-- The calls for it. -/
def blockEvents {E : Type} (faults : Faults E) (count : ℕ) (nullTerminate : Bool) :
    List FileEvent :=
  if faults.noMemory then [.allocated (allocSize count nullTerminate)]
  else
    List.replicate (faults.transferInterrupts + 1) (.read count) ++
      [.allocated (allocSize count nullTerminate)]

lemma readBlock_posix (count : ℕ) (alloc : Option Allocator) (nullTerminate : Bool)
    (h : f.faults.transferInterrupts ≤ rounds) :
    (DirectoryDevice.readBlock (posix path).toPosix rounds 3 count alloc nullTerminate f).1 =
        blockResult f.faults f.bytes f.pos count nullTerminate ∧
      (DirectoryDevice.readBlock (posix path).toPosix rounds 3 count alloc nullTerminate
          f).2.events = .closed :: blockEvents f.faults count nullTerminate ++ f.events := by
  have halloc : (posix path).alloc alloc ((count + if nullTerminate then 1 else 0) % 2 ^ 64) f =
    (!f.faults.noMemory, f.note (.allocated (allocSize count nullTerminate))) := rfl
  rw [DirectoryDevice.readBlock, halloc, blockResult, blockEvents]
  cases hmemory : f.faults.noMemory with
  | true => exact ⟨rfl, rfl⟩
  | false =>
    simp only [Bool.not_false, Bool.false_eq_true, if_false]
    rw [retry_posixRead count (f := f.note _) h]
    generalize hg : ((f.note (.allocated (allocSize count nullTerminate))).readSettled count).note
      (.read count) = g
    have hevents : g.events = List.replicate (f.faults.transferInterrupts + 1) (.read count) ++
        .allocated (allocSize count nullTerminate) :: f.events := by
      rw [← hg]
      rfl
    have hfaults : g.faults.transferError = f.faults.transferError ∧
        g.faults.limit = f.faults.limit ∧ g.bytes = f.bytes ∧ g.pos = f.pos := by
      rw [← hg]
      exact ⟨rfl, rfl, rfl, rfl⟩
    obtain ⟨herror, hlimit, hbytes, hpos⟩ := hfaults
    rw [get, herror]
    cases f.faults.transferError with
    | some e => exact ⟨rfl, by simp [posix, note, errno, hevents]⟩
    | none =>
      rw [delivered, ← hlimit, ← hbytes, ← hpos]
      exact ⟨rfl, by simp [posix, note, errno, hevents]⟩

/-- Where the seek to `offset` leads from the end; one that fails leaves the position there. -/
def seekedPos {E : Type} (faults : Faults E) (bytes : List UInt8) (offset : ℕ) : ℕ :=
  if toOff offset < 0 ∨ faults.seekError.isSome then bytes.length else (toOff offset).toNat

/-- What `readFile` returns. -/
def readResult (faults : Faults Failure) (bytes : List UInt8) (offset maxBytes : ℕ)
    (nullTerminate : Bool) : ReadResult :=
  match faults.openError, faults.sizeError with
  | some e, _ => ⟨0, some (convertError e.val), .untouched⟩
  | none, some e => ⟨0, some (convertError e.val), .untouched⟩
  | none, none =>
    if bytes = [] then ⟨0, none, .untouched⟩
    else
      blockResult faults bytes (seekedPos faults bytes offset)
        (readCount bytes.length offset maxBytes) nullTerminate

/-- The calls that it makes, the last one first. -/
def readEvents (faults : Faults Failure) (bytes : List UInt8) (offset maxBytes : ℕ)
    (nullTerminate : Bool) : List FileEvent :=
  match faults.openError, faults.sizeError with
  | some _, _ => []
  | none, some _ => [.closed, .opened]
  | none, none =>
    if bytes = [] then [.closed, .opened]
    else
      .closed :: blockEvents faults (readCount bytes.length offset maxBytes) nullTerminate ++
        [.opened]

lemma toU64_natCast {n : ℕ} (h : n < 2 ^ 63) : toU64 n = n := by
  rw [toU64]
  omega

/-- The file after a seek, which may have failed. -/
lemma seek_snd {E : Type} (errors : OwnErrors E) (f : SoleFile E) (pos : ℤ) :
    (f.seek errors pos).2 =
      { f with pos := if pos < 0 ∨ f.faults.seekError.isSome then f.pos else pos.toNat } := by
  rw [seek]
  by_cases hneg : pos < 0
  · rw [if_pos hneg, if_pos (Or.inl hneg)]
  · rw [if_neg hneg]
    cases hseek : f.faults.seekError with
    | some e => simp
    | none => simp [hneg]

/-- Asking for the size leads to the end of the file. -/
lemma lseek_end (hsize : f.faults.sizeError = none) :
    (posix path).lseek 3 0 .seekEnd f = (.ok f.bytes.length, { f with pos := f.bytes.length }) := by
  show posixSeek f 0 .seekEnd = _
  rw [posixSeek, size, hsize]

lemma readOpened_posix {c : FileBytes} (hc : f.contents = some c) (offset maxBytes : ℕ)
    (alloc : Option Allocator) (nullTerminate : Bool) (hopen : f.faults.openError = none)
    (hevents : f.events = [.opened]) (h : f.faults.transferInterrupts ≤ rounds) :
    (DirectoryDevice.readOpened (posix path).toPosix rounds 3 offset maxBytes alloc nullTerminate
        f).1 = readResult f.faults c.bytes offset maxBytes nullTerminate ∧
      (DirectoryDevice.readOpened (posix path).toPosix rounds 3 offset maxBytes alloc nullTerminate
          f).2.events = readEvents f.faults c.bytes offset maxBytes nullTerminate := by
  have hbytes := bytes_of_contents hc
  rw [DirectoryDevice.readOpened, readResult, readEvents, hopen]
  cases hsize : f.faults.sizeError with
  | some e =>
    have hend : (posix path).lseek 3 0 .seekEnd f = (.error e.val, f) := by
      show posixSeek f 0 .seekEnd = _
      rw [posixSeek, size, hsize]
    rw [hend]
    exact ⟨rfl, congrArg (FileEvent.closed :: ·) hevents⟩
  | none =>
    rw [lseek_end hsize, hbytes]
    have hlen := c.length_lt
    have hraw : toU64 (raw (.ok c.bytes.length)) = c.bytes.length := toU64_natCast hlen
    have hne : c.bytes.length ≠ 2 ^ 64 - 1 := by omega
    simp only [hraw, if_neg hne]
    by_cases hnil : c.bytes = []
    · rw [if_neg (by simp [hnil]), if_pos hnil, if_pos hnil]
      exact ⟨rfl, congrArg (FileEvent.closed :: ·) hevents⟩
    · rw [if_pos (by simpa using hnil), if_neg hnil, if_neg hnil]
      -- the outcome of the comparison is 0 or 1, so that no seek is taken for failed
      have hsought (n : ℤ) : (if n = toOff offset then (1 : ℤ) else 0) ≠ -1 := by
        split_ifs <;> decide
      simp only [if_pos (hsought _)]
      have hseek : ((posix path).lseek 3 (toOff offset) .seekSet
          { f with pos := c.bytes.length }).2 =
          { f with pos := seekedPos f.faults c.bytes offset } := seek_snd posixErrors _ _
      obtain ⟨hresult, hcalls⟩ := @readBlock_posix
        { f with pos := seekedPos f.faults c.bytes offset } rounds path
        (readCount c.bytes.length offset maxBytes) alloc nullTerminate h
      rw [hseek, ← hevents]
      exact ⟨hresult.trans (by rw [← hbytes]; rfl), hcalls⟩

lemma readFile_posix (dev : DirectoryDevice) (filePath : CString) (c : FileBytes)
    (faults : Faults Failure) (offset maxBytes : ℕ) (alloc : Option Allocator)
    (nullTerminate : Bool) (hopen : faults.openInterrupts ≤ rounds)
    (hread : faults.transferInterrupts ≤ rounds) :
    (dev.readFile (posix (dev.getDevicePath filePath)).toPosix rounds filePath offset
        maxBytes alloc nullTerminate (closed (some c) faults)).1 =
          readResult faults c.bytes offset maxBytes nullTerminate ∧
      (dev.readFile (posix (dev.getDevicePath filePath)).toPosix rounds filePath offset
        maxBytes alloc nullTerminate (closed (some c) faults)).2.events =
          readEvents faults c.bytes offset maxBytes nullTerminate := by
  rw [DirectoryDevice.readFile, DirectoryDevice.openFile,
    retry_posixOpen (f := closed (some c) faults) _ {} hopen, openAs]
  cases herror : faults.openError with
  | some e =>
    have hfaults : (closed (some c) faults).openSettled.faults.openError = some e := herror
    rw [hfaults, readResult, readEvents, herror]
    exact ⟨rfl, rfl⟩
  | none =>
    have hfaults : (closed (some c) faults).openSettled.faults.openError = none := herror
    rw [hfaults]
    exact readOpened_posix rfl offset maxBytes alloc nullTerminate herror rfl hread

/-! ### The run of `readFile`, Win32 -/

/-- What `readFile` returns when `count` bytes are asked for at `pos`, if it does not write the
terminator through null. -/
def blockResultWin32 (faults : Faults WinError) (bytes : List UInt8) (pos count : ℕ)
    (nullTerminate : Bool) : Option ReadResult :=
  match faults.noMemory, faults.transferError with
  | true, some _ => some ⟨0, some .ok, .null⟩
  | true, none =>
    if delivered faults bytes pos (u32 count) = [] ∧ nullTerminate = true then none
    else some ⟨0, some .ok, .null⟩
  | false, some _ => some ⟨0, some .ok, .block []⟩
  | false, none =>
    some ⟨(delivered faults bytes pos (u32 count)).length, some .ok,
      .block (DirectoryDevice.terminated nullTerminate (delivered faults bytes pos (u32 count)))⟩

/-- The seek to `offset` seems to fail. -/
def SeekRejected (faults : Faults WinError) (offset : ℕ) : Prop :=
  toOff offset < 0 ∨ faults.seekError.isSome ∨ u32 (toOff offset).toNat = invalidSetFilePointer

instance (faults : Faults WinError) (offset : ℕ) : Decidable (SeekRejected faults offset) :=
  inferInstanceAs (Decidable (_ ∨ _ ∨ _))

/-- What `readFile` returns. -/
def readResultWin32 (faults : Faults WinError) (bytes : List UInt8) (offset maxBytes : ℕ)
    (nullTerminate : Bool) : Option ReadResult :=
  match faults.openError, faults.sizeError with
  | some _, _ => some ⟨0, some .notFound, .untouched⟩
  | none, some e => some ⟨0, some e.convertError, .untouched⟩
  | none, none =>
    if bytes = [] then some ⟨0, some .ok, .null⟩
    else if SeekRejected faults offset then some ⟨0, none, .untouched⟩
    else
      blockResultWin32 faults bytes (toOff offset).toNat
        (readCount bytes.length offset maxBytes) nullTerminate

/-- The calls that it makes, the last one first. -/
def readEventsWin32 (faults : Faults WinError) (bytes : List UInt8) (offset maxBytes : ℕ)
    (nullTerminate : Bool) : List FileEvent :=
  match faults.openError, faults.sizeError with
  | some _, _ => []
  | none, some _ => [.closed, .opened]
  | none, none =>
    if bytes = [] ∨ SeekRejected faults offset then [.closed, .opened]
    else
      [.closed, .read (u32 (readCount bytes.length offset maxBytes)),
        .allocated (allocSize (readCount bytes.length offset maxBytes) nullTerminate), .opened]

/-- `SetFilePointer` seems to fail also when the low word of the position is the greatest. -/
lemma lowPart_seek (f : SoleFile WinError) (offset : ℕ) :
    lowPart (f.seek winErrors (toOff offset)).1 = invalidSetFilePointer ↔
      SeekRejected f.faults offset := by
  rw [seek, SeekRejected]
  by_cases hneg : toOff offset < 0
  · simp [hneg, lowPart]
  · rw [if_neg hneg]
    cases f.faults.seekError with
    | some e => simp [lowPart]
    | none => simp [hneg, lowPart]

section Win32

variable {f : SoleFile WinError} {path : CString}

/-- `get` when no error is laid down. -/
lemma get_note (e : FileEvent) (count : ℕ) (h : f.faults.transferError = none) :
    (f.note e).get count = (.ok (delivered f.faults f.bytes f.pos count),
      { f.note e with pos := f.pos + (delivered f.faults f.bytes f.pos count).length }) := by
  have hnote : (f.note e).faults.transferError = none := h
  rw [get, hnote]
  rfl

lemma winRead_error {e : WinError} (buffer : Bool) (count : ℕ)
    (h : f.faults.transferError = some e) :
    f.winRead buffer count = (.error e, f.note (.read count)) := by
  have hnote : (f.note (.read count)).faults.transferError = some e := h
  rw [winRead, get, hnote]

/-- Bytes to store need a buffer. -/
lemma winRead_none (buffer : Bool) (count : ℕ) (h : f.faults.transferError = none) :
    f.winRead buffer count =
      if buffer = true ∨ delivered f.faults f.bytes f.pos count = [] then
        (.ok (delivered f.faults f.bytes f.pos count),
          { f.note (.read count) with
            pos := f.pos + (delivered f.faults f.bytes f.pos count).length })
      else (.error (.other 998), f.note (.read count)) := by
  rw [winRead, get_note _ _ h]
  dsimp only
  cases buffer with
  | true => simp
  | false =>
    by_cases hnil : delivered f.faults f.bytes f.pos count = []
    · simp [hnil]
    · simp [hnil]

lemma readBlockWin32_eq (count : ℕ) (alloc : Option Allocator) (nullTerminate : Bool) :
    (DirectoryDevice.readBlockWin32 (win32 path) 3 count alloc nullTerminate f).map Prod.fst =
        blockResultWin32 f.faults f.bytes f.pos count nullTerminate ∧
      ∀ r ∈ DirectoryDevice.readBlockWin32 (win32 path) 3 count alloc nullTerminate f,
        r.2.events =
          .closed :: .read (u32 count) :: .allocated (allocSize count nullTerminate) ::
            f.events := by
  have halloc : (win32 path).alloc alloc ((count + if nullTerminate then 1 else 0) % 2 ^ 64) f =
    (!f.faults.noMemory, f.note (.allocated (allocSize count nullTerminate))) := rfl
  rw [DirectoryDevice.readBlockWin32, halloc, blockResultWin32]
  dsimp only
  have hread (buffer : Bool) : (win32 path).readFile 3 buffer (u32 count)
      (f.note (.allocated (allocSize count nullTerminate))) =
      (f.note (.allocated (allocSize count nullTerminate))).winRead buffer (u32 count) := rfl
  rw [hread]
  cases herror : f.faults.transferError with
  | some e =>
    rw [winRead_error (f := f.note _) _ _ herror]
    cases f.faults.noMemory with
    | true => exact ⟨rfl, fun r hr => by cases hr; rfl⟩
    | false => exact ⟨rfl, fun r hr => by cases hr; rfl⟩
  | none =>
    rw [winRead_none (f := f.note _) _ _ herror]
    cases f.faults.noMemory with
    | true =>
      have hgot : delivered (f.note (.allocated (allocSize count nullTerminate))).faults
          (f.note (.allocated (allocSize count nullTerminate))).bytes
          (f.note (.allocated (allocSize count nullTerminate))).pos (u32 count) =
          delivered f.faults f.bytes f.pos (u32 count) := rfl
      rw [hgot]
      by_cases hnil : delivered f.faults f.bytes f.pos (u32 count) = []
      · -- nothing is stored, and the terminator is what goes through the null pointer
        rw [if_pos (Or.inr hnil), hnil]
        cases nullTerminate with
        | true => exact ⟨rfl, fun r hr => by cases hr⟩
        | false => exact ⟨rfl, fun r hr => by cases hr; rfl⟩
      · rw [if_neg (by simp [hnil])]
        dsimp only [Bool.not_true]
        rw [if_neg (not_and_of_not_left _ hnil)]
        exact ⟨rfl, fun r hr => by cases hr; rfl⟩
    | false => exact ⟨rfl, fun r hr => by cases hr; rfl⟩

lemma setFilePointer_begin (offset : ℕ) :
    (win32 path).setFilePointer 3 (toOff offset) .fileBegin =
      fun f => f.seek winErrors (toOff offset) := by
  funext f
  show f.seek winErrors (toOff offset + 0) = _
  rw [add_zero]

lemma readOpenedWin32_eq {c : FileBytes} (hc : f.contents = some c) (offset maxBytes : ℕ)
    (alloc : Option Allocator) (nullTerminate : Bool) (hopen : f.faults.openError = none)
    (hevents : f.events = [.opened]) :
    (DirectoryDevice.readOpenedWin32 (win32 path) 3 offset maxBytes alloc nullTerminate f).map
        Prod.fst = readResultWin32 f.faults c.bytes offset maxBytes nullTerminate ∧
      ∀ r ∈ DirectoryDevice.readOpenedWin32 (win32 path) 3 offset maxBytes alloc nullTerminate f,
        r.2.events = readEventsWin32 f.faults c.bytes offset maxBytes nullTerminate := by
  have hbytes := bytes_of_contents hc
  have hsizeof : (win32 path).getFileSizeEx 3 f = (f.size, f) := rfl
  rw [DirectoryDevice.readOpenedWin32, readResultWin32, readEventsWin32, hopen, hsizeof, size,
    hbytes, setFilePointer_begin]
  cases hsize : f.faults.sizeError with
  | some e =>
    exact ⟨rfl, fun r hr => by cases hr; exact congrArg (FileEvent.closed :: ·) hevents⟩
  | none =>
    dsimp only
    by_cases hnil : c.bytes = []
    · rw [if_neg (by simp [hnil]), if_pos hnil, if_pos (Or.inl hnil)]
      exact ⟨rfl, fun r hr => by cases hr; exact congrArg (FileEvent.closed :: ·) hevents⟩
    rw [if_pos (by simpa using hnil), if_neg hnil]
    have hseek := lowPart_seek f offset
    have hsought := seek_snd winErrors f (toOff offset)
    by_cases hrejected : SeekRejected f.faults offset
    · rw [if_pos (hseek.mpr hrejected), if_pos hrejected, if_pos (Or.inr hrejected)]
      refine ⟨rfl, fun r hr => ?_⟩
      cases hr
      show .closed :: (f.seek winErrors (toOff offset)).2.events = _
      rw [hsought]
      exact congrArg (FileEvent.closed :: ·) hevents
    · rw [if_neg (hrejected ∘ hseek.mp), if_neg hrejected, if_neg (by simp [hnil, hrejected]),
        hsought, if_neg fun h => hrejected (h.imp_right Or.inl)]
      obtain ⟨hresult, hcalls⟩ := @readBlockWin32_eq { f with pos := (toOff offset).toNat } path
        (readCount c.bytes.length offset maxBytes) alloc nullTerminate
      refine ⟨hresult.trans (by rw [← hbytes]; rfl), fun r hr => (hcalls r hr).trans ?_⟩
      rw [← hevents]

/-- The device opens the file. -/
lemma openFileWin32_eq (dev : DirectoryDevice) (filePath : CString) (access : AccessMode)
    (createMode : CreateMode) (f : SoleFile WinError) :
    dev.openFileWin32 (win32 (dev.getDevicePathWin32 filePath)) filePath access createMode f =
      f.openAs winErrors (createMode != .openExisting) (createMode == .createAlways) false :=
  if_pos rfl

lemma readFileWin32_eq (dev : DirectoryDevice) (filePath : CString) (c : FileBytes)
    (faults : Faults WinError) (offset maxBytes : ℕ) (alloc : Option Allocator)
    (nullTerminate : Bool) :
    (dev.readFileWin32 (win32 (dev.getDevicePathWin32 filePath)) filePath offset
        maxBytes alloc nullTerminate (closed (some c) faults)).map Prod.fst =
          readResultWin32 faults c.bytes offset maxBytes nullTerminate ∧
      ∀ r ∈ dev.readFileWin32 (win32 (dev.getDevicePathWin32 filePath)) filePath offset
        maxBytes alloc nullTerminate (closed (some c) faults),
        r.2.events = readEventsWin32 faults c.bytes offset maxBytes nullTerminate := by
  rw [DirectoryDevice.readFileWin32, openFileWin32_eq, openAs]
  cases herror : faults.openError with
  | some e =>
    have hfaults : (closed (some c) faults).faults.openError = some e := herror
    rw [hfaults, readResultWin32, readEventsWin32, herror]
    exact ⟨rfl, fun r hr => by cases hr; rfl⟩
  | none =>
    have hfaults : (closed (some c) faults).faults.openError = none := herror
    rw [hfaults]
    exact readOpenedWin32_eq rfl offset maxBytes alloc nullTerminate herror rfl

end Win32

end SoleFile

end LaminaFS
