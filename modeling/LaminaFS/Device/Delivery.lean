/-
# What `readFile` delivers

The slice of the file that is asked for, the arithmetic of the counts, and whether `LFS_OK` tells
that the slice is there, each with the exact condition.  An empty file leaves `outError` as it
is; an offset behind the end makes the count wrap around; the failure of the seek and a short read
are not noticed; and the Win32 branch stores `LFS_OK` over the code of a read that failed, takes a
position with the low word `0xFFFFFFFF` for a failed seek, and cuts the count to 32 bits.
-/
import LaminaFS.Device.Reading

namespace LaminaFS

namespace SoleFile

open Disk (slice)

variable {bytes : List UInt8} {offset maxBytes : ℕ}

/-! ### The counts -/

lemma readCount_of_le {size : ℕ} (h : offset ≤ size) (hsize : size < 2 ^ 63) :
    readCount size offset maxBytes = min (size - offset) maxBytes := by
  rw [readCount, sub64]
  omega

/-- Behind the end of the file the difference wraps around. -/
lemma readCount_of_lt {size : ℕ} (h : size < offset) (hoffset : offset < 2 ^ 64) :
    readCount size offset maxBytes = min (2 ^ 64 - (offset - size)) maxBytes := by
  rw [readCount, sub64]
  omega

lemma readCount_le_iff {size : ℕ} (hsize : size < 2 ^ 63) (hoffset : offset < 2 ^ 64) :
    readCount size offset maxBytes ≤ size ↔ offset ≤ size ∨ maxBytes ≤ size := by
  by_cases h : offset ≤ size
  · rw [readCount_of_le h hsize]
    omega
  · rw [readCount_of_lt (Nat.lt_of_not_le h) hoffset]
    omega

/-- An offset that does not fit in `off_t` is negative there. -/
lemma toOff_neg (h : 2 ^ 63 ≤ offset) (hoffset : offset < 2 ^ 64) : toOff offset < 0 := by
  rw [toOff]
  omega

lemma limit_le {E : Type} (faults : Faults E) (count : ℕ) : faults.limit count ≤ count := by
  rw [Faults.limit]
  split
  · exact le_rfl
  · exact Nat.min_le_left _ _

lemma length_delivered {E : Type} (faults : Faults E) (pos count : ℕ) :
    (delivered faults bytes pos count).length = min (bytes.length - pos) (faults.limit count) := by
  rw [delivered, List.length_take, List.length_drop, Nat.min_comm]

/-- The seek leads to the offset or behind the end. -/
lemma drop_seekedPos {E : Type} {faults : Faults E} (hseek : faults.seekError = none)
    (hlen : bytes.length < 2 ^ 63) (hoffset : offset < 2 ^ 64) :
    bytes.drop (seekedPos faults bytes offset) = bytes.drop offset := by
  rw [seekedPos, hseek]
  by_cases h : offset < 2 ^ 63
  · rw [Disk.toOff_of_lt h, if_neg (by simp), Int.toNat_natCast]
  · -- the seek fails, and both positions are behind the last byte
    rw [if_pos (Or.inl (toOff_neg (Nat.le_of_not_lt h) hoffset)), List.drop_of_length_le le_rfl,
      List.drop_of_length_le (by omega)]

/-! ### The slice -/

/-- The call has delivered `part`, with the terminator behind it where it is asked for, in a block
that is large enough. -/
structure Delivers {E : Type} (r : ReadResult × SoleFile E) (part : List UInt8)
    (nullTerminate : Bool) : Prop where
  error_eq : r.1.error = some .ok
  bytes_eq : r.1.bytes = part.length
  stored : part ≠ [] → ∃ block, r.1.buffer = .block block
  take_eq : ∀ block, r.1.buffer = .block block → block.take part.length = part
  terminator : ∀ block, r.1.buffer = .block block → nullTerminate = true →
    block[part.length]? = some 0
  fits : ∀ block size, r.1.buffer = .block block → .allocated size ∈ r.2.events →
    block.length ≤ size

lemma length_terminated (nullTerminate : Bool) :
    (DirectoryDevice.terminated nullTerminate bytes).length =
      bytes.length + if nullTerminate then 1 else 0 := by
  cases nullTerminate with
  | true => exact List.length_append
  | false => rfl

lemma take_terminated (nullTerminate : Bool) :
    (DirectoryDevice.terminated nullTerminate bytes).take bytes.length = bytes := by
  cases nullTerminate with
  | true => exact List.take_left
  | false => exact List.take_length

/-- Without faults the bytes read are the slice. -/
lemma delivered_slice (hlen : bytes.length < 2 ^ 63) (hoffset : offset < 2 ^ 64) :
    delivered ({} : Faults Failure) bytes (seekedPos ({} : Faults Failure) bytes offset)
      (readCount bytes.length offset maxBytes) = slice bytes offset maxBytes := by
  rw [delivered, drop_seekedPos rfl hlen hoffset]
  show (bytes.drop offset).take (readCount bytes.length offset maxBytes) = _
  by_cases h : offset ≤ bytes.length
  · rw [readCount_of_le h hlen, Disk.take_slice]
  · rw [slice, List.drop_of_length_le (by omega), List.take_nil, List.take_nil]

/-- The size of the block wraps around for one byte behind the end and the greatest bound. -/
lemma fits_iff (hlen : bytes.length < 2 ^ 63) (hoffset : offset < 2 ^ 64)
    (hmax : maxBytes < 2 ^ 64) (nullTerminate : Bool) :
    (slice bytes offset maxBytes).length + (if nullTerminate then 1 else 0) ≤
        allocSize (readCount bytes.length offset maxBytes) nullTerminate ↔
      ¬(nullTerminate = true ∧ offset = bytes.length + 1 ∧ maxBytes = 2 ^ 64 - 1) := by
  rw [Disk.length_slice, allocSize]
  by_cases h : offset ≤ bytes.length
  · rw [readCount_of_le h hlen]
    split_ifs <;> omega
  · rw [readCount_of_lt (Nat.lt_of_not_le h) hoffset]
    cases nullTerminate with
    | true =>
      simp only [if_true, true_and]
      omega
    | false =>
      have hnil : min (bytes.length - offset) maxBytes = 0 := by omega
      simp [hnil]

/-- An empty file leaves everything unassigned. -/
lemma readResult_nil (nullTerminate : Bool) :
    readResult {} [] offset maxBytes nullTerminate = ⟨0, none, .untouched⟩ := rfl

/-- Without faults a file that is not empty gives the slice. -/
lemma readResult_slice (hne : bytes ≠ []) (hlen : bytes.length < 2 ^ 63)
    (hoffset : offset < 2 ^ 64) (nullTerminate : Bool) :
    readResult {} bytes offset maxBytes nullTerminate =
      ⟨(slice bytes offset maxBytes).length, some .ok,
        .block (DirectoryDevice.terminated nullTerminate (slice bytes offset maxBytes))⟩ := by
  rw [readResult]
  dsimp only
  rw [if_neg hne, blockResult]
  dsimp only
  rw [if_neg Bool.false_ne_true, delivered_slice hlen hoffset]

/-- **The slice.**  Without faults the call delivers what is asked for, unless the file is empty or
the size of the block wraps around. -/
theorem readFile_delivers_iff (dev : DirectoryDevice) (rounds : ℕ) (filePath : CString)
    (c : FileBytes) {offset maxBytes : ℕ} (hoffset : offset < 2 ^ 64) (hmax : maxBytes < 2 ^ 64)
    (alloc : Option Allocator) (nullTerminate : Bool) :
    Delivers (dev.readFile (posix (dev.getDevicePath filePath)).toPosix rounds filePath offset
        maxBytes alloc nullTerminate (closed (some c) {}))
        (slice c.bytes offset maxBytes) nullTerminate ↔
      c.bytes ≠ [] ∧
        ¬(nullTerminate = true ∧ offset = c.bytes.length + 1 ∧ maxBytes = 2 ^ 64 - 1) := by
  obtain ⟨hresult, hevents⟩ := @readFile_posix rounds dev filePath c {} offset maxBytes alloc
    nullTerminate (Nat.zero_le _) (Nat.zero_le _)
  by_cases hnil : c.bytes = []
  · -- the error code is never assigned
    refine iff_of_false (fun h => ?_) fun h => h.1 hnil
    have herror := h.error_eq
    rw [hresult, hnil, readResult_nil] at herror
    exact absurd herror (by decide)
  rw [readResult_slice hnil c.length_lt hoffset] at hresult
  rw [← fits_iff c.length_lt hoffset hmax, ← length_terminated, and_iff_right hnil]
  have hsize (size : ℕ) : .allocated size ∈ readEvents {} c.bytes offset maxBytes nullTerminate ↔
      size = allocSize (readCount c.bytes.length offset maxBytes) nullTerminate := by
    rw [readEvents]
    dsimp only
    rw [if_neg hnil, blockEvents]
    simp
  constructor
  · intro h
    refine h.fits _ _ (by rw [hresult]) ?_
    rw [hevents, hsize]
  · intro hfits
    refine ⟨by rw [hresult], by rw [hresult], fun _ => ⟨_, by rw [hresult]⟩, ?_, ?_, ?_⟩
    · intro block hblock
      rw [hresult] at hblock
      cases hblock
      exact take_terminated nullTerminate
    · rintro block hblock rfl
      rw [hresult] at hblock
      cases hblock
      simp [DirectoryDevice.terminated]
    · intro block size hblock hmem
      rw [hresult] at hblock
      rw [hevents, hsize] at hmem
      cases hblock
      exact hmem ▸ hfits

/-- The end of a file of three bytes. -/
theorem readFile_delivers_end :
    Delivers ((DirectoryDevice.new []).readFile (posix [slash, 97]).toPosix 0 [slash, 97] 1
      (2 ^ 64 - 1) none true
      (closed (some ⟨[1, 2, 3], by decide⟩) {})) (slice [1, 2, 3] 1 (2 ^ 64 - 1)) true :=
  (readFile_delivers_iff (.new []) 0 [slash, 97] ⟨[1, 2, 3], by decide⟩ (by decide) (by decide)
    none true).mpr ⟨by decide, by decide⟩

/-- Reading an empty file leaves `outError` as it is. -/
theorem readFile_not_delivers_empty :
    ¬Delivers ((DirectoryDevice.new []).readFile (posix [slash, 97]).toPosix 0 [slash, 97] 0
      (2 ^ 64 - 1) none false (closed (some .empty) {})) (slice [] 0 (2 ^ 64 - 1)) false :=
  fun h => absurd h.error_eq (by decide)

/-! ### Reads within the file -/

/-- The calls ask for a count that is within the file and the bound, without wrapping around, and
what is stored fits in the block.  `passed` is the count as the call to read gets it. -/
def ReadsWithin (passed : ℕ → ℕ) (size maxBytes : ℕ) (nullTerminate : Bool) (r : ReadResult)
    (events : List FileEvent) : Prop :=
  ∃ count, count ≤ size ∧ count ≤ maxBytes ∧
    count + (if nullTerminate then 1 else 0) < 2 ^ 64 ∧
    (∀ m, .read m ∈ events → m = passed count) ∧
    (∀ m, .allocated m ∈ events → m = count + if nullTerminate then 1 else 0) ∧
    ∀ block, r.buffer = .block block →
      block.length ≤ count + if nullTerminate then 1 else 0

/-- What the branches have in common: all calls use `readCount`, and store no more. -/
lemma readsWithin_of_le {passed : ℕ → ℕ} {nullTerminate : Bool} {r : ReadResult}
    {events : List FileEvent} {size : ℕ} (hsize : size < 2 ^ 63) (hoffset : offset < 2 ^ 64)
    (hle : offset ≤ size ∨ maxBytes ≤ size)
    (hread : ∀ m, .read m ∈ events → m = passed (readCount size offset maxBytes))
    (halloc : ∀ m, .allocated m ∈ events →
      m = allocSize (readCount size offset maxBytes) nullTerminate)
    (hblock : ∀ block, r.buffer = .block block →
      block.length ≤ readCount size offset maxBytes + if nullTerminate then 1 else 0) :
    ReadsWithin passed size maxBytes nullTerminate r events := by
  have hcount := (readCount_le_iff hsize hoffset).mpr hle
  have hlt : readCount size offset maxBytes + (if nullTerminate then 1 else 0) < 2 ^ 64 := by
    split_ifs <;> omega
  refine ⟨_, hcount, Nat.min_le_right _ _, hlt, hread, fun m hm => ?_, hblock⟩
  rw [halloc m hm, allocSize, Nat.mod_eq_of_lt hlt]

lemma mem_blockEvents {E : Type} {faults : Faults E} {count : ℕ} {nullTerminate : Bool}
    {e : FileEvent} (h : e ∈ blockEvents faults count nullTerminate) :
    e = .read count ∨ e = .allocated (allocSize count nullTerminate) := by
  rw [blockEvents] at h
  split at h
  · exact Or.inr (List.mem_singleton.mp h)
  · rcases List.mem_append.mp h with h | h
    · exact Or.inl (List.eq_of_mem_replicate h)
    · exact Or.inr (List.mem_singleton.mp h)

/-- The calls of the POSIX branch. -/
lemma mem_readEvents {faults : Faults Failure} {nullTerminate : Bool} {e : FileEvent}
    (h : e ∈ readEvents faults bytes offset maxBytes nullTerminate) :
    e = .opened ∨ e = .closed ∨ e = .read (readCount bytes.length offset maxBytes) ∨
      e = .allocated (allocSize (readCount bytes.length offset maxBytes) nullTerminate) := by
  rw [readEvents] at h
  split at h
  · cases h
  · simp only [List.mem_cons, List.not_mem_nil, or_false] at h
    tauto
  · split at h
    · simp only [List.mem_cons, List.not_mem_nil, or_false] at h
      tauto
    · simp only [List.cons_append, List.mem_cons, List.mem_append, List.not_mem_nil,
        or_false] at h
      rcases h with h | h | h
      · exact Or.inr (Or.inl h)
      · exact Or.inr (Or.inr (mem_blockEvents h))
      · exact Or.inl h

/-- The calls of the Win32 branch. -/
lemma mem_readEventsWin32 {faults : Faults WinError} {nullTerminate : Bool} {e : FileEvent}
    (h : e ∈ readEventsWin32 faults bytes offset maxBytes nullTerminate) :
    e = .opened ∨ e = .closed ∨ e = .read (u32 (readCount bytes.length offset maxBytes)) ∨
      e = .allocated (allocSize (readCount bytes.length offset maxBytes) nullTerminate) := by
  rw [readEventsWin32] at h
  split at h
  · cases h
  · simp only [List.mem_cons, List.not_mem_nil, or_false] at h
    tauto
  · split at h <;> simp only [List.mem_cons, List.not_mem_nil, or_false] at h <;> tauto

/-- No more than the count is stored, and the terminator. -/
lemma length_readResult_block {faults : Faults Failure} {nullTerminate : Bool}
    {block : List UInt8}
    (h : (readResult faults bytes offset maxBytes nullTerminate).buffer = .block block) :
    block.length ≤ readCount bytes.length offset maxBytes + if nullTerminate then 1 else 0 := by
  have hlimit := limit_le faults (readCount bytes.length offset maxBytes)
  rw [readResult] at h
  split at h
  · cases h
  · cases h
  · split at h
    · cases h
    · rw [blockResult] at h
      split at h
      · cases h
      · split at h
        · cases h
        · cases h
          rw [length_terminated, length_delivered]
          omega

lemma length_readResultWin32_block {faults : Faults WinError} {nullTerminate : Bool}
    {r : ReadResult} {block : List UInt8}
    (hr : readResultWin32 faults bytes offset maxBytes nullTerminate = some r)
    (h : r.buffer = .block block) :
    block.length ≤ readCount bytes.length offset maxBytes + if nullTerminate then 1 else 0 := by
  have hlimit := limit_le faults (u32 (readCount bytes.length offset maxBytes))
  have hmod : u32 (readCount bytes.length offset maxBytes) ≤
    readCount bytes.length offset maxBytes := Nat.mod_le _ _
  rw [readResultWin32] at hr
  split at hr
  · cases hr; cases h
  · cases hr; cases h
  · split at hr
    · cases hr; cases h
    · split at hr
      · cases hr; cases h
      · rw [blockResultWin32] at hr
        split at hr
        · cases hr; cases h
        · split at hr
          · cases hr
          · cases hr; cases h
        · cases hr
          cases h
          exact Nat.zero_le _
        · cases hr
          cases h
          rw [length_terminated, length_delivered]
          omega

/-- An offset that is not negative as `off_t`. -/
lemma seekRejected_iff {faults : Faults WinError} (hoffset : offset < 2 ^ 63) :
    SeekRejected faults offset ↔ faults.seekError ≠ none ∨ offset % 2 ^ 32 = 2 ^ 32 - 1 := by
  rw [SeekRejected, Disk.toOff_of_lt hoffset, Int.toNat_natCast, Option.isSome_iff_ne_none]
  constructor
  · rintro (hneg | h)
    · omega
    · exact h
  · exact Or.inr

lemma seekRejected_of_le {faults : Faults WinError} (h : 2 ^ 63 ≤ offset)
    (hoffset : offset < 2 ^ 64) : SeekRejected faults offset :=
  Or.inl (toOff_neg h hoffset)

lemma readsWithin_posix_iff (dev : DirectoryDevice) (filePath : CString) {c : FileBytes}
    (hc : c.bytes ≠ []) (hoffset : offset < 2 ^ 64) (alloc : Option Allocator)
    (nullTerminate : Bool) :
    (∀ (faults : Faults Failure) (rounds : ℕ), faults.openInterrupts ≤ rounds →
        faults.transferInterrupts ≤ rounds →
        ReadsWithin id c.bytes.length maxBytes nullTerminate
          (dev.readFile (posix (dev.getDevicePath filePath)).toPosix rounds filePath offset
            maxBytes alloc nullTerminate (closed (some c) faults)).1
          (dev.readFile (posix (dev.getDevicePath filePath)).toPosix rounds filePath offset
            maxBytes alloc nullTerminate (closed (some c) faults)).2.events) ↔
      offset ≤ c.bytes.length ∨ maxBytes ≤ c.bytes.length := by
  constructor
  · -- a run without faults reads, and so tells the count
    intro h
    obtain ⟨count, hle, -, -, hread, -⟩ := h {} 0 le_rfl le_rfl
    have hmem : .read (readCount c.bytes.length offset maxBytes) ∈
        readEvents {} c.bytes offset maxBytes nullTerminate := by
      rw [readEvents]
      dsimp only
      rw [if_neg hc, blockEvents]
      simp
    rw [(readFile_posix dev filePath c {} offset maxBytes alloc nullTerminate le_rfl le_rfl).2]
      at hread
    rw [← readCount_le_iff c.length_lt hoffset, hread _ hmem]
    exact hle
  · intro hle faults rounds hopen htransfer
    obtain ⟨hresult, hevents⟩ := readFile_posix dev filePath c faults offset maxBytes alloc
      nullTerminate hopen htransfer
    rw [hresult, hevents]
    refine readsWithin_of_le c.length_lt hoffset hle (fun m hm => ?_) (fun m hm => ?_)
      fun block => length_readResult_block
    · rcases mem_readEvents hm with h | h | h | h <;> cases h
      rfl
    · rcases mem_readEvents hm with h | h | h | h <;> cases h
      rfl

/-- After a rejected seek nothing is read. -/
lemma readsWithin_of_rejected {faults : Faults WinError} {nullTerminate : Bool} {r : ReadResult}
    (hne : bytes ≠ []) (hrejected : SeekRejected faults offset)
    (hr : readResultWin32 faults bytes offset maxBytes nullTerminate = some r) :
    ReadsWithin u32 bytes.length maxBytes nullTerminate r
      (readEventsWin32 faults bytes offset maxBytes nullTerminate) := by
  have hevents : ∀ e ∈ readEventsWin32 faults bytes offset maxBytes nullTerminate,
      e = .closed ∨ e = .opened := by
    intro e he
    rw [readEventsWin32, if_pos (Or.inr hrejected)] at he
    split at he
    · cases he
    · simpa using he
    · simpa using he
  have hblock : ∀ block, r.buffer ≠ .block block := by
    rintro block hblock
    rw [readResultWin32, if_neg hne, if_pos hrejected] at hr
    split at hr <;> cases hr <;> cases hblock
  refine ⟨0, Nat.zero_le _, Nat.zero_le _, by split_ifs <;> decide, fun m hm => ?_, fun m hm => ?_,
    fun block h => absurd h (hblock block)⟩
  · rcases hevents _ hm with h | h <;> cases h
  · rcases hevents _ hm with h | h <;> cases h

lemma readsWithin_win32_iff (dev : DirectoryDevice) (filePath : CString) {c : FileBytes}
    (hc : c.bytes ≠ []) (hoffset : offset < 2 ^ 64) (alloc : Option Allocator)
    (nullTerminate : Bool) :
    (∀ faults : Faults WinError,
        ∀ r ∈ dev.readFileWin32 (win32 (dev.getDevicePathWin32 filePath)) filePath offset
            maxBytes alloc nullTerminate (closed (some c) faults),
          ReadsWithin u32 c.bytes.length maxBytes nullTerminate r.1 r.2.events) ↔
      offset ≤ c.bytes.length ∨ maxBytes ≤ c.bytes.length ∨ 2 ^ 63 ≤ offset ∨
        offset % 2 ^ 32 = 2 ^ 32 - 1 := by
  constructor
  · intro h
    by_contra hnot
    obtain ⟨hoffset', hmax, hlt, hlow⟩ : c.bytes.length < offset ∧ c.bytes.length < maxBytes ∧
        offset < 2 ^ 63 ∧ offset % 2 ^ 32 ≠ 2 ^ 32 - 1 := by omega
    have hseek : ¬SeekRejected {} offset := fun hr =>
      ((seekRejected_iff hlt).mp hr).elim (fun hne => hne rfl) hlow
    obtain ⟨hresult, hevents⟩ := readFileWin32_eq dev filePath c {} offset maxBytes alloc
      nullTerminate
    have hsome : (readResultWin32 {} c.bytes offset maxBytes nullTerminate).isSome := by
      rw [readResultWin32]
      dsimp only
      rw [if_neg hc, if_neg hseek]
      rfl
    rw [← hresult, Option.isSome_map, Option.isSome_iff_exists] at hsome
    obtain ⟨r, hr⟩ := hsome
    obtain ⟨count, hle, -, hwrap, -, halloc, -⟩ := h {} r hr
    have hmem : .allocated (allocSize (readCount c.bytes.length offset maxBytes) nullTerminate) ∈
        r.2.events := by
      rw [hevents r hr, readEventsWin32]
      dsimp only
      rw [if_neg (by simp [hc, hseek])]
      simp
    -- the block tells the count, for a size that wraps around would be zero
    have hsize := halloc _ hmem
    rw [allocSize, readCount_of_lt hoffset' hoffset] at hsize
    split_ifs at hsize hwrap <;> omega
  · intro hle faults r hr
    obtain ⟨hresult, hevents⟩ := readFileWin32_eq dev filePath c faults offset maxBytes alloc
      nullTerminate
    have hr₁ : readResultWin32 faults c.bytes offset maxBytes nullTerminate = some r.1 := by
      rw [← hresult, Option.mem_def.mp hr, Option.map_some]
    rw [hevents r hr]
    have within (hle : offset ≤ c.bytes.length ∨ maxBytes ≤ c.bytes.length) :
        ReadsWithin u32 c.bytes.length maxBytes nullTerminate r.1
          (readEventsWin32 faults c.bytes offset maxBytes nullTerminate) := by
      refine readsWithin_of_le c.length_lt hoffset hle (fun m hm => ?_) (fun m hm => ?_)
        fun block => length_readResultWin32_block hr₁
      · rcases mem_readEventsWin32 hm with h | h | h | h <;> cases h
        rfl
      · rcases mem_readEventsWin32 hm with h | h | h | h <;> cases h
        rfl
    rcases hle with hle | hle | hle | hle
    · exact within (Or.inl hle)
    · exact within (Or.inr hle)
    · exact readsWithin_of_rejected hc (seekRejected_of_le hle hoffset) hr₁
    · by_cases hlt : offset < 2 ^ 63
      · exact readsWithin_of_rejected hc ((seekRejected_iff hlt).mpr (Or.inr hle)) hr₁
      · exact readsWithin_of_rejected hc (seekRejected_of_le (Nat.le_of_not_lt hlt) hoffset) hr₁

/-- **Reads within the file.**  Whatever the calls do, the count is within the file and nothing
wraps around, exactly when the offset is within the file or the bound is.  In the Win32 branch this
holds also when the seek is taken for failed, for nothing is read then. -/
theorem readFile_readsWithin_iff (dev : DirectoryDevice) (filePath : CString) {c : FileBytes}
    (hc : c.bytes ≠ []) {offset : ℕ} (hoffset : offset < 2 ^ 64) (maxBytes : ℕ)
    (alloc : Option Allocator) (nullTerminate : Bool) :
    ((∀ (faults : Faults Failure) (rounds : ℕ), faults.openInterrupts ≤ rounds →
        faults.transferInterrupts ≤ rounds →
        ReadsWithin id c.bytes.length maxBytes nullTerminate
          (dev.readFile (posix (dev.getDevicePath filePath)).toPosix rounds filePath offset
            maxBytes alloc nullTerminate (closed (some c) faults)).1
          (dev.readFile (posix (dev.getDevicePath filePath)).toPosix rounds filePath offset
            maxBytes alloc nullTerminate (closed (some c) faults)).2.events) ↔
        offset ≤ c.bytes.length ∨ maxBytes ≤ c.bytes.length) ∧
      ((∀ faults : Faults WinError,
        ∀ r ∈ dev.readFileWin32 (win32 (dev.getDevicePathWin32 filePath)) filePath offset
            maxBytes alloc nullTerminate (closed (some c) faults),
          ReadsWithin u32 c.bytes.length maxBytes nullTerminate r.1 r.2.events) ↔
        offset ≤ c.bytes.length ∨ maxBytes ≤ c.bytes.length ∨ 2 ^ 63 ≤ offset ∨
          offset % 2 ^ 32 = 2 ^ 32 - 1) := by
  exact ⟨readsWithin_posix_iff dev filePath hc hoffset alloc nullTerminate,
    readsWithin_win32_iff dev filePath hc hoffset alloc nullTerminate⟩

/-- Everything behind the first byte of a file of three bytes. -/
theorem readFile_readsWithin_end :
    ReadsWithin id 3 (2 ^ 64 - 1) true
      ((DirectoryDevice.new []).readFile (posix [slash, 97]).toPosix 0 [slash, 97] 1 (2 ^ 64 - 1)
        none true (closed (some ⟨[1, 2, 3], by decide⟩) {})).1
      ((DirectoryDevice.new []).readFile (posix [slash, 97]).toPosix 0 [slash, 97] 1 (2 ^ 64 - 1)
        none true (closed (some ⟨[1, 2, 3], by decide⟩) {})).2.events :=
  (@readFile_readsWithin_iff (.new []) [slash, 97] ⟨[1, 2, 3], by decide⟩ (by decide) 1 (by decide)
    (2 ^ 64 - 1) none true).1.mpr (Or.inl (by decide)) {} 0 le_rfl le_rfl

/-- One byte behind the end of a file of one byte. -/
theorem readFile_not_readsWithin_behind :
    ¬ReadsWithin id 1 (2 ^ 64 - 1) false
      ((DirectoryDevice.new []).readFile (posix [slash, 97]).toPosix 0 [slash, 97] 2 (2 ^ 64 - 1)
        none false (closed (some ⟨[1], by decide⟩) {})).1
      ((DirectoryDevice.new []).readFile (posix [slash, 97]).toPosix 0 [slash, 97] 2 (2 ^ 64 - 1)
        none false (closed (some ⟨[1], by decide⟩) {})).2.events := by
  rintro ⟨count, hle, -, -, hread, -⟩
  have hcount : 2 ^ 64 - 1 = id count := hread _ (by decide +kernel)
  rw [id] at hcount
  omega

/-! ### Complete reads -/

/-- `LFS_OK` tells that `part` has been delivered, and any other code that nothing has been; and
the file is closed once when it has been opened. -/
structure Complete (r : ReadResult) (events : List FileEvent) (part : List UInt8) : Prop where
  error_ne : r.error ≠ none
  bytes_eq : r.error = some .ok → r.bytes = part.length
  stored : r.error = some .ok → part ≠ [] →
    ∃ block, r.buffer = .block block ∧ block.take part.length = part
  bytes_eq_zero : r.error ≠ some .ok → r.bytes = 0
  not_stored : r.error ≠ some .ok → ∀ block, r.buffer ≠ .block block
  closed_once : events.count .closed = if .opened ∈ events then 1 else 0

lemma convertErrorWin32_ne_ok (e : WinError) : e.convertError ≠ .ok := by
  cases e <;> exact nofun

lemma untouched_ne_block (block : List UInt8) : BufferStore.untouched ≠ .block block := by
  simp

lemma null_ne_block (block : List UInt8) : BufferStore.null ≠ .block block := by
  simp

/-- An error with nothing delivered. -/
lemma complete_of_error {r : ReadResult} {events : List FileEvent} {part : List UInt8}
    {e : ErrorCode} (he : e ≠ .ok) (herror : r.error = some e) (hbytes : r.bytes = 0)
    (hbuffer : ∀ block, r.buffer ≠ .block block)
    (hclosed : events.count .closed = if .opened ∈ events then 1 else 0) :
    Complete r events part := by
  have hne : r.error ≠ some .ok := by
    rw [herror]
    exact fun h => he (Option.some.inj h)
  exact ⟨by rw [herror]; exact nofun, fun h => absurd h hne, fun h => absurd h hne,
    fun _ => hbytes, fun _ => hbuffer, hclosed⟩

/-- `LFS_OK` is complete when the bytes and the buffer are. -/
lemma complete_iff_of_ok {r : ReadResult} {events : List FileEvent} {part : List UInt8}
    (herror : r.error = some .ok)
    (hclosed : events.count .closed = if .opened ∈ events then 1 else 0) :
    Complete r events part ↔ r.bytes = part.length ∧
      (part ≠ [] → ∃ block, r.buffer = .block block ∧ block.take part.length = part) := by
  constructor
  · intro h
    exact ⟨h.bytes_eq herror, h.stored herror⟩
  · rintro ⟨hbytes, hstored⟩
    exact ⟨by rw [herror]; exact nofun, fun _ => hbytes, fun _ => hstored,
      fun h => absurd herror h, fun h => absurd herror h, hclosed⟩

/-- A block is complete when it is as long as the slice. -/
lemma complete_block_iff {got part : List UInt8} {events : List FileEvent}
    (h : got.length = part.length → got = part) (nullTerminate : Bool)
    (hclosed : events.count .closed = if .opened ∈ events then 1 else 0) :
    Complete ⟨got.length, some .ok, .block (DirectoryDevice.terminated nullTerminate got)⟩ events
      part ↔ got.length = part.length := by
  rw [complete_iff_of_ok rfl hclosed]
  refine and_iff_left_of_imp fun hlength _ => ⟨_, rfl, ?_⟩
  rw [h hlength]
  exact take_terminated nullTerminate

/-- `LFS_OK` with nothing is complete when there is nothing to deliver. -/
lemma complete_nothing_iff {part : List UInt8} {events : List FileEvent} (buffer : BufferStore)
    (hclosed : events.count .closed = if .opened ∈ events then 1 else 0) :
    Complete ⟨0, some .ok, buffer⟩ events part ↔ part = [] := by
  rw [complete_iff_of_ok rfl hclosed]
  constructor
  · exact fun h => List.length_eq_zero_iff.mp h.1.symm
  · rintro rfl
    exact ⟨rfl, absurd rfl⟩

lemma limit_eq_iff {E : Type} (faults : Faults E) (count : ℕ) :
    faults.limit count = count ↔ ∀ n, faults.transferLimit = some n → count ≤ n := by
  rw [Faults.limit]
  cases faults.transferLimit with
  | none => simp
  | some n =>
    simp only [Option.some.injEq, forall_eq']
    omega

lemma slice_eq_nil_iff : slice bytes offset maxBytes = [] ↔
    (slice bytes offset maxBytes).length = 0 := List.length_eq_zero_iff.symm

section Within

variable (hlen : bytes.length < 2 ^ 63) (hoffset : offset ≤ bytes.length)

include hlen hoffset

/-- Within the file the count is the length of the slice. -/
lemma readCount_eq_length : readCount bytes.length offset maxBytes =
    (slice bytes offset maxBytes).length := by
  rw [readCount_of_le hoffset hlen, Disk.length_slice]

omit hlen in
/-- At the offset the limit alone tells how many bytes there are. -/
lemma length_delivered_of_le {E : Type} (faults : Faults E) {count : ℕ}
    (hcount : count ≤ (slice bytes offset maxBytes).length) :
    (delivered faults bytes offset count).length = faults.limit count := by
  have hlimit := limit_le faults count
  rw [Disk.length_slice] at hcount
  rw [length_delivered]
  omega

omit hlen hoffset in
/-- As many bytes as the slice has are the slice. -/
lemma delivered_eq_slice {E : Type} {faults : Faults E} {count : ℕ}
    (hlimit : faults.limit count = (slice bytes offset maxBytes).length) :
    delivered faults bytes offset count = slice bytes offset maxBytes := by
  rw [delivered, hlimit, Disk.length_slice, Disk.take_slice]

/-- In the POSIX branch all is delivered when there is nothing to deliver, or when the seek
succeeds and the limit does not stop the read. -/
lemma length_delivered_iff (faults : Faults Failure) :
    (delivered faults bytes (seekedPos faults bytes offset)
        (readCount bytes.length offset maxBytes)).length = (slice bytes offset maxBytes).length ↔
      slice bytes offset maxBytes = [] ∨ faults.seekError = none ∧
        ∀ n, faults.transferLimit = some n → (slice bytes offset maxBytes).length ≤ n := by
  have hoff : toOff offset = offset := Disk.toOff_of_lt (Nat.lt_of_le_of_lt hoffset hlen)
  rw [readCount_eq_length hlen hoffset, slice_eq_nil_iff]
  cases hseek : faults.seekError with
  | some e =>
    have hpos : seekedPos faults bytes offset = bytes.length := by
      rw [seekedPos, hseek]
      exact if_pos (Or.inr rfl)
    rw [hpos, length_delivered]
    simp [eq_comm]
  | none =>
    have hpos : seekedPos faults bytes offset = offset := by
      rw [seekedPos, hseek, hoff, if_neg (by simp), Int.toNat_natCast]
    rw [hpos, length_delivered_of_le hoffset faults le_rfl, limit_eq_iff]
    constructor
    · exact fun h => Or.inr ⟨rfl, h⟩
    · rintro (h | ⟨-, h⟩)
      · rw [h]
        exact fun n _ => Nat.zero_le n
      · exact h

/-- The bytes are the slice when they are as many. -/
lemma delivered_eq_slice_of_length {faults : Faults Failure}
    (h : (delivered faults bytes (seekedPos faults bytes offset)
      (readCount bytes.length offset maxBytes)).length = (slice bytes offset maxBytes).length) :
    delivered faults bytes (seekedPos faults bytes offset)
      (readCount bytes.length offset maxBytes) = slice bytes offset maxBytes := by
  rcases (length_delivered_iff hlen hoffset faults).mp h with hnil | ⟨hseek, hlimit⟩
  · rw [hnil, List.length_nil, List.length_eq_zero_iff] at h
    rw [h, hnil]
  · have hlt : offset < 2 ^ 64 := by omega
    rw [delivered, drop_seekedPos hseek hlen hlt, readCount_eq_length hlen hoffset]
    exact delivered_eq_slice ((limit_eq_iff _ _).mpr hlimit)

end Within

/-! ### Complete reads, POSIX -/

lemma count_blockEvents {E : Type} (faults : Faults E) (count : ℕ) (nullTerminate : Bool) :
    (blockEvents faults count nullTerminate).count .closed = 0 := by
  rw [List.count_eq_zero]
  intro h
  rcases mem_blockEvents h with h | h <;> cases h

lemma closed_once_readEvents (faults : Faults Failure) (nullTerminate : Bool) :
    (readEvents faults bytes offset maxBytes nullTerminate).count .closed =
      if .opened ∈ readEvents faults bytes offset maxBytes nullTerminate then 1 else 0 := by
  rw [readEvents]
  split
  · rfl
  · rfl
  · split
    · rfl
    · rw [List.cons_append, List.count_cons_self, List.count_append, count_blockEvents]
      simp

lemma complete_readResult_iff {faults : Faults Failure} (hlen : bytes.length < 2 ^ 63)
    (hoffset : offset ≤ bytes.length) (nullTerminate : Bool) :
    Complete (readResult faults bytes offset maxBytes nullTerminate)
        (readEvents faults bytes offset maxBytes nullTerminate) (slice bytes offset maxBytes) ↔
      faults.openError ≠ none ∨ faults.sizeError ≠ none ∨
        bytes ≠ [] ∧ (slice bytes offset maxBytes = [] ∨ faults.noMemory = false ∧
          (faults.transferError ≠ none ∨ faults.seekError = none ∧
            ∀ n, faults.transferLimit = some n →
              (slice bytes offset maxBytes).length ≤ n)) := by
  have hclosed := @closed_once_readEvents bytes offset maxBytes faults nullTerminate
  rw [readResult]
  cases hopen : faults.openError with
  | some e =>
    exact iff_of_true (complete_of_error (convertError_ne_ok e.val) rfl rfl untouched_ne_block
      hclosed) (Or.inl (Option.some_ne_none e))
  | none =>
  cases hsize : faults.sizeError with
  | some e =>
    exact iff_of_true (complete_of_error (convertError_ne_ok e.val) rfl rfl untouched_ne_block
      hclosed) (Or.inr (Or.inl (Option.some_ne_none e)))
  | none =>
  dsimp only
  by_cases hnil : bytes = []
  · rw [if_pos hnil]
    exact iff_of_false (fun h => h.error_ne rfl) (by simp [hnil])
  rw [if_neg hnil, blockResult]
  simp only [ne_eq, not_true_eq_false, false_or, hnil, not_false_eq_true, true_and]
  cases hmemory : faults.noMemory with
  | true =>
    rw [if_pos rfl, complete_nothing_iff _ hclosed]
    simp
  | false =>
  cases htransfer : faults.transferError with
  | some e =>
    exact iff_of_true (complete_of_error (convertError_ne_ok e.val) rfl rfl null_ne_block
      hclosed) (Or.inr ⟨rfl, Or.inl (Option.some_ne_none e)⟩)
  | none =>
    rw [if_neg Bool.false_ne_true,
      complete_block_iff (delivered_eq_slice_of_length hlen hoffset) nullTerminate hclosed,
      length_delivered_iff hlen hoffset]
    simp

/-! ### Complete reads, Win32 -/

/-- Of a count of 32 bits and more only the low word is asked for. -/
lemma limit_u32_iff {E : Type} (faults : Faults E) (count : ℕ) :
    faults.limit (u32 count) = count ↔
      count = 0 ∨ count < 2 ^ 32 ∧ ∀ n, faults.transferLimit = some n → count ≤ n := by
  by_cases hlt : count < 2 ^ 32
  · rw [u32_of_lt hlt, limit_eq_iff, and_iff_right hlt]
    constructor
    · exact Or.inr
    · rintro (rfl | h)
      · exact fun n _ => Nat.zero_le n
      · exact h
  · have hlimit := limit_le faults (u32 count)
    have hmod : u32 count < 2 ^ 32 := Nat.mod_lt _ (by decide)
    omega

lemma closed_once_readEventsWin32 (faults : Faults WinError) (nullTerminate : Bool) :
    (readEventsWin32 faults bytes offset maxBytes nullTerminate).count .closed =
      if .opened ∈ readEventsWin32 faults bytes offset maxBytes nullTerminate then 1 else 0 := by
  rw [readEventsWin32]
  split
  · rfl
  · rfl
  · split
    · rfl
    · simp

lemma complete_blockResultWin32_iff {faults : Faults WinError} (hlen : bytes.length < 2 ^ 63)
    (hoffset : offset ≤ bytes.length) (nullTerminate : Bool) {events : List FileEvent}
    (hclosed : events.count .closed = if .opened ∈ events then 1 else 0) :
    (∃ r, blockResultWin32 faults bytes offset (readCount bytes.length offset maxBytes)
        nullTerminate = some r ∧ Complete r events (slice bytes offset maxBytes)) ↔
      slice bytes offset maxBytes = [] ∧
          (nullTerminate = true → faults.noMemory = true → faults.transferError ≠ none) ∨
        faults.noMemory = false ∧ faults.transferError = none ∧
          (slice bytes offset maxBytes).length < 2 ^ 32 ∧
          ∀ n, faults.transferLimit = some n → (slice bytes offset maxBytes).length ≤ n := by
  have hmod : u32 (slice bytes offset maxBytes).length ≤ (slice bytes offset maxBytes).length :=
    Nat.mod_le _ _
  have hlength := length_delivered_of_le hoffset faults hmod
  have hlimit := limit_u32_iff faults (slice bytes offset maxBytes).length
  rw [readCount_eq_length hlen hoffset, blockResultWin32]
  have hnothing (buffer : BufferStore) :
      Complete ⟨0, some .ok, buffer⟩ events (slice bytes offset maxBytes) ↔
        slice bytes offset maxBytes = [] := complete_nothing_iff buffer hclosed
  cases hmemory : faults.noMemory with
  | true =>
    cases htransfer : faults.transferError with
    | some e => simp [hnothing]
    | none =>
      by_cases hnil : slice bytes offset maxBytes = []
      · have hdelivered : delivered faults bytes offset
            (u32 (slice bytes offset maxBytes).length) = [] := by
          have hle := limit_le faults (u32 (slice bytes offset maxBytes).length)
          have hzero := slice_eq_nil_iff.mp hnil
          exact List.length_eq_zero_iff.mp (by omega)
        cases nullTerminate with
        | true => simp [hdelivered]
        | false => simp [hnothing]
      · refine iff_of_false ?_ (by simp [hnil])
        rintro ⟨r, hr, hcomplete⟩
        dsimp only at hr
        split at hr
        · cases hr
        · cases hr
          exact hnil ((hnothing _).mp hcomplete)
  | false =>
    cases htransfer : faults.transferError with
    | some e => simp [hnothing]
    | none =>
      have hpart : (delivered faults bytes offset
          (u32 (slice bytes offset maxBytes).length)).length =
            (slice bytes offset maxBytes).length →
          delivered faults bytes offset (u32 (slice bytes offset maxBytes).length) =
            slice bytes offset maxBytes := fun h => delivered_eq_slice (hlength.symm.trans h)
      have hblock := complete_block_iff hpart nullTerminate hclosed
      simp only [Option.some.injEq, exists_eq_left']
      rw [hblock, hlength, hlimit, slice_eq_nil_iff]
      simp

lemma complete_readResultWin32_iff {faults : Faults WinError} (hlen : bytes.length < 2 ^ 63)
    (hoffset : offset ≤ bytes.length) (nullTerminate : Bool) :
    (∃ r, readResultWin32 faults bytes offset maxBytes nullTerminate = some r ∧
        Complete r (readEventsWin32 faults bytes offset maxBytes nullTerminate)
          (slice bytes offset maxBytes)) ↔
      faults.openError ≠ none ∨ faults.sizeError ≠ none ∨ bytes = [] ∨
        faults.seekError = none ∧ offset % 2 ^ 32 ≠ 2 ^ 32 - 1 ∧
          (slice bytes offset maxBytes = [] ∧
              (nullTerminate = true → faults.noMemory = true → faults.transferError ≠ none) ∨
            faults.noMemory = false ∧ faults.transferError = none ∧
              (slice bytes offset maxBytes).length < 2 ^ 32 ∧
              ∀ n, faults.transferLimit = some n →
                (slice bytes offset maxBytes).length ≤ n) := by
  have hclosed := @closed_once_readEventsWin32 bytes offset maxBytes faults nullTerminate
  have hlt : offset < 2 ^ 63 := Nat.lt_of_le_of_lt hoffset hlen
  rw [readResultWin32]
  cases hopen : faults.openError with
  | some e =>
    exact iff_of_true ⟨_, rfl, complete_of_error (by decide) rfl rfl untouched_ne_block hclosed⟩
      (Or.inl (Option.some_ne_none e))
  | none =>
  cases hsize : faults.sizeError with
  | some e =>
    exact iff_of_true ⟨_, rfl, complete_of_error (convertErrorWin32_ne_ok e) rfl rfl
      untouched_ne_block hclosed⟩ (Or.inr (Or.inl (Option.some_ne_none e)))
  | none =>
  dsimp only
  by_cases hnil : bytes = []
  · rw [if_pos hnil]
    have hslice : slice bytes offset maxBytes = [] := by
      rw [hnil, slice, List.drop_nil, List.take_nil]
    exact iff_of_true ⟨_, rfl, (complete_nothing_iff _ hclosed).mpr hslice⟩
      (Or.inr (Or.inr (Or.inl hnil)))
  have hrejected := @seekRejected_iff offset faults hlt
  rw [if_neg hnil]
  by_cases hseek : SeekRejected faults offset
  · rw [if_pos hseek]
    refine iff_of_false ?_ ?_
    · rintro ⟨r, hr, hcomplete⟩
      cases hr
      exact hcomplete.error_ne rfl
    · rintro (h | h | h | ⟨hnone, hlow, -⟩)
      · exact h rfl
      · exact h rfl
      · exact hnil h
      · exact (hrejected.mp hseek).elim (fun h => h hnone) hlow
  · rw [if_neg hseek, Disk.toOff_of_lt hlt, Int.toNat_natCast,
      complete_blockResultWin32_iff hlen hoffset nullTerminate hclosed]
    rw [hrejected, not_or, not_not] at hseek
    simp only [ne_eq, not_true_eq_false, false_or, hnil, hseek, not_false_eq_true, true_and]

/-- **Complete reads.**  `LFS_OK` tells that the slice has been delivered, and an error that
nothing has been, exactly under these conditions on what the calls do.  In the POSIX branch the file
must not be empty, and the lack of memory, a failed seek and a short read must not keep anything
back.  In the Win32 branch the seek must not seem to fail, `ReadFile` must deliver all of it, within
32 bits, and the terminator must not be written through null. -/
theorem readFile_complete_iff (dev : DirectoryDevice) (filePath : CString) (c : FileBytes)
    {offset : ℕ} (hoffset : offset ≤ c.bytes.length) (maxBytes : ℕ) (alloc : Option Allocator)
    (nullTerminate : Bool) :
    (∀ (faults : Faults Failure) (rounds : ℕ), faults.openInterrupts ≤ rounds →
      faults.transferInterrupts ≤ rounds →
      (Complete
          (dev.readFile (posix (dev.getDevicePath filePath)).toPosix rounds filePath offset
            maxBytes alloc nullTerminate (closed (some c) faults)).1
          (dev.readFile (posix (dev.getDevicePath filePath)).toPosix rounds filePath offset
            maxBytes alloc nullTerminate (closed (some c) faults)).2.events
                (slice c.bytes offset maxBytes) ↔
        faults.openError ≠ none ∨ faults.sizeError ≠ none ∨
          c.bytes ≠ [] ∧ (slice c.bytes offset maxBytes = [] ∨ faults.noMemory = false ∧
            (faults.transferError ≠ none ∨ faults.seekError = none ∧
              ∀ n, faults.transferLimit = some n →
                (slice c.bytes offset maxBytes).length ≤ n)))) ∧
    ∀ faults : Faults WinError,
      (∃ r, dev.readFileWin32 (win32 (dev.getDevicePathWin32 filePath)) filePath offset
            maxBytes alloc nullTerminate (closed (some c) faults) = some r ∧
          Complete r.1 r.2.events (slice c.bytes offset maxBytes)) ↔
        faults.openError ≠ none ∨ faults.sizeError ≠ none ∨ c.bytes = [] ∨
          faults.seekError = none ∧ offset % 2 ^ 32 ≠ 2 ^ 32 - 1 ∧
            (slice c.bytes offset maxBytes = [] ∧
                (nullTerminate = true → faults.noMemory = true → faults.transferError ≠ none) ∨
              faults.noMemory = false ∧ faults.transferError = none ∧
                (slice c.bytes offset maxBytes).length < 2 ^ 32 ∧
                ∀ n, faults.transferLimit = some n →
                  (slice c.bytes offset maxBytes).length ≤ n) := by
  constructor
  · intro faults rounds hopen htransfer
    obtain ⟨hresult, hevents⟩ := readFile_posix dev filePath c faults offset maxBytes alloc
      nullTerminate hopen htransfer
    rw [hresult, hevents]
    exact complete_readResult_iff c.length_lt hoffset nullTerminate
  · intro faults
    obtain ⟨hresult, hevents⟩ := readFileWin32_eq dev filePath c faults offset maxBytes alloc
      nullTerminate
    rw [← complete_readResultWin32_iff c.length_lt hoffset nullTerminate, ← hresult]
    constructor
    · rintro ⟨r, hr, hcomplete⟩
      rw [hevents r hr] at hcomplete
      exact ⟨r.1, by rw [hr, Option.map_some], hcomplete⟩
    · rintro ⟨r₁, hr₁, hcomplete⟩
      obtain ⟨r, hr, rfl⟩ := Option.map_eq_some_iff.mp hr₁
      rw [← hevents r hr] at hcomplete
      exact ⟨r, hr, hcomplete⟩

/-- A read that is interrupted twice. -/
theorem readFile_complete_interrupted :
    Complete
      ((DirectoryDevice.new []).readFile (posix [slash, 97]).toPosix 2 [slash, 97] 1 5 none true
        (closed (some ⟨[1, 2, 3], by decide⟩) { transferInterrupts := 2 })).1
      ((DirectoryDevice.new []).readFile (posix [slash, 97]).toPosix 2 [slash, 97] 1 5 none true
        (closed (some ⟨[1, 2, 3], by decide⟩) { transferInterrupts := 2 })).2.events
      (slice [1, 2, 3] 1 5) :=
  ((@readFile_complete_iff (.new []) [slash, 97] ⟨[1, 2, 3], by decide⟩ 1 (by decide) 5 none
    true).1 { transferInterrupts := 2 } 2 (by decide) (by decide)).mpr
      (Or.inr (Or.inr ⟨by decide, Or.inr ⟨rfl, Or.inr ⟨rfl, fun _ => nofun⟩⟩⟩))

/-- Without memory the POSIX branch returns `LFS_OK` and no bytes, and so does the Win32 branch
when the read fails. -/
theorem readFile_not_complete :
    ¬Complete
        ((DirectoryDevice.new []).readFile (posix [slash, 97]).toPosix 0 [slash, 97] 0 3 none false
          (closed (some ⟨[1, 2, 3], by decide⟩) { noMemory := true })).1
        ((DirectoryDevice.new []).readFile (posix [slash, 97]).toPosix 0 [slash, 97] 0 3 none false
          (closed (some ⟨[1, 2, 3], by decide⟩) { noMemory := true })).2.events
        (slice [1, 2, 3] 0 3) ∧
      ¬∃ r, (DirectoryDevice.new []).readFileWin32 (win32 [DirectoryDevice.backslash, 97])
          [slash, 97] 0 3 none false
          (closed (some ⟨[1, 2, 3], by decide⟩) { transferError := some (.other 30) }) = some r ∧
        Complete r.1 r.2.events (slice [1, 2, 3] 0 3) := by
  constructor
  · exact fun h => absurd (h.bytes_eq (by decide)) (by decide)
  · rintro ⟨r, hr, hcomplete⟩
    cases hr
    exact absurd (hcomplete.bytes_eq (by decide)) (by decide)

end SoleFile

end LaminaFS
