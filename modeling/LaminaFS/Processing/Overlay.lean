/-
# Lookups search the overlay from the newest mount on

The search loop of EXISTS, SIZE and READ calls `findNextMountAndPath` again and again, with
the mount of the last call as its only memory.  It is a search through a cursor, and the
cursor follows the list of the readable mounts that accept the path, newest first: mounts
that are appended while the loop runs come before the cursor.
-/
import LaminaFS.Lib.Cursor
import LaminaFS.Processing.Item
import Mathlib.Data.List.Nodup

namespace LaminaFS

variable {D W : Type}

/-- The mounts that a lookup of the path may consult, newest first. -/
def consulted (mounts : List (MountInfo D W)) (path : CString) : List (MountInfo D W) :=
  mounts.reverse.filter fun m => m.readable && m.accepts path

/-- What a mount answers to a lookup.  It is asked through the function of its interface that the
lookup is for, with its device path; it ends the search when it has the file, or when it fails in
any other way than with NOT_FOUND. -/
def askMount (drift : ℕ → W → W) (l : Lookup) (path : CString) (i : ℕ) (m : MountInfo D W)
    (s : WorkItem × W) : Cursor.Answer (WorkItem × W) (Called D W) :=
  match l with
  | .fileExists =>
    match m.interface.fileExists m.device (m.devicePath path) (drift i s.2) with
    | (true, w) =>
      ⟨({ s.1 with resultCode := .ok }, w), ⟨m, .fileExists (m.devicePath path), .ok, 0⟩, true⟩
    | (false, w) =>
      ⟨(s.1, w), ⟨m, .fileExists (m.devicePath path), s.1.resultCode, 0⟩, false⟩
  | .fileSize =>
    match m.interface.fileSize m.device (m.devicePath path) (drift i s.2) with
    | (r, w) =>
      let code := r.error.getD s.1.resultCode
      ⟨({ s.1 with bufferBytes := r.bytes, resultCode := code }, w),
        ⟨m, .fileSize (m.devicePath path), code, r.bytes⟩, code != .notFound⟩
  | .readFile maxBytes =>
    match m.interface.readFile m.device (m.devicePath path) s.1.offset maxBytes s.1.allocator
      s.1.nullTerminate (drift i s.2) with
    | (r, w) =>
      let code := r.error.getD s.1.resultCode
      ⟨({ s.1 with
          bufferBytes := r.bytes
          resultCode := code
          buffer := r.buffer.apply i s.1.buffer }, w),
        ⟨m, .readFile (m.devicePath path) s.1.offset maxBytes s.1.allocator s.1.nullTerminate, code,
          r.bytes⟩, code != .notFound⟩

/-- The single search along the consulted mounts. -/
def overlaySearch (mounts : List (MountInfo D W)) (drift : ℕ → W → W) (l : Lookup)
    (item : WorkItem) (w : W) : (WorkItem × W) × List (Called D W) :=
  Cursor.search (askMount drift l item.filename) 0 (consulted mounts item.filename) (item, w)

section Calls

variable {l : Lookup} {m : MountInfo D W} {dp : CString} {block : ℕ} {item : WorkItem} {w : W}

/-- The body of the search loop asks the mount. -/
lemma askMount_eq (drift : ℕ → W → W) (l : Lookup) (path : CString) (i : ℕ)
    (m : MountInfo D W) (s : WorkItem × W) :
    askMount drift l path i m s =
      ⟨((callLookup l m (m.devicePath path) i s.1 (drift i s.2)).item,
          (callLookup l m (m.devicePath path) i s.1 (drift i s.2)).world),
        (callLookup l m (m.devicePath path) i s.1 (drift i s.2)).called,
        (callLookup l m (m.devicePath path) i s.1 (drift i s.2)).stop⟩ := by
  cases l with
  | fileExists =>
    rw [askMount, callLookup]
    generalize m.interface.fileExists m.device (m.devicePath path) (drift i s.2) = r
    obtain ⟨found, w⟩ := r
    cases found <;> rfl
  | fileSize => rfl
  | readFile maxBytes => rfl

@[simp] lemma callLookup_filename :
    (callLookup l m dp block item w).item.filename = item.filename := by
  cases l <;> rfl

@[simp] lemma callLookup_mount : (callLookup l m dp block item w).called.mount = m := by
  cases l <;> rfl

/-- A call that ends the loop leaves its code, which is not NOT_FOUND, and its byte count in
the item. -/
lemma callLookup_stop (h : (callLookup l m dp block item w).stop = true) :
    (callLookup l m dp block item w).called.code ≠ .notFound ∧
      (callLookup l m dp block item w).item.resultCode =
        (callLookup l m dp block item w).called.code ∧
      (l ≠ .fileExists → (callLookup l m dp block item w).item.bufferBytes =
        (callLookup l m dp block item w).called.bytes) := by
  cases l with
  | fileExists =>
    simp only [callLookup] at h ⊢
    simp [h]
  | fileSize =>
    simp only [callLookup, bne_iff_ne] at h
    exact ⟨h, rfl, fun _ => rfl⟩
  | readFile maxBytes =>
    simp only [callLookup, bne_iff_ne] at h
    exact ⟨h, rfl, fun _ => rfl⟩

/-- A call that does not end the loop has the code NOT_FOUND, as has the item. -/
lemma callLookup_go (hitem : item.resultCode = .notFound)
    (h : (callLookup l m dp block item w).stop = false) :
    (callLookup l m dp block item w).called.code = .notFound ∧
      (callLookup l m dp block item w).item.resultCode = .notFound := by
  cases l with
  | fileExists =>
    simp only [callLookup] at h ⊢
    simp [h, hitem]
  | fileSize =>
    simp only [callLookup, bne_eq_false_iff_eq] at h ⊢
    exact ⟨h, h⟩
  | readFile maxBytes =>
    simp only [callLookup, bne_eq_false_iff_eq] at h ⊢
    exact ⟨h, h⟩

end Calls

/-! ### The cursor -/

/-- `findNextMountAndPath` without a restart point gives the newest consulted mount. -/
lemma findNext_none (mounts : List (MountInfo D W)) (path : CString) :
    findNextMountAndPath mounts path none =
      (consulted mounts path).head?.map fun m => (m, m.devicePath path) := by
  rw [findNextMountAndPath, scanNext_none, consulted, List.head?_filter]

/-- A list that ends a filtered list is the filter of what is behind some member. -/
lemma filter_eq_append_cons {α : Type} {p : α → Bool} {l as : List α} {a : α}
    (h : a :: as <:+ l.filter p) : ∃ l₁ l₂, l = l₁ ++ a :: l₂ ∧ as = l₂.filter p := by
  obtain ⟨front, hfront⟩ := h
  obtain ⟨l₁, l₂, rfl, _, h₂⟩ := List.filter_eq_append_iff.mp hfront.symm
  obtain ⟨l₃, l₄, rfl, _, _, h₄⟩ := List.filter_eq_cons_iff.mp h₂
  exact ⟨l₁ ++ l₃, l₄, by simp, h₄.symm⟩

/-- With a consulted mount as the restart point `findNextMountAndPath` gives the consulted
mount behind it, also in a table that has grown. -/
lemma findNext_some {mounts ext : List (MountInfo D W)} {path : CString} {m : MountInfo D W}
    {ms : List (MountInfo D W)} (hnodup : ((mounts ++ ext).map MountInfo.handle).Nodup)
    (h : m :: ms <:+ consulted mounts path) :
    findNextMountAndPath (mounts ++ ext) path (some m.handle) =
      ms.head?.map fun m => (m, m.devicePath path) := by
  have hread : m.readable = true := by
    have hmem : m ∈ consulted mounts path := h.mem (by simp)
    rw [consulted, List.mem_filter, Bool.and_eq_true] at hmem
    exact hmem.2.1
  obtain ⟨newer, older, hsplit, rfl⟩ := filter_eq_append_cons h
  have hrev : (mounts ++ ext).reverse = (ext.reverse ++ newer) ++ m :: older := by
    rw [List.reverse_append, hsplit, List.append_assoc]
  rw [← List.nodup_reverse, ← List.map_reverse, hrev, List.map_append, List.map_cons] at hnodup
  have hdiff : ∀ x ∈ ext.reverse ++ newer, x.handle ≠ m.handle := by
    intro x hx he
    have hdisj := (List.nodup_append.mp hnodup).2.2
    exact hdisj _ (List.mem_map_of_mem hx) _ (by simp) he
  rw [findNextMountAndPath, hrev, scanNext_some hread hdiff, scanNext_none, List.head?_filter]

/-- A table that only grows extends its first state. -/
lemma exists_append_of_grows {tables : ℕ → List (MountInfo D W)}
    (hgrow : ∀ i, ∃ ext, tables (i + 1) = tables i ++ ext) (i : ℕ) :
    ∃ ext, tables i = tables 0 ++ ext := by
  induction i with
  | zero => exact ⟨[], by simp⟩
  | succ i ih =>
    obtain ⟨ext, h⟩ := ih
    obtain ⟨ext', h'⟩ := hgrow i
    exact ⟨ext ++ ext', by rw [h', h, List.append_assoc]⟩

/-- The loop of the source is a search through the cursor `findNextMountAndPath`. -/
lemma lookupLoop_eq_searchBy (tables : ℕ → List (MountInfo D W)) (drift : ℕ → W → W)
    (l : Lookup) (rounds i : ℕ) (searchStart : Option ℕ) (item : WorkItem) (w : W) :
    lookupLoop tables drift l rounds i searchStart item w =
      (Cursor.searchBy
        (fun i k => (findNextMountAndPath (tables i) item.filename k).map Prod.fst)
        MountInfo.handle (askMount drift l item.filename) rounds i searchStart (item, w)).map
        fun r => ⟨r.1.1, r.1.2, false, r.2⟩ := by
  induction rounds generalizing i searchStart item w with
  | zero => rfl
  | succ rounds ih =>
    rw [lookupLoop, Cursor.searchBy]
    cases hf : findNextMountAndPath (tables i) item.filename searchStart with
    | none => rfl
    | some found =>
      obtain ⟨m, dp⟩ := found
      obtain rfl : dp = m.devicePath item.filename := (scanNext_found hf).2.2.2
      simp only [Option.map_some]
      simp only [askMount_eq]
      by_cases hstop :
          (callLookup l m (m.devicePath item.filename) i item (drift i w)).stop = true
      · rw [if_pos hstop, if_pos hstop]
        rfl
      · rw [if_neg hstop, if_neg hstop, ih, callLookup_filename, Option.map_map, Option.map_map]
        rfl

/-- The assignments before the search keep the path and set the code to NOT_FOUND. -/
lemma dispatch_lookup {item : WorkItem} {l : Lookup} (hl : item.dispatch.2 = .lookup l) :
    item.dispatch.1.filename = item.filename ∧ item.dispatch.1.resultCode = .notFound := by
  unfold WorkItem.dispatch at hl ⊢
  split at hl <;> first | exact ⟨rfl, rfl⟩ | cases hl

section Grows

variable {tables : ℕ → List (MountInfo D W)}
  (hnodup : ∀ i, ((tables i).map MountInfo.handle).Nodup)
  (hgrow : ∀ i, ∃ ext, tables (i + 1) = tables i ++ ext)

include hnodup hgrow

/-- Processing a lookup is the single search. -/
lemma processItem_lookup (drift : ℕ → W → W) {item : WorkItem} {l : Lookup}
    (hl : item.dispatch.2 = .lookup l) (w : W) {rounds : ℕ}
    (hrounds : (tables 0).length < rounds) :
    processItem tables drift rounds item w =
      some ⟨(overlaySearch (tables 0) drift l item.dispatch.1 w).1.1,
        (overlaySearch (tables 0) drift l item.dispatch.1 w).1.2, false,
        (overlaySearch (tables 0) drift l item.dispatch.1 w).2⟩ := by
  have hitem : processItem tables drift rounds item w =
      lookupLoop tables drift l rounds 0 none item.dispatch.1 w := by
    unfold processItem
    split
    · rename_i h
      rw [h] at hl
      cases hl
      rw [h]
    · rename_i h
      rw [h] at hl
      cases hl
  generalize item.dispatch.1 = start at hitem ⊢
  rw [hitem, lookupLoop_eq_searchBy, overlaySearch,
    Cursor.searchBy_eq_search (l := consulted (tables 0) start.filename)]
  · rfl
  · simp [findNext_none, Function.comp_def]
  · -- the cursor follows the consulted mounts
    intro j m ms hms
    obtain ⟨ext, hext⟩ := exists_append_of_grows hgrow j
    have := hnodup j
    rw [hext] at this ⊢
    simp [findNext_some this hms, Function.comp_def]
  · refine Nat.lt_of_le_of_lt ?_ hrounds
    simpa [consulted] using List.length_filter_le _ (tables 0).reverse

/-- **Overlay lookup.**  In a table with distinct handles that may grow between the calls, the
loop of a lookup ends, and it is the single search along the readable mounts that accept the
path, newest first, in the table of the first call.  It calls the device functions of the
first so many of these mounts, each once.  Either the last one called has ended it, the codes
of all before it were NOT_FOUND, and its code and byte count are reported; or all have been
called, and the report is NOT_FOUND. -/
theorem lookup_eq_overlaySearch (drift : ℕ → W → W) {item : WorkItem} {l : Lookup}
    (hl : item.dispatch.2 = .lookup l) (w : W) {rounds : ℕ}
    (hrounds : (tables 0).length < rounds) :
    ∃ r : Processed D W, processItem tables drift rounds item w = some r ∧
      ((r.item, r.world), r.calls) = overlaySearch (tables 0) drift l item.dispatch.1 w ∧
      r.calls.map Called.mount <+: consulted (tables 0) item.filename ∧
      ((∃ before last, r.calls = before ++ [last] ∧ (∀ c ∈ before, c.code = .notFound) ∧
          last.code ≠ .notFound ∧ r.item.resultCode = last.code ∧
          (l ≠ .fileExists → r.item.bufferBytes = last.bytes)) ∨
        (r.calls.map Called.mount = consulted (tables 0) item.filename ∧
          (∀ c ∈ r.calls, c.code = .notFound) ∧ r.item.resultCode = .notFound)) := by
  obtain ⟨hname, hcode⟩ := dispatch_lookup hl
  rw [← hname]
  refine ⟨_, processItem_lookup hnodup hgrow drift hl w hrounds, rfl,
    Cursor.map_search_prefix (by simp [askMount_eq]), ?_⟩
  refine Cursor.search_end (fun c : Called D W => c.code = .notFound)
    (fun s : WorkItem × W => s.1.resultCode = .notFound)
    (fun (c : Called D W) (s : WorkItem × W) => c.code ≠ .notFound ∧ s.1.resultCode = c.code ∧
      (l ≠ .fileExists → s.1.bufferBytes = c.bytes))
    (by simp [askMount_eq]) (fun i a s _ h => ?_) (fun i a s hs h => ?_) hcode
  · rw [askMount_eq] at h ⊢
    exact callLookup_stop h
  · rw [askMount_eq] at h ⊢
    exact callLookup_go hs h

end Grows

/-- A lookup that starts on two mounts and meets a third one from its second round on. -/
theorem lookup_eq_overlaySearch_growing :
    ∃ r, processItem
        (fun i => [emptyMount 1 .mountRead, emptyMount 2 .mountRead] ++
          if i = 0 then [] else [emptyMount 3 .mountRead])
        (fun _ w => w) 3 { WorkItem.new with operation := .opSize, filename := [slash] } () =
          some r ∧
      r.calls.map Called.mount <+: [emptyMount 2 .mountRead, emptyMount 1 .mountRead] := by
  obtain ⟨r, hr, -, hcalls, -⟩ := @lookup_eq_overlaySearch Unit Unit
    (fun i => [emptyMount 1 .mountRead, emptyMount 2 .mountRead] ++
      if i = 0 then [] else [emptyMount 3 .mountRead])
    (fun i => by by_cases h : i = 0 <;> simp [h, emptyMount])
    (fun i => by
      by_cases h : i = 0
      · exact ⟨[emptyMount 3 .mountRead], by simp [h]⟩
      · exact ⟨[], by simp [h]⟩)
    (fun _ w => w) { WorkItem.new with operation := .opSize, filename := [slash] } .fileSize rfl
    () 3 (by decide)
  exact ⟨r, hr, hcalls⟩

end LaminaFS
