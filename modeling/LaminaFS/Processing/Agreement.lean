/-
# Whether EXISTS, SIZE and READ agree

The three lookups of one path, over mounts of directory devices.  Each searches the layers
for the first answer that ends it, and they take different answers for an end: a directory
ends a search for the size but not one for existence, and an empty file ends a search for
the size but not one for the contents.
-/
import LaminaFS.Device.DirectoryFiles
import LaminaFS.Processing.Overlay

namespace LaminaFS

open ByteFiles

/-- A mount of the directory device. -/
def IsDirectory (m : MountInfo DirectoryDevice ByteFiles) : Prop :=
  ∃ rounds writeFile deleteFile createDir deleteDir,
    m.interface = DirectoryDevice.interface posix rounds writeFile deleteFile createDir deleteDir

/-- The disk path that the mount looks at. -/
def layerPath (path : CString) (m : MountInfo DirectoryDevice ByteFiles) : CString :=
  m.device.getDevicePath (m.devicePath path)

/-- What a lookup gets from one layer. -/
structure LayerAnswer where
  code : ErrorCode
  bytes : ℕ
  buffer : BufferStore
deriving DecidableEq, Repr

/-- The answers of a layer, by what is at its path; NOT_FOUND if no code is stored. -/
def layerAnswer (fs : ByteFiles) (nullTerminate : Bool) (l : Lookup) (p : CString) :
    LayerAnswer :=
  match l with
  | .fileExists => ⟨if fs.isFile p then .ok else .notFound, 0, .untouched⟩
  | .fileSize => ⟨(fs.sizeAt p).error.getD .notFound, (fs.sizeAt p).bytes, .untouched⟩
  | .readFile _ => ⟨(fs.readAt nullTerminate p).error.getD .notFound,
      (fs.readAt nullTerminate p).bytes, (fs.readAt nullTerminate p).buffer⟩

/-! ### The three requests -/

/-- The item that `fileExists` submits. -/
def existsItem (path : CString) : WorkItem :=
  { WorkItem.new with operation := .opExists, filename := path }

/-- The item that `fileSize` submits. -/
def sizeItem (path : CString) : WorkItem :=
  { WorkItem.new with operation := .opSize, filename := path }

/-- The item that `readFile` submits. -/
def readItem (path : CString) (alloc : Allocator) (nullTerminate : Bool) : WorkItem :=
  { WorkItem.new with
    operation := .opRead
    filename := path
    allocator := some alloc
    nullTerminate := nullTerminate
    bufferBytes := wholeFile }

/-- The last device call of the request was one on `m`. -/
def AnsweredBy (r : Processed DirectoryDevice ByteFiles)
    (m : MountInfo DirectoryDevice ByteFiles) : Prop :=
  r.calls.getLast?.map Called.mount = some m

section Lookups

variable {fs w : ByteFiles} {nullTerminate : Bool} {l : Lookup} {path dp : CString}
  {m : MountInfo DirectoryDevice ByteFiles} {item : WorkItem} {block : ℕ}

/-- The call on one layer, in a system with the files of `fs`. -/
lemma callLookup_layer (hs : fs.Sized) (hm : IsDirectory m) (hw : SameFiles fs w)
    (hl : ∀ n, l = .readFile n → n = wholeFile) (hcode : item.resultCode = .notFound)
    (hoffset : item.offset = 0) (hnull : item.nullTerminate = nullTerminate) :
    let a := layerAnswer fs nullTerminate l (m.device.getDevicePath dp)
    let r := callLookup l m dp block item w
    SameFiles fs r.world ∧ r.stop = (a.code != .notFound) ∧ r.item.resultCode = a.code ∧
      (l ≠ .fileExists → r.item.bufferBytes = a.bytes) ∧
      r.item.buffer = a.buffer.apply block item.buffer ∧
      r.item.offset = 0 ∧ r.item.nullTerminate = nullTerminate := by
  obtain ⟨rounds, writeFile, deleteFile, createDir, deleteDir, hi⟩ := hm
  cases l with
  | fileExists =>
    simp only [callLookup, hi, DirectoryDevice.interface, DirectoryDevice.fileExists_eq hw,
      layerAnswer, BufferStore.apply]
    cases hf : fs.isFile (m.device.getDevicePath dp) <;> simp [hw, hcode, hoffset, hnull]
  | fileSize =>
    simp only [callLookup, hi, DirectoryDevice.interface, DirectoryDevice.fileSize_eq hw,
      layerAnswer, BufferStore.apply, hcode]
    simp [hw, hoffset, hnull]
  | readFile n =>
    obtain rfl := hl n rfl
    obtain ⟨w', hw', hread⟩ := @DirectoryDevice.readFile_eq fs w m.device dp
      hs hw rounds item.allocator nullTerminate
    simp only [callLookup, hi, DirectoryDevice.interface, layerAnswer, hcode, hoffset, hnull,
      hread]
    simp [hw']

/-- A lookup over directory mounts reports the first answer that is not NOT_FOUND. -/
lemma lookup_layers {mounts : List (MountInfo DirectoryDevice ByteFiles)}
    (hmounts : ∀ m ∈ mounts, IsDirectory m) (hnodup : (mounts.map MountInfo.handle).Nodup)
    (hs : fs.Sized) (hw : SameFiles fs w) (hd : item.dispatch.2 = .lookup l)
    (hl : ∀ n, l = .readFile n → n = wholeFile) (hoffset : item.dispatch.1.offset = 0)
    (hnull : item.dispatch.1.nullTerminate = nullTerminate) :
    ∃ r, processItem (fun _ => mounts) (fun _ w => w) (mounts.length + 1) item w = some r ∧
      match (consulted mounts item.filename).find? fun m =>
          (layerAnswer fs nullTerminate l (layerPath item.filename m)).code != .notFound with
      | none => r.item.resultCode = .notFound
      | some m =>
        AnsweredBy r m ∧
        let a := layerAnswer fs nullTerminate l (layerPath item.filename m)
        r.item.resultCode = a.code ∧ (l ≠ .fileExists → r.item.bufferBytes = a.bytes) ∧
          ∀ bytes, a.buffer = .block bytes → ∃ id, r.item.buffer = some (.block id bytes) := by
  obtain ⟨hname, hcode⟩ := dispatch_lookup hd
  refine ⟨_, processItem_lookup (fun _ => hnodup) (fun _ => ⟨[], by simp⟩) _ hd w
    (Nat.lt_succ_self _), ?_⟩
  simp only [overlaySearch, hname]
  have hdir : ∀ m ∈ consulted mounts item.filename, IsDirectory m := fun m hm =>
    hmounts m (List.mem_reverse.mp (List.mem_of_mem_filter hm))
  -- what stays the same from layer to layer
  let inv : WorkItem × ByteFiles → Prop := fun s => SameFiles fs s.2 ∧
    s.1.resultCode = .notFound ∧ s.1.offset = 0 ∧ s.1.nullTerminate = nullTerminate
  have hcall : ∀ (i : ℕ) (a : MountInfo DirectoryDevice ByteFiles) (s : WorkItem × ByteFiles),
      a ∈ consulted mounts item.filename → inv s → _ := fun i a s ha h =>
    @callLookup_layer fs s.2 nullTerminate l (a.devicePath item.filename) a s.1 i hs (hdir a ha)
      h.1 hl h.2.1 h.2.2.1 h.2.2.2
  rcases @Cursor.search_eq_find _ _ _ (askMount (fun _ w => w) l item.filename)
    (consulted mounts item.filename) 0 (item.dispatch.1, w)
    (fun m => (layerAnswer fs nullTerminate l (layerPath item.filename m)).code != .notFound)
    inv (fun i a s ha h => by rw [askMount_eq]; exact (hcall i a s ha h).2.1)
    (fun i a s ha h hp => by
      obtain ⟨h₁, -, h₃, -, -, h₆, h₇⟩ := hcall i a s ha h
      rw [askMount_eq]
      exact ⟨h₁, h₃.trans (bne_eq_false_iff_eq.mp hp), h₆, h₇⟩)
    ⟨hw, hcode, hoffset, hnull⟩ with ⟨hnone, hinv⟩ | ⟨m, j, s, before, hfind, hinv, hst, hrec⟩
  · rw [hnone]
    exact hinv.2.1
  · rw [hfind]
    have hm := List.mem_of_find?_eq_some hfind
    obtain ⟨-, -, h₃, h₄, h₅, -⟩ := hcall j m s hm hinv
    dsimp only
    rw [AnsweredBy, hrec, hst, askMount_eq]
    refine ⟨by simp, h₃, h₄, fun bytes hb => ⟨j, ?_⟩⟩
    have hbuffer : (layerAnswer fs nullTerminate l
        (m.device.getDevicePath (m.devicePath item.filename))).buffer = .block bytes := hb
    rw [hbuffer] at h₅
    exact h₅

end Lookups

/-! ### Agreement -/

variable {mounts : List (MountInfo DirectoryDevice ByteFiles)} {fs : ByteFiles}
  {path : CString} {alloc : Allocator} {nullTerminate : Bool}

/-- The three requests of one path agree, whatever the open files are at each of them.  If the
file exists then all succeed and answer for the newest consulted layer that holds a regular
file, with its length and its contents; if it does not, neither of the others succeeds. -/
def RequestsAgree (mounts : List (MountInfo DirectoryDevice ByteFiles)) (fs : ByteFiles)
    (path : CString) (alloc : Allocator) (nullTerminate : Bool) : Prop :=
  ∀ w₁ w₂ w₃, SameFiles fs w₁ → SameFiles fs w₂ → SameFiles fs w₃ →
    ∃ r₁ r₂ r₃ : Processed DirectoryDevice ByteFiles,
      processItem (fun _ => mounts) (fun _ w => w) (mounts.length + 1) (existsItem path) w₁ =
        some r₁ ∧
      processItem (fun _ => mounts) (fun _ w => w) (mounts.length + 1) (sizeItem path) w₂ =
        some r₂ ∧
      processItem (fun _ => mounts) (fun _ w => w) (mounts.length + 1)
        (readItem path alloc nullTerminate) w₃ = some r₃ ∧
      (r₁.item.resultCode = .ok →
        r₂.item.resultCode = .ok ∧ r₃.item.resultCode = .ok ∧
        ∃ m bytes,
          (consulted mounts path).find? (fun m => fs.isFile (layerPath path m)) = some m ∧
          fs.node (layerPath path m) = .regular bytes ∧
          AnsweredBy r₁ m ∧ AnsweredBy r₂ m ∧ AnsweredBy r₃ m ∧
          r₂.item.bufferBytes = bytes.length ∧ r₃.item.bufferBytes = bytes.length ∧
          ∃ id, r₃.item.buffer =
            some (.block id (DirectoryDevice.terminated nullTerminate bytes))) ∧
      (r₁.item.resultCode = .notFound →
        r₂.item.resultCode ≠ .ok ∧ r₃.item.resultCode ≠ .ok)

/-- The path is absent, with an `errno` that means so. -/
def Missing (fs : ByteFiles) (p : CString) : Prop :=
  ∃ e, fs.node p = .absent e ∧ convertError e = .notFound

/-- A regular file that is not empty, with memory for its contents. -/
def Whole (fs : ByteFiles) (nullTerminate : Bool) (p : CString) : Prop :=
  ∃ bytes, fs.node p = .regular bytes ∧ bytes ≠ [] ∧
    fs.hasRoom nullTerminate bytes.length = true

/-- READ goes past the path: it is missing, or a directory whose end is at 0 or missing. -/
def Skipped (fs : ByteFiles) (p : CString) : Prop :=
  Missing fs p ∨ (fs.node p = .directory ∧
    (fs.dirEnd p = .ok 0 ∨ ∃ e, fs.dirEnd p = .error e ∧ convertError e = .notFound))

/-- A directory with an end that there is no memory for. -/
def Deceptive (fs : ByteFiles) (nullTerminate : Bool) (p : CString) : Prop :=
  fs.node p = .directory ∧
    ∃ n, fs.dirEnd p = .ok n ∧ n ≠ 0 ∧ fs.hasRoom nullTerminate n = false

/-- The condition on the consulted layers.  Above the first regular file everything is
missing, and that file can be read whole; and if there is no regular file, then READ is not
led to a deceptive directory. -/
def LayersAgree (fs : ByteFiles) (nullTerminate : Bool) (path : CString)
    (layers : List (MountInfo DirectoryDevice ByteFiles)) : Prop :=
  (∀ newer m older, layers = newer ++ m :: older →
    (∀ x ∈ newer, fs.isFile (layerPath path x) = false) →
    fs.isFile (layerPath path m) = true →
    (∀ x ∈ newer, Missing fs (layerPath path x)) ∧
      Whole fs nullTerminate (layerPath path m)) ∧
  ((∀ x ∈ layers, fs.isFile (layerPath path x) = false) →
    ∀ newer m older, layers = newer ++ m :: older →
      (∀ x ∈ newer, Skipped fs (layerPath path x)) →
      ¬ Deceptive fs nullTerminate (layerPath path m))

section Answers

variable {p : CString}

lemma isFile_iff : fs.isFile p = true ↔ ∃ bytes, fs.node p = .regular bytes := by
  unfold isFile
  cases fs.node p <;> simp

lemma Missing.isFile (h : Missing fs p) : fs.isFile p = false := by
  obtain ⟨e, he, -⟩ := h
  simp [ByteFiles.isFile, he]

lemma size_notFound (nullTerminate : Bool) (h : fs.isFile p = false) :
    (layerAnswer fs nullTerminate .fileSize p).code = .notFound ↔ Missing fs p := by
  unfold ByteFiles.isFile at h
  cases hn : fs.node p <;> simp_all [layerAnswer, sizeAt, Missing]

lemma size_ne_ok (h : fs.isFile p = false) :
    (layerAnswer fs nullTerminate .fileSize p).code ≠ .ok := by
  unfold ByteFiles.isFile at h
  cases hn : fs.node p <;> simp_all [layerAnswer, sizeAt, convertError_ne_ok]

lemma size_file {bytes : List UInt8} (h : fs.node p = .regular bytes) :
    layerAnswer fs nullTerminate .fileSize p = ⟨.ok, bytes.length, .untouched⟩ := by
  simp [layerAnswer, sizeAt, h]

lemma read_notFound (nullTerminate : Bool) (h : fs.isFile p = false) :
    (layerAnswer fs nullTerminate (.readFile wholeFile) p).code = .notFound ↔
      Skipped fs p := by
  unfold ByteFiles.isFile at h
  cases hn : fs.node p with
  | absent e => simp [layerAnswer, readAt, Skipped, Missing, hn]
  | directory =>
    cases hd : fs.dirEnd p with
    | error e => simp [layerAnswer, readAt, Skipped, Missing, hn, hd]
    | ok n =>
      by_cases h0 : n = 0
      · simp [layerAnswer, readAt, Skipped, hn, hd, h0]
      · cases hroom : fs.hasRoom nullTerminate n <;>
          simp [layerAnswer, readAt, Skipped, Missing, hn, hd, h0, hroom]
  | regular bytes => simp [hn] at h

lemma read_ok (h : fs.isFile p = false) :
    (layerAnswer fs nullTerminate (.readFile wholeFile) p).code = .ok ↔
      Deceptive fs nullTerminate p := by
  unfold ByteFiles.isFile at h
  cases hn : fs.node p with
  | absent e => simp [layerAnswer, readAt, Deceptive, hn, convertError_ne_ok]
  | directory =>
    cases hd : fs.dirEnd p with
    | error e => simp [layerAnswer, readAt, Deceptive, hn, hd, convertError_ne_ok]
    | ok n =>
      by_cases h0 : n = 0
      · simp [layerAnswer, readAt, Deceptive, hn, hd, h0]
      · cases hroom : fs.hasRoom nullTerminate n <;>
          simp [layerAnswer, readAt, Deceptive, hn, hd, h0, hroom]
  | regular bytes => simp [hn] at h

/-- Reading a regular file gives its bytes only if it can be read whole. -/
lemma read_whole {bytes : List UInt8} (h : fs.node p = .regular bytes) :
    (layerAnswer fs nullTerminate (.readFile wholeFile) p).code ≠ .notFound ∧
        (layerAnswer fs nullTerminate (.readFile wholeFile) p).bytes = bytes.length ↔
      Whole fs nullTerminate p := by
  by_cases h0 : bytes = []
  · simp [layerAnswer, readAt, Whole, h, h0]
  · cases hroom : fs.hasRoom nullTerminate bytes.length <;>
      simp [layerAnswer, readAt, Whole, h, h0, hroom]
    simpa [eq_comm] using h0

lemma read_file {bytes : List UInt8} (h : fs.node p = .regular bytes)
    (hw : Whole fs nullTerminate p) :
    layerAnswer fs nullTerminate (.readFile wholeFile) p =
      ⟨.ok, bytes.length, .block (DirectoryDevice.terminated nullTerminate bytes)⟩ := by
  obtain ⟨bytes', hb, h0, hroom⟩ := hw
  obtain rfl : bytes = bytes' := by simpa [h] using hb
  simp [layerAnswer, readAt, h, h0, hroom]

end Answers

lemma exists_stop (p : CString) :
    ((layerAnswer fs nullTerminate .fileExists p).code != .notFound) = fs.isFile p := by
  cases h : fs.isFile p <;> simp [layerAnswer, h]

/-- What is in front of the first member that is found is not found. -/
lemma not_of_find? {α : Type} {q : α → Bool} {newer older : List α} {m : α}
    (h : (newer ++ m :: older).find? q = some m) (hm : m ∉ newer) :
    ∀ x ∈ newer, q x = false := by
  rw [List.find?_append] at h
  cases hn : newer.find? q with
  | none => simpa using hn
  | some y =>
    rw [hn, Option.some_or] at h
    cases h
    exact absurd (List.mem_of_find?_eq_some hn) hm

section Requests

variable (hmounts : ∀ m ∈ mounts, IsDirectory m) (hnodup : (mounts.map MountInfo.handle).Nodup)
  (hs : fs.Sized)

include hmounts hnodup hs

/-- Under the condition the requests agree. -/
lemma requestsAgree_of_layersAgree
    (h : LayersAgree fs nullTerminate path (consulted mounts path)) :
    RequestsAgree mounts fs path alloc nullTerminate := by
  intro w₁ w₂ w₃ hw₁ hw₂ hw₃
  obtain ⟨r₁, hr₁, ha₁⟩ := @lookup_layers fs w₁ false .fileExists (existsItem path)
    mounts hmounts hnodup hs hw₁ rfl (by simp) rfl rfl
  obtain ⟨r₂, hr₂, ha₂⟩ := @lookup_layers fs w₂ false .fileSize (sizeItem path)
    mounts hmounts hnodup hs hw₂ rfl (by simp) rfl rfl
  obtain ⟨r₃, hr₃, ha₃⟩ := @lookup_layers fs w₃ nullTerminate (.readFile wholeFile)
    (readItem path alloc nullTerminate) mounts hmounts hnodup hs hw₃ rfl (by simp) rfl rfl
  refine ⟨r₁, r₂, r₃, hr₁, hr₂, hr₃, ?_⟩
  simp only [existsItem, sizeItem, readItem, exists_stop] at ha₁ ha₂ ha₃
  generalize consulted mounts path = layers at h ha₁ ha₂ ha₃ ⊢
  cases hfile : layers.find? fun m => fs.isFile (layerPath path m) with
  | none =>
    rw [hfile] at ha₁
    refine ⟨fun hok => by simp [ha₁] at hok, fun _ => ⟨?_, ?_⟩⟩
    · have hno : ∀ x ∈ layers, fs.isFile (layerPath path x) = false := by
        simpa using hfile
      split at ha₂
      · simp [ha₂]
      · rename_i m hm
        rw [ha₂.2.1]
        exact size_ne_ok (hno m (List.mem_of_find?_eq_some hm))
    · have hno : ∀ x ∈ layers, fs.isFile (layerPath path x) = false := by
        simpa using hfile
      split at ha₃
      · simp [ha₃]
      · rename_i m hm
        obtain ⟨-, newer, older, hsplit, hnewer⟩ := List.find?_eq_some_iff_append.mp hm
        rw [ha₃.2.1]
        intro hok
        refine h.2 hno newer m older hsplit (fun x hx => ?_)
          ((read_ok (hno m (by simp [hsplit]))).mp hok)
        exact (read_notFound nullTerminate (hno x (by simp [hsplit, hx]))).mp
          (by simpa using hnewer x hx)
  | some m =>
    rw [hfile] at ha₁
    obtain ⟨hm, newer, older, hsplit, hnewer⟩ := List.find?_eq_some_iff_append.mp hfile
    obtain ⟨hmissing, hwhole⟩ := h.1 newer m older hsplit (by simpa using hnewer) hm
    obtain ⟨bytes, hbytes⟩ := isFile_iff.mp hm
    have hsize : layers.find? (fun m => (layerAnswer fs false .fileSize
        (layerPath path m)).code != .notFound) = some m := by
      refine List.find?_eq_some_iff_append.mpr ⟨by simp [size_file hbytes], newer, older,
        hsplit, fun x hx => ?_⟩
      have := (size_notFound false (hmissing x hx).isFile).mpr (hmissing x hx)
      simp [this]
    have hread : layers.find? (fun m => (layerAnswer fs nullTerminate (.readFile wholeFile)
        (layerPath path m)).code != .notFound) = some m := by
      refine List.find?_eq_some_iff_append.mpr ⟨by simp [read_file hbytes hwhole], newer, older,
        hsplit, fun x hx => ?_⟩
      have := (read_notFound nullTerminate (hmissing x hx).isFile).mpr (Or.inl (hmissing x hx))
      simp [this]
    rw [hsize] at ha₂
    rw [hread] at ha₃
    simp only [size_file hbytes, read_file hbytes hwhole] at ha₂ ha₃
    refine ⟨fun _ => ⟨ha₂.2.1, ha₃.2.1, m, bytes, rfl, hbytes, ha₁.1, ha₂.1, ha₃.1,
      ha₂.2.2.1 (by simp), ha₃.2.2.1 (by simp), ha₃.2.2.2 _ rfl⟩, fun hno => ?_⟩
    rw [ha₁.2.1] at hno
    simp [layerAnswer, hm] at hno

/-- If the requests agree then the condition holds. -/
lemma layersAgree_of_requestsAgree (h : RequestsAgree mounts fs path alloc nullTerminate) :
    LayersAgree fs nullTerminate path (consulted mounts path) := by
  obtain ⟨r₁, hr₁, ha₁⟩ := @lookup_layers fs fs false .fileExists (existsItem path)
    mounts hmounts hnodup hs (.refl fs) rfl (by simp) rfl rfl
  obtain ⟨r₂, hr₂, ha₂⟩ := @lookup_layers fs fs false .fileSize (sizeItem path)
    mounts hmounts hnodup hs (.refl fs) rfl (by simp) rfl rfl
  obtain ⟨r₃, hr₃, ha₃⟩ := @lookup_layers fs fs nullTerminate (.readFile wholeFile)
    (readItem path alloc nullTerminate) mounts hmounts hnodup hs (.refl fs) rfl (by simp) rfl
    rfl
  obtain ⟨s₁, s₂, s₃, hs₁, hs₂, hs₃, hok, hno⟩ := h fs fs fs (.refl fs) (.refl fs) (.refl fs)
  obtain rfl : r₁ = s₁ := Option.some.inj (hr₁.symm.trans hs₁)
  obtain rfl : r₂ = s₂ := Option.some.inj (hr₂.symm.trans hs₂)
  obtain rfl : r₃ = s₃ := Option.some.inj (hr₃.symm.trans hs₃)
  simp only [existsItem, sizeItem, readItem, exists_stop] at ha₁ ha₂ ha₃
  generalize consulted mounts path = layers at ha₁ ha₂ ha₃ hok ⊢
  constructor
  · intro newer m older hsplit hnewer hm
    have hfile : layers.find? (fun m => fs.isFile (layerPath path m)) = some m :=
      List.find?_eq_some_iff_append.mpr ⟨hm, newer, older, hsplit, by simpa using hnewer⟩
    rw [hfile] at ha₁
    obtain ⟨hok₂, hok₃, m', bytes, hm', hbytes, -, hby₂, hby₃, -, hlen, -⟩ :=
      hok (ha₁.2.1.trans (by simp [layerAnswer, hm]))
    obtain rfl : m = m' := Option.some.inj (hfile.symm.trans hm')
    have hmem : m ∉ newer := fun hc => by
      rw [hnewer m hc] at hm
      cases hm
    constructor
    · -- the search for the size has not ended above the file
      split at ha₂
      · rw [ha₂] at hok₂
        cases hok₂
      · rename_i m₂ hm₂
        obtain rfl : m₂ = m := Option.some.inj (ha₂.1.symm.trans hby₂)
        rw [hsplit] at hm₂
        intro x hx
        have := not_of_find? hm₂ hmem x hx
        exact (size_notFound false (hnewer x hx)).mp (by simpa using this)
    · -- and the search for the contents has ended at it, with all its bytes
      split at ha₃
      · rw [ha₃] at hok₃
        cases hok₃
      · rename_i m₃ hm₃
        obtain rfl : m₃ = m := Option.some.inj (ha₃.1.symm.trans hby₃)
        refine (read_whole hbytes).mp ⟨by simpa using List.find?_some hm₃, ?_⟩
        exact (ha₃.2.2.1 (by simp)).symm.trans hlen
  · intro hnone newer m older hsplit hskip hdec
    have hfile : layers.find? (fun m => fs.isFile (layerPath path m)) = none := by
      simpa using hnone
    rw [hfile] at ha₁
    have hmfile := hnone m (by simp [hsplit])
    -- READ passes over the layers in front and succeeds on the directory
    have hread : layers.find? (fun m => (layerAnswer fs nullTerminate (.readFile wholeFile)
        (layerPath path m)).code != .notFound) = some m := by
      refine List.find?_eq_some_iff_append.mpr ⟨by simp [(read_ok hmfile).mpr hdec], newer,
        older, hsplit, fun x hx => ?_⟩
      have := (read_notFound nullTerminate
        (hnone x (by simp [hsplit, hx]))).mpr (hskip x hx)
      simp [this]
    rw [hread] at ha₃
    exact (hno ha₁).2 (ha₃.2.1.trans ((read_ok hmfile).mpr hdec))

/-- **Agreement of lookups.**  The three requests of a path agree exactly when the layers meet
the condition. -/
theorem requestsAgree_iff : RequestsAgree mounts fs path alloc nullTerminate ↔
    LayersAgree fs nullTerminate path (consulted mounts path) :=
  ⟨layersAgree_of_requestsAgree hmounts hnodup hs, requestsAgree_of_layersAgree hmounts hnodup hs⟩

end Requests

/-- A disk with regular files, enough memory, and directories that end at 0. -/
def filesAt (files : List (CString × List UInt8)) : ByteFiles where
  node p :=
    match files.lookup p with
    | some bytes => .regular bytes
    | none => .absent .enoent
  opened _ := ⟨[], 0⟩
  nextFd := 3
  dirEnd _ := .ok 0
  hasMemory _ := true

/-- A directory of the disk, mounted at the root, without the functions that change it. -/
def diskMount (handle : ℕ) (root : CString) : MountInfo DirectoryDevice ByteFiles where
  handle := handle
  prefixStr := [slash]
  device := .new root
  interface := DirectoryDevice.interface posix 0 (fun _ _ _ _ _ _ w => (⟨0, some .unsupported⟩, w))
    (fun _ _ w => (.unsupported, w)) (fun _ _ w => (.unsupported, w))
    (fun _ _ w => (.unsupported, w))
  permissions := .mountRead

lemma isDirectory_diskMount (handle : ℕ) (root : CString) : IsDirectory (diskMount handle root) :=
  ⟨_, _, _, _, _, rfl⟩

lemma sized_filesAt {files : List (CString × List UInt8)}
    (h : ∀ f ∈ files, f.2.length < 2 ^ 63) : (filesAt files).Sized where
  regular p b hp := by
    simp only [filesAt] at hp
    split at hp <;> cases hp
    rename_i hlookup
    obtain ⟨l₁, l₂, rfl, -⟩ := List.lookup_eq_some_iff.mp hlookup
    exact h _ (List.mem_append_right _ List.mem_cons_self)
  directory p n hn := by
    cases hn
    decide

/-- Of three layers the newest one has no file at the path, and the two below it have different
ones. -/
theorem requestsAgree_iff_layers :
    RequestsAgree [diskMount 1 [], diskMount 2 [slash, 98], diskMount 3 [slash, 99]]
      (filesAt [([slash, 97], [7]), ([slash, 98, slash, 97], [8, 9])]) [slash, 97] ⟨0⟩ true := by
  refine (requestsAgree_iff (by simp [isDirectory_diskMount]) (by simp [diskMount])
    (sized_filesAt (by simp))).mpr ?_
  have hlayers : consulted
      [diskMount 1 [], diskMount 2 [slash, 98], diskMount 3 [slash, 99]] [slash, 97] =
      [diskMount 3 [slash, 99], diskMount 2 [slash, 98], diskMount 1 []] := by rfl
  rw [hlayers]
  constructor
  · intro newer m older hsplit hnewer hm
    rcases newer with _ | ⟨m₁, _ | ⟨m₂, newer⟩⟩
    · obtain ⟨rfl, -⟩ := List.cons.inj hsplit
      cases hm
    · obtain ⟨rfl, hrest⟩ := List.cons.inj hsplit
      obtain ⟨rfl, -⟩ := List.cons.inj hrest
      exact ⟨by simpa using ⟨.enoent, rfl, rfl⟩, [8, 9], rfl, by simp, rfl⟩
    · obtain ⟨rfl, hrest⟩ := List.cons.inj hsplit
      obtain ⟨rfl, -⟩ := List.cons.inj hrest
      cases hnewer (diskMount 2 [slash, 98]) (by simp)
  · intro hnone
    cases hnone (diskMount 2 [slash, 98]) (by simp)

/-- The empty file exists and has a size, but reading it reports that there is none. -/
theorem emptyFile_not_requestsAgree :
    ¬ RequestsAgree [diskMount 1 []] (filesAt [([slash, 97], [])]) [slash, 97] ⟨0⟩ false := by
  intro h
  have hlayers := layersAgree_of_requestsAgree (by simp [isDirectory_diskMount]) (by simp)
    (sized_filesAt (by simp)) h
  have hone : consulted [diskMount 1 []] [slash, 97] = [diskMount 1 []] := by rfl
  rw [hone] at hlayers
  obtain ⟨-, bytes, hbytes, hne, -⟩ :=
    hlayers.1 [] (diskMount 1 []) [] rfl (by simp) (by rfl)
  have hempty : (filesAt [([slash, 97], [])]).node (layerPath [slash, 97] (diskMount 1 [])) =
      .regular [] := by rfl
  rw [hempty] at hbytes
  cases hbytes
  exact hne rfl

end LaminaFS
