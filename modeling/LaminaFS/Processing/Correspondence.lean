/-
# Device types that cannot be told apart

Two device types over different worlds correspond when their functions, called in worlds that
correspond with devices that do, answer alike and leave worlds that correspond.  What the processing
thread and `createMount` do with the one is then what they do with the other.
-/
import LaminaFS.Processing.Overlay

namespace LaminaFS

variable {D D' W W' : Type}

/-! ### Calls one after the other -/

/-- The device path of a call. -/
def DeviceCall.devicePath : DeviceCall → CString
  | .fileExists devicePath | .fileSize devicePath | .readFile devicePath .. |
    .writeFile devicePath .. | .deleteFile devicePath | .createDir devicePath |
    .deleteDir devicePath => devicePath

/-- What a device function gives back. -/
inductive DeviceAnswer where
  | found (exists_ : Bool)
  | size (result : SizeResult)
  | read (result : ReadResult)
  | write (result : WriteResult)
  | code (result : ErrorCode)
  | nullFunction
deriving DecidableEq, Repr

namespace DeviceInterface

/-- The answer of a function that takes a path and returns a code, if there is one. -/
def codeOf (function : Option (D → CString → W → ErrorCode × W)) (x : D) (path : CString) (w : W) :
    DeviceAnswer × W :=
  match function with
  | none => (.nullFunction, w)
  | some f => Prod.map .code id (f x path w)

/-- The call of a device function. -/
def call (i : DeviceInterface D W) (x : D) : DeviceCall → W → DeviceAnswer × W
  | .fileExists path, w => Prod.map .found id (i.fileExists x path w)
  | .fileSize path, w => Prod.map .size id (i.fileSize x path w)
  | .readFile path offset maxBytes alloc nullTerminate, w =>
    Prod.map .read id (i.readFile x path offset maxBytes alloc nullTerminate w)
  | .writeFile path offset buffer bufferBytes mode, w =>
    match i.writeFile with
    | none => (.nullFunction, w)
    | some f => Prod.map .write id (f x path offset buffer bufferBytes mode w)
  | .deleteFile path, w => codeOf i.deleteFile x path w
  | .createDir path, w => codeOf i.createDir x path w
  | .deleteDir path, w => codeOf i.deleteDir x path w

/-- Calls on several devices, one after the other. -/
def run (i : DeviceInterface D W) : List (D × DeviceCall) → W → List DeviceAnswer × W
  | [], w => ([], w)
  | c :: cs, w =>
    let r := i.call c.1 c.2 w
    let later := i.run cs r.2
    (r.1 :: later.1, later.2)

end DeviceInterface

/-! ### The correspondence -/

/-- What corresponds, which root paths devices are created with and which device paths they are
called with. -/
structure Correspondence (D D' W W' : Type) where
  device : D → D' → Prop
  world : W → W' → Prop
  root : CString → Prop
  path : CString → Prop

namespace Correspondence

variable (R : Correspondence D D' W W')

/-- The same answer, and worlds that correspond. -/
def Alike {α : Type} (f : W → α × W) (f' : W' → α × W') : Prop :=
  ∀ w w', R.world w w' → ∃ a v v', f w = (a, v) ∧ f' w' = (a, v') ∧ R.world v v'

/-- Functions of devices that are alike at the device paths. -/
def AlikeAt {α : Type} (f : D → CString → W → α × W) (f' : D' → CString → W' → α × W') : Prop :=
  ∀ x x', R.device x x' → ∀ path, R.path path → R.Alike (f x path) (f' x' path)

/-- Device types that correspond. -/
structure Interfaces (i : DeviceInterface D W) (i' : DeviceInterface D' W') : Prop where
  create : ∀ path, R.root path → ∀ w w', R.world w w' → ∃ code x x' v v',
    i.create path w = ((code, x), v) ∧ i'.create path w' = ((code, x'), v') ∧
      Option.Rel R.device x x' ∧ R.world v v'
  destroy : ∀ x x', R.device x x' → ∀ w w', R.world w w' →
    R.world (i.destroy x w) (i'.destroy x' w')
  fileExists : R.AlikeAt i.fileExists i'.fileExists
  fileSize : R.AlikeAt i.fileSize i'.fileSize
  readFile : ∀ offset maxBytes alloc nullTerminate,
    R.AlikeAt (fun x path => i.readFile x path offset maxBytes alloc nullTerminate)
      fun x' path => i'.readFile x' path offset maxBytes alloc nullTerminate
  writeFile : Option.Rel
    (fun f f' => ∀ offset buffer count mode,
      R.AlikeAt (fun x path => f x path offset buffer count mode)
        fun x' path => f' x' path offset buffer count mode) i.writeFile i'.writeFile
  deleteFile : Option.Rel R.AlikeAt i.deleteFile i'.deleteFile
  createDir : Option.Rel R.AlikeAt i.createDir i'.createDir
  deleteDir : Option.Rel R.AlikeAt i.deleteDir i'.deleteDir

/-- Mounts that correspond. -/
structure Mounts (m : MountInfo D W) (m' : MountInfo D' W') : Prop where
  handle : m.handle = m'.handle
  prefixStr : m.prefixStr = m'.prefixStr
  device : R.device m.device m'.device
  interface : R.Interfaces m.interface m'.interface
  permissions : m.permissions = m'.permissions

variable {R} {m : MountInfo D W} {m' : MountInfo D' W'} {w : W} {w' : W'}

namespace Mounts

lemma accepts (h : R.Mounts m m') (path : CString) : m.accepts path = m'.accepts path := by
  rw [MountInfo.accepts, MountInfo.prefixLen, h.prefixStr]
  rfl

lemma devicePath (h : R.Mounts m m') (path : CString) :
    m.devicePath path = m'.devicePath path := by
  rw [MountInfo.devicePath, MountInfo.prefixLen, h.prefixStr]
  rfl

lemma readable (h : R.Mounts m m') : m.readable = m'.readable := by
  rw [MountInfo.readable, h.permissions]
  rfl

end Mounts

/-! ### Calls of device functions -/

section Calls

variable {path : CString} {item : WorkItem}

/-- A lookup function does the same on both. -/
lemma callLookup_alike (h : R.Mounts m m') (hpath : R.path path) (hw : R.world w w')
    (l : Lookup) (block : ℕ) (item : WorkItem) :
    (callLookup l m path block item w).item = (callLookup l m' path block item w').item ∧
      (callLookup l m path block item w).stop = (callLookup l m' path block item w').stop ∧
      R.world (callLookup l m path block item w).world
        (callLookup l m' path block item w').world := by
  cases l with
  | fileExists =>
    obtain ⟨_, v, v', hf, hf', hv⟩ := h.interface.fileExists _ _ h.device path hpath w w' hw
    rw [callLookup, callLookup, hf, hf']
    exact ⟨rfl, rfl, hv⟩
  | fileSize =>
    obtain ⟨_, v, v', hf, hf', hv⟩ := h.interface.fileSize _ _ h.device path hpath w w' hw
    rw [callLookup, callLookup, hf, hf']
    exact ⟨rfl, rfl, hv⟩
  | readFile maxBytes =>
    obtain ⟨_, v, v', hf, hf', hv⟩ := h.interface.readFile item.offset maxBytes item.allocator
      item.nullTerminate _ _ h.device path hpath w w' hw
    dsimp only at hf hf'
    rw [callLookup, callLookup, hf, hf']
    exact ⟨rfl, rfl, hv⟩

/-- A mutating function, if there is one, does the same on both. -/
lemma callPath_alike {f : Option (D → CString → W → ErrorCode × W)}
    {f' : Option (D' → CString → W' → ErrorCode × W')} (hf : Option.Rel R.AlikeAt f f')
    (h : R.Mounts m m') (hpath : R.path path) (hw : R.world w w') (call : DeviceCall) :
    (callPath f call m path item w).item = (callPath f' call m' path item w').item ∧
      (callPath f call m path item w).nullFunction =
        (callPath f' call m' path item w').nullFunction ∧
      R.world (callPath f call m path item w).world
        (callPath f' call m' path item w').world := by
  cases hf with
  | none => exact ⟨rfl, rfl, hw⟩
  | some hf =>
    obtain ⟨_, v, v', hf, hf', hv⟩ := hf _ _ h.device path hpath w w' hw
    rw [callPath, callPath, hf, hf']
    exact ⟨rfl, rfl, hv⟩

lemma callMutable_alike (h : R.Mounts m m') (hpath : R.path path) (hw : R.world w w')
    (mutation : Mutation) (mode : WriteMode) :
    (callMutable mutation mode m path item w).item =
        (callMutable mutation mode m' path item w').item ∧
      (callMutable mutation mode m path item w).nullFunction =
        (callMutable mutation mode m' path item w').nullFunction ∧
      R.world (callMutable mutation mode m path item w).world
        (callMutable mutation mode m' path item w').world := by
  cases mutation with
  | writeFile =>
    have hrel := h.interface.writeFile
    rw [callMutable, callMutable]
    revert hrel
    generalize m.interface.writeFile = f
    generalize m'.interface.writeFile = f'
    intro hrel
    cases hrel with
    | none => exact ⟨rfl, rfl, hw⟩
    | some hrel =>
      obtain ⟨_, v, v', hf, hf', hv⟩ := hrel item.offset item.buffer item.bufferBytes mode
        _ _ h.device path hpath w w' hw
      dsimp only at hf hf' ⊢
      rw [hf, hf']
      exact ⟨rfl, rfl, hv⟩
  | deleteFile => exact callPath_alike h.interface.deleteFile h hpath hw _
  | createDir => exact callPath_alike h.interface.createDir h hpath hw _
  | deleteDir => exact callPath_alike h.interface.deleteDir h hpath hw _

end Calls

section Runs

variable {i : DeviceInterface D W} {i' : DeviceInterface D' W'}

lemma codeOf_alike {f : Option (D → CString → W → ErrorCode × W)}
    {f' : Option (D' → CString → W' → ErrorCode × W')} (hf : Option.Rel R.AlikeAt f f')
    {x : D} {x' : D'} (hx : R.device x x') {path : CString} (hpath : R.path path) :
    R.Alike (DeviceInterface.codeOf f x path) (DeviceInterface.codeOf f' x' path) := by
  intro w w' hw
  cases hf with
  | none => exact ⟨_, w, w', rfl, rfl, hw⟩
  | some hf =>
    obtain ⟨a, v, v', hv, hv', hworld⟩ := hf x x' hx path hpath w w' hw
    exact ⟨.code a, v, v', by rw [DeviceInterface.codeOf, hv]; rfl,
      by rw [DeviceInterface.codeOf, hv']; rfl, hworld⟩

/-- The step lemma. -/
lemma call_alike (h : R.Interfaces i i') {x : D} {x' : D'} (hx : R.device x x')
    {c : DeviceCall} (hc : R.path c.devicePath) : R.Alike (i.call x c) (i'.call x' c) := by
  have hmap {α : Type} {f : W → α × W} {f' : W' → α × W'} (hf : R.Alike f f')
      (g : α → DeviceAnswer) :
      R.Alike (fun w => Prod.map g id (f w)) fun w => Prod.map g id (f' w) := by
    intro w w' hw
    obtain ⟨a, v, v', hv, hv', hworld⟩ := hf w w' hw
    dsimp only
    rw [hv, hv']
    exact ⟨g a, v, v', rfl, rfl, hworld⟩
  cases c with
  | fileExists path => exact hmap (h.fileExists x x' hx path hc) _
  | fileSize path => exact hmap (h.fileSize x x' hx path hc) _
  | readFile path offset maxBytes alloc nullTerminate =>
    exact hmap (h.readFile offset maxBytes alloc nullTerminate x x' hx path hc) _
  | writeFile path offset buffer bufferBytes mode =>
    have hrel := h.writeFile
    intro w w' hw
    rw [DeviceInterface.call, DeviceInterface.call]
    revert hrel
    generalize i.writeFile = f
    generalize i'.writeFile = f'
    intro hrel
    cases hrel with
    | none => exact ⟨_, w, w', rfl, rfl, hw⟩
    | some hf =>
      exact hmap (hf offset buffer bufferBytes mode x x' hx path hc) .write w w' hw
  | deleteFile path => exact codeOf_alike h.deleteFile hx hc
  | createDir path => exact codeOf_alike h.createDir hx hc
  | deleteDir path => exact codeOf_alike h.deleteDir hx hc

/-- The run lemma. -/
lemma run_alike (h : R.Interfaces i i') {cs : List (D × DeviceCall)}
    {cs' : List (D' × DeviceCall)}
    (hcs : List.Forall₂ (fun c c' => R.device c.1 c'.1 ∧ c.2 = c'.2 ∧ R.path c.2.devicePath) cs
      cs') : R.Alike (i.run cs) (i'.run cs') := by
  induction hcs with
  | nil => exact fun w w' hw => ⟨_, w, w', rfl, rfl, hw⟩
  | @cons c c' _ _ hc _ ih =>
    obtain ⟨hx, heq, hpath⟩ := hc
    intro w w' hw
    obtain ⟨a, v, v', hv, hv', hworld⟩ := call_alike h hx hpath w w' hw
    obtain ⟨as, u, u', hu, hu', hworld⟩ := ih v v' hworld
    refine ⟨a :: as, u, u', ?_, ?_, hworld⟩
    · rw [DeviceInterface.run, hv, hu]
    · rw [DeviceInterface.run, ← heq, hv', hu']

end Runs

/-! ### Mount tables -/

section Tables

variable {mounts : List (MountInfo D W)} {mounts' : List (MountInfo D' W')} {path : CString}

/-- The first mounts with a property that corresponding mounts share correspond. -/
lemma find_alike {l : List (MountInfo D W)} {l' : List (MountInfo D' W')}
    (h : List.Forall₂ R.Mounts l l') {p : MountInfo D W → Bool} {p' : MountInfo D' W' → Bool}
    (hp : ∀ m m', R.Mounts m m' → p m = p' m') :
    Option.Rel R.Mounts (l.find? p) (l'.find? p') := by
  induction h with
  | nil => exact .none
  | cons hm _ ih =>
    rw [List.find?_cons, List.find?_cons, hp _ _ hm]
    split
    · exact .some hm
    · exact ih

lemma consulted_alike (h : List.Forall₂ R.Mounts mounts mounts') (path : CString) :
    List.Forall₂ R.Mounts (consulted mounts path) (consulted mounts' path) := by
  refine List.rel_filter ?_ (List.rel_reverse h)
  intro m m' hm
  dsimp only
  rw [hm.readable, hm.accepts]

/-- The mounts that `findMutableMountAndPath` finds correspond, and the device paths are the
same. -/
lemma findMutable_alike (h : List.Forall₂ R.Mounts mounts mounts') (path : CString)
    (op : Operation) :
    (findMutableMountAndPath mounts path op = none ∧
        findMutableMountAndPath mounts' path op = none) ∨
      ∃ m ∈ mounts, ∃ m', R.Mounts m m' ∧ m.accepts path = true ∧
        findMutableMountAndPath mounts path op = some (m, m.devicePath path) ∧
        findMutableMountAndPath mounts' path op = some (m', m.devicePath path) := by
  rw [findMutableMountAndPath, findMutableMountAndPath, scanMutable_eq, scanMutable_eq]
  have hp (m : MountInfo D W) (m' : MountInfo D' W') (hm : R.Mounts m m') :
      (m.accepts path && !passedOver op m.permissions) =
        (m'.accepts path && !passedOver op m'.permissions) := by
    rw [hm.accepts, hm.permissions]
  have hrel := find_alike (List.rel_reverse h) hp
  cases hfind : mounts.reverse.find? fun m => m.accepts path && !passedOver op m.permissions with
  | none =>
    rw [hfind] at hrel
    cases hfind' : mounts'.reverse.find?
        fun m => m.accepts path && !passedOver op m.permissions with
    | none => exact Or.inl ⟨rfl, rfl⟩
    | some m' =>
      rw [hfind'] at hrel
      cases hrel
  | some m =>
    rw [hfind] at hrel
    cases hfind' : mounts'.reverse.find?
        fun m => m.accepts path && !passedOver op m.permissions with
    | none =>
      rw [hfind'] at hrel
      cases hrel
    | some m' =>
      rw [hfind'] at hrel
      cases hrel with
      | some hm =>
        have hp := List.find?_some hfind
        rw [Bool.and_eq_true] at hp
        exact Or.inr ⟨m, List.mem_reverse.mp (List.mem_of_find?_eq_some hfind), m', hm, hp.1, rfl,
          by rw [Option.map_some, hm.devicePath]⟩

/-- What the mutating cases do. -/
lemma processMutation_alike (h : List.Forall₂ R.Mounts mounts mounts') (hw : R.world w w')
    (mutation : Mutation) {item : WorkItem}
    (hpath : ∀ m ∈ mounts, m.accepts item.filename = true → R.path (m.devicePath item.filename)) :
    (processMutation mounts mutation item w).item =
        (processMutation mounts' mutation item w').item ∧
      (processMutation mounts mutation item w).nullFunction =
        (processMutation mounts' mutation item w').nullFunction ∧
      R.world (processMutation mounts mutation item w).world
        (processMutation mounts' mutation item w').world := by
  rw [processMutation, processMutation]
  rcases findMutable_alike h item.filename item.operation with
    ⟨hnone, hnone'⟩ | ⟨m, hmem, m', hm, hacc, hfound, hfound'⟩
  · rw [hnone, hnone']
    exact ⟨rfl, rfl, hw⟩
  · rw [hfound, hfound']
    exact callMutable_alike hm (hpath m hmem hacc) hw mutation item.writeMode

end Tables

/-! ### `createMount` -/

/-- The interfaces of corresponding device types that are registered support the same. -/
lemma Interfaces.supportedPermissions {i : DeviceInterface D W} {i' : DeviceInterface D' W'}
    (h : R.Interfaces i i') : i.supportedPermissions = i'.supportedPermissions := by
  have hsome {α β : Type} {r : α → β → Prop} {o : Option α} {o' : Option β}
      (ho : Option.Rel r o o') : o.isSome = o'.isSome := by
    cases ho <;> rfl
  rw [DeviceInterface.supportedPermissions, DeviceInterface.supportedPermissions,
    hsome h.writeFile, hsome h.deleteFile, hsome h.createDir, hsome h.deleteDir]

/-- `createMount` makes mounts that correspond. -/
lemma makeMount_alike {interfaces : List (DeviceInterface D W)}
    {interfaces' : List (DeviceInterface D' W')}
    (h : List.Forall₂ R.Interfaces interfaces interfaces')
    (hw : R.world w w') {args : MountArgs} (hroot : R.root args.devicePath) (handle : ℕ) :
    (makeMount interfaces args handle w).1.1 = (makeMount interfaces' args handle w').1.1 ∧
      Option.Rel R.Mounts (makeMount interfaces args handle w).1.2
        (makeMount interfaces' args handle w').1.2 ∧
      R.world (makeMount interfaces args handle w).2
        (makeMount interfaces' args handle w').2 := by
  have hget : Option.Rel R.Interfaces interfaces[args.deviceType]?
      interfaces'[args.deviceType]? := by
    generalize args.deviceType = n
    induction h generalizing n with
    | nil => exact .none
    | cons hi _ ih =>
      cases n with
      | zero => exact .some hi
      | succ n => exact ih n
  rw [makeMount, makeMount]
  revert hget
  generalize interfaces[args.deviceType]? = found
  generalize interfaces'[args.deviceType]? = found'
  intro hget
  cases hget with
  | none => exact ⟨rfl, .none, hw⟩
  | @some i i' hi =>
    have hperm : i.calculatedPermissions args.mountPermissions =
        i'.calculatedPermissions args.mountPermissions := by
      rw [DeviceInterface.calculatedPermissions, DeviceInterface.calculatedPermissions,
        hi.supportedPermissions]
    dsimp only
    rw [hperm]
    split
    · exact ⟨rfl, .none, hw⟩
    · obtain ⟨code, x, x', v, v', hmade, hmade', hdevice, hv⟩ :=
        hi.create args.devicePath hroot w w' hw
      rw [hmade, hmade']
      cases hdevice with
      | none => cases code <;> exact ⟨rfl, .none, hv⟩
      | some hdevice =>
        cases code <;> first
          | exact ⟨rfl, .some ⟨rfl, rfl, hdevice, hi, rfl⟩, hv⟩
          | exact ⟨rfl, .none, hv⟩

end Correspondence

end LaminaFS
