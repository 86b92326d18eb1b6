/-
# Devices whose life is recorded

A device type that does what another one does, and records in its world when its devices are
created, used and destroyed.  A device gets a number, which the functions of the type are
passed with it, and the number of its type, whose `_destroy` it has to be passed to.

The context cannot see the record: whatever it does with such devices it does, when they are
looked at as the devices that they were made from, with those.
-/
import LaminaFS.Lib.Lifetime
import LaminaFS.Processing.Item

namespace LaminaFS

/-- A device with its number and that of its type. -/
structure Tracked (D : Type) where
  id : ℕ
  kind : ℕ
  device : D

/-- A world with the record of its devices, and the number of the next one. -/
structure Watched (W : Type) where
  world : W
  next : ℕ
  history : List (Lifetime.Event ℕ)

variable {D W : Type}

/-- The world after a call on the device. -/
def Watched.use (w : Watched W) (id : ℕ) (world : W) : Watched W :=
  { w with world := world, history := .used id :: w.history }

namespace DeviceInterface

/-- The device type with the number `k`, with a record of its devices.  A device is created
when the function returns `LFS_OK` and the pointer is not null. -/
def tracked (k : ℕ) (i : DeviceInterface D W) : DeviceInterface (Tracked D) (Watched W) where
  create path w :=
    match i.create path w.world with
    | ((.ok, some device), world) =>
      ((.ok, some ⟨w.next, k, device⟩), ⟨world, w.next + 1, .created w.next k :: w.history⟩)
    | ((code, device), world) =>
      ((code, device.map fun device => ⟨w.next, k, device⟩), { w with world := world })
  destroy t w :=
    { w with world := i.destroy t.device w.world, history := .destroyed t.id k :: w.history }
  fileExists t path w :=
    match i.fileExists t.device path w.world with
    | (found, world) => (found, w.use t.id world)
  fileSize t path w :=
    match i.fileSize t.device path w.world with
    | (r, world) => (r, w.use t.id world)
  readFile t path offset maxBytes alloc nullTerminate w :=
    match i.readFile t.device path offset maxBytes alloc nullTerminate w.world with
    | (r, world) => (r, w.use t.id world)
  writeFile := i.writeFile.map fun f t path offset buffer bytes mode w =>
    match f t.device path offset buffer bytes mode w.world with
    | (r, world) => (r, w.use t.id world)
  deleteFile := i.deleteFile.map fun f t path w =>
    match f t.device path w.world with
    | (code, world) => (code, w.use t.id world)
  createDir := i.createDir.map fun f t path w =>
    match f t.device path w.world with
    | (code, world) => (code, w.use t.id world)
  deleteDir := i.deleteDir.map fun f t path w =>
    match f t.device path w.world with
    | (code, world) => (code, w.use t.id world)

/-- The device type without the record. -/
def untracked (i : DeviceInterface (Tracked D) (Watched W)) : DeviceInterface D W where
  create path w :=
    match i.create path ⟨w, 0, []⟩ with
    | ((code, t), w) => ((code, t.map Tracked.device), w.world)
  destroy device w := (i.destroy ⟨0, 0, device⟩ ⟨w, 0, []⟩).world
  fileExists device path w :=
    match i.fileExists ⟨0, 0, device⟩ path ⟨w, 0, []⟩ with
    | (found, w) => (found, w.world)
  fileSize device path w :=
    match i.fileSize ⟨0, 0, device⟩ path ⟨w, 0, []⟩ with
    | (r, w) => (r, w.world)
  readFile device path offset maxBytes alloc nullTerminate w :=
    match i.readFile ⟨0, 0, device⟩ path offset maxBytes alloc nullTerminate ⟨w, 0, []⟩ with
    | (r, w) => (r, w.world)
  writeFile := i.writeFile.map fun f device path offset buffer bytes mode w =>
    match f ⟨0, 0, device⟩ path offset buffer bytes mode ⟨w, 0, []⟩ with
    | (r, w) => (r, w.world)
  deleteFile := i.deleteFile.map fun f device path w =>
    match f ⟨0, 0, device⟩ path ⟨w, 0, []⟩ with
    | (code, w) => (code, w.world)
  createDir := i.createDir.map fun f device path w =>
    match f ⟨0, 0, device⟩ path ⟨w, 0, []⟩ with
    | (code, w) => (code, w.world)
  deleteDir := i.deleteDir.map fun f device path w =>
    match f ⟨0, 0, device⟩ path ⟨w, 0, []⟩ with
    | (code, w) => (code, w.world)

lemma untracked_tracked (k : ℕ) (i : DeviceInterface D W) : (i.tracked k).untracked = i := by
  obtain ⟨create, destroy, fileExists, fileSize, readFile, writeFile, deleteFile, createDir,
    deleteDir⟩ := i
  have hcreate : ((⟨create, destroy, fileExists, fileSize, readFile, writeFile, deleteFile,
      createDir, deleteDir⟩ : DeviceInterface D W).tracked k).untracked.create = create := by
    funext path w
    simp only [tracked, untracked]
    obtain ⟨⟨code, device⟩, world⟩ := create path w
    cases code <;> cases device <;> rfl
  rw [untracked] at hcreate ⊢
  simp only at hcreate ⊢
  rw [hcreate]
  cases writeFile <;> cases deleteFile <;> cases createDir <;> cases deleteDir <;> rfl

lemma calculatedPermissions_tracked (k : ℕ) (i : DeviceInterface D W)
    (mountPermissions : Permissions) :
    (i.tracked k).calculatedPermissions mountPermissions =
      i.calculatedPermissions mountPermissions := by
  simp only [calculatedPermissions, supportedPermissions, tracked, Option.isSome_map]

end DeviceInterface

namespace MountInfo

/-- The mount without the record. -/
def untracked (m : MountInfo (Tracked D) (Watched W)) : MountInfo D W :=
  ⟨m.handle, m.prefixStr, m.device.device, m.interface.untracked, m.permissions⟩

/-- The device is of the recorded type whose number it has. -/
def IsTracked (m : MountInfo (Tracked D) (Watched W)) : Prop :=
  ∃ i : DeviceInterface D W, m.interface = i.tracked m.device.kind

/-- The number and the type of the device. -/
def object (m : MountInfo (Tracked D) (Watched W)) : ℕ × ℕ := (m.device.id, m.device.kind)

end MountInfo

/-! ### Calls -/

section Calls

variable {m : MountInfo (Tracked D) (Watched W)} {item : WorkItem} {w : Watched W}

/-- A lookup does what it does without the record, and is recorded. -/
lemma callLookup_tracked (hm : m.IsTracked) (l : Lookup) (devicePath : CString) (block : ℕ) :
    callLookup l m devicePath block item w =
      let r := callLookup l m.untracked devicePath block item w.world
      ⟨r.item, w.use m.device.id r.world, r.stop, { r.called with mount := m }⟩ := by
  obtain ⟨i, hi⟩ := hm
  have hu : m.untracked.interface = i := by
    show m.interface.untracked = i
    rw [hi, DeviceInterface.untracked_tracked]
  cases l <;> simp only [callLookup, hu, hi] <;> rfl

lemma callPath_tracked {f : Option (D → CString → W → ErrorCode × W)} {call : DeviceCall}
    {devicePath : CString} :
    callPath (f.map fun f (t : Tracked D) path (w : Watched W) =>
        match f t.device path w.world with
        | (code, world) => (code, w.use t.id world)) call m devicePath item w =
      let r := callPath f call m.untracked devicePath item w.world
      ⟨r.item, if r.nullFunction then w else w.use m.device.id r.world, r.nullFunction,
        { r.called with mount := m }⟩ := by
  cases f <;> rfl

/-- So does a call that writes, unless the function is null. -/
lemma callMutable_tracked (hm : m.IsTracked) (mutation : Mutation) (mode : WriteMode)
    (devicePath : CString) :
    callMutable mutation mode m devicePath item w =
      let r := callMutable mutation mode m.untracked devicePath item w.world
      ⟨r.item, if r.nullFunction then w else w.use m.device.id r.world, r.nullFunction,
        { r.called with mount := m }⟩ := by
  obtain ⟨i, hi⟩ := hm
  have hu : m.untracked.interface = i := by
    show m.interface.untracked = i
    rw [hi, DeviceInterface.untracked_tracked]
  cases mutation with
  | writeFile =>
    simp only [callMutable, hu, hi]
    cases hf : i.writeFile <;> simp only [DeviceInterface.tracked, hf] <;> rfl
  | deleteFile | createDir | deleteDir =>
    simp only [callMutable, hu, hi]
    exact callPath_tracked

/-- A null function leaves the world alone. -/
lemma callMutable_null {m : MountInfo D W} {mutation : Mutation} {mode : WriteMode}
    {devicePath : CString} {w : W}
    (h : (callMutable mutation mode m devicePath item w).nullFunction = true) :
    (callMutable mutation mode m devicePath item w).world = w := by
  cases mutation <;> simp only [callMutable, callPath] at h ⊢ <;> split at h <;> first
    | rfl
    | cases h

/-- `_destroy` does what it does without the record. -/
lemma destroy_tracked (hm : m.IsTracked) :
    m.untracked.interface.destroy m.untracked.device w.world =
      (m.interface.destroy m.device w).world := by
  obtain ⟨i, hi⟩ := hm
  show m.interface.untracked.destroy m.device.device w.world = _
  rw [hi, DeviceInterface.untracked_tracked]
  rfl

/-- `_destroy` is recorded. -/
lemma destroy_history (hm : m.IsTracked) :
    (m.interface.destroy m.device w).next = w.next ∧
      (m.interface.destroy m.device w).history =
        .destroyed m.device.id m.device.kind :: w.history := by
  obtain ⟨i, hi⟩ := hm
  rw [hi]
  exact ⟨rfl, rfl⟩

end Calls

/-! ### New mounts -/

/-- What `makeMount` leaves: a new mount, whose device has been recorded, or nothing. -/
inductive MadeMount (k : ℕ) (w w' : Watched W) :
    Option (MountInfo (Tracked D) (Watched W)) → Prop
  | made (m : MountInfo (Tracked D) (Watched W)) (hm : m.IsTracked)
      (hobject : m.object = (w.next, k)) (hnext : w'.next = w.next + 1)
      (hhistory : w'.history = .created w.next k :: w.history) : MadeMount k w w' (some m)
  | none (hnext : w'.next = w.next) (hhistory : w'.history = w.history) : MadeMount k w w' none

section Mounts

variable (interfaces : List (DeviceInterface D W)) (args : MountArgs) (handle : ℕ)
  (w : Watched W)

lemma makeMount_made : MadeMount args.deviceType w
    (makeMount (interfaces.mapIdx DeviceInterface.tracked) args handle w).2
    (makeMount (interfaces.mapIdx DeviceInterface.tracked) args handle w).1.2 := by
  unfold makeMount
  rw [List.getElem?_mapIdx]
  cases interfaces[args.deviceType]? with
  | none => exact .none rfl rfl
  | some i =>
    dsimp only [Option.map_some]
    split
    · exact .none rfl rfl
    · simp only [DeviceInterface.tracked]
      obtain ⟨⟨code, device⟩, world⟩ := i.create args.devicePath w.world
      cases code <;> cases device <;> first
        | exact .none rfl rfl
        | exact .made _ ⟨i, rfl⟩ rfl rfl rfl

/-- `makeMount` does what it does without the record. -/
lemma makeMount_tracked :
    makeMount interfaces args handle w.world =
      let r := makeMount (interfaces.mapIdx DeviceInterface.tracked) args handle w
      ((r.1.1, r.1.2.map MountInfo.untracked), r.2.world) := by
  unfold makeMount
  rw [List.getElem?_mapIdx]
  cases interfaces[args.deviceType]? with
  | none => rfl
  | some i =>
    dsimp only [Option.map_some]
    rw [DeviceInterface.calculatedPermissions_tracked]
    split
    · rfl
    · have hu := i.untracked_tracked args.deviceType
      simp only [DeviceInterface.tracked] at hu ⊢
      obtain ⟨⟨code, device⟩, world⟩ := i.create args.devicePath w.world
      cases code <;> cases device <;> first
        | rfl
        | simp [MountInfo.untracked, hu]

end Mounts

end LaminaFS
