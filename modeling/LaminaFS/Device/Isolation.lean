/-
# Devices on one disk do not see each other

What directory devices answer, called one after the other in any order, is what folders answer that
have been taken off the disk.  So nothing that is done through a device, and nothing that is
different elsewhere on the disk, can be noticed through another one.
-/
import LaminaFS.Device.Sandbox
import LaminaFS.Device.TreeDisk

namespace LaminaFS

/-- A call on a device of a layout, with one of the device paths that requests have. -/
def Layout.Allows (plat : Platform) (l : Layout) (c : (CString × List CString) × DeviceCall) :
    Prop :=
  c.1 ∈ l ∧ l.Takes plat c.2.devicePath

instance : DecidablePred Contained := fun dp => inferInstanceAs (Decidable (_ ∧ (_ ∨
  ∀ c ∈ (dp.splitOn slash).tail, c ≠ [] ∧ c ≠ [dot] ∧ c ≠ [dot, dot])))

instance (plat : Platform) (l : Layout) : DecidablePred (l.Takes plat) :=
  fun _ => inferInstanceAs (Decidable (_ ∧ ∀ r ∈ l, plat.Accepts _))

instance (plat : Platform) (l : Layout) : DecidablePred (l.Allows plat) :=
  fun _ => inferInstanceAs (Decidable (_ ∧ _))

variable {W : Type} {plat : Platform} {os : DirectoryCalls W} {fs : FileSystem plat os}
  {l : Layout} {w : W} {rounds : ℕ} {cs : List ((CString × List CString) × DeviceCall)}

/-- The run on the disk goes on as the run on the folders. -/
lemma run_devices (rounds : ℕ) (hl : l.Sound plat (fs.entries w))
    (hcs : ∀ c ∈ cs, l.Allows plat c) :
    ∃ answers w' u,
      (DirectoryDevice.registered os rounds).run (cs.map fun c => (.new c.1.1, c.2)) w =
        (answers, w') ∧
      (Folders.interface plat l).run (cs.map fun c => (c.1.2, c.2)) (fs.entries w).below =
        (answers, u) ∧
      Holds plat l (fs.entries w) (fs.entries w') u := by
  refine Correspondence.run_alike (registered_alike hl) ?_ w (fs.entries w).below (Holds.start hl)
  rw [List.forall₂_map_left_iff, List.forall₂_map_right_iff, List.forall₂_same]
  exact fun c hc => ⟨⟨c.1.1, (hcs c hc).1, rfl⟩, rfl, (hcs c hc).2⟩

/-- The directory `/a` with the file `f`, and the directory `/b`, which is empty. -/
def smallDisk : TreeDisk where
  tree := .dir (.dir [97] (.leaf [102] ⟨[1, 2], by decide⟩ .nil) (.dir [98] .nil .nil))
  distinct := by simp [NamedTree.Distinct, Forest.Distinct, Forest.names]
  root := rfl
  opened _ := ⟨[], 0, false, false⟩
  nextFd := 3

/-- The values of Linux on an `ext4` file system; the working directory is the root directory. -/
def smallPlatform : Platform where
  workingDir := []
  pathMax := 4096
  nameMax := 255
  readSize pos count := if pos + count < 2 ^ 63 then .ok 2147479552 else .error .einval
  readSize_ne pos count := by split <;> nofun
  writeSize pos place count :=
    if 2 ^ 63 ≤ pos + count then .error .einval
    else if place + 1 < 2 ^ 63 then .ok (min 2147479552 (2 ^ 63 - 1 - place))
    else if count = 0 then .ok 0 else .error (.other 27)
  writeSize_ne pos place count := by split_ifs <;> nofun
  writeSize_fits pos place count n hplace h := by
    split_ifs at h
    · cases h
      omega
    · cases h
      omega
  dirEnd _ _ := .ok (2 ^ 63 - 1)
  createSlash _ := .eisdir
  createSlash_ne _ := nofun
  unlinkDirectory := .eisdir
  hasMemory _ := true

/-- A device with the root path `/a`, and one with `b/`. -/
def smallLayout : Layout := [([slash, 97], [[97]]), ([98, slash], [[98]])]

/-- A directory is made and a file written through the second device, while the directory of the
first one is removed and made again. -/
def smallCalls : List ((CString × List CString) × DeviceCall) :=
  [(([98, slash], [[98]]), .createDir [slash, 120]),
    (([slash, 97], [[97]]), .fileSize [slash, 102]),
    (([98, slash], [[98]]),
      .writeFile [slash, 120, slash, 103] 0 (some (.client 0 [5])) 1 .truncate),
    (([slash, 97], [[97]]), .deleteDir [slash]),
    (([slash, 97], [[97]]), .writeFile [slash] 0 none 0 .append),
    (([slash, 97], [[97]]), .fileExists [slash, 102]),
    (([slash, 97], [[97]]), .createDir [slash]),
    (([98, slash], [[98]]), .readFile [slash, 120, slash, 103] 0 9 none true)]

/-- It is enough to look at the paths of the tree. -/
lemma short_of_paths {d : TreeDisk}
    (h : ∀ path ∈ d.tree.paths [], ∀ r ∈ l, r.2 <+: path →
      plat.Accepts (r.1 ++ slash :: Components.led slash (path.drop r.2.length))) :
    ∀ r ∈ l, ∀ q, d.entries (r.2 ++ q) ≠ none →
      plat.Accepts (r.1 ++ slash :: Components.led slash q) := by
  intro r hr q hq
  have hmem : r.2 ++ q ∈ d.tree.paths [] := by
    refine (NamedTree.mem_paths_iff d.distinct [] _).mpr ⟨r.2 ++ q, rfl, ?_⟩
    rw [TreeDisk.entries, NamedTree.entry, ne_eq, Option.map_eq_none_iff] at hq
    exact Option.isSome_iff_ne_none.mpr hq
  have haccepts := h _ hmem r hr (List.prefix_append _ _)
  rwa [List.drop_left] at haccepts

lemma sound_smallLayout : smallLayout.Sound smallPlatform smallDisk.entries where
  fits := by decide
  accepts := by decide
  apart := by decide
  free := by decide
  leads := by decide
  short := short_of_paths (by decide)

namespace Folders

variable (plat : Platform) (l : Layout) {top other : List CString} {u v : Folders}

/-- Every call does something at a place of the folder. -/
lemma exists_access (c : DeviceCall) : ∃ (place : Folder → Except Errno (List CString))
    (f : Spot → DeviceAnswer × Edit),
    ∀ top, (interface plat l).call top c = access plat top place f := by
  cases c with
  | fileExists path =>
    exact ⟨Folder.locate path, fun spot => (.found spot.isFile, none), fun _ => rfl⟩
  | fileSize path => exact ⟨Folder.locate path, fun spot => (.size spot.size, none), fun _ => rfl⟩
  | readFile path offset maxBytes alloc nullTerminate =>
    exact ⟨Folder.locate path,
      fun spot => (.read (spot.read plat offset maxBytes nullTerminate), none),
      fun _ => rfl⟩
  | writeFile path offset buffer bufferBytes mode =>
    exact ⟨Folder.locateCreate plat path, fun spot => Prod.map .write id
      (spot.write plat mode offset ((buffer.elim [] Buffer.bytes).take bufferBytes)), fun _ => rfl⟩
  | deleteFile path =>
    exact ⟨Folder.locate path, fun spot => Prod.map .code id (spot.delete plat), fun _ => rfl⟩
  | createDir path =>
    exact ⟨Folder.locateNew path, fun spot => Prod.map .code id spot.createDir, fun _ => rfl⟩
  | deleteDir path =>
    exact ⟨Folder.locate path, fun spot => Prod.map .code id spot.deleteDir, fun _ => rfl⟩

/-- A call sees and changes the folder of its device only. -/
lemma call_congr (h : u top = v top) (c : DeviceCall) :
    ((interface plat l).call top c u).1 = ((interface plat l).call top c v).1 ∧
      ((interface plat l).call top c u).2 top = ((interface plat l).call top c v).2 top := by
  obtain ⟨place, f, hf⟩ := exists_access plat l c
  rw [hf top, access, access, h]
  refine ⟨rfl, ?_⟩
  dsimp only
  rw [Function.update_self, Function.update_self]

lemma call_other (h : other ≠ top) (c : DeviceCall) :
    ((interface plat l).call other c u).2 top = u top := by
  obtain ⟨place, f, hf⟩ := exists_access plat l c
  rw [hf other, access]
  exact Function.update_of_ne h.symm _ _

/-- The calls on one device. -/
def own (top : List CString) (cs : List (List CString × DeviceCall)) :
    List (List CString × DeviceCall) :=
  cs.filter fun c => c.1 = top

/-- The answers to these among the answers to all. -/
def ownAnswers (top : List CString) (cs : List (List CString × DeviceCall))
    (answers : List DeviceAnswer) : List DeviceAnswer :=
  ((cs.zip answers).filter fun c => c.1.1 = top).map Prod.snd

/-- The other calls make no difference. -/
lemma run_own (cs : List (List CString × DeviceCall)) (h : u top = v top) :
    ownAnswers top cs ((interface plat l).run cs u).1 =
        ((interface plat l).run (own top cs) v).1 ∧
      ((interface plat l).run cs u).2 top = ((interface plat l).run (own top cs) v).2 top := by
  induction cs generalizing u v with
  | nil => exact ⟨rfl, h⟩
  | cons c cs ih =>
    obtain ⟨other, c⟩ := c
    rw [own, DeviceInterface.run]
    by_cases hother : other = top
    · subst hother
      obtain ⟨hanswer, hcall⟩ := call_congr plat l h c
      obtain ⟨hanswers, hfolder⟩ := ih hcall
      rw [List.filter_cons_of_pos (by simp), ← own, DeviceInterface.run]
      refine ⟨?_, hfolder⟩
      dsimp only
      rw [← hanswer, ← hanswers, ownAnswers, List.zip_cons_cons,
        List.filter_cons_of_pos (by simp)]
      rfl
    · obtain ⟨hanswers, hfolder⟩ := ih ((call_other plat l hother c).trans h)
      rw [List.filter_cons_of_neg (by simpa using hother), ← own]
      refine ⟨?_, hfolder⟩
      rw [← hanswers, ownAnswers, List.zip_cons_cons,
        List.filter_cons_of_neg (by simpa using hother)]
      rfl

end Folders

end LaminaFS
