/-
# Folders instead of a disk

What a directory device is for: it makes a folder of the disk available.  A folder is what there is
below some directory, by the paths from there.  It knows nothing of what is outside of it, of the
path to it and of open files, and the functions of a device do to it what `Spot` says about the
place that a device path leads to.

The root directory of a folder can be removed and made again, as `deleteDir` and `createDir` can do
on the disk.
-/
import LaminaFS.Device.Spots
import LaminaFS.Path.Reference

namespace LaminaFS

namespace Folder

/-- The names along a device path. -/
def names (devicePath : CString) : List CString := (devicePath.splitOn slash).tail

/-- Where a device path leads. -/
def locate (devicePath : CString) (s : Folder) : Except Errno (List CString) :=
  walk s [] (names devicePath)

/-- Where it leads when its slashes at the end do not count. -/
def locateNew (devicePath : CString) (s : Folder) : Except Errno (List CString) :=
  walk s [] ((names devicePath).rdropWhile (· = []))

/-- Where it leads when a file is to be created there. -/
def locateCreate (plat : Platform) (devicePath : CString) (s : Folder) :
    Except Errno (List CString) :=
  if devicePath.getLast? = some slash then
    match s.locateNew devicePath with
    | .error e => .error e
    | .ok p => .error (plat.createSlash (s p))
  else s.locate devicePath

end Folder

/-- The folders below the directories of the disk that are made available. -/
abbrev Folders := List CString → Folder

namespace Folders

variable (plat : Platform)

/-- A function of a device that does something where its device path leads. -/
def access {α : Type} (top : List CString) (place : Folder → Except Errno (List CString))
    (f : Spot → α × Edit) (u : Folders) : α × Folders :=
  let r := f ((u top).spotOf plat top (place (u top)))
  (r.1, Function.update u top ((u top).edit (place (u top)) r.2))

/-- The device type of folders.  A device is the directory that its folder is below; `roots` are
the root paths of the devices, and the directories that they lead to. -/
def interface (roots : List (CString × List CString)) :
    DeviceInterface (List CString) Folders where
  create path u :=
    match roots.lookup path with
    | none => ((.notFound, none), u)
    | some top =>
      match u top [] with
      | some .dir => ((.ok, some top), u)
      | _ => ((.notFound, none), u)
  destroy _ u := u
  fileExists top path := access plat top (Folder.locate path) fun spot => (spot.isFile, none)
  fileSize top path := access plat top (Folder.locate path) fun spot => (spot.size, none)
  readFile top path offset maxBytes _ nullTerminate :=
    access plat top (Folder.locate path) fun spot =>
      (spot.read plat offset maxBytes nullTerminate, none)
  writeFile := some fun top path offset buffer count mode =>
    access plat top (Folder.locateCreate plat path) fun spot =>
      spot.write plat mode offset ((buffer.elim [] Buffer.bytes).take count)
  deleteFile := some fun top path => access plat top (Folder.locate path) (Spot.delete plat)
  createDir := some fun top path => access plat top (Folder.locateNew path) Spot.createDir
  deleteDir := some fun top path => access plat top (Folder.locate path) Spot.deleteDir

section Create

variable {roots : List (CString × List CString)} {path : CString} {top : List CString}
  {u : Folders}

lemma create_of_dir (h : roots.lookup path = some top) (hdir : u top [] = some .dir) :
    (interface plat roots).create path u = ((.ok, some top), u) := by
  simp only [interface, h, hdir]

lemma create_of_no_dir (h : roots.lookup path = some top) (hdir : u top [] ≠ some .dir) :
    (interface plat roots).create path u = ((.notFound, none), u) := by
  simp only [interface, h]

end Create

end Folders

/-! ### Walks -/

namespace Folder

variable {s s' : Folder} {cur p : List CString} {cs ds : List CString}

lemma walk_append : s.walk cur (cs ++ ds) = s.walk cur cs >>= (s.walk · ds) := by
  induction cs generalizing cur with
  | nil => rfl
  | cons c cs ih =>
    rw [List.cons_append, walk, walk]
    cases s cur with
    | none => rfl
    | some e =>
      cases e with
      | leaf _ => rfl
      | dir => exact ih

/-- A walk that does not get stuck finds its way also where there is more. -/
lemma walk_mono (hmore : ∀ q, s q ≠ none → s' q = s q) (hw : s.walk cur cs = .ok p) :
    s'.walk cur cs = .ok p := by
  induction cs generalizing cur with
  | nil => exact hw
  | cons c cs ih =>
    rw [walk] at hw ⊢
    cases hcur : s cur with
    | none =>
      rw [hcur] at hw
      cases hw
    | some e =>
      rw [hmore cur (by simp [hcur]), hcur]
      rw [hcur] at hw
      cases e with
      | leaf _ => cases hw
      | dir => exact ih hw

/-- More slashes between two names make no difference. -/
lemma walk_replicate (n : ℕ) (hds : ds ≠ []) :
    s.walk cur (List.replicate n [] ++ ds) = s.walk cur ds := by
  induction n with
  | zero => rfl
  | succ n ih =>
    obtain ⟨d, ds, rfl⟩ := List.exists_cons_of_ne_nil hds
    rw [List.replicate_succ, List.cons_append, walk, enter, if_pos (Or.inl rfl), ih, walk]
    cases s cur with
    | none => rfl
    | some e => cases e <;> rfl

/-- Slashes alone lead nowhere else. -/
lemma walk_slashes (n : ℕ) (hcur : s cur = some .dir) :
    s.walk cur (List.replicate n []) = .ok cur := by
  induction n with
  | zero => rfl
  | succ n ih =>
    rw [List.replicate_succ, walk, hcur, enter, if_pos (Or.inl rfl)]
    exact ih

lemma eq_of_walk_slashes {n : ℕ} (hw : s.walk cur (List.replicate n []) = .ok p) :
    p = cur := by
  cases n with
  | zero => exact (Except.ok.inj hw).symm
  | succ n =>
    cases hcur : s cur with
    | none =>
      rw [List.replicate_succ, walk, hcur] at hw
      cases hw
    | some e =>
      cases e with
      | leaf _ =>
        rw [List.replicate_succ, walk, hcur] at hw
        cases hw
      | dir =>
        rw [walk_slashes _ hcur] at hw
        exact (Except.ok.inj hw).symm

/-- A walk that never goes up can be watched from the directory that it is in. -/
lemma walk_below (s : Folder) (top p : List CString) (hcs : ∀ c ∈ cs, c ≠ [dot, dot]) :
    s.walk (top ++ p) cs = ((s.below top).walk p cs).map (top ++ ·) := by
  induction cs generalizing p with
  | nil => rfl
  | cons c cs ih =>
    have henter : enter (top ++ p) c = top ++ enter p c := by
      rw [enter, enter, if_neg (hcs c List.mem_cons_self), if_neg (hcs c List.mem_cons_self)]
      split
      · rfl
      · rw [List.append_assoc]
    rw [walk, walk, below]
    cases s (top ++ p) with
    | none => rfl
    | some e =>
      cases e with
      | leaf _ => rfl
      | dir =>
        dsimp only
        rw [henter, ih _ fun d hd => hcs d (List.mem_cons_of_mem _ hd)]

/-- Names that are proper lead where they say. -/
lemma eq_of_walk_names (hcs : ∀ c ∈ cs, ProperName c) (hw : s.walk cur cs = .ok p) :
    p = cur ++ cs := by
  induction cs generalizing cur with
  | nil =>
    cases hw
    exact (List.append_nil _).symm
  | cons c cs ih =>
    obtain ⟨hnil, hdot, hdots⟩ := hcs c List.mem_cons_self
    have henter : enter cur c = cur ++ [c] := by
      rw [enter, if_neg (not_or.mpr ⟨hnil, hdot⟩), if_neg hdots]
    rw [walk, henter] at hw
    split at hw
    · cases hw
    · cases hw
    · rw [ih (fun d hd => hcs d (List.mem_cons_of_mem _ hd)) hw, List.append_assoc]
      rfl

end Folder

end LaminaFS
