/-
# A disk in memory

A system that the directory device can run on: the regular files are the leaves of a tree of
directories, and the calls do to it what the laws of a `FileSystem` ask for.
-/
import LaminaFS.Device.Spots
import LaminaFS.Lib.FileTree

namespace LaminaFS

/-- The directory entries below the root directory. -/
abbrev DiskTree := NamedTree CString FileBytes

/-- A disk.  The root directory stays a directory. -/
structure TreeDisk where
  tree : DiskTree
  distinct : tree.Distinct
  root : tree.top = .dir
  opened : ℕ → OpenEntry
  nextFd : ℕ

namespace TreeDisk

/-- What there is on the disk. -/
def entries (d : TreeDisk) : Folder := d.tree.entry

/-- The disk with something else at a path, which is not that of the root directory. -/
def set (path : List CString) (x : Option (TreeEntry FileBytes)) (d : TreeDisk) : TreeDisk :=
  if h : path = [] then d
  else
    { d with
      tree := d.tree.put (x.map .single) path
      distinct := d.distinct.put fun u hu => by
        obtain ⟨y, -, rfl⟩ := Option.map_eq_some_iff.mp hu
        exact NamedTree.distinct_single y
      root := by rw [NamedTree.top_put h, d.root] }

/-- The disk with the next file open. -/
def openNext (file : OpenEntry) (d : TreeDisk) : TreeDisk :=
  { d with
    opened := Function.update d.opened d.nextFd file
    nextFd := d.nextFd + 1 }

/-- The file `fd` moved to the position `pos`. -/
def moveTo (fd pos : ℕ) (d : TreeDisk) : TreeDisk :=
  { d with opened := Function.update d.opened fd { d.opened fd with pos := pos } }

/-! ### The calls -/

variable (plat : Platform)

/-- `ENAMETOOLONG`, if the path is too long. -/
def checked {α : Type} (path : CString) (call : TreeDisk → Except Errno α × TreeDisk)
    (d : TreeDisk) : Except Errno α × TreeDisk :=
  if plat.Accepts path then call d else (.error (.other 36), d)

/-- `stat`. -/
def stat (path : CString) (d : TreeDisk) : Except Errno FileStat :=
  if plat.Accepts path then plat.stat path d.entries else .error (.other 36)

/-- `open`. -/
def openFile (path : CString) (flags : OpenFlags) : TreeDisk → Except Errno ℕ × TreeDisk :=
  checked plat path fun d =>
    match plat.opening path flags d.entries with
    | .error e => (.error e, d)
    | .ok (p, s) =>
      let opened : TreeDisk := match s p with
        | some .dir => d
        | x => d.set p x
      (.ok d.nextFd, opened.openNext ⟨p, 0, flags.write, flags.append⟩)

/-- The end of the open file `fd`. -/
def endOf (fd : ℕ) (d : TreeDisk) : Except Errno ℕ :=
  match d.entries (d.opened fd).path with
  | none => .error (.other 9)
  | some .dir => plat.dirEnd (d.opened fd).path (d.entries.below (d.opened fd).path)
  | some (.leaf c) => .ok c.bytes.length

/-- `lseek`. -/
def lseek (fd : ℕ) (offset : ℤ) (whence : Whence) (d : TreeDisk) : Except Errno ℕ × TreeDisk :=
  match whence with
  | .seekSet =>
    if offset < 0 then (.error .einval, d) else (.ok offset.toNat, d.moveTo fd offset.toNat)
  | .seekEnd =>
    match d.endOf plat fd with
    | .error e => (.error e, d)
    | .ok n => (.ok n, d.moveTo fd n)

/-- `read`. -/
def read (fd count : ℕ) (d : TreeDisk) : Except Errno (List UInt8) × TreeDisk :=
  match d.entries (d.opened fd).path with
  | none => (.error (.other 9), d)
  | some .dir => (.error .eisdir, d)
  | some (.leaf c) =>
    match plat.readSize (d.opened fd).pos count with
    | .error e => (.error e, d)
    | .ok n =>
      let got := (c.bytes.drop (d.opened fd).pos).take (min count n)
      (.ok got, d.moveTo fd ((d.opened fd).pos + got.length))

/-- `write`. -/
def write (fd : ℕ) (bytes : List UInt8) (d : TreeDisk) : Except Errno ℕ × TreeDisk :=
  let file := d.opened fd
  match d.entries file.path with
  | none => (.error (.other 9), d)
  | some .dir => (.error .eisdir, d)
  | some (.leaf c) =>
    match plat.writeSize file.pos (file.place c) bytes.length with
    | .error e => (.error e, d)
    | .ok n =>
      match c.put (file.place c) (bytes.take n) with
      | none => (.error (.other 27), d)
      | some c' =>
        (.ok (bytes.take n).length,
          (d.set file.path (some (.leaf c'))).moveTo fd (file.place c + (bytes.take n).length))

/-- `unlink`. -/
def unlink (path : CString) : TreeDisk → Except Errno Unit × TreeDisk :=
  checked plat path fun d =>
    match plat.unlinking path d.entries, plat.locate path d.entries with
    | .error e, _ => (.error e, d)
    | .ok _, .error e => (.error e, d)
    | .ok _, .ok p => (.ok (), d.set p none)

/-- `mkdir`. -/
def mkdir (path : CString) : TreeDisk → Except Errno Unit × TreeDisk :=
  checked plat path fun d =>
    match plat.making path d.entries, plat.locateNew path d.entries with
    | .error e, _ => (.error e, d)
    | .ok _, .error e => (.error e, d)
    | .ok _, .ok p => (.ok (), d.set p (some .dir))

/-- `fts_open`. -/
def ftsOpen (path : CString) (d : TreeDisk) : Option (List FtsRead) × TreeDisk :=
  if path = [] ∨ ¬plat.Accepts path then (none, d)
  else
    match plat.stat path d.entries, plat.locate path d.entries with
    | .error e, _ => (some [.entry ⟨.ns, [], e⟩], d)
    | .ok _, .error e => (some [.entry ⟨.ns, [], e⟩], d)
    | .ok _, .ok p =>
      match d.tree.below p with
      | none => (some [.entry ⟨.ns, p, .enoent⟩], d)
      | some t => (some (FtsRead.ofVisits (t.visits p)), d)

/-- `remove`: a directory has to be empty, and the root directory is busy. -/
def remove (p : List CString) (d : TreeDisk) : Except Errno Unit × TreeDisk :=
  if p = [] then (.error (.other 16), d)
  else
    match d.tree.below p with
    | none => (.error .enoent, d)
    | some (.leaf _) | some (.dir .nil) => (.ok (), d.set p none)
    | some (.dir _) => (.error (.other 39), d)

/-- The calls on the disk. -/
def calls : DirectoryCalls TreeDisk where
  stat := stat plat
  openFile := openFile plat
  lseek := lseek plat
  read := read plat
  close _ d := d
  alloc _ size d := (plat.hasMemory size, d)
  write := write plat
  ftsOpen := ftsOpen plat
  remove := remove
  ftsClose d := d
  unlink := unlink plat
  mkdir := mkdir plat

/-! ### What is put is there -/

variable {plat : Platform} {d : TreeDisk} {p : List CString} {x : Option (TreeEntry FileBytes)}

lemma entries_root : d.entries [] = some .dir := by
  rw [entries, NamedTree.entry, NamedTree.below_nil, Option.map_some, d.root]

/-- Above everything that is there is a directory. -/
lemma entries_dropLast (h : d.entries p ≠ none) (hp : p ≠ []) :
    d.entries p.dropLast = some .dir := by
  refine NamedTree.entry_of_below_append (q := [p.getLast hp]) (by simp) ?_
  rw [List.dropLast_append_getLast hp]
  exact h

/-- Where a walk ends in nothing there is a directory above. -/
lemma entries_dropLast_of_walk {cur cs : List CString} (hw : d.entries.walk cur cs = .ok p)
    (hcs : cs ≠ []) (hnone : d.entries p = none) :
    p ≠ [] ∧ d.entries p.dropLast = some .dir := by
  induction cs generalizing cur with
  | nil => exact absurd rfl hcs
  | cons c cs ih =>
    rw [Folder.walk] at hw
    cases hcur : d.entries cur with
    | none => rw [hcur] at hw; cases hw
    | some e =>
      rw [hcur] at hw
      cases e with
      | leaf _ => cases hw
      | dir =>
        by_cases hnil : cs = []
        · subst hnil
          obtain rfl : Folder.enter cur c = p := by
            rw [Folder.walk] at hw
            exact Except.ok.inj hw
          rw [Folder.enter] at hnone ⊢
          split_ifs at hnone ⊢ with hstay hup
          · rw [hcur] at hnone
            cases hnone
          · by_cases hroot : cur = []
            · rw [hroot] at hnone
              rw [show ([] : List CString).dropLast = [] from rfl, entries_root] at hnone
              cases hnone
            · rw [entries_dropLast (by simp [hcur]) hroot] at hnone
              cases hnone
          · exact ⟨by simp, by rwa [List.dropLast_concat]⟩
        · exact ih hw hnil

/-- What has been put somewhere is there alone. -/
lemma entries_set (hp : p ≠ []) (h : d.entries p.dropLast = some .dir) :
    (d.set p x).entries = d.entries.put p x := by
  funext q
  rw [Folder.put]
  have hself : (d.set p x).tree.below p = x.map .single := by
    rw [set, dif_neg hp]
    have hself := NamedTree.below_put_self (x := x.map .single) (n := p.getLast hp) h
    rwa [List.dropLast_append_getLast hp] at hself
  by_cases hpre : p <+: q
  · obtain ⟨t, rfl⟩ := hpre
    rw [entries, NamedTree.entry_append, hself, if_pos (List.prefix_append p t)]
    cases x with
    | none => split <;> rfl
    | some e =>
      show NamedTree.entry (.single e) t = _
      simp [NamedTree.entry_single]
  · have hne : q ≠ p := by
      rintro rfl
      exact hpre (List.prefix_refl _)
    rw [if_neg hne, if_neg hpre, set, dif_neg hp]
    exact NamedTree.entry_put_of_not_prefix hpre

/-- What is there is replaced. -/
lemma entries_set_of_some {e : TreeEntry FileBytes} (h : d.entries p = some e) (hp : p ≠ []) :
    (d.set p x).entries = d.entries.put p x :=
  entries_set hp (entries_dropLast (by simp [h]) hp)

lemma nextFd_set : (d.set p x).nextFd = d.nextFd := by
  rw [set]
  split <;> rfl

lemma ne_nil_of_leaf {c : FileBytes} (h : d.entries p = some (.leaf c)) : p ≠ [] := by
  rintro rfl
  rw [entries_root] at h
  cases h

lemma locate_of_locateCreate {path : CString} {s : Folder}
    (h : plat.locateCreate path s = .ok p) : plat.locate path s = .ok p := by
  rw [Platform.locateCreate] at h
  split at h
  · split at h <;> cases h
  · exact h

/-- Where a path leads to nothing there is a directory above. -/
lemma entries_dropLast_of_locate {path : CString} (hloc : plat.locate path d.entries = .ok p)
    (hnone : d.entries p = none) : p ≠ [] ∧ d.entries p.dropLast = some .dir := by
  rw [Platform.locate] at hloc
  split at hloc
  · cases hloc
  · exact entries_dropLast_of_walk hloc (List.splitOn_ne_nil _ _) hnone

lemma entries_dropLast_of_locateNew {path : CString}
    (hloc : plat.locateNew path d.entries = .ok p) (hnone : d.entries p = none) :
    p ≠ [] ∧ d.entries p.dropLast = some .dir := by
  rw [Platform.locateNew] at hloc
  split at hloc
  · cases hloc
  · rename_i hpath
    refine entries_dropLast_of_walk hloc (fun hnil => ?_) hnone
    -- a path of slashes leads to the root directory
    obtain ⟨b, rest, rfl⟩ := List.exists_cons_of_ne_nil hpath
    have hslash : b = slash := by
      by_contra hb
      rw [List.rdropWhile_eq_nil_iff, List.splitOn_cons_eq_if_modifyHead,
        if_neg (by simpa using hb)] at hnil
      cases hs : rest.splitOn slash with
      | nil => exact List.splitOn_ne_nil _ _ hs
      | cons c cs =>
        rw [hs, List.modifyHead_cons] at hnil
        have := hnil _ List.mem_cons_self
        simp at this
    rw [hnil, Platform.beginning, hslash, List.head?_cons, if_pos rfl, Folder.walk] at hloc
    rw [← Except.ok.inj hloc, entries_root] at hnone
    cases hnone

/-! ### The laws -/

section Laws

variable {w : TreeDisk} {path : CString} {flags : OpenFlags} {fd : ℕ} {c : FileBytes}

lemma checked_of_accepts {α : Type} {call : TreeDisk → Except Errno α × TreeDisk}
    (h : plat.Accepts path) : checked plat path call d = call d :=
  if_pos h

lemma below_leaf (h : d.entries p = some (.leaf c)) (q : List CString) (hq : q ≠ []) :
    d.entries (p ++ q) = none := by
  by_contra hsome
  have hdir := NamedTree.entry_of_below_append hq hsome
  rw [show d.tree.entry p = _ from h] at hdir
  cases hdir

/-- What is opened is there, and may have been emptied, or is a new file. -/
lemma opening_cases {s s' : Folder} (h : plat.opening path flags s = .ok (p, s')) :
    (s p = some .dir ∧ s' = s) ∨
      (∃ c, s p = some (.leaf c) ∧ (s' = s ∨ s' = s.put p (some (.leaf .empty)))) ∨
      (s p = none ∧ plat.locate path s = .ok p ∧ s' = s.put p (some (.leaf .empty))) := by
  rw [Platform.opening] at h
  split at h
  · cases h
  · rename_i p' hloc
    have hlocate : plat.locate path s = .ok p' := by
      split at hloc
      · exact locate_of_locateCreate hloc
      · exact hloc
    split at h
    · rename_i hnone
      split at h <;> cases h
      exact Or.inr (Or.inr ⟨hnone, hlocate, rfl⟩)
    · rename_i hdir
      split at h <;> cases h
      exact Or.inl ⟨hdir, rfl⟩
    · rename_i c hfile
      cases h
      refine Or.inr (Or.inl ⟨c, hfile, ?_⟩)
      split
      · exact Or.inr rfl
      · exact Or.inl rfl

/-- Opening changes what is there as it should. -/
lemma openFile_ok {s : Folder} (hpath : plat.Accepts path)
    (h : plat.opening path flags d.entries = .ok (p, s)) :
    ∃ d', openFile plat path flags d = (.ok d.nextFd, d') ∧ d'.entries = s ∧
      d'.opened d.nextFd = ⟨p, 0, flags.write, flags.append⟩ := by
  have hempty : (d.entries.put p (some (.leaf .empty))) p = some (.leaf .empty) := Folder.put_self
  rw [openFile, checked_of_accepts hpath, h]
  refine ⟨_, rfl, ?_, ?_⟩
  · show entries (match s p with | some .dir => d | x => d.set p x) = s
    rcases opening_cases h with ⟨hdir, rfl⟩ | ⟨c, hfile, rfl | rfl⟩ | ⟨hnone, hloc, rfl⟩
    · rw [hdir]
    · rw [hfile]
      exact (entries_set_of_some hfile (ne_nil_of_leaf hfile)).trans
        (Folder.put_same hfile (below_leaf hfile))
    · rw [hempty]
      exact entries_set_of_some hfile (ne_nil_of_leaf hfile)
    · rw [hempty]
      obtain ⟨hp, hdir⟩ := entries_dropLast_of_locate hloc hnone
      exact entries_set hp hdir
  · have hnext : (match s p with | some .dir => d | x => d.set p x).nextFd = d.nextFd := by
      split
      · rfl
      · exact nextFd_set
    rw [← hnext]
    exact Function.update_self ..

lemma moveTo_opened (fd pos : ℕ) : (d.moveTo fd pos).opened fd = { d.opened fd with pos := pos } :=
  Function.update_self ..

/-- Seeking in a directory. -/
lemma lseek_directory (h : d.entries (d.opened fd).path = some .dir) (n : ℤ) (whence : Whence) :
    ∃ r pos d', lseek plat fd n whence d = (r, d') ∧ d'.entries = d.entries ∧
      d'.opened fd = { d.opened fd with pos := pos } ∧
      (whence = .seekEnd → n = 0 →
        r = plat.dirEnd (d.opened fd).path (d.entries.below (d.opened fd).path)) := by
  cases whence with
  | seekSet =>
    rw [lseek]
    dsimp only
    split
    · exact ⟨_, _, d, rfl, rfl, rfl, by simp⟩
    · exact ⟨_, _, _, rfl, rfl, moveTo_opened fd _, by simp⟩
  | seekEnd =>
    rw [lseek, endOf, h]
    dsimp only
    cases hend : plat.dirEnd (d.opened fd).path (d.entries.below (d.opened fd).path) with
    | error e => exact ⟨_, _, d, rfl, rfl, rfl, fun _ _ => rfl⟩
    | ok pos => exact ⟨_, _, _, rfl, rfl, moveTo_opened fd pos, fun _ _ => rfl⟩

lemma unlink_ok {s : Folder} (hpath : plat.Accepts path)
    (h : plat.unlinking path d.entries = .ok s) :
    ∃ d', unlink plat path d = (.ok (), d') ∧ d'.entries = s := by
  rw [unlink, checked_of_accepts hpath, h]
  rw [Platform.unlinking] at h
  split at h
  · cases h
  · rename_i p hloc
    split at h <;> cases h
    rename_i c hfile
    rw [hloc]
    exact ⟨_, rfl, entries_set_of_some hfile (ne_nil_of_leaf hfile)⟩

lemma mkdir_ok {s : Folder} (hpath : plat.Accepts path)
    (h : plat.making path d.entries = .ok s) :
    ∃ d', mkdir plat path d = (.ok (), d') ∧ d'.entries = s := by
  rw [mkdir, checked_of_accepts hpath, h]
  rw [Platform.making] at h
  split at h
  · cases h
  · rename_i p hloc
    split at h <;> cases h
    rename_i hnone
    obtain ⟨hp, hdir⟩ := entries_dropLast_of_locateNew hloc hnone
    rw [hloc]
    exact ⟨_, rfl, entries_set hp hdir⟩

/-- A file or an empty directory is removed. -/
lemma remove_ok (hp : p ≠ []) (hthere : d.entries p ≠ none)
    (hempty : ∀ q, q ≠ [] → d.entries (p ++ q) = none) :
    ∃ d', remove p d = (.ok (), d') ∧ d'.entries = d.entries.put p none := by
  refine ⟨d.set p none, ?_, entries_set hp (entries_dropLast hthere hp)⟩
  rw [remove, if_neg hp]
  have hthere' : (d.tree.below p).map NamedTree.top ≠ none := hthere
  cases hbelow : d.tree.below p with
  | none =>
    rw [hbelow] at hthere'
    exact absurd rfl hthere'
  | some t =>
    have hentry (q : List CString) : d.entries (p ++ q) = t.entry q := by
      rw [entries, NamedTree.entry_append, hbelow]
      rfl
    cases t with
    | leaf c => rfl
    | dir f =>
      cases f with
      | nil => rfl
      | leaf name c rest | dir name c rest =>
        have hnone := hempty [name] (by simp)
        rw [hentry, NamedTree.entry, NamedTree.below, Forest.get, if_pos rfl] at hnone
        cases hnone

/-- The walk through what there is at a path. -/
lemma ftsOpen_ok (hloc : plat.locate path d.entries = .ok p) (hthere : d.entries p ≠ none)
    (hshort : ∀ q, d.entries (p ++ q) ≠ none → plat.Accepts (path ++ Components.led slash q)) :
    ∃ (t : NamedTree CString FileBytes) (d' : TreeDisk), t.Distinct ∧
      (∀ q, t.entry q = d.entries (p ++ q)) ∧
      ftsOpen plat path d = (some (FtsRead.ofVisits (t.visits p)), d') ∧
      d'.entries = d.entries := by
  have hpath : ¬(path = [] ∨ ¬plat.Accepts path) := by
    rintro (rfl | hlong)
    · rw [Platform.locate, if_pos rfl] at hloc
      cases hloc
    · have haccepts := hshort [] (by rwa [List.append_nil])
      rw [Components.led_nil, List.append_nil] at haccepts
      exact hlong haccepts
  have hthere' : (d.tree.below p).map NamedTree.top ≠ none := hthere
  cases hbelow : d.tree.below p with
  | none =>
    rw [hbelow] at hthere'
    exact absurd rfl hthere'
  | some t =>
    refine ⟨t, d, d.distinct.below hbelow, fun q => ?_, ?_, rfl⟩
    · rw [entries, NamedTree.entry_append, hbelow]
      rfl
    · have hstat : ∃ st, plat.stat path d.entries = .ok st := by
        rw [Platform.stat, hloc]
        dsimp only
        split
        · contradiction
        · exact ⟨_, rfl⟩
        · exact ⟨_, rfl⟩
      obtain ⟨st, hstat⟩ := hstat
      rw [ftsOpen, if_neg hpath, hstat, hloc]
      dsimp only
      rw [hbelow]

end Laws

/-- The laws hold. -/
def fileSystem (plat : Platform) : FileSystem plat (calls plat) where
  entries := entries
  opened := opened
  below_file d p c q h hq := below_leaf h q hq
  stat d path hpath := if_pos hpath
  open_error d path flags e hpath h :=
    ⟨d, by
      show openFile plat path flags d = _
      rw [openFile, checked_of_accepts hpath, h], rfl⟩
  open_ok d path flags p s hpath h := ⟨d.nextFd, openFile_ok hpath h⟩
  seek_end d fd c h := by
    have hseek : lseek plat fd 0 .seekEnd d =
        (.ok c.bytes.length, d.moveTo fd c.bytes.length) := by
      rw [lseek, endOf, h]
    exact ⟨_, hseek, rfl, moveTo_opened fd _⟩
  seek_set d fd c n _ _ := by
    have hseek : lseek plat fd n .seekSet d = (.ok n, d.moveTo fd n) := by
      rw [lseek, if_neg (by omega), Int.toNat_natCast]
    exact ⟨_, hseek, rfl, moveTo_opened fd n⟩
  seek_negative d fd c n _ hn := by
    have hseek : lseek plat fd n .seekSet d = (.error .einval, d) := by
      rw [lseek, if_pos hn]
    exact ⟨d, hseek, rfl, rfl⟩
  seek_directory d fd n whence h := lseek_directory h n whence
  read_error d fd count c e h _ hsize :=
    ⟨d, by
      show read plat fd count d = _
      rw [read, h]
      dsimp only
      rw [hsize], rfl⟩
  read_ok d fd count c n h _ hsize := by
    have hread : ∃ pos, read plat fd count d =
        (.ok ((c.bytes.drop (d.opened fd).pos).take (min count n)), d.moveTo fd pos) := by
      rw [read, h]
      dsimp only
      rw [hsize]
      exact ⟨_, rfl⟩
    obtain ⟨pos, hread⟩ := hread
    exact ⟨_, hread, rfl⟩
  read_directory d fd count h _ :=
    ⟨d, by
      show read plat fd count d = _
      rw [read, h], rfl⟩
  write_error d fd bytes c e h _ hsize :=
    ⟨d, by
      show write plat fd bytes d = _
      rw [write, h]
      dsimp only
      rw [hsize], rfl⟩
  write_ok d fd bytes c n c' h _ hsize hput := by
    have hwrite : ∃ pos, write plat fd bytes d = (.ok (bytes.take n).length,
        (d.set (d.opened fd).path (some (.leaf c'))).moveTo fd pos) := by
      rw [write]
      simp only [h, hsize, hput]
      exact ⟨_, rfl⟩
    obtain ⟨pos, hwrite⟩ := hwrite
    exact ⟨_, hwrite, entries_set_of_some h (ne_nil_of_leaf h)⟩
  close _ _ := rfl
  alloc d _ _ := ⟨d, rfl, rfl, rfl⟩
  unlink_error d path e hpath h :=
    ⟨d, by
      show unlink plat path d = _
      rw [unlink, checked_of_accepts hpath, h], rfl⟩
  unlink_ok d path s hpath h := unlink_ok hpath h
  mkdir_error d path e hpath h :=
    ⟨d, by
      show mkdir plat path d = _
      rw [mkdir, checked_of_accepts hpath, h], rfl⟩
  mkdir_ok d path s hpath h := mkdir_ok hpath h
  fts_error d path e hne hpath h :=
    ⟨[], d, by
      show ftsOpen plat path d = _
      rw [ftsOpen, if_neg (not_or.mpr ⟨hne, not_not.mpr hpath⟩), h], rfl⟩
  fts_ok d path p hloc hthere _ hshort := ftsOpen_ok hloc hthere hshort
  remove d p hp _ hthere hempty := remove_ok hp hthere hempty
  ftsClose _ := rfl

end TreeDisk

end LaminaFS
