/-
# `DirectoryDevice::deleteDir`, POSIX branch

The loop over the entries that `fts_read` delivers, on a tree in any file system and with any
failures of the calls.  An entry of the file system is named by the components of its path.  The
walk delivers every directory after what it contains, so that there is nothing left in it when it
is removed; and the loop ends at the first failure.  Only that of `fts_open` is not noticed.
-/
import LaminaFS.Device.Directory
import LaminaFS.Lib.FileTree

namespace LaminaFS

/-- `fts_info`. -/
inductive FtsInfo where
  | d
  | dp
  | f
  | sl
  | slnone
  | default
  | dc
  | dot
  | nsok
  | ns
  | dnr
  | err
deriving DecidableEq, Repr

/-- `FTSENT`, as far as the device reads it. -/
structure Ftsent where
  info : FtsInfo
  accpath : List CString
  errno : Errno
deriving DecidableEq, Repr

/-- What a call of `fts_read` returns: an entry, or null with an `errno`, which is 0 at the end of
the walk. -/
inductive FtsRead where
  | entry (ent : Ftsent)
  | null (errno : Option Errno)
deriving DecidableEq, Repr

/-- The calls for a walk.  `ftsOpen` gives what the calls of `fts_read` are going to return, or
null; `ftsClose` keeps `errno`. -/
structure Fts (W : Type) where
  ftsOpen : CString → W → Option (List FtsRead) × W
  remove : List CString → W → Except Errno Unit × W
  ftsClose : W → W

namespace DirectoryDevice

variable {W : Type}

/-- The loop of `deleteDir`: `error` and `errno` behind it. -/
def deleteEntries (os : Fts W) : List FtsRead → W → (Bool × Option Errno) × W
  | [], w => ((false, none), w)
  | .null errno :: _, w => ((false, errno), w)
  | .entry ent :: reads, w =>
    match ent.info with
    | .d => deleteEntries os reads w
    | .default | .dp | .f | .sl | .slnone =>
      match os.remove ent.accpath w with
      | (.error e, w) => ((true, some e), w)
      | (.ok _, w) => deleteEntries os reads w
    | .dc | .dot | .nsok => deleteEntries os reads w
    | .ns | .dnr | .err => ((true, some ent.errno), w)

/-- `deleteDir`. -/
def deleteDir (os : Fts W) (dev : DirectoryDevice) (path : CString) (w : W) : ErrorCode × W :=
  match os.ftsOpen (dev.getDevicePath path) w with
  | (none, w) => (.ok, w)
  | (some reads, w) =>
    match deleteEntries os reads w with
    | ((error, errno), w) =>
      (if error || errno.isSome then errno.elim .genericError convertError else .ok,
        os.ftsClose w)

end DirectoryDevice

/-! ### A tree in a file system -/

/-- The kinds of entries that contain no others. -/
inductive LeafKind where
  | file
  | symlink
  | special
deriving DecidableEq, Repr

/-- How `fts_read` delivers it; no link is followed. -/
def LeafKind.info : LeafKind → FtsInfo
  | .file => .f
  | .symlink => .sl
  | .special => .default

/-- What `fts_read` delivers for a step of the walk. -/
def ftsent : Visit CString LeafKind → Ftsent
  | .enter path => ⟨.d, path, .other 0⟩
  | .leaf path kind => ⟨kind.info, path, .other 0⟩
  | .leave path => ⟨.dp, path, .other 0⟩

/-- How `fts_read` can fail. -/
inductive FtsFault where
  | ns (errno : Errno)
  | dnr (errno : Errno)
  | err (errno : Errno)
  | null (errno : Errno)
deriving DecidableEq, Repr

namespace FtsFault

/-- The `errno` of the failure. -/
def errno : FtsFault → Errno
  | ns e | dnr e | err e | null e => e

/-- What `fts_read` returns then. -/
def read (path : List CString) : FtsFault → FtsRead
  | ns e => .entry ⟨.ns, path, e⟩
  | dnr e => .entry ⟨.dnr, path, e⟩
  | err e => .entry ⟨.err, path, e⟩
  | null e => .null (some e)

end FtsFault

/-- What the calls of `fts_read` return for the steps of a walk, when the one with the given
number fails. -/
def ftsReads : List (Visit CString LeafKind) → Option (ℕ × FtsFault) → List FtsRead
  | [], _ => []
  | v :: _, some (0, fault) => [fault.read v.path]
  | v :: vs, some (i + 1, fault) => .entry (ftsent v) :: ftsReads vs (some (i, fault))
  | v :: vs, none => .entry (ftsent v) :: ftsReads vs none

/-- What is going to happen to the calls: how `fts_open` and one of the calls of `fts_read` fail,
and why an entry cannot be removed. -/
structure DeleteFaults where
  openError : Option Errno := none
  readFault : Option (ℕ × FtsFault) := none
  denied : List CString → Option Errno := fun _ => none

/-- A file system: the tree below its root directory, and where the paths of the disk lead in it,
whatever links and mounts there are on the way. -/
structure TreeSystem where
  tree : NamedTree CString LeafKind
  distinct : tree.Distinct
  leadsTo : CString → Except Errno (List CString)

/-- The entries that are left of a file system, and what is going to happen to the calls. -/
structure EntrySet where
  entries : List (List CString)
  system : TreeSystem
  faults : DeleteFaults

/-- The file system before the call. -/
def TreeSystem.start (system : TreeSystem) (faults : DeleteFaults) : EntrySet :=
  ⟨system.tree.paths [], system, faults⟩

namespace EntrySet

/-- `remove`: an entry goes that is there and has nothing below it. -/
def remove (path : List CString) (s : EntrySet) : Except Errno Unit × EntrySet :=
  if path ∉ s.entries then (.error .enoent, s)
  else
    match s.faults.denied path with
    | some e => (.error e, s)
    | none =>
      if ∃ q ∈ s.entries, path <+: q ∧ q ≠ path then (.error (.other 39), s)
      else (.ok (), { s with entries := s.entries.filter (· ≠ path) })

/-- `fts_open`, before anything has been removed: the walk is that of the tree which the path leads
to.  Where there is none, the first call of `fts_read` says so. -/
def ftsOpen (path : CString) (s : EntrySet) : Option (List FtsRead) × EntrySet :=
  match s.faults.openError with
  | some _ => (none, s)
  | none =>
    match s.system.leadsTo path with
    | .error e => (some [.entry ⟨.ns, [], e⟩], s)
    | .ok root =>
      match s.system.tree.below root with
      | none => (some [.entry ⟨.ns, root, .enoent⟩], s)
      | some tree => (some (ftsReads (tree.visits root) s.faults.readFault), s)

/-- The calls on the file system. -/
def fts : Fts EntrySet where
  ftsOpen := ftsOpen
  remove := remove
  ftsClose s := s

end EntrySet

/-! ### Failures -/

/-- The failure at the step `i` of a walk: `fts_read` fails, or the entry that the walk is done with
cannot be removed. -/
def failureAt (readFault : Option (ℕ × FtsFault)) (denied : List CString → Option Errno)
    (visits : List (Visit CString LeafKind)) (i : ℕ) : Option Errno :=
  visits[i]?.bind fun v =>
    match readFault with
    | some (j, fault) => if j = i then some fault.errno else v.finished.bind denied
    | none => v.finished.bind denied

section Run

variable {readFault : Option (ℕ × FtsFault)} {denied : List CString → Option Errno}
  {v : Visit CString LeafKind} {vs : List (Visit CString LeafKind)} {s : EntrySet}

/-- Either `fts_read` fails now, or the walk goes on with the failure one step nearer. -/
lemma ftsReads_cons (readFault : Option (ℕ × FtsFault)) (denied : List CString → Option Errno)
    (v : Visit CString LeafKind) (vs : List (Visit CString LeafKind)) :
    (∃ fault, ftsReads (v :: vs) readFault = [FtsFault.read v.path fault] ∧
        failureAt readFault denied (v :: vs) 0 = some fault.errno) ∨
      ∃ readFault', ftsReads (v :: vs) readFault = .entry (ftsent v) :: ftsReads vs readFault' ∧
        failureAt readFault denied (v :: vs) 0 = v.finished.bind denied ∧
        ∀ i, failureAt readFault denied (v :: vs) (i + 1) = failureAt readFault' denied vs i := by
  match readFault with
  | none => exact Or.inr ⟨none, rfl, rfl, fun i => rfl⟩
  | some (0, fault) => exact Or.inl ⟨fault, rfl, rfl⟩
  | some (j + 1, fault) =>
    refine Or.inr ⟨some (j, fault), rfl, rfl, fun i => ?_⟩
    simp [failureAt]

/-- The loop ends at a failure of `fts_read`. -/
lemma deleteEntries_fault (os : Fts EntrySet) (path : List CString) (fault : FtsFault) :
    ∃ error, DirectoryDevice.deleteEntries os [fault.read path] s =
      ((error, some fault.errno), s) := by
  cases fault with
  | null e => exact ⟨false, rfl⟩
  | _ e => exact ⟨true, rfl⟩

/-- A directory that is entered is left alone. -/
lemma deleteEntries_enter (os : Fts EntrySet) (h : v.finished = none) (reads : List FtsRead) :
    DirectoryDevice.deleteEntries os (.entry (ftsent v) :: reads) s =
      DirectoryDevice.deleteEntries os reads s := by
  cases v with
  | enter path => rfl
  | leaf path kind => cases h
  | leave path => cases h

/-- What the walk is done with is removed. -/
lemma deleteEntries_finished (os : Fts EntrySet) {path : List CString}
    (h : v.finished = some path) (reads : List FtsRead) :
    (∀ e s', os.remove path s = (.error e, s') →
        DirectoryDevice.deleteEntries os (.entry (ftsent v) :: reads) s =
          ((true, some e), s')) ∧
      ∀ s', os.remove path s = (.ok (), s') →
        DirectoryDevice.deleteEntries os (.entry (ftsent v) :: reads) s =
          DirectoryDevice.deleteEntries os reads s' := by
  have hstep : ∃ info errno, ftsent v = ⟨info, path, errno⟩ ∧
      (info = .f ∨ info = .sl ∨ info = .default ∨ info = .dp) := by
    cases v with
    | enter path => cases h
    | leaf path kind =>
      cases h
      refine ⟨kind.info, .other 0, rfl, ?_⟩
      cases kind <;> simp [LeafKind.info]
    | leave path =>
      cases h
      exact ⟨.dp, .other 0, rfl, by simp⟩
  obtain ⟨info, errno, hent, hinfo⟩ := hstep
  rw [hent]
  constructor
  · intro e s' hremove
    rcases hinfo with rfl | rfl | rfl | rfl <;> rw [DirectoryDevice.deleteEntries] <;>
      dsimp only <;> rw [hremove]
  · intro s' hremove
    rcases hinfo with rfl | rfl | rfl | rfl <;> rw [DirectoryDevice.deleteEntries] <;>
      dsimp only <;> rw [hremove]

/-- The entries `todo` are there, together with all that is below them, and what is below an entry
comes before it. -/
structure Removable (s : EntrySet) (todo : List (List CString)) : Prop where
  mem : ∀ p ∈ todo, p ∈ s.entries
  below : ∀ p ∈ todo, ∀ q ∈ s.entries, p <+: q → q ∈ todo
  pairwise : todo.Pairwise fun p q => ¬p <+: q

/-- The first of the entries can be removed, unless that is denied, and then the others can. -/
lemma Removable.remove {p : List CString} {todo : List (List CString)}
    (h : Removable s (p :: todo)) (hdenied : s.faults.denied p = none) :
    s.remove p = (.ok (), { s with entries := s.entries.filter (· ≠ p) }) ∧
      Removable { s with entries := s.entries.filter (· ≠ p) } todo := by
  obtain ⟨hfirst, hrest⟩ := List.pairwise_cons.mp h.pairwise
  have hmem : p ∈ s.entries := h.mem p (by simp)
  have hempty : ¬∃ q ∈ s.entries, p <+: q ∧ q ≠ p := by
    rintro ⟨q, hq, hprefix, hne⟩
    rcases List.mem_cons.mp (h.below p (by simp) q hq hprefix) with rfl | hq'
    · exact hne rfl
    · exact hfirst q hq' hprefix
  constructor
  · rw [EntrySet.remove, if_neg (not_not.mpr hmem), hdenied]
    dsimp only
    rw [if_neg hempty]
  · refine ⟨fun q hq => ?_, fun q hq r hr hprefix => ?_, hrest⟩
    · have hne : q ≠ p := fun he => hfirst q hq (he ▸ List.prefix_refl _)
      simp [h.mem q (List.mem_cons_of_mem _ hq), hne]
    · rw [List.mem_filter, decide_eq_true_iff] at hr
      exact (List.mem_cons.mp (h.below q (List.mem_cons_of_mem _ hq) r hr.1 hprefix)).resolve_left
        hr.2

lemma Removable.remove_denied {p : List CString} {todo : List (List CString)} {e : Errno}
    (h : Removable s (p :: todo)) (hdenied : s.faults.denied p = some e) :
    s.remove p = (.error e, s) := by
  rw [EntrySet.remove, if_neg (not_not.mpr (h.mem p (by simp))), hdenied]

lemma forall_failure_succ {readFault' : Option (ℕ × FtsFault)} {i : ℕ}
    (hfirst : failureAt readFault denied (v :: vs) 0 = none)
    (hnext : ∀ i, failureAt readFault denied (v :: vs) (i + 1) = failureAt readFault' denied vs i)
    (h : ∀ j < i, failureAt readFault' denied vs j = none) :
    ∀ j < i + 1, failureAt readFault denied (v :: vs) j = none := by
  intro j hj
  cases j with
  | zero => exact hfirst
  | succ j =>
    rw [hnext]
    exact h j (Nat.lt_of_succ_lt_succ hj)

/-- **The loop.**  Up to the first failure, or to the end, all that the walk is done with has been
removed, and nothing else. -/
lemma deleteEntries_run (readFault : Option (ℕ × FtsFault))
    (h : Removable s (vs.filterMap Visit.finished)) :
    ∃ i ≤ vs.length,
      (∀ p, p ∈ (DirectoryDevice.deleteEntries EntrySet.fts (ftsReads vs readFault) s).2.entries ↔
        p ∈ s.entries ∧ p ∉ (vs.take i).filterMap Visit.finished) ∧
      (∀ j < i, failureAt readFault s.faults.denied vs j = none) ∧
      ((i = vs.length ∧
          (DirectoryDevice.deleteEntries EntrySet.fts (ftsReads vs readFault) s).1 =
            (false, none)) ∨
        ∃ error e, failureAt readFault s.faults.denied vs i = some e ∧
          (DirectoryDevice.deleteEntries EntrySet.fts (ftsReads vs readFault) s).1 =
            (error, some e)) := by
  induction vs generalizing readFault s with
  | nil =>
    refine ⟨0, le_rfl, fun p => ?_, fun j hj => absurd hj (Nat.not_lt_zero j), Or.inl ⟨rfl, ?_⟩⟩
    · simp [ftsReads, DirectoryDevice.deleteEntries]
    · rfl
  | cons v vs ih =>
    -- the walk goes on only when this step does not fail
    rcases ftsReads_cons readFault s.faults.denied v vs with
      ⟨fault, hreads, hfailure⟩ | ⟨readFault', hreads, hfirst, hnext⟩
    · obtain ⟨error, hrun⟩ := @deleteEntries_fault s EntrySet.fts v.path fault
      rw [hreads, hrun]
      exact ⟨0, Nat.zero_le _, fun p => by simp, fun j hj => absurd hj (Nat.not_lt_zero j),
        Or.inr ⟨error, _, hfailure, rfl⟩⟩
    rw [hreads]
    cases hfinished : v.finished with
    | none =>
      rw [List.filterMap_cons_none hfinished] at h
      obtain ⟨i, hi, hentries, hnone, hend⟩ := ih readFault' h
      rw [deleteEntries_enter EntrySet.fts hfinished]
      refine ⟨i + 1, Nat.succ_le_succ hi, fun p => ?_, ?_, ?_⟩
      · rw [hentries, List.take_succ_cons, List.filterMap_cons_none hfinished]
      · exact forall_failure_succ (by rw [hfirst, hfinished]; rfl) hnext hnone
      · rw [hnext, List.length_cons, Nat.add_right_cancel_iff]
        exact hend
    | some path =>
      rw [List.filterMap_cons_some hfinished] at h
      obtain ⟨hfailed, hremoved⟩ := @deleteEntries_finished v s EntrySet.fts path hfinished
        (ftsReads vs readFault')
      cases hdenied : s.faults.denied path with
      | some e =>
        rw [hfailed e s (h.remove_denied hdenied)]
        refine ⟨0, Nat.zero_le _, fun p => by simp, fun j hj => absurd hj (Nat.not_lt_zero j),
          Or.inr ⟨true, e, ?_, rfl⟩⟩
        rw [hfirst, hfinished]
        exact hdenied
      | none =>
        obtain ⟨hremove, hremovable⟩ := h.remove hdenied
        obtain ⟨i, hi, hentries, hnone, hend⟩ := ih readFault' hremovable
        rw [hremoved _ hremove]
        refine ⟨i + 1, Nat.succ_le_succ hi, fun p => ?_, ?_, ?_⟩
        · rw [hentries, List.take_succ_cons, List.filterMap_cons_some hfinished, List.mem_filter,
            decide_eq_true_iff, List.mem_cons, not_or]
          tauto
        · exact forall_failure_succ (by rw [hfirst, hfinished]; exact hdenied) hnext hnone
        · rw [hnext, List.length_cons, Nat.add_right_cancel_iff]
          exact hend

end Run

/-! ### The report -/

section Report

variable {system : TreeSystem} {root : List CString} {tree : NamedTree CString LeafKind}
  {faults : DeleteFaults}

/-- The step `i` is the first one that fails. -/
def FirstFailure (faults : DeleteFaults) (visits : List (Visit CString LeafKind)) (i : ℕ)
    (e : Errno) : Prop :=
  failureAt faults.readFault faults.denied visits i = some e ∧
    ∀ j < i, failureAt faults.readFault faults.denied visits j = none

/-- The report on the tree at `root` is true: `LFS_OK` tells that it is gone, nothing around it is,
and an error is that of the first failure, behind which nothing has been removed. -/
structure Truthful (system : TreeSystem) (root : List CString)
    (tree : NamedTree CString LeafKind) (faults : DeleteFaults) (r : ErrorCode × EntrySet) :
    Prop where
  ok_iff : r.1 = .ok ↔ ∀ p ∈ tree.paths root, p ∉ r.2.entries
  outside : ∀ p, p ∉ tree.paths root → (p ∈ r.2.entries ↔ p ∈ system.tree.paths [])
  error_eq : r.1 ≠ .ok →
    (∃ e, faults.openError = some e ∧ r.1 = convertError e ∧
        ∀ p ∈ tree.paths root, p ∈ r.2.entries) ∨
      faults.openError = none ∧ ∃ i e, FirstFailure faults (tree.visits root) i e ∧
        r.1 = convertError e ∧
        ∀ p ∈ ((tree.visits root).drop i).filterMap Visit.finished, p ∈ r.2.entries

/-- What is in the tree is in the file system. -/
lemma mem_paths_of_below (htree : system.tree.below root = some tree) {p : List CString}
    (hp : p ∈ tree.paths root) : p ∈ system.tree.paths [] := by
  rw [NamedTree.mem_paths_iff (system.distinct.below htree)] at hp
  obtain ⟨r, rfl, hr⟩ := hp
  rw [NamedTree.mem_paths_iff system.distinct]
  exact ⟨root ++ r, rfl, by rw [NamedTree.below_append, htree]; exact hr⟩

/-- What is in the file system at `root` or below it is in the tree. -/
lemma mem_paths_of_prefix (htree : system.tree.below root = some tree) {p : List CString}
    (hp : p ∈ system.tree.paths []) (hpre : root <+: p) : p ∈ tree.paths root := by
  obtain ⟨r, rfl⟩ := hpre
  rw [NamedTree.mem_paths_iff system.distinct] at hp
  obtain ⟨q, hq, hbelow⟩ := hp
  rw [List.nil_append] at hq
  rw [← hq, NamedTree.below_append, htree] at hbelow
  exact (NamedTree.mem_paths_iff (system.distinct.below htree) root _).mpr ⟨r, rfl, hbelow⟩

lemma removable_start (htree : system.tree.below root = some tree) (faults : DeleteFaults) :
    Removable (system.start faults) ((tree.visits root).filterMap Visit.finished) :=
  ⟨fun _ hp => mem_paths_of_below htree hp,
    fun _ hp _ hq hpre =>
      mem_paths_of_prefix htree hq ((NamedTree.prefix_of_mem hp).trans hpre),
    NamedTree.pairwise_paths (system.distinct.below htree) root⟩

/-- The walk is done with an entry only once. -/
lemma not_mem_take (hdistinct : tree.Distinct) {i : ℕ} {p : List CString}
    (h : p ∈ ((tree.visits root).drop i).filterMap Visit.finished) :
    p ∉ ((tree.visits root).take i).filterMap Visit.finished := by
  have hpairwise := NamedTree.pairwise_paths hdistinct root
  rw [NamedTree.paths, ← List.take_append_drop i (tree.visits root), List.filterMap_append,
    List.pairwise_append] at hpairwise
  exact fun htake => hpairwise.2.2 p htake p h (List.prefix_refl p)

lemma mem_paths_of_drop {i : ℕ} {p : List CString}
    (h : p ∈ ((tree.visits root).drop i).filterMap Visit.finished) : p ∈ tree.paths root :=
  ((List.drop_sublist i _).filterMap _).subset h

lemma mem_paths_of_take {i : ℕ} {p : List CString}
    (h : p ∈ ((tree.visits root).take i).filterMap Visit.finished) : p ∈ tree.paths root :=
  ((List.take_sublist i _).filterMap _).subset h

/-- **Deleting a directory.**  Whatever fails, the report on the tree that the path leads to is
true, unless it is `fts_open` that fails. -/
theorem deleteDir_truthful_iff (dev : DirectoryDevice) (path : CString) (faults : DeleteFaults)
    (hpath : system.leadsTo (dev.getDevicePath path) = .ok root)
    (htree : system.tree.below root = some tree) :
    Truthful system root tree faults (dev.deleteDir EntrySet.fts path (system.start faults)) ↔
      faults.openError = none := by
  cases hopen : faults.openError with
  | some e =>
    have hrun : dev.deleteDir EntrySet.fts path (system.start faults) =
        (.ok, system.start faults) := by
      have hfts : EntrySet.fts.ftsOpen (dev.getDevicePath path) (system.start faults) =
          (none, system.start faults) := by
        have herror : (system.start faults).faults.openError = some e := hopen
        show EntrySet.ftsOpen (dev.getDevicePath path) (system.start faults) = _
        rw [EntrySet.ftsOpen, herror]
      rw [DirectoryDevice.deleteDir, hfts]
    rw [hrun]
    refine iff_of_false (fun h => ?_) nofun
    have hroot := tree.mem_paths_self root
    exact h.ok_iff.mp rfl root hroot (mem_paths_of_below htree hroot)
  | none =>
    have hfts : EntrySet.fts.ftsOpen (dev.getDevicePath path) (system.start faults) =
        (some (ftsReads (tree.visits root) faults.readFault), system.start faults) := by
      have herror : (system.start faults).faults.openError = none := hopen
      have hlead : (system.start faults).system.leadsTo (dev.getDevicePath path) = .ok root :=
        hpath
      have hbelow : (system.start faults).system.tree.below root = some tree := htree
      show EntrySet.ftsOpen (dev.getDevicePath path) (system.start faults) = _
      rw [EntrySet.ftsOpen, herror, hlead]
      dsimp only
      rw [hbelow]
      rfl
    obtain ⟨i, hi, hentries, hnone, hend⟩ :=
      deleteEntries_run faults.readFault (removable_start htree faults)
    rw [DirectoryDevice.deleteDir, hfts]
    dsimp only
    rw [show (system.start faults).entries = system.tree.paths [] from rfl] at hentries
    generalize DirectoryDevice.deleteEntries EntrySet.fts
      (ftsReads (tree.visits root) faults.readFault) (system.start faults) = r at hentries hend
    obtain ⟨⟨error, errno⟩, s⟩ := r
    refine iff_of_true ?_ rfl
    have houtside : ∀ p, p ∉ tree.paths root → (p ∈ s.entries ↔ p ∈ system.tree.paths []) := by
      intro p hp
      have htake := fun h => hp (mem_paths_of_take (i := i) h)
      rw [hentries, and_iff_left htake]
    rcases hend with ⟨rfl, hrun⟩ | ⟨error', e, hfailure, hrun⟩
    · -- nothing fails
      cases hrun
      refine ⟨iff_of_true rfl fun p hp hs => ?_, houtside, fun h => absurd rfl h⟩
      have hnot := ((hentries p).mp hs).2
      rw [List.take_length] at hnot
      exact hnot hp
    · -- the walk ends before the root, the last entry, has been removed
      cases hrun
      have hlt : i < (tree.visits root).length := by
        by_contra hge
        rw [failureAt, List.getElem?_eq_none (Nat.le_of_not_lt hge)] at hfailure
        cases hfailure
      have hleft : ∀ p ∈ ((tree.visits root).drop i).filterMap Visit.finished,
          p ∈ s.entries := by
        intro p hp
        rw [hentries]
        exact ⟨mem_paths_of_below htree (mem_paths_of_drop hp),
          not_mem_take (system.distinct.below htree) hp⟩
      have herror : (if error || (some e).isSome then
          (some e).elim ErrorCode.genericError convertError else .ok) = convertError e := by
        simp
      refine ⟨iff_of_false ?_ fun h => ?_, houtside, fun _ => Or.inr ⟨hopen, i, e,
        ⟨hfailure, hnone⟩, herror, hleft⟩⟩
      · rw [herror]
        exact convertError_ne_ok e
      · exact h root (tree.mem_paths_self root) (hleft _ (tree.mem_finished_drop root hlt))

/-- The directory `/a`, which contains the file `b` and the directory `c`, next to the file `/f`.
Only the paths `/a` and `/f` are found. -/
def smallSystem : TreeSystem where
  tree := .dir (.dir [97] (.leaf [98] .file (.dir [99] .nil .nil)) (.leaf [102] .file .nil))
  distinct := by simp [NamedTree.Distinct, Forest.Distinct, Forest.names]
  leadsTo path :=
    if path = [slash, 97] then .ok [[97]]
    else if path = [slash, 102] then .ok [[102]] else .error .enoent

/-- The directory `/a` is deleted, but for its file, which cannot be removed. -/
theorem deleteDir_truthful_iff_denied :
    Truthful smallSystem [[97]] (.dir (.leaf [98] .file (.dir [99] .nil .nil)))
        { denied := fun p => if p = [[97], [98]] then some .eacces else none }
        ((DirectoryDevice.new [slash]).deleteDir EntrySet.fts [97]
          (smallSystem.start
            { denied := fun p => if p = [[97], [98]] then some .eacces else none })) ↔
      ({ denied := fun p => if p = [[97], [98]] then some .eacces else none } :
        DeleteFaults).openError = none :=
  @deleteDir_truthful_iff smallSystem _ _ _ _ _ (by decide) rfl

/-- When `fts_open` has no memory, the directory is reported as deleted and is still there. -/
theorem deleteDir_not_truthful :
    ((DirectoryDevice.new []).deleteDir EntrySet.fts [slash, 97]
        (smallSystem.start { openError := some (.other 12) })).1 = .ok ∧
      ¬Truthful smallSystem [[97]] (.dir (.leaf [98] .file (.dir [99] .nil .nil)))
        { openError := some (.other 12) }
        ((DirectoryDevice.new []).deleteDir EntrySet.fts [slash, 97]
          (smallSystem.start { openError := some (.other 12) })) :=
  ⟨rfl, fun h => h.ok_iff.mp rfl [[97]] (by decide) (by decide)⟩

end Report

end LaminaFS
