/-
# Devices that share a disk

Several directory devices, whose root paths lead to directories of which none is below another, and
do not go through any of these directories.  Whatever is called on the devices with the device paths
that requests have, the disk goes on as folders that know nothing of each other, and what is outside
of these directories stays as it is.
-/
import LaminaFS.Device.Folder
import LaminaFS.Mount.Matching
import LaminaFS.Processing.Correspondence

namespace LaminaFS

open Components

/-- The root paths of devices, and the directories that they lead to. -/
abbrev Layout := List (CString × List CString)

namespace Layout

/-- What is outside of the directories of the devices. -/
def outside (l : Layout) (s : Folder) : Folder :=
  fun q => if ∃ r ∈ l, r.2 <+: q then none else s q

/-- The devices do not get in each other's way on a disk on which there is this. -/
structure Sound (plat : Platform) (l : Layout) (s : Folder) : Prop where
  /-- the length of the path fits into `_pathLen` -/
  fits : ∀ r ∈ l, r.1.length < 2 ^ 32
  accepts : ∀ r ∈ l, r.1 ≠ [] ∧ plat.Accepts r.1
  apart : ∀ r ∈ l, ∀ r' ∈ l, r.2 <+: r'.2 → r.2 = r'.2
  /-- neither the root directory nor the working directory is in a directory of a device -/
  free : ∀ r ∈ l, r.2 ≠ [] ∧ ¬r.2 <+: plat.workingDir
  /-- the path leads there, and all directories on the way are outside -/
  leads : ∀ r ∈ l, (l.outside s).walk (Platform.beginning plat r.1)
    ((r.1.splitOn slash).rdropWhile (· = [])) = .ok r.2
  /-- what is there has a path that is not too long -/
  short : ∀ r ∈ l, ∀ q, s (r.2 ++ q) ≠ none → plat.Accepts (r.1 ++ slash :: led slash q)

/-- The device paths that requests have, if they are not too long. -/
def Takes (plat : Platform) (l : Layout) (devicePath : CString) : Prop :=
  Contained devicePath ∧ ∀ r ∈ l, plat.Accepts (r.1 ++ slash :: devicePath)

end Layout

/-! ### Paths that are not too long -/

namespace Platform

variable {plat : Platform}

lemma Accepts.of_components {path path' : CString} (h : plat.Accepts path)
    (hsub : path'.Sublist path)
    (hcomponents : ∀ c ∈ path'.splitOn slash, c = [] ∨ c ∈ path.splitOn slash) :
    plat.Accepts path' := by
  refine ⟨fun h0 => h.1 (hsub.subset h0), hsub.length_le.trans_lt h.2.1, fun c hc => ?_⟩
  rcases hcomponents c hc with rfl | hc
  · exact Nat.zero_le _
  · exact h.2.2 c hc

/-- A path stays short when names in it are left out. -/
lemma Accepts.leave_out {root names rest : CString}
    (h : plat.Accepts (root ++ slash :: (names ++ slash :: rest))) :
    plat.Accepts (root ++ slash :: slash :: rest) ∧ plat.Accepts (root ++ slash :: rest) := by
  have hsub := List.sublist_append_right names (slash :: rest)
  have hmem (c : CString) (hc : c ∈ root.splitOn slash ∨ c ∈ rest.splitOn slash) :
      c ∈ (root ++ slash :: (names ++ slash :: rest)).splitOn slash := by
    rw [List.splitOn_append_cons_self, List.splitOn_append_cons_self, List.mem_append,
      List.mem_append]
    tauto
  constructor
  · refine h.of_components ((hsub.cons_cons slash).append_left root) fun c hc => ?_
    rw [List.splitOn_append_cons_self, List.mem_append, ← List.nil_append (slash :: rest),
      List.splitOn_append_cons_self, List.mem_append, List.splitOn_nil, List.mem_singleton] at hc
    rcases hc with hc | hc | hc
    · exact Or.inr (hmem c (Or.inl hc))
    · exact Or.inl hc
    · exact Or.inr (hmem c (Or.inr hc))
  · refine h.of_components ((hsub.cons slash).append_left root) fun c hc => ?_
    rw [List.splitOn_append_cons_self, List.mem_append] at hc
    exact Or.inr (hmem c hc)

/-- A slash more or less in front of a path that begins with one. -/
lemma Accepts.of_cons {root dp : CString} (hdp : dp.head? = some slash)
    (h : plat.Accepts (root ++ slash :: dp)) : plat.Accepts (root ++ dp) := by
  obtain ⟨rest, rfl⟩ := List.head?_eq_some_iff.mp hdp
  exact (@Accepts.leave_out plat root [] rest h).2

/-- A path is short when a longer one that ends with it is. -/
lemma Accepts.of_suffix {root path dp : CString} (hdp : dp.head? = some slash)
    (hsuffix : dp <:+ path) (h : plat.Accepts (root ++ slash :: path)) :
    plat.Accepts (root ++ slash :: dp) := by
  obtain ⟨names, rfl⟩ := hsuffix
  obtain ⟨rest, rfl⟩ := List.head?_eq_some_iff.mp hdp
  exact h.leave_out.1

end Platform

/-! ### Where device paths lead -/

variable {plat : Platform} {l : Layout} {s₀ s : Folder} {r : CString × List CString}
  {u : Folders} {dp : CString}

/-- The names along a path of a device and a device path. -/
lemma splitOn_append_device (root : CString) (hdp : Contained dp) :
    (root ++ dp).splitOn slash = root.splitOn slash ++ Folder.names dp := by
  obtain ⟨rest, rfl⟩ := List.head?_eq_some_iff.mp hdp.1
  rw [List.splitOn_append_cons_self, Folder.names, List.splitOn_cons_eq_if_modifyHead]
  simp

/-- A device path is a slash, or has proper names only. -/
lemma names_of_contained (hdp : Contained dp) :
    dp = [slash] ∧ Folder.names dp = [[]] ∨
      Folder.names dp ≠ [] ∧ (∀ c ∈ Folder.names dp, ProperName c) ∧
        dp = led slash (Folder.names dp) := by
  rcases hdp.cases with rfl | ⟨names, hne, hnames, rfl⟩
  · exact Or.inl ⟨rfl, rfl⟩
  · have heq : Folder.names (led slash names) = names := by
      rw [Folder.names, splitOn_led fun c hc => (hnames c hc).2, List.tail_cons]
    rw [heq]
    exact Or.inr ⟨hne, fun c hc => (hnames c hc).1, rfl⟩

lemma names_ne_nil (hdp : Contained dp) : Folder.names dp ≠ [] := by
  rcases names_of_contained hdp with ⟨-, h⟩ | ⟨h, -⟩
  · rw [h]
    exact List.cons_ne_nil _ _
  · exact h

lemma ne_dotdot_of_contained (hdp : Contained dp) : ∀ c ∈ Folder.names dp, c ≠ [dot, dot] := by
  rcases names_of_contained hdp with ⟨-, h⟩ | ⟨-, h, -⟩
  · rw [h]
    simp
  · exact fun c hc => (h c hc).2.2

/-- Proper names stay when the slashes at the end are dropped. -/
lemma rdropWhile_names {names : List CString} (before : List CString) (hne : names ≠ [])
    (h : ∀ c ∈ names, ProperName c) :
    (before ++ names).rdropWhile (· = []) = before ++ names := by
  rw [List.rdropWhile_eq_self_iff]
  intro hl
  rw [List.getLast_append_of_ne_nil _ hne, decide_eq_true_eq]
  exact (h _ (List.getLast_mem hne)).1

lemma beginning_append {root : CString} (hroot : root ≠ []) (path : CString) :
    plat.beginning (root ++ path) = plat.beginning root := by
  obtain ⟨b, root, rfl⟩ := List.exists_cons_of_ne_nil hroot
  rfl

/-- The slashes at the end of a root path. -/
lemma exists_replicate (root : CString) : ∃ n, root.splitOn slash =
    (root.splitOn slash).rdropWhile (· = []) ++ List.replicate n [] := by
  obtain ⟨n, hn⟩ : ∃ n, (root.splitOn slash).rtakeWhile (· = []) = List.replicate n [] :=
    ⟨_, List.eq_replicate_of_mem fun c hc => by simpa using List.mem_rtakeWhile_imp hc⟩
  exact ⟨n, by rw [← hn, List.rdropWhile_append_rtakeWhile]⟩

/-- What a device path leads to in a folder has this path, or is the folder itself. -/
def Arrives (dp : CString) (p : List CString) : Prop :=
  led slash p = dp ∨ dp = [slash] ∧ p = []

lemma arrives_of_locate (hdp : Contained dp) {p : List CString} (h : s.locate dp = .ok p) :
    Arrives dp p := by
  rw [Folder.locate] at h
  rcases names_of_contained hdp with ⟨hdp, hnames⟩ | ⟨-, hnames, heq⟩
  · rw [hnames] at h
    exact Or.inr ⟨hdp, Folder.eq_of_walk_slashes (n := 1) h⟩
  · rw [Folder.eq_of_walk_names hnames h, List.nil_append]
    exact Or.inl heq.symm

lemma arrives_of_locateNew (hdp : Contained dp) {p : List CString} (h : s.locateNew dp = .ok p) :
    Arrives dp p := by
  rw [Folder.locateNew] at h
  rcases names_of_contained hdp with ⟨hdp, hnames⟩ | ⟨hne, hnames, heq⟩
  · rw [hnames] at h
    exact Or.inr ⟨hdp, (Except.ok.inj h).symm⟩
  · have hdrop := rdropWhile_names [] hne hnames
    rw [List.nil_append] at hdrop
    rw [hdrop] at h
    rw [Folder.eq_of_walk_names hnames h, List.nil_append]
    exact Or.inl heq.symm

lemma arrives_of_locateCreate (hdp : Contained dp) {p : List CString}
    (h : s.locateCreate plat dp = .ok p) : Arrives dp p := by
  rw [Folder.locateCreate] at h
  split at h
  · split at h <;> cases h
  · exact arrives_of_locate hdp h

/-- What a short device path leads to has a short path. -/
lemma Layout.Takes.accepts (hdp : l.Takes plat dp) {p : List CString} (h : Arrives dp p) :
    ∀ r ∈ l, plat.Accepts (r.1 ++ slash :: led slash p) := by
  intro r hr
  rcases h with rfl | ⟨rfl, rfl⟩
  · exact hdp.2 r hr
  · exact (hdp.2 r hr).of_cons rfl

/-! ### The disk and the folders -/

/-- The disk holds these folders, and outside of them what there has been. -/
structure Holds (plat : Platform) (l : Layout) (s₀ s : Folder) (u : Folders) : Prop where
  inside : ∀ r ∈ l, s.below r.2 = u r.2
  outside : ∀ q, (∀ r ∈ l, ¬r.2 <+: q) → s q = s₀ q
  short : ∀ r ∈ l, ∀ q, u r.2 q ≠ none → plat.Accepts (r.1 ++ slash :: led slash q)

namespace Holds

/-- In the beginning the folders are what is below the directories. -/
lemma start (hl : l.Sound plat s) : Holds plat l s s s.below :=
  ⟨fun _ _ => rfl, fun _ _ => rfl, hl.short⟩

lemma inside_apply (h : Holds plat l s₀ s u) (hr : r ∈ l) (q : List CString) :
    s (r.2 ++ q) = u r.2 q :=
  congrFun (h.inside r hr) q

/-- The path of a device leads to its directory. -/
lemma walk_root (h : Holds plat l s₀ s u) (hl : l.Sound plat s₀) (hr : r ∈ l) :
    s.walk (plat.beginning r.1) ((r.1.splitOn slash).rdropWhile (· = [])) = .ok r.2 := by
  refine Folder.walk_mono (fun q hq => ?_) (hl.leads r hr)
  rw [Layout.outside] at hq ⊢
  split
  · rename_i hin
    rw [if_pos hin] at hq
    exact absurd rfl hq
  · rename_i hout
    exact h.outside q fun r hr hpre => hout ⟨r, hr, hpre⟩

/-- From the root of a device on a device path leads to the same place as in the folder. -/
lemma walk_device (h : Holds plat l s₀ s u) (hl : l.Sound plat s₀) (hr : r ∈ l) (n : ℕ)
    {names : List CString} (hne : names ≠ []) (hnames : ∀ c ∈ names, c ≠ [dot, dot]) :
    s.walk (plat.beginning r.1) ((r.1.splitOn slash).rdropWhile (· = []) ++
      (List.replicate n [] ++ names)) = ((u r.2).walk [] names).map (r.2 ++ ·) := by
  rw [Folder.walk_append, h.walk_root hl hr]
  show s.walk r.2 (List.replicate n [] ++ names) = _
  rw [Folder.walk_replicate n hne]
  have hbelow := Folder.walk_below s r.2 [] hnames
  rwa [List.append_nil, h.inside r hr] at hbelow

lemma locate_eq (h : Holds plat l s₀ s u) (hl : l.Sound plat s₀) (hr : r ∈ l)
    (hdp : Contained dp) :
    plat.locate (r.1 ++ dp) s = ((u r.2).locate dp).map (r.2 ++ ·) := by
  obtain ⟨n, hn⟩ := exists_replicate r.1
  have hroot := (hl.accepts r hr).1
  rw [Platform.locate, if_neg (by simp [hroot]), beginning_append hroot,
    splitOn_append_device _ hdp, hn, List.append_assoc,
    h.walk_device hl hr n (names_ne_nil hdp) (ne_dotdot_of_contained hdp)]
  rfl

lemma locateNew_eq (h : Holds plat l s₀ s u) (hl : l.Sound plat s₀) (hr : r ∈ l)
    (hdp : Contained dp) :
    plat.locateNew (r.1 ++ dp) s = ((u r.2).locateNew dp).map (r.2 ++ ·) := by
  have hroot := (hl.accepts r hr).1
  rw [Platform.locateNew, if_neg (by simp [hroot]), beginning_append hroot,
    splitOn_append_device _ hdp, Folder.locateNew]
  rcases names_of_contained hdp with ⟨-, hnames⟩ | ⟨hne, hnames, -⟩
  · -- the directory of the device itself
    rw [hnames, List.rdropWhile_concat_pos _ _ _ (by simp), h.walk_root hl hr]
    show _ = Except.ok (r.2 ++ [])
    rw [List.append_nil]
  · obtain ⟨n, hn⟩ := exists_replicate r.1
    have hdrop := rdropWhile_names [] hne hnames
    rw [List.nil_append] at hdrop
    rw [rdropWhile_names _ hne hnames, hdrop]
    conv_lhs => rw [hn]
    rw [List.append_assoc]
    exact h.walk_device hl hr n hne fun c hc => (hnames c hc).2.2

lemma locateCreate_eq (h : Holds plat l s₀ s u) (hl : l.Sound plat s₀) (hr : r ∈ l)
    (hdp : Contained dp) :
    plat.locateCreate (r.1 ++ dp) s = ((u r.2).locateCreate plat dp).map (r.2 ++ ·) := by
  have hlast : (r.1 ++ dp).getLast? = dp.getLast? := by
    refine List.getLast?_append_of_ne_nil _ ?_
    rintro rfl
    cases hdp.1
  rw [Platform.locateCreate, Folder.locateCreate, hlast]
  split
  · rw [h.locateNew_eq hl hr hdp]
    cases (u r.2).locateNew dp with
    | error e => rfl
    | ok p =>
      show Except.error (plat.createSlash (s (r.2 ++ p))) = _
      rw [h.inside_apply hr]
      rfl
  · exact h.locate_eq hl hr hdp

/-! ### What the functions do -/

/-- Something else is put into the directory of a device. -/
lemma put (h : Holds plat l s₀ s u) (hl : l.Sound plat s₀) (hr : r ∈ l) {p : List CString}
    (hp : ∀ r ∈ l, plat.Accepts (r.1 ++ slash :: led slash p))
    (x : Option (TreeEntry FileBytes)) :
    Holds plat l s₀ (s.put (r.2 ++ p) x) (Function.update u r.2 ((u r.2).put p x)) := by
  refine ⟨fun r' hr' => ?_, fun q hq => ?_, fun r' hr' q hq => ?_⟩
  · funext q
    rw [Folder.below, Folder.put]
    by_cases heq : r'.2 = r.2
    · rw [heq, Function.update_self, Folder.put, h.inside_apply hr]
      simp only [List.append_cancel_left_eq, List.prefix_append_right_inj]
    · -- the other directory is neither above nor below
      have hapart : ¬r.2 ++ p <+: r'.2 ++ q := by
        intro hpre
        have hpre : r.2 <+: r'.2 ++ q := (List.prefix_append _ _).trans hpre
        rcases List.prefix_or_prefix_of_prefix hpre (List.prefix_append r'.2 q) with hle | hle
        · exact heq (hl.apart r hr r' hr' hle).symm
        · exact heq (hl.apart r' hr' r hr hle)
      have hne : r'.2 ++ q ≠ r.2 ++ p := fun he => hapart (he ▸ List.prefix_refl _)
      rw [if_neg hne, if_neg hapart, Function.update_of_ne heq]
      exact h.inside_apply hr' q
  · have hout : ¬r.2 ++ p <+: q := fun hpre => hq r hr ((List.prefix_append _ _).trans hpre)
    have hne : q ≠ r.2 ++ p := fun he => hout (he ▸ List.prefix_refl _)
    rw [Folder.put, if_neg hne, if_neg hout]
    exact h.outside q hq
  · by_cases heq : r'.2 = r.2
    · rw [heq, Function.update_self, Folder.put] at hq
      split_ifs at hq with hqp hpre
      · rw [hqp]
        exact hp r' hr'
      · exact absurd rfl hq
      · exact h.short r' hr' q (heq ▸ hq)
    · rw [Function.update_of_ne heq] at hq
      exact h.short r' hr' q hq

/-- **The step lemma.**  What a function of a device does at a place is what is done to the
folder. -/
lemma access {α : Type} (h : Holds plat l s₀ s u) (hl : l.Sound plat s₀) (hr : r ∈ l)
    {target : Except Errno (List CString)} {place : Folder → Except Errno (List CString)}
    (htarget : target = (place (u r.2)).map (r.2 ++ ·))
    (hp : ∀ p, place (u r.2) = .ok p → ∀ r ∈ l, plat.Accepts (r.1 ++ slash :: led slash p))
    (f : Spot → α × Edit) :
    (f (s.spotOf plat [] target)).1 = (Folders.access plat r.2 place f u).1 ∧
      Holds plat l s₀ (s.edit target (f (s.spotOf plat [] target)).2)
        (Folders.access plat r.2 place f u).2 := by
  have hspot : s.spotOf plat [] target = (u r.2).spotOf plat r.2 (place (u r.2)) := by
    rw [htarget]
    cases place (u r.2) with
    | error e => rfl
    | ok p =>
      have hbelow : s.below (r.2 ++ p) = (u r.2).below p := by
        funext q
        rw [Folder.below, List.append_assoc, h.inside_apply hr]
        rfl
      show Spot.of (plat.dirEnd (r.2 ++ p) (s.below (r.2 ++ p))) (s (r.2 ++ p)) = _
      rw [hbelow, h.inside_apply hr]
      rfl
  refine ⟨by rw [hspot]; rfl, ?_⟩
  rw [hspot, Folders.access]
  generalize (f _).2 = e
  have hsame : Holds plat l s₀ s (Function.update u r.2 (u r.2)) := by
    rwa [Function.update_eq_self]
  cases hplace : place (u r.2) with
  | error e =>
    rw [htarget, hplace]
    exact hsame
  | ok p =>
    rw [htarget, hplace]
    cases e with
    | none => exact hsame
    | some x => exact h.put hl hr (hp p hplace) x

/-- At the root path of a device there is a directory if there is one in the folder. -/
lemma stat_root (h : Holds plat l s₀ s u) (hl : l.Sound plat s₀) (hr : r ∈ l) :
    plat.stat r.1 s = .ok .directory ↔ u r.2 [] = some .dir := by
  have hentry : s r.2 = u r.2 [] := by rw [← h.inside_apply hr, List.append_nil]
  obtain ⟨n, hn⟩ := exists_replicate r.1
  have hloc : plat.locate r.1 s = s.walk r.2 (List.replicate n []) := by
    rw [Platform.locate, if_neg (hl.accepts r hr).1, hn, Folder.walk_append, h.walk_root hl hr]
    rfl
  rw [Platform.stat, hloc]
  constructor
  · intro hstat
    cases hw : s.walk r.2 (List.replicate n []) with
    | error e =>
      rw [hw] at hstat
      cases hstat
    | ok p =>
      rw [hw, Folder.eq_of_walk_slashes hw] at hstat
      dsimp only at hstat
      rw [hentry] at hstat
      split at hstat <;> first | assumption | cases hstat
  · intro hdir
    rw [Folder.walk_slashes n (hentry.trans hdir)]
    dsimp only
    rw [hentry, hdir]

end Holds

/-- At the end of the path that a device makes there is a name. -/
lemma Layout.Sound.endsInName (hl : l.Sound plat s₀) (hr : r ∈ l) (hdp : Contained dp) :
    Platform.EndsInName (r.1 ++ dp) := by
  intro c hc
  rw [splitOn_append_device _ hdp] at hc
  rcases names_of_contained hdp with ⟨-, hnames⟩ | ⟨hne, hnames, -⟩
  · -- the name that the root path ends in: otherwise the path would go through the directory
    rw [hnames, List.rdropWhile_concat_pos _ _ _ (by simp)] at hc
    obtain ⟨cs, hcs⟩ := List.getLast?_eq_some_iff.mp hc
    have hleads := hl.leads r hr
    rw [hcs, Folder.walk_append] at hleads
    cases hw : (l.outside s₀).walk (plat.beginning r.1) cs with
    | error e =>
      rw [hw] at hleads
      cases hleads
    | ok m =>
      rw [hw] at hleads
      change (l.outside s₀).walk m [c] = .ok r.2 at hleads
      have hout : ¬r.2 <+: m := by
        intro hpre
        rw [Folder.walk, Layout.outside, if_pos ⟨r, hr, hpre⟩] at hleads
        cases hleads
      have henter : Folder.enter m c = r.2 := by
        rw [Folder.walk] at hleads
        split at hleads
        · cases hleads
        · cases hleads
        · exact Except.ok.inj hleads
      constructor
      · rintro rfl
        rw [Folder.enter, if_pos (Or.inr rfl)] at henter
        exact hout (henter ▸ List.prefix_refl _)
      · rintro rfl
        rw [Folder.enter, if_neg (by decide), if_pos rfl] at henter
        exact hout (henter ▸ List.dropLast_prefix m)
  · rw [rdropWhile_names _ hne hnames] at hc
    have hmem : c ∈ Folder.names dp := by
      rw [List.getLast?_append_of_ne_nil _ hne] at hc
      exact List.mem_of_getLast? hc
    exact (hnames c hmem).2

/-! ### The device types -/

/-- How devices on the disk correspond to folders. -/
def Layout.correspondence {W : Type} {os : DirectoryCalls W} (fs : FileSystem plat os)
    (l : Layout) (s₀ : Folder) :
    Correspondence DirectoryDevice (List CString) W Folders where
  device dev top := ∃ root, (root, top) ∈ l ∧ dev = .new root
  world w := Holds plat l s₀ (fs.entries w)
  root path := path ∈ l.map Prod.fst
  path := l.Takes plat

section Interfaces

variable {W : Type} {os : DirectoryCalls W} {fs : FileSystem plat os} {rounds : ℕ}

lemma create_alike (hl : l.Sound plat s₀) {path : CString} (hpath : path ∈ l.map Prod.fst)
    {w : W} (h : Holds plat l s₀ (fs.entries w) u) : ∃ code x x' v v',
      DirectoryDevice.create os.toPosix path w = ((code, x), v) ∧
        (Folders.interface plat l).create path u = ((code, x'), v') ∧
        Option.Rel (l.correspondence fs s₀).device x x' ∧ Holds plat l s₀ (fs.entries v) v' := by
  cases hlookup : l.lookup path with
  | none =>
    obtain ⟨r, hr, rfl⟩ := List.mem_map.mp hpath
    have := List.lookup_eq_none_iff.mp hlookup r hr
    simp at this
  | some top =>
    obtain ⟨l₁, l₂, rfl, -⟩ := List.lookup_eq_some_iff.mp hlookup
    have hr : (path, top) ∈ l₁ ++ (path, top) :: l₂ := by simp
    have hstat := h.stat_root hl hr
    rw [← fs.stat w path (hl.accepts _ hr).2] at hstat
    rw [DirectoryDevice.create]
    by_cases hdir : u top [] = some .dir
    · rw [hstat.mpr hdir, Folders.create_of_dir plat hlookup hdir]
      exact ⟨_, _, _, _, _, rfl, rfl, .some ⟨path, hr, rfl⟩, h⟩
    · rw [Folders.create_of_no_dir plat hlookup hdir]
      refine ⟨.notFound, none, none, w, u, ?_, rfl, .none, h⟩
      split
      · rename_i hs
        exact absurd (hstat.mp hs) hdir
      · rfl

/-- The path that a device makes. -/
lemma getDevicePath_alike (hl : l.Sound plat s₀) (hr : r ∈ l) :
    (DirectoryDevice.new r.1).getDevicePath dp = r.1 ++ dp :=
  DirectoryDevice.getDevicePath_new (hl.fits r hr) dp

/-- A function that does something at a place. -/
lemma alike_access {α : Type} (hl : l.Sound plat s₀) (hr : r ∈ l) (hdp : l.Takes plat dp)
    {target : CString → Folder → Except Errno (List CString)}
    {place : Folder → Except Errno (List CString)} {g : W → α × W} {f : Spot → α × Edit}
    (htarget : ∀ s u, Holds plat l s₀ s u → target (r.1 ++ dp) s = (place (u r.2)).map (r.2 ++ ·))
    (harrives : ∀ s p, place s = .ok p → Arrives dp p)
    (hg : ∀ w u, Holds plat l s₀ (fs.entries w) u →
      plat.Accepts ((DirectoryDevice.new r.1).getDevicePath dp) →
      let spot := target ((DirectoryDevice.new r.1).getDevicePath dp) (fs.entries w)
      let answer := f ((fs.entries w).spotOf plat [] spot)
      ∃ w', g w = (answer.1, w') ∧ fs.entries w' = (fs.entries w).edit spot answer.2) :
    (l.correspondence fs s₀).Alike g (Folders.access plat r.2 place f) := by
  intro w u h
  rw [getDevicePath_alike hl hr] at hg
  obtain ⟨w', hgw, hentries⟩ := hg w u h ((hdp.2 r hr).of_cons hdp.1.1)
  obtain ⟨hanswer, hholds⟩ := h.access hl hr (htarget _ u h)
    (fun p hp => hdp.accepts (harrives _ p hp)) f
  refine ⟨_, w', _, hgw, Prod.ext hanswer.symm rfl, ?_⟩
  show Holds plat l s₀ (fs.entries w') _
  rw [hentries]
  exact hholds

/-- A function that only looks where its path leads. -/
lemma alike_look {α : Type} (hl : l.Sound plat s₀) (hr : r ∈ l) (hdp : l.Takes plat dp)
    {g : W → α × W} {f : Spot → α}
    (hg : ∀ w, plat.Accepts ((DirectoryDevice.new r.1).getDevicePath dp) →
      ∃ w', fs.entries w' = fs.entries w ∧
        g w = (f (fs.spot ((DirectoryDevice.new r.1).getDevicePath dp) w), w')) :
    (l.correspondence fs s₀).Alike g
      (Folders.access plat r.2 (Folder.locate dp) fun spot => (f spot, none)) := by
  refine alike_access hl hr hdp (fun s u h => h.locate_eq hl hr hdp.1)
    (fun s p => arrives_of_locate hdp.1) fun w u _ haccepts => ?_
  obtain ⟨w', hentries, hgw⟩ := hg w haccepts
  exact ⟨w', hgw, by rw [Folder.edit_none, hentries]⟩

/-- What `deleteDir` needs to know of the path that the device makes. -/
lemma below_alike (hl : l.Sound plat s₀) (hr : r ∈ l) (hdp : l.Takes plat dp)
    (h : Holds plat l s₀ s u) {p : List CString} (hp : plat.locate (r.1 ++ dp) s = .ok p) :
    p ≠ [] ∧ ¬p <+: plat.workingDir ∧
      ∀ q, s (p ++ q) ≠ none → plat.Accepts (r.1 ++ dp ++ led slash q) := by
  rw [h.locate_eq hl hr hdp.1] at hp
  cases hplace : (u r.2).locate dp with
  | error e =>
    rw [hplace] at hp
    cases hp
  | ok p' =>
    rw [hplace] at hp
    obtain rfl : r.2 ++ p' = p := Except.ok.inj hp
    obtain ⟨hne, hwork⟩ := hl.free r hr
    refine ⟨by simp [hne], fun hpre => hwork ((List.prefix_append _ _).trans hpre), fun q hq => ?_⟩
    rw [List.append_assoc, h.inside_apply hr] at hq
    have hshort := h.short r hr _ hq
    rcases arrives_of_locate hdp.1 hplace with rfl | ⟨rfl, rfl⟩
    · rw [List.append_assoc, ← led_append]
      cases hnil : p' ++ q with
      | nil =>
        rw [(List.append_eq_nil_iff.mp hnil).1] at hdp
        cases hdp.1.1
      | cons c cs =>
        rw [hnil] at hshort
        exact hshort.of_cons rfl
    · simpa using hshort

/-- **The directory device on the disk corresponds to the device of folders.** -/
theorem registered_alike (hl : l.Sound plat s₀) :
    (l.correspondence fs s₀).Interfaces (DirectoryDevice.registered os rounds)
      (Folders.interface plat l) where
  create path hpath w u h := create_alike hl hpath h
  destroy _ _ _ _ _ h := h
  fileExists := by
    rintro _ top ⟨root, hr, rfl⟩ dp hdp
    exact alike_look hl hr hdp fun w haccepts => ⟨w, rfl, fs.fileExists_eq haccepts⟩
  fileSize := by
    rintro _ top ⟨root, hr, rfl⟩ dp hdp
    exact alike_look hl hr hdp fun w haccepts => ⟨w, rfl, fs.fileSize_eq haccepts⟩
  readFile := by
    rintro offset maxBytes alloc nullTerminate _ top ⟨root, hr, rfl⟩ dp hdp
    exact alike_look (f := Spot.read plat offset maxBytes nullTerminate) hl hr hdp
      fun w haccepts => fs.readFile_eq haccepts
  writeFile := by
    refine .some ?_
    rintro offset buffer count mode _ top ⟨root, hr, rfl⟩ dp hdp
    exact alike_access
      (f := Spot.write plat mode offset ((buffer.elim [] Buffer.bytes).take count)) hl hr hdp
      (fun s u h => h.locateCreate_eq hl hr hdp.1) (fun s p => arrives_of_locateCreate hdp.1)
      fun w u _ haccepts => fs.writeFile_eq haccepts buffer count mode
  deleteFile := by
    refine .some ?_
    rintro _ top ⟨root, hr, rfl⟩ dp hdp
    exact alike_access hl hr hdp (fun s u h => h.locate_eq hl hr hdp.1)
      (fun s p => arrives_of_locate hdp.1) fun w u _ haccepts => fs.deleteFile_eq haccepts
  createDir := by
    refine .some ?_
    rintro _ top ⟨root, hr, rfl⟩ dp hdp
    exact alike_access hl hr hdp (fun s u h => h.locateNew_eq hl hr hdp.1)
      (fun s p => arrives_of_locateNew hdp.1) fun w u _ haccepts => fs.createDir_eq haccepts
  deleteDir := by
    refine .some ?_
    rintro _ top ⟨root, hr, rfl⟩ dp hdp
    refine alike_access hl hr hdp (fun s u h => h.locate_eq hl hr hdp.1)
      (fun s p => arrives_of_locate hdp.1) fun w u h haccepts => ?_
    refine fs.deleteDir_eq ?_ haccepts ?_ fun p hp => ?_
    · rw [getDevicePath_alike hl hr]
      simp [(hl.accepts _ hr).1]
    · rw [getDevicePath_alike hl hr]
      exact hl.endsInName hr hdp.1
    · rw [getDevicePath_alike hl hr] at hp ⊢
      exact below_alike hl hr hdp h hp

end Interfaces

end LaminaFS
