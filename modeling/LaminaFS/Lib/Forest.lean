/-
# Trees of named entries

An entry has a name among its siblings, and is a leaf or contains entries.  A walk visits a leaf
once, and an entry that contains others before and after these, so that whatever is finished has
nothing left below it.
-/
import Mathlib.Tactic.Common

/-- Siblings, with what they contain. -/
inductive Forest (N K : Type*) where
  | nil
  | leaf (name : N) (kind : K) (rest : Forest N K)
  | dir (name : N) (contents rest : Forest N K)

/-- One entry. -/
inductive NamedTree (N K : Type*) where
  | leaf (kind : K)
  | dir (contents : Forest N K)

/-- A step of a walk. -/
inductive Visit (N K : Type*) where
  | enter (path : List N)
  | leaf (path : List N) (kind : K)
  | leave (path : List N)

variable {N K : Type*}

namespace Visit

/-- The path of the entry. -/
def path : Visit N K → List N
  | enter path | leaf path _ | leave path => path

/-- The path of an entry that the walk is done with. -/
def finished : Visit N K → Option (List N)
  | enter _ => none
  | leaf path _ | leave path => some path

end Visit

namespace Forest

/-- The names of the siblings. -/
def names : Forest N K → List N
  | nil => []
  | leaf name _ rest | dir name _ rest => name :: rest.names

/-- No name occurs twice among siblings. -/
def Distinct : Forest N K → Prop
  | nil => True
  | leaf name _ rest => name ∉ rest.names ∧ rest.Distinct
  | dir name contents rest => name ∉ rest.names ∧ contents.Distinct ∧ rest.Distinct

/-- The walk through siblings in the directory `path`. -/
def visits : Forest N K → List N → List (Visit N K)
  | nil, _ => []
  | leaf name kind rest, path => .leaf (path ++ [name]) kind :: rest.visits path
  | dir name contents rest, path =>
    .enter (path ++ [name]) :: (contents.visits (path ++ [name]) ++
      .leave (path ++ [name]) :: rest.visits path)

/-- The paths of all entries, each behind those below it. -/
def paths (t : Forest N K) (path : List N) : List (List N) :=
  (t.visits path).filterMap Visit.finished

variable (path : List N)

lemma paths_leaf (name : N) (kind : K) (rest : Forest N K) :
    (leaf name kind rest).paths path = (path ++ [name]) :: rest.paths path := rfl

lemma paths_dir (name : N) (contents rest : Forest N K) :
    (dir name contents rest).paths path =
      contents.paths (path ++ [name]) ++ (path ++ [name]) :: rest.paths path := by
  rw [paths, visits, List.filterMap_cons_none rfl, List.filterMap_append]
  rfl

/-- A path leads through one of the siblings. -/
lemma exists_prefix_of_mem {t : Forest N K} {path p : List N} (h : p ∈ t.paths path) :
    ∃ name ∈ t.names, path ++ [name] <+: p := by
  induction t generalizing path with
  | nil => cases h
  | leaf name kind rest ih =>
    rw [paths_leaf, List.mem_cons] at h
    rcases h with rfl | h
    · exact ⟨name, by simp [names], List.prefix_refl _⟩
    · obtain ⟨m, hm, hp⟩ := ih h
      exact ⟨m, by simp [names, hm], hp⟩
  | dir name contents rest ihc ihr =>
    rw [paths_dir, List.mem_append, List.mem_cons] at h
    rcases h with h | rfl | h
    · obtain ⟨m, -, hp⟩ := ihc h
      exact ⟨name, by simp [names], (List.prefix_append _ _).trans hp⟩
    · exact ⟨name, by simp [names], List.prefix_refl _⟩
    · obtain ⟨m, hm, hp⟩ := ihr h
      exact ⟨m, by simp [names, hm], hp⟩

lemma prefix_of_mem {t : Forest N K} {path p : List N} (h : p ∈ t.paths path) : path <+: p := by
  obtain ⟨name, -, hp⟩ := exists_prefix_of_mem h
  exact (List.prefix_append _ _).trans hp

/-- Below one sibling there is no path through another. -/
lemma not_prefix_of_ne {path p q : List N} {a b : N} (hne : a ≠ b) (hp : path ++ [a] <+: p)
    (hq : path ++ [b] <+: q) : ¬p <+: q := by
  intro hpq
  have heq := List.prefix_of_prefix_length_le (hp.trans hpq) hq (by simp)
  rw [List.prefix_append_right_inj, List.cons_prefix_cons] at heq
  exact hne heq.1

/-- A path strictly below another is no prefix of it. -/
lemma not_prefix_of_below {path p : List N} {a : N} (hp : path ++ [a] <+: p) : ¬p <+: path := by
  intro h
  have hlen := Nat.le_trans hp.length_le h.length_le
  rw [List.length_append, List.length_singleton] at hlen
  omega

/-- **What is below an entry comes before it.** -/
lemma pairwise_paths {t : Forest N K} (h : t.Distinct) (path : List N) :
    (t.paths path).Pairwise fun p q => ¬p <+: q := by
  induction t generalizing path with
  | nil => exact List.Pairwise.nil
  | leaf name kind rest ih =>
    obtain ⟨hname, hrest⟩ := h
    rw [paths_leaf, List.pairwise_cons]
    refine ⟨fun q hq => ?_, ih hrest path⟩
    obtain ⟨m, hm, hprefix⟩ := exists_prefix_of_mem hq
    exact not_prefix_of_ne (ne_of_mem_of_not_mem hm hname).symm (List.prefix_refl _) hprefix
  | dir name contents rest ihc ihr =>
    obtain ⟨hname, hcontents, hrest⟩ := h
    have hother : ∀ p, path ++ [name] <+: p → ∀ q ∈ rest.paths path, ¬p <+: q := by
      intro p hp q hq
      obtain ⟨m, hm, hprefix⟩ := exists_prefix_of_mem hq
      exact not_prefix_of_ne (ne_of_mem_of_not_mem hm hname).symm hp hprefix
    rw [paths_dir, List.pairwise_append, List.pairwise_cons]
    refine ⟨ihc hcontents _, ⟨hother _ (List.prefix_refl _), ihr hrest path⟩, ?_⟩
    intro p hp q hq
    rcases List.mem_cons.mp hq with rfl | hq
    · obtain ⟨m, -, hprefix⟩ := exists_prefix_of_mem hp
      exact not_prefix_of_below hprefix
    · exact hother p (prefix_of_mem hp) q hq

end Forest

namespace NamedTree

/-- No name occurs twice in a directory. -/
def Distinct : NamedTree N K → Prop
  | leaf _ => True
  | dir contents => contents.Distinct

/-- The walk through an entry. -/
def visits : NamedTree N K → List N → List (Visit N K)
  | leaf kind, path => [.leaf path kind]
  | dir contents, path => .enter path :: (contents.visits path ++ [.leave path])

/-- The paths of all entries, the entry itself the last one. -/
def paths (t : NamedTree N K) (path : List N) : List (List N) :=
  (t.visits path).filterMap Visit.finished

lemma paths_dir (contents : Forest N K) (path : List N) :
    (dir contents).paths path = contents.paths path ++ [path] := by
  rw [paths, visits, List.filterMap_cons_none rfl, List.filterMap_append]
  rfl

lemma mem_paths_self (t : NamedTree N K) (path : List N) : path ∈ t.paths path := by
  cases t with
  | leaf kind => exact List.mem_singleton.mpr rfl
  | dir contents => simp [paths_dir]

/-- The last step of the walk is done with the entry itself. -/
lemma visits_eq_concat (t : NamedTree N K) (path : List N) :
    ∃ vs v, t.visits path = vs ++ [v] ∧ v.finished = some path := by
  cases t with
  | leaf kind => exact ⟨[], .leaf path kind, rfl, rfl⟩
  | dir contents => exact ⟨.enter path :: contents.visits path, .leave path, rfl, rfl⟩

/-- As long as a step is left, the entry itself is. -/
lemma mem_finished_drop (t : NamedTree N K) (path : List N) {i : ℕ}
    (h : i < (t.visits path).length) :
    path ∈ ((t.visits path).drop i).filterMap Visit.finished := by
  obtain ⟨vs, v, hvisits, hv⟩ := t.visits_eq_concat path
  rw [hvisits, List.length_append, List.length_singleton] at h
  rw [hvisits, List.drop_append_of_le_length (Nat.le_of_lt_succ h), List.filterMap_append,
    List.filterMap_cons_some hv]
  simp

lemma prefix_of_mem {t : NamedTree N K} {path p : List N} (h : p ∈ t.paths path) :
    path <+: p := by
  cases t with
  | leaf kind => exact (List.mem_singleton.mp h) ▸ List.prefix_refl _
  | dir contents =>
    rw [paths_dir, List.mem_append, List.mem_singleton] at h
    rcases h with h | rfl
    · exact Forest.prefix_of_mem h
    · exact List.prefix_refl _

lemma pairwise_paths {t : NamedTree N K} (h : t.Distinct) (path : List N) :
    (t.paths path).Pairwise fun p q => ¬p <+: q := by
  cases t with
  | leaf kind => exact List.pairwise_singleton _ _
  | dir contents =>
    rw [paths_dir, List.pairwise_append]
    refine ⟨Forest.pairwise_paths h path, List.pairwise_singleton _ _, ?_⟩
    intro p hp q hq
    obtain ⟨name, -, hprefix⟩ := Forest.exists_prefix_of_mem hp
    rw [List.mem_singleton.mp hq]
    exact Forest.not_prefix_of_below hprefix

end NamedTree
