/-
# What is at a path of a tree, and how it is replaced

A path leads from directory to directory.  Replacing what is at a path changes the entries at that
path and below it and no others, and is local: seen from a directory above, it replaces something
in that directory.
-/
import LaminaFS.Lib.Forest

variable {N K : Type*}

namespace Forest

variable [DecidableEq N] {f : Forest N K} {m n : N} {x : Option (NamedTree N K)}

/-- The sibling with the given name. -/
def get : Forest N K → N → Option (NamedTree N K)
  | nil, _ => none
  | leaf name kind rest, n => if name = n then some (.leaf kind) else rest.get n
  | dir name contents rest, n => if name = n then some (.dir contents) else rest.get n

/-- The siblings without the one of the given name. -/
def erase : Forest N K → N → Forest N K
  | nil, _ => nil
  | leaf name kind rest, n => if name = n then rest.erase n else leaf name kind (rest.erase n)
  | dir name contents rest, n =>
    if name = n then rest.erase n else dir name contents (rest.erase n)

/-- A sibling in front of the others. -/
def cons (n : N) : NamedTree N K → Forest N K → Forest N K
  | .leaf kind, rest => leaf n kind rest
  | .dir contents, rest => dir n contents rest

/-- The siblings with this one instead of the one of its name, or behind the others. -/
def replace (n : N) (t : NamedTree N K) : Forest N K → Forest N K
  | nil => cons n t nil
  | leaf name kind rest =>
    if name = n then cons n t rest else leaf name kind (rest.replace n t)
  | dir name contents rest =>
    if name = n then cons n t rest else dir name contents (rest.replace n t)

/-- The siblings with another one, or none, at the given name. -/
def set (f : Forest N K) (n : N) : Option (NamedTree N K) → Forest N K
  | none => f.erase n
  | some t => f.replace n t

lemma get_erase : (f.erase n).get m = if n = m then none else f.get m := by
  induction f with
  | nil => simp [erase, get]
  | leaf name kind rest ih | dir name contents rest _ ih =>
    by_cases hn : name = n
    · subst hn
      rw [erase, if_pos rfl, ih]
      by_cases hm : name = m
      · rw [if_pos hm, if_pos hm]
      · rw [if_neg hm, if_neg hm, get, if_neg hm]
    · rw [erase, if_neg hn, get, ih, get]
      by_cases hm : name = m
      · rw [if_pos hm, if_pos hm, if_neg fun he => hn (hm.trans he.symm)]
      · rw [if_neg hm, if_neg hm]

lemma get_cons {t : NamedTree N K} : (cons n t f).get m = if n = m then some t else f.get m := by
  cases t <;> rfl

lemma get_replace {t : NamedTree N K} :
    (f.replace n t).get m = if n = m then some t else f.get m := by
  induction f with
  | nil => exact get_cons
  | leaf name kind rest ih | dir name contents rest _ ih =>
    rw [replace]
    by_cases hn : name = n
    · subst hn
      rw [if_pos rfl, get_cons]
      by_cases hm : name = m
      · rw [if_pos hm, if_pos hm]
      · rw [if_neg hm, if_neg hm, get, if_neg hm]
    · rw [if_neg hn, get, ih, get]
      by_cases hm : name = m
      · rw [if_pos hm, if_pos hm, if_neg fun he => hn (hm.trans he.symm)]
      · rw [if_neg hm, if_neg hm]

@[simp] lemma get_set_self : (f.set n x).get n = x := by
  cases x with
  | none => rw [set, get_erase, if_pos rfl]
  | some t => rw [set, get_replace, if_pos rfl]

lemma get_set_of_ne (h : n ≠ m) : (f.set n x).get m = f.get m := by
  cases x with
  | none => rw [set, get_erase, if_neg h]
  | some t => rw [set, get_replace, if_neg h]

lemma mem_names_erase (h : m ∈ (f.erase n).names) : m ∈ f.names ∧ m ≠ n := by
  induction f with
  | nil => cases h
  | leaf name kind rest ih | dir name contents rest _ ih =>
    rw [erase] at h
    split at h
    · exact ⟨List.mem_cons_of_mem _ (ih h).1, (ih h).2⟩
    · rename_i hn
      rw [names, List.mem_cons] at h
      rcases h with rfl | h
      · exact ⟨List.mem_cons_self, hn⟩
      · exact ⟨List.mem_cons_of_mem _ (ih h).1, (ih h).2⟩

lemma Distinct.erase (h : f.Distinct) : (f.erase n).Distinct := by
  induction f with
  | nil => trivial
  | leaf name kind rest ih =>
    rw [Forest.erase]
    split
    · exact ih h.2
    · exact ⟨fun hmem => h.1 (mem_names_erase hmem).1, ih h.2⟩
  | dir name contents rest _ ih =>
    rw [Forest.erase]
    split
    · exact ih h.2.2
    · exact ⟨fun hmem => h.1 (mem_names_erase hmem).1, h.2.1, ih h.2.2⟩

lemma mem_names_replace {t : NamedTree N K} (h : m ∈ (f.replace n t).names) :
    m = n ∨ m ∈ f.names := by
  have hcons {g : Forest N K} (hm : m ∈ (cons n t g).names) : m = n ∨ m ∈ g.names := by
    cases t <;> exact List.mem_cons.mp hm
  induction f with
  | nil => exact hcons h
  | leaf name kind rest ih | dir name contents rest _ ih =>
    rw [replace] at h
    split at h
    · exact (hcons h).imp_right (List.mem_cons_of_mem _)
    · rw [names, List.mem_cons] at h
      rcases h with rfl | h
      · exact Or.inr List.mem_cons_self
      · exact (ih h).imp_right (List.mem_cons_of_mem _)

lemma Distinct.replace {t : NamedTree N K} (h : f.Distinct) (ht : t.Distinct) :
    (f.replace n t).Distinct := by
  have hcons {g : Forest N K} (hn : n ∉ g.names) (hg : g.Distinct) : (cons n t g).Distinct := by
    cases t with
    | leaf kind => exact ⟨hn, hg⟩
    | dir contents => exact ⟨hn, ht, hg⟩
  induction f with
  | nil => exact hcons List.not_mem_nil trivial
  | leaf name kind rest ih =>
    rw [Forest.replace]
    split
    · rename_i hn
      exact hcons (hn ▸ h.1) h.2
    · rename_i hn
      exact ⟨fun hmem => (mem_names_replace hmem).elim hn h.1, ih h.2⟩
  | dir name contents rest _ ih =>
    rw [Forest.replace]
    split
    · rename_i hn
      exact hcons (hn ▸ h.1) h.2.2
    · rename_i hn
      exact ⟨fun hmem => (mem_names_replace hmem).elim hn h.1, h.2.1, ih h.2.2⟩

lemma Distinct.set (h : f.Distinct) (hx : ∀ t ∈ x, t.Distinct) : (f.set n x).Distinct := by
  cases x with
  | none => exact h.erase
  | some t => exact h.replace (hx t rfl)

lemma Distinct.get (h : f.Distinct) {t : NamedTree N K} (ht : f.get n = some t) :
    t.Distinct := by
  induction f with
  | nil => cases ht
  | leaf name kind rest ih =>
    rw [Forest.get] at ht
    split at ht
    · cases ht
      trivial
    · exact ih h.2 ht
  | dir name contents rest _ ih =>
    rw [Forest.get] at ht
    split at ht
    · cases ht
      exact h.2.1
    · exact ih h.2.2 ht

lemma mem_names_of_get {t : NamedTree N K} (ht : f.get n = some t) : n ∈ f.names := by
  induction f with
  | nil => cases ht
  | leaf name kind rest ih | dir name contents rest _ ih =>
    rw [get] at ht
    split at ht
    · rename_i hname
      exact hname ▸ List.mem_cons_self
    · exact List.mem_cons_of_mem _ (ih ht)

end Forest

/-- A directory entry without what it contains. -/
inductive TreeEntry (K : Type*) where
  | leaf (kind : K)
  | dir
deriving DecidableEq, Repr

namespace NamedTree

/-- The entry at the top. -/
def top : NamedTree N K → TreeEntry K
  | leaf kind => .leaf kind
  | dir _ => .dir

/-- The entry without anything below it. -/
def single : TreeEntry K → NamedTree N K
  | .leaf kind => leaf kind
  | .dir => dir .nil

@[simp] lemma top_single (e : TreeEntry K) : (single e : NamedTree N K).top = e := by
  cases e <;> rfl

lemma distinct_single (e : TreeEntry K) : (single e : NamedTree N K).Distinct := by
  cases e <;> trivial

variable [DecidableEq N] {t s : NamedTree N K} {p q : List N} {x : Option (NamedTree N K)}

/-- The tree at a path. -/
def below : List N → NamedTree N K → Option (NamedTree N K)
  | [], t => some t
  | _ :: _, leaf _ => none
  | n :: ns, dir contents => (contents.get n).bind (below ns)

/-- The entry at a path. -/
def entry (t : NamedTree N K) (p : List N) : Option (TreeEntry K) := (t.below p).map top

lemma entry_single (e : TreeEntry K) (p : List N) :
    (single e : NamedTree N K).entry p = if p = [] then some e else none := by
  cases p with
  | nil =>
    rw [entry, below, Option.map_some, top_single]
    rfl
  | cons n p => cases e <;> rfl

/-- The tree with another one, or none, at a path.  The directories above have to be there, and
the top itself cannot go. -/
def put (x : Option (NamedTree N K)) : List N → NamedTree N K → NamedTree N K
  | [], t => x.getD t
  | _ :: _, leaf kind => leaf kind
  | n :: ns, dir contents =>
    dir (contents.set n (if ns = [] then x else (contents.get n).map (put x ns)))

@[simp] lemma below_nil : t.below [] = some t := rfl

lemma below_append (p q : List N) (t : NamedTree N K) :
    t.below (p ++ q) = (t.below p).bind (below q) := by
  induction p generalizing t with
  | nil => rfl
  | cons n p ih =>
    cases t with
    | leaf kind => rfl
    | dir contents =>
      show (contents.get n).bind (below (p ++ q)) = ((contents.get n).bind (below p)).bind _
      rw [Option.bind_assoc]
      exact congrArg _ (funext ih)

lemma entry_append (p q : List N) (t : NamedTree N K) :
    t.entry (p ++ q) = (t.below p).bind (entry · q) := by
  rw [entry, below_append, Option.map_bind]
  rfl

/-- Only directories are led through. -/
lemma entry_of_below_append (hq : q ≠ []) (h : t.entry (p ++ q) ≠ none) :
    t.entry p = some .dir := by
  rw [entry_append] at h
  cases hp : t.below p with
  | none =>
    rw [hp] at h
    exact absurd rfl h
  | some s =>
    cases s with
    | leaf kind =>
      rw [hp] at h
      obtain ⟨n, ns, rfl⟩ := List.exists_cons_of_ne_nil hq
      exact absurd rfl h
    | dir contents =>
      rw [entry, hp]
      rfl

lemma put_dir_cons {contents : Forest N K} {n : N} {ns : List N} :
    (dir contents).put x (n :: ns) =
      dir (contents.set n (if ns = [] then x else (contents.get n).map (put x ns))) := rfl

/-- At the path itself there is the new tree. -/
lemma below_put_self {n : N} (h : t.entry p = some .dir) :
    (t.put x (p ++ [n])).below (p ++ [n]) = x := by
  induction p generalizing t with
  | nil =>
    cases t with
    | leaf kind => cases h
    | dir contents =>
      show ((contents.set n _).get n).bind _ = x
      rw [Forest.get_set_self, if_pos rfl]
      exact Option.bind_fun_some x
  | cons m p ih =>
    cases t with
    | leaf kind => cases h
    | dir contents =>
      rw [entry, Option.map_eq_some_iff] at h
      obtain ⟨u, hu, htop⟩ := h
      obtain ⟨v, hv, hbelow⟩ := Option.bind_eq_some_iff.mp hu
      have hdir : v.entry p = some .dir := by rw [entry, hbelow, Option.map_some, htop]
      rw [List.cons_append, put_dir_cons, if_neg (by simp), hv]
      show ((contents.set m _).get m).bind _ = x
      rw [Forest.get_set_self]
      exact ih hdir

/-- Seen from a directory above, a replacement changes something in that directory. -/
lemma below_put_append (hq : q ≠ []) :
    (t.put x (p ++ q)).below p = (t.below p).map (put x q) := by
  induction p generalizing t with
  | nil => rfl
  | cons n p ih =>
    cases t with
    | leaf kind => rfl
    | dir contents =>
      rw [List.cons_append, put_dir_cons, if_neg (by simp [hq])]
      show ((contents.set n _).get n).bind _ = ((contents.get n).bind _).map _
      rw [Forest.get_set_self]
      cases contents.get n with
      | none => rfl
      | some u => exact ih

/-- What is neither above nor below the path stays. -/
lemma below_put_of_apart (h : ¬p <+: q) (h' : ¬q <+: p) :
    (t.put x p).below q = t.below q := by
  induction p generalizing t q with
  | nil => exact absurd List.nil_prefix h
  | cons n p ih =>
    cases q with
    | nil => exact absurd List.nil_prefix h'
    | cons m q =>
      cases t with
      | leaf kind => rfl
      | dir contents =>
        show ((contents.set n _).get m).bind _ = (contents.get m).bind _
        by_cases hne : n = m
        · subst hne
          rw [List.cons_prefix_cons] at h h'
          have hp : p ≠ [] := by
            rintro rfl
            exact h ⟨rfl, List.nil_prefix⟩
          rw [Forest.get_set_self, if_neg hp]
          cases contents.get n with
          | none => rfl
          | some u => exact ih (fun hpq => h ⟨rfl, hpq⟩) (fun hqp => h' ⟨rfl, hqp⟩)
        · rw [Forest.get_set_of_ne hne]

lemma top_put (hp : p ≠ []) : (t.put x p).top = t.top := by
  obtain ⟨n, ns, rfl⟩ := List.exists_cons_of_ne_nil hp
  cases t <;> rfl

/-- **Frame.**  The entries that are not at the path or below it stay. -/
lemma entry_put_of_not_prefix (h : ¬p <+: q) : (t.put x p).entry q = t.entry q := by
  by_cases h' : q <+: p
  · obtain ⟨r, rfl⟩ := h'
    have hr : r ≠ [] := by
      rintro rfl
      exact h (by simp)
    rw [entry, below_put_append hr, Option.map_map, entry]
    congr 1
    exact funext fun u => top_put hr
  · rw [entry, below_put_of_apart h h', entry]

lemma Distinct.put (h : t.Distinct) (hx : ∀ u ∈ x, u.Distinct) : (t.put x p).Distinct := by
  induction p generalizing t with
  | nil =>
    cases x with
    | none => exact h
    | some u => exact hx u rfl
  | cons n p ih =>
    cases t with
    | leaf kind => trivial
    | dir contents =>
      refine Forest.Distinct.set h fun u hu => ?_
      split at hu
      · exact hx u hu
      · obtain ⟨v, hv, rfl⟩ := Option.map_eq_some_iff.mp hu
        exact ih (Forest.Distinct.get h hv)

lemma Distinct.below (h : t.Distinct) (hs : t.below p = some s) : s.Distinct := by
  induction p generalizing t with
  | nil =>
    cases hs
    exact h
  | cons n p ih =>
    cases t with
    | leaf kind => cases hs
    | dir contents =>
      obtain ⟨u, hu, hs⟩ := Option.bind_eq_some_iff.mp hs
      exact ih (Forest.Distinct.get h hu) hs

end NamedTree

/-! ### The paths of a tree -/

section Paths

variable [DecidableEq N]

lemma Forest.mem_paths_iff {f : Forest N K} (h : f.Distinct) (path q : List N) :
    q ∈ f.paths path ↔
      ∃ n r t, q = path ++ n :: r ∧ f.get n = some t ∧ (t.below r).isSome = true := by
  induction f generalizing path with
  | nil => simp [Forest.paths, Forest.visits, Forest.get]
  | leaf name kind rest ih =>
    rw [Forest.paths_leaf, List.mem_cons, ih h.2]
    constructor
    · rintro (rfl | ⟨n, r, t, rfl, ht, hr⟩)
      · exact ⟨name, [], .leaf kind, rfl, by simp [Forest.get], rfl⟩
      · have hne : name ≠ n := fun he => h.1 (he ▸ Forest.mem_names_of_get ht)
        exact ⟨n, r, t, rfl, by rw [Forest.get, if_neg hne, ht], hr⟩
    · rintro ⟨n, r, t, rfl, ht, hr⟩
      rw [Forest.get] at ht
      split at ht
      · rename_i hname
        cases ht
        cases r with
        | nil => exact Or.inl (by rw [hname])
        | cons m r => cases hr
      · exact Or.inr ⟨n, r, t, rfl, ht, hr⟩
  | dir name contents rest ihc ih =>
    rw [Forest.paths_dir, List.mem_append, List.mem_cons, ihc h.2.1, ih h.2.2]
    constructor
    · rintro (⟨n, r, t, rfl, ht, hr⟩ | rfl | ⟨n, r, t, rfl, ht, hr⟩)
      · exact ⟨name, n :: r, .dir contents, by simp, by simp [Forest.get], by
          rw [NamedTree.below, ht]
          exact hr⟩
      · exact ⟨name, [], .dir contents, rfl, by simp [Forest.get], rfl⟩
      · have hne : name ≠ n := fun he => h.1 (he ▸ Forest.mem_names_of_get ht)
        exact ⟨n, r, t, rfl, by rw [Forest.get, if_neg hne, ht], hr⟩
    · rintro ⟨n, r, t, rfl, ht, hr⟩
      rw [Forest.get] at ht
      split at ht
      · rename_i hname
        subst hname
        cases ht
        cases r with
        | nil => exact Or.inr (Or.inl rfl)
        | cons m r =>
          rw [NamedTree.below] at hr
          cases hu : contents.get m with
          | none =>
            rw [hu] at hr
            cases hr
          | some u =>
            rw [hu] at hr
            exact Or.inl ⟨m, r, u, by simp, hu, hr⟩
      · exact Or.inr (Or.inr ⟨n, r, t, rfl, ht, hr⟩)

/-- The paths of a tree are those at which there is something. -/
lemma NamedTree.mem_paths_iff {t : NamedTree N K} (h : t.Distinct) (path q : List N) :
    q ∈ t.paths path ↔ ∃ r, q = path ++ r ∧ (t.below r).isSome = true := by
  cases t with
  | leaf kind =>
    rw [NamedTree.paths, NamedTree.visits]
    constructor
    · intro hq
      rw [List.mem_singleton.mp hq]
      exact ⟨[], (List.append_nil _).symm, rfl⟩
    · rintro ⟨r, rfl, hr⟩
      cases r with
      | nil => exact List.mem_singleton.mpr (List.append_nil _)
      | cons n r => cases hr
  | dir contents =>
    rw [NamedTree.paths_dir, List.mem_append, List.mem_singleton, Forest.mem_paths_iff h]
    constructor
    · rintro (⟨n, r, u, rfl, hu, hr⟩ | rfl)
      · exact ⟨n :: r, rfl, by rw [NamedTree.below, hu]; exact hr⟩
      · exact ⟨[], (List.append_nil _).symm, rfl⟩
    · rintro ⟨r, rfl, hr⟩
      cases r with
      | nil => exact Or.inr (List.append_nil _)
      | cons n r =>
        rw [NamedTree.below] at hr
        cases hu : contents.get n with
        | none =>
          rw [hu] at hr
          cases hr
        | some u =>
          rw [hu] at hr
          exact Or.inl ⟨n, r, u, rfl, hu, hr⟩

end Paths
