/-
# Objects that are created, used and destroyed

A history of objects, the newest event first.  Every object has a number and a kind, which says
by whom it is created and has to be destroyed.  A history is orderly if an object is used and
destroyed while it lives only, and then it is destroyed by its own kind, at most once, and not
used any more.

An owner of the living objects keeps a history orderly: what it creates it adds, what it
destroys it gives up, and it uses what it has.
-/
import Mathlib.Data.List.Nodup
import Mathlib.Data.List.Perm.Basic
import Mathlib.Tactic.Common

namespace Lifetime

/-- What happens to an object. -/
inductive Event (κ : Type*) where
  | created (id : ℕ) (kind : κ)
  | used (id : ℕ)
  | destroyed (id : ℕ) (kind : κ)
deriving DecidableEq, Repr

variable {κ : Type*} {h newer older : List (Event κ)} {id j : ℕ} {k k' : κ}

/-- The object has been created, and has not been destroyed. -/
structure Live (h : List (Event κ)) (id : ℕ) (k : κ) : Prop where
  created : .created id k ∈ h
  kept : ∀ k', .destroyed id k' ∉ h

/-- Objects are created under new numbers, and are used and destroyed while they live. -/
inductive Orderly : List (Event κ) → Prop
  | nil : Orderly []
  | create {h : List (Event κ)} {id : ℕ} {k : κ} : Orderly h → (∀ k', .created id k' ∉ h) →
      Orderly (.created id k :: h)
  | use {h : List (Event κ)} {id : ℕ} {k : κ} : Orderly h → Live h id k →
      Orderly (.used id :: h)
  | destroy {h : List (Event κ)} {id : ℕ} {k : κ} : Orderly h → Live h id k →
      Orderly (.destroyed id k :: h)

/-! ### Living objects after an event -/

lemma live_used : Live (.used j :: h) id k ↔ Live h id k := by
  constructor
  · rintro ⟨hcreated, hkept⟩
    exact ⟨by simpa using hcreated, fun k' hk => hkept k' (List.mem_cons_of_mem _ hk)⟩
  · rintro ⟨hcreated, hkept⟩
    exact ⟨List.mem_cons_of_mem _ hcreated, fun k' hk => hkept k' (by simpa using hk)⟩

lemma live_destroyed : Live (.destroyed j k' :: h) id k ↔ id ≠ j ∧ Live h id k := by
  constructor
  · rintro ⟨hcreated, hkept⟩
    refine ⟨?_, by simpa using hcreated, fun k'' hk => hkept k'' (List.mem_cons_of_mem _ hk)⟩
    rintro rfl
    exact hkept k' List.mem_cons_self
  · rintro ⟨hne, hcreated, hkept⟩
    refine ⟨List.mem_cons_of_mem _ hcreated, fun k'' hk => ?_⟩
    rcases List.mem_cons.mp hk with he | hk
    · cases he
      exact hne rfl
    · exact hkept k'' hk

namespace Orderly

lemma tail {e : Event κ} (ho : Orderly (e :: h)) : Orderly h := by
  cases ho <;> assumption

/-- What is destroyed has been created, by the same kind. -/
lemma created_of_destroyed (ho : Orderly h) (hd : .destroyed id k ∈ h) : .created id k ∈ h := by
  induction ho with
  | nil => cases hd
  | create _ _ ih | use _ _ ih =>
    refine List.mem_cons_of_mem _ (ih ?_)
    simpa using hd
  | destroy _ hlive ih =>
    refine List.mem_cons_of_mem _ ?_
    rcases List.mem_cons.mp hd with he | hd
    · cases he
      exact hlive.created
    · exact ih hd

/-- The number of an object tells its kind. -/
lemma kind_unique (ho : Orderly h) (hc : .created id k ∈ h) (hc' : .created id k' ∈ h) :
    k = k' := by
  induction ho with
  | nil => cases hc
  | create _ hnew ih =>
    rcases List.mem_cons.mp hc with he | hold <;> rcases List.mem_cons.mp hc' with he' | hold'
    · cases he
      cases he'
      rfl
    · cases he
      exact absurd hold' (hnew k')
    · cases he'
      exact absurd hold (hnew k)
    · exact ih hold hold'
  | use _ _ ih | destroy _ _ ih => exact ih (by simpa using hc) (by simpa using hc')

lemma live_created (ho : Orderly (.created j k' :: h)) :
    Live (.created j k' :: h) id k ↔ id = j ∧ k = k' ∨ Live h id k := by
  have hnew : ∀ k, .created j k ∉ h := by
    cases ho with
    | create _ hnew => exact hnew
  constructor
  · rintro ⟨hcreated, hkept⟩
    rcases List.mem_cons.mp hcreated with he | hcreated
    · cases he
      exact Or.inl ⟨rfl, rfl⟩
    · exact Or.inr ⟨hcreated, fun k'' hk => hkept k'' (List.mem_cons_of_mem _ hk)⟩
  · rintro (⟨rfl, rfl⟩ | ⟨hcreated, hkept⟩)
    · refine ⟨List.mem_cons_self, fun k'' hk => ?_⟩
      have hk : .destroyed id k'' ∈ h := by simpa using hk
      exact hnew k'' (ho.tail.created_of_destroyed hk)
    · exact ⟨List.mem_cons_of_mem _ hcreated, fun k'' hk => hkept k'' (by simpa using hk)⟩

/-- **Nothing after the end.**  An object that has been destroyed is neither used nor destroyed
any more. -/
theorem not_after (ho : Orderly (newer ++ .destroyed id k :: older)) :
    .used id ∉ newer ∧ ∀ k', .destroyed id k' ∉ newer := by
  induction newer with
  | nil => simp
  | cons e newer ih =>
    obtain ⟨hused, hdestroyed⟩ := ih ho.tail
    have hdead (k' : κ) : ¬Live (newer ++ .destroyed id k :: older) id k' := fun hlive =>
      hlive.kept k (by simp)
    rw [List.cons_append] at ho
    constructor
    · intro hmem
      rcases List.mem_cons.mp hmem with rfl | hmem
      · cases ho with
        | use _ hlive => exact hdead _ hlive
      · exact hused hmem
    · intro k' hmem
      rcases List.mem_cons.mp hmem with rfl | hmem
      · cases ho with
        | destroy _ hlive => exact hdead _ hlive
      · exact hdestroyed k' hmem

/-- **The end.**  An object that does not live any more has been destroyed once, by its own
kind. -/
theorem destroyed_once [DecidableEq κ] (ho : Orderly h) (hc : .created id k ∈ h)
    (hdead : ¬Live h id k) : h.count (.destroyed id k) = 1 ∧ ∀ k' ≠ k, .destroyed id k' ∉ h := by
  obtain ⟨k', hd⟩ : ∃ k', .destroyed id k' ∈ h := by
    by_contra hkept
    exact hdead ⟨hc, fun k' hd => hkept ⟨k', hd⟩⟩
  obtain rfl := ho.kind_unique hc (ho.created_of_destroyed hd)
  obtain ⟨newer, older, rfl⟩ := List.append_of_mem hd
  refine ⟨?_, fun k' hne hd' => ?_⟩
  · -- none is newer, and the next one would be newer than another
    have hnone : .destroyed id k ∉ older := by
      intro hmem
      obtain ⟨before, rest, rfl⟩ := List.append_of_mem hmem
      rw [← List.cons_append, ← List.append_assoc] at ho
      exact ho.not_after.2 k (by simp)
    rw [List.count_append, List.count_cons_self, List.count_eq_zero.mpr (ho.not_after.2 k),
      List.count_eq_zero.mpr hnone]
  · exact hne (ho.kind_unique (ho.created_of_destroyed hd') hc)

end Orderly

/-! ### The owner -/

/-- Somebody has the living objects, and gives the numbers below `next`. -/
structure Owns (h : List (Event κ)) (next : ℕ) (objs : List (ℕ × κ)) : Prop where
  orderly : Orderly h
  new : ∀ id k, .created id k ∈ h → id < next
  nodup : (objs.map Prod.fst).Nodup
  live : ∀ id k, (id, k) ∈ objs ↔ Live h id k

namespace Owns

variable {next : ℕ} {objs rest : List (ℕ × κ)}

lemma nil : Owns ([] : List (Event κ)) next [] :=
  ⟨.nil, by simp, List.nodup_nil, fun id k => ⟨by simp, fun hlive => by cases hlive.created⟩⟩

lemma perm (ho : Owns h next objs) (hp : objs.Perm rest) : Owns h next rest :=
  ⟨ho.orderly, ho.new, (hp.map _).nodup_iff.mp ho.nodup,
    fun id k => hp.mem_iff.symm.trans (ho.live id k)⟩

lemma create (ho : Owns h next objs) (k : κ) :
    Owns (.created next k :: h) (next + 1) ((next, k) :: objs) := by
  have horderly : Orderly (.created next k :: h) :=
    .create ho.orderly fun k' hc => Nat.lt_irrefl _ (ho.new _ _ hc)
  refine ⟨horderly, fun id k' hc => ?_, ?_, fun id k' => ?_⟩
  · rcases List.mem_cons.mp hc with he | hc
    · cases he
      exact Nat.lt_succ_self _
    · exact Nat.lt_succ_of_lt (ho.new _ _ hc)
  · rw [List.map_cons, List.nodup_cons]
    refine ⟨fun hmem => ?_, ho.nodup⟩
    obtain ⟨⟨id, k'⟩, hobj, rfl⟩ := List.mem_map.mp hmem
    exact Nat.lt_irrefl _ (ho.new _ _ ((ho.live _ _).mp hobj).created)
  · rw [horderly.live_created, List.mem_cons, Prod.mk.injEq, ho.live]

lemma use (ho : Owns h next objs) (hmem : (id, k) ∈ objs) : Owns (.used id :: h) next objs where
  orderly := .use ho.orderly ((ho.live _ _).mp hmem)
  new id k hc := ho.new id k (by simpa using hc)
  nodup := ho.nodup
  live id k := by rw [live_used, ho.live]

lemma destroy (ho : Owns h next ((id, k) :: rest)) : Owns (.destroyed id k :: h) next rest where
  orderly := .destroy ho.orderly ((ho.live _ _).mp List.mem_cons_self)
  new id k hc := ho.new id k (by simpa using hc)
  nodup := (List.nodup_cons.mp ho.nodup).2
  live id' k' := by
    have hnot := (List.nodup_cons.mp ho.nodup).1
    rw [live_destroyed, ← ho.live, List.mem_cons, Prod.mk.injEq]
    constructor
    · intro hmem
      refine ⟨?_, Or.inr hmem⟩
      rintro rfl
      exact hnot (List.mem_map.mpr ⟨_, hmem, rfl⟩)
    · rintro ⟨hne, ⟨he, -⟩ | hmem⟩
      · exact absurd he hne
      · exact hmem

end Owns

end Lifetime
