/-
# One condition variable for many conditions

Threads wait for conditions that share one mutex and one condition variable.  A thread tests
its condition under the mutex, and if the condition does not hold it falls asleep before it lets
go of the mutex.  Somebody else makes the conditions true, once and for all, under the mutex
too, and notifies the sleeping threads later, without the mutex.  Until then the notification
is owed.

The notification wakes everybody up.  A thread may also wake up for no reason, and a
notification that nobody waits for may be left out.  No thread misses the notification of its
condition, and none goes on before its condition holds.
-/
import Mathlib.Data.Set.Insert
import Mathlib.Logic.Function.Basic
import Mathlib.Logic.Relation
import Mathlib.Tactic.Common

namespace CondVar

/-- Where a thread is. -/
inductive Place (κ : Type*) where
  | away
  /-- about to test the condition -/
  | testing (k : κ)
  /-- asleep, having found that the condition did not hold -/
  | asleep (k : κ)
deriving DecidableEq, Repr

namespace Place

variable {κ : Type*}

/-- Somebody who sleeps wakes up. -/
def wake : Place κ → Place κ
  | .asleep k => .testing k
  | pl => pl

/-- The condition that is waited for. -/
def waitsFor : Place κ → Option κ
  | .away => none
  | .testing k | .asleep k => some k

@[simp] lemma waitsFor_wake (pl : Place κ) : pl.wake.waitsFor = pl.waitsFor := by
  cases pl <;> rfl

lemma wake_ne_asleep (pl : Place κ) (k : κ) : pl.wake ≠ .asleep k := by
  cases pl <;> simp [wake]

end Place

/-- The threads, the conditions that hold, and those whose notification is owed. -/
@[ext]
structure Monitor (ι κ : Type*) where
  place : ι → Place κ
  holds : Set κ
  owed : Set κ

variable {ι κ : Type*} {m m' : Monitor ι κ} {i : ι} {k : κ}

/-- The moves. -/
inductive Step [DecidableEq ι] (m : Monitor ι κ) : Monitor ι κ → Prop
  /-- a thread begins to wait -/
  | come (i : ι) (k : κ) (hplace : m.place i = .away) :
    Step m { m with place := Function.update m.place i (.testing k) }
  /-- it finds that its condition holds -/
  | leave (i : ι) (k : κ) (hplace : m.place i = .testing k) (hholds : k ∈ m.holds) :
    Step m { m with place := Function.update m.place i .away }
  /-- it finds that its condition does not hold -/
  | sleep (i : ι) (k : κ) (hplace : m.place i = .testing k) (hholds : k ∉ m.holds) :
    Step m { m with place := Function.update m.place i (.asleep k) }
  /-- it wakes up for no reason -/
  | wake (i : ι) (k : κ) (hplace : m.place i = .asleep k) :
    Step m { m with place := Function.update m.place i (.testing k) }
  /-- a condition is made true -/
  | establish (k : κ) : Step m { m with holds := insert k m.holds, owed := insert k m.owed }
  /-- nobody sleeps for it, and so nobody is notified -/
  | dismiss (k : κ) (hnone : ∀ i, m.place i ≠ .asleep k) :
    Step m { m with owed := m.owed \ {k} }
  /-- everybody is notified -/
  | broadcast : Step m { m with place := fun i => (m.place i).wake, owed := ∅ }

/-- Whoever sleeps although the condition holds is going to be notified. -/
def NoneLost (m : Monitor ι κ) : Prop :=
  ∀ i k, m.place i = .asleep k → k ∈ m.holds → k ∈ m.owed

lemma noneLost_of_away (h : ∀ i, m.place i = .away) : NoneLost m := by
  intro i k hk
  rw [h i] at hk
  cases hk

section Moves

variable [DecidableEq ι]

/-- A thread that moves and does not fall asleep does no harm. -/
lemma NoneLost.update {pl : Place κ} (h : NoneLost m) (hpl : ∀ k, pl ≠ .asleep k) :
    NoneLost { m with place := Function.update m.place i pl } := by
  intro j k hk hholds
  by_cases hj : j = i
  · subst hj
    exact absurd ((Function.update_self _ _ _).symm.trans hk) (hpl k)
  · exact h j k ((Function.update_of_ne hj _ _).symm.trans hk) hholds

/-- **The step lemma.** -/
theorem NoneLost.step (h : NoneLost m) (hs : Step m m') : NoneLost m' := by
  cases hs with
  | come i k _ | leave i k _ _ | wake i k _ => exact h.update (by simp)
  | sleep i k _ hfalse =>
    intro j k' hk hholds
    by_cases hj : j = i
    · -- the test and the falling asleep are one step
      obtain rfl : k = k' := by simpa [hj] using hk
      exact absurd hholds hfalse
    · exact h j k' ((Function.update_of_ne hj _ _).symm.trans hk) hholds
  | establish k =>
    intro j k' hk hholds
    rcases hholds with rfl | hold
    · exact Set.mem_insert _ _
    · exact Set.mem_insert_of_mem _ (h j k' hk hold)
  | dismiss k hnone =>
    intro j k' hk hholds
    refine ⟨h j k' hk hholds, ?_⟩
    rintro rfl
    exact hnone j hk
  | broadcast =>
    intro j k hk
    exact absurd hk (Place.wake_ne_asleep _ _)

/-- **No wakeup is lost**, in any number of moves from a state in which nobody waits. -/
theorem noneLost_run {m₀ : Monitor ι κ} (h₀ : ∀ i, m₀.place i = .away)
    (h : Relation.ReflTransGen Step m₀ m) : NoneLost m := by
  induction h with
  | refl => exact noneLost_of_away h₀
  | tail _ hs ih => exact ih.step hs

/-- **Nobody goes on too early.**  A thread that does not wait for its condition any more has
found that it holds. -/
theorem holds_of_leaves (hs : Step m m') (hwaits : (m.place i).waitsFor = some k)
    (hleaves : (m'.place i).waitsFor ≠ some k) : k ∈ m.holds := by
  have hother {j : ι} {pl : Place κ} (hi : i ≠ j) :
      (Function.update m.place j pl i).waitsFor = some k := by
    rw [Function.update_of_ne hi, hwaits]
  have hstays {j : ι} {pl : Place κ} (hj : pl.waitsFor = (m.place j).waitsFor) :
      (Function.update m.place j pl i).waitsFor = some k := by
    by_cases hi : i = j
    · subst hi
      rw [Function.update_self, hj, hwaits]
    · exact hother hi
  cases hs with
  | leave j k' hplace hholds =>
    by_cases hi : i = j
    · subst hi
      rw [hplace] at hwaits
      obtain rfl : k' = k := Option.some.inj hwaits
      exact hholds
    · exact absurd (hother hi) hleaves
  | come j k' hplace =>
    refine absurd (hother ?_) hleaves
    rintro rfl
    rw [hplace] at hwaits
    cases hwaits
  | sleep j k' hplace _ | wake j k' hplace =>
    exact absurd (hstays (by rw [hplace]; rfl)) hleaves
  | broadcast => exact absurd ((Place.waitsFor_wake _).trans hwaits) hleaves
  | establish _ | dismiss _ _ => exact absurd hwaits hleaves

end Moves

end CondVar
