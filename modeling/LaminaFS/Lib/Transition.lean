/-
# Runs of a transition system

A transition system is a partial function `step : σ → α → Option σ`: `step s a` is the
state after the action `a`, and `none` when `a` is not enabled in `s`.  The nondeterminism
of a scheduler is the choice of the actions.

A guard `ok : σ → α → Prop` on the steps cuts the runs down to those whose every step meets
a condition on the state before the step.  `Reach step ok s₀` are the states of such runs.
-/
import Mathlib.Logic.Relation
import Mathlib.Tactic.Common

namespace Transition

variable {σ α : Type*} {step : σ → α → Option σ} {ok ok' : σ → α → Prop} {s₀ s s' : σ}

/-- The state after a list of actions, all of which have to be enabled in their turn. -/
def run (step : σ → α → Option σ) : σ → List α → Option σ
  | s, [] => some s
  | s, a :: as => (step s a).bind fun s' => run step s' as

@[simp] lemma run_nil (s : σ) : run step s [] = some s := rfl

@[simp] lemma run_cons (s : σ) (a : α) (as : List α) :
    run step s (a :: as) = (step s a).bind fun s' => run step s' as := rfl

/-- **The commuting rule.**  If a view of the states commutes with every step then it commutes
with runs, as long as an invariant holds that is needed for that. -/
theorem run_map {τ : Type*} {step' : τ → α → Option τ} {view : σ → τ} {I : σ → Prop}
    (keep : ∀ s a s', I s → step s a = some s' → I s')
    (commute : ∀ s a, I s → step' (view s) a = (step s a).map view) (hs : I s) (as : List α) :
    run step' (view s) as = (run step s as).map view := by
  induction as generalizing s with
  | nil => rfl
  | cons a as ih =>
    rw [run_cons, run_cons, commute s a hs]
    cases ha : step s a with
    | none => rfl
    | some s' => exact ih (keep s a s' hs ha)

/-- The states of the runs from `s₀` whose every step meets `ok`. -/
inductive Reach (step : σ → α → Option σ) (ok : σ → α → Prop) (s₀ : σ) : σ → Prop
  | refl : Reach step ok s₀ s₀
  | tail {s s' : σ} {a : α} : Reach step ok s₀ s → ok s a → step s a = some s' →
      Reach step ok s₀ s'

/-- A run without a condition on its steps. -/
abbrev Free (_ : σ) (_ : α) : Prop := True

namespace Reach

lemma trans {s₁ : σ} (h : Reach step ok s₀ s₁) (h' : Reach step ok s₁ s) :
    Reach step ok s₀ s := by
  induction h' with
  | refl => exact h
  | tail _ ha hs ih => exact .tail ih ha hs

/-- **The invariant rule.**  What holds at the start and is kept by every step that meets
the guard holds in every state of the guarded runs. -/
theorem invariant {I : σ → Prop} (h : Reach step ok s₀ s) (init : I s₀)
    (keep : ∀ s a s', I s → ok s a → step s a = some s' → I s') : I s := by
  induction h with
  | refl => exact init
  | tail _ ha hs ih => exact keep _ _ _ ih ha hs

/-- The invariant rule with an invariant `J` that is known already. -/
theorem invariant_of {I J : σ → Prop} (h : Reach step ok s₀ s)
    (known : ∀ s, Reach step ok s₀ s → J s) (init : I s₀)
    (keep : ∀ s a s', J s → I s → ok s a → step s a = some s' → I s') : I s := by
  induction h with
  | refl => exact init
  | tail hr ha hs ih => exact keep _ _ _ (known _ hr) ih ha hs

/-- **The refinement rule.**  A view of the states, every step of which is a step of an
abstract system or leaves the view alone, takes the guarded runs to runs of that system. -/
theorem refines {τ : Type*} {I : σ → Prop} {view : σ → τ} {next : τ → τ → Prop}
    (h : Reach step ok s₀ s) (init : I s₀)
    (keep : ∀ s a s', Relation.ReflTransGen next (view s₀) (view s) → I s → ok s a →
      step s a = some s' → I s' ∧ Relation.ReflGen next (view s) (view s')) :
    I s ∧ Relation.ReflTransGen next (view s₀) (view s) := by
  induction h with
  | refl => exact ⟨init, .refl⟩
  | tail _ ha hs ih =>
    obtain ⟨hi, hnext⟩ := keep _ _ _ ih.2 ih.1 ha hs
    exact ⟨hi, ih.2.trans hnext.to_reflTransGen⟩

/-- **The strengthening rule.**  If an invariant turns one guard into another then the runs of
the one are runs of the other. -/
theorem strengthen {I : σ → Prop} (h : Reach step ok s₀ s) (init : I s₀)
    (turn : ∀ s a, I s → ok s a → ok' s a)
    (keep : ∀ s a s', I s → ok s a → step s a = some s' → I s') :
    I s ∧ Reach step ok' s₀ s := by
  induction h with
  | refl => exact ⟨init, .refl⟩
  | tail _ ha hs ih => exact ⟨keep _ _ _ ih.1 ha hs, .tail ih.2 (turn _ _ ih.1 ha) hs⟩

/-- Fewer conditions allow more runs. -/
lemma mono (h : Reach step ok s₀ s) (hok : ∀ s a, ok s a → ok' s a) : Reach step ok' s₀ s := by
  induction h with
  | refl => exact .refl
  | tail _ ha hs ih => exact .tail ih (hok _ _ ha) hs

/-- **The simulation rule.**  A relation to the states of another system that every step keeps,
while that system takes any number of steps, leads from the runs to runs of that system. -/
theorem simulates {τ β : Type*} {step' : τ → β → Option τ} {may : τ → β → Prop} {t₀ : τ}
    {J : σ → Prop} {R : σ → τ → Prop} (h : Reach step ok s₀ s)
    (known : ∀ s, Reach step ok s₀ s → J s) (init : R s₀ t₀)
    (keep : ∀ s a s' t, J s → J s' → R s t → ok s a → step s a = some s' →
      ∃ t', Reach step' may t t' ∧ R s' t') :
    ∃ t, Reach step' may t₀ t ∧ R s t := by
  induction h with
  | refl => exact ⟨t₀, .refl, init⟩
  | tail hr ha hs ih =>
    obtain ⟨t, ht, hrel⟩ := ih
    obtain ⟨t', ht', hrel'⟩ := keep _ _ _ _ (known _ hr) (known _ (.tail hr ha hs)) hrel ha hs
    exact ⟨t', ht.trans ht', hrel'⟩

lemma of_run {as : List α} (h : run step s₀ as = some s) : Reach step Free s₀ s := by
  induction as generalizing s₀ with
  | nil =>
    cases h
    exact .refl
  | cons a as ih =>
    rw [run_cons, Option.bind_eq_some_iff] at h
    obtain ⟨s₁, h₁, h₂⟩ := h
    exact trans (.tail .refl trivial h₁) (ih h₂)

/-- A run that can be evaluated gives a reachable state with any property that can be
evaluated on its last state. -/
lemma of_run_any {as : List α} {P : σ → Bool} (h : (run step s₀ as).any P = true) :
    ∃ s, Reach step Free s₀ s ∧ P s = true := by
  cases hr : run step s₀ as with
  | none => simp [hr] at h
  | some s => exact ⟨s, of_run hr, by simpa [hr] using h⟩

end Reach

/-- The list of actions `as` runs from `s` with every step meeting the guard, which here
has to be computable. -/
def guardedRun (step : σ → α → Option σ) (ok : σ → α → Bool) : σ → List α → Option σ
  | s, [] => some s
  | s, a :: as =>
    if ok s a then (step s a).bind fun s' => guardedRun step ok s' as else none

lemma Reach.of_guardedRun_any {okb : σ → α → Bool} (hok : ∀ s a, okb s a = true → ok s a)
    {as : List α} {P : σ → Bool} (h : (guardedRun step okb s₀ as).any P = true) :
    ∃ s, Reach step ok s₀ s ∧ P s = true := by
  induction as generalizing s₀ with
  | nil => exact ⟨s₀, .refl, by simpa [guardedRun] using h⟩
  | cons a as ih =>
    rw [guardedRun] at h
    split at h
    · rename_i ha
      cases h₁ : step s₀ a with
      | none => simp [h₁] at h
      | some s₁ =>
        rw [h₁, Option.bind_some] at h
        obtain ⟨s, hs, hP⟩ := ih h
        exact ⟨s, .trans (.tail .refl (hok _ _ ha) h₁) hs, hP⟩
    · simp at h

/-! ### Runs with their actions -/

/-- The states of the guarded runs from `s₀`, with the actions taken on the way. -/
inductive Trace (step : σ → α → Option σ) (ok : σ → α → Prop) (s₀ : σ) : List α → σ → Prop
  | nil : Trace step ok s₀ [] s₀
  | snoc {as : List α} {s s' : σ} {a : α} : Trace step ok s₀ as s → ok s a →
      step s a = some s' → Trace step ok s₀ (as ++ [a]) s'

namespace Trace

lemma reach {as : List α} (h : Trace step ok s₀ as s) : Reach step ok s₀ s := by
  induction h with
  | nil => exact .refl
  | snoc _ ha hs ih => exact .tail ih ha hs

lemma of_guardedRun {okb : σ → α → Bool} (hok : ∀ s a, okb s a = true → ok s a)
    {as bs : List α} (h : Trace step ok s₀ as s) (hr : guardedRun step okb s bs = some s') :
    Trace step ok s₀ (as ++ bs) s' := by
  induction bs generalizing as s with
  | nil =>
    cases hr
    rwa [List.append_nil]
  | cons b bs ih =>
    rw [guardedRun] at hr
    split at hr
    · rename_i hb
      rw [Option.bind_eq_some_iff] at hr
      obtain ⟨s₁, h₁, h₂⟩ := hr
      have hrest := ih (.snoc h (hok _ _ hb) h₁) h₂
      rwa [List.append_assoc] at hrest
    · cases hr

/-- A guarded run that can be evaluated. -/
lemma of_guardedRun_any {okb : σ → α → Bool} (hok : ∀ s a, okb s a = true → ok s a)
    {as : List α} {P : σ → Bool} (h : (guardedRun step okb s₀ as).any P = true) :
    ∃ s, Trace step ok s₀ as s ∧ P s = true := by
  cases hr : guardedRun step okb s₀ as with
  | none => simp [hr] at h
  | some s => exact ⟨s, of_guardedRun hok .nil hr, by simpa [hr] using h⟩

end Trace

end Transition
