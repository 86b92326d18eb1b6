/-
# Machines that answer calls

A machine is a function `σ → α → β × σ`: in a state it answers a call and goes on to the next
state.  Two machines simulate each other along a relation of their states that holds at the
start and that every call keeps while it is answered in the same way.
-/
import Mathlib.Tactic.Common

namespace Machine

variable {σ τ α β : Type*} {f : σ → α → β × σ} {g : τ → α → β × τ} {s : σ} {t : τ}

/-- The answers to the calls, one after the other, and the state after them. -/
def run (f : σ → α → β × σ) : σ → List α → List β × σ
  | s, [] => ([], s)
  | s, a :: as => ((f s a).1 :: (run f (f s a).2 as).1, (run f (f s a).2 as).2)

/-- Every call meets a condition on the state in which it is made. -/
def Allowed (f : σ → α → β × σ) (ok : σ → α → Prop) : σ → List α → Prop
  | _, [] => True
  | s, a :: as => ok s a ∧ Allowed f ok (f s a).2 as

@[simp] lemma run_nil (s : σ) : run f s [] = ([], s) := rfl

@[simp] lemma run_cons (s : σ) (a : α) (as : List α) :
    run f s (a :: as) =
      ((f s a).1 :: (run f (f s a).2 as).1, (run f (f s a).2 as).2) := rfl

lemma allowed_of_forall {ok : σ → α → Prop} (h : ∀ s a, ok s a) (as : List α) :
    Allowed f ok s as := by
  induction as generalizing s with
  | nil => trivial
  | cons a as ih => exact ⟨h s a, ih⟩

/-- **The simulation rule.**  The machines give the same answers, and their states stay
related, as long as the calls are allowed. -/
theorem simulate {R : σ → τ → Prop} {ok : τ → α → Prop}
    (keep : ∀ s t a, R s t → ok t a → (f s a).1 = (g t a).1 ∧ R (f s a).2 (g t a).2)
    (h : R s t) {as : List α} (hok : Allowed g ok t as) :
    (run f s as).1 = (run g t as).1 ∧ R (run f s as).2 (run g t as).2 := by
  induction as generalizing s t with
  | nil => exact ⟨rfl, h⟩
  | cons a as ih =>
    obtain ⟨ha, has⟩ := hok
    obtain ⟨hanswer, hnext⟩ := keep s t a h ha
    obtain ⟨hanswers, hlast⟩ := ih hnext has
    rw [run_cons, run_cons, hanswer, hanswers]
    exact ⟨rfl, hlast⟩

/-- **The invariant rule.**  What holds at the start and is kept by every allowed call holds
after the calls. -/
theorem invariant {I : σ → Prop} {ok : σ → α → Prop}
    (keep : ∀ s a, I s → ok s a → I (f s a).2) (h : I s) {as : List α}
    (hok : Allowed f ok s as) : I (run f s as).2 := by
  induction as generalizing s with
  | nil => exact h
  | cons a as ih =>
    obtain ⟨ha, has⟩ := hok
    exact ih (keep s a h ha) has

end Machine
