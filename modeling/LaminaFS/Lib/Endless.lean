/-
# Endless runs, and what happens in them at last

An endless run of a transition system is given by its states and by the actions between them.
A scheduler is fair to an action if it does not put it off for ever: weakly, if the action can
be taken at any time from some moment on, and strongly, if it can be taken again and again.

The rank rule shows that something happens at last.  A rank of the states never rises, there is
always an action that helps, which lowers the rank, and what the other actions do does not end
the help.  A lasso is an endless run that goes round and round at its end.
-/
import LaminaFS.Lib.Transition
import Mathlib.Order.WellFounded

namespace Transition

variable {σ α : Type*} {step : σ → α → Option σ} {ok ok' : σ → α → Prop} {s₀ s t : σ}

/-- A run without an end. -/
structure Endless (step : σ → α → Option σ) (ok : σ → α → Prop) (s₀ : σ) where
  state : ℕ → σ
  act : ℕ → α
  start : state 0 = s₀
  meets : ∀ n, ok (state n) (act n)
  next : ∀ n, step (state n) (act n) = some (state (n + 1))

/-- How it is shown that `P` leads to `Q`, where `J` is known: as long as `P` holds there is an
action that helps, and every step makes `Q` hold, lowers the rank, or is the step of another
action that leaves the rank and the help as they are. -/
structure Ranking (step : σ → α → Option σ) (ok : σ → α → Prop) (J P Q : σ → Prop) (ι : Type*)
    [LT ι] where
  rank : σ → ι
  Helps : σ → α → Prop
  help : ∀ s, J s → P s → ∃ a, Helps s a
  keep : ∀ s a b s', J s → J s' → P s → Helps s a → ok s b → step s b = some s' →
    Q s' ∨ P s' ∧ (rank s' < rank s ∨ b ≠ a ∧ rank s' = rank s ∧ Helps s' a)

namespace Endless

variable (r : Endless step ok s₀)

lemma reach (n : ℕ) : Reach step ok s₀ (r.state n) := by
  induction n with
  | zero =>
    rw [r.start]
    exact .refl
  | succ n ih => exact .tail ih (r.meets n) (r.next n)

/-- Later states are reached from earlier ones. -/
lemma reach_later {m n : ℕ} (h : m ≤ n) : Reach step ok (r.state m) (r.state n) := by
  induction n, h using Nat.le_induction with
  | base => exact .refl
  | succ n _ ih => exact .tail ih (r.meets n) (r.next n)

/-- An action that can be taken at any time is taken at last. -/
def WeaklyFair (a : α) : Prop :=
  ∀ n, (∀ m ≥ n, (step (r.state m) a).isSome = true) → ∃ m ≥ n, r.act m = a

/-- An action that can be taken again and again is taken at last. -/
def StronglyFair (a : α) : Prop :=
  ∀ n, (∀ m ≥ n, ∃ k ≥ m, (step (r.state k) a).isSome = true) → ∃ m ≥ n, r.act m = a

variable {r}

lemma StronglyFair.weakly {a : α} (h : r.StronglyFair a) : r.WeaklyFair a :=
  fun n hn => h n fun m hm => ⟨m, le_rfl, hn m hm⟩

lemma weaklyFair_of_never {a : α} (h : ∀ n, ∃ m ≥ n, step (r.state m) a = none) :
    r.WeaklyFair a := by
  intro n hn
  obtain ⟨m, hm, hnone⟩ := h n
  have hsome := hn m hm
  rw [hnone] at hsome
  cases hsome

lemma stronglyFair_of_always {a : α} (h : ∀ n, ∃ m ≥ n, r.act m = a) : r.StronglyFair a :=
  fun n _ => h n

/-- Fewer conditions allow more runs. -/
def weaken (r : Endless step ok s₀) (h : ∀ s a, ok s a → ok' s a) : Endless step ok' s₀ where
  state := r.state
  act := r.act
  start := r.start
  meets n := h _ _ (r.meets n)
  next := r.next

/-- **The rank rule.**  A ranking shows that `P` leads to `Q`, in a run in which `J` is known
from some moment on, and in which nobody helps for ever without acting. -/
theorem leadsTo {ι : Type*} [Preorder ι] [WellFoundedLT ι] {J P Q : σ → Prop} {n : ℕ}
    (ranking : Ranking step ok J P Q ι) (known : ∀ m ≥ n, J (r.state m))
    (fair : ∀ m ≥ n, ∀ a, (∀ k ≥ m, ranking.Helps (r.state k) a) → ∃ k ≥ m, r.act k = a)
    (h : P (r.state n)) : ∃ m ≥ n, Q (r.state m) := by
  obtain ⟨rank, Helps, help, keep⟩ := ranking
  suffices hdescent : ∀ i, ∀ m ≥ n, P (r.state m) → rank (r.state m) = i →
      ∃ k ≥ m, Q (r.state k) by
    exact hdescent _ n le_rfl h rfl
  intro i
  induction i using WellFoundedLT.induction with
  | ind i ih =>
    intro m hm hp hrank
    obtain ⟨a, ha⟩ := help _ (known m hm) hp
    by_contra hnever
    -- the action helps for ever, as nothing ends that but a lower rank
    have hnow : ∀ k ≥ m, P (r.state k) ∧ rank (r.state k) = i ∧ Helps (r.state k) a →
        r.act k ≠ a ∧ P (r.state (k + 1)) ∧ rank (r.state (k + 1)) = i ∧
          Helps (r.state (k + 1)) a := by
      rintro k hk ⟨hpk, hrk, hak⟩
      rcases keep _ _ _ _ (known k (hm.trans hk)) (known (k + 1) (by omega)) hpk hak
        (r.meets k) (r.next k) with hq | ⟨hp', hlow | ⟨hne, hsame, ha'⟩⟩
      · exact absurd ⟨k + 1, by omega, hq⟩ hnever
      · obtain ⟨k', hk', hq⟩ := ih _ (hrk ▸ hlow) (k + 1) (by omega) hp' rfl
        exact absurd ⟨k', by omega, hq⟩ hnever
      · exact ⟨hne, hp', hsame.trans hrk, ha'⟩
    have hstays : ∀ k ≥ m, P (r.state k) ∧ rank (r.state k) = i ∧ Helps (r.state k) a := by
      intro k hk
      induction k, hk using Nat.le_induction with
      | base => exact ⟨hp, hrank, ha⟩
      | succ k hk ihk => exact (hnow k hk ihk).2
    obtain ⟨k, hk, hact⟩ := fair m hm a fun k hk => (hstays k hk).2.2
    exact (hnow k hk (hstays k hk)).1 hact

/-! ### Lassos -/

section Lasso

variable {okb : σ → α → Bool} {a b : α} {as bs : List α}

/-- The next action and those behind it; at the end the round `b :: bs` begins again. -/
def turn (b : α) (bs : List α) : List α → α × List α
  | [] => (b, bs)
  | a :: as => (a, as)

/-- Where the run is: the state, the next action and those behind it. -/
def walk (step : σ → α → Option σ) (s₀ : σ) (as : List α) (b : α) (bs : List α) :
    ℕ → σ × α × List α
  | 0 => (s₀, turn b bs as)
  | n + 1 =>
    let w := walk step s₀ as b bs n
    ((step w.1 w.2.1).getD w.1, turn b bs w.2.2)

lemma walk_succ (n : ℕ) : walk step s₀ as b bs (n + 1) =
    ((step (walk step s₀ as b bs n).1 (walk step s₀ as b bs n).2.1).getD
      (walk step s₀ as b bs n).1, turn b bs (walk step s₀ as b bs n).2.2) := rfl

/-- The actions that are left lead back to the beginning of the round. -/
lemma walk_leads (hto : guardedRun step okb s₀ as = some s)
    (hround : guardedRun step okb s (b :: bs) = some s) (n : ℕ) :
    guardedRun step okb (walk step s₀ as b bs n).1
      ((walk step s₀ as b bs n).2.1 :: (walk step s₀ as b bs n).2.2) = some s := by
  have hturn {t : σ} {rest : List α} (h : guardedRun step okb t rest = some s) :
      guardedRun step okb t ((turn b bs rest).1 :: (turn b bs rest).2) = some s := by
    cases rest with
    | nil =>
      cases h
      exact hround
    | cons a rest => exact h
  induction n with
  | zero => exact hturn hto
  | succ n ih =>
    rw [guardedRun] at ih
    split at ih
    · obtain ⟨t, ht, hrest⟩ := Option.bind_eq_some_iff.mp ih
      rw [walk_succ, ht]
      exact hturn hrest
    · cases ih

lemma walk_step (hto : guardedRun step okb s₀ as = some s)
    (hround : guardedRun step okb s (b :: bs) = some s) (n : ℕ) :
    okb (walk step s₀ as b bs n).1 (walk step s₀ as b bs n).2.1 = true ∧
      step (walk step s₀ as b bs n).1 (walk step s₀ as b bs n).2.1 =
        some (walk step s₀ as b bs (n + 1)).1 := by
  have h := walk_leads hto hround n
  rw [guardedRun] at h
  split at h
  · rename_i hok
    obtain ⟨t, ht, -⟩ := Option.bind_eq_some_iff.mp h
    exact ⟨hok, by rw [walk_succ, ht]; rfl⟩
  · cases h

/-- **The lasso.**  A run that ends where a round begins can be made endless by going round. -/
def lasso (hok : ∀ s a, okb s a = true → ok s a) (hto : guardedRun step okb s₀ as = some s)
    (hround : guardedRun step okb s (b :: bs) = some s) : Endless step ok s₀ where
  state n := (walk step s₀ as b bs n).1
  act n := (walk step s₀ as b bs n).2.1
  start := rfl
  meets n := hok _ _ (walk_step hto hround n).1
  next n := (walk_step hto hround n).2

lemma walk_add (hto : guardedRun step okb s₀ as = some s)
    (hround : guardedRun step okb s (b :: bs) = some s) {n k : ℕ} {l : List α}
    (hl : (walk step s₀ as b bs n).2 = turn b bs l) (hk : k ≤ l.length) :
    (walk step s₀ as b bs (n + k)).2 = turn b bs (l.drop k) ∧
      guardedRun step okb (walk step s₀ as b bs n).1 (l.take k) =
        some (walk step s₀ as b bs (n + k)).1 := by
  induction l generalizing n k with
  | nil =>
    obtain rfl := Nat.le_zero.mp hk
    exact ⟨hl, rfl⟩
  | cons a l ih =>
    cases k with
    | zero => exact ⟨hl, rfl⟩
    | succ k =>
      have hnow := walk_step hto hround n
      have hnext : (walk step s₀ as b bs (n + 1)).2 = turn b bs l := by
        rw [walk_succ, hl]
        rfl
      have hrest := ih hnext (Nat.le_of_succ_le_succ hk)
      rw [show n + 1 + k = n + (k + 1) by omega] at hrest
      refine ⟨hrest.1, ?_⟩
      rw [show (walk step s₀ as b bs n).2.1 = a by rw [hl]; rfl] at hnow
      rw [List.take_succ_cons, guardedRun, if_pos hnow.1, hnow.2]
      exact hrest.2

variable {hok : ∀ s a, okb s a = true → ok s a} {hto : guardedRun step okb s₀ as = some s}
  {hround : guardedRun step okb s (b :: bs) = some s}

lemma lasso_meets (n : ℕ) :
    okb ((lasso hok hto hround).state n) ((lasso hok hto hround).act n) = true :=
  (walk_step hto hround n).1

/-- At first the lasso goes to the beginning of the round. -/
lemma lasso_start {n : ℕ} (hn : n ≤ as.length) :
    guardedRun step okb s₀ (as.take n) = some ((lasso hok hto hround).state n) := by
  have hadd := (@walk_add _ _ _ _ _ okb b as bs hto hround 0 n as rfl hn).2
  rwa [Nat.zero_add] at hadd

lemma exists_turn (hto : guardedRun step okb s₀ as = some s)
    (hround : guardedRun step okb s (b :: bs) = some s) (n : ℕ) :
    ∃ m ≥ n, walk step s₀ as b bs m = (s, b, bs) := by
  have hl : (walk step s₀ as b bs n).2 = turn b bs
      ((walk step s₀ as b bs n).2.1 :: (walk step s₀ as b bs n).2.2) := rfl
  have hadd := walk_add hto hround hl le_rfl
  rw [List.drop_length, List.take_length, walk_leads hto hround n] at hadd
  exact ⟨_, Nat.le_add_right n _, Prod.ext (Option.some.inj hadd.2).symm hadd.1⟩

/-- The beginning of the round comes again and again. -/
lemma lasso_returns (n : ℕ) : ∃ m ≥ n, (lasso hok hto hround).state m = s := by
  obtain ⟨m, hm, hwalk⟩ := exists_turn hto hround n
  exact ⟨m, hm, congrArg Prod.fst hwalk⟩

/-- And so do the actions of the round. -/
lemma lasso_acts (ha : a ∈ b :: bs) (n : ℕ) : ∃ m ≥ n, (lasso hok hto hround).act m = a := by
  obtain ⟨m, hm, hwalk⟩ := exists_turn hto hround n
  obtain ⟨k, hk, rfl⟩ := List.getElem_of_mem ha
  have hl : (walk step s₀ as b bs m).2 = turn b bs (b :: bs) := by
    rw [hwalk]
    rfl
  have hadd := (walk_add hto hround hl hk.le).1
  rw [List.drop_eq_getElem_cons hk] at hadd
  exact ⟨m + k, by omega, congrArg Prod.fst hadd⟩

end Lasso

end Endless

end Transition
