/-
# The calls of the control thread return at last

In an endless run with a fair scheduler, in which callbacks return, `createMount`, `releaseMount`
and the destructor return, unless a null pointer is called.  The processing thread that has been
told to stop comes to the end of its round, whether it sleeps or is busy, and leaves its loop,
however many items are still in the queue.
-/
import LaminaFS.Context.Liveness

namespace LaminaFS

open Transition

variable {D W : Type} {cfg : Config D W} {s s' s₀ : State D W} {act : Action}

/-- The control thread is in the context. -/
def ControlPc.inside : ControlPc D W → Bool
  | .idle | .destroyed => false
  | _ => true

/-- How far the control thread is from its return. -/
def ControlPc.rank : ControlPc D W → ℕ ×ₗ ℕ
  | .stop _ => toLex (12, 0)
  | .stopNotify _ => toLex (11, 0)
  | .stopNotifyOne _ => toLex (10, 0)
  | .join _ => toLex (9, 0)
  | .lockTable _ | .make _ _ => toLex (8, 0)
  | .find _ | .lockCreate _ => toLex (7, 0)
  | .destroyDevice _ | .pushBack _ => toLex (6, 0)
  | .erase _ | .unlockCreate => toLex (5, 0)
  | .unlockRelease => toLex (4, 0)
  | .start => toLex (3, 0)
  | .destroyAll rest => toLex (2, rest.length)
  | .unlockDestroy => toLex (1, 0)
  | .idle | .destroyed => toLex (0, 0)

/-- Every step of the control thread brings it nearer to its return. -/
lemma controlStep_rank (hs : controlStep cfg s = some s') :
    s'.control.inside = false ∨ s'.control.inside = true ∧ s'.control.rank < s.control.rank := by
  cases controlMove hs with
  | needNotStart | starts | unlocksDestroy | makesNone | unlocksCreate => exact Or.inl rfl
  | destroysNext mount rest hpc =>
    refine Or.inr ⟨rfl, ?_⟩
    rw [hpc]
    exact Prod.Lex.toLex_lt_toLex.mpr (Or.inr ⟨rfl, Nat.lt_succ_self _⟩)
  | _ =>
    refine Or.inr ⟨rfl, ?_⟩
    rw [‹s.control = _›]
    exact Prod.Lex.toLex_lt_toLex.mpr (Or.inl (by simp))

/-- The control thread comes back. -/
def controlRanking (cfg : Config D W) : Ranking (step cfg) NoOverflow (fun _ => True)
    (fun s => s.control.inside = true ∧ s.proc ≠ .crashed)
    (fun s => s.proc = .crashed ∨ s.control.inside = false) (ℕ ×ₗ ℕ) where
  rank s := s.control.rank
  Helps s act := act = .control ∧ s.control.inside = true ∧ s.proc ≠ .crashed
  help _ _ h := ⟨_, rfl, h⟩
  keep := by
    rintro s _ b s' - - ⟨hinside, -⟩ ⟨rfl, -⟩ - hs
    by_cases hcrashed : s'.proc = .crashed
    · exact Or.inl (Or.inl hcrashed)
    · by_cases hb : b = .control
      · subst hb
        rcases controlStep_rank (show controlStep cfg s = some s' from hs) with h | ⟨h, hlow⟩
        · exact Or.inl (Or.inr h)
        · exact Or.inr ⟨⟨h, hcrashed⟩, Or.inl hlow⟩
      · have hsame := control_stays hb (busy_of_owing rfl hinside) hs
        rw [hsame]
        exact Or.inr ⟨⟨hinside, hcrashed⟩, Or.inr ⟨hb, rfl, rfl, hinside, hcrashed⟩⟩

/-! ### Where the control thread waits -/

/-- The processing thread that has been told to stop leaves its loop from the head of it. -/
def exitRanking (cfg : Config D W) : Ranking (step cfg) NoOverflow
    (fun s => ControlInv s ∧ s.control.phase = .stopping) (fun s => s.proc = .top)
    (fun s => s.proc = .exited) ℕ where
  rank _ := 0
  Helps s act := act = .proc ∧ s.proc = .top
  help _ _ h := ⟨_, rfl, h⟩
  keep := by
    rintro s _ b s' ⟨hctl, hphase⟩ - htop ⟨rfl, -⟩ - hs
    by_cases hb : b = .proc
    · subst hb
      have hstop : s.processing = false := by
        rw [← Bool.not_eq_true, hctl.processing, hphase]
        simp
      simp only [step, procStep, htop, hstop] at hs
      cases hs
      exact Or.inl rfl
    · have hsame : s'.proc = .top := by
        rcases step_proc hs hb with h | h | ⟨-, h⟩ | ⟨p, h, -⟩
        · rw [h, htop]
        · rw [h, htop]
          rfl
        · exact h
        · rw [htop] at h
          cases h
      exact Or.inr ⟨hsame, Or.inr ⟨hb, rfl, rfl, hsame⟩⟩

/-- How many steps the processing thread takes until it lets go of `_mountLock`. -/
def ProcPc.holding : ProcPc D W → ℕ
  | .exec _ (.scanMutable _ _ _ rest) => rest.length + 1
  | _ => 0

/-- The processing thread gets on by itself until it lets go of the table. -/
def sharedRanking (cfg : Config D W) : Ranking (step cfg) NoOverflow ControlInv
    (fun s => s.proc.holdsShared = true) (fun s => s.proc.holdsShared = false) ℕ where
  rank s := s.proc.holding
  Helps s act := act = .proc ∧ s.proc.holdsShared = true
  help _ _ h := ⟨_, rfl, h⟩
  keep := by
    rintro s _ b s' hctl - hholds ⟨rfl, -⟩ - hs
    obtain ⟨p, e, hpc⟩ : ∃ p e, s.proc = .exec p e := by
      cases hpc : s.proc with
      | exec p e => exact ⟨p, e, rfl⟩
      | _ => rw [hpc] at hholds; cases hholds
    by_cases hb : b = .proc
    · subst hb
      have hexec : execStep s p e = some s' := by
        simpa only [step, procStep, hpc] using hs
      rw [hpc] at hholds
      cases execMove hexec with
      | findsNoMutable | findsMutable | passesMutable =>
        exact Or.inr ⟨rfl, Or.inl (by rw [hpc]; simp [ProcPc.holding])⟩
      | unlocksNone | unlocksWrite | unlocks => exact Or.inl rfl
      | _ => cases hholds
    · have hsame : s'.proc = s.proc :=
        proc_stays hctl hb hs (by rw [hpc]; rfl) (by rw [hpc]; rfl) (by rw [hpc]; rfl)
      rw [hsame]
      exact Or.inr ⟨hholds, Or.inr ⟨hb, rfl, rfl, hholds⟩⟩

lemma shared_enabled (hholds : s.proc.holdsShared = true) :
    (step cfg s .proc).isSome = true := by
  cases hpc : s.proc with
  | exec p e =>
    rw [hpc] at hholds
    cases e with
    | scanMutable m op path rest =>
      cases rest with
      | nil => simp [step, procStep, execStep, hpc]
      | cons mount rest =>
        simp only [step, procStep, execStep, hpc]
        split <;> rfl
    | unlockShared m found => cases found <;> simp [step, procStep, execStep, hpc]
    | _ => cases hholds
  | _ => rw [hpc] at hholds; cases hholds

/-- What the control thread waits for. -/
def State.Admits (s : State D W) : Prop :=
  match s.control with
  | .join _ => s.proc = .exited
  | .lockTable _ | .lockCreate _ => s.lock = .free
  | _ => True

lemma control_enabled (hinside : s.control.inside = true) (hadmits : s.Admits) :
    (step cfg s .control).isSome = true := by
  unfold State.Admits at hadmits
  cases hpc : s.control with
  | idle | destroyed => rw [hpc] at hinside; cases hinside
  | join => rw [hpc] at hadmits; simp [step, controlStep, hpc, hadmits]
  | lockTable | lockCreate => rw [hpc] at hadmits; simp [step, controlStep, hpc, hadmits]
  | destroyAll rest => cases rest <;> simp [step, controlStep, hpc]
  | make args handle =>
    simp only [step, controlStep, hpc]
    split <;> rfl
  | stop | start =>
    simp only [step, controlStep, hpc]
    split <;> rfl
  | _ => simp [step, controlStep, hpc]

section Runs

variable {pool : PoolAllocator} {capacity : ℕ} {memory : ℕ → WorkItem} {world : W}
  {r : Endless (step cfg) NoOverflow (State.init pool capacity memory world)} {n : ℕ}

/-- As long as the control thread does not act it stays where it is. -/
lemma control_later {m : ℕ} (hm : m ≥ n) (hbusy : (r.state n).control.isIdle = false)
    (hidle : ∀ k ≥ n, r.act k ≠ .control) : (r.state m).control = (r.state n).control := by
  induction m, hm using Nat.le_induction with
  | base => rfl
  | succ m hm ih =>
    rw [← ih]
    exact control_stays (hidle m hm) (ih ▸ hbusy) (r.next m)

/-- The processing thread that has been told to stop leaves its loop. -/
lemma exits_at_last (hcapacity : 1 ≤ capacity) (hf : Fair r)
    (hstopping : ∀ m ≥ n, (r.state m).control.phase = .stopping)
    (halive : ∀ m ≥ n, (r.state m).proc ≠ .crashed) : ∃ m ≥ n, (r.state m).proc = .exited := by
  have hctl (m : ℕ) : ControlInv (r.state m) := controlInv (r.reach m)
  have hround : ∃ m ≥ n, (r.state m).proc.between = true := by
    by_cases hbetween : (r.state n).proc.between = true
    · exact ⟨n, le_rfl, hbetween⟩
    · refine round_ends (fun _ _ => id) hcapacity hf ⟨by simpa using hbetween, fun _ => Or.inr ?_⟩
      rw [← Bool.not_eq_true, (hctl n).processing, hstopping n le_rfl]
      simp
  obtain ⟨m, hm, hbetween⟩ := hround
  cases hpc : (r.state m).proc with
  | exited => exact ⟨m, hm, hpc⟩
  | crashed => exact absurd hpc (halive m hm)
  | top =>
    obtain ⟨k, hk, hexited⟩ := Endless.leadsTo (exitRanking cfg)
      (fun k hk => ⟨hctl k, hstopping k (hm.trans hk)⟩) (fun k _ act hhelps => by
        obtain rfl := (hhelps k le_rfl).1
        exact hf.proc.weakly k fun j hj => head_enabled (Or.inl (hhelps j hj).2)) hpc
    exact ⟨k, hm.trans hk, hexited⟩
  | _ => rw [hpc] at hbetween; cases hbetween

/-- The processing thread lets go of the table. -/
lemma shared_released (hf : Fair r) (n : ℕ) :
    ∃ m ≥ n, (r.state m).proc.holdsShared = false := by
  by_cases hholds : (r.state n).proc.holdsShared = true
  · refine Endless.leadsTo (sharedRanking cfg) (fun m _ => controlInv (r.reach m))
      (fun k _ act hhelps => ?_) hholds
    obtain rfl := (hhelps k le_rfl).1
    exact hf.proc.weakly k fun j hj => shared_enabled (hhelps j hj).2
  · exact ⟨n, le_rfl, by simpa using hholds⟩

/-- What the control thread waits for comes, for as long as it waits. -/
lemma admits_at_last (hcapacity : 1 ≤ capacity) (hf : Fair r)
    (hinside : (r.state n).control.inside = true) (hidle : ∀ k ≥ n, r.act k ≠ .control)
    (halive : ∀ m ≥ n, (r.state m).proc ≠ .crashed) : ∃ m ≥ n, (r.state m).Admits := by
  have hctl (m : ℕ) : ControlInv (r.state m) := controlInv (r.reach m)
  have hlock (m : ℕ) : MountLockInv (r.state m) := mountLockInv (r.reach m)
  have hlater (m : ℕ) (hm : m ≥ n) : (r.state m).control = (r.state n).control :=
    control_later hm (busy_of_owing rfl hinside) hidle
  have hopen (m : ℕ) (hm : m ≥ n) (hheld : (r.state n).control.holdsTable = false)
      (hshared : (r.state m).proc.holdsShared = false) : (r.state m).lock = .free := by
    cases hl : (r.state m).lock with
    | free => rfl
    | shared =>
      rw [(hlock m).shared.mp hl] at hshared
      cases hshared
    | exclusive =>
      rw [← hlater m hm, (hlock m).exclusive.mp hl] at hheld
      cases hheld
  cases hpc : (r.state n).control with
  | join k =>
    obtain ⟨m, hm, hexited⟩ := exits_at_last hcapacity hf
      (fun m hm => by rw [hlater m hm, hpc]; rfl) halive
    refine ⟨m, hm, ?_⟩
    rw [State.Admits, hlater m hm, hpc]
    exact hexited
  | lockTable k =>
    refine ⟨n, le_rfl, ?_⟩
    have hexited := ProcPc.isExited_iff.mp ((hctl n).stopped (by rw [hpc]; rfl))
    have hfree := hopen n le_rfl (by rw [hpc]; rfl) (by rw [hexited]; rfl)
    rw [State.Admits, hpc]
    exact hfree
  | lockCreate mount =>
    obtain ⟨m, hm, hshared⟩ := shared_released hf n
    refine ⟨m, hm, ?_⟩
    have hfree := hopen m hm (by rw [hpc]; rfl) hshared
    rw [State.Admits, hlater m hm, hpc]
    exact hfree
  | _ =>
    refine ⟨n, le_rfl, ?_⟩
    rw [State.Admits, hpc]
    trivial

/-- **Control returns.**  In an endless run in which the counter of the semaphore does not wrap
around, with a scheduler that is fair, strongly to the processing thread and to the control
thread, and in which callbacks return: whenever the control
thread is in `createMount`, `releaseMount` or the destructor it returns at last, or a null pointer
is called. -/
theorem control_returns (hcapacity : 1 ≤ capacity) (hf : Fair r)
    (hcontrol : r.StronglyFair .control) (hinside : (r.state n).control.inside = true) :
    ∃ m ≥ n, (r.state m).proc = .crashed ∨ (r.state m).control.inside = false := by
  by_cases hcrashed : (r.state n).proc = .crashed
  · exact ⟨n, le_rfl, Or.inl hcrashed⟩
  · refine Endless.leadsTo (controlRanking cfg) (fun _ _ => trivial) (fun k _ act hhelps => ?_)
      ⟨hinside, hcrashed⟩
    obtain rfl := (hhelps k le_rfl).1
    by_contra hnever
    have hidle (j : ℕ) (hj : j ≥ k) : r.act j ≠ .control := fun h => hnever ⟨j, hj, h⟩
    refine hnever (hcontrol k fun j hj => ?_)
    obtain ⟨i, hi, hadmits⟩ := admits_at_last hcapacity hf (hhelps j hj).2.1
      (fun i hi => hidle i (hj.trans hi)) fun i hi => (hhelps i (hj.trans hi)).2.2
    exact ⟨i, hi, control_enabled (hhelps i (hj.trans hi)).2.1 hadmits⟩

end Runs

/-- The control thread is not in the context once the first item has been executed. -/
def idleOnceExecuted (s : State D W) : Bool :=
  s.control.isIdle || !decide (.executed 0 ∈ s.log)

/-- The processing thread sleeps when the control thread releases a mount; when that has
returned an item is submitted and executed. -/
theorem control_returns_asleep :
    ∃ (r : Endless (step smallConfig) NoOverflow smallInit) (n m : ℕ), Fair r ∧ n ≤ m ∧
      (r.state n).control.inside = true ∧ (r.state n).proc.sleeps = true ∧
      ((r.state m).proc = .crashed ∨ (r.state m).control.inside = false) := by
  have hrun : (guardedRun (step smallConfig) (onlyFirst idleOnceExecuted) smallInit
      (mountsRoot ++ List.replicate 3 .proc ++ [.controlAct (.releaseMount 1)] ++
        List.replicate 3 .control ++ List.replicate 2 .proc ++ List.replicate 7 .control ++
        submits 0 ⟨.fileExists, [slash], none⟩ 14 ++ List.replicate 14 .proc)).any
      (fun s => s.sleepsOn && decide (.executed 0 ∈ s.log)) = true := by decide +kernel
  obtain ⟨s, hs, hlast⟩ := (Option.any_eq_true _ _).mp hrun
  obtain ⟨hsleeps, hexecuted⟩ := (Bool.and_eq_true _ _).mp hlast
  have hidle : s.control.isIdle = true := by
    simp only [State.sleepsOn, Bool.and_eq_true] at hsleeps
    exact hsleeps.1.2
  obtain ⟨r, hf, -, hreturns, hholds, hstart⟩ := exists_fair (fun _ _ => OnlyFirst.overflow)
    (fun _ => rfl) hs hsleeps (fun _ => by simp [idleOnceExecuted, hidle])
  have hcontrol : r.StronglyFair .control := by
    intro n hn
    obtain ⟨m, hm, hstate⟩ := hreturns n
    obtain ⟨k, hk, henabled⟩ := hn m hm
    -- the item has been executed, so the control thread is not in the context
    have hlog := log_later (r.reach_later hk) (hstate ▸ of_decide_eq_true hexecuted)
    have hleft := hholds k
    simp only [idleOnceExecuted, hlog, decide_true, Bool.not_true, Bool.or_false] at hleft
    cases hpc : (r.state k).control <;> rw [hpc] at hleft <;> try cases hleft
    simp [step, controlStep, hpc] at henabled
  have hcalled : (guardedRun (step smallConfig) (onlyFirst idleOnceExecuted) smallInit
      (mountsRoot ++ List.replicate 3 .proc ++ [.controlAct (.releaseMount 1)])).any
      (fun s => s.control.inside && s.proc.sleeps) = true := by decide +kernel
  have htake := hstart 9 (by decide)
  rw [show List.take 9 _ = mountsRoot ++ List.replicate 3 .proc ++
    [.controlAct (.releaseMount 1)] from rfl] at htake
  rw [htake] at hcalled
  obtain ⟨hinside, hsleeping⟩ := (Bool.and_eq_true _ _).mp hcalled
  obtain ⟨m, hm, hreturned⟩ := control_returns (by decide) hf hcontrol hinside
  exact ⟨r, 9, m, hf, hm, hinside, hsleeping, hreturned⟩

end LaminaFS
