/-
# What is left in the queue at a stop

`stopProcessingThread` clears `_processing`, and the processing thread leaves its loop at the
next test, whatever is in the queue.  So the items whose submission has returned are complete
behind the join only if none of them is queued when the test finds `_processing` cleared.
-/
import LaminaFS.Context.Ownership
import LaminaFS.Context.Progress

namespace LaminaFS

open Transition

variable {D W : Type} {cfg : Config D W} {s s' : State D W} {g : ℕ} {act : Action}

/-- Behind the join, every item whose submission had returned when the control thread began has
been executed, and its callback has been called. -/
def Drained (s : State D W) : Prop :=
  s.control.phase = .stopped → ∀ g ∈ s.drain, .executed g ∈ s.log ∧
    ((s.tickets g).hasCallback = true → ∃ code, .invoked g code ∈ s.log)

/-- The processing thread tests `_processing`. -/
def ProcPc.isTop : ProcPc D W → Bool
  | .top => true
  | _ => false

/-- When the processing thread finds `_processing` cleared, it leaves no item behind whose
submission had returned when the control thread began. -/
def LeavesNone (s : State D W) (act : Action) : Prop :=
  act = .proc → s.proc.isTop = true → s.processing = false →
    ∀ g ∈ s.drain, s.stage g ≠ .queued

/-- The steps that keep the slots of the items apart and leave no item behind. -/
def Drains (s : State D W) (act : Action) : Prop := TestsOwn s act ∧ LeavesNone s act

instance (s : State D W) : DecidablePred (LeavesNone s) :=
  fun _ => inferInstanceAs (Decidable (_ → _))

instance (s : State D W) : DecidablePred (Drains s) :=
  fun _ => inferInstanceAs (Decidable (_ ∧ _))

/-- The invariant of the stop. -/
structure DrainInv (s : State D W) : Prop where
  returned : ∀ g ∈ s.drain, g ∈ s.returned
  exited : s.proc.isExited = true → ∀ g ∈ s.drain, s.stage g ≠ .queued

/-! ### The step lemma -/

/-- A submission that has returned stays so, and the control thread notes the submissions that
have returned when it begins something that stops the processing thread. -/
lemma step_drain (hs : step cfg s act = some s') :
    (∀ g ∈ s.returned, g ∈ s'.returned) ∧
      (s'.drain = s.drain ∨
        s'.drain = s.returned ∧ s.control.isIdle = true ∧ s'.proc = s.proc) := by
  cases stepBy hs with
  | client a act _ hs =>
    refine ⟨?_, Or.inl (clientStep_frame hs).drain⟩
    cases clientMove hs <;> exact fun _ h => h
  | agent a hs =>
    refine ⟨?_, Or.inl (agentStep_frame hs).drain⟩
    cases agentMove hs with
    | returns => exact fun _ h => List.mem_cons_of_mem _ h
    | _ => exact fun _ h => h
  | proc hs =>
    have hf := procStep_frame hs
    rw [hf.returned]
    exact ⟨fun _ h => h, Or.inl hf.drain⟩
  | controlAct act hidle hs =>
    rw [(controlActStep_frame hs).1.returned]
    refine ⟨fun _ h => h, ?_⟩
    cases controlActMove hs with
    | beginsCreate => exact Or.inl rfl
    | beginsRelease | beginsDestroy => exact Or.inr ⟨rfl, hidle, rfl⟩
  | control hs =>
    obtain ⟨hf, hdrain⟩ := controlStep_frame hs
    rw [hf.returned]
    exact ⟨fun _ h => h, Or.inl hdrain⟩
  | callbackReturns => exact ⟨fun _ h => h, Or.inl rfl⟩
  | wakeProc | wakeAgent a => exact ⟨fun _ h => h, Or.inl rfl⟩

/-- The processing thread leaves its loop when it finds `_processing` cleared. -/
lemma step_exited (hs : step cfg s act = some s') (h' : s'.proc.isExited = true) :
    s.proc.isExited = true ∨ act = .proc ∧ s.proc.isTop = true ∧ s.processing = false ∧
      s'.stage = s.stage := by
  by_cases hact : act = .proc
  · subst hact
    right
    cases procMove (show procStep s = some s' from hs) with
    | exits hpc hprocessing => exact ⟨rfl, by rw [hpc]; rfl, hprocessing, rfl⟩
    | executes p e _ hs =>
      rcases execStep_proc hs with hp | hp | ⟨e', hp⟩ <;> rw [hp] at h' <;> cases h'
    | _ => cases h'
  · left
    rcases step_proc hs hact with hp | hp | ⟨-, hp⟩ | ⟨q, -, -, hp⟩ <;> rw [hp] at h'
    · exact h'
    · rwa [ProcPc.isExited_wake] at h'
    · cases h'
    · cases h'

namespace DrainInv

/-- **The step lemma.** -/
theorem step (h : DrainInv s) (hk : Accounted cfg s) (hok : Drains s act)
    (hs : LaminaFS.step cfg s act = some s') : DrainInv s' := by
  obtain ⟨hgrows, hdrain⟩ := step_drain hs
  have hreturned (g : ℕ) (hg : g ∈ s'.drain) : g ∈ s.returned := by
    rcases hdrain with he | ⟨he, -⟩ <;> rw [he] at hg
    · exact h.returned g hg
    · exact hg
  refine ⟨fun g hg => hgrows g (hreturned g hg), fun hexit g hg hst' => ?_⟩
  -- what has returned is not pushed any more
  have hst : s.stage g = .queued := by
    have hposted : (s.stage g).isPosted = true := (hk.ledger.returned g (hreturned g hg)).1
    rcases hk.stage_next hok.1 hs g with hsame | hnext
    · exact hsame.symm.trans hst'
    · rw [hst'] at hnext
      cases hb : s.stage g with
      | queued => rfl
      | building =>
        rw [hb] at hposted
        cases hposted
      | _ =>
        rw [hb] at hnext
        cases hnext
  rcases step_exited hs hexit with hold | ⟨hact, htop, hproc, -⟩
  · rcases hdrain with he | ⟨-, hidle, -⟩
    · exact h.exited hold g (he ▸ hg) hst
    · -- the control thread begins nothing behind a stop
      have hrunning : s.control.phase = .running := by
        cases hc : s.control <;> rw [hc] at hidle <;> first | rfl | cases hidle
      have hclear := hk.control.exited hold
      rw [hk.control.processing.mpr hrunning] at hclear
      cases hclear
  · rcases hdrain with he | ⟨-, hidle, -⟩
    · exact hok.2 hact htop hproc g (he ▸ hg) hst
    · have hrunning : s.control.phase = .running := by
        cases hc : s.control <;> rw [hc] at hidle <;> first | rfl | cases hidle
      rw [hk.control.processing.mpr hrunning] at hproc
      cases hproc

/-- Behind the join the processing thread has nothing in its hand, and so nothing is half
done. -/
lemma drained (h : DrainInv s) (hk : Accounted cfg s) : Drained s := by
  intro hphase g hg
  have hexited := hk.control.stopped hphase
  have hhand : s.ledger.hand = .free := by
    show s.proc.hand = _
    rw [ProcPc.isExited_iff.mp hexited]
    rfl
  have hposted : (s.stage g).isPosted = true := (hk.ledger.returned g (h.returned g hg)).1
  have hfinished : s.stage g = .released ∨ s.stage g = .completed ∧
      (s.tickets g).hasCallback = false := by
    cases hst : s.stage g with
    | released => exact Or.inl rfl
    | queued => exact absurd hst (h.exited hexited g hg)
    | executing =>
      have := hk.ledger.executing g hst
      simp [hhand] at this
    | called =>
      have := (hk.ledger.called g hst).2
      simp [hhand] at this
    | completed =>
      refine Or.inr ⟨rfl, ?_⟩
      cases hcallback : (s.tickets g).hasCallback with
      | false => rfl
      | true =>
        have := hk.ledger.completed g hst hcallback
        simp [hhand] at this
    | unborn | building =>
      rw [hst] at hposted
      cases hposted
  constructor
  · refine executed_of_isDone hk.ledger ?_
    rcases hfinished with hst | ⟨hst, -⟩ <;> rw [hst] <;> rfl
  · intro hcallback
    rcases hfinished with hst | ⟨-, hno⟩
    · have hcalls := hk.ledger.calls g
      rw [if_pos (Or.inr ⟨hst, hcallback⟩)] at hcalls
      exact invoked_of_called (List.count_pos_iff.mp (hcalls ▸ Nat.one_pos))
    · rw [hno] at hcallback
      cases hcallback

end DrainInv

section Runs

variable {pool : PoolAllocator} {capacity : ℕ} {memory : ℕ → WorkItem} {world : W}

/-- **Draining.**  In every state of a run in which the processing thread tests the right
`_callback` and leaves no item behind, everything that had been submitted before the control
thread began is complete behind the join. -/
theorem drains (hpool : pool.WF) (hcapacity : 1 ≤ capacity)
    (h : Reach (step cfg) Drains (State.init pool capacity memory world) s) : Drained s := by
  have known (t : State D W) (ht : Reach (step cfg) Drains
      (State.init pool capacity memory world) t) : Accounted cfg t :=
    (refines_handoff hpool hcapacity (fun _ _ hok => hok.1) ht).1
  have hinit : DrainInv (State.init pool capacity memory world : State D W) :=
    ⟨fun g hg => (by cases hg), fun hexit => (by cases hexit)⟩
  have hinv : DrainInv s :=
    h.invariant_of known hinit fun _ _ _ hk hi hok hs => hi.step hk hok hs
  exact hinv.drained (known s h)

end Runs

/-- An item is executed, and then its mount is released. -/
theorem drains_one :
    ∃ s, Reach (step smallConfig) Drains smallInit s ∧ .destroyedDevice 1 ∈ s.log ∧
      s.drain = [0] ∧ Drained s := by
  obtain ⟨s, hs, hp⟩ := @Reach.of_guardedRun_any _ _ (step smallConfig) Drains smallInit
    (fun s act => decide (Drains s act)) (fun _ _ => of_decide_eq_true)
    (mountsRoot ++ submits 0 ⟨.fileExists, [slash, 97], none⟩ 14 ++ List.replicate 12 .proc ++
      .controlAct (.releaseMount 1) :: List.replicate 3 .control ++ [.proc] ++
      List.replicate 4 .control)
    (fun s => decide (.destroyedDevice 1 ∈ s.log ∧ s.drain = [0])) (by decide +kernel)
  rw [decide_eq_true_eq] at hp
  exact ⟨s, hs, hp.1, hp.2,
    drains (PoolAllocator.wf_new 2 (by decide) (by decide)) (by decide) hs⟩

/-- The mount is released while the first of two items is executed: the second one is still in
the queue when the device is destroyed. -/
theorem releaseMount_not_drained :
    ∃ s, Reach (step smallConfig) Free smallInit s ∧ .destroyedDevice 1 ∈ s.log ∧
      1 ∈ s.drain ∧ .executed 1 ∉ s.log ∧ some ⟨1, 1⟩ ∈ s.ring.contents ∧ ¬ Drained s := by
  obtain ⟨s, hs, hp⟩ := @Reach.of_run_any _ _ (step smallConfig) smallInit
    (mountsRoot ++ submits 0 ⟨.fileExists, [slash, 97], none⟩ 14 ++
      submits 1 ⟨.fileExists, [slash, 97], none⟩ 12 ++ [.proc, .proc] ++
      .controlAct (.releaseMount 1) :: List.replicate 3 .control ++ List.replicate 11 .proc ++
      List.replicate 4 .control)
    (fun s => decide (.destroyedDevice 1 ∈ s.log ∧ 1 ∈ s.drain ∧ .executed 1 ∉ s.log ∧
      some ⟨1, 1⟩ ∈ s.ring.contents ∧ s.control.phase = .stopped)) (by decide +kernel)
  rw [decide_eq_true_eq] at hp
  obtain ⟨hdestroyed, hdrain, hexecuted, hqueue, hphase⟩ := hp
  exact ⟨s, hs, hdestroyed, hdrain, hexecuted, hqueue,
    fun h => hexecuted (h hphase 1 hdrain).1⟩

end LaminaFS
