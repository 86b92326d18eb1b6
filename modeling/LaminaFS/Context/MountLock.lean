/-
# `_mountLock` and the scans of the mount table

`findMutableMountAndPath` scans under the shared lock and `createMount` appends under the
exclusive one.  `findNextMountAndPath` scans without the lock, so that nothing keeps its scans
and the appending apart but the moments at which they happen.
-/
import LaminaFS.Context.Control

namespace LaminaFS

open Transition

variable {D W : Type} {cfg : Config D W} {s s' : State D W} {a : Agent}

namespace ProcPc

/-- In the middle of a scan in `findNextMountAndPath`. -/
def inNextScan : ProcPc D W → Bool
  | .exec _ (.scanNext ..) => true
  | _ => false

/-- In the middle of a scan in `findMutableMountAndPath`. -/
def inMutableScan : ProcPc D W → Bool
  | .exec _ (.scanMutable ..) => true
  | _ => false

/-- In the middle of a scan of `_mounts`. -/
def midScan (pc : ProcPc D W) : Bool := pc.inNextScan || pc.inMutableScan

/-- At the call of `findNextMountAndPath`. -/
def startsNextScan : ProcPc D W → Bool
  | .exec _ (.findNext ..) => true
  | _ => false

@[simp] lemma inNextScan_wake (pc : ProcPc D W) : pc.wake.inNextScan = pc.inNextScan := by
  cases pc <;> rfl

end ProcPc

namespace ControlPc

/-- In the critical section of `createMount`, before the mount is appended. -/
def inPushBack : ControlPc D W → Bool
  | .pushBack _ => true
  | _ => false

/-- At the lock in `createMount`. -/
def locksCreate : ControlPc D W → Bool
  | .lockCreate _ => true
  | _ => false

end ControlPc

/-- The lock is held by whoever is in a section of it. -/
structure MountLockInv (s : State D W) : Prop where
  shared : s.lock = .shared ↔ s.proc.holdsShared = true
  exclusive : s.lock = .exclusive ↔ s.control.holdsTable = true

namespace MountLockInv

lemma frame (h : MountLockInv s) (hl : s'.lock = s.lock)
    (hp : s'.proc.holdsShared = s.proc.holdsShared)
    (hc : s'.control.holdsTable = s.control.holdsTable) : MountLockInv s' := by
  constructor
  · rw [hl, hp]
    exact h.shared
  · rw [hl, hc]
    exact h.exclusive

/-- In an execution only the two steps on the lock change who holds it. -/
lemma execStep {p : ItemPtr} {e : ExecPc D W} (h : MountLockInv s) (hpc : s.proc = .exec p e)
    (hs : execStep s p e = some s') : MountLockInv s' := by
  obtain ⟨hshared, hexcl⟩ := h
  rw [hpc] at hshared
  cases execMove hs with
  | locksShared m op path hfree =>
    rw [hfree] at hexcl
    exact ⟨by simp [ProcPc.holdsShared], by simpa using hexcl⟩
  | unlocksNone | unlocksWrite | unlocks =>
    have hheld : s.lock = .shared := hshared.mpr rfl
    rw [hheld] at hexcl
    exact ⟨by simp [ProcPc.holdsShared], by simpa using hexcl⟩
  | callsLookup | callsMutable =>
    refine ⟨hshared.trans ?_, hexcl⟩
    dsimp only
    split <;> simp [ProcPc.holdsShared]
  | _ => exact ⟨hshared, hexcl⟩

lemma procStep (h : MountLockInv s) (hs : procStep s = some s') : MountLockInv s' := by
  cases procMove hs with
  | executes p e hpc hs => exact h.execStep hpc hs
  | _ => exact h.frame rfl (by rw [‹s.proc = _›]; rfl) rfl

lemma controlStep (hctl : ControlInv s) (h : MountLockInv s)
    (hs : controlStep cfg s = some s') : MountLockInv s' := by
  obtain ⟨hshared, hexcl⟩ := h
  cases controlMove hs with
  | locksRelease _ hpc hfree | locksDestroy hpc hfree | locksCreate _ hpc hfree =>
    rw [hfree] at hshared
    exact ⟨by simpa using hshared, by simp [ControlPc.holdsTable]⟩
  | unlocksRelease hpc | unlocksDestroy hpc | unlocksCreate hpc =>
    have hheld : s.lock = .exclusive := hexcl.mpr (by rw [hpc]; rfl)
    rw [hheld] at hshared
    exact ⟨by simpa using hshared, by simp [ControlPc.holdsTable]⟩
  | starts hpc =>
    -- the thread that starts anew holds nothing, as did the one that has left
    rw [hctl.exited_of_start hpc] at hshared
    rw [hpc] at hexcl
    exact ⟨hshared, hexcl⟩
  | notifiesOne _ hpc =>
    rw [hpc] at hexcl
    exact ⟨by simpa using hshared, hexcl⟩
  | _ =>
    rw [‹s.control = _›] at hexcl
    exact ⟨hshared, hexcl⟩

lemma step {act : Action} (hctl : ControlInv s) (h : MountLockInv s)
    (hs : step cfg s act = some s') : MountLockInv s' := by
  cases stepBy hs with
  | client a act _ hs =>
    have hf := clientStep_frame hs
    exact h.frame hf.lock (by rw [hf.proc]) (by rw [hf.control])
  | agent a hs =>
    have hf := agentStep_frame hs
    refine h.frame hf.lock ?_ (by rw [hf.control])
    rcases hf.proc with hp | hp <;> simp [hp]
  | proc hs => exact h.procStep hs
  | callbackReturns _ hpc _ => exact h.frame rfl (by rw [hpc]; rfl) rfl
  | controlAct act hidle hs =>
    obtain ⟨-, hp, -, hl, -⟩ := controlActStep_frame hs
    refine h.frame hl (by rw [hp]) ?_
    have hidle' : s.control.holdsTable = false := by
      cases hc : s.control <;> rw [hc] at hidle <;> first | rfl | cases hidle
    rw [hidle']
    cases controlActMove hs <;> rfl
  | control hs => exact h.controlStep hctl hs
  | wakeProc => exact h.frame rfl (by simp) rfl
  | wakeAgent a => exact h.frame rfl rfl rfl

end MountLockInv

/-! ### The scan without the lock -/

/-- Only two steps lead into a scan of `findNextMountAndPath`: its start and its next mount. -/
lemma execStep_inNextScan {p : ItemPtr} {e : ExecPc D W} (hs : execStep s p e = some s')
    (h : s'.proc.inNextScan = true) :
    (ProcPc.exec p e).inNextScan = true ∨ (ProcPc.exec p e).startsNextScan = true := by
  cases execMove hs with
  | searchesNext => exact Or.inr rfl
  | findsNoNext | passesNext | findsNext => exact Or.inl rfl
  | callsLookup | callsMutable =>
    dsimp only at h
    split at h <;> cases h
  | _ => cases h

lemma procStep_inNextScan (hs : procStep s = some s') (h : s'.proc.inNextScan = true) :
    s.proc.inNextScan = true ∨ s.proc.startsNextScan = true := by
  cases procMove hs with
  | executes p e hpc hs =>
    rw [hpc]
    exact execStep_inNextScan hs h
  | _ => cases h

/-- Other threads do not bring the processing thread into a scan. -/
lemma step_inNextScan {act : Action} (hs : step cfg s act = some s')
    (h : s'.proc.inNextScan = true) :
    s.proc.inNextScan = true ∨ (act = .proc ∧ s.proc.startsNextScan = true) := by
  by_cases hact : act = .proc
  · subst hact
    exact (procStep_inNextScan hs h).imp_right fun h => ⟨rfl, h⟩
  · rcases step_proc hs hact with hp | hp | ⟨-, hp⟩ | ⟨p, -, -, hp⟩ <;> rw [hp] at h
    · exact Or.inl h
    · exact Or.inl (by simpa using h)
    · cases h
    · cases h

/-- Only `createMount` leads into the section that appends, and by the lock. -/
lemma controlStep_inPushBack (hs : controlStep cfg s = some s')
    (h : s'.control.inPushBack = true) : s.control.locksCreate = true := by
  cases controlMove hs with
  | locksCreate mount hpc => rw [hpc]; rfl
  | _ => cases h

lemma step_inPushBack {act : Action} (hs : step cfg s act = some s')
    (h : s'.control.inPushBack = true) :
    s.control.inPushBack = true ∨ (act = .control ∧ s.control.locksCreate = true) := by
  cases stepBy hs with
  | client a act _ hs =>
    rw [(clientStep_frame hs).control] at h
    exact Or.inl h
  | agent a hs =>
    rw [(agentStep_frame hs).control] at h
    exact Or.inl h
  | proc hs =>
    rw [(procStep_frame hs).control] at h
    exact Or.inl h
  | callbackReturns => exact Or.inl h
  | controlAct act _ hs =>
    cases controlActMove hs <;> cases h
  | control hs => exact Or.inr ⟨rfl, controlStep_inPushBack hs h⟩
  | wakeProc | wakeAgent a => exact Or.inl h

/-- The appending and a scan of the table happen at the same time. -/
def Collides (s : State D W) : Prop :=
  s.proc.midScan = true ∧ s.control.inPushBack = true

/-- The step neither starts a scan of `findNextMountAndPath` while a mount is appended nor
enters the section that appends during such a scan. -/
def KeepsApart (s : State D W) (act : Action) : Prop :=
  (act = .proc → s.proc.startsNextScan = true → s.control.inPushBack = false) ∧
    (act = .control → s.control.locksCreate = true → s.proc.inNextScan = false)

instance (s : State D W) (act : Action) : Decidable (KeepsApart s act) :=
  inferInstanceAs (Decidable (_ ∧ _))

lemma MountLockInv.mutableScan (h : MountLockInv s) (hp : s.proc.inMutableScan = true) :
    s.lock = .shared := by
  refine h.shared.mpr ?_
  cases hpc : s.proc with
  | exec p e => cases e <;> rw [hpc] at hp <;> first | rfl | cases hp
  | _ => rw [hpc] at hp; cases hp

lemma MountLockInv.nextScan (h : MountLockInv s) (hp : s.proc.inNextScan = true) :
    s.lock ≠ .shared := by
  intro hlock
  have hholds := h.shared.mp hlock
  cases hpc : s.proc with
  | exec p e => cases e <;> rw [hpc] at hp hholds <;> first | cases hp; done | cases hholds
  | _ => rw [hpc] at hp; cases hp

lemma MountLockInv.pushBack (h : MountLockInv s) (hc : s.control.inPushBack = true) :
    s.lock = .exclusive := by
  refine h.exclusive.mpr ?_
  cases hcc : s.control <;> rw [hcc] at hc <;> first | rfl | cases hc

/-- By the lock only the scans of `findNextMountAndPath` can collide. -/
lemma collides_iff (h : MountLockInv s) :
    Collides s ↔ s.proc.inNextScan = true ∧ s.control.inPushBack = true := by
  unfold Collides ProcPc.midScan
  rw [Bool.or_eq_true]
  constructor
  · rintro ⟨hp | hp, hc⟩
    · exact ⟨hp, hc⟩
    · have := (h.mutableScan hp).symm.trans (h.pushBack hc)
      cases this
  · exact fun ⟨hp, hc⟩ => ⟨Or.inl hp, hc⟩

/-- From a state without a collision a step leads to one exactly if it does not keep apart. -/
lemma collides_step {act : Action} (hctl : ControlInv s) (hm : MountLockInv s)
    (hno : ¬ Collides s) (hs : step cfg s act = some s') :
    ¬ Collides s' ↔ KeepsApart s act := by
  rw [collides_iff hm] at hno
  rw [collides_iff (hm.step hctl hs)]
  constructor
  · intro h
    constructor
    · -- the scan starts although a mount is being appended
      rintro rfl hstart
      by_contra hc
      rw [Bool.not_eq_false] at hc
      refine h ⟨?_, by rwa [(procStep_frame hs).control]⟩
      cases hpc : s.proc with
      | exec p e =>
        rw [hpc] at hstart
        cases e with
        | findNext l start =>
          simp only [step, procStep, hpc] at hs
          cases hs
          rfl
        | _ => cases hstart
      | _ => rw [hpc] at hstart; cases hstart
    · -- the section is entered although a scan goes on
      rintro rfl hlock
      by_contra hp
      rw [Bool.not_eq_false] at hp
      cases hc : s.control with
      | lockCreate mount =>
        simp only [step, controlStep, hc] at hs
        split at hs <;> cases hs
        exact h ⟨hp, rfl⟩
      | _ => rw [hc] at hlock; cases hlock
  · rintro ⟨hstart, hlock⟩ ⟨hp, hc⟩
    rcases step_inNextScan hs hp with hp' | ⟨rfl, hp'⟩
    · rcases step_inPushBack hs hc with hc' | ⟨rfl, hc'⟩
      · exact hno ⟨hp', hc'⟩
      · rw [hlock rfl hc'] at hp'
        cases hp'
    · rcases step_inPushBack hs hc with hc' | ⟨hact, -⟩
      · rw [hstart rfl hp'] at hc'
        cases hc'
      · cases hact

section Runs

variable {pool : PoolAllocator} {capacity : ℕ} {memory : ℕ → WorkItem} {world : W}

lemma mountLockInv {ok : State D W → Action → Prop}
    (h : Reach (step cfg) ok (State.init pool capacity memory world) s) : MountLockInv s :=
  h.invariant_of (fun _ => controlInv)
    ⟨by simp [State.init, ProcPc.holdsShared], by simp [State.init, ControlPc.holdsTable]⟩
    fun _ _ _ hctl hi _ hs => hi.step hctl hs

/-- **Exclusion.**  In a run whose steps all keep apart, no state has `createMount` appending a
mount in the middle of a scan; `findMutableMountAndPath` scans under the shared lock, and
`findNextMountAndPath` never does.  And from each state of such a run every step that does not
keep apart does lead to a state in which a mount is appended in the middle of a scan. -/
theorem scan_excludes_pushBack
    (h : Reach (step cfg) KeepsApart (State.init pool capacity memory world) s) :
    ¬ Collides s ∧ (s.proc.inMutableScan = true → s.lock = .shared) ∧
      (s.proc.inNextScan = true → s.lock ≠ .shared) ∧
      ∀ act s', step cfg s act = some s' → (¬ Collides s' ↔ KeepsApart s act) := by
  have hno : ¬ Collides s := by
    have known : ∀ t, Reach (step cfg) KeepsApart (State.init pool capacity memory world) t →
        ControlInv t ∧ MountLockInv t := fun t ht => ⟨controlInv ht, mountLockInv ht⟩
    have start : ¬ Collides (State.init pool capacity memory world : State D W) := by
      simp [Collides, State.init, ControlPc.inPushBack]
    exact h.invariant_of known start fun _ _ _ hknown hno hok hs =>
      (collides_step hknown.1 hknown.2 hno hs).mpr hok
  exact ⟨hno, (mountLockInv h).mutableScan, (mountLockInv h).nextScan,
    fun act s' hs => collides_step (controlInv h) (mountLockInv h) hno hs⟩

end Runs

/-- A mount is appended, and then a lookup scans the table. -/
theorem scan_excludes_pushBack_inTurn :
    ∃ s, Reach (step smallConfig) KeepsApart smallInit s ∧ s.mounts.length = 1 ∧
      s.proc.inNextScan = true ∧ ¬ Collides s := by
  obtain ⟨s, hs, hp⟩ := @Reach.of_guardedRun_any _ _ (step smallConfig) KeepsApart smallInit
    (fun s act => decide (KeepsApart s act)) (fun _ _ => of_decide_eq_true)
    ([.controlAct (.createMount ⟨0, [slash], [], .mountDefault⟩ 1), .control, .control, .control,
      .control] ++ submits 0 ⟨.fileExists, [slash], none⟩ 14 ++ [.proc, .proc, .proc, .proc])
    (fun s => s.mounts.length = 1 && s.proc.inNextScan) (by decide +kernel)
  rw [Bool.and_eq_true, decide_eq_true_eq] at hp
  exact ⟨s, hs, hp.1, hp.2, (scan_excludes_pushBack hs).1⟩

/-- While the processing thread scans the table for a lookup, `createMount` appends to it. -/
theorem scan_collides :
    ∃ s, Reach (step smallConfig) Free smallInit s ∧ Collides s := by
  obtain ⟨s, hs, hc⟩ := @Reach.of_run_any _ _ (step smallConfig) smallInit
    (submits 0 ⟨.fileExists, [slash], none⟩ 14 ++ [.proc, .proc, .proc, .proc] ++
      [.controlAct (.createMount ⟨0, [slash], [], .mountDefault⟩ 1), .control, .control])
    (fun s => s.proc.midScan && s.control.inPushBack) (by decide +kernel)
  exact ⟨s, hs, by simpa [Collides] using hc⟩

end LaminaFS
