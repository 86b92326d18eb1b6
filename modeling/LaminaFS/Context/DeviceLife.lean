/-
# The life of devices

The processing thread keeps mounts in its local variables while it does not hold `_mountLock`,
and the control thread destroys devices.  It does so only after the processing thread has left
its loop, and the thread that it starts then has no mounts in its variables.

The living devices are those of the mounts in the table, or about to be put there, but for those
that the control thread has destroyed on its way.
-/
import LaminaFS.Context.Tracked

namespace LaminaFS

open Transition

variable {D W : Type} {cfg : Config D W} {s s' : State (Tracked D) (Watched W)} {act : Action}

/-- The mounts whose devices have been created and are still to be destroyed. -/
def ControlPc.owned (mounts : List (MountInfo D W)) : ControlPc D W → List (MountInfo D W)
  | .lockCreate mount | .pushBack mount => mount :: mounts
  | .erase handle => mounts.eraseP fun m => m.handle == handle
  | .destroyAll rest => rest
  | .unlockDestroy | .destroyed => []
  | _ => mounts

/-- The invariant of the life of devices. -/
structure LifeInv (s : State (Tracked D) (Watched W)) : Prop extends s.IsTracked where
  owns : Lifetime.Owns s.world.history s.world.next
    ((s.control.owned s.mounts).map MountInfo.object)
  held : ∀ m ∈ s.proc.mounts, m ∈ s.mounts
  found : ∀ m, s.control = .destroyDevice m →
    (s.mounts.find? fun m' => m'.handle == m.handle) = some m

@[simp] lemma ProcPc.mounts_wake (pc : ProcPc D W) : pc.wake.mounts = pc.mounts := by
  cases pc <;> rfl

/-- What has been found is taken out of the list. -/
lemma perm_eraseP {α : Type} {p : α → Bool} {a : α} {l : List α} (h : l.find? p = some a) :
    l.Perm (a :: l.eraseP p) := by
  induction l with
  | nil => cases h
  | cons b l ih =>
    rw [List.find?_cons] at h
    rw [List.eraseP_cons]
    cases hb : p b with
    | true =>
      rw [hb] at h
      cases h
      exact .refl _
    | false =>
      rw [hb] at h
      exact ((ih h).cons b).trans (.swap a b _)

namespace LifeInv

/-- Steps that leave the devices, the table and the control thread alone. -/
lemma frame (h : LifeInv s) (hworld : s'.world = s.world) (hmounts : s'.mounts = s.mounts)
    (hcontrol : s'.control = s.control) (hproc : ∀ m ∈ s'.proc.mounts, m ∈ s.mounts) :
    LifeInv s' := by
  constructor
  · constructor
    · rw [hmounts]
      exact h.table
    · exact fun m hm => h.table m (hproc m hm)
    · rw [hcontrol]
      exact h.control
  · rw [hworld, hcontrol, hmounts]
    exact h.owns
  · rw [hmounts]
    exact hproc
  · rw [hcontrol, hmounts]
    exact h.found

/-- While the processing thread is in its loop no device is destroyed. -/
lemma mem_owned (h : LifeInv s) (hc : ControlInv s) {m : MountInfo (Tracked D) (Watched W)}
    (hm : m ∈ s.proc.mounts) : m ∈ s.control.owned s.mounts := by
  have hrunning : s.control.phase ≠ .stopped := fun hstopped => by
    have hexited := ProcPc.isExited_iff.mp (hc.stopped hstopped)
    rw [hexited] at hm
    cases hm
  have hmem := h.held m hm
  cases hcontrol : s.control <;> rw [hcontrol] at hrunning <;> first
    | exact hmem
    | exact List.mem_cons_of_mem _ hmem
    | exact absurd rfl hrunning

/-- A function of a device that the processing thread has is called. -/
lemma use (h : LifeInv s) (hc : ControlInv s) {m : MountInfo (Tracked D) (Watched W)} {w : W}
    (hm : m ∈ s.proc.mounts) (hworld : s'.world = s.world.use m.device.id w)
    (hmounts : s'.mounts = s.mounts) (hcontrol : s'.control = s.control)
    (hproc : s'.proc.mounts = []) : LifeInv s' := by
  have hobject : (m.device.id, m.device.kind) ∈
      (s.control.owned s.mounts).map MountInfo.object :=
    List.mem_map.mpr ⟨m, h.mem_owned hc hm, rfl⟩
  have hused := h.owns.use hobject
  have hno : ∀ m ∈ s'.proc.mounts, m ∈ s.mounts := fun m hm => by
    rw [hproc] at hm
    cases hm
  constructor
  · constructor
    · rw [hmounts]
      exact h.table
    · exact fun m hm => h.table m (hno m hm)
    · rw [hcontrol]
      exact h.control
  · rw [hworld, hcontrol, hmounts]
    exact hused
  · rw [hmounts]
    exact hno
  · rw [hcontrol, hmounts]
    exact h.found

lemma exec_step (h : LifeInv s) (hc : ControlInv s) {p : ItemPtr}
    {e : ExecPc (Tracked D) (Watched W)} (hpc : s.proc = .exec p e)
    (hs : execStep s p e = some s') : LifeInv s' := by
  have hf := execStep_frame hs
  have hheld (m : MountInfo (Tracked D) (Watched W)) (hm : m ∈ e.mounts) : m ∈ s.proc.mounts := by
    rw [hpc]
    exact hm
  have quiet (hworld : s'.world = s.world)
      (hproc : ∀ m ∈ s'.proc.mounts, m ∈ e.mounts ∨ m ∈ s.mounts) : LifeInv s' :=
    h.frame hworld hf.mounts hf.control fun m hm =>
      (hproc m hm).elim (fun he => h.held m (hheld m he)) id
  cases execMove hs with
  | callsLookup l mount devicePath r hr =>
    have hmount := hheld mount (List.mem_singleton_self _)
    rw [callLookup_tracked (h.table mount (h.held mount hmount))] at hr
    refine h.use hc hmount (by rw [← hr]) hf.mounts hf.control ?_
    dsimp only
    split <;> rfl
  | callsMutable m mode mount devicePath r hr =>
    have hmount := hheld mount (List.mem_singleton_self _)
    rw [callMutable_tracked (h.table mount (h.held mount hmount))] at hr
    cases hnull : (callMutable m mode mount.untracked devicePath (s.slots p.slot)
        s.world.world).nullFunction with
    | true =>
      refine quiet (by rw [← hr]; simp only [hnull, if_true]) fun m hm => ?_
      rw [← hr] at hm
      simp only [hnull, if_true] at hm
      cases hm
    | false =>
      refine h.use hc hmount (by rw [← hr]; simp only [hnull]; rfl) hf.mounts hf.control ?_
      rw [← hr]
      simp only [hnull]
      rfl
  | searchesNext | locksShared => exact quiet rfl fun m hm => Or.inr (List.mem_reverse.mp hm)
  | passesNext | passesMutable =>
    exact quiet rfl fun m hm => Or.inl (List.mem_cons_of_mem _ hm)
  | findsNext | findsMutable =>
    exact quiet rfl fun m hm => Or.inl (List.mem_cons.mpr (Or.inl (List.mem_singleton.mp hm)))
  | unlocksWrite | unlocks | switches => exact quiet rfl fun m hm => Or.inl hm
  | _ => exact quiet rfl fun m hm => by cases hm

lemma proc_step (h : LifeInv s) (hc : ControlInv s) (hs : procStep s = some s') :
    LifeInv s' := by
  have none (hworld : s'.world = s.world) (hmounts : s'.mounts = s.mounts)
      (hcontrol : s'.control = s.control) (hproc : s'.proc.mounts = []) : LifeInv s' :=
    h.frame hworld hmounts hcontrol fun m hm => by
      rw [hproc] at hm
      cases hm
  cases procMove hs with
  | executes p e hpc hs => exact h.exec_step hc hpc hs
  | _ => exact none rfl rfl rfl rfl

/-- Steps of the control thread that leave the devices and the table alone. -/
lemma of_control (h : LifeInv s) (hworld : s'.world = s.world) (hmounts : s'.mounts = s.mounts)
    (howned : s'.control.owned s.mounts = s.control.owned s.mounts)
    (hcontrol : ∀ m ∈ s'.control.mounts, m ∈ s.mounts ∨ m ∈ s.control.mounts)
    (hproc : ∀ m ∈ s'.proc.mounts, m ∈ s.mounts)
    (hfound : ∀ m, s'.control = .destroyDevice m →
      (s.mounts.find? fun m' => m'.handle == m.handle) = some m) : LifeInv s' := by
  constructor
  · constructor
    · rw [hmounts]
      exact h.table
    · exact fun m hm => h.table m (hproc m hm)
    · exact fun m hm => (hcontrol m hm).elim (h.table m) (h.toIsTracked.control m)
  · rw [hworld, hmounts, howned]
    exact h.owns
  · rw [hmounts]
    exact hproc
  · rw [hmounts]
    exact hfound

/-- Steps of the control thread that create or destroy a device, or change the table. -/
lemma of_devices {mounts : List (MountInfo (Tracked D) (Watched W))}
    (hmounts : s'.mounts = mounts) (htable : ∀ m ∈ mounts, m.IsTracked)
    (hcontrol : ∀ m ∈ s'.control.mounts, m.IsTracked)
    (howns : Lifetime.Owns s'.world.history s'.world.next
      ((s'.control.owned mounts).map MountInfo.object))
    (hproc : ∀ m ∈ s'.proc.mounts, m ∈ mounts)
    (hfound : ∀ m, s'.control ≠ .destroyDevice m) : LifeInv s' := by
  subst hmounts
  exact ⟨⟨htable, fun m hm => htable m (hproc m hm), hcontrol⟩, howns, hproc,
    fun m hm => absurd hm (hfound m)⟩

lemma control_step (h : LifeInv s) (hc : ControlInv s)
    (hs : controlStep cfg.tracked s = some s') : LifeInv s' := by
  have hheld := h.held
  have hcontrol := h.toIsTracked.control
  have howns := h.owns
  -- behind the join the processing thread has no mounts
  have hgone (hstopped : s.control.phase = .stopped) : s.proc.mounts = [] := by
    rw [ProcPc.isExited_iff.mp (hc.stopped hstopped)]
    rfl
  cases controlMove hs with
  | makes args handle code mount w hpc hmake =>
    rw [hpc] at howns
    have hmade := makeMount_made cfg.interfaces args handle s.world
    rw [show makeMount (cfg.interfaces.mapIdx DeviceInterface.tracked) args handle s.world =
      _ from hmake] at hmade
    cases hmade with
    | made _ hm hobject hnext hhistory =>
      refine of_devices rfl h.table (fun m hm' => ?_) ?_ hheld (by simp)
      · rw [List.mem_singleton.mp hm']
        exact hm
      · show Lifetime.Owns _ _ (mount.object :: s.mounts.map MountInfo.object)
        dsimp only
        rw [hobject, hnext, hhistory]
        exact howns.create _
  | makesNone args handle code w hpc hmake =>
    rw [hpc] at howns
    have hmade := makeMount_made cfg.interfaces args handle s.world
    rw [show makeMount (cfg.interfaces.mapIdx DeviceInterface.tracked) args handle s.world =
      _ from hmake] at hmade
    cases hmade with
    | none hnext hhistory =>
      refine of_devices rfl h.table (fun m hm => by cases hm) ?_ hheld (by simp)
      dsimp only
      rw [hnext, hhistory]
      exact howns
  | pushesBack mount hpc =>
    rw [hpc] at howns hcontrol
    refine of_devices rfl (fun m hm => ?_) (fun m hm => by cases hm) ?_
      (fun m hm => List.mem_append_left _ (hheld m hm)) (by simp)
    · rcases List.mem_append.mp hm with hm | hm
      · exact h.table m hm
      · exact hcontrol m hm
    · exact howns.perm ((List.perm_append_singleton mount s.mounts).symm.map _)
  | finds handle mount hpc hfind =>
    have hhandle : mount.handle = handle := by simpa using List.find?_some hfind
    refine h.of_control rfl rfl (by rw [hpc]; rfl) (fun m hm => ?_) hheld fun m hm => ?_
    · rw [List.mem_singleton.mp hm]
      exact Or.inl (List.mem_of_find?_eq_some hfind)
    · cases hm
      rw [hhandle]
      exact hfind
  | destroysDevice mount hpc =>
    rw [hpc] at howns hcontrol
    have hm := hcontrol mount (List.mem_singleton_self _)
    obtain ⟨hnext, hhistory⟩ := @destroy_history _ _ mount s.world hm
    refine of_devices rfl h.table (fun m hm => by cases hm) ?_ hheld (by simp)
    dsimp only
    rw [hnext, hhistory]
    exact (howns.perm ((perm_eraseP (h.found mount hpc)).map _)).destroy
  | erases handle hpc =>
    rw [hpc] at howns
    have hno := hgone (by rw [hpc]; rfl)
    refine of_devices rfl (fun m hm => h.table m (List.mem_of_mem_eraseP hm))
      (fun m hm => by cases hm) howns (fun m hm => ?_) (by simp)
    rw [show (s.proc.mounts) = [] from hno] at hm
    cases hm
  | destroysNext mount rest hpc =>
    rw [hpc] at howns hcontrol
    have hm := hcontrol mount List.mem_cons_self
    obtain ⟨hnext, hhistory⟩ := @destroy_history _ _ mount s.world hm
    refine of_devices rfl h.table (fun m hm => hcontrol m (List.mem_cons_of_mem _ hm)) ?_
      hheld (by simp)
    dsimp only
    rw [hnext, hhistory]
    exact Lifetime.Owns.destroy howns
  | locksDestroy hpc =>
    exact h.of_control rfl rfl (by rw [hpc]; rfl) (fun m hm => Or.inl hm) hheld (by simp)
  | starts hpc =>
    exact h.of_control rfl rfl (by rw [hpc]; rfl) (fun m hm => by cases hm)
      (fun m hm => by cases hm) (by simp)
  | notifiesOne k hpc =>
    refine h.of_control rfl rfl (by rw [hpc]; rfl) (fun m hm => by cases hm) ?_ (by simp)
    show ∀ m ∈ s.proc.wake.mounts, m ∈ s.mounts
    rw [ProcPc.mounts_wake]
    exact hheld
  | locksCreate mount hpc =>
    exact h.of_control rfl rfl (by rw [hpc]; rfl)
      (fun m hm => Or.inr (by rw [hpc]; exact hm)) hheld (by simp)
  | _ =>
    exact h.of_control rfl rfl (by rw [‹s.control = _›]; rfl) (fun m hm => by cases hm) hheld
      (by simp)

/-- **The step lemma.** -/
theorem step (h : LifeInv s) (hc : ControlInv s)
    (hs : LaminaFS.step cfg.tracked s act = some s') : LifeInv s' := by
  cases stepBy hs with
  | client a act _ hs =>
    have hf := clientStep_frame hs
    exact h.frame hf.world hf.mounts hf.control (by rw [hf.proc]; exact h.held)
  | agent a hs =>
    have hf := agentStep_frame hs
    refine h.frame hf.world hf.mounts hf.control ?_
    rcases hf.proc with hp | hp <;> rw [hp]
    · exact h.held
    · rw [ProcPc.mounts_wake]
      exact h.held
  | proc hs => exact h.proc_step hc hs
  | control hs => exact h.control_step hc hs
  | controlAct act hidle hs =>
    have hpc : s.control = .idle := by
      cases hc : s.control <;> rw [hc] at hidle <;> first | rfl | cases hidle
    cases controlActMove hs <;>
      exact h.of_control rfl rfl (by rw [hpc]; rfl) (fun m hm => by cases hm) h.held (by simp)
  | callbackReturns => exact h.frame rfl rfl rfl fun m hm => by cases hm
  | wakeProc =>
    refine h.frame rfl rfl rfl ?_
    show ∀ m ∈ s.proc.wake.mounts, m ∈ s.mounts
    rw [ProcPc.mounts_wake]
    exact h.held
  | wakeAgent a => exact h.frame rfl rfl rfl h.held

end LifeInv

/-! ### Runs -/

/-- What is recorded of the devices of a context. -/
structure DevicesKept (s : State (Tracked D) (Watched W)) : Prop where
  /-- behind its `_destroy` no function is called on a device, and it is not destroyed again -/
  ended : ∀ newer older id k, s.world.history = newer ++ .destroyed id k :: older →
    .used id ∉ newer ∧ ∀ k', .destroyed id k' ∉ newer
  /-- a device is destroyed by the type that has created it -/
  own : ∀ id k, .destroyed id k ∈ s.world.history → .created id k ∈ s.world.history
  /-- the mounts that the processing thread has are in the table, and their devices live -/
  held : ∀ m ∈ s.proc.mounts, m ∈ s.mounts ∧
    Lifetime.Live s.world.history m.device.id m.device.kind
  /-- when the destructor has returned, every device has been destroyed once -/
  destroyed : s.control = .destroyed → ∀ id k, .created id k ∈ s.world.history →
    s.world.history.count (.destroyed id k) = 1 ∧ ∀ k' ≠ k, .destroyed id k' ∉ s.world.history

lemma LifeInv.devicesKept (h : LifeInv s) (hc : ControlInv s) : DevicesKept s where
  ended newer older id k he := by
    have horderly := h.owns.orderly
    rw [he] at horderly
    exact horderly.not_after
  own id k := h.owns.orderly.created_of_destroyed
  held m hm := ⟨h.held m hm, (h.owns.live _ _).mp (List.mem_map.mpr ⟨m, h.mem_owned hc hm, rfl⟩)⟩
  destroyed hcontrol id k hcreated := by
    refine h.owns.orderly.destroyed_once hcreated fun hlive => ?_
    have hmem := (h.owns.live id k).mpr hlive
    rw [hcontrol] at hmem
    cases hmem

section Runs

variable {pool : PoolAllocator} {capacity : ℕ} {memory : ℕ → WorkItem} {world : W}
  {s₁ : State D W} {acts : List Action}

/-- **Devices.**  Every run of a context is, without the record, the run with recorded devices
that the same steps make, and the record says that no device is used after it has been
destroyed, and that in the end all have been destroyed, once and by their own type. -/
theorem devices_kept
    (h : run (step cfg) (State.init pool capacity memory world) acts = some s₁) :
    ∃ s : State (Tracked D) (Watched W),
      run (step cfg.tracked) (State.init pool capacity memory ⟨world, 0, []⟩) acts = some s ∧
      s.untracked = s₁ ∧ DevicesKept s := by
  let s₀ : State (Tracked D) (Watched W) := State.init pool capacity memory ⟨world, 0, []⟩
  have hinit : LifeInv s₀ ∧ ControlInv s₀ := by
    refine ⟨⟨⟨?_, ?_, ?_⟩, .nil, ?_, ?_⟩,
      controlInv (.refl : Reach (step cfg.tracked) Free s₀ s₀)⟩
    all_goals
      intro m hm
      cases hm
  have keep (s : State (Tracked D) (Watched W)) (act : Action)
      (s' : State (Tracked D) (Watched W)) (hi : LifeInv s ∧ ControlInv s)
      (hs : step cfg.tracked s act = some s') : LifeInv s' ∧ ControlInv s' :=
    ⟨hi.1.step hi.2 hs, hi.2.step hs⟩
  have hrun := run_map keep (fun s act hi => step_untracked hi.1.toIsTracked) hinit acts
  rw [show s₀.untracked = State.init pool capacity memory world from rfl, h] at hrun
  obtain ⟨s, hs, hview⟩ := Option.map_eq_some_iff.mp hrun.symm
  obtain ⟨hi, hc⟩ := (Reach.of_run hs).invariant hinit fun s act s' hi _ => keep s act s' hi
  exact ⟨s, hs, hview, hi.devicesKept hc⟩

end Runs

/-- The control thread stops the processing thread, which is at the head of its loop, and takes
`n` steps more. -/
def stops (act : ControlAct) (n : ℕ) : List Action :=
  .controlAct act :: List.replicate 3 .control ++ .proc :: List.replicate n .control

/-- Two mounts are made and a file is looked for in both; the first mount is released, twice, and
the context is destroyed. -/
def releasesTwice : List Action :=
  mountsRoot ++ .controlAct (.createMount ⟨0, [slash], [], .mountDefault⟩ 2) ::
    List.replicate 4 .control ++ submits 0 ⟨.fileExists, [slash, 97], none⟩ 14 ++
    List.replicate 17 .proc ++ stops (.releaseMount 1) 7 ++ stops (.releaseMount 1) 5 ++
    stops .destroy 5

/-- Both devices are used, and each is destroyed once. -/
theorem devices_kept_two :
    ∃ s, run (step smallConfig.tracked) (State.init (.new 1 1 2) 2 (fun _ => .new) ⟨(), 0, []⟩)
        releasesTwice = some s ∧
      s.control.isDestroyed = true ∧
      s.world.history = [.destroyed 1 0, .destroyed 0 0, .used 0, .used 1, .created 1 0,
        .created 0 0] ∧ DevicesKept s := by
  have hsome : (run (step smallConfig) smallInit releasesTwice).isSome = true := by
    decide +kernel
  obtain ⟨s₁, hs₁⟩ := Option.isSome_iff_exists.mp hsome
  obtain ⟨s, hs, -, hkept⟩ := devices_kept hs₁
  have hp : (run (step smallConfig.tracked)
      (State.init (.new 1 1 2) 2 (fun _ => .new) ⟨(), 0, []⟩) releasesTwice).any (fun s =>
        decide (s.control.isDestroyed = true ∧ s.world.history = [.destroyed 1 0, .destroyed 0 0,
          .used 0, .used 1, .created 1 0, .created 0 0])) = true := by decide +kernel
  rw [hs, Option.any_some, decide_eq_true_eq] at hp
  exact ⟨s, hs, hp.1, hp.2, hkept⟩

end LaminaFS
