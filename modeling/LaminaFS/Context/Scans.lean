/-
# The table that the processing thread scans

No two mounts of the table have the same handle, so that the restart point of a scan is found
again.  While an item is executed mounts are only appended to the table, so that the mounts that
a scan has left are a part of the table, and stay one.
-/
import LaminaFS.Context.MountTable
import LaminaFS.Context.Progress

namespace LaminaFS

open Transition

variable {D W : Type} {cfg : Config D W} {s s' : State D W} {act : Action}

/-! ### The handles of the table -/

/-- The handle under which the control thread is going to enter a mount. -/
def ControlPc.entering : ControlPc D W → Option ℕ
  | .make _ handle => some handle
  | .lockCreate mount | .pushBack mount => some mount.handle
  | _ => none

/-- No two mounts have the same handle. -/
structure HandleInv (s : State D W) : Prop where
  nodup : (s.mounts.map MountInfo.handle).Nodup
  fresh : ∀ handle ∈ s.control.entering, handle ∉ s.mounts.map MountInfo.handle

namespace HandleInv

lemma frame (h : HandleInv s) (hmounts : s'.mounts = s.mounts) (hcontrol : s'.control = s.control) :
    HandleInv s' := by
  refine ⟨by rw [hmounts]; exact h.nodup, ?_⟩
  rw [hcontrol, hmounts]
  exact h.fresh

lemma controlStep (h : HandleInv s) (hs : controlStep cfg s = some s') : HandleInv s' := by
  have enters {t : State D W} (hmounts : t.mounts = s.mounts)
      (hcontrol : ∀ handle ∈ t.control.entering, handle ∈ s.control.entering) : HandleInv t :=
    ⟨by rw [hmounts]; exact h.nodup, fun handle hh => by
      rw [hmounts]
      exact h.fresh handle (hcontrol handle hh)⟩
  cases controlMove hs with
  | erases handle hpc =>
    exact ⟨h.nodup.sublist (List.eraseP_sublist.map _), fun _ hh => by cases hh⟩
  | makes args handle code mount w hpc hmake =>
    refine enters rfl fun handle' hh => ?_
    rw [hpc]
    have hmount := (makeMount_some (m := mount) (by rw [hmake])).2.1
    cases hh
    exact congrArg some hmount.symm
  | locksCreate mount hpc => exact enters rfl fun handle hh => by rwa [hpc]
  | pushesBack mount hpc =>
    have hnew := h.fresh mount.handle (by rw [hpc]; rfl)
    refine ⟨?_, fun _ hh => by cases hh⟩
    rw [List.map_append, List.map_singleton, List.nodup_append]
    refine ⟨h.nodup, List.nodup_singleton _, fun x hx y hy he => hnew ?_⟩
    rwa [← List.mem_singleton.mp hy, ← he]
  | _ => exact enters rfl fun _ hh => by cases hh

lemma step (h : HandleInv s) (hs : LaminaFS.step cfg s act = some s') : HandleInv s' := by
  cases stepBy hs with
  | client a act _ hs =>
    have hf := clientStep_frame hs
    exact h.frame hf.mounts hf.control
  | agent a hs =>
    have hf := agentStep_frame hs
    exact h.frame hf.mounts hf.control
  | proc hs =>
    have hf := procStep_frame hs
    exact h.frame hf.mounts hf.control
  | controlAct act _ hs =>
    cases controlActMove hs with
    | beginsCreate args handle _ hnew =>
      exact ⟨h.nodup, fun handle' hh => by cases hh; exact hnew⟩
    | beginsRelease | beginsDestroy => exact ⟨h.nodup, fun _ hh => by cases hh⟩
  | control hs => exact h.controlStep hs
  | callbackReturns | wakeProc | wakeAgent a => exact h.frame rfl rfl

end HandleInv

/-- A step appends a mount to the table that was to be entered, or takes one out behind the
stop. -/
lemma step_mounts (hs : step cfg s act = some s') :
    s'.mounts = s.mounts ∨
      (∃ mount, s.control = .pushBack mount ∧ s'.mounts = s.mounts ++ [mount]) ∨
      ∃ handle, s.control = .erase handle := by
  cases stepBy hs with
  | client a act _ hs => exact Or.inl (clientStep_frame hs).mounts
  | agent a hs => exact Or.inl (agentStep_frame hs).mounts
  | proc hs => exact Or.inl (procStep_frame hs).mounts
  | controlAct act _ hs => exact Or.inl (controlActStep_frame hs).2.2.2.2.1
  | control hs =>
    cases controlMove hs with
    | pushesBack mount hpc => exact Or.inr (Or.inl ⟨mount, hpc, rfl⟩)
    | erases handle hpc => exact Or.inr (Or.inr ⟨handle, hpc⟩)
    | _ => exact Or.inl rfl
  | callbackReturns | wakeProc | wakeAgent a => exact Or.inl rfl

/-- Before the processing thread has left its loop, all that happens to the table is that a
mount with a new handle is appended. -/
lemma step_mounts_running (hctl : ControlInv s) (hn : HandleInv s)
    (hs : step cfg s act = some s') (hrunning : s.proc.isExited = false) :
    s'.mounts = s.mounts ∨ ∃ mount, s'.mounts = s.mounts ++ [mount] ∧
      mount.handle ∉ s.mounts.map MountInfo.handle := by
  rcases step_mounts hs with h | ⟨mount, hpc, h⟩ | ⟨handle, hpc⟩
  · exact Or.inl h
  · exact Or.inr ⟨mount, h, hn.fresh mount.handle (by rw [hpc]; rfl)⟩
  · rw [hctl.stopped (by rw [hpc]; rfl)] at hrunning
    cases hrunning

/-! ### The mounts that are left -/

/-- What a lookup looks at is in the table. -/
def ExecPc.Scans (mounts : List (MountInfo D W)) : ExecPc D W → Prop
  | .findNext _ (some handle) => handle ∈ mounts.map MountInfo.handle
  | .scanNext _ _ _ rest => rest <:+ mounts.reverse
  | .callLookup _ mount _ => mount ∈ mounts
  | _ => True

lemma ExecPc.Scans.append {mounts : List (MountInfo D W)} {e : ExecPc D W} (h : e.Scans mounts)
    (mount : MountInfo D W) : e.Scans (mounts ++ [mount]) := by
  cases e with
  | findNext l start =>
    cases start with
    | none => trivial
    | some handle =>
      rw [ExecPc.Scans, List.map_append]
      exact List.mem_append_left _ h
  | scanNext l path onlyAfter rest =>
    rw [ExecPc.Scans, List.reverse_append]
    exact List.IsSuffix.trans h (List.suffix_append _ _)
  | callLookup l m devicePath => exact List.mem_append_left _ h
  | _ => trivial

/-- The invariant of the scans. -/
def ScanInv (s : State D W) : Prop := ∀ p e, s.proc = .exec p e → e.Scans s.mounts

namespace ScanInv

lemma execStep {p : ItemPtr} {e : ExecPc D W} (h : e.Scans s.mounts)
    (hs : execStep s p e = some s') : ScanInv s' := by
  intro p' e' hpc'
  cases execMove hs with
  | searchesNext l start =>
    cases hpc'
    exact List.suffix_refl _
  | passesNext l path onlyAfter after mount rest =>
    cases hpc'
    exact (List.suffix_cons mount rest).trans h
  | findsNext l path onlyAfter mount rest devicePath =>
    cases hpc'
    have hmem : mount ∈ s.mounts.reverse := h.subset List.mem_cons_self
    exact List.mem_reverse.mp hmem
  | callsLookup l mount devicePath r =>
    dsimp only at hpc'
    split at hpc'
    · cases hpc'
    · cases hpc'
      exact List.mem_map_of_mem h
  | callsMutable m mode mount devicePath r =>
    dsimp only at hpc'
    split at hpc' <;> cases hpc'
  | findsNoNext | unlocksNone => cases hpc'
  | _ =>
    cases hpc'
    trivial

lemma step (hctl : ControlInv s) (hn : HandleInv s) (h : ScanInv s)
    (hs : LaminaFS.step cfg s act = some s') : ScanInv s' := by
  by_cases hact : act = .proc
  · subst hact
    cases procMove (show procStep s = some s' from hs) with
    | executes p e hpc hs => exact execStep (h p e hpc) hs
    | fetches p ring hpc hpop =>
      intro p' e' hpc'
      cases hpc'
      trivial
    | _ =>
      intro p' e' hpc'
      cases hpc'
  · intro p e hpc'
    have hpc : s.proc = .exec p e := by
      rcases step_proc hs hact with hp | hp | ⟨-, hp⟩ | ⟨q, -, -, hp⟩ <;> rw [hp] at hpc'
      · exact hpc'
      · exact exec_of_wake hpc'
      · cases hpc'
      · cases hpc'
    rcases step_mounts_running hctl hn hs (by rw [hpc]; rfl) with hm | ⟨mount, hm, -⟩ <;> rw [hm]
    · exact h p e hpc
    · exact (h p e hpc).append mount

end ScanInv

section Runs

variable {ok : State D W → Action → Prop} {pool : PoolAllocator} {capacity : ℕ}
  {memory : ℕ → WorkItem} {world : W}

lemma handleInv (h : Reach (step cfg) ok (State.init pool capacity memory world) s) :
    HandleInv s :=
  h.invariant ⟨List.nodup_nil, fun _ hh => by cases hh⟩ fun _ _ _ hi _ hs => hi.step hs

lemma scanInv (h : Reach (step cfg) ok (State.init pool capacity memory world) s) :
    ScanInv s :=
  h.invariant_of (fun _ hr => And.intro (controlInv hr) (handleInv hr))
    (fun p e hpc => by cases hpc) fun _ _ _ hk hi _ hs => hi.step hk.1 hk.2 hs

end Runs

end LaminaFS
