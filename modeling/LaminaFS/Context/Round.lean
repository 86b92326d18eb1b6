/-
# A round of the processing thread comes to its end

From wherever it is the processing thread comes back to the head of its loop, leaves the loop, or
calls a null pointer, provided that it does not look for work in vain.  The scheduler has to be
fair, and callbacks have to return.

Each place of the loop has a rank, and there is always a thread that helps.  While the
processing thread sleeps that is the thread that owes the token or the wakeup.  A lookup comes
to its end although mounts may be appended to the table meanwhile, since it looks only at those
that are older than the last one it has asked.
-/
import LaminaFS.Context.Capacity
import LaminaFS.Context.MountLock
import LaminaFS.Context.Order
import LaminaFS.Context.Scans
import LaminaFS.Context.Wakeup
import LaminaFS.Lib.Endless
import Mathlib.Data.Prod.Lex
import Mathlib.Order.Nat
import Mathlib.Order.WithBot

namespace LaminaFS

open Transition

variable {D W : Type} {cfg : Config D W} {s s' : State D W} {act : Action}

/-! ### The mounts behind a restart point -/

/-- How many mounts are behind the restart point. -/
def behind (start : Option ℕ) (l : List (MountInfo D W)) : ℕ :=
  match start with
  | none => l.length
  | some handle => (l.dropWhile fun mount => mount.handle != handle).tail.length

section Behind

variable {l rest : List (MountInfo D W)} {mount : MountInfo D W} {handle : ℕ}

lemma behind_le (start : Option ℕ) (l : List (MountInfo D W)) : behind start l ≤ l.length := by
  cases start with
  | none => exact le_rfl
  | some handle =>
    rw [behind, List.length_tail]
    exact (Nat.sub_le _ 1).trans (List.dropWhile_sublist _).length_le

lemma behind_cons (hne : mount.handle ≠ handle) :
    behind (some handle) (mount :: l) = behind (some handle) l := by
  rw [behind, List.dropWhile_cons_of_pos (by simpa using hne), behind]

lemma behind_cons_self : behind (some mount.handle) (mount :: l) = l.length := by
  rw [behind, List.dropWhile_cons_of_neg (by simp), List.tail_cons]

/-- Behind a mount of the table are those that follow it. -/
lemma behind_suffix (hsuffix : mount :: rest <:+ l) (hnodup : (l.map MountInfo.handle).Nodup) :
    behind (some mount.handle) l = rest.length := by
  obtain ⟨newer, rfl⟩ := hsuffix
  induction newer with
  | nil => exact behind_cons_self
  | cons m newer ih =>
    rw [List.cons_append, List.map_cons, List.nodup_cons] at hnodup
    rw [List.cons_append, behind_cons, ih hnodup.2]
    rintro heq
    exact hnodup.1 (List.mem_map.mpr ⟨mount, by simp, heq.symm⟩)

/-- What a scan passes over does not move the restart point back. -/
lemma behind_visit {path : CString} {onlyAfter after : Option ℕ}
    (hvisit : visitNext path onlyAfter mount = .next after) :
    behind after rest ≤ behind onlyAfter (mount :: rest) := by
  unfold visitNext at hvisit
  split at hvisit
  · cases hvisit
    cases onlyAfter with
    | none => exact Nat.le_succ _
    | some handle =>
      by_cases heq : mount.handle = handle
      · subst heq
        rw [behind_cons_self]
        exact behind_le _ _
      · rw [behind_cons heq]
  · cases onlyAfter with
    | none =>
      dsimp only at hvisit
      split at hvisit <;> cases hvisit
      exact Nat.le_succ _
    | some handle =>
      cases hvisit
      split
      · rename_i heq
        subst heq
        rw [behind_cons_self]
        exact le_rfl
      · rename_i heq
        rw [behind_cons heq]

/-- A scan finds a mount only behind the restart point. -/
lemma visit_found {path devicePath : CString} {onlyAfter : Option ℕ}
    (hvisit : visitNext path onlyAfter mount = .found devicePath) : onlyAfter = none := by
  unfold visitNext at hvisit
  split at hvisit
  · cases hvisit
  · cases onlyAfter with
    | none => rfl
    | some handle => cases hvisit

end Behind

/-! ### The rank -/

/-- The rank of a place in the loop: its distance from the end of the loop, and in a lookup the
number of mounts that have not been asked, and of those that the scan has left. -/
abbrev Rank := ℕ ×ₗ WithTop ℕ ×ₗ WithTop ℕ

/-- A rank from its parts. -/
def rankOf (level : ℕ) (count length : WithTop ℕ) : Rank := toLex (level, toLex (count, length))

section Rank

variable {i j : ℕ} {a b c d : WithTop ℕ}

lemma rankOf_level (h : i < j) : rankOf i a c < rankOf j b d :=
  Prod.Lex.toLex_lt_toLex.mpr (Or.inl h)

lemma rankOf_count (h : a < b) : rankOf i a c < rankOf i b d :=
  Prod.Lex.toLex_lt_toLex.mpr (Or.inr ⟨rfl, Prod.Lex.toLex_lt_toLex.mpr (Or.inl h)⟩)

lemma rankOf_length (h : c < d) : rankOf i a c < rankOf i a d :=
  Prod.Lex.toLex_lt_toLex.mpr (Or.inr ⟨rfl, Prod.Lex.toLex_lt_toLex.mpr (Or.inr ⟨rfl, h⟩)⟩)

end Rank

/-- The rank of a place in an execution. -/
def ExecPc.rank (mounts : List (MountInfo D W)) : ExecPc D W → Rank
  | .dispatch => rankOf 17 ⊥ ⊥
  | .findNext _ none => rankOf 11 ⊤ ⊤
  | .findNext _ (some handle) => rankOf 11 (.some (behind (some handle) mounts.reverse)) ⊤
  | .scanNext _ _ onlyAfter rest => rankOf 11 (.some (behind onlyAfter rest)) (.some rest.length)
  | .callLookup _ mount _ => rankOf 11 (.some (behind (some mount.handle) mounts.reverse + 1)) ⊥
  | .findMutable _ => rankOf 16 ⊥ ⊥
  | .lockShared _ _ _ => rankOf 15 ⊥ ⊥
  | .scanMutable _ _ _ rest => rankOf 14 ⊥ (.some rest.length)
  | .unlockShared _ _ => rankOf 13 ⊥ ⊥
  | .modeSwitch _ _ => rankOf 12 ⊥ ⊥
  | .callMutable _ _ _ _ => rankOf 11 ⊥ ⊥

/-- The rank of a place in the loop.  A thread that waits is near the head of the loop when there
is a token. -/
def ProcPc.rank (sem : ℕ) (mounts : List (MountInfo D W)) : ProcPc D W → Rank
  | .pop => rankOf 18 ⊥ ⊥
  | .exec _ e => e.rank mounts
  | .complete _ => rankOf 10 ⊥ ⊥
  | .testCallback _ => rankOf 9 ⊥ ⊥
  | .invoke _ => rankOf 8 ⊥ ⊥
  | .inCallback _ => rankOf 7 ⊥ ⊥
  | .testAction _ => rankOf 6 ⊥ ⊥
  | .freeBuffer _ => rankOf 5 ⊥ ⊥
  | .release _ => rankOf 4 ⊥ ⊥
  | .notifyAll => rankOf 4 ⊥ ⊥
  | .semTest => rankOf (if sem = 0 then 3 else 1) ⊥ ⊥
  | .semSleep => rankOf (if sem = 0 then 3 else 2) ⊥ ⊥
  | .top | .exited | .crashed => rankOf 0 ⊥ ⊥

/-- The rank of a state. -/
def State.rank (s : State D W) : Rank := s.proc.rank s.sem s.mounts

/-- The processing thread is at the head of its loop, or out of it. -/
def ProcPc.between : ProcPc D W → Bool
  | .top | .exited | .crashed => true
  | _ => false

lemma rank_exec {p : ItemPtr} {e : ExecPc D W} (hpc : s.proc = .exec p e) :
    s.rank = e.rank s.mounts := by
  rw [State.rank, hpc, ProcPc.rank]

/-- In an execution every step lowers the rank. -/
lemma execStep_rank {p : ItemPtr} {e : ExecPc D W} (hn : HandleInv s) (hscan : e.Scans s.mounts)
    (hs : execStep s p e = some s') : s'.proc = .crashed ∨ s'.rank < e.rank s.mounts := by
  cases execMove hs with
  | dispatchesLookup | dispatchesMutation | searchesMutable | locksShared | findsNoMutable |
    findsMutable | unlocksNone | unlocksWrite | unlocks | switches =>
    exact Or.inr (rankOf_level (by decide))
  | searchesNext l start =>
    right
    cases start with
    | none => exact rankOf_count (WithTop.coe_lt_top _)
    | some handle => exact rankOf_length (WithTop.coe_lt_top _)
  | findsNoNext => exact Or.inr (rankOf_level (by decide))
  | passesNext l path onlyAfter after mount rest hvisit =>
    right
    have hshorter : WithTop.some rest.length < .some (mount :: rest).length :=
      WithTop.coe_lt_coe.mpr (Nat.lt_succ_self _)
    have hle : behind after rest ≤ behind onlyAfter (mount :: rest) := behind_visit hvisit
    rcases hle.lt_or_eq with hlt | heq
    · exact rankOf_count (WithTop.coe_lt_coe.mpr hlt)
    · show rankOf 11 (.some (behind after rest)) (.some rest.length) <
        rankOf 11 (.some (behind onlyAfter (mount :: rest))) (.some (mount :: rest).length)
      rw [heq]
      exact rankOf_length hshorter
  | findsNext l path onlyAfter mount rest devicePath hvisit =>
    right
    obtain rfl := visit_found hvisit
    show rankOf 11 (.some (behind (some mount.handle) s.mounts.reverse + 1)) ⊥ <
      rankOf 11 (.some (behind none (mount :: rest))) (.some (mount :: rest).length)
    rw [behind_suffix hscan (by rw [List.map_reverse, List.nodup_reverse]; exact hn.nodup)]
    have hasked : (⊥ : WithTop ℕ) < .some (mount :: rest).length :=
      WithTop.coe_lt_coe.mpr (Nat.succ_pos _)
    exact rankOf_length hasked
  | callsLookup l mount devicePath r =>
    right
    rw [State.rank]
    dsimp only
    split
    · exact rankOf_level (by decide)
    · exact rankOf_count (WithTop.coe_lt_coe.mpr (Nat.lt_succ_self _))
  | passesMutable m op path mount rest =>
    exact Or.inr (rankOf_length (WithTop.coe_lt_coe.mpr (Nat.lt_succ_self _)))
  | callsMutable m mode mount devicePath r =>
    rw [State.rank]
    dsimp only
    split
    · exact Or.inl rfl
    · exact Or.inr (rankOf_level (by decide))

/-! ### Who helps -/

/-- The processing thread can go on by itself, except for a lock. -/
def ProcPc.proceeds (sem : ℕ) : ProcPc D W → Bool
  | .semTest => decide (0 < sem)
  | .semSleep | .inCallback _ | .top | .exited | .crashed => false
  | _ => true

/-- The action brings the processing thread on. -/
inductive Helps (s : State D W) : Action → Prop
  | gives (a : Agent) (hwaits : s.proc.waits = true) (hsem : s.sem = 0)
      (ha : (s.agents a).notifies = true) : Helps s (.agent a)
  | givesStop (hwaits : s.proc.waits = true) (hsem : s.sem = 0)
      (hc : s.control.notifies = true) : Helps s .control
  | wakes (a : Agent) (hsleeps : s.proc.sleeps = true) (hsem : 0 < s.sem)
      (ha : (s.agents a).wakes = true) : Helps s (.agent a)
  | wakesStop (hsleeps : s.proc.sleeps = true) (hsem : 0 < s.sem)
      (hc : s.control.wakes = true) : Helps s .control
  | returns (p : ItemPtr) (hpc : s.proc = .inCallback p) : Helps s .callbackReturns
  | proceeds (hpc : s.proc.proceeds s.sem = true) : Helps s .proc

/-- The processing thread is in a round, and does not look for work in vain. -/
structure InRound (s : State D W) : Prop where
  inside : s.proc.between = false
  work : s.proc.looksForWork = true → s.ring.contents ≠ [] ∨ s.processing = false

/-- What is known of the states of a run. -/
structure Steady (s : State D W) : Prop where
  wake : WakeInv s
  control : ControlInv s
  lock : MountLockInv s
  handles : HandleInv s
  scans : ScanInv s

lemma looksForWork_of_waits {pc : ProcPc D W} (h : pc.waits = true) : pc.looksForWork = true := by
  cases pc <;> first | rfl | cases h

/-- There is always somebody who helps. -/
lemma exists_helps (hj : Steady s) (hp : InRound s) : ∃ act, Helps s act := by
  have giver (hwaits : s.proc.waits = true) (hsem : s.sem = 0) : ∃ act, Helps s act := by
    have hnotifying : 0 < s.sem ∨ s.Notifying :=
      (hp.work (looksForWork_of_waits hwaits)).elim (hj.wake.queue hwaits)
        (hj.wake.stop (looksForWork_of_waits hwaits))
    rw [hsem] at hnotifying
    rcases hnotifying.resolve_left (Nat.lt_irrefl 0) with ⟨a, ha⟩ | hc
    · exact ⟨_, .gives a hwaits hsem ha⟩
    · exact ⟨_, .givesStop hwaits hsem hc⟩
  cases hpc : s.proc with
  | semTest =>
    rcases Nat.eq_zero_or_pos s.sem with hsem | hsem
    · exact giver (by rw [hpc]; rfl) hsem
    · exact ⟨_, .proceeds (by rw [hpc]; simpa [ProcPc.proceeds] using hsem)⟩
  | semSleep =>
    rcases Nat.eq_zero_or_pos s.sem with hsem | hsem
    · exact giver (by rw [hpc]; rfl) hsem
    · rcases hj.wake.asleep (by rw [hpc]; rfl) hsem with ⟨a, ha⟩ | hc
      · exact ⟨_, .wakes a (by rw [hpc]; rfl) hsem ha⟩
      · exact ⟨_, .wakesStop (by rw [hpc]; rfl) hsem hc⟩
  | inCallback p => exact ⟨_, .returns p hpc⟩
  | top | exited | crashed =>
    have hinside := hp.inside
    rw [hpc] at hinside
    cases hinside
  | _ => exact ⟨_, .proceeds (by rw [hpc]; rfl)⟩

/-! ### The processing thread acts -/

/-- The queue is empty when `pop` finds nothing. -/
lemma empty_of_pop {ring : RingBuffer (Option ItemPtr)} (hwf : s.ring.WF)
    (hitems : none ∉ s.ring.contents) (hpop : s.ring.pop none = (none, ring)) :
    s.ring.contents = [] := by
  by_contra hne
  have hcontents := RingBuffer.pop_of_ne_nil hwf hne none
  rw [hpop] at hcontents
  rw [hcontents] at hitems
  exact hitems List.mem_cons_self

/-- A step of the processing thread ends the round, lowers the rank, or puts it to sleep for
want of a token. -/
lemma procStep_rank (hj : Steady s) (hp : InRound s) (hs : procStep s = some s') :
    s'.proc.between = true ∨ InRound s' ∧ (s'.rank < s.rank ∨
      s.proc = .semTest ∧ s.sem = 0 ∧ s' = { s with proc := .semSleep }) := by
  have lowers (hinside : s'.proc.between = false) (hwork : s'.proc.looksForWork = false)
      (hrank : s'.rank < s.rank) : s'.proc.between = true ∨ InRound s' ∧ (s'.rank < s.rank ∨
        s.proc = .semTest ∧ s.sem = 0 ∧ s' = { s with proc := .semSleep }) :=
    Or.inr ⟨⟨hinside, fun h => by rw [hwork] at h; cases h⟩, Or.inl hrank⟩
  cases procMove hs with
  | enters hpc | exits hpc =>
    have hinside := hp.inside
    rw [hpc] at hinside
    cases hinside
  | passes | releases | notifies | invokesNull | freesNull => exact Or.inl rfl
  | fetches p ring hpc =>
    refine lowers rfl rfl ?_
    rw [State.rank, State.rank, hpc]
    exact rankOf_level (by decide)
  | findsEmpty ring hpc hpop =>
    -- the thread has not looked for work in vain
    have hempty := empty_of_pop hj.wake.ring hj.wake.items hpop
    have hstop := (hp.work (by rw [hpc]; rfl)).resolve_left (by simpa using hempty)
    refine Or.inr ⟨⟨rfl, fun _ => Or.inr hstop⟩, Or.inl ?_⟩
    rw [State.rank, State.rank, hpc, ProcPc.rank]
    refine rankOf_level ?_
    split <;> decide
  | sleeps hpc hsem =>
    exact Or.inr ⟨⟨rfl, fun _ => hp.work (by rw [hpc]; rfl)⟩, Or.inr ⟨hpc, hsem, rfl⟩⟩
  | executes p e hpc hs =>
    rcases execStep_rank hj.handles (hj.scans p e hpc) hs with hcrashed | hrank
    · exact Or.inl (by rw [hcrashed]; rfl)
    · rw [← rank_exec hpc] at hrank
      rcases execStep_proc hs with hpc' | hpc' | ⟨e', hpc'⟩
      · exact lowers (by rw [hpc']; rfl) (by rw [hpc']; rfl) hrank
      · exact Or.inl (by rw [hpc']; rfl)
      · exact lowers (by rw [hpc']; rfl) (by rw [hpc']; rfl) hrank
  | completes p hpc | keeps p hpc | leaves p hpc | invokes p hpc | mayFree p hpc
  | mayNotFree p hpc | frees p hpc =>
    refine lowers rfl rfl ?_
    rw [State.rank, State.rank, hpc]
    exact rankOf_level (by decide)

/-! ### The others act -/

/-- Others leave the place of the processing thread in its round alone, wake it up, or return
from its callback. -/
lemma others_proc (hctl : ControlInv s) (hinside : s.proc.between = false) (hact : act ≠ .proc)
    (hs : step cfg s act = some s') :
    s'.proc = s.proc ∨ s.proc = .semSleep ∧ s'.proc = .semTest ∨
      ∃ p, s.proc = .inCallback p ∧ s'.proc = .testAction p := by
  rcases step_proc hs hact with hp | hp | ⟨hstart, -⟩ | ⟨p, hpc, -, hp⟩
  · exact Or.inl hp
  · by_cases hsleep : s.proc = .semSleep
    · exact Or.inr (Or.inl ⟨hsleep, by rw [hp, hsleep]; rfl⟩)
    · refine Or.inl (hp.trans ?_)
      cases hpc : s.proc <;> first | rfl | exact absurd hpc hsleep
  · rw [hctl.exited_of_start hstart] at hinside
    cases hinside
  · exact Or.inr (Or.inr ⟨p, hpc, hp⟩)

/-- Others give a token or none. -/
lemma others_sem (hok : NoOverflow s act) (hact : act ≠ .proc)
    (hs : step cfg s act = some s') : s'.sem = s.sem ∨ s'.sem = s.sem + 1 := by
  cases stepBy hs with
  | proc => exact absurd rfl hact
  | client a act _ hs => exact Or.inl (clientStep_frame hs).sem
  | agent a hs =>
    cases agentMove hs with
    | notifies c p hpc => exact Or.inr (Nat.mod_eq_of_lt (hok (by rw [hpc]; rfl)))
    | _ => exact Or.inl rfl
  | controlAct act _ hs => exact Or.inl (controlActStep_frame hs).2.2.2.2.2
  | control hs =>
    cases controlMove hs with
    | notifies k hpc => exact Or.inr (Nat.mod_eq_of_lt (hok (by rw [hpc]; rfl)))
    | _ => exact Or.inl rfl
  | callbackReturns | wakeProc | wakeAgent a => exact Or.inl rfl

/-- Others leave what is in the queue there, and do not start the processing again. -/
lemma others_work (hj : Steady s) (hinside : s.proc.between = false) (hact : act ≠ .proc)
    (hs : step cfg s act = some s') (h : s.ring.contents ≠ [] ∨ s.processing = false) :
    s'.ring.contents ≠ [] ∨ s'.processing = false := by
  rcases h with hqueue | hstop
  · left
    cases step_queue hs with
    | same hring => rwa [hring]
    | push a c p _ _ hdone hring =>
      rw [hring, RingBuffer.contents_push hj.wake.ring hdone]
      simp
    | pop hact' => exact absurd hact' hact
  · right
    cases stepBy hs with
    | proc => exact absurd rfl hact
    | client a act _ hs => rw [(clientStep_frame hs).processing, hstop]
    | agent a hs => rw [(agentStep_frame hs).processing, hstop]
    | controlAct act _ hs => rw [(controlActStep_frame hs).2.2.1, hstop]
    | control hs =>
      cases controlMove hs with
      | starts hpc =>
        rw [hj.control.exited_of_start hpc] at hinside
        cases hinside
      | stops => rfl
      | _ => exact hstop
    | callbackReturns | wakeProc | wakeAgent a => exact hstop

lemma InRound.others (h : InRound s) (hj : Steady s) (hact : act ≠ .proc)
    (hs : step cfg s act = some s') : InRound s' := by
  have hkind : s'.proc.between = false ∧
      (s'.proc.looksForWork = true → s.proc.looksForWork = true) := by
    rcases others_proc hj.control h.inside hact hs with hp | ⟨hpc, hp⟩ | ⟨p, hpc, hp⟩ <;> rw [hp]
    · exact ⟨h.inside, id⟩
    · exact ⟨rfl, fun _ => by rw [hpc]; rfl⟩
    · exact ⟨rfl, fun hlooks => by cases hlooks⟩
  exact ⟨hkind.1, fun hlooks => others_work hj h.inside hact hs (h.work (hkind.2 hlooks))⟩

/-! ### The rank while others act -/

lemma rank_waits (hwaits : s.proc.waits = true) (hsem : s.sem = 0) : s.rank = rankOf 3 ⊥ ⊥ := by
  cases hpc : s.proc <;> rw [hpc] at hwaits <;>
    first | rw [State.rank, hpc, ProcPc.rank, if_pos hsem] | cases hwaits

lemma rank_token (hwaits : s.proc.waits = true) (hsem : s.sem ≠ 0) :
    s.rank < rankOf 3 ⊥ ⊥ := by
  cases hpc : s.proc <;> rw [hpc] at hwaits <;> first
    | (rw [State.rank, hpc, ProcPc.rank, if_neg hsem]; exact rankOf_level (by decide))
    | cases hwaits

/-- Mounts that are appended do not change the rank of an execution. -/
lemma rank_append {e : ExecPc D W} {mounts : List (MountInfo D W)} {mount : MountInfo D W}
    (h : e.Scans mounts) (hnew : mount.handle ∉ mounts.map MountInfo.handle) :
    e.rank (mounts ++ [mount]) = e.rank mounts := by
  have hbehind (handle : ℕ) (hmem : handle ∈ mounts.map MountInfo.handle) :
      behind (some handle) (mounts ++ [mount]).reverse = behind (some handle) mounts.reverse := by
    rw [List.reverse_append, List.reverse_singleton, List.singleton_append, behind_cons]
    rintro rfl
    exact hnew hmem
  cases e with
  | findNext l start =>
    cases start with
    | none => rfl
    | some handle => rw [ExecPc.rank, hbehind handle h, ExecPc.rank]
  | callLookup l m devicePath =>
    rw [ExecPc.rank, hbehind m.handle (List.mem_map_of_mem h), ExecPc.rank]
  | _ => rfl

/-- Where the processing thread can go on by itself others do not change the rank. -/
lemma rank_proceeds (hj : Steady s) (hpc : s.proc.proceeds s.sem = true)
    (hsame : s'.proc = s.proc) (hsem : s.sem ≤ s'.sem)
    (hmounts : s'.mounts = s.mounts ∨ ∃ mount, s'.mounts = s.mounts ++ [mount] ∧
      mount.handle ∉ s.mounts.map MountInfo.handle) : s'.rank = s.rank := by
  rw [State.rank, State.rank, hsame]
  cases hproc : s.proc with
  | exec p e =>
    rcases hmounts with h | ⟨mount, h, hnew⟩ <;> rw [h]
    · rfl
    · exact rank_append (hj.scans p e hproc) hnew
  | semTest =>
    rw [hproc] at hpc
    have hpos : 0 < s.sem := of_decide_eq_true hpc
    rw [ProcPc.rank, ProcPc.rank, if_neg (by omega), if_neg (by omega)]
  | semSleep =>
    rw [hproc] at hpc
    cases hpc
  | _ => rfl

/-! ### The help stays -/

/-- An agent that owes something goes on owing it while others act. -/
lemma owing_stays {a : Agent} {q : AgentPc → Bool} (hwake : ∀ pc, q pc.wake = q pc)
    (hidle : q .idle = false) (hact : act ≠ .agent a) (hs : step cfg s act = some s')
    (ha : q (s.agents a) = true) : q (s'.agents a) = true := by
  rcases step_agents hs hact with h | h | ⟨h, -⟩
  · rwa [h]
  · rwa [h, hwake]
  · rw [h, hidle] at ha
    cases ha

/-- The control thread stays where it is while others act. -/
lemma control_stays (hact : act ≠ .control) (hbusy : s.control.isIdle = false)
    (hs : step cfg s act = some s') : s'.control = s.control := by
  cases stepBy hs with
  | client a act _ hs => exact (clientStep_frame hs).control
  | agent a hs => exact (agentStep_frame hs).control
  | proc hs => exact (procStep_frame hs).control
  | controlAct act hidle =>
    rw [hbusy] at hidle
    cases hidle
  | control => exact absurd rfl hact
  | callbackReturns | wakeProc | wakeAgent a => rfl

lemma agent_gives {a : Agent} (ha : (s.agents a).notifies = true) (hok : NoOverflow s (.agent a))
    (hs : step cfg s (.agent a) = some s') : s'.sem = s.sem + 1 := by
  cases agentMove (show agentStep cfg s a = some s' from hs) with
  | notifies c p hpc => exact Nat.mod_eq_of_lt (hok ha)
  | _ => rw [‹s.agents a = _›] at ha; cases ha

lemma control_gives (hc : s.control.notifies = true) (hok : NoOverflow s .control)
    (hs : step cfg s .control = some s') : s'.sem = s.sem + 1 := by
  cases controlMove (show controlStep cfg s = some s' from hs) with
  | notifies k hpc => exact Nat.mod_eq_of_lt (hok hc)
  | _ => rw [‹s.control = _›] at hc; cases hc

lemma agent_wakes {a : Agent} (ha : (s.agents a).wakes = true)
    (hs : step cfg s (.agent a) = some s') : s'.proc = s.proc.wake := by
  cases agentMove (show agentStep cfg s a = some s' from hs) with
  | notifiesOne c p hpc => rfl
  | _ => rw [‹s.agents a = _›] at ha; cases ha

lemma control_wakes (hc : s.control.wakes = true) (hs : step cfg s .control = some s') :
    s'.proc = s.proc.wake := by
  cases controlMove (show controlStep cfg s = some s' from hs) with
  | notifiesOne k hpc => rfl
  | _ => rw [‹s.control = _›] at hc; cases hc

lemma busy_of_owing {q : ControlPc D W → Bool} (hidle : q .idle = false)
    (hc : q s.control = true) : s.control.isIdle = false := by
  cases hpc : s.control with
  | idle =>
    rw [hpc, hidle] at hc
    cases hc
  | _ => rfl

/-! ### The step lemma -/

variable {act' : Action}

/-- While the processing thread waits for a token that somebody owes. -/
lemma gives_step (hj : Steady s) (hp : InRound s) (hwaits : s.proc.waits = true)
    (hsem : s.sem = 0) (hs : step cfg s act = some s')
    (howing : act ≠ .proc → s'.sem = 0 → act ≠ act' ∧ (s'.proc.waits = true → Helps s' act'))
    (hsleeps : act = .proc → act ≠ act' ∧ Helps { s with proc := .semSleep } act') :
    s'.proc.between = true ∨ InRound s' ∧
      (s'.rank < s.rank ∨ act ≠ act' ∧ s'.rank = s.rank ∧ Helps s' act') := by
  by_cases hact : act = .proc
  · have hproc : procStep s = some s' := by rwa [hact] at hs
    rcases procStep_rank hj hp hproc with hbetween | ⟨hin, hlow | ⟨hpc, -, hs'⟩⟩
    · exact Or.inl hbetween
    · exact Or.inr ⟨hin, Or.inl hlow⟩
    · have hrank : s'.rank = rankOf 3 ⊥ ⊥ :=
        rank_waits (by rw [hs']; rfl) (by rw [hs']; exact hsem)
      exact Or.inr ⟨hin, Or.inr ⟨(hsleeps hact).1, by rw [rank_waits hwaits hsem, hrank],
        by rw [hs']; exact (hsleeps hact).2⟩⟩
  · have hwaits' : s'.proc.waits = true := by
      rcases others_proc hj.control hp.inside hact hs with h | ⟨-, h⟩ | ⟨p, hpc, -⟩
      · rwa [h]
      · rw [h]
        rfl
      · rw [hpc] at hwaits
        cases hwaits
    refine Or.inr ⟨hp.others hj hact hs, ?_⟩
    by_cases hsem' : s'.sem = 0
    · obtain ⟨hne, hhelps⟩ := howing hact hsem'
      exact Or.inr ⟨hne, by rw [rank_waits hwaits hsem, rank_waits hwaits' hsem'],
        hhelps hwaits'⟩
    · rw [rank_waits hwaits hsem]
      exact Or.inl (rank_token hwaits' hsem')

/-- While the processing thread sleeps although there is a token. -/
lemma wakes_step (hj : Steady s) (hp : InRound s) (hsleeps : s.proc.sleeps = true)
    (hsem : 0 < s.sem) (hok : NoOverflow s act) (hs : step cfg s act = some s')
    (howing : s'.proc.sleeps = true → 0 < s'.sem → act ≠ act' ∧ Helps s' act') :
    InRound s' ∧ (s'.rank < s.rank ∨ act ≠ act' ∧ s'.rank = s.rank ∧ Helps s' act') := by
  have hpc : s.proc = .semSleep := by
    cases hpc : s.proc <;> rw [hpc] at hsleeps <;> first | rfl | cases hsleeps
  have hact : act ≠ .proc := by
    rintro rfl
    simp [step, procStep, hpc] at hs
  have hsem' : 0 < s'.sem := by
    rcases others_sem hok hact hs with h | h <;> omega
  have hrank : s.rank = rankOf 2 ⊥ ⊥ := by
    rw [State.rank, hpc, ProcPc.rank, if_neg (by omega)]
  refine ⟨hp.others hj hact hs, ?_⟩
  rcases others_proc hj.control hp.inside hact hs with h | ⟨-, h⟩ | ⟨p, h, -⟩
  · obtain ⟨hne, hhelps⟩ := howing (by rw [h, hpc]; rfl) hsem'
    exact Or.inr ⟨hne, by rw [hrank, State.rank, h, hpc, ProcPc.rank, if_neg (by omega)], hhelps⟩
  · rw [hrank, State.rank, h, ProcPc.rank, if_neg (by omega)]
    exact Or.inl (rankOf_level (by decide))
  · rw [hpc] at h
    cases h

/-- **The step lemma.**  A step ends the round, lowers the rank, or leaves the rank and the help
of another thread as they are. -/
lemma round_step (hj : Steady s) (hp : InRound s) (hh : Helps s act') (hok : NoOverflow s act)
    (hs : step cfg s act = some s') : s'.proc.between = true ∨ InRound s' ∧
      (s'.rank < s.rank ∨ act ≠ act' ∧ s'.rank = s.rank ∧ Helps s' act') := by
  cases hh with
  | gives a hwaits hsem ha =>
    refine gives_step hj hp hwaits hsem hs (fun hact hsem' => ?_)
      fun hact => ⟨by rw [hact]; simp, .gives a rfl hsem ha⟩
    have hne : act ≠ .agent a := by
      rintro rfl
      rw [agent_gives ha hok hs] at hsem'
      cases hsem'
    exact ⟨hne, fun hwaits' => .gives a hwaits' hsem'
      (owing_stays (fun pc => by cases pc <;> rfl) rfl hne hs ha)⟩
  | givesStop hwaits hsem hc =>
    refine gives_step hj hp hwaits hsem hs (fun hact hsem' => ?_)
      fun hact => ⟨by rw [hact]; simp, .givesStop rfl hsem hc⟩
    have hne : act ≠ .control := by
      rintro rfl
      rw [control_gives hc hok hs] at hsem'
      cases hsem'
    exact ⟨hne, fun hwaits' => .givesStop hwaits' hsem'
      (by rwa [control_stays hne (busy_of_owing rfl hc) hs])⟩
  | wakes a hsleeps hsem ha =>
    refine Or.inr (wakes_step hj hp hsleeps hsem hok hs fun hsleeps' hsem' => ?_)
    have hne : act ≠ .agent a := by
      rintro rfl
      rw [agent_wakes ha hs, ProcPc.sleeps_wake] at hsleeps'
      cases hsleeps'
    exact ⟨hne, .wakes a hsleeps' hsem'
      (owing_stays (fun pc => by cases pc <;> rfl) rfl hne hs ha)⟩
  | wakesStop hsleeps hsem hc =>
    refine Or.inr (wakes_step hj hp hsleeps hsem hok hs fun hsleeps' hsem' => ?_)
    have hne : act ≠ .control := by
      rintro rfl
      rw [control_wakes hc hs, ProcPc.sleeps_wake] at hsleeps'
      cases hsleeps'
    exact ⟨hne, .wakesStop hsleeps' hsem'
      (by rwa [control_stays hne (busy_of_owing rfl hc) hs])⟩
  | returns p hpc =>
    have hact : act ≠ .proc := by
      rintro rfl
      simp [step, procStep, hpc] at hs
    refine Or.inr ⟨hp.others hj hact hs, ?_⟩
    rcases others_proc hj.control hp.inside hact hs with h | ⟨h, -⟩ | ⟨q, -, h⟩
    · refine Or.inr ⟨?_, by rw [State.rank, State.rank, h, hpc]; rfl, .returns p (h.trans hpc)⟩
      rintro rfl
      cases stepBy hs with
      | callbackReturns =>
        rw [hpc] at h
        cases h
    · rw [hpc] at h
      cases h
    · rw [State.rank, State.rank, h, hpc]
      exact Or.inl (rankOf_level (by decide))
  | proceeds hpc =>
    by_cases hact : act = .proc
    · subst hact
      rcases procStep_rank hj hp hs with hbetween | ⟨hin, hlow | ⟨hproc, hsem, -⟩⟩
      · exact Or.inl hbetween
      · exact Or.inr ⟨hin, Or.inl hlow⟩
      · rw [hproc, hsem] at hpc
        cases hpc
    · refine Or.inr ⟨hp.others hj hact hs, ?_⟩
      have hsem : s.sem ≤ s'.sem := by
        rcases others_sem hok hact hs with h | h <;> omega
      rcases others_proc hj.control hp.inside hact hs with h | ⟨h, -⟩ | ⟨q, h, -⟩
      · refine Or.inr ⟨hact, rank_proceeds hj hpc h hsem (step_mounts_running hj.control hj.handles
          hs ?_), .proceeds ?_⟩
        · cases hproc : s.proc <;> rw [hproc] at hpc <;> first | rfl | cases hpc
        · rw [h]
          cases hproc : s.proc <;> rw [hproc] at hpc <;> first
            | rfl
            | cases hpc
            | exact decide_eq_true (hsem.trans_lt' (of_decide_eq_true hpc))
      · rw [h] at hpc
        cases hpc
      · rw [h] at hpc
        cases hpc

end LaminaFS
