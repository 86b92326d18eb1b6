/-
# No wakeup is lost

`push` notifies the semaphore only when it has found the queue empty, and after it has let go
of the queue; `pop` takes no token.  A processing thread that has seen the queue empty waits
for a token.  If there is something to do meanwhile then a token is there, or the thread that
owes one has not got to it yet.
-/
import LaminaFS.Context.Control

namespace LaminaFS

open Transition

variable {D W : Type} {cfg : Config D W} {s s' : State D W} {a : Agent}

/-- About to increment the semaphore. -/
def AgentPc.notifies : AgentPc → Bool
  | .notify .. => true
  | _ => false

/-- About to wake up the thread that waits for the semaphore. -/
def AgentPc.wakes : AgentPc → Bool
  | .notifyOne .. => true
  | _ => false

/-- About to increment the semaphore. -/
def ControlPc.notifies : ControlPc D W → Bool
  | .stopNotify _ => true
  | _ => false

/-- About to wake up the thread that waits for the semaphore. -/
def ControlPc.wakes : ControlPc D W → Bool
  | .stopNotifyOne _ => true
  | _ => false

namespace ProcPc

/-- At or inside `Semaphore::wait`. -/
def waits : ProcPc D W → Bool
  | .semTest | .semSleep => true
  | _ => false

/-- Behind a test of `_processing` that has held, and not yet with an item. -/
def looksForWork : ProcPc D W → Bool
  | .pop | .semTest | .semSleep => true
  | _ => false

/-- Asleep in `Semaphore::wait`. -/
def sleeps : ProcPc D W → Bool
  | .semSleep => true
  | _ => false

@[simp] lemma waits_wake (pc : ProcPc D W) : pc.wake.waits = pc.waits := by
  cases pc <;> rfl

@[simp] lemma looksForWork_wake (pc : ProcPc D W) :
    pc.wake.looksForWork = pc.looksForWork := by
  cases pc <;> rfl

@[simp] lemma sleeps_wake (pc : ProcPc D W) : pc.wake.sleeps = false := by
  cases pc <;> rfl

end ProcPc

/-- Some thread is about to increment the semaphore. -/
def State.Notifying (s : State D W) : Prop :=
  (∃ a, (s.agents a).notifies = true) ∨ s.control.notifies = true

/-- Some thread is about to wake up the processing thread. -/
def State.Waking (s : State D W) : Prop :=
  (∃ a, (s.agents a).wakes = true) ∨ s.control.wakes = true

/-- The invariant of the semaphore. -/
structure WakeInv (s : State D W) : Prop where
  ring : s.ring.WF
  items : none ∉ s.ring.contents
  queue : s.proc.waits = true → s.ring.contents ≠ [] → 0 < s.sem ∨ s.Notifying
  stop : s.proc.looksForWork = true → s.processing = false → 0 < s.sem ∨ s.Notifying
  asleep : s.proc.sleeps = true → 0 < s.sem → s.Waking

/-- The step does not make the counter of the semaphore wrap around. -/
def NoOverflow (s : State D W) : Action → Prop
  | .agent a => (s.agents a).notifies = true → s.sem + 1 < 2 ^ 32
  | .control => s.control.notifies = true → s.sem + 1 < 2 ^ 32
  | _ => True

instance (s : State D W) : DecidablePred (NoOverflow s)
  | .agent _ | .control => inferInstanceAs (Decidable (_ → _))
  | .client _ _ | .proc | .callbackReturns | .controlAct _ | .wakeProc | .wakeAgent _ =>
    .isTrue trivial

lemma exists_update {f : Agent → AgentPc} {q : AgentPc → Bool} {pc : AgentPc}
    (hold : q (f a) = false) :
    (∃ b, q (f b) = true) → ∃ b, q (Function.update f a pc b) = true := by
  rintro ⟨b, hb⟩
  have hne : b ≠ a := by
    rintro rfl
    rw [hold] at hb
    cases hb
  exact ⟨b, by rwa [Function.update_of_ne hne]⟩

namespace WakeInv

/-- An agent that owes nothing has moved on, and has not made the queue non-empty. -/
lemma agent (h : WakeInv s) {pc : AgentPc} (hn : (s.agents a).notifies = false)
    (hw : (s.agents a).wakes = false) (hagents : s'.agents = Function.update s.agents a pc)
    (hring : s'.ring.WF) (hitems : none ∉ s'.ring.contents)
    (hqueue : s'.ring.contents ≠ [] → s.ring.contents ≠ [])
    (hsem : s'.sem = s.sem) (hproc : s'.proc = s.proc)
    (hp : s'.processing = s.processing) (hc : s'.control = s.control) : WakeInv s' := by
  have hnot : s.Notifying → s'.Notifying := by
    rintro (h | h)
    · exact Or.inl (hagents ▸ exists_update hn h)
    · exact Or.inr (hc ▸ h)
  have hwake : s.Waking → s'.Waking := by
    rintro (h | h)
    · exact Or.inl (hagents ▸ exists_update hw h)
    · exact Or.inr (hc ▸ h)
  constructor
  · exact hring
  · exact hitems
  · rw [hproc, hsem]
    exact fun h₁ h₂ => (h.queue h₁ (hqueue h₂)).imp_right hnot
  · rw [hproc, hp, hsem]
    exact fun h₁ h₂ => (h.stop h₁ h₂).imp_right hnot
  · rw [hproc, hsem]
    exact fun h₁ h₂ => hwake (h.asleep h₁ h₂)

/-- The processing thread does not look for work any more. -/
lemma busy (hring : s'.ring.WF) (hitems : none ∉ s'.ring.contents)
    (hproc : s'.proc.looksForWork = false) : WakeInv s' := by
  have hne : ∀ q : ProcPc D W → Bool, (∀ pc, q pc = true → pc.looksForWork = true) →
      q s'.proc ≠ true := by
    intro q hq h
    rw [hq _ h] at hproc
    cases hproc
  refine ⟨hring, hitems, fun h => absurd h (hne _ ?_), fun h => absurd h (hne _ fun _ h => h),
    fun h => absurd h (hne _ ?_)⟩
  · intro pc h
    cases pc <;> first | rfl | cases h
  · intro pc h
    cases pc <;> first | rfl | cases h

/-- The processing thread has woken up. -/
lemma wake (h : WakeInv s) (hproc : s'.proc = s.proc.wake) (hring : s'.ring = s.ring)
    (hsem : s'.sem = s.sem) (hp : s'.processing = s.processing)
    (hn : s.Notifying → s'.Notifying) : WakeInv s' := by
  constructor
  · rw [hring]
    exact h.ring
  · rw [hring]
    exact h.items
  · rw [hproc, ProcPc.waits_wake, hring, hsem]
    exact fun h₁ h₂ => (h.queue h₁ h₂).imp_right hn
  · rw [hproc, ProcPc.looksForWork_wake, hp, hsem]
    exact fun h₁ h₂ => (h.stop h₁ h₂).imp_right hn
  · rw [hproc, ProcPc.sleeps_wake]
    exact fun h => by cases h

lemma clientStep {act : ClientAct} (h : WakeInv s) (hidle : s.agents a = .idle)
    (hs : clientStep s a act = some s') : WakeInv s' := by
  have hf := clientStep_frame hs
  obtain ⟨pc, hpc⟩ : ∃ pc, s'.agents = Function.update s.agents a pc := by
    cases clientMove hs with
    | submits | waits | frees | freesNull => exact ⟨_, rfl⟩
    | _ => exact ⟨s.agents a, (Function.update_eq_self _ _).symm⟩
  exact h.agent (by rw [hidle]; rfl) (by rw [hidle]; rfl) hpc (hf.ring ▸ h.ring)
    (hf.ring ▸ h.items) (by rw [hf.ring]; exact id) hf.sem hf.proc hf.processing hf.control

/-- The push: the thread owes a notification exactly if it has found the queue empty. -/
lemma push (h : WakeInv s) {c : Call} {p : ItemPtr} (hpc : s.agents a = .pushLock c p)
    (hdone : (s.ring.push (some p)).done = true) :
    WakeInv { s with
      agents := Function.update s.agents a
        (if (s.ring.push (some p)).notify then .notify c p
          else .late c p (c.plan cfg.contextAlloc).late)
      ring := (s.ring.push (some p)).ring
      stage := Function.update s.stage p.submission .queued } := by
  have hn : (s.agents a).notifies = false := by rw [hpc]; rfl
  have hw : (s.agents a).wakes = false := by rw [hpc]; rfl
  have hring := RingBuffer.wf_push h.ring (some p)
  have hitems : none ∉ (s.ring.push (some p)).ring.contents := by
    rw [RingBuffer.contents_push h.ring (by simpa [RingBuffer.push_done] using hdone)]
    simpa using h.items
  cases hnotify : (s.ring.push (some p)).notify with
  | true =>
    have hself : State.Notifying { s with
        agents := Function.update s.agents a (.notify c p)
        ring := (s.ring.push (some p)).ring
        stage := Function.update s.stage p.submission .queued } :=
      Or.inl ⟨a, by simp [AgentPc.notifies]⟩
    refine ⟨hring, hitems, fun _ _ => Or.inr hself, fun _ _ => Or.inr hself, fun h₁ h₂ => ?_⟩
    exact (h.asleep h₁ h₂).imp_left (exists_update hw)
  | false =>
    refine h.agent hn hw rfl hring hitems (fun _ he => ?_) rfl rfl rfl rfl
    rw [(RingBuffer.push_notify h.ring _).mpr he] at hnotify
    cases hnotify

lemma agentStep (h : WakeInv s) (hok : NoOverflow s (.agent a))
    (hs : agentStep cfg s a = some s') : WakeInv s' := by
  cases agentMove hs with
  | pushes c p hpc hdone => exact h.push hpc hdone
  | notifies c p hpc =>
    have hlt := hok (by rw [hpc]; rfl)
    have hpos : 0 < (s.sem + 1) % 2 ^ 32 := by
      rw [Nat.mod_eq_of_lt hlt]
      exact Nat.succ_pos _
    exact ⟨h.ring, h.items, fun _ _ => Or.inl hpos, fun _ _ => Or.inl hpos,
      fun _ _ => Or.inl ⟨a, by simp [AgentPc.wakes]⟩⟩
  | notifiesOne c p hpc =>
    refine h.wake rfl rfl rfl rfl ?_
    exact Or.imp_left (exists_update (by rw [hpc]; rfl))
  | _ =>
    have hpc := ‹s.agents a = _›
    exact h.agent (by rw [hpc]; rfl) (by rw [hpc]; rfl) rfl h.ring h.items id rfl rfl rfl rfl

lemma procStep (h : WakeInv s) (hs : procStep s = some s') : WakeInv s' := by
  cases procMove hs with
  | enters hpc hprocessing =>
    refine ⟨h.ring, h.items, fun hw => ?_, fun _ hno => ?_, fun hw => ?_⟩
    · cases hw
    · exact absurd (hprocessing.symm.trans hno) (by simp)
    · cases hw
  | fetches p ring hpc hpop =>
    have hring := RingBuffer.wf_pop h.ring none
    have hitems := h.items
    rw [hpop] at hring
    rw [RingBuffer.contents_of_pop_some h.ring hpop, List.mem_cons, not_or] at hitems
    exact busy hring hitems.2 rfl
  | findsEmpty ring hpc hpop =>
    -- the queue has been seen empty
    have hempty : s.ring.contents = [] := by
      by_contra hne
      refine h.items ?_
      rw [RingBuffer.pop_of_ne_nil h.ring hne none, hpop]
      exact List.mem_cons_self
    rw [RingBuffer.pop_of_nil h.ring hempty, Prod.mk.injEq] at hpop
    rw [← hpop.2]
    refine ⟨h.ring, h.items, fun _ hne => absurd hempty hne,
      fun _ => h.stop (by rw [hpc]; rfl), fun hw => ?_⟩
    cases hw
  | sleeps hpc hzero =>
    have hw : s.proc.waits = true := by rw [hpc]; rfl
    have hl : s.proc.looksForWork = true := by rw [hpc]; rfl
    exact ⟨h.ring, h.items, fun _ => h.queue hw, fun _ => h.stop hl,
      fun _ hpos => absurd hzero (Nat.ne_of_gt hpos)⟩
  | executes p e _ hs =>
    have hf := execStep_frame hs
    refine busy (hf.ring ▸ h.ring) (hf.ring ▸ h.items) ?_
    rcases execStep_proc hs with h' | h' | ⟨e', h'⟩ <;> rw [h'] <;> rfl
  | _ => exact busy h.ring h.items rfl

/-- The control thread has moved on without owing anything, before or after. -/
lemma control (h : WakeInv s) (hn : s.control.notifies = false)
    (hw : s.control.wakes = false) (hf : ControlFrame s s') (hsem : s'.sem = s.sem)
    (hproc : s'.proc = s.proc) (hp : s'.processing = s.processing) : WakeInv s' := by
  have hnot : s.Notifying → s'.Notifying := by
    rintro (h | h)
    · exact Or.inl (hf.agents ▸ h)
    · rw [hn] at h
      cases h
  have hwake : s.Waking → s'.Waking := by
    rintro (h | h)
    · exact Or.inl (hf.agents ▸ h)
    · rw [hw] at h
      cases h
  constructor
  · exact hf.ring ▸ h.ring
  · exact hf.ring ▸ h.items
  · rw [hproc, hf.ring, hsem]
    exact fun h₁ h₂ => (h.queue h₁ h₂).imp_right hnot
  · rw [hproc, hp, hsem]
    exact fun h₁ h₂ => (h.stop h₁ h₂).imp_right hnot
  · rw [hproc, hsem]
    exact fun h₁ h₂ => hwake (h.asleep h₁ h₂)

lemma controlStep (h : WakeInv s) (hok : NoOverflow s .control)
    (hs : controlStep cfg s = some s') : WakeInv s' := by
  have hf := (controlStep_frame hs).1
  cases controlMove hs with
  | stops k hc =>
    have hnot : s.Notifying → State.Notifying { s with
        processing := false, control := .stopNotify k } := fun _ => Or.inr rfl
    refine ⟨h.ring, h.items, fun h₁ h₂ => (h.queue h₁ h₂).imp_right hnot,
      fun _ _ => Or.inr (Or.inr rfl), fun h₁ h₂ => Or.inl ?_⟩
    exact (h.asleep h₁ h₂).resolve_right (by rw [hc]; simp [ControlPc.wakes])
  | notifies k hc =>
    have hlt := hok (by rw [hc]; rfl)
    have hpos : 0 < (s.sem + 1) % 2 ^ 32 := by
      rw [Nat.mod_eq_of_lt hlt]
      exact Nat.succ_pos _
    exact ⟨h.ring, h.items, fun _ _ => Or.inl hpos, fun _ _ => Or.inl hpos,
      fun _ _ => Or.inr rfl⟩
  | notifiesOne k hc =>
    refine h.wake rfl rfl rfl rfl (Or.imp_right fun hn => ?_)
    rw [hc] at hn
    cases hn
  | starts => exact busy h.ring h.items rfl
  | _ =>
    have hc := ‹s.control = _›
    exact h.control (by rw [hc]; rfl) (by rw [hc]; rfl) hf rfl rfl rfl

lemma step {act : Action} (h : WakeInv s) (hok : NoOverflow s act)
    (hs : step cfg s act = some s') : WakeInv s' := by
  cases stepBy hs with
  | client a act hidle hs => exact h.clientStep hidle hs
  | agent a hs => exact h.agentStep hok hs
  | proc hs => exact h.procStep hs
  | callbackReturns => exact busy h.ring h.items rfl
  | controlAct act hidle hs =>
    obtain ⟨hf, hp, hpr, -, -, hsem⟩ := controlActStep_frame hs
    refine h.control ?_ ?_ hf hsem hp hpr <;>
      cases hc : s.control <;> rw [hc] at hidle <;> first | rfl | cases hidle
  | control hs => exact h.controlStep hok hs
  | wakeProc => exact h.wake rfl rfl rfl rfl id
  | wakeAgent a =>
    have hsame : ∀ q : AgentPc → Bool, q (s.agents a).wake = q (s.agents a) →
        (∃ b, q (s.agents b) = true) →
        ∃ b, q (Function.update s.agents a (s.agents a).wake b) = true := by
      rintro q hq ⟨b, hb⟩
      by_cases he : b = a
      · subst he
        exact ⟨b, by rw [Function.update_self, hq, hb]⟩
      · exact ⟨b, by rwa [Function.update_of_ne he]⟩
    have hnot := hsame AgentPc.notifies (by cases s.agents a <;> rfl)
    have hwake := hsame AgentPc.wakes (by cases s.agents a <;> rfl)
    exact ⟨h.ring, h.items, fun h₁ h₂ => (h.queue h₁ h₂).imp_right (Or.imp_left hnot),
      fun h₁ h₂ => (h.stop h₁ h₂).imp_right (Or.imp_left hnot),
      fun h₁ h₂ => (h.asleep h₁ h₂).imp_left hwake⟩

end WakeInv

section Runs

variable {pool : PoolAllocator} {capacity : ℕ} {memory : ℕ → WorkItem} {world : W}

/-- **No lost wakeup.**  As long as the counter does not wrap around, a processing thread that
is at or inside `Semaphore::wait`, while the queue holds an item or a stop has been asked for,
finds a token or some thread is about to give one; and if it sleeps although there is a token,
some thread is about to wake it. -/
theorem no_lost_wakeup (hcapacity : 1 ≤ capacity)
    (h : Reach (step cfg) NoOverflow (State.init pool capacity memory world) s)
    (hwaits : s.proc.waits = true)
    (hwork : s.ring.contents ≠ [] ∨ s.processing = false) :
    (0 < s.sem ∨ s.Notifying) ∧ (s.proc.sleeps = true → 0 < s.sem → s.Waking) := by
  have hinit : WakeInv (State.init pool capacity memory world : State D W) :=
    ⟨RingBuffer.wf_new _ hcapacity, by simp [State.init], by simp [State.init],
      by simp [State.init], by simp [State.init, ProcPc.sleeps]⟩
  have hinv : WakeInv s := h.invariant hinit fun _ _ _ hi hok hs => hi.step hok hs
  refine ⟨?_, hinv.asleep⟩
  rcases hwork with hqueue | hstop
  · exact hinv.queue hwaits hqueue
  · refine hinv.stop ?_ hstop
    cases hpc : s.proc <;> rw [hpc] at hwaits <;> first | rfl | cases hwaits

end Runs

/-- The thread sleeps, and a client has pushed an item but not yet notified. -/
theorem no_lost_wakeup_pushed :
    ∃ s, Reach (step smallConfig) NoOverflow smallInit s ∧ s.proc.sleeps = true ∧
      s.ring.getCount = 1 ∧ (0 < s.sem ∨ s.Notifying) := by
  obtain ⟨s, hs, hp⟩ := @Reach.of_guardedRun_any _ _ (step smallConfig) NoOverflow smallInit
    (fun s act => decide (NoOverflow s act)) (fun _ _ => of_decide_eq_true)
    ([.proc, .proc, .proc] ++ submits 0 ⟨.fileExists, [slash], none⟩ 11)
    (fun s => s.proc.sleeps && s.ring.getCount == 1) (by decide +kernel)
  rw [Bool.and_eq_true, beq_iff_eq] at hp
  have hwaits : s.proc.waits = true := by
    cases hpc : s.proc <;> rw [hpc] at hp <;> first | rfl | cases hp.1
  have hqueue : s.ring.contents ≠ [] := by
    rw [← List.length_pos_iff, RingBuffer.length_contents, hp.2]
    exact Nat.one_pos
  exact ⟨s, hs, hp.1, hp.2, (no_lost_wakeup (by decide) hs hwaits (Or.inl hqueue)).1⟩

end LaminaFS
