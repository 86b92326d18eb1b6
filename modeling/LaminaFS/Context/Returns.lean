/-
# A wait returns at last

In an endless run with a fair scheduler, in which callbacks return, `WaitForWorkItem` returns:
the item that is waited for is executed, and the wakeup that is owed then comes.
-/
import LaminaFS.Context.Completion
import LaminaFS.Context.Liveness

namespace LaminaFS

open Transition

variable {D W : Type} {cfg : Config D W} {s s' s₀ : State D W} {act : Action} {a : Agent}
  {p : ItemPtr} {g : ℕ}

/-! ### `WaitForWorkItem` -/

/-- The steps of runs in which nobody releases what is waited for. -/
def Attentive (s : State D W) (act : Action) : Prop := SparesWaited s act ∧ NoOverflow s act

lemma Attentive.regular (h : Attentive s act) : Regular s act := ⟨h.2, h.1.1⟩

/-- What is known of the states of attentive runs. -/
structure Heeded (cfg : Config D W) (s : State D W) : Prop where
  serial : Serial cfg s
  waits : WaitInv s
  pending : ∀ a p, s.agents a = .blocked p → (s.slots p.slot).completed = true →
    s.NotifyPending p

lemma Heeded.completed_iff (h : Heeded cfg s) (hasks : (s.agents a).role = .asking p) :
    (s.slots p.slot).completed = true ↔ .executed p.submission ∈ s.log :=
  completed_iff_executed h.serial.accounted (h.waits.kept a p hasks)

/-- The agent has returned from `WaitForWorkItem`: the item has been executed, and the agent knows
that. -/
structure State.Returned (s : State D W) (a : Agent) (p : ItemPtr) : Prop where
  idle : s.agents a = .idle
  reported : p ∈ s.reported
  executed : .executed p.submission ∈ s.log

/-- An agent goes on waiting, or returns. -/
lemma asking_step (hw : Heeded cfg s) (hs : step cfg s act = some s')
    (hasks : (s.agents a).role = .asking p) :
    (s'.agents a).role = .asking p ∨ s'.Returned a p := by
  by_cases hact : act = .agent a
  · subst hact
    cases agentMove (show agentStep cfg s a = some s' from hs) with
    | told q hpc hcompleted =>
      obtain rfl : q = p := by
        rw [hpc] at hasks
        cases hasks
        rfl
      exact Or.inr ⟨Function.update_self _ _ _, List.mem_cons_self,
        (hw.completed_iff hasks).mp hcompleted⟩
    | blocks q hpc =>
      rw [hpc] at hasks
      left
      show (Function.update s.agents a _ a).role = _
      rwa [Function.update_self]
    | _ =>
      rw [‹s.agents a = _›] at hasks
      cases hasks
  · left
    rcases step_agents hs hact with h | h | ⟨h, -⟩
    · rwa [h]
    · rwa [h, AgentPc.role_wake]
    · rw [h] at hasks
      cases hasks

/-- How far a waiting agent is from its return. -/
def State.waitRank (s : State D W) (a : Agent) : ℕ :=
  match s.agents a, s.proc with
  | .blocked _, .testCallback _ => 2
  | .blocked _, _ => 1
  | _, _ => 0

lemma waitRank_awake (hpc : s.agents a = .waitTest p) : s.waitRank a = 0 := by
  rw [State.waitRank, hpc]

lemma waitRank_blocked (hpc : s.agents a = .blocked p) : 0 < s.waitRank a := by
  rw [State.waitRank, hpc]
  cases s.proc <;> exact Nat.succ_pos _

/-- The agent is awake and an agent acts: it stays where it is, unless it is told. -/
lemma awake_step (hw : Heeded cfg s) (hpc : s.agents a = .waitTest p)
    (hexecuted : .executed p.submission ∈ s.log) (hs : step cfg s act = some s')
    (hasks' : (s'.agents a).role = .asking p) : act ≠ .agent a ∧ s'.agents a = .waitTest p := by
  have hact : act ≠ .agent a := by
    rintro rfl
    cases agentMove (show agentStep cfg s a = some s' from hs) with
    | told q =>
      have hidle : (Function.update s.agents a .idle a).role = .asking p := hasks'
      rw [Function.update_self] at hidle
      cases hidle
    | blocks q hq hcompleted =>
      obtain rfl : q = p := AgentPc.waitTest.inj (hq.symm.trans hpc)
      exact absurd ((hw.completed_iff (by rw [hpc]; rfl)).mpr hexecuted) hcompleted
    | _ =>
      rw [‹s.agents a = _›] at hpc
      cases hpc
  refine ⟨hact, ?_⟩
  rcases step_agents hs hact with h | h | ⟨h, -⟩
  · rw [h, hpc]
  · rw [h, hpc]
    rfl
  · rw [hpc] at h
    cases h

/-- The wakeup that is owed comes closer. -/
lemma pending_step (hpc : s.agents a = .blocked p) (hpending : s.NotifyPending p)
    (hs : step cfg s .proc = some s') : s'.waitRank a < s.waitRank a := by
  obtain ⟨-, ⟨hproc, hcallback⟩ | hproc⟩ := hpending
  · simp only [step, procStep, hproc, hcallback, Option.isSome_none, Bool.false_eq_true,
      if_false, Option.some.injEq] at hs
    subst hs
    simp [State.waitRank, hpc, hproc]
  · simp only [step, procStep, hproc, Option.some.injEq] at hs
    subst hs
    simp [State.waitRank, hpc, hproc, AgentPc.wake]

/-- Others leave the agent asleep with its wakeup pending, or wake it up. -/
lemma asleep_step (hctl : ControlInv s) (hpc : s.agents a = .blocked p)
    (hpending : s.NotifyPending p) (hact : act ≠ .proc) (hs : step cfg s act = some s') :
    s'.agents a = .blocked p ∧ s'.waitRank a = s.waitRank a ∨
      s'.waitRank a < s.waitRank a := by
  have hagent : act ≠ .agent a := by
    rintro rfl
    simp [step, agentStep, hpc] at hs
  have hproc : s'.proc = s.proc := by
    refine proc_stays hctl hact hs ?_ ?_ ?_ <;>
      rcases hpending.2 with ⟨h, -⟩ | h <;> rw [h] <;> rfl
  rcases step_agents hs hagent with h | h | ⟨h, -⟩
  · exact Or.inl ⟨h.trans hpc, by rw [State.waitRank, h, hproc, State.waitRank]⟩
  · rw [hpc] at h
    rw [waitRank_awake (show s'.agents a = .waitTest p from h)]
    exact Or.inr (waitRank_blocked hpc)
  · rw [hpc] at h
    cases h

/-- An agent whose item has been executed comes back from `WaitForWorkItem`. -/
def waitRanking (cfg : Config D W) (a : Agent) (p : ItemPtr) :
    Ranking (step cfg) Attentive (Heeded cfg)
      (fun s => (s.agents a).role = .asking p ∧ .executed p.submission ∈ s.log)
      (fun s => s.Returned a p) ℕ where
  rank s := s.waitRank a
  Helps s act := s.agents a = .waitTest p ∧ act = .agent a ∨
    s.agents a = .blocked p ∧ s.NotifyPending p ∧ act = .proc
  help s hw := by
    rintro ⟨hasks, hexecuted⟩
    rcases AgentPc.role_asking.mp hasks with hpc | hpc
    · exact ⟨_, Or.inl ⟨hpc, rfl⟩⟩
    · exact ⟨_, Or.inr ⟨hpc, hw.pending a p hpc ((hw.completed_iff hasks).mpr hexecuted), rfl⟩⟩
  keep := by
    rintro s b b' s' hw hw' ⟨hasks, hexecuted⟩ hhelps - hs
    have hexecuted' := log_step hs hexecuted
    rcases asking_step hw hs hasks with hasks' | hreturned
    · refine Or.inr ⟨⟨hasks', hexecuted'⟩, ?_⟩
      rcases hhelps with ⟨hpc, rfl⟩ | ⟨hpc, hpending, rfl⟩
      · obtain ⟨hne, hpc'⟩ := awake_step hw hpc hexecuted hs hasks'
        exact Or.inr ⟨hne, by rw [waitRank_awake hpc, waitRank_awake hpc'], Or.inl ⟨hpc', rfl⟩⟩
      · by_cases hb : b' = .proc
        · exact Or.inl (pending_step hpc hpending (hb ▸ hs))
        · rcases asleep_step hw.serial.accounted.control hpc hpending hb hs with ⟨hpc', h⟩ | h
          · exact Or.inr ⟨hb, h, Or.inr ⟨hpc', hw'.pending a p hpc'
              ((hw'.completed_iff hasks').mpr hexecuted'), rfl⟩⟩
          · exact Or.inl h
    · exact Or.inl hreturned

lemma waitTest_enabled (hpc : s.agents a = .waitTest p) :
    (step cfg s (.agent a)).isSome = true := by
  simp only [step, agentStep, hpc]
  split <;> rfl

lemma pending_enabled (hpending : s.NotifyPending p) : (step cfg s .proc).isSome = true := by
  rcases hpending.2 with ⟨hpc, -⟩ | hpc <;> simp [step, procStep, hpc]

lemma waitRanking_fair {r : Endless (step cfg) Attentive s₀} (hf : Fair r) {n : ℕ}
    (hhelps : ∀ k ≥ n, (waitRanking cfg a p).Helps (r.state k) act) :
    ∃ k ≥ n, r.act k = act := by
  rcases hhelps n le_rfl with ⟨-, rfl⟩ | ⟨-, -, rfl⟩
  · refine hf.agents a n fun k hk => ?_
    rcases hhelps k hk with ⟨hpc, -⟩ | ⟨-, -, hact⟩
    · exact waitTest_enabled hpc
    · cases hact
  · refine hf.proc.weakly n fun k hk => ?_
    rcases hhelps k hk with ⟨-, hact⟩ | ⟨-, hpending, -⟩
    · cases hact
    · exact pending_enabled hpending

section Runs

variable {pool : PoolAllocator} {capacity : ℕ} {memory : ℕ → WorkItem} {world : W} {n : ℕ}

lemma heeded_of_reach (hpool : pool.WF) (hcapacity : 1 ≤ capacity)
    (h : Reach (step cfg) SparesWaited (State.init pool capacity memory world) s) :
    Heeded cfg s :=
  ⟨(refines_condVar hpool hcapacity h).1.1, (refines_condVar hpool hcapacity h).1.2,
    fun _ _ => blocked_pending hpool hcapacity h⟩

/-- An agent goes on waiting until it returns. -/
lemma asking_later {ok : State D W → Action → Prop} {r : Endless (step cfg) ok s₀} {m : ℕ}
    (hheeded : ∀ m, Heeded cfg (r.state m)) (hm : m ≥ n)
    (hasks : ((r.state n).agents a).role = .asking p) :
    ((r.state m).agents a).role = .asking p ∨ ∃ k ≥ n, (r.state k).Returned a p := by
  induction m, hm using Nat.le_induction with
  | base => exact Or.inl hasks
  | succ m hm ih =>
    rcases ih with h | h
    · exact (asking_step (hheeded m) (r.next m) h).imp_right
        fun h => ⟨m + 1, Nat.le_succ_of_le hm, h⟩
    · exact Or.inr h

/-- **Waiting ends.**  In an endless run with a fair scheduler, in which callbacks return and nobody
releases what is waited for: if from some moment on the context keeps processing, then an agent
that is in `WaitForWorkItem` then returns from it at last, with its item executed, or a null
pointer is called. -/
theorem wait_returns {r : Endless (step cfg) Attentive (State.init pool capacity memory world)}
    (hpool : pool.WF) (hcapacity : 1 ≤ capacity) (hf : Fair r)
    (hprocessing : ∀ m ≥ n, (r.state m).processing = true)
    (hasks : ((r.state n).agents a).role = .asking p) :
    ∃ m ≥ n, (r.state m).proc = .crashed ∨ (r.state m).Returned a p := by
  have hheeded (m : ℕ) : Heeded cfg (r.state m) :=
    heeded_of_reach hpool hcapacity ((r.reach m).mono fun _ _ hok => hok.1)
  have hl := (hheeded n).serial.accounted.ledger
  have hposted : ((r.state n).stage p.submission).isPosted = true :=
    (hl.returned _ (hl.asking a p hasks)).1
  obtain ⟨m, hm, hexecuted | hcrashed⟩ := executed_at_last hpool hcapacity
    (hf.weaken fun _ _ => Attentive.regular) hprocessing hposted
  · rcases asking_later hheeded hm hasks with hasks' | ⟨k, hk, hreturned⟩
    · obtain ⟨k, hk, hreturned⟩ := Endless.leadsTo (waitRanking cfg a p)
        (fun k _ => hheeded k) (fun k _ act => waitRanking_fair hf) ⟨hasks', hexecuted⟩
      exact ⟨k, hm.trans hk, Or.inr hreturned⟩
    · exact ⟨k, hk, Or.inr hreturned⟩
  · exact ⟨m, hm, Or.inl hcrashed⟩

end Runs

lemma OnlyFirst.attentive {P : State D W → Bool} (h : OnlyFirst P s act) : Attentive s act :=
  ⟨sparesWaited_of_not_isRelease h.keeps, h.overflow⟩

/-- A client waits for its item before the processing thread has begun. -/
theorem wait_returns_one :
    ∃ (r : Endless (step smallConfig) Attentive smallInit) (n m : ℕ), Fair r ∧ n ≤ m ∧
      (r.state n).agents (.client 0) = .blocked ⟨0, 0⟩ ∧
      ((r.state m).proc = .crashed ∨ (r.state m).Returned (.client 0) ⟨0, 0⟩) := by
  have hrun : (guardedRun (step smallConfig) (onlyFirst State.processing) smallInit
      (submits 0 ⟨.fileExists, [slash], none⟩ 14 ++
        [.client (.client 0) (.wait ⟨0, 0⟩), .agent (.client 0)] ++ processes ++
        [.proc, .proc, .agent (.client 0)] ++ List.replicate 6 .proc)).any
      (fun s => s.sleepsOn && s.processing) = true := by decide +kernel
  obtain ⟨s, hs, hlast⟩ := (Option.any_eq_true _ _).mp hrun
  obtain ⟨hsleeps, hon⟩ := (Bool.and_eq_true _ _).mp hlast
  obtain ⟨r, hf, -, -, hprocessing, hstart⟩ := exists_fair (fun _ _ => OnlyFirst.attentive)
    (fun _ => rfl) hs hsleeps (fun _ => hon)
  have hblocked : (guardedRun (step smallConfig) (onlyFirst State.processing) smallInit
      (submits 0 ⟨.fileExists, [slash], none⟩ 14 ++
        [.client (.client 0) (.wait ⟨0, 0⟩), .agent (.client 0)])).any
      (fun s => decide (s.agents (.client 0) = .blocked ⟨0, 0⟩)) = true := by decide +kernel
  have htake := hstart 17 (by decide)
  rw [show List.take 17 _ = submits 0 ⟨.fileExists, [slash], none⟩ 14 ++
    [.client (.client 0) (.wait ⟨0, 0⟩), .agent (.client 0)] from rfl] at htake
  rw [htake] at hblocked
  have hpc := of_decide_eq_true hblocked
  obtain ⟨m, hm, hreturned⟩ := wait_returns (PoolAllocator.wf_new 2 (by decide) (by decide))
    (by decide) hf (fun m _ => hprocessing m)
    (show ((r.state 17).agents (.client 0)).role = .asking ⟨0, 0⟩ by rw [hpc]; rfl)
  exact ⟨r, 17, m, hf, hm, hpc, hreturned⟩

end LaminaFS
