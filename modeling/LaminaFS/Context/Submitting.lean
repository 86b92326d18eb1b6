/-
# Submissions return at last, or others are pushed for ever

`push` waits for room in the queue, and another thread can be faster every time.  So a submission
function need not return, but in an endless run with a fair scheduler, in which callbacks return
and the context keeps processing, it can be kept from that only by pushes that never end: the
queue runs empty when nothing is pushed any more.
-/
import LaminaFS.Context.Liveness

namespace LaminaFS

open Transition

variable {D W : Type} {cfg : Config D W} {s s' : State D W} {a : Agent}

/-- The agent is in one of the submission functions. -/
def AgentPc.inCall : AgentPc → Bool
  | .alloc _ | .failed _ => true
  | pc => pc.submits

/-- How far an agent is from the end of its submission. -/
def AgentPc.rank : AgentPc → ℕ ×ₗ ℕ
  | .alloc _ => toLex (8, 0)
  | .construct _ _ => toLex (7, 0)
  | .store _ _ todo => toLex (6, todo.length)
  | .pushTest _ _ => toLex (5, 0)
  | .pushLock _ _ => toLex (4, 0)
  | .notify _ _ => toLex (3, 0)
  | .notifyOne _ _ => toLex (2, 0)
  | .late _ _ todo => toLex (1, todo.length)
  | _ => toLex (0, 0)

lemma inCall_step {act : Action} (hcall : (s.agents a).inCall = true)
    (hs : step cfg s act = some s') : s'.agents a = .idle ∨ (s'.agents a).inCall = true := by
  by_cases hact : act = .agent a
  · subst hact
    cases agentMove (show agentStep cfg s a = some s' from hs) with
    | returns | refused => exact Or.inl (Function.update_self _ _ _)
    | told p hpc | blocks p hpc =>
      rw [hpc] at hcall
      cases hcall
    | pushes =>
      right
      show (Function.update s.agents a _ a).inCall = true
      rw [Function.update_self]
      split <;> rfl
    | _ =>
      right
      show (Function.update s.agents a _ a).inCall = true
      rw [Function.update_self]
      rfl
  · right
    rcases step_agents hs hact with h | h | ⟨hidle, -⟩
    · rwa [h]
    · rw [h]
      cases hpc : s.agents a <;> rw [hpc] at hcall <;> first | rfl | cases hcall
    · rw [hidle] at hcall
      cases hcall

lemma rank_lt_of_level {i j k l : ℕ} (h : i < j) : toLex (i, k) < toLex (j, l) :=
  Prod.Lex.toLex_lt_toLex.mpr (Or.inl h)

/-- As long as there is room in the queue every step of an agent brings it nearer to its return. -/
lemma agentStep_rank (hroom : s.ring.full = false) (hcall : (s.agents a).inCall = true)
    (hs : agentStep cfg s a = some s') :
    s'.agents a = .idle ∨ (s'.agents a).rank < (s.agents a).rank := by
  have hmoves {pc : AgentPc} (hlow : pc.rank < (s.agents a).rank) :
      (Function.update s.agents a pc a).rank < (s.agents a).rank := by
    rwa [Function.update_self]
  cases agentMove hs with
  | returns | refused => exact Or.inl (Function.update_self _ _ _)
  | told p hpc | blocks p hpc =>
    rw [hpc] at hcall
    cases hcall
  | findsFull c p hpc hdone =>
    rw [RingBuffer.push_done, hroom] at hdone
    exact absurd rfl hdone
  | pushes c p hpc =>
    refine Or.inr (hmoves ?_)
    rw [hpc]
    split <;> exact rank_lt_of_level (by decide)
  | stores c p store todo hpc | storesLate c p store todo hpc =>
    refine Or.inr (hmoves ?_)
    rw [hpc]
    exact Prod.Lex.toLex_lt_toLex.mpr (Or.inr ⟨rfl, Nat.lt_succ_self _⟩)
  | _ =>
    refine Or.inr (hmoves ?_)
    rw [‹s.agents a = _›]
    exact rank_lt_of_level (by decide)

lemma agentStep_enabled_of_room (hroom : s.ring.full = false)
    (hcall : (s.agents a).inCall = true) : (step cfg s (.agent a)).isSome = true := by
  cases hpc : s.agents a with
  | alloc c =>
    simp only [step, agentStep, hpc]
    split <;> rfl
  | store c p todo | late c p todo => cases todo <;> simp [step, agentStep, hpc]
  | pushTest c p => simp [step, agentStep, hpc, hroom]
  | pushLock c p =>
    simp only [step, agentStep, hpc]
    split <;> rfl
  | construct | notify | notifyOne | failed => simp [step, agentStep, hpc]
  | _ => rw [hpc] at hcall; cases hcall

/-- Where there is room an agent comes to the end of its submission. -/
def callRanking (cfg : Config D W) (a : Agent) : Ranking (step cfg) Regular
    (fun s => s.ring.full = false) (fun s => (s.agents a).inCall = true)
    (fun s => s.agents a = .idle) (ℕ ×ₗ ℕ) where
  rank s := (s.agents a).rank
  Helps s act := act = .agent a ∧ (s.agents a).inCall = true
  help _ _ h := ⟨_, rfl, h⟩
  keep := by
    rintro s _ b s' hroom - hcall ⟨rfl, -⟩ - hs
    by_cases hb : b = .agent a
    · subst hb
      rcases inCall_step hcall hs with hidle | hcall'
      · exact Or.inl hidle
      · exact (agentStep_rank hroom hcall hs).imp_right fun hlow => ⟨hcall', Or.inl hlow⟩
    · have hsame : s'.agents a = s.agents a := by
        rcases step_agents hs hb with h | h | ⟨hidle, -⟩
        · exact h
        · rw [h]
          cases hpc : s.agents a <;> rw [hpc] at hcall <;> first | rfl | cases hcall
        · rw [hidle] at hcall
          cases hcall
      rw [hsame]
      exact Or.inr ⟨hcall, Or.inr ⟨hb, rfl, rfl, hcall⟩⟩

section Runs

variable {pool : PoolAllocator} {capacity : ℕ} {memory : ℕ → WorkItem} {world : W}
  {r : Endless (step cfg) Regular (State.init pool capacity memory world)} {n : ℕ}

/-- At last all that has been pushed by now has been executed. -/
lemma all_executed (hpool : pool.WF) (hcapacity : 1 ≤ capacity) (hf : Fair r)
    (hprocessing : ∀ m ≥ n, (r.state m).processing = true)
    (halive : ∀ m ≥ n, (r.state m).proc ≠ .crashed) (bound : ℕ) :
    ∃ m ≥ n, ∀ g < bound, ((r.state n).stage g).isPosted = true →
      .executed g ∈ (r.state m).log := by
  induction bound with
  | zero => exact ⟨n, le_rfl, fun g hg => absurd hg (Nat.not_lt_zero g)⟩
  | succ bound ih =>
    obtain ⟨m, hm, hall⟩ := ih
    by_cases hposted : ((r.state n).stage bound).isPosted = true
    · obtain ⟨k, hk, hexecuted | hcrashed⟩ :=
        executed_at_last hpool hcapacity hf hprocessing hposted
      · refine ⟨max m k, hm.trans (le_max_left m k), fun g hg hg' => ?_⟩
        rcases Nat.lt_succ_iff_lt_or_eq.mp hg with hlt | rfl
        · exact log_later (r.reach_later (le_max_left m k)) (hall g hlt hg')
        · exact log_later (r.reach_later (le_max_right m k)) hexecuted
      · exact absurd hcrashed (halive k hk)
    · refine ⟨m, hm, fun g hg hg' => hall g ?_ hg'⟩
      rcases Nat.lt_succ_iff_lt_or_eq.mp hg with hlt | rfl
      · exact hlt
      · exact absurd hg' hposted

/-- What waits in the queue has not been executed. -/
lemma Known.not_executed (hk : Known cfg s) {g : ℕ} (hmem : g ∈ s.ledger.waiting) :
    .executed g ∉ s.log := by
  intro hexecuted
  have hdone := isDone_of_executed hk.serial.accounted.ledger hexecuted
  rw [show s.stage g = .queued from hk.queued_of_waiting hmem] at hdone
  cases hdone

/-- Something waits in a full queue. -/
lemma Known.exists_waiting (hk : Known cfg s) (hfull : s.ring.full = true) :
    ∃ g, g ∈ s.ledger.waiting := by
  have hlength := (RingBuffer.full_iff hk.steady.wake.ring).mp hfull
  have hpos : 0 < s.ring.contents.length := hlength ▸ Nat.zero_lt_of_lt hk.steady.wake.ring.read_lt
  obtain ⟨item, hitem⟩ := List.exists_mem_of_length_pos hpos
  cases item with
  | none => exact absurd hitem hk.steady.wake.items
  | some p =>
    have hqueue : p ∈ s.ledger.queue := List.mem_filterMap.mpr ⟨_, hitem, rfl⟩
    exact ⟨p.submission, List.mem_map.mpr ⟨p, hqueue, rfl⟩⟩

/-- When nothing is pushed any more there is room in the queue at last, and it stays. -/
lemma room_at_last (hpool : pool.WF) (hcapacity : 1 ≤ capacity) (hf : Fair r)
    (hprocessing : ∀ m ≥ n, (r.state m).processing = true)
    (halive : ∀ m ≥ n, (r.state m).proc ≠ .crashed)
    (hquiet : ∀ m ≥ n, ∀ g, ((r.state m).stage g).isPosted = true →
      ((r.state n).stage g).isPosted = true) :
    ∃ m ≥ n, ∀ k ≥ m, (r.state k).ring.full = false := by
  have hknown (m : ℕ) : Known cfg (r.state m) := known_of_reach hpool hcapacity (r.reach m)
  obtain ⟨m, hm, hall⟩ := all_executed hpool hcapacity hf hprocessing halive
    (r.state n).nextSubmission
  refine ⟨m, hm, fun k hk => Bool.not_eq_true _ ▸ fun hfull => ?_⟩
  obtain ⟨g, hmem⟩ := (hknown k).exists_waiting hfull
  have hposted : ((r.state n).stage g).isPosted = true := by
    refine hquiet k (hm.trans hk) g ?_
    rw [(hknown k).queued_of_waiting hmem]
    rfl
  -- it has been pushed by then, so it has a number and has been executed
  have hborn : g < (r.state n).nextSubmission := by
    by_contra hlt
    have hunborn := ((hknown n).serial.accounted.ledger.born g).mpr (Nat.le_of_not_lt hlt)
    rw [show (r.state n).stage g = .unborn from hunborn] at hposted
    cases hposted
  exact (hknown k).not_executed hmem (log_later (r.reach_later hk) (hall g hborn hposted))

/-- **A submission returns, or others are pushed for ever.**  In an endless run with a fair
scheduler, in which callbacks return: if from some moment on the context keeps processing, then
an agent that is in a submission function then returns from it at last, unless a null pointer is
called, or items that have not been pushed yet are pushed again and again. -/
theorem submission_returns (hpool : pool.WF) (hcapacity : 1 ≤ capacity) (hf : Fair r)
    (hprocessing : ∀ m ≥ n, (r.state m).processing = true)
    (hcall : ((r.state n).agents a).inCall = true) :
    (∃ m ≥ n, (r.state m).proc = .crashed ∨ (r.state m).agents a = .idle) ∨
      ∀ k ≥ n, ∃ m ≥ k, ∃ g, ((r.state k).stage g).isPosted = false ∧
        ((r.state m).stage g).isPosted = true := by
  by_contra hnever
  rw [not_or] at hnever
  obtain ⟨hstuck, hends⟩ := hnever
  push Not at hends
  obtain ⟨k, hk, hquiet⟩ := hends
  have halive (m : ℕ) (hm : m ≥ n) : (r.state m).proc ≠ .crashed :=
    fun h => hstuck ⟨m, hm, Or.inl h⟩
  obtain ⟨m, hm, hroom⟩ := room_at_last hpool hcapacity hf
    (fun j hj => hprocessing j (hk.trans hj)) (fun j hj => halive j (hk.trans hj))
    fun j hj g hposted => by
      by_contra hnew
      exact hquiet j hj g (by simpa using hnew) hposted
  -- the agent is still in its submission
  have hstays (j : ℕ) (hj : j ≥ n) : ((r.state j).agents a).inCall = true := by
    induction j, hj using Nat.le_induction with
    | base => exact hcall
    | succ j hj ih =>
      exact (inCall_step ih (r.next j)).resolve_left
        fun hidle => hstuck ⟨j + 1, Nat.le_succ_of_le hj, Or.inr hidle⟩
  obtain ⟨j, hj, hidle⟩ := Endless.leadsTo (callRanking cfg a) hroom
    (fun j hj act hhelps => by
      obtain rfl := (hhelps j le_rfl).1
      exact hf.agents a j fun i hi =>
        agentStep_enabled_of_room (hroom i (hj.trans hi)) (hhelps i hi).2)
    (hstays m (hk.trans hm))
  exact hstuck ⟨j, (hk.trans hm).trans hj, Or.inr hidle⟩

end Runs

/-- A client begins a submission into an empty queue. -/
theorem submission_returns_one :
    ∃ (r : Endless (step smallConfig) Regular smallInit) (n : ℕ), Fair r ∧
      ((r.state n).agents (.client 0)).inCall = true ∧
      ((∃ m ≥ n, (r.state m).proc = .crashed ∨ (r.state m).agents (.client 0) = .idle) ∨
        ∀ k ≥ n, ∃ m ≥ k, ∃ g, ((r.state k).stage g).isPosted = false ∧
          ((r.state m).stage g).isPosted = true) := by
  have hrun : (guardedRun (step smallConfig) (onlyFirst State.processing) smallInit
      (submits 0 ⟨.fileExists, [slash], none⟩ 14 ++ List.replicate 14 .proc)).any
      (fun s => s.sleepsOn && s.processing) = true := by decide +kernel
  obtain ⟨s, hs, hlast⟩ := (Option.any_eq_true _ _).mp hrun
  obtain ⟨hsleeps, hon⟩ := (Bool.and_eq_true _ _).mp hlast
  obtain ⟨r, hf, -, -, hprocessing, hstart⟩ := exists_fair (fun _ _ => OnlyFirst.regular)
    (fun _ => rfl) hs hsleeps (fun _ => hon)
  have hbegun : (guardedRun (step smallConfig) (onlyFirst State.processing) smallInit
      [.client (.client 0) (.submit ⟨.fileExists, [slash], none⟩)]).any
      (fun s => (s.agents (.client 0)).inCall) = true := by decide +kernel
  have htake := hstart 1 (by decide)
  rw [show List.take 1 _ = [Action.client (.client 0) (.submit ⟨.fileExists, [slash], none⟩)]
    from rfl] at htake
  rw [htake] at hbegun
  exact ⟨r, 1, hf, hbegun, submission_returns (PoolAllocator.wf_new 2 (by decide) (by decide))
    (by decide) hf (fun m _ => hprocessing m) hbegun⟩

end LaminaFS
