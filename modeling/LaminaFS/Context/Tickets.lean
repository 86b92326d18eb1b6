/-
# Every submission is accounted for

A call of a submission function either has not got to the pool yet, or it has been given a
number and a slot, or it has found no slot and called the callback itself.
-/
import LaminaFS.Context.Frames
import LaminaFS.Lib.Transition

namespace LaminaFS

open Transition

variable {D W : Type} {cfg : Config D W} {s s' : State D W} {a b : Agent} {c : Call}
  {act : Action}

/-- The call that has not got to the pool yet, or has not found a slot there. -/
def AgentPc.asksForSlot : AgentPc → Option Call
  | .alloc c | .failed c => some c
  | _ => none

namespace State

/-- The calls `c` of the agent that have found no slot, and whose callback has been called. -/
def refused (s : State D W) (a : Agent) (c : Call) : ℕ := s.log.count (.errorCallback a c)

/-- The calls `c` of the agent that have been given a slot. -/
def accepted (s : State D W) (a : Agent) (c : Call) : ℕ :=
  (List.range s.nextSubmission).countP fun g =>
    (s.tickets g).agent == a && (s.tickets g).call == c

/-- The agent is in a call `c` that has not been given a slot. -/
def asking (s : State D W) (a : Agent) (c : Call) : ℕ :=
  if (s.agents a).asksForSlot = some c then 1 else 0

end State

@[simp] lemma AgentPc.asksForSlot_wake (pc : AgentPc) :
    pc.wake.asksForSlot = pc.asksForSlot := by
  cases pc <;> rfl

/-- What a step does to the accounts of an agent's calls. -/
inductive AccountStep (s s' : State D W) (act : Action) (a : Agent) (c : Call) : Prop
  | begins (hact : act = .client a (.submit c)) (hrefused : s'.refused a c = s.refused a c)
      (haccepted : s'.accepted a c = s.accepted a c) (hasking : s.asking a c = 0)
      (hasking' : s'.asking a c = 1)
  | accepts (hact : act ≠ .client a (.submit c)) (hrefused : s'.refused a c = s.refused a c)
      (haccepted : s'.accepted a c = s.accepted a c + 1) (hasking : s.asking a c = 1)
      (hasking' : s'.asking a c = 0)
  | refuses (hact : act ≠ .client a (.submit c)) (hrefused : s'.refused a c = s.refused a c + 1)
      (haccepted : s'.accepted a c = s.accepted a c) (hasking : s.asking a c = 1)
      (hasking' : s'.asking a c = 0)
  | same (hact : act ≠ .client a (.submit c)) (hrefused : s'.refused a c = s.refused a c)
      (haccepted : s'.accepted a c = s.accepted a c) (hasking : s'.asking a c = s.asking a c)

/-! ### The accounts over a step -/

/-- A step records nothing, or something that is not about a refused call. -/
def Quietly (s s' : State D W) : Prop :=
  s'.log = s.log ∨ ∃ ev, s'.log = ev :: s.log ∧ ∀ a c, ev ≠ .errorCallback a c

lemma refused_eq (h : Quietly s s') : s'.refused a c = s.refused a c := by
  rcases h with h | ⟨ev, h, hev⟩
  · rw [State.refused, h, State.refused]
  · rw [State.refused, h, List.count_cons_of_ne (hev a c), State.refused]

lemma accepted_eq (hnext : s'.nextSubmission = s.nextSubmission)
    (htickets : s'.tickets = s.tickets) : s'.accepted a c = s.accepted a c := by
  rw [State.accepted, hnext, htickets, State.accepted]

lemma accepted_taken {i : ℕ} {c' : Call} (hnext : s'.nextSubmission = s.nextSubmission + 1)
    (htickets : s'.tickets = Function.update s.tickets s.nextSubmission ⟨c', b, i⟩) :
    s'.accepted a c = s.accepted a c + if b == a && c' == c then 1 else 0 := by
  have hold : (List.range s.nextSubmission).countP (fun g =>
      (s'.tickets g).agent == a && (s'.tickets g).call == c) = s.accepted a c := by
    refine List.countP_congr fun g hg => ?_
    rw [htickets, Function.update_of_ne (Nat.ne_of_lt (List.mem_range.mp hg))]
  rw [State.accepted, hnext, List.range_succ, List.countP_append, hold, List.countP_singleton,
    htickets, Function.update_self]

/-- A step that is not about the calls of the agent. -/
lemma account_same (hact : act ≠ .client a (.submit c)) (hlog : Quietly s s')
    (hnext : s'.nextSubmission = s.nextSubmission) (htickets : s'.tickets = s.tickets)
    (hasks : (s'.agents a).asksForSlot = (s.agents a).asksForSlot) :
    AccountStep s s' act a c :=
  .same hact (refused_eq hlog) (accepted_eq hnext htickets)
    (by rw [State.asking, hasks, State.asking])

lemma asks_update {pc : AgentPc} (h : pc.asksForSlot = (s.agents b).asksForSlot) :
    (Function.update s.agents b pc a).asksForSlot = (s.agents a).asksForSlot := by
  by_cases ha : a = b
  · rw [ha, Function.update_self, h]
  · rw [Function.update_of_ne ha]

lemma asking_kept {pc : AgentPc} (hagents : s'.agents = Function.update s.agents b pc)
    (h : a = b → (pc.asksForSlot = some c ↔ (s.agents a).asksForSlot = some c)) :
    s'.asking a c = s.asking a c := by
  rw [State.asking, State.asking, hagents]
  by_cases ha : a = b
  · refine if_congr ?_ rfl rfl
    rw [← h ha, ha, Function.update_self]
  · rw [Function.update_of_ne ha]

lemma asking_of_none (h : (s.agents a).asksForSlot = none) : s.asking a c = 0 := by
  rw [State.asking, h]
  rfl

lemma asking_of_some (h : (s.agents a).asksForSlot = some c) : s.asking a c = 1 := if_pos h

lemma submit_account {c' : Call} (hnone : (s.agents b).asksForSlot = none)
    (hagents : s'.agents = Function.update s.agents b (.alloc c')) (hlog : s'.log = s.log)
    (hnext : s'.nextSubmission = s.nextSubmission) (htickets : s'.tickets = s.tickets) :
    AccountStep s s' (.client b (.submit c')) a c := by
  have hrefused : s'.refused a c = s.refused a c := refused_eq (Or.inl hlog)
  have haccepted : s'.accepted a c = s.accepted a c := accepted_eq hnext htickets
  by_cases hcall : a = b ∧ c' = c
  · obtain ⟨rfl, rfl⟩ := hcall
    refine .begins rfl hrefused haccepted (asking_of_none hnone) (asking_of_some ?_)
    rw [hagents, Function.update_self]
    rfl
  · refine .same ?_ hrefused haccepted (asking_kept hagents fun ha => ?_)
    · intro he
      cases he
      exact hcall ⟨rfl, rfl⟩
    · rw [ha, hnone]
      exact iff_of_false (fun hc => hcall ⟨ha, Option.some.inj hc⟩) (Option.some_ne_none c).symm

lemma client_account {act : ClientAct} (hidle : s.agents b = .idle)
    (hs : clientStep s b act = some s') : AccountStep s s' (.client b act) a c := by
  have hnone : (s.agents b).asksForSlot = none := by
    rw [hidle]
    rfl
  cases clientMove hs with
  | submits c' => exact submit_account hnone rfl rfl rfl rfl
  | waits p =>
    exact account_same (by simp) (Or.inl rfl) rfl rfl (asks_update (by rw [hnone]; rfl))
  | frees p | freesNull p =>
    exact account_same (by simp) (Or.inr ⟨_, rfl, by simp⟩) rfl rfl
      (asks_update (by rw [hnone]; rfl))
  | releases p => exact account_same (by simp) (Or.inr ⟨_, rfl, by simp⟩) rfl rfl rfl
  | _ => exact account_same (by simp) (Or.inl rfl) rfl rfl rfl

/-- An agent that has asked for a slot for another call, or another agent, goes on. -/
lemma asking_other {pc : AgentPc} {c' : Call} (hasks : (s.agents b).asksForSlot = some c')
    (hpc : pc.asksForSlot = none) (hagents : s'.agents = Function.update s.agents b pc)
    (hcall : ¬ (b = a ∧ c' = c)) : s'.asking a c = s.asking a c := by
  refine asking_kept hagents fun ha => ?_
  rw [ha, hasks, hpc]
  exact iff_of_false (Option.some_ne_none c).symm
    fun hc => hcall ⟨ha.symm, Option.some.inj hc⟩

lemma accept_account {c' : Call} {i : ℕ} {p : ItemPtr} (hpc : s.agents b = .alloc c')
    (hagents : s'.agents = Function.update s.agents b (.construct c' p)) (hlog : s'.log = s.log)
    (hnext : s'.nextSubmission = s.nextSubmission + 1)
    (htickets : s'.tickets = Function.update s.tickets s.nextSubmission ⟨c', b, i⟩) :
    AccountStep s s' (.agent b) a c := by
  have hasks : (s.agents b).asksForSlot = some c' := by rw [hpc]; rfl
  have hrefused : s'.refused a c = s.refused a c := refused_eq (Or.inl hlog)
  have haccepted := @accepted_taken _ _ s s' a b c i c' hnext htickets
  by_cases hcall : b = a ∧ c' = c
  · obtain ⟨rfl, rfl⟩ := hcall
    rw [beq_self_eq_true, beq_self_eq_true] at haccepted
    refine .accepts (by simp) hrefused haccepted (asking_of_some hasks) (asking_of_none ?_)
    rw [hagents, Function.update_self]
    rfl
  · rw [if_neg (by simpa using fun hb hc => hcall ⟨hb, hc⟩)] at haccepted
    exact .same (by simp) hrefused haccepted (asking_other hasks rfl hagents hcall)

lemma refuse_account {c' : Call} (hc : c.withCallback.isSome = true)
    (hpc : s.agents b = .failed c') (hagents : s'.agents = Function.update s.agents b .idle)
    (hlog : s'.log =
      if c'.withCallback.isSome then .errorCallback b c' :: s.log else s.log)
    (hnext : s'.nextSubmission = s.nextSubmission) (htickets : s'.tickets = s.tickets) :
    AccountStep s s' (.agent b) a c := by
  have hasks : (s.agents b).asksForSlot = some c' := by rw [hpc]; rfl
  have haccepted : s'.accepted a c = s.accepted a c := accepted_eq hnext htickets
  by_cases hcall : b = a ∧ c' = c
  · obtain ⟨rfl, rfl⟩ := hcall
    refine .refuses (by simp) ?_ haccepted (asking_of_some hasks) (asking_of_none ?_)
    · rw [State.refused, hlog, if_pos hc, List.count_cons_self, State.refused]
    · rw [hagents, Function.update_self]
      rfl
  · have hev : Event.errorCallback b c' ≠ .errorCallback a c := fun he => by
      cases he
      exact hcall ⟨rfl, rfl⟩
    refine .same (by simp) ?_ haccepted (asking_other hasks rfl hagents hcall)
    rw [State.refused, hlog]
    split
    · exact List.count_cons_of_ne hev
    · rfl

lemma agent_account (hc : c.withCallback.isSome = true) (hs : agentStep cfg s b = some s') :
    AccountStep s s' (.agent b) a c := by
  -- an agent that does not ask for a slot, and does not begin to
  have moves (pc : AgentPc) (hpc : pc.asksForSlot = (s.agents b).asksForSlot)
      (hagents : s'.agents = Function.update s.agents b pc) (hlog : s'.log = s.log)
      (hnext : s'.nextSubmission = s.nextSubmission) (htickets : s'.tickets = s.tickets) :
      AccountStep s s' (.agent b) a c := by
    refine account_same (by simp) (Or.inl hlog) hnext htickets ?_
    rw [hagents]
    exact asks_update hpc
  cases agentMove hs with
  | takes c' i pool hpc => exact accept_account hpc rfl rfl rfl rfl
  | refused c' hpc =>
    refine refuse_account hc hpc rfl ?_ rfl rfl
    rw [← Call.callback_isSome cfg.contextAlloc]
  | pushes c' p hpc => exact moves _ (by rw [hpc]; split <;> rfl) rfl rfl rfl rfl
  | _ => exact moves _ (by rw [‹s.agents b = _›]; rfl) rfl rfl rfl rfl

/-- Only agents refuse calls. -/
lemma quietly_of_step (hs : step cfg s act = some s') (hact : ∀ b, act ≠ .agent b) :
    Quietly s s' := by
  rcases step_event hs with hlog | ⟨ev, hlog, hrecords⟩
  · exact Or.inl hlog
  · refine Or.inr ⟨ev, hlog, ?_⟩
    rintro a c rfl
    cases hrecords
    exact hact _ rfl

lemma proc_account (hs : step cfg s .proc = some s') : AccountStep s s' .proc a c := by
  have hlog := quietly_of_step hs (by simp)
  have hasks : (s'.agents a).asksForSlot = (s.agents a).asksForSlot := by
    rcases procStep_agents hs a with ha | ha <;> rw [ha]
    exact AgentPc.asksForSlot_wake _
  have hf := procStep_frame hs
  exact account_same (by simp) hlog hf.nextSubmission hf.tickets hasks

/-- **The step lemma** of the accounts, for calls with a callback. -/
lemma step_account (hc : c.withCallback.isSome = true) (hs : step cfg s act = some s') :
    AccountStep s s' act a c := by
  have hquiet : (∀ b, act ≠ .agent b) → Quietly s s' := quietly_of_step hs
  cases stepBy hs with
  | client b act hidle hs => exact client_account hidle hs
  | agent b hs => exact agent_account hc hs
  | proc _ => exact proc_account hs
  | control hs =>
    have hf := (controlStep_frame hs).1
    exact account_same (by simp) (hquiet (by simp)) hf.nextSubmission hf.tickets
      (by rw [hf.agents])
  | controlAct act _ hs =>
    have hf := (controlActStep_frame hs).1
    exact account_same (by simp) (hquiet (by simp)) hf.nextSubmission hf.tickets
      (by rw [hf.agents])
  | callbackReturns => exact account_same (by simp) (Or.inl rfl) rfl rfl rfl
  | wakeProc => exact account_same (by simp) (Or.inl rfl) rfl rfl rfl
  | wakeAgent b =>
    exact account_same (by simp) (Or.inl rfl) rfl rfl
      (asks_update (AgentPc.asksForSlot_wake _))

/-- Whoever asks for a slot has asked before, or begins to. -/
lemma asks_step (hs : step cfg s act = some s') (hasks : (s'.agents a).asksForSlot = some c) :
    (s.agents a).asksForSlot = some c ∨ act = .client a (.submit c) := by
  have kept (h : s'.agents a = s.agents a ∨ s'.agents a = (s.agents a).wake) :
      (s.agents a).asksForSlot = some c := by
    rcases h with h | h <;> rw [h] at hasks
    · exact hasks
    · rwa [AgentPc.asksForSlot_wake] at hasks
  cases stepBy hs with
  | client b act hidle hs =>
    obtain ⟨pc, hagents, -⟩ := clientStep_agents hidle hs
    by_cases hb : a = b
    · subst hb
      cases clientMove hs with
      | submits c' =>
        dsimp only at hasks
        rw [Function.update_self] at hasks
        cases hasks
        exact Or.inr rfl
      | _ =>
        -- the agent is in client code, or somewhere else where it asks for nothing
        simp [releaseStep, hidle, AgentPc.asksForSlot] at hasks
    · exact Or.inl (kept (Or.inl (by rw [hagents, Function.update_of_ne hb])))
  | agent b hs =>
    by_cases hb : a = b
    · subst hb
      cases agentMove hs with
      | noSlot c' pool hpc =>
        rw [hpc]
        dsimp only at hasks
        rw [Function.update_self] at hasks
        exact Or.inl hasks
      | pushes =>
        dsimp only at hasks
        rw [Function.update_self] at hasks
        split at hasks <;> cases hasks
      | _ =>
        dsimp only at hasks
        rw [Function.update_self] at hasks
        cases hasks
    · exact Or.inl (kept (Or.inl (agentStep_others hs hb)))
  | proc hs => exact Or.inl (kept (procStep_agents hs a))
  | control hs => exact Or.inl (kept (Or.inl (by rw [(controlStep_frame hs).1.agents])))
  | controlAct act _ hs => exact Or.inl (kept (Or.inl (by rw [(controlActStep_frame hs).1.agents])))
  | callbackReturns => exact Or.inl hasks
  | wakeProc => exact Or.inl hasks
  | wakeAgent b =>
    rw [asks_update (AgentPc.asksForSlot_wake _)] at hasks
    exact Or.inl hasks

/-- A number is given with a slot, to an agent that asks for one. -/
lemma step_next (hs : step cfg s act = some s') :
    s'.nextSubmission = s.nextSubmission ∧ s'.tickets = s.tickets ∨
      ∃ a c i, (s.agents a).asksForSlot = some c ∧
        s'.nextSubmission = s.nextSubmission + 1 ∧
        s'.tickets = Function.update s.tickets s.nextSubmission ⟨c, a, i⟩ := by
  cases stepBy hs with
  | client a act _ hs =>
    cases clientMove hs <;> exact Or.inl ⟨rfl, rfl⟩
  | agent a hs =>
    cases agentMove hs with
    | takes c i pool hpc => exact Or.inr ⟨a, c, i, by rw [hpc]; rfl, rfl, rfl⟩
    | _ => exact Or.inl ⟨rfl, rfl⟩
  | proc hs =>
    have hf := procStep_frame hs
    exact Or.inl ⟨hf.nextSubmission, hf.tickets⟩
  | control hs =>
    have hf := (controlStep_frame hs).1
    exact Or.inl ⟨hf.nextSubmission, hf.tickets⟩
  | controlAct act _ hs =>
    have hf := (controlActStep_frame hs).1
    exact Or.inl ⟨hf.nextSubmission, hf.tickets⟩
  | callbackReturns => exact Or.inl ⟨rfl, rfl⟩
  | wakeProc | wakeAgent a => exact Or.inl ⟨rfl, rfl⟩

/-! ### The accounts over a run -/

/-- The calls that an agent has made have been accepted, or refused, or it is about one of
them. -/
lemma accounted {ok : State D W → Action → Prop} {pool : PoolAllocator} {capacity : ℕ}
    {memory : ℕ → WorkItem} {world : W} {acts : List Action}
    (hc : c.withCallback.isSome = true)
    (h : Trace (step cfg) ok (State.init pool capacity memory world) acts s) :
    acts.count (.client a (.submit c)) = s.refused a c + s.accepted a c + s.asking a c := by
  induction h with
  | nil => rfl
  | snoc _ _ hs ih =>
    rw [List.count_append, ih, List.count_singleton]
    cases step_account (a := a) hc hs with
    | begins hact hrefused haccepted hasking hasking' =>
      rw [hact, beq_self_eq_true, if_pos rfl]
      omega
    | accepts hact hrefused haccepted hasking hasking'
    | refuses hact hrefused haccepted hasking hasking' =>
      rw [if_neg (by simpa using hact)]
      omega
    | same hact hrefused haccepted hasking =>
      rw [if_neg (by simpa using hact)]
      omega

end LaminaFS
