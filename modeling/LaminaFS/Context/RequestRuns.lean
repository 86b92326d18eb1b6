/-
# Runs follow the requests

The item in the queue is as its call asks for, or is going to be; the processing thread, once
it has looked for a mutable mount with the finished item, goes on with what the call asks for.
A step lemma and a run lemma put this together, and a run of `writeFile` shows that the
condition on the runs is needed.
-/
import LaminaFS.Context.Requests

namespace LaminaFS

open Transition

variable {D W : Type} {cfg : Config D W} {s s' : State D W} {g : ℕ} {act : Action}

/-! ### The step lemma -/

lemma built_eq_item (h : (s.tickets g).call.pushedOperation = (s.tickets g).call.operation) :
    (s.plan cfg g).built = s.item cfg g := by
  rw [State.plan, Call.built_eq, h, ← Call.item_operation cfg.contextAlloc]
  rfl

lemma late_ne_nil (h : (s.tickets g).call.pushedOperation ≠ (s.tickets g).call.operation) :
    (s.plan cfg g).late.isEmpty = false := by
  rw [State.plan, Call.late_eq_if, if_neg h]
  rfl

/-- An item that has just been pushed. -/
lemma asked_of_push (htickets : s'.tickets g = s.tickets g)
    (hrecord : s'.record g = (s.plan cfg g).built)
    (hpc : s'.agents (s.tickets g).agent =
        .notify (s.tickets g).call ⟨(s.tickets g).slot, g⟩ ∨
      s'.agents (s.tickets g).agent =
        .late (s.tickets g).call ⟨(s.tickets g).slot, g⟩ (s.plan cfg g).late) :
    s'.Asked cfg g := by
  by_cases hop : (s.tickets g).call.pushedOperation = (s.tickets g).call.operation
  · left
    rw [hrecord, built_eq_item hop, State.item, State.item, htickets]
  · right
    have hlate := @late_ne_nil _ _ cfg _ _ hop
    refine ⟨by rw [hrecord, State.plan, State.plan, htickets], ?_⟩
    unfold State.Owes
    rw [htickets]
    rcases hpc with hpc | hpc <;> rw [hpc]
    · simpa [AgentPc.owesStore, State.plan] using hlate
    · simpa [AgentPc.owesStore] using hlate

/-- An event stays one that the call asks for. -/
lemma Event.Follows.keep {ev : Event} (h : ev.Follows cfg s)
    (htickets : ∀ g ∈ ev.worksFor, s'.tickets g = s.tickets g) : ev.Follows cfg s' := by
  cases ev with
  | searched g op path =>
    simp only [Follows, State.path, htickets g rfl] at h ⊢
    exact h
  | deviceCall g handle prefixStr call =>
    simp only [Follows, State.path, htickets g rfl] at h ⊢
    exact h
  | _ => trivial

lemma Event.follows_of_worksFor {ev : Event} (h : ev.worksFor = none) : ev.Follows cfg s := by
  cases ev <;> trivial

namespace RequestInv

/-- The search for a mutable mount finds the item finished. -/
lemma not_owes (hk : Accounted cfg s) (hok : SearchesSettled cfg s act) (hact : act = .proc)
    {p : ItemPtr} {e : ExecPc D W} (hpc : s.proc = .exec p e) (m : Mutation)
    (hm : e = .findMutable m) : ¬ s.Owes cfg p.submission := by
  have hno := hok hact p (by rw [hpc, hm]; rfl)
  have hp : (⟨(s.tickets p.submission).slot, p.submission⟩ : ItemPtr) = p :=
    Handoff.Ptr.ext (hk.executing_hand hpc).1.symm rfl
  rw [State.Owes, hp, hno]
  simp

/-- The queue. -/
lemma step_queued (h : RequestInv cfg s) (hk : Accounted cfg s) (hk' : Accounted cfg s')
    (hok : TestsOwn s act) (hs : step cfg s act = some s') (hst' : s'.stage g = .queued) :
    s'.Asked cfg g := by
  rcases hk.stage_next hok hs g with hsame | hnext
  · have hst : s.stage g = .queued := hsame.symm.trans hst'
    obtain ⟨htickets, ht⟩ := touched_of_step hk.own hk.ledger hk'.ledger hs (g := g)
      (by rw [hst]; rfl) (by rw [hst']; rfl) (by rw [hst']; rfl) (by
        -- what is executed is not queued
        rintro - p e hpc rfl
        have hworking := (hk.executing_hand hpc).2
        rw [hst] at hworking
        cases hworking)
    exact Asked.touched (h.queued g hst) ht htickets
  · rw [hst'] at hnext
    have hst : s.stage g = .building := by
      cases hb : s.stage g <;> rw [hb] at hnext <;> first | rfl | cases hnext
    have hnot : ¬ s.Posted g := fun hposted => hposted.ne_building hst
    have hborn' : s'.stage g ≠ .unborn := by rw [hst']; simp
    have hocc' : s'.Occupies g :=
      OwnInv.occupies_of_live hk'.ledger (by rw [hst']; rfl)
    cases hk.own.record_step hk.ledger hs hborn' hocc' with
    | posted _ _ _ hrecord hpc =>
      exact asked_of_push (OwnInv.step_tickets hk.ledger hs (by rw [hst]; simp)) hrecord hpc
    | taken _ hstage | filled _ hstage =>
      rw [hstage] at hst'
      cases hst'
    | same _ _ hposted _ _ =>
      rw [hst, hst'] at hposted
      cases hposted
    | executing _ _ _ _ _ _ hstage _ =>
      rw [hstage] at hst
      cases hst
    | late hposted _ _ _ _ | completed hposted _ _ | freed hposted _ _ _ =>
      exact absurd hposted hnot

/-- The execution. -/
lemma step_executing (h : RequestInv cfg s) (hk : Accounted cfg s) (hk' : Accounted cfg s')
    (hok : SearchesSettled cfg s act) (hs : step cfg s act = some s') {p : ItemPtr}
    {e : ExecPc D W} (hpc' : s'.proc = .exec p e) : e.Follows cfg s' p.submission := by
  obtain ⟨-, hst'⟩ := hk'.executing_hand hpc'
  -- an item that the step does not execute
  have hother (hposted : (s.stage p.submission).isPosted = true)
      (hne : act = .proc → ∀ q e', s.proc = .exec q e' → q.submission ≠ p.submission) :
      s'.tickets p.submission = s.tickets p.submission ∧ Touched cfg s s' p.submission :=
    touched_of_step hk.own hk.ledger hk'.ledger hs hposted (by rw [hst']; rfl)
      (by rw [hst']; rfl) hne
  cases comesTo hk.own.ring hs hpc' with
  | fetched hact hpc he hstage hqueue =>
    have hst : s.stage p.submission = .queued :=
      (hk.ledger.queue p (List.mem_filterMap.mpr ⟨_, hqueue, rfl⟩)).2
    obtain ⟨htickets, ht⟩ := hother (by rw [hst]; rfl) (by
      intro _ q e' hexec
      rw [hpc] at hexec
      cases hexec)
    rw [he]
    exact Asked.touched (h.queued _ hst) ht htickets
  | continued q e' hact hpc hexec =>
    obtain ⟨hp, hfollows⟩ := (exec_follows hk.own (hk.executing_hand hpc).1
      (h.executing q e' hpc) (not_owes hk hok hact hpc) hexec).next p e hpc'
    rw [hp]
    exact hfollows
  | stayed hact hpc =>
    have hst := (hk.executing_hand hpc).2
    obtain ⟨htickets, ht⟩ := hother (by rw [hst]; rfl) fun ha => absurd ha hact
    exact (h.executing p e hpc).touched ht htickets

/-- The record. -/
lemma step_events (h : RequestInv cfg s) (hk : Accounted cfg s) (hok : FollowsRequests cfg s act)
    (hs : step cfg s act = some s') (ev : Event) (hev : ev ∈ s'.log) :
    ev.Follows cfg s' ∧ ∀ g ∈ ev.worksFor, s'.stage g ≠ .unborn := by
  have hold (hmem : ev ∈ s.log) :
      ev.Follows cfg s' ∧ ∀ g ∈ ev.worksFor, s'.stage g ≠ .unborn := by
    obtain ⟨hfollows, hborn⟩ := h.events ev hmem
    refine ⟨hfollows.keep fun g hg => OwnInv.step_tickets hk.ledger hs (hborn g hg),
      fun g hg hst => hborn g hg ?_⟩
    rcases hk.stage_next hok.1 hs g with hsame | hnext
    · rw [← hsame, hst]
    · rw [hst] at hnext
      generalize s.stage g = st at hnext
      cases hnext
  cases step_log hs with
  | same hlog => exact hold (hlog ▸ hev)
  | other ev' hlog hworks _ =>
    rw [hlog, List.mem_cons] at hev
    rcases hev with rfl | hmem
    · exact ⟨Event.follows_of_worksFor hworks, fun g hg => by rw [hworks] at hg; cases hg⟩
    · exact hold hmem
  | exec p e hact hpc hexec =>
    obtain ⟨hslot, hst⟩ := hk.executing_hand hpc
    rcases (exec_follows hk.own hslot (h.executing p e hpc) (not_owes hk hok.2 hact hpc)
      hexec).events with hlog | ⟨ev', hlog, hfollows, hworks⟩
    · exact hold (hlog ▸ hev)
    · rw [hlog, List.mem_cons] at hev
      rcases hev with rfl | hmem
      · refine ⟨hfollows, fun g hg => ?_⟩
        rw [hworks] at hg
        cases hg
        rw [(execStep_frame hexec).stage, hst]
        simp
      · exact hold hmem

/-- **The step lemma.** -/
theorem step (h : RequestInv cfg s) (hk : Accounted cfg s) (hok : FollowsRequests cfg s act)
    (hs : step cfg s act = some s') : RequestInv cfg s' :=
  have hk' := hk.step hok.1 hs
  ⟨fun _ => h.step_queued hk hk' hok.1 hs, fun _ _ => h.step_executing hk hk' hok.2 hs,
    h.step_events hk hok hs⟩

end RequestInv

/-! ### Runs -/

section Runs

variable {pool : PoolAllocator} {capacity : ℕ} {memory : ℕ → WorkItem} {world : W}

/-- What the processing thread has searched for and what it has called is what the calls ask
for. -/
structure Followed (cfg : Config D W) (s : State D W) : Prop where
  /-- a mount is looked for under the operation and the normalised path of the call -/
  searched : ∀ g op path, .searched g op path ∈ s.log →
    op = (s.tickets g).call.operation ∧ path = normalizePath (s.tickets g).call.path
  /-- a device function is called with the arguments of the call, and with the path under the
  mount -/
  called : ∀ g handle prefixStr call, .deviceCall g handle prefixStr call ∈ s.log →
    call = (s.tickets g).call.deviceCall cfg.contextAlloc
      (relativePath prefixStr (normalizePath (s.tickets g).call.path))

/-- **Requests.**  In every state of a run in which the processing thread tests the right
`_callback`, and looks for a mutable mount only with finished items, all it has searched for
and all device functions it has called are as the calls ask. -/
theorem requests_followed (hpool : pool.WF) (hcapacity : 1 ≤ capacity)
    (h : Reach (step cfg) (FollowsRequests cfg) (State.init pool capacity memory world) s) :
    Followed cfg s := by
  have hinit : RequestInv cfg (State.init pool capacity memory world) :=
    ⟨fun g hst => (by cases hst), fun p e hpc => (by cases hpc), fun ev hev => (by cases hev)⟩
  have hinv : RequestInv cfg s := h.invariant_of
    (fun t ht => (refines_handoff hpool hcapacity (fun _ _ hok => hok.1) ht).1) hinit
    fun _ _ _ hk hi hok hs => hi.step hk hok hs
  exact ⟨fun g op path hev => (hinv.events _ hev).1,
    fun g handle prefixStr call hev => (hinv.events _ hev).1⟩

end Runs

/-- A context with one device type, whose devices write. -/
def writingConfig : Config Unit Unit :=
  ⟨[{ DeviceInterface.empty with writeFile := some fun _ _ _ _ _ _ w => (⟨0, some .ok⟩, w) }],
    ⟨0⟩⟩

/-- `writeFile` is done when its item is executed, and the file is truncated. -/
theorem requests_followed_truncate :
    ∃ s, Reach (step writingConfig) (FollowsRequests writingConfig) smallInit s ∧
      .deviceCall 0 1 [slash] (.writeFile [slash, 97] 0 none 0 .truncate) ∈ s.log ∧
      Followed writingConfig s := by
  obtain ⟨s, hs, hp⟩ := @Reach.of_guardedRun_any _ _ (step writingConfig)
    (FollowsRequests writingConfig) smallInit
    (fun s act => decide (FollowsRequests writingConfig s act)) (fun _ _ => of_decide_eq_true)
    (mountsRoot ++ submits 0 ⟨.writeFile none 0, [slash, 97], none⟩ 18 ++ List.replicate 9 .proc)
    (fun s => .deviceCall 0 1 [slash] (.writeFile [slash, 97] 0 none 0 .truncate) ∈ s.log)
    (by decide +kernel)
  refine ⟨s, hs, of_decide_eq_true hp, ?_⟩
  exact requests_followed (PoolAllocator.wf_new 2 (by decide) (by decide)) (by decide) hs

/-- The item of `writeFile` is executed before the function has assigned the operation: the
device is asked to write a segment. -/
theorem writeFile_not_followed :
    ∃ s, Reach (step writingConfig) Free smallInit s ∧ ¬ Followed writingConfig s ∧
      (s.tickets 0).call = ⟨.writeFile none 0, [slash, 97], none⟩ ∧
      .searched 0 .opWriteSegment [slash, 97] ∈ s.log ∧
      .deviceCall 0 1 [slash] (.writeFile [slash, 97] 0 none 0 .segment) ∈ s.log := by
  obtain ⟨s, hs, hp⟩ := @Reach.of_run_any _ _ (step writingConfig) smallInit
    (mountsRoot ++ submits 0 ⟨.writeFile none 0, [slash, 97], none⟩ 14 ++ List.replicate 9 .proc)
    (fun s => decide ((s.tickets 0).call = ⟨.writeFile none 0, [slash, 97], none⟩ ∧
      .searched 0 .opWriteSegment [slash, 97] ∈ s.log ∧
      .deviceCall 0 1 [slash] (.writeFile [slash, 97] 0 none 0 .segment) ∈ s.log))
    (by decide +kernel)
  rw [decide_eq_true_eq] at hp
  refine ⟨s, hs, fun hfollowed => ?_, hp⟩
  have hop := (hfollowed.searched _ _ _ hp.2.1).1
  rw [hp.1] at hop
  cases hop

end LaminaFS
