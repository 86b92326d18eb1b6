/-
# A callback that submits may wait for itself

`push` waits while the queue is full, and the processing thread is the only one that makes room
in it.  A callback runs on the processing thread: if it submits while the queue is full then it
waits for ever.  That takes an item for every place in the queue, the item whose callback runs
and the item that the callback submits, and so it takes a pool with at least two slots more
than the queue has places.  With such a pool it happens.
-/
import LaminaFS.Context.Undisturbed

namespace LaminaFS

open Transition

variable {D W : Type} {cfg : Config D W} {s s' : State D W} {a : Agent} {act : Action}

/-- The item that the agent is pushing. -/
def AgentPc.pushing : AgentPc → Option ItemPtr
  | .pushTest _ p | .pushLock _ p => some p
  | _ => none

/-- The processing thread is in a callback whose client code waits in `push` on a full queue. -/
def State.BlockedInCallback (s : State D W) : Prop :=
  s.proc.isInCallback = true ∧ (s.agents .callback).pushing.isSome = true ∧ s.ring.full = true

instance (s : State D W) : Decidable s.BlockedInCallback :=
  inferInstanceAs (Decidable (_ ∧ _ ∧ _))

@[simp] lemma AgentPc.pushing_wake (pc : AgentPc) : pc.wake.pushing = pc.pushing := by
  cases pc <;> rfl

@[simp] lemma ProcPc.isInCallback_wake (pc : ProcPc D W) :
    pc.wake.isInCallback = pc.isInCallback := by
  cases pc <;> rfl

lemma ProcPc.exists_inCallback {pc : ProcPc D W} (h : pc.isInCallback = true) :
    ∃ q, pc = .inCallback q := by
  cases pc <;> first | exact ⟨_, rfl⟩ | cases h

/-! ### Once it waits, it waits for ever -/

/-- A push on a full queue goes on waiting. -/
lemma pushing_step (hs : agentStep cfg s a = some s') (hfull : s.ring.full = true)
    (hpush : (s.agents a).pushing.isSome = true) : (s'.agents a).pushing.isSome = true := by
  cases agentMove hs with
  | seesRoom c p _ hroom =>
    rw [hfull] at hroom
    cases hroom
  | pushes c p _ hdone =>
    rw [RingBuffer.push_done, hfull] at hdone
    cases hdone
  | findsFull c p =>
    dsimp only
    rw [Function.update_self]
    rfl
  | _ =>
    rw [‹s.agents a = _›] at hpush
    cases hpush

/-- The processing thread stays in the callback while the code in it has not returned. -/
lemma inCallback_stays (hctl : ControlInv s) (hproc : s.proc.isInCallback = true)
    (hbusy : s.agents .callback ≠ .idle) (hs : step cfg s act = some s') :
    s'.proc.isInCallback = true := by
  obtain ⟨q, hpc⟩ := ProcPc.exists_inCallback hproc
  have hact : act ≠ .proc := by
    rintro rfl
    simp [step, procStep, hpc] at hs
  rcases step_proc hs hact with hp | hp | ⟨hstart, -⟩ | ⟨-, -, hidle, -⟩
  · rwa [hp]
  · rwa [hp, ProcPc.isInCallback_wake]
  · have hexited := hctl.exited_of_start hstart
    rw [hpc] at hexited
    cases hexited
  · exact absurd hidle hbusy

/-- Whatever the others do, the code in the callback goes on waiting. -/
lemma blocked_step (hctl : ControlInv s) (h : s.BlockedInCallback)
    (hs : step cfg s act = some s') : s'.BlockedInCallback := by
  obtain ⟨hproc, hpush, hfull⟩ := h
  have hbusy : s.agents .callback ≠ .idle := fun hidle => by
    rw [hidle] at hpush
    cases hpush
  refine ⟨inCallback_stays hctl hproc hbusy hs, ?_, ?_⟩
  · by_cases hact : act = .agent .callback
    · subst hact
      exact pushing_step hs hfull hpush
    · rcases step_agents hs hact with hb | hb | ⟨hidle, -⟩
      · rwa [hb]
      · rwa [hb, AgentPc.pushing_wake]
      · exact absurd hidle hbusy
  · cases step_queue hs with
    | same hring => rwa [hring]
    | push _ _ _ _ _ hroom _ =>
      rw [hfull] at hroom
      cases hroom
    | pop _ hpc _ =>
      obtain ⟨q, hp⟩ := ProcPc.exists_inCallback hproc
      rw [hp] at hpc
      cases hpc

/-! ### What it takes -/

/-- The items in the queue, the one whose callback runs and the one that the callback pushes all
have slots of their own. -/
lemma capacity_of_blocked {capacity : ℕ} (hk : Accounted cfg s) (hq : QueueInv capacity s)
    (h : s.BlockedInCallback) : capacity + 2 ≤ s.pool.capacity := by
  obtain ⟨hproc, hpush, hfull⟩ := h
  obtain ⟨q, hpc⟩ := ProcPc.exists_inCallback hproc
  obtain ⟨p, hrole⟩ : ∃ p, s.ledger.role .callback = .building p := by
    show ∃ p, (s.agents .callback).role = _
    cases hp : s.agents .callback <;> rw [hp] at hpush <;> first | exact ⟨_, rfl⟩ | cases hpush
  have hcalled : s.ledger.stage q.submission = .called := by
    have hfits := fits_of_hand hk.ledger (show s.proc.hand = .after q by rw [hpc]; rfl)
    exact hfits.2
  have hbuilding := (hk.ledger.building _ p hrole).2.1
  have hqueue : s.ledger.queue.length = capacity := by
    rw [hq.length_ledger, ← RingBuffer.length_contents, (RingBuffer.full_iff hq.ring).mp hfull,
      hq.capacity]
  have hqueued (g : ℕ) (hg : g ∈ s.ledger.queue.map Handoff.Ptr.submission) :
      s.ledger.stage g = .queued := by
    obtain ⟨r, hr, rfl⟩ := List.mem_map.mp hg
    exact (hk.ledger.queue r hr).2
  have hnodup : (p.submission :: q.submission ::
      s.ledger.queue.map Handoff.Ptr.submission).Nodup := by
    rw [List.nodup_cons, List.nodup_cons, List.mem_cons]
    refine ⟨?_, fun hmem => ?_, hk.ledger.nodup_queue⟩
    · rintro (he | hmem)
      · rw [he, hcalled] at hbuilding
        cases hbuilding
      · rw [hqueued _ hmem] at hbuilding
        cases hbuilding
    · rw [hqueued _ hmem] at hcalled
      cases hcalled
  have hlive : ∀ g ∈ p.submission :: q.submission ::
      s.ledger.queue.map Handoff.Ptr.submission, (s.ledger.stage g).isLive = true := by
    intro g hg
    rcases List.mem_cons.mp hg with rfl | hg
    · rw [hbuilding]
      rfl
    rcases List.mem_cons.mp hg with rfl | hg
    · rw [hcalled]
      rfl
    · rw [hqueued g hg]
      rfl
  have hle := hk.ledger.length_le_of_live hnodup hlive (n := s.pool.capacity) fun g hg => by
    refine hk.own.slot_lt g fun hst => ?_
    have hl := hlive g hg
    rw [show s.ledger.stage g = _ from hst] at hl
    cases hl
  rwa [List.length_cons, List.length_cons, List.length_map, hqueue] at hle

/-! ### How it happens -/

/-- The call that the run below is made of. -/
def existsCall : Call := ⟨.fileExists, [slash], some ⟨0, .doNotFreeBuffer, 0⟩⟩

/-- The processing thread is in a callback, nobody does anything, and `k` items are queued. -/
structure Piling (n capacity k : ℕ) (s : State D W) : Prop where
  proc : s.proc.isInCallback = true
  agents : ∀ a, s.agents a = .idle
  control : s.control = .idle
  ring : s.ring.WF
  capacity : s.ring.capacity = capacity
  queue : s.ring.contents.length = k
  free : s.pool.FreeFrom (k + 1) n

lemma acts_of_idle (hidle : s.agents a = .idle) (hcontrol : s.control = .idle)
    (ha : a = .callback → s.proc.isInCallback = true) : s.acts a = true := by
  simp only [State.acts, hidle, hcontrol, beq_self_eq_true, Bool.true_and, Bool.and_eq_true,
    Bool.or_eq_true, bne_iff_ne, ControlPc.isDestroyed, Bool.not_false, and_true]
  by_cases h : a = .callback
  · exact Or.inr (ha h)
  · exact Or.inl h

variable (cfg) in
/-- A submission of an agent in client code comes to the push. -/
lemma submits_to_push {j n : ℕ} (hacts : s.acts a = true) (hfree : s.pool.FreeFrom j n)
    (hj : j < n) (c : Call) : ∃ s' p, Reach (step cfg) TestsOwn s s' ∧ Beside a s s' ∧
      s'.ring = s.ring ∧ s'.pool.FreeFrom (j + 1) n ∧ s'.agents a = .pushTest c p ∧
      s'.slots p.slot = (c.plan cfg.contextAlloc).built ∧ s'.occupant p.slot = p.submission := by
  have h₁ : step cfg s (.client a (.submit c)) =
      some { s with agents := Function.update s.agents a (.alloc c) } := by
    simp [step, hacts, clientStep]
  have hbegins : Beside a s { s with agents := Function.update s.agents a (.alloc c) } :=
    ⟨fun b hb => Function.update_of_ne hb _ _, rfl, rfl, rfl, rfl⟩
  obtain ⟨s', hr, hside, hring, hpool, hpc, hslot, hocc⟩ := @fills _ _ cfg
    { s with agents := Function.update s.agents a (.alloc c) } a c j n
    (Function.update_self _ _ _) hfree hj
  exact ⟨s', _, .trans (.tail .refl (testsOwn_of_ne (by simp)) h₁) hr, hbegins.trans hside,
    hring, hpool, hpc, hslot, hocc⟩

variable (cfg) in
/-- A submission of an agent in client code, with a free slot and room in the queue. -/
lemma submission_runs {j n : ℕ} (hacts : s.acts a = true) (hfree : s.pool.FreeFrom j n)
    (hj : j < n) (hwf : s.ring.WF) (hroom : s.ring.full = false)
    (hawake : s.proc.wake = s.proc) : ∃ s' p, Reach (step cfg) TestsOwn s s' ∧ Beside a s s' ∧
      s'.agents a = .idle ∧ s'.ring.WF ∧ s'.ring.capacity = s.ring.capacity ∧
      s'.ring.contents = s.ring.contents ++ [some p] ∧ s'.pool.FreeFrom (j + 1) n ∧
      s'.slots p.slot = (existsCall.plan cfg.contextAlloc).built ∧
      s'.occupant p.slot = p.submission := by
  obtain ⟨t, p, hr, hside, hring, hpool, hpc, hslot, hocc⟩ :=
    submits_to_push cfg hacts hfree hj existsCall
  rw [← hring] at hwf hroom
  have hawake' : t.proc.wake = t.proc := by rw [hside.proc, hawake]
  obtain ⟨s', hr', hside', hidle, hring', hpool', hslots', hocc'⟩ :=
    pushes cfg hpc rfl hroom hawake'
  refine ⟨s', p, hr.trans hr', hside.trans hside', hidle, ?_, ?_, ?_, ?_, ?_, ?_⟩
  · rw [hring']
    exact RingBuffer.wf_push hwf _
  · rw [hring', RingBuffer.push_capacity, hring]
  · rw [hring', RingBuffer.contents_push hwf hroom, hring]
  · rwa [hpool']
  · rw [hslots', hslot]
  · rw [hocc', hocc]

section Runs

variable {storage size n capacity : ℕ} {memory : ℕ → WorkItem} {world : W}

/-- The first item is executed, and its callback is called. -/
lemma piling_zero (hcapacity : 1 ≤ capacity) (hn : 1 ≤ n) :
    ∃ s, Reach (step cfg) TestsOwn
      (State.init (.new storage size n) capacity memory world) s ∧ Piling n capacity 0 s := by
  let s₀ : State D W := State.init (.new storage size n) capacity memory world
  have hfree : s₀.pool.FreeFrom 0 n := fun i => by
    rw [show s₀.pool = .new storage size n from rfl, PoolAllocator.isFree_new]
    simp
  obtain ⟨s₁, p, hr₁, hside, hidle, hwf, hcap, hqueue, hpool, hslot, hocc⟩ :=
    submission_runs cfg (a := .client 0) (s := s₀)
      (acts_of_idle rfl rfl fun h => by cases h) hfree hn (RingBuffer.wf_new _ hcapacity) rfl rfl
  rw [show s₀.ring.contents = [] from RingBuffer.contents_new _ _, List.nil_append] at hqueue
  have hop : (s₁.slots p.slot).operation = .opExists := by
    rw [hslot]
    rfl
  have hcallback : (s₁.slots p.slot).callback.isSome = true := by
    rw [hslot]
    rfl
  obtain ⟨s₂, hr₂, hahead, hcomplete, hring, hkept⟩ :=
    executes cfg hside.proc hside.processing hside.mounts hwf hqueue hop
  obtain ⟨s₃, hr₃, hahead', hin, hring'⟩ :=
    invokes cfg hcomplete (hkept ▸ hcallback) (by rw [hahead.occupant, hocc])
  refine ⟨s₃, (hr₁.trans hr₂).trans hr₃, ?_, fun b => ?_, ?_, ?_, ?_, ?_, ?_⟩
  · rw [hin]
    rfl
  · rw [hahead'.agents, hahead.agents]
    by_cases hb : b = .client 0
    · rw [hb, hidle]
    · rw [hside.agents b hb]
      rfl
  · rw [hahead'.control, hahead.control, hside.control]
    rfl
  · rw [hring', hring]
    exact RingBuffer.wf_pop hwf _
  · rw [hring', hring, RingBuffer.pop_capacity, hcap]
    rfl
  · have hlength := congrArg List.length
      (RingBuffer.pop_of_ne_nil hwf (by rw [hqueue]; simp) none)
    rw [hqueue, List.length_cons, List.length_cons, List.length_nil] at hlength
    rw [hring', hring]
    exact (Nat.succ.inj hlength).symm
  · rw [hahead'.pool, hahead.pool]
    exact hpool

variable (cfg) in
/-- There is one more item in the queue. -/
lemma piling_succ {k : ℕ} (h : Piling n capacity k s) (hk : k < capacity) (hn : k + 1 < n) :
    ∃ s', Reach (step cfg) TestsOwn s s' ∧ Piling n capacity (k + 1) s' := by
  have hroom : s.ring.full = false := by
    rw [Bool.eq_false_iff, Ne, RingBuffer.full_iff h.ring, h.queue, h.capacity]
    omega
  obtain ⟨q, hpc⟩ := ProcPc.exists_inCallback h.proc
  obtain ⟨s', p, hr, hside, hidle, hwf, hcap, hqueue, hpool, -, -⟩ :=
    submission_runs cfg (a := .client 0)
      (acts_of_idle (h.agents _) h.control fun hc => by cases hc) h.free hn h.ring hroom
      (by rw [hpc]; rfl)
  refine ⟨s', hr, ?_, fun b => ?_, ?_, hwf, ?_, ?_, hpool⟩
  · rw [hside.proc]
    exact h.proc
  · by_cases hb : b = .client 0
    · rw [hb, hidle]
    · rw [hside.agents b hb, h.agents]
  · rw [hside.control, h.control]
  · rw [hcap, h.capacity]
  · rw [hqueue, List.length_append, h.queue]
    rfl

variable (cfg storage size memory world) in
/-- The queue fills up while the callback runs. -/
lemma piling {k : ℕ} (hcapacity : 1 ≤ capacity) (hk : k ≤ capacity) (hn : k < n) :
    ∃ s, Reach (step cfg) TestsOwn
      (State.init (.new storage size n) capacity memory world) s ∧ Piling n capacity k s := by
  induction k with
  | zero => exact piling_zero hcapacity hn
  | succ k ih =>
    obtain ⟨s, hr, hs⟩ := ih (by omega) (by omega)
    obtain ⟨s', hr', hs'⟩ := piling_succ cfg hs hk hn
    exact ⟨s', hr.trans hr', hs'⟩

/-- The callback submits when the queue is full. -/
lemma reaches_blocked (hcapacity : 1 ≤ capacity) (hn : capacity + 2 ≤ n) :
    ∃ s, Reach (step cfg) TestsOwn
      (State.init (.new storage size n) capacity memory world) s ∧ s.BlockedInCallback := by
  obtain ⟨s, hr, hs⟩ :=
    piling cfg storage size memory world (n := n) hcapacity (Nat.le_refl _) (by omega)
  obtain ⟨s', p, hr', hside, hring, -, hpc, -, -⟩ :=
    submits_to_push cfg (a := .callback)
      (acts_of_idle (hs.agents _) hs.control fun _ => hs.proc) hs.free (by omega) existsCall
  refine ⟨s', hr.trans hr', ?_, ?_, ?_⟩
  · rw [hside.proc]
    exact hs.proc
  · rw [hpc]
    rfl
  · rw [hring, RingBuffer.full_iff hs.ring, hs.queue, hs.capacity]

/-- **Waiting for oneself.**  In runs whose steps all test the right `_callback`, a callback
comes to wait in `push` on a full queue exactly if the pool has at least two slots more than the
queue has places.  In any run at all, a callback that has come to wait there does not get on any
more. -/
theorem callback_blocks_iff (hstorage : 0 < storage) (hsize : 0 < size)
    (hcapacity : 1 ≤ capacity) :
    ((∃ s, Reach (step cfg) TestsOwn
        (State.init (.new storage size n) capacity memory world) s ∧ s.BlockedInCallback) ↔
      capacity + 2 ≤ n) ∧
    ∀ s s', Reach (step cfg) Free (State.init (.new storage size n) capacity memory world) s →
      s.BlockedInCallback → Reach (step cfg) Free s s' → s'.BlockedInCallback := by
  refine ⟨⟨?_, reaches_blocked hcapacity⟩, ?_⟩
  · rintro ⟨s, hr, hs⟩
    have hk := (refines_handoff (PoolAllocator.wf_new n hstorage hsize) hcapacity
      (fun _ _ hok => hok) hr).1
    have hle := capacity_of_blocked hk (queueInv hcapacity hr) hs
    rwa [pool_capacity hr] at hle
  · intro s s' hr hs hr'
    have hctl (t : State D W) (ht : Reach (step cfg) Free s t) : ControlInv t :=
      controlInv (hr.trans ht)
    exact hr'.invariant_of hctl hs fun _ _ _ hctl hb _ hstep => blocked_step hctl hb hstep

end Runs

/-- With one place in the queue and three slots, all of it happens. -/
theorem callback_blocks_iff_three :
    (∃ s, Reach (step smallConfig) TestsOwn
      (State.init (.new 1 1 3) 1 (fun _ => .new) ()) s ∧ s.BlockedInCallback) ∧
    ∀ s s', Reach (step smallConfig) Free (State.init (.new 1 1 3) 1 (fun _ => .new) ()) s →
      s.BlockedInCallback → Reach (step smallConfig) Free s s' → s'.BlockedInCallback := by
  obtain ⟨hiff, hstays⟩ := @callback_blocks_iff _ _ smallConfig 1 1 3 1 (fun _ => .new) ()
    (by decide) (by decide) (by decide)
  exact ⟨hiff.mpr (by decide), hstays⟩

/-- The queue has one place.  While a callback runs a client fills it, and then the callback
submits. -/
theorem callback_waits_for_itself :
    ∃ s, Reach (step smallConfig) Free (State.init (.new 1 1 3) 1 (fun _ => .new) ()) s ∧
      s.BlockedInCallback := by
  obtain ⟨s, hs, hp⟩ := @Reach.of_run_any _ _ (step smallConfig)
    (State.init (.new 1 1 3) 1 (fun _ => .new) ())
    (submits 0 existsCall 14 ++ List.replicate 8 .proc ++ submits 1 existsCall 14 ++
      .client .callback (.submit existsCall) :: List.replicate 9 (.agent .callback))
    (fun s => decide s.BlockedInCallback) (by decide +kernel)
  exact ⟨s, hs, of_decide_eq_true hp⟩

/-- Two slots are enough when the `_callback` tested is that of another item: the callback is
called for a slot whose new item is in the queue already. -/
theorem blocked_of_two :
    ∃ s, Reach (step smallConfig) Free (State.init (.new 1 1 2) 1 (fun _ => .new) ()) s ∧
      s.BlockedInCallback := by
  obtain ⟨s, hs, hp⟩ := @Reach.of_run_any _ _ (step smallConfig)
    (State.init (.new 1 1 2) 1 (fun _ => .new) ())
    (submits 0 { existsCall with withCallback := none } 14 ++ List.replicate 6 .proc ++
      [.client (.client 0) (.check ⟨0, 0⟩), .client (.client 0) (.release ⟨0, 0⟩)] ++
      submits 1 existsCall 14 ++ [.proc, .proc, .client .callback (.submit existsCall)] ++
      List.replicate 9 (.agent .callback))
    (fun s => decide s.BlockedInCallback) (by decide +kernel)
  exact ⟨s, hs, of_decide_eq_true hp⟩

end LaminaFS
