/-
# What is accepted is executed at last

In an endless run with a fair scheduler, in which callbacks return, every item that has been
pushed is executed at last, unless a null pointer is called, as long as the context keeps
processing.

The lock that a search for a mutable mount takes is given to a thread that waits for it only if
the scheduler is strongly fair to the processing thread: otherwise `createMount` could take it
every time.
-/
import LaminaFS.Context.Answers
import LaminaFS.Context.Completion
import LaminaFS.Context.Drain
import LaminaFS.Context.Round
import LaminaFS.Lib.HandoffOrder

namespace LaminaFS

open Transition

variable {D W : Type} {cfg : Config D W} {ok : State D W → Action → Prop} {s s' s₀ : State D W}
  {act : Action} {g : ℕ}

/-- The steps of the runs that are looked at: the counter of the semaphore does not wrap around,
and no client releases an item too early. -/
def Regular (s : State D W) (act : Action) : Prop := NoOverflow s act ∧ ReleasesLate s act

instance (s : State D W) : DecidablePred (Regular s) :=
  fun _ => inferInstanceAs (Decidable (_ ∧ _))

/-- The scheduler is fair, and callbacks return. -/
structure Fair (r : Endless (step cfg) ok s₀) : Prop where
  agents : ∀ a, r.WeaklyFair (.agent a)
  control : r.WeaklyFair .control
  proc : r.StronglyFair .proc
  callbacks : ∀ n, ∃ m ≥ n, (r.state m).proc.isInCallback = false

/-- Fairness does not depend on the conditions that the run meets. -/
lemma Fair.weaken {ok' : State D W → Action → Prop} {r : Endless (step cfg) ok s₀}
    (hf : Fair r) (h : ∀ s act, ok s act → ok' s act) : Fair (r.weaken h) :=
  ⟨hf.agents, hf.control, hf.proc, hf.callbacks⟩

/-! ### The control thread lets go of the table -/

/-- How many steps the control thread takes until it lets go of `_mountLock`. -/
def ControlPc.holding : ControlPc D W → ℕ
  | .find _ => 3
  | .destroyDevice _ => 2
  | .erase _ | .pushBack _ => 1
  | .destroyAll rest => rest.length + 1
  | _ => 0

lemma controlStep_holding (hholds : s.control.holdsTable = true)
    (hs : controlStep cfg s = some s') :
    s'.control.holdsTable = false ∨
      s'.control.holdsTable = true ∧ s'.control.holding < s.control.holding := by
  cases controlMove hs with
  | finds handle mount hpc | destroysDevice mount hpc | erases handle hpc | destroysNone hpc
  | destroysNext mount rest hpc | pushesBack mount hpc =>
    exact Or.inr ⟨rfl, by rw [hpc]; simp [ControlPc.holding]⟩
  | findsNone handle hpc => exact Or.inr ⟨rfl, by rw [hpc]; simp [ControlPc.holding]⟩
  | unlocksRelease | unlocksDestroy | unlocksCreate => exact Or.inl rfl
  | _ =>
    rw [‹s.control = _›] at hholds
    cases hholds

lemma controlStep_enabled (hholds : s.control.holdsTable = true) :
    (step cfg s .control).isSome = true := by
  cases hpc : s.control with
  | destroyAll rest => cases rest <;> simp [step, controlStep, hpc]
  | find | destroyDevice | erase | unlockRelease | unlockDestroy | pushBack | unlockCreate =>
    simp [step, controlStep, hpc]
  | _ => rw [hpc] at hholds; cases hholds

/-- The control thread gets on by itself until it lets go of the table. -/
def tableRanking (cfg : Config D W) : Ranking (step cfg) ok (fun _ => True)
    (fun s => s.control.holdsTable = true) (fun s => s.control.holdsTable = false) ℕ where
  rank s := s.control.holding
  Helps s act := act = .control ∧ s.control.holdsTable = true
  help _ _ h := ⟨.control, rfl, h⟩
  keep s act b s' _ _ hholds hhelps _ hs := by
    obtain ⟨rfl, -⟩ := hhelps
    by_cases hb : b = .control
    · subst hb
      exact (controlStep_holding hholds hs).imp_right fun h => ⟨h.1, Or.inl h.2⟩
    · have hsame := control_stays hb (busy_of_owing rfl hholds) hs
      rw [hsame]
      exact Or.inr ⟨hholds, Or.inr ⟨hb, rfl, rfl, hholds⟩⟩

lemma table_released {r : Endless (step cfg) ok s₀} (hf : r.WeaklyFair .control) (n : ℕ) :
    ∃ m ≥ n, (r.state m).control.holdsTable = false := by
  by_cases hholds : (r.state n).control.holdsTable = true
  · refine Endless.leadsTo (tableRanking cfg) (fun _ _ => trivial) ?_ hholds
    intro m _ act hhelps
    obtain rfl := (hhelps m le_rfl).1
    exact hf m fun k hk => controlStep_enabled (hhelps k hk).2
  · exact ⟨n, le_rfl, by simpa using hholds⟩

/-! ### A round ends -/

/-- The processing thread comes to the end of its round. -/
def roundRanking (cfg : Config D W) :
    Ranking (step cfg) NoOverflow Steady InRound (fun s => s.proc.between = true) Rank where
  rank := State.rank
  Helps := Helps
  help _ hj hp := exists_helps hj hp
  keep _ _ _ _ hj _ hp hhelps hok hs := round_step hj hp hhelps hok hs

lemma agentStep_enabled {a : Agent}
    (h : (s.agents a).notifies = true ∨ (s.agents a).wakes = true) :
    (step cfg s (.agent a)).isSome = true := by
  cases hpc : s.agents a with
  | notify | notifyOne => simp [step, agentStep, hpc]
  | _ =>
    rw [hpc] at h
    rcases h with h | h <;> cases h

lemma controlStep_enabled_of_owing (h : s.control.notifies = true ∨ s.control.wakes = true) :
    (step cfg s .control).isSome = true := by
  cases hpc : s.control with
  | stopNotify | stopNotifyOne => simp [step, controlStep, hpc]
  | _ =>
    rw [hpc] at h
    rcases h with h | h <;> cases h

/-- The processing thread can go on by itself when the control thread does not hold the table. -/
lemma procStep_enabled (hlock : MountLockInv s) (hfree : s.control.holdsTable = false)
    (hpc : s.proc.proceeds s.sem = true) : (step cfg s .proc).isSome = true := by
  cases hproc : s.proc with
  | exec p e =>
    cases e with
    | lockShared m op path =>
      have hopen : s.lock = .free := by
        cases hl : s.lock with
        | free => rfl
        | shared =>
          have hholds := hlock.shared.mp hl
          rw [hproc] at hholds
          cases hholds
        | exclusive =>
          rw [hlock.exclusive.mp hl] at hfree
          cases hfree
      simp [step, procStep, execStep, hproc, hopen]
    | scanNext l path onlyAfter rest =>
      cases rest with
      | nil => simp [step, procStep, execStep, hproc]
      | cons mount rest =>
        simp only [step, procStep, execStep, hproc]
        split <;> rfl
    | scanMutable m op path rest =>
      cases rest with
      | nil => simp [step, procStep, execStep, hproc]
      | cons mount rest =>
        simp only [step, procStep, execStep, hproc]
        split <;> rfl
    | unlockShared m found => cases found <;> simp [step, procStep, execStep, hproc]
    | _ => simp [step, procStep, execStep, hproc]
  | pop =>
    simp only [step, procStep, hproc]
    split <;> rfl
  | semTest =>
    simp only [step, procStep, hproc]
    split <;> rfl
  | invoke p =>
    simp only [step, procStep, hproc]
    split <;> rfl
  | semSleep | inCallback | top | exited | crashed =>
    rw [hproc] at hpc
    cases hpc
  | _ => simp [step, procStep, hproc]

/-! ### The line moves on -/

/-- What is known of the states of regular runs. -/
structure Known (cfg : Config D W) (s : State D W) : Prop where
  steady : Steady s
  serial : Serial cfg s

namespace Known

lemma moves (hk : Known cfg s) (hs : step cfg s act = some s') :
    Relation.ReflGen Handoff.Step s.ledger s'.ledger := by
  have hown : TestsOwn s act := testsOwn_of_completed hk.serial.accounted hk.serial.tests
  exact hk.serial.accounted.own.moves hk.serial.accounted.ledger hk.serial.accounted.control
    hown hs

/-- Nothing gets in line before an item that has been pushed. -/
lemma place_le (hk : Known cfg s) (hs : step cfg s act = some s')
    (hposted : (s.stage g).isPosted = true) : s'.ledger.place g ≤ s.ledger.place g := by
  rcases (Relation.reflGen_iff _ _ _).mp (hk.moves hs) with hsame | hmove
  · rw [hsame]
  · exact hk.serial.accounted.ledger.place_step hmove hposted

lemma posted_step (hk : Known cfg s) (hs : step cfg s act = some s')
    (hposted : (s.stage g).isPosted = true) : (s'.stage g).isPosted = true := by
  rcases (Relation.reflGen_iff _ _ _).mp (hk.moves hs) with hsame | hmove
  · rwa [show s'.stage g = s.stage g from congrFun (congrArg Handoff.Ledger.stage hsame) g]
  · rcases hk.serial.accounted.ledger.next_of_step hmove g with hstays | hnext
    · rwa [show s'.stage g = s.stage g from hstays]
    · exact hnext.isPosted hposted

lemma queued_of_waiting (hk : Known cfg s) (hmem : g ∈ s.ledger.waiting) :
    s.stage g = .queued := by
  obtain ⟨p, hp, rfl⟩ := List.mem_map.mp hmem
  exact (hk.serial.accounted.ledger.queue p hp).2

/-- The queue is not empty as long as an item waits. -/
lemma contents_ne_nil (hmem : g ∈ s.ledger.waiting) : s.ring.contents ≠ [] := by
  intro hempty
  obtain ⟨p, hp, -⟩ := List.mem_map.mp hmem
  rw [show s.ledger.queue = s.ring.contents.filterMap id from rfl, hempty] at hp
  cases hp

end Known

/-- At the head of its loop the processing thread takes the next item out of the queue. -/
def fetchRanking (cfg : Config D W) (g k : ℕ) :
    Ranking (step cfg) Regular (fun s => Known cfg s ∧ s.processing = true)
      (fun s => (s.proc = .top ∨ s.proc = .pop) ∧ s.ledger.place g = k + 1)
      (fun s => s.ledger.place g ≤ k) ℕ where
  rank s := s.proc.isTop.toNat
  Helps s act := act = .proc ∧ (s.proc = .top ∨ s.proc = .pop)
  help _ _ h := ⟨_, rfl, h.1⟩
  keep := by
    rintro s _ b s' ⟨hk, hprocessing⟩ - ⟨hpc, hplace⟩ ⟨rfl, -⟩ - hs
    have hmem : g ∈ s.ledger.waiting := Handoff.Inv.mem_of_place_pos (by omega)
    have hle := hk.place_le hs (by rw [hk.queued_of_waiting hmem]; rfl)
    by_cases hb : b = .proc
    · subst hb
      cases procMove (show procStep s = some s' from hs) with
      | enters htop =>
        exact Or.inr ⟨⟨Or.inr rfl, hplace⟩, Or.inl (by rw [htop]; exact Nat.zero_lt_one)⟩
      | exits _ hstop =>
        rw [hprocessing] at hstop
        cases hstop
      | fetches p ring _ hpop =>
        have hqueue : s.ledger.queue = p :: ring.contents.filterMap id := by
          show s.ring.contents.filterMap id = _
          rw [RingBuffer.contents_of_pop_some hk.steady.wake.ring hpop]
          rfl
        refine Or.inl (Nat.le_of_lt_succ ?_)
        rw [← Nat.succ_eq_add_one] at hplace
        rw [← hplace]
        exact hk.serial.accounted.ledger.place_fetch hqueue hmem
      | findsEmpty ring _ hpop =>
        exact absurd (empty_of_pop hk.steady.wake.ring hk.steady.wake.items hpop)
          (Known.contents_ne_nil hmem)
      | _ =>
        rw [‹s.proc = _›] at hpc
        rcases hpc with hpc | hpc <;> cases hpc
    · have hsame : s'.proc = s.proc := by
        rcases step_proc hs hb with h | h | ⟨hstart, -⟩ | ⟨q, h, -⟩
        · exact h
        · rcases hpc with hpc | hpc <;> rw [h, hpc] <;> rfl
        · rw [hk.steady.control.exited (by rw [hk.steady.control.exited_of_start hstart]; rfl)]
            at hprocessing
          cases hprocessing
        · rcases hpc with hpc | hpc <;> rw [hpc] at h <;> cases h
      rw [hsame]
      rcases hle.lt_or_eq with hlt | heq
      · exact Or.inl (by omega)
      · exact Or.inr ⟨⟨hpc, heq.trans hplace⟩, Or.inr ⟨hb, rfl, rfl, hpc⟩⟩

lemma head_enabled (hpc : s.proc = .top ∨ s.proc = .pop) :
    (step cfg s .proc).isSome = true := by
  rcases hpc with hpc | hpc <;> simp only [step, procStep, hpc]
  · rfl
  · split <;> rfl

/-- The record is never cut. -/
lemma log_later (h : Reach (step cfg) ok s s') {ev : Event}
    (hev : ev ∈ s.log) : ev ∈ s'.log :=
  h.invariant (I := fun t => ev ∈ t.log) hev fun _ _ _ hi _ hs => log_step hs hi

section Runs

variable {pool : PoolAllocator} {capacity : ℕ} {memory : ℕ → WorkItem} {world : W}

lemma steady_of_reach (hcapacity : 1 ≤ capacity)
    (h : Reach (step cfg) NoOverflow (State.init pool capacity memory world) s) : Steady s where
  wake := by
    have hinit : WakeInv (State.init pool capacity memory world : State D W) :=
      ⟨RingBuffer.wf_new _ hcapacity, by simp [State.init], by simp [State.init],
        by simp [State.init], by simp [State.init, ProcPc.sleeps]⟩
    exact h.invariant hinit fun _ _ _ hi hok hs => hi.step hok hs
  control := controlInv h
  lock := mountLockInv h
  handles := handleInv h
  scans := scanInv h

/-- **A round ends.** -/
lemma round_ends {r : Endless (step cfg) ok (State.init pool capacity memory world)} {n : ℕ}
    (hok : ∀ s act, ok s act → NoOverflow s act) (hcapacity : 1 ≤ capacity) (hf : Fair r)
    (hp : InRound (r.state n)) : ∃ m ≥ n, (r.state m).proc.between = true := by
  have hsteady (m : ℕ) : Steady (r.state m) := steady_of_reach hcapacity ((r.reach m).mono hok)
  refine Endless.leadsTo (r := r.weaken hok) (roundRanking cfg) (fun m _ => hsteady m)
    (fun m _ act (hhelps : ∀ k ≥ m, Helps (r.state k) act) => ?_) hp
  show ∃ k ≥ m, r.act k = act
  cases act with
  | agent a =>
    refine hf.agents a m fun k hk => agentStep_enabled ?_
    cases hhelps k hk with
    | gives _ _ _ ha => exact Or.inl ha
    | wakes _ _ _ ha => exact Or.inr ha
  | control =>
    refine hf.control m fun k hk => controlStep_enabled_of_owing ?_
    cases hhelps k hk with
    | givesStop _ _ hc => exact Or.inl hc
    | wakesStop _ _ hc => exact Or.inr hc
  | callbackReturns =>
    obtain ⟨k, hk, hreturned⟩ := hf.callbacks m
    cases hhelps k hk with
    | returns p hpc =>
      rw [hpc] at hreturned
      cases hreturned
  | proc =>
    refine hf.proc m fun k hk => ?_
    obtain ⟨j, hj, hfree⟩ := table_released hf.control k
    refine ⟨j, hj, procStep_enabled (hsteady j).lock hfree ?_⟩
    cases hhelps j (hk.trans hj) with
    | proceeds hpc => exact hpc
  | _ => cases hhelps m le_rfl

lemma known_of_reach (hpool : pool.WF) (hcapacity : 1 ≤ capacity)
    (h : Reach (step cfg) Regular (State.init pool capacity memory world) s) : Known cfg s :=
  ⟨steady_of_reach hcapacity (h.mono fun _ _ hok => hok.1),
    serial_of_reach hpool hcapacity (h.mono fun _ _ hok => hok.2)⟩

variable {r : Endless (step cfg) Regular (State.init pool capacity memory world)} {n : ℕ}

/-- As long as an item has been pushed and not executed it waits or is in the hand of the
processing thread. -/
lemma Known.waits_or_works (hk : Known cfg s) (hposted : (s.stage g).isPosted = true)
    (hnot : .executed g ∉ s.log) (halive : s.proc ≠ .crashed) :
    g ∈ s.ledger.waiting ∨ ∃ p, s.proc.hand = .working p := by
  have hl := hk.serial.accounted.ledger
  rcases Handoff.Stage.cases_of_isPosted hposted with hst | hst | hdone
  · exact Or.inl (hl.mem_waiting hst)
  · rcases hl.executing g hst with hhand | hhand
    · exact Or.inr ⟨_, hhand⟩
    · refine absurd ?_ halive
      cases hpc : s.proc <;> rw [State.ledger, hpc] at hhand <;> first | rfl | cases hhand
  · exact absurd (executed_of_isDone hl hdone) hnot

/-- So the processing thread does not look for work in vain. -/
lemma inRound_of_waits (hinside : s.proc.between = false)
    (h : g ∈ s.ledger.waiting ∨ ∃ p, s.proc.hand = .working p) : InRound s := by
  refine ⟨hinside, fun hlooks => Or.inl ?_⟩
  rcases h with hmem | ⟨p, hhand⟩
  · exact Known.contents_ne_nil hmem
  · cases hpc : s.proc <;> rw [hpc] at hhand hlooks <;> first
      | cases hhand; done
      | cases hlooks

/-- Between two rounds the processing thread is at the head of its loop while the context keeps
processing. -/
lemma Known.top_of_between (hk : Known cfg s) (hprocessing : s.processing = true)
    (halive : s.proc ≠ .crashed) (hbetween : s.proc.between = true) : s.proc = .top := by
  cases hpc : s.proc with
  | top => rfl
  | exited =>
    rw [hk.steady.control.exited (by rw [hpc]; rfl)] at hprocessing
    cases hprocessing
  | crashed => exact absurd hpc halive
  | _ => rw [hpc] at hbetween; cases hbetween

section Place

variable (hknown : ∀ m, Known cfg (r.state m))
include hknown

lemma posted_later {m : ℕ} (hm : m ≥ n) (hposted : ((r.state n).stage g).isPosted = true) :
    ((r.state m).stage g).isPosted = true := by
  induction m, hm using Nat.le_induction with
  | base => exact hposted
  | succ m _ ih => exact (hknown m).posted_step (r.next m) ih

lemma place_later {m : ℕ} (hm : m ≥ n) (hposted : ((r.state n).stage g).isPosted = true) :
    (r.state m).ledger.place g ≤ (r.state n).ledger.place g := by
  induction m, hm using Nat.le_induction with
  | base => exact le_rfl
  | succ m hm ih =>
    exact ((hknown m).place_le (r.next m) (posted_later hknown hm hposted)).trans ih

/-- At the head of its loop the processing thread takes something out of the queue at last. -/
lemma place_falls (hf : Fair r) (hprocessing : ∀ m ≥ n, (r.state m).processing = true)
    (htop : (r.state n).proc = .top) (hmem : g ∈ (r.state n).ledger.waiting) :
    ∃ m ≥ n, (r.state m).ledger.place g < (r.state n).ledger.place g := by
  obtain ⟨k, hk⟩ := Nat.exists_eq_succ_of_ne_zero (Handoff.Inv.place_pos hmem).ne'
  obtain ⟨m, hm, hle⟩ := Endless.leadsTo (fetchRanking cfg g k)
    (fun l hl => ⟨hknown l, hprocessing l hl⟩) (fun l _ act hhelps => by
      obtain rfl := (hhelps l le_rfl).1
      exact hf.proc.weakly l fun j hj => head_enabled (hhelps j hj).2) ⟨Or.inl htop, hk⟩
  exact ⟨m, hm, by omega⟩

end Place

/-- What has been pushed is executed at last. -/
lemma executed_at_last (hpool : pool.WF) (hcapacity : 1 ≤ capacity) (hf : Fair r)
    (hprocessing : ∀ m ≥ n, (r.state m).processing = true)
    (hposted : ((r.state n).stage g).isPosted = true) :
    ∃ m ≥ n, .executed g ∈ (r.state m).log ∨ (r.state m).proc = .crashed := by
  have hknown (m : ℕ) : Known cfg (r.state m) := known_of_reach hpool hcapacity (r.reach m)
  by_contra hnever
  have halive (m : ℕ) (hm : m ≥ n) : (r.state m).proc ≠ .crashed :=
    fun h => hnever ⟨m, hm, Or.inr h⟩
  have hwaits (m : ℕ) (hm : m ≥ n) : g ∈ (r.state m).ledger.waiting ∨
      ∃ p, (r.state m).proc.hand = .working p :=
    (hknown m).waits_or_works (posted_later hknown hm hposted)
      (fun h => hnever ⟨m, hm, Or.inl h⟩) (halive m hm)
  -- the thread comes back to the head of its loop, where the item is still in the queue
  have htop (m : ℕ) (hm : m ≥ n) :
      ∃ k ≥ m, (r.state k).proc = .top ∧ g ∈ (r.state k).ledger.waiting := by
    have hround : ∃ k ≥ m, (r.state k).proc.between = true := by
      by_cases hbetween : (r.state m).proc.between = true
      · exact ⟨m, le_rfl, hbetween⟩
      · exact round_ends (fun _ _ => And.left) hcapacity hf
          (inRound_of_waits (by simpa using hbetween) (hwaits m hm))
    obtain ⟨k, hk, hbetween⟩ := hround
    have hkn : k ≥ n := hm.trans hk
    have hpc := (hknown k).top_of_between (hprocessing k hkn) (halive k hkn) hbetween
    refine ⟨k, hk, hpc, (hwaits k hkn).resolve_right ?_⟩
    rintro ⟨p, hhand⟩
    rw [hpc] at hhand
    cases hhand
  suffices hdescent : ∀ i, ∀ m ≥ n, (r.state m).ledger.place g = i → False by
    exact hdescent _ n le_rfl rfl
  intro i
  induction i using Nat.strong_induction_on with
  | _ i ih =>
    intro m hm hplace
    obtain ⟨k, hk, hpc, hmem⟩ := htop m hm
    obtain ⟨j, hj, hless⟩ := place_falls hknown hf
      (fun l hl => hprocessing l (hm.trans (hk.trans hl))) hpc hmem
    have hle := place_later hknown hk (posted_later hknown hm hposted)
    exact ih _ (by omega) j (hm.trans (hk.trans hj)) rfl

/-- Nobody has an executed item with a callback in hand: the callback has been called, and the
slot given back. -/
lemma called_of_free (hl : Handoff.Inv s.ledger) (hfree : s.proc.hand = .free)
    (hexecuted : .executed g ∈ s.log) (hcallback : (s.tickets g).hasCallback = true) :
    (∃ code, .invoked g code ∈ s.log) ∧ .released g .processing ∈ s.log := by
  refine ⟨?_, (owned_of_ledger hl).processed g hcallback hexecuted hfree⟩
  have hhand : s.ledger.hand = .free := hfree
  have hcalled : s.ledger.stage g = .released := by
    have hdone := isDone_of_executed hl hexecuted
    cases hst : s.stage g with
    | released => exact hst
    | completed =>
      have hcompleted := hl.completed g hst hcallback
      simp [hhand] at hcompleted
    | called =>
      have hcalled := (hl.called g hst).2
      simp [hhand] at hcalled
    | _ => rw [hst] at hdone; cases hdone
  have hcalls := hl.calls g
  rw [if_pos (Or.inr ⟨hcalled, hcallback⟩)] at hcalls
  exact invoked_of_called (List.count_pos_iff.mp (hcalls ▸ Nat.one_pos))

/-- **What is accepted is served.**  In an endless run with a fair scheduler, in which callbacks
return: if from some moment on the context keeps processing, then every submission that has been
pushed by then is executed at last, and its callback, if it has one, is called and its slot given
back, or a null pointer is called. -/
theorem eventually_served (hpool : pool.WF) (hcapacity : 1 ≤ capacity) (hf : Fair r)
    (hprocessing : ∀ m ≥ n, (r.state m).processing = true)
    (hposted : ((r.state n).stage g).isPosted = true) :
    ∃ m ≥ n, (r.state m).proc = .crashed ∨ .executed g ∈ (r.state m).log ∧
      (((r.state m).tickets g).hasCallback = true →
        (∃ code, .invoked g code ∈ (r.state m).log) ∧
          .released g .processing ∈ (r.state m).log) := by
  obtain ⟨m, hm, hexecuted | hcrashed⟩ := executed_at_last hpool hcapacity hf hprocessing hposted
  · have hl (k : ℕ) : Handoff.Inv (r.state k).ledger :=
      (known_of_reach hpool hcapacity (r.reach k)).serial.accounted.ledger
    by_cases hfree : (r.state m).proc.hand = .free
    · exact ⟨m, hm, Or.inr ⟨hexecuted, called_of_free (hl m) hfree hexecuted⟩⟩
    · -- the thread is busy, and comes to the end of its round
      have hround : ∃ k ≥ m, (r.state k).proc.between = true := by
        by_cases hbetween : (r.state m).proc.between = true
        · exact ⟨m, le_rfl, hbetween⟩
        · refine round_ends (fun _ _ => And.left) hcapacity hf
            ⟨by simpa using hbetween, fun hlooks => absurd ?_ hfree⟩
          cases hpc : (r.state m).proc <;> rw [hpc] at hlooks <;> first | rfl | cases hlooks
      obtain ⟨k, hk, hbetween⟩ := hround
      refine ⟨k, hm.trans hk, ?_⟩
      by_cases hcrashed : (r.state k).proc = .crashed
      · exact Or.inl hcrashed
      · have hstays := log_later (r.reach_later hk) hexecuted
        refine Or.inr ⟨hstays, called_of_free (hl k) ?_ hstays⟩
        cases hpc : (r.state k).proc <;> rw [hpc] at hbetween <;> first
          | rfl
          | exact absurd hpc hcrashed
          | cases hbetween
  · exact ⟨m, hm, Or.inl hcrashed⟩

end Runs

/-! ### A run that goes on for ever -/

/-- Nobody but the first client is in the context, and it releases nothing; and something else
holds. -/
structure OnlyFirst (P : State D W → Bool) (s : State D W) (act : Action) : Prop where
  overflow : NoOverflow s act
  keeps : act.isRelease = false
  holds : P s = true
  agent : ∀ a, a ≠ .client 0 → act ≠ .agent a
  client : ∀ a, a ≠ .client 0 → ∀ c, act ≠ .client a c

/-- The same, to be evaluated. -/
def onlyFirst (P : State D W → Bool) (s : State D W) (act : Action) : Bool :=
  decide (NoOverflow s act) && !act.isRelease && P s &&
    match act with
    | .client a _ | .agent a => a == .client 0
    | _ => true

variable {P : State D W → Bool}

lemma onlyFirst_sound (h : onlyFirst P s act = true) : OnlyFirst P s act := by
  simp only [onlyFirst, Bool.and_eq_true, decide_eq_true_eq, Bool.not_eq_true'] at h
  refine ⟨h.1.1.1, h.1.1.2, h.1.2, fun a ha => ?_, fun a ha c => ?_⟩ <;> rintro rfl <;> simp_all

lemma OnlyFirst.regular (h : OnlyFirst P s act) : Regular s act :=
  ⟨h.overflow, (sparesWaited_of_not_isRelease h.keeps).1⟩

/-- Nobody else is in the context. -/
lemma others_idle (h : Reach (step cfg) (OnlyFirst P) s s') (hidle : ∀ a, s.agents a = .idle)
    {a : Agent} (ha : a ≠ .client 0) : s'.agents a = .idle := by
  refine h.invariant (I := fun t => t.agents a = .idle) (hidle a) fun t act t' hi hok hs => ?_
  have hagent := hok.agent a ha
  have hclient := hok.client a ha
  cases stepBy hs with
  | client b c hidle hs =>
    obtain ⟨pc, hagents, -⟩ := clientStep_agents hidle hs
    rw [hagents, Function.update_of_ne (fun he => hclient c (by rw [he])), hi]
  | agent b hs => rw [agentStep_others hs (fun he => hagent (by rw [he])), hi]
  | proc hs =>
    rcases procStep_agents hs a with h | h <;> rw [h, hi]
    rfl
  | controlAct c _ hs => rw [(controlActStep_frame hs).1.agents, hi]
  | control hs => rw [(controlStep_frame hs).1.agents, hi]
  | callbackReturns | wakeProc => exact hi
  | wakeAgent b =>
    show Function.update t.agents b _ a = _
    by_cases hb : a = b
    · rw [hb, Function.update_self, ← hb, hi]
      rfl
    · rw [Function.update_of_ne hb, hi]

/-- The processing thread sleeps for want of a token, and nobody else is in the context. -/
def State.sleepsOn (s : State D W) : Bool :=
  s.proc.sleeps && s.sem == 0 && s.control.isIdle && s.agents (.client 0) == .idle

lemma State.sleepsOn_proc (h : s.sleepsOn = true) : s.proc = .semSleep := by
  simp only [State.sleepsOn, Bool.and_eq_true] at h
  cases hpc : s.proc <;> rw [hpc] at h <;> first | rfl | simp [ProcPc.sleeps] at h

/-- It wakes up for no reason, and goes to sleep again. -/
lemma guardedRun_sleepsOn (h : s.sleepsOn = true) (hP : ∀ pc, P { s with proc := pc } = true) :
    guardedRun (step cfg) (onlyFirst P) s [.wakeProc, .proc] = some s := by
  have hpc := State.sleepsOn_proc h
  simp only [State.sleepsOn, Bool.and_eq_true, beq_iff_eq] at h
  have hfree (t : State D W) (act : Action) (hact : act = .wakeProc ∨ act = .proc) :
      NoOverflow t act := by
    rcases hact with rfl | rfl <;> trivial
  have hself : { s with proc := .semSleep, sem := 0 } = s := by
    rw [← hpc, ← h.1.1.2]
  have hnow : P s = true := hP s.proc
  have hwoken : P { s with proc := .semTest, sem := 0 } = true := by
    simpa only [h.1.1.2] using hP .semTest
  simpa [guardedRun, onlyFirst, hfree, hnow, hwoken, Action.isRelease, step, procStep, hpc,
    ProcPc.wake, h.1.1.2] using hself

/-- A run that ends so can be made endless, and the scheduler is fair in it. -/
lemma exists_fair (hok : ∀ s act, OnlyFirst P s act → ok s act)
    {as : List Action} (hinit : ∀ a, s₀.agents a = .idle)
    (h : guardedRun (step cfg) (onlyFirst P) s₀ as = some s) (hsleeps : s.sleepsOn = true)
    (hP : ∀ pc, P { s with proc := pc } = true) :
    ∃ r : Endless (step cfg) ok s₀, Fair r ∧ (∀ n, ∃ m ≥ n, r.act m = .proc) ∧
      (∀ n, ∃ m ≥ n, r.state m = s) ∧ (∀ n, P (r.state n) = true) ∧
      ∀ n ≤ as.length, guardedRun (step cfg) (onlyFirst P) s₀ (as.take n) =
        some (r.state n) := by
  have hreach : Reach (step cfg) (OnlyFirst P) s₀ s :=
    (Trace.of_guardedRun (fun _ _ => onlyFirst_sound) .nil h).reach
  have hidle (a : Agent) : s.agents a = .idle := by
    simp only [State.sleepsOn, Bool.and_eq_true, beq_iff_eq] at hsleeps
    by_cases ha : a = .client 0
    · rw [ha, hsleeps.2]
    · exact others_idle hreach hinit ha
  have hcontrol : s.control = .idle := by
    simp only [State.sleepsOn, Bool.and_eq_true] at hsleeps
    cases hpc : s.control <;> rw [hpc] at hsleeps <;> simp [ControlPc.isIdle] at hsleeps ⊢
  have hcallback : s.proc.isInCallback = false := by
    rw [State.sleepsOn_proc hsleeps]
    rfl
  refine ⟨.lasso (fun _ _ h => hok _ _ (onlyFirst_sound h)) h (guardedRun_sleepsOn hsleeps hP),
    ⟨fun a => ?_, ?_, ?_, fun n => ?_⟩, Endless.lasso_acts (by simp), Endless.lasso_returns,
    fun n => ?_, fun n hn => Endless.lasso_start hn⟩
  · refine Endless.weaklyFair_of_never fun n => ?_
    obtain ⟨m, hm, hstate⟩ := Endless.lasso_returns n
    exact ⟨m, hm, by rw [hstate]; simp [step, agentStep, hidle a]⟩
  · refine Endless.weaklyFair_of_never fun n => ?_
    obtain ⟨m, hm, hstate⟩ := Endless.lasso_returns n
    exact ⟨m, hm, by rw [hstate]; simp [step, controlStep, hcontrol]⟩
  · exact Endless.stronglyFair_of_always (Endless.lasso_acts (by simp))
  · obtain ⟨m, hm, hstate⟩ := Endless.lasso_returns n
    exact ⟨m, hm, by rw [hstate, hcallback]⟩
  · exact (onlyFirst_sound (Endless.lasso_meets n)).holds

/-- A client submits with a callback; the processing thread sleeps on in the end. -/
theorem eventually_served_callback :
    ∃ (r : Endless (step smallConfig) Regular smallInit) (n m : ℕ), Fair r ∧ n ≤ m ∧
      (r.state n).ring.getCount = 1 ∧ ((r.state m).proc = .crashed ∨
        .executed 0 ∈ (r.state m).log ∧ (((r.state m).tickets 0).hasCallback = true →
          (∃ code, .invoked 0 code ∈ (r.state m).log) ∧
            .released 0 .processing ∈ (r.state m).log)) := by
  have hrun : (guardedRun (step smallConfig) (onlyFirst State.processing) smallInit
      (submits 0 ⟨.fileExists, [slash], some ⟨7, .doNotFreeBuffer, 0⟩⟩ 14 ++ processes ++
        [.proc, .proc, .callbackReturns, .proc, .proc] ++ List.replicate 6 .proc)).any
      (fun s => s.sleepsOn && s.processing) = true := by decide +kernel
  obtain ⟨s, hs, hlast⟩ := (Option.any_eq_true _ _).mp hrun
  obtain ⟨hsleeps, hon⟩ := (Bool.and_eq_true _ _).mp hlast
  obtain ⟨r, hf, -, -, hprocessing, hstart⟩ := exists_fair (fun _ _ => OnlyFirst.regular)
    (fun _ => rfl) hs hsleeps (fun _ => hon)
  have hpushed : (guardedRun (step smallConfig) (onlyFirst State.processing) smallInit
      (submits 0 ⟨.fileExists, [slash], some ⟨7, .doNotFreeBuffer, 0⟩⟩ 14)).any
      (fun s => decide ((s.stage 0).isPosted = true ∧ s.ring.getCount = 1)) = true := by
    decide +kernel
  have htake := hstart 15 (by decide)
  rw [show List.take 15 _ = submits 0 ⟨.fileExists, [slash], some ⟨7, .doNotFreeBuffer, 0⟩⟩ 14
    from rfl] at htake
  rw [htake] at hpushed
  obtain ⟨hposted, hcount⟩ := of_decide_eq_true hpushed
  obtain ⟨m, hm, hserved⟩ := eventually_served (PoolAllocator.wf_new 2 (by decide) (by decide))
    (by decide) hf (fun m _ => hprocessing m) hposted
  exact ⟨r, 15, m, hf, hm, hcount, hserved⟩

end LaminaFS
