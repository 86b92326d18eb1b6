/-
# The threads do one thing at a time

In runs in which `createMount` does not reach into an execution, every request is looked for with
its finished item, and no client releases an item too early, the threads of a context cannot be
told from the service that does one thing at a time: the table and the world are those of the
service, and the items show its answers.

A request counts as served when its execution has come to its end, before the item is marked
as complete.
-/
import LaminaFS.Context.Answers
import LaminaFS.Context.MountTable
import LaminaFS.Context.Scans
import LaminaFS.Context.Serving

namespace LaminaFS

open Transition

variable {D W : Type} {cfg : Config D W} {s s' : State D W} {act : Action} {v v' : Service D W}

/-! ### The service that a state looks like -/

/-- The processing thread executes an item. -/
def ProcPc.executes : ProcPc D W → Option ItemPtr
  | .exec p _ => some p
  | _ => none

/-- The mount that the control thread is going to enter. -/
def ControlPc.pending : ControlPc D W → Option (MountInfo D W)
  | .lockCreate mount | .pushBack mount => some mount
  | _ => none

/-- The requests that have been pushed and not yet served, with the one that is executed. -/
def State.requests (s : State D W) : List (ℕ × Call) :=
  (s.proc.executes.toList ++ s.ring.contents.filterMap id).map fun p =>
    (p.submission, (s.tickets p.submission).call)

/-- What the control thread has done to the world, which was `w` when it began. -/
def ControlPc.Ahead (s : State D W) (w : W) : ControlPc D W → Prop
  | .destroyDevice mount => s.world = w ∧
      (s.mounts.find? fun m => m.handle == mount.handle) = some mount
  | .erase handle => ∃ mount, (s.mounts.find? fun m => m.handle == handle) = some mount ∧
      s.world = mount.interface.destroy mount.device w
  | .destroyAll rest => ∃ done, s.mounts = done ++ rest ∧ s.world = Service.destroyEach done w
  | .unlockDestroy => s.world = Service.destroyEach s.mounts w
  | _ => s.world = w

/-- What clients have been told are the answers. -/
structure Told (s : State D W) (answers : ℕ → Option Answer) : Prop where
  answered : ∀ g, (answers g).isSome = true ↔ s.Served g
  shown : ∀ g ans, answers g = some ans → s.Occupies g → s.Shows g ans
  called : ∀ g code, .invoked g code ∈ s.log → ∃ ans, answers g = some ans ∧ ans.code = code

/-- The state looks like the state of the service. -/
structure Mirrors (cfg : Config D W) (s : State D W) (v : Service D W) : Prop
    extends Told s v.answers where
  queue : v.queue = s.requests
  mounts : s.control.isDestroyed = false → v.mounts = s.mounts
  pending : v.pending = s.control.pending
  calm : s.proc.executes = none → s.control.Ahead s v.world ∧ v.nextBlock = s.nextBlock
  exec : ∀ p e, s.proc = .exec p e → e.Leads s.mounts (s.item cfg p.submission)
    (s.slots p.slot) s.nextBlock s.world
    (serve v.mounts v.nextBlock (s.item cfg p.submission) v.world)

/-- The control thread is about to create a device or to enter a mount. -/
def ControlPc.adds : ControlPc D W → Bool
  | .make _ _ | .pushBack _ => true
  | _ => false

/-- `createMount` creates no device and enters no mount while an item is executed. -/
def MountsApart (s : State D W) (act : Action) : Prop :=
  act = .control → s.control.adds = true → s.proc.executes = none

instance (s : State D W) : DecidablePred (MountsApart s) :=
  fun _ => inferInstanceAs (Decidable (_ → _ → _))

/-- The steps of runs that do one thing at a time. -/
def OneAtATime (cfg : Config D W) (s : State D W) (act : Action) : Prop :=
  ReleasesLate s act ∧ SearchesSettled cfg s act ∧ MountsApart s act

instance (cfg : Config D W) (s : State D W) : DecidablePred (OneAtATime cfg s) :=
  fun _ => inferInstanceAs (Decidable (_ ∧ _ ∧ _))

/-- What the service does in a step is what an agent or the control thread is about to do. -/
def Service.Act.Begun (s : State D W) : Service.Act → Prop
  | .accept _ c => ∃ a p, s.agents a = .pushLock c p
  | .make args handle => s.control = .make args handle
  | _ => True

/-! ### The requests -/

@[simp] lemma executes_wake (pc : ProcPc D W) : pc.wake.executes = pc.executes := by
  cases pc <;> rfl

lemma executes_eq_some {pc : ProcPc D W} {p : ItemPtr} :
    pc.executes = some p ↔ ∃ e, pc = .exec p e := by
  cases pc <;> simp [ProcPc.executes]

/-- What is waiting has been submitted. -/
lemma born_of_requests (hk : Accounted cfg s) {p : ItemPtr}
    (hp : p ∈ s.proc.executes.toList ++ s.ring.contents.filterMap id) :
    s.stage p.submission = .executing ∨ s.stage p.submission = .queued := by
  rcases List.mem_append.mp hp with hp | hp
  · obtain ⟨e, hpc⟩ := executes_eq_some.mp (Option.mem_toList.mp hp)
    exact Or.inl (hk.executing_hand hpc).2
  · exact Or.inr (hk.ledger.queue p hp).2

/-- The requests stay as long as the queue and the execution do. -/
lemma requests_keep (hk : Accounted cfg s) (hs : step cfg s act = some s')
    (hwaiting : s'.proc.executes.toList ++ s'.ring.contents.filterMap id =
      s.proc.executes.toList ++ s.ring.contents.filterMap id) : s'.requests = s.requests := by
  rw [State.requests, hwaiting, State.requests]
  refine List.map_congr_left fun p hp => ?_
  rw [OwnInv.step_tickets hk.ledger hs]
  rcases born_of_requests hk hp with hst | hst <;> rw [hst] <;> simp

/-! ### What clients are told -/

/-- As long as nothing more is served the service has answered what is shown. -/
lemma Told.keep {answers : ℕ → Option Answer} (h : Told s answers) (hk : Accounted cfg s)
    (hk' : Accounted cfg s') (hs : step cfg s act = some s')
    (hserved : ∀ g, s'.Served g ↔ s.Served g) : Told s' answers := by
  refine ⟨fun g => (h.answered g).trans (hserved g).symm, fun g ans hans hocc' => ?_,
    fun g code hev => ?_⟩
  · have hg : s.Served g := (h.answered g).mp (by rw [hans]; rfl)
    obtain ⟨hocc, hshows⟩ : s.Occupies g ∧ (s.Shows g ans → s'.Shows g ans) :=
      shows_step hk hk' hg ((hserved g).mpr hg) hs hocc'
    exact hshows (h.shown g ans hans hocc)
  · rcases step_event hs with hlog | ⟨ev, hlog, hrecords⟩ <;> rw [hlog] at hev
    · exact h.called g code hev
    · rcases List.mem_cons.mp hev with rfl | hmem
      · cases hrecords with
        | invoked p hpc =>
          -- the item whose callback is called is complete and in its slot
          obtain ⟨hslot, hst, -⟩ :=
            fits_of_hand hk.ledger (show s.proc.hand = .calling p by rw [hpc]; rfl)
          have hst : s.stage p.submission = .completed := hst
          have hocc := OwnInv.occupant_of_live hk.ledger hslot (by rw [hst]; rfl)
          have hg : s.Served p.submission :=
            Or.inl (executed_of_isDone hk.ledger (by rw [hst]; rfl))
          obtain ⟨ans, hans⟩ := Option.isSome_iff_exists.mp ((h.answered _).mpr hg)
          have hslot : p.slot = (s.tickets p.submission).slot := hslot
          have hshows := h.shown _ ans hans (by rw [State.Occupies, ← hslot, hocc])
          refine ⟨ans, by rw [hocc, hans], ?_⟩
          rw [hslot]
          exact hshows.code.symm
      · exact h.called g code hmem

/-- One more item has been served, and its slot shows what the service has answered. -/
lemma Told.answer {answers : ℕ → Option Answer} (h : Told s answers) (hk : Accounted cfg s)
    (hk' : Accounted cfg s') (hs : step cfg s act = some s') {g₀ : ℕ} {ans₀ : Answer}
    (hnew : ¬ s.Served g₀) (hserved : ∀ g, s'.Served g ↔ s.Served g ∨ g = g₀)
    (hshows₀ : s'.Shows g₀ ans₀)
    (hcalls : ∀ g code, .invoked g code ∈ s'.log → .invoked g code ∈ s.log) :
    Told s' (Function.update answers g₀ (some ans₀)) := by
  refine ⟨fun g => ?_, fun g ans hans hocc' => ?_, fun g code hev => ?_⟩
  · rw [hserved]
    by_cases hg : g = g₀
    · simp [hg]
    · rw [Function.update_of_ne hg, h.answered]
      simp [hg]
  · by_cases hg : g = g₀
    · subst hg
      rw [Function.update_self] at hans
      cases hans
      exact hshows₀
    · rw [Function.update_of_ne hg] at hans
      have hold : s.Served g := (h.answered g).mp (by rw [hans]; rfl)
      obtain ⟨hocc, hshows⟩ : s.Occupies g ∧ (s.Shows g ans → s'.Shows g ans) :=
        shows_step hk hk' hold ((hserved g).mpr (Or.inl hold)) hs hocc'
      exact hshows (h.shown g ans hans hocc)
  · obtain ⟨ans, hans, hcode⟩ := h.called g code (hcalls g code hev)
    refine ⟨ans, ?_, hcode⟩
    rw [Function.update_of_ne, hans]
    rintro rfl
    exact hnew ((h.answered _).mp (by rw [hans]; rfl))

namespace Mirrors

/-- While others act the execution leads to the same result. -/
lemma exec_keep (h : Mirrors cfg s v) (hr : RequestInv cfg s) (hk : Accounted cfg s)
    (hk' : Accounted cfg s') (hact : act ≠ .proc) (hs : step cfg s act = some s')
    (hexec : s'.proc.executes = s.proc.executes) (hmounts : s'.mounts = s.mounts)
    (hworld : s'.world = s.world) (hblock : s'.nextBlock = s.nextBlock) :
    ∀ p e, s'.proc = .exec p e → e.Leads s'.mounts (s'.item cfg p.submission)
      (s'.slots p.slot) s'.nextBlock s'.world
      (serve v.mounts v.nextBlock (s'.item cfg p.submission) v.world) := by
  intro p e hpc'
  obtain ⟨e', hpc⟩ := executes_eq_some.mp
    (hexec.symm.trans (executes_eq_some.mpr ⟨e, hpc'⟩))
  obtain rfl : e' = e := by
    have hstays := proc_stays hk.control hact hs (by rw [hpc]; rfl) (by rw [hpc]; rfl)
      (by rw [hpc]; rfl)
    rw [hpc, hpc'] at hstays
    cases hstays
    rfl
  obtain ⟨hslot, hst⟩ := hk.executing_hand hpc
  obtain ⟨hslot', hst'⟩ := hk'.executing_hand hpc'
  obtain ⟨htickets, ht⟩ := touched_of_step hk.own hk.ledger hk'.ledger hs (g := p.submission)
    (by rw [hst]; rfl) (by rw [hst']; rfl) (by rw [hst']; rfl) fun ha => absurd ha hact
  have hleads := h.exec p e' hpc
  rw [show s.slots p.slot = s.record p.submission by rw [State.record, ← hslot]] at hleads
  have hleads' := hleads.touched (hr.executing p e' hpc) ht
  rw [show s'.record p.submission = s'.slots p.slot by rw [State.record, ← hslot']] at hleads'
  rw [hmounts, hworld, hblock, item_of_tickets htickets]
  exact hleads'

lemma ahead_of_eq {pc : ControlPc D W} {w : W} (h : pc.Ahead s w) (hworld : s'.world = s.world)
    (hmounts : s'.mounts = s.mounts) : pc.Ahead s' w := by
  cases pc <;> simp only [ControlPc.Ahead, hworld, hmounts] at h ⊢ <;> exact h

/-- Nothing is served by a step of somebody else. -/
lemma served_other (hk : Accounted cfg s) (hact : act ≠ .proc) (hs : step cfg s act = some s')
    (g : ℕ) : s'.Served g ↔ s.Served g := by
  rw [served_step hk.control hs]
  exact or_iff_left fun ⟨_, _, hproc, _⟩ => hact hproc

/-- Steps of others that leave the queue, the table and the world alone. -/
lemma same (h : Mirrors cfg s v) (hr : RequestInv cfg s) (hk : Accounted cfg s)
    (hk' : Accounted cfg s') (hact : act ≠ .proc) (hs : step cfg s act = some s')
    (hring : s'.ring = s.ring) (hexec : s'.proc.executes = s.proc.executes)
    (hcontrol : s'.control = s.control) (hmounts : s'.mounts = s.mounts)
    (hworld : s'.world = s.world) (hblock : s'.nextBlock = s.nextBlock) : Mirrors cfg s' v where
  toTold := h.toTold.keep hk hk' hs (served_other hk hact hs)
  queue := h.queue.trans (requests_keep hk hs (by rw [hexec, hring])).symm
  mounts hopen := (h.mounts (hcontrol ▸ hopen)).trans hmounts.symm
  pending := by rw [hcontrol, h.pending]
  calm hnone := by
    obtain ⟨hahead, hb⟩ := h.calm (hexec ▸ hnone)
    exact ⟨hcontrol ▸ ahead_of_eq hahead hworld hmounts, hb.trans hblock.symm⟩
  exec := h.exec_keep hr hk hk' hact hs hexec hmounts hworld hblock

/-- A client has pushed its item: the service accepts the request. -/
lemma push (h : Mirrors cfg s v) (hr : RequestInv cfg s) (hk : Accounted cfg s)
    (hk' : Accounted cfg s') {a : Agent} (hs : step cfg s (.agent a) = some s') {c : Call}
    {p : ItemPtr} (hpc : s.agents a = .pushLock c p)
    (hring : s'.ring.contents = s.ring.contents ++ [some p])
    (hproc : s'.proc = s.proc) (hcontrol : s'.control = s.control)
    (hmounts : s'.mounts = s.mounts) (hworld : s'.world = s.world)
    (hblock : s'.nextBlock = s.nextBlock) :
    ∃ v', Service.step cfg v (.accept p.submission c) = some v' ∧ Mirrors cfg s' v' := by
  have hact : Action.agent a ≠ .proc := by simp
  obtain ⟨-, hst, -⟩ := building_of_role (a := a) hk.ledger (p := p) (by rw [hpc]; rfl)
  have hissued : s.Issued a c p := by
    have hbuilds := hk.own.agents a
    rw [hpc] at hbuilds
    exact hbuilds.1
  -- the submission is new to the service
  have hanswer : v.answers p.submission = none := by
    rw [← Option.not_isSome_iff_eq_none, h.answered]
    intro hserved
    rcases hserved.stage hk with hdone | ⟨hexec, -⟩
    · rw [hst] at hdone
      cases hdone
    · rw [hst] at hexec
      cases hexec
  have hqueue : p.submission ∉ v.queue.map Prod.fst := by
    rw [h.queue, State.requests, List.map_map]
    rintro hmem
    obtain ⟨q, hq, he⟩ := List.mem_map.mp hmem
    have he : q.submission = p.submission := he
    rcases born_of_requests hk hq with hq | hq <;> rw [he, hst] at hq <;> cases hq
  have htickets : s'.tickets p.submission = s.tickets p.submission :=
    OwnInv.step_tickets hk.ledger hs (by rw [hst]; simp)
  have hrequests : s'.requests = s.requests ++ [(p.submission, c)] := by
    rw [State.requests, hproc, hring, List.filterMap_append, ← List.append_assoc,
      List.map_append, State.requests]
    congr 1
    · refine List.map_congr_left fun q hq => ?_
      rw [OwnInv.step_tickets hk.ledger hs]
      rcases born_of_requests hk hq with hst | hst <;> rw [hst] <;> simp
    · simp only [List.filterMap_cons, List.filterMap_nil, id_eq, List.map_singleton, htickets]
      rw [hissued]
  refine ⟨{ v with queue := v.queue ++ [(p.submission, c)] },
    by rw [Service.step, if_pos ⟨hanswer, hqueue⟩], ?_⟩
  exact {
    toTold := h.toTold.keep hk hk' hs (served_other hk hact hs)
    queue := by rw [h.queue, hrequests]
    mounts := fun hopen => (h.mounts (hcontrol ▸ hopen)).trans hmounts.symm
    pending := by rw [hcontrol, h.pending]
    calm := fun hnone => by
      obtain ⟨hahead, hb⟩ := h.calm (hproc ▸ hnone)
      exact ⟨hcontrol ▸ ahead_of_eq hahead hworld hmounts, hb.trans hblock.symm⟩
    exec := h.exec_keep hr hk hk' hact hs (by rw [hproc]) hmounts hworld hblock }

/-! ### The processing thread -/

/-- While the processing thread is in its loop the control thread destroys nothing. -/
lemma ahead_iff (hctl : ControlInv s) (hexited : s.proc.isExited = false) {w : W} :
    s.control.Ahead s w ↔ s.world = w := by
  have hrunning : s.control.phase ≠ .stopped := fun hstopped => by
    rw [hctl.stopped hstopped] at hexited
    cases hexited
  cases hpc : s.control <;> rw [hpc] at hrunning <;> first
    | exact Iff.rfl
    | exact absurd rfl hrunning

lemma open_of_running (hctl : ControlInv s) (hexited : s.proc.isExited = false) :
    s.control.isDestroyed = false := by
  cases hpc : s.control <;> first
    | rfl
    | (have hstopped := hctl.stopped (by rw [hpc]; rfl)
       rw [hstopped] at hexited
       cases hexited)

/-- Steps of the processing thread outside of executions. -/
lemma proc_quiet (h : Mirrors cfg s v) (hk : Accounted cfg s) (hk' : Accounted cfg s')
    (hs : step cfg s .proc = some s') (hexec : s.proc.executes = none)
    (hexec' : s'.proc.executes = none)
    (hqueue : s'.ring.contents.filterMap id = s.ring.contents.filterMap id)
    (hcontrol : s'.control = s.control) (hmounts : s'.mounts = s.mounts)
    (hworld : s'.world = s.world) (hblock : s'.nextBlock = s.nextBlock) : Mirrors cfg s' v := by
  have hserved (g : ℕ) : s'.Served g ↔ s.Served g := by
    rw [served_step hk.control hs]
    refine or_iff_left ?_
    rintro ⟨p, e, -, hpc, -⟩
    rw [hpc] at hexec
    cases hexec
  refine ⟨h.toTold.keep hk hk' hs hserved, ?_, fun hopen => ?_, by rw [hcontrol, h.pending],
    fun _ => ?_, fun p e hpc => ?_⟩
  · exact h.queue.trans (requests_keep hk hs (by rw [hexec, hexec', hqueue])).symm
  · exact (h.mounts (hcontrol ▸ hopen)).trans hmounts.symm
  · obtain ⟨hahead, hb⟩ := h.calm hexec
    exact ⟨hcontrol ▸ ahead_of_eq hahead hworld hmounts, hb.trans hblock.symm⟩
  · rw [hpc] at hexec'
    cases hexec'

/-- The processing thread takes the oldest request. -/
lemma fetch (h : Mirrors cfg s v) (hk : Accounted cfg s) (hk' : Accounted cfg s')
    (hs : step cfg s .proc = some s') {p : ItemPtr} (hpc : s.proc = .pop)
    (hpc' : s'.proc = .exec p .dispatch)
    (hqueue : s.ring.contents = some p :: s'.ring.contents)
    (hcontrol : s'.control = s.control) (hmounts : s'.mounts = s.mounts)
    (hworld : s'.world = s.world) (hblock : s'.nextBlock = s.nextBlock) : Mirrors cfg s' v := by
  have hexited : s.proc.isExited = false := by rw [hpc]; rfl
  obtain ⟨hahead, hb⟩ := h.calm (by rw [hpc]; rfl)
  have hserved (g : ℕ) : s'.Served g ↔ s.Served g := by
    rw [served_step hk.control hs]
    refine or_iff_left ?_
    rintro ⟨q, e, -, hexec, -⟩
    rw [hpc] at hexec
    cases hexec
  refine ⟨h.toTold.keep hk hk' hs hserved, ?_, fun hopen => ?_, by rw [hcontrol, h.pending],
    fun hnone => ?_, fun q e hexec => ?_⟩
  · refine h.queue.trans (requests_keep hk hs ?_).symm
    rw [hpc, hpc', hqueue]
    rfl
  · exact (h.mounts (hcontrol ▸ hopen)).trans hmounts.symm
  · rw [hpc'] at hnone
    cases hnone
  · rw [hpc'] at hexec
    cases hexec
    show serve _ _ _ _ = serve _ _ _ _
    rw [hmounts, hworld, hblock, h.mounts (open_of_running hk.control hexited), hb,
      (ahead_iff hk.control hexited).mp hahead]

/-- The execution has come to its end: the service has served the request. -/
lemma serves (h : Mirrors cfg s v) (hk : Accounted cfg s) (hk' : Accounted cfg s')
    (hs : step cfg s .proc = some s') {p : ItemPtr} {e : ExecPc D W} (hpc : s.proc = .exec p e)
    (hexec : execStep s p e = some s') (hpc' : s'.proc = .complete p) {r : Served D W}
    (hr : r = serve v.mounts v.nextBlock (s.item cfg p.submission) v.world)
    (hnull : r.nullFunction = false) (hitem : s'.slots p.slot = r.item)
    (hworld : s'.world = r.world) (hblock : s'.nextBlock = r.nextBlock) :
    ∃ v', Service.step cfg v .serve = some v' ∧ Mirrors cfg s' v' := by
  have hf := execStep_frame hexec
  obtain ⟨hslot, hst⟩ := hk.executing_hand hpc
  have hslot' : p.slot = (s'.tickets p.submission).slot := by rwa [hf.tickets]
  -- it has not been served before
  have hnew : ¬ s.Served p.submission := fun hserved => by
    rcases hserved.stage hk with hdone | ⟨-, q, hcomplete⟩
    · rw [hst] at hdone
      cases hdone
    · rw [hpc] at hcomplete
      cases hcomplete
  have hserved (g : ℕ) : s'.Served g ↔ s.Served g ∨ g = p.submission := by
    rw [served_step hk.control hs]
    refine or_congr_right ⟨?_, ?_⟩
    · rintro ⟨q, e', -, hq, -, rfl⟩
      rw [hpc] at hq
      cases hq
      rfl
    · rintro rfl
      exact ⟨p, e, rfl, hpc, hpc', rfl⟩
  have hqueue : v.queue = (p.submission, (s.tickets p.submission).call) :: s'.requests := by
    rw [h.queue, State.requests, State.requests, hpc, hpc', hf.ring, hf.tickets]
    rfl
  refine ⟨{ v with
      queue := s'.requests
      world := r.world
      nextBlock := r.nextBlock
      answers := Function.update v.answers p.submission (some r.item.answer) }, ?_, ?_⟩
  · rw [Service.step, hqueue]
    dsimp only
    rw [← State.item, ← hr, hnull]
    rfl
  · have hshows : s'.Shows p.submission r.item.answer := by
      rw [← hitem, hslot']
      exact shows_answer _ _
    have hcalls (g : ℕ) (code : ErrorCode) (hev : .invoked g code ∈ s'.log) :
        .invoked g code ∈ s.log := by
      cases execMove hexec <;> simpa using hev
    refine ⟨h.toTold.answer hk hk' hs hnew hserved hshows hcalls, rfl, fun _ => ?_, ?_,
      fun _ => ?_, fun q e' hq => ?_⟩
    · rw [hf.mounts]
      exact h.mounts (open_of_running hk.control (by rw [hpc]; rfl))
    · rw [hf.control]
      exact h.pending
    · exact ⟨(ahead_iff hk'.control (by rw [hpc']; rfl)).mpr hworld, hblock.symm⟩
    · rw [hpc'] at hq
      cases hq

/-- Steps of the processing thread. -/
lemma proc_step (h : Mirrors cfg s v) (hr : RequestInv cfg s) (hn : HandleInv s)
    (hk : Accounted cfg s) (hk' : Accounted cfg s') (hok : SearchesSettled cfg s .proc)
    (hs : step cfg s .proc = some s') (halive : s'.proc ≠ .crashed) :
    ∃ v', Reach (Service.step cfg) (fun _ b => b.Begun s) v v' ∧ Mirrors cfg s' v' := by
  cases procMove (show procStep s = some s' from hs) with
  | executes p e hpc hexec =>
    have hf := execStep_frame hexec
    obtain ⟨hslot, -⟩ := hk.executing_hand hpc
    have hitem : s'.item cfg p.submission = s.item cfg p.submission :=
      item_of_tickets (by rw [hf.tickets])
    cases exec_leads hk.own hslot (hr.executing p e hpc)
        (RequestInv.not_owes hk hok rfl hpc) hn.nodup (h.exec p e hpc) hexec with
    | on e' hpc' hleads =>
      refine ⟨v, .refl, h.toTold.keep hk hk' hs fun g => ?_, ?_, fun _ => ?_, ?_, fun hnone => ?_,
        fun q e₁ hq => ?_⟩
      · rw [served_step hk.control hs]
        refine or_iff_left ?_
        rintro ⟨q, e₁, -, -, hq, -⟩
        rw [hpc'] at hq
        cases hq
      · exact h.queue.trans (requests_keep hk hs (by rw [hpc, hpc', hf.ring]; rfl)).symm
      · rw [hf.mounts]
        exact h.mounts (open_of_running hk.control (by rw [hpc]; rfl))
      · rw [hf.control]
        exact h.pending
      · rw [hpc'] at hnone
        cases hnone
      · rw [hpc'] at hq
        cases hq
        rw [hf.mounts, hitem]
        exact hleads
    | done hpc' hnull hrecord hworld hblock =>
      obtain ⟨v', hv, hm⟩ := h.serves hk hk' hs hpc hexec hpc' rfl hnull hrecord hworld hblock
      exact ⟨v', .tail (a := .serve) .refl trivial hv, hm⟩
    | crashed hpc' => exact absurd hpc' halive
  | fetches p ring hpc hpop =>
    exact ⟨v, .refl, h.fetch hk hk' hs hpc rfl
      (RingBuffer.contents_of_pop_some hk.own.ring hpop) rfl rfl rfl rfl⟩
  | findsEmpty ring hpc hpop =>
    have hqueue : ring.contents.filterMap id = s.ring.contents.filterMap id := by
      rcases RingBuffer.contents_of_pop_none hk.own.ring hpop with hc | hc <;> rw [hc]
      rfl
    exact ⟨v, .refl, h.proc_quiet hk hk' hs (by rw [hpc]; rfl) rfl hqueue rfl rfl rfl rfl⟩
  | _ =>
    exact ⟨v, .refl, h.proc_quiet hk hk' hs (by rw [‹s.proc = _›]; rfl) rfl rfl rfl rfl rfl rfl⟩

/-! ### The control thread -/

/-- The control thread has moved on, and the service is in a state that fits. -/
lemma control_to (h : Mirrors cfg s v) (hr : RequestInv cfg s) (hk : Accounted cfg s)
    (hk' : Accounted cfg s') (hact : act ≠ .proc) (hs : step cfg s act = some s')
    (hring : s'.ring = s.ring) (hexec : s'.proc.executes = s.proc.executes)
    (hblock : s'.nextBlock = s.nextBlock) (hqueue : v'.queue = v.queue)
    (hanswers : v'.answers = v.answers) (hnext : v'.nextBlock = v.nextBlock)
    (hpending : v'.pending = s'.control.pending)
    (hmounts : s'.control.isDestroyed = false → v'.mounts = s'.mounts)
    (hahead : s'.proc.executes = none → s'.control.Ahead s' v'.world)
    (hkeep : s.proc.executes = none ∨ s'.mounts = s.mounts ∧ s'.world = s.world ∧
      v'.mounts = v.mounts ∧ v'.world = v.world) : Mirrors cfg s' v' where
  toTold := by
    rw [hanswers]
    exact h.toTold.keep hk hk' hs (served_other hk hact hs)
  queue := by
    rw [hqueue, h.queue]
    exact (requests_keep hk hs (by rw [hexec, hring])).symm
  mounts := hmounts
  pending := hpending
  calm hnone := by
    rw [hnext, hblock]
    exact ⟨hahead hnone, (h.calm (hexec ▸ hnone)).2⟩
  exec p e hpc := by
    rcases hkeep with hnone | ⟨htable, hworld, htable', hworld'⟩
    · rw [← hexec, hpc] at hnone
      cases hnone
    · rw [htable', hworld', hnext]
      exact h.exec_keep hr hk hk' hact hs hexec htable hworld hblock p e hpc

/-- What the service has while nothing is executed, by where the control thread is. -/
lemma at_control (h : Mirrors cfg s v) {pc : ControlPc D W} (hpc : s.control = pc)
    (hopen : pc.isDestroyed = false) (hnone : s.proc.executes = none) :
    v.pending = pc.pending ∧ v.mounts = s.mounts ∧ pc.Ahead s v.world := by
  subst hpc
  exact ⟨h.pending, h.mounts hopen, (h.calm hnone).1⟩

/-- The control thread has moved on between operations. -/
lemma control_quiet (h : Mirrors cfg s v) (hr : RequestInv cfg s) (hk : Accounted cfg s)
    (hk' : Accounted cfg s') (hact : act ≠ .proc) (hs : step cfg s act = some s')
    (hring : s'.ring = s.ring) (hexec : s'.proc.executes = s.proc.executes)
    (hblock : s'.nextBlock = s.nextBlock) (hmounts : s'.mounts = s.mounts)
    (hworld : s'.world = s.world) {pc : ControlPc D W} (hpc : s.control = pc)
    (hpending : s'.control.pending = pc.pending) (hopen : pc.isDestroyed = false)
    (hahead : pc.Ahead s v.world → s'.control.Ahead s' v.world) : Mirrors cfg s' v := by
  subst hpc
  exact h.control_to hr hk hk' hact hs hring hexec hblock rfl rfl rfl
    (h.pending.trans hpending.symm) (fun _ => (h.mounts hopen).trans hmounts.symm)
    (fun hnone => hahead (h.calm (hexec ▸ hnone)).1) (Or.inr ⟨hmounts, hworld, rfl, rfl⟩)

lemma executes_of_stopped (hctl : ControlInv s) {pc : ControlPc D W} (hpc : s.control = pc)
    (h : pc.phase = .stopped) : s.proc.executes = none := by
  subst hpc
  rw [ProcPc.isExited_iff.mp (hctl.stopped h)]
  rfl

/-- Steps of the control thread. -/
lemma control_step (h : Mirrors cfg s v) (hr : RequestInv cfg s) (hk : Accounted cfg s)
    (hk' : Accounted cfg s') (hok : MountsApart s .control)
    (hs : step cfg s .control = some s') :
    ∃ v', Reach (Service.step cfg) (fun _ b => b.Begun s) v v' ∧ Mirrors cfg s' v' := by
  have hact : Action.control ≠ .proc := by simp
  have one {t : State D W} (b : Service.Act) (hb : b.Begun s) (v' : Service D W)
      (hv : Service.step cfg v b = some v') (hm : Mirrors cfg t v') :
      ∃ v', Reach (Service.step cfg) (fun _ b => b.Begun s) v v' ∧ Mirrors cfg t v' :=
    ⟨v', .tail .refl hb hv, hm⟩
  cases controlMove (show controlStep cfg s = some s' from hs) with
  | destroysDevice mount hpc =>
    have hstopped := executes_of_stopped hk.control hpc rfl
    obtain ⟨hpending, hmounts, hworld, hfind⟩ := h.at_control hpc rfl hstopped
    exact ⟨v, .refl, h.control_to hr hk hk' hact hs rfl rfl rfl rfl rfl rfl hpending
      (fun _ => hmounts) (fun _ => ⟨mount, hfind, by rw [← hworld]⟩) (Or.inl hstopped)⟩
  | erases handle hpc =>
    have hstopped := executes_of_stopped hk.control hpc rfl
    obtain ⟨hpending, hmounts, mount, hfind, hworld⟩ := h.at_control hpc rfl hstopped
    refine one (.release handle) trivial { v with
        world := mount.interface.destroy mount.device v.world
        mounts := v.mounts.eraseP fun m => m.handle == handle } ?_
      (h.control_to hr hk hk' hact hs rfl rfl rfl rfl rfl rfl hpending
        (fun _ => by rw [hmounts]) (fun _ => hworld) (Or.inl hstopped))
    rw [Service.step, hmounts, hfind]
  | locksDestroy hpc =>
    exact ⟨v, .refl, h.control_quiet hr hk hk' hact hs rfl rfl rfl rfl rfl hpc rfl rfl
      fun hworld => ⟨[], rfl, hworld⟩⟩
  | finds handle mount hpc hfind =>
    have hhandle : mount.handle = handle := by simpa using List.find?_some hfind
    exact ⟨v, .refl, h.control_quiet hr hk hk' hact hs rfl rfl rfl rfl rfl hpc rfl rfl
      fun hworld => ⟨hworld, by rw [hhandle]; exact hfind⟩⟩
  | destroysNone hpc =>
    refine ⟨v, .refl, h.control_quiet hr hk hk' hact hs rfl rfl rfl rfl rfl hpc rfl rfl ?_⟩
    rintro ⟨done, hmounts, hworld⟩
    rw [List.append_nil] at hmounts
    show s.world = Service.destroyEach s.mounts v.world
    rw [hmounts, hworld]
  | destroysNext mount rest hpc =>
    have hstopped := executes_of_stopped hk.control hpc rfl
    obtain ⟨hpending, hmounts, done, hdone, hworld⟩ := h.at_control hpc rfl hstopped
    refine ⟨v, .refl, h.control_to hr hk hk' hact hs rfl rfl rfl rfl rfl rfl hpending
      (fun _ => hmounts) (fun _ => ?_) (Or.inl hstopped)⟩
    exact ⟨done ++ [mount], by simpa using hdone,
      by rw [Service.destroyEach_append, ← hworld]⟩
  | unlocksDestroy hpc =>
    have hstopped := executes_of_stopped hk.control hpc rfl
    obtain ⟨hpending, hmounts, hworld⟩ := h.at_control hpc rfl hstopped
    exact one .shutdown trivial
      { v with world := Service.destroyEach v.mounts v.world, mounts := [] } rfl
      (h.control_to hr hk hk' hact hs rfl rfl rfl rfl rfl rfl hpending
        (fun hopen => by cases hopen) (fun _ => by rw [hmounts]; exact hworld)
        (Or.inl hstopped))
  | makes args handle code mount w hpc hmake =>
    have hnone := hok rfl (by rw [hpc]; rfl)
    obtain ⟨-, hmounts, hworld⟩ := h.at_control hpc rfl hnone
    refine one (.make args handle) hpc { v with world := w, pending := some mount } ?_
      (h.control_to hr hk hk' hact hs rfl rfl rfl rfl rfl rfl rfl (fun _ => hmounts)
        (fun _ => rfl) (Or.inl hnone))
    rw [Service.step, ← show s.world = v.world from hworld, hmake]
  | makesNone args handle code w hpc hmake =>
    have hnone := hok rfl (by rw [hpc]; rfl)
    obtain ⟨-, hmounts, hworld⟩ := h.at_control hpc rfl hnone
    refine one (.make args handle) hpc { v with world := w, pending := none } ?_
      (h.control_to hr hk hk' hact hs rfl rfl rfl rfl rfl rfl rfl (fun _ => hmounts)
        (fun _ => rfl) (Or.inl hnone))
    rw [Service.step, ← show s.world = v.world from hworld, hmake]
  | pushesBack mount hpc =>
    have hnone := hok rfl (by rw [hpc]; rfl)
    obtain ⟨hpending, hmounts, hworld⟩ := h.at_control hpc rfl hnone
    refine one .mount trivial { v with mounts := v.mounts ++ [mount], pending := none } ?_
      (h.control_to hr hk hk' hact hs rfl rfl rfl rfl rfl rfl rfl (fun _ => by rw [hmounts])
        (fun _ => hworld) (Or.inl hnone))
    rw [Service.step, hpending]
    rfl
  | starts hpc =>
    have hexited := hk.control.exited_of_start hpc
    exact ⟨v, .refl, h.control_quiet hr hk hk' hact hs rfl (by rw [hexited]; rfl) rfl rfl rfl
      hpc rfl rfl id⟩
  | notifiesOne k hpc =>
    exact ⟨v, .refl, h.control_quiet hr hk hk' hact hs rfl (executes_wake _) rfl rfl rfl hpc rfl
      rfl id⟩
  | _ =>
    have hpc := ‹s.control = _›
    exact ⟨v, .refl, h.control_quiet hr hk hk' hact hs rfl rfl rfl rfl rfl hpc rfl rfl id⟩

/-- **The step lemma.** -/
theorem step (h : Mirrors cfg s v) (hr : RequestInv cfg s) (hn : HandleInv s)
    (hk : Accounted cfg s) (hk' : Accounted cfg s') (hok : OneAtATime cfg s act)
    (hs : LaminaFS.step cfg s act = some s') (halive : s'.proc ≠ .crashed) :
    ∃ v', Reach (Service.step cfg) (fun _ b => b.Begun s) v v' ∧ Mirrors cfg s' v' := by
  cases stepBy hs with
  | client a act _ hclient =>
    have hf := clientStep_frame hclient
    have hblock : s'.nextBlock = s.nextBlock := by
      cases clientMove hclient <;> rfl
    exact ⟨v, .refl, h.same hr hk hk' (by simp) hs hf.ring (by rw [hf.proc]) hf.control hf.mounts
      hf.world hblock⟩
  | agent a hagent =>
    cases agentMove hagent with
    | pushes c p hpc hdone =>
      have hring := RingBuffer.contents_push hk.own.ring
        (by simpa [RingBuffer.push_done] using hdone) (some p)
      obtain ⟨v', hv, hm⟩ := h.push hr hk hk' hs hpc hring rfl rfl rfl rfl rfl
      exact ⟨v', .tail (a := .accept p.submission c) .refl ⟨a, p, hpc⟩ hv, hm⟩
    | notifiesOne =>
      exact ⟨v, .refl, h.same hr hk hk' (by simp) hs rfl (executes_wake _) rfl rfl rfl rfl⟩
    | _ => exact ⟨v, .refl, h.same hr hk hk' (by simp) hs rfl rfl rfl rfl rfl rfl⟩
  | proc => exact h.proc_step hr hn hk hk' hok.2.1 hs halive
  | callbackReturns p hpc =>
    exact ⟨v, .refl, h.same hr hk hk' (by simp) hs rfl (by rw [hpc]; rfl) rfl rfl rfl rfl⟩
  | controlAct act hidle hcontrol =>
    have hcalm : s.control = .idle := by
      cases hpc : s.control <;> rw [hpc] at hidle <;> first | rfl | cases hidle
    cases controlActMove hcontrol with
    | beginsCreate | beginsRelease | beginsDestroy =>
      exact ⟨v, .refl, h.control_quiet hr hk hk' (by simp) hs rfl rfl rfl rfl rfl hcalm rfl rfl
        id⟩
  | control => exact h.control_step hr hk hk' hok.2.2 hs
  | wakeProc =>
    exact ⟨v, .refl, h.same hr hk hk' (by simp) hs rfl (executes_wake _) rfl rfl rfl rfl⟩
  | wakeAgent a => exact ⟨v, .refl, h.same hr hk hk' (by simp) hs rfl rfl rfl rfl rfl rfl⟩

end Mirrors

/-! ### Runs -/

/-- What a context and the service have in common. -/
structure Agrees (s : State D W) (v : Service D W) : Prop extends Told s v.answers where
  /-- the requests that are waiting or being executed, oldest first -/
  queue : v.queue = s.requests
  mounts : s.control.isDestroyed = false → v.mounts = s.mounts
  /-- the world, when nobody is changing it -/
  world : s.proc.executes = none → (s.control.isIdle || s.control.isDestroyed) = true →
    s.world = v.world

lemma Mirrors.agrees (h : Mirrors cfg s v) : Agrees s v := by
  refine ⟨h.toTold, h.queue, h.mounts, fun hnone hcontrol => ?_⟩
  have hahead := (h.calm hnone).1
  cases hpc : s.control <;> rw [hpc] at hcontrol hahead <;> first
    | exact hahead
    | cases hcontrol

/-- The processing thread that has called a null pointer does nothing any more. -/
lemma crashed_stays (hctl : ControlInv s) (hs : step cfg s act = some s')
    (hpc : s.proc = .crashed) : s'.proc = .crashed := by
  by_cases hact : act = .proc
  · subst hact
    simp [step, procStep, hpc] at hs
  · rw [proc_stays hctl hact hs (by rw [hpc]; rfl) (by rw [hpc]; rfl) (by rw [hpc]; rfl), hpc]

section Runs

variable {pool : PoolAllocator} {capacity : ℕ} {memory : ℕ → WorkItem} {world : W}

lemma mirrors_init : Mirrors cfg (State.init pool capacity memory world) (Service.init world) where
  answered g := by
    refine ⟨fun h => (by cases h), ?_⟩
    rintro (h | ⟨p, h, -⟩) <;> cases h
  shown _ _ h := by cases h
  called _ _ h := by cases h
  queue := rfl
  mounts _ := rfl
  pending := rfl
  calm _ := ⟨rfl, rfl⟩
  exec p e h := by cases h

/-- What is known of the states of runs that do one thing at a time. -/
structure Orderly (cfg : Config D W) (s : State D W) : Prop where
  serial : Serial cfg s
  requests : RequestInv cfg s
  handles : HandleInv s

lemma orderly_of_reach (hpool : pool.WF) (hcapacity : 1 ≤ capacity)
    (h : Reach (step cfg) (OneAtATime cfg) (State.init pool capacity memory world) s) :
    Orderly cfg s := by
  have hserial := serial_of_reach hpool hcapacity
    (.refl : Reach (step cfg) ReleasesLate (State.init pool capacity memory world) _)
  refine h.invariant ⟨hserial, ⟨fun g hst => (by cases hst), fun p e hpc => (by cases hpc),
    fun ev hev => (by cases hev)⟩, ⟨List.nodup_nil, fun _ hh => by cases hh⟩⟩ ?_
  intro t act t' hi hok hs
  have hown : TestsOwn t act := testsOwn_of_completed hi.serial.accounted hi.serial.tests
  exact ⟨hi.serial.step hok.1 hs, hi.requests.step hi.serial.accounted ⟨hown, hok.2.1⟩ hs,
    hi.handles.step hs⟩

/-- **The run lemma.**  From where the service looks like the context it goes on to look like it,
and does only what agents and the control thread have been about to do. -/
lemma mirrors_run {ok : State D W → Action → Prop} {may : Service.Act → Prop}
    (hpool : pool.WF) (hcapacity : 1 ≤ capacity) (hok : ∀ t act, ok t act → OneAtATime cfg t act)
    (hmay : ∀ t, Reach (step cfg) ok (State.init pool capacity memory world) t →
      ∀ b : Service.Act, b.Begun t → may b)
    {t : State D W} (ht : Reach (step cfg) ok (State.init pool capacity memory world) t)
    (hrel : t.proc = .crashed ∨ Mirrors cfg t v) (h : Reach (step cfg) ok t s) :
    ∃ v', Reach (Service.step cfg) (fun _ => may) v v' ∧
      (s.proc = .crashed ∨ Mirrors cfg s v') := by
  refine h.simulates
    (J := fun t => Orderly cfg t ∧ ∀ b : Service.Act, b.Begun t → may b)
    (R := fun s v => s.proc = .crashed ∨ Mirrors cfg s v)
    (fun _ hreach => ⟨orderly_of_reach hpool hcapacity ((ht.trans hreach).mono hok),
      hmay _ (ht.trans hreach)⟩) hrel ?_
  rintro t act t' v ⟨hi, hbegun⟩ ⟨hi', -⟩ hrel hact hs
  rcases hrel with hcrashed | hm
  · exact ⟨v, .refl, Or.inl (crashed_stays hi.serial.accounted.control hs hcrashed)⟩
  · by_cases halive : t'.proc = .crashed
    · exact ⟨v, .refl, Or.inl halive⟩
    · obtain ⟨v', hv, hm'⟩ := hm.step hi.requests hi.handles hi.serial.accounted
        hi'.serial.accounted (hok t act hact) hs halive
      exact ⟨v', hv.mono fun _ b hb => hbegun b hb, Or.inr hm'⟩

/-- There is a service that looks like the context. -/
lemma exists_service {ok : State D W → Action → Prop} {may : Service.Act → Prop}
    (hpool : pool.WF) (hcapacity : 1 ≤ capacity) (hok : ∀ t act, ok t act → OneAtATime cfg t act)
    (hmay : ∀ t, Reach (step cfg) ok (State.init pool capacity memory world) t →
      ∀ b : Service.Act, b.Begun t → may b)
    (h : Reach (step cfg) ok (State.init pool capacity memory world) s)
    (halive : s.proc ≠ .crashed) :
    ∃ v, Reach (Service.step cfg) (fun _ => may) (Service.init world) v ∧ Agrees s v := by
  obtain ⟨v, hv, hrel⟩ :=
    mirrors_run hpool hcapacity hok hmay .refl (Or.inr mirrors_init) h
  exact ⟨v, hv, (hrel.resolve_left halive).agrees⟩

/-- **Sequential consistency.**  In runs in which no client releases an item too early, mutable
mounts are looked for with finished items only, and `createMount` does not reach into an
execution: as long as no null pointer has been called, there is a run of the service that does
one thing at a time, in which the same requests have been accepted in the order of their pushes
and served as a whole, so that its table, its world and its answers are those of the context. -/
theorem sequentially_consistent (hpool : pool.WF) (hcapacity : 1 ≤ capacity)
    (h : Reach (step cfg) (OneAtATime cfg) (State.init pool capacity memory world) s)
    (halive : s.proc ≠ .crashed) :
    ∃ v, Reach (Service.step cfg) Free (Service.init world) v ∧ Agrees s v :=
  exists_service hpool hcapacity (fun _ _ hact => hact) (fun _ _ _ _ => trivial) h halive

end Runs

/-- A client truncates a file while another one looks for it, and is answered as by the service. -/
theorem sequentially_consistent_write :
    ∃ s v, Reach (step writingConfig) (OneAtATime writingConfig) smallInit s ∧
      Reach (Service.step writingConfig) Free (Service.init ()) v ∧ Agrees s v ∧
      (∃ ans, v.answers 0 = some ans) ∧ v.answers 1 = none ∧
      WorkItemGetResult (some (s.record 0)) = .ok := by
  obtain ⟨s, hs, hp⟩ := @Reach.of_guardedRun_any _ _ (step writingConfig)
    (OneAtATime writingConfig) smallInit
    (fun s act => decide (OneAtATime writingConfig s act)) (fun _ _ => of_decide_eq_true)
    (mountsRoot ++ submits 0 ⟨.writeFile none 0, [slash, 97], none⟩ 18 ++
      List.replicate 5 .proc ++ submits 1 ⟨.fileExists, [slash, 97], none⟩ 12 ++
      List.replicate 5 .proc)
    (fun s => decide (s.proc.executes = none ∧ s.proc.hand = .finished ⟨0, 0⟩ ∧
      Event.executed 0 ∈ s.log ∧ Event.executed 1 ∉ s.log ∧
      WorkItemGetResult (some (s.record 0)) = .ok)) (by decide +kernel)
  rw [decide_eq_true_eq] at hp
  obtain ⟨-, hhand, hdone, hnot, hcode⟩ := hp
  obtain ⟨v, hv, hagrees⟩ := sequentially_consistent
    (PoolAllocator.wf_new 2 (by decide) (by decide)) (by decide) hs
    (fun hpc => by rw [hpc] at hhand; cases hhand)
  refine ⟨s, v, hs, hv, hagrees,
    Option.isSome_iff_exists.mp ((hagrees.answered 0).mpr (Or.inl hdone)), ?_, hcode⟩
  rw [← Option.not_isSome_iff_eq_none, hagrees.answered]
  rintro (h | ⟨p, h, -⟩)
  · exact hnot h
  · rw [h] at hhand
    cases hhand

end LaminaFS
