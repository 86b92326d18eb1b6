/-
# Who writes to a work item

A slot is written by the agent that fills it, by the processing thread while it executes the
item, and by whoever frees the buffer of a complete item.  One step does one of a few things to
the record of a submission, and to a record whose slot is not the one it works on it does
nothing.
-/
import LaminaFS.Context.Ledger

namespace LaminaFS

open Transition

variable {D W : Type} {cfg : Config D W} {s s' : State D W} {a : Agent} {g : ℕ}

/-- What a step does to the record of a submission that occupies its slot. -/
inductive RecordStep (cfg : Config D W) (s : State D W) (act : Action) (s' : State D W)
    (g : ℕ) : Prop
  /-- the slot has just been taken -/
  | taken (hborn : s.stage g = .unborn) (hstage : s'.stage g = .building)
  /-- its agent is filling it -/
  | filled (hact : act = .agent (s.tickets g).agent) (hstage : s'.stage g = .building)
  /-- it has been filled, and is pushed -/
  | posted (hact : act = .agent (s.tickets g).agent) (hborn : s.stage g = .building)
      (hstage : s'.stage g = .queued)
      (hrecord : s'.record g = (s.plan cfg g).built)
      (hpc : s'.agents (s.tickets g).agent =
          .notify (s.tickets g).call ⟨(s.tickets g).slot, g⟩ ∨
        s'.agents (s.tickets g).agent =
          .late (s.tickets g).call ⟨(s.tickets g).slot, g⟩ (s.plan cfg g).late)
  /-- nothing is done to it -/
  | same (hborn : s.stage g ≠ .unborn) (hocc : s.Occupies g)
      (hposted : (s'.stage g).isPosted = (s.stage g).isPosted)
      (hdone : (s'.stage g).isDone = (s.stage g).isDone) (hrecord : s'.record g = s.record g)
  /-- the assignment behind the push in `writeFile` -/
  | late (hposted : s.Posted g) (hstage : s'.stage g = s.stage g)
      (hcallback : (s.tickets g).call.withCallback = none)
      (hverb : ∃ buffer bufferBytes, (s.tickets g).call.verb = .writeFile buffer bufferBytes)
      (hrecord : s'.record g = { s.record g with operation := .opWrite })
  /-- the processing thread executes it -/
  | executing (p : ItemPtr) (e : ExecPc D W) (hact : act = .proc) (hg : p.submission = g)
      (hslot : p.slot = (s.tickets g).slot) (hpc : s.proc = .exec p e)
      (hstage : s.stage g = .executing) (hs : execStep s p e = some s')
  /-- the processing thread completes it -/
  | completed (hposted : s.Posted g) (hstage : s'.stage g = .completed)
      (hrecord : s'.record g = { s.record g with completed := true })
  /-- its buffer is freed -/
  | freed (hposted : s.Posted g) (hstage : s'.stage g = s.stage g)
      (hdone : (s.stage g).isDone = true) (hrecord : s'.record g = (s.record g).freeBuffer.2)

/-- A pointer to an item in its slot does not point to the slot of another item. -/
lemma other_slot {p : ItemPtr} (hp : s.occupant p.slot = p.submission) (hg : s.Occupies g)
    (hne : g ≠ p.submission) : (s.tickets g).slot ≠ p.slot := by
  intro he
  rw [State.Occupies, he, hp] at hg
  exact hne hg.symm

namespace RecordStep

variable {act : Action}

/-- A step that does not touch the record. -/
lemma of_slot_eq (hborn : s'.stage g ≠ .unborn) (hocc : s'.Occupies g)
    (hoccupant : s'.occupant = s.occupant) (htickets : s'.tickets = s.tickets)
    (hstage : s'.stage g = s.stage g)
    (hslots : s'.slots (s.tickets g).slot = s.slots (s.tickets g).slot) :
    RecordStep cfg s act s' g := by
  refine .same (hstage ▸ hborn) ?_ (by rw [hstage]) (by rw [hstage]) ?_
  · rwa [State.Occupies, hoccupant, htickets] at hocc
  · rw [State.record, htickets, hslots]
    rfl

/-- A step that writes to the slot of another item. -/
lemma of_write {p : ItemPtr} {item : WorkItem} (hborn : s'.stage g ≠ .unborn)
    (hocc : s'.Occupies g) (hoccupant : s'.occupant = s.occupant)
    (htickets : s'.tickets = s.tickets) (hstage : s'.stage g = s.stage g)
    (hslots : s'.slots = Function.update s.slots p.slot item)
    (hp : s.occupant p.slot = p.submission) (hne : g ≠ p.submission) :
    RecordStep cfg s act s' g := by
  have hocc' := hocc
  rw [State.Occupies, hoccupant, htickets] at hocc'
  refine .of_slot_eq hborn hocc hoccupant htickets hstage ?_
  rw [hslots, Function.update_of_ne (other_slot hp hocc' hne)]

/-- What is being built is written by its agent only. -/
lemma of_building (h : RecordStep cfg s act s' g) (hst : s.stage g = .building)
    (hact : act ≠ .agent (s.tickets g).agent) : s'.record g = s.record g := by
  have hnot : ¬ s.Posted g := fun hposted => hposted.ne_building hst
  cases h with
  | taken hborn _ =>
    rw [hborn] at hst
    cases hst
  | filled hact' _ | posted hact' _ _ _ _ => exact absurd hact' hact
  | same _ _ _ _ hrecord => exact hrecord
  | late hposted _ _ _ _ | completed hposted _ _ | freed hposted _ _ _ => exact absurd hposted hnot
  | executing _ _ _ _ _ _ hstage _ =>
    rw [hstage] at hst
    cases hst

end RecordStep

/-- The execution of an item writes to its slot only. -/
lemma execStep_slots {p : ItemPtr} {e : ExecPc D W} (hs : execStep s p e = some s') :
    ∃ item, s'.slots = Function.update s.slots p.slot item := by
  have hself : s.slots = Function.update s.slots p.slot (s.slots p.slot) :=
    (Function.update_eq_self _ _).symm
  cases execMove hs with
  | dispatchesLookup | dispatchesMutation | callsLookup | unlocksNone | callsMutable =>
    exact ⟨_, rfl⟩
  | _ => exact ⟨_, hself⟩

namespace OwnInv

/-- `WorkItemFreeBuffer` on a complete item. -/
lemma freeBuffer_record (hl : Handoff.Inv s.ledger) {p : ItemPtr} {act : Action}
    (hslot : p.slot = (s.tickets p.submission).slot)
    (hdone : (s.stage p.submission).isDone = true)
    (hlive : (s.stage p.submission).isLive = true)
    (hslots : s'.slots = Function.update s.slots p.slot (s.slots p.slot).freeBuffer.2)
    (hoccupant : s'.occupant = s.occupant) (htickets : s'.tickets = s.tickets)
    (hstage : s'.stage = s.stage) (hborn : s'.stage g ≠ .unborn) (hocc : s'.Occupies g) :
    RecordStep cfg s act s' g := by
  have hp := occupant_of_live hl hslot hlive
  by_cases hg : g = p.submission
  · subst hg
    have hposted : s.Posted p.submission := by
      refine ⟨?_, occupies_of_live hl hlive⟩
      cases hst : s.stage p.submission <;> rw [hst] at hdone <;> first | rfl | cases hdone
    refine .freed hposted (by rw [hstage]) hdone ?_
    rw [State.record, htickets, ← hslot, hslots, Function.update_self, State.record, ← hslot]
  · exact .of_write hborn hocc hoccupant htickets (by rw [hstage]) hslots hp hg

/-- `_workItemPool.free` on a complete item. -/
lemma release_record (hl : Handoff.Inv s.ledger) {p : ItemPtr} {act : Action}
    (hslot : p.slot = (s.tickets p.submission).slot)
    (hdone : (s.stage p.submission).isDone = true)
    (hlive : (s.stage p.submission).isLive = true)
    (hslots : s'.slots = s.slots) (hoccupant : s'.occupant = s.occupant)
    (htickets : s'.tickets = s.tickets)
    (hstage : s'.stage = Function.update s.stage (s.occupant p.slot) .released)
    (hborn : s'.stage g ≠ .unborn) (hocc : s'.Occupies g) : RecordStep cfg s act s' g := by
  rw [occupant_of_live hl hslot hlive] at hstage
  by_cases hg : g = p.submission
  · subst hg
    have hocc' : s.Occupies p.submission := by
      rwa [State.Occupies, hoccupant, htickets] at hocc
    refine .same ?_ hocc' ?_ ?_ ?_
    · intro hst
      rw [hst] at hdone
      cases hdone
    · rw [hstage, Function.update_self]
      cases hst : s.stage p.submission <;> rw [hst] at hdone <;> first | rfl | cases hdone
    · rw [hstage, Function.update_self, hdone]
      rfl
    · rw [State.record, htickets, hslots]
      rfl
  · refine .of_slot_eq hborn hocc hoccupant htickets ?_ (by rw [hslots])
    rw [hstage, Function.update_of_ne hg]

/-- Client code. -/
lemma client_record (hl : Handoff.Inv s.ledger) {act : ClientAct}
    (hs : clientStep s a act = some s') (hborn : s'.stage g ≠ .unborn) (hocc : s'.Occupies g) :
    RecordStep cfg s (.client a act) s' g := by
  cases clientMove hs with
  | frees p hmay | freesNull p hmay =>
    have hplace : p.slot = (s.tickets p.submission).slot ∧
        (s.stage p.submission).isDone = true ∧ (s.stage p.submission).isLive = true := by
      rw [Bool.or_eq_true] at hmay
      rcases hmay with howns | hcallback
      · simp only [State.owns, Bool.and_eq_true, decide_eq_true_eq] at howns
        have hst : s.stage p.submission = .completed := hl.told p howns.1 howns.2
        rw [hst]
        exact ⟨(hl.held p howns.1).1, rfl, rfl⟩
      · have hpc : s.proc = .inCallback p := by
          unfold State.isCallbackItem at hcallback
          split at hcallback
          · rename_i q hq
            rw [hq, beq_iff_eq.mp hcallback]
          · cases hcallback
        have hfits := fits_of_hand hl (show s.proc.hand = .after p by rw [hpc]; rfl)
        rw [show s.stage p.submission = _ from hfits.2]
        exact ⟨hfits.1, rfl, rfl⟩
    exact freeBuffer_record hl hplace.1 hplace.2.1 hplace.2.2 rfl rfl rfl rfl hborn hocc
  | releases p hheld hreported =>
    have hst : s.stage p.submission = .completed := hl.told p hheld hreported
    exact release_record hl (hl.held p hheld).1 (by rw [hst]; rfl) (by rw [hst]; rfl) rfl rfl
      rfl rfl hborn hocc
  | _ => exact .of_slot_eq hborn hocc rfl rfl rfl rfl

/-- `_workItemPool.alloc`. -/
lemma taken_record (hl : Handoff.Inv s.ledger) {act : Action} {c : Call} {i : ℕ}
    (hslots : s'.slots = s.slots)
    (hoccupant : s'.occupant = Function.update s.occupant i s.nextSubmission)
    (htickets : s'.tickets = Function.update s.tickets s.nextSubmission ⟨c, a, i⟩)
    (hstage : s'.stage = Function.update s.stage s.nextSubmission .building)
    (hborn : s'.stage g ≠ .unborn) (hocc : s'.Occupies g) : RecordStep cfg s act s' g := by
  by_cases hg : g = s.nextSubmission
  · subst hg
    exact .taken ((hl.born _).mpr (Nat.le_refl _)) (by rw [hstage, Function.update_self])
  · have hticket : s'.tickets g = s.tickets g := by rw [htickets, Function.update_of_ne hg]
    have hsame : s'.stage g = s.stage g := by rw [hstage, Function.update_of_ne hg]
    rw [State.Occupies, hticket, hoccupant] at hocc
    -- the slot that has been taken was not that of the item
    have hne : (s.tickets g).slot ≠ i := by
      intro he
      rw [he, Function.update_self] at hocc
      exact hg hocc.symm
    rw [Function.update_of_ne hne] at hocc
    refine .same (hsame ▸ hborn) hocc (by rw [hsame]) (by rw [hsame]) ?_
    rw [State.record, hticket, hslots, State.record]

/-- An assignment before the push. -/
lemma filled_record (hl : Handoff.Inv s.ledger) {p : ItemPtr} {item : WorkItem}
    (hrole : (s.agents a).role = .building p)
    (hslots : s'.slots = Function.update s.slots p.slot item)
    (hoccupant : s'.occupant = s.occupant) (htickets : s'.tickets = s.tickets)
    (hstage : s'.stage = s.stage) (hborn : s'.stage g ≠ .unborn) (hocc : s'.Occupies g) :
    RecordStep cfg s (.agent a) s' g := by
  obtain ⟨hslot, hst, howner⟩ := building_of_role hl hrole
  by_cases hg : g = p.submission
  · subst hg
    exact .filled (by rw [howner]) (by rw [hstage, hst])
  · have hp := occupant_of_live hl hslot (by rw [hst]; rfl)
    exact .of_write hborn hocc hoccupant htickets (by rw [hstage]) hslots hp hg

/-- The assignment behind a push: there is one only, in the function without a callback. -/
lemma late_record (hl : Handoff.Inv s.ledger) {act : Action} {c : Call} {p : ItemPtr}
    {store : Store} {todo : List Store} (hrole : (s.agents a).role = .posted p)
    (hbuilds : (AgentPc.late c p (store :: todo)).Builds cfg s a)
    (hslots : s'.slots =
      Function.update s.slots p.slot (store.apply (s.slots p.slot)))
    (hoccupant : s'.occupant = s.occupant) (htickets : s'.tickets = s.tickets)
    (hstage : s'.stage = s.stage) (hborn : s'.stage g ≠ .unborn) (hocc : s'.Occupies g) :
    RecordStep cfg s act s' g := by
  obtain ⟨hissued, done, hlate⟩ := hbuilds
  have hcall : (s.tickets p.submission).call = c := by rw [hissued]
  obtain ⟨rfl, hcallback, hverb⟩ := Call.of_late cfg.contextAlloc hlate
  obtain ⟨hslot, hposted, -, -, halive⟩ := hl.posted a p hrole
  have hslot : p.slot = (s.tickets p.submission).slot := hslot
  have hagents : (s.tickets p.submission).hasCallback = false := by
    rw [Ticket.hasCallback, hcall, hcallback]
    rfl
  have hlive := Handoff.Stage.isLive_of_isPosted hposted (halive hagents)
  by_cases hg : g = p.submission
  · subst hg
    refine .late ⟨hposted, occupies_of_live hl hlive⟩ (by rw [hstage]) (by rw [hcall, hcallback])
      (by rw [hcall]; exact hverb) ?_
    rw [State.record, htickets, ← hslot, hslots, Function.update_self, State.record, ← hslot]
    rfl
  · exact .of_write hborn hocc hoccupant htickets (by rw [hstage]) hslots
      (occupant_of_live hl hslot hlive) hg

/-- The functions that clients call. -/
lemma agent_record (h : OwnInv cfg s) (hl : Handoff.Inv s.ledger)
    (hs : agentStep cfg s a = some s') (hborn : s'.stage g ≠ .unborn) (hocc : s'.Occupies g) :
    RecordStep cfg s (.agent a) s' g := by
  have hbuilds := h.agents a
  cases agentMove hs with
  | takes c i => exact taken_record hl rfl rfl rfl rfl hborn hocc
  | constructs c p hpc | stores c p store todo hpc =>
    exact filled_record hl (by rw [hpc]; rfl) rfl rfl rfl rfl hborn hocc
  | pushes c p hpc =>
    rw [hpc] at hbuilds
    obtain ⟨hslot, hst, howner⟩ := building_of_role (a := a) hl (by rw [hpc]; rfl)
    by_cases hg : g = p.submission
    · subst hg
      refine .posted (by rw [howner]) hst (by simp) ?_ ?_
      · show s.slots (s.tickets p.submission).slot = _
        rw [← hslot, hbuilds.2, State.plan, hbuilds.1]
      · rw [State.plan, hbuilds.1]
        dsimp only
        rw [Function.update_self]
        cases (s.ring.push (some p)).notify
        · exact Or.inr rfl
        · exact Or.inl rfl
    · exact .of_slot_eq hborn hocc rfl rfl (Function.update_of_ne hg _ _) rfl
  | storesLate c p store todo hpc =>
    rw [hpc] at hbuilds
    exact late_record hl (by rw [hpc]; rfl) hbuilds rfl rfl rfl rfl hborn hocc
  | _ => exact .of_slot_eq hborn hocc rfl rfl rfl rfl

/-- The processing thread. -/
lemma proc_record (h : OwnInv cfg s) (hl : Handoff.Inv s.ledger) (hs : procStep s = some s')
    (hborn : s'.stage g ≠ .unborn) (hocc : s'.Occupies g) : RecordStep cfg s .proc s' g := by
  cases procMove hs with
  | executes p e hpc hs =>
    obtain ⟨hslot, hst⟩ := fits_of_hand hl (show s.proc.hand = .working p by rw [hpc]; rfl)
    have hlive : (s.stage p.submission).isLive = true := by
      rw [show s.stage p.submission = _ from hst]
      rfl
    have hf := execStep_frame hs
    obtain ⟨item, hslots⟩ := execStep_slots hs
    by_cases hg : g = p.submission
    · subst hg
      exact .executing p e rfl rfl hslot hpc hst hs
    · exact .of_write hborn hocc hf.occupant hf.tickets (by rw [hf.stage]) hslots
        (occupant_of_live hl hslot hlive) hg
  | fetches p ring hpc hpop =>
    have hst : s.stage p.submission = .queued := by
      refine (hl.queue p ?_).2
      show p ∈ s.ring.contents.filterMap id
      rw [RingBuffer.contents_of_pop_some h.ring hpop]
      exact List.mem_cons_self
    by_cases hg : g = p.submission
    · subst hg
      exact .same (by rw [hst]; simp) hocc (by simp [hst, Handoff.Stage.isPosted])
        (by simp [hst, Handoff.Stage.isDone]) rfl
    · exact .of_slot_eq hborn hocc rfl rfl (Function.update_of_ne hg _ _) rfl
  | completes p hpc =>
    obtain ⟨hslot, hst⟩ := fits_of_hand hl (show s.proc.hand = .working p by rw [hpc]; rfl)
    have hst : s.stage p.submission = .executing := hst
    have hocc' : s.Occupies p.submission := occupies_of_live hl (by rw [hst]; rfl)
    by_cases hg : g = p.submission
    · subst hg
      refine .completed ⟨by rw [hst]; rfl, hocc'⟩ (by simp) ?_
      show Function.update s.slots p.slot _ (s.tickets p.submission).slot = _
      rw [State.record, ← show p.slot = (s.tickets p.submission).slot from hslot,
        Function.update_self]
    · exact .of_write hborn hocc rfl rfl (Function.update_of_ne hg _ _) rfl
        (occupant_of_live hl hslot (by rw [hst]; rfl)) hg
  | invokes p hpc =>
    obtain ⟨hslot, hst, -⟩ :=
      fits_of_hand hl (show s.proc.hand = .calling p by rw [hpc]; rfl)
    have hst : s.stage p.submission = .completed := hst
    have hp := occupant_of_live hl hslot (by rw [hst]; rfl)
    by_cases hg : g = p.submission
    · subst hg
      exact .same (by rw [hst]; simp) hocc (by simp [hp, hst, Handoff.Stage.isPosted])
        (by simp [hp, hst, Handoff.Stage.isDone]) rfl
    · exact .of_slot_eq hborn hocc rfl rfl (Function.update_of_ne (by rwa [hp]) _ _) rfl
  | frees p hpc | freesNull p hpc =>
    obtain ⟨hslot, hst⟩ := fits_of_hand hl (show s.proc.hand = .after p by rw [hpc]; rfl)
    have hst : s.stage p.submission = .called := hst
    exact freeBuffer_record hl hslot (by rw [hst]; rfl) (by rw [hst]; rfl) rfl rfl rfl rfl hborn
      hocc
  | releases p hpc =>
    obtain ⟨hslot, hst⟩ := fits_of_hand hl (show s.proc.hand = .after p by rw [hpc]; rfl)
    have hst : s.stage p.submission = .called := hst
    exact release_record hl hslot (by rw [hst]; rfl) (by rw [hst]; rfl) rfl rfl rfl rfl hborn hocc
  | _ => exact .of_slot_eq hborn hocc rfl rfl rfl rfl

/-- **The inversion of a step**, for the record of one submission. -/
theorem record_step {act : Action} (h : OwnInv cfg s) (hl : Handoff.Inv s.ledger)
    (hs : step cfg s act = some s') (hborn : s'.stage g ≠ .unborn) (hocc : s'.Occupies g) :
    RecordStep cfg s act s' g := by
  cases stepBy hs with
  | client a act _ hs => exact client_record hl hs hborn hocc
  | agent a hs => exact h.agent_record hl hs hborn hocc
  | proc hs => exact h.proc_record hl hs hborn hocc
  | callbackReturns => exact .of_slot_eq hborn hocc rfl rfl rfl rfl
  | controlAct act _ hs =>
    obtain ⟨hf, -⟩ := controlActStep_frame hs
    exact .of_slot_eq hborn hocc hf.occupant hf.tickets (by rw [hf.stage]) (by rw [hf.slots])
  | control hs =>
    obtain ⟨hf, -⟩ := controlStep_frame hs
    exact .of_slot_eq hborn hocc hf.occupant hf.tickets (by rw [hf.stage]) (by rw [hf.slots])
  | wakeProc | wakeAgent a => exact .of_slot_eq hborn hocc rfl rfl rfl rfl

end OwnInv

/-! ### What the execution of an item leaves alone -/

/-- The fields that the execution of an item does not change. -/
structure Kept (item item' : WorkItem) : Prop where
  operation : item'.operation = item.operation
  callback : item'.callback = item.callback
  allocator : item'.allocator = item.allocator
  filename : item'.filename = item.filename
  offset : item'.offset = item.offset
  nullTerminate : item'.nullTerminate = item.nullTerminate
  completed : item'.completed = item.completed

lemma Kept.refl (item : WorkItem) : Kept item item := by constructor <;> rfl

lemma kept_dispatch (item : WorkItem) : Kept item item.dispatch.1 := by
  unfold WorkItem.dispatch
  split <;> constructor <;> rfl

lemma kept_callLookup (l : Lookup) (mount : MountInfo D W) (devicePath : CString) (block : ℕ)
    (item : WorkItem) (w : W) : Kept item (callLookup l mount devicePath block item w).item := by
  unfold callLookup
  cases l <;> constructor <;> rfl

lemma kept_callPath (function : Option (D → CString → W → ErrorCode × W)) (call : DeviceCall)
    (mount : MountInfo D W) (devicePath : CString) (item : WorkItem) (w : W) :
    Kept item (callPath function call mount devicePath item w).item := by
  unfold callPath
  cases function <;> constructor <;> rfl

lemma kept_callMutable (m : Mutation) (mode : WriteMode) (mount : MountInfo D W)
    (devicePath : CString) (item : WorkItem) (w : W) :
    Kept item (callMutable m mode mount devicePath item w).item := by
  unfold callMutable
  cases m with
  | writeFile =>
    dsimp only
    split <;> constructor <;> rfl
  | deleteFile | createDir | deleteDir => exact kept_callPath _ _ _ _ _ _

lemma kept_noMutableMount (m : Mutation) (item : WorkItem) :
    Kept item (noMutableMount m item) := by
  cases m <;> constructor <;> rfl

lemma execStep_kept {p : ItemPtr} {e : ExecPc D W} (hs : execStep s p e = some s') :
    Kept (s.slots p.slot) (s'.slots p.slot) := by
  have hself {item : WorkItem} (hslots : s'.slots = Function.update s.slots p.slot item)
      (h : Kept (s.slots p.slot) item) : Kept (s.slots p.slot) (s'.slots p.slot) := by
    rwa [hslots, Function.update_self]
  cases execMove hs with
  | dispatchesLookup item l hd | dispatchesMutation item m hd =>
    have hkept := kept_dispatch (s.slots p.slot)
    rw [hd] at hkept
    exact hself rfl hkept
  | callsLookup l mount devicePath r hr =>
    exact hself rfl (hr ▸ kept_callLookup _ _ _ _ _ _)
  | callsMutable m mode mount devicePath r hr =>
    exact hself rfl (hr ▸ kept_callMutable _ _ _ _ _ _)
  | unlocksNone m => exact hself rfl (kept_noMutableMount _ _)
  | _ => exact .refl _

end LaminaFS
