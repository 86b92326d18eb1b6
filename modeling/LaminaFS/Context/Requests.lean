/-
# What is executed is what was asked for

Every read of an item by the processing thread is a read of what the submission function has
written, as long as that function does not write any more.  `writeFile` does: it assigns
`LFS_OP_WRITE` behind the push.  The processing thread may search a mount and call the device
before that.
-/
import LaminaFS.Context.Progress

namespace LaminaFS

open Transition

variable {D W : Type} {cfg : Config D W} {s s' : State D W} {a : Agent} {g : ℕ}

/-! ### The device calls of an item -/

/-- The device call of a lookup. -/
def Lookup.call (l : Lookup) (item : WorkItem) (devicePath : CString) : DeviceCall :=
  match l with
  | .fileExists => .fileExists devicePath
  | .fileSize => .fileSize devicePath
  | .readFile maxBytes =>
    .readFile devicePath item.offset maxBytes item.allocator item.nullTerminate

/-- The device call of a mutation. -/
def Mutation.call (m : Mutation) (mode : WriteMode) (item : WorkItem) (devicePath : CString) :
    DeviceCall :=
  match m with
  | .writeFile => .writeFile devicePath item.offset item.buffer item.bufferBytes mode
  | .deleteFile => .deleteFile devicePath
  | .createDir => .createDir devicePath
  | .deleteDir => .deleteDir devicePath

lemma callLookup_call (l : Lookup) (mount : MountInfo D W) (devicePath : CString) (block : ℕ)
    (item : WorkItem) (w : W) :
    (callLookup l mount devicePath block item w).called.call = l.call item devicePath := by
  cases l <;> rfl

lemma callMutable_call (m : Mutation) (mode : WriteMode) (mount : MountInfo D W)
    (devicePath : CString) (item : WorkItem) (w : W) :
    (callMutable m mode mount devicePath item w).called.call = m.call mode item devicePath := by
  cases m <;> simp only [callMutable, callPath] <;> split <;> rfl

/-- A lookup reads fields only that the execution leaves alone. -/
lemma Kept.lookup_call {item item' : WorkItem} (h : Kept item item') (l : Lookup)
    (devicePath : CString) : l.call item' devicePath = l.call item devicePath := by
  cases l with
  | readFile maxBytes => rw [Lookup.call, Lookup.call, h.offset, h.allocator, h.nullTerminate]
  | _ => rfl

/-- The cases that look for a mutable mount assign nothing before that. -/
lemma dispatch_mutation {item : WorkItem} {m : Mutation} (h : item.dispatch.2 = .mutation m) :
    item.dispatch.1 = item := by
  unfold WorkItem.dispatch at h ⊢
  cases hop : item.operation <;> simp only [hop] at h ⊢ <;> cases h

namespace Call

variable {contextAlloc : Allocator} {c : Call}

lemma item_filename : (c.item contextAlloc).filename = normalizePath c.path := by
  unfold item
  cases c.verb <;> dsimp only

/-- The item asks for the device calls that the call names. -/
lemma item_lookup {l : Lookup} (h : (c.item contextAlloc).dispatch.2 = .lookup l)
    (devicePath : CString) :
    l.call (c.item contextAlloc) devicePath = c.deviceCall contextAlloc devicePath := by
  obtain ⟨verb, path, cb⟩ := c
  cases verb <;> cases h <;> rfl

lemma item_mutation {m : Mutation} (h : (c.item contextAlloc).dispatch.2 = .mutation m)
    (devicePath : CString) :
    m.call (c.item contextAlloc).writeMode (c.item contextAlloc) devicePath =
      c.deviceCall contextAlloc devicePath := by
  obtain ⟨verb, path, cb⟩ := c
  cases verb <;> cases h <;> rfl

/-- Only `writeFile` without a callback pushes its item before it is finished. -/
lemma pushed_writeFile (h : c.pushedOperation ≠ c.operation) :
    c.pushedOperation = .opWriteSegment ∧ c.operation = .opWrite ∧
      (c.item contextAlloc).dispatch.2 = .mutation .writeFile := by
  obtain ⟨verb, path, cb⟩ := c
  cases verb <;> cases cb <;> first | exact absurd rfl h | exact ⟨rfl, rfl, rfl⟩

end Call

/-! ### What the processing thread relies on -/

/-- The function that the agent is in has still to write to the item. -/
def AgentPc.owesStore (contextAlloc : Allocator) (p : ItemPtr) : AgentPc → Bool
  | .notify c q | .notifyOne c q => q == p && !(c.plan contextAlloc).late.isEmpty
  | .late _ q todo => q == p && !todo.isEmpty
  | _ => false

namespace State

/-- The submission function has still to write to the item of the submission. -/
def Owes (cfg : Config D W) (s : State D W) (g : ℕ) : Prop :=
  (s.agents (s.tickets g).agent).owesStore cfg.contextAlloc ⟨(s.tickets g).slot, g⟩ = true

/-- The normalised path of the call. -/
def path (s : State D W) (g : ℕ) : CString := normalizePath (s.tickets g).call.path

/-- The item is as the call asks for, but for what the submission function has still to
write. -/
def Asked (cfg : Config D W) (s : State D W) (g : ℕ) : Prop :=
  s.record g = s.item cfg g ∨ s.record g = (s.plan cfg g).built ∧ s.Owes cfg g

/-- The item makes the lookups that the call asks for. -/
def Looks (cfg : Config D W) (s : State D W) (g : ℕ) (l : Lookup) : Prop :=
  (s.record g).operation = (s.tickets g).call.operation ∧ (s.record g).filename = s.path g ∧
    ∀ devicePath, l.call (s.record g) devicePath =
      (s.tickets g).call.deviceCall cfg.contextAlloc devicePath

/-- The item is finished, and the call asks for the mutation. -/
def Settled (cfg : Config D W) (s : State D W) (g : ℕ) (m : Mutation) : Prop :=
  s.record g = s.item cfg g ∧ (s.item cfg g).dispatch.2 = .mutation m

end State

/-- The execution of the item follows the call. -/
def ExecPc.Follows (cfg : Config D W) (s : State D W) (g : ℕ) : ExecPc D W → Prop
  | .dispatch => s.Asked cfg g
  | .findNext l _ => s.Looks cfg g l
  | .scanNext l path _ _ => s.Looks cfg g l ∧ path = s.path g
  | .callLookup l mount devicePath => s.Looks cfg g l ∧ devicePath = mount.devicePath (s.path g)
  | .findMutable m => s.Asked cfg g ∧ (s.item cfg g).dispatch.2 = .mutation m
  | .lockShared m _ path | .scanMutable m _ path _ => s.Settled cfg g m ∧ path = s.path g
  | .unlockShared m found => s.Settled cfg g m ∧
      ∀ mount devicePath, found = some (mount, devicePath) →
        devicePath = mount.devicePath (s.path g)
  | .modeSwitch mount devicePath => s.Settled cfg g .writeFile ∧
      devicePath = mount.devicePath (s.path g)
  | .callMutable m mode mount devicePath => s.Settled cfg g m ∧
      (m = .writeFile → mode = (s.item cfg g).writeMode) ∧
      devicePath = mount.devicePath (s.path g)

/-- The path of a file under a mount: what is behind the prefix, or everything at the root. -/
def relativePath (prefixStr path : CString) : CString :=
  if u32 prefixStr.length = 1 then path else path.drop (u32 prefixStr.length)

/-- The event is one that the call asks for. -/
def Event.Follows (cfg : Config D W) (s : State D W) : Event → Prop
  | .searched g op path => op = (s.tickets g).call.operation ∧ path = s.path g
  | .deviceCall g _ prefixStr call =>
    call = (s.tickets g).call.deviceCall cfg.contextAlloc (relativePath prefixStr (s.path g))
  | _ => True

/-- The invariant of the requests. -/
structure RequestInv (cfg : Config D W) (s : State D W) : Prop where
  queued : ∀ g, s.stage g = .queued → s.Asked cfg g
  executing : ∀ p e, s.proc = .exec p e → e.Follows cfg s p.submission
  events : ∀ e ∈ s.log, e.Follows cfg s ∧ ∀ g ∈ e.worksFor, s.stage g ≠ .unborn

/-- The item whose operation `findMutableMountAndPath` is given next. -/
def ProcPc.searches : ProcPc D W → Option ItemPtr
  | .exec p (.findMutable _) => some p
  | _ => none

/-- When the processing thread looks for a mutable mount, the submission function has written
all it has to write to the item. -/
def SearchesSettled (cfg : Config D W) (s : State D W) (act : Action) : Prop :=
  act = .proc → ∀ p ∈ s.proc.searches,
    (s.agents (s.tickets p.submission).agent).owesStore cfg.contextAlloc p = false

instance (cfg : Config D W) (s : State D W) : DecidablePred (SearchesSettled cfg s) :=
  fun _ => inferInstanceAs (Decidable (_ → _))

/-- The steps that keep the requests of the items apart and settled. -/
def FollowsRequests (cfg : Config D W) (s : State D W) (act : Action) : Prop :=
  TestsOwn s act ∧ SearchesSettled cfg s act

instance (cfg : Config D W) (s : State D W) : DecidablePred (FollowsRequests cfg s) :=
  fun _ => inferInstanceAs (Decidable (_ ∧ _))

/-! ### What others do to a pushed item -/

/-- Nothing, but for the assignment behind the push. -/
inductive Touched (cfg : Config D W) (s s' : State D W) (g : ℕ) : Prop
  | same (hrecord : s'.record g = s.record g) (howes : s.Owes cfg g → s'.Owes cfg g)
  | late (hcall : (s.tickets g).call.operation = .opWrite)
      (hrecord : s'.record g = { s.record g with operation := .opWrite })

@[simp] lemma owesStore_wake (contextAlloc : Allocator) (p : ItemPtr) (pc : AgentPc) :
    pc.wake.owesStore contextAlloc p = pc.owesStore contextAlloc p := by
  cases pc <;> rfl

/-- A function that owes an assignment goes on owing it, or makes it. -/
lemma owes_step {act : Action} (h : OwnInv cfg s) (hs : step cfg s act = some s')
    (htickets : s'.tickets g = s.tickets g) (howes : s.Owes cfg g) :
    s'.Owes cfg g ∨ s'.record g = { s.record g with operation := .opWrite } := by
  have hstay (hb : (s'.agents (s.tickets g).agent).owesStore cfg.contextAlloc
      ⟨(s.tickets g).slot, g⟩ = true) : s'.Owes cfg g := by
    rwa [State.Owes, htickets]
  by_cases hact : act = .agent (s.tickets g).agent
  · subst hact
    have hbuilds := h.agents (s.tickets g).agent
    have howes := howes
    unfold State.Owes at howes
    cases agentMove (show agentStep cfg s (s.tickets g).agent = some s' from hs) with
    | notifies c q hpc | notifiesOne c q hpc =>
      rw [hpc] at howes
      exact Or.inl (hstay (by dsimp only; rw [Function.update_self]; exact howes))
    | storesLate c q store todo hpc =>
      rw [hpc] at howes hbuilds
      obtain ⟨-, done, hlate⟩ := hbuilds
      have hq : q = ⟨(s.tickets g).slot, g⟩ := by
        simpa [AgentPc.owesStore] using howes
      -- the one assignment that there can be
      obtain ⟨rfl, -⟩ := Call.of_late cfg.contextAlloc hlate
      subst hq
      refine Or.inr ?_
      show Function.update s.slots (s.tickets g).slot _ (s.tickets g).slot = _
      rw [Function.update_self]
      rfl
    | returns c q hpc =>
      rw [hpc] at howes
      simp [AgentPc.owesStore] at howes
    | _ =>
      rw [‹s.agents _ = _›] at howes
      cases howes
  · rcases step_agents hs hact with he | he | ⟨hidle, -⟩
    · exact Or.inl (hstay (he ▸ howes))
    · exact Or.inl (hstay (by rw [he, owesStore_wake]; exact howes))
    · rw [State.Owes, hidle] at howes
      cases howes

/-- A submission that owes an assignment is a `writeFile`. -/
lemma operation_of_owes (h : OwnInv cfg s) (howes : s.Owes cfg g) :
    (s.tickets g).call.pushedOperation ≠ (s.tickets g).call.operation := by
  have hbuilds := h.agents (s.tickets g).agent
  unfold State.Owes at howes
  have hlate : (s.plan cfg g).late ≠ [] := by
    cases hpc : s.agents (s.tickets g).agent with
    | notify c q | notifyOne c q =>
      rw [hpc] at howes hbuilds
      simp only [AgentPc.owesStore, Bool.and_eq_true, beq_iff_eq, Bool.not_eq_true',
        List.isEmpty_eq_false_iff] at howes
      obtain ⟨rfl, hne⟩ := howes
      rw [State.plan, hbuilds]
      exact hne
    | late c q todo =>
      rw [hpc] at howes hbuilds
      simp only [AgentPc.owesStore, Bool.and_eq_true, beq_iff_eq, Bool.not_eq_true',
        List.isEmpty_eq_false_iff] at howes
      obtain ⟨rfl, hne⟩ := howes
      obtain ⟨hissued, done, hdone⟩ := hbuilds
      rw [State.plan, hissued, hdone]
      simp [hne]
    | _ =>
      rw [hpc] at howes
      cases howes
  intro he
  refine hlate ?_
  rw [State.plan, Call.late_eq_if, if_pos he]

/-- What a step does to an item that is neither complete nor executed by the step. -/
lemma touched_of_step {act : Action} (h : OwnInv cfg s) (hl : Handoff.Inv s.ledger)
    (hl' : Handoff.Inv s'.ledger) (hs : step cfg s act = some s')
    (hposted : (s.stage g).isPosted = true) (hposted' : (s'.stage g).isPosted = true)
    (hdone' : (s'.stage g).isDone = false)
    (hother : act = .proc → ∀ p e, s.proc = .exec p e → p.submission ≠ g) :
    s'.tickets g = s.tickets g ∧ Touched cfg s s' g := by
  have hborn : s.stage g ≠ .unborn := fun hst => by
    rw [hst] at hposted
    cases hposted
  have hborn' : s'.stage g ≠ .unborn := fun hst => by
    rw [hst] at hposted'
    cases hposted'
  have hlive' : (s'.stage g).isLive = true :=
    Handoff.Stage.isLive_of_isPosted hposted' fun hst => by
      rw [hst] at hdone'
      cases hdone'
  have htickets := OwnInv.step_tickets hl hs hborn
  refine ⟨htickets, ?_⟩
  cases h.record_step hl hs hborn' (OwnInv.occupies_of_live hl' hlive') with
  | taken hunborn _ => exact absurd hunborn hborn
  | filled _ hstage =>
    rw [hstage] at hposted'
    cases hposted'
  | posted _ hbuilding _ _ _ =>
    rw [hbuilding] at hposted
    cases hposted
  | same _ _ _ _ hrecord =>
    by_cases howes : s.Owes cfg g
    · rcases owes_step h hs htickets howes with howes' | hrecord'
      · exact .same hrecord fun _ => howes'
      · exact .late (@Call.pushed_writeFile cfg.contextAlloc _
          (operation_of_owes h howes)).2.1 hrecord'
    · exact .same hrecord fun ho => absurd ho howes
  | late _ _ _ hverb hrecord =>
    obtain ⟨buffer, bufferBytes, hverb⟩ := hverb
    exact .late (by rw [Call.operation, hverb]) hrecord
  | executing p e hact hg _ hpc _ _ => exact absurd hg (hother hact p e hpc)
  | completed _ hstage _ =>
    rw [hstage] at hdone'
    cases hdone'
  | freed _ hstage hdone _ =>
    rw [hstage, hdone] at hdone'
    cases hdone'

/-- An item that is finished is so after the assignment, too. -/
lemma item_opWrite (h : (s.tickets g).call.operation = .opWrite) :
    { s.item cfg g with operation := .opWrite } = s.item cfg g := by
  rw [← h, State.item, ← Call.item_operation cfg.contextAlloc]

lemma Asked.touched (ha : s.Asked cfg g) (ht : Touched cfg s s' g)
    (htickets : s'.tickets g = s.tickets g) : s'.Asked cfg g := by
  have hitem := @item_of_tickets _ _ cfg _ _ _ htickets
  have hplan : s'.plan cfg g = s.plan cfg g := by rw [State.plan, htickets, State.plan]
  unfold State.Asked at ha ⊢
  rw [hitem, hplan]
  cases ht with
  | same hrecord howes =>
    rw [hrecord]
    exact ha.imp_right (And.imp_right howes)
  | late hcall hrecord =>
    left
    rcases ha with ha | ⟨ha, -⟩
    · rw [hrecord, ha, item_opWrite hcall]
    · rw [hrecord, ha, State.plan, Call.built_eq]
      exact item_opWrite hcall

lemma Looks.touched {l : Lookup} (ha : s.Looks cfg g l) (ht : Touched cfg s s' g)
    (htickets : s'.tickets g = s.tickets g) : s'.Looks cfg g l := by
  obtain ⟨hop, hpath, hcall⟩ := ha
  unfold State.Looks State.path
  rw [htickets]
  cases ht with
  | same hrecord howes =>
    rw [hrecord]
    exact ⟨hop, hpath, hcall⟩
  | late hwrite hrecord =>
    rw [hrecord]
    refine ⟨hwrite.symm, hpath, fun devicePath => ?_⟩
    rw [← hcall]
    cases l <;> rfl

lemma Settled.touched {m : Mutation} (ha : s.Settled cfg g m) (ht : Touched cfg s s' g)
    (htickets : s'.tickets g = s.tickets g) : s'.Settled cfg g m := by
  have hitem := @item_of_tickets _ _ cfg _ _ _ htickets
  refine ⟨?_, by rw [hitem]; exact ha.2⟩
  rw [hitem]
  cases ht with
  | same hrecord howes => rw [hrecord, ha.1]
  | late hwrite hrecord => rw [hrecord, ha.1, item_opWrite hwrite]

lemma ExecPc.Follows.touched {e : ExecPc D W} (he : e.Follows cfg s g)
    (ht : Touched cfg s s' g) (htickets : s'.tickets g = s.tickets g) : e.Follows cfg s' g := by
  have hitem := @item_of_tickets _ _ cfg _ _ _ htickets
  have hpath : s'.path g = s.path g := by rw [State.path, htickets, State.path]
  cases e with
  | dispatch => exact Asked.touched he ht htickets
  | findNext l start => exact Looks.touched he ht htickets
  | scanNext l path onlyAfter rest | callLookup l mount devicePath =>
    refine ⟨Looks.touched he.1 ht htickets, ?_⟩
    rw [hpath]
    exact he.2
  | findMutable m =>
    refine ⟨Asked.touched he.1 ht htickets, ?_⟩
    rw [hitem]
    exact he.2
  | lockShared m op path | scanMutable m op path rest | unlockShared m found
  | modeSwitch mount devicePath =>
    refine ⟨Settled.touched he.1 ht htickets, ?_⟩
    rw [hpath]
    exact he.2
  | callMutable m mode mount devicePath =>
    refine ⟨Settled.touched he.1 ht htickets, ?_⟩
    rw [hitem, hpath]
    exact he.2

/-! ### The execution of an item -/

/-- What an execution step has to keep: where it goes on, and what it records. -/
structure ExecFollows (cfg : Config D W) (s s' : State D W) (g : ℕ) : Prop where
  next : ∀ p e, s'.proc = .exec p e → p.submission = g ∧ e.Follows cfg s' g
  events : s'.log = s.log ∨ ∃ ev, s'.log = ev :: s.log ∧ ev.Follows cfg s' ∧ ev.worksFor = some g

lemma Looks.kept {l : Lookup} (ha : s.Looks cfg g l) (hk : Kept (s.record g) (s'.record g))
    (htickets : s'.tickets g = s.tickets g) : s'.Looks cfg g l := by
  obtain ⟨hop, hpath, hcall⟩ := ha
  unfold State.Looks State.path
  rw [htickets, hk.operation, hk.filename]
  exact ⟨hop, hpath, fun devicePath => (hk.lookup_call l devicePath).trans (hcall devicePath)⟩

/-- The item of `writeFile` that is not finished yet goes the same way. -/
lemma dispatch_pushed (hop : (s.tickets g).call.pushedOperation ≠ (s.tickets g).call.operation) :
    (s.plan cfg g).built.dispatch.2 = .mutation .writeFile ∧
      (s.item cfg g).dispatch.2 = .mutation .writeFile := by
  obtain ⟨hsegment, -, hitem⟩ := @Call.pushed_writeFile cfg.contextAlloc _ hop
  refine ⟨?_, hitem⟩
  rw [State.plan, Call.built_eq, hsegment]
  rfl

/-- The `switch`. -/
lemma dispatch_follows (h : OwnInv cfg s) {p : ItemPtr}
    (hslot : p.slot = (s.tickets p.submission).slot) (ha : s.Asked cfg p.submission)
    (hs : execStep s p .dispatch = some s') : ExecFollows cfg s s' p.submission := by
  have hrec : s.record p.submission = s.slots p.slot := by rw [State.record, ← hslot]
  cases execMove hs with
  | dispatchesLookup item l hd =>
    have hcase : (s.slots p.slot).dispatch.2 = .lookup l := congrArg Prod.snd hd
    refine ⟨fun q e hpc => ?_, Or.inl rfl⟩
    cases hpc
    refine ⟨rfl, ?_⟩
    rcases ha with ha | ⟨ha, howes⟩
    · -- the item is finished
      have hitem : s.slots p.slot = s.item cfg p.submission := hrec.symm.trans ha
      have hkept := kept_dispatch (s.slots p.slot)
      rw [hd] at hkept
      refine Looks.kept (l := l) (s := s) ⟨?_, ?_, fun devicePath => ?_⟩ ?_ rfl
      · rw [ha, State.item, Call.item_operation]
      · rw [ha, State.item, Call.item_filename, State.path]
      · rw [ha, State.item]
        exact Call.item_lookup (by rw [hitem] at hcase; exact hcase) devicePath
      · show Kept _ (Function.update s.slots p.slot _ (s.tickets p.submission).slot)
        rw [← hslot, Function.update_self, hrec]
        exact hkept
    · have hother := (@dispatch_pushed _ _ cfg _ _ (operation_of_owes h howes)).1
      rw [← hrec, ha, hother] at hcase
      cases hcase
  | dispatchesMutation item m hd =>
    have hcase : (s.slots p.slot).dispatch.2 = .mutation m := congrArg Prod.snd hd
    have hitem : item = s.slots p.slot :=
      (congrArg Prod.fst hd).symm.trans (dispatch_mutation hcase)
    refine ⟨fun q e hpc => ?_, Or.inl rfl⟩
    cases hpc
    have hsame : State.record { s with
        slots := Function.update s.slots p.slot item
        proc := .exec p (.findMutable m) } p.submission = s.record p.submission := by
      show Function.update s.slots p.slot _ (s.tickets p.submission).slot = _
      rw [← hslot, Function.update_self, hitem, hrec]
    refine ⟨rfl, ?_, ?_⟩
    · rcases ha with ha | ⟨ha, howes⟩
      · exact Or.inl (hsame.trans ha)
      · exact Or.inr ⟨hsame.trans ha, howes⟩
    · rcases ha with ha | ⟨ha, howes⟩
      · rw [← hrec, ha] at hcase
        exact hcase
      · obtain ⟨hbuilt, hitem⟩ := @dispatch_pushed _ _ cfg _ _ (operation_of_owes h howes)
        rw [← hrec, ha, hbuilt] at hcase
        cases hcase
        exact hitem

/-- A device path names the file under the prefix of the mount. -/
lemma devicePath_eq (mount : MountInfo D W) (path : CString) :
    mount.devicePath path = relativePath mount.prefixStr path := rfl

lemma visitNext_found {path devicePath : CString} {onlyAfter : Option ℕ} {m : MountInfo D W}
    (h : visitNext path onlyAfter m = .found devicePath) : devicePath = m.devicePath path := by
  unfold visitNext at h
  split at h
  · cases h
  · cases onlyAfter with
    | some k => cases h
    | none =>
      dsimp only at h
      split at h <;> cases h
      rfl

lemma visitMutable_found {path devicePath : CString} {op : Operation} {m : MountInfo D W}
    (h : visitMutable path op m = some devicePath) : devicePath = m.devicePath path := by
  unfold visitMutable at h
  split_ifs at h
  cases h
  rfl

/-- The call of a lookup function. -/
lemma callLookup_follows {p : ItemPtr} (hslot : p.slot = (s.tickets p.submission).slot)
    {l : Lookup} {mount : MountInfo D W} {devicePath : CString}
    (ha : s.Looks cfg p.submission l)
    (hpath : devicePath = mount.devicePath (s.path p.submission))
    (hs : execStep s p (.callLookup l mount devicePath) = some s') :
    ExecFollows cfg s s' p.submission := by
  have hkept : Kept (s.record p.submission) (s'.record p.submission) := by
    rw [State.record, State.record, (execStep_frame hs).tickets, ← hslot]
    exact execStep_kept hs
  have hlooks := Looks.kept ha hkept (by rw [(execStep_frame hs).tickets])
  have hcalls : l.call (s.slots p.slot) devicePath =
      (s.tickets p.submission).call.deviceCall cfg.contextAlloc
        (relativePath mount.prefixStr (s.path p.submission)) := by
    rw [← devicePath_eq, ← hpath, ← ha.2.2, State.record, ← hslot]
  cases execMove hs with
  | callsLookup _ _ _ r hr =>
    refine ⟨fun q e hpc => ?_, Or.inr ⟨_, rfl, ?_, rfl⟩⟩
    · dsimp only at hpc
      split at hpc <;> cases hpc
      exact ⟨rfl, hlooks⟩
    · subst hr
      exact (callLookup_call _ _ _ _ _ _).trans hcalls

/-- The call of a mutating function. -/
lemma callMutable_follows {p : ItemPtr} (hslot : p.slot = (s.tickets p.submission).slot)
    {m : Mutation} {mode : WriteMode} {mount : MountInfo D W} {devicePath : CString}
    (ha : s.Settled cfg p.submission m)
    (hmode : m = .writeFile → mode = (s.item cfg p.submission).writeMode)
    (hpath : devicePath = mount.devicePath (s.path p.submission))
    (hs : execStep s p (.callMutable m mode mount devicePath) = some s') :
    ExecFollows cfg s s' p.submission := by
  have hrec : s.slots p.slot = s.item cfg p.submission := by
    rw [← ha.1, State.record, ← hslot]
  have hcalls : m.call mode (s.slots p.slot) devicePath =
      (s.tickets p.submission).call.deviceCall cfg.contextAlloc
        (relativePath mount.prefixStr (s.path p.submission)) := by
    have hnamed : m.call mode (s.slots p.slot) devicePath =
        m.call (s.item cfg p.submission).writeMode (s.item cfg p.submission) devicePath := by
      rw [hrec]
      cases m with
      | writeFile => rw [hmode rfl]
      | _ => rfl
    rw [hnamed, State.item, Call.item_mutation ha.2, hpath, devicePath_eq]
  cases execMove hs with
  | callsMutable _ _ _ _ r hr =>
    refine ⟨fun q e hpc => ?_, Or.inr ⟨_, rfl, ?_, rfl⟩⟩
    · dsimp only at hpc
      split at hpc <;> cases hpc
    · subst hr
      exact (callMutable_call _ _ _ _ _ _).trans hcalls

/-- One step of an execution that follows the call. -/
lemma exec_follows (h : OwnInv cfg s) {p : ItemPtr} {e : ExecPc D W}
    (hslot : p.slot = (s.tickets p.submission).slot) (he : e.Follows cfg s p.submission)
    (hsettled : ∀ m, e = .findMutable m → ¬ s.Owes cfg p.submission)
    (hs : execStep s p e = some s') : ExecFollows cfg s s' p.submission := by
  have hrec : s.record p.submission = s.slots p.slot := by rw [State.record, ← hslot]
  cases execMove hs with
  | dispatchesLookup | dispatchesMutation => exact dispatch_follows h hslot he hs
  | callsLookup => exact callLookup_follows hslot he.1 he.2 hs
  | callsMutable => exact callMutable_follows hslot he.1 he.2.1 he.2.2 hs
  | searchesNext l start =>
    refine ⟨fun q e hpc => ?_, Or.inr ⟨_, rfl, ?_, rfl⟩⟩
    · cases hpc
      exact ⟨rfl, he, by rw [← hrec]; exact he.2.1⟩
    · exact ⟨by rw [← hrec]; exact he.1, by rw [← hrec]; exact he.2.1⟩
  | findsNoNext | unlocksNone => exact ⟨fun q e hpc => (by cases hpc), Or.inl rfl⟩
  | passesNext | passesMutable | locksShared =>
    refine ⟨fun q e hpc => ?_, Or.inl rfl⟩
    cases hpc
    exact ⟨rfl, he⟩
  | findsNext l path onlyAfter mount rest devicePath hvisit =>
    refine ⟨fun q e hpc => ?_, Or.inl rfl⟩
    cases hpc
    exact ⟨rfl, he.1, (visitNext_found hvisit).trans (congrArg _ he.2)⟩
  | searchesMutable m =>
    obtain ⟨ha, hcase⟩ := he
    have hrecord : s.record p.submission = s.item cfg p.submission :=
      ha.resolve_right fun hb => hsettled m rfl hb.2
    refine ⟨fun q e hpc => ?_, Or.inr ⟨_, rfl, ?_, rfl⟩⟩
    · cases hpc
      refine ⟨rfl, ⟨hrecord, hcase⟩, ?_⟩
      rw [← hrec, hrecord, State.item, Call.item_filename]
      rfl
    · rw [← hrec, hrecord, State.item]
      exact ⟨Call.item_operation _ _, Call.item_filename⟩
  | findsNoMutable m op path =>
    refine ⟨fun q e hpc => ?_, Or.inl rfl⟩
    cases hpc
    exact ⟨rfl, he.1, fun mount devicePath hfound => by cases hfound⟩
  | findsMutable m op path mount rest devicePath hvisit =>
    refine ⟨fun q e hpc => ?_, Or.inl rfl⟩
    cases hpc
    refine ⟨rfl, he.1, fun mount' devicePath' hfound => ?_⟩
    cases hfound
    exact (visitMutable_found hvisit).trans (congrArg _ he.2)
  | unlocksWrite mount devicePath =>
    refine ⟨fun q e hpc => ?_, Or.inl rfl⟩
    cases hpc
    exact ⟨rfl, he.1, he.2 mount devicePath rfl⟩
  | unlocks m mount devicePath hm =>
    refine ⟨fun q e hpc => ?_, Or.inl rfl⟩
    cases hpc
    exact ⟨rfl, he.1, fun hwrite => absurd hwrite hm, he.2 mount devicePath rfl⟩
  | switches mount devicePath =>
    refine ⟨fun q e hpc => ?_, Or.inl rfl⟩
    cases hpc
    refine ⟨rfl, he.1, fun _ => ?_, he.2⟩
    rw [← hrec, he.1.1]
    rfl

end LaminaFS
