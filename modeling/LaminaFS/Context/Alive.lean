/-
# The processing thread goes on

There are three kinds of function pointers that the processing thread may find null: the optional
functions of a device interface, `_callback`, and `_allocator.free` of an item without an allocator.
However the threads interleave, the permissions of the mounts keep it from the first, the test of
`_callback` from the second, and from the third what the calls ask for.
-/
import LaminaFS.Context.Buffers
import LaminaFS.Context.Callbacks
import LaminaFS.Context.RequestRuns
import LaminaFS.Processing.NullCalls

namespace LaminaFS

open Transition

variable {D W : Type} {cfg : Config D W} {s s' : State D W} {act : Action} {g : ℕ}

/-! ### The functions of a mount -/

/-- The mutating case of the `switch` that the operation leads to. -/
def Operation.mutation : Operation → Option Mutation
  | .opExists | .opSize | .opRead => none
  | .opWrite | .opWriteSegment | .opAppend => some .writeFile
  | .opDelete => some .deleteFile
  | .opCreateDir => some .createDir
  | .opDeleteDir => some .deleteDir

lemma dispatch_mutation_iff {item : WorkItem} {m : Mutation} :
    item.dispatch.2 = .mutation m ↔ item.operation.mutation = some m := by
  unfold WorkItem.dispatch
  cases item.operation <;> simp [Operation.mutation]

namespace MountInfo

variable {mount : MountInfo D W} {m : Mutation}

/-- The function that the case calls is there. -/
def Provides (mount : MountInfo D W) : Mutation → Prop
  | .writeFile => mount.interface.writeFile.isSome = true
  | .deleteFile => mount.interface.deleteFile.isSome = true
  | .createDir => mount.interface.createDir.isSome = true
  | .deleteDir => mount.interface.deleteDir.isSome = true

/-- What `createMount` makes of an interface that can write. -/
structure Regular (mount : MountInfo D W) : Prop where
  supported : mount.Supported
  writes : mount.interface.writeFile.isSome = true

lemma Provides.nullFunction (h : mount.Provides m) {mode : WriteMode} {devicePath : CString}
    {item : WorkItem} {w : W} :
    (callMutable m mode mount devicePath item w).nullFunction = false := by
  cases m <;>
  · obtain ⟨f, hf⟩ := Option.isSome_iff_exists.mp h
    simp only [callMutable, callPath, hf]

/-- A supported mount with the permission that the case needs. -/
lemma Supported.provides (h : mount.Supported)
    (hhas : mount.permissions.has m.permission = true) : mount.Provides m := by
  have hsup := has_of_supported h hhas
  obtain ⟨hwrite, hdelete, hcreate, hremove⟩ := mount.interface.supportedPermissions_has
  cases m with
  | writeFile => exact hwrite.symm.trans hsup
  | deleteFile => exact hdelete.symm.trans hsup
  | createDir => exact hcreate.symm.trans hsup
  | deleteDir => exact hremove.symm.trans hsup

/-- Where `findMutableMountAndPath` stops the function is there. -/
lemma Regular.provides (h : mount.Regular) {op : Operation} {path devicePath : CString}
    (hop : op.mutation = some m) (hvisit : visitMutable path op mount = some devicePath) :
    mount.Provides m := by
  have hcase : ({ WorkItem.new with operation := op } : WorkItem).dispatch.2 = .mutation m :=
    dispatch_mutation_iff.mpr hop
  by_cases hsegment : op = .opWriteSegment
  · -- the filter lets every mount through
    subst hsegment
    cases hop
    exact h.writes
  · have hfilter := passedOver_eq hcase hsegment mount.permissions
    have hneeded := needed_eq hcase
    refine h.supported.provides ?_
    rw [visitMutable] at hvisit
    split at hvisit
    · rename_i haccepts
      rw [Bool.and_eq_true, hfilter, Bool.not_not, hneeded] at haccepts
      exact haccepts.2
    · cases hvisit

end MountInfo

/-- The mounts that `createMount` makes are of registered device types. -/
lemma makeMount_regular {interfaces : List (DeviceInterface D W)} {args : MountArgs} {handle : ℕ}
    {w : W} {mount : MountInfo D W} (hwrites : ∀ i ∈ interfaces, i.writeFile.isSome = true)
    (h : (makeMount interfaces args handle w).1.2 = some mount) : mount.Regular := by
  refine ⟨makeMount_supported h, ?_⟩
  unfold makeMount at h
  cases hi : interfaces[args.deviceType]? with
  | none =>
    rw [hi] at h
    cases h
  | some interface =>
    rw [hi] at h
    dsimp only at h
    split at h
    · cases h
    · split at h <;> cases h
      exact hwrites interface (List.mem_of_getElem? hi)

/-! ### The calls -/

/-- If the buffer of the item is to be freed then it is not one that the caller has handed in. -/
def Call.KeepsBuffer (c : Call) : Prop :=
  ∀ cb ∈ c.withCallback, cb.bufferAction = .freeBuffer → c.handsIn = none

instance (c : Call) : Decidable c.KeepsBuffer :=
  inferInstanceAs (Decidable (∀ cb ∈ c.withCallback, _ → _))

/-- Clients submit such calls. -/
def Action.KeepsBuffers : Action → Prop
  | .client _ (.submit c) => c.KeepsBuffer
  | _ => True

instance : DecidablePred Action.KeepsBuffers
  | .client _ (.submit c) => inferInstanceAs (Decidable c.KeepsBuffer)
  | .client _ (.check _) | .client _ (.wait _) | .client _ (.freeBuffer _)
  | .client _ (.release _) | .agent _ | .proc | .callbackReturns | .controlAct _ | .control
  | .wakeProc | .wakeAgent _ => isTrue trivial

lemma Call.KeepsBuffer.of_built {c : Call} (h : c.KeepsBuffer) {contextAlloc : Allocator}
    (haction : (c.plan contextAlloc).built.callbackBufferAction = .freeBuffer) :
    c.handsIn = none := by
  rw [Call.built_eq] at haction
  obtain ⟨verb, path, cb⟩ := c
  cases cb with
  | none => cases verb <;> cases haction
  | some cb =>
    cases verb <;> first
      | rfl
      | exact h cb rfl haction

lemma Call.built_mutation (c : Call) (contextAlloc : Allocator) :
    (c.plan contextAlloc).built.operation.mutation = c.operation.mutation := by
  rw [Call.built_eq]
  obtain ⟨verb, path, cb⟩ := c
  cases verb <;> cases cb <;> rfl

/-! ### The invariant -/

/-- The function that the execution is going to call is there. -/
def ExecPc.Provided (s : State D W) (g : ℕ) : ExecPc D W → Prop
  | .findMutable m => (s.tickets g).call.operation.mutation = some m
  | .lockShared m op _ => op.mutation = some m
  | .scanMutable m op _ rest => op.mutation = some m ∧ ∀ mount ∈ rest, mount.Regular
  | .unlockShared m found => ∀ x ∈ found, x.1.Provides m
  | .modeSwitch mount _ => mount.Provides .writeFile
  | .callMutable m _ mount _ => mount.Provides m
  | _ => True

/-- The item of a submission shows what is to be done, and whether its buffer is to be freed. -/
structure State.ShowsCall (s : State D W) (g : ℕ) : Prop where
  operation : (s.record g).operation.mutation = (s.tickets g).call.operation.mutation
  action : (s.record g).callbackBufferAction = .freeBuffer → (s.tickets g).call.handsIn = none

/-- The processing thread calls no function that is not there. -/
structure AliveInv (s : State D W) : Prop where
  tickets : ∀ g, s.stage g ≠ .unborn → (s.tickets g).call.KeepsBuffer
  asks : ∀ a c, (s.agents a).asksForSlot = some c → c.KeepsBuffer
  records : ∀ g, s.Posted g → s.ShowsCall g
  mounts : ∀ mount ∈ s.mounts, mount.Regular
  pending : ∀ mount, s.control = .lockCreate mount ∨ s.control = .pushBack mount → mount.Regular
  executing : ∀ p e, s.proc = .exec p e → e.Provided s p.submission
  freeing : ∀ p, s.proc = .freeBuffer p → (s.tickets p.submission).call.handsIn = none
  alive : s.proc ≠ .crashed

namespace AliveInv

/-! ### The records -/

lemma step_records (h : AliveInv s) (hk : Accounted cfg s)
    (hs : LaminaFS.step cfg s act = some s') (hposted' : s'.Posted g) : s'.ShowsCall g := by
  have keep (hposted : s.Posted g)
      (hop : (s'.record g).operation.mutation = (s.record g).operation.mutation)
      (haction : (s'.record g).callbackBufferAction = (s.record g).callbackBufferAction) :
      s'.ShowsCall g := by
    have htickets : s'.tickets g = s.tickets g :=
      OwnInv.step_tickets hk.ledger hs hposted.ne_unborn
    obtain ⟨hshows, hfrees⟩ := h.records g hposted
    exact ⟨by rw [hop, htickets, hshows], by rw [haction, htickets]; exact hfrees⟩
  cases hk.own.record_step hk.ledger hs hposted'.ne_unborn hposted'.2 with
  | taken _ hstage | filled _ hstage => exact absurd hstage hposted'.ne_building
  | posted _ hbuilding _ hrecord _ =>
    have hborn : s.stage g ≠ .unborn := by rw [hbuilding]; simp
    have htickets := OwnInv.step_tickets hk.ledger hs hborn
    rw [State.plan] at hrecord
    refine ⟨?_, fun haction => ?_⟩
    · rw [hrecord, htickets]
      exact Call.built_mutation _ _
    · rw [hrecord] at haction
      rw [htickets]
      exact (h.tickets g hborn).of_built haction
  | same _ hocc hposted _ hrecord =>
    exact keep ⟨hposted ▸ hposted'.1, hocc⟩ (by rw [hrecord]) (by rw [hrecord])
  | late hposted _ _ hverb hrecord =>
    -- the segment becomes the whole file
    obtain ⟨buffer, bufferBytes, hverb⟩ := hverb
    have hcall : (s.tickets g).call.operation = .opWrite := by rw [Call.operation, hverb]
    refine keep hposted ?_ (by rw [hrecord])
    rw [(h.records g hposted).operation, hcall, hrecord]
  | completed hposted _ hrecord => exact keep hposted (by rw [hrecord]) (by rw [hrecord])
  | freed hposted _ _ hrecord =>
    refine keep hposted ?_ ?_ <;>
    · rw [hrecord]
      unfold WorkItem.freeBuffer
      split <;> rfl
  | executing p e _ hp hslot hpc hstage hexec =>
    have hkept := execStep_kept hexec
    refine keep ⟨by rw [hstage]; rfl, OwnInv.occupies_of_live hk.ledger (by rw [hstage]; rfl)⟩
      ?_ ?_ <;>
    rw [State.record, State.record, (execStep_frame hexec).tickets, ← hslot]
    · rw [hkept.operation]
    · exact execStep_action hexec

/-! ### The mounts -/

lemma step_mounts (h : AliveInv s) (hs : LaminaFS.step cfg s act = some s') :
    ∀ mount ∈ s'.mounts, mount.Regular := by
  cases stepBy hs with
  | client _ _ _ hclient => exact (clientStep_frame hclient).mounts ▸ h.mounts
  | agent _ hagent => exact (agentStep_frame hagent).mounts ▸ h.mounts
  | proc hproc => exact (procStep_frame hproc).mounts ▸ h.mounts
  | controlAct _ _ hcontrol => exact (controlActStep_frame hcontrol).2.2.2.2.1 ▸ h.mounts
  | control hcontrol =>
    cases controlMove hcontrol with
    | erases => exact fun mount hm => h.mounts mount (List.mem_of_mem_eraseP hm)
    | pushesBack mount hpc =>
      intro m hm
      rcases List.mem_append.mp hm with hm | hm
      · exact h.mounts m hm
      · rw [List.mem_singleton.mp hm]
        exact h.pending mount (Or.inr hpc)
    | _ => exact h.mounts
  | callbackReturns | wakeProc | wakeAgent => exact h.mounts

lemma step_pending (h : AliveInv s) (hwrites : ∀ i ∈ cfg.interfaces, i.writeFile.isSome = true)
    (hs : LaminaFS.step cfg s act = some s') (mount : MountInfo D W)
    (hpc' : s'.control = .lockCreate mount ∨ s'.control = .pushBack mount) : mount.Regular := by
  cases stepBy hs with
  | client _ _ _ hclient => exact h.pending mount ((clientStep_frame hclient).control ▸ hpc')
  | agent _ hagent => exact h.pending mount ((agentStep_frame hagent).control ▸ hpc')
  | proc hproc => exact h.pending mount ((procStep_frame hproc).control ▸ hpc')
  | controlAct _ _ hcontrol =>
    cases controlActMove hcontrol <;> rcases hpc' with hpc' | hpc' <;> cases hpc'
  | control hcontrol =>
    cases controlMove hcontrol with
    | makes args handle code made w hpc hmake =>
      rcases hpc' with hpc' | hpc' <;> cases hpc'
      exact makeMount_regular hwrites (congrArg (fun r => r.1.2) hmake)
    | locksCreate _ hpc =>
      rcases hpc' with hpc' | hpc' <;> cases hpc'
      exact h.pending mount (Or.inl hpc)
    | _ => rcases hpc' with hpc' | hpc' <;> cases hpc'
  | callbackReturns | wakeProc | wakeAgent => exact h.pending mount hpc'

/-! ### The processing thread -/

/-- One step of an execution. -/
lemma exec_provided (h : AliveInv s) (hk : Accounted cfg s) {p q : ItemPtr} {e e' : ExecPc D W}
    (hpc : s.proc = .exec p e) (hexec : execStep s p e = some s') (hpc' : s'.proc = .exec q e') :
    e'.Provided s' q.submission := by
  have he := h.executing p e hpc
  cases execMove hexec with
  | dispatchesMutation item m hdispatch =>
    cases hpc'
    obtain ⟨hrec, hposted⟩ := hk.executing_posted hpc
    have hop := dispatch_mutation_iff.mp (congrArg Prod.snd hdispatch)
    rw [hrec] at hop
    exact (h.records _ hposted).operation.symm.trans hop
  | searchesMutable m =>
    cases hpc'
    obtain ⟨hrec, hposted⟩ := hk.executing_posted hpc
    show (s.slots p.slot).operation.mutation = some m
    rw [hrec]
    exact (h.records _ hposted).operation.trans he
  | locksShared m op path =>
    cases hpc'
    exact ⟨he, fun mount hm => h.mounts mount (List.mem_reverse.mp hm)⟩
  | findsNoMutable =>
    cases hpc'
    exact nofun
  | findsMutable m op path mount rest devicePath hvisit =>
    cases hpc'
    rintro x ⟨⟩
    exact (he.2 mount List.mem_cons_self).provides he.1 hvisit
  | passesMutable m op path mount rest =>
    cases hpc'
    exact ⟨he.1, fun mount hm => he.2 mount (List.mem_cons_of_mem _ hm)⟩
  | unlocksWrite mount devicePath | unlocks m mount devicePath =>
    cases hpc'
    exact he (mount, devicePath) rfl
  | switches =>
    cases hpc'
    exact he
  | callsLookup =>
    dsimp only at hpc'
    split at hpc' <;> cases hpc'
    trivial
  | callsMutable =>
    dsimp only at hpc'
    split at hpc' <;> cases hpc'
  | findsNoNext | unlocksNone => cases hpc'
  | dispatchesLookup | searchesNext | passesNext | findsNext =>
    cases hpc'
    trivial

lemma step_executing (h : AliveInv s) (hk : Accounted cfg s)
    (hs : LaminaFS.step cfg s act = some s') {p : ItemPtr} {e : ExecPc D W}
    (hpc' : s'.proc = .exec p e) : e.Provided s' p.submission := by
  cases comesTo hk.own.ring hs hpc' with
  | fetched _ _ he =>
    rw [he]
    trivial
  | continued q e' _ hpc hexec => exact h.exec_provided hk hpc hexec hpc'
  | stayed _ hpc =>
    have htickets : s'.tickets p.submission = s.tickets p.submission :=
      OwnInv.step_tickets hk.ledger hs (hk.executing_posted hpc).2.ne_unborn
    have he := h.executing p e hpc
    cases e with
    | findMutable m =>
      show (s'.tickets p.submission).call.operation.mutation = some m
      rw [htickets]
      exact he
    | _ => exact he

/-- The device function that is going to be called is there. -/
lemma callsNull_eq (h : AliveInv s) : s.callsNull = false := by
  rw [State.callsNull]
  split
  · rename_i p m mode mount devicePath hpc
    exact MountInfo.Provides.nullFunction (h.executing p _ hpc)
  · rfl

/-- Freeing the buffer of an item that the caller has handed in nothing with calls a function that
is there. -/
lemma freeBufferResult_ne (hb : BufferInv cfg s) (hk : Accounted cfg s) {p : ItemPtr}
    (hpc : s.proc = .freeBuffer p) (hhands : (s.tickets p.submission).call.handsIn = none) :
    freeBufferResult s p ≠ .nullFunction := by
  obtain ⟨hrec, hposted⟩ := State.MayFree.posted hk (Or.inr (Or.inr hpc))
  rw [freeBufferResult, hrec]
  have hown := (hb.records _ hposted).own hhands
  unfold WorkItem.freeBuffer
  cases hbuffer : (s.record p.submission).buffer with
  | none => simp
  | some buffer =>
    obtain ⟨id, bytes, a, -, halloc, -⟩ := hown buffer (by rw [hbuffer]; rfl)
    rw [halloc]
    simp

lemma proc_alive (h : AliveInv s) (hb : BufferInv cfg s) (hk : Accounted cfg s)
    (hs : procStep s = some s') : s'.proc ≠ .crashed ∧
      ∀ p, s'.proc = .freeBuffer p → (s'.tickets p.submission).call.handsIn = none := by
  cases procMove hs with
  | executes p e hpc hexec =>
    refine ⟨execStep_crashed hpc hexec h.callsNull_eq, fun q hq => ?_⟩
    rcases execStep_proc hexec with hp | hp | ⟨e', hp⟩ <;> rw [hp] at hq <;> cases hq
  | invokesNull p hpc hcallback =>
    -- the item still shows the callback of its call
    obtain ⟨hrec, hposted⟩ := CallbackInv.posted_of_hand hk (p := p) (Or.inl (by rw [hpc]; rfl))
    obtain ⟨-, -, hbyWorker⟩ := fits_of_hand hk.ledger
      (show s.proc.hand = .calling p by rw [hpc]; rfl)
    have hshows : (s.slots p.slot).callback.isSome = true := by
      rw [hrec, (hk.own.records _ hposted).1, State.plan, Call.callback_isSome]
      exact hbyWorker
    rw [hcallback] at hshows
    cases hshows
  | mayFree p hpc haction =>
    obtain ⟨hrec, hposted⟩ := CallbackInv.posted_of_hand hk (p := p) (Or.inr (by rw [hpc]; rfl))
    rw [hrec] at haction
    refine ⟨by simp, fun q hq => ?_⟩
    cases hq
    exact (h.records _ hposted).action haction
  | freesNull p hpc hresult =>
    exact absurd hresult (freeBufferResult_ne hb hk hpc (h.freeing p hpc))
  | _ => simp

lemma step_alive (h : AliveInv s) (hb : BufferInv cfg s) (hk : Accounted cfg s)
    (hs : LaminaFS.step cfg s act = some s') : s'.proc ≠ .crashed ∧
      ∀ p, s'.proc = .freeBuffer p → (s'.tickets p.submission).call.handsIn = none := by
  by_cases hact : act = .proc
  · subst hact
    exact h.proc_alive hb hk hs
  · have kept (p : ItemPtr) (hpc : s.proc = .freeBuffer p) :
        (s'.tickets p.submission).call.handsIn = none := by
      have hposted := (CallbackInv.posted_of_hand hk (p := p) (Or.inr (by rw [hpc]; rfl))).2
      rw [OwnInv.step_tickets hk.ledger hs hposted.ne_unborn]
      exact h.freeing p hpc
    rcases step_proc hs hact with hp | hp | ⟨-, hp⟩ | ⟨q, -, -, hp⟩ <;> rw [hp]
    · exact ⟨h.alive, kept⟩
    · cases hpc : s.proc with
      | crashed => exact absurd hpc h.alive
      | freeBuffer p =>
        refine ⟨by simp [ProcPc.wake], fun q hq => ?_⟩
        cases hq
        exact kept p hpc
      | _ => simp [ProcPc.wake]
    · simp
    · simp

/-- **The step lemma.** -/
lemma step (h : AliveInv s) (hb : BufferInv cfg s) (hk : Accounted cfg s)
    (hk' : Accounted cfg s') (hwrites : ∀ i ∈ cfg.interfaces, i.writeFile.isSome = true)
    (hact : act.KeepsBuffers) (hs : LaminaFS.step cfg s act = some s') : AliveInv s' where
  tickets _ := calls_step hk hk' hs h.tickets h.asks
  asks a c hasks := by
    rcases asks_step hs hasks with hold | rfl
    · exact h.asks a c hold
    · exact hact
  records _ := h.step_records hk hs
  mounts := h.step_mounts hs
  pending := h.step_pending hwrites hs
  executing _ _ := h.step_executing hk hs
  freeing := (h.step_alive hb hk hs).2
  alive := (h.step_alive hb hk hs).1

end AliveInv

/-! ### Runs -/

/-- The steps of runs in which clients ask for nothing that the processing thread cannot do. -/
def KeepsAlive (s : State D W) (act : Action) : Prop := TestsOwn s act ∧ act.KeepsBuffers

instance (s : State D W) : DecidablePred (KeepsAlive s) :=
  fun _ => inferInstanceAs (Decidable (_ ∧ _))

/-- **No null function pointer is called.**  In contexts whose device types can write, and in runs
in which no buffer that the caller has handed in is to be freed and the processing thread tests the
right `_callback`: whatever other functions the device types have not got, whatever mounts there
are, and however the threads interleave, the processing thread never calls a function that is not
there. -/
theorem never_crashes {pool : PoolAllocator} {capacity : ℕ} {memory : ℕ → WorkItem} {world : W}
    (hpool : pool.WF) (hcapacity : 1 ≤ capacity)
    (hwrites : ∀ i ∈ cfg.interfaces, i.writeFile.isSome = true)
    (h : Reach (step cfg) KeepsAlive (State.init pool capacity memory world) s) :
    s.proc ≠ .crashed ∧ s.callsNull = false := by
  have known (t : State D W) (ht : Reach (step cfg) KeepsAlive
      (State.init pool capacity memory world) t) : Accounted cfg t ∧ BufferInv cfg t :=
    buffers_of_reach hpool hcapacity (ht.mono fun _ _ hok => hok.1)
  have hinv : AliveInv s := by
    refine h.invariant_of (J := fun t => Accounted cfg t ∧ BufferInv cfg t) known ?_ ?_
    · exact ⟨fun g hst => absurd rfl hst, fun a c hasks => (by cases hasks),
        fun g hposted => (by cases hposted.1), fun mount hm => (by cases hm),
        fun mount hpc => (by rcases hpc with hpc | hpc <;> cases hpc),
        fun p e hpc => (by cases hpc), fun p hpc => (by cases hpc), nofun⟩
    · rintro t act t' ⟨hk, hb⟩ hi ⟨htests, hact⟩ hs
      exact hi.step hb hk (hk.step htests hs) hwrites hact hs
  exact ⟨hinv.alive, hinv.callsNull_eq⟩

/-- A client deletes below a mount whose device type has no such function, and asks for the buffer
to be freed. -/
theorem never_crashes_delete :
    ∃ s, Reach (step writingConfig) KeepsAlive smallInit s ∧ Event.executed 0 ∈ s.log ∧
      (s.record 0).resultCode = .unsupported ∧ s.proc ≠ .crashed ∧ s.callsNull = false := by
  obtain ⟨s, hs, hp⟩ := @Reach.of_guardedRun_any _ _ (step writingConfig) KeepsAlive smallInit
    (fun s act => decide (KeepsAlive s act)) (fun _ _ => of_decide_eq_true)
    (mountsRoot ++ submits 0 ⟨.deleteFile, [slash, 97], some ⟨1, .freeBuffer, 0⟩⟩ 12 ++
      List.replicate 9 .proc)
    (fun s => decide (Event.executed 0 ∈ s.log ∧ (s.record 0).resultCode = .unsupported))
    (by decide +kernel)
  rw [decide_eq_true_eq] at hp
  obtain ⟨hdone, hcode⟩ := hp
  exact ⟨s, hs, hdone, hcode, never_crashes (PoolAllocator.wf_new 2 (by decide) (by decide))
    (by decide) (by simp [writingConfig]) hs⟩

end LaminaFS
