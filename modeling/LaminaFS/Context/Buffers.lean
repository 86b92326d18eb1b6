/-
# Who frees which buffer

`_buffer` holds what a device has allocated for a read, or what the caller of a writing function
has handed in.  Only the reading functions set `_allocator`.  So `WorkItemFreeBuffer` does the
right thing exactly for the items whose call hands in no buffer; for the others it calls a null
function pointer.
-/
import LaminaFS.Context.Progress

namespace LaminaFS

open Transition

variable {D W : Type} {cfg : Config D W} {s s' : State D W} {g : ℕ} {act : Action}

/-- The buffer that the caller of a writing function hands in. -/
def Call.handsIn (c : Call) : Option Buffer :=
  match c.verb with
  | .writeFile buffer _ | .writeFileSegment _ buffer _ | .appendFile buffer _ => buffer
  | _ => none

namespace Call

variable {contextAlloc : Allocator} {c : Call}

lemma item_buffer : (c.item contextAlloc).buffer = c.handsIn := by
  obtain ⟨verb, path, cb⟩ := c
  cases verb <;> rfl

/-- The calls that read set an allocator and hand in nothing; the others set none. -/
lemma item_allocator :
    if c.operation = .opRead then (c.item contextAlloc).allocator.isSome = true ∧ c.handsIn = none
    else (c.item contextAlloc).allocator = none := by
  obtain ⟨verb, path, cb⟩ := c
  cases verb <;> simp [operation, item, handsIn, WorkItem.new]

lemma operation_of_pushed (h : c.pushedOperation = .opRead) : c.operation = .opRead := by
  obtain ⟨verb, path, cb⟩ := c
  cases verb <;> cases cb <;> first | exact h | cases h

end Call

/-! ### What an item holds -/

/-- The buffer of the item is null, or a block that was allocated for the submission with the
allocator of the item. -/
def State.OwnBlock (s : State D W) (g : ℕ) (item : WorkItem) : Prop :=
  ∀ buffer ∈ item.buffer, ∃ id bytes a, buffer = .block id bytes ∧ item.allocator = some a ∧
    s.blockOf id = some (g, some a)

/-- What a posted item holds. -/
structure State.Holds (cfg : Config D W) (s : State D W) (g : ℕ) : Prop where
  allocator : (s.record g).allocator = (s.item cfg g).allocator
  operation : (s.record g).operation = .opRead → (s.tickets g).call.operation = .opRead
  handedIn : ∀ buffer, (s.tickets g).call.handsIn = some buffer →
    (s.record g).buffer = some buffer
  own : (s.tickets g).call.handsIn = none → s.OwnBlock g (s.record g)

/-- If the caller has handed in a buffer then there is no allocator. -/
lemma State.Holds.allocator_none (h : s.Holds cfg g) {buffer : Buffer}
    (hhands : (s.tickets g).call.handsIn = some buffer) : (s.record g).allocator = none := by
  have hcall := @Call.item_allocator cfg.contextAlloc (s.tickets g).call
  split at hcall
  · rw [hcall.2] at hhands
    cases hhands
  · exact h.allocator.trans hcall

namespace WorkItem

variable {item : WorkItem}

lemma freeBuffer_of_none (h : item.allocator = none) : item.freeBuffer.2 = item := by
  unfold freeBuffer
  rw [h]
  cases item.buffer <;> rfl

lemma freeBuffer_of_some {a : Allocator} (h : item.allocator = some a) :
    item.freeBuffer.2 = { item with buffer := none } := by
  obtain ⟨operation, callback, userData, allocator, filename, buffer⟩ := item
  cases h
  cases buffer <;> rfl

end WorkItem

/-- The execution is that of a reading operation. -/
def ExecPc.reads : ExecPc D W → Bool
  | .findNext (.readFile _) _ | .scanNext (.readFile _) _ _ _ | .callLookup (.readFile _) _ _ =>
    true
  | _ => false

/-- The invariant of the buffers. -/
structure BufferInv (cfg : Config D W) (s : State D W) : Prop where
  records : ∀ g, s.Posted g → s.Holds cfg g
  reading : ∀ p e, s.proc = .exec p e → e.reads = true →
    (s.tickets p.submission).call.operation = .opRead
  blocks : ∀ id, (s.blockOf id).isSome = true → id < s.nextBlock

/-! ### Blocks -/

/-- A step allocates one new block or none. -/
lemma step_blocks (hs : step cfg s act = some s') :
    s'.blockOf = s.blockOf ∧ s'.nextBlock = s.nextBlock ∨
      ∃ v, s'.blockOf = Function.update s.blockOf s.nextBlock v ∧
        s'.nextBlock = s.nextBlock + 1 := by
  cases stepBy hs with
  | client a act _ hs => cases clientMove hs <;> exact Or.inl ⟨rfl, rfl⟩
  | agent a hs => cases agentMove hs <;> exact Or.inl ⟨rfl, rfl⟩
  | controlAct act _ hs =>
    obtain ⟨hf, -⟩ := controlActStep_frame hs
    exact Or.inl ⟨hf.blockOf, hf.nextBlock⟩
  | control hs =>
    obtain ⟨hf, -⟩ := controlStep_frame hs
    exact Or.inl ⟨hf.blockOf, hf.nextBlock⟩
  | callbackReturns => exact Or.inl ⟨rfl, rfl⟩
  | wakeProc | wakeAgent a => exact Or.inl ⟨rfl, rfl⟩
  | proc hs =>
    cases procMove hs with
    | executes p e _ hs =>
      cases execMove hs with
      | callsLookup => exact Or.inr ⟨_, rfl, rfl⟩
      | _ => exact Or.inl ⟨rfl, rfl⟩
    | _ => exact Or.inl ⟨rfl, rfl⟩

namespace BufferInv

/-- A block keeps its owner. -/
lemma blockOf_kept (h : BufferInv cfg s) (hs : step cfg s act = some s') {id : ℕ}
    {v : ℕ × Option Allocator} (hid : s.blockOf id = some v) : s'.blockOf id = some v := by
  rcases step_blocks hs with ⟨he, -⟩ | ⟨v', he, -⟩ <;> rw [he]
  · exact hid
  · have hlt : id < s.nextBlock := h.blocks id (by rw [hid]; rfl)
    rw [Function.update_of_ne (Nat.ne_of_lt hlt)]
    exact hid

lemma step_blocks_lt (h : BufferInv cfg s) (hs : step cfg s act = some s') (id : ℕ)
    (hid : (s'.blockOf id).isSome = true) : id < s'.nextBlock := by
  rcases step_blocks hs with ⟨he, hn⟩ | ⟨v, he, hn⟩ <;> rw [hn] <;> rw [he] at hid
  · exact h.blocks id hid
  · by_cases hb : id = s.nextBlock
    · exact hb ▸ Nat.lt_succ_self _
    · rw [Function.update_of_ne hb] at hid
      exact Nat.lt_succ_of_lt (h.blocks id hid)

end BufferInv

/-- An item that has a block of its own has it still, if neither buffer nor allocator change. -/
lemma State.OwnBlock.keep {item item' : WorkItem} (h : s.OwnBlock g item)
    (hkept : ∀ id v, s.blockOf id = some v → s'.blockOf id = some v)
    (hbuffer : item'.buffer = item.buffer) (halloc : item'.allocator = item.allocator) :
    s'.OwnBlock g item' := by
  intro buffer hmem
  rw [hbuffer] at hmem
  obtain ⟨id, bytes, a, he, ha, hid⟩ := h buffer hmem
  exact ⟨id, bytes, a, he, halloc ▸ ha, hkept id _ hid⟩

/-! ### The execution of an item -/

/-- What a step of an execution does to the buffer. -/
inductive BufferStep (s s' : State D W) (p : ItemPtr) (e : ExecPc D W) : Prop
  | same (hbuffer : (s'.slots p.slot).buffer = (s.slots p.slot).buffer)
  /-- a device function that reads has been called -/
  | read (store : BufferStore) (he : e.reads = true)
      (hbuffer : (s'.slots p.slot).buffer =
        store.apply s.nextBlock (s.slots p.slot).buffer)
      (hblock : s'.blockOf s.nextBlock = some (p.submission, (s.slots p.slot).allocator))

lemma execStep_buffer {p : ItemPtr} {e : ExecPc D W} (hs : execStep s p e = some s') :
    BufferStep s s' p e := by
  have hwrites {item : WorkItem} (hslots : s'.slots = Function.update s.slots p.slot item)
      (h : item.buffer = (s.slots p.slot).buffer) : BufferStep s s' p e :=
    .same (by rw [hslots, Function.update_self, h])
  cases execMove hs with
  | dispatchesLookup item _ hd | dispatchesMutation item _ hd =>
    have hkept : (s.slots p.slot).dispatch.1.buffer = (s.slots p.slot).buffer := by
      unfold WorkItem.dispatch
      split <;> rfl
    rw [hd] at hkept
    exact hwrites rfl hkept
  | callsLookup l mount devicePath r hr =>
    subst hr
    cases l with
    | readFile maxBytes =>
      refine .read (mount.interface.readFile mount.device devicePath (s.slots p.slot).offset
        maxBytes (s.slots p.slot).allocator (s.slots p.slot).nullTerminate s.world).1.buffer rfl ?_
        (Function.update_self _ _ _)
      dsimp only
      rw [Function.update_self]
      rfl
    | fileExists | fileSize => exact hwrites rfl rfl
  | callsMutable m mode mount devicePath r hr =>
    subst hr
    refine hwrites rfl ?_
    cases m <;> simp only [callMutable, callPath] <;> split <;> rfl
  | unlocksNone m =>
    refine hwrites rfl ?_
    cases m <;> rfl
  | _ => exact .same rfl

/-- An execution reads only if the `switch` has found a reading operation. -/
lemma execStep_reads {p : ItemPtr} {e e' : ExecPc D W} (hs : execStep s p e = some s')
    (hpc : s'.proc = .exec p e') (hreads : e'.reads = true) :
    e.reads = true ∨ e = .dispatch ∧ (s.slots p.slot).operation = .opRead := by
  cases execMove hs with
  | dispatchesLookup item l hd =>
    refine Or.inr ⟨rfl, ?_⟩
    cases hpc
    cases hop : (s.slots p.slot).operation <;> rw [WorkItem.dispatch, hop] at hd <;>
      cases hd <;> first | rfl | cases hreads
  | searchesNext l | passesNext l | findsNext l =>
    cases hpc
    exact Or.inl (by cases l <;> first | rfl | cases hreads)
  | callsLookup l =>
    dsimp only at hpc
    split at hpc <;> cases hpc
    exact Or.inl (by cases l <;> first | rfl | cases hreads)
  | callsMutable =>
    dsimp only at hpc
    split at hpc <;> cases hpc
  | findsNoNext | unlocksNone => cases hpc
  | _ =>
    cases hpc
    cases hreads

/-! ### The step lemma -/

namespace BufferInv

/-- What a step does to the buffer and the allocator of an item that has been posted. -/
lemma holds_kept (h : BufferInv cfg s) (hs : step cfg s act = some s')
    (htickets : s'.tickets g = s.tickets g) (hg : s.Posted g)
    (hbuffer : (s'.record g).buffer = (s.record g).buffer)
    (halloc : (s'.record g).allocator = (s.record g).allocator)
    (hop : (s'.record g).operation = .opRead → (s.record g).operation = .opRead) :
    s'.Holds cfg g := by
  have hold := h.records g hg
  constructor
  · rw [halloc, hold.allocator, item_of_tickets htickets]
  · rw [htickets]
    exact fun he => hold.operation (hop he)
  · rw [htickets, hbuffer]
    exact hold.handedIn
  · rw [htickets]
    exact fun hnone => (hold.own hnone).keep (fun _ _ => h.blockOf_kept hs) hbuffer halloc

/-- An item that has just been pushed holds what the caller has handed in. -/
lemma holds_of_push (htickets : s'.tickets g = s.tickets g)
    (hrecord : s'.record g = (s.plan cfg g).built) : s'.Holds cfg g := by
  have hbuilt : s'.record g =
      { s.item cfg g with operation := (s.tickets g).call.pushedOperation } :=
    hrecord.trans (Call.built_eq _ _)
  have hbuffer : (s'.record g).buffer = (s.tickets g).call.handsIn := by
    rw [hbuilt]
    exact Call.item_buffer
  constructor
  · rw [hbuilt, item_of_tickets htickets]
  · rw [hbuilt, htickets]
    exact Call.operation_of_pushed
  · rw [htickets, hbuffer]
    exact fun _ he => he
  · intro hnone buffer hmem
    rw [htickets] at hnone
    rw [hbuffer, hnone] at hmem
    cases hmem

/-- The processing thread executes an item. -/
lemma holds_of_exec (h : BufferInv cfg s) (hs : step cfg s act = some s') {p : ItemPtr}
    {e : ExecPc D W} (hslot : p.slot = (s.tickets p.submission).slot)
    (hg : s.Posted p.submission) (hpc : s.proc = .exec p e) (hexec : execStep s p e = some s') :
    s'.Holds cfg p.submission := by
  have htickets : s'.tickets p.submission = s.tickets p.submission := by
    rw [(execStep_frame hexec).tickets]
  have hrec : s.record p.submission = s.slots p.slot := by rw [State.record, ← hslot]
  have hrec' : s'.record p.submission = s'.slots p.slot := by
    rw [State.record, htickets, ← hslot]
  have hkept := execStep_kept hexec
  rw [← hrec, ← hrec'] at hkept
  cases execStep_buffer hexec with
  | same hbuffer =>
    rw [← hrec, ← hrec'] at hbuffer
    exact h.holds_kept hs htickets hg hbuffer hkept.allocator fun he => hkept.operation ▸ he
  | read store he hbuffer hblock =>
    -- the call reads, so it has set an allocator and handed in nothing
    have hread := h.reading p e hpc he
    have hcall := @Call.item_allocator cfg.contextAlloc (s.tickets p.submission).call
    rw [if_pos hread] at hcall
    obtain ⟨⟨a, ha⟩, hnone⟩ := And.imp_left Option.isSome_iff_exists.mp hcall
    have hold := h.records _ hg
    have halloc : (s.record p.submission).allocator = some a := hold.allocator.trans ha
    constructor
    · rw [hkept.allocator, hold.allocator, item_of_tickets htickets]
    · rw [htickets]
      exact fun _ => hread
    · rw [htickets, hnone]
      exact fun _ hb => by cases hb
    · intro _
      rw [← hrec, halloc] at hblock
      rw [← hrec, ← hrec'] at hbuffer
      have hown : s'.OwnBlock p.submission (s.record p.submission) :=
        (hold.own hnone).keep (fun _ _ => h.blockOf_kept hs) rfl rfl
      intro buffer hmem
      rw [hbuffer] at hmem
      cases store with
      | untouched =>
        obtain ⟨id, bytes, a', hb, ha', hid⟩ := hown buffer hmem
        exact ⟨id, bytes, a', hb, hkept.allocator.trans ha', hid⟩
      | null => cases hmem
      | block bytes =>
        cases hmem
        exact ⟨_, bytes, a, rfl, hkept.allocator.trans halloc, hblock⟩

/-- The buffer of an item is freed. -/
lemma holds_of_free (h : BufferInv cfg s) (hs : LaminaFS.step cfg s act = some s')
    (htickets : s'.tickets g = s.tickets g) (hg : s.Posted g)
    (hrecord : s'.record g = (s.record g).freeBuffer.2) : s'.Holds cfg g := by
  have hold := h.records g hg
  cases halloc : (s.record g).allocator with
  | none =>
    -- nothing has been written to the item
    rw [WorkItem.freeBuffer_of_none halloc] at hrecord
    exact h.holds_kept hs htickets hg (by rw [hrecord]) (by rw [hrecord]) fun he => hrecord ▸ he
  | some a =>
    have hfreed : s'.record g = { s.record g with buffer := none } :=
      hrecord.trans (WorkItem.freeBuffer_of_some halloc)
    constructor
    · rw [hfreed, item_of_tickets htickets]
      exact hold.allocator
    · rw [hfreed, htickets]
      exact hold.operation
    · rw [htickets]
      intro buffer hhands
      rw [hold.allocator_none hhands] at halloc
      cases halloc
    · intro _ buffer hmem
      rw [hfreed] at hmem
      cases hmem

lemma step_records (h : BufferInv cfg s) (hk : Accounted cfg s)
    (hs : LaminaFS.step cfg s act = some s') (hg' : s'.Posted g) : s'.Holds cfg g := by
  have htickets (hg : s.Posted g) : s'.tickets g = s.tickets g :=
    OwnInv.step_tickets hk.ledger hs hg.ne_unborn
  cases hk.own.record_step hk.ledger hs hg'.ne_unborn hg'.2 with
  | taken _ hstage | filled _ hstage => exact absurd hstage hg'.ne_building
  | posted _ hborn _ hrecord _ =>
    exact holds_of_push (OwnInv.step_tickets hk.ledger hs (by rw [hborn]; simp)) hrecord
  | same hborn hocc hposted _ hrecord =>
    have hg : s.Posted g := ⟨hposted ▸ hg'.1, hocc⟩
    exact h.holds_kept hs (htickets hg) hg (by rw [hrecord]) (by rw [hrecord])
      fun he => hrecord ▸ he
  | late hg _ _ _ hrecord =>
    exact h.holds_kept hs (htickets hg) hg (by rw [hrecord]) (by rw [hrecord])
      fun he => by rw [hrecord] at he; cases he
  | executing p e hact hp hslot hpc hstage hexec =>
    subst hp
    have hg : s.Posted p.submission :=
      ⟨by rw [hstage]; rfl, OwnInv.occupies_of_live hk.ledger (by rw [hstage]; rfl)⟩
    exact h.holds_of_exec hs hslot hg hpc hexec
  | completed hg _ hrecord =>
    exact h.holds_kept hs (htickets hg) hg (by rw [hrecord]) (by rw [hrecord])
      fun he => by rw [hrecord] at he; exact he
  | freed hg _ _ hrecord => exact h.holds_of_free hs (htickets hg) hg hrecord

/-- An execution reads only what the call asks to read. -/
lemma step_reading (h : BufferInv cfg s) (hk : Accounted cfg s) (hk' : Accounted cfg s')
    (hs : LaminaFS.step cfg s act = some s') {p : ItemPtr} {e : ExecPc D W}
    (hpc' : s'.proc = .exec p e) (hreads : e.reads = true) :
    (s'.tickets p.submission).call.operation = .opRead := by
  have hslot' := (hk'.executing_hand hpc').1
  cases comesTo hk.own.ring hs hpc' with
  | fetched _ _ he _ _ =>
    rw [he] at hreads
    cases hreads
  | stayed _ hpc =>
    have hst := (hk.executing_hand hpc).2
    rw [OwnInv.step_tickets hk.ledger hs (by rw [hst]; simp)]
    exact h.reading p e hpc hreads
  | continued q e' _ hpc hexec =>
    obtain rfl : p = q := by
      rcases execStep_proc hexec with hp | hp | ⟨e'', hp⟩ <;> rw [hp] at hpc' <;> cases hpc'
      rfl
    obtain ⟨hrec, hg⟩ := hk.executing_posted hpc
    rw [(execStep_frame hexec).tickets]
    rcases execStep_reads hexec hpc' hreads with hold | ⟨-, hop⟩
    · exact h.reading p e' hpc hold
    · exact (h.records _ hg).operation (hrec ▸ hop)

/-- **The step lemma.** -/
theorem step (h : BufferInv cfg s) (hk : Accounted cfg s) (hok : TestsOwn s act)
    (hs : LaminaFS.step cfg s act = some s') : BufferInv cfg s' :=
  ⟨fun _ => h.step_records hk hs, fun _ _ => h.step_reading hk (hk.step hok hs) hs,
    h.step_blocks_lt hs⟩

end BufferInv

/-! ### The calls of `WorkItemFreeBuffer` -/

/-- Somebody may call `WorkItemFreeBuffer` on the item: a client that has been told that it is
complete, the callback of the item, or the processing thread itself. -/
def State.MayFree (s : State D W) (p : ItemPtr) : Prop :=
  s.owns p = true ∨ s.proc = .inCallback p ∨ s.proc = .freeBuffer p

/-- `WorkItemFreeBuffer` does nothing to the item, or hands a block that was allocated for the
item back to the allocator it is from. -/
def State.FreesOwn (s : State D W) (p : ItemPtr) : Prop :=
  freeBufferResult s p = .nothing ∨ ∃ a id bytes,
    freeBufferResult s p = .freed a (.block id bytes) ∧
      s.blockOf id = some (p.submission, some a)

instance (s : State D W) (p : ItemPtr) : Decidable (s.FreesOwn p) :=
  match h : freeBufferResult s p with
  | .nothing => isTrue (Or.inl h)
  | .freed a (.block id bytes) =>
    if hid : s.blockOf id = some (p.submission, some a) then isTrue (Or.inr ⟨a, id, bytes, h, hid⟩)
    else isFalse fun hf => by
      rcases hf with hf | ⟨a', id', bytes', hf, hid'⟩ <;> rw [h] at hf <;> cases hf
      exact hid hid'
  | .freed a (.client id bytes) => isFalse fun hf => by
      rcases hf with hf | ⟨a', id', bytes', hf, hid'⟩ <;> rw [h] at hf <;> cases hf
  | .nullFunction => isFalse fun hf => by
      rcases hf with hf | ⟨a', id', bytes', hf, hid'⟩ <;> rw [h] at hf <;> cases hf

/-- Whoever may free the buffer of an item finds the item in its slot. -/
lemma State.MayFree.posted (hk : Accounted cfg s) {p : ItemPtr} (hp : s.MayFree p) :
    s.slots p.slot = s.record p.submission ∧ s.Posted p.submission := by
  rcases hp with howns | hproc
  · simp only [State.owns, Bool.and_eq_true, decide_eq_true_eq] at howns
    exact OwnInv.posted_of_held hk.ledger howns.1
  · have hhand : s.proc.hand = .after p := by
      rcases hproc with hpc | hpc <;> rw [hpc] <;> rfl
    obtain ⟨hslot, hstage⟩ := fits_of_hand hk.ledger hhand
    have hst : s.stage p.submission = .called := hstage
    exact ⟨congrArg s.slots hslot, by rw [hst]; rfl,
      OwnInv.occupies_of_live hk.ledger (by rw [hst]; rfl)⟩

section Runs

variable {pool : PoolAllocator} {capacity : ℕ} {memory : ℕ → WorkItem} {world : W}

/-- The invariant along the runs. -/
lemma buffers_of_reach (hpool : pool.WF) (hcapacity : 1 ≤ capacity)
    (h : Reach (step cfg) TestsOwn (State.init pool capacity memory world) s) :
    Accounted cfg s ∧ BufferInv cfg s := by
  have hinit : BufferInv cfg (State.init pool capacity memory world) :=
    ⟨fun g hg => (by cases hg.1), fun p e hpc => (by cases hpc), fun id hid => (by cases hid)⟩
  have known (t : State D W) (ht : Reach (step cfg) TestsOwn
      (State.init pool capacity memory world) t) : Accounted cfg t :=
    (refines_handoff hpool hcapacity (fun _ _ hok => hok) ht).1
  exact ⟨known s h, h.invariant_of known hinit fun _ _ _ hk hi hok hs => hi.step hk hok hs⟩

/-- **Buffers.**  In every state of a run whose steps all test the right `_callback`, a call of
`WorkItemFreeBuffer` does the right thing exactly if the call that made the item has handed in no
buffer. -/
theorem freesOwn_iff (hpool : pool.WF) (hcapacity : 1 ≤ capacity)
    (h : Reach (step cfg) TestsOwn (State.init pool capacity memory world) s) {p : ItemPtr}
    (hp : s.MayFree p) :
    s.FreesOwn p ↔ (s.tickets p.submission).call.handsIn = none := by
  obtain ⟨hk, hinv⟩ := buffers_of_reach hpool hcapacity h
  obtain ⟨hrec, hposted⟩ := hp.posted hk
  have hholds := hinv.records _ hposted
  have hresult : freeBufferResult s p = (s.record p.submission).freeBuffer.1 := by
    rw [freeBufferResult, hrec]
  unfold State.FreesOwn
  rw [hresult]
  constructor
  · intro hfrees
    by_contra hhands
    obtain ⟨buffer, hhands⟩ := Option.ne_none_iff_exists'.mp hhands
    -- no allocator has been set
    have hnone := hholds.allocator_none hhands
    rw [WorkItem.freeBuffer, hholds.handedIn buffer hhands, hnone] at hfrees
    rcases hfrees with hf | ⟨a, id, bytes, hf, -⟩ <;> cases hf
  · intro hhands
    cases hbuffer : (s.record p.submission).buffer with
    | none => exact Or.inl (by rw [WorkItem.freeBuffer, hbuffer])
    | some buffer =>
      obtain ⟨id, bytes, a, rfl, ha, hid⟩ := hholds.own hhands buffer hbuffer
      exact Or.inr ⟨a, id, bytes, by rw [WorkItem.freeBuffer, hbuffer, ha], hid⟩

end Runs

/-- A context with one device type, on which every file is one byte long. -/
def readingConfig : Config Unit Unit :=
  ⟨[{ DeviceInterface.empty with
      readFile := fun _ _ _ _ _ _ w => (⟨1, some .ok, .block [7]⟩, w) }], ⟨0⟩⟩

/-- A client reads a file, and frees the buffer. -/
theorem freesOwn_iff_read :
    ∃ s, Reach (step readingConfig) TestsOwn smallInit s ∧
      freeBufferResult s ⟨0, 0⟩ = .freed ⟨3⟩ (.block 0 [7]) ∧
      (s.FreesOwn ⟨0, 0⟩ ↔ (s.tickets 0).call.handsIn = none) := by
  obtain ⟨s, hs, hp⟩ := @Reach.of_guardedRun_any _ _ (step readingConfig) TestsOwn smallInit
    (fun s act => decide (TestsOwn s act)) (fun _ _ => of_decide_eq_true)
    (mountsRoot ++
      submits 0 ⟨.readFile false (some ⟨3⟩), [slash, 97], none⟩ 18 ++ List.replicate 7 .proc ++
      [.client (.client 0) (.check ⟨0, 0⟩)])
    (fun s => s.owns ⟨0, 0⟩ && freeBufferResult s ⟨0, 0⟩ = .freed ⟨3⟩ (.block 0 [7]))
    (by decide +kernel)
  rw [Bool.and_eq_true, decide_eq_true_eq] at hp
  refine ⟨s, hs, hp.2, ?_⟩
  exact freesOwn_iff (PoolAllocator.wf_new 2 (by decide) (by decide)) (by decide) hs (Or.inl hp.1)

/-- A client writes, and frees the buffer of the complete item. -/
theorem write_not_freesOwn :
    ∃ s, Reach (step smallConfig) Free smallInit s ∧ s.MayFree ⟨0, 0⟩ ∧
      (s.tickets 0).call = ⟨.writeFile (some (.client 5 [1])) 1, [slash, 97], none⟩ ∧
      freeBufferResult s ⟨0, 0⟩ = .nullFunction ∧ ¬ s.FreesOwn ⟨0, 0⟩ := by
  obtain ⟨s, hs, hp⟩ := @Reach.of_run_any _ _ (step smallConfig) smallInit
    (submits 0 ⟨.writeFile (some (.client 5 [1])) 1, [slash, 97], none⟩ 18 ++
      List.replicate 8 .proc ++ [.client (.client 0) (.check ⟨0, 0⟩)])
    (fun s => s.owns ⟨0, 0⟩ && decide ((s.tickets 0).call =
      ⟨.writeFile (some (.client 5 [1])) 1, [slash, 97], none⟩ ∧
      freeBufferResult s ⟨0, 0⟩ = .nullFunction ∧ ¬ s.FreesOwn ⟨0, 0⟩)) (by decide +kernel)
  rw [Bool.and_eq_true, decide_eq_true_eq] at hp
  exact ⟨s, hs, Or.inl hp.1, hp.2⟩

end LaminaFS
