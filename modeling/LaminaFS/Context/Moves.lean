/-
# What one step can do

The step functions turned around: for each of them an inductive predicate lists what a step can
be, with the condition under which it is taken and the state behind it.  What is proved of the
steps goes by cases on these lists.
-/
import LaminaFS.Context.Step

namespace LaminaFS

variable {D W : Type} {cfg : Config D W} {s s' : State D W} {a : Agent}

/-- Who takes a step, and what allows it to. -/
inductive StepBy (cfg : Config D W) (s : State D W) : Action → State D W → Prop
  | client {s' : State D W} (a : Agent) (act : ClientAct) (hidle : s.agents a = .idle)
      (hs : clientStep s a act = some s') : StepBy cfg s (.client a act) s'
  | agent {s' : State D W} (a : Agent) (hs : agentStep cfg s a = some s') :
      StepBy cfg s (.agent a) s'
  | proc {s' : State D W} (hs : procStep s = some s') : StepBy cfg s .proc s'
  | callbackReturns (p : ItemPtr) (hpc : s.proc = .inCallback p)
      (hidle : s.agents .callback = .idle) :
      StepBy cfg s .callbackReturns { s with proc := .testAction p }
  | controlAct {s' : State D W} (act : ControlAct) (hidle : s.control.isIdle = true)
      (hs : controlActStep s act = some s') : StepBy cfg s (.controlAct act) s'
  | control {s' : State D W} (hs : controlStep cfg s = some s') : StepBy cfg s .control s'
  | wakeProc : StepBy cfg s .wakeProc { s with proc := s.proc.wake }
  | wakeAgent (a : Agent) : StepBy cfg s (.wakeAgent a)
      { s with agents := Function.update s.agents a (s.agents a).wake }

lemma stepBy {act : Action} (hs : step cfg s act = some s') : StepBy cfg s act s' := by
  cases act with
  | client a act =>
    simp only [step] at hs
    split at hs
    · rename_i hacts
      simp only [State.acts, Bool.and_eq_true, beq_iff_eq] at hacts
      exact .client a act hacts.1.1 hs
    · cases hs
  | agent a => exact .agent a hs
  | proc => exact .proc hs
  | callbackReturns =>
    simp only [step] at hs
    split at hs
    · rename_i p hpc
      split at hs <;> cases hs
      exact .callbackReturns p hpc ‹_›
    · cases hs
  | controlAct act =>
    simp only [step] at hs
    split at hs
    · exact .controlAct act ‹_› hs
    · cases hs
  | control => exact .control hs
  | wakeProc =>
    cases hs
    exact .wakeProc
  | wakeAgent a =>
    cases hs
    exact .wakeAgent a

/-- What client code does. -/
inductive ClientMove (s : State D W) (a : Agent) : ClientAct → State D W → Prop
  | submits (c : Call) :
      ClientMove s a (.submit c) { s with agents := Function.update s.agents a (.alloc c) }
  | isTold (p : ItemPtr) (hheld : p ∈ s.held)
      (hshows : ((s.slots p.slot).callback.isSome || (s.slots p.slot).completed) = true) :
      ClientMove s a (.check p) { s with reported := p :: s.reported }
  | isNotTold (p : ItemPtr) : ClientMove s a (.check p) s
  | waitsNot (p : ItemPtr) (hheld : p ∈ s.held)
      (hcallback : (s.slots p.slot).callback.isSome = true) :
      ClientMove s a (.wait p) { s with reported := p :: s.reported }
  | waits (p : ItemPtr) (hheld : p ∈ s.held) :
      ClientMove s a (.wait p) { s with agents := Function.update s.agents a (.waitTest p) }
  | frees (p : ItemPtr) (hmay : (s.owns p || s.isCallbackItem a p) = true)
      (hresult : freeBufferResult s p ≠ .nullFunction) :
      ClientMove s a (.freeBuffer p)
        { freeBufferStep s p with agents := Function.update s.agents a .idle }
  | freesNull (p : ItemPtr) (hmay : (s.owns p || s.isCallbackItem a p) = true)
      (hresult : freeBufferResult s p = .nullFunction) :
      ClientMove s a (.freeBuffer p)
        { freeBufferStep s p with agents := Function.update s.agents a .crashed }
  | forgets (p : ItemPtr) (hheld : p ∈ s.held) (hreported : p ∈ s.reported)
      (hcallback : (s.slots p.slot).callback.isSome = true) :
      ClientMove s a (.release p) { s with held := s.held.filter (· ≠ p) }
  | releases (p : ItemPtr) (hheld : p ∈ s.held) (hreported : p ∈ s.reported)
      (hcallback : (s.slots p.slot).callback = none) :
      ClientMove s a (.release p)
        { releaseStep s p .client with held := s.held.filter (· ≠ p) }

lemma clientMove {act : ClientAct} (hs : clientStep s a act = some s') :
    ClientMove s a act s' := by
  cases act with
  | submit c =>
    cases hs
    exact .submits c
  | check p =>
    simp only [clientStep] at hs
    split_ifs at hs with hheld hshows <;> cases hs
    · exact .isTold p hheld hshows
    · exact .isNotTold p
  | wait p =>
    simp only [clientStep] at hs
    split_ifs at hs with hheld hcallback <;> cases hs
    · exact .waitsNot p hheld hcallback
    · exact .waits p hheld
  | freeBuffer p =>
    simp only [clientStep] at hs
    by_cases hresult : freeBufferResult s p = .nullFunction
    · rw [if_pos hresult] at hs
      split at hs <;> cases hs
      exact .freesNull p ‹_› hresult
    · rw [if_neg hresult] at hs
      split at hs <;> cases hs
      exact .frees p ‹_› hresult
  | release p =>
    simp only [clientStep, State.owns, Bool.and_eq_true, decide_eq_true_eq] at hs
    split_ifs at hs with howns hcallback <;> cases hs
    · exact .forgets p howns.1 howns.2 hcallback
    · exact .releases p howns.1 howns.2 (Option.not_isSome_iff_eq_none.mp hcallback)

/-- What the function that an agent is in does next. -/
inductive AgentMove (cfg : Config D W) (s : State D W) (a : Agent) : State D W → Prop
  | noSlot (c : Call) (pool : PoolAllocator) (hpc : s.agents a = .alloc c)
      (halloc : s.pool.alloc = (none, pool)) :
      AgentMove cfg s a { s with agents := Function.update s.agents a (.failed c) }
  | takes (c : Call) (i : ℕ) (pool : PoolAllocator) (hpc : s.agents a = .alloc c)
      (halloc : s.pool.alloc = (some i, pool)) :
      AgentMove cfg s a { s with
        agents := Function.update s.agents a (.construct c ⟨i, s.nextSubmission⟩)
        pool := pool
        nextSubmission := s.nextSubmission + 1
        tickets := Function.update s.tickets s.nextSubmission ⟨c, a, i⟩
        occupant := Function.update s.occupant i s.nextSubmission
        stage := Function.update s.stage s.nextSubmission .building }
  | constructs (c : Call) (p : ItemPtr) (hpc : s.agents a = .construct c p) :
      AgentMove cfg s a { s with
        agents := Function.update s.agents a (.store c p (c.plan cfg.contextAlloc).stores)
        slots := Function.update s.slots p.slot .new }
  | filled (c : Call) (p : ItemPtr) (hpc : s.agents a = .store c p []) :
      AgentMove cfg s a { s with agents := Function.update s.agents a (.pushTest c p) }
  | stores (c : Call) (p : ItemPtr) (store : Store) (todo : List Store)
      (hpc : s.agents a = .store c p (store :: todo)) :
      AgentMove cfg s a { s with
        agents := Function.update s.agents a (.store c p todo)
        slots := Function.update s.slots p.slot (store.apply (s.slots p.slot)) }
  | seesRoom (c : Call) (p : ItemPtr) (hpc : s.agents a = .pushTest c p)
      (hroom : s.ring.full = false) :
      AgentMove cfg s a { s with agents := Function.update s.agents a (.pushLock c p) }
  | pushes (c : Call) (p : ItemPtr) (hpc : s.agents a = .pushLock c p)
      (hdone : (s.ring.push (some p)).done = true) :
      AgentMove cfg s a { s with
        agents := Function.update s.agents a
          (if (s.ring.push (some p)).notify then .notify c p
            else .late c p (c.plan cfg.contextAlloc).late)
        ring := (s.ring.push (some p)).ring
        stage := Function.update s.stage p.submission .queued }
  | findsFull (c : Call) (p : ItemPtr) (hpc : s.agents a = .pushLock c p)
      (hdone : ¬ (s.ring.push (some p)).done = true) :
      AgentMove cfg s a { s with agents := Function.update s.agents a (.pushTest c p) }
  | notifies (c : Call) (p : ItemPtr) (hpc : s.agents a = .notify c p) :
      AgentMove cfg s a { s with
        agents := Function.update s.agents a (.notifyOne c p)
        sem := (s.sem + 1) % 2 ^ 32 }
  | notifiesOne (c : Call) (p : ItemPtr) (hpc : s.agents a = .notifyOne c p) :
      AgentMove cfg s a { s with
        agents := Function.update s.agents a (.late c p (c.plan cfg.contextAlloc).late)
        proc := s.proc.wake }
  | returns (c : Call) (p : ItemPtr) (hpc : s.agents a = .late c p []) :
      AgentMove cfg s a { s with
        agents := Function.update s.agents a .idle
        held := if (c.plan cfg.contextAlloc).returnsItem then p :: s.held else s.held
        returned := p.submission :: s.returned }
  | storesLate (c : Call) (p : ItemPtr) (store : Store) (todo : List Store)
      (hpc : s.agents a = .late c p (store :: todo)) :
      AgentMove cfg s a { s with
        agents := Function.update s.agents a (.late c p todo)
        slots := Function.update s.slots p.slot (store.apply (s.slots p.slot)) }
  | refused (c : Call) (hpc : s.agents a = .failed c) :
      AgentMove cfg s a { s with
        agents := Function.update s.agents a .idle
        log := if (c.plan cfg.contextAlloc).callback.isSome then .errorCallback a c :: s.log
          else s.log }
  | told (p : ItemPtr) (hpc : s.agents a = .waitTest p)
      (hcompleted : (s.slots p.slot).completed = true) :
      AgentMove cfg s a { s with
        agents := Function.update s.agents a .idle
        reported := p :: s.reported }
  | blocks (p : ItemPtr) (hpc : s.agents a = .waitTest p)
      (hcompleted : ¬(s.slots p.slot).completed = true) :
      AgentMove cfg s a { s with agents := Function.update s.agents a (.blocked p) }

lemma agentMove (hs : agentStep cfg s a = some s') : AgentMove cfg s a s' := by
  cases hpc : s.agents a with
  | alloc c =>
    simp only [agentStep, hpc] at hs
    split at hs <;> cases hs
    · exact .noSlot c _ hpc ‹_›
    · exact .takes c _ _ hpc ‹_›
  | construct c p =>
    simp only [agentStep, hpc, Option.some.injEq] at hs
    exact hs ▸ .constructs c p hpc
  | store c p todo =>
    cases todo <;> simp only [agentStep, hpc, Option.some.injEq] at hs
    · exact hs ▸ .filled c p hpc
    · exact hs ▸ .stores c p _ _ hpc
  | pushTest c p =>
    simp only [agentStep, hpc] at hs
    split at hs <;> cases hs
    exact .seesRoom c p hpc (Bool.eq_false_iff.mpr ‹_›)
  | pushLock c p =>
    simp only [agentStep, hpc] at hs
    split at hs <;> cases hs
    · exact .pushes c p hpc ‹_›
    · exact .findsFull c p hpc ‹_›
  | notify c p =>
    simp only [agentStep, hpc, Option.some.injEq] at hs
    exact hs ▸ .notifies c p hpc
  | notifyOne c p =>
    simp only [agentStep, hpc, Option.some.injEq] at hs
    exact hs ▸ .notifiesOne c p hpc
  | late c p todo =>
    cases todo <;> simp only [agentStep, hpc, Option.some.injEq] at hs
    · exact hs ▸ .returns c p hpc
    · exact hs ▸ .storesLate c p _ _ hpc
  | failed c =>
    simp only [agentStep, hpc, Option.some.injEq] at hs
    exact hs ▸ .refused c hpc
  | waitTest p =>
    simp only [agentStep, hpc] at hs
    split at hs <;> cases hs
    · exact .told p hpc ‹_›
    · exact .blocks p hpc ‹_›
  | idle | blocked p | crashed => simp [agentStep, hpc] at hs

/-- What the execution of an item does next. -/
inductive ExecMove (s : State D W) (p : ItemPtr) : ExecPc D W → State D W → Prop
  | dispatchesLookup (item : WorkItem) (l : Lookup)
      (hdispatch : (s.slots p.slot).dispatch = (item, .lookup l)) :
      ExecMove s p .dispatch { s with
        slots := Function.update s.slots p.slot item
        proc := .exec p (.findNext l none) }
  | dispatchesMutation (item : WorkItem) (m : Mutation)
      (hdispatch : (s.slots p.slot).dispatch = (item, .mutation m)) :
      ExecMove s p .dispatch { s with
        slots := Function.update s.slots p.slot item
        proc := .exec p (.findMutable m) }
  | searchesNext (l : Lookup) (searchStart : Option ℕ) :
      ExecMove s p (.findNext l searchStart) { s with
        proc := .exec p (.scanNext l (s.slots p.slot).filename searchStart s.mounts.reverse)
        log := .searched p.submission (s.slots p.slot).operation (s.slots p.slot).filename ::
          s.log }
  | findsNoNext (l : Lookup) (path : CString) (onlyAfter : Option ℕ) :
      ExecMove s p (.scanNext l path onlyAfter []) { s with proc := .complete p }
  | passesNext (l : Lookup) (path : CString) (onlyAfter after : Option ℕ)
      (mount : MountInfo D W) (rest : List (MountInfo D W))
      (hvisit : visitNext path onlyAfter mount = .next after) :
      ExecMove s p (.scanNext l path onlyAfter (mount :: rest))
        { s with proc := .exec p (.scanNext l path after rest) }
  | findsNext (l : Lookup) (path : CString) (onlyAfter : Option ℕ) (mount : MountInfo D W)
      (rest : List (MountInfo D W)) (devicePath : CString)
      (hvisit : visitNext path onlyAfter mount = .found devicePath) :
      ExecMove s p (.scanNext l path onlyAfter (mount :: rest))
        { s with proc := .exec p (.callLookup l mount devicePath) }
  | callsLookup (l : Lookup) (mount : MountInfo D W) (devicePath : CString)
      (r : LookedUp D W)
      (hr : LaminaFS.callLookup l mount devicePath s.nextBlock (s.slots p.slot) s.world = r) :
      ExecMove s p (.callLookup l mount devicePath) { s with
        slots := Function.update s.slots p.slot r.item
        world := r.world
        nextBlock := s.nextBlock + 1
        blockOf := Function.update s.blockOf s.nextBlock
          (some (p.submission, (s.slots p.slot).allocator))
        proc := if r.stop then .complete p else .exec p (.findNext l (some mount.handle))
        log := .deviceCall p.submission mount.handle mount.prefixStr r.called.call :: s.log }
  | searchesMutable (m : Mutation) :
      ExecMove s p (.findMutable m) { s with
        proc := .exec p (.lockShared m (s.slots p.slot).operation (s.slots p.slot).filename)
        log := .searched p.submission (s.slots p.slot).operation (s.slots p.slot).filename ::
          s.log }
  | locksShared (m : Mutation) (op : Operation) (path : CString) (hlock : s.lock = .free) :
      ExecMove s p (.lockShared m op path) { s with
        lock := .shared
        proc := .exec p (.scanMutable m op path s.mounts.reverse) }
  | findsNoMutable (m : Mutation) (op : Operation) (path : CString) :
      ExecMove s p (.scanMutable m op path [])
        { s with proc := .exec p (.unlockShared m none) }
  | findsMutable (m : Mutation) (op : Operation) (path : CString) (mount : MountInfo D W)
      (rest : List (MountInfo D W)) (devicePath : CString)
      (hvisit : visitMutable path op mount = some devicePath) :
      ExecMove s p (.scanMutable m op path (mount :: rest))
        { s with proc := .exec p (.unlockShared m (some (mount, devicePath))) }
  | passesMutable (m : Mutation) (op : Operation) (path : CString) (mount : MountInfo D W)
      (rest : List (MountInfo D W)) (hvisit : visitMutable path op mount = none) :
      ExecMove s p (.scanMutable m op path (mount :: rest))
        { s with proc := .exec p (.scanMutable m op path rest) }
  | unlocksNone (m : Mutation) :
      ExecMove s p (.unlockShared m none) { s with
        lock := .free
        slots := Function.update s.slots p.slot (noMutableMount m (s.slots p.slot))
        proc := .complete p }
  | unlocksWrite (mount : MountInfo D W) (devicePath : CString) :
      ExecMove s p (.unlockShared .writeFile (some (mount, devicePath))) { s with
        lock := .free
        proc := .exec p (.modeSwitch mount devicePath) }
  | unlocks (m : Mutation) (mount : MountInfo D W) (devicePath : CString)
      (hm : m ≠ .writeFile) :
      ExecMove s p (.unlockShared m (some (mount, devicePath))) { s with
        lock := .free
        proc := .exec p (.callMutable m .truncate mount devicePath) }
  | switches (mount : MountInfo D W) (devicePath : CString) :
      ExecMove s p (.modeSwitch mount devicePath) { s with
        proc := .exec p
          (.callMutable .writeFile (s.slots p.slot).writeMode mount devicePath) }
  | callsMutable (m : Mutation) (mode : WriteMode) (mount : MountInfo D W)
      (devicePath : CString) (r : Mutated D W)
      (hr : LaminaFS.callMutable m mode mount devicePath (s.slots p.slot) s.world = r) :
      ExecMove s p (.callMutable m mode mount devicePath) { s with
        slots := Function.update s.slots p.slot r.item
        world := r.world
        proc := if r.nullFunction then .crashed else .complete p
        log := .deviceCall p.submission mount.handle mount.prefixStr r.called.call :: s.log }

lemma execMove {p : ItemPtr} {e : ExecPc D W} (hs : execStep s p e = some s') :
    ExecMove s p e s' := by
  cases e with
  | dispatch =>
    simp only [execStep, Option.some.injEq] at hs
    cases hd : (s.slots p.slot).dispatch with
    | mk item case =>
      rw [hd] at hs
      cases case with
      | lookup l => exact hs ▸ .dispatchesLookup item l hd
      | mutation m => exact hs ▸ .dispatchesMutation item m hd
  | findNext l searchStart =>
    cases hs
    exact .searchesNext l searchStart
  | scanNext l path onlyAfter rest =>
    cases rest with
    | nil =>
      cases hs
      exact .findsNoNext l path onlyAfter
    | cons mount rest =>
      simp only [execStep] at hs
      split at hs <;> cases hs
      · exact .passesNext l path onlyAfter _ mount rest ‹_›
      · exact .findsNext l path onlyAfter mount rest _ ‹_›
  | callLookup l mount devicePath =>
    cases hs
    exact .callsLookup l mount devicePath _ rfl
  | findMutable m =>
    cases hs
    exact .searchesMutable m
  | lockShared m op path =>
    simp only [execStep] at hs
    split at hs <;> cases hs
    exact .locksShared m op path ‹_›
  | scanMutable m op path rest =>
    cases rest with
    | nil =>
      cases hs
      exact .findsNoMutable m op path
    | cons mount rest =>
      simp only [execStep] at hs
      split at hs <;> cases hs
      · exact .findsMutable m op path mount rest _ ‹_›
      · exact .passesMutable m op path mount rest ‹_›
  | unlockShared m found =>
    cases found with
    | none =>
      cases hs
      exact .unlocksNone m
    | some found =>
      cases hs
      cases m with
      | writeFile => exact .unlocksWrite found.1 found.2
      | _ => exact .unlocks _ found.1 found.2 (by simp)
  | modeSwitch mount devicePath =>
    cases hs
    exact .switches mount devicePath
  | callMutable m mode mount devicePath =>
    cases hs
    exact .callsMutable m mode mount devicePath _ rfl

/-- What the processing thread does next. -/
inductive ProcMove (s : State D W) : State D W → Prop
  | enters (hpc : s.proc = .top) (hprocessing : s.processing = true) :
      ProcMove s { s with proc := .pop }
  | exits (hpc : s.proc = .top) (hprocessing : s.processing = false) :
      ProcMove s { s with proc := .exited }
  | fetches (p : ItemPtr) (ring : RingBuffer (Option ItemPtr)) (hpc : s.proc = .pop)
      (hpop : s.ring.pop none = (some p, ring)) :
      ProcMove s { s with
        ring := ring
        stage := Function.update s.stage p.submission .executing
        proc := .exec p .dispatch }
  | findsEmpty (ring : RingBuffer (Option ItemPtr)) (hpc : s.proc = .pop)
      (hpop : s.ring.pop none = (none, ring)) :
      ProcMove s { s with ring := ring, proc := .semTest }
  | sleeps (hpc : s.proc = .semTest) (hsem : s.sem = 0) :
      ProcMove s { s with proc := .semSleep }
  | passes (hpc : s.proc = .semTest) (hsem : s.sem ≠ 0) :
      ProcMove s { s with sem := s.sem - 1, proc := .top }
  | executes {s' : State D W} (p : ItemPtr) (e : ExecPc D W) (hpc : s.proc = .exec p e)
      (hs : execStep s p e = some s') : ProcMove s s'
  | completes (p : ItemPtr) (hpc : s.proc = .complete p) :
      ProcMove s { s with
        slots := Function.update s.slots p.slot { s.slots p.slot with completed := true }
        stage := Function.update s.stage p.submission .completed
        proc := .testCallback p
        log := .executed p.submission :: s.log }
  | keeps (p : ItemPtr) (hpc : s.proc = .testCallback p)
      (hcallback : (s.slots p.slot).callback.isSome = true) :
      ProcMove s { s with proc := .invoke p }
  | leaves (p : ItemPtr) (hpc : s.proc = .testCallback p)
      (hcallback : (s.slots p.slot).callback = none) :
      ProcMove s { s with proc := .notifyAll }
  | invokes (p : ItemPtr) (hpc : s.proc = .invoke p)
      (hcallback : (s.slots p.slot).callback.isSome = true) :
      ProcMove s { s with
        stage := Function.update s.stage (s.occupant p.slot) .called
        proc := .inCallback p
        log := .invoked (s.occupant p.slot) (s.slots p.slot).resultCode :: s.log }
  | invokesNull (p : ItemPtr) (hpc : s.proc = .invoke p)
      (hcallback : (s.slots p.slot).callback = none) :
      ProcMove s { s with proc := .crashed }
  | mayFree (p : ItemPtr) (hpc : s.proc = .testAction p)
      (haction : (s.slots p.slot).callbackBufferAction = .freeBuffer) :
      ProcMove s { s with proc := .freeBuffer p }
  | mayNotFree (p : ItemPtr) (hpc : s.proc = .testAction p)
      (haction : (s.slots p.slot).callbackBufferAction ≠ .freeBuffer) :
      ProcMove s { s with proc := .release p }
  | frees (p : ItemPtr) (hpc : s.proc = .freeBuffer p)
      (hresult : freeBufferResult s p ≠ .nullFunction) :
      ProcMove s { freeBufferStep s p with proc := .release p }
  | freesNull (p : ItemPtr) (hpc : s.proc = .freeBuffer p)
      (hresult : freeBufferResult s p = .nullFunction) :
      ProcMove s { freeBufferStep s p with proc := .crashed }
  | releases (p : ItemPtr) (hpc : s.proc = .release p) :
      ProcMove s { releaseStep s p .processing with proc := .top }
  | notifies (hpc : s.proc = .notifyAll) :
      ProcMove s { s with agents := fun a => (s.agents a).wake, proc := .top }

lemma procMove (hs : procStep s = some s') : ProcMove s s' := by
  cases hpc : s.proc with
  | top =>
    simp only [procStep, hpc, Option.some.injEq] at hs
    split at hs
    · exact hs ▸ .enters hpc ‹_›
    · exact hs ▸ .exits hpc (Bool.eq_false_iff.mpr ‹_›)
  | pop =>
    simp only [procStep, hpc] at hs
    split at hs <;> cases hs
    · exact .fetches _ _ hpc ‹_›
    · exact .findsEmpty _ hpc ‹_›
  | semTest =>
    simp only [procStep, hpc] at hs
    split at hs <;> cases hs
    · exact .sleeps hpc ‹_›
    · exact .passes hpc ‹_›
  | exec p e =>
    simp only [procStep, hpc] at hs
    exact .executes p e hpc hs
  | complete p =>
    simp only [procStep, hpc, Option.some.injEq] at hs
    exact hs ▸ .completes p hpc
  | testCallback p =>
    simp only [procStep, hpc, Option.some.injEq] at hs
    split at hs
    · exact hs ▸ .keeps p hpc ‹_›
    · exact hs ▸ .leaves p hpc (Option.not_isSome_iff_eq_none.mp ‹_›)
  | invoke p =>
    simp only [procStep, hpc] at hs
    split at hs <;> cases hs
    · exact .invokes p hpc ‹_›
    · exact .invokesNull p hpc (Option.not_isSome_iff_eq_none.mp ‹_›)
  | testAction p =>
    simp only [procStep, hpc, Option.some.injEq] at hs
    split at hs
    · exact hs ▸ .mayFree p hpc ‹_›
    · exact hs ▸ .mayNotFree p hpc ‹_›
  | freeBuffer p =>
    simp only [procStep, hpc, Option.some.injEq] at hs
    split at hs
    · exact hs ▸ .freesNull p hpc ‹_›
    · exact hs ▸ .frees p hpc ‹_›
  | release p =>
    simp only [procStep, hpc, Option.some.injEq] at hs
    exact hs ▸ .releases p hpc
  | notifyAll =>
    simp only [procStep, hpc, Option.some.injEq] at hs
    exact hs ▸ .notifies hpc
  | semSleep | inCallback p | exited | crashed => simp [procStep, hpc] at hs

/-- What the control thread begins. -/
inductive ControlActMove (s : State D W) : ControlAct → State D W → Prop
  | beginsCreate (args : MountArgs) (handle : ℕ) (hne : handle ≠ 0)
      (hnew : handle ∉ s.mounts.map MountInfo.handle) :
      ControlActMove s (.createMount args handle) { s with control := .make args handle }
  | beginsRelease (handle : ℕ) :
      ControlActMove s (.releaseMount handle)
        { s with control := .stop (.releaseMount handle), drain := s.returned }
  | beginsDestroy :
      ControlActMove s .destroy { s with control := .stop .destroy, drain := s.returned }

lemma controlActMove {act : ControlAct} (hs : controlActStep s act = some s') :
    ControlActMove s act s' := by
  cases act with
  | createMount args handle =>
    simp only [controlActStep] at hs
    split at hs <;> cases hs
    rename_i hhandle
    exact .beginsCreate args handle hhandle.1 hhandle.2
  | releaseMount handle =>
    cases hs
    exact .beginsRelease handle
  | destroy =>
    cases hs
    exact .beginsDestroy

/-- What the control thread does next. -/
inductive ControlMove (cfg : Config D W) (s : State D W) : State D W → Prop
  | stops (k : AfterStop) (hpc : s.control = .stop k) (hprocessing : s.processing = true) :
      ControlMove cfg s { s with processing := false, control := .stopNotify k }
  | needNotStop (k : AfterStop) (hpc : s.control = .stop k)
      (hprocessing : s.processing = false) :
      ControlMove cfg s { s with control := .lockTable k }
  | notifies (k : AfterStop) (hpc : s.control = .stopNotify k) :
      ControlMove cfg s { s with
        sem := (s.sem + 1) % 2 ^ 32
        control := .stopNotifyOne k }
  | notifiesOne (k : AfterStop) (hpc : s.control = .stopNotifyOne k) :
      ControlMove cfg s { s with proc := s.proc.wake, control := .join k }
  | joins (k : AfterStop) (hpc : s.control = .join k) (hexited : s.proc = .exited) :
      ControlMove cfg s { s with control := .lockTable k }
  | locksRelease (handle : ℕ) (hpc : s.control = .lockTable (.releaseMount handle))
      (hlock : s.lock = .free) :
      ControlMove cfg s { s with lock := .exclusive, control := .find handle }
  | locksDestroy (hpc : s.control = .lockTable .destroy) (hlock : s.lock = .free) :
      ControlMove cfg s { s with lock := .exclusive, control := .destroyAll s.mounts }
  | finds (handle : ℕ) (mount : MountInfo D W) (hpc : s.control = .find handle)
      (hfind : (s.mounts.find? fun m => m.handle == handle) = some mount) :
      ControlMove cfg s { s with control := .destroyDevice mount }
  | findsNone (handle : ℕ) (hpc : s.control = .find handle)
      (hfind : (s.mounts.find? fun m => m.handle == handle) = none) :
      ControlMove cfg s { s with control := .unlockRelease }
  | destroysDevice (mount : MountInfo D W) (hpc : s.control = .destroyDevice mount) :
      ControlMove cfg s { s with
        world := mount.interface.destroy mount.device s.world
        control := .erase mount.handle
        log := .destroyedDevice mount.handle :: s.log }
  | erases (handle : ℕ) (hpc : s.control = .erase handle) :
      ControlMove cfg s { s with
        mounts := s.mounts.eraseP fun m => m.handle == handle
        control := .unlockRelease }
  | unlocksRelease (hpc : s.control = .unlockRelease) :
      ControlMove cfg s { s with lock := .free, control := .start }
  | needNotStart (hpc : s.control = .start) (hprocessing : s.processing = true) :
      ControlMove cfg s { s with control := .idle }
  | starts (hpc : s.control = .start) (hprocessing : s.processing = false) :
      ControlMove cfg s { s with processing := true, proc := .top, control := .idle }
  | destroysNone (hpc : s.control = .destroyAll []) :
      ControlMove cfg s { s with control := .unlockDestroy }
  | destroysNext (mount : MountInfo D W) (rest : List (MountInfo D W))
      (hpc : s.control = .destroyAll (mount :: rest)) :
      ControlMove cfg s { s with
        world := mount.interface.destroy mount.device s.world
        control := .destroyAll rest
        log := .destroyedDevice mount.handle :: s.log }
  | unlocksDestroy (hpc : s.control = .unlockDestroy) :
      ControlMove cfg s { s with lock := .free, control := .destroyed }
  | makes (args : MountArgs) (handle : ℕ) (code : ErrorCode) (mount : MountInfo D W) (w : W)
      (hpc : s.control = .make args handle)
      (hmake : makeMount cfg.interfaces args handle s.world = ((code, some mount), w)) :
      ControlMove cfg s { s with world := w, control := .lockCreate mount }
  | makesNone (args : MountArgs) (handle : ℕ) (code : ErrorCode) (w : W)
      (hpc : s.control = .make args handle)
      (hmake : makeMount cfg.interfaces args handle s.world = ((code, none), w)) :
      ControlMove cfg s { s with world := w, control := .idle }
  | locksCreate (mount : MountInfo D W) (hpc : s.control = .lockCreate mount)
      (hlock : s.lock = .free) :
      ControlMove cfg s { s with lock := .exclusive, control := .pushBack mount }
  | pushesBack (mount : MountInfo D W) (hpc : s.control = .pushBack mount) :
      ControlMove cfg s { s with mounts := s.mounts ++ [mount], control := .unlockCreate }
  | unlocksCreate (hpc : s.control = .unlockCreate) :
      ControlMove cfg s { s with lock := .free, control := .idle }

lemma controlMove (hs : controlStep cfg s = some s') : ControlMove cfg s s' := by
  cases hpc : s.control with
  | stop k =>
    simp only [controlStep, hpc] at hs
    split at hs <;> cases hs
    · exact .stops k hpc ‹_›
    · exact .needNotStop k hpc (Bool.eq_false_iff.mpr ‹_›)
  | stopNotify k =>
    simp only [controlStep, hpc, Option.some.injEq] at hs
    exact hs ▸ .notifies k hpc
  | stopNotifyOne k =>
    simp only [controlStep, hpc, Option.some.injEq] at hs
    exact hs ▸ .notifiesOne k hpc
  | join k =>
    simp only [controlStep, hpc] at hs
    split at hs <;> cases hs
    exact .joins k hpc ‹_›
  | lockTable k =>
    simp only [controlStep, hpc] at hs
    split at hs <;> cases hs
    cases k with
    | releaseMount handle => exact .locksRelease handle hpc ‹_›
    | destroy => exact .locksDestroy hpc ‹_›
  | find handle =>
    simp only [controlStep, hpc, Option.some.injEq] at hs
    split at hs
    · exact hs ▸ .finds handle _ hpc ‹_›
    · exact hs ▸ .findsNone handle hpc ‹_›
  | destroyDevice mount =>
    simp only [controlStep, hpc, Option.some.injEq] at hs
    exact hs ▸ .destroysDevice mount hpc
  | erase handle =>
    simp only [controlStep, hpc, Option.some.injEq] at hs
    exact hs ▸ .erases handle hpc
  | unlockRelease =>
    simp only [controlStep, hpc, Option.some.injEq] at hs
    exact hs ▸ .unlocksRelease hpc
  | start =>
    simp only [controlStep, hpc] at hs
    split at hs <;> cases hs
    · exact .needNotStart hpc ‹_›
    · exact .starts hpc (Bool.eq_false_iff.mpr ‹_›)
  | destroyAll rest =>
    cases rest <;> simp only [controlStep, hpc, Option.some.injEq] at hs
    · exact hs ▸ .destroysNone hpc
    · exact hs ▸ .destroysNext _ _ hpc
  | unlockDestroy =>
    simp only [controlStep, hpc, Option.some.injEq] at hs
    exact hs ▸ .unlocksDestroy hpc
  | make args handle =>
    simp only [controlStep, hpc] at hs
    split at hs <;> cases hs
    · exact .makes args handle _ _ _ hpc ‹_›
    · exact .makesNone args handle _ _ hpc ‹_›
  | lockCreate mount =>
    simp only [controlStep, hpc] at hs
    split at hs <;> cases hs
    exact .locksCreate mount hpc ‹_›
  | pushBack mount =>
    simp only [controlStep, hpc, Option.some.injEq] at hs
    exact hs ▸ .pushesBack mount hpc
  | unlockCreate =>
    simp only [controlStep, hpc, Option.some.injEq] at hs
    exact hs ▸ .unlocksCreate hpc
  | idle | destroyed => simp [controlStep, hpc] at hs

end LaminaFS
