/-
# What the threads leave alone

Each group of steps changes a part of the state only.  The fields that a group does not touch
are collected in one structure for the group.
-/
import LaminaFS.Context.Moves

namespace LaminaFS

variable {D W : Type} {cfg : Config D W} {s s' : State D W} {a : Agent}

/-- The agent has an item that it submits. -/
def AgentPc.submits : AgentPc → Bool
  | .construct .. | .store .. | .pushTest .. | .pushLock .. | .notify .. | .notifyOne ..
  | .late .. => true
  | _ => false

/-- What client code does not touch. -/
structure ClientFrame (s s' : State D W) : Prop where
  proc : s'.proc = s.proc
  control : s'.control = s.control
  ring : s'.ring = s.ring
  sem : s'.sem = s.sem
  processing : s'.processing = s.processing
  lock : s'.lock = s.lock
  mounts : s'.mounts = s.mounts
  world : s'.world = s.world
  drain : s'.drain = s.drain
  returned : s'.returned = s.returned
  tickets : s'.tickets = s.tickets

lemma clientStep_frame {act : ClientAct} (h : clientStep s a act = some s') :
    ClientFrame s s' := by
  cases clientMove h <;> constructor <;> rfl

/-- What the library functions called by clients do not touch. -/
structure AgentFrame (s s' : State D W) : Prop where
  proc : s'.proc = s.proc ∨ s'.proc = s.proc.wake
  control : s'.control = s.control
  processing : s'.processing = s.processing
  lock : s'.lock = s.lock
  mounts : s'.mounts = s.mounts
  world : s'.world = s.world
  drain : s'.drain = s.drain

lemma agentStep_frame (h : agentStep cfg s a = some s') : AgentFrame s s' := by
  cases agentMove h <;> constructor <;> first | rfl | exact Or.inl rfl | exact Or.inr rfl

/-- What the execution of an item does not touch. -/
structure ExecFrame (s s' : State D W) : Prop where
  agents : s'.agents = s.agents
  control : s'.control = s.control
  pool : s'.pool = s.pool
  ring : s'.ring = s.ring
  sem : s'.sem = s.sem
  processing : s'.processing = s.processing
  mounts : s'.mounts = s.mounts
  held : s'.held = s.held
  reported : s'.reported = s.reported
  nextSubmission : s'.nextSubmission = s.nextSubmission
  tickets : s'.tickets = s.tickets
  occupant : s'.occupant = s.occupant
  stage : s'.stage = s.stage
  returned : s'.returned = s.returned
  drain : s'.drain = s.drain

lemma execStep_frame {p : ItemPtr} {e : ExecPc D W} (h : execStep s p e = some s') :
    ExecFrame s s' := by
  cases execMove h <;> constructor <;> rfl

/-- What the processing thread does not touch. -/
structure ProcFrame (s s' : State D W) : Prop where
  control : s'.control = s.control
  processing : s'.processing = s.processing
  mounts : s'.mounts = s.mounts
  held : s'.held = s.held
  reported : s'.reported = s.reported
  nextSubmission : s'.nextSubmission = s.nextSubmission
  tickets : s'.tickets = s.tickets
  occupant : s'.occupant = s.occupant
  returned : s'.returned = s.returned
  drain : s'.drain = s.drain

lemma procStep_frame (h : procStep s = some s') : ProcFrame s s' := by
  cases procMove h with
  | executes p e _ h =>
    have hf := execStep_frame h
    exact ⟨hf.control, hf.processing, hf.mounts, hf.held, hf.reported, hf.nextSubmission,
      hf.tickets, hf.occupant, hf.returned, hf.drain⟩
  | _ => constructor <;> rfl

/-- What the control thread does not touch. -/
structure ControlFrame (s s' : State D W) : Prop where
  agents : s'.agents = s.agents
  pool : s'.pool = s.pool
  slots : s'.slots = s.slots
  ring : s'.ring = s.ring
  held : s'.held = s.held
  reported : s'.reported = s.reported
  nextSubmission : s'.nextSubmission = s.nextSubmission
  tickets : s'.tickets = s.tickets
  occupant : s'.occupant = s.occupant
  stage : s'.stage = s.stage
  returned : s'.returned = s.returned
  nextBlock : s'.nextBlock = s.nextBlock
  blockOf : s'.blockOf = s.blockOf

lemma controlActStep_frame {act : ControlAct} (h : controlActStep s act = some s') :
    ControlFrame s s' ∧ s'.proc = s.proc ∧ s'.processing = s.processing ∧ s'.lock = s.lock ∧
      s'.mounts = s.mounts ∧ s'.sem = s.sem := by
  cases controlActMove h <;> refine ⟨?_, rfl, rfl, rfl, rfl, rfl⟩ <;> constructor <;> rfl

lemma controlStep_frame (h : controlStep cfg s = some s') :
    ControlFrame s s' ∧ (s'.drain = s.drain) := by
  cases controlMove h <;> refine ⟨?_, rfl⟩ <;> constructor <;> rfl

/-! ### Where the agents are -/

lemma agentStep_others {b : Agent} (hs : agentStep cfg s a = some s') (hb : b ≠ a) :
    s'.agents b = s.agents b := by
  cases agentMove hs <;> exact Function.update_of_ne hb _ _

lemma procStep_agents (hs : procStep s = some s') (b : Agent) :
    s'.agents b = s.agents b ∨ s'.agents b = (s.agents b).wake := by
  cases procMove hs with
  | executes p e _ hs => exact Or.inl (by rw [(execStep_frame hs).agents])
  | notifies => exact Or.inr rfl
  | _ => exact Or.inl rfl

/-- An agent in client code goes to where it has no item to submit. -/
lemma clientStep_agents {act : ClientAct} (hidle : s.agents a = .idle)
    (hs : clientStep s a act = some s') :
    ∃ pc, s'.agents = Function.update s.agents a pc ∧ pc.submits = false := by
  have hself : s.agents = Function.update s.agents a .idle := by
    rw [← hidle, Function.update_eq_self]
  cases clientMove hs with
  | submits c => exact ⟨_, rfl, rfl⟩
  | waits p => exact ⟨_, rfl, rfl⟩
  | frees p => exact ⟨_, rfl, rfl⟩
  | freesNull p => exact ⟨_, rfl, rfl⟩
  | isTold | isNotTold | waitsNot | forgets | releases => exact ⟨.idle, hself, rfl⟩

/-- An agent that is not in a library function that moves on keeps its place, wakes up, or is
in client code. -/
lemma step_agents {act : Action} {b : Agent} (hs : step cfg s act = some s')
    (hact : act ≠ .agent b) : s'.agents b = s.agents b ∨ s'.agents b = (s.agents b).wake ∨
      s.agents b = .idle ∧ (s'.agents b).submits = false := by
  cases stepBy hs with
  | agent a hs => exact Or.inl (agentStep_others hs fun hb => hact (by rw [hb]))
  | client a act hidle hs =>
    obtain ⟨pc, hagents, hnone⟩ := clientStep_agents hidle hs
    by_cases hb : b = a
    · subst hb
      rw [hagents, Function.update_self]
      exact Or.inr (Or.inr ⟨hidle, hnone⟩)
    · exact Or.inl (by rw [hagents, Function.update_of_ne hb])
  | proc hs => exact (procStep_agents hs b).imp_right Or.inl
  | callbackReturns => exact Or.inl rfl
  | controlAct act _ hs => exact Or.inl (by rw [(controlActStep_frame hs).1.agents])
  | control hs => exact Or.inl (by rw [(controlStep_frame hs).1.agents])
  | wakeProc => exact Or.inl rfl
  | wakeAgent a =>
    by_cases hb : b = a
    · subst hb
      exact Or.inr (Or.inl (Function.update_self _ _ _))
    · exact Or.inl (Function.update_of_ne hb _ _)

/-! ### Where the processing thread is -/

/-- Others wake the processing thread up, start it anew behind a stop, or return from the
callback that it is in. -/
lemma step_proc {act : Action} (hs : step cfg s act = some s') (hact : act ≠ .proc) :
    s'.proc = s.proc ∨ s'.proc = s.proc.wake ∨ s.control = .start ∧ s'.proc = .top ∨
      ∃ p, s.proc = .inCallback p ∧ s.agents .callback = .idle ∧ s'.proc = .testAction p := by
  cases stepBy hs with
  | proc hs => exact absurd rfl hact
  | client a act _ hs => exact Or.inl (clientStep_frame hs).proc
  | agent a hs => exact (agentStep_frame hs).proc.imp_right Or.inl
  | controlAct act _ hs => exact Or.inl (controlActStep_frame hs).2.1
  | control hs =>
    cases controlMove hs with
    | notifiesOne => exact Or.inr (Or.inl rfl)
    | starts hpc => exact Or.inr (Or.inr (Or.inl ⟨hpc, rfl⟩))
    | _ => exact Or.inl rfl
  | callbackReturns p hpc hidle => exact Or.inr (Or.inr (Or.inr ⟨p, hpc, hidle, rfl⟩))
  | wakeProc => exact Or.inr (Or.inl rfl)
  | wakeAgent a => exact Or.inl rfl

/-! ### What is recorded -/

/-- The events that a thread records, and where it does so. -/
inductive Records (s : State D W) : Action → Event → Prop
  | searched (p : ItemPtr) (e : ExecPc D W) (op : Operation) (path : CString)
      (hpc : s.proc = .exec p e) : Records s .proc (.searched p.submission op path)
  | deviceCall (p : ItemPtr) (e : ExecPc D W) (handle : ℕ) (prefixStr : CString)
      (call : DeviceCall) (hpc : s.proc = .exec p e) :
      Records s .proc (.deviceCall p.submission handle prefixStr call)
  | executed (p : ItemPtr) (hpc : s.proc = .complete p) :
      Records s .proc (.executed p.submission)
  | invoked (p : ItemPtr) (hpc : s.proc = .invoke p) :
      Records s .proc (.invoked (s.occupant p.slot) (s.slots p.slot).resultCode)
  | errorCallback (a : Agent) (c : Call) (hpc : s.agents a = .failed c) :
      Records s (.agent a) (.errorCallback a c)
  | freedBuffer (act : Action) (g : ℕ) (result : WorkItem.FreeBuffer) :
      Records s act (.freedBuffer g result)
  | released (act : Action) (g : ℕ) (by_ : Releaser) : Records s act (.released g by_)
  | destroyedDevice (act : Action) (handle : ℕ) : Records s act (.destroyedDevice handle)

/-- A step records one event or none. -/
lemma step_event {act : Action} (hs : step cfg s act = some s') :
    s'.log = s.log ∨ ∃ ev, s'.log = ev :: s.log ∧ Records s act ev := by
  cases stepBy hs with
  | client a act _ hs =>
    cases clientMove hs with
    | frees | freesNull => exact Or.inr ⟨_, rfl, .freedBuffer _ _ _⟩
    | releases p => exact Or.inr ⟨_, rfl, .released _ _ _⟩
    | _ => exact Or.inl rfl
  | agent a hs =>
    cases agentMove hs with
    | refused c hpc =>
      dsimp only
      split
      · exact Or.inr ⟨_, rfl, .errorCallback a c hpc⟩
      · exact Or.inl rfl
    | _ => exact Or.inl rfl
  | proc hs =>
    cases procMove hs with
    | executes p e hpc hs =>
      cases execMove hs with
      | searchesNext | searchesMutable => exact Or.inr ⟨_, rfl, .searched _ _ _ _ hpc⟩
      | callsLookup | callsMutable => exact Or.inr ⟨_, rfl, .deviceCall _ _ _ _ _ hpc⟩
      | _ => exact Or.inl rfl
    | completes p hpc => exact Or.inr ⟨_, rfl, .executed p hpc⟩
    | invokes p hpc => exact Or.inr ⟨_, rfl, .invoked p hpc⟩
    | frees | freesNull => exact Or.inr ⟨_, rfl, .freedBuffer _ _ _⟩
    | releases p => exact Or.inr ⟨_, rfl, .released _ _ _⟩
    | _ => exact Or.inl rfl
  | control hs =>
    cases controlMove hs with
    | destroysDevice | destroysNext => exact Or.inr ⟨_, rfl, .destroyedDevice _ _⟩
    | _ => exact Or.inl rfl
  | controlAct act _ hs =>
    cases controlActMove hs <;> exact Or.inl rfl
  | callbackReturns => exact Or.inl rfl
  | wakeProc | wakeAgent a => exact Or.inl rfl

end LaminaFS
