/-
# Contexts over directory devices

What a context that knows the directory device is for its clients.  Whatever its threads do, in
whatever order, clients are told what a service tells them that does one thing at a time, over
folders that know nothing of each other; and the rest of the disk stays as it is.
-/
import LaminaFS.Context.Lockstep
import LaminaFS.Context.Sequential
import LaminaFS.Device.Isolation

namespace LaminaFS

open Transition

section Asked

variable {D W : Type} {cfg : Config D W} {s s' : State D W} {act : Action} {a : Agent}
  {root device : CString → Prop}

/-! ### What is asked for -/

/-- The call of a submission function that the agent is in. -/
def AgentPc.currentCall : AgentPc → Option Call
  | .alloc c | .construct c _ | .store c _ _ | .pushTest c _ | .pushLock c _ | .notify c _
  | .notifyOne c _ | .late c _ _ | .failed c => some c
  | _ => none

@[simp] lemma AgentPc.currentCall_wake (pc : AgentPc) :
    pc.wake.currentCall = pc.currentCall := by
  cases pc <;> rfl

/-- Clients submit requests with such paths, and `createMount` is called with absolute mount points
and such root paths. -/
def Action.Fits (root device : CString → Prop) : Action → Prop
  | .client _ (.submit c) => c.Fits device
  | .controlAct (.createMount args _) => args.Absolute ∧ root args.devicePath
  | _ => True

instance [DecidablePred root] [DecidablePred device] : DecidablePred (Action.Fits root device)
  | .client _ (.submit c) => inferInstanceAs (Decidable (c.Fits device))
  | .controlAct (.createMount args _) =>
    inferInstanceAs (Decidable (args.Absolute ∧ root args.devicePath))
  | .client _ (.check _) | .client _ (.wait _) | .client _ (.freeBuffer _)
  | .client _ (.release _) | .agent _ | .proc | .callbackReturns | .controlAct (.releaseMount _)
  | .controlAct .destroy | .control | .wakeProc | .wakeAgent _ => isTrue trivial

/-- What the agents and the control thread are about to ask for. -/
structure State.Fits (root device : CString → Prop) (s : State D W) : Prop where
  calls : ∀ a c, (s.agents a).currentCall = some c → c.Fits device
  mounts : ∀ args handle, s.control = .make args handle →
    args.Absolute ∧ root args.devicePath

/-- A submission function goes on with its call until it returns. -/
lemma agentStep_currentCall (hs : agentStep cfg s a = some s') :
    (s'.agents a).currentCall = none ∨
      (s'.agents a).currentCall = (s.agents a).currentCall := by
  cases agentMove hs with
  | returns | refused | told | blocks =>
    left
    show (Function.update s.agents a _ a).currentCall = none
    rw [Function.update_self]
    rfl
  | pushes c p hpc =>
    right
    show (Function.update s.agents a _ a).currentCall = _
    rw [Function.update_self, hpc]
    split <;> rfl
  | _ =>
    right
    show (Function.update s.agents a _ a).currentCall = _
    rw [Function.update_self, ‹s.agents a = _›]
    rfl

/-- Client code calls a submission function, or none. -/
lemma clientStep_currentCall {act : ClientAct} {c : Call} (hidle : s.agents a = .idle)
    (hs : clientStep s a act = some s') (hc : (s'.agents a).currentCall = some c) :
    act = .submit c := by
  cases clientMove hs with
  | submits c' =>
    change (Function.update s.agents a (.alloc c') a).currentCall = some c at hc
    rw [Function.update_self] at hc
    cases hc
    rfl
  | waits | frees | freesNull =>
    change (Function.update s.agents a _ a).currentCall = some c at hc
    rw [Function.update_self] at hc
    cases hc
  | isTold | isNotTold | waitsNot | forgets | releases =>
    change (s.agents a).currentCall = some c at hc
    rw [hidle] at hc
    cases hc

/-- An agent is in a call from when it has been submitted. -/
lemma currentCall_step {c : Call} (hs : step cfg s act = some s')
    (hc : (s'.agents a).currentCall = some c) :
    (s.agents a).currentCall = some c ∨ act = .client a (.submit c) := by
  cases stepBy hs with
  | client b act hidle hclient =>
    obtain ⟨pc, hagents, -⟩ := clientStep_agents hidle hclient
    by_cases hb : a = b
    · subst hb
      right
      rw [clientStep_currentCall hidle hclient hc]
    · rw [hagents, Function.update_of_ne hb] at hc
      exact Or.inl hc
  | agent b hagent =>
    by_cases hb : a = b
    · subst hb
      rcases agentStep_currentCall hagent with hnone | hsame
      · rw [hnone] at hc
        cases hc
      · exact Or.inl (hsame ▸ hc)
    · rw [agentStep_others hagent hb] at hc
      exact Or.inl hc
  | proc hproc =>
    rcases procStep_agents hproc a with hsame | hwake
    · exact Or.inl (hsame ▸ hc)
    · rw [hwake, AgentPc.currentCall_wake] at hc
      exact Or.inl hc
  | callbackReturns => exact Or.inl hc
  | controlAct _ _ hcontrol =>
    rw [(controlActStep_frame hcontrol).1.agents] at hc
    exact Or.inl hc
  | control hcontrol =>
    rw [(controlStep_frame hcontrol).1.agents] at hc
    exact Or.inl hc
  | wakeProc => exact Or.inl hc
  | wakeAgent b =>
    left
    change (Function.update s.agents b _ a).currentCall = some c at hc
    by_cases hb : a = b
    · subst hb
      rwa [Function.update_self, AgentPc.currentCall_wake] at hc
    · rwa [Function.update_of_ne hb] at hc

/-- The control thread is in `createMount` from when this has been called. -/
lemma make_step {args : MountArgs} {handle : ℕ} (hs : step cfg s act = some s')
    (hpc : s'.control = .make args handle) :
    s.control = .make args handle ∨ act = .controlAct (.createMount args handle) := by
  cases stepBy hs with
  | client _ _ _ hclient => exact Or.inl ((clientStep_frame hclient).control ▸ hpc)
  | agent _ hagent => exact Or.inl ((agentStep_frame hagent).control ▸ hpc)
  | proc hproc => exact Or.inl ((procStep_frame hproc).control ▸ hpc)
  | controlAct _ _ hcontrol =>
    right
    cases controlActMove hcontrol with
    | beginsCreate =>
      cases hpc
      rfl
    | beginsRelease | beginsDestroy => cases hpc
  | control hcontrol => cases controlMove hcontrol <;> cases hpc
  | callbackReturns | wakeProc | wakeAgent => exact Or.inl hpc

namespace State.Fits

lemma init {pool : PoolAllocator} {capacity : ℕ} {memory : ℕ → WorkItem} {world : W} :
    (State.init pool capacity memory world : State D W).Fits root device :=
  ⟨nofun, nofun⟩

lemma step (h : s.Fits root device) (hfits : act.Fits root device)
    (hs : LaminaFS.step cfg s act = some s') : s'.Fits root device := by
  refine ⟨fun a c hc => ?_, fun args handle hpc => ?_⟩
  · rcases currentCall_step hs hc with hc | rfl
    · exact h.calls a c hc
    · exact hfits
  · rcases make_step hs hpc with hpc | rfl
    · exact h.mounts args handle hpc
    · exact hfits

/-- So the service is asked for nothing else. -/
lemma fits_of_begun (h : s.Fits root device) {b : Service.Act} (hb : b.Begun s) :
    b.Fits root device := by
  cases b with
  | accept g c =>
    obtain ⟨a, p, hpc⟩ := hb
    exact h.calls a c (by rw [hpc]; rfl)
  | make args handle => exact h.mounts args handle hb
  | serve | mount | release | shutdown => trivial

end State.Fits

end Asked

/-! ### Directory devices -/

/-- A context that knows the directory device only. -/
def directoryConfig {W : Type} (os : DirectoryCalls W) (rounds : ℕ) (contextAlloc : Allocator) :
    Config DirectoryDevice W :=
  ⟨[DirectoryDevice.registered os rounds], contextAlloc⟩

/-- The same over folders. -/
def folderConfig (plat : Platform) (l : Layout) (contextAlloc : Allocator) :
    Config (List CString) Folders :=
  ⟨[Folders.interface plat l], contextAlloc⟩

/-- Requests with these paths go to the devices of a layout: they are mounted at absolute mount
points, and no path gets too long. -/
def Layout.Requested (plat : Platform) (l : Layout) : Action → Prop :=
  Action.Fits (fun root => root ∈ l.map Prod.fst)
    fun path => ∀ r ∈ l, plat.Accepts (r.1 ++ slash :: path)

instance (plat : Platform) (l : Layout) : DecidablePred (l.Requested plat) :=
  fun act => inferInstanceAs (Decidable (Action.Fits _ _ act))

variable {W : Type} {plat : Platform} {os : DirectoryCalls W} {fs : FileSystem plat os}
  {rounds : ℕ} {contextAlloc : Allocator} {l : Layout} {w : W}

/-- The steps of runs that do one thing at a time, and in which the devices of a layout are asked
for. -/
def UsesLayout (plat : Platform) (os : DirectoryCalls W) (rounds : ℕ) (contextAlloc : Allocator)
    (l : Layout) (s : State DirectoryDevice W) (act : Action) : Prop :=
  OneAtATime (directoryConfig os rounds contextAlloc) s act ∧ l.Requested plat act

instance (s : State DirectoryDevice W) :
    DecidablePred (UsesLayout plat os rounds contextAlloc l s) :=
  fun _ => inferInstanceAs (Decidable (_ ∧ _))

lemma configs_alike (hl : l.Sound plat (fs.entries w)) :
    (l.correspondence fs (fs.entries w)).Configs
      (fun path => ∀ r ∈ l, plat.Accepts (r.1 ++ slash :: path))
      (directoryConfig os rounds contextAlloc) (folderConfig plat l contextAlloc) where
  interfaces := .cons (registered_alike hl) .nil
  contextAlloc := rfl
  path _ _ hpath hsuffix hdp := ⟨hdp, fun r hr => (hpath r hr).of_suffix hdp.1 hsuffix⟩

end LaminaFS
