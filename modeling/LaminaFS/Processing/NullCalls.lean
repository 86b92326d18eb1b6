/-
# Device functions that are not there

Four functions of a device interface are optional.  From `registerDeviceInterface` over the
permissions that `createMount` calculates to the filter of `findMutableMountAndPath`, what a
mount may do is a part of what its interface supports, and the filter asks for the right bit,
for every operation but `LFS_OP_WRITE_SEGMENT`.
-/
import LaminaFS.Processing.Mutation

namespace LaminaFS

variable {D W : Type}

/-- What the calls that set a context up change: the registered interfaces, the mount table and
the world of the devices. -/
structure Setup (D W : Type) where
  interfaces : List (DeviceInterface D W)
  mounts : List (MountInfo D W)
  world : W

/-- A call that sets the context up, or something else that changes the world in between. -/
inductive SetupCall (D W : Type) where
  | registerDeviceInterface (functions : DeviceFunctions D W)
  /-- the new record is put at `handle` -/
  | createMount (args : MountArgs) (handle : ℕ)
  | releaseMount (mount : ℕ)
  | elsewhere (world : W)

/-- The effect of a call. -/
def Setup.call (s : Setup D W) : SetupCall D W → Setup D W
  | .registerDeviceInterface functions =>
    { s with interfaces := (LaminaFS.registerDeviceInterface s.interfaces functions).2 }
  | .createMount args handle =>
    match makeMount s.interfaces args handle s.world with
    | ((_, some mount), w) => { s with mounts := s.mounts ++ [mount], world := w }
    | ((_, none), w) => { s with world := w }
  | .releaseMount handle =>
    match s.mounts.find? fun mount => mount.handle == handle with
    | some mount =>
      { s with
        mounts := s.mounts.eraseP fun mount => mount.handle == handle
        world := mount.interface.destroy mount.device s.world }
    | none => s
  | .elsewhere w => { s with world := w }

/-- The context after the calls, from an empty one. -/
def Setup.after (w : W) (calls : List (SetupCall D W)) : Setup D W :=
  calls.foldl Setup.call ⟨[], [], w⟩

/-- Every call keeps the permissions of the mounts within what the interfaces support. -/
lemma Setup.supported_call {s : Setup D W} (h : ∀ mount ∈ s.mounts, mount.Supported)
    (c : SetupCall D W) : ∀ mount ∈ (s.call c).mounts, mount.Supported := by
  cases c with
  | registerDeviceInterface functions => exact h
  | createMount args handle =>
    have hmade := @makeMount_supported _ _ s.interfaces args handle s.world
    unfold Setup.call
    dsimp only
    split
    · rename_i mount w heq
      rw [heq] at hmade
      intro x hx
      rcases List.mem_append.mp hx with hx | hx
      · exact h x hx
      · rw [List.mem_singleton.mp hx]
        exact hmade rfl
    · exact h
  | releaseMount handle =>
    unfold Setup.call
    dsimp only
    split
    · exact fun x hx => h x (List.mem_of_mem_eraseP hx)
    · exact h
  | elsewhere w => exact h

/-- After any calls the permissions of the mounts are within what the interfaces support. -/
lemma Setup.supported (w : W) (calls : List (SetupCall D W)) :
    ∀ mount ∈ (Setup.after w calls).mounts, mount.Supported := by
  have keep : ∀ s : Setup D W, (∀ mount ∈ s.mounts, mount.Supported) →
      ∀ mount ∈ (calls.foldl Setup.call s).mounts, mount.Supported := by
    induction calls with
    | nil => exact fun s h => h
    | cons c calls ih => exact fun s h => ih _ (Setup.supported_call h c)
  exact keep _ (by simp)

/-- The search loops call required functions only. -/
lemma lookupLoop_nullFunction {tables : ℕ → List (MountInfo D W)} {drift : ℕ → W → W}
    {l : Lookup} {rounds i : ℕ} {searchStart : Option ℕ} {item : WorkItem} {w : W}
    {r : Processed D W} (h : lookupLoop tables drift l rounds i searchStart item w = some r) :
    r.nullFunction = false := by
  induction rounds generalizing i searchStart item w r with
  | zero => cases h
  | succ rounds ih =>
    rw [lookupLoop] at h
    split at h
    · cases h
      rfl
    · dsimp only at h
      split at h
      · cases h
        rfl
      · obtain ⟨later, hlater, rfl⟩ := Option.map_eq_some_iff.mp h
        show later.nullFunction = false
        exact ih hlater

lemma callMutable_writeFile_nullFunction {mode : WriteMode} {mount : MountInfo D W}
    {devicePath : CString} {item : WorkItem} {w : W} :
    (callMutable .writeFile mode mount devicePath item w).nullFunction =
      mount.interface.writeFile.isNone := by
  unfold callMutable
  dsimp only
  cases mount.interface.writeFile <;> rfl

variable {mounts : List (MountInfo D W)} {item : WorkItem}

/-- In a table of supported mounts the mutating cases call a function that is there, but for
`LFS_OP_WRITE_SEGMENT` on a newest mount whose interface cannot write. -/
lemma processMutation_nullFunction {m : Mutation} (hm : item.dispatch.2 = .mutation m)
    (hs : ∀ mount ∈ mounts, mount.Supported) (w : W) :
    (processMutation mounts m item w).nullFunction = false ↔
      (item.operation = .opWriteSegment → ∀ mount, newestMount mounts item.filename = some mount →
        mount.interface.writeFile.isSome = true) := by
  by_cases hop : item.operation = .opWriteSegment
  · have hwrite : m = .writeFile := by
      rw [WorkItem.dispatch, hop] at hm
      cases hm
      rfl
    subst hwrite
    rw [processMutation, hop, findMutable_writeSegment]
    cases hnewest : newestMount mounts item.filename with
    | none => simp
    | some mount =>
      simp only [Option.map_some, callMutable_writeFile_nullFunction]
      cases hf : mount.interface.writeFile <;> simp [hf]
  · refine ⟨fun _ h => absurd h hop, fun _ => ?_⟩
    rw [processMutation, findMutable_eq_granted hm hop]
    cases hg : grantedMount mounts item.filename item.operation with
    | none => rfl
    | some mount =>
      have hmem : mount ∈ mounts := List.mem_reverse.mp (List.mem_of_find?_eq_some hg)
      exact callMutable_nullFunction hm (hs mount hmem) (grantedMount_has hg)

/-- **No null device call.**  After any calls that set the context up, no item calls a device
function that is not there, exactly when it does not write a segment below a newest mount whose
interface cannot write. -/
theorem processItem_nullFunction_iff (w : W) (calls : List (SetupCall D W)) (item : WorkItem) :
    (∀ drift rounds world r,
        processItem (fun _ => (Setup.after w calls).mounts) drift rounds item world = some r →
        r.nullFunction = false) ↔
      (item.operation = .opWriteSegment → ∀ mount,
        newestMount (Setup.after w calls).mounts item.filename = some mount →
        mount.interface.writeFile.isSome = true) := by
  have hs := Setup.supported w calls
  cases hc : item.dispatch.2 with
  | lookup l =>
    have hop : item.operation ≠ .opWriteSegment := by
      intro hop
      rw [WorkItem.dispatch, hop] at hc
      cases hc
    refine ⟨fun _ h => absurd h hop, fun _ drift rounds world r hr => ?_⟩
    unfold processItem at hr
    split at hr
    · exact lookupLoop_nullFunction hr
    · rename_i heq
      rw [heq] at hc
      cases hc
  | mutation m =>
    constructor
    · intro h
      exact (processMutation_nullFunction hc hs w).mp
        (h (fun _ w => w) 0 w _ (processItem_mutation hc _ _ _))
    · intro h drift rounds world r hr
      rw [processItem_mutation hc] at hr
      cases hr
      exact (processMutation_nullFunction hc hs world).mpr h

/-- The required functions of a device type without files. -/
def DeviceFunctions.empty : DeviceFunctions Unit Unit :=
  ⟨some fun _ w => ((.ok, some ()), w), some fun _ w => w, some fun _ _ w => (false, w),
    some fun _ _ w => (⟨0, some .notFound⟩, w),
    some fun _ _ _ _ _ _ w => (⟨0, some .notFound, .untouched⟩, w), none, none, none, none⟩

/-- `writeFileSegment` below a mount of a device type that cannot write. -/
theorem writeSegment_nullFunction :
    ∃ r, processItem (fun _ => (Setup.after () [.registerDeviceInterface .empty,
        .createMount ⟨0, [slash], [], .mountDefault⟩ 1]).mounts) (fun _ w => w) 0
        { WorkItem.new with operation := .opWriteSegment, filename := [slash, 97] } () = some r ∧
      r.nullFunction = true :=
  ⟨_, rfl, rfl⟩

end LaminaFS
