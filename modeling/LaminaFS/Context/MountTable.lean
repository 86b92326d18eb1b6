/-
# The mount table

`createMount` and `releaseMount` keep the table of the mounts that have been created and not been
released yet, in the order in which they were created.  Beside the table stands a ledger of all
mounts that have ever been created; addresses of records may be used again after a release.

The result code of `createMount` is the one of the device, and does not tell of a device that is
created without an error but is null.
-/
import LaminaFS.Lib.Transition
import LaminaFS.Processing.NullCalls

namespace LaminaFS

open Transition

variable {D W : Type}

/-- `FileContext::createMount`: the code stored in `resultCode`, the mount that is returned, and
the context after the call. -/
def Setup.createMount (s : Setup D W) (args : MountArgs) (handle : ℕ) :
    (ErrorCode × Option ℕ) × Setup D W :=
  let made := makeMount s.interfaces args handle s.world
  ((made.1.1, made.1.2.map MountInfo.handle), s.call (.createMount args handle))

/-- `FileContext::releaseMount`: whether the mount has been found, and the context after the
call. -/
def Setup.releaseMount (s : Setup D W) (mount : ℕ) : Bool × Setup D W :=
  ((s.mounts.find? fun m => m.handle == mount).isSome, s.call (.releaseMount mount))

/-- `_create` of the device type reports `LFS_OK` and leaves the device pointer null. -/
def Setup.CreatesNull (s : Setup D W) (args : MountArgs) : Prop :=
  ∃ interface, s.interfaces[args.deviceType]? = some interface ∧
    interface.calculatedPermissions args.mountPermissions ≠ 0 ∧
    (interface.create args.devicePath s.world).1 = (.ok, none)

/-! ### The ledger -/

/-- A mount that has been created at some time. -/
structure MountEntry (D W : Type) where
  mount : MountInfo D W
  released : Bool

/-- The mounts that have not been released, in the order of their creation. -/
def current (ledger : List (MountEntry D W)) : List (MountInfo D W) :=
  (ledger.filter fun e => !e.released).map MountEntry.mount

/-- A context and the mounts that have been created in it. -/
structure Booked (D W : Type) where
  setup : Setup D W
  ledger : List (MountEntry D W)

/-- A call, and what it adds to the ledger. -/
def Booked.step (b : Booked D W) (c : SetupCall D W) : Option (Booked D W) :=
  some ⟨b.setup.call c,
    match c with
    | .createMount args handle =>
      b.ledger ++ (makeMount b.setup.interfaces args handle b.setup.world).1.2.toList.map
        fun m => ⟨m, false⟩
    | .releaseMount handle =>
      b.ledger.map fun e => if e.mount.handle = handle then { e with released := true } else e
    | _ => b.ledger⟩

/-- The allocator returns a block for the new record that is not null and not in use. -/
def FreshHandle (b : Booked D W) : SetupCall D W → Prop
  | .createMount _ handle => handle ≠ 0 ∧ handle ∉ b.setup.mounts.map MountInfo.handle
  | _ => True

/-- The table is the current part of the ledger. -/
structure Booked.Inv (b : Booked D W) : Prop where
  table : b.setup.mounts = current b.ledger
  nodup : (b.setup.mounts.map MountInfo.handle).Nodup
  nonnull : ∀ m ∈ b.setup.mounts, m.handle ≠ 0

/-! ### One call -/

section Calls

variable {s : Setup D W} {b b' : Booked D W} {args : MountArgs} {handle : ℕ} {c : SetupCall D W}

lemma makeMount_some {interfaces : List (DeviceInterface D W)} {w : W} {m : MountInfo D W}
    (h : (makeMount interfaces args handle w).1.2 = some m) :
    (makeMount interfaces args handle w).1.1 = .ok ∧ m.handle = handle ∧
      m.prefixStr = args.mountPoint := by
  unfold makeMount at h ⊢
  split at h
  · cases h
  · dsimp only at h ⊢
    split at h
    · cases h
    · rename_i hpermissions
      rw [if_neg hpermissions]
      split at h <;> cases h
      rename_i hcreate
      exact ⟨rfl, rfl, rfl⟩

lemma call_createMount_mounts : (s.call (.createMount args handle)).mounts =
    s.mounts ++ (makeMount s.interfaces args handle s.world).1.2.toList := by
  rw [Setup.call]
  split
  · rename_i hmake
    rw [hmake]
    rfl
  · rename_i hmake
    rw [hmake]
    exact (List.append_nil _).symm

/-- With distinct handles the mount that is taken out is the only one with its handle. -/
lemma eraseP_handle {mounts : List (MountInfo D W)}
    (h : (mounts.map MountInfo.handle).Nodup) :
    (mounts.eraseP fun m => m.handle == handle) = mounts.filter fun m => m.handle != handle := by
  induction mounts with
  | nil => rfl
  | cons m mounts ih =>
    rw [List.map_cons, List.nodup_cons] at h
    rw [List.eraseP_cons, List.filter_cons]
    cases hm : m.handle == handle with
    | false => simpa [bne, hm] using ih h.2
    | true =>
      have hrest : mounts.filter (fun m => m.handle != handle) = mounts := by
        refine List.filter_eq_self.mpr fun x hx => bne_iff_ne.mpr fun he => h.1 ?_
        rw [beq_iff_eq.mp hm, ← he]
        exact List.mem_map_of_mem hx
      rw [hrest]
      simp [bne, hm]

lemma find?_handle {mounts : List (MountInfo D W)} :
    (mounts.find? fun m => m.handle == handle).isSome = true ↔
      handle ∈ mounts.map MountInfo.handle := by
  rw [List.find?_isSome, List.mem_map]
  simp

lemma call_releaseMount_mounts (h : (s.mounts.map MountInfo.handle).Nodup) :
    (s.call (.releaseMount handle)).mounts = s.mounts.filter fun m => m.handle != handle := by
  rw [Setup.call]
  split
  · exact eraseP_handle h
  · rename_i hfind
    refine (List.filter_eq_self.mpr fun m hm => ?_).symm
    simpa [bne_iff_ne] using List.find?_eq_none.mp hfind m hm

/-- The result code of `createMount` and the mount that it returns agree exactly if `_create` has
not reported `LFS_OK` for a null device. -/
lemma createMount_agrees_iff :
    ((s.createMount args handle).1.2 ≠ none ↔ (s.createMount args handle).1.1 = .ok) ↔
      ¬s.CreatesNull args := by
  unfold Setup.createMount makeMount Setup.CreatesNull
  dsimp only
  cases hi : s.interfaces[args.deviceType]? with
  | none => simp
  | some interface =>
    dsimp only
    by_cases hp : interface.calculatedPermissions args.mountPermissions = 0
    · simp [hp]
    · rw [if_neg hp]
      cases hc : interface.create args.devicePath s.world with
      | mk made w =>
        obtain ⟨result, device⟩ := made
        cases device <;> cases result <;> simp [hc]
        exact hp

@[simp] lemma current_append (ledger : List (MountEntry D W)) (mounts : List (MountInfo D W)) :
    current (ledger ++ mounts.map fun m => ⟨m, false⟩) = current ledger ++ mounts := by
  have hnew : (mounts.map fun m => (⟨m, false⟩ : MountEntry D W)).filter (fun e => !e.released) =
      mounts.map fun m => ⟨m, false⟩ := by
    refine List.filter_eq_self.mpr fun e he => ?_
    obtain ⟨m, -, rfl⟩ := List.mem_map.mp he
    rfl
  rw [current, List.filter_append, hnew, List.map_append, List.map_map]
  exact congrArg _ (List.map_id mounts)

/-- Releasing takes the mount out of the current ones, and leaves the others in their order. -/
lemma current_release (ledger : List (MountEntry D W)) (handle : ℕ) :
    current (ledger.map fun e =>
        if e.mount.handle = handle then { e with released := true } else e) =
      (current ledger).filter fun m => m.handle != handle := by
  induction ledger with
  | nil => rfl
  | cons e ledger ih =>
    unfold current at ih ⊢
    rw [List.map_cons, List.filter_cons, List.filter_cons]
    by_cases he : e.mount.handle = handle
    · rw [if_pos he, if_neg (by simp), ih]
      cases e.released
      · simp [he]
      · simp
    · rw [if_neg he]
      cases e.released
      · simp [he, ih]
      · simpa using ih

lemma Booked.Inv.step (h : b.Inv) (hok : FreshHandle b c) (hs : b.step c = some b') :
    b'.Inv := by
  cases hs
  cases c with
  | registerDeviceInterface f => exact ⟨h.table, h.nodup, h.nonnull⟩
  | elsewhere w => exact ⟨h.table, h.nodup, h.nonnull⟩
  | createMount args handle =>
    obtain ⟨hnonnull, hfresh⟩ := hok
    have hmade := @makeMount_some _ _ args handle b.setup.interfaces b.setup.world
    have hmounts := @call_createMount_mounts _ _ b.setup args handle
    constructor
    · dsimp only
      rw [hmounts, h.table, current_append]
    · dsimp only
      rw [hmounts]
      cases hm : (makeMount b.setup.interfaces args handle b.setup.world).1.2 with
      | none => simpa using h.nodup
      | some m =>
        rw [Option.toList_some, List.map_append, List.map_singleton, (hmade hm).2.1,
          List.nodup_append]
        refine ⟨h.nodup, by simp, fun x hx y hy he => hfresh ?_⟩
        rw [← List.mem_singleton.mp hy, ← he]
        exact hx
    · dsimp only
      rw [hmounts]
      intro m hm
      rcases List.mem_append.mp hm with hm | hm
      · exact h.nonnull m hm
      · rw [(hmade (Option.mem_toList.mp hm)).2.1]
        exact hnonnull
  | releaseMount handle =>
    have hmounts : (b.setup.call (.releaseMount handle)).mounts =
        b.setup.mounts.filter fun m => m.handle != handle := call_releaseMount_mounts h.nodup
    constructor
    · dsimp only
      rw [hmounts, h.table, current_release]
    · dsimp only
      rw [hmounts]
      exact h.nodup.sublist (List.filter_sublist.map _)
    · dsimp only
      rw [hmounts]
      exact fun m hm => h.nonnull m (List.mem_filter.mp hm).1

end Calls

/-! ### Runs -/

/-- What the calls make of the table, and what they return. -/
structure Booked.Kept (b : Booked D W) : Prop where
  /-- the table holds the mounts that have been created and not been released, in the order in
  which they were created -/
  table : b.setup.mounts = current b.ledger
  /-- a mount is returned together with `LFS_OK`, and never otherwise, exactly if `_create` has not
  reported `LFS_OK` for a null device -/
  agrees : ∀ args handle, ((b.setup.createMount args handle).1.2 ≠ none ↔
      (b.setup.createMount args handle).1.1 = .ok) ↔ ¬b.setup.CreatesNull args
  /-- a call that returns null leaves the table unchanged -/
  null : ∀ args handle, (b.setup.createMount args handle).1.2 = none →
    (b.setup.createMount args handle).2.mounts = b.setup.mounts
  /-- one that returns a mount puts it at the end of the table -/
  created : ∀ args handle mount, (b.setup.createMount args handle).1.2 = some mount →
    mount = handle ∧ ∃ m : MountInfo D W, m.handle = handle ∧ m.prefixStr = args.mountPoint ∧
      (b.setup.createMount args handle).2.mounts = b.setup.mounts ++ [m]
  /-- a mount is found exactly if it is in the table -/
  found : ∀ mount, (b.setup.releaseMount mount).1 = true ↔
    mount ∈ b.setup.mounts.map MountInfo.handle
  /-- it is taken out, and the others stay in their order -/
  released : ∀ mount, (b.setup.releaseMount mount).2.mounts =
    b.setup.mounts.filter fun m => m.handle != mount
  /-- null is not in the table -/
  nonnull : 0 ∉ b.setup.mounts.map MountInfo.handle

/-- **The mount table.**  After any calls of `registerDeviceInterface`, `createMount` and
`releaseMount` the table holds the created and not yet released mounts in their order, and the
next call does to it what it reports; but for the result code of a `createMount` whose device is
null although `_create` has reported `LFS_OK`. -/
theorem mounts_kept {w : W} {b : Booked D W}
    (h : Reach Booked.step FreshHandle ⟨⟨[], [], w⟩, []⟩ b) : b.Kept := by
  have hi : b.Inv := by
    refine h.invariant ⟨rfl, List.nodup_nil, fun m hm => by cases hm⟩ ?_
    exact fun b c b' hi hok hs => hi.step hok hs
  refine ⟨hi.table, fun args handle => createMount_agrees_iff, fun args handle hnull => ?_,
    fun args handle mount hmount => ?_, fun mount => find?_handle,
    fun mount => call_releaseMount_mounts hi.nodup, fun hmem => ?_⟩
  · have hnone := Option.map_eq_none_iff.mp hnull
    exact call_createMount_mounts.trans (by rw [hnone]; exact List.append_nil _)
  · obtain ⟨m, hm, rfl⟩ := Option.map_eq_some_iff.mp hmount
    obtain ⟨-, hhandle, hprefs⟩ := makeMount_some hm
    refine ⟨hhandle, m, hhandle, hprefs, call_createMount_mounts.trans ?_⟩
    rw [hm, Option.toList_some]
  · obtain ⟨m, hm, he⟩ := List.mem_map.mp hmem
    exact hi.nonnull m hm he

/-- Two mounts, of which the first is released. -/
theorem mounts_kept_two :
    ∃ b : Booked Unit Unit, Reach Booked.step FreshHandle ⟨⟨[], [], ()⟩, []⟩ b ∧
      b.setup.mounts.map MountInfo.handle = [2] ∧ b.ledger.length = 2 ∧ b.Kept := by
  let b₀ : Booked Unit Unit := ⟨⟨[], [], ()⟩, []⟩
  have h₁ := Reach.tail (.refl : Reach Booked.step FreshHandle b₀ b₀)
    (show FreshHandle b₀ (.registerDeviceInterface .empty) from trivial) rfl
  have h₂ := h₁.tail (show FreshHandle _ (.createMount ⟨0, [slash], [], .mountDefault⟩ 1) from
    ⟨by decide, by decide⟩) rfl
  have h₃ := h₂.tail (show FreshHandle _ (.createMount ⟨0, [slash, 97], [], .mountDefault⟩ 2) from
    ⟨by decide, by decide⟩) rfl
  have hreach := h₃.tail (show FreshHandle _ (.releaseMount 1) from trivial) rfl
  exact ⟨_, hreach, rfl, rfl, mounts_kept hreach⟩

/-- The required functions of a device type whose `_create` stores no device. -/
def DeviceFunctions.null : DeviceFunctions Unit Unit :=
  { DeviceFunctions.empty with create := some fun _ w => ((.ok, none), w) }

/-- `createMount` returns null with `LFS_OK`. -/
theorem createMount_null_ok :
    ∃ b : Booked Unit Unit, Reach Booked.step FreshHandle ⟨⟨[], [], ()⟩, []⟩ b ∧
      (b.setup.createMount ⟨0, [slash], [], .mountDefault⟩ 1).1 = (.ok, none) :=
  ⟨_, .tail .refl
    (show FreshHandle _ (.registerDeviceInterface .null) from trivial) rfl, rfl⟩

end LaminaFS
