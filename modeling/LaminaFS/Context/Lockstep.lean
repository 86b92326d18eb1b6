/-
# Services over device types that cannot be told apart

Two services over corresponding device types go through their runs together: the same can happen to
them, and they give the same answers.  The mount points have to be absolute, so that the device
paths are contained.
-/
import LaminaFS.Context.Requests
import LaminaFS.Context.Service
import LaminaFS.Mount.Spelling
import LaminaFS.Processing.Correspondence

namespace LaminaFS

open Transition

/-- The path of the call is a string whose length fits into 32 bits, and devices can be called with
the normalised path. -/
def Call.Fits (device : CString → Prop) (c : Call) : Prop :=
  (0 : UInt8) ∉ c.path ∧ c.path.length < 2 ^ 32 ∧ device (normalizePath c.path)

instance {device : CString → Prop} [DecidablePred device] : DecidablePred (Call.Fits device) :=
  fun _ => inferInstanceAs (Decidable (_ ∧ _ ∧ _))

/-- The mount point is absolute. -/
def MountArgs.Absolute (args : MountArgs) : Prop := args.mountPoint.head? = some slash

instance : DecidablePred MountArgs.Absolute :=
  fun _ => inferInstanceAs (Decidable (_ = some slash))

/-- Requests with such paths, and mounts with absolute mount points of devices with such root
paths. -/
def Service.Act.Fits (root device : CString → Prop) : Service.Act → Prop
  | .accept _ c => c.Fits device
  | .make args _ => args.Absolute ∧ root args.devicePath
  | _ => True

variable {D D' W W' : Type}

/-- What only such actions lead to. -/
structure Service.Fits (device : CString → Prop) (v : Service D W) : Prop where
  queue : ∀ r ∈ v.queue, r.2.Fits device
  mounts : ∀ m ∈ v.mounts, m.prefixStr.head? = some slash
  pending : ∀ m ∈ v.pending, m.prefixStr.head? = some slash

namespace Service.Fits

variable {cfg : Config D W} {v v₁ : Service D W} {act : Service.Act}
  {root device : CString → Prop}

lemma init (world : W) : (Service.init world : Service D W).Fits device :=
  ⟨nofun, nofun, nofun⟩

lemma step (h : v.Fits device) (hfits : act.Fits root device)
    (hs : Service.step cfg v act = some v₁) : v₁.Fits device := by
  cases act with
  | accept g c =>
    rw [Service.step] at hs
    split at hs <;> cases hs
    refine ⟨fun r hr => ?_, h.mounts, h.pending⟩
    rcases List.mem_append.mp hr with hr | hr
    · exact h.queue r hr
    · rw [List.mem_singleton.mp hr]
      exact hfits
  | serve =>
    rw [Service.step] at hs
    split at hs
    · cases hs
    · rename_i g c queue hqueue
      dsimp only at hs
      split at hs <;> cases hs
      exact ⟨fun r hr => h.queue r (hqueue ▸ List.mem_cons_of_mem _ hr), h.mounts, h.pending⟩
  | make args handle =>
    rw [Service.step] at hs
    split at hs
    rename_i code mount w hmake
    cases hs
    refine ⟨h.queue, h.mounts, fun m hm => ?_⟩
    have hmade : (makeMount cfg.interfaces args handle v.world).1.2 = some m := by
      rw [hmake]
      exact hm
    rw [(makeMount_mountPoint hmade).1]
    exact hfits.1
  | mount =>
    rw [Service.step] at hs
    split at hs <;> cases hs
    rename_i mount hpending
    refine ⟨h.queue, fun m hm => ?_, nofun⟩
    rcases List.mem_append.mp hm with hm | hm
    · exact h.mounts m hm
    · rw [List.mem_singleton.mp hm]
      exact h.pending mount hpending
  | release handle =>
    rw [Service.step] at hs
    split at hs <;> cases hs
    exact ⟨h.queue, fun m hm => h.mounts m (List.mem_of_mem_eraseP hm), h.pending⟩
  | shutdown =>
    cases hs
    exact ⟨h.queue, nofun, h.pending⟩

end Service.Fits

/-- A device is called with the end of a path. -/
lemma MountInfo.devicePath_suffix (m : MountInfo D W) (path : CString) :
    m.devicePath path <:+ path := by
  rw [MountInfo.devicePath]
  split
  · exact List.suffix_refl _
  · exact List.drop_suffix _ _

/-- What the lookups hand to a device for the request of a call. -/
lemma contained_of_accepts {m : MountInfo D W} (hm : m.prefixStr.head? = some slash)
    {path : CString} (hnul : (0 : UInt8) ∉ path) (hlen : path.length < 2 ^ 32)
    (ha : m.accepts (normalizePath path) = true) :
    Contained (m.devicePath (normalizePath path)) := by
  have hnlen := length_normalizePath_le hnul hlen
  have hhead : (normalizePath path).head? = some slash := by
    obtain ⟨t, ht⟩ := (accepts_iff.mp ha).1
    rw [← ht, List.head?_append, hm]
    rfl
  refine contained_devicePath hm (by omega) ?_ ha
  rw [normalizePath_eq_reference hnul hlen] at hhead ⊢
  exact reference_absolute hhead

namespace Correspondence

/-- Services that correspond. -/
structure Services (R : Correspondence D D' W W') (v : Service D W) (u : Service D' W') :
    Prop where
  queue : v.queue = u.queue
  mounts : List.Forall₂ R.Mounts v.mounts u.mounts
  pending : Option.Rel R.Mounts v.pending u.pending
  world : R.world v.world u.world
  nextBlock : v.nextBlock = u.nextBlock
  answers : v.answers = u.answers

/-- Requests that have been served alike. -/
structure AlikeServed (R : Correspondence D D' W W') (r : Served D W) (r' : Served D' W') :
    Prop where
  item : r.item = r'.item
  world : R.world r.world r'.world
  nextBlock : r.nextBlock = r'.nextBlock
  nullFunction : r.nullFunction = r'.nullFunction

variable {R : Correspondence D D' W W'} {mounts : List (MountInfo D W)}
  {mounts' : List (MountInfo D' W')} {w : W} {w' : W'}

/-! ### Serving -/

lemma serveLookup_alike (h : List.Forall₂ R.Mounts mounts mounts') (hw : R.world w w')
    (l : Lookup) {path : CString} (hpath : ∀ m ∈ mounts, R.path (m.devicePath path)) (block : ℕ)
    (item : WorkItem) :
    R.AlikeServed (serveLookup l path block mounts item w)
      (serveLookup l path block mounts' item w') := by
  induction h generalizing w w' block item with
  | nil => exact ⟨rfl, hw, rfl, rfl⟩
  | @cons m m' ms ms' hm _ ih =>
    have hrest := fun x hx => hpath x (List.mem_cons_of_mem m hx)
    obtain ⟨hitem, hstop, hworld⟩ :=
      callLookup_alike hm (hpath m List.mem_cons_self) hw l block item
    rw [serveLookup, serveLookup, ← hm.devicePath path, ← hstop, ← hitem]
    split
    · exact ⟨rfl, hworld, rfl, rfl⟩
    · exact ih hworld hrest _ _

lemma serve_alike (h : List.Forall₂ R.Mounts mounts mounts') (hw : R.world w w') (block : ℕ)
    {item : WorkItem} (hpath : ∀ m ∈ mounts, m.accepts item.filename = true →
      R.path (m.devicePath item.filename)) :
    R.AlikeServed (serve mounts block item w) (serve mounts' block item w') := by
  have hfilename : item.dispatch.1.filename = item.filename := by
    rw [WorkItem.dispatch]
    split <;> rfl
  cases hdispatch : item.dispatch with
  | mk item' case_ =>
    rw [hdispatch] at hfilename
    rw [← hfilename] at hpath
    cases case_ with
    | lookup l =>
      rw [serve_lookup hdispatch, serve_lookup hdispatch]
      refine serveLookup_alike (consulted_alike h _) hw l (fun m hm => ?_) block item'
      rw [consulted, List.mem_filter, Bool.and_eq_true] at hm
      exact hpath m (List.mem_reverse.mp hm.1) hm.2.2
    | mutation m =>
      rw [serve_mutation hdispatch, serve_mutation hdispatch]
      obtain ⟨hitem, hnull, hworld⟩ := processMutation_alike h hw m hpath
      exact ⟨hitem, hworld, rfl, hnull⟩

/-! ### The services -/

lemma find_handle_alike (h : List.Forall₂ R.Mounts mounts mounts') (handle : ℕ) :
    Option.Rel R.Mounts (mounts.find? fun m => m.handle == handle)
      (mounts'.find? fun m => m.handle == handle) :=
  find_alike h fun _ _ hm => by rw [hm.handle]

lemma erase_alike (h : List.Forall₂ R.Mounts mounts mounts') (handle : ℕ) :
    List.Forall₂ R.Mounts (mounts.eraseP fun m => m.handle == handle)
      (mounts'.eraseP fun m => m.handle == handle) := by
  induction h with
  | nil => exact .nil
  | @cons m m' _ _ hm hms ih =>
    rw [List.eraseP_cons, List.eraseP_cons, hm.handle]
    cases m'.handle == handle with
    | true => exact hms
    | false => exact .cons hm ih

lemma destroyEach_alike (h : List.Forall₂ R.Mounts mounts mounts') (hw : R.world w w') :
    R.world (Service.destroyEach mounts w) (Service.destroyEach mounts' w') := by
  induction h generalizing w w' with
  | nil => exact hw
  | cons hm _ ih => exact ih (hm.interface.destroy _ _ hm.device w w' hw)

section ServiceRuns

variable {cfg : Config D W} {cfg' : Config D' W'} {v v₁ : Service D W} {u : Service D' W'}
  {act : Service.Act} {device : CString → Prop}

/-- What makes two configurations correspond. -/
structure Configs (R : Correspondence D D' W W') (device : CString → Prop) (cfg : Config D W)
    (cfg' : Config D' W') : Prop where
  interfaces : List.Forall₂ R.Interfaces cfg.interfaces cfg'.interfaces
  contextAlloc : cfg.contextAlloc = cfg'.contextAlloc
  /-- what a device is called with ends the normalised path of the request -/
  path : ∀ path dp, device path → dp <:+ path → Contained dp → R.path dp

namespace Services

lemma accept_step {g : ℕ} {c : Call} (h : R.Services v u)
    (hs : Service.step cfg v (.accept g c) = some v₁) :
    ∃ u₁, Service.step cfg' u (.accept g c) = some u₁ ∧ R.Services v₁ u₁ := by
  rw [Service.step] at hs
  split at hs
  · rename_i hnew
    cases hs
    refine ⟨{ u with queue := u.queue ++ [(g, c)] }, ?_, { h with queue := ?_ }⟩
    · rw [Service.step, ← h.answers, ← h.queue, if_pos hnew]
    · dsimp only
      rw [h.queue]
  · cases hs

lemma serve_step (h : R.Services v u) (hc : R.Configs device cfg cfg') (hv : v.Fits device)
    (hs : Service.step cfg v .serve = some v₁) :
    ∃ u₁, Service.step cfg' u .serve = some u₁ ∧ R.Services v₁ u₁ := by
  rw [Service.step] at hs
  split at hs
  · cases hs
  · rename_i g c queue hqueue
    -- the mounts are handed contained device paths only
    have hcall : c.Fits device := hv.queue (g, c) (by rw [hqueue]; exact List.mem_cons_self)
    have hpath : ∀ m ∈ v.mounts, m.accepts (c.item cfg.contextAlloc).filename = true →
        R.path (m.devicePath (c.item cfg.contextAlloc).filename) := by
      rw [Call.item_filename]
      exact fun m hm ha => hc.path _ _ hcall.2.2 (m.devicePath_suffix _)
        (contained_of_accepts (hv.mounts m hm) hcall.1 hcall.2.1 ha)
    obtain ⟨hitem, hworld, hblock, hnull⟩ := serve_alike h.mounts h.world v.nextBlock hpath
    dsimp only at hs
    split at hs
    · cases hs
    · rename_i hserved
      cases hs
      have hstep : Service.step cfg' u .serve = some { u with
          queue := queue
          world := (serve u.mounts v.nextBlock (c.item cfg.contextAlloc) u.world).world
          nextBlock := (serve u.mounts v.nextBlock (c.item cfg.contextAlloc) u.world).nextBlock
          answers := Function.update u.answers g
            (some (serve u.mounts v.nextBlock (c.item cfg.contextAlloc) u.world).item.answer) }
          := by
        rw [Service.step, ← h.queue, hqueue]
        dsimp only
        rw [← hc.contextAlloc, ← h.nextBlock, ← hnull, if_neg hserved]
      exact ⟨_, hstep, rfl, h.mounts, h.pending, hworld, hblock, by rw [h.answers, hitem]⟩

lemma mount_step (h : R.Services v u) (hs : Service.step cfg v .mount = some v₁) :
    ∃ u₁, Service.step cfg' u .mount = some u₁ ∧ R.Services v₁ u₁ := by
  have hrel := h.pending
  rw [Service.step] at hs
  split at hs
  · cases hs
  · rename_i mount hpending
    cases hs
    rw [hpending] at hrel
    cases hu : u.pending with
    | none =>
      rw [hu] at hrel
      cases hrel
    | some mount' =>
      rw [hu] at hrel
      cases hrel with
      | some hm =>
        refine ⟨{ u with mounts := u.mounts ++ [mount'], pending := none },
          by rw [Service.step, hu], h.queue, ?_, .none, h.world, h.nextBlock, h.answers⟩
        exact List.rel_append h.mounts (.cons hm .nil)

lemma release_step {handle : ℕ} (h : R.Services v u)
    (hs : Service.step cfg v (.release handle) = some v₁) :
    ∃ u₁, Service.step cfg' u (.release handle) = some u₁ ∧ R.Services v₁ u₁ := by
  have hfind := find_handle_alike h.mounts handle
  rw [Service.step] at hs
  split at hs
  · cases hs
  · rename_i mount hfound
    cases hs
    rw [hfound] at hfind
    cases hu : u.mounts.find? fun m => m.handle == handle with
    | none =>
      rw [hu] at hfind
      cases hfind
    | some mount' =>
      rw [hu] at hfind
      cases hfind with
      | some hm =>
        refine ⟨{ u with
          world := mount'.interface.destroy mount'.device u.world
          mounts := u.mounts.eraseP fun m => m.handle == handle },
          by rw [Service.step, hu], h.queue, erase_alike h.mounts handle, h.pending, ?_,
          h.nextBlock, h.answers⟩
        exact hm.interface.destroy _ _ hm.device _ _ h.world

/-- **The step lemma.**  The same can happen to services that correspond. -/
lemma step (h : R.Services v u) (hc : R.Configs device cfg cfg') (hv : v.Fits device)
    (hfits : act.Fits R.root device) (hs : Service.step cfg v act = some v₁) :
    ∃ u₁, Service.step cfg' u act = some u₁ ∧ R.Services v₁ u₁ := by
  cases act with
  | accept g c => exact h.accept_step hs
  | serve => exact h.serve_step hc hv hs
  | make args handle =>
    obtain ⟨-, hmount, hworld⟩ := makeMount_alike hc.interfaces h.world hfits.2 handle
    rw [Service.step] at hs
    cases hs
    exact ⟨_, rfl, h.queue, h.mounts, hmount, hworld, h.nextBlock, h.answers⟩
  | mount => exact h.mount_step hs
  | release handle => exact h.release_step hs
  | shutdown =>
    cases hs
    exact ⟨_, rfl, h.queue, .nil, h.pending, destroyEach_alike h.mounts h.world, h.nextBlock,
      h.answers⟩

/-- **The run lemma.** -/
lemma run {ok : Service D W → Service.Act → Prop} (hc : R.Configs device cfg cfg')
    (hok : ∀ v act, ok v act → act.Fits R.root device) (hw : R.world w w')
    (h : Reach (Service.step cfg) ok (Service.init w) v) :
    ∃ u, Reach (Service.step cfg') Free (Service.init w') u ∧ R.Services v u := by
  have hfits (v : Service D W) (hv : Reach (Service.step cfg) ok (Service.init w) v) :
      v.Fits device :=
    hv.invariant (.init w) fun _ _ _ hi hact hs => hi.step (hok _ _ hact) hs
  refine h.simulates (R := R.Services) hfits ⟨rfl, .nil, .none, hw, rfl, rfl⟩ ?_
  intro v act v₁ u hv _ hrel hact hs
  obtain ⟨u₁, hu, hrel'⟩ := hrel.step hc hv (hok v act hact) hs
  exact ⟨u₁, .tail .refl trivial hu, hrel'⟩

end Services

end ServiceRuns

end Correspondence

end LaminaFS
