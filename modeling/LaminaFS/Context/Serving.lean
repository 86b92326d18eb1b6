/-
# The execution of an item, step after step

While the processing thread executes an item the control thread may leave the table alone, and
then the steps lead to what serving the request as a whole gives.  `ExecPc.Leads` says, for
every place in the execution, which result that is.
-/
import LaminaFS.Context.RequestRuns
import LaminaFS.Context.Service

namespace LaminaFS

variable {D W : Type} {cfg : Config D W} {s s' : State D W} {g : ℕ}

/-- From here on, with the table `mounts` for all searches, the execution of `request` comes to
the result `r`; `item`, `block` and `w` are the record, the number of the next block and the
world at this point. -/
def ExecPc.Leads (mounts : List (MountInfo D W)) (request : WorkItem) (item : WorkItem)
    (block : ℕ) (w : W) (r : Served D W) : ExecPc D W → Prop
  | .dispatch | .findMutable _ => r = serve mounts block request w
  | .findNext l start => ∃ ms, ms <:+ consulted mounts request.filename ∧
      findNextMountAndPath mounts request.filename start =
        (ms.head?.map fun m => (m, m.devicePath request.filename)) ∧
      r = serveLookup l request.filename block ms item w
  | .scanNext l path onlyAfter rest => ∃ ms, ms <:+ consulted mounts request.filename ∧
      LaminaFS.scanNext path onlyAfter rest =
        (ms.head?.map fun m => (m, m.devicePath request.filename)) ∧
      r = serveLookup l request.filename block ms item w
  | .callLookup l mount devicePath => ∃ ms,
      mount :: ms <:+ consulted mounts request.filename ∧
      devicePath = mount.devicePath request.filename ∧
      r = serveLookup l request.filename block (mount :: ms) item w
  | .lockShared _ op path => op = request.operation ∧ path = request.filename ∧
      r = serve mounts block request w
  | .scanMutable _ op path rest =>
      LaminaFS.scanMutable path op rest =
        findMutableMountAndPath mounts request.filename request.operation ∧
      r = serve mounts block request w
  | .unlockShared _ found =>
      found = findMutableMountAndPath mounts request.filename request.operation ∧
      r = serve mounts block request w
  | .modeSwitch mount devicePath | .callMutable _ _ mount devicePath =>
      some (mount, devicePath) =
        findMutableMountAndPath mounts request.filename request.operation ∧
      r = serve mounts block request w

/-! ### What others do in between -/

/-- A lookup is not a `writeFile`. -/
lemma Looks.not_write {l : Lookup} (h : s.Looks cfg g l) :
    (s.tickets g).call.operation ≠ .opWrite := by
  intro hop
  have hcall := h.2.2 []
  unfold Call.deviceCall at hcall
  unfold Call.operation at hop
  cases hverb : (s.tickets g).call.verb <;> rw [hverb] at hop hcall <;>
    first
    | (cases hop; done)
    | (cases l <;> cases hcall)

/-- An item that is looked up stays as it is. -/
lemma Looks.record_touched {l : Lookup} (h : s.Looks cfg g l) (ht : Touched cfg s s' g) :
    s'.record g = s.record g := by
  cases ht with
  | same hrecord _ => exact hrecord
  | late hcall _ => exact absurd hcall (Looks.not_write h)

/-- While others act the execution leads to the same result. -/
lemma ExecPc.Leads.touched {mounts : List (MountInfo D W)} {request : WorkItem} {block : ℕ}
    {w : W} {r : Served D W} {e : ExecPc D W}
    (h : e.Leads mounts request (s.record g) block w r) (he : e.Follows cfg s g)
    (ht : Touched cfg s s' g) : e.Leads mounts request (s'.record g) block w r := by
  cases e with
  | findNext l start =>
    unfold ExecPc.Leads at h ⊢
    rw [Looks.record_touched he ht]
    exact h
  | scanNext l path onlyAfter rest | callLookup l mount devicePath =>
    unfold ExecPc.Leads at h ⊢
    rw [Looks.record_touched he.1 ht]
    exact h
  | dispatch | findMutable _ | lockShared _ _ _ | scanMutable _ _ _ _ | unlockShared _ _
  | modeSwitch _ _ | callMutable _ _ _ _ => exact h

/-! ### A step of the execution -/

/-- How far the execution has come: it goes on to the same result, it has the result, or a
function was missing. -/
inductive Leads (mounts : List (MountInfo D W)) (request : WorkItem) (r : Served D W)
    (s : State D W) (p : ItemPtr) : Prop
  | on (e : ExecPc D W) (hpc : s.proc = .exec p e)
      (h : e.Leads mounts request (s.slots p.slot) s.nextBlock s.world r)
  | done (hpc : s.proc = .complete p) (hnull : r.nullFunction = false)
      (hitem : s.slots p.slot = r.item) (hworld : s.world = r.world)
      (hblock : s.nextBlock = r.nextBlock)
  | crashed (hpc : s.proc = .crashed)

section Step

variable {mounts : List (MountInfo D W)} {request : WorkItem} {p : ItemPtr} {r : Served D W}

/-- The `switch`. -/
lemma leads_dispatch (h : OwnInv cfg s) (hslot : p.slot = (s.tickets p.submission).slot)
    (ha : s.Asked cfg p.submission)
    (hr : r = serve mounts s.nextBlock (s.item cfg p.submission) s.world)
    (hs : execStep s p .dispatch = some s') :
    Leads mounts (s.item cfg p.submission) r s' p := by
  have hrec : s.record p.submission = s.slots p.slot := by rw [State.record, ← hslot]
  cases execMove hs with
  | dispatchesLookup item l hd =>
    rcases ha with ha | ⟨ha, howes⟩
    · have hitem : s.slots p.slot = s.item cfg p.submission := hrec.symm.trans ha
      rw [hitem] at hd
      have hname : item.filename = (s.item cfg p.submission).filename := by
        have hlookup : (s.item cfg p.submission).dispatch.2 = .lookup l := by rw [hd]
        have hkept := (dispatch_lookup hlookup).1
        rw [hd] at hkept
        exact hkept
      refine .on _ rfl ⟨_, List.suffix_refl _, findNext_none _ _, ?_⟩
      rw [hr, serve_lookup hd, hname]
      simp only [Function.update_self]
    · have hother := (@dispatch_pushed _ _ cfg _ _ (operation_of_owes h howes)).1
      rw [← hrec, ha] at hd
      rw [hd] at hother
      cases hother
  | dispatchesMutation item m hd => exact .on _ rfl hr

/-- The search for the next mount. -/
lemma leads_searchNext {l : Lookup} {start : Option ℕ}
    (hpath : (s.slots p.slot).filename = request.filename)
    (h : (ExecPc.findNext l start).Leads s.mounts request (s.slots p.slot) s.nextBlock s.world r)
    (hs : execStep s p (.findNext l start) = some s') : Leads s.mounts request r s' p := by
  obtain ⟨ms, hms, hfind, hr⟩ := h
  cases execMove hs with
  | searchesNext => exact .on _ rfl ⟨ms, hms, by rw [hpath]; exact hfind, hr⟩

/-- A turn of the search for the next mount. -/
lemma leads_scanNext {l : Lookup} {path : CString} {onlyAfter : Option ℕ}
    {rest : List (MountInfo D W)}
    (h : (ExecPc.scanNext l path onlyAfter rest).Leads mounts request (s.slots p.slot)
      s.nextBlock s.world r)
    (hs : execStep s p (.scanNext l path onlyAfter rest) = some s') :
    Leads mounts request r s' p := by
  obtain ⟨ms, hms, hscan, hr⟩ := h
  cases execMove hs with
  | findsNoNext =>
    obtain rfl : ms = [] := by
      cases ms with
      | nil => rfl
      | cons m ms => cases hscan
    subst hr
    exact .done rfl rfl rfl rfl rfl
  | passesNext _ _ _ after mount rest hvisit =>
    rw [scanNext, hvisit] at hscan
    exact .on _ rfl ⟨ms, hms, hscan, hr⟩
  | findsNext _ _ _ mount rest devicePath hvisit =>
    rw [scanNext, hvisit] at hscan
    cases ms with
    | nil => cases hscan
    | cons m ms =>
      cases hscan
      exact .on _ rfl ⟨ms, hms, rfl, hr⟩

/-- The call of a lookup function. -/
lemma leads_callLookup {l : Lookup} {mount : MountInfo D W} {devicePath : CString}
    (hnodup : (mounts.map MountInfo.handle).Nodup)
    (h : (ExecPc.callLookup l mount devicePath).Leads mounts request (s.slots p.slot)
      s.nextBlock s.world r)
    (hs : execStep s p (.callLookup l mount devicePath) = some s') :
    Leads mounts request r s' p := by
  obtain ⟨ms, hms, rfl, hr⟩ := h
  cases execMove hs with
  | callsLookup _ _ _ called hcalled =>
    rw [serveLookup] at hr
    simp only [hcalled] at hr
    cases hstop : called.stop with
    | true =>
      rw [hstop, if_pos rfl] at hr
      subst hr
      exact .done (by simp) rfl (by simp) rfl rfl
    | false =>
      rw [hstop, if_neg (by simp)] at hr
      refine .on (.findNext l (some mount.handle)) (by simp)
        ⟨ms, (List.suffix_cons _ _).trans hms, ?_, by simpa using hr⟩
      have hfind := @findNext_some _ _ mounts [] _ _ _ (by simpa using hnodup) hms
      rwa [List.append_nil] at hfind

/-- Serving a mutation. -/
lemma serve_of_mutation {m : Mutation} (hcase : request.dispatch.2 = .mutation m) (block : ℕ)
    (w : W) : serve mounts block request w =
      ⟨(processMutation mounts m request w).item, (processMutation mounts m request w).world,
        block, (processMutation mounts m request w).nullFunction⟩ :=
  serve_mutation (Prod.ext (dispatch_mutation hcase) hcase)

/-- No mount can be changed. -/
lemma leads_unlockNone {m : Mutation} (hitem : s.slots p.slot = request)
    (hcase : request.dispatch.2 = .mutation m)
    (h : (ExecPc.unlockShared m none).Leads mounts request (s.slots p.slot) s.nextBlock s.world r)
    (hs : execStep s p (.unlockShared m none) = some s') : Leads mounts request r s' p := by
  obtain ⟨hfind, hr⟩ := h
  rw [serve_of_mutation hcase, processMutation, ← hfind] at hr
  cases execMove hs with
  | unlocksNone =>
    subst hr
    exact .done rfl rfl (by simp [hitem]) rfl rfl

/-- The call of a mutating function. -/
lemma leads_callMutable {m : Mutation} {mode : WriteMode} {mount : MountInfo D W}
    {devicePath : CString} (hitem : s.slots p.slot = request)
    (hcase : request.dispatch.2 = .mutation m)
    (hmode : m = .writeFile → mode = request.writeMode)
    (h : (ExecPc.callMutable m mode mount devicePath).Leads mounts request (s.slots p.slot)
      s.nextBlock s.world r)
    (hs : execStep s p (.callMutable m mode mount devicePath) = some s') :
    Leads mounts request r s' p := by
  obtain ⟨hfind, hr⟩ := h
  rw [serve_of_mutation hcase, processMutation, ← hfind] at hr
  -- only a write looks at the mode
  have hcall : callMutable m mode mount devicePath request s.world =
      callMutable m request.writeMode mount devicePath request s.world := by
    cases m with
    | writeFile => rw [hmode rfl]
    | deleteFile | createDir | deleteDir => rfl
  cases execMove hs with
  | callsMutable _ _ _ _ called hcalled =>
    rw [hitem, hcall] at hcalled
    simp only [hcalled] at hr
    subst hr
    cases hnull : called.nullFunction with
    | true => exact .crashed (by simp)
    | false => exact .done (by simp) rfl (by simp) rfl rfl

/-- **The step lemma.**  While the table stays as it is, a step of the execution keeps to the
result of serving the request as a whole. -/
theorem exec_leads {e : ExecPc D W} (h : OwnInv cfg s)
    (hslot : p.slot = (s.tickets p.submission).slot) (he : e.Follows cfg s p.submission)
    (hsettled : ∀ m, e = .findMutable m → ¬ s.Owes cfg p.submission)
    (hnodup : (s.mounts.map MountInfo.handle).Nodup)
    (hleads : e.Leads s.mounts (s.item cfg p.submission) (s.slots p.slot) s.nextBlock s.world r)
    (hs : execStep s p e = some s') :
    Leads s.mounts (s.item cfg p.submission) r s' p := by
  have hrec : s.record p.submission = s.slots p.slot := by rw [State.record, ← hslot]
  have hpath : s.path p.submission = (s.item cfg p.submission).filename :=
    Call.item_filename.symm
  cases e with
  | dispatch => exact leads_dispatch h hslot he hleads hs
  | findNext l start =>
    exact leads_searchNext (by rw [← hrec, he.2.1, hpath]) hleads hs
  | scanNext l path onlyAfter rest => exact leads_scanNext hleads hs
  | callLookup l mount devicePath => exact leads_callLookup hnodup hleads hs
  | findMutable m =>
    have hitem : s.slots p.slot = s.item cfg p.submission :=
      hrec.symm.trans (he.1.resolve_right fun hb => hsettled m rfl hb.2)
    cases execMove hs with
    | searchesMutable =>
      exact .on _ rfl ⟨congrArg WorkItem.operation hitem, congrArg WorkItem.filename hitem, hleads⟩
  | lockShared m op path =>
    obtain ⟨rfl, rfl, hr⟩ := hleads
    cases execMove hs with
    | locksShared => exact .on _ rfl ⟨rfl, hr⟩
  | scanMutable m op path rest =>
    obtain ⟨hscan, hr⟩ := hleads
    cases execMove hs with
    | findsNoMutable => exact .on _ rfl ⟨hscan, hr⟩
    | findsMutable _ _ _ mount rest devicePath hvisit =>
      rw [scanMutable, hvisit] at hscan
      exact .on _ rfl ⟨hscan, hr⟩
    | passesMutable _ _ _ mount rest hvisit =>
      rw [scanMutable, hvisit] at hscan
      exact .on _ rfl ⟨hscan, hr⟩
  | unlockShared m found =>
    cases found with
    | none => exact leads_unlockNone (hrec.symm.trans he.1.1) he.1.2 hleads hs
    | some found =>
      obtain ⟨mount, devicePath⟩ := found
      cases execMove hs with
      | unlocksWrite | unlocks => exact .on _ rfl hleads
  | modeSwitch mount devicePath =>
    cases execMove hs with
    | switches => exact .on _ rfl hleads
  | callMutable m mode mount devicePath =>
    exact leads_callMutable (hrec.symm.trans he.1.1) he.1.2 he.2.1 hleads hs

end Step

end LaminaFS
