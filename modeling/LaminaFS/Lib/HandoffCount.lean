/-
# How many slots are taken

A slot that is not free has been taken for a submission that has not been released since.  If
all submissions are the worker's, then such a submission is being built, or it is in the queue,
or the worker has it in its hand; and as no two of them share a slot, the slots that are taken
can be counted.
-/
import LaminaFS.Lib.Handoff
import Mathlib.Data.Finset.Card
import Mathlib.Data.List.Perm.Subperm

namespace Handoff

variable {ι : Type*} {l l' : Ledger ι} {n : ℕ}

/-- The pointer that the worker has in its hand. -/
def Hand.ptrs : Hand → List Ptr
  | .free | .dead => []
  | .working p | .finished p | .calling p | .after p => [p]

/-- An agent fills a slot that it has taken. -/
def Role.IsBuilding (role : Role) : Prop := ∃ p, role = .building p

/-! ### Slots that are taken -/

/-- The slots below `n` that are not free are those of live submissions, and what is being built
is built by the agent that has taken the slot. -/
structure Counted (n : ℕ) (l : Ledger ι) : Prop where
  taken : ∀ i < n, l.free i = false →
    (l.stage (l.occupant i)).isLive = true ∧ l.slotOf (l.occupant i) = i
  building : ∀ g, l.stage g = .building → l.role (l.owner g) = .building ⟨l.slotOf g, g⟩

namespace Counted

/-- At the start all slots are free. -/
lemma of_initial (h : l.Initial) (hfree : ∀ i < n, l.free i = true) : Counted n l where
  taken i hi hf := by
    rw [hfree i hi] at hf
    cases hf
  building g hg := by
    rw [h.stage] at hg
    cases hg

/-- A slot is given back. -/
lemma giveBack (h : Counted n l) (hl : Inv l) {p : Ptr} (hslot : p.slot = l.slotOf p.submission)
    (hlive : (l.stage p.submission).isLive = true) : Counted n (l.giveBack p) := by
  have hocc := (hl.lives _ hlive).2
  constructor
  · intro i hi hf
    simp only [Ledger.giveBack, Function.update_apply] at hf ⊢
    split at hf
    · cases hf
    · rename_i hne
      obtain ⟨hlive', hslot'⟩ := h.taken i hi hf
      -- the slots are others, and so are the submissions
      have hother : l.occupant i ≠ p.submission := fun he => hne (by rw [← hslot', he, hslot])
      rw [if_neg hother]
      exact ⟨hlive', hslot'⟩
  · intro g hg
    simp only [Ledger.giveBack, Function.update_apply] at hg ⊢
    split at hg
    · cases hg
    · exact h.building g hg

/-- The stage of a submission that is not being built moves on, and it stays live. -/
lemma of_stage (h : Counted n l) (p : Ptr) (st : Stage) (hlive : st.isLive = true)
    (hst : st ≠ .building) (hfree : l'.free = l.free) (hocc : l'.occupant = l.occupant)
    (hslot : l'.slotOf = l.slotOf) (howner : l'.owner = l.owner) (hrole : l'.role = l.role)
    (hstage : l'.stage = Function.update l.stage p.submission st) : Counted n l' := by
  constructor
  · intro i hi hf
    rw [hfree] at hf
    obtain ⟨hlive', hslot'⟩ := h.taken i hi hf
    rw [hocc, hslot, hstage, Function.update_apply]
    refine ⟨?_, hslot'⟩
    split
    · exact hlive
    · exact hlive'
  · intro g hg
    rw [hstage, Function.update_apply] at hg
    split at hg
    · exact absurd hg hst
    · rw [howner, hslot, hrole]
      exact h.building g hg

variable [DecidableEq ι]

/-- An agent that builds nothing does something else that is not building. -/
lemma of_role (h : Counted n l) {a : ι} {role : Role} (hrole : ∀ p, l.role a ≠ .building p)
    (hfree : l'.free = l.free) (hocc : l'.occupant = l.occupant) (hslot : l'.slotOf = l.slotOf)
    (howner : l'.owner = l.owner) (hstage : l'.stage = l.stage)
    (hrole' : l'.role = Function.update l.role a role) : Counted n l' := by
  constructor
  · rw [hfree, hocc, hslot, hstage]
    exact h.taken
  · intro g hg
    rw [hstage] at hg
    have hb := h.building g hg
    rw [hrole', howner, hslot, Function.update_of_ne]
    · exact hb
    · intro he
      exact hrole _ (he ▸ hb)

/-- Every move keeps the count. -/
theorem step (h : Counted n l) (hl : Inv l) (hs : Step l l') : Counted n l' := by
  cases hs with
  | take a i w hrole hfree =>
    have hnew : l.stage l.next = .unborn := (hl.born _).mpr (Nat.le_refl _)
    constructor
    · intro j hj hf
      have htaken := h.taken j hj
      simp only [Function.update_apply] at hf ⊢
      grind
    · intro g hg
      have hb := h.building g
      simp only [Function.update_apply] at hg ⊢
      grind
  | post a p hrole =>
    obtain ⟨hslot, hstage, howner⟩ := hl.building a p hrole
    constructor
    · intro i hi hf
      have htaken := h.taken i hi hf
      simp only [Function.update_apply]
      grind
    · intro g hg
      have hb := h.building g
      simp only [Function.update_apply] at hg ⊢
      grind
  | ret a p hrole =>
    exact h.of_role (by rw [hrole]; simp) rfl rfl rfl rfl rfl rfl
  | ask a p hrole _ =>
    exact h.of_role (by rw [hrole]; simp) rfl rfl rfl rfl rfl rfl
  | tell a p hrole _ =>
    refine h.of_role (a := a) ?_ rfl rfl rfl rfl rfl rfl
    intro q hq
    rcases hrole with hrole | ⟨hrole, -⟩ <;> rw [hrole] at hq <;> cases hq
  | agentRelease p hheld hreported =>
    have hback := h.giveBack hl (hl.held p hheld).1 (hl.live_of_held hheld)
    exact ⟨hback.taken, hback.building⟩
  | fetch p queue _ hqueue =>
    exact h.of_stage p .executing rfl (by simp) rfl rfl rfl rfl rfl rfl
  | finish p hhand =>
    exact h.of_stage p .completed rfl (by simp) rfl rfl rfl rfl rfl rfl
  | call p hhand =>
    exact h.of_stage p .called rfl (by simp) rfl rfl rfl rfl rfl rfl
  | workerRelease p hhand =>
    have hfits := hl.hand
    rw [hhand] at hfits
    have hback := h.giveBack hl hfits.1 (by rw [hfits.2]; rfl)
    exact ⟨hback.taken, hback.building⟩
  | leave | keep | die => exact ⟨h.taken, h.building⟩

/-- After any number of moves. -/
theorem run {l₀ : Ledger ι} (h₀ : l₀.Initial) (hfree : ∀ i < n, l₀.free i = true)
    (h : Relation.ReflTransGen Step l₀ l) : Counted n l := by
  induction h with
  | refl => exact .of_initial h₀ hfree
  | tail hr hs ih => exact ih.step (Inv.run h₀ hr) hs

end Counted

/-! ### Counting -/

namespace Inv

/-- The pointers in the queue are of different submissions. -/
lemma nodup_queue (h : Inv l) : (l.queue.map Ptr.submission).Nodup := by
  refine h.nodup.map_on fun p hp q hq he => Ptr.ext ?_ he
  rw [(h.queue p hp).1, (h.queue q hq).1, he]

/-- Live submissions are in as many slots. -/
lemma nodup_slots (h : Inv l) {gs : List ℕ} (hgs : gs.Nodup)
    (hlive : ∀ g ∈ gs, (l.stage g).isLive = true) : (gs.map l.slotOf).Nodup :=
  hgs.map_on fun g hg g' hg' he => h.slot_inj (hlive g hg) (hlive g' hg') he

/-- There are no more live submissions than slots. -/
lemma length_le_of_live (h : Inv l) {gs : List ℕ} (hgs : gs.Nodup)
    (hlive : ∀ g ∈ gs, (l.stage g).isLive = true) (hlt : ∀ g ∈ gs, l.slotOf g < n) :
    gs.length ≤ n := by
  have hsub : gs.map l.slotOf ⊆ List.range n := by
    intro i hi
    obtain ⟨g, hg, rfl⟩ := List.mem_map.mp hi
    exact List.mem_range.mpr (hlt g hg)
  have hle := ((h.nodup_slots hgs hlive).subperm hsub).length_le
  simpa using hle

end Inv

section Workers

variable (hl : Inv l) (hc : Counted n l) (hlt : ∀ g, l.stage g ≠ .unborn → l.slotOf g < n)
  (hworker : ∀ g, l.stage g ≠ .unborn → l.byWorker g = true) (halive : l.hand ≠ .dead)

/-- The submissions that are being built. -/
def Ledger.building (l : Ledger ι) : List ℕ :=
  (List.range l.next).filter fun g => l.stage g = .building

/-- The submissions that are being built, that are in the queue and that the worker has. -/
def Ledger.inUse (l : Ledger ι) : List ℕ :=
  l.building ++ l.queue.map Ptr.submission ++ l.hand.ptrs.map Ptr.submission

include hl in
lemma mem_building {g : ℕ} : g ∈ l.building ↔ l.stage g = .building := by
  rw [Ledger.building, List.mem_filter, List.mem_range, decide_eq_true_eq, and_iff_right_iff_imp]
  intro hg
  by_contra hlt
  rw [(hl.born g).mpr (Nat.le_of_not_lt hlt)] at hg
  cases hg

include hl hworker in
/-- What the worker has in its hand. -/
lemma stage_of_hand {p : Ptr} (hp : p ∈ l.hand.ptrs) : p.slot = l.slotOf p.submission ∧
    (l.stage p.submission = .executing ∨ l.stage p.submission = .completed ∨
      l.stage p.submission = .called) := by
  have hfits := hl.hand
  cases hh : l.hand with
  | free | dead =>
    rw [hh] at hp
    cases hp
  | working q | calling q | after q =>
    rw [hh] at hp hfits
    obtain rfl := List.mem_singleton.mp hp
    simp [hfits.1, hfits.2]
  | finished q =>
    rw [hh] at hp hfits
    obtain rfl := List.mem_singleton.mp hp
    refine ⟨hfits.1, ?_⟩
    rcases hfits.2 with hst | ⟨hst, hagents⟩
    · exact Or.inr (Or.inl hst)
    · rw [hworker _ (by rw [hst]; simp)] at hagents
      cases hagents

include hl hworker halive in
/-- The submissions in use are those that have a slot. -/
lemma mem_inUse {g : ℕ} : g ∈ l.inUse ↔ (l.stage g).isLive = true := by
  have hmem (ps : List Ptr) (hp : ⟨l.slotOf g, g⟩ ∈ ps) : g ∈ ps.map Ptr.submission :=
    List.mem_map.mpr ⟨_, hp, rfl⟩
  rw [Ledger.inUse, List.mem_append, List.mem_append, mem_building hl]
  constructor
  · rintro ((hg | hg) | hg)
    · rw [hg]
      rfl
    · obtain ⟨p, hp, rfl⟩ := List.mem_map.mp hg
      rw [(hl.queue p hp).2]
      rfl
    · obtain ⟨p, hp, rfl⟩ := List.mem_map.mp hg
      rcases (stage_of_hand hl hworker hp).2 with hst | hst | hst <;> rw [hst] <;> rfl
  · intro hg
    cases hst : l.stage g with
    | building => exact Or.inl (Or.inl rfl)
    | queued => exact Or.inl (Or.inr (hmem _ (hl.queued g hst)))
    | executing =>
      refine Or.inr (hmem _ ?_)
      rcases hl.executing g hst with hh | hh
      · rw [hh]
        exact List.mem_singleton_self _
      · exact absurd hh halive
    | completed =>
      refine Or.inr (hmem _ ?_)
      rcases hl.completed g hst (hworker g (by rw [hst]; simp)) with hh | hh | hh
      · rw [hh]
        exact List.mem_singleton_self _
      · rw [hh]
        exact List.mem_singleton_self _
      · exact absurd hh halive
    | called =>
      refine Or.inr (hmem _ ?_)
      rcases (hl.called g hst).2 with hh | hh
      · rw [hh]
        exact List.mem_singleton_self _
      · exact absurd hh halive
    | unborn | released =>
      rw [hst] at hg
      cases hg

include hl hworker in
/-- No submission is in two places. -/
lemma nodup_inUse : l.inUse.Nodup := by
  have hhand : (l.hand.ptrs.map Ptr.submission).Nodup := by
    cases l.hand <;> simp [Hand.ptrs]
  rw [Ledger.inUse, List.nodup_append', List.nodup_append']
  refine ⟨⟨List.nodup_range.filter _, hl.nodup_queue, ?_⟩, hhand, ?_⟩
  · intro g hg hq
    obtain ⟨p, hp, rfl⟩ := List.mem_map.mp hq
    have hst := (mem_building hl).mp hg
    rw [(hl.queue p hp).2] at hst
    cases hst
  · intro g hg hh
    obtain ⟨p, hp, rfl⟩ := List.mem_map.mp hh
    have hst := (stage_of_hand hl hworker hp).2
    rcases List.mem_append.mp hg with hg | hg
    · rw [(mem_building hl).mp hg] at hst
      simp at hst
    · obtain ⟨q, hq, he⟩ := List.mem_map.mp hg
      rw [← he, (hl.queue q hq).2] at hst
      simp at hst

include hl hc hlt hworker halive in
/-- **Conservation.**  If all submissions are the worker's then the slots that are taken are as
many as the submissions being built, those in the queue and the one that the worker has. -/
theorem length_taken : ((List.range n).filter fun i => !l.free i).length =
    l.building.length + l.queue.length + l.hand.ptrs.length := by
  have hlive {g : ℕ} (hg : (l.stage g).isLive = true) : l.stage g ≠ .unborn := by
    intro hst
    rw [hst] at hg
    cases hg
  have hperm : (l.inUse.map l.slotOf).Perm ((List.range n).filter fun i => !l.free i) := by
    refine (List.perm_ext_iff_of_nodup ?_ (List.nodup_range.filter _)).mpr fun i => ?_
    · exact hl.nodup_slots (nodup_inUse hl hworker) fun g hg =>
        (mem_inUse hl hworker halive).mp hg
    rw [List.mem_map, List.mem_filter, List.mem_range, Bool.not_eq_true']
    constructor
    · rintro ⟨g, hg, rfl⟩
      have hg := (mem_inUse hl hworker halive).mp hg
      exact ⟨hlt g (hlive hg), (hl.lives g hg).1⟩
    · rintro ⟨hi, hf⟩
      obtain ⟨hg, hslot⟩ := hc.taken i hi hf
      exact ⟨_, (mem_inUse hl hworker halive).mpr hg, hslot⟩
  have hlength := hperm.length_eq
  rw [List.length_map, Ledger.inUse, List.length_append, List.length_append, List.length_map,
    List.length_map] at hlength
  exact hlength.symm

include hl hc in
/-- The agents that build something are as many as the submissions being built. -/
lemma exists_builders [DecidableEq ι] : ∃ builders : Finset ι,
    (∀ a, a ∈ builders ↔ (l.role a).IsBuilding) ∧ builders.card = l.building.length := by
  have hinj : Set.InjOn l.owner (l.building.toFinset : Set ℕ) := by
    intro g hg g' hg' he
    have hg := hc.building g ((mem_building hl).mp (by simpa using hg))
    have hg' := hc.building g' ((mem_building hl).mp (by simpa using hg'))
    rw [he, hg'] at hg
    simp only [Role.building.injEq, Ptr.mk.injEq] at hg
    exact hg.2.symm
  refine ⟨l.building.toFinset.image l.owner, fun a => ?_, ?_⟩
  · simp only [Finset.mem_image, List.mem_toFinset]
    constructor
    · rintro ⟨g, hg, rfl⟩
      exact ⟨_, hc.building g ((mem_building hl).mp hg)⟩
    · rintro ⟨p, hp⟩
      obtain ⟨-, hst, howner⟩ := hl.building a p hp
      exact ⟨_, (mem_building hl).mpr hst, howner⟩
  · rw [Finset.card_image_of_injOn hinj]
    exact List.toFinset_card_of_nodup (List.nodup_range.filter _)

end Workers

end Handoff
