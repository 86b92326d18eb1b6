/-
# Requests keep their order in time

The service that cannot be told from a context goes on as the context does.  So a request that has
been answered when another one is submitted has been served before that one is accepted, and its
answer stays: the context is linearizable, with the service as the specification.
-/
import LaminaFS.Context.Sequential

namespace LaminaFS

open Transition

variable {D W : Type} {cfg : Config D W} {v v' : Service D W} {act : Service.Act}

namespace Service

/-- The requests in the queue are different ones, and have not been answered. -/
structure Pending (v : Service D W) : Prop where
  nodup : (v.queue.map Prod.fst).Nodup
  unanswered : ∀ g ∈ v.queue.map Prod.fst, v.answers g = none

namespace Pending

lemma init (world : W) : (Service.init world : Service D W).Pending :=
  ⟨List.nodup_nil, nofun⟩

/-- One thing that happens takes no answer back. -/
lemma step (h : v.Pending) (hs : Service.step cfg v act = some v') :
    v'.Pending ∧ ∀ g ans, v.answers g = some ans → v'.answers g = some ans := by
  cases act with
  | accept g c =>
    rw [Service.step] at hs
    split at hs <;> cases hs
    rename_i hnew
    refine ⟨⟨?_, fun g' hg' => ?_⟩, fun _ _ hans => hans⟩
    · rw [List.map_append, List.nodup_append]
      refine ⟨h.nodup, List.nodup_singleton _, ?_⟩
      rintro a ha b hb rfl
      rw [List.mem_singleton.mp hb] at ha
      exact hnew.2 ha
    · rw [List.map_append, List.mem_append] at hg'
      rcases hg' with hg' | hg'
      · exact h.unanswered g' hg'
      · rw [List.mem_singleton.mp hg']
        exact hnew.1
  | serve =>
    rw [Service.step] at hs
    split at hs
    · cases hs
    · rename_i g c queue hqueue
      dsimp only at hs
      split at hs <;> cases hs
      obtain ⟨hnodup, hunanswered⟩ := h
      rw [hqueue, List.map_cons] at hnodup hunanswered
      obtain ⟨hnew, hnodup⟩ := List.nodup_cons.mp hnodup
      refine ⟨⟨hnodup, fun g' hg' => ?_⟩, fun g' ans hans => ?_⟩
      · have hne : g' ≠ g := fun he => hnew (he ▸ hg')
        dsimp only
        rw [Function.update_of_ne hne]
        exact hunanswered g' (List.mem_cons_of_mem _ hg')
      · have hne : g' ≠ g := by
          rintro rfl
          rw [hunanswered g' List.mem_cons_self] at hans
          cases hans
        dsimp only
        rwa [Function.update_of_ne hne]
  | make args handle =>
    cases hs
    exact ⟨⟨h.nodup, h.unanswered⟩, fun _ _ hans => hans⟩
  | mount =>
    rw [Service.step] at hs
    split at hs <;> cases hs
    exact ⟨⟨h.nodup, h.unanswered⟩, fun _ _ hans => hans⟩
  | release handle =>
    rw [Service.step] at hs
    split at hs <;> cases hs
    exact ⟨⟨h.nodup, h.unanswered⟩, fun _ _ hans => hans⟩
  | shutdown =>
    cases hs
    exact ⟨⟨h.nodup, h.unanswered⟩, fun _ _ hans => hans⟩

/-- Answers stay. -/
lemma run (h : v.Pending) (hr : Reach (Service.step cfg) Free v v') :
    v'.Pending ∧ ∀ g ans, v.answers g = some ans → v'.answers g = some ans := by
  refine hr.invariant
    (I := fun u => u.Pending ∧ ∀ g ans, v.answers g = some ans → u.answers g = some ans)
    ⟨h, fun _ _ hans => hans⟩ ?_
  rintro u act u' ⟨hu, hkept⟩ - hs
  obtain ⟨hu', hstays⟩ := hu.step hs
  exact ⟨hu', fun g ans hans => hstays g ans (hkept g ans hans)⟩

end Pending

end Service

section Runs

variable {pool : PoolAllocator} {capacity : ℕ} {memory : ℕ → WorkItem} {world : W}
  {s s' : State D W}

/-- **Linearizability.**  When a run that does one thing at a time goes on from `s` to `s'`, a run
of the service goes on from where it has answered just what has been served in `s`, and has accepted
nothing that has not been pushed by then, to where the same is true of `s'`; what it has answered
stays.  So what is submitted after `s` is served after all that has been completed in `s`. -/
theorem linearizable (hpool : pool.WF) (hcapacity : 1 ≤ capacity)
    (h : Reach (step cfg) (OneAtATime cfg) (State.init pool capacity memory world) s)
    (h' : Reach (step cfg) (OneAtATime cfg) s s') (halive : s'.proc ≠ .crashed) :
    ∃ v v', Reach (Service.step cfg) Free (Service.init world) v ∧ Agrees s v ∧
      Reach (Service.step cfg) Free v v' ∧ Agrees s' v' ∧
      ∀ g ans, v.answers g = some ans → v'.answers g = some ans := by
  have hok (t : State D W) (act : Action) (hact : OneAtATime cfg t act) : OneAtATime cfg t act :=
    hact
  have hmay (t : State D W)
      (_ : Reach (step cfg) (OneAtATime cfg) (State.init pool capacity memory world) t)
      (b : Service.Act) (_ : b.Begun t) : True := trivial
  -- the processing thread that calls a null pointer never comes back
  have hbefore : s.proc ≠ .crashed := fun hcrashed => by
    have known (t : State D W) (ht : Reach (step cfg) (OneAtATime cfg) s t) : ControlInv t :=
      (orderly_of_reach hpool hcapacity (h.trans ht)).serial.accounted.control
    exact halive (h'.invariant_of (I := fun t => t.proc = .crashed) known hcrashed
      fun _ _ _ hctl hpc _ hs => crashed_stays hctl hs hpc)
  obtain ⟨v, hv, hrel⟩ := mirrors_run hpool hcapacity hok hmay .refl (Or.inr mirrors_init) h
  obtain ⟨v', hv', hrel'⟩ := mirrors_run hpool hcapacity hok hmay h hrel h'
  exact ⟨v, v', hv, (hrel.resolve_left hbefore).agrees, hv', (hrel'.resolve_left halive).agrees,
    (((Service.Pending.init world).run hv).1.run hv').2⟩

end Runs

/-- A file is truncated, and looked for only then. -/
theorem linearizable_write :
    ∃ s s' v v', Reach (step writingConfig) (OneAtATime writingConfig) smallInit s ∧
      Reach (step writingConfig) (OneAtATime writingConfig) s s' ∧
      Reach (Service.step writingConfig) Free v v' ∧
      (v.answers 0).isSome = true ∧ v.answers 1 = none ∧
      v'.answers 0 = v.answers 0 ∧ (v'.answers 1).isSome = true := by
  obtain ⟨s, hs, hp⟩ := @Reach.of_guardedRun_any _ _ (step writingConfig)
    (OneAtATime writingConfig) smallInit
    (fun s act => decide (OneAtATime writingConfig s act)) (fun _ _ => of_decide_eq_true)
    (mountsRoot ++ submits 0 ⟨.writeFile none 0, [slash, 97], none⟩ 18 ++
      List.replicate 11 .proc)
    (fun s => decide (Event.executed 0 ∈ s.log ∧ s.proc.hand = .free ∧ Event.executed 1 ∉ s.log) &&
      (guardedRun (step writingConfig) (fun s act => decide (OneAtATime writingConfig s act)) s
        (submits 1 ⟨.fileExists, [slash, 97], none⟩ 14 ++ List.replicate 14 Action.proc)).any
          fun s' : State Unit Unit => decide (Event.executed 1 ∈ s'.log ∧ s'.proc.hand = .free))
    (by decide +kernel)
  rw [Bool.and_eq_true, decide_eq_true_eq] at hp
  obtain ⟨⟨hdone, hhand, hnot⟩, hp⟩ := hp
  obtain ⟨s', hs', hp'⟩ := Reach.of_guardedRun_any (fun _ _ => of_decide_eq_true) hp
  rw [decide_eq_true_eq] at hp'
  obtain ⟨v, v', -, hagrees, hv, hagrees', hstays⟩ := linearizable
    (PoolAllocator.wf_new 2 (by decide) (by decide)) (by decide) hs hs'
    (fun hpc => by rw [hpc] at hp'; cases hp'.2)
  have hsome := (hagrees.answered 0).mpr (Or.inl hdone)
  obtain ⟨ans, hans⟩ := Option.isSome_iff_exists.mp hsome
  refine ⟨s, s', v, v', hs, hs', hv, hsome, ?_, (hstays 0 ans hans).trans hans.symm,
    (hagrees'.answered 1).mpr (Or.inl hp'.1)⟩
  rw [← Option.not_isSome_iff_eq_none, hagrees.answered]
  rintro (hev | ⟨p, hpc, -⟩)
  · exact hnot hev
  · rw [hpc] at hhand
    cases hhand

end LaminaFS
