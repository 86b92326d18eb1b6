/-
# First posted, first completed

The worker of `Lib.Handoff` fetches from the front of a queue that the agents append to, and
fetches nothing before it has completed what it has in its hand.  So it completes the
submissions in the order in which they have been posted.
-/
import LaminaFS.Lib.Handoff

namespace Handoff

open Relation

variable {ι : Type*} {l l' : Ledger ι} {g h : ℕ}

namespace Stage

/-- The worker has fetched the submission. -/
def isFetched : Stage → Bool
  | .executing | .completed | .called | .released => true
  | _ => false

variable {st st' : Stage}

lemma Next.isPosted (hnext : st.Next st') (h : st.isPosted = true) : st'.isPosted = true := by
  cases hnext <;> first | rfl | cases h

lemma Next.isDone (hnext : st.Next st') (h : st.isDone = true) : st'.isDone = true := by
  cases hnext <;> first | rfl | cases h

lemma Next.isFetched (hnext : st.Next st') (h : st.isFetched = true) : st'.isFetched = true := by
  cases hnext <;> first | rfl | cases h

/-- What has been posted is in the queue, is executed, or is done. -/
lemma cases_of_isPosted (h : st.isPosted = true) :
    st = .queued ∨ st = .executing ∨ st.isDone = true := by
  cases st <;> simp_all [isPosted, isDone]

end Stage

/-- The submissions in the queue. -/
def Ledger.waiting (l : Ledger ι) : List ℕ := l.queue.map Ptr.submission

/-- The place of a submission in the queue, counted from one at the front. -/
def Ledger.place (l : Ledger ι) (g : ℕ) : ℕ :=
  if g ∈ l.waiting then l.waiting.idxOf g + 1 else 0

/-- The submission `g` comes before `h`: it has been posted, it is before `h` in the queue as
long as both are there, and it is done when `h` has been fetched. -/
structure Ahead (l : Ledger ι) (g h : ℕ) : Prop where
  posted : (l.stage g).isPosted = true
  waits : l.stage g = .queued → l.stage h = .queued → [g, h].Sublist l.waiting
  done : (l.stage h).isFetched = true → (l.stage g).isDone = true

/-- What has been posted is ahead of what has not. -/
lemma Ahead.of_posted (hg : (l.stage g).isPosted = true) (hh : (l.stage h).isPosted = false) :
    Ahead l g h := by
  refine ⟨hg, fun _ hst => ?_, fun hfetched => ?_⟩
  · rw [hst] at hh
    cases hh
  · cases hst : l.stage h <;> rw [hst] at hh hfetched <;> first | cases hh; done | cases hfetched

namespace Inv

/-- No submission is in the queue twice. -/
lemma nodup_waiting (hl : Inv l) : l.waiting.Nodup := by
  refine hl.nodup.map_on fun p hp q hq he => ?_
  exact Ptr.ext (by rw [(hl.queue p hp).1, (hl.queue q hq).1, he]) he

lemma mem_waiting (hl : Inv l) (hst : l.stage g = .queued) : g ∈ l.waiting :=
  List.mem_map.mpr ⟨_, hl.queued g hst, rfl⟩

lemma place_eq_zero (hmem : g ∉ l.waiting) : l.place g = 0 := if_neg hmem

lemma place_pos (hmem : g ∈ l.waiting) : 0 < l.place g := by
  rw [Ledger.place, if_pos hmem]
  exact Nat.succ_pos _

lemma mem_of_place_pos (h : 0 < l.place g) : g ∈ l.waiting := by
  by_contra hmem
  rw [place_eq_zero hmem] at h
  exact Nat.lt_irrefl 0 h

/-- The line moves on when its front is taken away. -/
lemma place_fetch (hl : Inv l) {p : Ptr} (hqueue : l.queue = p :: l'.queue)
    (hmem : g ∈ l.waiting) : l'.place g < l.place g := by
  have hwaiting : l.waiting = p.submission :: l'.waiting := by
    rw [Ledger.waiting, hqueue]
    rfl
  have hnodup := hl.nodup_waiting
  rw [hwaiting, List.nodup_cons] at hnodup
  rw [Ledger.place, Ledger.place, if_pos hmem]
  by_cases hmem' : g ∈ l'.waiting
  · have hne : p.submission ≠ g := fun he => hnodup.1 (he ▸ hmem')
    rw [if_pos hmem', hwaiting, List.idxOf_cons_ne _ hne]
    exact Nat.lt_succ_self _
  · rw [if_neg hmem']
    exact Nat.succ_pos _

section Order

variable [DecidableEq ι]

/-- What a step does to the queue. -/
inductive QueueStep (l l' : Ledger ι) : Prop
  /-- nothing; and nothing comes into it or out of it -/
  | same (hqueue : l'.queue = l.queue) (hqueued : ∀ g, l'.stage g = .queued → l.stage g = .queued)
      (hfetched : ∀ g, (l'.stage g).isFetched = true → (l.stage g).isFetched = true)
  /-- it is appended to -/
  | post (a : ι) (p : Ptr) (hrole : l.role a = .building p) (hqueue : l'.queue = l.queue ++ [p])
      (hstage : l'.stage = Function.update l.stage p.submission .queued)
  /-- its front is taken away -/
  | fetch (p : Ptr) (hhand : l.hand = .free) (hqueue : l.queue = p :: l'.queue)
      (hstage : l'.stage = Function.update l.stage p.submission .executing)

lemma queue_step (hl : Inv l) (hs : Step l l') : QueueStep l l' := by
  -- the stage of one submission moves on, between stages behind or before the queue
  have moved {p : Ptr} {st st' : Stage} (hst : l.stage p.submission = st) (hst' : st' ≠ .queued)
      (hf : st'.isFetched = true → st.isFetched = true) (hqueue : l'.queue = l.queue)
      (hstage : l'.stage = Function.update l.stage p.submission st') : QueueStep l l' := by
    refine .same hqueue (fun g hg => ?_) (fun g hg => ?_) <;> rw [hstage] at hg <;>
      by_cases he : g = p.submission
    · subst he
      rw [Function.update_self] at hg
      exact absurd hg hst'
    · rwa [Function.update_of_ne he] at hg
    · subst he
      rw [Function.update_self] at hg
      rw [hst]
      exact hf hg
    · rwa [Function.update_of_ne he] at hg
  have hfits := hl.hand
  cases hs with
  | take a i w _ _ =>
    exact @moved ⟨i, l.next⟩ _ .building ((hl.born _).mpr (Nat.le_refl _)) (by simp)
      (fun hf => by cases hf) rfl rfl
  | post a p hrole => exact .post a p hrole rfl rfl
  | fetch p queue hhand hqueue => exact .fetch p hhand hqueue rfl
  | agentRelease p hheld hreported =>
    exact moved (hl.told p hheld hreported) (by simp) (fun _ => rfl) rfl rfl
  | finish p hhand =>
    rw [hhand] at hfits
    exact moved hfits.2 (by simp) (fun _ => rfl) rfl rfl
  | call p hhand =>
    rw [hhand] at hfits
    exact moved hfits.2.1 (by simp) (fun _ => rfl) rfl rfl
  | workerRelease p hhand =>
    rw [hhand] at hfits
    exact moved hfits.2 (by simp) (fun _ => rfl) rfl rfl
  | ret | ask | tell | leave | keep | die => exact .same rfl (fun _ hg => hg) (fun _ hg => hg)

/-- **Order, one step.**  What is ahead stays ahead. -/
theorem ahead_step (hl : Inv l) (hs : Step l l') (ha : Ahead l g h) : Ahead l' g h := by
  have hnext := hl.next_of_step hs g
  have hposted : (l'.stage g).isPosted = true := by
    rcases hnext with hsame | hnext
    · rw [hsame]
      exact ha.posted
    · exact hnext.isPosted ha.posted
  have hstays (hdone : (l.stage g).isDone = true) : (l'.stage g).isDone = true := by
    rcases hnext with hsame | hnext
    · rw [hsame]
      exact hdone
    · exact hnext.isDone hdone
  cases hl.queue_step hs with
  | same hqueue hqueued hfetched =>
    refine ⟨hposted, fun hg hh => ?_, fun hf => hstays (ha.done (hfetched h hf))⟩
    rw [Ledger.waiting, hqueue]
    exact ha.waits (hqueued g hg) (hqueued h hh)
  | post a p hrole hqueue hstage =>
    have hbuilding : l.stage p.submission = .building := (hl.building a p hrole).2.1
    have hne : g ≠ p.submission := fun he => by
      have := ha.posted
      rw [he, hbuilding] at this
      cases this
    have hwaiting : l'.waiting = l.waiting ++ [p.submission] := by
      rw [Ledger.waiting, hqueue, List.map_append]
      rfl
    refine ⟨hposted, fun hg hh => ?_, fun hf => hstays (ha.done ?_)⟩
    · rw [hstage, Function.update_of_ne hne] at hg
      rw [hwaiting]
      by_cases he : h = p.submission
      · -- it gets in line behind `g`
        subst he
        exact (List.singleton_sublist.mpr (hl.mem_waiting hg)).append (List.Sublist.refl _)
      · rw [hstage, Function.update_of_ne he] at hh
        exact (ha.waits hg hh).trans (List.sublist_append_left _ _)
    · by_cases he : h = p.submission
      · rw [hstage, he, Function.update_self] at hf
        cases hf
      · rwa [hstage, Function.update_of_ne he] at hf
  | fetch p hhand hqueue hstage =>
    have hwaiting : l.waiting = p.submission :: l'.waiting := by
      rw [Ledger.waiting, hqueue]
      rfl
    have hnodup := hl.nodup_waiting
    rw [hwaiting, List.nodup_cons] at hnodup
    have hfront : l.stage p.submission = .queued := (hl.queue p (by simp [hqueue])).2
    refine ⟨hposted, fun hg hh => ?_, fun hf => ?_⟩
    · have hne : g ≠ p.submission := fun he => by
        rw [hstage, he, Function.update_self] at hg
        cases hg
      have hne' : h ≠ p.submission := fun he => by
        rw [hstage, he, Function.update_self] at hh
        cases hh
      rw [hstage, Function.update_of_ne hne] at hg
      rw [hstage, Function.update_of_ne hne'] at hh
      have hsub := ha.waits hg hh
      rw [hwaiting] at hsub
      exact hsub.of_cons_of_ne hne
    · by_cases he : h = p.submission
      · subst he
        -- `g` is not behind the front, and not in the hand
        rcases Stage.cases_of_isPosted ha.posted with hst | hst | hdone
        · have hsub := ha.waits hst hfront
          rw [hwaiting] at hsub
          have hmem : p.submission ∈ l'.waiting := by
            cases hsub with
            | cons _ hsub => exact hsub.subset (by simp)
            | cons_cons _ hsub => exact hsub.subset (by simp)
          exact absurd hmem hnodup.1
        · rcases hl.executing g hst with hworking | hdead
          · rw [hhand] at hworking
            cases hworking
          · rw [hhand] at hdead
            cases hdead
        · exact hstays hdone
      · rw [hstage, Function.update_of_ne he] at hf
        exact hstays (ha.done hf)

/-- Nothing gets in line before what has been posted. -/
lemma place_step (hl : Inv l) (hs : Step l l') (hposted : (l.stage g).isPosted = true) :
    l'.place g ≤ l.place g := by
  cases hl.queue_step hs with
  | same hqueue =>
    apply Nat.le_of_eq
    rw [Ledger.place, Ledger.waiting, hqueue]
    rfl
  | post a p hrole hqueue hstage =>
    have hne : g ≠ p.submission := fun he => by
      rw [he, (hl.building a p hrole).2.1] at hposted
      cases hposted
    have hwaiting : l'.waiting = l.waiting ++ [p.submission] := by
      rw [Ledger.waiting, hqueue, List.map_append]
      rfl
    by_cases hmem : g ∈ l.waiting
    · apply Nat.le_of_eq
      rw [Ledger.place, Ledger.place, hwaiting, if_pos (List.mem_append_left _ hmem),
        if_pos hmem, List.idxOf_append_of_mem hmem]
    · have hmem' : g ∉ l'.waiting := by
        rw [hwaiting, List.mem_append, List.mem_singleton, not_or]
        exact ⟨hmem, hne⟩
      rw [place_eq_zero hmem']
      exact Nat.zero_le _
  | fetch p hhand hqueue hstage =>
    by_cases hmem : g ∈ l.waiting
    · exact Nat.le_of_lt (hl.place_fetch hqueue hmem)
    · have hmem' : g ∉ l'.waiting := fun h => hmem (by
        rw [Ledger.waiting, hqueue]
        exact List.mem_cons_of_mem _ h)
      rw [place_eq_zero hmem']
      exact Nat.zero_le _

/-- A move, or none, keeps the order. -/
lemma ahead_reflGen (hl : Inv l) (hs : ReflGen Step l l') (ha : Ahead l g h) : Ahead l' g h := by
  cases hs with
  | refl => exact ha
  | single hs => exact hl.ahead_step hs ha

end Order

end Inv

end Handoff
