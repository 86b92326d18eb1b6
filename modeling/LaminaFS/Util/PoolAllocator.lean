/-
# `util::PoolAllocator`

The pool hands out slots of one block of storage.  Bit `i % 32` of word `i / 32` of the
mask is set while slot `i` is available, and `alloc` takes the lowest set bit.  Pointers are
addresses: slot `i` is at `storage + i * size`, and the null pointer is 0.

Everything outside this module goes through `isFree` and the lemmas on it.
-/
import LaminaFS.Lib.Slots

namespace LaminaFS

/-- The fields of `PoolAllocator<T>`; `size` is `sizeof(T)`. -/
structure PoolAllocator where
  storage : ℕ
  size : ℕ
  capacity : ℕ
  bitmask : List (BitVec 32)
deriving DecidableEq, Repr

namespace PoolAllocator

/-- The bits of the last word, which the capacity need not fill. -/
def partialMask (rem : ℕ) : BitVec 32 :=
  (List.range rem).foldl (fun newBitmask i => newBitmask ||| (1#32 <<< i)) 0

/-- The constructor: all bits below the capacity are set. -/
def new (storage size capacity : ℕ) : PoolAllocator where
  storage := storage
  size := size
  capacity := capacity
  bitmask := List.replicate (capacity / 32) (BitVec.allOnes 32) ++
    if capacity % 32 ≠ 0 then [partialMask (capacity % 32)] else []

/-- `ffs(word) - 1`: the number of the lowest set bit. -/
def lowestBit (word : BitVec 32) : ℕ := (List.range 32).findIdx word.getLsbD

/-- The critical section of `alloc`: the index of the slot taken. -/
def alloc (p : PoolAllocator) : Option ℕ × PoolAllocator :=
  match p.bitmask.findIdx? (· != 0) with
  | none => (none, p)
  | some i =>
    let word := p.bitmask.getD i 0
    let bit := lowestBit word
    (some (i * 32 + bit), { p with bitmask := p.bitmask.set i (word &&& ~~~(1#32 <<< bit)) })

/-- `&_storage[i]`. -/
def address (p : PoolAllocator) (i : ℕ) : ℕ := p.storage + i * p.size

/-- `free`, on the address `v`. -/
def free (p : PoolAllocator) (v : ℕ) : PoolAllocator :=
  if v = 0 ∨ v < p.storage ∨ p.storage + p.capacity * p.size ≤ v then p
  else
    let index := (v - p.storage) / p.size
    let word := p.bitmask.getD (index / 32) 0 ||| (1#32 <<< (index % 32))
    { p with bitmask := p.bitmask.set (index / 32) word }

/-- The bit of slot `i`. -/
def isFree (p : PoolAllocator) (i : ℕ) : Bool :=
  (p.bitmask.getD (i / 32) 0).getLsbD (i % 32)

/-- The invariant of the representation: the storage is a block of objects of positive size,
the mask has a bit for every slot, and no bit beyond the capacity is set. -/
structure WF (p : PoolAllocator) : Prop where
  storage_pos : 0 < p.storage
  size_pos : 0 < p.size
  slot_lt : ∀ i, i < p.capacity → i / 32 < p.bitmask.length
  free_lt : ∀ i, p.isFree i = true → i < p.capacity

variable {p : PoolAllocator}

/-! ### Words -/

lemma getLsbD_partialMask (rem : ℕ) {k : ℕ} (hk : k < 32) :
    (partialMask rem).getLsbD k = decide (k < rem) := by
  induction rem with
  | zero => simp [partialMask]
  | succ n ih =>
    have hfold : partialMask (n + 1) = partialMask n ||| (1#32 <<< n) := by
      simp [partialMask, List.range_succ]
    rw [hfold, BitVec.getLsbD_or, ih, BitVec.getLsbD_shiftLeft, BitVec.getLsbD_one]
    rcases Nat.lt_trichotomy k n with h | h | h
    · simp [h, Nat.lt_succ_of_lt h]
    · simp [h, show n < 32 by omega]
    · simp [show ¬k < n by omega, show ¬k < n + 1 by omega, show k - n ≠ 0 by omega]

lemma lowestBit_spec {word : BitVec 32} (h : word ≠ 0) :
    lowestBit word < 32 ∧ word.getLsbD (lowestBit word) = true ∧
      ∀ k < lowestBit word, word.getLsbD k = false := by
  have hex : ∃ k ∈ List.range 32, word.getLsbD k = true := by
    by_contra hno
    push Not at hno
    refine h (BitVec.eq_of_getLsbD_eq fun i hi => ?_)
    simpa using hno i (List.mem_range.mpr hi)
  have hlt : (List.range 32).findIdx word.getLsbD < (List.range 32).length :=
    List.findIdx_lt_length.mpr hex
  refine ⟨by simpa [lowestBit] using hlt, ?_, fun k hk => ?_⟩
  · have := List.findIdx_getElem (w := hlt)
    simpa only [List.getElem_range, lowestBit] using this
  · have := List.not_of_lt_findIdx hk
    simpa using this

lemma getLsbD_clear (word : BitVec 32) (b k : ℕ) (hk : k < 32) :
    (word &&& ~~~(1#32 <<< b)).getLsbD k = (word.getLsbD k && decide (k ≠ b)) := by
  rw [BitVec.getLsbD_and, BitVec.getLsbD_not, BitVec.getLsbD_shiftLeft, BitVec.getLsbD_one]
  rcases Nat.lt_trichotomy k b with h | h | h
  · simp [hk, h, show k ≠ b by omega]
  · simp [h, show b < 32 by omega]
  · simp [hk, show ¬k < b by omega, show k - b ≠ 0 by omega, show k ≠ b by omega]

lemma getLsbD_setBit (word : BitVec 32) (b k : ℕ) (hk : k < 32) :
    (word ||| (1#32 <<< b)).getLsbD k = (word.getLsbD k || decide (k = b)) := by
  rw [BitVec.getLsbD_or, BitVec.getLsbD_shiftLeft, BitVec.getLsbD_one]
  rcases Nat.lt_trichotomy k b with h | h | h
  · simp [hk, h, show k ≠ b by omega]
  · simp [h, show b < 32 by omega]
  · simp [hk, show ¬k < b by omega, show k - b ≠ 0 by omega, show k ≠ b by omega]

/-- Changing one word changes the bits of its slots only. -/
lemma isFree_set {i : ℕ} (hi : i < p.bitmask.length) (word : BitVec 32) (j : ℕ) :
    isFree { p with bitmask := p.bitmask.set i word } j =
      if j / 32 = i then word.getLsbD (j % 32) else p.isFree j := by
  unfold isFree
  split
  · rename_i h
    simp [List.getD_eq_getElem?_getD, h, hi]
  · rename_i h
    simp [List.getD_eq_getElem?_getD, List.getElem?_set_ne (Ne.symm h)]

/-! ### The operations on the slots -/

lemma isFree_new (storage size capacity i : ℕ) :
    (new storage size capacity).isFree i = decide (i < capacity) := by
  have hk : i % 32 < 32 := Nat.mod_lt _ (by decide)
  unfold isFree new
  rw [List.getD_eq_getElem?_getD]
  rcases Nat.lt_or_ge (i / 32) (capacity / 32) with h | h
  · have hlt : i < capacity := by omega
    rw [List.getElem?_append_left (by simpa using h), List.getElem?_replicate, if_pos h,
      Option.getD_some, BitVec.getLsbD_allOnes]
    simp [hlt, hk]
  · rw [List.getElem?_append_right (by simpa using h), List.length_replicate]
    split
    · rcases Nat.eq_or_lt_of_le h with he | hgt
      · rw [← he, Nat.sub_self, List.getElem?_cons_zero, Option.getD_some,
          getLsbD_partialMask _ hk]
        rw [decide_eq_decide]
        omega
      · rw [List.getElem?_eq_none (by simp; omega)]
        have hge : ¬i < capacity := by omega
        simp [hge]
    · have hge : ¬i < capacity := by omega
      simp [hge]

lemma wf_new {storage size : ℕ} (capacity : ℕ) (hst : 0 < storage) (hsz : 0 < size) :
    (new storage size capacity).WF where
  storage_pos := hst
  size_pos := hsz
  slot_lt i hi := by
    simp only [new] at hi ⊢
    rw [List.length_append, List.length_replicate]
    split
    · simp only [List.length_singleton]
      omega
    · simp only [List.length_nil]
      omega
  free_lt i hi := by
    rw [isFree_new] at hi
    exact of_decide_eq_true hi

lemma alloc_fields (p : PoolAllocator) :
    p.alloc.2.storage = p.storage ∧ p.alloc.2.size = p.size ∧
      p.alloc.2.capacity = p.capacity ∧ p.alloc.2.bitmask.length = p.bitmask.length := by
  unfold alloc
  split
  · exact ⟨rfl, rfl, rfl, rfl⟩
  · exact ⟨rfl, rfl, rfl, List.length_set⟩

lemma alloc_capacity (p : PoolAllocator) : p.alloc.2.capacity = p.capacity :=
  (alloc_fields p).2.2.1

lemma alloc_of_none (h : p.alloc.1 = none) : p.alloc.2 = p := by
  unfold alloc at h ⊢
  split at h
  · rfl
  · cases h

/-- `alloc` fails exactly when no slot is free. -/
lemma alloc_eq_none : p.alloc.1 = none ↔ ∀ i, p.isFree i = false := by
  unfold alloc
  split
  · rename_i h
    refine iff_of_true rfl fun i => ?_
    rw [List.findIdx?_eq_none_iff] at h
    unfold isFree
    rw [List.getD_eq_getElem?_getD]
    cases hw : p.bitmask[i / 32]? with
    | none => simp
    | some w =>
      have := h w (List.mem_of_getElem? hw)
      have hw0 : w = 0 := by simpa using this
      simp [hw0]
  · rename_i i h
    refine iff_of_false (by simp) fun hall => ?_
    rw [List.findIdx?_eq_some_iff_getElem] at h
    obtain ⟨hi, hne, -⟩ := h
    have hspec := @lowestBit_spec p.bitmask[i] (by simpa using hne)
    have := hall (i * 32 + lowestBit p.bitmask[i])
    have hdiv : (i * 32 + lowestBit p.bitmask[i]) / 32 = i := by omega
    have hmod : (i * 32 + lowestBit p.bitmask[i]) % 32 = lowestBit p.bitmask[i] := by omega
    rw [isFree, hdiv, hmod, List.getD_eq_getElem?_getD, List.getElem?_eq_getElem hi] at this
    rw [Option.getD_some, hspec.2.1] at this
    cases this

/-- `alloc` takes the lowest free slot, and only that one. -/
lemma alloc_eq_some {i : ℕ} (h : p.alloc.1 = some i) :
    p.isFree i = true ∧ (∀ j < i, p.isFree j = false) ∧
      ∀ j, p.alloc.2.isFree j = (p.isFree j && decide (j ≠ i)) := by
  unfold alloc at h ⊢
  split at h
  · cases h
  · rename_i n hn
    rw [List.findIdx?_eq_some_iff_getElem] at hn
    obtain ⟨hlt, hne, hbefore⟩ := hn
    obtain ⟨hb, hset, hlow⟩ := @lowestBit_spec p.bitmask[n] (by simpa using hne)
    have hget : p.bitmask.getD n 0 = p.bitmask[n] := by
      simp [List.getD_eq_getElem?_getD, hlt]
    simp only [hget, Option.some.injEq] at h ⊢
    subst h
    have hdiv : (n * 32 + lowestBit p.bitmask[n]) / 32 = n := by omega
    have hmod : (n * 32 + lowestBit p.bitmask[n]) % 32 = lowestBit p.bitmask[n] := by omega
    refine ⟨?_, fun j hj => ?_, fun j => ?_⟩
    · rw [isFree, hdiv, hmod, hget, hset]
    · unfold isFree
      rcases Nat.lt_or_ge (j / 32) n with hj' | hj'
      · have hj'' : j / 32 < p.bitmask.length := by omega
        have hz := hbefore (j / 32) hj'
        rw [List.getD_eq_getElem?_getD, List.getElem?_eq_getElem hj'', Option.getD_some]
        have : p.bitmask[j / 32] = 0 := by simpa using hz
        simp [this]
      · have hjn : j / 32 = n := by omega
        rw [hjn, hget]
        exact hlow _ (by omega)
    · rw [isFree_set hlt]
      split
      · rename_i hj
        rw [getLsbD_clear _ _ _ (Nat.mod_lt _ (by decide)), isFree, hj, hget]
        congr 1
        rw [decide_eq_decide]
        constructor <;> intro hc he <;> apply hc <;> omega
      · rename_i hj
        have : j ≠ n * 32 + lowestBit p.bitmask[n] := by
          intro he
          rw [he] at hj
          exact hj hdiv
        simp [this]

lemma wf_alloc (h : p.WF) : p.alloc.2.WF := by
  obtain ⟨hstorage, hsize, hcapacity, hlength⟩ := alloc_fields p
  refine ⟨hstorage ▸ h.storage_pos, hsize ▸ h.size_pos, fun j hj => ?_, fun j hj => ?_⟩
  · rw [hlength]
    exact h.slot_lt j (hcapacity ▸ hj)
  · rw [hcapacity]
    cases ha : p.alloc.1 with
    | none =>
      rw [alloc_of_none ha] at hj
      exact h.free_lt j hj
    | some i =>
      rw [(alloc_eq_some ha).2.2, Bool.and_eq_true] at hj
      exact h.free_lt j hj.1

lemma free_fields (p : PoolAllocator) (v : ℕ) :
    (p.free v).storage = p.storage ∧ (p.free v).size = p.size ∧
      (p.free v).capacity = p.capacity ∧ (p.free v).bitmask.length = p.bitmask.length := by
  unfold free
  split
  · exact ⟨rfl, rfl, rfl, rfl⟩
  · exact ⟨rfl, rfl, rfl, List.length_set⟩

lemma free_capacity (p : PoolAllocator) (v : ℕ) : (p.free v).capacity = p.capacity :=
  (free_fields p v).2.2.1

/-- `free` does nothing with null and with what is outside the storage. -/
lemma free_of_outside {v : ℕ}
    (h : v = 0 ∨ v < p.storage ∨ p.storage + p.capacity * p.size ≤ v) : p.free v = p :=
  if_pos h

/-- `free` at the address of a slot sets the bit of that slot, and only that one. -/
lemma isFree_free (h : p.WF) {i : ℕ} (hi : i < p.capacity) (j : ℕ) :
    (p.free (p.address i)).isFree j = (p.isFree j || decide (j = i)) := by
  have hsz := h.size_pos
  have hst := h.storage_pos
  have hmul : i * p.size < p.capacity * p.size := Nat.mul_lt_mul_of_pos_right hi hsz
  have hidx : (p.address i - p.storage) / p.size = i := by
    rw [address, Nat.add_sub_cancel_left, Nat.mul_div_cancel _ hsz]
  unfold free
  rw [if_neg (by unfold address; omega)]
  simp only [hidx]
  rw [isFree_set (h.slot_lt i hi)]
  split
  · rename_i hj
    rw [getLsbD_setBit _ _ _ (Nat.mod_lt _ (by decide)), isFree, hj]
    congr 1
    rw [decide_eq_decide]
    constructor <;> intro _ <;> omega
  · rename_i hj
    have : j ≠ i := fun he => hj (by rw [he])
    simp [this]

lemma wf_free (h : p.WF) {i : ℕ} (hi : i < p.capacity) : (p.free (p.address i)).WF := by
  obtain ⟨hstorage, hsize, hcapacity, hlength⟩ := free_fields p (p.address i)
  refine ⟨hstorage ▸ h.storage_pos, hsize ▸ h.size_pos, fun j hj => ?_, fun j hj => ?_⟩
  · rw [hlength]
    exact h.slot_lt j (hcapacity ▸ hj)
  · rw [hcapacity]
    rw [isFree_free h hi, Bool.or_eq_true, decide_eq_true_eq] at hj
    rcases hj with hj | rfl
    · exact h.free_lt j hj
    · exact hi

/-! ### Any sequence of calls -/

/-- The answer to a call, and the pool after it. -/
def call (p : PoolAllocator) : Slots.Call → Option ℕ × PoolAllocator
  | .alloc => (p.alloc.1.map p.address, p.alloc.2)
  | .free v => (none, p.free v)

/-- The argument of `free` is null, a pointer outside the storage or the address of a live
slot. -/
def Frees (p₀ : PoolAllocator) (live : Finset ℕ) : Slots.Call → Prop
  | .alloc => True
  | .free v => v = 0 ∨ v < p₀.storage ∨ p₀.storage + p₀.capacity * p₀.size ≤ v ∨
      ∃ i ∈ live, p₀.address i = v

/-- The pool has the storage of `p₀`, and the slots `live` are taken. -/
structure Represents (p₀ p : PoolAllocator) (live : Finset ℕ) : Prop where
  storage_eq : p.storage = p₀.storage
  size_eq : p.size = p₀.size
  capacity_eq : p.capacity = p₀.capacity
  slot_lt : ∀ i, i < p.capacity → i / 32 < p.bitmask.length
  isFree_iff : ∀ i, p.isFree i = true ↔ i < p.capacity ∧ i ∉ live
  live_lt : ∀ i ∈ live, i < p.capacity

variable {p₀ : PoolAllocator} {live : Finset ℕ}

lemma address_inj (h : 0 < p.size) {i j : ℕ} : p.address i = p.address j ↔ i = j := by
  unfold address
  rw [Nat.add_left_cancel_iff, Nat.mul_left_inj (by omega)]

namespace Represents

lemma wf (h : Represents p₀ p live) (hsize : 0 < p₀.size) (hstorage : 0 < p₀.storage) : p.WF where
  storage_pos := by rw [h.storage_eq]; exact hstorage
  size_pos := by rw [h.size_eq]; exact hsize
  slot_lt := h.slot_lt
  free_lt i hi := ((h.isFree_iff i).mp hi).1

lemma address_eq (h : Represents p₀ p live) : p.address = p₀.address := by
  funext i
  rw [address, address, h.storage_eq, h.size_eq]

lemma isFree_eq_false (h : Represents p₀ p live) {i : ℕ} (hi : i < p.capacity) :
    p.isFree i = false ↔ i ∈ live := by
  rw [← Bool.not_eq_true, h.isFree_iff]
  tauto

lemma alloc_eq (h : Represents p₀ p live) : p.alloc.1 = Slots.lowest p₀.capacity live := by
  rw [← h.capacity_eq]
  cases ha : p.alloc.1 with
  | none =>
    rw [alloc_eq_none] at ha
    exact (Slots.lowest_eq_none.mpr fun i hi => (h.isFree_eq_false hi).mp (ha i)).symm
  | some i =>
    obtain ⟨hfree, hbelow, -⟩ := alloc_eq_some ha
    obtain ⟨hi, hlive⟩ := (h.isFree_iff i).mp hfree
    refine (Slots.lowest_eq_some.mpr ⟨hi, hlive, fun j hj => ?_⟩).symm
    exact (h.isFree_eq_false (by omega)).mp (hbelow j hj)

/-- `alloc` makes the lowest slot that is not live live. -/
lemma alloc (h : Represents p₀ p live) :
    (p.call .alloc).1 = (Slots.call p₀.address p₀.capacity live .alloc).1 ∧
      Represents p₀ (p.call .alloc).2 (Slots.call p₀.address p₀.capacity live .alloc).2 := by
  have halloc := h.alloc_eq
  rw [call, Slots.call, ← halloc]
  cases ha : p.alloc.1 with
  | none => exact ⟨rfl, by rw [alloc_of_none ha]; exact h⟩
  | some i =>
    obtain ⟨hfree, -, hafter⟩ := alloc_eq_some ha
    have hi := ((h.isFree_iff i).mp hfree).1
    obtain ⟨hstorage, hsize, hcapacity, hlength⟩ := alloc_fields p
    refine ⟨congrArg some (congrFun h.address_eq i), ?_⟩
    constructor
    · rw [hstorage, h.storage_eq]
    · rw [hsize, h.size_eq]
    · rw [hcapacity, h.capacity_eq]
    · rw [hcapacity, hlength]
      exact h.slot_lt
    · intro j
      rw [hafter, Bool.and_eq_true, h.isFree_iff, decide_eq_true_eq, hcapacity,
        Finset.mem_insert]
      tauto
    · intro j hj
      rw [hcapacity]
      rcases Finset.mem_insert.mp hj with rfl | hj
      · exact hi
      · exact h.live_lt j hj

/-- `free` gives the slot at the address back, if it is the address of a live slot, and changes
nothing otherwise. -/
lemma free (h : Represents p₀ p live) (hsize : 0 < p₀.size)
    (hstorage : 0 < p₀.capacity → 0 < p₀.storage) {v : ℕ} (hok : Frees p₀ live (.free v)) :
    Represents p₀ (p.free v) (live.filter fun i => p₀.address i ≠ v) := by
  by_cases hlive : ∃ i ∈ live, p₀.address i = v
  · obtain ⟨i, hi, rfl⟩ := hlive
    have hlt := h.live_lt i hi
    have hwf := h.wf hsize (hstorage (by rw [← h.capacity_eq]; omega))
    obtain ⟨hstorage', hsize', hcapacity, hlength⟩ := free_fields p (p₀.address i)
    rw [← h.address_eq] at *
    have hafter := isFree_free hwf hlt
    constructor
    · rw [hstorage', h.storage_eq]
    · rw [hsize', h.size_eq]
    · rw [hcapacity, h.capacity_eq]
    · rw [hcapacity, hlength]
      exact h.slot_lt
    · intro j
      rw [hafter, Bool.or_eq_true, h.isFree_iff, decide_eq_true_eq, hcapacity, Finset.mem_filter,
        Ne, address_inj hwf.size_pos]
      constructor
      · rintro (⟨hj, hj'⟩ | rfl)
        · exact ⟨hj, fun hmem => hj' hmem.1⟩
        · exact ⟨hlt, fun hmem => hmem.2 rfl⟩
      · tauto
    · intro j hj
      rw [hcapacity]
      exact h.live_lt j (Finset.mem_filter.mp hj).1
  · have hsame : live.filter (fun i => p₀.address i ≠ v) = live :=
      Finset.filter_true_of_mem fun i hi he => hlive ⟨i, hi, he⟩
    rw [hsame, free_of_outside]
    · exact h
    · rw [h.storage_eq, h.capacity_eq, h.size_eq]
      rcases hok with hok | hok | hok | hok
      · exact Or.inl hok
      · exact Or.inr (Or.inl hok)
      · exact Or.inr (Or.inr hok)
      · exact absurd hok hlive

end Represents

/-- The new pool has no live slots. -/
lemma represents_new {storage size capacity : ℕ} :
    Represents (new storage size capacity) (new storage size capacity) ∅ where
  storage_eq := rfl
  size_eq := rfl
  capacity_eq := rfl
  slot_lt := (@wf_new 1 1 capacity Nat.one_pos Nat.one_pos).slot_lt
  isFree_iff i := by
    rw [isFree_new, decide_eq_true_eq]
    simp [new]
  live_lt i hi := by cases hi

/-- **The pool allocator is a set of slots.**  Whatever calls are made, `free` only with null,
a pointer outside the storage or the address of a live slot, they are answered as by the set of
live slots: a bit is set exactly for the slots below the capacity that are not live, `alloc`
takes the lowest of them, and `free` gives back the one slot it is called for. -/
theorem run_refines_slots {storage size capacity : ℕ} (hsize : 0 < size)
    (hstorage : 0 < capacity → 0 < storage) {calls : List Slots.Call}
    (hok : Machine.Allowed
      (Slots.call (new storage size capacity).address capacity)
      (Frees (new storage size capacity)) ∅ calls) :
    let p₀ := new storage size capacity
    let p := (Machine.run call p₀ calls).2
    let live := (Machine.run (Slots.call p₀.address capacity) ∅ calls).2
    (Machine.run call p₀ calls).1 = (Machine.run (Slots.call p₀.address capacity) ∅ calls).1 ∧
      (∀ i, p.isFree i = true ↔ i < capacity ∧ i ∉ live) ∧ (∀ i ∈ live, i < capacity) ∧
      (∀ i, p.alloc.1 = some i ↔ i < capacity ∧ i ∉ live ∧ ∀ j < i, j ∈ live) ∧
      (p.alloc.1 = none ↔ ∀ i < capacity, i ∈ live) ∧
      (∀ i, p.alloc.1 = some i → ∀ j, p.alloc.2.isFree j = (p.isFree j && decide (j ≠ i))) ∧
      (∀ i ∈ live, ∀ j, (p.free (p₀.address i)).isFree j = (p.isFree j || decide (j = i))) ∧
      ∀ v, v = 0 ∨ v < storage ∨ storage + capacity * size ≤ v → p.free v = p := by
  intro p₀ p live
  obtain ⟨hanswers, hrep⟩ := Machine.simulate (R := Represents p₀)
    (fun _ _ c hr hfrees => by
      cases c with
      | alloc => exact hr.alloc
      | free v => exact ⟨rfl, hr.free hsize hstorage hfrees⟩) represents_new hok
  have hcapacity : p.capacity = capacity := hrep.capacity_eq
  refine ⟨hanswers, ?_, ?_, fun i => ?_, ?_, fun i hi => (alloc_eq_some hi).2.2,
    fun i hi j => ?_, fun v hv => ?_⟩
  · rw [← hcapacity]
    exact hrep.isFree_iff
  · rw [← hcapacity]
    exact hrep.live_lt
  · rw [hrep.alloc_eq]
    exact Slots.lowest_eq_some
  · rw [hrep.alloc_eq]
    exact Slots.lowest_eq_none
  · have hlt := hrep.live_lt i hi
    have hpos : 0 < capacity := by
      rw [← hcapacity]
      exact Nat.zero_lt_of_lt hlt
    have hwf := hrep.wf hsize (hstorage hpos)
    rw [← hrep.address_eq]
    exact isFree_free hwf hlt j
  · refine free_of_outside ?_
    rw [hcapacity, show p.storage = storage from hrep.storage_eq,
      show p.size = size from hrep.size_eq]
    exact hv

/-- Two slots: both are taken, the first one is given back and taken again. -/
theorem run_refines_slots_two :
    let p₀ := new 16 8 2
    let calls : List Slots.Call := [.alloc, .alloc, .free 16, .free 0, .alloc, .alloc]
    let p := (Machine.run call p₀ calls).2
    let live := (Machine.run (Slots.call p₀.address 2) ∅ calls).2
    (Machine.run call p₀ calls).1 = (Machine.run (Slots.call p₀.address 2) ∅ calls).1 ∧
      (∀ i, p.isFree i = true ↔ i < 2 ∧ i ∉ live) ∧ (∀ i ∈ live, i < 2) ∧
      (∀ i, p.alloc.1 = some i ↔ i < 2 ∧ i ∉ live ∧ ∀ j < i, j ∈ live) ∧
      (p.alloc.1 = none ↔ ∀ i < 2, i ∈ live) ∧
      (∀ i, p.alloc.1 = some i → ∀ j, p.alloc.2.isFree j = (p.isFree j && decide (j ≠ i))) ∧
      (∀ i ∈ live, ∀ j, (p.free (p₀.address i)).isFree j = (p.isFree j || decide (j = i))) ∧
      ∀ v, v = 0 ∨ v < 16 ∨ 16 + 2 * 8 ≤ v → p.free v = p :=
  run_refines_slots (by decide) (by decide)
    ⟨trivial, trivial, Or.inr (Or.inr (Or.inr ⟨0, by decide, rfl⟩)), Or.inl rfl, trivial, trivial,
      trivial⟩

end PoolAllocator

end LaminaFS
