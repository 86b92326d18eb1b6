/-
# `FileContext::normalizePath` inside its buffer

The normaliser once more, statement for statement, with every access to the buffer and every
`uint32_t` position checked: a run that touches a byte outside the buffer, lets a position wrap
or go below 0, overwrites an input byte that is not read yet, or goes on for longer than its
bound on rounds ends in `none`.  The main result, `normalizeChecked_eq`, says that no run does,
and that the checks change nothing.
-/
import LaminaFS.Path.Reference

namespace LaminaFS

namespace Checked

open NormalizePath (Cursor)

/-- `path[i]`, inside the buffer. -/
def load (path : List UInt8) (i : ℕ) : Option UInt8 := path[i]?

/-- `path[i] = b`, inside the buffer. -/
def store (path : List UInt8) (i : ℕ) (b : UInt8) : Option (List UInt8) :=
  if i < path.length then some (path.set i b) else none

/-- `pos + k` as an `uint32_t` that does not wrap. -/
def add (pos k : ℕ) : Option ℕ := if pos + k < 2 ^ 32 then some (pos + k) else none

/-- `pos - 1`, not below 0. -/
def pred : ℕ → Option ℕ
  | 0 => none
  | pos + 1 => some pos

/-- `strlen`, with the NUL inside the buffer. -/
def strlen : List UInt8 → Option ℕ
  | [] => none
  | b :: path => if b = 0 then some 0 else (strlen path).map (· + 1)

/-- The positions are in order and inside the buffer, and no byte of the input that is not read
yet has been overwritten. -/
def Intact (input path : List UInt8) (c : Cursor) : Prop :=
  c.writePos ≤ c.readPos ∧ c.readPos < input.length ∧
    path.drop c.readPos = input.drop c.readPos

instance (input path : List UInt8) (c : Cursor) : Decidable (Intact input path c) :=
  inferInstanceAs (Decidable (_ ∧ _ ∧ _))

/-- `while (writePos > 0 && path[writePos - 1] != '/') --writePos;` -/
def dropComponent (path : List UInt8) : ℕ → ℕ → Option ℕ
  | 0, _ => none
  | rounds + 1, writePos =>
    if 0 < writePos then do
      let b ← load path (← pred writePos)
      if b ≠ slash then dropComponent path rounds (← pred writePos) else some writePos
    else some writePos

/-- One round of the `do ... while (found)` loop; a byte is read only where the tests before it
have not decided. -/
def skipOnce (path : List UInt8) (c : Cursor) : Option (Option Cursor) := do
  if (← load path c.readPos) = slash then
    let b₁ ← load path (← add c.readPos 1)
    if b₁ = slash then
      return some ⟨c.writePos, ← add c.readPos 1⟩
    else if b₁ = dot then
      let b₂ ← load path (← add c.readPos 2)
      let parent ←
        if b₂ = dot then do
          let b₃ ← load path (← add c.readPos 3)
          pure (decide (b₃ = 0 ∨ b₃ = slash))
        else pure false
      if parent then
        let readPos ← add c.readPos 3
        let writePos ← dropComponent path (path.length + 1) c.writePos
        let writePos ← if writePos ≠ 0 then pred writePos else pure writePos
        return some ⟨writePos, readPos⟩
      else if b₂ = slash ∨ b₂ = 0 then
        return some ⟨c.writePos, ← add c.readPos 2⟩
      else return none
    else return none
  else return none

/-- The `do ... while (found)` loop. -/
def skip (input path : List UInt8) : ℕ → Cursor → Option Cursor
  | 0, _ => none
  | rounds + 1, c =>
    if Intact input path c then do
      match ← skipOnce path c with
      | some c' => skip input path rounds c'
      | none => some c
    else none

/-- `while (writePos < inputLen)`. -/
def copyLoop (input : List UInt8) (inputLen : ℕ) :
    ℕ → List UInt8 → Cursor → Option (List UInt8 × Cursor)
  | 0, _, _ => none
  | rounds + 1, path, c =>
    if ¬Intact input path c then none
    else if c.writePos < inputLen then do
      let c ← skip input path (path.length + 1) c
      let path ← store path c.writePos (← load path c.readPos)
      if (← load path c.writePos) = 0 then some (path, c)
      else copyLoop input inputLen rounds path ⟨← add c.writePos 1, ← add c.readPos 1⟩
    else some (path, c)

/-- The end of `normalizePath`: the trailing slash and the root slash. -/
def fixup (inputLen : ℕ) (path : List UInt8) (c : Cursor) : Option (List UInt8) := do
  let path ←
    if 1 < c.writePos then do
      let b ← load path (← pred c.writePos)
      if b = slash then store path (← pred c.writePos) 0 else pure path
    else pure path
  if (← load path 0) = 0 ∧ 1 ≤ inputLen then
    store (← store path 0 slash) 1 0
  else return path

end Checked

open Checked in
/-- `FileContext::normalizePath` on the buffer, checked. -/
def normalizeChecked (path : List UInt8) : Option (List UInt8) := do
  -- `static_cast<uint32_t>`
  let inputLen ← add (← Checked.strlen path) 0
  let r ← Checked.copyLoop path inputLen (path.length + 1) path ⟨0, 0⟩
  Checked.fixup inputLen r.1 r.2

namespace Checked

open NormalizePath (Cursor Holds Copies skipOnceL)

variable {input path out inp s : List UInt8} {c : Cursor}

/-! ### The accesses succeed -/

lemma load_eq {i : ℕ} (h : i < path.length) : load path i = some (byteAt path i) := by
  rw [load, byteAt, List.getD_eq_getElem?_getD, List.getElem?_eq_getElem h]
  rfl

lemma store_eq {i : ℕ} {b : UInt8} (h : i < path.length) :
    store path i b = some (path.set i b) := if_pos h

lemma add_eq {pos k : ℕ} (h : pos + k < 2 ^ 32) : add pos k = some (u32 (pos + k)) := by
  rw [add, if_pos h, u32_of_lt h]

lemma load_read (h : Holds path c out inp) {k : ℕ} (hk : k ≤ inp.length) :
    load path (c.readPos + k) = some (byteAt inp k) := by
  have hlen := h.length_eq
  rw [load_eq (by omega), h.byteAt_read]

lemma add_read (h : Holds path c out inp) {k : ℕ} (hk : k ≤ inp.length) :
    add c.readPos k = some (c.readPos + k) := by
  have hlen := h.length_eq
  have hshort := h.short
  rw [add, if_pos (by omega)]

lemma strlen_eq (h0 : (0 : UInt8) ∉ s) : strlen (s ++ [0]) = some s.length := by
  induction s with
  | nil => rfl
  | cons b s ih =>
    simp only [List.mem_cons, not_or] at h0
    rw [List.cons_append, strlen, if_neg (Ne.symm h0.1), ih h0.2]
    rfl

lemma dropComponent_eq {rounds w : ℕ} (hw : w ≤ path.length) (hr : w < rounds) :
    dropComponent path rounds w = some (NormalizePath.dropComponent path w) := by
  induction rounds generalizing w with
  | zero => omega
  | succ rounds ih =>
    cases w with
    | zero => rfl
    | succ w =>
      rw [dropComponent, if_pos (Nat.succ_pos w), NormalizePath.dropComponent]
      simp only [pred, load_eq (show w < path.length by omega), Option.bind_eq_bind,
        Option.bind_some]
      by_cases hs : byteAt path w = slash
      · rw [if_neg (by simp [hs]), if_pos hs]
      · rw [if_pos hs, if_neg hs]
        exact ih (by omega) (by omega)

/-- The positions of a buffer that holds the unread rest `inp` of the string are intact. -/
lemma intact_of_holds (h : Holds path c out inp) (hinp : inp <:+ s)
    (hlen : path.length = s.length + 1) : Intact (s ++ [0]) path c := by
  have hpath := h.length_eq
  obtain ⟨read, rfl⟩ := hinp
  rw [List.length_append] at hlen
  refine ⟨h.le, by simp; omega, ?_⟩
  rw [h.inp_eq, List.append_assoc, List.drop_left' (by omega)]

/-- A round of the checked inner loop is one of the unchecked one. -/
lemma skipOnce_eq (h : Holds path c out inp) :
    skipOnce path c = some (NormalizePath.skipOnce path c) := by
  have hread := fun {k} => @load_read _ _ _ _ h k
  have hadd := fun {k} => @add_read _ _ _ _ h k
  have hbyte := h.byteAt_read
  have hu := fun {k} => @Holds.u32_read _ _ _ _ h k
  -- the bytes that are not NUL are all inside the buffer, and so is the one behind them
  have h0 : load path c.readPos = some (byteAt inp 0) := hread (Nat.zero_le _)
  have hb0 : byteAt path c.readPos = byteAt inp 0 := hbyte 0
  unfold skipOnce NormalizePath.skipOnce
  simp only [h0, hb0, Option.bind_eq_bind, Option.bind_some]
  by_cases hslash : byteAt inp 0 = slash
  · have hl0 : 0 < inp.length := NormalizePath.lt_length_of_byteAt (by rw [hslash]; decide)
    simp only [if_pos hslash, hadd hl0, hu hl0, Option.bind_some, hread hl0, hbyte]
    by_cases hslash₁ : byteAt inp 1 = slash
    · simp only [if_pos hslash₁]
      rfl
    · simp only [if_neg hslash₁]
      by_cases hdot : byteAt inp 1 = dot
      · have hl1 : 1 < inp.length := NormalizePath.lt_length_of_byteAt (by rw [hdot]; decide)
        simp only [if_pos hdot, hadd hl1, hu hl1, Option.bind_some, hread hl1, hbyte]
        by_cases hdot₂ : byteAt inp 2 = dot
        · -- the fourth byte is looked at behind two dots only
          have hl2 : 2 < inp.length :=
            NormalizePath.lt_length_of_byteAt (by rw [hdot₂]; decide)
          simp only [hadd hl2, hu hl2, Option.bind_some, hread hl2, hbyte, hdot₂, true_and,
            pure, decide_eq_true_eq]
          by_cases hend : byteAt inp 3 = 0 ∨ byteAt inp 3 = slash
          · have hw : c.writePos ≤ path.length := by
              have := h.le
              have := h.length_eq
              omega
            simp only [if_pos hend, dropComponent_eq hw (Nat.lt_succ_of_le hw),
              Option.bind_some, NormalizePath.parentPos]
            cases NormalizePath.dropComponent path c.writePos <;> rfl
          · simp only [if_neg hend]
            rfl
        · simp only [hdot₂, false_and, pure, Option.bind_some, if_false, Bool.false_eq_true]
          by_cases hthis : byteAt inp 2 = slash ∨ byteAt inp 2 = 0
          · simp only [if_pos hthis]
          · simp only [if_neg hthis]
      · simp only [if_neg hdot]
        rfl
  · simp only [if_neg hslash]
    rfl

/-! ### The loops -/

/-- The checked inner loop ends where the unchecked one does, at a rest of the input that
starts with no component to skip. -/
lemma skip_eq {rounds : ℕ} (h : Holds path c out inp) (hinp : inp <:+ s)
    (hlen : path.length = s.length + 1) (hr : inp.length < rounds) :
    ∃ out' inp', Holds path (NormalizePath.skip path path.length c) out' inp' ∧ inp' <:+ inp ∧
      skip (s ++ [0]) path rounds c = some (NormalizePath.skip path path.length c) := by
  induction rounds generalizing c out inp with
  | zero => omega
  | succ rounds ih =>
    rw [skip, if_pos (intact_of_holds h hinp hlen), skipOnce_eq h]
    cases hs : skipOnceL out inp with
    | none =>
      have hnone := NormalizePath.skipOnce_none h hs
      have hstay : NormalizePath.skip path path.length c = c := by
        rw [hlen, NormalizePath.skip, hnone]
      rw [hstay, hnone]
      exact ⟨out, inp, h, List.suffix_refl _, rfl⟩
    | some r =>
      obtain ⟨c', hc', h', hlt⟩ := NormalizePath.skipOnce_some h hs
      have hsuffix : r.2 <:+ inp := NormalizePath.skipOnceL_suffix hs
      rw [NormalizePath.skip_of_some h hc' h', hc']
      obtain ⟨out', inp', hh, hinp', heq⟩ := ih h' (hsuffix.trans hinp) (by omega)
      exact ⟨out', inp', hh, hinp'.trans hsuffix, heq⟩

/-- The checked outer loop ends as the unchecked one does. -/
lemma copyLoop_eq {rounds : ℕ} (h : Holds path c out inp) (hinp : inp <:+ s)
    (hlen : path.length = s.length + 1) (hr : inp.length < rounds) :
    copyLoop (s ++ [0]) s.length rounds path c =
      some (NormalizePath.copyLoop s.length rounds path c) := by
  induction rounds generalizing path c out inp with
  | zero => omega
  | succ rounds ih =>
    rw [copyLoop, if_neg (not_not_intro (intact_of_holds h hinp hlen)), NormalizePath.copyLoop]
    by_cases hw : c.writePos < s.length
    · have hpath := h.length_eq
      obtain ⟨out', inp', h', hsuffix, hskip⟩ :=
        skip_eq h hinp hlen (show inp.length < path.length + 1 by omega)
      rw [if_pos hw, if_pos hw]
      generalize NormalizePath.skip path path.length c = c' at h' hskip
      have hpath' := h'.length_eq
      have hle := h'.le
      have hshort := h'.short
      -- the place that is written to is not behind the one that is read
      have hwrite : c'.writePos < path.length := by omega
      have hget : load (path.set c'.writePos (byteAt path c'.readPos)) c'.writePos =
          some (byteAt (path.set c'.writePos (byteAt path c'.readPos)) c'.writePos) :=
        load_eq (by rwa [List.length_set])
      simp only [hskip, Option.bind_eq_bind, Option.bind_some,
        load_eq (show c'.readPos < path.length by omega), store_eq hwrite, hget]
      have hself := NormalizePath.byteAt_set_self (b := byteAt path c'.readPos) hwrite
      rw [hself]
      have hbyte : byteAt path c'.readPos = byteAt inp' 0 := h'.byteAt_read 0
      by_cases hnul : byteAt path c'.readPos = 0
      · rw [if_pos hnul, if_pos hnul]
      · rw [if_neg hnul, if_neg hnul]
        cases inp' with
        | nil => exact absurd hbyte hnul
        | cons b inp' =>
          have hb : byteAt path c'.readPos = b := hbyte
          rw [List.length_cons] at hpath'
          rw [add_eq (by omega), add_eq (by omega), hb]
          simp only [Option.bind_some]
          rw [u32_of_lt (by omega), u32_of_lt (by omega)]
          have hlt : inp'.length < rounds := by
            have := hsuffix.length_le
            rw [List.length_cons] at this
            omega
          exact ih h'.write (((List.suffix_cons b inp').trans hsuffix).trans hinp)
            (by rw [List.length_set, hlen]) hlt
    · -- the loop ends
      rw [if_neg hw, if_neg hw]

lemma rootSlash_eq {inputLen : ℕ} (hlen : path.length = inputLen + 1) :
    (do
      if (← load path 0) = 0 ∧ 1 ≤ inputLen then
        store (← store path 0 slash) 1 0
      else return path) =
      some (if byteAt path 0 = 0 ∧ 1 ≤ inputLen then (path.set 0 slash).set 1 0 else path) := by
  rw [load_eq (show 0 < path.length by omega)]
  simp only [Option.bind_eq_bind, Option.bind_some]
  by_cases hroot : byteAt path 0 = 0 ∧ 1 ≤ inputLen
  · have hone : 1 < (path.set 0 slash).length := by
      rw [List.length_set]
      omega
    rw [if_pos hroot, if_pos hroot, store_eq (by omega), Option.bind_some, store_eq hone]
  · rw [if_neg hroot, if_neg hroot]
    rfl

lemma fixup_eq {inputLen : ℕ} (hlen : path.length = inputLen + 1)
    (hw : c.writePos ≤ inputLen) :
    fixup inputLen path c = some (NormalizePath.fixup inputLen path c) := by
  unfold fixup NormalizePath.fixup
  dsimp only
  by_cases h1 : 1 < c.writePos
  · obtain ⟨w, hwrite⟩ : ∃ w, c.writePos = w + 1 := ⟨c.writePos - 1, by omega⟩
    have hwlen : w < path.length := by omega
    have hpred : pred (w + 1) = some w := rfl
    rw [if_pos h1]
    rw [hwrite] at h1 ⊢
    simp only [hpred, Option.bind_eq_bind, Option.bind_some, load_eq hwlen,
      Nat.add_sub_cancel, h1, true_and]
    by_cases hs : byteAt path w = slash
    · rw [if_pos hs, if_pos hs, store_eq hwlen]
      exact rootSlash_eq (by rw [List.length_set, hlen])
    · rw [if_neg hs, if_neg hs]
      exact rootSlash_eq hlen
  · have hno : ¬(1 < c.writePos ∧ byteAt path (c.writePos - 1) = slash) := fun h => h1 h.1
    rw [if_neg h1, if_neg hno]
    exact rootSlash_eq hlen

end Checked

open Checked in
/-- **Safety.**  On the buffer of a string and its NUL, every run of the checked normaliser
comes to its end, with the result of the unchecked one: a string no longer than the old one,
closed by a NUL inside the buffer. -/
theorem normalizeChecked_eq {s : CString} (h0 : (0 : UInt8) ∉ s) (hs : s.length < 2 ^ 32) :
    normalizeChecked (s ++ [0]) = some (normalizeBuffer (s ++ [0])) ∧
      (normalizePath s).length ≤ s.length ∧
      ∃ rest, normalizeBuffer (s ++ [0]) = normalizePath s ++ 0 :: rest ∧
        (normalizeBuffer (s ++ [0])).length = s.length + 1 := by
  refine ⟨?_, length_normalizePath_le h0 hs, normalizeBuffer_eq h0 hs⟩
  have hlen : (s ++ [0]).length = s.length + 1 := by simp
  have hholds := NormalizePath.Holds.start h0 hs
  have hcopy := copyLoop_eq hholds (List.suffix_refl s) hlen
    (show s.length < (s ++ [0]).length + 1 by omega)
  obtain ⟨res, hres, -⟩ := copies_resolve h0
  have hfin := NormalizePath.copyLoop_finished hres hholds
    (show s.length < (s ++ [0]).length + 1 by omega)
  rw [hlen, Nat.add_sub_cancel] at hfin
  have hfix := fixup_eq hfin.length_eq (by rw [hfin.write_eq]; exact Nat.le_of_lt_succ hfin.room)
  rw [normalizeChecked, normalizeBuffer, Checked.strlen_eq h0,
    NormalizePath.strlen_append_nul h0]
  simp only [Option.bind_eq_bind, Option.bind_some, add_eq (show s.length + 0 < 2 ^ 32 from hs),
    Nat.add_zero, u32_of_lt hs, hcopy]
  rw [hlen]
  exact hfix

/-- The string `"/../a//"`. -/
theorem normalizeChecked_eq_parent :
    normalizeChecked ([slash, dot, dot, slash, 97, slash, slash] ++ [0]) =
        some (normalizeBuffer ([slash, dot, dot, slash, 97, slash, slash] ++ [0])) ∧
      (normalizePath [slash, dot, dot, slash, 97, slash, slash]).length ≤ 7 ∧
      ∃ rest, normalizeBuffer ([slash, dot, dot, slash, 97, slash, slash] ++ [0]) =
          normalizePath [slash, dot, dot, slash, 97, slash, slash] ++ 0 :: rest ∧
        (normalizeBuffer ([slash, dot, dot, slash, 97, slash, slash] ++ [0])).length = 8 :=
  normalizeChecked_eq (by decide) (by decide)

end LaminaFS
