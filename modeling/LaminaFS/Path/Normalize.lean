/-
# `FileContext::normalizePath`

The in-place normaliser, statement for statement.  `path` is the buffer with its
terminating NUL, `writePos` and `readPos` are `uint32_t`, and every loop is a recursion
with a bound on its rounds; the bound is the size of the buffer, which is never reached
(`Copies` below makes no use of it).

The second half reads the loops as a relation on two lists, the output written so far and
the input not read yet.  This is all the correctness proof in `Path.Reference` has to see.
-/
import LaminaFS.SharedTypes

namespace LaminaFS

namespace NormalizePath

/-- The two positions of `normalizePath`. -/
structure Cursor where
  writePos : ℕ
  readPos : ℕ
deriving DecidableEq, Repr

/-- `while (writePos > 0 && path[writePos - 1] != '/') --writePos;` -/
def dropComponent (path : List UInt8) : ℕ → ℕ
  | 0 => 0
  | w + 1 => if byteAt path w = slash then w + 1 else dropComponent path w

/-- The write position after a parent directory: behind the last component and its slash. -/
def parentPos (path : List UInt8) (writePos : ℕ) : ℕ :=
  if dropComponent path writePos ≠ 0 then dropComponent path writePos - 1
  else dropComponent path writePos

/-- One round of the `do ... while (found)` loop; `none` when nothing was found. -/
def skipOnce (path : List UInt8) (c : Cursor) : Option Cursor :=
  if byteAt path c.readPos = slash then
    if byteAt path (u32 (c.readPos + 1)) = slash then
      some ⟨c.writePos, u32 (c.readPos + 1)⟩
    else if byteAt path (u32 (c.readPos + 1)) = dot then
      if byteAt path (u32 (c.readPos + 2)) = dot ∧
          (byteAt path (u32 (c.readPos + 3)) = 0 ∨
            byteAt path (u32 (c.readPos + 3)) = slash) then
        some ⟨parentPos path c.writePos, u32 (c.readPos + 3)⟩
      else if byteAt path (u32 (c.readPos + 2)) = slash ∨
          byteAt path (u32 (c.readPos + 2)) = 0 then
        some ⟨c.writePos, u32 (c.readPos + 2)⟩
      else none
    else none
  else none

/-- The `do ... while (found)` loop. -/
def skip (path : List UInt8) : ℕ → Cursor → Cursor
  | 0, c => c
  | rounds + 1, c =>
    match skipOnce path c with
    | some c' => skip path rounds c'
    | none => c

/-- `while (writePos < inputLen)`. -/
def copyLoop (inputLen : ℕ) : ℕ → List UInt8 → Cursor → List UInt8 × Cursor
  | 0, path, c => (path, c)
  | rounds + 1, path, c =>
    if c.writePos < inputLen then
      let c := skip path path.length c
      let path := path.set c.writePos (byteAt path c.readPos)
      if byteAt path c.writePos = 0 then (path, c)
      else copyLoop inputLen rounds path ⟨u32 (c.writePos + 1), u32 (c.readPos + 1)⟩
    else (path, c)

/-- The end of `normalizePath`: the trailing slash and the root slash. -/
def fixup (inputLen : ℕ) (path : List UInt8) (c : Cursor) : List UInt8 :=
  let path :=
    if 1 < c.writePos ∧ byteAt path (c.writePos - 1) = slash then path.set (c.writePos - 1) 0
    else path
  if byteAt path 0 = 0 ∧ 1 ≤ inputLen then (path.set 0 slash).set 1 0 else path

end NormalizePath

open NormalizePath in
/-- `FileContext::normalizePath` on the buffer. -/
def normalizeBuffer (path : List UInt8) : List UInt8 :=
  let inputLen := u32 (strlen path)
  let r := copyLoop inputLen (path.length + 1) path ⟨0, 0⟩
  fixup inputLen r.1 r.2

/-- The string that `normalizePath` leaves in a buffer holding `path` and its NUL. -/
def normalizePath (path : CString) : CString :=
  (normalizeBuffer (path ++ [0])).takeWhile (· != 0)

namespace NormalizePath

/-! ## The loops on lists -/

/-- The output (last byte first) behind its last component and the slash before it. -/
def parentOut (out : List UInt8) : List UInt8 := (out.dropWhile (· != slash)).tail

/-- One round of the inner loop on the output and the unread input. -/
def skipOnceL (out inp : List UInt8) : Option (List UInt8 × List UInt8) :=
  if byteAt inp 0 = slash then
    if byteAt inp 1 = slash then some (out, inp.drop 1)
    else if byteAt inp 1 = dot then
      if byteAt inp 2 = dot ∧ (byteAt inp 3 = 0 ∨ byteAt inp 3 = slash) then
        some (parentOut out, inp.drop 3)
      else if byteAt inp 2 = slash ∨ byteAt inp 2 = 0 then some (out, inp.drop 2)
      else none
    else none
  else none

lemma skipOnceL_suffix {out inp : List UInt8} {r : List UInt8 × List UInt8}
    (h : skipOnceL out inp = some r) : r.2 <:+ inp := by
  unfold skipOnceL at h
  split_ifs at h <;> cases h <;> exact List.drop_suffix _ _

/-- The whole copying: from the output `out` and the unread input `inp` it ends with the
output of the last argument. -/
inductive Copies : List UInt8 → List UInt8 → List UInt8 → Prop
  | done {out : List UInt8} : Copies out [] out
  | skip {out inp out' inp' res : List UInt8} : skipOnceL out inp = some (out', inp') →
      Copies out' inp' res → Copies out inp res
  | copy {out inp res : List UInt8} {b : UInt8} : skipOnceL out (b :: inp) = none →
      Copies (b :: out) inp res → Copies out (b :: inp) res

/-- The buffer and the positions hold the output `out` and the unread input `inp`: the
output is written before `writePos`, the input stands untouched from `readPos` on. -/
structure Holds (path : List UInt8) (c : Cursor) (out inp : List UInt8) : Prop where
  write_eq : c.writePos = out.length
  out_eq : path.take c.writePos = out.reverse
  inp_eq : path.drop c.readPos = inp ++ [0]
  le : c.writePos ≤ c.readPos
  short : path.length ≤ 2 ^ 32
  nul_free : (0 : UInt8) ∉ inp

namespace Holds

variable {path out inp : List UInt8} {c : Cursor}

lemma length_eq (h : Holds path c out inp) : path.length = c.readPos + inp.length + 1 := by
  have hlen := congrArg List.length h.inp_eq
  simp only [List.length_drop, List.length_append, List.length_singleton] at hlen
  omega

lemma byteAt_read (h : Holds path c out inp) (k : ℕ) :
    byteAt path (c.readPos + k) = byteAt inp k := by
  have hk : (path.drop c.readPos).getD k 0 = (inp ++ [0]).getD k 0 := by rw [h.inp_eq]
  simp only [List.getD_eq_getElem?_getD, List.getElem?_drop] at hk
  rw [byteAt, byteAt, List.getD_eq_getElem?_getD, hk, List.getD_eq_getElem?_getD]
  rcases Nat.lt_trichotomy k inp.length with hlt | heq | hgt
  · rw [List.getElem?_append_left hlt]
  · subst heq
    simp
  · rw [List.getElem?_eq_none (by simp; omega), List.getElem?_eq_none (by omega)]

end Holds

lemma lt_length_of_byteAt {l : List UInt8} {k : ℕ} (h : byteAt l k ≠ 0) : k < l.length := by
  by_contra hk
  have hnone := List.getElem?_eq_none (Nat.le_of_not_lt hk)
  exact h (by simp [byteAt, List.getD_eq_getElem?_getD, hnone])

/-! ### Parent directories -/

lemma take_of_suffix {path out s : List UInt8} (h : path.take out.length = out.reverse)
    (hs : s <:+ out) : path.take s.length = s.reverse := by
  obtain ⟨t, rfl⟩ := hs
  have hle : s.length ≤ (t ++ s).length := by simp
  rw [← Nat.min_eq_left hle, ← List.take_take, h, List.reverse_append,
    List.take_left' (by simp)]

lemma dropComponent_eq {path out : List UInt8} (h : path.take out.length = out.reverse) :
    dropComponent path out.length = (out.dropWhile (· != slash)).length := by
  induction out with
  | nil => rfl
  | cons b out ih =>
    have htail := take_of_suffix h (List.suffix_cons b out)
    have hb : byteAt path out.length = b := by
      have := congrArg (fun l => byteAt l out.length) h
      simpa [byteAt, List.getD_eq_getElem?_getD] using this
    rw [List.length_cons, dropComponent, hb, List.dropWhile_cons]
    by_cases hs : b = slash
    · simp [hs]
    · simp [hs, ih htail]

lemma parentPos_eq {path out : List UInt8} (h : path.take out.length = out.reverse) :
    parentPos path out.length = (parentOut out).length := by
  rw [parentPos, dropComponent_eq h, parentOut, List.length_tail]
  split <;> omega

lemma parentOut_suffix (out : List UInt8) : parentOut out <:+ out :=
  (List.tail_suffix _).trans (List.dropWhile_suffix _)

/-! ### The loops of the source follow the relation -/

lemma Holds.advance {path out inp : List UInt8} {c : Cursor} (h : Holds path c out inp)
    {out' : List UInt8} (hs : out' <:+ out) {k : ℕ} (hk : k ≤ inp.length) :
    Holds path ⟨out'.length, c.readPos + k⟩ out' (inp.drop k) := by
  have hout : path.take out.length = out.reverse := by rw [← h.write_eq, h.out_eq]
  refine ⟨rfl, take_of_suffix hout hs, ?_, ?_, h.short, fun h0 => h.nul_free ?_⟩
  · rw [← List.drop_drop, h.inp_eq, List.drop_append_of_le_length hk]
  · have h₁ := hs.length_le
    have h₂ := h.le
    rw [h.write_eq] at h₂
    show out'.length ≤ c.readPos + k
    omega
  · exact List.mem_of_mem_drop h0

lemma Holds.u32_read {path out inp : List UInt8} {c : Cursor} (h : Holds path c out inp)
    {k : ℕ} (hk : k ≤ inp.length) : u32 (c.readPos + k) = c.readPos + k := by
  have hlen := h.length_eq
  have hshort := h.short
  exact u32_of_lt (by omega)

lemma skipOnce_some {path out inp out' inp' : List UInt8} {c : Cursor}
    (h : Holds path c out inp) (hs : skipOnceL out inp = some (out', inp')) :
    ∃ c', skipOnce path c = some c' ∧ Holds path c' out' inp' ∧
      inp'.length < inp.length := by
  have hout : path.take out.length = out.reverse := by rw [← h.write_eq, h.out_eq]
  have h0 := h.byteAt_read 0
  rw [Nat.add_zero] at h0
  unfold skipOnceL at hs
  split at hs
  · rename_i hslash
    have hl0 : 0 < inp.length := lt_length_of_byteAt (by rw [hslash]; decide)
    have h1 := h.u32_read (show 1 ≤ inp.length by omega)
    unfold skipOnce
    rw [if_pos (h0.trans hslash), h1, h.byteAt_read]
    split at hs
    · -- a second slash
      rename_i hslash₁
      cases hs
      refine ⟨_, if_pos hslash₁, ?_, by simp; omega⟩
      rw [h.write_eq]
      exact h.advance (List.suffix_refl _) (by omega)
    · rename_i hslash₁
      rw [if_neg hslash₁]
      split at hs
      · rename_i hdot
        have hl1 : 1 < inp.length := lt_length_of_byteAt (by rw [hdot]; decide)
        have h2 := h.u32_read (show 2 ≤ inp.length by omega)
        rw [if_pos hdot, h2, h.byteAt_read]
        split at hs
        · -- a parent directory
          rename_i hdotdot
          have hl2 : 2 < inp.length := lt_length_of_byteAt (by rw [hdotdot.1]; decide)
          have h3 := h.u32_read (show 3 ≤ inp.length by omega)
          cases hs
          rw [h3, h.byteAt_read, if_pos hdotdot]
          refine ⟨_, rfl, ?_, by simp; omega⟩
          rw [h.write_eq, parentPos_eq hout]
          exact h.advance (parentOut_suffix out) (by omega)
        · -- this directory
          rename_i hdotdot
          split at hs
          · rename_i hthis
            cases hs
            have hne : ¬(byteAt inp 2 = dot ∧ (byteAt path (u32 (c.readPos + 3)) = 0 ∨
                byteAt path (u32 (c.readPos + 3)) = slash)) := by
              rintro ⟨hd, -⟩
              rw [hd] at hthis
              revert hthis
              decide
            rw [if_neg hne, if_pos hthis]
            refine ⟨_, rfl, ?_, by simp; omega⟩
            rw [h.write_eq]
            exact h.advance (List.suffix_refl _) (by omega)
          · cases hs
      · cases hs
  · cases hs

lemma skipOnce_none {path out inp : List UInt8} {c : Cursor} (h : Holds path c out inp)
    (hs : skipOnceL out inp = none) : skipOnce path c = none := by
  have h0 := h.byteAt_read 0
  rw [Nat.add_zero] at h0
  unfold skipOnceL at hs
  unfold skipOnce
  rw [h0]
  split at hs
  · rename_i hslash
    have hl0 : 0 < inp.length := lt_length_of_byteAt (by rw [hslash]; decide)
    have h1 := h.u32_read (show 1 ≤ inp.length by omega)
    rw [if_pos hslash, h1, h.byteAt_read]
    split at hs
    · cases hs
    · rename_i hslash₁
      rw [if_neg hslash₁]
      split at hs
      · rename_i hdot
        have hl1 : 1 < inp.length := lt_length_of_byteAt (by rw [hdot]; decide)
        have h2 := h.u32_read (show 2 ≤ inp.length by omega)
        rw [if_pos hdot, h2, h.byteAt_read]
        split at hs
        · cases hs
        · rename_i hdotdot
          split at hs
          · cases hs
          · rename_i hthis
            rw [if_neg hthis]
            refine if_neg ?_
            rintro ⟨hd, hr⟩
            have hl2 : 2 < inp.length := lt_length_of_byteAt (by rw [hd]; decide)
            have h3 := h.u32_read (show 3 ≤ inp.length by omega)
            rw [h3, h.byteAt_read] at hr
            exact hdotdot ⟨hd, hr⟩
      · rename_i hdot
        rw [if_neg hdot]
  · rename_i hslash
    rw [if_neg hslash]

/-- The bound on the rounds of the inner loop is not reached: one more round changes
nothing. -/
lemma skip_succ {path out inp : List UInt8} {c : Cursor} (h : Holds path c out inp)
    {rounds : ℕ} (hr : inp.length ≤ rounds) : skip path (rounds + 1) c = skip path rounds c := by
  induction rounds generalizing c out inp with
  | zero =>
    have hnil : inp = [] := List.length_eq_zero_iff.mp (by omega)
    subst hnil
    simp [skip, skipOnce_none h rfl]
  | succ rounds ih =>
    cases hs : skipOnceL out inp with
    | none =>
      rw [skip, skip, skipOnce_none h hs]
    | some r =>
      obtain ⟨c', hc', h', hlt⟩ := skipOnce_some h hs
      rw [skip, skip, hc']
      exact ih h' (by omega)

lemma skip_of_some {path out inp out' inp' : List UInt8} {c c' : Cursor} (h : Holds path c out inp)
    (hc : skipOnce path c = some c') (h' : Holds path c' out' inp') :
    skip path path.length c = skip path path.length c' := by
  have hlen := h.length_eq
  have hlen' := h'.length_eq
  obtain ⟨n, hn⟩ : ∃ n, path.length = n + 1 := ⟨_, hlen⟩
  rw [hn, skip, hc]
  exact (skip_succ h' (by omega)).symm

/-- The copying has ended: the output stands at the start of the buffer, closed by a NUL. -/
structure Finished (path : List UInt8) (c : Cursor) (res : List UInt8) (size : ℕ) : Prop where
  length_eq : path.length = size
  write_eq : c.writePos = res.length
  out_eq : path.take res.length = res.reverse
  closed : byteAt path res.length = 0
  room : res.length < size

lemma byteAt_set_self {path : List UInt8} {i : ℕ} {b : UInt8} (hi : i < path.length) :
    byteAt (path.set i b) i = b := by
  simp [byteAt, List.getD_eq_getElem?_getD, hi]

lemma Holds.write {path out inp : List UInt8} {b : UInt8} {c : Cursor}
    (h : Holds path c out (b :: inp)) :
    Holds (path.set c.writePos b) ⟨c.writePos + 1, c.readPos + 1⟩ (b :: out) inp := by
  have hlen := h.length_eq
  have hle := h.le
  rw [List.length_cons] at hlen
  refine ⟨?_, ?_, ?_, ?_, by simpa using h.short, fun h0 => h.nul_free (by simp [h0])⟩
  · simp [h.write_eq]
  · have hget : (path.set c.writePos b)[c.writePos]? = some b := by
      rw [List.getElem?_set_self (by omega)]
    show (path.set c.writePos b).take (c.writePos + 1) = _
    rw [List.take_add_one, List.take_set_of_le (Nat.le_refl _), h.out_eq, hget,
      List.reverse_cons]
    rfl
  · have hdrop := h.inp_eq
    rw [List.drop_set_of_lt (by show c.writePos < c.readPos + 1; omega),
      ← List.drop_drop, hdrop]
    rfl
  · show c.writePos + 1 ≤ c.readPos + 1
    omega

lemma copyLoop_finished {out inp res : List UInt8} (h : Copies out inp res) :
    ∀ {path : List UInt8} {c : Cursor} {rounds : ℕ}, Holds path c out inp →
      inp.length < rounds →
      Finished (copyLoop (path.length - 1) rounds path c).1
        (copyLoop (path.length - 1) rounds path c).2 res path.length := by
  induction h with
  | @done out =>
    intro path c rounds hh hr
    obtain ⟨rounds, rfl⟩ : ∃ n, rounds = n + 1 := ⟨rounds - 1, by omega⟩
    have hlen := hh.length_eq
    have hle := hh.le
    have hnul : byteAt path c.readPos = 0 := hh.byteAt_read 0
    have hout : path.take out.length = out.reverse := by rw [← hh.write_eq, hh.out_eq]
    rw [List.length_nil] at hlen
    rw [copyLoop]
    split
    · -- the NUL is copied and ends the loop
      have hskip : skip path path.length c = c := by
        rw [show path.length = c.readPos + 1 by omega, skip, skipOnce_none hh rfl]
      have hself := byteAt_set_self (b := 0) (show c.writePos < path.length by omega)
      simp only [hskip, hnul, hself, if_pos]
      refine ⟨by simp, hh.write_eq, ?_, ?_, by rw [← hh.write_eq]; omega⟩
      · rw [← hh.write_eq, List.take_set_of_le (Nat.le_refl _), hh.out_eq]
      · rw [← hh.write_eq]
        exact hself
    · -- the output has become as long as the input, whose NUL still stands
      have hw : c.writePos = c.readPos := by omega
      exact ⟨rfl, hh.write_eq, hout, by rw [← hh.write_eq, hw]; exact hnul,
        by rw [← hh.write_eq]; omega⟩
  | @skip out inp out' inp' res hs _ ih =>
    intro path c rounds hh hr
    obtain ⟨rounds, rfl⟩ : ∃ n, rounds = n + 1 := ⟨rounds - 1, by omega⟩
    obtain ⟨c', hc', hh', hlt⟩ := skipOnce_some hh hs
    have hlen := hh.length_eq
    have hlen' := hh'.length_eq
    have hle := hh.le
    have hw : c'.writePos ≤ c.writePos := by
      rw [hh.write_eq, hh'.write_eq]
      unfold skipOnceL at hs
      split_ifs at hs <;> cases hs
      · exact Nat.le_refl _
      · exact (parentOut_suffix out).length_le
      · exact Nat.le_refl _
    have heq : copyLoop (path.length - 1) (rounds + 1) path c
        = copyLoop (path.length - 1) (rounds + 1) path c' := by
      conv_lhs => rw [copyLoop, if_pos (by omega), skip_of_some hh hc' hh']
      conv_rhs => rw [copyLoop, if_pos (by omega)]
    rw [heq]
    exact ih hh' (by omega)
  | @copy out inp res b hs _ ih =>
    intro path c rounds hh hr
    obtain ⟨rounds, rfl⟩ : ∃ n, rounds = n + 1 := ⟨rounds - 1, by omega⟩
    have hlen := hh.length_eq
    have hle := hh.le
    have hshort := hh.short
    rw [List.length_cons] at hlen hr
    have hskip : skip path path.length c = c := by
      rw [hlen, skip, skipOnce_none hh hs]
    have hb : byteAt path c.readPos = b := hh.byteAt_read 0
    have hb0 : b ≠ 0 := fun h0 => hh.nul_free (by simp [h0])
    have hself := byteAt_set_self (b := b) (show c.writePos < path.length by omega)
    have hstep : copyLoop (path.length - 1) (rounds + 1) path c =
        copyLoop (path.length - 1) rounds (path.set c.writePos b)
          ⟨c.writePos + 1, c.readPos + 1⟩ := by
      rw [copyLoop, if_pos (by omega)]
      simp only [hskip, hb, hself, if_neg hb0]
      rw [u32_of_lt (by omega), u32_of_lt (by omega)]
    have hfin := ih hh.write (show inp.length < rounds by omega)
    rw [List.length_set] at hfin
    rw [hstep]
    exact hfin

lemma length_copyLoop (inputLen rounds : ℕ) (path : List UInt8) (c : Cursor) :
    (copyLoop inputLen rounds path c).1.length = path.length := by
  induction rounds generalizing path c with
  | zero => rfl
  | succ rounds ih =>
    rw [copyLoop]
    split
    · dsimp only
      split
      · exact List.length_set
      · rw [ih]
        exact List.length_set
    · rfl

/-! ### The end of the function -/

/-- What `fixup` makes of the output `res` (last byte first). -/
def finishOut (inputLen : ℕ) (res : List UInt8) : CString :=
  let res := if 1 < res.length ∧ res.head? = some slash then res.tail else res
  if res = [] ∧ 1 ≤ inputLen then [slash] else res.reverse

/-- The string in a buffer whose start is `out`, closed by a NUL. -/
lemma takeWhile_of_closed {path out : List UInt8} (h : path.take out.length = out)
    (hc : byteAt path out.length = 0) (h0 : (0 : UInt8) ∉ out) (hl : out.length < path.length) :
    path.takeWhile (· != 0) = out := by
  have hsplit : path = out ++ 0 :: path.drop (out.length + 1) := by
    conv_lhs => rw [← List.take_append_drop out.length path, h, List.drop_eq_getElem_cons hl]
    rw [byteAt, List.getD_eq_getElem?_getD, List.getElem?_eq_getElem hl] at hc
    rw [show path[out.length] = 0 from hc]
  rw [hsplit, List.takeWhile_append_of_pos (by
    intro b hb
    have : b ≠ 0 := fun h => h0 (h ▸ hb)
    simpa using this)]
  simp

lemma strlen_append_nul {s : CString} (h0 : (0 : UInt8) ∉ s) : strlen (s ++ [0]) = s.length := by
  rw [strlen, @takeWhile_of_closed _ s (by simp) (by simp [byteAt]) h0 (by simp)]

/-- Before the first round nothing is written and nothing is read. -/
lemma Holds.start {s : CString} (h0 : (0 : UInt8) ∉ s) (hs : s.length < 2 ^ 32) :
    Holds (s ++ [0]) ⟨0, 0⟩ [] s :=
  ⟨rfl, by simp, by simp, Nat.le_refl _, by simp; omega, h0⟩

lemma fixup_eq {path res : List UInt8} {c : Cursor} {inputLen : ℕ}
    (h : Finished path c res (inputLen + 1)) (h0 : (0 : UInt8) ∉ res) :
    (fixup inputLen path c).takeWhile (· != 0) = finishOut inputLen res := by
  have hlen := h.length_eq
  have hroom := h.room
  -- after the trailing slash: the buffer holds `res'`
  obtain ⟨path', res', hp, hr, hlen', hout', hclosed', hroom', h0'⟩ :
      ∃ path' res', (if 1 < c.writePos ∧ byteAt path (c.writePos - 1) = slash
          then path.set (c.writePos - 1) 0 else path) = path' ∧
        (if 1 < res.length ∧ res.head? = some slash then res.tail else res) = res' ∧
        path'.length = inputLen + 1 ∧ path'.take res'.length = res'.reverse ∧
        byteAt path' res'.length = 0 ∧ res'.length < inputLen + 1 ∧ (0 : UInt8) ∉ res' := by
    refine ⟨_, _, rfl, rfl, ?_⟩
    rw [h.write_eq]
    cases res with
    | nil =>
      have hclosed := h.closed
      simp only [List.length_nil] at hclosed
      simp [hlen, hclosed]
    | cons b res =>
      have hout := h.out_eq
      have htail := take_of_suffix hout (List.suffix_cons b res)
      have hb : byteAt path res.length = b := by
        have := congrArg (fun l => byteAt l res.length) hout
        simpa [byteAt, List.getD_eq_getElem?_getD] using this
      simp only [List.length_cons] at hroom
      simp only [List.length_cons, Nat.add_sub_cancel, hb, List.head?_cons, Option.some.injEq,
        List.tail_cons]
      split
      · refine ⟨by simp [hlen], ?_, byteAt_set_self (by omega), by omega,
          fun hm => h0 (List.mem_cons_of_mem _ hm)⟩
        rw [List.take_set_of_le (Nat.le_refl _), htail]
      · exact ⟨hlen, hout, h.closed, by simpa using hroom, h0⟩
  unfold fixup finishOut
  simp only [hp, hr]
  cases res' with
  | nil =>
    simp only [List.length_nil] at hclosed'
    by_cases hi : 1 ≤ inputLen
    · rw [if_pos ⟨hclosed', hi⟩, if_pos ⟨rfl, hi⟩]
      obtain ⟨x, y, rest, rfl⟩ : ∃ x y rest, path' = x :: y :: rest := by
        match path', hlen' with
        | x :: y :: rest, _ => exact ⟨x, y, rest, rfl⟩
        | [_], hl => simp at hl; omega
      simp [slash]
    · rw [if_neg (fun hc => hi hc.2), if_neg (fun hc => hi hc.2)]
      exact takeWhile_of_closed (by simp) hclosed' (by simp) (by simp; omega)
  | cons b res' =>
    have hne : byteAt path' 0 ≠ 0 := by
      intro hz
      have := congrArg (fun l => byteAt l 0) hout'
      simp only [byteAt, List.getD_eq_getElem?_getD, List.length_cons,
        List.getElem?_take_of_lt (Nat.succ_pos _)] at this hz
      rw [hz] at this
      have hmem : (0 : UInt8) ∈ (b :: res').reverse := by
        cases hrev : (b :: res').reverse with
        | nil => simp at hrev
        | cons x xs =>
          rw [hrev] at this
          simp only [List.getElem?_cons_zero, Option.getD_some] at this
          simp [this]
      exact h0' (List.mem_reverse.mp hmem)
    rw [if_neg (fun hc => hne hc.1), if_neg (fun hc => by simp at hc)]
    refine takeWhile_of_closed ?_ ?_ ?_ ?_
    · rw [List.length_reverse, hout']
    · rw [List.length_reverse, hclosed']
    · rwa [List.mem_reverse]
    · rw [List.length_reverse]
      omega

lemma length_fixup (inputLen : ℕ) (path : List UInt8) (c : Cursor) :
    (fixup inputLen path c).length = path.length := by
  unfold fixup
  dsimp only
  split_ifs <;> simp only [List.length_set]

lemma Copies.nul_free {out inp res : List UInt8} (h : Copies out inp res) :
    (0 : UInt8) ∉ out → (0 : UInt8) ∉ inp → (0 : UInt8) ∉ res := by
  induction h with
  | done => exact fun h _ => h
  | @skip out inp out' inp' res hs _ ih =>
    intro ho hi
    unfold skipOnceL at hs
    split_ifs at hs <;> cases hs
    · exact ih ho fun h => hi (List.mem_of_mem_drop h)
    · exact ih (fun h => ho ((parentOut_suffix out).mem h)) fun h => hi (List.mem_of_mem_drop h)
    · exact ih ho fun h => hi (List.mem_of_mem_drop h)
  | @copy out inp res b _ _ ih =>
    intro ho hi
    simp only [List.mem_cons, not_or] at hi
    exact ih (by simp [hi.1, ho]) hi.2

lemma Copies.length_le {out inp res : List UInt8} (h : Copies out inp res) :
    res.length ≤ out.length + inp.length := by
  induction h with
  | done => simp
  | @skip out inp out' inp' res hs _ ih =>
    have hle : out'.length ≤ out.length ∧ inp'.length ≤ inp.length := by
      unfold skipOnceL at hs
      split_ifs at hs <;> cases hs
      · simp
      · exact ⟨(parentOut_suffix out).length_le, by simp⟩
      · simp
    omega
  | copy _ _ ih =>
    simp only [List.length_cons] at ih ⊢
    omega

lemma length_finishOut_le {n : ℕ} {res : List UInt8} (h : res.length ≤ n) :
    (finishOut n res).length ≤ n := by
  have htail : (if 1 < res.length ∧ res.head? = some slash then res.tail else res).length ≤ n := by
    split
    · rw [List.length_tail]
      omega
    · exact h
  unfold finishOut
  dsimp only
  generalize (if 1 < res.length ∧ res.head? = some slash then res.tail else res) = r at htail ⊢
  split
  · rename_i hc
    simpa using hc.2
  · rwa [List.length_reverse]

end NormalizePath

open NormalizePath in
lemma length_normalizeBuffer (path : List UInt8) :
    (normalizeBuffer path).length = path.length := by
  rw [normalizeBuffer]
  simp only [length_fixup, length_copyLoop]

open NormalizePath in
/-- The in-place function computes what the relation on lists says. -/
lemma normalizePath_of_copies {s res : CString} (h0 : (0 : UInt8) ∉ s) (hs : s.length < 2 ^ 32)
    (h : Copies [] s res) : normalizePath s = finishOut s.length res := by
  have hlen := strlen_append_nul h0
  have hh := Holds.start h0 hs
  have hfin := copyLoop_finished h hh (show s.length < (s ++ [0]).length + 1 by
    rw [List.length_append, List.length_singleton]
    omega)
  rw [List.length_append, List.length_singleton, Nat.add_sub_cancel] at hfin
  have hres := h.nul_free (by simp) h0
  rw [normalizePath, normalizeBuffer]
  simp only [hlen, u32_of_lt hs, List.length_append, List.length_singleton]
  exact fixup_eq hfin hres

end LaminaFS
