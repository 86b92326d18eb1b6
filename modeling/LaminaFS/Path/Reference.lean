/-
# The meaning of a normalised path

`reference` is normalisation by a stack of components.  The components of the path are
pushed from left to right, empty ones and `.` are skipped, and `..` takes the top off the
stack; the first component of a relative path is pushed whatever it is.  The main result,
`normalizePath_eq_reference`, says that the in-place function computes it.
-/
import LaminaFS.Lib.Components
import LaminaFS.Path.Normalize

namespace LaminaFS

open Components NormalizePath

/-- A component on the stack; the first component of a relative path is marked. -/
structure Entry where
  name : List UInt8
  first : Bool
deriving DecidableEq, Repr

/-- The next component of the path meets the stack (top first). -/
def pushComponent (stack : List Entry) (c : List UInt8) : List Entry :=
  if c = [] ∨ c = [dot] then stack
  else if c = [dot, dot] then stack.tail
  else ⟨c, false⟩ :: stack

/-- The stack after all components of the path. -/
def resolve (s : CString) : List Entry :=
  match s.splitOn slash with
  | [] => []
  | c :: cs =>
    if c = [] then cs.foldl pushComponent [] else cs.foldl pushComponent [⟨c, true⟩]

/-- The reference normalisation. -/
noncomputable def reference (s : CString) : CString :=
  if s = [] then []
  else
    let joined := [slash].intercalate ((resolve s).reverse.map Entry.name)
    if (resolve s).any Entry.first then joined else slash :: joined

/-! ### The output of the loops as a stack -/

/-- The output (last byte first) that stands for a stack. -/
def renderOut : List Entry → List UInt8
  | [] => []
  | e :: stack => e.name.reverse ++ (if e.first then [] else [slash]) ++ renderOut stack

/-- A stack as the loops build it: no component is empty or has a slash in it, and the
marked one is at the bottom. -/
def Stacked : List Entry → Prop
  | [] => True
  | e :: stack =>
    e.name ≠ [] ∧ slash ∉ e.name ∧ (e.first = true → stack = []) ∧ Stacked stack

lemma Stacked.tail {stack : List Entry} (h : Stacked stack) : Stacked stack.tail := by
  cases stack with
  | nil => exact h
  | cons e stack => exact h.2.2.2

lemma Stacked.slash_free {stack : List Entry} (h : Stacked stack) :
    ∀ e ∈ stack, slash ∉ e.name := by
  induction stack with
  | nil => simp
  | cons e stack ih =>
    intro x hx
    rcases List.mem_cons.mp hx with rfl | hx
    · exact h.2.1
    · exact ih h.2.2.2 x hx

lemma Stacked.name_ne_nil {stack : List Entry} (h : Stacked stack) :
    ∀ e ∈ stack, e.name ≠ [] := by
  induction stack with
  | nil => simp
  | cons e stack ih =>
    intro x hx
    rcases List.mem_cons.mp hx with rfl | hx
    · exact h.1
    · exact ih h.2.2.2 x hx

lemma Stacked.push {stack : List Entry} {c : List UInt8} (h : Stacked stack)
    (hc : slash ∉ c) : Stacked (pushComponent stack c) := by
  unfold pushComponent
  split
  · exact h
  · rename_i hne
    split
    · exact h.tail
    · exact ⟨fun h0 => hne (Or.inl h0), hc, by simp, h⟩

lemma Stacked.foldl {cs : List (List UInt8)} {stack : List Entry} (h : Stacked stack)
    (hc : ∀ c ∈ cs, slash ∉ c) : Stacked (cs.foldl pushComponent stack) := by
  induction cs generalizing stack with
  | nil => exact h
  | cons c cs ih => exact ih (h.push (hc c (by simp))) fun d hd => hc d (by simp [hd])

lemma renderOut_eq_nil {stack : List Entry} (h : Stacked stack) :
    renderOut stack = [] ↔ stack = [] := by
  cases stack with
  | nil => simp [renderOut]
  | cons e stack => simp [renderOut, h.1]

/-- The last byte of the output is no slash. -/
lemma head?_renderOut {stack : List Entry} (h : Stacked stack) :
    (renderOut stack).head? ≠ some slash := by
  cases stack with
  | nil => simp [renderOut]
  | cons e stack =>
    obtain ⟨hne, hs, -, -⟩ := h
    cases hr : e.name.reverse with
    | nil => exact absurd (List.reverse_eq_nil_iff.mp hr) hne
    | cons b bs =>
      have hb : b ∈ e.name := List.mem_reverse.mp (by rw [hr]; simp)
      intro he
      rw [renderOut, hr] at he
      simp only [List.cons_append, List.head?_cons, Option.some.injEq] at he
      exact hs (he ▸ hb)

lemma parentOut_renderOut {stack : List Entry} (h : Stacked stack) :
    parentOut (renderOut stack) = renderOut stack.tail := by
  cases stack with
  | nil => rfl
  | cons e stack =>
    obtain ⟨-, hs, hfirst, -⟩ := h
    have hp : ∀ b ∈ e.name.reverse, (b != slash) = true := by
      intro b hb
      have : b ≠ slash := fun he => hs (he ▸ List.mem_reverse.mp hb)
      simpa using this
    rw [parentOut, renderOut, List.append_assoc, List.dropWhile_append_of_pos hp,
      List.tail_cons]
    cases he : e.first with
    | true => simp [hfirst he, renderOut]
    | false => simp

/-! ### The loops push components -/

/-- Bytes other than the slash are copied one by one. -/
lemma Copies.name {c out inp res : List UInt8} (hs : slash ∉ c)
    (h : Copies (c.reverse ++ out) inp res) : Copies out (c ++ inp) res := by
  induction c generalizing out with
  | nil => exact h
  | cons b c ih =>
    simp only [List.mem_cons, not_or] at hs
    have hb : byteAt (b :: (c ++ inp)) 0 = b := rfl
    have hskip : skipOnceL out (b :: (c ++ inp)) = none := by
      rw [skipOnceL, hb, if_neg (Ne.symm hs.1)]
    exact Copies.copy hskip (ih hs.2 (by simpa using h))

lemma byteAt_led (cs : List (List UInt8)) : byteAt (led slash cs) 0 = 0 ∨
    byteAt (led slash cs) 0 = slash := by
  rcases led_eq_nil_or slash cs with h | ⟨l, h⟩ <;> rw [h]
  · exact Or.inl rfl
  · exact Or.inr rfl

lemma skipOnceL_dot {out : List UInt8} (cs : List (List UInt8)) :
    skipOnceL out (slash :: [dot] ++ led slash cs) = some (out, led slash cs) := by
  have hlast := byteAt_led cs
  have h2 : byteAt (slash :: [dot] ++ led slash cs) 2 = byteAt (led slash cs) 0 := rfl
  have hne : byteAt (led slash cs) 0 ≠ dot := by
    intro hd
    rw [hd] at hlast
    revert hlast
    decide
  have hslash : byteAt (slash :: [dot] ++ led slash cs) 0 = slash := rfl
  have hdot : byteAt (slash :: [dot] ++ led slash cs) 1 = dot := rfl
  rw [skipOnceL, if_pos hslash, hdot, if_neg (by decide), if_pos rfl, h2,
    if_neg (fun h => hne h.1), if_pos hlast.symm]
  rfl

lemma skipOnceL_dotdot {out : List UInt8} (cs : List (List UInt8)) :
    skipOnceL out (slash :: [dot, dot] ++ led slash cs) =
      some (parentOut out, led slash cs) := by
  have hlast := byteAt_led cs
  have hslash : byteAt (slash :: [dot, dot] ++ led slash cs) 0 = slash := rfl
  have hdot : byteAt (slash :: [dot, dot] ++ led slash cs) 1 = dot := rfl
  have h2 : byteAt (slash :: [dot, dot] ++ led slash cs) 2 = dot := rfl
  have h3 : byteAt (slash :: [dot, dot] ++ led slash cs) 3 = byteAt (led slash cs) 0 := rfl
  rw [skipOnceL, if_pos hslash, hdot, if_neg (by decide), if_pos rfl, h2, h3,
    if_pos ⟨rfl, hlast⟩]
  rfl

/-- A component that is neither empty nor made of dots is not skipped. -/
lemma skipOnceL_name {out c inp : List UInt8} (hs : slash ∉ c) (h0 : (0 : UInt8) ∉ c)
    (hne : c ≠ []) (hdot : c ≠ [dot]) (hdotdot : c ≠ [dot, dot]) :
    skipOnceL out (slash :: c ++ inp) = none := by
  have no {b : UInt8} (hb : b ∈ c) : b ≠ slash ∧ b ≠ 0 :=
    ⟨fun h => hs (h ▸ hb), fun h => h0 (h ▸ hb)⟩
  have hhead : byteAt (slash :: c ++ inp) 0 = slash := rfl
  rw [skipOnceL, if_pos hhead]
  match c, hne with
  | x :: c, _ =>
    have h1 : byteAt (slash :: (x :: c) ++ inp) 1 = x := rfl
    rw [h1, if_neg (no (by simp)).1]
    split
    · rename_i hx
      match c with
      | [] => exact absurd (by rw [hx]) hdot
      | y :: c =>
        have h2 : byteAt (slash :: (x :: y :: c) ++ inp) 2 = y := rfl
        have hy := no (b := y) (by simp)
        rw [h2, if_neg, if_neg (by simp [hy])]
        rintro ⟨hy', h3⟩
        match c with
        | [] => exact hdotdot (by rw [hx, hy'])
        | z :: c =>
          have h3' : byteAt (slash :: (x :: y :: z :: c) ++ inp) 3 = z := rfl
          have hz := no (b := z) (by simp)
          rw [h3'] at h3
          rcases h3 with h3 | h3
          · exact hz.2 h3
          · exact hz.1 h3
    · rfl

/-- The loops run over components as the stack does.  Only a slash at the very end can
stay behind; `normalizePath` takes it off afterwards. -/
lemma copies_components {cs : List (List UInt8)} (hs : ∀ c ∈ cs, slash ∉ c)
    (h0 : ∀ c ∈ cs, (0 : UInt8) ∉ c) {stack : List Entry} (hstack : Stacked stack) :
    ∃ res, Copies (renderOut stack) (led slash cs) res ∧
      (res = renderOut (cs.foldl pushComponent stack) ∨
        res = slash :: renderOut (cs.foldl pushComponent stack)) := by
  induction cs generalizing stack with
  | nil => exact ⟨_, Copies.done, Or.inl rfl⟩
  | cons c cs ih =>
    have hsc := hs c (by simp)
    have h0c := h0 c (by simp)
    have ih' := fun {stack} => @ih (fun d hd => hs d (by simp [hd]))
      (fun d hd => h0 d (by simp [hd])) stack
    rw [List.foldl_cons, led_cons]
    by_cases hnil : c = []
    · -- doubled slashes, or the slash at the end
      subst hnil
      have hpush : pushComponent stack [] = stack := rfl
      rw [hpush]
      cases cs with
      | nil => exact ⟨slash :: renderOut stack, .copy rfl .done, Or.inr rfl⟩
      | cons d ds =>
        obtain ⟨res, hres, heq⟩ := ih' hstack
        exact ⟨res, .skip (by rw [led_cons]; rfl) hres, heq⟩
    · by_cases hdot : c = [dot]
      · subst hdot
        have hpush : pushComponent stack [dot] = stack := rfl
        obtain ⟨res, hres, heq⟩ := ih' hstack
        rw [hpush]
        exact ⟨res, .skip (skipOnceL_dot cs) hres, heq⟩
      · by_cases hdotdot : c = [dot, dot]
        · subst hdotdot
          have hpush : pushComponent stack [dot, dot] = stack.tail := rfl
          obtain ⟨res, hres, heq⟩ := ih' hstack.tail
          rw [hpush]
          rw [← parentOut_renderOut hstack] at hres
          exact ⟨res, .skip (skipOnceL_dotdot cs) hres, heq⟩
        · have hpush : pushComponent stack c = ⟨c, false⟩ :: stack := by
            simp [pushComponent, hnil, hdot, hdotdot]
          have hstack' : Stacked (⟨c, false⟩ :: stack) := hpush ▸ hstack.push hsc
          obtain ⟨res, hres, heq⟩ := ih' hstack'
          rw [hpush]
          refine ⟨res, .copy (skipOnceL_name hsc h0c hnil hdot hdotdot) ?_, heq⟩
          refine Copies.name hsc ?_
          simpa [renderOut] using hres

/-! ### The string of a stack -/

/-- The output of a stack, read forwards, is the join of the components. -/
lemma reverse_renderOut {stack : List Entry} (h : Stacked stack) (hne : stack ≠ []) :
    (renderOut stack).reverse =
      (if stack.any Entry.first then [slash].intercalate (stack.reverse.map Entry.name)
        else slash :: [slash].intercalate (stack.reverse.map Entry.name)) := by
  induction stack with
  | nil => exact absurd rfl hne
  | cons e stack ih =>
    obtain ⟨-, -, hfirst, htail⟩ := h
    by_cases hstack : stack = []
    · subst hstack
      cases he : e.first <;> simp [renderOut, he]
    · have he : e.first = false := by
        cases he : e.first with
        | true => exact absurd (hfirst he) hstack
        | false => rfl
      have hsplit : [slash].intercalate ((e :: stack).reverse.map Entry.name) =
          [slash].intercalate (stack.reverse.map Entry.name) ++ slash :: e.name := by
        cases hr : stack.reverse.map Entry.name with
        | nil => simp at hr; exact absurd hr hstack
        | cons c cs =>
          rw [List.reverse_cons, List.map_append, hr, List.map_singleton, List.cons_append,
            intercalate_eq_led, intercalate_eq_led, led_append]
          simp
      rw [renderOut, he, hsplit]
      simp only [List.reverse_append, ih htail hstack, List.any_cons, he, Bool.false_or]
      split <;> simp

lemma finishOut_renderOut {stack : List Entry} (h : Stacked stack) {n : ℕ} (hn : 1 ≤ n)
    {res : List UInt8} (hres : res = renderOut stack ∨ res = slash :: renderOut stack) :
    finishOut n res = if stack = [] then [slash] else (renderOut stack).reverse := by
  have hnil := renderOut_eq_nil h
  have hhead := head?_renderOut h
  unfold finishOut
  rcases hres with rfl | rfl
  · simp only [if_neg (fun hc : _ ∧ _ => hhead hc.2), hnil, hn, and_true]
  · by_cases hstack : stack = []
    · subst hstack
      simp [renderOut]
    · have hlen : 1 < (slash :: renderOut stack).length := by
        have := List.length_pos_iff.mpr (fun hr => hstack (hnil.mp hr))
        simp only [List.length_cons]
        omega
      simp only [hlen, List.head?_cons, and_self, if_true, List.tail_cons, hnil, hstack,
        false_and, if_false]

lemma nul_free_of_splitOn {s c : List UInt8} (h0 : (0 : UInt8) ∉ s) (hc : c ∈ s.splitOn slash) :
    (0 : UInt8) ∉ c := by
  cases hs : s.splitOn slash with
  | nil => simp [hs] at hc
  | cons d ds =>
    have heq := eq_append_led_of_splitOn hs
    rw [hs] at hc
    intro h
    apply h0
    rw [heq]
    rcases List.mem_cons.mp hc with rfl | hc
    · exact List.mem_append_left _ h
    · exact List.mem_append_right _
        (List.mem_flatMap.mpr ⟨c, hc, List.mem_cons_of_mem _ h⟩)

/-- The stack of a path is one the loops can build. -/
lemma stacked_resolve (s : CString) : Stacked (resolve s) := by
  unfold resolve
  split
  · exact trivial
  · rename_i c cs hs
    have hsep : ∀ d ∈ c :: cs, slash ∉ d := fun d hd => not_mem_of_mem_splitOn (hs ▸ hd)
    have hcs : ∀ d ∈ cs, slash ∉ d := fun d hd => hsep d (by simp [hd])
    split
    · exact @Stacked.foldl _ [] trivial hcs
    · rename_i hne
      exact Stacked.foldl ⟨hne, hsep c (by simp), fun _ => rfl, trivial⟩ hcs

/-- The loops leave the stack of the path behind. -/
lemma copies_resolve {s : CString} (h0 : (0 : UInt8) ∉ s) :
    ∃ res, Copies [] s res ∧
      (res = renderOut (resolve s) ∨ res = slash :: renderOut (resolve s)) := by
  unfold resolve
  cases hs : s.splitOn slash with
  | nil => exact absurd hs (List.splitOn_ne_nil _ _)
  | cons c cs =>
    have hsep : ∀ d ∈ c :: cs, slash ∉ d := fun d hd => not_mem_of_mem_splitOn (hs ▸ hd)
    have hnul : ∀ d ∈ c :: cs, (0 : UInt8) ∉ d := fun d hd => nul_free_of_splitOn h0 (hs ▸ hd)
    have hcs : ∀ d ∈ cs, slash ∉ d := fun d hd => hsep d (by simp [hd])
    have h0cs : ∀ d ∈ cs, (0 : UInt8) ∉ d := fun d hd => hnul d (by simp [hd])
    have heq := eq_append_led_of_splitOn hs
    by_cases hc : c = []
    · subst hc
      simp only [if_pos]
      rw [heq]
      exact @copies_components _ hcs h0cs [] trivial
    · simp only [if_neg hc]
      have hstack : Stacked [⟨c, true⟩] := ⟨hc, hsep c (by simp), fun _ => rfl, trivial⟩
      obtain ⟨res, hres, h⟩ := copies_components hcs h0cs hstack
      refine ⟨res, ?_, h⟩
      rw [heq]
      exact Copies.name (hsep c (by simp)) (by simpa [renderOut] using hres)

/-- **The in-place normaliser computes the reference normalisation.** -/
lemma normalizePath_eq_reference {s : CString} (h0 : (0 : UInt8) ∉ s)
    (hs : s.length < 2 ^ 32) : normalizePath s = reference s := by
  obtain ⟨res, hres, heq⟩ := copies_resolve h0
  have hstack := stacked_resolve s
  rw [normalizePath_of_copies h0 hs hres]
  by_cases hnil : s = []
  · subst hnil
    cases hres with
    | done => rfl
    | skip h _ => cases h
  · have hlen : 1 ≤ s.length := List.length_pos_iff.mpr hnil
    rw [finishOut_renderOut hstack hlen heq, reference, if_neg hnil]
    by_cases hempty : resolve s = []
    · simp [hempty]
    · rw [if_neg hempty, reverse_renderOut hstack hempty]

/-- The normalised path is never longer than the path. -/
lemma length_normalizePath_le {s : CString} (h0 : (0 : UInt8) ∉ s) (hs : s.length < 2 ^ 32) :
    (normalizePath s).length ≤ s.length := by
  obtain ⟨res, hres, -⟩ := copies_resolve h0
  rw [normalizePath_of_copies h0 hs hres]
  exact length_finishOut_le (by simpa using hres.length_le)

/-- What the in-place function leaves in the buffer of `n + 1` bytes: the normalised path, its
NUL, and bytes of the old path behind it. -/
lemma normalizeBuffer_eq {s : CString} (h0 : (0 : UInt8) ∉ s) (hs : s.length < 2 ^ 32) :
    ∃ rest, normalizeBuffer (s ++ [0]) = normalizePath s ++ 0 :: rest ∧
      (normalizeBuffer (s ++ [0])).length = s.length + 1 := by
  have hlen : (normalizeBuffer (s ++ [0])).length = s.length + 1 := by
    rw [length_normalizeBuffer, List.length_append, List.length_singleton]
  have hle := length_normalizePath_le h0 hs
  have hsplit := @List.takeWhile_append_dropWhile _ (· != 0) (normalizeBuffer (s ++ [0]))
  cases hd : (normalizeBuffer (s ++ [0])).dropWhile (· != 0) with
  | nil =>
    -- the string would fill the whole buffer
    rw [hd, List.append_nil] at hsplit
    rw [← normalizePath] at hsplit
    rw [hsplit] at hle
    omega
  | cons b rest =>
    have hb : b = 0 := by
      have := List.head?_dropWhile_not (· != 0) (normalizeBuffer (s ++ [0]))
      rw [hd] at this
      simpa using this
    rw [hd, hb] at hsplit
    exact ⟨rest, hsplit.symm, hlen⟩

/-- **The in-place result is the reference normalisation**, closed by a NUL inside the
buffer. -/
theorem normalizeBuffer_eq_reference {s : CString} (h0 : (0 : UInt8) ∉ s)
    (hs : s.length < 2 ^ 32) :
    ∃ rest, normalizeBuffer (s ++ [0]) = reference s ++ 0 :: rest ∧
      (normalizeBuffer (s ++ [0])).length = s.length + 1 := by
  rw [← normalizePath_eq_reference h0 hs]
  exact normalizeBuffer_eq h0 hs

/-- A relative path climbs out of its first component and stays at the root. -/
theorem normalizeBuffer_eq_reference_climb :
    ∃ rest, normalizeBuffer ([97, slash, dot, dot, slash, 98, slash] ++ [0]) =
        reference [97, slash, dot, dot, slash, 98, slash] ++ 0 :: rest ∧
      (normalizeBuffer ([97, slash, dot, dot, slash, 98, slash] ++ [0])).length = 8 :=
  normalizeBuffer_eq_reference (by decide) (by decide)

/-! ### Absolute results -/

/-- The name of a file or a directory proper. -/
def ProperName (c : List UInt8) : Prop := c ≠ [] ∧ c ≠ [dot] ∧ c ≠ [dot, dot]

/-- Only the first component of a relative path can be anything but a proper name. -/
lemma properName_resolve (s : CString) :
    ∀ e ∈ resolve s, e.first = false → ProperName e.name := by
  have push (stack : List Entry) (c : List UInt8)
      (h : ∀ e ∈ stack, e.first = false → ProperName e.name) :
      ∀ e ∈ pushComponent stack c, e.first = false → ProperName e.name := by
    intro e he hf
    unfold pushComponent at he
    split at he
    · exact h e he hf
    · rename_i hne
      split at he
      · exact h e (List.mem_of_mem_tail he) hf
      · rename_i hdd
        rcases List.mem_cons.mp he with rfl | he
        · exact ⟨fun h => hne (Or.inl h), fun h => hne (Or.inr h), hdd⟩
        · exact h e he hf
  have fold (cs : List (List UInt8)) : ∀ stack : List Entry,
      (∀ e ∈ stack, e.first = false → ProperName e.name) →
      ∀ e ∈ cs.foldl pushComponent stack, e.first = false → ProperName e.name := by
    induction cs with
    | nil => exact fun _ h => h
    | cons c cs ih => exact fun stack h => ih _ (push stack c h)
  unfold resolve
  split
  · simp
  · split
    · exact fold _ _ (by simp)
    · exact fold _ _ (by simp)

lemma renderOut_of_first {stack : List Entry} (h : Stacked stack)
    (hf : stack.any Entry.first = true) :
    ∃ b rest, (renderOut stack).reverse = b :: rest ∧ b ≠ slash := by
  induction stack with
  | nil => simp at hf
  | cons e stack ih =>
    obtain ⟨hne, hs, hfirst, htail⟩ := h
    cases he : e.first with
    | true =>
      obtain ⟨b, rest, hb⟩ := List.exists_cons_of_ne_nil hne
      refine ⟨b, rest, by simp [renderOut, he, hfirst he, hb], fun hbs => hs ?_⟩
      simp [hb, hbs]
    | false =>
      have hf' : stack.any Entry.first = true := by simpa [he] using hf
      obtain ⟨b, rest, hb, hne'⟩ := ih htail hf'
      exact ⟨b, rest ++ slash :: e.name, by simp [renderOut, he, hb], hne'⟩

/-- A normalised path that starts with a slash is the root or consists of proper names. -/
lemma reference_absolute {s : CString} (h : (reference s).head? = some slash) :
    reference s = [slash] ∨
      ∃ names : List (List UInt8), (∀ c ∈ names, ProperName c ∧ slash ∉ c) ∧
        reference s = led slash names := by
  have hstack := stacked_resolve s
  have hproper := properName_resolve s
  unfold reference at h ⊢
  split at h
  · simp at h
  · rename_i hne
    rw [if_neg hne]
    dsimp only at h ⊢
    by_cases hempty : resolve s = []
    · exact Or.inl (by simp [hempty])
    · split at h
      · -- the first component of a relative path is still there
        rename_i hf
        obtain ⟨b, rest, hb, hbs⟩ := renderOut_of_first hstack hf
        rw [reverse_renderOut hstack hempty, if_pos hf] at hb
        rw [hb] at h
        simp only [List.head?_cons, Option.some.injEq] at h
        exact absurd h hbs
      · rename_i hf
        right
        refine ⟨(resolve s).reverse.map Entry.name, ?_, ?_⟩
        · intro c hc
          obtain ⟨e, he, rfl⟩ := List.mem_map.mp hc
          have he := List.mem_reverse.mp he
          have hfirst : e.first = false := by
            cases hfe : e.first with
            | true => exact absurd (List.any_eq_true.mpr ⟨e, he, hfe⟩) hf
            | false => rfl
          exact ⟨hproper e he hfirst, hstack.slash_free e he⟩
        · rw [if_neg hf]
          exact cons_intercalate slash (by simpa using hempty)

end LaminaFS
