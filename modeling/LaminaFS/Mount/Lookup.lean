/-
# Finding the mount of a path

`findNextMountAndPath` and `findMutableMountAndPath` walk the mount table from its end.
One turn of each loop is a function of its own (`visitNext`, `visitMutable`); the walks are
recursions over the reversed table, and the lemmas describe them as searches in it.
-/
import LaminaFS.Device.Interface

namespace LaminaFS

variable {D W : Type}

open Permissions

namespace MountInfo

/-- The test of both loops: `path` starts with the prefix, and the prefix ends at a slash of
`path` or is one byte long. -/
def accepts (m : MountInfo D W) (path : CString) : Bool :=
  strstr path m.prefixStr == some 0 && (byteAt path m.prefixLen == slash || m.prefixLen == 1)

/-- The path that is handed to the device. -/
def devicePath (m : MountInfo D W) (path : CString) : CString :=
  if m.prefixLen = 1 then path else path.drop m.prefixLen

/-- The mount can be read. -/
def readable (m : MountInfo D W) : Bool := m.permissions.has mountRead

end MountInfo

/-- The end of one turn of the loop in `findNextMountAndPath`. -/
inductive Visit where
  | next (onlyAfter : Option ℕ)
  | found (devicePath : CString)

/-- One turn of the loop in `findNextMountAndPath`. -/
def visitNext (path : CString) (onlyAfter : Option ℕ) (m : MountInfo D W) : Visit :=
  if !m.readable then .next onlyAfter
  else
    match onlyAfter with
    | some h => .next (if m.handle = h then none else some h)
    | none => if m.accepts path then .found (m.devicePath path) else .next none

/-- The loop in `findNextMountAndPath` over the mounts still to visit. -/
def scanNext (path : CString) :
    Option ℕ → List (MountInfo D W) → Option (MountInfo D W × CString)
  | _, [] => none
  | onlyAfter, m :: rest =>
    match visitNext path onlyAfter m with
    | .next onlyAfter => scanNext path onlyAfter rest
    | .found devicePath => some (m, devicePath)

/-- `FileContext::findNextMountAndPath`. -/
def findNextMountAndPath (mounts : List (MountInfo D W)) (path : CString)
    (searchStart : Option ℕ) : Option (MountInfo D W × CString) :=
  scanNext path searchStart mounts.reverse

/-- The permission filter of `findMutableMountAndPath`: the mount is passed over. -/
def passedOver (op : Operation) (permissions : Permissions) : Bool :=
  ((op == .opWrite || op == .opAppend) && !permissions.has mountWriteFile) ||
  (op == .opDelete && !permissions.has mountDeleteFile) ||
  (op == .opCreateDir && !permissions.has mountCreateDir) ||
  (op == .opDeleteDir && !permissions.has mountDeleteDir)

/-- One turn of the loop in `findMutableMountAndPath`: the device path, if the mount is the
one. -/
def visitMutable (path : CString) (op : Operation) (m : MountInfo D W) : Option CString :=
  if m.accepts path && !passedOver op m.permissions then some (m.devicePath path) else none

/-- The loop in `findMutableMountAndPath`. -/
def scanMutable (path : CString) (op : Operation) :
    List (MountInfo D W) → Option (MountInfo D W × CString)
  | [] => none
  | m :: rest =>
    match visitMutable path op m with
    | some devicePath => some (m, devicePath)
    | none => scanMutable path op rest

/-- `FileContext::findMutableMountAndPath`. -/
def findMutableMountAndPath (mounts : List (MountInfo D W)) (path : CString)
    (op : Operation) : Option (MountInfo D W × CString) :=
  scanMutable path op mounts.reverse

/-! ### The walks as searches -/

/-- Without a restart point the walk takes the first readable mount that accepts the path. -/
lemma scanNext_none (path : CString) (l : List (MountInfo D W)) :
    scanNext path none l =
      (l.find? fun m => m.readable && m.accepts path).map fun m => (m, m.devicePath path) := by
  induction l with
  | nil => rfl
  | cons m rest ih =>
    rw [scanNext, visitNext, List.find?_cons]
    cases hr : m.readable with
    | false => simpa using ih
    | true =>
      cases ha : m.accepts path with
      | false => simpa [ha] using ih
      | true => simp

/-- With a restart point the walk looks at the mounts behind it only. -/
lemma scanNext_some {path : CString} {l r : List (MountInfo D W)} {m : MountInfo D W}
    (hread : m.readable = true) (hl : ∀ x ∈ l, x.handle ≠ m.handle) :
    scanNext path (some m.handle) (l ++ m :: r) = scanNext path none r := by
  induction l with
  | nil => simp [scanNext, visitNext, hread]
  | cons x l ih =>
    have hx : x.handle ≠ m.handle := hl x (by simp)
    have ih := ih fun y hy => hl y (by simp [hy])
    rw [List.cons_append, scanNext, visitNext]
    cases hr : x.readable with
    | false => simpa using ih
    | true => simpa [hx] using ih

lemma scanNext_found {path : CString} {onlyAfter : Option ℕ} {l : List (MountInfo D W)}
    {m : MountInfo D W} {dp : CString} (h : scanNext path onlyAfter l = some (m, dp)) :
    m ∈ l ∧ m.readable = true ∧ m.accepts path = true ∧ dp = m.devicePath path := by
  induction l generalizing onlyAfter with
  | nil => cases h
  | cons x l ih =>
    rw [scanNext] at h
    split at h
    · obtain ⟨h₁, h₂⟩ := ih h
      exact ⟨List.mem_cons_of_mem _ h₁, h₂⟩
    · rename_i devicePath hv
      cases h
      unfold visitNext at hv
      split at hv
      · cases hv
      · rename_i hr
        split at hv
        · cases hv
        · split at hv
          · rename_i ha
            cases hv
            exact ⟨List.mem_cons_self, by simpa using hr, ha, rfl⟩
          · cases hv

/-- The walk of `findMutableMountAndPath` takes the first mount that accepts the path and
passes the filter. -/
lemma scanMutable_eq (path : CString) (op : Operation) (l : List (MountInfo D W)) :
    scanMutable path op l =
      (l.find? fun m => m.accepts path && !passedOver op m.permissions).map
        fun m => (m, m.devicePath path) := by
  induction l with
  | nil => rfl
  | cons m rest ih =>
    rw [scanMutable, visitMutable, List.find?_cons]
    cases hm : m.accepts path && !passedOver op m.permissions with
    | false => simpa using ih
    | true => simp

end LaminaFS
