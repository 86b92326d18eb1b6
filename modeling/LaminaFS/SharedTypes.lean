/-
# The shared types of the library

The enumerations of `shared_types.h` and the operations of `FileContext.cpp`, the
permission words of mounts, and C strings as the lists of their bytes.
-/
import Mathlib.Algebra.Ring.Int.Defs
import Mathlib.Algebra.Ring.Nat
import Mathlib.Tactic.Common

namespace LaminaFS

/-- `lfs_error_code_t`. -/
inductive ErrorCode where
  | ok
  | genericError
  | notFound
  | unsupported
  | alreadyExists
  | permissionsError
  | outOfSpace
  | invalidDevice
  | outOfWorkItems
deriving DecidableEq, Repr

/-- `lfs_write_mode_t`. -/
inductive WriteMode where
  | truncate
  | append
  | segment
deriving DecidableEq, Repr

/-- `lfs_callback_buffer_action_t`. -/
inductive CallbackBufferAction where
  | doNotFreeBuffer
  | freeBuffer
deriving DecidableEq, Repr

/-- `lfs_file_operation_t`. -/
inductive Operation where
  | opExists
  | opSize
  | opRead
  | opWrite
  | opAppend
  | opWriteSegment
  | opDelete
  | opCreateDir
  | opDeleteDir
deriving DecidableEq, Repr

/-! ### Mount permissions -/

/-- A word of `lfs_mount_permissions_t` bits. -/
abbrev Permissions := BitVec 32

namespace Permissions

/-- `LFS_MOUNT_DEFAULT`. -/
def mountDefault : Permissions := 0
/-- `LFS_MOUNT_READ`. -/
def mountRead : Permissions := 1 <<< 0
/-- `LFS_MOUNT_WRITE_FILE`. -/
def mountWriteFile : Permissions := 1 <<< 1
/-- `LFS_MOUNT_DELETE_FILE`. -/
def mountDeleteFile : Permissions := 1 <<< 2
/-- `LFS_MOUNT_CREATE_DIR`. -/
def mountCreateDir : Permissions := 1 <<< 3
/-- `LFS_MOUNT_DELETE_DIR`. -/
def mountDeleteDir : Permissions := 1 <<< 4

/-- `permissions & bit` is not zero. -/
def has (permissions bit : Permissions) : Bool := permissions &&& bit != 0

end Permissions

/-! ### C strings -/

/-- A C string: the bytes before its terminating NUL. -/
abbrev CString := List UInt8

/-- The byte `'/'`. -/
abbrev slash : UInt8 := 47

/-- The byte `'.'`. -/
abbrev dot : UInt8 := 46

/-- The value of a `uint32_t` expression. -/
def u32 (n : ℕ) : ℕ := n % 2 ^ 32

lemma u32_of_lt {n : ℕ} (h : n < 2 ^ 32) : u32 n = n := Nat.mod_eq_of_lt h

/-- `path[i]`; the byte after the last one is the NUL. -/
def byteAt (path : List UInt8) (i : ℕ) : UInt8 := path.getD i 0

/-- `strlen` on the memory from the start of a buffer. -/
def strlen (path : List UInt8) : ℕ := (path.takeWhile (· != 0)).length

/-- `strstr`: the offset of the first occurrence of `needle`. -/
def strstr (haystack needle : CString) : Option ℕ :=
  (List.range (haystack.length + 1)).find? fun i => needle.isPrefixOf (haystack.drop i)

lemma find?_range_eq_zero {n : ℕ} {p : ℕ → Bool} :
    (List.range (n + 1)).find? p = some 0 ↔ p 0 = true := by
  rw [List.range_succ_eq_map, List.find?_cons]
  cases h : p 0 with
  | true => simp
  | false => simp [List.find?_map]

/-- A needle found at the very start of the haystack is a prefix of it. -/
lemma strstr_eq_zero {haystack needle : CString} :
    strstr haystack needle = some 0 ↔ needle <+: haystack := by
  rw [strstr, find?_range_eq_zero, List.drop_zero, List.isPrefixOf_iff_prefix]

end LaminaFS
