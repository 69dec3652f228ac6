/-
# Libowfat.Bytes -- byte strings, C strings and arrays

Memory as the C code sees it: byte strings, the C string that starts a piece of
memory, `char` buffers of a declared size, and reads that run past the end of an
array into whatever memory holds there.
-/
import Mathlib.Data.List.TakeWhile

namespace Bagunceiro

set_option autoImplicit false

abbrev Bytes := List UInt8

/-- The bytes of an ASCII literal. -/
def str (s : String) : Bytes := s.toList.map fun c => c.toNat.toUInt8

/-- What stops a request for good: the C standard gives what follows no meaning. -/
inductive Fault
  /-- `str_equal` on the null pointer `strtok_r` returned -/
  | nullKey
  /-- a write past the end of the buffer it was given -/
  | overflow
  /-- a `struct cdbb` used although opening its files had failed -/
  | uninitialised
  /-- a walk over the records of a file that has no tables -/
  | tornFile
  deriving DecidableEq, Repr

/-! ## C strings -/

/-- The C string that starts a piece of memory. -/
def cstr (memory : Bytes) : Bytes := memory.takeWhile (· ≠ 0)

@[simp] theorem cstr_nil : cstr [] = [] := rfl

/-- A terminated string reads back, whatever follows it. -/
theorem cstr_append {s rest : Bytes} (plain : (0 : UInt8) ∉ s) : cstr (s ++ 0 :: rest) = s := by
  rw [cstr]
  rw [List.takeWhile_append_of_pos]
  · simp
  · intro c member
    simp only [decide_eq_true_eq, ne_eq]
    rintro rfl
    exact plain member

/-- Nothing behind a terminator is part of the string. -/
theorem cstr_append_zero (s rest : Bytes) : cstr (s ++ 0 :: rest) = cstr s := by
  induction s with
  | nil => rfl
  | cons c s ih =>
      unfold cstr at ih ⊢
      simp only [List.cons_append, List.takeWhile_cons, ih]

theorem cstr_concat_zero (s : Bytes) : cstr (s ++ [0]) = cstr s := cstr_append_zero s []

/-- Writing `new` to the front of a `char` buffer of `size` bytes: what was
behind it stays. -/
def store (size : Nat) (buffer new : Bytes) : Except Fault Bytes :=
  if new.length ≤ size then .ok (new ++ buffer.drop new.length) else .error .overflow

theorem store_ok {size : Nat} {buffer new result : Bytes}
    (stored : store size buffer new = .ok result) :
    new.length ≤ size ∧ result = new ++ buffer.drop new.length := by
  rw [store] at stored
  split at stored
  · rename_i fits
    exact ⟨fits, (Except.ok.inj stored).symm⟩
  · cases stored

/-! ## Reads past the end -/

/-- The first `n` bytes at an array of which only `bytes` were appended: behind
them a read meets `past`. -/
def readMemory (bytes : Bytes) (past : Nat → UInt8) (n : Nat) : Bytes :=
  bytes.take n ++ (List.range (n - bytes.length)).map past

/-- `!memcmp(p, q, |q|)`, where `p` may be the shorter one. -/
def memEqual (bytes : Bytes) (past : Nat → UInt8) (q : Bytes) : Bool :=
  readMemory bytes past q.length = q

@[simp] theorem readMemory_within {bytes : Bytes} {past : Nat → UInt8} {n : Nat}
    (within : n ≤ bytes.length) : readMemory bytes past n = bytes.take n := by
  simp [readMemory, Nat.sub_eq_zero_of_le within]

/-- On equal lengths the comparison is equality of contents. -/
theorem memEqual_of_length {bytes q : Bytes} (past : Nat → UInt8) (same : q.length = bytes.length) :
    memEqual bytes past q = decide (bytes = q) := by
  rw [memEqual]
  rw [readMemory_within (le_of_eq same), same, List.take_length]

/-- The start of an array is found in it, whatever follows. -/
theorem memEqual_of_prefix {bytes q : Bytes} (past : Nat → UInt8) (starts : q <+: bytes) :
    memEqual bytes past q = true := by
  rw [memEqual]
  rw [readMemory_within starts.length_le, decide_eq_true_eq]
  exact (List.prefix_iff_eq_take.1 starts).symm

theorem prefix_or_of_memEqual {bytes q : Bytes} {past : Nat → UInt8}
    (same : memEqual bytes past q = true) : q <+: bytes ∨ bytes <+: q := by
  rcases Nat.le_total q.length bytes.length with within | beyond
  · rw [memEqual] at same
    rw [readMemory_within within, decide_eq_true_eq] at same
    exact .inl (List.prefix_iff_eq_take.2 same.symm)
  · have read : readMemory bytes past q.length = q := of_decide_eq_true same
    rw [← read]
    rw [readMemory]
    rw [List.take_of_length_le beyond]
    exact .inr (List.prefix_append _ _)

/-- Memory behind an array can make up for the rest of a longer one. -/
theorem exists_memEqual {bytes q : Bytes} (starts : bytes <+: q) :
    ∃ past, memEqual bytes past q = true := by
  obtain ⟨rest, rfl⟩ := starts
  refine ⟨fun i => rest.getD i 0, ?_⟩
  have behind : (List.range rest.length).map (fun i => rest.getD i 0) = rest := by
    refine List.ext_getElem (by simp) fun i _ inside => ?_
    simp [List.getElem?_eq_getElem inside]
  rw [memEqual, readMemory]
  rw [List.length_append, Nat.add_sub_cancel_left, behind,
    List.take_of_length_le (Nat.le_add_right _ _), decide_eq_true_eq]

/-- What does not start an array need not be found there. -/
theorem exists_not_memEqual {bytes q : Bytes} (apart : ¬ q <+: bytes) :
    ∃ past, memEqual bytes past q = false := by
  rcases Nat.lt_or_ge bytes.length q.length with longer | within
  · refine ⟨fun _ => q[bytes.length] + 1, ?_⟩
    rw [memEqual]
    rw [decide_eq_false_iff_not]
    intro same
    have read : (readMemory bytes (fun _ => q[bytes.length] + 1) q.length)[bytes.length]? =
        some (q[bytes.length] + 1) := by
      rw [readMemory]
      rw [List.take_of_length_le longer.le, List.getElem?_append_right le_rfl, Nat.sub_self,
        List.getElem?_map, List.getElem?_range (Nat.sub_pos_of_lt longer), Option.map_some]
    rw [same, List.getElem?_eq_getElem longer, Option.some.injEq] at read
    simp at read
  · refine ⟨fun _ => 0, ?_⟩
    rw [memEqual]
    rw [readMemory_within within, decide_eq_false_iff_not]
    exact fun same => apart (List.prefix_iff_eq_take.2 same.symm)

end Bagunceiro
