/-
# Lib.References -- text in which a mark and a name stand for something else

Behind a mark a name may follow, and what it stands for then takes the place of
both; a mark without a name stands for itself.  The character references of markup
are of this kind, and so are the escapes of strings.

What a name stands for can be longer than the name, so a text may come out as long
as it was.  Still it comes out changed: what stands for a name is short if it starts
with a symbol of names (`Table.short`), so the decoded text stays ahead of the
original once it is (`decode_ne_append`).
-/
import Mathlib.Data.List.Basic

namespace References

set_option autoImplicit false

/-- The names that follow a mark.  `Plain` are the symbols of the mark and of names. -/
structure Table {α : Type} (mark : α) (Plain : α → Prop) where
  /-- the length of the name a text starts with, and what the name stands for -/
  read : List α → Option (Nat × List α)
  plain_mark : Plain mark
  plain_name : ∀ {s n w}, read s = some (n, w) → ∀ c ∈ s.take n, Plain c
  length_name : ∀ {s n w}, read s = some (n, w) → n ≤ s.length
  some_ : ∀ {s n w}, read s = some (n, w) → w ≠ []
  short : ∀ {s n c w}, read s = some (n, c :: w) → Plain c → (c :: w).length ≤ n

variable {α : Type} {mark : α} {Plain : α → Prop}

namespace Table

variable (table : Table mark Plain)

/-- No mark has a name behind it. -/
def Free (s : List α) : Prop := ∀ before after, s = before ++ mark :: after → table.read after = none

theorem free_nil : table.Free [] := by
  intro before after cut
  simp at cut

theorem free_cons_iff (c : α) (s : List α) :
    table.Free (c :: s) ↔ (c = mark → table.read s = none) ∧ table.Free s := by
  constructor
  · intro free
    refine ⟨?_, fun before after cut => free (c :: before) after (by rw [cut]; rfl)⟩
    rintro rfl
    exact free [] s rfl
  · rintro ⟨here, behind⟩ before after cut
    cases before with
    | nil =>
        obtain ⟨is, rfl⟩ := List.cons_eq_cons.1 cut
        exact here is
    | cons d before =>
        obtain ⟨-, rest⟩ := List.cons_eq_cons.1 cut
        exact behind before after rest

/-- Whether a text is free can be computed. -/
instance decidableFree [DecidableEq α] : DecidablePred table.Free
  | [] => .isTrue table.free_nil
  | c :: s =>
      have : Decidable (table.Free s) := decidableFree s
      decidable_of_iff _ (table.free_cons_iff c s).symm

variable [DecidableEq α]

/-- The table of some names: what is read is the first of them a text starts with. -/
def ofNames (names : List (List α × List α)) (plain_mark : Plain mark)
    (plain : ∀ e ∈ names, ∀ c ∈ e.1, Plain c) (some_ : ∀ e ∈ names, e.2 ≠ [])
    (short : ∀ e ∈ names, e.2.length ≤ e.1.length) : Table mark Plain where
  read s := (names.find? fun e => e.1 <+: s).map fun e => (e.1.length, e.2)
  plain_mark := plain_mark
  plain_name := by
    intro s n w is
    obtain ⟨e, found, same⟩ := Option.map_eq_some_iff.1 is
    obtain ⟨back, rfl⟩ : e.1 <+: s := by simpa using List.find?_some found
    cases same
    rw [List.take_left]
    exact plain e (List.mem_of_find?_eq_some found)
  length_name := by
    intro s n w is
    obtain ⟨e, found, same⟩ := Option.map_eq_some_iff.1 is
    have front : e.1 <+: s := by simpa using List.find?_some found
    cases same
    exact front.length_le
  some_ := by
    intro s n w is
    obtain ⟨e, found, same⟩ := Option.map_eq_some_iff.1 is
    cases same
    exact some_ e (List.mem_of_find?_eq_some found)
  short := by
    intro s n c w is _
    obtain ⟨e, found, same⟩ := Option.map_eq_some_iff.1 is
    obtain ⟨rfl, value⟩ := Prod.mk.inj same
    rw [← value]
    exact short e (List.mem_of_find?_eq_some found)

/-- Every name is replaced, together with its mark. -/
def decode : List α → List α
  | [] => []
  | c :: s =>
      if c = mark then
        match table.read s with
        | some (n, w) => w ++ decode (s.drop n)
        | none => c :: decode s
      else c :: decode s
  termination_by s => s.length

/-- A text in front of the first mark stands for itself. -/
theorem decode_append_of_notMem {s : List α} (notMem : mark ∉ s) (v : List α) :
    table.decode (s ++ v) = s ++ table.decode v := by
  induction s with
  | nil => rfl
  | cons c s ih =>
      rw [List.mem_cons, not_or] at notMem
      rw [List.cons_append, decode, if_neg (Ne.symm notMem.1), ih notMem.2]
      rfl

theorem decode_of_read {s w : List α} {n : Nat} (name : table.read s = some (n, w)) :
    table.decode (mark :: s) = w ++ table.decode (s.drop n) := by
  rw [decode, if_pos rfl, name]

theorem decode_of_free {s : List α} (free : table.Free s) : table.decode s = s := by
  induction s with
  | nil => rw [decode]
  | cons c s ih =>
      obtain ⟨here, behind⟩ := (table.free_cons_iff c s).1 free
      rw [decode]
      by_cases is : c = mark
      · rw [if_pos is, here is, ih behind]
      · rw [if_neg is, ih behind]

variable {table}

section

omit [DecidableEq α]

/-- What stands for a name is used up before the symbols of names it starts like. -/
theorem ahead_of_read {s : List α} {n : Nat} {w q y z : List α} (name : table.read s = some (n, w))
    (plain : ∀ c ∈ q, Plain c) (longer : n < q.length) (same : w ++ z = q ++ y) :
    ∃ r, r ≠ [] ∧ (∀ c ∈ r, Plain c) ∧ z = r ++ y := by
  obtain ⟨d, q', rfl⟩ := List.exists_cons_of_length_pos (Nat.zero_lt_of_lt longer)
  obtain ⟨c, w', rfl⟩ := List.exists_cons_of_ne_nil (table.some_ name)
  have first : c = d := (List.cons_eq_cons.1 same).1
  have within : (c :: w').length ≤ n := table.short name (first ▸ plain d List.mem_cons_self)
  have front : c :: w' <+: d :: q' :=
    List.prefix_of_prefix_length_le ⟨z, same⟩ (List.prefix_append _ _)
      (Nat.le_trans within (Nat.le_of_lt longer))
  obtain ⟨r, whole⟩ := front
  refine ⟨r, ?_, fun e inside => plain e ?_, ?_⟩
  · rintro rfl
    rw [List.append_nil] at whole
    rw [whole] at within
    exact Nat.lt_irrefl _ (Nat.lt_of_le_of_lt within longer)
  · rw [← whole]
    exact List.mem_append_right _ inside
  · rw [← whole, List.append_assoc] at same
    exact List.append_cancel_left same

theorem plain_mark_name {s : List α} {n : Nat} {w : List α} (name : table.read s = some (n, w)) :
    ∀ c ∈ mark :: s.take n, Plain c :=
  List.forall_mem_cons.2 ⟨table.plain_mark, table.plain_name name⟩

theorem length_mark_name {s : List α} {n : Nat} {w : List α} (name : table.read s = some (n, w)) :
    n < (mark :: s.take n).length := by
  rw [List.length_cons, List.length_take, Nat.min_eq_left (table.length_name name)]
  exact Nat.lt_succ_self n

/-- A symbol that stands for itself moves to the end of what the text is ahead. -/
theorem ahead_cons {c : α} {d r y : List α} (some_ : r ≠ []) (plain : ∀ e ∈ r, Plain e)
    (same : c :: d = r ++ c :: y) : ∃ r', r' ≠ [] ∧ (∀ e ∈ r', Plain e) ∧ d = r' ++ y := by
  obtain ⟨e, r, rfl⟩ := List.exists_cons_of_ne_nil some_
  obtain ⟨rfl, rest⟩ := List.cons_eq_cons.1 same
  refine ⟨r ++ [c], by simp, ?_, ?_⟩
  · intro e inside
    rw [List.mem_append, List.mem_singleton] at inside
    rcases inside with inside | rfl
    · exact plain e (List.mem_cons_of_mem _ inside)
    · exact plain e List.mem_cons_self
  · rw [rest, List.append_assoc]
    rfl

end

/-- **Decoding puts no symbols of names in front of a text.** -/
theorem decode_ne_append (s : List α) {r : List α} (some_ : r ≠ []) (plain : ∀ c ∈ r, Plain c)
    (v : List α) : table.decode s ≠ r ++ (s ++ v) := by
  fun_induction table.decode s generalizing r with
  | case1 =>
      intro same
      rw [eq_comm, List.append_eq_nil_iff] at same
      exact some_ same.1
  | case2 s n w name ih =>
      intro same
      have cut : w ++ table.decode (s.drop n) = (r ++ mark :: s.take n) ++ (s.drop n ++ v) := by
        rw [same, List.append_assoc, List.cons_append, List.cons_append, ← List.append_assoc (s.take n),
          List.take_append_drop]
      have whole : ∀ c ∈ r ++ mark :: s.take n, Plain c :=
        List.forall_mem_append.2 ⟨plain, plain_mark_name name⟩
      have longer : n < (r ++ mark :: s.take n).length := by
        rw [List.length_append]
        exact Nat.lt_of_lt_of_le (length_mark_name name) (Nat.le_add_left _ _)
      obtain ⟨r', some', plain', rest⟩ := ahead_of_read name whole longer cut
      exact ih some' plain' rest
  | case3 s name ih =>
      intro same
      obtain ⟨r', some', plain', rest⟩ := ahead_cons some_ plain same
      exact ih some' plain' rest
  | case4 c s other ih =>
      intro same
      obtain ⟨r', some', plain', rest⟩ := ahead_cons some_ plain same
      exact ih some' plain' rest

/-- **Only a text without names is decoded to one that starts with it.** -/
theorem decode_eq_append_iff (s v : List α) : table.decode s = s ++ v ↔ v = [] ∧ table.Free s := by
  constructor
  · intro same
    fun_induction table.decode s with
    | case1 => exact ⟨same.symm, table.free_nil⟩
    | case2 s n w name ih =>
        -- behind the first name the text would be ahead
        have cut : w ++ table.decode (s.drop n) = (mark :: s.take n) ++ (s.drop n ++ v) := by
          rw [same, List.cons_append, List.cons_append, ← List.append_assoc, List.take_append_drop]
        obtain ⟨r, some_, plain, rest⟩ :=
          ahead_of_read name (plain_mark_name name) (length_mark_name name) cut
        exact absurd rest (decode_ne_append (s.drop n) some_ plain v)
    | case3 s name ih =>
        obtain ⟨nothing, free⟩ := ih (List.cons_eq_cons.1 same).2
        exact ⟨nothing, (table.free_cons_iff mark s).2 ⟨fun _ => name, free⟩⟩
    | case4 c s other ih =>
        obtain ⟨nothing, free⟩ := ih (List.cons_eq_cons.1 same).2
        exact ⟨nothing, (table.free_cons_iff c s).2 ⟨fun is => absurd is other, free⟩⟩
  · rintro ⟨rfl, free⟩
    rw [table.decode_of_free free, List.append_nil]

end Table

end References
