/-
# Lib.Tokens -- cutting a string at separators

`pieces` are the longest non-empty runs without a separator, first to last: what
a tokenizer returns that skips separators and never an empty token.
-/
import Mathlib.Data.List.Basic

namespace Tokens

set_option autoImplicit false

variable {α : Type}

def pieces (isSep : α → Bool) (s : List α) : List (List α) :=
  (s.splitOnP isSep).filter (· ≠ [])

variable {isSep : α → Bool}

@[simp] theorem pieces_nil : pieces isSep [] = [] := by
  simp [pieces]

/-- What stands before a separator is cut off whole. -/
theorem pieces_append_sep {front : List α} (plain : ∀ x ∈ front, isSep x = false)
    (some_ : front ≠ []) {sep : α} (isSep_ : isSep sep = true) (rest : List α) :
    pieces isSep (front ++ sep :: rest) = front :: pieces isSep rest := by
  simp only [pieces]
  rw [List.splitOnP_append_cons_of_forall_mem plain sep isSep_ rest, List.filter_cons]
  simp [some_]

theorem pieces_of_plain {s : List α} (plain : ∀ x ∈ s, isSep x = false) (some_ : s ≠ []) :
    pieces isSep s = [s] := by
  simp only [pieces, List.splitOnP_eq_singleton plain]
  simp [some_]

theorem ne_nil_of_mem_pieces {s piece : List α} (member : piece ∈ pieces isSep s) : piece ≠ [] := by
  simpa using (List.mem_filter.1 member).2

/-- The pieces are the string without its separators. -/
theorem flatten_splitOnP (isSep : α → Bool) (s : List α) :
    (s.splitOnP isSep).flatten = s.filter (! isSep ·) := by
  induction s with
  | nil => rfl
  | cons x xs ih =>
      rw [List.splitOnP_cons_eq_if_modifyHead]
      cases sep : isSep x with
      | true =>
          rw [if_pos rfl, List.flatten_cons, List.nil_append, ih, List.filter_cons_of_neg]
          simp [sep]
      | false =>
          rw [if_neg Bool.false_ne_true, List.filter_cons_of_pos (by simp [sep]), ← ih]
          cases cut : xs.splitOnP isSep with
          | nil => exact absurd cut (List.splitOnP_ne_nil _ _)
          | cons first rest =>
              rw [List.modifyHead_cons, List.flatten_cons, List.flatten_cons, List.cons_append]

/-- Nothing is left of a string exactly when it is separators only. -/
theorem pieces_eq_nil_iff {s : List α} : pieces isSep s = [] ↔ ∀ x ∈ s, isSep x = true := by
  have whole : (pieces isSep s).flatten = s.filter (! isSep ·) := by
    rw [pieces]
    rw [List.flatten_filter_ne_nil, flatten_splitOnP]
  constructor
  · intro none_ x member
    rw [none_, List.flatten_nil] at whole
    simpa using List.filter_eq_nil_iff.1 whole.symm x member
  · intro all
    have empty : (pieces isSep s).flatten = [] := by
      rw [whole, List.filter_eq_nil_iff]
      simpa using all
    rw [List.eq_nil_iff_forall_not_mem]
    intro piece member
    exact ne_nil_of_mem_pieces member (List.flatten_eq_nil_iff.1 empty piece member)

/-- **Pieces that are joined with a separator come back.** -/
theorem pieces_intercalate {sep : α} (isSep_ : isSep sep = true) :
    ∀ {ps : List (List α)}, (∀ p ∈ ps, p ≠ []) → (∀ p ∈ ps, ∀ x ∈ p, isSep x = false) →
      pieces isSep ([sep].intercalate ps) = ps
  | [], _, _ => by simp
  | [p], some_, plain => by
      have only := pieces_of_plain (plain p (by simp)) (some_ p (by simp))
      simpa using only
  | p :: q :: ps, some_, plain => by
      have behind := pieces_intercalate isSep_ (fun r member => some_ r (List.mem_cons_of_mem _ member))
        (fun r member => plain r (List.mem_cons_of_mem _ member))
      have first := pieces_append_sep (plain p (by simp)) (some_ p (by simp)) isSep_
        ([sep].intercalate (q :: ps))
      rw [behind] at first
      simpa using first

/-! ## Lengths -/

theorem length_flatten_pieces_le (isSep : α → Bool) (s : List α) :
    (pieces isSep s).flatten.length ≤ s.length := by
  rw [pieces]
  rw [List.flatten_filter_ne_nil, flatten_splitOnP]
  exact List.length_filter_le _ s

theorem length_le_of_mem_pieces {s piece : List α} (member : piece ∈ pieces isSep s) :
    piece.length ≤ s.length :=
  Nat.le_trans (List.sublist_flatten_of_mem member).length_le (length_flatten_pieces_le isSep s)

/-- The first two pieces fit in one after the other. -/
theorem length_add_le_of_pieces_eq {s key piece : List α} {rest : List (List α)}
    (cut : pieces isSep s = key :: piece :: rest) : key.length + piece.length ≤ s.length := by
  have all := length_flatten_pieces_le isSep s
  rw [cut, List.flatten_cons, List.flatten_cons, List.length_append, List.length_append] at all
  omega

/-- A piece behind another one. -/
theorem length_lt_of_pieces_eq {s key piece : List α} {rest : List (List α)}
    (cut : pieces isSep s = key :: piece :: rest) : piece.length < s.length := by
  have both := length_add_le_of_pieces_eq cut
  have some_ : key ≠ [] := ne_nil_of_mem_pieces (cut ▸ List.mem_cons_self)
  have length := List.length_pos_iff.2 some_
  omega

end Tokens
