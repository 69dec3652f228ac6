/-
# Lib.Occurs -- searching one string in another

The naive search tries every place of the text, the first one first, and compares
through a function, so that a search that ignores case is one with `toupper`.
`search_isSome_iff` says what a search that goes through the whole text has
decided, and `front` is the text that a search goes through.
-/
import Mathlib.Data.List.Infix

namespace Occurs

set_option autoImplicit false

variable {α β : Type} [DecidableEq β] (f : α → β)

/-- The text starts with the needle. -/
def startsWith : List α → List α → Bool
  | _, [] => true
  | [], _ :: _ => false
  | c :: text, d :: needle => f c = f d && startsWith text needle

/-- The text from the first place on at which the needle stands. -/
def search : List α → List α → Option (List α)
  | [], needle => if startsWith f [] needle then some [] else none
  | c :: text, needle => if startsWith f (c :: text) needle then some (c :: text) else search text needle

theorem startsWith_iff (text needle : List α) :
    startsWith f text needle = true ↔ needle.map f <+: text.map f := by
  induction text generalizing needle with
  | nil => cases needle <;> simp [startsWith]
  | cons c text ih =>
      cases needle with
      | nil => simp [startsWith]
      | cons d needle =>
          rw [startsWith, Bool.and_eq_true, decide_eq_true_eq, ih, List.map_cons, List.map_cons,
            List.cons_prefix_cons, eq_comm]

/-- **The search finds what is there.** -/
theorem search_isSome_iff (text needle : List α) :
    (search f text needle).isSome = true ↔ needle.map f <:+: text.map f := by
  induction text with
  | nil =>
      rw [search]
      cases needle <;> simp [startsWith]
  | cons c text ih =>
      rw [List.map_cons, List.infix_cons_iff, ← List.map_cons, ← startsWith_iff, ← ih, search]
      split
      · rename_i here
        simp [here]
      · rename_i other
        simp [other]

/-! ## The text in front of the first place -/

/-- The text up to the first place at which the needle stands. -/
def front (needle : List α) : List α → List α
  | [] => []
  | c :: text => if startsWith f (c :: text) needle then [] else c :: front needle text

/-- All of the text, or it ends where the needle is. -/
theorem front_spec (needle text : List α) :
    ∃ rest, text = front f needle text ++ rest ∧ (rest = [] ∨ startsWith f rest needle = true) := by
  induction text with
  | nil => exact ⟨[], rfl, .inl rfl⟩
  | cons c text ih =>
      rw [front]
      by_cases here : startsWith f (c :: text) needle = true
      · rw [if_pos here]
        exact ⟨c :: text, rfl, .inr here⟩
      · rw [if_neg here]
        obtain ⟨rest, cut, ends⟩ := ih
        exact ⟨rest, by rw [List.cons_append, ← cut], ends⟩

theorem front_of_absent {needle text : List α} (absent : ¬ needle.map f <:+: text.map f) :
    front f needle text = text := by
  induction text with
  | nil => rfl
  | cons c text ih =>
      rw [List.map_cons, List.infix_cons_iff, not_or, ← List.map_cons, ← startsWith_iff] at absent
      rw [front, if_neg absent.1, ih absent.2]

/-- Where the needle stands in the text, the front is not all of it. -/
theorem front_ne_of_infix {needle text : List α} (some_ : needle ≠ [])
    (infix_ : needle.map f <:+: text.map f) : front f needle text ≠ text := by
  induction text with
  | nil =>
      rw [List.map_nil, List.infix_nil, List.map_eq_nil_iff] at infix_
      exact absurd infix_ some_
  | cons c text ih =>
      rw [List.map_cons, List.infix_cons_iff, ← List.map_cons, ← startsWith_iff] at infix_
      rw [front]
      by_cases here : startsWith f (c :: text) needle = true
      · rw [if_pos here]
        exact (List.cons_ne_nil c text).symm
      · rw [if_neg here]
        exact fun same => ih (infix_.resolve_left here) (List.cons_eq_cons.1 same).2

/-- A symbol that the needle does not have ends every comparison. -/
theorem startsWith_append_stop {stop : α} {needle : List α} (notMem : f stop ∉ needle.map f)
    (text back : List α) :
    startsWith f (text ++ stop :: back) needle = startsWith f text needle := by
  induction text generalizing needle with
  | nil =>
      cases needle with
      | nil => rw [List.nil_append, startsWith, startsWith]
      | cons d needle =>
          rw [List.map_cons, List.mem_cons, not_or] at notMem
          simp [startsWith, notMem.1]
  | cons c text ih =>
      cases needle with
      | nil => rw [List.cons_append, startsWith, startsWith]
      | cons d needle =>
          rw [List.map_cons, List.mem_cons, not_or] at notMem
          rw [List.cons_append, startsWith, startsWith, ih notMem.2]

/-- A needle that has its first symbol nowhere else is found behind a text as
in front of it. -/
theorem front_append {stop : α} {needle : List α} (notMem : f stop ∉ needle.map f)
    (text : List α) {back : List α} (there : startsWith f (stop :: back) (stop :: needle) = true) :
    front f (stop :: needle) (text ++ stop :: back) = front f (stop :: needle) text := by
  induction text with
  | nil => exact if_pos there
  | cons c text ih =>
      have same : startsWith f (c :: (text ++ stop :: back)) (stop :: needle) =
          startsWith f (c :: text) (stop :: needle) := by
        rw [startsWith, startsWith, startsWith_append_stop f notMem]
      rw [List.cons_append, front, front, same, ih]

end Occurs
