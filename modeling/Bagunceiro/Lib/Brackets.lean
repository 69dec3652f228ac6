/-
# Lib.Brackets -- what stands open in a text

The marks of a text are what stands at its places (`marks`).  A `Scanner` finds
them in one pass, with a state for what it has seen of a mark that is not complete
yet: one that is right at every step is right on every text (`Follows.scan_eq`),
and what is written piece by piece is scanned piece by piece (`scan_append`).

Marks that open and close are counted (`depth`).  `balanced_iff` says what the count
decides: nothing is closed that is not open, and nothing is left open.
-/
import Mathlib.Data.List.Infix

namespace Brackets

set_option autoImplicit false

variable {α β σ : Type}

/-! ## Marks -/

/-- What stands at the places of a text, the first one first. -/
def marks (mark : List α → Option β) : List α → List β
  | [] => []
  | c :: w => (mark (c :: w)).toList ++ marks mark w

/-- A text without marks. -/
theorem marks_eq_nil_iff (mark : List α → Option β) (w : List α) :
    marks mark w = [] ↔ ∀ v, v ≠ [] → v <:+ w → mark v = none := by
  induction w with
  | nil =>
      simp only [List.suffix_nil]
      exact ⟨fun _ v some_ end_ => absurd end_ some_, fun _ => rfl⟩
  | cons c w ih =>
      rw [marks, List.append_eq_nil_iff, ih, Option.toList_eq_nil_iff]
      constructor
      · rintro ⟨here, later⟩ v some_ end_
        rcases List.suffix_cons_iff.1 end_ with rfl | end_
        · exact here
        · exact later v some_ end_
      · intro all
        exact ⟨all _ (List.cons_ne_nil _ _) List.suffix_rfl,
          fun v some_ end_ => all v some_ (List.suffix_cons_iff.2 (.inr end_))⟩

structure Scanner (α β σ : Type) where
  start : σ
  next : σ → α → σ
  out : σ → α → Option β

namespace Scanner

variable (S : Scanner α β σ)

/-- What is found from a state on. -/
def scan : σ → List α → List β
  | _, [] => []
  | q, c :: w => (S.out q c).toList ++ scan (S.next q c) w

/-- The state behind a text. -/
def behind (q : σ) (w : List α) : σ := w.foldl S.next q

theorem behind_append (q : σ) (v w : List α) : S.behind q (v ++ w) = S.behind (S.behind q v) w :=
  List.foldl_append ..

theorem scan_append (q : σ) (v w : List α) :
    S.scan q (v ++ w) = S.scan q v ++ S.scan (S.behind q v) w := by
  induction v generalizing q with
  | nil => rfl
  | cons c v ih =>
      rw [List.cons_append, scan, ih, scan, List.append_assoc]
      rfl

/-- The scanner is right at every step; `pending` is what a state has seen. -/
structure Follows (mark : List α → Option β) (pending : σ → List α) : Prop where
  start : pending S.start = []
  ends : ∀ q, marks mark (pending q) = []
  step : ∀ q c w, marks mark (pending q ++ c :: w) =
    (S.out q c).toList ++ marks mark (pending (S.next q c) ++ w)

variable {S} {mark : List α → Option β} {pending : σ → List α}

theorem Follows.scan_pending (follows : S.Follows mark pending) (q : σ) (w : List α) :
    S.scan q w = marks mark (pending q ++ w) := by
  induction w generalizing q with
  | nil => rw [scan, List.append_nil, follows.ends]
  | cons c w ih => rw [scan, ih, follows.step]

/-- **What is right at every step is right on every text.** -/
theorem Follows.scan_eq (follows : S.Follows mark pending) (w : List α) :
    S.scan S.start w = marks mark w := by
  rw [follows.scan_pending, follows.start, List.nil_append]

end Scanner

/-! ## Nesting -/

inductive Bracket
  | opening | closing
  deriving DecidableEq, Repr

/-- What is closed has been opened before, and what is opened is closed. -/
structure Balanced (ts : List Bracket) : Prop where
  closes : ∀ front, front <+: ts → front.count .closing ≤ front.count .opening
  whole : ts.count .closing = ts.count .opening

/-- How many stand open behind one more; nothing is left of the count once more is
closed than is open. -/
def step : Option Nat → Bracket → Option Nat
  | some n, .opening => some (n + 1)
  | some (n + 1), .closing => some n
  | _, _ => none

def depth (r : Option Nat) (ts : List Bracket) : Option Nat := ts.foldl step r

@[simp] theorem depth_nil (r : Option Nat) : depth r [] = r := rfl

@[simp] theorem depth_append (r : Option Nat) (ts us : List Bracket) :
    depth r (ts ++ us) = depth (depth r ts) us := List.foldl_append ..

theorem depth_none (ts : List Bracket) : depth none ts = none := by
  induction ts with
  | nil => rfl
  | cons t ts ih =>
      cases t with
      | opening => exact ih
      | closing => exact ih

/-- The count from any depth on. -/
theorem depth_eq_some_iff (n m : Nat) (ts : List Bracket) :
    depth (some n) ts = some m ↔
      (∀ front, front <+: ts → front.count .closing ≤ n + front.count .opening) ∧
        n + ts.count .opening = m + ts.count .closing := by
  induction ts generalizing n with
  | nil => simp [List.prefix_nil]
  | cons t ts ih =>
      have fronts (P : List Bracket → Prop) :
          (∀ front, front <+: t :: ts → P front) ↔
            P [] ∧ ∀ front, front <+: ts → P (t :: front) := by
        simp only [List.prefix_cons_iff]
        constructor
        · intro all
          exact ⟨all [] (.inl rfl), fun front within => all _ (.inr ⟨front, rfl, within⟩)⟩
        · rintro ⟨none_, some_⟩ front (rfl | ⟨rest, rfl, within⟩)
          · exact none_
          · exact some_ rest within
      rw [fronts]
      cases t with
      | opening =>
          show depth (some (n + 1)) ts = some m ↔ _
          rw [ih]
          simp only [List.count_nil, List.count_cons_self, List.count_cons_of_ne, ne_eq,
            reduceCtorEq, not_false_eq_true]
          grind
      | closing =>
          cases n with
          | zero =>
              show depth none ts = some m ↔ _
              rw [depth_none]
              simp only [List.count_cons_self, List.count_cons_of_ne, ne_eq, reduceCtorEq,
                not_false_eq_true, false_iff]
              rintro ⟨⟨-, fails⟩, -⟩
              have first := fails [] List.nil_prefix
              simp at first
          | succ n =>
              show depth (some n) ts = some m ↔ _
              rw [ih]
              simp only [List.count_nil, List.count_cons_self, List.count_cons_of_ne, ne_eq,
                reduceCtorEq, not_false_eq_true]
              grind

/-- **What the count decides.** -/
theorem balanced_iff (ts : List Bracket) : Balanced ts ↔ depth (some 0) ts = some 0 := by
  rw [depth_eq_some_iff]
  simp only [Nat.zero_add]
  constructor
  · rintro ⟨closes, whole⟩
    exact ⟨closes, whole.symm⟩
  · rintro ⟨closes, whole⟩
    exact ⟨closes, whole.symm⟩

/-- Closing everything ends at zero when it closes what is open. -/
theorem depth_replicate_closing (r : Option Nat) (n : Nat) :
    depth r (List.replicate n .closing) = some 0 ↔ r = some n := by
  induction n generalizing r with
  | zero => rfl
  | succ n ih =>
      show depth (step r .closing) (List.replicate n .closing) = some 0 ↔ _
      rw [ih]
      match r with
      | none => simp [step]
      | some 0 => simp [step]
      | some (k + 1) => simp [step]

end Brackets
