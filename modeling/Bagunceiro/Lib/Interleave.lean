/-
# Lib.Interleave -- two programs on one system, call by call

A `Duo` is a system and what two programs still have to do on it.  A schedule
says which side moves; a move is one call, and a side that has nothing left to
call stands still.  `interleave` runs a schedule and `calls` is its trace, every
call tagged with the side that made it.

`interleave_induction` is the proof rule: a property of the two programs, the
system and the trace so far that every allowed move keeps holds at the end.
What is allowed may depend on the whole past, as long as it is closed under
cutting the trace short.
-/
import Mathlib.Logic.Function.Basic
import Bagunceiro.Lib.Prog

namespace Effect

set_option autoImplicit false

inductive Side
  | left | right
  deriving DecidableEq, Repr

def Side.other : Side → Side
  | .left => .right
  | .right => .left

theorem Side.other_ne (side : Side) : side.other ≠ side := by cases side <;> decide

theorem Side.eq_or_other (first side : Side) : side = first ∨ side = first.other := by
  cases first <;> cases side <;> decide

namespace Prog

variable {ε C : Type} {A : C → Type} {α σ : Type} (h : Handler C A σ)

/-- The first call of a program, made; nothing when there is none. -/
def step : Prog ε C A α → σ → Prog ε C A α × σ
  | .call c k, s => (k (h c s).1, (h c s).2)
  | .ret a, s => (.ret a, s)
  | .fail e, s => (.fail e, s)

/-- The call a program is about to make. -/
def pending : Prog ε C A α → Option C
  | .call c _ => some c
  | .ret _ => none
  | .fail _ => none

/-- A step changes neither what the program comes to nor where. -/
theorem run_step (p : Prog ε C A α) (s : σ) : run h (step h p s).1 (step h p s).2 = run h p s := by
  cases p <;> rfl

end Prog

/-- A system, and what two programs still have to do on it. -/
structure Duo (ε C : Type) (A : C → Type) (α σ : Type) where
  st : σ
  prog : Side → Prog ε C A α

namespace Duo

variable {ε C : Type} {A : C → Type} {α σ : Type} (h : Handler C A σ)

/-- One side makes its next call. -/
def move (d : Duo ε C A α σ) (side : Side) : Duo ε C A α σ where
  st := ((d.prog side).step h d.st).2
  prog := Function.update d.prog side ((d.prog side).step h d.st).1

/-- The call that move makes, if any. -/
def moved (d : Duo ε C A α σ) (side : Side) : List (Side × C) :=
  ((d.prog side).pending.map (side, ·)).toList

@[simp] theorem move_st (d : Duo ε C A α σ) (side : Side) :
    (d.move h side).st = ((d.prog side).step h d.st).2 := rfl

@[simp] theorem move_self (d : Duo ε C A α σ) (side : Side) :
    (d.move h side).prog side = ((d.prog side).step h d.st).1 := Function.update_self ..

theorem move_ne (d : Duo ε C A α σ) {side other : Side} (ne : other ≠ side) :
    (d.move h side).prog other = d.prog other := Function.update_of_ne ne ..

theorem moved_call {d : Duo ε C A α σ} {side : Side} {c : C} {k : A c → Prog ε C A α}
    (next : d.prog side = .call c k) : d.moved side = [(side, c)] := by
  rw [moved]
  rw [next]
  rfl

theorem move_call {d : Duo ε C A α σ} {side : Side} {c : C} {k : A c → Prog ε C A α}
    (next : d.prog side = .call c k) :
    (d.move h side).prog side = k (h c d.st).1 ∧ (d.move h side).st = (h c d.st).2 := by
  rw [move_self, move_st, next]
  exact ⟨rfl, rfl⟩

/-- A side that has returned stands still. -/
theorem move_ret {d : Duo ε C A α σ} {side : Side} {a : α} (done : d.prog side = .ret a) :
    d.moved side = [] ∧ d.move h side = d := by
  constructor
  · rw [moved]
    rw [done]
    rfl
  · obtain ⟨st, prog⟩ := d
    simp only at done
    rw [move]
    simp only [done, Prog.step]
    rw [← done, Function.update_eq_self]

end Duo

section Runs

variable {ε C : Type} {A : C → Type} {α σ : Type} (h : Handler C A σ)

def interleave : List Side → Duo ε C A α σ → Duo ε C A α σ
  | [], d => d
  | side :: sched, d => interleave sched (d.move h side)

/-- The trace of a schedule. -/
def calls : List Side → Duo ε C A α σ → List (Side × C)
  | [], _ => []
  | side :: sched, d => d.moved side ++ calls sched (d.move h side)

/-- **Induction over a schedule.** -/
theorem interleave_induction {allowed : List (Side × C) → Prop}
    (closed : ∀ past later, allowed (past ++ later) → allowed past)
    {inv : Duo ε C A α σ → List (Side × C) → Prop}
    (keep : ∀ d past side, inv d past → allowed (past ++ d.moved side) →
      inv (d.move h side) (past ++ d.moved side))
    (sched : List Side) (d : Duo ε C A α σ) (past : List (Side × C)) (start : inv d past)
    (all : allowed (past ++ calls h sched d)) :
    inv (interleave h sched d) (past ++ calls h sched d) := by
  induction sched generalizing d past with
  | nil =>
      simp only [calls, List.append_nil]
      exact start
  | cons side sched ih =>
      simp only [calls, ← List.append_assoc] at all ⊢
      have here : allowed (past ++ d.moved side) := closed _ _ all
      exact ih (d.move h side) (past ++ d.moved side) (keep d past side start here) all

end Runs

end Effect
