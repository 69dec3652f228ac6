/-
# Lib.Frames -- encodings that show where they end

An encoding is delimited when whatever follows it can be told apart from it.  Then
what is written one behind the other can be read back in one way only
(`Framing.encode_injective`).  A front that is delimited and says how long the rest is
delimits the whole (`Framing.ofFront`).
-/
import Mathlib.Data.List.Basic

namespace Frames

set_option autoImplicit false

structure Framing (ρ α : Type) where
  bytes : ρ → List α
  some_ : ∀ r, bytes r ≠ []
  delimited : ∀ {r r' s s'}, bytes r ++ s = bytes r' ++ s' → r = r' ∧ s = s'

namespace Framing

variable {ρ φ α : Type} (f : Framing ρ α)

/-- One behind the other. -/
def encode (rs : List ρ) : List α := rs.flatMap f.bytes

@[simp] theorem encode_nil : f.encode [] = [] := rfl

@[simp] theorem encode_cons (r : ρ) (rs : List ρ) : f.encode (r :: rs) = f.bytes r ++ f.encode rs :=
  rfl

@[simp] theorem encode_append (rs ts : List ρ) :
    f.encode (rs ++ ts) = f.encode rs ++ f.encode ts :=
  List.flatMap_append

theorem encode_eq_nil_iff (rs : List ρ) : f.encode rs = [] ↔ rs = [] := by
  cases rs with
  | nil => simp
  | cons r rs => simp [f.some_ r]

/-- **Nothing is read back but what was written.** -/
theorem encode_injective : Function.Injective f.encode := by
  intro rs ts same
  induction rs generalizing ts with
  | nil => exact ((f.encode_eq_nil_iff ts).1 same.symm).symm
  | cons r rs ih =>
      cases ts with
      | nil => exact (f.encode_eq_nil_iff _).1 same
      | cons t ts =>
          obtain ⟨rfl, rest⟩ := f.delimited same
          rw [ih rest]

/-- A front that says how much follows it. -/
def ofFront (f : Framing φ α) (front : ρ → φ) (body : ρ → List α) (length : φ → Nat)
    (counts : ∀ r, (body r).length = length (front r))
    (whole : ∀ r r', front r = front r' → body r = body r' → r = r') : Framing ρ α where
  bytes r := f.bytes (front r) ++ body r
  some_ r := List.append_ne_nil_of_left_ne_nil (f.some_ _) _
  delimited := by
    intro r r' s s' same
    rw [List.append_assoc, List.append_assoc] at same
    obtain ⟨fronts, rest⟩ := f.delimited same
    have lengths : (body r).length = (body r').length := by rw [counts, counts, fronts]
    obtain ⟨bodies, rest⟩ := List.append_inj rest lengths
    exact ⟨whole r r' fronts bodies, rest⟩

end Framing

end Frames
