/-
# Textarea -- what a browser makes of the text in a form

The content of a `textarea` is text in which character references stand for other
characters; it ends at the next `</textarea`, and a line feed in front is dropped.
The references a browser knows are a parameter (`CharRefs`): they are of ASCII
characters, and what one stands for is not longer than its name if it starts with
an ASCII character.

A text that is printed as it stands is read back unless it is one of three kinds
(`ReadsBack`).
-/
import Bagunceiro.Lib.References
import Bagunceiro.Search

namespace Bagunceiro

open References

set_option autoImplicit false

def IsAscii (c : UInt8) : Prop := c < 128

instance (c : UInt8) : Decidable (IsAscii c) := inferInstanceAs (Decidable (_ < _))

/-- The character references, behind their `&`. -/
abbrev CharRefs := Table (38 : UInt8) IsAscii

/-- The end of the content, in whichever case. -/
def endTag : Bytes := str "</textarea"

def dropLineFeed : Bytes → Bytes
  | [] => []
  | c :: s => if c = 10 then s else c :: s

/-- What the field holds; `behind` follows the start tag. -/
def textareaValue (refs : CharRefs) (behind : Bytes) : Bytes :=
  dropLineFeed (refs.decode (Occurs.front toupper endTag behind))

/-- The text is the same when it is read as the content of a `textarea`. -/
structure ReadsBack (refs : CharRefs) (x : Bytes) : Prop where
  lineFeed : x.head? ≠ some 10
  noEnd : ¬ endTag.map toupper <:+: x.map toupper
  noReference : refs.Free x

theorem dropLineFeed_eq_append {d x v : Bytes} (same : dropLineFeed d = x ++ v) :
    d = [10] ++ (x ++ v) ∨ d = x ++ v ∧ d.head? ≠ some 10 := by
  cases d with
  | nil => exact .inr ⟨same, by simp⟩
  | cons c d =>
      rw [dropLineFeed] at same
      by_cases feed : c = 10
      · rw [if_pos feed] at same
        exact .inl (by rw [feed, same]; rfl)
      · rw [if_neg feed] at same
        exact .inr ⟨same, by simpa using feed⟩

theorem dropLineFeed_of_head {x : Bytes} (head : x.head? ≠ some 10) : dropLineFeed x = x := by
  cases x with
  | nil => rfl
  | cons c x =>
      rw [dropLineFeed, if_neg]
      simpa using head

/-- The content ends with the text, or inside of it. -/
theorem front_endTag (x tail : Bytes) :
    Occurs.front toupper endTag (x ++ (endTag ++ tail)) = Occurs.front toupper endTag x := by
  have parts : endTag = 60 :: str "/textarea" := by decide
  have stop : toupper 60 ∉ (str "/textarea").map toupper := by decide
  have there : Occurs.startsWith toupper (60 :: (str "/textarea" ++ tail)) (60 :: str "/textarea") =
      true := by
    rw [Occurs.startsWith_iff, List.map_cons, List.map_cons, List.map_append]
    exact List.prefix_append (toupper 60 :: (str "/textarea").map toupper) _
  rw [parts]
  exact Occurs.front_append toupper stop x there

/-- **When a text is read back**, as far as its terminator: when it has nothing in
it that a browser replaces, drops or ends the content at. -/
theorem cstr_textareaValue_iff (refs : CharRefs) {x : Bytes} (noNul : (0 : UInt8) ∉ x)
    (tail : Bytes) :
    cstr (textareaValue refs (x ++ (endTag ++ tail))) = x ↔ ReadsBack refs x := by
  rw [textareaValue, front_endTag]
  constructor
  · intro same
    obtain ⟨rest, cut, -⟩ := Occurs.front_spec toupper endTag x
    obtain ⟨v, whole⟩ : ∃ v, cstr (dropLineFeed (refs.decode (Occurs.front toupper endTag x))) ++ v =
        dropLineFeed (refs.decode (Occurs.front toupper endTag x)) := List.takeWhile_prefix _
    rw [same] at whole
    have continued : x ++ v = Occurs.front toupper endTag x ++ (rest ++ v) := by
      rw [← List.append_assoc, ← cut]
    rcases dropLineFeed_eq_append whole.symm with ahead | ⟨decoded, head⟩
    · rw [continued] at ahead
      have plain : ∀ c ∈ [10], IsAscii c := List.forall_mem_singleton.2 (by decide)
      exact absurd ahead (Table.decode_ne_append _ (by simp) plain _)
    · obtain ⟨nothing, free⟩ :=
        (Table.decode_eq_append_iff _ _).1 (decoded.trans continued)
      obtain ⟨rfl, rfl⟩ := List.append_eq_nil_iff.1 nothing
      rw [List.append_nil] at cut decoded
      rw [decoded] at head
      refine ⟨head, fun infix_ => ?_, cut ▸ free⟩
      exact Occurs.front_ne_of_infix toupper (by decide) infix_ cut.symm
  · intro reads
    rw [Occurs.front_of_absent toupper reads.noEnd, refs.decode_of_free reads.noReference,
      dropLineFeed_of_head reads.lineFeed]
    rw [← cstr_concat_zero, cstr_append noNul]

end Bagunceiro
