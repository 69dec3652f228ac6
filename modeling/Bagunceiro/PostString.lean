/-
# PostString -- reading the posted data (`get_post_string`, without FastCGI)

`buffer_get_array` appends what the buffer has, fill after fill, until a fill
fails.  It then returns the result of that last fill and not what it counted, so
the loop of `get_post_string` ends after one call, and its test of the size is
never made: the array is the whole input.
-/
import Bagunceiro.Mainblog

namespace Bagunceiro

set_option autoImplicit false

/-- What the calls of `buffer_feed` find: fills of a buffer of `B` bytes, and
then the end of the input (0) or an error (-1). -/
structure Feeds (B : Nat) where
  fills : List Bytes
  last : Int
  fill_size : ∀ fill ∈ fills, 0 < fill.length ∧ fill.length ≤ B
  last_end : last = 0 ∨ last = -1

/-- The loop of `buffer_get_array`: what is returned, the array, and the fills
that are left.  `done` is counted, but the only way out is a fill that fails. -/
def bufferGetArray (last : Int) : List Bytes → Nat → Bytes → Int × Bytes × List Bytes
  | [], _, x => (last, x, [])
  | fill :: fills, done, x => bufferGetArray last fills (done + fill.length) (x ++ fill)

/-- The `while` of `get_post_string`, for at most so many rounds. -/
def postLoop (last : Int) : Nat → List Bytes → Bytes → Option Bytes
  | 0, _, _ => none
  | rounds + 1, fills, ps =>
      let (blen, ps, rest) := bufferGetArray last fills 0 ps
      if 0 < blen then
        if postdataMax < ps.length then some ps else postLoop last rounds rest ps
      else some ps

section

variable {B : Nat}

/-- `len` is `CONTENT_LENGTH`; a round takes a fill or is the last. -/
def getPostString (len : Option Bytes) (feeds : Feeds B) : Option Bytes :=
  match len with
  | none => some []
  | some _ => postLoop feeds.last (feeds.fills.length + 1) feeds.fills []

/-- The array is within the limit, as the test of its size intends. -/
def Bounded (len : Option Bytes) (feeds : Feeds B) : Prop :=
  ∃ ps, getPostString len feeds = some ps ∧ ps.length ≤ postdataMax + B

/-- The caller is told how many bytes were appended. -/
def Reports (feeds : Feeds B) : Prop :=
  ∀ x, let (blen, x', _) := bufferGetArray feeds.last feeds.fills 0 x
    blen = (x'.length : Int) - x.length

theorem bufferGetArray_eq (last : Int) (fills : List Bytes) (done : Nat) (x : Bytes) :
    bufferGetArray last fills done x = (last, x ++ fills.flatten, []) := by
  induction fills generalizing done x with
  | nil => simp [bufferGetArray]
  | cons fill fills ih => simp [bufferGetArray, ih]

/-- Whatever its size, the whole input is read. -/
theorem getPostString_eq (len : Bytes) (feeds : Feeds B) :
    getPostString (some len) feeds = some feeds.fills.flatten := by
  have stops : ¬ 0 < feeds.last := by
    rcases feeds.last_end with last | last <;> omega
  simp [getPostString, postLoop, bufferGetArray_eq, stops]

theorem reports_iff (feeds : Feeds B) : Reports feeds ↔ feeds.fills = [] ∧ feeds.last = 0 := by
  have told : Reports feeds ↔ feeds.last = feeds.fills.flatten.length := by
    simp [Reports, bufferGetArray_eq]
  rw [told]
  constructor
  · intro last
    have ended := feeds.last_end
    have nothing : feeds.fills.flatten = [] := by
      rw [← List.length_eq_zero_iff]
      omega
    refine ⟨?_, by simpa [nothing] using last⟩
    rw [List.eq_nil_iff_forall_not_mem]
    intro fill member
    have empty := List.flatten_eq_nil_iff.1 nothing fill member
    have size := (feeds.fill_size fill member).1
    simp [empty] at size
  · rintro ⟨nothing, last⟩
    simp [nothing, last]

/-- **The array keeps to the limit exactly when the input does, and the caller is
told the truth exactly when there is no input.** -/
theorem postString_iff (len : Option Bytes) (feeds : Feeds B) :
    (Bounded len feeds ↔ len = none ∨ feeds.fills.flatten.length ≤ postdataMax + B) ∧
      (Reports feeds ↔ feeds.fills = [] ∧ feeds.last = 0) := by
  refine ⟨?_, reports_iff feeds⟩
  cases len with
  | none => simp [Bounded, getPostString]
  | some len => simp [Bounded, getPostString_eq]

/-- Full buffers, then the end of the input. -/
def fullFills (pos : 0 < B) (n : Nat) : Feeds B where
  fills := List.replicate n (List.replicate B 65)
  last := 0
  fill_size := by simp [pos]
  last_end := .inl rfl

theorem length_fullFills (pos : 0 < B) (n : Nat) : (fullFills pos n).fills.flatten.length = n * B := by
  simp [fullFills]

end

/-- Ten full buffers of 8192 bytes are more than the limit and one buffer. -/
theorem ten_fills_too_long :
    ¬ Bounded (some (str "81920")) (fullFills (B := 8192) (by decide) 10) ∧
      ¬ Reports (fullFills (B := 8192) (by decide) 10) := by
  constructor
  · rintro ⟨ps, got, short⟩
    rw [getPostString_eq, Option.some.injEq] at got
    rw [← got, length_fullFills] at short
    simp [postdataMax] at short
  · rw [reports_iff]
    rintro ⟨nothing, -⟩
    have length := length_fullFills (B := 8192) (by decide) 10
    rw [nothing] at length
    simp at length

end Bagunceiro
