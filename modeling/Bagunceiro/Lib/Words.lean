/-
# Lib.Words -- memory in words of eight bytes

A little-endian machine of 64 bits: a word is a pointer, a `long`, or two `int`s,
the one with the lower address in its low half.  `table` lays records out behind a
table of pointers to them, with some words of zeros in between.
-/
import Mathlib.Data.List.Basic
import Mathlib.Data.Nat.Basic
import Mathlib.Tactic.Ring

namespace Words

set_option autoImplicit false

/-- The words by their numbers; the address of a word is eight times its number. -/
abbrev Memory := Nat → UInt64

def long (w : UInt64) : Int := w.toInt64.toInt

def low (w : UInt64) : Int := w.toUInt32.toInt32.toInt

def high (w : UInt64) : Int := (w >>> 32).toUInt32.toInt32.toInt

/-- A `long` that becomes an `int`. -/
def narrow (x : Int) : Int := x.bmod (2 ^ 32)

@[simp] theorem narrow_zero : narrow 0 = 0 := by decide

theorem narrow_of_lt {x : Int} (above : -2 ^ 31 ≤ x) (below : x < 2 ^ 31) : narrow x = x :=
  Int.bmod_eq_of_le (by omega) (by omega)

/-- The word of a `long`. -/
def ofLong (x : Int) : UInt64 := (Int64.ofInt x).toUInt64

theorem long_ofLong {x : Int} (above : -2 ^ 63 ≤ x) (below : x < 2 ^ 63) :
    long (ofLong x) = x := by
  rw [long, ofLong, Int64.toInt64_toUInt64, Int64.toInt_ofInt_of_le above below]

/-- Two `int`s in one word. -/
def pair (lo hi : Nat) : UInt64 := UInt64.ofNat (lo + 2 ^ 32 * hi)

theorem toInt32_of_lt {w : UInt32} (small : w.toNat < 2 ^ 31) : w.toInt32.toInt = w.toNat := by
  show w.toBitVec.toInt = _
  exact BitVec.toInt_eq_toNat_of_lt (by
    show 2 * w.toNat < 2 ^ 32
    omega)

theorem low_pair {lo : Nat} (small : lo < 2 ^ 31) (hi : Nat) : low (pair lo hi) = lo := by
  have half : (pair lo hi).toUInt32.toNat = lo := by
    rw [UInt64.toNat_toUInt32, pair, UInt64.toNat_ofNat']
    omega
  rw [low, toInt32_of_lt (by omega), half]

theorem high_pair {lo hi : Nat} (loSmall : lo < 2 ^ 31) (hiSmall : hi < 2 ^ 31) :
    high (pair lo hi) = hi := by
  have half : ((pair lo hi) >>> 32).toUInt32.toNat = hi := by
    rw [UInt64.toNat_toUInt32, UInt64.toNat_shiftRight, pair, UInt64.toNat_ofNat',
      Nat.shiftRight_eq_div_pow]
    have shift : (32 : UInt64).toNat % 64 = 32 := rfl
    rw [shift]
    omega
  rw [high, toInt32_of_lt (by omega), half]

/-! ## A table of records -/

/-- A record: its words. -/
abbrev Cell := Nat → UInt64

section Table

variable (base slack stride : Nat) (cells : List Cell)

/-- Where the records start. -/
def start : Nat := base + cells.length + slack

/-- The pointers, the words of zeros, and the records at their distance. -/
def table : Memory := fun a =>
  if a < base then 0
  else if a < base + cells.length then
    UInt64.ofNat (8 * (start base slack cells + stride * (a - base)))
  else if a < start base slack cells then 0
  else (cells.getD ((a - start base slack cells) / stride) fun _ => 0)
    ((a - start base slack cells) % stride)

variable {base slack stride cells}

theorem table_slot {i : Nat} (inside : i < cells.length) :
    table base slack stride cells (base + i) =
      UInt64.ofNat (8 * (start base slack cells + stride * i)) := by
  rw [table]
  rw [if_neg (by omega), if_pos (by omega), Nat.add_sub_cancel_left]

theorem table_slack {a : Nat} (behind : base + cells.length ≤ a)
    (before : a < start base slack cells) : table base slack stride cells a = 0 := by
  rw [table]
  rw [if_neg (by omega), if_neg (by omega), if_pos before]

theorem table_cell {i r : Nat} {cell : Cell} (inside : cells[i]? = some cell) (word : r < stride) :
    table base slack stride cells (start base slack cells + stride * i + r) = cell r := by
  have behind : base + cells.length ≤ start base slack cells := by
    rw [start]
    omega
  have offset : start base slack cells + stride * i + r - start base slack cells =
      r + stride * i := by omega
  have pos : 0 < stride := by omega
  rw [table]
  rw [if_neg (by omega), if_neg (by omega), if_neg (by omega), offset,
    Nat.add_mul_div_left _ _ pos, Nat.div_eq_of_lt word, Nat.zero_add, Nat.add_mul_mod_self_left,
    Nat.mod_eq_of_lt word, List.getD_eq_getElem?_getD, inside]
  rfl

/-- The pointers are to the records, if they all have addresses. -/
theorem toNat_table_slot {i : Nat} (inside : i < cells.length)
    (fits : 8 * (start base slack cells + stride * cells.length) < 2 ^ 64) :
    (table base slack stride cells (base + i)).toNat =
      8 * (start base slack cells + stride * i) := by
  have less : stride * i ≤ stride * cells.length := Nat.mul_le_mul_left _ (Nat.le_of_lt inside)
  rw [table_slot inside, UInt64.toNat_ofNat', Nat.mod_eq_of_lt (by omega)]

end Table

end Words
