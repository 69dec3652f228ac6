/-
# Lib.Radix -- fixed-width big-endian bytes and hexadecimal text

* `toBytesBE w n` is the `w` byte big-endian encoding of `n`, `ofBytesBE` reads
  one back; they are inverse below `256 ^ w`, and encodings concatenate
  (`toBytesBE_add`).
* `decimal` writes a number without leading zeros, `ofDecimal` reads digits.
* `hexdump` writes two lower-case digits for each byte; `fromHex` reads a digit
  back (`fromHex_hexDigit`).
-/
import Mathlib.Data.List.Induction
import Mathlib.Data.Nat.Basic
import Mathlib.Tactic.Ring
import Mathlib.Tactic.IntervalCases

namespace Radix

set_option autoImplicit false

/-! ## Big-endian bytes -/

/-- The `w` big-endian bytes of `n`; what does not fit is dropped. -/
def toBytesBE : Nat → Nat → List UInt8
  | 0, _ => []
  | w + 1, n => toBytesBE w (n / 256) ++ [UInt8.ofNat (n % 256)]

/-- The number big-endian bytes stand for. -/
def ofBytesBE (bytes : List UInt8) : Nat :=
  bytes.foldl (fun n b => n * 256 + b.toNat) 0

@[simp] theorem length_toBytesBE (w n : Nat) : (toBytesBE w n).length = w := by
  induction w generalizing n with
  | zero => rfl
  | succ w ih => simp [toBytesBE, ih]

theorem ofBytesBE_append_singleton (bytes : List UInt8) (b : UInt8) :
    ofBytesBE (bytes ++ [b]) = ofBytesBE bytes * 256 + b.toNat := by
  simp [ofBytesBE]

theorem ofBytesBE_toBytesBE (w n : Nat) : ofBytesBE (toBytesBE w n) = n % 256 ^ w := by
  induction w generalizing n with
  | zero => simp [toBytesBE, ofBytesBE, Nat.mod_one]
  | succ w ih =>
      have low : n % 256 % 2 ^ 8 = n % 256 := Nat.mod_eq_of_lt (Nat.mod_lt n (by norm_num))
      rw [toBytesBE, ofBytesBE_append_singleton, ih, UInt8.toNat_ofNat', low, pow_succ',
        Nat.mod_mul]
      ring

theorem ofBytesBE_toBytesBE_of_lt {w n : Nat} (fits : n < 256 ^ w) :
    ofBytesBE (toBytesBE w n) = n := by
  rw [ofBytesBE_toBytesBE, Nat.mod_eq_of_lt fits]

theorem ofBytesBE_append (xs ys : List UInt8) :
    ofBytesBE (xs ++ ys) = ofBytesBE xs * 256 ^ ys.length + ofBytesBE ys := by
  induction ys using List.reverseRecOn with
  | nil => simp [ofBytesBE]
  | append_singleton ys b ih =>
      rw [← List.append_assoc, ofBytesBE_append_singleton, ofBytesBE_append_singleton, ih,
        List.length_append, List.length_singleton, pow_succ]
      ring

theorem ofBytesBE_lt (bytes : List UInt8) : ofBytesBE bytes < 256 ^ bytes.length := by
  induction bytes using List.reverseRecOn with
  | nil => decide
  | append_singleton bytes b ih =>
      have low := b.toNat_lt
      rw [ofBytesBE_append_singleton, List.length_append, List.length_singleton, pow_succ]
      omega

/-- Bytes are the encoding of their number. -/
theorem toBytesBE_ofBytesBE (bytes : List UInt8) :
    toBytesBE bytes.length (ofBytesBE bytes) = bytes := by
  induction bytes using List.reverseRecOn with
  | nil => rfl
  | append_singleton bytes b ih =>
      have low := b.toNat_lt
      have high : (ofBytesBE bytes * 256 + b.toNat) / 256 = ofBytesBE bytes := by omega
      have last : (ofBytesBE bytes * 256 + b.toNat) % 256 = b.toNat := by omega
      rw [ofBytesBE_append_singleton, List.length_append, List.length_singleton, toBytesBE, high,
        last, ih, UInt8.ofNat_toNat]

/-- A wide encoding is its high part followed by its low part. -/
theorem toBytesBE_add (v w n : Nat) :
    toBytesBE (v + w) n = toBytesBE v (n / 256 ^ w) ++ toBytesBE w n := by
  induction w generalizing n with
  | zero => simp [toBytesBE]
  | succ w ih =>
      rw [← Nat.add_assoc, toBytesBE, ih, toBytesBE, Nat.div_div_eq_div_mul, ← pow_succ',
        List.append_assoc]

/-! ## Decimal digits -/

/-- At most `fuel` digits, the last one first to be split off. -/
def decimalFrom : Nat → Nat → List UInt8
  | 0, _ => []
  | fuel + 1, n =>
      (if n / 10 = 0 then [] else decimalFrom fuel (n / 10)) ++ [UInt8.ofNat (48 + n % 10)]

/-- The decimal digits of a number; zero has one. -/
def decimal (n : Nat) : List UInt8 := decimalFrom (n + 1) n

def ofDecimal (digits : List UInt8) : Nat :=
  digits.foldl (fun n c => n * 10 + (c.toNat - 48)) 0

theorem ofDecimal_decimalFrom {fuel n : Nat} (enough : n < fuel) :
    ofDecimal (decimalFrom fuel n) = n := by
  induction fuel generalizing n with
  | zero => omega
  | succ fuel ih =>
      have last : (UInt8.ofNat (48 + n % 10)).toNat - 48 = n % 10 := by
        rw [UInt8.toNat_ofNat']
        omega
      have front : ofDecimal (if n / 10 = 0 then [] else decimalFrom fuel (n / 10)) = n / 10 := by
        split
        · rename_i single
          rw [single]
          rfl
        · exact ih (by omega)
      have split_ (front : List UInt8) (c : UInt8) :
          ofDecimal (front ++ [c]) = ofDecimal front * 10 + (c.toNat - 48) := by
        simp [ofDecimal]
      rw [decimalFrom, split_, front, last]
      omega

theorem length_decimalFrom {k : Nat} (fuel n : Nat) (small : n < 10 ^ (k + 1)) :
    (decimalFrom fuel n).length ≤ k + 1 := by
  induction k generalizing fuel n with
  | zero =>
      cases fuel with
      | zero => simp [decimalFrom]
      | succ fuel =>
          have single : n / 10 = 0 := by omega
          simp [decimalFrom, single]
  | succ k ih =>
      cases fuel with
      | zero => simp [decimalFrom]
      | succ fuel =>
          rw [pow_succ] at small
          have front := ih fuel (n / 10) (by omega)
          rw [decimalFrom, List.length_append, List.length_singleton]
          split
          · simp
          · omega

/-- No fewer digits do. -/
theorem lt_of_length_decimalFrom {k fuel n : Nat} (enough : n < fuel)
    (short : (decimalFrom fuel n).length ≤ k) : n < 10 ^ k := by
  induction fuel generalizing n k with
  | zero => omega
  | succ fuel ih =>
      rw [decimalFrom, List.length_append, List.length_singleton] at short
      obtain ⟨k, rfl⟩ : ∃ j, k = j + 1 := ⟨k - 1, by omega⟩
      have positive : 0 < 10 ^ k := by positivity
      rw [pow_succ]
      split at short
      · omega
      · have front : n / 10 < 10 ^ k := ih (by omega) (by omega)
        omega

theorem length_decimal_le_iff {k n : Nat} :
    (decimal n).length ≤ k + 1 ↔ n < 10 ^ (k + 1) := by
  constructor
  · exact lt_of_length_decimalFrom (Nat.lt_succ_self n)
  · exact length_decimalFrom (n + 1) n

theorem decimal_injective : Function.Injective decimal := by
  intro n m same
  rw [← ofDecimal_decimalFrom (Nat.lt_succ_self n), ← ofDecimal_decimalFrom (Nat.lt_succ_self m)]
  exact congrArg ofDecimal same

theorem digit_of_mem_decimal {n : Nat} {c : UInt8} (member : c ∈ decimal n) :
    48 ≤ c.toNat ∧ c.toNat ≤ 57 := by
  suffices each : ∀ fuel n, c ∈ decimalFrom fuel n → 48 ≤ c.toNat ∧ c.toNat ≤ 57 from
    each _ _ member
  intro fuel
  induction fuel with
  | zero => intro n inside; simp [decimalFrom] at inside
  | succ fuel ih =>
      intro n inside
      rw [decimalFrom, List.mem_append] at inside
      rcases inside with front | last
      · split at front
        · simp at front
        · exact ih _ front
      · rw [List.mem_singleton.1 last, UInt8.toNat_ofNat']
        omega

/-! ## Hexadecimal digits -/

/-- The lower-case digit of a value below sixteen. -/
def hexDigit (d : Nat) : UInt8 := UInt8.ofNat (if d < 10 then 48 + d else 87 + d)

/-- The value of a digit of either case. -/
def fromHex (c : UInt8) : Option Nat :=
  if 48 ≤ c.toNat ∧ c.toNat ≤ 57 then some (c.toNat - 48)
  else if 97 ≤ c.toNat ∧ c.toNat ≤ 102 then some (c.toNat - 87)
  else if 65 ≤ c.toNat ∧ c.toNat ≤ 70 then some (c.toNat - 55)
  else none

/-- A decimal digit or a letter from `a` to `f`. -/
def isLowerHex (c : UInt8) : Bool :=
  (48 ≤ c.toNat && c.toNat ≤ 57) || (97 ≤ c.toNat && c.toNat ≤ 102)

theorem fromHex_hexDigit {d : Nat} (small : d < 16) : fromHex (hexDigit d) = some d := by
  interval_cases d <;> decide

theorem fromHex_lt {c : UInt8} {d : Nat} (digit : fromHex c = some d) : d < 16 := by
  rw [fromHex] at digit
  split_ifs at digit <;> cases digit <;> omega

theorem fromHex_isSome_of_isLowerHex {c : UInt8} (digit : isLowerHex c = true) :
    (fromHex c).isSome = true := by
  rw [isLowerHex] at digit
  rw [fromHex]
  grind

theorem isLowerHex_hexDigit {d : Nat} (small : d < 16) : isLowerHex (hexDigit d) = true := by
  interval_cases d <;> decide

/-- Two digits for each byte. -/
def hexdump (bytes : List UInt8) : List UInt8 :=
  bytes.flatMap fun b => [hexDigit (b.toNat / 16), hexDigit (b.toNat % 16)]

@[simp] theorem hexdump_cons (b : UInt8) (bytes : List UInt8) :
    hexdump (b :: bytes) =
      hexDigit (b.toNat / 16) :: hexDigit (b.toNat % 16) :: hexdump bytes := rfl

@[simp] theorem hexdump_append (xs ys : List UInt8) : hexdump (xs ++ ys) = hexdump xs ++ hexdump ys := by
  simp [hexdump]

@[simp] theorem length_hexdump (bytes : List UInt8) : (hexdump bytes).length = 2 * bytes.length := by
  induction bytes with
  | nil => rfl
  | cons b bytes ih => simp only [hexdump_cons, List.length_cons, ih]; ring

theorem isLowerHex_of_mem_hexdump {bytes : List UInt8} {c : UInt8} (member : c ∈ hexdump bytes) :
    isLowerHex c = true := by
  simp only [hexdump, List.mem_flatMap, List.mem_cons, List.not_mem_nil, or_false] at member
  obtain ⟨b, -, rfl | rfl⟩ := member
  · exact isLowerHex_hexDigit (by have := b.toNat_lt; omega)
  · exact isLowerHex_hexDigit (Nat.mod_lt _ (by norm_num))

/-- Pairs of digits are the dump of some bytes, but for the case of the letters. -/
theorem exists_hexdump {n : Nat} {digits : List UInt8} (length : digits.length = 2 * n)
    (all : ∀ c ∈ digits, (fromHex c).isSome = true) :
    ∃ bytes, bytes.length = n ∧ (hexdump bytes).map fromHex = digits.map fromHex := by
  induction n generalizing digits with
  | zero =>
      obtain rfl : digits = [] := List.length_eq_zero_iff.1 length
      exact ⟨[], rfl, rfl⟩
  | succ n ih =>
      obtain ⟨a, b, rest, rfl⟩ : ∃ a b rest, digits = a :: b :: rest := by
        match digits, length with
        | a :: b :: rest, _ => exact ⟨a, b, rest, rfl⟩
      obtain ⟨high, isHigh⟩ := Option.isSome_iff_exists.1 (all a (by simp))
      obtain ⟨low, isLow⟩ := Option.isSome_iff_exists.1 (all b (by simp))
      have rest_ : rest.length = 2 * n := by simpa [Nat.mul_succ] using length
      obtain ⟨bytes, size, dump⟩ := ih rest_ fun c member => all c (by simp [member])
      have highLt := fromHex_lt isHigh
      have lowLt := fromHex_lt isLow
      have value : (UInt8.ofNat (high * 16 + low)).toNat = high * 16 + low := by
        rw [UInt8.toNat_ofNat']
        omega
      have first : (high * 16 + low) / 16 = high := by omega
      have second_ : (high * 16 + low) % 16 = low := by omega
      refine ⟨UInt8.ofNat (high * 16 + low) :: bytes, by rw [List.length_cons, size], ?_⟩
      rw [hexdump_cons, value, first, second_, List.map_cons, List.map_cons, dump,
        fromHex_hexDigit highLt, fromHex_hexDigit lowLt, List.map_cons, List.map_cons, isHigh, isLow]

end Radix
