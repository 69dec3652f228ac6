/-
# Libowfat.Taia -- TAI64NA time stamps

`struct taia` and the operations on it that the blog uses.  A packed stamp is
the big-endian encoding of its three fields, so the number those sixteen bytes
stand for (`Taia.value`) orders stamps the way `taia_less` does
(`taiaLess_iff`), and adding whole seconds adds `second` for each.

Assumed of libowfat: `taia_pack` and `taia_unpack` are
the encoding in 8 + 4 + 4 big-endian bytes; `taia_less` compares the seconds, then
the nanoseconds, then the attoseconds; `taia_uint` and `taia_addsec` set and add whole
seconds; `taia_sub` is the difference, borrowing a second of 10^9 nanoseconds and a
nanosecond of 10^9 attoseconds, and the seconds are of 64 bits.
-/
import Bagunceiro.Lib.Radix
import Bagunceiro.Libowfat.Bytes

namespace Bagunceiro

open Radix

set_option autoImplicit false

/-- `TAIA_PACK` -/
def taiaPackSize : Nat := 16

/-- `struct taia` -/
structure Taia where
  sec : UInt64
  nano : UInt32
  atto : UInt32
  deriving DecidableEq, Repr

/-- `taia_pack`: 8 + 4 + 4 big-endian bytes. -/
def taiaPack (t : Taia) : Bytes :=
  toBytesBE 8 t.sec.toNat ++ toBytesBE 4 t.nano.toNat ++ toBytesBE 4 t.atto.toNat

/-- `taia_unpack`: the stamp at the front of a piece of memory. -/
def taiaUnpack (memory : Bytes) : Taia where
  sec := UInt64.ofNat (ofBytesBE (memory.take 8))
  nano := UInt32.ofNat (ofBytesBE ((memory.drop 8).take 4))
  atto := UInt32.ofNat (ofBytesBE ((memory.drop 12).take 4))

/-- `taia_less` -/
def taiaLess (t u : Taia) : Bool :=
  if t.sec < u.sec then true
  else if u.sec < t.sec then false
  else if t.nano < u.nano then true
  else if u.nano < t.nano then false
  else t.atto < u.atto

/-- `taia_addsec`: the seconds wrap at 64 bits. -/
def taiaAddsec (t : Taia) (s : UInt64) : Taia := { t with sec := t.sec + s }

/-- `taia_uint`: whole seconds. -/
def taiaUint (s : UInt64) : Taia := ⟨s, 0, 0⟩

/-- `taia_sub`, with a borrow from each field to the one before it. -/
def taiaSub (u v : Taia) : Taia :=
  let sec := u.sec - v.sec
  let nano := u.nano - v.nano
  let atto := u.atto - v.atto
  let (atto, nano) := if u.atto < atto then (atto + 1000000000, nano - 1) else (atto, nano)
  let (nano, sec) := if u.nano < nano then (nano + 1000000000, sec - 1) else (nano, sec)
  { sec, nano, atto }

/-- Whole seconds are taken from the seconds. -/
@[simp] theorem taiaSub_taiaUint (t : Taia) (s : UInt64) :
    taiaSub t (taiaUint s) = { t with sec := t.sec - s } := by
  simp [taiaSub, taiaUint]

@[simp] theorem length_taiaPack (t : Taia) : (taiaPack t).length = 16 := by
  simp [taiaPack]

/-- Only the first sixteen bytes are read. -/
theorem taiaUnpack_append {memory : Bytes} (whole : memory.length = taiaPackSize) (rest : Bytes) :
    taiaUnpack (memory ++ rest) = taiaUnpack memory := by
  have length : memory.length = 16 := whole
  have front : (memory ++ rest).take 8 = memory.take 8 :=
    List.take_append_of_le_length (by omega)
  have middle : ((memory ++ rest).drop 8).take 4 = (memory.drop 8).take 4 := by
    rw [List.drop_append_of_le_length (by omega),
      List.take_append_of_le_length (by rw [List.length_drop]; omega)]
  have back : ((memory ++ rest).drop 12).take 4 = (memory.drop 12).take 4 := by
    rw [List.drop_append_of_le_length (by omega),
      List.take_append_of_le_length (by rw [List.length_drop]; omega)]
  rw [taiaUnpack, front, middle, back]
  rfl

theorem taiaUnpack_taiaPack_append (t : Taia) (rest : Bytes) :
    taiaUnpack (taiaPack t ++ rest) = t := by
  have sec : t.sec.toNat < 256 ^ 8 := t.sec.toNat_lt
  have nano : t.nano.toNat < 256 ^ 4 := t.nano.toNat_lt
  have atto : t.atto.toNat < 256 ^ 4 := t.atto.toNat_lt
  have take8 : (taiaPack t ++ rest).take 8 = toBytesBE 8 t.sec.toNat := by
    simp [taiaPack]
  have take4 : ((taiaPack t ++ rest).drop 8).take 4 = toBytesBE 4 t.nano.toNat := by
    simp [taiaPack]
  have take4' : ((taiaPack t ++ rest).drop 12).take 4 = toBytesBE 4 t.atto.toNat := by
    simp [taiaPack, List.drop_append, List.drop_of_length_le]
  simp only [taiaUnpack, take8, take4, take4', ofBytesBE_toBytesBE_of_lt sec,
    ofBytesBE_toBytesBE_of_lt nano, ofBytesBE_toBytesBE_of_lt atto, UInt64.ofNat_toNat,
    UInt32.ofNat_toNat]

@[simp] theorem taiaUnpack_taiaPack (t : Taia) : taiaUnpack (taiaPack t) = t := by
  simpa using taiaUnpack_taiaPack_append t []

/-- Sixteen bytes are unpacked without a loss. -/
theorem taiaPack_taiaUnpack {memory : Bytes} (whole : memory.length = taiaPackSize) :
    taiaPack (taiaUnpack memory) = memory := by
  have length : memory.length = 16 := whole
  have field {bytes : Bytes} {n : Nat} (size : bytes.length = n) :
      toBytesBE n (ofBytesBE bytes) = bytes := size ▸ toBytesBE_ofBytesBE bytes
  have take8 : (memory.take 8).length = 8 := by simp [length]
  have take4 : ((memory.drop 8).take 4).length = 4 := by simp [length]
  have take4' : ((memory.drop 12).take 4).length = 4 := by simp [length]
  have small {bytes : Bytes} {n : Nat} (size : bytes.length = n) : ofBytesBE bytes < 256 ^ n :=
    size ▸ ofBytesBE_lt bytes
  have sec : (UInt64.ofNat (ofBytesBE (memory.take 8))).toNat = ofBytesBE (memory.take 8) := by
    rw [UInt64.toNat_ofNat']
    exact Nat.mod_eq_of_lt (small take8)
  have word {bytes : Bytes} (size : bytes.length = 4) :
      (UInt32.ofNat (ofBytesBE bytes)).toNat = ofBytesBE bytes := by
    rw [UInt32.toNat_ofNat']
    exact Nat.mod_eq_of_lt (small size)
  have back : (memory.drop 12).take 4 = memory.drop 12 :=
    List.take_of_length_le (by rw [List.length_drop]; omega)
  have middle : (memory.drop 8).take 4 ++ memory.drop 12 = memory.drop 8 := by
    rw [← List.take_append_drop 4 (memory.drop 8), List.drop_drop, List.take_left' take4]
  rw [taiaPack, taiaUnpack]
  simp only [sec, word take4, word take4']
  rw [field take8, field take4, field take4', back, List.append_assoc, middle,
    List.take_append_drop]

theorem taiaPack_injective : Function.Injective taiaPack := by
  intro t u same
  rw [← taiaUnpack_taiaPack t, same, taiaUnpack_taiaPack]

@[simp] theorem taiaPack_inj {t u : Taia} : taiaPack t = taiaPack u ↔ t = u :=
  taiaPack_injective.eq_iff

/-! ## The order of stamps -/

/-- One second, in units of the last place of a packed stamp. -/
def second : Nat := 2 ^ 64

/-- The number a packed stamp is the big-endian encoding of. -/
def Taia.value (t : Taia) : Nat := t.sec.toNat * second + t.nano.toNat * 2 ^ 32 + t.atto.toNat

theorem taiaLess_iff (t u : Taia) : taiaLess t u = true ↔ t.value < u.value := by
  have t2 := t.nano.toNat_lt
  have t3 := t.atto.toNat_lt
  have u2 := u.nano.toNat_lt
  have u3 := u.atto.toNat_lt
  simp only [taiaLess, Taia.value, second, UInt64.lt_iff_toNat_lt, UInt32.lt_iff_toNat_lt]
  split_ifs <;> simp <;> omega

/-- Below the year the seconds wrap, a second more is `second` more. -/
theorem value_taiaAddsec (t : Taia) (s : UInt64) (small : t.sec.toNat + s.toNat < 2 ^ 64) :
    (taiaAddsec t s).value = t.value + s.toNat * second := by
  simp only [taiaAddsec, Taia.value, UInt64.toNat_add, Nat.mod_eq_of_lt small]
  ring

end Bagunceiro
