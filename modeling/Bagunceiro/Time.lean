/-
# Time -- time stamps as text (`z_time.c`)

The key of an entry is a packed stamp; in links it is a window of sixteen of its
thirty-two hexadecimal digits.  `reduceTs` cuts the window out, `inflateTs`
builds the digits around it again, `scanTimeHex` reads them.
-/
import Bagunceiro.Blog

namespace Bagunceiro

open Radix

set_option autoImplicit false

/-- `REDUCE_SIZE` -/
def reduceSize : Nat := 16
/-- `REDUCE_OFFSET` -/
def reduceOffset : Nat := 24 - reduceSize

/-- `reduce_ts` on the front of the caller's memory; `last` is what the
automatic buffer holds in its last byte, which nobody sets. -/
def reduceTs (last : UInt8) (src : Bytes) : Bytes :=
  let tmp := List.replicate (fmtTaiaHex - 1) 48 ++ [last]
  let tmp := (src.drop reduceOffset).take reduceSize ++ tmp.drop reduceSize
  let src := tmp ++ src.drop fmtTaiaHex
  src.take reduceSize ++ 0 :: src.drop (reduceSize + 1)

/-- `inflate_ts` -/
def inflateTs (src : Bytes) : Bytes :=
  let tmp := List.replicate fmtTaiaHex 48
  let tmp := tmp.take reduceOffset ++ src.take reduceSize ++ tmp.drop (reduceOffset + reduceSize)
  let tmp := str "40000000" ++ tmp.drop reduceOffset
  tmp ++ src.drop fmtTaiaHex

/-- `scan_hexdump` from `s` into `dest`: a half pair at the end still sets the
high digit of a byte.  Assumed of libowfat: it reads two digits, of either case, for
each byte, up to the first character that is none. -/
def scanHexdump : Bytes → Bytes → Bytes
  | a :: b :: rest, dest =>
      match fromHex a, fromHex b with
      | some high, some low => UInt8.ofNat (high * 16 + low) :: scanHexdump rest dest.tail
      | some high, none => UInt8.ofNat (high * 16) :: dest.tail
      | none, _ => dest
  | [a], dest =>
      match fromHex a with
      | some high => UInt8.ofNat (high * 16) :: dest.tail
      | none => dest
  | [], dest => dest

/-- `scan_time_hex`; `left` is what its automatic buffer holds before. -/
def scanTimeHex (left s : Bytes) : Taia := taiaUnpack (scanHexdump s left)

/-- `verify_ts` (`z_mainblog.c`) -/
def verifyTs (ts : Bytes) : Bool := (ts.take reduceSize).all isLowerHex

/-- `fmt_time_str`: the date of a stamp. -/
def fmtTimeStr (leapsecs : List UInt64) (time : Taia) : Bytes :=
  caldateFmt (caltimeUtc leapsecs time.sec).date

/-- `DAYS_SECS` -/
def daysSecs : UInt64 := 86400

/-- `sub_days` -/
def subDays : Taia → Nat → Taia
  | time, 0 => time
  | time, days + 1 => subDays (taiaSub time (taiaUint daysSecs)) days

theorem subDays_succ (time : Taia) (days : Nat) :
    subDays time (days + 1) = subDays (subDays time days) 1 := by
  induction days generalizing time with
  | zero => rfl
  | succ days ih =>
      have first (days : Nat) :
          subDays time (days + 1) = subDays (taiaSub time (taiaUint daysSecs)) days := rfl
      rw [first, ih, first]

/-- Days that end in one go add up. -/
theorem subDays_add (time : Taia) (m n : Nat) :
    subDays time (m + n) = subDays (subDays time m) n := by
  induction n with
  | zero => rfl
  | succ n ih => rw [← Nat.add_assoc, subDays_succ, ih, ← subDays_succ]

/-- As long as there are labels left, a day is 86400 of them. -/
theorem toNat_sec_subDays {time : Taia} {days : Nat} (left : 86400 * days ≤ time.sec.toNat) :
    (subDays time days).sec.toNat = time.sec.toNat - 86400 * days := by
  induction days with
  | zero => rfl
  | succ days ih =>
      have before := ih (by omega)
      have day : daysSecs.toNat = 86400 := by simp [daysSecs]
      rw [subDays_succ, subDays, subDays, taiaSub_taiaUint]
      have enough : daysSecs ≤ (subDays time days).sec := by
        rw [UInt64.le_iff_toNat_le, before, day]
        omega
      rw [UInt64.toNat_sub_of_le _ _ enough, before, day]
      omega

/-- The stamps from 1970 to 2106: the seconds past `2^62` need 32 bits. -/
structure Dated (t : Taia) : Prop where
  low : 2 ^ 62 ≤ t.sec.toNat
  high : t.sec.toNat < 2 ^ 62 + 2 ^ 32

/-- The stamps a clock shows for nine million years from 1970 on. -/
structure Clocked (t : Taia) : Prop where
  low : 2 ^ 62 ≤ t.sec.toNat
  high : t.sec.toNat < 2 ^ 62 + 2 ^ 48

theorem Dated.clocked {t : Taia} (dated : Dated t) : Clocked t where
  low := dated.low
  high := Nat.lt_of_lt_of_le dated.high (by decide)

/-! ## Dumps and windows -/

/-- A whole dump is read, whatever the buffer held. -/
theorem scanHexdump_hexdump (bytes rest dest : Bytes) :
    scanHexdump (hexdump bytes ++ rest) dest =
      bytes ++ scanHexdump rest (dest.drop bytes.length) := by
  induction bytes generalizing dest with
  | nil => rfl
  | cons b bytes ih =>
      have high : b.toNat / 16 < 16 := by have := b.toNat_lt; omega
      have low : b.toNat % 16 < 16 := Nat.mod_lt _ (by norm_num)
      have value : b.toNat / 16 * 16 + b.toNat % 16 = b.toNat := by omega
      rw [hexdump_cons, List.cons_append, List.cons_append, scanHexdump]
      simp only [fromHex_hexDigit high, fromHex_hexDigit low, value, UInt8.ofNat_toNat]
      rw [ih, List.drop_tail, List.cons_append, List.length_cons]

/-- The case of a digit does not matter. -/
theorem scanHexdump_congr {s u : Bytes} (same : s.map fromHex = u.map fromHex) (dest : Bytes) :
    scanHexdump s dest = scanHexdump u dest := by
  induction s, dest using scanHexdump.induct generalizing u with
  | case1 a b rest dest high low isLow isHigh ih =>
      obtain ⟨a', u, rfl, first, same⟩ := List.map_eq_cons_iff.1 same.symm
      obtain ⟨b', u, rfl, second_, same⟩ := List.map_eq_cons_iff.1 same
      simp only [scanHexdump, isHigh, isLow, first, second_]
      rw [ih same.symm]
  | case2 a b rest dest high isHigh isLow =>
      obtain ⟨a', u, rfl, first, same⟩ := List.map_eq_cons_iff.1 same.symm
      obtain ⟨b', u, rfl, second_, -⟩ := List.map_eq_cons_iff.1 same
      simp only [scanHexdump, isHigh, isLow, first, second_]
  | case3 a b rest dest isHigh =>
      obtain ⟨a', u, rfl, first, same⟩ := List.map_eq_cons_iff.1 same.symm
      obtain ⟨b', u, rfl, -, -⟩ := List.map_eq_cons_iff.1 same
      simp only [scanHexdump, isHigh, first]
  | case4 a dest high isHigh =>
      obtain ⟨a', u, rfl, first, same⟩ := List.map_eq_cons_iff.1 same.symm
      obtain rfl := List.map_eq_nil_iff.1 same
      simp only [scanHexdump, isHigh, first]
  | case5 a dest isHigh =>
      obtain ⟨a', u, rfl, first, same⟩ := List.map_eq_cons_iff.1 same.symm
      obtain rfl := List.map_eq_nil_iff.1 same
      simp only [scanHexdump, isHigh, first]
  | case6 dest =>
      obtain rfl := List.map_eq_nil_iff.1 same.symm
      rfl

/-- Scanning takes nothing away from the buffer. -/
theorem le_length_scanHexdump (s dest : Bytes) : dest.length ≤ (scanHexdump s dest).length := by
  induction s, dest using scanHexdump.induct with
  | case1 a b rest dest high low isLow isHigh ih =>
      simp only [scanHexdump, isHigh, isLow, List.length_cons, List.length_tail] at ih ⊢
      omega
  | case2 a b rest dest high isHigh isLow =>
      simp only [scanHexdump, isHigh, isLow, List.length_cons, List.length_tail]
      omega
  | case3 a b rest dest isHigh => simp only [scanHexdump, isHigh, le_refl]
  | case4 a dest high isHigh =>
      simp only [scanHexdump, isHigh, List.length_cons, List.length_tail]
      omega
  | case5 a dest isHigh => simp only [scanHexdump, isHigh, le_refl]
  | case6 dest => exact le_refl _

/-- Behind a character that is no digit the buffer is what it was. -/
theorem scanHexdump_drop {n : Nat} {s : Bytes} (bad : ∃ c ∈ s.take (2 * n), fromHex c = none)
    (dest : Bytes) : (scanHexdump s dest).drop n = dest.drop n := by
  obtain ⟨c, member, none_⟩ := bad
  induction s, dest using scanHexdump.induct generalizing n with
  | case1 a b rest dest high low isLow isHigh ih =>
      cases n with
      | zero => cases member
      | succ n =>
          rw [Nat.mul_succ, List.take_succ_cons, List.take_succ_cons, List.mem_cons,
            List.mem_cons] at member
          rcases member with rfl | rfl | inside
          · exact absurd (isHigh.symm.trans none_) nofun
          · exact absurd (isLow.symm.trans none_) nofun
          · simp only [scanHexdump, isHigh, isLow, List.drop_succ_cons, ih inside, List.drop_tail]
  | case2 a b rest dest high isHigh isLow =>
      cases n with
      | zero => cases member
      | succ n => simp only [scanHexdump, isHigh, isLow, List.drop_succ_cons, List.drop_tail]
  | case3 a b rest dest isHigh => simp only [scanHexdump, isHigh]
  | case4 a dest high isHigh =>
      cases n with
      | zero => cases member
      | succ n => simp only [scanHexdump, isHigh, List.drop_succ_cons, List.drop_tail]
  | case5 a dest isHigh => simp only [scanHexdump, isHigh]
  | case6 dest => rfl

/-- Sixteen bytes of digits determine a stamp. -/
theorem scanTimeHex_hexdump (left rest : Bytes) (t : Taia) :
    scanTimeHex left (hexdump (taiaPack t) ++ rest) = t := by
  unfold scanTimeHex
  rw [scanHexdump_hexdump, taiaUnpack_taiaPack_append]

/-- What `reduce_ts` leaves is the window as a C string. -/
theorem reduceTs_eq (last : UInt8) {front window back : Bytes} (frontSize : front.length = 8)
    (windowSize : window.length = 16) (backSize : back.length = 9) :
    reduceTs last (front ++ window ++ back) =
      window ++ 0 :: (List.replicate 15 48 ++ [last]) := by
  have cut : ((front ++ window ++ back).drop 8).take 16 = window := by
    rw [List.append_assoc, ← frontSize, List.drop_left, ← windowSize, List.take_left]
  have behind : (front ++ window ++ back).drop 33 = [] := by
    rw [List.drop_eq_nil_iff]
    simp only [List.length_append]
    omega
  have filled : (List.replicate 32 (48 : UInt8) ++ [last]).drop 16 =
      48 :: (List.replicate 15 48 ++ [last]) := rfl
  show ((((front ++ window ++ back).drop 8).take 16 ++
    (List.replicate 32 48 ++ [last]).drop 16) ++ (front ++ window ++ back).drop 33).take 16 ++
    0 :: (((((front ++ window ++ back).drop 8).take 16 ++
    (List.replicate 32 48 ++ [last]).drop 16)) ++ (front ++ window ++ back).drop 33).drop 17 = _
  rw [cut, behind, filled, List.append_nil]
  have first : (window ++ 48 :: (List.replicate 15 48 ++ [last])).take 16 = window := by
    rw [← windowSize, List.take_left]
  have second_ : (window ++ 48 :: (List.replicate 15 48 ++ [last])).drop 17 =
      List.replicate 15 48 ++ [last] := by
    rw [show 17 = window.length + 1 by omega, ← List.drop_drop, List.drop_left]
    rfl
  rw [first, second_]

/-- What `inflate_ts` makes of a buffer that starts with a window. -/
theorem inflateTs_eq {window rest : Bytes} (windowSize : window.length = 16) :
    inflateTs (window ++ rest) =
      str "40000000" ++ window ++ List.replicate 9 48 ++ (window ++ rest).drop 33 := by
  have cut : (window ++ rest).take 16 = window := by
    rw [← windowSize, List.take_left]
  show str "40000000" ++ (List.replicate 8 48 ++ (window ++ rest).take 16 ++
    List.replicate 9 48).drop 8 ++ (window ++ rest).drop 33 = _
  rw [cut, List.append_assoc (List.replicate 8 48)]
  rfl

end Bagunceiro
