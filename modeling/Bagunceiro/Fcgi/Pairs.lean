/-
# Fcgi.Pairs -- names and values on a stream (`fcgiapp.c`)

The parameters of a request are pairs of a name and a value, each behind its length.
A length has one byte, or four if it does not fit.  `ReadParams` gets back what was
encoded, from any stream that holds it (`readParams_encode`).
-/
import Bagunceiro.Fcgi.Unseen

namespace Bagunceiro.Fcgi

open Refill Radix

set_option autoImplicit false

/-- The length of a name or a value. -/
def lengthBytes (n : Nat) : Bytes := if n < 128 then [UInt8.ofNat n] else toBytesBE 4 (2 ^ 31 + n)

/-- A name and a value that fit into one allocation. -/
structure Pair where
  name : Bytes
  value : Bytes
  fits : name.length + value.length + 2 < 2 ^ 31

namespace Pair

def bytes (p : Pair) : Bytes :=
  lengthBytes p.name.length ++ (lengthBytes p.value.length ++ (p.name ++ p.value))

/-- The string that is kept. -/
def nameValue (p : Pair) : Bytes := p.name ++ 61 :: p.value

end Pair

def encodePairs (ps : List Pair) : Bytes := ps.flatMap Pair.bytes

@[simp] theorem encodePairs_nil : encodePairs [] = [] := rfl

@[simp] theorem encodePairs_cons (p : Pair) (ps : List Pair) :
    encodePairs (p :: ps) = p.bytes ++ encodePairs ps := rfl

/-! ## Lengths -/

theorem and_128_eq_zero_iff (b : UInt8) : b &&& 0x80 = 0 ↔ b.toNat < 128 := by
  obtain ⟨b⟩ := b
  revert b
  decide

theorem toNat_and_127 (b : UInt8) : (b &&& 0x7f).toNat = b.toNat % 128 := by
  rw [UInt8.toNat_and]
  exact Nat.and_two_pow_sub_one_eq_mod b.toNat 7

/-- The first of four bytes has its highest bit set, and the others are the rest. -/
theorem lengthBytes_long {n : Nat} (long : ¬ n < 128) (fits : n < 2 ^ 31) :
    ∃ b more, lengthBytes n = b :: more ∧ more.length = 3 ∧ b &&& 0x80 ≠ 0 ∧
      ofBytesBE ((b &&& 0x7f) :: more) = n := by
  have first : (UInt8.ofNat ((2 ^ 31 + n) / 256 ^ 3 % 256)).toNat = 128 + n / 256 ^ 3 := by
    rw [UInt8.toNat_ofNat']
    omega
  have front : ofBytesBE [UInt8.ofNat ((2 ^ 31 + n) / 256 ^ 3 % 256) &&& 0x7f] = n / 256 ^ 3 := by
    show 0 * 256 + (UInt8.ofNat ((2 ^ 31 + n) / 256 ^ 3 % 256) &&& 0x7f).toNat = _
    rw [toNat_and_127, first]
    omega
  refine ⟨UInt8.ofNat ((2 ^ 31 + n) / 256 ^ 3 % 256), toBytesBE 3 (2 ^ 31 + n), ?_,
    length_toBytesBE 3 _, ?_, ?_⟩
  · rw [lengthBytes, if_neg long]
    exact toBytesBE_add 1 3 (2 ^ 31 + n)
  · rw [Ne, and_128_eq_zero_iff, first]
    omega
  · have whole := ofBytesBE_append [UInt8.ofNat ((2 ^ 31 + n) / 256 ^ 3 % 256) &&& 0x7f]
      (toBytesBE 3 (2 ^ 31 + n))
    rw [List.singleton_append, length_toBytesBE, ofBytesBE_toBytesBE, front] at whole
    rw [whole]
    omega

/-! ## A stream that holds bytes -/

/-- What follows an action that has succeeded. -/
theorem run_bind {α β : Type} {f : Reading α} {g : α → Reading β} {s s' : Reader} {a : α}
    (ran : f s = .ok (a, s')) : (f >>= g) s = g a s' := by
  show (f s >>= fun r => g r.1 r.2) = _
  rw [ran]
  rfl

section Stream

variable {fill : Reading Unit} {Holds : Reader → Bytes → Prop}
  (feeds : Feeds (Reader.source fill) Holds)
  (live : ∀ {s bs}, Holds s bs → s.ready ≠ [] → s.isClosed = false)

include feeds live

theorem getStr_feeds {s : Reader} {bs : Bytes} (holds : Holds s bs) (n : Nat) :
    ∃ s', Reader.getStr fill n s = .ok (bs.take n, s') ∧ Holds s' (bs.drop n) ∧
      (bs.length < n → s'.isClosed = true) := by
  cases closed : s.isClosed with
  | true =>
      have ready : s.ready = [] := by
        by_contra some_
        rw [live holds some_] at closed
        cases closed
      obtain rfl := feeds.closed holds ready closed
      refine ⟨s, ?_, ?_, fun _ => closed⟩
      · rw [Reader.getStr, if_pos (.inl closed), List.take_nil]
      · rw [List.drop_nil]
        exact holds
  | false =>
      rw [Reader.getStr_eq_collect fill closed]
      exact feeds.collect_eq holds (.inl (Nat.lt_succ_self n))

omit live in
theorem getChar_feeds_nil {s : Reader} (holds : Holds s []) :
    ∃ s', Reader.getChar fill s = .ok (none, s') ∧ Holds s' [] ∧ s'.isClosed = true := by
  have nothing {s : Reader} (holds : Holds s []) : s.ready = [] := by
    by_contra some_
    obtain ⟨b, more, ready⟩ := List.exists_cons_of_ne_nil some_
    obtain ⟨cs, no, -⟩ := feeds.ready holds ready
    cases no
  cases closed : s.isClosed with
  | true => exact ⟨s, Reader.getChar_closed fill closed, holds, closed⟩
  | false =>
      obtain ⟨s', filled, holds', ended | goesOn⟩ := feeds.fill holds (nothing holds) closed
      · refine ⟨s', ?_, holds', ended.1⟩
        have ran : fill s = .ok ((), s') := filled
        rw [Reader.getChar_empty closed (nothing holds), ran]
        exact if_pos ended.1
      · exact absurd (nothing holds') goesOn.2

theorem getChar_feeds_cons {s : Reader} {b : UInt8} {bs : Bytes} (holds : Holds s (b :: bs)) :
    ∃ s', Reader.getChar fill s = .ok (some b, s') ∧ Holds s' bs := by
  have here {s : Reader} (holds : Holds s (b :: bs)) (some_ : s.ready ≠ []) :
      s.nextChar = (some b, s.taken 1) ∧ Holds (s.taken 1) bs := by
    obtain ⟨c, more, ready⟩ := List.exists_cons_of_ne_nil some_
    obtain ⟨cs, same, next⟩ := feeds.ready holds ready
    obtain ⟨rfl, rfl⟩ := List.cons.inj same
    refine ⟨?_, next⟩
    rw [Reader.nextChar, ready]
    rfl
  by_cases ready : s.ready = []
  · cases closed : s.isClosed with
    | true => exact absurd (feeds.closed holds ready closed) (List.cons_ne_nil b bs)
    | false =>
        obtain ⟨s', filled, holds', ended | goesOn⟩ := feeds.fill holds ready closed
        · exact absurd (feeds.closed holds' ended.2 ended.1) (List.cons_ne_nil b bs)
        · obtain ⟨next, holds''⟩ := here holds' goesOn.2
          have ran : fill s = .ok ((), s') := filled
          refine ⟨_, ?_, holds''⟩
          rw [Reader.getChar_empty closed ready, ran]
          have open_ : ¬ s'.isClosed = true := Bool.eq_false_iff.1 goesOn.1
          show (if s'.isClosed = true then _ else _) = _
          rw [if_neg open_]
          exact congrArg _ next
  · obtain ⟨next, holds'⟩ := here holds ready
    exact ⟨_, (Reader.getChar_ready fill (live holds ready) ready).trans (congrArg _ next), holds'⟩

/-- A length is read back. -/
theorem readLength_feeds {s : Reader} {b : UInt8} {more bs : Bytes} {n : Nat} (fits : n < 2 ^ 31)
    (encoded : lengthBytes n = b :: more) (holds : Holds s (more ++ bs)) :
    ∃ s', Reader.readLength fill b s = .ok (some n, s') ∧ Holds s' bs := by
  by_cases short : n < 128
  · rw [lengthBytes, if_pos short] at encoded
    obtain ⟨rfl, rfl⟩ := List.cons.inj encoded
    have small : (UInt8.ofNat n).toNat = n := by
      rw [UInt8.toNat_ofNat']
      omega
    have one : UInt8.ofNat n &&& 0x80 = 0 := by
      rw [and_128_eq_zero_iff, small]
      exact short
    refine ⟨s, ?_, holds⟩
    rw [Reader.readLength, if_neg (not_not_intro one), small]
    rfl
  · obtain ⟨b', more', encoded', three, four, value⟩ := lengthBytes_long short fits
    obtain ⟨rfl, rfl⟩ := List.cons.inj (encoded'.symm.trans encoded)
    obtain ⟨s', read, holds', -⟩ := getStr_feeds feeds live holds 3
    rw [← three, List.take_left] at read
    rw [← three, List.drop_left] at holds'
    refine ⟨s', ?_, holds'⟩
    rw [three] at read
    rw [Reader.readLength, if_pos four, run_bind read, if_neg (not_not_intro three), value]
    rfl

omit feeds live in
theorem exists_lengthBytes {n : Nat} (fits : n < 2 ^ 31) : ∃ b more, lengthBytes n = b :: more := by
  by_cases short : n < 128
  · exact ⟨_, _, if_pos short⟩
  · obtain ⟨b, more, encoded, -⟩ := lengthBytes_long short fits
    exact ⟨b, more, encoded⟩

/-- One round gets one pair. -/
theorem readPairs_step {s : Reader} (p : Pair) {bs : Bytes} (holds : Holds s (p.bytes ++ bs))
    (rounds : Nat) (vec : List Bytes) :
    ∃ s', Reader.readPairs fill (rounds + 1) vec s =
      Reader.readPairs fill rounds (vec ++ [p.nameValue]) s' ∧ Holds s' bs := by
  have fits := p.fits
  have nameFits : p.name.length < 2 ^ 31 := by omega
  have valueFits : p.value.length < 2 ^ 31 := by omega
  obtain ⟨b, more, nameLength⟩ := exists_lengthBytes nameFits
  obtain ⟨c, more', valueLength⟩ := exists_lengthBytes valueFits
  have bytes : p.bytes ++ bs = b :: (more ++ (c :: (more' ++ (p.name ++ (p.value ++ bs))))) := by
    simp only [Pair.bytes, nameLength, valueLength, List.cons_append, List.append_assoc]
  rw [bytes] at holds
  obtain ⟨s₁, first, holds₁⟩ := getChar_feeds_cons feeds live holds
  obtain ⟨s₂, nameLen, holds₂⟩ := readLength_feeds feeds live nameFits nameLength holds₁
  obtain ⟨s₃, second, holds₃⟩ := getChar_feeds_cons feeds live holds₂
  obtain ⟨s₄, valueLen, holds₄⟩ := readLength_feeds feeds live valueFits valueLength holds₃
  obtain ⟨s₅, name, holds₅, -⟩ := getStr_feeds feeds live holds₄ p.name.length
  rw [List.take_left] at name
  rw [List.drop_left] at holds₅
  obtain ⟨s₆, value, holds₆, -⟩ := getStr_feeds feeds live holds₅ p.value.length
  rw [List.take_left] at value
  rw [List.drop_left] at holds₆
  refine ⟨s₆, ?_, holds₆⟩
  have small : ¬ 2 ^ 31 ≤ p.name.length + p.value.length + 2 := by omega
  rw [Reader.readPairs, run_bind first]
  dsimp only
  rw [run_bind nameLen]
  dsimp only
  rw [run_bind second]
  dsimp only
  rw [run_bind valueLen]
  dsimp only
  rw [if_neg small, run_bind name, if_neg (not_not_intro rfl), run_bind value,
    if_neg (not_not_intro rfl)]
  rfl

/-- So many rounds get so many pairs. -/
theorem readPairs_append {s : Reader} (ps : List Pair) {bs : Bytes}
    (holds : Holds s (encodePairs ps ++ bs)) (rounds : Nat) (vec : List Bytes) :
    ∃ s', Reader.readPairs fill (ps.length + rounds) vec s =
      Reader.readPairs fill rounds (vec ++ ps.map Pair.nameValue) s' ∧ Holds s' bs := by
  induction ps generalizing s vec with
  | nil =>
      refine ⟨s, ?_, holds⟩
      rw [List.length_nil, Nat.zero_add, List.map_nil, List.append_nil]
  | cons p ps ih =>
      rw [encodePairs_cons, List.append_assoc] at holds
      obtain ⟨s₁, step, holds₁⟩ := readPairs_step feeds live p holds (ps.length + rounds) vec
      obtain ⟨s₂, rest, holds₂⟩ := ih holds₁ (vec ++ [p.nameValue])
      refine ⟨s₂, ?_, holds₂⟩
      rw [List.length_cons, Nat.add_right_comm, step, rest, List.append_assoc, List.map_cons,
        List.singleton_append]

omit feeds live in
theorem length_le_encodePairs (ps : List Pair) : ps.length ≤ (encodePairs ps).length := by
  induction ps with
  | nil => exact Nat.le_refl 0
  | cons p ps ih =>
      have fits := p.fits
      obtain ⟨b, more, encoded⟩ := exists_lengthBytes (n := p.name.length) (by omega)
      have some_ : 0 < p.bytes.length := by
        rw [Pair.bytes, encoded, List.cons_append, List.length_cons]
        exact Nat.zero_lt_succ _
      rw [encodePairs_cons, List.length_cons, List.length_append]
      omega

variable (size : ∀ {s bs}, Holds s bs → bs.length ≤ s.unread)

include size

/-- **`ReadParams` gets back what was encoded.** -/
theorem readParams_encode {s : Reader} (ps : List Pair) (holds : Holds s (encodePairs ps))
    (vec : List Bytes) :
    ∃ s', Reader.readParams fill vec s = .ok ((true, vec ++ ps.map Pair.nameValue), s') ∧
      Holds s' [] ∧ s'.isClosed = true := by
  have enough := Nat.le_trans (length_le_encodePairs ps) (size holds)
  rw [← List.append_nil (encodePairs ps)] at holds
  obtain ⟨s', pairs, ended⟩ := readPairs_append feeds live ps holds (s.unread - ps.length + 1) vec
  obtain ⟨s'', last, ended', closed⟩ := getChar_feeds_nil feeds ended
  refine ⟨s'', ?_, ended', closed⟩
  have rounds : ps.length + (s.unread - ps.length + 1) = s.unread + 1 := by omega
  rw [Reader.readParams, ← rounds, pairs, Reader.readPairs, run_bind last]
  rfl

end Stream

end Bagunceiro.Fcgi
