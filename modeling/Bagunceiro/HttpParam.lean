/-
# HttpParam -- one parameter out of a request string (`get_http_param`)

Query, cookie and POST strings are cut with `strtok_r`, first at the separators,
then each piece at `=`.  A search for a parameter ends at the first piece with
its name.  `Param` says what that comes to: the result code, the bytes written
to the caller's buffer, and whether a notice was left.
-/
import Bagunceiro.Lib.Tokens
import Bagunceiro.Blog

namespace Bagunceiro

open Radix Tokens

set_option autoImplicit false

/-! ## Decoding -/

/-- `scan_urlencoded`: it stops at a bad escape.  Assumed of libowfat: it writes one
byte for each plain character, a space for `+`, and one byte for each `%` with two
hexadecimal digits of either case. -/
def scanUrlencoded : Bytes → Bytes
  | [] => []
  | c :: cs =>
      if c = 37 then
        match cs with
        | a :: b :: rest =>
            match fromHex a, fromHex b with
            | some high, some low => UInt8.ofNat (high * 16 + low) :: scanUrlencoded rest
            | _, _ => []
        | _ => []
      else (if c = 43 then 32 else c) :: scanUrlencoded cs

theorem scanUrlencoded_cons {c : UInt8} {cs : Bytes} (noEscape : c ≠ 37) :
    scanUrlencoded (c :: cs) = (if c = 43 then 32 else c) :: scanUrlencoded cs := by
  rw [scanUrlencoded.eq_def]
  exact if_neg noEscape

theorem scanUrlencoded_escape {a b : UInt8} {high low : Nat} {rest : Bytes}
    (isHigh : fromHex a = some high) (isLow : fromHex b = some low) :
    scanUrlencoded (37 :: a :: b :: rest) = UInt8.ofNat (high * 16 + low) :: scanUrlencoded rest := by
  simp [scanUrlencoded, isHigh, isLow]

/-- Text without escapes is taken as it stands. -/
theorem scanUrlencoded_of_plain {s : Bytes} (noEscape : (37 : UInt8) ∉ s) (noPlus : (43 : UInt8) ∉ s) :
    scanUrlencoded s = s := by
  induction s with
  | nil => rfl
  | cons c cs ih =>
      rw [List.mem_cons, not_or] at noEscape noPlus
      rw [scanUrlencoded_cons (Ne.symm noEscape.1), if_neg (Ne.symm noPlus.1),
        ih noEscape.2 noPlus.2]

/-! ## Results -/

/-- The bound `n` a call gives: a number, `P_UNLIMITED` or `P_NO_VALUE`. -/
inductive Limit
  | upTo (n : Nat)
  | unlimited
  | noValue
  deriving DecidableEq, Repr

def paramSuccess : Int := 0
def retNoValue : Int := -2
def retInvalid : Int := -3
def retNotFound : Int := -4

structure Param where
  code : Int
  /-- what is written to the front of the caller's buffer -/
  write : Bytes
  /-- `set_err("Invalid input", 0, N_ERROR)` was called -/
  bad : Bool
  deriving DecidableEq, Repr

/-- The piece with the searched key is found; `val` is what follows its first `=`. -/
def foundParam (val : Option Bytes) (n : Limit) : Param :=
  match val, n with
  | none, _ => { code := retNoValue, write := [], bad := false }
  | some _, .noValue => { code := retNoValue, write := [], bad := false }
  | some v, .unlimited => { code := paramSuccess, write := scanUrlencoded v ++ [0], bad := false }
  | some v, .upTo n =>
      if n < v.length then { code := retInvalid, write := str "bad" ++ [0], bad := true }
      else { code := paramSuccess, write := scanUrlencoded v ++ [0], bad := false }

/-- The loop over the pieces.  A piece of nothing but `=` has no key. -/
def searchParam (search : Bytes) (n : Limit) : List Bytes → Except Fault Param
  | [] => .ok { code := retNotFound, write := [], bad := false }
  | query :: rest =>
      match pieces (· = 61) query with
      | [] => .error .nullKey
      | key :: vals => if key = search then .ok (foundParam vals.head? n) else searchParam search n rest

/-- `qmax` is `none` for `P_UNLIMITED`. -/
def getHttpParam (q : Bytes) (qmax : Option Nat) (search : Bytes) (n : Limit) (sep : Bytes) :
    Except Fault Param :=
  if q = [] ∨ qmax.any (· < q.length) then
    .ok { code := retInvalid, write := [], bad := false }
  else searchParam search n (pieces (· ∈ sep) (cstr q))

/-! ## Finding a parameter -/

/-- The first piece of a request string with this name has this value. -/
structure Carries (q : Bytes) (qmax : Option Nat) (sep search value : Bytes) : Prop where
  fits : ¬ qmax.any (· < q.length)
  piece : ∃ before after, pieces (· ∈ sep) (cstr q) = before ++ (search ++ 61 :: value) :: after ∧
    ∀ other ∈ before, ∃ key vals, pieces (· = 61) other = key :: vals ∧ key ≠ search

/-- A piece of a name and a value. -/
theorem pieces_parameter {name : Bytes} (noEquals : (61 : UInt8) ∉ name) (some_ : name ≠ [])
    (value : Bytes) :
    pieces (· = (61 : UInt8)) (name ++ 61 :: value) = name :: pieces (· = (61 : UInt8)) value := by
  refine pieces_append_sep (fun c inside => ?_) some_ (by simp) value
  simpa using ne_of_mem_of_not_mem inside noEquals

theorem pieces_value {value : Bytes} (plain : (61 : UInt8) ∉ value) (some_ : value ≠ []) :
    pieces (· = (61 : UInt8)) value = [value] := by
  refine pieces_of_plain (fun c inside => ?_) some_
  simpa using ne_of_mem_of_not_mem inside plain

section Search

variable {search query : Bytes} {n : Limit} {vals queries : List Bytes}

theorem searchParam_cons_of_ne {key : Bytes} (cut : pieces (· = (61 : UInt8)) query = key :: vals)
    (ne : key ≠ search) :
    searchParam search n (query :: queries) = searchParam search n queries := by
  rw [searchParam, cut]
  exact if_neg ne

theorem searchParam_cons_of_eq (cut : pieces (· = (61 : UInt8)) query = search :: vals) :
    searchParam search n (query :: queries) = .ok (foundParam vals.head? n) := by
  rw [searchParam, cut]
  exact if_pos rfl

/-- Pieces with other names are passed over. -/
theorem searchParam_append_of_others {before : List Bytes}
    (others : ∀ other ∈ before, ∃ key vals, pieces (· = (61 : UInt8)) other = key :: vals ∧
      key ≠ search) :
    searchParam search n (before ++ queries) = searchParam search n queries := by
  induction before with
  | nil => rfl
  | cons other before ih =>
      obtain ⟨key, vals, cut, ne⟩ := others other List.mem_cons_self
      rw [List.cons_append, searchParam_cons_of_ne cut ne]
      exact ih fun piece member => others piece (List.mem_cons_of_mem _ member)

end Search

theorem searchParam_of_piece {search v : Bytes} {n : Limit} {before after : List Bytes}
    (others : ∀ other ∈ before, ∃ key vals, pieces (· = (61 : UInt8)) other = key :: vals ∧
      key ≠ search)
    (name : (61 : UInt8) ∉ search) (some_ : search ≠ []) (plain : (61 : UInt8) ∉ v) (value : v ≠ []) :
    searchParam search n (before ++ (search ++ 61 :: v) :: after) = .ok (foundParam (some v) n) := by
  have cut := pieces_parameter name some_ v
  rw [pieces_value plain value] at cut
  rw [searchParam_append_of_others others, searchParam_cons_of_eq cut]
  rfl

theorem getHttpParam_of_carries {q sep search v : Bytes} {qmax : Option Nat} (n : Limit)
    (carries : Carries q qmax sep search v) (name : (61 : UInt8) ∉ search) (some_ : search ≠ [])
    (plain : (61 : UInt8) ∉ v) (value : v ≠ []) :
    getHttpParam q qmax search n sep = .ok (foundParam (some v) n) := by
  obtain ⟨before, after, cut, others⟩ := carries.piece
  have there : q ≠ [] := by
    rintro rfl
    rw [cstr_nil, pieces_nil] at cut
    simp at cut
  unfold getHttpParam
  rw [if_neg (not_or.2 ⟨there, carries.fits⟩), cut]
  exact searchParam_of_piece others name some_ plain value

end Bagunceiro
