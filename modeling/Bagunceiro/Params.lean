/-
# Params -- which request strings can be searched, and what a form says

`get_http_param` cuts each piece of a request string at `=` and compares the
first part with the name it looks for.  A piece of nothing but `=` has no first
part, and the comparison is then with a null pointer: the search is safe exactly
when it ends before it meets one (`getHttpParam_answers_iff`).

What a browser sends for a form never has such a piece, and the search undoes
the encoding: `getHttpParam_formString`.
-/
import Bagunceiro.Mainblog

namespace Bagunceiro

open Radix Tokens

set_option autoImplicit false

/-! ## Pieces without a key -/

/-- A piece of nothing but `=`: `strtok_r` finds no key in it. -/
def Keyless (piece : Bytes) : Prop := ∀ c ∈ piece, c = 61

instance (piece : Bytes) : Decidable (Keyless piece) := List.decidableBAll _ _

/-- The piece has the name that is looked for. -/
def Named (search piece : Bytes) : Prop := (pieces (· = 61) piece).head? = some search

/-- No piece without a key comes before the first one with the name. -/
def Searchable (search : Bytes) (ps : List Bytes) : Prop :=
  ∀ before piece after, ps = before ++ piece :: after → Keyless piece →
    ∃ earlier ∈ before, Named search earlier

theorem keyless_iff {piece : Bytes} : pieces (· = (61 : UInt8)) piece = [] ↔ Keyless piece := by
  simp [pieces_eq_nil_iff, Keyless]

theorem foundParam_code (val : Option Bytes) (n : Limit) :
    (foundParam val n).code ∈ [paramSuccess, retNoValue, retInvalid, retNotFound] := by
  cases val with
  | none => simp [foundParam]
  | some v =>
      cases n with
      | upTo n => by_cases long : n < v.length <;> simp [foundParam, long]
      | unlimited => simp [foundParam]
      | noValue => simp [foundParam]

section

variable {search piece : Bytes} {ps : List Bytes}

/-- Behind a piece with another name the search is as safe as it was. -/
theorem searchable_cons_iff (key : ¬ Keyless piece) (other : ¬ Named search piece) :
    Searchable search (piece :: ps) ↔ Searchable search ps := by
  constructor
  · rintro safe before q after rfl keyless
    obtain ⟨earlier, member, named⟩ := safe (piece :: before) q after rfl keyless
    rcases List.mem_cons.1 member with rfl | member
    · exact absurd named other
    · exact ⟨earlier, member, named⟩
  · intro safe before q after cut keyless
    cases before with
    | nil =>
        obtain ⟨rfl, -⟩ := List.cons_eq_cons.1 cut
        exact absurd keyless key
    | cons first before =>
        obtain ⟨-, rest⟩ := List.cons_eq_cons.1 cut
        obtain ⟨earlier, member, named⟩ := safe before q after rest keyless
        exact ⟨earlier, List.mem_cons_of_mem _ member, named⟩

theorem searchable_of_named (named : Named search piece) : Searchable search (piece :: ps) := by
  intro before q after cut keyless
  cases before with
  | nil =>
      obtain ⟨rfl, -⟩ := List.cons_eq_cons.1 cut
      simp [Named, keyless_iff.2 keyless] at named
  | cons first before =>
      obtain ⟨rfl, -⟩ := List.cons_eq_cons.1 cut
      exact ⟨piece, by simp, named⟩

theorem not_searchable_of_keyless (keyless : Keyless piece) : ¬ Searchable search (piece :: ps) := by
  intro safe
  obtain ⟨earlier, member, -⟩ := safe [] piece ps rfl keyless
  simp at member

end

/-- The loop ends in a result exactly when it meets no null pointer on the way. -/
theorem searchParam_answers_iff (search : Bytes) (n : Limit) :
    ∀ ps : List Bytes,
      (∃ p, searchParam search n ps = .ok p ∧
          p.code ∈ [paramSuccess, retNoValue, retInvalid, retNotFound]) ↔ Searchable search ps
  | [] => by simp [searchParam, Searchable]
  | piece :: ps => by
      cases cut : pieces (· = (61 : UInt8)) piece with
      | nil =>
          have stuck : ¬ Searchable search (piece :: ps) := not_searchable_of_keyless (keyless_iff.1 cut)
          simpa [searchParam, cut] using stuck
      | cons key vals =>
          by_cases same : key = search
          · have safe : Searchable search (piece :: ps) := searchable_of_named (by simp [Named, cut, same])
            have code := foundParam_code vals.head? n
            simpa [searchParam, cut, same, safe] using code
          · have keyed : ¬ Keyless piece := fun keyless => by simp [keyless_iff.2 keyless] at cut
            have behind : Searchable search (piece :: ps) ↔ Searchable search ps :=
              searchable_cons_iff keyed (by simp [Named, cut, same])
            rw [behind, ← searchParam_answers_iff search n ps]
            simp [searchParam, cut, same]

/-- **A search ends in one of the four results exactly when its string is refused
as a whole or no piece of nothing but `=` comes before the first with the name.** -/
theorem getHttpParam_answers_iff (q : Bytes) (qmax : Option Nat) (search : Bytes) (n : Limit)
    (sep : Bytes) :
    (∃ p, getHttpParam q qmax search n sep = .ok p ∧
        p.code ∈ [paramSuccess, retNoValue, retInvalid, retNotFound]) ↔
      (q = [] ∨ qmax.any (· < q.length)) ∨ Searchable search (pieces (· ∈ sep) (cstr q)) := by
  rw [getHttpParam]
  by_cases refused : q = [] ∨ qmax.any (· < q.length)
  · simp [refused]
  · rw [if_neg refused, or_iff_right refused]
    exact searchParam_answers_iff search n _

/-- The query string `=` (an array with its terminator) is enough: already the
first search of `parse_query`, the one for the time stamp, uses the null pointer. -/
theorem getHttpParam_lone_equals :
    ¬ ∃ p, getHttpParam (str "=" ++ [0]) queryTs.qmax queryTs.search queryTs.n queryTs.sep = .ok p ∧
      p.code ∈ [paramSuccess, retNoValue, retInvalid, retNotFound] := by
  have fault : getHttpParam (str "=" ++ [0]) queryTs.qmax queryTs.search queryTs.n queryTs.sep =
      .error .nullKey := by decide
  simp [fault]

/-! ## Forms -/

def isAlnum (c : UInt8) : Bool :=
  (48 ≤ c.toNat && c.toNat ≤ 57) || (65 ≤ c.toNat && c.toNat ≤ 90) || (97 ≤ c.toNat && c.toNat ≤ 122)

/-- An encoding that `scan_urlencoded` undoes: a byte may stand for itself unless it
has a meaning of its own. -/
inductive Urlencoded : Bytes → Bytes → Prop
  | nil : Urlencoded [] []
  | asIs {c : UInt8} {v enc : Bytes} (plain : c ∉ [0, 37, 38, 43, 61]) (rest : Urlencoded v enc) :
      Urlencoded (c :: v) (c :: enc)
  | space {v enc : Bytes} (rest : Urlencoded v enc) : Urlencoded (32 :: v) (43 :: enc)
  | escape {c high low : UInt8} {v enc : Bytes} (isHigh : fromHex high = some (c.toNat / 16))
      (isLow : fromHex low = some (c.toNat % 16)) (rest : Urlencoded v enc) :
      Urlencoded (c :: v) (37 :: high :: low :: enc)

namespace Urlencoded

variable {v enc : Bytes}

theorem scan (encodes : Urlencoded v enc) : scanUrlencoded enc = v := by
  induction encodes with
  | nil => rfl
  | @asIs c v enc plain rest ih =>
      have itself : c ≠ 37 ∧ c ≠ 43 := by
        constructor <;> rintro rfl <;> exact plain (by decide)
      rw [scanUrlencoded_cons itself.1, if_neg itself.2, ih]
  | space rest ih => rw [scanUrlencoded_cons (by decide), if_pos rfl, ih]
  | @escape c high low v enc isHigh isLow rest ih =>
      have byte : c.toNat / 16 * 16 + c.toNat % 16 = c.toNat := by omega
      simp [scanUrlencoded_escape isHigh isLow, ih, byte]

/-- No separator, `=` or terminator occurs in it. -/
theorem plain (encodes : Urlencoded v enc) : ∀ c ∈ enc, c ≠ 0 ∧ c ≠ 38 ∧ c ≠ 61 := by
  have digit {c : UInt8} {d : Nat} (isDigit : fromHex c = some d) : c ≠ 0 ∧ c ≠ 38 ∧ c ≠ 61 := by
    refine ⟨?_, ?_, ?_⟩ <;> rintro rfl <;> simp [fromHex] at isDigit
  induction encodes with
  | nil => simp
  | @asIs c v enc plain rest ih =>
      have itself : c ≠ 0 ∧ c ≠ 38 ∧ c ≠ 61 := by
        refine ⟨?_, ?_, ?_⟩ <;> rintro rfl <;> exact plain (by decide)
      simpa [itself] using ih
  | space rest ih => simpa using ih
  | escape isHigh isLow rest ih => simpa [digit isHigh, digit isLow] using ih

theorem eq_nil_iff (encodes : Urlencoded v enc) : enc = [] ↔ v = [] := by
  cases encodes <;> simp

end Urlencoded

/-- What a browser may send for a value: letters and digits as they are, a space
as `+`, any byte as `%` and two digits of either case. -/
inductive FormValue : Bytes → Bytes → Prop
  | nil : FormValue [] []
  | alnum {c : UInt8} {v enc : Bytes} (plain : isAlnum c = true) (rest : FormValue v enc) :
      FormValue (c :: v) (c :: enc)
  | space {v enc : Bytes} (rest : FormValue v enc) : FormValue (32 :: v) (43 :: enc)
  | escape {c high low : UInt8} {v enc : Bytes} (isHigh : fromHex high = some (c.toNat / 16))
      (isLow : fromHex low = some (c.toNat % 16)) (rest : FormValue v enc) :
      FormValue (c :: v) (37 :: high :: low :: enc)

/-- One parameter of a form, with the encoding that was chosen for its value. -/
structure FormField where
  key : Bytes
  value : Bytes
  enc : Bytes
  key_some : key ≠ []
  key_plain : ∀ c ∈ key, c ≠ 0 ∧ c ≠ 38 ∧ c ≠ 61
  value_some : value ≠ []
  encodes : FormValue value enc

def FormField.text (f : FormField) : Bytes := f.key ++ 61 :: f.enc

/-- The parameters of a form, joined with `&`. -/
def formString (fields : List FormField) : Bytes := [38].intercalate (fields.map FormField.text)

/-- The limit of a call lets a value of this length through. -/
def Limit.Admits : Limit → Nat → Prop
  | .upTo n, length => length ≤ n
  | .unlimited, _ => True
  | .noValue, _ => False

theorem FormValue.urlencoded {v enc : Bytes} (encodes : FormValue v enc) : Urlencoded v enc := by
  induction encodes with
  | nil => exact .nil
  | @alnum c v enc letter rest ih =>
      refine .asIs ?_ ih
      intro member
      simp only [List.mem_cons, List.not_mem_nil, or_false] at member
      rcases member with rfl | rfl | rfl | rfl | rfl <;> simp [isAlnum] at letter
  | space rest ih => exact .space ih
  | escape isHigh isLow rest ih => exact .escape isHigh isLow ih

namespace FormField

variable (f : FormField)

theorem key_noEquals : (61 : UInt8) ∉ f.key := fun member => (f.key_plain 61 member).2.2 rfl

theorem enc_noEquals : (61 : UInt8) ∉ f.enc := fun member =>
  (f.encodes.urlencoded.plain 61 member).2.2 rfl

theorem enc_some : f.enc ≠ [] := fun empty =>
  f.value_some (f.encodes.urlencoded.eq_nil_iff.1 empty)

theorem text_some : f.text ≠ [] := by simp [text]

theorem text_plain : ∀ c ∈ f.text, c ≠ 0 ∧ c ≠ 38 := by
  intro c member
  rw [text, List.mem_append, List.mem_cons] at member
  rcases member with inKey | rfl | inEnc
  · exact ⟨(f.key_plain c inKey).1, (f.key_plain c inKey).2.1⟩
  · decide
  · exact ⟨(f.encodes.urlencoded.plain c inEnc).1, (f.encodes.urlencoded.plain c inEnc).2.1⟩

/-- The text of a field is cut into its key and its encoded value. -/
theorem pieces_text : pieces (· = (61 : UInt8)) f.text = [f.key, f.enc] := by
  rw [text, pieces_parameter f.key_noEquals f.key_some, pieces_value f.enc_noEquals f.enc_some]

end FormField

/-- The search cuts a form into its fields. -/
theorem pieces_formString (fields : List FormField) :
    pieces (· ∈ str "&") (formString fields) = fields.map FormField.text := by
  rw [formString]
  apply pieces_intercalate (by decide)
  · intro p member
    obtain ⟨f, -, rfl⟩ := List.mem_map.1 member
    exact f.text_some
  · intro p member c inText
    obtain ⟨f, -, rfl⟩ := List.mem_map.1 member
    simpa [str] using (f.text_plain c inText).2

theorem searchParam_skip {search : Bytes} {n : Limit} {rest : List Bytes} {before : List FormField}
    (others : ∀ g ∈ before, g.key ≠ search) :
    searchParam search n (before.map FormField.text ++ rest) = searchParam search n rest := by
  apply searchParam_append_of_others
  intro other member
  obtain ⟨g, inside, rfl⟩ := List.mem_map.1 member
  exact ⟨g.key, [g.enc], g.pieces_text, others g inside⟩

/-- A form is found by its first field of the name: its value, decoded, if the
limit of the call lets its encoding through. -/
theorem searchParam_first {n : Limit} {before after : List FormField} {f : FormField}
    (first : ∀ g ∈ before, g.key ≠ f.key) (admitted : n.Admits f.enc.length) :
    searchParam f.key n ((before ++ f :: after).map FormField.text) =
      .ok { code := paramSuccess, write := f.value ++ [0], bad := false } := by
  rw [List.map_append, searchParam_skip first]
  have decoded := f.encodes.urlencoded.scan
  cases n with
  | upTo n =>
      have fits : ¬ n < f.enc.length := Nat.not_lt.2 admitted
      simp [searchParam, f.pieces_text, foundParam, decoded, fits]
  | unlimited => simp [searchParam, f.pieces_text, foundParam, decoded]
  | noValue => exact absurd admitted id

/-- **Searching a form undoes its encoding.**  A search finds the first field
with the name and stores its value; a name that is not in the form is not found,
and the destination is left alone. -/
theorem getHttpParam_formString {fields : List FormField} (some_ : fields ≠ []) {q : Bytes}
    (sent : cstr q = formString fields) {qmax : Option Nat} (fits : ¬ qmax.any (· < q.length)) :
    (∀ before f after n, fields = before ++ f :: after → (∀ g ∈ before, g.key ≠ f.key) →
        n.Admits f.enc.length → getHttpParam q qmax f.key n (str "&") =
          .ok { code := paramSuccess, write := f.value ++ [0], bad := false }) ∧
      ∀ search n, (∀ f ∈ fields, f.key ≠ search) → getHttpParam q qmax search n (str "&") =
        .ok { code := retNotFound, write := [], bad := false } := by
  have there : q ≠ [] := by
    rintro rfl
    have cut := pieces_formString fields
    rw [← sent, cstr_nil, pieces_nil] at cut
    simp [some_] at cut
  have search_ (search : Bytes) (n : Limit) : getHttpParam q qmax search n (str "&") =
      searchParam search n (fields.map FormField.text) := by
    rw [getHttpParam, if_neg (not_or.2 ⟨there, fits⟩), sent, pieces_formString]
  constructor
  · rintro before f after n rfl first admitted
    rw [search_, searchParam_first first admitted]
  · intro search n absent
    have skipped : searchParam search n (fields.map FormField.text ++ []) =
        searchParam search n [] := searchParam_skip absent
    rw [search_, ← List.append_nil (fields.map _), skipped, searchParam]

/-- A field whose value is one letter or digit. -/
def letterField (key : Bytes) (c : UInt8) (some_ : key ≠ [])
    (plain : ∀ b ∈ key, b ≠ 0 ∧ b ≠ 38 ∧ b ≠ 61) (alnum : isAlnum c = true) : FormField where
  key := key
  value := [c]
  enc := [c]
  key_some := some_
  key_plain := plain
  value_some := List.cons_ne_nil c []
  encodes := .alnum alnum .nil

/-- The field `name=a%26b` of a form. -/
def nameField : FormField where
  key := str "name"
  value := str "a&b"
  enc := str "a%26b"
  key_some := by decide
  key_plain := by simp [str]
  value_some := by decide
  encodes := .alnum (by decide) (.escape (by decide) (by decide) (.alnum (by decide) .nil))

/-- In the form `rename=x&name=a%26b&nam=y&name=z` the first `name` is found. -/
theorem getHttpParam_formString_name :
    let q := str "rename=x&name=a%26b&nam=y&name=z" ++ [0]
    getHttpParam q (some 128) (str "name") (.upTo 20) (str "&") =
        .ok { code := paramSuccess, write := str "a&b" ++ [0], bad := false } ∧
      getHttpParam q (some 128) (str "na") (.upTo 20) (str "&") =
        .ok { code := retNotFound, write := [], bad := false } := by
  let front := letterField (str "rename") 120 (by decide) (by simp [str]) (by decide)
  let behind := letterField (str "nam") 121 (by decide) (by simp [str]) (by decide)
  let again := letterField (str "name") 122 (by decide) (by simp [str]) (by decide)
  have form := @getHttpParam_formString [front, nameField, behind, again] (List.cons_ne_nil _ _)
    (str "rename=x&name=a%26b&nam=y&name=z" ++ [0]) (by decide) (some 128) (by decide)
  have short : (Limit.upTo 20).Admits nameField.enc.length := by
    show nameField.enc.length ≤ 20
    decide
  exact ⟨form.1 [front] nameField [behind, again] (.upTo 20) rfl (by decide) short,
    form.2 (str "na") (.upTo 20) (by decide)⟩

end Bagunceiro
