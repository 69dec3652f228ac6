/-
# Links -- the printed key of an entry leads back to the entry

`print_key_html`, the permalinks and the edit form print sixteen of the
thirty-two digits of an entry's key (`fmtKeyPlain`).  For the keys the clock
issues until 2106 the digits that are left out are known (`hexdump_taiaPack`),
so what is printed is accepted, and inflated to the digits of the key again.
-/
import Bagunceiro.Mainblog
import Bagunceiro.Cdbb

namespace Bagunceiro

open Radix Tokens

set_option autoImplicit false

/-- `fmt_key_plain`: the buffer it leaves.  `print_key_html` fills its own buffer
the same way. -/
def fmtKeyPlain (last : UInt8) (e : Nentry) : Bytes :=
  reduceTs last (hexdump (e.k.take taiaPackSize) ++ [0])

/-- The key that is printed. -/
def printedKey (last : UInt8) (e : Nentry) : Bytes := cstr (fmtKeyPlain last e)

/-- `html_qry_param_link2`: the query string behind the `?` of a link. -/
def linkQuery (name key : Bytes) : Bytes := name ++ str "=" ++ key

/-- What the edit form posts; the text is as the browser encodes it. -/
def editForm (key text : Bytes) : Bytes :=
  str "action=mod" ++ str "&key=" ++ key ++ str "&input=" ++ text

/-- The keys `taia_now` issues. -/
structure EntryKey (t : Taia) : Prop extends Dated t where
  atto : t.atto = 0

/-- The four bytes of the seconds and the nanoseconds that a link shows. -/
def window (t : Taia) : Bytes := hexdump (toBytesBE 4 t.sec.toNat ++ toBytesBE 4 t.nano.toNat)

theorem length_window (t : Taia) : (window t).length = 16 := by
  simp [window]

/-- What stands around the window is the same for all keys. -/
theorem hexdump_taiaPack {t : Taia} (key : EntryKey t) :
    hexdump (taiaPack t) = str "40000000" ++ window t ++ List.replicate 8 48 := by
  have high : t.sec.toNat / 256 ^ 4 = 2 ^ 30 := by
    have := key.low
    have := key.high
    omega
  have seconds : toBytesBE 8 t.sec.toNat = toBytesBE 4 (2 ^ 30) ++ toBytesBE 4 t.sec.toNat := by
    rw [show 8 = 4 + 4 from rfl, toBytesBE_add, high]
  have front : hexdump (toBytesBE 4 (2 ^ 30)) = str "40000000" := by decide
  have back : hexdump (toBytesBE 4 (0 : UInt32).toNat) = List.replicate 8 48 := by decide
  rw [taiaPack, seconds, key.atto, hexdump_append, back, List.append_assoc, hexdump_append, front,
    window]

theorem isLowerHex_of_mem_window {t : Taia} {c : UInt8} (member : c ∈ window t) :
    isLowerHex c = true :=
  isLowerHex_of_mem_hexdump member

theorem notMem_window {t : Taia} {c : UInt8} (other : isLowerHex c = false) : c ∉ window t := by
  intro member
  rw [isLowerHex_of_mem_window member] at other
  cases other

/-- The printed key is the window. -/
theorem printedKey_eq (last : UInt8) {e : Nentry} {t : Taia} (key : EntryKey t)
    (holds : e.k = taiaPack t) : printedKey last e = window t := by
  have whole : e.k.take taiaPackSize = taiaPack t := by
    rw [holds]
    exact List.take_of_length_le (le_of_eq (length_taiaPack t))
  have dump : hexdump (taiaPack t) ++ [0] =
      str "40000000" ++ window t ++ (List.replicate 8 48 ++ [0]) := by
    rw [hexdump_taiaPack key, List.append_assoc]
  rw [printedKey, fmtKeyPlain]
  rw [whole, dump, reduceTs_eq last rfl (length_window t) rfl,
    cstr_append (notMem_window (by decide))]

/-- A buffer that holds a printed key is accepted, and scanned as the key. -/
theorem scanTimeHex_inflateTs {t : Taia} (key : EntryKey t) (left rest : Bytes) :
    verifyTs (window t ++ rest) = true ∧ scanTimeHex left (inflateTs (window t ++ rest)) = t := by
  constructor
  · rw [verifyTs]
    rw [show reduceSize = (window t).length from (length_window t).symm, List.take_left,
      List.all_eq_true]
    exact fun c member => isLowerHex_of_mem_window member
  · have digits : inflateTs (window t ++ rest) =
        hexdump (taiaPack t) ++ (48 :: (window t ++ rest).drop 33) := by
      rw [inflateTs_eq (length_window t), hexdump_taiaPack key]
      simp only [List.append_assoc]
      rfl
    rw [digits, scanTimeHex_hexdump]

/-- The request carries a key as the parameter of a site. -/
def PassesBack (site : Site) (req : HttpRequest) (key : Bytes) : Prop :=
  Carries (req.array site.source) site.qmax site.sep site.search key

/-- A site that takes the key of an entry. -/
structure KeySite (site : Site) : Prop where
  limit : site.n = .upTo maxKeyLengthStr
  name : (61 : UInt8) ∉ site.search
  some_ : site.search ≠ []

theorem keySite_of_mem {site : Site}
    (member : site ∈ [queryTs, queryDel, queryMod, postKey]) : KeySite site := by
  simp only [List.mem_cons, List.not_mem_nil, or_false] at member
  rcases member with rfl | rfl | rfl | rfl <;> exact ⟨rfl, by decide, by decide⟩

/-- A request that carries a window leaves it in the buffer of the time stamp. -/
theorem readTs_window {site : Site} (keySite : KeySite site) {req : HttpRequest} {t : Taia}
    (carries : PassesBack site req (window t)) (s : Server) :
    readTs req site s = .ok (paramSuccess, s.modQry fun q =>
      { q with ts := window t ++ (0 :: s.conf.qry.ts.drop 17) }) := by
  have some_ : window t ≠ [] := by
    intro empty
    have := length_window t
    rw [empty] at this
    exact absurd this (by decide)
  have got := getHttpParam_of_carries site.n carries keySite.name keySite.some_
    (notMem_window (by decide)) some_
  have plain : scanUrlencoded (window t) = window t :=
    scanUrlencoded_of_plain (notMem_window (by decide)) (notMem_window (by decide))
  have fits : ¬ maxKeyLengthStr < (window t).length := by
    rw [length_window]
    decide
  have found : site.get req =
      .ok { code := paramSuccess, write := window t ++ [0], bad := false } := by
    rw [Site.get]
    rw [got, keySite.limit, foundParam, if_neg fits, plain]
  have stored : store fmtTaiaHex s.conf.qry.ts (window t ++ [0]) =
      .ok (window t ++ (0 :: s.conf.qry.ts.drop 17)) := by
    rw [store]
    rw [if_pos (by simp [length_window]; decide)]
    simp [length_window]
  rw [readTs, readQry]
  simp only [found, stored, bind, Except.bind]
  rfl

/-! ## The requests behind links and forms -/

/-- What the sites that links lead to have in common. -/
structure LinkSite (site : Site) : Prop where
  source : site.source = .query
  sep : site.sep = str "&"
  name : ∀ c ∈ site.search ++ [61], c ≠ 0 ∧ c ≠ 38
  fits : ¬ site.qmax.any (· < site.search.length + 18)

theorem plain_of_notMem {s : Bytes} (terminator : (0 : UInt8) ∉ s) (separator : (38 : UInt8) ∉ s) :
    ∀ c ∈ s, c ≠ 0 ∧ c ≠ 38 := by
  intro c inside
  constructor
  · rintro rfl
    exact terminator inside
  · rintro rfl
    exact separator inside

theorem linkSite_of_mem {site : Site} (member : site ∈ [queryTs, queryDel, queryMod]) :
    LinkSite site := by
  simp only [List.mem_cons, List.not_mem_nil, or_false] at member
  rcases member with rfl | rfl | rfl <;>
    exact ⟨rfl, rfl, plain_of_notMem (by decide) (by decide), by decide⟩

/-- Digits are neither terminators nor separators. -/
theorem plain_of_mem_window {t : Taia} {c : UInt8} (member : c ∈ window t) : c ≠ 0 ∧ c ≠ 38 := by
  have hex := isLowerHex_of_mem_window member
  constructor <;> rintro rfl <;> exact absurd hex (by decide)

/-- A query string of one parameter carries it. -/
theorem passesBack_of_plain {site : Site} (source : site.source = .query) (sep : site.sep = str "&")
    {value : Bytes} (plain : ∀ c ∈ site.search ++ 61 :: value, c ≠ 0 ∧ c ≠ 38)
    (fits : ¬ site.qmax.any (· < site.search.length + value.length + 2)) {req : HttpRequest}
    (query : req.queryString = some (linkQuery site.search value)) :
    PassesBack site req value := by
  have text : linkQuery site.search value = site.search ++ 61 :: value := by
    simp [linkQuery, str]
  have array : req.array site.source = (site.search ++ 61 :: value) ++ [0] := by
    rw [source, ← text]
    simp [HttpRequest.array, query]
  constructor
  · have length : (req.array site.source).length = site.search.length + value.length + 2 := by
      rw [array]
      simp only [List.length_append, List.length_cons, List.length_nil]
      omega
    rw [length]
    exact fits
  · refine ⟨[], [], ?_, by simp⟩
    have noSep : ∀ c ∈ site.search ++ 61 :: value, decide (c ∈ site.sep) = false := by
      intro c inside
      rw [sep]
      simpa [str] using (plain c inside).2
    rw [array, cstr_append fun zero => (plain 0 zero).1 rfl, pieces_of_plain noSep (by simp)]
    rfl

/-- Following a link passes the key back. -/
theorem passesBack_linkQuery {site : Site} (linkSite : LinkSite site) {t : Taia} {req : HttpRequest}
    (query : req.queryString = some (linkQuery site.search (window t))) :
    PassesBack site req (window t) := by
  refine passesBack_of_plain linkSite.source linkSite.sep ?_ ?_ query
  · intro c inside
    rw [List.append_cons, List.mem_append] at inside
    rcases inside with named | digit
    · exact linkSite.name c named
    · exact plain_of_mem_window digit
  · rw [length_window]
    exact linkSite.fits

/-- The parameters of the form, and what is between them. -/
theorem editForm_eq (key text : Bytes) :
    editForm key text = (str "action" ++ 61 :: str "mod") ++
      38 :: ((str "key" ++ 61 :: key) ++ 38 :: (str "input" ++ 61 :: text)) := by
  simp [editForm, str]

theorem plain_formAction : ∀ c ∈ str "action" ++ 61 :: str "mod", c ≠ 0 ∧ c ≠ 38 :=
  plain_of_notMem (by decide) (by decide)

theorem plain_formKey (t : Taia) : ∀ c ∈ str "key" ++ 61 :: window t, c ≠ 0 ∧ c ≠ 38 := by
  refine List.forall_mem_append.2 ⟨plain_of_notMem (by decide) (by decide), ?_⟩
  exact List.forall_mem_cons.2 ⟨by decide, fun _ => plain_of_mem_window⟩

/-- A piece without separators. -/
theorem noSep_of_plain {s : Bytes} (plain : ∀ c ∈ s, c ≠ 0 ∧ c ≠ 38) :
    ∀ c ∈ s, decide (c ∈ str "&") = false := by
  intro c inside
  simpa [str] using (plain c inside).2

/-- The first two parameters of the form, whatever the text. -/
theorem pieces_formKey (t : Taia) (rest : Bytes) :
    pieces (· ∈ str "&") ((str "action" ++ 61 :: str "mod") ++
      38 :: ((str "key" ++ 61 :: window t) ++ 38 :: rest)) =
        (str "action" ++ 61 :: str "mod") :: (str "key" ++ 61 :: window t) ::
          pieces (· ∈ str "&") rest := by
  have isSep : decide ((38 : UInt8) ∈ str "&") = true := by decide
  rw [pieces_append_sep (noSep_of_plain plain_formAction) (by simp) isSep,
    pieces_append_sep (noSep_of_plain (plain_formKey t)) (by simp) isSep]

/-- Submitting the edit form passes the key back, whatever the text. -/
theorem passesBack_editForm {t : Taia} {req : HttpRequest} {text : Bytes}
    (posted : req.postData = editForm (window t) text) :
    PassesBack postKey req (window t) := by
  constructor
  · simp [postKey, postSite]
  · have through {front back : Bytes} (plain : ∀ c ∈ front, c ≠ 0 ∧ c ≠ 38) :
        cstr (front ++ 38 :: back) = front ++ 38 :: cstr back := by
      have noNul : ∀ c ∈ front, decide (c ≠ 0) = true := by simpa using fun c inside => (plain c inside).1
      rw [cstr, List.takeWhile_append_of_pos noNul]
      rfl
    have cut : cstr (req.array postKey.source) = (str "action" ++ 61 :: str "mod") ++
        38 :: ((str "key" ++ 61 :: window t) ++ 38 :: cstr (str "input" ++ 61 :: text)) := by
      show cstr req.postData = _
      rw [posted, editForm_eq, through plain_formAction, through (plain_formKey t)]
    refine ⟨[str "action" ++ 61 :: str "mod"],
      pieces (· ∈ postKey.sep) (cstr (str "input" ++ 61 :: text)), ?_, ?_⟩
    · rw [cut]
      exact pieces_formKey t _
    · intro other inside
      rw [List.mem_singleton.1 inside]
      exact ⟨_, _, pieces_parameter (by decide) (by decide) _, by decide⟩

/-- **A printed key leads back to its entry.**  Whatever request passes it back as
`ts`, `del`, `mod` or `key`, as the links and the edit form do, it passes
`verify_ts` and is read as the key it was printed from; and no other entry
prints it. -/
theorem printedKey_comes_back (t : Taia) (key : EntryKey t) (e : Nentry) (last : UInt8)
    (holds : e.k = taiaPack t) :
    (∀ site ∈ [queryTs, queryDel, queryMod, postKey], ∀ (req : HttpRequest) (s : Server),
      PassesBack site req (printedKey last e) →
      ∃ s', readTs req site s = .ok (paramSuccess, s') ∧ verifyTs s'.conf.qry.ts = true ∧
        ∀ left, scanTimeHex left (inflateTs s'.conf.qry.ts) = t) ∧
      (∀ site ∈ [queryTs, queryDel, queryMod], ∀ req : HttpRequest,
        req.queryString = some (linkQuery site.search (printedKey last e)) →
        PassesBack site req (printedKey last e)) ∧
      (∀ (req : HttpRequest) (text : Bytes), req.postData = editForm (printedKey last e) text →
        PassesBack postKey req (printedKey last e)) ∧
      ∀ (u : Taia) (e' : Nentry) (last' : UInt8), EntryKey u → e'.k = taiaPack u →
        printedKey last' e' = printedKey last e → u = t := by
  rw [printedKey_eq last key holds]
  refine ⟨?_, ?_, ?_, ?_⟩
  · intro site member req s carries
    refine ⟨_, readTs_window (keySite_of_mem member) carries s, ?_⟩
    exact ⟨(scanTimeHex_inflateTs key [] _).1, fun left => (scanTimeHex_inflateTs key left _).2⟩
  · intro site member req query
    exact passesBack_linkQuery (linkSite_of_mem member) query
  · intro req text posted
    exact passesBack_editForm posted
  · intro u e' last' key' holds' same
    rw [printedKey_eq last' key' holds'] at same
    have first := (scanTimeHex_inflateTs key [] []).2
    rw [← same, (scanTimeHex_inflateTs key' [] []).2] at first
    exact first

/-- The first of January 2024, a billionth of a second past midnight, by its link. -/
theorem printedKey_comes_back_sample :
    let t : Taia := ⟨4611686020131455114, 1, 0⟩
    ∀ (req : HttpRequest) (s : Server), req.queryString = some (str "ts=6592008a00000001") →
      ∃ s', readTs req queryTs s = .ok (paramSuccess, s') ∧ verifyTs s'.conf.qry.ts = true ∧
        ∀ left, scanTimeHex left (inflateTs s'.conf.qry.ts) = t := by
  intro t req s query
  have key : EntryKey t := ⟨⟨by decide, by decide⟩, rfl⟩
  have printed : printedKey 7 ⟨str "text", taiaPack t⟩ = str "6592008a00000001" := by
    rw [printedKey_eq 7 key rfl]
    decide
  obtain ⟨back, links, -⟩ := printedKey_comes_back t key ⟨str "text", taiaPack t⟩ 7 rfl
  rw [printed] at back links
  exact back queryTs (by simp) req s (links queryTs (by simp) req query)

end Bagunceiro
