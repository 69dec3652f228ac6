/-
# Controls -- what the links and the forms of the pages send

The blog is administered with links and with forms.  Of each control a browser sends
the name and, behind `=`, the value in form encoding; a link of a bare name has
neither.  A search answers with the first control of the name (`Site.get_sent`), so a
link that was followed or a form that was submitted can be told from what its controls
say, and orders what it is there for.
-/
import Bagunceiro.Ledger
import Bagunceiro.Submission

namespace Bagunceiro

open Radix Tokens

set_option autoImplicit false

/-! ## Controls -/

/-- A name, and a value with the encoding that was chosen for it. -/
structure Control where
  name : Bytes
  value : Bytes
  enc : Bytes
  bare : Bool
  name_some : name ≠ []
  name_plain : ∀ c ∈ name, c ≠ 0 ∧ c ≠ 38 ∧ c ≠ 61
  encodes : Urlencoded value enc
  nothing : bare = true → value = []

namespace Control

def text (c : Control) : Bytes := c.name ++ if c.bare then [] else 61 :: c.enc

/-- What a search for its name ends with. -/
def answer (c : Control) (n : Limit) : Param := foundParam (if c.enc = [] then none else some c.enc) n

variable (c : Control)

theorem text_some : c.text ≠ [] := fun empty => c.name_some (List.append_eq_nil_iff.1 empty).1

theorem text_plain : ∀ b ∈ c.text, b ≠ 0 ∧ b ≠ 38 := by
  intro b member
  rw [text, List.mem_append] at member
  rcases member with inName | behind
  · exact ⟨(c.name_plain b inName).1, (c.name_plain b inName).2.1⟩
  · split at behind
    · cases behind
    · rcases List.mem_cons.1 behind with rfl | inEnc
      · decide
      · exact ⟨(c.encodes.plain b inEnc).1, (c.encodes.plain b inEnc).2.1⟩

/-- The text is cut into the name and the encoded value, if there is one. -/
theorem pieces_text : pieces (· = (61 : UInt8)) c.text =
    c.name :: (if c.enc = [] then none else some c.enc).toList := by
  have noEquals : (61 : UInt8) ∉ c.name := fun member => (c.name_plain 61 member).2.2 rfl
  cases bare : c.bare with
  | true =>
      have empty : c.enc = [] := c.encodes.eq_nil_iff.2 (c.nothing bare)
      have name : c.text = c.name := by simp [text, bare]
      rw [name, pieces_value noEquals c.name_some, empty]
      rfl
  | false =>
      have text : c.text = c.name ++ 61 :: c.enc := by simp [text, bare]
      rw [text, pieces_parameter noEquals c.name_some]
      by_cases empty : c.enc = []
      · rw [empty, pieces_nil]
        rfl
      · have plain : (61 : UInt8) ∉ c.enc := fun member => (c.encodes.plain 61 member).2.2 rfl
        rw [pieces_value plain empty, if_neg empty]
        rfl

end Control

/-- The controls of a form, joined with `&`. -/
def sent (cs : List Control) : Bytes := [38].intercalate (cs.map Control.text)

theorem pieces_sent (cs : List Control) : pieces (· ∈ str "&") (sent cs) = cs.map Control.text := by
  rw [sent]
  apply pieces_intercalate (by decide)
  · intro p member
    obtain ⟨c, -, rfl⟩ := List.mem_map.1 member
    exact c.text_some
  · intro p member b inText
    obtain ⟨c, -, rfl⟩ := List.mem_map.1 member
    simpa [str] using (c.text_plain b inText).2

theorem notMem_sent : ∀ cs : List Control, (0 : UInt8) ∉ sent cs
  | [] => List.not_mem_nil
  | [c] => by
      rw [sent, List.map_singleton, List.intercalate_singleton]
      exact fun zero => (c.text_plain 0 zero).1 rfl
  | c :: d :: cs => by
      have behind := notMem_sent (d :: cs)
      rw [sent, List.map_cons] at behind ⊢
      rw [List.map_cons, List.intercalate_cons_cons, List.mem_append, List.mem_append, not_or, not_or]
      exact ⟨⟨fun zero => (c.text_plain 0 zero).1 rfl, by decide⟩, behind⟩

/-- The first control of a name answers, or the name is not found. -/
def answerOf (search : Bytes) (n : Limit) (cs : List Control) : Param :=
  match cs.find? (·.name = search) with
  | some c => c.answer n
  | none => { code := retNotFound, write := [], bad := false }

theorem searchParam_sent (search : Bytes) (n : Limit) (cs : List Control) :
    searchParam search n (cs.map Control.text) = .ok (answerOf search n cs) := by
  induction cs with
  | nil => rfl
  | cons c cs ih =>
      rw [List.map_cons]
      by_cases same : c.name = search
      · subst same
        rw [searchParam_cons_of_eq c.pieces_text, answerOf, List.find?_cons_of_pos (by simp),
          Option.head?_toList]
        rfl
      · rw [searchParam_cons_of_ne c.pieces_text same, ih, answerOf, answerOf,
          List.find?_cons_of_neg (by simpa using same)]

/-! ## What a site is answered -/

section Sites

variable {site : Site} {req : HttpRequest}

/-- **A search for a name ends with the first control of the name.** -/
theorem Site.get_sent {cs : List Control} (some_ : cs ≠ []) (sep : site.sep = str "&")
    (array : cstr (req.array site.source) = sent cs)
    (fits : ¬ site.qmax.any (· < (req.array site.source).length)) :
    site.get req = .ok (answerOf site.search site.n cs) := by
  have there : req.array site.source ≠ [] := by
    intro empty
    have cut := pieces_sent cs
    rw [← array, empty, cstr_nil, pieces_nil] at cut
    exact some_ (List.map_eq_nil_iff.1 cut.symm)
  rw [Site.get, getHttpParam, if_neg (not_or.2 ⟨there, fits⟩), sep, array, pieces_sent,
    searchParam_sent]

/-- The value of the first control of a name, decoded. -/
theorem Site.value_sent {cs after : List Control} {c : Control}
    (before : List Control) (got : site.get req = .ok (answerOf site.search site.n cs)) (split : cs = before ++ c :: after)
    (others : ∀ d ∈ before, d.name ≠ site.search) (name : c.name = site.search)
    (some_ : c.value ≠ []) (admitted : site.n.Admits c.enc.length) :
    site.value req = some c.value := by
  have found : cs.find? (·.name = site.search) = some c := by
    rw [split, List.find?_append, List.find?_eq_none.2 (by simpa using others),
      List.find?_cons_of_pos (by simpa using name)]
    rfl
  have enc : c.enc ≠ [] := fun empty => some_ (c.encodes.eq_nil_iff.1 empty)
  have param : answerOf site.search site.n cs =
      { code := paramSuccess, write := c.value ++ [0], bad := false } := by
    rw [answerOf, found]
    simp only [Control.answer, if_neg enc]
    cases limit : site.n with
    | upTo n =>
        rw [limit] at admitted
        rw [foundParam, if_neg (Nat.not_lt.2 admitted), c.encodes.scan]
    | unlimited => rw [foundParam, c.encodes.scan]
    | noValue =>
        rw [limit] at admitted
        exact absurd admitted id
  rw [Site.value_eq got, param, if_pos rfl, List.dropLast_concat]

/-- No control has the name. -/
theorem Site.absent_sent {cs : List Control}
    (got : site.get req = .ok (answerOf site.search site.n cs))
    (others : ∀ c ∈ cs, c.name ≠ site.search) : site.Absent req := by
  have none_ : cs.find? (·.name = site.search) = none :=
    List.find?_eq_none.2 (by simpa using others)
  refine ⟨retNotFound, ?_, by decide, by decide⟩
  rw [got, answerOf, none_]

theorem Site.Absent.value_eq (absent : site.Absent req) : site.value req = none := by
  obtain ⟨code, got, other, -⟩ := absent
  rw [Site.value_eq got, if_neg other]

theorem Site.Absent.flag_eq (absent : site.Absent req) : site.flag req = false := by
  obtain ⟨code, got, -, other⟩ := absent
  rw [Site.flag_eq got, decide_eq_false other]

theorem Site.Absent.onto_eq (absent : site.Absent req) (buffer : Bytes) :
    site.onto req buffer = buffer := by
  obtain ⟨code, got, -⟩ := absent
  rw [Site.onto, got]
  rfl

end Sites

/-! ## Links and forms -/

/-- A value that needs no encoding. -/
theorem urlencoded_self {v : Bytes} (plain : ∀ c ∈ v, c ∉ [(0 : UInt8), 37, 38, 43, 61]) :
    Urlencoded v v := by
  induction v with
  | nil => exact .nil
  | cons c v ih =>
      rw [List.forall_mem_cons] at plain
      exact .asIs plain.1 (ih plain.2)

namespace Control

/-- A hidden control, or a link with a value that needs no encoding. -/
def plain (name value : Bytes) (name_some : name ≠ []) (name_plain : ∀ c ∈ name, c ≠ 0 ∧ c ≠ 38 ∧ c ≠ 61)
    (value_plain : ∀ c ∈ value, c ∉ [(0 : UInt8), 37, 38, 43, 61]) : Control where
  name
  value
  enc := value
  bare := false
  name_some
  name_plain
  encodes := urlencoded_self value_plain
  nothing := by simp

/-- The control with the key of an entry. -/
def key (name : Bytes) (name_some : name ≠ []) (name_plain : ∀ c ∈ name, c ≠ 0 ∧ c ≠ 38 ∧ c ≠ 61)
    (t : Taia) : Control :=
  plain name (window t) name_some name_plain fun c member inside => by
    have hex := isLowerHex_of_mem_window member
    simp only [List.mem_cons, List.not_mem_nil, or_false] at inside
    rcases inside with rfl | rfl | rfl | rfl | rfl <;> exact absurd hex (by decide)

/-- The link of `print_key_html` that deletes an entry. -/
def del : Taia → Control := key (str "del") (by decide) (by simp [str])

/-- The permalink of an entry. -/
def ts : Taia → Control := key (str "ts") (by decide) (by simp [str])

/-- The hidden `action` of the forms. -/
def add : Control := plain (str "action") (str "add") (by decide) (by simp [str]) (by simp [str])
def mod : Control := plain (str "action") (str "mod") (by decide) (by simp [str]) (by simp [str])

/-- The hidden key of the edit form. -/
def formKey : Taia → Control := key (str "key") (by decide) (by simp [str])

/-- The text of an entry. -/
def input {value enc : Bytes} (encodes : Urlencoded value enc) : Control where
  name := str "input"
  value
  enc
  bare := false
  name_some := by decide
  name_plain := by simp [str]
  encodes
  nothing := by simp

end Control

/-- A link is followed. -/
structure Followed (req : HttpRequest) (c : Control) : Prop where
  query : req.queryString = some c.text
  posted : req.postData = []

/-- A form is submitted; what is posted is not too long to be looked at. -/
structure Submitted (req : HttpRequest) (cs : List Control) : Prop where
  query : req.queryString.getD [] = []
  posted : req.postData = sent cs
  short : req.postData.length < postdataMax

/-- What the pages offer to change an entry with: the form for a new one, the edit
form, and the link that deletes it. -/
inductive Asks (req : HttpRequest) : BlogOp → Prop
  | add {v enc : Bytes} (encodes : Urlencoded v enc) (some_ : v ≠ []) (noNul : (0 : UInt8) ∉ v)
      (form : Submitted req [.add, .input encodes]) : Asks req (.add req.entryAt (v ++ [0]))
  | modify {v enc : Bytes} {t : Taia} (key : EntryKey t) (encodes : Urlencoded v enc) (some_ : v ≠ [])
      (noNul : (0 : UInt8) ∉ v) (form : Submitted req [.mod, .formKey t, .input encodes]) :
      Asks req (.modify t (v ++ [0]))
  | delete {t : Taia} (key : EntryKey t) (link : Followed req (.del t)) : Asks req (.delete t)

/-! ## What they order -/

section Forms

variable {req : HttpRequest} {cs : List Control}

/-- A parameter of what is posted is answered by a control of the form. -/
theorem Submitted.get (form : Submitted req cs) (some_ : cs ≠ []) (search : Bytes) (n : Limit) :
    (postSite search n).get req = .ok (answerOf search n cs) := by
  refine Site.get_sent some_ rfl ?_ (by simp [postSite])
  show cstr req.postData = sent cs
  rw [form.posted, ← cstr_concat_zero, cstr_append (notMem_sent cs)]

theorem Submitted.readsPost (form : Submitted req cs) (some_ : cs ≠ []) : readsPost req = true := by
  have there : req.postData ≠ [] := by
    intro empty
    have cut := pieces_sent cs
    rw [← form.posted, empty, pieces_nil] at cut
    exact some_ (List.map_eq_nil_iff.1 cut.symm)
  simp [Bagunceiro.readsPost, form.short, there]

/-- Without a query string the form alone says what to do. -/
theorem Submitted.action (form : Submitted req cs) :
    req.action = actionOf (postedAction req) .qaShow := by
  have absent := absent_of_no_query form.query
  have noStamp : asksStamp req = false := by
    rw [asksStamp, (absent queryTs rfl).value_eq]
    rfl
  have query : queryAction req = .qaShow := by
    simp [queryAction, (absent queryMod rfl).value_eq, (absent queryDel rfl).value_eq,
      (absent queryConfig rfl).flag_eq, (absent queryAdd rfl).flag_eq]
  rw [HttpRequest.action]
  simp only [noStamp, Bool.false_eq_true, false_and, if_false, (absent queryLogout rfl).flag_eq,
    (absent queryLogin rfl).flag_eq, formAction, query]

theorem Submitted.postedAction_eq (form : Submitted req cs) {c : Control} {rest : List Control}
    (first : cs = c :: rest) (name : c.name = str "action") (some_ : c.value ≠ [])
    (short : c.enc.length ≤ 7) : postedAction req = some (cstr c.value) := by
  have there : cs ≠ [] := by
    rw [first]
    exact List.cons_ne_nil c rest
  have value : postAction.value req = some c.value :=
    Site.value_sent [] (form.get there _ _) first (by simp) name some_ short
  rw [postedAction, if_pos (form.readsPost there), value]
  rfl

theorem Submitted.postInput_value {v enc : Bytes} {encodes : Urlencoded v enc}
    {after : List Control} (before : List Control) (form : Submitted req (before ++ .input encodes :: after))
    (others : ∀ c ∈ before, c.name ≠ str "input") (some_ : v ≠ []) :
    postInput.value req = some v :=
  Site.value_sent (c := .input encodes) before (form.get (by simp) _ _) rfl others rfl some_ True.intro

theorem formText_of_value {v : Bytes} (value : postInput.value req = some v)
    (noNul : (0 : UInt8) ∉ v) : formText req = v ++ [0] := by
  have whole : cstr v = v := by rw [← cstr_concat_zero, cstr_append noNul]
  rw [formText, value, Option.map_some, whole, Option.getD_some]

theorem window_some (t : Taia) : window t ≠ [] := by
  intro empty
  have length := length_window t
  rw [empty] at length
  cases length

theorem admits_window (t : Taia) : (Limit.upTo maxKeyLengthStr).Admits (window t).length := by
  rw [length_window]
  show 16 ≤ maxKeyLengthStr
  decide

theorem orders_add {v enc : Bytes} (encodes : Urlencoded v enc) (some_ : v ≠ [])
    (noNul : (0 : UInt8) ∉ v) (form : Submitted req [.add, .input encodes]) :
    req.orders = some (.add req.entryAt (v ++ [0])) := by
  have action : req.action = .qaAddPost := by
    rw [form.action, form.postedAction_eq rfl rfl (by decide) (by decide)]
    decide
  have text : postInput.value req = some v :=
    Submitted.postInput_value [.add] form (by simp [Control.add, Control.plain, str]) some_
  rw [HttpRequest.orders, action, formText_of_value text noNul]

theorem orders_modify {v enc : Bytes} {t : Taia} (key : EntryKey t) (encodes : Urlencoded v enc)
    (some_ : v ≠ []) (noNul : (0 : UInt8) ∉ v)
    (form : Submitted req [.mod, .formKey t, .input encodes]) :
    req.orders = some (.modify t (v ++ [0])) := by
  have posted : postedAction req = some (str "mod") := by
    rw [form.postedAction_eq rfl rfl (by decide) (by decide)]
    decide
  have action : req.action = .qaModifyPost := by
    rw [form.action, posted]
    decide
  have text : postInput.value req = some v :=
    Submitted.postInput_value [.mod, .formKey t] form
      (by simp [Control.mod, Control.formKey, Control.key, Control.plain, str]) some_
  have stamp : postKey.value req = some (window t) :=
    Site.value_sent [.mod] (c := .formKey t) (form.get (by simp) _ _) rfl
      (by simp [Control.mod, Control.plain, str, postKey, postSite]) rfl (window_some t)
      (admits_window t)
  have is : formAction req = .qaModifyPost := by
    rw [formAction, posted]
    rfl
  obtain ⟨rest, onto⟩ := Site.onto_of_value stamp (queryStamp req)
  have stamped : formStamp req = window t ++ 0 :: rest := by
    rw [formStamp, is, stampOf, if_pos ⟨.inr rfl, by rw [text]; rfl⟩, onto]
  have named : req.key = t := by
    rw [HttpRequest.key, stamped]
    exact (scanTimeHex_inflateTs key req.left (0 :: rest)).2
  rw [HttpRequest.orders, action, named, formText_of_value text noNul]

end Forms

section Followed

variable {req : HttpRequest} {c : Control}

theorem sent_singleton (c : Control) : sent [c] = c.text := by
  rw [sent, List.map_singleton, List.intercalate_singleton]

/-- A parameter of the query string is answered by the link. -/
theorem Followed.get (link : Followed req c) {site : Site} (source : site.source = .query)
    (sep : site.sep = str "&") (fits : ¬ site.qmax.any (· < c.text.length + 1)) :
    site.get req = .ok (answerOf site.search site.n [c]) := by
  have array : req.array site.source = c.text ++ [0] := by
    rw [source]
    simp [HttpRequest.array, link.query]
  refine Site.get_sent (List.cons_ne_nil c []) sep ?_ ?_
  · rw [array, sent_singleton, cstr_append fun zero => (c.text_plain 0 zero).1 rfl]
  · rw [array, List.length_append]
    exact fits

theorem Followed.value (link : Followed req c) {site : Site} (source : site.source = .query)
    (sep : site.sep = str "&") (fits : ¬ site.qmax.any (· < c.text.length + 1))
    (name : c.name = site.search) (some_ : c.value ≠ []) (admitted : site.n.Admits c.enc.length) :
    site.value req = some c.value :=
  Site.value_sent [] (link.get source sep fits) rfl (by simp) name some_ admitted

theorem Followed.absent (link : Followed req c) {site : Site} (source : site.source = .query)
    (sep : site.sep = str "&") (fits : ¬ site.qmax.any (· < c.text.length + 1))
    (other : c.name ≠ site.search) : site.Absent req :=
  Site.absent_sent (link.get source sep fits) (by simpa using other)

/-- Nothing is posted with it. -/
theorem Followed.postedAction_eq (link : Followed req c) : postedAction req = none := by
  have empty : readsPost req = false := by simp [readsPost, link.posted]
  simp [postedAction, empty]

theorem length_key (name : Bytes) (name_some : name ≠ [])
    (name_plain : ∀ c ∈ name, c ≠ 0 ∧ c ≠ 38 ∧ c ≠ 61) (t : Taia) :
    (Control.key name name_some name_plain t).text.length = name.length + 17 := by
  simp [Control.key, Control.plain, Control.text, length_window]

theorem orders_delete {t : Taia} (key : EntryKey t) (link : Followed req (.del t)) :
    req.orders = some (.delete t) := by
  have name : (Control.del t).name = str "del" := rfl
  have length : (Control.del t).text.length = 20 := length_key _ _ _ t
  have absent (site : Site) (member : site ∈ [queryTs, queryMod, queryConfig, queryAdd, queryLogin,
      queryLogout]) : site.Absent req := by
    simp only [List.mem_cons, List.not_mem_nil, or_false] at member
    rcases member with rfl | rfl | rfl | rfl | rfl | rfl <;>
      exact link.absent rfl rfl (by rw [length]; decide) (by rw [name]; decide)
  have given : queryDel.value req = some (window t) :=
    link.value rfl rfl (by rw [length]; decide) rfl (window_some t) (admits_window t)
  have noStamp : asksStamp req = false := by
    rw [asksStamp, (absent queryTs (by simp)).value_eq]
    rfl
  have query : queryAction req = .qaDelete := by
    simp [queryAction, (absent queryMod (by simp)).value_eq, given,
      (absent queryConfig (by simp)).flag_eq, (absent queryAdd (by simp)).flag_eq]
  have is : formAction req = .qaDelete := by
    rw [formAction, link.postedAction_eq, query]
    rfl
  have action : req.action = .qaDelete := by
    rw [HttpRequest.action]
    simp only [noStamp, Bool.false_eq_true, false_and, if_false, is,
      (absent queryLogout (by simp)).flag_eq,
      (absent queryLogin (by simp)).flag_eq]
  obtain ⟨rest, onto⟩ := Site.onto_of_value given (zeros fmtTaiaHex)
  have stamped : formStamp req = window t ++ 0 :: rest := by
    rw [formStamp, is, stampOf, if_neg (by simp), queryStamp,
      (absent queryTs (by simp)).onto_eq, onto,
      (absent queryMod (by simp)).onto_eq]
  have named : req.key = t := by
    rw [HttpRequest.key, stamped]
    exact (scanTimeHex_inflateTs key req.left (0 :: rest)).2
  rw [HttpRequest.orders, action, named]

end Followed

/-- **What the pages offer orders what it is for.** -/
theorem orders_of_asks {req : HttpRequest} {op : BlogOp} (asks : Asks req op) :
    req.orders = some op := by
  cases asks with
  | add encodes some_ noNul form => exact orders_add encodes some_ noNul form
  | modify key encodes some_ noNul form => exact orders_modify key encodes some_ noNul form
  | delete key link => exact orders_delete key link

end Bagunceiro
