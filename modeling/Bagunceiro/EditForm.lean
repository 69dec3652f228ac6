/-
# EditForm -- an entry is opened in the edit form, and the form submitted

The text of an entry is printed into the form as it stands (`html_bulk`), as every
other text is: nothing that is special in a page is ever escaped.  The browser takes
it for the content of a `textarea`, and what it makes of it comes back
form-encoded, which `get_http_param` undoes.  So the same text is stored again when
a browser reads it back (`ReadsBack`) and the posted data is not too long to be
looked at, and not otherwise (`storesAgain_iff`).
-/
import Bagunceiro.Divs
import Bagunceiro.Fmthtml
import Bagunceiro.Keys
import Bagunceiro.Submission
import Bagunceiro.Textarea

namespace Bagunceiro

open Effect Prog

set_option autoImplicit false

/-! ## The page -/

/-- A writer that takes nothing back. -/
def Appends (f : Html) : Prop := ∀ p, p.out <+: (f p).out

theorem appends_sprint (s : Bytes) : Appends (sprint s) := fun _ => List.prefix_append _ _

theorem appends_inOrder {fs : List Html} (all : ∀ f ∈ fs, Appends f) : Appends (inOrder fs) := by
  induction fs with
  | nil => exact fun p => List.prefix_refl p.out
  | cons f fs ih =>
      intro p
      rw [inOrder_cons]
      exact (all f List.mem_cons_self p).trans
        (ih (fun g member => all g (List.mem_cons_of_mem _ member)) (f p))

theorem Line.appends {f : Bytes → Html} (line : Line f) (s : Bytes) : Appends (f s) := by
  intro p
  obtain ⟨n, out, -⟩ := line s p
  rw [out]
  exact List.prefix_append _ _

theorem appends_htmlDivEnd : Appends htmlDivEnd :=
  fun p => line_cprint.appends (str "</div>") p

theorem appends_closeDivs (rounds : Nat) : Appends (closeDivs rounds) := by
  induction rounds with
  | zero => exact fun p => List.prefix_refl p.out
  | succ rounds ih =>
      intro p
      exact (line_cprint.appends (str "</div>") (htmlDivDec p)).trans (ih _)

theorem appends_htmlDivOpen (type name : Bytes) : Appends (htmlDivOpen type name) :=
  fun p => line_oprint.appends [str "<div ", type, str "=\"", name, str "\">"].flatten p

theorem appends_indentHere : Appends indentHere := fun p => appends_sprint _ p

theorem appends_htmlInput (type : Bytes) (name value : Option Bytes) :
    Appends (htmlInput type name value) := by
  refine appends_inOrder ?_
  simp only [List.forall_mem_cons]
  exact ⟨fun p => List.prefix_refl p.out, appends_indentHere, appends_sprint _, appends_sprint _,
    appends_sprint _, appends_sprint _, fun p => List.prefix_refl p.out, List.forall_mem_nil _⟩

theorem appends_htmlQryParamLink2 (l1 l2 t : Bytes) : Appends (htmlQryParamLink2 l1 l2 t) := by
  refine appends_inOrder ?_
  simp only [List.forall_mem_cons]
  exact ⟨line_oprint.appends _, line_conprint.appends _, line_cprint.appends _, List.forall_mem_nil _⟩

theorem appends_navHtml (conf : Blog) : Appends (navHtml conf) := by
  refine appends_inOrder ?_
  simp only [List.forall_mem_cons]
  exact ⟨appends_htmlDivOpen _ _, appends_htmlQryParamLink2 _ _ _, line_conprint.appends _,
    appends_htmlQryParamLink2 _ _ _, line_conprint.appends _, appends_htmlQryParamLink2 _ _ _,
    appends_htmlDivEnd, List.forall_mem_nil _⟩

theorem appends_footerHtml (conf : Blog) : Appends (footerHtml conf) := by
  refine appends_inOrder ?_
  simp only [List.forall_mem_cons]
  exact ⟨appends_navHtml conf, fun p => appends_closeDivs _ p, appends_sprint _,
    List.forall_mem_nil _⟩

section Page

variable (env : PageEnv) (conf : Blog)

/-- What the page has behind the start tag of the text. -/
def behindStart (n : Nentry) (p : Printer) : Bytes :=
  (printModEntry env conf n p).out.drop (modEntryStart env conf n p).out.length

theorem modEntryEnd_out (p : Printer) :
    ∃ rest, (modEntryEnd conf p).out = p.out ++ (str "</textarea>\n" ++ rest) := by
  have tail : Appends (inOrder [htmlDivOpen (str "class") (str "abutton"),
      htmlInput (str "submit") none (str "Modify"), htmlDivEnd, htmlFormClose, htmlDivEnd,
      footerHtml conf]) := by
    refine appends_inOrder ?_
    simp only [List.forall_mem_cons]
    exact ⟨appends_htmlDivOpen _ _, appends_htmlInput _ _ _, appends_htmlDivEnd,
      line_cprint.appends _, appends_htmlDivEnd, appends_footerHtml conf, List.forall_mem_nil _⟩
  have close : (htmlTextareaClose p).out = p.out ++ str "</textarea>\n" := rfl
  obtain ⟨rest, out⟩ := tail (htmlTextareaClose p)
  refine ⟨rest, ?_⟩
  rw [modEntryEnd, inOrder_cons, ← out, close, List.append_assoc]

/-- The text, and then the end tag. -/
theorem behindStart_eq {x : Bytes} (noNul : (0 : UInt8) ∉ x) (k : Bytes) (p : Printer) :
    ∃ tail, behindStart env conf ⟨x ++ [0], k⟩ p = x ++ (endTag ++ tail) := by
  have text : modEntryText ⟨x ++ [0], k⟩ = sprint x := by
    rw [modEntryText, if_pos (by simp)]
    rw [cstr_append noNul]
    rfl
  obtain ⟨rest, out⟩ := modEntryEnd_out conf (sprint x (modEntryStart env conf ⟨x ++ [0], k⟩ p))
  refine ⟨str ">\n" ++ rest, ?_⟩
  have parts : str "</textarea>\n" = endTag ++ str ">\n" := by decide
  have page : (printModEntry env conf ⟨x ++ [0], k⟩ p).out =
      (modEntryStart env conf ⟨x ++ [0], k⟩ p).out ++ (x ++ (str "</textarea>\n" ++ rest)) := by
    rw [printModEntry, inOrder_cons, inOrder_cons, inOrder_cons, inOrder_nil, text, out, sprint,
      List.append_assoc]
  rw [behindStart, page, List.drop_left, parts, List.append_assoc]

end Page

/-! ## The entry -/

/-- The entry of the form is looked up. -/
def openEntry (k : Taia) : M Nentry := do
  match ← cdbbOpenRead dbFile with
  | none => .fail .uninitialised
  | some r =>
      let (_, n) ← showEntry r k ⟨[], []⟩
      return n

theorem exec_openEntry {fs : Fs} {recs : List Record} {t : Taia} {v : Bytes}
    (holds : fs.content dbFile = some (.finished recs))
    (entry : findAll (some recs) (taiaPack t) = [v]) :
    exec (openEntry t) fs = (.ok ⟨v, taiaPack t⟩, fs) := by
  obtain ⟨r, named, node⟩ := Fs.dir_of_content holds
  have file : fs.records r = some recs := Fs.records_of_finished fs node
  have read := exec_cdbbReadNentry_fresh r (taiaPack t) fs
  rw [file, entry] at read
  rw [exec, openEntry, run_bind_ok handle (exec_openRead named)]
  simp only [showEntry]
  rw [run_bind_ok handle read]
  simp

/-! ## The modification -/

/-- Serving the request modifies the entry, which then has the text. -/
def StoresAgain (req : HttpRequest) (s : Server) (fs : Fs) (t : Taia) (x : Bytes) : Prop :=
  ∃ parsed final fs' recs, exec (parseRequest req s) fs = (.ok parsed, fs) ∧
    branch parsed = .qaModifyPost ∧ scanTimeHex req.left parsed.conf.qry.ts = t ∧
    parsed.conf.qry.input = x ++ [0] ∧ exec (handleQuery req parsed) fs = (.ok final, fs') ∧
    fs'.content dbFile = some (.finished recs) ∧ findAll (some recs) (taiaPack t) = [x ++ [0]]

theorem accessGate_of_auth {s : Server} (auth : s.conf.auth = true) : accessGate s = s := by
  simp [accessGate, auth]

/-- The batch of a modification, when the entry is there. -/
theorem posed_modifyChanges (modifiedAt t : Taia) (v : Bytes) {recs : List Record}
    (present : findAll (some recs) (taiaPack t) ≠ []) : Posed (modifyChanges modifiedAt t v) recs := by
  have keys : (modifyChanges modifiedAt t v).map Change.key = [taiaPack t, dbLastModified] :=
    keys_modifyChanges modifiedAt t v
  constructor
  · intro c member
    have key : c.key ∈ [taiaPack t, dbLastModified] := keys ▸ List.mem_map_of_mem member
    rcases List.mem_pair.1 key with is | is
    · rw [is]
      exact List.ne_nil_of_length_eq_add_one (length_taiaPack _)
    · rw [is]
      decide
  · rw [keys]
    simp [taiaPack_ne_dbLastModified]
  · intro k w member
    rcases List.mem_pair.1 member with is | is
    · cases is
      obtain ⟨value, inside⟩ := List.exists_mem_of_ne_nil _ present
      obtain ⟨r, onKey, -⟩ := List.mem_map.1 inside
      rw [List.mem_filter, decide_eq_true_eq] at onKey
      exact ⟨r, onKey⟩
    · cases is
  · intro k w member
    rcases List.mem_pair.1 member with is | is <;> cases is

theorem findAll_modified (clk : Nat → Taia) (modifiedAt t : Taia) (v : Bytes) {recs : List Record}
    {old : Bytes} (entry : findAll (some recs) (taiaPack t) = [old]) :
    findAll (some (batchResult [] clk (modifyChanges modifiedAt t v) recs)) (taiaPack t) = [v] := by
  have present : findAll (some recs) (taiaPack t) ≠ [] := by
    rw [entry]
    exact List.cons_ne_nil _ _
  have posed := posed_modifyChanges modifiedAt t v present
  have member : Change.mod (taiaPack t) v ∈ modifyChanges modifiedAt t v := List.mem_cons_self
  refine (findAll_batchResult_of_mem clk member posed.distinct recs).trans ?_
  rw [key_mod, entry]
  simp [Change.onValues, Change.keepsValue, Change.adds]

/-- An entry that is there is modified. -/
theorem exec_handleQuery_modify {req : HttpRequest} {s : Server} {fs : Fs} {recs : List Record}
    {old : Bytes} (auth : s.conf.auth = true) (action : s.conf.qry.action = .qaModifyPost)
    (holds : fs.content dbFile = some (.finished recs))
    (entry : findAll (some recs) (taiaPack (scanTimeHex req.left s.conf.qry.ts)) = [old]) :
    ∃ s' fs' recs', exec (handleQuery req s) fs = (.ok s', fs') ∧
      fs'.content dbFile = some (.finished recs') ∧
      findAll (some recs') (taiaPack (scanTimeHex req.left s.conf.qry.ts)) = [s.conf.qry.input] := by
  obtain ⟨t, key⟩ : ∃ t, scanTimeHex req.left s.conf.qry.ts = t := ⟨_, rfl⟩
  rw [key] at entry ⊢
  obtain ⟨n, fs', ran, content⟩ := exec_changeDb
    ⟨.modify t s.conf.qry.input, req.memory, req.clk, req.modifiedAt⟩ rfl rfl holds
  have after : BlogEvent.after req.leapsecs
      ⟨.modify t s.conf.qry.input, req.memory, req.clk, req.modifiedAt⟩ recs =
        batchResult [] req.clk (modifyChanges req.modifiedAt t s.conf.qry.input) recs :=
    newRecords_eq req.memory [] req.clk
      (posed_modifyChanges req.modifiedAt t s.conf.qry.input (by rw [entry]; simp))
  rw [after] at content
  have called : handleQuery req s = modifyPost req t s := by
    rw [handleQuery, accessGate_of_auth auth, runAction, action, key]
  have modified : exec (handleQuery req s) fs = (.ok ((noticeChange s (str "Entry modified")
      (some n)).modQry ({ · with action := .qaShow })), fs') := by
    rw [called]
    exact run_bind_ok handle ran
  exact ⟨_, fs', _, modified, content, findAll_modified req.clk req.modifiedAt t _ entry⟩

/-! ## The form, opened and submitted -/

/-- Somebody who is logged in submits the form as it was printed. -/
structure Resubmits (refs : CharRefs) (env : PageEnv) (conf : Blog) (p : Printer) (fs : Fs)
    (n : Nentry) (req : HttpRequest) : Prop where
  session : CarriesSession req fs
  cookie : ParamCall.Passes req ⟨cookieCss, .css⟩
  form : Submits req (printedKey env.last n) (textareaValue refs (behindStart env conf n p))

section Resubmits

variable {refs : CharRefs} {env : PageEnv} {conf : Blog} {p : Printer} {fs : Fs} {t : Taia}
  {x : Bytes} {req : HttpRequest}

/-- The text that comes back. -/
theorem cstr_formValue_iff (noNul : (0 : UInt8) ∉ x) (k : Bytes) :
    cstr (textareaValue refs (behindStart env conf ⟨x ++ [0], k⟩ p)) = x ↔ ReadsBack refs x := by
  obtain ⟨tail, behind⟩ := behindStart_eq env conf noNul k p
  rw [behind]
  exact cstr_textareaValue_iff refs noNul tail

theorem Resubmits.parsed (key : EntryKey t) (own : OwnSessions fs)
    (submitted : Resubmits refs env conf p fs ⟨x ++ [0], taiaPack t⟩ req) (s : Server) :
    ∃ s', exec (parseRequest req s) fs = (.ok s', fs) ∧
      FormParsed req t (textareaValue refs (behindStart env conf ⟨x ++ [0], taiaPack t⟩ p)) s' := by
  have form := submitted.form
  rw [printedKey_eq env.last key rfl] at form
  exact exec_parseRequest_form own submitted.session submitted.cookie form s

/-- **When the text is stored again.** -/
theorem storesAgain_iff {recs : List Record} (key : EntryKey t) (some_ : x ≠ [])
    (noNul : (0 : UInt8) ∉ x) (own : OwnSessions fs)
    (holds : fs.content dbFile = some (.finished recs))
    (entry : findAll (some recs) (taiaPack t) = [x ++ [0]])
    (submitted : Resubmits refs env conf p fs ⟨x ++ [0], taiaPack t⟩ req) (s : Server) :
    StoresAgain req s fs t x ↔ ReadsBack refs x ∧ req.postData.length < postdataMax := by
  obtain ⟨s', ran, parsed⟩ := submitted.parsed key own s
  have back : cstr (textareaValue refs (behindStart env conf ⟨x ++ [0], taiaPack t⟩ p)) = x ↔
      ReadsBack refs x := cstr_formValue_iff noNul (taiaPack t)
  generalize textareaValue refs (behindStart env conf ⟨x ++ [0], taiaPack t⟩ p) = v at parsed back
  rw [← back]
  constructor
  · rintro ⟨s'', final, fs', recs', ran', modifies, -, input, -⟩
    rw [ran] at ran'
    cases ran'
    rw [branch, accessGate_of_auth parsed.auth, parsed.action] at modifies
    split at modifies
    · rename_i short
      rw [parsed.input short] at input
      split at input
      · simp at input
      · exact ⟨List.append_cancel_right input, short⟩
    · cases modifies
  · rintro ⟨same, short⟩
    have text : v ≠ [] := by
      rintro rfl
      exact some_ same.symm
    have action : s'.conf.qry.action = .qaModifyPost := by rw [parsed.action, if_pos short]
    have input : s'.conf.qry.input = x ++ [0] := by rw [parsed.input short, if_neg text, same]
    obtain ⟨rest, ts⟩ := parsed.key short text
    have stamp : scanTimeHex req.left s'.conf.qry.ts = t := by
      rw [ts]
      exact (scanTimeHex_inflateTs key req.left rest).2
    obtain ⟨final, fs', recs', served, content, found⟩ :=
      exec_handleQuery_modify parsed.auth action holds (stamp.symm ▸ entry)
    rw [stamp, input] at found
    refine ⟨s', final, fs', recs', ran, ?_, stamp, input, served, content, found⟩
    rw [branch, accessGate_of_auth parsed.auth, action]

/-- Posted data that is too long changes nothing. -/
theorem Resubmits.unread (key : EntryKey t) (own : OwnSessions fs)
    (submitted : Resubmits refs env conf p fs ⟨x ++ [0], taiaPack t⟩ req)
    (long : postdataMax ≤ req.postData.length) (s : Server) :
    ∃ s', exec (serve req s) fs = (.ok s', fs) := by
  obtain ⟨s', ran, parsed⟩ := submitted.parsed key own s
  have action : s'.conf.qry.action = .qaShow := by rw [parsed.action, if_neg (Nat.not_lt.2 long)]
  refine ⟨s', ?_⟩
  rw [exec, serve, run_bind_ok handle ran, handleQuery, accessGate_of_auth parsed.auth, runAction,
    action]
  rfl

end Resubmits

/-- **The text is stored again.**  An entry whose key the clock has issued is opened
in the edit form, whatever else is on the page, and the form is submitted as it is:
a text that a browser reads back is stored again, unless the posted data is too
long, which changes nothing. -/
theorem editForm_stores_again (refs : CharRefs) (env : PageEnv) (conf : Blog) (p : Printer) (fs : Fs)
    (recs : List Record) (t : Taia) (x : Bytes) (key : EntryKey t) (some_ : x ≠ [])
    (noNul : (0 : UInt8) ∉ x) (reads : ReadsBack refs x) (own : OwnSessions fs)
    (holds : fs.content dbFile = some (.finished recs))
    (entry : findAll (some recs) (taiaPack t) = [x ++ [0]]) :
    ∃ n, exec (openEntry t) fs = (.ok n, fs) ∧
      ∀ (req : HttpRequest) (s : Server), Resubmits refs env conf p fs n req →
        (req.postData.length < postdataMax → StoresAgain req s fs t x) ∧
        (postdataMax ≤ req.postData.length → ∃ s', exec (serve req s) fs = (.ok s', fs)) := by
  refine ⟨_, exec_openEntry holds entry, fun req s submitted => ⟨fun short => ?_, fun long => ?_⟩⟩
  · exact (storesAgain_iff key some_ noNul own holds entry submitted s).2 ⟨reads, short⟩
  · exact submitted.unread key own long s

/-! ## Two entries -/

/-- The references of the characters that markup is made of. -/
def basicRefs : CharRefs :=
  .ofNames [(str "amp;", str "&"), (str "lt;", str "<"), (str "gt;", str ">"),
    (str "quot;", str "\"")] (by decide) (by simp [str, IsAscii]) (by decide) (by decide)

/-- The first of January 2024. -/
def entryStamp : Taia := ⟨4611686020131455114, 1, 0⟩

/-- A blog with an entry, and somebody who is logged in. -/
def blogWith (x : Bytes) : Fs :=
  loggedIn.install dbFile (.finished [⟨taiaPack entryStamp, x ++ [0]⟩])

def administration : PageEnv where
  admin := true
  ssl := true
  script := str "/admin.cgi"
  host := str "localhost"
  path := str "/"
  gerr := ⟨[], 0, .nNone⟩
  last := 0
  dfmt := zeros fmtCaldateNavSize

def formRequest (enc : Bytes) : HttpRequest :=
  { HttpRequest.blank with
    cookie := some (str "sid=" ++ sessionId fun _ => 10)
    postData := editForm (str "6592008a00000001") enc }

theorem entryKey_sample : EntryKey entryStamp := ⟨⟨by decide, by decide⟩, rfl⟩

theorem findAll_blogWith (x : Bytes) :
    findAll (some [⟨taiaPack entryStamp, x ++ [0]⟩]) (taiaPack entryStamp) = [x ++ [0]] := by
  simp [findAll]

theorem blogWith_own (x : Bytes) : OwnSessions (blogWith x) :=
  .of_issued (show (blogWith x).content sessionDb = _ from loggedIn_sessions)

/-- Its cookie is the same for all texts. -/
theorem get_formRequest {site : Site} (source : site.source = .cookie) (enc : Bytes) :
    site.get (formRequest enc) = site.get (formRequest []) := by
  rw [Site.get, Site.get]
  rw [source]
  rfl

theorem formRequest_session (enc x : Bytes) : CarriesSession (formRequest enc) (blogWith x) := by
  have id : cookieSid.value (formRequest []) = some (sessionId fun _ => 10) := by decide +kernel
  have lasts : sessionValid (some [sessionRecord (sessionId fun _ => 10) ⟨epoch - 3600, 0, 0⟩])
      ⟨epoch, 0, 0⟩ (sessionId fun _ => 10) = true := by decide +kernel
  have same : cookieSid.value (formRequest enc) = cookieSid.value (formRequest []) := by
    rw [Site.value, Site.value, get_formRequest rfl]
  exact ⟨_, _, same.trans id, loggedIn_sessions, lasts⟩

theorem formRequest_css (enc : Bytes) : ParamCall.Passes (formRequest enc) ⟨cookieCss, .css⟩ := by
  have absent : cookieCss.get (formRequest []) =
      .ok { code := retNotFound, write := [], bad := false } := by decide +kernel
  exact ⟨_, (get_formRequest rfl enc).trans absent, fun _ => Nat.zero_le _⟩

/-- The form is submitted with what its text is read as. -/
theorem resubmits_sample {x v enc : Bytes} (noNul : (0 : UInt8) ∉ x)
    (noEnd : ¬ endTag.map toupper <:+: x.map toupper)
    (decoded : dropLineFeed (basicRefs.decode x) = v) (encodes : Urlencoded v enc) :
    Resubmits basicRefs administration blogInit ⟨0, 0, []⟩ (blogWith x)
      ⟨x ++ [0], taiaPack entryStamp⟩ (formRequest enc) where
  session := formRequest_session enc x
  cookie := formRequest_css enc
  form := by
    obtain ⟨tail, behind⟩ :=
      behindStart_eq administration blogInit noNul (taiaPack entryStamp) ⟨0, 0, []⟩
    have value : textareaValue basicRefs (x ++ (endTag ++ tail)) = v := by
      rw [textareaValue, front_endTag, Occurs.front_of_absent toupper noEnd, decoded]
    have printed : window entryStamp = str "6592008a00000001" := by decide
    rw [printedKey_eq _ entryKey_sample rfl, behind, value, printed]
    exact ⟨rfl, enc, encodes, rfl⟩

/-- A lone `&` is read back. -/
theorem editForm_stores_again_sample :
    let x := str "Q & A"
    ∃ n, exec (openEntry entryStamp) (blogWith x) = (.ok n, blogWith x) ∧
      Resubmits basicRefs administration blogInit ⟨0, 0, []⟩ (blogWith x) n
        (formRequest (str "Q+%26+A")) ∧
      StoresAgain (formRequest (str "Q+%26+A")) ⟨blogInit, ⟨[], 0, .nNone⟩⟩ (blogWith x) entryStamp
        x := by
  intro x
  have reads : ReadsBack basicRefs x := ⟨by decide, by decide, by decide⟩
  obtain ⟨n, opened, stores⟩ := editForm_stores_again basicRefs administration blogInit ⟨0, 0, []⟩
    (blogWith x) _ entryStamp x entryKey_sample (by decide) (by decide) reads
    (blogWith_own x) (Fs.content_install_self _ _ _) (findAll_blogWith x)
  have read := exec_openEntry (Fs.content_install_self loggedIn dbFile _) (findAll_blogWith x)
  obtain rfl : n = ⟨x ++ [0], taiaPack entryStamp⟩ := by
    have same := opened.symm.trans read
    cases same
    rfl
  have encodes : Urlencoded x (str "Q+%26+A") :=
    .asIs (by decide) (.space (.escape (by decide) (by decide) (.space (.asIs (by decide) .nil))))
  have decoded : dropLineFeed (basicRefs.decode x) = x := by
    rw [basicRefs.decode_of_free reads.noReference, dropLineFeed_of_head reads.lineFeed]
  have submitted := resubmits_sample (by decide) reads.noEnd decoded encodes
  exact ⟨_, opened, submitted, (stores _ _ submitted).1 (by decide)⟩

/-- A reference is not: what comes back is the character it stands for. -/
theorem reference_not_stored_again :
    let x := str "a &amp; b"
    ∃ n, exec (openEntry entryStamp) (blogWith x) = (.ok n, blogWith x) ∧
      Resubmits basicRefs administration blogInit ⟨0, 0, []⟩ (blogWith x) n
        (formRequest (str "a+%26+b")) ∧
      ∀ s, ¬ StoresAgain (formRequest (str "a+%26+b")) s (blogWith x) entryStamp x := by
  intro x
  have noNul : (0 : UInt8) ∉ x := by decide
  have name : basicRefs.read (str "amp; b") = some (4, str "&") := by decide
  have decoded : dropLineFeed (basicRefs.decode x) = str "a & b" := by
    have parts : x = str "a " ++ 38 :: str "amp; b" := by decide
    have rest : basicRefs.decode (str " b") = str " b" := basicRefs.decode_of_free (by decide)
    have behind : (str "amp; b").drop 4 = str " b" := by decide
    rw [parts, basicRefs.decode_append_of_notMem (by decide), basicRefs.decode_of_read name, behind,
      rest]
    decide
  have encodes : Urlencoded (str "a & b") (str "a+%26+b") :=
    .asIs (by decide) (.space (.escape (by decide) (by decide) (.space (.asIs (by decide) .nil))))
  have submitted := resubmits_sample noNul (by decide) decoded encodes
  have holds : (blogWith x).content dbFile = _ := Fs.content_install_self _ _ _
  refine ⟨_, exec_openEntry holds (findAll_blogWith x), submitted, fun s stores => ?_⟩
  have both := (storesAgain_iff entryKey_sample (by decide) noNul (blogWith_own x) holds
    (findAll_blogWith x) submitted s).1 stores
  have reference : ¬ basicRefs.Free x := by decide
  exact reference both.1.noReference

end Bagunceiro
