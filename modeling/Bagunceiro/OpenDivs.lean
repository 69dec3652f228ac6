/-
# OpenDivs -- what a page leaves open

The parts of a page close what they open, and the end of a page closes as many `div`
elements as the counter says are open.  The header counts one that it does not open
(`html_div_inc`), so a page that is complete closes one too many; a page that is
refused ends behind its header, with four open.  `printShowHtml_balanced_iff` says
when that comes out even: when a text that stands in the header opens one more.
-/
import Bagunceiro.Divs
import Bagunceiro.Fmthtml

namespace Bagunceiro

open Brackets Radix

set_option autoImplicit false

/-! ## Texts of the program -/

/-- A tag needs more than one character. -/
theorem divFree_of_dropLast {w : Bytes} (none_ : (60 : UInt8) ∉ w.dropLast) : DivFree w := by
  have inside {c d : UInt8} {tag : Bytes} (tagged : 60 :: c :: d :: tag <:+: w) : False := by
    obtain ⟨front, back, rfl⟩ := tagged
    apply none_
    rw [List.append_assoc, List.dropLast_append_of_ne_nil (by simp)]
    simp
  exact ⟨fun opening => inside opening, fun closing => inside closing⟩

theorem divFree_of_notMem {w : Bytes} (none_ : (60 : UInt8) ∉ w) : DivFree w :=
  divFree_of_dropLast fun member => none_ (List.dropLast_subset w member)

/-- A remainder of a division by ten, as a character, whatever its sign. -/
theorem ofInt_tmod_ne (x : Int) : UInt8.ofInt (48 + x.tmod 10) ≠ 60 := by
  have below : x.tmod 10 < 10 := Int.tmod_lt_of_pos x (by norm_num)
  have above : -10 < x.tmod 10 := Int.lt_tmod_of_pos x (by norm_num)
  generalize x.tmod 10 = d at *
  interval_cases d <;> decide

theorem notMem_twoDigits (x : Int) : (60 : UInt8) ∉ twoDigits x := by
  simp only [twoDigits, List.mem_cons, List.not_mem_nil, or_false, not_or]
  exact ⟨(ofInt_tmod_ne _).symm, (ofInt_tmod_ne _).symm⟩

theorem notMem_decimal (n : Nat) : (60 : UInt8) ∉ decimal n := by
  intro member
  have digit := (digit_of_mem_decimal member).2
  exact absurd digit (by decide)

theorem notMem_caldateFmt (cd : Caldate) : (60 : UInt8) ∉ caldateFmt cd := by
  have year : (60 : UInt8) ∉ fmtYear cd.year := by
    rw [fmtYear]
    split
    · rw [List.mem_append, not_or]
      exact ⟨by decide, notMem_decimal _⟩
    · exact notMem_decimal _
  have sign : (60 : UInt8) ∉ str "-" := by decide
  rw [caldateFmt]
  simp only [List.mem_append, not_or]
  exact ⟨⟨⟨⟨year, sign⟩, notMem_twoDigits _⟩, sign⟩, notMem_twoDigits _⟩

theorem notMem_monthField (cd : Caldate) : (60 : UInt8) ∉ monthField cd := by
  rw [monthField]
  split
  · intro member
    exact notMem_caldateFmt cd (List.mem_of_mem_take member)
  · exact List.not_mem_nil

theorem notMem_printFooterHtml (mon : Caldate) :
    (60 : UInt8) ∉ (printFooterHtml mon).older ∧ (60 : UInt8) ∉ (printFooterHtml mon).whole ∧
      (60 : UInt8) ∉ (printFooterHtml mon).later := by
  simp only [printFooterHtml]
  exact ⟨notMem_monthField _, notMem_monthField _, notMem_monthField _⟩

/-- Only digits get into the window of a key. -/
theorem notMem_printedKey (last : UInt8) (e : Nentry) : (60 : UInt8) ∉ printedKey last e := by
  let src := hexdump (e.k.take taiaPackSize) ++ [0]
  let cut := (src.drop 8).take 16
  have shown : printedKey last e =
      cstr ((cut ++ (List.replicate 16 48 ++ [last]) ++ src.drop 33).take 16) := by
    rw [printedKey, fmtKeyPlain, reduceTs]
    exact cstr_append_zero _ _
  have front : (cut ++ (List.replicate 16 48 ++ [last]) ++ src.drop 33).take 16 =
      (cut ++ List.replicate 16 48).take 16 := by
    rw [← List.append_assoc, List.append_assoc _ [last], List.take_append_of_le_length (by simp)]
  intro member
  rw [shown, front] at member
  have inside := List.mem_of_mem_take ((List.takeWhile_prefix _).subset member)
  rw [List.mem_append] at inside
  rcases inside with digit | filler
  · have digit := List.mem_of_mem_drop (List.mem_of_mem_take digit)
    rcases List.mem_append.1 digit with digit | terminator
    · exact absurd (isLowerHex_of_mem_hexdump digit) (by decide)
    · exact absurd terminator (by decide)
  · exact absurd (List.eq_of_mem_replicate filler) (by decide)

theorem length_yearText (year : Int) : (yearText year).length = countDigits year.natAbs := by
  induction year using yearText.induct with
  | case1 year ih =>
      have quotient : (year.tdiv 10).natAbs = year.natAbs / 10 := Int.natAbs_tdiv year 10
      rw [yearText, countDigits, ← quotient]
      by_cases single : year.tdiv 10 = 0
      · simp [single]
      · rw [if_neg single, if_neg (by omega), List.length_append, ih single]
        rfl

theorem notMem_yearText (year : Int) : (60 : UInt8) ∉ yearText year := by
  induction year using yearText.induct with
  | case1 year ih =>
      rw [yearText, List.mem_append, not_or, List.mem_singleton]
      refine ⟨?_, (ofInt_tmod_ne year).symm⟩
      split
      · exact List.not_mem_nil
      · rename_i more
        exact ih more

theorem notMem_dayText (day : Int) : (60 : UInt8) ∉ dayText day := by
  have tens := ofInt_tmod_ne (day.tdiv 10)
  rw [dayText]
  simp only [List.mem_cons, List.not_mem_nil, or_false, not_or]
  refine ⟨?_, (ofInt_tmod_ne day).symm⟩
  split
  · decide
  · exact tens.symm

theorem notMem_getD {names : List Bytes} (all : ∀ name ∈ names, (60 : UInt8) ∉ name) (i : Nat) :
    (60 : UInt8) ∉ names.getD i [] := by
  rw [List.getD_eq_getElem?_getD]
  cases found : names[i]? with
  | none => exact List.not_mem_nil
  | some name => exact all name (List.mem_of_getElem? found)

theorem notMem_fmtCaldateNav (date : Caldate) : (60 : UInt8) ∉ (fmtCaldateNav date).1 := by
  have blank : (60 : UInt8) ∉ str " " := by decide
  simp only [fmtCaldateNav, List.mem_append, not_or]
  exact ⟨⟨⟨⟨⟨⟨notMem_getD (by decide) _, blank⟩, notMem_dayText _⟩, blank⟩,
    notMem_getD (by decide) _⟩, blank⟩, notMem_yearText _⟩

/-- Of a date, at most the last character of the line is not written. -/
theorem fmtCaldateNav_snd_le {date : Caldate} (isDate : date.IsDate) :
    (fmtCaldateNav date).2 ≤ (fmtCaldateNav date).1.length + 1 := by
  have name (month day year : Int) :
      (weekdays.getD (weekday month day year).toNat []).length = 3 := by
    have below : weekday month day year < 7 := Int.tmod_lt_of_pos _ (by norm_num)
    have index : (weekday month day year).toNat < 7 := by omega
    generalize (weekday month day year).toNat = i at *
    interval_cases i <;> rfl
  have month := length_months isDate.month_pos isDate.month_le
  have year := length_yearText date.year
  simp only [fmtCaldateNav, List.length_append, name, month, year, length_dayText,
    show (str " ").length = 1 from rfl]
  split <;> omega

theorem divFree_dateLine (env : PageEnv) {date : Caldate} (isDate : date.IsDate) :
    DivFree (dateLine env date) := by
  apply divFree_of_dropLast
  have short := fmtCaldateNav_snd_le isDate
  have none_ := notMem_fmtCaldateNav date
  rw [dateLine]
  generalize fmtCaldateNav date = line at *
  obtain ⟨text, dlen⟩ := line
  simp only at short none_ ⊢
  rw [cstr_concat_zero]
  have written : (cstr ((text ++ env.dfmt.drop text.length).take dlen)).dropLast <+: text := by
    have front := (List.takeWhile_prefix (fun c : UInt8 => decide (c ≠ 0))).trans
      (List.take_prefix dlen (text ++ env.dfmt.drop text.length))
    have size := (List.takeWhile_prefix (fun c : UInt8 => decide (c ≠ 0))
      (l := (text ++ env.dfmt.drop text.length).take dlen)).length_le
    refine List.prefix_of_prefix_length_le ((List.dropLast_prefix _).trans front)
      (List.prefix_append text _) ?_
    rw [List.length_take] at size
    rw [List.length_dropLast, cstr]
    omega
  exact fun member => none_ (written.subset member)

/-! ## Parts of a page -/

/-- What is put into a page from the configuration and from the entries has no
tags, and days have dates. -/
structure FreeTexts (env : PageEnv) (conf : Blog) (res : Result) : Prop where
  title : DivFree (cstr conf.title)
  tagline : DivFree (cstr conf.tagline)
  script : DivFree env.script
  host : DivFree env.host
  path : DivFree env.path
  entries : ∀ de ∈ res, ∀ e ∈ de.es, DivFree (cstr (e.e ++ [0]))
  dates : ∀ de ∈ res, de.time.date.IsDate

section

variable {env : PageEnv} {conf : Blog}

theorem keeps_keyLink {query key text : Bytes} (plain : (60 : UInt8) ∉ query)
    (plainKey : (60 : UInt8) ∉ key) (free : DivFree text) : Keeps (keyLink query key text) := by
  have href : DivFree [str "?", query, str "=", key].flatten := by
    apply divFree_of_notMem
    have mark : (60 : UInt8) ∉ str "?" := by decide
    have equals : (60 : UInt8) ∉ str "=" := by decide
    simp only [List.flatten_cons, List.flatten_nil, List.append_nil, List.mem_append, not_or]
    exact ⟨mark, plain, equals, plainKey⟩
  exact (Goes.keep (keeps_htmlSpanOpen (by decide)) <| .keep (keeps_htmlLinkTo href free) <|
    .keep keeps_htmlSpanEnd .done).keeps

theorem keeps_printKeyHtml (e : Nentry) : Keeps (printKeyHtml env conf e) := by
  have key := notMem_printedKey env.last e
  have links : Keeps (inOrder [keyLink (str "del") (printedKey env.last e) (str "delete"),
      keyLink (str "mod") (printedKey env.last e) (str "modify")]) :=
    (Goes.keep (keeps_keyLink (by decide) key (by decide)) <|
      .keep (keeps_keyLink (by decide) key (by decide)) .done).keeps
  exact (Goes.opens (by decide) <| .keep (keeps_keyLink (by decide) key (by decide)) <|
    .keep (keeps_onlyIf fun _ => links) <| .closes .done).keeps

theorem tagged_h3 : Tagged [str "<", str "h3", str ">"].flatten [] ∧
    Tagged [str "</", str "h3", str ">"].flatten [] := by decide

theorem keeps_printDateHtml {de : Day} (isDate : de.time.date.IsDate) :
    Keeps (printDateHtml env de) :=
  keeps_htmlTagOpenClose tagged_h3.1 tagged_h3.2 (keeps_htmlContent (divFree_dateLine env isDate))

theorem keeps_entryHtml {e : Nentry} (free : DivFree (cstr (e.e ++ [0]))) :
    Keeps (entryHtml env conf e) := by
  have opening : Tagged [str "<", str "li", str ">"].flatten [] := by decide
  have closing : Tagged [str "</", str "li", str ">"].flatten [] := by decide
  exact (Goes.keep (keeps_htmlTagOpen opening) <| .keep (keeps_htmlSpanOpen (by decide)) <|
    .keep (keeps_htmlContent free) <| .keep keeps_htmlSpanEnd <| .keep (keeps_printKeyHtml e) <|
    .keep (keeps_cprint closing) .done).keeps

/-- **A day closes what it opens**, with any number of entries. -/
theorem keeps_dayEntriesHtml {de : Day} (isDate : de.time.date.IsDate)
    (free : ∀ e ∈ de.es, DivFree (cstr (e.e ++ [0]))) : Keeps (dayEntriesHtml env conf de) := by
  have opening : Tagged [str "<", str "ul", str ">"].flatten [] := by decide
  have closing : Tagged [str "</", str "ul", str ">"].flatten [] := by decide
  exact (Goes.opens (by decide) <| .keep (keeps_printDateHtml isDate) <|
    .keep (keeps_htmlTagOpen opening) <|
    .keep (keeps_each fun e member => keeps_entryHtml (free e member)) <|
    .keep (keeps_cprint closing) <| .closes .done).keeps

theorem keeps_printNoentriesHtml : Keeps printNoentriesHtml := by
  have none_ : DivFree (str "No entries found") := by decide
  exact (Goes.opens (by decide) <|
    .keep (keeps_htmlTagOpenClose tagged_h3.1 tagged_h3.2 (keeps_htmlContent none_)) <|
    .closes .done).keeps

theorem keeps_printTinyHtmlEditor : Keeps printTinyHtmlEditor :=
  (Goes.keep (keeps_sprint (tagged_flatten (by decide))) <|
    .keep (keeps_sprint (tagged_flatten (by decide))) <|
    .keep (keeps_sprint (tagged_flatten (by decide +kernel))) .done).keeps

/-! ### The header -/

/-- A link behind the path of the program. -/
theorem keeps_htmlAbsQryLink2 {query text : Bytes} (free : DivFree env.script)
    (plain : (60 : UInt8) ∉ query) (freeText : DivFree text) :
    Keeps (htmlAbsQryLink2 env.script query text) := by
  apply keeps_htmlLinkTo _ freeText
  have breaks : Breaks (str "?" ++ query) := Breaks.append (by decide) query
  have behind : DivFree (str "?" ++ query) := by
    apply divFree_of_notMem
    rw [List.mem_append, not_or]
    exact ⟨by decide, plain⟩
  have whole := divTags_append env.script breaks
  rw [(divTags_eq_nil_iff _).2 free, (divTags_eq_nil_iff _).2 behind, List.append_nil] at whole
  rw [← divTags_eq_nil_iff]
  simpa using whole

theorem keeps_headerActions (free : DivFree env.script) : Keeps (headerActions env conf) := by
  have links : Keeps (if conf.auth then
      inOrder [onlyIf (conf.qry.action ≠ .qaAdd)
          (htmlAbsQryLink2 env.script (str "add") (str "Add entry")),
        htmlAbsQryLink2 env.script (str "config") (str "Config"),
        htmlAbsQryLink2 env.script (str "logout") (str "Logout")]
    else htmlAbsQryLink2 env.script (str "login") (str "Login")) := by
    split
    · exact (Goes.keep (keeps_onlyIf fun _ => keeps_htmlAbsQryLink2 free (by decide) (by decide)) <|
        .keep (keeps_htmlAbsQryLink2 free (by decide) (by decide)) <|
        .keep (keeps_htmlAbsQryLink2 free (by decide) (by decide)) .done).keeps
    · exact keeps_htmlAbsQryLink2 free (by decide) (by decide)
  exact (Goes.opens (by decide) <| .keep (keeps_htmlContent (by decide)) <| .keep links <|
    .keep (keeps_htmlContent (by decide)) <| .closes .done).keeps

theorem keeps_searchBox (free : DivFree env.path) : Keeps (searchBox env) := by
  have method : Tagged (str "<form method=\"" ++ (str "get" ++ str "\" action=\"")) [] := by decide
  have quote : Tagged (str "\"") [] := by decide
  have form : Tagged [str "<form method=\"", str "get", str "\" action=\"", env.path,
      str "\""].flatten [] := by
    have whole := method.fill free quote (by decide)
    simpa using whole
  have formOpen : Keeps (htmlFormOpen (str "get") env.path none none) :=
    (Goes.keep keeps_incIndent <| .keep keeps_indentHere <| .keep (keeps_sprint form) <|
      .keep (keeps_sprint (by decide)) <| .keep (keeps_sprint (by decide)) <|
      .keep (keeps_sprint (by decide)) <| .keep keeps_decIndent .done).keeps
  have input (type : Bytes) (name value : Option Bytes)
      (first : Tagged [str "<input type=\"", type, str "\" "].flatten [])
      (second_ : Tagged (name.elim [] fun name => [str "name=\"", name, str "\" "]).flatten [])
      (third : Tagged (value.elim [] fun value => [str "value=\"", value, str "\" "]).flatten []) :
      Keeps (htmlInput type name value) :=
    (Goes.keep keeps_incIndent <| .keep keeps_indentHere <| .keep (keeps_sprint first) <|
      .keep (keeps_sprint second_) <| .keep (keeps_sprint third) <|
      .keep (keeps_sprint (by decide)) <| .keep keeps_decIndent .done).keeps
  exact (Goes.opens (by decide) <| .keep formOpen <|
    .keep (input _ _ _ (by decide) (by decide) (by decide)) <|
    .keep (input _ _ _ (by decide) (by decide) (by decide)) <|
    .keep (keeps_cprint (by decide)) <| .closes .done).keeps

theorem at_htmlLinkCss {r : Option Nat} {n : Int} {p : Printer} (here : At r n p) (sheet : Bytes) :
    At (depth r (divTags sheet)) n (htmlLinkCss sheet p) := by
  have open_ : Tagged (str "<link rel=stylesheet type=\"text/css\" href=\"") [] := by decide
  have slash : Tagged (str "<link rel=stylesheet type=\"text/css\" href=\"" ++ str "/") [] := by
    decide
  have close : Tagged (str "\" >\n") [] := by decide
  have front : ∃ front, Tagged front [] ∧
      (htmlLinkCss sheet p).out = p.out ++ (front ++ sheet ++ str "\" >\n") := by
    by_cases absolute : sheet.head? = some 47
    · refine ⟨_, open_, ?_⟩
      simp [htmlLinkCss, inOrder, onlyIf, sprintm, sprint, absolute]
    · refine ⟨_, slash, ?_⟩
      simp [htmlLinkCss, inOrder, onlyIf, sprintm, sprint, absolute]
  obtain ⟨front, tagged, out⟩ := front
  have whole := tagged.around sheet close (by decide)
  rw [List.nil_append, List.append_nil] at whole
  refine here.write whole out ?_
  rw [htmlLinkCss]
  simp only [inOrder, List.foldl_cons, List.foldl_nil, onlyIf]
  split <;> rfl

/-- The head is written from nothing; the name of the style sheet is put into it as
it is. -/
theorem at_headHtml (title : DivFree (cstr conf.title)) (host : DivFree env.host) (p : Printer) :
    At (depth (some 0) (divTags (stylesheet conf))) 0 (headHtml env conf p) := by
  have start : At (some 0) 0 (htmlHttpHeader p) := ⟨rfl, rfl, rfl⟩
  have preface : Keeps htmlPrintPreface := keeps_sprint (tagged_flatten (by decide))
  have feed : Keeps (htmlLinkRss (cstr conf.title) (str "?fmt=rss")) := by
    apply keeps_sprint
    have open_ : Tagged (str "<link rel=\"alternate\" type=\"application/rss+xml\" title=\"") [] :=
      by decide
    have close : Tagged (str " in rss\" href=\"" ++ (str "?fmt=rss" ++ str "\">\n")) [] := by decide
    have whole := open_.fill title close (by decide)
    simpa using whole
  have refresh : Keeps (htmlMetaRefresh protoHttps env.host (str "3")) := by
    apply keeps_sprint
    have open_ : Tagged (str "<META HTTP-EQUIV=\"Refresh\"" ++ (str "CONTENT=\"" ++ (str "3" ++
      (str "; URL=" ++ protoHttps)))) [] := by decide
    have close : Tagged (str "\">") [] := by decide
    have whole := open_.fill host close (by decide)
    simpa using whole
  have body : Keeps (htmlCloseHeadBody (str "class=\"home blog\">")) := keeps_sprint (by decide)
  have sheet := at_htmlLinkCss (preface.run start) (stylesheet conf)
  rw [headHtml, inOrder_cons, inOrder_cons, inOrder_cons]
  exact (Goes.keep feed <| .keep (keeps_onlyIf fun _ => keeps_printTinyHtmlEditor) <|
    .keep (keeps_onlyIf fun _ => refresh) <| .keep (keeps_htmlTitle title) <|
    .keep body .done).keeps.run sheet

/-- **The header opens four and counts five.** -/
theorem at_openBodyHtml (title : DivFree (cstr conf.title)) (tagline : DivFree (cstr conf.tagline))
    (script : DivFree env.script) (path : DivFree env.path) (p : Printer) {r : Option Nat}
    (here : At r 0 p) : At (r.map (· + 4)) 5 (openBodyHtml env conf p) := by
  have opening : Tagged [str "<", str "h1", str ">"].flatten [] := by decide
  have closing : Tagged [str "</", str "h1", str ">"].flatten [] := by decide
  have home : Keeps (htmlTagOpenClose2 (str "h1") htmlLink env.path (cstr conf.title)) := by
    have href : DivFree [env.path].flatten := by simpa using path
    exact (Goes.keep (keeps_htmlTagOpen opening) <| .keep (keeps_htmlLinkTo href title) <|
      .keep (keeps_cprint closing) .done).keeps
  have line : Keeps (inOrder [htmlDivOpen (str "id") (str "tagline"),
      htmlContent (cstr conf.tagline), htmlDivEnd]) :=
    (Goes.opens (by decide) <| .keep (keeps_htmlContent tagline) <| .closes .done).keeps
  have zero : r.map (· + 0) = r := by cases r <;> rfl
  rw [← zero] at here
  exact (Goes.opens (by decide) <| .opens (by decide) <| .opens (by decide) <| .keep home <|
    .keep (keeps_onlyIf fun _ => keeps_headerActions script) <| .opens (by decide) <|
    .keep (keeps_onlyIf fun _ => line) <| .keep (keeps_onlyIf fun _ => keeps_searchBox path) <|
    .closes <| .closes <| .opens (by decide) <| .opens (by decide) <|
    .inc .done : Goes _ 0 0 4 1).run (s := 0) here

/-- The tags of a notice that is printed. -/
def noticeTags (env : PageEnv) : List Bracket :=
  if env.admin ∧ env.gerr.type ≠ .nNone then divTags env.gerr.note else []

/-- A notice is put into an element of its own as it is. -/
theorem at_printNoticeHtml {r : Option Nat} {n : Int} {p : Printer} (here : At r n p) :
    At (step (depth (r.map (· + 1)) (noticeTags env)) .closing) n
      (onlyIf env.admin (printNoticeHtml env) p) := by
  have kept : step (r.map (· + 1)) .closing = r := by cases r <;> rfl
  by_cases printed : env.admin = true ∧ env.gerr.type ≠ .nNone
  · have tags : noticeTags env = divTags env.gerr.note := if_pos printed
    have opened (name : Bytes) (tagged : Tagged [str "<div ", str "id", str "=\"", name,
        str "\">"].flatten [.opening]) := At.opens here tagged
    have counted : n + 1 - 1 = n := by omega
    rw [tags, onlyIf, if_pos printed.1, printNoticeHtml, ← counted]
    cases type : env.gerr.type with
    | nNone => exact absurd type printed.2
    | nAction =>
        have note := opened (str "note") (by decide)
        exact (line_conprint.text env.gerr.note note).closes
    | nNote =>
        have note := opened (str "note") (by decide)
        have front : Tagged (str "Note: ") [] := by decide
        simp only [inOrder_cons]
        exact note.closes_behind front env.gerr.note (by simp [htmlContentM, sprintm, sprint]; rfl)
          rfl
    | nError =>
        have note := opened (str "error") (by decide)
        have front : Tagged (str "Error: ") [] := by decide
        have back : Tagged (str " ") [] := by decide
        have whole := front.around env.gerr.note back (by decide)
        rw [List.nil_append, List.append_nil] at whole
        have error : Keeps (htmlContent (str "Sys error")) := keeps_htmlContent (by decide)
        have noted := note.write whole (q := htmlContentM [str "Error: ", env.gerr.note, str " "]
          (htmlDivOpen (str "id") (str "error") p)) (by simp [htmlContentM, sprintm, sprint]; rfl) rfl
        exact (error.run noted).closes
  · have tags : noticeTags env = [] := if_neg printed
    have same : onlyIf env.admin (printNoticeHtml env) p = p := by
      rw [onlyIf]
      split
      · rename_i admin
        have none_ : env.gerr.type = .nNone := by
          by_contra other
          exact printed ⟨admin, other⟩
        rw [printNoticeHtml, none_]
        rfl
      · rfl
    rw [tags, same, depth_nil, kept]
    exact here

/-! ### The footer -/

theorem at_closeDivs {r : Option Nat} {k : Nat} {p : Printer} (here : At r k p) :
    At (depth r (List.replicate k .closing)) (-1) (closeDivs k p) := by
  induction k generalizing r p with
  | zero => exact ⟨here.ends, here.opened, by rw [closeDivs, htmlDivDec, here.counted]; rfl⟩
  | succ k ih =>
      have counted : At r k (htmlDivDec p) :=
        ⟨here.ends, here.opened, by rw [htmlDivDec]; simp only [here.counted]; omega⟩
      have tagged : Tagged (str "</div>") [.closing] := by decide
      exact ih (line_cprint.tagged tagged counted)

theorem keeps_navHtml : Keeps (navHtml conf) := by
  have link (month : Bytes) (field : (60 : UInt8) ∉ month) (text : Bytes) (free : DivFree text) :
      Keeps (htmlQryParamLink2 (str "mn") month text) := by
    apply keeps_htmlLinkTo _ free
    apply divFree_of_notMem
    have mark : (60 : UInt8) ∉ str "?" ++ str "mn" ++ str "=" := by decide
    simp only [List.flatten_cons, List.flatten_nil, List.append_nil]
    simp only [List.mem_append, not_or] at mark ⊢
    exact ⟨mark.1.1, mark.1.2, mark.2, field⟩
  have dash : Keeps (htmlContent (str " - ")) := keeps_htmlContent (by decide)
  obtain ⟨older, whole, later⟩ := notMem_printFooterHtml conf.qry.mon.date
  rw [navHtml]
  generalize printFooterHtml conf.qry.mon.date = links at *
  exact (Goes.opens (by decide) <| .keep (link _ older _ (by decide)) <| .keep dash <|
    .keep (link _ whole _ (by decide)) <| .keep dash <| .keep (link _ later _ (by decide)) <|
    .closes .done).keeps

theorem keeps_htmlCloseBody : Keeps htmlCloseBody := keeps_sprint (by decide)

/-- **The end of a page closes what the counter says is open.** -/
theorem at_footerHtml {r : Option Nat} {k : Nat} {p : Printer} (here : At r k p) :
    At (depth r (List.replicate k .closing)) (-1) (footerHtml conf p) := by
  have nav := (@keeps_navHtml conf).run here
  have count : (navHtml conf p).divstack.toNat = k := by
    rw [nav.counted]
    rfl
  have closed := at_closeDivs nav
  rw [← count] at closed ⊢
  exact keeps_htmlCloseBody.run closed

end

/-! ## Pages -/

section

variable {env : PageEnv} {conf : Blog} {res : Result} (free : FreeTexts env conf res) (p : Printer)

/-- What is open behind the name of the style sheet. -/
def sheetDepth (conf : Blog) : Option Nat := depth (some 0) (divTags (stylesheet conf))

include free

theorem at_header : At ((sheetDepth conf).map (· + 4)) 5 (openBodyHtml env conf (headHtml env conf p)) :=
  at_openBodyHtml free.title free.tagline free.script free.path _
    (at_headHtml free.title free.host p)

/-- A page that is refused leaves four open. -/
theorem depth_of_refused (refused : NeedsSsl env conf) :
    depth (some 0) (divTags (printShowHtml env conf res p).2.out) =
      (sheetDepth conf).map (· + 4) := by
  have content : Keeps (htmlContent (str "Need ssl connetion")) := keeps_htmlContent (by decide)
  have page := keeps_htmlCloseBody.run (content.run (at_header free p))
  rw [printShowHtml_of_refused refused, page.opened]

/-- A page that is complete closes five. -/
theorem depth_of_complete (complete : ¬ NeedsSsl env conf) :
    depth (some 0) (divTags (printShowHtml env conf res p).2.out) =
      depth (depth ((sheetDepth conf).map (· + 5)) (noticeTags env)) (List.replicate 6 .closing) := by
  have days : Keeps (inOrder (res.map (dayEntriesHtml env conf))) :=
    keeps_each fun de member => keeps_dayEntriesHtml (free.dates de member) (free.entries de member)
  have none_ : Keeps (onlyIf (res = []) printNoentriesHtml) :=
    keeps_onlyIf fun _ => keeps_printNoentriesHtml
  have notice := @at_printNoticeHtml env _ _ _ (at_header free p)
  have page := @at_footerHtml conf _ 5 _ (none_.run (days.run notice))
  have five : ((sheetDepth conf).map (· + 4)).map (· + 1) = (sheetDepth conf).map (· + 5) := by
    cases sheetDepth conf <;> rfl
  rw [five] at page
  rw [printShowHtml_of_complete complete, page.opened]
  rfl

/-- **No page closes what it opens**, as long as the texts in it have no tags. -/
theorem unbalanced_of_free (sheet : DivFree (stylesheet conf)) (notice : DivFree env.gerr.note) :
    ¬ Balanced (divTags (printShowHtml env conf res p).2.out) := by
  have zero : sheetDepth conf = some 0 := by
    rw [sheetDepth, (divTags_eq_nil_iff _).2 sheet, depth_nil]
  have noTags : noticeTags env = [] := by
    rw [noticeTags, (divTags_eq_nil_iff _).2 notice, ite_self]
  rw [balanced_iff]
  by_cases refused : NeedsSsl env conf
  · rw [depth_of_refused free p refused, zero]
    decide
  · rw [depth_of_complete free p refused, zero, noTags]
    decide

end

/-- **Which pages close what they open**: those that are complete and into which the
name of the style sheet and the notice bring one more that is open, as no text of
the program's does. -/
theorem printShowHtml_balanced_iff (env : PageEnv) (conf : Blog) (res : Result) (p : Printer)
    (free : FreeTexts env conf res) :
    Balanced (divTags (printShowHtml env conf res p).2.out) ↔
      ¬ NeedsSsl env conf ∧
        depth ((sheetDepth conf).map (· + 5)) (noticeTags env) = some 6 := by
  rw [balanced_iff]
  by_cases refused : NeedsSsl env conf
  · rw [depth_of_refused free p refused]
    simp only [refused, not_true_eq_false, false_and, iff_false]
    cases sheetDepth conf <;> simp
  · rw [depth_of_complete free p refused, depth_replicate_closing]
    simp only [refused, not_false_eq_true, true_and]

/-- Without administration, over memory that is zero. -/
def envSample : PageEnv where
  admin := false
  ssl := false
  script := str "/"
  host := str "localhost"
  path := str "/"
  gerr := ⟨[], 0, .nNone⟩
  last := 0
  dfmt := zeros fmtCaldateNavSize

/-- A day with an entry. -/
def resultSample : Result :=
  [{ time := caltimeUtc [] epoch, es := [⟨str "<b>hello</b>", taiaPack ⟨epoch, 0, 0⟩⟩] }]

theorem freeTexts_sample : FreeTexts envSample blogInit resultSample where
  title := by decide
  tagline := by decide
  script := by decide
  host := by decide
  path := by decide
  entries de member e inside := by
    rw [List.mem_singleton.1 member] at inside
    rw [List.mem_singleton.1 inside]
    decide
  dates de member := by
    rw [List.mem_singleton.1 member]
    exact isDate_caldateFrommjd _

/-- The page of one entry closes one element too many. -/
theorem printShowHtml_sample :
    ¬ Balanced (divTags (printShowHtml envSample blogInit resultSample ⟨0, 0, []⟩).2.out) := by
  intro even
  have brought := (printShowHtml_balanced_iff envSample blogInit resultSample _
    freeTexts_sample).1 even
  exact absurd brought.2 (by decide)

/-- Texts without tags do not keep a page from closing too much. -/
theorem page_closes_too_much : ¬ ∀ (env : PageEnv) (conf : Blog) (res : Result) (p : Printer),
    FreeTexts env conf res → DivFree (stylesheet conf) → DivFree env.gerr.note →
      Balanced (divTags (printShowHtml env conf res p).2.out) := by
  intro always
  have sheet : DivFree (stylesheet blogInit) := by decide
  have notice : DivFree envSample.gerr.note := by decide
  have even := always envSample blogInit resultSample ⟨0, 0, []⟩ freeTexts_sample sheet notice
  exact unbalanced_of_free freeTexts_sample _ sheet notice even

end Bagunceiro
