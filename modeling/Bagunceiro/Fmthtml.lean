/-
# Fmthtml -- the pages (`z_fmthtml.c`, `z_format.c`)

A page is a header, a body and a footer.  `print_show` makes the body of the days of
a result; the header may refuse to go on, and then nothing follows it.
`print_mod_entry` makes the body of the form an entry is edited in.

One source makes two programs: `blog.cgi` only shows entries, and `admin.cgi` has
what `ADMIN_MODE` and `ADMIN_MODE_PASS` switch on.  The pages are those of the builds
without FastCGI, in which everything is printed to one buffer (`htmlContentM`).
-/
import Bagunceiro.CaldateNav
import Bagunceiro.Fetch
import Bagunceiro.Html5
import Bagunceiro.Navigation

namespace Bagunceiro

set_option autoImplicit false

/-- `PROTO_HTTPS` -/
def protoHttps : Bytes := str "https://"
/-- `DEFAULT_STYLESHEET` -/
def defaultStylesheet : Bytes := str "style.css"

/-- What a page is made of besides `blog_t`'s other fields and the entries. -/
structure PageEnv where
  /-- `ADMIN_MODE` and `ADMIN_MODE_PASS` are defined -/
  admin : Bool
  /-- `conf->ssl` is not null -/
  ssl : Bool
  script : Bytes
  host : Bytes
  path : Bytes
  gerr : Errors
  /-- what `reduce_ts` and `print_date_html` find in their buffers -/
  last : UInt8
  dfmt : Bytes

section

variable (env : PageEnv) (conf : Blog)

/-! ## Entries -/

/-- A link of an entry. -/
def keyLink (query key text : Bytes) : Html :=
  inOrder [htmlSpanOpen (str "class") (str "k"), htmlQryParamLink2 query key text, htmlSpanEnd]

def printKeyHtml (e : Nentry) : Html :=
  let buf := printedKey env.last e
  inOrder [htmlDivOpen (str "class") (str "actions"),
    keyLink (str "ts") buf (str "link"),
    onlyIf (env.admin ∧ conf.auth) (inOrder [keyLink (str "del") buf (str "delete"),
      keyLink (str "mod") buf (str "modify")]),
    htmlDivEnd]

/-- The date line: its end is set by what `fmt_caldate_nav` returns. -/
def dateLine (date : Caldate) : Bytes :=
  let (text, dlen) := fmtCaldateNav date
  cstr ((text ++ env.dfmt.drop text.length).take dlen ++ [0])

def printDateHtml (de : Day) : Html :=
  htmlTagOpenClose (str "h3") htmlContent (dateLine env de.time.date)

/-- One round of the loop of `day_entries_html`. -/
def entryHtml (e : Nentry) : Html :=
  inOrder [htmlTagOpen (str "li"),
    htmlSpanOpen (str "class") (str "c"), htmlContent (cstr (e.e ++ [0])), htmlSpanEnd,
    printKeyHtml env conf e, htmlTagClose (str "li")]

def dayEntriesHtml (de : Day) : Html :=
  inOrder [htmlDivOpen (str "class") (str "day"), printDateHtml env de, htmlTagOpen (str "ul"),
    inOrder (de.es.map (entryHtml env conf)), htmlTagClose (str "ul"), htmlDivEnd]

def printNoentriesHtml : Html :=
  inOrder [htmlDivOpen (str "class") (str "day"),
    htmlTagOpenClose (str "h3") htmlContent (str "No entries found"), htmlDivEnd]

/-! ## Header and footer -/

def printTinyHtmlEditor : Html :=
  inOrder [htmlJavaScript (str "/tinymce/tiny_mce.js"),
    sprintm [str "<script type=\"text/javascript\">"],
    sprintm (["tinyMCE.init(\x7b", "mode : \"textareas\",", "theme : \"advanced\",",
      "theme_advanced_buttons1 : \"bold,italic,underline,strikethrough,|,justifyleft,",
      "justifycenter,justifyright,justifyfull,|,styleselect,formatselect,fontselect,",
      "fontsizeselect|,forecolor,backcolor\",",
      "theme_advanced_buttons2 : \"cut,copy,paste,pastetext,|,bullist,numlist,|,outdent,indent,",
      "blockquote,|,undo,redo,|,link,unlink,anchor,image,cleanup,code,removeformat,visualaid,|,",
      "sub,sup,|,charmap\",",
      "theme_advanced_buttons3 : \"\",", "theme_advanced_toolbar_location : \"top\",",
      "theme_advanced_toolbar_align : \"left\",", "theme_advanced_statusbar_location : \"bottom\",",
      "theme_advanced_resizing : \"true\",", "forced_root_block : false,",
      "force_br_newlines : true,", "force_p_newlines : false,", "plugins : \"inlinepopups\",",
      "dialog_type : \"modal\"", "\x7d);", "</script>"].map str)]

def printNoticeHtml : Html :=
  match env.gerr.type with
  | .nError =>
      inOrder [htmlDivOpen (str "id") (str "error"),
        htmlContentM [str "Error: ", env.gerr.note, str " "], htmlContent (str "Sys error"),
        htmlDivEnd]
  | .nNote =>
      inOrder [htmlDivOpen (str "id") (str "note"), htmlContentM [str "Note: ", env.gerr.note],
        htmlDivEnd]
  | .nAction =>
      inOrder [htmlDivOpen (str "id") (str "note"), htmlContent env.gerr.note, htmlDivEnd]
  | .nNone => id

def stylesheet : Bytes :=
  if conf.qry.csstype = .cssSelect ∨ conf.qry.csstype = .cssCookie then cstr conf.qry.css
  else defaultStylesheet

/-- Administration is for secure connections only. -/
def NeedsSsl : Prop := env.admin ∧ ¬ env.ssl ∧ (conf.auth ∨ 0 < conf.qry.action.number)

instance : Decidable (NeedsSsl env conf) := inferInstanceAs (Decidable (_ ∧ _))

/-- The links for administrators. -/
def headerActions : Html :=
  inOrder [htmlDivOpen (str "class") (str "mactions"), htmlContent (str "("),
    if conf.auth then
      inOrder [onlyIf (conf.qry.action ≠ .qaAdd)
          (htmlAbsQryLink2 env.script (str "add") (str "Add entry")),
        htmlAbsQryLink2 env.script (str "config") (str "Config"),
        htmlAbsQryLink2 env.script (str "logout") (str "Logout")]
    else htmlAbsQryLink2 env.script (str "login") (str "Login"),
    htmlContent (str ")"), htmlDivEnd]

/-- `WANT_SEARCHING`; `conf->path` is an array. -/
def searchBox : Html :=
  inOrder [htmlDivOpen (str "id") (str "sbox"), htmlFormOpen (str "get") env.path none none,
    htmlInput (str "text") (str "qry") none, htmlInput (str "submit") none (str "Search"),
    htmlFormClose, htmlDivEnd]

/-- `print_header_html` up to the body, behind the cookies. -/
def headHtml : Html :=
  inOrder [htmlHttpHeader, htmlPrintPreface, htmlLinkCss (stylesheet conf),
    htmlLinkRss (cstr conf.title) (str "?fmt=rss"),
    onlyIf (env.admin ∧ (conf.qry.action = .qaAdd ∨ conf.qry.action = .qaModify))
      printTinyHtmlEditor,
    onlyIf (NeedsSsl env conf) (htmlMetaRefresh protoHttps env.host (str "3")),
    htmlTitle (cstr conf.title), htmlCloseHeadBody (str "class=\"home blog\">")]

/-- What opens the body. -/
def openBodyHtml : Html :=
  inOrder [htmlDivOpen (str "id") (str "body"), htmlDivOpen (str "id") (str "wrapper"),
    htmlDivOpen (str "id") (str "header"),
    htmlTagOpenClose2 (str "h1") htmlLink env.path (cstr conf.title),
    onlyIf (env.admin ∧ env.ssl) (headerActions env conf),
    htmlDivOpen (str "id") (str "hwidgets"),
    onlyIf (cstr conf.tagline ≠ []) (inOrder [htmlDivOpen (str "id") (str "tagline"),
      htmlContent (cstr conf.tagline), htmlDivEnd]),
    onlyIf (conf.sbox = 121) (searchBox env), htmlDivEnd, htmlDivEnd,
    htmlDivOpen (str "id") (str "wrapper2"),
    htmlDivOpen2 (str "id") (str "content") (str "class") (str "box shadow opacity"), htmlDivInc]

/-- What it returns, and the page. -/
def printHeaderHtml (p : Printer) : Int × Printer :=
  let p := inOrder [headHtml env conf, openBodyHtml env conf] p
  if NeedsSsl env conf then
    (1, inOrder [htmlContent (str "Need ssl connetion"), htmlCloseBody] p)
  else (0, onlyIf env.admin (printNoticeHtml env) p)

/-- The links to other months. -/
def navHtml : Html :=
  let links := printFooterHtml conf.qry.mon.date
  inOrder [htmlDivOpen (str "id") (str "nav"),
    htmlQryParamLink2 (str "mn") links.older (str "older"), htmlContent (str " - "),
    htmlQryParamLink2 (str "mn") links.whole (str "whole month"), htmlContent (str " - "),
    htmlQryParamLink2 (str "mn") links.later (str "later"), htmlDivEnd]

/-- `print_footer_html` with `WANT_MONTH_BROWSING` -/
def footerHtml : Html := inOrder [navHtml conf, htmlDivCloseAll, htmlCloseBody]

/-! ## Pages -/

/-- `print_show` for `S_HTML`: what it returns, and the page. -/
def printShowHtml (res : Result) (p : Printer) : Int × Printer :=
  let (err, p) := printHeaderHtml env conf p
  if err ≠ 0 then (1, p)
  else
    (0, inOrder [inOrder (res.map (dayEntriesHtml env conf)), onlyIf (res = []) printNoentriesHtml,
      footerHtml conf] p)

/-- A page that is refused ends behind its header. -/
theorem printShowHtml_of_refused {env : PageEnv} {conf : Blog} (refused : NeedsSsl env conf)
    (res : Result) (p : Printer) :
    printShowHtml env conf res p =
      (1, htmlCloseBody (htmlContent (str "Need ssl connetion")
        (openBodyHtml env conf (headHtml env conf p)))) := by
  rw [printShowHtml, printHeaderHtml, if_pos refused]
  simp only [ne_eq, one_ne_zero, not_false_eq_true, if_true, inOrder_cons, inOrder_nil]

theorem printShowHtml_of_complete {env : PageEnv} {conf : Blog} (complete : ¬ NeedsSsl env conf)
    (res : Result) (p : Printer) :
    printShowHtml env conf res p =
      (0, footerHtml conf (onlyIf (res = []) printNoentriesHtml
        (inOrder (res.map (dayEntriesHtml env conf)) (onlyIf env.admin (printNoticeHtml env)
          (openBodyHtml env conf (headHtml env conf p)))))) := by
  rw [printShowHtml, printHeaderHtml, if_neg complete]
  simp only [ne_eq, not_true_eq_false, if_false, inOrder_cons, inOrder_nil]

/-! ## The form of an entry -/

/-- `print_mod_entry`, to where the text of the form begins.  What the header returns
is not looked at. -/
def modEntryStart (n : Nentry) (p : Printer) : Printer :=
  let env := { env with gerr := ⟨str "Modify an entry", 0, .nAction⟩ }
  inOrder [htmlDivOpen (str "id") (str "mod"), htmlFormOpen (str "post") env.script none none,
    htmlInput (str "hidden") (str "action") (str "mod"),
    htmlInput (str "hidden") (str "key") (printedKey env.last n),
    htmlTextareaOpen (str "input") (str "input")] (printHeaderHtml env conf p).2

/-- The text, or what stands for it if the entry was not found. -/
def modEntryText (n : Nentry) : Html :=
  if n.e ≠ [] then htmlBulk (cstr n.e) else htmlContent (str "Entry not found")

def modEntryEnd : Html :=
  inOrder [htmlTextareaClose, htmlDivOpen (str "class") (str "abutton"),
    htmlInput (str "submit") none (str "Modify"), htmlDivEnd, htmlFormClose, htmlDivEnd,
    footerHtml conf]

def printModEntry (n : Nentry) : Html :=
  inOrder [modEntryStart env conf n, modEntryText n, modEntryEnd conf]

end

end Bagunceiro
