/-
# Html5 -- the writers of a page (`z_html5.c`)

A page is written to a buffer by functions that count, in two static variables, how
far it is indented and how many `div` elements are open.  Both are part of the
state here (`Printer`); a writer takes the state it finds to the one it leaves.

The macros and functions print C strings: a text is what stands in front of its
terminator.
-/
import Bagunceiro.Libowfat.Bytes

namespace Bagunceiro

set_option autoImplicit false

/-! ## The state of the printer -/

/-- The static variables, and what has been written. -/
structure Printer where
  divstack : Int
  indent : Int
  out : Bytes
  deriving DecidableEq, Repr

abbrev Html := Printer → Printer

/-- One statement after the other. -/
def inOrder (fs : List Html) : Html := fun p => fs.foldl (fun p f => f p) p

theorem inOrder_nil (p : Printer) : inOrder [] p = p := rfl

theorem inOrder_cons (f : Html) (fs : List Html) (p : Printer) :
    inOrder (f :: fs) p = inOrder fs (f p) := rfl

/-- A statement under a condition. -/
def onlyIf (c : Prop) [Decidable c] (f : Html) : Html := fun p => if c then f p else p

def sprint (s : Bytes) : Html := fun p => { p with out := p.out ++ s }

/-- None of its arguments is null. -/
def sprintm (ss : List Bytes) : Html := sprint ss.flatten

def indentSpace (i : Int) : Html := sprint (List.replicate (2 * i.toNat) 32)

def incIndent : Html := fun p => { p with indent := p.indent + 1 }
def decIndent : Html := fun p => { p with indent := p.indent - 1 }

/-- `indent_space(indent)` -/
def indentHere : Html := fun p => indentSpace p.indent p

def conprint (s : Bytes) : Html :=
  inOrder [incIndent, indentHere, sprint s, decIndent, sprint (str "\n")]

def oprint (s : Bytes) : Html := inOrder [incIndent, indentHere, sprint s, sprint (str "\n")]

def oprintm (ss : List Bytes) : Html := oprint ss.flatten

def cprint (s : Bytes) : Html := inOrder [indentHere, sprint s, decIndent, sprint (str "\n")]

def cprintm (ss : List Bytes) : Html := cprint ss.flatten

/-! ## Elements -/

def htmlBulk (s : Bytes) : Html := sprint s

def htmlContent (c : Bytes) : Html := conprint c

/-- `html_content_m`.  It writes to `buffer_1` in every build, which is where the page
goes in a CGI program; under FastCGI the page goes elsewhere, and the text is not in it. -/
def htmlContentM (cs : List Bytes) : Html := sprintm cs

def htmlDivInc : Html := fun p => { p with divstack := p.divstack + 1 }

/-- `divstack--` -/
def htmlDivDec : Html := fun p => { p with divstack := p.divstack - 1 }

def htmlDivOpen (type name : Option Bytes) : Html :=
  match type, name with
  | some type, some name =>
      inOrder [oprintm [str "<div ", type, str "=\"", name, str "\">"], htmlDivInc]
  | _, _ => inOrder [oprint (str "<div>"), htmlDivInc]

def htmlDivOpen2 (type name : Option Bytes) (type2 name2 : Bytes) : Html :=
  match type, name with
  | some type, some name =>
      inOrder [oprintm [str "<div ", type, str "=\"", name, str "\" ", type2, str "=\"", name2,
        str "\">"], htmlDivInc]
  | _, _ => inOrder [oprint (str "<div>"), htmlDivInc]

def htmlDivEnd : Html := inOrder [cprint (str "</div>"), htmlDivDec]

/-- The rounds of `while (divstack-- > 0)`. -/
def closeDivs : Nat → Html
  | 0 => htmlDivDec
  | rounds + 1 => inOrder [htmlDivDec, cprint (str "</div>"), closeDivs rounds]

def htmlDivCloseAll : Html := fun p => closeDivs p.divstack.toNat p

def htmlSpanOpen (type name : Bytes) : Html :=
  oprintm [str "<span ", type, str "=\"", name, str "\">"]

def htmlSpanEnd : Html := cprint (str "</span>")

/-- The page begins behind the header. -/
def htmlHttpHeader : Html := fun _ => { divstack := 0, indent := 0, out := [] }

def htmlPrintPreface : Html :=
  sprintm [str "<!doctype html>\n",
    str "<meta http-equiv=\"Content-type\" content=\"text/html;charset=UTF-8\" />\n",
    str "<html>\n<head>\n"]

def htmlLinkRss (t h : Bytes) : Html :=
  sprintm [str "<link rel=\"alternate\" type=\"application/rss+xml\" title=\"", t,
    str " in rss\" href=\"", h, str "\">\n"]

def htmlLinkCss (s : Bytes) : Html :=
  inOrder [sprintm [str "<link rel=stylesheet type=\"text/css\" href=\""],
    onlyIf (s.head? ≠ some 47) (sprint (str "/")), sprintm [s, str "\" >\n"]]

def htmlJavaScript (s : Bytes) : Html :=
  sprintm [str "<script type=\"text/javascript\" src=\"", s, str "\"></script>\n\n"]

def htmlMetaRefresh (p url t : Bytes) : Html :=
  sprintm [str "<META HTTP-EQUIV=\"Refresh\"", str "CONTENT=\"", t, str "; URL=", p, url,
    str "\">"]

def htmlTitle (t : Bytes) : Html :=
  inOrder [oprint (str "<title>"), htmlContent t, cprint (str "</title>")]

def htmlCloseHeadBody (b : Bytes) : Html := sprintm [str "</head>\n\n<body ", b, str "\n"]

def htmlCloseBody : Html := sprint (str "</body>\n</html>\n")

def htmlTagOpen (t : Bytes) : Html := inOrder [oprintm [str "<", t, str ">"], sprint []]

def htmlTagClose (t : Bytes) : Html := cprintm [str "</", t, str ">"]

def htmlTagOpenClose (t : Bytes) (f : Bytes → Html) (v : Bytes) : Html :=
  inOrder [htmlTagOpen t, f v, htmlTagClose t]

def htmlTagOpenClose2 (t : Bytes) (f : Bytes → Bytes → Html) (v1 v2 : Bytes) : Html :=
  inOrder [htmlTagOpen t, f v1 v2, htmlTagClose t]

/-- The four kinds of links differ in what is put together for `href`. -/
def htmlLinkTo (href : List Bytes) (t : Bytes) : Html :=
  inOrder [oprintm ([str "<a href=\""] ++ href ++ [str "\">"]), htmlContent t, cprint (str "</a>")]

def htmlLink (l t : Bytes) : Html := htmlLinkTo [l] t

def htmlAbsQryLink2 (l1 l2 t : Bytes) : Html := htmlLinkTo [l1, str "?", l2] t

def htmlQryParamLink2 (l1 l2 t : Bytes) : Html := htmlLinkTo [str "?", l1, str "=", l2] t

/-! ## Forms -/

def htmlInput (type : Bytes) (name value : Option Bytes) : Html :=
  inOrder [incIndent, indentHere, sprintm [str "<input type=\"", type, str "\" "],
    sprintm (name.elim [] fun name => [str "name=\"", name, str "\" "]),
    sprintm (value.elim [] fun value => [str "value=\"", value, str "\" "]),
    sprint (str ">\n"), decIndent]

def htmlTextareaOpen (name id : Bytes) : Html :=
  inOrder [incIndent, indentHere,
    sprintm [str "<textarea name=\"", name, str "\" id=\"", id, str "\" >"]]

def htmlTextareaClose : Html := inOrder [sprint (str "</textarea>\n"), decIndent]

def htmlFormOpen (m a : Bytes) (enc os : Option Bytes) : Html :=
  inOrder [incIndent, indentHere, sprintm [str "<form method=\"", m, str "\" action=\"", a, str "\""],
    sprintm (enc.elim [] fun enc => [str " enctype=\"", enc, str "\""]),
    sprintm (os.elim [] fun os => [str " onsubmit=\"", os, str "\""]),
    sprint (str " >\n"), decIndent]

def htmlFormClose : Html := cprint (str "</form>")

end Bagunceiro
