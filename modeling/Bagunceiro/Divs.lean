/-
# Divs -- what stands open in what is written

The `div` elements of a page are read off its bytes (`divTags`), and `At` says how
many are open in what has been written and how many the counter says are.  A
statement may change neither (`Keeps`); a list of statements is followed by what its
members open, close and count (`Goes`).  Texts may stand in between: what is around
them breaks off a tag that a text begins.
-/
import Bagunceiro.Html5
import Bagunceiro.Lib.Brackets

namespace Bagunceiro

open Brackets

set_option autoImplicit false

/-! ## Tags -/

/-- The tag of a `div` element that a text starts with. -/
def divTagAt (w : Bytes) : Option Bracket :=
  if str "<div" <+: w then some .opening else if str "</div" <+: w then some .closing else none

/-- The tags of a text, the first one first. -/
def divTags (w : Bytes) : List Bracket := marks divTagAt w

/-- A text without them. -/
structure DivFree (w : Bytes) : Prop where
  opening : ¬ str "<div" <:+: w
  closing : ¬ str "</div" <:+: w

instance (w : Bytes) : Decidable (DivFree w) :=
  decidable_of_iff (¬ str "<div" <:+: w ∧ ¬ str "</div" <:+: w)
    ⟨fun both => ⟨both.1, both.2⟩, fun free => ⟨free.opening, free.closing⟩⟩

theorem divTags_eq_nil_iff (w : Bytes) : divTags w = [] ↔ DivFree w := by
  have place (tag : Bytes) (some_ : tag ≠ []) :
      tag <:+: w ↔ ∃ v, v ≠ [] ∧ v <:+ w ∧ tag <+: v := by
    constructor
    · rintro ⟨front, back, rfl⟩
      refine ⟨tag ++ back, by simp [some_], ⟨front, by simp⟩, List.prefix_append ..⟩
    · rintro ⟨v, -, ⟨front, rfl⟩, ⟨back, rfl⟩⟩
      exact ⟨front, back, by simp⟩
  have none_ (v : Bytes) : divTagAt v = none ↔ ¬ str "<div" <+: v ∧ ¬ str "</div" <+: v := by
    rw [divTagAt]
    split_ifs <;> simp_all
  rw [divTags, marks_eq_nil_iff]
  constructor
  · intro all
    constructor
    · rw [place _ (by decide)]
      rintro ⟨v, some_, end_, starts⟩
      exact ((none_ v).1 (all v some_ end_)).1 starts
    · rw [place _ (by decide)]
      rintro ⟨v, some_, end_, starts⟩
      exact ((none_ v).1 (all v some_ end_)).2 starts
  · intro free v some_ end_
    rw [none_]
    constructor
    · intro starts
      exact free.opening ((place _ (by decide)).2 ⟨v, some_, end_, starts⟩)
    · intro starts
      exact free.closing ((place _ (by decide)).2 ⟨v, some_, end_, starts⟩)

/-! ## Scanning -/

/-- What has been seen of a tag. -/
inductive DivState
  | nothing | angle | d | di | slash | slashD | slashDi
  deriving DecidableEq, Repr

def DivState.seen : DivState → Bytes
  | .nothing => []
  | .angle => str "<"
  | .d => str "<d"
  | .di => str "<di"
  | .slash => str "</"
  | .slashD => str "</d"
  | .slashDi => str "</di"

def DivState.next (q : DivState) (c : UInt8) : DivState :=
  if c = 60 then .angle
  else
    match q with
    | .angle => if c = 47 then .slash else if c = 100 then .d else .nothing
    | .d => if c = 105 then .di else .nothing
    | .slash => if c = 100 then .slashD else .nothing
    | .slashD => if c = 105 then .slashDi else .nothing
    | _ => .nothing

def DivState.out (q : DivState) (c : UInt8) : Option Bracket :=
  match q with
  | .di => if c = 118 then some .opening else none
  | .slashDi => if c = 118 then some .closing else none
  | _ => none

def divScanner : Scanner UInt8 Bracket DivState where
  start := .nothing
  next := .next
  out := DivState.out

theorem divScanner_follows : divScanner.Follows divTagAt DivState.seen where
  start := rfl
  ends q := by cases q <;> decide
  step q c w := by
    have other (c : UInt8) (w : Bytes) (plain : c ≠ 60) :
        marks divTagAt (c :: w) = marks divTagAt w := by
      have none_ : divTagAt (c :: w) = none := by
        simp [divTagAt, str, plain.symm]
      rw [marks, none_]
      rfl
    show marks divTagAt (q.seen ++ c :: w) =
      (q.out c).toList ++ marks divTagAt ((q.next c).seen ++ w)
    by_cases angle : c = 60
    · subst angle
      cases q <;> simp [DivState.seen, DivState.next, DivState.out, str, marks, divTagAt]
    · -- either the tag goes on, or nothing of it was one
      cases q with
      | nothing =>
          simp only [DivState.next, angle, if_false]
          exact other c w angle
      | _ =>
          simp only [DivState.seen, DivState.next, DivState.out, angle, if_false]
          split_ifs <;> (simp_all [str, marks, divTagAt]; try grind)

/-! ## Pieces of a page -/

/-- The tags of a piece that no tag begins in front of and none ends behind. -/
structure Tagged (w : Bytes) (ts : List Bracket) : Prop where
  tags : divScanner.scan .nothing w = ts
  ends : divScanner.behind .nothing w = .nothing

instance (w : Bytes) (ts : List Bracket) : Decidable (Tagged w ts) :=
  decidable_of_iff (divScanner.scan .nothing w = ts ∧ divScanner.behind .nothing w = .nothing)
    ⟨fun both => ⟨both.1, both.2⟩, fun tagged => ⟨tagged.tags, tagged.ends⟩⟩

/-- A piece that does not go on with a tag. -/
def Breaks (w : Bytes) : Prop := w.head?.any (· ∉ str "/div") = true

instance (w : Bytes) : Decidable (Breaks w) := inferInstanceAs (Decidable (_ = _))

theorem scan_of_breaks {w : Bytes} (breaks : Breaks w) (q : DivState) :
    divScanner.scan q w = divScanner.scan .nothing w ∧
      divScanner.behind q w = divScanner.behind .nothing w := by
  cases w with
  | nil => cases breaks
  | cons c w =>
      have apart : c ≠ 47 ∧ c ≠ 100 ∧ c ≠ 105 ∧ c ≠ 118 := by
        simpa [Breaks, str] using breaks
      have next : q.next c = DivState.nothing.next c := by
        cases q <;> simp [DivState.next, apart]
      have out : q.out c = DivState.nothing.out c := by
        cases q <;> simp [DivState.out, apart]
      constructor
      · show (q.out c).toList ++ divScanner.scan (q.next c) w = _
        rw [next, out]
        rfl
      · show divScanner.behind (q.next c) w = _
        rw [next]
        rfl

theorem scan_eq_divTags (w : Bytes) : divScanner.scan .nothing w = divTags w :=
  divScanner_follows.scan_eq w

namespace Tagged

variable {v w : Bytes} {ts us : List Bracket}

theorem append (first : Tagged v ts) (second_ : Tagged w us) : Tagged (v ++ w) (ts ++ us) where
  tags := by
    rw [Scanner.scan_append, first.tags, first.ends, second_.tags]
  ends := by
    rw [Scanner.behind_append, first.ends, second_.ends]

/-- Any text may stand between two pieces. -/
theorem around (first : Tagged v ts) (text : Bytes) (second_ : Tagged w us) (breaks : Breaks w) :
    Tagged (v ++ text ++ w) (ts ++ divTags text ++ us) where
  tags := by
    rw [Scanner.scan_append, Scanner.scan_append, first.tags, first.ends,
      (scan_of_breaks breaks _).1, second_.tags, scan_eq_divTags]
  ends := by
    rw [Scanner.behind_append, (scan_of_breaks breaks _).2, second_.ends]

theorem around_free (first : Tagged v ts) {text : Bytes} (free : DivFree text)
    (second_ : Tagged w us) (breaks : Breaks w) : Tagged (v ++ text ++ w) (ts ++ us) := by
  have whole := first.around text second_ breaks
  rw [(divTags_eq_nil_iff text).2 free, List.append_nil] at whole
  exact whole

/-- Markup around a text without tags. -/
theorem fill (first : Tagged v []) {text : Bytes} (free : DivFree text) (second_ : Tagged w [])
    (breaks : Breaks w) : Tagged (v ++ (text ++ w)) [] := by
  have whole := first.around_free free second_ breaks
  rw [List.append_assoc] at whole
  exact whole

end Tagged

theorem Breaks.append {v : Bytes} (breaks : Breaks v) (w : Bytes) : Breaks (v ++ w) := by
  cases v with
  | nil => cases breaks
  | cons c v => exact breaks

theorem divTags_append (v : Bytes) {w : Bytes} (breaks : Breaks w) :
    divTags (v ++ w) = divTags v ++ divTags w := by
  rw [← scan_eq_divTags, Scanner.scan_append, (scan_of_breaks breaks _).1, scan_eq_divTags,
    scan_eq_divTags]

theorem tagged_flatten {ws : List Bytes} (all : ∀ w ∈ ws, Tagged w []) : Tagged ws.flatten [] := by
  induction ws with
  | nil => exact ⟨rfl, rfl⟩
  | cons w ws ih =>
      have rest := ih fun v member => all v (List.mem_cons_of_mem _ member)
      exact (all w List.mem_cons_self).append rest

theorem tagged_blanks (n : Nat) : Tagged (List.replicate n 32) [] := by
  induction n with
  | zero => decide
  | succ n ih =>
      have blank : Tagged [32] [] := by decide
      exact blank.append ih

/-- What a tag may not be put together with: blanks, and a line that begins with a tag. -/
theorem breaks_blanks (n : Nat) {w : Bytes} (breaks : Breaks w) :
    Breaks (List.replicate n 32 ++ w) := by
  cases n with
  | zero => exact breaks
  | succ n => rfl

/-! ## What stands open -/

/-- How many are open, and what the counter says. -/
structure At (r : Option Nat) (s : Int) (p : Printer) : Prop where
  ends : divScanner.behind .nothing p.out = .nothing
  opened : depth (some 0) (divTags p.out) = r
  counted : p.divstack = s

/-- Nothing is opened or closed for good, and nothing is counted. -/
structure Keeps (f : Html) : Prop where
  run : ∀ {r : Option Nat} {s : Int} {p : Printer}, At r s p → At r s (f p)

section

variable {r : Option Nat} {s : Int} {p : Printer} {w : Bytes} {ts : List Bracket}

theorem At.write (here : At r s p) (tagged : Tagged w ts) {q : Printer} (out : q.out = p.out ++ w)
    (divstack : q.divstack = p.divstack) : At (depth r ts) s q where
  ends := by rw [out, Scanner.behind_append, here.ends, tagged.ends]
  opened := by
    rw [out, ← scan_eq_divTags, Scanner.scan_append, depth_append, scan_eq_divTags, here.opened,
      here.ends, tagged.tags]
  counted := divstack.trans here.counted

/-- A line of the page: blanks, a text and the end of the line. -/
def Line (f : Bytes → Html) : Prop :=
  ∀ (s : Bytes) (p : Printer), ∃ n : Nat, (f s p).out = p.out ++ (List.replicate n 32 ++ s ++ [10]) ∧
    (f s p).divstack = p.divstack

theorem line_conprint : Line conprint := fun s p =>
  ⟨2 * (p.indent + 1).toNat, by simp [conprint, inOrder, incIndent, decIndent, indentHere,
    indentSpace, sprint, str], rfl⟩

theorem line_oprint : Line oprint := fun s p =>
  ⟨2 * (p.indent + 1).toNat, by simp [oprint, inOrder, incIndent, indentHere, indentSpace, sprint,
    str], rfl⟩

theorem line_cprint : Line cprint := fun s p =>
  ⟨2 * p.indent.toNat, by simp [cprint, inOrder, decIndent, indentHere, indentSpace, sprint, str],
    rfl⟩

theorem Line.tagged {f : Bytes → Html} (line : Line f) (tagged : Tagged w ts) (here : At r s p) :
    At (depth r ts) s (f w p) := by
  obtain ⟨n, out, divstack⟩ := line w p
  have newline : Tagged [10] [] := by decide
  have whole := (tagged_blanks n).append (tagged.append newline)
  rw [List.nil_append, List.append_nil, ← List.append_assoc] at whole
  exact here.write whole out divstack

/-- Any text may be a line. -/
theorem Line.text {f : Bytes → Html} (line : Line f) (t : Bytes) (here : At r s p) :
    At (depth r (divTags t)) s (f t p) := by
  obtain ⟨n, out, divstack⟩ := line t p
  have newline : Tagged [10] [] := by decide
  have whole := (tagged_blanks n).around t newline (by decide)
  rw [List.nil_append, List.append_nil] at whole
  exact here.write whole out divstack

/-- A line with an opening tag, counted. -/
theorem At.opens (here : At r s p) (tagged : Tagged w [.opening]) :
    At (r.map (· + 1)) (s + 1) (inOrder [oprint w, htmlDivInc] p) := by
  have written := line_oprint.tagged tagged here
  refine ⟨written.ends, written.opened.trans ?_, ?_⟩
  · cases r <;> rfl
  · show (oprint w p).divstack + 1 = _
    rw [written.counted]

theorem At.closes (here : At r s p) : At (step r .closing) (s - 1) (htmlDivEnd p) := by
  have tagged : Tagged (str "</div>") [.closing] := by decide
  have written := line_cprint.tagged tagged here
  refine ⟨written.ends, written.opened, ?_⟩
  show (cprint (str "</div>") p).divstack - 1 = _
  rw [written.counted]

/-- The end of an element breaks off what a text in front of it begins. -/
theorem At.closes_behind {v : Bytes} {q : Printer} (here : At r s p) (front : Tagged v [])
    (text : Bytes) (out : q.out = p.out ++ (v ++ text)) (divstack : q.divstack = p.divstack) :
    At (step (depth r (divTags text)) .closing) (s - 1) (htmlDivEnd q) := by
  obtain ⟨n, line, counted⟩ := line_cprint (str "</div>") q
  have tag : Tagged (str "</div>" ++ [10]) [.closing] := by decide
  have whole := front.around text ((tagged_blanks n).append tag) (breaks_blanks n (by decide))
  have written : (cprint (str "</div>") q).out =
      p.out ++ (v ++ text ++ (List.replicate n 32 ++ (str "</div>" ++ [10]))) := by
    rw [line, out]
    simp only [List.append_assoc]
  have closed := here.write whole written (counted.trans divstack)
  rw [List.nil_append, List.nil_append, depth_append] at closed
  refine ⟨closed.ends, closed.opened, ?_⟩
  show (cprint (str "</div>") q).divstack - 1 = _
  rw [closed.counted]

end

/-! ## Lists of statements -/

/-- From `n` open and `n + c` counted to `m` open and `m + e` counted. -/
structure Goes (fs : List Html) (n c m e : Nat) : Prop where
  run : ∀ {r : Option Nat} {s : Int} {p : Printer}, At (r.map (· + n)) (s + (n + c : Nat)) p →
    At (r.map (· + m)) (s + (m + e : Nat)) (inOrder fs p)

section

variable {f : Html} {fs : List Html} {n c m e : Nat}

theorem Goes.done : Goes [] n c n c := ⟨fun here => here⟩

theorem Goes.keep (keeps : Keeps f) (rest : Goes fs n c m e) : Goes (f :: fs) n c m e :=
  ⟨fun here => rest.run (keeps.run here)⟩

theorem Goes.keeps (goes : Goes fs 0 0 0 0) : Keeps (inOrder fs) := by
  constructor
  intro r s p here
  have zero : r.map (· + 0) = r := by cases r <;> rfl
  have count : s + ((0 + 0 : Nat) : Int) = s := by omega
  have whole := @goes.run r s p
  rw [zero, count] at whole
  exact whole here

theorem Goes.inc (rest : Goes fs n (c + 1) m e) : Goes (htmlDivInc :: fs) n c m e := by
  constructor
  intro r s p here
  apply rest.run
  refine ⟨here.ends, here.opened, ?_⟩
  show p.divstack + 1 = _
  rw [here.counted]
  omega

theorem Goes.opens {tag : Bytes} (tagged : Tagged tag [.opening]) (rest : Goes fs (n + 1) c m e) :
    Goes (inOrder [oprint tag, htmlDivInc] :: fs) n c m e := by
  constructor
  intro r s p here
  have opened := here.opens tagged
  have more : (r.map (· + n)).map (· + 1) = r.map (· + (n + 1)) := by cases r <;> rfl
  have counted : s + ((n + c : Nat) : Int) + 1 = s + ((n + 1 + c : Nat) : Int) := by omega
  rw [more, counted] at opened
  exact rest.run opened

theorem Goes.closes (rest : Goes fs n c m e) : Goes (htmlDivEnd :: fs) (n + 1) c m e := by
  constructor
  intro r s p here
  have closed := here.closes
  have fewer : step (r.map (· + (n + 1))) .closing = r.map (· + n) := by cases r <;> rfl
  have counted : s + ((n + 1 + c : Nat) : Int) - 1 = s + ((n + c : Nat) : Int) := by omega
  rw [fewer, counted] at closed
  exact rest.run closed

end

/-! ## Statements that keep what is open -/

section

variable {f : Html} {w t href : Bytes}

theorem keeps_sprint (tagged : Tagged w []) : Keeps (sprint w) :=
  ⟨fun here => here.write tagged rfl rfl⟩

theorem keeps_indentHere : Keeps indentHere :=
  ⟨fun here => here.write (tagged_blanks _) rfl rfl⟩

theorem keeps_incIndent : Keeps incIndent := ⟨fun here => ⟨here.ends, here.opened, here.counted⟩⟩

theorem keeps_decIndent : Keeps decIndent := ⟨fun here => ⟨here.ends, here.opened, here.counted⟩⟩

theorem keeps_onlyIf {c : Prop} [Decidable c] (keeps : c → Keeps f) : Keeps (onlyIf c f) := by
  constructor
  intro r s p here
  rw [onlyIf]
  split
  · rename_i holds
    exact (keeps holds).run here
  · exact here

theorem keeps_each {α : Type} {g : α → Html} {xs : List α} (keeps : ∀ x ∈ xs, Keeps (g x)) :
    Keeps (inOrder (xs.map g)) := by
  induction xs with
  | nil => exact ⟨fun here => here⟩
  | cons x xs ih =>
      constructor
      intro r s p here
      have first := (keeps x List.mem_cons_self).run here
      exact (ih fun y member => keeps y (List.mem_cons_of_mem _ member)).run first

theorem keeps_oprint (tagged : Tagged w []) : Keeps (oprint w) := ⟨line_oprint.tagged tagged⟩

theorem keeps_cprint (tagged : Tagged w []) : Keeps (cprint w) := ⟨line_cprint.tagged tagged⟩

theorem keeps_htmlContent (free : DivFree t) : Keeps (htmlContent t) := by
  constructor
  intro r s p here
  have written := line_conprint.text t here
  rw [(divTags_eq_nil_iff t).2 free] at written
  exact written

theorem keeps_htmlTagOpen {tag : Bytes} (opening : Tagged [str "<", tag, str ">"].flatten []) :
    Keeps (htmlTagOpen tag) :=
  (Goes.keep (keeps_oprint opening) <| .keep (keeps_sprint (by decide)) .done).keeps

theorem keeps_htmlTagOpenClose {tag : Bytes} {g : Bytes → Html}
    (opening : Tagged [str "<", tag, str ">"].flatten [])
    (closing : Tagged [str "</", tag, str ">"].flatten []) (keeps : Keeps (g t)) :
    Keeps (htmlTagOpenClose tag g t) := by
  exact (Goes.keep (keeps_htmlTagOpen opening) <| .keep keeps <|
    .keep (keeps_cprint closing) .done).keeps

theorem tagged_a : Tagged (str "</a>") [] := by decide

theorem keeps_htmlLinkTo {hrefs : List Bytes} (free : DivFree hrefs.flatten) (freeText : DivFree t) :
    Keeps (htmlLinkTo hrefs t) := by
  have link : Tagged (str "<a href=\"") [] := by decide
  have end_ : Tagged (str "\">") [] := by decide
  have opening : Tagged ([str "<a href=\""] ++ hrefs ++ [str "\">"]).flatten [] := by
    have whole := link.fill free end_ (by decide)
    simpa using whole
  exact (Goes.keep (keeps_oprint opening) <| .keep (keeps_htmlContent freeText) <|
    .keep (keeps_cprint tagged_a) .done).keeps

theorem keeps_htmlSpanOpen {type name : Bytes}
    (tagged : Tagged [str "<span ", type, str "=\"", name, str "\">"].flatten []) :
    Keeps (htmlSpanOpen type name) := keeps_oprint tagged

theorem keeps_htmlSpanEnd : Keeps htmlSpanEnd := keeps_cprint (by decide)

theorem keeps_htmlTitle (free : DivFree t) : Keeps (htmlTitle t) := by
  have opening : Tagged (str "<title>") [] := by decide
  have closing : Tagged (str "</title>") [] := by decide
  exact (Goes.keep (keeps_oprint opening) <| .keep (keeps_htmlContent free) <|
    .keep (keeps_cprint closing) .done).keeps

end

end Bagunceiro
