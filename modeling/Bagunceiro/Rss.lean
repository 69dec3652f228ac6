/-
# Rss -- the feed (`z_fmtrss.c`, `z_rss.c`, `html_remove_tags`)

A feed puts text into markup.  The blog's title goes into elements as it is; the
text of an entry loses its tags and entities first (`removeTags`) and then goes
into an element and into a CDATA section.  What `removeTags` leaves has neither `<`
nor `&`, but it is the text between tags that may end a CDATA section, and nothing
looks at the title (`feed_well_formed_iff`).
-/
import Bagunceiro.Fetch
import Bagunceiro.Links

namespace Bagunceiro

set_option autoImplicit false

/-! ## What is printed -/

/-- Inserted text and where it goes; the rest is the markup around it. -/
inductive Piece
  | markup (s : Bytes)
  | content (s : Bytes)
  | link (s : Bytes)
  | cdata (s : Bytes)
  deriving DecidableEq, Repr

/-- `html_remove_tags`: the text without tags and entities, and how many blanks go
to the output on the way. -/
def removeTags : Nat → Bool → Bool → Bytes → Bytes × Nat
  | _, _, _, [] => ([], 0)
  | tagopen, andopen, ws, c :: s =>
      if c = 60 then removeTags (tagopen + 1) andopen ws s
      else if c = 62 ∧ tagopen ≠ 0 then removeTags 0 andopen ws s
      else if c = 38 then removeTags tagopen true ws s
      else if c = 59 ∧ andopen then removeTags tagopen false ws s
      else if tagopen = 0 ∧ ¬ andopen then
        if c = 10 ∨ c = 13 ∨ c = 32 then
          if ws then removeTags tagopen andopen ws s
          else
            let (fmt, blanks) := removeTags tagopen andopen true s
            (32 :: fmt, blanks + 1)
        else
          let (fmt, blanks) := removeTags tagopen andopen false s
          (c :: fmt, blanks)
      else removeTags tagopen andopen ws s

def htmlRemoveTags (s : Bytes) : Bytes × Nat := removeTags 0 false false s

def rssPrintPreface (t p l g : Bytes) : List Piece :=
  [.markup (str "<?xml version=\"1.0\" encoding=\"UTF-8\" ?>\n<rss version=\"2.0\">\n<channel>\n"),
    .markup (str "<title>"), .content t, .markup (str "</title>\n<link>"), .link (p ++ l),
    .markup (str "</link>\n<description>"), .content t,
    .markup (str ("</description>\n<docs>http://blogs.law.harvard.edu/tech/rss</docs>\n" ++
      "<generator>")), .markup g, .markup (str "</generator>\n\n")]

def rssCloseRss : List Piece := [.markup (str "\n</channel></rss>")]

def rssItem (c l w : Bytes) : List Piece :=
  [.markup (str "<item>\n<title>"), .content c, .markup (str "</title>\n<link>"), .link l,
    .markup (str "</link>\n<description><![CDATA["), .cdata c,
    .markup (str "]]></description>\n")] ++
  (if w ≠ [] then
    [.markup (str "<pubDate>"), .markup w, .markup (str "</pubDate>\n")] else []) ++
  [.markup (str "<guid>"), .link l, .markup (str "</guid>\n</item>\n\n")]

/-- `PROTO_HTTP` -/
def protoHttp : Bytes := str "http://"
/-- `PROGRAM_NAME` -/
def programName : Bytes := str "bagunceiro"
/-- `FMT_PERMA_STATIC` -/
def fmtPermaStatic : Nat := 1 + fmtTaiaHex + 4 + 7

/-- `fmt_perma_link`, into an empty buffer. -/
def fmtPermaLink (host : Bytes) (last : UInt8) (e : Nentry) : Bytes :=
  if 256 - fmtPermaStatic ≤ host.length then []
  else protoHttp ++ host ++ str "?ts=" ++ printedKey last e

section Feed

-- `conf->host`, and the byte `reduce_ts` does not set
variable (host : Bytes) (last : UInt8)

def printHeaderRss (conf : Blog) : List Piece :=
  rssPrintPreface (cstr conf.title) protoHttp host programName

/-- One round of `day_entries_rss`. -/
def entryRss (e : Nentry) : List Piece :=
  let (cnt, blanks) := htmlRemoveTags (cstr e.e)
  .markup (List.replicate blanks 32) :: rssItem cnt (fmtPermaLink host last e) []

def dayEntriesRss (de : Day) : List Piece := de.es.flatMap (entryRss host last)

/-- `print_show` for `S_RSS`, behind the HTTP header. -/
def printShowRss (res : Result) (conf : Blog) : List Piece :=
  printHeaderRss host conf ++ res.flatMap (dayEntriesRss host last) ++ rssCloseRss

end Feed

/-! ## What is outside of tags -/

/-- Of the text read so far, an opening character has not been closed. -/
def StillOpen (opening closing : UInt8) (before : Bytes) : Prop :=
  opening ∈ before.reverse.takeWhile (· ≠ closing)

instance (opening closing : UInt8) (before : Bytes) : Decidable (StillOpen opening closing before) :=
  inferInstanceAs (Decidable (_ ∈ _))

/-- A character that belongs to no tag and to no entity. -/
def Visible (before : Bytes) (c : UInt8) : Prop :=
  c ≠ 60 ∧ c ≠ 38 ∧ ¬ StillOpen 60 62 before ∧ ¬ StillOpen 38 59 before

instance (before : Bytes) (c : UInt8) : Decidable (Visible before c) :=
  inferInstanceAs (Decidable (_ ∧ _))

/-- The characters of a text that are visible behind what comes before it. -/
def outside : Bytes → Bytes → Bytes
  | _, [] => []
  | before, c :: s =>
      if Visible before c then c :: outside (before ++ [c]) s else outside (before ++ [c]) s

/-- The text of an entry outside of tags and entities. -/
def visibleText (e : Nentry) : Bytes := outside [] (cstr e.e)

theorem stillOpen_concat {opening closing : UInt8} (before : Bytes) (c : UInt8) :
    StillOpen opening closing (before ++ [c]) ↔
      c ≠ closing ∧ (opening = c ∨ StillOpen opening closing before) := by
  unfold StillOpen
  rw [List.reverse_append, List.reverse_singleton, List.singleton_append, List.takeWhile_cons]
  by_cases closes : c = closing
  · simp [closes]
  · simp [closes]

theorem visible_of_mem_outside {before s : Bytes} {c : UInt8} (member : c ∈ outside before s) :
    c ≠ 60 ∧ c ≠ 38 := by
  induction s generalizing before with
  | nil => cases member
  | cons d s ih =>
      unfold outside at member
      split at member
      · rename_i visible
        rcases List.mem_cons.1 member with rfl | later
        · exact ⟨visible.1, visible.2.1⟩
        · exact ih later
      · exact ih member

/-! ## Blanks -/

def IsBlank (c : UInt8) : Prop := c = 10 ∨ c = 13 ∨ c = 32

instance (c : UInt8) : Decidable (IsBlank c) := inferInstanceAs (Decidable (_ ∨ _))

/-- Blanks in a row become one. -/
def squeeze : Bool → Bytes → Bytes
  | _, [] => []
  | ws, c :: s =>
      if IsBlank c then (if ws then squeeze true s else 32 :: squeeze true s)
      else c :: squeeze false s

theorem squeeze_blank {c : UInt8} (blank : IsBlank c) (ws : Bool) (s : Bytes) :
    squeeze ws (c :: s) = if ws then squeeze true s else 32 :: squeeze true s := if_pos blank

theorem squeeze_plain {c : UInt8} (plain : ¬ IsBlank c) (ws : Bool) (s : Bytes) :
    squeeze ws (c :: s) = c :: squeeze false s := if_neg plain

theorem mem_squeeze {ws : Bool} {s : Bytes} {c : UInt8} (member : c ∈ squeeze ws s) :
    c = 32 ∨ c ∈ s := by
  induction s generalizing ws with
  | nil => cases member
  | cons d s ih =>
      rw [squeeze] at member
      split_ifs at member
      · exact (ih member).imp_right (List.mem_cons_of_mem d)
      · rcases List.mem_cons.1 member with same | later
        · exact .inl same
        · exact (ih later).imp_right (List.mem_cons_of_mem d)
      · rcases List.mem_cons.1 member with rfl | later
        · exact .inr List.mem_cons_self
        · exact (ih later).imp_right (List.mem_cons_of_mem d)

/-- Text without blanks is found in the same places. -/
theorem squeeze_prefix {w : Bytes} (plain : ∀ c ∈ w, ¬ IsBlank c) (s : Bytes) :
    w <+: squeeze false s ↔ w <+: s := by
  induction w generalizing s with
  | nil => simp
  | cons x w ih =>
      have first := plain x List.mem_cons_self
      cases s with
      | nil => rfl
      | cons c s =>
          rw [squeeze]
          by_cases blank : IsBlank c
          · have ne : x ≠ c := fun same => first (same ▸ blank)
            have ne' : x ≠ 32 := fun same => first (same ▸ .inr (.inr rfl))
            simp [blank, List.cons_prefix_cons, ne, ne']
          · rw [if_neg blank, List.cons_prefix_cons, List.cons_prefix_cons,
              ih fun d member => plain d (List.mem_cons_of_mem x member)]

theorem squeeze_infix {x : UInt8} {w : Bytes} (plain : ∀ c ∈ x :: w, ¬ IsBlank c) (ws : Bool)
    (s : Bytes) : x :: w <:+: squeeze ws s ↔ x :: w <:+: s := by
  have first := plain x List.mem_cons_self
  have notBlank {c : UInt8} (blank : IsBlank c) (s : Bytes) : x :: w <:+: c :: s ↔ x :: w <:+: s := by
    have ne : x ≠ c := fun same => first (same ▸ blank)
    simp [List.infix_cons_iff, List.cons_prefix_cons, ne]
  induction s generalizing ws with
  | nil => exact Iff.rfl
  | cons c s ih =>
      by_cases blank : IsBlank c
      · rw [squeeze_blank blank, notBlank blank]
        cases ws with
        | true => exact ih true
        | false => exact (notBlank (.inr (.inr rfl)) _).trans (ih true)
      · have tail := squeeze_prefix (fun d member => plain d (List.mem_cons_of_mem x member)) s
        rw [squeeze_plain blank, List.infix_cons_iff, List.infix_cons_iff, List.cons_prefix_cons,
          List.cons_prefix_cons, tail]
        exact or_congr Iff.rfl (ih false)

/-! ## The stripped text -/

/-- A character that neither opens nor closes. -/
theorem stillOpen_stays {open_ : Prop} {opening closing c : UInt8} {before : Bytes}
    (flag : open_ ↔ StillOpen opening closing before) (notOpening : c ≠ opening)
    (notClosing : ¬ (c = closing ∧ open_)) : open_ ↔ StillOpen opening closing (before ++ [c]) := by
  rw [stillOpen_concat, ← flag]
  constructor
  · exact fun holds => ⟨fun same => notClosing ⟨same, holds⟩, .inr holds⟩
  · rintro ⟨-, same | holds⟩
    · exact absurd same.symm notOpening
    · exact holds

theorem outside_visible {before : Bytes} {c : UInt8} (visible : Visible before c) (s : Bytes) :
    outside before (c :: s) = c :: outside (before ++ [c]) s := if_pos visible

theorem outside_hidden {before : Bytes} {c : UInt8} (hidden : ¬ Visible before c) (s : Bytes) :
    outside before (c :: s) = outside (before ++ [c]) s := if_neg hidden

/-- **What is left is what is outside of tags and entities**, with blanks squeezed. -/
theorem removeTags_fst {tagopen : Nat} {andopen ws : Bool} {before : Bytes}
    (tag : tagopen ≠ 0 ↔ StillOpen 60 62 before) (entity : andopen = true ↔ StillOpen 38 59 before)
    (s : Bytes) : (removeTags tagopen andopen ws s).1 = squeeze ws (outside before s) := by
  induction s generalizing tagopen andopen ws before with
  | nil => rfl
  | cons c s ih =>
      have opens (opening closing : UInt8) (ne : opening ≠ closing) :
          StillOpen opening closing (before ++ [opening]) :=
        (stillOpen_concat before opening).2 ⟨ne, .inl rfl⟩
      have closes (opening closing : UInt8) : ¬ StillOpen opening closing (before ++ [closing]) :=
        fun open_ => ((stillOpen_concat before closing).1 open_).1 rfl
      rw [removeTags]
      by_cases lt : c = 60
      · subst lt
        rw [if_pos rfl, outside_hidden fun visible => visible.1 rfl]
        exact ih (iff_of_true (Nat.succ_ne_zero _) (opens 60 62 (by decide)))
          (stillOpen_stays entity (by decide) fun both => absurd both.1 (by decide))
      rw [if_neg lt]
      by_cases gt : c = 62 ∧ tagopen ≠ 0
      · obtain ⟨rfl, open_⟩ := gt
        rw [if_pos ⟨rfl, open_⟩, outside_hidden fun visible => visible.2.2.1 (tag.1 open_)]
        exact ih (iff_of_false (fun ne => ne rfl) (closes 60 62))
          (stillOpen_stays entity (by decide) fun both => absurd both.1 (by decide))
      rw [if_neg gt]
      by_cases amp : c = 38
      · subst amp
        rw [if_pos rfl, outside_hidden fun visible => visible.2.1 rfl]
        exact ih (stillOpen_stays tag (by decide) fun both => absurd both.1 (by decide))
          (iff_of_true rfl (opens 38 59 (by decide)))
      rw [if_neg amp]
      by_cases semi : c = 59 ∧ andopen = true
      · obtain ⟨rfl, open_⟩ := semi
        rw [if_pos ⟨rfl, open_⟩, outside_hidden fun visible => visible.2.2.2 (entity.1 open_)]
        exact ih (stillOpen_stays tag (by decide) fun both => absurd both.1 (by decide))
          (iff_of_false Bool.false_ne_true (closes 38 59))
      rw [if_neg semi]
      -- a character that changes neither mode
      have tag' := stillOpen_stays tag lt gt
      have entity' := stillOpen_stays entity amp semi
      by_cases plain : tagopen = 0 ∧ ¬ andopen = true
      · have visible : Visible before c :=
          ⟨lt, amp, fun open_ => tag.2 open_ plain.1, fun open_ => plain.2 (entity.2 open_)⟩
        rw [if_pos plain, outside_visible visible]
        by_cases blank : c = 10 ∨ c = 13 ∨ c = 32
        · rw [if_pos blank, squeeze_blank (show IsBlank c from blank)]
          cases ws with
          | true => exact ih tag' entity'
          | false => exact congrArg (32 :: ·) (ih tag' entity')
        · rw [if_neg blank, squeeze_plain (show ¬ IsBlank c from blank)]
          exact congrArg (c :: ·) (ih tag' entity')
      · have hidden : ¬ Visible before c := fun visible => plain
          ⟨by_contra fun open_ => visible.2.2.1 (tag.1 open_),
            fun open_ => visible.2.2.2 (entity.1 open_)⟩
        rw [if_neg plain, outside_hidden hidden]
        exact ih tag' entity'

theorem htmlRemoveTags_fst (s : Bytes) : (htmlRemoveTags s).1 = squeeze false (outside [] s) :=
  removeTags_fst (iff_of_false (fun ne => ne rfl) (by decide))
    (iff_of_false Bool.false_ne_true (by decide)) s

/-- Neither of the two is left. -/
theorem plain_htmlRemoveTags (s : Bytes) :
    (60 : UInt8) ∉ (htmlRemoveTags s).1 ∧ (38 : UInt8) ∉ (htmlRemoveTags s).1 := by
  rw [htmlRemoveTags_fst]
  constructor
  · intro member
    rcases mem_squeeze member with blank | inside
    · exact absurd blank (by decide)
    · exact (visible_of_mem_outside inside).1 rfl
  · intro member
    rcases mem_squeeze member with blank | inside
    · exact absurd blank (by decide)
    · exact (visible_of_mem_outside inside).2 rfl

/-! ## Well-formed text -/

/-- Inserted text keeps to the place it is put in. -/
def Piece.Fits : Piece → Prop
  | .markup _ => True
  | .content s => (60 : UInt8) ∉ s ∧ (38 : UInt8) ∉ s
  | .link _ => True
  | .cdata s => ¬ str "]]>" <:+: s

def WellFormed (doc : List Piece) : Prop := ∀ p ∈ doc, p.Fits

theorem wellFormed_append {a b : List Piece} : WellFormed (a ++ b) ↔ WellFormed a ∧ WellFormed b := by
  simp only [WellFormed, List.mem_append, or_imp, forall_and]

theorem wellFormed_flatMap {α : Type} {xs : List α} {f : α → List Piece} :
    WellFormed (xs.flatMap f) ↔ ∀ x ∈ xs, WellFormed (f x) := by
  simp only [WellFormed, List.mem_flatMap]
  constructor
  · exact fun all x inside p member => all p ⟨x, inside, member⟩
  · rintro all p ⟨x, inside, member⟩
    exact all x inside p member

theorem wellFormed_preface (t p l g : Bytes) :
    WellFormed (rssPrintPreface t p l g) ↔ (60 : UInt8) ∉ t ∧ (38 : UInt8) ∉ t := by
  simp [WellFormed, rssPrintPreface, Piece.Fits]

/-- An entry fits unless its text ends the section. -/
theorem wellFormed_entry (host : Bytes) (last : UInt8) (e : Nentry) :
    WellFormed (entryRss host last e) ↔ ¬ str "]]>" <:+: visibleText e := by
  have plain := plain_htmlRemoveTags (cstr e.e)
  have ends : str "]]>" <:+: (htmlRemoveTags (cstr e.e)).1 ↔ str "]]>" <:+: visibleText e := by
    have noBlank : ∀ c ∈ str "]]>", ¬ IsBlank c := by simp [str, IsBlank]
    rw [htmlRemoveTags_fst]
    exact squeeze_infix noBlank false _
  rw [← ends]
  rw [entryRss]
  generalize htmlRemoveTags (cstr e.e) = stripped at plain
  obtain ⟨cnt, blanks⟩ := stripped
  simp [WellFormed, rssItem, Piece.Fits, plain]

/-- **The feed is well formed exactly when the title has neither `<` nor `&`, and
`]]>` is nowhere in what an entry's tags and entities leave.** -/
theorem feed_well_formed_iff (host : Bytes) (last : UInt8) (res : Result) (conf : Blog) :
    WellFormed (printShowRss host last res conf) ↔
      ((60 : UInt8) ∉ cstr conf.title ∧ (38 : UInt8) ∉ cstr conf.title) ∧
        ∀ day ∈ res, ∀ e ∈ day.es, ¬ str "]]>" <:+: visibleText e := by
  have closing : WellFormed rssCloseRss := by simp [WellFormed, rssCloseRss, Piece.Fits]
  have days : WellFormed (res.flatMap (dayEntriesRss host last)) ↔
      ∀ day ∈ res, ∀ e ∈ day.es, ¬ str "]]>" <:+: visibleText e := by
    simp only [dayEntriesRss, wellFormed_flatMap, wellFormed_entry]
  rw [printShowRss, printHeaderRss]
  rw [wellFormed_append, wellFormed_append, wellFormed_preface, days]
  exact and_iff_left closing

/-- `Q&A` is printed as it is. -/
theorem title_breaks_feed : ¬ ∀ (host : Bytes) (last : UInt8) (res : Result) (conf : Blog),
    WellFormed (printShowRss host last res conf) := by
  intro claim
  have fits := claim [] 0 [] { blogInit with title := str "Q&A" ++ [0] } (.content (str "Q&A"))
    (by simp [printShowRss, printHeaderRss, rssPrintPreface]; decide)
  exact absurd fits.2 (by decide)

end Bagunceiro
