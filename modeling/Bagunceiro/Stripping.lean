/-
# Stripping -- what `html_remove_tags` stores

The text that is left is the text outside of tags and entities with blanks
squeezed (`htmlRemoveTags_fst`).  From there it is in a normal form, and a second
run does nothing: `stripped_htmlRemoveTags`.

An entity may also be opened inside of a tag, as in the address of a link with
two parameters.  It is then still open behind the tag and takes text with it;
`tag_removed_iff` says when that makes no difference.
-/
import Bagunceiro.Rss

namespace Bagunceiro

set_option autoImplicit false

/-! ## The normal form -/

/-- A line break is read as a space. -/
def unbreak (c : UInt8) : UInt8 := if c = 10 ∨ c = 13 then 32 else c

/-- `r` is the text of `s` without markup. -/
structure Stripped (s r : Bytes) : Prop where
  noMarkup : (60 : UInt8) ∉ r ∧ (38 : UInt8) ∉ r
  noBreak : (10 : UInt8) ∉ r ∧ (13 : UInt8) ∉ r
  single : ¬ [32, 32] <:+: r
  taken : r.Sublist (s.map unbreak)
  short : r.length ≤ s.length
  fixed : (htmlRemoveTags r).1 = r

theorem outside_sublist : ∀ before s : Bytes, (outside before s).Sublist s
  | _, [] => .slnil
  | before, c :: s => by
      have behind := outside_sublist (before ++ [c]) s
      by_cases visible : Visible before c
      · simpa [outside_visible visible] using behind
      · simpa [outside_hidden visible] using behind.cons c

theorem squeeze_sublist : ∀ (ws : Bool) (s : Bytes), (squeeze ws s).Sublist (s.map unbreak)
  | _, [] => .slnil
  | ws, c :: s => by
      by_cases blank : IsBlank c
      · have space : unbreak c = 32 := by
          rcases blank with rfl | rfl | rfl <;> decide
        have behind := squeeze_sublist true s
        rw [squeeze_blank blank, List.map_cons, space]
        cases ws with
        | true => simpa using behind.cons 32
        | false => simpa using behind
      · have kept : unbreak c = c := if_neg fun break_ => blank (break_.imp_right .inl)
        have behind := squeeze_sublist false s
        rw [squeeze_plain blank, List.map_cons, kept]
        exact behind.cons_cons c

theorem squeeze_noBreak {ws : Bool} {s : Bytes} :
    (10 : UInt8) ∉ squeeze ws s ∧ (13 : UInt8) ∉ squeeze ws s := by
  have taken := squeeze_sublist ws s
  have none_ {c : UInt8} (break_ : c = 10 ∨ c = 13) : c ∉ squeeze ws s := by
    intro member
    obtain ⟨d, -, image⟩ := List.mem_map.1 (taken.subset member)
    by_cases same : d = 10 ∨ d = 13
    · rw [unbreak, if_pos same] at image
      subst image
      exact absurd break_ (by decide)
    · rw [unbreak, if_neg same] at image
      exact same (image ▸ break_)
  exact ⟨none_ (.inl rfl), none_ (.inr rfl)⟩

/-- Behind a blank no space is written. -/
theorem squeeze_true_head : ∀ {s : Bytes}, (squeeze true s).head? ≠ some 32
  | [] => by simp [squeeze]
  | c :: s => by
      by_cases blank : IsBlank c
      · simpa [squeeze_blank blank] using squeeze_true_head (s := s)
      · have notSpace : c ≠ 32 := fun same => blank (.inr (.inr same))
        simpa [squeeze_plain blank] using notSpace

theorem squeeze_single : ∀ {ws : Bool} {s : Bytes}, ¬ [32, 32] <:+: squeeze ws s
  | _, [] => by simp [squeeze]
  | ws, c :: s => by
      by_cases blank : IsBlank c
      · have behind : ¬ [32, 32] <:+: squeeze true s := squeeze_single
        have head := squeeze_true_head (s := s)
        rw [squeeze_blank blank]
        cases ws with
        | true => simpa using behind
        | false =>
            cases cut : squeeze true s with
            | nil => simp [List.infix_cons_iff, List.cons_prefix_cons]
            | cons d rest =>
                rw [cut] at behind head
                have other : ¬ 32 = d := fun same => head (by simp [same])
                simpa [List.infix_cons_iff, List.cons_prefix_cons, other] using behind
      · have notSpace : ¬ 32 = c := fun same => blank (.inr (.inr same.symm))
        have behind : ¬ [32, 32] <:+: squeeze false s := squeeze_single
        simpa [squeeze_plain blank, List.infix_cons_iff, List.cons_prefix_cons, notSpace] using behind

theorem squeeze_squeeze : ∀ (ws : Bool) (s : Bytes), squeeze ws (squeeze ws s) = squeeze ws s
  | _, [] => rfl
  | ws, c :: s => by
      by_cases blank : IsBlank c
      · have behind := squeeze_squeeze true s
        have space : IsBlank 32 := .inr (.inr rfl)
        rw [squeeze_blank blank]
        cases ws with
        | true => simpa using behind
        | false => simpa [squeeze_blank space] using behind
      · have behind := squeeze_squeeze false s
        simpa [squeeze_plain blank] using behind

/-- Text without `<` and `&` is visible where nothing is open. -/
theorem outside_of_plain : ∀ {before s : Bytes}, ¬ StillOpen 60 62 before → ¬ StillOpen 38 59 before →
    (60 : UInt8) ∉ s → (38 : UInt8) ∉ s → outside before s = s
  | _, [], _, _, _, _ => rfl
  | before, c :: s, tag, entity, noLt, noAmp => by
      rw [List.mem_cons, not_or] at noLt noAmp
      have visible : Visible before c := ⟨Ne.symm noLt.1, Ne.symm noAmp.1, tag, entity⟩
      have tag' : ¬ StillOpen 60 62 (before ++ [c]) := by
        simp [stillOpen_concat, noLt.1, tag]
      have entity' : ¬ StillOpen 38 59 (before ++ [c]) := by
        simp [stillOpen_concat, noAmp.1, entity]
      rw [outside_visible visible, outside_of_plain tag' entity' noLt.2 noAmp.2]

/-- **What is left has no markup, no line break and no two spaces in a row, is
taken from the text in order, and stays as it is in a second run.** -/
theorem stripped_htmlRemoveTags (s : Bytes) : Stripped s (htmlRemoveTags s).1 := by
  have plain := plain_htmlRemoveTags s
  have left := htmlRemoveTags_fst s
  have taken : (htmlRemoveTags s).1.Sublist (s.map unbreak) := by
    rw [left]
    exact (squeeze_sublist false _).trans ((outside_sublist [] s).map unbreak)
  refine ⟨plain, ?_, ?_, taken, ?_, ?_⟩
  · rw [left]
    exact squeeze_noBreak
  · rw [left]
    exact squeeze_single
  · simpa using taken.length_le
  · rw [htmlRemoveTags_fst, outside_of_plain (by decide) (by decide) plain.1 plain.2, left]
    exact squeeze_squeeze false _

/-! ## Two runs -/

/-- The modes behind a text are those of its last part, or older ones it did not
change. -/
theorem stillOpen_append {opening closing : UInt8} (x y : Bytes) :
    StillOpen opening closing (x ++ y) ↔
      StillOpen opening closing y ∨ closing ∉ y ∧ StillOpen opening closing x := by
  induction y using List.reverseRecOn with
  | nil => simp [StillOpen]
  | append_singleton y c ih =>
      rw [← List.append_assoc, stillOpen_concat, stillOpen_concat, ih, List.mem_append,
        List.mem_singleton]
      tauto

/-- Only the modes count of what was read before. -/
theorem outside_congr : ∀ {before before' : Bytes},
    (StillOpen 60 62 before ↔ StillOpen 60 62 before') →
    (StillOpen 38 59 before ↔ StillOpen 38 59 before') → ∀ s, outside before s = outside before' s
  | _, _, _, _, [] => rfl
  | before, before', tag, entity, c :: s => by
      have visible : Visible before c ↔ Visible before' c := by
        simp only [Visible, tag, entity]
      have behind : outside (before ++ [c]) s = outside (before' ++ [c]) s :=
        outside_congr (by simp only [stillOpen_concat, tag])
          (by simp only [stillOpen_concat, entity]) s
      by_cases shown : Visible before c
      · rw [outside_visible shown, outside_visible (visible.1 shown), behind]
      · rw [outside_hidden shown, outside_hidden (visible.not.1 shown), behind]

theorem outside_append : ∀ before s u : Bytes,
    outside before (s ++ u) = outside before s ++ outside (before ++ s) u
  | before, [], u => by simp [outside]
  | before, c :: s, u => by
      have behind := outside_append (before ++ [c]) s u
      rw [List.append_assoc, List.singleton_append] at behind
      by_cases shown : Visible before c
      · simp [outside_visible shown, behind]
      · simp [outside_hidden shown, behind]

/-- Inside of a tag nothing is visible. -/
theorem outside_in_tag : ∀ {before s : Bytes}, StillOpen 60 62 before → (62 : UInt8) ∉ s →
    outside before s = []
  | _, [], _, _ => rfl
  | before, c :: s, open_, noGt => by
      rw [List.mem_cons, not_or] at noGt
      have stays : StillOpen 60 62 (before ++ [c]) :=
        (stillOpen_concat before c).2 ⟨Ne.symm noGt.1, .inr open_⟩
      rw [outside_hidden fun visible => visible.2.2.1 open_, outside_in_tag stays noGt.2]

/-- Inside of an entity nothing is visible. -/
theorem outside_in_entity : ∀ {before s : Bytes}, StillOpen 38 59 before → (59 : UInt8) ∉ s →
    outside before s = []
  | _, [], _, _ => rfl
  | before, c :: s, open_, noSemi => by
      rw [List.mem_cons, not_or] at noSemi
      have stays : StillOpen 38 59 (before ++ [c]) :=
        (stillOpen_concat before c).2 ⟨Ne.symm noSemi.1, .inr open_⟩
      rw [outside_hidden fun visible => visible.2.2.2 open_, outside_in_entity stays noSemi.2]

/-! ## Blanks next to each other -/

/-- The last byte written was for a blank. -/
def endsBlank (ws : Bool) (s : Bytes) : Bool := (s.getLast?.map fun c => decide (IsBlank c)).getD ws

def StartsBlank (s : Bytes) : Prop := ∃ c ∈ s.head?, IsBlank c

theorem squeeze_append (ws : Bool) (s u : Bytes) :
    squeeze ws (s ++ u) = squeeze ws s ++ squeeze (endsBlank ws s) u := by
  induction s generalizing ws with
  | nil => rfl
  | cons c s ih =>
      have last (b : Bool) : endsBlank b (c :: s) = endsBlank (decide (IsBlank c)) s := by
        cases s with
        | nil => rfl
        | cons d s =>
            rw [endsBlank, endsBlank, List.getLast?_cons_cons,
              List.getLast?_eq_some_getLast (List.cons_ne_nil d s)]
            rfl
      rw [last, List.cons_append]
      by_cases blank : IsBlank c
      · rw [squeeze_blank blank, squeeze_blank blank, decide_eq_true blank, ih]
        cases ws <;> rfl
      · rw [squeeze_plain blank, squeeze_plain blank, decide_eq_false blank, ih, List.cons_append]

/-- Squeezing takes no other characters away. -/
theorem filter_squeeze (ws : Bool) (s : Bytes) :
    (squeeze ws s).filter (¬ IsBlank ·) = s.filter (¬ IsBlank ·) := by
  have space : IsBlank 32 := .inr (.inr rfl)
  induction s generalizing ws with
  | nil => rfl
  | cons c s ih =>
      by_cases blank : IsBlank c
      · cases ws with
        | true => simpa [squeeze_blank blank, blank] using ih true
        | false => simpa [squeeze_blank blank, blank, space] using ih true
      · simpa [squeeze_plain blank, blank] using ih false

theorem squeeze_blanks : ∀ {x : Bytes}, (∀ c ∈ x, IsBlank c) → ∀ y,
    squeeze true (x ++ y) = squeeze true y
  | [], _, _ => rfl
  | c :: x, blanks, y => by
      have behind := squeeze_blanks (fun d member => blanks d (List.mem_cons_of_mem c member)) y
      simpa [squeeze_blank (blanks c List.mem_cons_self)] using behind

/-- A space in front makes no difference only where a blank follows. -/
theorem space_squeeze_iff (y : Bytes) : 32 :: squeeze true y = squeeze false y ↔ StartsBlank y := by
  cases y with
  | nil => simp [squeeze, StartsBlank]
  | cons c y =>
      by_cases blank : IsBlank c
      · simp [squeeze_blank blank, StartsBlank, blank]
      · simp [squeeze_plain blank, StartsBlank, blank]

/-- A part can be left out exactly when it is blanks next to another blank. -/
theorem squeeze_drop_iff (ws : Bool) (x y : Bytes) :
    squeeze ws (x ++ y) = squeeze ws y ↔
      (∀ c ∈ x, IsBlank c) ∧ (x = [] ∨ ws = true ∨ StartsBlank y) := by
  constructor
  · intro same
    have kept := congrArg (List.filter (¬ IsBlank ·)) same
    rw [filter_squeeze, filter_squeeze, List.filter_append, List.append_left_eq_self,
      List.filter_eq_nil_iff] at kept
    have blanks : ∀ c ∈ x, IsBlank c := by simpa using kept
    refine ⟨blanks, ?_⟩
    cases x with
    | nil => exact .inl rfl
    | cons c x =>
        cases ws with
        | true => exact .inr (.inl rfl)
        | false =>
            have rest := squeeze_blanks (fun d member => blanks d (List.mem_cons_of_mem c member)) y
            rw [List.cons_append, squeeze_blank (blanks c List.mem_cons_self),
              if_neg Bool.false_ne_true, rest] at same
            exact .inr (.inr ((space_squeeze_iff y).1 same))
  · rintro ⟨blanks, empty | behind⟩
    · rw [empty, List.nil_append]
    · cases x with
      | nil => rfl
      | cons c x =>
          have rest := squeeze_blanks (fun d member => blanks d (List.mem_cons_of_mem c member)) y
          rw [List.cons_append, squeeze_blank (blanks c List.mem_cons_self), rest]
          cases ws with
          | true => rfl
          | false =>
              have starts := behind.resolve_left Bool.false_ne_true
              simpa using (space_squeeze_iff y).2 starts

/-! ## A tag in a text -/

/-- How far an open entity takes text with it: its first `;` included. -/
def entityReach (b : Bytes) : Nat := b.idxOf 59 + 1

section Tag

variable {a t b : Bytes}

/-- Behind a tag the tag is closed, and an entity is open if the tag opened one. -/
theorem stillOpen_behind_tag (closed : ¬ StillOpen 38 59 a) :
    ¬ StillOpen 60 62 (a ++ 60 :: t ++ [62]) ∧
      (StillOpen 38 59 (a ++ 60 :: t ++ [62]) ↔ StillOpen 38 59 t) := by
  have split_ : a ++ 60 :: t = a ++ [60] ++ t := by simp
  constructor
  · rw [stillOpen_concat]
    simp
  · rw [stillOpen_concat, split_, stillOpen_append, stillOpen_concat]
    simp [closed]

/-- What is visible around a tag is what is before it and what is behind it. -/
theorem outside_tag (noGt : (62 : UInt8) ∉ t) :
    outside [] (a ++ 60 :: t ++ 62 :: b) = outside [] a ++ outside (a ++ 60 :: t ++ [62]) b := by
  have split_ : a ++ 60 :: t ++ 62 :: b = a ++ (60 :: t ++ [62]) ++ b := by simp
  have opened : StillOpen 60 62 (a ++ [60]) := (stillOpen_concat a 60).2 ⟨by decide, .inl rfl⟩
  have inside : outside (a ++ [60]) t = [] := outside_in_tag opened noGt
  have open_ : StillOpen 60 62 (a ++ 60 :: t) := by
    have reached := (stillOpen_append (a ++ [60]) t).2 (.inr ⟨noGt, opened⟩)
    simpa using reached
  have tag : outside a (60 :: t ++ [62]) = [] := by
    rw [outside_append, outside_hidden fun visible => visible.1 rfl, inside,
      outside_hidden fun visible => visible.2.2.1 open_]
    rfl
  rw [split_, outside_append, outside_append, List.nil_append, tag, List.append_nil]
  simp

/-- An open entity hides the text up to its end and changes nothing behind it. -/
theorem outside_behind_entity {before before' : Bytes} (open_ : StillOpen 38 59 before)
    (tag : StillOpen 60 62 before ↔ StillOpen 60 62 before') (b : Bytes) :
    outside before b = outside (before' ++ b.take (entityReach b)) (b.drop (entityReach b)) := by
  by_cases ends : (59 : UInt8) ∈ b
  · obtain ⟨front, rest, rfl, noSemi⟩ := List.eq_append_cons_of_mem ends
    have reach : entityReach (front ++ 59 :: rest) = (front ++ [59]).length := by
      simp [entityReach, List.idxOf_append_of_notMem noSemi]
    have cut : front ++ 59 :: rest = front ++ [59] ++ rest := by simp
    have still : StillOpen 38 59 (before ++ front) :=
      (stillOpen_append before front).2 (.inr ⟨noSemi, open_⟩)
    have tag' : StillOpen 60 62 (before ++ front ++ [59]) ↔
        StillOpen 60 62 (before' ++ front ++ [59]) := by
      simp only [stillOpen_append, tag]
    have entity' : StillOpen 38 59 (before ++ front ++ [59]) ↔
        StillOpen 38 59 (before' ++ front ++ [59]) := by
      simp only [stillOpen_concat]
      simp
    rw [reach, cut, List.take_left, List.drop_left, ← List.append_assoc, ← outside_congr tag' entity',
      ← cut, outside_append, outside_in_entity open_ noSemi, List.nil_append,
      outside_hidden fun visible => visible.2.2.2 still]
  · have reach : b.length ≤ entityReach b := by
      rw [entityReach, List.idxOf_eq_length_iff.2 ends]
      omega
    rw [List.drop_eq_nil_of_le reach, outside_in_entity open_ ends]
    rfl

/-- What is shown of `b` behind `a` up to its first `;`, and from there on. -/
def shownToSemi (a b : Bytes) : Bytes := outside a (b.take (entityReach b))

def shownBehindSemi (a b : Bytes) : Bytes :=
  outside (a ++ b.take (entityReach b)) (b.drop (entityReach b))

/-- **A tag can be left out exactly when it leaves no entity open, or when what
the entity hides is blanks that make no difference.** -/
theorem tag_removed_iff (tagClosed : ¬ StillOpen 60 62 a) (entityClosed : ¬ StillOpen 38 59 a)
    (noGt : (62 : UInt8) ∉ t) :
    (htmlRemoveTags (a ++ 60 :: t ++ 62 :: b)).1 = (htmlRemoveTags (a ++ b)).1 ↔
      ¬ StillOpen 38 59 t ∨
        (∀ c ∈ shownToSemi a b, IsBlank c) ∧
          (shownToSemi a b = [] ∨ endsBlank false (outside [] a) = true ∨
            StartsBlank (shownBehindSemi a b)) := by
  obtain ⟨closedBehind, entityBehind⟩ := stillOpen_behind_tag (t := t) entityClosed
  have tagBehind : StillOpen 60 62 (a ++ 60 :: t ++ [62]) ↔ StillOpen 60 62 a :=
    iff_of_false closedBehind tagClosed
  have without : outside [] (a ++ b) = outside [] a ++ outside a b := by
    rw [outside_append, List.nil_append]
  rw [htmlRemoveTags_fst, htmlRemoveTags_fst, outside_tag noGt, without, squeeze_append,
    squeeze_append, List.append_cancel_left_eq]
  by_cases leaks : StillOpen 38 59 t
  · have hidden := outside_behind_entity (entityBehind.2 leaks) tagBehind b
    have shown : outside a b = shownToSemi a b ++ shownBehindSemi a b := by
      rw [shownToSemi, shownBehindSemi, ← outside_append, List.take_append_drop]
    rw [hidden, shown, eq_comm, or_iff_right (not_not.2 leaks)]
    exact squeeze_drop_iff _ _ _
  · have same : outside (a ++ 60 :: t ++ [62]) b = outside a b :=
      outside_congr tagBehind (iff_of_false (entityBehind.not.2 leaks) entityClosed) b
    rw [same]
    exact iff_of_true rfl (.inl leaks)

end Tag

/-- A link with one parameter can be left out. -/
theorem tag_removed_sample :
    (htmlRemoveTags (str "see " ++ 60 :: str "a href=?ts=1" ++ 62 :: str "here")).1 =
      (htmlRemoveTags (str "see " ++ str "here")).1 :=
  (tag_removed_iff (by decide) (by decide) (by decide)).2 (.inl (by decide))

/-- The address of a link with two parameters takes the text behind it with it. -/
theorem link_hides_text :
    ¬ ∀ a t b : Bytes, (60 : UInt8) ∉ t → (62 : UInt8) ∉ t → ¬ StillOpen 60 62 a →
      ¬ StillOpen 38 59 a →
      (htmlRemoveTags (a ++ 60 :: t ++ 62 :: b)).1 = (htmlRemoveTags (a ++ b)).1 := by
  intro law
  have same := law (str "see ") (str "a href=?ts=1&css=b") (str "here") (by decide) (by decide)
    (by decide) (by decide)
  exact absurd same (by decide)

end Bagunceiro
