/-
# Months -- the month a page is about

A page shows a month: the one its `mn` parameter names, or the one of today.  The
parameter is `YYYY-MM`; `parse_query` appends the first day to it and scans the
whole as a date (`caldateScan_month`), so the month is selected through its first
day (`parseQuery_selects`).  Without the parameter the date of today is taken,
whatever its day (`parseQuery_today`).  What is parsed after that leaves the month
alone (`parseRequest_month`).
-/
import Mathlib.Data.List.Induction
import Bagunceiro.Libowfat.Mjd
import Bagunceiro.Parsing

namespace Bagunceiro

open Effect Radix

set_option autoImplicit false

/-! ## Digits -/

def IsDigits (s : Bytes) : Prop := ∀ c ∈ s, 48 ≤ c.toNat ∧ c.toNat ≤ 57

instance (s : Bytes) : Decidable (IsDigits s) :=
  decidable_of_iff (s.all fun c => 48 ≤ c.toNat ∧ c.toNat ≤ 57) (by simp [IsDigits])

theorem isDigits_decimal (n : Nat) : IsDigits (decimal n) := fun _ member => digit_of_mem_decimal member

theorem ofDecimal_decimal (n : Nat) : ofDecimal (decimal n) = n :=
  ofDecimal_decimalFrom (Nat.lt_succ_self n)

theorem notMem_of_isDigits {s : Bytes} (digits : IsDigits s) {c : UInt8}
    (other : c.toNat < 48 ∨ 57 < c.toNat) : c ∉ s := by
  intro member
  have digit := digits c member
  omega

/-- Digits are read up to what is not one. -/
theorem scanDigits_append {digits rest : Bytes} (all : IsDigits digits)
    (stop : ∀ c ∈ rest.head?, ¬ (48 ≤ c.toNat ∧ c.toNat ≤ 57)) (n : Nat) :
    scanDigits (UInt64.ofNat n) (digits ++ rest) =
      (UInt64.ofNat (digits.foldl (fun n c => n * 10 + (c.toNat - 48)) n), rest) := by
  induction digits generalizing n with
  | nil =>
      cases rest with
      | nil => rfl
      | cons c rest =>
          have other := stop c rfl
          simp only [List.nil_append, scanDigits, if_neg other, List.foldl_nil]
  | cons c digits ih =>
      have digit := all c List.mem_cons_self
      have value : UInt64.ofNat n * 10 + (c - 48).toUInt64 = UInt64.ofNat (n * 10 + (c.toNat - 48)) := by
        apply UInt64.toNat_inj.1
        have ten : (10 : UInt64).toNat = 10 := rfl
        have offset : (48 : UInt8).toNat = 48 := rfl
        have low : (48 : UInt8) ≤ c := by
          rw [UInt8.le_iff_toNat_le, offset]
          exact digit.1
        rw [UInt64.toNat_add, UInt64.toNat_mul, UInt8.toNat_toUInt64, UInt8.toNat_sub_of_le _ _ low,
          UInt64.toNat_ofNat', UInt64.toNat_ofNat', ten, offset]
        omega
      rw [List.cons_append, scanDigits, if_pos digit, value,
        ih (fun d member => all d (List.mem_cons_of_mem _ member))]
      rfl

/-- A number of few digits is small. -/
theorem ofDecimal_lt {digits : Bytes} (all : IsDigits digits) :
    ofDecimal digits < 10 ^ digits.length := by
  induction digits using List.reverseRecOn with
  | nil => decide
  | append_singleton digits c ih =>
      have front := ih fun d member => all d (List.mem_append_left _ member)
      have digit := all c (List.mem_append_right _ (List.mem_singleton_self c))
      have cut : ofDecimal (digits ++ [c]) = ofDecimal digits * 10 + (c.toNat - 48) := by
        simp [ofDecimal]
      rw [cut, List.length_append, List.length_singleton, pow_succ]
      omega

/-! ## A month as text -/

/-- `YYYY-MM`, with a year of some digits. -/
structure MonthText (text : Bytes) (year month : Nat) : Prop where
  written : ∃ yyyy mm, text = yyyy ++ 45 :: mm ∧ yyyy ≠ [] ∧ IsDigits yyyy ∧ mm.length = 2 ∧
    IsDigits mm ∧ ofDecimal yyyy = year ∧ ofDecimal mm = month
  short : text.length ≤ fmtCaldate

theorem MonthText.plain {text : Bytes} {year month : Nat} (is : MonthText text year month) {c : UInt8}
    (other : c.toNat < 48 ∨ 57 < c.toNat) (notDash : c ≠ 45) : c ∉ text := by
  obtain ⟨yyyy, mm, rfl, -, years, -, months, -, -⟩ := is.written
  rw [List.mem_append, List.mem_cons, not_or, not_or]
  exact ⟨notMem_of_isDigits years other, notDash, notMem_of_isDigits months other⟩

theorem MonthText.month_lt {text : Bytes} {year month : Nat} (is : MonthText text year month) :
    month < 100 := by
  obtain ⟨yyyy, mm, rfl, -, -, two, months, -, rfl⟩ := is.written
  have small := ofDecimal_lt months
  rwa [two] at small

theorem MonthText.year_lt {text : Bytes} {year month : Nat} (is : MonthText text year month) :
    year < 10 ^ 12 := by
  obtain ⟨yyyy, mm, rfl, -, years, two, -, rfl, -⟩ := is.written
  have short := is.short
  have small := ofDecimal_lt years
  rw [List.length_append, List.length_cons, two] at short
  exact lt_of_lt_of_le small (Nat.pow_le_pow_right (by norm_num) (by unfold fmtCaldate at short; omega))

theorem toInt64_ofNat {n : Nat} (small : n < 2 ^ 62) : (UInt64.ofNat n * 1).toInt64.toInt = n := by
  have count : (UInt64.ofNat n).toNat = n := by rw [UInt64.toNat_ofNat', Nat.mod_eq_of_lt (by omega)]
  have whole := toInt_sub_const (a := UInt64.ofNat n) (c := 0) (by omega) (by decide)
  rw [UInt64.mul_one, ← UInt64.sub_zero (UInt64.ofNat n), whole, count]
  rfl

theorem toInt32_ofNat {n : Nat} (small : n < 100) : (UInt64.ofNat n).toUInt32.toInt32.toInt = n := by
  interval_cases n <;> rfl

/-- **A month, with the first day appended, is scanned as its first day.** -/
theorem caldateScan_month {text : Bytes} {year month : Nat} (is : MonthText text year month)
    (cd : Caldate) : caldateScan (text ++ str "-01") cd = ⟨year, month, 1⟩ := by
  have monthSmall := is.month_lt
  have yearSmall := is.year_lt
  obtain ⟨yyyy, mm, rfl, some_, years, two, months, rfl, rfl⟩ := is.written
  have dash (rest : Bytes) : ∀ c ∈ ((45 : UInt8) :: rest).head?, ¬ (48 ≤ c.toNat ∧ c.toNat ≤ 57) := by
    rintro c ⟨⟩
    decide
  have sign : (yyyy ++ 45 :: mm ++ str "-01").head? ≠ some 45 := by
    cases yyyy with
    | nil => exact absurd rfl some_
    | cons c yyyy =>
        rintro ⟨⟩
        exact absurd (years 45 List.mem_cons_self) (by decide)
  have first : scanDigits 0 (yyyy ++ (45 :: (mm ++ str "-01"))) =
      (UInt64.ofNat (ofDecimal yyyy), 45 :: (mm ++ str "-01")) :=
    scanDigits_append years (dash _) 0
  have second_ : scanDigits 0 (mm ++ str "-01") = (UInt64.ofNat (ofDecimal mm), str "-01") :=
    scanDigits_append months (dash [48, 49]) 0
  rw [caldateScan]
  simp only [if_neg sign]
  simp only [List.append_assoc, List.cons_append, first, second_, List.head?_cons, List.tail_cons,
    ne_eq, not_true_eq_false, if_false, toInt64_ofNat (show ofDecimal yyyy < 2 ^ 62 by omega),
    toInt32_ofNat monthSmall]
  rfl

/-! ## The month that is selected -/

theorem readLocal_returns_ok (req : HttpRequest) (site : Site) (size : Nat) (s : Server) :
    Prog.Returns (fun r => ∃ p, site.get req = .ok p ∧ r.1 = p.code ∧ r.2.1 = cstr p.write ∧
      r.2.2 = s.noted p) (readLocal req site size s) := by
  rintro ⟨err, text, s'⟩ read
  exact readLocal_ok read

/-- What is known of the server after `parse_query`: the month is the last thing
it reads. -/
theorem parseQuery_month (req : HttpRequest) (s : Server) :
    Prog.Returns (fun s' => ∃ p old, queryMonth.get req = .ok p ∧
      (p.code = paramSuccess → s'.conf.qry.type = .qryMonth ∧ s'.conf.qry.action = .qaShow ∧
        s'.conf.qry.mon.date = caldateScan (cstr p.write ++ str "-01") old) ∧
      (p.code ≠ paramSuccess → s'.conf.qry.mon = caltimeUtc req.leapsecs req.now.sec))
      (parseQuery req s) := by
  rw [parseQuery]
  refine (Prog.Returns.self _).bind fun _ _ => ?_
  refine (Prog.Returns.self _).bind fun _ _ => ?_
  refine (Prog.Returns.self _).bind fun _ _ => ?_
  refine (Prog.Returns.self _).bind fun _ _ => ?_
  refine (Prog.Returns.self _).bind fun _ _ => ?_
  refine (readLocal_returns_ok req queryMonth _ _).bind ?_
  rintro ⟨err, text, s₁⟩ ⟨p, got, rfl, rfl, -⟩
  refine .ok ⟨p, s₁.conf.qry.mon.date, got, fun success => ?_, fun failed => ?_⟩
  · rw [if_pos success]
    exact ⟨rfl, rfl, rfl⟩
  · rw [if_neg failed]
    rfl

/-- **With the parameter its month is selected**, through the first day. -/
theorem parseQuery_selects {req : HttpRequest} {s s' : Server} {text : Bytes} {year month : Nat}
    (parsed : parseQuery req s = .ok s') (given : queryMonth.value req = some text)
    (is : MonthText text year month) :
    s'.conf.qry.type = .qryMonth ∧ s'.conf.qry.action = .qaShow ∧
      s'.conf.qry.mon.date = ⟨year, month, 1⟩ := by
  obtain ⟨p, old, got, selected, -⟩ := parseQuery_month req s s' parsed
  obtain ⟨q, got', success, write, -⟩ := Site.get_of_value given
  rw [got] at got'
  cases got'
  obtain ⟨type, action, date⟩ := selected success
  have terminator : (0 : UInt8) ∉ text := is.plain (by decide) (by decide)
  rw [write, cstr_append terminator, caldateScan_month is] at date
  exact ⟨type, action, date⟩

/-- Without one the page is about the month of today. -/
theorem parseQuery_today {req : HttpRequest} {s s' : Server} (parsed : parseQuery req s = .ok s')
    (absent : queryMonth.value req = none) : s'.conf.qry.mon.date = dayOf req.leapsecs req.now := by
  obtain ⟨p, old, got, -, today⟩ := parseQuery_month req s s' parsed
  have failed : p.code ≠ paramSuccess := by
    intro success
    obtain ⟨v, value, -⟩ := Site.get_success got success
    rw [absent] at value
    cases value
  rw [today failed]
  rfl

/-! ## After parsing

What the window of a page is computed from: the clock of the request, the start
and the width, and the month.  Only `parse_query` sets the month; the other
parsers leave all of it. -/

/-- The clock, the start of the window and its width. -/
def Server.stands (s : Server) : Taia × Nat × Nat :=
  (s.conf.now, s.conf.qry.start, s.conf.qry.doff)

/-- All that a page's window depends on. -/
def Server.shows (s : Server) : (Taia × Nat × Nat) × Caltime := (s.stands, s.conf.qry.mon)

theorem shows_of_conf {s s' : Server} (same : s'.conf = s.conf) : s'.shows = s.shows := by
  rw [Server.shows, Server.stands, same]
  rfl

/-- `parse_query` sets the month and leaves the rest. -/
theorem parseQuery_stands {req : HttpRequest} {s : Server} {w : Taia × Nat × Nat}
    (same : s.stands = w) : Prog.Returns (fun s' => s'.stands = w) (parseQuery req s) := by
  have byConf {t u : Server} (equal : u.conf = t.conf) : u.stands = t.stands :=
    congrArg Prod.fst (shows_of_conf equal)
  rw [parseQuery]
  refine Prog.Returns.bind (readQry_keeps byConf (fun _ _ => rfl) same) fun _ same => ?_
  refine Prog.Returns.bind
    (readQry_keeps byConf (fun _ _ => rfl) (choice_keeps (fun _ => rfl) same)) fun _ same => ?_
  refine Prog.Returns.bind
    (readQry_keeps byConf (fun _ _ => rfl) (choice_keeps (fun _ => rfl) same)) fun _ same => ?_
  refine Prog.Returns.bind
    (readQry_keeps byConf (fun _ _ => rfl) (choice_keeps (fun _ => rfl) same)) fun _ same => ?_
  refine Prog.Returns.bind (readLocal_keeps byConf
    (choice_keeps (fun _ => rfl) (choice_keeps (fun _ => rfl) same))) fun _ same => ?_
  refine Prog.Returns.bind
    (readLocal_keeps byConf (choice_keeps (fun _ => rfl) same)) fun _ same => .ok ?_
  split
  · exact same
  · exact today_keeps (fun _ _ => rfl) same _

/-- What a parsed request shows: the window starts today and the month is the
selected one, or the one of today. -/
structure ShowsMonth (req : HttpRequest) (s : Server) : Prop where
  now : s.conf.now = req.now
  start : s.conf.qry.start = 0
  doff : s.conf.qry.doff = 8
  selected : ∀ text year month, queryMonth.value req = some text → MonthText text year month →
    s.conf.qry.mon.date = ⟨year, month, 1⟩
  today : queryMonth.value req = none → s.conf.qry.mon.date = dayOf req.leapsecs req.now

theorem ShowsMonth.of_shows {req : HttpRequest} {s t : Server} (shows : ShowsMonth req s)
    (same : t.shows = s.shows) : ShowsMonth req t := by
  simp only [Server.shows, Server.stands, Prod.mk.injEq] at same
  obtain ⟨⟨now, start, doff⟩, mon⟩ := same
  constructor
  · exact now.trans shows.now
  · exact start.trans shows.start
  · exact doff.trans shows.doff
  · intro text year month given is
    rw [mon]
    exact shows.selected text year month given is
  · intro absent
    rw [mon]
    exact shows.today absent

theorem shows_of_view {s t : Server} (same : t.view = s.view) : t.shows = s.shows := by
  simp only [Server.view, Query.window, Prod.mk.injEq] at same
  obtain ⟨now, ⟨start, doff, mon⟩, -⟩ := same
  rw [Server.shows, Server.stands, now, start, doff, mon]
  rfl

/-- **A request is about the month it selects**, and otherwise about the one of
today. -/
theorem parseRequest_month {req : HttpRequest} {s s' : Server} {fs fs' : Fs}
    (ran : exec (parseRequest req s) fs = (.ok s', fs')) : ShowsMonth req s' := by
  obtain ⟨s₁, s₂, cookie, parsed, same⟩ := parseRequest_view ran
  have stands := parseQuery_stands (congrArg Prod.fst (shows_of_view cookie)) s₂ parsed
  simp only [Server.stands, Server.shows, Prod.mk.injEq] at stands
  obtain ⟨now, start, doff⟩ := stands
  have query : ShowsMonth req s₂ := by
    refine ⟨now, start, doff, fun text year month given is => ?_, fun absent => ?_⟩
    · exact (parseQuery_selects parsed given is).2.2
    · exact parseQuery_today parsed absent
  exact query.of_shows (shows_of_view same)

end Bagunceiro
