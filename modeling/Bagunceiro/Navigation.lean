/-
# Navigation -- the links from month to month (`print_footer_html`)

A page has links to the month before, to its own month and to the month after.
They are made from a full date: its month is stepped and the date normalized, and
what `caldate_fmt` writes is cut behind the month.  The day is carried along, so a
day that the neighbour does not have runs into the month behind it; and a year of
nine digits does not fit.  Otherwise each link leads to the month it is for, and
going on and back returns (`navigation_iff`).
-/
import Bagunceiro.Links
import Bagunceiro.Months

namespace Bagunceiro

open Effect Gregorian Radix

set_option autoImplicit false

/-! ## The links -/

/-- `str_rchr`: where the last `c` is, or the length. -/
def strRchr : Bytes → UInt8 → Nat
  | [], _ => 0
  | b :: s, c => if b = c ∧ c ∉ s then 0 else strRchr s c + 1

/-- One of the buffers of `print_footer_html`: a date without its day. -/
def monthField (cd : Caldate) : Bytes :=
  let text := caldateFmt cd
  if text.length < fmtCaldate then text.take (strRchr text 45) else []

/-- The values of the three links. -/
structure NavLinks where
  older : Bytes
  whole : Bytes
  later : Bytes
  deriving DecidableEq, Repr

/-- `print_footer_html`, from the date of the page. -/
def printFooterHtml (mon : Caldate) : NavLinks :=
  let n := monthField mon
  let ct := caldateNormalize { mon with month := mon.month - 1 }
  let p := monthField ct
  let ct := caldateNormalize { ct with month := ct.month + 2 }
  let f := monthField ct
  { older := p, whole := n, later := f }

/-! ## Months as text -/

/-- `YYYY-MM` -/
def monthText (m : Int × Int) : Bytes := fmtYear m.1 ++ 45 :: twoDigits m.2

theorem caldateFmt_eq (cd : Caldate) :
    caldateFmt cd = monthText (cd.year, cd.month) ++ 45 :: twoDigits cd.day := by
  simp [caldateFmt, monthText, str]

theorem monthText_ne_nil (m : Int × Int) : monthText m ≠ [] := by
  simp [monthText]

theorem monthText_inj {a b : Int × Int} (aLow : 1 ≤ a.2) (aHigh : a.2 ≤ 12) (bLow : 1 ≤ b.2)
    (bHigh : b.2 ≤ 12) (same : monthText a = monthText b) : a = b := by
  obtain ⟨years, months⟩ := List.append_inj' same rfl
  have month := twoDigits_inj (by omega) (by omega) (by omega) (by omega) (List.cons.inj months).2
  exact Prod.ext (fmtYear_injective years) month

/-- Of numbers up to 31. -/
theorem twoDigits_spec {x : Int} (low : 1 ≤ x) (high : x ≤ 31) :
    IsDigits (twoDigits x) ∧ ofDecimal (twoDigits x) = x.toNat := by
  interval_cases x <;> decide

theorem strRchr_append {front back : Bytes} {c : UInt8} (plain : c ∉ back) :
    strRchr (front ++ c :: back) c = front.length := by
  induction front with
  | nil => simp [strRchr, plain]
  | cons b front ih =>
      have inside : c ∈ front ++ c :: back := by simp
      rw [List.cons_append, strRchr, if_neg (fun last => last.2 inside), ih, List.length_cons]

/-- The years a field has room for. -/
theorem length_fmtYear {year : Int} (low : 0 ≤ year) (high : year < 10 ^ 8) :
    (fmtYear year).length ≤ 8 := by
  rw [fmtYear, if_neg (by omega)]
  exact length_decimalFrom (k := 7) _ _ (by omega)

/-- A year that is too long. -/
theorem monthField_of_long {cd : Caldate} (year : cd.year = 10 ^ 8) : monthField cd = [] := by
  have nine : (fmtYear (10 ^ 8)).length = 9 := by decide
  have two (x : Int) : (twoDigits x).length = 2 := rfl
  unfold monthField
  simp only
  rw [if_neg]
  rw [caldateFmt_eq, monthText]
  simp only [List.length_append, List.length_cons, year, nine, two]
  decide

/-- Otherwise the field is the month of the date. -/
theorem monthField_eq {cd : Caldate} (date : cd.IsDate) (low : 0 ≤ cd.year) (high : cd.year < 10 ^ 8) :
    monthField cd = monthText (cd.year, cd.month) := by
  have long := monthLength_bounds cd.year cd.month
  have dayHigh := date.day_le
  have short := length_fmtYear low high
  have two (x : Int) : (twoDigits x).length = 2 := rfl
  have plain : (45 : UInt8) ∉ twoDigits cd.day :=
    notMem_of_isDigits (twoDigits_spec date.day_pos (by omega)).1 (by decide)
  unfold monthField
  simp only
  rw [if_pos, caldateFmt_eq, strRchr_append plain, List.take_left]
  rw [caldateFmt_eq, monthText]
  simp only [List.length_append, List.length_cons, two, fmtCaldate]
  omega

/-- It is what the parameter takes. -/
theorem monthText_is {year month : Int} (low : 0 ≤ year) (high : year < 10 ^ 8) (monthLow : 1 ≤ month)
    (monthHigh : month ≤ 12) : MonthText (monthText (year, month)) year.toNat month.toNat := by
  have positive : fmtYear year = decimal year.natAbs := by rw [fmtYear, if_neg (by omega)]
  have short := length_fmtYear low high
  obtain ⟨digits, value⟩ := twoDigits_spec monthLow (show month ≤ 31 by omega)
  constructor
  · refine ⟨fmtYear year, twoDigits month, rfl, ?_, ?_, rfl, digits, ?_, value⟩
    · rw [positive]
      simp [decimal, decimalFrom]
    · rw [positive]
      exact isDigits_decimal _
    · rw [positive, ofDecimal_decimal]
      omega
  · have two : (twoDigits month).length = 2 := rfl
    rw [monthText, List.length_append, List.length_cons, two, fmtCaldate]
    simp only
    omega

/-! ## Following a link -/

/-- The value selects the month when it is passed back as `mn`. -/
def LeadsTo (text : Bytes) (m : Int × Int) : Prop :=
  ∀ (req : HttpRequest) (s : Server), req.queryString = some (linkQuery (str "mn") text) →
    ∃ s', parseQuery req s = .ok s' ∧ s'.conf.qry.type = .qryMonth ∧
      s'.conf.qry.action = .qaShow ∧ s'.conf.qry.mon.date = ⟨m.1, m.2, 1⟩

section Follow

variable {req : HttpRequest} {text : Bytes}

/-- Another parameter is not there. -/
theorem get_of_other (site : Site) (source : site.source = .query) (sep : site.sep = str "&")
    (other : str "mn" ≠ site.search) (plain : ∀ c ∈ str "mn" ++ 61 :: text, c ≠ 0 ∧ c ≠ 38)
    (query : req.queryString = some (linkQuery (str "mn") text)) :
    ∃ code, site.get req = .ok { code, write := [], bad := false } := by
  have whole : linkQuery (str "mn") text = str "mn" ++ 61 :: text := by
    simp [linkQuery, str]
  have array : req.array site.source = (str "mn" ++ 61 :: text) ++ [0] := by
    rw [source, ← whole]
    simp [HttpRequest.array, query]
  have noSep : ∀ c ∈ str "mn" ++ 61 :: text, decide (c ∈ site.sep) = false := by
    intro c inside
    rw [sep]
    simpa [str] using (plain c inside).2
  have noEq : ∀ c ∈ str "mn", decide (c = (61 : UInt8)) = false := by simp [str]
  obtain ⟨rest, name⟩ : ∃ rest, Tokens.pieces (· = (61 : UInt8)) (str "mn" ++ 61 :: text) =
      str "mn" :: rest :=
    ⟨_, Tokens.pieces_append_sep noEq (by decide) (decide_eq_true rfl) text⟩
  rw [Site.get, getHttpParam]
  split
  · exact ⟨_, rfl⟩
  · rw [array, cstr_append fun zero => (plain 0 zero).1 rfl,
      Tokens.pieces_of_plain noSep (by simp), searchParam, name]
    simp only [if_neg other]
    exact ⟨_, rfl⟩

theorem readQry_of_fits {site : Site} {p : Param} (got : site.get req = .ok p) {size : Nat}
    (fits : p.write.length ≤ size) (get : Query → Bytes) (set : Bytes → Query → Query) (s : Server) :
    Prog.Succeeds (readQry req site size get set s) := by
  rw [readQry]
  rw [got]
  simp only [bind, Except.bind, store, if_pos fits]
  exact .ok _

theorem readLocal_of_fits {site : Site} {p : Param} (got : site.get req = .ok p) {size : Nat}
    (fits : p.write.length ≤ size) (s : Server) : Prog.Succeeds (readLocal req site size s) := by
  rw [readLocal]
  rw [got]
  simp only [bind, Except.bind, store, if_pos fits]
  exact .ok _

/-- **A month passed back is the month selected.** -/
theorem leadsTo_monthText {year month : Nat} (is : MonthText text year month) :
    LeadsTo text (year, month) := by
  intro req s query
  have digits : ∀ c ∈ text, c ≠ 0 ∧ c ≠ 38 :=
    plain_of_notMem (is.plain (by decide) (by decide)) (is.plain (by decide) (by decide))
  have plain : ∀ c ∈ str "mn" ++ 61 :: text, c ≠ 0 ∧ c ≠ 38 := by
    intro c inside
    rw [List.append_cons, List.mem_append] at inside
    rcases inside with named | digit
    · exact plain_of_notMem (by decide) (by decide) c named
    · exact digits c digit
  have short := is.short
  have carries : PassesBack queryMonth req text := by
    refine passesBack_of_plain rfl rfl plain ?_ query
    have fits : ¬ queryMax < 2 + text.length + 2 := by
      rw [fmtCaldate] at short
      rw [queryMax]
      omega
    exact fun long => fits (of_decide_eq_true long)
  have some_ : text ≠ [] := by
    obtain ⟨yyyy, mm, rfl, -⟩ := is.written
    simp
  have got : queryMonth.get req =
      .ok { code := paramSuccess, write := text ++ [0], bad := false } := by
    have found := getHttpParam_of_carries queryMonth.n carries (by decide) (by decide)
      (is.plain (by decide) (by decide)) some_
    rw [Site.get]
    rw [found, show queryMonth.n = .upTo fmtCaldate from rfl, foundParam,
      if_neg (Nat.not_lt.2 short),
      scanUrlencoded_of_plain (is.plain (by decide) (by decide)) (is.plain (by decide) (by decide))]
  have given : queryMonth.value req = some text := by
    rw [Site.value, got]
    simp
  -- no other parameter is there, so that nothing is written before the month is read
  obtain ⟨c₁, ts⟩ := get_of_other queryTs rfl rfl (by decide) plain query
  obtain ⟨c₂, qry⟩ := get_of_other queryQry rfl rfl (by decide) plain query
  obtain ⟨c₃, tag⟩ := get_of_other queryTag rfl rfl (by decide) plain query
  obtain ⟨c₄, css⟩ := get_of_other queryCss rfl rfl (by decide) plain query
  obtain ⟨c₅, fmt⟩ := get_of_other queryFmt rfl rfl (by decide) plain query
  obtain ⟨s', parsed⟩ : Prog.Succeeds (parseQuery req s) := by
    rw [parseQuery, readTs, readCss]
    refine (readQry_of_fits ts (Nat.zero_le _) _ _ _).bind fun _ => ?_
    refine (readQry_of_fits qry (Nat.zero_le _) _ _ _).bind fun _ => ?_
    refine (readQry_of_fits tag (Nat.zero_le _) _ _ _).bind fun _ => ?_
    refine (readQry_of_fits css (Nat.zero_le _) _ _ _).bind fun _ => ?_
    refine (readLocal_of_fits fmt (Nat.zero_le _) _).bind fun _ => ?_
    refine (readLocal_of_fits got ?_ _).bind fun _ => .ok _
    rw [fmtCaldate] at short
    rw [List.length_append, List.length_singleton, sizeHttpArg, maxFmtLength]
    omega
  obtain ⟨type, action, date⟩ := parseQuery_selects parsed given is
  exact ⟨s', parsed, type, action, date⟩

end Follow

/-! ## Stepping the month -/

section Step

variable {year month day : Int} {m : Int × Int}

/-- A day that the month has is kept. -/
theorem caldateNormalize_kept (months : 12 * year + month = 12 * m.1 + m.2) (monthLow : 1 ≤ m.2)
    (monthHigh : m.2 ≤ 12) (low : 1 ≤ day) (high : day ≤ monthLength m.1 m.2) :
    caldateNormalize ⟨year, month, day⟩ = ⟨m.1, m.2, day⟩ := by
  refine caldateNormalize_of_mjd_eq ⟨monthLow, monthHigh, low, high⟩ ?_
  rw [caldateMjd_eq, caldateMjd_eq]
  simp only
  rw [dayNumber_congr months]

/-- A day that it does not have belongs to the month after. -/
theorem caldateNormalize_carried (months : 12 * year + month = 12 * m.1 + m.2) (monthLow : 1 ≤ m.2)
    (monthHigh : m.2 ≤ 12) (low : monthLength m.1 m.2 < day) (high : day ≤ 31) :
    caldateNormalize ⟨year, month, day⟩ =
      ⟨(nextMonth m).1, (nextMonth m).2, day - monthLength m.1 m.2⟩ := by
  obtain ⟨nextLow, nextHigh⟩ := nextMonth_bounds m.1 monthLow monthHigh
  have long := monthLength_bounds m.1 m.2
  have long' := monthLength_bounds (nextMonth m).1 (nextMonth m).2
  refine caldateNormalize_of_mjd_eq
    ⟨nextLow, nextHigh, by simp only; omega, by simp only; omega⟩ ?_
  have beyond := dayNumber_next_month m.1 monthLow monthHigh (day - monthLength m.1 m.2)
  have back := dayNumber_add m.1 m.2 (day - monthLength m.1 m.2) (monthLength m.1 m.2)
  rw [Int.sub_add_cancel] at back
  rw [caldateMjd_eq, caldateMjd_eq]
  simp only
  rw [dayNumber_congr months, dayNumber_nextMonth, beyond, ← back]

end Step

/-! ## Going on and back -/

/-- The links of a page lead to the month before, its own one and the month after,
and from there back again. -/
structure Navigates (mon : Caldate) : Prop where
  older : (printFooterHtml mon).older = monthText (prevMonth (mon.year, mon.month))
  whole : (printFooterHtml mon).whole = monthText (mon.year, mon.month)
  later : (printFooterHtml mon).later = monthText (nextMonth (mon.year, mon.month))
  olderLeads : LeadsTo (printFooterHtml mon).older (prevMonth (mon.year, mon.month))
  wholeLeads : LeadsTo (printFooterHtml mon).whole (mon.year, mon.month)
  laterLeads : LeadsTo (printFooterHtml mon).later (nextMonth (mon.year, mon.month))
  returns :
    let next := nextMonth (mon.year, mon.month)
    (printFooterHtml ⟨next.1, next.2, 1⟩).older = monthText (mon.year, mon.month)

/-- Both neighbours have the day, and the year after is not too long. -/
structure Steps (mon : Caldate) : Prop where
  before : mon.day ≤ monthLength (prevMonth (mon.year, mon.month)).1 (prevMonth (mon.year, mon.month)).2
  after : mon.day ≤ monthLength (nextMonth (mon.year, mon.month)).1 (nextMonth (mon.year, mon.month)).2
  last : ¬ (mon.year = 99999999 ∧ mon.month = 12)

section Page

variable {mon : Caldate}

/-- The first step, when the month before has the day. -/
theorem stepped_older (date : mon.IsDate)
    (before : mon.day ≤
      monthLength (prevMonth (mon.year, mon.month)).1 (prevMonth (mon.year, mon.month)).2) :
    caldateNormalize { mon with month := mon.month - 1 } =
      ⟨(prevMonth (mon.year, mon.month)).1, (prevMonth (mon.year, mon.month)).2, mon.day⟩ := by
  obtain ⟨monthLow, monthHigh⟩ := prevMonth_bounds mon.year date.month_pos date.month_le
  have months := months_prevMonth mon.year mon.month
  exact caldateNormalize_kept (by omega) monthLow monthHigh date.day_pos before

theorem older_of_step (date : mon.IsDate) (low : 1 ≤ mon.year) (high : mon.year < 10 ^ 8)
    (before : mon.day ≤
      monthLength (prevMonth (mon.year, mon.month)).1 (prevMonth (mon.year, mon.month)).2) :
    (printFooterHtml mon).older = monthText (prevMonth (mon.year, mon.month)) := by
  have monthLow : 1 ≤ mon.month := date.month_pos
  have monthHigh : mon.month ≤ 12 := date.month_le
  obtain ⟨prevLow, prevHigh⟩ := prevMonth_bounds mon.year monthLow monthHigh
  have months := months_prevMonth mon.year mon.month
  rw [printFooterHtml]
  simp only
  rw [stepped_older date before]
  exact monthField_eq ⟨prevLow, prevHigh, date.day_pos, before⟩ (by simp only; omega)
    (by simp only; omega)

/-- Otherwise it ends in the month it came from. -/
theorem older_of_carry (date : mon.IsDate) (low : 1 ≤ mon.year) (high : mon.year < 10 ^ 8)
    (beyond : monthLength (prevMonth (mon.year, mon.month)).1 (prevMonth (mon.year, mon.month)).2 <
      mon.day) :
    (printFooterHtml mon).older = monthText (mon.year, mon.month) := by
  have monthLow : 1 ≤ mon.month := date.month_pos
  have monthHigh : mon.month ≤ 12 := date.month_le
  have dayHigh : mon.day ≤ monthLength mon.year mon.month := date.day_le
  obtain ⟨prevLow, prevHigh⟩ := prevMonth_bounds mon.year monthLow monthHigh
  have months := months_prevMonth mon.year mon.month
  have long := monthLength_bounds mon.year mon.month
  have long' := monthLength_bounds (prevMonth (mon.year, mon.month)).1
    (prevMonth (mon.year, mon.month)).2
  have carried := caldateNormalize_carried (m := prevMonth (mon.year, mon.month))
    (show 12 * mon.year + (mon.month - 1) = _ by omega) prevLow prevHigh beyond (by omega)
  rw [nextMonth_prevMonth monthHigh] at carried
  rw [printFooterHtml]
  simp only
  rw [carried]
  exact monthField_eq ⟨monthLow, monthHigh, by simp only; omega, by simp only; omega⟩
    (by simp only; omega) (by simp only; omega)

/-- The second step starts where the first one ended. -/
theorem later_of_step (date : mon.IsDate) (low : 1 ≤ mon.year) (high : mon.year < 10 ^ 8)
    (steps : Steps mon) :
    (printFooterHtml mon).later = monthText (nextMonth (mon.year, mon.month)) := by
  have monthLow : 1 ≤ mon.month := date.month_pos
  have monthHigh : mon.month ≤ 12 := date.month_le
  obtain ⟨nextLow, nextHigh⟩ := nextMonth_bounds mon.year monthLow monthHigh
  have months := months_prevMonth mon.year mon.month
  have months' := months_nextMonth mon.year mon.month
  have last := steps.last
  rw [printFooterHtml]
  simp only
  rw [stepped_older date steps.before]
  simp only
  rw [caldateNormalize_kept (m := nextMonth (mon.year, mon.month)) (by omega) nextLow nextHigh
    date.day_pos steps.after]
  exact monthField_eq ⟨nextLow, nextHigh, date.day_pos, steps.after⟩ (by simp only; omega)
    (by simp only; omega)

/-- A day that the month after does not have leads one month too far. -/
theorem later_of_carry (date : mon.IsDate) (low : 1 ≤ mon.year) (high : mon.year < 10 ^ 8)
    (before : mon.day ≤
      monthLength (prevMonth (mon.year, mon.month)).1 (prevMonth (mon.year, mon.month)).2)
    (beyond : monthLength (nextMonth (mon.year, mon.month)).1 (nextMonth (mon.year, mon.month)).2 <
      mon.day) :
    (printFooterHtml mon).later = monthText (nextMonth (nextMonth (mon.year, mon.month))) := by
  have monthLow : 1 ≤ mon.month := date.month_pos
  have monthHigh : mon.month ≤ 12 := date.month_le
  have dayHigh : mon.day ≤ monthLength mon.year mon.month := date.day_le
  obtain ⟨nextLow, nextHigh⟩ := nextMonth_bounds mon.year monthLow monthHigh
  have months := months_prevMonth mon.year mon.month
  have months' := months_nextMonth mon.year mon.month
  generalize nextMonth (mon.year, mon.month) = next at *
  obtain ⟨year, month⟩ := next
  simp only at *
  obtain ⟨afterLow, afterHigh⟩ := nextMonth_bounds year nextLow nextHigh
  have months'' := months_nextMonth year month
  have long := monthLength_bounds mon.year mon.month
  have long' := monthLength_bounds year month
  have long'' := monthLength_bounds (nextMonth (year, month)).1 (nextMonth (year, month)).2
  -- a month of less than 31 days is neither January nor December
  have short : month ≠ 1 ∧ month ≠ 12 := by
    have full {m : Int} (named : m = 1 ∨ m = 12) : monthLength year m = 31 := by
      rcases named with rfl | rfl <;> rfl
    constructor <;> intro same
    · rw [same, full (.inl rfl)] at beyond
      omega
    · rw [same, full (.inr rfl)] at beyond
      omega
  rw [printFooterHtml]
  simp only
  rw [stepped_older date before]
  simp only
  rw [caldateNormalize_carried (m := (year, month)) (by simp only; omega) nextLow nextHigh beyond
    (by omega)]
  exact monthField_eq ⟨afterLow, afterHigh, by simp only; omega, by simp only; omega⟩
    (by simp only; omega) (by simp only; omega)

/-- The month after the last one has no link. -/
theorem later_of_last (date : mon.IsDate)
    (before : mon.day ≤
      monthLength (prevMonth (mon.year, mon.month)).1 (prevMonth (mon.year, mon.month)).2)
    (year : mon.year = 99999999) (month : mon.month = 12) : (printFooterHtml mon).later = [] := by
  have months := months_prevMonth mon.year mon.month
  have dayHigh : mon.day ≤ monthLength mon.year mon.month := date.day_le
  have january : monthLength (10 ^ 8) 1 = 31 := rfl
  have long := monthLength_bounds mon.year mon.month
  rw [printFooterHtml]
  simp only
  rw [stepped_older date before]
  simp only
  rw [caldateNormalize_kept (m := (10 ^ 8, 1)) (by simp only; omega) (by norm_num) (by norm_num)
    date.day_pos (by simp only; omega)]
  exact monthField_of_long rfl

theorem monthText_prevMonth_ne (monthLow : 1 ≤ mon.month) (monthHigh : mon.month ≤ 12) :
    monthText (mon.year, mon.month) ≠ monthText (prevMonth (mon.year, mon.month)) := by
  intro same
  obtain ⟨prevLow, prevHigh⟩ := prevMonth_bounds mon.year monthLow monthHigh
  have months := months_prevMonth mon.year mon.month
  rw [← monthText_inj monthLow monthHigh prevLow prevHigh same] at months
  simp only at months
  omega

theorem monthText_nextMonth_ne {m : Int × Int} (monthLow : 1 ≤ m.2) (monthHigh : m.2 ≤ 12) :
    monthText (nextMonth m) ≠ monthText m := by
  intro same
  obtain ⟨nextLow, nextHigh⟩ := nextMonth_bounds m.1 monthLow monthHigh
  have months := months_nextMonth m.1 m.2
  rw [monthText_inj nextLow nextHigh monthLow monthHigh same] at months
  omega

theorem leadsTo_month {m : Int × Int} (low : 0 ≤ m.1) (high : m.1 < 10 ^ 8) (monthLow : 1 ≤ m.2)
    (monthHigh : m.2 ≤ 12) : LeadsTo (monthText m) m := by
  have leads := leadsTo_monthText (monthText_is low high monthLow monthHigh)
  rw [Int.toNat_of_nonneg low, Int.toNat_of_nonneg (by omega)] at leads
  exact leads

/-- **The links are right exactly when both steps are.** -/
theorem navigates_iff (date : mon.IsDate) (low : 1 ≤ mon.year) (high : mon.year < 10 ^ 8) :
    Navigates mon ↔ Steps mon := by
  have monthLow : 1 ≤ mon.month := date.month_pos
  have monthHigh : mon.month ≤ 12 := date.month_le
  have dayLow : 1 ≤ mon.day := date.day_pos
  obtain ⟨prevLow, prevHigh⟩ := prevMonth_bounds mon.year monthLow monthHigh
  obtain ⟨nextLow, nextHigh⟩ := nextMonth_bounds mon.year monthLow monthHigh
  have months := months_prevMonth mon.year mon.month
  have months' := months_nextMonth mon.year mon.month
  constructor
  · intro navigates
    have before : mon.day ≤ monthLength (prevMonth (mon.year, mon.month)).1
        (prevMonth (mon.year, mon.month)).2 := by
      by_contra beyond
      have older := older_of_carry date low high (by omega)
      rw [navigates.older] at older
      exact monthText_prevMonth_ne monthLow monthHigh older.symm
    refine ⟨before, ?_, ?_⟩
    · by_contra beyond
      have later := later_of_carry date low high before (by omega)
      rw [navigates.later] at later
      exact monthText_nextMonth_ne nextLow nextHigh later.symm
    · rintro ⟨year, month⟩
      have later := later_of_last date before year month
      rw [navigates.later] at later
      exact monthText_ne_nil _ later
  · intro steps
    have last := steps.last
    have older := older_of_step date low high steps.before
    have later := later_of_step date low high steps
    have whole : (printFooterHtml mon).whole = monthText (mon.year, mon.month) :=
      monthField_eq date (by omega) high
    refine ⟨older, whole, later, ?_, ?_, ?_, ?_⟩
    · rw [older]
      exact leadsTo_month (by omega) (by omega) prevLow prevHigh
    · rw [whole]
      exact leadsTo_month (by simp only; omega) (by simp only; omega) monthLow monthHigh
    · rw [later]
      exact leadsTo_month (by omega) (by omega) nextLow nextHigh
    · intro next
      have long := monthLength_bounds next.1 next.2
      have long' := monthLength_bounds mon.year mon.month
      have back : prevMonth next = (mon.year, mon.month) := prevMonth_nextMonth monthLow
      have first : Caldate.IsDate ⟨next.1, next.2, 1⟩ :=
        ⟨nextLow, nextHigh, le_refl _, by simp only; omega⟩
      rw [← back]
      apply older_of_step first
      · show 1 ≤ (nextMonth (mon.year, mon.month)).1
        omega
      · show (nextMonth (mon.year, mon.month)).1 < 10 ^ 8
        omega
      · show 1 ≤ monthLength (prevMonth next).1 (prevMonth next).2
        rw [back]
        show 1 ≤ monthLength mon.year mon.month
        omega

end Page

/-- The month a page is about: the one of a parameter, by its first day, or the one
of today. -/
def PageMonth (req : HttpRequest) (mon : Caldate) : Prop :=
  (∃ (text : Bytes) (year month : Nat), queryMonth.value req = some text ∧
    MonthText text year month ∧ 1 ≤ month ∧ month ≤ 12 ∧ mon = ⟨year, month, 1⟩) ∨
    queryMonth.value req = none ∧ mon = dayOf req.leapsecs req.now

/-- **The links lead from month to month** when the day of the page's date, which
is the first with a parameter and the one of today without, is there in both
neighbours, but for the last month whose year fits. -/
theorem navigation_iff (req : HttpRequest) (s s' : Server) (fs fs' : Fs)
    (parsed : exec (parseRequest req s) fs = (.ok s', fs')) (mon : Caldate)
    (page : PageMonth req mon) (low : 1 ≤ mon.year) (high : mon.year ≤ 99999999) :
    s'.conf.qry.mon.date = mon ∧ (Navigates mon ↔ Steps mon) := by
  have shows := parseRequest_month parsed
  rcases page with ⟨text, year, month, given, is, monthLow, monthHigh, rfl⟩ | ⟨absent, rfl⟩
  · have long := monthLength_bounds year month
    refine ⟨shows.selected text year month given is, navigates_iff ?_ low (by omega)⟩
    exact ⟨by simp only; omega, by simp only; omega, le_refl _, by simp only; omega⟩
  · exact ⟨shows.today absent, navigates_iff (isDate_caldateFrommjd _) low (by omega)⟩

/-- Noon of a day of 2010, counted from 1 May, and no parameter. -/
def todayInMay (days : UInt64) : HttpRequest :=
  { HttpRequest.blank with now := ⟨4611686019700100000 + 86400 * days, 0, 0⟩ }

/-- On 7 May. -/
theorem navigation_sample : ∃ s' fs',
    exec (parseRequest (todayInMay 6) freshServer) Fs.empty = (.ok s', fs') ∧
      Navigates s'.conf.qry.mon.date := by
  obtain ⟨s', fs', parsed⟩ := Prog.exists_of_run_ok handle
    (show (exec (parseRequest (todayInMay 6) freshServer) Fs.empty).1.isOk = true by decide +kernel)
  refine ⟨s', fs', parsed, ?_⟩
  have day : dayOf [] (todayInMay 6).now = ⟨2010, 5, 7⟩ := by decide +kernel
  have page : PageMonth (todayInMay 6) ⟨2010, 5, 7⟩ := .inr ⟨by decide +kernel, day.symm⟩
  obtain ⟨date, links⟩ := navigation_iff (todayInMay 6) freshServer s' Fs.empty fs' parsed
    ⟨2010, 5, 7⟩ page (by decide) (by decide)
  rw [date]
  exact links.2 ⟨by decide, by decide, by decide⟩

/-- On 31 May there is no link to April. -/
theorem no_way_to_april : ¬ ∀ (req : HttpRequest) (s s' : Server) (fs fs' : Fs) (mon : Caldate),
    exec (parseRequest req s) fs = (.ok s', fs') → PageMonth req mon → 1 ≤ mon.year →
    mon.year ≤ 99999999 → Navigates s'.conf.qry.mon.date := by
  intro claim
  obtain ⟨s', fs', parsed⟩ := Prog.exists_of_run_ok handle
    (show (exec (parseRequest (todayInMay 30) freshServer) Fs.empty).1.isOk = true by decide +kernel)
  have day : dayOf [] (todayInMay 30).now = ⟨2010, 5, 31⟩ := by decide +kernel
  have absent : queryMonth.value (todayInMay 30) = none := by decide +kernel
  have navigates := claim (todayInMay 30) freshServer s' Fs.empty fs' ⟨2010, 5, 31⟩ parsed
    (.inr ⟨absent, day.symm⟩) (by decide) (by decide)
  have today : s'.conf.qry.mon.date = ⟨2010, 5, 31⟩ := by
    rw [(parseRequest_month parsed).today absent]
    exact day
  have older := navigates.older
  rw [today] at older
  exact absurd older (by decide +kernel)

end Bagunceiro
