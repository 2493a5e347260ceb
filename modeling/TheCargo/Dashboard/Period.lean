import TheCargo.Foundation.Calendar
import TheCargo.Foundation.Fallible

namespace TheCargo.Dashboard

open Foundation

inductive Period
  | today
  | last7d
  | last30d
  | mtd
  | qtd
  | custom
  deriving DecidableEq, Repr

def Period.value : Period → String
  | .today => "today"
  | .last7d => "7d"
  | .last30d => "30d"
  | .mtd => "mtd"
  | .qtd => "qtd"
  | .custom => "custom"

structure DateWindow where
  dateFrom : Date
  dateTo : Date
  deriving DecidableEq, Repr

def DateWindow.spanDays (w : DateWindow) : ℤ := (w.dateTo.toOrdinal : ℤ) - w.dateFrom.toOrdinal + 1

structure ResolvedPeriod where
  period : Period
  current : DateWindow
  prior : DateWindow
  label : String
  deriving DecidableEq, Repr

inductive Failure
  | httpException (status : ℕ) (detail : String)
  | overflowError
  | valueError
  deriving DecidableEq, Repr

def monthName (month : ℕ) : String :=
  ["Jan", "Feb", "Mar", "Apr", "May", "Jun", "Jul", "Aug", "Sep", "Oct", "Nov", "Dec"].getD (month - 1) ""

def fmtShort (d : Date) : String := monthName d.month ++ " " ++ toString d.day

def formatLabel (period : Period) (w : DateWindow) : String :=
  let datePart :=
    if w.dateFrom = w.dateTo then fmtShort w.dateFrom
    else if w.dateFrom.month = w.dateTo.month then fmtShort w.dateFrom ++ "–" ++ toString w.dateTo.day
    else fmtShort w.dateFrom ++ "–" ++ fmtShort w.dateTo
  match period with
  | .today => "Today · " ++ datePart
  | .last7d => "Last 7 days · " ++ datePart
  | .last30d => "Last 30 days · " ++ datePart
  | .mtd => "Month to date · " ++ datePart
  | .qtd => "Quarter to date · " ++ datePart
  | .custom => datePart

def date (year month day : ℕ) : Except Failure Date :=
  match Date.make year month day with
  | some d => .ok d
  | none => .error .valueError

def plusDays (d : Date) (days : ℤ) : Except Failure Date :=
  match d.addDays days with
  | some d => .ok d
  | none => .error .overflowError

def minDate (a b : Date) : Date := if b.toOrdinal < a.toOrdinal then b else a

def quarterStart (d : Date) : Except Failure Date := date d.year ((d.month - 1) / 3 * 3 + 1) 1

def sameDayBy (today prevMonthEnd : Date) : Except Failure Date :=
  if today.day ≤ prevMonthEnd.day then date prevMonthEnd.year prevMonthEnd.month today.day else .ok prevMonthEnd

def windows (period : Period) (today : Date) (dateFrom dateTo : Option Date) :
    Except Failure (DateWindow × DateWindow) :=
  match period with
  | .today => do
    let yesterday ← plusDays today (-1)
    return (⟨today, today⟩, ⟨yesterday, yesterday⟩)
  | .last7d => do
    let current ← plusDays today (-6)
    let priorFrom ← plusDays today (-13)
    let priorTo ← plusDays today (-7)
    return (⟨current, today⟩, ⟨priorFrom, priorTo⟩)
  | .last30d => do
    let current ← plusDays today (-29)
    let priorFrom ← plusDays today (-59)
    let priorTo ← plusDays today (-30)
    return (⟨current, today⟩, ⟨priorFrom, priorTo⟩)
  | .mtd => do
    let start ← date today.year today.month 1
    let prevMonthEnd ← plusDays start (-1)
    let prevMonthStart ← date prevMonthEnd.year prevMonthEnd.month 1
    let sameDay ← sameDayBy today prevMonthEnd
    return (⟨start, today⟩, ⟨prevMonthStart, minDate sameDay prevMonthEnd⟩)
  | .qtd => do
    let start ← quarterStart today
    let prevQEnd ← plusDays start (-1)
    let prevQStart ← quarterStart prevQEnd
    let sameSpan ← plusDays prevQStart ((today.toOrdinal : ℤ) - start.toOrdinal)
    return (⟨start, today⟩, ⟨prevQStart, minDate prevQEnd sameSpan⟩)
  | .custom =>
    match dateFrom, dateTo with
    | some dateFrom, some dateTo =>
      if dateTo.toOrdinal < dateFrom.toOrdinal then
        .error (.httpException 400 "date_to must be on or after date_from")
      else if (dateTo.toOrdinal : ℤ) - dateFrom.toOrdinal > 366 then
        .error (.httpException 400 "Custom range cannot exceed 366 days")
      else do
        let current : DateWindow := ⟨dateFrom, dateTo⟩
        let priorFrom ← plusDays dateFrom (-current.spanDays)
        let priorTo ← plusDays dateFrom (-1)
        return (current, ⟨priorFrom, priorTo⟩)
    | _, _ => .error (.httpException 400 "period=custom requires date_from and date_to")

/-- `today` is the day it is in the time zone of the call. -/
def resolvePeriod (period : Period) (today : Date) (dateFrom dateTo : Option Date) : Except Failure ResolvedPeriod := do
  let (current, prior) ← windows period today dateFrom dateTo
  return ⟨period, current, prior, formatLabel period current⟩

def FirstOf (month : ℕ × ℕ) (d : Date) : Prop := d.year = month.1 ∧ d.month = month.2 ∧ d.day = 1

def prevMonth (d : Date) : ℕ × ℕ := if d.month = 1 then (d.year - 1, 12) else (d.year, d.month - 1)

def quarter (d : Date) : ℕ × ℕ := (d.year, (d.month - 1) / 3 * 3 + 1)

def prevQuarter (d : Date) : ℕ × ℕ := if d.month ≤ 3 then (d.year - 1, 10) else (d.year, (d.month - 1) / 3 * 3 - 2)

def quarterLength (q : ℕ × ℕ) : ℕ := daysInMonth q.1 q.2 + daysInMonth q.1 (q.2 + 1) + daysInMonth q.1 (q.2 + 2)

structure Compares (current prior : DateWindow) : Prop where
  current_days : current.dateFrom.toOrdinal ≤ current.dateTo.toOrdinal
  prior_days : prior.dateFrom.toOrdinal ≤ prior.dateTo.toOrdinal
  apart : prior.dateTo.toOrdinal < current.dateFrom.toOrdinal

def LikeWithLike (period : Period) (today : Date) (current prior : DateWindow) : Prop :=
  match period with
  | .mtd => FirstOf (today.year, today.month) current.dateFrom ∧ current.dateTo = today ∧
      FirstOf (prevMonth today) prior.dateFrom ∧
      prior.spanDays = min today.day (daysInMonth (prevMonth today).1 (prevMonth today).2)
  | .qtd => FirstOf (quarter today) current.dateFrom ∧ current.dateTo = today ∧
      FirstOf (prevQuarter today) prior.dateFrom ∧
      prior.spanDays = min current.spanDays (quarterLength (prevQuarter today))
  | _ => prior.spanDays = current.spanDays ∧ prior.dateTo.toOrdinal + 1 = current.dateFrom.toOrdinal

def HasPrior (period : Period) (today : Date) : Prop :=
  match period with
  | .today => 1 < today.toOrdinal
  | .last7d => 13 < today.toOrdinal
  | .last30d => 59 < today.toOrdinal
  | .mtd => ¬ (today.year = 1 ∧ today.month = 1)
  | .qtd => ¬ (today.year = 1 ∧ today.month ≤ 3)
  | .custom => True

def monthOf (d : Date) : Date.Month := ⟨d.year, d.month, d.year_valid, d.month_valid⟩

def quarterOf (d : Date) : Date.Month :=
  ⟨d.year, (d.month - 1) / 3 * 3 + 1, d.year_valid, by have hmonth := d.month_valid; omega⟩

variable {d e today : Date} {i j : Date.Month} {days : ℤ}

lemma date_self (d : Date) : date d.year d.month d.day = .ok d := by rw [date, Date.make_self]

lemma date_first (i : Date.Month) : date i.year i.month 1 = .ok i.first := date_self i.first

lemma quarterStart_eq (d : Date) : quarterStart d = .ok (quarterOf d).first := date_first (quarterOf d)

lemma plusDays_ok (h : d.addDays days = some e) : plusDays d days = .ok e := by rw [plusDays, h]

lemma plusDays_overflow (h : d.addDays days = none) : plusDays d days = .error .overflowError := by rw [plusDays, h]

lemma minDate_toOrdinal (d e : Date) : (minDate d e).toOrdinal = min d.toOrdinal e.toOrdinal := by
  rw [minDate]
  split <;> omega

lemma back_ok (today : Date) (k : ℤ) (hlow : k < today.toOrdinal) (hhigh : 0 ≤ k) :
    ∃ e, plusDays today (-k) = .ok e ∧ (e.toOrdinal : ℤ) = today.toOrdinal - k := by
  obtain ⟨e, he, hord⟩ := Date.exists_addDays (d := today) (k := -k) (by omega) (by omega)
  exact ⟨e, plusDays_ok he, by omega⟩

lemma back_overflow {k : ℤ} (h : ¬ k < today.toOrdinal) : plusDays today (-k) = .error .overflowError :=
  plusDays_overflow (Date.addDays_eq_none (by omega))

lemma rolling_compares {n : ℤ} {start priorFrom priorTo : Date} (hn : 1 ≤ n)
    (hstart : (start.toOrdinal : ℤ) = today.toOrdinal - (n - 1))
    (hfrom : (priorFrom.toOrdinal : ℤ) = today.toOrdinal - (2 * n - 1))
    (hto : (priorTo.toOrdinal : ℤ) = today.toOrdinal - n) :
    (DateWindow.spanDays ⟨priorFrom, priorTo⟩ = DateWindow.spanDays ⟨start, today⟩ ∧
      priorTo.toOrdinal + 1 = start.toOrdinal) ∧ Compares ⟨start, today⟩ ⟨priorFrom, priorTo⟩ := by
  refine ⟨⟨?_, by omega⟩, ⟨?_, ?_, ?_⟩⟩ <;>
  · simp only [DateWindow.spanDays]
    omega

def Resolves (period : Period) (today : Date) (dateFrom dateTo : Option Date) : Prop :=
  ∃ current prior, windows period today dateFrom dateTo = .ok (current, prior) ∧
    LikeWithLike period today current prior ∧ Compares current prior

lemma resolves_today (h : 1 < today.toOrdinal) (dateFrom dateTo : Option Date) :
    Resolves .today today dateFrom dateTo := by
  obtain ⟨yesterday, hok, hord⟩ := back_ok today 1 (by omega) (by decide)
  have hsame : (today.toOrdinal : ℤ) = today.toOrdinal - (1 - 1) := by omega
  obtain ⟨hlike, hcompares⟩ := rolling_compares (n := 1) (by decide) hsame hord hord
  exact ⟨_, _, by rw [windows, hok]; rfl, hlike, hcompares⟩

lemma resolves_last7d (h : 13 < today.toOrdinal) (dateFrom dateTo : Option Date) :
    Resolves .last7d today dateFrom dateTo := by
  obtain ⟨start, hstart, hord⟩ := back_ok today 6 (by omega) (by decide)
  obtain ⟨priorFrom, hfrom, hord'⟩ := back_ok today 13 (by omega) (by decide)
  obtain ⟨priorTo, hto, hord''⟩ := back_ok today 7 (by omega) (by decide)
  obtain ⟨hlike, hcompares⟩ := rolling_compares (n := 7) (by decide) hord hord' hord''
  exact ⟨_, _, by rw [windows, hstart, hfrom, hto]; rfl, hlike, hcompares⟩

lemma resolves_last30d (h : 59 < today.toOrdinal) (dateFrom dateTo : Option Date) :
    Resolves .last30d today dateFrom dateTo := by
  obtain ⟨start, hstart, hord⟩ := back_ok today 29 (by omega) (by decide)
  obtain ⟨priorFrom, hfrom, hord'⟩ := back_ok today 59 (by omega) (by decide)
  obtain ⟨priorTo, hto, hord''⟩ := back_ok today 30 (by omega) (by decide)
  obtain ⟨hlike, hcompares⟩ := rolling_compares (n := 30) (by decide) hord hord' hord''
  exact ⟨_, _, by rw [windows, hstart, hfrom, hto]; rfl, hlike, hcompares⟩

lemma prevMonth_eq (h : Date.Month.Next i (monthOf today)) : prevMonth today = (i.year, i.month) := by
  have hmonth := i.month_valid
  rcases h with ⟨-, hyear, hmonth'⟩ | ⟨hi, hyear, hmonth'⟩
  · have hone : today.month ≠ 1 := by
      change (monthOf today).month ≠ 1
      omega
    rw [prevMonth, if_neg hone]
    exact Prod.ext hyear (Nat.sub_eq_of_eq_add hmonth')
  · have hyear' : today.year - 1 = i.year := Nat.sub_eq_of_eq_add hyear
    have hone : today.month = 1 := hmonth'
    rw [prevMonth, if_pos hone, hi, hyear']

lemma prevQuarter_eq (h : Date.Month.Next i (quarterOf today)) :
    prevQuarter today = (i.year, (i.month - 1) / 3 * 3 + 1) ∧ i.month = (i.month - 1) / 3 * 3 + 3 := by
  have hmonth := i.month_valid
  rcases h with ⟨hi, hyear, hmonth'⟩ | ⟨hi, hyear, hmonth'⟩
  · have hquarter : (today.month - 1) / 3 * 3 + 1 = i.month + 1 := hmonth'
    have hlate : ¬ today.month ≤ 3 := by omega
    rw [prevQuarter, if_neg hlate]
    refine ⟨Prod.ext hyear ?_, by omega⟩
    dsimp only
    omega
  · have hquarter : (today.month - 1) / 3 * 3 + 1 = 1 := hmonth'
    have hearly : today.month ≤ 3 := by omega
    have hyear' : today.year - 1 = i.year := Nat.sub_eq_of_eq_add hyear
    rw [prevQuarter, if_pos hearly, hi, hyear']
    exact ⟨rfl, rfl⟩

lemma sameDay_ok (i : Date.Month) (today : Date) :
    ∃ e, sameDayBy today i.last = .ok e ∧
      e.toOrdinal + 1 = i.first.toOrdinal + min today.day (daysInMonth i.year i.month) ∧
      e.toOrdinal ≤ i.last.toOrdinal := by
  have hday := today.day_valid
  have hlast : i.last.toOrdinal + 1 = i.first.toOrdinal + daysInMonth i.year i.month := by
    rw [Date.Month.last_toOrdinal, Date.daysBeforeMonth_succ i.month_valid.1, Date.Month.first_toOrdinal]
    omega
  by_cases hle : today.day ≤ daysInMonth i.year i.month
  · refine ⟨⟨i.year, i.month, today.day, i.year_valid, i.month_valid, hday.1, hle⟩, ?_, ?_, ?_⟩
    · exact (if_pos hle).trans (date_self ⟨i.year, i.month, today.day, i.year_valid, i.month_valid, hday.1, hle⟩)
    · rw [Nat.min_eq_left hle, Date.Month.first_toOrdinal]
      exact Nat.add_right_comm _ _ 1
    · exact Nat.add_le_add_left hle _
  · refine ⟨i.last, if_neg hle, ?_, Nat.le_refl _⟩
    rw [Nat.min_eq_right (Nat.le_of_not_le hle), hlast]

lemma resolves_mtd (h : ¬ (today.year = 1 ∧ today.month = 1)) (dateFrom dateTo : Option Date) :
    Resolves .mtd today dateFrom dateTo := by
  obtain ⟨i, hnext⟩ := Date.Month.exists_prev (monthOf today) h
  obtain ⟨e, hsame, hord, hle⟩ := sameDay_ok i today
  have hday := today.day_valid
  have hlength := Date.daysInMonth_pos i.year i.month
  have hstart : (monthOf today).first.toOrdinal + today.day = today.toOrdinal + 1 := by
    rw [Date.Month.first_toOrdinal, Date.toOrdinal]
    exact Nat.add_right_comm _ 1 _
  have hmin : (minDate e i.last).toOrdinal = e.toOrdinal := by rw [minDate_toOrdinal, Nat.min_eq_left hle]
  have hcompares : Compares ⟨(monthOf today).first, today⟩ ⟨i.first, minDate e i.last⟩ := by
    have happart := hnext.toOrdinal
    refine ⟨?_, ?_, ?_⟩ <;>
    · dsimp only
      omega
  refine ⟨⟨(monthOf today).first, today⟩, ⟨i.first, minDate e i.last⟩, ?_, ?_, hcompares⟩
  · have hdate : date today.year today.month 1 = .ok (monthOf today).first := date_first (monthOf today)
    have hprev : date i.last.year i.last.month 1 = .ok i.first := date_first i
    rw [windows, hdate]
    simp only [plusDays_ok hnext.addDays, hprev, hsame, bind, Except.bind]
    rfl
  · rw [LikeWithLike, prevMonth_eq hnext]
    refine ⟨⟨rfl, rfl, rfl⟩, rfl, ⟨rfl, rfl, rfl⟩, ?_⟩
    simp only [DateWindow.spanDays, hmin]
    omega

lemma quarterLength_eq (h : i.month = (i.month - 1) / 3 * 3 + 3) :
    i.last.toOrdinal + 1 = (quarterOf i.last).first.toOrdinal + quarterLength (i.year, (i.month - 1) / 3 * 3 + 1) := by
  rw [Date.Month.last_toOrdinal, Date.Month.first_toOrdinal]
  change daysBeforeYear i.year + daysBeforeMonth i.year (i.month + 1) + 1 =
    daysBeforeYear i.year + daysBeforeMonth i.year ((i.month - 1) / 3 * 3 + 1) + 1 + _
  generalize (i.month - 1) / 3 * 3 = q at *
  rw [h, Date.daysBeforeMonth_succ (by omega), Date.daysBeforeMonth_succ (by omega),
    Date.daysBeforeMonth_succ (by omega)]
  change _ = _ + (daysInMonth i.year (q + 1) + daysInMonth i.year (q + 2) + daysInMonth i.year (q + 3))
  omega

lemma resolves_qtd (h : ¬ (today.year = 1 ∧ today.month ≤ 3)) (dateFrom dateTo : Option Date) :
    Resolves .qtd today dateFrom dateTo := by
  have hfirst : ¬ ((quarterOf today).year = 1 ∧ (quarterOf today).month = 1) := by
    rintro ⟨hyear, hmonth⟩
    have hmonth' : (today.month - 1) / 3 * 3 + 1 = 1 := hmonth
    exact h ⟨hyear, by omega⟩
  obtain ⟨i, hnext⟩ := Date.Month.exists_prev (quarterOf today) hfirst
  obtain ⟨hprev, hend⟩ := prevQuarter_eq hnext
  have hlength := quarterLength_eq hend
  have hstart : (quarterOf today).first.toOrdinal ≤ today.toOrdinal := by
    have hmono := Date.daysBeforeMonth_mono (y := today.year) (m := (today.month - 1) / 3 * 3 + 1) (n := today.month)
      (by omega) (by have hmonth := today.month_valid; omega)
    have hday := today.day_valid
    exact Nat.add_le_add (Nat.add_le_add_left hmono _) hday.1
  have happart := hnext.toOrdinal
  have hpos : 1 ≤ quarterLength (i.year, (i.month - 1) / 3 * 3 + 1) := by
    have hlow := Date.daysInMonth_pos i.year ((i.month - 1) / 3 * 3 + 1)
    rw [quarterLength]
    dsimp only
    omega
  have hone := (quarterOf i.last).first.one_le_toOrdinal
  obtain ⟨e, he, hord⟩ : ∃ e, plusDays (quarterOf i.last).first
      ((today.toOrdinal : ℤ) - (quarterOf today).first.toOrdinal) = .ok e ∧
      (e.toOrdinal : ℤ) = (quarterOf i.last).first.toOrdinal +
        ((today.toOrdinal : ℤ) - (quarterOf today).first.toOrdinal) := by
    obtain ⟨e, he⟩ := Date.exists_ofOrdinal (d := today)
      (n := (quarterOf i.last).first.toOrdinal + ((today.toOrdinal : ℤ) - (quarterOf today).first.toOrdinal))
      (by omega) (by omega)
    exact ⟨e, plusDays_ok he, Date.toOrdinal_of_ofOrdinal he⟩
  have hmin := minDate_toOrdinal i.last e
  have hcompares : Compares ⟨(quarterOf today).first, today⟩ ⟨(quarterOf i.last).first, minDate i.last e⟩ := by
    refine ⟨?_, ?_, ?_⟩ <;>
    · dsimp only
      omega
  refine ⟨⟨(quarterOf today).first, today⟩, ⟨(quarterOf i.last).first, minDate i.last e⟩, ?_, ?_, hcompares⟩
  · rw [windows, quarterStart_eq]
    simp only [plusDays_ok hnext.addDays, quarterStart_eq, he, bind, Except.bind]
    rfl
  · rw [LikeWithLike, hprev]
    refine ⟨⟨rfl, rfl, rfl⟩, rfl, ⟨rfl, rfl, rfl⟩, ?_⟩
    simp only [DateWindow.spanDays]
    omega

lemma plusDays_cases (d : Date) (days : ℤ) :
    (∃ e, plusDays d days = .ok e) ∨ plusDays d days = .error .overflowError := by
  rw [plusDays]
  split
  · exact .inl ⟨_, rfl⟩
  · exact .inr rfl

lemma windows_overflow {period : Period} (hperiod : period ≠ .custom) (h : ¬ HasPrior period today)
    (dateFrom dateTo : Option Date) : windows period today dateFrom dateTo = .error .overflowError := by
  simp only [HasPrior] at h
  cases period with
  | today =>
    rw [windows, back_overflow (k := 1) (by omega)]
    rfl
  | last7d =>
    have hfrom : plusDays today (-13) = .error .overflowError := back_overflow (by omega)
    rw [windows, hfrom]
    rcases plusDays_cases today (-6) with ⟨e, he⟩ | he <;>
    · rw [he]
      rfl
  | last30d =>
    have hfrom : plusDays today (-59) = .error .overflowError := back_overflow (by omega)
    rw [windows, hfrom]
    rcases plusDays_cases today (-29) with ⟨e, he⟩ | he <;>
    · rw [he]
      rfl
  | mtd =>
    have hmonth := not_not.mp h
    have hdate : date today.year today.month 1 = .ok (monthOf today).first := date_first (monthOf today)
    have hbefore := Date.Month.first_addDays_none (j := monthOf today) hmonth.1 hmonth.2
    rw [windows, hdate]
    simp only [bind, Except.bind, plusDays_overflow hbefore]
  | qtd =>
    obtain ⟨hyear, hmonth⟩ := not_not.mp h
    have hfirst : (quarterOf today).month = 1 := by
      change (today.month - 1) / 3 * 3 + 1 = 1
      omega
    have hbefore := Date.Month.first_addDays_none (j := quarterOf today) hyear hfirst
    rw [windows, quarterStart_eq]
    simp only [bind, Except.bind, plusDays_overflow hbefore]
  | custom => exact absurd rfl hperiod

theorem resolvePeriod_presets (period : Period) (h : period ≠ .custom) (today : Date) (dateFrom dateTo : Option Date) :
    (HasPrior period today → ∃ r, resolvePeriod period today dateFrom dateTo = .ok r ∧
      LikeWithLike period today r.current r.prior ∧ Compares r.current r.prior) ∧
    (¬ HasPrior period today → resolvePeriod period today dateFrom dateTo = .error .overflowError) := by
  constructor
  · intro hprior
    have hresolves : Resolves period today dateFrom dateTo := by
      cases period with
      | today => exact resolves_today hprior dateFrom dateTo
      | last7d => exact resolves_last7d hprior dateFrom dateTo
      | last30d => exact resolves_last30d hprior dateFrom dateTo
      | mtd => exact resolves_mtd hprior dateFrom dateTo
      | qtd => exact resolves_qtd hprior dateFrom dateTo
      | custom => exact absurd rfl h
    obtain ⟨current, prior, hok, hlike, hcompares⟩ := hresolves
    exact ⟨_, by rw [resolvePeriod, hok]; rfl, hlike, hcompares⟩
  · intro hprior
    rw [resolvePeriod, windows_overflow h hprior]
    rfl

def leapDay : Date := ⟨2024, 2, 29, by decide, by decide, by decide⟩

theorem resolvePeriod_leapDay : Period.mtd ≠ .custom ∧ HasPrior .mtd leapDay ∧
    ∃ r, resolvePeriod .mtd leapDay none none = .ok r ∧ LikeWithLike .mtd leapDay r.current r.prior ∧
      Compares r.current r.prior :=
  have hprior : HasPrior .mtd leapDay := fun h => absurd h.1 (by decide)
  ⟨by decide, hprior, (resolvePeriod_presets .mtd (by decide) leapDay none none).1 hprior⟩

def firstDay : Date := ⟨1, 1, 1, by decide, by decide, by decide⟩

theorem resolvePeriod_firstDay : ¬ ∃ r, resolvePeriod .today firstDay none none = .ok r := by
  have hprior : ¬ HasPrior .today firstDay := by
    change ¬ 1 < firstDay.toOrdinal
    decide
  have hfirst : resolvePeriod .today firstDay none none = .error .overflowError := by
    rw [resolvePeriod, windows_overflow (by decide) hprior]
    rfl
  rintro ⟨r, hr⟩
  exact absurd (hfirst.symm.trans hr) (by simp)

def Refused (dateFrom dateTo : Option Date) : Prop :=
  ∀ a b, dateFrom = some a → dateTo = some b → b.toOrdinal < a.toOrdinal ∨ 366 < DateWindow.spanDays ⟨a, b⟩

def CustomWindows (dateFrom dateTo : Option Date) (r : ResolvedPeriod) : Prop :=
  ∃ a b, dateFrom = some a ∧ dateTo = some b ∧ r.current = ⟨a, b⟩ ∧ r.prior.spanDays = r.current.spanDays ∧
    r.prior.dateTo.toOrdinal + 1 = a.toOrdinal

structure AcceptsCustom (today : Date) (dateFrom dateTo : Option Date) : Prop where
  refuses : (∃ detail, resolvePeriod .custom today dateFrom dateTo = .error (.httpException 400 detail)) ↔
    Refused dateFrom dateTo
  returns : ∀ r, resolvePeriod .custom today dateFrom dateTo = .ok r → CustomWindows dateFrom dateTo r
  escapes : ∀ e, resolvePeriod .custom today dateFrom dateTo = .error e → ∃ detail, e = .httpException 400 detail

def CustomFits (dateFrom dateTo : Option Date) : Prop :=
  ∀ a b, dateFrom = some a → dateTo = some b → a.toOrdinal ≤ b.toOrdinal →
    DateWindow.spanDays ⟨a, b⟩ ≠ 367 ∧
      (DateWindow.spanDays ⟨a, b⟩ ≤ 366 → DateWindow.spanDays ⟨a, b⟩ < a.toOrdinal)

variable {dateFrom dateTo : Option Date} {a b : Date}

lemma accepts_refused {detail : String}
    (herror : resolvePeriod .custom today dateFrom dateTo = .error (.httpException 400 detail))
    (h : Refused dateFrom dateTo) : AcceptsCustom today dateFrom dateTo where
  refuses := iff_of_true ⟨detail, herror⟩ h
  returns r hr := absurd (herror.symm.trans hr) (by simp)
  escapes e he := ⟨detail, (Except.error.inj (herror.symm.trans he)).symm⟩

lemma accepts_returned {r : ResolvedPeriod} (hr : resolvePeriod .custom today dateFrom dateTo = .ok r)
    (hwindows : CustomWindows dateFrom dateTo r) :
    AcceptsCustom today dateFrom dateTo ↔ ¬ Refused dateFrom dateTo := by
  have hnone : ¬ ∃ detail, resolvePeriod .custom today dateFrom dateTo = .error (.httpException 400 detail) := by
    rintro ⟨detail, herror⟩
    exact absurd (hr.symm.trans herror) (by simp)
  constructor
  · intro haccepts hrefused
    exact hnone (haccepts.refuses.mpr hrefused)
  · intro hin
    refine ⟨iff_of_false hnone hin, ?_, ?_⟩
    · intro r' hr'
      exact Except.ok.inj (hr.symm.trans hr') ▸ hwindows
    · intro e he
      exact absurd (hr.symm.trans he) (by simp)

lemma custom_short (today : Date) (hle : a.toOrdinal ≤ b.toOrdinal) (hspan : DateWindow.spanDays ⟨a, b⟩ ≤ 367)
    (hroom : DateWindow.spanDays ⟨a, b⟩ < a.toOrdinal) :
    ∃ r, resolvePeriod .custom today (some a) (some b) = .ok r ∧ CustomWindows (some a) (some b) r := by
  have hlong : ¬ (b.toOrdinal : ℤ) - a.toOrdinal > 366 := by
    simp only [DateWindow.spanDays] at hspan
    omega
  obtain ⟨priorFrom, hfrom, hord⟩ := back_ok a (DateWindow.spanDays ⟨a, b⟩) hroom
    (by simp only [DateWindow.spanDays]; omega)
  obtain ⟨priorTo, hto, hord'⟩ := back_ok a 1 (by simp only [DateWindow.spanDays] at hroom; omega) (by decide)
  refine ⟨⟨.custom, ⟨a, b⟩, ⟨priorFrom, priorTo⟩, formatLabel .custom ⟨a, b⟩⟩, ?_, a, b, rfl, rfl, rfl, ?_, ?_⟩
  · simp only [resolvePeriod, windows, if_neg (Nat.not_lt.mpr hle), if_neg hlong, hfrom, hto, bind, Except.bind]
    rfl
  · simp only [DateWindow.spanDays] at hord ⊢
    omega
  · dsimp only
    omega

lemma custom_overflow (today : Date) (hle : a.toOrdinal ≤ b.toOrdinal) (hspan : DateWindow.spanDays ⟨a, b⟩ ≤ 367)
    (hroom : ¬ DateWindow.spanDays ⟨a, b⟩ < a.toOrdinal) :
    resolvePeriod .custom today (some a) (some b) = .error .overflowError := by
  have hlong : ¬ (b.toOrdinal : ℤ) - a.toOrdinal > 366 := by
    simp only [DateWindow.spanDays] at hspan
    omega
  simp only [resolvePeriod, windows, if_neg (Nat.not_lt.mpr hle), if_neg hlong, back_overflow hroom, bind, Except.bind]

theorem custom_accepts_iff (today : Date) (dateFrom dateTo : Option Date) :
    AcceptsCustom today dateFrom dateTo ↔ CustomFits dateFrom dateTo := by
  match dateFrom, dateTo with
  | none, _ => exact iff_of_true (accepts_refused rfl (fun _ _ h => nomatch h)) (fun _ _ h => nomatch h)
  | some a, none => exact iff_of_true (accepts_refused rfl (fun _ _ _ h => nomatch h)) (fun _ _ _ h => nomatch h)
  | some a, some b =>
    have hfits : CustomFits (some a) (some b) ↔ (a.toOrdinal ≤ b.toOrdinal → DateWindow.spanDays ⟨a, b⟩ ≠ 367 ∧
        (DateWindow.spanDays ⟨a, b⟩ ≤ 366 → DateWindow.spanDays ⟨a, b⟩ < a.toOrdinal)) :=
      ⟨fun h => h a b rfl rfl, by rintro h _ _ ⟨⟩ ⟨⟩; exact h⟩
    have hrefused : Refused (some a) (some b) ↔ (b.toOrdinal < a.toOrdinal ∨ 366 < DateWindow.spanDays ⟨a, b⟩) :=
      ⟨fun h => h a b rfl rfl, by rintro h _ _ ⟨⟩ ⟨⟩; exact h⟩
    rw [hfits]
    by_cases hlt : b.toOrdinal < a.toOrdinal
    · have herror : resolvePeriod .custom today (some a) (some b) =
          .error (.httpException 400 "date_to must be on or after date_from") := by
        simp only [resolvePeriod, windows, if_pos hlt, bind, Except.bind]
      exact iff_of_true (accepts_refused herror (hrefused.mpr (.inl hlt))) (fun hle => absurd hlt (Nat.not_lt.mpr hle))
    have hle := Nat.not_lt.mp hlt
    by_cases hlong : 367 < DateWindow.spanDays ⟨a, b⟩
    · have hdiff : (b.toOrdinal : ℤ) - a.toOrdinal > 366 := by
        simp only [DateWindow.spanDays] at hlong
        omega
      have herror : resolvePeriod .custom today (some a) (some b) =
          .error (.httpException 400 "Custom range cannot exceed 366 days") := by
        simp only [resolvePeriod, windows, if_neg hlt, if_pos hdiff, bind, Except.bind]
      exact iff_of_true (accepts_refused herror (hrefused.mpr (.inr (by omega)))) (fun _ => ⟨by omega, by omega⟩)
    have hspan := Int.not_lt.mp hlong
    by_cases hroom : DateWindow.spanDays ⟨a, b⟩ < a.toOrdinal
    · obtain ⟨r, hr, hwindows⟩ := custom_short today hle hspan hroom
      rw [accepts_returned hr hwindows, hrefused]
      constructor
      · intro hin _
        exact ⟨by omega, fun _ => hroom⟩
      · intro h
        have hspan' := (h hle).1
        omega
    · have herror := custom_overflow today hle hspan hroom
      refine iff_of_false (fun haccepts => ?_) (fun h => ?_)
      · obtain ⟨detail, hdetail⟩ := haccepts.escapes _ herror
        exact absurd hdetail (by simp)
      · have hfit := h hle
        omega

def newYear : Date := ⟨2023, 1, 1, by decide, by decide, by decide⟩

def dayAfterNextNewYear : Date := ⟨2024, 1, 2, by decide, by decide, by decide⟩

theorem custom_dayTooLong : DateWindow.spanDays ⟨newYear, dayAfterNextNewYear⟩ = 367 ∧
    ¬ AcceptsCustom leapDay (some newYear) (some dayAfterNextNewYear) := by
  have hspan : DateWindow.spanDays ⟨newYear, dayAfterNextNewYear⟩ = 367 := by decide
  refine ⟨hspan, fun haccepts => ?_⟩
  obtain ⟨r, hr, -⟩ := custom_short (a := newYear) (b := dayAfterNextNewYear) leapDay (by decide) (by omega)
    (by rw [hspan]; decide)
  obtain ⟨detail, herror⟩ := haccepts.refuses.mpr (by rintro _ _ ⟨⟩ ⟨⟩; exact .inr (by omega))
  exact absurd (hr.symm.trans herror) (by simp)

end TheCargo.Dashboard
