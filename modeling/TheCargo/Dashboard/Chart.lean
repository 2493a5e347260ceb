import TheCargo.Dashboard.Figures
import TheCargo.Foundation.Series

namespace TheCargo.Dashboard

open Foundation

/-- A row of the day; an amount the row lacks or has as `None` is `none`. -/
structure DailyRow where
  bucketDate : Date
  chargedCents : Option ℤ
  dispatchedRevenueCents : Option ℤ
  deriving DecidableEq

structure DayTotals where
  day : Date
  charged : ℤ
  dispatched : ℤ
  deriving DecidableEq

def DailyRow.charged (row : DailyRow) : ℤ := row.chargedCents.getD 0

def DailyRow.dispatched (row : DailyRow) : ℤ := row.dispatchedRevenueCents.getD 0

def dayTotals (rowsByDate : Dict Date DailyRow) (cursor : Date) : DayTotals :=
  match rowsByDate.get? cursor with
  | none => ⟨cursor, 0, 0⟩
  | some row => ⟨cursor, row.charged, row.dispatched⟩

/-- Nothing where the step past a day raises `OverflowError`. -/
def fillDailyGaps (rowsByDate : Dict Date DailyRow) (cursor toDate : Date) : Option (List DayTotals) :=
  if cursor.toOrdinal ≤ toDate.toOrdinal then
    match _hnext : cursor.addDays 1 with
    | none => none
    | some next => (fillDailyGaps rowsByDate next toDate).map (fun out => dayTotals rowsByDate cursor :: out)
  else some []
termination_by toDate.toOrdinal + 1 - cursor.toOrdinal
decreasing_by
  have hord := Date.addDays_eq_some.mp _hnext
  omega

def byDate (dailyRows : List DailyRow) : Dict Date DailyRow :=
  (dailyRows.map (fun row => (row.bucketDate, row))).foldl (fun d e => d.set e.1 e.2) Dict.empty

def chartLabel (d : Date) : String := fmtShort d

def weekdayName (d : Date) : String := ["Sun", "Mon", "Tue", "Wed", "Thu", "Fri", "Sat"].getD (d.toOrdinal % 7) ""

def dateLong (d : Date) : String := fmtShort d ++ ", " ++ weekdayName d

def shortRangeLabel (start finish : Date) : String :=
  if start = finish then chartLabel start
  else if start.month = finish.month then chartLabel start ++ "–" ++ toString finish.day
  else chartLabel start ++ "–" ++ chartLabel finish

structure ChartSeries where
  labels : List String
  charged : List PyFloat
  dispatched : List PyFloat
  titleMeta : String
  deriving DecidableEq

def chartValue (cents : ℤ) : Option PyFloat := do
  let amount ← PyFloat.ofInt cents
  return PyFloat.ofRat (halfEven (PyFloat.nearest (amount / 100) * 100) / 100)

def buildChart (dailyRows : List DailyRow) (windowFrom windowTo : Date) : Option ChartSeries := do
  let padded ← fillDailyGaps (byDate dailyRows) windowFrom windowTo
  let charged ← padded.mapM (fun e => chartValue e.charged)
  let dispatched ← padded.mapM (fun e => chartValue e.dispatched)
  return ⟨padded.map (fun e => chartLabel e.day), charged, dispatched, shortRangeLabel windowFrom windowTo⟩

structure ChartPoint where
  amount : String
  date : String
  deriving DecidableEq

structure FootColumn where
  highest : ChartPoint
  lowest : ChartPoint
  average : String
  deriving DecidableEq

structure ChartFoot where
  charged : FootColumn
  dispatched : FootColumn
  deriving DecidableEq

def chartPoint (cents : ℤ) (d : Date) : Option ChartPoint := do
  let amount ← fmtMoney cents
  return ⟨amount, dateLong d⟩

def averageCents (amount : DayTotals → ℤ) (padded : List DayTotals) : Option ℤ :=
  (PyFloat.trueDiv (padded.map amount).sum padded.length).map PyFloat.trunc

def footColumn (amount : DayTotals → ℤ) (padded : List DayTotals) : Option FootColumn := do
  let high ← (sortedBy amount padded).getLast?
  let low ← (sortedBy amount padded).head?
  let avg ← averageCents amount padded
  let highest ← chartPoint (amount high) high.day
  let lowest ← chartPoint (amount low) low.day
  let average ← fmtMoney avg
  return ⟨highest, lowest, average⟩

def zeroColumn : FootColumn := ⟨⟨"$0", "—"⟩, ⟨"$0", "—"⟩, "$0"⟩

def footOf (padded : List DayTotals) : Option ChartFoot :=
  if padded = [] then some ⟨zeroColumn, zeroColumn⟩
  else do
    let charged ← footColumn DayTotals.charged padded
    let dispatched ← footColumn DayTotals.dispatched padded
    return ⟨charged, dispatched⟩

def buildFoot (dailyRows : List DailyRow) (windowFrom windowTo : Date) : Option ChartFoot := do
  let padded ← fillDailyGaps (byDate dailyRows) windowFrom windowTo
  footOf padded

variable {rows : Dict Date DailyRow} {dailyRows : List DailyRow} {a b : Date}

lemma fillDailyGaps_last (rows : Dict Date DailyRow) (a : Date) : fillDailyGaps rows a Date.last = none := by
  have hle := a.toOrdinal_le_last
  induction hn : Date.last.toOrdinal - a.toOrdinal using Nat.strongRecOn generalizing a with
  | ind n ih =>
    rw [fillDailyGaps, if_pos hle]
    split
    · rfl
    · next next hnext =>
      have hord := Date.addDays_eq_some.mp hnext
      have hle' := next.toOrdinal_le_last
      rw [ih _ (by omega) next hle' rfl, Option.map_none]

def Covers (days : List Date) (a b : Date) : Prop :=
  days.map Date.toOrdinal = List.range' a.toOrdinal (b.toOrdinal + 1 - a.toOrdinal)

lemma fillDailyGaps_eq (hb : b.toOrdinal < Date.last.toOrdinal) (ha : a.toOrdinal ≤ b.toOrdinal + 1) :
    ∃ days, Covers days a b ∧ ∀ rows, fillDailyGaps rows a b = some (days.map (dayTotals rows)) := by
  induction hn : b.toOrdinal + 1 - a.toOrdinal generalizing a with
  | zero =>
    refine ⟨[], ?_, ?_⟩
    · rw [Covers, hn]
      rfl
    · intro rows
      rw [fillDailyGaps, if_neg (by omega)]
      rfl
  | succ n ih =>
    obtain ⟨next, hnext, hord⟩ := Date.exists_next (d := a) (e := Date.last) (by omega)
    obtain ⟨days, hcovers, hfill⟩ := ih (a := next) (by omega) (by omega)
    refine ⟨a :: days, ?_, ?_⟩
    · rw [Covers, hord] at hcovers
      rw [Covers, List.map_cons, hcovers, hn, List.range'_succ, show b.toOrdinal + 1 - (a.toOrdinal + 1) = n by omega]
    · intro rows
      rw [fillDailyGaps, if_pos (by omega)]
      split
      · next hnone => exact absurd (hnone.symm.trans hnext) (by simp)
      · next next' hsome =>
        obtain rfl := Option.some.inj (hsome.symm.trans hnext)
        rw [hfill rows]
        rfl

def inside (dailyRows : List DailyRow) (a b : Date) : List DailyRow :=
  dailyRows.filter (fun row => a.toOrdinal ≤ row.bucketDate.toOrdinal ∧ row.bucketDate.toOrdinal ≤ b.toOrdinal)

structure Conserves (dailyRows : List DailyRow) (a b : Date) (series : List DayTotals) : Prop where
  days : Covers (series.map DayTotals.day) a b
  charged : (series.map DayTotals.charged).sum = ((inside dailyRows a b).map DailyRow.charged).sum
  dispatched : (series.map DayTotals.dispatched).sum = ((inside dailyRows a b).map DailyRow.dispatched).sum
  outside : fillDailyGaps (byDate (inside dailyRows a b)) a b = some series

def truncatedMean (amounts : List ℤ) : ℤ := amounts.sum.tdiv amounts.length

structure Describes (amount : DayTotals → ℤ) (series : List DayTotals) (column : FootColumn) : Prop where
  highest : ∃ e, LastGreatest amount (fun e => e.day.toOrdinal) series e ∧
    chartPoint (amount e) e.day = some column.highest ∧ truncatedMean (series.map amount) ≤ amount e
  lowest : ∃ e, FirstLeast amount (fun e => e.day.toOrdinal) series e ∧
    chartPoint (amount e) e.day = some column.lowest ∧ amount e ≤ truncatedMean (series.map amount)
  mean : averageCents amount series = some (truncatedMean (series.map amount))
  average : fmtMoney (truncatedMean (series.map amount)) = some column.average

def Draws (series : List DayTotals) (chart : ChartSeries) : Prop :=
  chart.labels = series.map (fun e => chartLabel e.day) ∧
    series.mapM (fun e => chartValue e.charged) = some chart.charged ∧
    series.mapM (fun e => chartValue e.dispatched) = some chart.dispatched

def ChartAgrees (dailyRows : List DailyRow) (a b : Date) : Prop :=
  ∃ series foot chart, fillDailyGaps (byDate dailyRows) a b = some series ∧ Conserves dailyRows a b series ∧
    buildFoot dailyRows a b = some foot ∧ Describes DayTotals.charged series foot.charged ∧
    Describes DayTotals.dispatched series foot.dispatched ∧ buildChart dailyRows a b = some chart ∧ Draws series chart

def FitsFloat (cents : ℤ) : Prop := (PyFloat.ofInt cents).isSome

structure ChartFits (dailyRows : List DailyRow) (a b : Date) : Prop where
  notLast : b ≠ Date.last
  amounts : ∀ row ∈ inside dailyRows a b, FitsFloat row.charged ∧ FitsFloat row.dispatched
  charged : PyFloat.KeepsWhole
    ((((inside dailyRows a b).map DailyRow.charged).sum : ℚ) / (b.toOrdinal + 1 - a.toOrdinal : ℕ))
  dispatched : PyFloat.KeepsWhole
    ((((inside dailyRows a b).map DailyRow.dispatched).sum : ℚ) / (b.toOrdinal + 1 - a.toOrdinal : ℕ))

section Lookup

lemma byDate_get? (h : (dailyRows.map DailyRow.bucketDate).Nodup) (d : Date) :
    (byDate dailyRows).get? d = lookup d (dailyRows.map (fun row => (row.bucketDate, row))) := by
  have hkeys : (dailyRows.map (fun row => (row.bucketDate, row))).map Prod.fst = dailyRows.map DailyRow.bucketDate := by
    rw [List.map_map]
    rfl
  rw [byDate, Dict.get?_foldl_set _ (hkeys ▸ h)]
  exact Option.or_none

lemma rows_on_day (h : (dailyRows.map DailyRow.bucketDate).Nodup) (d : Date) :
    dailyRows.filter (fun row => row.bucketDate = d) = ((byDate dailyRows).get? d).toList := by
  have hkeys : ((dailyRows.map (fun row => (row.bucketDate, row))).map Prod.fst).Nodup := by
    rw [List.map_map]
    exact h
  have hpairs := filter_key d hkeys
  rw [← byDate_get? h, List.filter_map] at hpairs
  have hmap := congrArg (List.map Prod.snd) hpairs
  rw [List.map_map] at hmap
  cases hget : (byDate dailyRows).get? d with
  | none =>
    rw [hget] at hmap
    simpa [Function.comp_def] using hmap
  | some row =>
    rw [hget] at hmap
    simpa [Function.comp_def] using hmap

lemma dayTotals_day (rows : Dict Date DailyRow) (d : Date) : (dayTotals rows d).day = d := by
  rw [dayTotals]
  split <;> rfl

structure Reads (amount : DayTotals → ℤ) (own : DailyRow → ℤ) : Prop where
  absent : ∀ d, amount ⟨d, 0, 0⟩ = 0
  present : ∀ d row, amount ⟨d, row.charged, row.dispatched⟩ = own row

lemma reads_charged : Reads DayTotals.charged DailyRow.charged := ⟨fun _ => rfl, fun _ _ => rfl⟩

lemma reads_dispatched : Reads DayTotals.dispatched DailyRow.dispatched := ⟨fun _ => rfl, fun _ _ => rfl⟩

variable {amount : DayTotals → ℤ} {own : DailyRow → ℤ}

lemma Reads.on_day (hreads : Reads amount own) (h : (dailyRows.map DailyRow.bucketDate).Nodup) (d : Date) :
    amount (dayTotals (byDate dailyRows) d) = ((dailyRows.filter (fun row => row.bucketDate = d)).map own).sum := by
  rw [rows_on_day h, dayTotals]
  cases (byDate dailyRows).get? d with
  | none => simpa using hreads.absent d
  | some row => simpa using hreads.present d row

lemma Reads.on_day_cases (hreads : Reads amount own) (rows : Dict Date DailyRow) (d : Date) :
    (rows.get? d = none ∧ amount (dayTotals rows d) = 0) ∨
      ∃ row, rows.get? d = some row ∧ amount (dayTotals rows d) = own row := by
  rw [dayTotals]
  cases hget : rows.get? d with
  | none => exact .inl ⟨rfl, hreads.absent d⟩
  | some row => exact .inr ⟨row, rfl, hreads.present d row⟩

end Lookup

section Days

variable {days : List Date}

lemma Covers.mem_iff (h : Covers days a b) (d : Date) :
    d ∈ days ↔ a.toOrdinal ≤ d.toOrdinal ∧ d.toOrdinal ≤ b.toOrdinal := by
  have hmem : d ∈ days ↔ d.toOrdinal ∈ days.map Date.toOrdinal :=
    (List.mem_map_of_injective Date.toOrdinal_injective).symm
  rw [hmem, h, List.mem_range'_1]
  omega

lemma Covers.nodup (h : Covers days a b) : days.Nodup := by
  apply List.Nodup.of_map Date.toOrdinal
  rw [h]
  exact List.nodup_range'

lemma Covers.length (h : Covers days a b) : days.length = b.toOrdinal + 1 - a.toOrdinal := by
  rw [← List.length_map Date.toOrdinal, h, List.length_range']

lemma Covers.ascending {series : List DayTotals} (h : Covers (series.map DayTotals.day) a b) :
    series.Pairwise (fun e f => e.day.toOrdinal ≤ f.day.toOrdinal) := by
  rw [Covers, List.map_map] at h
  have hpairwise : (series.map (Date.toOrdinal ∘ DayTotals.day)).Pairwise (· ≤ ·) := by
    rw [h]
    exact List.pairwise_le_range'
  exact List.pairwise_map.mp hpairwise

lemma Covers.inside_eq (h : Covers days a b) (dailyRows : List DailyRow) :
    inside dailyRows a b = dailyRows.filter (fun row => row.bucketDate ∈ days) := by
  apply List.filter_congr
  intro row _
  rw [decide_eq_decide, h.mem_iff]

lemma inside_on_day (dailyRows : List DailyRow) (h : Covers days a b) {d : Date} (hd : d ∈ days) :
    (inside dailyRows a b).filter (fun row => row.bucketDate = d) =
      dailyRows.filter (fun row => row.bucketDate = d) := by
  rw [h.inside_eq, List.filter_filter]
  apply List.filter_congr
  intro row _
  by_cases hrow : row.bucketDate = d
  · simp [hrow, hd]
  · simp [hrow]

lemma Reads.total (hreads : Reads amount own) (hnodup : (dailyRows.map DailyRow.bucketDate).Nodup)
    (hcovers : Covers days a b) :
    ((days.map (dayTotals (byDate dailyRows))).map amount).sum = ((inside dailyRows a b).map own).sum := by
  rw [List.map_map, hcovers.inside_eq, ← sum_at_keys DailyRow.bucketDate own hcovers.nodup]
  simp [Function.comp_def, hreads.on_day hnodup]

lemma conserves_days (hnodup : (dailyRows.map DailyRow.bucketDate).Nodup) (hcovers : Covers days a b)
    (hfill : ∀ rows, fillDailyGaps rows a b = some (days.map (dayTotals rows))) :
    Conserves dailyRows a b (days.map (dayTotals (byDate dailyRows))) := by
  have hnodup' : ((inside dailyRows a b).map DailyRow.bucketDate).Nodup :=
    hnodup.sublist (List.filter_sublist.map _)
  have hday (rows : Dict Date DailyRow) : DayTotals.day ∘ dayTotals rows = id := by
    funext d
    exact dayTotals_day rows d
  refine ⟨?_, reads_charged.total hnodup hcovers, reads_dispatched.total hnodup hcovers, ?_⟩
  · rwa [List.map_map, hday, List.map_id]
  · rw [hfill]
    congr 1
    apply List.map_congr_left
    intro d hd
    have hget : (byDate (inside dailyRows a b)).get? d = (byDate dailyRows).get? d := by
      have hrows := inside_on_day dailyRows hcovers hd
      rw [rows_on_day hnodup, rows_on_day hnodup'] at hrows
      cases hin : (byDate (inside dailyRows a b)).get? d <;> cases hall : (byDate dailyRows).get? d <;> simp_all
    rw [dayTotals, dayTotals, hget]

lemma fitsFloat_zero : FitsFloat 0 := by
  rw [FitsFloat, PyFloat.ofInt, Int.cast_zero, PyFloat.ofRat_zero]
  rfl

lemma Reads.fits_iff (hreads : Reads amount own) (hnodup : (dailyRows.map DailyRow.bucketDate).Nodup)
    (hcovers : Covers days a b) :
    (∀ e ∈ days.map (dayTotals (byDate dailyRows)), FitsFloat (amount e)) ↔
      ∀ row ∈ inside dailyRows a b, FitsFloat (own row) := by
  have hmem (d : Date) (row : DailyRow) :
      (byDate dailyRows).get? d = some row ↔ row ∈ dailyRows ∧ row.bucketDate = d := by
    have hrows := rows_on_day hnodup d
    rw [← Option.mem_toList, ← hrows, List.mem_filter, decide_eq_true_eq]
  rw [hcovers.inside_eq]
  constructor
  · intro h row hrow
    obtain ⟨hin, hday⟩ := List.mem_filter.mp hrow
    have hget := (hmem row.bucketDate row).mpr ⟨hin, rfl⟩
    have hfits := h _ (List.mem_map_of_mem (of_decide_eq_true hday))
    rcases hreads.on_day_cases (byDate dailyRows) row.bucketDate with ⟨hnone, -⟩ | ⟨row', hsome, hamount⟩
    · exact absurd (hnone.symm.trans hget) (by simp)
    · obtain rfl := Option.some.inj (hsome.symm.trans hget)
      exact hamount ▸ hfits
  · intro h e he
    obtain ⟨d, hd, rfl⟩ := List.mem_map.mp he
    rcases hreads.on_day_cases (byDate dailyRows) d with ⟨-, hamount⟩ | ⟨row, hsome, hamount⟩
    · exact hamount ▸ fitsFloat_zero
    · obtain ⟨hin, rfl⟩ := (hmem d row).mp hsome
      exact hamount ▸ h row (List.mem_filter.mpr ⟨hin, by simpa using hd⟩)

end Days

section Column

variable {amount : DayTotals → ℤ} {series : List DayTotals} {low high cents : ℤ}

lemma fitsFloat_between (hlow : FitsFloat low) (hhigh : FitsFloat high) (hle : low ≤ cents) (hge : cents ≤ high) :
    FitsFloat cents := by
  obtain ⟨x, hx⟩ := PyFloat.finite?_between (q := cents) (by exact_mod_cast hle) (by exact_mod_cast hge) hlow hhigh
  rw [FitsFloat, PyFloat.ofInt, hx]
  rfl

lemma fmtMoney_of_fits (h : FitsFloat cents) : ∃ text, fmtMoney cents = some text :=
  Option.isSome_iff_exists.mp ((fmtMoney_isSome_iff cents).mpr h)

lemma fits_of_chartPoint {d : Date} {point : ChartPoint} (h : chartPoint cents d = some point) : FitsFloat cents := by
  obtain ⟨text, htext, -⟩ := Option.bind_eq_some_iff.mp h
  exact (fmtMoney_isSome_iff cents).mp (Option.isSome_iff_exists.mpr ⟨text, htext⟩)

def quotient (amount : DayTotals → ℤ) (series : List DayTotals) : ℚ := ((series.map amount).sum : ℚ) / series.length

lemma averageCents_eq {avg : ℤ} (h : averageCents amount series = some avg) :
    avg = PyFloat.trunc (PyFloat.nearest (quotient amount series)) := by
  obtain ⟨x, hx, rfl⟩ := Option.map_eq_some_iff.mp h
  rw [PyFloat.trueDiv, Int.cast_natCast] at hx
  rw [PyFloat.finite?_ofRat hx, quotient]

lemma mean_eq_trunc (amount : DayTotals → ℤ) (series : List DayTotals) :
    truncatedMean (series.map amount) = PyFloat.trunc (quotient amount series) := by
  rw [truncatedMean, List.length_map, quotient, PyFloat.trunc_intCast_div]

lemma keepsWhole_of_describes {column : FootColumn} (h : Describes amount series column) :
    PyFloat.KeepsWhole (quotient amount series) := by
  rw [← PyFloat.trunc_nearest_iff, ← averageCents_eq h.mean, mean_eq_trunc]

lemma fits_of_describes {column : FootColumn} (h : Describes amount series column) :
    ∀ e ∈ series, FitsFloat (amount e) := by
  obtain ⟨high, hhigh, hhighest, -⟩ := h.highest
  obtain ⟨low, hlow, hlowest, -⟩ := h.lowest
  intro e he
  exact fitsFloat_between (fits_of_chartPoint hlowest) (fits_of_chartPoint hhighest) (hlow.le e he) (hhigh.le e he)

lemma averageCents_of_keeps (hne : series ≠ []) (hlow : FitsFloat low) (hhigh : FitsFloat high)
    (hge : low * series.length ≤ (series.map amount).sum) (hle : (series.map amount).sum ≤ high * series.length)
    (hkeeps : PyFloat.KeepsWhole (quotient amount series)) :
    averageCents amount series = some (truncatedMean (series.map amount)) := by
  have hpos : (0 : ℚ) < series.length := by exact_mod_cast List.length_pos_of_ne_nil hne
  obtain ⟨x, hx⟩ := PyFloat.finite?_between (q := quotient amount series)
    (by rw [quotient, le_div_iff₀ hpos]; exact_mod_cast hge) (by rw [quotient, div_le_iff₀ hpos]; exact_mod_cast hle)
    hlow hhigh
  have htrunc := (PyFloat.trunc_nearest_iff _).mpr hkeeps
  rw [averageCents, PyFloat.trueDiv, Int.cast_natCast, ← quotient, hx, Option.map_some, PyFloat.finite?_ofRat hx,
    htrunc, mean_eq_trunc]

lemma describes_of_fits (hne : series ≠ [])
    (hascending : series.Pairwise (fun e f => e.day.toOrdinal ≤ f.day.toOrdinal))
    (hfits : ∀ e ∈ series, FitsFloat (amount e)) (hkeeps : PyFloat.KeepsWhole (quotient amount series)) :
    ∃ column, footColumn amount series = some column ∧ Describes amount series column := by
  obtain ⟨low, high, hhead, hlast⟩ := exists_ends amount hne
  have hlow := sortedBy_head hascending hhead
  have hhigh := sortedBy_last hascending hlast
  obtain ⟨⟨hge, hle⟩, hmeanLow, hmeanHigh⟩ := tdiv_between (series.map amount) (by simpa using hne)
    (List.forall_mem_map.mpr hlow.le) (List.forall_mem_map.mpr hhigh.le)
  obtain ⟨highText, hhighText⟩ := fmtMoney_of_fits (hfits high hhigh.mem)
  obtain ⟨lowText, hlowText⟩ := fmtMoney_of_fits (hfits low hlow.mem)
  obtain ⟨text, htext⟩ := fmtMoney_of_fits
    (fitsFloat_between (hfits low hlow.mem) (hfits high hhigh.mem) hmeanLow hmeanHigh)
  have hmean := averageCents_of_keeps hne (hfits low hlow.mem) (hfits high hhigh.mem)
    (by rwa [List.length_map] at hge) (by rwa [List.length_map] at hle) hkeeps
  refine ⟨⟨⟨highText, dateLong high.day⟩, ⟨lowText, dateLong low.day⟩, text⟩, ?_, ?_⟩
  · have htext' : fmtMoney (truncatedMean (series.map amount)) = some text := htext
    simp only [footColumn, hlast, hhead, hmean, chartPoint, hhighText, hlowText, htext', Option.bind_eq_bind,
      Option.bind_some, Option.pure_def]
  · refine ⟨⟨high, hhigh, ?_, hmeanHigh⟩, ⟨low, hlow, ?_, hmeanLow⟩, hmean, htext⟩
    · rw [chartPoint, hhighText]
      rfl
    · rw [chartPoint, hlowText]
      rfl

lemma exists_chartValues (h : ∀ e ∈ series, FitsFloat (amount e)) :
    ∃ values, series.mapM (fun e => chartValue (amount e)) = some values := by
  have hvalue : ∀ e ∈ series, ∃ x, chartValue (amount e) = some x := by
    intro e he
    obtain ⟨amount', hamount⟩ := Option.isSome_iff_exists.mp (h e he)
    exact ⟨_, by rw [chartValue, hamount]; rfl⟩
  obtain ⟨values, hvalues⟩ := exists_forall₂ hvalue
  exact ⟨values, mapM_some_iff.mpr hvalues⟩

lemma Reads.quotient_eq {own : DailyRow → ℤ} {days : List Date} (hreads : Reads amount own)
    (hnodup : (dailyRows.map DailyRow.bucketDate).Nodup) (hcovers : Covers days a b) :
    quotient amount (days.map (dayTotals (byDate dailyRows))) =
      (((inside dailyRows a b).map own).sum : ℚ) / (b.toOrdinal + 1 - a.toOrdinal : ℕ) := by
  rw [quotient, hreads.total hnodup hcovers, List.length_map, hcovers.length]

end Column

theorem chartAgrees_iff (dailyRows : List DailyRow) (hnodup : (dailyRows.map DailyRow.bucketDate).Nodup) (a b : Date)
    (hab : a.toOrdinal ≤ b.toOrdinal) : ChartAgrees dailyRows a b ↔ ChartFits dailyRows a b := by
  by_cases hlast : b = Date.last
  · refine iff_of_false ?_ (fun hfits => hfits.notLast hlast)
    rintro ⟨series, -, -, hseries, -⟩
    rw [hlast, fillDailyGaps_last] at hseries
    exact Option.some_ne_none series hseries.symm
  have hb : b.toOrdinal < Date.last.toOrdinal :=
    Nat.lt_of_le_of_ne b.toOrdinal_le_last (fun heq => hlast (Date.toOrdinal_injective heq))
  obtain ⟨days, hcovers, hfill⟩ := fillDailyGaps_eq hb (a := a) (by omega)
  have hconserves := conserves_days hnodup hcovers hfill
  constructor
  · rintro ⟨series, foot, -, hseries, -, -, hcharged, hdispatched, -⟩
    obtain rfl := Option.some.inj (hseries.symm.trans (hfill _))
    refine ⟨hlast, ?_, ?_, ?_⟩
    · intro row hrow
      exact ⟨(reads_charged.fits_iff hnodup hcovers).mp (fits_of_describes hcharged) row hrow,
        (reads_dispatched.fits_iff hnodup hcovers).mp (fits_of_describes hdispatched) row hrow⟩
    · rw [← reads_charged.quotient_eq hnodup hcovers]
      exact keepsWhole_of_describes hcharged
    · rw [← reads_dispatched.quotient_eq hnodup hcovers]
      exact keepsWhole_of_describes hdispatched
  · intro hfits
    have hne : days.map (dayTotals (byDate dailyRows)) ≠ [] := by
      apply List.ne_nil_of_length_pos
      rw [List.length_map, hcovers.length]
      omega
    have hcharged := (reads_charged.fits_iff hnodup hcovers).mpr (fun row hrow => (hfits.amounts row hrow).1)
    have hdispatched := (reads_dispatched.fits_iff hnodup hcovers).mpr (fun row hrow => (hfits.amounts row hrow).2)
    obtain ⟨charged, hchargedColumn, hchargedSays⟩ := describes_of_fits hne hconserves.days.ascending hcharged
      (by rw [reads_charged.quotient_eq hnodup hcovers]; exact hfits.charged)
    obtain ⟨dispatched, hdispatchedColumn, hdispatchedSays⟩ := describes_of_fits hne hconserves.days.ascending
      hdispatched (by rw [reads_dispatched.quotient_eq hnodup hcovers]; exact hfits.dispatched)
    obtain ⟨chargedValues, hchargedValues⟩ := exists_chartValues hcharged
    obtain ⟨dispatchedValues, hdispatchedValues⟩ := exists_chartValues hdispatched
    refine ⟨_, ⟨charged, dispatched⟩, ⟨_, chargedValues, dispatchedValues, shortRangeLabel a b⟩, hfill _, hconserves,
      ?_, hchargedSays, hdispatchedSays, ?_, rfl, hchargedValues, hdispatchedValues⟩
    · rw [buildFoot, hfill, Option.bind_eq_bind, Option.bind_some, footOf, if_neg hne, hchargedColumn,
        hdispatchedColumn]
      rfl
    · rw [buildChart, hfill, Option.bind_eq_bind, Option.bind_some, hchargedValues, hdispatchedValues]
      rfl

def augustFirst : Date := ⟨2025, 8, 1, by decide, by decide, by decide⟩

def augustSecond : Date := ⟨2025, 8, 2, by decide, by decide, by decide⟩

def augustRows : List DailyRow := [⟨augustFirst, some 100, some 50⟩]

theorem chartAgrees_august : (augustRows.map DailyRow.bucketDate).Nodup ∧
    augustFirst.toOrdinal ≤ augustSecond.toOrdinal ∧ ChartAgrees augustRows augustFirst augustSecond := by
  have hnodup : (augustRows.map DailyRow.bucketDate).Nodup := List.nodup_singleton _
  have hle : augustFirst.toOrdinal ≤ augustSecond.toOrdinal := by decide
  have hfloat {cents : ℤ} (h : |cents| ≤ 2 ^ 63) : FitsFloat cents := by
    obtain ⟨x, hx, -⟩ := PyFloat.ofInt_within (k := 63) (by decide) h
    rw [FitsFloat, hx]
    rfl
  refine ⟨hnodup, hle, (chartAgrees_iff augustRows hnodup augustFirst augustSecond hle).mpr ⟨by decide, ?_, ?_, ?_⟩⟩
  · intro row hrow
    obtain rfl := List.mem_singleton.mp (List.mem_of_mem_filter hrow)
    exact ⟨hfloat (by decide), hfloat (by decide)⟩
  · exact PyFloat.keepsWhole_of_lt (by decide) (by decide)
  · exact PyFloat.keepsWhole_of_lt (by decide) (by decide)

theorem chartAgrees_lastDay : Date.last.toOrdinal ≤ Date.last.toOrdinal ∧ ¬ ChartAgrees [] Date.last Date.last := by
  refine ⟨Nat.le_refl _, ?_⟩
  rintro ⟨series, -, -, hseries, -⟩
  rw [fillDailyGaps_last] at hseries
  exact Option.some_ne_none series hseries.symm

end TheCargo.Dashboard
