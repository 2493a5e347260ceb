import TheCargo.Dashboard.Figures

namespace TheCargo.Dashboard

open Foundation

structure DashboardKpi where
  label : String
  value : String
  sub : String
  prior : String
  delta : Option PyFloat
  deriving DecidableEq

def ordersNow (current : Metrics) : ℤ := if current.orders = 0 then 1 else current.orders

def dispatchRateNow (current : Metrics) : Option PyFloat := percentage current.dispatched (ordersNow current)

def dispatchRatePrev (prior : Metrics) : Option PyFloat :=
  if prior.orders = 0 then some (.finite 0) else percentage prior.dispatched prior.orders

def marginPerOrderNow (current : Metrics) : Option ℚ := PyFloat.trueDiv current.marginCents (ordersNow current)

def marginPerOrderPrev (prior : Metrics) : Option ℚ :=
  if prior.orders = 0 then some 0 else PyFloat.trueDiv prior.marginCents prior.orders

def quotedKpi (current prior : Metrics) (priorLbl : String) : Option DashboardKpi := do
  let leadsNow := if current.leads = 0 then current.quotes else current.leads
  let quoteConv ← wholePercent current.quotes leadsNow
  let delta ← deltaPct current.quotes prior.quotes
  return ⟨"Quoted", fmtCount current.quotes,
    fmtCount current.quotes ++ " of " ++ fmtCount leadsNow ++ " leads  ·  " ++ toString quoteConv ++ "% con",
    priorLbl ++ ": " ++ fmtCount prior.quotes, delta⟩

def dispatchedKpi (current prior : Metrics) (priorLbl : String) : Option DashboardKpi := do
  let quoteToDispatch ← wholePercent current.dispatched current.quotes
  let value ← fmtMoney current.dispatchedRevenueCents
  let shown ← fmtMoney prior.dispatchedRevenueCents
  let delta ← deltaPct current.dispatchedRevenueCents prior.dispatchedRevenueCents
  return ⟨"Dispatched", value,
    fmtCount current.dispatched ++ " of " ++ fmtCount current.quotes ++ " quotes  ·  " ++
      toString quoteToDispatch ++ "% con",
    priorLbl ++ ": " ++ shown, delta⟩

def dispatchRateKpi (current prior : Metrics) (priorLbl : String) : Option DashboardKpi := do
  let rateNow ← dispatchRateNow current
  let ratePrev ← dispatchRatePrev prior
  let value ← rateNow.round
  let shown ← ratePrev.round
  let rateNow ← rateNow.finite?
  let ratePrev ← ratePrev.finite?
  return ⟨"Dispatch rate", toString value ++ "%",
    fmtCount current.dispatched ++ " of " ++ fmtCount current.orders ++ " orders",
    priorLbl ++ ": " ++ (toString shown ++ "%"), some (deltaPctAbs rateNow ratePrev)⟩

def marginKpi (current prior : Metrics) (priorLbl : String) : Option DashboardKpi := do
  let marginNow ← marginPerOrderNow current
  let marginPrev ← marginPerOrderPrev prior
  let revenueNow := if current.dispatchedRevenueCents = 0 then 1 else current.dispatchedRevenueCents
  let marginPctNow ← wholePercent current.marginCents revenueNow
  let value ← fmtMoney (PyFloat.trunc marginNow)
  let shown ← fmtMoney (PyFloat.trunc marginPrev)
  return ⟨"Avg margin / order", value,
    toString marginPctNow ++ "% margin  ·  " ++ fmtCount current.orders ++ " orders",
    priorLbl ++ ": " ++ shown, deltaPctFloat marginNow marginPrev⟩

def paymentsKpi (current prior : Metrics) (priorLbl : String) : Option DashboardKpi := do
  let pctCollected ← wholePercent current.collectedCents current.chargedCents
  let due ← fmtMoney (max 0 (current.chargedCents - current.collectedCents))
  let value ← fmtMoney current.collectedCents
  let shown ← fmtMoney prior.collectedCents
  let delta ← deltaPct current.collectedCents prior.collectedCents
  return ⟨"Payments collected", value, toString pctCollected ++ "% of charged  ·  " ++ due ++ " due",
    priorLbl ++ ": " ++ shown, delta⟩

def buildKpis (current prior : Metrics) (periodKey : String) : Option (List DashboardKpi) := do
  let priorLbl := priorLabel periodKey
  let quoted ← quotedKpi current prior priorLbl
  let dispatched ← dispatchedKpi current prior priorLbl
  let dispatchRate ← dispatchRateKpi current prior priorLbl
  let margin ← marginKpi current prior priorLbl
  let payments ← paymentsKpi current prior priorLbl
  return [quoted, dispatched, dispatchRate, margin, payments]

def rateText (rate : Option PyFloat) : Option String :=
  (rate.bind PyFloat.round).map (fun whole => toString whole ++ "%")

def marginText (margin : Option ℚ) : Option String := margin.bind (fun cents => fmtMoney (PyFloat.trunc cents))

def figures (row : Metrics) (rate : Option PyFloat) (margin : Option ℚ) : List (Option String) :=
  [some (fmtCount row.quotes), fmtMoney row.dispatchedRevenueCents, rateText rate, marginText margin,
    fmtMoney row.collectedCents]

variable {current prior : Metrics} {priorLbl : String} {kpi : DashboardKpi}

def DashboardKpi.Shows (kpi : DashboardKpi) (priorLbl : String) (now before : Option String) : Prop :=
  now = some kpi.value ∧ before.map (fun shown => priorLbl ++ ": " ++ shown) = some kpi.prior

lemma quotedKpi_shows (h : quotedKpi current prior priorLbl = some kpi) :
    kpi.Shows priorLbl (some (fmtCount current.quotes)) (some (fmtCount prior.quotes)) := by
  simp only [quotedKpi, Option.bind_eq_bind, Option.bind_eq_some_iff, Option.pure_def, Option.some.injEq] at h
  obtain ⟨-, -, -, -, rfl⟩ := h
  exact ⟨rfl, rfl⟩

lemma dispatchedKpi_shows (h : dispatchedKpi current prior priorLbl = some kpi) :
    kpi.Shows priorLbl (fmtMoney current.dispatchedRevenueCents) (fmtMoney prior.dispatchedRevenueCents) := by
  simp only [dispatchedKpi, Option.bind_eq_bind, Option.bind_eq_some_iff, Option.pure_def, Option.some.injEq] at h
  obtain ⟨-, -, value, hvalue, shown, hshown, -, -, rfl⟩ := h
  exact ⟨hvalue, by rw [hshown]; rfl⟩

lemma dispatchRateKpi_shows (h : dispatchRateKpi current prior priorLbl = some kpi) :
    kpi.Shows priorLbl (rateText (dispatchRateNow current)) (rateText (dispatchRatePrev prior)) := by
  simp only [dispatchRateKpi, Option.bind_eq_bind, Option.bind_eq_some_iff, Option.pure_def, Option.some.injEq] at h
  obtain ⟨rateNow, hnow, ratePrev, hprev, value, hvalue, shown, hshown, -, -, -, -, rfl⟩ := h
  constructor
  · rw [rateText, hnow, Option.bind_some, hvalue]
    rfl
  · rw [rateText, hprev, Option.bind_some, hshown]
    rfl

lemma marginKpi_shows (h : marginKpi current prior priorLbl = some kpi) :
    kpi.Shows priorLbl (marginText (marginPerOrderNow current)) (marginText (marginPerOrderPrev prior)) := by
  simp only [marginKpi, Option.bind_eq_bind, Option.bind_eq_some_iff, Option.pure_def, Option.some.injEq] at h
  obtain ⟨marginNow, hnow, marginPrev, hprev, -, -, value, hvalue, shown, hshown, rfl⟩ := h
  constructor
  · rw [marginText, hnow, Option.bind_some, hvalue]
  · rw [marginText, hprev, Option.bind_some, hshown]
    rfl

lemma paymentsKpi_shows (h : paymentsKpi current prior priorLbl = some kpi) :
    kpi.Shows priorLbl (fmtMoney current.collectedCents) (fmtMoney prior.collectedCents) := by
  simp only [paymentsKpi, Option.bind_eq_bind, Option.bind_eq_some_iff, Option.pure_def, Option.some.injEq] at h
  obtain ⟨-, -, -, -, value, hvalue, shown, hshown, -, -, rfl⟩ := h
  exact ⟨hvalue, by rw [hshown]; rfl⟩

lemma buildKpis_figures {periodKey : String} {kpis : List DashboardKpi}
    (h : buildKpis current prior periodKey = some kpis) :
    figures current (dispatchRateNow current) (marginPerOrderNow current) = kpis.map (fun kpi => some kpi.value) ∧
      (figures prior (dispatchRatePrev prior) (marginPerOrderPrev prior)).map
          (Option.map (fun shown => priorLabel periodKey ++ ": " ++ shown)) = kpis.map (fun kpi => some kpi.prior) := by
  simp only [buildKpis, Option.bind_eq_bind, Option.bind_eq_some_iff, Option.pure_def, Option.some.injEq] at h
  obtain ⟨quoted, hquoted, dispatched, hdispatched, dispatchRate, hrate, margin, hmargin, payments, hpayments, rfl⟩ := h
  obtain ⟨hquoted, hquoted'⟩ := quotedKpi_shows hquoted
  obtain ⟨hdispatched, hdispatched'⟩ := dispatchedKpi_shows hdispatched
  obtain ⟨hrate, hrate'⟩ := dispatchRateKpi_shows hrate
  obtain ⟨hmargin, hmargin'⟩ := marginKpi_shows hmargin
  obtain ⟨hpayments, hpayments'⟩ := paymentsKpi_shows hpayments
  simp only [figures, List.map_cons, List.map_nil, hquoted, hdispatched, hrate, hmargin, hpayments, hquoted',
    hdispatched', hrate', hmargin', hpayments', and_self]

structure SameKpis (a b : Metrics) (periodKey : String) : Prop where
  shown : ∀ current prior, buildKpis a b periodKey = some current → buildKpis b a periodKey = some prior →
    prior.map (·.prior) = current.map (fun kpi => priorLabel periodKey ++ ": " ++ kpi.value)
  rate : dispatchRateNow a = teamRate a
  margin : (marginPerOrderNow a).map PyFloat.trunc = teamMargin a

lemma dispatchRateNow_eq_iff (a : Metrics) : dispatchRateNow a = teamRate a ↔ a.orders ≠ 0 ∨ a.dispatched = 0 := by
  by_cases ho : a.orders = 0
  · rw [dispatchRateNow, ordersNow, teamRate, if_pos ho, if_pos ho]
    constructor
    · intro h
      exact .inr (by_contra fun hd => percentage_one_ne_zero hd h)
    · intro h
      rw [h.resolve_left (not_not.mpr ho), percentage_zero]
  · simp [dispatchRateNow, ordersNow, teamRate, ho]

lemma marginPerOrderNow_eq_iff (a : Metrics) :
    (marginPerOrderNow a).map PyFloat.trunc = teamMargin a ↔ a.orders ≠ 0 ∨ a.marginCents = 0 := by
  by_cases ho : a.orders = 0
  · rw [marginPerOrderNow, ordersNow, teamMargin, if_pos ho, if_pos ho]
    constructor
    · intro h
      obtain ⟨q, hq, htrunc⟩ := Option.map_eq_some_iff.mp h
      exact .inr (by_contra fun hm => PyFloat.trunc_ne_zero (PyFloat.one_le_abs_trueDiv_one hm hq) htrunc)
    · intro h
      rw [h.resolve_left (not_not.mpr ho), PyFloat.trueDiv_zero]
      rfl
  · simp [marginPerOrderNow, ordersNow, teamMargin, ho]

lemma figures_now_eq_prev {a : Metrics} (h : a.orders ≠ 0 ∨ a.dispatched = 0 ∧ a.marginCents = 0) :
    figures a (dispatchRateNow a) (marginPerOrderNow a) = figures a (dispatchRatePrev a) (marginPerOrderPrev a) := by
  by_cases ho : a.orders = 0
  · obtain ⟨hd, hm⟩ := h.resolve_left (not_not.mpr ho)
    have hrate : dispatchRateNow a = dispatchRatePrev a := by
      rw [dispatchRateNow, dispatchRatePrev, hd, percentage_zero, if_pos ho]
    have hmargin : marginPerOrderNow a = marginPerOrderPrev a := by
      rw [marginPerOrderNow, marginPerOrderPrev, hm, PyFloat.trueDiv_zero, if_pos ho]
    rw [hrate, hmargin]
  · simp only [dispatchRateNow, dispatchRatePrev, marginPerOrderNow, marginPerOrderPrev, ordersNow, if_neg ho]

theorem sameKpis_iff (a b : Metrics) (periodKey : String) :
    SameKpis a b periodKey ↔ a.orders ≠ 0 ∨ a.dispatched = 0 ∧ a.marginCents = 0 := by
  constructor
  · intro h
    rcases (dispatchRateNow_eq_iff a).mp h.rate with ho | hd
    · exact .inl ho
    · exact ((marginPerOrderNow_eq_iff a).mp h.margin).imp id (fun hm => ⟨hd, hm⟩)
  · intro h
    refine ⟨?_, (dispatchRateNow_eq_iff a).mpr (h.imp id And.left),
      (marginPerOrderNow_eq_iff a).mpr (h.imp id And.right)⟩
    intro current prior hcurrent hprior
    obtain ⟨hvalue, -⟩ := buildKpis_figures hcurrent
    obtain ⟨-, hshown⟩ := buildKpis_figures hprior
    rw [← figures_now_eq_prev h, hvalue, List.map_map] at hshown
    have hsome := congrArg (List.filterMap id) hshown
    simpa [List.filterMap_map, Function.comp_def] using hsome.symm

def orderless : Metrics := ⟨4, 3, 0, 1, 0, 0, 0, 0, 0⟩

theorem sameKpis_orderless :
    dispatchRateNow orderless = some (.finite 100) ∧ teamRate orderless = some (.finite 0) ∧
      ¬ SameKpis orderless orderless "7d" := by
  have hnow : dispatchRateNow orderless = some (.finite 100) := by decide +kernel
  have hteam : teamRate orderless = some (.finite 0) := rfl
  refine ⟨hnow, hteam, ?_⟩
  intro h
  have heq := h.rate
  rw [hnow, hteam] at heq
  exact absurd heq (by decide)

lemma dispatchRateNow_within (h : current.Within) : ∃ x, dispatchRateNow current = some (.finite x) := by
  obtain ⟨x, hx, -⟩ := percentage_within (ordersNow current) (h.dispatched.trans (by norm_num))
  exact ⟨x, hx⟩

lemma dispatchRatePrev_within (h : prior.Within) : ∃ x, dispatchRatePrev prior = some (.finite x) := by
  rw [dispatchRatePrev]
  split
  · exact ⟨0, rfl⟩
  · obtain ⟨x, hx, -⟩ := percentage_within prior.orders (h.dispatched.trans (by norm_num))
    exact ⟨x, hx⟩

lemma marginPerOrderNow_within (h : current.Within) :
    ∃ q, marginPerOrderNow current = some q ∧ |PyFloat.trunc q| ≤ 2 ^ 63 := by
  obtain ⟨q, hq, hle⟩ := PyFloat.trueDiv_within (ordersNow current) (k := 63) (by norm_num) h.marginCents
  exact ⟨q, hq, trunc_within hle⟩

lemma marginPerOrderPrev_within (h : prior.Within) :
    ∃ q, marginPerOrderPrev prior = some q ∧ |PyFloat.trunc q| ≤ 2 ^ 63 := by
  rw [marginPerOrderPrev]
  split
  · exact ⟨0, rfl, by decide⟩
  · obtain ⟨q, hq, hle⟩ := PyFloat.trueDiv_within prior.orders (k := 63) (by norm_num) h.marginCents
    exact ⟨q, hq, trunc_within hle⟩

/-- Rows of 64-bit columns leave no figure that a float cannot hold. -/
lemma buildKpis_within (periodKey : String) (hcurrent : current.Within) (hprior : prior.Within) :
    ∃ kpis, buildKpis current prior periodKey = some kpis := by
  have hwide {n : ℤ} (h : |n| ≤ 2 ^ 63) : |n| ≤ 2 ^ 64 := h.trans (by norm_num)
  have hwider {n : ℤ} (h : |n| ≤ 2 ^ 63) : |n| ≤ 2 ^ 65 := h.trans (by norm_num)
  have hmoney {n : ℤ} (h : |n| ≤ 2 ^ 63) : |n| ≤ 2 ^ 120 := h.trans (by norm_num)
  obtain ⟨quoteConv, hquoteConv⟩ := wholePercent_within
    (if current.leads = 0 then current.quotes else current.leads) (hwider hcurrent.quotes)
  obtain ⟨quotesDelta, hquotesDelta⟩ := deltaPct_within (hwide hcurrent.quotes) (hwide hprior.quotes)
  obtain ⟨toDispatch, htoDispatch⟩ := wholePercent_within current.quotes (hwider hcurrent.dispatched)
  obtain ⟨revenueNow, hrevenueNow⟩ := fmtMoney_within (hmoney hcurrent.dispatchedRevenueCents)
  obtain ⟨revenuePrev, hrevenuePrev⟩ := fmtMoney_within (hmoney hprior.dispatchedRevenueCents)
  obtain ⟨revenueDelta, hrevenueDelta⟩ :=
    deltaPct_within (hwide hcurrent.dispatchedRevenueCents) (hwide hprior.dispatchedRevenueCents)
  obtain ⟨rateNow, hrateNow⟩ := dispatchRateNow_within hcurrent
  obtain ⟨ratePrev, hratePrev⟩ := dispatchRatePrev_within hprior
  obtain ⟨marginNow, hmarginNow, hnow⟩ := marginPerOrderNow_within hcurrent
  obtain ⟨marginPrev, hmarginPrev, hprev⟩ := marginPerOrderPrev_within hprior
  obtain ⟨marginPct, hmarginPct⟩ := wholePercent_within
    (if current.dispatchedRevenueCents = 0 then 1 else current.dispatchedRevenueCents) (hwider hcurrent.marginCents)
  obtain ⟨marginNowText, hmarginNowText⟩ := fmtMoney_within (hmoney hnow)
  obtain ⟨marginPrevText, hmarginPrevText⟩ := fmtMoney_within (hmoney hprev)
  obtain ⟨pctCollected, hpctCollected⟩ := wholePercent_within current.chargedCents (hwider hcurrent.collectedCents)
  have hdue : |max 0 (current.chargedCents - current.collectedCents)| ≤ 2 ^ 120 := by
    have hcharged := abs_le.mp hcurrent.chargedCents
    have hcollected := abs_le.mp hcurrent.collectedCents
    rw [abs_le]
    constructor <;> omega
  obtain ⟨due, hdue⟩ := fmtMoney_within hdue
  obtain ⟨collectedNow, hcollectedNow⟩ := fmtMoney_within (hmoney hcurrent.collectedCents)
  obtain ⟨collectedPrev, hcollectedPrev⟩ := fmtMoney_within (hmoney hprior.collectedCents)
  obtain ⟨collectedDelta, hcollectedDelta⟩ :=
    deltaPct_within (hwide hcurrent.collectedCents) (hwide hprior.collectedCents)
  simp [buildKpis, quotedKpi, dispatchedKpi, dispatchRateKpi, marginKpi, paymentsKpi, hquoteConv, hquotesDelta,
    htoDispatch, hrevenueNow, hrevenuePrev, hrevenueDelta, hrateNow, hratePrev, hmarginNow, hmarginPrev, hmarginPct,
    hmarginNowText, hmarginPrevText, hpctCollected, hdue, hcollectedNow, hcollectedPrev, hcollectedDelta,
    PyFloat.round, PyFloat.finite?]

end TheCargo.Dashboard
