import TheCargo.Dashboard.Period
import TheCargo.Foundation.PyFloat

namespace TheCargo.Dashboard

open Foundation

structure Metrics where
  leads : ℤ
  quotes : ℤ
  orders : ℤ
  dispatched : ℤ
  delivered : ℤ
  chargedCents : ℤ
  dispatchedRevenueCents : ℤ
  collectedCents : ℤ
  marginCents : ℤ
  deriving DecidableEq, Repr

def fmtCount (n : ℤ) : String := Numeral.groupedInt n

def fmtThousands (q : ℚ) : String :=
  let tenths := halfEven (q * 10)
  if tenths % 10 = 0 then toString (tenths / 10) ++ "k" else PyFloat.fixedTenth q ++ "k"

/-- Nothing where the amount is too large for a float. -/
def fmtMoney (cents : ℤ) : Option String := do
  let amount ← PyFloat.ofInt cents
  let dollars := PyFloat.nearest (amount / 100)
  if 1000000 ≤ dollars then some ("$" ++ PyFloat.fixedTenth (PyFloat.nearest (dollars / 1000000)) ++ "M")
  else if 10000 ≤ dollars then some ("$" ++ fmtThousands (PyFloat.nearest (dollars / 1000)))
  else some ("$" ++ PyFloat.fixedWhole dollars)

def percentage (num den : ℤ) : Option PyFloat := (PyFloat.trueDiv num den).map (fun q => (PyFloat.finite q).times 100)

def wholePercent (num den : ℤ) : Option ℤ := if den = 0 then some 0 else (percentage num den).bind PyFloat.round

/-- `_delta_pct` of integers; the inner `none` is its `None`. -/
def deltaPct (now prior : ℤ) : Option (Option PyFloat) :=
  if prior = 0 then some none else (percentage (now - prior) prior).map (fun x => some x.roundTenth)

def deltaPctFloat (now prior : ℚ) : Option PyFloat :=
  if prior = 0 then none else some (((PyFloat.ofRat (now - prior)).dividedBy prior).times 100).roundTenth

def deltaPctAbs (now prior : ℚ) : PyFloat := (PyFloat.ofRat (now - prior)).roundTenth

def priorLabel (periodKey : String) : String :=
  match periodKey with
  | "today" => "Prior day"
  | "7d" => "Prior 7d"
  | "30d" => "Prior 30d"
  | "mtd" => "Prior month"
  | "qtd" => "Prior quarter"
  | "custom" => "Prior period"
  | _ => "Prior period"

/-- `_team_kpis` -/
structure TeamKpis where
  quotes : ℤ
  dispatchedCents : ℤ
  dispatchRate : PyFloat
  avgMarginCents : ℤ
  collectedCents : ℤ
  deriving DecidableEq

def teamRate (cur : Metrics) : Option PyFloat :=
  if cur.orders = 0 then some (.finite 0) else percentage cur.dispatched cur.orders

def teamMargin (cur : Metrics) : Option ℤ :=
  if cur.orders = 0 then some 0 else (PyFloat.trueDiv cur.marginCents cur.orders).map PyFloat.trunc

def teamKpis (cur : Metrics) : Option TeamKpis := do
  let dispatchRate ← teamRate cur
  let avgMarginCents ← teamMargin cur
  return ⟨cur.quotes, cur.dispatchedRevenueCents, dispatchRate, avgMarginCents, cur.collectedCents⟩

lemma percentage_zero (den : ℤ) : percentage 0 den = some (.finite 0) := by
  rw [percentage, PyFloat.trueDiv_zero, Option.map_some, PyFloat.times, zero_mul, PyFloat.ofRat_zero]

lemma percentage_one_ne_zero {num : ℤ} (h : num ≠ 0) : percentage num 1 ≠ some (.finite 0) := by
  rw [percentage]
  cases hq : PyFloat.trueDiv num 1 with
  | none => simp
  | some q =>
    have hge := PyFloat.one_le_abs_trueDiv_one h hq
    rw [Option.map_some, PyFloat.times]
    intro heq
    refine PyFloat.ofRat_ne_zero ?_ (Option.some.inj heq)
    rw [abs_mul]
    norm_num
    linarith

variable {num den cents : ℤ}

lemma fmtMoney_isSome_iff (cents : ℤ) : (fmtMoney cents).isSome ↔ (PyFloat.ofInt cents).isSome := by
  rw [fmtMoney]
  cases PyFloat.ofInt cents with
  | none => rfl
  | some amount =>
    simp only [Option.bind_eq_bind, Option.bind_some]
    split_ifs <;> rfl

lemma fmtMoney_within (h : |cents| ≤ 2 ^ 120) : ∃ text, fmtMoney cents = some text := by
  obtain ⟨amount, hamount, -⟩ := PyFloat.ofInt_within (k := 120) (by norm_num) h
  rw [fmtMoney, hamount, Option.bind_eq_bind, Option.bind_some]
  dsimp only
  split_ifs <;> exact ⟨_, rfl⟩

lemma percentage_within (den : ℤ) (h : |num| ≤ 2 ^ 65) :
    ∃ x, percentage num den = some (.finite x) ∧ |x| ≤ 2 ^ 72 := by
  obtain ⟨q, hq, hle⟩ := PyFloat.trueDiv_within den (k := 65) (by norm_num) h
  have hbound : |q * 100| ≤ 2 ^ 72 := by
    rw [abs_mul, abs_of_nonneg (by norm_num : (0 : ℚ) ≤ 100)]
    linarith
  obtain ⟨x, hx, hle⟩ := PyFloat.ofRat_within (k := 72) (by norm_num) hbound
  exact ⟨x, by rw [percentage, hq, Option.map_some, PyFloat.times, hx], hle⟩

lemma percentage_mono {num' den' : ℤ} {x y : PyFloat} (h : (num : ℚ) / den ≤ (num' : ℚ) / den')
    (hx : percentage num den = some x) (hy : percentage num' den' = some y) : x.rank ≤ y.rank := by
  obtain ⟨p, hp, rfl⟩ := Option.map_eq_some_iff.mp hx
  obtain ⟨q, hq, rfl⟩ := Option.map_eq_some_iff.mp hy
  have hle : p ≤ q := by
    rw [PyFloat.finite?_ofRat hp, PyFloat.finite?_ofRat hq]
    exact PyFloat.nearest_mono h
  exact PyFloat.rank_ofRat_mono (mul_le_mul_of_nonneg_right hle (by norm_num))

lemma wholePercent_within (den : ℤ) (h : |num| ≤ 2 ^ 65) : ∃ n, wholePercent num den = some n := by
  rw [wholePercent]
  split
  · exact ⟨0, rfl⟩
  · obtain ⟨x, hx, -⟩ := percentage_within den h
    exact ⟨halfEven x, by rw [hx]; rfl⟩

lemma deltaPct_within {now prior : ℤ} (hnow : |now| ≤ 2 ^ 64) (hprior : |prior| ≤ 2 ^ 64) :
    ∃ delta, deltaPct now prior = some delta := by
  rw [deltaPct]
  split
  · exact ⟨none, rfl⟩
  · have hle : |now - prior| ≤ 2 ^ 65 := (abs_sub now prior).trans (by omega)
    obtain ⟨x, hx, -⟩ := percentage_within prior hle
    exact ⟨_, by rw [hx]; rfl⟩

/-- The numbers a 64-bit column can hold. -/
structure Metrics.Within (row : Metrics) : Prop where
  quotes : |row.quotes| ≤ 2 ^ 63
  dispatched : |row.dispatched| ≤ 2 ^ 63
  chargedCents : |row.chargedCents| ≤ 2 ^ 63
  dispatchedRevenueCents : |row.dispatchedRevenueCents| ≤ 2 ^ 63
  collectedCents : |row.collectedCents| ≤ 2 ^ 63
  marginCents : |row.marginCents| ≤ 2 ^ 63

lemma trunc_within {q : ℚ} {k : ℕ} (h : |q| ≤ 2 ^ k) : |PyFloat.trunc q| ≤ 2 ^ k := by
  have hle := (PyFloat.trunc_le q).trans h
  exact_mod_cast hle

end TheCargo.Dashboard
