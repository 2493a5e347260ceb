import TheCargo.Dashboard.Figures
import TheCargo.Foundation.Leader
import TheCargo.Foundation.Runs

/-! The team strip, its averages and the leaderboard over the same rows. -/

namespace TheCargo.Dashboard

open Foundation

structure AgentName where
  name : Option String
  firstName : Option String
  initials : Option String
  color : Option String

def defaultName : AgentName := ⟨none, none, none, none⟩

structure AgentRow where
  userId : String
  current : Option (Dict String (Option ℤ))
  prior : Option (Dict String (Option ℤ))

def normMetrics (d : Dict String (Option ℤ)) : Metrics :=
  let metric (k : String) : ℤ := ((d.get? k).join).getD 0
  ⟨metric "leads", metric "quotes", metric "orders", metric "dispatched", metric "delivered", metric "charged_cents",
    metric "dispatched_revenue_cents", metric "collected_cents", metric "margin_cents"⟩

structure NormUser where
  userId : String
  current : Metrics
  prior : Metrics
  deriving DecidableEq

def normUser (u : AgentRow) : NormUser :=
  ⟨u.userId, normMetrics (u.current.getD Dict.empty), normMetrics (u.prior.getD Dict.empty)⟩

structure TeamMember where
  userId : String
  name : Option String
  firstName : Option String
  initials : Option String
  color : Option String
  quotes : ℤ
  dispatchRate : String
  dispatched : String
  dispatchedInt : ℤ
  deriving DecidableEq

structure Sums where
  quotes : ℤ
  dispatchedCents : ℤ
  rate : PyFloat
  margin : ℤ
  collected : ℤ

structure Strip where
  members : List TeamMember
  sums : Sums
  rateN : ℕ

def emptyStrip : Strip := ⟨[], ⟨0, 0, .finite 0, 0, 0⟩, 0⟩

def teamMember (names : Dict String AgentName) (uid : String) (kpis : TeamKpis) : Option TeamMember := do
  let nm := (names.get? uid).getD defaultName
  let whole ← kpis.dispatchRate.round
  let dispatched ← fmtMoney kpis.dispatchedCents
  return ⟨uid, nm.name, nm.firstName, nm.initials, nm.color, kpis.quotes, toString whole ++ "%", dispatched,
    kpis.dispatchedCents⟩

def stripStep (names : Dict String AgentName) (s : Strip) (u : NormUser) : Option Strip := do
  let kpis ← teamKpis u.current
  let member ← teamMember names u.userId kpis
  let rate ← kpis.dispatchRate.finite?
  return {
    members := s.members ++ [member]
    sums := {
      quotes := s.sums.quotes + kpis.quotes
      dispatchedCents := s.sums.dispatchedCents + kpis.dispatchedCents
      rate := if u.current.orders = 0 then s.sums.rate else s.sums.rate.plus rate
      margin := s.sums.margin + kpis.avgMarginCents
      collected := s.sums.collected + kpis.collectedCents }
    rateN := if u.current.orders = 0 then s.rateN else s.rateN + 1 }

structure TeamAverages where
  quoted : ℤ
  quotedLabel : String
  dispatchedCents : ℤ
  dispatchedLabel : String
  dispatchRate : PyFloat
  dispatchRateLabel : String
  avgMarginCents : ℤ
  avgMarginLabel : String
  collectedCents : ℤ
  collectedLabel : String

def noAverages : TeamAverages := ⟨0, "0", 0, "$0", .finite 0, "0%", 0, "$0", 0, "$0"⟩

def avgRate (s : Strip) : PyFloat := if s.rateN = 0 then .finite 0 else s.sums.rate.dividedBy (PyFloat.nearest s.rateN)

def teamAverages (s : Strip) (n : ℕ) : Option TeamAverages :=
  if n = 0 then some noAverages
  else do
    let avgQuoted ← (PyFloat.trueDiv s.sums.quotes n).map halfEven
    let avgDispatched ← (PyFloat.trueDiv s.sums.dispatchedCents n).map PyFloat.trunc
    let avgMargin ← (PyFloat.trueDiv s.sums.margin n).map PyFloat.trunc
    let avgCollected ← (PyFloat.trueDiv s.sums.collected n).map PyFloat.trunc
    let dispatchedLabel ← fmtMoney avgDispatched
    let rateWhole ← (avgRate s).round
    let marginLabel ← fmtMoney avgMargin
    let collectedLabel ← fmtMoney avgCollected
    return ⟨avgQuoted, fmtCount avgQuoted, avgDispatched, dispatchedLabel, (avgRate s).roundTenth,
      toString rateWhole ++ "%", avgMargin, marginLabel, avgCollected, collectedLabel⟩

structure TeamLeaderCard where
  userId : String
  name : Option String
  initials : Option String
  color : Option String
  dispatched : String
  detail : String
  delta : Option PyFloat
  trend : String
  deriving DecidableEq

structure TeamLeaderboard where
  topPerformer : Option TeamLeaderCard
  mostImproved : Option TeamLeaderCard
  needsCoaching : Option TeamLeaderCard

/-- `(dispatched_cents, user_id, rate)` -/
structure Top where
  dispatchedCents : ℤ
  userId : String
  rate : PyFloat

/-- `(delta_pct, user_id, dispatched_cents)` -/
structure Mover where
  deltaPct : PyFloat
  userId : String
  dispatchedCents : ℤ

def Mover.up (m : Mover) : WithBot (WithTop ℚ) := m.deltaPct.rank

def Mover.down (m : Mover) : (WithBot (WithTop ℚ))ᵒᵈ := OrderDual.toDual m.deltaPct.rank

structure Board where
  top : Option Top
  best : Option Mover
  worst : Option Mover

def emptyBoard : Board := ⟨none, none, none⟩

def boardStep (b : Board) (u : NormUser) : Option Board := do
  let dNow := u.current.dispatchedRevenueCents
  let rate ← teamRate u.current
  let top := overtake Top.dispatchedCents b.top ⟨dNow, u.userId, rate⟩
  let dPrev := u.prior.dispatchedRevenueCents
  if 0 < dPrev then
    let delta ← percentage (dNow - dPrev) dPrev
    let mover : Mover := ⟨delta, u.userId, dNow⟩
    return ⟨top, overtake Mover.up b.best mover, overtake Mover.down b.worst mover⟩
  else return ⟨top, b.best, b.worst⟩

def leaderCard (names : Dict String AgentName) (uid : String) (dispatchedCents : ℤ) (detail : String)
    (delta : Option PyFloat) (trend : String) : Option TeamLeaderCard := do
  let nm := (names.get? uid).getD defaultName
  let dispatched ← fmtMoney dispatchedCents
  return ⟨uid, nm.name, nm.initials, nm.color, dispatched, detail, delta, trend⟩

def topCard (names : Dict String AgentName) (t : Top) : Option TeamLeaderCard := do
  let whole ← t.rate.round
  leaderCard names t.userId t.dispatchedCents (toString whole ++ "% rate") none ""

def moverCard (names : Dict String AgentName) (priorLbl sign trend : String) (m : Mover) : Option TeamLeaderCard := do
  let whole ← m.deltaPct.round
  leaderCard names m.userId m.dispatchedCents (sign ++ toString whole ++ "% vs " ++ priorLbl)
    (some m.deltaPct.roundTenth) trend

def cardIf {α : Type} (shown : α → Bool) (card : α → Option TeamLeaderCard) :
    Option α → Option (Option TeamLeaderCard)
  | none => some none
  | some a => if shown a then (card a).map some else some none

def zeroRank : WithBot (WithTop ℚ) := (PyFloat.finite 0).rank

def teamLeaderboard (users : List NormUser) (names : Dict String AgentName) (priorLbl : String) :
    Option TeamLeaderboard := do
  let board ← Runs.run boardStep emptyBoard users
  let top ← cardIf (fun t => 0 < t.dispatchedCents) (topCard names) board.top
  let improved ← cardIf (fun m => zeroRank < m.deltaPct.rank) (moverCard names priorLbl "+" "up") board.best
  let coaching ← cardIf (fun m => m.deltaPct.rank < zeroRank) (moverCard names priorLbl "" "down") board.worst
  return ⟨top, improved, coaching⟩

structure DashboardTeamResponse where
  periodLabel : String
  teamSize : ℕ
  team : List TeamMember
  averages : TeamAverages
  leaderboard : TeamLeaderboard

/-- Nothing where a number is too large for a float. -/
def shapeTeam (users : List AgentRow) (resolved : ResolvedPeriod) (names : Dict String AgentName) :
    Option DashboardTeamResponse := do
  let priorLbl := (priorLabel resolved.period.value).map Char.toLower
  let normUsers := users.map normUser
  let strip ← Runs.run (stripStep names) emptyStrip normUsers
  let members := sortedDown TeamMember.dispatchedInt strip.members
  let n := members.length
  let averages ← teamAverages strip n
  let leaderboard ← teamLeaderboard normUsers names priorLbl
  return ⟨"Team · " ++ resolved.label, n, members, averages, leaderboard⟩

end TheCargo.Dashboard
