import TheCargo.Dashboard.TeamLoops

namespace TheCargo.Dashboard

open Foundation

variable (names : Dict String AgentName) {users read : List NormUser} {u : NormUser} {s : Strip} {b : Board}

def NormUser.Within (u : NormUser) : Prop := u.current.Within ∧ u.prior.Within

structure Storable (users : List NormUser) : Prop where
  length : users.length < 2 ^ 53
  within : ∀ u ∈ users, u.Within

lemma teamRate_within {cur : Metrics} (h : cur.Within) : ∃ x, teamRate cur = some (.finite x) ∧ |x| ≤ 2 ^ 72 := by
  rw [teamRate]
  split
  · exact ⟨0, rfl, by norm_num⟩
  · exact percentage_within cur.orders (h.dispatched.trans (by norm_num))

lemma teamMargin_within {cur : Metrics} (h : cur.Within) : ∃ n, teamMargin cur = some n ∧ |n| ≤ 2 ^ 63 := by
  rw [teamMargin]
  split
  · exact ⟨0, rfl, by norm_num⟩
  · obtain ⟨q, hq, hle⟩ := PyFloat.trueDiv_within cur.orders (k := 63) (by norm_num) h.marginCents
    exact ⟨PyFloat.trunc q, by rw [hq]; rfl, trunc_within hle⟩

structure Sums.Within (sums : Sums) (n : ℕ) : Prop where
  quotes : |sums.quotes| ≤ n * 2 ^ 63
  dispatchedCents : |sums.dispatchedCents| ≤ n * 2 ^ 63
  margin : |sums.margin| ≤ n * 2 ^ 63
  collected : |sums.collected| ≤ n * 2 ^ 63
  rate : ∃ q, sums.rate = .finite q ∧ |q| ≤ n * 2 ^ 72

lemma abs_add_within {a c : ℤ} {n : ℕ} (ha : |a| ≤ n * 2 ^ 63) (hc : |c| ≤ 2 ^ 63) :
    |a + c| ≤ ((n + 1 : ℕ) : ℤ) * 2 ^ 63 := by
  have htri := abs_add_le a c
  push_cast
  linarith

lemma plus_within {p q : ℚ} {n : ℕ} (hn : n + 1 < 2 ^ 53) (hp : |p| ≤ n * 2 ^ 72) (hq : |q| ≤ 2 ^ 72) :
    ∃ x, (PyFloat.finite p).plus q = .finite x ∧ |x| ≤ ((n + 1 : ℕ) : ℚ) * 2 ^ 72 := by
  have hsum : |p + q| ≤ ((n + 1 : ℕ) : ℚ) * 2 ^ (72 : ℤ) := by
    have htri := abs_add_le p q
    have hpow : (2 : ℚ) ^ (72 : ℤ) = 2 ^ 72 := by norm_cast
    rw [hpow]
    push_cast
    linarith
  have hlt : ((n + 1 : ℕ) : ℚ) * 2 ^ (72 : ℤ) < 2 ^ 1024 := by
    have hcast : ((n + 1 : ℕ) : ℚ) < 2 ^ 53 := by exact_mod_cast hn
    calc ((n + 1 : ℕ) : ℚ) * 2 ^ (72 : ℤ) < 2 ^ 53 * 2 ^ (72 : ℤ) :=
          mul_lt_mul_of_pos_right hcast (by positivity)
      _ = 2 ^ 125 := by norm_num
      _ ≤ 2 ^ 1024 := pow_le_pow_right₀ (by norm_num) (by norm_num)
  refine ⟨PyFloat.nearest (p + q), PyFloat.ofRat_finite hn (by norm_num) hsum hlt, ?_⟩
  have hle := PyFloat.abs_nearest_le hn (by norm_num) hsum
  exact_mod_cast hle

structure StripWithin (read : List NormUser) (s : Strip) : Prop where
  length : s.members.length = read.length
  sums : s.sums.Within read.length

lemma stripStep_within (hread : read.length + 1 < 2 ^ 53) (hs : StripWithin read s) (hu : u.Within) :
    ∃ t, stripStep names s u = some t ∧ StripWithin (read ++ [u]) t := by
  obtain ⟨rate, hrate, hratele⟩ := teamRate_within hu.1
  obtain ⟨margin, hmargin, hmarginle⟩ := teamMargin_within hu.1
  obtain ⟨dispatched, hdispatched⟩ := fmtMoney_within (hu.1.dispatchedRevenueCents.trans (by norm_num))
  obtain ⟨q, hq, hqle⟩ := hs.sums.rate
  have hstep : ∃ t, stripStep names s u = some t ∧ t.members.length = s.members.length + 1 ∧
      t.sums = ⟨s.sums.quotes + u.current.quotes, s.sums.dispatchedCents + u.current.dispatchedRevenueCents,
        if u.current.orders = 0 then s.sums.rate else s.sums.rate.plus rate, s.sums.margin + margin,
        s.sums.collected + u.current.collectedCents⟩ := by
    simp [stripStep, teamKpis, teamMember, hrate, hmargin, hdispatched, PyFloat.round, PyFloat.finite?]
  obtain ⟨t, ht, hlength, hsums⟩ := hstep
  refine ⟨t, ht, ?_, ?_⟩
  · rw [hlength, hs.length, List.length_append, List.length_singleton]
  · rw [hsums, List.length_append, List.length_singleton]
    refine ⟨abs_add_within hs.sums.quotes hu.1.quotes,
      abs_add_within hs.sums.dispatchedCents hu.1.dispatchedRevenueCents, abs_add_within hs.sums.margin hmarginle,
      abs_add_within hs.sums.collected hu.1.collectedCents, ?_⟩
    dsimp only
    rw [hq]
    split
    · refine ⟨q, rfl, hqle.trans ?_⟩
      push_cast
      linarith
    · exact plus_within hread hqle hratele

lemma run_stripWithin (h : Storable users) :
    ∃ s, Runs.run (stripStep names) emptyStrip users = some s ∧ StripWithin users s := by
  refine Runs.run_total ?_ ⟨rfl, ⟨by norm_num [emptyStrip], by norm_num [emptyStrip],
    by norm_num [emptyStrip], by norm_num [emptyStrip], 0, rfl, by norm_num⟩⟩
  intro read s u rest heq hs
  have hlength := h.length
  rw [heq, List.length_append, List.length_cons] at hlength
  exact stripStep_within names (by omega) hs (h.within u (heq ▸ by simp))

lemma avgRate_within (hs : s.sums.Within users.length) (hn : users.length < 2 ^ 53) :
    ∃ x, avgRate s = .finite x := by
  rw [avgRate]
  split
  · exact ⟨0, rfl⟩
  · next hne =>
    obtain ⟨q, hq, hle⟩ := hs.rate
    have hone : 1 ≤ PyFloat.nearest s.rateN :=
      PyFloat.nearest_ge_one (by exact_mod_cast Nat.one_le_iff_ne_zero.mpr hne)
    have hbound : |q / PyFloat.nearest s.rateN| ≤ 2 ^ 125 := by
      rw [abs_div, abs_of_nonneg (zero_le_one.trans hone)]
      refine (div_le_self (abs_nonneg q) hone).trans (hle.trans ?_)
      have hcast : (users.length : ℚ) ≤ 2 ^ 53 := by exact_mod_cast hn.le
      linarith
    obtain ⟨x, hx, -⟩ := PyFloat.ofRat_within (by norm_num) hbound
    exact ⟨x, by rw [hq, PyFloat.dividedBy, hx]⟩

lemma mean_within {sum : ℤ} {n : ℕ} (m : ℤ) (hn : n < 2 ^ 53) (h : |sum| ≤ n * 2 ^ 63) :
    ∃ q, PyFloat.trueDiv sum m = some q ∧ |PyFloat.trunc q| ≤ 2 ^ 120 := by
  have hbound : |sum| ≤ 2 ^ 116 := by
    have hcast : (n : ℤ) ≤ 2 ^ 53 := by exact_mod_cast hn.le
    linarith
  obtain ⟨q, hq, hle⟩ := PyFloat.trueDiv_within m (by norm_num) hbound
  exact ⟨q, hq, (trunc_within hle).trans (by norm_num)⟩

lemma teamAverages_within (n : ℕ) (hs : s.sums.Within users.length) (hn : users.length < 2 ^ 53) :
    ∃ averages, teamAverages s n = some averages := by
  obtain ⟨quoted, hquoted, -⟩ := mean_within n hn hs.quotes
  obtain ⟨dispatched, hdispatched, hdispatchedle⟩ := mean_within n hn hs.dispatchedCents
  obtain ⟨margin, hmargin, hmarginle⟩ := mean_within n hn hs.margin
  obtain ⟨collected, hcollected, hcollectedle⟩ := mean_within n hn hs.collected
  obtain ⟨dispatchedText, hdispatchedText⟩ := fmtMoney_within hdispatchedle
  obtain ⟨marginText, hmarginText⟩ := fmtMoney_within hmarginle
  obtain ⟨collectedText, hcollectedText⟩ := fmtMoney_within hcollectedle
  obtain ⟨rate, hrate⟩ := avgRate_within hs hn
  rw [teamAverages]
  split
  · exact ⟨_, rfl⟩
  · simp [hquoted, hdispatched, hmargin, hcollected, hdispatchedText, hmarginText, hcollectedText, hrate,
      PyFloat.round, PyFloat.finite?]

def Top.Within (t : Top) : Prop := |t.dispatchedCents| ≤ 2 ^ 120 ∧ ∃ q, t.rate = .finite q

def Mover.Within (m : Mover) : Prop := |m.dispatchedCents| ≤ 2 ^ 120 ∧ ∃ q, m.deltaPct = .finite q

structure Board.Within (b : Board) : Prop where
  top : ∀ t, b.top = some t → t.Within
  best : ∀ m, b.best = some m → m.Within
  worst : ∀ m, b.worst = some m → m.Within

lemma overtake_within {α κ : Type} [LinearOrder κ] (key : α → κ) {P : α → Prop} {best : Option α} {a : α}
    (hbest : ∀ c, best = some c → P c) (ha : P a) : ∀ c, overtake key best a = some c → P c := by
  intro c hc
  cases best with
  | none => exact Option.some.inj hc ▸ ha
  | some d =>
    rw [overtake] at hc
    split at hc
    · exact Option.some.inj hc ▸ ha
    · exact hbest c hc

lemma boardStep_within (hb : b.Within) (hu : u.Within) : ∃ c, boardStep b u = some c ∧ c.Within := by
  obtain ⟨rate, hrate, -⟩ := teamRate_within hu.1
  have hcents : |u.current.dispatchedRevenueCents| ≤ 2 ^ 120 := hu.1.dispatchedRevenueCents.trans (by norm_num)
  have hle : |u.current.dispatchedRevenueCents - u.prior.dispatchedRevenueCents| ≤ 2 ^ 65 := by
    have hnow := hu.1.dispatchedRevenueCents
    have hbefore := hu.2.dispatchedRevenueCents
    exact (abs_sub _ _).trans (by linarith)
  obtain ⟨delta, hdelta, -⟩ := percentage_within u.prior.dispatchedRevenueCents hle
  let top : Top := ⟨u.current.dispatchedRevenueCents, u.userId, .finite rate⟩
  let mover : Mover := ⟨.finite delta, u.userId, u.current.dispatchedRevenueCents⟩
  have htop : ∀ t, overtake Top.dispatchedCents b.top top = some t → t.Within :=
    overtake_within Top.dispatchedCents hb.top ⟨hcents, rate, rfl⟩
  have hmover : mover.Within := ⟨hcents, delta, rfl⟩
  by_cases hprior : 0 < u.prior.dispatchedRevenueCents
  · have hstep : boardStep b u = some ⟨overtake Top.dispatchedCents b.top top, overtake Mover.up b.best mover,
        overtake Mover.down b.worst mover⟩ := by
      simp [boardStep, hrate, hdelta, hprior, top, mover]
    exact ⟨_, hstep, htop, overtake_within Mover.up hb.best hmover, overtake_within Mover.down hb.worst hmover⟩
  · have hstep : boardStep b u = some ⟨overtake Top.dispatchedCents b.top top, b.best, b.worst⟩ := by
      simp [boardStep, hrate, hprior, top]
    exact ⟨_, hstep, htop, hb.best, hb.worst⟩

lemma run_boardWithin (h : ∀ u ∈ users, u.Within) : ∃ b, Runs.run boardStep emptyBoard users = some b ∧ b.Within := by
  have hempty : emptyBoard.Within := ⟨by simp [emptyBoard], by simp [emptyBoard], by simp [emptyBoard]⟩
  refine Runs.run_total (I := fun _ => Board.Within) ?_ hempty
  intro read b u rest heq hb
  exact boardStep_within hb (h u (heq ▸ by simp))

lemma leaderCard_within {cents : ℤ} (uid detail : String) (delta : Option PyFloat) (trend : String)
    (h : |cents| ≤ 2 ^ 120) : ∃ card, leaderCard names uid cents detail delta trend = some card := by
  obtain ⟨text, htext⟩ := fmtMoney_within h
  simp [leaderCard, htext]

lemma cardIf_returns {α : Type} {shown : α → Bool} {card : α → Option TeamLeaderCard} {found : Option α}
    (h : ∀ a, found = some a → ∃ c, card a = some c) : ∃ c, cardIf shown card found = some c := by
  cases found with
  | none => exact ⟨none, rfl⟩
  | some a =>
    obtain ⟨c, hc⟩ := h a rfl
    rw [cardIf]
    split
    · exact ⟨some c, by rw [hc]; rfl⟩
    · exact ⟨none, rfl⟩

lemma topCard_within {t : Top} (h : t.Within) : ∃ card, topCard names t = some card := by
  obtain ⟨hcents, q, hq⟩ := h
  simpa [topCard, hq, PyFloat.round, PyFloat.finite?] using leaderCard_within names _ _ _ _ hcents

lemma moverCard_within {m : Mover} (priorLbl sign trend : String) (h : m.Within) :
    ∃ card, moverCard names priorLbl sign trend m = some card := by
  obtain ⟨hcents, q, hq⟩ := h
  simpa [moverCard, hq, PyFloat.round, PyFloat.finite?] using leaderCard_within names _ _ _ _ hcents

lemma teamLeaderboard_returns (priorLbl : String) (h : ∀ u ∈ users, u.Within) :
    ∃ board, teamLeaderboard users names priorLbl = some board := by
  obtain ⟨b, hb, hwithin⟩ := run_boardWithin h
  have htop : ∃ top, cardIf (fun t : Top => 0 < t.dispatchedCents) (topCard names) b.top = some top :=
    cardIf_returns (fun t ht => topCard_within names (hwithin.top t ht))
  have himproved : ∃ improved, cardIf (fun m : Mover => zeroRank < m.deltaPct.rank)
      (moverCard names priorLbl "+" "up") b.best = some improved :=
    cardIf_returns (fun m hm => moverCard_within names priorLbl "+" "up" (hwithin.best m hm))
  have hcoaching : ∃ coaching, cardIf (fun m : Mover => m.deltaPct.rank < zeroRank)
      (moverCard names priorLbl "" "down") b.worst = some coaching :=
    cardIf_returns (fun m hm => moverCard_within names priorLbl "" "down" (hwithin.worst m hm))
  obtain ⟨top, htop⟩ := htop
  obtain ⟨improved, himproved⟩ := himproved
  obtain ⟨coaching, hcoaching⟩ := hcoaching
  exact ⟨⟨top, improved, coaching⟩, by simp [teamLeaderboard, hb, htop, himproved, hcoaching]⟩

lemma shapeTeam_returns {rows : List AgentRow} (resolved : ResolvedPeriod) (h : Storable (rows.map normUser)) :
    ∃ r, shapeTeam rows resolved names = some r := by
  obtain ⟨s, hs, hwithin⟩ := run_stripWithin names h
  obtain ⟨averages, haverages⟩ :=
    teamAverages_within (sortedDown TeamMember.dispatchedInt s.members).length hwithin.sums h.length
  obtain ⟨board, hboard⟩ := teamLeaderboard_returns names ((priorLabel resolved.period.value).map Char.toLower) h.within
  exact ⟨_, by rw [shapeTeam]; simp only [Option.bind_eq_bind, hs, haverages, hboard, Option.bind_some]; rfl⟩

end TheCargo.Dashboard
