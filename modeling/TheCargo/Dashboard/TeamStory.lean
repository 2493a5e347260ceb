import TheCargo.Dashboard.TeamReturns

namespace TheCargo.Dashboard

open Foundation

variable {names : Dict String AgentName} {priorLbl : String} {users : List NormUser} {u v : NormUser} {s : Strip}

structure MostImproved (users : List NormUser) (u : NormUser) : Prop where
  mem : u ∈ users
  prior : 0 < u.before
  positive : 0 < u.exactChange
  largest : ∃ x, u.change = some x ∧ ∀ v ∈ users, ∀ y, v.change = some y → y.rank ≤ x.rank
  exact : ∀ v ∈ users, 0 < v.before → u.exactChange < v.exactChange → v.change = u.change

structure MostFallen (users : List NormUser) (u : NormUser) : Prop where
  mem : u ∈ users
  prior : 0 < u.before
  negative : u.exactChange < 0
  smallest : ∃ x, u.change = some x ∧ ∀ v ∈ users, ∀ y, v.change = some y → x.rank ≤ y.rank
  exact : ∀ v ∈ users, 0 < v.before → v.exactChange < u.exactChange → v.change = u.change

structure OneStory (names : Dict String AgentName) (users : List NormUser) (r : DashboardTeamResponse) : Prop where
  size : r.teamSize = users.length
  team : ∃ shown, List.Forall₂ (ShownAs names) users shown ∧ r.team.Perm shown ∧
    ∀ cents, r.team.filter (fun m => m.dispatchedInt = cents) = shown.filter (fun m => m.dispatchedInt = cents)
  sorted : r.team.Pairwise (fun m m' => m'.dispatchedInt ≤ m.dispatchedInt)
  top : r.leaderboard.topPerformer.isSome ↔ ∃ u ∈ users, 0 < u.dispatched
  first : ∀ card, r.leaderboard.topPerformer = some card → ∃ u ∈ users, ∃ m, ShownAs names u m ∧
    r.team.head? = some m ∧ card.userId = m.userId ∧ card.dispatched = m.dispatched
  improved : ∀ card, r.leaderboard.mostImproved = some card → ∃ u, MostImproved users u ∧ card.userId = u.userId ∧
    card.delta = u.change.map PyFloat.roundTenth
  coaching : ∀ card, r.leaderboard.needsCoaching = some card → ∃ u, MostFallen users u ∧ card.userId = u.userId ∧
    card.delta = u.change.map PyFloat.roundTenth
  average : ∃ rates, List.Forall₂ (fun u x => u.rate = some x) (users.filter NormUser.HasOrders) rates ∧
    r.averages.dispatchRate = (meanRate rates).roundTenth ∧
    (meanRate rates).round.map (fun whole => toString whole ++ "%") = some r.averages.dispatchRateLabel

lemma MostImproved.ne (hu : MostImproved users u) (hv : MostFallen users v) : u ≠ v := by
  rintro rfl
  exact absurd hu.positive (not_lt.mpr hv.negative.le)

lemma OneStory.apart {r : DashboardTeamResponse} (h : OneStory names users r)
    (hnodup : (users.map NormUser.userId).Nodup) {card card' : TeamLeaderCard}
    (hcard : r.leaderboard.mostImproved = some card) (hcard' : r.leaderboard.needsCoaching = some card') :
    card.userId ≠ card'.userId := by
  obtain ⟨u, hu, hid, -⟩ := h.improved card hcard
  obtain ⟨v, hv, hid', -⟩ := h.coaching card' hcard'
  rw [hid, hid']
  intro heq
  exact hu.ne hv (List.inj_on_of_nodup_map hnodup hu.mem hv.mem heq)

lemma change_eq_some {x : PyFloat} (h : u.change = some x) :
    0 < u.before ∧ percentage (u.dispatched - u.before) u.before = some x := by
  rw [NormUser.change] at h
  split at h
  · next hprior => exact ⟨hprior, h⟩
  · exact absurd h (by simp)

lemma change_mono {x y : PyFloat} (hx : u.change = some x) (hy : v.change = some y)
    (h : u.exactChange ≤ v.exactChange) : x.rank ≤ y.rank :=
  percentage_mono h (change_eq_some hx).2 (change_eq_some hy).2

lemma exactChange_pos {x : PyFloat} (hx : u.change = some x) (h : zeroRank < x.rank) : 0 < u.exactChange := by
  by_contra hle
  have hzero : u.exactChange ≤ ((0 : ℤ) : ℚ) / ((1 : ℤ) : ℚ) := by simpa using not_lt.mp hle
  exact absurd (percentage_mono hzero (change_eq_some hx).2 (percentage_zero 1)) (not_le.mpr h)

lemma exactChange_neg {x : PyFloat} (hx : u.change = some x) (h : x.rank < zeroRank) : u.exactChange < 0 := by
  by_contra hle
  have hzero : ((0 : ℤ) : ℚ) / ((1 : ℤ) : ℚ) ≤ u.exactChange := by simpa using not_lt.mp hle
  exact absurd (percentage_mono hzero (percentage_zero 1) (change_eq_some hx).2) (not_le.mpr h)

lemma cardIf_eq {α : Type} {shown : α → Bool} {card : α → Option TeamLeaderCard} {found : Option α}
    {c : Option TeamLeaderCard} (h : cardIf shown card found = some c) :
    (c.isSome ↔ ∃ a, found = some a ∧ shown a) ∧ ∀ x, c = some x → ∃ a, found = some a ∧ shown a ∧ card a = some x := by
  cases found with
  | none =>
    obtain rfl := Option.some.inj h
    simp
  | some a =>
    rw [cardIf] at h
    split at h
    · next ha =>
      obtain ⟨x, hx, rfl⟩ := Option.map_eq_some_iff.mp h
      simp [ha, hx]
    · next ha =>
      obtain rfl := Option.some.inj h
      simp [ha]

lemma leaderCard_eq_some {uid detail trend : String} {cents : ℤ} {delta : Option PyFloat} {card : TeamLeaderCard}
    (h : leaderCard names uid cents detail delta trend = some card) :
    card.userId = uid ∧ card.delta = delta ∧ fmtMoney cents = some card.dispatched := by
  simp only [leaderCard, Option.bind_eq_bind, Option.bind_eq_some_iff, Option.pure_def, Option.some.injEq] at h
  obtain ⟨dispatched, hdispatched, rfl⟩ := h
  exact ⟨rfl, rfl, hdispatched⟩

lemma topCard_eq_some {t : Top} {card : TeamLeaderCard} (h : topCard names t = some card) :
    card.userId = t.userId ∧ fmtMoney t.dispatchedCents = some card.dispatched := by
  obtain ⟨whole, -, h⟩ := Option.bind_eq_some_iff.mp h
  exact ⟨(leaderCard_eq_some h).1, (leaderCard_eq_some h).2.2⟩

lemma moverCard_eq_some {sign trend : String} {m : Mover} {card : TeamLeaderCard}
    (h : moverCard names priorLbl sign trend m = some card) :
    card.userId = m.userId ∧ card.delta = some m.deltaPct.roundTenth := by
  obtain ⟨whole, -, h⟩ := Option.bind_eq_some_iff.mp h
  exact ⟨(leaderCard_eq_some h).1, (leaderCard_eq_some h).2.1⟩

lemma teamLeaderboard_eq_some {board : TeamLeaderboard} (h : teamLeaderboard users names priorLbl = some board) :
    ∃ b, Ranked users b ∧
      cardIf (fun t => 0 < t.dispatchedCents) (topCard names) b.top = some board.topPerformer ∧
      cardIf (fun m => zeroRank < m.deltaPct.rank) (moverCard names priorLbl "+" "up") b.best =
        some board.mostImproved ∧
      cardIf (fun m => m.deltaPct.rank < zeroRank) (moverCard names priorLbl "" "down") b.worst =
        some board.needsCoaching := by
  simp only [teamLeaderboard, Option.bind_eq_bind, Option.bind_eq_some_iff, Option.pure_def, Option.some.injEq] at h
  obtain ⟨b, hb, top, htop, improved, himproved, coaching, hcoaching, rfl⟩ := h
  exact ⟨b, run_ranked hb, htop, himproved, hcoaching⟩

section Board

variable {b : Board}

lemma Ranked.top_iff (h : Ranked users b) :
    (∃ t, b.top = some t ∧ 0 < t.dispatchedCents) ↔ ∃ u ∈ users, 0 < u.dispatched := by
  obtain ⟨tops, htops, htop⟩ := h.top
  rw [htop, exists_leader_gt]
  constructor
  · rintro ⟨t, ht, hpos⟩
    obtain ⟨u, hu, hcents, -⟩ := forall₂_mem htops.flip ht
    exact ⟨u, hu, hcents ▸ hpos⟩
  · rintro ⟨u, hu, hpos⟩
    obtain ⟨t, ht, hcents, -⟩ := forall₂_mem htops hu
    exact ⟨t, ht, hcents ▸ hpos⟩

lemma Ranked.top_leads (h : Ranked users b) {t : Top} (ht : b.top = some t) :
    ∃ u, (t.dispatchedCents = u.dispatched ∧ t.userId = u.userId) ∧ Leads NormUser.dispatched users u := by
  obtain ⟨tops, htops, htop⟩ := h.top
  exact (leads_of_leader (htop ▸ ht)).pull (fun _ _ hR => hR.1.symm) htops

lemma mover_mem {movers : List Mover} (h : List.Forall₂ (fun (u : NormUser) (m : Mover) =>
      u.change = some m.deltaPct ∧ m.userId = u.userId ∧ m.dispatchedCents = u.dispatched)
      (users.filter (fun u => 0 < u.before)) movers) (hv : v ∈ users) {y : PyFloat} (hy : v.change = some y) :
    ∃ m ∈ movers, m.deltaPct = y := by
  obtain ⟨m, hm, hchange, -⟩ := forall₂_mem h
    (List.mem_filter.mpr ⟨hv, decide_eq_true (change_eq_some hy).1⟩)
  exact ⟨m, hm, Option.some.inj (hchange.symm.trans hy)⟩

lemma change_of_prior {movers : List Mover} (h : List.Forall₂ (fun (u : NormUser) (m : Mover) =>
      u.change = some m.deltaPct ∧ m.userId = u.userId ∧ m.dispatchedCents = u.dispatched)
      (users.filter (fun u => 0 < u.before)) movers) (hv : v ∈ users) (hprior : 0 < v.before) :
    ∃ y, v.change = some y := by
  obtain ⟨m, -, hchange, -⟩ := forall₂_mem h (List.mem_filter.mpr ⟨hv, decide_eq_true hprior⟩)
  exact ⟨m.deltaPct, hchange⟩

lemma Ranked.improved (h : Ranked users b) {m : Mover} (hm : b.best = some m) (hpos : zeroRank < m.deltaPct.rank) :
    ∃ u, MostImproved users u ∧ m.userId = u.userId ∧ u.change = some m.deltaPct := by
  obtain ⟨movers, hmovers, hbest, -⟩ := h.movers
  have hlead := leads_of_leader (hbest ▸ hm)
  obtain ⟨u, hu, hchange, hid, -⟩ := forall₂_mem hmovers.flip hlead.mem
  have hlargest : ∀ v ∈ users, ∀ y, v.change = some y → y.rank ≤ m.deltaPct.rank := by
    intro v hv y hy
    obtain ⟨m', hm', rfl⟩ := mover_mem hmovers hv hy
    exact hlead.le m' hm'
  refine ⟨u, ⟨(List.mem_filter.mp hu).1, (change_eq_some hchange).1, exactChange_pos hchange hpos,
    ⟨m.deltaPct, hchange, hlargest⟩, ?_⟩, hid, hchange⟩
  intro v hv hprior hlt
  obtain ⟨y, hy⟩ := change_of_prior hmovers hv hprior
  have hle := change_mono hchange hy hlt.le
  rw [hy, hchange, PyFloat.rank_injective ((hlargest v hv y hy).antisymm hle)]

lemma Ranked.coaching (h : Ranked users b) {m : Mover} (hm : b.worst = some m) (hneg : m.deltaPct.rank < zeroRank) :
    ∃ u, MostFallen users u ∧ m.userId = u.userId ∧ u.change = some m.deltaPct := by
  obtain ⟨movers, hmovers, -, hworst⟩ := h.movers
  have hlead := leads_of_leader (hworst ▸ hm)
  obtain ⟨u, hu, hchange, hid, -⟩ := forall₂_mem hmovers.flip hlead.mem
  have hsmallest : ∀ v ∈ users, ∀ y, v.change = some y → m.deltaPct.rank ≤ y.rank := by
    intro v hv y hy
    obtain ⟨m', hm', rfl⟩ := mover_mem hmovers hv hy
    exact OrderDual.toDual_le_toDual.mp (hlead.le m' hm')
  refine ⟨u, ⟨(List.mem_filter.mp hu).1, (change_eq_some hchange).1, exactChange_neg hchange hneg,
    ⟨m.deltaPct, hchange, hsmallest⟩, ?_⟩, hid, hchange⟩
  intro v hv hprior hlt
  obtain ⟨y, hy⟩ := change_of_prior hmovers hv hprior
  have hle := change_mono hy hchange hlt.le
  rw [hy, hchange, PyFloat.rank_injective (hle.antisymm (hsmallest v hv y hy))]

end Board

lemma teamAverages_rate {rates : List ℚ} {n : ℕ} {averages : TeamAverages} (hrate : avgRate s = meanRate rates)
    (hzero : n = 0 → rates = []) (h : teamAverages s n = some averages) :
    averages.dispatchRate = (meanRate rates).roundTenth ∧
      (meanRate rates).round.map (fun whole => toString whole ++ "%") = some averages.dispatchRateLabel := by
  rw [teamAverages] at h
  split at h
  · next hn =>
    obtain rfl := Option.some.inj h
    have hempty : meanRate rates = .finite 0 := by rw [hzero hn]; rfl
    rw [hempty]
    have hround : halfEven (0 * 10) = 0 := by norm_num [halfEven]
    have hwhole : halfEven 0 = 0 := halfEven_intCast 0
    refine ⟨?_, ?_⟩
    · rw [PyFloat.roundTenth, hround, Int.cast_zero, zero_div, PyFloat.ofRat_zero]
      rfl
    · rw [PyFloat.round, PyFloat.finite?, Option.map_some, hwhole]
      rfl
  · simp only [Option.bind_eq_bind, Option.bind_eq_some_iff, Option.pure_def, Option.some.injEq] at h
    obtain ⟨-, -, -, -, -, -, -, -, -, -, whole, hwhole, -, -, -, -, rfl⟩ := h
    rw [hrate] at hwhole
    exact ⟨by rw [hrate], by rw [hwhole]; rfl⟩

lemma oneStory {rows : List AgentRow} {resolved : ResolvedPeriod} {r : DashboardTeamResponse}
    (h : shapeTeam rows resolved names = some r) : OneStory names (rows.map normUser) r := by
  simp only [shapeTeam, Option.bind_eq_bind, Option.bind_eq_some_iff, Option.pure_def, Option.some.injEq] at h
  obtain ⟨s, hs, averages, haverages, board, hboard, rfl⟩ := h
  have hstrip := run_gathered hs
  obtain ⟨b, hb, htop, himproved, hcoaching⟩ := teamLeaderboard_eq_some hboard
  have hperm := sortedDown_perm TeamMember.dispatchedInt s.members
  obtain ⟨hpresent, hcard⟩ := cardIf_eq htop
  have hlength : (sortedDown TeamMember.dispatchedInt s.members).length = (rows.map normUser).length :=
    hperm.length_eq.trans hstrip.members.length_eq.symm
  constructor
  · exact hlength
  · exact ⟨s.members, hstrip.members, hperm, fun cents => sortedDown_filter_key s.members cents⟩
  · exact sortedDown_pairwise TeamMember.dispatchedInt s.members
  · rw [hpresent, ← hb.top_iff]
    simp only [decide_eq_true_eq]
  · intro card hc
    obtain ⟨t, ht, -, hcard⟩ := hcard card hc
    obtain ⟨u, ⟨hcents, hid⟩, hlead⟩ := hb.top_leads ht
    obtain ⟨m, hm, hlead'⟩ := hlead.pull (fun _ _ hR => ShownAs.dispatchedInt hR) hstrip.members.flip
    obtain ⟨hcardId, hcardText⟩ := topCard_eq_some hcard
    have hmoney := ShownAs.dispatched hm
    rw [hcents, hmoney] at hcardText
    exact ⟨u, hlead.mem, m, hm, head_of_leads hlead', by rw [hcardId, hid, ShownAs.userId hm],
      (Option.some.inj hcardText).symm⟩
  · intro card hc
    obtain ⟨m, hm, hpos, hcard⟩ := (cardIf_eq himproved).2 card hc
    obtain ⟨u, hu, hid, hchange⟩ := hb.improved hm (of_decide_eq_true hpos)
    obtain ⟨hcardId, hdelta⟩ := moverCard_eq_some hcard
    exact ⟨u, hu, hcardId.trans hid, by rw [hdelta, hchange]; rfl⟩
  · intro card hc
    obtain ⟨m, hm, hneg, hcard⟩ := (cardIf_eq hcoaching).2 card hc
    obtain ⟨u, hu, hid, hchange⟩ := hb.coaching hm (of_decide_eq_true hneg)
    obtain ⟨hcardId, hdelta⟩ := moverCard_eq_some hcard
    exact ⟨u, hu, hcardId.trans hid, by rw [hdelta, hchange]; rfl⟩
  · obtain ⟨rates, hrates, hrate⟩ := avgRate_eq_meanRate hstrip
    refine ⟨rates, hrates, teamAverages_rate hrate ?_ haverages⟩
    intro hn
    rw [hlength] at hn
    rw [List.length_eq_zero_iff.mp hn] at hrates
    exact List.forall₂_nil_left_iff.mp hrates

lemma orderless_average {before after : List AgentRow} {row : AgentRow} {resolved : ResolvedPeriod}
    {r r' : DashboardTeamResponse} (hrow : (normUser row).current.orders = 0)
    (hr : shapeTeam (before ++ row :: after) resolved names = some r)
    (hr' : shapeTeam (before ++ after) resolved names = some r') :
    r.averages.dispatchRate = r'.averages.dispatchRate ∧
      r.averages.dispatchRateLabel = r'.averages.dispatchRateLabel := by
  obtain ⟨rates, hrates, hrate, hlabel⟩ := (oneStory hr).average
  obtain ⟨rates', hrates', hrate', hlabel'⟩ := (oneStory hr').average
  have hnot : ¬ (normUser row).HasOrders := not_not.mpr hrow
  have hfilter : ((before ++ row :: after).map normUser).filter NormUser.HasOrders =
      ((before ++ after).map normUser).filter NormUser.HasOrders := by
    rw [List.map_append, List.map_append, List.map_cons, List.filter_append, List.filter_append,
      List.filter_cons_of_neg (by simpa using hnot)]
  rw [hfilter] at hrates
  have hunique : Relator.RightUnique (fun (u : NormUser) (x : ℚ) => u.rate = some x) :=
    fun _ _ _ hx hy => Option.some.inj (hx.symm.trans hy)
  obtain rfl := hunique.forall₂ hrates hrates'
  exact ⟨hrate.trans hrate'.symm, Option.some.inj (hlabel.symm.trans hlabel')⟩

theorem shapeTeam_oneStory (rows : List AgentRow) (resolved : ResolvedPeriod) (names : Dict String AgentName) :
    (Storable (rows.map normUser) → ∃ r, shapeTeam rows resolved names = some r) ∧
      (∀ r, shapeTeam rows resolved names = some r → OneStory names (rows.map normUser) r ∧
        (((rows.map normUser).map NormUser.userId).Nodup → ∀ card card', r.leaderboard.mostImproved = some card →
          r.leaderboard.needsCoaching = some card' → card.userId ≠ card'.userId)) ∧
      ∀ before row after r r', rows = before ++ row :: after → (normUser row).current.orders = 0 →
        shapeTeam rows resolved names = some r → shapeTeam (before ++ after) resolved names = some r' →
        r.averages.dispatchRate = r'.averages.dispatchRate ∧
          r.averages.dispatchRateLabel = r'.averages.dispatchRateLabel := by
  refine ⟨shapeTeam_returns names resolved, ?_, ?_⟩
  · intro r hr
    exact ⟨oneStory hr, fun hnodup _ _ hcard hcard' => (oneStory hr).apart hnodup hcard hcard'⟩
  · rintro before row after r r' rfl hrow hr hr'
    exact orderless_average hrow hr hr'

def revenue (cents : ℤ) : Option (Dict String (Option ℤ)) :=
  some (Dict.empty.set "dispatched_revenue_cents" (some cents))

def nearlyDoubled : AgentRow := ⟨"nearly doubled", revenue 213297685, revenue 107307131⟩

def nearerDoubled : AgentRow := ⟨"nearer doubled", revenue 175288041, revenue 88185002⟩

def lastWeek : ResolvedPeriod :=
  let day : Date := ⟨2024, 5, 3, leapDay.year_valid, by decide, by decide⟩
  ⟨.last7d, ⟨day, day⟩, ⟨day, day⟩, "Last 7 days"⟩

theorem shapeTeam_sameDouble :
    (shapeTeam [nearlyDoubled, nearerDoubled] lastWeek Dict.empty).bind
        (fun r => r.leaderboard.mostImproved.map (fun card => card.userId)) = some "nearly doubled" ∧
      (normUser nearlyDoubled).exactChange < (normUser nearerDoubled).exactChange ∧
      shapeTeam [⟨"huge", revenue (10 ^ 400), none⟩] lastWeek Dict.empty = none := by
  refine ⟨by decide +kernel, by decide +kernel, ?_⟩
  exact Option.isNone_iff_eq_none.mp (by decide +kernel)

end TheCargo.Dashboard
