import TheCargo.Dashboard.Team

namespace TheCargo.Dashboard

open Foundation

variable {names : Dict String AgentName} {priorLbl : String} {users : List NormUser} {u v : NormUser} {s t : Strip}

namespace NormUser

def dispatched (u : NormUser) : ℤ := u.current.dispatchedRevenueCents

def before (u : NormUser) : ℤ := u.prior.dispatchedRevenueCents

def HasOrders (u : NormUser) : Prop := u.current.orders ≠ 0

instance (u : NormUser) : Decidable u.HasOrders := inferInstanceAs (Decidable (_ ≠ _))

def rate (u : NormUser) : Option ℚ := (teamRate u.current).bind PyFloat.finite?

def change (u : NormUser) : Option PyFloat :=
  if 0 < u.before then percentage (u.dispatched - u.before) u.before else none

def exactChange (u : NormUser) : ℚ := ((u.dispatched - u.before : ℤ) : ℚ) / u.before

end NormUser

def ShownAs (names : Dict String AgentName) (u : NormUser) (m : TeamMember) : Prop :=
  ∃ kpis, teamKpis u.current = some kpis ∧ teamMember names u.userId kpis = some m

def meanRate (rates : List ℚ) : PyFloat :=
  if rates.length = 0 then .finite 0
  else (rates.foldl PyFloat.plus (.finite 0)).dividedBy (PyFloat.nearest rates.length)

lemma teamKpis_eq_some {cur : Metrics} {kpis : TeamKpis} (h : teamKpis cur = some kpis) :
    teamRate cur = some kpis.dispatchRate ∧ kpis.dispatchedCents = cur.dispatchedRevenueCents := by
  simp only [teamKpis, Option.bind_eq_bind, Option.bind_eq_some_iff, Option.pure_def, Option.some.injEq] at h
  obtain ⟨rate, hrate, margin, -, rfl⟩ := h
  exact ⟨hrate, rfl⟩

lemma teamMember_eq_some {uid : String} {kpis : TeamKpis} {m : TeamMember} (h : teamMember names uid kpis = some m) :
    m.userId = uid ∧ m.dispatchedInt = kpis.dispatchedCents ∧ fmtMoney kpis.dispatchedCents = some m.dispatched := by
  simp only [teamMember, Option.bind_eq_bind, Option.bind_eq_some_iff, Option.pure_def, Option.some.injEq] at h
  obtain ⟨-, -, dispatched, hdispatched, rfl⟩ := h
  exact ⟨rfl, rfl, hdispatched⟩

lemma ShownAs.userId {m : TeamMember} (h : ShownAs names u m) : m.userId = u.userId := by
  obtain ⟨kpis, -, hm⟩ := h
  exact (teamMember_eq_some hm).1

lemma ShownAs.dispatchedInt {m : TeamMember} (h : ShownAs names u m) : m.dispatchedInt = u.dispatched := by
  obtain ⟨kpis, hkpis, hm⟩ := h
  exact (teamMember_eq_some hm).2.1.trans (teamKpis_eq_some hkpis).2

lemma ShownAs.dispatched {m : TeamMember} (h : ShownAs names u m) : fmtMoney u.dispatched = some m.dispatched := by
  obtain ⟨kpis, hkpis, hm⟩ := h
  have hcents := (teamKpis_eq_some hkpis).2
  exact (congrArg fmtMoney hcents).symm.trans (teamMember_eq_some hm).2.2

structure Gathered (names : Dict String AgentName) (users : List NormUser) (s : Strip) : Prop where
  members : List.Forall₂ (ShownAs names) users s.members
  rates : ∃ rates, List.Forall₂ (fun u x => u.rate = some x) (users.filter NormUser.HasOrders) rates ∧
    s.sums.rate = rates.foldl PyFloat.plus (.finite 0) ∧ s.rateN = rates.length

lemma stripStep_gathered (hs : Gathered names users s) (h : stripStep names s u = some t) :
    Gathered names (users ++ [u]) t := by
  simp only [stripStep, Option.bind_eq_bind, Option.bind_eq_some_iff, Option.pure_def, Option.some.injEq] at h
  obtain ⟨kpis, hkpis, member, hmember, rate, hrate, rfl⟩ := h
  have hu : u.rate = some rate := by rw [NormUser.rate, (teamKpis_eq_some hkpis).1, Option.bind_some, hrate]
  obtain ⟨rates, hrates, hsum, hn⟩ := hs.rates
  constructor
  · exact List.rel_append hs.members (.cons ⟨kpis, hkpis, hmember⟩ .nil)
  · by_cases ho : u.current.orders = 0
    · have hnot : ¬ u.HasOrders := not_not.mpr ho
      refine ⟨rates, ?_, ?_, ?_⟩
      · simpa [List.filter_append, hnot] using hrates
      · simpa only [if_pos ho] using hsum
      · simpa only [if_pos ho] using hn
    · have hhas : u.HasOrders := ho
      refine ⟨rates ++ [rate], ?_, ?_, ?_⟩
      · rw [List.filter_append, List.filter_cons_of_pos (by simpa using hhas), List.filter_nil]
        exact List.rel_append hrates (.cons hu .nil)
      · simp only [if_neg ho, hsum, List.foldl_append, List.foldl_cons, List.foldl_nil]
      · simp only [if_neg ho, hn, List.length_append, List.length_singleton]

lemma gathered_empty : Gathered names [] emptyStrip := ⟨.nil, [], .nil, rfl, rfl⟩

lemma run_gathered (h : Runs.run (stripStep names) emptyStrip users = some s) : Gathered names users s :=
  Runs.run_gathers (fun _ _ _ _ hs hstep => stripStep_gathered hs hstep) gathered_empty h

lemma avgRate_eq_meanRate (h : Gathered names users s) :
    ∃ rates, List.Forall₂ (fun u x => u.rate = some x) (users.filter NormUser.HasOrders) rates ∧
      avgRate s = meanRate rates := by
  obtain ⟨rates, hrates, hsum, hn⟩ := h.rates
  exact ⟨rates, hrates, by rw [avgRate, meanRate, hsum, hn]⟩

structure Ranked (users : List NormUser) (b : Board) : Prop where
  top : ∃ tops, List.Forall₂ (fun (u : NormUser) (t : Top) => t.dispatchedCents = u.dispatched ∧ t.userId = u.userId)
      users tops ∧ b.top = leader Top.dispatchedCents tops
  movers : ∃ movers, List.Forall₂ (fun (u : NormUser) (m : Mover) =>
      u.change = some m.deltaPct ∧ m.userId = u.userId ∧ m.dispatchedCents = u.dispatched)
      (users.filter (fun u => 0 < u.before)) movers ∧ b.best = leader Mover.up movers ∧
        b.worst = leader Mover.down movers

lemma boardStep_ranked {b c : Board} (hb : Ranked users b) (h : boardStep b u = some c) : Ranked (users ++ [u]) c := by
  obtain ⟨tops, htops, htop⟩ := hb.top
  obtain ⟨movers, hmovers, hbest, hworst⟩ := hb.movers
  simp only [boardStep, Option.bind_eq_bind, Option.bind_eq_some_iff] at h
  obtain ⟨rate, -, h⟩ := h
  have htops' := List.rel_append htops (.cons (b := (⟨u.dispatched, u.userId, rate⟩ : Top)) ⟨rfl, rfl⟩ .nil)
  split at h
  · next hprior =>
    obtain ⟨delta, hdelta, hc⟩ := Option.bind_eq_some_iff.mp h
    obtain rfl := Option.some.inj hc
    have hprior : 0 < u.before := hprior
    have hchange : u.change = some delta := (if_pos hprior).trans hdelta
    refine ⟨⟨_, htops', by rw [leader_concat, ← htop]; rfl⟩, ⟨movers ++ [⟨delta, u.userId, u.dispatched⟩], ?_, ?_, ?_⟩⟩
    · rw [List.filter_append, List.filter_cons_of_pos (by simpa using hprior), List.filter_nil]
      exact List.rel_append hmovers (.cons ⟨hchange, rfl, rfl⟩ .nil)
    · rw [leader_concat, ← hbest]
      rfl
    · rw [leader_concat, ← hworst]
      rfl
  · next hprior =>
    have hprior : ¬ 0 < u.before := hprior
    obtain rfl := Option.some.inj h
    refine ⟨⟨_, htops', by rw [leader_concat, ← htop]; rfl⟩, ⟨movers, ?_, hbest, hworst⟩⟩
    rw [List.filter_append, List.filter_cons_of_neg (by simpa using hprior), List.filter_nil, List.append_nil]
    exact hmovers

lemma run_ranked {b : Board} (h : Runs.run boardStep emptyBoard users = some b) : Ranked users b :=
  Runs.run_gathers (fun _ _ _ _ hb hstep => boardStep_ranked hb hstep) ⟨⟨[], .nil, rfl⟩, ⟨[], .nil, rfl, rfl⟩⟩ h

end TheCargo.Dashboard
