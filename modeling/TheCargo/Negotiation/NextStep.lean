import TheCargo.Negotiation.Ladder

namespace TheCargo.Negotiation

inductive Outcome
  | accepted
  | counter
  | escalate
  deriving DecidableEq, Repr

structure Step where
  outcome : Outcome
  price : Option ℚ
  deriving DecidableEq, Repr

def takes (side : Side) (ask price : ℚ) : Bool :=
  match side with
  | .buy => ask ≤ price
  | .sell => price ≤ ask

variable (side : Side) (band : Band) (maxConcessions : ℤ)

def nextStep (offers : List ℚ) (ask : Option ℚ) : Step :=
  if ask.any (fun ask => offers.getLast?.any (takes side ask)) then ⟨.accepted, ask⟩
  else
    match (ladder side band maxConcessions)[offers.length]? with
    | none => ⟨.escalate, ask⟩
    | some candidate =>
      if ask.any (fun ask => takes side ask candidate) then ⟨.accepted, ask⟩ else ⟨.counter, candidate⟩

structure Call where
  offers : List ℚ
  ask : Option ℚ
  step : Step

def Step.counters (s : Step) : List ℚ :=
  if s.outcome = .counter then s.price.toList else []

def negotiate (offers : List ℚ) : List (Option ℚ) → List Call
  | [] => []
  | ask :: asks =>
    let step := nextStep side band maxConcessions offers ask
    ⟨offers, ask, step⟩ :: negotiate (offers ++ step.counters) asks

def counters (calls : List Call) : List ℚ := calls.flatMap (fun c => c.step.counters)

structure StaysInBand (calls : List Call) : Prop where
  within : ∀ c ∈ calls, c.step.outcome ≠ .escalate →
    ∃ price, c.step.price = some price ∧ beyond side price band.limit = false
  opens : ∀ price ∈ (counters calls).head?, price = band.opening
  climbs : Climbs side (counters calls)
  keen : ∀ c ∈ calls, ∀ price ∈ c.step.counters, ∀ ask ∈ c.ask, beyond side ask price = true
  few : (counters calls).length ≤ maxConcessions.toNat + 1
  spent : ∀ c ∈ calls, maxConcessions.toNat + 1 ≤ c.offers.length → c.step.outcome ≠ .counter
  escalates : ∀ c ∈ calls, c.step.outcome = .escalate →
    ∃ last, (ladder side band maxConcessions).getLast? = some last ∧ c.offers.getLast? = some last ∧
      ∀ ask ∈ c.ask, beyond side ask last = true

variable {side band maxConcessions}

lemma takes_iff {ask price : ℚ} : takes side ask price = true ↔ side.toward ask ≤ side.toward price := by
  cases side <;> simp [takes, Side.toward]

lemma beyond_of_not_takes {ask price : ℚ} (h : ¬ takes side ask price = true) : beyond side ask price = true := by
  rw [takes_iff, not_le] at h
  exact beyond_iff.mpr h

inductive Answers (side : Side) (band : Band) (maxConcessions : ℤ) (offers : List ℚ) (ask : Option ℚ) : Step → Prop
  | accepted (a price : ℚ) (hask : ask = some a) (hprice : price ∈ ladder side band maxConcessions)
      (htakes : side.toward a ≤ side.toward price) : Answers side band maxConcessions offers ask ⟨.accepted, some a⟩
  | counter (price : ℚ) (hnext : offers ++ [price] <+: ladder side band maxConcessions)
      (hask : ∀ a ∈ ask, beyond side a price = true) :
      Answers side band maxConcessions offers ask ⟨.counter, some price⟩
  | escalate (hall : offers = ladder side band maxConcessions)
      (hask : ∀ a ∈ ask, ∀ last ∈ offers.getLast?, beyond side a last = true) :
      Answers side band maxConcessions offers ask ⟨.escalate, ask⟩

lemma nextStep_answers {offers : List ℚ} (h : offers <+: ladder side band maxConcessions) (ask : Option ℚ) :
    Answers side band maxConcessions offers ask (nextStep side band maxConcessions offers ask) := by
  obtain ⟨rest, hrest⟩ := h
  rw [nextStep]
  split
  · rename_i htakes
    obtain ⟨a, rfl, hlast⟩ := (Option.any_eq_true _ _).mp htakes
    obtain ⟨last, hl, ht⟩ := (Option.any_eq_true _ _).mp hlast
    refine .accepted a last rfl ?_ (takes_iff.mp ht)
    rw [← hrest]
    exact List.mem_append_left rest (List.mem_of_getLast? hl)
  · rename_i hno
    cases rest with
    | nil =>
      rw [List.append_nil] at hrest
      rw [← hrest, List.getElem?_length]
      refine .escalate hrest ?_
      rintro a rfl last hl
      apply beyond_of_not_takes
      intro ht
      exact hno ((Option.any_eq_true _ _).mpr ⟨a, rfl, (Option.any_eq_true _ _).mpr ⟨last, hl, ht⟩⟩)
    | cons candidate rest =>
      have hget : (ladder side band maxConcessions)[offers.length]? = some candidate := by
        rw [← hrest, List.getElem?_append_right (Nat.le_refl _), Nat.sub_self]
        rfl
      rw [hget]
      simp only
      split
      · rename_i htakes
        obtain ⟨a, rfl, ht⟩ := (Option.any_eq_true _ _).mp htakes
        exact .accepted a candidate rfl (List.mem_of_getElem? hget) (takes_iff.mp ht)
      · rename_i hkeen
        refine .counter candidate ⟨rest, ?_⟩ ?_
        · rw [← hrest, List.append_assoc, List.singleton_append]
        · rintro a rfl
          exact beyond_of_not_takes (fun ht => hkeen ((Option.any_eq_true _ _).mpr ⟨a, rfl, ht⟩))

lemma Answers.extends {offers : List ℚ} {ask : Option ℚ} {step : Step}
    (ha : Answers side band maxConcessions offers ask step) (h : offers <+: ladder side band maxConcessions) :
    offers ++ step.counters <+: ladder side band maxConcessions := by
  cases ha with
  | accepted a price _ _ _ =>
    rw [Step.counters, if_neg (by simp), List.append_nil]
    exact h
  | counter price hnext _ => exact hnext
  | escalate _ _ =>
    rw [Step.counters, if_neg (by simp), List.append_nil]
    exact h

lemma negotiate_prefix {offers : List ℚ} (h : offers <+: ladder side band maxConcessions) (asks : List (Option ℚ)) :
    (offers ++ counters (negotiate side band maxConcessions offers asks) <+: ladder side band maxConcessions) ∧
      ∀ c ∈ negotiate side band maxConcessions offers asks, c.offers <+: ladder side band maxConcessions ∧
        Answers side band maxConcessions c.offers c.ask c.step := by
  induction asks generalizing offers with
  | nil =>
    refine ⟨?_, by simp [negotiate]⟩
    rwa [negotiate, counters, List.flatMap_nil, List.append_nil]
  | cons ask asks ih =>
    have ha := nextStep_answers h ask
    obtain ⟨hc, hcalls⟩ := ih (ha.extends h)
    refine ⟨?_, ?_⟩
    · rwa [List.append_assoc] at hc
    · intro c hm
      rcases List.mem_cons.mp hm with rfl | hm
      · exact ⟨h, ha⟩
      · exact hcalls c hm

lemma ladder_ne_nil (side : Side) (band : Band) (maxConcessions : ℤ) : ladder side band maxConcessions ≠ [] := by
  rw [ladder]
  split
  · exact List.cons_ne_nil _ _
  · exact List.append_ne_nil_of_right_ne_nil _ (List.cons_ne_nil _ _)

lemma not_beyond_iff {price mark : ℚ} : beyond side price mark = false ↔ side.toward price ≤ side.toward mark := by
  rw [Bool.eq_false_iff, Ne, beyond_iff, not_lt]

section Calls

variable {offers : List ℚ} {ask : Option ℚ} {step : Step}

lemma Answers.within (ha : Answers side band maxConcessions offers ask step)
    (hl : Leads side band maxConcessions (ladder side band maxConcessions)) (hne : step.outcome ≠ .escalate) :
    ∃ price, step.price = some price ∧ beyond side price band.limit = false := by
  cases ha with
  | accepted a price _ hprice htakes => exact ⟨a, rfl, not_beyond_iff.mpr (htakes.trans (hl.within price hprice))⟩
  | counter price hnext _ => exact ⟨price, rfl, not_beyond_iff.mpr (hl.within price (hnext.subset (by simp)))⟩
  | escalate _ _ => exact absurd rfl hne

lemma Answers.keen (ha : Answers side band maxConcessions offers ask step) {price : ℚ}
    (hp : price ∈ step.counters) : ∀ a ∈ ask, beyond side a price = true := by
  cases ha with
  | accepted _ _ _ _ _ => simp [Step.counters] at hp
  | counter p _ hkeen =>
    obtain rfl : price = p := by simpa [Step.counters] using hp
    exact hkeen
  | escalate _ _ => simp [Step.counters] at hp

lemma Answers.spent (ha : Answers side band maxConcessions offers ask step)
    (hl : Leads side band maxConcessions (ladder side band maxConcessions))
    (hlen : maxConcessions.toNat + 1 ≤ offers.length) : step.outcome ≠ .counter := by
  cases ha with
  | accepted _ _ _ _ _ => simp
  | counter p hnext _ =>
    have hshort := hnext.length_le.trans hl.short
    rw [List.length_append, List.length_singleton] at hshort
    omega
  | escalate _ _ => simp

lemma Answers.escalates (ha : Answers side band maxConcessions offers ask step) (hesc : step.outcome = .escalate) :
    ∃ last, (ladder side band maxConcessions).getLast? = some last ∧ offers.getLast? = some last ∧
      ∀ a ∈ ask, beyond side a last = true := by
  cases ha with
  | accepted _ _ _ _ _ => exact absurd hesc (by simp)
  | counter _ _ _ => exact absurd hesc (by simp)
  | escalate hall hask =>
    obtain ⟨last, hlast⟩ : ∃ last, (ladder side band maxConcessions).getLast? = some last :=
      Option.ne_none_iff_exists'.mp (mt List.getLast?_eq_none_iff.mp (ladder_ne_nil side band maxConcessions))
    rw [← hall] at hlast
    refine ⟨last, ?_, hlast, ?_⟩
    · rwa [← hall]
    · intro a ha
      exact hask a ha last hlast

end Calls

theorem run_stays_in_band (side : Side) (band : Band) (maxConcessions : ℤ)
    (hband : beyond side band.opening band.limit = false) (asks : List (Option ℚ)) :
    StaysInBand side band maxConcessions (negotiate side band maxConcessions [] asks) := by
  have hl := ladder_leads hband maxConcessions
  have hnil : [] <+: ladder side band maxConcessions := List.nil_prefix
  obtain ⟨hnamed, hcalls⟩ := negotiate_prefix hnil asks
  rw [List.nil_append] at hnamed
  refine ⟨?_, ?_, hl.climbs.sublist hnamed.sublist, ?_, hnamed.length_le.trans hl.short, ?_, ?_⟩
  · intro c hc hne
    exact (hcalls c hc).2.within hl hne
  · intro price hp
    obtain ⟨rest, hrest⟩ := hnamed
    have hopens := hl.opens
    rw [← hrest, List.head?_append, Option.mem_def.mp hp, Option.some_or] at hopens
    exact Option.some.inj hopens
  · intro c hc price hp
    exact (hcalls c hc).2.keen hp
  · intro c hc hlen
    exact (hcalls c hc).2.spent hl hlen
  · intro c hc hesc
    exact (hcalls c hc).2.escalates hesc

theorem haggling_stays_in_band :
    StaysInBand .buy ⟨100, 200⟩ 3
      (negotiate .buy ⟨100, 200⟩ 3 [] [none, some 300, some 250, some 220, some 210, some 190]) :=
  run_stays_in_band .buy ⟨100, 200⟩ 3 (by decide +kernel) _

section SingleCall

variable {offers : List ℚ} {ask : Option ℚ}

def Within (side : Side) (band : Band) (step : Step) : Prop :=
  step.outcome ≠ .escalate → ∃ price, step.price = some price ∧ beyond side price band.limit = false

lemma within_accepted {a : ℚ} : Within side band ⟨.accepted, some a⟩ ↔ beyond side a band.limit = false := by
  simp [Within]

lemma within_counter {price : ℚ} : Within side band ⟨.counter, some price⟩ ↔ beyond side price band.limit = false := by
  simp [Within]

lemma within_escalate : Within side band ⟨.escalate, ask⟩ := fun h => absurd rfl h

lemma ladder_past (h : beyond side band.opening band.limit = true) (maxConcessions : ℤ) :
    ladder side band maxConcessions = [band.opening] := by
  have hgap : gap side band ≤ 0 := by
    rw [beyond_iff] at h
    rw [gap_eq]
    linarith
  rw [ladder, if_pos (Or.inl hgap)]

lemma nextStep_last {a last : ℚ} (hlast : offers.getLast? = some last) (ht : takes side a last = true) :
    nextStep side band maxConcessions offers (some a) = ⟨.accepted, some a⟩ := by
  rw [nextStep, hlast]
  exact if_pos ht

lemma nextStep_ladder (h : ∀ a ∈ ask, ∀ last ∈ offers.getLast?, takes side a last = false) :
    nextStep side band maxConcessions offers ask =
      match (ladder side band maxConcessions)[offers.length]? with
      | none => ⟨.escalate, ask⟩
      | some candidate =>
        if ask.any (fun ask => takes side ask candidate) then ⟨.accepted, ask⟩ else ⟨.counter, candidate⟩ := by
  have hno : ¬ ask.any (fun ask => offers.getLast?.any (takes side ask)) = true := by
    intro hany
    obtain ⟨a, ha, hlast⟩ := (Option.any_eq_true _ _).mp hany
    obtain ⟨last, hl, ht⟩ := (Option.any_eq_true _ _).mp hlast
    rw [h a ha last hl] at ht
    cases ht
  rw [nextStep, if_neg hno]

lemma next_within (hopen : beyond side band.opening band.limit = false)
    (h : ∀ a ∈ ask, ∀ last ∈ offers.getLast?, takes side a last = false) :
    Within side band (nextStep side band maxConcessions offers ask) := by
  rw [nextStep_ladder h]
  cases hget : (ladder side band maxConcessions)[offers.length]? with
  | none => exact within_escalate
  | some candidate =>
    have hwithin := (ladder_leads hopen maxConcessions).within candidate (List.mem_of_getElem? hget)
    dsimp only
    split
    · rename_i htakes
      obtain ⟨a, rfl, ht⟩ := (Option.any_eq_true _ _).mp htakes
      exact within_accepted.mpr (not_beyond_iff.mpr ((takes_iff.mp ht).trans hwithin))
    · exact within_counter.mpr (not_beyond_iff.mpr hwithin)

lemma next_past (hopen : beyond side band.opening band.limit = true)
    (h : ∀ a ∈ ask, ∀ last ∈ offers.getLast?, takes side a last = false) :
    Within side band (nextStep side band maxConcessions offers ask) ↔
      (offers = [] → ∃ a ∈ ask, beyond side a band.limit = false) := by
  rw [nextStep_ladder h, ladder_past hopen]
  cases offers with
  | cons offer offers => exact iff_of_true within_escalate (fun hnil => by cases hnil)
  | nil =>
    have hcounter : ¬ Within side band ⟨.counter, some band.opening⟩ := by
      rw [within_counter, hopen]
      exact Bool.noConfusion
    cases ask with
    | none => exact iff_of_false hcounter (by simp)
    | some a =>
      simp only [List.length_nil, List.getElem?_cons_zero, Option.any_some, forall_const, Option.mem_some_iff,
        exists_eq_left']
      split
      · exact within_accepted
      · rename_i hno
        refine iff_of_false hcounter ?_
        intro ha
        -- An ask within the limit is better than an opening price past it.
        rw [not_beyond_iff] at ha
        rw [beyond_iff] at hopen
        exact hno (takes_iff.mpr (ha.trans hopen.le))

end SingleCall

theorem a_call_names_no_price_past_the_limit_iff (side : Side) (band : Band) (maxConcessions : ℤ) (offers : List ℚ)
    (ask : Option ℚ) :
    Within side band (nextStep side band maxConcessions offers ask) ↔
      (offers = [] → beyond side band.opening band.limit = false ∨ ∃ a ∈ ask, beyond side a band.limit = false) ∧
        ∀ a ∈ ask, ∀ last ∈ offers.getLast?, takes side a last = true → beyond side a band.limit = false := by
  by_cases htakes : ∃ a ∈ ask, ∃ last ∈ offers.getLast?, takes side a last = true
  · obtain ⟨a, rfl, last, hlast, ht⟩ := htakes
    have hne : offers ≠ [] := by
      rintro rfl
      cases hlast
    rw [nextStep_last hlast ht, within_accepted]
    constructor
    · intro ha
      refine ⟨fun hnil => absurd hnil hne, ?_⟩
      rintro b hb _ _ _
      rwa [← Option.mem_some_iff.mp hb]
    · rintro ⟨_, hlimit⟩
      exact hlimit a rfl last hlast ht
  · have hno : ∀ a ∈ ask, ∀ last ∈ offers.getLast?, takes side a last = false := by
      intro a ha last hl
      exact Bool.eq_false_iff.mpr (fun ht => htakes ⟨a, ha, last, hl, ht⟩)
    have hvacuous : ∀ a ∈ ask, ∀ last ∈ offers.getLast?, takes side a last = true →
        beyond side a band.limit = false := by
      intro a ha last hl ht
      rw [hno a ha last hl] at ht
      cases ht
    cases hopen : beyond side band.opening band.limit with
    | false => exact iff_of_true (next_within hopen hno) ⟨fun _ => Or.inl rfl, hvacuous⟩
    | true =>
      rw [next_past hopen hno]
      simp only [Bool.true_eq_false, false_or]
      exact (and_iff_left hvacuous).symm

theorem a_price_past_the_limit_is_named :
    ¬ Within .buy ⟨200, 100⟩ (nextStep .buy ⟨200, 100⟩ 2 [] none) ∧
      ¬ Within .buy ⟨50, 100⟩ (nextStep .buy ⟨50, 100⟩ 2 [500] (some 400)) := by
  have hopens : nextStep .buy ⟨200, 100⟩ 2 [] none = ⟨.counter, some 200⟩ := by decide +kernel
  have htakes : nextStep .buy ⟨50, 100⟩ 2 [500] (some 400) = ⟨.accepted, some 400⟩ := by decide +kernel
  rw [hopens, htakes, within_counter, within_accepted]
  decide +kernel

end TheCargo.Negotiation
