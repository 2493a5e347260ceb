import TheCargo.Negotiation.NextStep

namespace TheCargo.Negotiation

def Side.other : Side → Side
  | .buy => .sell
  | .sell => .buy

structure Party where
  band : Band
  maxConcessions : ℤ

structure Ending where
  mover : Side
  offers : Side → List ℚ
  step : Step

def Ending.counters (e : Ending) : ℕ := (e.offers .buy).length + (e.offers .sell).length

variable (party : Side → Party)

def answer (mover : Side) (offers : Side → List ℚ) : Step :=
  nextStep mover (party mover).band (party mover).maxConcessions (offers mover) (offers mover.other).getLast?

def exchange : ℕ → Side → (Side → List ℚ) → Option Ending
  | 0, _, _ => none
  | fuel + 1, mover, offers =>
    let step := answer party mover offers
    if step.outcome = .counter then
      exchange fuel mover.other (Function.update offers mover (offers mover ++ step.counters))
    else some ⟨mover, offers, step⟩

def rungs (side : Side) : List ℚ := ladder side (party side).band (party side).maxConcessions

def mostCounters : ℕ :=
  ((party .buy).maxConcessions.toNat + 1) + ((party .sell).maxConcessions.toNat + 1)

structure SettlesFairly (e : Ending) : Prop where
  few : e.counters ≤ mostCounters party
  ends : e.step.outcome ≠ .counter
  fair : e.step.outcome = .accepted →
    ∃ price, e.step.price = some price ∧ (party .sell).band.limit ≤ price ∧ price ≤ (party .buy).band.limit
  apart : (party .buy).band.limit < (party .sell).band.limit → e.step.outcome ≠ .accepted
  agrees : (party .sell).band.limit ≤ (party .buy).band.limit → (∀ side, 1 ≤ (party side).maxConcessions) →
    (rungs party .buy).length = (rungs party .sell).length → e.step.outcome = .accepted

variable {party}

structure Facing (party : Side → Party) (mover : Side) (offers : Side → List ℚ) : Prop where
  named : ∀ side, offers side <+: rungs party side
  turn : (offers mover.other).length = (offers mover).length ∨
    (offers mover.other).length = (offers mover).length + 1

lemma other_other (side : Side) : side.other.other = side := by cases side <;> rfl

lemma other_ne (side : Side) : side.other ≠ side := by cases side <;> simp [Side.other]

lemma Facing.answers {mover : Side} {offers : Side → List ℚ} (h : Facing party mover offers) :
    Answers mover (party mover).band (party mover).maxConcessions (offers mover) (offers mover.other).getLast?
      (answer party mover offers) :=
  nextStep_answers (h.named mover) _

lemma Facing.next {mover : Side} {offers : Side → List ℚ} (h : Facing party mover offers)
    (hc : (answer party mover offers).outcome = .counter) :
    ∃ price, (answer party mover offers).counters = [price] ∧
      Facing party mover.other (Function.update offers mover (offers mover ++ [price])) := by
  have ha := h.answers
  generalize answer party mover offers = step at ha hc
  cases ha with
  | accepted _ _ _ _ _ => simp at hc
  | counter price hnext _ =>
    refine ⟨price, rfl, ?_, ?_⟩
    · intro side
      by_cases hs : side = mover
      · rw [hs, Function.update_self]
        exact hnext
      · rw [Function.update_of_ne hs]
        exact h.named side
    · have hturn := h.turn
      rw [other_other, Function.update_self, Function.update_of_ne (other_ne mover), List.length_append,
        List.length_singleton]
      omega
  | escalate _ _ => simp at hc

def left (party : Side → Party) (offers : Side → List ℚ) (side : Side) : ℕ :=
  (rungs party side).length - (offers side).length

lemma left_next {mover : Side} {offers : Side → List ℚ} {price : ℚ}
    (h : Facing party mover.other (Function.update offers mover (offers mover ++ [price]))) :
    left party (Function.update offers mover (offers mover ++ [price])) mover.other +
        left party (Function.update offers mover (offers mover ++ [price])) mover + 1 =
      left party offers mover + left party offers mover.other := by
  have hlen := (h.named mover).length_le
  rw [Function.update_self, List.length_append, List.length_singleton] at hlen
  simp only [left, Function.update_self, Function.update_of_ne (other_ne mover), List.length_append,
    List.length_singleton]
  omega

lemma exchange_ends (n : ℕ) {mover : Side} {offers : Side → List ℚ} (h : Facing party mover offers)
    (hn : left party offers mover + left party offers mover.other = n) :
    ∃ e, (∀ fuel, n < fuel → exchange party fuel mover offers = some e) ∧ Facing party e.mover e.offers ∧
      e.step = answer party e.mover e.offers ∧ e.step.outcome ≠ .counter := by
  induction n generalizing mover offers with
  | zero =>
    have hstop : (answer party mover offers).outcome ≠ .counter := by
      intro hc
      obtain ⟨price, _, hnext⟩ := h.next hc
      have hleft := left_next hnext
      omega
    refine ⟨⟨mover, offers, answer party mover offers⟩, ?_, h, rfl, hstop⟩
    intro fuel hf
    obtain ⟨fuel, rfl⟩ := Nat.exists_eq_add_one_of_ne_zero hf.ne'
    rw [exchange, if_neg hstop]
  | succ n ih =>
    by_cases hc : (answer party mover offers).outcome = .counter
    · obtain ⟨price, hprice, hnext⟩ := h.next hc
      have hleft := left_next hnext
      obtain ⟨e, he, hend⟩ := ih hnext (by rw [other_other]; omega)
      refine ⟨e, ?_, hend⟩
      intro fuel hf
      obtain ⟨fuel, rfl⟩ := Nat.exists_eq_add_one_of_ne_zero (Nat.ne_zero_of_lt hf)
      rw [exchange, if_pos hc, hprice]
      exact he fuel (by omega)
    · refine ⟨⟨mover, offers, answer party mover offers⟩, ?_, h, rfl, hc⟩
      intro fuel hf
      obtain ⟨fuel, rfl⟩ := Nat.exists_eq_add_one_of_ne_zero (Nat.ne_zero_of_lt hf)
      rw [exchange, if_neg hc]

lemma limits_of_toward {side : Side} {price : ℚ}
    (hmine : side.toward price ≤ side.toward (party side).band.limit)
    (hother : side.other.toward price ≤ side.other.toward (party side.other).band.limit) :
    (party .sell).band.limit ≤ price ∧ price ≤ (party .buy).band.limit := by
  cases side with
  | buy => exact ⟨neg_le_neg_iff.mp hother, hmine⟩
  | sell => exact ⟨neg_le_neg_iff.mp hmine, hother⟩

lemma limits_apart {side : Side}
    (h : beyond side (party side.other).band.limit (party side).band.limit = true) :
    (party .buy).band.limit < (party .sell).band.limit := by
  cases side with
  | buy => exact decide_eq_true_eq.mp h
  | sell => exact decide_eq_true_eq.mp h

section

variable (hlead : ∀ side, Leads side (party side).band (party side).maxConcessions (rungs party side)) {mover : Side}
  {offers : Side → List ℚ} (h : Facing party mover offers)

include hlead h

lemma accepted_within_limits (hacc : (answer party mover offers).outcome = .accepted) :
    ∃ price, (answer party mover offers).price = some price ∧ (party .sell).band.limit ≤ price ∧
      price ≤ (party .buy).band.limit := by
  have hanswers := h.answers
  generalize answer party mover offers = step at hanswers hacc
  cases hanswers with
  | accepted a price hask hprice htakes =>
    have hnamed : a ∈ rungs party mover.other := (h.named _).subset (List.mem_of_getLast? hask)
    exact ⟨a, rfl, limits_of_toward (htakes.trans ((hlead _).within price hprice)) ((hlead _).within a hnamed)⟩
  | counter _ _ _ => simp at hacc
  | escalate _ _ => simp at hacc

lemma accepted_of_meeting (hstop : (answer party mover offers).outcome ≠ .counter)
    (hmeet : (party .sell).band.limit ≤ (party .buy).band.limit) (hmoves : ∀ side, 1 ≤ (party side).maxConcessions)
    (hlength : (rungs party .buy).length = (rungs party .sell).length) :
    (answer party mover offers).outcome = .accepted := by
  have hanswers := h.answers
  generalize answer party mover offers = step at hanswers hstop
  cases hanswers with
  | accepted _ _ _ _ _ => rfl
  | counter _ _ _ => simp at hstop
  | escalate hall hask =>
    -- Both ladders have been named to their ends, so the ask is the other side's limit.
    have hlens : (rungs party mover).length = (rungs party mover.other).length := by
      cases mover with
      | buy => exact hlength
      | sell => exact hlength.symm
    have hother : offers mover.other = rungs party mover.other := by
      apply (h.named _).eq_of_length_le
      have hturn := h.turn
      rw [← hlens, rungs, ← hall]
      omega
    have hask' := hask (party mover.other).band.limit
      (by rw [hother]; exact (hlead _).ends (hmoves _)) (party mover).band.limit
      (by rw [hall]; exact (hlead _).ends (hmoves _))
    exact absurd hmeet (not_le.mpr (limits_apart hask'))

end

theorem exchange_settles (party : Side → Party)
    (hbands : ∀ side, beyond side (party side).band.opening (party side).band.limit = false) (starter : Side) :
    ∃ e, (∀ fuel, mostCounters party < fuel → exchange party fuel starter (fun _ => []) = some e) ∧
      SettlesFairly party e := by
  have hlead : ∀ side, Leads side (party side).band (party side).maxConcessions (rungs party side) :=
    fun side => ladder_leads (hbands side) _
  have hstart : Facing party starter (fun _ => []) := ⟨fun _ => List.nil_prefix, Or.inl rfl⟩
  obtain ⟨e, hrun, hface, hstep, hstop⟩ := exchange_ends _ hstart rfl
  have hfair := accepted_within_limits hlead hface
  have hagrees := accepted_of_meeting hlead hface (hstep ▸ hstop)
  rw [← hstep] at hfair hagrees
  refine ⟨e, ?_, ?_, hstop, hfair, ?_, hagrees⟩
  · intro fuel hf
    apply hrun
    have hbuy := (hlead .buy).short
    have hsell := (hlead .sell).short
    rw [mostCounters] at hf
    cases starter <;> (simp only [left, Side.other, List.length_nil]; omega)
  · have hbuy := (hface.named .buy).length_le.trans (hlead .buy).short
    have hsell := (hface.named .sell).length_le.trans (hlead .sell).short
    rw [Ending.counters, mostCounters]
    omega
  · intro hapart hacc
    obtain ⟨price, _, hfloor, hceiling⟩ := hfair hacc
    exact absurd (hfloor.trans hceiling) (not_le.mpr hapart)

theorem haggling_settles :
    ∃ e, (∀ fuel, 8 < fuel → exchange (fun side => match side with
        | .buy => ⟨⟨100, 200⟩, 3⟩
        | .sell => ⟨⟨300, 150⟩, 3⟩) fuel .sell (fun _ => []) = some e) ∧
      SettlesFairly (fun side => match side with
        | .buy => ⟨⟨100, 200⟩, 3⟩
        | .sell => ⟨⟨300, 150⟩, 3⟩) e :=
  exchange_settles (fun side => match side with
    | .buy => ⟨⟨100, 200⟩, 3⟩
    | .sell => ⟨⟨300, 150⟩, 3⟩) (by intro side; cases side <;> decide +kernel) .sell

end TheCargo.Negotiation
