import Mathlib.Algebra.Order.BigOperators.Group.List
import Mathlib.Data.Rat.Floor
import Mathlib.Tactic.FieldSimp
import Mathlib.Tactic.Linarith
import Mathlib.Tactic.Ring

/-! The prices a negotiation may name, in their order. Prices are exact. -/

namespace TheCargo.Negotiation

inductive Side
  | buy
  | sell
  deriving DecidableEq, Repr

structure Band where
  opening : ℚ
  limit : ℚ
  deriving DecidableEq, Repr

def rounding : ℚ := 5

def beyond (side : Side) (price mark : ℚ) : Bool :=
  match side with
  | .buy => mark < price
  | .sell => price < mark

def gap (side : Side) (band : Band) : ℚ :=
  match side with
  | .buy => band.limit - band.opening
  | .sell => band.opening - band.limit

def weights (maxConcessions : ℤ) : List ℚ :=
  (List.range maxConcessions.toNat).map (fun i : ℕ => ((maxConcessions + 1 - i : ℤ) : ℚ))

def priceAfter (side : Side) (band : Band) (step : ℚ) : ℚ :=
  match side with
  | .buy => band.opening + step
  | .sell => band.opening - step

def concede (side : Side) (band : Band) (total : ℚ) (acc : ℚ × List ℚ) (weight : ℚ) : ℚ × List ℚ :=
  let moved := acc.1 + gap side band * weight / total
  let step := (⌊moved / rounding⌋ : ℚ) * rounding
  let price := priceAfter side band step
  if beyond side price (acc.2.getLastD band.opening) then (moved, acc.2 ++ [price]) else (moved, acc.2)

def ladder (side : Side) (band : Band) (maxConcessions : ℤ) : List ℚ :=
  if gap side band ≤ 0 ∨ maxConcessions ≤ 0 then [band.opening]
  else
    let ws := weights maxConcessions
    (ws.dropLast.foldl (concede side band ws.sum) (0, [band.opening])).2 ++ [band.limit]

/-- Prices on the scale on which the side moves upwards. -/
def Side.toward : Side → ℚ → ℚ
  | .buy, p => p
  | .sell, p => -p

variable {side : Side} {band : Band}

lemma beyond_iff {price mark : ℚ} : beyond side price mark = true ↔ side.toward mark < side.toward price := by
  cases side <;> simp [beyond, Side.toward]

lemma toward_injective {p q : ℚ} (h : side.toward p = side.toward q) : p = q := by
  cases side with
  | buy => exact h
  | sell => exact neg_injective h

lemma gap_eq : gap side band = side.toward band.limit - side.toward band.opening := by
  cases side with
  | buy => rfl
  | sell =>
    simp only [gap, Side.toward]
    ring

lemma toward_priceAfter (step : ℚ) :
    side.toward (priceAfter side band step) = side.toward band.opening + step := by
  cases side with
  | buy => rfl
  | sell =>
    simp only [priceAfter, Side.toward]
    ring

lemma floor_le (moved : ℚ) : (⌊moved / rounding⌋ : ℚ) * rounding ≤ moved := by
  have h := Int.floor_le (moved / rounding)
  rw [rounding] at h ⊢
  linarith

abbrev Climbs (side : Side) (prices : List ℚ) : Prop :=
  prices.Pairwise (fun p q => beyond side q p = true)

structure Climbing (side : Side) (band : Band) (acc : ℚ × List ℚ) : Prop where
  opens : acc.2.head? = some band.opening
  climbs : Climbs side acc.2
  near : ∀ p ∈ acc.2, side.toward p ≤ side.toward band.opening + acc.1

lemma Climbing.start (side : Side) (band : Band) : Climbing side band (0, [band.opening]) := by
  refine ⟨rfl, List.pairwise_singleton _ _, ?_⟩
  intro p hp
  rw [List.mem_singleton.mp hp, add_zero]

lemma climbs_concat {prices : List ℚ} {price last : ℚ} (h : Climbs side prices) (hl : prices.getLast? = some last)
    (hp : beyond side price last = true) : Climbs side (prices ++ [price]) := by
  obtain ⟨before, rfl⟩ := List.getLast?_eq_some_iff.mp hl
  refine List.pairwise_append.mpr ⟨h, List.pairwise_singleton _ _, ?_⟩
  intro p hm q hq
  rw [List.mem_singleton.mp hq, beyond_iff]
  rw [beyond_iff] at hp
  rcases List.mem_append.mp hm with hm | hm
  · have hb := (List.pairwise_append.mp h).2.2 p hm last (List.mem_singleton_self last)
    rw [beyond_iff] at hb
    exact hb.trans hp
  · rwa [List.mem_singleton.mp hm]

lemma Climbing.concede {acc : ℚ × List ℚ} {total weight : ℚ} (h : Climbing side band acc)
    (hm : 0 ≤ gap side band * weight / total) : Climbing side band (concede side band total acc weight) := by
  obtain ⟨moved, prices⟩ := acc
  have hnear : ∀ p ∈ prices, side.toward p ≤ side.toward band.opening + (moved + gap side band * weight / total) := by
    intro p hp
    have hn := h.near p hp
    linarith
  obtain ⟨last, hlast⟩ : ∃ last, prices.getLast? = some last := by
    cases prices with
    | nil => exact absurd h.opens (by simp)
    | cons p ps => exact ⟨_, List.getLast?_cons⟩
  have hget : prices.getLastD band.opening = last := by rw [List.getLastD_eq_getLast?, hlast, Option.getD_some]
  simp only [Negotiation.concede, hget]
  split
  · rename_i hbeyond
    refine ⟨?_, climbs_concat h.climbs hlast hbeyond, ?_⟩
    · rw [List.head?_append, h.opens, Option.some_or]
    · intro p hp
      rcases List.mem_append.mp hp with hp | hp
      · exact hnear p hp
      · rw [List.mem_singleton.mp hp, toward_priceAfter]
        exact add_le_add_right (floor_le _) _
  · exact ⟨h.opens, h.climbs, hnear⟩

lemma concede_moved (total weight : ℚ) (acc : ℚ × List ℚ) :
    (concede side band total acc weight).1 = acc.1 + gap side band * weight / total := by
  rw [concede]
  split <;> rfl

lemma climb {total : ℚ} {ws : List ℚ} (hw : ∀ w ∈ ws, 0 ≤ gap side band * w / total) {acc : ℚ × List ℚ}
    (h : Climbing side band acc) :
    Climbing side band (ws.foldl (concede side band total) acc) ∧
      (ws.foldl (concede side band total) acc).1 = acc.1 + gap side band * ws.sum / total := by
  induction ws generalizing acc with
  | nil => exact ⟨h, by simp⟩
  | cons w ws ih =>
    obtain ⟨hc, hm⟩ := ih (fun v hv => hw v (List.mem_cons_of_mem w hv)) (h.concede (hw w List.mem_cons_self))
    refine ⟨hc, ?_⟩
    rw [List.foldl_cons, hm, concede_moved, List.sum_cons]
    ring

lemma weights_split {maxConcessions : ℤ} (h : 0 < maxConcessions) :
    weights maxConcessions = (weights maxConcessions).dropLast ++ [2] ∧
      ∀ w ∈ (weights maxConcessions).dropLast, 0 < w := by
  obtain ⟨n, rfl⟩ : ∃ n : ℕ, maxConcessions = n + 1 := ⟨(maxConcessions - 1).toNat, by omega⟩
  have hn : ((n : ℤ) + 1).toNat = n + 1 := by omega
  have hw : weights (n + 1) = (List.range n).map (fun i : ℕ => (((n : ℤ) + 1 + 1 - i : ℤ) : ℚ)) ++ [2] := by
    rw [weights, hn, List.range_succ, List.map_append, List.map_singleton]
    congr 2
    push_cast
    ring
  rw [hw, List.dropLast_concat]
  refine ⟨rfl, ?_⟩
  intro w hm
  obtain ⟨i, hi, rfl⟩ := List.mem_map.mp hm
  have hlt : i < n := List.mem_range.mp hi
  exact_mod_cast (by omega : (0 : ℤ) < (n : ℤ) + 1 + 1 - i)

lemma length_climb {total : ℚ} (ws : List ℚ) (acc : ℚ × List ℚ) :
    (ws.foldl (concede side band total) acc).2.length ≤ acc.2.length + ws.length := by
  induction ws generalizing acc with
  | nil => exact Nat.le_refl _
  | cons w ws ih =>
    have hstep : (concede side band total acc w).2.length ≤ acc.2.length + 1 := by
      rw [concede]
      split
      · exact (List.length_append ..).le
      · exact Nat.le_succ _
    have h := ih (concede side band total acc w)
    rw [List.foldl_cons, List.length_cons]
    omega

lemma moved_lt {maxConcessions : ℤ} (hg : 0 < gap side band) (hk : 0 < maxConcessions) :
    (∀ w ∈ (weights maxConcessions).dropLast, 0 ≤ gap side band * w / (weights maxConcessions).sum) ∧
      gap side band * (weights maxConcessions).dropLast.sum / (weights maxConcessions).sum < gap side band := by
  obtain ⟨hsplit, hpos⟩ := weights_split hk
  have hsum : (weights maxConcessions).sum = (weights maxConcessions).dropLast.sum + 2 := by
    rw [hsplit, List.dropLast_concat, List.sum_append, List.sum_singleton]
  have hrest : 0 ≤ (weights maxConcessions).dropLast.sum := List.sum_nonneg (fun w hw => (hpos w hw).le)
  have htotal : 0 < (weights maxConcessions).sum := by
    rw [hsum]
    linarith
  constructor
  · intro w hw
    exact div_nonneg (mul_nonneg hg.le (hpos w hw).le) htotal.le
  · rw [div_lt_iff₀ htotal, hsum]
    nlinarith

lemma length_dropLast_weights (maxConcessions : ℤ) :
    (weights maxConcessions).dropLast.length = maxConcessions.toNat - 1 := by
  rw [List.length_dropLast, weights, List.length_map, List.length_range]

structure Leads (side : Side) (band : Band) (maxConcessions : ℤ) (prices : List ℚ) : Prop where
  opens : prices.head? = some band.opening
  climbs : Climbs side prices
  within : ∀ p ∈ prices, side.toward p ≤ side.toward band.limit
  short : prices.length ≤ maxConcessions.toNat + 1
  ends : 0 < maxConcessions → prices.getLast? = some band.limit

lemma leads_still (hle : side.toward band.opening ≤ side.toward band.limit) {maxConcessions : ℤ}
    (hstill : gap side band ≤ 0 ∨ maxConcessions ≤ 0) : Leads side band maxConcessions [band.opening] := by
  refine ⟨rfl, List.pairwise_singleton _ _, ?_, Nat.le_add_left 1 _, ?_⟩
  · intro p hp
    rwa [List.mem_singleton.mp hp]
  · intro hk
    -- Without a gap the opening price is the limit.
    rcases hstill with hg | hk'
    · rw [gap_eq] at hg
      have heq : side.toward band.opening = side.toward band.limit := by linarith
      rw [List.getLast?_singleton, toward_injective heq]
    · omega

lemma Climbing.leads {acc : ℚ × List ℚ} (h : Climbing side band acc) (hm : acc.1 < gap side band)
    {maxConcessions : ℤ} (hlen : acc.2.length ≤ maxConcessions.toNat) :
    Leads side band maxConcessions (acc.2 ++ [band.limit]) := by
  have hbelow : ∀ p ∈ acc.2, side.toward p < side.toward band.limit := by
    intro p hp
    have hn := h.near p hp
    rw [gap_eq] at hm
    linarith
  refine ⟨?_, ?_, ?_, ?_, ?_⟩
  · rw [List.head?_append, h.opens, Option.some_or]
  · refine List.pairwise_append.mpr ⟨h.climbs, List.pairwise_singleton _ _, ?_⟩
    intro p hp q hq
    rw [List.mem_singleton.mp hq, beyond_iff]
    exact hbelow p hp
  · intro p hp
    rcases List.mem_append.mp hp with hp | hp
    · exact (hbelow p hp).le
    · rw [List.mem_singleton.mp hp]
  · rw [List.length_append, List.length_singleton]
    omega
  · intro _
    exact List.getLast?_concat ..

lemma ladder_leads (h : beyond side band.opening band.limit = false) (maxConcessions : ℤ) :
    Leads side band maxConcessions (ladder side band maxConcessions) := by
  have hle : side.toward band.opening ≤ side.toward band.limit := by
    rw [Bool.eq_false_iff, Ne, beyond_iff] at h
    exact not_lt.mp h
  rw [ladder]
  split
  · rename_i hstill
    exact leads_still hle hstill
  · rename_i hmove
    rw [not_or, not_le, not_le] at hmove
    obtain ⟨hnonneg, hlt⟩ := moved_lt hmove.1 hmove.2
    obtain ⟨hc, hm⟩ := climb hnonneg (Climbing.start side band)
    rw [zero_add] at hm
    refine hc.leads (hm ▸ hlt) ?_
    have hlen : ((weights maxConcessions).dropLast.foldl
        (concede side band (weights maxConcessions).sum) (0, [band.opening])).2.length ≤
          [band.opening].length + (weights maxConcessions).dropLast.length := length_climb _ _
    rw [length_dropLast_weights, List.length_singleton] at hlen
    omega

end TheCargo.Negotiation
