import Mathlib.Data.List.Chain
import TheCargo.Negotiation.Ladder

namespace TheCargo.Negotiation

def moves : List ℚ → List ℚ
  | p :: q :: prices => |q - p| :: moves (q :: prices)
  | _ => []

abbrev Shrink (ms : List ℚ) : Prop := ms.IsChain (fun earlier later => later ≤ earlier + rounding)

def stepsTaken (side : Side) (band : Band) (maxConcessions : ℤ) (rest : ℚ) : ℤ :=
  let total := (weights maxConcessions).sum
  ⌊gap side band * (total - rest) / total / rounding⌋

def LastMoveShrinks (side : Side) (band : Band) (maxConcessions : ℤ) : Prop :=
  let last := stepsTaken side band maxConcessions 2
  let before := stepsTaken side band maxConcessions 5
  last = before ∨ gap side band - last * rounding ≤ (last - before) * rounding + rounding

variable {side : Side} {band : Band}

lemma moves_concat {prices : List ℚ} {last : ℚ} (h : prices.getLast? = some last) (price : ℚ) :
    moves (prices ++ [price]) = moves prices ++ [|price - last|] := by
  induction prices with
  | nil => cases h
  | cons p prices ih =>
    cases prices with
    | nil =>
      obtain rfl := Option.some.inj h
      rfl
    | cons q prices =>
      have hlast : (q :: prices).getLast? = some last := by rwa [List.getLast?_cons_cons] at h
      rw [List.cons_append, List.cons_append, moves, ← List.cons_append, ih hlast]
      rfl

lemma shrink_concat {ms : List ℚ} {move : ℚ} :
    Shrink (ms ++ [move]) ↔ Shrink ms ∧ ∀ m ∈ ms.getLast?, move ≤ m + rounding := by
  rw [Shrink, List.isChain_append]
  simp

lemma abs_move {price last : ℚ} (h : side.toward last ≤ side.toward price) :
    |price - last| = side.toward price - side.toward last := by
  cases side with
  | buy => exact abs_of_nonneg (sub_nonneg.mpr h)
  | sell =>
    have hle : price - last ≤ 0 := sub_nonpos.mpr (neg_le_neg_iff.mp h)
    rw [abs_of_nonpos hle]
    simp only [Side.toward]
    ring

structure Shrinking (side : Side) (band : Band) (total weight : ℚ) (acc : ℚ × List ℚ) : Prop where
  last : ∃ last, acc.2.getLast? = some last ∧
    side.toward last = side.toward band.opening + ⌊acc.1 / rounding⌋ * rounding
  shrinks : Shrink (moves acc.2)
  share : ∀ m ∈ (moves acc.2).getLast?, ∃ n : ℤ, 1 ≤ n ∧ m = n * rounding ∧
    gap side band * weight / total < m + rounding

lemma Shrinking.start (side : Side) (band : Band) (total weight : ℚ) :
    Shrinking side band total weight (0, [band.opening]) := by
  refine ⟨⟨band.opening, rfl, ?_⟩, List.isChain_nil, by simp [moves]⟩
  simp

lemma Shrinking.mono {total v w : ℚ} {acc : ℚ × List ℚ} (h : Shrinking side band total v acc)
    (hle : gap side band * w / total ≤ gap side band * v / total) : Shrinking side band total w acc := by
  refine ⟨h.last, h.shrinks, ?_⟩
  intro m hm
  obtain ⟨n, hn, hmn, hshare⟩ := h.share m hm
  exact ⟨n, hn, hmn, hle.trans_lt hshare⟩

inductive Concedes (side : Side) (band : Band) (moved : ℚ) (acc : ℚ × List ℚ) : ℚ × List ℚ → Prop
  | skip (h : ⌊moved / rounding⌋ = ⌊acc.1 / rounding⌋) : Concedes side band moved acc (moved, acc.2)
  | move (price : ℚ) (h : ⌊acc.1 / rounding⌋ < ⌊moved / rounding⌋)
      (hprice : side.toward price = side.toward band.opening + ⌊moved / rounding⌋ * rounding)
      (hmoves : moves (acc.2 ++ [price]) =
        moves acc.2 ++ [((⌊moved / rounding⌋ : ℚ) - ⌊acc.1 / rounding⌋) * rounding]) :
      Concedes side band moved acc (moved, acc.2 ++ [price])

lemma Shrinking.concedes {total weight next : ℚ} {acc : ℚ × List ℚ} (h : Shrinking side band total weight acc)
    (hnext : 0 ≤ gap side band * next / total) :
    Concedes side band (acc.1 + gap side band * next / total) acc (concede side band total acc next) := by
  obtain ⟨moved, prices⟩ := acc
  obtain ⟨last, hlast, htoward⟩ := h.last
  have hget : prices.getLastD band.opening = last := by rw [List.getLastD_eq_getLast?, hlast, Option.getD_some]
  have hround : (0 : ℚ) < rounding := by norm_num [rounding]
  have hfloor : ⌊moved / rounding⌋ ≤ ⌊(moved + gap side band * next / total) / rounding⌋ :=
    Int.floor_le_floor (div_le_div_of_nonneg_right (le_add_of_nonneg_right hnext) hround.le)
  have hbeyond : beyond side (priceAfter side band
      (⌊(moved + gap side band * next / total) / rounding⌋ * rounding)) last = true ↔
        ⌊moved / rounding⌋ < ⌊(moved + gap side band * next / total) / rounding⌋ := by
    rw [beyond_iff, toward_priceAfter, htoward, add_lt_add_iff_left, mul_lt_mul_iff_left₀ hround, Int.cast_lt]
  simp only [concede, hget]
  split
  · rename_i hmore
    have hlt := hbeyond.mp hmore
    refine .move _ hlt (toward_priceAfter _) ?_
    rw [moves_concat hlast, abs_move (beyond_iff.mp hmore).le, toward_priceAfter, htoward]
    ring_nf
  · rename_i hsame
    refine .skip (le_antisymm ?_ hfloor)
    exact not_lt.mp (fun hlt => hsame (hbeyond.mpr hlt))

lemma floor_step (moved more : ℚ) :
    more < ((⌊(moved + more) / rounding⌋ : ℚ) - ⌊moved / rounding⌋) * rounding + rounding ∧
      ((⌊(moved + more) / rounding⌋ : ℚ) - ⌊moved / rounding⌋) * rounding < more + rounding := by
  have hlow := Int.floor_le (moved / rounding)
  have hhigh := Int.lt_floor_add_one (moved / rounding)
  have hlow' := Int.floor_le ((moved + more) / rounding)
  have hhigh' := Int.lt_floor_add_one ((moved + more) / rounding)
  rw [rounding] at hlow hhigh hlow' hhigh' ⊢
  constructor <;> linarith

lemma Shrinking.concede {total weight next : ℚ} {acc : ℚ × List ℚ} (h : Shrinking side band total weight acc)
    (hnext : 0 ≤ gap side band * next / total)
    (hle : gap side band * next / total ≤ gap side band * weight / total) :
    Shrinking side band total next (concede side band total acc next) := by
  have hc := h.concedes hnext
  obtain ⟨hmore, hless⟩ := floor_step acc.1 (gap side band * next / total)
  generalize Negotiation.concede side band total acc next = acc' at hc
  cases hc with
  | skip hsame =>
    obtain ⟨last, hlast, htoward⟩ := h.last
    exact ⟨⟨last, hlast, hsame ▸ htoward⟩, h.shrinks, (h.mono hle).share⟩
  | move price hlt hprice hmoves =>
    refine ⟨⟨price, List.getLast?_concat, hprice⟩, ?_, ?_⟩
    · rw [hmoves, shrink_concat]
      refine ⟨h.shrinks, ?_⟩
      intro m hm
      -- Both moves are whole steps, and they differ by less than two.
      obtain ⟨n, _, rfl, hshare⟩ := h.share m hm
      have hwhole : ((⌊(acc.1 + gap side band * next / total) / rounding⌋ - ⌊acc.1 / rounding⌋ : ℤ) : ℚ) < n + 2 := by
        push_cast
        rw [rounding] at *
        linarith
      have hle : ⌊(acc.1 + gap side band * next / total) / rounding⌋ - ⌊acc.1 / rounding⌋ ≤ n + 1 := by
        have hint : ⌊(acc.1 + gap side band * next / total) / rounding⌋ - ⌊acc.1 / rounding⌋ < n + 2 := by
          exact_mod_cast hwhole
        omega
      have hcast : ((⌊(acc.1 + gap side band * next / total) / rounding⌋ - ⌊acc.1 / rounding⌋ : ℤ) : ℚ) ≤ n + 1 := by
        exact_mod_cast hle
      push_cast at hcast
      rw [rounding] at *
      linarith
    · rw [hmoves, List.getLast?_concat]
      rintro m hm
      obtain rfl := Option.some.inj hm
      refine ⟨⌊(acc.1 + gap side band * next / total) / rounding⌋ - ⌊acc.1 / rounding⌋, by omega, ?_, hmore⟩
      push_cast
      rfl

lemma share_le {total v w : ℚ} (hgap : 0 < gap side band) (htotal : 0 < total) (h : w ≤ v) :
    gap side band * w / total ≤ gap side band * v / total :=
  div_le_div_of_nonneg_right (mul_le_mul_of_nonneg_left h hgap.le) htotal.le

lemma share_nonneg {total w : ℚ} (hgap : 0 < gap side band) (htotal : 0 < total) (hw : 0 ≤ w) :
    0 ≤ gap side band * w / total :=
  div_nonneg (mul_nonneg hgap.le hw) htotal.le

lemma shrinking_fold {total weight : ℚ} {ws : List ℚ} (hgap : 0 < gap side band) (htotal : 0 < total)
    (hdesc : (weight :: ws).Pairwise (fun v w => w ≤ v)) (hnonneg : ∀ w ∈ ws, 0 ≤ w) {acc : ℚ × List ℚ}
    (h : Shrinking side band total weight acc) :
    ∃ v ∈ weight :: ws, Shrinking side band total v (ws.foldl (concede side band total) acc) := by
  induction ws generalizing weight acc with
  | nil => exact ⟨weight, List.mem_cons_self, h⟩
  | cons w ws ih =>
    obtain ⟨hfirst, hrest⟩ := List.pairwise_cons.mp hdesc
    obtain ⟨hw, hws⟩ := List.forall_mem_cons.mp hnonneg
    have hstep := h.concede (share_nonneg hgap htotal hw) (share_le hgap htotal (hfirst w List.mem_cons_self))
    obtain ⟨v, hv, hshrinks⟩ := ih hrest hws hstep
    exact ⟨v, List.mem_cons_of_mem _ hv, hshrinks⟩

lemma weights_tail (n : ℕ) : ∃ ws : List ℚ, weights (n + 2) = ws ++ [3] ++ [2] ∧ (∀ w ∈ ws, 3 ≤ w) ∧
    ws.Pairwise (fun v w => w ≤ v) := by
  have hn : ((n : ℤ) + 2).toNat = n + 1 + 1 := by omega
  refine ⟨(List.range n).map (fun i : ℕ => (((n : ℤ) + 2 + 1 - i : ℤ) : ℚ)), ?_, ?_, ?_⟩
  · rw [weights, hn, List.range_succ, List.range_succ, List.map_append, List.map_append, List.map_singleton,
      List.map_singleton]
    congr 2
    · congr 2
      push_cast
      ring
    · congr 1
      push_cast
      ring
  · intro w hw
    obtain ⟨i, hi, rfl⟩ := List.mem_map.mp hw
    have hlt : i < n := List.mem_range.mp hi
    exact_mod_cast (by omega : (3 : ℤ) ≤ (n : ℤ) + 2 + 1 - i)
  · refine List.pairwise_map.mpr (List.pairwise_lt_range.imp ?_)
    intro i j hij
    exact_mod_cast (by omega : (n : ℤ) + 2 + 1 - j ≤ (n : ℤ) + 2 + 1 - i)

lemma stepsTaken_eq {maxConcessions : ℤ} {rest moved : ℚ} {ws : List ℚ}
    (hws : (weights maxConcessions).sum = ws.sum + rest)
    (hmoved : moved = gap side band * ws.sum / (weights maxConcessions).sum) :
    stepsTaken side band maxConcessions rest = ⌊moved / rounding⌋ := by
  have hsum : (weights maxConcessions).sum - rest = ws.sum := by rw [hws, add_sub_cancel_right]
  rw [stepsTaken, hmoved, hsum]

lemma shrink_onto_limit {moved : ℚ} {prices : List ℚ} {last : ℚ} (hlast : prices.getLast? = some last)
    (htoward : side.toward last = side.toward band.opening + ⌊moved / rounding⌋ * rounding)
    (hmoved : moved ≤ gap side band) :
    Shrink (moves (prices ++ [band.limit])) ↔ Shrink (moves prices) ∧
      ∀ m ∈ (moves prices).getLast?, gap side band - ⌊moved / rounding⌋ * rounding ≤ m + rounding := by
  have hle : side.toward last ≤ side.toward band.limit := by
    have hfloor := floor_le moved
    rw [gap_eq] at hmoved
    linarith
  have hmove : |band.limit - last| = gap side band - ⌊moved / rounding⌋ * rounding := by
    rw [abs_move hle, htoward, gap_eq]
    ring
  rw [moves_concat hlast, shrink_concat, hmove]

lemma shrink_single (hgap : 0 < gap side band) :
    Shrink (moves (ladder side band 1)) ∧ LastMoveShrinks side band 1 := by
  have hweights : weights 1 = [2] := by
    simp only [weights]
    norm_num
  constructor
  · rw [ladder, if_neg (by rw [not_or, not_le, not_le]; exact ⟨hgap, zero_lt_one⟩), hweights]
    exact List.isChain_singleton _
  · right
    have hlast : stepsTaken side band 1 2 = 0 := by
      rw [stepsTaken, hweights]
      norm_num
    have hbefore := Int.floor_le (gap side band * ((weights 1).sum - 5) / (weights 1).sum / rounding)
    rw [hlast, stepsTaken]
    rw [hweights, rounding] at hbefore ⊢
    norm_num at hbefore ⊢
    linarith

structure BeforeLast (side : Side) (band : Band) (maxConcessions : ℤ) (before : ℚ × List ℚ) : Prop where
  shrinking : Shrinking side band (weights maxConcessions).sum 3 before
  share : 0 < gap side band / (weights maxConcessions).sum
  ladder : ladder side band maxConcessions =
    (concede side band (weights maxConcessions).sum before 3).2 ++ [band.limit]
  steps : stepsTaken side band maxConcessions 5 = ⌊before.1 / rounding⌋
  lastSteps : stepsTaken side band maxConcessions 2 =
    ⌊(before.1 + gap side band * 3 / (weights maxConcessions).sum) / rounding⌋
  rest : gap side band = before.1 + gap side band * 3 / (weights maxConcessions).sum +
    2 * (gap side band / (weights maxConcessions).sum)

lemma before_last (hgap : 0 < gap side band) (n : ℕ) : ∃ before, BeforeLast side band (n + 2) before := by
  obtain ⟨ws, hws, hthree, hdesc⟩ := weights_tail n
  have hnonneg : ∀ w ∈ ws, 0 ≤ w := fun w hw => (by norm_num : (0 : ℚ) ≤ 3).trans (hthree w hw)
  have hrest : 0 ≤ ws.sum := List.sum_nonneg hnonneg
  have hsum : (weights (n + 2)).sum = ws.sum + 5 := by
    rw [hws, List.sum_append, List.sum_append, List.sum_singleton, List.sum_singleton]
    ring
  have hlastSum : (weights (n + 2)).sum = (ws ++ [3]).sum + 2 := by
    rw [hws, List.sum_append, List.sum_singleton]
  have htotal : 0 < (weights (n + 2)).sum := by linarith
  generalize htotalEq : (weights (n + 2)).sum = total at *
  have hbefore : (ws.foldl (concede side band total) (0, [band.opening])).1 = gap side band * ws.sum / total := by
    have hclimb := (climb (fun w hw => share_nonneg hgap htotal (hnonneg w hw)) (Climbing.start side band)).2
    rwa [zero_add] at hclimb
  have hmoved : (ws.foldl (concede side band total) (0, [band.opening])).1 + gap side band * 3 / total =
      gap side band * (ws ++ [3]).sum / total := by
    rw [hbefore, List.sum_append, List.sum_singleton]
    ring
  obtain ⟨v, hv, hshrinking⟩ : ∃ v ∈ (ws.sum + 3) :: ws,
      Shrinking side band total v (ws.foldl (concede side band total) (0, [band.opening])) := by
    refine shrinking_fold hgap htotal (List.pairwise_cons.mpr ⟨?_, hdesc⟩) hnonneg (Shrinking.start _ _ _ _)
    intro w hw
    have hle := List.single_le_sum hnonneg w hw
    linarith
  have hthreev : 3 ≤ v := by
    rcases List.mem_cons.mp hv with rfl | hv
    · linarith
    · exact hthree v hv
  refine ⟨ws.foldl (concede side band total) (0, [band.opening]), ?_, ?_, ?_, ?_, ?_, ?_⟩
  · rw [htotalEq]
    exact hshrinking.mono (share_le hgap htotal hthreev)
  · rw [htotalEq]
    exact div_pos hgap htotal
  · rw [Negotiation.ladder, if_neg (by rw [not_or, not_le, not_le]; exact ⟨hgap, by omega⟩)]
    dsimp only
    rw [htotalEq, hws, List.dropLast_concat, List.foldl_append]
    rfl
  · exact stepsTaken_eq (htotalEq.trans hsum) (htotalEq ▸ hbefore)
  · rw [htotalEq]
    exact stepsTaken_eq (htotalEq.trans hlastSum) (htotalEq ▸ hmoved)
  · rw [htotalEq, hmoved]
    rw [hlastSum] at htotal ⊢
    field_simp

theorem moves_shrink_iff (side : Side) (band : Band) (maxConcessions : ℤ) (hgap : 0 < gap side band)
    (hmoves : 1 ≤ maxConcessions) :
    Shrink (moves (ladder side band maxConcessions)) ↔ LastMoveShrinks side band maxConcessions := by
  obtain rfl | ⟨n, rfl⟩ : maxConcessions = 1 ∨ ∃ n : ℕ, maxConcessions = n + 2 := by
    rcases hmoves.eq_or_lt with h | h
    · exact Or.inl h.symm
    · exact Or.inr ⟨(maxConcessions - 2).toNat, by omega⟩
  · exact iff_of_true (shrink_single hgap).1 (shrink_single hgap).2
  obtain ⟨before, hbefore⟩ := before_last hgap n
  have hthree : gap side band * 3 / (weights (n + 2)).sum = 3 * (gap side band / (weights (n + 2)).sum) := by ring
  have hshare := hbefore.share
  have hrest := hbefore.rest
  have hnext : 0 ≤ gap side band * 3 / (weights (n + 2)).sum := by linarith
  have hfinal := hbefore.shrinking.concede hnext le_rfl
  have hc := hbefore.shrinking.concedes hnext
  obtain ⟨last, hlast, htoward⟩ := hfinal.last
  rw [LastMoveShrinks, hbefore.ladder, hbefore.steps, hbefore.lastSteps]
  generalize concede side band (weights (n + 2)).sum before 3 = after at hc hfinal hlast htoward
  cases hc with
  | skip hsame =>
    rw [shrink_onto_limit hlast htoward (by dsimp only; linarith)]
    refine iff_of_true ⟨hfinal.shrinks, ?_⟩ (Or.inl hsame)
    -- The share of 3 is less than a step, so the rest of the gap is less than two.
    intro m hm
    obtain ⟨k, hk, rfl, _⟩ := hfinal.share m hm
    have hone : (1 : ℚ) ≤ k := by exact_mod_cast hk
    have hsmall := (floor_step before.1 (gap side band * 3 / (weights (n + 2)).sum)).1
    have hfloor := Int.lt_floor_add_one ((before.1 + gap side band * 3 / (weights (n + 2)).sum) / rounding)
    rw [hsame, sub_self, zero_mul, zero_add] at hsmall
    dsimp only
    rw [rounding] at *
    linarith
  | move price hlt hprice hmoved =>
    rw [shrink_onto_limit hlast htoward (by dsimp only; linarith)]
    dsimp only
    rw [hmoved, List.getLast?_concat]
    constructor
    · rintro ⟨_, h⟩
      exact Or.inr (h _ rfl)
    · rintro (h | h)
      · exact absurd h hlt.ne'
      · refine ⟨hmoved ▸ hfinal.shrinks, ?_⟩
        rintro m hm
        obtain rfl := Option.some.inj hm
        exact h

theorem a_long_haggle_shrinks :
    Shrink (moves (ladder .buy ⟨950, 1045⟩ 3)) ↔ LastMoveShrinks .buy ⟨950, 1045⟩ 3 :=
  moves_shrink_iff .buy ⟨950, 1045⟩ 3 (by decide +kernel) (by decide)

theorem the_last_move_can_grow :
    0 < gap .buy ⟨100, 116⟩ ∧ ¬ Shrink (moves (ladder .buy ⟨100, 116⟩ 2)) := by
  decide +kernel

end TheCargo.Negotiation
