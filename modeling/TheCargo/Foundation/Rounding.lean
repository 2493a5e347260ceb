import Mathlib.Data.Int.Log
import Mathlib.Data.Rat.Floor
import Mathlib.Tactic.Linarith
import Mathlib.Tactic.FieldSimp
import Mathlib.Tactic.Ring

namespace TheCargo.Foundation

def halfEven (q : ℚ) : ℤ :=
  if q - ⌊q⌋ < 1 / 2 then ⌊q⌋ else if 1 / 2 < q - ⌊q⌋ then ⌊q⌋ + 1 else if ⌊q⌋ % 2 = 0 then ⌊q⌋ else ⌊q⌋ + 1

def roundTo (unit q : ℚ) : ℚ := halfEven (q / unit) * unit

/-- `q` with `p` digits to the base `b`, none of them below the exponent `low` -/
def roundDigits (b p : ℕ) (low : ℤ) (q : ℚ) : ℚ := roundTo ((b : ℚ) ^ max (Int.log b |q| - (p - 1)) low) q

variable {p q r unit : ℚ} {n : ℤ}

lemma halfEven_of_near (hlow : n - 1 / 2 < q) (hhigh : q < n + 1 / 2) : halfEven q = n := by
  have hle := Int.floor_le q
  have hlt := Int.lt_floor_add_one q
  have hcases : ⌊q⌋ = n ∨ ⌊q⌋ = n - 1 := by
    have hup : ⌊q⌋ < n + 1 := Int.floor_lt.mpr (by push_cast; linarith)
    have hdown : n - 1 ≤ ⌊q⌋ := Int.le_floor.mpr (by push_cast; linarith)
    omega
  rw [halfEven]
  rcases hcases with h | h
  · rw [h, if_pos (by linarith)]
  · have hcast : ((n - 1 : ℤ) : ℚ) = n - 1 := by push_cast; rfl
    rw [h, hcast, if_neg (by linarith), if_pos (by linarith)]
    omega

lemma halfEven_half (k : ℤ) : halfEven (k + 1 / 2) = if k % 2 = 0 then k else k + 1 := by
  have hfloor : ⌊(k : ℚ) + 1 / 2⌋ = k := Int.floor_eq_iff.mpr ⟨by linarith, by linarith⟩
  rw [halfEven, hfloor, if_neg (by linarith), if_neg (by linarith)]

lemma near_or_half (q : ℚ) : (∃ n : ℤ, n - 1 / 2 < q ∧ q < n + 1 / 2) ∨ ∃ k : ℤ, q = k + 1 / 2 := by
  have hle := Int.floor_le q
  have hlt := Int.lt_floor_add_one q
  rcases lt_trichotomy q (⌊q⌋ + 1 / 2) with h | h | h
  · exact .inl ⟨⌊q⌋, by linarith, h⟩
  · exact .inr ⟨⌊q⌋, h⟩
  · exact .inl ⟨⌊q⌋ + 1, by push_cast; linarith, by push_cast; linarith⟩

lemma halfEven_bounds (q : ℚ) : halfEven q - 1 / 2 ≤ q ∧ q ≤ halfEven q + 1 / 2 := by
  rcases near_or_half q with ⟨n, hlow, hhigh⟩ | ⟨k, rfl⟩
  · rw [halfEven_of_near hlow hhigh]
    exact ⟨hlow.le, hhigh.le⟩
  · rw [halfEven_half]
    split
    · exact ⟨by linarith, le_rfl⟩
    · exact ⟨by push_cast; linarith, by push_cast; linarith⟩

lemma halfEven_mono (h : p ≤ q) : halfEven p ≤ halfEven q := by
  by_contra hlt
  have hcast : (halfEven q : ℚ) + 1 ≤ halfEven p := by exact_mod_cast Int.not_le.mp hlt
  obtain ⟨hp, -⟩ := halfEven_bounds p
  obtain ⟨-, hq⟩ := halfEven_bounds q
  have heq : p = q := by linarith
  exact hlt (heq ▸ le_rfl)

lemma halfEven_intCast (n : ℤ) : halfEven n = n := halfEven_of_near (by linarith) (by linarith)

lemma halfEven_neg (q : ℚ) : halfEven (-q) = -halfEven q := by
  rcases near_or_half q with ⟨n, hlow, hhigh⟩ | ⟨k, rfl⟩
  · rw [halfEven_of_near hlow hhigh]
    exact halfEven_of_near (by push_cast; linarith) (by push_cast; linarith)
  · have hflip : -((k : ℚ) + 1 / 2) = ((-k - 1 : ℤ) : ℚ) + 1 / 2 := by push_cast; ring
    rw [hflip, halfEven_half, halfEven_half]
    split <;> split <;> omega

lemma le_halfEven (h : n ≤ q) : n ≤ halfEven q := halfEven_intCast n ▸ halfEven_mono h

lemma halfEven_le (h : q ≤ n) : halfEven q ≤ n := halfEven_intCast n ▸ halfEven_mono h

lemma halfEven_nonneg (h : 0 ≤ q) : 0 ≤ halfEven q := le_halfEven (by exact_mod_cast h)

lemma roundTo_mono (hunit : 0 < unit) (h : p ≤ q) : roundTo unit p ≤ roundTo unit q := by
  have hdiv : p / unit ≤ q / unit := div_le_div_of_nonneg_right h hunit.le
  exact mul_le_mul_of_nonneg_right (by exact_mod_cast halfEven_mono hdiv) hunit.le

lemma roundTo_mul (hunit : 0 < unit) (n : ℤ) : roundTo unit (n * unit) = n * unit := by
  rw [roundTo, mul_div_cancel_right₀ _ hunit.ne', halfEven_intCast]

lemma lt_of_roundTo_lt (hunit : 0 < unit) (h : roundTo unit q < n * unit) : q < n * unit := by
  by_contra hle
  exact absurd (roundTo_mono hunit (not_lt.mp hle)) (by rw [roundTo_mul hunit]; exact not_le.mpr h)

lemma lt_of_lt_roundTo (hunit : 0 < unit) (h : n * unit < roundTo unit q) : n * unit < q := by
  by_contra hle
  exact absurd (roundTo_mono hunit (not_lt.mp hle)) (by rw [roundTo_mul hunit]; exact not_le.mpr h)

lemma le_roundTo (hunit : 0 < unit) (h : n * unit ≤ q) : n * unit ≤ roundTo unit q :=
  roundTo_mul hunit n ▸ roundTo_mono hunit h

lemma roundTo_le (hunit : 0 < unit) (h : q ≤ n * unit) : roundTo unit q ≤ n * unit :=
  roundTo_mul hunit n ▸ roundTo_mono hunit h

lemma zpow_mem_grid (b : ℕ) (hb : 1 < b) {e j : ℤ} (h : e ≤ j) : ∃ n : ℤ, (b : ℚ) ^ j = n * (b : ℚ) ^ e := by
  have hb' : (b : ℚ) ≠ 0 := by exact_mod_cast (Nat.zero_lt_of_lt hb).ne'
  refine ⟨(b : ℤ) ^ (j - e).toNat, ?_⟩
  rw [Int.cast_pow, Int.cast_natCast, ← zpow_natCast, Int.toNat_of_nonneg (by omega), ← zpow_add₀ hb', sub_add_cancel]

lemma halfEven_moved (hlow : ∀ k : ℤ, r < k + 1 / 2 → q < k + 1 / 2) (hhigh : ∀ k : ℤ, k + 1 / 2 < r → k + 1 / 2 < q) :
    halfEven r = halfEven q ↔ ¬ ∃ k : ℤ, r = k + 1 / 2 ∧ q ≠ r ∧ (q < r ↔ k % 2 = 1) := by
  rcases near_or_half r with ⟨n, hleft, hright⟩ | ⟨k, rfl⟩
  · have hq : halfEven q = n := by
      have hleft' := hhigh (n - 1) (by push_cast; linarith)
      push_cast at hleft'
      exact halfEven_of_near (by linarith) (hlow n hright)
    rw [halfEven_of_near hleft hright, hq]
    refine iff_of_true rfl ?_
    rintro ⟨k, rfl, -⟩
    have hk : (n : ℚ) - 1 < k := by linarith
    have hk' : (k : ℚ) < n := by linarith
    have hk'' : n - 1 < k := by exact_mod_cast hk
    have hk''' : k < n := by exact_mod_cast hk'
    omega
  · have hbelow := hhigh (k - 1) (by push_cast; linarith)
    have habove := hlow (k + 1) (by push_cast; linarith)
    push_cast at hbelow habove
    have hiff : (¬ ∃ j : ℤ, (k : ℚ) + 1 / 2 = j + 1 / 2 ∧ q ≠ k + 1 / 2 ∧ (q < k + 1 / 2 ↔ j % 2 = 1)) ↔
        ¬ (q ≠ k + 1 / 2 ∧ (q < k + 1 / 2 ↔ k % 2 = 1)) := by
      refine not_congr ⟨?_, fun h => ⟨k, rfl, h⟩⟩
      rintro ⟨j, hj, h⟩
      have hjk : j = k := by exact_mod_cast (add_right_cancel hj).symm
      exact hjk ▸ h
    rw [hiff, halfEven_half]
    rcases lt_trichotomy q (k + 1 / 2) with h | h | h
    · rw [halfEven_of_near (n := k) (by linarith) h]
      simp only [h.ne, ne_eq, not_false_eq_true, h, true_iff, true_and]
      split <;> omega
    · rw [h, halfEven_half]
      simp
    · rw [halfEven_of_near (n := k + 1) (by push_cast; linarith) (by push_cast; linarith)]
      simp only [h.ne', ne_eq, not_false_eq_true, not_lt.mpr h.le, false_iff, true_and, not_not]
      split <;> omega

lemma roundTo_neg (unit q : ℚ) : roundTo unit (-q) = -roundTo unit q := by
  rw [roundTo, neg_div, halfEven_neg, Int.cast_neg, neg_mul]
  rfl

section

variable {b d : ℕ} {low : ℤ}

lemma unit_pos (hb : 1 < b) (e : ℤ) : (0 : ℚ) < (b : ℚ) ^ e := zpow_pos (by exact_mod_cast Nat.zero_lt_of_lt hb) e

lemma roundDigits_neg (q : ℚ) : roundDigits b d low (-q) = -roundDigits b d low q := by
  rw [roundDigits, abs_neg, roundTo_neg]
  rfl

lemma roundDigits_of_pos (h : 0 < q) :
    roundDigits b d low q = roundTo ((b : ℚ) ^ max (Int.log b q - (d - 1)) low) q := by
  rw [roundDigits, abs_of_pos h]

lemma roundDigits_zero (b d : ℕ) (low : ℤ) : roundDigits b d low 0 = 0 := by
  have hzero : halfEven 0 = 0 := halfEven_intCast 0
  rw [roundDigits, roundTo, zero_div, hzero, Int.cast_zero, zero_mul]

lemma pow_log_le_roundDigits (hb : 1 < b) (hd : 1 ≤ d) (h : 0 < q) (hlow : low ≤ Int.log b q) :
    (b : ℚ) ^ Int.log b q ≤ roundDigits b d low q := by
  obtain ⟨n, hn⟩ := zpow_mem_grid b hb (show max (Int.log b q - (d - 1)) low ≤ Int.log b q by omega)
  rw [roundDigits_of_pos h, hn]
  exact le_roundTo (unit_pos hb _) (hn ▸ Int.zpow_log_le_self hb h)

lemma roundDigits_nonneg (hb : 1 < b) (h : 0 ≤ q) : 0 ≤ roundDigits b d low q := by
  rcases h.eq_or_lt with rfl | hpos
  · exact (roundDigits_zero b d low).ge
  · have hgrid : ((0 : ℤ) : ℚ) * (b : ℚ) ^ max (Int.log b q - (d - 1)) low ≤ q := by rwa [Int.cast_zero, zero_mul]
    have hle := le_roundTo (unit_pos hb _) hgrid
    rwa [Int.cast_zero, zero_mul, ← roundDigits_of_pos hpos] at hle

lemma roundDigits_le (hb : 1 < b) {m : ℕ} {k : ℤ} (hm : m < b ^ d) (hk : low ≤ k) (h : 0 ≤ q)
    (hle : q ≤ m * (b : ℚ) ^ k) : roundDigits b d low q ≤ m * (b : ℚ) ^ k := by
  rcases h.eq_or_lt with rfl | hpos
  · rwa [roundDigits_zero]
  have hlog : Int.log b q < d + k := by
    have hb' : (b : ℚ) ≠ 0 := by exact_mod_cast (Nat.zero_lt_of_lt hb).ne'
    rw [← Int.lt_zpow_iff_log_lt hb hpos, zpow_add₀ hb', zpow_natCast]
    have hcast : (m : ℚ) < (b : ℚ) ^ d := by exact_mod_cast hm
    exact hle.trans_lt (mul_lt_mul_of_pos_right hcast (unit_pos hb k))
  obtain ⟨n, hn⟩ := zpow_mem_grid b hb (show max (Int.log b q - (d - 1)) low ≤ k by omega)
  have hgrid : (m : ℚ) * (b : ℚ) ^ k = ((m * n : ℤ) : ℚ) * (b : ℚ) ^ max (Int.log b q - (d - 1)) low := by
    rw [hn]
    push_cast
    ring
  rw [roundDigits_of_pos hpos, hgrid]
  exact roundTo_le (unit_pos hb _) (hgrid ▸ hle)

lemma roundDigits_mono_pos (hb : 1 < b) (hd : 1 ≤ d) (h : 0 < p) (hle : p ≤ q) :
    roundDigits b d low p ≤ roundDigits b d low q := by
  have hlog : Int.log b p ≤ Int.log b q := Int.log_mono_right h hle
  rcases eq_or_ne (max (Int.log b p - (d - 1)) low) (max (Int.log b q - (d - 1)) low) with heq | hne
  · rw [roundDigits_of_pos h, roundDigits_of_pos (h.trans_le hle), heq]
    exact roundTo_mono (unit_pos hb _) hle
  · -- A power of `b` lies between the two numbers and both roundings leave it where it is.
    have hlt : p ≤ (1 : ℕ) * (b : ℚ) ^ Int.log b q := by
      rw [Nat.cast_one, one_mul]
      exact ((Int.lt_zpow_iff_log_lt hb h).mpr (by omega)).le
    have hlow : low ≤ Int.log b q := by omega
    have hbelow := roundDigits_le hb (Nat.one_lt_pow (Nat.one_le_iff_ne_zero.mp hd) hb) hlow h.le hlt
    rw [Nat.cast_one, one_mul] at hbelow
    exact hbelow.trans (pow_log_le_roundDigits hb hd (h.trans_le hle) (by omega))

lemma roundDigits_mono (hb : 1 < b) (hd : 1 ≤ d) (hle : p ≤ q) : roundDigits b d low p ≤ roundDigits b d low q := by
  rcases lt_or_ge 0 p with hp | hp
  · exact roundDigits_mono_pos hb hd hp hle
  have hp' : roundDigits b d low p ≤ 0 := by
    have hneg : 0 ≤ roundDigits b d low (-p) := roundDigits_nonneg hb (neg_nonneg.mpr hp)
    rw [roundDigits_neg] at hneg
    linarith
  rcases le_or_gt 0 q with hq | hq
  · exact hp'.trans (roundDigits_nonneg hb hq)
  · have hflip : roundDigits b d low (-q) ≤ roundDigits b d low (-p) :=
      roundDigits_mono_pos hb hd (neg_pos.mpr hq) (neg_le_neg hle)
    rw [roundDigits_neg, roundDigits_neg] at hflip
    linarith

end

end TheCargo.Foundation
