import Mathlib.Tactic.NormNum
import Mathlib.Tactic.Positivity
import TheCargo.Foundation.Decimal
import TheCargo.Foundation.Rounding

namespace TheCargo.Foundation.Decimal

def prec : ℕ := 28

def emax : ℤ := 999999

def etiny : ℤ := -1000026

def isNegative : Decimal → Option Bool
  | .finite q => some (q < 0)
  | .infinity negative => some negative
  | .nan => none
  | .signalling => none

def rounded (q : ℚ) : ℚ := roundDigits 10 prec etiny q

def abs : Decimal → Option Decimal
  | .finite q => if emax < Int.log 10 (rounded |q|) then none else some (.finite (rounded |q|))
  | .infinity _ => some (.infinity false)
  | .nan => some .nan
  | .signalling => none

/-- `a.quantize(Decimal("0.01"))` in hundredths; nothing where it raises or is no number. -/
def quantizeCents : Decimal → Option ℤ
  | .finite q => if |halfEven (q * 100)| < 10 ^ prec then some (halfEven (q * 100)) else none
  | _ => none

/-- The 28 digits end below the hundredths, at a half of one that the number is not, and the half is rounded to the
far side. -/
def Misrounds (q : ℚ) : Prop :=
  ∃ k : ℤ, rounded q * 100 = k + 1 / 2 ∧ q * 100 ≠ k + 1 / 2 ∧ (q * 100 < k + 1 / 2 ↔ k % 2 = 1)

variable {q : ℚ}

lemma rounded_of_pos (h : 0 < q) : rounded q = roundTo ((10 : ℕ) ^ max (Int.log 10 q - 27) etiny) q := by
  rw [rounded, roundDigits_of_pos h, prec]
  norm_num

lemma rounded_zero : rounded 0 = 0 := roundDigits_zero 10 prec etiny

lemma rounded_nonneg (h : 0 ≤ q) : 0 ≤ rounded q := roundDigits_nonneg (by decide) h

lemma fine_or_exact (hpos : 0 < q) (h : q < 10 ^ 26) :
    (∃ e : ℤ, e ≤ -3 ∧ q < 10 ^ 25 ∧ rounded q = roundTo ((10 : ℕ) ^ e) q) ∨ rounded q * 100 = halfEven (q * 100) := by
  have hlog : Int.log 10 q < 26 := by
    rw [← Int.lt_zpow_iff_log_lt (by decide) hpos]
    exact_mod_cast h
  rw [rounded_of_pos hpos]
  by_cases hfine : max (Int.log 10 q - 27) etiny ≤ -3
  · have hlt : q < ((10 : ℕ) : ℚ) ^ (25 : ℤ) := (Int.lt_zpow_iff_log_lt (by decide) hpos).mpr (by omega)
    exact .inl ⟨_, hfine, by exact_mod_cast hlt, rfl⟩
  · have he : max (Int.log 10 q - 27) etiny = -2 := by
      have hetiny : etiny ≤ -3 := by decide
      omega
    right
    have hunit : ((10 : ℕ) : ℚ) ^ (-2 : ℤ) = 1 / 100 := by norm_num
    rw [he, hunit, roundTo, div_div_eq_mul_div, div_one, mul_assoc, one_div_mul_cancel (by norm_num), mul_one]

lemma halves_mem_grid {e : ℤ} (h : e ≤ -3) (k : ℤ) : ∃ n : ℤ, (k + 1 / 2 : ℚ) / 100 = n * (10 : ℕ) ^ e := by
  obtain ⟨n, hn⟩ := zpow_mem_grid 10 (by decide) h
  refine ⟨(2 * k + 1) * 5 * n, ?_⟩
  have hthou : ((10 : ℕ) : ℚ) ^ (-3 : ℤ) = 1 / 1000 := by norm_num
  rw [hthou] at hn
  push_cast
  push_cast at hn
  rw [mul_assoc, ← hn]
  ring

lemma halfEven_rounded (hnonneg : 0 ≤ q) (h : q < 10 ^ 26) :
    halfEven (rounded q * 100) = halfEven (q * 100) ↔ ¬ Misrounds q := by
  rcases hnonneg.eq_or_lt with rfl | hpos
  · rw [rounded_zero]
    refine iff_of_true rfl ?_
    rintro ⟨k, hk, hne, -⟩
    exact hne (rounded_zero ▸ hk)
  rcases fine_or_exact hpos h with ⟨e, he, -, hround⟩ | hexact
  · have hgrid := halves_mem_grid he
    rw [halfEven_moved (r := rounded q * 100) (q := q * 100)]
    · refine not_congr (exists_congr fun k => and_congr_right fun hk => ?_)
      rw [hk]
    · intro k hk
      obtain ⟨n, hn⟩ := hgrid k
      have hlt := lt_of_roundTo_lt (n := n) (unit_pos (b := 10) (by decide) e) (q := q)
        (by rw [← hround, ← hn]; linarith)
      rw [← hn] at hlt
      linarith
    · intro k hk
      obtain ⟨n, hn⟩ := hgrid k
      have hlt := lt_of_lt_roundTo (n := n) (unit_pos (b := 10) (by decide) e) (q := q)
        (by rw [← hround, ← hn]; linarith)
      rw [← hn] at hlt
      linarith
  · rw [hexact, halfEven_intCast]
    refine iff_of_true rfl ?_
    rintro ⟨k, hk, -⟩
    rw [hexact] at hk
    have htwo : (2 * halfEven (q * 100) : ℚ) = 2 * k + 1 := by linarith
    have htwo' : 2 * halfEven (q * 100) = 2 * k + 1 := by exact_mod_cast htwo
    omega

lemma halfEven_rounded_lt (hnonneg : 0 ≤ q) (h : q < 10 ^ 26 - 1 / 200) : halfEven (rounded q * 100) < 10 ^ 28 := by
  rcases hnonneg.eq_or_lt with rfl | hpos
  · rw [rounded_zero, zero_mul]
    exact (halfEven_le (n := 0) (by norm_num)).trans_lt (by norm_num)
  rcases fine_or_exact hpos (by linarith) with ⟨e, he, hlt, hround⟩ | hexact
  · obtain ⟨n, hn⟩ := zpow_mem_grid 10 (by decide) (show e ≤ 25 by omega)
    have hle : rounded q ≤ 10 ^ 25 := by
      have hle := roundTo_le (n := n) (unit_pos (b := 10) (by decide) e) (q := q) (by rw [← hn]; exact_mod_cast hlt.le)
      rw [← hn, ← hround] at hle
      exact_mod_cast hle
    have hle' : halfEven (rounded q * 100) ≤ 10 ^ 27 := halfEven_le (by push_cast; linarith)
    exact hle'.trans_lt (by norm_num)
  · rw [hexact, halfEven_intCast]
    by_contra hge
    have hge' : (10 ^ 28 : ℚ) ≤ halfEven (q * 100) := by exact_mod_cast not_lt.mp hge
    have hbound := (halfEven_bounds (q * 100)).1
    linarith

lemma log_rounded_le (hnonneg : 0 ≤ q) (h : q < 10 ^ 26 - 1 / 200) : Int.log 10 (rounded q) ≤ emax := by
  rcases (rounded_nonneg hnonneg).eq_or_lt with hzero | hpos
  · rw [← hzero, Int.log_zero_right]
    decide
  · have hlt : rounded q < 10 ^ 26 := by
      have hcents : (halfEven (rounded q * 100) : ℚ) ≤ 10 ^ 28 - 1 := by
        exact_mod_cast Int.le_sub_one_of_lt (halfEven_rounded_lt hnonneg h)
      have hbound := (halfEven_bounds (rounded q * 100)).2
      linarith
    have hlog : Int.log 10 (rounded q) < 26 := by
      rw [← Int.lt_zpow_iff_log_lt (by decide) hpos]
      exact_mod_cast hlt
    rw [emax]
    omega

lemma le_halfEven_rounded (h : 10 ^ 26 - 1 / 200 ≤ q) : 10 ^ 28 ≤ halfEven (rounded q * 100) := by
  have hpos : 0 < q := by linarith
  by_cases hlarge : 10 ^ 26 ≤ q
  · have hlog : 26 ≤ Int.log 10 q := by
      rw [← Int.zpow_le_iff_le_log (by decide) hpos]
      exact_mod_cast hlarge
    have hle : ((10 : ℕ) : ℚ) ^ Int.log 10 q ≤ rounded q :=
      pow_log_le_roundDigits (by decide) (by decide) hpos (by rw [etiny]; omega)
    have hten : ((10 : ℕ) : ℚ) ^ (26 : ℤ) ≤ (10 : ℕ) ^ Int.log 10 q := zpow_le_zpow_right₀ (by norm_num) hlog
    have hcents : (10 : ℚ) ^ 28 ≤ rounded q * 100 := by
      have hten' : (10 : ℚ) ^ 26 ≤ rounded q := by exact_mod_cast hten.trans hle
      linarith
    exact le_halfEven (by exact_mod_cast hcents)
  · rcases fine_or_exact hpos (not_le.mp hlarge) with ⟨e, he, hlt, hround⟩ | hexact
    · linarith
    · have hodd : halfEven ((10 ^ 28 - 1 : ℤ) + 1 / 2) = 10 ^ 28 := by
        rw [halfEven_half]
        norm_num
      rw [hexact, halfEven_intCast, ← hodd]
      exact halfEven_mono (by push_cast; linarith)

end TheCargo.Foundation.Decimal
