import TheCargo.Foundation.Numeral
import TheCargo.Foundation.Rounding

/-! Python's floats: the doubles, as the numbers they stand for. -/

namespace TheCargo.Foundation

inductive PyFloat
  | finite (q : ℚ)
  | infinite (negative : Bool)
  deriving DecidableEq

namespace PyFloat

/-- The nearest number of 53 binary digits. -/
def nearest (q : ℚ) : ℚ := roundDigits 2 53 (-1074) q

def ofRat (q : ℚ) : PyFloat := if |nearest q| < 2 ^ 1024 then .finite (nearest q) else .infinite (q < 0)

def finite? : PyFloat → Option ℚ
  | .finite q => some q
  | .infinite _ => none

/-- `a / b` of integers, the second not zero; nothing where it raises `OverflowError`. -/
def trueDiv (a b : ℤ) : Option ℚ := (ofRat (a / b)).finite?

/-- `float(n)`; nothing where it raises `OverflowError`. -/
def ofInt (n : ℤ) : Option ℚ := (ofRat n).finite?

def times (x : PyFloat) (c : ℚ) : PyFloat :=
  match x with
  | .finite q => ofRat (q * c)
  | .infinite negative => .infinite negative

def dividedBy (x : PyFloat) (c : ℚ) : PyFloat :=
  match x with
  | .finite q => ofRat (q / c)
  | .infinite negative => .infinite (negative != decide (c < 0))

/-- `round(x)`; nothing where it raises `OverflowError`. -/
def round (x : PyFloat) : Option ℤ := x.finite?.map halfEven

def roundTenth : PyFloat → PyFloat
  | .finite q => ofRat (halfEven (q * 10) / 10)
  | .infinite negative => .infinite negative

def plus (x : PyFloat) (q : ℚ) : PyFloat :=
  match x with
  | .finite p => ofRat (p + q)
  | .infinite negative => .infinite negative

def rank : PyFloat → WithBot (WithTop ℚ)
  | .finite q => ((q : WithTop ℚ) : WithBot (WithTop ℚ))
  | .infinite true => ⊥
  | .infinite false => ((⊤ : WithTop ℚ) : WithBot (WithTop ℚ))

def trunc (q : ℚ) : ℤ := if 0 ≤ q then ⌊q⌋ else ⌈q⌉

def fixedWhole (q : ℚ) : String :=
  (if q < 0 then "-" else "") ++ String.ofList (Numeral.grouped (halfEven |q|).natAbs)

def fixedTenth (q : ℚ) : String :=
  let tenths := (halfEven (|q| * 10)).natAbs
  (if q < 0 then "-" else "") ++ toString (tenths / 10) ++ "." ++ toString (tenths % 10)

variable {q : ℚ} {n : ℤ}

lemma nearest_ge_one (h : 1 ≤ q) : 1 ≤ nearest q := by
  have hpos : 0 < q := by linarith
  have hlog : 0 ≤ Int.log 2 q := by
    rw [← Int.zpow_le_iff_le_log (by decide) hpos, zpow_zero]
    exact h
  have hpow : (1 : ℚ) ≤ ((2 : ℕ) : ℚ) ^ Int.log 2 q := one_le_zpow₀ (by norm_num) hlog
  exact hpow.trans (pow_log_le_roundDigits (by decide) (by decide) hpos (by omega))

lemma nearest_neg (q : ℚ) : nearest (-q) = -nearest q := roundDigits_neg q

lemma one_le_abs_nearest (h : 1 ≤ |q|) : 1 ≤ |nearest q| := by
  rcases le_abs'.mp h with hneg | hpos
  · have hge := nearest_ge_one (q := -q) (by linarith)
    rw [nearest_neg] at hge
    exact le_abs'.mpr (.inl (by linarith))
  · exact le_abs'.mpr (.inr (nearest_ge_one hpos))

lemma abs_nearest_le {m : ℕ} {k : ℤ} (hm : m < 2 ^ 53) (hk : -1074 ≤ k) (h : |q| ≤ m * 2 ^ k) :
    |nearest q| ≤ m * 2 ^ k := by
  rw [abs_le] at h ⊢
  rcases le_total 0 q with hq | hq
  · have hle : nearest q ≤ m * ((2 : ℕ) : ℚ) ^ k := roundDigits_le (by decide) hm hk hq (by exact_mod_cast h.2)
    have hge : 0 ≤ nearest q := roundDigits_nonneg (by decide) hq
    exact ⟨by linarith, by exact_mod_cast hle⟩
  · have hle : nearest (-q) ≤ m * ((2 : ℕ) : ℚ) ^ k :=
      roundDigits_le (by decide) hm hk (by linarith) (by push_cast; linarith)
    have hge : 0 ≤ nearest (-q) := roundDigits_nonneg (by decide) (by linarith)
    rw [nearest_neg] at hle hge
    push_cast at hle
    exact ⟨by linarith, by linarith⟩

lemma ofRat_ne_zero (h : 1 ≤ |q|) : ofRat q ≠ .finite 0 := by
  have hge := one_le_abs_nearest h
  rw [ofRat]
  split
  · intro heq
    rw [finite.inj heq, abs_zero] at hge
    linarith
  · exact fun heq => PyFloat.noConfusion heq

lemma nearest_mono {p : ℚ} (h : p ≤ q) : nearest p ≤ nearest q := roundDigits_mono (by decide) (by decide) h

lemma nearest_nonneg (h : 0 ≤ q) : 0 ≤ nearest q := roundDigits_nonneg (by decide) h

lemma nearest_nonpos (h : q ≤ 0) : nearest q ≤ 0 := by
  have hneg := nearest_nonneg (neg_nonneg.mpr h)
  rw [nearest_neg] at hneg
  linarith

lemma rank_injective {x y : PyFloat} (h : x.rank = y.rank) : x = y := by
  rcases x with p | _ | _ <;> rcases y with q | _ | _ <;> simp_all [rank]

lemma rank_finite_le {p : ℚ} : (finite p).rank ≤ (finite q).rank ↔ p ≤ q := by
  rw [rank, rank, WithBot.coe_le_coe, WithTop.coe_le_coe]

lemma rank_ofRat_mono {p : ℚ} (h : p ≤ q) : (ofRat p).rank ≤ (ofRat q).rank := by
  have hmono := nearest_mono h
  by_cases hp : p < 0
  · by_cases hin : |nearest p| < 2 ^ 1024
    · rw [ofRat, if_pos hin]
      by_cases hq : |nearest q| < 2 ^ 1024
      · rw [ofRat, if_pos hq]
        exact rank_finite_le.mpr hmono
      · -- A negative `q` cannot leave the range upwards.
        have hq0 : ¬ q < 0 := by
          intro hneg
          have hle := nearest_nonpos hneg.le
          rw [abs_of_nonpos hle] at hq
          rw [abs_of_nonpos (nearest_nonpos hp.le)] at hin
          exact hq ((neg_le_neg hmono).trans_lt hin)
        simp [ofRat, if_neg hq, hq0, rank]
    · simp [ofRat, if_neg hin, hp, rank]
  · have hq0 : ¬ q < 0 := by linarith
    by_cases hq : |nearest q| < 2 ^ 1024
    · have hin : |nearest p| < 2 ^ 1024 := by
        rw [abs_of_nonneg (nearest_nonneg (by linarith))] at hq ⊢
        exact hmono.trans_lt hq
      rw [ofRat, ofRat, if_pos hin, if_pos hq]
      exact rank_finite_le.mpr hmono
    · have htop : ∀ x : WithTop ℚ, (x : WithBot (WithTop ℚ)) ≤ ((⊤ : WithTop ℚ) : WithBot (WithTop ℚ)) :=
        fun x => WithBot.coe_le_coe.mpr le_top
      have hrank : (ofRat q).rank = ((⊤ : WithTop ℚ) : WithBot (WithTop ℚ)) := by simp [ofRat, if_neg hq, hq0, rank]
      rw [hrank, ofRat]
      split
      · exact htop _
      · simp [hp, rank]

lemma finite?_ofRat {x : ℚ} (h : (ofRat q).finite? = some x) : x = nearest q := by
  rw [ofRat] at h
  split at h
  · exact (Option.some.inj h).symm
  · exact absurd h (by simp [finite?])

lemma ofRat_finite {m : ℕ} {k : ℤ} (hm : m < 2 ^ 53) (hk : -1074 ≤ k) (h : |q| ≤ m * 2 ^ k)
    (hlt : (m : ℚ) * 2 ^ k < 2 ^ 1024) : ofRat q = .finite (nearest q) := if_pos ((abs_nearest_le hm hk h).trans_lt hlt)

lemma ofRat_within {k : ℕ} (hk : k < 1024) (h : |q| ≤ 2 ^ k) : ∃ x, ofRat q = .finite x ∧ |x| ≤ 2 ^ k := by
  have hbound : |q| ≤ (1 : ℕ) * 2 ^ (k : ℤ) := by simpa using h
  have hlt : ((1 : ℕ) : ℚ) * 2 ^ (k : ℤ) < 2 ^ 1024 := by
    rw [Nat.cast_one, one_mul, zpow_natCast]
    exact pow_lt_pow_right₀ (by norm_num) hk
  refine ⟨nearest q, ofRat_finite (by norm_num) (by omega) hbound hlt, ?_⟩
  simpa using abs_nearest_le (by norm_num) (by omega) hbound

lemma abs_div_int_le (a b : ℤ) : |(a : ℚ) / b| ≤ |(a : ℚ)| := by
  rw [abs_div]
  rcases eq_or_ne b 0 with rfl | hb
  · simp
  · exact div_le_self (abs_nonneg _) (by exact_mod_cast Int.one_le_abs hb)

lemma trueDiv_within {a : ℤ} (b : ℤ) {k : ℕ} (hk : k < 1024) (h : |a| ≤ 2 ^ k) :
    ∃ x, trueDiv a b = some x ∧ |x| ≤ 2 ^ k := by
  obtain ⟨x, hx, hle⟩ := ofRat_within hk ((abs_div_int_le a b).trans (by exact_mod_cast h))
  exact ⟨x, by rw [trueDiv, hx, finite?], hle⟩

lemma ofInt_within {a : ℤ} {k : ℕ} (hk : k < 1024) (h : |a| ≤ 2 ^ k) : ∃ x, ofInt a = some x ∧ |x| ≤ 2 ^ k := by
  obtain ⟨x, hx, hle⟩ := ofRat_within hk (q := a) (by exact_mod_cast h)
  exact ⟨x, by rw [ofInt, hx, finite?], hle⟩

lemma trunc_le (q : ℚ) : |(trunc q : ℚ)| ≤ |q| := by
  rw [trunc]
  split
  · next hq =>
    rw [abs_of_nonneg hq, abs_of_nonneg (by exact_mod_cast Int.floor_nonneg.mpr hq)]
    exact Int.floor_le q
  · next hq =>
    have hneg := not_le.mp hq
    have hceil : (⌈q⌉ : ℚ) ≤ 0 := by exact_mod_cast Int.ceil_le.mpr (by push_cast; exact hneg.le)
    rw [abs_of_neg hneg, abs_of_nonpos hceil]
    exact neg_le_neg (Int.le_ceil q)

lemma trunc_ne_zero (h : 1 ≤ |q|) : trunc q ≠ 0 := by
  rw [trunc]
  split
  · next hq =>
    rw [abs_of_nonneg hq] at h
    have hle : (1 : ℤ) ≤ ⌊q⌋ := Int.le_floor.mpr (by exact_mod_cast h)
    omega
  · next hq =>
    rw [abs_of_neg (not_le.mp hq)] at h
    have hle : ⌈q⌉ ≤ (-1 : ℤ) := Int.ceil_le.mpr (by push_cast; linarith)
    omega

lemma ofRat_zero : ofRat 0 = .finite 0 := by
  have hzero : nearest 0 = 0 := roundDigits_zero _ _ _
  rw [ofRat, hzero, if_pos]
  rw [abs_zero]
  positivity

lemma trueDiv_zero (b : ℤ) : trueDiv 0 b = some 0 := by
  rw [trueDiv, Int.cast_zero, zero_div, ofRat_zero, finite?]

lemma one_le_abs_trueDiv_one {x : ℚ} (hn : n ≠ 0) (h : trueDiv n 1 = some x) : 1 ≤ |x| := by
  rw [finite?_ofRat h, Int.cast_one, div_one]
  exact one_le_abs_nearest (by exact_mod_cast Int.one_le_abs hn)

lemma finite?_between {p r : ℚ} (hpq : p ≤ q) (hqr : q ≤ r) (hp : (ofRat p).finite?.isSome)
    (hr : (ofRat r).finite?.isSome) : ∃ x, (ofRat q).finite? = some x := by
  have hin : ∀ s, (ofRat s).finite?.isSome → |nearest s| < 2 ^ 1024 := by
    intro s hs
    by_contra hout
    rw [ofRat, if_neg hout] at hs
    exact Bool.noConfusion hs
  refine ⟨nearest q, ?_⟩
  rw [ofRat, if_pos, finite?]
  have hlow := neg_lt_of_abs_lt (hin p hp)
  have hhigh := lt_of_abs_lt (hin r hr)
  exact abs_lt.mpr ⟨hlow.trans_le (nearest_mono hpq), (nearest_mono hqr).trans_lt hhigh⟩

def KeepsWhole (q : ℚ) : Prop := (⌊|q|⌋ : ℚ) ≤ |nearest q| ∧ |nearest q| < ⌊|q|⌋ + 1

lemma trunc_neg (q : ℚ) : trunc (-q) = -trunc q := by
  rcases lt_trichotomy q 0 with h | rfl | h
  · rw [trunc, trunc, if_pos (by linarith), if_neg (by linarith), Int.floor_neg]
  · simp [trunc]
  · rw [trunc, trunc, if_neg (by linarith), if_pos h.le, Int.ceil_neg]

lemma trunc_intCast_div (a : ℤ) (n : ℕ) : trunc ((a : ℚ) / n) = a.tdiv n := by
  rcases le_total 0 a with h | h
  · have hq : (0 : ℚ) ≤ a / n := div_nonneg (by exact_mod_cast h) (Nat.cast_nonneg n)
    rw [trunc, if_pos hq, Rat.floor_intCast_div_natCast, Int.tdiv_eq_ediv_of_nonneg h]
  · obtain ⟨b, rfl⟩ : ∃ b, a = -b := ⟨-a, (neg_neg a).symm⟩
    have hb : 0 ≤ b := by omega
    have hq : (0 : ℚ) ≤ b / n := div_nonneg (by exact_mod_cast hb) (Nat.cast_nonneg n)
    rw [Int.cast_neg, neg_div, trunc_neg, Int.neg_tdiv, trunc, if_pos hq, Rat.floor_intCast_div_natCast,
      Int.tdiv_eq_ediv_of_nonneg hb]

lemma trunc_nearest_of_nonneg (h : 0 ≤ q) : trunc (nearest q) = trunc q ↔ KeepsWhole q := by
  rw [KeepsWhole, abs_of_nonneg (nearest_nonneg h), abs_of_nonneg h, trunc, trunc, if_pos h, if_pos (nearest_nonneg h),
    Int.floor_eq_iff]

lemma trunc_nearest_iff (q : ℚ) : trunc (nearest q) = trunc q ↔ KeepsWhole q := by
  rcases le_total 0 q with h | h
  · exact trunc_nearest_of_nonneg h
  · have hneg := trunc_nearest_of_nonneg (neg_nonneg.mpr h)
    rw [nearest_neg, trunc_neg, trunc_neg, neg_inj, KeepsWhole, nearest_neg, abs_neg, abs_neg] at hneg
    exact hneg

lemma nearest_natCast {k : ℕ} (hk : k < 2 ^ 53) : nearest k = k := by
  rcases Nat.eq_zero_or_pos k with rfl | hpos
  · rw [Nat.cast_zero]
    exact roundDigits_zero 2 53 (-1074)
  have hpos' : (0 : ℚ) < k := by exact_mod_cast hpos
  have hlog : Int.log 2 (k : ℚ) < 53 := (Int.lt_zpow_iff_log_lt (by decide) hpos').mp (by exact_mod_cast hk)
  obtain ⟨n, hn⟩ := zpow_mem_grid 2 (by decide) (show max (Int.log 2 (k : ℚ) - ((53 : ℕ) - 1)) (-1074) ≤ 0 by omega)
  have hgrid : (k : ℚ) = ((k * n : ℤ) : ℚ) * ((2 : ℕ) : ℚ) ^ max (Int.log 2 (k : ℚ) - ((53 : ℕ) - 1)) (-1074) := by
    rw [Int.cast_mul, mul_assoc, ← hn, zpow_zero, mul_one, Int.cast_natCast]
  rw [nearest, roundDigits_of_pos hpos']
  calc roundTo _ (k : ℚ) = roundTo _ (((k * n : ℤ) : ℚ) * _) := congrArg _ hgrid
    _ = ((k * n : ℤ) : ℚ) * _ := roundTo_mul (unit_pos (by decide) _) _
    _ = k := hgrid.symm

lemma nearest_sub_le (h : 1 / 2 ≤ q) : nearest q - q ≤ q / 2 ^ 53 := by
  have hpos : 0 < q := by linarith
  have hlog : -1 ≤ Int.log 2 q := (Int.zpow_le_iff_le_log (by decide) hpos).mp (by norm_num; linarith)
  have hmax : max (Int.log 2 q - ((53 : ℕ) - 1)) (-1074) = Int.log 2 q - 52 := by omega
  have hunit : ((2 : ℕ) : ℚ) ^ (Int.log 2 q - 52) ≤ q / 2 ^ 52 := by
    rw [zpow_sub₀ (by norm_num)]
    exact div_le_div_of_nonneg_right (Int.zpow_log_le_self (by decide) hpos) (by norm_num)
  have hunit' : (0 : ℚ) < ((2 : ℕ) : ℚ) ^ (Int.log 2 q - 52) := unit_pos (by decide) _
  rw [nearest, roundDigits_of_pos hpos, hmax, roundTo]
  generalize ((2 : ℕ) : ℚ) ^ (Int.log 2 q - 52) = unit at hunit hunit'
  have hbound := (halfEven_bounds (q / unit)).1
  have hcancel : q / unit * unit = q := div_mul_cancel₀ q hunit'.ne'
  have hle : (halfEven (q / unit) : ℚ) * unit ≤ q + unit / 2 := by
    have hmul := mul_le_mul_of_nonneg_right hbound hunit'.le
    rw [sub_mul, hcancel] at hmul
    linarith
  have hhalf : q / 2 ^ 52 / 2 = q / 2 ^ 53 := by ring
  linarith

lemma keepsWhole_of_nonneg {t n : ℕ} (hn : 0 < n) (ht : t < 2 ^ 53) : KeepsWhole ((t : ℚ) / n) := by
  have hn' : (0 : ℚ) < n := by exact_mod_cast hn
  have hq : (0 : ℚ) ≤ t / n := div_nonneg (Nat.cast_nonneg t) hn'.le
  have hfloor : ⌊(t : ℚ) / n⌋ = ((t / n : ℕ) : ℤ) := by
    rw [Rat.floor_natCast_div_natCast, Int.natCast_div]
  rw [KeepsWhole, abs_of_nonneg (nearest_nonneg hq), abs_of_nonneg hq, hfloor, Int.cast_natCast]
  constructor
  · have hk : t / n < 2 ^ 53 := (Nat.div_le_self t n).trans_lt ht
    rw [← nearest_natCast hk]
    refine nearest_mono ((le_div_iff₀ hn').mpr ?_)
    exact_mod_cast Nat.div_mul_le_self t n
  · rcases lt_or_ge ((t : ℚ) / n) (1 / 2) with hsmall | hlarge
    · have hle := abs_nearest_le (q := (t : ℚ) / n) (m := 1) (k := -1) (by norm_num) (by decide)
        (by rw [abs_of_nonneg hq]; norm_num; linarith)
      have hle' := (le_abs_self _).trans hle
      have hnat : (0 : ℚ) ≤ ((t / n : ℕ) : ℚ) := Nat.cast_nonneg _
      norm_num at hle'
      linarith
    · -- The distance to the next integer is at least `1 / n`, and the rounding moves by less.
      have hgap : (t : ℚ) / n + 1 / n ≤ ((t / n : ℕ) : ℚ) + 1 := by
        rw [← add_div, div_le_iff₀ hn']
        have hlt := Nat.lt_mul_div_succ t hn
        have hcast : ((t + 1 : ℕ) : ℚ) ≤ ((n * (t / n + 1) : ℕ) : ℚ) := by exact_mod_cast hlt
        push_cast at hcast
        linarith
      have hmove : (t : ℚ) / n / 2 ^ 53 < 1 / n := by
        rw [div_right_comm]
        refine div_lt_div_of_pos_right ?_ hn'
        rw [div_lt_one (by norm_num)]
        exact_mod_cast ht
      have hround := nearest_sub_le hlarge
      linarith

lemma keepsWhole_of_lt {total : ℤ} {n : ℕ} (hn : 0 < n) (h : |total| < 2 ^ 53) : KeepsWhole ((total : ℚ) / n) := by
  have habs : (total.natAbs : ℤ) = |total| := Int.natCast_natAbs total
  have hkeeps := keepsWhole_of_nonneg (t := total.natAbs) hn (by omega)
  have hcast : (total.natAbs : ℚ) = |(total : ℚ)| := by rw [Nat.cast_natAbs, Int.cast_abs]
  rw [hcast] at hkeeps
  rcases le_total 0 (total : ℚ) with hpos | hneg
  · rwa [abs_of_nonneg hpos] at hkeeps
  · rw [abs_of_nonpos hneg, neg_div] at hkeeps
    rw [KeepsWhole] at hkeeps ⊢
    rwa [nearest_neg, abs_neg, abs_neg] at hkeeps

end PyFloat

end TheCargo.Foundation
