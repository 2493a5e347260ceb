import Mathlib.Data.Nat.Notation
import Mathlib.Tactic.Common

namespace TheCargo.Foundation

variable {c : Char}

lemma isUpper_iff : c.isUpper = true ↔ 65 ≤ c.toNat ∧ c.toNat ≤ 90 :=
  decide_eq_true_iff.trans (and_congr UInt32.le_iff_toNat_le UInt32.le_iff_toNat_le)

lemma range_iff {lo hi : UInt32} : (decide (lo ≤ c.val) && decide (c.val ≤ hi)) = true ↔
    lo.toNat ≤ c.toNat ∧ c.toNat ≤ hi.toNat := by
  rw [Bool.and_eq_true, decide_eq_true_iff, decide_eq_true_iff]
  exact and_congr UInt32.le_iff_toNat_le UInt32.le_iff_toNat_le

lemma isLower_iff : c.isLower = true ↔ 97 ≤ c.toNat ∧ c.toNat ≤ 122 := range_iff

lemma isDigit_iff : c.isDigit = true ↔ 48 ≤ c.toNat ∧ c.toNat ≤ 57 := range_iff

lemma isAlpha_iff : c.isAlpha = true ↔ c.isUpper = true ∨ c.isLower = true := Bool.or_eq_true_iff

lemma isAlphanum_iff : c.isAlphanum = true ↔ c.isAlpha = true ∨ c.isDigit = true := Bool.or_eq_true_iff

lemma toLower_of_not_upper (h : ¬ c.isUpper = true) : c.toLower = c :=
  dif_neg (fun hu => h (decide_eq_true hu))

lemma isAlpha_of_isLower_toLower (h : c.toLower.isLower = true) : c.isAlpha = true := by
  by_cases hu : c.isUpper = true
  · exact isAlpha_iff.mpr (Or.inl hu)
  · rw [toLower_of_not_upper hu] at h
    exact isAlpha_iff.mpr (Or.inr h)

lemma toLower_of_isLower (h : c.isLower = true) : c.toLower = c := by
  apply toLower_of_not_upper
  rw [isLower_iff] at h
  rw [isUpper_iff]
  omega

lemma toNat_of_isAlpha (h : c.isAlpha = true) : c.toNat < 128 := by
  rw [isAlpha_iff, isUpper_iff, isLower_iff] at h
  omega

end TheCargo.Foundation
