import Mathlib.Algebra.Order.Ring.Nat
import TheCargo.Foundation.PyString

namespace TheCargo.Foundation

/-- `"%0kx" % n` of a number that fits -/
def hexOf : ℕ → ℕ → List Char
  | 0, _ => []
  | k + 1, n => hexOf k (n / 16) ++ [Nat.digitChar (n % 16)]

lemma length_hexOf (k n : ℕ) : (hexOf k n).length = k := by
  induction k generalizing n with
  | zero => rfl
  | succ k ih => rw [hexOf, List.length_append, ih, List.length_singleton]

lemma mem_hexOf {k n : ℕ} {c : Char} (h : c ∈ hexOf k n) : ∃ d < 16, c = Nat.digitChar d := by
  induction k generalizing n with
  | zero => exact absurd h List.not_mem_nil
  | succ k ih =>
    rcases List.mem_append.mp h with h | h
    · exact ih h
    · exact ⟨n % 16, Nat.mod_lt n (by decide), List.mem_singleton.mp h⟩

lemma forall_hexOf {p : Char → Prop} (h : ∀ d < 16, p (Nat.digitChar d)) {k n : ℕ} : ∀ c ∈ hexOf k n, p c := by
  intro c hc
  obtain ⟨d, hd, rfl⟩ := mem_hexOf hc
  exact h d hd

lemma hexDigit_digitChar : ∀ d < 16, hexDigit (Nat.digitChar d) = some d := by decide

lemma hexDigits_digitChar {d : ℕ} (hd : d < 16) (m : ℕ) (b : Bool) (cs : List Char) :
    hexDigits m b (Nat.digitChar d :: cs) = hexDigits (16 * m + d) true cs := by
  have hmark : ∀ d < 16, Nat.digitChar d ≠ '_' := by decide
  rw [hexDigits, if_neg (hmark d hd), hexDigit_digitChar d hd, Option.bind_some]

lemma hexDigits_hexOf (k n m : ℕ) (b : Bool) (cs : List Char) :
    hexDigits m b (hexOf k n ++ cs) = hexDigits (16 ^ k * m + n % 16 ^ k) (b || decide (0 < k)) cs := by
  induction k generalizing n cs with
  | zero => simp [hexOf, Nat.mod_one]
  | succ k ih =>
    have hlast : n % 16 < 16 := Nat.mod_lt n (by decide)
    have hsplit : n % 16 ^ (k + 1) = n % 16 + 16 * (n / 16 % 16 ^ k) := by rw [Nat.pow_succ', Nat.mod_mul]
    have hpow : 16 ^ (k + 1) * m = 16 * (16 ^ k * m) := by rw [Nat.pow_succ', Nat.mul_assoc]
    have htrue : (b || decide (0 < k + 1)) = true := by simp
    rw [hexOf, List.append_assoc, List.singleton_append, ih, hexDigits_digitChar hlast, htrue]
    congr 1
    omega

lemma dropHexMark_self {cs : List Char} (h : ∀ c ∈ cs, ¬(c = 'x' ∨ c = 'X')) : dropHexMark cs = cs := by
  rw [dropHexMark.eq_def]
  split
  · rename_i x rest
    rw [if_neg (h x (by simp))]
  · rfl

lemma hexInt_hexOf {k n : ℕ} (hk : 0 < k) (hn : n < 16 ^ k) : hexInt (String.ofList (hexOf k n)) = some (n : ℤ) := by
  have hread : hexDigits 0 false (hexOf k n) = some n := by
    have h := hexDigits_hexOf k n 0 false []
    rw [List.append_nil, Nat.mod_eq_of_lt hn, Nat.mul_zero, Nat.zero_add] at h
    rw [h]
    simp [hexDigits, hk]
  have hsolid : ∀ d < 16, isSpace (Nat.digitChar d) = false := by decide
  have hsigns : ∀ d < 16, Nat.digitChar d ≠ '-' ∧ Nat.digitChar d ≠ '+' := by decide
  have hmarks : ∀ d < 16, ¬(Nat.digitChar d = 'x' ∨ Nat.digitChar d = 'X') := by decide
  have hplain := forall_hexOf (p := fun c => c ≠ '-' ∧ c ≠ '+') hsigns (k := k) (n := n)
  have hstrip := strip_solid (forall_hexOf (p := fun c => isSpace c = false) hsolid (k := k) (n := n))
  have hdrop := dropHexMark_self (forall_hexOf (p := fun c => ¬(c = 'x' ∨ c = 'X')) hmarks (k := k) (n := n))
  rw [hexInt, hstrip, String.toList_ofList]
  split
  · rename_i cs hcs
    exact absurd rfl (hplain '-' (hcs ▸ List.mem_cons_self)).1
  · rename_i cs hcs
    exact absurd rfl (hplain '+' (hcs ▸ List.mem_cons_self)).2
  · rw [hdrop, hread]
    rfl

end TheCargo.Foundation
