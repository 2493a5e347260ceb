import Mathlib.Data.Int.Notation
import Mathlib.Tactic.Common

namespace TheCargo.Foundation.Numeral

def commas : List Char → List Char
  | a :: b :: c :: d :: l => a :: b :: c :: ',' :: commas (d :: l)
  | l => l

/-- `f"{n:,}"` of a number that is not negative -/
def grouped (n : ℕ) : List Char := (commas (Nat.toDigits 10 n).reverse).reverse

def groupedInt (n : ℤ) : String := String.ofList (if n < 0 then '-' :: grouped n.natAbs else grouped n.natAbs)

def twoDigits (n : ℕ) : List Char := [Nat.digitChar (n / 10), Nat.digitChar (n % 10)]

def InThrees (l : List Char) : Prop :=
  ∃ (first : List Char) (rest : List (List Char)), l = first ++ rest.flatMap (fun group => ',' :: group) ∧
    1 ≤ first.length ∧ first.length ≤ 3 ∧ (∀ group ∈ rest, group.length = 3) ∧
    (∀ c ∈ first, c.isDigit = true) ∧ ∀ group ∈ rest, ∀ c ∈ group, c.isDigit = true

lemma isDigit_digitChar {d : ℕ} (h : d < 10) : (Nat.digitChar d).isDigit = true := by
  rw [Nat.isDigit_digitChar, decide_eq_true_eq]
  exact h

lemma isDigit_toDigits (n : ℕ) : ∀ c ∈ Nat.toDigits 10 n, c.isDigit = true :=
  fun _ hc => Nat.isDigit_of_mem_toDigits (by decide) (by decide) hc

lemma inThrees_commas {l : List Char} (hne : l ≠ []) (hdigit : ∀ c ∈ l, c.isDigit = true) :
    InThrees (commas l).reverse := by
  fun_induction commas l with
  | case1 a b c d l ih =>
    obtain ⟨first, rest, heq, hpos, hle, hthree, hfirst, hrest⟩ :=
      ih (List.cons_ne_nil d l) (fun x hx => hdigit x (by simp only [List.mem_cons] at hx ⊢; tauto))
    refine ⟨first, rest ++ [[c, b, a]], ?_, hpos, hle, ?_, hfirst, ?_⟩
    · simp [heq, List.flatMap_append]
    · intro group hgroup
      rcases List.mem_append.mp hgroup with h | h
      · exact hthree group h
      · rw [List.mem_singleton.mp h]
        rfl
    · intro group hgroup x hx
      rcases List.mem_append.mp hgroup with h | h
      · exact hrest group h x hx
      · rw [List.mem_singleton.mp h] at hx
        exact hdigit x (by simp only [List.mem_cons, List.not_mem_nil, or_false] at hx ⊢; tauto)
  | case2 l hshort =>
    refine ⟨l.reverse, [], by simp, ?_, ?_, by simp, by simpa using hdigit, by simp⟩
    · exact List.length_pos_iff.mpr (by simpa using hne)
    · match l, hshort with
      | [], _ => exact absurd rfl hne
      | [_], _ => exact Nat.le_of_ble_eq_true rfl
      | [_, _], _ => exact Nat.le_of_ble_eq_true rfl
      | [_, _, _], _ => exact Nat.le_refl 3
      | a :: b :: c :: d :: l, hshort => exact (hshort a b c d l rfl).elim

lemma inThrees_grouped (n : ℕ) : InThrees (grouped n) :=
  inThrees_commas (by simp [Nat.toDigits_ne_nil]) (fun c hc => isDigit_toDigits n c (List.mem_reverse.mp hc))

lemma filter_commas {p : Char → Bool} {l : List Char} (hcomma : p ',' = false) (hp : ∀ c ∈ l, p c = true) :
    (commas l).filter p = l := by
  fun_induction commas l with
  | case1 a b c d l ih =>
    simp only [List.forall_mem_cons] at hp
    obtain ⟨ha, hb, hc, hrest⟩ := hp
    rw [List.filter_cons_of_pos ha, List.filter_cons_of_pos hb, List.filter_cons_of_pos hc,
      List.filter_cons_of_neg (by simp [hcomma]), ih (List.forall_mem_cons.mpr hrest)]
  | case2 l => exact List.filter_eq_self.mpr hp

lemma filter_grouped {p : Char → Bool} (hcomma : p ',' = false) (hp : ∀ c, c.isDigit = true → p c = true) (n : ℕ) :
    (grouped n).filter p = Nat.toDigits 10 n := by
  rw [grouped, List.filter_reverse, filter_commas hcomma, List.reverse_reverse]
  exact fun c hc => hp c (isDigit_toDigits n c (List.mem_reverse.mp hc))

lemma isDigit_twoDigits {n : ℕ} (h : n < 100) : ∀ c ∈ twoDigits n, c.isDigit = true := by
  simp only [twoDigits, List.forall_mem_cons, List.not_mem_nil, false_imp_iff, implies_true, and_true]
  exact ⟨isDigit_digitChar (by omega), isDigit_digitChar (by omega)⟩

lemma ofDigitChars_hundredths (n : ℕ) :
    Nat.ofDigitChars 10 (Nat.toDigits 10 (n / 100) ++ twoDigits (n % 100)) 0 = n := by
  rw [Nat.ofDigitChars_append, Nat.ofDigitChars_ten_toDigits, twoDigits,
    Nat.ofDigitChars_cons_digitChar_of_lt_ten (by omega), Nat.ofDigitChars_cons_digitChar_of_lt_ten (by omega),
    Nat.ofDigitChars_nil]
  omega

end TheCargo.Foundation.Numeral
