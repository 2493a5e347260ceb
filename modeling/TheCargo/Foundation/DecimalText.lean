import TheCargo.Foundation.Ascii
import TheCargo.Foundation.Decimal

namespace TheCargo.Foundation.Decimal

lemma digit_of_isDigit {c : Char} (h : c.isDigit = true) : digit c = some (c.toNat - 48) := by
  have hbounds := isDigit_iff.mp h
  have hzero : (48 ≤ c.toNat && c.toNat < 48 + 10) = true := by
    simp only [Bool.and_eq_true, decide_eq_true_eq]
    omega
  rw [digit, zeros, List.find?_cons_of_pos (by simpa using hzero)]
  rfl

lemma natOf_digits {cs : List Char} (h : ∀ c ∈ cs, c.isDigit = true) : natOf cs = some (Nat.ofDigitChars 10 cs 0) := by
  have hfold : ∀ n, cs.foldl (fun n c => n.bind (fun n => (digit c).map (fun d => 10 * n + d))) (some n) =
      some (Nat.ofDigitChars 10 cs n) := by
    induction cs with
    | nil => exact fun _ => rfl
    | cons c cs ih =>
      intro n
      obtain ⟨hc, hcs⟩ := List.forall_mem_cons.mp h
      rw [List.foldl_cons, Option.bind_some, digit_of_isDigit hc, Option.map_some, ih hcs, Nat.ofDigitChars_cons]
      rfl
  exact hfold 0

lemma number_fixed {whole frac : List Char} (hne : whole ≠ []) (hwhole : ∀ c ∈ whole, c.isDigit = true)
    (hfrac : ∀ c ∈ frac, c.isDigit = true) (n : ℕ) (hn : Nat.ofDigitChars 10 (whole ++ frac) 0 = n)
    (hfits : fits n (-frac.length) = true) :
    number (whole ++ '.' :: frac) = some (scale n (-frac.length)) := by
  have hmark : ∀ c : Char, c.isDigit = true → c ≠ 'e' ∧ c ≠ '.' := by
    intro c hc
    constructor <;> rintro rfl <;> exact absurd hc (by decide)
  have hnomark : ∀ c ∈ whole ++ '.' :: frac, (decide (c ≠ 'e')) = true := by
    intro c hc
    rw [decide_eq_true_eq]
    rcases List.mem_append.mp hc with hc | hc
    · exact (hmark c (hwhole c hc)).1
    · rcases List.mem_cons.mp hc with rfl | hc
      · decide
      · exact (hmark c (hfrac c hc)).1
  have htake : (whole ++ '.' :: frac).takeWhile (fun c => decide (c ≠ 'e')) = whole ++ '.' :: frac :=
    List.takeWhile_eq_self_iff.mpr hnomark
  have hdrop : (whole ++ '.' :: frac).dropWhile (fun c => decide (c ≠ 'e')) = [] :=
    List.dropWhile_eq_nil_iff.mpr hnomark
  have hpoint : ∀ c ∈ whole, decide (c ≠ '.') = true := fun c hc => decide_eq_true (hmark c (hwhole c hc)).2
  have hwhole' : (whole ++ '.' :: frac).takeWhile (fun c => decide (c ≠ '.')) = whole := by
    rw [List.takeWhile_append_of_pos hpoint, List.takeWhile_cons_of_neg (by simp), List.append_nil]
  have hfrac' : (whole ++ '.' :: frac).dropWhile (fun c => decide (c ≠ '.')) = '.' :: frac := by
    rw [List.dropWhile_append_of_pos hpoint, List.dropWhile_cons_of_neg (by simp)]
  have hempty : (whole.isEmpty && frac.isEmpty) = false := by
    cases whole with
    | nil => exact absurd rfl hne
    | cons c w => rfl
  have hdigits : natOf (whole ++ frac) = some n := by
    rw [natOf_digits (List.forall_mem_append.mpr ⟨hwhole, hfrac⟩), hn]
  simp only [number, htake, hdrop, hwhole', hfrac', List.tail_cons, hempty, Bool.false_eq_true, if_false, hdigits,
    Option.bind_some, exponent, Int.zero_sub, hfits, if_true]

lemma signed_cons {c : Char} {cs : List Char} (h : c.isDigit = true) : signed (c :: cs) = (false, c :: cs) := by
  have hminus : c ≠ '-' := by rintro rfl; exact absurd h (by decide)
  have hplus : c ≠ '+' := by rintro rfl; exact absurd h (by decide)
  unfold signed
  split
  · rename_i heq
    exact absurd (List.cons.inj heq).1 hminus
  · rename_i heq
    exact absurd (List.cons.inj heq).1 hplus
  · rfl

lemma plain_digit {c : Char} (h : c.isDigit = true) : isSpace c = false ∧ c ≠ '_' ∧ c.toLower = c := by
  have hbounds := isDigit_iff.mp h
  refine ⟨?_, ?_, ?_⟩
  · rw [← Bool.not_eq_true]
    simp only [isSpace, Bool.or_eq_true, Bool.and_eq_true, decide_eq_true_eq, beq_iff_eq]
    omega
  · rintro rfl
    exact absurd h (by decide)
  · apply toLower_of_not_upper
    rw [isUpper_iff]
    omega

lemma parse_plain {cs : List Char} (h : ∀ c ∈ cs, isSpace c = false ∧ c ≠ '_' ∧ c.toLower = c) {negative : Bool}
    {c : Char} {rest : List Char} (hsigned : signed cs = (negative, c :: rest)) (hc : c.isDigit = true) :
    parse (String.ofList cs) = (number (c :: rest)).map (fun q => .finite (withSign negative q)) := by
  have hclean : ((strip (String.ofList cs)).toList.filter (· ≠ '_')).map Char.toLower = cs := by
    have hself : cs.filter (fun c => decide (c ≠ '_')) = cs :=
      List.filter_eq_self.mpr (fun c hc => decide_eq_true (h c hc).2.1)
    rw [strip_solid (fun c hc => (h c hc).1), String.toList_ofList, hself]
    exact (List.map_congr_left fun c hc => (h c hc).2.2).trans (List.map_id cs)
  have hhead : ∀ (d : Char) (ds : List Char), d.isDigit = false →
      String.ofList (c :: rest) ≠ String.ofList (d :: ds) := by
    intro d ds hd heq
    have hcd := (List.cons.inj (String.ofList_injective heq)).1
    rw [hcd, hd] at hc
    exact Bool.false_ne_true hc
  have htake : ∀ (n : ℕ) (d : Char) (ds : List Char), d.isDigit = false → (c :: rest).take (n + 1) ≠ d :: ds := by
    intro n d ds hd heq
    rw [List.take_succ_cons] at heq
    rw [(List.cons.inj heq).1, hd] at hc
    exact Bool.false_ne_true hc
  simp only [parse, hclean, hsigned]
  rw [if_neg (not_or.mpr ⟨hhead 'i' ['n', 'f'] rfl, hhead 'i' ['n', 'f', 'i', 'n', 'i', 't', 'y'] rfl⟩),
    if_neg (htake 2 'n' ['a', 'n'] rfl), if_neg (htake 3 's' ['n', 'a', 'n'] rfl)]

lemma parse_fixed {whole frac : List Char} (negative : Bool) (hne : whole ≠ []) (hwhole : ∀ c ∈ whole, c.isDigit = true)
    (hfrac : ∀ c ∈ frac, c.isDigit = true) {n : ℕ} (hn : Nat.ofDigitChars 10 (whole ++ frac) 0 = n)
    (hfits : fits n (-frac.length) = true) :
    parse (String.ofList ((if negative then ['-'] else []) ++ (whole ++ '.' :: frac))) =
      some (.finite (withSign negative (scale n (-frac.length)))) := by
  have hplain : ∀ c ∈ whole ++ '.' :: frac, isSpace c = false ∧ c ≠ '_' ∧ c.toLower = c := by
    intro c hc
    rcases List.mem_append.mp hc with hc | hc
    · exact plain_digit (hwhole c hc)
    · rcases List.mem_cons.mp hc with rfl | hc
      · decide
      · exact plain_digit (hfrac c hc)
  have hnumber := number_fixed hne hwhole hfrac n hn hfits
  cases whole with
  | nil => exact absurd rfl hne
  | cons c whole =>
    have hc := hwhole c List.mem_cons_self
    cases negative with
    | false =>
      have hsigned : signed (c :: (whole ++ '.' :: frac)) = (false, c :: (whole ++ '.' :: frac)) := signed_cons hc
      rw [parse_plain (by simpa using hplain) (by simpa using hsigned) hc, ← List.cons_append, hnumber, Option.map_some]
    | true =>
      have hplain' : ∀ d ∈ '-' :: (c :: whole ++ '.' :: frac), isSpace d = false ∧ d ≠ '_' ∧ d.toLower = d :=
        List.forall_mem_cons.mpr ⟨by decide, hplain⟩
      have hsigned : signed ('-' :: c :: (whole ++ '.' :: frac)) = (true, c :: (whole ++ '.' :: frac)) := rfl
      exact (parse_plain hplain' hsigned hc).trans (by rw [← List.cons_append, hnumber, Option.map_some])

end TheCargo.Foundation.Decimal
