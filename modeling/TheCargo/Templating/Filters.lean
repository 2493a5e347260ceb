import TheCargo.Foundation.DecimalContext
import TheCargo.Foundation.DecimalText
import TheCargo.Foundation.Numeral

namespace TheCargo.Templating

open Foundation Foundation.Numeral

variable (upper : String → String)

def currencySuffix (code : Option String) : String :=
  if upper (orElse code "USD") = "USD" then "" else " " ++ upper (orElse code "USD")

def currencyBody (negative : Bool) (cents : ℕ) : String :=
  (if negative then "-" else "") ++ "$" ++ String.ofList (grouped (cents / 100)) ++ "." ++
    String.ofList (twoDigits (cents % 100))

/-- The filter on a value given by its `str`; nothing where it raises. -/
def currency (value : Option String) (code : Option String) : Option String :=
  match value with
  | none => some ""
  | some text =>
    if text = "" then some ""
    else
      match Decimal.parse text with
      | none => some text
      | some amount => do
        let negative ← amount.isNegative
        let amount ← amount.abs
        let cents ← amount.quantizeCents
        some (currencyBody negative cents.natAbs ++ currencySuffix upper code)

def uncurrency (body : String) : String := String.ofList (body.toList.filter (fun c => c ≠ '$' && c ≠ ','))

def ShowsAmount (q : ℚ) (body : String) : Prop :=
  ∃ (sign : String) (whole frac : List Char), body = sign ++ "$" ++ String.ofList whole ++ "." ++ String.ofList frac ∧
    (sign = "" ∨ sign = "-") ∧ InThrees whole ∧ frac.length = 2 ∧ (∀ c ∈ frac, c.isDigit = true) ∧
    Decimal.parse (uncurrency body) = some (.finite (halfEven (q * 100) / 100))

def Rendered (value : Option String) (code : Option String) : Prop :=
  match value with
  | none => currency upper none code = some ""
  | some text =>
    if text = "" then currency upper (some text) code = some ""
    else
      match Decimal.parse text with
      | none => currency upper (some text) code = some text
      | some (.finite q) =>
        ∃ body, currency upper (some text) code = some (body ++ currencySuffix upper code) ∧ ShowsAmount q body
      | some _ => currency upper (some text) code ≠ none

def InRange (q : ℚ) : Prop := |q| < 10 ^ 26 - 1 / 200 ∧ ¬ Decimal.Misrounds |q|

def Renderable (value : Option String) : Prop :=
  ∀ text, value = some text → text ≠ "" → ∀ amount, Decimal.parse text = some amount →
    ∃ q, amount = .finite q ∧ InRange q

variable {upper} {code : Option String}

lemma uncurrency_body (negative : Bool) (cents : ℕ) :
    uncurrency (currencyBody negative cents) =
      String.ofList ((if negative then ['-'] else []) ++
        (Nat.toDigits 10 (cents / 100) ++ '.' :: twoDigits (cents % 100))) := by
  have hdigit : ∀ c : Char, c.isDigit = true → (decide (c ≠ '$') && decide (c ≠ ',')) = true := by
    intro c hc
    rw [Bool.and_eq_true, decide_eq_true_eq, decide_eq_true_eq]
    constructor <;> rintro rfl <;> exact absurd hc (by decide)
  have hfrac : (twoDigits (cents % 100)).filter (fun c => decide (c ≠ '$') && decide (c ≠ ',')) =
      twoDigits (cents % 100) :=
    List.filter_eq_self.mpr (fun c hc => hdigit c (isDigit_twoDigits (by omega) c hc))
  rw [uncurrency, currencyBody]
  congr 1
  simp only [String.toList_append, String.toList_ofList, List.filter_append]
  rw [filter_grouped (by decide) hdigit, hfrac]
  cases negative <;> simp

lemma fits_cents {cents : ℕ} (h : cents < 10 ^ 28) : Decimal.fits cents (-2) = true := by
  have hlog : Nat.log 10 cents < 28 := Nat.log_lt_of_lt_pow' (by decide) h
  have hhigh : (-2 : ℤ) + Nat.log 10 cents ≤ Decimal.maxEmax := by
    rw [Decimal.maxEmax]
    omega
  rw [Decimal.fits, decide_eq_true hhigh, Bool.and_true]
  decide

lemma parse_body (negative : Bool) {cents : ℕ} (h : cents < 10 ^ 28) :
    Decimal.parse (uncurrency (currencyBody negative cents)) =
      some (.finite (Decimal.withSign negative (cents / 100))) := by
  have hparse := Decimal.parse_fixed negative Nat.toDigits_ne_nil (isDigit_toDigits (cents / 100))
    (isDigit_twoDigits (n := cents % 100) (by omega)) (ofDigitChars_hundredths cents) (fits_cents h)
  have hscale : Decimal.scale cents (-2) = cents / 100 := by
    have htoNat : (-(-2 : ℤ)).toNat = 2 := rfl
    rw [Decimal.scale, if_neg (by decide), Rat.mkRat_eq_div, htoNat]
    norm_num
  rw [uncurrency_body, hparse]
  exact congrArg (fun x => some (Decimal.finite (Decimal.withSign negative x))) hscale

lemma shows_body {q : ℚ} {cents : ℕ} (h : cents < 10 ^ 28)
    (hq : Decimal.withSign (q < 0) (cents / 100) = halfEven (q * 100) / 100) :
    ShowsAmount q (currencyBody (q < 0) cents) := by
  refine ⟨if decide (q < 0) = true then "-" else "", grouped (cents / 100), twoDigits (cents % 100), rfl, ?_,
    inThrees_grouped _, rfl, isDigit_twoDigits (by omega), ?_⟩
  · split
    · exact .inr rfl
    · exact .inl rfl
  · rw [parse_body _ h, hq]

lemma withSign_halfEven (q : ℚ) :
    Decimal.withSign (q < 0) ((halfEven (|q| * 100)).natAbs / 100) = (halfEven (q * 100) / 100 : ℚ) := by
  have hnonneg : 0 ≤ halfEven (|q| * 100) := halfEven_nonneg (by positivity)
  have hcast : ((halfEven (|q| * 100)).natAbs : ℚ) = halfEven (|q| * 100) := by
    rw [← Int.cast_natCast, Int.natAbs_of_nonneg hnonneg]
  rw [hcast, Decimal.withSign]
  by_cases h : q < 0
  · rw [if_pos (decide_eq_true h), abs_of_neg h, neg_mul, halfEven_neg]
    push_cast
    ring
  · rw [if_neg (by simp [h]), abs_of_nonneg (not_lt.mp h)]

lemma withSign_inj {negative : Bool} {p q : ℚ} (h : Decimal.withSign negative p = Decimal.withSign negative q) :
    p = q := by
  cases negative with
  | false => exact h
  | true => exact neg_inj.mp h

lemma currency_finite {text : String} {q : ℚ} (hne : text ≠ "") (hparse : Decimal.parse text = some (.finite q)) :
    currency upper (some text) code =
      if |q| < 10 ^ 26 - 1 / 200 then
        some (currencyBody (q < 0) (halfEven (Decimal.rounded |q| * 100)).natAbs ++ currencySuffix upper code)
      else none := by
  have hnonneg : 0 ≤ halfEven (Decimal.rounded |q| * 100) :=
    halfEven_nonneg (mul_nonneg (Decimal.rounded_nonneg (abs_nonneg q)) (by norm_num))
  simp only [currency, if_neg hne, hparse, Decimal.isNegative, Decimal.abs, Option.bind_eq_bind, Option.bind_some]
  by_cases hq : |q| < 10 ^ 26 - 1 / 200
  · have hlt := Decimal.halfEven_rounded_lt (abs_nonneg q) hq
    have hlog := Decimal.log_rounded_le (abs_nonneg q) hq
    rw [if_neg (not_lt.mpr hlog), if_pos hq, Option.bind_some, Decimal.quantizeCents, abs_of_nonneg hnonneg,
      Decimal.prec, if_pos hlt, Option.bind_some]
  · have hge := Decimal.le_halfEven_rounded (not_lt.mp hq)
    rw [if_neg hq]
    split
    · rfl
    · rw [Option.bind_some, Decimal.quantizeCents, abs_of_nonneg hnonneg, Decimal.prec, if_neg (not_lt.mpr hge)]
      rfl

lemma rendered_finite {text : String} {q : ℚ} (hne : text ≠ "") (hparse : Decimal.parse text = some (.finite q)) :
    Rendered upper (some text) code ↔ InRange q := by
  simp only [Rendered, if_neg hne, hparse, currency_finite hne hparse, InRange]
  by_cases hq : |q| < 10 ^ 26 - 1 / 200
  · have hnonneg : 0 ≤ halfEven (Decimal.rounded |q| * 100) :=
      halfEven_nonneg (mul_nonneg (Decimal.rounded_nonneg (abs_nonneg q)) (by norm_num))
    have hlt := Decimal.halfEven_rounded_lt (abs_nonneg q) hq
    have hlt' : (halfEven (Decimal.rounded |q| * 100)).natAbs < 10 ^ 28 := by
      zify
      rwa [abs_of_nonneg hnonneg]
    rw [if_pos hq, and_iff_right hq, ← Decimal.halfEven_rounded (abs_nonneg q) (by linarith)]
    constructor
    · rintro ⟨body, hbody, -, -, -, -, -, -, -, -, hread⟩
      have hbody' := (String.append_left_inj _).mp (Option.some.inj hbody)
      rw [← hbody', parse_body _ hlt', ← withSign_halfEven] at hread
      have habs := withSign_inj (Decimal.finite.inj (Option.some.inj hread))
      have hcents : (halfEven (Decimal.rounded |q| * 100)).natAbs = (halfEven (|q| * 100)).natAbs := by
        exact_mod_cast (div_left_inj' (by norm_num : (100 : ℚ) ≠ 0)).mp habs
      have hnonneg' : 0 ≤ halfEven (|q| * 100) := halfEven_nonneg (by positivity)
      omega
    · intro heq
      refine ⟨_, rfl, shows_body hlt' ?_⟩
      rw [heq, withSign_halfEven]
  · rw [if_neg hq]
    exact iff_of_false (fun ⟨_, h, _⟩ => Option.some_ne_none _ h.symm) (fun h => hq h.1)

theorem currency_rendered_iff (value code : Option String) : Rendered upper value code ↔ Renderable value := by
  cases value with
  | none => exact iff_of_true rfl (fun _ h => absurd h.symm (Option.some_ne_none _))
  | some text =>
    by_cases hne : text = ""
    · subst hne
      exact iff_of_true (by simp [Rendered, currency]) (fun _ h hne => absurd (Option.some.inj h).symm hne)
    · cases hparse : Decimal.parse text with
      | none =>
        refine iff_of_true (by simp [Rendered, currency, hne, hparse]) ?_
        rintro _ ⟨⟩ - amount h
        exact absurd (hparse.symm.trans h).symm (Option.some_ne_none _)
      | some amount =>
        have hiff : Renderable (some text) ↔ ∃ q, amount = .finite q ∧ InRange q := by
          constructor
          · exact fun h => h text rfl hne amount hparse
          · rintro h _ ⟨⟩ - _ hparse'
            exact Option.some.inj (hparse.symm.trans hparse') ▸ h
        rw [hiff]
        cases amount with
        | finite q =>
          rw [rendered_finite hne hparse]
          exact ⟨fun h => ⟨q, rfl, h⟩, fun ⟨_, he, h⟩ => Decimal.finite.inj he ▸ h⟩
        | infinity negative =>
          refine iff_of_false ?_ (fun ⟨_, he, _⟩ => Decimal.noConfusion he)
          simp [Rendered, hne, hparse, currency, Decimal.isNegative, Decimal.abs, Decimal.quantizeCents]
        | nan =>
          refine iff_of_false ?_ (fun ⟨_, he, _⟩ => Decimal.noConfusion he)
          simp [Rendered, hne, hparse, currency, Decimal.isNegative]
        | signalling =>
          refine iff_of_false ?_ (fun ⟨_, he, _⟩ => Decimal.noConfusion he)
          simp [Rendered, hne, hparse, currency, Decimal.isNegative]

theorem currency_nan : ¬ Rendered String.toUpper (some "NaN") (some "USD") := by
  have hne : "NaN" ≠ "" := by decide
  have hparse : Decimal.parse "NaN" = some .nan := by decide +kernel
  simp [Rendered, hne, hparse, currency, Decimal.isNegative]

end TheCargo.Templating
