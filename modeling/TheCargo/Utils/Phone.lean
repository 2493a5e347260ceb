import TheCargo.Foundation.PyString

namespace TheCargo.Utils.Phone

open Foundation

inductive PhoneNumberFormat
  | e164
  | national
  deriving DecidableEq, Repr

/-- The `phonenumbers` package: `parse value region` answers the text of a `NumberParseException` or a number. -/
structure PhoneNumbers where
  PhoneNumber : Type
  parse : String → String → Except String PhoneNumber
  isValidNumber : PhoneNumber → Bool
  formatNumber : PhoneNumber → PhoneNumberFormat → String

structure InvalidPhoneError where
  message : String
  deriving DecidableEq, Repr

variable (phonenumbers : PhoneNumbers)

def normalizeUsPhone (value : Option String) : Except InvalidPhoneError (Option String) :=
  match value with
  | none => .ok none
  | some value =>
    let stripped := strip value
    if stripped = "" then .ok none
    else
      match phonenumbers.parse stripped "US" with
      | .error exc => .error ⟨"Invalid phone: " ++ exc⟩
      | .ok num =>
        if phonenumbers.isValidNumber num then .ok (some (phonenumbers.formatNumber num .e164))
        else .error ⟨"Invalid US phone number"⟩

def normalizePhone (value : Option String) : Option String :=
  match normalizeUsPhone phonenumbers value with
  | .ok normalized => normalized
  | .error _ => none

def Idempotent : Prop :=
  ∀ value p, normalizeUsPhone phonenumbers value = .ok (some p) →
    normalizeUsPhone phonenumbers (some p) = .ok (some p)

lemma strip_empty : strip "" = "" := by decide

lemma normalizePhone_empty : normalizePhone phonenumbers (some "") = none := by
  simp [normalizePhone, normalizeUsPhone, strip_empty]

variable {phonenumbers}

lemma normalizePhone_eq_some {value : Option String} {p : String} :
    normalizePhone phonenumbers value = some p ↔
      normalizeUsPhone phonenumbers value = .ok (some p) := by
  rw [normalizePhone]
  cases normalizeUsPhone phonenumbers value <;> simp

lemma Idempotent.normalizePhone_fixed (hi : Idempotent phonenumbers) {value : Option String} {p : String}
    (h : normalizePhone phonenumbers value = some p) : normalizePhone phonenumbers (some p) = some p :=
  normalizePhone_eq_some.mpr (hi value p (normalizePhone_eq_some.mp h))

lemma Idempotent.ne_empty (hi : Idempotent phonenumbers) {value : Option String} {p : String}
    (h : normalizePhone phonenumbers value = some p) : p ≠ "" := by
  rintro rfl
  have hf := hi.normalizePhone_fixed h
  rw [normalizePhone_empty] at hf
  cases hf

lemma Idempotent.orElse_fixed (hi : Idempotent phonenumbers) (n : String) :
    orElse (normalizePhone phonenumbers (some (orElse (normalizePhone phonenumbers (some n)) n)))
        (orElse (normalizePhone phonenumbers (some n)) n) =
      orElse (normalizePhone phonenumbers (some n)) n := by
  cases hn : normalizePhone phonenumbers (some n) with
  | none => simp [hn]
  | some p =>
    have hne := hi.ne_empty hn
    rw [orElse_some hne, hi.normalizePhone_fixed hn, orElse_some hne]

end TheCargo.Utils.Phone
