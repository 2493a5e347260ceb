import TheCargo.Foundation.Dict
import TheCargo.Foundation.PyString
import TheCargo.Foundation.PyValue
import TheCargo.Foundation.Unicode

namespace TheCargo.I18n

open Foundation

def defaultLang : String := "en"

def supportedLanguages : List String := ["uz", "ru", "en"]

-- The locale table of each language; a missing or unreadable file is an empty one.
abbrev Tables := String → Dict String String

inductive FormatError
  | keyError
  | indexError
  | valueError
  | attributeError
  | typeError
  deriving DecidableEq

/-- `template.format(**params)` -/
abbrev Format := String → Params → Except FormatError String

def getLanguage (unicode : Unicode) (acceptLanguage : Option String) : String :=
  let raw := acceptLanguage.getD defaultLang
  let lang := unicode.lower (strip ((split "-" ((split "," raw).headD "")).headD ""))
  if lang ∈ supportedLanguages then lang else defaultLang

variable (format : Format) (tables : Tables)

def template (key lang : String) : Option String :=
  match (tables lang).get? key with
  | some text => some text
  | none => if lang ≠ defaultLang then (tables defaultLang).get? key else none

def translate (key lang : String) (params : Params) : Except FormatError (Option String) :=
  match template tables key lang with
  | none => .ok none
  | some text =>
    if params.isEmpty then .ok (some text)
    else
      match format text params with
      | .ok filled => .ok (some filled)
      | .error .keyError => .ok (some text)
      | .error .indexError => .ok (some text)
      | .error e => .error e

def Fills (key lang : String) (params : Params) : Prop :=
  ∀ text, template tables key lang = some text → params ≠ [] →
    ∀ e, format text params = .error e → e = .keyError ∨ e = .indexError

variable {format tables}

lemma fills_nil (key lang : String) : Fills format tables key lang [] := by
  intro text _ hne
  exact absurd rfl hne

lemma translate_ok_iff (key lang : String) (params : Params) :
    (∃ text, translate format tables key lang params = .ok text) ↔ Fills format tables key lang params := by
  rw [translate, Fills]
  cases template tables key lang with
  | none => simp
  | some text =>
    cases params with
    | nil => simp
    | cons p ps =>
      cases hf : format text (p :: ps) with
      | ok filled => simp [hf]
      | error e => cases e <;> simp [hf]

end TheCargo.I18n
