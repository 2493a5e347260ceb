import TheCargo.Foundation.Casing
import TheCargo.Utils.Phone

namespace TheCargo.Db.Types

open Utils.Phone

/-- `USPhoneType.process_bind_param` on the `str | None` its columns are declared with. Values with a `LIKE`
wildcard and values that are no phone number are stored as they come. -/
def USPhoneType.processBindParam (phonenumbers : PhoneNumbers) (value : Option String) : Option String :=
  match value with
  | none => none
  | some value =>
    if '%' ∈ value.toList ∨ '_' ∈ value.toList then some value
    else
      match normalizeUsPhone phonenumbers (some value) with
      | .ok normalized => normalized
      | .error _ => some value

def USPhoneType.length : ℕ := 50

def EmailType.processBindParam (chars : Foundation.Characters) (value : String) : Option String :=
  let normalized := chars.lowerString (Foundation.strip value)
  if normalized = "" then none else some normalized

def EmailType.length : ℕ := 255

end TheCargo.Db.Types
