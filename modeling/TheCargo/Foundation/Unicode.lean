import Mathlib.Data.Nat.Notation

namespace TheCargo.Foundation

-- `fold` picks one of the characters that `re.IGNORECASE` does not tell apart. Beyond ASCII nothing is said.
structure Unicode where
  isAlnum : Char → Bool
  fold : Char → Char
  lower : String → String
  isAlnum_ascii : ∀ c : Char, c.toNat < 128 → isAlnum c = c.isAlphanum
  fold_ascii : ∀ c : Char, c.toNat < 128 → fold c = c.toLower

def Unicode.isWord (unicode : Unicode) (c : Char) : Bool := unicode.isAlnum c || c == '_'

def Unicode.ascii : Unicode where
  isAlnum := Char.isAlphanum
  fold := Char.toLower
  lower := String.map Char.toLower
  isAlnum_ascii _ _ := rfl
  fold_ascii _ _ := rfl

end TheCargo.Foundation
