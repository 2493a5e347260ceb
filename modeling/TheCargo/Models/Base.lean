import Mathlib.Algebra.Group.Int.Defs
import Mathlib.Data.Int.Order.Basic
import TheCargo.Foundation.Json
import TheCargo.Foundation.PyString

namespace TheCargo.Models

open Foundation

abbrev UUID := BitVec 128

/-- Microseconds since the epoch; timezone-aware datetimes compare as instants. -/
abbrev Instant := ℤ

-- The computable order, whatever else is imported.
instance : Preorder Instant := Int.instLinearOrder.toPartialOrder.toPreorder

def UUID.str (id : UUID) : String :=
  let hex := id.toHex.toList
  String.ofList (hex.take 8 ++ '-' :: (hex.drop 8).take 4 ++ '-' :: (hex.drop 12).take 4 ++
    '-' :: (hex.drop 16).take 4 ++ '-' :: hex.drop 20)

def UUID.parse (s : String) : Option UUID :=
  let bare := without "uuid:".toList 0 (without "urn:".toList 0 s.toList)
  let brace (c : Char) : Bool := c = '{' || c = '}'
  let hex := (((bare.dropWhile brace).reverse.dropWhile brace).reverse).filter (· ≠ '-')
  if hex.length = 32 then
    (hexInt (String.ofList hex)).bind (fun n => if 0 ≤ n ∧ n < 2 ^ 128 then some (BitVec.ofInt 128 n) else none)
  else none

/-- `UUID(str(value))`: neither `None` nor a list, an object or a float reads as 32 hex digits. -/
def UUID.ofJson : Json → Option UUID
  | .str s => UUID.parse s
  | .int n => UUID.parse (toString n)
  | _ => none

end TheCargo.Models
