import Mathlib.Algebra.Group.Int.Defs
import Mathlib.Algebra.Group.Nat.Defs
import Mathlib.Data.Nat.Log
import Mathlib.Data.Rat.Defs
import TheCargo.Foundation.PyString

namespace TheCargo.Foundation

inductive Decimal
  | finite (q : ℚ)
  | infinity (negative : Bool)
  | nan
  | signalling
  deriving DecidableEq

namespace Decimal

/-- The zeros among the decimal digits of Unicode 15; the nine characters after each are the digits up to 9. -/
def zeros : List ℕ :=
  [0x30, 0x660, 0x6F0, 0x7C0, 0x966, 0x9E6, 0xA66, 0xAE6, 0xB66, 0xBE6, 0xC66, 0xCE6, 0xD66, 0xDE6, 0xE50, 0xED0,
    0xF20, 0x1040, 0x1090, 0x17E0, 0x1810, 0x1946, 0x19D0, 0x1A80, 0x1A90, 0x1B50, 0x1BB0, 0x1C40, 0x1C50, 0xA620,
    0xA8D0, 0xA900, 0xA9D0, 0xA9F0, 0xAA50, 0xABF0, 0xFF10, 0x104A0, 0x10D30, 0x11066, 0x110F0, 0x11136, 0x111D0,
    0x112F0, 0x11450, 0x114D0, 0x11650, 0x116C0, 0x11730, 0x118E0, 0x11950, 0x11C50, 0x11D50, 0x11DA0, 0x11F50,
    0x16A60, 0x16AC0, 0x16B50, 0x1D7CE, 0x1D7D8, 0x1D7E2, 0x1D7EC, 0x1D7F6, 0x1E140, 0x1E2F0, 0x1E4F0, 0x1E950,
    0x1FBF0]

def digit (c : Char) : Option ℕ :=
  (zeros.find? (fun z => z ≤ c.toNat && c.toNat < z + 10)).map (fun z => c.toNat - z)

def natOf (cs : List Char) : Option ℕ :=
  cs.foldl (fun n c => n.bind (fun n => (digit c).map (fun d => 10 * n + d))) (some 0)

def signed (cs : List Char) : Bool × List Char :=
  match cs with
  | '-' :: cs => (true, cs)
  | '+' :: cs => (false, cs)
  | cs => (false, cs)

def withSign (negative : Bool) (q : ℚ) : ℚ := if negative then -q else q

def exponent (cs : List Char) : Option ℤ :=
  match cs with
  | [] => some 0
  | _ :: cs =>
    let (negative, digits) := signed cs
    if digits.isEmpty then none else (natOf digits).map (fun n => if negative then -(n : ℤ) else n)

def scale (n : ℕ) (e : ℤ) : ℚ := if 0 ≤ e then mkRat (n * 10 ^ e.toNat) 1 else mkRat n (10 ^ (-e).toNat)

def maxEmax : ℤ := 999999999999999999

def minEtiny : ℤ := -1999999999999999997

/-- The constructor raises where `n * 10 ^ e` does not fit the exponents of the widest context. -/
def fits (n : ℕ) (e : ℤ) : Bool := minEtiny ≤ e && e + Nat.log 10 n ≤ maxEmax

def number (cs : List Char) : Option ℚ :=
  let mantissa := cs.takeWhile (· ≠ 'e')
  let whole := mantissa.takeWhile (· ≠ '.')
  let fraction := (mantissa.dropWhile (· ≠ '.')).tail
  if whole.isEmpty && fraction.isEmpty then none
  else
    (natOf (whole ++ fraction)).bind (fun n =>
      (exponent (cs.dropWhile (· ≠ 'e'))).bind (fun e =>
        if fits n (e - fraction.length) then some (scale n (e - fraction.length)) else none))

/-- `Decimal(s)`; nothing where it raises `InvalidOperation`. -/
def parse (s : String) : Option Decimal :=
  let (negative, cs) := signed (((strip s).toList.filter (· ≠ '_')).map Char.toLower)
  let text := String.ofList cs
  if text = "inf" ∨ text = "infinity" then some (.infinity negative)
  else if cs.take 3 = ['n', 'a', 'n'] then (natOf (cs.drop 3)).map (fun _ => .nan)
  else if cs.take 4 = ['s', 'n', 'a', 'n'] then (natOf (cs.drop 4)).map (fun _ => .signalling)
  else (number cs).map (fun q => .finite (withSign negative q))

/-- `a == b`; nothing where it raises. -/
def eq : Decimal → Decimal → Option Bool
  | .signalling, _ => none
  | _, .signalling => none
  | .finite p, .finite q => some (p = q)
  | .infinity a, .infinity b => some (a = b)
  | _, _ => some false

end Decimal

end TheCargo.Foundation
