import Mathlib.Data.Prod.Lex
import TheCargo.Foundation.Casing
import TheCargo.Foundation.Find
import TheCargo.Foundation.Grouping
import TheCargo.Foundation.Pattern
import TheCargo.Foundation.Selection
import TheCargo.LeadFields.Catalog

/-! Where the labels of the fields stand in a text. Nothing is returned where `int` raises `ValueError`. -/

namespace TheCargo.LeadFields

open Foundation

variable (chars : Characters)

structure ParsingValue where
  itemName : String
  value : Option String
  vehicleIndex : Option ℤ

structure CustomLabels where
  grouped : Dict String (List String)
  indexByLabel : Dict (String × String) ℤ

def customStep (custom : CustomLabels) (pv : ParsingValue) : CustomLabels :=
  match (itemToField pv.itemName).or (legacyItemAliases.lookup pv.itemName) with
  | none => custom
  | some fieldKey =>
    let value := chars.lowerString (strip (pv.value.getD ""))
    if value = "" then custom
    else
      ⟨custom.grouped.append fieldKey value,
        match pv.vehicleIndex with
        | some index => if index = 0 then custom.indexByLabel else custom.indexByLabel.set (fieldKey, value) index
        | none => custom.indexByLabel⟩

def customLabelsByField (parsingValues : List ParsingValue) : CustomLabels :=
  parsingValues.foldl (customStep chars) ⟨Dict.empty, Dict.empty⟩

def labelsByKey (custom : CustomLabels) : List (String × List String) :=
  leadFieldCatalog.map (fun spec => (spec.key,
    match custom.grouped.get? spec.key with
    | some (label :: labels) => label :: labels
    | _ => defaultLabels spec.key))

def rstripColon (s : List Char) : List Char := (s.reverse.dropWhile (fun c => c = ':')).reverse

def normLabel (label : String) : List Char :=
  chars.lower (stripBy isSpace (rstripColon (stripBy isSpace label.toList)))

/-- `\s*(\d*)\s*:` at the head of a text, where no character is of two of the kinds. -/
def labelTail (s : List Char) : Option (List Char × ℕ) :=
  let rest := s.dropWhile isSpace
  let number := rest.takeWhile chars.isDecimal
  match (rest.dropWhile chars.isDecimal).dropWhile isSpace with
  | ':' :: after => some (number, s.length - after.length)
  | _ => none

def labelMatch (norm s : List Char) : Option (List Char × ℕ) :=
  if norm <+: s then
    (labelTail chars (s.drop norm.length)).map (fun e => (e.1, norm.length + e.2))
  else none

/-- `int(number)` of decimal digits, of which it takes 4300. -/
def parseInt (number : List Char) : Option ℕ :=
  if 4300 < number.length then none
  else some (number.foldl (fun n c => 10 * n + (chars.decimal c).getD 0) 0)

/-- `\b(?:vehicle|unit)\s*#?\s*(\d+)\b` -/
def vehiclePrefix : Pattern Char (List Char) := do
  Pattern.notBehind chars.isWord
  Pattern.alt (Pattern.exactly "vehicle".toList) (Pattern.exactly "unit".toList)
  Pattern.many isSpace
  let _ ← Pattern.opt (Pattern.exactly ['#'])
  Pattern.many isSpace
  let number ← Pattern.group (do Pattern.one chars.isDecimal; Pattern.many chars.isDecimal)
  Pattern.notAhead chars.isWord
  return number

def search {β : Type} (m : Pattern Char β) : Option Char → List Char → Option β
  | before, [] => (m before []).head?.map Prod.fst
  | before, c :: s =>
    match m before (c :: s) with
    | e :: _ => some e.1
    | [] => search m (some c) s

def lineBefore (s : List Char) : List Char := (s.reverse.takeWhile (fun c => c ≠ '\n')).reverse

structure Hit where
  start : ℕ
  stop : ℕ
  key : String
  index : ℕ
  norm : List Char
  deriving DecidableEq

def Hit.order (h : Hit) : ℕ ×ₗ ℕᵒᵈ := toLex (h.start, OrderDual.toDual h.norm.length)

def hitIndex (indexByLabel : Dict (String × String) ℤ) (lowered : List Char) (key : String) (norm : List Char)
    (start : ℕ) (number : List Char) : Option ℕ :=
  if number ≠ [] then (parseInt chars number).map (· - 1)
  else
    match search (vehiclePrefix chars) none (lineBefore (lowered.take start)) with
    | some number => (parseInt chars number).map (· - 1)
    | none => some (((indexByLabel.get? (key, String.ofList norm)).getD 0 - 1).toNat)

def labelHits (indexByLabel : Dict (String × String) ℤ) (lowered : List Char) (key : String) (norm : List Char) :
    Option (List Hit) :=
  if norm = [] then some []
  else (findAll (labelMatch chars norm) 0 0 lowered).mapM (fun e =>
    (hitIndex chars indexByLabel lowered key norm e.1 e.2.2).map (fun index => ⟨e.1, e.2.1, key, index, norm⟩))

def allHits (indexByLabel : Dict (String × String) ℤ) (lowered : List Char) (labels : List (String × List String)) :
    Option (List Hit) :=
  ((labels.flatMap (fun e => e.2.map (fun label => (e.1, normLabel chars label)))).mapM (fun e =>
    labelHits chars indexByLabel lowered e.1 e.2)).map List.flatten

def scanLabels (text : List Char) (labels : List (String × List String))
    (indexByLabel : Dict (String × String) ℤ) : Option (List Hit) :=
  (allHits chars indexByLabel (chars.lower text) labels).map (fun hits =>
    keep Hit.start Hit.stop 0 (sortedBy Hit.order hits))

end TheCargo.LeadFields
