import TheCargo.Foundation.Calendar
import TheCargo.LeadFields.ScanLabels

namespace TheCargo.LeadFields

open Foundation

/-- What stands beside the characters: `datetime.strptime(text, format).date()`, nothing where it raises
`ValueError`. -/
abbrev Strptime := String → String → Option Date

inductive Status
  | matched
  | review
  | notFound
  deriving DecidableEq

section Validators

variable (chars : Characters) (strptime : Strptime)

def dateFormats : List String :=
  ["%m/%d/%Y", "%m-%d-%Y", "%Y-%m-%d", "%m/%d/%y", "%d/%m/%Y", "%B %d, %Y", "%b %d, %Y", "%m.%d.%Y", "%Y/%m/%d",
   "%d-%m-%Y", "%m %d %Y", "%d %b %Y"]

def parseDate (dateString : String) : Option Date :=
  if dateString = "" then none else dateFormats.findSome? (strptime (strip dateString))

def digits (value : String) : List Char := value.toList.filter chars.isDecimal

def isEmail (v : String) : Bool := contains "@" v && contains "." ((split "@" v).getLastD "")

def isState (v : String) : Bool :=
  match (strip v).toList with
  | [c, d] => c.isAlpha && d.isAlpha
  | _ => false

/-- `\d{5}(?:-\d{4})?` of all of it -/
def isZip (v : String) : Bool :=
  let w := (strip v).toList
  (w.take 5).length = 5 && (w.take 5).all chars.isDecimal &&
    match w.drop 5 with
    | [] => true
    | c :: rest => c == '-' && rest.length = 4 && rest.all chars.isDecimal

def isYear (v : String) : Bool :=
  let n := (digits chars v).foldl (fun n c => 10 * n + (chars.decimal c).getD 0) 0
  (digits chars v).length = 4 && 1900 ≤ n && n ≤ 2100

def validator (key : String) : String → Bool :=
  match key with
  | "email" => isEmail
  | "phone" => fun v => 7 ≤ (digits chars v).length
  | "pickup_state" => isState
  | "delivery_state" => isState
  | "pickup_zip" => isZip chars
  | "delivery_zip" => isZip chars
  | "year" => isYear chars
  | "ship_date" => fun v => (parseDate strptime v).isSome
  | _ => fun v => strip v ≠ ""

def fieldStatus (key : String) (value : Option String) : Status :=
  let v := strip (value.getD "")
  if v = "" then .notFound else if validator chars strptime key v then .matched else .review

end Validators

def clean (s : List Char) : List Char :=
  stripBy isSpace (stripBy (fun c => c = ',' || c = ';') (stripBy isSpace s))

def slice (text : List Char) (i j : ℕ) : List Char := (text.drop i).take (j - i)

def lineEnd (text : List Char) (start : ℕ) : Option ℕ :=
  if '\n' ∈ text.drop start then some (start + (text.drop start).idxOf '\n') else none

def valueEnd (text : List Char) (valueStart nextLabel : ℕ) : ℕ :=
  match lineEnd text valueStart with
  | none => nextLabel
  | some e => min nextLabel e

def lineStart (text : List Char) (start : ℕ) : ℕ := (text.take start).length - (lineBefore (text.take start)).length

structure Reading where
  value : String
  source : String
  matchedLabel : String
  deriving DecidableEq

def readValue (text : List Char) (h : Hit) (nextLabel : ℕ) : List Char :=
  clean (slice text h.stop (valueEnd text h.stop nextLabel))

def reading (text : List Char) (h : Hit) (nextLabel : ℕ) : Reading :=
  ⟨String.ofList (readValue text h nextLabel),
    String.ofList (stripBy isSpace (slice text (lineStart text h.start) (valueEnd text h.stop nextLabel))),
    String.ofList h.norm⟩

abbrev Found := Dict String (Dict ℕ Reading)

/-- `found.setdefault(key, {}).setdefault(index, reading)` -/
def setDefault (found : Found) (key : String) (index : ℕ) (r : Reading) : Found :=
  let perIndex := (found.get? key).getD Dict.empty
  found.set key (match perIndex.get? index with
    | some _ => perIndex
    | none => perIndex.set index r)

def nextStart (text : List Char) : List Hit → ℕ
  | [] => text.length
  | h :: _ => h.start

def readKept (text : List Char) : List Hit → Found → Found
  | [], found => found
  | h :: rest, found =>
    if readValue text h (nextStart text rest) = [] then readKept text rest found
    else readKept text rest (setDefault found h.key h.index (reading text h (nextStart text rest)))

structure FieldEntry where
  key : String
  section_ : Section
  label : String
  itemName : String
  value : Option String
  source : Option String
  matchedLabel : Option String
  status : Status
  hint : String
  deriving DecidableEq

def emit (chars : Characters) (strptime : Strptime) (found : Found) (spec : FieldSpec) (index : ℕ) : FieldEntry :=
  match ((found.get? spec.key).getD Dict.empty).get? index with
  | some r =>
    let status := fieldStatus chars strptime spec.key (some r.value)
    ⟨spec.key, spec.section_, spec.label, spec.itemName, some r.value, some r.source, some r.matchedLabel, status,
      if status = .matched then "matched from \"" ++ r.source ++ "\""
      else "low confidence — matched \"" ++ r.value ++ "\""⟩
  | none =>
    ⟨spec.key, spec.section_, spec.label, spec.itemName, none, none, none, .notFound, "no match found in email"⟩

/-- `min(found[key])`, and 0 where nothing is found. -/
def firstIndex (found : Found) (key : String) : ℕ :=
  ((((found.get? key).getD Dict.empty).items.map Prod.fst).min?).getD 0

structure Summary where
  matched : ℕ
  review : ℕ
  notFound : ℕ
  vehiclesDetected : ℕ
  deriving DecidableEq

structure EmailFields where
  fields : List FieldEntry
  vehicles : List (List FieldEntry)
  summary : Summary

def vehicleSpecs : List FieldSpec := leadFieldCatalog.filter (fun spec => spec.section_ = .vehicle)

def vehicleSlots (kept : List Hit) : List ℕ :=
  (((kept.filter (fun h => h.key ∈ vehicleSpecs.map FieldSpec.key)).map Hit.index).dedup).insertionSort (· ≤ ·)

def countStatus (fields : List FieldEntry) (status : Status) : ℕ := fields.countP (fun f => f.status = status)

def fieldsOf (chars : Characters) (strptime : Strptime) (text : List Char) (kept : List Hit) : EmailFields :=
  let found := readKept text kept Dict.empty
  let fields := leadFieldCatalog.map (fun spec => emit chars strptime found spec (firstIndex found spec.key))
  let vehicles := (vehicleSlots kept).map (fun index =>
    vehicleSpecs.map (fun spec => emit chars strptime found spec index))
  ⟨fields, vehicles, countStatus fields .matched, countStatus fields .review, countStatus fields .notFound,
    vehicles.length⟩

def keptLabels (chars : Characters) (text : Option String) (parsingValues : List ParsingValue) : Option (List Hit) :=
  let custom := customLabelsByField chars parsingValues
  scanLabels chars (text.getD "").toList (labelsByKey custom) custom.indexByLabel

def parseEmailFields (chars : Characters) (strptime : Strptime) (text : Option String)
    (parsingValues : List ParsingValue) : Option EmailFields :=
  (keptLabels chars text parsingValues).map (fieldsOf chars strptime (text.getD "").toList)

end TheCargo.LeadFields
