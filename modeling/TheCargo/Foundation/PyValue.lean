import Mathlib.Data.Rat.Defs
import Mathlib.Tactic.Common

namespace TheCargo.Foundation

-- `other` is an object of a class that `json` does not know: a `Decimal`, a `date`, an exception.
inductive PyValue
  | none
  | bool (b : Bool)
  | int (n : ℤ)
  | float (q : ℚ)
  | notFinite
  | str (s : String)
  | list (items : List PyValue)
  | dict (items : List (PyValue × PyValue))
  | other (truth : Bool)

abbrev Params := List (PyValue × PyValue)

namespace PyValue

def truthy : PyValue → Bool
  | .none => false
  | .bool b => b
  | .int n => n ≠ 0
  | .float q => q ≠ 0
  | .notFinite => true
  | .str s => s ≠ ""
  | .list items => !items.isEmpty
  | .dict items => !items.isEmpty
  | .other truth => truth

def isKey : PyValue → Bool
  | .none => true
  | .bool _ => true
  | .int _ => true
  | .float _ => true
  | .str _ => true
  | _ => false

mutual

def encodable : PyValue → Bool
  | .list items => allEncodable items
  | .dict items => itemsEncodable items
  | .notFinite => false
  | .other _ => false
  | _ => true

def allEncodable : List PyValue → Bool
  | [] => true
  | v :: vs => v.encodable && allEncodable vs

def itemsEncodable : List (PyValue × PyValue) → Bool
  | [] => true
  | (k, v) :: items => k.isKey && v.encodable && itemsEncodable items

end

@[simp] lemma encodable_str (s : String) : (str s).encodable = true := by simp [encodable]

lemma encodable_list {items : List PyValue} : (list items).encodable = true ↔ ∀ v ∈ items, v.encodable = true := by
  rw [encodable]
  induction items with
  | nil => simp [allEncodable]
  | cons v vs ih => simp [allEncodable, ih]

lemma encodable_dict {items : Params} :
    (dict items).encodable = true ↔ ∀ p ∈ items, p.1.isKey = true ∧ p.2.encodable = true := by
  rw [encodable]
  induction items with
  | nil => simp [itemsEncodable]
  | cons p ps ih =>
    obtain ⟨k, v⟩ := p
    simp only [itemsEncodable, Bool.and_eq_true, ih, List.forall_mem_cons]

lemma encodable_dict_nil : (dict []).encodable = true := encodable_dict.mpr (List.forall_mem_nil _)

lemma encodable_dict_cons {name : String} {v : PyValue} {items : Params} :
    (dict ((str name, v) :: items)).encodable = true ↔ v.encodable = true ∧ (dict items).encodable = true := by
  rw [encodable_dict, encodable_dict, List.forall_mem_cons, isKey]
  simp only [true_and]

end PyValue

def Params.get (d : Params) (name : String) : PyValue :=
  match d with
  | [] => .none
  | (.str s, v) :: items => if s = name then v else Params.get items name
  | _ :: items => Params.get items name

end TheCargo.Foundation
