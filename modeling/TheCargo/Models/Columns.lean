import TheCargo.Foundation.Json

namespace TheCargo.Models

open Foundation

inductive Value
  | null
  | text (s : String)
  | boolean (b : Bool)
  deriving DecidableEq, Repr

inductive ColumnType
  | string (length : ℕ)
  | boolean

structure Column where
  type : ColumnType
  nullable : Bool

/-- What a write leaves in the column, or `none` where it is refused: by `_enforce_column_contracts` when the text is
too long, by the driver when the value is of another type, by the table when it may not be NULL. -/
def Column.store (column : Column) (value : Json) : Option Value :=
  match column.type, value with
  | _, .null => if column.nullable then some .null else none
  | .string length, .str s => if s.length ≤ length && s.toList.all (· ≠ '\x00') then some (.text s) else none
  | .boolean, .bool b => some (.boolean b)
  | .boolean, .int n => if n = 0 then some (.boolean false) else if n = 1 then some (.boolean true) else none
  | .boolean, .float q => if q = 0 then some (.boolean false) else if q = 1 then some (.boolean true) else none
  | _, _ => none

structure Columns (F : Type*) where
  fields : List F
  column : F → Column
  complete : ∀ field, field ∈ fields

abbrev Assignment (F : Type*) := F → Option Json

namespace Columns

variable {F : Type*} (columns : Columns F)

def refuses (given : Assignment F) (field : F) : Bool :=
  match given field with
  | some value => ((columns.column field).store value).isNone
  | none => false

def accepts (given : Assignment F) : Bool :=
  columns.fields.all (fun field => !columns.refuses given field)

def overlay (given : Assignment F) (values : F → Value) (field : F) : Value :=
  ((given field).bind (columns.column field).store).getD (values field)

def assign (given : Assignment F) (values : F → Value) : Except F (F → Value) :=
  match columns.fields.find? (columns.refuses given) with
  | some field => .error field
  | none => .ok (columns.overlay given values)

def agree (given given' : Assignment F) : Bool :=
  columns.fields.all (fun field => match given field, given' field with
    | some value, some value' => (columns.column field).store value = (columns.column field).store value'
    | _, _ => true)

variable {columns} {given given' : Assignment F}

lemma assign_of_accepts (h : columns.accepts given = true) (values : F → Value) :
    columns.assign given values = .ok (columns.overlay given values) := by
  have hn : columns.fields.find? (columns.refuses given) = none := by
    apply List.find?_eq_none.mpr
    intro field hf hr
    have ha := List.all_eq_true.mp h field hf
    rw [hr] at ha
    exact absurd ha (by simp)
  rw [assign, hn]

lemma assign_of_refuses (h : columns.accepts given = false) (values : F → Value) :
    ∃ field, columns.assign given values = .error field := by
  obtain ⟨field, hf, hr⟩ := List.all_eq_false.mp h
  have hs : (columns.fields.find? (columns.refuses given)).isSome := by
    apply List.find?_isSome.mpr
    exact ⟨field, hf, by simpa using hr⟩
  obtain ⟨field', hf'⟩ := Option.isSome_iff_exists.mp hs
  exact ⟨field', by rw [assign, hf']⟩

lemma overlay_comm (h : columns.agree given given' = true) (values : F → Value) :
    columns.overlay given' (columns.overlay given values) =
      columns.overlay given (columns.overlay given' values) := by
  funext field
  have hf := List.all_eq_true.mp h field (columns.complete field)
  simp only [overlay]
  cases hg : given field with
  | none => simp
  | some value =>
    cases hg' : given' field with
    | none => simp
    | some value' =>
      rw [hg, hg'] at hf
      simp only [decide_eq_true_eq] at hf
      simp only [Option.bind_some, hf]

lemma overlay_twice (given : Assignment F) (values : F → Value) :
    columns.overlay given (columns.overlay given values) = columns.overlay given values := by
  funext field
  simp only [overlay]
  cases (given field).bind (columns.column field).store <;> rfl

lemma overlay_given (h : columns.accepts given = true) {field : F} {value : Json}
    (hv : given field = some value) (values : F → Value) :
    (columns.column field).store value = some (columns.overlay given values field) := by
  have ha := List.all_eq_true.mp h field (columns.complete field)
  simp only [refuses, hv, Bool.not_eq_true', Option.isNone_eq_false_iff] at ha
  obtain ⟨stored, hs⟩ := Option.isSome_iff_exists.mp ha
  simp only [overlay, hv, Option.bind_some, hs, Option.getD_some]

lemma overlay_total (h : columns.accepts given = true) (htotal : ∀ field, (given field).isSome)
    (values values' : F → Value) : columns.overlay given values = columns.overlay given values' := by
  funext field
  obtain ⟨value, hv⟩ := Option.isSome_iff_exists.mp (htotal field)
  have hs := overlay_given h hv values
  rw [overlay_given h hv values'] at hs
  exact (Option.some.inj hs).symm

lemma overlay_other {field : F} (hv : given field = none) (values : F → Value) :
    columns.overlay given values field = values field := by
  simp only [overlay, hv, Option.bind_none, Option.getD_none]

end Columns

end TheCargo.Models
