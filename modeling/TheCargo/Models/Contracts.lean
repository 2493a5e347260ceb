import TheCargo.Db.Types
import TheCargo.Foundation.Fallible

namespace TheCargo.Models.Contracts

open Foundation Utils.Phone Db.Types

/-- What an attribute holds, or a statement binds. Of a datetime only whether it has a timezone matters. -/
inductive Val
  | none
  | str (s : String)
  | datetime (aware : Bool)
  | other
  deriving DecidableEq

inductive PlainType
  | string (length : Option ℕ)
  | dateTime (timezone : Bool)
  | other
  deriving DecidableEq

/-- A `TypeDecorator` is no instance of its `impl`. -/
inductive ColumnType
  | plain (type : PlainType)
  | decorated (impl : PlainType) (processBindParam : Val → Val)

namespace ColumnType

def impl : ColumnType → PlainType
  | plain type => type
  | decorated impl _ => impl

def bind : ColumnType → Val → Val
  | plain _, value => value
  | decorated _ processBindParam, value => processBindParam value

def isPlain : ColumnType → Bool
  | plain _ => true
  | decorated _ _ => false

end ColumnType

def ofText (f : String → Option String) : Val → Val
  | .str s => (f s).elim .none .str
  | value => value

def usPhoneType (phonenumbers : PhoneNumbers) : ColumnType :=
  .decorated (.string (some USPhoneType.length)) (ofText fun s => USPhoneType.processBindParam phonenumbers (some s))

def emailType (chars : Characters) : ColumnType :=
  .decorated (.string (some EmailType.length)) (ofText (EmailType.processBindParam chars))

/-- `default` and `onupdate` are what the column gives of itself at this flush, in Python; `evaluatesNone` is its
type's `should_evaluate_none`. -/
structure MappedColumn where
  table : String
  key : String
  attr : String
  type : ColumnType
  default : Option Val
  onupdate : Option Val
  primaryKey : Bool
  serverDefault : Bool
  evaluatesNone : Bool

structure Mapper where
  tablename : String
  columns : List MappedColumn

inductive Attribute
  | unloaded
  | loaded (value : Val)
  | unmapped (value : Val)

-- `changed` where an attribute has a committed value that is not equal to the one it holds.
structure Target where
  attr : String → Attribute
  changed : String → Bool

inductive ContractError
  | fieldTooLong (table column : String) (maxLength actualLength : ℕ)
  | naiveDatetime (table column : String)
  deriving DecidableEq

def ContractError.message : ContractError → String
  | fieldTooLong table column maxLength actualLength =>
    table ++ "." ++ column ++ " exceeds " ++ toString maxLength ++ " characters (got " ++ toString actualLength ++ ")"
  | naiveDatetime table column =>
    table ++ "." ++ column ++ " was given a naive datetime; every stored instant must carry a timezone"

/-- `getattr(target, key, None)`, where `key` is not in `unloaded` -/
def Target.checked (target : Target) (key : String) : Option Val :=
  match target.attr key with
  | .unloaded => none
  | .loaded value => some value
  | .unmapped value => some value

def checkValue (table key : String) : ColumnType → Val → Except ContractError Unit
  | .plain (.string (some maxLength)), .str s =>
    if maxLength < s.length then .error (.fieldTooLong table key maxLength s.length) else .ok ()
  | .plain (.dateTime true), .datetime false => .error (.naiveDatetime table key)
  | _, _ => .ok ()

def checkColumn (table : String) (target : Target) (col : MappedColumn) : Except ContractError Unit :=
  match target.checked col.key with
  | none => .ok ()
  | some value => checkValue table col.key col.type value

def checkColumns (table : String) (target : Target) : List MappedColumn → Except ContractError Unit
  | [] => .ok ()
  | col :: cols => do
    checkColumn table target col
    checkColumns table target cols

def enforceColumnContracts (mapper : Mapper) (target : Target) : Except ContractError Unit :=
  checkColumns mapper.tablename target mapper.columns

inductive Kind
  | insert
  | update
  deriving DecidableEq

structure Write where
  kind : Kind
  mapper : Mapper
  target : Target

namespace Write

/-- What the statement takes from the object: an INSERT leaves out `None`, an UPDATE what has no net change. -/
def ofAttribute (w : Write) (col : MappedColumn) : Option Val :=
  match w.target.attr col.attr with
  | .loaded value =>
    match w.kind with
    | .insert => if value = .none ∧ col.evaluatesNone = false then none else some value
    | .update => if w.target.changed col.attr then some value else none
  | _ => none

-- A table without a net change gets no UPDATE.
def touches (w : Write) (table : String) : Bool :=
  w.mapper.columns.any (fun col => col.table = table && (w.ofAttribute col).isSome)

/-- What the statement binds to the other columns. An INSERT binds `None` where nothing else gives a value. -/
def ofColumn (w : Write) (col : MappedColumn) : Option Val :=
  match w.kind with
  | .insert =>
    match col.default with
    | some value => some value
    | none => if col.primaryKey || col.serverDefault || col.evaluatesNone then none else some .none
  | .update => if w.touches col.table then col.onupdate else none

def sent (w : Write) (col : MappedColumn) : Option Val := (w.ofAttribute col).or (w.ofColumn col)

end Write

structure Sent where
  column : MappedColumn
  value : Val

def statement (w : Write) : List Sent :=
  w.mapper.columns.filterMap (fun col => (w.sent col).map (fun value => ⟨col, col.type.bind value⟩))

def flush : List Write → Except ContractError (List Sent)
  | [] => .ok []
  | w :: ws => do
    enforceColumnContracts w.mapper w.target
    let later ← flush ws
    return statement w ++ later

def PlainType.Takes : PlainType → Val → Prop
  | .string (some maxLength), .str s => s.length ≤ maxLength
  | .dateTime true, .datetime aware => aware = true
  | _, _ => True

def ContractsHold (ws : List Write) : Prop :=
  match flush ws with
  | .error _ => True
  | .ok sent => ∀ s ∈ sent, s.column.type.impl.Takes s.value

def Write.Sees (w : Write) (col : MappedColumn) : Prop :=
  col.type.isPlain = true ∧ col.key = col.attr ∧ (w.ofAttribute col).isSome

def Write.Refused (w : Write) : Prop :=
  ∃ col ∈ w.mapper.columns, ∃ type value, col.type = .plain type ∧ w.target.checked col.key = some value ∧
    ¬ type.Takes value

variable {w : Write} {ws : List Write} {col : MappedColumn} {cols : List MappedColumn} {target : Target}
  {table key : String} {type : ColumnType} {plain : PlainType} {value : Val}

lemma checkValue_plain : checkValue table key (.plain plain) value = .ok () ↔ plain.Takes value := by
  cases plain with
  | other => exact iff_of_true rfl trivial
  | string length =>
    cases length with
    | none => exact iff_of_true rfl trivial
    | some maxLength =>
      cases value with
      | str s =>
        rw [checkValue, PlainType.Takes]
        split
        · rename_i h
          exact iff_of_false (fun hok => nomatch hok) (Nat.not_le_of_lt h)
        · rename_i h
          exact iff_of_true rfl (Nat.le_of_not_lt h)
      | _ => exact iff_of_true rfl trivial
  | dateTime timezone =>
    cases timezone with
    | false => exact iff_of_true rfl trivial
    | true =>
      cases value with
      | datetime aware =>
        cases aware with
        | false => exact iff_of_false (fun hok => nomatch hok) Bool.false_ne_true
        | true => exact iff_of_true rfl rfl
      | _ => exact iff_of_true rfl trivial

lemma checkColumn_ok : checkColumn table target col = .ok () ↔
    ∀ plain value, col.type = .plain plain → target.checked col.key = some value → plain.Takes value := by
  rw [checkColumn]
  cases target.checked col.key with
  | none => simp
  | some value =>
    cases htype : col.type with
    | plain plain => simp [checkValue_plain]
    | decorated impl processBindParam => simp [checkValue]

lemma checkColumns_ok : checkColumns table target cols = .ok () ↔
    ∀ col ∈ cols, checkColumn table target col = .ok () := by
  induction cols with
  | nil => exact iff_of_true rfl (fun col h => absurd h List.not_mem_nil)
  | cons col cols ih =>
    rw [checkColumns, bind_ok_iff, List.forall_mem_cons, ← ih]
    exact ⟨fun ⟨_, hcol, hcols⟩ => ⟨hcol, hcols⟩, fun ⟨hcol, hcols⟩ => ⟨(), hcol, hcols⟩⟩

lemma enforce_ok : enforceColumnContracts w.mapper w.target = .ok () ↔ ¬ w.Refused := by
  rw [enforceColumnContracts, checkColumns_ok]
  simp only [checkColumn_ok]
  constructor
  · rintro h ⟨col, hcol, plain, value, htype, hvalue, hnot⟩
    exact hnot (h col hcol plain value htype hvalue)
  · intro h col hcol plain value htype hvalue
    by_contra hnot
    exact h ⟨col, hcol, plain, value, htype, hvalue, hnot⟩

lemma flush_ok {sent : List Sent} :
    flush ws = .ok sent ↔ (∀ w ∈ ws, ¬ w.Refused) ∧ sent = ws.flatMap statement := by
  induction ws generalizing sent with
  | nil => simp [flush, eq_comm]
  | cons w ws ih =>
    rw [flush, bind_ok_iff, List.forall_mem_cons, List.flatMap_cons]
    constructor
    · rintro ⟨_, hcheck, hrest⟩
      obtain ⟨later, hlater, hsent⟩ := bind_ok_iff.mp hrest
      obtain ⟨hws, rfl⟩ := ih.mp hlater
      exact ⟨⟨enforce_ok.mp hcheck, hws⟩, (Except.ok.inj hsent).symm⟩
    · rintro ⟨⟨hw, hws⟩, rfl⟩
      exact ⟨(), enforce_ok.mpr hw, bind_ok_iff.mpr ⟨_, ih.mpr ⟨hws, rfl⟩, rfl⟩⟩

lemma mem_statement {s : Sent} : s ∈ statement w ↔
    ∃ col ∈ w.mapper.columns, ∃ value, w.sent col = some value ∧ s = ⟨col, col.type.bind value⟩ := by
  rw [statement, List.mem_filterMap]
  refine exists_congr fun col => and_congr_right fun _ => ?_
  rw [Option.map_eq_some_iff]
  exact exists_congr fun value => and_congr_right fun _ => eq_comm

lemma loaded_of_ofAttribute (h : w.ofAttribute col = some value) : w.target.attr col.attr = .loaded value := by
  rw [Write.ofAttribute] at h
  cases hattr : w.target.attr col.attr with
  | unloaded => simp [hattr] at h
  | unmapped held => simp [hattr] at h
  | loaded held =>
    rw [hattr] at h
    cases hkind : w.kind with
    | insert =>
      simp only [hkind] at h
      split at h
      · cases h
      · rw [Option.some.inj h]
    | update =>
      simp only [hkind] at h
      split at h
      · rw [Option.some.inj h]
      · cases h

lemma takes_of_sees (hw : ¬ w.Refused) (hcol : col ∈ w.mapper.columns) (hsees : w.Sees col)
    (hsent : w.sent col = some value) : col.type.impl.Takes (col.type.bind value) := by
  obtain ⟨hplain, hkey, hattr⟩ := hsees
  obtain ⟨read, hread⟩ := Option.isSome_iff_exists.mp hattr
  rw [Write.sent, hread, Option.some_or] at hsent
  obtain rfl := Option.some.inj hsent
  have hchecked : w.target.checked col.key = some read := by
    rw [Target.checked, hkey, loaded_of_ofAttribute hread]
  cases htype : col.type with
  | decorated impl processBindParam =>
    rw [htype] at hplain
    cases hplain
  | plain plain =>
    by_contra hnot
    exact hw ⟨col, hcol, plain, read, htype, hchecked, hnot⟩

theorem contractsHold_iff (ws : List Write) :
    ContractsHold ws ↔ (∃ w ∈ ws, w.Refused) ∨
      ∀ w ∈ ws, ∀ col ∈ w.mapper.columns, ∀ value, w.sent col = some value → ¬ w.Sees col →
        col.type.impl.Takes (col.type.bind value) := by
  rw [ContractsHold]
  cases hflush : flush ws with
  | error e =>
    refine iff_of_true trivial (.inl ?_)
    by_contra hnone
    have hok := flush_ok.mpr ⟨fun w hw hrefused => hnone ⟨w, hw, hrefused⟩, rfl⟩
    rw [hflush] at hok
    cases hok
  | ok sent =>
    obtain ⟨hws, rfl⟩ := flush_ok.mp hflush
    constructor
    · intro h
      refine .inr fun w hw col hcol value hsent _ => ?_
      exact h _ (List.mem_flatMap.mpr ⟨w, hw, mem_statement.mpr ⟨col, hcol, value, hsent, rfl⟩⟩)
    · rintro (⟨w, hw, hrefused⟩ | h)
      · exact absurd hrefused (hws w hw)
      · intro s hs
        obtain ⟨w, hw, hmem⟩ := List.mem_flatMap.mp hs
        obtain ⟨col, hcol, value, hsent, rfl⟩ := mem_statement.mp hmem
        by_cases hsees : w.Sees col
        · exact takes_of_sees (hws w hw) hcol hsees hsent
        · exact h w hw col hcol value hsent hsees

def unreadNumbers : PhoneNumbers := ⟨Unit, fun _ _ => .error "", fun _ => false, fun _ _ => ""⟩

def phoneColumn : MappedColumn where
  table := "contacts"
  key := "phone"
  attr := "phone"
  type := usPhoneType unreadNumbers
  default := none
  onupdate := none
  primaryKey := false
  serverDefault := false
  evaluatesNone := false

def phoneInsert (s : String) : Write where
  kind := .insert
  mapper := ⟨"contacts", [phoneColumn]⟩
  target := ⟨fun _ => .loaded (.str s), fun _ => true⟩

def wildcards : String := String.ofList (List.replicate 51 '%')

lemma flush_wildcards : flush [phoneInsert wildcards] = .ok [⟨phoneColumn, .str wildcards⟩] := by
  rfl

theorem a_decorated_column_is_not_checked : ¬ ∀ ws, ContractsHold ws := by
  intro h
  have hholds := h [phoneInsert wildcards]
  rw [ContractsHold, flush_wildcards] at hholds
  have htakes : (51 : ℕ) ≤ 50 := hholds _ List.mem_cons_self
  omega

end TheCargo.Models.Contracts
