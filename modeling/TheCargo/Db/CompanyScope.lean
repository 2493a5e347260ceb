import TheCargo.Foundation.Dict
import TheCargo.Models.Base

/-! The rows of one mapped class, the session that flushes and selects them, and the company both are kept inside. -/

namespace TheCargo.Db.CompanyScope

open Foundation Models

/-- `UUID | None | ANY_COMPANY` -/
inductive CompanyRef
  | any
  | of (company : Option UUID)
  deriving DecidableEq

/-- What an attribute holds; `other` is neither `None` nor a `UUID`. -/
inductive Cell (β : Type*)
  | null
  | uuid (id : UUID)
  | other (value : β)

variable {β : Type*}

def Cell.ofOption : Option UUID → Cell β
  | none => .null
  | some id => .uuid id

def Cell.isNull : Cell β → Bool
  | .null => true
  | _ => false

def Cell.isUuid (id : UUID) : Cell β → Bool
  | .uuid id' => id' = id
  | _ => false

abbrev Row (β : Type*) := String → Cell β

def keyColumns : List String := ["id", "organization_id", "company_id", "customer_id"]

-- A class that a service maps. `bind` is what the driver stores for a value, or `none` where it or the table refuses
-- it; `sync` the columns a flush writes for a relationship that was assigned on a row, or `none` where the value is
-- refused.
structure Model (β : Type*) where
  columns : List String
  relationships : List String
  bind : String → Cell β → Option (Cell β)
  sync : String → Cell β → Row β → Option (List (String × Cell β))
  initial : Row β
  companyScoped : Bool
  softDeletes : Bool
  bind_null : ∀ column c, bind column .null = some c → c = .null
  bind_uuid : ∀ column ∈ keyColumns, ∀ id c, bind column (.uuid id) = some c → c = .uuid id
  initial_key : ∀ column ∈ keyColumns, initial column = .null
  tenant : "organization_id" ∈ columns
  company : companyScoped = true → "company_id" ∈ columns

/-- The values one flush stores, or `none` where it raises. -/
def Model.store (model : Model β) (row : Row β) : Option (Row β) :=
  if ∀ column ∈ model.columns, (model.bind column (row column)).isSome = true then
    some (fun column => (model.bind column (row column)).getD .null)
  else none

-- An object to be written: its columns, and what its relationships write to them at the flush.
structure Pending (β : Type*) where
  row : Row β
  links : List (String × Cell β)

def Model.links (model : Model β) (row : Row β) (kwargs : Dict String (Cell β)) : Option (List (String × Cell β)) :=
  ((kwargs.items.filter (fun e => e.1 ∈ model.relationships)).mapM (fun e => model.sync e.1 e.2 row)).map List.flatten

def Pending.synced (o : Pending β) : Row β := o.links.foldl (fun row w => Function.update row w.1 w.2) o.row

structure Session (β : Type*) where
  new : List (Pending β)
  table : List (Row β)

variable (model : Model β)

def stampNewRow (company : UUID) (row : Row β) : Row β :=
  if model.companyScoped = true ∧ (row "company_id").isNull = true then
    Function.update row "company_id" (.uuid company)
  else row

def stampNewRows (active : CompanyRef) (new : List (Pending β)) : List (Pending β) :=
  match active with
  | .any => new
  | .of none => new
  | .of (some company) => new.map (fun o => { o with row := stampNewRow model company o.row })

-- The rows are stamped before the flush, which then writes the keys of related objects over what the columns hold.
def flush (active : CompanyRef) (s : Session β) : Option (Session β) :=
  ((stampNewRows model active s.new).mapM (fun o => model.store o.synced)).map (fun rows => ⟨[], s.table ++ rows⟩)

inductive StatementKind
  | select
  | insert
  | update
  | delete
  deriving DecidableEq

-- `criteria` are the companies whose loader criteria the statement carries: a relationship load takes over those under
-- which its owner was loaded.
structure Statement (β : Type*) where
  kind : StatementKind
  isColumnLoad : Bool
  isRelationshipLoad : Bool
  criteria : List (Option UUID)
  holds : Row β → Bool

def only (company : Option UUID) (row : Row β) : Bool :=
  match company with
  | none => (row "company_id").isNull
  | some company => (row "company_id").isUuid company

def scopeStatement (active : CompanyRef) (s : Statement β) : Statement β :=
  match active with
  | .any => s
  | .of company =>
    if s.isColumnLoad || s.isRelationshipLoad then s
    else if s.kind ≠ .insert then { s with criteria := s.criteria ++ [company] }
    else s

def execute (active : CompanyRef) (s : Statement β) (table : List (Row β)) : List (Row β) :=
  let s := scopeStatement active s
  table.filter (fun row => s.holds row && (!model.companyScoped || s.criteria.all (fun company => only company row)))

variable {model} {row stored : Row β} {column : String}

@[simp] lemma Cell.isNull_iff {c : Cell β} : c.isNull = true ↔ c = .null := by
  cases c <;> simp [Cell.isNull]

@[simp] lemma Cell.isUuid_iff {id : UUID} {c : Cell β} : c.isUuid id = true ↔ c = .uuid id := by
  cases c <;> simp [Cell.isUuid]

lemma only_iff {company : Option UUID} : only company row = true ↔ row "company_id" = Cell.ofOption company := by
  cases company with
  | none => exact Cell.isNull_iff
  | some company => exact Cell.isUuid_iff

lemma ofOption_injective {a b : Option UUID} (h : (Cell.ofOption a : Cell β) = Cell.ofOption b) : a = b := by
  cases a <;> cases b <;> simp_all [Cell.ofOption]

lemma store_bind (h : model.store row = some stored) (hc : column ∈ model.columns) :
    model.bind column (row column) = some (stored column) := by
  rw [Model.store] at h
  split at h
  · rename_i hall
    obtain rfl := Option.some.inj h
    obtain ⟨c, hbind⟩ := Option.isSome_iff_exists.mp (hall column hc)
    simp only [hbind, Option.getD_some]
  · exact absurd h (by simp)

lemma store_uuid {id : UUID} (h : model.store row = some stored) (hc : column ∈ model.columns)
    (hkey : column ∈ keyColumns) (hrow : row column = .uuid id) : stored column = .uuid id := by
  have hbind := store_bind h hc
  rw [hrow] at hbind
  exact model.bind_uuid column hkey id _ hbind

lemma store_null (h : model.store row = some stored) (hc : column ∈ model.columns) (hrow : row column = .null) :
    stored column = .null := by
  have hbind := store_bind h hc
  rw [hrow] at hbind
  exact model.bind_null column _ hbind

lemma holds_of_execute {active : CompanyRef} {s : Statement β} {table : List (Row β)}
    (h : row ∈ execute model active s table) : row ∈ table ∧ s.holds row = true := by
  obtain ⟨hmem, hholds⟩ := List.mem_filter.mp h
  refine ⟨hmem, ?_⟩
  have hscoped : (scopeStatement active s).holds = s.holds := by
    cases active with
    | any => rfl
    | of company =>
      simp only [scopeStatement]
      split
      · rfl
      · split <;> rfl
  rw [← hscoped]
  exact ((Bool.and_eq_true _ _).mp hholds).1

lemma not_mem_execute {active : CompanyRef} {company : Option UUID} {s : Statement β} {table : List (Row β)}
    (hscoped : model.companyScoped = true) (hcriteria : company ∈ (scopeStatement active s).criteria)
    (hrow : row "company_id" ≠ Cell.ofOption company) : row ∉ execute model active s table := by
  intro hmem
  have hholds := ((Bool.and_eq_true _ _).mp (List.mem_filter.mp hmem).2).2
  rw [hscoped, Bool.not_true, Bool.false_or] at hholds
  exact hrow (only_iff.mp (List.all_eq_true.mp hholds company hcriteria))

lemma mem_criteria {company : Option UUID} {s : Statement β}
    (hloads : s.isColumnLoad = false ∧ s.isRelationshipLoad = false) (hkind : s.kind = .select) :
    company ∈ (scopeStatement (.of company) s).criteria := by
  simp [scopeStatement, hloads.1, hloads.2, hkind]

lemma synced_of_unlinked {o : Pending β} (h : ∀ w ∈ o.links, w.1 ≠ column) : o.synced column = o.row column := by
  obtain ⟨row, links⟩ := o
  rw [Pending.synced]
  induction links generalizing row with
  | nil => rfl
  | cons w links ih =>
    obtain ⟨hw, hrest⟩ := List.forall_mem_cons.mp h
    rw [List.foldl_cons, ih _ hrest]
    exact Function.update_of_ne hw.symm _ _

lemma synced_of_linked {o : Pending β} (h : ∃ w ∈ o.links, w.1 = column) :
    ∃ value, (column, value) ∈ o.links ∧ o.synced column = value := by
  obtain ⟨row, links⟩ := o
  rw [Pending.synced]
  induction links generalizing row with
  | nil => exact absurd h (by simp)
  | cons w links ih =>
    by_cases hrest : ∃ w ∈ links, w.1 = column
    · obtain ⟨value, hmem, hvalue⟩ := ih (Function.update row w.1 w.2) hrest
      exact ⟨value, List.mem_cons_of_mem w hmem, hvalue⟩
    · obtain ⟨v, hv, hcolumn⟩ := h
      have hlast := synced_of_unlinked (o := ⟨Function.update row w.1 w.2, links⟩)
        (fun w hw hcolumn => hrest ⟨w, hw, hcolumn⟩)
      rcases List.mem_cons.mp hv with rfl | hv
      · refine ⟨v.2, by rw [← hcolumn]; exact List.mem_cons_self, ?_⟩
        rw [← hcolumn] at hlast ⊢
        exact hlast.trans (Function.update_self _ _ _)
      · exact absurd ⟨v, hv, hcolumn⟩ hrest

end TheCargo.Db.CompanyScope
