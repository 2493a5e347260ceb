import TheCargo.Foundation.Fallible
import TheCargo.Foundation.Like
import TheCargo.Foundation.OrderBy
import TheCargo.Foundation.PyString
import TheCargo.Utils.Timezone

/-! The listings of the admin console: what `build_list_query` selects, and in which order. -/

namespace TheCargo.Repositories.Admin

open Foundation Foundation.OrderBy Utils

/-- A mapped class: what its columns hold in a row, and the values as the database sorts them. -/
structure Model (ρ ι : Type) where
  columns : List String
  nullable : String → Bool
  softDeletes : Bool
  value : String → ρ → Option ι
  text : String → ρ → Option String
  instant : String → ρ → Option ℤ

structure AdminRepository (ρ ι : Type) where
  model : Model ρ ι
  searchFields : List String
  sortFields : List String
  defaultSort : String
  sortTiebreak : List String
  dateField : Option String

inductive Error
  | attribute (name : String)
  | invalidSort (field allowed : String)
  | noDateColumn
  | noBound

structure BadRequest where
  code : String
  key : String
  message : String
  params : List (String × String)

def Error.badRequest : Error → Option BadRequest
  | .invalidSort field allowed => some ⟨"INVALID_SORT", "admin.invalid_sort",
      "Cannot sort by '" ++ field ++ "'. Allowed: " ++ allowed, [("field", field), ("allowed", allowed)]⟩
  | _ => none

structure Select (ρ ι : Type) where
  holds : ρ → Bool
  orderBy : List (Key ρ ι)

/-- The case of letters as the collation of the database sees it; it makes no wildcard out of another character. -/
structure Collation where
  lower : Char → Char
  wildcards : ∀ c ∈ ['%', '_', '\\'], lower c = c
  others : ∀ c, lower c ∈ ['%', '_', '\\'] → c ∈ ['%', '_', '\\']

def Collation.fold (collation : Collation) (s : String) : List Char := s.toList.map collation.lower

def Collation.ilike (collation : Collation) (text pattern : String) : Bool :=
  like (collation.fold pattern) (collation.fold text)

structure Call (ι : Type) where
  q : Option String
  sort : Option String
  organizationId : Option ι
  includeDeleted : Bool
  dateFrom : Option Date
  dateTo : Option Date
  windowTz : Tz
  filters : List (String × Option ι)

variable {ρ ι : Type} (zoneInfo : String → Option ZoneInfo) (collation : Collation)
  (repo : AdminRepository ρ ι)

def column (name : String) : Except Error String :=
  if name ∈ repo.model.columns then .ok name else .error (.attribute name)

def Select.and (query : Select ρ ι) (holds : ρ → Bool) : Select ρ ι :=
  { query with holds := fun row => query.holds row && holds row }

def Select.by (query : Select ρ ι) (key : Key ρ ι) : Select ρ ι := { query with orderBy := query.orderBy ++ [key] }

def baseQuery (includeDeleted : Bool) : Select ρ ι :=
  ⟨fun row => includeDeleted || !repo.model.softDeletes || (repo.model.instant "deleted_at" row).isNone, []⟩

def applySearch (query : Select ρ ι) (q : String) : Except Error (Select ρ ι) := do
  let term := "%" ++ strip q ++ "%"
  let fields ← repo.searchFields.mapM (column repo)
  if fields.isEmpty then return query
  return query.and (fun row => fields.any (fun field =>
    (repo.model.text field row).any (fun text => collation.ilike text term)))

def keyOf (descending : Bool) (field : String) : Key ρ ι :=
  ⟨repo.model.value field,
    if !descending then .asc else if repo.model.nullable field then .descNullsLast else .desc⟩

def applyTiebreak (query : Select ρ ι) (sortedField : String) (descending : Bool) : Except Error (Select ρ ι) := do
  let names ← (repo.sortTiebreak.filter (· ≠ sortedField)).mapM (column repo)
  return names.foldl (fun query name => query.by (keyOf repo descending name)) query

def descending (sort : String) : Bool := sort.toList.head? = some '-'

def sortField (sort : String) : String := if descending sort then String.ofList (sort.toList.drop 1) else sort

def applySort (query : Select ρ ι) (sort : String) : Except Error (Select ρ ι) := do
  if sortField sort ∉ repo.sortFields then
    throw (.invalidSort (sortField sort) (String.intercalate ", " (repo.sortFields.mergeSort (fun a b => a ≤ b))))
  let field ← column repo (sortField sort)
  applyTiebreak repo (query.by (keyOf repo (descending sort) field)) field (descending sort)

section Order

variable {repo} {query select : Select ρ ι} {sort : String}

lemma column_ok {name field : String} : column repo name = .ok field ↔ name ∈ repo.model.columns ∧ name = field := by
  rw [column]
  split
  · rename_i hmem
    simp [hmem]
  · rename_i hmem
    simp [hmem]

lemma columns_ok {names fields : List String} (h : names.mapM (column repo) = .ok fields) : names = fields :=
  List.forall₂_eq_eq_eq ▸ (mapM_ok_iff.mp h).imp (fun _ _ hab => (column_ok.mp hab).2)

def keys (repo : AdminRepository ρ ι) (sort : String) : List (Key ρ ι) :=
  (sortField sort :: repo.sortTiebreak.filter (· ≠ sortField sort)).map (keyOf repo (descending sort))

lemma foldl_by (query : Select ρ ι) (names : List String) (down : Bool) :
    (names.foldl (fun query name => query.by (keyOf repo down name)) query).holds = query.holds ∧
      (names.foldl (fun query name => query.by (keyOf repo down name)) query).orderBy =
        query.orderBy ++ names.map (keyOf repo down) := by
  induction names generalizing query with
  | nil => exact ⟨rfl, (List.append_nil _).symm⟩
  | cons name names ih =>
    obtain ⟨hholds, horder⟩ := ih (query.by (keyOf repo down name))
    refine ⟨hholds, ?_⟩
    rw [List.foldl_cons, horder, Select.by, List.map_cons, List.append_assoc, List.singleton_append]

lemma applySort_ok (h : applySort repo query sort = .ok select) :
    sortField sort ∈ repo.model.columns ∧ select.holds = query.holds ∧
      select.orderBy = query.orderBy ++ keys repo sort := by
  rw [applySort] at h
  split at h
  · cases h
  · obtain ⟨-, -, h⟩ := bind_ok_iff.mp h
    obtain ⟨field, hfield, h⟩ := bind_ok_iff.mp h
    obtain ⟨hcolumn, rfl⟩ := column_ok.mp hfield
    obtain ⟨names, hnames, h⟩ := bind_ok_iff.mp h
    obtain rfl := Except.ok.inj h
    obtain rfl := columns_ok hnames
    obtain ⟨hholds, horder⟩ := foldl_by (query.by (keyOf repo (descending sort) (sortField sort)))
      (repo.sortTiebreak.filter (· ≠ sortField sort)) (descending sort)
    refine ⟨hcolumn, hholds, ?_⟩
    rw [horder, keys, Select.by, List.map_cons, List.append_assoc, List.singleton_append]

end Order

def rangeBoundsUtc (dateFrom dateTo : Option Date) (tz : Tz) : Option (Option DateTime × Option DateTime) := do
  let lower ← dateFrom.elim (some none) (fun day => (startOfDayUtc zoneInfo day tz).map some)
  let upper ← dateTo.elim (some none) (fun day => (endOfDayUtc zoneInfo day tz).map some)
  some (lower, upper)

def applyWindow (query : Select ρ ι) (dateFrom dateTo : Option Date) (tz : Tz) : Except Error (Select ρ ι) :=
  match repo.dateField with
  | none => .error .noDateColumn
  | some field =>
    if field ∉ repo.model.columns then .error .noDateColumn
    else
      match rangeBoundsUtc zoneInfo dateFrom dateTo tz with
      | none => .error .noBound
      | some (lower, upper) =>
        .ok ((query.and (fun row => lower.all (fun bound =>
          (repo.model.instant field row).any (fun t => bound.instant ≤ t)))).and (fun row => upper.all (fun bound =>
          (repo.model.instant field row).any (fun t => t < bound.instant))))

def applyFilters [DecidableEq ι] (query : Select ρ ι) : List (String × Option ι) → Except Error (Select ρ ι)
  | [] => .ok query
  | (_, none) :: filters => applyFilters query filters
  | (field, some value) :: filters => do
    let field ← column repo field
    applyFilters (query.and (fun row => repo.model.value field row = some value)) filters

variable [DecidableEq ι]

def applyOrganization (query : Select ρ ι) : Option ι → Except Error (Select ρ ι)
  | none => .ok query
  | some organization => do
    let field ← column repo "organization_id"
    return query.and (fun row => repo.model.value field row = some organization)

def applyDates (query : Select ρ ι) (call : Call ι) : Except Error (Select ρ ι) :=
  if call.dateFrom.isSome || call.dateTo.isSome then
    applyWindow zoneInfo repo query call.dateFrom call.dateTo call.windowTz
  else .ok query

def applyQ (query : Select ρ ι) : Option String → Except Error (Select ρ ι)
  | none => .ok query
  | some q => if strip q = "" then .ok query else applySearch collation repo query q

def conditions (call : Call ι) : Except Error (Select ρ ι) := do
  let query ← applyOrganization repo (baseQuery repo call.includeDeleted) call.organizationId
  let query ← applyDates zoneInfo repo query call
  let query ← applyFilters repo query call.filters
  applyQ collation repo query call.q

def Call.sortedBy (call : Call ι) : String := orElse call.sort repo.defaultSort

def buildListQuery (call : Call ι) : Except Error (Select ρ ι) := do
  let query ← conditions zoneInfo collation repo call
  applySort repo query (call.sortedBy repo)

variable {zoneInfo collation repo} {call : Call ι} {query select : Select ρ ι}

lemma fold_wrapped (w : String) : collation.fold ("%" ++ w ++ "%") = '%' :: (collation.fold w ++ ['%']) := by
  have hany : collation.lower '%' = '%' := collation.wildcards '%' List.mem_cons_self
  rw [Collation.fold, String.toList_append, String.toList_append, List.map_append, List.map_append]
  simp [Collation.fold, hany]

lemma noWildcard_fold {w : String} (h : NoWildcard w.toList) : NoWildcard (collation.fold w) := by
  intro c hc
  obtain ⟨d, hd, rfl⟩ := List.mem_map.mp hc
  have hother := mt (collation.others d) (by simpa using h d hd)
  simpa using hother

omit [DecidableEq ι] in
lemma applySearch_ok {q : String} (row : ρ) (h : applySearch collation repo query q = .ok select)
    (hq : NoWildcard (strip q).toList) :
    select.holds row = true ↔ query.holds row = true ∧
      (repo.searchFields ≠ [] → ∃ field ∈ repo.searchFields, ∃ text ∈ repo.model.text field row,
        collation.fold (strip q) <:+: collation.fold text) := by
  obtain ⟨fields, hfields, h⟩ := bind_ok_iff.mp h
  obtain rfl := columns_ok hfields
  split at h
  · rename_i hempty
    obtain rfl := Except.ok.inj h
    simp [List.isEmpty_iff.mp hempty]
  · rename_i hempty
    obtain rfl := Except.ok.inj h
    have hfound : ∀ text : String, collation.ilike text ("%" ++ strip q ++ "%") = true ↔
        collation.fold (strip q) <:+: collation.fold text := by
      intro text
      rw [Collation.ilike, fold_wrapped, like_isInfix (noWildcard_fold hq)]
    simp only [Select.and, Bool.and_eq_true, List.any_eq_true, Option.any_eq_true, hfound]
    simp [List.isEmpty_iff.not.mp hempty]

lemma applyFilters_ok {filters : List (String × Option ι)} (row : ρ)
    (h : applyFilters repo query filters = .ok select) :
    select.holds row = true ↔ query.holds row = true ∧
      ∀ e ∈ filters, ∀ v ∈ e.2, repo.model.value e.1 row = some v := by
  induction filters generalizing query with
  | nil =>
    obtain rfl := Except.ok.inj h
    simp
  | cons e filters ih =>
    obtain ⟨field, value⟩ := e
    cases value with
    | none =>
      rw [applyFilters] at h
      simpa using ih h
    | some v =>
      obtain ⟨name, hname, h⟩ := bind_ok_iff.mp h
      obtain ⟨-, rfl⟩ := column_ok.mp hname
      refine (ih h).trans ?_
      simp [Select.and, and_assoc]

lemma rangeBoundsUtc_eq_some {dateFrom dateTo : Option Date} {tz : Tz} {lower upper : Option DateTime}
    (h : rangeBoundsUtc zoneInfo dateFrom dateTo tz = some (lower, upper)) :
    dateFrom.elim (some none) (fun day => (startOfDayUtc zoneInfo day tz).map some) = some lower ∧
      dateTo.elim (some none) (fun day => (endOfDayUtc zoneInfo day tz).map some) = some upper := by
  obtain ⟨lower', hlower, h⟩ := Option.bind_eq_some_iff.mp h
  obtain ⟨upper', hupper, h⟩ := Option.bind_eq_some_iff.mp h
  obtain ⟨rfl, rfl⟩ := Prod.mk.inj (Option.some.inj h)
  exact ⟨hlower, hupper⟩

variable {z : ZoneInfo} {tz : Tz} {d : Date} {t : ℤ}

lemma start_le_iff (hz : zone zoneInfo tz = some z) {start : DateTime}
    (h : startOfDayUtc zoneInfo d tz = some start) (hsteady : ∀ c ∈ z.shifts, ¬ c.Passes (midnight d)) :
    start.instant ≤ t ↔ midnight d ≤ z.reading t := by
  obtain ⟨s, hs⟩ := exists_reaches z (midnight d)
  have hlt := hs.lt_iff (t := t) ((steady_iff z (midnight d)).mpr hsteady)
  rw [startOfDayUtc_instant zoneInfo hz h, ← not_lt, hlt, not_lt]

lemma lt_stop_iff (hz : zone zoneInfo tz = some z) {stop : DateTime}
    (h : endOfDayUtc zoneInfo d tz = some stop) (hsteady : ∀ c ∈ z.shifts, ¬ c.Passes (nextMidnight d)) :
    t < stop.instant ↔ z.reading t < nextMidnight d := by
  obtain ⟨s, hs⟩ := exists_reaches z (nextMidnight d)
  rw [endOfDayUtc_instant zoneInfo hz h]
  exact hs.lt_iff ((steady_iff z (nextMidnight d)).mpr hsteady)

structure Steady (z : ZoneInfo) (dateFrom dateTo : Option Date) : Prop where
  start : ∀ d ∈ dateFrom, ∀ c ∈ z.shifts, ¬ c.Passes (midnight d)
  stop : ∀ d ∈ dateTo, ∀ c ∈ z.shifts, ¬ c.Passes (nextMidnight d)

omit [DecidableEq ι] in
lemma applyWindow_ok {dateFrom dateTo : Option Date} (row : ρ) (hz : zone zoneInfo tz = some z)
    (hsteady : Steady z dateFrom dateTo) (h : applyWindow zoneInfo repo query dateFrom dateTo tz = .ok select) :
    select.holds row = true ↔ query.holds row = true ∧
      (∀ d ∈ dateFrom, ∃ field ∈ repo.dateField, ∃ t ∈ repo.model.instant field row, midnight d ≤ z.reading t) ∧
      ∀ d ∈ dateTo, ∃ field ∈ repo.dateField, ∃ t ∈ repo.model.instant field row, z.reading t < nextMidnight d := by
  rw [applyWindow] at h
  split at h
  · cases h
  · rename_i field hfield
    split at h
    · cases h
    · split at h
      · cases h
      · rename_i lower upper hbounds
        obtain rfl := Except.ok.inj h
        obtain ⟨hlower, hupper⟩ := rangeBoundsUtc_eq_some hbounds
        have hstart : lower.all (fun bound => (repo.model.instant field row).any (fun t => bound.instant ≤ t)) = true ↔
            ∀ d ∈ dateFrom, ∃ f ∈ repo.dateField, ∃ t ∈ repo.model.instant f row, midnight d ≤ z.reading t := by
          cases dateFrom with
          | none =>
            obtain rfl := Option.some.inj hlower
            simp
          | some d =>
            obtain ⟨start, hd, rfl⟩ := Option.map_eq_some_iff.mp hlower
            simp [hfield, start_le_iff hz hd (hsteady.start d rfl), Option.any_eq_true]
        have hstop : upper.all (fun bound => (repo.model.instant field row).any (fun t => t < bound.instant)) = true ↔
            ∀ d ∈ dateTo, ∃ f ∈ repo.dateField, ∃ t ∈ repo.model.instant f row, z.reading t < nextMidnight d := by
          cases dateTo with
          | none =>
            obtain rfl := Option.some.inj hupper
            simp
          | some d =>
            obtain ⟨stop, hd, rfl⟩ := Option.map_eq_some_iff.mp hupper
            simp [hfield, lt_stop_iff hz hd (hsteady.stop d rfl), Option.any_eq_true]
        simp only [Select.and, Bool.and_eq_true, hstart, hstop, and_assoc]

omit [DecidableEq ι] in
lemma applyWindow_orderBy {dateFrom dateTo : Option Date}
    (h : applyWindow zoneInfo repo query dateFrom dateTo tz = .ok select) : select.orderBy = query.orderBy := by
  rw [applyWindow] at h
  split at h
  · cases h
  · split at h
    · cases h
    · split at h
      · cases h
      · obtain rfl := Except.ok.inj h
        rfl

lemma applyFilters_orderBy {filters : List (String × Option ι)} (h : applyFilters repo query filters = .ok select) :
    select.orderBy = query.orderBy := by
  induction filters generalizing query with
  | nil =>
    obtain rfl := Except.ok.inj h
    rfl
  | cons e filters ih =>
    obtain ⟨field, value⟩ := e
    cases value with
    | none => exact ih h
    | some v =>
      obtain ⟨name, -, h⟩ := bind_ok_iff.mp h
      have horder := ih h
      exact horder

lemma conditions_orderBy (h : conditions zoneInfo collation repo call = .ok query) : query.orderBy = [] := by
  obtain ⟨inOrg, hinOrg, h⟩ := bind_ok_iff.mp h
  obtain ⟨inWindow, hinWindow, h⟩ := bind_ok_iff.mp h
  obtain ⟨filtered, hfiltered, h⟩ := bind_ok_iff.mp h
  have horg : inOrg.orderBy = [] := by
    cases horganization : call.organizationId with
    | none =>
      rw [horganization] at hinOrg
      obtain rfl := Except.ok.inj hinOrg
      rfl
    | some organization =>
      rw [horganization] at hinOrg
      obtain ⟨field, -, hinOrg⟩ := bind_ok_iff.mp hinOrg
      obtain rfl := Except.ok.inj hinOrg
      rfl
  have hwindow : inWindow.orderBy = inOrg.orderBy := by
    rw [applyDates] at hinWindow
    split at hinWindow
    · exact applyWindow_orderBy hinWindow
    · obtain rfl := Except.ok.inj hinWindow
      rfl
  have hsearch : query.orderBy = filtered.orderBy := by
    rw [applyQ.eq_def] at h
    split at h
    · obtain rfl := Except.ok.inj h
      rfl
    · split at h
      · obtain rfl := Except.ok.inj h
        rfl
      · obtain ⟨fields, -, h⟩ := bind_ok_iff.mp h
        split at h
        · obtain rfl := Except.ok.inj h
          rfl
        · obtain rfl := Except.ok.inj h
          rfl
  rw [hsearch, applyFilters_orderBy hfiltered, hwindow, horg]

structure Listed (collation : Collation) (repo : AdminRepository ρ ι) (z : ZoneInfo) (call : Call ι) (row : ρ) :
    Prop where
  kept : call.includeDeleted = true ∨ repo.model.softDeletes = false ∨ repo.model.instant "deleted_at" row = none
  organization : ∀ organization ∈ call.organizationId, repo.model.value "organization_id" row = some organization
  since : ∀ d ∈ call.dateFrom, ∃ field ∈ repo.dateField, ∃ t ∈ repo.model.instant field row, midnight d ≤ z.reading t
  upTo : ∀ d ∈ call.dateTo, ∃ field ∈ repo.dateField, ∃ t ∈ repo.model.instant field row, z.reading t < nextMidnight d
  filters : ∀ e ∈ call.filters, ∀ v ∈ e.2, repo.model.value e.1 row = some v
  found : ∀ q ∈ call.q, strip q ≠ "" → repo.searchFields ≠ [] →
    ∃ field ∈ repo.searchFields, ∃ text ∈ repo.model.text field row,
      collation.fold (strip q) <:+: collation.fold text

lemma applyOrganization_ok {organizationId : Option ι} (row : ρ)
    (h : applyOrganization repo query organizationId = .ok select) :
    select.holds row = true ↔ query.holds row = true ∧
      ∀ organization ∈ organizationId, repo.model.value "organization_id" row = some organization := by
  cases organizationId with
  | none =>
    obtain rfl := Except.ok.inj h
    simp
  | some organization =>
    obtain ⟨field, hfield, h⟩ := bind_ok_iff.mp h
    obtain ⟨-, rfl⟩ := column_ok.mp hfield
    obtain rfl := Except.ok.inj h
    simp [Select.and]

omit [DecidableEq ι] in
lemma applyDates_ok (row : ρ) (hz : zone zoneInfo call.windowTz = some z)
    (hsteady : Steady z call.dateFrom call.dateTo) (h : applyDates zoneInfo repo query call = .ok select) :
    select.holds row = true ↔ query.holds row = true ∧
      (∀ d ∈ call.dateFrom, ∃ field ∈ repo.dateField, ∃ t ∈ repo.model.instant field row, midnight d ≤ z.reading t) ∧
      ∀ d ∈ call.dateTo, ∃ field ∈ repo.dateField, ∃ t ∈ repo.model.instant field row,
        z.reading t < nextMidnight d := by
  rw [applyDates] at h
  split at h
  · exact applyWindow_ok row hz hsteady h
  · rename_i hnone
    obtain rfl := Except.ok.inj h
    simp only [Bool.or_eq_true, not_or, Option.not_isSome_iff_eq_none] at hnone
    simp [hnone.1, hnone.2]

omit [DecidableEq ι] in
lemma applyQ_ok {asked : Option String} (row : ρ) (hq : ∀ q ∈ asked, NoWildcard (strip q).toList)
    (h : applyQ collation repo query asked = .ok select) :
    select.holds row = true ↔ query.holds row = true ∧
      ∀ q ∈ asked, strip q ≠ "" → repo.searchFields ≠ [] →
        ∃ field ∈ repo.searchFields, ∃ text ∈ repo.model.text field row,
          collation.fold (strip q) <:+: collation.fold text := by
  cases asked with
  | none =>
    obtain rfl := Except.ok.inj h
    simp
  | some q =>
    rw [applyQ] at h
    split at h
    · rename_i hblank
      obtain rfl := Except.ok.inj h
      simp [hblank]
    · rename_i hblank
      have hfound := applySearch_ok row h (hq q rfl)
      simpa [hblank] using hfound

lemma conditions_ok (row : ρ) (hz : zone zoneInfo call.windowTz = some z)
    (hsteady : Steady z call.dateFrom call.dateTo) (hq : ∀ q ∈ call.q, NoWildcard (strip q).toList)
    (h : conditions zoneInfo collation repo call = .ok query) :
    query.holds row = true ↔ Listed collation repo z call row := by
  obtain ⟨inOrg, hinOrg, h⟩ := bind_ok_iff.mp h
  obtain ⟨inWindow, hinWindow, h⟩ := bind_ok_iff.mp h
  obtain ⟨filtered, hfiltered, h⟩ := bind_ok_iff.mp h
  have hbase : (baseQuery repo call.includeDeleted).holds row = true ↔ call.includeDeleted = true ∨
      repo.model.softDeletes = false ∨ repo.model.instant "deleted_at" row = none := by
    simp [baseQuery, or_assoc]
  rw [applyQ_ok row hq h, applyFilters_ok row hfiltered, applyDates_ok row hz hsteady hinWindow,
    applyOrganization_ok row hinOrg, hbase]
  constructor
  · rintro ⟨⟨⟨⟨hkept, horganization⟩, hsince, hupTo⟩, hall⟩, hfound⟩
    exact ⟨hkept, horganization, hsince, hupTo, hall, hfound⟩
  · intro hlisted
    exact ⟨⟨⟨⟨hlisted.kept, hlisted.organization⟩, hlisted.since, hlisted.upTo⟩, hlisted.filters⟩, hlisted.found⟩

lemma buildListQuery_ok (h : buildListQuery zoneInfo collation repo call = .ok select) :
    sortField (call.sortedBy repo) ∈ repo.model.columns ∧ select.orderBy = keys repo (call.sortedBy repo) ∧
      ∃ query, conditions zoneInfo collation repo call = .ok query ∧ select.holds = query.holds := by
  obtain ⟨query, hquery, h⟩ := bind_ok_iff.mp h
  obtain ⟨hcolumn, hholds, horder⟩ := applySort_ok h
  rw [conditions_orderBy hquery, List.nil_append] at horder
  exact ⟨hcolumn, horder, query, hquery, hholds⟩

theorem listed_iff (hz : zone zoneInfo call.windowTz = some z) (hsteady : Steady z call.dateFrom call.dateTo)
    (hq : ∀ q ∈ call.q, NoWildcard (strip q).toList)
    (h : buildListQuery zoneInfo collation repo call = .ok select) (row : ρ) :
    select.holds row = true ↔ Listed collation repo z call row := by
  obtain ⟨-, -, query, hquery, hholds⟩ := buildListQuery_ok h
  rw [hholds]
  exact conditions_ok row hz hsteady hq hquery

def binary : Collation := ⟨id, fun _ _ => rfl, fun _ hc => hc⟩

-- A row is the subject of a ticket and when it was opened.
def tickets : AdminRepository (String × ℤ) ℕ where
  model := ⟨["subject", "created_at"], fun _ => false, false, fun _ _ => none, fun _ row => some row.1,
    fun _ row => some row.2⟩
  searchFields := ["subject"]
  sortFields := ["created_at"]
  defaultSort := "-created_at"
  sortTiebreak := []
  dateField := some "created_at"

def refunds : Call ℕ :=
  ⟨some " refund ", none, none, false, some springForward, some springForward, .tzinfo newYork, []⟩

theorem refunds_listed : ∃ select, buildListQuery (fun _ => none) binary tickets refunds = .ok select ∧
    ∀ row, select.holds row = true ↔ Listed binary tickets newYork refunds row := by
  obtain ⟨select, hselect⟩ := exists_ok
    (show (buildListQuery (fun _ => none) binary tickets refunds).isOk = true by decide +kernel)
  refine ⟨select, hselect, listed_iff rfl ?_ ?_ hselect⟩
  · exact ⟨fun d hd => by cases hd; decide +kernel, fun d hd => by cases hd; decide +kernel⟩
  · intro q hq
    cases hq
    exact forall_of_all (by decide +kernel)

section Answers

variable {ι : Type} [LinearOrder ι] {repo : AdminRepository ρ ι} {call : Call ι} {select select' : Select ρ ι}
  {table answer answer' : List ρ}

def Declared (repo : AdminRepository ρ ι) (table : List ρ) : Prop :=
  ∀ row ∈ table, ∀ field ∈ repo.model.columns, repo.model.nullable field = false → repo.model.value field row ≠ none

omit [LinearOrder ι] in
lemma mem_keys {field : String} (h : field ∈ sortField sort :: repo.sortTiebreak) :
    keyOf repo (descending sort) field ∈ keys repo sort := by
  refine List.mem_map.mpr ⟨field, ?_, rfl⟩
  rcases List.mem_cons.mp h with rfl | h
  · exact List.mem_cons_self
  · by_cases hsame : field = sortField sort
    · exact hsame ▸ List.mem_cons_self
    · exact List.mem_cons_of_mem _ (List.mem_filter.mpr ⟨h, decide_eq_true hsame⟩)

omit [LinearOrder ι] in
lemma keys_opposed {sort sort' : String} (hfield : sortField sort' = sortField sort)
    (hdirection : descending sort' = !descending sort) :
    List.Forall₂ Opposed (keys repo sort) (keys repo sort') := by
  rw [keys, keys, hfield, hdirection, List.forall₂_map_left_iff, List.forall₂_map_right_iff]
  refine List.forall₂_same.mpr (fun name _ => ⟨rfl, ?_⟩)
  cases descending sort with
  | false =>
    refine .inl ⟨rfl, ?_⟩
    cases hnull : repo.model.nullable name <;> simp [keyOf, hnull]
  | true =>
    refine .inr ⟨?_, rfl⟩
    cases hnull : repo.model.nullable name <;> simp [keyOf, hnull]

lemma nulls_last (htable : Declared repo table) (hcolumn : sortField sort ∈ repo.model.columns)
    (h : Answers (keys repo sort) (table.filter select.holds) answer) :
    answer.Pairwise (fun a b => repo.model.value (sortField sort) a = none →
      repo.model.value (sortField sort) b = none) := by
  by_cases hdesc : (keyOf repo (descending sort) (sortField sort)).direction = .desc
  · have hvalue : repo.model.nullable (sortField sort) = false := by
      rw [keyOf] at hdesc
      cases hnull : repo.model.nullable (sortField sort) with
      | false => rfl
      | true =>
        rw [hnull] at hdesc
        cases hd : descending sort <;> simp [hd] at hdesc
    refine List.pairwise_of_forall_mem_list (fun a ha b _ hnone => ?_)
    have hmem := List.mem_of_mem_filter (h.perm.mem_iff.mp ha)
    exact absurd hnone (htable a hmem _ hcolumn hvalue)
  · exact h.nulls_last hdesc

theorem listing_is_determined (h : buildListQuery zoneInfo collation repo call = .ok select)
    (htable : Declared repo table) (field : String)
    (hfield : field ∈ sortField (call.sortedBy repo) :: repo.sortTiebreak)
    (hunique : ∀ a ∈ table, ∀ b ∈ table, repo.model.value field a = repo.model.value field b → a = b)
    (hanswer : Answers select.orderBy (table.filter select.holds) answer) :
    (∀ answer', Answers select.orderBy (table.filter select.holds) answer' → answer' = answer) ∧
    answer.Pairwise (fun a b => repo.model.value (sortField (call.sortedBy repo)) a = none →
      repo.model.value (sortField (call.sortedBy repo)) b = none) ∧
    ∀ back select' answer', sortField back = sortField (call.sortedBy repo) →
      descending back = !descending (call.sortedBy repo) → back ≠ "" →
      buildListQuery zoneInfo collation repo { call with sort := some back } = .ok select' →
      Answers select'.orderBy (table.filter select'.holds) answer' →
      ∀ p : ρ → Bool, (∀ row, p row = true → ∀ name ∈ sortField (call.sortedBy repo) :: repo.sortTiebreak,
        repo.model.value name row ≠ none) → answer'.filter p = (answer.filter p).reverse := by
  obtain ⟨hcolumn, horder, query, hquery, hholds⟩ := buildListQuery_ok h
  rw [horder] at hanswer ⊢
  have hrows : ∀ a ∈ table.filter select.holds, ∀ b ∈ table.filter select.holds,
      repo.model.value field a = repo.model.value field b → a = b :=
    fun a ha b hb => hunique a (List.mem_of_mem_filter ha) b (List.mem_of_mem_filter hb)
  refine ⟨fun answer' h' => h'.unique hanswer ⟨_, mem_keys hfield, hrows⟩, nulls_last htable hcolumn hanswer, ?_⟩
  intro back select' answer' hsame hturned hback h' hanswer' p hp
  obtain ⟨-, horder', query', hquery', hholds'⟩ := buildListQuery_ok h'
  have hsort : Call.sortedBy repo { call with sort := some back } = back := orElse_some hback _
  have hquery_eq : query' = query := Except.ok.inj (hquery'.symm.trans hquery)
  rw [horder', hsort, hholds', hquery_eq, ← hholds] at hanswer'
  refine Answers.reversed (keys_opposed hsame hturned) hanswer hanswer' ⟨_, mem_keys (hsame ▸ hfield), hrows⟩ ?_
  intro row hrow k hk
  obtain ⟨name, hname, rfl⟩ := List.mem_map.mp hk
  refine hp row hrow name ?_
  rcases List.mem_cons.mp hname with rfl | hname
  · exact List.mem_cons_self
  · exact List.mem_cons_of_mem _ (List.mem_of_mem_filter hname)

-- A row is an id and a priority, if one is set.
def desk : AdminRepository (ℕ × Option ℕ) ℕ where
  model := ⟨["id", "priority"], fun field => field = "priority", false,
    fun field row => if field = "id" then some row.1 else row.2, fun _ _ => none, fun _ _ => none⟩
  searchFields := []
  sortFields := ["priority"]
  defaultSort := "-priority"
  sortTiebreak := ["id"]
  dateField := none

def everything : Call ℕ := ⟨none, none, none, false, none, none, .name "UTC", []⟩

def deskRows : List (ℕ × Option ℕ) := [(1, none), (2, some 5), (4, some 7), (3, some 7)]

theorem desk_listed : ∃ select, buildListQuery (fun _ => none) binary desk everything = .ok select ∧
    ∀ answer, Answers select.orderBy (deskRows.filter select.holds) answer →
      answer = [(4, some 7), (3, some 7), (2, some 5), (1, none)] := by
  obtain ⟨select, hselect⟩ := exists_ok
    (show (buildListQuery (fun _ => none) binary desk everything).isOk = true by decide +kernel)
  have hrows : (buildListQuery (fun _ => none) binary desk everything).toOption.map
      (fun select => deskRows.filter select.holds) = some deskRows := by decide +kernel
  have hfilter : deskRows.filter select.holds = deskRows := by
    rw [hselect] at hrows
    exact Option.some.inj hrows
  refine ⟨select, hselect, (listing_is_determined hselect ?_ "id" ?_ ?_ ⟨?_, ?_⟩).1⟩
  · unfold Declared
    decide +kernel
  · decide +kernel
  · decide +kernel
  · rw [hfilter]
    decide +kernel
  · rw [(buildListQuery_ok hselect).2.1]
    decide +kernel

end Answers

end TheCargo.Repositories.Admin
