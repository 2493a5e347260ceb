import Mathlib.Data.List.Sort
import TheCargo.Db.CompanyScope
import TheCargo.Foundation.Runs

/-! The rows of one organization, and of one company in it, through a repository. -/

namespace TheCargo.Repositories

open Foundation Models Db.CompanyScope

variable {β : Type*}

/-- The company a repository is asked for; `ACTIVE_COMPANY` is the default. -/
inductive Asked
  | activeCompany
  | given (company : CompanyRef)

def resolve (active : CompanyRef) : Asked → CompanyRef
  | .activeCompany => active
  | .given company => company

structure TenantRepository (β : Type*) where
  model : Model β
  softDelete : Bool
  orgId : UUID
  companyId : CompanyRef

def TenantRepository.init (model : Model β) (softDelete : Bool) (active : CompanyRef) (orgId : UUID) (asked : Asked) :
    TenantRepository β :=
  ⟨model, softDelete, orgId, resolve active asked⟩

def companyClause (company : CompanyRef) (row : Row β) : Bool :=
  match company with
  | .any => true
  | .of none => (row "company_id").isNull
  | .of (some company) => (row "company_id").isUuid company

namespace TenantRepository

variable (repo : TenantRepository β)

def baseQuery : Statement β where
  kind := .select
  isColumnLoad := false
  isRelationshipLoad := false
  criteria := []
  holds row :=
    (row "organization_id").isUuid repo.orgId && (!repo.model.companyScoped || companyClause repo.companyId row) &&
      (!(repo.softDelete && repo.model.softDeletes) || (row "deleted_at").isNull)

def get (active : CompanyRef) (table : List (Row β)) (id : UUID) : Option (Row β) :=
  (execute repo.model active
    { repo.baseQuery with holds := fun row => repo.baseQuery.holds row && (row "id").isUuid id } table).head?

def list (active : CompanyRef) (table : List (Row β)) (offset limit : ℕ) (orderBy : Row β → Row β → Prop)
    [DecidableRel orderBy] : List (Row β) × ℕ :=
  let rows := execute repo.model active repo.baseQuery table
  (((rows.insertionSort orderBy).drop offset).take limit, rows.length)

def construct (id : UUID) (kwargs : Dict String (Cell β)) : Row β :=
  fun column => (kwargs.get? column).getD
    (if column = "organization_id" then .uuid repo.orgId
      else if column = "id" then .uuid id
      else repo.model.initial column)

def companyKwargs (kwargs : Dict String (Cell β)) : Dict String (Cell β) :=
  match repo.companyId with
  | .any => kwargs
  | .of company => if repo.model.companyScoped then kwargs.set "company_id" (.ofOption company) else kwargs

/-- The row as it is stored, or `none` where the call raises: an argument given twice or unknown, a refused value. -/
def create (active : CompanyRef) (id : UUID) (s : Session β) (kwargs : Dict String (Cell β)) :
    Option (Row β × Session β) :=
  let kwargs := repo.companyKwargs kwargs
  if (kwargs.get? "organization_id").isSome = true ∨
      ∃ e ∈ kwargs.items, e.1 ∉ repo.model.columns ∧ e.1 ∉ repo.model.relationships then none
  else do
    let row := repo.construct id kwargs
    let links ← repo.model.links row kwargs
    let s ← flush repo.model active { s with new := s.new ++ [⟨row, links⟩] }
    (s.table.getLast?).map (fun row => (row, s))

def assign (row : Row β) (kwargs : Dict String (Cell β)) : Row β :=
  fun column => (kwargs.get? column).getD (row column)

def update (row : Row β) (kwargs : Dict String (Cell β)) : Option (Row β) := do
  let links ← repo.model.links row kwargs
  repo.model.store (Pending.synced ⟨assign row kwargs, links⟩)

def delete (now : β) (row : Row β) : Option (Option (Row β)) :=
  if repo.softDelete && repo.model.softDeletes then
    (repo.model.store (Function.update row "deleted_at" (.other now))).map some
  else some none

end TenantRepository

structure Create (β : Type*) where
  active : CompanyRef
  softDelete : Bool
  orgId : UUID
  company : Option UUID
  id : UUID
  kwargs : Dict String (Cell β)

structure Filing (β : Type*) where
  session : Session β
  created : List (Create β × Row β)

variable (model : Model β)

def Create.repository (c : Create β) : TenantRepository β :=
  .init model c.softDelete c.active c.orgId (.given (.of c.company))

/-- A call that raises leaves what was stored before. -/
def step (s : Filing β) (c : Create β) : Option (Filing β) :=
  match (c.repository model).create c.active c.id s.session c.kwargs with
  | some (row, session) => some ⟨session, s.created ++ [(c, row)]⟩
  | none => some s

def Elsewhere (c : Create β) (repo : TenantRepository β) : Prop :=
  repo.orgId ≠ c.orgId ∨ ∃ company, repo.companyId = .of company ∧ company ≠ c.company

structure FiledAndHidden (c : Create β) (row : Row β) (table : List (Row β)) : Prop where
  stored : row ∈ table
  organization : row "organization_id" = .uuid c.orgId
  company : row "company_id" = .ofOption c.company
  get : ∀ repo : TenantRepository β, repo.model = model → Elsewhere c repo →
    ∀ active id, repo.get active table id ≠ some row
  list : ∀ repo : TenantRepository β, repo.model = model → Elsewhere c repo →
    ∀ active offset limit (orderBy : Row β → Row β → Prop) [DecidableRel orderBy],
      row ∉ (repo.list active table offset limit orderBy).1
  select : ∀ company, company ≠ c.company → ∀ s : Statement β, s.kind = .select → s.isColumnLoad = false →
    (s.isRelationshipLoad = true → ∃ carried ∈ s.criteria, carried ≠ c.company) →
      row ∉ execute model (.of company) s table

structure Undisturbed (c : Create β) : Prop where
  unstamped : c.company = none → ∀ company, c.active ≠ .of (some company)
  links : ∀ links, model.links ((c.repository model).construct c.id ((c.repository model).companyKwargs c.kwargs))
      ((c.repository model).companyKwargs c.kwargs) = some links →
    ∀ w ∈ links, (w.1 = "organization_id" → w.2 = .uuid c.orgId) ∧ (w.1 = "company_id" → w.2 = .ofOption c.company)

variable {model}

lemma companyClause_iff {company : Option UUID} {row : Row β} :
    companyClause (.of company) row = true ↔ row "company_id" = Cell.ofOption company := by
  cases company with
  | none => exact Cell.isNull_iff
  | some company => exact Cell.isUuid_iff

lemma baseQuery_tenant {repo : TenantRepository β} {row : Row β} (h : repo.baseQuery.holds row = true) :
    row "organization_id" = .uuid repo.orgId ∧
      (repo.model.companyScoped = true → companyClause repo.companyId row = true) := by
  simp only [TenantRepository.baseQuery, Bool.and_eq_true, Bool.or_eq_true, Bool.not_eq_true'] at h
  obtain ⟨⟨horg, hcompany⟩, _⟩ := h
  refine ⟨Cell.isUuid_iff.mp horg, ?_⟩
  intro hscoped
  rcases hcompany with hno | hclause
  · rw [hscoped] at hno
    exact absurd hno (by simp)
  · exact hclause

lemma not_read_elsewhere {c : Create β} {row : Row β} (horg : row "organization_id" = .uuid c.orgId)
    (hcompany : row "company_id" = .ofOption c.company) {repo : TenantRepository β}
    (hscoped : repo.model.companyScoped = true) (helse : Elsewhere c repo) : repo.baseQuery.holds row ≠ true := by
  intro h
  obtain ⟨hread, hclause⟩ := baseQuery_tenant h
  rcases helse with hne | ⟨company, hrepo, hne⟩
  · rw [horg] at hread
    exact hne (Cell.uuid.inj hread).symm
  · have hin := hclause hscoped
    rw [hrepo] at hin
    exact hne (ofOption_injective ((companyClause_iff.mp hin).symm.trans hcompany))

lemma filedAndHidden (hscoped : model.companyScoped = true) {c : Create β} {row : Row β} {table : List (Row β)}
    (hstored : row ∈ table) (horg : row "organization_id" = .uuid c.orgId)
    (hcompany : row "company_id" = .ofOption c.company) : FiledAndHidden model c row table := by
  refine ⟨hstored, horg, hcompany, ?_, ?_, ?_⟩
  · rintro repo rfl helse active id hget
    have hholds := (holds_of_execute (List.mem_of_head? hget)).2
    exact not_read_elsewhere horg hcompany hscoped helse ((Bool.and_eq_true _ _).mp hholds).1
  · rintro repo rfl helse active offset limit orderBy _ hlist
    have hmem := List.mem_of_mem_drop (List.mem_of_mem_take hlist)
    have hholds := (holds_of_execute ((List.mem_insertionSort orderBy).mp hmem)).2
    exact not_read_elsewhere horg hcompany hscoped helse hholds
  · intro company hne s hkind hcolumn hrelationship
    cases hload : s.isRelationshipLoad with
    | false =>
      apply not_mem_execute hscoped (mem_criteria ⟨hcolumn, hload⟩ hkind)
      rw [hcompany]
      exact fun heq => hne (ofOption_injective heq).symm
    | true =>
      obtain ⟨carried, hcarried, hother⟩ := hrelationship hload
      have hcriteria : carried ∈ (scopeStatement (.of company) s).criteria := by
        simpa [scopeStatement, hload] using hcarried
      apply not_mem_execute hscoped hcriteria
      rw [hcompany]
      exact fun heq => hother (ofOption_injective heq).symm

lemma stampNewRows_concat (model : Model β) (active : CompanyRef) (new : List (Pending β)) (o : Pending β) :
    ∃ row, stampNewRows model active (new ++ [o]) = stampNewRows model active new ++ [{ o with row := row }] ∧
      (row = o.row ∨ ∃ company, active = .of (some company) ∧ row = stampNewRow model company o.row) := by
  cases active with
  | any => exact ⟨o.row, rfl, Or.inl rfl⟩
  | of company =>
    cases company with
    | none => exact ⟨o.row, rfl, Or.inl rfl⟩
    | some company => exact ⟨stampNewRow model company o.row, List.map_append, Or.inr ⟨company, rfl, rfl⟩⟩

lemma flush_concat {active : CompanyRef} {s s' : Session β} {o : Pending β}
    (h : flush model active { s with new := s.new ++ [o] } = some s') :
    ∃ row stored,
      (row = o.row ∨ ∃ company, active = .of (some company) ∧ row = stampNewRow model company o.row) ∧
      model.store (Pending.synced { o with row := row }) = some stored ∧
      ∃ before, (stampNewRows model active s.new).mapM (fun o => model.store o.synced) = some before ∧
        s'.table = s.table ++ before ++ [stored] := by
  obtain ⟨rows, hrows, rfl⟩ := Option.map_eq_some_iff.mp h
  obtain ⟨row, hsplit, hrow⟩ := stampNewRows_concat model active s.new o
  rw [hsplit, List.mapM_append] at hrows
  obtain ⟨before, hbefore, hrows⟩ := Option.bind_eq_some_iff.mp hrows
  obtain ⟨last, hlast, hrows⟩ := Option.bind_eq_some_iff.mp hrows
  obtain rfl := Option.some.inj hrows
  rw [List.mapM_cons] at hlast
  obtain ⟨stored, hstored, hlast⟩ := Option.bind_eq_some_iff.mp hlast
  obtain rfl := Option.some.inj hlast
  exact ⟨row, stored, hrow, hstored, before, hbefore, (List.append_assoc _ _ _).symm⟩

lemma create_stored {repo : TenantRepository β} {active : CompanyRef} {id : UUID} {s s' : Session β}
    {kwargs : Dict String (Cell β)} {row : Row β} (h : repo.create active id s kwargs = some (row, s')) :
    (repo.companyKwargs kwargs).get? "organization_id" = none ∧
      (∃ before, (stampNewRows repo.model active s.new).mapM (fun o => repo.model.store o.synced) = some before ∧
        s'.table = s.table ++ before ++ [row]) ∧
      ∃ stamped links, repo.model.links (repo.construct id (repo.companyKwargs kwargs)) (repo.companyKwargs kwargs) =
          some links ∧ repo.model.store (Pending.synced ⟨stamped, links⟩) = some row ∧
        (stamped = repo.construct id (repo.companyKwargs kwargs) ∨ ∃ company, active = .of (some company) ∧
          stamped = stampNewRow repo.model company (repo.construct id (repo.companyKwargs kwargs))) := by
  simp only [TenantRepository.create] at h
  split at h
  · exact absurd h (by simp)
  · rename_i hkwargs
    obtain ⟨links, hlinks, h⟩ := Option.bind_eq_some_iff.mp h
    obtain ⟨t, ht, h⟩ := Option.bind_eq_some_iff.mp h
    obtain ⟨last, hlast, h⟩ := Option.map_eq_some_iff.mp h
    obtain ⟨rfl, rfl⟩ := Prod.mk.inj h
    obtain ⟨stamped, stored, hstamped, hstore, before, hbefore, htable⟩ := flush_concat ht
    rw [htable, List.getLast?_concat] at hlast
    obtain rfl := Option.some.inj hlast
    refine ⟨?_, ⟨before, hbefore, htable⟩, stamped, links, hlinks, hstore, hstamped⟩
    rw [not_or, Option.not_isSome_iff_eq_none] at hkwargs
    exact hkwargs.1

lemma companyKwargs_of_ne {repo : TenantRepository β} (kwargs : Dict String (Cell β)) {column : String}
    (h : "company_id" ≠ column) : (repo.companyKwargs kwargs).get? column = kwargs.get? column := by
  rw [TenantRepository.companyKwargs]
  split
  · rfl
  · split
    · rw [Dict.get?_set, if_neg h]
    · rfl

lemma construct_company (repo : TenantRepository β) (id : UUID) (kwargs : Dict String (Cell β))
    (hscoped : repo.model.companyScoped = true) {company : Option UUID} (hcompany : repo.companyId = .of company) :
    repo.construct id (repo.companyKwargs kwargs) "company_id" = .ofOption company := by
  rw [TenantRepository.construct, TenantRepository.companyKwargs, hcompany]
  simp only [hscoped, if_true, Dict.get?_set, Option.getD_some]

lemma stampNewRow_of_ne {company : UUID} {row : Row β} {column : String} (h : column ≠ "company_id") :
    stampNewRow model company row column = row column := by
  rw [stampNewRow]
  split
  · exact Function.update_of_ne h _ _
  · rfl

lemma stampNewRow_of_company {company : UUID} {row : Row β} (h : row "company_id" ≠ .null) :
    stampNewRow model company row = row := by
  rw [stampNewRow, if_neg]
  rintro ⟨_, hnull⟩
  exact h (Cell.isNull_iff.mp hnull)

lemma create_bind {repo : TenantRepository β} {active : CompanyRef} {id : UUID} {s s' : Session β}
    {kwargs : Dict String (Cell β)} {row : Row β} (h : repo.create active id s kwargs = some (row, s'))
    {column : String} (hc : column ∈ repo.model.columns) (hne : column ≠ "company_id") :
    ∃ links, repo.model.links (repo.construct id (repo.companyKwargs kwargs)) (repo.companyKwargs kwargs) = some links ∧
      ∃ value, repo.model.bind column value = some (row column) ∧ ((column, value) ∈ links ∨
        (∀ w ∈ links, w.1 ≠ column) ∧ value = repo.construct id (repo.companyKwargs kwargs) column) := by
  obtain ⟨_, _, stamped, links, hlinks, hstore, hstamped⟩ := create_stored h
  have hbind := store_bind hstore hc
  refine ⟨links, hlinks, _, hbind, ?_⟩
  by_cases hlinked : ∃ w ∈ links, w.1 = column
  · obtain ⟨value, hmem, hvalue⟩ := synced_of_linked (o := ⟨stamped, links⟩) hlinked
    exact .inl (hvalue ▸ hmem)
  · push Not at hlinked
    refine .inr ⟨hlinked, (synced_of_unlinked hlinked).trans ?_⟩
    rcases hstamped with rfl | ⟨company, _, rfl⟩
    · rfl
    · exact stampNewRow_of_ne hne

lemma construct_organization {repo : TenantRepository β} {id : UUID} {kwargs : Dict String (Cell β)}
    (h : kwargs.get? "organization_id" = none) : repo.construct id kwargs "organization_id" = .uuid repo.orgId := by
  rw [TenantRepository.construct, h]
  rfl

lemma create_organization {repo : TenantRepository β} {active : CompanyRef} {id : UUID} {s s' : Session β}
    {kwargs : Dict String (Cell β)} {row : Row β} (h : repo.create active id s kwargs = some (row, s'))
    (hlinks : ∀ links, repo.model.links (repo.construct id (repo.companyKwargs kwargs)) (repo.companyKwargs kwargs) =
      some links → ∀ w ∈ links, w.1 = "organization_id" →
        ∀ c, repo.model.bind "organization_id" w.2 = some c → c = .uuid repo.orgId) :
    row "organization_id" = .uuid repo.orgId := by
  obtain ⟨links, hgiven, value, hbind, hvalue⟩ := create_bind h repo.model.tenant (by decide)
  rcases hvalue with hlinked | ⟨_, rfl⟩
  · exact hlinks links hgiven _ hlinked rfl _ hbind
  · rw [construct_organization (create_stored h).1] at hbind
    exact repo.model.bind_uuid _ (by decide) repo.orgId _ hbind

lemma create_company (hscoped : model.companyScoped = true) {c : Create β} {s s' : Session β} {row : Row β}
    (hc : Undisturbed model c) (h : (c.repository model).create c.active c.id s c.kwargs = some (row, s')) :
    row "company_id" = .ofOption c.company := by
  obtain ⟨_, _, stamped, links, hlinks, hstore, hstamped⟩ := create_stored h
  have hcompany := construct_company (c.repository model) c.id c.kwargs hscoped rfl
  have hkeep : stamped "company_id" = .ofOption c.company := by
    rcases hstamped with rfl | ⟨company, hactive, rfl⟩
    · exact hcompany
    · cases hown : c.company with
      | none => exact absurd hactive (hc.unstamped hown company)
      | some own =>
        rw [hown] at hcompany
        rw [stampNewRow_of_company (by rw [hcompany]; simp [Cell.ofOption]), hcompany]
  have hsynced : Pending.synced ⟨stamped, links⟩ "company_id" = .ofOption c.company := by
    by_cases hlinked : ∃ w ∈ links, w.1 = "company_id"
    · obtain ⟨value, hmem, hvalue⟩ := synced_of_linked (o := ⟨stamped, links⟩) hlinked
      exact hvalue.trans ((hc.links links hlinks _ hmem).2 rfl)
    · push Not at hlinked
      exact (synced_of_unlinked hlinked).trans hkeep
  cases hown : c.company with
  | none => exact store_null hstore (model.company hscoped) (by rw [hsynced, hown]; rfl)
  | some own => exact store_uuid hstore (model.company hscoped) (by decide) (by rw [hsynced, hown]; rfl)

lemma step_filed (hscoped : model.companyScoped = true) (s : Filing β) (c : Create β) (t : Filing β)
    (hs : ∀ e ∈ s.created, FiledAndHidden model e.1 e.2 s.session.table) (hc : Undisturbed model c)
    (h : step model s c = some t) : ∀ e ∈ t.created, FiledAndHidden model e.1 e.2 t.session.table := by
  rw [step] at h
  split at h
  · rename_i row session hcreate
    obtain rfl := Option.some.inj h
    obtain ⟨_, ⟨before, _, htable⟩, _⟩ := create_stored hcreate
    have horg := create_organization hcreate (fun links hlinks w hw hwrites cell hbind => by
      rw [(hc.links links hlinks w hw).1 hwrites] at hbind
      exact model.bind_uuid _ (by decide) c.orgId _ hbind)
    have hcompany := create_company hscoped hc hcreate
    intro e he
    rcases List.mem_append.mp he with hold | hnew
    · have hfiled := hs e hold
      refine filedAndHidden hscoped ?_ hfiled.organization hfiled.company
      rw [htable]
      exact List.mem_append_left _ (List.mem_append_left _ hfiled.stored)
    · rw [List.mem_singleton.mp hnew]
      refine filedAndHidden hscoped ?_ horg hcompany
      rw [htable]
      exact List.mem_append_right _ (List.mem_singleton_self row)
  · obtain rfl := Option.some.inj h
    exact hs

theorem rows_stay_where_filed (model : Model β) (hscoped : model.companyScoped = true) (session : Session β)
    (creates : List (Create β)) (s : Filing β) (hrun : Runs.run (step model) ⟨session, []⟩ creates = some s)
    (hundisturbed : Runs.Along (step model) (fun _ c => Undisturbed model c) ⟨session, []⟩ creates) :
    ∀ e ∈ s.created, FiledAndHidden model e.1 e.2 s.session.table :=
  Runs.run_along (step_filed hscoped) (by simp) hundisturbed hrun

def loads : Model UUID where
  columns := keyColumns
  relationships := ["customer"]
  bind _ c :=
    match c with
    | .null => some .null
    | .uuid id => some (.uuid id)
    | .other _ => none
  sync _ value _ :=
    match value with
    | .null => some [("customer_id", .null)]
    | .other customer => some [("customer_id", .uuid customer)]
    | .uuid _ => none
  initial _ := .null
  companyScoped := true
  softDeletes := false
  bind_null _ _ h := (Option.some.inj h).symm
  bind_uuid _ _ _ _ h := (Option.some.inj h).symm
  initial_key _ _ := rfl
  tenant := by decide
  company _ := by decide

theorem company_and_organization_rows_stay :
    ∃ s, Runs.run (step loads) ⟨⟨[], []⟩, []⟩
        [⟨.of (some 7), false, 1, some 9, 100, Dict.empty⟩, ⟨.any, false, 1, none, 101, Dict.empty⟩] = some s ∧
      s.created.length = 2 ∧ ∀ e ∈ s.created, FiledAndHidden loads e.1 e.2 s.session.table := by
  refine ⟨_, rfl, rfl, rows_stay_where_filed loads rfl ⟨[], []⟩
    [⟨.of (some 7), false, 1, some 9, 100, Dict.empty⟩, ⟨.any, false, 1, none, 101, Dict.empty⟩] _ rfl ?_⟩
  refine ⟨⟨by simp, ?_⟩, ?_⟩
  · intro links hlinks
    obtain rfl := Option.some.inj hlinks
    exact fun w hw => absurd hw List.not_mem_nil
  · intro _ _
    refine ⟨⟨by simp, ?_⟩, fun _ _ => trivial⟩
    intro links hlinks
    obtain rfl := Option.some.inj hlinks
    exact fun w hw => absurd hw List.not_mem_nil

def lazyLoad : Statement UUID where
  kind := .select
  isColumnLoad := false
  isRelationshipLoad := true
  criteria := []
  holds _ := true

theorem active_company_takes_organization_row :
    (∃ s, Runs.run (step loads) ⟨⟨[], []⟩, []⟩ [⟨.of (some 9), false, 1, none, 100, Dict.empty⟩] = some s ∧
      ∃ e ∈ s.created, e.2 "company_id" = .uuid 9 ∧ ¬ FiledAndHidden loads e.1 e.2 s.session.table) ∧
    ∃ s, Runs.run (step loads) ⟨⟨[], []⟩, []⟩ [⟨.any, false, 1, some 9, 100, Dict.empty⟩] = some s ∧
      ∃ e ∈ s.created, e.2 ∈ execute loads (.of (some 7)) lazyLoad s.session.table := by
  refine ⟨⟨_, rfl, _, List.mem_cons_self, rfl, ?_⟩, _, rfl, _, List.mem_cons_self, List.mem_cons_self⟩
  intro h
  have hcompany : (.uuid 9 : Cell UUID) = .ofOption none := h.company
  cases hcompany

end TheCargo.Repositories
