import TheCargo.Repositories.Base

/-! The rows of some customers of an organization, as their portal account reads and writes them. -/

namespace TheCargo.Repositories

open Foundation Models Db.CompanyScope

variable {β : Type*}

structure CustomerScopedRepository (β : Type*) extends TenantRepository β where
  customerIds : List UUID
  customer : "customer_id" ∈ model.columns

namespace CustomerScopedRepository

variable (repo : CustomerScopedRepository β)

def among (row : Row β) : Bool := repo.customerIds.any (fun id => (row "customer_id").isUuid id)

def baseQuery : Statement β :=
  { repo.toTenantRepository.baseQuery with
    holds := fun row => repo.toTenantRepository.baseQuery.holds row && repo.among row }

/-- `customer_id in self.customer_ids`, where `guard` raises otherwise -/
def guard (customerId : Cell β) : Bool := repo.customerIds.any (fun id => customerId.isUuid id)

def create (active : CompanyRef) (id : UUID) (s : Session β) (kwargs : Dict String (Cell β)) :
    Option (Row β × Session β) :=
  match kwargs.get? "customer_id" with
  | none => repo.toTenantRepository.create active id s kwargs
  | some customerId =>
    if customerId.isNull || repo.guard customerId then repo.toTenantRepository.create active id s kwargs else none

inductive Call (β : Type*)
  | create (active : CompanyRef) (id : UUID) (kwargs : Dict String (Cell β))
  | update (i : ℕ) (kwargs : Dict String (Cell β))
  | delete (i : ℕ) (now : β)

/-- The rows the repository has returned, after one call. A call that raises leaves them as they were. -/
def step (rows : List (Row β)) : Call β → Option (List (Row β))
  | .create active id kwargs =>
    match repo.create active id ⟨[], rows⟩ kwargs with
    | some (_, s) => some s.table
    | none => some rows
  | .update i kwargs =>
    match rows[i]? with
    | none => none
    | some row =>
      match repo.update row kwargs with
      | some row => some (rows.set i row)
      | none => some rows
  | .delete i now =>
    match rows[i]? with
    | none => none
    | some row =>
      match repo.delete now row with
      | some (some row) => some (rows.set i row)
      | some none => some (rows.eraseIdx i)
      | none => some rows

structure InScope (row : Row β) : Prop where
  organization : row "organization_id" = .uuid repo.orgId
  customer : ∃ id ∈ repo.customerIds, row "customer_id" = .uuid id

def LinksStay (links : List (String × Cell β)) : Prop :=
  ∀ w ∈ links,
    (w.1 = "organization_id" → ∀ c, repo.model.bind "organization_id" w.2 = some c → c = .uuid repo.orgId) ∧
    (w.1 = "customer_id" → ∀ c, repo.model.bind "customer_id" w.2 = some c → ∃ id ∈ repo.customerIds, c = .uuid id)

/-- A create gives a customer, by its id or as a related object, unless the table refuses a row without one; no call
names, in either way, another organization or a customer beyond the account's. -/
def Stays (rows : List (Row β)) : Call β → Prop
  | .create _ id kwargs =>
    let kwargs := repo.companyKwargs kwargs
    ∀ links, repo.model.links (repo.construct id kwargs) kwargs = some links → repo.LinksStay links ∧
      ((∃ customerId, kwargs.get? "customer_id" = some customerId ∧ customerId ≠ .null) ∨
        (∃ w ∈ links, w.1 = "customer_id") ∨ repo.model.bind "customer_id" .null = none)
  | .update i kwargs =>
    (∀ row ∈ rows[i]?, ∀ links, repo.model.links row kwargs = some links → repo.LinksStay links) ∧
    (∀ v, kwargs.get? "organization_id" = some v →
      ∀ c, repo.model.bind "organization_id" v = some c → c = .uuid repo.orgId) ∧
    ∀ v, kwargs.get? "customer_id" = some v →
      ∀ c, repo.model.bind "customer_id" v = some c → ∃ id ∈ repo.customerIds, c = .uuid id
  | .delete _ _ => True

variable {repo} {row stored : Row β}

lemma inScope_of_baseQuery (h : repo.baseQuery.holds row = true) : repo.InScope row := by
  obtain ⟨hbase, hamong⟩ := (Bool.and_eq_true _ _).mp h
  obtain ⟨id, hid, hcell⟩ := List.any_eq_true.mp hamong
  exact ⟨(baseQuery_tenant hbase).1, id, hid, Cell.isUuid_iff.mp hcell⟩

lemma InScope.store {changed : Row β} (h : repo.InScope row) (horg : changed "organization_id" = row "organization_id")
    (hcustomer : changed "customer_id" = row "customer_id") (hstore : repo.model.store changed = some stored) :
    repo.InScope stored := by
  obtain ⟨id, hid, hrow⟩ := h.customer
  refine ⟨store_uuid hstore repo.model.tenant (by decide) (horg.trans h.organization), id, hid, ?_⟩
  exact store_uuid hstore repo.customer (by decide) (hcustomer.trans hrow)

lemma create_base {active : CompanyRef} {id : UUID} {s s' : Session β} {kwargs : Dict String (Cell β)}
    (h : repo.create active id s kwargs = some (row, s')) :
    repo.toTenantRepository.create active id s kwargs = some (row, s') ∧
      ∀ customerId, kwargs.get? "customer_id" = some customerId → customerId = .null ∨
        ∃ id ∈ repo.customerIds, customerId = .uuid id := by
  rw [create] at h
  split at h
  · rename_i hnone
    refine ⟨h, ?_⟩
    intro customerId hsome
    rw [hnone] at hsome
    exact absurd hsome (by simp)
  · rename_i customerId hcustomer
    split at h
    · rename_i hpass
      refine ⟨h, ?_⟩
      intro customerId' hsome
      obtain rfl := Option.some.inj (hcustomer.symm.trans hsome)
      rcases (Bool.or_eq_true _ _).mp hpass with hnull | hguard
      · exact Or.inl (Cell.isNull_iff.mp hnull)
      · obtain ⟨id, hid, hcell⟩ := List.any_eq_true.mp hguard
        exact Or.inr ⟨id, hid, Cell.isUuid_iff.mp hcell⟩
    · exact absurd h (by simp)

lemma create_inScope {active : CompanyRef} {id : UUID} {rows : List (Row β)} {s s' : Session β}
    {kwargs : Dict String (Cell β)} (hstays : repo.Stays rows (.create active id kwargs))
    (h : repo.create active id s kwargs = some (row, s')) : repo.InScope row := by
  obtain ⟨hbase, hcustomer⟩ := create_base h
  refine ⟨create_organization hbase (fun links hlinks w hw => ((hstays links hlinks).1 w hw).1), ?_⟩
  obtain ⟨links, hlinks, value, hbind, hvalue⟩ := create_bind hbase repo.customer (by decide)
  obtain ⟨hlinksStay, hgives⟩ := hstays links hlinks
  rcases hvalue with hlinked | ⟨hunlinked, rfl⟩
  · exact (hlinksStay _ hlinked).2 rfl _ hbind
  rw [TenantRepository.construct, companyKwargs_of_ne kwargs (by decide)] at hbind
  rw [companyKwargs_of_ne kwargs (by decide)] at hgives
  cases hgiven : kwargs.get? "customer_id" with
  | none =>
    have hnull : repo.model.initial "customer_id" = .null := repo.model.initial_key _ (by decide)
    rw [hgiven, Option.getD_none, if_neg (by decide), if_neg (by decide), hnull] at hbind
    rcases hgives with ⟨customerId, hsome, _⟩ | ⟨w, hw, hwrites⟩ | hrefused
    · rw [hgiven] at hsome
      exact absurd hsome (by simp)
    · exact absurd hwrites (hunlinked w hw)
    · rw [hrefused] at hbind
      exact absurd hbind (by simp)
  | some customerId =>
    rw [hgiven, Option.getD_some] at hbind
    rcases hcustomer customerId hgiven with rfl | ⟨id, hid, rfl⟩
    · rcases hgives with ⟨customerId', hsome, hne⟩ | ⟨w, hw, hwrites⟩ | hrefused
      · exact absurd (Option.some.inj (hsome.symm.trans hgiven)) hne
      · exact absurd hwrites (hunlinked w hw)
      · rw [hrefused] at hbind
        exact absurd hbind (by simp)
    · exact ⟨id, hid, repo.model.bind_uuid _ (by decide) _ _ hbind⟩

lemma delete_inScope {now : β} (h : repo.InScope row) (hdelete : repo.delete now row = some (some stored)) :
    repo.InScope stored := by
  rw [TenantRepository.delete] at hdelete
  split at hdelete
  · obtain ⟨row', hstore, heq⟩ := Option.map_eq_some_iff.mp hdelete
    obtain rfl := Option.some.inj heq
    exact h.store (Function.update_of_ne (by decide) _ _) (Function.update_of_ne (by decide) _ _) hstore
  · exact absurd hdelete (by simp)

lemma update_bind {kwargs : Dict String (Cell β)} {column : String} (hstore : repo.update row kwargs = some stored)
    (hc : column ∈ repo.model.columns) : ∃ links, repo.model.links row kwargs = some links ∧
      ∃ value, repo.model.bind column value = some (stored column) ∧
        ((column, value) ∈ links ∨ value = (kwargs.get? column).getD (row column)) := by
  obtain ⟨links, hlinks, hstore⟩ := Option.bind_eq_some_iff.mp hstore
  refine ⟨links, hlinks, _, store_bind hstore hc, ?_⟩
  by_cases hlinked : ∃ w ∈ links, w.1 = column
  · obtain ⟨value, hmem, hvalue⟩ := synced_of_linked (o := ⟨TenantRepository.assign row kwargs, links⟩) hlinked
    exact .inl (hvalue ▸ hmem)
  · push Not at hlinked
    exact .inr (synced_of_unlinked hlinked)

lemma update_inScope {rows : List (Row β)} {kwargs : Dict String (Cell β)} {i : ℕ} (hrow : rows[i]? = some row)
    (h : repo.InScope row) (hstays : repo.Stays rows (.update i kwargs))
    (hstore : repo.update row kwargs = some stored) : repo.InScope stored := by
  obtain ⟨hlinksStay, horg, hcustomer⟩ := hstays
  constructor
  · obtain ⟨links, hlinks, value, hbind, hlinked | rfl⟩ := update_bind hstore repo.model.tenant
    · exact (hlinksStay row hrow links hlinks _ hlinked).1 rfl _ hbind
    · cases hv : kwargs.get? "organization_id" with
      | none =>
        rw [hv, Option.getD_none, h.organization] at hbind
        exact repo.model.bind_uuid _ (by decide) _ _ hbind
      | some v =>
        rw [hv, Option.getD_some] at hbind
        exact horg v hv _ hbind
  · obtain ⟨links, hlinks, value, hbind, hlinked | rfl⟩ := update_bind hstore repo.customer
    · exact (hlinksStay row hrow links hlinks _ hlinked).2 rfl _ hbind
    · cases hv : kwargs.get? "customer_id" with
      | none =>
        obtain ⟨id, hid, hcell⟩ := h.customer
        rw [hv, Option.getD_none, hcell] at hbind
        exact ⟨id, hid, repo.model.bind_uuid _ (by decide) _ _ hbind⟩
      | some v =>
        rw [hv, Option.getD_some] at hbind
        exact hcustomer v hv _ hbind

-- Nothing else waits to be written in the session of a create.
lemma create_table {active : CompanyRef} {id : UUID} {rows : List (Row β)} {kwargs : Dict String (Cell β)}
    {s : Session β} (h : repo.create active id ⟨[], rows⟩ kwargs = some (row, s)) : s.table = rows ++ [row] := by
  obtain ⟨_, ⟨before, hbefore, htable⟩, _⟩ := create_stored (create_base h).1
  have hnone : before = [] := by
    cases active with
    | any => exact (Option.some.inj hbefore).symm
    | of company => cases company <;> exact (Option.some.inj hbefore).symm
  rw [htable, hnone, List.append_nil]

lemma inScope_set {rows : List (Row β)} (h : ∀ row ∈ rows, repo.InScope row) (hstored : repo.InScope stored) (i : ℕ) :
    ∀ row ∈ rows.set i stored, repo.InScope row := by
  intro row hrow
  rcases List.mem_or_eq_of_mem_set hrow with hold | rfl
  · exact h row hold
  · exact hstored

lemma step_inScope (rows : List (Row β)) (call : Call β) (rows' : List (Row β)) (h : ∀ row ∈ rows, repo.InScope row)
    (hstays : repo.Stays rows call) (hstep : repo.step rows call = some rows') : ∀ row ∈ rows', repo.InScope row := by
  cases call with
  | create active id kwargs =>
    rw [step] at hstep
    split at hstep
    · rename_i created s hcreate
      obtain rfl := Option.some.inj hstep
      intro row hrow
      rw [create_table hcreate] at hrow
      rcases List.mem_append.mp hrow with hold | hnew
      · exact h row hold
      · rw [List.mem_singleton.mp hnew]
        exact create_inScope hstays hcreate
    · obtain rfl := Option.some.inj hstep
      exact h
  | update i kwargs =>
    rw [step] at hstep
    split at hstep
    · exact absurd hstep (by simp)
    · rename_i row hrow
      split at hstep
      · rename_i stored hstore
        obtain rfl := Option.some.inj hstep
        exact inScope_set h (update_inScope hrow (h row (List.mem_of_getElem? hrow)) hstays hstore) i
      · obtain rfl := Option.some.inj hstep
        exact h
  | delete i now =>
    rw [step] at hstep
    split at hstep
    · exact absurd hstep (by simp)
    · rename_i row hrow
      split at hstep
      · rename_i stored hdelete
        obtain rfl := Option.some.inj hstep
        exact inScope_set h (delete_inScope (h row (List.mem_of_getElem? hrow)) hdelete) i
      · obtain rfl := Option.some.inj hstep
        intro row' hrow'
        exact h row' (List.mem_of_mem_eraseIdx hrow')
      · obtain rfl := Option.some.inj hstep
        exact h

theorem rows_stay_in_scope (repo : CustomerScopedRepository β) (returned rows : List (Row β)) (calls : List (Call β))
    (hreturned : ∀ row ∈ returned, repo.baseQuery.holds row = true)
    (hrun : Runs.run repo.step returned calls = some rows)
    (hstays : Runs.Along repo.step repo.Stays returned calls) : ∀ row ∈ rows, repo.InScope row :=
  Runs.run_along step_inScope (fun row hrow => inScope_of_baseQuery (hreturned row hrow)) hstays hrun

def portal : CustomerScopedRepository UUID := ⟨.init loads false (.of none) 1 .activeCompany, [5], by decide⟩

def load : Row UUID := fun column =>
  if column = "id" then .uuid 50
  else if column = "organization_id" then .uuid 1
  else if column = "customer_id" then .uuid 5
  else .null

def names (column : String) (value : Cell UUID) : Dict String (Cell UUID) := Dict.empty.set column value

lemma stays_own (rows : List (Row UUID)) (active : CompanyRef) (id : UUID) (i : ℕ) :
    portal.Stays rows (.create active id (names "customer_id" (.uuid 5))) ∧
      portal.Stays rows (.update i (names "customer" (.other 5))) := by
  refine ⟨?_, ?_, ?_, ?_⟩
  · intro links hlinks
    obtain rfl := Option.some.inj hlinks
    exact ⟨fun w hw => absurd hw List.not_mem_nil, .inl ⟨.uuid 5, rfl, nofun⟩⟩
  · intro row _ links hlinks
    obtain rfl := Option.some.inj hlinks
    intro w hw
    obtain rfl := List.mem_singleton.mp hw
    exact ⟨fun h => absurd h (by decide), fun _ c hc => ⟨5, by decide, (Option.some.inj hc).symm⟩⟩
  · intro v hv
    exact absurd hv nofun
  · intro v hv
    exact absurd hv nofun

theorem own_rows_stay_in_scope :
    ∃ rows, Runs.run portal.step [load]
        [.create (.of none) 51 (names "customer_id" (.uuid 5)), .update 0 (names "customer" (.other 5)),
          .delete 1 0] = some rows ∧
      rows.length = 1 ∧ ∀ row ∈ rows, portal.InScope row := by
  refine ⟨_, rfl, rfl, rows_stay_in_scope portal [load] _
    [.create (.of none) 51 (names "customer_id" (.uuid 5)), .update 0 (names "customer" (.other 5)), .delete 1 0]
    (by decide) rfl ?_⟩
  refine ⟨(stays_own _ (.of none) 51 0).1, fun _ _ => ⟨(stays_own _ (.of none) 51 0).2, fun _ _ => ?_⟩⟩
  exact ⟨trivial, fun _ _ => trivial⟩

theorem portal_writes_outside :
    ∃ created linked updated, Runs.run portal.step [] [.create (.of none) 51 Dict.empty] = some created ∧
      Runs.run portal.step [] [.create (.of none) 51 (names "customer" (.other 6))] = some linked ∧
      Runs.run portal.step [load] [.update 0 (names "customer_id" (.uuid 6))] = some updated ∧
      portal.baseQuery.holds load = true ∧ (∃ row ∈ created, ¬ portal.InScope row) ∧
      (∃ row ∈ linked, row "customer_id" = .uuid 6 ∧ ¬ portal.InScope row) ∧
      ∃ row ∈ updated, row "customer_id" = .uuid 6 ∧ ¬ portal.InScope row := by
  have hother {row : Row UUID} (hrow : row "customer_id" = .uuid 6) : ¬ portal.InScope row := by
    rintro ⟨_, id, hid, hcustomer⟩
    obtain rfl := Cell.uuid.inj (hrow.symm.trans hcustomer)
    exact absurd hid (by decide)
  refine ⟨_, _, _, rfl, rfl, rfl, by decide, ⟨_, List.mem_cons_self, ?_⟩, ⟨_, List.mem_cons_self, rfl, hother rfl⟩,
    _, List.mem_cons_self, rfl, hother rfl⟩
  rintro ⟨_, id, _, hcustomer⟩
  have hnull : (.null : Cell UUID) = .uuid id := hcustomer
  cases hnull

end CustomerScopedRepository

end TheCargo.Repositories
