import Mathlib.Data.List.TakeWhile
import TheCargo.Permissions

namespace TheCargo.RoleTemplates

open Foundation Permissions

abbrev Template := Dict String String

def key (resource action : String) : String := resource ++ "." ++ action

structure Grants where
  resources : List String
  actions : List String
  scope : String

def Grants.items (g : Grants) : List (String × String) :=
  g.resources.flatMap (fun r => g.actions.map (fun a => (key r a, g.scope)))

-- A key that is given again keeps its place and takes the later scope.
def template (grants : List Grants) : Template :=
  (grants.flatMap Grants.items).foldl (fun d e => d.set e.1 e.2) Dict.empty

def toolbarSections : List String :=
  ["toolbar_note", "toolbar_task", "toolbar_file", "toolbar_contract", "toolbar_sms", "toolbar_email",
    "toolbar_payment"]

def superuser : Template := template [⟨resources, actions, "all"⟩]

def manager : Template := template
  [⟨["analytics"], ["view"], "all"⟩,
    ⟨["shipment", "lead", "quote", "order", "customer", "carrier", "task", "contract", "provider", "notification",
      "conversation", "order_feedback", "dashboard", "insight", "payroll", "goal", "target"], ["view"], "all"⟩,
    ⟨["shipment", "lead", "quote", "order", "customer", "task", "contract"], ["create", "update"], "own"⟩,
    ⟨["automation", "distribution", "template"], ["view", "create", "update"], "all"⟩,
    ⟨["tag"], ["view", "create", "update", "delete"], "all"⟩, ⟨["team", "user", "role"], ["view"], "all"⟩,
    ⟨["company_info", "integrations"], ["view", "update"], "all"⟩,
    ⟨["lead_parsing"], ["view", "create", "update"], "all"⟩,
    ⟨toolbarSections, ["view", "create", "update"], "all"⟩, ⟨toolbarSections, ["delete"], "own"⟩,
    ⟨["toolbar_activity"], ["view"], "all"⟩, ⟨["thecargo_mail"], ["create"], "all"⟩,
    ⟨["report"], ["view", "create"], "all"⟩]

def salesAgent : Template := template
  [⟨["analytics"], ["view"], "all"⟩,
    ⟨["lead", "quote", "order", "customer", "task", "contract", "order_feedback"], ["view"], "own"⟩,
    ⟨["lead", "quote", "customer", "task"], ["create"], "all"⟩,
    ⟨["lead", "quote", "customer", "task"], ["update"], "own"⟩, ⟨["carrier", "provider"], ["view"], "all"⟩,
    ⟨["tag"], ["view", "create"], "all"⟩, ⟨["notification", "conversation"], ["view"], "own"⟩,
    ⟨["conversation"], ["create"], "all"⟩, ⟨["dashboard", "goal", "target"], ["view"], "own"⟩,
    ⟨["template"], ["view"], "all"⟩, ⟨toolbarSections, ["create"], "all"⟩,
    ⟨toolbarSections, ["view", "update", "delete"], "own"⟩, ⟨["toolbar_activity"], ["view"], "own"⟩,
    ⟨["thecargo_mail"], ["create"], "all"⟩, ⟨["report"], ["view"], "all"⟩]

def dispatcher : Template := template
  [⟨["analytics", "shipment", "lead", "quote"], ["view"], "all"⟩, ⟨["order"], ["view", "create", "update"], "all"⟩,
    ⟨["order_feedback"], ["view", "create", "update"], "all"⟩, ⟨["customer"], ["view"], "all"⟩,
    ⟨["carrier", "provider", "loadboard", "distribution"], ["view", "create", "update"], "all"⟩,
    ⟨["automation"], ["view"], "all"⟩, ⟨["shipment_reason"], ["view", "create"], "all"⟩,
    ⟨["contract"], ["view"], "all"⟩, ⟨["task"], ["view", "create", "update"], "all"⟩,
    ⟨["notification"], ["view"], "all"⟩, ⟨["conversation"], ["view", "create"], "all"⟩,
    ⟨["template"], ["view"], "all"⟩, ⟨["tag"], ["view", "create"], "all"⟩,
    ⟨["dashboard", "insight", "team", "company_info"], ["view"], "all"⟩,
    ⟨toolbarSections, ["view", "create", "update"], "all"⟩, ⟨toolbarSections, ["delete"], "own"⟩,
    ⟨["toolbar_activity"], ["view"], "all"⟩, ⟨["thecargo_mail"], ["create"], "all"⟩,
    ⟨["report"], ["view", "create"], "all"⟩]

def accountant : Template := template
  [⟨["analytics"], ["view"], "all"⟩, ⟨["payment_method"], actions, "all"⟩, ⟨["credit_card"], actions, "all"⟩,
    ⟨["shipment", "quote", "order", "customer", "contract", "dashboard", "insight", "target"], ["view"], "all"⟩,
    ⟨["notification"], ["view"], "own"⟩, ⟨["company_info", "toolbar_note", "toolbar_file"], ["view"], "all"⟩,
    ⟨["toolbar_payment"], actions, "all"⟩, ⟨["payment", "toolbar_activity"], ["view"], "all"⟩,
    ⟨["thecargo_mail"], ["create"], "all"⟩, ⟨["report"], ["view", "create"], "all"⟩]

def supportAgent : Template := template
  [⟨["analytics"], ["view"], "all"⟩, ⟨["conversation"], ["view", "create", "update"], "all"⟩,
    ⟨["notification"], ["view", "create"], "all"⟩, ⟨["template", "customer"], ["view"], "all"⟩,
    ⟨["customer"], ["update"], "own"⟩, ⟨["shipment", "lead", "quote", "order", "contract"], ["view"], "all"⟩,
    ⟨["task"], ["view", "update"], "own"⟩, ⟨["task"], ["create"], "all"⟩, ⟨["tag"], ["view"], "all"⟩,
    ⟨["dashboard"], ["view"], "own"⟩, ⟨toolbarSections, ["create"], "all"⟩,
    ⟨toolbarSections, ["view", "update", "delete"], "own"⟩, ⟨["toolbar_activity"], ["view"], "own"⟩,
    ⟨["thecargo_mail"], ["create"], "all"⟩, ⟨["report"], ["view", "create"], "all"⟩]

def templates : List (String × Template) :=
  [("Superuser", superuser), ("Manager", manager), ("Sales Agent", salesAgent), ("Dispatcher", dispatcher),
    ("Accountant", accountant), ("Support Agent", supportAgent)]

def onTheLines : List Grants :=
  [⟨["telephony"], ["view", "update"], "all"⟩, ⟨["phone_number"], ["view"], "all"⟩,
    ⟨["contact"], ["view", "create", "update"], "all"⟩]

def appBrokerGrants : List (String × Template) :=
  [("Manager", template (onTheLines ++ [⟨["conversation"], ["create"], "all"⟩])), ("Sales Agent", template onTheLines),
    ("Dispatcher", template onTheLines), ("Support Agent", template onTheLines),
    ("Accountant", template [⟨["contact"], ["view"], "all"⟩])]

def phoneOwner : Template := template [⟨phoneResources, actions, "all"⟩]

def phoneAdmin : Template := template
  [⟨["conversation", "contact", "template", "campaign", "power_dialer", "phone_number", "sip_credential", "tag",
      "user", "team"], actions, "all"⟩,
    ⟨["telephony", "notification", "role", "audit", "analytics", "wallet", "subscription"], ["view"], "all"⟩,
    ⟨["telephony"], ["update"], "all"⟩, ⟨["company_info", "integrations"], ["view", "update"], "all"⟩,
    ⟨["thecargo_mail"], ["create"], "all"⟩]

def phoneAgent : Template := template
  [⟨["telephony"], ["view", "update"], "all"⟩, ⟨["conversation"], ["view"], "own"⟩,
    ⟨["conversation"], ["create"], "all"⟩, ⟨["conversation"], ["update"], "own"⟩,
    ⟨["contact"], ["view", "create"], "all"⟩, ⟨["contact"], ["update"], "own"⟩, ⟨["power_dialer"], ["view"], "own"⟩,
    ⟨["power_dialer"], ["create"], "all"⟩, ⟨["power_dialer"], ["update"], "own"⟩,
    ⟨["phone_number", "template"], ["view"], "all"⟩, ⟨["tag"], ["view", "create"], "all"⟩,
    ⟨["notification", "analytics"], ["view"], "own"⟩, ⟨["team", "company_info"], ["view"], "all"⟩,
    ⟨["thecargo_mail"], ["create"], "all"⟩]

def phoneTemplates : List (String × Template) :=
  [("Owner", phoneOwner), ("Admin", phoneAdmin), ("Agent", phoneAgent)]

def carrierSuperuser : Template := template [⟨carrierResources, actions, "all"⟩]

def carrierManager : Template := template
  [⟨["conversation", "template", "campaign", "power_dialer", "tag"], actions, "all"⟩,
    ⟨["contact"], ["view", "create", "update"], "all"⟩,
    ⟨["telephony", "phone_number", "sip_credential", "notification", "dashboard", "insight", "analytics", "user",
      "team", "role", "company_info"], ["view"], "all"⟩,
    ⟨["telephony"], ["update"], "all"⟩, ⟨["thecargo_mail"], ["create"], "all"⟩]

def carrierOperator : Template := template
  [⟨["telephony"], ["view", "update"], "all"⟩, ⟨["contact"], ["view", "create"], "all"⟩,
    ⟨["conversation"], ["view"], "own"⟩, ⟨["conversation"], ["create"], "all"⟩, ⟨["conversation"], ["update"], "own"⟩,
    ⟨["power_dialer"], ["view"], "own"⟩, ⟨["power_dialer"], ["create"], "all"⟩, ⟨["power_dialer"], ["update"], "own"⟩,
    ⟨["phone_number", "template", "campaign"], ["view"], "all"⟩, ⟨["tag"], ["view", "create"], "all"⟩,
    ⟨["notification", "dashboard", "analytics"], ["view"], "own"⟩, ⟨["team", "company_info"], ["view"], "all"⟩,
    ⟨["thecargo_mail"], ["create"], "all"⟩]

def carrierTemplates : List (String × Template) :=
  [("Superuser", carrierSuperuser), ("Manager", carrierManager), ("Operator", carrierOperator)]

def templatesFor (orgType : Option String) (fromApp : Bool) : List (String × Template) :=
  if orgType = some phoneOrgType then phoneTemplates
  else if orgType = some carrierOrgType then carrierTemplates
  else if fromApp then
    templates.map (fun e => (e.1, e.2.merge ((lookup e.1 appBrokerGrants).getD Dict.empty)))
  else templates

abbrev Nested := Dict String (Dict String (Option String))

/-- `resource, action = key.split(".", 1)`, or nothing where the key has no dot -/
def splitKey (key : String) : Option (String × String) :=
  match key.toList.dropWhile (· ≠ '.') with
  | [] => none
  | _ :: rest => some (String.ofList (key.toList.takeWhile (· ≠ '.')), String.ofList rest)

def same {ν : Type} (v : ν) (keys : List String) : Dict String ν := keys.foldl (fun d k => d.set k v) Dict.empty

def nothingGranted : Nested := same (same none actions) resources

def grant (nested : Nested) (resource action scope : String) : Nested :=
  match nested.get? resource with
  | some row => if (row.get? action).isSome then nested.set resource (row.set action (some scope)) else nested
  | none => nested

def expandInto (nested : Nested) : List (String × String) → Option Nested
  | [] => some nested
  | (key, scope) :: items =>
    (splitKey key).bind (fun (resource, action) => expandInto (grant nested resource action scope) items)

def expandTemplate (template : Template) : Option Nested := expandInto nothingGranted template.items

def cell (nested : Nested) (resource action : String) : Option (Option String) :=
  (nested.get? resource).bind (fun row => row.get? action)

lemma splitKey_key {resource : String} (h : '.' ∉ resource.toList) (action : String) :
    splitKey (key resource action) = some (resource, action) := by
  have hsolid : ∀ c ∈ resource.toList, decide (c ≠ '.') = true := by
    intro c hc
    refine decide_eq_true ?_
    rintro rfl
    exact h hc
  have hlist : (key resource action).toList = resource.toList ++ '.' :: action.toList := by
    rw [key, String.toList_append, String.toList_append, List.append_assoc]
    rfl
  rw [splitKey, hlist, List.dropWhile_append_of_pos hsolid, List.takeWhile_append_of_pos hsolid]
  simp

lemma key_of_splitKey {k resource action : String} (h : splitKey k = some (resource, action)) :
    k = key resource action ∧ '.' ∉ resource.toList := by
  rw [splitKey.eq_def] at h
  split at h
  · cases h
  · rename_i c rest hdrop
    obtain ⟨rfl, rfl⟩ := Prod.mk.inj (Option.some.inj h)
    have hdot : c = '.' := by
      have hhead := List.head?_dropWhile_not (· ≠ '.') k.toList
      rw [hdrop] at hhead
      simpa using hhead
    constructor
    · have hsplit := List.takeWhile_append_dropWhile (p := (· ≠ '.')) (l := k.toList)
      rw [hdrop, hdot] at hsplit
      rw [← String.toList_inj, key]
      simp only [String.toList_append, String.toList_ofList, List.append_assoc]
      exact hsplit.symm
    · rw [String.toList_ofList]
      intro hmem
      simpa using List.mem_takeWhile_imp hmem

lemma dot_mem_key (resource action : String) : '.' ∈ (key resource action).toList := by
  rw [key, String.toList_append, String.toList_append]
  simp

lemma splitKey_eq_none {k : String} : splitKey k = none ↔ '.' ∉ k.toList := by
  rw [splitKey.eq_def]
  split
  · rename_i hdrop
    have hall := List.dropWhile_eq_nil_iff.mp hdrop
    refine ⟨fun _ hmem => ?_, fun _ => rfl⟩
    simpa using hall '.' hmem
  · rename_i c rest hdrop
    refine ⟨fun h => (by cases h), fun h => ?_⟩
    have hnil : k.toList.dropWhile (· ≠ '.') = [] := by
      refine List.dropWhile_eq_nil_iff.mpr (fun d hd => decide_eq_true ?_)
      rintro rfl
      exact h hd
    exact absurd (hdrop.symm.trans hnil) (List.cons_ne_nil _ _)

lemma get?_same {ν : Type} (v : ν) (keys : List String) (k : String) :
    (same v keys).get? k = if k ∈ keys then some v else none := by
  have hfold : ∀ (ks : List String) (d : Dict String ν),
      (ks.foldl (fun d k => d.set k v) d).get? k = if k ∈ ks then some v else d.get? k := by
    intro ks
    induction ks with
    | nil => exact fun d => rfl
    | cons j ks ih =>
      intro d
      rw [List.foldl_cons, ih, Dict.get?_set]
      by_cases hk : k ∈ ks
      · rw [if_pos hk, if_pos (List.mem_cons_of_mem j hk)]
      · by_cases hj : j = k
        · subst hj
          rw [if_neg hk, if_pos rfl, if_pos List.mem_cons_self]
        · have hne : ¬ k ∈ j :: ks := by
            rintro (_ | _)
            · exact hj rfl
            · exact hk ‹_›
          rw [if_neg hk, if_neg hj, if_neg hne]
  exact hfold keys Dict.empty

lemma cell_nothingGranted (resource action : String) :
    cell nothingGranted resource action = if isKnown resource action then some none else none := by
  rw [cell, nothingGranted, get?_same, isKnown]
  by_cases hr : resource ∈ resources
  · rw [if_pos hr, Option.bind_some, get?_same]
    simp [hr]
  · simp [hr]

lemma cell_grant (nested : Nested) (r a scope r' a' : String) :
    cell (grant nested r a scope) r' a' =
      if r = r' ∧ a = a' ∧ (cell nested r a).isSome then some (some scope) else cell nested r' a' := by
  rw [grant.eq_def]
  cases hrow : nested.get? r with
  | none =>
    have hcell : cell nested r a = none := by rw [cell, hrow, Option.bind_none]
    simp [hcell]
  | some row =>
    have hcell : cell nested r a = row.get? a := by rw [cell, hrow, Option.bind_some]
    simp only [hcell]
    by_cases ha : (row.get? a).isSome = true
    · by_cases hr : r = r'
      · subst hr
        rw [if_pos ha, cell, Dict.get?_set, if_pos rfl, Option.bind_some, Dict.get?_set, cell, hrow,
          Option.bind_some]
        simp [ha]
      · rw [if_pos ha, cell, Dict.get?_set, if_neg hr, if_neg (fun h => hr h.1), cell]
    · rw [if_neg ha, if_neg (fun h => ha h.2.2)]

lemma cell_expandInto {items : List (String × String)} (hn : (items.map Prod.fst).Nodup) {nested expanded : Nested}
    (h : expandInto nested items = some expanded) {r : String} (hr : '.' ∉ r.toList) (a : String) :
    cell expanded r a =
      (cell nested r a).map (fun before => (lookup (key r a) items).or before) := by
  induction items generalizing nested with
  | nil =>
    cases h
    simp [lookup]
  | cons e items ih =>
    obtain ⟨k, scope⟩ := e
    obtain ⟨hk, hn⟩ := List.nodup_cons.mp hn
    rw [expandInto, Option.bind_eq_some_iff] at h
    obtain ⟨⟨r', a'⟩, hsplit, h⟩ := h
    obtain ⟨hkey, -⟩ := key_of_splitKey hsplit
    rw [ih hn h, cell_grant, lookup]
    by_cases hsame : k = key r a
    · have hparts : (r', a') = (r, a) := Option.some.inj (hsplit.symm.trans (hsame ▸ splitKey_key hr a))
      obtain ⟨rfl, rfl⟩ := Prod.mk.inj hparts
      rw [if_pos hsame, lookup_eq_none (hsame ▸ hk)]
      cases cell nested r' a' <;> simp
    · have hother : ¬(r' = r ∧ a' = a ∧ (cell nested r' a').isSome = true) := by
        rintro ⟨rfl, rfl, -⟩
        exact hsame hkey
      rw [if_neg hsame, if_neg hother]

lemma expandInto_isSome {items : List (String × String)} (nested : Nested) :
    (expandInto nested items).isSome = true ↔ ∀ e ∈ items, '.' ∈ e.1.toList := by
  induction items generalizing nested with
  | nil => simp [expandInto]
  | cons e items ih =>
    obtain ⟨k, scope⟩ := e
    rw [expandInto, List.forall_mem_cons]
    cases hsplit : splitKey k with
    | none =>
      have hdot := splitKey_eq_none.mp hsplit
      simp [hdot]
    | some parts =>
      have hdot : '.' ∈ k.toList := by
        by_contra hnot
        rw [splitKey_eq_none.mpr hnot] at hsplit
        cases hsplit
      rw [Option.bind_some, ih]
      simp [hdot]

lemma cell_expandInto_none {items : List (String × String)} {nested expanded : Nested}
    (h : expandInto nested items = some expanded) {r a : String} (hnone : cell nested r a = none) :
    cell expanded r a = none := by
  induction items generalizing nested with
  | nil =>
    cases h
    exact hnone
  | cons e items ih =>
    obtain ⟨k, scope⟩ := e
    rw [expandInto, Option.bind_eq_some_iff] at h
    obtain ⟨⟨r', a'⟩, -, h⟩ := h
    refine ih h ?_
    rw [cell_grant, if_neg ?_]
    · exact hnone
    · rintro ⟨rfl, rfl, hsome⟩
      rw [hnone] at hsome
      cases hsome

lemma resources_solid : ∀ r ∈ resources, '.' ∉ r.toList := by decide +kernel

lemma cell_expandTemplate {template : Template} {nested : Nested} (h : expandTemplate template = some nested)
    (r a : String) : cell nested r a = if isKnown r a then some (template.get? (key r a)) else none := by
  have hstart := cell_nothingGranted r a
  by_cases hknown : isKnown r a = true
  · have hr : r ∈ resources := of_decide_eq_true (Bool.and_eq_true_iff.mp hknown).1
    rw [if_pos hknown] at hstart ⊢
    rw [cell_expandInto template.nodup h (resources_solid r hr), hstart, Option.map_some, Option.or_none]
    rfl
  · rw [if_neg hknown] at hstart ⊢
    exact cell_expandInto_none h hstart

def Fits (allowed : List String) (template : Template) : Prop :=
  ∀ e ∈ template.items, e.1 = key "goal" "view" ∨ ∃ r ∈ allowed, ∃ a ∈ Permissions.actions, e.1 = key r a

def Grants.Fits (allowed : List String) (g : Grants) : Prop :=
  (∀ r ∈ g.resources, r = "goal" ∧ g.actions = ["view"] ∨ r ∈ allowed) ∧ ∀ a ∈ g.actions, a ∈ Permissions.actions

lemma mem_template {grants : List Grants} {e : String × String} (h : e ∈ (template grants).items) :
    e ∈ grants.flatMap Grants.items := by
  have hfold : ∀ (items : List (String × String)) (d : Template),
      e ∈ (items.foldl (fun d e => d.set e.1 e.2) d).items → e ∈ d.items ∨ e ∈ items := by
    intro items
    induction items with
    | nil => exact fun d he => .inl he
    | cons f items ih =>
      intro d he
      rcases ih _ he with he | he
      · refine (mem_put he).imp_right ?_
        rintro rfl
        exact List.mem_cons_self
      · exact .inr (List.mem_cons_of_mem f he)
  exact (hfold _ _ h).resolve_left List.not_mem_nil

lemma fits_template {allowed : List String} {grants : List Grants} (h : ∀ g ∈ grants, g.Fits allowed) :
    Fits allowed (template grants) := by
  intro e he
  obtain ⟨g, hg, he⟩ := List.mem_flatMap.mp (mem_template he)
  obtain ⟨r, hr, he⟩ := List.mem_flatMap.mp he
  obtain ⟨a, ha, rfl⟩ := List.mem_map.mp he
  obtain ⟨hresources, hactions⟩ := h g hg
  rcases hresources r hr with ⟨rfl, hview⟩ | hr
  · rw [hview, List.mem_singleton] at ha
    exact .inl (by rw [ha])
  · exact .inr ⟨r, hr, a, hactions a ha, rfl⟩

lemma fits_all (allowed : List String) : Fits allowed (template [⟨allowed, Permissions.actions, "all"⟩]) :=
  fits_template (List.forall_mem_singleton.mpr ⟨fun _ hr => .inr hr, fun _ ha => ha⟩)

lemma templates_fit : ∀ e ∈ templates, Fits resources e.2 := by
  simp only [templates, List.forall_mem_cons, List.not_mem_nil, false_implies, implies_true, and_true]
  refine ⟨fits_all resources, fits_template ?_, fits_template ?_, fits_template ?_, fits_template ?_,
    fits_template ?_⟩ <;>
  · simp only [List.forall_mem_cons, List.not_mem_nil, false_implies, implies_true, and_true, Grants.Fits,
      toolbarSections]
    simp only [resources, Permissions.actions, List.mem_cons, true_or, or_true, and_self, imp_self, implies_true]

lemma appBrokerGrants_fit : ∀ e ∈ appBrokerGrants, Fits resources e.2 := by
  simp only [appBrokerGrants, List.forall_mem_cons, List.not_mem_nil, false_implies, implies_true, and_true]
  refine ⟨fits_template ?_, fits_template ?_, fits_template ?_, fits_template ?_, fits_template ?_⟩ <;>
  · simp only [onTheLines, List.cons_append, List.nil_append, List.forall_mem_cons, List.not_mem_nil, false_implies,
      implies_true, and_true, Grants.Fits]
    simp only [resources, Permissions.actions, List.mem_cons, true_or, or_true, and_self]

lemma phoneTemplates_fit : ∀ e ∈ phoneTemplates, Fits phoneResources e.2 := by
  simp only [phoneTemplates, List.forall_mem_cons, List.not_mem_nil, false_implies, implies_true, and_true]
  refine ⟨fits_all phoneResources, fits_template ?_, fits_template ?_⟩ <;>
  · simp only [List.forall_mem_cons, List.not_mem_nil, false_implies, implies_true, and_true, Grants.Fits]
    simp only [phoneResources, Permissions.actions, List.mem_cons, true_or, or_true, and_self, imp_self, implies_true]

lemma carrierTemplates_fit : ∀ e ∈ carrierTemplates, Fits carrierResources e.2 := by
  simp only [carrierTemplates, List.forall_mem_cons, List.not_mem_nil, false_implies, implies_true, and_true]
  refine ⟨fits_all carrierResources, fits_template ?_, fits_template ?_⟩ <;>
  · simp only [List.forall_mem_cons, List.not_mem_nil, false_implies, implies_true, and_true, Grants.Fits]
    simp only [carrierResources, Permissions.actions, List.mem_cons, true_or, or_true, and_self, imp_self,
      implies_true]

lemma fits_merge {allowed : List String} {t t' : Template} (h : Fits allowed t) (h' : Fits allowed t') :
    Fits allowed (t.merge t') := by
  have hfold : ∀ (items : List (String × String)) (d : Template), Fits allowed d →
      (∀ e ∈ items, e.1 = key "goal" "view" ∨ ∃ r ∈ allowed, ∃ a ∈ Permissions.actions, e.1 = key r a) →
      Fits allowed (items.foldl (fun d e => d.set e.1 e.2) d) := by
    intro items
    induction items with
    | nil => exact fun d hd _ => hd
    | cons f items ih =>
      intro d hd hitems
      obtain ⟨hf, hrest⟩ := List.forall_mem_cons.mp hitems
      refine ih _ (fun e he => ?_) hrest
      rcases mem_put he with he | rfl
      · exact hd e he
      · exact hf
  exact hfold t'.items t h h'

lemma templatesFor_fit (orgType : Option String) (fromApp : Bool) :
    ∀ e ∈ templatesFor orgType fromApp, Fits (allowedFor orgType) e.2 := by
  rw [templatesFor]
  split
  · rename_i hphone
    rw [hphone]
    exact phoneTemplates_fit
  · rename_i hphone
    split
    · rename_i hcarrier
      rw [hcarrier]
      exact carrierTemplates_fit
    · rename_i hcarrier
      have hall : allowedFor orgType = resources := by
        rw [allowedFor.eq_def]
        split
        · rfl
        · rfl
        · rw [resourcesFor, if_neg hphone, if_neg hcarrier]
      rw [hall]
      split
      · intro e he
        obtain ⟨t, ht, rfl⟩ := List.mem_map.mp he
        refine fits_merge (templates_fit t ht) ?_
        cases hgrants : lookup t.1 appBrokerGrants with
        | none => exact List.forall_mem_nil _
        | some grants =>
          have hnames : (appBrokerGrants.map Prod.fst).Nodup := by decide +kernel
          exact appBrokerGrants_fit (t.1, grants) ((mem_iff_lookup hnames).mpr hgrants)
      · exact templates_fit

theorem granted_is_shown (scopes : Scopes) (orgType : Option String) (fromApp : Bool) :
    (∀ template : Template,
      ((expandTemplate template).isSome = true ↔ ∀ e ∈ template.items, '.' ∈ e.1.toList) ∧
      ∀ nested, expandTemplate template = some nested →
        ∀ r a, cell nested r a = if isKnown r a then some (template.get? (key r a)) else none) ∧
    ∀ e ∈ templatesFor orgType fromApp, ∃ nested, expandTemplate e.2 = some nested ∧
      ∀ k scope, e.2.get? k = some scope → k = key "goal" "view" ∨
        ∃ r a, k = key r a ∧ cell nested r a = some (some scope) ∧
          r ∈ (rows (buildPermissionGroups scopes orgType)).map Row.key ∧ a ∈ actions := by
  constructor
  · exact fun template => ⟨expandInto_isSome _, fun nested h => cell_expandTemplate h⟩
  · intro e he
    have hfit := templatesFor_fit orgType fromApp e he
    have hdots : ∀ f ∈ e.2.items, '.' ∈ f.1.toList := by
      intro f hf
      rcases hfit f hf with hgoal | ⟨r, -, a, -, hkey⟩
      · exact hgoal ▸ dot_mem_key "goal" "view"
      · exact hkey ▸ dot_mem_key r a
    obtain ⟨nested, hnested⟩ := Option.isSome_iff_exists.mp ((expandInto_isSome nothingGranted).mpr hdots)
    refine ⟨nested, hnested, fun k scope hk => ?_⟩
    refine (hfit (k, scope) (Dict.mem_items.mpr hk)).imp_right ?_
    rintro ⟨r, hr, a, ha, rfl⟩
    have hknown : isKnown r a = true := by
      rw [isKnown, Bool.and_eq_true]
      exact ⟨decide_eq_true (allowedFor_canonical orgType hr), decide_eq_true ha⟩
    refine ⟨r, a, rfl, ?_, ?_, ha⟩
    · rw [cell_expandTemplate hnested, if_pos hknown, hk]
    · rw [rows_keys, List.mem_filter, mem_uiResourceKeys]
      exact ⟨allowedFor_canonical orgType hr, decide_eq_true hr⟩

end TheCargo.RoleTemplates
