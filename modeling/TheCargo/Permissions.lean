import TheCargo.Foundation.Dict
import Mathlib.Data.List.Perm.Basic

namespace TheCargo.Permissions

open Foundation

def actions : List String := ["view", "create", "update", "delete"]

def noAccess : String := "none"

def resources : List String :=
  ["shipment", "lead", "quote", "order", "customer", "carrier", "task", "notification", "template", "loadboard", "user",
    "team", "role", "contract", "automation", "campaign", "distribution", "provider", "target", "lead_parsing",
    "order_feedback", "payment", "refund", "commission", "payroll", "payment_method", "credit_card", "conversation",
    "sip_credential", "power_dialer", "telephony", "phone_number", "company_info", "audit", "dashboard", "insight",
    "shipment_reason", "tag", "toolbar", "toolbar_note", "toolbar_task", "toolbar_file", "toolbar_contract",
    "toolbar_sms", "toolbar_email", "toolbar_payment", "toolbar_activity", "contact", "wallet", "subscription",
    "analytics", "thecargo_mail", "report", "integrations"]

def phoneOrgType : String := "phone"

def phoneResources : List String :=
  ["contact", "wallet", "subscription", "analytics", "conversation", "template", "campaign", "notification",
    "sip_credential", "power_dialer", "telephony", "phone_number", "tag", "user", "team", "role", "company_info",
    "audit", "thecargo_mail", "integrations"]

def carrierOrgType : String := "carrier"

def carrierResources : List String :=
  ["contact", "wallet", "conversation", "template", "campaign", "notification", "sip_credential", "power_dialer",
    "telephony", "phone_number", "tag", "dashboard", "insight", "analytics", "user", "team", "role", "company_info",
    "audit", "subscription", "thecargo_mail", "integrations"]

def resourcesFor (orgType : Option String) : List String :=
  if orgType = some phoneOrgType then phoneResources
  else if orgType = some carrierOrgType then carrierResources
  else resources

def isKnown (resource action : String) : Bool := resource ∈ resources && action ∈ actions

structure Leaf where
  key : String
  label : String

structure Node where
  key : String
  label : String
  children : Option (List Leaf)

structure Group where
  title : String
  resources : List Node

def leaf (key label : String) : Node := ⟨key, label, none⟩

def groups : List Group :=
  [⟨"SALES",
    [⟨"shipment", "Shipments", some [⟨"lead", "Leads"⟩, ⟨"quote", "Quotes"⟩, ⟨"order", "Orders"⟩]⟩,
      leaf "customer" "Customers", leaf "contract" "Contracts", leaf "tag" "Tags",
      ⟨"toolbar", "Toolbar", some [⟨"toolbar_note", "Notes"⟩, ⟨"toolbar_task", "Tasks"⟩, ⟨"toolbar_file", "Files"⟩,
        ⟨"toolbar_contract", "Contracts"⟩, ⟨"toolbar_sms", "SMS"⟩, ⟨"toolbar_email", "Email"⟩,
        ⟨"toolbar_payment", "Payments"⟩, ⟨"toolbar_activity", "Activity"⟩]⟩,
      leaf "lead_parsing" "Lead Parsing", leaf "order_feedback" "Order Feedback"]⟩,
    ⟨"OPERATIONS",
      [leaf "carrier" "Carriers", leaf "task" "Tasks", leaf "loadboard" "Loadboard", leaf "provider" "Providers",
        leaf "automation" "Automation", leaf "distribution" "Distribution",
        leaf "shipment_reason" "Shipment Reasons"]⟩,
    ⟨"COMMUNICATION",
      [leaf "notification" "Notifications", leaf "template" "Templates", leaf "conversation" "Conversations",
        leaf "campaign" "Campaigns", leaf "sip_credential" "SIP Credentials", leaf "power_dialer" "Power Dialer",
        leaf "telephony" "Telephony", leaf "phone_number" "Phone Numbers", leaf "contact" "Contacts",
        leaf "thecargo_mail" "TheCargo Mail"]⟩,
    ⟨"BILLING",
      [leaf "payment" "Payments", leaf "refund" "Refunds", leaf "commission" "Commission",
        leaf "payroll" "Payroll Runs", leaf "payment_method" "Payment Methods", leaf "credit_card" "Credit Cards",
        leaf "wallet" "Wallet", leaf "subscription" "Subscription"]⟩,
    ⟨"ANALYTICS",
      [leaf "target" "Targets", leaf "dashboard" "Dashboard", leaf "insight" "Insights", leaf "analytics" "Analytics",
        leaf "report" "Order reports"]⟩,
    ⟨"SYSTEM",
      [leaf "user" "Users", leaf "team" "Teams", leaf "role" "Roles", leaf "company_info" "Company Info",
        leaf "integrations" "Integrations", leaf "audit" "Audit"]⟩]

def Node.leaves (node : Node) : List Leaf := node.children.getD []

def Node.lines (node : Node) : List Leaf := ⟨node.key, node.label⟩ :: node.leaves

def Group.lines (group : Group) : List Leaf := group.resources.flatMap Node.lines

def menu : List Leaf := groups.flatMap Group.lines

def uiResourceKeys : List String := menu.map Leaf.key

abbrev Scopes := Dict (String × String) String

structure Row where
  key : String
  label : String
  actions : List (String × String)

structure ShownNode where
  row : Row
  children : Option (List Row)

structure ShownGroup where
  title : String
  resources : List ShownNode

def resourceRow (scopes : Scopes) (node : Leaf) : Row :=
  ⟨node.key, node.label, actions.map (fun action => (action, (scopes.get? (node.key, action)).getD noAccess))⟩

def resourceNode (scopes : Scopes) (node : Node) : ShownNode :=
  ⟨resourceRow scopes ⟨node.key, node.label⟩,
    if node.leaves.isEmpty then none else some (node.leaves.map (resourceRow scopes))⟩

def visibleNode (allowed : List String) (node : Node) : Option Node :=
  let children := node.leaves.filter (fun c => c.key ∈ allowed)
  if node.key ∉ allowed ∧ children.isEmpty then none
  else some (if node.children.isSome then { node with children := some children } else node)

def allowedFor (orgType : Option String) : List String :=
  match orgType with
  | none | some "" => resources
  | some orgType => resourcesFor (some orgType)

def visibleGroup (scopes : Scopes) (allowed : List String) (group : Group) : Option ShownGroup :=
  let nodes := group.resources.filterMap (visibleNode allowed)
  if nodes.isEmpty then none else some ⟨group.title, nodes.map (resourceNode scopes)⟩

def buildPermissionGroups (scopes : Scopes) (orgType : Option String) : List ShownGroup :=
  groups.filterMap (visibleGroup scopes (allowedFor orgType))

def ShownNode.rows (node : ShownNode) : List Row := node.row :: node.children.getD []

def ShownGroup.rows (group : ShownGroup) : List Row := group.resources.flatMap ShownNode.rows

def rows (screen : List ShownGroup) : List Row := screen.flatMap ShownGroup.rows

lemma menu_keys : uiResourceKeys.Nodup := by decide +kernel

lemma mem_uiResourceKeys {r : String} : r ∈ uiResourceKeys ↔ r ∈ resources := by
  have hperm : uiResourceKeys.Perm resources := by decide +kernel
  exact hperm.mem_iff

lemma resourcesFor_cases (orgType : Option String) :
    resourcesFor orgType = phoneResources ∨ resourcesFor orgType = carrierResources ∨
      resourcesFor orgType = resources := by
  rw [resourcesFor]
  split
  · exact .inl rfl
  · split
    · exact .inr (.inl rfl)
    · exact .inr (.inr rfl)

lemma allowedFor_cases (orgType : Option String) :
    allowedFor orgType = phoneResources ∨ allowedFor orgType = carrierResources ∨ allowedFor orgType = resources := by
  rw [allowedFor.eq_def]
  split
  · exact .inr (.inr rfl)
  · exact .inr (.inr rfl)
  · exact resourcesFor_cases _

def Covers (allowed : List String) : Prop :=
  ∀ group ∈ groups, ∀ node ∈ group.resources, ∀ c ∈ node.leaves, c.key ∈ allowed → node.key ∈ allowed

instance (allowed : List String) : Decidable (Covers allowed) :=
  inferInstanceAs (Decidable (∀ group ∈ groups, ∀ node ∈ group.resources, ∀ c ∈ node.leaves, c.key ∈ allowed →
    node.key ∈ allowed))

lemma allowedFor_covers (orgType : Option String) : Covers (allowedFor orgType) := by
  rcases allowedFor_cases orgType with h | h | h <;> rw [h]
  · decide +kernel
  · decide +kernel
  · decide +kernel

lemma allowedFor_canonical (orgType : Option String) : allowedFor orgType ⊆ resources := by
  rcases allowedFor_cases orgType with h | h | h <;> rw [h]
  · decide +kernel
  · decide +kernel
  · exact List.Subset.refl _

variable {scopes : Scopes} {allowed : List String}

lemma rows_resourceNode (node : Node) : (resourceNode scopes node).rows = node.lines.map (resourceRow scopes) := by
  rw [resourceNode, ShownNode.rows, Node.lines, List.map_cons]
  split
  · rename_i hempty
    rw [List.isEmpty_iff.mp hempty]
    rfl
  · rfl

lemma lines_visibleNode {node : Node} (hcovers : ∀ c ∈ node.leaves, c.key ∈ allowed → node.key ∈ allowed) :
    (visibleNode allowed node).elim [] Node.lines = node.lines.filter (fun line => line.key ∈ allowed) := by
  by_cases hkey : node.key ∈ allowed
  · rw [visibleNode, if_neg (fun h => h.1 hkey), Option.elim_some, Node.lines]
    cases hchildren : node.children with
    | none => simp [Node.lines, Node.leaves, hchildren, hkey]
    | some children => simp [Node.lines, Node.leaves, hchildren, hkey]
  · have hnone : node.leaves.filter (fun c => c.key ∈ allowed) = [] :=
      List.filter_eq_nil_iff.mpr (fun c hc hmem => hkey (hcovers c hc (of_decide_eq_true hmem)))
    rw [visibleNode, hnone, if_pos ⟨hkey, rfl⟩, Option.elim_none, Node.lines, List.filter_cons, hnone]
    simp [hkey]

lemma rows_visibleGroup {group : Group}
    (hcovers : ∀ node ∈ group.resources, ∀ c ∈ node.leaves, c.key ∈ allowed → node.key ∈ allowed) :
    (visibleGroup scopes allowed group).elim [] ShownGroup.rows =
      (group.lines.filter (fun line => line.key ∈ allowed)).map (resourceRow scopes) := by
  have hnodes : ∀ nodes : List Node, (∀ node ∈ nodes, ∀ c ∈ node.leaves, c.key ∈ allowed → node.key ∈ allowed) →
      ((nodes.filterMap (visibleNode allowed)).map (resourceNode scopes)).flatMap ShownNode.rows =
        ((nodes.flatMap Node.lines).filter (fun line => line.key ∈ allowed)).map (resourceRow scopes) := by
    intro nodes hnodes
    induction nodes with
    | nil => rfl
    | cons node nodes ih =>
      obtain ⟨hnode, hrest⟩ := List.forall_mem_cons.mp hnodes
      have hlines := lines_visibleNode hnode
      rw [List.flatMap_cons, List.filter_append, List.map_append, ← ih hrest, ← hlines]
      cases hv : visibleNode allowed node with
      | none => rw [List.filterMap_cons_none hv, Option.elim_none, List.map_nil, List.nil_append]
      | some shown =>
        rw [List.filterMap_cons_some hv, List.map_cons, List.flatMap_cons, rows_resourceNode, Option.elim_some]
  rw [Group.lines, ← hnodes group.resources hcovers, visibleGroup]
  split
  · rename_i hempty
    rw [List.isEmpty_iff.mp hempty]
    rfl
  · rfl

lemma rows_groups {gs : List Group}
    (hcovers : ∀ group ∈ gs, ∀ node ∈ group.resources, ∀ c ∈ node.leaves, c.key ∈ allowed → node.key ∈ allowed) :
    rows (gs.filterMap (visibleGroup scopes allowed)) =
      ((gs.flatMap Group.lines).filter (fun line => line.key ∈ allowed)).map (resourceRow scopes) := by
  induction gs with
  | nil => rfl
  | cons group gs ih =>
    obtain ⟨hgroup, hrest⟩ := List.forall_mem_cons.mp hcovers
    rw [List.flatMap_cons, List.filter_append, List.map_append, ← ih hrest, ← rows_visibleGroup hgroup, rows, rows]
    cases hv : visibleGroup scopes allowed group with
    | none => rw [List.filterMap_cons_none hv, Option.elim_none, List.nil_append]
    | some shown => rw [List.filterMap_cons_some hv, List.flatMap_cons, Option.elim_some]

lemma rows_screen (scopes : Scopes) (orgType : Option String) :
    rows (buildPermissionGroups scopes orgType) =
      (menu.filter (fun line => line.key ∈ allowedFor orgType)).map (resourceRow scopes) :=
  rows_groups (allowedFor_covers orgType)

lemma rows_keys (scopes : Scopes) (orgType : Option String) :
    (rows (buildPermissionGroups scopes orgType)).map Row.key =
      uiResourceKeys.filter (fun r => r ∈ allowedFor orgType) := by
  rw [rows_screen, uiResourceKeys, List.map_map, List.filter_map]
  rfl

theorem screen_shows_allowed (scopes : Scopes) (orgType : Option String) :
    let screen := buildPermissionGroups scopes orgType
    rows screen = (menu.filter (fun line => line.key ∈ allowedFor orgType)).map (resourceRow scopes) ∧
      ((rows screen).map Row.key).Nodup ∧
      (∀ r, r ∈ (rows screen).map Row.key ↔ r ∈ allowedFor orgType) ∧
      ∀ group ∈ screen, group.resources ≠ [] := by
  refine ⟨rows_screen scopes orgType, ?_, ?_, ?_⟩
  · rw [rows_keys]
    exact menu_keys.filter _
  · intro r
    rw [rows_keys, List.mem_filter, mem_uiResourceKeys, decide_eq_true_iff, and_iff_right_iff_imp]
    exact fun hr => allowedFor_canonical orgType hr
  · intro group hgroup
    obtain ⟨g, -, hg⟩ := List.mem_filterMap.mp hgroup
    rw [visibleGroup] at hg
    split at hg
    · cases hg
    · rename_i hempty
      cases hg
      simpa using hempty

end TheCargo.Permissions
