import TheCargo.Dependencies.Mime
import TheCargo.Models.Base

namespace TheCargo.Dependencies

open Foundation Models

def stages : List String := ["lead", "quote", "order"]

def actions : List String := ["view", "create", "update", "delete"]

/-- `SCOPE_MAP.get(ch)`; nothing where it raises. -/
def scopeOf : Json → Option (Option String)
  | .str "a" => some (some "all")
  | .str "o" => some (some "own")
  | .str "t" => some (some "team")
  | .arr _ => none
  | .obj _ => none
  | _ => some none

def chars (s : String) : List Json := s.toList.map (fun c => .str (String.singleton c))

def firstFour : Json → Option (List Json)
  | .str s => some ((chars s).take 4)
  | .arr xs => some (xs.take 4)
  | _ => none

def tuple : Json → Option (List Json)
  | .str s => some (chars s)
  | .arr xs => some xs
  | .obj fields => some (fields.map (fun field => .str field.1))
  | _ => none

/-- `(raw or {}).items()` -/
def itemsOr (raw : Json) : Option (List (String × Json)) :=
  if raw.truthy then
    match raw with
    | .obj fields => some fields
    | _ => none
  else some []

def decodeItems {α β : Type} (f : α → Option β) (items : List (String × α)) : Option (Dict String β) :=
  items.foldlM (fun d item => (f item.2).map (d.set item.1)) Dict.empty

def decodeScopes (scopeStr : Json) : Option (Dict String (Option String)) := do
  let scopes ← firstFour scopeStr
  decodeItems scopeOf (actions.zip scopes)

def decodePermissions : Json → Option (Dict String (Dict String (Option String)))
  | .obj fields => decodeItems decodeScopes fields
  | _ => none

def decodeFilter (stages : Json) : Option (Option (List Json)) :=
  if stages.truthy then (tuple stages).map some else some none

def decodeStageFilters (raw : Json) : Option (Dict String (Dict String (Option (List Json)))) := do
  let resources ← itemsOr raw
  decodeItems (fun ofActions => do decodeItems decodeFilter (← itemsOr ofActions)) resources

structure TokenPayload where
  userId : UUID
  isSuperuser : Bool
  teamId : Option UUID
  permissions : Dict String (Dict String (Option String))
  stageFilters : Dict String (Dict String (Option (List Json)))

def uuidOf : Json → Option UUID
  | .str s => UUID.parse s
  | _ => none

def claim (payload : Payload) (key : String) : Json := (payload.get? key).getD .null

/-- What `get_current_user` makes of the claims the checks read; nothing where it raises. -/
def currentUser (payload : Payload) : Option TokenPayload := do
  let userId ← uuidOf (claim payload "user_id")
  let teamId ← if (claim payload "team_id").truthy then (uuidOf (claim payload "team_id")).map some else some none
  let permissions ← decodePermissions ((payload.get? "p").getD (.obj []))
  let stageFilters ← decodeStageFilters ((payload.get? "ps").getD (.obj []))
  some ⟨userId, (claim payload "is_superuser").truthy, teamId, permissions, stageFilters⟩

structure Scope where
  scope : String
  userId : UUID
  teamId : Option UUID
  allowedStages : Option (List Json)

variable (repr : List Json → String)

def isText (s : String) : Json → Bool
  | .str t => s = t
  | _ => false

def Scope.checkStage (a : Scope) (stage : Option String) : Except HTTPException Unit :=
  match a.allowedStages, stage with
  | none, _ => .ok ()
  | some allowed, none =>
    .error ⟨403, "Stage-restricted role cannot perform cross-stage operation (allowed: " ++ repr allowed ++ ")"⟩
  | some allowed, some stage =>
    if allowed.any (isText stage) then .ok ()
    else .error ⟨403, "Stage '" ++ stage ++ "' not permitted by this role (allowed: " ++ repr allowed ++ ")"⟩

def permission (user : TokenPayload) (resource action : String) : Option String :=
  ((user.permissions.get? resource).bind (fun perm => perm.get? action)).join

def stageFilter (user : TokenPayload) (resource action : String) : Option (List Json) :=
  ((user.stageFilters.get? resource).bind (fun filters => filters.get? action)).join

structure Requires where
  resource : String
  action : String

def Requires.call (r : Requires) (user : TokenPayload) : Except HTTPException Scope :=
  if user.isSuperuser then .ok ⟨"all", user.userId, user.teamId, none⟩
  else
    match permission user r.resource r.action with
    | none => .error ⟨403, "Permission denied"⟩
    | some scope => .ok ⟨scope, user.userId, user.teamId, stageFilter user r.resource r.action⟩

def checkStagePermission (user : TokenPayload) (stage action : String) : Except HTTPException Scope :=
  if user.isSuperuser then .ok ⟨"all", user.userId, user.teamId, none⟩
  else if stage ∉ stages then .error ⟨400, "Invalid stage '" ++ stage ++ "'"⟩
  else
    match permission user stage action with
    | none => .error ⟨403, "No '" ++ action ++ "' permission for stage '" ++ stage ++ "'"⟩
    | some scope => .ok ⟨scope, user.userId, user.teamId, none⟩

structure ChecksAgree (user : TokenPayload) (stage action : String) : Prop where
  grants : (∃ a, Requires.call ⟨stage, action⟩ user = .ok a) ↔ ∃ b, checkStagePermission user stage action = .ok b
  scopes : ∀ a b, Requires.call ⟨stage, action⟩ user = .ok a → checkStagePermission user stage action = .ok b →
    a = b ∧ ∀ later, a.checkStage repr later = b.checkStage repr later

def Scope.unrestricted (a : Scope) : Scope := { a with allowedStages := none }

def Unrestricted (user : TokenPayload) (stage action : String) : Prop :=
  user.isSuperuser = true ∨ stageFilter user stage action = none

variable {repr} {user : TokenPayload} {stage action : String} {a b : Scope} {payload : Payload}

lemma call_cases (h : Requires.call ⟨stage, action⟩ user = .ok a) :
    (user.isSuperuser = true ∧ a = ⟨"all", user.userId, user.teamId, none⟩) ∨
      (user.isSuperuser = false ∧ ∃ scope, permission user stage action = some scope ∧
        a = ⟨scope, user.userId, user.teamId, stageFilter user stage action⟩) := by
  rw [Requires.call] at h
  split at h
  · next hsuper => exact Or.inl ⟨hsuper, (Except.ok.inj h).symm⟩
  · next hsuper =>
    split at h
    · cases h
    · next scope hscope => exact Or.inr ⟨Bool.not_eq_true _ ▸ hsuper, scope, hscope, (Except.ok.inj h).symm⟩

lemma check_of_call (hstage : stage ∈ stages) (h : Requires.call ⟨stage, action⟩ user = .ok a) :
    checkStagePermission user stage action = .ok a.unrestricted := by
  rw [checkStagePermission]
  rcases call_cases h with ⟨hsuper, rfl⟩ | ⟨hsuper, scope, hscope, rfl⟩
  · exact if_pos hsuper
  · rw [if_neg (by simp [hsuper]), if_neg (not_not.mpr hstage), hscope]
    rfl

lemma call_of_check (h : checkStagePermission user stage action = .ok b) :
    ∃ a, Requires.call ⟨stage, action⟩ user = .ok a := by
  rw [checkStagePermission] at h
  split at h
  · next hsuper => exact ⟨_, if_pos hsuper⟩
  · next hsuper =>
    split at h
    · cases h
    · split at h
      · cases h
      · next scope hscope =>
        rw [Requires.call, if_neg hsuper, hscope]
        exact ⟨_, rfl⟩

lemma allowedStages_iff (h : Requires.call ⟨stage, action⟩ user = .ok a) :
    a.allowedStages = none ↔ Unrestricted user stage action := by
  rcases call_cases h with ⟨hsuper, rfl⟩ | ⟨hsuper, scope, _, rfl⟩
  · exact iff_of_true rfl (Or.inl hsuper)
  · simp [Unrestricted, hsuper]

lemma eq_unrestricted_iff (a : Scope) : a = a.unrestricted ↔ a.allowedStages = none :=
  ⟨fun h => congrArg Scope.allowedStages h, fun h => by cases a; cases h; rfl⟩

lemma checkStage_none (a : Scope) : a.checkStage repr none = .ok () ↔ a.allowedStages = none := by
  cases hallowed : a.allowedStages <;> simp [Scope.checkStage, hallowed]

theorem checks_agree_without_stages (repr : List Json → String) (hstage : stage ∈ stages) :
    ∀ user, currentUser payload = some user →
      ((∃ a, Requires.call ⟨stage, action⟩ user = .ok a) ↔ ∃ b, checkStagePermission user stage action = .ok b) ∧
      ∀ a b, Requires.call ⟨stage, action⟩ user = .ok a → checkStagePermission user stage action = .ok b →
        b = a.unrestricted ∧ (a = b ↔ Unrestricted user stage action) ∧
        ((∀ later, a.checkStage repr later = b.checkStage repr later) ↔ Unrestricted user stage action) := by
  intro user _
  refine ⟨⟨fun ⟨a, ha⟩ => ⟨_, check_of_call hstage ha⟩, fun ⟨b, hb⟩ => call_of_check hb⟩, fun a b ha hb => ?_⟩
  obtain rfl := Except.ok.inj (hb.symm.trans (check_of_call hstage ha))
  refine ⟨rfl, (eq_unrestricted_iff a).trans (allowedStages_iff ha), ?_⟩
  rw [← allowedStages_iff ha]
  constructor
  · exact fun h => (checkStage_none a).mp (h none)
  · intro hnone later
    rw [← (eq_unrestricted_iff a).mpr hnone]

def nobody : String := "00000000-0000-0000-0000-000000000000"

def ownLeads : Dict String (Dict String (Option String)) :=
  ⟨[("lead", ⟨[("view", some "own")], by decide⟩)], List.nodup_singleton _⟩

def agent : Payload := ⟨[("user_id", .str nobody), ("p", .obj [("lead", .str "o")])], by decide⟩

theorem checks_agree_for_agent :
    (∃ a, Requires.call ⟨"lead", "view"⟩ ⟨0, false, none, ownLeads, Dict.empty⟩ = .ok a) ↔
      ∃ b, checkStagePermission ⟨0, false, none, ownLeads, Dict.empty⟩ "lead" "view" = .ok b := by
  have huser : currentUser agent = some ⟨0, false, none, ownLeads, Dict.empty⟩ := rfl
  exact (checks_agree_without_stages (fun _ => "") (by decide) _ huser).1

def leadsOnly : Dict String (Dict String (Option (List Json))) :=
  ⟨[("lead", ⟨[("view", some [.str "lead"])], List.nodup_singleton _⟩)], List.nodup_singleton _⟩

def filtered : Payload :=
  ⟨[("user_id", .str nobody), ("p", .obj [("lead", .str "o")]),
    ("ps", .obj [("lead", .obj [("view", .arr [.str "lead"])])])], by decide⟩

theorem checks_disagree_when_filtered :
    currentUser filtered = some ⟨0, false, none, ownLeads, leadsOnly⟩ ∧
      ¬ ChecksAgree (fun _ => "['lead']") ⟨0, false, none, ownLeads, leadsOnly⟩ "lead" "view" := by
  refine ⟨rfl, fun h => ?_⟩
  have heq := (h.scopes _ _ rfl rfl).1
  have hstages := congrArg Scope.allowedStages heq
  cases hstages

end TheCargo.Dependencies
