import TheCargo.Context
import TheCargo.Dependencies.Auth
import TheCargo.JwtOnce

namespace TheCargo.Middleware.AuditMiddleware

open Foundation Models TheCargo.Audit Dependencies

structure Request where
  forwardedFor : Option String
  requestId : Option String
  userAgent : Option String
  authorization : Option String
  client : Option String

/-- What `jwt.decode` raises: a `PyJWTError`, or anything else -/
inductive DecodeError
  | invalid
  | other
  deriving DecidableEq

def getClientIp (request : Request) : Option String :=
  match request.forwardedFor with
  | none => request.client
  | some forwarded =>
    if forwarded = "" then request.client else some (strip ((split "," forwarded).headD ""))

def orNone (s : String) : Option String := if s = "" then none else some s

def words (s : String) : List String :=
  ((s.toList.splitOnP isSpace).filter (fun w => !w.isEmpty)).map String.ofList

-- `repr` is what `str` makes of a claim that is not a text.
variable (repr : Json → String)

def str : Json → String
  | .str s => s
  | value => repr value

def nameOf (value : Json) : Option String := if value.truthy then orNone (strip (str repr value)) else none

/-- The two names of the token; nothing where it raises. -/
def names (payload : Foundation.Payload) : Option (Option String × Option String) :=
  let first := claim payload "first_name"
  let last := claim payload "last_name"
  if first.truthy || last.truthy then some (nameOf repr first, nameOf repr last)
  else
    match claim payload "name" with
    | .str name =>
      match words (strip name) with
      | [] => some (none, none)
      | part :: parts => some (some part, orNone (String.intercalate " " parts))
    | name => if name.truthy then none else some (none, none)

def resolveRequestId (uuid4 : UUID) : Option String → UUID
  | none => uuid4
  | some incoming => if incoming = "" then uuid4 else (UUID.parse incoming).getD uuid4

/-- `auth[7:]` of a bearer token -/
def bearer (authorization : Option String) : Option String :=
  let auth := (authorization.getD "").toList
  if "Bearer ".toList.isPrefixOf auth then some (String.ofList (auth.drop 7)) else none

def text : Json → Option String
  | .str s => some s
  | _ => none

/-- `UUID(value) if value else None`; nothing where it raises. -/
def optionalUuid (value : Json) : Option (Option UUID) :=
  if value.truthy then (uuidOf value).map some else some none

/-- What is set before a claim raises stays set. -/
def identify (payload : Foundation.Payload) (ctx : AuditContext) : AuditContext :=
  match names repr payload with
  | none => ctx
  | some (firstName, lastName) =>
    match optionalUuid (claim payload "user_id") with
    | none => ctx
    | some id =>
      let ctx := { ctx with user := ⟨id, text (claim payload "email"), firstName, lastName, "user"⟩ }
      match optionalUuid (claim payload "org_id") with
      | none => ctx
      | some organizationId => { ctx with organizationId }

def anonymous (uuid4 : UUID) (request : Request) : AuditContext where
  user := Context.ambient.user
  organizationId := none
  ipAddress := getClientIp request
  userAgent := (request.userAgent.bind orNone).map (cut 500)
  requestId := some (resolveRequestId uuid4 request.requestId)
  activeCompany := .any

/-- The context of the request; `decoded` is what `decode_once` returned or raised. -/
def auditContext (uuid4 : UUID) (request : Request) (decoded : Except DecodeError Foundation.Payload) : AuditContext :=
  match bearer request.authorization, decoded with
  | some _, .ok payload => identify repr payload (anonymous uuid4 request)
  | _, _ => anonymous uuid4 request

variable {repr} {payload : Foundation.Payload} {id org : UUID} {value : Json}

lemma uuidOf_truthy (h : uuidOf value = some id) : value.truthy = true ∧ optionalUuid value = some (some id) := by
  have hempty : UUID.parse "" = none := rfl
  have htruthy : value.truthy = true := by
    cases value with
    | str s =>
      have hs : s ≠ "" := by
        rintro rfl
        exact absurd (h.symm.trans hempty) (by simp)
      exact decide_eq_true hs
    | null | bool b | int n | float q | arr xs | obj fields => exact absurd h (by simp [uuidOf])
  exact ⟨htruthy, by rw [optionalUuid, if_pos htruthy, h, Option.map_some]⟩

lemma identify_named (huser : uuidOf (claim payload "user_id") = some id)
    (horg : uuidOf (claim payload "org_id") = some org) (ctx : AuditContext) :
    (names repr payload = none ∧ identify repr payload ctx = ctx) ∨
      ∃ firstName lastName, names repr payload = some (firstName, lastName) ∧
        identify repr payload ctx =
          { ctx with
            user := ⟨some id, text (claim payload "email"), firstName, lastName, "user"⟩
            organizationId := some org } := by
  cases hn : names repr payload with
  | none => exact .inl ⟨rfl, by rw [identify, hn]⟩
  | some named =>
    refine .inr ⟨named.1, named.2, rfl, ?_⟩
    simp only [identify, hn, (uuidOf_truthy huser).2, (uuidOf_truthy horg).2]

end TheCargo.Middleware.AuditMiddleware
