import TheCargo.Foundation.PyFloat
import TheCargo.Middleware.OrgLimit

/-! Whom a request is let in as, and what the middlewares before it took it for. -/

namespace TheCargo.Dependencies.CurrentUser

open Foundation Models Middleware Middleware.AuditMiddleware

/-- An `HTTPException` whose detail is a text, one whose detail is a code with a message, or anything else raised. -/
inductive Failure
  | http (status : ℕ) (detail : String)
  | coded (status : ℕ) (code message : String)
  | raised
  deriving DecidableEq

structure AccessToken extends TokenPayload where
  orgId : UUID
  roleId : Option UUID
  roleVersion : Json
  sessionId : Json
  tz : Json
  otz : Json
  orgType : Json
  companyId : Option UUID
  userType : Json

def defaultOrgType : String := "broker"

/-- What `get_current_user` makes of the claims; nothing where it raises. -/
def accessToken (payload : Payload) : Option AccessToken := do
  let user ← currentUser payload
  let orgId ← uuidOf (claim payload "org_id")
  let roleId ← optionalUuid (claim payload "role_id")
  let companyId ← optionalUuid (claim payload "cid")
  some {
    user with
    orgId, roleId, companyId
    roleVersion := (payload.get? "rv").getD (.int 0)
    sessionId := claim payload "sid"
    tz := claim payload "tz"
    otz := claim payload "otz"
    orgType := if (claim payload "ot").truthy then claim payload "ot" else .str defaultOrgType
    userType := claim payload "ut"
  }

def allowedOrgTypes (env : String) : List String := ((split "," env).map strip).filter (fun t => t ≠ "")

/-- `user.org_type in allowed`; nothing for a value that does not hash. -/
def orgTypeIn (allowed : List String) : Json → Option Bool
  | .str s => some (s ∈ allowed)
  | .arr _ => none
  | .obj _ => none
  | _ => some false

def enforceOrgType (allowed : List String) (user : AccessToken) : Except Failure Unit :=
  if allowed.isEmpty then .ok ()
  else
    match orgTypeIn allowed user.orgType with
    | none => .error .raised
    | some true => .ok ()
    | some false =>
      .error (.coded 403 "org_type_not_allowed" "This service is not available for your organization type")

def roleVersionKey (roleId : UUID) : String := "role:" ++ roleId.str ++ ":version"

def userRevocationKey (userId : UUID) : String := "user:" ++ userId.str ++ ":revoked_at"

def userStaleKey (userId : UUID) : String := "user:" ++ userId.str ++ ":stale_at"

def activeSessionsKey (userId : UUID) : String := "user:" ++ userId.str ++ ":sids"

def sessionPendingKey (sessionId : String) : String := "session:" ++ sessionId ++ ":pending"

-- What a Redis that answers holds: the strings, and the members of the sorted sets.
structure Redis where
  get : String → Option String
  member : String → String → Bool

structure TokenState where
  revokedAt : Option String
  staleAt : Option String
  sessionMember : Bool
  pending : Option String
  liveRoleVersion : Option String

def decimalDigits (n : ℕ) : Bool → List Char → Option ℕ
  | afterDigit, [] => if afterDigit then some n else none
  | afterDigit, c :: cs =>
    if c = '_' then if afterDigit then decimalDigits n false cs else none
    else if c.isDigit then decimalDigits (10 * n + (c.toNat - '0'.toNat)) true cs
    else none

def intOfText (s : String) : Option ℤ :=
  match (strip s).toList with
  | '-' :: cs => (decimalDigits 0 false cs).map (fun n => -(n : ℤ))
  | '+' :: cs => (decimalDigits 0 false cs).map (fun n => (n : ℤ))
  | cs => (decimalDigits 0 false cs).map (fun n => (n : ℤ))

def intOf : Json → Option ℤ
  | .int n => some n
  | .bool b => some (if b then 1 else 0)
  | .float q => some (PyFloat.trunc q)
  | .str s => intOfText s
  | _ => none

variable (repr : Json → String)

/-- What the client sends for `user.session_id or ""`; it refuses anything but texts and numbers. -/
def sessionArgument (sessionId : Json) : Option String :=
  if sessionId.truthy then
    match sessionId with
    | .str s => some s
    | .int n => some (toString n)
    | .float q => some (repr (.float q))
    | _ => none
  else some ""

/-- Nothing where Redis fails or refuses an argument. -/
def tokenState (redis : Option Redis) (user : AccessToken) (checkRole : Bool) : Option TokenState := do
  let redis ← redis
  let sessionId ← sessionArgument repr user.sessionId
  some {
    revokedAt := redis.get (userRevocationKey user.userId)
    staleAt := redis.get (userStaleKey user.userId)
    sessionMember := redis.member (activeSessionsKey user.userId) sessionId
    pending := redis.get (sessionPendingKey sessionId)
    liveRoleVersion := if checkRole then user.roleId.bind (fun roleId => redis.get (roleVersionKey roleId)) else none
  }

/-- `at is not None and issued_at is not None and int(issued_at) < int(at)`; nothing where it raises. -/
def issuedBefore (issuedAt : Json) (moment : Option String) : Option Bool :=
  match moment, issuedAt with
  | none, _ => some false
  | some _, .null => some false
  | some moment, issuedAt => do some ((← intOf issuedAt) < (← intOfText moment))

def refuseIf (refused : Option Bool) (status : ℕ) (code message : String) : Except Failure Unit :=
  match refused with
  | none => .error .raised
  | some true => .error (.coded status code message)
  | some false => .ok ()

def roleChanged (user : AccessToken) (liveRoleVersion : Option String) : Option Bool :=
  match liveRoleVersion with
  | none => some false
  | some live => do some ((← intOfText live) ≠ (← intOf user.roleVersion))

def enforceTokenState (redis : Option Redis) (user : AccessToken) (issuedAt : Json) : Except Failure Unit :=
  let checkRole := user.roleId.isSome && !user.isSuperuser
  match tokenState repr redis user checkRole with
  | none => .ok ()
  | some state => do
    refuseIf (issuedBefore issuedAt state.revokedAt) 401 "token_revoked" "Session revoked; please sign in again"
    refuseIf (issuedBefore issuedAt state.staleAt) 401 "token_stale"
      "Account access changed; please refresh your session"
    refuseIf (some (user.sessionId.truthy && state.pending.isSome)) 403 "device_approval_pending"
      "Waiting for one of your other devices to approve this sign-in"
    refuseIf (some (user.sessionId.truthy && !state.sessionMember)) 401 "session_superseded"
      "Signed in on another device; this session was closed"
    refuseIf (roleChanged user state.liveRoleVersion) 401 "token_stale"
      "Role permissions changed; please refresh your session"

def isPortal (payload : Payload) : Bool := isText "portal" (claim payload "aud")

def getCurrentUser (allowed : List String) (redis : Option Redis) (decoded : Except DecodeError Payload) :
    Except Failure AccessToken :=
  match decoded with
  | .error .invalid => .error (.http 401 "Invalid token")
  | .error .other => .error .raised
  | .ok payload =>
    if isPortal payload || !isText "access" (claim payload "type") then .error (.http 401 "Invalid token")
    else
      match accessToken payload with
      | none => .error .raised
      | some user => do
        enforceOrgType allowed user
        enforceTokenState repr redis user (claim payload "iat")
        return user

variable {repr} {allowed : List String} {redis : Option Redis} {decoded : Except DecodeError Payload}
  {payload : Payload} {user : AccessToken}

lemma getCurrentUser_ok (h : getCurrentUser repr allowed redis decoded = .ok user) :
    ∃ payload, decoded = .ok payload ∧ accessToken payload = some user := by
  cases decoded with
  | error e => cases e <;> exact absurd h (by simp [getCurrentUser])
  | ok payload =>
    simp only [getCurrentUser] at h
    split at h
    · exact absurd h (by simp)
    · split at h
      · exact absurd h (by simp)
      · rename_i user' huser
        obtain ⟨_, _, h⟩ := bind_ok_iff.mp h
        obtain ⟨_, _, h⟩ := bind_ok_iff.mp h
        exact ⟨payload, rfl, Except.ok.inj h ▸ huser⟩

lemma currentUser_id {base : TokenPayload} (h : currentUser payload = some base) :
    uuidOf (claim payload "user_id") = some base.userId := by
  cases hid : uuidOf (claim payload "user_id") with
  | none => simp [currentUser, hid] at h
  | some id =>
    simp only [currentUser, hid, Option.bind_eq_bind, Option.bind_some] at h
    split at h
    · simp only [Option.bind_eq_some_iff] at h
      obtain ⟨_, _, _, _, _, _, h⟩ := h
      rw [← Option.some.inj h]
    · simp only [Option.bind_eq_some_iff] at h
      obtain ⟨_, _, _, _, h⟩ := h
      rw [← Option.some.inj h]

lemma accessToken_ids (h : accessToken payload = some user) :
    uuidOf (claim payload "user_id") = some user.userId ∧ uuidOf (claim payload "org_id") = some user.orgId := by
  simp only [accessToken, Option.bind_eq_bind, Option.bind_eq_some_iff] at h
  obtain ⟨base, hbase, orgId, horg, roleId, -, companyId, -, hall⟩ := h
  obtain rfl := Option.some.inj hall
  exact ⟨currentUser_id hbase, horg⟩

/-- `credentials` is what `HTTPBearer` takes from the header, also where the scheme is spelled another way. -/
theorem one_request_one_identity (decode : Instant → JwtOnce.Key → Except DecodeError Payload) (repr : Json → String)
    (uuid4 : UUID) (request : Request) (config : OrgLimit.RateLimitConfig) (scope : OrgLimit.Scope)
    (hheader : scope.authorization = request.authorization) (credentials secret : String)
    (hscheme : ∀ token, bearer request.authorization = some token → token = credentials) (reads : List JwtOnce.Read)
    (hreads : ∀ read ∈ reads, read.hasScope = true ∧ ∃ token, read.key = ⟨token, secret, "HS256"⟩ ∧
      (token = credentials ∨ bearer request.authorization = some token))
    (before after : List (JwtOnce.Served DecodeError Payload)) (inside audit limit : JwtOnce.Served DecodeError Payload)
    (hserve : JwtOnce.serve decode none reads = before ++ inside :: after)
    (hearlier : (bearer request.authorization).isSome → audit ∈ before ∧ limit ∈ before)
    (allowed : List String) (redis : Option Redis) (user : AccessToken)
    (huser : getCurrentUser repr allowed redis inside.answer = .ok user) :
    let ctx := auditContext repr uuid4 request audit.answer
    ((ctx.user.type = "user" ∧ ctx.user.id = some user.userId ∧ ctx.organizationId = some user.orgId) ∨
      (ctx = anonymous uuid4 request ∧ (bearer request.authorization = none ∨ audit.failed = true ∨
        ∃ payload, inside.answer = .ok payload ∧ names repr payload = none))) ∧
    ∀ org, OrgLimit.orgOf repr config scope limit.answer = some (some org) → UUID.parse org = some user.orgId := by
  obtain ⟨payload, hinside, haccess⟩ := getCurrentUser_ok huser
  obtain ⟨hid, horg⟩ := accessToken_ids haccess
  have hkey : ∀ read ∈ reads, read.key = ⟨credentials, secret, "HS256"⟩ ∧ read.hasScope = true := by
    intro read hread
    obtain ⟨hscope, token, hkey, rfl | htoken⟩ := hreads read hread
    · exact ⟨hkey, hscope⟩
    · exact ⟨hscheme token htoken ▸ hkey, hscope⟩
  constructor
  · cases hbearer : bearer request.authorization with
    | none => exact .inr ⟨by simp [auditContext, hbearer], .inl rfl⟩
    | some token =>
      have haudit : audit ∈ before := (hearlier (by rw [hbearer]; rfl)).1
      cases hdecoded : audit.answer with
      | error e =>
        exact .inr ⟨by simp [auditContext], .inr (.inl (by simp [JwtOnce.Served.failed, hdecoded, Except.toBool]))⟩
      | ok known =>
        have hsame := JwtOnce.serve_agree hkey hserve haudit hdecoded
        obtain rfl := Except.ok.inj (hsame.symm.trans hinside)
        have hctx : auditContext repr uuid4 request (.ok known) = identify repr known (anonymous uuid4 request) := by
          simp only [auditContext, hbearer]
        rw [hctx]
        rcases identify_named hid horg (anonymous uuid4 request) with ⟨hnames, hsys⟩ | ⟨_, _, -, hnamed⟩
        · exact .inr ⟨hsys, .inr (.inr ⟨known, hinside, hnames⟩)⟩
        · rw [hnamed]
          exact .inl ⟨rfl, rfl, rfl⟩
  · intro org hcharged
    obtain ⟨token, known, hbearer, hlimited, rfl⟩ := OrgLimit.orgOf_charged hcharged
    rw [hheader] at hbearer
    have hlimit : limit ∈ before := (hearlier (by rw [hbearer]; rfl)).2
    have hsame := JwtOnce.serve_agree hkey hserve hlimit hlimited
    obtain rfl := Except.ok.inj (hsame.symm.trans hinside)
    cases horgid : claim known "org_id" with
    | str s =>
      rw [horgid] at horg
      exact horg
    | null | bool b | int n | float q | arr xs | obj fields =>
      rw [horgid] at horg
      exact absurd horg (by simp [uuidOf])

def signedIn : Payload :=
  ⟨[("user_id", .str nobody), ("org_id", .str nobody), ("type", .str "access"), ("p", .obj [("lead", .str "o")])],
    by decide⟩

def bearing : Request := ⟨none, none, none, some "Bearer t", none⟩

def quotes : OrgLimit.Scope := ⟨"http", "/quotes", some "GET", none, some "Bearer t"⟩

def readAt (now : Instant) : JwtOnce.Read := ⟨⟨"t", "s", "HS256"⟩, now, true⟩

def servedAt (now : Instant) (verified : Bool) : JwtOnce.Served DecodeError Payload :=
  ⟨readAt now, .ok signedIn, verified⟩

theorem one_identity_of_signed_in : ∃ user, getCurrentUser (fun _ => "") [] none (.ok signedIn) = .ok user ∧
    let ctx := auditContext (fun _ => "") 5 bearing (.ok signedIn)
    ((ctx.user.type = "user" ∧ ctx.user.id = some user.userId ∧ ctx.organizationId = some user.orgId) ∨
      (ctx = anonymous 5 bearing ∧ (bearer bearing.authorization = none ∨ (servedAt 0 true).failed = true ∨
        ∃ payload, (.ok signedIn : Except DecodeError Payload) = .ok payload ∧ names (fun _ => "") payload = none))) ∧
    ∀ org, OrgLimit.orgOf (fun _ => "") OrgLimit.limited quotes (.ok signedIn) = some (some org) →
      UUID.parse org = some user.orgId := by
  have huser : getCurrentUser (fun _ => "") [] none (.ok signedIn) = .ok _ := rfl
  have hscheme : ∀ token, bearer bearing.authorization = some token → token = "t" :=
    fun _ htoken => (Option.some.inj htoken).symm
  have hreads : ∀ read ∈ [readAt 0, readAt 1, readAt 2], read.hasScope = true ∧ ∃ token,
      read.key = ⟨token, "s", "HS256"⟩ ∧ (token = "t" ∨ bearer bearing.authorization = some token) := by
    simp [readAt]
  exact ⟨_, huser, one_request_one_identity (fun _ _ => .ok signedIn) (fun _ => "") 5 bearing OrgLimit.limited quotes
    rfl "t" "s" hscheme [readAt 0, readAt 1, readAt 2] hreads [servedAt 0 true, servedAt 1 false] []
    (servedAt 2 false) (servedAt 0 true) (servedAt 1 false) rfl (fun _ => ⟨by simp, by simp⟩) [] none _ huser⟩

end TheCargo.Dependencies.CurrentUser
