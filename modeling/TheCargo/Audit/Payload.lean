import Mathlib.Data.List.Sort
import TheCargo.Audit.Listeners
import TheCargo.Db.CompanyScope
import TheCargo.Foundation.Decimal
import TheCargo.Foundation.Fallible

namespace TheCargo.Audit

open Foundation Models Listeners Db.CompanyScope

-- What an attribute holds. Each `text` is what `str` makes of the value.
inductive Val
  | none
  | noValue
  | str (s : String)
  | uuid (id : UUID)
  | decimal (text : String)
  | enum (text : String) (value : Val)
  | temporal (text iso : String)
  | bytes (text decoded : String)
  | set (text : String) (items : List Val)
  | plain (text : String)

def Val.isNone : Val → Bool
  | .none => true
  | _ => false

def Val.isTemporal : Val → Bool
  | .temporal _ _ => true
  | _ => false

def Val.text : Val → String
  | .none => "None"
  | .noValue => "LoaderCallableStatus.NO_VALUE"
  | .str s => s
  | .uuid id => id.str
  | .decimal text => text
  | .enum text _ => text
  | .temporal text _ => text
  | .bytes text _ => text
  | .set text _ => text
  | .plain text => text

inductive Out
  | of (v : Val)
  | list (items : List Out)

def maxValueLen : ℕ := 5000

def cut (n : ℕ) (s : String) : String := String.ofList (s.toList.take n)

mutual

def jsonify : Val → Out
  | .none => .of .none
  | .noValue => .of (.plain "4")
  | .str s => .of (.str (cut maxValueLen s))
  | .uuid id => .of (.str id.str)
  | .decimal text => .of (.str text)
  | .enum _ value => .of value
  | .temporal _ iso => .of (.str iso)
  | .bytes _ decoded => .of (.str (cut maxValueLen decoded))
  | .set _ items => .list (jsonifyAll items)
  | .plain text => .of (.plain text)

def jsonifyAll : List Val → List Out
  | [] => []
  | v :: vs => jsonify v :: jsonifyAll vs

end

def sensitiveExact : List String := ["password_hash", "password", "token", "secret", "api_key"]

def sensitiveSuffixes : List String := ["_password", "_password_hash", "_token", "_secret", "_api_key"]

def isSensitive (columnKey : String) : Bool :=
  sensitiveExact.contains columnKey || sensitiveSuffixes.any (fun s => s.toList.isSuffixOf columnKey.toList)

/-- `getattr(obj, name, None)`; the load of an attribute may raise. -/
abbrev Attrs := String → Except String Val

-- `mappedAs` is the name of the attribute that a column is mapped under; the audit goes by the keys of the columns.
structure Auditable where
  resource : String
  columns : List String
  mappedAs : String → String := id
  ignore : List String
  significant : List String
  lifecycleField : Option String
  refs : List (String × String)
  targetClass : String → Option String
  label : Attrs → Except String (Option String)
  root : Attrs → Except String (Option (String × Val))

-- An object at a flush; the last two fields are the id and the time that its payload gets.
structure Obj where
  auditable : Bool
  cls : Auditable
  attr : Attrs
  unloaded : String → Bool
  committed : String → Option Val
  auditId : String
  createdAt : String

structure AuditUser where
  id : Option UUID
  email : Option String
  firstName : Option String
  lastName : Option String
  type : String

structure AuditContext where
  user : AuditUser
  organizationId : Option UUID
  ipAddress : Option String
  userAgent : Option String
  requestId : Option UUID
  activeCompany : CompanyRef

structure PendingRef where
  col : String
  relName : String
  targetClass : String
  oldId : Option String
  newId : Option String

structure Transition where
  field : String
  before : Option Out
  after : Option Out

structure UserObj where
  id : Option String
  email : Option String
  firstName : Option String
  lastName : Option String
  type : String

structure Payload where
  auditId : String
  service : String
  organizationId : Option String
  companyId : Option String
  user : UserObj
  resource : String
  resourceId : Option String
  resourceLabel : Option String
  rootResource : String
  rootId : Option String
  action : String
  changedFields : Option (List String)
  significantFields : List String
  lifecycleState : Out
  lifecycleTransition : Option Transition
  oldData : Option (List (String × Out))
  newData : Option (List (String × Out))
  requestId : Option String
  ipAddress : Option String
  userAgent : Option String
  createdAt : String
  pendingRefs : List PendingRef

def snapshotColumns (o : Obj) : List String → Except String (List (String × Out))
  | [] => pure []
  | key :: keys =>
    if o.unloaded key || o.cls.ignore.contains key || isSensitive key then snapshotColumns o keys
    else do
      let value ← o.attr key
      let rest ← snapshotColumns o keys
      pure ((key, jsonify value) :: rest)

def snapshot (o : Obj) : Except String (List (String × Out)) := snapshotColumns o o.cls.columns

-- `eq` is `==` of two values that are not both texts.
variable (eq : Val → Val → Bool)

def equal : Val → Val → Bool
  | .str a, .str b => a = b
  | old, new => eq old new

def valuesEquivalent (old new : Val) : Bool :=
  if old.isNone && new.isNone then true
  else if old.isNone && equal eq new (.str "") then true
  else if new.isNone && equal eq old (.str "") then true
  else if old.isNone || new.isNone then false
  else if equal eq old new then true
  else if old.isTemporal || new.isTemporal then old.text = new.text
  else
    match (Decimal.parse old.text).bind (fun a => (Decimal.parse new.text).bind (fun b => a.eq b)) with
    | some same => same
    | none => old.text = new.text

structure Difference where
  key : String
  old : Out
  new : Out

def diffColumns (o : Obj) : List String → Except String (List Difference)
  | [] => pure []
  | key :: keys =>
    if o.cls.ignore.contains key || isSensitive key then diffColumns o keys
    else
      match o.committed key with
      | none => diffColumns o keys
      | some old => do
        let new ← o.attr key
        if valuesEquivalent eq old new then diffColumns o keys
        else do
          let rest ← diffColumns o keys
          pure (⟨key, jsonify old, jsonify new⟩ :: rest)

def diff (o : Obj) : Except String (List Difference) := diffColumns eq o o.cls.columns

def AuditUser.obj (u : AuditUser) : UserObj := ⟨u.id.map UUID.str, u.email, u.firstName, u.lastName, u.type⟩

def strOrNone (v : Val) : Option String := if v.isNone then none else some v.text

def resolveOrgId (explicit : Val) (ctx : AuditContext) : Option String :=
  if explicit.isNone then ctx.organizationId.map UUID.str else some explicit.text

def resolveCompanyId (ctx : AuditContext) (o : Obj) : Except String (Option String) := do
  let companyId ← o.attr "company_id"
  if companyId.isNone then
    pure (match ctx.activeCompany with | .any => none | .of company => company.map UUID.str)
  else pure (some companyId.text)

def rootOf (o : Obj) (resource : String) (resourceId : Option String) : String × Option String :=
  match o.cls.root o.attr with
  | .ok (some (rootResource, rootId)) => (rootResource, strOrNone rootId)
  | _ => (resource, resourceId)

def significant (o : Obj) (changed : Option (List String)) : List String :=
  ((changed.getD []).filter (fun key => o.cls.significant.contains key)).dedup.insertionSort (fun a b => a ≤ b)

def lifecycleState (o : Obj) : Except String Out :=
  match o.cls.lifecycleField with
  | none => pure (.of .none)
  | some field => if field = "" then pure (.of .none) else do
    let value ← o.attr field
    pure (jsonify value)

def lifecycle (o : Obj) (old new : Option (List (String × Out))) (changed : Option (List String)) : Option Transition :=
  match o.cls.lifecycleField with
  | none => none
  | some field =>
    if field = "" ∨ field ∉ changed.getD [] then none
    else some ⟨field, lookup field (old.getD []), lookup field (new.getD [])⟩

def refId : Val → Option String
  | .noValue => none
  | v => strOrNone v

def pendingRefsOf (o : Obj) (action : String) (changed : Option (List String)) :
    List (String × String) → Except String (List PendingRef)
  | [] => pure []
  | (col, relName) :: refs =>
    if action = "update" ∧ col ∉ changed.getD [] then pendingRefsOf o action changed refs
    else
      match o.cls.targetClass relName with
      | none => pendingRefsOf o action changed refs
      | some targetClass => do
        let value ← o.attr col
        let rest ← pendingRefsOf o action changed refs
        let oldId :=
          if action = "create" then none
          else if action = "delete" then refId value
          else refId ((o.committed col).getD .none)
        let newId := if action = "delete" then none else refId value
        pure (⟨col, relName, targetClass, oldId, newId⟩ :: rest)

def pendingRefs (o : Obj) (action : String) (changed : Option (List String)) : Except String (List PendingRef) :=
  pendingRefsOf o action changed o.cls.refs

variable (serviceName : Option String)

def buildPayload (ctx : AuditContext) (action : String) (o : Obj) (old new : Option (List (String × Out)))
    (changed : Option (List String)) : Except String Payload := do
  let label := match o.cls.label o.attr with | .ok label => label | .error _ => none
  let orgId ← o.attr "organization_id"
  let objId ← o.attr "id"
  let resourceId := strOrNone objId
  let (rootResource, rootId) := rootOf o o.cls.resource resourceId
  let companyId ← resolveCompanyId ctx o
  let state ← lifecycleState o
  let pending ← pendingRefs o action changed
  pure {
    auditId := o.auditId
    service := orElse serviceName "unknown"
    organizationId := resolveOrgId orgId ctx
    companyId := companyId
    user := ctx.user.obj
    resource := o.cls.resource
    resourceId := resourceId
    resourceLabel := (label.filter (fun label => label ≠ "")).map (cut 500)
    rootResource := rootResource
    rootId := rootId
    action := action
    changedFields := changed
    significantFields := significant o changed
    lifecycleState := state
    lifecycleTransition := lifecycle o old new changed
    oldData := old
    newData := new
    requestId := ctx.requestId.map UUID.str
    ipAddress := ctx.ipAddress
    userAgent := (ctx.userAgent.filter (fun agent => agent ≠ "")).map (cut 500)
    createdAt := o.createdAt
    pendingRefs := pending }

def createPayload (ctx : AuditContext) (o : Obj) : Except String Payload := do
  let new ← snapshot o
  buildPayload serviceName ctx "create" o none (some new) none

def updatePayload (ctx : AuditContext) (o : Obj) : Except String Payload := do
  let changes ← diff eq o
  buildPayload serviceName ctx "update" o (some (changes.map (fun d => (d.key, d.old))))
    (some (changes.map (fun d => (d.key, d.new)))) (some (changes.map Difference.key))

def deletePayload (ctx : AuditContext) (o : Obj) : Except String Payload := do
  let old ← snapshot o
  buildPayload serviceName ctx "delete" o (some old) none none

def hooks (ctx : AuditContext) : Hooks Obj Payload where
  isAuditable o := o.auditable
  diffChanged o := do
    let changes ← diff eq o
    pure (!changes.isEmpty)
  buildPayload action o :=
    if action = "create" then createPayload serviceName ctx o
    else if action = "delete" then deletePayload serviceName ctx o
    else updatePayload eq serviceName ctx o

structure Flush where
  ctx : AuditContext
  changes : List (Change Obj)

def staged (flushes : List Flush) : List Payload :=
  flushes.flatMap (fun f => capture (hooks eq serviceName f.ctx) f.changes)

def Payload.bare (p : Payload) : Payload := { p with auditId := "", createdAt := "" }

structure SameButSensitive (o o' : Obj) : Prop where
  auditable : o.auditable = o'.auditable
  cls : o.cls = o'.cls
  attr : ∀ key, isSensitive key = false → o.attr key = o'.attr key
  unloaded : ∀ key, isSensitive key = false → o.unloaded key = o'.unloaded key
  committed : ∀ key, isSensitive key = false → o.committed key = o'.committed key

structure Discreet (cls : Auditable) : Prop where
  lifecycle : ∀ field ∈ cls.lifecycleField, isSensitive field = false
  refs : ∀ ref ∈ cls.refs, isSensitive ref.1 = false
  label : ∀ a b : Attrs, (∀ key, isSensitive key = false → a key = b key) → cls.label a = cls.label b
  root : ∀ a b : Attrs, (∀ key, isSensitive key = false → a key = b key) → cls.root a = cls.root b

def OnlySensitive (o : Obj) : Prop := ∀ key, isSensitive key = false → o.committed key = none

inductive SameChanges : List (Change Obj) → List (Change Obj) → Prop
  | nil : SameChanges [] []
  | both (kind : ChangeKind) {o o' : Obj} {cs cs' : List (Change Obj)} (h : SameButSensitive o o')
      (hrest : SameChanges cs cs') : SameChanges (⟨kind, o⟩ :: cs) (⟨kind, o'⟩ :: cs')
  | left {o : Obj} {cs cs' : List (Change Obj)} (h : OnlySensitive o) (hrest : SameChanges cs cs') :
      SameChanges (⟨.dirty, o⟩ :: cs) cs'
  | right {o : Obj} {cs cs' : List (Change Obj)} (h : OnlySensitive o) (hrest : SameChanges cs cs') :
      SameChanges cs (⟨.dirty, o⟩ :: cs')

def SameFlush (f f' : Flush) : Prop := f.ctx = f'.ctx ∧ SameChanges f.changes f'.changes

variable {eq serviceName} {o o' : Obj}

lemma snapshot_congr (h : SameButSensitive o o') : snapshot o = snapshot o' := by
  have hcolumns (keys : List String) : snapshotColumns o keys = snapshotColumns o' keys := by
    induction keys with
    | nil => rfl
    | cons key keys ih =>
      rw [snapshotColumns, snapshotColumns, h.cls, ih]
      cases hkey : isSensitive key with
      | true => simp
      | false => rw [h.attr key hkey, h.unloaded key hkey]
  rw [snapshot, snapshot, hcolumns, h.cls]

lemma diff_congr (h : SameButSensitive o o') : diff eq o = diff eq o' := by
  have hcolumns (keys : List String) : diffColumns eq o keys = diffColumns eq o' keys := by
    induction keys with
    | nil => rfl
    | cons key keys ih =>
      rw [diffColumns, diffColumns, h.cls, ih]
      cases hkey : isSensitive key with
      | true => simp
      | false => rw [h.attr key hkey, h.committed key hkey]
  rw [diff, diff, hcolumns, h.cls]

lemma diff_onlySensitive (h : OnlySensitive o) : diff eq o = .ok [] := by
  have hcolumns (keys : List String) : diffColumns eq o keys = .ok [] := by
    induction keys with
    | nil => rfl
    | cons key keys ih =>
      rw [diffColumns, ih]
      cases hkey : isSensitive key with
      | true => simp
      | false =>
        rw [h key hkey]
        simp
  exact hcolumns o.cls.columns

lemma pendingRefs_congr (h : SameButSensitive o o') (hd : Discreet o.cls) (action : String)
    (changed : Option (List String)) : pendingRefs o action changed = pendingRefs o' action changed := by
  have hrefs (refs : List (String × String)) (hsub : ∀ ref ∈ refs, isSensitive ref.1 = false) :
      pendingRefsOf o action changed refs = pendingRefsOf o' action changed refs := by
    induction refs with
    | nil => rfl
    | cons ref refs ih =>
      obtain ⟨col, relName⟩ := ref
      obtain ⟨hcol, hrest⟩ := List.forall_mem_cons.mp hsub
      rw [pendingRefsOf, pendingRefsOf, ih hrest, h.cls, h.attr col hcol, h.committed col hcol]
  rw [pendingRefs, pendingRefs, hrefs _ hd.refs, h.cls]

lemma lifecycleState_congr (h : SameButSensitive o o') (hd : Discreet o.cls) :
    lifecycleState o = lifecycleState o' := by
  rw [lifecycleState, lifecycleState, ← h.cls]
  cases hfield : o.cls.lifecycleField with
  | none => rfl
  | some field =>
    dsimp only
    rw [h.attr field (hd.lifecycle field hfield)]

lemma significant_congr (h : SameButSensitive o o') (changed : Option (List String)) :
    significant o changed = significant o' changed := by
  rw [significant, significant, h.cls]

lemma lifecycle_congr (h : SameButSensitive o o') (old new : Option (List (String × Out)))
    (changed : Option (List String)) : lifecycle o old new changed = lifecycle o' old new changed := by
  rw [lifecycle, lifecycle, h.cls]

lemma rootOf_congr (h : SameButSensitive o o') (hd : Discreet o.cls) (resource : String) (resourceId : Option String) :
    rootOf o resource resourceId = rootOf o' resource resourceId := by
  rw [rootOf, rootOf, hd.root o.attr o'.attr h.attr, h.cls]

lemma resolveCompanyId_congr (h : SameButSensitive o o') (ctx : AuditContext) :
    resolveCompanyId ctx o = resolveCompanyId ctx o' := by
  rw [resolveCompanyId, resolveCompanyId, h.attr "company_id" (by decide +kernel)]

lemma buildPayload_congr (h : SameButSensitive o o') (hd : Discreet o.cls) (ctx : AuditContext) (action : String)
    (old new : Option (List (String × Out))) (changed : Option (List String)) :
    (buildPayload serviceName ctx action o old new changed).map Payload.bare =
      (buildPayload serviceName ctx action o' old new changed).map Payload.bare := by
  rw [buildPayload, buildPayload]
  simp only [h.attr "organization_id" (by decide +kernel), h.attr "id" (by decide +kernel),
    rootOf_congr h hd, resolveCompanyId_congr h, lifecycleState_congr h hd, pendingRefs_congr h hd,
    hd.label o.attr o'.attr h.attr, significant_congr h, lifecycle_congr h, map_bind]
  simp only [h.cls]
  rfl

lemma createPayload_congr (h : SameButSensitive o o') (hd : Discreet o.cls) (ctx : AuditContext) :
    (createPayload serviceName ctx o).map Payload.bare = (createPayload serviceName ctx o').map Payload.bare := by
  rw [createPayload, createPayload, map_bind, map_bind, snapshot_congr h]
  exact congrArg _ (funext fun _ => buildPayload_congr h hd ctx _ _ _ _)

lemma updatePayload_congr (h : SameButSensitive o o') (hd : Discreet o.cls) (ctx : AuditContext) :
    (updatePayload eq serviceName ctx o).map Payload.bare = (updatePayload eq serviceName ctx o').map Payload.bare := by
  rw [updatePayload, updatePayload, map_bind, map_bind, diff_congr h]
  exact congrArg _ (funext fun _ => buildPayload_congr h hd ctx _ _ _ _)

lemma deletePayload_congr (h : SameButSensitive o o') (hd : Discreet o.cls) (ctx : AuditContext) :
    (deletePayload serviceName ctx o).map Payload.bare = (deletePayload serviceName ctx o').map Payload.bare := by
  rw [deletePayload, deletePayload, map_bind, map_bind, snapshot_congr h]
  exact congrArg _ (funext fun _ => buildPayload_congr h hd ctx _ _ _ _)

lemma map_some (f : Payload → Payload) (x : Except String Payload) :
    (some <$> x).map (Option.map f) = some <$> x.map f := by
  cases x <;> rfl

lemma captureChange_congr (h : SameButSensitive o o') (hd : o.auditable = true → Discreet o.cls) (ctx : AuditContext)
    (kind : ChangeKind) :
    (captureChange (hooks eq serviceName ctx) ⟨kind, o⟩).map (Option.map Payload.bare) =
      (captureChange (hooks eq serviceName ctx) ⟨kind, o'⟩).map (Option.map Payload.bare) := by
  simp only [captureChange, hooks]
  rw [← h.auditable]
  cases ha : o.auditable with
  | false => rfl
  | true =>
    have hd := hd ha
    cases kind with
    | new => exact (map_some _ _).trans ((congrArg _ (createPayload_congr h hd ctx)).trans (map_some _ _).symm)
    | deleted => exact (map_some _ _).trans ((congrArg _ (deletePayload_congr h hd ctx)).trans (map_some _ _).symm)
    | dirty =>
      have hupdate : (some <$> updatePayload eq serviceName ctx o).map (Option.map Payload.bare) =
          (some <$> updatePayload eq serviceName ctx o').map (Option.map Payload.bare) :=
        (map_some _ _).trans ((congrArg _ (updatePayload_congr h hd ctx)).trans (map_some _ _).symm)
      simp only [if_true, ← diff_congr h]
      cases diff eq o with
      | error e => rfl
      | ok changes =>
        cases changes with
        | nil => rfl
        | cons d ds => exact hupdate

lemma captureChange_onlySensitive (h : OnlySensitive o) (ctx : AuditContext) :
    captureChange (hooks eq serviceName ctx) ⟨.dirty, o⟩ = .ok none := by
  simp only [captureChange, hooks, diff_onlySensitive h]
  cases o.auditable <;> rfl

lemma SameChanges.filter {cs cs' : List (Change Obj)} (h : SameChanges cs cs') (kind : ChangeKind) :
    SameChanges (cs.filter (fun c => c.kind = kind)) (cs'.filter (fun c => c.kind = kind)) := by
  induction h with
  | nil => exact .nil
  | both k hsame _ ih =>
    by_cases hk : k = kind
    · simpa [hk] using SameChanges.both kind hsame ih
    · simpa [hk] using ih
  | left honly _ ih =>
    cases kind with
    | dirty => exact .left honly ih
    | new => exact ih
    | deleted => exact ih
  | right honly _ ih =>
    cases kind with
    | dirty => exact .right honly ih
    | new => exact ih
    | deleted => exact ih

lemma SameChanges.append {cs cs' ds ds' : List (Change Obj)} (h : SameChanges cs cs') (hd : SameChanges ds ds') :
    SameChanges (cs ++ ds) (cs' ++ ds') := by
  induction h with
  | nil => exact hd
  | both kind hsame _ ih => exact .both kind hsame ih
  | left honly _ ih => exact .left honly ih
  | right honly _ ih => exact .right honly ih

lemma captureEach_cons {c c' : Change Obj} {cs cs' : List (Change Obj)} {hooks hooks' : Hooks Obj Payload}
    (hchange : (captureChange hooks c).map (Option.map Payload.bare) =
      (captureChange hooks' c').map (Option.map Payload.bare))
    (hrest : (captureEach hooks cs).map Payload.bare = (captureEach hooks' cs').map Payload.bare) :
    (captureEach hooks (c :: cs)).map Payload.bare = (captureEach hooks' (c' :: cs')).map Payload.bare := by
  rw [captureEach, captureEach]
  cases hc : captureChange hooks c with
  | error e =>
    cases hc' : captureChange hooks' c' with
    | error e' => rfl
    | ok p' => simp [hc, hc', Except.map] at hchange
  | ok p =>
    cases hc' : captureChange hooks' c' with
    | error e' => simp [hc, hc', Except.map] at hchange
    | ok p' =>
      rw [hc, hc'] at hchange
      have hp : p.map Payload.bare = p'.map Payload.bare := Except.ok.inj hchange
      cases p with
      | none =>
        obtain rfl : p' = none := Option.map_eq_none_iff.mp hp.symm
        exact hrest
      | some payload =>
        obtain ⟨payload', rfl, hbare⟩ := Option.map_eq_some_iff.mp hp.symm
        simp only [List.map_cons, hbare, hrest]

lemma captureEach_skip {c : Change Obj} {hooks : Hooks Obj Payload} (cs : List (Change Obj))
    (h : captureChange hooks c = .ok none) : captureEach hooks (c :: cs) = captureEach hooks cs := by
  rw [captureEach, h]

lemma SameChanges.captureEach {cs cs' : List (Change Obj)} (h : SameChanges cs cs')
    (hd : ∀ c ∈ cs, c.obj.auditable = true → Discreet c.obj.cls) (ctx : AuditContext) :
    (Listeners.captureEach (hooks eq serviceName ctx) cs).map Payload.bare =
      (Listeners.captureEach (hooks eq serviceName ctx) cs').map Payload.bare := by
  induction h with
  | nil => rfl
  | both kind hsame _ ih =>
    obtain ⟨ho, hrest⟩ := List.forall_mem_cons.mp hd
    exact captureEach_cons (captureChange_congr hsame ho ctx kind) (ih hrest)
  | left honly _ ih =>
    rw [captureEach_skip _ (captureChange_onlySensitive honly ctx)]
    exact ih (List.forall_mem_cons.mp hd).2
  | right honly _ ih =>
    rw [captureEach_skip _ (captureChange_onlySensitive honly ctx)]
    exact ih hd

lemma SameFlush.capture {f f' : Flush} (h : SameFlush f f')
    (hd : ∀ c ∈ f.changes, c.obj.auditable = true → Discreet c.obj.cls) :
    (Listeners.capture (hooks eq serviceName f.ctx) f.changes).map Payload.bare =
      (Listeners.capture (hooks eq serviceName f'.ctx) f'.changes).map Payload.bare := by
  obtain ⟨hctx, hchanges⟩ := h
  rw [Listeners.capture, Listeners.capture, hctx]
  refine SameChanges.captureEach (((hchanges.filter .new).append (hchanges.filter .dirty)).append
    (hchanges.filter .deleted)) (fun c hc => hd c ?_) f'.ctx
  simp only [List.mem_append, List.mem_filter] at hc
  obtain (⟨hc, _⟩ | ⟨hc, _⟩) | ⟨hc, _⟩ := hc <;> exact hc

def users : Auditable where
  resource := "user"
  columns := ["id", "name", "password_hash"]
  ignore := ["updated_at"]
  significant := ["name"]
  lifecycleField := none
  refs := []
  targetClass := fun _ => none
  label := fun attr => return some (← attr "name").text
  root := fun _ => return none

lemma users_discreet : Discreet users where
  lifecycle := by simp [users]
  refs := by simp [users]
  label a b h := by simp only [users, h "name" (by decide +kernel)]
  root _ _ _ := rfl

def user (passwordHash : String) (committed : String → Option Val) : Obj where
  auditable := true
  cls := users
  attr := fun key =>
    return if key = "name" then .str "Ann" else if key = "password_hash" then .str passwordHash else .none
  unloaded := fun _ => false
  committed := committed
  auditId := passwordHash
  createdAt := "2026-01-01"

def byNobody : AuditContext := ⟨⟨none, none, none, none, "system"⟩, none, none, none, none, .any⟩

lemma ne_passwordHash {key : String} (h : isSensitive key = false) : key ≠ "password_hash" := by
  rintro rfl
  exact absurd h (by decide +kernel)

end TheCargo.Audit
