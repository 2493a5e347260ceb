import TheCargo.Audit.Payload
import TheCargo.Foundation.Scoped

/-! The context variables of the tasks of a process: the audit context and the active company. -/

namespace TheCargo.Context

open Foundation Foundation.Scoped Audit Db.CompanyScope

-- What is put back when the block is left: the token of `as_company`, the two values of the audit middleware, and
-- nothing where the middleware passes a scope on that is no request.
inductive Block
  | asCompany (previous : CompanyRef)
  | request (previous : AuditContext)
  | passed

def restore : Block → AuditContext → AuditContext
  | .asCompany previous, ctx => { ctx with activeCompany := previous }
  | .request previous, _ => previous
  | .passed, ctx => ctx

inductive Op
  | setAuditContext (ctx : AuditContext)
  | setActiveCompany (company : CompanyRef)
  | asCompany (company : CompanyRef)
  | request (type : String) (ctx : AuditContext)
  | leave
  | createTask

def Op.effect : Op → Scoped.Op AuditContext Block
  | .setAuditContext ctx => .set (fun old => { ctx with activeCompany := old.activeCompany })
  | .setActiveCompany company => .set (fun ctx => { ctx with activeCompany := company })
  | .asCompany company =>
    .enter (fun ctx => .asCompany ctx.activeCompany) (fun ctx => { ctx with activeCompany := company })
  | .request type ctx =>
    if type = "http" then .enter .request (fun _ => { ctx with activeCompany := .any })
    else .enter (fun _ => .passed) id
  | .leave => .leave
  | .createTask => .spawn

abbrev World := Scoped.World AuditContext Block

def ambient : AuditContext := ⟨⟨none, none, none, none, "system"⟩, none, none, none, none, .any⟩

def start : World := [⟨ambient, []⟩]

def onTask (a : ℕ × Op) : ℕ × Scoped.Op AuditContext Block := (a.1, a.2.effect)

def step (w : World) (a : ℕ × Op) : Option World := Scoped.step restore w (onTask a)

/-- The task sets an audit context only where `audit`, inside a request, and a company only where `company`, inside a
request or an `as_company`. -/
inductive Tidy (i : ℕ) : Bool → Bool → List (ℕ × Op) → Prop
  | nil {audit company : Bool} : Tidy i audit company []
  | other {audit company : Bool} {j : ℕ} {op : Op} {as : List (ℕ × Op)} (apart : j ≠ i)
      (rest : Tidy i audit company as) : Tidy i audit company ((j, op) :: as)
  | createTask {audit company : Bool} {as : List (ℕ × Op)} (rest : Tidy i audit company as) :
      Tidy i audit company ((i, .createTask) :: as)
  | setAuditContext {company : Bool} {ctx : AuditContext} {as : List (ℕ × Op)} (rest : Tidy i true company as) :
      Tidy i true company ((i, .setAuditContext ctx) :: as)
  | setActiveCompany {audit : Bool} {id : CompanyRef} {as : List (ℕ × Op)} (rest : Tidy i audit true as) :
      Tidy i audit true ((i, .setActiveCompany id) :: as)
  | asCompany {audit company : Bool} {id : CompanyRef} {body as : List (ℕ × Op)} (inner : Tidy i audit true body)
      (rest : Tidy i audit company as) : Tidy i audit company ((i, .asCompany id) :: (body ++ (i, .leave) :: as))
  | request {audit company : Bool} {ctx : AuditContext} {body as : List (ℕ × Op)} (inner : Tidy i true true body)
      (rest : Tidy i audit company as) : Tidy i audit company ((i, .request "http" ctx) :: (body ++ (i, .leave) :: as))
  | passed {audit company : Bool} {type : String} {ctx : AuditContext} {body as : List (ℕ × Op)}
      (other : type ≠ "http") (inner : Tidy i audit company body) (rest : Tidy i audit company as) :
      Tidy i audit company ((i, .request type ctx) :: (body ++ (i, .leave) :: as))

variable {i : ℕ} {audit company : Bool} {as : List (ℕ × Op)} {w w' : World}

lemma run_onTask : Runs.run step w as = Runs.run (Scoped.step restore) w (as.map onTask) := by
  induction as generalizing w with
  | nil => rfl
  | cons a as ih => exact congrArg _ (funext fun _ => ih)

lemma map_block (op : Op) (body as : List (ℕ × Op)) : ((i, op) :: (body ++ (i, .leave) :: as)).map onTask =
    (i, op.effect) :: (body.map onTask ++ (i, .leave) :: as.map onTask) := by
  rw [List.map_cons, List.map_append, List.map_cons]
  rfl

lemma effect_passed {type : String} {ctx : AuditContext} (h : type ≠ "http") :
    (Op.request type ctx).effect = .enter (fun _ => .passed) id := if_neg h

lemma Tidy.balanced (h : Tidy i audit company as) : Balanced i (as.map onTask) := by
  induction h with
  | nil => exact .nil
  | other apart _ ih => exact .other apart ih
  | createTask _ ih => exact .spawn ih
  | setAuditContext _ ih => exact .set ih
  | setActiveCompany _ ih => exact .set ih
  | asCompany _ _ ihinner ihrest => exact map_block _ _ _ ▸ .block ihinner ihrest
  | request _ _ ihinner ihrest => exact map_block _ _ _ ▸ .block ihinner ihrest
  | passed other _ _ ihinner ihrest =>
    rw [map_block, effect_passed other]
    exact .block ihinner ihrest

def withoutCompany (ctx : AuditContext) : AuditContext := { ctx with activeCompany := .any }

lemma Tidy.keeps_context (h : Tidy i audit company as) (hout : audit = false) :
    Keeps restore withoutCompany i (as.map onTask) := by
  induction h with
  | nil => exact .nil
  | other apart _ ih => exact .other apart (ih hout)
  | createTask _ ih => exact .spawn (ih hout)
  | setAuditContext _ _ => cases hout
  | setActiveCompany _ ih => exact .set (fun _ => rfl) (ih hout)
  | asCompany _ _ ihinner ihrest =>
    exact map_block _ _ _ ▸ .through (fun _ => rfl) (fun _ _ => rfl) (ihinner hout) (ihrest hout)
  | request inner _ _ ihrest => exact map_block _ _ _ ▸ .restored (fun _ _ => rfl) inner.balanced (ihrest hout)
  | passed other _ _ ihinner ihrest =>
    rw [map_block, effect_passed other]
    exact .through (fun _ => rfl) (fun _ _ => rfl) (ihinner hout) (ihrest hout)

lemma Tidy.keeps_company (h : Tidy i audit company as) (hout : company = false) :
    Keeps restore AuditContext.activeCompany i (as.map onTask) := by
  induction h with
  | nil => exact .nil
  | other apart _ ih => exact .other apart (ih hout)
  | createTask _ ih => exact .spawn (ih hout)
  | setAuditContext _ ih => exact .set (fun _ => rfl) (ih hout)
  | setActiveCompany _ _ => cases hout
  | asCompany inner _ _ ihrest =>
    exact map_block _ _ _ ▸ .restored (fun _ _ => rfl) inner.balanced (ihrest hout)
  | request inner _ _ ihrest => exact map_block _ _ _ ▸ .restored (fun _ _ => rfl) inner.balanced (ihrest hout)
  | passed other _ _ ihinner ihrest =>
    rw [map_block, effect_passed other]
    exact .through (fun _ => rfl) (fun _ _ => rfl) (ihinner hout) (ihrest hout)

theorem blocks_leave_context (w w' : World) (as : List (ℕ × Op)) (h : Runs.run step w as = some w') (i : ℕ)
    (ctx : AuditContext) (blocks : List Block) (hi : w[i]? = some ⟨ctx, blocks⟩) (audit company : Bool)
    (ht : Tidy i audit company as) :
    ∃ ctx', w'[i]? = some ⟨ctx', blocks⟩ ∧ (audit = false → withoutCompany ctx' = withoutCompany ctx) ∧
      (company = false → ctx'.activeCompany = ctx.activeCompany) := by
  rw [run_onTask] at h
  obtain ⟨ctx', hctx'⟩ := balanced_blocks ht.balanced hi h
  have hsame : ∀ ctx'', w'[i]? = some ⟨ctx'', blocks⟩ → ctx'' = ctx' := fun ctx'' hctx'' =>
    congrArg Thread.value (Option.some.inj (hctx''.symm.trans hctx'))
  refine ⟨ctx', hctx', fun hout => ?_, fun hout => ?_⟩
  · obtain ⟨ctx'', hctx'', hkept⟩ := keeps_part (ht.keeps_context hout) hi h
    rwa [hsame ctx'' hctx''] at hkept
  · obtain ⟨ctx'', hctx'', hkept⟩ := keeps_part (ht.keeps_company hout) hi h
    rwa [hsame ctx'' hctx''] at hkept

def visitor : AuditContext := ⟨⟨some 7, none, none, none, "user"⟩, some 9, none, none, some 1, .any⟩

-- A task starts another one in a request, where it acts for two companies while the other acts for one of its own; a
-- websocket is passed on around it all.
def twoTasks : List (ℕ × Op) :=
  [(0, .request "websocket" visitor), (0, .asCompany (.of (some 3))), (0, .request "http" visitor),
    (0, .setActiveCompany (.of (some 4))), (0, .createTask), (1, .asCompany (.of none)),
    (0, .asCompany (.of (some 5))), (0, .setAuditContext ambient), (1, .setActiveCompany .any), (0, .leave),
    (0, .leave), (1, .leave), (0, .leave), (0, .leave)]

theorem two_tasks_leave_context : ∃ w ctx', Runs.run step start twoTasks = some w ∧
    w[0]? = some ⟨ctx', []⟩ ∧ (false = false → withoutCompany ctx' = withoutCompany ambient) ∧
      (false = false → ctx'.activeCompany = ambient.activeCompany) := by
  have hr : Runs.run step start twoTasks = some _ := rfl
  have hapart : 1 ≠ 0 := Nat.one_ne_zero
  have hblock : Tidy 0 true true ((twoTasks.drop 3).take 7) :=
    .setActiveCompany (.createTask (.other hapart (.asCompany (.setAuditContext (.other hapart .nil)) .nil)))
  have hcompany : Tidy 0 false true ((twoTasks.drop 2).take 10) := .request hblock (.other hapart .nil)
  have hsocket : Tidy 0 false false ((twoTasks.drop 1).take 12) := .asCompany hcompany .nil
  have htidy : Tidy 0 false false twoTasks := .passed (by decide) hsocket .nil
  obtain ⟨ctx', hkept⟩ := blocks_leave_context start _ twoTasks hr 0 ambient [] rfl false false htidy
  exact ⟨_, ctx', hr, hkept⟩

end TheCargo.Context
