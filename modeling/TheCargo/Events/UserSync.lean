import TheCargo.Foundation.Redelivery
import TheCargo.Models.UserReplica

/-! The replica of one user, kept by the user events; every event names that user. -/

namespace TheCargo.Events.UserSync

open Foundation Foundation.Redelivery Models

def organizationId (value : Option Json) : Option UUID := value.bind UUID.ofJson

def named (data : Payload) : Assignment UserField := fun field => data.get? field.key

-- An insert leaves out a column that is given as `None`, and `is_active` then has its default.
def filled (data : Payload) : Assignment UserField := fun field =>
  match field, (data.get? field.key).getD .null with
  | .isActive, .null => some (.bool true)
  | _, value => some value

def handleUserCreated (row : Option UserReplica) (data : Payload) :
    Except UserField (Option UserReplica) :=
  match organizationId (data.get? "organization_id") with
  | none => .ok row
  | some organization =>
    match row with
    | some replica => .ok (some replica)
    | none =>
      (userColumns.assign (filled data) (fun _ => .null)).map (fun values => some ⟨organization, values⟩)

def handleUserUpdated (row : Option UserReplica) (data : Payload) :
    Except UserField (Option UserReplica) :=
  match row with
  | none => handleUserCreated none data
  | some replica =>
    (userColumns.assign (named data) replica.values).map (fun values => some { replica with values := values })

def handleUserOrganizationChanged (row : Option UserReplica) (data : Payload) :
    Except UserField (Option UserReplica) :=
  match organizationId (data.get? "from_organization_id"), organizationId (data.get? "to_organization_id") with
  | some left, some joined =>
    .ok (row.map (fun replica =>
      if replica.organizationId = left then { replica with organizationId := joined } else replica))
  | _, _ => .ok row

def handleUserDeleted (_row : Option UserReplica) (_data : Payload) :
    Except UserField (Option UserReplica) :=
  .ok none

inductive RoutingKey
  | userCreated
  | userUpdated
  | userOrganizationChanged
  | userDeleted
  deriving DecidableEq, Repr

def handlers : RoutingKey → Option UserReplica → Payload → Except UserField (Option UserReplica)
  | .userCreated => handleUserCreated
  | .userUpdated => handleUserUpdated
  | .userOrganizationChanged => handleUserOrganizationChanged
  | .userDeleted => handleUserDeleted

structure Event where
  key : RoutingKey
  data : Payload

def dispatch (row : Option UserReplica) (e : Event) : Except UserField (Option UserReplica) :=
  handlers e.key row e.data

def moved (data : Payload) (organization : UUID) : UUID :=
  match organizationId (data.get? "from_organization_id"), organizationId (data.get? "to_organization_id") with
  | some left, some joined => if organization = left then joined else organization
  | _, _ => organization

def adds (data : Payload) : Bool :=
  (organizationId (data.get? "organization_id")).isSome && userColumns.accepts (filled data)

def Event.adds (e : Event) : Bool :=
  match e.key with
  | .userCreated | .userUpdated => UserSync.adds e.data
  | .userOrganizationChanged | .userDeleted => false

def movesCommute (data data' : Payload) : Bool :=
  ([data.get? "from_organization_id", data'.get? "from_organization_id"].filterMap organizationId).all
    (fun left => moved data' (moved data left) = moved data (moved data' left))

/-- Whether `f` may be handled while the earlier `e` is still held. With the replica there, a creation changes nothing,
two updates may not give a field two values, two moves may not depend on each other, and nobody may be added again
after the deletion. Without it, `e` may not be what adds the user, nor change what `f` adds. -/
def clear (row : Option UserReplica) (e f : Event) : Bool :=
  match row with
  | some _ =>
    match e.key, f.key with
    | .userDeleted, _ => false
    | _, .userDeleted => !e.adds
    | .userUpdated, .userUpdated =>
      !userColumns.accepts (named e.data) || !userColumns.accepts (named f.data) ||
        userColumns.agree (named e.data) (named f.data)
    | .userOrganizationChanged, .userOrganizationChanged => movesCommute e.data f.data
    | _, _ => true
  | none =>
    !e.adds && (!f.adds || match e.key with
      | .userCreated => true
      | .userUpdated => !userColumns.accepts (named e.data) || userColumns.agree (named e.data) (filled f.data)
      | .userOrganizationChanged =>
        (organizationId (f.data.get? "organization_id")).all (fun organization =>
          moved e.data organization = organization)
      | .userDeleted => false)

def write (given : Assignment UserField) (replica : UserReplica) : UserReplica :=
  if userColumns.accepts given then { replica with values := userColumns.overlay given replica.values } else replica

def move (data : Payload) (replica : UserReplica) : UserReplica :=
  { replica with organizationId := moved data replica.organizationId }

def added (data : Payload) : Option UserReplica :=
  match organizationId (data.get? "organization_id") with
  | none => none
  | some organization =>
    if userColumns.accepts (filled data) then
      some ⟨organization, userColumns.overlay (filled data) (fun _ => .null)⟩
    else none

@[simp] lemma apply_present_created (replica : UserReplica) (data : Payload) :
    apply dispatch (some replica) ⟨.userCreated, data⟩ = some replica := by
  simp only [apply, dispatch, handlers, handleUserCreated]
  cases organizationId (data.get? "organization_id") <;> rfl

@[simp] lemma apply_absent_created (data : Payload) :
    apply dispatch none ⟨.userCreated, data⟩ = added data := by
  simp only [apply, dispatch, handlers, handleUserCreated, added]
  cases organizationId (data.get? "organization_id") with
  | none => rfl
  | some organization =>
    cases ha : userColumns.accepts (filled data) with
    | true => simp [Columns.assign_of_accepts ha, Except.map]
    | false =>
      obtain ⟨field, hf⟩ := Columns.assign_of_refuses ha (fun _ => .null)
      simp [hf, Except.map]

@[simp] lemma apply_absent_updated (data : Payload) :
    apply dispatch none ⟨.userUpdated, data⟩ = added data :=
  apply_absent_created data

@[simp] lemma apply_present_updated (replica : UserReplica) (data : Payload) :
    apply dispatch (some replica) ⟨.userUpdated, data⟩ = some (write (named data) replica) := by
  simp only [apply, dispatch, handlers, handleUserUpdated, write]
  cases ha : userColumns.accepts (named data) with
  | true => simp [Columns.assign_of_accepts ha, Except.map]
  | false =>
    obtain ⟨field, hf⟩ := Columns.assign_of_refuses ha replica.values
    simp [hf, Except.map]

@[simp] lemma apply_moved (row : Option UserReplica) (data : Payload) :
    apply dispatch row ⟨.userOrganizationChanged, data⟩ = row.map (move data) := by
  simp only [apply, dispatch, handlers, handleUserOrganizationChanged]
  cases row with
  | none =>
    cases organizationId (data.get? "from_organization_id") <;>
      cases organizationId (data.get? "to_organization_id") <;> rfl
  | some replica =>
    simp only [Option.map_some, move, moved]
    cases organizationId (data.get? "from_organization_id") with
    | none => rfl
    | some left =>
      cases organizationId (data.get? "to_organization_id") with
      | none => rfl
      | some joined =>
        by_cases hl : replica.organizationId = left
        · simp only [if_pos hl]
        · simp only [if_neg hl]

@[simp] lemma apply_deleted (row : Option UserReplica) (data : Payload) :
    apply dispatch row ⟨.userDeleted, data⟩ = none := rfl

lemma added_eq_none {data : Payload} (h : adds data = false) : added data = none := by
  simp only [adds, Bool.and_eq_false_iff] at h
  simp only [added]
  cases ho : organizationId (data.get? "organization_id") with
  | none => rfl
  | some organization => simp_all

lemma added_eq_some {data : Payload} (h : adds data = true) :
    ∃ organization, organizationId (data.get? "organization_id") = some organization ∧
      added data = some ⟨organization, userColumns.overlay (filled data) (fun _ => .null)⟩ := by
  simp only [adds, Bool.and_eq_true] at h
  obtain ⟨organization, ho⟩ := Option.isSome_iff_exists.mp h.1
  exact ⟨organization, ho, by simp [added, ho, h.2]⟩

lemma apply_absent {e : Event} (h : e.adds = false) : apply dispatch none e = none := by
  obtain ⟨key, data⟩ := e
  cases key with
  | userCreated => rw [apply_absent_created, added_eq_none h]
  | userUpdated => rw [apply_absent_updated, added_eq_none h]
  | userOrganizationChanged => rw [apply_moved, Option.map_none]
  | userDeleted => rfl

lemma filled_total (data : Payload) (field : UserField) : (filled data field).isSome := by
  simp only [filled]
  split <;> rfl

lemma write_comm {given given' : Assignment UserField}
    (h : userColumns.accepts given = false ∨ userColumns.accepts given' = false ∨
      userColumns.agree given given' = true)
    (replica : UserReplica) :
    write given' (write given replica) = write given (write given' replica) := by
  simp only [write]
  rcases h with h | h | h
  · simp [h]
  · simp [h]
  · cases userColumns.accepts given <;> cases userColumns.accepts given' <;> simp [Columns.overlay_comm h]

lemma moved_comm {data data' : Payload} (h : movesCommute data data' = true) (organization : UUID) :
    moved data' (moved data organization) = moved data (moved data' organization) := by
  have hleft : ∀ value ∈ [data.get? "from_organization_id", data'.get? "from_organization_id"],
      organizationId value = some organization →
        moved data' (moved data organization) = moved data (moved data' organization) := by
    intro value hv ho
    exact of_decide_eq_true (List.all_eq_true.mp h organization (List.mem_filterMap.mpr ⟨value, hv, ho⟩))
  by_cases hl : organizationId (data.get? "from_organization_id") = some organization
  · exact hleft _ (by simp) hl
  · by_cases hl' : organizationId (data'.get? "from_organization_id") = some organization
    · exact hleft _ (by simp) hl'
    · have hstays : ∀ d : Payload, organizationId (d.get? "from_organization_id") ≠ some organization →
          moved d organization = organization := by
        intro d hd
        simp only [moved]
        split
        · rename_i left joined hleft _
          exact if_neg (fun he => hd (hleft.trans (congrArg some he.symm)))
        · rfl
      rw [hstays data hl, hstays data' hl', hstays data hl]

lemma present_stays {replica : UserReplica} {e f : Event} (h : clear (some replica) e f = true) :
    ∃ replica', apply dispatch (some replica) e = some replica' := by
  obtain ⟨key, data⟩ := e
  cases key with
  | userCreated => exact ⟨_, apply_present_created replica data⟩
  | userUpdated => exact ⟨_, apply_present_updated replica data⟩
  | userOrganizationChanged => exact ⟨_, apply_moved (some replica) data⟩
  | userDeleted => exact absurd h (by simp [clear])

lemma absent_stays {e f : Event} (h : clear none e f = true) : e.adds = false := by
  simp only [clear, Bool.and_eq_true, Bool.not_eq_true'] at h
  exact h.1

lemma present_swap {replica : UserReplica} {e f : Event} (h : clear (some replica) e f = true) :
    apply dispatch (apply dispatch (some replica) e) f =
      apply dispatch (apply dispatch (some replica) f) e := by
  obtain ⟨key, data⟩ := e
  obtain ⟨key', data'⟩ := f
  cases key' with
  | userDeleted =>
    have ha : Event.adds ⟨key, data⟩ = false := by
      cases key <;> simp_all [clear]
    rw [apply_deleted, apply_deleted, apply_absent ha]
  | userCreated =>
    cases key with
    | userDeleted => exact absurd h (by simp [clear])
    | _ => simp
  | userUpdated =>
    cases key with
    | userCreated => simp
    | userUpdated =>
      simp only [clear, Bool.or_eq_true, Bool.not_eq_true', or_assoc] at h
      simp only [apply_present_updated, write_comm h]
    | userOrganizationChanged =>
      simp only [apply_present_updated, apply_moved, Option.map_some, move, write]
      split <;> rfl
    | userDeleted => exact absurd h (by simp [clear])
  | userOrganizationChanged =>
    cases key with
    | userCreated => simp
    | userUpdated =>
      simp only [apply_present_updated, apply_moved, Option.map_some, move, write]
      split <;> rfl
    | userOrganizationChanged =>
      simp only [apply_moved, Option.map_some, move, moved_comm h]
    | userDeleted => exact absurd h (by simp [clear])

lemma absent_swap {e f : Event} (h : clear none e f = true) :
    apply dispatch (apply dispatch none e) f = apply dispatch (apply dispatch none f) e := by
  have he := absent_stays h
  rw [apply_absent he]
  by_cases hf : f.adds = true
  · have hadded : ∃ data', f.data = data' ∧ apply dispatch none f = added data' ∧ adds data' = true := by
      obtain ⟨key', data'⟩ := f
      cases key' with
      | userCreated => exact ⟨data', rfl, apply_absent_created data', hf⟩
      | userUpdated => exact ⟨data', rfl, apply_absent_updated data', hf⟩
      | userOrganizationChanged => exact absurd hf (by simp [Event.adds])
      | userDeleted => exact absurd hf (by simp [Event.adds])
    obtain ⟨data', rfl, happ, hadds⟩ := hadded
    obtain ⟨organization, ho, hrow⟩ := added_eq_some hadds
    obtain ⟨key, data⟩ := e
    simp only [clear, he, hf, Bool.not_false, Bool.not_true, Bool.true_and, Bool.false_or] at h
    rw [happ, hrow]
    cases key with
    | userCreated => simp
    | userUpdated =>
      simp only [Bool.or_eq_true, Bool.not_eq_true'] at h
      simp only [apply_present_updated, write]
      rcases h with h | h
      · simp [h]
      · have hfilled : userColumns.accepts (filled f.data) = true := (Bool.and_eq_true _ _ ▸ hadds).2
        have htotal := Columns.overlay_total hfilled (filled_total f.data)
        have hsame : userColumns.overlay (named data) (userColumns.overlay (filled f.data) (fun _ => .null)) =
            userColumns.overlay (filled f.data) (fun _ => .null) := by
          rw [← Columns.overlay_comm h]
          exact htotal _ _
        simp [hsame]
    | userOrganizationChanged =>
      simp only [ho, Option.all_some, decide_eq_true_eq] at h
      simp [move, h]
    | userDeleted => exact absurd h (by simp)
  · rw [Bool.not_eq_true] at hf
    rw [apply_absent hf, apply_absent he]

lemma clear_commutes : Commutes dispatch (fun row e f => clear row e f = true) where
  swap := by
    intro row e f h
    cases row with
    | none => exact absent_swap h
    | some replica => exact present_swap h
  stays := by
    intro row e e' f h h'
    cases row with
    | none =>
      rw [apply_absent (absent_stays h)]
      exact h'
    | some replica =>
      obtain ⟨replica', hr⟩ := present_stays h
      rw [hr]
      exact h'

theorem late_events_converge (row : Option UserReplica) (history : List Event) (ops : List Op)
    (d : Delivery (Option UserReplica) Event)
    (hclear : Runs.Along (Redelivery.step dispatch) (Clears (fun row e f => clear row e f = true))
      (Redelivery.start row history) ops)
    (h : Runs.run (Redelivery.step dispatch) (Redelivery.start row history) ops = some d)
    (hahead : d.ahead = []) (hheld : d.held = []) : d.state = inOrder dispatch row history := by
  have hd := converges clear_commutes hclear h
  rw [Converging, hahead, hheld] at hd
  exact hd

def ofFields (fields : List (String × String)) : Payload :=
  fields.foldl (fun data e => data.set e.1 (.str e.2)) Dict.empty

def hired : Event := ⟨.userCreated, ofFields [("organization_id", "00000000000000000000000000000001"),
  ("email", "dana@example.com"), ("last_name", "Diaz")]⟩

def married : Event := ⟨.userUpdated, ofFields [("last_name", "Ruiz")]⟩

def divorced : Event := ⟨.userUpdated, ofFields [("last_name", "Diaz")]⟩

def moves : Event := ⟨.userOrganizationChanged,
  ofFields [("from_organization_id", "00000000000000000000000000000001"),
    ("to_organization_id", "00000000000000000000000000000002")]⟩

theorem late_update_after_move :
    ∃ d, Runs.run (Redelivery.step dispatch) (Redelivery.start none [hired, married, moves])
        [.first false, .first true, .first false, .again 0] = some d ∧
      d.state.map UserReplica.organizationId = some 2 ∧
      d.state.map (fun replica => replica.values .lastName) = some (.text "Ruiz") ∧
      d.state = inOrder dispatch none [hired, married, moves] := by
  refine ⟨_, rfl, by decide, by decide, ?_⟩
  exact late_events_converge none [hired, married, moves] [.first false, .first true, .first false, .again 0]
    _ (by decide) rfl rfl rfl

theorem late_update_overwrites :
    ∃ d, Runs.run (Redelivery.step dispatch) (Redelivery.start none [hired, married, divorced])
        [.first false, .first true, .first false, .again 0] = some d ∧ d.ahead = [] ∧ d.held = [] ∧
      d.state ≠ inOrder dispatch none [hired, married, divorced] := by
  refine ⟨_, rfl, rfl, rfl, ?_⟩
  intro h
  have hname := congrArg (fun row : Option UserReplica => row.map (fun replica => replica.values .lastName)) h
  exact absurd hname (by decide)

end TheCargo.Events.UserSync
