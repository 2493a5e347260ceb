import TheCargo.Events.UserFrame
import TheCargo.Foundation.CatchUp

/-! The users a service fetches when it starts, and the user events that it handles meanwhile. -/

namespace TheCargo.Events.UserBootstrap

open Foundation Foundation.Redelivery Foundation.CatchUp Models UserSync

def uuid : Json → Option UUID
  | .str s => UUID.parse s
  | _ => none

-- `None` is written as NULL here, also into a column with a default.
def inserted (user : Payload) : Assignment UserField := fun field => some ((user.get? field.key).getD .null)

def namesOrganization (user : Payload) : Bool := ((user.get? "organization_id").getD .null).truthy

/-- Nothing where the record cannot be built, or where the table refuses it and the statement with it. -/
def record (user : Payload) : Option (UUID × UserReplica) := do
  let id ← (user.get? "id").bind uuid
  let organization ← (user.get? "organization_id").bind uuid
  if userColumns.accepts (inserted user) then
    some (id, ⟨organization, userColumns.overlay (inserted user) (fun _ => .null)⟩)
  else none

def records (users : List Payload) : Option (List (UUID × UserReplica)) :=
  (users.filter namesOrganization).mapM record

abbrev World := CatchUp.World UUID UserReplica Event

abbrev Op := CatchUp.Op UUID Event (List Payload)

def step : World → Op → Option World := CatchUp.step (apply dispatch) records

/-- An event of the auth service about a user as it is there: who is created is new and can be stored, who is updated
or moved is there, and an update that adds the user where it is missing leaves nothing out. -/
def Sane (row : Option UserReplica) (e : Event) : Prop :=
  match e.key, row with
  | .userCreated, none => adds e.data = true
  | .userUpdated, some replica =>
    added e.data = none ∨ added e.data = some (write (named e.data) replica)
  | .userOrganizationChanged, some replica =>
    organizationId (e.data.get? "from_organization_id") = some replica.organizationId
  | .userDeleted, some _ => True
  | _, _ => False

def Honest : World → Op → Prop := CatchUp.Honest (apply dispatch) records Sane

def Between (last row row' : Option UserReplica) : Prop :=
  match row, row' with
  | _, none => row = none ∨ last = none
  | none, some _ => row' = last
  | some replica, some replica' =>
    (replica'.organizationId = replica.organizationId ∨
      ∃ final, last = some final ∧ replica'.organizationId = final.organizationId) ∧
    ∀ field, replica'.values field = replica.values field ∨
      ∃ final, last = some final ∧ replica'.values field = final.values field

lemma between_last (last row : Option UserReplica) : Between last row last := by
  cases last with
  | none => exact .inr rfl
  | some final =>
    cases row with
    | none => rfl
    | some replica => exact ⟨.inr ⟨final, rfl, rfl⟩, fun field => .inr ⟨final, rfl, rfl⟩⟩

lemma between_self (last row : Option UserReplica) : Between last row row := by
  cases row with
  | none => exact .inl rfl
  | some replica => exact ⟨.inl rfl, fun field => .inl rfl⟩

lemma between_end {last row : Option UserReplica} (h : Between last last row) : row = last := by
  cases row with
  | none => exact h.elim Eq.symm Eq.symm
  | some replica' =>
    cases last with
    | none => exact h
    | some replica =>
      obtain ⟨horganization, hvalues⟩ := h
      have hsame : replica'.organizationId = replica.organizationId := by
        rcases horganization with h | ⟨final, hfinal, h⟩
        · exact h
        · exact h.trans (Option.some.inj hfinal ▸ rfl)
      have hall : replica'.values = replica.values := by
        funext field
        rcases hvalues field with h | ⟨final, hfinal, h⟩
        · exact h
        · exact h.trans (Option.some.inj hfinal ▸ rfl)
      cases replica'
      cases replica
      cases hsame
      cases hall
      rfl

lemma write_values (given : Assignment UserField) (replica : UserReplica) (field : UserField) :
    (∀ other : UserReplica, (write given other).values field = other.values field) ∨
      ∀ other : UserReplica, (write given other).values field = (write given replica).values field := by
  by_cases haccepts : userColumns.accepts given = true
  · cases hgiven : given field with
    | none =>
      refine .inl (fun other => ?_)
      rw [write, if_pos haccepts]
      exact Columns.overlay_other hgiven other.values
    | some value =>
      refine .inr (fun other => ?_)
      have h := Columns.overlay_given haccepts hgiven other.values
      have h' := Columns.overlay_given haccepts hgiven replica.values
      rw [write, if_pos haccepts, write, if_pos haccepts]
      exact Option.some.inj (h.symm.trans h')
  · refine .inl (fun other => ?_)
    rw [write, if_neg haccepts]

lemma between_write {last : Option UserReplica} {replica replica' : UserReplica}
    (h : Between last (some replica) (some replica')) (given : Assignment UserField) :
    Between last (some (write given replica)) (some (write given replica')) := by
  obtain ⟨horganization, hvalues⟩ := h
  refine ⟨?_, fun field => ?_⟩
  · rw [write_organizationId, write_organizationId]
    exact horganization
  · rcases write_values given replica field with hkept | hset
    · rw [hkept, hkept]
      exact hvalues field
    · exact .inl (hset replica')

lemma between_move {last : Option UserReplica} {replica replica' : UserReplica}
    (h : Between last (some replica) (some replica')) {data : Payload}
    (hleft : organizationId (data.get? "from_organization_id") = some replica.organizationId) :
    Between last (some (move data replica)) (some (move data replica')) := by
  obtain ⟨horganization, hvalues⟩ := h
  refine ⟨?_, hvalues⟩
  by_cases hsame : replica'.organizationId = replica.organizationId
  · exact .inl (congrArg (moved data) hsame)
  · have hstays : (move data replica').organizationId = replica'.organizationId := by
      simp only [move, moved, hleft]
      split
      · rename_i left joined heq heq'
        obtain rfl := Option.some.inj heq
        exact if_neg hsame
      · rfl
    exact .inr (hstays ▸ horganization.resolve_left hsame)

lemma between_apply {last row row' : Option UserReplica} {e : Event} (h : Between last row row') (hsane : Sane row e) :
    Between last (apply dispatch row e) (apply dispatch row' e) := by
  obtain ⟨key, data⟩ := e
  cases key with
  | userCreated =>
    cases row with
    | some replica => exact hsane.elim
    | none =>
      cases row' with
      | none => exact between_self last _
      | some replica' =>
        rw [apply_present_created, show some replica' = last from h]
        exact between_last last _
  | userUpdated =>
    cases row with
    | none => exact hsane.elim
    | some replica =>
      rw [apply_present_updated]
      cases row' with
      | some replica' =>
        rw [apply_present_updated]
        exact between_write h (named data)
      | none =>
        rw [apply_absent_updated]
        rcases hsane with hnone | hall
        · rw [hnone]
          exact .inr (h.resolve_left nofun)
        · rw [hall]
          exact between_self last _
  | userOrganizationChanged =>
    cases row with
    | none => exact hsane.elim
    | some replica =>
      rw [apply_moved, apply_moved]
      cases row' with
      | some replica' => exact between_move h hsane
      | none => exact .inr (h.resolve_left nofun)
  | userDeleted => exact .inl rfl

lemma between_after {last row row' : Option UserReplica} {events : List Event} (h : Between last row row')
    (hsanes : Sanes (apply dispatch) Sane row events) :
    Between last (after (apply dispatch) row events) (after (apply dispatch) row' events) := by
  induction events generalizing row row' with
  | nil => exact h
  | cons e events ih => exact ih (between_apply h hsanes.1) hsanes.2

lemma laws : Laws (apply dispatch) Sane where
  replays row events h := between_end (between_after (between_last _ row) h)
  adds e h := by
    obtain ⟨key, data⟩ := e
    cases key with
    | userCreated =>
      obtain ⟨organization, -, hadded⟩ := added_eq_some h
      rw [apply_absent_created, hadded]
      exact nofun
    | _ => exact h.elim
  covers row e h := by
    obtain ⟨key, data⟩ := e
    cases key with
    | userCreated =>
      cases row with
      | none => exact .inr rfl
      | some replica => exact h.elim
    | userUpdated =>
      cases row with
      | none => exact h.elim
      | some replica =>
        rw [apply_absent_updated, apply_present_updated]
        exact h
    | userOrganizationChanged => exact .inl (apply_moved none data)
    | userDeleted => exact .inl rfl

theorem bootstrap_converges (table : UUID → Option UserReplica) (ops : List Op) (w : World)
    (honest : Runs.Along step Honest (start table) ops) (h : Runs.run step (start table) ops = some w)
    (hstored : w.boot = .stored) (id : UUID) :
    inOrder dispatch (w.rows.get? id) (eventsOf id w.pending) = w.source id ∧
      (w.pending = [] → w.rows.get? id = w.source id) := by
  have hrow := caught_up laws honest h hstored id
  refine ⟨hrow, fun hdone => ?_⟩
  rw [hdone] at hrow
  exact hrow

instance : DecidableEq UserReplica := fun a b =>
  decidable_of_iff (a.organizationId = b.organizationId ∧ ∀ field ∈ userColumns.fields, a.values field = b.values field)
    ⟨fun h => by
      cases a
      cases b
      obtain ⟨rfl, hvalues⟩ := h
      congr
      exact funext fun field => hvalues field (userColumns.complete field),
    fun h => h ▸ ⟨rfl, fun _ _ => rfl⟩⟩

def dana : Payload :=
  (ofFields [("id", "00000000000000000000000000000002"), ("organization_id", "00000000000000000000000000000001"),
    ("email", "dana@example.com"), ("last_name", "Diaz")]).set "is_active" (.bool true)

def danaReplica : UserReplica := ⟨1, userColumns.overlay (inserted dana) (fun _ => .null)⟩

def nobody : UUID → Option UserReplica := fun _ => none

-- The answer is younger than the event, which is handled once the answer is stored.
def hiredMeanwhile : List Op := [.check, .emit 2 hired, .answer [dana], .store, .handle]

lemma records_dana : records [dana] = some [(2, danaReplica)] := by decide +kernel

lemma dana_hired : apply dispatch none hired = some danaReplica := by decide +kernel

lemma dana_said (k : UUID) :
    lookup k [(2, danaReplica)] = Function.update nobody 2 (apply dispatch none hired) k := by
  rw [dana_hired, lookup]
  by_cases h : k = 2
  · subst h
    rw [Function.update_self]
    rfl
  · rw [Function.update_of_ne h, if_neg (Ne.symm h)]
    rfl

theorem hired_while_bootstrapping : ∃ w, Runs.run step (start nobody) hiredMeanwhile = some w ∧ w.pending = [] ∧
    ∀ id, w.rows.get? id = w.source id := by
  refine ⟨_, rfl, rfl, fun id => ?_⟩
  refine (bootstrap_converges nobody hiredMeanwhile _ ?_ rfl rfl id).2 rfl
  refine ⟨trivial, fun w₁ h₁ => ?_⟩
  cases h₁
  refine ⟨show adds hired.data = true by decide +kernel, fun w₂ h₂ => ?_⟩
  cases h₂
  refine ⟨?_, fun w₃ h₃ => ?_⟩
  · intro said hsaid k
    obtain rfl := Option.some.inj (records_dana.symm.trans hsaid)
    exact dana_said k
  · cases h₃
    refine ⟨trivial, fun w₄ h₄ => ?_⟩
    cases h₄
    exact ⟨fun records k e rest hboot => (nomatch hboot), fun w₅ h₅ => trivial⟩

end TheCargo.Events.UserBootstrap
