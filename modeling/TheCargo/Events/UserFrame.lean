import TheCargo.Events.UserSync

namespace TheCargo.Events.UserSync

open Foundation Foundation.Redelivery Models

def Event.isMove (e : Event) : Bool := e.key = .userOrganizationChanged

def Event.isUpdate (e : Event) : Bool := e.key = .userUpdated

def after (replica : UserReplica) (e : Event) : UserReplica :=
  match e.key with
  | .userUpdated => write (named e.data) replica
  | .userOrganizationChanged => move e.data replica
  | .userCreated | .userDeleted => replica

def history (replica : UserReplica) (events : List Event) : UserReplica := events.foldl after replica

lemma apply_after {e : Event} (he : e.key ≠ .userDeleted) (replica : UserReplica) :
    apply dispatch (some replica) e = some (after replica e) := by
  obtain ⟨key, data⟩ := e
  cases key with
  | userCreated => exact apply_present_created replica data
  | userUpdated => exact apply_present_updated replica data
  | userOrganizationChanged => exact apply_moved (some replica) data
  | userDeleted => exact absurd rfl he

lemma inOrder_history {events : List Event} (h : ∀ e ∈ events, e.key ≠ .userDeleted) (replica : UserReplica) :
    inOrder dispatch (some replica) events = some (history replica events) := by
  induction events generalizing replica with
  | nil => rfl
  | cons e events ih =>
    obtain ⟨he, hrest⟩ := List.forall_mem_cons.mp h
    rw [inOrder, List.foldl_cons, apply_after he]
    exact ih hrest (after replica e)

lemma write_organizationId (given : Assignment UserField) (replica : UserReplica) :
    (write given replica).organizationId = replica.organizationId := by
  rw [write]
  split <;> rfl

lemma after_organizationId {e : Event} (h : e.isMove = false) (replica : UserReplica) :
    (after replica e).organizationId = replica.organizationId := by
  obtain ⟨key, data⟩ := e
  cases key with
  | userCreated => rfl
  | userUpdated => exact write_organizationId _ replica
  | userOrganizationChanged => cases h
  | userDeleted => rfl

lemma after_values {e : Event} (h : e.isUpdate = false) (replica : UserReplica) :
    (after replica e).values = replica.values := by
  obtain ⟨key, data⟩ := e
  cases key with
  | userCreated => rfl
  | userUpdated => cases h
  | userOrganizationChanged => rfl
  | userDeleted => rfl

lemma move_congr {e : Event} {a b : UserReplica} (h : a.organizationId = b.organizationId) (he : e.isMove = true) :
    (after a e).organizationId = (after b e).organizationId := by
  have hkey : e.key = .userOrganizationChanged := of_decide_eq_true he
  simp only [after, hkey, move, h]

lemma update_congr {e : Event} {a b : UserReplica} (h : a.values = b.values) (he : e.isUpdate = true) :
    (after a e).values = (after b e).values := by
  have hkey : e.key = .userUpdated := of_decide_eq_true he
  simp only [after, hkey, write, h]
  split
  · rfl
  · exact h

lemma history_organizationId (replica : UserReplica) (events : List Event) :
    (history replica events).organizationId = (history replica (events.filter Event.isMove)).organizationId :=
  Runs.foldl_part (fun r _ he => after_organizationId he r) (fun _ _ _ he h => move_congr h he) events rfl

lemma history_values (replica : UserReplica) (events : List Event) :
    (history replica events).values = (history replica (events.filter Event.isUpdate)).values :=
  Runs.foldl_part (fun r _ he => after_values he r) (fun _ _ _ he h => update_congr h he) events rfl

lemma moved_twice (data : Payload) (organization : UUID) :
    moved data (moved data organization) = moved data organization := by
  cases hleft : organizationId (data.get? "from_organization_id") with
  | none => simp only [moved, hleft]
  | some left =>
    cases hjoined : organizationId (data.get? "to_organization_id") with
    | none => simp only [moved, hleft, hjoined]
    | some joined =>
      by_cases hl : organization = left
      · simp [moved, hleft, hjoined, hl]
      · simp [moved, hleft, hjoined, hl]

lemma write_twice (given : Assignment UserField) (replica : UserReplica) :
    write given (write given replica) = write given replica := by
  by_cases ha : userColumns.accepts given = true
  · simp only [write, ha, if_true, Columns.overlay_twice]
  · simp only [write, if_neg ha]

lemma after_twice (e : Event) (replica : UserReplica) : after (after replica e) e = after replica e := by
  obtain ⟨key, data⟩ := e
  cases key with
  | userCreated => rfl
  | userUpdated => exact write_twice (named data) replica
  | userOrganizationChanged => simp only [after, move, moved_twice]
  | userDeleted => rfl

theorem moves_and_updates_do_not_interfere (replica : UserReplica) (events : List Event)
    (hkinds : ∀ e ∈ events, e.key ≠ .userDeleted) :
    (∃ final byMoves byUpdates, inOrder dispatch (some replica) events = some final ∧
      inOrder dispatch (some replica) (events.filter Event.isMove) = some byMoves ∧
      inOrder dispatch (some replica) (events.filter Event.isUpdate) = some byUpdates ∧
      final.organizationId = byMoves.organizationId ∧ final.values = byUpdates.values) ∧
    ∀ before e rest, events = before ++ e :: rest →
      inOrder dispatch (some replica) (before ++ e :: e :: rest) = inOrder dispatch (some replica) events := by
  constructor
  · refine ⟨_, _, _, inOrder_history hkinds replica, inOrder_history ?_ replica, inOrder_history ?_ replica,
      history_organizationId replica events, history_values replica events⟩
    · exact fun e he => hkinds e (List.mem_of_mem_filter he)
    · exact fun e he => hkinds e (List.mem_of_mem_filter he)
  · rintro before e rest rfl
    have htwice : ∀ f ∈ before ++ e :: e :: rest, f.key ≠ .userDeleted := by
      intro f hf
      apply hkinds f
      simpa using hf
    rw [inOrder_history hkinds, inOrder_history htwice]
    simp only [history, List.foldl_append, List.foldl_cons, after_twice]

theorem a_move_between_two_updates :
    let events := [married, moves, hired, divorced]
    let dana : UserReplica := ⟨1, fun _ => .null⟩
    (∃ final byMoves byUpdates, inOrder dispatch (some dana) events = some final ∧
      inOrder dispatch (some dana) (events.filter Event.isMove) = some byMoves ∧
      inOrder dispatch (some dana) (events.filter Event.isUpdate) = some byUpdates ∧
      final.organizationId = byMoves.organizationId ∧ final.values = byUpdates.values) ∧
    ∀ before e rest, events = before ++ e :: rest →
      inOrder dispatch (some dana) (before ++ e :: e :: rest) = inOrder dispatch (some dana) events :=
  moves_and_updates_do_not_interfere _ [married, moves, hired, divorced] (by decide)

end TheCargo.Events.UserSync
