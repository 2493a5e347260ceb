import TheCargo.Foundation.Json
import TheCargo.Foundation.Runs
import TheCargo.Foundation.Updates
import TheCargo.Models.CustomerReplica
import TheCargo.Utils.Phone

/-! The creation and an update of one customer, whose handlers run beside each other: every database step of one may
come between two of the other. -/

namespace TheCargo.Events.CustomerSync

open Foundation Models Utils.Phone

variable (phonenumbers : PhoneNumbers)

def phoneFields : List CustomerField := [.phone, .secondaryPhone, .companyPhone]

/-- `_company`, or `none` where `UUID` raises -/
def company (data : Payload) : Option (Option UUID) :=
  match data.get? "company_id" with
  | some value => if value.truthy then (UUID.ofJson value).map some else some none
  | none => some none

def values (data : Payload) (field : CustomerField) : Json :=
  match (data.get? field.key).getD .null with
  | .str s =>
    if field ∈ phoneFields ∧ s ≠ "" then .str (orElse (normalizePhone phonenumbers (some s)) s) else .str s
  | value => value

def organizationId (data : Payload) : Option UUID :=
  match data.get? "organization_id" with
  | some (.str s) => UUID.parse s
  | _ => none

def namesOrganization (data : Payload) : Bool := (data.get? "organization_id").any Json.truthy

def named (data : Payload) : Assignment CustomerField :=
  fun field => (data.get? field.key).map (fun _ => values phonenumbers data field)

def filled (data : Payload) : Assignment CustomerField := fun field => some (values phonenumbers data field)

-- The row an insert leaves, or `none` where building or flushing it raises.
def newReplica (data : Payload) : Option CustomerReplica := do
  let organization ← organizationId data
  let companyId ← company data
  let stored ← (customerColumns.assign (filled phonenumbers data) (fun _ => .null)).toOption
  return ⟨organization, companyId, stored⟩

def companyAfter (data : Payload) (replica : CustomerReplica) : Option (Option UUID) :=
  if (data.get? "company_id").isSome then company data else some replica.companyId

def change (data : Payload) (replica : CustomerReplica) : Option CustomerReplica := do
  let companyId ← companyAfter data replica
  let stored ← (customerColumns.assign (named phonenumbers data) replica.values).toOption
  return ⟨replica.organizationId, companyId, stored⟩

-- What a handler does next. `looking` is the select of an update, `reading` the one of a creation.
inductive Phase
  | looking
  | reading
  | inserting (replica : CustomerReplica)
  | inserted (replica : CustomerReplica)
  | updating (replica : CustomerReplica)
  | updated (replica : CustomerReplica)
  | acked

def Phase.holdsKey : Phase → Bool
  | .inserted _ => true
  | _ => false

/-- One database step of a handler. A handler that raises ends acknowledged, as one that returns does: the consumer is
started with its defaults. -/
def advance (data : Payload) (row : Option CustomerReplica) (keyHeld : Bool) :
    Phase → Option (Option CustomerReplica × Phase)
  | .looking =>
    match row with
    | none => some (row, if namesOrganization data then .reading else .acked)
    | some replica =>
      match change phonenumbers data replica with
      | some changed => some (row, .updating changed)
      | none => some (row, .acked)
  | .reading =>
    if !namesOrganization data || row.isSome then some (row, .acked)
    else
      match newReplica phonenumbers data with
      | some replica => some (row, .inserting replica)
      | none => some (row, .acked)
  | .inserting replica =>
    -- An insert waits for the transaction that holds its key, and fails once that has committed.
    if keyHeld then none
    else if row.isSome then some (row, .acked)
    else some (row, .inserted replica)
  | .inserted replica => some (some replica, .acked)
  | .updating replica => some (row, .updated replica)
  | .updated replica => some (some replica, .acked)
  | .acked => none

structure State where
  row : Option CustomerReplica
  creation : Phase
  update : Phase

def start : State := ⟨none, .reading, .looking⟩

inductive Op
  | creation
  | update
  deriving DecidableEq, Repr

variable (created updated : Payload)

def step (s : State) : Op → Option State
  | .creation => (advance phonenumbers created s.row s.update.holdsKey s.creation).map
      (fun r => { s with row := r.1, creation := r.2 })
  | .update => (advance phonenumbers updated s.row s.creation.holdsKey s.update).map
      (fun r => { s with row := r.1, update := r.2 })

structure Merged (replica : CustomerReplica) : Prop where
  organizationId : organizationId created = some replica.organizationId
  companyId : company (if (updated.get? "company_id").isSome then updated else created) =
    some replica.companyId
  values : ∀ field, field.column.store
      (values phonenumbers (if (updated.get? field.key).isSome then updated else created) field) =
    some (replica.values field)

def acceptable : Bool :=
  ((updated.get? "company_id").isNone || (company updated).isSome) &&
    customerColumns.accepts (named phonenumbers updated)

def LooksAfter (s : State) (op : Op) : Prop := op = .update → s.update = .looking → s.creation = .acked

variable {phonenumbers created updated}

lemma assign_eq_some {given : Assignment CustomerField} {values stored : CustomerField → Value} :
    (customerColumns.assign given values).toOption = some stored ↔
      customerColumns.accepts given = true ∧ stored = customerColumns.overlay given values := by
  cases ha : customerColumns.accepts given with
  | true =>
    rw [Columns.assign_of_accepts ha]
    simp [Except.toOption, eq_comm]
  | false =>
    obtain ⟨field, hf⟩ := Columns.assign_of_refuses ha values
    simp [hf, Except.toOption]

lemma newReplica_eq_some {data : Payload} {replica : CustomerReplica} :
    newReplica phonenumbers data = some replica ↔
      organizationId data = some replica.organizationId ∧ company data = some replica.companyId ∧
        customerColumns.accepts (filled phonenumbers data) = true ∧
        replica.values = customerColumns.overlay (filled phonenumbers data) (fun _ => .null) := by
  obtain ⟨organization, companyId, stored⟩ := replica
  simp only [newReplica, Option.bind_eq_bind, Option.bind_eq_some_iff, assign_eq_some, Option.pure_def,
    Option.some.injEq, CustomerReplica.mk.injEq]
  constructor
  · rintro ⟨_, ho, _, hc, _, ⟨ha, hs⟩, rfl, rfl, rfl⟩
    exact ⟨ho, hc, ha, hs⟩
  · rintro ⟨ho, hc, ha, hs⟩
    exact ⟨_, ho, _, hc, _, ⟨ha, hs⟩, rfl, rfl, rfl⟩

lemma newReplica_unnamed {data : Payload} (h : namesOrganization data = false) :
    newReplica phonenumbers data = none := by
  apply Option.eq_none_iff_forall_ne_some.mpr
  intro replica hr
  have ho := (newReplica_eq_some.mp hr).1
  simp only [organizationId] at ho
  split at ho
  · rename_i s hs
    simp only [namesOrganization, hs, Option.any_some, Json.truthy, decide_eq_false_iff_not, not_not] at h
    have hempty : UUID.parse "" = none := by decide
    rw [h, hempty] at ho
    exact absurd ho (by simp)
  · exact absurd ho (by simp)

lemma merged_of_change {replica changed : CustomerReplica} (hr : newReplica phonenumbers created = some replica)
    (hc : change phonenumbers updated replica = some changed) : Merged phonenumbers created updated changed := by
  obtain ⟨horg, hcompany, haccepts, hvalues⟩ := newReplica_eq_some.mp hr
  obtain ⟨organization, companyId, stored⟩ := changed
  simp only [change, Option.bind_eq_bind, Option.bind_eq_some_iff, assign_eq_some, Option.pure_def,
    Option.some.injEq, CustomerReplica.mk.injEq] at hc
  obtain ⟨companyId', hcomp, stored', ⟨hacc, rfl⟩, rfl, rfl, rfl⟩ := hc
  refine ⟨horg, ?_, ?_⟩
  · simp only [companyAfter] at hcomp
    split at hcomp
    · rename_i hn
      rw [if_pos hn, hcomp]
    · rename_i hn
      rw [if_neg hn, hcompany, hcomp]
  · intro field
    cases hf : updated.get? field.key with
    | some value =>
      have hg : named phonenumbers updated field = some (values phonenumbers updated field) := by
        rw [named, hf, Option.map_some]
      exact Columns.overlay_given hacc hg replica.values
    | none =>
      have hg : named phonenumbers updated field = none := by
        rw [named, hf, Option.map_none]
      have hfilled : filled phonenumbers created field = some (values phonenumbers created field) := rfl
      simp only [Columns.overlay_other hg, hvalues]
      exact Columns.overlay_given haccepts hfilled _

lemma change_isSome (replica : CustomerReplica) :
    (change phonenumbers updated replica).isSome = acceptable phonenumbers updated := by
  simp only [change, companyAfter, acceptable]
  cases ha : customerColumns.accepts (named phonenumbers updated) with
  | false =>
    obtain ⟨field, hf⟩ := Columns.assign_of_refuses ha replica.values
    split <;> cases company updated <;> simp [hf, Except.toOption]
  | true =>
    rw [Columns.assign_of_accepts ha]
    cases hn : (updated.get? "company_id") with
    | none => simp [Except.toOption]
    | some value => cases company updated <;> simp [Except.toOption]

structure Creating (phonenumbers : PhoneNumbers) (created : Payload) (s : State) : Prop where
  update : s.update = .looking
  creation : match s.creation with
    | .reading => s.row = none
    | .inserting replica | .inserted replica => newReplica phonenumbers created = some replica ∧ s.row = none
    | .acked => s.row = newReplica phonenumbers created
    | _ => False

structure Kept (phonenumbers : PhoneNumbers) (created updated : Payload) (s : State) : Prop where
  creation : s.creation = .acked
  update : ∃ replica, newReplica phonenumbers created = some replica ∧ match s.update with
    | .updating changed | .updated changed =>
      s.row = some replica ∧ change phonenumbers updated replica = some changed
    | .acked => s.row = some ((change phonenumbers updated replica).getD replica)
    | _ => False

def Adding (phonenumbers : PhoneNumbers) (data : Payload) : Phase → Prop
  | .reading | .acked => True
  | .inserting replica | .inserted replica => newReplica phonenumbers data = some replica
  | _ => False

structure Racing (phonenumbers : PhoneNumbers) (created updated : Payload) (s : State) : Prop where
  creation : Adding phonenumbers created s.creation
  update : Adding phonenumbers updated s.update
  row : ∀ replica, s.row = some replica →
    newReplica phonenumbers created = some replica ∨ newReplica phonenumbers updated = some replica

lemma advance_adding {data : Payload} {row : Option CustomerReplica} {keyHeld : Bool} {phase : Phase}
    {r : Option CustomerReplica × Phase} (ha : Adding phonenumbers data phase)
    (h : advance phonenumbers data row keyHeld phase = some r) :
    Adding phonenumbers data r.2 ∧ (r.1 = row ∨ r.1 = newReplica phonenumbers data) := by
  cases phase with
  | looking => exact absurd ha id
  | reading =>
    simp only [advance] at h
    split at h
    · obtain rfl := Option.some.inj h
      exact ⟨trivial, Or.inl rfl⟩
    · split at h
      · rename_i replica hr
        obtain rfl := Option.some.inj h
        exact ⟨hr, Or.inl rfl⟩
      · obtain rfl := Option.some.inj h
        exact ⟨trivial, Or.inl rfl⟩
  | inserting replica =>
    simp only [advance] at h
    split_ifs at h
    · obtain rfl := Option.some.inj h
      exact ⟨trivial, Or.inl rfl⟩
    · obtain rfl := Option.some.inj h
      exact ⟨ha, Or.inl rfl⟩
  | inserted replica =>
    obtain rfl := Option.some.inj h
    exact ⟨trivial, Or.inr (Eq.symm ha)⟩
  | updating changed => exact absurd ha id
  | updated changed => exact absurd ha id
  | acked => exact absurd h (by simp [advance])

lemma step_racing (s : State) (op : Op) (t : State) (hs : Racing phonenumbers created updated s)
    (h : step phonenumbers created updated s op = some t) : Racing phonenumbers created updated t := by
  cases op with
  | creation =>
    obtain ⟨r, hr, rfl⟩ := Option.map_eq_some_iff.mp h
    obtain ⟨hadding, hrow⟩ := advance_adding hs.creation hr
    refine ⟨hadding, hs.update, ?_⟩
    intro replica he
    rcases hrow with hold | hnew
    · exact hs.row replica (hold.symm.trans he)
    · exact Or.inl (hnew.symm.trans he)
  | update =>
    obtain ⟨r, hr, rfl⟩ := Option.map_eq_some_iff.mp h
    obtain ⟨hadding, hrow⟩ := advance_adding hs.update hr
    refine ⟨hs.creation, hadding, ?_⟩
    intro replica he
    rcases hrow with hold | hnew
    · exact hs.row replica (hold.symm.trans he)
    · exact Or.inr (hnew.symm.trans he)

lemma step_kept (s : State) (op : Op) (t : State) (hs : Kept phonenumbers created updated s)
    (h : step phonenumbers created updated s op = some t) : Kept phonenumbers created updated t := by
  obtain ⟨hcreation, replica, hr, hphase⟩ := hs
  cases op with
  | creation => exact absurd h (by simp [step, hcreation, advance])
  | update =>
    obtain ⟨r, hadv, rfl⟩ := Option.map_eq_some_iff.mp h
    refine ⟨hcreation, replica, hr, ?_⟩
    cases hp : s.update with
    | looking => rw [hp] at hphase; exact hphase.elim
    | reading => rw [hp] at hphase; exact hphase.elim
    | inserting _ => rw [hp] at hphase; exact hphase.elim
    | inserted _ => rw [hp] at hphase; exact hphase.elim
    | updating changed =>
      rw [hp] at hadv hphase
      obtain rfl := Option.some.inj hadv
      exact hphase
    | updated changed =>
      rw [hp] at hadv hphase
      obtain rfl := Option.some.inj hadv
      simp only [hphase.2, Option.getD_some]
    | acked =>
      rw [hp] at hadv
      exact absurd hadv (by simp [advance])

lemma step_creation {s t : State} (hs : Creating phonenumbers created s)
    (h : step phonenumbers created updated s .creation = some t) : Creating phonenumbers created t := by
  obtain ⟨hlooking, hphase⟩ := hs
  obtain ⟨r, hadv, rfl⟩ := Option.map_eq_some_iff.mp h
  refine ⟨hlooking, ?_⟩
  cases hp : s.creation with
  | looking => rw [hp] at hphase; exact hphase.elim
  | updating _ => rw [hp] at hphase; exact hphase.elim
  | updated _ => rw [hp] at hphase; exact hphase.elim
  | reading =>
    rw [hp] at hadv hphase
    simp only [advance, hphase, Option.isSome_none, Bool.or_false] at hadv
    split at hadv
    · rename_i hn
      obtain rfl := Option.some.inj hadv
      exact (newReplica_unnamed (by simpa using hn)).symm
    · split at hadv
      · rename_i replica hr
        obtain rfl := Option.some.inj hadv
        exact ⟨hr, rfl⟩
      · rename_i hr
        obtain rfl := Option.some.inj hadv
        exact hr.symm
  | inserting replica =>
    rw [hp] at hadv hphase
    simp only [advance, hphase.2, hlooking, Phase.holdsKey, Option.isSome_none, Bool.false_eq_true,
      if_false] at hadv
    obtain rfl := Option.some.inj hadv
    exact ⟨hphase.1, rfl⟩
  | inserted replica =>
    rw [hp] at hadv hphase
    obtain rfl := Option.some.inj hadv
    exact hphase.1.symm
  | acked =>
    rw [hp] at hadv
    exact absurd hadv (by simp [advance])

lemma Creating.adding {s : State} (hs : Creating phonenumbers created s) :
    Adding phonenumbers created s.creation := by
  obtain ⟨-, hphase⟩ := hs
  cases hp : s.creation with
  | looking => rw [hp] at hphase; exact hphase.elim
  | updating _ => rw [hp] at hphase; exact hphase.elim
  | updated _ => rw [hp] at hphase; exact hphase.elim
  | reading => trivial
  | acked => trivial
  | inserting replica => rw [hp] at hphase; exact hphase.1
  | inserted replica => rw [hp] at hphase; exact hphase.1

lemma Creating.stored {s : State} {replica : CustomerReplica} (hs : Creating phonenumbers created s)
    (hrow : s.row = some replica) : s.creation = .acked ∧ newReplica phonenumbers created = some replica := by
  obtain ⟨-, hphase⟩ := hs
  cases hp : s.creation with
  | looking => rw [hp] at hphase; exact hphase.elim
  | updating _ => rw [hp] at hphase; exact hphase.elim
  | updated _ => rw [hp] at hphase; exact hphase.elim
  | reading => rw [hp, hrow] at hphase; exact absurd hphase (by simp)
  | inserting _ => rw [hp, hrow] at hphase; exact absurd hphase.2 (by simp)
  | inserted _ => rw [hp, hrow] at hphase; exact absurd hphase.2 (by simp)
  | acked => rw [hp, hrow] at hphase; exact ⟨rfl, hphase.symm⟩

lemma step_creating (s : State) (op : Op) (t : State) (hs : Creating phonenumbers created s)
    (h : step phonenumbers created updated s op = some t) :
    op = .creation ∧ Creating phonenumbers created t ∨
      op = .update ∧ t.update ≠ .looking ∧
        (s.creation = .acked ∧ Kept phonenumbers created updated t ∨
          s.row = none ∧ Racing phonenumbers created updated t) := by
  cases op with
  | creation => exact Or.inl ⟨rfl, step_creation hs h⟩
  | update =>
    obtain ⟨r, hadv, rfl⟩ := Option.map_eq_some_iff.mp h
    rw [hs.1] at hadv
    cases hrow : s.row with
    | none =>
      rw [hrow] at hadv
      obtain rfl := Option.some.inj hadv
      refine Or.inr ⟨rfl, ?_, Or.inr ⟨rfl, hs.adding, ?_, ?_⟩⟩
      · split <;> simp
      · split <;> trivial
      · intro replica he
        exact absurd he (by simp)
    | some replica =>
      obtain ⟨hacked, hnew⟩ := hs.stored hrow
      rw [hrow] at hadv
      simp only [advance] at hadv
      split at hadv
      · rename_i changed hc
        obtain rfl := Option.some.inj hadv
        exact Or.inr ⟨rfl, by simp, Or.inl ⟨hacked, hacked, replica, hnew, rfl, hc⟩⟩
      · rename_i hc
        obtain rfl := Option.some.inj hadv
        refine Or.inr ⟨rfl, by simp, Or.inl ⟨hacked, hacked, replica, hnew, ?_⟩⟩
        rw [hc, Option.getD_none]

lemma advance_looked {data : Payload} {row : Option CustomerReplica} {keyHeld : Bool} {phase : Phase}
    {r : Option CustomerReplica × Phase} (h : advance phonenumbers data row keyHeld phase = some r) :
    r.2 ≠ .looking := by
  cases phase with
  | looking =>
    simp only [advance] at h
    split at h
    · obtain rfl := Option.some.inj h
      simp only
      split <;> simp
    · split at h <;> obtain rfl := Option.some.inj h <;> simp
  | reading =>
    simp only [advance] at h
    split at h
    · obtain rfl := Option.some.inj h
      simp
    · split at h <;> obtain rfl := Option.some.inj h <;> simp
  | inserting replica =>
    simp only [advance] at h
    split_ifs at h <;> obtain rfl := Option.some.inj h <;> simp
  | inserted replica =>
    obtain rfl := Option.some.inj h
    simp
  | updating changed =>
    obtain rfl := Option.some.inj h
    simp
  | updated changed =>
    obtain rfl := Option.some.inj h
    simp
  | acked => exact absurd h (by simp [advance])

lemma looksAfter_creation (s : State) : LooksAfter s .creation := fun h => absurd h (by decide)

lemma update_looked {s t : State} (h : step phonenumbers created updated s .update = some t) :
    t.update ≠ .looking := by
  obtain ⟨r, hr, rfl⟩ := Option.map_eq_some_iff.mp h
  exact advance_looked hr

lemma along_looked {s : State} (hs : s.update ≠ .looking) (ops : List Op) :
    Runs.Along (step phonenumbers created updated) LooksAfter s ops := by
  induction ops generalizing s with
  | nil => trivial
  | cons op ops ih =>
    refine ⟨fun _ hl => absurd hl hs, ?_⟩
    intro t ht
    apply ih
    cases op with
    | creation =>
      obtain ⟨r, _, rfl⟩ := Option.map_eq_some_iff.mp ht
      exact hs
    | update => exact update_looked ht

lemma kept_of_along (hnew : (newReplica phonenumbers created).isSome) {s t : State} {ops : List Op}
    (hs : Creating phonenumbers created s)
    (hok : Runs.Along (step phonenumbers created updated) LooksAfter s ops)
    (h : Runs.run (step phonenumbers created updated) s ops = some t) :
    Creating phonenumbers created t ∨ Kept phonenumbers created updated t := by
  have hstep : ∀ s op t, Creating phonenumbers created s ∨ Kept phonenumbers created updated s →
      LooksAfter s op → step phonenumbers created updated s op = some t →
        Creating phonenumbers created t ∨ Kept phonenumbers created updated t := by
    intro s op t hs hlooks ht
    rcases hs with hc | hk
    · rcases step_creating s op t hc ht with ⟨_, hc'⟩ | ⟨rfl, _, ⟨_, hk⟩ | ⟨hrow, _⟩⟩
      · exact Or.inl hc'
      · exact Or.inr hk
      · have hacked := hlooks rfl hc.update
        have hphase := hc.creation
        rw [hacked, hrow] at hphase
        rw [← show none = newReplica phonenumbers created from hphase] at hnew
        exact absurd hnew (by simp)
    · exact Or.inr (step_kept s op t hk ht)
  exact Runs.run_along hstep (Or.inl hs) hok h

lemma along_or_racing {s t : State} {ops : List Op} (hs : Creating phonenumbers created s)
    (h : Runs.run (step phonenumbers created updated) s ops = some t) :
    Runs.Along (step phonenumbers created updated) LooksAfter s ops ∧
        (Creating phonenumbers created t ∨ Kept phonenumbers created updated t) ∨
      Racing phonenumbers created updated t := by
  induction ops generalizing s with
  | nil =>
    obtain rfl := Option.some.inj h
    exact Or.inl ⟨trivial, Or.inl hs⟩
  | cons op ops ih =>
    obtain ⟨u, hu, hrest⟩ := Runs.run_cons.mp h
    have hcons : LooksAfter s op → Runs.Along (step phonenumbers created updated) LooksAfter u ops →
        Runs.Along (step phonenumbers created updated) LooksAfter s (op :: ops) := by
      intro hop hr
      refine ⟨hop, ?_⟩
      intro u' hu'
      obtain rfl : u = u' := Option.some.inj (hu.symm.trans hu')
      exact hr
    rcases step_creating s op u hs hu with ⟨rfl, hc⟩ | ⟨rfl, hl, ⟨hacked, hk⟩ | ⟨_, hr⟩⟩
    · rcases ih hc hrest with ⟨hok, ht⟩ | ht
      · exact Or.inl ⟨hcons (fun he => absurd he (by simp)) hok, ht⟩
      · exact Or.inr ht
    · have ht := Runs.run_invariant step_kept hk hrest
      exact Or.inl ⟨hcons (fun _ _ => hacked) (along_looked hl ops), Or.inr ht⟩
    · exact Or.inr (Runs.run_invariant step_racing hr hrest)

lemma start_creating : Creating phonenumbers created start := ⟨rfl, rfl⟩

theorem overlapping_events_merged (phonenumbers : PhoneNumbers) (created updated : Payload) (ops : List Op)
    (s : State) (h : Runs.run (step phonenumbers created updated) start ops = some s)
    (hupdate : s.update = .acked) :
    ((newReplica phonenumbers created).isSome → acceptable phonenumbers updated = true →
      Runs.Along (step phonenumbers created updated) LooksAfter start ops →
        ∃ replica, s.row = some replica ∧ Merged phonenumbers created updated replica) ∧
    ((∃ replica, s.row = some replica ∧ Merged phonenumbers created updated replica) →
      (newReplica phonenumbers created).isSome ∧ acceptable phonenumbers updated = true ∧
          Runs.Along (step phonenumbers created updated) LooksAfter start ops ∨
        ∃ replica, Merged phonenumbers created updated replica ∧
          (newReplica phonenumbers created = some replica ∨ newReplica phonenumbers updated = some replica)) := by
  have hlooked : ¬ Creating phonenumbers created s := by
    intro hc
    exact absurd (hc.update.symm.trans hupdate) (by simp)
  constructor
  · intro hnew hacc hok
    obtain ⟨_, replica, hr, hphase⟩ := (kept_of_along hnew start_creating hok h).resolve_left hlooked
    rw [hupdate] at hphase
    rw [← change_isSome replica] at hacc
    obtain ⟨changed, hc⟩ := Option.isSome_iff_exists.mp hacc
    refine ⟨changed, ?_, merged_of_change hr hc⟩
    rw [hphase, hc, Option.getD_some]
  · rintro ⟨replica, hrow, hmerged⟩
    rcases along_or_racing start_creating h with ⟨hok, ht⟩ | hr
    · obtain ⟨_, first, hfirst, hphase⟩ := ht.resolve_left hlooked
      rw [hupdate] at hphase
      cases hc : change phonenumbers updated first with
      | some changed =>
        refine Or.inl ⟨by rw [hfirst]; rfl, ?_, hok⟩
        rw [← change_isSome first, hc, Option.isSome_some]
      | none =>
        rw [hc, Option.getD_none] at hphase
        obtain rfl : replica = first := Option.some.inj (hrow.symm.trans hphase)
        exact Or.inr ⟨replica, hmerged, Or.inl hfirst⟩
    · exact Or.inr ⟨replica, hmerged, hr.row replica hrow⟩

def noPhoneNumbers : PhoneNumbers where
  PhoneNumber := Empty
  parse _ _ := .error "(1) The string supplied did not seem to be a phone number."
  isValidNumber := nofun
  formatNumber := nofun

def ann : Payload :=
  ((Dict.empty.set "id" (.str "00000000000000000000000000000007")).set "organization_id"
    (.str "00000000000000000000000000000001")).set "first_name" (.str "Ann")

def lee : Payload :=
  ((Dict.empty.set "id" (.str "00000000000000000000000000000007")).set "organization_id"
    (.str "00000000000000000000000000000001")).set "last_name" (.str "Lee")

theorem update_after_creation :
    ∃ s, Runs.run (step noPhoneNumbers ann lee) start
        [.creation, .creation, .creation, .update, .update, .update] = some s ∧
      ∃ replica, s.row = some replica ∧ Merged noPhoneNumbers ann lee replica := by
  have hr : Runs.run (step noPhoneNumbers ann lee) start
      [.creation, .creation, .creation, .update, .update, .update] = some _ := rfl
  have hm := (overlapping_events_merged noPhoneNumbers ann lee _ _ hr rfl).1
  refine ⟨_, hr, hm rfl (by decide) ?_⟩
  refine ⟨looksAfter_creation _, ?_⟩
  rintro _ ⟨⟩
  refine ⟨looksAfter_creation _, ?_⟩
  rintro _ ⟨⟩
  refine ⟨looksAfter_creation _, ?_⟩
  rintro _ ⟨⟩
  refine ⟨fun _ _ => rfl, ?_⟩
  intro t ht
  exact along_looked (update_looked ht) _

theorem overtaking_update_lost :
    ∃ s, Runs.run (step noPhoneNumbers ann lee) start
        [.creation, .update, .update, .creation, .creation, .update] = some s ∧
      s.creation = .acked ∧ s.update = .acked ∧
      ¬ ∃ replica, s.row = some replica ∧ Merged noPhoneNumbers ann lee replica := by
  refine ⟨_, rfl, rfl, rfl, ?_⟩
  rintro ⟨replica, hrow, hmerged⟩
  obtain rfl := Option.some.inj hrow
  have hlast := hmerged.values .lastName
  exact absurd hlast (by decide)

end TheCargo.Events.CustomerSync
