import TheCargo.Foundation.Runs
import TheCargo.Foundation.Savepoints
import TheCargo.Repositories.Consent

namespace TheCargo.Repositories.ConsentEvents

open Foundation Foundation.Savepoints Models Utils.Phone Db.Types TheCargo.Consent Repositories.Consent

inductive Entry
  | consent (row : ConsentRecord)
  | event (id : UUID) (routingKey : String) (payload : List (String × PayloadValue))

abbrev State := Session Entry Entry

def Entry.consentRow : Entry → Option ConsentRecord
  | .consent row => some row
  | .event .. => none

def Entry.announcement : Entry → Option (List (String × PayloadValue))
  | .consent _ => none
  | .event _ routingKey payload => if routingKey = consentEventRoutingKey then some payload else none

def consentRows (entries : List Entry) : List ConsentRecord := entries.filterMap Entry.consentRow

def announcements (entries : List Entry) : List (List (String × PayloadValue)) :=
  entries.filterMap Entry.announcement

-- Nothing but `record` publishes under the consent key.
inductive Op
  | record (organizationId : UUID) (call : RecordCall) (id : UUID) (eventId : UUID) (now : Instant)
  | publishEvent (id : UUID) (routingKey : String) (payload : List (String × PayloadValue))
  | flush
  | beginNested
  | release
  | rollbackTo
  | commit
  | rollback

def quiet : Listener Entry Entry Unit := fun _ _ m => m

variable (phonenumbers : PhoneNumbers)

-- A flush that fails takes the innermost transaction with it.
def step (s : State) : Op → Option State
  | .record organizationId call rowId eventId now =>
    match record phonenumbers [] organizationId call rowId now with
    | .ok out =>
      let flushed := (out.table.foldl (fun s row => s.add (.consent row.columns)) s).flush id
      some (flushed.add (.event eventId out.routingKey out.payload))
    | .error _ => some s.opened.undo
  | .publishEvent eventId routingKey payload =>
    if routingKey = consentEventRoutingKey then none else some (s.add (.event eventId routingKey payload))
  | .flush => some (s.flush id)
  | .beginNested => some (Savepoints.beginNested id quiet (s, ())).1
  | .release => if s.nested then some (Savepoints.release id quiet (s, ())).1 else none
  | .rollbackTo => if s.nested then some (Savepoints.rollbackTo quiet (s, ())).1 else none
  | .commit => some (Savepoints.commit id quiet (s, ())).1
  | .rollback => some (Savepoints.rollback quiet (s, ())).1

def eventPayload (row : ConsentRecord) : List (String × PayloadValue) :=
  [("consent_id", .uuid row.id),
    ("organization_id", .uuid row.organizationId),
    ("customer_number", .text row.customerNumber),
    ("channel", .text row.channel.value),
    ("scope", .text row.scope.value),
    ("line_number", .ofText row.lineNumber),
    ("status", .text row.status.value),
    ("source", .text row.source.value),
    ("source_detail", .ofText row.sourceDetail),
    ("created_by_user_id", (row.createdByUserId.map .uuid).getD .null),
    ("reason", .ofText row.reason),
    ("created_at", .instant row.createdAt)]

def Announces (row : ConsentRecord) (payload : List (String × PayloadValue)) : Prop :=
  ∃ customerNumber lineNumber,
    USPhoneType.processBindParam phonenumbers (some customerNumber) = some row.customerNumber ∧
    USPhoneType.processBindParam phonenumbers lineNumber = row.lineNumber ∧
    payload = eventPayload { row with customerNumber, lineNumber }

def Paired (entries : List Entry) : Prop :=
  List.Forall₂ (Announces phonenumbers) (consentRows entries) (announcements entries)

variable {phonenumbers}

lemma paired_nil : Paired phonenumbers [] := List.Forall₂.nil

lemma paired_append (xs ys : List Entry) (hx : Paired phonenumbers xs) (hy : Paired phonenumbers ys) :
    Paired phonenumbers (xs ++ ys) := by
  rw [Paired, consentRows, announcements, List.filterMap_append, List.filterMap_append]
  exact List.rel_append hx hy

lemma record_announces {organizationId : UUID} {call : RecordCall} {id : UUID} {now : Instant} {out : Recorded}
    (h : record phonenumbers [] organizationId call id now = .ok out) :
    ∃ row : ConsentRow, out.table = [row] ∧ out.routingKey = consentEventRoutingKey ∧
      Announces phonenumbers row.columns out.payload := by
  cases hs : storedRow phonenumbers organizationId call id now with
  | error e => simp [record, hs, bind, Except.bind] at h
  | ok row =>
    simp only [record, hs, bind, Except.bind, pure, Except.pure, Except.ok.injEq] at h
    obtain ⟨-, -, hnumber, -, -, -, hline⟩ := storedRow_spec hs
    subst h
    exact ⟨⟨row, _⟩, rfl, rfl, call.customerNumber, call.lineNumber, hnumber, hline.symm, rfl⟩

lemma add_flush_add (unflushed top : List Entry) (rest : List (List Entry)) (durable : List Entry) (c e : Entry) :
    (((⟨unflushed, top :: rest, durable⟩ : State).add c).flush id).add e =
      ⟨[e], (top ++ (unflushed ++ [c])) :: rest, durable⟩ := by
  cases unflushed <;> rfl

lemma levelwise_record {B : List Entry → Prop} {s : State} (hnil : B []) (happend : ∀ xs ys, B xs → B ys → B (xs ++ ys))
    {c e : Entry} (hpair : B [c, e]) (h : Levelwise B s) : Levelwise B (((s.add c).flush id).add e) := by
  have hlevel : ∀ top unflushed, B (top ++ unflushed) → B (top ++ (unflushed ++ [c]) ++ [e]) := by
    intro top unflushed ht
    have hboth := happend _ _ ht hpair
    simpa only [List.append_assoc, List.cons_append, List.nil_append] using hboth
  cases s with
  | mk unflushed frames durable =>
    cases frames with
    | nil =>
      obtain ⟨hu, hd⟩ := h
      obtain rfl : unflushed = [] := hu
      exact ⟨hlevel [] [] hnil, fun _ hl => absurd hl List.not_mem_nil, hd⟩
    | cons top rest =>
      obtain ⟨ht, hrest, hd⟩ := h
      rw [add_flush_add]
      exact ⟨hlevel top unflushed ht, hrest, hd⟩

lemma step_paired (s : State) (op : Op) (t : State) (h : Levelwise (Paired phonenumbers) s)
    (hs : step phonenumbers s op = some t) : Levelwise (Paired phonenumbers) t := by
  have happend := @paired_append phonenumbers
  cases op with
  | record organizationId call rowId eventId now =>
    simp only [step] at hs
    split at hs
    · rename_i out hout
      obtain rfl := Option.some.inj hs
      obtain ⟨row, htable, hkey, hannounces⟩ := record_announces hout
      rw [htable, hkey]
      refine levelwise_record paired_nil happend ?_ h
      exact List.Forall₂.cons hannounces List.Forall₂.nil
    · obtain rfl := Option.some.inj hs
      exact (h.opened paired_nil).undo
  | publishEvent eventId routingKey payload =>
    simp only [step] at hs
    split at hs
    · exact absurd hs (by simp)
    · rename_i hkey
      obtain rfl := Option.some.inj hs
      have hother : Paired phonenumbers [.event eventId routingKey payload] := by
        simp [Paired, consentRows, announcements, Entry.consentRow, Entry.announcement, hkey]
      apply h.add paired_nil
      intro top ht
      rw [← List.append_assoc]
      exact happend _ _ ht hother
  | flush =>
    obtain rfl := Option.some.inj hs
    exact h.flush.1
  | beginNested =>
    obtain rfl := Option.some.inj hs
    exact levelwise_beginNested paired_nil h
  | release =>
    simp only [step] at hs
    split at hs
    · obtain rfl := Option.some.inj hs
      exact levelwise_release happend h
    · exact absurd hs (by simp)
  | rollbackTo =>
    simp only [step] at hs
    split at hs
    · obtain rfl := Option.some.inj hs
      exact levelwise_rollbackTo h
    · exact absurd hs (by simp)
  | commit =>
    obtain rfl := Option.some.inj hs
    exact levelwise_commit paired_nil happend h
  | rollback =>
    obtain rfl := Option.some.inj hs
    exact levelwise_rollback h

theorem consent_rows_announced (phonenumbers : PhoneNumbers) (ops : List Op) (s : State)
    (h : Runs.run (step phonenumbers) Session.start ops = some s) :
    List.Forall₂ (Announces phonenumbers) (consentRows s.durable) (announcements s.durable) :=
  (Runs.run_invariant step_paired (levelwise_start paired_nil) h).durable

def threeRecords : List Op :=
  [.record 9 (optOutOf .global none) 1 11 5, .beginNested, .record 9 (optOutOf .line none) 2 12 6, .rollbackTo,
    .publishEvent 13 "load.created" [], .record 9 (optOutOf .global none) 3 14 7, .commit,
    .record 9 (optOutOf .global none) 4 15 8, .rollback]

theorem three_records_announced : ∃ s, Runs.run (step twoNumbers) Session.start threeRecords = some s ∧
    (consentRows s.durable).map ConsentRecord.id = [1, 3] ∧
    List.Forall₂ (Announces twoNumbers) (consentRows s.durable) (announcements s.durable) := by
  have hr : Runs.run (step twoNumbers) Session.start threeRecords = some _ := rfl
  exact ⟨_, hr, by decide, consent_rows_announced twoNumbers threeRecords _ hr⟩

end TheCargo.Repositories.ConsentEvents
