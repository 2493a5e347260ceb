import TheCargo.Consent.Contactability

namespace TheCargo.Repositories.Consent

open Foundation Models Utils.Phone Db.Types TheCargo.Consent

def consentEventRoutingKey : String := "consent.recorded"

inductive PayloadValue
  | null
  | text (s : String)
  | uuid (id : UUID)
  | instant (t : Instant)
  deriving DecidableEq, Repr

def PayloadValue.ofText : Option String → PayloadValue
  | none => .null
  | some s => .text s

structure RecordCall where
  customerNumber : String
  channel : ConsentChannel
  status : ConsentStatus
  source : ConsentSource
  scope : ConsentScope := .global
  lineNumber : Option String := none
  sourceDetail : Option String := none
  createdByUserId : Option UUID := none
  reason : Option String := none
  deriving DecidableEq, Repr

inductive FlushError
  | notNullViolation (column : String)
  | stringDataRightTruncation (column : String)
  deriving DecidableEq, Repr

variable (phonenumbers : PhoneNumbers)

def fits (column : String) (value : Option String) : Except FlushError Unit :=
  match value with
  | none => .ok ()
  | some s =>
    if s.length ≤ USPhoneType.length then .ok () else .error (.stringDataRightTruncation column)

def storedRow (organizationId : UUID) (call : RecordCall) (id : UUID) (now : Instant) :
    Except FlushError ConsentRecord :=
  let lineNumber := USPhoneType.processBindParam phonenumbers call.lineNumber
  match USPhoneType.processBindParam phonenumbers (some call.customerNumber) with
  | none => .error (.notNullViolation "customer_number")
  | some customerNumber => do
    fits "customer_number" (some customerNumber)
    fits "line_number" lineNumber
    return { id, organizationId, customerNumber, channel := call.channel, scope := call.scope,
             lineNumber, status := call.status, source := call.source,
             sourceDetail := call.sourceDetail, createdByUserId := call.createdByUserId,
             reason := call.reason, createdAt := now }

structure Recorded where
  row : ConsentRow
  table : ConsentTable
  routingKey : String
  payload : List (String × PayloadValue)

/-- The session's row keeps the strings it was given, and the event is built from it. -/
def record (db : ConsentTable) (organizationId : UUID) (call : RecordCall) (id : UUID) (now : Instant) :
    Except FlushError Recorded := do
  let stored ← storedRow phonenumbers organizationId call id now
  let row : ConsentRow := ⟨stored, some (call.customerNumber, call.lineNumber)⟩
  return {
    row
    table := db ++ [row]
    routingKey := consentEventRoutingKey
    payload := [
      ("consent_id", .uuid row.object.id),
      ("organization_id", .uuid row.object.organizationId),
      ("customer_number", .text row.object.customerNumber),
      ("channel", .text row.object.channel.value),
      ("scope", .text row.object.scope.value),
      ("line_number", .ofText row.object.lineNumber),
      ("status", .text row.object.status.value),
      ("source", .text row.object.source.value),
      ("source_detail", .ofText row.object.sourceDetail),
      ("created_by_user_id", (row.object.createdByUserId.map .uuid).getD .null),
      ("reason", .ofText row.object.reason),
      ("created_at", .instant row.object.createdAt)] }

/-- A check runs on the session that recorded the row, which still keeps that object unexpired, or on any other. -/
inductive Reader
  | recorder
  | other
  deriving DecidableEq, Repr

def Reader.row : Reader → ConsentRow → ConsentRow
  | .recorder, row => row
  | .other, row => row.expire

def Reader.table (reader : Reader) (db : ConsentTable) (out : Recorded) : ConsentTable := db ++ [reader.row out.row]

def Reader.line (reader : Reader) (call : RecordCall) : Option String :=
  match reader with
  | .recorder => call.lineNumber
  | .other => USPhoneType.processBindParam phonenumbers call.lineNumber

variable {phonenumbers}

lemma storedRow_spec {organizationId : UUID} {call : RecordCall} {id : UUID} {now : Instant}
    {row : ConsentRecord} (h : storedRow phonenumbers organizationId call id now = .ok row) :
    row.organizationId = organizationId ∧ row.createdAt = now ∧
      USPhoneType.processBindParam phonenumbers (some call.customerNumber) = some row.customerNumber ∧
      row.channel = call.channel ∧ row.scope = call.scope ∧ row.status = call.status ∧
      row.lineNumber = USPhoneType.processBindParam phonenumbers call.lineNumber := by
  rw [storedRow] at h
  cases hc : USPhoneType.processBindParam phonenumbers (some call.customerNumber) with
  | none => simp [hc] at h
  | some number =>
    simp only [hc] at h
    cases hn : fits "customer_number" (some number) with
    | error e => simp [hn, bind, Except.bind] at h
    | ok u =>
      cases hl : fits "line_number" (USPhoneType.processBindParam phonenumbers call.lineNumber) with
      | error e => simp [hn, hl, bind, Except.bind] at h
      | ok v =>
        simp only [hn, hl, bind, Except.bind, pure, Except.pure, Except.ok.injEq] at h
        subst h
        simp

lemma record_ok (db : ConsentTable) {organizationId : UUID} {call : RecordCall} {id : UUID} {now : Instant}
    {row : ConsentRecord} (h : storedRow phonenumbers organizationId call id now = .ok row) :
    ∃ out, record phonenumbers db organizationId call id now = .ok out ∧
      out.row = ⟨row, some (call.customerNumber, call.lineNumber)⟩ := by
  simp [record, h, bind, Except.bind, pure, Except.pure]

lemma reader_row {organizationId : UUID} {call : RecordCall} {id : UUID} {now : Instant} {row : ConsentRecord}
    (h : storedRow phonenumbers organizationId call id now = .ok row) (reader : Reader) :
    ∃ read : ConsentRow, reader.row ⟨row, some (call.customerNumber, call.lineNumber)⟩ = read ∧ read.columns = row ∧
      read.object.channel = call.channel ∧ read.object.scope = call.scope ∧ read.object.status = call.status ∧
      read.object.lineNumber = reader.line phonenumbers call := by
  obtain ⟨-, -, -, hchannel, hscope, hstatus, hline⟩ := storedRow_spec h
  cases reader with
  | recorder => exact ⟨_, rfl, rfl, hchannel, hscope, hstatus, rfl⟩
  | other => exact ⟨_, rfl, rfl, hchannel, hscope, hstatus, hline⟩

def Covers (call : RecordCall) (ourLine : Option String) : Prop :=
  call.scope = .line → ∀ line, call.lineNumber = some line → ourLine = some line

def Honoured (phonenumbers : PhoneNumbers) (reader : Reader) (call : RecordCall) (ourLine : Option String) : Prop :=
  USPhoneType.processBindParam phonenumbers (some (normalizedCustomer phonenumbers call.customerNumber)) =
      USPhoneType.processBindParam phonenumbers (some call.customerNumber) ∧
    match call.scope with
    | .global => reader.line phonenumbers call = none
    | .line => ∃ line, normalizedLine phonenumbers ourLine = some line ∧
        (reader.line phonenumbers call = none ∨ reader.line phonenumbers call = some line)

lemma bucket_covering_iff {call : RecordCall} {reader : Reader} {record : ConsentRecord} {ourLine : Option String}
    (hchannel : record.channel = .text) (hscope : record.scope = call.scope)
    (hline : record.lineNumber = reader.line phonenumbers call) :
    bucket record ∈ coveringBuckets .text (normalizedLine phonenumbers ourLine) ↔
      match call.scope with
      | .global => reader.line phonenumbers call = none
      | .line => ∃ line, normalizedLine phonenumbers ourLine = some line ∧
          (reader.line phonenumbers call = none ∨ reader.line phonenumbers call = some line) := by
  rw [bucket, hchannel, hscope, hline]
  cases hs : call.scope <;> cases hl : normalizedLine phonenumbers ourLine <;>
    simp [coveringBuckets, or_comm]

/-- An older row that hides every opt-out of its number that does not cover the send: it is restrictive, and no bar
to a text. -/
def hidingRow (row : ConsentRecord) : ConsentRecord :=
  { row with channel := .text, scope := .global, lineNumber := none, status := .doNotCall,
             createdAt := row.createdAt - 1 }

structure Hides (record : ConsentRecord) : Prop where
  channel : record.channel = .text
  scope : record.scope = .global
  line : record.lineNumber = none
  status : record.status = .doNotCall

lemma check_decision (hi : Idempotent phonenumbers) (db : ConsentTable) (organizationId : UUID)
    (n : String) (ourLine : Option String) (channel : ConsentChannel) (sendType : SendType) :
    (checkContactability phonenumbers db organizationId n ourLine channel sendType none).result =
      evaluate (loadConsentState phonenumbers db organizationId n) channel
        (normalizedLine phonenumbers ourLine) sendType := by
  simp only [checkContactability, loadConsentState, ofCustomer, normalizedCustomer_fixed hi]

lemma evaluate_strictly_newest {records : List ConsentRecord} {channel : ConsentChannel}
    {ourLine : Option String} {sendType : SendType} {row : ConsentRecord} (hrow : row ∈ records)
    (hnew : ∀ r ∈ records, r ≠ row → r.createdAt < row.createdAt)
    (hcover : bucket row ∈ coveringBuckets channel ourLine) (hstatus : row.status = doNot channel) :
    (evaluate records channel ourLine sendType).decision = .block := by
  have hn : newestRow records (bucket row) = some row := newestAt_of_strict _ _ hrow hnew
  have hr : restrictive row := by
    cases channel <;> simp [restrictive, hstatus, doNot]
  have hc : row ∈ candidates records channel ourLine := by
    rw [candidates_eq]
    exact List.mem_filter.mpr ⟨mem_coveringRows.mpr ⟨hcover, hn⟩, hr⟩
  obtain ⟨m, hm⟩ := Option.ne_none_iff_exists'.mp
    (show (candidates records channel ourLine).argmax ConsentRecord.createdAt ≠ none by
      simpa using List.ne_nil_of_mem hc)
  have hmem : m ∈ records := by
    have hmc := List.argmax_mem hm
    rw [candidates_eq] at hmc
    exact mem_of_newestRow (mem_coveringRows.mp (List.mem_of_mem_filter hmc)).2
  obtain rfl : m = row := by
    by_contra hne
    exact absurd (List.le_of_mem_argmax hc hm) (not_le_of_gt (hnew m hmem hne))
  rw [evaluate_block (List.ne_nil_of_mem hc)]
  exact Or.inr ⟨m, hm, (judge_block hcover).mpr hstatus⟩

lemma mask_hides (row : ConsentRecord) : Hides (hidingRow row) := ⟨rfl, rfl, rfl, rfl⟩

lemma Hides.bucket {record : ConsentRecord} (h : Hides record) : bucket record = (.text, .global, none) := by
  rw [TheCargo.Consent.bucket, h.channel, h.scope, h.line]

lemma evaluate_hidden {records : List ConsentRecord} {ourLine : Option String} {sendType : SendType}
    {mask row : ConsentRecord} (hrecords : ∀ r, r ∈ records ↔ r = mask ∨ r = row) (hhides : Hides mask)
    (hstatus : row.status = .doNotText) (hcover : bucket row ∉ coveringBuckets .text ourLine) :
    (evaluate records .text ourLine sendType).decision ≠ .block := by
  have hcovering : ∀ r ∈ coveringRows records .text ourLine, r = mask := by
    intro r hr
    obtain ⟨hb, hn⟩ := mem_coveringRows.mp hr
    rcases (hrecords r).mp (mem_of_newestRow hn) with h | h
    · exact h
    · exact absurd (h ▸ hb) hcover
  have hg : newestRow records (.text, .global, none) = some mask := by
    have hne : bucket row ≠ (.text, .global, none) := by
      intro he
      exact hcover (by simp [he, coveringBuckets])
    cases hn : newestRow records (.text, .global, none) with
    | none =>
      have he := List.filter_eq_nil_iff.mp (newest_eq_none _ hn) mask ((hrecords _).mpr (Or.inl rfl))
      exact absurd (decide_eq_true hhides.bucket) he
    | some r =>
      rcases (hrecords r).mp (mem_of_newestRow hn) with h | h
      · rw [h]
      · exact absurd (h ▸ bucket_of_newestRow hn) hne
  have hc : mask ∈ candidates records .text ourLine := by
    rw [candidates_eq]
    refine List.mem_filter.mpr ⟨mem_coveringRows.mpr ⟨?_, by rw [hhides.bucket]; exact hg⟩, ?_⟩
    · simp [hhides.bucket, coveringBuckets]
    · simp [restrictive, hhides.status]
  rw [Ne, evaluate_block (List.ne_nil_of_mem hc)]
  rintro (⟨channel, r, hn, hs⟩ | ⟨r, hr, hj⟩)
  · rcases (hrecords r).mp (mem_of_newestRow hn) with rfl | rfl
    · simp [hhides.status] at hs
    · simp [hstatus] at hs
  · have hm := List.argmax_mem hr
    rw [candidates_eq] at hm
    have he := hcovering r (List.mem_of_mem_filter hm)
    subst he
    simp [judge, hhides.status, allowResult] at hj

lemma newest_opt_out_blocks {history : ConsentTable} {row : ConsentRow} {number : String} {ourLine : Option String}
    {sendType : SendType}
    (hkey : USPhoneType.processBindParam phonenumbers (some (normalizedCustomer phonenumbers number)) =
      some row.columns.customerNumber)
    (hstatus : row.object.status = .doNotText) (hcover : bucket row.object ∈ coveringBuckets .text ourLine)
    (holder : ∀ r ∈ history, r.columns.organizationId = row.columns.organizationId →
      r.columns.customerNumber = row.columns.customerNumber → r.createdAt < row.createdAt) :
    (evaluate (loadConsentState phonenumbers (history ++ [row]) row.columns.organizationId number) .text ourLine
      sendType).decision = .block := by
  refine evaluate_strictly_newest ?_ ?_ hcover hstatus
  · exact mem_loadConsentState.mpr ⟨row, mem_ofCustomer.mpr ⟨by simp, rfl, hkey⟩, rfl⟩
  · intro record hrecord hne
    obtain ⟨r, hr, rfl⟩ := mem_loadConsentState.mp hrecord
    obtain ⟨hm, hro, hrn⟩ := mem_ofCustomer.mp hr
    rw [ConsentRow.object_createdAt, ConsentRow.object_createdAt]
    rcases List.mem_append.mp hm with hm | hm
    · exact holder r hm hro (Option.some.inj (hrn.symm.trans hkey))
    · exact absurd (congrArg ConsentRow.object (List.mem_singleton.mp hm)) hne

lemma hidden_opt_out_blocks_nothing {row : ConsentRow} {number : String} {ourLine : Option String}
    {sendType : SendType} (hstatus : row.object.status = .doNotText)
    (hcover : USPhoneType.processBindParam phonenumbers (some (normalizedCustomer phonenumbers number)) =
      some row.columns.customerNumber → bucket row.object ∉ coveringBuckets .text ourLine) :
    (evaluate (loadConsentState phonenumbers ([⟨hidingRow row.columns, none⟩] ++ [row]) row.columns.organizationId
      number) .text ourLine sendType).decision ≠ .block := by
  by_cases hkey : USPhoneType.processBindParam phonenumbers (some (normalizedCustomer phonenumbers number)) =
      some row.columns.customerNumber
  · refine evaluate_hidden ?_ (mask_hides row.columns) hstatus (hcover hkey)
    intro record
    rw [mem_loadConsentState]
    simp only [mem_ofCustomer, hkey]
    constructor
    · rintro ⟨r, ⟨hr, -⟩, rfl⟩
      rcases List.mem_append.mp hr with hr | hr
      · exact .inl (congrArg ConsentRow.object (List.mem_singleton.mp hr))
      · exact .inr (congrArg ConsentRow.object (List.mem_singleton.mp hr))
    · rintro (rfl | rfl)
      · exact ⟨⟨hidingRow row.columns, none⟩, ⟨List.mem_cons_self, rfl, rfl⟩, rfl⟩
      · exact ⟨row, ⟨by simp, rfl, rfl⟩, rfl⟩
  · have hnil : loadConsentState phonenumbers ([⟨hidingRow row.columns, none⟩] ++ [row]) row.columns.organizationId
        number = [] := by
      apply List.eq_nil_iff_forall_not_mem.mpr
      intro record hrecord
      obtain ⟨r, hr, -⟩ := mem_loadConsentState.mp hrecord
      obtain ⟨hr, -, hk⟩ := mem_ofCustomer.mp hr
      have hsame : r.columns.customerNumber = row.columns.customerNumber := by
        rcases List.mem_append.mp hr with hr | hr
        · rw [List.mem_singleton.mp hr]
          rfl
        · rw [List.mem_singleton.mp hr]
      exact hkey (hsame ▸ hk)
    rw [hnil]
    intro hb
    cases hb

theorem recorded_opt_out_honoured_iff (phonenumbers : PhoneNumbers) (hi : Idempotent phonenumbers)
    (organizationId : UUID) (call : RecordCall) (id : UUID) (now : Instant) (row : ConsentRecord)
    (hchannel : call.channel = .text) (hstatus : call.status = .doNotText)
    (haccepted : storedRow phonenumbers organizationId call id now = .ok row)
    (reader : Reader) (ourLine : Option String) (sendType : SendType) :
    (∀ history out, record phonenumbers history organizationId call id now = .ok out →
      (∀ r ∈ history, r.columns.organizationId = organizationId → r.columns.customerNumber = row.customerNumber →
        r.columns.createdAt < now) →
      (checkContactability phonenumbers (reader.table history out) organizationId call.customerNumber ourLine .text
        sendType none).result.decision = .block) ↔
    Honoured phonenumbers reader call ourLine := by
  obtain ⟨horg, hnow, hnumber, -⟩ := storedRow_spec haccepted
  obtain ⟨read, hread, rfl, hch, hscope, hst, hline⟩ := reader_row haccepted reader
  have hcov : bucket read.object ∈ coveringBuckets .text (normalizedLine phonenumbers ourLine) ↔ _ :=
    bucket_covering_iff (hch.trans hchannel) hscope hline
  subst horg hnow
  constructor
  · intro h
    by_contra hn
    obtain ⟨out, hout, hrow⟩ := record_ok [⟨hidingRow read.columns, none⟩] haccepted
    have hb := h _ out hout (fun r hr _ _ => by
      rw [List.mem_singleton.mp hr]
      exact Int.sub_one_lt_of_le le_rfl)
    rw [check_decision hi, Reader.table, hrow, hread] at hb
    refine hidden_opt_out_blocks_nothing (hst.trans hstatus) ?_ hb
    exact fun hkey hc => hn ⟨hkey.trans hnumber.symm, hcov.mp hc⟩
  · rintro ⟨hkey, hmatch⟩ history out hout holder
    obtain ⟨out', hout', hrow⟩ := record_ok history haccepted
    obtain rfl : out = out' := by simpa using hout.symm.trans hout'
    rw [check_decision hi, Reader.table, hrow, hread]
    exact newest_opt_out_blocks (hkey.trans hnumber) (hst.trans hstatus) (hcov.mpr hmatch) holder

def twoNumbers : PhoneNumbers where
  PhoneNumber := String
  parse value _ :=
    if value = "(323) 555-0100" ∨ value = "+13235550100" then .ok "+13235550100"
    else if value = "(800) 555-0001" then .ok "+18005550001"
    else if value = "+18005550001" ∨ value = "28849" then .ok value
    else .error "(1) The string supplied did not seem to be a phone number."
  isValidNumber number := number ≠ "28849"
  formatNumber number _ := number

lemma twoNumbers_idempotent : Idempotent twoNumbers := by
  have hvalues : ∀ value p, normalizeUsPhone twoNumbers value = .ok (some p) →
      p = "+13235550100" ∨ p = "+18005550001" := by
    intro value p h
    cases value with
    | none => simp [normalizeUsPhone] at h
    | some value =>
      simp only [normalizeUsPhone, twoNumbers] at h
      by_cases hshort : strip value = "28849" <;> split_ifs at h <;> simp_all
  intro value p h
  rcases hvalues value p h with rfl | rfl <;> decide

def optOutOf (scope : ConsentScope) (lineNumber : Option String) : RecordCall where
  customerNumber := "(323) 555-0100"
  channel := .text
  status := .doNotText
  source := .keyword
  scope := scope
  lineNumber := lineNumber

theorem line_opt_out_honoured :
    (∀ history out, record twoNumbers history 1 (optOutOf .line "+18005550001") 7 100 = .ok out →
      (∀ r ∈ history, r.columns.organizationId = 1 → r.columns.customerNumber = "+13235550100" →
        r.columns.createdAt < 100) →
      (checkContactability twoNumbers (Reader.recorder.table history out) 1 "(323) 555-0100" "+18005550001" .text
        .manual none).result.decision = .block) ↔
    Honoured twoNumbers .recorder (optOutOf .line "+18005550001") "+18005550001" :=
  recorded_opt_out_honoured_iff twoNumbers twoNumbers_idempotent 1 (optOutOf .line "+18005550001") 7 100
    ⟨7, 1, "+13235550100", .text, .line, "+18005550001", .doNotText, .keyword, none, none, none, 100⟩
    rfl rfl (by decide) .recorder "+18005550001" .manual

theorem short_code_opt_out_not_honoured :
    (Covers (optOutOf .line "28849") "28849" ∧
      ∃ out, record twoNumbers [] 1 (optOutOf .line "28849") 7 100 = .ok out ∧
        (checkContactability twoNumbers (Reader.other.table [] out) 1 "(323) 555-0100" "28849" .text .manual
          none).result.decision = .warn) ∧
    Covers (optOutOf .line "(800) 555-0001") "(800) 555-0001" ∧
      ∃ out, record twoNumbers [] 1 (optOutOf .line "(800) 555-0001") 7 100 = .ok out ∧
        (checkContactability twoNumbers (Reader.recorder.table [] out) 1 "(323) 555-0100" "(800) 555-0001" .text .manual
          none).result.decision = .warn ∧
        (checkContactability twoNumbers (Reader.other.table [] out) 1 "(323) 555-0100" "(800) 555-0001" .text .manual
          none).result.decision = .block :=
  ⟨⟨fun _ _ h => h, _, rfl, by decide⟩, fun _ _ h => h, _, rfl, by decide, by decide⟩

end TheCargo.Repositories.Consent
