import TheCargo.Consent.Evaluate
import TheCargo.Db.Types
import TheCargo.Foundation.Grouping

namespace TheCargo.Consent

open Foundation Models Utils.Phone Db.Types

variable (phonenumbers : PhoneNumbers)

/-- A row of `consent_records` in a session. Queries compare the columns; the object that they return keeps the two
numbers as they were `given` in the session that recorded the row, until that session expires it or lets it go. -/
structure ConsentRow where
  columns : ConsentRecord
  given : Option (String × Option String)
  deriving DecidableEq

def ConsentRow.object (row : ConsentRow) : ConsentRecord :=
  match row.given with
  | none => row.columns
  | some (customerNumber, lineNumber) => { row.columns with customerNumber, lineNumber }

def ConsentRow.createdAt (row : ConsentRow) : Instant := row.columns.createdAt

def ConsentRow.expire (row : ConsentRow) : ConsentRow := { row with given := none }

abbrev ConsentTable := List ConsentRow

abbrev ConsentCache := Dict (UUID × String) (List ConsentRecord)

def consentCacheKey (organizationId : UUID) (customerNumber : String) : UUID × String :=
  (organizationId, customerNumber)

def normalizedCustomer (customerNumber : String) : String :=
  orElse (normalizePhone phonenumbers (some customerNumber)) customerNumber

def normalizedLine (ourLine : Option String) : Option String :=
  match ourLine with
  | none => none
  | some line => if line = "" then none else normalizePhone phonenumbers (some line)

def ofCustomer (db : ConsentTable) (organizationId : UUID) (customerNumber : String) : List ConsentRow :=
  let normalized := normalizedCustomer phonenumbers customerNumber
  db.filter (fun row => row.columns.organizationId = organizationId &&
    USPhoneType.processBindParam phonenumbers (some normalized) = some row.columns.customerNumber)

def loadConsentState (db : ConsentTable) (organizationId : UUID) (customerNumber : String) :
    List ConsentRecord :=
  (sortedBy ConsentRow.createdAt (ofCustomer phonenumbers db organizationId customerNumber)).map ConsentRow.object

structure Checked where
  result : ContactabilityResult
  cache : Option ConsentCache
  queries : ℕ

def checkContactability (db : ConsentTable) (organizationId : UUID) (customerNumber : String)
    (ourLine : Option String) (channel : ConsentChannel) (sendType : SendType)
    (cache : Option ConsentCache) : Checked :=
  let customer := normalizedCustomer phonenumbers customerNumber
  let line := normalizedLine phonenumbers ourLine
  match cache with
  | none =>
    let records := loadConsentState phonenumbers db organizationId customer
    ⟨evaluate records channel line sendType, none, 1⟩
  | some cache =>
    let cacheKey := consentCacheKey organizationId customer
    match cache.get? cacheKey with
    | some records => ⟨evaluate records channel line sendType, some cache, 0⟩
    | none =>
      let records := loadConsentState phonenumbers db organizationId customer
      ⟨evaluate records channel line sendType, some (cache.set cacheKey records), 1⟩

variable {phonenumbers}

@[simp] lemma ConsentRow.object_createdAt (row : ConsentRow) : row.object.createdAt = row.createdAt := by
  obtain ⟨columns, given⟩ := row
  cases given <;> rfl

lemma mem_ofCustomer {db : ConsentTable} {organizationId : UUID} {customerNumber : String} {row : ConsentRow} :
    row ∈ ofCustomer phonenumbers db organizationId customerNumber ↔
      row ∈ db ∧ row.columns.organizationId = organizationId ∧
        USPhoneType.processBindParam phonenumbers (some (normalizedCustomer phonenumbers customerNumber)) =
          some row.columns.customerNumber := by
  simp [ofCustomer]

lemma mem_loadConsentState {db : ConsentTable} {organizationId : UUID} {customerNumber : String}
    {record : ConsentRecord} : record ∈ loadConsentState phonenumbers db organizationId customerNumber ↔
      ∃ row ∈ ofCustomer phonenumbers db organizationId customerNumber, row.object = record := by
  simp [loadConsentState, sortedBy, List.mem_insertionSort]

lemma normalizedCustomer_fixed (hi : Idempotent phonenumbers) (n : String) :
    normalizedCustomer phonenumbers (normalizedCustomer phonenumbers n) =
      normalizedCustomer phonenumbers n :=
  hi.orElse_fixed n

end TheCargo.Consent
