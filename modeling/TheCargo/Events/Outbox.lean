import Mathlib.Data.List.Sort
import TheCargo.Foundation.Json
import TheCargo.Models.Base

/-! Outbox rows, the statements that change them and the message a row is sent as. -/

namespace TheCargo.Events.Outbox

open Foundation Models

def second : Instant := 1000000

def relayGraceSeconds : Instant := 30
def relayBatch : ℕ := 200
def relayMaxAttempts : ℕ := 10
def reclaimAfterSeconds : Instant := 300
def cleanupRetentionDays : Instant := 7

inductive Status
  | pending
  | publishing
  | published
  deriving DecidableEq, Repr

structure OutboxEvent where
  id : UUID
  routingKey : String
  payload : Payload
  status : Status
  attempts : ℕ
  publishedAt : Option Instant
  lastError : Option String
  createdAt : Instant
  updatedAt : Instant

def publishEvent (id : UUID) (routingKey : String) (payload : Payload) (now : Instant) : OutboxEvent where
  id := id
  routingKey := routingKey
  payload := payload
  status := .pending
  attempts := 0
  publishedAt := none
  lastError := none
  createdAt := now
  updatedAt := now

def message (payload : Payload) (eventId : UUID) : Payload :=
  match payload.get? "event_id" with
  | some named => if named.truthy then payload else payload.set "event_id" (.str eventId.str)
  | none => payload.set "event_id" (.str eventId.str)

-- `onupdate=func.now()` stamps `updated_at` on every update.
def update (ids : List UUID) (now : Instant) (set : OutboxEvent → OutboxEvent)
    (table : List OutboxEvent) : List OutboxEvent :=
  table.map (fun row => if row.id ∈ ids then { set row with updatedAt := now } else row)

def markPublished (ids : List UUID) (now : Instant) : List OutboxEvent → List OutboxEvent :=
  update ids now (fun row =>
    { row with status := .published, publishedAt := some now, attempts := row.attempts + 1 })

def due (now : Instant) (locked : List UUID) (table : List OutboxEvent) : List OutboxEvent :=
  let cutoff := now - relayGraceSeconds * second
  ((table.filter (fun (row : OutboxEvent) => row.status = .pending && row.createdAt < cutoff &&
      row.attempts < relayMaxAttempts && row.id ∉ locked)).insertionSort
    (fun a b => a.createdAt ≤ b.createdAt)).take relayBatch

def claim (ids : List UUID) (now : Instant) : List OutboxEvent → List OutboxEvent :=
  update ids now (fun row => { row with status := .publishing, attempts := row.attempts + 1 })

def stampPublished (ids : List UUID) (now : Instant) : List OutboxEvent → List OutboxEvent :=
  update ids now (fun row => { row with status := .published, publishedAt := some now })

def stampFailed (failed : List (UUID × String)) (now : Instant) (table : List OutboxEvent) :
    List OutboxEvent :=
  failed.foldl (fun table e =>
    update [e.1] now (fun row => { row with status := .pending, lastError := some e.2 }) table) table

def reclaimStuck (now : Instant) (table : List OutboxEvent) : List OutboxEvent :=
  let cutoff := now - reclaimAfterSeconds * second
  table.map (fun row =>
    if row.status = .publishing ∧ row.updatedAt < cutoff then
      { row with status := .pending, updatedAt := now }
    else row)

def cleanupPublished (now : Instant) (olderThanDays : Instant) (table : List OutboxEvent) :
    List OutboxEvent :=
  let cutoff := now - olderThanDays * 86400 * second
  table.filter (fun (row : OutboxEvent) => ¬ (row.status = .published ∧ ∃ t ∈ row.publishedAt, t < cutoff))

end TheCargo.Events.Outbox
