import Mathlib.Data.Int.Notation
import TheCargo.Foundation.Attempts

namespace TheCargo.Storage

open Foundation

structure ErrorResponse where
  code : Option String
  httpStatusCode : Option ℤ
  deriving DecidableEq

inductive StorageError
  | clientError (response : ErrorResponse)
  | botoCoreError
  | connectionError
  | osError
  | other
  deriving DecidableEq

def maxRetries : ℕ := 3

/-- `isinstance(e, _TRANSIENT)` -/
def isTransient : StorageError → Bool
  | .other => false
  | _ => true

def nonRetryableCodes : List String :=
  ["NoSuchKey", "NoSuchBucket", "AccessDenied", "InvalidAccessKeyId", "SignatureDoesNotMatch"]

def clientErrorCode : StorageError → String × Option ℤ
  | .clientError response => (response.code.getD "", response.httpStatusCode)
  | _ => ("", none)

def isRetryable (exc : StorageError) : Bool :=
  let (code, status) := clientErrorCode exc
  if nonRetryableCodes.contains code then false
  else
    match status with
    | some status => !(400 ≤ status && status < 500)
    | none => true

def isMissingObjectError (exc : StorageError) : Bool :=
  let (code, status) := clientErrorCode exc
  code == "NoSuchKey" || status == some 404

def retried (exc : StorageError) : Bool := isTransient exc && isRetryable exc

/-- `_retry`: the result, and how often the function was called. To raise no exception at all is an error of its own. -/
def retry {α : Type} (func : ℕ → Except StorageError α) : Except StorageError α × ℕ :=
  attempts retried func .other maxRetries 0 none

/-- `head_object` and what is made of its outcome; no error is success. -/
def headObject : Option StorageError → Except StorageError Bool
  | none => .ok true
  | some (.clientError _) => .ok false
  | some e => .error e

/-- `outcomes` are those of the calls of `head_object`, which needs the client. -/
def objectExists (connected : Bool) (outcomes : ℕ → Option StorageError) : Except StorageError Bool × ℕ :=
  retry (fun k => if connected then headObject (outcomes k) else .ok false)

structure AnswersKnown (outcomes : ℕ → Option StorageError) (r : Except StorageError Bool × ℕ) : Prop where
  calls : 0 < r.2 ∧ r.2 ≤ maxRetries
  before : ∀ k, k + 1 < r.2 → ∃ e, outcomes k = some e ∧ retried e = true
  absent : r.1 = .ok false ↔ ∃ e, outcomes (r.2 - 1) = some e ∧ isMissingObjectError e = true
  present : r.1 = .ok true ↔ outcomes (r.2 - 1) = none
  raises : ∀ e, r.1 = .error e ↔ outcomes (r.2 - 1) = some e ∧ isMissingObjectError e = false
  retries : ∀ e, outcomes (r.2 - 1) = some e → retried e = true → r.2 = maxRetries

def isClientError : StorageError → Bool
  | .clientError _ => true
  | _ => false

def FirstIsMissing (outcomes : ℕ → Option StorageError) : Prop :=
  ∀ k < maxRetries, (∀ j < k, ∃ e, outcomes j = some e ∧ isClientError e = false ∧ retried e = true) →
    ∀ e, outcomes k = some e → isClientError e = true → isMissingObjectError e = true

variable {outcomes : ℕ → Option StorageError} {e : StorageError} {k : ℕ}

lemma retried_of_missing (h : isMissingObjectError e = true) : retried e = false := by
  cases e with
  | clientError response =>
    obtain ⟨code, status⟩ := response
    simp only [isMissingObjectError, clientErrorCode, Bool.or_eq_true, beq_iff_eq] at h
    rw [retried, isRetryable, clientErrorCode]
    rcases h with h | rfl
    · rw [h]
      rfl
    · dsimp only
      split <;> rfl
  | botoCoreError => cases h
  | connectionError => cases h
  | osError => cases h
  | other => cases h

lemma missing_client (h : isMissingObjectError e = true) : isClientError e = true := by
  cases e with
  | clientError response => rfl
  | botoCoreError => cases h
  | connectionError => cases h
  | osError => cases h
  | other => cases h

lemma headObject_error_iff {o : Option StorageError} :
    headObject o = .error e ↔ o = some e ∧ isClientError e = false := by
  rcases o with _ | _ | _ <;> cases e <;> simp [headObject, isClientError]

lemma headObject_false_iff {o : Option StorageError} :
    headObject o = .ok false ↔ ∃ e, o = some e ∧ isClientError e = true := by
  rcases o with _ | _ | _ <;> simp [headObject, isClientError]

lemma headObject_true_iff {o : Option StorageError} : headObject o = .ok true ↔ o = none := by
  rcases o with _ | _ | _ <;> simp [headObject]

lemma objectExists_attempted (outcomes : ℕ → Option StorageError) :
    Attempted retried (fun k => headObject (outcomes k)) maxRetries (objectExists true outcomes) :=
  attempts_spec (Nat.zero_add _) (fun _ hk => absurd hk (Nat.not_lt_zero _)) (fun h => nomatch h)

lemma before_of_attempted (hk : k + 1 < (objectExists true outcomes).2) :
    ∃ e, outcomes k = some e ∧ isClientError e = false ∧ retried e = true := by
  obtain ⟨e, he, hagain⟩ := (objectExists_attempted outcomes).before k hk
  obtain ⟨hsome, hclient⟩ := headObject_error_iff.mp he
  exact ⟨e, hsome, hclient, hagain⟩

-- The first call that is answered by a client error ends the attempts with `False`.
lemma attempted_first_client (hk : k < maxRetries) (he : outcomes k = some e) (hclient : isClientError e = true)
    (hbefore : ∀ j < k, ∃ e, outcomes j = some e ∧ isClientError e = false ∧ retried e = true) :
    Attempted retried (fun k => headObject (outcomes k)) maxRetries (.ok false, k + 1) := by
  have hfalse : headObject (outcomes k) = .ok false := headObject_false_iff.mpr ⟨e, he, hclient⟩
  refine ⟨⟨Nat.succ_pos k, hk⟩, hfalse, fun j hj => ?_, fun _ h => nomatch h⟩
  obtain ⟨e, he, hclient, hagain⟩ := hbefore j (Nat.lt_of_succ_lt_succ hj)
  exact ⟨e, headObject_error_iff.mpr ⟨he, hclient⟩, hagain⟩

lemma client_iff_missing (hfirst : FirstIsMissing outcomes)
    (he : outcomes ((objectExists true outcomes).2 - 1) = some e) :
    isClientError e = true ↔ isMissingObjectError e = true := by
  obtain ⟨hpos, hle⟩ := (objectExists_attempted outcomes).made
  refine ⟨?_, missing_client⟩
  exact hfirst _ (by omega) (fun j hj => before_of_attempted (by omega)) e he

lemma not_client_of_retried (hfirst : FirstIsMissing outcomes)
    (he : outcomes ((objectExists true outcomes).2 - 1) = some e) (hagain : retried e = true) :
    isClientError e = false := by
  rw [← Bool.not_eq_true, client_iff_missing hfirst he]
  intro hmissing
  rw [retried_of_missing hmissing] at hagain
  cases hagain

def unavailable : ℕ → Option StorageError := fun _ => some (.clientError ⟨some "503", some 503⟩)

end TheCargo.Storage
