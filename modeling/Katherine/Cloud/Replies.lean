import Katherine.Cloud.Identifiers
import Katherine.Cloud.Jobs
import Katherine.Lib.JsonObject

/-!
# The ledger's answers, as the repository reads them

The account deletion procedures answer with JSON objects, and `backend/account_deletion.py`
reads these with parsers that turn down whatever they do not know: unknown fields, missing
fields, wrong types, malformed identifiers. On the way a field that is null may be left out or
not, and fields may come in any order.

No parser turns down what its procedure says (`answers_are_read`). For a leased job, and for a
completed one, this is a fact about reachable states and not about the procedure alone: a row
without its user, or without its purge marker, would make an object the parser does not accept.
-/

namespace Katherine.Cloud.Replies

open Py Sql Pg Runs

/-! ## What the parsers are made of -/

/-- What the repository raises. -/
inductive RepositoryError
  /-- `PersistenceError("database_error", message)`. -/
  | persistence (message : PyStr)
  /-- `ConflictError(ERROR_OPERATION_CONFLICT, message, 0)`. -/
  | conflict (message : PyStr)
  /-- `ValidationError(ERROR_VALIDATION_FAILED, message)`. -/
  | validation (message : PyStr)
deriving DecidableEq

abbrev Parsed (α : Type) := Except RepositoryError α

def malformed {α : Type} : Parsed α := .error (.persistence (py "malformed retention response"))

def persistenceError {α : Type} : Parsed α := .error (.persistence (py "persistence error"))

/-- `_require_mapping`. -/
def requireMapping : PyVal → Parsed (List (PyKey × PyVal))
  | .dict envelope => .ok envelope
  | _ => malformed

section

variable (envelope : List (PyKey × PyVal))

/-- `key in envelope`. -/
def hasField (key : PyStr) : Bool := (dictGet envelope key).isSome

/-- `_require_fields`; without optional fields, `set(envelope) == required`. -/
def requireFields (required optional : List PyStr) : Parsed Unit :=
  if required.all (hasField envelope) && envelope.all (PyKey.isOneOf (required ++ optional) ·.1) then
    .ok ()
  else malformed

/-- `_require_text`. -/
def requireText (key : PyStr) : Parsed PyStr :=
  match dictGet envelope key with
  | some (.str value) => .ok value
  | _ => malformed

/-- `value in allowed`. -/
def requireOneOf (allowed : List PyStr) (value : PyStr) : Parsed Unit :=
  if value ∈ allowed then .ok () else malformed

/-- `re.match` with a `$` at the end, which also matches before a last line feed. -/
def matchLine (p : PyStr → Bool) (s : PyStr) : Bool :=
  p s || (decide (s.getLast? = some (cp '\n')) && p s.dropLast)

/-- A text that its regular expression matches. -/
def requireMatch (p : PyStr → Bool) (key : PyStr) : Parsed PyStr := do
  let value ← requireText envelope key
  if p value then .ok value else malformed

/-- `_require_uuid_text`. -/
def requireUuid (key : PyStr) : Parsed PyStr := requireMatch envelope requireUuidText key

/-- `_require_hex64`. -/
def requireHex64 (key : PyStr) : Parsed PyStr := requireMatch envelope (matchLine isSha256Hex) key

/-- `_optional_text`. -/
def optionalText (key : PyStr) : Parsed (Option PyStr) :=
  match dictGet envelope key with
  | none => .ok none
  | some .none => .ok none
  | some (.str value) => .ok (some value)
  | _ => malformed

/-- `_require_int`. -/
def requireInt (key : PyStr) : Parsed Int :=
  match dictGet envelope key with
  | some (.int value) => .ok value
  | _ => malformed

/-- `_parse_error_envelope`: the code and the message. -/
def parseErrorEnvelope : Parsed (PyStr × PyStr) := do
  requireFields envelope [py "error"] []
  let error ← requireMapping ((dictGet envelope (py "error")).getD .none)
  requireFields error [py "code", py "message"] []
  let code ← requireText error (py "code")
  let message ← requireText error (py "message")
  return (code, message)

/-- What a parser does with an error envelope; `conflict` is the code it takes for a conflict. -/
def raiseError {α : Type} (conflict : Option PyStr) : Parsed α := do
  let (code, message) ← parseErrorEnvelope envelope
  if some code = conflict then .error (.conflict message) else .error (.validation message)

end

/-! ## The parsers -/

def statuses : List PyStr := [py "pending", py "processing", py "completed", py "failed"]

structure RequestResult where
  status : PyStr
  jobId : PyStr
  jobStatus : PyStr
  dbPurgedAt : Option PyStr
  completedAt : Option PyStr

structure TombstoneStatus where
  present : Bool
  status : Option PyStr

structure AcquiredJob where
  jobId : PyStr
  userId : PyStr
  userRefHmac : PyStr
  operationId : PyStr
  status : PyStr
  leaseOwner : PyStr
  leaseExpiresAt : PyStr
  attempts : Int
  dbPurgedAt : Option PyStr
  intentFingerprint : PyStr

structure PurgeResult where
  status : PyStr
  jobId : PyStr
  dbPurgedAt : PyStr
  counts : List (PyStr × Int)

structure FailureResult where
  jobId : PyStr
  errorCode : PyStr
  nextAttemptAt : Option PyStr

structure RetryResult where
  status : PyStr
  jobId : PyStr
  nextAttemptAt : Option PyStr

structure FinalizeResult where
  jobId : PyStr
  completedAt : PyStr
  dbPurgedAt : PyStr

/-- `_parse_request_result`. -/
def parseRequestResult (response : PyVal) : Parsed RequestResult := do
  let envelope ← requireMapping response
  if hasField envelope (py "error") then raiseError envelope (some (py "operation_conflict"))
  else
    requireFields envelope [py "status", py "job_id", py "job_status"] [py "db_purged_at", py "completed_at"]
    let status ← requireText envelope (py "status")
    requireOneOf [py "created", py "replay"] status
    let jobStatus ← requireText envelope (py "job_status")
    requireOneOf statuses jobStatus
    let jobId ← requireUuid envelope (py "job_id")
    let dbPurgedAt ← optionalText envelope (py "db_purged_at")
    let completedAt ← optionalText envelope (py "completed_at")
    return { status, jobId, jobStatus, dbPurgedAt, completedAt }

/-- `_parse_tombstone_result`. -/
def parseTombstoneResult (response : PyVal) : Parsed TombstoneStatus := do
  let envelope ← requireMapping response
  if hasField envelope (py "error") then raiseError envelope none
  else
    requireFields envelope [py "exists"] [py "status"]
    match dictGet envelope (py "exists") with
    | some (.bool present) =>
        let status ← optionalText envelope (py "status")
        if status.all (· ∈ statuses) then return { present, status } else malformed
    | _ => malformed

/-- `_parse_acquired_job`. The worker names no expected user. -/
def parseAcquiredJob (response : PyVal) : Parsed (Option AcquiredJob) := do
  let envelope ← requireMapping response
  if hasField envelope (py "error") then raiseError envelope none
  else
    match dictGet envelope (py "found") with
    | some (.bool false) =>
        requireFields envelope [py "found"] []
        return none
    | found =>
        requireFields envelope
          [py "found", py "job_id", py "user_id", py "user_ref_hmac_sha256", py "operation_id", py "status",
            py "lease_owner", py "lease_expires_at", py "attempts", py "intent_fingerprint_sha256"]
          [py "db_purged_at"]
        match found with
        | some (.bool true) =>
            let userId ← requireText envelope (py "user_id")
            let status ← requireText envelope (py "status")
            requireOneOf [py "processing"] status
            let jobId ← requireUuid envelope (py "job_id")
            let userRefHmac ← requireHex64 envelope (py "user_ref_hmac_sha256")
            let operationId ← requireUuid envelope (py "operation_id")
            let leaseOwner ← requireText envelope (py "lease_owner")
            let leaseExpiresAt ← requireText envelope (py "lease_expires_at")
            let attempts ← requireInt envelope (py "attempts")
            let dbPurgedAt ← optionalText envelope (py "db_purged_at")
            let intentFingerprint ← requireHex64 envelope (py "intent_fingerprint_sha256")
            return some { jobId, userId, userRefHmac, operationId, status, leaseOwner, leaseExpiresAt,
                          attempts, dbPurgedAt, intentFingerprint }
        | _ => malformed

/-- `expected_counts`. -/
def expectedCounts : List PyStr :=
  [py "outbox_events", py "turn_requests", py "archival_extractions", py "memories", py "chat_logs",
    py "admission_reservations", py "privacy_operations", py "profiles"]

/-- `_parse_purge_result`. -/
def parsePurgeResult (response : PyVal) : Parsed PurgeResult := do
  let envelope ← requireMapping response
  if hasField envelope (py "error") then raiseError envelope (some (py "operation_conflict"))
  else
    requireFields envelope [py "status", py "job_id", py "db_purged_at", py "counts"] []
    let status ← requireText envelope (py "status")
    requireOneOf [py "purged", py "already_purged"] status
    let counts ← requireMapping ((dictGet envelope (py "counts")).getD .none)
    requireFields counts expectedCounts []
    let counts ← expectedCounts.mapM fun key => do return (key, ← requireInt counts key)
    let jobId ← requireUuid envelope (py "job_id")
    let dbPurgedAt ← requireText envelope (py "db_purged_at")
    return { status, jobId, dbPurgedAt, counts }

/-- `_parse_failure_result`. -/
def parseFailureResult (response : PyVal) : Parsed FailureResult := do
  let envelope ← requireMapping response
  if hasField envelope (py "error") then raiseError envelope none
  else
    requireFields envelope [py "status", py "job_id", py "error_code"] [py "next_attempt_at"]
    let status ← requireText envelope (py "status")
    requireOneOf [py "failed"] status
    let errorCode ← requireMatch envelope (matchLine isCode) (py "error_code")
    let jobId ← requireUuid envelope (py "job_id")
    let nextAttemptAt ← optionalText envelope (py "next_attempt_at")
    return { jobId, errorCode, nextAttemptAt }

/-- `envelope.get(key) == text`. -/
def fieldIs (envelope : List (PyKey × PyVal)) (key text : PyStr) : Bool :=
  match dictGet envelope key with
  | some (.str value) => decide (value = text)
  | _ => false

/-- `_parse_retry_result`. -/
def parseRetryResult (response : PyVal) : Parsed RetryResult := do
  let envelope ← requireMapping response
  if hasField envelope (py "error") then raiseError envelope none
  else if fieldIs envelope (py "status") (py "retry_scheduled") then
    requireFields envelope [py "status", py "job_id", py "next_attempt_at"] []
    let jobId ← requireUuid envelope (py "job_id")
    let nextAttemptAt ← requireText envelope (py "next_attempt_at")
    return { status := py "retry_scheduled", jobId, nextAttemptAt := some nextAttemptAt }
  else if fieldIs envelope (py "status") (py "failed") &&
      fieldIs envelope (py "error_code") (py "attempts_exhausted") then
    requireFields envelope [py "status", py "job_id", py "error_code"] [py "next_attempt_at"]
    let jobId ← requireUuid envelope (py "job_id")
    return { status := py "failed", jobId, nextAttemptAt := none }
  else malformed

/-- `_parse_finalize_result`. -/
def parseFinalizeResult (response : PyVal) : Parsed FinalizeResult := do
  let envelope ← requireMapping response
  if hasField envelope (py "error") then raiseError envelope (some (py "state_conflict"))
  else
    requireFields envelope [py "status", py "job_id", py "completed_at", py "db_purged_at"] []
    let status ← requireText envelope (py "status")
    requireOneOf [py "completed"] status
    let jobId ← requireUuid envelope (py "job_id")
    let completedAt ← requireText envelope (py "completed_at")
    let dbPurgedAt ← requireText envelope (py "db_purged_at")
    return { jobId, completedAt, dbPurgedAt }

/-! ## What the procedures send -/

def errorCodeText : ErrorCode → PyStr
  | .validationFailed => py "validation_failed"
  | .requestPayloadConflict => py "request_payload_conflict"
  | .requestInProgress => py "request_in_progress"
  | .leaseConflict => py "lease_conflict"
  | .revisionMismatch => py "revision_mismatch"
  | .operationConflict => py "operation_conflict"
  | .stateConflict => py "state_conflict"

def statusText : JobStatus → PyStr
  | .pending => py "pending"
  | .processing => py "processing"
  | .completed => py "completed"
  | .failed => py "failed"

def errorFields (e : Envelope) : Fields :=
  [(py "error", .obj [(py "code", .str (errorCodeText e.code)), (py "message", .str (py e.message))])]

/-- The rows deleted, by table. -/
def countList (counts : PurgeCounts) : List (PyStr × Nat) :=
  [(py "outbox_events", counts.outboxEvents), (py "turn_requests", counts.turnRequests),
    (py "archival_extractions", counts.archivalExtractions), (py "memories", counts.memories),
    (py "chat_logs", counts.chatLogs), (py "admission_reservations", counts.admissionReservations),
    (py "privacy_operations", counts.privacyOperations), (py "profiles", counts.profiles)]

def countFields (counts : PurgeCounts) : List (PyStr × PyVal) :=
  (countList counts).map fun m => (m.1, .int m.2)

section

/- A `timestamptz` as `jsonb_build_object` writes it. -/
variable (text : Timestamp → PyStr)

def purgeFields (status : PyStr) (jobId : Uuid) (purgedAt : Timestamp) (counts : PurgeCounts) : Fields :=
  [(py "status", .val (.str status)), (py "job_id", .val (.str jobId.text)),
    (py "db_purged_at", .val (.str (text purgedAt))), (py "counts", .obj (countFields counts))]

/-- The object a procedure returns. -/
def fields : JobReply → Fields
  | .created jobId =>
      [(py "status", .val (.str (py "created"))), (py "job_id", .val (.str jobId.text)),
        (py "job_status", .val (.str (py "pending")))]
  | .replay j =>
      [(py "status", .val (.str (py "replay"))), (py "job_id", .val (.str j.jobId.text)),
        (py "job_status", .val (.str (statusText j.status))),
        (py "db_purged_at", .val (nullable (j.dbPurgedAt.map text))),
        (py "completed_at", .val (nullable (j.completedAt.map text)))]
  | .notFound => [(py "found", .val (.bool false))]
  | .leased j =>
      [(py "found", .val (.bool true)), (py "job_id", .val (.str j.jobId.text)),
        (py "user_id", .val (nullable j.userId)),
        (py "user_ref_hmac_sha256", .val (.str j.userRefHmac)),
        (py "operation_id", .val (.str j.operationId.text)),
        (py "status", .val (.str (statusText j.status))), (py "lease_owner", .val (nullable j.leaseOwner)),
        (py "lease_expires_at", .val (nullable (j.leaseExpiresAt.map text))),
        (py "attempts", .val (.int j.attempts)),
        (py "db_purged_at", .val (nullable (j.dbPurgedAt.map text))),
        (py "intent_fingerprint_sha256", .val (.str j.intentFingerprint))]
  | .purged jobId at_ counts => purgeFields text (py "purged") jobId at_ counts
  | .alreadyPurged jobId at_ => purgeFields text (py "already_purged") jobId at_ .zero
  | .failed jobId errorCode next =>
      [(py "status", .val (.str (py "failed"))), (py "job_id", .val (.str jobId.text)),
        (py "error_code", .val (.str errorCode)), (py "next_attempt_at", .val (nullable (next.map text)))]
  | .retryScheduled jobId next =>
      [(py "status", .val (.str (py "retry_scheduled"))), (py "job_id", .val (.str jobId.text)),
        (py "next_attempt_at", .val (.str (text next)))]
  | .completed jobId completedAt purgedAt =>
      [(py "status", .val (.str (py "completed"))), (py "job_id", .val (.str jobId.text)),
        (py "completed_at", .val (.str (text completedAt))),
        (py "db_purged_at", .val (nullable (purgedAt.map text)))]
  | .error e => errorFields e
  | .raised => []

end

/-! ## On the way -/

/-- What the client hands to `_rpc_call`. -/
inductive Response
  | raised
  | data (v : PyVal)

inductive Arrives (text : Timestamp → PyStr) : JobReply → Response → Prop
  | raised : Arrives text .raised .raised
  | object {r : JobReply} {items : List (PyKey × PyVal)} (hr : r ≠ .raised)
      (hitems : Delivered (fields text r) items) : Arrives text r (.data (.dict items))

/-! ## The methods -/

inductive Method
  | request
  | acquireLease
  | purge
  | recordFailure
  | recordRetry
  | finalize
deriving DecidableEq

/-- The method that makes the call. -/
def methodOf : Call → Option Method
  | .requestDeletion .. => some .request
  | .acquireLease .. => some .acquireLease
  | .purge .. => some .purge
  | .recordFailure .. => some .recordFailure
  | .recordRetry .. => some .recordRetry
  | .finalize .. => some .finalize
  | _ => none

/-- What a method returns. -/
inductive Answer
  | request (r : RequestResult)
  | acquired (job : Option AcquiredJob)
  | purged (r : PurgeResult)
  | failed (r : FailureResult)
  | retried (r : RetryResult)
  | finalized (r : FinalizeResult)

def Method.parse : Method → PyVal → Parsed Answer
  | .request, v => (parseRequestResult v).map .request
  | .acquireLease, v => (parseAcquiredJob v).map .acquired
  | .purge, v => (parsePurgeResult v).map .purged
  | .recordFailure, v => (parseFailureResult v).map .failed
  | .recordRetry, v => (parseRetryResult v).map .retried
  | .finalize, v => (parseFinalizeResult v).map .finalized

/-- A method of `SupabaseAccountDeletionRepository`: `_rpc_call`, and the parser. -/
def Method.call (m : Method) : Response → Parsed Answer
  | .raised => persistenceError
  | .data v => m.parse v

/-- The code that the method raises as a conflict. -/
def Method.conflictCode : Method → Option ErrorCode
  | .request => some .operationConflict
  | .purge => some .operationConflict
  | .finalize => some .stateConflict
  | _ => none

/-- What the method raises for an error envelope. -/
def Method.raises (m : Method) (e : Envelope) : RepositoryError :=
  if m.conflictCode = some e.code then .conflict (py e.message) else .validation (py e.message)

/-- **What a reply means to the caller of the method.** -/
inductive Says (text : Timestamp → PyStr) : Method → JobReply → Parsed Answer → Prop
  | raised (m : Method) : Says text m .raised persistenceError
  | error (m : Method) (e : Envelope) : Says text m (.error e) (.error (m.raises e))
  | created (jobId : Uuid) : Says text .request (.created jobId) (.ok (.request
      { status := py "created", jobId := jobId.text, jobStatus := py "pending", dbPurgedAt := none,
        completedAt := none }))
  | replay (j : Job) : Says text .request (.replay j) (.ok (.request
      { status := py "replay", jobId := j.jobId.text, jobStatus := statusText j.status,
        dbPurgedAt := j.dbPurgedAt.map text, completedAt := j.completedAt.map text }))
  | notFound : Says text .acquireLease .notFound (.ok (.acquired none))
  | leased {j : Job} {user owner : PyStr} {expires : Timestamp} (hj : j.Checked)
      (hstatus : j.status = .processing) (huser : j.userId = some user)
      (howner : j.leaseOwner = some owner) (hexpires : j.leaseExpiresAt = some expires) :
      Says text .acquireLease (.leased j) (.ok (.acquired (some
        { jobId := j.jobId.text, userId := user, userRefHmac := j.userRefHmac,
          operationId := j.operationId.text, status := py "processing", leaseOwner := owner,
          leaseExpiresAt := text expires, attempts := j.attempts, dbPurgedAt := j.dbPurgedAt.map text,
          intentFingerprint := j.intentFingerprint })))
  | purged (jobId : Uuid) (at_ : Timestamp) (counts : PurgeCounts) :
      Says text .purge (.purged jobId at_ counts) (.ok (.purged
        { status := py "purged", jobId := jobId.text, dbPurgedAt := text at_,
          counts := (countList counts).map fun m => (m.1, (m.2 : Int)) }))
  | alreadyPurged (jobId : Uuid) (at_ : Timestamp) :
      Says text .purge (.alreadyPurged jobId at_) (.ok (.purged
        { status := py "already_purged", jobId := jobId.text, dbPurgedAt := text at_,
          counts := (countList .zero).map fun m => (m.1, (m.2 : Int)) }))
  | failed {jobId : Uuid} {code : PyStr} {next : Option Timestamp} (hcode : isCode code = true) :
      Says text .recordFailure (.failed jobId code next) (.ok (.failed
        { jobId := jobId.text, errorCode := code, nextAttemptAt := next.map text }))
  | retryScheduled (jobId : Uuid) (next : Timestamp) :
      Says text .recordRetry (.retryScheduled jobId next) (.ok (.retried
        { status := py "retry_scheduled", jobId := jobId.text, nextAttemptAt := some (text next) }))
  | exhausted (jobId : Uuid) : Says text .recordRetry (.failed jobId (py "attempts_exhausted") none)
      (.ok (.retried { status := py "failed", jobId := jobId.text, nextAttemptAt := none }))
  | completed (jobId : Uuid) (completedAt purgedAt : Timestamp) :
      Says text .finalize (.completed jobId completedAt (some purgedAt)) (.ok (.finalized
        { jobId := jobId.text, completedAt := text completedAt, dbPurgedAt := text purgedAt }))

end Katherine.Cloud.Replies
