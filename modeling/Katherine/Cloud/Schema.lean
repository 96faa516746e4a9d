import Katherine.Lib.Jsonb
import Katherine.Lib.Table
import Katherine.Context

/-!
# The hosted schema

The tables of `supabase/migrations`, with the triggers and cascades a deletion sets
off. A row type has room for exactly what the table's CHECK constraints allow
wherever a status decides which other columns are null: `RequestState` is
`turn_requests_status_coherence_check`, `Delivery` is
`outbox_events_status_coherence_check`. The job table of the account deletion ledger
is the exception. Its columns are flat and its constraints a predicate, because
whether the procedures respect them is a question of its own.

Identifiers that the database generates are supplied by the caller of a model
function, and a collision is the unique violation it would be. All times are
microseconds.
-/

namespace Katherine.Cloud

open Py Sql Pg
open Katherine.Context (canonicalUuid isLowerHex)

/-- `timestamptz`. -/
abbrev Timestamp := Int

/-- `uuid`, by its canonical text. -/
structure Uuid where
  text : PyStr
  ok : canonicalUuid text = true
deriving DecidableEq

/-- An interval in seconds. -/
def seconds (n : Int) : Int := n * 1000000

/-- An interval in hours. -/
def hours (n : Int) : Int := seconds (3600 * n)

/-- An interval in days. -/
def days (n : Int) : Int := hours (24 * n)

/-! ## Text formats -/

/-- `^[0-9a-f]{64}$`. -/
def isSha256Hex (s : PyStr) : Bool := decide (s.length = 64) && s.all isLowerHex

/-- `[A-Za-z0-9_.:-]`. -/
def isTokenChar (c : CodePoint) : Bool :=
  isDigit c || (decide (65 ≤ c.val) && decide (c.val ≤ 90))
    || (decide (97 ≤ c.val) && decide (c.val ≤ 122))
    || decide (c ∈ [cp '_', cp '.', cp ':', cp '-'])

/-- `^[A-Za-z0-9_.:-]{1,max}$`. -/
def isToken (max : Nat) (s : PyStr) : Bool :=
  !s.isEmpty && decide (s.length ≤ max) && s.all isTokenChar

/-- `^[a-z0-9_]{1,64}$`. -/
def isCode (s : PyStr) : Bool :=
  !s.isEmpty && decide (s.length ≤ 64) && s.all fun c =>
    isDigit c || (decide (97 ≤ c.val) && decide (c.val ≤ 122)) || decide (c = cp '_')

/-- `btrim(s)`: spaces only. -/
def btrim (s : PyStr) : PyStr :=
  ((s.dropWhile (· = cp ' ')).reverse.dropWhile (· = cp ' ')).reverse

/-- `char_length(user_id) BETWEEN 1 AND 128 AND btrim(user_id) <> ''`. -/
def isUserId (s : PyStr) : Bool :=
  decide (1 ≤ s.length) && decide (s.length ≤ 128) && decide (btrim s ≠ [])

/-- The largest `bigint`. -/
def maxBigint : Nat := 9223372036854775807

/-! ## Rows -/

/-- `profiles`. -/
structure Profile where
  userId : PyStr
  personaConfig : Option PyStr
  userProfile : Option Jsonb
  relationshipState : Option Jsonb
  emotionalState : Option Jsonb
  revision : Nat
  updatedAt : Option Timestamp

inductive Role
  | user
  | assistant
deriving DecidableEq

/-- `chat_logs`. -/
structure ChatLog where
  id : Int
  userId : PyStr
  role : Role
  content : PyStr
  createdAt : Timestamp

/-- The status of a turn request and the columns that go with it. -/
inductive RequestState
  | pending (leaseOwner : PyStr) (leaseExpiresAt : Timestamp)
  | completed (committedRevision : Nat) (replayPayload : Jsonb) (completedAt : Timestamp)
  | expired (errorCode : PyStr)

/-- What `replay_outbox_refs` keeps of an event. -/
structure OutboxRef where
  id : Uuid
  eventType : PyStr
  idempotencyKey : PyStr
  turnRequestId : Option Uuid
  contractVersion : Nat

/-- `turn_requests`. -/
structure TurnRequest where
  id : Uuid
  userId : PyStr
  requestId : Uuid
  payloadHash : PyStr
  state : RequestState
  expectedRevision : Nat
  userMessageChatLogId : Option Int
  assistantMessageChatLogId : Option Int
  replayOutboxRefs : List OutboxRef
  createdAt : Timestamp
  updatedAt : Timestamp

/-- `UNIQUE (user_id, request_id)`. -/
def TurnRequest.key (r : TurnRequest) : PyStr × Uuid := (r.userId, r.requestId)

/-- The status of an outbox event and the columns that go with it. -/
inductive Delivery
  | pending (nextAttemptAt : Timestamp)
  | processing (attempts : Nat) (leaseOwner : PyStr) (leaseExpiresAt : Timestamp)
  | completed (attempts : Nat) (processedAt retentionUntil : Timestamp)
  | failed (attempts : Nat) (nextAttemptAt : Timestamp) (errorCode : PyStr)
  | deadLetter (errorCode : PyStr) (deadLetteredAt retentionUntil : Timestamp)

/-- `outbox_events`. -/
structure OutboxEvent where
  id : Uuid
  eventType : PyStr
  contractVersion : Nat
  userId : PyStr
  turnRequestId : Option Uuid
  payload : Jsonb
  delivery : Delivery
  idempotencyKey : PyStr
  createdAt : Timestamp
  updatedAt : Timestamp

/-- `memories`. -/
structure Memory where
  id : Uuid
  userId : Option PyStr
  content : PyStr
  metadata : Option Jsonb
  createdAt : Timestamp

/-- `archival_extractions`. -/
structure ArchivalExtraction where
  userId : PyStr
  sourceChatLogId : Int
  extractorVersion : Int
  schemaVersion : Int
  idempotencyKey : PyStr
  facts : Jsonb
  createdAt : Timestamp

/-- `admission_reservations`. -/
structure AdmissionReservation where
  userId : PyStr
  requestId : Uuid
  messageHmac : PyStr
  networkHmac : PyStr
  estimatedUnits : Nat
  reservedAt : Timestamp
deriving DecidableEq

/-- The four operations of `privacy_operations_operation_check`. -/
inductive Operation
  | deleteHistory
  | deleteMemories
  | resetEmotionalState
  | resetRelationshipState
deriving DecidableEq

/-- `counts` of a privacy result. -/
structure PrivacyCounts where
  chatLogs : Nat
  turnRequests : Nat
  outboxEvents : Nat
  archivalExtractions : Nat
  memories : Nat
  profiles : Nat
deriving DecidableEq

/-- The public result of an applied privacy operation. -/
structure PrivacyResult where
  operation : Operation
  operationId : Uuid
  userId : PyStr
  revision : Nat
  counts : PrivacyCounts
deriving DecidableEq

/-- `privacy_operations`. Every row is `applied`. -/
structure PrivacyOperation where
  userId : PyStr
  operationId : Uuid
  operation : Operation
  payloadSha256 : PyStr
  appliedAt : Timestamp
  result : PrivacyResult
deriving DecidableEq

inductive JobStatus
  | pending
  | processing
  | completed
  | failed
deriving DecidableEq

/-- `account_deletion_jobs`. -/
structure Job where
  jobId : Uuid
  operationId : Uuid
  userId : Option PyStr
  userRefHmac : PyStr
  intentFingerprint : PyStr
  status : JobStatus
  attempts : Int
  leaseOwner : Option PyStr
  leaseExpiresAt : Option Timestamp
  nextAttemptAt : Option Timestamp
  dbPurgedAt : Option Timestamp
  errorCode : Option PyStr
  requestedAt : Timestamp
  updatedAt : Timestamp
  completedAt : Option Timestamp
deriving DecidableEq

/-! ## The database -/

structure Db where
  profiles : Table Profile PyStr Profile.userId
  chatLogs : Table ChatLog Int ChatLog.id
  turnRequests : Table TurnRequest (PyStr × Uuid) TurnRequest.key
  outboxEvents : Table OutboxEvent Uuid OutboxEvent.id
  memories : Table Memory Uuid Memory.id
  archivalExtractions : Table ArchivalExtraction (PyStr × Int × Int)
    fun r => (r.userId, r.sourceChatLogId, r.extractorVersion)
  admissionReservations : Table AdmissionReservation (PyStr × Uuid)
    fun r => (r.userId, r.requestId)
  privacyOperations : Table PrivacyOperation (PyStr × Uuid) fun r => (r.userId, r.operationId)
  jobs : Table Job Uuid Job.jobId

/-- A freshly migrated database. -/
def Db.empty : Db :=
  ⟨.empty, .empty, .empty, .empty, .empty, .empty, .empty, .empty, .empty⟩

/-- `profiles.revision`, and 0 where there is no row. -/
def Db.revision (db : Db) (user : PyStr) : Nat := ((db.profiles.get? user).map (·.revision)).getD 0

/-! ## Deletions and what they set off -/

/-- Forget the messages `gone` names. -/
def TurnRequest.nullMessageRefs (gone : Int → Bool) (r : TurnRequest) : TurnRequest :=
  { r with
    userMessageChatLogId := r.userMessageChatLogId.filter fun i => !gone i
    assistantMessageChatLogId := r.assistantMessageChatLogId.filter fun i => !gone i }

@[simp] theorem TurnRequest.key_nullMessageRefs (gone : Int → Bool) (r : TurnRequest) :
    (r.nullMessageRefs gone).key = r.key := rfl

/-- `DELETE FROM chat_logs WHERE p`. The trigger `turn_requests_null_message_refs` goes by the
message alone, the cascade to `archival_extractions` by the user and the message. -/
def Db.deleteChatLogs (db : Db) (p : ChatLog → Bool) : Db :=
  let goneIds (i : Int) := (db.chatLogs.get? i).any p
  { db with
    turnRequests := db.turnRequests.mapRows (·.nullMessageRefs goneIds) fun _ => rfl
    archivalExtractions := db.archivalExtractions.deleteWhere fun a =>
      (db.chatLogs.get? a.sourceChatLogId).any fun c => p c && decide (c.userId = a.userId)
    chatLogs := db.chatLogs.deleteWhere p }

/-- `DELETE FROM turn_requests WHERE p`, and the cascade to `outbox_events`. -/
def Db.deleteTurnRequests (db : Db) (p : TurnRequest → Bool) : Db :=
  { db with
    outboxEvents := db.outboxEvents.deleteWhere fun e =>
      db.turnRequests.rows.any fun r =>
        p r && decide (r.userId = e.userId) && decide (some r.id = e.turnRequestId)
    turnRequests := db.turnRequests.deleteWhere p }

/-- The foreign keys that the trigger on `chat_logs` relies on: a request points at messages of
its own user. -/
def Db.MessageRefs (db : Db) : Prop :=
  ∀ r ∈ db.turnRequests.rows, ∀ i, r.userMessageChatLogId = some i ∨
    r.assistantMessageChatLogId = some i → ∃ c, db.chatLogs.get? i = some c ∧ c.userId = r.userId

end Katherine.Cloud
