import Katherine.Lib.IsoTime
import Katherine.Lib.Table
import Katherine.Local.Contracts

/-!
# The local schema

The six tables of `backend/local_storage/migrations.py`, their foreign keys and the
deletions that cascade along them:

* a `turn_requests` row goes when either of its two messages goes;
* an `outbox_events` row goes when its turn request goes.

The number of `delete_history` rows in the audit table is the *history generation*,
and `reservationMarker` is the text that ties a reservation to one.
-/

namespace Katherine.Local

open Py Sql

/-! ## Rows -/

inductive Role
  | user
  | assistant
deriving DecidableEq

/-- `chat_logs`. -/
structure ChatLog where
  role : Role
  content : PyStr
  createdAt : PyStr
deriving DecidableEq

inductive Status
  | pending
  | completed
  | failed
deriving DecidableEq

/-- `turn_requests`, the replay ledger. -/
structure TurnRequest where
  requestId : PyStr
  payloadHash : PyStr
  status : Status
  expectedRevision : Nat
  committedRevision : Option Nat
  userMessageId : Option Nat
  assistantMessageId : Option Nat
  replayPayload : Option PyStr
  errorCode : Option PyStr
  createdAt : PyStr
  updatedAt : PyStr
  completedAt : Option PyStr
deriving DecidableEq

/-- `profiles`: at most one row. -/
structure Profile where
  personaConfig : Option PyStr
  userProfile : PyStr
  emotionalState : PyStr
  relationshipState : PyStr
  revision : Nat
  updatedAt : PyStr
deriving DecidableEq

inductive OutboxStatus
  | pending
  | completed
  | deadLetter
deriving DecidableEq

/-- `outbox_events`. Every row the store writes is unprocessed. -/
structure OutboxEvent where
  id : PyStr
  eventType : PyStr
  idempotencyKey : PyStr
  status : OutboxStatus
  turnRequestId : PyStr
  payload : PyStr
  createdAt : PyStr
deriving DecidableEq

/-- `memories`. -/
structure Memory where
  content : PyStr
  metadata : PyStr
  createdAt : PyStr
deriving DecidableEq

inductive Operation
  | deleteHistory
  | deleteMemories
  | resetEmotionalState
  | resetRelationshipState
deriving DecidableEq

/-- `privacy_operations`, the audit table. -/
structure PrivacyOperation where
  operation : Operation
  result : PyStr
  appliedAt : PyStr
deriving DecidableEq

/-! ## The database -/

structure Db where
  profile : Option Profile
  chatLogs : AutoTable ChatLog
  turnRequests : Table TurnRequest PyStr TurnRequest.requestId
  outboxEvents : Table OutboxEvent PyStr OutboxEvent.id
  memories : AutoTable Memory
  privacyOperations : AutoTable PrivacyOperation

/-- A freshly migrated database. -/
def Db.empty : Db := ⟨none, .empty, .empty, .empty, .empty, .empty⟩

/-- `profiles.revision`, and 0 where there is no row. -/
def Db.revision (db : Db) : Nat := (db.profile.map (·.revision)).getD 0

/-- `select count(*) from privacy_operations where operation = 'delete_history'`. -/
def Db.historyGeneration (db : Db) : Nat :=
  (db.privacyOperations.rows.filter fun r => r.2.operation = .deleteHistory).length

/-- `_reservation_marker`. -/
def reservationMarker (historyGeneration : Nat) : PyStr :=
  py "reserved:history:" ++ natText historyGeneration

theorem reservationMarker_injective : Function.Injective reservationMarker := by
  intro m n h
  exact natText_injective (List.append_cancel_left h)

/-! ## Deletions -/

/-- `delete from turn_requests where p`, with the outbox rows that cascade. -/
def Db.deleteTurns (db : Db) (p : TurnRequest → Bool) : Db :=
  { db with
    turnRequests := db.turnRequests.deleteWhere p
    outboxEvents := db.outboxEvents.deleteWhere fun e =>
      (db.turnRequests.get? e.turnRequestId).any p }

/-- The row references a message that `p` removes. -/
def Db.refersTo (db : Db) (p : Nat × ChatLog → Bool) (r : TurnRequest) : Bool :=
  let gone (i : Option Nat) : Bool :=
    i.any fun i => (db.chatLogs.get? i).any fun c => p (i, c)
  gone r.userMessageId || gone r.assistantMessageId

/-- `delete from chat_logs where p`, with the ledger rows that cascade. -/
def Db.deleteChats (db : Db) (p : Nat × ChatLog → Bool) : Db :=
  { db.deleteTurns (db.refersTo p) with chatLogs := db.chatLogs.deleteWhere p }

@[simp] theorem Db.deleteTurns_profile (db : Db) (p : TurnRequest → Bool) :
    (db.deleteTurns p).profile = db.profile := rfl

@[simp] theorem Db.deleteTurns_chatLogs (db : Db) (p : TurnRequest → Bool) :
    (db.deleteTurns p).chatLogs = db.chatLogs := rfl

@[simp] theorem Db.deleteTurns_turnRequests (db : Db) (p : TurnRequest → Bool) :
    (db.deleteTurns p).turnRequests = db.turnRequests.deleteWhere p := rfl

@[simp] theorem Db.deleteTurns_generation (db : Db) (p : TurnRequest → Bool) :
    (db.deleteTurns p).historyGeneration = db.historyGeneration := rfl

@[simp] theorem Db.deleteChats_profile (db : Db) (p : Nat × ChatLog → Bool) :
    (db.deleteChats p).profile = db.profile := rfl

@[simp] theorem Db.deleteChats_chatLogs (db : Db) (p : Nat × ChatLog → Bool) :
    (db.deleteChats p).chatLogs = db.chatLogs.deleteWhere p := rfl

@[simp] theorem Db.deleteChats_turnRequests (db : Db) (p : Nat × ChatLog → Bool) :
    (db.deleteChats p).turnRequests = db.turnRequests.deleteWhere (db.refersTo p) := rfl

@[simp] theorem Db.deleteChats_generation (db : Db) (p : Nat × ChatLog → Bool) :
    (db.deleteChats p).historyGeneration = db.historyGeneration := rfl

/-! ## Clocks -/

/-- A point in time, to the microsecond, as `datetime.now(timezone.utc)` returns it. -/
structure Instant where
  year : Nat
  month : Nat
  day : Nat
  hour : Nat
  minute : Nat
  second : Nat
  micro : Nat
  year_ok : 1970 ≤ year ∧ year ≤ 9999
  month_ok : 1 ≤ month ∧ month ≤ 12
  day_ok : 1 ≤ day ∧ day ≤ daysInMonth year month
  hour_ok : hour < 24
  minute_ok : minute < 60
  second_ok : second < 60
  micro_ok : micro < 1000000

/-- `strftime("%Y-%m-%dT%H:%M:%S.%f") + "Z"`. -/
def Instant.text (i : Instant) : PyStr :=
  pad2 (i.year / 100) ++ pad2 i.year ++ [cp '-'] ++ pad2 i.month ++ [cp '-'] ++ pad2 i.day
    ++ [cp 'T'] ++ pad2 i.hour ++ [cp ':'] ++ pad2 i.minute ++ [cp ':'] ++ pad2 i.second
    ++ [cp '.'] ++ pad3 (i.micro / 1000) ++ pad3 i.micro ++ [cp 'Z']

def Instant.date (i : Instant) : Date where
  year := i.year
  month := i.month
  day := i.day
  year_ok := ⟨by have := i.year_ok; omega, i.year_ok.2⟩
  month_ok := i.month_ok
  day_ok := i.day_ok

theorem Instant.text_eq (i : Instant) :
    i.text = zuluText i.date i.hour i.minute i.second i.micro := by
  simp [Instant.text, zuluText, Date.text, microText, Instant.date]

/-- The clock readings of one call. The resets read each clock twice. -/
structure Clock where
  /-- `_now_iso()`. -/
  now : Instant
  nowLater : Instant
  /-- `_time_now_unix()`. -/
  unix : PosFloat
  unixLater : PosFloat
  /-- The `default (strftime(…, 'now'))` of a column. -/
  sqlNow : PyStr

end Katherine.Local
