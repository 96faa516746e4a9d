import Katherine.Lib.Transact
import Katherine.Local.Schema
import Mathlib.Data.Prod.Lex
import Mathlib.Data.List.Lex

/-!
# The operations of `LocalStorage`

`backend/local_storage/storage.py`, one definition for each method. A write is a
`Sql.Block`: where its `BEGIN` stands, which exceptions its `except` clauses name,
and what its statements do. The validation before the block and, for `commit_turn`,
the idempotency read, stand outside it as they do in the source.

Arguments are Python values. Nothing is assumed about them here: whatever a caller
passes, the operation returns or raises as the source does.
-/

namespace Katherine.Local

open Py Sql

/-! ## Results -/

/-- `CommittedTurn`. -/
structure CommittedTurn where
  requestId : PyStr
  revision : Nat
  userMessageId : Nat
  assistantMessageId : Nat
  response : PyVal
  emotionState : PyVal
  messageId : PyStr

inductive ReplayStatus
  | fresh
  | replay
  | conflict
  | reserved
  | completed
  | requestInProgress
  | requestReplayUnavailable
deriving DecidableEq

/-- `ReplayOutcome`; the generation is present only for new reservations. -/
structure ReplayOutcome where
  status : ReplayStatus
  committed : Option CommittedTurn := none
  historyGeneration : Option Nat := none

/-! ## Argument checks -/

/-- `MAX_MESSAGE_LENGTH`. -/
def maxMessageLength : Nat := 10000

/-- `MAX_REQUEST_ID_LENGTH`. -/
def maxRequestIdLength : Nat := 128

/-- `_validate_request_id`. -/
def validateRequestId (v : PyVal) : Except Err PyStr := do
  let s ← orRaise (v.str?.filter (!·.isEmpty))
    (.validation .invalidRequestId "request id must be a non-empty string")
  require (s.length ≤ maxRequestIdLength) (.validation .invalidRequestId "request id too long")
  require (s.all isIdentChar)
    (.validation .invalidRequestId "request id has invalid characters")
  return s

/-- `_validate_message`. -/
def validateMessage (v : PyVal) (field : String) : Except Err PyStr := do
  let s ← orRaise (v.str?.filter (!·.isEmpty))
    (.validation .emptyMessage (field ++ " must be a non-empty string"))
  require (s.length ≤ maxMessageLength)
    (.validation .messageTooLong "message exceeds the maximum length")
  return s

/-- A non-negative `int`, not a `bool`. -/
def PyVal.nat? : PyVal → Option Nat
  | .int i => if 0 ≤ i then some i.toNat else none
  | _ => none

def validateHistoryGeneration (v : PyVal) : Except Err Nat :=
  orRaise (PyVal.nat? v)
    (.validation .invalidHistoryGeneration "history generation must be non-negative")

/-- `_json_dumps`. -/
def jsonDumps (v : PyVal) : Except Err PyStr :=
  orRaise (dumpsCompact true v) (.validation .invalidPayload "payload is not JSON serializable")

/-- Bind a text parameter of a statement. -/
def bindText (s : PyStr) : Except Err Unit := encodeUtf8 s

/-- Bind an integer parameter of a statement. -/
def bindInt (n : Nat) : Except Err Unit := require (n < 2 ^ 63) .overflow

theorem bindInt_ok {n : Nat} (h : n < 2 ^ 63) : bindInt n = .ok () := by
  rw [bindInt, decide_eq_true h, require_true]

theorem bindInt_overflow {n : Nat} (h : ¬ n < 2 ^ 63) : bindInt n = .error .overflow := by
  rw [bindInt, decide_eq_false h, require_false]

/-! ## Exception clauses -/

def databaseError : Err := .persistence .databaseError "persistence error"

/-- `except sqlite3.Error`. -/
def catchSqlite : Err → Option Err
  | .sqlite => some databaseError
  | _ => none

/-- The three clauses of `commit_turn`, the last of them `except Exception`. -/
def catchAll : Err → Option Err
  | .sqlite => some databaseError
  | e => some e

/-! ## Stored results -/

/-- `str(v)`. Exact for scalars; a text inside a container is quoted but not escaped. -/
def strOf : PyVal → PyStr
  | .str s => s
  | .int i => intText i
  | .bool true => py "True"
  | .bool false => py "False"
  | .none => py "None"
  | .float .nan => py "nan"
  | .float (.inf false) => py "inf"
  | .float (.inf true) => py "-inf"
  | .float (.fin f) => f.text
  | v => render [cp ' '] v

/-- The fields of the public result, taken from a replay payload. -/
def committedOf (requestId : PyStr) (revision userMessageId assistantMessageId : Nat)
    (payload : List (PyKey × PyVal)) : CommittedTurn where
  requestId := requestId
  revision := revision
  userMessageId := userMessageId
  assistantMessageId := assistantMessageId
  response := (dictGet payload (py "response")).getD (.str [])
  emotionState := (dictGet payload (py "emotion_state")).getD (.dict [])
  messageId := strOf ((dictGet payload (py "message_id")).getD (.str []))

/-- `json.loads(text) if text else {}`, which has to be an object. -/
def decodeObject (text : PyStr) : Except Err (List (PyKey × PyVal)) :=
  if text = [] then .ok []
  else orRaise ((loads text).bind PyVal.items?) (.persistence .invalidState "persistence error")

/-- `_committed_from_row`. -/
def committedFromRow (row : TurnRequest) : Except Err CommittedTurn := do
  let payload ← decodeObject (row.replayPayload.getD [])
  return committedOf row.requestId (row.committedRevision.getD 0) (row.userMessageId.getD 0)
    (row.assistantMessageId.getD 0) payload

/-! ## Reads -/

/-- `replay`, on the contents a connection sees. -/
def replay (requestId : PyVal) (db : Db) : Except Err ReplayOutcome := do
  let id ← validateRequestId requestId
  match db.turnRequests.get? id with
  | none => return { status := .requestReplayUnavailable }
  | some row =>
      match row.status with
      | .completed => return { status := .completed, committed := ← committedFromRow row }
      | .pending => return { status := .requestInProgress }
      | .failed => return { status := .requestReplayUnavailable }

/-- The stored user message of a completed row is `message`. -/
def storedMessageIs (db : Db) (row : TurnRequest) (message : PyStr) : Bool :=
  match row.userMessageId.bind db.chatLogs.get? with
  | some c => decide (c.content = message)
  | none => false

/-- How a completed row answers a request with `message`. -/
def answerCompleted (db : Db) (row : TurnRequest) (message : PyStr) : Except Err ReplayOutcome := do
  if storedMessageIs db row message then
    return { status := .replay, committed := ← committedFromRow row }
  else return { status := .conflict }

/-- `check_request`, on the contents a connection sees. -/
def checkRequest (requestId userMessage : PyVal) (db : Db) : Except Err ReplayOutcome := do
  let id ← validateRequestId requestId
  let message ← validateMessage userMessage "user_message"
  match db.turnRequests.get? id with
  | none => return { status := .fresh }
  | some row =>
      match row.status with
      | .completed => answerCompleted db row message
      | _ => return { status := .conflict }

/-- `LoadedUserState`. -/
structure LoadedUserState where
  revision : Nat
  personaConfig : Option PyStr
  userProfile : List (PyKey × PyVal)
  emotionalState : List (PyKey × PyVal)
  relationshipState : List (PyKey × PyVal)

/-- `json.loads(text) if text else {}`, and `{}` for anything but an object. -/
def decodeDoc (text : PyStr) : Except Err (List (PyKey × PyVal)) :=
  if text = [] then .ok []
  else do
    let v ← orRaise (loads text) (.persistence .invalidState "persistence error")
    return (v.items?).getD []

/-- `load_user_state`, on the contents a connection sees. -/
def loadUserState (ck : Clock) (db : Db) : Except Err LoadedUserState :=
  match db.profile with
  | none => .ok
      { revision := 0
        personaConfig := none
        userProfile := []
        emotionalState := (EmotionalStateV1.neutral ck.unix).toDict
        relationshipState := (RelationshipStateV1.neutral ck.unix).toDict }
  | some p => do
      let userProfile ← decodeDoc p.userProfile
      let emotionalState ← decodeDoc p.emotionalState
      let relationshipState ← decodeDoc p.relationshipState
      return { revision := p.revision, personaConfig := p.personaConfig, userProfile,
               emotionalState, relationshipState }

/-- One row of `load_recent_history`. -/
structure HistoryRow where
  id : Nat
  role : Role
  content : PyStr
  createdAt : PyStr
deriving DecidableEq

/-- `order by created_at, id`. -/
def chatOrder (r : Nat × ChatLog) : PyStr ×ₗ Nat := toLex (r.2.createdAt, r.1)

def memoryOrder (r : Nat × Memory) : PyStr ×ₗ Nat := toLex (r.2.createdAt, r.1)

theorem chatOrder_nodup (db : Db) : (db.chatLogs.rows.map chatOrder).Nodup :=
  db.chatLogs.nodup_map fun _ _ h => congrArg (fun k => (ofLex k).2) h

theorem memoryOrder_nodup (db : Db) : (db.memories.rows.map memoryOrder).Nodup :=
  db.memories.nodup_map fun _ _ h => congrArg (fun k => (ofLex k).2) h

/-- `limit` of the two windows: an `int` in `[1, 500]`, not a `bool`. -/
def validateLimit : PyVal → Except Err Nat
  | .int i =>
      if 1 ≤ i ∧ i ≤ 500 then .ok i.toNat
      else .error (.validation .invalidLimit "limit must be an int in [1, 500]")
  | _ => .error (.validation .invalidLimit "limit must be an int in [1, 500]")

/-- A row of the window. The `check` of the column makes every role one of the two. -/
def historyRow (r : Nat × ChatLog) : Except Err HistoryRow := do
  require (r.2.content.length ≤ maxMessageLength) (.persistence .invalidState "persistence error")
  return ⟨r.1, r.2.role, r.2.content, r.2.createdAt⟩

/-- `load_recent_history`, on the contents a connection sees. -/
def loadRecentHistory (limit : PyVal) (db : Db) : Except Err (List HistoryRow) := do
  let n ← validateLimit limit
  let history ← (newest chatOrder n db.chatLogs.rows).mapM historyRow
  return history.reverse

/-- A row of the memory window: its text and its metadata object. -/
def memoryRow (r : Nat × Memory) : Except Err (PyStr × List (PyKey × PyVal)) := do
  require (r.2.content.length ≤ maxMessageLength) (.persistence .invalidState "persistence error")
  let metadata ← decodeObject r.2.metadata
  return (r.2.content, metadata)

/-- `load_recent_memories`, on the contents a connection sees. -/
def loadRecentMemories (limit : PyVal) (db : Db) :
    Except Err (List (PyStr × List (PyKey × PyVal))) := do
  let n ← validateLimit limit
  let memories ← (newest memoryOrder n db.memories.rows).mapM memoryRow
  return memories.reverse

/-! ## Admission -/

/-- The row `reserve_request` inserts. -/
def reservationRow (id : PyStr) (historyGeneration : Nat) (sqlNow : PyStr) : TurnRequest where
  requestId := id
  payloadHash := reservationMarker historyGeneration
  status := .pending
  expectedRevision := 0
  committedRevision := none
  userMessageId := none
  assistantMessageId := none
  replayPayload := none
  errorCode := none
  createdAt := sqlNow
  updatedAt := sqlNow
  completedAt := none

/-- The contents after a new reservation. -/
def Db.reserve (db : Db) (id : PyStr) (sqlNow : PyStr) : Db :=
  { db with
    turnRequests := db.turnRequests.insertNew (reservationRow id db.historyGeneration sqlNow) }

def reserveBlock (id message : PyStr) (ck : Clock) : Block Db Err ReplayOutcome where
  guarded := true
  catches := catchSqlite
  body db :=
    match db.turnRequests.get? id with
    | none =>
        .commit { status := .reserved, historyGeneration := some db.historyGeneration }
          (db.reserve id ck.sqlNow)
    | some row =>
        match row.status with
        | .pending => .commit { status := .conflict } db
        | .completed => .rollback (answerCompleted db row message)
        | .failed => .rollback (.ok { status := .conflict })

/-- The contents after a release: only a pending row with the marker of `g` goes. -/
def Db.release (db : Db) (id : PyStr) (g : Nat) : Db :=
  db.deleteTurns fun r =>
    decide (r.requestId = id) && decide (r.status = .pending)
      && decide (r.payloadHash = reservationMarker g)

def releaseBlock (id : PyStr) (g : Nat) : Block Db Err Unit where
  guarded := true
  catches := catchSqlite
  body db :=
    -- `_reservation_marker` writes the argument out as a decimal numeral
    .attempt (require (g < intTextLimit) .value) db fun _ => .commit () (db.release id g)

/-! ## The atomic turn commit -/

/-- The arguments of `commit_turn`, as the caller passes them. -/
structure CommitArgs where
  requestId : PyVal
  historyGeneration : PyVal
  userMessage : PyVal
  assistantMessage : PyVal
  emotionalState : PyVal
  relationshipState : PyVal
  publicResponse : PyVal
  replayPayload : PyVal
  outboxEvents : PyVal := .none
  expectedRevision : PyVal := .none

/-- `expected_revision`: absent, or a non-negative `int`. -/
def validateExpectedRevision : PyVal → Except Err (Option Nat)
  | .none => .ok none
  | v => do
      let n ← orRaise (PyVal.nat? v)
        (.validation .invalidExpectedRevision "expected_revision must be a non-negative integer")
      return some n

/-- A string `request_id` in the replay payload is the request's own. -/
def namesRequest (replayPayload : List (PyKey × PyVal)) (requestId : PyStr) : Bool :=
  match (dictGet replayPayload (py "request_id")).bind PyVal.str? with
  | none => true
  | some r => decide (r = requestId)

/-- The checks of `commit_turn`, in its order. -/
def validateCommit (a : CommitArgs) : Except Err CommitInput := do
  let requestId ← validateRequestId a.requestId
  let historyGeneration ← validateHistoryGeneration a.historyGeneration
  let userMessage ← validateMessage a.userMessage "user_message"
  let assistantMessage ← validateMessage a.assistantMessage "assistant_message"
  let publicResponse ← orRaise (a.publicResponse.str?.filter (!·.isEmpty))
    (.validation .invalidPublicResponse "public_response must be a non-empty string")
  require (publicResponse.length ≤ maxMessageLength)
    (.validation .messageTooLong "message exceeds the maximum length")
  let replayPayload ← validateReplayPayload a.replayPayload
  require ((dictGet replayPayload (py "response")).bind PyVal.str? = some publicResponse)
    (.validation .invalidPublicResponse "public_response must equal replay_payload response")
  require (namesRequest replayPayload requestId)
    (.validation .invalidReplayPayload
      "replay payload request_id must equal the enclosing request_id")
  let emotionalState ← validateEmotionalSnapshot a.emotionalState
  let relationshipState ← validateRelationshipSnapshot a.relationshipState
  let outboxEvents ← validateOutboxEvents a.outboxEvents
  let expectedRevision ← validateExpectedRevision a.expectedRevision
  return { requestId, historyGeneration, userMessage, assistantMessage, emotionalState,
           relationshipState, publicResponse, replayPayload, outboxEvents, expectedRevision }

/-- A `ConflictError` of `commit_turn`. -/
def CommitInput.conflict (c : CommitInput) (code : ErrorCode) (message : String) : Err :=
  .conflict code message (c.expectedRevision.getD 0) none c.requestId

/-- One outbox insertion, `on conflict (idempotency_key, event_type) do nothing`. -/
def insertOutboxEvent (requestId now : PyStr) (t : Table OutboxEvent PyStr OutboxEvent.id)
    (e : OutboxInput) : Except Err (Table OutboxEvent PyStr OutboxEvent.id) := do
  let payload ← jsonDumps (.dict e.payload)
  if t.rows.any (fun r => r.idempotencyKey = e.idempotencyKey ∧ r.eventType = e.eventType) then
    return t
  else
    let row : OutboxEvent :=
      { id := e.idempotencyKey ++ [cp ':'] ++ e.eventType
        eventType := e.eventType
        idempotencyKey := e.idempotencyKey
        status := .pending
        turnRequestId := requestId
        payload := payload
        createdAt := now }
    -- the `check` of the column and the primary key
    require (jsonValid payload && (t.get? row.id).isNone) .sqlite
    return t.insertNew row

/-- The ledger row of a completed turn. -/
def completedRow (row : TurnRequest) (hash : PyStr) (expected revision user assistant : Nat)
    (replayText now : PyStr) : TurnRequest :=
  { row with
    payloadHash := hash
    status := .completed
    expectedRevision := expected
    committedRevision := some revision
    userMessageId := some user
    assistantMessageId := some assistant
    replayPayload := some replayText
    completedAt := some now
    updatedAt := now }

/-- The profile row after a commit; the columns a turn does not write keep their values. -/
def committedProfile (old : Option Profile) (emotional relationship : PyStr) (revision : Nat)
    (now : PyStr) : Profile where
  personaConfig := old.bind (·.personaConfig)
  userProfile := (old.map (·.userProfile)).getD (py "\x7b\x7d")
  emotionalState := emotional
  relationshipState := relationship
  revision := revision
  updatedAt := now

/-- What `commit_turn` hands to its statements besides its input. -/
structure CommitTexts where
  hash : PyStr
  now : PyStr
  emotional : PyStr
  relationship : PyStr
  replay : PyStr

/-- The contents after both messages of a turn were inserted. -/
def Db.commitMessages (db : Db) (c : CommitInput) (now : PyStr) : Db :=
  { db with
    chatLogs := (db.chatLogs.insert ⟨.user, c.userMessage, now⟩).insert
      ⟨.assistant, c.assistantMessage, now⟩ }

/-- The contents after a turn was committed over its reservation `row`. -/
def Db.commit (db : Db) (c : CommitInput) (row : TurnRequest) (x : CommitTexts)
    (outbox : Table OutboxEvent PyStr OutboxEvent.id) : Db :=
  { db.commitMessages c x.now with
    profile := some (committedProfile db.profile x.emotional x.relationship (db.revision + 1) x.now)
    turnRequests := db.turnRequests.put (completedRow row x.hash db.revision (db.revision + 1)
      (db.chatLogs.seq + 1) (db.chatLogs.seq + 2) x.replay x.now)
    outboxEvents := outbox }

/-- What that commit returns. -/
def Db.committed (db : Db) (c : CommitInput) : CommittedTurn :=
  committedOf c.requestId (db.revision + 1) (db.chatLogs.seq + 1) (db.chatLogs.seq + 2)
    c.replayPayload

/-- The transaction of `commit_turn`. -/
def commitBlock (c : CommitInput) (hash : PyStr) (ck : Clock) : Block Db Err CommittedTurn where
  guarded := true
  catches := catchAll
  body db :=
    let invalidated : Outcome Db Err CommittedTurn := .rollback (.error
      (c.conflict .requestReservationInvalidated "Request reservation is no longer valid."))
    match db.turnRequests.get? c.requestId with
    | none => invalidated
    | some row =>
        match row.status with
        | .completed =>
            if row.payloadHash ≠ hash then .rollback (.error (c.conflict .requestPayloadConflict
              "Request id was already committed with a different payload."))
            else .rollback (committedFromRow row)
        | .failed => invalidated
        | .pending =>
            if db.historyGeneration ≠ c.historyGeneration
                ∨ row.payloadHash ≠ reservationMarker c.historyGeneration then invalidated
            else
              let expected := c.expectedRevision.getD db.revision
              if expected ≠ db.revision then .raise (.conflict .revisionMismatch
                "Profile revision changed concurrently." expected (some db.revision) c.requestId) db
              else
                let now := ck.now.text
                let written := db.commitMessages c now
                .attempt (jsonDumps (.dict c.emotionalState)) written fun emotional =>
                .attempt (jsonDumps (.dict c.relationshipState)) written fun relationship =>
                .attempt (bindInt (db.revision + 1)) written fun _ =>
                .attempt (jsonDumps (.dict c.replayPayload)) written fun replay =>
                .attempt (c.outboxEvents.foldlM (insertOutboxEvent c.requestId now)
                  db.outboxEvents) written fun outbox =>
                .commit (db.committed c)
                  (db.commit c row ⟨hash, now, emotional, relationship, replay⟩ outbox)

/-! ## Memories -/

/-- The contents after a memory was stored. -/
def Db.addMemory (db : Db) (content metadata now : PyStr) : Db :=
  { db with memories := db.memories.insert ⟨content, metadata, now⟩ }

def storeMemoryBlock (content : PyStr) (metadata : PyVal) (ck : Clock) : Block Db Err Nat where
  guarded := false
  catches := catchSqlite
  body db :=
    .attempt (jsonDumps metadata) db fun text =>
    .attempt (bindText content) db fun _ =>
    .attempt (bindText text) db fun _ =>
    .attempt (require (jsonValid text) .sqlite) db fun _ =>
    .commit (db.memories.seq + 1) (db.addMemory content text ck.now.text)

/-! ## Privacy operations -/

/-- The counts a privacy operation reports and records. -/
structure Report where
  operation : Operation
  counts : List (PyStr × Nat)

/-- The `result` document. -/
def Report.doc (r : Report) : PyVal :=
  .dict ((.str (py "status"), .str (py "applied"))
    :: r.counts.map fun c => (.str c.1, .int c.2))

/-- Append the audit row. -/
def Db.audit (db : Db) (operation : Operation) (text sqlNow : PyStr) : Db :=
  { db with privacyOperations := db.privacyOperations.insert ⟨operation, text, sqlNow⟩ }

/-- The contents without the three history tables. -/
def Db.clearHistory (db : Db) : Db :=
  (db.deleteTurns fun _ => true).deleteChats fun _ => true

def deleteHistoryBlock (ck : Clock) : Block Db Err Report where
  guarded := false
  catches := catchSqlite
  body db :=
    let report : Report :=
      ⟨.deleteHistory, [(py "deleted_messages", db.chatLogs.rows.length),
        (py "deleted_turn_requests", db.turnRequests.rows.length),
        (py "deleted_outbox_events", db.outboxEvents.rows.length)]⟩
    .attempt (require db.clearHistory.chatLogs.rows.isEmpty databaseError) db.clearHistory fun _ =>
    .attempt (jsonDumps report.doc) db.clearHistory fun text =>
    .commit report (db.clearHistory.audit .deleteHistory text ck.sqlNow)

def Db.clearMemories (db : Db) : Db :=
  { db with memories := db.memories.deleteWhere fun _ => true }

/-- `delete_memories`, through `_privacy_delete`. -/
def deleteMemoriesBlock (ck : Clock) : Block Db Err Report where
  guarded := false
  catches := catchSqlite
  body db :=
    let report : Report := ⟨.deleteMemories, [(py "deleted_memories", db.memories.rows.length)]⟩
    .attempt (jsonDumps report.doc) db.clearMemories fun text =>
    .commit report (db.clearMemories.audit .deleteMemories text ck.sqlNow)

/-- The snapshot column a reset replaces. -/
inductive StateField
  | emotionalState
  | relationshipState
deriving DecidableEq

def StateField.operation : StateField → Operation
  | .emotionalState => .resetEmotionalState
  | .relationshipState => .resetRelationshipState

/-- The neutral document of a field, and its other field's, as `_json_dumps` writes them. -/
def StateField.neutralText : StateField → PosFloat → Except Err PyStr
  | .emotionalState, t => jsonDumps (.dict (EmotionalStateV1.neutral t).toDict)
  | .relationshipState, t => jsonDumps (.dict (RelationshipStateV1.neutral t).toDict)

def StateField.other : StateField → StateField
  | .emotionalState => .relationshipState
  | .relationshipState => .emotionalState

def Profile.set (p : Profile) (field : StateField) (text : PyStr) : Profile :=
  match field with
  | .emotionalState => { p with emotionalState := text }
  | .relationshipState => { p with relationshipState := text }

/-- The profile after a reset of `field` to `text`. Where there was none, both snapshots are
neutral. -/
def resetProfile (old : Option Profile) (field : StateField) (text otherText : PyStr)
    (revision : Nat) (now later : PyStr) : Profile :=
  match old with
  | some p => { p.set field text with revision := revision, updatedAt := now }
  | none =>
      let p : Profile := ⟨none, py "\x7b\x7d", [], [], revision, later⟩
      (p.set field text).set field.other otherText

/-- The contents after a reset: the profile and its audit row. -/
def Db.reset (db : Db) (field : StateField) (p : Profile) (result sqlNow : PyStr) : Db :=
  { db with profile := some p }.audit field.operation result sqlNow

/-- `_reset_state_field`. -/
def resetBlock (field : StateField) (ck : Clock) : Block Db Err Report where
  guarded := false
  catches := catchSqlite
  body db :=
    let revision := db.revision + 1
    let report : Report := ⟨field.operation, [(py "revision", revision)]⟩
    .attempt (field.neutralText ck.unix) db fun text =>
    .attempt (bindInt revision) db fun _ =>
    -- used only where there is no row yet; the text of a neutral document always exists
    .attempt (field.other.neutralText ck.unixLater) db fun otherText =>
    let profile := resetProfile db.profile field text otherText revision ck.now.text
      ck.nowLater.text
    .attempt (jsonDumps report.doc) { db with profile := some profile } fun result =>
    .commit report (db.reset field profile result ck.sqlNow)

/-- The check of the optional `neutral` argument. -/
def StateField.validateNeutral (field : StateField) (neutral : PyVal) : Except Err Unit :=
  match neutral with
  | .none => .ok ()
  | v =>
      match field with
      | .emotionalState => validateNeutralEmotionalSnapshot v
      | .relationshipState => validateNeutralRelationshipSnapshot v

/-! ## Retention -/

/-- `id not in (select id from chat_logs order by id desc limit n)`. -/
def Db.beyond (db : Db) (n : Nat) (r : Nat × ChatLog) : Bool :=
  !(((db.chatLogs.rows.map (·.1)).reverse.take n).contains r.1)

/-- The contents after a trim. -/
def Db.trim (db : Db) (n : Nat) : Db := db.deleteChats (db.beyond n)

def trimBlock (keepLast : Nat) : Block Db Err Nat where
  guarded := false
  catches := catchSqlite
  body db :=
    .attempt (bindInt keepLast) db fun _ =>
    .commit (min db.chatLogs.rows.length keepLast) (db.trim keepLast)

/-! ## Recovery -/

/-- A pending row without a live writer is moved to `failed`. -/
def failInterrupted (now : PyStr) (r : TurnRequest) : TurnRequest :=
  if r.status = .pending then
    { r with status := .failed, errorCode := some (py "interrupted"), updatedAt := now }
  else r

theorem failInterrupted_requestId (now : PyStr) (r : TurnRequest) :
    (failInterrupted now r).requestId = r.requestId := by
  unfold failInterrupted
  split <;> rfl

/-- The contents after `_recover_interrupted_turns`. -/
def Db.recover (db : Db) (now : PyStr) : Db :=
  { db with
    turnRequests := db.turnRequests.mapRows (failInterrupted now) (failInterrupted_requestId now) }

end Katherine.Local
