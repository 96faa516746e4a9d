import Katherine.Cloud.Contracts

/-!
# `commit_turn` and `replay_committed_turn`

Migrations 5 and 6. A call is one transaction behind the user's advisory lock, so it
is a function from the database it finds to its reply and the database it leaves. The
body returns early with an error envelope in a dozen places, and whatever it has
written by then stays written: each exit below therefore names the database it leaves.
Only an exception rolls back, and the handler at the end of the procedure decides what
the client sees of it.

`now` is the transaction's start, which `timezone('utc', now())` reads.
-/

namespace Katherine.Cloud

open Py Sql Pg
open Katherine.Context (canonicalUuid)

/-! ## Replies -/

/-- The codes of the error envelopes. -/
inductive ErrorCode
  | validationFailed
  | requestPayloadConflict
  | requestInProgress
  | leaseConflict
  | revisionMismatch
  | operationConflict
  | stateConflict
deriving DecidableEq

/-- `{"error": {…}}`. -/
structure Envelope where
  code : ErrorCode
  message : String
  expectedRevision : Option Nat := none
  requestId : Option Uuid := none
  actualRevision : Option Nat := none
deriving DecidableEq

/-- What PostgreSQL can raise inside a procedure. -/
inductive SqlErr
  /-- `P0002`, raised by the reclaim itself. -/
  | leaseConflict
  /-- `P0001`, raised by the procedures themselves. -/
  | raised (message : String)
  | uniqueViolation
  | checkViolation
  | outOfRange
deriving DecidableEq

/-- Why validation stops: with an envelope, or because a check raised. -/
inductive Refusal
  | envelope (e : Envelope)
  | raised (e : SqlErr)
deriving DecidableEq

/-- `IF NOT c THEN RETURN validation_failed`. -/
def ensure (c : Bool) (message : String) : Except Refusal Unit :=
  if c then .ok () else .error (.envelope { code := .validationFailed, message })

/-- The argument, or `validation_failed` where it is `NULL`. -/
def given {α : Type} (x : Option α) (message : String) : Except Refusal α :=
  match x with
  | some a => .ok a
  | none => .error (.envelope { code := .validationFailed, message })

/-- `IF NOT check THEN RETURN validation_failed`, for a check that can raise. -/
def ensureCast (c : Option Bool) (message : String) : Except Refusal Unit :=
  match c with
  | some c => ensure c message
  | none => .error (.raised .outOfRange)

/-! ## Arguments -/

/-- The parameters of `commit_turn`, `NULL` included. -/
structure CommitArgs where
  authenticatedUserId : Option PyStr
  requestId : Option Uuid
  expectedRevision : Option Int
  userMessage : Option PyStr
  assistantMessage : Option PyStr
  payloadHash : Option PyStr
  emotionalState : Option Jsonb
  relationshipState : Option Jsonb
  publicResponse : Option PyStr
  replayPayload : Option Jsonb
  outboxEvents : Option Jsonb
  leaseOwner : Option PyStr

/-- One element of `p_outbox_events`. -/
structure EventInput where
  eventType : PyStr
  payload : Jsonb
  idempotencyKey : PyStr

/-- What step 0 leaves of the parameters. -/
structure CommitInput where
  userId : PyStr
  requestId : Uuid
  expectedRevision : Nat
  userMessage : PyStr
  assistantMessage : PyStr
  payloadHash : PyStr
  emotionalState : Option Jsonb
  relationshipState : Option Jsonb
  replayPayload : Jsonb
  events : List EventInput
  leaseOwner : Option PyStr

def CommitInput.key (i : CommitInput) : PyStr × Uuid := (i.userId, i.requestId)

/-! ## Step 0: validation -/

/-- `p_replay_payload.request_id`, if it is there, is the request's. -/
def replayRequestIdOk (payload : Jsonb) (requestId : Uuid) : Bool :=
  match payload.get? (py "request_id") with
  | none => true
  | some (.str s) => decide (s = requestId.text)
  | some _ => false

/-- `message_id` is a UUID in canonical form. -/
def messageIdOk (payload : Jsonb) : Bool :=
  match payload.getText? (py "message_id") with
  | some s => canonicalUuid s
  | none => false

/-- The checks on `p_replay_payload`, in the order the procedure makes them. -/
def validateReplayPayload (a : CommitArgs) (requestId : Uuid) : Except Refusal Jsonb := do
  let payload ← given (a.replayPayload.filter (·.isObject)) "replay_payload must be a JSON object"
  ensure (keysSubsetOf payload replayKeys) "replay_payload has invalid keys"
  ensure (!hasForbiddenKey replayForbidden payload) "replay_payload contains forbidden keys"
  ensure ((payload.get? (py "response")).any (·.isString)) "replay_payload must contain response"
  ensure (replayRequestIdOk payload requestId) "replay_payload.request_id must equal request_id"
  ensure (a.publicResponse.isSome && decide (a.publicResponse = payload.getText? (py "response")))
    "public_response must equal replay_payload.response"
  ensure (messageIdOk payload) "replay_payload.message_id must be a valid UUID"
  ensure (decide (payload.octetLength ≤ 8192)) "replay_payload exceeds 8192 bytes"
  pure payload

/-- One turn of the loop over `p_outbox_events`. -/
def validateEvent (v : Jsonb) : Except Refusal EventInput := do
  ensure v.isObject "outbox event must be a JSON object"
  let eventType ← given ((v.getText? (py "event_type")).filter isCode)
    "outbox event_type is invalid"
  let payload ← given ((v.get? (py "payload")).filter (·.isObject))
    "outbox event payload must be a JSON object"
  ensure (keysSubsetOf payload outboxPayloadKeys) "outbox event payload has invalid keys"
  ensure (!hasForbiddenKey replayForbidden payload) "outbox event payload contains forbidden keys"
  ensure (outboxPayloadValueContract payload) "outbox event payload violates the value contract"
  let idempotencyKey ← given ((v.getText? (py "idempotency_key")).filter (isToken 128))
    "outbox idempotency_key is invalid"
  pure { eventType, payload, idempotencyKey }

/-- The loop over `p_outbox_events`. -/
def validateEvents : List Jsonb → Except Refusal (List EventInput)
  | [] => .ok []
  | v :: vs => do
      let e ← validateEvent v
      let es ← validateEvents vs
      pure (e :: es)

/-- Step 0 of `commit_turn`. -/
def validateCommit (a : CommitArgs) : Except Refusal CommitInput := do
  let userId ← given (a.authenticatedUserId.filter (· ≠ [])) "authenticated_user_id is required"
  let requestId ← given a.requestId "request_id is required"
  let expected ← given (a.expectedRevision.filter (0 ≤ ·)) "expected_revision must be non-negative"
  let userMessage ← given a.userMessage "user_message is required"
  let assistantMessage ← given a.assistantMessage "assistant_message is required"
  let payloadHash ← given (a.payloadHash.filter isSha256Hex)
    "payload_hash_sha256 must be a 64-character hex string"
  let replayPayload ← validateReplayPayload a requestId
  ensureCast (snapshotContract a.emotionalState .emotional)
    "emotional_state violates the snapshot contract"
  ensureCast (snapshotContract a.relationshipState .relationship)
    "relationship_state violates the snapshot contract"
  let events ← given (a.outboxEvents.bind (·.elements?)) "outbox_events must be a JSON array"
  ensure (a.leaseOwner.all (isToken 64)) "lease_owner is invalid"
  let events ← validateEvents events
  pure { userId, requestId, expectedRevision := expected.toNat, userMessage, assistantMessage,
         payloadHash, emotionalState := a.emotionalState, relationshipState := a.relationshipState,
         replayPayload, events, leaseOwner := a.leaseOwner }

/-! ## The public result -/

/-- What a fresh commit and every replay return. -/
structure CommittedTurn where
  userId : PyStr
  requestId : Uuid
  committedRevision : Option Nat
  userMessageId : PyStr
  assistantMessageId : Option PyStr
  replayPayload : Jsonb
  outboxEvents : List OutboxRef
  createdAt : Timestamp
  completedAt : Timestamp

/-- `commit_turn_build_result`, on the row it finds. -/
def TurnRequest.buildResult (r : TurnRequest) : CommittedTurn :=
  let base : CommittedTurn :=
    { userId := r.userId, requestId := r.requestId, committedRevision := none,
      userMessageId := r.requestId.text, assistantMessageId := none, replayPayload := .obj [],
      outboxEvents := r.replayOutboxRefs, createdAt := r.createdAt, completedAt := r.createdAt }
  match r.state with
  | .completed revision payload at_ =>
      { base with
        committedRevision := some revision
        assistantMessageId := payload.getText? (py "message_id")
        replayPayload := payload
        completedAt := at_ }
  | _ => base

/-- `commit_turn_build_result`. -/
def commitTurnBuildResult (db : Db) (key : PyStr × Uuid) : Except SqlErr CommittedTurn :=
  match db.turnRequests.get? key with
  | some r => .ok r.buildResult
  | none => .error (.raised "persistence error")

/-! ## The transaction -/

/-- The identifiers the database generates in one commit. -/
structure FreshIds where
  userMessageId : Int
  assistantMessageId : Int
  turnRequestId : Uuid
  eventId : Nat → Uuid

inductive CommitReply
  | result (turn : CommittedTurn)
  | error (e : Envelope)
  /-- The call fails with the constant message `persistence error`. -/
  | raised

/-- Step 5: the profile's snapshots and its revision. A missing profile needs both snapshots. -/
def writeProfile (now : Timestamp) (i : CommitInput) (db : Db) : Option Db :=
  match db.profiles.get? i.userId with
  | some p =>
      some { db with
        profiles := db.profiles.put
          { p with
            emotionalState := i.emotionalState <|> p.emotionalState
            relationshipState := i.relationshipState <|> p.relationshipState
            revision := p.revision + 1
            updatedAt := some now } }
  | none =>
      match i.emotionalState, i.relationshipState with
      | some emotional, some relationship =>
          some { db with
            profiles := db.profiles.put
              { userId := i.userId, personaConfig := none, userProfile := none,
                relationshipState := some relationship, emotionalState := some emotional,
                revision := 1, updatedAt := some now } }
      | _, _ => none

/-- Steps 6 and 7: one message. -/
def insertChatLog (db : Db) (c : ChatLog) : Except SqlErr Db :=
  if !(decide (0 < c.content.length) && decide (c.content.length ≤ 10000)) then
    .error .checkViolation
  else if (db.chatLogs.get? c.id).isSome then .error .uniqueViolation
  else .ok { db with chatLogs := db.chatLogs.insertNew c }

/-- The condition of the conditional `UPDATE` that reclaims a request. -/
def RequestState.reclaimable (now : Timestamp) (leaseOwner : Option PyStr) : RequestState → Bool
  | .pending owner expiresAt =>
      (decide (now < expiresAt) && decide (some owner = leaseOwner)) || decide (expiresAt ≤ now)
  | .completed _ _ _ => false
  | .expired _ => true

/-- Step 8: the request's row, completed; a new one or the reclaimed one. -/
def completeRequest (now : Timestamp) (ids : FreshIds) (i : CommitInput) (revision : Nat)
    (existing : Option TurnRequest) (db : Db) : Except SqlErr TurnRequest :=
  let state := RequestState.completed revision i.replayPayload now
  match existing with
  | some r =>
      if !r.state.reclaimable now i.leaseOwner then .error .leaseConflict
      else if !replayPayloadCheck i.replayPayload then .error .checkViolation
      else .ok
        { r with
          state := state
          userMessageChatLogId := some ids.userMessageId
          assistantMessageChatLogId := some ids.assistantMessageId
          updatedAt := now }
  | none =>
      if !(isSha256Hex i.payloadHash && replayPayloadCheck i.replayPayload) then
        .error .checkViolation
      else if db.turnRequests.rows.any fun r => decide (r.id = ids.turnRequestId) then
        .error .uniqueViolation
      else .ok
        { id := ids.turnRequestId, userId := i.userId, requestId := i.requestId,
          payloadHash := i.payloadHash, state, expectedRevision := i.expectedRevision,
          userMessageChatLogId := some ids.userMessageId,
          assistantMessageChatLogId := some ids.assistantMessageId, replayOutboxRefs := [],
          createdAt := now, updatedAt := now }

/-- Step 9: the outbox events, numbered from `n`. -/
def insertEvents (now : Timestamp) (ids : FreshIds) (userId : PyStr) (turnRequestId : Uuid) :
    Nat → List EventInput → Table OutboxEvent Uuid OutboxEvent.id →
    Except SqlErr (Table OutboxEvent Uuid OutboxEvent.id)
  | _, [], t => .ok t
  | n, e :: es, t =>
      if !(isCode e.eventType && isToken 128 e.idempotencyKey && outboxPayloadCheck e.payload) then
        .error .checkViolation
      else if t.rows.any fun x =>
          decide (x.id = ids.eventId n)
            || decide (x.userId = userId) && decide (x.idempotencyKey = e.idempotencyKey) then
        .error .uniqueViolation
      else
        insertEvents now ids userId turnRequestId (n + 1) es (t.insertNew
          { id := ids.eventId n, eventType := e.eventType, contractVersion := 1, userId := userId,
            turnRequestId := some turnRequestId, payload := e.payload,
            delivery := .pending (now + seconds 1), idempotencyKey := e.idempotencyKey,
            createdAt := now, updatedAt := now })

def OutboxEvent.ref (e : OutboxEvent) : OutboxRef :=
  { id := e.id, eventType := e.eventType, idempotencyKey := e.idempotencyKey,
    turnRequestId := e.turnRequestId, contractVersion := e.contractVersion }

/-- The references kept for replays: the events of the request, in the order of their ids. -/
def outboxRefs (events : Table OutboxEvent Uuid OutboxEvent.id) (userId : PyStr)
    (turnRequestId : Uuid) : List OutboxRef :=
  ((events.rows.filter fun e =>
      decide (e.userId = userId) && decide (e.turnRequestId = some turnRequestId)).insertionSort
    fun a b => a.id.text ≤ b.id.text).map (·.ref)

/-- Steps 4 to 10: the compare-and-swap and the writes. `existing` is the row to reclaim. -/
def commitWrite (now : Timestamp) (ids : FreshIds) (i : CommitInput)
    (existing : Option TurnRequest) (db : Db) : Except SqlErr (CommitReply × Db) :=
  let current := db.revision i.userId
  if current ≠ i.expectedRevision then
    .ok (.error
      { code := .revisionMismatch, message := "Profile revision does not match the expected value",
        expectedRevision := some i.expectedRevision, actualRevision := some current }, db)
  else if maxBigint ≤ current then .error .outOfRange
  else
    match writeProfile now i db with
    | none =>
        .ok (.error
          { code := .validationFailed,
            message := "new profiles require complete v1 snapshots" }, db)
    | some db => do
        let db ← insertChatLog db
          { id := ids.userMessageId, userId := i.userId, role := .user, content := i.userMessage,
            createdAt := now }
        let db ← insertChatLog db
          { id := ids.assistantMessageId, userId := i.userId, role := .assistant,
            content := i.assistantMessage, createdAt := now }
        let row ← completeRequest now ids i (current + 1) existing db
        let events ← insertEvents now ids i.userId row.id 0 i.events db.outboxEvents
        let db := { db with
          outboxEvents := events
          turnRequests := db.turnRequests.put
            { row with replayOutboxRefs := outboxRefs events i.userId row.id } }
        let turn ← commitTurnBuildResult db i.key
        pure (.result turn, db)

/-- Steps 1 to 3: what an existing request decides before the compare-and-swap. -/
def commitValidated (now : Timestamp) (ids : FreshIds) (i : CommitInput) (db : Db) :
    Except SqlErr (CommitReply × Db) :=
  let refuse (code : ErrorCode) (message : String) : Except SqlErr (CommitReply × Db) :=
    .ok (.error { code, message, expectedRevision := some i.expectedRevision,
                  requestId := some i.requestId }, db)
  match db.turnRequests.get? i.key with
  | none => commitWrite now ids i none db
  | some r =>
      if r.payloadHash ≠ i.payloadHash then
        refuse .requestPayloadConflict "Request ID already exists with a different payload hash"
      else
        match r.state with
        | .completed _ _ _ => (commitTurnBuildResult db i.key).map fun turn => (.result turn, db)
        | .pending owner expiresAt =>
            if now < expiresAt ∧ i.leaseOwner ≠ some owner then
              refuse .requestInProgress "Request is already in progress by another worker"
            else if i.leaseOwner = none then
              refuse .leaseConflict "lease_owner is required to claim or reclaim a request"
            else commitWrite now ids i (some r) db
        | .expired _ =>
            if i.leaseOwner = none then
              refuse .leaseConflict "lease_owner is required to claim or reclaim a request"
            else commitWrite now ids i (some r) db

/-- `commit_turn`. -/
def commitTurn (now : Timestamp) (ids : FreshIds) (a : CommitArgs) (db : Db) : CommitReply × Db :=
  match validateCommit a with
  | .error (.envelope e) => (.error e, db)
  | .error (.raised _) => (.raised, db)
  | .ok i =>
      match commitValidated now ids i db with
      | .ok out => out
      | .error .leaseConflict =>
          (.error { code := .leaseConflict, message := "Request state changed; reclaim failed",
                    expectedRevision := some i.expectedRevision,
                    requestId := some i.requestId }, db)
      | .error _ => (.raised, db)

/-! ## `replay_committed_turn` -/

inductive ReplayReply
  | result (turn : CommittedTurn)
  | error (e : Envelope)
  | requestInProgress
  | requestReplayUnavailable
  | raised

/-- The stored payload is not what a commit stores. -/
def replayPayloadCorrupt (payload : Jsonb) : Bool :=
  !payload.isObject || (payload.get? (py "response")).any (fun v => !v.isString)
    || !messageIdOk payload

/-- `replay_committed_turn`. It only reads. -/
def replayCommittedTurn (now : Timestamp) (userId : Option PyStr) (requestId : Option Uuid)
    (db : Db) : ReplayReply :=
  match userId.filter (· ≠ []), requestId with
  | none, _ => .error { code := .validationFailed, message := "authenticated_user_id is required" }
  | some _, none => .error { code := .validationFailed, message := "request_id is required" }
  | some userId, some requestId =>
      match db.turnRequests.get? (userId, requestId) with
      | none => .requestReplayUnavailable
      | some r =>
          match r.state with
          | .completed _ payload _ =>
              if replayPayloadCorrupt payload then .raised else .result r.buildResult
          | .pending _ expiresAt =>
              if now < expiresAt then .requestInProgress else .requestReplayUnavailable
          | .expired _ => .requestReplayUnavailable

end Katherine.Cloud
