import Katherine.Cloud.Replies
import Katherine.Cloud.Replay
import Katherine.Lib.JsonbLoad
import Katherine.Local.Contracts

/-!
# The answers of the turn procedures, as the repositories read them

`parse_commit_turn_result` of `backend/atomic_turn_commit.py`, and what is around it in
`backend/turn_repositories.py`. A result is read strictly: no field too few and none too many, and
the replay payload in it is checked against the same contract as before it was sent.

That contract speaks of the JSON text of the payload, and so do the checks of the database. The two
texts are not the same one: in between lie `jsonb`, which keeps numbers as decimals, and the numbers
of the client. `Arrives` says how an answer may come back.
-/

namespace Katherine.Cloud.TurnReplies

open Py Sql Pg Runs
open Katherine.Local (hasForbidden)
open Replies (Response errorCodeText)

/-! ## Errors -/

/-- What the repositories raise. -/
inductive CommitError
  /-- `ConflictError`. -/
  | conflict (code message : PyStr) (expectedRevision : Int) (actualRevision : Option Int)
      (requestId : Option PyStr)
  /-- `ValidationError`. -/
  | validation (code message : PyStr)
  /-- `PersistenceError("database_error", "persistence error")`. -/
  | persistence
  /-- `UnicodeEncodeError`. -/
  | unicodeEncode
  /-- `TypeError`, where a list or a dictionary is looked up in a set. -/
  | typeError
deriving DecidableEq

abbrev Parsed (α : Type) := Except CommitError α

def invalid {α : Type} (code message : String) : Parsed α := .error (.validation (py code) (py message))

def check (c : Bool) (code message : String) : Parsed Unit := if c then .ok () else invalid code message

def textOf : Option PyVal → Option PyStr
  | some (.str s) => some s
  | _ => none

def intOf : Option PyVal → Option Int
  | some (.int i) => some i
  | _ => none

/-- `CONFLICT_CODES`. -/
def conflictCodes : List PyStr :=
  [py "revision_mismatch", py "request_payload_conflict", py "request_in_progress", py "lease_conflict"]

/-- `_parse_error_envelope`. It always raises. -/
def parseErrorEnvelope : PyVal → CommitError
  | .dict info =>
      match (textOf (dictGet info (py "code"))).filter (· ≠ []) with
      | none => .validation (py "invalid_error_format") (py "error code must be a non-empty string")
      | some code =>
          let message := (textOf (dictGet info (py "message"))).getD (py "internal error")
          if code ∈ conflictCodes then
            .conflict code message ((intOf (dictGet info (py "expected_revision"))).getD 0)
              (intOf (dictGet info (py "actual_revision"))) (textOf (dictGet info (py "request_id")))
          else if code = py "validation_failed" then .validation code message
          else .persistence
  | _ => .validation (py "invalid_error_format") (py "error field must be a mapping")

/-! ## What the parsers are made of -/

/-- `sorted(names)[0]`. -/
def first? (names : List PyStr) : Option PyStr := (names.insertionSort (· ≤ ·)).head?

/-- No field is missing, and there is no other. -/
def requireFields (fields : List PyStr) (items : List (PyKey × PyVal)) (code missing unexpected : String) :
    Parsed Unit :=
  match first? (fields.filter fun k => (dictGet items k).isNone) with
  | some k => .error (.validation (py code) (py missing ++ k))
  | none =>
      match first? ((items.filter fun p => !PyKey.isOneOf fields p.1).map fun p => keyText p.1) with
      | some k => .error (.validation (py code) (py unexpected ++ k))
      | none => .ok ()

/-- A text with `p`. -/
def textMatching (p : PyStr → Bool) (v : Option PyVal) (code noText noMatch : String) : Parsed PyStr :=
  match v with
  | some (.str s) => if p s then .ok s else invalid code noMatch
  | _ => invalid code noText

/-! ## The replay payload -/

/-- `FORBIDDEN_PAYLOAD_KEYS`. -/
def forbiddenPayloadKeys : List PyStr :=
  [py "prompt", py "system_prompt", py "meta_cognition", py "internal_instructions", py "message",
    py "user_message", py "assistant_message", py "content"]

/-- `REPLAY_PAYLOAD_ALLOWED_KEYS`. -/
def replayPayloadAllowedKeys : List PyStr :=
  [py "response", py "emotion_state", py "message_id", py "request_id", py "duration_ms"]

/-- `payload["request_id"]`, if it is there, is that of the request. -/
def requestIdOk (requestId : PyStr) : Option PyVal → Bool
  | none => true
  | some (.str s) => isValidUuid s && decide (s = requestId)
  | some _ => false

/-- `_validate_replay_payload`. -/
def validateReplayPayload (payload : List (PyKey × PyVal)) (requestId : PyStr) : Parsed Unit := do
  check (!hasForbidden forbiddenPayloadKeys (.dict payload)) "invalid_replay_payload" "contains forbidden keys"
  match payload.find? fun p => !PyKey.isOneOf replayPayloadAllowedKeys p.1 with
  | some p => .error (.validation (py "invalid_replay_payload") (py "unknown key: " ++ keyText p.1))
  | none =>
      check (textOf (dictGet payload (py "response"))).isSome "invalid_replay_payload"
        "must contain a string response field"
      check ((textOf (dictGet payload (py "message_id"))).any isValidUuid) "invalid_replay_payload"
        "must contain a valid UUID message_id field"
      check (requestIdOk requestId (dictGet payload (py "request_id"))) "invalid_replay_payload"
        "request_id must equal the enclosing request_id"
      check (serialisable ⟨false, false⟩ (.dict payload)) "invalid_replay_payload" "not JSON-serializable"
      let serialized := render [cp ' '] (.dict payload)
      if encodable serialized then
        check (decide (utf8Len serialized ≤ 8192)) "invalid_replay_payload" "exceeds 8192 bytes"
      else .error .unicodeEncode

/-! ## The parsers -/

@[ext]
structure CommittedOutboxRef where
  id : PyStr
  eventType : PyStr
  idempotencyKey : PyStr
  turnRequestId : PyStr
  contractVersion : Int

/-- `CommittedTurn` of `atomic_turn_commit.py`. -/
@[ext]
structure CommittedTurn where
  userId : PyStr
  requestId : PyStr
  committedRevision : Int
  userMessageId : PyStr
  assistantMessageId : PyStr
  replayPayload : List (PyKey × PyVal)
  outboxEvents : List CommittedOutboxRef
  createdAt : PyStr
  completedAt : PyStr

/-- `_OUTBOX_REF_FIELDS`. -/
def outboxRefFields : List PyStr :=
  [py "id", py "event_type", py "idempotency_key", py "turn_request_id", py "contract_version"]

/-- `_is_positive_int`. -/
def positiveInt (v : Option PyVal) (code message : String) : Parsed Int :=
  match v with
  | some (.int i) => if 0 < i then .ok i else invalid code message
  | _ => invalid code message

/-- One turn of the loop over `outbox_events`. -/
def parseOutboxRef : PyVal → Parsed CommittedOutboxRef
  | .dict evt => do
      requireFields outboxRefFields evt "invalid_outbox_event" "missing outbox ref field: "
        "unexpected outbox ref field: "
      let id ← textMatching isValidUuid (dictGet evt (py "id")) "invalid_outbox_event"
        "outbox ref id must be a valid UUID" "outbox ref id must be a valid UUID"
      let eventType ← textMatching isCode (dictGet evt (py "event_type")) "invalid_outbox_event"
        "outbox ref event_type is invalid" "outbox ref event_type is invalid"
      let idempotencyKey ← textMatching (isToken 128) (dictGet evt (py "idempotency_key"))
        "invalid_idempotency_key" "must be a string" "must match ^[A-Za-z0-9_.:-]\x7b1,128\x7d$"
      let turnRequestId ← textMatching isValidUuid (dictGet evt (py "turn_request_id")) "invalid_outbox_event"
        "outbox ref turn_request_id must be a valid UUID" "outbox ref turn_request_id must be a valid UUID"
      let contractVersion ← positiveInt (dictGet evt (py "contract_version")) "invalid_outbox_event"
        "outbox ref contract_version must be a positive integer"
      return { id, eventType, idempotencyKey, turnRequestId, contractVersion }
  | _ => invalid "invalid_outbox_event" "each outbox event must be a mapping"

/-- `_SUCCESS_FIELDS`. -/
def successFields : List PyStr :=
  [py "user_id", py "request_id", py "committed_revision", py "user_message_id", py "assistant_message_id",
    py "replay_payload", py "outbox_events", py "created_at", py "completed_at"]

/-- `committed_revision`. -/
def parseRevision : Option PyVal → Parsed Int
  | some (.int i) =>
      if i < 0 then invalid "invalid_committed_revision" "committed_revision must be non-negative" else .ok i
  | _ => invalid "invalid_committed_revision" "committed_revision must be an integer"

/-- `replay_payload`. -/
def parseReplayPayload (v : Option PyVal) (requestId assistantMessageId : PyStr) :
    Parsed (List (PyKey × PyVal)) :=
  match v with
  | some (.dict payload) => do
      validateReplayPayload payload requestId
      check (decide (textOf (dictGet payload (py "message_id")) = some assistantMessageId))
        "invalid_assistant_message_id" "assistant_message_id must equal replay_payload.message_id"
      return payload
  | _ => invalid "invalid_replay_payload" "replay_payload must be a mapping"

/-- `outbox_events`. -/
def parseOutboxEvents : Option PyVal → Parsed (List CommittedOutboxRef)
  | some (.list events) => events.mapM parseOutboxRef
  | _ => invalid "invalid_outbox_events" "outbox_events must be a list"

/-- `parse_commit_turn_result`. -/
def parseCommitTurnResult : PyVal → Parsed CommittedTurn
  | .dict result =>
      match dictGet result (py "error") with
      | some info => .error (parseErrorEnvelope info)
      | none => do
          requireFields successFields result "invalid_rpc_result" "missing field: " "unexpected field: "
          let userId ← textMatching (!·.isEmpty) (dictGet result (py "user_id")) "invalid_user_id"
            "user_id must be a non-empty string" "user_id must be a non-empty string"
          let requestId ← textMatching isValidUuid (dictGet result (py "request_id")) "invalid_request_id"
            "must be a string" "must be a valid lowercase UUID"
          let committedRevision ← parseRevision (dictGet result (py "committed_revision"))
          let userMessageId ← textMatching (fun s => decide (s = requestId))
            (dictGet result (py "user_message_id")) "invalid_user_message_id"
            "user_message_id must equal request_id" "user_message_id must equal request_id"
          let assistantMessageId ← textMatching isValidUuid (dictGet result (py "assistant_message_id"))
            "invalid_assistant_message_id" "assistant_message_id must be a valid UUID"
            "assistant_message_id must be a valid UUID"
          let replayPayload ← parseReplayPayload (dictGet result (py "replay_payload")) requestId assistantMessageId
          let outboxEvents ← parseOutboxEvents (dictGet result (py "outbox_events"))
          let createdAt ← textMatching (!·.isEmpty) (dictGet result (py "created_at")) "invalid_created_at"
            "created_at must be a non-empty string" "created_at must be a non-empty string"
          let completedAt ← textMatching (!·.isEmpty) (dictGet result (py "completed_at")) "invalid_completed_at"
            "completed_at must be a non-empty string" "completed_at must be a non-empty string"
          return { userId, requestId, committedRevision, userMessageId, assistantMessageId, replayPayload,
                   outboxEvents, createdAt, completedAt }
  | _ => invalid "invalid_rpc_result" "result must be a mapping"

/-- `ReplayOutcome`. -/
structure ReplayOutcome where
  status : PyStr
  committed : Option CommittedTurn

/-- `_REPLAY_STATUSES`. -/
def replayStatuses : List PyStr := [py "request_in_progress", py "request_replay_unavailable"]

/-- `parse_replay_committed_turn_result`. -/
def parseReplayCommittedTurnResult : PyVal → Parsed ReplayOutcome
  | .dict result =>
      match dictGet result (py "error"), dictGet result (py "status") with
      | some info, _ => .error (parseErrorEnvelope info)
      | none, some (.str status) =>
          if status ∈ replayStatuses then .ok { status, committed := none }
          else invalid "invalid_rpc_result" "unknown replay status"
      | none, some (.list _) => .error .typeError
      | none, some (.dict _) => .error .typeError
      | none, none | none, some .none =>
          (parseCommitTurnResult (.dict result)).map fun turn => { status := py "completed", committed := some turn }
      | none, some _ => invalid "invalid_rpc_result" "unknown replay status"
  | _ => invalid "invalid_rpc_result" "result must be a mapping"

/-! ## The repositories -/

def requireMapping : PyVal → Parsed PyVal
  | .dict items => .ok (.dict items)
  | _ => invalid "invalid_rpc_result" "result must be a mapping"

/-- `_unwrap_rpc_data`. -/
def unwrapRpcData : PyVal → Parsed PyVal
  | .list [data] => requireMapping data
  | .list _ => invalid "invalid_rpc_result" "unexpected result shape"
  | data => requireMapping data

/-- `TurnCommitRepository.commit`, from the response on. -/
def readCommit : Response → Parsed CommittedTurn
  | .raised => .error .persistence
  | .data data =>
      match unwrapRpcData data with
      -- it is unwrapped inside the call that must not raise
      | .error _ => .error .persistence
      | .ok result =>
          match parseCommitTurnResult result with
          | .error .unicodeEncode => .error .persistence
          | .error .typeError => .error .persistence
          | r => r

/-- `TurnReplayRepository.replay`, from the response on. -/
def readReplay : Response → Parsed ReplayOutcome
  | .raised => .error .persistence
  | .data data => do parseReplayCommittedTurnResult (← unwrapRpcData data)

/-! ## What the database sends -/

section

/- Timestamps are sent as texts, and numbers read as the client reads them. -/
variable (text : Timestamp → PyStr) (readNumber : Numeric → PyVal)

/-- The members of an error envelope. -/
def errorMembers (e : Envelope) : List (PyStr × PyVal) :=
  [(py "code", .str (errorCodeText e.code)), (py "message", .str (py e.message))] ++
    (e.expectedRevision.map fun n => (py "expected_revision", .int n)).toList ++
    (e.requestId.map fun id => (py "request_id", .str id.text)).toList ++
    (e.actualRevision.map fun n => (py "actual_revision", .int n)).toList

def errorFields (e : Envelope) : Fields := [(py "error", .obj (errorMembers e))]

/-- An element of `replay_outbox_refs`. -/
def refFields (r : OutboxRef) : Fields :=
  [(py "id", .val (.str r.id.text)), (py "event_type", .val (.str r.eventType)),
    (py "idempotency_key", .val (.str r.idempotencyKey)),
    (py "turn_request_id", .val (nullable (r.turnRequestId.map (·.text)))),
    (py "contract_version", .val (.int r.contractVersion))]

def nullableInt : Option Nat → PyVal
  | none => .none
  | some n => .int n

/-- `commit_turn_build_result`; `refs` is what the references arrive as. -/
def resultFields (turn : Cloud.CommittedTurn) (refs : List PyVal) : Fields :=
  [(py "user_id", .val (.str turn.userId)), (py "request_id", .val (.str turn.requestId.text)),
    (py "committed_revision", .val (nullableInt turn.committedRevision)),
    (py "user_message_id", .val (.str turn.userMessageId)),
    (py "assistant_message_id", .val (nullable turn.assistantMessageId)),
    (py "replay_payload", .val (turn.replayPayload.load readNumber)), (py "outbox_events", .val (.list refs)),
    (py "created_at", .val (.str (text turn.createdAt))), (py "completed_at", .val (.str (text turn.completedAt)))]

/-- The object is the response, or the only element of it. -/
inductive Wraps (items : List (PyKey × PyVal)) : Response → Prop
  | bare : Wraps items (.data (.dict items))
  | listed : Wraps items (.data (.list [.dict items]))

/-- The result arrives as these items. -/
def ResultArrives (turn : Cloud.CommittedTurn) (items : List (PyKey × PyVal)) : Prop :=
  ∃ refs, List.Forall₂ (fun r v => ∃ ritems, v = .dict ritems ∧ Delivered (refFields r) ritems)
      turn.outboxEvents refs ∧
    Delivered (resultFields text readNumber turn refs) items

/-- The ways in which an answer of `commit_turn` comes back. -/
inductive Arrives : CommitReply → Response → Prop
  | raised : Arrives .raised .raised
  | error {e : Envelope} {items : List (PyKey × PyVal)} {response : Response}
      (h : Delivered (errorFields e) items) (hw : Wraps items response) : Arrives (.error e) response
  | result {turn : Cloud.CommittedTurn} {items : List (PyKey × PyVal)} {response : Response}
      (h : ResultArrives text readNumber turn items) (hw : Wraps items response) :
      Arrives (.result turn) response

def statusFields (status : String) : Fields := [(py "status", .val (.str (py status)))]

/-- The ways in which an answer of `replay_committed_turn` comes back. -/
inductive ReplayArrives : ReplayReply → Response → Prop
  | raised : ReplayArrives .raised .raised
  | error {e : Envelope} {items : List (PyKey × PyVal)} {response : Response}
      (h : Delivered (errorFields e) items) (hw : Wraps items response) : ReplayArrives (.error e) response
  | inProgress {items : List (PyKey × PyVal)} {response : Response}
      (h : Delivered (statusFields "request_in_progress") items) (hw : Wraps items response) :
      ReplayArrives .requestInProgress response
  | unavailable {items : List (PyKey × PyVal)} {response : Response}
      (h : Delivered (statusFields "request_replay_unavailable") items) (hw : Wraps items response) :
      ReplayArrives .requestReplayUnavailable response
  | result {turn : Cloud.CommittedTurn} {items : List (PyKey × PyVal)} {response : Response}
      (h : ResultArrives text readNumber turn items) (hw : Wraps items response) :
      ReplayArrives (.result turn) response

/-! ## What it means -/

structure PublishesRef (r : OutboxRef) (q : CommittedOutboxRef) : Prop where
  id : q.id = r.id.text
  eventType : q.eventType = r.eventType
  idempotencyKey : q.idempotencyKey = r.idempotencyKey
  turnRequestId : some q.turnRequestId = r.turnRequestId.map (·.text)
  contractVersion : q.contractVersion = r.contractVersion

/-- `p` is the turn that the database has on record. -/
structure Publishes (turn : Cloud.CommittedTurn) (p : CommittedTurn) : Prop where
  userId : p.userId = turn.userId
  requestId : p.requestId = turn.requestId.text
  committedRevision : ∃ n : Nat, turn.committedRevision = some n ∧ p.committedRevision = n
  userMessageId : p.userMessageId = turn.requestId.text
  assistantMessageId : turn.assistantMessageId = some p.assistantMessageId
  replayPayload : turn.replayPayload.load readNumber = .dict p.replayPayload
  outboxEvents : List.Forall₂ PublishesRef turn.outboxEvents p.outboxEvents
  createdAt : p.createdAt = text turn.createdAt
  completedAt : p.completedAt = text turn.completedAt

/-- What an error envelope is raised as. -/
def raisedError (e : Envelope) : CommitError :=
  if errorCodeText e.code ∈ conflictCodes then
    .conflict (errorCodeText e.code) (py e.message) ((e.expectedRevision.map fun (n : Nat) => (n : Int)).getD 0)
      (e.actualRevision.map fun (n : Nat) => (n : Int)) (e.requestId.map (·.text))
  else if e.code = .validationFailed then .validation (py "validation_failed") (py e.message)
  else .persistence

/-- **What an answer of `commit_turn` means to the caller of the repository.** -/
inductive Says : CommitReply → Parsed CommittedTurn → Prop
  | raised : Says .raised (.error .persistence)
  | error (e : Envelope) : Says (.error e) (.error (raisedError e))
  | result {turn : Cloud.CommittedTurn} {p : CommittedTurn} (h : Publishes text readNumber turn p) :
      Says (.result turn) (.ok p)

/-- **What an answer of `replay_committed_turn` means.** -/
inductive ReplaySays : ReplayReply → Parsed ReplayOutcome → Prop
  | raised : ReplaySays .raised (.error .persistence)
  | error (e : Envelope) : ReplaySays (.error e) (.error (raisedError e))
  | inProgress : ReplaySays .requestInProgress (.ok ⟨py "request_in_progress", none⟩)
  | unavailable : ReplaySays .requestReplayUnavailable (.ok ⟨py "request_replay_unavailable", none⟩)
  | result {turn : Cloud.CommittedTurn} {p : CommittedTurn} (h : Publishes text readNumber turn p) :
      ReplaySays (.result turn) (.ok ⟨py "completed", some p⟩)

end

end Katherine.Cloud.TurnReplies
