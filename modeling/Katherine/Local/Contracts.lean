import Katherine.Domain

/-!
# Payload contracts of the local store

`backend/local_storage/contracts.py`, and the error types of `errors.py`: what the
store accepts as a replay payload, as outbox events and as snapshots, and the
canonical document whose digest identifies a turn.

Arguments are Python values, since the validators exist to tell good ones from bad
ones. A validator returns what it found to be well formed, or raises.
-/

namespace Katherine.Local

open Py

/-! ## Errors -/

/-- The stable codes, under the source's words. -/
inductive ErrorCode
  | invalidRequestId
  | emptyMessage
  | messageTooLong
  | invalidHistoryGeneration
  | invalidPublicResponse
  | invalidReplayPayload
  | invalidEmotionalState
  | invalidRelationshipState
  | invalidOutboxEvents
  | invalidExpectedRevision
  | invalidPayload
  | invalidResetPayload
  | invalidMetadata
  | invalidKeepLast
  | invalidLimit
  | invalidLegacyFixture
  | invalidLegacyFixtureVersion
  | invalidLegacySource
  | invalidLegacyTurns
  | legacyFixtureTooLarge
  | invalidLegacyTurn
  | invalidLegacyRequestId
  | invalidLegacyMessage
  | legacyMessageTooLong
  | invalidLegacyCreatedAt
  | forbiddenKeyInLegacyFixture
  | legacyRequestIdConflict
  | requestPayloadConflict
  | requestReplayUnavailable
  | requestReservationInvalidated
  | revisionMismatch
  | databaseError
  | invalidState
  | storageClosed
deriving DecidableEq

/-- What an operation of the store can raise. -/
inductive Err
  | validation (code : ErrorCode) (message : String)
  | conflict (code : ErrorCode) (message : String) (expectedRevision : Nat)
      (actualRevision : Option Nat) (requestId : PyStr)
  | persistence (code : ErrorCode) (message : String)
  /-- `sqlite3.Error`, as the driver raises it. -/
  | sqlite
  /-- `UnicodeEncodeError`: a text with a lone surrogate. -/
  | unicodeEncode
  /-- `ValueError`: an integer too long for `str`. -/
  | value
  /-- `TypeError`: an object the encoder does not know. -/
  | type
  /-- `OverflowError`: an integer outside 64 bits. -/
  | overflow
deriving DecidableEq

/-- `if not c: raise e`. -/
def require (c : Bool) (e : Err) : Except Err Unit := if c then .ok () else .error e

@[simp] theorem require_eq_ok {c : Bool} {e : Err} {u : Unit} : require c e = .ok u ↔ c = true := by
  cases c <;> simp [require]

@[simp] theorem require_true (e : Err) : require true e = .ok () := rfl

@[simp] theorem require_false (e : Err) : require false e = .error e := rfl

@[simp] theorem bind_eq_ok {α β : Type} {x : Except Err α} {f : α → Except Err β} {b : β} :
    (x >>= f) = .ok b ↔ ∃ a, x = .ok a ∧ f a = .ok b := by
  cases x <;> simp [bind, Except.bind]

@[simp] theorem ok_bind {α β : Type} (a : α) (f : α → Except Err β) :
    ((Except.ok a : Except Err α) >>= f) = f a := rfl

/-- `x` if it is there, else raise. -/
def orRaise {α : Type} (x : Option α) (e : Err) : Except Err α :=
  match x with
  | some a => .ok a
  | none => .error e

@[simp] theorem orRaise_eq_ok {α : Type} {x : Option α} {e : Err} {a : α} :
    orRaise x e = .ok a ↔ x = some a := by
  cases x <;> simp [orRaise]

/-! ## Shared checks -/

/-- `[A-Za-z0-9_.:-]`. -/
def isIdentChar (c : CodePoint) : Bool :=
  isDigit c || (decide (65 ≤ c.val) && decide (c.val ≤ 90))
    || (decide (97 ≤ c.val) && decide (c.val ≤ 122))
    || decide (c ∈ [cp '_', cp '.', cp ':', cp '-'])

/-- `[A-Za-z0-9_.:-]{1,128}`. -/
def isBoundedIdent (s : PyStr) : Bool :=
  !s.isEmpty && decide (s.length ≤ 128) && s.all isIdentChar

/-- `[a-z0-9_]{1,64}`. -/
def isEventType (s : PyStr) : Bool :=
  !s.isEmpty && decide (s.length ≤ 64) && s.all fun c =>
    isDigit c || (decide (97 ≤ c.val) && decide (c.val ≤ 122)) || decide (c = cp '_')

/-- `FORBIDDEN_PAYLOAD_KEYS`. -/
def forbiddenPayloadKeys : List PyStr :=
  [py "prompt", py "system_prompt", py "meta_cognition", py "internal_instructions", py "message",
    py "user_message", py "assistant_message", py "content"]

/-- `SNAPSHOT_FORBIDDEN_KEYS`. -/
def snapshotForbiddenKeys : List PyStr :=
  forbiddenPayloadKeys ++ [py "user_id", py "bond_label"]

/-- `REPLAY_PAYLOAD_ALLOWED_KEYS`. -/
def replayPayloadAllowedKeys : List PyStr :=
  [py "response", py "emotion_state", py "message_id", py "request_id", py "duration_ms"]

/-- `OUTBOX_PAYLOAD_ALLOWED_KEYS`. -/
def outboxPayloadAllowedKeys : List PyStr :=
  [py "ref", py "request_id", py "turn_id", py "message_id", py "entity_id", py "kind",
    py "version"]

mutual
/-- `_has_forbidden`: a forbidden key at any depth. -/
def hasForbidden (forbidden : List PyStr) : PyVal → Bool
  | .list xs => hasForbiddenElems forbidden xs
  | .tuple xs => hasForbiddenElems forbidden xs
  | .dict kvs => hasForbiddenItems forbidden kvs
  | _ => false
def hasForbiddenElems (forbidden : List PyStr) : List PyVal → Bool
  | [] => false
  | x :: xs => hasForbidden forbidden x || hasForbiddenElems forbidden xs
def hasForbiddenItems (forbidden : List PyStr) : List (PyKey × PyVal) → Bool
  | [] => false
  | (k, v) :: kvs =>
      PyKey.isOneOf forbidden k || hasForbidden forbidden v || hasForbiddenItems forbidden kvs
end

/-- `canonical_json`. -/
def canonicalJson (v : PyVal) : Except Err PyStr :=
  orRaise (dumpsCompact false v)
    (.validation .invalidPayload "payload is not canonical JSON serializable")

/-- `s.encode("utf-8")`, for its exception; `utf8Len` is the length of what it returns. -/
def encodeUtf8 (s : PyStr) : Except Err Unit := require (encodable s) .unicodeEncode

/-- `_require_canonical_bytes`. -/
def requireCanonicalBytes (v : PyVal) (code : ErrorCode) (maxBytes : Nat) : Except Err Unit := do
  let serialized ← orRaise (dumpsCompact false v) (.validation code "payload is not finite JSON")
  encodeUtf8 serialized
  require (utf8Len serialized ≤ maxBytes)
    (.validation code ("payload exceeds " ++ toString maxBytes ++ " bytes"))

/-- `MAX_REPLAY_PAYLOAD_BYTES`, `MAX_OUTBOX_PAYLOAD_BYTES` and `MAX_SNAPSHOT_BYTES`. -/
def maxReplayPayloadBytes : Nat := 8192
def maxOutboxPayloadBytes : Nat := 8192
def maxSnapshotBytes : Nat := 8192

/-- `MAX_OUTBOX_EVENTS`. -/
def maxOutboxEvents : Nat := 32

/-! ## Replay payload -/

/-- `isinstance(v, int) and not isinstance(v, bool)`, or a bounded identifier. -/
def isMessageId : Option PyVal → Bool
  | some (.int _) => true
  | some (.str s) => isBoundedIdent s
  | _ => false

/-- A bounded identifier string, where the key is present. -/
def isOptionalIdent : Option PyVal → Bool
  | none => true
  | some (.str s) => isBoundedIdent s
  | some _ => false

/-- `validate_replay_payload`; the items of the payload. -/
def validateReplayPayload (payload : PyVal) : Except Err (List (PyKey × PyVal)) := do
  let kvs ← orRaise payload.items?
    (.validation .invalidReplayPayload "replay payload must be a mapping")
  require (!hasForbidden forbiddenPayloadKeys payload)
    (.validation .invalidReplayPayload "replay payload contains forbidden keys")
  require (kvs.all fun p => PyKey.isOneOf replayPayloadAllowedKeys p.1)
    (.validation .invalidReplayPayload "replay payload contains unknown keys")
  require ((dictGet kvs (py "response")).bind PyVal.str?).isSome
    (.validation .invalidReplayPayload "replay payload requires a string response field")
  require (isMessageId (dictGet kvs (py "message_id")))
    (.validation .invalidReplayPayload
      "replay payload requires a message_id (integer rowid or bounded identifier)")
  require (isOptionalIdent (dictGet kvs (py "request_id")))
    (.validation .invalidReplayPayload
      "replay payload request_id must be a bounded identifier string")
  requireCanonicalBytes payload .invalidReplayPayload maxReplayPayloadBytes
  return kvs

/-! ## Outbox events -/

/-- A validated event: `(event_type, payload, idempotency_key)`. -/
structure OutboxInput where
  eventType : PyStr
  payload : List (PyKey × PyVal)
  idempotencyKey : PyStr

def toText (s : PyStr) : String := String.ofList (s.map fun c => Char.ofNat c.val)

/-- The value contract of one payload field. -/
def checkOutboxValue (index : Nat) : PyKey × PyVal → Except Err Unit
  | (.str k, v) =>
      if k = py "version" then
        require (match v with | .int i => decide (1 ≤ i ∧ i ≤ 1000) | _ => false)
          (.validation .invalidOutboxEvents
            ("event " ++ toString index ++ ": payload.version must be an integer in 1-1000"))
      else
        require (match v with | .str s => isBoundedIdent s | _ => false)
          (.validation .invalidOutboxEvents ("event " ++ toString index ++ ": payload." ++ toText k
            ++ " must be a bounded ASCII reference string"))
  | _ => .ok ()

/-- `_validate_outbox_event`. -/
def validateOutboxEvent (index : Nat) (event : PyVal) : Except Err OutboxInput := do
  let fields ← orRaise ((PyVal.elems? event).filter (·.length = 3))
    (.validation .invalidOutboxEvents ("event " ++ toString index ++ " must be a triple"))
  let eventType ← orRaise ((fields[0]?.bind PyVal.str?).filter isEventType)
    (.validation .invalidOutboxEvents
      ("event " ++ toString index ++ ": event_type charset or length is invalid"))
  let payload ← orRaise (fields[1]?.bind PyVal.items?)
    (.validation .invalidOutboxEvents
      ("event " ++ toString index ++ ": payload must be a mapping"))
  let key ← orRaise (fields[2]?.bind PyVal.str?)
    (.validation .invalidOutboxEvents "idempotency key must be a string")
  require (isBoundedIdent key)
    (.validation .invalidOutboxEvents "idempotency key charset or length is invalid")
  require (payload.all fun p => PyKey.isOneOf outboxPayloadAllowedKeys p.1)
    (.validation .invalidOutboxEvents
      ("event " ++ toString index ++ ": payload contains unknown keys"))
  require (!hasForbidden forbiddenPayloadKeys (.dict payload))
    (.validation .invalidOutboxEvents
      ("event " ++ toString index ++ ": payload contains forbidden keys"))
  payload.forM (checkOutboxValue index)
  requireCanonicalBytes (.dict payload) .invalidOutboxEvents maxOutboxPayloadBytes
  return ⟨eventType, payload, key⟩

/-- The events in turn, each with its index. -/
def validateOutboxFrom (index : Nat) : List PyVal → Except Err (List OutboxInput)
  | [] => .ok []
  | e :: es => do
      let v ← validateOutboxEvent index e
      let vs ← validateOutboxFrom (index + 1) es
      return v :: vs

/-- `validate_outbox_events`. -/
def validateOutboxEvents (events : PyVal) : Except Err (List OutboxInput) :=
  match events with
  | .none => .ok []
  | _ => do
      let es ← orRaise (PyVal.elems? events)
        (.validation .invalidOutboxEvents "outbox events must be a list")
      require (es.length ≤ maxOutboxEvents)
        (.validation .invalidOutboxEvents
          ("at most " ++ toString maxOutboxEvents ++ " outbox events per turn"))
      let validated ← validateOutboxFrom 0 es
      require (decide (validated.map (·.idempotencyKey)).Nodup)
        (.validation .invalidOutboxEvents "idempotency keys must be unique within a turn")
      return validated

/-! ## Snapshots -/

/-- The checks both snapshot validators make, around the domain's own reader. -/
def validateSnapshot {σ : Type} (code : ErrorCode) (fromDict : List (PyKey × PyVal) → Option σ)
    (payload : PyVal) : Except Err (List (PyKey × PyVal)) := do
  let kvs ← orRaise payload.items? (.validation code "snapshot must be a mapping")
  require (!hasForbidden snapshotForbiddenKeys payload)
    (.validation code "snapshot contains forbidden keys")
  requireCanonicalBytes payload code maxSnapshotBytes
  require (fromDict kvs).isSome
    (.validation code "snapshot does not match the v1 domain contract")
  return kvs

def validateEmotionalSnapshot : PyVal → Except Err (List (PyKey × PyVal)) :=
  validateSnapshot .invalidEmotionalState EmotionalStateV1.fromDict

def validateRelationshipSnapshot : PyVal → Except Err (List (PyKey × PyVal)) :=
  validateSnapshot .invalidRelationshipState RelationshipStateV1.fromDict

/-- The neutral check: the document built from its own timestamp, compared with `==`. -/
def requireNeutral (neutral : PosFloat → List (PyKey × PyVal)) (kvs : List (PyKey × PyVal)) :
    Except Err Unit := do
  let timestamp ← orRaise ((dictGet kvs (py "timestamp")).bind requirePositiveFloat)
    (.validation .invalidResetPayload "reset snapshot must be the canonical neutral state")
  require (pyEq (.dict kvs) (.dict (neutral timestamp)))
    (.validation .invalidResetPayload "reset snapshot must be the canonical neutral state")

def validateNeutralEmotionalSnapshot (payload : PyVal) : Except Err Unit := do
  let kvs ← validateEmotionalSnapshot payload
  requireNeutral (fun t => (EmotionalStateV1.neutral t).toDict) kvs

def validateNeutralRelationshipSnapshot (payload : PyVal) : Except Err Unit := do
  let kvs ← validateRelationshipSnapshot payload
  requireNeutral (fun t => (RelationshipStateV1.neutral t).toDict) kvs

/-! ## The canonical commit payload -/

/-- The arguments `commit_turn` has validated. -/
structure CommitInput where
  requestId : PyStr
  historyGeneration : Nat
  userMessage : PyStr
  assistantMessage : PyStr
  emotionalState : List (PyKey × PyVal)
  relationshipState : List (PyKey × PyVal)
  publicResponse : PyStr
  replayPayload : List (PyKey × PyVal)
  outboxEvents : List OutboxInput
  expectedRevision : Option Nat

def outboxDoc (e : OutboxInput) : PyVal :=
  .dict [(.str (py "event_type"), .str e.eventType),
    (.str (py "payload"), .dict e.payload),
    (.str (py "idempotency_key"), .str e.idempotencyKey)]

def revisionDoc : Option Nat → PyVal
  | none => .none
  | some n => .int n

/-- `build_canonical_commit_payload`. The history generation is not part of it. -/
def buildCanonicalCommitPayload (c : CommitInput) : PyVal :=
  .dict [(.str (py "request_id"), .str c.requestId),
    (.str (py "expected_revision"), revisionDoc c.expectedRevision),
    (.str (py "user_message"), .str c.userMessage),
    (.str (py "assistant_message"), .str c.assistantMessage),
    (.str (py "emotional_state"), .dict c.emotionalState),
    (.str (py "relationship_state"), .dict c.relationshipState),
    (.str (py "public_response"), .str c.publicResponse),
    (.str (py "replay_payload"), .dict c.replayPayload),
    (.str (py "outbox_events"), .list (c.outboxEvents.map outboxDoc))]

/-- `canonical_payload_hash`. The digest is a function of the text: UTF-8 is injective. -/
def canonicalPayloadHash (sha256 : PyStr → PyStr) (payload : PyVal) : Except Err PyStr := do
  let canonical ← canonicalJson payload
  encodeUtf8 canonical
  return sha256 canonical

end Katherine.Local
