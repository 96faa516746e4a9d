import Katherine.Cloud.Schema

/-!
# Payload contracts of the hosted procedures

The `jsonb_…` helper functions of migrations 4 and 5: which documents may be stored
as a replay payload, as an outbox payload and as a snapshot. A document can also make
a check raise, because a number outside the range of `double precision` fails to cast;
that is `none` here.

A comparison with SQL `NULL` is not true, so a check on a member that is not there
does not reject. The key counts rule that case out where it matters.
-/

namespace Katherine.Cloud

open Py Sql Pg
open Katherine.Context (canonicalUuid)

/-! ## Keys -/

mutual
/-- `jsonb_has_forbidden_key`. -/
def hasForbiddenKey (forbidden : List PyStr) : Jsonb → Bool
  | .arr xs => elemsHaveForbiddenKey forbidden xs
  | .obj kvs => membersHaveForbiddenKey forbidden kvs
  | _ => false
def elemsHaveForbiddenKey (forbidden : List PyStr) : List Jsonb → Bool
  | [] => false
  | x :: xs => hasForbiddenKey forbidden x || elemsHaveForbiddenKey forbidden xs
def membersHaveForbiddenKey (forbidden : List PyStr) : List (PyStr × Jsonb) → Bool
  | [] => false
  | (k, v) :: kvs =>
      decide (k ∈ forbidden) || hasForbiddenKey forbidden v || membersHaveForbiddenKey forbidden kvs
end

/-- `jsonb_keys_subset_of`. -/
def keysSubsetOf (payload : Jsonb) (allowed : List PyStr) : Bool :=
  match payload with
  | .obj kvs => kvs.all fun p => decide (p.1 ∈ allowed)
  | _ => false

/-- `v_replay_forbidden`. -/
def replayForbidden : List PyStr :=
  [py "prompt", py "system_prompt", py "meta_cognition", py "internal_instructions", py "message",
    py "user_message", py "assistant_message", py "content"]

/-- What no snapshot may hold. -/
def snapshotForbidden : List PyStr := [py "user_id", py "bond_label"] ++ replayForbidden

def replayKeys : List PyStr :=
  [py "response", py "emotion_state", py "message_id", py "request_id", py "duration_ms"]

def outboxPayloadKeys : List PyStr :=
  [py "ref", py "request_id", py "turn_id", py "message_id", py "entity_id", py "kind",
    py "version"]

/-! ## The outbox payload -/

/-- One member of `jsonb_outbox_payload_value_contract`. -/
def outboxValueOk (k : PyStr) (v : Jsonb) : Bool :=
  if k = py "version" then
    match v with
    | .num x =>
        !x.text.isEmpty && decide (x.text.length ≤ 4) && x.text.all isDigit
          && decide (1 ≤ natOfText x.text) && decide (natOfText x.text ≤ 1000)
    | _ => false
  else
    match v with
    | .str s => isToken 128 s
    | _ => false

/-- `jsonb_outbox_payload_value_contract`. -/
def outboxPayloadValueContract : Jsonb → Bool
  | .obj kvs => kvs.all fun p => outboxValueOk p.1 p.2
  | _ => false

/-- `outbox_events_payload_check`. -/
def outboxPayloadCheck (payload : Jsonb) : Bool :=
  payload.isObject && decide (payload.octetLength ≤ 8192) && keysSubsetOf payload outboxPayloadKeys
    && !hasForbiddenKey replayForbidden payload && outboxPayloadValueContract payload

/-- `turn_requests_replay_payload_check`. -/
def replayPayloadCheck (payload : Jsonb) : Bool :=
  payload.isObject && decide (payload.octetLength ≤ 8192) && keysSubsetOf payload replayKeys
    && !hasForbiddenKey replayForbidden payload

/-! ## Snapshots -/

inductive SnapshotKind
  | emotional
  | relationship
deriving DecidableEq

/-- `jsonb_typeof(v) = 'number' AND lo <= v AND v <= 1`, compared as doubles. -/
def metricOk (lo : Int) (v : Option Jsonb) : Option Bool :=
  match v with
  | none => some true
  | some (.num x) => x.toDouble.map fun d => decide (lo * d.2 ≤ d.1) && decide (d.1 ≤ d.2)
  | some _ => some false

/-- `jsonb_typeof(v) = 'number' AND 0 < v`, compared as doubles. -/
def timestampOk (v : Option Jsonb) : Option Bool :=
  match v with
  | none => some true
  | some (.num x) => x.toDouble.map fun d => decide (0 < d.1)
  | some _ => some false

/-- The loop over the metrics of one range: it returns at the first bad one. -/
def metricsOk (payload : Jsonb) (lo : Int) : List PyStr → Option Bool
  | [] => some true
  | k :: ks => do
      if ← metricOk lo (payload.get? k) then metricsOk payload lo ks else pure false

/-- `schema_version` is the integer 1, written without point, exponent or sign. -/
def schemaVersionOk (payload : Jsonb) : Option Bool :=
  match payload.get? (py "schema_version") with
  | some (.num x) =>
      if x.text.all isDigit && !x.text.isEmpty then
        -- the cast to `bigint`
        if natOfText x.text ≤ maxBigint then some (decide (natOfText x.text = 1)) else none
      else some false
  | _ => some false

def emotionalKeys : List PyStr :=
  [py "schema_version", py "pleasure", py "arousal", py "dominance", py "libido",
    py "aggression", py "connection", py "energy", py "tension", py "coping_mode", py "timestamp"]

def relationshipKeys : List PyStr :=
  [py "schema_version", py "trust", py "affection", py "tension", py "triggers", py "timestamp"]

def copingModes : List PyStr := [py "HEALTHY", py "DEFENSIVE", py "DISSOCIATED", py "MANIC"]

/-- Exactly `keys`. -/
def hasKeys (payload : Jsonb) (keys : List PyStr) : Bool :=
  keysSubsetOf payload keys && decide ((payload.members?.getD []).length = keys.length)

def copingModeOk : Option Jsonb → Bool
  | none => true
  | some (.str s) => decide (s ∈ copingModes)
  | some _ => false

/-- One element of `triggers`. -/
def triggerOk : Jsonb → Bool
  | .str s => decide (btrim s ≠ []) && decide (s.length ≤ 128) && decide (s = btrim s)
  | _ => false

/-- `triggers`: at most 32 trimmed strings, no two of them equal. -/
def triggersOk : Option Jsonb → Bool
  | none => true
  | some (.arr xs) =>
      decide (xs.length ≤ 32) && xs.all triggerOk
        && decide ((xs.map fun v => v.asText.map btrim).Nodup)
  | some _ => false

/-- The part of the contract that depends on the kind of snapshot. -/
def snapshotShapeOk (payload : Jsonb) : SnapshotKind → Option Bool
  | .emotional =>
      if !hasKeys payload emotionalKeys then some false
      else do
        if !(← metricsOk payload (-1) [py "pleasure", py "arousal", py "dominance"]) then
          return false
        if !(← metricsOk payload 0
            [py "libido", py "aggression", py "connection", py "energy", py "tension"]) then
          return false
        if !copingModeOk (payload.get? (py "coping_mode")) then return false
        timestampOk (payload.get? (py "timestamp"))
  | .relationship =>
      if !hasKeys payload relationshipKeys then some false
      else do
        if !(← metricsOk payload 0 [py "trust", py "affection", py "tension"]) then return false
        if !triggersOk (payload.get? (py "triggers")) then return false
        timestampOk (payload.get? (py "timestamp"))

/-- `jsonb_snapshot_contract`; `none` is a cast out of range. -/
def snapshotContract (payload : Option Jsonb) (kind : SnapshotKind) : Option Bool :=
  match payload with
  | none => some true
  | some payload =>
      if !payload.isObject then some false
      else do
        if !(← schemaVersionOk payload) then return false
        if hasForbiddenKey snapshotForbidden payload then return false
        if 8192 < payload.octetLength then return false
        snapshotShapeOk payload kind

/-- `(payload ->> k)::double precision = c`. -/
def castsTo (payload : Jsonb) (k : PyStr) (c : Numeric) : Option Bool :=
  match payload.get? k with
  | some (.num x) => x.toDouble.bind fun d => c.toDouble.map fun e => decide (d.1 * e.2 = e.1 * d.2)
  | _ => some false

/-- A conjunction that stops at the first conjunct that fails. -/
def allOk (checks : List (Option Bool)) : Option Bool :=
  checks.foldr (fun c rest => do if ← c then rest else pure false) (some true)

/-- `p_payload -> 'triggers' = '[]'`. -/
def noTriggers (payload : Jsonb) : Bool :=
  match payload.get? (py "triggers") with
  | some (.arr []) => true
  | _ => false

/-- `privacy_is_neutral_snapshot`. -/
def isNeutralSnapshot (payload : Jsonb) (kind : SnapshotKind) : Option Bool :=
  let zero : Numeric := ⟨0, 1⟩
  allOk <| snapshotContract (some payload) kind ::
    match kind with
    | .emotional =>
        [castsTo payload (py "pleasure") zero, castsTo payload (py "arousal") zero,
          castsTo payload (py "dominance") zero, castsTo payload (py "libido") zero,
          castsTo payload (py "aggression") zero, castsTo payload (py "connection") ⟨5, 1⟩,
          castsTo payload (py "energy") ⟨8, 1⟩, castsTo payload (py "tension") zero,
          some (decide (payload.getText? (py "coping_mode") = some (py "HEALTHY")))]
    | .relationship =>
        [castsTo payload (py "trust") ⟨5, 1⟩, castsTo payload (py "affection") ⟨3, 1⟩,
          castsTo payload (py "tension") zero, some (noTriggers payload)]

end Katherine.Cloud
