import Katherine.Local.Storage

/-!
# Importing a legacy installation

`backend/local_storage/legacy_import.py`. The fixture is validated as a whole, then
written turn by turn in one transaction. A turn whose id is already in the ledger is
skipped if the stored digest is that of the turn, and refused otherwise.

The `except` clauses of this block name `sqlite3.Error` and `ValidationError`.
-/

namespace Katherine.Local

open Py Sql

/-- `MAX_LEGACY_MESSAGES`. -/
def maxLegacyMessages : Nat := 100000

/-- `MAX_LEGACY_CONTENT_CHARS`. -/
def maxLegacyContentChars : Nat := 20000

/-- `_FIXTURE_FORBIDDEN_KEYS`: the payload contract's keys without the message fields. -/
def fixtureForbiddenKeys : List PyStr :=
  [py "prompt", py "system_prompt", py "meta_cognition", py "internal_instructions"]

/-- `str.lower`, on what can equal one of the forbidden keys. -/
def lower (s : PyStr) : PyStr :=
  s.map fun c => if h : 65 ≤ c.val ∧ c.val ≤ 90 then ⟨c.val + 32, by omega⟩ else c

def isForbiddenFixtureKey : PyKey → Bool
  | .str k => decide (lower k ∈ fixtureForbiddenKeys)
  | _ => false

mutual
/-- `_assert_no_forbidden_keys`: it would raise. -/
def hasForbiddenFixtureKey : PyVal → Bool
  | .list xs => hasForbiddenFixtureElems xs
  | .tuple xs => hasForbiddenFixtureElems xs
  | .dict kvs => hasForbiddenFixtureItems kvs
  | _ => false
def hasForbiddenFixtureElems : List PyVal → Bool
  | [] => false
  | x :: xs => hasForbiddenFixtureKey x || hasForbiddenFixtureElems xs
def hasForbiddenFixtureItems : List (PyKey × PyVal) → Bool
  | [] => false
  | (k, v) :: kvs =>
      isForbiddenFixtureKey k || hasForbiddenFixtureKey v || hasForbiddenFixtureItems kvs
end

/-- A validated turn of the fixture. -/
structure LegacyTurn where
  requestId : PyStr
  userMessage : PyStr
  assistantMessage : PyStr
  createdAt : Option PyStr
  replayPayload : Option PyVal

def validateLegacyMessage (v : Option PyVal) : Except Err PyStr := do
  let s ← orRaise ((v.bind PyVal.str?).filter (!·.isEmpty))
    (.validation .invalidLegacyMessage "turn message must be a non-empty string")
  require (s.length ≤ maxLegacyContentChars)
    (.validation .legacyMessageTooLong "turn message exceeds size bound")
  return s

/-- `created_at`: absent, `None` or a string. -/
def validateLegacyCreatedAt : Option PyVal → Except Err (Option PyStr)
  | none => .ok none
  | some .none => .ok none
  | some (.str s) => .ok (some s)
  | some _ => .error
      (.validation .invalidLegacyCreatedAt "created_at must be a string when present")

def validateLegacyTurn (turn : PyVal) : Except Err LegacyTurn := do
  let t ← orRaise turn.items? (.validation .invalidLegacyTurn "turn must be a mapping")
  let requestId ← orRaise (((dictGet t (py "request_id")).bind PyVal.str?).filter (!·.isEmpty))
    (.validation .invalidLegacyRequestId "turn request id must be a string")
  let userMessage ← validateLegacyMessage (dictGet t (py "user_message"))
  let assistantMessage ← validateLegacyMessage (dictGet t (py "assistant_message"))
  let createdAt ← validateLegacyCreatedAt (dictGet t (py "created_at"))
  require (!hasForbiddenFixtureKey turn)
    (.validation .forbiddenKeyInLegacyFixture "fixture contains a forbidden key")
  return { requestId, userMessage, assistantMessage, createdAt,
           replayPayload := dictGet t (py "replay_payload") }

/-- `validate_legacy_fixture`; the turns. -/
def validateLegacyFixture (fixture : PyVal) : Except Err (List LegacyTurn) := do
  let f ← orRaise fixture.items? (.validation .invalidLegacyFixture "fixture must be a mapping")
  require (pyEq ((dictGet f (py "schema_version")).getD .none) (.int 1))
    (.validation .invalidLegacyFixtureVersion "unsupported legacy fixture schema version")
  require (pyEq ((dictGet f (py "source")).getD .none) (.str (py "supabase")))
    (.validation .invalidLegacySource "only supabase legacy exports are importable")
  let turns ← orRaise ((dictGet f (py "turns")).bind fun v =>
      match v with
      | .list xs => some xs
      | _ => none)
    (.validation .invalidLegacyTurns "turns must be a list")
  require (turns.length ≤ maxLegacyMessages)
    (.validation .legacyFixtureTooLarge "legacy fixture exceeds size bound")
  require (!hasForbiddenFixtureKey fixture)
    (.validation .forbiddenKeyInLegacyFixture "fixture contains a forbidden key")
  turns.mapM validateLegacyTurn

/-- `ImportReport`. -/
structure ImportReport where
  importedTurns : Nat
  skippedDuplicates : Nat
  totalTurnsAfter : Nat
deriving DecidableEq

/-- `payload.setdefault(k, v)`. -/
def setDefault (kvs : List (PyKey × PyVal)) (k : PyStr) (v : PyVal) : List (PyKey × PyVal) :=
  if (dictGet kvs k).isSome then kvs else kvs ++ [(.str k, v)]

/-- `_import_replay_payload`. -/
def importReplayPayload (t : LegacyTurn) (assistantId : Nat) : PyVal :=
  let base := (t.replayPayload.bind PyVal.items?).getD []
  .dict (setDefault (setDefault base (py "response") (.str t.assistantMessage))
    (py "message_id") (.int assistantId))

section

variable (sha256 : PyStr → PyStr)

/-- The text `_legacy_hash` digests; the keys are in order. -/
def legacyText (t : LegacyTurn) : PyStr :=
  render [cp ' '] (.dict [(.str (py "assistant_message"), .str t.assistantMessage),
    (.str (py "request_id"), .str t.requestId), (.str (py "user_message"), .str t.userMessage)])

/-- `_legacy_hash`. -/
def legacyHash (t : LegacyTurn) : Except Err PyStr := do
  encodeUtf8 (legacyText t)
  return sha256 (legacyText t)

/-- `json.dumps(replay_payload, ensure_ascii=False)`, whose exceptions nobody translates. -/
def dumpReplay (v : PyVal) : Except Err PyStr := orRaise (dumpsDefault v) .type

/-- The ledger row of an imported turn. -/
def importedRow (t : LegacyTurn) (hash replayText createdAt : PyStr) (user assistant : Nat) :
    TurnRequest where
  requestId := t.requestId
  payloadHash := hash
  status := .completed
  expectedRevision := 0
  committedRevision := some 0
  userMessageId := some user
  assistantMessageId := some assistant
  replayPayload := some replayText
  errorCode := none
  createdAt := createdAt
  updatedAt := createdAt
  completedAt := some createdAt

/-- `t.get("created_at") or _now_iso()`. -/
def LegacyTurn.created (t : LegacyTurn) (now : PyStr) : PyStr :=
  match t.createdAt with
  | some (c :: s) => c :: s
  | _ => now

/-- The contents after the user message of `t` was inserted. -/
def Db.importUser (db : Db) (t : LegacyTurn) (now : PyStr) : Db :=
  { db with chatLogs := db.chatLogs.insert ⟨.user, t.userMessage, t.created now⟩ }

/-- The contents after both messages of `t` were inserted. -/
def Db.importMessages (db : Db) (t : LegacyTurn) (now : PyStr) : Db :=
  { db with
    chatLogs := (db.importUser t now).chatLogs.insert
      ⟨.assistant, t.assistantMessage, t.created now⟩ }

/-- The contents after `t` was imported. -/
def Db.importTurn (db : Db) (t : LegacyTurn) (now hash replayText : PyStr) : Db :=
  { db.importMessages t now with
    turnRequests := db.turnRequests.insertNew (importedRow t hash replayText (t.created now)
      (db.importUser t now).chatLogs.seq (db.importMessages t now).chatLogs.seq) }

/-- The statements for the turns that remain, after `i` imported and `k` skipped. -/
def importLoop (now : PyStr) : List LegacyTurn → Nat → Nat → Db → Outcome Db Err ImportReport
  | [], i, k, db => .commit ⟨i, k, db.turnRequests.rows.length⟩ db
  | t :: ts, i, k, db =>
      .attempt (bindText t.requestId) db fun _ =>
      match db.turnRequests.get? t.requestId with
      | some row =>
          .attempt (legacyHash sha256 t) db fun hash =>
          if row.payloadHash ≠ hash then .raise (.validation .legacyRequestIdConflict
            "fixture request id conflicts with a different already-imported turn") db
          else importLoop now ts i (k + 1) db
      | none =>
          .attempt (bindText t.userMessage) db fun _ =>
          .attempt (bindText (t.created now)) db fun _ =>
          .attempt (bindText t.assistantMessage) (db.importUser t now) fun _ =>
          .attempt (legacyHash sha256 t) (db.importMessages t now) fun hash =>
          .attempt (dumpReplay (importReplayPayload t (db.importMessages t now).chatLogs.seq))
            (db.importMessages t now) fun text =>
          .attempt (bindText text) (db.importMessages t now) fun _ =>
          importLoop now ts (i + 1) k (db.importTurn t now hash text)

/-- `except sqlite3.Error` and `except ValidationError`. -/
def catchImport : Err → Option Err
  | .sqlite => some databaseError
  | .validation code message => some (.validation code message)
  | _ => none

def importBlock (turns : List LegacyTurn) (ck : Clock) : Block Db Err ImportReport where
  guarded := true
  catches := catchImport
  body db := importLoop sha256 ck.now.text turns 0 0 db

end

end Katherine.Local
