import Katherine.Cloud.Commit

/-!
# `privacy_apply_operation`

The engine behind `delete_history`, `delete_memories`, `reset_emotional_state` and
`reset_relationship_state`. It takes the lock `commit_turn` takes, looks the operation
up in its ledger, applies it once, moves the profile's revision on and records the
result in the same transaction.

The digest comes from `pgcrypto` and is a parameter.
-/

namespace Katherine.Cloud

open Py Sql Pg

/-- The operation a name stands for. -/
def Operation.ofText (s : PyStr) : Option Operation :=
  if s = py "delete_history" then some .deleteHistory
  else if s = py "delete_memories" then some .deleteMemories
  else if s = py "reset_emotional_state" then some .resetEmotionalState
  else if s = py "reset_relationship_state" then some .resetRelationshipState
  else none

def Operation.text : Operation → PyStr
  | .deleteHistory => py "delete_history"
  | .deleteMemories => py "delete_memories"
  | .resetEmotionalState => py "reset_emotional_state"
  | .resetRelationshipState => py "reset_relationship_state"

@[simp] theorem Operation.ofText_text (o : Operation) : ofText o.text = some o := by
  cases o <;> decide

theorem Operation.text_of_ofText {s : PyStr} {o : Operation} (h : ofText s = some o) : s = o.text := by
  unfold ofText at h
  split at h
  · rename_i hs
    cases h
    exact hs
  · split at h
    · rename_i hs
      cases h
      exact hs
    · split at h
      · rename_i hs
        cases h
        exact hs
      · split at h
        · rename_i hs
          cases h
          exact hs
        · cases h

/-- The parameters, `NULL` included. -/
structure PrivacyArgs where
  authenticatedUserId : Option PyStr
  operation : PyStr
  operationId : Option Uuid
  payload : Option Jsonb

/-- What step 0 leaves of the parameters. -/
structure PrivacyInput where
  userId : PyStr
  operation : Operation
  operationId : Uuid
  payload : Jsonb

def PrivacyInput.key (i : PrivacyInput) : PyStr × Uuid := (i.userId, i.operationId)

/-- `privacy_op_validation_error`. -/
def privacyOpValidationError (a : PrivacyArgs) : Except Refusal (PyStr × Uuid × Jsonb) := do
  let userId ← given (a.authenticatedUserId.filter isUserId) "authenticated_user_id is invalid"
  let operationId ← given a.operationId "operation_id is required"
  let payload ← given (a.payload.filter (·.isObject)) "operation_payload must be a JSON object"
  pure (userId, operationId, payload)

/-- A reset takes the canonical neutral snapshot and nothing else. -/
def ensureNeutral (operation : Operation) (payload : Jsonb) : Except Refusal Unit :=
  match operation with
  | .resetEmotionalState =>
      ensureCast (isNeutralSnapshot payload .emotional)
        "emotional_state snapshot must be the canonical neutral v1 state"
  | .resetRelationshipState =>
      ensureCast (isNeutralSnapshot payload .relationship)
        "relationship_state snapshot must be the canonical neutral v1 state"
  | _ => .ok ()

/-- Step 0. -/
def validatePrivacy (a : PrivacyArgs) : Except Refusal PrivacyInput := do
  let (userId, operationId, payload) ← privacyOpValidationError a
  let operation ← given (Operation.ofText a.operation) "operation is invalid"
  ensureNeutral operation payload
  pure { userId, operation, operationId, payload }

inductive PrivacyReply
  | result (r : PrivacyResult)
  | error (e : Envelope)
  | raised
deriving DecidableEq

/-- `UPDATE profiles SET … WHERE user_id = user`. -/
def Db.updateProfile (db : Db) (user : PyStr) (f : Profile → Profile)
    (hf : ∀ p, (f p).userId = p.userId) : Db :=
  { db with
    profiles := db.profiles.mapRows (fun p => if p.userId = user then f p else p) fun p => by
      split
      · exact hf p
      · rfl }

/-- Rows of a user. -/
def countOf {ρ κ : Type} {key : ρ → κ} (t : Table ρ κ key) (p : ρ → Bool) : Nat := t.rows.countP p

/-- Step 4: the mutation, and how many rows each statement reported. -/
def applyMutation (now : Timestamp) (i : PrivacyInput) (db : Db) : PrivacyCounts × Db :=
  let zero : PrivacyCounts := ⟨0, 0, 0, 0, 0, 0⟩
  match i.operation with
  | .deleteHistory =>
      let counts : PrivacyCounts :=
        { zero with
          outboxEvents := countOf db.outboxEvents (·.userId = i.userId)
          turnRequests := countOf db.turnRequests (·.userId = i.userId)
          archivalExtractions := countOf db.archivalExtractions (·.userId = i.userId)
          chatLogs := countOf db.chatLogs (·.userId = i.userId) }
      let db := { db with outboxEvents := db.outboxEvents.deleteWhere (·.userId = i.userId) }
      let db := db.deleteTurnRequests (·.userId = i.userId)
      let db := { db with
        archivalExtractions := db.archivalExtractions.deleteWhere (·.userId = i.userId) }
      (counts, db.deleteChatLogs (·.userId = i.userId))
  | .deleteMemories =>
      let counts : PrivacyCounts :=
        { zero with
          memories := countOf db.memories (·.userId = some i.userId)
          archivalExtractions := countOf db.archivalExtractions (·.userId = i.userId) }
      (counts, { db with
        memories := db.memories.deleteWhere (·.userId = some i.userId)
        archivalExtractions := db.archivalExtractions.deleteWhere (·.userId = i.userId) })
  | .resetEmotionalState =>
      ({ zero with profiles := countOf db.profiles (·.userId = i.userId) },
        db.updateProfile i.userId
          (fun p => { p with emotionalState := some i.payload, updatedAt := some now }) fun _ => rfl)
  | .resetRelationshipState =>
      ({ zero with profiles := countOf db.profiles (·.userId = i.userId) },
        db.updateProfile i.userId
          (fun p => { p with relationshipState := some i.payload, updatedAt := some now })
          fun _ => rfl)

/-- Steps 3 to 7, for an operation the ledger does not know. -/
def applyOperation (sha256 : PyStr → PyStr) (now : Timestamp) (i : PrivacyInput) (db : Db) :
    Except SqlErr (PrivacyReply × Db) :=
  let profile := db.profiles.get? i.userId
  let (counts, db) := applyMutation now i db
  if profile.any fun p => decide (maxBigint ≤ p.revision) then .error .outOfRange
  else
    let revision := (profile.map (·.revision + 1)).getD 0
    let db := db.updateProfile i.userId
      (fun p => { p with revision := revision, updatedAt := some now }) fun _ => rfl
    let result : PrivacyResult :=
      { operation := i.operation, operationId := i.operationId, userId := i.userId, revision,
        counts }
    if !(isUserId i.userId && isSha256Hex (sha256 i.payload.text)) then .error .checkViolation
    else .ok (.result result, { db with
      privacyOperations := db.privacyOperations.insertNew
        { userId := i.userId, operationId := i.operationId, operation := i.operation,
          payloadSha256 := sha256 i.payload.text, appliedAt := now, result } })

/-- Steps 1 and 2: what the ledger decides. -/
def privacyValidated (sha256 : PyStr → PyStr) (now : Timestamp) (i : PrivacyInput) (db : Db) :
    Except SqlErr (PrivacyReply × Db) :=
  match db.privacyOperations.get? i.key with
  | some row =>
      if row.operation = i.operation ∧ row.payloadSha256 = sha256 i.payload.text then
        .ok (.result row.result, db)
      else
        .ok (.error
          { code := .operationConflict,
            message := "operation_id already used with a different operation or payload" }, db)
  | none => applyOperation sha256 now i db

/-- `privacy_apply_operation`. -/
def privacyApplyOperation (sha256 : PyStr → PyStr) (now : Timestamp) (a : PrivacyArgs) (db : Db) :
    PrivacyReply × Db :=
  match validatePrivacy a with
  | .error (.envelope e) => (.error e, db)
  | .error (.raised _) => (.raised, db)
  | .ok i =>
      match privacyValidated sha256 now i db with
      | .ok out => out
      | .error _ => (.raised, db)

end Katherine.Cloud
