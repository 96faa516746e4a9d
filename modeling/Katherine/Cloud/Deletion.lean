import Katherine.Cloud.Admission
import Katherine.Cloud.Commit

/-!
# The account deletion ledger

The procedures of the account deletion migration. `Job.checks` is the conjunction of
the table's CHECK constraints, and every write of a row goes through `writeJob`, which
raises where PostgreSQL would. The procedures themselves catch everything and raise one
constant message, so each has a body, where a violation can still be seen, and the call
around it, where it cannot.

A body reads the clock up to twice: `vNow` when it starts, and `clock` in
`account_deletion_assert_owner`, after it has waited for the row.
-/

namespace Katherine.Cloud

open Py Sql

/-! ## The constraints of the job table -/

/-- `v_max_attempts`. -/
def maxAttempts : Int := 100

/-- The CHECK constraints of `account_deletion_jobs`. -/
def Job.checks (j : Job) : Bool :=
  j.userId.all isUserId && isSha256Hex j.userRefHmac && isSha256Hex j.intentFingerprint
    && decide (0 ≤ j.attempts ∧ j.attempts ≤ maxAttempts)
    && j.leaseOwner.all (isToken 64)
    && decide (j.leaseOwner.isSome = j.leaseExpiresAt.isSome)
    && decide (if j.status = .processing then j.leaseOwner.isSome ∧ j.leaseExpiresAt.isSome
        else j.leaseOwner = none ∧ j.leaseExpiresAt = none)
    && decide ((j.status = .completed) ↔ j.userId = none)
    && decide (j.status = .completed → j.dbPurgedAt.isSome)
    && decide ((j.status = .completed) ↔ j.completedAt.isSome)
    && decide (j.status = .pending → j.nextAttemptAt.isSome)
    && j.errorCode.all isCode
    && decide (j.status = .failed → j.errorCode.isSome)

/-- An `INSERT` or `UPDATE` of one row. -/
def writeJob (db : Db) (j : Job) : Except SqlErr Db :=
  if j.checks then .ok { db with jobs := db.jobs.put j } else .error .checkViolation

/-! ## Replies -/

/-- `counts` of a purge. -/
structure PurgeCounts where
  outboxEvents : Nat
  turnRequests : Nat
  archivalExtractions : Nat
  memories : Nat
  chatLogs : Nat
  admissionReservations : Nat
  privacyOperations : Nat
  profiles : Nat
deriving DecidableEq

inductive JobReply
  | created (jobId : Uuid)
  | replay (job : Job)
  | notFound
  | leased (job : Job)
  | purged (jobId : Uuid) (dbPurgedAt : Timestamp) (counts : PurgeCounts)
  | alreadyPurged (jobId : Uuid) (dbPurgedAt : Timestamp)
  | failed (jobId : Uuid) (errorCode : PyStr) (nextAttemptAt : Option Timestamp)
  | retryScheduled (jobId : Uuid) (nextAttemptAt : Timestamp)
  | completed (jobId : Uuid) (completedAt : Timestamp) (dbPurgedAt : Option Timestamp)
  | error (e : Envelope)
  /-- The call fails with the constant message `persistence error`. -/
  | raised
deriving DecidableEq

/-- `WHEN OTHERS THEN RAISE EXCEPTION 'persistence error'`. -/
def sanitized (body : Except SqlErr (JobReply × Db)) (db : Db) : JobReply × Db :=
  match body with
  | .ok out => out
  | .error _ => (.raised, db)

def invalid (message : String) (db : Db) : Except SqlErr (JobReply × Db) :=
  .ok (.error { code := .validationFailed, message }, db)

/-! ## `account_deletion_request` -/

structure DeletionRequest where
  authenticatedUserId : Option PyStr
  userRefHmac : Option PyStr
  operationId : Option Uuid
  intentFingerprint : Option PyStr

/-- `account_deletion_validation_error`. -/
def validateDeletionRequest (a : DeletionRequest) : Except Refusal (PyStr × PyStr × Uuid × PyStr) := do
  let userId ← given (a.authenticatedUserId.filter isUserId) "authenticated_user_id is invalid"
  let ref ← given (a.userRefHmac.filter isSha256Hex)
    "user_ref_hmac_sha256 must be 64 lowercase hex characters"
  let operationId ← given a.operationId "operation_id is required"
  let fingerprint ← given (a.intentFingerprint.filter isSha256Hex)
    "intent_fingerprint_sha256 must be 64 lowercase hex characters"
  pure (userId, ref, operationId, fingerprint)

/-- The body of `account_deletion_request`; `jobId` is generated. -/
def requestBody (clock : Timestamp) (jobId : Uuid) (a : DeletionRequest) (db : Db) :
    Except SqlErr (JobReply × Db) :=
  match validateDeletionRequest a with
  | .error (.envelope e) => .ok (.error e, db)
  | .error (.raised e) => .error e
  | .ok (userId, ref, operationId, fingerprint) =>
      match db.jobs.rows.find? fun j =>
          decide (j.userRefHmac = ref) && decide (j.operationId = operationId) with
      | some j =>
          if j.intentFingerprint = fingerprint then .ok (.replay j, db)
          else
            .ok (.error
              { code := .operationConflict,
                message := "operation_id already used with a different intent" }, db)
      | none =>
          if (db.jobs.get? jobId).isSome then .error .uniqueViolation
          else
            (writeJob db
              { jobId, operationId, userId := some userId, userRefHmac := ref,
                intentFingerprint := fingerprint, status := .pending, attempts := 0,
                leaseOwner := none, leaseExpiresAt := none, nextAttemptAt := some clock,
                dbPurgedAt := none, errorCode := none, requestedAt := clock, updatedAt := clock,
                completedAt := none }).map fun db => (.created jobId, db)

/-! ## `account_deletion_acquire_lease` -/

structure AcquireArgs where
  workerId : Option PyStr
  leaseSeconds : Option Int
  maxBatch : Option Int

/-- What the scan of `acquire_lease` looks for. -/
def Job.eligible (vNow : Timestamp) (j : Job) : Bool :=
  ((decide (j.status = .pending) || decide (j.status = .failed))
      && j.nextAttemptAt.any (fun t => decide (t ≤ vNow)) && decide (j.attempts < maxAttempts))
    || (decide (j.status = .processing) && j.leaseExpiresAt.any fun t => decide (t < vNow))

/-- `ORDER BY next_attempt_at`, nulls last; `prio` stands for the order among equal times. -/
def scanLe (prio : Job → Nat) (a b : Job) : Prop :=
  match a.nextAttemptAt, b.nextAttemptAt with
  | some s, some t => s < t ∨ s = t ∧ prio a ≤ prio b
  | some _, none => True
  | none, some _ => False
  | none, none => prio a ≤ prio b

instance (prio : Job → Nat) : DecidableRel (scanLe prio) := fun a b => by
  unfold scanLe
  cases a.nextAttemptAt <;> cases b.nextAttemptAt <;> infer_instance

/-- An expired lease at the ceiling, taken out of circulation. -/
def Job.terminalized (vNow : Timestamp) (j : Job) : Job :=
  { j with
    status := .failed, errorCode := some (py "attempts_exhausted"), leaseOwner := none,
    leaseExpiresAt := none, nextAttemptAt := none, updatedAt := vNow }

/-- A job claimed by a worker. -/
def Job.claimed (vNow : Timestamp) (workerId : PyStr) (leaseSeconds : Int) (j : Job) : Job :=
  { j with
    status := .processing, leaseOwner := some workerId,
    leaseExpiresAt := some (vNow + seconds leaseSeconds), attempts := j.attempts + 1,
    errorCode := none, updatedAt := vNow }

/-- The loop: jobs at the ceiling are terminalized on the way to the first that can be claimed.
A terminalized row is no longer eligible, so going down the sorted list is selecting again. -/
def acquireScan (vNow : Timestamp) (workerId : PyStr) (leaseSeconds : Int) :
    List Job → Db → Except SqlErr (JobReply × Db)
  | [], db => .ok (.notFound, db)
  | j :: js, db =>
      if j.status = .processing ∧ maxAttempts ≤ j.attempts then do
        let db ← writeJob db (j.terminalized vNow)
        acquireScan vNow workerId leaseSeconds js db
      else do
        let claimed := j.claimed vNow workerId leaseSeconds
        let db ← writeJob db claimed
        pure (.leased claimed, db)

/-- The body of `account_deletion_acquire_lease`. `locked` names the rows other transactions
hold, which the scan skips. -/
def acquireLeaseBody (vNow : Timestamp) (locked : Uuid → Bool) (prio : Job → Nat) (a : AcquireArgs)
    (db : Db) : Except SqlErr (JobReply × Db) :=
  match a.workerId.filter (isToken 64), a.leaseSeconds.filter fun n => 1 ≤ n ∧ n ≤ 3600,
      a.maxBatch.filter fun n => 1 ≤ n ∧ n ≤ 1000 with
  | none, _, _ => invalid "worker_id is invalid" db
  | some _, none, _ => invalid "lease_seconds must be between 1 and 3600" db
  | some _, some _, none => invalid "max_batch must be between 1 and 1000" db
  | some workerId, some leaseSeconds, some _ =>
      acquireScan vNow workerId leaseSeconds
        ((db.jobs.rows.filter fun j => j.eligible vNow && !locked j.jobId).insertionSort
          (scanLe prio)) db

/-! ## Ownership -/

/-- `account_deletion_assert_owner`. -/
def assertOwner (clock : Timestamp) (jobId : Option Uuid) (workerId : Option PyStr) (db : Db) :
    Except SqlErr Job :=
  match jobId, workerId.filter (isToken 64) with
  | some jobId, some workerId =>
      match db.jobs.get? jobId with
      | none => .error (.raised "account deletion job not found")
      | some j =>
          if j.status = .processing ∧ j.leaseOwner = some workerId ∧
              j.leaseExpiresAt.any (fun t => decide (clock < t)) = true then .ok j
          else .error (.raised "account deletion lease lost")
  | _, _ => .error (.raised "invalid account deletion job parameters")

/-! ## `account_deletion_purge` -/

def PurgeCounts.zero : PurgeCounts := ⟨0, 0, 0, 0, 0, 0, 0, 0⟩

/-- The deletes of the purge, in its order. -/
def Db.purgeUser (db : Db) (user : PyStr) : PurgeCounts × Db :=
  let counts : PurgeCounts :=
    { outboxEvents := db.outboxEvents.rows.countP (·.userId = user)
      turnRequests := db.turnRequests.rows.countP (·.userId = user)
      archivalExtractions := db.archivalExtractions.rows.countP (·.userId = user)
      memories := db.memories.rows.countP (·.userId = some user)
      chatLogs := db.chatLogs.rows.countP (·.userId = user)
      admissionReservations := db.admissionReservations.rows.countP (·.userId = user)
      privacyOperations := db.privacyOperations.rows.countP (·.userId = user)
      profiles := db.profiles.rows.countP (·.userId = user) }
  let db := { db with outboxEvents := db.outboxEvents.deleteWhere (·.userId = user) }
  let db := db.deleteTurnRequests (·.userId = user)
  let db := { db with
    archivalExtractions := db.archivalExtractions.deleteWhere (·.userId = user)
    memories := db.memories.deleteWhere (·.userId = some user) }
  let db := db.deleteChatLogs (·.userId = user)
  (counts, { db with
    admissionReservations := db.admissionReservations.deleteWhere (·.userId = user)
    privacyOperations := db.privacyOperations.deleteWhere (·.userId = user)
    profiles := db.profiles.deleteWhere (·.userId = user) })

structure PurgeJobArgs where
  jobId : Option Uuid
  workerId : Option PyStr
  intentFingerprint : Option PyStr

/-- The body of `account_deletion_purge`. -/
def purgeBody (vNow clock : Timestamp) (a : PurgeJobArgs) (db : Db) :
    Except SqlErr (JobReply × Db) :=
  match a.jobId, a.intentFingerprint.filter isSha256Hex with
  | some _, some fingerprint => do
      let j ← assertOwner clock a.jobId a.workerId db
      if j.intentFingerprint ≠ fingerprint then
        pure (.error { code := .operationConflict,
                       message := "intent fingerprint does not match the job" }, db)
      else
        match j.dbPurgedAt with
        | some t => pure (.alreadyPurged j.jobId t, db)
        | none =>
            -- `user_id = NULL` would match no row
            let (counts, db) := (j.userId.map db.purgeUser).getD (.zero, db)
            let db ← writeJob db { j with dbPurgedAt := some vNow, updatedAt := vNow }
            pure (.purged j.jobId vNow counts, db)
  | _, _ => invalid "purge parameters are invalid" db

/-! ## Failure, retry, completion -/

/-- The back-off: half a minute for each attempt, an hour at most. -/
def backoff (attempts : Int) : Int := seconds (min 3600 (30 * attempts))

/-- The body of `account_deletion_record_failure`. -/
def recordFailureBody (vNow clock : Timestamp) (jobId : Option Uuid) (workerId errorCode : Option PyStr)
    (db : Db) : Except SqlErr (JobReply × Db) :=
  match errorCode.filter isCode with
  | none => invalid "error_code is invalid" db
  | some errorCode => do
      let j ← assertOwner clock jobId workerId db
      let next := if maxAttempts ≤ j.attempts then none else some (vNow + backoff j.attempts)
      let db ← writeJob db
        { j with
          status := .failed, errorCode := some errorCode, leaseOwner := none,
          leaseExpiresAt := none, nextAttemptAt := next, updatedAt := vNow }
      pure (.failed j.jobId errorCode next, db)

/-- The body of `account_deletion_record_retry`. -/
def recordRetryBody (vNow clock : Timestamp) (jobId : Option Uuid) (workerId : Option PyStr)
    (db : Db) : Except SqlErr (JobReply × Db) := do
  let j ← assertOwner clock jobId workerId db
  if maxAttempts ≤ j.attempts then
    let db ← writeJob db (j.terminalized vNow)
    pure (.failed j.jobId (py "attempts_exhausted") none, db)
  else
    let next := vNow + backoff j.attempts
    let db ← writeJob db
      { j with
        status := .pending, errorCode := none, leaseOwner := none, leaseExpiresAt := none,
        nextAttemptAt := some next, updatedAt := vNow }
    pure (.retryScheduled j.jobId next, db)

/-- The body of `account_deletion_finalize`. -/
def finalizeBody (vNow clock : Timestamp) (jobId : Option Uuid) (workerId : Option PyStr) (db : Db) :
    Except SqlErr (JobReply × Db) := do
  let j ← assertOwner clock jobId workerId db
  if j.dbPurgedAt = none then
    pure (.error { code := .stateConflict,
                   message := "cannot finalize before the database purge is committed" }, db)
  else
    let db ← writeJob db
      { j with
        status := .completed, userId := none, leaseOwner := none, leaseExpiresAt := none,
        completedAt := some vNow, updatedAt := vNow }
    pure (.completed j.jobId vNow j.dbPurgedAt, db)

/-- `account_deletion_purge_completed`; `none` is the exception. -/
def purgeCompleted (clock : Timestamp) (prio : Job → Nat) (a : PurgeArgs) (db : Db) :
    Option Nat × Db :=
  match validatePurge a with
  | none => (none, db)
  | some (cutoff, n) =>
      let victims := purgeVictims (fun j => if j.status = .completed then j.completedAt else none)
        prio (min cutoff (clock - days 30)) n db.jobs.rows
      (some victims.length, { db with jobs := db.jobs.deleteWhere (· ∈ victims) })

end Katherine.Cloud
