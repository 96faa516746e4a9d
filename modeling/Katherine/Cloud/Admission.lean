import Katherine.Cloud.Schema

/-!
# The admission ledger and the retention purges

`reserve_admission` counts the reservations of the last minute and of the last day and
adds one if every count leaves room. It reads the clock before it waits for its lock, so
the time it records and counts from, `vNow`, may be older than the clock that a purge in
between has read.

The purges delete the oldest rows below a cutoff, a batch at a time. The cutoff is the
caller's, held back by the database clock.
-/

namespace Katherine.Cloud

open Py Sql

/-! ## `reserve_admission` -/

/-- The decisions of `reserve_admission`. -/
inductive Decision
  | admitted
  | invalidAdmissionInput
  | requestReplayUnavailable
  | requestIdConflict
  | userRateLimited
  | networkRateLimited
  | applicationRateLimited
  | userDailyRequestQuotaExceeded
  | userDailyUnitQuotaExceeded
deriving DecidableEq

/-- `retry_after_seconds`. -/
def Decision.retryAfterSeconds : Decision → Nat
  | .userRateLimited => 60
  | .networkRateLimited => 60
  | .applicationRateLimited => 60
  | .userDailyRequestQuotaExceeded => 86400
  | .userDailyUnitQuotaExceeded => 86400
  | _ => 0

def userRequestsPerMinute : Nat := 20
def networkRequestsPerMinute : Nat := 60
def applicationRequestsPerMinute : Nat := 25
def userRequestsPerDay : Nat := 200
def userEstimatedUnitsPerDay : Nat := 250000
def messageMaxEstimatedUnits : Nat := 6000

/-- The parameters, `NULL` included. -/
structure AdmissionArgs where
  userId : Option PyStr
  requestId : Option Uuid
  messageHmac : Option PyStr
  networkHmac : Option PyStr
  estimatedUnits : Option Int

/-- The input validation: the reservation to make, at `vNow`. -/
def validateAdmission (vNow : Timestamp) (a : AdmissionArgs) : Option AdmissionReservation := do
  let userId ← a.userId.filter isUserId
  let requestId ← a.requestId
  let messageHmac ← a.messageHmac.filter isSha256Hex
  let networkHmac ← a.networkHmac.filter isSha256Hex
  let units ← a.estimatedUnits.filter fun n : Int => 1 ≤ n ∧ n ≤ messageMaxEstimatedUnits
  pure { userId, requestId, messageHmac, networkHmac, estimatedUnits := units.toNat,
         reservedAt := vNow }

abbrev Reservations := Table AdmissionReservation (PyStr × Uuid) fun r => (r.userId, r.requestId)

/-- `count(*) … WHERE p AND reserved_at > since`. -/
def countSince (t : Reservations) (p : AdmissionReservation → Bool) (since : Timestamp) : Nat :=
  t.rows.countP fun r => p r && decide (since < r.reservedAt)

/-- `sum(estimated_units) … WHERE p AND reserved_at > since`. -/
def unitsSince (t : Reservations) (p : AdmissionReservation → Bool) (since : Timestamp) : Nat :=
  ((t.rows.filter fun r => p r && decide (since < r.reservedAt)).map (·.estimatedUnits)).sum

/-- The duplicate check and the five quotas, for a well-formed request. -/
def admissionDecision (t : Reservations) (r : AdmissionReservation) : Decision :=
  let ofUser (x : AdmissionReservation) : Bool := x.userId = r.userId
  let minute := r.reservedAt - seconds 60
  let day := r.reservedAt - hours 24
  match t.get? (r.userId, r.requestId) with
  | some x =>
      if x.messageHmac = r.messageHmac then .requestReplayUnavailable else .requestIdConflict
  | none =>
      if userRequestsPerMinute ≤ countSince t ofUser minute then .userRateLimited
      else if networkRequestsPerMinute ≤ countSince t (·.networkHmac = r.networkHmac) minute then
        .networkRateLimited
      else if applicationRequestsPerMinute ≤ countSince t (fun _ => true) minute then
        .applicationRateLimited
      else if userRequestsPerDay ≤ countSince t ofUser day then .userDailyRequestQuotaExceeded
      else if userEstimatedUnitsPerDay < unitsSince t ofUser day + r.estimatedUnits then
        .userDailyUnitQuotaExceeded
      else .admitted

/-- `reserve_admission`. Under the lock no other transaction inserts, so a reservation that
passed the duplicate check is inserted. -/
def reserveAdmission (vNow : Timestamp) (a : AdmissionArgs) (db : Db) : Decision × Db :=
  match validateAdmission vNow a with
  | none => (.invalidAdmissionInput, db)
  | some r =>
      match admissionDecision db.admissionReservations r with
      | .admitted =>
          (.admitted, { db with admissionReservations := db.admissionReservations.insertNew r })
      | d => (d, db)

/-! ## Retention -/

/-- `ORDER BY key LIMIT n`; `prio` stands for the order among equal keys. -/
def oldest {ρ : Type} (key : ρ → Timestamp) (prio : ρ → Nat) (n : Nat) (rows : List ρ) : List ρ :=
  (rows.insertionSort fun a b => key a < key b ∨ key a = key b ∧ prio a ≤ prio b).take n

theorem oldest_subset {ρ : Type} {key : ρ → Timestamp} {prio : ρ → Nat} {n : Nat} {rows : List ρ}
    {r : ρ} (h : r ∈ oldest key prio n rows) : r ∈ rows :=
  (List.perm_insertionSort _ rows).mem_iff.mp (List.mem_of_mem_take h)

/-- The parameters of a purge. -/
structure PurgeArgs where
  cutoff : Option Timestamp
  batchSize : Option Int

/-- `retention_purge_validation_error`. -/
def validatePurge (a : PurgeArgs) : Option (Timestamp × Nat) := do
  let cutoff ← a.cutoff
  let batchSize ← a.batchSize.filter fun n => 1 ≤ n ∧ n ≤ 1000
  pure (cutoff, batchSize.toNat)

/-- The shared shape of the purges: among the rows that have a time below the cutoff, a batch of
the oldest. -/
def purgeVictims {ρ : Type} (time : ρ → Option Timestamp) (prio : ρ → Nat) (cutoff : Timestamp)
    (n : Nat) (rows : List ρ) : List ρ :=
  oldest (fun r => (time r).getD 0) prio n
    (rows.filter fun r => (time r).any fun t => decide (t < cutoff))

theorem mem_purgeVictims {ρ : Type} {time : ρ → Option Timestamp} {prio : ρ → Nat}
    {cutoff : Timestamp} {n : Nat} {rows : List ρ} {r : ρ}
    (h : r ∈ purgeVictims time prio cutoff n rows) : r ∈ rows ∧ ∃ t, time r = some t ∧ t < cutoff := by
  obtain ⟨hr, ht⟩ := List.mem_filter.mp (oldest_subset h)
  cases hv : time r with
  | none => simp [hv] at ht
  | some t => exact ⟨hr, t, rfl, by simpa [hv] using ht⟩

/-- `purge_admission_reservations`; `none` is the exception. -/
def purgeAdmissionReservations (clock : Timestamp) (prio : AdmissionReservation → Nat)
    (a : PurgeArgs) (db : Db) : Option Nat × Db :=
  match validatePurge a with
  | none => (none, db)
  | some (cutoff, n) =>
      let victims := purgeVictims (fun r => some r.reservedAt) prio (min cutoff (clock - hours 24)) n
        db.admissionReservations.rows
      (some victims.length, { db with
        admissionReservations := db.admissionReservations.deleteWhere (· ∈ victims) })

/-- `purge_privacy_operations`; `none` is the exception. -/
def purgePrivacyOperations (clock : Timestamp) (prio : PrivacyOperation → Nat) (a : PurgeArgs)
    (db : Db) : Option Nat × Db :=
  match validatePurge a with
  | none => (none, db)
  | some (cutoff, n) =>
      let victims := purgeVictims (fun r => some r.appliedAt) prio (min cutoff (clock - days 30)) n
        db.privacyOperations.rows
      (some victims.length, { db with
        privacyOperations := db.privacyOperations.deleteWhere (· ∈ victims) })

/-- `retention_until` of a final event. -/
def OutboxEvent.retentionUntil (e : OutboxEvent) : Option Timestamp :=
  match e.delivery with
  | .completed _ _ t => some t
  | .deadLetter _ _ t => some t
  | _ => none

/-- `purge_outbox_events`; `none` is the exception. -/
def purgeOutboxEvents (clock : Timestamp) (prio : OutboxEvent → Nat) (a : PurgeArgs) (db : Db) :
    Option Nat × Db :=
  match validatePurge a with
  | none => (none, db)
  | some (cutoff, n) =>
      let victims := purgeVictims OutboxEvent.retentionUntil prio (min cutoff clock) n
        db.outboxEvents.rows
      (some victims.length, { db with
        outboxEvents := db.outboxEvents.deleteWhere fun e => decide (e.id ∈ victims.map (·.id)) })

end Katherine.Cloud
