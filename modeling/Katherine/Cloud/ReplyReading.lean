import Katherine.Cloud.Replies

/-!
# No answer of the ledger is turned down

A reply says something if it can be read at all: `says_of_body` finds what every reply of a
reachable state says, and `call_of_says` that the parser of the method returns just that. The one
needs the constraints of the job table, the other only the names of the fields.

At the end, what a caller learns from `has_tombstone`.
-/

namespace Katherine.Cloud.Replies

open Py Sql Pg Runs

/-! ## Reading what was delivered -/

section

variable {sent : Fields} {items : List (PyKey × PyVal)} (d : Delivered sent items)
include d

/-- Nothing is missing, and nothing is unknown. -/
theorem requireFields_sent {required optional : List PyStr}
    (hrequired : ∀ k ∈ required, ∃ f ∈ sent, f.1 = k ∧ f.2.isNull = false)
    (hknown : ∀ f ∈ sent, f.1 ∈ required ++ optional) : requireFields items required optional = .ok () := by
  refine if_pos ?_
  rw [Bool.and_eq_true, List.all_eq_true, List.all_eq_true]
  constructor
  · intro k hk
    obtain ⟨f, hf, rfl, hnull⟩ := hrequired k hk
    obtain ⟨x, hx, -⟩ := d.all f hf hnull
    rw [hasField, (dictGet_eq_some d.nodup).mpr hx]
    rfl
  · intro kv hkv
    obtain ⟨f, hf, hkey, -⟩ := d.only kv hkv
    rw [hkey]
    exact decide_eq_true (hknown f hf)

theorem requireText_sent {k s : PyStr} (h : (k, .val (.str s)) ∈ sent) : requireText items k = .ok s := by
  rw [requireText, d.get h nofun]

theorem requireInt_sent {k : PyStr} {n : Int} (h : (k, .val (.int n)) ∈ sent) : requireInt items k = .ok n := by
  rw [requireInt, d.get h nofun]

/-- A null that was left out is read as a null. -/
theorem optionalText_sent {k : PyStr} {s : Option PyStr} (h : (k, .val (nullable s)) ∈ sent)
    (honly : ∀ f ∈ sent, f.1 = k → f.2 = .val (nullable s)) : optionalText items k = .ok s := by
  cases s with
  | some s =>
      rw [optionalText, d.get h nofun]
      rfl
  | none =>
      cases hget : dictGet items k with
      | none => rw [optionalText, hget]
      | some v =>
          obtain ⟨f, hf, hkey, hshows⟩ := d.only _ ((dictGet_eq_some d.nodup).mp hget)
          injection hkey with hkey
          rw [honly f hf hkey.symm] at hshows
          obtain rfl : v = .none := hshows
          rw [optionalText, hget]

theorem optionalText_absent {k : PyStr} (h : ∀ f ∈ sent, f.1 ≠ k) : optionalText items k = .ok none := by
  rw [optionalText, d.get_absent h]

theorem requireMatch_sent {p : PyStr → Bool} {k s : PyStr} (h : (k, .val (.str s)) ∈ sent) (hp : p s = true) :
    requireMatch items p k = .ok s := by
  rw [requireMatch, requireText_sent d h]
  exact if_pos hp

theorem requireUuid_sent {k : PyStr} {id : Uuid} (h : (k, .val (.str id.text)) ∈ sent) :
    requireUuid items k = .ok id.text :=
  requireMatch_sent d h (matchUuidRe_iff.mpr (.inl id.ok))

theorem requireHex64_sent {k s : PyStr} (h : (k, .val (.str s)) ∈ sent) (hs : isSha256Hex s = true) :
    requireHex64 items k = .ok s :=
  requireMatch_sent d h (by rw [matchLine, hs]; rfl)

end

/-! ## Every parser reads what its procedure says -/

section

variable {text : Timestamp → PyStr} {items : List (PyKey × PyVal)}

theorem bind_ok {α β : Type} (a : α) (f : α → Parsed β) : ((Except.ok a : Parsed α) >>= f) = f a := (rfl)

/-- Without an error in it, the object goes on to the parser proper. -/
theorem no_error {sent : Fields} (d : Delivered sent items) (h : ∀ f ∈ sent, f.1 ≠ py "error") :
    hasField items (py "error") = false := by
  rw [hasField, d.get_absent h]
  rfl

theorem errorCodeText_injective : Function.Injective errorCodeText := by
  intro c c' h
  cases c <;> cases c' <;> first | rfl | simp [errorCodeText, py_inj] at h

/-- An error envelope is raised as the exception the method has for its code. -/
theorem raiseError_delivered {α : Type} (m : Method) {e : Envelope} (d : Delivered (errorFields e) items) :
    (raiseError items (m.conflictCode.map errorCodeText) : Parsed α) = .error (m.raises e) := by
  obtain ⟨inner, hget, dinner⟩ := d.get_obj (List.mem_singleton_self _)
  have hcode : requireText inner (py "code") = .ok (errorCodeText e.code) := requireText_sent dinner (by simp)
  have hmessage : requireText inner (py "message") = .ok (py e.message) := requireText_sent dinner (by simp)
  have houter : requireFields items [py "error"] [] = .ok () :=
    requireFields_sent d (by simp [errorFields, Field.isNull]) (by simp [errorFields])
  have hinner : requireFields inner [py "code", py "message"] [] = .ok () :=
    requireFields_sent dinner (by simp [Field.isNull]) (by simp)
  have hsame : some (errorCodeText e.code) = m.conflictCode.map errorCodeText ↔ m.conflictCode = some e.code := by
    rw [← Option.map_some, (Option.map_injective errorCodeText_injective).eq_iff, eq_comm]
  simp only [raiseError, parseErrorEnvelope, houter, hget, hinner, hcode, hmessage, bind_ok, requireMapping,
    Option.getD_some, pure_bind, hsame, Method.raises]
  split <;> rfl

theorem statusText_mem (s : JobStatus) : statusText s ∈ statuses := by
  cases s <;> simp [statusText, statuses]

theorem requireOneOf_ok {allowed : List PyStr} {value : PyStr} (h : value ∈ allowed) :
    requireOneOf allowed value = .ok () := if_pos h

theorem created_read {jobId : Uuid} (d : Delivered (fields text (.created jobId)) items) :
    parseRequestResult (.dict items) = .ok
      { status := py "created", jobId := jobId.text, jobStatus := py "pending", dbPurgedAt := none,
        completedAt := none } := by
  have herror := no_error d (by simp [fields, py_inj])
  have hfields : requireFields items [py "status", py "job_id", py "job_status"]
      [py "db_purged_at", py "completed_at"] = .ok () :=
    requireFields_sent d (by simp [fields, Field.isNull]) (by simp [fields])
  have hstatus : requireText items (py "status") = .ok (py "created") := requireText_sent d (by simp [fields])
  have hjob : requireText items (py "job_status") = .ok (py "pending") := requireText_sent d (by simp [fields])
  have hid : requireUuid items (py "job_id") = .ok jobId.text := requireUuid_sent d (by simp [fields])
  have hpurged : optionalText items (py "db_purged_at") = .ok none :=
    optionalText_absent d (by simp [fields, py_inj])
  have hdone : optionalText items (py "completed_at") = .ok none :=
    optionalText_absent d (by simp [fields, py_inj])
  simp only [parseRequestResult, requireMapping, bind_ok, herror, hfields, hstatus, hjob, hid, hpurged, hdone]
  rfl

theorem replay_read {j : Job} (d : Delivered (fields text (.replay j)) items) :
    parseRequestResult (.dict items) = .ok
      { status := py "replay", jobId := j.jobId.text, jobStatus := statusText j.status,
        dbPurgedAt := j.dbPurgedAt.map text, completedAt := j.completedAt.map text } := by
  have herror := no_error d (by simp [fields, py_inj])
  have hfields : requireFields items [py "status", py "job_id", py "job_status"]
      [py "db_purged_at", py "completed_at"] = .ok () :=
    requireFields_sent d (by simp [fields, Field.isNull]) (by simp [fields])
  have hstatus : requireText items (py "status") = .ok (py "replay") := requireText_sent d (by simp [fields])
  have hjob : requireText items (py "job_status") = .ok (statusText j.status) :=
    requireText_sent d (by simp [fields])
  have hid : requireUuid items (py "job_id") = .ok j.jobId.text := requireUuid_sent d (by simp [fields])
  have hpurged : optionalText items (py "db_purged_at") = .ok (j.dbPurgedAt.map text) :=
    optionalText_sent d (by simp [fields]) (by simp [fields, py_inj])
  have hdone : optionalText items (py "completed_at") = .ok (j.completedAt.map text) :=
    optionalText_sent d (by simp [fields]) (by simp [fields, py_inj])
  simp only [parseRequestResult, requireMapping, bind_ok, herror, hfields, hstatus, hjob, hid, hpurged, hdone,
    requireOneOf_ok (statusText_mem _)]
  rfl

theorem notFound_read (d : Delivered (fields text .notFound) items) :
    parseAcquiredJob (.dict items) = .ok none := by
  have herror := no_error d (by simp [fields, py_inj])
  have hfound : dictGet items (py "found") = some (.bool false) := d.get (by simp [fields]) nofun
  have hfields : requireFields items [py "found"] [] = .ok () :=
    requireFields_sent d (by simp [fields, Field.isNull]) (by simp [fields])
  simp only [parseAcquiredJob, requireMapping, bind_ok, herror, hfound, hfields]
  rfl

/-- Every column the parser asks for is there: the row satisfies its constraints, and is leased. -/
theorem leased_read {j : Job} {user owner : PyStr} {expires : Timestamp} (hj : j.Checked)
    (hstatus : j.status = .processing) (huser : j.userId = some user) (howner : j.leaseOwner = some owner)
    (hexpires : j.leaseExpiresAt = some expires) (d : Delivered (fields text (.leased j)) items) :
    parseAcquiredJob (.dict items) = .ok (some
      { jobId := j.jobId.text, userId := user, userRefHmac := j.userRefHmac,
        operationId := j.operationId.text, status := py "processing", leaseOwner := owner,
        leaseExpiresAt := text expires, attempts := j.attempts, dbPurgedAt := j.dbPurgedAt.map text,
        intentFingerprint := j.intentFingerprint }) := by
  simp only [fields, hstatus, huser, howner, hexpires, nullable, Option.map_some, statusText] at d
  have herror := no_error d (by simp [py_inj])
  have hfound : dictGet items (py "found") = some (.bool true) := d.get (by simp) nofun
  have hfields : requireFields items
      [py "found", py "job_id", py "user_id", py "user_ref_hmac_sha256", py "operation_id", py "status",
        py "lease_owner", py "lease_expires_at", py "attempts", py "intent_fingerprint_sha256"]
      [py "db_purged_at"] = .ok () :=
    requireFields_sent d (by simp [Field.isNull]) (by simp)
  have huser' : requireText items (py "user_id") = .ok user := requireText_sent d (by simp)
  have hstatus' : requireText items (py "status") = .ok (py "processing") := requireText_sent d (by simp)
  have hid : requireUuid items (py "job_id") = .ok j.jobId.text := requireUuid_sent d (by simp)
  have href : requireHex64 items (py "user_ref_hmac_sha256") = .ok j.userRefHmac :=
    requireHex64_sent d (by simp) hj.ref
  have hop : requireUuid items (py "operation_id") = .ok j.operationId.text := requireUuid_sent d (by simp)
  have howner' : requireText items (py "lease_owner") = .ok owner := requireText_sent d (by simp)
  have hexpires' : requireText items (py "lease_expires_at") = .ok (text expires) := requireText_sent d (by simp)
  have hattempts : requireInt items (py "attempts") = .ok j.attempts := requireInt_sent d (by simp)
  have hpurged : optionalText items (py "db_purged_at") = .ok (j.dbPurgedAt.map text) :=
    optionalText_sent d (by simp [nullable]) (by simp [py_inj, nullable])
  have hfingerprint : requireHex64 items (py "intent_fingerprint_sha256") = .ok j.intentFingerprint :=
    requireHex64_sent d (by simp) hj.fingerprint
  simp only [parseAcquiredJob, requireMapping, bind_ok, herror, hfound, hfields, huser', hstatus', hid, href,
    hop, howner', hexpires', hattempts, hpurged, hfingerprint]
  rfl

theorem counts_read {counts : PurgeCounts}
    (d : Delivered ((countFields counts).map fun m => (m.1, .val m.2)) items) :
    requireFields items expectedCounts [] = .ok () ∧
    (expectedCounts.mapM fun key => do return (key, ← requireInt items key) : Parsed (List (PyStr × Int))) =
      .ok ((countList counts).map fun m => (m.1, (m.2 : Int))) := by
  refine ⟨requireFields_sent d (by simp [expectedCounts, countFields, countList, Field.isNull])
    (by simp [expectedCounts, countFields, countList]), ?_⟩
  have hkeys : expectedCounts = (countList counts).map Prod.fst := rfl
  rw [hkeys, List.mapM_map]
  refine Context.mapM_eq_map fun m hm => ?_
  have hint : requireInt items m.1 = .ok (m.2 : Int) :=
    requireInt_sent d (List.mem_map_of_mem (List.mem_map_of_mem hm))
  rw [Function.comp_apply, hint]
  rfl

theorem purge_read {status : PyStr} {jobId : Uuid} {at_ : Timestamp} {counts : PurgeCounts}
    (hstatus : status ∈ [py "purged", py "already_purged"])
    (d : Delivered (purgeFields text status jobId at_ counts) items) :
    parsePurgeResult (.dict items) = .ok
      { status, jobId := jobId.text, dbPurgedAt := text at_,
        counts := (countList counts).map fun m => (m.1, (m.2 : Int)) } := by
  have herror := no_error d (by simp [purgeFields, py_inj])
  have hfields : requireFields items [py "status", py "job_id", py "db_purged_at", py "counts"] [] = .ok () :=
    requireFields_sent d (by simp [purgeFields, Field.isNull]) (by simp [purgeFields])
  have hstatus' : requireText items (py "status") = .ok status := requireText_sent d (by simp [purgeFields])
  have hid : requireUuid items (py "job_id") = .ok jobId.text := requireUuid_sent d (by simp [purgeFields])
  have hat : requireText items (py "db_purged_at") = .ok (text at_) := requireText_sent d (by simp [purgeFields])
  obtain ⟨inner, hget, dinner⟩ : ∃ inner, dictGet items (py "counts") = some (.dict inner) ∧
      Delivered ((countFields counts).map fun m => (m.1, .val m.2)) inner :=
    d.get_obj (by simp [purgeFields])
  obtain ⟨hinner, hcounts⟩ := counts_read dinner
  simp only [parsePurgeResult, requireMapping, bind_ok, herror, hfields, hstatus', hid, hat, hget, hinner,
    hcounts, requireOneOf_ok hstatus, Option.getD_some]
  rfl

theorem failed_read {jobId : Uuid} {code : PyStr} {next : Option Timestamp} (hcode : isCode code = true)
    (d : Delivered (fields text (.failed jobId code next)) items) :
    parseFailureResult (.dict items) = .ok
      { jobId := jobId.text, errorCode := code, nextAttemptAt := next.map text } := by
  have herror := no_error d (by simp [fields, py_inj])
  have hfields : requireFields items [py "status", py "job_id", py "error_code"] [py "next_attempt_at"] =
      .ok () := requireFields_sent d (by simp [fields, Field.isNull]) (by simp [fields])
  have hstatus : requireText items (py "status") = .ok (py "failed") := requireText_sent d (by simp [fields])
  have hid : requireUuid items (py "job_id") = .ok jobId.text := requireUuid_sent d (by simp [fields])
  have herrorCode : requireMatch items (matchLine isCode) (py "error_code") = .ok code :=
    requireMatch_sent d (by simp [fields]) (by rw [matchLine, hcode]; rfl)
  have hnext : optionalText items (py "next_attempt_at") = .ok (next.map text) :=
    optionalText_sent d (by simp [fields]) (by simp [fields, py_inj])
  simp only [parseFailureResult, requireMapping, bind_ok, herror, hfields, hstatus, hid, herrorCode, hnext,
    requireOneOf_ok (List.mem_singleton_self _)]
  rfl

theorem fieldIs_self {sent : Fields} (d : Delivered sent items) {k s : PyStr}
    (h : (k, .val (.str s)) ∈ sent) : fieldIs items k s = true := by
  rw [fieldIs, d.get h nofun]
  exact decide_eq_true rfl

theorem fieldIs_other {sent : Fields} (d : Delivered sent items) {k s s' : PyStr}
    (h : (k, .val (.str s)) ∈ sent) (hne : s ≠ s') : fieldIs items k s' = false := by
  rw [fieldIs, d.get h nofun]
  exact decide_eq_false hne

theorem retryScheduled_read {jobId : Uuid} {next : Timestamp}
    (d : Delivered (fields text (.retryScheduled jobId next)) items) :
    parseRetryResult (.dict items) = .ok
      { status := py "retry_scheduled", jobId := jobId.text, nextAttemptAt := some (text next) } := by
  have herror := no_error d (by simp [fields, py_inj])
  have hstatus : fieldIs items (py "status") (py "retry_scheduled") = true :=
    fieldIs_self d (by simp [fields])
  have hfields : requireFields items [py "status", py "job_id", py "next_attempt_at"] [] = .ok () :=
    requireFields_sent d (by simp [fields, Field.isNull]) (by simp [fields])
  have hid : requireUuid items (py "job_id") = .ok jobId.text := requireUuid_sent d (by simp [fields])
  have hnext : requireText items (py "next_attempt_at") = .ok (text next) := requireText_sent d (by simp [fields])
  simp only [parseRetryResult, requireMapping, bind_ok, herror, hstatus, hfields, hid, hnext]
  rfl

theorem exhausted_read {jobId : Uuid}
    (d : Delivered (fields text (.failed jobId (py "attempts_exhausted") none)) items) :
    parseRetryResult (.dict items) = .ok
      { status := py "failed", jobId := jobId.text, nextAttemptAt := none } := by
  have herror := no_error d (by simp [fields, py_inj])
  have hsent : (py "status", .val (.str (py "failed"))) ∈
      fields text (.failed jobId (py "attempts_exhausted") none) := by simp [fields]
  have hnot : fieldIs items (py "status") (py "retry_scheduled") = false :=
    fieldIs_other d hsent (by simp [py_inj])
  have hstatus : fieldIs items (py "status") (py "failed") = true := fieldIs_self d hsent
  have hcode : fieldIs items (py "error_code") (py "attempts_exhausted") = true :=
    fieldIs_self d (by simp [fields])
  have hfields : requireFields items [py "status", py "job_id", py "error_code"] [py "next_attempt_at"] =
      .ok () := requireFields_sent d (by simp [fields, Field.isNull]) (by simp [fields])
  have hid : requireUuid items (py "job_id") = .ok jobId.text := requireUuid_sent d (by simp [fields])
  simp only [parseRetryResult, requireMapping, bind_ok, herror, hnot, hstatus, hcode, hfields, hid]
  rfl

theorem completed_read {jobId : Uuid} {completedAt purgedAt : Timestamp}
    (d : Delivered (fields text (.completed jobId completedAt (some purgedAt))) items) :
    parseFinalizeResult (.dict items) = .ok
      { jobId := jobId.text, completedAt := text completedAt, dbPurgedAt := text purgedAt } := by
  simp only [fields, Option.map_some, nullable] at d
  have herror := no_error d (by simp [py_inj])
  have hfields : requireFields items [py "status", py "job_id", py "completed_at", py "db_purged_at"] [] =
      .ok () := requireFields_sent d (by simp [Field.isNull]) (by simp)
  have hstatus : requireText items (py "status") = .ok (py "completed") := requireText_sent d (by simp)
  have hid : requireUuid items (py "job_id") = .ok jobId.text := requireUuid_sent d (by simp)
  have hdone : requireText items (py "completed_at") = .ok (text completedAt) := requireText_sent d (by simp)
  have hpurged : requireText items (py "db_purged_at") = .ok (text purgedAt) := requireText_sent d (by simp)
  simp only [parseFinalizeResult, requireMapping, bind_ok, herror, hfields, hstatus, hid, hdone, hpurged,
    requireOneOf_ok (List.mem_singleton_self _)]
  rfl

theorem error_read (m : Method) {e : Envelope} (d : Delivered (errorFields e) items) :
    m.parse (.dict items) = .error (m.raises e) := by
  have herror : hasField items (py "error") = true := by
    obtain ⟨inner, hget, -⟩ := d.get_obj (List.mem_singleton_self _)
    rw [hasField, hget]
    rfl
  have hraise : ∀ {α : Type}, (raiseError items (m.conflictCode.map errorCodeText) : Parsed α) =
      .error (m.raises e) := raiseError_delivered m d
  cases m with
  | request =>
      rw [Method.parse, parseRequestResult, requireMapping, bind_ok, if_pos herror]
      exact congrArg (Except.map Answer.request) hraise
  | acquireLease =>
      rw [Method.parse, parseAcquiredJob, requireMapping, bind_ok, if_pos herror]
      exact congrArg (Except.map Answer.acquired) hraise
  | purge =>
      rw [Method.parse, parsePurgeResult, requireMapping, bind_ok, if_pos herror]
      exact congrArg (Except.map Answer.purged) hraise
  | recordFailure =>
      rw [Method.parse, parseFailureResult, requireMapping, bind_ok, if_pos herror]
      exact congrArg (Except.map Answer.failed) hraise
  | recordRetry =>
      rw [Method.parse, parseRetryResult, requireMapping, bind_ok, if_pos herror]
      exact congrArg (Except.map Answer.retried) hraise
  | finalize =>
      rw [Method.parse, parseFinalizeResult, requireMapping, bind_ok, if_pos herror]
      exact congrArg (Except.map Answer.finalized) hraise

/-- **A reply that says something is read as what it says.** -/
theorem call_of_says {m : Method} {r : JobReply} {answer : Parsed Answer} (h : Says text m r answer)
    {response : Response} (ha : Arrives text r response) : m.call response = answer := by
  cases ha with
  | raised => cases h; rfl
  | object hr d =>
      cases h with
      | raised => exact absurd rfl hr
      | error e => exact error_read m d
      | created => exact congrArg (Except.map Answer.request) (created_read d)
      | replay => exact congrArg (Except.map Answer.request) (replay_read d)
      | notFound => exact congrArg (Except.map Answer.acquired) (notFound_read d)
      | leased hj hstatus huser howner hexpires =>
          exact congrArg (Except.map Answer.acquired) (leased_read hj hstatus huser howner hexpires d)
      | purged => exact congrArg (Except.map Answer.purged) (purge_read (by simp) d)
      | alreadyPurged => exact congrArg (Except.map Answer.purged) (purge_read (by simp) d)
      | failed hcode => exact congrArg (Except.map Answer.failed) (failed_read hcode d)
      | retryScheduled => exact congrArg (Except.map Answer.retried) (retryScheduled_read d)
      | exhausted => exact congrArg (Except.map Answer.retried) (exhausted_read d)
      | completed => exact congrArg (Except.map Answer.finalized) (completed_read d)

/-! ## Every reply says something -/

/-- The scan ends with nothing or with a job it claims. -/
theorem acquireScan_reply {vNow : Timestamp} {worker : PyStr} {lease : Int} {r : JobReply} {js : List Job}
    {db db' : Db} (h : acquireScan vNow worker lease js db = .ok (r, db')) :
    r = .notFound ∨ ∃ j ∈ js, ¬ (j.status = .processing ∧ maxAttempts ≤ j.attempts) ∧
      r = .leased (j.claimed vNow worker lease) := by
  induction js generalizing db with
  | nil =>
      cases h
      exact .inl rfl
  | cons j js ih =>
      unfold acquireScan at h
      split at h
      · obtain ⟨db₁, -, hrest⟩ := except_bind_ok.mp h
        rcases ih hrest with hnone | ⟨k, hk, hroom, hr⟩
        · exact .inl hnone
        · exact .inr ⟨k, List.mem_cons_of_mem _ hk, hroom, hr⟩
      · rename_i hroom
        obtain ⟨db₁, -, hout⟩ := except_bind_ok.mp h
        cases hout
        exact .inr ⟨j, List.mem_cons_self, hroom, rfl⟩

theorem says_leased {db : Db} (hdb : db.JobsOk) {vNow : Timestamp} {locked : Uuid → Bool} {prio : Job → Nat}
    {a : AcquireArgs} {r : JobReply} {db' : Db}
    (h : acquireLeaseBody vNow locked prio a db = .ok (r, db')) :
    ∃ answer, Says text .acquireLease r answer := by
  unfold acquireLeaseBody at h
  split at h
  · cases h
    exact ⟨_, .error _ _⟩
  · cases h
    exact ⟨_, .error _ _⟩
  · cases h
    exact ⟨_, .error _ _⟩
  · rename_i worker lease _ hworker _ _
    rcases acquireScan_reply h with rfl | ⟨j, hj, hroom, rfl⟩
    · exact ⟨_, .notFound⟩
    · -- the row was checked, and claiming it keeps it so
      obtain ⟨hrow, he⟩ := (scan_rows db vNow locked prio).1 j hj
      have hchecked : (j.claimed vNow worker lease).Checked := (hdb.checked j hrow).claimed he
        (attempts_of_eligible he hroom) (Option.filter_eq_some_iff.mp hworker).2
      have hactive : (j.claimed vNow worker lease).status ≠ .completed := nofun
      obtain ⟨user, huser⟩ := Option.isSome_iff_exists.mp (hchecked.userId_isSome hactive)
      exact ⟨_, .leased hchecked rfl huser rfl rfl⟩

/-- **What a procedure returns says something to the method that called it**, if the rows satisfy
their constraints. -/
theorem says_of_body {x : Times × Call} {db db' : Db} {m : Method} {r : JobReply} (hdb : db.JobsOk)
    (hm : methodOf x.2 = some m) (h : ledgerBody x db = some (.ok (r, db'))) :
    ∃ answer, Says text m r answer := by
  obtain ⟨t, call⟩ := x
  cases call with
  | requestDeletion jobId a =>
      cases hm
      replace h : requestBody t.clock jobId a db = _ := Option.some.inj h
      unfold requestBody at h
      split at h
      · cases h
        exact ⟨_, .error _ _⟩
      · cases h
      · split at h
        · split at h
          · cases h
            exact ⟨_, .replay _⟩
          · cases h
            exact ⟨_, .error _ _⟩
        · split at h
          · cases h
          · obtain ⟨db₁, -, hout⟩ := except_map_ok.mp h
            cases hout
            exact ⟨_, .created jobId⟩
  | acquireLease locked prio a =>
      cases hm
      exact says_leased hdb (Option.some.inj h)
  | purge a =>
      cases hm
      replace h : purgeBody t.vNow t.clock a db = _ := Option.some.inj h
      unfold purgeBody at h
      split at h
      · obtain ⟨j, -, hrest⟩ := except_bind_ok.mp h
        split at hrest
        · cases hrest
          exact ⟨_, .error _ _⟩
        · split at hrest
          · cases hrest
            exact ⟨_, .alreadyPurged _ _⟩
          · obtain ⟨db₁, -, hout⟩ := except_bind_ok.mp hrest
            cases hout
            exact ⟨_, .purged _ _ _⟩
      · cases h
        exact ⟨_, .error _ _⟩
  | recordFailure jobId worker code =>
      cases hm
      replace h : recordFailureBody t.vNow t.clock jobId worker code db = _ := Option.some.inj h
      unfold recordFailureBody at h
      split at h
      · cases h
        exact ⟨_, .error _ _⟩
      · rename_i errorCode hcode
        obtain ⟨j, -, hrest⟩ := except_bind_ok.mp h
        obtain ⟨db₁, -, hout⟩ := except_bind_ok.mp hrest
        cases hout
        exact ⟨_, .failed (Option.filter_eq_some_iff.mp hcode).2⟩
  | recordRetry jobId worker =>
      cases hm
      obtain ⟨j, -, hrest⟩ := except_bind_ok.mp (Option.some.inj h)
      dsimp only at hrest
      split at hrest
      · obtain ⟨db₁, -, hout⟩ := except_bind_ok.mp hrest
        cases hout
        exact ⟨_, .exhausted _⟩
      · obtain ⟨db₁, -, hout⟩ := except_bind_ok.mp hrest
        cases hout
        exact ⟨_, .retryScheduled _ _⟩
  | finalize jobId worker =>
      cases hm
      obtain ⟨j, -, hrest⟩ := except_bind_ok.mp (Option.some.inj h)
      split at hrest
      · cases hrest
        exact ⟨_, .error _ _⟩
      · rename_i hpurged
        obtain ⟨db₁, -, hout⟩ := except_bind_ok.mp hrest
        cases hout
        obtain ⟨purgedAt, hat⟩ := Option.ne_none_iff_exists'.mp hpurged
        rw [hat]
        exact ⟨_, .completed _ _ _⟩
  | _ => cases hm

end

/-- **No answer of the ledger is turned down.** In every run of the database from a state whose job
rows satisfy their constraints, whatever calls there are in it: what a ledger procedure answers
means something to the repository method that called it, and however its object arrives, fields in
any order and nulls there or left out, the method returns that meaning. -/
theorem answers_are_read {sha256 : PyStr → PyStr} (text : Timestamp → PyStr) {s s' : Db}
    {es : List (Event (exec sha256))} (hrun : Run s es s') (hs : s.JobsOk) :
    ∀ e ∈ es, ∀ m r, methodOf e.input.2 = some m → e.reply = .job r →
      ∃ answer, Says text m r answer ∧ ∀ response, Arrives text r response → m.call response = answer := by
  intro e he m r hm hr
  have hbefore : e.before.JobsOk := (hrun.invariant hs fun e _ => jobsOk_kept e).2 e he |>.1
  have hsays : ∃ answer, Says text m r answer := by
    by_cases hraised : r = .raised
    · subst hraised
      exact ⟨_, .raised m⟩
    · exact says_of_body hbefore hm (ledgerBody_of_event hr hraised)
  obtain ⟨answer, hsays⟩ := hsays
  exact ⟨answer, hsays, fun _ ha => call_of_says hsays ha⟩

def leasedJob : Reply → Option Job
  | .job (.leased j) => some j
  | _ => none

theorem answers_are_read_sample : ∃ j answer, firstLease.reply = .job (.leased j) ∧
    Says intText .acquireLease (.leased j) answer ∧
    ∀ response, Arrives intText (.leased j) response → Method.acquireLease.call response = answer := by
  have hleased : (leasedJob firstLease.reply).isSome = true := by decide +kernel
  obtain ⟨j, hj⟩ : ∃ j, firstLease.reply = .job (.leased j) := by
    generalize firstLease.reply = reply at hleased
    cases reply with
    | job r =>
        cases r with
        | leased j => exact ⟨j, rfl⟩
        | _ => cases hleased
    | _ => cases hleased
  obtain ⟨answer, hsays, hread⟩ := answers_are_read intText firstJob_run empty_jobsOk firstLease
    (by simp) .acquireLease _ rfl hj
  exact ⟨j, answer, hj, hsays, hread⟩

/-! ## Ways to arrive -/

theorem fields_distinct (text : Timestamp → PyStr) (r : JobReply) : Distinct (fields text r) := by
  constructor
  · cases r <;> simp [fields, purgeFields, errorFields, py_inj]
  · cases r <;> simp [fields, purgeFields, errorFields, countFields, countList, py_inj]

/-- The object arrives as it is, and it arrives without its nulls. -/
theorem arrives_whole (text : Timestamp → PyStr) {r : JobReply} (hr : r ≠ .raised) :
    Arrives text r (.data (.dict ((fields text r).map fun f => (.str f.1, f.2.value)))) ∧
    Arrives text r (.data (.dict (((fields text r).filter (!·.2.isNull)).map fun f => (.str f.1, f.2.value)))) := by
  refine ⟨.object hr ?_, .object hr ?_⟩
  · have hall := delivered_of_kept (fields_distinct text r) (fun _ => true) fun _ _ _ => rfl
    rwa [List.filter_true] at hall
  · exact delivered_of_kept (fields_distinct text r) (fun f => !f.2.isNull) fun f _ hf => by rw [hf]; rfl

/-! ## Tombstones -/

/-- `ORDER BY requested_at DESC`; `prio` stands for the order among equal times. -/
def newerLe (prio : Job → Nat) (a b : Job) : Prop :=
  b.requestedAt < a.requestedAt ∨ a.requestedAt = b.requestedAt ∧ prio a ≤ prio b

instance (prio : Job → Nat) : DecidableRel (newerLe prio) := fun a b => by
  unfold newerLe
  infer_instance

/-- `account_deletion_has_tombstone`: the object it returns. -/
def hasTombstone (prio : Job → Nat) (userRefHmac : Option PyStr) (db : Db) : Fields :=
  match userRefHmac.filter isSha256Hex with
  | none =>
      errorFields { code := .validationFailed,
                    message := "user_ref_hmac_sha256 must be 64 lowercase hex characters" }
  | some ref =>
      match ((db.jobs.rows.filter (·.userRefHmac = ref)).insertionSort (newerLe prio)).head? with
      | none => [(py "exists", .val (.bool false)), (py "status", .val .none)]
      | some j => [(py "exists", .val (.bool true)), (py "status", .val (.str (statusText j.status)))]

/-- The job `id` belongs to this reference. -/
def Marks (id : Uuid) (ref : PyStr) (db : Db) : Prop :=
  ∃ j, db.jobs.get? id = some j ∧ j.userRefHmac = ref

theorem marks_kept {sha256 : PyStr → PyStr} {id : Uuid} {ref : PyStr} (e : Event (exec sha256))
    (h : Marks id ref e.before) : Marks id ref e.after ∨ Forgotten id e := by
  obtain ⟨j, hj, rfl⟩ := h
  have hm := move_of_event e id
  rw [hj] at hm
  generalize hafter : e.after.jobs.get? id = j' at hm
  generalize e.input = x at hm
  generalize e.reply = reply at hm
  cases hm with
  | same => exact .inl ⟨j, hafter, rfl⟩
  | terminalized => exact .inl ⟨_, hafter, rfl⟩
  | claimed => exact .inl ⟨_, hafter, rfl⟩
  | purged => exact .inl ⟨_, hafter, rfl⟩
  | released => exact .inl ⟨_, hafter, rfl⟩
  | finalized => exact .inl ⟨_, hafter, rfl⟩
  | removed hdone => exact .inr ⟨j, hj, hdone, hafter⟩

/-- A job that is there is a tombstone to the method that asks. -/
theorem tombstone_of_marks {id : Uuid} {ref : PyStr} {db : Db} (h : Marks id ref db)
    (href : isSha256Hex ref = true) (prio : Job → Nat) : ∃ j ∈ db.jobs.rows, j.userRefHmac = ref ∧
      ∀ items, Delivered (hasTombstone prio (some ref) db) items →
        parseTombstoneResult (.dict items) = .ok { present := true, status := some (statusText j.status) } := by
  obtain ⟨k, hk, hkref⟩ := h
  have hsome : (db.jobs.rows.filter (·.userRefHmac = ref)).insertionSort (newerLe prio) ≠ [] := by
    have hmem : k ∈ db.jobs.rows.filter (·.userRefHmac = ref) :=
      List.mem_filter.mpr ⟨Table.get?_mem hk, decide_eq_true hkref⟩
    exact List.ne_nil_of_mem ((List.mem_insertionSort _).mpr hmem)
  obtain ⟨j, js, hjs⟩ := List.exists_cons_of_ne_nil hsome
  have hj : j ∈ db.jobs.rows.filter (·.userRefHmac = ref) := by
    rw [← List.mem_insertionSort (newerLe prio), hjs]
    exact List.mem_cons_self
  have hsent : hasTombstone prio (some ref) db =
      [(py "exists", .val (.bool true)), (py "status", .val (.str (statusText j.status)))] := by
    simp only [hasTombstone, Option.filter_some, href, if_true, hjs, List.head?_cons]
  refine ⟨j, (List.mem_filter.mp hj).1, of_decide_eq_true (List.mem_filter.mp hj).2, ?_⟩
  rw [hsent]
  intro items d
  have herror := no_error d (by simp [py_inj])
  have hfields : requireFields items [py "exists"] [py "status"] = .ok () :=
    requireFields_sent d (by simp [Field.isNull]) (by simp)
  have hexists : dictGet items (py "exists") = some (.bool true) := d.get (by simp) nofun
  have hstatus : optionalText items (py "status") = .ok (some (statusText j.status)) :=
    optionalText_sent d (by simp [nullable]) (by simp [py_inj, nullable])
  have hknown : (some (statusText j.status)).all (· ∈ statuses) = true := decide_eq_true (statusText_mem _)
  simp only [parseTombstoneResult, requireMapping, bind_ok, herror, hfields, hexists, hstatus, hknown]
  rfl

/-- The row that answers a request for a deletion. -/
def Answers (id : Uuid) : JobReply → Prop
  | .created jobId => jobId = id
  | .replay j => j.jobId = id
  | _ => False

/-- The job a request is answered with belongs to the reference of the request. -/
theorem marks_of_request {clock : Timestamp} {jobId id : Uuid} {a : DeletionRequest} {ref : PyStr}
    {db db' : Db} {r : JobReply} (h : requestBody clock jobId a db = .ok (r, db'))
    (href : a.userRefHmac = some ref) (hr : Answers id r) : isSha256Hex ref = true ∧ Marks id ref db' := by
  unfold requestBody at h
  split at h
  · cases h
    exact absurd hr (by simp [Answers])
  · cases h
  · rename_i userId ref' operationId fingerprint hv
    obtain ⟨-, hhex, -⟩ := validateDeletionRequest_ok hv
    obtain rfl : ref' = ref := by
      unfold validateDeletionRequest at hv
      simp only [except_bind_ok] at hv
      obtain ⟨_, -, x, hx, _, -, _, -, hv⟩ := hv
      cases hv
      rw [href] at hx
      unfold given at hx
      split at hx
      · rename_i hfilter
        cases hx
        exact (Option.some.inj (Option.filter_eq_some_iff.mp hfilter).1).symm
      · cases hx
    refine ⟨hhex, ?_⟩
    split at h
    · rename_i j hfind
      have hj := List.mem_of_find?_eq_some hfind
      have hkey := List.find?_some hfind
      rw [Bool.and_eq_true, decide_eq_true_eq] at hkey
      split at h
      · cases h
        obtain rfl : j.jobId = id := hr
        exact ⟨j, Table.get?_of_mem hj, hkey.1⟩
      · cases h
        exact absurd hr (by simp [Answers])
    · split at h
      · cases h
      · obtain ⟨db₁, hw, hout⟩ := except_map_ok.mp h
        cases hout
        obtain rfl : jobId = id := hr
        obtain ⟨-, rfl⟩ := writeJob_ok hw
        exact ⟨_, by rw [Table.get?_put, if_pos rfl], rfl⟩

/-- **A requested deletion leaves a tombstone.** Once `account_deletion_request` has answered with a
job, `has_tombstone` of that reference says at every later time that there is one, with the status
of a job of that reference, until the retention removes the row of that job, which is completed by
then. -/
theorem request_leaves_tombstone {sha256 : PyStr → PyStr} {s s' : Db} {es post : List (Event (exec sha256))}
    {pre : List (Event (exec sha256))} {e : Event (exec sha256)} {t : Times} {jobId id : Uuid}
    {a : DeletionRequest} {ref : PyStr} {r : JobReply} (hrun : Run s es s') (hes : es = pre ++ e :: post)
    (hcall : e.input = (t, .requestDeletion jobId a)) (href : a.userRefHmac = some ref)
    (hreply : e.reply = .job r) (hr : Answers id r) (prio : Job → Nat) :
    (∃ j ∈ s'.jobs.rows, j.userRefHmac = ref ∧
      ∀ items, Delivered (hasTombstone prio (some ref) s') items →
        parseTombstoneResult (.dict items) = .ok { present := true, status := some (statusText j.status) }) ∨
    ∃ e' ∈ post, Forgotten id e' := by
  subst hes
  obtain ⟨m, -, htail⟩ := hrun.split
  obtain ⟨-, hpost⟩ := htail.cons_inv
  have hraised : r ≠ .raised := by
    rintro rfl
    exact hr
  have hbody := ledgerBody_of_event hreply hraised
  rw [hcall] at hbody
  obtain ⟨hhex, hmarks⟩ := marks_of_request (Option.some.inj hbody) href hr
  exact (hpost.persists hmarks fun e' _ => marks_kept e').imp_left fun h => tombstone_of_marks h hhex prio

theorem request_leaves_tombstone_sample : ∃ j ∈ firstFinalize.after.jobs.rows,
    j.userRefHmac = List.replicate 64 (cp 'a') ∧
    ∀ items, Delivered (hasTombstone (fun _ => 0) (some (List.replicate 64 (cp 'a'))) firstFinalize.after) items →
      parseTombstoneResult (.dict items) = .ok { present := true, status := some (statusText j.status) } := by
  have hes : [firstRequest, firstLease, firstPurge, firstFinalize] =
      [] ++ firstRequest :: [firstLease, firstPurge, firstFinalize] := rfl
  have hreply : firstRequest.reply = .job (.created jobOne) := rfl
  have hanswers : Answers jobOne (.created jobOne) := rfl
  have hthere : (firstLease.after.jobs.get? jobOne).isSome = true ∧
      (firstPurge.after.jobs.get? jobOne).isSome = true ∧
      (firstFinalize.after.jobs.get? jobOne).isSome = true := by decide +kernel
  refine (request_leaves_tombstone firstJob_run hes rfl rfl hreply hanswers fun _ => 0).resolve_right ?_
  rintro ⟨e', he', j, -, -, hgone⟩
  simp only [List.mem_cons, List.not_mem_nil, or_false] at he'
  rcases he' with rfl | rfl | rfl
  · rw [hgone] at hthere
    exact Bool.false_ne_true hthere.1
  · rw [hgone] at hthere
    exact Bool.false_ne_true hthere.2.1
  · rw [hgone] at hthere
    exact Bool.false_ne_true hthere.2.2

end Katherine.Cloud.Replies
