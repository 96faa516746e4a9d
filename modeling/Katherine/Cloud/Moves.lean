import Katherine.Cloud.Calls

/-!
# Moves of account deletion jobs

`Move` lists what one call can do to one row of the job table, and `move_of_event` says
that nothing else happens. The CHECK constraints are here too, as a structure, with one
lemma for each kind of write.

`account_deletion_acquire_lease` may move many rows in one call: expired leases at the
ceiling are terminalized on the way to the job that is claimed. Seen from one row this is
one move, because the scan meets a row once.
-/

namespace Katherine.Cloud

open Py Sql Pg Runs

/-! ## The constraints -/

/-- `Job.checks`, one field for each constraint. -/
structure Job.Checked (j : Job) : Prop where
  userId : j.userId.all isUserId = true
  ref : isSha256Hex j.userRefHmac = true
  fingerprint : isSha256Hex j.intentFingerprint = true
  attempts : 0 ≤ j.attempts ∧ j.attempts ≤ maxAttempts
  owner : j.leaseOwner.all (isToken 64) = true
  pair : j.leaseOwner.isSome = j.leaseExpiresAt.isSome
  lease : if j.status = .processing then j.leaseOwner.isSome ∧ j.leaseExpiresAt.isSome
    else j.leaseOwner = none ∧ j.leaseExpiresAt = none
  identity : j.status = .completed ↔ j.userId = none
  purged : j.status = .completed → j.dbPurgedAt.isSome
  completedAt : j.status = .completed ↔ j.completedAt.isSome
  scheduled : j.status = .pending → j.nextAttemptAt.isSome
  errorCode : j.errorCode.all isCode = true
  failed : j.status = .failed → j.errorCode.isSome

theorem Job.checks_iff {j : Job} : j.checks = true ↔ j.Checked := by
  constructor
  · intro h
    simp only [Job.checks, Bool.and_eq_true, decide_eq_true_eq] at h
    obtain ⟨⟨⟨⟨⟨⟨⟨⟨⟨⟨⟨⟨h1, h2⟩, h3⟩, h4⟩, h5⟩, h6⟩, h7⟩, h8⟩, h9⟩, h10⟩, h11⟩, h12⟩, h13⟩ := h
    exact ⟨h1, h2, h3, h4, h5, h6, h7, h8, h9, h10, h11, h12, h13⟩
  · rintro ⟨h1, h2, h3, h4, h5, h6, h7, h8, h9, h10, h11, h12, h13⟩
    simp only [Job.checks, Bool.and_eq_true, decide_eq_true_eq]
    exact ⟨⟨⟨⟨⟨⟨⟨⟨⟨⟨⟨⟨h1, h2⟩, h3⟩, h4⟩, h5⟩, h6⟩, h7⟩, h8⟩, h9⟩, h10⟩, h11⟩, h12⟩, h13⟩

/-- The table keeps its constraints: the CHECKs, and one job for each reference and operation id. -/
structure Db.JobsOk (db : Db) : Prop where
  checked : ∀ j ∈ db.jobs.rows, j.Checked
  unique : ∀ j ∈ db.jobs.rows, ∀ k ∈ db.jobs.rows, j.userRefHmac = k.userRefHmac →
    j.operationId = k.operationId → j = k

/-! ## Moves -/

/-- The lease of `j` is `worker`'s and has not run out at `clock`. -/
def Job.OwnedBy (clock : Timestamp) (worker : PyStr) (j : Job) : Prop :=
  j.status = .processing ∧ j.leaseOwner = some worker ∧
    ∃ expires, j.leaseExpiresAt = some expires ∧ clock < expires

/-- A job without its lease, failed or waiting. -/
def Job.released (status : JobStatus) (errorCode : Option PyStr) (nextAttemptAt : Option Timestamp)
    (vNow : Timestamp) (j : Job) : Job :=
  { j with
    status, errorCode, nextAttemptAt, leaseOwner := none, leaseExpiresAt := none, updatedAt := vNow }

def Job.purgedAt (vNow : Timestamp) (j : Job) : Job :=
  { j with dbPurgedAt := some vNow, updatedAt := vNow }

def Job.finished (vNow : Timestamp) (j : Job) : Job :=
  { j with
    status := .completed, userId := none, leaseOwner := none, leaseExpiresAt := none,
    completedAt := some vNow, updatedAt := vNow }

/-- The call with which `worker` ends its lease of the job `id` by a failure or a retry. -/
def Call.Releases (id : Uuid) (worker : PyStr) (call : Call) : Prop :=
  (∃ code, call = .recordFailure (some id) (some worker) code) ∨
    call = .recordRetry (some id) (some worker)

/-- The call that asks for the job `id`. -/
def Call.Requests (id : Uuid) (call : Call) : Prop := ∃ a, call = .requestDeletion id a

/-- The statuses a released job can have, with what its constraints ask for. -/
def Released (status : JobStatus) (errorCode : Option PyStr) (next : Option Timestamp) : Prop :=
  errorCode.all isCode = true ∧
    (status = .failed ∧ errorCode.isSome ∨ status = .pending ∧ next.isSome)

/-- **Everything one call can do to one row of the job table.** -/
inductive Move (db : Db) : Times × Call → Reply → Option Job → Option Job → Prop
  | same (x : Times × Call) (reply : Reply) (j : Option Job) : Move db x reply j j
  | created {t : Times} {a : DeletionRequest} {j : Job} (hj : j.Checked)
      (hstatus : j.status = .pending) (hattempts : j.attempts = 0) (hpurged : j.dbPurgedAt = none)
      (hnew : ∀ k ∈ db.jobs.rows, k.userRefHmac = j.userRefHmac → k.operationId ≠ j.operationId) :
      Move db (t, .requestDeletion j.jobId a) (.job (.created j.jobId)) none (some j)
  | terminalized {t : Times} {locked : Uuid → Bool} {prio : Job → Nat} {a : AcquireArgs}
      {reply : Reply} {j : Job} (hexpired : ∃ e, j.leaseExpiresAt = some e ∧ e < t.vNow)
      (hstatus : j.status = .processing) (hceiling : maxAttempts ≤ j.attempts) :
      Move db (t, .acquireLease locked prio a) reply (some j) (some (j.terminalized t.vNow))
  | claimed {t : Times} {locked : Uuid → Bool} {prio : Job → Nat} {a : AcquireArgs} {j : Job}
      {worker : PyStr} {lease : Int} (hworker : a.workerId = some worker)
      (htoken : isToken 64 worker = true) (heligible : j.eligible t.vNow = true)
      (hroom : j.attempts < maxAttempts) :
      Move db (t, .acquireLease locked prio a) (.job (.leased (j.claimed t.vNow worker lease)))
        (some j) (some (j.claimed t.vNow worker lease))
  | purged {t : Times} {a : PurgeJobArgs} {j : Job} {worker : PyStr} {counts : PurgeCounts}
      (hid : a.jobId = some j.jobId) (hworker : a.workerId = some worker)
      (howned : j.OwnedBy t.clock worker) (hfresh : j.dbPurgedAt = none) :
      Move db (t, .purge a) (.job (.purged j.jobId t.vNow counts)) (some j)
        (some (j.purgedAt t.vNow))
  | released {t : Times} {call : Call} {reply : Reply} {j : Job} {worker : PyStr}
      {status : JobStatus} {code : Option PyStr} {next : Option Timestamp}
      (hcall : call.Releases j.jobId worker) (howned : j.OwnedBy t.clock worker)
      (hreleased : Released status code next) :
      Move db (t, call) reply (some j) (some (j.released status code next t.vNow))
  | finalized {t : Times} {j : Job} {worker : PyStr} (howned : j.OwnedBy t.clock worker)
      (hpurged : j.dbPurgedAt.isSome) :
      Move db (t, .finalize (some j.jobId) (some worker))
        (.job (.completed j.jobId t.vNow j.dbPurgedAt)) (some j) (some (j.finished t.vNow))
  | removed {t : Times} {prio : Job → Nat} {a : PurgeArgs} {reply : Reply} {j : Job}
      (hdone : j.status = .completed) :
      Move db (t, .purgeCompleted prio a) reply (some j) none

/-! ## The writes satisfy the constraints -/

namespace Job.Checked

variable {j : Job} {vNow clock : Timestamp} {worker : PyStr}

/-- A job that is not completed knows its user. -/
theorem userId_isSome (h : j.Checked) (hs : j.status ≠ .completed) : j.userId.isSome := by
  rw [Option.isSome_iff_ne_none]
  exact fun hnone => hs (h.identity.mpr hnone)

theorem completedAt_none (h : j.Checked) (hs : j.status ≠ .completed) : j.completedAt = none := by
  rw [← Option.not_isSome_iff_eq_none]
  exact fun hsome => hs (h.completedAt.mpr hsome)

theorem released (h : j.Checked) (hs : j.status = .processing) {status : JobStatus}
    {code : Option PyStr} {next : Option Timestamp} (hr : Released status code next) :
    (j.released status code next vNow).Checked := by
  have hactive : j.status ≠ .completed := by rw [hs]; decide
  have huser : j.userId ≠ none := Option.isSome_iff_ne_none.mp (h.userId_isSome hactive)
  have hdone := h.completedAt_none hactive
  obtain ⟨hcode, ⟨rfl, hsome⟩ | ⟨rfl, hsome⟩⟩ := hr
  · exact
      { h with
        owner := rfl, pair := rfl, lease := ⟨rfl, rfl⟩
        identity := iff_of_false nofun huser
        purged := nofun
        completedAt := by simp [Job.released, hdone]
        scheduled := nofun
        errorCode := hcode
        failed := fun _ => hsome }
  · exact
      { h with
        owner := rfl, pair := rfl, lease := ⟨rfl, rfl⟩
        identity := iff_of_false nofun huser
        purged := nofun
        completedAt := by simp [Job.released, hdone]
        scheduled := fun _ => hsome
        errorCode := hcode
        failed := nofun }

/-- Terminalizing is releasing with the code for exhausted attempts. -/
theorem released_exhausted : Released .failed (some (py "attempts_exhausted")) none :=
  ⟨by decide +kernel, .inl ⟨rfl, rfl⟩⟩

theorem terminalized (h : j.Checked) (hs : j.status = .processing) :
    (j.terminalized vNow).Checked :=
  h.released hs released_exhausted

/-- Jobs that are looked for are not completed. -/
theorem eligible_active (he : j.eligible vNow = true) : j.status ≠ .completed := by
  intro hs
  simp [Job.eligible, hs] at he

theorem claimed (h : j.Checked) (he : j.eligible vNow = true) (hroom : j.attempts < maxAttempts)
    (htoken : isToken 64 worker = true) {lease : Int} :
    (j.claimed vNow worker lease).Checked := by
  have hactive := eligible_active he
  have huser : j.userId ≠ none := Option.isSome_iff_ne_none.mp (h.userId_isSome hactive)
  have hattempts := h.attempts
  exact
    { h with
      attempts := by
        simp only [Job.claimed]
        omega
      owner := htoken, pair := rfl, lease := ⟨rfl, rfl⟩
      identity := iff_of_false nofun huser
      purged := nofun
      completedAt := by simp [Job.claimed, h.completedAt_none hactive]
      scheduled := nofun
      errorCode := rfl
      failed := nofun }

theorem purgedAt (h : j.Checked) : (j.purgedAt vNow).Checked :=
  { h with purged := fun _ => rfl }

theorem finished (h : j.Checked) (hp : j.dbPurgedAt.isSome) : (j.finished vNow).Checked :=
  { h with
    userId := rfl, owner := rfl, pair := rfl, lease := ⟨rfl, rfl⟩
    identity := ⟨fun _ => rfl, fun _ => rfl⟩
    purged := fun _ => hp
    completedAt := ⟨fun _ => rfl, fun _ => rfl⟩
    scheduled := nofun
    failed := nofun }

end Job.Checked

/-! ## Every call is a move of every row -/

/-- A write of one row moves that row and no other. -/
theorem move_put {db : Db} {x : Times × Call} {reply : Reply} {j : Job}
    (h : Move db x reply (db.jobs.get? j.jobId) (some j)) (id : Uuid) :
    Move db x reply (db.jobs.get? id) ((db.jobs.put j).get? id) := by
  rw [Table.get?_put]
  by_cases hid : id = j.jobId
  · rw [if_pos hid, hid]
    exact h
  · rw [if_neg hid]
    exact .same _ _ _

theorem validateDeletionRequest_ok {a : DeletionRequest} {userId ref : PyStr} {operationId : Uuid}
    {fingerprint : PyStr} (h : validateDeletionRequest a = .ok (userId, ref, operationId, fingerprint)) :
    isUserId userId = true ∧ isSha256Hex ref = true ∧ isSha256Hex fingerprint = true := by
  unfold validateDeletionRequest at h
  simp only [except_bind_ok] at h
  obtain ⟨u, hu, r, hr, o, ho, f, hf, h⟩ := h
  cases h
  have hgiven : ∀ {p : PyStr → Bool} {x : Option PyStr} {message : String} {y : PyStr},
      given (x.filter p) message = .ok y → p y = true := by
    intro p x message y hy
    unfold given at hy
    split at hy
    · rename_i hx
      cases hy
      exact (Option.filter_eq_some_iff.mp hx).2
    · cases hy
  exact ⟨hgiven hu, hgiven hr, hgiven hf⟩

/-- The row `account_deletion_request` inserts. -/
theorem checked_request {clock : Timestamp} {jobId operationId : Uuid} {userId ref fingerprint : PyStr}
    (hu : isUserId userId = true) (hr : isSha256Hex ref = true)
    (hf : isSha256Hex fingerprint = true) : Job.Checked
      { jobId, operationId, userId := some userId, userRefHmac := ref,
        intentFingerprint := fingerprint, status := .pending, attempts := 0,
        leaseOwner := none, leaseExpiresAt := none, nextAttemptAt := some clock,
        dbPurgedAt := none, errorCode := none, requestedAt := clock, updatedAt := clock,
        completedAt := none } where
  userId := hu
  ref := hr
  fingerprint := hf
  attempts := ⟨le_rfl, show (0 : Int) ≤ 100 by omega⟩
  owner := rfl
  pair := rfl
  lease := ⟨rfl, rfl⟩
  identity := iff_of_false nofun nofun
  purged := nofun
  completedAt := iff_of_false nofun nofun
  scheduled := fun _ => rfl
  errorCode := rfl
  failed := nofun

theorem requestBody_move {t : Times} {jobId : Uuid} {a : DeletionRequest} {db db' : Db}
    {reply : JobReply} (h : requestBody t.clock jobId a db = .ok (reply, db')) (id : Uuid) :
    Move db (t, .requestDeletion jobId a) (.job reply) (db.jobs.get? id) (db'.jobs.get? id) := by
  unfold requestBody at h
  split at h
  · cases h
    exact .same _ _ _
  · cases h
  · split at h
    · split at h <;> (cases h; exact .same _ _ _)
    · rename_i hnone
      split at h
      · cases h
      · rename_i hfree
        obtain ⟨db₁, hw, h⟩ := except_map_ok.mp h
        cases h
        obtain ⟨hc, rfl⟩ := writeJob_ok hw
        refine move_put ?_ id
        rw [Option.not_isSome_iff_eq_none.mp hfree]
        refine .created (Job.checks_iff.mp hc) rfl rfl rfl fun k hk href hop => ?_
        have := List.find?_eq_none.mp hnone k hk
        simp only [Bool.and_eq_true, decide_eq_true_eq] at this
        exact this ⟨href, hop⟩

/-- Jobs the scan claims have an attempt left. -/
theorem attempts_of_eligible {vNow : Timestamp} {j : Job} (he : j.eligible vNow = true)
    (hnot : ¬ (j.status = .processing ∧ maxAttempts ≤ j.attempts)) : j.attempts < maxAttempts := by
  by_contra hge
  rw [not_lt] at hge
  have hs : j.status ≠ .processing := fun hs => hnot ⟨hs, hge⟩
  simp only [Job.eligible, Bool.or_eq_true, Bool.and_eq_true, decide_eq_true_eq] at he
  rcases he with ⟨-, hlt⟩ | ⟨hs', -⟩
  · omega
  · exact hs hs'

theorem expired_of_eligible {vNow : Timestamp} {j : Job} (he : j.eligible vNow = true)
    (hs : j.status = .processing) : ∃ e, j.leaseExpiresAt = some e ∧ e < vNow := by
  simp only [Job.eligible, hs, Bool.or_eq_true, Bool.and_eq_true, decide_eq_true_eq] at he
  rcases he with ⟨⟨hf | hf, -⟩, -⟩ | ⟨-, hexp⟩
  · cases hf
  · cases hf
  · obtain ⟨e, hj, hlt⟩ := (Option.any_eq_true _ _).mp hexp
    exact ⟨e, hj, by simpa using hlt⟩

/-- The scan moves the rows of its list, each once, and leaves the others alone. -/
theorem acquireScan_move {t : Times} {locked : Uuid → Bool} {prio : Job → Nat} {a : AcquireArgs}
    {worker : PyStr} {lease : Int} (hworker : a.workerId = some worker)
    (htoken : isToken 64 worker = true) (db₀ : Db) {reply : JobReply} {db' : Db} (id : Uuid) :
    ∀ {js : List Job} {db : Db}, acquireScan t.vNow worker lease js db = .ok (reply, db') →
    (∀ j ∈ js, db.jobs.get? j.jobId = some j ∧ j.eligible t.vNow = true) →
    (js.map Job.jobId).Nodup →
    Move db₀ (t, .acquireLease locked prio a) (.job reply) (db.jobs.get? id) (db'.jobs.get? id) ∧
      (id ∉ js.map Job.jobId → db'.jobs.get? id = db.jobs.get? id)
  | [], db, h, _, _ => by
      cases h
      exact ⟨.same _ _ _, fun _ => rfl⟩
  | j :: js, db, h, hjs, hnodup => by
      obtain ⟨hget, he⟩ := hjs j (by simp)
      obtain ⟨hfresh, hnodup'⟩ := List.nodup_cons.mp hnodup
      have hother : ∀ {j' : Job}, j'.jobId = j.jobId → id ∉ (j :: js).map Job.jobId →
          (db.jobs.put j').get? id = db.jobs.get? id := by
        intro j' hid hnot
        rw [Table.get?_put, if_neg]
        rintro rfl
        exact hnot (by simp [hid])
      have hself : ∀ j' : Job, j'.jobId = j.jobId →
          (db.jobs.put j').get? j.jobId = some j' := by
        intro j' hid
        rw [Table.get?_put, if_pos hid.symm]
      unfold acquireScan at h
      split at h
      · rename_i hexhausted
        obtain ⟨db₁, hw, h⟩ := except_bind_ok.mp h
        obtain ⟨-, rfl⟩ := writeJob_ok hw
        have hrest : ∀ k ∈ js, (db.jobs.put (j.terminalized t.vNow)).get? k.jobId = some k ∧
            k.eligible t.vNow = true := by
          intro k hk
          obtain ⟨hkget, hke⟩ := hjs k (by simp [hk])
          refine ⟨?_, hke⟩
          rw [Table.get?_put, if_neg]
          · exact hkget
          · intro heq
            exact hfresh (List.mem_map.mpr ⟨k, hk, heq⟩)
        obtain ⟨hmove, hsame⟩ := acquireScan_move hworker htoken db₀ id h hrest hnodup'
        refine ⟨?_, ?_⟩
        · by_cases hid : id = j.jobId
          · subst hid
            rw [hsame hfresh, hself (j.terminalized t.vNow) rfl, hget]
            exact .terminalized (expired_of_eligible he hexhausted.1) hexhausted.1 hexhausted.2
          · have hput : (db.jobs.put (j.terminalized t.vNow)).get? id = db.jobs.get? id := by
              rw [Table.get?_put, if_neg]
              exact hid
            rw [← hput]
            exact hmove
        · intro hnot
          rw [hsame fun hin => hnot (List.mem_cons_of_mem _ hin)]
          exact hother rfl hnot
      · rename_i hroom
        obtain ⟨db₁, hw, h⟩ := except_bind_ok.mp h
        cases h
        obtain ⟨-, rfl⟩ := writeJob_ok hw
        refine ⟨?_, hother rfl⟩
        by_cases hid : id = j.jobId
        · subst hid
          rw [hself (j.claimed t.vNow worker lease) rfl, hget]
          exact .claimed hworker htoken he (attempts_of_eligible he hroom)
        · rw [Table.get?_put, if_neg]
          · exact .same _ _ _
          · exact hid

/-- What the scan goes through: rows of the table, each once. -/
theorem scan_rows (db : Db) (vNow : Timestamp) (locked : Uuid → Bool) (prio : Job → Nat) :
    let js := (db.jobs.rows.filter fun j => j.eligible vNow && !locked j.jobId).insertionSort
      (scanLe prio)
    (∀ j ∈ js, j ∈ db.jobs.rows ∧ j.eligible vNow = true) ∧ (js.map Job.jobId).Nodup := by
  constructor
  · intro j hj
    rw [List.mem_insertionSort, List.mem_filter, Bool.and_eq_true] at hj
    exact ⟨hj.1, hj.2.1⟩
  · have hperm := List.perm_insertionSort (scanLe prio)
      (db.jobs.rows.filter fun j => j.eligible vNow && !locked j.jobId)
    rw [(hperm.map Job.jobId).nodup_iff]
    exact db.jobs.nodup.sublist (List.filter_sublist.map _)

theorem acquireLeaseBody_move {t : Times} {locked : Uuid → Bool} {prio : Job → Nat}
    {a : AcquireArgs} {db db' : Db} {reply : JobReply}
    (h : acquireLeaseBody t.vNow locked prio a db = .ok (reply, db')) (id : Uuid) :
    Move db (t, .acquireLease locked prio a) (.job reply) (db.jobs.get? id) (db'.jobs.get? id) := by
  unfold acquireLeaseBody at h
  split at h
  · cases h
    exact .same _ _ _
  · cases h
    exact .same _ _ _
  · cases h
    exact .same _ _ _
  · rename_i worker lease _ hworker _ _
    obtain ⟨hworker, htoken⟩ := Option.filter_eq_some_iff.mp hworker
    obtain ⟨hrows, hnodup⟩ := scan_rows db t.vNow locked prio
    refine (acquireScan_move hworker htoken db id h (fun j hj => ?_) hnodup).1
    exact ⟨Table.get?_of_mem (hrows j hj).1, (hrows j hj).2⟩

/-- Whoever passes `account_deletion_assert_owner` owns the row it returns. -/
theorem owned_of_assertOwner {clock : Timestamp} {jobId : Option Uuid} {worker : Option PyStr}
    {db : Db} {j : Job} (h : assertOwner clock jobId worker db = .ok j) :
    ∃ owner, jobId = some j.jobId ∧ worker = some owner ∧ db.jobs.get? j.jobId = some j ∧
      j.OwnedBy clock owner := by
  obtain ⟨id, owner, expires, rfl, rfl, hget, hs, ho, hx, hlt⟩ := assertOwner_ok h
  have hid : j.jobId = id := Table.get?_key hget
  subst hid
  exact ⟨owner, rfl, rfl, hget, hs, ho, expires, hx, hlt⟩

theorem purgeBody_move {t : Times} {a : PurgeJobArgs} {db db' : Db} {reply : JobReply}
    (h : purgeBody t.vNow t.clock a db = .ok (reply, db')) (id : Uuid) :
    Move db (t, .purge a) (.job reply) (db.jobs.get? id) (db'.jobs.get? id) := by
  unfold purgeBody at h
  split at h
  · obtain ⟨j, hj, h⟩ := except_bind_ok.mp h
    obtain ⟨owner, hid, hworker, hget, howned⟩ := owned_of_assertOwner hj
    split at h
    · cases h
      exact .same _ _ _
    · split at h
      · cases h
        exact .same _ _ _
      · rename_i hfresh
        obtain ⟨db₁, hw, h⟩ := except_bind_ok.mp h
        cases h
        obtain ⟨-, rfl⟩ := writeJob_ok hw
        -- deleting the rows of the user leaves the job table alone
        have hjobs : ((j.userId.map db.purgeUser).getD (.zero, db)).2.jobs = db.jobs := by
          cases j.userId <;> rfl
        have hmove : Move db (t, .purge a) (.job (.purged j.jobId t.vNow
            ((j.userId.map db.purgeUser).getD (.zero, db)).1)) (db.jobs.get? j.jobId)
            (some (j.purgedAt t.vNow)) := by
          rw [hget]
          exact .purged hid hworker howned hfresh
        have hput := move_put (j := j.purgedAt t.vNow) hmove id
        rw [← hjobs] at hput ⊢
        exact hput
  · cases h
    exact .same _ _ _

theorem recordFailureBody_move {t : Times} {jobId : Option Uuid} {worker code : Option PyStr}
    {db db' : Db} {reply : JobReply}
    (h : recordFailureBody t.vNow t.clock jobId worker code db = .ok (reply, db')) (id : Uuid) :
    Move db (t, .recordFailure jobId worker code) (.job reply) (db.jobs.get? id)
      (db'.jobs.get? id) := by
  unfold recordFailureBody at h
  split at h
  · cases h
    exact .same _ _ _
  · rename_i errorCode hcode
    obtain ⟨j, hj, hrest⟩ := except_bind_ok.mp h
    obtain ⟨owner, rfl, rfl, hget, howned⟩ := owned_of_assertOwner hj
    obtain ⟨db₁, hw, hout⟩ := except_bind_ok.mp hrest
    cases hout
    obtain ⟨-, rfl⟩ := writeJob_ok hw
    refine move_put ?_ id
    change Move db _ _ (db.jobs.get? j.jobId) _
    rw [hget]
    refine .released (.inl ⟨code, rfl⟩) howned ⟨?_, .inl ⟨rfl, rfl⟩⟩
    exact (Option.filter_eq_some_iff.mp hcode).2

theorem recordRetryBody_move {t : Times} {jobId : Option Uuid} {worker : Option PyStr}
    {db db' : Db} {reply : JobReply}
    (h : recordRetryBody t.vNow t.clock jobId worker db = .ok (reply, db')) (id : Uuid) :
    Move db (t, .recordRetry jobId worker) (.job reply) (db.jobs.get? id) (db'.jobs.get? id) := by
  unfold recordRetryBody at h
  obtain ⟨j, hj, hrest⟩ := except_bind_ok.mp h
  obtain ⟨owner, rfl, rfl, hget, howned⟩ := owned_of_assertOwner hj
  dsimp only at hrest
  split at hrest
  · obtain ⟨db₁, hw, hout⟩ := except_bind_ok.mp hrest
    cases hout
    obtain ⟨-, rfl⟩ := writeJob_ok hw
    refine move_put ?_ id
    change Move db _ _ (db.jobs.get? j.jobId) _
    rw [hget]
    exact .released (.inr rfl) howned Job.Checked.released_exhausted
  · obtain ⟨db₁, hw, hout⟩ := except_bind_ok.mp hrest
    cases hout
    obtain ⟨-, rfl⟩ := writeJob_ok hw
    refine move_put ?_ id
    change Move db _ _ (db.jobs.get? j.jobId) _
    rw [hget]
    exact .released (.inr rfl) howned ⟨rfl, .inr ⟨rfl, rfl⟩⟩

theorem finalizeBody_move {t : Times} {jobId : Option Uuid} {worker : Option PyStr}
    {db db' : Db} {reply : JobReply}
    (h : finalizeBody t.vNow t.clock jobId worker db = .ok (reply, db')) (id : Uuid) :
    Move db (t, .finalize jobId worker) (.job reply) (db.jobs.get? id) (db'.jobs.get? id) := by
  unfold finalizeBody at h
  obtain ⟨j, hj, hrest⟩ := except_bind_ok.mp h
  obtain ⟨owner, rfl, rfl, hget, howned⟩ := owned_of_assertOwner hj
  split at hrest
  · cases hrest
    exact .same _ _ _
  · rename_i hpurged
    obtain ⟨db₁, hw, hout⟩ := except_bind_ok.mp hrest
    cases hout
    obtain ⟨-, rfl⟩ := writeJob_ok hw
    refine move_put ?_ id
    change Move db _ _ (db.jobs.get? j.jobId) _
    rw [hget]
    exact .finalized howned (Option.isSome_iff_ne_none.mpr hpurged)

theorem purgeCompleted_move {t : Times} {prio : Job → Nat} {a : PurgeArgs} {db : Db}
    {reply : Reply} (id : Uuid) :
    Move db (t, .purgeCompleted prio a) reply (db.jobs.get? id)
      ((purgeCompleted t.clock prio a db).2.jobs.get? id) := by
  unfold purgeCompleted
  split
  · exact .same _ _ _
  · rename_i cutoff n _
    dsimp only
    rw [Table.get?_deleteWhere]
    cases hget : db.jobs.get? id with
    | none => exact .same _ _ _
    | some j =>
        by_cases hv : j ∈ purgeVictims (fun j => if j.status = .completed then j.completedAt else none)
            prio (min cutoff (t.clock - days 30)) n db.jobs.rows
        · obtain ⟨-, at_, hat, -⟩ := mem_purgeVictims hv
          have hdone : j.status = .completed := by
            by_contra hs
            rw [if_neg hs] at hat
            cases hat
          simp only [Option.filter, hv, decide_true, Bool.not_true]
          exact .removed hdone
        · simp only [Option.filter, hv, decide_false, Bool.not_false, if_true]
          exact .same _ _ _

section

variable {sha256 : PyStr → PyStr}

/-- What the caller of a procedure sees of a body, row by row. -/
theorem sanitized_move {x : Times × Call} {db : Db} {body : Except SqlErr (JobReply × Db)} {id : Uuid}
    (h : ∀ reply db', body = .ok (reply, db') →
      Move db x (.job reply) (db.jobs.get? id) (db'.jobs.get? id)) :
    Move db x (.job (sanitized body db).1) (db.jobs.get? id) ((sanitized body db).2.jobs.get? id) := by
  cases hbody : body with
  | ok out => exact h out.1 out.2 hbody
  | error e => exact .same _ _ _

theorem commitTurn_jobs (now : Timestamp) (ids : FreshIds) (a : CommitArgs) (db : Db) :
    (commitTurn now ids a db).2.jobs = db.jobs := by
  have hstep := commitTurn_step now ids a db
  generalize (commitTurn now ids a db).1 = reply at hstep
  generalize (commitTurn now ids a db).2 = db' at hstep ⊢
  cases hstep with
  | refused => rfl
  | raised => rfl
  | replayed => rfl
  | fresh i row _ hv hc => exact hc.jobs

theorem privacyApplyOperation_jobs (now : Timestamp) (a : PrivacyArgs) (db : Db) :
    (privacyApplyOperation sha256 now a db).2.jobs = db.jobs := by
  have hstep := privacyApplyOperation_step sha256 now a db
  generalize (privacyApplyOperation sha256 now a db).1 = reply at hstep
  generalize (privacyApplyOperation sha256 now a db).2 = db' at hstep ⊢
  cases hstep with
  | refused => rfl
  | raised => rfl
  | replayed => rfl
  | applied i result _ hv ha => exact ha.jobs

/-- **Nothing else happens to a row of the job table.** -/
theorem move_exec (x : Times × Call) (db : Db) (id : Uuid) :
    Move db x (exec sha256 x db).1 (db.jobs.get? id) ((exec sha256 x db).2.jobs.get? id) := by
  have hsame : ∀ db' : Db, db'.jobs = db.jobs →
      Move db x (exec sha256 x db).1 (db.jobs.get? id) (db'.jobs.get? id) := by
    intro db' h
    rw [h]
    exact .same _ _ _
  obtain ⟨t, call⟩ := x
  cases call with
  | commitTurn ids a => exact hsame _ (commitTurn_jobs t.now ids a db)
  | privacyApplyOperation a => exact hsame _ (privacyApplyOperation_jobs t.now a db)
  | reserveAdmission a =>
      refine hsame (reserveAdmission t.vNow a db).2 ?_
      unfold reserveAdmission
      split
      · rfl
      · split <;> rfl
  | purgeAdmissionReservations prio a =>
      refine hsame (purgeAdmissionReservations t.clock prio a db).2 ?_
      unfold purgeAdmissionReservations
      split <;> rfl
  | purgePrivacyOperations prio a =>
      refine hsame (purgePrivacyOperations t.clock prio a db).2 ?_
      unfold purgePrivacyOperations
      split <;> rfl
  | purgeOutboxEvents prio a =>
      refine hsame (purgeOutboxEvents t.clock prio a db).2 ?_
      unfold purgeOutboxEvents
      split <;> rfl
  | requestDeletion jobId a => exact sanitized_move fun _ _ h => requestBody_move h id
  | acquireLease locked prio a => exact sanitized_move fun _ _ h => acquireLeaseBody_move h id
  | purge a => exact sanitized_move fun _ _ h => purgeBody_move h id
  | recordFailure jobId worker code => exact sanitized_move fun _ _ h => recordFailureBody_move h id
  | recordRetry jobId worker => exact sanitized_move fun _ _ h => recordRetryBody_move h id
  | finalize jobId worker => exact sanitized_move fun _ _ h => finalizeBody_move h id
  | purgeCompleted prio a => exact purgeCompleted_move id
  | pruneChatLogs p => exact hsame _ rfl
  | deliver event delivery at_ => exact hsame _ rfl

theorem move_of_event (e : Event (exec sha256)) (id : Uuid) :
    Move e.before e.input e.reply (e.before.jobs.get? id) (e.after.jobs.get? id) := by
  have h := @move_exec sha256 e.input e.before id
  rw [e.executed] at h
  exact h

end

end Katherine.Cloud
