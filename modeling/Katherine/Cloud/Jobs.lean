import Katherine.Cloud.Moves

/-!
# The state machine of account deletion jobs

Everything here is a case analysis of `Move` and an induction over the run: the CHECK
constraints hold and no procedure runs into one, attempts stay under the ceiling, the
purge marker stays, and a lease ends only when it runs out or its owner gives it up.
-/

namespace Katherine.Cloud

open Py Sql Pg Runs

section

variable {sha256 : PyStr → PyStr}

/-! ## Constraints are kept -/

theorem checked_of_move {db : Db} {x : Times × Call} {reply : Reply} {j : Option Job} {j' : Job}
    (hm : Move db x reply j (some j')) (hj : ∀ k, j = some k → k.Checked) : j'.Checked := by
  cases hm with
  | same => exact hj _ rfl
  | created hj => exact hj
  | terminalized _ hs _ => exact (hj _ rfl).terminalized hs
  | claimed _ htoken he hroom => exact (hj _ rfl).claimed he hroom htoken
  | purged => exact (hj _ rfl).purgedAt
  | released _ howned hr => exact (hj _ rfl).released howned.1 hr
  | finalized _ hp => exact (hj _ rfl).finished hp

/-- A row that was there keeps its job id, reference and operation id; a new one is the only one
with its reference and operation id. -/
theorem key_of_move {db : Db} {x : Times × Call} {reply : Reply} {j : Option Job} {j' : Job}
    (hm : Move db x reply j (some j')) :
    (∃ k, j = some k ∧ k.userRefHmac = j'.userRefHmac ∧ k.operationId = j'.operationId) ∨
      (x.2.Requests j'.jobId ∧ ∀ k ∈ db.jobs.rows, k.userRefHmac = j'.userRefHmac → k.operationId ≠ j'.operationId) := by
  cases hm with
  | same => exact .inl ⟨_, rfl, rfl, rfl⟩
  | created _ _ _ _ hnew => exact .inr ⟨⟨_, rfl⟩, hnew⟩
  | terminalized => exact .inl ⟨_, rfl, rfl, rfl⟩
  | claimed => exact .inl ⟨_, rfl, rfl, rfl⟩
  | purged => exact .inl ⟨_, rfl, rfl, rfl⟩
  | released => exact .inl ⟨_, rfl, rfl, rfl⟩
  | finalized => exact .inl ⟨_, rfl, rfl, rfl⟩

theorem jobsOk_kept (e : Event (exec sha256)) (h : e.before.JobsOk) : e.after.JobsOk where
  checked := by
    intro j hj
    have hm := move_of_event e j.jobId
    rw [Table.get?_of_mem hj] at hm
    exact checked_of_move hm fun k hk => h.checked k (Table.get?_mem hk)
  unique := by
    intro j hj k hk href hop
    have hmj := move_of_event e j.jobId
    have hmk := move_of_event e k.jobId
    rw [Table.get?_of_mem hj] at hmj
    rw [Table.get?_of_mem hk] at hmk
    -- two rows with one key have the same job id, so they are one row
    have hid : j.jobId = k.jobId := by
      rcases key_of_move hmj with ⟨j₀, hj₀, hjr, hjo⟩ | ⟨⟨aj, hcj⟩, hjnew⟩
      · rcases key_of_move hmk with ⟨k₀, hk₀, hkr, hko⟩ | ⟨-, hknew⟩
        · have := h.unique j₀ (Table.get?_mem hj₀) k₀ (Table.get?_mem hk₀)
            ((hjr.trans href).trans hkr.symm) ((hjo.trans hop).trans hko.symm)
          rw [← Table.get?_key hj₀, ← Table.get?_key hk₀, this]
        · exact absurd (hjo.trans hop) (hknew j₀ (Table.get?_mem hj₀) (hjr.trans href))
      · rcases key_of_move hmk with ⟨k₀, hk₀, hkr, hko⟩ | ⟨⟨ak, hck⟩, -⟩
        · exact absurd (hko.trans hop.symm) (hjnew k₀ (Table.get?_mem hk₀) (hkr.trans href.symm))
        · rw [hcj] at hck
          injection hck
    have hj' := Table.get?_of_mem hj
    rw [hid, Table.get?_of_mem hk] at hj'
    exact (Option.some.inj hj').symm

/-! ## No procedure runs into a constraint -/

/-- The bodies of the ledger procedures, before the handler turns every error into one. -/
def ledgerBody : Times × Call → Db → Option (Except SqlErr (JobReply × Db))
  | (t, .requestDeletion jobId a), db => some (requestBody t.clock jobId a db)
  | (t, .acquireLease locked prio a), db => some (acquireLeaseBody t.vNow locked prio a db)
  | (t, .purge a), db => some (purgeBody t.vNow t.clock a db)
  | (t, .recordFailure jobId worker code), db =>
      some (recordFailureBody t.vNow t.clock jobId worker code db)
  | (t, .recordRetry jobId worker), db => some (recordRetryBody t.vNow t.clock jobId worker db)
  | (t, .finalize jobId worker), db => some (finalizeBody t.vNow t.clock jobId worker db)
  | _, _ => none

theorem bind_fine {α β : Type} {x : Except SqlErr α} {f : α → Except SqlErr β}
    (hx : x ≠ .error .checkViolation) (hf : ∀ a, x = .ok a → f a ≠ .error .checkViolation) :
    (x >>= f) ≠ .error .checkViolation := by
  cases x with
  | ok a => exact hf a rfl
  | error e =>
      change Except.error e ≠ _
      rintro ⟨⟩
      exact hx rfl

theorem writeJob_checked {db : Db} {j : Job} (h : j.Checked) :
    writeJob db j = .ok { db with jobs := db.jobs.put j } := by
  rw [writeJob, if_pos (Job.checks_iff.mpr h)]

theorem writeJob_fine {db : Db} {j : Job} (h : j.Checked) :
    writeJob db j ≠ .error .checkViolation := by
  rw [writeJob_checked h]
  nofun

theorem assertOwner_fine (clock : Timestamp) (jobId : Option Uuid) (worker : Option PyStr) (db : Db) :
    assertOwner clock jobId worker db ≠ .error .checkViolation := by
  unfold assertOwner
  split
  · split
    · nofun
    · split <;> nofun
  · nofun

theorem requestBody_fine (clock : Timestamp) (jobId : Uuid) (a : DeletionRequest) (db : Db) :
    requestBody clock jobId a db ≠ .error .checkViolation := by
  have hraised : ∀ e, validateDeletionRequest a ≠ .error (.raised e) := by
    intro e
    unfold validateDeletionRequest given
    repeat' first | split | exact Except.noConfusion | (intro h; cases h)
  unfold requestBody
  split
  · intro h
    cases h
  · rename_i e he
    exact absurd he (hraised e)
  · rename_i userId ref operationId fingerprint hv
    obtain ⟨hu, hr, hf⟩ := validateDeletionRequest_ok hv
    split
    · split
      all_goals
        intro h
        cases h
    · split
      · intro h
        cases h
      · rw [writeJob_checked (checked_request hu hr hf)]
        intro h
        cases h

/-- With every row checked, the scan never fails. -/
theorem acquireScan_fine {vNow : Timestamp} {worker : PyStr} {lease : Int}
    (htoken : isToken 64 worker = true) {js : List Job} {db : Db}
    (hjs : ∀ j ∈ js, j.Checked ∧ j.eligible vNow = true) :
    acquireScan vNow worker lease js db ≠ .error .checkViolation := by
  induction js generalizing db with
  | nil =>
      intro h
      cases h
  | cons j js ih =>
      obtain ⟨hj, he⟩ := hjs j (by simp)
      unfold acquireScan
      split
      · rename_i hexhausted
        refine bind_fine (writeJob_fine (hj.terminalized hexhausted.1)) fun db₁ _ => ?_
        exact ih fun k hk => hjs k (by simp [hk])
      · rename_i hroom
        refine bind_fine (writeJob_fine (hj.claimed he (attempts_of_eligible he hroom) htoken)) ?_
        intro _ _ h
        cases h

theorem acquireLeaseBody_fine {db : Db} (h : db.JobsOk) (vNow : Timestamp) (locked : Uuid → Bool)
    (prio : Job → Nat) (a : AcquireArgs) :
    acquireLeaseBody vNow locked prio a db ≠ .error .checkViolation := by
  unfold acquireLeaseBody
  split
  · nofun
  · nofun
  · nofun
  · rename_i hworker _ _
    refine acquireScan_fine (Option.filter_eq_some_iff.mp hworker).2 fun j hj => ?_
    obtain ⟨hrow, he⟩ := (scan_rows db vNow locked prio).1 j hj
    exact ⟨h.checked j hrow, he⟩

/-- A write after `account_deletion_assert_owner` starts from a checked job that is processing. -/
theorem owner_fine {db : Db} (h : db.JobsOk) {clock : Timestamp} {jobId : Option Uuid}
    {worker : Option PyStr} {f : Job → Except SqlErr (JobReply × Db)}
    (hf : ∀ j, j.Checked → j.status = .processing → f j ≠ .error .checkViolation) :
    (assertOwner clock jobId worker db >>= f) ≠ .error .checkViolation := by
  refine bind_fine (assertOwner_fine _ _ _ _) fun j hj => ?_
  obtain ⟨owner, -, -, hget, howned⟩ := owned_of_assertOwner hj
  exact hf j (h.checked j (Table.get?_mem hget)) howned.1

/-- **No procedure violates a constraint.** -/
theorem ledgerBody_fine {db : Db} (h : db.JobsOk) (x : Times × Call) :
    ledgerBody x db ≠ some (.error .checkViolation) := by
  obtain ⟨t, call⟩ := x
  intro hbad
  cases call with
  | requestDeletion jobId a => exact requestBody_fine _ _ _ _ (Option.some.inj hbad)
  | acquireLease locked prio a => exact acquireLeaseBody_fine h _ _ _ _ (Option.some.inj hbad)
  | purge a =>
      replace hbad : purgeBody t.vNow t.clock a db = _ := Option.some.inj hbad
      unfold purgeBody at hbad
      split at hbad
      · refine owner_fine h (fun j hj _ => ?_) hbad
        split
        · nofun
        · split
          · nofun
          · exact bind_fine (writeJob_fine hj.purgedAt) fun _ _ => nofun
      · cases hbad
  | recordFailure jobId worker code =>
      replace hbad : recordFailureBody t.vNow t.clock jobId worker code db = _ :=
        Option.some.inj hbad
      unfold recordFailureBody at hbad
      split at hbad
      · cases hbad
      · rename_i errorCode hcode
        refine owner_fine h (fun j hj hs => ?_) hbad
        refine bind_fine (writeJob_fine (hj.released hs ?_)) fun _ _ => nofun
        exact ⟨(Option.filter_eq_some_iff.mp hcode).2, .inl ⟨rfl, rfl⟩⟩
  | recordRetry jobId worker =>
      refine owner_fine h (fun j hj hs => ?_) (Option.some.inj hbad)
      split
      · exact bind_fine (writeJob_fine (hj.terminalized hs)) fun _ _ => nofun
      · refine bind_fine (writeJob_fine (hj.released hs ?_)) fun _ _ => nofun
        exact ⟨rfl, .inr ⟨rfl, rfl⟩⟩
  | finalize jobId worker =>
      refine owner_fine h (fun j hj _ => ?_) (Option.some.inj hbad)
      split
      · nofun
      · rename_i hpurged
        refine bind_fine (writeJob_fine (hj.finished ?_)) fun _ _ => nofun
        exact Option.isSome_iff_ne_none.mpr hpurged
  | _ => cases hbad

/-! ## What a row keeps -/

/-- The step removes the row of a completed job. -/
def Forgotten (id : Uuid) (e : Event (exec sha256)) : Prop :=
  ∃ j, e.before.jobs.get? id = some j ∧ j.status = .completed ∧ e.after.jobs.get? id = none

/-- Attempts only grow and the purge marker stays, until the row of a completed job is removed. -/
theorem kept_of_move {db : Db} {x : Times × Call} {reply : Reply} {j : Job} {j' : Option Job}
    (hm : Move db x reply (some j) j') :
    (∃ k, j' = some k ∧ j.attempts ≤ k.attempts ∧
      (j.dbPurgedAt.isSome → k.dbPurgedAt = j.dbPurgedAt)) ∨
      j' = none ∧ j.status = .completed := by
  cases hm with
  | same => exact .inl ⟨j, rfl, le_rfl, fun _ => rfl⟩
  | terminalized => exact .inl ⟨_, rfl, le_rfl, fun _ => rfl⟩
  | claimed => exact .inl ⟨_, rfl, Int.le_add_one le_rfl, fun _ => rfl⟩
  | purged _ _ _ hfresh =>
      refine .inl ⟨_, rfl, le_rfl, fun h => ?_⟩
      rw [hfresh] at h
      cases h
  | released => exact .inl ⟨_, rfl, le_rfl, fun _ => rfl⟩
  | finalized => exact .inl ⟨_, rfl, le_rfl, fun _ => rfl⟩
  | removed hdone => exact .inr ⟨rfl, hdone⟩

/-- The job is at its last attempt. -/
def Exhausted (id : Uuid) (db : Db) : Prop :=
  ∃ j, db.jobs.get? id = some j ∧ maxAttempts ≤ j.attempts

/-- The job has been purged at `at_`. -/
def PurgedAt (id : Uuid) (at_ : Timestamp) (db : Db) : Prop :=
  ∃ j, db.jobs.get? id = some j ∧ j.dbPurgedAt = some at_

theorem exhausted_kept {id : Uuid} {e : Event (exec sha256)} (h : Exhausted id e.before) :
    Exhausted id e.after ∨ Forgotten id e := by
  obtain ⟨j, hj, hmax⟩ := h
  have hm := move_of_event e id
  rw [hj] at hm
  rcases kept_of_move hm with ⟨k, hk, hle, -⟩ | ⟨hnone, hdone⟩
  · exact .inl ⟨k, hk, hmax.trans hle⟩
  · exact .inr ⟨j, hj, hdone, hnone⟩

theorem purgedAt_kept {id : Uuid} {at_ : Timestamp} {e : Event (exec sha256)}
    (h : PurgedAt id at_ e.before) : PurgedAt id at_ e.after ∨ Forgotten id e := by
  obtain ⟨j, hj, hat⟩ := h
  have hm := move_of_event e id
  rw [hj] at hm
  rcases kept_of_move hm with ⟨k, hk, -, hkept⟩ | ⟨hnone, hdone⟩
  · exact .inl ⟨k, hk, (hkept (by rw [hat]; rfl)).trans hat⟩
  · exact .inr ⟨j, hj, hdone, hnone⟩

/-! ## Leases -/

/-- The step leases the job `id`. -/
def Leases (id : Uuid) (e : Event (exec sha256)) : Prop :=
  ∃ l, e.reply = .job (.leased l) ∧ l.jobId = id

theorem acquireScan_leased {vNow : Timestamp} {worker : PyStr} {lease : Int} {l : Job} {db' : Db} :
    ∀ {js : List Job} {db : Db}, acquireScan vNow worker lease js db = .ok (.leased l, db') →
    (∀ j ∈ js, j.eligible vNow = true) →
    ∃ j ∈ js, j.attempts < maxAttempts ∧ l = j.claimed vNow worker lease ∧
      db'.jobs.get? l.jobId = some l
  | [], db, h, _ => by cases h
  | j :: js, db, h, he => by
      unfold acquireScan at h
      split at h
      · obtain ⟨db₁, -, hrest⟩ := except_bind_ok.mp h
        obtain ⟨k, hk, hlt, hl, hget⟩ := acquireScan_leased hrest fun k hk => he k (by simp [hk])
        exact ⟨k, by simp [hk], hlt, hl, hget⟩
      · rename_i hroom
        obtain ⟨db₁, hw, hout⟩ := except_bind_ok.mp h
        cases hout
        obtain ⟨-, rfl⟩ := writeJob_ok hw
        refine ⟨j, by simp, attempts_of_eligible (he j (by simp)) hroom, rfl, ?_⟩
        rw [Table.get?_put, if_pos rfl]

/-- Only `account_deletion_acquire_lease` answers with a lease. -/
theorem acquires_of_leased {x : Times × Call} {db db' : Db} {l : Job}
    (h : ledgerBody x db = some (.ok (.leased l, db'))) :
    ∃ t locked prio a, x = (t, .acquireLease locked prio a) ∧
      acquireLeaseBody t.vNow locked prio a db = .ok (.leased l, db') := by
  obtain ⟨t, call⟩ := x
  cases call with
  | acquireLease locked prio a => exact ⟨t, locked, prio, a, rfl, Option.some.inj h⟩
  | requestDeletion jobId a =>
      replace h : requestBody t.clock jobId a db = _ := Option.some.inj h
      unfold requestBody at h
      split at h
      · cases h
      · cases h
      · split at h
        · split at h <;> cases h
        · split at h
          · cases h
          · obtain ⟨db₁, -, hout⟩ := except_map_ok.mp h
            cases hout
  | purge a =>
      replace h : purgeBody t.vNow t.clock a db = _ := Option.some.inj h
      unfold purgeBody at h
      split at h
      · obtain ⟨j, -, hrest⟩ := except_bind_ok.mp h
        split at hrest
        · cases hrest
        · split at hrest
          · cases hrest
          · obtain ⟨db₁, -, hout⟩ := except_bind_ok.mp hrest
            cases hout
      · cases h
  | recordFailure jobId worker code =>
      replace h : recordFailureBody t.vNow t.clock jobId worker code db = _ := Option.some.inj h
      unfold recordFailureBody at h
      split at h
      · cases h
      · obtain ⟨j, -, hrest⟩ := except_bind_ok.mp h
        obtain ⟨db₁, -, hout⟩ := except_bind_ok.mp hrest
        cases hout
  | recordRetry jobId worker =>
      obtain ⟨j, -, hrest⟩ := except_bind_ok.mp (Option.some.inj h)
      dsimp only at hrest
      split at hrest
      · obtain ⟨db₁, -, hout⟩ := except_bind_ok.mp hrest
        cases hout
      · obtain ⟨db₁, -, hout⟩ := except_bind_ok.mp hrest
        cases hout
  | finalize jobId worker =>
      obtain ⟨j, -, hrest⟩ := except_bind_ok.mp (Option.some.inj h)
      split at hrest
      · cases hrest
      · obtain ⟨db₁, -, hout⟩ := except_bind_ok.mp hrest
        cases hout
  | _ => cases h

/-- The answer of a ledger procedure, unless it raised, is the answer of its body. -/
theorem ledgerBody_of_event {e : Event (exec sha256)} {r : JobReply} (h : e.reply = .job r)
    (hr : r ≠ .raised) : ledgerBody e.input e.before = some (.ok (r, e.after)) := by
  have hexec := e.executed
  rw [h] at hexec
  generalize e.input = x at hexec ⊢
  generalize e.before = db at hexec ⊢
  generalize e.after = db' at hexec ⊢
  have hbody : ∀ {body : Except SqlErr (JobReply × Db)},
      (sanitized body db).map Reply.job id = (.job r, db') → some body = some (.ok (r, db')) := by
    intro body hb
    cases body with
    | error err =>
        obtain ⟨hraised, -⟩ := Prod.mk.inj hb
        injection hraised with hraised
        exact absurd hraised.symm hr
    | ok out =>
        obtain ⟨r', s⟩ := out
        obtain ⟨hreply, hstate⟩ := Prod.mk.inj hb
        injection hreply with hreply
        rw [← hreply, ← hstate]
        rfl
  obtain ⟨t, call⟩ := x
  cases call with
  | requestDeletion jobId a => exact hbody hexec
  | acquireLease locked prio a => exact hbody hexec
  | purge a => exact hbody hexec
  | recordFailure jobId worker code => exact hbody hexec
  | recordRetry jobId worker => exact hbody hexec
  | finalize jobId worker => exact hbody hexec
  | _ => cases (Prod.mk.inj hexec).1

/-- A lease is given for a row that has an attempt left, to the worker that asked. -/
theorem leased_of_event {e : Event (exec sha256)} {l : Job} (h : e.reply = .job (.leased l)) :
    ∃ t locked prio a worker lease j, e.input = (t, .acquireLease locked prio a) ∧
      a.workerId = some worker ∧ e.before.jobs.get? l.jobId = some j ∧ j.attempts < maxAttempts ∧
      l = j.claimed t.vNow worker lease ∧ e.after.jobs.get? l.jobId = some l := by
  obtain ⟨t, locked, prio, a, hin, hbody⟩ := acquires_of_leased (ledgerBody_of_event h nofun)
  unfold acquireLeaseBody at hbody
  split at hbody
  · cases hbody
  · cases hbody
  · cases hbody
  · rename_i worker lease _ hworker _ _
    obtain ⟨hrows, -⟩ := scan_rows e.before t.vNow locked prio
    obtain ⟨j, hj, hlt, hl, hget⟩ := acquireScan_leased hbody fun j hj => (hrows j hj).2
    refine ⟨t, locked, prio, a, worker, lease, j, hin, (Option.filter_eq_some_iff.mp hworker).1, ?_,
      hlt, hl, hget⟩
    have hid : l.jobId = j.jobId := by rw [hl]; rfl
    rw [hid]
    exact Table.get?_of_mem (hrows j hj).1

/-- The job is leased to `worker` until `expires`. -/
def HasLease (id : Uuid) (worker : PyStr) (expires : Timestamp) (db : Db) : Prop :=
  ∃ j, db.jobs.get? id = some j ∧ j.status = .processing ∧ j.leaseOwner = some worker ∧
    j.leaseExpiresAt = some expires

/-- The step is a call with which `worker` ends its own lease. -/
def GivesUp (id : Uuid) (worker : PyStr) (e : Event (exec sha256)) : Prop :=
  e.input.2.Releases id worker ∨ e.input.2 = .finalize (some id) (some worker)

/-- A lease ends when its owner gives it up, or in a call that started after it ran out. -/
theorem lease_kept {id : Uuid} {worker : PyStr} {expires : Timestamp} {e : Event (exec sha256)}
    (h : HasLease id worker expires e.before) :
    HasLease id worker expires e.after ∨ GivesUp id worker e ∨ expires < e.input.1.vNow := by
  obtain ⟨j, hj, hs, ho, hx⟩ := h
  have hid : j.jobId = id := Table.get?_key hj
  have hm := move_of_event e id
  rw [hj] at hm
  unfold GivesUp HasLease
  generalize e.input = x at hm ⊢
  generalize e.reply = reply at hm
  generalize e.after.jobs.get? id = j' at hm ⊢
  have hsame : ∀ {clock w}, j.OwnedBy clock w → w = worker := by
    intro clock w howned
    have := howned.2.1
    rw [ho] at this
    exact (Option.some.inj this).symm
  have hlate : ∀ {vNow e'}, j.leaseExpiresAt = some e' → e' < vNow → expires < vNow := by
    intro vNow e' he' hlt
    rw [hx] at he'
    obtain rfl := Option.some.inj he'
    exact hlt
  cases hm with
  | same => exact .inl ⟨j, rfl, hs, ho, hx⟩
  | terminalized hexp =>
      obtain ⟨e', he', hlt⟩ := hexp
      exact .inr (.inr (hlate he' hlt))
  | claimed _ _ he _ =>
      obtain ⟨e', he', hlt⟩ := expired_of_eligible he hs
      exact .inr (.inr (hlate he' hlt))
  | purged => exact .inl ⟨_, rfl, hs, ho, hx⟩
  | released hcall howned _ =>
      rw [hid, hsame howned] at hcall
      exact .inr (.inl (.inl hcall))
  | finalized howned _ =>
      rw [hid, hsame howned]
      exact .inr (.inl (.inr rfl))
  | removed hdone =>
      rw [hs] at hdone
      cases hdone

theorem hasLease_of_assertOwner {clock : Timestamp} {id : Uuid} {worker : PyStr} {db : Db} {j : Job}
    (h : assertOwner clock (some id) (some worker) db = .ok j) :
    ∃ expires, j.leaseExpiresAt = some expires ∧ HasLease id worker expires db := by
  obtain ⟨id', worker', expires, hid, hw, hget, hs, ho, hx, -⟩ := assertOwner_ok h
  obtain rfl := Option.some.inj hid
  obtain rfl := Option.some.inj hw
  exact ⟨expires, hx, j, hget, hs, ho, hx⟩

/-- A purge marker that was not there before is set by a purge. -/
theorem marked_of_event {id : Uuid} {at_ : Timestamp} {e : Event (exec sha256)}
    (h : PurgedAt id at_ e.after) :
    PurgedAt id at_ e.before ∨ ∃ counts, e.reply = .job (.purged id at_ counts) := by
  obtain ⟨j', hj', hat⟩ := h
  have hm := move_of_event e id
  rw [hj'] at hm
  generalize hj : e.before.jobs.get? id = j at hm
  generalize e.reply = reply at hm ⊢
  generalize e.input = x at hm
  cases hm with
  | same => exact .inl ⟨j', hj, hat⟩
  | created _ _ _ hnone =>
      rw [hnone] at hat
      cases hat
  | terminalized => exact .inl ⟨_, hj, hat⟩
  | claimed => exact .inl ⟨_, hj, hat⟩
  | purged =>
      obtain rfl := Table.get?_key hj
      obtain rfl := Option.some.inj hat
      exact .inr ⟨_, rfl⟩
  | released => exact .inl ⟨_, hj, hat⟩
  | finalized => exact .inl ⟨_, hj, hat⟩

/-! ## Whole runs -/

/-- **The state machine of account deletion jobs.** In every run of the procedures, with any
clocks, from a table that keeps its constraints:

* the constraints are kept, and no procedure runs into one;
* attempts stay at or below the ceiling, and a job at the ceiling is not leased again;
* a purge marker is set by a purge and stays until the row of the completed job is removed;
* a completed job was purged and has no user id;
* in one state two workers cannot both pass `account_deletion_assert_owner` for a job; over a run
  they can only if the first gave the job up or its lease ran out;
* there is one job at most for a user reference and operation id. -/
theorem job_state_machine {db db' : Db} {es : List (Event (exec sha256))} (hrun : Run db es db')
    (hok : db.JobsOk) :
    (db'.JobsOk ∧ ∀ e ∈ es, ledgerBody e.input e.before ≠ some (.error .checkViolation)) ∧
    (∀ j ∈ db'.jobs.rows, j.attempts ≤ maxAttempts) ∧
    (∀ id, Exhausted id db → ∀ pre e post, es = pre ++ e :: post → Leases id e →
      ∃ e' ∈ pre, Forgotten id e') ∧
    (∀ id at_, PurgedAt id at_ db → PurgedAt id at_ db' ∨ ∃ e ∈ es, Forgotten id e) ∧
    (∀ e ∈ es, ∀ id at_, PurgedAt id at_ e.after →
      PurgedAt id at_ e.before ∨ ∃ counts, e.reply = .job (.purged id at_ counts)) ∧
    (∀ j ∈ db'.jobs.rows, j.status = .completed → j.dbPurgedAt.isSome ∧ j.userId = none) ∧
    (∀ id w₁ w₂ c₁ c₂ j₁ j₂, assertOwner c₁ (some id) (some w₁) db' = .ok j₁ →
      assertOwner c₂ (some id) (some w₂) db' = .ok j₂ → w₁ = w₂) ∧
    (∀ id w₁ w₂ c₁ c₂ j₁ j₂, assertOwner c₁ (some id) (some w₁) db = .ok j₁ →
      assertOwner c₂ (some id) (some w₂) db' = .ok j₂ → w₁ ≠ w₂ →
      ∃ e ∈ es, GivesUp id w₁ e ∨
        ∃ expires, j₁.leaseExpiresAt = some expires ∧ expires < e.input.1.vNow) ∧
    (∀ j ∈ db'.jobs.rows, ∀ k ∈ db'.jobs.rows, j.userRefHmac = k.userRefHmac →
      j.operationId = k.operationId → j = k) := by
  obtain ⟨hok', hstates⟩ := hrun.invariant hok fun e _ => jobsOk_kept e
  have howner : ∀ {s id w₁ w₂ x₁ x₂}, HasLease id w₁ x₁ s → HasLease id w₂ x₂ s → w₁ = w₂ := by
    rintro s id w₁ w₂ x₁ x₂ ⟨j₁, hj₁, -, ho₁, -⟩ ⟨j₂, hj₂, -, ho₂, -⟩
    rw [hj₁] at hj₂
    obtain rfl := Option.some.inj hj₂
    rw [ho₁] at ho₂
    exact Option.some.inj ho₂
  refine ⟨⟨hok', ?_⟩, ?_, ?_, ?_, ?_, ?_, ?_, ?_, hok'.unique⟩
  · intro e he
    exact ledgerBody_fine (hstates e he).1 e.input
  · intro j hj
    exact (hok'.checked j hj).attempts.2
  · rintro id hex pre e post rfl ⟨l, hreply, rfl⟩
    obtain ⟨m, hpre, hrest⟩ := hrun.split
    obtain ⟨rfl, -⟩ := hrest.cons_inv
    rcases hpre.persists hex fun e _ => exhausted_kept with ⟨j, hj, hmax⟩ | hgone
    · obtain ⟨_, _, _, _, _, _, j', -, -, hj', hlt, -⟩ := leased_of_event hreply
      rw [hj] at hj'
      obtain rfl := Option.some.inj hj'
      omega
    · exact hgone
  · intro id at_ h
    exact hrun.persists h fun e _ => purgedAt_kept
  · intro e _ id at_ h
    exact marked_of_event h
  · intro j hj hdone
    exact ⟨(hok'.checked j hj).purged hdone, (hok'.checked j hj).identity.mp hdone⟩
  · intro id w₁ w₂ c₁ c₂ j₁ j₂ h₁ h₂
    obtain ⟨x₁, -, hl₁⟩ := hasLease_of_assertOwner h₁
    obtain ⟨x₂, -, hl₂⟩ := hasLease_of_assertOwner h₂
    exact howner hl₁ hl₂
  · intro id w₁ w₂ c₁ c₂ j₁ j₂ h₁ h₂ hne
    obtain ⟨x₁, hx₁, hl₁⟩ := hasLease_of_assertOwner h₁
    obtain ⟨x₂, -, hl₂⟩ := hasLease_of_assertOwner h₂
    rcases hrun.persists hl₁ fun e _ => lease_kept with hl | ⟨e, he, hend⟩
    · exact absurd (howner hl hl₂) hne
    · exact ⟨e, he, hend.imp_right fun hlt => ⟨x₁, hx₁, hlt⟩⟩

end

/-! ## Jobs of one user -/

def jobOne : Uuid := ⟨py "33333333-3333-4333-8333-333333333333", by decide⟩

def jobTwo : Uuid := ⟨py "44444444-4444-4444-8444-444444444444", by decide⟩

/-- A request for the deletion of one account, under the operation id `operation`. -/
def deletionRequest (operation : Uuid) : DeletionRequest :=
  { authenticatedUserId := some (py "u1")
    userRefHmac := some (List.replicate 64 (cp 'a'))
    operationId := some operation
    intentFingerprint := some (List.replicate 64 (cp 'b')) }

/-- The job, requested at time 0. -/
def firstRequest : Event (exec id) :=
  .of _ (⟨0, 0, 0⟩, .requestDeletion jobOne (deletionRequest jobOne)) Db.empty

/-- The same account again, under another operation id. -/
def secondRequest : Event (exec id) :=
  .of _ (⟨0, 0, 0⟩, .requestDeletion jobTwo (deletionRequest jobTwo)) firstRequest.after

/-- **One user can have two open jobs.** -/
theorem two_open_jobs : Run Db.empty [firstRequest, secondRequest] secondRequest.after ∧
    ∃ j ∈ secondRequest.after.jobs.rows, ∃ k ∈ secondRequest.after.jobs.rows, j ≠ k ∧
      j.userId = some (py "u1") ∧ k.userId = some (py "u1") ∧ j.status = .pending ∧
      k.status = .pending := by
  refine ⟨.cons firstRequest (.cons secondRequest (.nil _)), ?_⟩
  decide +kernel

/-- A worker takes the job, purges and finishes. -/
def firstLease : Event (exec id) :=
  .of _ (⟨1, 1, 1⟩, .acquireLease (fun _ => false) (fun _ => 0) ⟨some (py "w1"), some 60, some 1⟩)
    firstRequest.after

def firstPurge : Event (exec id) :=
  .of _ (⟨2, 2, 2⟩, .purge ⟨some jobOne, some (py "w1"), some (List.replicate 64 (cp 'b'))⟩)
    firstLease.after

def firstFinalize : Event (exec id) :=
  .of _ (⟨3, 3, 3⟩, .finalize (some jobOne) (some (py "w1"))) firstPurge.after

theorem firstJob_run : Run Db.empty [firstRequest, firstLease, firstPurge, firstFinalize]
    firstFinalize.after :=
  .cons firstRequest (.cons firstLease (.cons firstPurge (.cons firstFinalize (.nil _))))

theorem empty_jobsOk : Db.empty.JobsOk := by
  have hnone : ∀ j, j ∉ Db.empty.jobs.rows := fun _ => List.not_mem_nil
  exact ⟨fun j hj => absurd hj (hnone j), fun j hj => absurd hj (hnone j)⟩

theorem job_state_machine_sample :
    (∃ j ∈ firstFinalize.after.jobs.rows, j.status = .completed) ∧
      ∀ j ∈ firstFinalize.after.jobs.rows, j.status = .completed →
        j.dbPurgedAt.isSome ∧ j.userId = none := by
  refine ⟨by decide +kernel, ?_⟩
  obtain ⟨-, -, -, -, -, hdone, -⟩ := job_state_machine firstJob_run empty_jobsOk
  exact hdone

end Katherine.Cloud
