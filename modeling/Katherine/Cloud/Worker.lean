import Katherine.Cloud.Jobs

/-!
# The account deletion worker

`AccountDeletionWorker`: any number of instances, each in a phase of `run_once`, over one
database. Between two phases an instance does one thing: it calls a ledger procedure or
it calls the Auth port. Anything can happen in between: another instance moves, an
instance crashes, the database runs calls of somebody else.

A call to the database can be answered, or it can be lost. A lost call is an error to the
instance, which goes on without it; the database may still run it at any later time.
There is no stored flag for "the Auth user is gone": what stands in its place is that
only an instance the Auth port told so calls `account_deletion_finalize`.
-/

namespace Katherine.Cloud

open Py Sql Pg Runs

/-! ## One instance -/

/-- `_WORKER_ID_RE.match`. In Python `$` also matches before a newline at the end. -/
def isWorkerId (s : PyStr) : Bool :=
  isToken 64 s || (decide (s.getLast? = some (cp '\n')) && isToken 64 s.dropLast)

/-- `AccountDeletionWorkerConfig`, with what `__post_init__` checks. -/
structure WorkerConfig where
  workerId : PyStr
  leaseSeconds : Int
  maxBatch : Nat
  workerIdOk : isWorkerId workerId = true
  leaseOk : 1 ≤ leaseSeconds ∧ leaseSeconds ≤ 3600
  batchOk : 1 ≤ maxBatch ∧ maxBatch ≤ 1000

/-- `AcquiredJob`, as far as the worker reads it. -/
structure AcquiredJob where
  jobId : Uuid
  userId : PyStr
  dbPurgedAt : Option Timestamp
  intentFingerprint : PyStr

/-- `_parse_acquired_job`: the user id must be there. -/
def AcquiredJob.ofJob (j : Job) : Option AcquiredJob :=
  j.userId.map fun userId =>
    { jobId := j.jobId, userId, dbPurgedAt := j.dbPurgedAt, intentFingerprint := j.intentFingerprint }

/-- `AuthDeleteResult`. -/
inductive AuthDeleteResult
  | deleted
  | alreadyAbsent
  | authError (code : Option PyStr)
  /-- An outcome the worker does not know. -/
  | unknown
deriving DecidableEq

/-- The Auth port says that the user is gone. -/
def AuthDeleteResult.isGone : AuthDeleteResult → Bool
  | .deleted => true
  | .alreadyAbsent => true
  | _ => false

/-- `WorkerRunResult`. -/
structure WorkerRunResult where
  noWork : Bool := false
  completed : Nat := 0
  retryScheduled : Nat := 0
  failed : Nat := 0
  leaseLost : Nat := 0

/-- Where an instance is. -/
inductive Phase
  /-- Not running, or crashed. -/
  | stopped
  /-- At the head of the loop of `run_once`. -/
  | acquiring
  | purging (job : AcquiredJob)
  /-- About to call the Auth port. -/
  | authorizing (job : AcquiredJob)
  | retrying (job : AcquiredJob)
  | failing (job : AcquiredJob) (code : Option PyStr)
  /-- The user is gone; about to finalize. -/
  | confirmed (job : AcquiredJob)

structure WorkerState where
  phase : Phase
  /-- Iterations of the loop left, this one included. -/
  left : Nat
  claimedAny : Bool
  result : WorkerRunResult

/-- Where `_process_job` starts: a job that carries the purge marker skips the purge. -/
def AcquiredJob.start (job : AcquiredJob) : Phase :=
  if job.dbPurgedAt = none then .purging job else .authorizing job

/-- The loop ended without an exception. -/
def WorkerState.finish (w : WorkerState) : WorkerState :=
  { w with
    phase := .stopped
    result := if w.claimedAny then w.result else { w.result with noWork := true } }

/-- `_process_job` returned: the next iteration, if there is one. -/
def WorkerState.next (result : WorkerRunResult) (w : WorkerState) : WorkerState :=
  if w.left ≤ 1 then { w with left := 0, result }.finish
  else { w with phase := .acquiring, left := w.left - 1, result }

/-- What a call does to the instance when it fails with `PersistenceError`. -/
def WorkerState.onError (w : WorkerState) : WorkerState :=
  match w.phase with
  | .purging _ => w.next { w.result with failed := w.result.failed + 1 }
  | .retrying _ => w.next { w.result with leaseLost := w.result.leaseLost + 1 }
  | .failing _ _ => w.next { w.result with leaseLost := w.result.leaseLost + 1 }
  | .confirmed _ => w.next { w.result with leaseLost := w.result.leaseLost + 1 }
  -- a failure of the acquisition itself leaves `run_once`
  | _ => { w with phase := .stopped }

/-- What the answer of a ledger procedure does to the instance. An answer its parser does not
accept is a `PersistenceError`. -/
def WorkerState.onReply (w : WorkerState) (reply : Reply) : WorkerState :=
  match w.phase, reply with
  | .acquiring, .job .notFound => w.finish
  | .acquiring, .job (.leased j) =>
      match AcquiredJob.ofJob j with
      | some job => { w with phase := job.start, claimedAny := true }
      | none => w.onError
  | .purging job, .job (.purged ..) => { w with phase := .authorizing job }
  | .purging job, .job (.alreadyPurged ..) => { w with phase := .authorizing job }
  | .retrying _, .job (.retryScheduled ..) =>
      w.next { w.result with retryScheduled := w.result.retryScheduled + 1 }
  | .retrying _, .job (.failed _ code _) =>
      if code = py "attempts_exhausted" then w.next { w.result with failed := w.result.failed + 1 }
      else w.onError
  | .failing _ _, .job (.failed ..) => w.next { w.result with failed := w.result.failed + 1 }
  | .confirmed _, .job (.completed _ _ (some _)) =>
      w.next { w.result with completed := w.result.completed + 1 }
  -- `finalize` is not guarded against `ValidationError`
  | .confirmed _, .job (.error e) =>
      if e.code = .stateConflict then w.onError else { w with phase := .stopped }
  | _, _ => w.onError

/-- What the Auth port's answer does to the instance. -/
def WorkerState.onAuth (w : WorkerState) (job : AcquiredJob) (r : AuthDeleteResult) : WorkerState :=
  match r with
  | .authError code =>
      if code = some (py "auth_unavailable") then { w with phase := .retrying job }
      else { w with phase := .failing job code }
  | .unknown => { w with phase := .failing job (some (py "auth_failed")) }
  | _ => { w with phase := .confirmed job }

/-- The procedure an instance calls next. `locked` and `prio` are the database's part of a scan. -/
def WorkerConfig.call (cfg : WorkerConfig) (locked : Uuid → Bool) (prio : Job → Nat) :
    Phase → Option Call
  | .acquiring =>
      some (.acquireLease locked prio ⟨some cfg.workerId, some cfg.leaseSeconds, some cfg.maxBatch⟩)
  | .purging job => some (.purge ⟨some job.jobId, some cfg.workerId, some job.intentFingerprint⟩)
  | .retrying job => some (.recordRetry (some job.jobId) (some cfg.workerId))
  | .failing job code => some (.recordFailure (some job.jobId) (some cfg.workerId) code)
  | .confirmed job => some (.finalize (some job.jobId) (some cfg.workerId))
  | _ => none

/-! ## All instances -/

/-- The database, the instances, and the calls that were lost and may still run. -/
structure Fleet where
  db : Db
  workers : Nat → WorkerState
  inflight : List (Nat × Phase)

/-- The calls that only workers make. -/
def Call.isWorkerRpc : Call → Bool
  | .acquireLease .. => true
  | .purge .. => true
  | .recordFailure .. => true
  | .recordRetry .. => true
  | .finalize .. => true
  | _ => false

inductive Action
  /-- `run_once` is called on an instance that is not running. -/
  | start (i : Nat)
  /-- The next call of an instance runs and is answered. -/
  | rpc (i : Nat) (t : Times) (locked : Uuid → Bool) (prio : Job → Nat)
  /-- The next call of an instance is lost. -/
  | lose (i : Nat)
  /-- A lost call runs after all. -/
  | late (n : Nat) (t : Times) (locked : Uuid → Bool) (prio : Job → Nat)
  /-- An instance calls the Auth port, which answers. -/
  | auth (i : Nat) (r : AuthDeleteResult)
  | crash (i : Nat)
  /-- Somebody else's call. -/
  | other (t : Times) (call : { c : Call // c.isWorkerRpc = false })

/-- What can be seen of a step. -/
inductive Observed
  | silent
  /-- The database ran a call. -/
  | ran (t : Times) (call : Call) (reply : Reply)
  /-- The Auth port was called for a job, and answered. -/
  | asked (job : AcquiredJob) (r : AuthDeleteResult)

def Fleet.setWorker (s : Fleet) (i : Nat) (w : WorkerState) : Fleet :=
  { s with workers := Function.update s.workers i w }

section

variable (sha256 : PyStr → PyStr) (cfg : Nat → WorkerConfig)

/-- The database runs a call. -/
def Fleet.exec (s : Fleet) (t : Times) (call : Call) : Observed × Fleet :=
  let (reply, db) := Cloud.exec sha256 (t, call) s.db
  (.ran t call reply, { s with db })

def fleetStep : Action → Fleet → Observed × Fleet
  | .start i, s =>
      match (s.workers i).phase with
      | .stopped => (.silent, s.setWorker i ⟨.acquiring, (cfg i).maxBatch, false, {}⟩)
      | _ => (.silent, s)
  | .rpc i t locked prio, s =>
      match (cfg i).call locked prio (s.workers i).phase with
      | some call =>
          let (reply, db) := Cloud.exec sha256 (t, call) s.db
          (.ran t call reply, { s with db }.setWorker i ((s.workers i).onReply reply))
      | none => (.silent, s)
  | .lose i, s =>
      match (s.workers i).phase with
      | .stopped => (.silent, s)
      | .authorizing _ => (.silent, s)
      | phase =>
          (.silent, { s with inflight := (i, phase) :: s.inflight }.setWorker i
            (s.workers i).onError)
  | .late n t locked prio, s =>
      match s.inflight[n]? with
      | some (i, phase) =>
          match (cfg i).call locked prio phase with
          | some call => Fleet.exec sha256 { s with inflight := s.inflight.eraseIdx n } t call
          | none => (.silent, s)
      | none => (.silent, s)
  | .auth i r, s =>
      match (s.workers i).phase with
      | .authorizing job => (.asked job r, s.setWorker i ((s.workers i).onAuth job r))
      | _ => (.silent, s)
  | .crash i, s => (.silent, s.setWorker i { s.workers i with phase := .stopped })
  | .other t call, s => Fleet.exec sha256 s t call.1

end

variable {sha256 : PyStr → PyStr} {cfg : Nat → WorkerConfig}

/-! ## What a step can do -/

/-- An instance, or a lost call of one, is in the phase. -/
def Fleet.Holds (s : Fleet) (i : Nat) (phase : Phase) : Prop :=
  (s.workers i).phase = phase ∨ (i, phase) ∈ s.inflight

/-- The phases that a step can bring an instance to. -/
inductive Gained (s : Fleet) : Observed → Phase → Prop
  | stopped (o : Observed) : Gained s o .stopped
  | acquiring (o : Observed) : Gained s o .acquiring
  | leased {t : Times} {call : Call} {j : Job} {job : AcquiredJob}
      (hj : AcquiredJob.ofJob j = some job) : Gained s (.ran t call (.job (.leased j))) job.start
  | purged {t : Times} {i : Nat} {job : AcquiredJob} {worker fingerprint : Option PyStr}
      {reply : JobReply} (hold : s.Holds i (.purging job))
      (hreply : (∃ id at_ counts, reply = .purged id at_ counts) ∨
        ∃ id at_, reply = .alreadyPurged id at_) :
      Gained s (.ran t (.purge ⟨some job.jobId, worker, fingerprint⟩) (.job reply)) (.authorizing job)
  | retrying {job : AcquiredJob} {r : AuthDeleteResult} : Gained s (.asked job r) (.retrying job)
  | failing {job : AcquiredJob} {r : AuthDeleteResult} {code : Option PyStr} :
      Gained s (.asked job r) (.failing job code)
  | confirmed {i : Nat} {job : AcquiredJob} {r : AuthDeleteResult}
      (hold : s.Holds i (.authorizing job)) (hgone : r.isGone = true) :
      Gained s (.asked job r) (.confirmed job)

theorem next_phase (w : WorkerState) (result : WorkerRunResult) :
    (w.next result).phase = .stopped ∨ (w.next result).phase = .acquiring := by
  unfold WorkerState.next
  split
  · exact .inl rfl
  · exact .inr rfl

theorem onError_phase (w : WorkerState) :
    w.onError.phase = .stopped ∨ w.onError.phase = .acquiring := by
  unfold WorkerState.onError
  split
  · exact next_phase w _
  · exact next_phase w _
  · exact next_phase w _
  · exact next_phase w _
  · exact .inl rfl

theorem gained_idle (s : Fleet) (o : Observed) {phase : Phase}
    (h : phase = .stopped ∨ phase = .acquiring) : Gained s o phase := by
  rcases h with rfl | rfl
  · exact .stopped o
  · exact .acquiring o

theorem gained_onReply {s : Fleet} {i : Nat} {t : Times} {locked : Uuid → Bool} {prio : Job → Nat}
    {call : Call} {reply : Reply}
    (hcall : (cfg i).call locked prio (s.workers i).phase = some call) :
    Gained s (.ran t call reply) ((s.workers i).onReply reply).phase := by
  unfold WorkerState.onReply
  split
  · exact .stopped _
  · split
    · rename_i hj
      exact .leased hj
    · exact gained_idle _ _ (onError_phase _)
  · rename_i job _ _ _ hphase
    rw [hphase] at hcall
    cases hcall
    exact .purged (.inl hphase) (.inl ⟨_, _, _, rfl⟩)
  · rename_i job _ _ hphase
    rw [hphase] at hcall
    cases hcall
    exact .purged (.inl hphase) (.inr ⟨_, _, rfl⟩)
  · exact gained_idle _ _ (next_phase _ _)
  · split
    · exact gained_idle _ _ (next_phase _ _)
    · exact gained_idle _ _ (onError_phase _)
  · exact gained_idle _ _ (next_phase _ _)
  · exact gained_idle _ _ (next_phase _ _)
  · split
    · exact gained_idle _ _ (onError_phase _)
    · exact .stopped _
  · exact gained_idle _ _ (onError_phase _)

theorem gained_onAuth {s : Fleet} {i : Nat} {job : AcquiredJob} {r : AuthDeleteResult}
    (hphase : (s.workers i).phase = .authorizing job) :
    Gained s (.asked job r) ((s.workers i).onAuth job r).phase := by
  unfold WorkerState.onAuth
  split
  · split
    · exact .retrying
    · exact .failing
  · exact .failing
  · rename_i hne hne'
    cases r with
    | deleted => exact .confirmed (.inl hphase) rfl
    | alreadyAbsent => exact .confirmed (.inl hphase) rfl
    | authError code => exact absurd rfl (hne code)
    | unknown => exact absurd rfl hne'

/-- Setting the state of one instance adds its phase and no other. -/
theorem holds_setWorker {s : Fleet} {i k : Nat} {w : WorkerState} {phase : Phase}
    (h : (s.setWorker i w).Holds k phase) : s.Holds k phase ∨ phase = w.phase := by
  rcases h with h | h
  · by_cases hk : k = i
    · subst hk
      simp only [Fleet.setWorker, Function.update_self] at h
      exact .inr h.symm
    · simp only [Fleet.setWorker, Function.update_of_ne hk] at h
      exact .inl (.inl h)
  · exact .inl (.inr h)

/-- After a step an instance is in a phase it was in, or in one the step brought it to. -/
theorem gained_of_step (x : Action) (s : Fleet) {k : Nat} {phase : Phase}
    (h : (fleetStep sha256 cfg x s).2.Holds k phase) :
    s.Holds k phase ∨ Gained s (fleetStep sha256 cfg x s).1 phase := by
  cases x with
  | start i =>
      simp only [fleetStep] at h ⊢
      split at h
      · rcases holds_setWorker h with h | rfl
        · exact .inl h
        · exact .inr (.acquiring _)
      · exact .inl h
  | rpc i t locked prio =>
      simp only [fleetStep] at h ⊢
      split at h
      · rename_i call hcall
        rcases holds_setWorker h with h | rfl
        · exact .inl h
        · exact .inr (gained_onReply hcall)
      · exact .inl h
  | lose i =>
      simp only [fleetStep] at h ⊢
      split at h
      · exact .inl h
      · exact .inl h
      · rcases holds_setWorker h with (h | h) | rfl
        · exact .inl (.inl h)
        · rcases List.mem_cons.mp h with h | h
          · obtain ⟨rfl, rfl⟩ := Prod.mk.inj h
            exact .inl (.inl rfl)
          · exact .inl (.inr h)
        · exact .inr (gained_idle _ _ (onError_phase _))
  | late n t locked prio =>
      simp only [fleetStep] at h ⊢
      split at h
      · split at h
        · rcases h with h | h
          · exact .inl (.inl h)
          · exact .inl (.inr (List.mem_of_mem_eraseIdx h))
        · exact .inl h
      · exact .inl h
  | auth i r =>
      simp only [fleetStep] at h ⊢
      split at h
      · rename_i job hphase
        rcases holds_setWorker h with h | rfl
        · exact .inl h
        · exact .inr (gained_onAuth hphase)
      · exact .inl h
  | crash i =>
      rcases holds_setWorker h with h | rfl
      · exact .inl h
      · exact .inr (.stopped _)
  | other t call => exact .inl h

/-- Somebody who may make the call: not a worker, or a worker in the phase for it. -/
def Fleet.Makes (cfg : Nat → WorkerConfig) (s : Fleet) (call : Call) : Prop :=
  call.isWorkerRpc = false ∨ ∃ i phase locked prio, s.Holds i phase ∧
    (cfg i).call locked prio phase = some call

/-- A step runs one call, or leaves the database alone. -/
theorem db_of_step (x : Action) (s : Fleet) :
    (fleetStep sha256 cfg x s).2.db = s.db ∧ (∀ t call reply,
        (fleetStep sha256 cfg x s).1 ≠ .ran t call reply) ∨
      ∃ t call, s.Makes cfg call ∧ (fleetStep sha256 cfg x s).1 =
        .ran t call (exec sha256 (t, call) s.db).1 ∧
        (fleetStep sha256 cfg x s).2.db = (exec sha256 (t, call) s.db).2 := by
  have hsilent : ∀ t call reply, Observed.silent ≠ .ran t call reply := by
    intro t call reply h
    cases h
  have hasked : ∀ job r t call reply, Observed.asked job r ≠ .ran t call reply := by
    intro job r t call reply h
    cases h
  cases x with
  | start i =>
      simp only [fleetStep]
      split
      · exact .inl ⟨rfl, hsilent⟩
      · exact .inl ⟨rfl, hsilent⟩
  | rpc i t locked prio =>
      simp only [fleetStep]
      split
      · rename_i call hcall
        exact .inr ⟨t, call, .inr ⟨i, _, locked, prio, .inl rfl, hcall⟩, rfl, rfl⟩
      · exact .inl ⟨rfl, hsilent⟩
  | lose i =>
      simp only [fleetStep]
      split
      · exact .inl ⟨rfl, hsilent⟩
      · exact .inl ⟨rfl, hsilent⟩
      · exact .inl ⟨rfl, hsilent⟩
  | late n t locked prio =>
      simp only [fleetStep]
      split
      · rename_i i phase hn
        split
        · rename_i call hcall
          refine .inr ⟨t, call, .inr ⟨i, phase, locked, prio, .inr ?_, hcall⟩, rfl, rfl⟩
          exact List.mem_of_getElem? hn
        · exact .inl ⟨rfl, hsilent⟩
      · exact .inl ⟨rfl, hsilent⟩
  | auth i r =>
      simp only [fleetStep]
      split
      · exact .inl ⟨rfl, hasked _ _⟩
      · exact .inl ⟨rfl, hsilent⟩
  | crash i => exact .inl ⟨rfl, hsilent⟩
  | other t call => exact .inr ⟨t, call.1, .inl call.2, rfl, rfl⟩

/-- A step either leaves the database alone or runs a call. -/
theorem db_of_event (e : Event (fleetStep sha256 cfg)) :
    e.after.db = e.before.db ∧ (∀ t call reply, e.reply ≠ .ran t call reply) ∨
      ∃ t call, e.before.Makes cfg call ∧ e.reply = .ran t call (exec sha256 (t, call) e.before.db).1 ∧
        e.after.db = (exec sha256 (t, call) e.before.db).2 := by
  have hstep := @db_of_step sha256 cfg e.input e.before
  rw [e.executed] at hstep
  exact hstep

/-- The database's side of a step that ran a call. -/
theorem event_of_ran {e : Event (fleetStep sha256 cfg)} {t : Times} {call : Call} {reply : Reply}
    (h : e.reply = .ran t call reply) : e.before.Makes cfg call ∧
      ∃ d : Event (exec sha256), d.input = (t, call) ∧ d.before = e.before.db ∧ d.reply = reply ∧
        d.after = e.after.db := by
  rcases db_of_event e with ⟨-, hne⟩ | ⟨t', call', hmakes, hreply, hdb⟩
  · exact absurd h (hne t call reply)
  · rw [h] at hreply
    injection hreply with ht hcall hreply
    subst ht hcall hreply
    exact ⟨hmakes, ⟨(t, call), e.before.db, _, e.after.db, Prod.ext rfl hdb.symm⟩, rfl, rfl, rfl, rfl⟩

/-- A step either leaves the database alone or runs a call that moves each row of the job table. -/
theorem row_of_step (e : Event (fleetStep sha256 cfg)) :
    e.after.db = e.before.db ∨ ∃ t call reply, e.reply = .ran t call reply ∧ ∀ id,
      Move e.before.db (t, call) reply (e.before.db.jobs.get? id) (e.after.db.jobs.get? id) := by
  rcases db_of_event e with ⟨hdb, -⟩ | ⟨t, call, -, hreply, hdb⟩
  · exact .inl hdb
  · refine .inr ⟨t, call, _, hreply, fun id => ?_⟩
    rw [hdb]
    exact move_exec (t, call) e.before.db id

/-- The Auth port is called only by an instance that is about to. -/
theorem asked_of_step {e : Event (fleetStep sha256 cfg)} {job : AcquiredJob} {r : AuthDeleteResult}
    (h : e.reply = .asked job r) : ∃ i, e.before.Holds i (.authorizing job) := by
  have key : ∀ (x : Action) (s : Fleet), (fleetStep sha256 cfg x s).1 = .asked job r →
      ∃ i, s.Holds i (.authorizing job) := by
    intro x s hx
    cases x with
    | auth i r' =>
        simp only [fleetStep] at hx
        split at hx
        · rename_i job' hphase
          cases hx
          exact ⟨i, .inl hphase⟩
        · cases hx
    | start i =>
        simp only [fleetStep] at hx
        split at hx <;> cases hx
    | rpc i t locked prio =>
        simp only [fleetStep] at hx
        split at hx <;> cases hx
    | lose i =>
        simp only [fleetStep] at hx
        split at hx <;> cases hx
    | late n t locked prio =>
        simp only [fleetStep] at hx
        split at hx
        · split at hx <;> cases hx
        · cases hx
    | crash i => cases hx
    | other t call => cases hx
  exact key e.input e.before (by rw [e.executed]; exact h)

/-! ## What has happened -/

/-- The database purge of the job was committed, for this user. -/
def PurgeCommitted (id : Uuid) (user : PyStr) (e : Event (fleetStep sha256 cfg)) : Prop :=
  (∃ t a at_ counts, e.reply = .ran t (.purge a) (.job (.purged id at_ counts))) ∧
    ∃ j, e.before.db.jobs.get? id = some j ∧ j.userId = some user

/-- The Auth port was asked, for this job, to delete this user. -/
def AuthAsked (id : Uuid) (user : PyStr) (e : Event (fleetStep sha256 cfg)) : Prop :=
  ∃ job r, e.reply = .asked job r ∧ job.jobId = id ∧ job.userId = user

/-- The Auth port reported, for this job, that this user is deleted or absent. -/
def AuthGone (id : Uuid) (user : PyStr) (e : Event (fleetStep sha256 cfg)) : Prop :=
  ∃ job r, e.reply = .asked job r ∧ r.isGone = true ∧ job.jobId = id ∧ job.userId = user

/-- The step removed the row of a completed job. -/
def RowRemoved (id : Uuid) (e : Event (fleetStep sha256 cfg)) : Prop :=
  ∃ j, e.before.db.jobs.get? id = some j ∧ j.status = .completed ∧ e.after.db.jobs.get? id = none

/-- What an instance once read about a job is still so: the row has the user it had, or the job was
purged for that user and is completed or gone. -/
def Snapshot (pre : List (Event (fleetStep sha256 cfg))) (s : Fleet) (id : Uuid) (user : PyStr) :
    Prop :=
  (∃ j, s.db.jobs.get? id = some j ∧ j.userId = some user) ∨
    (∃ e ∈ pre, PurgeCommitted id user e) ∧
      ((∃ j, s.db.jobs.get? id = some j ∧ j.status = .completed) ∨ ∃ e ∈ pre, RowRemoved id e)

/-- What must have happened for an instance to be in a phase. -/
def PhaseOk (pre : List (Event (fleetStep sha256 cfg))) (s : Fleet) : Phase → Prop
  | .purging job => Snapshot pre s job.jobId job.userId
  | .authorizing job => Snapshot pre s job.jobId job.userId ∧
      ∃ e ∈ pre, PurgeCommitted job.jobId job.userId e
  | .confirmed job => Snapshot pre s job.jobId job.userId ∧
      ∃ e ∈ pre, AuthGone job.jobId job.userId e
  | _ => True

/-- The state of the fleet fits what has happened. -/
structure FleetInv (pre : List (Event (fleetStep sha256 cfg))) (s : Fleet) : Prop where
  jobs : s.db.JobsOk
  marked : ∀ id j user, s.db.jobs.get? id = some j → j.dbPurgedAt.isSome → j.userId = some user →
    ∃ e ∈ pre, PurgeCommitted id user e
  phases : ∀ i phase, s.Holds i phase → PhaseOk pre s phase

/-- What has happened stays so. -/
theorem happened {pre : List (Event (fleetStep sha256 cfg))} {e : Event (fleetStep sha256 cfg)}
    {P : Event (fleetStep sha256 cfg) → Prop} (h : ∃ e' ∈ pre, P e') : ∃ e' ∈ pre ++ [e], P e' := by
  obtain ⟨e', he', hP⟩ := h
  exact ⟨e', List.mem_append_left _ he', hP⟩

theorem happens {pre : List (Event (fleetStep sha256 cfg))} {e : Event (fleetStep sha256 cfg)}
    {P : Event (fleetStep sha256 cfg) → Prop} (h : P e) : ∃ e' ∈ pre ++ [e], P e' :=
  ⟨e, List.mem_append_right _ (List.mem_singleton_self e), h⟩

/-! ## Every step keeps it -/

section Step

variable {pre : List (Event (fleetStep sha256 cfg))} {e : Event (fleetStep sha256 cfg)}

theorem fleetJobs_kept (h : e.before.db.JobsOk) : e.after.db.JobsOk := by
  rcases db_of_event e with ⟨hdb, -⟩ | ⟨t, call, -, -, hdb⟩
  · rw [hdb]
    exact h
  · rw [hdb]
    exact jobsOk_kept (.of (exec sha256) (t, call) e.before.db) h

theorem marked_kept (h : FleetInv pre e.before) (id : Uuid) (j' : Job) (user : PyStr)
    (hj' : e.after.db.jobs.get? id = some j') (hmark : j'.dbPurgedAt.isSome)
    (huser : j'.userId = some user) : ∃ e' ∈ pre ++ [e], PurgeCommitted id user e' := by
  rcases row_of_step e with hdb | ⟨t, call, reply, hreply, hmove⟩
  · rw [hdb] at hj'
    exact happened (h.marked id j' user hj' hmark huser)
  · have hm := hmove id
    rw [hj'] at hm
    generalize hj : e.before.db.jobs.get? id = j at hm
    cases hm with
    | same => exact happened (h.marked id j' user hj hmark huser)
    | created _ _ _ hnone =>
        rw [hnone] at hmark
        cases hmark
    | terminalized => exact happened (h.marked id _ user hj hmark huser)
    | claimed => exact happened (h.marked id _ user hj hmark huser)
    | purged =>
        obtain rfl := Table.get?_key hj
        exact happens ⟨⟨_, _, _, _, hreply⟩, _, hj, huser⟩
    | released => exact happened (h.marked id _ user hj hmark huser)
    | finalized => cases huser

theorem snapshot_kept (h : FleetInv pre e.before) {id : Uuid} {user : PyStr}
    (hs : Snapshot pre e.before id user) : Snapshot (pre ++ [e]) e.after id user := by
  rcases row_of_step e with hdb | ⟨t, call, reply, hreply, hmove⟩
  · rcases hs with hrow | ⟨hpurge, hrow | hgone⟩
    · exact .inl (by rw [hdb]; exact hrow)
    · exact .inr ⟨happened hpurge, .inl (by rw [hdb]; exact hrow)⟩
    · exact .inr ⟨happened hpurge, .inr (happened hgone)⟩
  · have hm := hmove id
    rcases hs with ⟨j, hj, huser⟩ | ⟨hpurge, ⟨j, hj, hdone⟩ | hgone⟩
    · rw [hj] at hm
      generalize hj' : e.after.db.jobs.get? id = j' at hm
      cases hm with
      | same => exact .inl ⟨j, hj', huser⟩
      | terminalized => exact .inl ⟨_, hj', huser⟩
      | claimed => exact .inl ⟨_, hj', huser⟩
      | purged => exact .inl ⟨_, hj', huser⟩
      | released => exact .inl ⟨_, hj', huser⟩
      | finalized _ hmark =>
          exact .inr ⟨happened (h.marked id j user hj hmark huser), .inl ⟨_, hj', rfl⟩⟩
      | removed hdone =>
          -- a completed job has no user
          have hnone := (h.jobs.checked j (Table.get?_mem hj)).identity.mp hdone
          rw [huser] at hnone
          cases hnone
    · refine .inr ⟨happened hpurge, ?_⟩
      rw [hj] at hm
      generalize hj' : e.after.db.jobs.get? id = j' at hm
      have hstuck : j.status ≠ .processing := by
        rw [hdone]
        decide
      cases hm with
      | same => exact .inl ⟨j, rfl, hdone⟩
      | terminalized _ hs => exact absurd hs hstuck
      | claimed _ _ he => exact absurd hdone (Job.Checked.eligible_active he)
      | purged _ _ howned => exact absurd howned.1 hstuck
      | released _ howned => exact absurd howned.1 hstuck
      | finalized howned => exact absurd howned.1 hstuck
      | removed => exact .inr (happens ⟨j, hj, hdone, hj'⟩)
    · exact .inr ⟨happened hpurge, .inr (happened hgone)⟩

theorem phaseOk_kept (h : FleetInv pre e.before) {phase : Phase} (hp : PhaseOk pre e.before phase) :
    PhaseOk (pre ++ [e]) e.after phase := by
  cases phase with
  | purging job => exact snapshot_kept h hp
  | authorizing job => exact ⟨snapshot_kept h hp.1, happened hp.2⟩
  | confirmed job => exact ⟨snapshot_kept h hp.1, happened hp.2⟩
  | stopped => trivial
  | acquiring => trivial
  | retrying job => trivial
  | failing job code => trivial

/-- The answer to a purge is about the job it was called for. -/
theorem purge_reply {t : Times} {a : PurgeJobArgs} {d : Event (exec sha256)} {r : JobReply}
    (hin : d.input = (t, .purge a)) (hr : d.reply = .job r) :
    (∀ id at_ counts, r = .purged id at_ counts → a.jobId = some id) ∧
      ∀ id at_, r = .alreadyPurged id at_ → a.jobId = some id ∧
        ∃ j, d.before.jobs.get? id = some j ∧ j.dbPurgedAt.isSome := by
  have hbody : r ≠ .raised → purgeBody t.vNow t.clock a d.before = .ok (r, d.after) := by
    intro hne
    have := ledgerBody_of_event hr hne
    rw [hin] at this
    exact Option.some.inj this
  constructor
  · rintro id at_ counts rfl
    have h := hbody nofun
    unfold purgeBody at h
    split at h
    · obtain ⟨j, hj, hrest⟩ := except_bind_ok.mp h
      obtain ⟨owner, hid, -⟩ := owned_of_assertOwner hj
      split at hrest
      · cases hrest
      · split at hrest
        · cases hrest
        · obtain ⟨db₁, -, hout⟩ := except_bind_ok.mp hrest
          cases hout
          exact hid
    · cases h
  · rintro id at_ rfl
    have h := hbody nofun
    unfold purgeBody at h
    split at h
    · obtain ⟨j, hj, hrest⟩ := except_bind_ok.mp h
      obtain ⟨owner, hid, -, hget, -⟩ := owned_of_assertOwner hj
      split at hrest
      · cases hrest
      · split at hrest
        · rename_i at' hmark
          obtain ⟨hreply, -⟩ := Prod.mk.inj (Except.ok.inj hrest)
          cases hreply
          refine ⟨hid, j, hget, ?_⟩
          rw [hmark]
          rfl
        · obtain ⟨db₁, -, hout⟩ := except_bind_ok.mp hrest
          cases hout
    · cases h

/-- A phase the step brings an instance to has its reasons. -/
theorem phaseOk_gained (h : FleetInv pre e.before) {phase : Phase}
    (hg : Gained e.before e.reply phase) : PhaseOk (pre ++ [e]) e.after phase := by
  generalize hreply : e.reply = o at hg
  cases hg with
  | stopped => trivial
  | acquiring => trivial
  | @leased t call j job hj =>
      obtain ⟨-, d, -, -, hd, hafter⟩ := event_of_ran hreply
      obtain ⟨_, _, _, _, _, _, _, -, -, -, -, -, hrow⟩ := leased_of_event hd
      rw [hafter] at hrow
      obtain ⟨user, huser, rfl⟩ := Option.map_eq_some_iff.mp hj
      have hsnap : Snapshot (pre ++ [e]) e.after j.jobId user := .inl ⟨j, hrow, huser⟩
      unfold AcquiredJob.start
      split
      · exact hsnap
      · rename_i hmark
        exact ⟨hsnap, marked_kept h j.jobId j user hrow (Option.isSome_iff_ne_none.mpr hmark) huser⟩
  | @purged t i job worker fingerprint reply hold hr =>
      have hsnap : Snapshot pre e.before job.jobId job.userId := h.phases i _ hold
      refine ⟨snapshot_kept h hsnap, ?_⟩
      obtain ⟨-, d, hin, hbefore, hd, -⟩ := event_of_ran hreply
      obtain ⟨hpurged, halready⟩ := purge_reply hin hd
      rcases hsnap with ⟨j, hj, huser⟩ | ⟨hpurge, -⟩
      · rcases hr with ⟨id, at_, counts, rfl⟩ | ⟨id, at_, rfl⟩
        · obtain rfl := Option.some.inj (hpurged id at_ counts rfl)
          exact happens ⟨⟨_, _, _, _, hreply⟩, j, hj, huser⟩
        · obtain ⟨hid, j', hj', hmark⟩ := halready id at_ rfl
          obtain rfl := Option.some.inj hid
          rw [hbefore, hj] at hj'
          obtain rfl := Option.some.inj hj'
          exact happened (h.marked _ j job.userId hj hmark huser)
      · exact happened hpurge
  | retrying => trivial
  | failing => trivial
  | @confirmed i job r hold hgone =>
      exact ⟨snapshot_kept h (h.phases i _ hold).1, happens ⟨job, r, hreply, hgone, rfl, rfl⟩⟩

theorem fleetInv_step (h : FleetInv pre e.before) : FleetInv (pre ++ [e]) e.after where
  jobs := fleetJobs_kept h.jobs
  marked := marked_kept h
  phases := by
    intro i phase hold
    have hstep := @gained_of_step sha256 cfg e.input e.before i phase
    rw [e.executed] at hstep
    rcases hstep hold with hold | hg
    · exact phaseOk_kept h (h.phases i phase hold)
    · exact phaseOk_gained h hg

end Step

/-! ## Lost leases -/

/-- The call is one that `worker` makes for the job as its owner. -/
def Call.OnBehalf (id : Uuid) (worker : PyStr) (call : Call) : Prop :=
  call.Releases id worker ∨ call = .finalize (some id) (some worker) ∨
    ∃ fingerprint, call = .purge ⟨some id, some worker, fingerprint⟩

/-- Without a lease that is in force, such a call changes nothing. -/
theorem unowned_unchanged {t : Times} {call : Call} {db : Db} {id : Uuid} {worker : PyStr}
    (hcall : call.OnBehalf id worker)
    (hlost : ∀ expires, HasLease id worker expires db → expires ≤ t.clock) :
    (exec sha256 (t, call) db).2 = db := by
  obtain ⟨err, herr⟩ : ∃ err, assertOwner t.clock (some id) (some worker) db = .error err := by
    cases h : assertOwner t.clock (some id) (some worker) db with
    | error err => exact ⟨err, rfl⟩
    | ok j =>
        obtain ⟨_, _, expires, hid, hw, hget, hs, ho, hx, hlt⟩ := assertOwner_ok h
        obtain rfl := Option.some.inj hid
        obtain rfl := Option.some.inj hw
        exact absurd hlt (not_lt.mpr (hlost expires ⟨j, hget, hs, ho, hx⟩))
  have hbind : ∀ f : Job → Except SqlErr (JobReply × Db),
      (assertOwner t.clock (some id) (some worker) db >>= f) = .error err := by
    intro f
    rw [herr]
    rfl
  have hsame : ∀ {body : Except SqlErr (JobReply × Db)},
      (body = .error err ∨ ∃ r, body = .ok (r, db)) → (sanitized body db).2 = db := by
    rintro body (rfl | ⟨r, rfl⟩) <;> rfl
  rcases hcall with (⟨code, rfl⟩ | rfl) | rfl | ⟨fingerprint, rfl⟩
  · refine hsame ?_
    unfold recordFailureBody
    split
    · exact .inr ⟨_, rfl⟩
    · exact .inl (hbind _)
  · exact hsame (.inl (hbind _))
  · exact hsame (.inl (hbind _))
  · refine hsame ?_
    unfold purgeBody
    split
    · exact .inl (hbind _)
    · exact .inr ⟨_, rfl⟩

/-- A lease that was not there before is one that was just given. -/
theorem lease_origin {d : Event (exec sha256)} {id : Uuid} {worker : PyStr} {expires : Timestamp}
    (h : HasLease id worker expires d.after) : HasLease id worker expires d.before ∨
      ∃ l, d.reply = .job (.leased l) ∧ l.jobId = id ∧ l.leaseOwner = some worker := by
  obtain ⟨j', hj', hs, ho, hx⟩ := h
  have hid : j'.jobId = id := Table.get?_key hj'
  have hm := move_of_event d id
  rw [hj'] at hm
  generalize hj : d.before.jobs.get? id = j at hm
  generalize d.reply = reply at hm ⊢
  generalize d.input = x at hm
  cases hm with
  | same => exact .inl ⟨j', hj, hs, ho, hx⟩
  | created _ hpending =>
      rw [hs] at hpending
      cases hpending
  | terminalized => cases hs
  | claimed => exact .inr ⟨_, rfl, hid, ho⟩
  | purged => exact .inl ⟨_, hj, hs, ho, hx⟩
  | released => cases ho
  | finalized => cases hs

/-- The job was leased to a worker of this id. -/
def LeasedTo (id : Uuid) (worker : PyStr) (e : Event (fleetStep sha256 cfg)) : Prop :=
  ∃ t call l, e.reply = .ran t call (.job (.leased l)) ∧ l.jobId = id ∧ l.leaseOwner = some worker

/-- No lease of the worker on the job reaches beyond `c`. -/
def LeaseLost (id : Uuid) (worker : PyStr) (c : Timestamp) (db : Db) : Prop :=
  ∀ expires, HasLease id worker expires db → expires ≤ c

theorem leaseLost_kept {e : Event (fleetStep sha256 cfg)} {id : Uuid} {worker : PyStr} {c : Timestamp}
    (hnot : ¬ LeasedTo id worker e) (h : LeaseLost id worker c e.before.db) :
    LeaseLost id worker c e.after.db := by
  intro expires hl
  rcases db_of_event e with ⟨hdb, -⟩ | ⟨t, call, -, hreply, hdb⟩
  · rw [hdb] at hl
    exact h expires hl
  · rw [hdb] at hl
    rcases lease_origin (d := .of (exec sha256) (t, call) e.before.db) hl with hl | ⟨l, hd, hid, ho⟩
    · exact h expires hl
    · exact absurd ⟨t, call, l, hreply.trans (congrArg (Observed.ran t call) hd), hid, ho⟩ hnot

/-- A migrated database, and instances that have not started. -/
structure Fleet.Fresh (s : Fleet) : Prop where
  jobs : ∀ id, s.db.jobs.get? id = none
  workers : ∀ i, (s.workers i).phase = .stopped
  inflight : s.inflight = []

theorem fleetInv_fresh {s : Fleet} (h : s.Fresh) :
    FleetInv ([] : List (Event (fleetStep sha256 cfg))) s where
  jobs := by
    have hnone : ∀ j, j ∉ s.db.jobs.rows := by
      intro j hj
      have := Table.get?_of_mem hj
      rw [h.jobs] at this
      cases this
    exact ⟨fun j hj => absurd hj (hnone j), fun j hj => absurd hj (hnone j)⟩
  marked := by
    intro id j user hj
    rw [h.jobs] at hj
    cases hj
  phases := by
    rintro i phase (hphase | hin)
    · rw [h.workers i] at hphase
      subst hphase
      trivial
    · rw [h.inflight] at hin
      cases hin

/-! ## Whole runs -/

/-- The job was completed in this step; `j` is its row before. -/
def Finalized (id : Uuid) (j : Job) (e : Event (fleetStep sha256 cfg)) : Prop :=
  e.before.db.jobs.get? id = some j ∧ j.status ≠ .completed ∧
    ∃ j', e.after.db.jobs.get? id = some j' ∧ j'.status = .completed

/-- A job is completed by a call of a worker that is about to finalize it. -/
theorem confirmed_of_finalized {id : Uuid} {j : Job} {e : Event (fleetStep sha256 cfg)}
    (h : Finalized id j e) : ∃ i job, e.before.Holds i (.confirmed job) ∧ job.jobId = id := by
  obtain ⟨hj, hopen, j', hj', hdone⟩ := h
  rcases row_of_step e with hdb | ⟨t, call, reply, hreply, hmove⟩
  · rw [hdb, hj] at hj'
    obtain rfl := Option.some.inj hj'
    exact absurd hdone hopen
  · have hm := hmove id
    rw [hj, hj'] at hm
    obtain ⟨hmakes, -⟩ := event_of_ran hreply
    have hid : j.jobId = id := Table.get?_key hj
    cases hm with
    | same => exact absurd hdone hopen
    | terminalized => cases hdone
    | claimed => cases hdone
    | purged => exact absurd hdone hopen
    | released _ _ hr =>
        obtain ⟨-, ⟨rfl, -⟩ | ⟨rfl, -⟩⟩ := hr <;> cases hdone
    | finalized =>
        rcases hmakes with hother | ⟨i, phase, locked, prio, hold, hcall⟩
        · cases hother
        · cases phase with
          | confirmed job =>
              injection hcall with hcall
              injection hcall with hjob
              exact ⟨i, job, hold, (Option.some.inj hjob).trans hid⟩
          | _ => cases hcall

/-- **Account deletion keeps its order across workers and crashes.** In every run of any number of
instances, with crashes, lost and late calls, any clocks and any answers of the Auth port:

* the Auth port is asked to delete a user only after the purge of that job was committed for that
  user;
* a job is completed only after the Auth port reported, for that job, that the user is deleted or
  absent; it is the user of the job, unless an older row of that job id had been removed;
* once no lease of a worker id on a job is in force, calls under that id for the job write nothing,
  until the job is leased to that id again. -/
theorem deletion_ordered {s s' : Fleet} {es : List (Event (fleetStep sha256 cfg))}
    (hrun : Run s es s') (hfresh : s.Fresh) :
    (∀ pre e post id user, es = pre ++ e :: post → AuthAsked id user e →
      ∃ e' ∈ pre, PurgeCommitted id user e') ∧
    (∀ pre e post id j, es = pre ++ e :: post → Finalized id j e →
      ∃ user, (∃ e' ∈ pre, AuthGone id user e') ∧
        (j.userId = some user ∨ ∃ e' ∈ pre, RowRemoved id e')) ∧
    (∀ pre e₁ mid e post id worker c t call reply, es = pre ++ e₁ :: (mid ++ e :: post) →
      LeaseLost id worker c e₁.after.db → (∀ e' ∈ mid, ¬ LeasedTo id worker e') →
      e.reply = .ran t call reply → call.OnBehalf id worker → c ≤ t.clock →
      e.after.db = e.before.db) := by
  obtain ⟨-, hinv⟩ := hrun.history (P := FleetInv) (fleetInv_fresh hfresh)
    fun pre e post _ h => fleetInv_step h
  refine ⟨?_, ?_, ?_⟩
  · rintro pre e post id user hes ⟨job, r, hreply, rfl, rfl⟩
    obtain ⟨i, hold⟩ := asked_of_step hreply
    exact ((hinv pre e post hes).phases i _ hold).2
  · intro pre e post id j hes hfin
    obtain ⟨i, job, hold, rfl⟩ := confirmed_of_finalized hfin
    obtain ⟨hsnap, hgone⟩ := (hinv pre e post hes).phases i _ hold
    obtain ⟨hj, hopen, -⟩ := hfin
    refine ⟨job.userId, hgone, ?_⟩
    rcases hsnap with ⟨j', hj', huser⟩ | ⟨-, ⟨j', hj', hdone⟩ | hremoved⟩
    · rw [hj] at hj'
      obtain rfl := Option.some.inj hj'
      exact .inl huser
    · rw [hj] at hj'
      obtain rfl := Option.some.inj hj'
      exact absurd hdone hopen
    · exact .inr hremoved
  · rintro pre e₁ mid e post id worker c t call reply rfl hlost hnot hreply hcall hc
    obtain ⟨_, -, htail⟩ := hrun.split
    obtain ⟨-, hlater⟩ := htail.cons_inv
    obtain ⟨m, hmid, hlast⟩ := hlater.split
    obtain ⟨rfl, -⟩ := hlast.cons_inv
    have hlost' := (hmid.invariant (P := fun s => LeaseLost id worker c s.db) hlost
      fun e' he' => leaseLost_kept (hnot e' he')).1
    obtain ⟨-, d, hin, hbefore, -, hafter⟩ := event_of_ran hreply
    have hexec := d.executed
    rw [hin] at hexec
    have hsame := @unowned_unchanged sha256 t call d.before id worker hcall
      fun expires hl => (hlost' expires (by rw [← hbefore]; exact hl)).trans hc
    rw [hexec] at hsame
    rw [← hafter, ← hbefore]
    exact hsame

/-! ## Two instances under one id -/

def sharedConfig : WorkerConfig :=
  { workerId := py "w1", leaseSeconds := 1, maxBatch := 1
    workerIdOk := by decide, leaseOk := by decide, batchOk := by decide }

abbrev sharedStep : Action → Fleet → Observed × Fleet := fleetStep id fun _ => sharedConfig

def idleFleet : Fleet :=
  ⟨Db.empty, fun _ => ⟨.stopped, 0, false, {}⟩, []⟩

theorem idleFleet_fresh : idleFleet.Fresh := ⟨fun _ => rfl, fun _ => rfl, rfl⟩

/-- A call of instance `i` that is answered at time `n`. -/
def rpcAt (i : Nat) (n : Int) : Action := .rpc i ⟨n, n, n⟩ (fun _ => false) fun _ => 0

/-- The account is to be deleted; instance 0 leases the job for a second, purges, and is told that
the user is gone. -/
def requested : Event sharedStep :=
  .of _ (.other ⟨0, 0, 0⟩ ⟨.requestDeletion jobOne (deletionRequest jobOne), rfl⟩) idleFleet

def started : Event sharedStep := .of _ (.start 0) requested.after

def leasedOnce : Event sharedStep := .of _ (rpcAt 0 1) started.after

def purgedOnce : Event sharedStep := .of _ (rpcAt 0 2) leasedOnce.after

def userGone : Event sharedStep := .of _ (.auth 0 .deleted) purgedOnce.after

/-- It finalizes. -/
def finalizedOnce : Event sharedStep := .of _ (rpcAt 0 3) userGone.after

/-- Or two seconds pass, and instance 1 leases the job under the same id. -/
def startedAgain : Event sharedStep := .of _ (.start 1) userGone.after

def leasedAgain : Event sharedStep := .of _ (rpcAt 1 2000000) startedAgain.after

/-- The finalize of instance 0 comes after its lease has run out. -/
def finalizedLate : Event sharedStep := .of _ (rpcAt 0 2000001) leasedAgain.after

def Observed.leasedUntil : Observed → Option Timestamp
  | .ran _ _ (.job (.leased l)) => l.leaseExpiresAt
  | _ => none

def Fleet.status (s : Fleet) (id : Uuid) : Option JobStatus := (s.db.jobs.get? id).map (·.status)

/-- **An instance whose lease ran out completes a job** that another instance under the same id has
leased since. -/
theorem lost_lease_finalizes :
    Run idleFleet [requested, started, leasedOnce, purgedOnce, userGone, startedAgain, leasedAgain,
      finalizedLate] finalizedLate.after ∧ idleFleet.Fresh ∧
    leasedOnce.input = rpcAt 0 1 ∧ leasedOnce.reply.leasedUntil = some 1000001 ∧
    leasedAgain.input = rpcAt 1 2000000 ∧ leasedAgain.reply.leasedUntil = some 3000000 ∧
    finalizedLate.input = rpcAt 0 2000001 ∧
    finalizedLate.before.status jobOne = some .processing ∧
    finalizedLate.after.status jobOne = some .completed := by
  refine ⟨?_, idleFleet_fresh, rfl, ?_, rfl, ?_, rfl, ?_, ?_⟩
  · exact .cons requested (.cons started (.cons leasedOnce (.cons purgedOnce (.cons userGone
      (.cons startedAgain (.cons leasedAgain (.cons finalizedLate (.nil _))))))))
  · decide +kernel
  · decide +kernel
  · decide +kernel
  · decide +kernel

theorem deletion_ordered_sample :
    ∃ j user, Finalized jobOne j finalizedOnce ∧
      ∃ e' ∈ [requested, started, leasedOnce, purgedOnce, userGone], AuthGone jobOne user e' := by
  have hrun : Run idleFleet ([requested, started, leasedOnce, purgedOnce, userGone] ++
      finalizedOnce :: []) finalizedOnce.after :=
    .cons requested (.cons started (.cons leasedOnce (.cons purgedOnce (.cons userGone
      (.cons finalizedOnce (.nil _))))))
  have hfin : ∃ j, Finalized jobOne j finalizedOnce := by
    have hbefore : finalizedOnce.before.status jobOne = some .processing := by decide +kernel
    have hafter : finalizedOnce.after.status jobOne = some .completed := by decide +kernel
    obtain ⟨j, hj, hs⟩ := Option.map_eq_some_iff.mp hbefore
    obtain ⟨j', hj', hs'⟩ := Option.map_eq_some_iff.mp hafter
    exact ⟨j, hj, by rw [hs]; decide, j', hj', hs'⟩
  obtain ⟨j, hj⟩ := hfin
  obtain ⟨user, hgone, -⟩ := (deletion_ordered hrun idleFleet_fresh).2.1 _ _ _ jobOne j rfl hj
  exact ⟨j, user, hj, hgone⟩

end Katherine.Cloud
