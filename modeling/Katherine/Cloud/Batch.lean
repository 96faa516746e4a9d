import Katherine.Cloud.Worker

/-!
# One round of the deletion worker

`AccountDeletionWorker.run_once` over any repository and any Auth port. `Worker.lean` takes
the repository to be the ledger and interleaves any number of instances; here there is one
instance, and its calls may be answered in any way the repository's contract allows: with a
result, or with one of its three exceptions.

A job ends in one of four counters, whichever call fails, with one exception. `finalize` is
the only call that is not guarded against `ValidationError`, so that error leaves the round:
the jobs behind are not processed, and what was counted is lost.
-/

namespace Katherine.Cloud

open Py

/-! ## The ports -/

/-- The exceptions of the repository. -/
inductive RepositoryError
  | persistence
  | conflict
  | validation
deriving DecidableEq

/-- `AccountDeletionRepository` and `AccountDeletionAuthAdmin`, over a state of theirs. -/
structure Ports (σ : Type) where
  acquireLease : PyStr → Int → Nat → σ → Except RepositoryError (Option AcquiredJob) × σ
  purge : Uuid → PyStr → PyStr → σ → Except RepositoryError Unit × σ
  hardDelete : PyStr → σ → AuthDeleteResult × σ
  /-- The status of the `RetryResult`. -/
  recordRetry : Uuid → PyStr → σ → Except RepositoryError PyStr × σ
  recordFailure : Uuid → PyStr → Option PyStr → σ → Except RepositoryError Unit × σ
  finalize : Uuid → PyStr → σ → Except RepositoryError Unit × σ

/-! ## The round -/

section Round

variable {σ : Type} (ports : Ports σ) (config : WorkerConfig)

/-- `_record_retry`. -/
def recordRetry (job : AcquiredJob) (result : WorkerRunResult) (s : σ) : WorkerRunResult × σ :=
  match ports.recordRetry job.jobId config.workerId s with
  | (.error _, s) => ({ result with leaseLost := result.leaseLost + 1 }, s)
  | (.ok status, s) =>
      if status = py "failed" then ({ result with failed := result.failed + 1 }, s)
      else ({ result with retryScheduled := result.retryScheduled + 1 }, s)

/-- `_record_failure`. -/
def recordFailure (job : AcquiredJob) (result : WorkerRunResult) (errorCode : Option PyStr) (s : σ) :
    WorkerRunResult × σ :=
  match ports.recordFailure job.jobId config.workerId errorCode s with
  | (.error _, s) => ({ result with leaseLost := result.leaseLost + 1 }, s)
  | (.ok (), s) => ({ result with failed := result.failed + 1 }, s)

/-- The third step of `_process_job`: the Auth user is gone. -/
def finalizeJob (job : AcquiredJob) (result : WorkerRunResult) (s : σ) :
    Except RepositoryError WorkerRunResult × σ :=
  match ports.finalize job.jobId config.workerId s with
  | (.ok (), s) => (.ok { result with completed := result.completed + 1 }, s)
  | (.error .persistence, s) => (.ok { result with leaseLost := result.leaseLost + 1 }, s)
  | (.error .conflict, s) => (.ok { result with leaseLost := result.leaseLost + 1 }, s)
  -- not among the exceptions that are caught
  | (.error .validation, s) => (.error .validation, s)

/-- `_process_job` from its second step on: the Auth hard delete. -/
def deleteUser (job : AcquiredJob) (result : WorkerRunResult) (s : σ) :
    Except RepositoryError WorkerRunResult × σ :=
  match ports.hardDelete job.userId s with
  | (.authError code, s) =>
      if code = some (py "auth_unavailable") then (recordRetry ports config job result s).map .ok id
      else (recordFailure ports config job result code s).map .ok id
  | (.unknown, s) => (recordFailure ports config job result (some (py "auth_failed")) s).map .ok id
  | (.deleted, s) => finalizeJob ports config job result s
  | (.alreadyAbsent, s) => finalizeJob ports config job result s

/-- `_process_job`. -/
def processJob (job : AcquiredJob) (result : WorkerRunResult) (s : σ) :
    Except RepositoryError WorkerRunResult × σ :=
  if job.dbPurgedAt = none then
    match ports.purge job.jobId config.workerId job.intentFingerprint s with
    | (.error _, s) => (.ok { result with failed := result.failed + 1 }, s)
    | (.ok (), s) => deleteUser ports config job result s
  else deleteUser ports config job result s

/-- The loop of `run_once`, with the iterations that are left; `claimed_any` and the result. -/
def processBatch : Nat → Bool → WorkerRunResult → σ →
    Except RepositoryError (Bool × WorkerRunResult) × σ
  | 0, claimedAny, result, s => (.ok (claimedAny, result), s)
  | left + 1, claimedAny, result, s =>
      match ports.acquireLease config.workerId config.leaseSeconds config.maxBatch s with
      | (.error e, s) => (.error e, s)
      | (.ok none, s) => (.ok (claimedAny, result), s)
      | (.ok (some job), s) =>
          match processJob ports config job result s with
          | (.error e, s) => (.error e, s)
          | (.ok result, s) => processBatch left true result s

/-- `run_once`. -/
def runOnce (s : σ) : Except RepositoryError WorkerRunResult × σ :=
  match processBatch ports config config.maxBatch false {} s with
  | (.error e, s) => (.error e, s)
  | (.ok (true, result), s) => (.ok result, s)
  | (.ok (false, result), s) => (.ok { result with noWork := true }, s)

end Round

/-! ## What a round did -/

/-- What is noted of a round: the jobs it acquired, and what `finalize` answered. -/
inductive Noted
  | acquired (job : AcquiredJob)
  | finalized (answer : Except RepositoryError Unit)

/-- The jobs among the notes. -/
def acquiredJobs : List Noted → List AcquiredJob
  | [] => []
  | .acquired job :: notes => job :: acquiredJobs notes
  | .finalized _ :: notes => acquiredJobs notes

/-- `finalize` never answered with `ValidationError`. -/
def NoneInvalid (notes : List Noted) : Prop :=
  ∀ answer, .finalized answer ∈ notes → answer ≠ .error .validation

theorem acquiredJobs_append : ∀ notes later : List Noted,
    acquiredJobs (notes ++ later) = acquiredJobs notes ++ acquiredJobs later
  | [], _ => rfl
  | .acquired job :: notes, later => congrArg (job :: ·) (acquiredJobs_append notes later)
  | .finalized _ :: notes, later => acquiredJobs_append notes later

theorem noneInvalid_append {notes later : List Noted} :
    NoneInvalid (notes ++ later) ↔ NoneInvalid notes ∧ NoneInvalid later := by
  simp only [NoneInvalid, List.mem_append]
  exact ⟨fun h => ⟨fun a ha => h a (.inl ha), fun a ha => h a (.inr ha)⟩,
    fun h a ha => ha.elim (h.1 a) (h.2 a)⟩

/-- The same ports, with notes. -/
def Ports.noting {σ : Type} (ports : Ports σ) : Ports (σ × List Noted) where
  acquireLease worker lease batch s :=
    match ports.acquireLease worker lease batch s.1 with
    | (.ok (some job), s') => (.ok (some job), s', s.2 ++ [.acquired job])
    | (answer, s') => (answer, s', s.2)
  purge jobId worker fingerprint s := (ports.purge jobId worker fingerprint s.1).map id (·, s.2)
  hardDelete user s := (ports.hardDelete user s.1).map id (·, s.2)
  recordRetry jobId worker s := (ports.recordRetry jobId worker s.1).map id (·, s.2)
  recordFailure jobId worker code s := (ports.recordFailure jobId worker code s.1).map id (·, s.2)
  finalize jobId worker s :=
    let (answer, s') := ports.finalize jobId worker s.1
    (answer, s', s.2 ++ [.finalized answer])

/-! ## One job -/

/-- The jobs a result has counted. -/
def WorkerRunResult.total (r : WorkerRunResult) : Nat :=
  r.completed + r.retryScheduled + r.failed + r.leaseLost

/-- A job is counted once, unless `finalize` answers with `ValidationError`. -/
inductive Counts (result : WorkerRunResult) : Except RepositoryError WorkerRunResult → List Noted → Prop
  | counted {result' : WorkerRunResult} {noted : List Noted} (total : result'.total = result.total + 1)
      (noWork : result'.noWork = result.noWork) (jobs : acquiredJobs noted = [])
      (valid : NoneInvalid noted) : Counts result (.ok result') noted
  | raised : Counts result (.error .validation) [.finalized (.error .validation)]

/-- The notes change nothing, and what is noted fits the outcome. -/
def NotesJob {σ : Type} (result : WorkerRunResult) (run : Except RepositoryError WorkerRunResult × σ)
    (notes : List Noted) (noting : Except RepositoryError WorkerRunResult × σ × List Noted) : Prop :=
  ∃ noted, noting = (run.1, run.2, notes ++ noted) ∧ Counts result run.1 noted

section Job

variable {σ : Type} (ports : Ports σ) (config : WorkerConfig) (job : AcquiredJob) (result : WorkerRunResult)
  (s : σ) (notes : List Noted)

theorem noneInvalid_nil : NoneInvalid [] := fun _ h => by cases h

/-- A job that ends without `finalize`. -/
theorem notesJob_silent {result' : WorkerRunResult} (total : result'.total = result.total + 1)
    (noWork : result'.noWork = result.noWork) :
    NotesJob result (.ok result', s) notes (.ok result', s, notes) :=
  ⟨[], by rw [List.append_nil], .counted total noWork rfl noneInvalid_nil⟩

theorem recordRetry_notes : NotesJob result ((recordRetry ports config job result s).map .ok id) notes
    ((recordRetry ports.noting config job result (s, notes)).map .ok id) := by
  unfold recordRetry Ports.noting
  dsimp only [Prod.map_fst, Prod.map_snd]
  rcases ports.recordRetry job.jobId config.workerId s with ⟨answer, s'⟩
  cases answer with
  | error e => exact notesJob_silent _ _ _ (by simp only [WorkerRunResult.total]; omega) rfl
  | ok status =>
      dsimp only [Prod.map, id]
      split
      · exact notesJob_silent _ _ _ (by simp only [WorkerRunResult.total]; omega) rfl
      · exact notesJob_silent _ _ _ (by simp only [WorkerRunResult.total]; omega) rfl

theorem recordFailure_notes (code : Option PyStr) :
    NotesJob result ((recordFailure ports config job result code s).map .ok id) notes
      ((recordFailure ports.noting config job result code (s, notes)).map .ok id) := by
  unfold recordFailure Ports.noting
  dsimp only [Prod.map_fst, Prod.map_snd]
  rcases ports.recordFailure job.jobId config.workerId code s with ⟨answer, s'⟩
  cases answer with
  | error e => exact notesJob_silent _ _ _ (by simp only [WorkerRunResult.total]; omega) rfl
  | ok _ => exact notesJob_silent _ _ _ (by simp only [WorkerRunResult.total]; omega) rfl

theorem finalizeJob_notes : NotesJob result (finalizeJob ports config job result s) notes
    (finalizeJob ports.noting config job result (s, notes)) := by
  have hport : ports.noting.finalize job.jobId config.workerId (s, notes) =
      ((ports.finalize job.jobId config.workerId s).1, (ports.finalize job.jobId config.workerId s).2,
        notes ++ [.finalized (ports.finalize job.jobId config.workerId s).1]) := rfl
  unfold finalizeJob
  rw [hport]
  rcases ports.finalize job.jobId config.workerId s with ⟨answer, s'⟩
  have hvalid : ∀ {answer : Except RepositoryError Unit}, answer ≠ .error .validation →
      NoneInvalid [.finalized answer] := by
    intro answer hne a ha
    cases List.mem_singleton.mp ha
    exact hne
  cases answer with
  | ok _ =>
      exact ⟨[.finalized (.ok ())], rfl, .counted (by simp only [WorkerRunResult.total]; omega) rfl rfl
        (hvalid (by simp))⟩
  | error e =>
      cases e with
      | persistence =>
          exact ⟨[.finalized (.error .persistence)], rfl,
            .counted (by simp only [WorkerRunResult.total]; omega) rfl rfl (hvalid (by simp))⟩
      | conflict =>
          exact ⟨[.finalized (.error .conflict)], rfl,
            .counted (by simp only [WorkerRunResult.total]; omega) rfl rfl (hvalid (by simp))⟩
      | validation => exact ⟨_, rfl, .raised⟩

theorem deleteUser_notes : NotesJob result (deleteUser ports config job result s) notes
    (deleteUser ports.noting config job result (s, notes)) := by
  have hport : ports.noting.hardDelete job.userId (s, notes) =
      ((ports.hardDelete job.userId s).1, (ports.hardDelete job.userId s).2, notes) := rfl
  unfold deleteUser
  rw [hport]
  rcases ports.hardDelete job.userId s with ⟨answer, s'⟩
  cases answer with
  | authError code =>
      dsimp only
      split
      · exact recordRetry_notes ports config job result s' notes
      · exact recordFailure_notes ports config job result s' notes code
  | unknown => exact recordFailure_notes ports config job result s' notes _
  | deleted => exact finalizeJob_notes ports config job result s' notes
  | alreadyAbsent => exact finalizeJob_notes ports config job result s' notes

theorem processJob_notes : NotesJob result (processJob ports config job result s) notes
    (processJob ports.noting config job result (s, notes)) := by
  have hport : ports.noting.purge job.jobId config.workerId job.intentFingerprint (s, notes) =
      ((ports.purge job.jobId config.workerId job.intentFingerprint s).1,
        (ports.purge job.jobId config.workerId job.intentFingerprint s).2, notes) := rfl
  unfold processJob
  rw [hport]
  split
  · rcases ports.purge job.jobId config.workerId job.intentFingerprint s with ⟨answer, s'⟩
    cases answer with
    | error e => exact notesJob_silent _ _ _ (by simp only [WorkerRunResult.total]; omega) rfl
    | ok _ => exact deleteUser_notes ports config job result s' notes
  · exact deleteUser_notes ports config job result s notes

end Job

/-! ## The loop -/

/-- What `run_once` keeps: every job acquired so far is counted, and none was invalid. -/
structure Tallied (claimedAny : Bool) (result : WorkerRunResult) (notes : List Noted) : Prop where
  total : result.total = (acquiredJobs notes).length
  claimed : claimedAny = true ↔ 0 < (acquiredJobs notes).length
  noWork : result.noWork = false
  valid : NoneInvalid notes

/-- How the loop ends: with everything counted, or with `ValidationError`. -/
inductive Ends : Except RepositoryError (Bool × WorkerRunResult) → List Noted → Prop
  | counted {claimedAny : Bool} {result : WorkerRunResult} {notes : List Noted}
      (tallied : Tallied claimedAny result notes) : Ends (.ok (claimedAny, result)) notes
  | raised {notes : List Noted} (invalid : ¬ NoneInvalid notes) : Ends (.error .validation) notes

theorem Tallied.acquired {claimedAny : Bool} {result result' : WorkerRunResult} {notes noted : List Noted}
    (h : Tallied claimedAny result notes) (job : AcquiredJob)
    (hcounts : Counts result (.ok result') noted) :
    Tallied true result' ((notes ++ [.acquired job]) ++ noted) := by
  obtain ⟨htotal, hwork, hjobs, hvalid⟩ : result'.total = result.total + 1 ∧ result'.noWork = result.noWork ∧
      acquiredJobs noted = [] ∧ NoneInvalid noted := by
    cases hcounts with
    | counted total noWork jobs valid => exact ⟨total, noWork, jobs, valid⟩
  have hlength : (acquiredJobs ((notes ++ [.acquired job]) ++ noted)).length =
      (acquiredJobs notes).length + 1 := by
    rw [acquiredJobs_append, acquiredJobs_append, hjobs, List.append_nil, List.length_append]
    rfl
  have hone : NoneInvalid [.acquired job] := fun _ ha => by cases List.mem_singleton.mp ha
  refine ⟨?_, ?_, hwork.trans h.noWork, ?_⟩
  · rw [htotal, hlength, h.total]
  · rw [hlength]
    exact iff_of_true rfl (Nat.succ_pos _)
  · exact noneInvalid_append.mpr ⟨noneInvalid_append.mpr ⟨h.valid, hone⟩, hvalid⟩

section Run

variable {σ : Type} {ports : Ports σ} {config : WorkerConfig}

/-- Every call of `acquire_lease` returns. -/
def Ports.Acquires (ports : Ports σ) : Prop :=
  ∀ worker lease batch s, ∃ job, (ports.acquireLease worker lease batch s).1 = .ok job

theorem processBatch_notes (hacquires : ports.Acquires) : ∀ (left : Nat) (claimedAny : Bool)
    (result : WorkerRunResult) (s : σ) (notes : List Noted), Tallied claimedAny result notes →
    ∃ notes', processBatch ports.noting config left claimedAny result (s, notes) =
        ((processBatch ports config left claimedAny result s).1,
          (processBatch ports config left claimedAny result s).2, notes') ∧
      (acquiredJobs notes').length ≤ (acquiredJobs notes).length + left ∧
      Ends (processBatch ports config left claimedAny result s).1 notes'
  | 0, _, _, _, notes, h => ⟨notes, rfl, Nat.le_refl _, .counted h⟩
  | left + 1, claimedAny, result, s, notes, h => by
      obtain ⟨answer, hanswer⟩ := hacquires config.workerId config.leaseSeconds config.maxBatch s
      have hport : ports.noting.acquireLease config.workerId config.leaseSeconds config.maxBatch (s, notes) =
          match ports.acquireLease config.workerId config.leaseSeconds config.maxBatch s with
          | (.ok (some job), s') => (.ok (some job), s', notes ++ [.acquired job])
          | (answer, s') => (answer, s', notes) := rfl
      unfold processBatch
      rw [hport]
      generalize ports.acquireLease config.workerId config.leaseSeconds config.maxBatch s = reply at hanswer
      obtain ⟨reply, s'⟩ := reply
      cases hanswer
      cases answer with
      | none => exact ⟨notes, rfl, Nat.le_add_right _ _, .counted h⟩
      | some job =>
          obtain ⟨noted, hrun, hcounts⟩ :=
            processJob_notes ports config job result s' (notes ++ [.acquired job])
          dsimp only
          rw [hrun]
          generalize processJob ports config job result s' = run at hcounts
          obtain ⟨outcome, s''⟩ := run
          have hone : (acquiredJobs (notes ++ [.acquired job])).length = (acquiredJobs notes).length + 1 := by
            rw [acquiredJobs_append, List.length_append]
            rfl
          cases outcome with
          | error e =>
              cases hcounts
              refine ⟨_, rfl, ?_, .raised ?_⟩
              · rw [acquiredJobs_append, List.length_append, hone]
                change _ + 1 + 0 ≤ _
                omega
              · intro hvalid
                exact (noneInvalid_append.mp hvalid).2 _ List.mem_cons_self rfl
          | ok result' =>
              have htallied := h.acquired job hcounts
              obtain ⟨notes', heq, hlength, hends⟩ :=
                processBatch_notes hacquires left true result' s'' _ htallied
              refine ⟨notes', heq, ?_, hends⟩
              have hcount := htallied.total
              cases hcounts with
              | counted total =>
                  rw [total, h.total] at hcount
                  omega

/-- The summary of a round counts every job it acquired. -/
structure Summarises (config : WorkerConfig) (result : WorkerRunResult) (notes : List Noted) : Prop where
  total : result.completed + result.retryScheduled + result.failed + result.leaseLost =
    (acquiredJobs notes).length
  batch : (acquiredJobs notes).length ≤ config.maxBatch
  noWork : result.noWork = true ↔ (acquiredJobs notes).length = 0

theorem Tallied.summarises {claimedAny : Bool} {result : WorkerRunResult} {notes : List Noted}
    (h : Tallied claimedAny result notes) (hbatch : (acquiredJobs notes).length ≤ config.maxBatch) :
    Summarises config (if claimedAny then result else { result with noWork := true }) notes := by
  have hclaimed := h.claimed
  cases claimedAny with
  | true =>
      have hpos := hclaimed.mp rfl
      refine ⟨h.total, hbatch, ?_⟩
      rw [if_pos rfl, h.noWork]
      exact iff_of_false (by decide) (Nat.pos_iff_ne_zero.mp hpos)
  | false =>
      have hzero : (acquiredJobs notes).length = 0 :=
        Nat.eq_zero_of_not_pos fun hpos => by cases hclaimed.mpr hpos
      exact ⟨h.total, hbatch, iff_of_true rfl hzero⟩

theorem runOnce_eq (ports : Ports σ) (config : WorkerConfig) (s : σ) : runOnce ports config s =
    ((processBatch ports config config.maxBatch false {} s).1.map fun x =>
        if x.1 then x.2 else { x.2 with noWork := true },
      (processBatch ports config config.maxBatch false {} s).2) := by
  unfold runOnce
  rcases processBatch ports config config.maxBatch false {} s with ⟨_ | ⟨_ | _, _⟩, _⟩ <;> rfl

/-- **A round returns a summary of all its jobs exactly if no call of `finalize` raises
`ValidationError`.** The notes of a round say which jobs were acquired and what `finalize` answered;
taking them changes nothing. -/
theorem run_once_summarises_iff (hacquires : ports.Acquires) (config : WorkerConfig) (s : σ) :
    ∃ notes, runOnce ports.noting config (s, []) =
        ((runOnce ports config s).1, (runOnce ports config s).2, notes) ∧
      ((∃ result, (runOnce ports config s).1 = .ok result ∧ Summarises config result notes) ↔
        NoneInvalid notes) := by
  have hstart : Tallied false {} [] := ⟨rfl, by decide, rfl, noneInvalid_nil⟩
  obtain ⟨notes, hrun, hbatch, hends⟩ :=
    @processBatch_notes σ ports config hacquires config.maxBatch false {} s [] hstart
  rw [runOnce_eq, runOnce_eq, hrun]
  refine ⟨notes, rfl, ?_⟩
  generalize (processBatch ports config config.maxBatch false {} s).1 = outcome at hends
  cases hends with
  | @counted claimedAny result _ tallied =>
      refine iff_of_true ⟨_, rfl, tallied.summarises ?_⟩ tallied.valid
      have hzero : (acquiredJobs []).length = 0 := rfl
      omega
  | raised invalid =>
      refine iff_of_false ?_ invalid
      rintro ⟨result, hresult, -⟩
      cases hresult

end Run

/-! ## The instances of a fleet -/

/-- `_parse_purge_result`. -/
def parsePurgeResult : Reply → Except RepositoryError Unit
  | .job (.purged ..) => .ok ()
  | .job (.alreadyPurged ..) => .ok ()
  | .job (.error e) => if e.code = .operationConflict then .error .conflict else .error .validation
  | _ => .error .persistence

/-- `_parse_retry_result`. -/
def parseRetryResult : Reply → Except RepositoryError PyStr
  | .job (.retryScheduled ..) => .ok (py "retry_scheduled")
  | .job (.failed _ code _) =>
      if code = py "attempts_exhausted" then .ok (py "failed") else .error .persistence
  | .job (.error _) => .error .validation
  | _ => .error .persistence

/-- `_parse_failure_result`. -/
def parseFailureResult : Reply → Except RepositoryError Unit
  | .job (.failed ..) => .ok ()
  | .job (.error _) => .error .validation
  | _ => .error .persistence

/-- `_parse_finalize_result`. -/
def parseFinalizeResult : Reply → Except RepositoryError Unit
  | .job (.completed _ _ (some _)) => .ok ()
  | .job (.error e) => if e.code = .stateConflict then .error .conflict else .error .validation
  | _ => .error .persistence

/-- `SupabaseAccountDeletionRepository` for one job, when the ledger answers the purge and the call
after the Auth port like this. -/
def ledgerPorts (purge : Reply) (auth : AuthDeleteResult) (last : Reply) : Ports Unit where
  acquireLease _ _ _ _ := (.ok none, ())
  purge _ _ _ _ := (parsePurgeResult purge, ())
  hardDelete _ _ := (auth, ())
  recordRetry _ _ _ := (parseRetryResult last, ())
  recordFailure _ _ _ _ := (parseFailureResult last, ())
  finalize _ _ _ := (parseFinalizeResult last, ())

namespace WorkerState

/-- `_process_job` returned a result, or raised. -/
def returned (w : WorkerState) : Except RepositoryError WorkerRunResult → WorkerState
  | .ok result => w.next result
  | .error _ => { w with phase := .stopped }

/-- What an instance does with the answer of the Auth port and the reply to the call after it. -/
def settle (w : WorkerState) (job : AcquiredJob) (auth : AuthDeleteResult) (last : Reply) : WorkerState :=
  (w.onAuth job auth).onReply last

/-- The Auth port is called, if the purge let the instance through. -/
def authorize (w : WorkerState) (auth : AuthDeleteResult) (last : Reply) : WorkerState :=
  match w.phase with
  | .authorizing job => w.settle job auth last
  | _ => w

/-- What an instance does with a job it acquired, for these answers. -/
def process (w : WorkerState) (job : AcquiredJob) (purge : Reply) (auth : AuthDeleteResult)
    (last : Reply) : WorkerState :=
  match job.start with
  | .purging job => ({ w with phase := .purging job }.onReply purge).authorize auth last
  | phase => { w with phase }.authorize auth last

end WorkerState

section Fleet

variable (w : WorkerState) (config : WorkerConfig) (job : AcquiredJob) (purge : Reply)
  (auth : AuthDeleteResult) (last : Reply)

theorem retrying_reply : { w with phase := .retrying job }.onReply last =
    w.returned (.ok (recordRetry (ledgerPorts purge auth last) config job w.result ()).1) := by
  have hsplit : recordRetry (ledgerPorts purge auth last) config job w.result () =
      match parseRetryResult last with
      | .error _ => ({ w.result with leaseLost := w.result.leaseLost + 1 }, ())
      | .ok status =>
          if status = py "failed" then ({ w.result with failed := w.result.failed + 1 }, ())
          else ({ w.result with retryScheduled := w.result.retryScheduled + 1 }, ()) := by
    unfold recordRetry ledgerPorts
    cases parseRetryResult last <;> rfl
  rw [hsplit]
  cases last with
  | job r =>
      cases r with
      | retryScheduled _ _ => rfl
      | failed _ code _ =>
          by_cases hcode : code = py "attempts_exhausted"
          · subst hcode
            rfl
          · simp only [WorkerState.onReply, parseRetryResult, if_neg hcode]
            rfl
      | _ => rfl
  | _ => rfl

theorem failing_reply (code : Option PyStr) : { w with phase := .failing job code }.onReply last =
    w.returned (.ok (recordFailure (ledgerPorts purge auth last) config job w.result code ()).1) := by
  have hsplit : recordFailure (ledgerPorts purge auth last) config job w.result code () =
      match parseFailureResult last with
      | .error _ => ({ w.result with leaseLost := w.result.leaseLost + 1 }, ())
      | .ok () => ({ w.result with failed := w.result.failed + 1 }, ()) := by
    unfold recordFailure ledgerPorts
    cases parseFailureResult last <;> rfl
  rw [hsplit]
  cases last with
  | job r => cases r <;> rfl
  | _ => rfl

theorem confirmed_reply : { w with phase := .confirmed job }.onReply last =
    w.returned (finalizeJob (ledgerPorts purge auth last) config job w.result ()).1 := by
  cases last with
  | job r =>
      cases r with
      | completed _ _ purged => cases purged <;> rfl
      | error e =>
          by_cases hcode : e.code = .stateConflict
          · simp only [WorkerState.onReply, finalizeJob, ledgerPorts, parseFinalizeResult, if_pos hcode]
            rfl
          · simp only [WorkerState.onReply, finalizeJob, ledgerPorts, parseFinalizeResult, if_neg hcode]
            rfl
      | _ => rfl
  | _ => rfl

theorem settle_eq : w.settle job auth last =
    w.returned (deleteUser (ledgerPorts purge auth last) config job w.result ()).1 := by
  cases auth with
  | authError code =>
      by_cases hcode : code = some (py "auth_unavailable")
      · have hrun : deleteUser (ledgerPorts purge (.authError code) last) config job w.result () =
            (recordRetry (ledgerPorts purge (.authError code) last) config job w.result ()).map .ok id :=
          if_pos hcode
        rw [hrun, WorkerState.settle, WorkerState.onAuth, if_pos hcode]
        exact retrying_reply w config job purge _ last
      · have hrun : deleteUser (ledgerPorts purge (.authError code) last) config job w.result () =
            (recordFailure (ledgerPorts purge (.authError code) last) config job w.result code ()).map .ok id :=
          if_neg hcode
        rw [hrun, WorkerState.settle, WorkerState.onAuth, if_neg hcode]
        exact failing_reply w config job purge _ last code
  | unknown => exact failing_reply w config job purge .unknown last _
  | deleted => exact confirmed_reply w config job purge .deleted last
  | alreadyAbsent => exact confirmed_reply w config job purge .alreadyAbsent last

theorem purging_reply : { w with phase := .purging job }.onReply purge =
    match parsePurgeResult purge with
    | .ok () => { w with phase := .authorizing job }
    | .error _ => w.next { w.result with failed := w.result.failed + 1 } := by
  cases purge with
  | job r =>
      cases r with
      | error e =>
          by_cases hcode : e.code = .operationConflict
          · simp only [parsePurgeResult, if_pos hcode]
            rfl
          · simp only [parsePurgeResult, if_neg hcode]
            rfl
      | _ => rfl
  | _ => rfl

/-- **An instance of a fleet processes a job as `_process_job` does.** -/
theorem process_eq : w.process job purge auth last =
    w.returned (processJob (ledgerPorts purge auth last) config job w.result ()).1 := by
  unfold WorkerState.process AcquiredJob.start processJob
  by_cases hpurged : job.dbPurgedAt = none
  · have hport : (ledgerPorts purge auth last).purge job.jobId config.workerId job.intentFingerprint () =
        (parsePurgeResult purge, ()) := rfl
    rw [if_pos hpurged, if_pos hpurged, hport]
    dsimp only
    rw [purging_reply]
    cases parsePurgeResult purge with
    | ok _ => exact settle_eq { w with phase := .authorizing job } config job purge auth last
    | error e =>
        -- the purge failed: the instance is at the head of its loop, or stopped
        dsimp only [WorkerState.authorize]
        rcases next_phase w { w.result with failed := w.result.failed + 1 } with hphase | hphase
        · rw [hphase]
          rfl
        · rw [hphase]
          rfl
  · rw [if_neg hpurged, if_neg hpurged]
    exact settle_eq { w with phase := .authorizing job } config job purge auth last

end Fleet

/-! ## A round that is left -/

/-- A job whose data is purged. -/
def purgedJob (id : Uuid) : AcquiredJob := ⟨id, py "u1", some 0, py "f"⟩

/-- A queue of jobs; every user can be deleted, and one job cannot be finalized. -/
def queuePorts : Ports (List AcquiredJob) where
  acquireLease _ _ _ queue := (.ok queue.head?, queue.tail)
  purge _ _ _ queue := (.ok (), queue)
  hardDelete _ queue := (.deleted, queue)
  recordRetry _ _ queue := (.ok (py "retry_scheduled"), queue)
  recordFailure _ _ _ queue := (.ok (), queue)
  finalize jobId _ queue := (if jobId = jobOne then .error .validation else .ok (), queue)

theorem queuePorts_acquires : queuePorts.Acquires := fun _ _ _ queue => ⟨queue.head?, rfl⟩

def roundConfig : WorkerConfig := { sharedConfig with maxBatch := 10, batchOk := by decide }

theorem run_once_summarises_iff_queue : ∃ result notes,
    (runOnce queuePorts roundConfig [purgedJob jobTwo, purgedJob jobTwo]).1 = .ok result ∧
      Summarises roundConfig result notes ∧ (acquiredJobs notes).length = 2 := by
  obtain ⟨notes, hrun, hiff⟩ :=
    run_once_summarises_iff queuePorts_acquires roundConfig [purgedJob jobTwo, purgedJob jobTwo]
  have hnotes : notes = [.acquired (purgedJob jobTwo), .finalized (.ok ()), .acquired (purgedJob jobTwo),
      .finalized (.ok ())] := congrArg (·.2.2) hrun.symm
  have hvalid : NoneInvalid notes := by
    intro answer h
    rw [hnotes] at h
    simp only [List.mem_cons, List.not_mem_nil, or_false, reduceCtorEq, false_or, Noted.finalized.injEq,
      or_self] at h
    rw [h]
    simp
  obtain ⟨result, hresult, hsummary⟩ := hiff.mpr hvalid
  exact ⟨result, notes, hresult, hsummary, by rw [hnotes]; rfl⟩

/-- **One job that `finalize` calls invalid ends the round**: no summary, and the job behind it stays
where it is. -/
theorem invalid_finalize_ends_round :
    runOnce queuePorts roundConfig [purgedJob jobOne, purgedJob jobTwo] =
      (.error .validation, [purgedJob jobTwo]) := rfl

end Katherine.Cloud
