import Katherine.Cloud.Clock

/-!
# One `ProcessTurn.execute`

`backend/process_turn.py` from the entry to the result, over a database on which anybody
else may run calls between any two of its steps. Its ports are inputs: every read, every
provider call and every write comes back, or raises, or is cancelled, as the input says,
and the budget is whatever the readings of the clock leave of it.

A write has a third way to go wrong: the database has executed it and the reply is lost,
or the caller was cancelled meanwhile (`run_blocking_write` lets the write finish). A
reply that `parse_commit_turn_result` refuses is lost as well. A commit that Python
refuses before it calls the database is `unsent`.

Only a `revision_mismatch` is answered by another attempt, and the database answers so
only where it has written nothing; `process_turn_commits_once` puts the two together.
-/

namespace Katherine.Cloud.ProcessTurn

open Py Sql Pg Runs

/-! ## Inputs -/

inductive TurnMode
  | normal
  | replayAttempt
deriving DecidableEq

/-- `TurnBudget`, over readings of the monotonic clock. -/
structure TurnBudget where
  deadline : Int
  reserve : Int

def TurnBudget.remaining (b : TurnBudget) (now : Int) : Int := max 0 (b.deadline - now)

def TurnBudget.remainingBeforeReserve (b : TurnBudget) (now : Int) : Int :=
  max 0 (b.remaining now - b.reserve)

/-- `ProcessTurnInput`, less the correlation, which is only logged. -/
structure ProcessTurnInput where
  authenticatedUserId : PyStr
  requestId : Uuid
  userMessage : PyStr
  budget : TurnBudget
  mode : TurnMode

def ProcessTurnInput.key (inp : ProcessTurnInput) : PyStr × Uuid :=
  (inp.authenticatedUserId, inp.requestId)

/-- What `ProcessTurn` is built with, besides its ports. -/
structure Wiring where
  supabaseTimeout : Int
  archivalExtractionEnabled : Bool
  leaseOwner : PyStr

/-! ## Errors -/

inductive TurnErrorCode
  | turnTimeout
  | upstreamRateLimited
  | providerUnavailable
  | providerInvalidRequest
  | providerInvalidResponse
  | persistenceUnavailable
  | internalError
deriving DecidableEq

/-- What a port raises that is not a conflict. -/
inductive PortError
  /-- `TurnExecutionError`; `DeadlineExceeded` is `turn_timeout`. -/
  | turnExecution (code : TurnErrorCode)
  | languageModel
  | validation
  | persistence
  /-- `RelationshipDomainError`, on a clock behind the snapshot. -/
  | relationshipDomain
  | cancelled
deriving DecidableEq

def PortError.deadlineExceeded : PortError := .turnExecution .turnTimeout

inductive ConflictCode
  | revisionMismatch
  | requestPayloadConflict
  | requestInProgress
  | leaseConflict
  | requestReplayUnavailable
deriving DecidableEq

inductive TurnError
  | port (e : PortError)
  | conflict (code : ConflictCode) (expectedRevision : Nat) (actualRevision : Option Nat)
deriving DecidableEq

/-- `_parse_error_envelope`. -/
def parseErrorEnvelope (e : Envelope) : TurnError :=
  let conflict := fun code => TurnError.conflict code (e.expectedRevision.getD 0) e.actualRevision
  match e.code with
  | .revisionMismatch => conflict .revisionMismatch
  | .requestPayloadConflict => conflict .requestPayloadConflict
  | .requestInProgress => conflict .requestInProgress
  | .leaseConflict => conflict .leaseConflict
  | .validationFailed => .port .validation
  | .operationConflict => .port .persistence
  | .stateConflict => .port .persistence

/-! ## The public result -/

/-- `ProcessTurnResult`, less the committed turn itself. `ε` is `EmotionStateResponse`. -/
structure PublicResult (ε : Type) where
  response : PyStr
  emotionState : ε

section

variable {ε : Type} (decode : Jsonb → PyVal) (validateEmotion : List (PyKey × PyVal) → Option ε)

/-- `parse_public_result`, of a stored payload. -/
def parsePublicResult (payload : Jsonb) : Except TurnError (PublicResult ε) :=
  match (decode payload).items? with
  | none => .error (.port .validation)
  | some kvs =>
      match dictGet kvs (py "response"), dictGet kvs (py "emotion_state") with
      | some (.str response), some (.dict rawEmotion) =>
          match validateEmotion rawEmotion with
          | some emotionState => .ok ⟨response, emotionState⟩
          | none => .error (.port .validation)
      | _, _ => .error (.port .validation)

end

/-! ## The commit -/

/-- What an attempt has computed. -/
structure Candidate where
  known : Loaded
  appraisal : AppraisalV1
  emotional : EmotionalStateV1
  relationship : RelationshipStateV1

/-- What else a commit takes: the generated message id, the measured time, and the digest of the
canonical payload, which the database only compares. -/
structure Fresh where
  messageId : PyStr
  durationMs : Nat
  payloadHash : PyStr

def replayPayload (c : Candidate) (response : PyStr) (f : Fresh) : List (PyKey × PyVal) :=
  [(.str (py "response"), .str response),
   (.str (py "emotion_state"), .dict (projectPublicEmotion c.emotional c.appraisal)),
   (.str (py "message_id"), .str f.messageId), (.str (py "duration_ms"), .int f.durationMs)]

/-- `build_archival_outbox_event`. -/
def archivalOutboxEvent (requestId : Uuid) : PyVal :=
  .dict [(.str (py "event_type"), .str (py "archival_extraction_requested")),
    (.str (py "payload"), .dict [(.str (py "message_id"), .str requestId.text),
      (.str (py "kind"), .str (py "archival")), (.str (py "version"), .int 1)]),
    (.str (py "idempotency_key"), .str (py "archival:" ++ requestId.text ++ py ":v1"))]

/-- The arguments of the call that `_run_once` makes of `commit_turn`. -/
def commitCall (w : Wiring) (inp : ProcessTurnInput) (c : Candidate) (response : PyStr) (f : Fresh) :
    CommitArgs :=
  commitArgs inp.authenticatedUserId c.known c.emotional c.relationship response
    { authenticatedUserId := none
      requestId := some inp.requestId
      expectedRevision := none
      userMessage := some inp.userMessage
      assistantMessage := none
      payloadHash := some f.payloadHash
      emotionalState := none
      relationshipState := none
      publicResponse := none
      replayPayload := Jsonb.ofPy (.dict (replayPayload c response f))
      outboxEvents := Jsonb.ofPy (.list
        (if w.archivalExtractionEnabled then [archivalOutboxEvent inp.requestId] else []))
      leaseOwner := some w.leaseOwner }

/-! ## Steps -/

/-- Where `execute` is. `attempt` counts from 1. -/
inductive Stage (ε : Type)
  | replaying
  /-- At the top of the loop of `_execute_normal`. -/
  | starting (attempt : Nat)
  | timed (attempt : Nat) (currentTime : PosFloat)
  | loaded (attempt : Nat) (known : Loaded)
  | informed (attempt : Nat) (known : Loaded)
  /-- Appraised, and both transitions made. -/
  | moved (attempt : Nat) (c : Candidate)
  | enveloped (attempt : Nat) (c : Candidate)
  | generated (attempt : Nat) (c : Candidate) (response : PyStr)
  /-- The commit was answered with `revision_mismatch`. -/
  | mismatched (attempt : Nat) (e : Envelope)
  | finished (outcome : Except TurnError (PublicResult ε))

/-- How a write goes. -/
inductive WriteOutcome
  | delivered
  | lost (e : PortError)
  | unsent (e : PortError)

/-- `now` is what the budget's clock says where the budget is checked. -/
inductive Move
  | replay (now : Int) (t : Timestamp) (port : Except PortError Unit)
  | start (now : Int) (currentTime : PosFloat)
  | loadState (now : Int) (port : Except PortError Unit)
  | loadContext (now : Int) (port : Except PortError Unit)
  | appraise (port : Except PortError AppraisalV1)
  | buildEnvelope (port : Except PortError Unit)
  | generate (port : Except PortError PyStr)
  | commit (now : Int) (t : Timestamp) (ids : FreshIds) (f : Fresh) (write : WriteOutcome)
  | retry (now : Int)
  /-- Somebody else's call. -/
  | other (t : Times) (call : Call)

inductive Effect
  | silent
  /-- The state was loaded. -/
  | loaded (known : Loaded)
  /-- The provider was called. -/
  | provider
  /-- A commit attempt, and what the database answered if it was reached. -/
  | attempted (args : CommitArgs) (reply : Option CommitReply)

structure State (ε : Type) where
  db : Db
  stage : Stage ε

section

variable {ε : Type} (sha256 : PyStr → PyStr) (decode : Jsonb → PyVal) (dyn : Dynamics)
variable (validateEmotion : List (PyKey × PyVal) → Option ε) (w : Wiring) (inp : ProcessTurnInput)

/-- `execute`, at its first step. -/
def start : Stage ε :=
  match inp.mode with
  | .normal => .starting 1
  | .replayAttempt => .replaying

def Stage.raise (e : PortError) : Stage ε := .finished (.error (.port e))

/-- The check a blocking read makes before it starts. -/
def readExhausted (now : Int) : Prop :=
  min (inp.budget.remainingBeforeReserve now) w.supabaseTimeout ≤ 0

instance (now : Int) : Decidable (readExhausted w inp now) := inferInstanceAs (Decidable (_ ≤ _))

/-- What a delivered answer of `commit_turn` makes of the attempt. -/
def onCommit (attempt : Nat) : CommitReply → Stage ε
  | .result turn => .finished (parsePublicResult decode validateEmotion turn.replayPayload)
  | .error e =>
      if e.code = .revisionMismatch then .mismatched attempt e
      else .finished (.error (parseErrorEnvelope e))
  | .raised => .raise .persistence

/-- What a delivered answer of `replay_committed_turn` makes of the replay. -/
def onReplay : ReplayReply → Stage ε
  | .result turn => .finished (parsePublicResult decode validateEmotion turn.replayPayload)
  | .error e => .finished (.error (parseErrorEnvelope e))
  | .requestInProgress => .finished (.error (.conflict .requestInProgress 0 none))
  | .requestReplayUnavailable => .finished (.error (.conflict .requestReplayUnavailable 0 none))
  | .raised => .raise .persistence

/-- One step of `execute`, on its own database call if it makes one. A move that is not the next
one does nothing. -/
def advance (db : Db) (stage : Stage ε) (move : Move) : Effect × State ε :=
  let silent := fun stage => (Effect.silent, State.mk db stage)
  match stage, move with
  | .replaying, .replay now t port =>
      if readExhausted w inp now then silent (.raise .deadlineExceeded)
      else
        match port with
        | .error e => silent (.raise e)
        | .ok () => silent (onReplay decode validateEmotion
            (replayCommittedTurn t (some inp.authenticatedUserId) (some inp.requestId) db))
  | .starting attempt, .start now currentTime =>
      if inp.budget.remainingBeforeReserve now ≤ 0 then silent (.raise .deadlineExceeded)
      else silent (.timed attempt currentTime)
  | .timed attempt currentTime, .loadState now port =>
      if readExhausted w inp now then silent (.raise .deadlineExceeded)
      else
        match port, Cloud.loadState decode db inp.authenticatedUserId currentTime with
        | .error e, _ => silent (.raise e)
        | .ok (), none => silent (.raise (.turnExecution .internalError))
        | .ok (), some known => (.loaded known, ⟨db, .loaded attempt known⟩)
  | .loaded attempt known, .loadContext now port =>
      if readExhausted w inp now then silent (.raise .deadlineExceeded)
      else
        match port with
        | .error e => silent (.raise e)
        | .ok () => silent (.informed attempt known)
  | .informed attempt known, .appraise port =>
      match port with
      | .error e => (.provider, ⟨db, .raise e⟩)
      | .ok appraisal =>
          let emotional := dyn.emotion known.emotional appraisal known.currentTime
          match dyn.transitionRelationship known.relationship appraisal known.currentTime with
          | none => (.provider, ⟨db, .raise .relationshipDomain⟩)
          | some relationship =>
              (.provider, ⟨db, .moved attempt { known, appraisal, emotional, relationship }⟩)
  | .moved attempt c, .buildEnvelope port =>
      match port with
      | .error e => silent (.raise e)
      | .ok () => silent (.enveloped attempt c)
  | .enveloped attempt c, .generate port =>
      match port with
      | .error e => (.provider, ⟨db, .raise e⟩)
      | .ok response => (.provider, ⟨db, .generated attempt c response⟩)
  | .generated attempt c response, .commit now t ids f write =>
      if inp.budget.remaining now ≤ 0 then silent (.raise .deadlineExceeded)
      else
        let args := commitCall w inp c response f
        let (reply, db') := commitTurn t ids args db
        match write with
        | .unsent e => (.attempted args none, ⟨db, .raise e⟩)
        | .lost e => (.attempted args (some reply), ⟨db', .raise e⟩)
        | .delivered =>
            (.attempted args (some reply), ⟨db', onCommit decode validateEmotion attempt reply⟩)
  | .mismatched attempt e, .retry now =>
      if maxCommitAttempts ≤ attempt then silent (.finished (.error (parseErrorEnvelope e)))
      else if inp.budget.remainingBeforeReserve now ≤ 0 then silent (.raise .deadlineExceeded)
      else silent (.starting (attempt + 1))
  | stage, _ => silent stage

def step : Move → State ε → Effect × State ε
  | .other t call, s => (.silent, { s with db := (exec sha256 (t, call) s.db).2 })
  | move, s => advance decode dyn validateEmotion w inp s.db s.stage move

end

/-! ## What one step does -/

variable {ε : Type} {sha256 : PyStr → PyStr} {decode : Jsonb → PyVal} {dyn : Dynamics}
variable {validateEmotion : List (PyKey × PyVal) → Option ε} {w : Wiring} {inp : ProcessTurnInput}

/-- The snapshots are the transitions of the loaded ones. -/
structure Candidate.Moved (dyn : Dynamics) (c : Candidate) : Prop where
  emotional : c.emotional = dyn.emotion c.known.emotional c.appraisal c.known.currentTime
  relationship : dyn.transitionRelationship c.known.relationship c.appraisal c.known.currentTime
    = some c.relationship

section

variable (decode dyn validateEmotion w inp)

/-- The steps of `execute`. -/
inductive Advanced (db : Db) : Stage ε → Effect → State ε → Prop
  | idle (stage : Stage ε) : Advanced db stage .silent ⟨db, stage⟩
  | raised {stage : Stage ε} {effect : Effect} {e : TurnError}
      (heffect : effect = .silent ∨ effect = .provider) :
      Advanced db stage effect ⟨db, .finished (.error e)⟩
  | replayed {t : Timestamp} {turn : CommittedTurn}
      (h : replayCommittedTurn t (some inp.authenticatedUserId) (some inp.requestId) db
        = .result turn) :
      Advanced db .replaying .silent
        ⟨db, .finished (parsePublicResult decode validateEmotion turn.replayPayload)⟩
  | timed {attempt : Nat} {currentTime : PosFloat} :
      Advanced db (.starting attempt) .silent ⟨db, .timed attempt currentTime⟩
  | loaded {attempt : Nat} {known : Loaded}
      (h : Cloud.loadState decode db inp.authenticatedUserId known.currentTime = some known) :
      Advanced db (.timed attempt known.currentTime) (.loaded known) ⟨db, .loaded attempt known⟩
  | informed {attempt : Nat} {known : Loaded} :
      Advanced db (.loaded attempt known) .silent ⟨db, .informed attempt known⟩
  | moved {attempt : Nat} {c : Candidate} (hc : c.Moved dyn) :
      Advanced db (.informed attempt c.known) .provider ⟨db, .moved attempt c⟩
  | enveloped {attempt : Nat} {c : Candidate} :
      Advanced db (.moved attempt c) .silent ⟨db, .enveloped attempt c⟩
  | generated {attempt : Nat} {c : Candidate} {response : PyStr} :
      Advanced db (.enveloped attempt c) .provider ⟨db, .generated attempt c response⟩
  | unsent {attempt : Nat} {c : Candidate} {response : PyStr} {f : Fresh} {e : PortError} :
      Advanced db (.generated attempt c response) (.attempted (commitCall w inp c response f) none)
        ⟨db, .raise e⟩
  | lost {attempt : Nat} {c : Candidate} {response : PyStr} {f : Fresh} {e : PortError}
      {t : Timestamp} {ids : FreshIds} {reply : CommitReply} {db' : Db}
      (h : CommitStep t ids (commitCall w inp c response f) db reply db') :
      Advanced db (.generated attempt c response)
        (.attempted (commitCall w inp c response f) (some reply)) ⟨db', .raise e⟩
  | delivered {attempt : Nat} {c : Candidate} {response : PyStr} {f : Fresh} {t : Timestamp}
      {ids : FreshIds} {reply : CommitReply} {db' : Db}
      (h : CommitStep t ids (commitCall w inp c response f) db reply db') :
      Advanced db (.generated attempt c response)
        (.attempted (commitCall w inp c response f) (some reply))
        ⟨db', onCommit decode validateEmotion attempt reply⟩
  | retried {attempt : Nat} {e : Envelope} (hattempt : attempt < maxCommitAttempts) :
      Advanced db (.mismatched attempt e) .silent ⟨db, .starting (attempt + 1)⟩

end

theorem currentTime_of_loadState {db : Db} {user : PyStr} {currentTime : PosFloat} {known : Loaded}
    (h : Cloud.loadState decode db user currentTime = some known) :
    known.currentTime = currentTime := by
  simp only [Cloud.loadState, Option.bind_eq_bind, Option.bind_eq_some_iff] at h
  obtain ⟨state, -, emotional, -, h⟩ := h
  split at h
  · cases h
    rfl
  · obtain ⟨relationship, -, h⟩ := Option.bind_eq_some_iff.mp h
    cases h
    rfl

theorem Advanced.onReplay {db : Db} {t : Timestamp} :
    Advanced decode dyn validateEmotion w inp db .replaying .silent
      ⟨db, onReplay decode validateEmotion
        (replayCommittedTurn t (some inp.authenticatedUserId) (some inp.requestId) db)⟩ := by
  cases hreply : replayCommittedTurn t (some inp.authenticatedUserId) (some inp.requestId) db with
  | result turn => exact .replayed hreply
  | error e => exact .raised (.inl rfl)
  | requestInProgress => exact .raised (.inl rfl)
  | requestReplayUnavailable => exact .raised (.inl rfl)
  | raised => exact .raised (.inl rfl)

/-- **What `execute` can do in one step.** -/
theorem advance_advanced (db : Db) (stage : Stage ε) (move : Move) :
    Advanced decode dyn validateEmotion w inp db stage
      (advance decode dyn validateEmotion w inp db stage move).1
      (advance decode dyn validateEmotion w inp db stage move).2 := by
  unfold advance
  split
  · -- `replay`
    split
    · exact .raised (.inl rfl)
    · split
      · exact .raised (.inl rfl)
      · exact .onReplay
  · -- `start`
    split
    · exact .raised (.inl rfl)
    · exact .timed
  · -- `loadState`
    split
    · exact .raised (.inl rfl)
    · split
      · exact .raised (.inl rfl)
      · exact .raised (.inl rfl)
      · next known hknown =>
          obtain rfl := currentTime_of_loadState hknown
          exact .loaded hknown
  · -- `loadContext`
    split
    · exact .raised (.inl rfl)
    · split
      · exact .raised (.inl rfl)
      · exact .informed
  · -- `appraise`
    split
    · exact .raised (.inr rfl)
    · next attempt known _ appraisal =>
        simp only
        split
        · exact .raised (.inr rfl)
        · next relationship hrelationship =>
            exact .moved (c := { known, appraisal, emotional := _, relationship }) ⟨rfl, hrelationship⟩
  · -- `buildEnvelope`
    split
    · exact .raised (.inl rfl)
    · exact .enveloped
  · -- `generate`
    split
    · exact .raised (.inr rfl)
    · exact .generated
  · -- `commit`
    next attempt c response now t ids f write =>
    split
    · exact .raised (.inl rfl)
    · have hstep := commitTurn_step t ids (commitCall w inp c response f) db
      cases write with
      | unsent e => exact .unsent
      | lost e => exact .lost hstep
      | delivered => exact .delivered hstep
  · -- `retry`
    split
    · exact .raised (.inl rfl)
    · next hattempt =>
        split
        · exact .raised (.inl rfl)
        · exact .retried (not_le.mp hattempt)
  · exact .idle _

/-! ## The attempts of a run -/

section

variable (sha256 decode dyn validateEmotion w inp)

/-- One step of the run of `execute`. -/
abbrev TurnEvent := Event (step (ε := ε) sha256 decode dyn validateEmotion w inp)

end

variable {es : List (TurnEvent (ε := ε) sha256 decode dyn validateEmotion w inp)}

def Effect.isAttempt : Effect → Bool
  | .attempted _ _ => true
  | _ => false

/-- The attempt was answered with `revision_mismatch`. -/
def Effect.IsMismatch (effect : Effect) : Prop :=
  ∃ args e, effect = .attempted args (some (.error e)) ∧ e.code = .revisionMismatch

/-- The attempt that is under way. -/
def Stage.working : Stage ε → Option Nat
  | .starting attempt => some attempt
  | .timed attempt _ => some attempt
  | .loaded attempt _ => some attempt
  | .informed attempt _ => some attempt
  | .moved attempt _ => some attempt
  | .enveloped attempt _ => some attempt
  | .generated attempt _ _ => some attempt
  | _ => none

/-- How many attempts are still possible. -/
def Stage.rest : Stage ε → Nat
  | .mismatched attempt _ => maxCommitAttempts - attempt
  | stage =>
      match stage.working with
      | some attempt => maxCommitAttempts + 1 - attempt
      | none => 0

/-- More attempts may come. -/
def Stage.isOpen : Stage ε → Bool
  | .mismatched _ _ => true
  | stage => stage.working.isSome

/-- The state the attempt under way has loaded. -/
def Stage.known? : Stage ε → Option Loaded
  | .loaded _ known => some known
  | .informed _ known => some known
  | .moved _ c => some c.known
  | .enveloped _ c => some c.known
  | .generated _ c _ => some c.known
  | _ => none

def Stage.candidate? : Stage ε → Option Candidate
  | .moved _ c => some c
  | .enveloped _ c => some c
  | .generated _ c _ => some c
  | _ => none

/-- The step loaded `known` from the database as it was then. -/
def Loads (known : Loaded) (e : TurnEvent (ε := ε) sha256 decode dyn validateEmotion w inp) : Prop :=
  e.reply = .loaded known ∧
    Cloud.loadState decode e.before.db inp.authenticatedUserId known.currentTime = some known

/-- `known` was loaded after the last attempt of `pre`. -/
def LoadedSince (known : Loaded)
    (pre : List (TurnEvent (ε := ε) sha256 decode dyn validateEmotion w inp)) : Prop :=
  ∃ a l b, pre = a ++ l :: b ∧ Loads known l ∧ ∀ x ∈ b, x.reply.isAttempt = false

/-- What the steps so far have to do with where `execute` is. -/
structure History (pre : List (TurnEvent (ε := ε) sha256 decode dyn validateEmotion w inp))
    (s : State ε) : Prop where
  few : pre.countP (·.reply.isAttempt) + s.stage.rest ≤ maxCommitAttempts
  room : s.stage.working.isSome = true → 0 < s.stage.rest
  mismatched : s.stage.isOpen = true → ∀ e ∈ pre, e.reply.isAttempt = true → e.reply.IsMismatch
  known : ∀ known, s.stage.known? = some known → LoadedSince known pre
  candidate : ∀ c, s.stage.candidate? = some c → c.Moved dyn

theorem history_start (db : Db) :
    History ([] : List (TurnEvent (ε := ε) sha256 decode dyn validateEmotion w inp))
      ⟨db, start inp⟩ := by
  rw [start]
  cases inp.mode with
  | normal =>
      refine ⟨le_rfl, fun _ => Nat.zero_lt_two, by simp, ?_, ?_⟩
      · intro known h
        cases h
      · intro c h
        cases h
  | replayAttempt =>
      refine ⟨Nat.zero_le _, (by simp [Stage.working]), by simp, ?_, ?_⟩
      · intro known h
        cases h
      · intro c h
        cases h

section

variable {pre : List (TurnEvent (ε := ε) sha256 decode dyn validateEmotion w inp)} {s : State ε}
variable {e : TurnEvent (ε := ε) sha256 decode dyn validateEmotion w inp} {db : Db} {stage : Stage ε}

theorem LoadedSince.snoc {known : Loaded} (h : LoadedSince known pre)
    (he : e.reply.isAttempt = false) : LoadedSince known (pre ++ [e]) := by
  obtain ⟨a, l, b, rfl, hl, hb⟩ := h
  refine ⟨a, l, b ++ [e], by simp, hl, ?_⟩
  intro x hx
  rcases List.mem_append.mp hx with hx | hx
  · exact hb x hx
  · rw [List.mem_singleton.mp hx]
    exact he

/-- A step that is no attempt. -/
theorem History.quiet (h : History pre s) (he : e.reply.isAttempt = false)
    (hrest : stage.rest ≤ s.stage.rest) (hroom : stage.working.isSome = true → 0 < stage.rest)
    (hopen : stage.isOpen = true → s.stage.isOpen = true)
    (hknown : ∀ known, stage.known? = some known → s.stage.known? = some known ∨ Loads known e)
    (hcandidate : ∀ c, stage.candidate? = some c → c.Moved dyn) :
    History (pre ++ [e]) ⟨db, stage⟩ := by
  refine ⟨?_, hroom, ?_, ?_, hcandidate⟩
  · have := h.few
    rw [List.countP_append, List.countP_singleton, if_neg (by simp [he])]
    show _ + stage.rest ≤ _
    omega
  · intro ho x hx hattempt
    rcases List.mem_append.mp hx with hx | hx
    · exact h.mismatched (hopen ho) x hx hattempt
    · rw [List.mem_singleton.mp hx, he] at hattempt
      cases hattempt
  · intro known hk
    rcases hknown known hk with hk | hl
    · exact (h.known known hk).snoc he
    · exact ⟨pre, e, [], rfl, hl, by simp⟩

/-- An attempt uses up one of those that were possible. -/
theorem History.attempt (h : History pre s) (he : e.reply.isAttempt = true)
    (hopen : s.stage.isOpen = true) (hrest : stage.rest + 1 ≤ s.stage.rest)
    (hworking : stage.working = none) (hmismatch : stage.isOpen = true → e.reply.IsMismatch)
    (hknown : stage.known? = none) (hcandidate : stage.candidate? = none) :
    History (pre ++ [e]) ⟨db, stage⟩ := by
  refine ⟨?_, ?_, ?_, ?_, ?_⟩
  · have := h.few
    rw [List.countP_append, List.countP_singleton, if_pos he]
    show _ + stage.rest ≤ _
    omega
  · intro hw
    rw [hworking] at hw
    cases hw
  · intro ho x hx hattempt
    rcases List.mem_append.mp hx with hx | hx
    · exact h.mismatched hopen x hx hattempt
    · rw [List.mem_singleton.mp hx]
      exact hmismatch ho
  · intro known hk
    rw [hknown] at hk
    cases hk
  · intro c hc
    rw [hcandidate] at hc
    cases hc

end

/-- What a step of the run is: one of `execute`, or it leaves `execute` where it is. -/
theorem TurnEvent.cases (e : TurnEvent (ε := ε) sha256 decode dyn validateEmotion w inp) :
    (e.reply = .silent ∧ e.after.stage = e.before.stage) ∨
      Advanced decode dyn validateEmotion w inp e.before.db e.before.stage e.reply e.after := by
  have hstep : ∀ (move : Move) (s : State ε),
      ((step sha256 decode dyn validateEmotion w inp move s).1 = .silent ∧
        (step sha256 decode dyn validateEmotion w inp move s).2.stage = s.stage) ∨
      Advanced decode dyn validateEmotion w inp s.db s.stage
        (step sha256 decode dyn validateEmotion w inp move s).1
        (step sha256 decode dyn validateEmotion w inp move s).2 := by
    intro move s
    cases move with
    | other t call => exact .inl ⟨rfl, rfl⟩
    | _ => exact .inr (advance_advanced s.db s.stage _)
  have h := hstep e.input e.before
  rwa [e.executed] at h

/-- A delivered answer ends `execute`, or it is a mismatch. -/
theorem onCommit_cases (decode : Jsonb → PyVal)
    (validateEmotion : List (PyKey × PyVal) → Option ε) (attempt : Nat) (reply : CommitReply) :
    (∃ outcome, onCommit decode validateEmotion attempt reply = .finished outcome) ∨
      ∃ e, reply = .error e ∧ e.code = .revisionMismatch ∧
        onCommit decode validateEmotion attempt reply = .mismatched attempt e := by
  cases reply with
  | result turn => exact .inl ⟨_, rfl⟩
  | error e =>
      rw [onCommit]
      split
      · next hcode => exact .inr ⟨e, rfl, hcode, rfl⟩
      · exact .inl ⟨_, rfl⟩
  | raised => exact .inl ⟨_, rfl⟩

/-- **One step keeps the history.** -/
theorem history_step {pre : List (TurnEvent (ε := ε) sha256 decode dyn validateEmotion w inp)}
    (e : TurnEvent (ε := ε) sha256 decode dyn validateEmotion w inp) (h : History pre e.before) :
    History (pre ++ [e]) e.after := by
  rcases e.cases with ⟨hsilent, hstage⟩ | hadv
  · have hquiet : e.reply.isAttempt = false := by rw [hsilent]; rfl
    have : History (pre ++ [e]) ⟨e.after.db, e.before.stage⟩ :=
      h.quiet hquiet le_rfl h.room id (fun _ hk => .inl hk) h.candidate
    rwa [← hstage] at this
  · generalize hbefore : e.before.stage = stage at hadv
    generalize hreply : e.reply = effect at hadv
    generalize e.after = after at hadv ⊢
    have few := h.few
    have room := h.room
    have candidate := h.candidate
    have isKnown := h.known
    rw [hbefore] at few room candidate isKnown
    -- where the stage of the attempt goes on, nothing has to be shown but what is new in it
    cases hadv with
    | idle =>
        exact h.quiet (by rw [hreply]; rfl) (by rw [hbefore]) room (by rw [hbefore]; exact id)
          (by rw [hbefore]; exact fun _ hk => .inl hk) candidate
    | raised heffect =>
        refine h.quiet ?_ (Nat.zero_le _) (by simp [Stage.working]) (by simp [Stage.isOpen, Stage.working])
          (by simp [Stage.known?]) (by simp [Stage.candidate?])
        rw [hreply]
        rcases heffect with rfl | rfl <;> rfl
    | replayed =>
        exact h.quiet (by rw [hreply]; rfl) (Nat.zero_le _) (by simp [Stage.working])
          (by simp [Stage.isOpen, Stage.working]) (by simp [Stage.known?]) (by simp [Stage.candidate?])
    | timed =>
        exact h.quiet (by rw [hreply]; rfl) (by rw [hbefore]; exact le_rfl) room
          (by rw [hbefore]; exact id) (by simp [Stage.known?]) (by simp [Stage.candidate?])
    | loaded hload =>
        refine h.quiet (by rw [hreply]; rfl) (by rw [hbefore]; exact le_rfl) room
          (by rw [hbefore]; exact id) ?_ (by simp [Stage.candidate?])
        intro known hk
        cases hk
        exact .inr ⟨hreply, hload⟩
    | informed =>
        exact h.quiet (by rw [hreply]; rfl) (by rw [hbefore]; exact le_rfl) room
          (by rw [hbefore]; exact id) (by rw [hbefore]; exact fun _ hk => .inl hk)
          (by simp [Stage.candidate?])
    | moved hc =>
        refine h.quiet (by rw [hreply]; rfl) (by rw [hbefore]; exact le_rfl) room
          (by rw [hbefore]; exact id) (by rw [hbefore]; exact fun _ hk => .inl hk) ?_
        intro c' hc'
        cases hc'
        exact hc
    | enveloped =>
        exact h.quiet (by rw [hreply]; rfl) (by rw [hbefore]; exact le_rfl) room
          (by rw [hbefore]; exact id) (by rw [hbefore]; exact fun _ hk => .inl hk) candidate
    | generated =>
        exact h.quiet (by rw [hreply]; rfl) (by rw [hbefore]; exact le_rfl) room
          (by rw [hbefore]; exact id) (by rw [hbefore]; exact fun _ hk => .inl hk) candidate
    | unsent =>
        exact h.attempt (by rw [hreply]; rfl) (by rw [hbefore]; rfl) (by rw [hbefore]; exact room rfl)
          rfl (by simp [Stage.raise, Stage.isOpen, Stage.working]) rfl rfl
    | lost =>
        exact h.attempt (by rw [hreply]; rfl) (by rw [hbefore]; rfl) (by rw [hbefore]; exact room rfl)
          rfl (by simp [Stage.raise, Stage.isOpen, Stage.working]) rfl rfl
    | @delivered attempt c response f t ids reply db' hcommit =>
        rcases onCommit_cases decode validateEmotion attempt reply with
          ⟨outcome, hout⟩ | ⟨env, rfl, hcode, hout⟩
        · rw [hout]
          exact h.attempt (by rw [hreply]; rfl) (by rw [hbefore]; rfl)
            (by rw [hbefore]; exact room rfl) rfl (by simp [Stage.isOpen, Stage.working]) rfl rfl
        · rw [hout]
          refine h.attempt (by rw [hreply]; rfl) (by rw [hbefore]; rfl) ?_ rfl
            (fun _ => ⟨_, env, hreply, hcode⟩) rfl rfl
          have hroom := room rfl
          rw [hbefore]
          simp only [Stage.rest, Stage.working] at hroom ⊢
          omega
    | retried hattempt =>
        refine h.quiet (by rw [hreply]; rfl) ?_ ?_ (by rw [hbefore]; exact fun _ => rfl)
          (by simp [Stage.known?]) (by simp [Stage.candidate?])
        · rw [hbefore]
          simp only [Stage.rest, Stage.working]
          omega
        · intro _
          simp only [Stage.rest, Stage.working]
          omega

theorem history_run {db : Db} {s : State ε} (hrun : Run ⟨db, start inp⟩ es s) :
    History es s ∧ ∀ pre e post, es = pre ++ e :: post → History pre e.before :=
  hrun.history (history_start db) fun _ e _ _ h => history_step e h

/-! ## At most one commit -/

/-- The step completed the request. -/
def Completes (key : PyStr × Uuid) (e : TurnEvent (ε := ε) sha256 decode dyn validateEmotion w inp) :
    Prop :=
  e.before.db.isCompleted key = false ∧ e.after.db.isCompleted key = true

/-- The database answers `revision_mismatch` only where it has written nothing. -/
theorem db_of_mismatch {e : TurnEvent (ε := ε) sha256 decode dyn validateEmotion w inp}
    (h : e.reply.IsMismatch) : e.after.db = e.before.db := by
  obtain ⟨args, env, hreply, hcode⟩ := h
  rcases e.cases with ⟨hsilent, -⟩ | hadv
  · rw [hsilent] at hreply
    cases hreply
  · generalize e.before.stage = stage at hadv
    generalize e.after = after at hadv ⊢
    rw [hreply] at hadv
    cases hadv with
    | raised heffect => rcases heffect with heffect | heffect <;> cases heffect
    | lost hcommit =>
        cases hcommit with
        | refused => rfl
    | delivered hcommit =>
        cases hcommit with
        | refused => rfl

/-- An attempt is made on a candidate, and the candidate is what the commit is made of. -/
theorem attempt_inv {e : TurnEvent (ε := ε) sha256 decode dyn validateEmotion w inp}
    (h : e.reply.isAttempt = true) : ∃ attempt c response f reply,
      e.before.stage = .generated attempt c response ∧
        e.reply = .attempted (commitCall w inp c response f) reply := by
  rcases e.cases with ⟨hsilent, -⟩ | hadv
  · rw [hsilent] at h
    cases h
  · generalize e.before.stage = stage at hadv ⊢
    generalize e.after = after at hadv
    generalize e.reply = effect at hadv h ⊢
    cases hadv with
    | raised heffect => rcases heffect with rfl | rfl <;> cases h
    | unsent => exact ⟨_, _, _, _, _, rfl, rfl⟩
    | lost => exact ⟨_, _, _, _, _, rfl, rfl⟩
    | delivered => exact ⟨_, _, _, _, _, rfl, rfl⟩
    | _ => cases h

/-- The stored payload of a completed request. -/
def Stores (db : Db) (key : PyStr × Uuid) (payload : Jsonb) : Prop :=
  ∃ row n at_, db.turnRequests.get? key = some row ∧ row.state = .completed n payload at_

theorem stores_of_replay {t : Timestamp} {db : Db} {user : PyStr} {request : Uuid}
    {turn : CommittedTurn} (h : replayCommittedTurn t (some user) (some request) db = .result turn) :
    Stores db (user, request) turn.replayPayload := by
  unfold replayCommittedTurn at h
  split at h
  · cases h
  · cases h
  · next user' request' huser hrequest =>
      have huser : user = user' := by
        obtain ⟨hsome, -⟩ := Option.filter_eq_some_iff.mp huser
        exact Option.some.inj hsome
      obtain rfl := Option.some.inj hrequest
      subst huser
      split at h
      · cases h
      · next row hrow =>
          split at h
          · next n payload at_ hstate =>
              split at h
              · cases h
              · cases h
                refine ⟨row, n, at_, hrow, ?_⟩
                rw [TurnRequest.buildResult, hstate]
          · split at h <;> cases h
          · cases h

theorem stores_of_commit {t : Timestamp} {ids : FreshIds} {c : Candidate} {response : PyStr}
    {f : Fresh} {db db' : Db} {turn : CommittedTurn}
    (h : CommitStep t ids (commitCall w inp c response f) db (.result turn) db') :
    Stores db' inp.key turn.replayPayload := by
  cases h with
  | replayed i r hv hr hs =>
      have hkey : i.key = inp.key := (validateCommit_ok hv).key rfl rfl
      obtain ⟨n, payload, at_, hs⟩ := hs
      rw [hkey] at hr
      refine ⟨r, n, at_, hr, ?_⟩
      rw [TurnRequest.buildResult, hs]
  | fresh i row _ hv hc =>
      have hkey : i.key = inp.key := (validateCommit_ok hv).key rfl rfl
      refine ⟨row, db.revision i.userId + 1, t, ?_, ?_⟩
      · rw [hc.turnRequests, Table.get?_put, if_pos (by rw [hc.key, hkey])]
      · rw [TurnRequest.buildResult, hc.state]

/-- A run of `execute` commits at most once, from the state it has loaded last, and returns what
the ledger stores. -/
structure CommitsOnce (es : List (TurnEvent (ε := ε) sha256 decode dyn validateEmotion w inp)) :
    Prop where
  atMostTwo : es.countP (·.reply.isAttempt) ≤ 2
  /-- Another attempt follows a `revision_mismatch` only. -/
  afterMismatch : ∀ pre e₁ mid e₂ post, es = pre ++ e₁ :: (mid ++ e₂ :: post) →
    e₁.reply.isAttempt = true → e₂.reply.isAttempt = true → e₁.reply.IsMismatch
  /-- An attempt sends the transition of the state that was loaded after the attempt before it,
  with the revision of that load. -/
  freshlyLoaded : ∀ pre e post, es = pre ++ e :: post → e.reply.isAttempt = true →
    ∃ c response f reply, e.reply = .attempted (commitCall w inp c response f) reply ∧
      LoadedSince c.known pre ∧ c.Moved dyn
  /-- No two attempts complete the request. -/
  once : ∀ pre e₁ mid e₂ post, es = pre ++ e₁ :: (mid ++ e₂ :: post) →
    e₁.reply.isAttempt = true → e₂.reply.isAttempt = true →
    ¬ (Completes inp.key e₁ ∧ Completes inp.key e₂)
  /-- What is returned is the public part of the payload that is stored. -/
  returnsStored : ∀ e ∈ es, ∀ result, (∀ outcome, e.before.stage ≠ .finished outcome) →
    e.after.stage = .finished (.ok result) →
    ∃ payload, Stores e.after.db inp.key payload ∧
      parsePublicResult decode validateEmotion payload = .ok result

/-- **One commit.** Whatever its ports do, however much time is left, and whoever else uses the
database. -/
theorem process_turn_commits_once {db : Db} {s : State ε} (hrun : Run ⟨db, start inp⟩ es s) :
    CommitsOnce es := by
  obtain ⟨hlast, hhistory⟩ := history_run hrun
  have open_of_attempt : ∀ e : TurnEvent (ε := ε) sha256 decode dyn validateEmotion w inp,
      e.reply.isAttempt = true → e.before.stage.isOpen = true := by
    intro e he
    obtain ⟨_, _, _, _, _, hstage, -⟩ := attempt_inv he
    rw [hstage]
    rfl
  have afterMismatch : ∀ pre e₁ mid e₂ post, es = pre ++ e₁ :: (mid ++ e₂ :: post) →
      e₁.reply.isAttempt = true → e₂.reply.isAttempt = true → e₁.reply.IsMismatch := by
    intro pre e₁ mid e₂ post hsplit h₁ h₂
    have h := hhistory (pre ++ e₁ :: mid) e₂ post (by rw [hsplit, List.append_assoc]; rfl)
    exact h.mismatched (open_of_attempt e₂ h₂) e₁ (by simp) h₁
  refine ⟨le_trans (Nat.le_add_right _ _) hlast.few, afterMismatch, ?_, ?_, ?_⟩
  · intro pre e post hsplit he
    have h := hhistory pre e post hsplit
    obtain ⟨attempt, c, response, f, reply, hstage, hreply⟩ := attempt_inv he
    refine ⟨c, response, f, reply, hreply, h.known _ ?_, h.candidate _ ?_⟩
    · rw [hstage]
      rfl
    · rw [hstage]
      rfl
  · intro pre e₁ mid e₂ post hsplit h₁ h₂ hboth
    obtain ⟨hbefore, hafter⟩ := hboth.1
    rw [db_of_mismatch (afterMismatch pre e₁ mid e₂ post hsplit h₁ h₂), hbefore] at hafter
    cases hafter
  · intro e he result hunfinished hfinished
    rcases e.cases with ⟨-, hstage⟩ | hadv
    · rw [hstage] at hfinished
      exact absurd hfinished (hunfinished _)
    · generalize e.before.stage = stage at hadv hunfinished
      generalize e.before.db = before at hadv
      generalize e.after = after at hadv hfinished ⊢
      generalize e.reply = effect at hadv
      cases hadv with
      | idle => exact absurd hfinished (hunfinished _)
      | raised => cases hfinished
      | replayed h => exact ⟨_, stores_of_replay h, by simpa using hfinished⟩
      | unsent => cases hfinished
      | lost => cases hfinished
      | @delivered attempt c response f t ids reply db' hcommit =>
          cases reply with
          | result turn => exact ⟨_, stores_of_commit hcommit, by simpa [onCommit] using hfinished⟩
          | error env =>
              rw [onCommit] at hfinished
              split at hfinished <;> cases hfinished
          | raised => cases hfinished
      | _ => cases hfinished

/-! ## A run with a retry -/

def retryRequest : Uuid := ⟨py "55555555-5555-4555-8555-555555555555", by decide⟩

def retryInput : ProcessTurnInput :=
  { authenticatedUserId := sampleUser, requestId := retryRequest, userMessage := py "hi",
    budget := ⟨45, 10⟩, mode := .normal }

def retryWiring : Wiring := ⟨5, false, py "process-turn-v1:1"⟩

def retryFresh : Fresh :=
  ⟨py "44444444-4444-4444-8444-444444444444", 7, List.replicate 64 (cp 'b')⟩

/-- One attempt, from the loading to the commit. -/
def attemptMoves (first : Int) : List Move :=
  [.start 0 lateTime, .loadState 0 (.ok ()), .loadContext 0 (.ok ()), .appraise (.ok .neutral),
    .buildEnvelope (.ok ()), .generate (.ok (py "hello")),
    .commit 1 0 { sampleIds first with turnRequestId := retryRequest } retryFresh .delivered]

/-- Another turn of the user commits between the loading and the commit of the first attempt. -/
def retryMoves : List Move :=
  (attemptMoves 5).take 6 ++ .other sampleTimes (.commitTurn (sampleIds 1) (sampleArgs 1))
    :: (attemptMoves 5).drop 6 ++ .retry 2 :: attemptMoves 7

def retryEvents : List (TurnEvent resetSha256 loadsDecode stillDynamics some retryWiring retryInput) :=
  trace _ retryMoves ⟨overtakenStart.db, start retryInput⟩

def Stage.isSuccess : Stage ε → Bool
  | .finished (.ok _) => true
  | _ => false

theorem process_turn_commits_once_retry : CommitsOnce retryEvents ∧
    retryEvents.countP (·.reply.isAttempt) = 2 ∧
    retryEvents.any (·.after.stage.isSuccess) = true :=
  ⟨process_turn_commits_once
      (Run.ofInputs retryMoves (State.mk overtakenStart.db (start retryInput))).choose_spec,
    by decide +kernel, by decide +kernel⟩

end Katherine.Cloud.ProcessTurn
