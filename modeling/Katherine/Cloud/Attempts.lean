import Katherine.Transition
import Katherine.Cloud.Service

/-!
# Turn attempts over one clock

`ProcessTurn._execute_normal` and `_run_once`, for any number of turns at once, over the
hosted database and one clock that does not go back. Between two steps of an attempt
anything can happen: other attempts move, `PrivacyService` resets a snapshot, the
database runs calls of somebody else.

What the clock does not enter is an input of the step: the context that was loaded, the
appraisal, the text of the response, the identifiers of the commit. An attempt that fails
for a reason of its own (a deadline, the provider, the envelope) fails by `fail`.

`decode` is what the database client returns for a stored document.
-/

namespace Katherine.Cloud

open Py Sql Pg Runs

/-! ## Loading -/

/-- `LoadedUserState`; its `user_id` is the argument. -/
structure LoadedUserState where
  revision : Nat
  personaConfig : Option PyStr
  userProfile : List (PyKey × PyVal)
  emotionalState : List (PyKey × PyVal)
  relationshipState : List (PyKey × PyVal)

/-- A snapshot column: `NULL` is `{}`, and what is not a mapping is an error. -/
def snapshotColumn (decode : Jsonb → PyVal) : Option Jsonb → Option (List (PyKey × PyVal))
  | none => some []
  | some doc =>
      match decode doc with
      | .none => some []
      | v => v.items?

/-- `UserStateRepository.load`; `none` is "Invalid persisted … state.". A missing profile is the
neutral state of the default timestamp, with revision 0. -/
def loadUserState (decode : Jsonb → PyVal) (db : Db) (user : PyStr) (defaultTimestamp : PosFloat) :
    Option LoadedUserState :=
  match db.profiles.get? user with
  | none =>
      some { revision := 0, personaConfig := none, userProfile := [],
             emotionalState := (EmotionalStateV1.neutral defaultTimestamp).toDict,
             relationshipState := (RelationshipStateV1.neutral defaultTimestamp).toDict }
  | some p => do
      let emotionalState ← snapshotColumn decode p.emotionalState
      let relationshipState ← snapshotColumn decode p.relationshipState
      some { revision := p.revision, personaConfig := p.personaConfig,
             userProfile := (p.userProfile.bind fun doc => (decode doc).items?).getD [],
             emotionalState, relationshipState }

/-- What an attempt knows once the state is loaded. -/
structure Loaded where
  currentTime : PosFloat
  revision : Nat
  emotional : EmotionalStateV1
  relationship : RelationshipStateV1

/-- Step 1 of `_run_once`: the state, through the migrations. -/
def loadState (decode : Jsonb → PyVal) (db : Db) (user : PyStr) (currentTime : PosFloat) :
    Option Loaded := do
  let state ← loadUserState decode db user currentTime
  let emotional ← migrateLegacySnapshot state.emotionalState
  let relationship ←
    if state.relationshipState.isEmpty then some (RelationshipStateV1.neutral currentTime)
    else migrateLegacyRelationshipSnapshot state.relationshipState
  some { currentTime, revision := state.revision, emotional, relationship }

/-! ## One turn -/

inductive TurnOutcome
  | committed
  /-- `revision_mismatch` on the last attempt. -/
  | conflict
  /-- `transition_relationship` raised: the clock is behind the snapshot. -/
  | clockRegression
  /-- Any other error. -/
  | failed
deriving DecidableEq

/-- Where `_run_once` is. -/
inductive Stage
  /-- Before the clock is read. -/
  | begun
  /-- The clock was read, the state is not loaded yet. -/
  | timed (currentTime : PosFloat)
  | loaded (known : Loaded)
  /-- The context is loaded too. -/
  | informed (known : Loaded)
  | appraised (known : Loaded) (appraisal : AppraisalV1)
  /-- After the two transitions. -/
  | moved (known : Loaded) (emotional : EmotionalStateV1) (relationship : RelationshipStateV1)
  | generated (known : Loaded) (emotional : EmotionalStateV1) (relationship : RelationshipStateV1)
      (response : PyStr)
  | finished (outcome : TurnOutcome)

/-- A call of `_execute_normal`. -/
structure Turn where
  user : PyStr
  attempt : Nat
  stage : Stage

/-- `MAX_COMMIT_ATTEMPTS`. -/
def maxCommitAttempts : Nat := 2

/-- `revision_mismatch`: once more from the start, or the end. -/
def Turn.retry (turn : Turn) : Turn :=
  if maxCommitAttempts ≤ turn.attempt then { turn with stage := .finished .conflict }
  else { turn with attempt := turn.attempt + 1, stage := .begun }

/-- What the answer of `commit_turn` does to the turn. -/
def Turn.onCommit (turn : Turn) : Reply → Turn
  | .commit (.result _) => { turn with stage := .finished .committed }
  | .commit (.error e) =>
      if e.code = .revisionMismatch then turn.retry else { turn with stage := .finished .failed }
  | _ => { turn with stage := .finished .failed }

/-- The arguments of the commit. `rest` has what the attempt takes from elsewhere: the request, the
message, the digest, the replay payload, the events and the lease. -/
def commitArgs (user : PyStr) (known : Loaded) (emotional : EmotionalStateV1)
    (relationship : RelationshipStateV1) (response : PyStr) (rest : CommitArgs) : CommitArgs :=
  { rest with
    authenticatedUserId := some user
    expectedRevision := some known.revision
    assistantMessage := some response
    publicResponse := some response
    emotionalState := Jsonb.ofPy (.dict emotional.toDict)
    relationshipState := Jsonb.ofPy (.dict relationship.toDict) }

/-! ## The backend -/

/-- A privacy action that has read the clock and not called the database yet. -/
structure PrivacyRequest where
  operation : Operation
  user : PyStr
  operationId : PyStr
  reading : PosFloat

structure Backend where
  clock : PosFloat
  db : Db
  turns : Nat → Turn
  requests : Nat → Option PrivacyRequest

/-- The calls of `ProcessTurn` and `PrivacyService`. -/
def Call.isClocked : Call → Bool
  | .commitTurn .. => true
  | .privacyApplyOperation .. => true
  | _ => false

inductive BackendMove
  /-- The clock goes on. -/
  | tick (time : PosFloat)
  /-- A new turn in a slot whose turn is over. -/
  | begin (n : Nat) (user : PyStr)
  | readClock (n : Nat)
  | loadState (n : Nat)
  | loadContext (n : Nat)
  | appraise (n : Nat) (appraisal : AppraisalV1)
  | transition (n : Nat)
  | generate (n : Nat) (response : PyStr)
  | commit (n : Nat) (t : Times) (ids : FreshIds) (rest : CommitArgs)
  | fail (n : Nat)
  /-- A privacy action builds its payload. -/
  | request (k : Nat) (operation : Operation) (user operationId : PyStr)
  /-- A privacy action calls the database. -/
  | apply (k : Nat) (now : Timestamp)
  /-- Somebody else's call. -/
  | other (t : Times) (call : { c : Call // c.isClocked = false })

def Backend.setTurn (s : Backend) (n : Nat) (turn : Turn) : Backend :=
  { s with turns := Function.update s.turns n turn }

def Backend.setStage (s : Backend) (n : Nat) (stage : Stage) : Backend :=
  s.setTurn n { s.turns n with stage }

section

variable (sha256 : PyStr → PyStr) (decode : Jsonb → PyVal) (dyn : Dynamics)

/-- One step. A step that is not the turn's next one does nothing. -/
def Backend.step (s : Backend) : BackendMove → Backend
  | .tick time => if time.val.lt s.clock.val then s else { s with clock := time }
  | .begin n user =>
      match (s.turns n).stage with
      | .finished _ => s.setTurn n { user, attempt := 1, stage := .begun }
      | _ => s
  | .readClock n =>
      match (s.turns n).stage with
      | .begun => s.setStage n (.timed s.clock)
      | _ => s
  | .loadState n =>
      match (s.turns n).stage with
      | .timed currentTime =>
          match Cloud.loadState decode s.db (s.turns n).user currentTime with
          | some known => s.setStage n (.loaded known)
          | none => s.setStage n (.finished .failed)
      | _ => s
  | .loadContext n =>
      match (s.turns n).stage with
      | .loaded known => s.setStage n (.informed known)
      | _ => s
  | .appraise n appraisal =>
      match (s.turns n).stage with
      | .informed known => s.setStage n (.appraised known appraisal)
      | _ => s
  | .transition n =>
      match (s.turns n).stage with
      | .appraised known appraisal =>
          let emotional := dyn.emotion known.emotional appraisal known.currentTime
          match dyn.transitionRelationship known.relationship appraisal known.currentTime with
          | some relationship => s.setStage n (.moved known emotional relationship)
          | none => s.setStage n (.finished .clockRegression)
      | _ => s
  | .generate n response =>
      match (s.turns n).stage with
      | .moved known emotional relationship =>
          s.setStage n (.generated known emotional relationship response)
      | _ => s
  | .commit n t ids rest =>
      match (s.turns n).stage with
      | .generated known emotional relationship response =>
          let args := commitArgs (s.turns n).user known emotional relationship response rest
          let (reply, db) := exec sha256 (t, .commitTurn ids args) s.db
          { s with db }.setTurn n ((s.turns n).onCommit reply)
      | _ => s
  | .fail n =>
      match (s.turns n).stage with
      | .finished _ => s
      | _ => s.setStage n (.finished .failed)
  | .request k operation user operationId =>
      match s.requests k with
      | none =>
          let r : PrivacyRequest := { operation, user, operationId, reading := s.clock }
          { s with requests := Function.update s.requests k (some r) }
      | some _ => s
  | .apply k now =>
      match s.requests k with
      | some r =>
          let clock := .fin r.reading.val
          let (_, db) := privacyAction sha256 now r.operation r.user r.operationId clock s.db
          { s with db, requests := Function.update s.requests k none }
      | none => s
  | .other t call => { s with db := (exec sha256 (t, call.1) s.db).2 }

/-- Steps are not answered; what they did shows in the state. -/
def backendStep (m : BackendMove) (s : Backend) : Unit × Backend := ((), s.step sha256 decode dyn m)

end

variable {sha256 : PyStr → PyStr} {decode : Jsonb → PyVal} {dyn : Dynamics}

/-! ## Writes that overtake an attempt -/

/-- The user whose relationship snapshot a step would write, and the time it would carry. -/
def Backend.writeTime (s : Backend) : BackendMove → Option (PyStr × PosFloat)
  | .commit n .. =>
      match (s.turns n).stage with
      | .generated known .. => some ((s.turns n).user, known.currentTime)
      | _ => none
  | .apply k _ =>
      match s.requests k with
      | some ⟨.resetRelationshipState, user, _, reading⟩ => some (user, reading)
      | _ => none
  | _ => none

/-- A commit or a relationship reset with a later clock value lands between an attempt's reading of
the clock and its loading of the state. -/
def Overtakes (e : Event (backendStep sha256 decode dyn)) : Prop :=
  ∃ user time n currentTime, e.before.writeTime e.input = some (user, time) ∧
    e.after.db.profiles.get? user ≠ e.before.db.profiles.get? user ∧
    (e.before.turns n).user = user ∧ (e.before.turns n).stage = .timed currentTime ∧
    currentTime.val.lt time.val = true

/-- The relationship snapshot a load would find. -/
def storedRelationship (decode : Jsonb → PyVal) (db : Db) (user : PyStr) :
    Option RelationshipStateV1 := do
  let p ← db.profiles.get? user
  let kvs ← snapshotColumn decode p.relationshipState
  migrateLegacyRelationshipSnapshot kvs

/-- No turn is under way and no snapshot is from the future. -/
structure Backend.Fresh (decode : Jsonb → PyVal) (s : Backend) : Prop where
  turns : ∀ n, ∃ outcome, (s.turns n).stage = .finished outcome ∧ outcome ≠ .clockRegression
  requests : ∀ k, s.requests k = none
  past : ∀ user r, storedRelationship decode s.db user = some r →
    s.clock.val.lt r.timestamp.val = false

/-- A snapshot that was written is read back with the timestamp it was written with, if it is read
back at all. -/
def KeepsTimestamps (decode : Jsonb → PyVal) : Prop :=
  ∀ (s : RelationshipStateV1) doc kvs r, Jsonb.ofPy (.dict s.toDict) = some doc →
    snapshotColumn decode (some doc) = some kvs → migrateLegacyRelationshipSnapshot kvs = some r →
    r.timestamp.val.value = s.timestamp.val.value

/-! ## What each call does to the stored snapshots -/

theorem storedRelationship_congr {db db' : Db} {user : PyStr}
    (h : db'.profiles.get? user = db.profiles.get? user) :
    storedRelationship decode db' user = storedRelationship decode db user := by
  rw [storedRelationship, storedRelationship, h]

theorem storedRelationship_eq_some {db : Db} {user : PyStr} {r : RelationshipStateV1} :
    storedRelationship decode db user = some r ↔ ∃ p kvs, db.profiles.get? user = some p ∧
      snapshotColumn decode p.relationshipState = some kvs ∧
      migrateLegacyRelationshipSnapshot kvs = some r := by
  simp only [storedRelationship, Option.bind_eq_bind, Option.bind_eq_some_iff]
  constructor
  · rintro ⟨p, hp, kvs, hkvs, hr⟩
    exact ⟨p, kvs, hp, hkvs, hr⟩
  · rintro ⟨p, kvs, hp, hkvs, hr⟩
    exact ⟨p, hp, kvs, hkvs, hr⟩

/-- Somebody else's call leaves a profile alone, or deletes it. -/
theorem stored_other {t : Times} {call : Call} (hcall : call.isClocked = false) {db : Db}
    {v : PyStr} {r : RelationshipStateV1}
    (h : storedRelationship decode (exec sha256 (t, call) db).2 v = some r) :
    storedRelationship decode db v = some r := by
  have heffect := @exec_effect sha256 (t, call) db
  generalize (exec sha256 (t, call) db).1 = reply at heffect
  generalize (exec sha256 (t, call) db).2 = db' at heffect h
  cases heffect with
  | committed => cases hcall
  | applied => cases hcall
  | purged hp =>
      rw [hp.rows] at h
      obtain ⟨p, kvs, hget, hkvs, hr⟩ := storedRelationship_eq_some.mp h
      refine storedRelationship_eq_some.mpr ⟨p, kvs, ?_, hkvs, hr⟩
      change (db.profiles.deleteWhere _).get? v = some p at hget
      rw [Table.get?_deleteWhere] at hget
      exact (Option.filter_eq_some_iff.mp hget).1
  | _ => exact h

theorem ofPyElems_strs : ∀ ts : List PyStr,
    Jsonb.ofPyElems (ts.map .str) = some (ts.map .str)
  | [] => rfl
  | t :: ts => by
      rw [List.map_cons, Jsonb.ofPyElems, ofPyElems_strs ts]
      rfl

/-- Every snapshot can be sent. -/
theorem ofPy_relationship (s : RelationshipStateV1) :
    ∃ doc, Jsonb.ofPy (.dict s.toDict) = some doc := by
  simp only [RelationshipStateV1.toDict, RangedFloat.toVal, PosFloat.toVal, Jsonb.ofPy,
    Jsonb.ofPyItems, ofPyElems_strs, Option.bind_eq_bind, Option.bind_some, Option.map_some,
    Option.pure_def]
  exact ⟨_, rfl⟩

/-- A commit leaves the snapshot, or stores its own. -/
theorem stored_commit (hkeeps : KeepsTimestamps decode) {t : Times} {ids : FreshIds}
    {args : CommitArgs} {db : Db} {user : PyStr} {relationship : RelationshipStateV1}
    (huser : args.authenticatedUserId = some user)
    (hrel : args.relationshipState = Jsonb.ofPy (.dict relationship.toDict))
    {v : PyStr} {r : RelationshipStateV1}
    (h : storedRelationship decode (exec sha256 (t, .commitTurn ids args) db).2 v = some r) :
    storedRelationship decode db v = some r ∨
      v = user ∧ r.timestamp.val.value = relationship.timestamp.val.value := by
  have hstep := commitTurn_step t.now ids args db
  change storedRelationship decode (commitTurn t.now ids args db).2 v = some r at h
  generalize (commitTurn t.now ids args db).1 = reply at hstep
  generalize (commitTurn t.now ids args db).2 = db' at hstep h
  cases hstep with
  | refused => exact .inl h
  | raised => exact .inl h
  | replayed => exact .inl h
  | fresh i row _ hv hc =>
      have hargs := validateCommit_ok hv
      obtain rfl : user = i.userId := Option.some.inj (huser.symm.trans hargs.userId)
      by_cases hvu : v = i.userId
      · subst hvu
        obtain ⟨p, hp, hsnap⟩ := hc.snapshot
        obtain ⟨doc, hdoc⟩ := ofPy_relationship relationship
        rw [hargs.relationshipState, hrel, hdoc] at hsnap
        obtain ⟨p', kvs, hp', hkvs, hr⟩ := storedRelationship_eq_some.mp h
        obtain rfl : p = p' := Option.some.inj (hp.symm.trans hp')
        rw [hsnap] at hkvs
        exact .inr ⟨rfl, hkeeps relationship doc kvs r hdoc hkvs hr⟩
      · left
        rw [← h]
        refine (storedRelationship_congr ?_).symm
        obtain ⟨p, hpu, -, hput⟩ := hc.profile
        rw [hput, Table.get?_put, if_neg (by rw [hpu]; exact hvu)]

/-- What an action does to the database, `privacy_apply_operation` does. -/
theorem privacyAction_db {now : Timestamp} {operation : Operation} {user operationId : PyStr}
    {clock : PyFloat} {db : Db} :
    (privacyAction sha256 now operation user operationId clock db).2 = db ∨
      ∃ id doc, operation.document clock = some doc ∧
        (privacyAction sha256 now operation user operationId clock db).2 =
          (privacyApplyOperation sha256 now ⟨some user, operation.text, some id, some doc⟩ db).2 := by
  unfold privacyAction
  split
  · exact .inl rfl
  · rename_i payload hpayload
    unfold runPrivacyOperation
    split
    · exact .inl rfl
    · unfold callPrivacyRpc
      split
      · rename_i id doc hid hdoc
        split
        · refine .inr ⟨id, doc, ?_, rfl⟩
          rw [Operation.document, hpayload]
          exact hdoc
        · exact .inl rfl
      · exact .inl rfl

theorem Operation.text_injective : Function.Injective Operation.text := by
  intro a b h
  have ha := Operation.ofText_text a
  rw [h, Operation.ofText_text b] at ha
  exact (Option.some.inj ha).symm

/-- An action leaves the snapshot, or is a reset and stores the neutral one of its reading. -/
theorem stored_privacy (hkeeps : KeepsTimestamps decode) {now : Timestamp} {request : PrivacyRequest}
    {db : Db} {v : PyStr} {r : RelationshipStateV1}
    (h : storedRelationship decode (privacyAction sha256 now request.operation request.user
      request.operationId (.fin request.reading.val) db).2 v = some r) :
    storedRelationship decode db v = some r ∨
      request.operation = .resetRelationshipState ∧ v = request.user ∧
        r.timestamp.val.value = request.reading.val.value := by
  have haction := @privacyAction_db sha256 now request.operation request.user request.operationId
    (.fin request.reading.val) db
  rcases haction with hdb | ⟨id, doc, hdoc, hdb⟩
  · rw [hdb] at h
    exact .inl h
  · rw [hdb] at h
    have hstep := privacyApplyOperation_step sha256 now
      ⟨some request.user, request.operation.text, some id, some doc⟩ db
    generalize privacyApplyOperation sha256 now _ db = out at hstep h
    obtain ⟨reply, db'⟩ := out
    simp only at hstep h
    cases hstep with
    | refused => exact .inl h
    | raised => exact .inl h
    | replayed => exact .inl h
    | applied i result _ hv ha =>
        obtain ⟨hu, -, hpay, hop⟩ := validatePrivacy_ok hv
        simp only [Option.some.injEq] at hu hpay
        obtain ⟨p', kvs, hp', hkvs, hr⟩ := storedRelationship_eq_some.mp h
        rw [ha.profiles v, Option.map_eq_some_iff] at hp'
        obtain ⟨p, hp, rfl⟩ := hp'
        by_cases hreset : v = i.userId ∧ i.operation = .resetRelationshipState
        · obtain ⟨rfl, hreset⟩ := hreset
          have hop' : request.operation = .resetRelationshipState := by
            rw [hreset] at hop
            exact Operation.text_injective hop
          refine .inr ⟨hop', hu.symm, ?_⟩
          have hsent : Jsonb.ofPy (.dict (RelationshipStateV1.neutral request.reading).toDict) =
              some doc := by
            rw [hop', Operation.document] at hdoc
            simp only [Operation.payload, Operation.snapshotKind] at hdoc
            rw [show PyVal.float (.fin request.reading.val) = request.reading.toVal from rfl,
              requirePositiveFloat_toVal] at hdoc
            exact hdoc
          simp only [if_true, PrivacyInput.onProfile, if_pos hreset, ← hpay] at hkvs
          exact hkeeps (.neutral request.reading) doc kvs r hsent hkvs hr
        · left
          refine storedRelationship_eq_some.mpr ⟨p, kvs, hp, ?_, hr⟩
          rw [← hkvs]
          by_cases hvu : v = i.userId
          · have hne : i.operation ≠ .resetRelationshipState := fun heq => hreset ⟨hvu, heq⟩
            simp only [if_pos hvu, PrivacyInput.onProfile, if_neg hne]
          · simp only [if_neg hvu]

end Katherine.Cloud
