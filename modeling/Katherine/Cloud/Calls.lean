import Katherine.Lib.Runs
import Katherine.Cloud.Privacy
import Katherine.Cloud.Deletion

/-!
# Calls and runs

Every call of a procedure of the hosted database as one value of `Call`, and `exec` for
what it does. Besides the procedures there are two administrative writes that the schema
foresees: pruning messages, and the delivery worker moving an outbox event on.

A procedure that takes a lock is one step. The clocks it read, the identifiers it
generated and the order in which a scan returned equal rows are part of the call.

Each procedure has one lemma here that lists everything it can do. Later modules reason
from these and do not look inside a procedure again.
-/

namespace Katherine.Cloud

open Py Sql Pg Runs

/-! ## Calls -/

/-- The clock readings of one call: `now()`, the first `clock_timestamp()` and a later one. -/
structure Times where
  now : Timestamp
  vNow : Timestamp
  clock : Timestamp

inductive Call
  | commitTurn (ids : FreshIds) (args : CommitArgs)
  | privacyApplyOperation (args : PrivacyArgs)
  | reserveAdmission (args : AdmissionArgs)
  | purgeAdmissionReservations (prio : AdmissionReservation → Nat) (args : PurgeArgs)
  | purgePrivacyOperations (prio : PrivacyOperation → Nat) (args : PurgeArgs)
  | purgeOutboxEvents (prio : OutboxEvent → Nat) (args : PurgeArgs)
  | requestDeletion (jobId : Uuid) (args : DeletionRequest)
  | acquireLease (locked : Uuid → Bool) (prio : Job → Nat) (args : AcquireArgs)
  | purge (args : PurgeJobArgs)
  | recordFailure (jobId : Option Uuid) (workerId errorCode : Option PyStr)
  | recordRetry (jobId : Option Uuid) (workerId : Option PyStr)
  | finalize (jobId : Option Uuid) (workerId : Option PyStr)
  | purgeCompleted (prio : Job → Nat) (args : PurgeArgs)
  /-- `DELETE FROM chat_logs WHERE p`, by an administrator. -/
  | pruneChatLogs (p : ChatLog → Bool)
  /-- The delivery worker sets the status of an event and the columns that go with it. -/
  | deliver (event : Uuid) (delivery : Delivery) (at_ : Timestamp)

inductive Reply
  | commit (r : CommitReply)
  | privacy (r : PrivacyReply)
  | admission (d : Decision)
  | job (r : JobReply)
  | purged (rows : Option Nat)
  | done

/-- The delivery worker's update. -/
def Db.deliver (db : Db) (event : Uuid) (delivery : Delivery) (at_ : Timestamp) : Db :=
  { db with
    outboxEvents := db.outboxEvents.mapRows
      (fun e => if e.id = event then { e with delivery := delivery, updatedAt := at_ } else e)
      fun e => by split <;> rfl }

def exec (sha256 : PyStr → PyStr) : Times × Call → Db → Reply × Db
  | (t, .commitTurn ids a), db => (commitTurn t.now ids a db).map .commit id
  | (t, .privacyApplyOperation a), db => (privacyApplyOperation sha256 t.now a db).map .privacy id
  | (t, .reserveAdmission a), db => (reserveAdmission t.vNow a db).map .admission id
  | (t, .purgeAdmissionReservations prio a), db =>
      (purgeAdmissionReservations t.clock prio a db).map .purged id
  | (t, .purgePrivacyOperations prio a), db =>
      (purgePrivacyOperations t.clock prio a db).map .purged id
  | (t, .purgeOutboxEvents prio a), db => (purgeOutboxEvents t.clock prio a db).map .purged id
  | (t, .requestDeletion jobId a), db =>
      (sanitized (requestBody t.clock jobId a db) db).map .job id
  | (t, .acquireLease locked prio a), db =>
      (sanitized (acquireLeaseBody t.vNow locked prio a db) db).map .job id
  | (t, .purge a), db => (sanitized (purgeBody t.vNow t.clock a db) db).map .job id
  | (t, .recordFailure jobId workerId errorCode), db =>
      (sanitized (recordFailureBody t.vNow t.clock jobId workerId errorCode db) db).map .job id
  | (t, .recordRetry jobId workerId), db =>
      (sanitized (recordRetryBody t.vNow t.clock jobId workerId db) db).map .job id
  | (t, .finalize jobId workerId), db =>
      (sanitized (finalizeBody t.vNow t.clock jobId workerId db) db).map .job id
  | (t, .purgeCompleted prio a), db => (purgeCompleted t.clock prio a db).map .purged id
  | (_, .pruneChatLogs p), db => (.done, db.deleteChatLogs p)
  | (_, .deliver event delivery at_), db => (.done, db.deliver event delivery at_)

/-! ## What `commit_turn` can do -/

theorem except_bind_ok {ε α β : Type} {x : Except ε α} {f : α → Except ε β} {b : β} :
    (x >>= f) = .ok b ↔ ∃ a, x = .ok a ∧ f a = .ok b := by
  cases x <;> simp [bind, Except.bind]

/-- The turn request `r` can be completed by `i`: there is none, or it is open and has the
payload of `i`. -/
def Open (i : CommitInput) : Option TurnRequest → Prop
  | none => True
  | some r => r.payloadHash = i.payloadHash ∧ ∀ revision payload at_,
      r.state ≠ .completed revision payload at_

/-- A fresh commit of `i`, which leaves `row` for the request. -/
structure Committed (now : Timestamp) (ids : FreshIds) (i : CommitInput) (db : Db)
    (row : TurnRequest) (db' : Db) : Prop where
  isOpen : Open i (db.turnRequests.get? i.key)
  expected : i.expectedRevision = db.revision i.userId
  profile : ∃ p, p.userId = i.userId ∧ p.revision = db.revision i.userId + 1 ∧
    db'.profiles = db.profiles.put p
  snapshot : ∃ p, db'.profiles.get? i.userId = some p ∧ p.relationshipState =
    (i.relationshipState <|> (db.profiles.get? i.userId).bind (·.relationshipState))
  chatLogs : db'.chatLogs.rows = db.chatLogs.rows ++
    [⟨ids.userMessageId, i.userId, .user, i.userMessage, now⟩,
     ⟨ids.assistantMessageId, i.userId, .assistant, i.assistantMessage, now⟩]
  key : row.key = i.key
  payloadHash : row.payloadHash = i.payloadHash
  state : row.state = .completed (db.revision i.userId + 1) i.replayPayload now
  userMessage : row.userMessageChatLogId = some ids.userMessageId
  assistantMessage : row.assistantMessageChatLogId = some ids.assistantMessageId
  turnRequests : db'.turnRequests = db.turnRequests.put row
  events : ∃ new, db'.outboxEvents.rows = db.outboxEvents.rows ++ new ∧
    ∀ e ∈ new, e.userId = i.userId ∧ e.turnRequestId = some row.id
  memories : db'.memories = db.memories
  archivalExtractions : db'.archivalExtractions = db.archivalExtractions
  admissionReservations : db'.admissionReservations = db.admissionReservations
  privacyOperations : db'.privacyOperations = db.privacyOperations
  jobs : db'.jobs = db.jobs

/-- Every outcome of `commit_turn`. -/
inductive CommitStep (now : Timestamp) (ids : FreshIds) (a : CommitArgs) (db : Db) :
    CommitReply → Db → Prop
  | refused (e : Envelope) : CommitStep now ids a db (.error e) db
  | raised : CommitStep now ids a db .raised db
  | replayed (i : CommitInput) (r : TurnRequest) (hv : validateCommit a = .ok i)
      (hr : db.turnRequests.get? i.key = some r)
      (hs : ∃ revision payload at_, r.state = .completed revision payload at_) :
      CommitStep now ids a db (.result r.buildResult) db
  | fresh (i : CommitInput) (row : TurnRequest) (db' : Db) (hv : validateCommit a = .ok i)
      (hc : Committed now ids i db row db') : CommitStep now ids a db (.result row.buildResult) db'

theorem insertChatLog_ok {db db' : Db} {c : ChatLog} (h : insertChatLog db c = .ok db') :
    (db.chatLogs.get? c.id) = none ∧ db' = { db with chatLogs := db.chatLogs.insertNew c } := by
  unfold insertChatLog at h
  split at h
  · cases h
  · split at h
    · cases h
    · rename_i hid
      cases h
      exact ⟨by simpa using hid, rfl⟩

theorem insertEvents_ok {now : Timestamp} {ids : FreshIds} {user : PyStr} {req : Uuid} :
    ∀ {es : List EventInput} {n : Nat} {t t' : Table OutboxEvent Uuid OutboxEvent.id},
    insertEvents now ids user req n es t = .ok t' →
    ∃ new, t'.rows = t.rows ++ new ∧ ∀ e ∈ new, e.userId = user ∧ e.turnRequestId = some req
  | [], n, t, t', h => by
      cases h
      exact ⟨[], by simp, by simp⟩
  | e :: es, n, t, t', h => by
      unfold insertEvents at h
      split at h
      · cases h
      · split at h
        · cases h
        · rename_i hfree
          obtain ⟨new, hrows, hnew⟩ := insertEvents_ok h
          have hnone : t.get? (ids.eventId n) = none := by
            refine Table.get?_eq_none.mpr fun x hx hxe => hfree ?_
            rw [List.any_eq_true]
            exact ⟨x, hx, by simp [hxe]⟩
          rw [Table.insertNew_rows hnone, List.append_assoc] at hrows
          refine ⟨_, hrows, ?_⟩
          intro x hx
          rcases List.mem_append.mp hx with hx | hx
          · obtain rfl := List.mem_singleton.mp hx
            exact ⟨rfl, rfl⟩
          · exact hnew x hx

theorem writeProfile_some {now : Timestamp} {i : CommitInput} {db db' : Db}
    (h : writeProfile now i db = some db') :
    ∃ p, p.userId = i.userId ∧ p.revision = db.revision i.userId + 1 ∧
      db' = { db with profiles := db.profiles.put p } := by
  unfold writeProfile at h
  split at h
  · rename_i p hp
    cases h
    refine ⟨_, ?_, ?_, rfl⟩
    · have := Table.get?_key hp
      exact this
    · simp [Db.revision, hp]
  · rename_i hp
    split at h
    · cases h
      refine ⟨_, rfl, ?_, rfl⟩
      simp [Db.revision, hp]
    · cases h

theorem writeProfile_snapshot {now : Timestamp} {i : CommitInput} {db db' : Db}
    (h : writeProfile now i db = some db') :
    ∃ p, db'.profiles.get? i.userId = some p ∧ p.relationshipState =
      (i.relationshipState <|> (db.profiles.get? i.userId).bind (·.relationshipState)) := by
  unfold writeProfile at h
  split at h
  · rename_i p hp
    cases h
    have hkey : p.userId = i.userId := Table.get?_key hp
    refine ⟨_, by rw [Table.get?_put, if_pos hkey.symm], ?_⟩
    rw [hp]
    rfl
  · rename_i hp
    split at h
    · rename_i emotional relationship he hr
      cases h
      refine ⟨_, by rw [Table.get?_put, if_pos rfl], ?_⟩
      rw [hr]
      rfl
    · cases h

theorem completeRequest_ok {now : Timestamp} {ids : FreshIds} {i : CommitInput} {revision : Nat}
    {existing : Option TurnRequest} {db : Db} {row : TurnRequest}
    (h : completeRequest now ids i revision existing db = .ok row)
    (hex : ∀ r, existing = some r → r.key = i.key ∧ r.payloadHash = i.payloadHash) :
    row.key = i.key ∧ row.payloadHash = i.payloadHash ∧
      row.state = .completed revision i.replayPayload now ∧
      row.userMessageChatLogId = some ids.userMessageId ∧
      row.assistantMessageChatLogId = some ids.assistantMessageId := by
  unfold completeRequest at h
  split at h
  · rename_i r
    obtain ⟨hkey, hhash⟩ := hex r rfl
    split at h
    · cases h
    · split at h
      · cases h
      · cases h
        exact ⟨hkey, hhash, rfl, rfl, rfl⟩
  · split at h
    · cases h
    · split at h
      · cases h
      · cases h
        exact ⟨rfl, rfl, rfl, rfl, rfl⟩

theorem commitTurnBuildResult_put {db : Db} {t : Table TurnRequest (PyStr × Uuid) TurnRequest.key}
    {row : TurnRequest} {key : PyStr × Uuid} {turn : CommittedTurn}
    (ht : db.turnRequests = t.put row) (hkey : row.key = key)
    (h : commitTurnBuildResult db key = .ok turn) : turn = row.buildResult := by
  subst hkey
  simp only [commitTurnBuildResult, ht, Table.get?_put, if_true] at h
  cases h
  rfl

/-- The write path either refuses with nothing written, or commits. -/
theorem commitWrite_step {now : Timestamp} {ids : FreshIds} {i : CommitInput}
    {existing : Option TurnRequest} {db db' : Db} {reply : CommitReply}
    (h : commitWrite now ids i existing db = .ok (reply, db'))
    (hex : db.turnRequests.get? i.key = existing) (hopen : Open i existing) :
    (∃ e, reply = .error e ∧ db' = db) ∨
      ∃ row, reply = .result row.buildResult ∧ Committed now ids i db row db' := by
  have hrow : ∀ r, existing = some r → r.key = i.key ∧ r.payloadHash = i.payloadHash := by
    rintro r rfl
    exact ⟨Table.get?_key hex, hopen.1⟩
  unfold commitWrite at h
  dsimp only at h
  split at h
  · cases h
    exact .inl ⟨_, rfl, rfl⟩
  · rename_i hcas
    split at h
    · cases h
    · split at h
      · cases h
        exact .inl ⟨_, rfl, rfl⟩
      · rename_i db₁ hp
        have hsnap := writeProfile_snapshot hp
        obtain ⟨p, huser, hrev, rfl⟩ := writeProfile_some hp
        simp only [except_bind_ok] at h
        obtain ⟨db₂, h₂, db₃, h₃, row, hrow', events, hev, turn, hturn, h⟩ := h
        cases h
        obtain ⟨hfree₂, rfl⟩ := insertChatLog_ok h₂
        obtain ⟨hfree₃, rfl⟩ := insertChatLog_ok h₃
        obtain ⟨hkey, hhash, hstate, hum, ham⟩ := completeRequest_ok hrow' hrow
        obtain ⟨new, hnew, hall⟩ := insertEvents_ok hev
        have hput : ({ row with replayOutboxRefs := outboxRefs events i.userId row.id } :
            TurnRequest).key = i.key := hkey
        refine .inr ⟨_, by rw [commitTurnBuildResult_put rfl hput hturn], ?_⟩
        exact
          { isOpen := by rw [hex]; exact hopen
            expected := (not_ne_iff.mp hcas).symm
            profile := ⟨p, huser, hrev, rfl⟩
            snapshot := hsnap
            chatLogs := by
              rw [Table.insertNew_rows hfree₃, Table.insertNew_rows hfree₂, List.append_assoc]
              rfl
            key := hkey
            payloadHash := hhash
            state := hstate
            userMessage := hum
            assistantMessage := ham
            turnRequests := rfl
            events := ⟨new, hnew, hall⟩
            memories := rfl
            archivalExtractions := rfl
            admissionReservations := rfl
            privacyOperations := rfl
            jobs := rfl }

/-- **Everything `commit_turn` can do.** -/
theorem commitTurn_step (now : Timestamp) (ids : FreshIds) (a : CommitArgs) (db : Db) :
    CommitStep now ids a db (commitTurn now ids a db).1 (commitTurn now ids a db).2 := by
  unfold commitTurn
  split
  · exact .refused _
  · exact .raised
  · rename_i i hv
    split
    · rename_i out hout
      obtain ⟨reply, db'⟩ := out
      have hwrite : ∀ existing, db.turnRequests.get? i.key = existing → Open i existing →
          commitWrite now ids i existing db = .ok (reply, db') →
          CommitStep now ids a db reply db' := by
        intro existing hex hopen hw
        rcases commitWrite_step hw hex hopen with ⟨e, rfl, rfl⟩ | ⟨row, rfl, hc⟩
        · exact .refused e
        · exact .fresh i row db' hv hc
      unfold commitValidated at hout
      split at hout
      · rename_i hnone
        exact hwrite none hnone trivial hout
      · rename_i r hr
        split at hout
        · cases hout
          exact .refused _
        · rename_i hhash
          have hopen : (∀ revision payload at_, r.state ≠ .completed revision payload at_) →
              Open i (some r) := fun hs => ⟨not_ne_iff.mp hhash, hs⟩
          split at hout
          · rename_i revision payload at_ hs
            rw [commitTurnBuildResult, hr] at hout
            cases hout
            exact .replayed i r hv hr ⟨_, _, _, hs⟩
          · rename_i owner expiresAt hs
            split at hout
            · cases hout
              exact .refused _
            · split at hout
              · cases hout
                exact .refused _
              · exact hwrite (some r) hr (hopen (by simp [hs])) hout
          · rename_i code hs
            split at hout
            · cases hout
              exact .refused _
            · exact hwrite (some r) hr (hopen (by simp [hs])) hout
    · exact .refused _
    · exact .raised

/-! ## What `privacy_apply_operation` can do -/

/-- What an applied operation does to the user's profile. -/
def PrivacyInput.onProfile (now : Timestamp) (i : PrivacyInput) (p : Profile) : Profile :=
  { p with
    emotionalState := if i.operation = .resetEmotionalState then some i.payload else p.emotionalState
    relationshipState :=
      if i.operation = .resetRelationshipState then some i.payload else p.relationshipState
    revision := p.revision + 1
    updatedAt := some now }

/-- The ledger row of an applied operation. -/
def PrivacyInput.row (sha256 : PyStr → PyStr) (now : Timestamp) (i : PrivacyInput)
    (result : PrivacyResult) : PrivacyOperation :=
  { userId := i.userId, operationId := i.operationId, operation := i.operation,
    payloadSha256 := sha256 i.payload.text, appliedAt := now, result }

/-- The operation `i`, applied for the first time. -/
structure Applied (sha256 : PyStr → PyStr) (now : Timestamp) (i : PrivacyInput) (db : Db)
    (result : PrivacyResult) (db' : Db) : Prop where
  unknown : db.privacyOperations.get? i.key = none
  operation : result.operation = i.operation
  key : (result.userId, result.operationId) = i.key
  revision : result.revision = ((db.profiles.get? i.userId).map (·.revision + 1)).getD 0
  ledger : db'.privacyOperations = db.privacyOperations.insertNew (i.row sha256 now result)
  profiles : ∀ v, db'.profiles.get? v =
    (db.profiles.get? v).map fun p => if v = i.userId then i.onProfile now p else p
  chatLogs : db'.chatLogs.rows =
    db.chatLogs.rows.filter fun c => !(decide (i.operation = .deleteHistory) && decide (c.userId = i.userId))
  turnRequests : ∃ gone : Int → Bool,
    (∀ n, gone n = true → i.operation = .deleteHistory ∧
      ∃ c, db.chatLogs.get? n = some c ∧ c.userId = i.userId) ∧
    db'.turnRequests.rows = (db.turnRequests.rows.filter fun r =>
      !(decide (i.operation = .deleteHistory) && decide (r.userId = i.userId))).map
        (·.nullMessageRefs gone)
  outboxEvents : db'.outboxEvents.rows = db.outboxEvents.rows.filter fun e =>
    !(decide (i.operation = .deleteHistory) && decide (e.userId = i.userId))
  memories : db'.memories.rows = db.memories.rows.filter fun m =>
    !(decide (i.operation = .deleteMemories) && decide (m.userId = some i.userId))
  archivalExtractions : db'.archivalExtractions.rows = db.archivalExtractions.rows.filter fun a =>
    !(decide (i.operation = .deleteHistory ∨ i.operation = .deleteMemories)
      && decide (a.userId = i.userId))
  admissionReservations : db'.admissionReservations = db.admissionReservations
  jobs : db'.jobs = db.jobs

/-- Every outcome of `privacy_apply_operation`. -/
inductive PrivacyStep (sha256 : PyStr → PyStr) (now : Timestamp) (a : PrivacyArgs) (db : Db) :
    PrivacyReply → Db → Prop
  | refused (e : Envelope) : PrivacyStep sha256 now a db (.error e) db
  | raised : PrivacyStep sha256 now a db .raised db
  | replayed (i : PrivacyInput) (row : PrivacyOperation) (hv : validatePrivacy a = .ok i)
      (hr : db.privacyOperations.get? i.key = some row) (hop : row.operation = i.operation)
      (hsha : row.payloadSha256 = sha256 i.payload.text) :
      PrivacyStep sha256 now a db (.result row.result) db
  | applied (i : PrivacyInput) (result : PrivacyResult) (db' : Db) (hv : validatePrivacy a = .ok i)
      (ha : Applied sha256 now i db result db') : PrivacyStep sha256 now a db (.result result) db'

theorem get?_updateProfile (db : Db) (user : PyStr) (f : Profile → Profile)
    (hf : ∀ p, (f p).userId = p.userId) (v : PyStr) :
    (db.updateProfile user f hf).profiles.get? v =
      (db.profiles.get? v).map fun p => if v = user then f p else p := by
  simp only [Db.updateProfile, Table.get?_mapRows]
  cases hp : db.profiles.get? v with
  | none => rfl
  | some p =>
      have := Table.get?_key hp
      simp [this]

/-- Once the user's events are gone, the cascade from the user's requests finds nothing. -/
theorem outbox_cascade (events : Table OutboxEvent Uuid OutboxEvent.id) (requests : List TurnRequest)
    (user : PyStr) :
    ((events.deleteWhere (·.userId = user)).deleteWhere fun e => requests.any fun r =>
      decide (r.userId = user) && decide (r.userId = e.userId) && decide (some r.id = e.turnRequestId))
      = events.deleteWhere (·.userId = user) := by
  refine Table.deleteWhere_eq_self _ fun e he => ?_
  have hne : e.userId ≠ user := by simpa using (List.mem_filter.mp he).2
  rw [List.any_eq_false]
  intro r _ hr
  simp only [Bool.and_eq_true, decide_eq_true_eq] at hr
  exact hne (hr.1.2.symm.trans hr.1.1)

/-- Once the user's extractions are gone, the cascade from the user's messages finds nothing. -/
theorem archival_cascade (db : Db) (user : PyStr) :
    ((db.archivalExtractions.deleteWhere (·.userId = user)).deleteWhere fun a =>
      (db.chatLogs.get? a.sourceChatLogId).any fun c =>
        decide (c.userId = user) && decide (c.userId = a.userId))
      = db.archivalExtractions.deleteWhere (·.userId = user) := by
  refine Table.deleteWhere_eq_self _ fun a ha => ?_
  have hne : a.userId ≠ user := by simpa using (List.mem_filter.mp ha).2
  rw [Option.any_eq_false]
  intro c _
  rw [Bool.eq_false_iff]
  intro hc
  simp only [Bool.and_eq_true, decide_eq_true_eq] at hc
  exact hne (hc.2.symm.trans hc.1)

section Mutation

variable (now : Timestamp) (i : PrivacyInput) (db : Db)

theorem applyMutation_admissionReservations :
    (applyMutation now i db).2.admissionReservations = db.admissionReservations := by
  unfold applyMutation
  split <;> rfl

theorem applyMutation_privacyOperations :
    (applyMutation now i db).2.privacyOperations = db.privacyOperations := by
  unfold applyMutation
  split <;> rfl

theorem applyMutation_jobs : (applyMutation now i db).2.jobs = db.jobs := by
  unfold applyMutation
  split <;> rfl

theorem applyMutation_chatLogs : (applyMutation now i db).2.chatLogs.rows =
    db.chatLogs.rows.filter fun c =>
      !(decide (i.operation = .deleteHistory) && decide (c.userId = i.userId)) := by
  unfold applyMutation
  split <;> rename_i hop <;> simp [hop, Db.deleteChatLogs, Db.deleteTurnRequests, Db.updateProfile]

theorem applyMutation_memories : (applyMutation now i db).2.memories.rows =
    db.memories.rows.filter fun m =>
      !(decide (i.operation = .deleteMemories) && decide (m.userId = some i.userId)) := by
  unfold applyMutation
  split <;> rename_i hop <;> simp [hop, Db.deleteChatLogs, Db.deleteTurnRequests, Db.updateProfile]

theorem applyMutation_outboxEvents : (applyMutation now i db).2.outboxEvents.rows =
    db.outboxEvents.rows.filter fun e =>
      !(decide (i.operation = .deleteHistory) && decide (e.userId = i.userId)) := by
  unfold applyMutation
  split <;> rename_i hop
  · simp only [hop, Db.deleteChatLogs, Db.deleteTurnRequests, outbox_cascade,
      Table.deleteWhere_rows, decide_true, Bool.true_and]
  all_goals simp [hop, Db.updateProfile]

theorem applyMutation_archivalExtractions : (applyMutation now i db).2.archivalExtractions.rows =
    db.archivalExtractions.rows.filter fun a =>
      !(decide (i.operation = .deleteHistory ∨ i.operation = .deleteMemories)
        && decide (a.userId = i.userId)) := by
  unfold applyMutation
  split <;> rename_i hop
  · simp only [hop, Db.deleteChatLogs, Db.deleteTurnRequests, archival_cascade,
      Table.deleteWhere_rows, true_or, decide_true, Bool.true_and]
  all_goals simp [hop, Db.updateProfile]

theorem nullMessageRefs_none (r : TurnRequest) : r.nullMessageRefs (fun _ => false) = r := by
  have hkeep : ∀ x : Option Int, x.filter (fun _ => !false) = x := by
    rintro (_ | n) <;> rfl
  simp only [TurnRequest.nullMessageRefs, hkeep]

theorem applyMutation_turnRequests : ∃ gone : Int → Bool,
    (∀ n, gone n = true → i.operation = .deleteHistory ∧
      ∃ c, db.chatLogs.get? n = some c ∧ c.userId = i.userId) ∧
    (applyMutation now i db).2.turnRequests.rows = (db.turnRequests.rows.filter fun r =>
      !(decide (i.operation = .deleteHistory) && decide (r.userId = i.userId))).map
        (·.nullMessageRefs gone) := by
  have hid : TurnRequest.nullMessageRefs (fun _ => false) = id := funext nullMessageRefs_none
  unfold applyMutation
  split <;> rename_i hop
  · refine ⟨fun n => (db.chatLogs.get? n).any fun c => c.userId = i.userId, ?_, ?_⟩
    · intro n hn
      obtain ⟨c, hc, hcu⟩ := (Option.any_eq_true _ _).mp hn
      exact ⟨hop, c, hc, by simpa using hcu⟩
    · simp [hop, Db.deleteChatLogs, Db.deleteTurnRequests]
  all_goals
    refine ⟨fun _ => false, by simp, ?_⟩
    simp [hop, Db.updateProfile, hid]

/-- Mutation and revision together are what `onProfile` says. -/
theorem applyMutation_profiles {revision : Nat}
    (hrev : ∀ p, db.profiles.get? i.userId = some p → revision = p.revision + 1) (v : PyStr) :
    ((applyMutation now i db).2.updateProfile i.userId
        (fun p => { p with revision := revision, updatedAt := some now }) fun _ => rfl).profiles.get? v =
      (db.profiles.get? v).map fun p => if v = i.userId then i.onProfile now p else p := by
  rw [get?_updateProfile]
  by_cases hv : v = i.userId
  · subst hv
    have hcol : ∀ p, db.profiles.get? i.userId = some p →
        ((applyMutation now i db).2.profiles.get? i.userId).map
          (fun p => ({ p with revision := revision, updatedAt := some now } : Profile)) =
        some (i.onProfile now p) := by
      intro p hp
      unfold applyMutation
      split <;> rename_i hop <;>
        simp [get?_updateProfile, Db.deleteChatLogs, Db.deleteTurnRequests, hp, hop, hrev p hp,
          PrivacyInput.onProfile]
    cases hp : db.profiles.get? i.userId with
    | none =>
        have : (applyMutation now i db).2.profiles.get? i.userId = none := by
          unfold applyMutation
          split <;> simp [get?_updateProfile, Db.deleteChatLogs, Db.deleteTurnRequests, hp]
        rw [this]
        rfl
    | some p => simpa using hcol p hp
  · have : (applyMutation now i db).2.profiles.get? v = db.profiles.get? v := by
      unfold applyMutation
      split <;> simp [get?_updateProfile, Db.deleteChatLogs, Db.deleteTurnRequests, hv]
    rw [this]
    simp [hv]

end Mutation

theorem applyOperation_ok {sha256 : PyStr → PyStr} {now : Timestamp} {i : PrivacyInput}
    {db db' : Db} {reply : PrivacyReply} (hnew : db.privacyOperations.get? i.key = none)
    (h : applyOperation sha256 now i db = .ok (reply, db')) :
    ∃ result, reply = .result result ∧ Applied sha256 now i db result db' := by
  unfold applyOperation at h
  dsimp only at h
  split at h
  · cases h
  · split at h
    · cases h
    · cases h
      refine ⟨_, rfl, ?_⟩
      exact
        { unknown := hnew
          operation := rfl
          key := rfl
          revision := rfl
          ledger := by
            show Table.insertNew ((applyMutation now i db).2.updateProfile ..).privacyOperations _ = _
            rw [Db.updateProfile, applyMutation_privacyOperations]
            rfl
          profiles := applyMutation_profiles now i db fun p hp => by simp [hp]
          chatLogs := applyMutation_chatLogs now i db
          turnRequests := applyMutation_turnRequests now i db
          outboxEvents := applyMutation_outboxEvents now i db
          memories := applyMutation_memories now i db
          archivalExtractions := applyMutation_archivalExtractions now i db
          admissionReservations := applyMutation_admissionReservations now i db
          jobs := applyMutation_jobs now i db }

/-- **Everything `privacy_apply_operation` can do.** -/
theorem privacyApplyOperation_step (sha256 : PyStr → PyStr) (now : Timestamp) (a : PrivacyArgs)
    (db : Db) : PrivacyStep sha256 now a db (privacyApplyOperation sha256 now a db).1
      (privacyApplyOperation sha256 now a db).2 := by
  unfold privacyApplyOperation
  split
  · exact .refused _
  · exact .raised
  · rename_i i hv
    split
    · rename_i out hout
      obtain ⟨reply, db'⟩ := out
      unfold privacyValidated at hout
      split at hout
      · rename_i row hrow
        split at hout
        · rename_i hsame
          cases hout
          exact .replayed i row hv hrow hsame.1 hsame.2
        · cases hout
          exact .refused _
      · rename_i hnone
        obtain ⟨result, rfl, ha⟩ := applyOperation_ok hnone hout
        exact .applied i result db' hv ha
    · exact .raised

/-! ## What the ledger procedures can do -/

theorem except_map_ok {ε α β : Type} {x : Except ε α} {f : α → β} {b : β} :
    x.map f = .ok b ↔ ∃ a, x = .ok a ∧ f a = b := by
  cases x <;> simp [Except.map]

theorem writeJob_ok {db db' : Db} {j : Job} (h : writeJob db j = .ok db') :
    j.checks = true ∧ db' = { db with jobs := db.jobs.put j } := by
  unfold writeJob at h
  split at h
  · rename_i hc
    cases h
    exact ⟨hc, rfl⟩
  · cases h

/-- Nothing but the job table differs. -/
def JobsOnly (db db' : Db) : Prop := ∃ jobs, db' = { db with jobs := jobs }

theorem JobsOnly.refl (db : Db) : JobsOnly db db := ⟨db.jobs, rfl⟩

theorem JobsOnly.trans {db₁ db₂ db₃ : Db} (h : JobsOnly db₁ db₂) (h' : JobsOnly db₂ db₃) :
    JobsOnly db₁ db₃ := by
  obtain ⟨jobs, rfl⟩ := h
  obtain ⟨jobs', rfl⟩ := h'
  exact ⟨jobs', rfl⟩

theorem writeJob_jobsOnly {db db' : Db} {j : Job} (h : writeJob db j = .ok db') :
    JobsOnly db db' := by
  obtain ⟨_, rfl⟩ := writeJob_ok h
  exact ⟨_, rfl⟩

theorem requestBody_jobsOnly {clock : Timestamp} {jobId : Uuid} {a : DeletionRequest} {db db' : Db}
    {reply : JobReply} (h : requestBody clock jobId a db = .ok (reply, db')) : JobsOnly db db' := by
  unfold requestBody at h
  split at h
  · cases h
    exact .refl db
  · cases h
  · split at h
    · split at h <;> (cases h; exact .refl db)
    · split at h
      · cases h
      · obtain ⟨db₁, hw, h⟩ := except_map_ok.mp h
        cases h
        exact writeJob_jobsOnly hw

theorem acquireScan_jobsOnly {vNow : Timestamp} {worker : PyStr} {lease : Int} {db' : Db}
    {reply : JobReply} : ∀ {js : List Job} {db : Db},
    acquireScan vNow worker lease js db = .ok (reply, db') → JobsOnly db db'
  | [], db, h => by
      cases h
      exact .refl _
  | j :: js, db, h => by
      unfold acquireScan at h
      split at h
      · obtain ⟨db₁, hw, h⟩ := except_bind_ok.mp h
        exact (writeJob_jobsOnly hw).trans (acquireScan_jobsOnly h)
      · obtain ⟨db₁, hw, h⟩ := except_bind_ok.mp h
        cases h
        exact writeJob_jobsOnly hw

theorem acquireLeaseBody_jobsOnly {vNow : Timestamp} {locked : Uuid → Bool} {prio : Job → Nat}
    {a : AcquireArgs} {db db' : Db} {reply : JobReply}
    (h : acquireLeaseBody vNow locked prio a db = .ok (reply, db')) : JobsOnly db db' := by
  unfold acquireLeaseBody at h
  split at h
  · cases h
    exact .refl db
  · cases h
    exact .refl db
  · cases h
    exact .refl db
  · exact acquireScan_jobsOnly h

theorem recordFailureBody_jobsOnly {vNow clock : Timestamp} {jobId : Option Uuid}
    {worker code : Option PyStr} {db db' : Db} {reply : JobReply}
    (h : recordFailureBody vNow clock jobId worker code db = .ok (reply, db')) : JobsOnly db db' := by
  unfold recordFailureBody at h
  split at h
  · cases h
    exact .refl db
  · obtain ⟨j, _, h⟩ := except_bind_ok.mp h
    obtain ⟨db₁, hw, h⟩ := except_bind_ok.mp h
    cases h
    exact writeJob_jobsOnly hw

theorem recordRetryBody_jobsOnly {vNow clock : Timestamp} {jobId : Option Uuid}
    {worker : Option PyStr} {db db' : Db} {reply : JobReply}
    (h : recordRetryBody vNow clock jobId worker db = .ok (reply, db')) : JobsOnly db db' := by
  unfold recordRetryBody at h
  obtain ⟨j, _, h⟩ := except_bind_ok.mp h
  dsimp only at h
  split at h
  · obtain ⟨db₁, hw, h⟩ := except_bind_ok.mp h
    cases h
    exact writeJob_jobsOnly hw
  · obtain ⟨db₁, hw, h⟩ := except_bind_ok.mp h
    cases h
    exact writeJob_jobsOnly hw

theorem finalizeBody_jobsOnly {vNow clock : Timestamp} {jobId : Option Uuid}
    {worker : Option PyStr} {db db' : Db} {reply : JobReply}
    (h : finalizeBody vNow clock jobId worker db = .ok (reply, db')) : JobsOnly db db' := by
  unfold finalizeBody at h
  obtain ⟨j, _, h⟩ := except_bind_ok.mp h
  split at h
  · cases h
    exact .refl db
  · obtain ⟨db₁, hw, h⟩ := except_bind_ok.mp h
    cases h
    exact writeJob_jobsOnly hw

/-- What the caller of a procedure sees of a body. -/
theorem sanitized_cases {body : Except SqlErr (JobReply × Db)} {db : Db} {P : Db → Prop}
    (h0 : P db) (h : ∀ reply db', body = .ok (reply, db') → P db') : P (sanitized body db).2 := by
  cases body with
  | ok out => exact h out.1 out.2 rfl
  | error e => exact h0

/-- The purge of a user's rows for the job `j`, which it marks. -/
structure Purged (vNow : Timestamp) (j : Job) (user : PyStr) (db db' : Db) : Prop where
  job : db.jobs.get? j.jobId = some j
  owner : j.userId = some user
  fresh : j.dbPurgedAt = none
  rows : db' = { (db.purgeUser user).2 with
    jobs := db.jobs.put { j with dbPurgedAt := some vNow, updatedAt := vNow } }

theorem assertOwner_ok {clock : Timestamp} {jobId : Option Uuid} {worker : Option PyStr} {db : Db}
    {j : Job} (h : assertOwner clock jobId worker db = .ok j) :
    ∃ id owner expires, jobId = some id ∧ worker = some owner ∧ db.jobs.get? id = some j ∧
      j.status = .processing ∧ j.leaseOwner = some owner ∧ j.leaseExpiresAt = some expires ∧
      clock < expires := by
  unfold assertOwner at h
  split at h
  · rename_i _ _ id owner howner
    split at h
    · cases h
    · rename_i j' hj
      split at h
      · rename_i hlive
        cases h
        obtain ⟨t, ht, hlt⟩ := (Option.any_eq_true _ _).mp hlive.2.2
        exact ⟨id, owner, t, rfl, (Option.filter_eq_some_iff.mp howner).1, hj, hlive.1,
          hlive.2.1, ht, by simpa using hlt⟩
      · cases h
  · cases h

@[simp] theorem purgeUser_jobs (db : Db) (user : PyStr) : (db.purgeUser user).2.jobs = db.jobs := rfl

/-- The purge does nothing, or it deletes the rows of the job's user and marks the job. -/
theorem purgeBody_inv {vNow clock : Timestamp} {a : PurgeJobArgs} {db db' : Db} {reply : JobReply}
    (h : purgeBody vNow clock a db = .ok (reply, db')) :
    db' = db ∨ ∃ j counts, reply = .purged j.jobId vNow counts ∧
      db.jobs.get? j.jobId = some j ∧ j.dbPurgedAt = none ∧
      db' = { ((j.userId.map db.purgeUser).getD (.zero, db)).2 with
        jobs := db.jobs.put { j with dbPurgedAt := some vNow, updatedAt := vNow } } := by
  unfold purgeBody at h
  split at h
  · obtain ⟨j, hj, h⟩ := except_bind_ok.mp h
    obtain ⟨id, owner, expires, -, -, hget, -⟩ := assertOwner_ok hj
    obtain rfl : j.jobId = id := Table.get?_key hget
    split at h
    · cases h
      exact .inl rfl
    · split at h
      · cases h
        exact .inl rfl
      · rename_i hfresh
        obtain ⟨db₁, hw, h⟩ := except_bind_ok.mp h
        cases h
        obtain ⟨-, rfl⟩ := writeJob_ok hw
        have hjobs : ((j.userId.map db.purgeUser).getD (.zero, db)).2.jobs = db.jobs := by
          cases j.userId <;> rfl
        refine .inr ⟨j, _, rfl, hget, hfresh, ?_⟩
        rw [← hjobs]
        rfl
  · cases h
    exact .inl rfl

/-- The purge of a job that knows its user. -/
theorem purged_of_inv {vNow : Timestamp} {j : Job} {user : PyStr} {db db' : Db}
    (hget : db.jobs.get? j.jobId = some j) (huser : j.userId = some user)
    (hfresh : j.dbPurgedAt = none)
    (h : db' = { ((j.userId.map db.purgeUser).getD (.zero, db)).2 with
      jobs := db.jobs.put { j with dbPurgedAt := some vNow, updatedAt := vNow } }) :
    Purged vNow j user db db' := by
  have hrows : (j.userId.map db.purgeUser).getD (.zero, db) = db.purgeUser user := by
    rw [huser]
    rfl
  rw [hrows] at h
  exact ⟨hget, huser, hfresh, h⟩

theorem purgeBody_ok {vNow clock : Timestamp} {a : PurgeJobArgs} {db db' : Db} {reply : JobReply}
    (h : purgeBody vNow clock a db = .ok (reply, db')) :
    JobsOnly db db' ∨ ∃ j user counts, reply = .purged j.jobId vNow counts ∧
      Purged vNow j user db db' := by
  rcases purgeBody_inv h with rfl | ⟨j, counts, hreply, hget, hfresh, hafter⟩
  · exact .inl (.refl db')
  · cases huser : j.userId with
    | none =>
        rw [huser] at hafter
        exact .inl ⟨_, hafter⟩
    | some user => exact .inr ⟨j, user, counts, hreply, purged_of_inv hget huser hfresh hafter⟩

/-! ## What a call can do -/

/-- **Every change a call can make to the database.** -/
inductive Effect (sha256 : PyStr → PyStr) : Times × Call → Db → Reply → Db → Prop
  | none (x : Times × Call) (db : Db) (reply : Reply) : Effect sha256 x db reply db
  | committed {t : Times} {ids : FreshIds} {a : CommitArgs} {i : CommitInput} {db db' : Db}
      {row : TurnRequest} (hv : validateCommit a = .ok i) (hc : Committed t.now ids i db row db') :
      Effect sha256 (t, .commitTurn ids a) db (.commit (.result row.buildResult)) db'
  | applied {t : Times} {a : PrivacyArgs} {i : PrivacyInput} {db db' : Db} {result : PrivacyResult}
      (hv : validatePrivacy a = .ok i) (ha : Applied sha256 t.now i db result db') :
      Effect sha256 (t, .privacyApplyOperation a) db (.privacy (.result result)) db'
  | reserved {t : Times} {a : AdmissionArgs} {db : Db} {r : AdmissionReservation}
      (hv : validateAdmission t.vNow a = some r)
      (hd : admissionDecision db.admissionReservations r = .admitted) :
      Effect sha256 (t, .reserveAdmission a) db (.admission .admitted)
        { db with admissionReservations := db.admissionReservations.insertNew r }
  | admissionPurged {t : Times} {prio : AdmissionReservation → Nat} {a : PurgeArgs} {db : Db}
      {reply : Reply} {p : AdmissionReservation → Bool}
      (hp : ∀ r, p r = true → r.reservedAt < t.clock - hours 24) :
      Effect sha256 (t, .purgeAdmissionReservations prio a) db reply
        { db with admissionReservations := db.admissionReservations.deleteWhere p }
  | privacyPurged {t : Times} {prio : PrivacyOperation → Nat} {a : PurgeArgs} {db : Db}
      {reply : Reply} {p : PrivacyOperation → Bool}
      (hp : ∀ r, p r = true → r.appliedAt < t.clock - days 30) :
      Effect sha256 (t, .purgePrivacyOperations prio a) db reply
        { db with privacyOperations := db.privacyOperations.deleteWhere p }
  | outboxPurged {t : Times} {prio : OutboxEvent → Nat} {a : PurgeArgs} {db : Db}
      {reply : Reply} {p : OutboxEvent → Bool} :
      Effect sha256 (t, .purgeOutboxEvents prio a) db reply
        { db with outboxEvents := db.outboxEvents.deleteWhere p }
  | jobs {x : Times × Call} {db : Db} {reply : Reply} {jobs : Table Job Uuid Job.jobId} :
      Effect sha256 x db reply { db with jobs := jobs }
  | purged {t : Times} {a : PurgeJobArgs} {db db' : Db} {j : Job} {user : PyStr}
      {counts : PurgeCounts} (hp : Purged t.vNow j user db db') :
      Effect sha256 (t, .purge a) db (.job (.purged j.jobId t.vNow counts)) db'
  | pruned {t : Times} {p : ChatLog → Bool} {db : Db} :
      Effect sha256 (t, .pruneChatLogs p) db .done (db.deleteChatLogs p)
  | delivered {t : Times} {event : Uuid} {delivery : Delivery} {at_ : Timestamp} {db : Db} :
      Effect sha256 (t, .deliver event delivery at_) db .done (db.deliver event delivery at_)

variable {sha256 : PyStr → PyStr}

theorem effect_of_jobsOnly {x : Times × Call} {db db' : Db} {reply : Reply} (h : JobsOnly db db') :
    Effect sha256 x db reply db' := by
  obtain ⟨jobs, rfl⟩ := h
  exact .jobs

/-- **Nothing else ever happens.** -/
theorem exec_effect (x : Times × Call) (db : Db) :
    Effect sha256 x db (exec sha256 x db).1 (exec sha256 x db).2 := by
  have hjob : ∀ (body : Except SqlErr (JobReply × Db)) (reply : Reply),
      (∀ r db', body = .ok (r, db') → JobsOnly db db') →
      Effect sha256 x db reply (sanitized body db).2 := fun body reply h =>
    effect_of_jobsOnly (sanitized_cases (P := JobsOnly db) (.refl db) h)
  obtain ⟨t, call⟩ := x
  cases call with
  | commitTurn ids a =>
      show Effect sha256 _ db (.commit (commitTurn t.now ids a db).1) (commitTurn t.now ids a db).2
      have hstep := commitTurn_step t.now ids a db
      generalize (commitTurn t.now ids a db).1 = reply at hstep ⊢
      generalize (commitTurn t.now ids a db).2 = db' at hstep ⊢
      cases hstep with
      | refused e => exact .none _ _ _
      | raised => exact .none _ _ _
      | replayed => exact .none _ _ _
      | fresh i row _ hv hc => exact .committed hv hc
  | privacyApplyOperation a =>
      show Effect sha256 _ db (.privacy (privacyApplyOperation sha256 t.now a db).1)
        (privacyApplyOperation sha256 t.now a db).2
      have hstep := privacyApplyOperation_step sha256 t.now a db
      generalize (privacyApplyOperation sha256 t.now a db).1 = reply at hstep ⊢
      generalize (privacyApplyOperation sha256 t.now a db).2 = db' at hstep ⊢
      cases hstep with
      | refused e => exact .none _ _ _
      | raised => exact .none _ _ _
      | replayed => exact .none _ _ _
      | applied i result _ hv ha => exact .applied hv ha
  | reserveAdmission a =>
      show Effect sha256 _ db (.admission (reserveAdmission t.vNow a db).1)
        (reserveAdmission t.vNow a db).2
      unfold reserveAdmission
      split
      · exact .none _ _ _
      · rename_i r hv
        split
        · rename_i hd
          exact .reserved hv hd
        · exact .none _ _ _
  | purgeAdmissionReservations prio a =>
      show Effect sha256 _ db (.purged (purgeAdmissionReservations t.clock prio a db).1)
        (purgeAdmissionReservations t.clock prio a db).2
      unfold purgeAdmissionReservations
      split
      · exact .none _ _ _
      · refine .admissionPurged fun r hr => ?_
        obtain ⟨-, at_, hat, hlt⟩ := mem_purgeVictims (of_decide_eq_true hr)
        cases hat
        exact lt_of_lt_of_le hlt (min_le_right _ _)
  | purgePrivacyOperations prio a =>
      show Effect sha256 _ db (.purged (purgePrivacyOperations t.clock prio a db).1)
        (purgePrivacyOperations t.clock prio a db).2
      unfold purgePrivacyOperations
      split
      · exact .none _ _ _
      · refine .privacyPurged fun r hr => ?_
        obtain ⟨-, at_, hat, hlt⟩ := mem_purgeVictims (of_decide_eq_true hr)
        cases hat
        exact lt_of_lt_of_le hlt (min_le_right _ _)
  | purgeOutboxEvents prio a =>
      show Effect sha256 _ db (.purged (purgeOutboxEvents t.clock prio a db).1)
        (purgeOutboxEvents t.clock prio a db).2
      unfold purgeOutboxEvents
      split
      · exact .none _ _ _
      · exact .outboxPurged
  | requestDeletion jobId a => exact hjob _ _ fun _ _ h => requestBody_jobsOnly h
  | acquireLease locked prio a => exact hjob _ _ fun _ _ h => acquireLeaseBody_jobsOnly h
  | purge a =>
      show Effect sha256 _ db (.job (sanitized (purgeBody t.vNow t.clock a db) db).1)
        (sanitized (purgeBody t.vNow t.clock a db) db).2
      cases hbody : purgeBody t.vNow t.clock a db with
      | error err => exact .none _ _ _
      | ok out =>
          obtain ⟨reply, db'⟩ := out
          rcases purgeBody_ok hbody with h | ⟨j, user, counts, rfl, hp⟩
          · exact effect_of_jobsOnly h
          · exact .purged hp
  | recordFailure jobId worker code => exact hjob _ _ fun _ _ h => recordFailureBody_jobsOnly h
  | recordRetry jobId worker => exact hjob _ _ fun _ _ h => recordRetryBody_jobsOnly h
  | finalize jobId worker => exact hjob _ _ fun _ _ h => finalizeBody_jobsOnly h
  | purgeCompleted prio a =>
      show Effect sha256 _ db (.purged (purgeCompleted t.clock prio a db).1)
        (purgeCompleted t.clock prio a db).2
      unfold purgeCompleted
      split
      · exact .none _ _ _
      · exact .jobs
  | pruneChatLogs p => exact .pruned
  | deliver event delivery at_ => exact .delivered

/-- A step that was taken had one of these effects. -/
theorem effect_of_event (e : Event (exec sha256)) : Effect sha256 e.input e.before e.reply e.after := by
  have h := @exec_effect sha256 e.input e.before
  rw [e.executed] at h
  exact h

theorem commitStep_of_event {e : Event (exec sha256)} {t : Times} {ids : FreshIds} {a : CommitArgs}
    (h : e.input = (t, .commitTurn ids a)) :
    ∃ r, e.reply = .commit r ∧ CommitStep t.now ids a e.before r e.after := by
  have hexec := e.executed
  rw [h] at hexec
  obtain ⟨hreply, hafter⟩ := Prod.mk.inj hexec
  refine ⟨_, hreply.symm, ?_⟩
  rw [← hafter]
  exact commitTurn_step t.now ids a e.before

theorem privacyStep_of_event {e : Event (exec sha256)} {t : Times} {a : PrivacyArgs}
    (h : e.input = (t, .privacyApplyOperation a)) :
    ∃ r, e.reply = .privacy r ∧ PrivacyStep sha256 t.now a e.before r e.after := by
  have hexec := e.executed
  rw [h] at hexec
  obtain ⟨hreply, hafter⟩ := Prod.mk.inj hexec
  refine ⟨_, hreply.symm, ?_⟩
  rw [← hafter]
  exact privacyApplyOperation_step sha256 t.now a e.before

end Katherine.Cloud
