import Katherine.Cloud.Calls

/-!
# A turn is committed whole, and once

Over any run of calls: a fresh commit moves one profile's revision by one, adds one pair
of messages and leaves one completed request; every other outcome of `commit_turn`
leaves the database as it was. A request is committed once for as long as its row is
there. The row goes when the user deletes the history or the account, and then the same
request id can be committed again: `request_committed_again` is such a run.

What keeps a second commit away is the completed row, so the invariant is that a
completed row stays completed, with everything a replay reads, until it is deleted.
-/

namespace Katherine.Cloud

open Py Sql Pg Runs

/-! ## Observing a run -/

def RequestState.isCompleted : RequestState → Bool
  | .completed _ _ _ => true
  | _ => false

/-- There is a completed request under `key`. -/
def Db.isCompleted (db : Db) (key : PyStr × Uuid) : Bool :=
  (db.turnRequests.get? key).any (·.state.isCompleted)

/-- The call committed the request `key` afresh: it returned a result and there was none to
replay. -/
def freshCommit (key : PyStr × Uuid) (call : Call) (db : Db) (reply : Reply) : Bool :=
  match call, reply with
  | .commitTurn _ a, .commit (.result _) =>
      decide (a.authenticatedUserId = some key.1) && decide (a.requestId = some key.2)
        && !db.isCompleted key
  | _, _ => false

/-- The call applied the operation `key`, and did not replay it. -/
def appliesOperation (key : PyStr × Uuid) (call : Call) (db : Db) (reply : Reply) : Bool :=
  match call, reply with
  | .privacyApplyOperation a, .privacy (.result _) =>
      decide (a.authenticatedUserId = some key.1) && decide (a.operationId = some key.2)
        && (db.privacyOperations.get? key).isNone
  | _, _ => false

/-- The call deleted the history of `user`. -/
def historyDeleted (user : PyStr) (call : Call) (db : Db) (reply : Reply) : Bool :=
  match call with
  | .privacyApplyOperation a =>
      decide (a.operation = Operation.deleteHistory.text)
        && a.operationId.any fun id => appliesOperation (user, id) call db reply
  | _ => false

/-- The call purged the account of `user`. -/
def accountPurged (user : PyStr) (call : Call) (db : Db) (reply : Reply) : Bool :=
  match call, reply with
  | .purge _, .job (.purged jobId _ _) => (db.jobs.get? jobId).any fun j => decide (j.userId = some user)
  | _, _ => false

variable {sha256 : PyStr → PyStr}

def FreshCommit (key : PyStr × Uuid) (e : Event (exec sha256)) : Prop :=
  freshCommit key e.input.2 e.before e.reply = true

/-- The step deleted the requests of `user`. -/
def HistoryGone (user : PyStr) (e : Event (exec sha256)) : Prop :=
  historyDeleted user e.input.2 e.before e.reply = true ∨
    accountPurged user e.input.2 e.before e.reply = true

def IsCommit (e : Event (exec sha256)) : Prop := ∃ t ids a, e.input = (t, .commitTurn ids a)

/-! ## A fresh commit -/

@[simp] theorem given_eq_ok {α : Type} {x : Option α} {message : String} {a : α} :
    given x message = .ok a ↔ x = some a := by
  cases x <;> simp [given]

@[simp] theorem ensure_eq_ok {c : Bool} {message : String} {u : Unit} :
    ensure c message = .ok u ↔ c = true := by
  cases c <;> simp [ensure]

/-- What step 0 establishes about the arguments a request is known by. -/
structure Validated (a : CommitArgs) (i : CommitInput) : Prop where
  userId : a.authenticatedUserId = some i.userId
  userId_ne : i.userId ≠ []
  requestId : a.requestId = some i.requestId
  payloadHash : a.payloadHash = some i.payloadHash
  expectedRevision : a.expectedRevision = some (i.expectedRevision : Int)
  relationshipState : i.relationshipState = a.relationshipState
  replayPayload : replayPayloadCorrupt i.replayPayload = false

theorem validateReplayPayload_ok {a : CommitArgs} {requestId : Uuid} {payload : Jsonb}
    (h : validateReplayPayload a requestId = .ok payload) : replayPayloadCorrupt payload = false := by
  simp only [validateReplayPayload, except_bind_ok, given_eq_ok, ensure_eq_ok,
    Option.filter_eq_some_iff] at h
  obtain ⟨p, ⟨-, hobj⟩, _, -, _, -, _, hresponse, _, -, _, -, _, hid, _, -, h⟩ := h
  cases h
  obtain ⟨v, hv, hstr⟩ := (Option.any_eq_true _ _).mp hresponse
  simp [replayPayloadCorrupt, hobj, hid, hv, hstr]

theorem validateCommit_ok {a : CommitArgs} {i : CommitInput} (h : validateCommit a = .ok i) :
    Validated a i := by
  simp only [validateCommit, except_bind_ok, given_eq_ok, Option.filter_eq_some_iff] at h
  obtain ⟨user, ⟨huser, hne⟩, request, hrequest, expected, ⟨hexpected, hpos⟩, _, _, _, _, hash,
    ⟨hhash, _⟩, payload, hpayload, _, _, _, _, _, _, _, _, _, _, h⟩ := h
  cases h
  have hnat : ((expected.toNat : Nat) : Int) = expected := Int.toNat_of_nonneg (by simpa using hpos)
  exact ⟨huser, by simpa using hne, hrequest, hhash, by rw [hexpected, hnat], rfl,
    validateReplayPayload_ok hpayload⟩

theorem Validated.key {a : CommitArgs} {i : CommitInput} (h : Validated a i) {key : PyStr × Uuid}
    (hu : a.authenticatedUserId = some key.1) (hr : a.requestId = some key.2) : i.key = key := by
  have hu' := h.userId
  have hr' := h.requestId
  rw [hu] at hu'
  rw [hr] at hr'
  exact Prod.ext (Option.some.inj hu').symm (Option.some.inj hr').symm

theorem isCompleted_iff {db : Db} {key : PyStr × Uuid} : db.isCompleted key = true ↔
    ∃ r, db.turnRequests.get? key = some r ∧ ∃ n payload at_, r.state = .completed n payload at_ := by
  rw [Db.isCompleted, Option.any_eq_true]
  refine exists_congr fun r => and_congr_right fun _ => ?_
  cases r.state <;> simp [RequestState.isCompleted]

/-- An open request is not completed. -/
theorem isCompleted_of_open {db : Db} {i : CommitInput} (h : Open i (db.turnRequests.get? i.key)) :
    db.isCompleted i.key = false := by
  rw [Bool.eq_false_iff, ne_eq, isCompleted_iff]
  rintro ⟨r, hr, n, payload, at_, hs⟩
  rw [hr] at h
  exact h.2 n payload at_ hs

theorem freshCommit_iff {key : PyStr × Uuid} {call : Call} {db : Db} {reply : Reply} :
    freshCommit key call db reply = true ↔ ∃ ids a turn, call = .commitTurn ids a ∧
      reply = .commit (.result turn) ∧ a.authenticatedUserId = some key.1 ∧
      a.requestId = some key.2 ∧ db.isCompleted key = false := by
  constructor
  · intro h
    unfold freshCommit at h
    split at h
    · simp only [Bool.and_eq_true, decide_eq_true_eq, Bool.not_eq_true'] at h
      exact ⟨_, _, _, rfl, rfl, h.1.1, h.1.2, h.2⟩
    · cases h
  · rintro ⟨ids, a, turn, rfl, rfl, huser, hrequest, hnew⟩
    simp [freshCommit, huser, hrequest, hnew]

/-- A fresh commit is a step that wrote everything a commit writes. -/
theorem committed_of_fresh {key : PyStr × Uuid} {e : Event (exec sha256)} (h : FreshCommit key e) :
    ∃ t ids a i row, e.input = (t, .commitTurn ids a) ∧ validateCommit a = .ok i ∧ i.key = key ∧
      e.reply = .commit (.result row.buildResult) ∧ Committed t.now ids i e.before row e.after := by
  obtain ⟨ids, a, turn, hcall, hreply, huser, hrequest, hnew⟩ := freshCommit_iff.mp h
  have hin : e.input = (e.input.1, .commitTurn ids a) := by rw [← hcall]
  obtain ⟨r, hr, hstep⟩ := commitStep_of_event hin
  rw [hreply] at hr
  injection hr with hr
  subst hr
  generalize hafter : e.after = db' at hstep ⊢
  cases hstep with
  | replayed i r hv hr hs =>
      have hkey : i.key = key := (validateCommit_ok hv).key huser hrequest
      have hc : e.before.isCompleted i.key = true := isCompleted_iff.mpr ⟨r, hr, hs⟩
      rw [hkey, hnew] at hc
      cases hc
  | fresh i row _ hv hc =>
      exact ⟨_, ids, a, i, row, hin, hv, (validateCommit_ok hv).key huser hrequest, hreply, hc⟩

/-- Every other outcome of `commit_turn` writes nothing. -/
theorem commit_unchanged {e : Event (exec sha256)} (hcommit : IsCommit e)
    (h : ∀ key, ¬ FreshCommit key e) : e.after = e.before := by
  obtain ⟨t, ids, a, hin⟩ := hcommit
  obtain ⟨r, hr, hstep⟩ := commitStep_of_event hin
  generalize hafter : e.after = db' at hstep ⊢
  cases hstep with
  | refused => rfl
  | raised => rfl
  | replayed => rfl
  | fresh i row _ hv hc =>
      have hargs := validateCommit_ok hv
      refine absurd ?_ (h i.key)
      exact freshCommit_iff.mpr ⟨ids, a, row.buildResult, by rw [hin], hr, hargs.userId,
        hargs.requestId, isCompleted_of_open hc.isOpen⟩

/-! ## A completed request stays -/

/-- `r'` is `r` as far as a replay can tell. -/
structure SameReplay (r r' : TurnRequest) : Prop where
  key : r'.key = r.key
  payloadHash : r'.payloadHash = r.payloadHash
  state : r'.state = r.state
  replayOutboxRefs : r'.replayOutboxRefs = r.replayOutboxRefs
  createdAt : r'.createdAt = r.createdAt

theorem SameReplay.refl (r : TurnRequest) : SameReplay r r := ⟨rfl, rfl, rfl, rfl, rfl⟩

theorem SameReplay.trans {r₁ r₂ r₃ : TurnRequest} (h : SameReplay r₁ r₂) (h' : SameReplay r₂ r₃) :
    SameReplay r₁ r₃ :=
  ⟨h'.key.trans h.key, h'.payloadHash.trans h.payloadHash, h'.state.trans h.state,
    h'.replayOutboxRefs.trans h.replayOutboxRefs, h'.createdAt.trans h.createdAt⟩

theorem sameReplay_nullMessageRefs (gone : Int → Bool) (r : TurnRequest) :
    SameReplay r (r.nullMessageRefs gone) := ⟨rfl, rfl, rfl, rfl, rfl⟩

/-- The requests after a step that kept those of `user`, apart from pointers to messages. -/
theorem get?_of_kept {t t' : Table TurnRequest (PyStr × Uuid) TurnRequest.key}
    {p : TurnRequest → Bool} {gone : Int → Bool}
    (ht : t'.rows = (t.rows.filter p).map (·.nullMessageRefs gone)) {key : PyStr × Uuid}
    {r : TurnRequest} (hr : t.get? key = some r) (hp : p r = true) :
    t'.get? key = some (r.nullMessageRefs gone) := by
  have hkey : r.key = key := Table.get?_key hr
  rw [← hkey, ← TurnRequest.key_nullMessageRefs gone r]
  apply Table.get?_of_mem
  rw [ht, List.mem_map]
  exact ⟨r, List.mem_filter.mpr ⟨Table.get?_mem hr, hp⟩, rfl⟩

theorem key_fst {r : TurnRequest} {key : PyStr × Uuid} (h : r.key = key) : r.userId = key.1 := by
  rw [← h]
  rfl

theorem get?_of_gone {t t' : Table TurnRequest (PyStr × Uuid) TurnRequest.key}
    {p : TurnRequest → Bool} {gone : Int → Bool}
    (ht : t'.rows = (t.rows.filter p).map (·.nullMessageRefs gone)) {key : PyStr × Uuid}
    (hp : ∀ r : TurnRequest, r.userId = key.1 → p r = false) : t'.get? key = none := by
  refine Table.get?_eq_none.mpr fun x hx hkey => ?_
  rw [ht, List.mem_map] at hx
  obtain ⟨r, hr, rfl⟩ := hx
  have hfalse := hp r (key_fst hkey)
  rw [(List.mem_filter.mp hr).2] at hfalse
  cases hfalse

theorem purgeUser_turnRequests (db : Db) (user : PyStr) :
    ∃ gone, (db.purgeUser user).2.turnRequests.rows =
      (db.turnRequests.rows.filter fun r => !decide (r.userId = user)).map
        (·.nullMessageRefs gone) :=
  ⟨_, rfl⟩

/-- What step 0 keeps of the arguments of an operation. -/
theorem validatePrivacy_ok {a : PrivacyArgs} {i : PrivacyInput} (h : validatePrivacy a = .ok i) :
    a.authenticatedUserId = some i.userId ∧ a.operationId = some i.operationId ∧
      a.payload = some i.payload ∧ a.operation = i.operation.text := by
  simp only [validatePrivacy, privacyOpValidationError, except_bind_ok, given_eq_ok,
    Option.filter_eq_some_iff] at h
  obtain ⟨x, ⟨user, ⟨huser, -⟩, op, hop, payload, ⟨hpayload, -⟩, hx⟩, o, ho, _, -, h⟩ := h
  cases hx
  cases h
  exact ⟨huser, hop, hpayload, Operation.text_of_ofText ho⟩

/-- An operation that was applied was the call's, and was not in the ledger. -/
theorem appliesOperation_of_applied {t : Times} {a : PrivacyArgs} {i : PrivacyInput} {db db' : Db}
    {result : PrivacyResult} (hv : validatePrivacy a = .ok i)
    (ha : Applied sha256 t.now i db result db') :
    appliesOperation i.key (.privacyApplyOperation a) db (.privacy (.result result)) = true := by
  obtain ⟨huser, hid, -⟩ := validatePrivacy_ok hv
  have hnone := ha.unknown
  rw [PrivacyInput.key] at hnone
  simp [appliesOperation, huser, hid, hnone, PrivacyInput.key]

/-- **A completed request stays as it is until the user's history goes.** -/
theorem completed_kept {x : Times × Call} {db db' : Db} {reply : Reply} {key : PyStr × Uuid}
    {r : TurnRequest} (heffect : Effect sha256 x db reply db')
    (hr : db.turnRequests.get? key = some r)
    (hs : ∃ n payload at_, r.state = .completed n payload at_) :
    (∃ r', db'.turnRequests.get? key = some r' ∧ SameReplay r r') ∨
      (db'.turnRequests.get? key = none ∧
        (historyDeleted key.1 x.2 db reply = true ∨ accountPurged key.1 x.2 db reply = true)) := by
  have huser : r.userId = key.1 := key_fst (Table.get?_key hr)
  cases heffect with
  | @committed t ids a i _ _ row hv hc =>
      -- the committed request was open, so it is another one
      have hne : key ≠ i.key := by
        rintro rfl
        have hopen := hc.isOpen
        obtain ⟨n, payload, at_, hs⟩ := hs
        rw [hr] at hopen
        exact hopen.2 n payload at_ hs
      refine .inl ⟨r, ?_, .refl r⟩
      rw [hc.turnRequests, Table.get?_put, if_neg (by rw [hc.key]; exact hne)]
      exact hr
  | @applied t a i _ _ result hv ha =>
      obtain ⟨gone, -, hrows⟩ := ha.turnRequests
      by_cases hdel : i.operation = .deleteHistory ∧ r.userId = i.userId
      · refine .inr ⟨get?_of_gone hrows ?_, .inl ?_⟩
        · intro r' hr'
          simp [hdel.1, hr', ← huser, hdel.2]
        obtain ⟨-, hid, -, hop⟩ := validatePrivacy_ok hv
        have happ := appliesOperation_of_applied hv ha
        rw [PrivacyInput.key, ← hdel.2, huser] at happ
        simpa [historyDeleted, hid, hop, hdel.1] using happ
      · refine .inl ⟨_, get?_of_kept hrows hr ?_, sameReplay_nullMessageRefs gone r⟩
        simpa [← not_and_or] using hdel
  | @purged t a _ _ j user counts hp =>
      obtain ⟨gone, hrows⟩ := purgeUser_turnRequests db user
      have hrows' : db'.turnRequests.rows =
          (db.turnRequests.rows.filter fun r => !decide (r.userId = user)).map
            (·.nullMessageRefs gone) := by
        rw [hp.rows]
        exact hrows
      by_cases hu : r.userId = user
      · refine .inr ⟨get?_of_gone hrows' ?_, .inr ?_⟩
        · intro r' hr'
          simp [hr', ← huser, hu]
        · simp [accountPurged, hp.job, hp.owner, ← huser, hu]
      · refine .inl ⟨_, get?_of_kept hrows' hr ?_, sameReplay_nullMessageRefs gone r⟩
        simpa using hu
  | @pruned t p _ =>
      refine .inl ⟨r.nullMessageRefs fun i => (db.chatLogs.get? i).any p, ?_,
        sameReplay_nullMessageRefs _ r⟩
      have hmap := Table.get?_mapRows db.turnRequests
        (·.nullMessageRefs fun i => (db.chatLogs.get? i).any p) (fun _ => rfl) key
      rw [hr] at hmap
      exact hmap
  | _ => exact .inl ⟨r, hr, .refl r⟩

theorem isCompleted_kept {key : PyStr × Uuid} (e : Event (exec sha256))
    (h : e.before.isCompleted key = true) : e.after.isCompleted key = true ∨ HistoryGone key.1 e := by
  obtain ⟨r, hr, hs⟩ := isCompleted_iff.mp h
  rcases completed_kept (effect_of_event e) hr hs with ⟨r', hr', hsame⟩ | hgone
  · exact .inl (isCompleted_iff.mpr ⟨r', hr', by rw [hsame.state]; exact hs⟩)
  · exact .inr hgone.2

/-! ## Whole runs -/

/-- Exactly one row under `key`, and it is completed. -/
def OneCompleted (db : Db) (key : PyStr × Uuid) : Prop :=
  ∃ r ∈ db.turnRequests.rows, r.key = key ∧ r.state.isCompleted = true ∧
    ∀ r' ∈ db.turnRequests.rows, r'.key = key → r' = r

/-- What a fresh commit of `key` changes. -/
structure CommitsOnce (key : PyStr × Uuid) (db db' : Db) : Prop where
  revision : db'.revision key.1 = db.revision key.1 + 1
  otherProfiles : ∀ v, v ≠ key.1 → db'.profiles.get? v = db.profiles.get? v
  messages : ∃ m m', db'.chatLogs.rows = db.chatLogs.rows ++ [m, m'] ∧
    m.userId = key.1 ∧ m.role = .user ∧ m'.userId = key.1 ∧ m'.role = .assistant
  request : OneCompleted db' key

theorem oneCompleted_put {t : Table TurnRequest (PyStr × Uuid) TurnRequest.key} {db : Db}
    {row : TurnRequest} (ht : db.turnRequests = t.put row) (hs : row.state.isCompleted = true) :
    OneCompleted db row.key := by
  have hget : db.turnRequests.get? row.key = some row := by
    rw [ht, Table.get?_put, if_pos rfl]
  refine ⟨row, Table.get?_mem hget, rfl, hs, ?_⟩
  intro r' hr' hkey
  have := Table.get?_of_mem hr'
  rw [hkey, hget] at this
  exact (Option.some.inj this).symm

theorem commitsOnce_of_committed {now : Timestamp} {ids : FreshIds} {i : CommitInput} {db db' : Db}
    {row : TurnRequest} (h : Committed now ids i db row db') : CommitsOnce i.key db db' := by
  obtain ⟨p, huser, hrev, hp⟩ := h.profile
  refine ⟨?_, ?_, ?_, ?_⟩
  · show db'.revision i.userId = db.revision i.userId + 1
    rw [Db.revision, hp, Table.get?_put, if_pos huser.symm]
    exact hrev
  · intro v hv
    rw [hp, Table.get?_put, if_neg (by rw [huser]; exact hv)]
  · exact ⟨_, _, h.chatLogs, rfl, rfl, rfl, rfl⟩
  · rw [← h.key]
    exact oneCompleted_put h.turnRequests (by rw [h.state]; rfl)

/-- **Atomic turn commit.** In every run, from whatever database: a fresh commit increases the
revision of its user by one and no other, adds one pair of messages and leaves exactly one completed
request; every other outcome of `commit_turn` leaves the database alone; and between two fresh
commits of one request the user's history was deleted. -/
theorem commit_atomic {db db' : Db} {es : List (Event (exec sha256))} (hrun : Run db es db') :
    (∀ e ∈ es, ∀ key, FreshCommit key e → CommitsOnce key e.before e.after) ∧
    (∀ e ∈ es, IsCommit e → (∀ key, ¬ FreshCommit key e) → e.after = e.before) ∧
    (∀ key e₁ e₂ pre mid post, es = pre ++ e₁ :: (mid ++ e₂ :: post) → FreshCommit key e₁ →
      FreshCommit key e₂ → ∃ e ∈ mid, HistoryGone key.1 e) := by
  refine ⟨?_, ?_, ?_⟩
  · rintro e - key hfresh
    obtain ⟨t, ids, a, i, row, -, -, rfl, -, hc⟩ := committed_of_fresh hfresh
    exact commitsOnce_of_committed hc
  · exact fun e _ => commit_unchanged
  · rintro key e₁ e₂ pre mid post rfl h₁ h₂
    refine hrun.between (P := fun db => db.isCompleted key = true) ?_ ?_
      (fun e _ => isCompleted_kept e) h₁ h₂
    · intro h
      obtain ⟨t, ids, a, i, row, -, -, rfl, -, hc⟩ := committed_of_fresh h
      obtain ⟨r, hmem, hkey, hs, -⟩ := (commitsOnce_of_committed hc).request
      rw [Db.isCompleted, ← hkey, Table.get?_of_mem hmem]
      exact hs
    · intro h
      obtain ⟨_, _, _, _, _, _, _, hnew⟩ := freshCommit_iff.mp h
      rw [hnew]
      exact Bool.false_ne_true

/-! ## Committed again -/

/-- A digest that is right about `{}` and keeps other texts apart. -/
def sampleSha256 (text : PyStr) : PyStr :=
  if text = py "{}" then py "44136fa355b3678a1146ad16f7e8649e94fb4fc21fe77e8310c060f61caaff8a"
  else cp 'x' :: text

def sampleUser : PyStr := py "u1"

theorem isFloatRepr_early : isFloatRepr (py "1700000000.0") = true := by decide

theorem early_pos : (⟨py "1700000000.0", isFloatRepr_early⟩ : FiniteFloat).gtRatio 0 1 = true := by decide

theorem isFloatRepr_late : isFloatRepr (py "1700000005.0") = true := by decide

theorem sampleRequest_ok : Context.canonicalUuid (py "11111111-1111-4111-8111-111111111111") = true := by decide

def sampleRequest : Uuid := ⟨py "11111111-1111-4111-8111-111111111111", sampleRequest_ok⟩

def sampleOperation : Uuid := ⟨py "22222222-2222-4222-8222-222222222222", by decide⟩

/-- A user with a profile and nothing else. -/
def sampleDb : Db :=
  { Db.empty with
    profiles := Table.empty.insertNew
      { userId := sampleUser, personaConfig := none, userProfile := none, relationshipState := none,
        emotionalState := none, revision := 0, updatedAt := none } }

/-- The arguments of a turn that expects `revision`. -/
def sampleArgs (revision : Int) : CommitArgs :=
  { authenticatedUserId := some sampleUser
    requestId := some sampleRequest
    expectedRevision := some revision
    userMessage := some (py "hi")
    assistantMessage := some (py "hello")
    payloadHash := some (List.replicate 64 (cp 'a'))
    emotionalState := none
    relationshipState := none
    publicResponse := some (py "hello")
    replayPayload := some (.obj [(py "response", .str (py "hello")),
      (py "message_id", .str (py "33333333-3333-4333-8333-333333333333"))])
    outboxEvents := some (.arr [])
    leaseOwner := none }

def sampleIds (first : Int) : FreshIds :=
  { userMessageId := first, assistantMessageId := first + 1, turnRequestId := sampleRequest,
    eventId := fun _ => sampleRequest }

def sampleTimes : Times := ⟨0, 0, 0⟩

/-- Commit, delete the history, commit the same request again. -/
def firstCommit : Event (exec sampleSha256) :=
  .of _ (sampleTimes, .commitTurn (sampleIds 1) (sampleArgs 0)) sampleDb

def historyDeletion : Event (exec sampleSha256) :=
  .of _ (sampleTimes, .privacyApplyOperation
    ⟨some sampleUser, py "delete_history", some sampleOperation, some (.obj [])⟩) firstCommit.after

def secondCommit : Event (exec sampleSha256) :=
  .of _ (sampleTimes, .commitTurn (sampleIds 3) (sampleArgs 2)) historyDeletion.after

theorem commitTwice_run :
    Run sampleDb [firstCommit, historyDeletion, secondCommit] secondCommit.after :=
  .cons firstCommit (.cons historyDeletion (.cons secondCommit (.nil _)))

theorem firstCommit_fresh : FreshCommit (sampleUser, sampleRequest) firstCommit := by
  unfold FreshCommit
  decide +kernel

theorem secondCommit_fresh : FreshCommit (sampleUser, sampleRequest) secondCommit := by
  unfold FreshCommit
  decide +kernel

/-- **One request, two fresh commits.** -/
theorem request_committed_again : ∃ (es : List (Event (exec sampleSha256))) (db' : Db)
    (key : PyStr × Uuid) (e₁ e₂ e₃ : Event (exec sampleSha256)),
    Run sampleDb es db' ∧ es = [e₁, e₂, e₃] ∧ IsCommit e₁ ∧
    (∃ t a, e₂.input = (t, .privacyApplyOperation a)) ∧ IsCommit e₃ ∧
    FreshCommit key e₁ ∧ FreshCommit key e₃ :=
  ⟨_, _, (sampleUser, sampleRequest), _, _, _, commitTwice_run, rfl, ⟨_, _, _, rfl⟩, ⟨_, _, rfl⟩,
    ⟨_, _, _, rfl⟩, firstCommit_fresh, secondCommit_fresh⟩

theorem commit_atomic_sample :
    CommitsOnce (sampleUser, sampleRequest) firstCommit.before firstCommit.after ∧
      HistoryGone sampleUser historyDeletion := by
  obtain ⟨honce, _, hbetween⟩ := commit_atomic commitTwice_run
  refine ⟨honce _ (by simp) _ firstCommit_fresh, ?_⟩
  obtain ⟨e, he, hgone⟩ := hbetween (sampleUser, sampleRequest) firstCommit secondCommit []
    [historyDeletion] [] rfl firstCommit_fresh secondCommit_fresh
  obtain rfl := List.mem_singleton.mp he
  exact hgone

end Katherine.Cloud
