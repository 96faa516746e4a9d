import Katherine.Local.LegacyImport

/-!
# Calls and runs

Every public write of the store as one value of `Call`, and `exec` for what it does
to the store: a call is executed by some thread, with some clock readings, and the
driver may fail at one of the places `Sql.Fault` lists. `reopen` stands for closing
the store, or crashing, and opening it again.

`Change` says what a call that altered the committed contents did to them, and
`exec_change` that nothing else ever happens. Invariants are proved against `Change`
and never look inside an operation.
-/

namespace Katherine.Local

open Py Sql

/-- The store as a thread finds it. Threads are numbered. -/
abbrev LocalStore := Store Nat Db

/-- The store over a freshly migrated database. -/
def LocalStore.init : LocalStore := ⟨.empty, none⟩

inductive Call
  | reserveRequest (requestId userMessage : PyVal)
  | commitTurn (args : CommitArgs)
  | releaseRequest (requestId historyGeneration : PyVal)
  | storeMemory (content metadata : PyVal)
  | deleteHistory
  | deleteMemories
  | reset (field : StateField) (neutral : PyVal)
  | trimHistory (keepLast : PyVal)
  | importLegacyFixture (fixture : PyVal)
  | reopen

/-- What a call returns. -/
inductive Reply
  | outcome (o : ReplayOutcome)
  | committed (c : CommittedTurn)
  | released
  | memory (id : Nat)
  | report (r : Report)
  | trimmed (remaining : Nat)
  | imported (r : ImportReport)
  | opened

/-- Who calls, when, and whether the driver fails. -/
structure Env where
  thread : Nat
  clock : Clock
  fault : Fault := .none

/-- Run a block for its reply, after the checks of the arguments. -/
def perform {α β : Type} (env : Env) (args : Except Err β) (block : β → Block Db Err α)
    (reply : α → Reply) (s : LocalStore) : Except Err Reply × LocalStore :=
  match args with
  | .error e => (.error e, s)
  | .ok b =>
      let (r, s') := (block b).run .sqlite env.thread env.fault s
      (r.map reply, s')

/-! ## Accepted arguments -/

theorem validateRequestId_str {v : PyVal} {s : PyStr} (h : validateRequestId v = .ok s) :
    v = .str s := by
  simp only [validateRequestId, bind_eq_ok, orRaise_eq_ok, Option.filter_eq_some_iff] at h
  obtain ⟨s', ⟨hs, _⟩, _, _, _, _, h⟩ := h
  cases h
  cases v <;> cases hs
  rfl

theorem validateMessage_str {v : PyVal} {field : String} {s : PyStr}
    (h : validateMessage v field = .ok s) : v = .str s := by
  simp only [validateMessage, bind_eq_ok, orRaise_eq_ok, Option.filter_eq_some_iff] at h
  obtain ⟨s', ⟨hs, _⟩, _, _, h⟩ := h
  cases h
  cases v <;> cases hs
  rfl

theorem validateMessage_length {v : PyVal} {field : String} {s : PyStr}
    (h : validateMessage v field = .ok s) : s.length ≤ maxMessageLength := by
  simp only [validateMessage, bind_eq_ok, require_eq_ok, decide_eq_true_eq] at h
  obtain ⟨s', _, _, hlen, h⟩ := h
  cases h
  exact hlen

theorem items?_eq_some {v : PyVal} {kvs : List (PyKey × PyVal)} (h : v.items? = some kvs) :
    v = .dict kvs := by
  cases v <;> cases h
  rfl

theorem validateReplayPayload_items {v : PyVal} {kvs : List (PyKey × PyVal)}
    (h : validateReplayPayload v = .ok kvs) : v = .dict kvs := by
  simp only [validateReplayPayload, bind_eq_ok, orRaise_eq_ok] at h
  obtain ⟨_, hitems, _, _, _, _, _, _, _, _, _, _, _, _, h⟩ := h
  cases h
  exact items?_eq_some hitems

theorem validateSnapshot_items {σ : Type} {code : ErrorCode}
    {fromDict : List (PyKey × PyVal) → Option σ} {v : PyVal} {kvs : List (PyKey × PyVal)}
    (h : validateSnapshot code fromDict v = .ok kvs) : v = .dict kvs ∧ (fromDict kvs).isSome := by
  simp only [validateSnapshot, bind_eq_ok, orRaise_eq_ok, require_eq_ok] at h
  obtain ⟨_, hitems, _, _, _, _, _, hdomain, h⟩ := h
  cases h
  exact ⟨items?_eq_some hitems, hdomain⟩

/-- Every check of `commit_turn`, with what it found. -/
structure Accepted (a : CommitArgs) (c : CommitInput) : Prop where
  requestId : validateRequestId a.requestId = .ok c.requestId
  historyGeneration : validateHistoryGeneration a.historyGeneration = .ok c.historyGeneration
  userMessage : validateMessage a.userMessage "user_message" = .ok c.userMessage
  assistantMessage : validateMessage a.assistantMessage "assistant_message" = .ok c.assistantMessage
  publicResponse : a.publicResponse.str?.filter (!·.isEmpty) = some c.publicResponse
  responseLength : c.publicResponse.length ≤ maxMessageLength
  replayPayload : validateReplayPayload a.replayPayload = .ok c.replayPayload
  response : (dictGet c.replayPayload (py "response")).bind PyVal.str? = some c.publicResponse
  names : namesRequest c.replayPayload c.requestId = true
  emotionalState : validateEmotionalSnapshot a.emotionalState = .ok c.emotionalState
  relationshipState : validateRelationshipSnapshot a.relationshipState = .ok c.relationshipState
  outboxEvents : validateOutboxEvents a.outboxEvents = .ok c.outboxEvents
  expectedRevision : validateExpectedRevision a.expectedRevision = .ok c.expectedRevision

/-- **`commit_turn` validates exactly this.** -/
theorem validateCommit_eq_ok {a : CommitArgs} {c : CommitInput} :
    validateCommit a = .ok c ↔ Accepted a c := by
  constructor
  · intro h
    simp only [validateCommit, bind_eq_ok, orRaise_eq_ok, require_eq_ok, decide_eq_true_eq] at h
    obtain ⟨_, h1, _, h2, _, h3, _, h4, _, h5, _, h6, _, h7, _, h8, _, h9, _, h10, _, h11, _, h12,
      _, h13, h⟩ := h
    cases h
    exact ⟨h1, h2, h3, h4, h5, h6, h7, h8, h9, h10, h11, h12, h13⟩
  · intro h
    simp only [validateCommit, h.requestId, h.historyGeneration, h.userMessage, h.assistantMessage,
      h.publicResponse, h.responseLength, h.replayPayload, h.response, h.emotionalState, h.names,
      h.relationshipState, h.outboxEvents, h.expectedRevision, orRaise, decide_true, require_true,
      ok_bind]
    rfl

section

variable (sha256 : PyStr → PyStr)

/-- The validated input of a commit and its digest. -/
def commitInput (a : CommitArgs) : Except Err (CommitInput × PyStr) := do
  let c ← validateCommit a
  let hash ← canonicalPayloadHash sha256 (buildCanonicalCommitPayload c)
  return (c, hash)

theorem commitInput_eq_ok {a : CommitArgs} {c : CommitInput} {hash : PyStr} :
    commitInput sha256 a = .ok (c, hash) ↔ Accepted a c ∧
      canonicalPayloadHash sha256 (buildCanonicalCommitPayload c) = .ok hash := by
  simp only [commitInput, bind_eq_ok, ← validateCommit_eq_ok]
  constructor
  · rintro ⟨c', hc, hash', hh, h⟩
    cases h
    exact ⟨hc, hh⟩
  · rintro ⟨hc, hh⟩
    exact ⟨c, hc, hash, hh, rfl⟩

/-- `commit_turn`: the checks, the read outside any transaction, then the block. -/
def commitTurn (env : Env) (a : CommitArgs) (s : LocalStore) :
    Except Err CommittedTurn × LocalStore :=
  match commitInput sha256 a with
  | .error e => (.error e, s)
  | .ok (c, hash) =>
      if env.fault = .read then (.error .sqlite, s)
      else
        let run := (commitBlock c hash env.clock).run .sqlite env.thread env.fault s
        match (s.view env.thread).turnRequests.get? c.requestId with
        | none => run
        | some row =>
            match row.status with
            | .pending => run
            | .completed =>
                if row.payloadHash ≠ hash then (.error (c.conflict .requestPayloadConflict
                  "Request id was already completed with a different payload."), s)
                else (committedFromRow row, s)
            | .failed => (.error (c.conflict .requestReplayUnavailable
                "Request cannot be replayed or recommitted."), s)

/-- Two checked arguments. -/
def both {α β : Type} (x : Except Err α) (y : Except Err β) : Except Err (α × β) := do
  let a ← x
  let b ← y
  return (a, b)

/-- One call. -/
def exec (env : Env) (call : Call) (s : LocalStore) : Except Err Reply × LocalStore :=
  match call with
  | .reserveRequest requestId userMessage =>
      perform env (both (validateRequestId requestId) (validateMessage userMessage "user_message"))
        (fun p => reserveBlock p.1 p.2 env.clock) .outcome s
  | .commitTurn a =>
      let (r, s') := commitTurn sha256 env a s
      (r.map .committed, s')
  | .releaseRequest requestId historyGeneration =>
      perform env (both (validateRequestId requestId) (validateHistoryGeneration historyGeneration))
        (fun p => releaseBlock p.1 p.2) (fun _ => .released) s
  | .storeMemory content metadata =>
      perform env (both (validateMessage content "memory content")
          (orRaise metadata.items? (.validation .invalidMetadata "metadata must be a mapping")))
        (fun p => storeMemoryBlock p.1 (.dict p.2) env.clock) .memory s
  | .deleteHistory => perform env (.ok ()) (fun _ => deleteHistoryBlock env.clock) .report s
  | .deleteMemories => perform env (.ok ()) (fun _ => deleteMemoriesBlock env.clock) .report s
  | .reset field neutral =>
      perform env (field.validateNeutral neutral) (fun _ => resetBlock field env.clock) .report s
  | .trimHistory keepLast =>
      perform env (orRaise (PyVal.nat? keepLast)
          (.validation .invalidKeepLast "keep_last must be a non-negative int"))
        trimBlock .trimmed s
  | .importLegacyFixture fixture =>
      perform env (validateLegacyFixture fixture)
        (fun turns => importBlock sha256 turns env.clock) .imported s
  | .reopen =>
      -- every connection is gone, and with it any transaction that was open
      match env.fault with
      | .none => (.ok .opened, ⟨s.db.recover env.clock.now.text, none⟩)
      | _ => (.error .sqlite, ⟨s.db, none⟩)

/-! ## What a call changes -/

/-- The turns of a fixture that were not in the ledger, written one after the other. -/
inductive Imports : Db → Db → Prop
  | refl (db : Db) : Imports db db
  | step {db db' : Db} {t : LegacyTurn} {now hash text : PyStr}
      (habsent : db.turnRequests.get? t.requestId = none)
      (hhash : legacyHash sha256 t = .ok hash)
      (hrest : Imports (db.importTurn t now hash text) db') : Imports db db'

/-- **What a call that altered the contents did to them**, with every check it passed. -/
inductive Change : Db → Call → Reply → Db → Prop
  | reserve {db : Db} {requestId userMessage : PyVal} {id sqlNow : PyStr}
      (hid : validateRequestId requestId = .ok id)
      (habsent : db.turnRequests.get? id = none) :
      Change db (.reserveRequest requestId userMessage)
        (.outcome { status := .reserved, historyGeneration := some db.historyGeneration })
        (db.reserve id sqlNow)
  | commit {db : Db} {a : CommitArgs} {c : CommitInput} {row : TurnRequest} {x : CommitTexts}
      {outbox : Table OutboxEvent PyStr OutboxEvent.id}
      (hinput : commitInput sha256 a = .ok (c, x.hash))
      (hrow : db.turnRequests.get? c.requestId = some row)
      (hpending : row.status = .pending)
      (hgeneration : db.historyGeneration = c.historyGeneration)
      (hmarker : row.payloadHash = reservationMarker c.historyGeneration)
      (hrevision : c.expectedRevision.getD db.revision = db.revision)
      (hemotional : jsonDumps (.dict c.emotionalState) = .ok x.emotional)
      (hrelationship : jsonDumps (.dict c.relationshipState) = .ok x.relationship)
      (hreplay : jsonDumps (.dict c.replayPayload) = .ok x.replay)
      (houtbox : c.outboxEvents.foldlM (insertOutboxEvent c.requestId x.now) db.outboxEvents
        = .ok outbox) (hnow : ∃ i : Instant, x.now = i.text) :
      Change db (.commitTurn a) (.committed (db.committed c)) (db.commit c row x outbox)
  | release {db : Db} {requestId historyGeneration : PyVal} {id : PyStr} {g : Nat}
      (hid : validateRequestId requestId = .ok id)
      (hg : validateHistoryGeneration historyGeneration = .ok g) :
      Change db (.releaseRequest requestId historyGeneration) .released (db.release id g)
  | storeMemory {db : Db} {content metadata : PyVal} {text now doc : PyStr} :
      Change db (.storeMemory content metadata) (.memory (db.memories.seq + 1))
        (db.addMemory text doc now)
  | deleteHistory {db : Db} {r : Report} {text sqlNow : PyStr} :
      Change db .deleteHistory (.report r) (db.clearHistory.audit .deleteHistory text sqlNow)
  | deleteMemories {db : Db} {r : Report} {text sqlNow : PyStr} :
      Change db .deleteMemories (.report r) (db.clearMemories.audit .deleteMemories text sqlNow)
  | reset {db : Db} {field : StateField} {neutral : PyVal} {r : Report}
      {text otherText now later result sqlNow : PyStr} {t t' : PosFloat}
      (htext : field.neutralText t = .ok text) (hother : field.other.neutralText t' = .ok otherText) :
      Change db (.reset field neutral) (.report r)
        (db.reset field (resetProfile db.profile field text otherText (db.revision + 1) now later)
          result sqlNow)
  | trim {db : Db} {keepLast : PyVal} {n : Nat} (hn : PyVal.nat? keepLast = some n) :
      Change db (.trimHistory keepLast) (.trimmed (min db.chatLogs.rows.length n)) (db.trim n)
  | importFixture {db db' : Db} {fixture : PyVal} {r : ImportReport} (himports : Imports sha256 db db') :
      Change db (.importLegacyFixture fixture) (.imported r) db'
  | recover {db : Db} {now : PyStr} : Change db .reopen .opened (db.recover now)

/-! ### One lemma for each body -/

theorem reserveBlock_commit {id message : PyStr} {ck : Clock} {db d : Db} {o : ReplayOutcome}
    (h : (reserveBlock id message ck).body db = .commit o d) :
    (db.turnRequests.get? id = none ∧ d = db.reserve id ck.sqlNow ∧
      o = { status := .reserved, historyGeneration := some db.historyGeneration }) ∨
    (d = db ∧ o.status = .conflict) := by
  simp only [reserveBlock] at h
  split at h
  · rename_i hnone
    cases h
    exact .inl ⟨hnone, rfl, rfl⟩
  · split at h <;> cases h
    exact .inr ⟨rfl, rfl⟩

theorem releaseBlock_commit {id : PyStr} {g : Nat} {db d : Db} {u : Unit}
    (h : (releaseBlock id g).body db = .commit u d) : d = db.release id g := by
  simp only [releaseBlock, Outcome.attempt_eq_commit] at h
  obtain ⟨_, _, h⟩ := h
  cases h
  rfl

theorem commitBlock_commit {c : CommitInput} {hash : PyStr} {ck : Clock} {db d : Db}
    {r : CommittedTurn} (h : (commitBlock c hash ck).body db = .commit r d) :
    ∃ (row : TurnRequest) (x : CommitTexts) (outbox : Table OutboxEvent PyStr OutboxEvent.id),
      x.hash = hash ∧ x.now = ck.now.text ∧
      db.turnRequests.get? c.requestId = some row ∧ row.status = .pending ∧
      db.historyGeneration = c.historyGeneration ∧
      row.payloadHash = reservationMarker c.historyGeneration ∧
      c.expectedRevision.getD db.revision = db.revision ∧
      jsonDumps (.dict c.emotionalState) = .ok x.emotional ∧
      jsonDumps (.dict c.relationshipState) = .ok x.relationship ∧
      jsonDumps (.dict c.replayPayload) = .ok x.replay ∧
      c.outboxEvents.foldlM (insertOutboxEvent c.requestId x.now) db.outboxEvents = .ok outbox ∧
      r = db.committed c ∧ d = db.commit c row x outbox := by
  simp only [commitBlock] at h
  split at h
  · cases h
  · rename_i row hrow
    split at h
    · split at h <;> cases h
    · cases h
    · rename_i hpending
      split at h
      · cases h
      · rename_i hheld
        split at h
        · cases h
        · rename_i hrev
          simp only [Outcome.attempt_eq_commit] at h
          obtain ⟨emotional, hemo, relationship, hrel, _, _, replay, hrep, outbox, hout, h⟩ := h
          cases h
          obtain ⟨hg, hm⟩ := not_or.mp hheld
          exact ⟨row, ⟨hash, ck.now.text, emotional, relationship, replay⟩, outbox, rfl, rfl, hrow,
            hpending, not_not.mp hg, not_not.mp hm, not_not.mp hrev, hemo, hrel, hrep, hout, rfl,
            rfl⟩

theorem storeMemoryBlock_commit {content : PyStr} {metadata : PyVal} {ck : Clock} {db d : Db}
    {n : Nat} (h : (storeMemoryBlock content metadata ck).body db = .commit n d) :
    n = db.memories.seq + 1 ∧ ∃ text, d = db.addMemory content text ck.now.text := by
  simp only [storeMemoryBlock, Outcome.attempt_eq_commit] at h
  obtain ⟨text, _, _, _, _, _, _, _, h⟩ := h
  cases h
  exact ⟨rfl, text, rfl⟩

theorem deleteHistoryBlock_commit {ck : Clock} {db d : Db} {r : Report}
    (h : (deleteHistoryBlock ck).body db = .commit r d) :
    ∃ text, d = db.clearHistory.audit .deleteHistory text ck.sqlNow := by
  simp only [deleteHistoryBlock, Outcome.attempt_eq_commit] at h
  obtain ⟨_, _, text, _, h⟩ := h
  cases h
  exact ⟨text, rfl⟩

theorem deleteMemoriesBlock_commit {ck : Clock} {db d : Db} {r : Report}
    (h : (deleteMemoriesBlock ck).body db = .commit r d) :
    ∃ text, d = db.clearMemories.audit .deleteMemories text ck.sqlNow := by
  simp only [deleteMemoriesBlock, Outcome.attempt_eq_commit] at h
  obtain ⟨text, _, h⟩ := h
  cases h
  exact ⟨text, rfl⟩

theorem resetBlock_commit {field : StateField} {ck : Clock} {db d : Db} {r : Report}
    (h : (resetBlock field ck).body db = .commit r d) :
    ∃ text otherText result, field.neutralText ck.unix = .ok text ∧
      field.other.neutralText ck.unixLater = .ok otherText ∧
      d = db.reset field (resetProfile db.profile field text otherText (db.revision + 1)
        ck.now.text ck.nowLater.text) result ck.sqlNow := by
  simp only [resetBlock, Outcome.attempt_eq_commit] at h
  obtain ⟨text, htext, _, _, otherText, hother, result, _, h⟩ := h
  cases h
  exact ⟨text, otherText, result, htext, hother, rfl⟩

theorem trimBlock_commit {n m : Nat} {db d : Db} (h : (trimBlock n).body db = .commit m d) :
    m = min db.chatLogs.rows.length n ∧ d = db.trim n := by
  simp only [trimBlock, Outcome.attempt_eq_commit] at h
  obtain ⟨_, _, h⟩ := h
  cases h
  exact ⟨rfl, rfl⟩

/-- The loop imports what it does not skip. -/
theorem importLoop_commit {now : PyStr} : ∀ {ts : List LegacyTurn} {i k : Nat} {db d : Db}
    {r : ImportReport}, importLoop sha256 now ts i k db = .commit r d → Imports sha256 db d
  | [], i, k, db, d, r, h => by
      cases h
      exact .refl _
  | t :: ts, i, k, db, d, r, h => by
      simp only [importLoop, Outcome.attempt_eq_commit] at h
      obtain ⟨_, _, h⟩ := h
      split at h
      · obtain ⟨hash, _, h⟩ := Outcome.attempt_eq_commit.mp h
        split at h
        · cases h
        · exact importLoop_commit h
      · rename_i habsent
        simp only [Outcome.attempt_eq_commit] at h
        obtain ⟨_, _, _, _, _, _, hash, hhash, text, _, _, _, h⟩ := h
        exact .step habsent hhash (importLoop_commit h)

/-! ### Every call -/

omit sha256 in
/-- An operation raises on its arguments, or runs its block. -/
theorem perform_cases {α β : Type} {env : Env} {args : Except Err β} {block : β → Block Db Err α}
    {reply : α → Reply} {s s' : LocalStore} {r : Except Err Reply}
    (h : perform env args block reply s = (r, s')) :
    (∃ e, args = .error e ∧ r = .error e ∧ s' = s) ∨
      ∃ b r₀, args = .ok b ∧ (block b).run .sqlite env.thread env.fault s = (r₀, s') ∧
        r = r₀.map reply := by
  unfold perform at h
  split at h
  · cases h
    exact .inl ⟨_, rfl, rfl, rfl⟩
  · rename_i b
    obtain ⟨hr, hs⟩ := Prod.mk.inj h
    exact .inr ⟨b, _, rfl, Prod.ext rfl hs, hr.symm⟩

omit sha256 in
theorem perform_db {α β : Type} {env : Env} {args : Except Err β} {block : β → Block Db Err α}
    {reply : α → Reply} {s s' : LocalStore} {r : Except Err Reply}
    (h : perform env args block reply s = (r, s')) :
    s'.db = s.db ∨
      ∃ b a, args = .ok b ∧ (block b).body s.db = .commit a s'.db ∧ r = .ok (reply a) := by
  rcases perform_cases h with ⟨_, _, _, rfl⟩ | ⟨b, r₀, hargs, hrun, rfl⟩
  · exact .inl rfl
  · rcases Block.run_db hrun with hdb | ⟨a, hbody, rfl, _⟩
    · exact .inl hdb
    · exact .inr ⟨b, a, hargs, hbody, rfl⟩

theorem commitTurn_db {env : Env} {a : CommitArgs} {s s' : LocalStore}
    {r : Except Err CommittedTurn} (h : commitTurn sha256 env a s = (r, s')) :
    s'.db = s.db ∨ ∃ c hash res, commitInput sha256 a = .ok (c, hash) ∧
      (commitBlock c hash env.clock).body s.db = .commit res s'.db ∧ r = .ok res := by
  unfold commitTurn at h
  split at h
  · cases h
    exact .inl rfl
  · rename_i c hash hinput
    have hblock : (commitBlock c hash env.clock).run .sqlite env.thread env.fault s = (r, s') →
        s'.db = s.db ∨ ∃ c hash res, commitInput sha256 a = .ok (c, hash) ∧
          (commitBlock c hash env.clock).body s.db = .commit res s'.db ∧ r = .ok res := by
      intro hrun
      rcases Block.run_db hrun with hdb | ⟨res, hbody, rfl, _⟩
      · exact .inl hdb
      · exact .inr ⟨c, hash, res, hinput, hbody, rfl⟩
    split at h
    · cases h
      exact .inl rfl
    · simp only at h
      split at h
      · exact hblock h
      · split at h
        · exact hblock h
        · split at h <;> cases h <;> exact .inl rfl
        · cases h
          exact .inl rfl

/-- **The contents change only as `Change` says**, and then the call returned. -/
theorem exec_change {env : Env} {call : Call} {s s' : LocalStore} {r : Except Err Reply}
    (h : exec sha256 env call s = (r, s')) :
    s'.db = s.db ∨ ∃ reply, r = .ok reply ∧ Change sha256 s.db call reply s'.db := by
  cases call with
  | reserveRequest requestId userMessage =>
      rw [exec] at h
      rcases perform_db h with hdb | ⟨⟨id, m⟩, o, hargs, hbody, rfl⟩
      · exact .inl hdb
      · simp only [both, bind_eq_ok] at hargs
        obtain ⟨id', hid, m', _, hpair⟩ := hargs
        cases hpair
        rcases reserveBlock_commit hbody with ⟨habsent, hdb, rfl⟩ | ⟨hdb, _⟩
        · exact .inr ⟨_, rfl, hdb ▸ .reserve hid habsent⟩
        · exact .inl hdb
  | commitTurn a =>
      obtain ⟨r₀, hr₀⟩ : ∃ r₀, commitTurn sha256 env a s = (r₀, s') := by
        simp only [exec] at h
        cases h
        exact ⟨_, rfl⟩
      simp only [exec, hr₀] at h
      cases h
      rcases commitTurn_db sha256 hr₀ with hdb | ⟨c, hash, res, hinput, hbody, rfl⟩
      · exact .inl hdb
      · obtain ⟨row, x, outbox, rfl, hnow, hrow, hp, hg, hm, hrev, hemo, hrel, hrep, hout, rfl, hd⟩ :=
          commitBlock_commit hbody
        exact .inr ⟨_, rfl, hd ▸ .commit hinput hrow hp hg hm hrev hemo hrel hrep hout ⟨_, hnow⟩⟩
  | releaseRequest requestId historyGeneration =>
      rw [exec] at h
      rcases perform_db h with hdb | ⟨⟨id, g⟩, u, hargs, hbody, rfl⟩
      · exact .inl hdb
      · simp only [both, bind_eq_ok] at hargs
        obtain ⟨id', hid, g', hg, hpair⟩ := hargs
        cases hpair
        exact .inr ⟨_, rfl, releaseBlock_commit hbody ▸ .release hid hg⟩
  | storeMemory content metadata =>
      rw [exec] at h
      rcases perform_db h with hdb | ⟨⟨text, doc⟩, n, _, hbody, rfl⟩
      · exact .inl hdb
      · obtain ⟨rfl, doc', hd⟩ := storeMemoryBlock_commit hbody
        exact .inr ⟨_, rfl, hd ▸ .storeMemory⟩
  | deleteHistory =>
      rw [exec] at h
      rcases perform_db h with hdb | ⟨_, r, _, hbody, rfl⟩
      · exact .inl hdb
      · obtain ⟨text, hd⟩ := deleteHistoryBlock_commit hbody
        exact .inr ⟨_, rfl, hd ▸ .deleteHistory⟩
  | deleteMemories =>
      rw [exec] at h
      rcases perform_db h with hdb | ⟨_, r, _, hbody, rfl⟩
      · exact .inl hdb
      · obtain ⟨text, hd⟩ := deleteMemoriesBlock_commit hbody
        exact .inr ⟨_, rfl, hd ▸ .deleteMemories⟩
  | reset field neutral =>
      rw [exec] at h
      rcases perform_db h with hdb | ⟨_, r, _, hbody, rfl⟩
      · exact .inl hdb
      · obtain ⟨text, otherText, result, htext, hother, hd⟩ := resetBlock_commit hbody
        exact .inr ⟨_, rfl, hd ▸ .reset htext hother⟩
  | trimHistory keepLast =>
      rw [exec] at h
      rcases perform_db h with hdb | ⟨n, m, hargs, hbody, rfl⟩
      · exact .inl hdb
      · obtain ⟨rfl, hd⟩ := trimBlock_commit hbody
        exact .inr ⟨_, rfl, hd ▸ .trim (orRaise_eq_ok.mp hargs)⟩
  | importLegacyFixture fixture =>
      rw [exec] at h
      rcases perform_db h with hdb | ⟨turns, r, _, hbody, rfl⟩
      · exact .inl hdb
      · exact .inr ⟨_, rfl, .importFixture (importLoop_commit sha256 hbody)⟩
  | reopen =>
      simp only [exec] at h
      split at h <;> cases h
      · exact .inr ⟨_, rfl, .recover⟩
      · exact .inl rfl

/-! ### Calls that return -/

omit sha256 in
/-- A call that returned ran its block on an idle store. -/
theorem perform_ok {α β : Type} {env : Env} {args : Except Err β} {block : β → Block Db Err α}
    {reply : α → Reply} {s s' : LocalStore} {x : Reply}
    (h : perform env args block reply s = (.ok x, s')) :
    ∃ b a, args = .ok b ∧ x = reply a ∧ s.tx = none ∧ s'.tx = none ∧
      ((block b).body s.db = .commit a s'.db ∨
        ((block b).body s.db = .rollback (.ok a) ∧ s'.db = s.db)) := by
  rcases perform_cases h with ⟨_, _, hr, _⟩ | ⟨b, r₀, hargs, hrun, hr⟩
  · cases hr
  · cases r₀ with
    | error e => cases hr
    | ok a =>
        cases hr
        obtain ⟨h1, h2, h3⟩ := Block.run_ok hrun
        exact ⟨b, a, hargs, rfl, h1, h2, h3⟩

omit sha256 in
/-- A block that rolls itself back on an idle store leaves the store as it was. -/
theorem perform_rollback {α β : Type} {env : Env} {args : Except Err β} {b : β}
    {block : β → Block Db Err α} {reply : α → Reply} {s : LocalStore} {r : Except Err α}
    (hargs : args = .ok b) (hidle : s.tx = none) (hfault : env.fault = .none)
    (hbody : (block b).body s.db = .rollback r) :
    perform env args block reply s = (r.map reply, s) := by
  have hs : (⟨s.db, none⟩ : LocalStore) = s := by
    rw [← hidle]
  simp only [perform, hargs, Block.run, hidle, hfault, hbody, hs]

theorem committedFromRow_requestId {row : TurnRequest} {c : CommittedTurn}
    (h : committedFromRow row = .ok c) : c.requestId = row.requestId := by
  simp only [committedFromRow, bind_eq_ok] at h
  obtain ⟨payload, _, h⟩ := h
  cases h
  rfl

/-- **A commit that returned** either replayed the completed row its connection sees, or wrote
the turn. -/
theorem commitTurn_ok {env : Env} {a : CommitArgs} {s s' : LocalStore} {res : CommittedTurn}
    (h : commitTurn sha256 env a s = (.ok res, s')) :
    ∃ c hash, commitInput sha256 a = .ok (c, hash) ∧ res.requestId = c.requestId ∧
      ((∃ row, (s.view env.thread).turnRequests.get? c.requestId = some row ∧
          row.status = .completed ∧ row.payloadHash = hash ∧ committedFromRow row = .ok res ∧
          s' = s) ∨
        (s.tx = none ∧ s'.tx = none ∧
          (commitBlock c hash env.clock).body s.db = .commit res s'.db)) := by
  unfold commitTurn at h
  split at h
  · cases h
  · rename_i c hash hinput
    refine ⟨c, hash, hinput, ?_⟩
    have hblock : (∀ row, (s.view env.thread).turnRequests.get? c.requestId = some row →
          row.status ≠ .completed) →
        (commitBlock c hash env.clock).run .sqlite env.thread env.fault s = (.ok res, s') →
        res.requestId = c.requestId ∧ s.tx = none ∧ s'.tx = none ∧
          (commitBlock c hash env.clock).body s.db = .commit res s'.db := by
      intro hview hrun
      obtain ⟨htx, htx', hbody | ⟨hbody, _⟩⟩ := Block.run_ok hrun
      · obtain ⟨_, _, _, _, _, _, _, _, _, _, _, _, _, _, hres, _⟩ := commitBlock_commit hbody
        exact ⟨by rw [hres]; rfl, htx, htx', hbody⟩
      · -- a rollback that returns is the replay of a completed row, which the read would have seen
        exfalso
        simp only [commitBlock] at hbody
        split at hbody
        · cases hbody
        · rename_i row hrow
          have hview' : s.view env.thread = s.db := by simp [Store.view, htx]
          rw [hview'] at hview
          split at hbody
          · rename_i hcompleted
            exact hview row hrow hcompleted
          · cases hbody
          · split at hbody
            · cases hbody
            · split at hbody
              · cases hbody
              · simp only [Outcome.attempt_eq_rollback] at hbody
                obtain ⟨_, _, _, _, _, _, _, _, _, _, hbody⟩ := hbody
                cases hbody
    split at h
    · cases h
    · simp only at h
      split at h
      · rename_i hnone
        obtain ⟨h1, h2⟩ := hblock (by simp [hnone]) h
        exact ⟨h1, .inr h2⟩
      · rename_i row hrow
        split at h
        · rename_i hpending
          obtain ⟨h1, h2⟩ := hblock (by simp [hrow, hpending]) h
          exact ⟨h1, .inr h2⟩
        · rename_i hcompleted
          split at h
          · cases h
          · rename_i hhash
            simp only [Prod.mk.injEq] at h
            obtain ⟨hres, rfl⟩ := h
            refine ⟨?_, .inl ⟨row, hrow, hcompleted, not_not.mp hhash, hres, rfl⟩⟩
            rw [committedFromRow_requestId hres]
            exact Table.get?_key hrow
        · cases h

/-! ## Runs -/

/-- One executed call, with the store before and after it. -/
structure Event where
  env : Env
  call : Call
  before : LocalStore
  result : Except Err Reply
  after : LocalStore
  executed : exec sha256 env call before = (result, after)

/-- A finite sequence of calls, each starting where the one before it stopped. -/
inductive Run (s : LocalStore) : List (Event sha256) → LocalStore → Prop
  | nil : Run s [] s
  | snoc {es : List (Event sha256)} (e : Event sha256) (h : Run s es e.before) :
      Run s (es ++ [e]) e.after

/-- The contents some run from the empty database leads to. -/
def Reachable (s : LocalStore) : Prop := ∃ es, Run sha256 .init es s

variable {sha256}

theorem Event.change (e : Event sha256) : e.after.db = e.before.db ∨
    ∃ reply, e.result = .ok reply ∧ Change sha256 e.before.db e.call reply e.after.db :=
  exec_change sha256 e.executed

/-- A property of the contents that every change keeps holds all along a run. -/
theorem Run.induct {P : Db → Prop} {s s' : LocalStore} {es : List (Event sha256)}
    (hrun : Run sha256 s es s') (h0 : P s.db)
    (hstep : ∀ {db call reply db'}, Change sha256 db call reply db' → P db → P db') : P s'.db := by
  induction hrun with
  | nil => exact h0
  | snoc e h ih =>
      rcases e.change with hdb | ⟨reply, _, hc⟩
      · rw [hdb]
        exact ih
      · exact hstep hc ih

/-- The same for a property that every call of a kind keeps, along a run of such calls. -/
theorem Run.inductOn {P : Db → Prop} {Q : Call → Prop} {s s' : LocalStore}
    {es : List (Event sha256)} (hrun : Run sha256 s es s') (hes : ∀ e ∈ es, Q e.call) (h0 : P s.db)
    (hstep : ∀ {db call reply db'}, Change sha256 db call reply db' → Q call → P db → P db') :
    P s'.db := by
  induction hrun with
  | nil => exact h0
  | snoc e h ih =>
      have ih := ih fun x hx => hes x (List.mem_append_left _ hx)
      rcases e.change with hdb | ⟨reply, _, hc⟩
      · rw [hdb]
        exact ih
      · exact hstep hc (hes e (by simp)) ih

theorem Run.append {s s' s'' : LocalStore} {es es' : List (Event sha256)}
    (h : Run sha256 s es s') (h' : Run sha256 s' es' s'') : Run sha256 s (es ++ es') s'' := by
  induction h' with
  | nil => simpa using h
  | snoc e _ ih =>
      rw [← List.append_assoc]
      exact .snoc e ih

theorem Run.cons (e : Event sha256) {es : List (Event sha256)} {s' : LocalStore}
    (h : Run sha256 e.after es s') : Run sha256 e.before (e :: es) s' :=
  (Run.snoc e .nil).append h

/-- Execute one call. -/
def event (sha256 : PyStr → PyStr) (env : Env) (call : Call) (s : LocalStore) : Event sha256 :=
  ⟨env, call, s, (exec sha256 env call s).1, (exec sha256 env call s).2, rfl⟩

/-- Execute some calls in order; the events. -/
def trace (sha256 : PyStr → PyStr) : List (Env × Call) → LocalStore → List (Event sha256)
  | [], _ => []
  | (env, call) :: cs, s =>
      event sha256 env call s :: trace sha256 cs (exec sha256 env call s).2

/-- The store after them. -/
def execAll (sha256 : PyStr → PyStr) : List (Env × Call) → LocalStore → LocalStore
  | [], s => s
  | (env, call) :: cs, s => execAll sha256 cs (exec sha256 env call s).2

theorem run_trace : ∀ (cs : List (Env × Call)) (s : LocalStore),
    Run sha256 s (trace sha256 cs s) (execAll sha256 cs s)
  | [], _ => .nil
  | (env, call) :: cs, s =>
      Run.cons (event sha256 env call s) (run_trace cs _)

omit sha256 in
theorem exists_of_isOk {ε α : Type} {r : Except ε α} (h : r.isOk = true) : ∃ a, r = .ok a := by
  cases r with
  | error e => cases h
  | ok a => exact ⟨a, rfl⟩

end

/-! ## A first turn

One turn with fixed arguments, to try general statements on. -/

def sampleInstant : Instant where
  year := 2026
  month := 8
  day := 9
  hour := 12
  minute := 30
  second := 15
  micro := 123456
  year_ok := by decide
  month_ok := by decide
  day_ok := by decide
  hour_ok := by decide
  minute_ok := by decide
  second_ok := by decide
  micro_ok := by decide

def sampleTime : PosFloat := ⟨⟨py "1.0", isFloatRepr_one⟩, by decide⟩

def sampleEnv : Env where
  thread := 0
  clock := ⟨sampleInstant, sampleInstant, sampleTime, sampleTime, py "2026-08-09T12:30:15.123Z"⟩

def sampleArgs : CommitArgs where
  requestId := .str (py "r1")
  historyGeneration := .int 0
  userMessage := .str (py "oi")
  assistantMessage := .str (py "ok")
  emotionalState := .dict (EmotionalStateV1.neutral sampleTime).toDict
  relationshipState := .dict (RelationshipStateV1.neutral sampleTime).toDict
  publicResponse := .str (py "ok")
  replayPayload := .dict [(.str (py "response"), .str (py "ok")),
    (.str (py "emotion_state"), .dict []), (.str (py "message_id"), .str (py "m1")),
    (.str (py "duration_ms"), .int 5)]
  expectedRevision := .int 0

/-- The canonical text of that turn. -/
def sampleText : PyStr :=
  py "\x7b\"assistant_message\":\"ok\",\"emotional_state\":\x7b\"aggression\":0.0,"
    ++ py "\"arousal\":0.0,\"connection\":0.5,\"coping_mode\":\"HEALTHY\",\"dominance\""
    ++ py ":0.0,\"energy\":0.8,\"libido\":0.0,\"pleasure\":0.0,\"schema_version\":1,\"t"
    ++ py "ension\":0.0,\"timestamp\":1.0\x7d,\"expected_revision\":0,\"outbox_events\""
    ++ py ":[],\"public_response\":\"ok\",\"relationship_state\":\x7b\"affection\":0.3,"
    ++ py "\"schema_version\":1,\"tension\":0.0,\"timestamp\":1.0,\"triggers\":[],\"tru"
    ++ py "st\":0.5\x7d,\"replay_payload\":\x7b\"duration_ms\":5,\"emotion_state\":\x7b"
    ++ py "\x7d,\"message_id\":\"m1\",\"response\":\"ok\"\x7d,\"request_id\":\"r1\",\"u"
    ++ py "ser_message\":\"oi\"\x7d"

/-- SHA-256 as far as that text goes: its digest there, and other texts kept apart. -/
def sampleSha256 (s : PyStr) : PyStr :=
  if s = sampleText then
    py "3a66c68e23266018a1e8459ebf3e71b6fd6e84d65cc97e0b7d6a6810580a57cb"
  else cp 'x' :: s

theorem sampleSha256_injective : Function.Injective sampleSha256 := by
  have hx : ∀ s, py "3a66c68e23266018a1e8459ebf3e71b6fd6e84d65cc97e0b7d6a6810580a57cb"
      ≠ cp 'x' :: s := by
    intro s h
    have h2 : cp '3' = cp 'x' := (List.cons.inj h).1
    exact absurd h2 (by decide)
  intro a b h
  unfold sampleSha256 at h
  split at h <;> split at h
  · rename_i ha hb
    rw [ha, hb]
  · exact absurd h (hx b)
  · exact absurd h.symm (hx a)
  · exact List.cons.inj h |>.2

def sampleReserve : Env × Call :=
  (sampleEnv, .reserveRequest (.str (py "r1")) (.str (py "oi")))

def sampleCommit : Env × Call := (sampleEnv, .commitTurn sampleArgs)

end Katherine.Local
