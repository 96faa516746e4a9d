import Katherine.Lib.JsonRoundTrip
import Katherine.Local.Atomic
import Katherine.Local.Fence

/-!
# Completed turns

A completed row of the ledger is never rewritten: every call keeps it, with the
message it answers, or removes it (`Completed.change`), and only `delete_history`
and a `trim_history` that drops one of its messages remove it. As long as it is
there, every path that looks at it gives the same answer, decoded from the same
text: `replay`, `check_request`, `reserve_request`, and a second `commit_turn`.

The result of the first commit is built from its arguments, all later ones from the
stored text. `committedFromRow_canon` is where the two meet.
-/

namespace Katherine.Local

open Py Sql

variable {sha256 : PyStr → PyStr}

/-! ## Rows that stay -/

/-- `row` is completed, and `message` is the user message it was committed with. -/
structure Completed (db : Db) (row : TurnRequest) (message : PyStr) : Prop where
  ledger : db.turnRequests.get? row.requestId = some row
  status : row.status = .completed
  stored : ∃ i c, row.userMessageId = some i ∧ db.chatLogs.get? i = some c ∧ c.content = message

/-- Where ledger and messages only grow, a completed row stays. -/
theorem Completed.mono {db db' : Db} {row : TurnRequest} {message : PyStr}
    (h : Completed db row message)
    (hturns : ∀ k r, db.turnRequests.get? k = some r → r.status = .completed →
      db'.turnRequests.get? k = some r)
    (hchats : ∀ i c, db.chatLogs.get? i = some c → db'.chatLogs.get? i = some c) :
    Completed db' row message := by
  obtain ⟨i, c, hi, hc, hm⟩ := h.stored
  exact ⟨hturns _ _ h.ledger h.status, h.status, i, c, hi, hchats i c hc, hm⟩

/-- Deleting messages keeps the row, with its message, or removes it because one of its two
messages went. -/
theorem Completed.deleteChats {db : Db} {row : TurnRequest} {message : PyStr}
    (h : Completed db row message) (p : Nat × ChatLog → Bool) :
    Completed (db.deleteChats p) row message ∨
      (db.deleteChats p).turnRequests.get? row.requestId = none ∧
        ∃ i c, Refers row i ∧ db.chatLogs.get? i = some c ∧ p (i, c) = true := by
  cases hp : db.refersTo p row with
  | true =>
      refine .inr ⟨by simp [h.ledger, hp, Option.filter], ?_⟩
      simp only [Db.refersTo, Bool.or_eq_true, Option.any_eq_true] at hp
      rcases hp with ⟨i, hi, c, hc, hpc⟩ | ⟨i, hi, c, hc, hpc⟩
      · exact ⟨i, c, .inl hi, hc, hpc⟩
      · exact ⟨i, c, .inr hi, hc, hpc⟩
  | false =>
      refine .inl ⟨by simp [h.ledger, hp, Option.filter], h.status, ?_⟩
      obtain ⟨i, c, hi, hc, hm⟩ := h.stored
      refine ⟨i, c, hi, ?_, hm⟩
      simp only [Db.refersTo, hi, hc, Option.any_some, Bool.or_eq_false_iff] at hp
      exact AutoTable.get?_deleteWhere_eq_some.mpr ⟨hc, hp.1⟩

/-- **Every change keeps a completed row, or removes it.** Only `delete_history` and a
`trim_history` that drops one of its messages remove it. -/
theorem Completed.change {db db' : Db} {call : Call} {reply : Reply} {row : TurnRequest}
    {message : PyStr} (hc : Change sha256 db call reply db') (h : Completed db row message) :
    Completed db' row message ∨
      db'.turnRequests.get? row.requestId = none ∧
        (call = .deleteHistory ∨
          (∃ keepLast, call = .trimHistory keepLast) ∧
            ∃ i c, Refers row i ∧ db.chatLogs.get? i = some c ∧ db'.chatLogs.get? i = none) := by
  cases hc with
  | reserve _ _ =>
      exact .inl (h.mono (fun k r hr _ => Table.get?_insertNew_of_some hr) fun _ _ hc => hc)
  | @commit a c row₀ x outbox _ hrow hpending _ _ _ _ _ _ _ =>
      refine .inl (h.mono ?_ fun i m hm => ?_)
      · intro k r hr hs
        -- the row that is replaced was pending
        have hne : k ≠ row₀.requestId := by
          rintro rfl
          rw [show row₀.requestId = c.requestId from Table.get?_key hrow, hrow] at hr
          cases hr
          rw [hpending] at hs
          cases hs
        simp only [Db.commit, Table.get?_put]
        exact (if_neg hne).trans hr
      · exact AutoTable.get?_insert_of_some (AutoTable.get?_insert_of_some hm)
  | release _ _ =>
      refine .inl (h.mono ?_ fun _ _ hc => hc)
      intro k r hr hs
      simp [Db.release, hr, hs, Option.filter]
  | deleteHistory =>
      refine .inr ⟨?_, .inl rfl⟩
      show db.clearHistory.turnRequests.get? row.requestId = none
      rw [Table.get?_eq_none, (clearHistory_empty db).2]
      simp
  | trim hn =>
      rcases h.deleteChats (db.beyond _) with h | ⟨hnone, i, c, hi, hc, hp⟩
      · exact .inl h
      · refine .inr ⟨hnone, .inr ⟨⟨_, rfl⟩, i, c, hi, hc, ?_⟩⟩
        cases hget : (db.trim _).chatLogs.get? i with
        | none => rfl
        | some c' =>
            obtain ⟨hc', hkeep⟩ := AutoTable.get?_deleteWhere_eq_some.mp hget
            rw [hc] at hc'
            cases hc'
            rw [hp] at hkeep
            cases hkeep
  | importFixture himports =>
      exact .inl (h.mono (fun k r hr _ => himports.keeps.1 k r hr) himports.keeps.2.1)
  | recover =>
      refine .inl (h.mono ?_ fun _ _ hc => hc)
      intro k r hr hs
      simp [Db.recover, hr, failInterrupted, hs]
  | _ => exact .inl (h.mono (fun _ _ hr _ => hr) fun _ _ hc => hc)

/-- The same of one call, whether or not it changed anything. -/
theorem Event.completed (e : Event sha256) {row : TurnRequest} {message : PyStr}
    (h : Completed e.before.db row message) :
    Completed e.after.db row message ∨
      e.after.db.turnRequests.get? row.requestId = none ∧
        ((e.call = .deleteHistory ∧ ∃ reply, e.result = .ok reply) ∨
          (∃ keepLast, e.call = .trimHistory keepLast) ∧
            ∃ i c, Refers row i ∧ e.before.db.chatLogs.get? i = some c ∧
              e.after.db.chatLogs.get? i = none) := by
  rcases e.change with hdb | ⟨reply, hres, hc⟩
  · rw [hdb]
    exact .inl h
  · rcases h.change hc with h | ⟨hnone, hcall | htrim⟩
    · exact .inl h
    · exact .inr ⟨hnone, .inl ⟨hcall, reply, hres⟩⟩
    · exact .inr ⟨hnone, .inr htrim⟩

/-- A completed row that is never missing is the same row at the end. -/
theorem Run.completed {s s' : LocalStore} {es : List (Event sha256)} (hrun : Run sha256 s es s')
    {row : TurnRequest} {message : PyStr} (h : Completed s.db row message)
    (hkept : ∀ e ∈ es, ∃ r, e.after.db.turnRequests.get? row.requestId = some r) :
    Completed s'.db row message := by
  induction hrun with
  | nil => exact h
  | snoc e _ ih =>
      have hbefore := ih fun e' he' => hkept e' (by simp [he'])
      rcases e.completed hbefore with hafter | ⟨hnone, _⟩
      · exact hafter
      · obtain ⟨r, hr⟩ := hkept e (by simp)
        rw [hnone] at hr
        cases hr

/-! ## The row of a commit -/

/-- The call removed what the turn left: it deleted the history, or trimmed one of the turn's two
messages away. -/
def Event.Erases (e : Event sha256) (res : CommittedTurn) : Prop :=
  (e.call = .deleteHistory ∧ ∃ reply, e.result = .ok reply) ∨
    (∃ keepLast, e.call = .trimHistory keepLast) ∧
      ∃ i c, (i = res.userMessageId ∨ i = res.assistantMessageId) ∧
        e.before.db.chatLogs.get? i = some c ∧ e.after.db.chatLogs.get? i = none

/-- What a first commit leaves in the ledger. -/
structure CommittedRow (c : CommitInput) (hash : PyStr) (res : CommittedTurn) (row : TurnRequest) :
    Prop where
  requestId : row.requestId = c.requestId
  result : res = committedOf c.requestId (row.committedRevision.getD 0)
    (row.userMessageId.getD 0) (row.assistantMessageId.getD 0) c.replayPayload
  user : row.userMessageId = some res.userMessageId
  assistant : row.assistantMessageId = some res.assistantMessageId
  hash : row.payloadHash = hash
  replay : ∃ text, row.replayPayload = some text ∧ dumpsCompact true (.dict c.replayPayload)
    = some text

theorem CommittedRow.resultId {c : CommitInput} {hash : PyStr} {res : CommittedTurn}
    {row : TurnRequest} (h : CommittedRow c hash res row) : row.requestId = res.requestId := by
  rw [h.requestId, h.result]
  rfl

/-- **After a first commit its row is completed.** -/
theorem Event.firstCommit_row {e : Event sha256} {res : CommittedTurn}
    (h : e.firstCommit = some res) : ∃ a c hash row, e.call = .commitTurn a ∧
      commitInput sha256 a = .ok (c, hash) ∧ CommittedRow c hash res row ∧
      Completed e.after.db row c.userMessage := by
  obtain ⟨_, _, a, c, hash, hcall, hinput, hbody⟩ := e.firstCommit_change h
  obtain ⟨row, x, outbox, hhash, _, hrow, _, _, _, _, _, _, hreplay, _, rfl, hdb⟩ :=
    commitBlock_commit hbody
  have hkey : row.requestId = c.requestId := Table.get?_key hrow
  refine ⟨a, c, hash, completedRow row x.hash e.before.db.revision (e.before.db.revision + 1)
    (e.before.db.chatLogs.seq + 1) (e.before.db.chatLogs.seq + 2) x.replay x.now, hcall, hinput,
    ⟨hkey, rfl, rfl, rfl, hhash, x.replay, rfl, ?_⟩, ?_, rfl, ?_⟩
  · simpa [jsonDumps] using hreplay
  · rw [hdb]
    simp only [Db.commit, Table.get?_put, if_true]
  · refine ⟨e.before.db.chatLogs.seq + 1, ⟨.user, c.userMessage, x.now⟩, rfl, ?_, rfl⟩
    rw [hdb]
    exact AutoTable.get?_insert_of_some (AutoTable.get?_insert_self _ _)

/-- Without an erasing call the row of a first commit stays. -/
theorem Run.committedRow {s s' : LocalStore} {es : List (Event sha256)} (hrun : Run sha256 s es s')
    {c : CommitInput} {hash message : PyStr} {res : CommittedTurn} {row : TurnRequest}
    (hc : CommittedRow c hash res row) (h : Completed s.db row message)
    (hkept : ∀ e ∈ es, ¬ e.Erases res) : Completed s'.db row message := by
  induction hrun with
  | nil => exact h
  | snoc e _ ih =>
      have hbefore := ih fun e' he' => hkept e' (by simp [he'])
      have hnot := hkept e (by simp)
      rcases e.completed hbefore with hafter | ⟨_, hdelete | ⟨htrim, i, m, hi, hm, hgone⟩⟩
      · exact hafter
      · exact absurd (.inl hdelete) hnot
      · refine absurd (.inr ⟨htrim, i, m, ?_, hm, hgone⟩) hnot
        rcases hi with hi | hi
        · rw [hc.user] at hi
          exact .inl (Option.some.inj hi).symm
        · rw [hc.assistant] at hi
          exact .inr (Option.some.inj hi).symm

/-! ## Answers -/

/-- The same result with every dictionary of it in key order. Two results with the same `canon`
are the same Python value. -/
def CommittedTurn.canon (c : CommittedTurn) : CommittedTurn :=
  { c with response := c.response.canon, emotionState := c.emotionState.canon }

/-- A stored payload can always be decoded. -/
theorem CommittedRow.decodes {c : CommitInput} {hash : PyStr} {res : CommittedTurn}
    {row : TurnRequest} (h : CommittedRow c hash res row) : ∃ r, committedFromRow row = .ok r := by
  obtain ⟨text, htext, hdumps⟩ := h.replay
  have hload := loads_dumpsCompact hdumps
  have hitems : ∃ kvs, decodeObject text = .ok kvs := by
    unfold decodeObject
    split
    · exact ⟨[], rfl⟩
    · rw [hload]
      exact ⟨_, rfl⟩
  obtain ⟨kvs, hkvs⟩ := hitems
  simp [committedFromRow, htext, hkvs]

theorem isMessageId_canon {v : Option PyVal} (h : isMessageId v = true) :
    v.map PyVal.canon = v := by
  cases v with
  | none => rfl
  | some v => cases v <;> first | rfl | cases h

/-- **The stored result is the returned one.** For a payload that is a JSON object, decoding the
row of a first commit gives back what that commit returned. -/
theorem committedFromRow_canon {a : CommitArgs} {c : CommitInput} {hash : PyStr}
    {res : CommittedTurn} {row : TurnRequest} (ha : Accepted a c) (h : CommittedRow c hash res row)
    (hjson : isJsonItems c.replayPayload = true) : committedFromRow row = .ok res.canon := by
  obtain ⟨text, htext, hdumps⟩ := h.replay
  have hload := loads_dumpsCompact_json (v := .dict c.replayPayload) hjson hdumps
  have hne : text ≠ [] := by
    rintro rfl
    cases hload
  have hmessage : isMessageId (dictGet c.replayPayload (py "message_id")) = true := by
    have hv := ha.replayPayload
    simp only [validateReplayPayload, bind_eq_ok, require_eq_ok] at hv
    obtain ⟨_, _, _, _, _, _, _, _, _, hm, _, _, _, _, hv⟩ := hv
    cases hv
    exact hm
  rw [committedFromRow, htext, Option.getD_some, decodeObject, if_neg hne, hload, h.result,
    h.requestId]
  show Except.ok (committedOf c.requestId _ _ _ (sortItems (canonItems c.replayPayload))) = _
  unfold committedOf CommittedTurn.canon
  simp only [dictGet_canon hjson, isMessageId_canon hmessage]
  cases dictGet c.replayPayload (py "response") <;>
    cases dictGet c.replayPayload (py "emotion_state") <;> rfl

/-- How a completed row answers. -/
theorem Completed.answer {db : Db} {row : TurnRequest} {message message' : PyStr}
    {res : CommittedTurn} (h : Completed db row message) (hres : committedFromRow row = .ok res) :
    answerCompleted db row message' = .ok (if message' = message
      then { status := .replay, committed := some res } else { status := .conflict }) := by
  obtain ⟨i, c, hi, hc, rfl⟩ := h.stored
  have hstored : storedMessageIs db row message' = decide (c.content = message') := by
    simp [storedMessageIs, hi, hc]
  by_cases hm : c.content = message'
  · simp [answerCompleted, hstored, hm, hres, pure, Except.pure]
  · have hm' : message' ≠ c.content := fun heq => hm heq.symm
    simp [answerCompleted, hstored, hm, hm', pure, Except.pure]

/-- `reserve_request` on a completed row: the answer is rolled back, so the store is as before. -/
theorem reserve_completed {env : Env} {id message' : PyStr} {requestId userMessage : PyVal}
    {s : LocalStore} {row : TurnRequest} {message : PyStr} {res : CommittedTurn}
    (hid : validateRequestId requestId = .ok id)
    (hm : validateMessage userMessage "user_message" = .ok message')
    (h : Completed s.db row message) (hrow : row.requestId = id)
    (hres : committedFromRow row = .ok res) (hidle : s.tx = none) (hfault : env.fault = .none) :
    exec sha256 env (.reserveRequest requestId userMessage) s =
      (.ok (.outcome (if message' = message then { status := .replay, committed := some res }
        else { status := .conflict })), s) := by
  have hledger := h.ledger
  rw [hrow] at hledger
  have hbody : (reserveBlock id message' env.clock).body s.db =
      .rollback (answerCompleted s.db row message') := by
    simp [reserveBlock, hledger, h.status]
  have hargs : both (validateRequestId requestId) (validateMessage userMessage "user_message") =
      .ok (id, message') := by
    rw [hid, hm]
    rfl
  rw [exec, perform_rollback hargs hidle hfault hbody, h.answer hres]
  rfl

/-- A reservation that returned, on a completed row, did not reserve. -/
theorem reserve_completed_status {env : Env} {requestId userMessage : PyVal} {s s' : LocalStore}
    {row : TurnRequest} {message : PyStr} {o : ReplayOutcome}
    (h : Completed s.db row message) (hid : validateRequestId requestId = .ok row.requestId)
    (hx : exec sha256 env (.reserveRequest requestId userMessage) s = (.ok (.outcome o), s')) :
    (o.status = .replay ∨ o.status = .conflict) ∧ s' = s := by
  rw [exec] at hx
  obtain ⟨⟨id, message'⟩, o', hargs, ho, htx, htx', hbody⟩ := perform_ok hx
  cases ho
  simp only [both, hid, ok_bind, bind_eq_ok] at hargs
  obtain ⟨m, _, hpair⟩ := hargs
  cases hpair
  have hrollback : (reserveBlock row.requestId message' env.clock).body s.db =
      .rollback (answerCompleted s.db row message') := by
    simp [reserveBlock, h.ledger, h.status]
  rcases hbody with hbody | ⟨hbody, hdb⟩
  · rw [hrollback] at hbody
    cases hbody
  · rw [hrollback] at hbody
    injection hbody with hbody
    have hs : s' = s := by
      rw [show s' = ⟨s'.db, s'.tx⟩ from rfl, hdb, htx', ← htx]
    refine ⟨?_, hs⟩
    unfold answerCompleted at hbody
    split at hbody
    · simp only [bind_eq_ok] at hbody
      obtain ⟨_, _, hbody⟩ := hbody
      cases hbody
      exact .inl rfl
    · cases hbody
      exact .inr rfl

/-- **A completed request is not executed twice** until its messages are removed. Take a first
commit in any run, and any later calls none of which deleted the history or trimmed one of the
turn's two messages away. Then a reservation of that id, with any message, never returns
`reserved`: it answers `replay` or `conflict`. And it does answer, on an idle store whose driver
does not fail, for every message that `reserve_request` accepts. -/
theorem completed_not_reserved_again {es' : List (Event sha256)} {e : Event sha256}
    {res : CommittedTurn} {s : LocalStore} (hfirst : e.firstCommit = some res) (hlater : Run sha256 e.after es' s)
    (hkept : ∀ e' ∈ es', ¬ e'.Erases res) :
    (∀ env requestId userMessage o s', validateRequestId requestId = .ok res.requestId →
      exec sha256 env (.reserveRequest requestId userMessage) s = (.ok (.outcome o), s') →
      o.status = .replay ∨ o.status = .conflict) ∧
    (∀ env userMessage message, s.tx = none → env.fault = .none →
      validateMessage userMessage "user_message" = .ok message →
      ∃ o, exec sha256 env (.reserveRequest (.str res.requestId) userMessage) s
          = (.ok (.outcome o), s) ∧ (o.status = .replay ∨ o.status = .conflict)) := by
  obtain ⟨a, c, hash, row, _, hinput, hrow, hcompleted⟩ := e.firstCommit_row hfirst
  have hend := hlater.committedRow hrow hcompleted hkept
  have hkey := hrow.resultId
  have hid : validateRequestId (.str res.requestId) = .ok res.requestId := by
    have hv := ((commitInput_eq_ok sha256).mp hinput).1.requestId
    rw [validateRequestId_str hv, ← hrow.requestId, hkey] at hv
    exact hv
  refine ⟨?_, ?_⟩
  · intro env requestId userMessage o s' hv hx
    rw [← hkey] at hv
    exact (reserve_completed_status hend hv hx).1
  · intro env userMessage message hidle hfault hm
    obtain ⟨res', hres'⟩ := hrow.decodes
    refine ⟨_, reserve_completed hid hm hend hkey hres' hidle hfault, ?_⟩
    split
    · exact .inl rfl
    · exact .inr rfl

/-- The commit of the first turn. -/
def firstTurn : Event sampleSha256 :=
  event sampleSha256 sampleEnv (.commitTurn sampleArgs) (execAll sampleSha256 [sampleReserve] .init)

theorem firstTurn_firstCommit :
    ∃ res, firstTurn.firstCommit = some res ∧ res.requestId = py "r1" ∧ firstTurn.after.tx = none := by
  have hid : firstTurn.firstCommit.map (·.requestId) = some (py "r1") := by decide +kernel
  obtain ⟨res, hres, hid⟩ := Option.map_eq_some_iff.mp hid
  obtain ⟨hresult, htx, _⟩ := firstTurn.firstCommit_change hres
  exact ⟨res, hres, hid, firstTurn.ok_idle htx hresult⟩

/-- A second reservation right after the first turn is a replay. -/
theorem completed_not_reserved_again_first_turn : ∃ o,
    exec sampleSha256 sampleEnv sampleReserve.2 firstTurn.after = (.ok (.outcome o), firstTurn.after)
      ∧ (o.status = .replay ∨ o.status = .conflict) := by
  obtain ⟨res, hres, hid, hidle⟩ := firstTurn_firstCommit
  have hagain := (completed_not_reserved_again hres .nil (by simp)).2 sampleEnv (.str (py "oi")) (py "oi") hidle rfl rfl
  rw [hid] at hagain
  exact hagain

/-- The status a reservation answered with. -/
def outcomeStatus : Except Err Reply → Option ReplayStatus
  | .ok (.outcome o) => some o.status
  | _ => none

theorem outcomeStatus_eq_some {r : Except Err Reply} {status : ReplayStatus}
    (h : outcomeStatus r = some status) : ∃ o, r = .ok (.outcome o) ∧ o.status = status := by
  unfold outcomeStatus at h
  split at h
  · exact ⟨_, rfl, Option.some.inj h⟩
  · cases h

/-- **Retention re-opens a completed request.** Ledger rows go with their messages, so after the
first turn and `trim_history(0)`, with no `delete_history` anywhere, the same id is reserved
again. -/
theorem trim_reopens_request :
    ¬ (∀ (es es' : List (Event sampleSha256)) (e : Event sampleSha256) (res : CommittedTurn)
        (s s' : LocalStore) (env : Env) (message : PyVal) (o : ReplayOutcome),
      Run sampleSha256 .init es e.before → e.firstCommit = some res →
      Run sampleSha256 e.after es' s → (∀ e' ∈ es', e'.call ≠ .deleteHistory) →
      exec sampleSha256 env (.reserveRequest (.str res.requestId) message) s
        = (.ok (.outcome o), s') → o.status ≠ .reserved) := by
  intro h
  obtain ⟨res, hres, hid, _⟩ := firstTurn_firstCommit
  let trimmed := execAll sampleSha256 [(sampleEnv, .trimHistory (.int 0))] firstTurn.after
  obtain ⟨o, ho, hstatus⟩ := @outcomeStatus_eq_some _ .reserved
    (show outcomeStatus (exec sampleSha256 sampleEnv sampleReserve.2 trimmed).1 = _ by
      decide +kernel)
  have hreserved : exec sampleSha256 sampleEnv (.reserveRequest (.str res.requestId)
      (.str (py "oi"))) trimmed =
      (.ok (.outcome o), (exec sampleSha256 sampleEnv sampleReserve.2 trimmed).2) := by
    rw [hid, ← ho]
    rfl
  refine h _ _ firstTurn res trimmed _ sampleEnv (.str (py "oi")) _
    (run_trace [sampleReserve] .init) hres (run_trace _ _) ?_ hreserved hstatus
  intro e' he'
  obtain rfl := List.mem_singleton.mp he'
  simp [event]

/-! ## What an open transaction shows

A call that raised past its `except` clauses leaves its transaction open, and the
thread reads through it from then on. It sees the profile as it is, and the
completed rows as they are or not at all. -/

structure Shows (db d : Db) : Prop where
  profile : d.profile = db.profile
  /-- Every completed row of `db` is in `d` too, with its message, or is missing there. -/
  completed : ∀ row message, Completed db row message →
    Completed d row message ∨ d.turnRequests.get? row.requestId = none

theorem Shows.refl (db : Db) : Shows db db := ⟨rfl, fun _ _ h => .inl h⟩

/-- Contents that only grew show what was there. -/
theorem Shows.of_keeps {db d : Db} (hprofile : d.profile = db.profile)
    (hturns : ∀ k r, db.turnRequests.get? k = some r → d.turnRequests.get? k = some r)
    (hchats : ∀ i c, db.chatLogs.get? i = some c → d.chatLogs.get? i = some c) : Shows db d :=
  ⟨hprofile, fun _ _ h => .inl (h.mono (fun k r hr _ => hturns k r hr) hchats)⟩

/-- The importer only adds. -/
theorem importLoop_raise {now : PyStr} : ∀ {ts : List LegacyTurn} {i k : Nat} {db d : Db}
    {e : Err}, importLoop sha256 now ts i k db = .raise e d →
    d.profile = db.profile ∧
      (∀ k r, db.turnRequests.get? k = some r → d.turnRequests.get? k = some r) ∧
      (∀ i c, db.chatLogs.get? i = some c → d.chatLogs.get? i = some c)
  | [], _, _, _, _, _, h => by cases h
  | t :: ts, i, k, db, d, e, h => by
      have hself : db.profile = db.profile ∧
          (∀ k r, db.turnRequests.get? k = some r → db.turnRequests.get? k = some r) ∧
          (∀ i c, db.chatLogs.get? i = some c → db.chatLogs.get? i = some c) :=
        ⟨rfl, fun _ _ h => h, fun _ _ h => h⟩
      have huser : ∀ i c, db.chatLogs.get? i = some c →
          (db.importUser t now).chatLogs.get? i = some c :=
        fun i c hc => AutoTable.get?_insert_of_some hc
      have hmessages : ∀ i c, db.chatLogs.get? i = some c →
          (db.importMessages t now).chatLogs.get? i = some c :=
        fun i c hc => AutoTable.get?_insert_of_some (huser i c hc)
      simp only [importLoop, Outcome.attempt_eq_raise] at h
      rcases h with ⟨_, rfl⟩ | ⟨_, _, h⟩
      · exact hself
      split at h
      · rcases Outcome.attempt_eq_raise.mp h with ⟨_, rfl⟩ | ⟨hash, _, h⟩
        · exact hself
        · split at h
          · cases h
            exact hself
          · exact importLoop_raise h
      · rename_i habsent
        simp only [Outcome.attempt_eq_raise] at h
        rcases h with ⟨_, rfl⟩ | ⟨_, _, ⟨_, rfl⟩ | ⟨_, _, ⟨_, rfl⟩ | ⟨_, _, ⟨_, rfl⟩ |
          ⟨hash, _, ⟨_, rfl⟩ | ⟨text, _, ⟨_, rfl⟩ | ⟨_, _, h⟩⟩⟩⟩⟩⟩
        · exact hself
        · exact hself
        · exact ⟨rfl, hself.2.1, huser⟩
        · exact ⟨rfl, hself.2.1, hmessages⟩
        · exact ⟨rfl, hself.2.1, hmessages⟩
        · exact ⟨rfl, hself.2.1, hmessages⟩
        · obtain ⟨hprofile, hturns, hchats⟩ := importLoop_raise h
          exact ⟨hprofile, fun k r hr => hturns k r (Table.get?_insertNew_of_some hr),
            fun i c hc => hchats i c (hmessages i c hc)⟩

/-- How a call can leave a transaction open. -/
theorem perform_tx {α β : Type} {env : Env} {args : Except Err β} {block : β → Block Db Err α}
    {reply : α → Reply} {s s' : LocalStore} {r : Except Err Reply}
    (h : perform env args block reply s = (r, s')) (hraw : ∀ b, ((block b).catches .sqlite).isSome)
    (hraise : ∀ b e d, (block b).body s.db = .raise e d → Shows s.db d) :
    s'.tx = none ∨ (s'.tx = s.tx ∧ s'.db = s.db) ∨
      ∃ d, s'.tx = some (env.thread, d) ∧ s'.db = s.db ∧ Shows s.db d := by
  rcases perform_cases h with ⟨_, _, _, rfl⟩ | ⟨b, r₀, _, hrun, _⟩
  · exact .inr (.inl ⟨rfl, rfl⟩)
  · rcases Block.run_cases hrun with ⟨_, _, _, _, _, rfl⟩ | ⟨_, _, rfl⟩ | ⟨e, _, hdb, hcase⟩
    · exact .inl rfl
    · exact .inl rfl
    · rcases hcase with htx | htx | ⟨d, hbody, _, htx⟩ | ⟨hc, _⟩
      · exact .inl htx
      · exact .inr (.inl ⟨htx, hdb⟩)
      · exact .inr (.inr ⟨d, htx, hdb, hraise b e d hbody⟩)
      · have := hraw b
        rw [hc] at this
        cases this

/-- A commit never leaves a transaction open: its last clause names every exception. -/
theorem commitTurn_tx {env : Env} {a : CommitArgs} {s s' : LocalStore}
    {r : Except Err CommittedTurn} (h : commitTurn sha256 env a s = (r, s')) :
    s'.tx = none ∨ (s'.tx = s.tx ∧ s'.db = s.db) := by
  unfold commitTurn at h
  split at h
  · cases h
    exact .inr ⟨rfl, rfl⟩
  · rename_i c hash _
    have hblock : (commitBlock c hash env.clock).run .sqlite env.thread env.fault s = (r, s') →
        s'.tx = none ∨ (s'.tx = s.tx ∧ s'.db = s.db) := by
      intro hrun
      rcases Block.run_cases hrun with ⟨_, _, _, _, _, rfl⟩ | ⟨_, _, rfl⟩ | ⟨e, _, hdb, hcase⟩
      · exact .inl rfl
      · exact .inl rfl
      · rcases hcase with htx | htx | ⟨d, hbody, hc, _⟩ | ⟨hc, _⟩
        · exact .inl htx
        · exact .inr ⟨htx, hdb⟩
        · have := commitBlock_sealed c hash env.clock s.db e d hbody
          rw [hc] at this
          cases this
        · cases hc
    split at h
    · cases h
      exact .inr ⟨rfl, rfl⟩
    · simp only at h
      split at h
      · exact hblock h
      · split at h
        · exact hblock h
        · split at h <;> cases h <;> exact .inr ⟨rfl, rfl⟩
        · cases h
          exact .inr ⟨rfl, rfl⟩

/-- **What a call leaves open**: nothing, what was open before, or a transaction that shows the
profile and the completed rows unchanged. -/
theorem exec_tx {env : Env} {call : Call} {s s' : LocalStore} {r : Except Err Reply}
    (h : exec sha256 env call s = (r, s')) :
    s'.tx = none ∨ (s'.tx = s.tx ∧ s'.db = s.db) ∨
      ∃ d, s'.tx = some (env.thread, d) ∧ s'.db = s.db ∧ Shows s.db d := by
  cases call with
  | reserveRequest requestId userMessage =>
      rw [exec] at h
      refine perform_tx h (fun _ => rfl) fun b e d hbody => ?_
      simp only [reserveBlock] at hbody
      split at hbody
      · cases hbody
      · split at hbody <;> cases hbody
  | commitTurn a =>
      simp only [exec] at h
      have hs : commitTurn sha256 env a s = ((commitTurn sha256 env a s).1, s') :=
        Prod.ext rfl (Prod.mk.inj h).2
      exact (commitTurn_tx hs).imp_right .inl
  | releaseRequest requestId historyGeneration =>
      rw [exec] at h
      refine perform_tx h (fun _ => rfl) fun b e d hbody => ?_
      simp only [releaseBlock, Outcome.attempt_eq_raise] at hbody
      rcases hbody with ⟨_, rfl⟩ | ⟨_, _, hbody⟩
      · exact .refl _
      · cases hbody
  | storeMemory content metadata =>
      rw [exec] at h
      refine perform_tx h (fun _ => rfl) fun b e d hbody => ?_
      simp only [storeMemoryBlock, Outcome.attempt_eq_raise] at hbody
      rcases hbody with ⟨_, rfl⟩ | ⟨_, _, ⟨_, rfl⟩ | ⟨_, _, ⟨_, rfl⟩ | ⟨_, _, ⟨_, rfl⟩ | ⟨_, _, hbody⟩⟩⟩⟩
      · exact .refl _
      · exact .refl _
      · exact .refl _
      · exact .refl _
      · cases hbody
  | deleteHistory =>
      rw [exec] at h
      refine perform_tx h (fun _ => rfl) fun b e d hbody => ?_
      have hgone : Shows s.db s.db.clearHistory := by
        refine ⟨rfl, fun row _ _ => .inr ?_⟩
        rw [Table.get?_eq_none, (clearHistory_empty s.db).2]
        simp
      simp only [deleteHistoryBlock, Outcome.attempt_eq_raise] at hbody
      rcases hbody with ⟨_, rfl⟩ | ⟨_, _, ⟨_, rfl⟩ | ⟨_, _, hbody⟩⟩
      · exact hgone
      · exact hgone
      · cases hbody
  | deleteMemories =>
      rw [exec] at h
      refine perform_tx h (fun _ => rfl) fun b e d hbody => ?_
      simp only [deleteMemoriesBlock, Outcome.attempt_eq_raise] at hbody
      rcases hbody with ⟨_, rfl⟩ | ⟨_, _, hbody⟩
      · exact .of_keeps rfl (fun _ _ hr => hr) fun _ _ hc => hc
      · cases hbody
  | reset field neutral =>
      rw [exec] at h
      refine perform_tx h (fun _ => rfl) fun b e d hbody => ?_
      simp only [resetBlock, Outcome.attempt_eq_raise] at hbody
      rcases hbody with ⟨_, rfl⟩ | ⟨_, _, ⟨_, rfl⟩ | ⟨_, hrev, ⟨_, rfl⟩ | ⟨_, _, ⟨hdumps, _⟩ |
        ⟨_, _, hbody⟩⟩⟩⟩
      · exact .refl _
      · exact .refl _
      · exact .refl _
      · -- a revision that could be bound can be written into the report
        have hlt : s.db.revision + 1 < 2 ^ 63 := by
          simpa [bindInt] using hrev
        obtain ⟨text, htext⟩ := (jsonDumps_report ⟨field.operation,
          [(py "revision", s.db.revision + 1)]⟩).mpr (by
            simpa using Nat.lt_trans hlt lt_intTextLimit)
        rw [htext] at hdumps
        cases hdumps
      · cases hbody
  | trimHistory keepLast =>
      rw [exec] at h
      refine perform_tx h (fun _ => rfl) fun b e d hbody => ?_
      simp only [trimBlock, Outcome.attempt_eq_raise] at hbody
      rcases hbody with ⟨_, rfl⟩ | ⟨_, _, hbody⟩
      · exact .refl _
      · cases hbody
  | importLegacyFixture fixture =>
      rw [exec] at h
      refine perform_tx h (fun _ => rfl) fun b e d hbody => ?_
      obtain ⟨hprofile, hturns, hchats⟩ := importLoop_raise hbody
      exact .of_keeps hprofile hturns hchats
  | reopen =>
      simp only [exec] at h
      split at h <;> cases h <;> exact .inl rfl

/-- Along a run, whatever is open shows the completed rows. -/
theorem Run.shows {s s' : LocalStore} {es : List (Event sha256)} (hrun : Run sha256 s es s')
    (h0 : s.tx = none) (t : Nat) : Shows s'.db (s'.view t) := by
  have hinv : ∀ t d, s'.tx = some (t, d) → Shows s'.db d := by
    induction hrun with
    | nil =>
        intro t d htx
        rw [h0] at htx
        cases htx
    | snoc e _ ih =>
        intro t d htx
        rcases exec_tx e.executed with hnone | ⟨hsame, hdb⟩ | ⟨d', hopen, hdb, hshows⟩
        · rw [hnone] at htx
          cases htx
        · rw [hsame] at htx
          rw [hdb]
          exact ih t d htx
        · rw [hopen] at htx
          cases htx
          rw [hdb]
          exact hshows
  unfold Store.view
  split
  · rename_i t' d htx
    split
    · exact hinv t' d htx
    · exact .refl _
  · exact .refl _

/-! ## The canonical payload -/

/-- All mappings of the turn are JSON objects: string keys, no key twice, nothing but JSON
inside. -/
structure CommitInput.Json (c : CommitInput) : Prop where
  emotionalState : isJsonItems c.emotionalState = true
  relationshipState : isJsonItems c.relationshipState = true
  replayPayload : isJsonItems c.replayPayload = true
  outboxEvents : ∀ e ∈ c.outboxEvents, isJsonItems e.payload = true

/-- What the canonical payload keeps of an event: the order of its keys does not matter. -/
def OutboxInput.canon (e : OutboxInput) : PyStr × PyVal × PyStr :=
  (e.eventType, (PyVal.dict e.payload).canon, e.idempotencyKey)

/-- The two turns are the same, up to the order in which dictionaries list their keys. The
history generation is left out, as it is in the payload. -/
structure CommitInput.Agrees (c c' : CommitInput) : Prop where
  requestId : c.requestId = c'.requestId
  expectedRevision : c.expectedRevision = c'.expectedRevision
  userMessage : c.userMessage = c'.userMessage
  assistantMessage : c.assistantMessage = c'.assistantMessage
  emotionalState : (PyVal.dict c.emotionalState).canon = (PyVal.dict c'.emotionalState).canon
  relationshipState :
    (PyVal.dict c.relationshipState).canon = (PyVal.dict c'.relationshipState).canon
  publicResponse : c.publicResponse = c'.publicResponse
  replayPayload : (PyVal.dict c.replayPayload).canon = (PyVal.dict c'.replayPayload).canon
  outboxEvents : c.outboxEvents.map OutboxInput.canon = c'.outboxEvents.map OutboxInput.canon

theorem CommitInput.Agrees.refl (c : CommitInput) : c.Agrees c :=
  ⟨rfl, rfl, rfl, rfl, rfl, rfl, rfl, rfl, rfl⟩

theorem isJson_outboxDoc {e : OutboxInput} (h : isJsonItems e.payload = true) :
    isJson (outboxDoc e) = true := by
  rw [outboxDoc, isJson, isJsonItems, isJsonItems, isJsonItems, isJsonItems, isJson, isJson, isJson,
    h]
  rfl

theorem isJsonElems_outboxDocs : ∀ {es : List OutboxInput},
    (∀ e ∈ es, isJsonItems e.payload = true) → isJsonElems (es.map outboxDoc) = true
  | [], _ => rfl
  | e :: es, h => by
      rw [List.map_cons, isJsonElems, isJson_outboxDoc (h e (by simp)),
        isJsonElems_outboxDocs fun e' he' => h e' (by simp [he'])]
      rfl

theorem isJson_revisionDoc (n : Option Nat) : isJson (revisionDoc n) = true := by
  cases n <;> rfl

theorem CommitInput.Json.payload {c : CommitInput} (h : c.Json) :
    isJson (buildCanonicalCommitPayload c) = true := by
  simp only [buildCanonicalCommitPayload, isJson, isJsonItems, h.emotionalState,
    h.relationshipState, h.replayPayload, isJsonElems_outboxDocs h.outboxEvents, isJson_revisionDoc]
  rfl

/-- A lookup in the canonical form of a JSON object. -/
theorem canon_lookup {kvs kvs' : List (PyKey × PyVal)} (h : isJsonItems kvs = true)
    (h' : isJsonItems kvs' = true) (heq : (PyVal.dict kvs).canon = (PyVal.dict kvs').canon)
    (k : PyStr) : (dictGet kvs k).map PyVal.canon = (dictGet kvs' k).map PyVal.canon := by
  rw [← dictGet_canon h, ← dictGet_canon h']
  rw [PyVal.canon, PyVal.canon] at heq
  injection heq with heq
  rw [heq]

theorem outboxDoc_canon_eq {e e' : OutboxInput} (h : isJsonItems e.payload = true)
    (h' : isJsonItems e'.payload = true) (heq : (outboxDoc e).canon = (outboxDoc e').canon) :
    e.canon = e'.canon := by
  have hget := canon_lookup (isJson_outboxDoc h) (isJson_outboxDoc h') heq
  have h1 : some (PyVal.str e.eventType) = some (PyVal.str e'.eventType) := hget (py "event_type")
  have h2 : some (PyVal.dict e.payload).canon = some (PyVal.dict e'.payload).canon :=
    hget (py "payload")
  have h3 : some (PyVal.str e.idempotencyKey) = some (PyVal.str e'.idempotencyKey) :=
    hget (py "idempotency_key")
  injection h1 with h1
  injection h1 with h1
  injection h2 with h2
  injection h3 with h3
  injection h3 with h3
  rw [OutboxInput.canon, OutboxInput.canon, h1, h2, h3]

theorem outboxDocs_canon_eq : ∀ {es es' : List OutboxInput},
    (∀ e ∈ es, isJsonItems e.payload = true) → (∀ e ∈ es', isJsonItems e.payload = true) →
    canonElems (es.map outboxDoc) = canonElems (es'.map outboxDoc) →
    es.map OutboxInput.canon = es'.map OutboxInput.canon
  | [], [], _, _, _ => rfl
  | [], e' :: es', _, _, h => by cases h
  | e :: es, [], _, _, h => by cases h
  | e :: es, e' :: es', h, h', heq => by
      simp only [List.map_cons, canonElems, List.cons.injEq] at heq
      rw [List.map_cons, List.map_cons,
        outboxDoc_canon_eq (h e (by simp)) (h' e' (by simp)) heq.1,
        outboxDocs_canon_eq (fun x hx => h x (by simp [hx])) (fun x hx => h' x (by simp [hx])) heq.2]

theorem outboxDocs_canon : ∀ {es es' : List OutboxInput},
    es.map OutboxInput.canon = es'.map OutboxInput.canon →
    canonElems (es.map outboxDoc) = canonElems (es'.map outboxDoc)
  | [], [], _ => rfl
  | [], e' :: es', h => by cases h
  | e :: es, [], h => by cases h
  | e :: es, e' :: es', h => by
      simp only [List.map_cons, List.cons.injEq, OutboxInput.canon, Prod.mk.injEq] at h
      obtain ⟨⟨h1, h2, h3⟩, hrest⟩ := h
      rw [List.map_cons, List.map_cons, canonElems, canonElems, outboxDocs_canon hrest]
      simp only [outboxDoc, PyVal.canon, canonItems, h1, h3] at h2 ⊢
      rw [h2]

theorem revisionDoc_injective {n n' : Option Nat}
    (h : (revisionDoc n).canon = (revisionDoc n').canon) : n = n' := by
  cases n <;> cases n' <;> cases h <;> rfl

/-- **The canonical payload determines the turn**, and the turn the payload. -/
theorem payload_canon_eq_iff {c c' : CommitInput} (h : c.Json) (h' : c'.Json) :
    (buildCanonicalCommitPayload c).canon = (buildCanonicalCommitPayload c').canon ↔
      c.Agrees c' := by
  constructor
  · intro heq
    have hget := canon_lookup h.payload h'.payload heq
    have h1 : some (PyVal.str c.requestId) = some (PyVal.str c'.requestId) := hget (py "request_id")
    have h2 : some (revisionDoc c.expectedRevision).canon =
        some (revisionDoc c'.expectedRevision).canon := hget (py "expected_revision")
    have h3 : some (PyVal.str c.userMessage) = some (PyVal.str c'.userMessage) :=
      hget (py "user_message")
    have h4 : some (PyVal.str c.assistantMessage) = some (PyVal.str c'.assistantMessage) :=
      hget (py "assistant_message")
    have h5 : some (PyVal.dict c.emotionalState).canon = some (PyVal.dict c'.emotionalState).canon :=
      hget (py "emotional_state")
    have h6 : some (PyVal.dict c.relationshipState).canon =
        some (PyVal.dict c'.relationshipState).canon := hget (py "relationship_state")
    have h7 : some (PyVal.str c.publicResponse) = some (PyVal.str c'.publicResponse) :=
      hget (py "public_response")
    have h8 : some (PyVal.dict c.replayPayload).canon = some (PyVal.dict c'.replayPayload).canon :=
      hget (py "replay_payload")
    have h9 : some (PyVal.list (canonElems (c.outboxEvents.map outboxDoc))) =
        some (PyVal.list (canonElems (c'.outboxEvents.map outboxDoc))) := hget (py "outbox_events")
    simp only [Option.some.injEq, PyVal.str.injEq, PyVal.list.injEq] at h1 h2 h3 h4 h5 h6 h7 h8 h9
    exact ⟨h1, revisionDoc_injective h2, h3, h4, h5, h6, h7, h8,
      outboxDocs_canon_eq h.outboxEvents h'.outboxEvents h9⟩
  · intro ha
    have hout := outboxDocs_canon ha.outboxEvents
    have hlist : (PyVal.list (c.outboxEvents.map outboxDoc)).canon =
        (PyVal.list (c'.outboxEvents.map outboxDoc)).canon := by
      rw [PyVal.canon, PyVal.canon, hout]
    simp only [buildCanonicalCommitPayload]
    rw [PyVal.canon, PyVal.canon]
    simp only [canonItems, ha.requestId, ha.expectedRevision, ha.userMessage, ha.assistantMessage,
      ha.emotionalState, ha.relationshipState, ha.publicResponse, ha.replayPayload, hlist]

/-- The texts `canonical_json` writes. -/
def canonicalTexts : Set PyStr := {text | ∃ v, dumpsCompact false v = some text}

/-- With a digest that is injective on canonical texts, equal digests mean equal turns. -/
theorem hash_eq_iff (hsha : Set.InjOn sha256 canonicalTexts) {c c' : CommitInput}
    {hash hash' : PyStr} (h : c.Json) (h' : c'.Json)
    (hhash : canonicalPayloadHash sha256 (buildCanonicalCommitPayload c) = .ok hash)
    (hhash' : canonicalPayloadHash sha256 (buildCanonicalCommitPayload c') = .ok hash') :
    hash = hash' ↔ c.Agrees c' := by
  simp only [canonicalPayloadHash, canonicalJson, bind_eq_ok, orRaise_eq_ok] at hhash hhash'
  obtain ⟨text, htext, _, _, hhash⟩ := hhash
  obtain ⟨text', htext', _, _, hhash'⟩ := hhash'
  cases hhash
  cases hhash'
  rw [← payload_canon_eq_iff h h']
  constructor
  · intro heq
    have hsame : text = text' := hsha ⟨_, htext⟩ ⟨_, htext'⟩ heq
    rw [← hsame] at htext'
    exact dumpsCompact_injective h.payload h'.payload htext htext'
  · intro heq
    unfold dumpsCompact at htext htext'
    split at htext <;> cases htext
    split at htext' <;> cases htext'
    rw [heq]

/-! ## Commit and replay agree -/

/-- A second commit over a completed row answers from the row its connection reads. -/
theorem commit_completed {env : Env} {a : CommitArgs} {c : CommitInput} {hash : PyStr}
    {s : LocalStore} {row : TurnRequest} (hinput : commitInput sha256 a = .ok (c, hash))
    (hrow : (s.view env.thread).turnRequests.get? c.requestId = some row)
    (hstatus : row.status = .completed) (hfault : env.fault ≠ .read) :
    exec sha256 env (.commitTurn a) s =
      (if row.payloadHash = hash then (committedFromRow row).map .committed
        else .error (c.conflict .requestPayloadConflict
          "Request id was already completed with a different payload."), s) := by
  simp only [exec, commitTurn, hinput, if_neg hfault, hrow, hstatus]
  by_cases hhash : row.payloadHash = hash
  · simp [hhash]
  · simp [hhash, Except.map]

/-- No reservation of a completed id changes a table. -/
theorem Completed.reserve_keeps {env : Env} {requestId userMessage : PyVal} {s s' : LocalStore}
    {r : Except Err Reply} {row : TurnRequest} {message : PyStr} (h : Completed s.db row message)
    (hid : validateRequestId requestId = .ok row.requestId)
    (hx : exec sha256 env (.reserveRequest requestId userMessage) s = (r, s')) : s'.db = s.db := by
  rcases exec_change sha256 hx with hdb | ⟨reply, _, hc⟩
  · exact hdb
  · exfalso
    generalize s'.db = after at hc
    cases hc with
    | reserve hid' habsent =>
        rw [hid] at hid'
        cases hid'
        rw [h.ledger] at habsent
        cases habsent

/-- No commit of a completed id does. -/
theorem Completed.commit_keeps {env : Env} {a : CommitArgs} {c : CommitInput} {s s' : LocalStore}
    {r : Except Err Reply} {row : TurnRequest} {message : PyStr} (h : Completed s.db row message)
    (haccepted : validateCommit a = .ok c) (hid : c.requestId = row.requestId)
    (hx : exec sha256 env (.commitTurn a) s = (r, s')) : s'.db = s.db := by
  rcases exec_change sha256 hx with hdb | ⟨reply, _, hc⟩
  · exact hdb
  · exfalso
    generalize s'.db = after at hc
    cases hc with
    | commit hinput hrow hpending _ _ _ _ _ _ _ =>
        have hacc := ((commitInput_eq_ok sha256).mp hinput).1
        rw [validateCommit_eq_ok.mpr hacc] at haccepted
        cases haccepted
        rw [hid, h.ledger] at hrow
        cases hrow
        rw [h.status] at hpending
        cases hpending

/-- What a connection that sees `db` reads about a committed turn. -/
structure Replays (db : Db) (c : CommitInput) (res : CommittedTurn) : Prop where
  replay : Local.replay (.str res.requestId) db
    = .ok { status := .completed, committed := some res.canon }
  check : ∀ message, validateMessage (.str message) "user_message" = .ok message →
    checkRequest (.str res.requestId) (.str message) db = .ok (if message = c.userMessage
      then { status := .replay, committed := some res.canon } else { status := .conflict })

theorem Completed.replays {db : Db} {row : TurnRequest} {c : CommitInput} {res : CommittedTurn}
    (h : Completed db row c.userMessage) (hkey : row.requestId = res.requestId)
    (hid : validateRequestId (.str res.requestId) = .ok res.requestId)
    (hres : committedFromRow row = .ok res.canon) : Replays db c res := by
  have hledger := h.ledger
  rw [hkey] at hledger
  refine ⟨?_, fun message hm => ?_⟩
  · simp [Local.replay, hid, hledger, h.status, hres, pure, Except.pure]
  · simp [checkRequest, hid, hm, hledger, h.status, h.answer hres]

/-- **Commit and replay agree.** Take a first commit of `c` that returned `res`, any later calls
through which its ledger row was never missing, and the state they lead to. Then

* every connection that sees the row reads `res` from `replay`, and from `check_request` a replay
  of `res` for the committed message and a conflict for any other;
* `reserve_request` answers in the same way, and leaves the store as it was;
* `commit_turn` with the same canonical payload returns `res` and with any other raises
  `request_payload_conflict`, and leaves the store as it was;
* whatever the driver does, no reservation and no commit of that id changes a table. -/
theorem commit_replay_agree (hsha : Set.InjOn sha256 canonicalTexts) {e : Event sha256}
    {es : List (Event sha256)} {s : LocalStore} {a : CommitArgs} {c : CommitInput}
    {res : CommittedTurn} (hcall : e.call = .commitTurn a) (haccepted : validateCommit a = .ok c)
    (hjson : c.Json) (hfirst : e.firstCommit = some res) (hlater : Run sha256 e.after es s)
    (hkept : ∀ e' ∈ es, ∃ r, e'.after.db.turnRequests.get? res.requestId = some r) :
    (∀ t r, (s.view t).turnRequests.get? res.requestId = some r → Replays (s.view t) c res) ∧
    (∀ env message, s.tx = none → env.fault = .none →
      validateMessage (.str message) "user_message" = .ok message →
      exec sha256 env (.reserveRequest (.str res.requestId) (.str message)) s =
        (.ok (.outcome (if message = c.userMessage
          then { status := .replay, committed := some res.canon }
          else { status := .conflict })), s)) ∧
    (∀ env a' c' hash' r, env.fault ≠ .read → commitInput sha256 a' = .ok (c', hash') → c'.Json →
      c'.requestId = res.requestId →
      (s.view env.thread).turnRequests.get? res.requestId = some r →
      (c'.Agrees c → exec sha256 env (.commitTurn a') s = (.ok (.committed res.canon), s)) ∧
      (¬ c'.Agrees c → exec sha256 env (.commitTurn a') s =
        (.error (c'.conflict .requestPayloadConflict
          "Request id was already completed with a different payload."), s))) ∧
    (∀ env requestId message, validateRequestId requestId = .ok res.requestId →
      (exec sha256 env (.reserveRequest requestId message) s).2.db = s.db) ∧
    (∀ env a' c', validateCommit a' = .ok c' → c'.requestId = res.requestId →
      (exec sha256 env (.commitTurn a') s).2.db = s.db) := by
  obtain ⟨a₀, c₀, hash, row, hcall₀, hinput, hrow, hcompleted⟩ := e.firstCommit_row hfirst
  rw [hcall] at hcall₀
  cases hcall₀
  obtain ⟨hacc, hhash⟩ := (commitInput_eq_ok sha256).mp hinput
  obtain rfl : c = c₀ := by
    rw [validateCommit_eq_ok.mpr hacc] at haccepted
    cases haccepted
    rfl
  have hkey := hrow.resultId
  have hid : validateRequestId (.str res.requestId) = .ok res.requestId := by
    have hv := hacc.requestId
    rw [validateRequestId_str hv, ← hrow.requestId, hkey] at hv
    exact hv
  have hres := committedFromRow_canon hacc hrow hjson.replayPayload
  have hend : Completed s.db row c.userMessage :=
    hlater.completed hcompleted (by rw [hkey]; exact hkept)
  -- a connection inside a transaction that was left open sees the row, if it sees one at all
  have hidle : e.after.tx = none := by
    obtain ⟨hresult, htx, _⟩ := e.firstCommit_change hfirst
    exact e.ok_idle htx hresult
  have hview : ∀ t r, (s.view t).turnRequests.get? res.requestId = some r →
      Completed (s.view t) row c.userMessage := by
    intro t r hr
    rcases (hlater.shows hidle t).completed row c.userMessage hend with h | h
    · exact h
    · rw [hkey, hr] at h
      cases h
  refine ⟨?_, ?_, ?_, ?_, ?_⟩
  · intro t r hr
    exact (hview t r hr).replays hkey hid hres
  · intro env message htx hfault hm
    exact reserve_completed hid hm hend hkey hres htx hfault
  · intro env a' c' hash' r hfault hinput' hjson' hid' hr
    have hc := hview env.thread r hr
    have hledger := hc.ledger
    rw [hkey, ← hid'] at hledger
    have hx := commit_completed hinput' hledger hc.status hfault
    obtain ⟨_, hhash'⟩ := (commitInput_eq_ok sha256).mp hinput'
    have hiff := hash_eq_iff hsha hjson' hjson hhash' hhash
    rw [hrow.hash, hres] at hx
    refine ⟨fun hagrees => ?_, fun hdiffers => ?_⟩
    · rw [hx, if_pos (hiff.mpr hagrees).symm]
      rfl
    · rw [hx, if_neg fun heq => hdiffers (hiff.mp heq.symm)]
  · intro env requestId message hv
    exact hend.reserve_keeps (by rw [hkey]; exact hv)
      (Eq.refl (exec sha256 env (.reserveRequest requestId message) s))
  · intro env a' c' hacc' hid'
    exact hend.commit_keeps hacc' (by rw [hkey]; exact hid')
      (Eq.refl (exec sha256 env (.commitTurn a') s))

theorem sampleArgs_json {c : CommitInput} (h : validateCommit sampleArgs = .ok c) : c.Json := by
  have hacc := validateCommit_eq_ok.mp h
  have hemotional := PyVal.dict.inj (validateSnapshot_items hacc.emotionalState).1
  have hrelationship := PyVal.dict.inj (validateSnapshot_items hacc.relationshipState).1
  have hreplay := PyVal.dict.inj (validateReplayPayload_items hacc.replayPayload)
  have houtbox : c.outboxEvents = [] := (Except.ok.inj hacc.outboxEvents).symm
  refine ⟨?_, ?_, ?_, by simp [houtbox]⟩
  · rw [← hemotional]
    decide +kernel
  · rw [← hrelationship]
    decide +kernel
  · rw [← hreplay]
    decide +kernel

/-- Right after the first turn its id answers with its result. -/
theorem commit_replay_agree_first_turn : ∃ c res,
    validateCommit sampleArgs = .ok c ∧ firstTurn.firstCommit = some res ∧
      Replays firstTurn.after.db c res := by
  obtain ⟨c, hc⟩ : ∃ c, validateCommit sampleArgs = .ok c := exists_of_isOk (by decide +kernel)
  obtain ⟨res, hres, _, hidle⟩ := firstTurn_firstCommit
  have hview : firstTurn.after.view 0 = firstTurn.after.db := by
    simp [Store.view, hidle]
  have hagree := commit_replay_agree sampleSha256_injective.injOn rfl hc (sampleArgs_json hc) hres
    .nil (by simp)
  obtain ⟨_, _, _, row, _, _, hrow, hcompleted⟩ := firstTurn.firstCommit_row hres
  have hledger := hcompleted.ledger
  rw [hrow.resultId] at hledger
  have hreplays := hagree.1 0 row (by rw [hview]; exact hledger)
  rw [hview] at hreplays
  exact ⟨c, res, hc, hres, hreplays⟩

end Katherine.Local
