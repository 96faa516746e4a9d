import Katherine.Cloud.Atomic

/-!
# A replay returns what the commit returned

The result of a commit is assembled from the request's row alone, by the same function
for the commit, for a repeated `commit_turn` and for `replay_committed_turn`. So it is
enough that the row keeps what the function reads. Deleting messages nulls two columns
it does not read; nothing that happens to outbox events touches the references kept in
the row.
-/

namespace Katherine.Cloud

open Py Sql Pg Runs

variable {sha256 : PyStr → PyStr}

theorem SameReplay.buildResult {r r' : TurnRequest} (h : SameReplay r r') :
    r'.buildResult = r.buildResult := by
  have huser : r'.userId = r.userId := congrArg Prod.fst h.key
  have hrequest : r'.requestId = r.requestId := congrArg Prod.snd h.key
  simp only [TurnRequest.buildResult, huser, hrequest, h.state, h.replayOutboxRefs, h.createdAt]

/-- The row of `key` still says what `row` says. -/
def Remembers (key : PyStr × Uuid) (row : TurnRequest) (db : Db) : Prop :=
  ∃ r, db.turnRequests.get? key = some r ∧ SameReplay row r

/-- As long as there is a row for the request, it is the one the commit left. -/
theorem remembers_of_run {key : PyStr × Uuid} {row : TurnRequest} {db db' : Db}
    {es : List (Event (exec sha256))} (hrun : Run db es db') (h0 : Remembers key row db)
    (hs : ∃ n payload at_, row.state = .completed n payload at_)
    (hthere : ∀ e ∈ es, (e.after.turnRequests.get? key).isSome) : Remembers key row db' := by
  refine (hrun.invariant h0 ?_).1
  rintro e he ⟨r, hr, hsame⟩
  rcases completed_kept (effect_of_event e) hr (by rw [hsame.state]; exact hs) with
    ⟨r', hr', hsame'⟩ | ⟨hnone, -⟩
  · exact ⟨r', hr', hsame.trans hsame'⟩
  · have := hthere e he
    rw [hnone] at this
    cases this

/-- A repeated commit finds the completed row and returns its result. -/
theorem commitTurn_replays {db : Db} {a : CommitArgs} {i : CommitInput} {r : TurnRequest}
    (now : Timestamp) (ids : FreshIds) (hv : validateCommit a = .ok i)
    (hr : db.turnRequests.get? i.key = some r)
    (hs : ∃ n payload at_, r.state = .completed n payload at_) (hhash : r.payloadHash = i.payloadHash) :
    commitTurn now ids a db = (.result r.buildResult, db) := by
  obtain ⟨n, payload, at_, hs⟩ := hs
  simp [commitTurn, hv, commitValidated, hr, hhash, hs, commitTurnBuildResult, Except.map]

/-- With another hash it is a conflict. -/
theorem commitTurn_conflicts {db : Db} {a : CommitArgs} {i : CommitInput} {r : TurnRequest}
    (now : Timestamp) (ids : FreshIds) (hv : validateCommit a = .ok i)
    (hr : db.turnRequests.get? i.key = some r) (hhash : r.payloadHash ≠ i.payloadHash) :
    commitTurn now ids a db = (.error
      { code := .requestPayloadConflict,
        message := "Request ID already exists with a different payload hash",
        expectedRevision := some i.expectedRevision, requestId := some i.requestId }, db) := by
  simp [commitTurn, hv, commitValidated, hr, hhash]

theorem replayCommittedTurn_replays {db : Db} {key : PyStr × Uuid} {r : TurnRequest}
    (now : Timestamp) (huser : key.1 ≠ []) (hr : db.turnRequests.get? key = some r)
    {n : Nat} {payload : Jsonb} {at_ : Timestamp} (hs : r.state = .completed n payload at_)
    (hpayload : replayPayloadCorrupt payload = false) :
    replayCommittedTurn now (some key.1) (some key.2) db = .result r.buildResult := by
  have hgiven : (some key.1).filter (· ≠ []) = some key.1 := by simp [huser]
  simp only [replayCommittedTurn, hgiven]
  rw [hr]
  simp [hs, hpayload]

/-- **Replay stability.** After a fresh commit that returned `turn`, in every later state up to
which the request's row was there: a `commit_turn` with the same hash and `replay_committed_turn`
return `turn` and write nothing, and a `commit_turn` with another hash returns a conflict and writes
nothing. -/
theorem replay_stable {key : PyStr × Uuid} {e₀ : Event (exec sha256)} {t₀ : Times}
    {ids₀ : FreshIds} {a₀ : CommitArgs} {turn : CommittedTurn} {db' : Db}
    {es : List (Event (exec sha256))} (hfresh : FreshCommit key e₀)
    (hinput : e₀.input = (t₀, .commitTurn ids₀ a₀)) (hturn : e₀.reply = .commit (.result turn))
    (hrun : Run e₀.after es db')
    (hthere : ∀ e ∈ es, (e.after.turnRequests.get? key).isSome) :
    (∀ now ids a i, validateCommit a = .ok i → i.key = key → a.payloadHash = a₀.payloadHash →
      commitTurn now ids a db' = (.result turn, db')) ∧
    (∀ now, replayCommittedTurn now (some key.1) (some key.2) db' = .result turn) ∧
    (∀ now ids a i, validateCommit a = .ok i → i.key = key → a.payloadHash ≠ a₀.payloadHash →
      ∃ e, e.code = .requestPayloadConflict ∧ commitTurn now ids a db' = (.error e, db')) := by
  obtain ⟨t, ids, a', i₀, row, hin, hv₀, hkey₀, hreply, hc⟩ := committed_of_fresh hfresh
  rw [hinput] at hin
  obtain ⟨rfl, hcall⟩ := Prod.mk.inj hin
  obtain ⟨rfl, rfl⟩ := Call.commitTurn.inj hcall
  rw [hturn] at hreply
  injection hreply with hreply
  injection hreply with hreply
  subst hreply
  have hargs₀ := validateCommit_ok hv₀
  have hs : ∃ n payload at_, row.state = .completed n payload at_ := ⟨_, _, _, hc.state⟩
  have hstart : Remembers key row e₀.after := by
    refine ⟨row, ?_, .refl row⟩
    rw [hc.turnRequests, Table.get?_put, if_pos (by rw [hc.key, hkey₀])]
  obtain ⟨r, hr, hsame⟩ := remembers_of_run hrun hstart hs hthere
  have hhash : some r.payloadHash = a₀.payloadHash := by
    rw [hsame.payloadHash, hc.payloadHash, hargs₀.payloadHash]
  have hstate := hsame.state.trans hc.state
  rw [← hsame.buildResult]
  refine ⟨?_, ?_, ?_⟩
  · intro now ids a i hv hkey heq
    have hsome : some i.payloadHash = some r.payloadHash := by
      rw [← (validateCommit_ok hv).payloadHash, heq, hhash]
    exact commitTurn_replays now ids hv (by rw [hkey]; exact hr) ⟨_, _, _, hstate⟩
      (Option.some.inj hsome).symm
  · intro now
    have huser : key.1 ≠ [] := by
      rw [← hkey₀]
      exact hargs₀.userId_ne
    exact replayCommittedTurn_replays now huser hr hstate hargs₀.replayPayload
  · intro now ids a i hv hkey hne
    refine ⟨_, rfl, commitTurn_conflicts now ids hv (by rw [hkey]; exact hr) ?_⟩
    intro heq
    apply hne
    rw [(validateCommit_ok hv).payloadHash, ← heq, hhash]

/-- The messages of the committed turn, pruned. -/
def messagesPruned : Event (exec sampleSha256) :=
  .of _ (sampleTimes, .pruneChatLogs fun _ => true) firstCommit.after

theorem replay_stable_sample : ∃ turn, firstCommit.reply = .commit (.result turn) ∧
    replayCommittedTurn 0 (some sampleUser) (some sampleRequest) messagesPruned.after = .result turn := by
  obtain ⟨ids, a, turn, -, hturn, -⟩ := freshCommit_iff.mp firstCommit_fresh
  have hthere : (messagesPruned.after.turnRequests.get? (sampleUser, sampleRequest)).isSome = true := by
    decide +kernel
  refine ⟨turn, hturn, ?_⟩
  exact (replay_stable firstCommit_fresh rfl hturn (.cons messagesPruned (.nil _))
    (fun e he => by obtain rfl := List.mem_singleton.mp he; exact hthere)).2.1 0

end Katherine.Cloud
