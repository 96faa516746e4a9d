import Katherine.Runtime.Updates

/-!
# What a turn answers is in the ledger

A call of `send_turn` returns the answer of a turn in two ways: its reservation found the turn
completed, or its own commit returned. The first answer is read in the ledger. So is the second,
once it is known that the commit was the first of its turn, and that it did not return the row of
another turn with the same digest. The digests of the ledger are known (`DigestInv`), but a commit
looks for its row outside its transaction, and so may see what a transaction left open has written;
`Drafts` says that these are imported rows at most.
-/

namespace Katherine.Runtime

open Py Sql Local

/-- The ledger answers `requestId`, asked with `message`, by `response`. -/
def Answered (db : Db) (requestId message response : PyStr) : Prop :=
  ∃ row res, row.requestId = requestId ∧ Completed db row message ∧
    committedFromRow row = .ok res ∧ res.response = .str response

variable {sha256 : PyStr → PyStr}

/-! ## A replay -/

/-- **A replay is read in the ledger**, and leaves it as it is. -/
theorem reserve_answered {env : Env} {id message response : PyStr} {s s' : LocalStore} {o : ReplayOutcome}
    {res : CommittedTurn}
    (hexec : exec sha256 env (.reserveRequest (.str id) (.str message)) s = (.ok (.outcome o), s'))
    (hstatus : o.status = .replay) (hres : o.committed = some res) (hresponse : res.response = .str response) :
    Answered s'.db id message response := by
  rw [exec] at hexec
  obtain ⟨⟨id', message'⟩, o', hargs, ho, -, -, hbody⟩ := perform_ok hexec
  cases ho
  simp only [both, bind_eq_ok] at hargs
  obtain ⟨id₀, hid, message₀, hmessage, hpair⟩ := hargs
  cases hpair
  cases validateRequestId_str hid
  cases validateMessage_str hmessage
  rcases hbody with hcommit | ⟨hrollback, hdb⟩
  · rcases reserveBlock_commit hcommit with ⟨-, -, rfl⟩ | ⟨-, hconflict⟩
    · cases hstatus
    · rw [hconflict] at hstatus
      cases hstatus
  · rw [hdb]
    simp only [reserveBlock] at hrollback
    split at hrollback
    · cases hrollback
    · rename_i row hrow
      split at hrollback
      · cases hrollback
      · rename_i hcompleted
        have hanswer : answerCompleted s.db row message = .ok o := Outcome.rollback.inj hrollback
        unfold answerCompleted at hanswer
        split at hanswer
        · rename_i hstored
          obtain ⟨res', hfrom, hpure⟩ := bind_eq_ok.mp hanswer
          cases hpure
          cases hres
          refine ⟨row, res, Table.get?_key hrow, ⟨?_, hcompleted, ?_⟩, hfrom, hresponse⟩
          · rw [Table.get?_key hrow]
            exact hrow
          · unfold storedMessageIs at hstored
            split at hstored
            · rename_i c hc
              obtain ⟨i, hi, hget⟩ := Option.bind_eq_some_iff.mp hc
              exact ⟨i, c, hi, hget, of_decide_eq_true hstored⟩
            · cases hstored
        · cases hanswer
          cases hstatus
      · cases hrollback
        cases hstatus

/-- A new reservation carries its generation. -/
theorem reserved_generation {env : Env} {requestId message : PyVal} {s s' : LocalStore} {o : ReplayOutcome}
    (hexec : exec sha256 env (.reserveRequest requestId message) s = (.ok (.outcome o), s'))
    (hstatus : o.status = .reserved) : ∃ g, o.historyGeneration = some g := by
  rw [exec] at hexec
  obtain ⟨_, o', _, ho, -, -, hbody⟩ := perform_ok hexec
  cases ho
  rcases hbody with hcommit | ⟨hrollback, -⟩
  · rcases reserveBlock_commit hcommit with ⟨-, -, rfl⟩ | ⟨-, hconflict⟩
    · exact ⟨_, rfl⟩
    · rw [hconflict] at hstatus
      cases hstatus
  · simp only [reserveBlock] at hrollback
    split at hrollback
    · cases hrollback
    · split at hrollback
      · cases hrollback
      · have hanswer := Outcome.rollback.inj hrollback
        unfold answerCompleted at hanswer
        split at hanswer
        · obtain ⟨_, _, hpure⟩ := bind_eq_ok.mp hanswer
          cases hpure
          cases hstatus
        · cases hanswer
          cases hstatus
      · cases hrollback
        cases hstatus

/-! ## Open transactions -/

/-- What a transaction left open has added to the ledger. -/
def Drafts (sha256 : PyStr → PyStr) (db d : Db) : Prop :=
  ∀ row ∈ d.turnRequests.rows, row.status = .completed →
    row ∈ db.turnRequests.rows ∨ ∃ t : LegacyTurn, legacyHash sha256 t = .ok row.payloadHash

theorem Drafts.of_subset {db d : Db} (h : ∀ row ∈ d.turnRequests.rows, row ∈ db.turnRequests.rows) :
    Drafts sha256 db d := fun row hrow _ => .inl (h row hrow)

theorem Drafts.refl (db : Db) : Drafts sha256 db db := .of_subset fun _ hrow => hrow

theorem importLoop_drafts {now : PyStr} : ∀ {ts : List LegacyTurn} {i k : Nat} {db d : Db} {e : Err},
    importLoop sha256 now ts i k db = .raise e d → Drafts sha256 db d
  | [], _, _, _, _, _, h => by cases h
  | t :: ts, i, k, db, d, e, h => by
      simp only [importLoop, Outcome.attempt_eq_raise] at h
      rcases h with ⟨_, rfl⟩ | ⟨_, _, h⟩
      · exact .refl _
      split at h
      · rcases Outcome.attempt_eq_raise.mp h with ⟨_, rfl⟩ | ⟨hash, _, h⟩
        · exact .refl _
        · split at h
          · cases h
            exact .refl _
          · exact importLoop_drafts h
      · simp only [Outcome.attempt_eq_raise] at h
        rcases h with ⟨_, rfl⟩ | ⟨_, _, ⟨_, rfl⟩ | ⟨_, _, ⟨_, rfl⟩ | ⟨_, _, ⟨_, rfl⟩ |
          ⟨hash, hhash, ⟨_, rfl⟩ | ⟨text, _, ⟨_, rfl⟩ | ⟨_, _, h⟩⟩⟩⟩⟩⟩
        · exact .refl _
        · exact .refl _
        · exact .of_subset fun _ hrow => hrow
        · exact .of_subset fun _ hrow => hrow
        · exact .of_subset fun _ hrow => hrow
        · exact .of_subset fun _ hrow => hrow
        · -- the row of this turn is the only one that this round added
          intro row hrow hs
          rcases importLoop_drafts h row hrow hs with hrow | hlegacy
          · rcases Table.mem_insertNew.mp hrow with hrow | ⟨rfl, _⟩
            · exact .inl hrow
            · exact .inr ⟨t, hhash⟩
          · exact .inr hlegacy

/-- How a call leaves a transaction open, whatever is asked of its contents. -/
theorem perform_open {α β : Type} {P : Db → Prop} {env : Env} {args : Except Err β}
    {block : β → Block Db Err α} {reply : α → Reply} {s s' : LocalStore} {r : Except Err Reply}
    (h : perform env args block reply s = (r, s')) (hraw : ∀ b, ((block b).catches .sqlite).isSome)
    (hraise : ∀ b e d, (block b).body s.db = .raise e d → P d) :
    ∀ t d, s'.tx = some (t, d) → s.tx = some (t, d) ∨ P d := by
  intro t d htx'
  rcases perform_cases h with ⟨_, _, _, rfl⟩ | ⟨b, r₀, _, hrun, _⟩
  · exact .inl htx'
  · rcases Block.run_cases hrun with ⟨_, _, _, _, _, rfl⟩ | ⟨_, _, rfl⟩ | ⟨e, _, _, hcase⟩
    · cases htx'
    · cases htx'
    · rcases hcase with htx | htx | ⟨d', hbody, _, htx⟩ | ⟨hc, _⟩
      · rw [htx] at htx'
        cases htx'
      · exact .inl (htx ▸ htx')
      · rw [htx] at htx'
        cases htx'
        exact .inr (hraise b e _ hbody)
      · have := hraw b
        rw [hc] at this
        cases this

/-- **What is left open** was open before, or adds imported rows to the ledger at most. -/
theorem exec_drafts {env : Env} {call : Call} {s s' : LocalStore} {r : Except Err Reply}
    (h : exec sha256 env call s = (r, s')) :
    ∀ t d, s'.tx = some (t, d) → s.tx = some (t, d) ∨ Drafts sha256 s.db d := by
  cases call with
  | reserveRequest requestId userMessage =>
      rw [exec] at h
      refine perform_open h (fun _ => rfl) fun b e d hbody => ?_
      simp only [reserveBlock] at hbody
      split at hbody
      · cases hbody
      · split at hbody <;> cases hbody
  | commitTurn a =>
      simp only [exec] at h
      have hs : commitTurn sha256 env a s = ((commitTurn sha256 env a s).1, s') :=
        Prod.ext rfl (Prod.mk.inj h).2
      intro t d htx
      rcases commitTurn_tx hs with hnone | ⟨hsame, _⟩
      · rw [hnone] at htx
        cases htx
      · exact .inl (hsame ▸ htx)
  | releaseRequest requestId historyGeneration =>
      rw [exec] at h
      refine perform_open h (fun _ => rfl) fun b e d hbody => ?_
      simp only [releaseBlock, Outcome.attempt_eq_raise] at hbody
      rcases hbody with ⟨_, rfl⟩ | ⟨_, _, hbody⟩
      · exact .refl _
      · cases hbody
  | storeMemory content metadata =>
      rw [exec] at h
      refine perform_open h (fun _ => rfl) fun b e d hbody => ?_
      simp only [storeMemoryBlock, Outcome.attempt_eq_raise] at hbody
      rcases hbody with ⟨_, rfl⟩ | ⟨_, _, ⟨_, rfl⟩ | ⟨_, _, ⟨_, rfl⟩ | ⟨_, _, ⟨_, rfl⟩ | ⟨_, _, hbody⟩⟩⟩⟩
      · exact .refl _
      · exact .refl _
      · exact .refl _
      · exact .refl _
      · cases hbody
  | deleteHistory =>
      rw [exec] at h
      refine perform_open h (fun _ => rfl) fun b e d hbody => ?_
      have hgone : Drafts sha256 s.db s.db.clearHistory := by
        refine .of_subset fun row hrow => ?_
        rw [(clearHistory_empty s.db).2] at hrow
        cases hrow
      simp only [deleteHistoryBlock, Outcome.attempt_eq_raise] at hbody
      rcases hbody with ⟨_, rfl⟩ | ⟨_, _, ⟨_, rfl⟩ | ⟨_, _, hbody⟩⟩
      · exact hgone
      · exact hgone
      · cases hbody
  | deleteMemories =>
      rw [exec] at h
      refine perform_open h (fun _ => rfl) fun b e d hbody => ?_
      simp only [deleteMemoriesBlock, Outcome.attempt_eq_raise] at hbody
      rcases hbody with ⟨_, rfl⟩ | ⟨_, _, hbody⟩
      · exact .of_subset fun _ hrow => hrow
      · cases hbody
  | reset field neutral =>
      rw [exec] at h
      refine perform_open h (fun _ => rfl) fun b e d hbody => ?_
      simp only [resetBlock, Outcome.attempt_eq_raise] at hbody
      rcases hbody with ⟨_, rfl⟩ | ⟨_, _, ⟨_, rfl⟩ | ⟨_, _, ⟨_, rfl⟩ | ⟨_, _, ⟨_, rfl⟩ | ⟨_, _, hbody⟩⟩⟩⟩
      · exact .refl _
      · exact .refl _
      · exact .refl _
      · exact .of_subset fun _ hrow => hrow
      · cases hbody
  | trimHistory keepLast =>
      rw [exec] at h
      refine perform_open h (fun _ => rfl) fun b e d hbody => ?_
      simp only [trimBlock, Outcome.attempt_eq_raise] at hbody
      rcases hbody with ⟨_, rfl⟩ | ⟨_, _, hbody⟩
      · exact .refl _
      · cases hbody
  | importLegacyFixture fixture =>
      rw [exec] at h
      exact perform_open h (fun _ => rfl) fun b e d hbody => importLoop_drafts hbody
  | reopen =>
      simp only [exec] at h
      intro t d htx
      split at h
      · cases h
        cases htx
      · cases h
        cases htx

/-! ## A commit -/

variable {ι : Type} {next : LoadedUserState → ι → Option (EmotionalStateV1 × RelationshipStateV1)}

theorem DigestInv.mono {ids ids' : List PyStr} {db : Db} (h : DigestInv sha256 ids db)
    (hsub : ∀ m ∈ ids, m ∈ ids') : DigestInv sha256 ids' db :=
  fun row hrow hs => (h row hrow hs).mono hsub

theorem DigestInv.drafts {ids : List PyStr} {db d : Db} (h : DigestInv sha256 ids db)
    (hd : Drafts sha256 db d) : DigestInv sha256 ids d := by
  intro row hrow hs
  rcases hd row hrow hs with hrow | hlegacy
  · exact h row hrow hs
  · exact .inr hlegacy

/-- A step opens a transaction over the contents it found. -/
theorem Step.drafts {w w' : World} {a : Action} (h : Step sha256 w a w') :
    ∀ t d, w'.store.tx = some (t, d) → w.store.tx = some (t, d) ∨ Drafts sha256 w.store.db d := by
  intro t d htx
  cases h with
  | reserve _ hexec => exact exec_drafts hexec t d htx
  | refuse hexec _ => exact exec_drafts hexec t d htx
  | commit _ _ _ hexec => exact exec_drafts hexec t d htx
  | release _ _ _ hexec => exact exec_drafts hexec t d htx
  | other _ hexec => exact exec_drafts hexec t d htx
  | reopen hexec => exact exec_drafts hexec t d htx
  | _ => exact .inl htx

/-- Whatever a connection sees, it knows the digests of the completed rows. -/
theorem digestInv_view {ids : List PyStr} {w : World} (h : TurnRun next sha256 ids w) (t : Nat) :
    DigestInv sha256 ids (w.store.view t) := by
  have hopen : ∀ t d, w.store.tx = some (t, d) → DigestInv sha256 ids d := by
    induction h with
    | init =>
        intro t d htx
        cases htx
    | step hrun _ hstep ih =>
        intro t d htx
        rcases hstep.drafts t d htx with htx | hdrafts
        · exact ih t d htx
        · exact (digestInv_turnRun hrun).drafts hdrafts
    | commit hrun _ _ _ _ hstep ih =>
        intro t d htx
        have hsub : ∀ ids : List PyStr, ∀ id, ∀ m ∈ ids, m ∈ id :: ids :=
          fun ids id m hm => List.mem_cons_of_mem id hm
        rcases hstep.drafts t d htx with htx | hdrafts
        · exact (ih t d htx).mono (hsub _ _)
        · exact ((digestInv_turnRun hrun).drafts hdrafts).mono (hsub _ _)
  unfold Store.view
  split
  · rename_i t' d htx
    split
    · exact hopen t' d htx
    · exact digestInv_turnRun h
  · exact digestInv_turnRun h

/-- **A commit that returned is in the ledger**, with what it returned, and with the message and the
response of its own turn. -/
theorem commit_answered {ids : List PyStr} {w : World} (hrun : TurnRun next sha256 ids w)
    (hsha : Set.InjOn sha256 (canonicalTexts ∪ legacyTexts)) {t : Turn} {state : LoadedUserState}
    {new : EmotionalStateV1 × RelationshipStateV1} {message : PyStr} {out : TurnOutput}
    (hfresh : out.messageId ∉ ids) {env : Env} {res : CommittedTurn} {s : LocalStore}
    (hexec : exec sha256 env (t.commitCall (turnArgs state new message out)) w.store = (.ok (.committed res), s)) :
    res.response = .str out.response ∧ Answered s.db t.requestId message out.response := by
  let e : Event sha256 := ⟨env, _, _, _, _, hexec⟩
  obtain ⟨a, ha⟩ : ∃ a, t.commitCall (turnArgs state new message out) = .commitTurn a := ⟨_, rfl⟩
  have hcall : e.call = .commitTurn a := ha
  obtain ⟨r, hr, hmap⟩ := e.commitTurn_eq hcall
  have hresult : Except.ok (Reply.committed res) = r.map Reply.committed := hmap
  cases r with
  | error err => cases hresult
  | ok res' =>
      cases hresult
      obtain ⟨c, hash, hinput, hid, ⟨row, hrow, hs, hhash, _, _⟩ | ⟨htx, -, hbody⟩⟩ := commitTurn_ok sha256 hr
      · -- the row would have the digest of a turn that has yet to commit
        have hspent := digestInv_view hrun env.thread row (Table.get?_mem hrow) hs
        rw [hhash] at hspent
        exact absurd hspent (not_spent hsha hfresh ha hinput)
      · have hfirst : e.firstCommit = some res := by
          obtain ⟨row, _, _, _, _, hrow, hpending, _⟩ := commitBlock_commit hbody
          have hview : (e.before.view e.env.thread).turnRequests.get? res.requestId = some row := by
            rw [hid, Store.view, htx]
            exact hrow
          unfold Event.firstCommit
          rw [hcall, show e.result = .ok (.committed res) from rfl]
          dsimp only
          rw [hview]
          show (if row.status = .completed then none else some res) = some res
          rw [hpending]
          rfl
        obtain ⟨a', c', hash', row, hcall', hinput', hrow, hcompleted⟩ := e.firstCommit_row hfirst
        rw [hcall] at hcall'
        cases hcall'
        cases hinput.symm.trans hinput'
        obtain ⟨hjson, hrequest, -, -, hreplay, -⟩ := turnArgs_input ha hinput
        have hacc := ((commitInput_eq_ok sha256).mp hinput).1
        have hresponse : res.response = .str out.response := by
          rw [hrow.result, hreplay]
          rfl
        have hmessage : c.userMessage = message := by
          cases ha
          have := validateMessage_str hacc.userMessage
          exact (PyVal.str.inj this).symm
        refine ⟨hresponse, row, res.canon, hrow.requestId.trans hrequest, hmessage ▸ hcompleted,
          committedFromRow_canon hacc hrow hjson.replayPayload, ?_⟩
        rw [CommittedTurn.canon, hresponse]
        rfl

end Katherine.Runtime
