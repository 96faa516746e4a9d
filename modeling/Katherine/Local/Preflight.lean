import Katherine.Local.Atomic
import Katherine.Local.Reimport

/-!
# Pre-flight and admission

`check_request` and `reserve_request` answer the same question, one as two reads and one
inside a transaction with three exits. Both come down to `ledgerAnswer`: what the ledger
says about an id, if it says anything. The reads see it from any connection; the
transaction has to begin first, which it cannot while another one was left open.

That neither of them fails on a stored result is a matter of what is stored
(`Decodable`): each payload was written by an encoder whose output is read back.
-/

namespace Katherine.Local

open Py Sql

variable {sha256 : PyStr → PyStr}

/-! ## The two operations -/

/-- `reserve_request`. -/
def reserveRequest (env : Env) (requestId userMessage : PyVal) (s : LocalStore) :
    Except Err ReplayOutcome × LocalStore :=
  match both (validateRequestId requestId) (validateMessage userMessage "user_message") with
  | .error e => (.error e, s)
  | .ok p => (reserveBlock p.1 p.2 env.clock).run .sqlite env.thread env.fault s

theorem exec_reserveRequest (env : Env) (requestId userMessage : PyVal) (s : LocalStore) :
    exec sha256 env (.reserveRequest requestId userMessage) s =
      ((reserveRequest env requestId userMessage s).1.map .outcome,
        (reserveRequest env requestId userMessage s).2) := by
  simp only [exec, perform, reserveRequest]
  cases both (validateRequestId requestId) (validateMessage userMessage "user_message") <;> rfl

/-- What the ledger says about a request, if it has a row for it. -/
def ledgerAnswer (db : Db) (id message : PyStr) : Except Err (Option ReplayOutcome) :=
  match db.turnRequests.get? id with
  | none => .ok none
  | some row =>
      match row.status with
      | .completed => (answerCompleted db row message).map some
      | _ => .ok (some { status := .conflict })

theorem checkRequest_eq {requestId userMessage : PyVal} {id message : PyStr}
    (hargs : both (validateRequestId requestId) (validateMessage userMessage "user_message") = .ok (id, message))
    (db : Db) : checkRequest requestId userMessage db =
      (ledgerAnswer db id message).map fun o => o.getD { status := .fresh } := by
  simp only [both, bind_eq_ok] at hargs
  obtain ⟨id', hid, message', hmessage, hpair⟩ := hargs
  cases hpair
  simp only [checkRequest, hid, hmessage, ok_bind, ledgerAnswer]
  cases hrow : db.turnRequests.get? id with
  | none => rfl
  | some row =>
      simp only
      cases hstatus : row.status with
      | completed => cases answerCompleted db row message <;> rfl
      | pending => rfl
      | failed => rfl

theorem checkRequest_refused {requestId userMessage : PyVal} {e : Err}
    (hargs : both (validateRequestId requestId) (validateMessage userMessage "user_message") = .error e)
    (db : Db) : checkRequest requestId userMessage db = .error e := by
  unfold both at hargs
  cases hid : validateRequestId requestId with
  | error e' =>
      rw [hid] at hargs
      cases hargs
      rw [checkRequest, hid]
      rfl
  | ok id =>
      cases hmessage : validateMessage userMessage "user_message" with
      | error e' =>
          rw [hid, hmessage] at hargs
          cases hargs
          rw [checkRequest, hid, hmessage]
          rfl
      | ok message =>
          rw [hid, hmessage] at hargs
          cases hargs

/-- On an idle store the transaction answers as the ledger does, and reserves what is new. -/
theorem reserveRequest_idle {env : Env} {requestId userMessage : PyVal} {id message : PyStr}
    {s : LocalStore}
    (hargs : both (validateRequestId requestId) (validateMessage userMessage "user_message") = .ok (id, message))
    (hidle : s.tx = none) (hfault : env.fault = .none) :
    reserveRequest env requestId userMessage s =
      match ledgerAnswer s.db id message with
      | .error e => (.error e, s)
      | .ok none => (.ok { status := .reserved, historyGeneration := some s.db.historyGeneration },
          ⟨s.db.reserve id env.clock.sqlNow, none⟩)
      | .ok (some o) => (.ok o, s) := by
  have hs : (⟨s.db, none⟩ : LocalStore) = s := by rw [← hidle]
  simp only [reserveRequest, hargs, Block.run, hidle, hfault, reserveBlock, ledgerAnswer]
  cases hrow : s.db.turnRequests.get? id with
  | none => rfl
  | some row =>
      simp only
      cases hstatus : row.status with
      | completed =>
          simp only [hs]
          cases answerCompleted s.db row message <;> rfl
      | pending => simp only [hs]
      | failed => simp only [hs]

/-- With a transaction open it cannot begin. -/
theorem reserveRequest_open {env : Env} {requestId userMessage : PyVal} {p : PyStr × PyStr}
    {s : LocalStore} {x : Nat × Db}
    (hargs : both (validateRequestId requestId) (validateMessage userMessage "user_message") = .ok p)
    (hopen : s.tx = some x) : (reserveRequest env requestId userMessage s).1 = .error databaseError := by
  simp only [reserveRequest, hargs, Block.run, hopen]
  rfl

/-! ## Every stored result can be read -/

/-- Every completed row has a result. -/
def Decodable (db : Db) : Prop :=
  ∀ row ∈ db.turnRequests.rows, row.status = .completed → ∃ c, committedFromRow row = .ok c

/-- A row whose payload reads as an object. -/
theorem committedFromRow_ok {row : TurnRequest} {text : PyStr} {kvs : List (PyKey × PyVal)}
    (hrow : row.replayPayload = some text) (hread : loads text = some (.dict kvs)) :
    ∃ c, committedFromRow row = .ok c := by
  have hdecode : ∃ payload, decodeObject (row.replayPayload.getD []) = .ok payload := by
    rw [hrow, Option.getD_some, decodeObject]
    by_cases htext : text = []
    · exact ⟨_, if_pos htext⟩
    · rw [if_neg htext, hread]
      exact ⟨kvs, rfl⟩
  obtain ⟨payload, hpayload⟩ := hdecode
  rw [committedFromRow, hpayload]
  exact ⟨_, rfl⟩

/-- What the importer writes reads as an object. -/
theorem loads_dumpReplay {kvs : List (PyKey × PyVal)} {text : PyStr}
    (h : dumpReplay (.dict kvs) = .ok text) : ∃ kvs', loads text = some (.dict kvs') := by
  obtain ⟨hser, rfl⟩ := dumpReplay_eq_ok h
  exact ⟨_, loads_render (by decide) (writable_of_serialisable hser)⟩

/-- So does what a commit writes. -/
theorem loads_jsonDumps {kvs : List (PyKey × PyVal)} {text : PyStr}
    (h : jsonDumps (.dict kvs) = .ok text) : ∃ kvs', loads text = some (.dict kvs') :=
  ⟨_, loads_dumpsCompact (orRaise_eq_ok.mp h)⟩

theorem Passes.decodable {now : PyStr} {ts : List LegacyTurn} {db d : Db} {i k : Nat}
    (h : Passes sha256 now ts db i k d) (hok : Decodable db) : Decodable d := by
  induction h with
  | nil => exact hok
  | skip _ _ ih => exact ih hok
  | write _ hstorable _ ih =>
      refine ih fun row hmem hs => ?_
      rcases Table.mem_insertNew.mp hmem with hmem | ⟨rfl, -⟩
      · exact hok row hmem hs
      · obtain ⟨kvs, hread⟩ := loads_dumpReplay hstorable.replay
        exact committedFromRow_ok rfl hread

/-- **Every call but an import keeps the results readable.** -/
theorem decodable_change {db db' : Db} {call : Call} {reply : Reply}
    (hc : Change sha256 db call reply db') (himport : ∀ fixture, call ≠ .importLegacyFixture fixture)
    (h : Decodable db) : Decodable db' := by
  intro row hrow hs
  rcases completed_change hc himport hrow hs with hrow | ⟨a, c, hash, text, -, -, htext, hstored⟩
  · exact h row hrow hs
  · obtain ⟨kvs, hread⟩ := loads_jsonDumps htext
    exact committedFromRow_ok hstored hread

/-- One executed call. -/
theorem decodable_event (e : Event sha256) (h : Decodable e.before.db) : Decodable e.after.db := by
  by_cases hcall : ∃ fixture, e.call = .importLegacyFixture fixture
  · obtain ⟨fixture, hcall⟩ := hcall
    have hexec := e.executed
    rw [hcall] at hexec
    rcases perform_db hexec with hsame | ⟨turns, report, hturns, hbody, hresult⟩
    · rw [hsame]
      exact h
    · obtain ⟨i, k, hpasses, _⟩ := importLoop_eq_commit hbody
      exact hpasses.decodable h
  · rcases e.change with hsame | ⟨reply, -, hc⟩
    · rw [hsame]
      exact h
    · exact decodable_change hc (fun fixture hf => hcall ⟨fixture, hf⟩) h

/-- **Every stored result can be read**, in every run. -/
theorem decodable_reachable {s : LocalStore} (h : Reachable sha256 s) : Decodable s.db := by
  obtain ⟨es, hrun⟩ := h
  induction hrun with
  | nil =>
      intro row hrow
      cases hrow
  | snoc e _ ih => exact decodable_event e ih

/-- What the ledger says is then never an exception. -/
theorem Decodable.ledgerAnswer {db : Db} (h : Decodable db) (id message : PyStr) :
    ∃ o, ledgerAnswer db id message = .ok o := by
  unfold Local.ledgerAnswer
  cases hrow : db.turnRequests.get? id with
  | none => exact ⟨_, rfl⟩
  | some row =>
      simp only
      cases hstatus : row.status with
      | completed =>
          obtain ⟨c, hc⟩ := h row (Table.get?_mem hrow) hstatus
          simp only [answerCompleted, hc]
          cases storedMessageIs db row message <;> exact ⟨_, rfl⟩
      | pending => exact ⟨_, rfl⟩
      | failed => exact ⟨_, rfl⟩

theorem ledgerAnswer_ne_none {db : Db} {id message : PyStr} {row : TurnRequest}
    (hrow : db.turnRequests.get? id = some row) : ledgerAnswer db id message ≠ .ok none := by
  unfold ledgerAnswer
  rw [hrow]
  simp only
  cases hstatus : row.status with
  | completed => cases answerCompleted db row message <;> nofun
  | pending => nofun
  | failed => nofun

/-- And it is a conflict or a replay. -/
theorem ledgerAnswer_status {db : Db} {id message : PyStr} {o : ReplayOutcome}
    (h : ledgerAnswer db id message = .ok (some o)) :
    o.status = .conflict ∨ ∃ result, o.status = .replay ∧ o.committed = some result := by
  unfold ledgerAnswer at h
  cases hrow : db.turnRequests.get? id with
  | none =>
      rw [hrow] at h
      cases h
  | some row =>
      rw [hrow] at h
      simp only at h
      cases hstatus : row.status with
      | completed =>
          simp only [hstatus, answerCompleted] at h
          cases hsame : storedMessageIs db row message with
          | false =>
              rw [hsame] at h
              cases h
              exact .inl rfl
          | true =>
              rw [hsame] at h
              cases hc : committedFromRow row with
              | error e =>
                  rw [hc] at h
                  cases h
              | ok c =>
                  rw [hc] at h
                  cases h
                  exact .inr ⟨c, rfl, rfl⟩
      | pending =>
          rw [hstatus] at h
          cases h
          exact .inl rfl
      | failed =>
          rw [hstatus] at h
          cases h
          exact .inl rfl

/-! ## Agreement -/

/-- The call returned an outcome with this status. -/
def Answers (r : Except Err ReplayOutcome) (status : ReplayStatus) : Prop :=
  ∃ o, r = .ok o ∧ o.status = status

/-- It returned this result as a replay. -/
def AnswersReplay (r : Except Err ReplayOutcome) (result : CommittedTurn) : Prop :=
  ∃ o, r = .ok o ∧ o.status = .replay ∧ o.committed = some result

/-- **The pre-flight answer `c` and the admission `r`, which leaves the store at `s'`, agree.** -/
structure PreflightAgrees (s : LocalStore) (requestId : PyVal) (c r : Except Err ReplayOutcome)
    (s' : LocalStore) : Prop where
  fresh : Answers c .fresh ↔ Answers r .reserved
  replay : ∀ result, AnswersReplay c result ↔ AnswersReplay r result
  conflict : Answers c .conflict ↔ Answers r .conflict
  /-- Otherwise both raise, the same validation error. -/
  refused : (Answers c .fresh ∨ (∃ result, AnswersReplay c result) ∨ Answers c .conflict) ∨
    ∃ code message, c = .error (.validation code message) ∧ r = .error (.validation code message)
  /-- The store changes only by the new pending row of a reservation. -/
  store : s' = s ∨ (Answers r .reserved ∧ ∃ id row turnRequests, validateRequestId requestId = .ok id ∧
    s' = ⟨{ s.db with turnRequests }, none⟩ ∧ turnRequests.rows = s.db.turnRequests.rows ++ [row] ∧
    row.requestId = id ∧ row.status = .pending)

theorem answers_ok {o : ReplayOutcome} {status : ReplayStatus} :
    Answers (.ok o) status ↔ o.status = status := by
  constructor
  · rintro ⟨o', ho, hstatus⟩
    cases ho
    exact hstatus
  · exact fun h => ⟨o, rfl, h⟩

theorem not_answers_error {e : Err} {status : ReplayStatus} : ¬ Answers (.error e) status := by
  rintro ⟨_, h, _⟩
  cases h

theorem not_answersReplay_error {e : Err} {result : CommittedTurn} :
    ¬ AnswersReplay (.error e) result := by
  rintro ⟨_, h, _⟩
  cases h

theorem answersReplay_ok {o : ReplayOutcome} {result : CommittedTurn} :
    AnswersReplay (.ok o) result ↔ o.status = .replay ∧ o.committed = some result := by
  constructor
  · rintro ⟨o', ho, h⟩
    cases ho
    exact h
  · exact fun h => ⟨o, rfl, h⟩

/-- Both raise the same validation error. -/
theorem PreflightAgrees.of_refused {s : LocalStore} {requestId : PyVal} {code : ErrorCode}
    {message : String} : PreflightAgrees s requestId (.error (.validation code message))
      (.error (.validation code message)) s where
  fresh := iff_of_false not_answers_error not_answers_error
  replay _ := Iff.rfl
  conflict := Iff.rfl
  refused := .inr ⟨code, message, rfl, rfl⟩
  store := .inl rfl

/-- Both give the answer the ledger has. -/
theorem PreflightAgrees.of_known {s : LocalStore} {requestId : PyVal} {o : ReplayOutcome}
    (h : o.status = .conflict ∨ ∃ result, o.status = .replay ∧ o.committed = some result) :
    PreflightAgrees s requestId (.ok o) (.ok o) s where
  fresh := by
    rw [answers_ok, answers_ok]
    rcases h with h | ⟨_, h, _⟩ <;> rw [h] <;> decide
  replay _ := Iff.rfl
  conflict := Iff.rfl
  refused := by
    rcases h with h | ⟨result, h⟩
    · exact .inl (.inr (.inr (answers_ok.mpr h)))
    · exact .inl (.inr (.inl ⟨result, answersReplay_ok.mpr h⟩))
  store := .inl rfl

/-- The id is new: one call says so, the other reserves it. -/
theorem PreflightAgrees.of_new {s : LocalStore} {requestId : PyVal} {id sqlNow : PyStr}
    (hid : validateRequestId requestId = .ok id) (habsent : s.db.turnRequests.get? id = none) :
    PreflightAgrees s requestId (.ok { status := .fresh })
      (.ok { status := .reserved, historyGeneration := some s.db.historyGeneration })
      ⟨s.db.reserve id sqlNow, none⟩ where
  fresh := iff_of_true (answers_ok.mpr rfl) (answers_ok.mpr rfl)
  replay result := by rw [answersReplay_ok, answersReplay_ok]; simp
  conflict := by rw [answers_ok, answers_ok]; simp
  refused := .inl (.inl (answers_ok.mpr rfl))
  store := by
    refine .inr ⟨answers_ok.mpr rfl, id, reservationRow id s.db.historyGeneration sqlNow, _, hid, rfl, ?_,
      rfl, rfl⟩
    rw [Table.insertNew]
    split
    · rfl
    · next hsome => exact absurd habsent hsome

/-- The transaction cannot begin: it raises what the reads never do. -/
theorem PreflightAgrees.not_of_open {s s' : LocalStore} {requestId : PyVal} {c : Except Err ReplayOutcome} :
    ¬ PreflightAgrees s requestId c (.error databaseError) s' := by
  intro h
  rcases h.refused with (hfresh | ⟨result, hreplay⟩ | hconflict) | ⟨_, _, _, hr⟩
  · exact not_answers_error (h.fresh.mp hfresh)
  · exact not_answersReplay_error ((h.replay result).mp hreplay)
  · exact not_answers_error (h.conflict.mp hconflict)
  · cases hr

/-! ## When they agree -/

/-- What the two argument checks raise. -/
def Err.isValidation : Err → Bool
  | .validation _ _ => true
  | _ => false

theorem both_raises (requestId userMessage : PyVal) : Raises Err.isValidation
    (both (validateRequestId requestId) (validateMessage userMessage "user_message")) :=
  .bind (.bind (.orRaise rfl) fun _ => .bind (.require rfl) fun _ => .bind (.require rfl) fun _ => .ok _)
    fun _ => .bind (.bind (.orRaise rfl) fun _ => .bind (.require rfl) fun _ => .ok _) fun _ => .ok _

/-- **Pre-flight and admission agree exactly on an idle store**, and where the arguments are
refused anyway. -/
theorem preflight_agrees_iff {s : LocalStore} (hreach : Reachable sha256 s) {env : Env}
    (hfault : env.fault = .none) (requestId userMessage : PyVal) :
    PreflightAgrees s requestId (checkRequest requestId userMessage (s.view env.thread))
        (reserveRequest env requestId userMessage s).1 (reserveRequest env requestId userMessage s).2 ↔
      s.tx = none ∨
        ∃ e, both (validateRequestId requestId) (validateMessage userMessage "user_message") = .error e := by
  cases hargs : both (validateRequestId requestId) (validateMessage userMessage "user_message") with
  | error e =>
      have hvalidation := both_raises requestId userMessage e hargs
      refine iff_of_true ?_ (.inr ⟨e, rfl⟩)
      rw [checkRequest_refused hargs]
      simp only [reserveRequest, hargs]
      cases e <;> first | exact .of_refused | cases hvalidation
  | ok p =>
      obtain ⟨id, message⟩ := p
      have hid : validateRequestId requestId = .ok id := by
        simp only [both, bind_eq_ok] at hargs
        obtain ⟨_, hid, _, _, hpair⟩ := hargs
        cases hpair
        exact hid
      cases htx : s.tx with
      | some x =>
          refine iff_of_false ?_ (by rintro (h | ⟨_, h⟩) <;> cases h)
          rw [reserveRequest_open hargs htx]
          exact PreflightAgrees.not_of_open
      | none =>
          refine iff_of_true ?_ (.inl rfl)
          have hview : s.view env.thread = s.db := by simp only [Store.view, htx]
          rw [hview, checkRequest_eq hargs, reserveRequest_idle hargs htx hfault]
          obtain ⟨o, ho⟩ := (decodable_reachable hreach).ledgerAnswer id message
          rw [ho]
          cases o with
          | none =>
              refine .of_new hid ?_
              cases hrow : s.db.turnRequests.get? id with
              | none => rfl
              | some row => exact absurd ho (ledgerAnswer_ne_none hrow)
          | some o => exact .of_known (ledgerAnswer_status ho)

/-- The imported turn, asked for again. -/
theorem preflight_agrees_iff_dated :
    PreflightAgrees datedStore (.str (py "l1"))
      (checkRequest (.str (py "l1")) (.str (py "oi")) (datedStore.view 0))
      (reserveRequest sampleEnv (.str (py "l1")) (.str (py "oi")) datedStore).1
      (reserveRequest sampleEnv (.str (py "l1")) (.str (py "oi")) datedStore).2 :=
  (preflight_agrees_iff ⟨_, run_trace [datedImport] .init⟩ (rfl : sampleEnv.fault = .none) _ _).mpr
    (.inl (datedStore_digest []).1)

/-- The store after a `store_memory` that left its transaction open. -/
def openStore : LocalStore := execAll sampleSha256 [(sampleEnv, unserialisableMemory)] .init

/-- **In that store an id is free and cannot be reserved.** -/
theorem open_transaction_disagrees :
    Reachable sampleSha256 openStore ∧
      Answers (checkRequest (.str (py "r1")) (.str (py "oi")) (openStore.view 0)) .fresh ∧
      (reserveRequest sampleEnv (.str (py "r1")) (.str (py "oi")) openStore).1 = .error databaseError ∧
      ¬ PreflightAgrees openStore (.str (py "r1"))
        (checkRequest (.str (py "r1")) (.str (py "oi")) (openStore.view 0))
        (reserveRequest sampleEnv (.str (py "r1")) (.str (py "oi")) openStore).1
        (reserveRequest sampleEnv (.str (py "r1")) (.str (py "oi")) openStore).2 := by
  have hopen : openStore.tx.isSome = true := by decide +kernel
  obtain ⟨x, hx⟩ := Option.isSome_iff_exists.mp hopen
  have hargs : both (validateRequestId (.str (py "r1"))) (validateMessage (.str (py "oi")) "user_message") =
      .ok (py "r1", py "oi") := rfl
  have hrefused : (reserveRequest sampleEnv (.str (py "r1")) (.str (py "oi")) openStore).1 =
      .error databaseError := reserveRequest_open hargs hx
  refine ⟨⟨_, run_trace [(sampleEnv, unserialisableMemory)] .init⟩, ⟨_, rfl, rfl⟩, hrefused, ?_⟩
  rw [hrefused]
  exact PreflightAgrees.not_of_open

end Katherine.Local
