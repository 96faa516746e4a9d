import Katherine.Local.Revision

/-!
# Deleting the history is a fence

The history generation counts the `delete_history` calls. A turn that was admitted
in generation `g` can do nothing to the tables once the count has passed `g`: its
commit compares the count inside the transaction, and its release asks for the
marker of `g`, which no pending row carries any more.

The second half is about provenance. Right after the delete the history tables are
empty, and `FenceInv` follows every row that appears in them afterwards back to a
reservation made since, or to an import.
-/

namespace Katherine.Local

open Py Sql

variable {sha256 : PyStr → PyStr}

/-! ## Generations only grow -/

theorem Imports.generation {db db' : Db} (h : Imports sha256 db db') :
    db'.historyGeneration = db.historyGeneration := by
  induction h with
  | refl => rfl
  | step _ _ _ ih => rw [ih]; rfl

/-- Only `delete_history` moves the generation, by one. -/
theorem generation_change {db db' : Db} {call : Call} {reply : Reply}
    (hc : Change sha256 db call reply db') :
    (call = .deleteHistory ∧ db'.historyGeneration = db.historyGeneration + 1) ∨
      (call ≠ .deleteHistory ∧ db'.historyGeneration = db.historyGeneration) := by
  cases hc with
  | deleteHistory =>
      refine .inl ⟨rfl, ?_⟩
      rw [historyGeneration_audit, if_pos rfl]
      rfl
  | deleteMemories =>
      refine .inr ⟨by simp, ?_⟩
      rw [historyGeneration_audit, if_neg (by decide)]
      rfl
  | @reset field _ _ _ _ _ _ _ _ _ _ _ _ =>
      refine .inr ⟨by simp, ?_⟩
      rw [Db.reset, historyGeneration_audit, if_neg field.operation_ne_deleteHistory]
      rfl
  | importFixture himports => exact .inr ⟨by simp, himports.generation⟩
  | _ => exact .inr ⟨by simp, rfl⟩

theorem Event.generation_le (e : Event sha256) :
    e.before.db.historyGeneration ≤ e.after.db.historyGeneration := by
  rcases e.change with hdb | ⟨reply, _, hc⟩
  · rw [hdb]
  · rcases generation_change hc with ⟨_, h⟩ | ⟨_, h⟩ <;> omega

theorem Run.generation_le {s s' : LocalStore} {es : List (Event sha256)}
    (h : Run sha256 s es s') : s.db.historyGeneration ≤ s'.db.historyGeneration := by
  induction h with
  | nil => exact le_rfl
  | snoc e _ ih => exact ih.trans e.generation_le

/-- The run up to an event of it. -/
theorem Run.before {s s' : LocalStore} {es : List (Event sha256)} (h : Run sha256 s es s')
    {e : Event sha256} (he : e ∈ es) : ∃ pre post, es = pre ++ e :: post ∧
      Run sha256 s pre e.before ∧ Run sha256 e.after post s' := by
  induction h with
  | nil => cases he
  | snoc e' h' ih =>
      rcases List.mem_append.mp he with he | he
      · obtain ⟨pre, post, rfl, hpre, hpost⟩ := ih he
        exact ⟨pre, post ++ [e'], by simp, hpre, .snoc e' hpost⟩
      · obtain rfl : e = e' := by simpa using he
        exact ⟨_, [], rfl, h', .nil⟩

/-! ## Reservations -/

/-- The call reserved `id` in generation `g`. -/
def Event.Reserved (e : Event sha256) (id : PyStr) (g : Nat) : Prop :=
  ∃ requestId userMessage committed, e.call = .reserveRequest requestId userMessage ∧
    validateRequestId requestId = .ok id ∧
    e.result = .ok (.outcome ⟨.reserved, committed, some g⟩)

/-- A reservation is a change of the contents, in the current generation. -/
theorem Event.Reserved.change {e : Event sha256} {id : PyStr} {g : Nat} (h : e.Reserved id g) :
    e.before.tx = none ∧ e.before.db.turnRequests.get? id = none ∧
      g = e.before.db.historyGeneration ∧
      e.after = ⟨e.before.db.reserve id e.env.clock.sqlNow, none⟩ := by
  obtain ⟨requestId, userMessage, committed, hcall, hid, hres⟩ := h
  have hx := e.executed
  rw [hcall, exec, hres] at hx
  obtain ⟨⟨id', m⟩, o, hargs, ho, htx, htx', hbody⟩ := perform_ok hx
  simp only [both, bind_eq_ok] at hargs
  obtain ⟨id'', hid', m', _, hpair⟩ := hargs
  cases hpair
  rw [hid] at hid'
  cases hid'
  cases ho
  rcases hbody with hbody | ⟨hbody, _⟩
  · rcases reserveBlock_commit hbody with ⟨habsent, hdb, ho⟩ | ⟨_, hstatus⟩
    · cases ho
      refine ⟨htx, habsent, rfl, ?_⟩
      rw [← hdb, ← htx']
    · cases hstatus
  · -- the answers that roll back are a replay or a conflict
    exfalso
    simp only [reserveBlock] at hbody
    split at hbody
    · cases hbody
    · split at hbody
      · cases hbody
      · injection hbody with hbody
        simp only [answerCompleted] at hbody
        split at hbody
        · simp only [bind_eq_ok] at hbody
          obtain ⟨_, _, hbody⟩ := hbody
          cases hbody
        · cases hbody
      · injection hbody with hbody
        cases hbody

/-! ## A turn from before the fence -/

theorem validateHistoryGeneration_nat {g g' : Nat}
    (h : validateHistoryGeneration (.int g) = .ok g') : g' = g := by
  simp only [validateHistoryGeneration, PyVal.nat?, orRaise_eq_ok] at h
  simpa using h.symm

/-- **A commit of an earlier generation writes nothing.** -/
theorem commit_fenced {env : Env} {a : CommitArgs} {g : Nat} {s s' : LocalStore}
    {r : Except Err Reply} (h : exec sha256 env (.commitTurn a) s = (r, s'))
    (ha : a.historyGeneration = .int g) (hg : g < s.db.historyGeneration) : s'.db = s.db := by
  rcases exec_change sha256 h with hdb | ⟨reply, _, hc⟩
  · exact hdb
  · exfalso
    generalize s'.db = after at hc
    cases hc with
    | commit hinput _ _ hgen _ _ _ _ _ _ =>
        have hv := ((commitInput_eq_ok sha256).mp hinput).1.historyGeneration
        rw [ha] at hv
        have := validateHistoryGeneration_nat hv
        omega

/-- **A release of an earlier generation removes nothing.** -/
theorem release_fenced {env : Env} {requestId : PyVal} {g : Nat} {s s' : LocalStore}
    {r : Except Err Reply} (h : exec sha256 env (.releaseRequest requestId (.int g)) s = (r, s'))
    (hl : LedgerInv s.db) (hg : g < s.db.historyGeneration) : s'.db = s.db := by
  rcases exec_change sha256 h with hdb | ⟨reply, _, hc⟩
  · exact hdb
  · generalize hafter : s'.db = after at hc
    cases hc with
    | @release _ _ id g' _ hg' =>
        obtain rfl := validateHistoryGeneration_nat hg'
        -- a pending row has the marker of the current generation, which is another one
        have hnone : ∀ x ∈ s.db.turnRequests.rows,
            (decide (x.requestId = id) && decide (x.status = .pending)
              && decide (x.payloadHash = reservationMarker g')) = false := by
          intro x hx
          by_cases hp : x.status = .pending
          · have hm := hl.marker x hx hp
            have hne : x.payloadHash ≠ reservationMarker g' := by
              rw [hm]
              intro heq
              have := reservationMarker_injective heq
              omega
            simp [hne]
          · simp [hp]
        have hturns := Table.deleteWhere_eq_self s.db.turnRequests hnone
        have houtbox : ∀ e ∈ s.db.outboxEvents.rows,
            (s.db.turnRequests.get? e.turnRequestId).any (fun x =>
              decide (x.requestId = id) && decide (x.status = .pending)
                && decide (x.payloadHash = reservationMarker g')) = false := by
          intro e _
          cases hx : s.db.turnRequests.get? e.turnRequestId with
          | none => rfl
          | some x => exact hnone x (Table.get?_mem hx)
        have hout := Table.deleteWhere_eq_self s.db.outboxEvents houtbox
        show s.db.deleteTurns _ = s.db
        rw [Db.deleteTurns, hturns, hout]

/-! ## What appears behind the fence -/

/-- Some call of the run reserved `id`. -/
def ReservedIn (es : List (Event sha256)) (id : PyStr) : Prop := ∃ e ∈ es, ∃ g, e.Reserved id g

def Event.isImport (e : Event sha256) : Prop := ∃ fixture, e.call = .importLegacyFixture fixture

/-- An import of the run brought the ledger row of `id`. -/
def ImportedTurn (es : List (Event sha256)) (id : PyStr) : Prop :=
  ∃ e ∈ es, e.isImport ∧ e.before.db.turnRequests.get? id = none ∧
    ∃ r, e.after.db.turnRequests.get? id = some r

/-- An import of the run brought message `i`. -/
def ImportedMessage (es : List (Event sha256)) (i : Nat) : Prop :=
  ∃ e ∈ es, e.isImport ∧ e.before.db.chatLogs.get? i = none ∧
    ∃ c, e.after.db.chatLogs.get? i = some c

/-- A turn of the run that reserved its id and then committed wrote message `i`. -/
def MessageOfTurn (es : List (Event sha256)) (i : Nat) : Prop :=
  ∃ pre e post c, es = pre ++ e :: post ∧ e.firstCommit = some c ∧ ReservedIn pre c.requestId ∧
    (i = c.userMessageId ∨ i = c.assistantMessageId)

structure FenceInv (es : List (Event sha256)) (db : Db) : Prop where
  /-- Only an import brings a row that was not reserved, and that row is completed. -/
  unfinished : ∀ r ∈ db.turnRequests.rows, r.status ≠ .completed → ReservedIn es r.requestId
  ledger : ∀ r ∈ db.turnRequests.rows, ReservedIn es r.requestId ∨ ImportedTurn es r.requestId
  messages : ∀ i c, db.chatLogs.get? i = some c → MessageOfTurn es i ∨ ImportedMessage es i
  outbox : ∀ e ∈ db.outboxEvents.rows, ReservedIn es e.turnRequestId

theorem ReservedIn.snoc {es : List (Event sha256)} {id : PyStr} (h : ReservedIn es id)
    (e : Event sha256) : ReservedIn (es ++ [e]) id := by
  obtain ⟨e', he', h⟩ := h
  exact ⟨e', List.mem_append_left _ he', h⟩

theorem ImportedTurn.snoc {es : List (Event sha256)} {id : PyStr} (h : ImportedTurn es id)
    (e : Event sha256) : ImportedTurn (es ++ [e]) id := by
  obtain ⟨e', he', h⟩ := h
  exact ⟨e', List.mem_append_left _ he', h⟩

theorem ImportedMessage.snoc {es : List (Event sha256)} {i : Nat} (h : ImportedMessage es i)
    (e : Event sha256) : ImportedMessage (es ++ [e]) i := by
  obtain ⟨e', he', h⟩ := h
  exact ⟨e', List.mem_append_left _ he', h⟩

theorem MessageOfTurn.snoc {es : List (Event sha256)} {i : Nat} (h : MessageOfTurn es i)
    (e : Event sha256) : MessageOfTurn (es ++ [e]) i := by
  obtain ⟨pre, e', post, c, rfl, h⟩ := h
  exact ⟨pre, e', post ++ [e], c, by simp, h⟩

/-- Nothing a longer run knows less about. -/
theorem FenceInv.snoc {es : List (Event sha256)} {db : Db} (h : FenceInv es db)
    (e : Event sha256) : FenceInv (es ++ [e]) db where
  unfinished := fun r hr hs => (h.unfinished r hr hs).snoc e
  ledger := fun r hr => (h.ledger r hr).imp (·.snoc e) (·.snoc e)
  messages := fun i c hc => (h.messages i c hc).imp (·.snoc e) (·.snoc e)
  outbox := fun x hx => (h.outbox x hx).snoc e

/-- Rows may go. -/
theorem FenceInv.subset {es : List (Event sha256)} {db db' : Db} (h : FenceInv es db)
    (hturns : ∀ r ∈ db'.turnRequests.rows, r ∈ db.turnRequests.rows)
    (hchats : ∀ i c, db'.chatLogs.get? i = some c → db.chatLogs.get? i = some c)
    (houtbox : ∀ e ∈ db'.outboxEvents.rows, e ∈ db.outboxEvents.rows) : FenceInv es db' where
  unfinished := fun r hr => h.unfinished r (hturns r hr)
  ledger := fun r hr => h.ledger r (hturns r hr)
  messages := fun i c hc => h.messages i c (hchats i c hc)
  outbox := fun e he => h.outbox e (houtbox e he)

/-- An import leaves the rows and messages it finds. -/
theorem Imports.keeps {db db' : Db} (h : Imports sha256 db db') :
    (∀ k r, db.turnRequests.get? k = some r → db'.turnRequests.get? k = some r) ∧
    (∀ i c, db.chatLogs.get? i = some c → db'.chatLogs.get? i = some c) ∧
    db'.outboxEvents = db.outboxEvents := by
  induction h with
  | refl => exact ⟨fun _ _ h => h, fun _ _ h => h, rfl⟩
  | step _ _ _ ih =>
      refine ⟨fun k r hr => ih.1 k r ?_, fun i c hc => ih.2.1 i c ?_, ih.2.2⟩
      · exact Table.get?_insertNew_of_some hr
      · exact AutoTable.get?_insert_of_some (AutoTable.get?_insert_of_some hc)

theorem Imports.status {db db' : Db} (h : Imports sha256 db db') {r : TurnRequest}
    (hr : r ∈ db'.turnRequests.rows) : r ∈ db.turnRequests.rows ∨ r.status = .completed := by
  induction h with
  | refl => exact .inl hr
  | step _ _ _ ih =>
      rcases ih hr with hr | hr
      · rcases Table.mem_insertNew.mp hr with hr | ⟨rfl, _⟩
        · exact .inl hr
        · exact .inr rfl
      · exact .inr hr

theorem fenceInv_import {es : List (Event sha256)} {e : Event sha256} (himport : e.isImport)
    (hi : Imports sha256 e.before.db e.after.db) (h : FenceInv es e.before.db) :
    FenceInv (es ++ [e]) e.after.db where
  unfinished := by
    intro r hr hs
    rcases hi.status hr with hr | hr
    · exact (h.unfinished r hr hs).snoc e
    · exact absurd hr hs
  ledger := by
    intro r hr
    cases hb : e.before.db.turnRequests.get? r.requestId with
    | none => exact .inr ⟨e, by simp, himport, hb, r, Table.get?_of_mem hr⟩
    | some r₀ =>
        have hkeep := hi.keeps.1 _ _ hb
        rw [Table.get?_of_mem hr] at hkeep
        cases hkeep
        exact (h.ledger r (Table.get?_mem hb)).imp (·.snoc e) (·.snoc e)
  messages := by
    intro i c hc
    cases hb : e.before.db.chatLogs.get? i with
    | none => exact .inr ⟨e, by simp, himport, hb, c, hc⟩
    | some c₀ => exact (h.messages i c₀ hb).imp (·.snoc e) (·.snoc e)
  outbox := by
    intro x hx
    rw [hi.keeps.2.2] at hx
    exact (h.outbox x hx).snoc e

theorem fenceInv_commit {es : List (Event sha256)} {e : Event sha256} {c : CommitInput}
    {row : TurnRequest} {x : CommitTexts} {outbox : Table OutboxEvent PyStr OutboxEvent.id}
    (h : FenceInv es e.before.db)
    (hfirst : e.firstCommit = some (e.before.db.committed c))
    (hrow : e.before.db.turnRequests.get? c.requestId = some row) (hpending : row.status = .pending)
    (houtbox : c.outboxEvents.foldlM (insertOutboxEvent c.requestId x.now) e.before.db.outboxEvents
      = .ok outbox) : FenceInv (es ++ [e]) (e.before.db.commit c row x outbox) := by
  have hreserved : ReservedIn es c.requestId := by
    have := h.unfinished row (Table.get?_mem hrow) (by rw [hpending]; decide)
    rwa [show row.requestId = c.requestId from Table.get?_key hrow] at this
  refine ⟨?_, ?_, ?_, ?_⟩
  · intro r hr hs
    rcases Table.mem_put.mp hr with rfl | hr
    · exact absurd rfl hs
    · exact (h.unfinished r hr.1 hs).snoc e
  · intro r hr
    rcases Table.mem_put.mp hr with rfl | hr
    · rw [show (completedRow row x.hash e.before.db.revision (e.before.db.revision + 1)
        (e.before.db.chatLogs.seq + 1) (e.before.db.chatLogs.seq + 2) x.replay x.now).requestId
          = row.requestId from rfl, show row.requestId = c.requestId from Table.get?_key hrow]
      exact .inl (hreserved.snoc e)
    · exact (h.ledger r hr.1).imp (·.snoc e) (·.snoc e)
  · intro i ch hch
    -- the last two messages are the turn's own
    have hmem := AutoTable.get?_eq_some.mp hch
    simp only [Db.commit, Db.commitMessages, AutoTable.insert_rows, AutoTable.insert_seq,
      List.append_assoc, List.mem_append, List.mem_singleton, Prod.mk.injEq] at hmem
    rcases hmem with hold | ⟨hi, _⟩ | ⟨hi, _⟩
    · exact (h.messages i ch (AutoTable.get?_eq_some.mpr hold)).imp (·.snoc e) (·.snoc e)
    · exact .inl ⟨es, e, [], _, rfl, hfirst, hreserved, .inl hi⟩
    · exact .inl ⟨es, e, [], _, rfl, hfirst, hreserved, .inr hi⟩
  · intro y hy
    rcases foldlM_insertOutboxEvent_rows houtbox y hy with hy | hy
    · exact (h.outbox y hy).snoc e
    · rw [hy]
      exact hreserved.snoc e

/-- **Every call keeps the provenance of the history.** -/
theorem fenceInv_step {es : List (Event sha256)} {e : Event sha256}
    (h : FenceInv es e.before.db) : FenceInv (es ++ [e]) e.after.db := by
  rcases e.change with hdb | ⟨reply, hres, hc⟩
  · rw [hdb]
    exact h.snoc e
  · generalize hcall : e.call = call at hc
    generalize hafter : e.after.db = after at hc
    cases hc with
    | @reserve requestId userMessage id sqlNow hid _ =>
        have hnew : ReservedIn (es ++ [e]) id :=
          ⟨e, by simp, e.before.db.historyGeneration, requestId, userMessage, none, hcall, hid,
            hres⟩
        have hmem : ∀ r ∈ (e.before.db.reserve id sqlNow).turnRequests.rows,
            r ∈ e.before.db.turnRequests.rows ∨ r.requestId = id := by
          intro r hr
          rcases Table.mem_insertNew.mp hr with hr | ⟨rfl, _⟩
          · exact .inl hr
          · exact .inr rfl
        refine ⟨?_, ?_, (h.snoc e).messages, (h.snoc e).outbox⟩
        · intro r hr hs
          rcases hmem r hr with hr | hr
          · exact (h.unfinished r hr hs).snoc e
          · exact hr ▸ hnew
        · intro r hr
          rcases hmem r hr with hr | hr
          · exact (h.snoc e).ledger r hr
          · exact .inl (hr ▸ hnew)
    | @commit a c row x outbox _ hrow hpending _ _ _ _ _ _ houtbox =>
        have hne : e.after.db ≠ e.before.db := by
          intro heq
          have hrev := congrArg Db.revision (hafter.symm.trans heq)
          rw [revision_commit] at hrev
          omega
        obtain ⟨res, hreply, hfirst⟩ := e.firstCommit_of_change hcall hres hne
        cases hreply
        exact fenceInv_commit h hfirst hrow hpending houtbox
    | release _ _ =>
        exact (h.snoc e).subset (fun r hr => List.mem_of_mem_filter hr) (fun _ _ hc => hc)
          fun x hx => List.mem_of_mem_filter hx
    | deleteHistory =>
        refine (h.snoc e).subset ?_ ?_ ?_
        · intro r hr
          have hr' : r ∈ e.before.db.clearHistory.turnRequests.rows := hr
          rw [(clearHistory_empty _).2] at hr'
          cases hr'
        · intro i c hc
          have hc' : (i, c) ∈ e.before.db.clearHistory.chatLogs.rows := AutoTable.get?_eq_some.mp hc
          rw [(clearHistory_empty _).1] at hc'
          cases hc'
        · intro x hx
          exact List.mem_of_mem_filter (List.mem_of_mem_filter hx)
    | trim _ =>
        exact (h.snoc e).subset (fun r hr => List.mem_of_mem_filter hr)
          (fun i c hc => (AutoTable.get?_deleteWhere_eq_some.mp hc).1)
          fun x hx => List.mem_of_mem_filter hx
    | importFixture himports =>
        rw [← hafter] at himports ⊢
        exact fenceInv_import ⟨_, hcall⟩ himports h
    | @recover now =>
        have hrows : ∀ y ∈ (e.before.db.recover now).turnRequests.rows,
            ∃ x ∈ e.before.db.turnRequests.rows, failInterrupted now x = y := by
          intro y hy
          simpa [Db.recover] using hy
        refine ⟨?_, ?_, (h.snoc e).messages, (h.snoc e).outbox⟩
        · intro y hy hs
          obtain ⟨x, hx, rfl⟩ := hrows y hy
          rw [failInterrupted_requestId]
          refine (h.unfinished x hx fun hxs => hs ?_).snoc e
          exact (failInterrupted_fields now x).2.2.mpr hxs
        · intro y hy
          obtain ⟨x, hx, rfl⟩ := hrows y hy
          rw [failInterrupted_requestId]
          exact (h.snoc e).ledger x hx
    | _ => exact (h.snoc e).subset (fun r hr => hr) (fun _ _ hc => hc) fun x hx => hx

/-- Provenance along any run that starts with an empty history. -/
theorem fenceInv_run {es : List (Event sha256)} {s s' : LocalStore} (hrun : Run sha256 s es s')
    (h0 : FenceInv ([] : List (Event sha256)) s.db) : FenceInv es s'.db := by
  induction hrun with
  | nil => exact h0
  | snoc e _ ih => exact fenceInv_step ih

/-- **A delete that returned leaves the three history tables empty.** -/
theorem deleteHistory_empties {e : Event sha256} {reply : Reply} (hcall : e.call = .deleteHistory)
    (hres : e.result = .ok reply) (hl : LedgerInv e.before.db) :
    e.after.db.chatLogs.rows = [] ∧ e.after.db.turnRequests.rows = [] ∧
      e.after.db.outboxEvents.rows = [] ∧
      e.after.db.historyGeneration = e.before.db.historyGeneration + 1 := by
  have hx := e.executed
  rw [hcall, exec, hres] at hx
  obtain ⟨_, r, _, _, _, _, hbody | ⟨hbody, _⟩⟩ := perform_ok hx
  · obtain ⟨text, hd⟩ := deleteHistoryBlock_commit hbody
    rw [hd]
    refine ⟨(clearHistory_empty _).1, (clearHistory_empty _).2, hl.clearHistory_outbox, ?_⟩
    rw [historyGeneration_audit, if_pos rfl]
    rfl
  · simp only [deleteHistoryBlock, Outcome.attempt_eq_rollback] at hbody
    obtain ⟨_, _, _, _, hbody⟩ := hbody
    cases hbody

theorem Run.reachable {s : LocalStore} {es : List (Event sha256)} (h : Run sha256 .init es s) :
    Reachable sha256 s := ⟨es, h⟩

/-- **`delete_history` is a durable fence.** Take any run in which some call reserved `id` in
generation `g`, then a `delete_history` that returned, then any further calls. In the state
reached, a commit with generation `g` and any other arguments changes nothing, and neither does a
release with `g`; right after the delete the history tables were empty; and every row they hold
now comes from a reservation made since, or from an import made since. -/
theorem deleteHistory_fence {es es' : List (Event sha256)} {d e : Event sha256} {s : LocalStore}
    {id : PyStr} {g : Nat} {reply : Reply} (hrun : Run sha256 .init es d.before) (he : e ∈ es)
    (hreserved : e.Reserved id g) (hcall : d.call = .deleteHistory) (hres : d.result = .ok reply)
    (hrun' : Run sha256 d.after es' s) :
    (∀ env a, a.historyGeneration = .int g →
      (exec sha256 env (.commitTurn a) s).2.db = s.db) ∧
    (∀ env requestId, (exec sha256 env (.releaseRequest requestId (.int g)) s).2.db = s.db) ∧
    (d.after.db.chatLogs.rows = [] ∧ d.after.db.turnRequests.rows = [] ∧
      d.after.db.outboxEvents.rows = []) ∧
    (∀ r ∈ s.db.turnRequests.rows, ReservedIn es' r.requestId ∨ ImportedTurn es' r.requestId) ∧
    (∀ i c, s.db.chatLogs.get? i = some c → MessageOfTurn es' i ∨ ImportedMessage es' i) ∧
    (∀ x ∈ s.db.outboxEvents.rows, ReservedIn es' x.turnRequestId) := by
  obtain ⟨hchats, hturns, houtbox, hgen⟩ :=
    deleteHistory_empties hcall hres (ledgerInv_reachable ⟨es, hrun⟩)
  have hlt : g < s.db.historyGeneration := by
    -- the reservation saw generation `g`, and the delete came later
    obtain ⟨pre, post, _, _, hpost⟩ := hrun.before he
    have h1 := hreserved.change.2.2.1
    have h2 := e.generation_le
    have h3 := hpost.generation_le
    have h4 := hrun'.generation_le
    omega
  have hl : LedgerInv s.db := ledgerInv_reachable ⟨_, (Run.snoc d hrun).append hrun'⟩
  have hfence : FenceInv es' s.db := by
    refine fenceInv_run hrun' ⟨?_, ?_, ?_, ?_⟩
    · simp [hturns]
    · simp [hturns]
    · intro i c hc
      have := AutoTable.get?_eq_some.mp hc
      rw [hchats] at this
      cases this
    · simp [houtbox]
  refine ⟨?_, ?_, ⟨hchats, hturns, houtbox⟩, hfence.ledger, hfence.messages, hfence.outbox⟩
  · intro env a ha
    exact commit_fenced (Eq.refl (exec sha256 env (.commitTurn a) s)) ha hlt
  · intro env requestId
    exact release_fenced (Eq.refl (exec sha256 env (.releaseRequest requestId (.int g)) s)) hl hlt

/-- A delete between the reservation of a turn and its commit, and the same id reserved again:
the late commit of the first turn changes nothing. -/
theorem deleteHistory_fence_late_commit :
    (exec sampleSha256 sampleEnv (.commitTurn sampleArgs)
      (execAll sampleSha256 [sampleReserve, (sampleEnv, .deleteHistory), sampleReserve] .init)).2.db
    = (execAll sampleSha256 [sampleReserve, (sampleEnv, .deleteHistory), sampleReserve] .init).db := by
  have hrun := @run_trace sampleSha256 [sampleReserve] .init
  obtain ⟨reply, hres⟩ : ∃ reply, (event sampleSha256 sampleEnv .deleteHistory
      (execAll sampleSha256 [sampleReserve] .init)).result = .ok reply :=
    exists_of_isOk (by decide +kernel)
  have hreserved : (event sampleSha256 sampleEnv sampleReserve.2 .init).Reserved (py "r1") 0 :=
    ⟨.str (py "r1"), .str (py "oi"), none, rfl, rfl, rfl⟩
  have hfence := deleteHistory_fence hrun (List.mem_singleton.mpr rfl) hreserved rfl hres
    (run_trace [sampleReserve] _)
  exact hfence.1 sampleEnv sampleArgs rfl

end Katherine.Local
