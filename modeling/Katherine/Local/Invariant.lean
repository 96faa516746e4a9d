import Katherine.Local.Calls

/-!
# The representation invariant of the store

Four tables are linked by foreign keys and written by ten operations. `LedgerInv`
is what they keep between them:

* a completed ledger row has its two messages, in their roles, to itself;
* a row that is not completed has no message and no result, and a pending row
  carries the marker of the current history generation;
* an outbox row has its ledger row.

`ledgerInv_change` takes it across one call, and `RevisionInv` adds what the run
so far says about the profile revision: it counts the turns committed for the
first time and the resets, and it orders the rows those commits produced.
-/

namespace Katherine.Local

open Py Sql

/-! ## The ledger -/

/-- Message `i` is there, with this role. -/
def HasRole (db : Db) (i : Nat) (role : Role) : Prop :=
  ∃ c, db.chatLogs.get? i = some c ∧ c.role = role

/-- The row refers to message `i`. -/
def Refers (r : TurnRequest) (i : Nat) : Prop :=
  r.userMessageId = some i ∨ r.assistantMessageId = some i

structure LedgerInv (db : Db) : Prop where
  /-- A completed row has its two messages. -/
  completed : ∀ r ∈ db.turnRequests.rows, r.status = .completed →
    ∃ u a, r.userMessageId = some u ∧ r.assistantMessageId = some a ∧
      HasRole db u .user ∧ HasRole db a .assistant
  /-- No message belongs to two rows. -/
  unshared : ∀ r ∈ db.turnRequests.rows, ∀ r' ∈ db.turnRequests.rows, ∀ i,
    Refers r i → Refers r' i → r = r'
  /-- Any other row has no message and no result. -/
  unfinished : ∀ r ∈ db.turnRequests.rows, r.status ≠ .completed →
    r.userMessageId = none ∧ r.assistantMessageId = none ∧ r.replayPayload = none ∧
      r.committedRevision = none
  /-- A pending row was reserved in the current generation. -/
  marker : ∀ r ∈ db.turnRequests.rows, r.status = .pending →
    r.payloadHash = reservationMarker db.historyGeneration
  /-- An outbox row has its ledger row. -/
  outbox : ∀ e ∈ db.outboxEvents.rows, ∃ r, db.turnRequests.get? e.turnRequestId = some r

theorem ledgerInv_empty : LedgerInv .empty where
  completed := by simp [Db.empty]
  unshared := by simp [Db.empty]
  unfinished := by simp [Db.empty]
  marker := by simp [Db.empty]
  outbox := by simp [Db.empty]

/-- Only completed rows refer to messages. -/
theorem LedgerInv.completed_of_refers {db : Db} (h : LedgerInv db) {r : TurnRequest}
    (hr : r ∈ db.turnRequests.rows) {i : Nat} (hi : Refers r i) : r.status = .completed := by
  by_contra hne
  obtain ⟨hu, ha, _⟩ := h.unfinished r hr hne
  rcases hi with hi | hi
  · rw [hu] at hi
    cases hi
  · rw [ha] at hi
    cases hi

/-- A message a row refers to is in the log. -/
theorem LedgerInv.refers_bound {db : Db} (h : LedgerInv db) {r : TurnRequest}
    (hr : r ∈ db.turnRequests.rows) {i : Nat} (hi : Refers r i) : i ≤ db.chatLogs.seq := by
  obtain ⟨u, a, hu, ha, ⟨cu, hcu, _⟩, ⟨ca, hca, _⟩⟩ :=
    h.completed r hr (h.completed_of_refers hr hi)
  rcases hi with hi | hi
  · rw [hu] at hi
    cases hi
    exact (AutoTable.get?_bound hcu).2
  · rw [ha] at hi
    cases hi
    exact (AutoTable.get?_bound hca).2

theorem HasRole.insert {db : Db} {i : Nat} {role : Role} (h : HasRole db i role)
    {logs : AutoTable ChatLog} (hlogs : ∀ j c, db.chatLogs.get? j = some c → logs.get? j = some c)
    {db' : Db} (hdb' : db'.chatLogs = logs) : HasRole db' i role := by
  obtain ⟨c, hc, hrole⟩ := h
  exact ⟨c, by rw [hdb']; exact hlogs i c hc, hrole⟩

/-- Nothing in the invariant reads the profile, the memories or the rest of the audit. -/
theorem LedgerInv.congr {db db' : Db} (h : LedgerInv db) (hchat : db'.chatLogs = db.chatLogs)
    (hturn : db'.turnRequests = db.turnRequests) (hout : db'.outboxEvents = db.outboxEvents)
    (hgen : db'.historyGeneration = db.historyGeneration) : LedgerInv db' where
  completed := by
    simp only [HasRole, hchat, hturn]
    exact h.completed
  unshared := by
    rw [hturn]
    exact h.unshared
  unfinished := by
    rw [hturn]
    exact h.unfinished
  marker := by
    rw [hturn, hgen]
    exact h.marker
  outbox := by
    rw [hout, hturn]
    exact h.outbox

/-- Deleting ledger rows, with their outbox rows, keeps the invariant. -/
theorem LedgerInv.deleteTurns {db : Db} (h : LedgerInv db) (p : TurnRequest → Bool) :
    LedgerInv (db.deleteTurns p) where
  completed := fun r hr => h.completed r (List.mem_of_mem_filter hr)
  unshared := fun r hr r' hr' => h.unshared r (List.mem_of_mem_filter hr) r'
    (List.mem_of_mem_filter hr')
  unfinished := fun r hr => h.unfinished r (List.mem_of_mem_filter hr)
  marker := fun r hr => h.marker r (List.mem_of_mem_filter hr)
  outbox := by
    intro e he
    obtain ⟨he, hkeep⟩ := List.mem_filter.mp he
    obtain ⟨r, hr⟩ := h.outbox e he
    simp only [hr, Option.any_some, Bool.not_eq_true'] at hkeep
    refine ⟨r, ?_⟩
    rw [Db.deleteTurns_turnRequests, Table.get?_deleteWhere, hr, Option.filter_some, hkeep]
    rfl

/-- Deleting messages keeps it too: the rows that refer to them cascade. -/
theorem LedgerInv.deleteChats {db : Db} (h : LedgerInv db) (p : Nat × ChatLog → Bool) :
    LedgerInv (db.deleteChats p) := by
  have hdel := h.deleteTurns (db.refersTo p)
  refine ⟨?_, hdel.unshared, hdel.unfinished, hdel.marker, hdel.outbox⟩
  intro r hr hstatus
  obtain ⟨hr', hkeep⟩ := List.mem_filter.mp hr
  obtain ⟨u, a, hu, ha, ⟨cu, hcu, hru⟩, ⟨ca, hca, hra⟩⟩ := h.completed r hr' hstatus
  simp only [Db.refersTo, hu, ha, hcu, hca, Option.any_some, Bool.not_eq_true',
    Bool.or_eq_false_iff] at hkeep
  refine ⟨u, a, hu, ha, ⟨cu, ?_, hru⟩, ⟨ca, ?_, hra⟩⟩
  · exact AutoTable.get?_deleteWhere_eq_some.mpr ⟨hcu, hkeep.1⟩
  · exact AutoTable.get?_deleteWhere_eq_some.mpr ⟨hca, hkeep.2⟩

/-- A new completed row over two freshly inserted messages keeps the invariant. -/
theorem LedgerInv.finish {db db' : Db} (h : LedgerInv db) {r : TurnRequest} {cu ca : ChatLog}
    (hchat : db'.chatLogs = (db.chatLogs.insert cu).insert ca)
    (hcu : cu.role = .user) (hca : ca.role = .assistant)
    (hgen : db'.historyGeneration = db.historyGeneration)
    (hmem : ∀ x, x ∈ db'.turnRequests.rows → x = r ∨ x ∈ db.turnRequests.rows)
    (hstatus : r.status = .completed) (hu : r.userMessageId = some (db.chatLogs.seq + 1))
    (ha : r.assistantMessageId = some (db.chatLogs.seq + 2))
    (hout : ∀ e ∈ db'.outboxEvents.rows, ∃ x, db'.turnRequests.get? e.turnRequestId = some x) :
    LedgerInv db' := by
  have hkeep : ∀ {i role}, HasRole db i role → HasRole db' i role := by
    intro i role hi
    refine hi.insert (fun j c hc => ?_) hchat
    exact AutoTable.get?_insert_of_some (AutoTable.get?_insert_of_some hc)
  have hfresh : ∀ x ∈ db.turnRequests.rows, ∀ i, Refers x i → ¬ Refers r i := by
    intro x hx i hi hri
    have hle := h.refers_bound hx hi
    rcases hri with hri | hri
    · rw [hu] at hri
      cases hri
      omega
    · rw [ha] at hri
      cases hri
      omega
  refine ⟨?_, ?_, ?_, ?_, hout⟩
  · intro x hx hxs
    rcases hmem x hx with rfl | hx
    · refine ⟨_, _, hu, ha, ⟨cu, ?_, hcu⟩, ⟨ca, ?_, hca⟩⟩
      · rw [hchat]
        exact AutoTable.get?_insert_of_some (AutoTable.get?_insert_self _ _)
      · rw [hchat]
        exact AutoTable.get?_insert_self _ _
    · obtain ⟨u, a, hu', ha', hru, hra⟩ := h.completed x hx hxs
      exact ⟨u, a, hu', ha', hkeep hru, hkeep hra⟩
  · intro x hx y hy i hxi hyi
    rcases hmem x hx with rfl | hx <;> rcases hmem y hy with rfl | hy
    · rfl
    · exact absurd hxi (hfresh y hy i hyi)
    · exact absurd hyi (hfresh x hx i hxi)
    · exact h.unshared x hx y hy i hxi hyi
  · intro x hx hxs
    rcases hmem x hx with rfl | hx
    · exact absurd hstatus hxs
    · exact h.unfinished x hx hxs
  · intro x hx hxs
    rcases hmem x hx with rfl | hx
    · rw [hstatus] at hxs
      cases hxs
    · rw [hgen]
      exact h.marker x hx hxs

/-! ### The outbox of a commit -/

/-- An insertion adds at most one row, and that row belongs to the turn. -/
theorem insertOutboxEvent_rows {id now : PyStr} {t t' : Table OutboxEvent PyStr OutboxEvent.id}
    {e : OutboxInput} (h : insertOutboxEvent id now t e = .ok t') :
    ∀ x ∈ t'.rows, x ∈ t.rows ∨ x.turnRequestId = id := by
  intro x hx
  simp only [insertOutboxEvent, bind_eq_ok] at h
  obtain ⟨payload, _, h⟩ := h
  split at h
  · cases h
    exact .inl hx
  · simp only [bind_eq_ok] at h
    obtain ⟨_, _, h⟩ := h
    cases h
    rcases Table.mem_insertNew.mp hx with hx | ⟨rfl, _⟩
    · exact .inl hx
    · exact .inr rfl

theorem foldlM_insertOutboxEvent_rows {id now : PyStr} : ∀ {es : List OutboxInput}
    {t t' : Table OutboxEvent PyStr OutboxEvent.id},
    es.foldlM (insertOutboxEvent id now) t = .ok t' →
    ∀ x ∈ t'.rows, x ∈ t.rows ∨ x.turnRequestId = id
  | [], t, t', h, x, hx => by
      cases h
      exact .inl hx
  | e :: es, t, t', h, x, hx => by
      simp only [List.foldlM_cons, bind_eq_ok] at h
      obtain ⟨t₁, h₁, h₂⟩ := h
      rcases foldlM_insertOutboxEvent_rows h₂ x hx with hx | hx
      · exact insertOutboxEvent_rows h₁ x hx
      · exact .inr hx

/-! ### Generations -/

theorem historyGeneration_audit (db : Db) (op : Operation) (text sqlNow : PyStr) :
    (db.audit op text sqlNow).historyGeneration =
      db.historyGeneration + if op = .deleteHistory then 1 else 0 := by
  simp only [Db.historyGeneration, Db.audit, AutoTable.insert_rows, List.filter_append,
    List.length_append]
  by_cases h : op = .deleteHistory <;> simp [h]

theorem StateField.operation_ne_deleteHistory (field : StateField) :
    field.operation ≠ .deleteHistory := by
  cases field <;> decide

/-- After the history is cleared its three tables are empty. -/
theorem clearHistory_empty (db : Db) : db.clearHistory.chatLogs.rows = [] ∧
    db.clearHistory.turnRequests.rows = [] := by
  simp [Db.clearHistory]

theorem LedgerInv.clearHistory {db : Db} (h : LedgerInv db) : LedgerInv db.clearHistory :=
  (h.deleteTurns _).deleteChats _

theorem LedgerInv.clearHistory_outbox {db : Db} (h : LedgerInv db) :
    db.clearHistory.outboxEvents.rows = [] := by
  refine List.eq_nil_iff_forall_not_mem.mpr fun e he => ?_
  obtain ⟨r, hr⟩ := h.clearHistory.outbox e he
  have := Table.get?_mem hr
  rw [(clearHistory_empty db).2] at this
  cases this

/-! ### One change -/

theorem LedgerInv.reserve {db : Db} (h : LedgerInv db) (id sqlNow : PyStr) :
    LedgerInv (db.reserve id sqlNow) := by
  have hmem : ∀ x ∈ (db.reserve id sqlNow).turnRequests.rows,
      x ∈ db.turnRequests.rows ∨ x = reservationRow id db.historyGeneration sqlNow := by
    intro x hx
    rcases Table.mem_insertNew.mp hx with hx | ⟨hx, _⟩
    · exact .inl hx
    · exact .inr hx
  refine ⟨?_, ?_, ?_, ?_, ?_⟩
  · intro x hx hs
    rcases hmem x hx with hx | rfl
    · exact h.completed x hx hs
    · cases hs
  · intro x hx y hy i hxi hyi
    rcases hmem x hx with hx | rfl
    · rcases hmem y hy with hy | rfl
      · exact h.unshared x hx y hy i hxi hyi
      · rcases hyi with hyi | hyi <;> cases hyi
    · rcases hxi with hxi | hxi <;> cases hxi
  · intro x hx hs
    rcases hmem x hx with hx | rfl
    · exact h.unfinished x hx hs
    · exact ⟨rfl, rfl, rfl, rfl⟩
  · intro x hx hs
    rcases hmem x hx with hx | rfl
    · exact h.marker x hx hs
    · rfl
  · intro e he
    obtain ⟨r, hr⟩ := h.outbox e he
    exact ⟨r, Table.get?_insertNew_of_some hr⟩

theorem LedgerInv.commit {db : Db} (h : LedgerInv db) {c : CommitInput} {row : TurnRequest}
    {x : CommitTexts} {outbox : Table OutboxEvent PyStr OutboxEvent.id}
    (hrow : db.turnRequests.get? c.requestId = some row)
    (houtbox : c.outboxEvents.foldlM (insertOutboxEvent c.requestId x.now) db.outboxEvents
      = .ok outbox) : LedgerInv (db.commit c row x outbox) := by
  refine h.finish rfl rfl rfl rfl (r := completedRow row x.hash db.revision (db.revision + 1)
    (db.chatLogs.seq + 1) (db.chatLogs.seq + 2) x.replay x.now) ?_ rfl rfl rfl ?_
  · intro y hy
    rcases Table.mem_put.mp hy with hy | hy
    · exact .inl hy
    · exact .inr hy.1
  · intro e he
    have hkey : row.requestId = c.requestId := Table.get?_key hrow
    simp only [Db.commit, Table.get?_put]
    split
    · exact ⟨_, rfl⟩
    · rename_i hne
      rcases foldlM_insertOutboxEvent_rows houtbox e he with he | he
      · exact h.outbox e he
      · exact absurd (he.trans hkey.symm) hne

theorem LedgerInv.importTurn {db : Db} (h : LedgerInv db) (t : LegacyTurn)
    (now hash text : PyStr) : LedgerInv (db.importTurn t now hash text) := by
  refine h.finish (r := importedRow t hash text (t.created now) (db.chatLogs.seq + 1)
    (db.chatLogs.seq + 2)) rfl rfl rfl rfl ?_ rfl rfl rfl ?_
  · intro y hy
    rcases Table.mem_insertNew.mp hy with hy | ⟨hy, _⟩
    · exact .inr hy
    · exact .inl hy
  · intro e he
    obtain ⟨r, hr⟩ := h.outbox e he
    exact ⟨r, Table.get?_insertNew_of_some hr⟩

theorem LedgerInv.imports {sha256 : PyStr → PyStr} {db db' : Db} (h : LedgerInv db)
    (hi : Imports sha256 db db') :
    LedgerInv db' := by
  induction hi with
  | refl => exact h
  | step _ _ _ ih => exact ih (h.importTurn _ _ _ _)

theorem LedgerInv.recover {db : Db} (h : LedgerInv db) (now : PyStr) :
    LedgerInv (db.recover now) := by
  -- recovery changes the status, the error and a timestamp of pending rows and nothing else
  have hrows : ∀ y ∈ (db.recover now).turnRequests.rows, ∃ x ∈ db.turnRequests.rows,
      failInterrupted now x = y := by
    intro y hy
    simpa [Db.recover] using hy
  have hsame : ∀ x, (failInterrupted now x).userMessageId = x.userMessageId ∧
      (failInterrupted now x).assistantMessageId = x.assistantMessageId ∧
      (failInterrupted now x).replayPayload = x.replayPayload ∧
      (failInterrupted now x).committedRevision = x.committedRevision ∧
      ((failInterrupted now x).status = .completed ↔ x.status = .completed) ∧
      (failInterrupted now x).status ≠ .pending := by
    intro x
    unfold failInterrupted
    split <;> simp_all
  refine ⟨?_, ?_, ?_, ?_, ?_⟩
  · intro y hy hs
    obtain ⟨x, hx, rfl⟩ := hrows y hy
    obtain ⟨hu, ha, _, _, hst, _⟩ := hsame x
    rw [hu, ha]
    exact h.completed x hx (hst.mp hs)
  · intro y hy y' hy' i hi hi'
    obtain ⟨x, hx, rfl⟩ := hrows y hy
    obtain ⟨x', hx', rfl⟩ := hrows y' hy'
    obtain ⟨hu, ha, _⟩ := hsame x
    obtain ⟨hu', ha', _⟩ := hsame x'
    simp only [Refers, hu, ha] at hi
    simp only [Refers, hu', ha'] at hi'
    rw [h.unshared x hx x' hx' i hi hi']
  · intro y hy hs
    obtain ⟨x, hx, rfl⟩ := hrows y hy
    obtain ⟨hu, ha, hp, hc, hst, _⟩ := hsame x
    rw [hu, ha, hp, hc]
    exact h.unfinished x hx fun hxs => hs (hst.mpr hxs)
  · intro y hy hs
    obtain ⟨x, hx, rfl⟩ := hrows y hy
    exact absurd hs (hsame x).2.2.2.2.2
  · intro e he
    obtain ⟨r, hr⟩ := h.outbox e he
    exact ⟨failInterrupted now r, by simp [Db.recover, hr]⟩

variable {sha256 : PyStr → PyStr}

/-- **Every call keeps the ledger invariant.** -/
theorem ledgerInv_change {db db' : Db} {call : Call} {reply : Reply}
    (hc : Change sha256 db call reply db') (h : LedgerInv db) : LedgerInv db' := by
  cases hc with
  | reserve _ _ => exact h.reserve _ _
  | commit _ hrow _ _ _ _ _ _ _ houtbox => exact h.commit hrow houtbox
  | release _ _ => exact h.deleteTurns _
  | storeMemory => exact h.congr rfl rfl rfl rfl
  | deleteHistory =>
      have hcl := h.clearHistory
      refine ⟨hcl.completed, hcl.unshared, hcl.unfinished, ?_, hcl.outbox⟩
      intro r hr
      have : r ∈ db.clearHistory.turnRequests.rows := hr
      rw [(clearHistory_empty db).2] at this
      cases this
  | deleteMemories =>
      exact h.congr rfl rfl rfl (by rw [historyGeneration_audit]; simp [Db.clearMemories,
        Db.historyGeneration])
  | @reset field _ _ _ _ _ _ _ _ _ _ _ _ =>
      refine h.congr rfl rfl rfl ?_
      rw [Db.reset, historyGeneration_audit, if_neg field.operation_ne_deleteHistory]
      rfl
  | trim _ => exact h.deleteChats _
  | importFixture himports => exact h.imports himports
  | recover => exact h.recover _

/-- **Where a completed row comes from**, if not from an import: it was there before, or a commit has
just stored it with the text of its payload. -/
theorem completed_change {db db' : Db} {call : Call} {reply : Reply} {row : TurnRequest}
    (hc : Change sha256 db call reply db') (himport : ∀ fixture, call ≠ .importLegacyFixture fixture)
    (hrow : row ∈ db'.turnRequests.rows) (hs : row.status = .completed) :
    row ∈ db.turnRequests.rows ∨ ∃ (a : CommitArgs) (c : CommitInput) (hash text : PyStr),
      call = .commitTurn a ∧ commitInput sha256 a = .ok (c, hash) ∧
        jsonDumps (.dict c.replayPayload) = .ok text ∧ row.replayPayload = some text := by
  cases hc with
  | reserve =>
      rcases Table.mem_insertNew.mp hrow with hrow | ⟨rfl, -⟩
      · exact .inl hrow
      · cases hs
  | @commit a c r x outbox hinput _ _ _ _ _ _ _ hreplay =>
      rcases Table.mem_put.mp hrow with rfl | ⟨hrow, -⟩
      · exact .inr ⟨a, c, x.hash, x.replay, rfl, hinput, hreplay, rfl⟩
      · exact .inl hrow
  | release => exact .inl (Table.mem_deleteWhere.mp hrow).1
  | storeMemory => exact .inl hrow
  | deleteHistory =>
      have hrow' : row ∈ db.clearHistory.turnRequests.rows := hrow
      rw [(clearHistory_empty db).2] at hrow'
      cases hrow'
  | deleteMemories => exact .inl hrow
  | reset => exact .inl hrow
  | trim => exact .inl (Table.mem_deleteWhere.mp hrow).1
  | importFixture => exact absurd rfl (himport _)
  | recover =>
      obtain ⟨r, hr, rfl⟩ : ∃ r ∈ db.turnRequests.rows, failInterrupted _ r = row := by
        simpa [Db.recover] using hrow
      unfold failInterrupted at hs ⊢
      split at hs
      · cases hs
      · next hpending =>
          rw [if_neg hpending]
          exact .inl hr

/-- **The ledger invariant holds in every reachable state.** -/
theorem ledgerInv_reachable {s : LocalStore} (h : Reachable sha256 s) : LedgerInv s.db := by
  obtain ⟨es, hrun⟩ := h
  exact hrun.induct ledgerInv_empty ledgerInv_change

end Katherine.Local
