import Katherine.Local.Invariant

/-!
# What the profile revision counts

Two kinds of call write the snapshots: a turn committed for the first time, and a
reset. Each adds one to the revision, and no other call touches it
(`Event.revision_eq`). A committed row keeps the revision its commit produced, so
among the rows commits produced the revisions are distinct and in the order of the
messages. Imported rows carry revision 0 and stay out of that order.
-/

namespace Katherine.Local

open Py Sql

variable {sha256 : PyStr → PyStr}

/-! ## Which events write the snapshots -/

/-- The result of a commit that returned while the row its connection read was not completed:
the turn was committed for the first time. -/
def Event.firstCommit (e : Event sha256) : Option CommittedTurn :=
  match e.call, e.result with
  | .commitTurn _, .ok (.committed c) =>
      match (e.before.view e.env.thread).turnRequests.get? c.requestId with
      | some row => if row.status = .completed then none else some c
      | none => some c
  | _, _ => none

/-- A reset that returned. -/
def Event.isReset (e : Event sha256) : Bool :=
  match e.call, e.result with
  | .reset _ _, .ok _ => true
  | _, _ => false

/-- The first-time commits of a run, in order. -/
def firstCommits (es : List (Event sha256)) : List CommittedTurn := es.filterMap Event.firstCommit

def resets (es : List (Event sha256)) : Nat := es.countP Event.isReset

theorem revision_commit (db : Db) (c : CommitInput) (row : TurnRequest) (x : CommitTexts)
    (outbox : Table OutboxEvent PyStr OutboxEvent.id) :
    (db.commit c row x outbox).revision = db.revision + 1 := rfl

theorem revision_resetProfile (old : Option Profile) (field : StateField) (text otherText : PyStr)
    (n : Nat) (now later : PyStr) :
    (resetProfile old field text otherText n now later).revision = n := by
  cases old <;> cases field <;> rfl

theorem revision_reset (db : Db) (field : StateField) (p : Profile) (result sqlNow : PyStr) :
    (db.reset field p result sqlNow).revision = p.revision := rfl

theorem Imports.profile {db db' : Db} (h : Imports sha256 db db') : db'.profile = db.profile := by
  induction h with
  | refl => rfl
  | step _ _ _ ih => rw [ih]; rfl

/-- The executed form of a commit event. -/
theorem Event.commitTurn_eq {e : Event sha256} {a : CommitArgs} (ha : e.call = .commitTurn a) :
    ∃ r, commitTurn sha256 e.env a e.before = (r, e.after) ∧ e.result = r.map .committed := by
  have hx := e.executed
  rw [ha] at hx
  simp only [exec] at hx
  obtain ⟨hres, hafter⟩ := Prod.mk.inj hx
  exact ⟨(commitTurn sha256 e.env a e.before).1, Prod.ext rfl hafter, hres.symm⟩

/-- **A first commit is a commit of the contents**, over a pending row. -/
theorem Event.firstCommit_change {e : Event sha256} {res : CommittedTurn}
    (h : e.firstCommit = some res) :
    e.result = .ok (.committed res) ∧ e.before.tx = none ∧
      ∃ a c hash, e.call = .commitTurn a ∧ commitInput sha256 a = .ok (c, hash) ∧
        (commitBlock c hash e.env.clock).body e.before.db = .commit res e.after.db := by
  unfold firstCommit at h
  split at h
  · rename_i a c₀ hcall hres
    obtain ⟨r, hr, hmap⟩ := e.commitTurn_eq hcall
    rw [hres] at hmap
    cases r with
    | error err => cases hmap
    | ok c₁ =>
        cases hmap
        obtain ⟨c, hash, hinput, hid, hcase⟩ := commitTurn_ok sha256 hr
        rcases hcase with ⟨row, hrow, hst, _, _, _⟩ | ⟨htx, _, hbody⟩
        · rw [← hid] at hrow
          rw [hrow] at h
          simp [hst] at h
        · have hc : c₀ = res := by
            split at h
            · split at h
              · cases h
              · exact Option.some.inj h
            · exact Option.some.inj h
          subst hc
          exact ⟨hres, htx, a, c, hash, hcall, hinput, hbody⟩
  · cases h

/-- A commit that changed the contents is a first commit. -/
theorem Event.firstCommit_of_change {e : Event sha256} {a : CommitArgs} {reply : Reply}
    (hcall : e.call = .commitTurn a) (hres : e.result = .ok reply)
    (hne : e.after.db ≠ e.before.db) : ∃ res, reply = .committed res ∧ e.firstCommit = some res := by
  obtain ⟨r, hr, hmap⟩ := e.commitTurn_eq hcall
  rw [hres] at hmap
  cases r with
  | error err => cases hmap
  | ok res =>
      cases hmap
      refine ⟨res, rfl, ?_⟩
      obtain ⟨c, hash, _, hid, ⟨row, _, _, _, _, hs⟩ | ⟨htx, _, hbody⟩⟩ := commitTurn_ok sha256 hr
      · exact absurd (congrArg Store.db hs) hne
      · obtain ⟨row, x, outbox, _, _, hrow, hp, _⟩ := commitBlock_commit hbody
        have hview : e.before.view e.env.thread = e.before.db := by simp [Store.view, htx]
        simp [firstCommit, hcall, hres, hview, hid, hrow, hp]

theorem resetBlock_body {field : StateField} {ck : Clock} {db : Db} {r : Except Err Report} :
    (resetBlock field ck).body db ≠ .rollback r := by
  intro h
  simp only [resetBlock, Outcome.attempt_eq_rollback] at h
  obtain ⟨_, _, _, _, _, _, _, _, h⟩ := h
  cases h

/-- A reset that returned raised the revision by one. -/
theorem Event.reset_revision {e : Event sha256} (h : e.isReset = true) :
    e.after.db.revision = e.before.db.revision + 1 := by
  unfold isReset at h
  split at h
  · rename_i field neutral reply hcall hres
    have hx := e.executed
    rw [hcall, exec, hres] at hx
    obtain ⟨_, r, _, _, _, _, hbody | ⟨hbody, _⟩⟩ := perform_ok hx
    · obtain ⟨text, otherText, result, _, _, hd⟩ := resetBlock_commit hbody
      rw [hd, revision_reset, revision_resetProfile]
    · exact absurd hbody resetBlock_body
  · cases h

/-- **Each event adds to the revision what it is counted for**, and nothing else does. -/
theorem Event.revision_eq (e : Event sha256) : e.after.db.revision =
    e.before.db.revision + (e.firstCommit.elim 0 fun _ => 1) + (if e.isReset then 1 else 0) := by
  cases hf : e.firstCommit with
  | some res =>
      obtain ⟨_, _, a, c, hash, hcall, _, hbody⟩ := e.firstCommit_change hf
      obtain ⟨row, x, outbox, _, _, _, _, _, _, _, _, _, _, _, _, hd⟩ := commitBlock_commit hbody
      have : e.isReset = false := by simp [isReset, hcall]
      rw [hd, revision_commit, this]
      rfl
  | none =>
      cases hr : e.isReset with
      | true => rw [e.reset_revision hr]; rfl
      | false =>
          rcases e.change with hdb | ⟨reply, hres, hc⟩
          · rw [hdb]
            rfl
          · show e.after.db.revision = e.before.db.revision
            by_cases hne : e.after.db = e.before.db
            · rw [hne]
            generalize hcall : e.call = call at hc
            generalize he : e.after.db = after at hc hne ⊢
            cases hc with
            | commit _ _ _ _ _ _ _ _ _ _ =>
                obtain ⟨res, _, hsome⟩ := e.firstCommit_of_change hcall hres (by rw [he]; exact hne)
                rw [hf] at hsome
                cases hsome
            | reset _ _ =>
                simp [isReset, hcall, hres] at hr
            | importFixture himports =>
                rw [Db.revision, himports.profile]
                rfl
            | _ => rfl

/-! ## The revisions of the rows -/

/-- Committed revisions are at most the current one, and the positive ones are in the order of
the messages. -/
structure RevisionRows (db : Db) : Prop where
  bound : ∀ r ∈ db.turnRequests.rows, ∀ n, r.committedRevision = some n → n ≤ db.revision
  ordered : ∀ r ∈ db.turnRequests.rows, ∀ r' ∈ db.turnRequests.rows, ∀ n n' u u',
    r.committedRevision = some n → r'.committedRevision = some n' → 0 < n → 0 < n' →
    r.userMessageId = some u → r'.userMessageId = some u' → (n < n' ↔ u < u')

/-- Rows may go, and change in other columns, while the revision does not fall. -/
theorem RevisionRows.mono {db db' : Db} (h : RevisionRows db)
    (hrev : db.revision ≤ db'.revision)
    (hrows : ∀ x ∈ db'.turnRequests.rows, ∃ y ∈ db.turnRequests.rows,
      y.committedRevision = x.committedRevision ∧ y.userMessageId = x.userMessageId) :
    RevisionRows db' where
  bound := by
    intro x hx n hn
    obtain ⟨y, hy, hc, _⟩ := hrows x hx
    exact (h.bound y hy n (hc.trans hn)).trans hrev
  ordered := by
    intro x hx x' hx' n n' u u' hn hn' h0 h0' hu hu'
    obtain ⟨y, hy, hc, hm⟩ := hrows x hx
    obtain ⟨y', hy', hc', hm'⟩ := hrows x' hx'
    exact h.ordered y hy y' hy' n n' u u' (hc.trans hn) (hc'.trans hn') h0 h0' (hm.trans hu)
      (hm'.trans hu')

theorem RevisionRows.subset {db db' : Db} (h : RevisionRows db)
    (hrev : db.revision ≤ db'.revision)
    (hrows : ∀ x ∈ db'.turnRequests.rows, x ∈ db.turnRequests.rows) : RevisionRows db' :=
  h.mono hrev fun x hx => ⟨x, hrows x hx, rfl, rfl⟩

/-- A new row belongs at the end of the order, or outside it. -/
theorem RevisionRows.add {db db' : Db} (h : RevisionRows db) (hl : LedgerInv db)
    {r : TurnRequest} {n : Nat} (hrev : db.revision ≤ db'.revision)
    (hmem : ∀ x ∈ db'.turnRequests.rows, x = r ∨ x ∈ db.turnRequests.rows)
    (hn : r.committedRevision = some n) (hu : r.userMessageId = some (db.chatLogs.seq + 1))
    (hlast : n = 0 ∨ (n = db.revision + 1 ∧ n ≤ db'.revision)) : RevisionRows db' where
  bound := by
    intro x hx m hm
    rcases hmem x hx with rfl | hx
    · rw [hn] at hm
      cases hm
      omega
    · exact (h.bound x hx m hm).trans hrev
  ordered := by
    intro x hx x' hx' m m' u u' hm hm' h0 h0' hxu hxu'
    rcases hmem x hx with rfl | hx <;> rcases hmem x' hx' with rfl | hx'
    · rw [hm] at hm'
      rw [hxu] at hxu'
      cases hm'
      cases hxu'
      simp
    · -- the new row is the later one on both counts
      have h1 := h.bound x' hx' m' hm'
      have h2 := hl.refers_bound hx' (.inl hxu')
      rw [hn] at hm
      rw [hu] at hxu
      cases hm
      cases hxu
      omega
    · have h1 := h.bound x hx m hm
      have h2 := hl.refers_bound hx (.inl hxu)
      rw [hn] at hm'
      rw [hu] at hxu'
      cases hm'
      cases hxu'
      omega
    · exact h.ordered x hx x' hx' m m' u u' hm hm' h0 h0' hxu hxu'

theorem RevisionRows.imports {db db' : Db} (hi : Imports sha256 db db') (h : RevisionRows db)
    (hl : LedgerInv db) : RevisionRows db' := by
  induction hi with
  | refl => exact h
  | @step db db' t now hash text habsent _ _ ih =>
      refine ih (h.add hl (r := importedRow t hash text (t.created now) (db.chatLogs.seq + 1)
        (db.chatLogs.seq + 2)) le_rfl ?_ rfl rfl (.inl rfl)) (hl.importTurn _ _ _ _)
      intro x hx
      rcases Table.mem_insertNew.mp hx with hx | ⟨hx, _⟩
      · exact .inr hx
      · exact .inl hx

theorem failInterrupted_fields (now : PyStr) (r : TurnRequest) :
    (failInterrupted now r).committedRevision = r.committedRevision ∧
      (failInterrupted now r).userMessageId = r.userMessageId ∧
      ((failInterrupted now r).status = .completed ↔ r.status = .completed) := by
  unfold failInterrupted
  split <;> simp_all

/-- **Every call keeps the rows in order.** -/
theorem revisionRows_change {db db' : Db} {call : Call} {reply : Reply}
    (hc : Change sha256 db call reply db') (hl : LedgerInv db) (h : RevisionRows db) :
    RevisionRows db' := by
  cases hc with
  | @reserve _ _ id sqlNow _ _ =>
      have hnew : ∀ x ∈ (db.reserve id sqlNow).turnRequests.rows,
          x ∈ db.turnRequests.rows ∨ x.committedRevision = none := by
        intro x hx
        rcases Table.mem_insertNew.mp hx with hx | ⟨rfl, _⟩
        · exact .inl hx
        · exact .inr rfl
      refine ⟨?_, ?_⟩
      · intro x hx n hn
        rcases hnew x hx with hx | hx
        · exact h.bound x hx n hn
        · rw [hx] at hn
          cases hn
      · intro x hx x' hx' n n' u u' hn hn'
        rcases hnew x hx with hx | hx
        · rcases hnew x' hx' with hx' | hx'
          · exact h.ordered x hx x' hx' n n' u u' hn hn'
          · rw [hx'] at hn'
            cases hn'
        · rw [hx] at hn
          cases hn
  | @commit a c row x outbox _ _ _ _ _ _ _ _ _ _ =>
      refine h.add hl (r := completedRow row x.hash db.revision (db.revision + 1)
        (db.chatLogs.seq + 1) (db.chatLogs.seq + 2) x.replay x.now) (Nat.le_succ _) ?_ rfl rfl
        (.inr ⟨rfl, le_rfl⟩)
      intro y hy
      rcases Table.mem_put.mp hy with hy | hy
      · exact .inl hy
      · exact .inr hy.1
  | release _ _ => exact h.subset le_rfl fun x hx => List.mem_of_mem_filter hx
  | storeMemory => exact h.subset le_rfl fun x hx => hx
  | deleteHistory =>
      refine h.subset le_rfl fun x hx => ?_
      have : x ∈ db.clearHistory.turnRequests.rows := hx
      rw [(clearHistory_empty db).2] at this
      cases this
  | deleteMemories => exact h.subset le_rfl fun x hx => hx
  | reset _ _ =>
      refine h.subset ?_ fun x hx => hx
      rw [revision_reset, revision_resetProfile]
      exact Nat.le_succ _
  | trim _ => exact h.subset le_rfl fun x hx => List.mem_of_mem_filter hx
  | importFixture himports => exact RevisionRows.imports himports h hl
  | @recover now =>
      refine h.mono le_rfl fun y hy => ?_
      obtain ⟨x, hx, rfl⟩ : ∃ x ∈ db.turnRequests.rows, failInterrupted now x = y := by
        simpa [Db.recover] using hy
      exact ⟨x, hx, (failInterrupted_fields now x).1.symm, (failInterrupted_fields now x).2.1.symm⟩

/-! ## Where a completed row comes from -/

/-- The row is the one some first commit of the run wrote. -/
def ProducedBy (es : List (Event sha256)) (r : TurnRequest) : Prop :=
  ∃ c ∈ firstCommits es, c.requestId = r.requestId ∧ r.committedRevision = some c.revision

theorem Imports.completed {db db' : Db} (hi : Imports sha256 db db') {r : TurnRequest}
    (hr : r ∈ db'.turnRequests.rows) : r ∈ db.turnRequests.rows ∨ r.committedRevision = some 0 := by
  induction hi with
  | refl => exact .inl hr
  | step _ _ _ ih =>
      rcases ih hr with hr | hr
      · rcases Table.mem_insertNew.mp hr with hr | ⟨rfl, _⟩
        · exact .inl hr
        · exact .inr rfl
      · exact .inr hr

/-- A completed row was completed before the call, or is imported, or is the call's own. -/
theorem completed_revision {db db' : Db} {call : Call} {reply : Reply}
    (hc : Change sha256 db call reply db') {r : TurnRequest} (hr : r ∈ db'.turnRequests.rows)
    (hs : r.status = .completed) :
    (∃ r₀ ∈ db.turnRequests.rows, r₀.status = .completed ∧ r₀.requestId = r.requestId ∧
      r₀.committedRevision = r.committedRevision) ∨
    r.committedRevision = some 0 ∨
    (∃ a c, call = .commitTurn a ∧ reply = .committed c ∧ c.requestId = r.requestId ∧
      r.committedRevision = some c.revision ∧ db'.revision = db.revision + 1) := by
  have hold : r ∈ db.turnRequests.rows → ∃ r₀ ∈ db.turnRequests.rows, r₀.status = .completed ∧
      r₀.requestId = r.requestId ∧ r₀.committedRevision = r.committedRevision :=
    fun h => ⟨r, h, hs, rfl, rfl⟩
  cases hc with
  | reserve _ _ =>
      rcases Table.mem_insertNew.mp hr with hr | ⟨rfl, _⟩
      · exact .inl (hold hr)
      · cases hs
  | @commit a c row x outbox _ hrow _ _ _ _ _ _ _ _ =>
      rcases Table.mem_put.mp hr with rfl | hr
      · have hkey : row.requestId = c.requestId := Table.get?_key hrow
        exact .inr (.inr ⟨a, _, rfl, rfl, hkey.symm, rfl, rfl⟩)
      · exact .inl (hold hr.1)
  | release _ _ => exact .inl (hold (List.mem_of_mem_filter hr))
  | storeMemory => exact .inl (hold hr)
  | deleteHistory =>
      have : r ∈ db.clearHistory.turnRequests.rows := hr
      rw [(clearHistory_empty db).2] at this
      cases this
  | deleteMemories => exact .inl (hold hr)
  | reset _ _ => exact .inl (hold hr)
  | trim _ => exact .inl (hold (List.mem_of_mem_filter hr))
  | importFixture himports =>
      rcases himports.completed hr with hr | hr
      · exact .inl (hold hr)
      · exact .inr (.inl hr)
  | @recover now =>
      obtain ⟨x, hx, rfl⟩ : ∃ x ∈ db.turnRequests.rows, failInterrupted now x = r := by
        simpa [Db.recover] using hr
      obtain ⟨hcr, _, hst⟩ := failInterrupted_fields now x
      exact .inl ⟨x, hx, hst.mp hs, (failInterrupted_requestId now x).symm, hcr.symm⟩

/-! ## Over a run -/

/-- What a run says about the contents it leads to. -/
structure RevisionInv (es : List (Event sha256)) (db : Db) : Prop where
  /-- The revision counts the writes of the snapshots. -/
  count : db.revision = (firstCommits es).length + resets es
  /-- The rows are in order. -/
  rows : RevisionRows db
  /-- A completed row is imported or some commit's. -/
  origin : ∀ r ∈ db.turnRequests.rows, r.status = .completed →
    r.committedRevision = some 0 ∨ ProducedBy es r
  /-- A first commit never returns revision 0. -/
  positive : ∀ c ∈ firstCommits es, 0 < c.revision

theorem firstCommits_snoc (es : List (Event sha256)) (e : Event sha256) :
    firstCommits (es ++ [e]) = firstCommits es ++ e.firstCommit.toList := by
  simp only [firstCommits, List.filterMap_append, List.filterMap_cons, List.filterMap_nil]
  cases e.firstCommit <;> rfl

theorem ProducedBy.snoc {es : List (Event sha256)} {r : TurnRequest} (h : ProducedBy es r)
    (e : Event sha256) : ProducedBy (es ++ [e]) r := by
  obtain ⟨c, hc, h⟩ := h
  exact ⟨c, by rw [firstCommits_snoc]; exact List.mem_append_left _ hc, h⟩

theorem revisionInv_snoc {es : List (Event sha256)} {e : Event sha256}
    (hl : LedgerInv e.before.db) (h : RevisionInv es e.before.db) :
    RevisionInv (es ++ [e]) e.after.db where
  count := by
    rw [e.revision_eq, h.count, firstCommits_snoc, List.length_append, resets, resets,
      List.countP_append, List.countP_singleton]
    cases e.firstCommit <;> simp <;> omega
  rows := by
    rcases e.change with hdb | ⟨reply, _, hc⟩
    · rw [hdb]
      exact h.rows
    · exact revisionRows_change hc hl h.rows
  origin := by
    intro r hr hs
    have hkeep : ∀ r₀ ∈ e.before.db.turnRequests.rows, r₀.status = .completed →
        r₀.requestId = r.requestId → r₀.committedRevision = r.committedRevision →
        r.committedRevision = some 0 ∨ ProducedBy (es ++ [e]) r := by
      intro r₀ hr₀ hs₀ hid hcr
      rcases h.origin r₀ hr₀ hs₀ with h0 | ⟨c, hc, h1, h2⟩
      · exact .inl (hcr ▸ h0)
      · exact .inr (ProducedBy.snoc ⟨c, hc, h1.trans hid, hcr ▸ h2⟩ e)
    rcases e.change with hdb | ⟨reply, hres, hc⟩
    · rw [hdb] at hr
      exact hkeep r hr hs rfl rfl
    · rcases completed_revision hc hr hs with ⟨r₀, hr₀, hs₀, hid, hcr⟩ | h0 |
        ⟨a, c, hcall, rfl, hid, hcr, hrev⟩
      · exact hkeep r₀ hr₀ hs₀ hid hcr
      · exact .inl h0
      · have hne : e.after.db ≠ e.before.db := by
          intro heq
          rw [heq] at hrev
          omega
        obtain ⟨res, hres', hfirst⟩ := e.firstCommit_of_change hcall hres hne
        cases hres'
        refine .inr ⟨c, ?_, hid, hcr⟩
        rw [firstCommits_snoc, hfirst]
        simp
  positive := by
    intro c hc
    rw [firstCommits_snoc] at hc
    rcases List.mem_append.mp hc with hc | hc
    · exact h.positive c hc
    · obtain ⟨_, _, a, c', hash, _, _, hbody⟩ := e.firstCommit_change (Option.mem_toList.mp hc)
      obtain ⟨_, _, _, _, _, _, _, _, _, _, _, _, _, _, hres, _⟩ := commitBlock_commit hbody
      rw [hres]
      exact Nat.succ_pos _

theorem revisionInv_init : RevisionInv ([] : List (Event sha256)) Db.empty where
  count := rfl
  rows := ⟨by simp [Db.empty], by simp [Db.empty]⟩
  origin := by simp [Db.empty]
  positive := by simp [firstCommits]

theorem revisionInv_run {es : List (Event sha256)} {s : LocalStore}
    (hrun : Run sha256 .init es s) : RevisionInv es s.db := by
  induction hrun with
  | nil => exact revisionInv_init
  | snoc e hrun ih => exact revisionInv_snoc (ledgerInv_reachable ⟨_, hrun⟩) ih

/-- **The representation invariant of the store.** After any sequence of calls from the empty
database: completed rows own their two messages; pending rows are bare and carry the marker of
the current generation; outbox rows have their ledger row; and the revision counts first commits
and resets, is never exceeded by a committed revision, and orders the rows commits produced. -/
theorem representation_invariant {es : List (Event sha256)} {s : LocalStore}
    (hrun : Run sha256 .init es s) :
    ((∀ r ∈ s.db.turnRequests.rows, r.status = .completed →
        ∃ u a, r.userMessageId = some u ∧ r.assistantMessageId = some a ∧
          HasRole s.db u .user ∧ HasRole s.db a .assistant) ∧
      (∀ r ∈ s.db.turnRequests.rows, ∀ r' ∈ s.db.turnRequests.rows, ∀ i,
        Refers r i → Refers r' i → r = r')) ∧
    (∀ r ∈ s.db.turnRequests.rows, r.status = .pending →
      r.userMessageId = none ∧ r.assistantMessageId = none ∧ r.replayPayload = none ∧
        r.payloadHash = reservationMarker s.db.historyGeneration) ∧
    (∀ e ∈ s.db.outboxEvents.rows, ∃ r, s.db.turnRequests.get? e.turnRequestId = some r) ∧
    (s.db.revision = (firstCommits es).length + resets es ∧
      (∀ r ∈ s.db.turnRequests.rows, r.status = .completed →
        r.committedRevision = some 0 ∨ ProducedBy es r) ∧
      (∀ r ∈ s.db.turnRequests.rows, ∀ n, r.committedRevision = some n → ProducedBy es r →
        1 ≤ n ∧ n ≤ s.db.revision) ∧
      (∀ r ∈ s.db.turnRequests.rows, ∀ r' ∈ s.db.turnRequests.rows,
        r.status = .completed → r'.status = .completed → ProducedBy es r → ProducedBy es r' →
        (r.committedRevision = r'.committedRevision → r = r') ∧
        ∀ n n' u u', r.committedRevision = some n → r'.committedRevision = some n' →
          r.userMessageId = some u → r'.userMessageId = some u' → (n < n' ↔ u < u'))) := by
  have hl := ledgerInv_reachable ⟨es, hrun⟩
  have hr := revisionInv_run hrun
  have hpos : ∀ r n, r.committedRevision = some n → ProducedBy es r → 0 < n := by
    rintro r n hn ⟨c, hc, _, hcr⟩
    rw [hn] at hcr
    cases hcr
    exact hr.positive c hc
  refine ⟨⟨hl.completed, hl.unshared⟩, ?_, hl.outbox, hr.count, hr.origin, ?_, ?_⟩
  · intro r hm hs
    obtain ⟨h1, h2, h3, _⟩ := hl.unfinished r hm (by rw [hs]; decide)
    exact ⟨h1, h2, h3, hl.marker r hm hs⟩
  · intro r hm n hn hp
    exact ⟨hpos r n hn hp, hr.rows.bound r hm n hn⟩
  · intro r hm r' hm' hs hs' hp hp'
    have hord : ∀ n n' u u', r.committedRevision = some n → r'.committedRevision = some n' →
        r.userMessageId = some u → r'.userMessageId = some u' → (n < n' ↔ u < u') := by
      intro n n' u u' hn hn'
      exact hr.rows.ordered r hm r' hm' n n' u u' hn hn' (hpos r n hn hp) (hpos r' n' hn' hp')
    refine ⟨?_, hord⟩
    -- equal revisions put the two messages in neither order, so it is one message and one row
    intro heq
    obtain ⟨u, _, hu, _⟩ := hl.completed r hm hs
    obtain ⟨u', _, hu', _⟩ := hl.completed r' hm' hs'
    obtain ⟨c, _, _, hn⟩ := hp
    have hn' := heq ▸ hn
    have h1 := hord _ _ u u' hn hn' hu hu'
    have h2 := hr.rows.ordered r' hm' r hm _ _ u' u hn' hn
      (hpos r' _ hn' hp') (hpos r' _ hn' hp') hu' hu
    have : u = u' := by omega
    subst this
    exact hl.unshared r hm r' hm' u (.inl hu) (.inl hu')

/-- The invariant after a first turn, which is counted. -/
theorem representation_invariant_first_turn :
    (firstCommits (trace sampleSha256 [sampleReserve, sampleCommit] .init)).length = 1 ∧
    (execAll sampleSha256 [sampleReserve, sampleCommit] .init).db.revision =
      (firstCommits (trace sampleSha256 [sampleReserve, sampleCommit] .init)).length
        + resets (trace sampleSha256 [sampleReserve, sampleCommit] .init) :=
  ⟨by decide +kernel, (representation_invariant (run_trace _ _)).2.2.2.1⟩

end Katherine.Local
