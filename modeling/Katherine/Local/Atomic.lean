import Katherine.Local.Revision

/-!
# Which failures are atomic

A call that raises should leave the tables as they were and no transaction open on
its connection. Each operation has its own `BEGIN … COMMIT` block, and whether it
keeps that promise depends on two things: what its statements can raise, and which
exceptions its `except` clauses name. `commit_turn` names them all. The others name
`sqlite3.Error` (the importer `ValidationError` too), while some of them serialise
or bind their arguments inside the block.

`Safe` is the condition under which nothing raised inside the block gets past those
clauses. `failsAtomically_iff` says that it is exact on an idle store, and
`atomic_failure` carries it along runs.
-/

namespace Katherine.Local

open Py Sql

/-- If the call raises, the tables are as before and no transaction is open. -/
def FailsAtomically (sha256 : PyStr → PyStr) (env : Env) (call : Call) (s : LocalStore) : Prop :=
  ∀ e, (exec sha256 env call s).1 = .error e → (exec sha256 env call s).2 = ⟨s.db, none⟩

section

variable (sha256 : PyStr → PyStr)

/-! ## The condition -/

/-- Every turn the importer gets to can be bound and serialised. A turn that is in the ledger
under another digest ends the import with an error the block does catch. -/
def ImportClean (now : PyStr) : List LegacyTurn → Db → Prop
  | [], _ => True
  | t :: ts, db =>
      encodable t.requestId = true ∧ encodable (legacyText t) = true ∧
      match db.turnRequests.get? t.requestId with
      | some row => row.payloadHash = sha256 (legacyText t) → ImportClean now ts db
      | none =>
          encodable t.userMessage = true ∧ encodable t.assistantMessage = true ∧
          encodable (t.created now) = true ∧
          ∃ text, dumpsDefault (importReplayPayload t (db.importMessages t now).chatLogs.seq)
              = some text ∧ encodable text = true ∧
            ImportClean now ts (db.importTurn t now (sha256 (legacyText t)) text)

/-- The call can be executed on these contents without an exception that its block does not
name. -/
def Safe (ck : Clock) (db : Db) : Call → Prop
  | .reserveRequest _ _ => True
  | .commitTurn _ => True
  | .releaseRequest requestId historyGeneration =>
      ∀ id g, validateRequestId requestId = .ok id →
        validateHistoryGeneration historyGeneration = .ok g → g < intTextLimit
  | .storeMemory content metadata =>
      ∀ text kvs, validateMessage content "memory content" = .ok text →
        metadata.items? = some kvs →
        ∃ doc, dumpsCompact true (.dict kvs) = some doc ∧ encodable text = true ∧
          encodable doc = true
  | .deleteHistory =>
      db.chatLogs.rows.length < intTextLimit ∧ db.turnRequests.rows.length < intTextLimit ∧
        db.outboxEvents.rows.length < intTextLimit
  | .deleteMemories => db.memories.rows.length < intTextLimit
  | .reset field neutral => field.validateNeutral neutral = .ok () → db.revision + 1 < 2 ^ 63
  | .trimHistory keepLast => ∀ n, PyVal.nat? keepLast = some n → n < 2 ^ 63
  | .importLegacyFixture fixture =>
      ∀ turns, validateLegacyFixture fixture = .ok turns → ImportClean sha256 ck.now.text turns db
  | .reopen => True

/-! ## Documents that can always be written -/

theorem serialisable_nat (o : DumpOpts) {n : Nat} :
    serialisable o (.int n) = true ↔ n < intTextLimit := by
  simp [serialisable]

/-- A report is written whenever its counts can be. -/
theorem serialisable_counts : ∀ (o : DumpOpts) (counts : List (PyStr × Nat)),
    serialisableItems o (counts.map fun c => (PyKey.str c.1, PyVal.int c.2)) = true ↔
      ∀ c ∈ counts, c.2 < intTextLimit
  | o, [] => by simp [serialisableItems]
  | o, c :: counts => by
      rw [List.map_cons, serialisableItems, Bool.and_eq_true, Bool.and_eq_true,
        serialisable_counts o counts, serialisable_nat]
      simp

theorem jsonDumps_report (r : Report) :
    (∃ text, jsonDumps r.doc = .ok text) ↔ ∀ c ∈ r.counts, c.2 < intTextLimit := by
  have hstr : sortable ((PyKey.str (py "status"), PyVal.str (py "applied"))
      :: r.counts.map fun c => (PyKey.str c.1, PyVal.int c.2)) = true := by
    simp [sortable, PyKey.isStr]
  have hser : serialisable ⟨true, true⟩ r.doc = true ↔ ∀ c ∈ r.counts, c.2 < intTextLimit := by
    rw [Report.doc, serialisable, hstr, serialisableItems, serialisable,
      ← serialisable_counts ⟨true, true⟩]
    simp
  rw [← hser, jsonDumps, dumpsCompact]
  cases serialisable ⟨true, true⟩ r.doc <;> simp [orRaise]

theorem StateField.neutralText_ok (field : StateField) (t : PosFloat) :
    ∃ text, field.neutralText t = .ok text := by
  cases field with
  | emotionalState =>
      have h : serialisable ⟨true, true⟩ (.dict (EmotionalStateV1.neutral t).toDict) = true := by
        simp [EmotionalStateV1.toDict, RangedFloat.toVal, PosFloat.toVal, serialisable,
          serialisableItems, sortable, PyKey.isStr, one_lt_intTextLimit]
      exact ⟨_, by rw [StateField.neutralText, jsonDumps, dumpsCompact, if_pos h]; rfl⟩
  | relationshipState =>
      have h : serialisable ⟨true, true⟩ (.dict (RelationshipStateV1.neutral t).toDict) = true := by
        simp [RelationshipStateV1.neutral, RelationshipStateV1.toDict, RangedFloat.toVal,
          PosFloat.toVal, serialisable, serialisableItems, serialisableElems, sortable, PyKey.isStr,
          Triggers.empty, one_lt_intTextLimit]
      exact ⟨_, by rw [StateField.neutralText, jsonDumps, dumpsCompact, if_pos h]; rfl⟩

/-! ## Each block -/

theorem reserveBlock_sealed (id message : PyStr) (ck : Clock) (db : Db) :
    (reserveBlock id message ck).Sealed db := by
  intro e d h
  simp only [reserveBlock] at h
  split at h
  · cases h
  · split at h <;> cases h

/-- The last clause of `commit_turn` names every exception. -/
theorem commitBlock_sealed (c : CommitInput) (hash : PyStr) (ck : Clock) (db : Db) :
    (commitBlock c hash ck).Sealed db := by
  intro e d _
  show (catchAll e).isSome
  cases e <;> rfl

theorem releaseBlock_sealed_iff {id : PyStr} {g : Nat} {db : Db} :
    (releaseBlock id g).Sealed db ↔ g < intTextLimit := by
  constructor
  · intro h
    by_contra hg
    have hraise : (releaseBlock id g).body db = .raise .value db := by
      simp [releaseBlock, require, hg]
    exact absurd (h _ _ hraise) Bool.false_ne_true
  · intro hg e d h
    simp only [releaseBlock, hg, decide_true, require_true, Outcome.attempt_ok] at h
    cases h

theorem storeMemoryBlock_sealed_iff {content : PyStr} {kvs : List (PyKey × PyVal)} {ck : Clock}
    {db : Db} : (storeMemoryBlock content (.dict kvs) ck).Sealed db ↔
      ∃ doc, dumpsCompact true (.dict kvs) = some doc ∧ encodable content = true ∧
        encodable doc = true := by
  constructor
  · intro h
    cases hdoc : dumpsCompact true (.dict kvs) with
    | none =>
        have hraise : (storeMemoryBlock content (.dict kvs) ck).body db =
            .raise (.validation .invalidPayload "payload is not JSON serializable") db := by
          simp [storeMemoryBlock, jsonDumps, hdoc, orRaise]
        exact absurd (h _ _ hraise) Bool.false_ne_true
    | some doc =>
        refine ⟨doc, rfl, ?_, ?_⟩
        · by_contra hc
          have hraise : (storeMemoryBlock content (.dict kvs) ck).body db =
              .raise .unicodeEncode db := by
            simp [storeMemoryBlock, jsonDumps, hdoc, orRaise, bindText, encodeUtf8, require, hc]
          exact absurd (h _ _ hraise) Bool.false_ne_true
        · by_contra hc
          have hraise : (storeMemoryBlock content (.dict kvs) ck).body db =
              .raise .unicodeEncode db := by
            by_cases hcontent : encodable content = true <;>
              simp [storeMemoryBlock, jsonDumps, hdoc, orRaise, bindText, encodeUtf8, require, hc,
                hcontent]
          exact absurd (h _ _ hraise) Bool.false_ne_true
  · rintro ⟨doc, hdoc, hcontent, henc⟩ e d h
    simp only [storeMemoryBlock, jsonDumps, hdoc, orRaise, bindText, encodeUtf8, hcontent, henc,
      require_true, Outcome.attempt_ok] at h
    -- what is left is the column's check, and that is a driver error
    rcases Outcome.attempt_eq_raise.mp h with ⟨hreq, _⟩ | ⟨_, _, h⟩
    · cases hv : jsonValid doc <;> rw [hv] at hreq <;> cases hreq
      rfl
    · cases h

/-- A block whose only risk is to write its report. -/
theorem report_sealed_iff {r : Report} {d : Db} {k : PyStr → Outcome Db Err Report}
    (hk : ∀ text e d', k text ≠ .raise e d') :
    (∀ e d', Outcome.attempt (jsonDumps r.doc) d k = .raise e d' → (catchSqlite e).isSome) ↔
      ∀ c ∈ r.counts, c.2 < intTextLimit := by
  rw [← jsonDumps_report]
  cases hj : jsonDumps r.doc with
  | ok text =>
      refine iff_of_true (fun e d' h => ?_) ⟨text, rfl⟩
      exact absurd h (hk text e d')
  | error err =>
      have herr : err = .validation .invalidPayload "payload is not JSON serializable" := by
        unfold jsonDumps orRaise at hj
        split at hj <;> cases hj
        rfl
      refine iff_of_false (fun h => ?_) (by rintro ⟨_, h⟩; cases h)
      exact absurd (h err d rfl) (by rw [herr]; decide)

theorem deleteHistoryBlock_sealed_iff {ck : Clock} {db : Db} :
    (deleteHistoryBlock ck).Sealed db ↔
      db.chatLogs.rows.length < intTextLimit ∧ db.turnRequests.rows.length < intTextLimit ∧
        db.outboxEvents.rows.length < intTextLimit := by
  have hempty : db.clearHistory.chatLogs.rows.isEmpty = true := by
    rw [(clearHistory_empty db).1]
    rfl
  unfold Block.Sealed
  simp only [deleteHistoryBlock, hempty, require_true, Outcome.attempt_ok]
  rw [report_sealed_iff (by simp)]
  simp

theorem deleteMemoriesBlock_sealed_iff {ck : Clock} {db : Db} :
    (deleteMemoriesBlock ck).Sealed db ↔ db.memories.rows.length < intTextLimit := by
  unfold Block.Sealed
  simp only [deleteMemoriesBlock]
  rw [report_sealed_iff (by simp)]
  simp

theorem resetBlock_sealed_iff {field : StateField} {ck : Clock} {db : Db} :
    (resetBlock field ck).Sealed db ↔ db.revision + 1 < 2 ^ 63 := by
  obtain ⟨text, htext⟩ := field.neutralText_ok ck.unix
  obtain ⟨other, hother⟩ := field.other.neutralText_ok ck.unixLater
  unfold Block.Sealed
  simp only [resetBlock, htext, hother, Outcome.attempt_ok]
  by_cases hrev : db.revision + 1 < 2 ^ 63
  · rw [iff_true_right hrev]
    simp only [bindInt_ok hrev, Outcome.attempt_ok]
    rw [report_sealed_iff (by simp)]
    have := Nat.lt_trans hrev lt_intTextLimit
    simpa using this
  · refine iff_of_false (fun h => ?_) hrev
    exact absurd (h .overflow db (by rw [bindInt_overflow hrev, Outcome.attempt_error])) (by decide)

theorem trimBlock_sealed_iff {n : Nat} {db : Db} : (trimBlock n).Sealed db ↔ n < 2 ^ 63 := by
  unfold Block.Sealed
  simp only [trimBlock]
  by_cases hn : n < 2 ^ 63
  · rw [iff_true_right hn, bindInt_ok hn]
    intro e d he
    rw [Outcome.attempt_ok] at he
    cases he
  · refine iff_of_false (fun h => ?_) hn
    exact absurd (h .overflow db (by rw [bindInt_overflow hn, Outcome.attempt_error])) (by decide)

/-! ### The import loop -/

omit sha256 in
/-- The loop stops here with an exception nobody names unless the text can be bound. -/
theorem attempt_text_sealed {α : Type} {s : PyStr} {d : Db} {k : Unit → Outcome Db Err α} :
    (∀ e d', Outcome.attempt (encodeUtf8 s) d k = .raise e d' → (catchImport e).isSome) ↔
      encodable s = true ∧ ∀ e d', k () = .raise e d' → (catchImport e).isSome := by
  unfold encodeUtf8
  by_cases hs : encodable s = true
  · simp [hs]
  · refine iff_of_false (fun h => ?_) (fun h => hs h.1)
    have hraise : Outcome.attempt (require (encodable s) .unicodeEncode) d k =
        .raise .unicodeEncode d := by
      simp [require, hs]
    exact absurd (h _ _ hraise) (by decide)

theorem attempt_legacyHash_sealed {α : Type} {t : LegacyTurn} {d : Db}
    {k : PyStr → Outcome Db Err α} :
    (∀ e d', Outcome.attempt (legacyHash sha256 t) d k = .raise e d' → (catchImport e).isSome) ↔
      encodable (legacyText t) = true ∧
        ∀ e d', k (sha256 (legacyText t)) = .raise e d' → (catchImport e).isSome := by
  have heq : Outcome.attempt (legacyHash sha256 t) d k =
      Outcome.attempt (encodeUtf8 (legacyText t)) d fun _ => k (sha256 (legacyText t)) := by
    unfold legacyHash encodeUtf8
    cases encodable (legacyText t) <;> rfl
  rw [heq, attempt_text_sealed]

omit sha256 in
theorem attempt_dumpReplay_sealed {α : Type} {v : PyVal} {d : Db} {k : PyStr → Outcome Db Err α} :
    (∀ e d', Outcome.attempt (dumpReplay v) d k = .raise e d' → (catchImport e).isSome) ↔
      ∃ text, dumpsDefault v = some text ∧
        ∀ e d', k text = .raise e d' → (catchImport e).isSome := by
  unfold dumpReplay
  cases hv : dumpsDefault v with
  | some text => simp [orRaise]
  | none =>
      refine iff_of_false (fun h => ?_) (by rintro ⟨_, h, _⟩; cases h)
      exact absurd (h .type d rfl) (by decide)

/-- **The importer's failures are caught exactly on clean turns.** -/
theorem importLoop_sealed_iff {now : PyStr} : ∀ {ts : List LegacyTurn} {i k : Nat} {db : Db},
    (∀ e d, importLoop sha256 now ts i k db = .raise e d → (catchImport e).isSome) ↔
      ImportClean sha256 now ts db
  | [], i, k, db => by simp [importLoop, ImportClean]
  | t :: ts, i, k, db => by
      rw [ImportClean]
      simp only [importLoop]
      rw [show bindText = encodeUtf8 from rfl, attempt_text_sealed]
      refine and_congr_right fun _ => ?_
      cases hrow : db.turnRequests.get? t.requestId with
      | some row =>
          simp only
          rw [attempt_legacyHash_sealed]
          refine and_congr_right fun _ => ?_
          by_cases hhash : row.payloadHash = sha256 (legacyText t)
          · simp only [hhash, ne_eq, not_true_eq_false, if_false, forall_const]
            exact importLoop_sealed_iff
          · simp [hhash, catchImport]
      | none =>
          simp only
          rw [attempt_text_sealed, attempt_text_sealed, attempt_text_sealed,
            attempt_legacyHash_sealed, attempt_dumpReplay_sealed]
          simp only [attempt_text_sealed, importLoop_sealed_iff]
          constructor
          · rintro ⟨huser, hcreated, hassistant, hlegacy, hrest⟩
            exact ⟨hlegacy, huser, hassistant, hcreated, hrest⟩
          · rintro ⟨hlegacy, huser, hassistant, hcreated, hrest⟩
            exact ⟨huser, hcreated, hassistant, hlegacy, hrest⟩

/-! ## Calls -/

omit sha256 in
/-- An operation with checked arguments fails atomically exactly when its block is sealed. -/
theorem perform_atomic_iff {α β : Type} {env : Env} {args : Except Err β}
    {block : β → Block Db Err α} {reply : α → Reply} {db : Db}
    (hraw : ∀ b, ((block b).catches .sqlite).isSome) :
    (∀ f e, (perform { env with fault := f } args block reply ⟨db, none⟩).1 = .error e →
        (perform { env with fault := f } args block reply ⟨db, none⟩).2 = ⟨db, none⟩) ↔
      ∀ b, args = .ok b → (block b).Sealed db := by
  cases args with
  | error e => simp [perform]
  | ok b =>
      have hmap : ∀ (r : Except Err α) e, r.map reply = .error e ↔ r = .error e := by
        intro r e
        cases r <;> simp [Except.map]
      simp only [perform, hmap, Except.ok.injEq, forall_eq']
      exact Block.atomic_iff env.thread (hraw b)

/-- **The condition is exact.** On an idle store a call fails atomically, whatever the driver
does, if and only if it is safe. -/
theorem failsAtomically_iff {env : Env} {call : Call} {db : Db} :
    (∀ f, FailsAtomically sha256 { env with fault := f } call ⟨db, none⟩) ↔
      Safe sha256 env.clock db call := by
  cases call with
  | reserveRequest requestId userMessage =>
      simp only [FailsAtomically, exec, Safe, iff_true]
      rw [perform_atomic_iff (fun _ => rfl)]
      exact fun p _ => reserveBlock_sealed _ _ _ _
  | commitTurn a =>
      simp only [FailsAtomically, exec, Safe, iff_true]
      intro f e he
      have hmap : (commitTurn sha256 { env with fault := f } a ⟨db, none⟩).1 = .error e := by
        cases hr : (commitTurn sha256 { env with fault := f } a ⟨db, none⟩).1 with
        | ok c => rw [hr] at he; cases he
        | error e' => rw [hr] at he; cases he; rfl
      show (commitTurn sha256 { env with fault := f } a ⟨db, none⟩).2 = ⟨db, none⟩
      revert hmap
      unfold commitTurn
      split
      · exact fun _ => rfl
      · rename_i c hash _
        have hsealed := commitBlock_sealed c hash env.clock db
        have hblock := (@Block.atomic_iff _ _ _ _ _ Err.sqlite env.thread _ _ rfl).mpr hsealed f e
        split
        · exact fun _ => rfl
        · simp only
          split
          · exact hblock
          · split
            · exact hblock
            · split <;> exact fun _ => rfl
            · exact fun _ => rfl
  | releaseRequest requestId historyGeneration =>
      simp only [FailsAtomically, exec, Safe]
      rw [perform_atomic_iff (fun _ => rfl)]
      simp only [releaseBlock_sealed_iff, both, bind_eq_ok]
      constructor
      · intro h id g hid hg
        exact h (id, g) ⟨id, hid, g, hg, rfl⟩
      · rintro h ⟨id, g⟩ ⟨id', hid, g', hg, heq⟩
        cases heq
        exact h id g hid hg
  | storeMemory content metadata =>
      simp only [FailsAtomically, exec, Safe]
      rw [perform_atomic_iff (fun _ => rfl)]
      simp only [storeMemoryBlock_sealed_iff, both, bind_eq_ok, orRaise_eq_ok]
      constructor
      · intro h text kvs ht hk
        exact h (text, kvs) ⟨text, ht, kvs, hk, rfl⟩
      · rintro h ⟨text, kvs⟩ ⟨text', ht, kvs', hk, heq⟩
        cases heq
        exact h text kvs ht hk
  | deleteHistory =>
      simp only [FailsAtomically, exec, Safe]
      rw [perform_atomic_iff (fun _ => rfl)]
      simp only [deleteHistoryBlock_sealed_iff, forall_const]
  | deleteMemories =>
      simp only [FailsAtomically, exec, Safe]
      rw [perform_atomic_iff (fun _ => rfl)]
      simp only [deleteMemoriesBlock_sealed_iff, forall_const]
  | reset field neutral =>
      simp only [FailsAtomically, exec, Safe]
      rw [perform_atomic_iff (fun _ => rfl)]
      simp only [resetBlock_sealed_iff]
      exact ⟨fun h => h (), fun h _ => h⟩
  | trimHistory keepLast =>
      simp only [FailsAtomically, exec, Safe]
      rw [perform_atomic_iff (fun _ => rfl)]
      simp only [trimBlock_sealed_iff, orRaise_eq_ok]
  | importLegacyFixture fixture =>
      simp only [FailsAtomically, exec, Safe]
      rw [perform_atomic_iff (fun _ => rfl)]
      exact forall_congr' fun turns => imp_congr_right fun _ => importLoop_sealed_iff sha256
  | reopen =>
      simp only [FailsAtomically, exec, Safe, iff_true]
      intro f e
      cases f <;> simp

/-! ## Runs -/

variable {sha256}

/-- A call that returned found the store idle and left it so. -/
theorem Event.ok_idle {e : Event sha256} {reply : Reply} (hidle : e.before.tx = none)
    (h : e.result = .ok reply) : e.after.tx = none := by
  have hx := e.executed
  rw [h] at hx
  cases hcall : e.call with
  | commitTurn a =>
      obtain ⟨r, hr, hmap⟩ := e.commitTurn_eq hcall
      rw [h] at hmap
      cases r with
      | error err => cases hmap
      | ok res =>
          obtain ⟨c, hash, _, _, ⟨_, _, _, _, _, hs⟩ | ⟨_, htx, _⟩⟩ := commitTurn_ok sha256 hr
          · rw [hs, hidle]
          · exact htx
  | reopen =>
      rw [hcall] at hx
      simp only [exec] at hx
      split at hx
      · exact (congrArg (fun p => p.2.tx) hx).symm
      · exact absurd (congrArg Prod.fst hx) (by simp)
  | _ =>
      rw [hcall, exec] at hx
      obtain ⟨_, _, _, _, _, htx, _⟩ := perform_ok hx
      exact htx

/-- The store is idle after every safe run, and then every step met the condition on an idle
store. -/
theorem idle_of_safe {es : List (Event sha256)} {s : LocalStore} (hrun : Run sha256 .init es s)
    (hsafe : ∀ e ∈ es, Safe sha256 e.env.clock e.before.db e.call) :
    s.tx = none ∧ ∀ e ∈ es, e.before.tx = none ∧
      FailsAtomically sha256 e.env e.call e.before := by
  induction hrun with
  | nil => exact ⟨rfl, by simp⟩
  | snoc e hrun ih =>
      obtain ⟨hidle, hall⟩ := ih fun e' he' => hsafe e' (by simp [he'])
      have hbefore : e.before = ⟨e.before.db, none⟩ := by
        rw [← hidle]
      have hatomic : FailsAtomically sha256 e.env e.call e.before := by
        rw [hbefore]
        exact (failsAtomically_iff sha256).mpr (hsafe e (by simp)) e.env.fault
      refine ⟨?_, ?_⟩
      · cases hres : e.result with
        | error err =>
            have := hatomic err (by rw [e.executed, hres])
            rw [e.executed] at this
            rw [show e.after = ⟨e.before.db, none⟩ from this]
        | ok reply => exact e.ok_idle hidle hres
      · intro e' he'
        rcases List.mem_append.mp he' with he' | he'
        · exact hall e' he'
        · obtain rfl : e' = e := by simpa using he'
          exact ⟨hidle, hatomic⟩

/-- **Atomic failure, and when the store provides it.** In every run of safe calls no
transaction is ever left open and every call that raises leaves the tables as they were; and on
an idle store a call has that property, whatever the driver does, exactly if it is safe. -/
theorem atomic_failure :
    (∀ (es : List (Event sha256)) (s : LocalStore), Run sha256 .init es s →
      (∀ e ∈ es, Safe sha256 e.env.clock e.before.db e.call) →
      s.tx = none ∧ ∀ e ∈ es, ∀ err, e.result = .error err →
        e.after.db = e.before.db ∧ e.after.tx = none) ∧
    (∀ (env : Env) (call : Call) (db : Db),
      (∀ f, FailsAtomically sha256 { env with fault := f } call ⟨db, none⟩) ↔
        Safe sha256 env.clock db call) := by
  refine ⟨?_, fun env call db => failsAtomically_iff sha256⟩
  intro es s hrun hsafe
  obtain ⟨hidle, hall⟩ := idle_of_safe hrun hsafe
  refine ⟨hidle, fun e he err herr => ?_⟩
  have hafter := (hall e he).2 err (by rw [e.executed, herr])
  rw [e.executed] at hafter
  rw [show e.after = ⟨e.before.db, none⟩ from hafter]
  exact ⟨rfl, rfl⟩

end

/-- A run of two safe calls, the second of which raises: the reservation stands and the store is
idle. -/
theorem atomic_failure_rejected_trim :
    (execAll sampleSha256 [sampleReserve, (sampleEnv, .trimHistory (.int (-1)))] .init).tx = none :=
  ((atomic_failure.1 _ _ (run_trace [sampleReserve, (sampleEnv, .trimHistory (.int (-1)))] .init))
    (by
      intro e he
      rcases List.mem_cons.mp he with rfl | he
      · trivial
      · obtain rfl := List.mem_singleton.mp he
        intro n hn
        cases hn)).1

/-- A memory whose metadata holds something that is no JSON value. -/
def unserialisableMemory : Call :=
  .storeMemory (.str (py "nota")) (.dict [(.str (py "k"), .obj)])

/-- **Not every failure is atomic.** `store_memory` serialises its metadata after `BEGIN`, and
its block names `sqlite3.Error` only: the call raises with the transaction open, and the next
operation of the thread cannot begin. -/
theorem store_memory_leaves_transaction_open :
    ¬ (∀ s, Reachable sampleSha256 s → ∀ env call, FailsAtomically sampleSha256 env call s) ∧
    (exec sampleSha256 sampleEnv unserialisableMemory .init).2.tx.isSome = true ∧
    (exec sampleSha256 sampleEnv .deleteHistory
      (exec sampleSha256 sampleEnv unserialisableMemory .init).2).1.isOk = false := by
  have hopen : (exec sampleSha256 sampleEnv unserialisableMemory .init).2.tx.isSome = true := by
    decide +kernel
  refine ⟨fun h => ?_, hopen, by decide +kernel⟩
  have hraises : (exec sampleSha256 sampleEnv unserialisableMemory .init).1 =
      .error (.validation .invalidPayload "payload is not JSON serializable") := by rfl
  have := h .init ⟨[], .nil⟩ sampleEnv unserialisableMemory _ hraises
  rw [this] at hopen
  cases hopen

end Katherine.Local
