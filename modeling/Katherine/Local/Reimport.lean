import Katherine.Local.Refusals

/-!
# Importing again

An import looks at each turn of its fixture once: the turn is written if its id is new,
skipped if the ledger has its digest under that id, and refused otherwise. `Passes` is a
run of that loop which refuses nothing. Afterwards every turn has its digest in the ledger
(`Passes.settled`), so a second run skips them all and writes nothing.

The digest covers the request id and the two messages. A turn that differs from what is
stored in its time or in its replay payload has the same digest, and is skipped too. Which turn
an import stops at can be read off the digests of the fixture and of the ledger, before anything
is written (`clashes_iff`).
-/

namespace Katherine.Local

open Py Sql

variable {sha256 : PyStr → PyStr}

/-! ## What the loop does -/

section

variable (sha256)

/-- Everything the statements bind for a turn that is new. -/
structure Storable (now : PyStr) (db : Db) (t : LegacyTurn) (hash text : PyStr) : Prop where
  requestId : bindText t.requestId = .ok ()
  userMessage : bindText t.userMessage = .ok ()
  createdAt : bindText (t.created now) = .ok ()
  assistantMessage : bindText t.assistantMessage = .ok ()
  hash : legacyHash sha256 t = .ok hash
  replay : dumpReplay (importReplayPayload t (db.chatLogs.seq + 2)) = .ok text
  text : bindText text = .ok ()

/-- The digest of a turn is the one the ledger has under its id. -/
structure SameDigest (db : Db) (t : LegacyTurn) : Prop where
  requestId : bindText t.requestId = .ok ()
  digest : ∃ row, db.turnRequests.get? t.requestId = some row ∧
    legacyHash sha256 t = .ok row.payloadHash

/-- The ledger has another digest under the id of a turn. -/
structure OtherDigest (db : Db) (t : LegacyTurn) : Prop where
  requestId : bindText t.requestId = .ok ()
  digest : ∃ row hash, db.turnRequests.get? t.requestId = some row ∧
    legacyHash sha256 t = .ok hash ∧ row.payloadHash ≠ hash

/-- The loop gets past these turns: so many are written, so many skipped. -/
inductive Passes (now : PyStr) : List LegacyTurn → Db → Nat → Nat → Db → Prop
  | nil {db : Db} : Passes now [] db 0 0 db
  | skip {t : LegacyTurn} {ts : List LegacyTurn} {db d : Db} {i k : Nat}
      (hsame : SameDigest sha256 db t) (hrest : Passes now ts db i k d) :
      Passes now (t :: ts) db i (k + 1) d
  | write {t : LegacyTurn} {ts : List LegacyTurn} {db d : Db} {i k : Nat} {hash text : PyStr}
      (habsent : db.turnRequests.get? t.requestId = none)
      (hstorable : Storable sha256 now db t hash text)
      (hrest : Passes now ts (db.importTurn t now hash text) i k d) :
      Passes now (t :: ts) db (i + 1) k d

end

/-- One turn that is skipped. -/
theorem importLoop_skip {now : PyStr} {t : LegacyTurn} {ts : List LegacyTurn} {i k : Nat} {db : Db}
    (h : SameDigest sha256 db t) :
    importLoop sha256 now (t :: ts) i k db = importLoop sha256 now ts i (k + 1) db := by
  obtain ⟨hid, row, hrow, hhash⟩ := h
  simp only [importLoop, hid, hrow, hhash, Outcome.attempt_ok, ne_eq, not_true_eq_false, if_false]

/-- One turn that is written. -/
theorem importLoop_write {now : PyStr} {t : LegacyTurn} {ts : List LegacyTurn} {i k : Nat} {db : Db}
    {hash text : PyStr} (habsent : db.turnRequests.get? t.requestId = none)
    (h : Storable sha256 now db t hash text) :
    importLoop sha256 now (t :: ts) i k db =
      importLoop sha256 now ts (i + 1) k (db.importTurn t now hash text) := by
  obtain ⟨hid, huser, hcreated, hassistant, hhash, hreplay, htext⟩ := h
  have hseq : (db.importMessages t now).chatLogs.seq = db.chatLogs.seq + 2 := rfl
  simp only [importLoop, hid, habsent, huser, hcreated, hassistant, hhash, hseq, hreplay, htext,
    Outcome.attempt_ok]

/-- The `ValidationError` for a turn under a taken id. -/
def legacyConflict : Err := .validation .legacyRequestIdConflict
  "fixture request id conflicts with a different already-imported turn"

theorem importLoop_clash {now : PyStr} {t : LegacyTurn} {ts : List LegacyTurn} {i k : Nat} {db : Db}
    (h : OtherDigest sha256 db t) :
    importLoop sha256 now (t :: ts) i k db = .raise legacyConflict db := by
  obtain ⟨hid, row, hash, hrow, hhash, hne⟩ := h
  simp only [importLoop, hid, hrow, hhash, Outcome.attempt_ok, ne_eq, hne, not_false_eq_true, if_true]
  rfl

/-- One of the three domain errors. -/
def Err.isDomain : Err → Bool
  | .validation _ _ => true
  | .conflict _ _ _ _ _ => true
  | .persistence _ _ => true
  | _ => false

/-- What cannot be bound or written is no domain error. -/
theorem raises_unwritable (sha256 : PyStr → PyStr) (t : LegacyTurn) :
    (∀ s, Raises (!·.isDomain) (bindText s)) ∧ Raises (!·.isDomain) (legacyHash sha256 t) ∧
      ∀ v, Raises (!·.isDomain) (dumpReplay v) :=
  ⟨fun _ => .require rfl, .bind (.require rfl) fun _ => .ok _, fun _ => .orRaise rfl⟩

/-- The loop over `ts`, and then over what follows. -/
theorem Passes.importLoop {now : PyStr} {ts : List LegacyTurn} {db d : Db} {i k : Nat}
    (h : Passes sha256 now ts db i k d) (rest : List LegacyTurn) (i₀ k₀ : Nat) :
    importLoop sha256 now (ts ++ rest) i₀ k₀ db = importLoop sha256 now rest (i₀ + i) (k₀ + k) d := by
  induction h generalizing i₀ k₀ with
  | nil => rfl
  | skip hsame _ ih =>
      rw [List.cons_append, importLoop_skip hsame, ih]
      congr 1
      omega
  | write habsent hstorable _ ih =>
      rw [List.cons_append, importLoop_write habsent hstorable, ih]
      congr 1
      omega

/-- **An import that commits got past every turn.** -/
theorem importLoop_eq_commit {now : PyStr} : ∀ {ts : List LegacyTurn} {i₀ k₀ : Nat} {db d : Db}
    {r : ImportReport}, importLoop sha256 now ts i₀ k₀ db = .commit r d →
    ∃ i k, Passes sha256 now ts db i k d ∧ r = ⟨i₀ + i, k₀ + k, d.turnRequests.rows.length⟩
  | [], _, _, _, _, _, h => by
      cases h
      exact ⟨0, 0, .nil, rfl⟩
  | t :: ts, i₀, k₀, db, d, r, h => by
      simp only [Local.importLoop, Outcome.attempt_eq_commit] at h
      obtain ⟨_, hid, h⟩ := h
      split at h
      · next row hrow =>
          obtain ⟨hash, hhash, h⟩ := Outcome.attempt_eq_commit.mp h
          split at h
          · cases h
          · next heq =>
              obtain ⟨i, k, hpasses, rfl⟩ := importLoop_eq_commit h
              rw [← not_not.mp heq] at hhash
              refine ⟨i, k + 1, .skip ⟨hid, row, hrow, hhash⟩ hpasses, ?_⟩
              simp only [ImportReport.mk.injEq, and_true, true_and]
              omega
      · next habsent =>
          simp only [Outcome.attempt_eq_commit] at h
          obtain ⟨_, huser, _, hcreated, _, hassistant, hash, hhash, text, hreplay, _, htext, h⟩ := h
          obtain ⟨i, k, hpasses, rfl⟩ := importLoop_eq_commit h
          refine ⟨i + 1, k, .write habsent ⟨hid, huser, hcreated, hassistant, hhash, hreplay, htext⟩ hpasses, ?_⟩
          simp only [ImportReport.mk.injEq, and_true]
          omega

/-- The loop stops at a turn whose digest is another. -/
def Clashes (sha256 : PyStr → PyStr) (now : PyStr) (ts : List LegacyTurn) (db d : Db) : Prop :=
  ∃ before t after i k, ts = before ++ t :: after ∧ Passes sha256 now before db i k d ∧
    OtherDigest sha256 d t

theorem Clashes.skip {now : PyStr} {t : LegacyTurn} {ts : List LegacyTurn} {db d : Db}
    (hsame : SameDigest sha256 db t) (h : Clashes sha256 now ts db d) : Clashes sha256 now (t :: ts) db d := by
  obtain ⟨before, t', after, i, k, rfl, hpasses, hother⟩ := h
  exact ⟨t :: before, t', after, i, k + 1, rfl, .skip hsame hpasses, hother⟩

theorem Clashes.write {now : PyStr} {t : LegacyTurn} {ts : List LegacyTurn} {db d : Db}
    {hash text : PyStr} (habsent : db.turnRequests.get? t.requestId = none)
    (hstorable : Storable sha256 now db t hash text)
    (h : Clashes sha256 now ts (db.importTurn t now hash text) d) : Clashes sha256 now (t :: ts) db d := by
  obtain ⟨before, t', after, i, k, rfl, hpasses, hother⟩ := h
  exact ⟨t :: before, t', after, i + 1, k, rfl, .write habsent hstorable hpasses, hother⟩

theorem Clashes.importLoop {now : PyStr} {ts : List LegacyTurn} {db d : Db}
    (h : Clashes sha256 now ts db d) (i₀ k₀ : Nat) :
    importLoop sha256 now ts i₀ k₀ db = .raise legacyConflict d := by
  obtain ⟨before, t, after, i, k, rfl, hpasses, hother⟩ := h
  rw [hpasses.importLoop, importLoop_clash hother]

/-- **What an import raises**: the conflict, at a turn whose digest is another, or what nobody
translates. -/
theorem importLoop_eq_raise {now : PyStr} : ∀ {ts : List LegacyTurn} {i₀ k₀ : Nat} {db d : Db} {e : Err},
    importLoop sha256 now ts i₀ k₀ db = .raise e d →
    (e = legacyConflict ∧ Clashes sha256 now ts db d) ∨ e.isDomain = false
  | [], _, _, _, _, _, h => by cases h
  | t :: ts, i₀, k₀, db, d, e, h => by
      obtain ⟨hbind, hdigest, hdump⟩ := raises_unwritable sha256 t
      have hother : ∀ {α : Type} {x : Except Err α}, Raises (!·.isDomain) x → x = .error e →
          e.isDomain = false := fun hx he => by simpa using hx e he
      simp only [Local.importLoop, Outcome.attempt_eq_raise] at h
      rcases h with ⟨he, _⟩ | ⟨_, hid, h⟩
      · exact .inr (hother (hbind _) he)
      split at h
      · next row hrow =>
          rcases Outcome.attempt_eq_raise.mp h with ⟨he, _⟩ | ⟨hash, hhash, h⟩
          · exact .inr (hother hdigest he)
          split at h
          · next hne =>
              cases h
              exact .inl ⟨rfl, [], t, ts, 0, 0, rfl, .nil, hid, row, hash, hrow, hhash, hne⟩
          · next heq =>
              rw [← not_not.mp heq] at hhash
              rcases importLoop_eq_raise h with ⟨he, hclash⟩ | hdomain
              · exact .inl ⟨he, hclash.skip ⟨hid, row, hrow, hhash⟩⟩
              · exact .inr hdomain
      · next habsent =>
          simp only [Outcome.attempt_eq_raise] at h
          rcases h with ⟨he, _⟩ | ⟨_, huser, ⟨he, _⟩ | ⟨_, hcreated, ⟨he, _⟩ | ⟨_, hassistant, ⟨he, _⟩ |
            ⟨hash, hhash, ⟨he, _⟩ | ⟨text, hreplay, ⟨he, _⟩ | ⟨_, htext, h⟩⟩⟩⟩⟩⟩
          · exact .inr (hother (hbind _) he)
          · exact .inr (hother (hbind _) he)
          · exact .inr (hother (hbind _) he)
          · exact .inr (hother hdigest he)
          · exact .inr (hother (hdump _) he)
          · exact .inr (hother (hbind _) he)
          · rcases importLoop_eq_raise h with ⟨he, hclash⟩ | hdomain
            · exact .inl ⟨he, hclash.write habsent
                ⟨hid, huser, hcreated, hassistant, hhash, hreplay, htext⟩⟩
            · exact .inr hdomain

theorem importLoop_ne_rollback {now : PyStr} : ∀ {ts : List LegacyTurn} {i₀ k₀ : Nat} {db : Db}
    {r : Except Err ImportReport}, importLoop sha256 now ts i₀ k₀ db ≠ .rollback r
  | [], _, _, _, _ => nofun
  | t :: ts, i₀, k₀, db, r => by
      intro h
      simp only [Local.importLoop, Outcome.attempt_eq_rollback] at h
      obtain ⟨_, _, h⟩ := h
      split at h
      · obtain ⟨_, _, h⟩ := Outcome.attempt_eq_rollback.mp h
        split at h
        · cases h
        · exact importLoop_ne_rollback h
      · simp only [Outcome.attempt_eq_rollback] at h
        obtain ⟨_, _, _, _, _, _, _, _, _, _, _, _, h⟩ := h
        exact importLoop_ne_rollback h

/-! ## A second import -/

/-- Every turn was written or skipped. -/
theorem Passes.counts {now : PyStr} {ts : List LegacyTurn} {db d : Db} {i k : Nat}
    (h : Passes sha256 now ts db i k d) : i + k = ts.length := by
  induction h with
  | nil => rfl
  | skip _ _ ih =>
      rw [List.length_cons, ← ih]
      omega
  | write _ _ _ ih =>
      rw [List.length_cons, ← ih]
      omega

/-- The ledger rows of before stay. -/
theorem Passes.keeps {now : PyStr} {ts : List LegacyTurn} {db d : Db} {i k : Nat}
    (h : Passes sha256 now ts db i k d) {id : PyStr} {row : TurnRequest}
    (hrow : db.turnRequests.get? id = some row) : d.turnRequests.get? id = some row := by
  induction h with
  | nil => exact hrow
  | skip _ _ ih => exact ih hrow
  | write _ _ _ ih => exact ih (Table.get?_insertNew_of_some hrow)

theorem SameDigest.keeps {now : PyStr} {ts : List LegacyTurn} {db d : Db} {i k : Nat} {t : LegacyTurn}
    (h : SameDigest sha256 db t) (hpasses : Passes sha256 now ts db i k d) : SameDigest sha256 d t := by
  obtain ⟨hid, row, hrow, hhash⟩ := h
  exact ⟨hid, row, hpasses.keeps hrow, hhash⟩

/-- The row of a turn that was written. -/
theorem get?_importTurn (now hash text : PyStr) {db : Db} {t : LegacyTurn}
    (habsent : db.turnRequests.get? t.requestId = none) :
    (db.importTurn t now hash text).turnRequests.get? t.requestId =
      some (importedRow t hash text (t.created now) (db.chatLogs.seq + 1) (db.chatLogs.seq + 2)) := by
  show (db.turnRequests.insertNew _).get? t.requestId = _
  rw [Table.get?_insertNew]
  refine (if_pos rfl).trans ?_
  show some ((db.turnRequests.get? t.requestId).getD _) = _
  rw [habsent]
  rfl

/-- It has its digest in the ledger. -/
theorem Storable.sameDigest {now : PyStr} {db : Db} {t : LegacyTurn} {hash text : PyStr}
    (habsent : db.turnRequests.get? t.requestId = none) (h : Storable sha256 now db t hash text) :
    SameDigest sha256 (db.importTurn t now hash text) t := by
  exact ⟨h.requestId, _, get?_importTurn now hash text habsent, h.hash⟩

/-- **Afterwards every turn has its digest in the ledger.** -/
theorem Passes.settled {now : PyStr} {ts : List LegacyTurn} {db d : Db} {i k : Nat}
    (h : Passes sha256 now ts db i k d) : ∀ t ∈ ts, SameDigest sha256 d t := by
  induction h with
  | nil => exact List.forall_mem_nil _
  | skip hsame hrest ih => exact List.forall_mem_cons.mpr ⟨hsame.keeps hrest, ih⟩
  | write habsent hstorable hrest ih =>
      exact List.forall_mem_cons.mpr ⟨(hstorable.sameDigest habsent).keeps hrest, ih⟩

/-- Turns that have their digests in the ledger are all skipped. -/
theorem passes_settled (now : PyStr) {db : Db} : ∀ {ts : List LegacyTurn},
    (∀ t ∈ ts, SameDigest sha256 db t) → Passes sha256 now ts db 0 ts.length db
  | [], _ => .nil
  | _ :: _, h => .skip (h _ List.mem_cons_self) (passes_settled now fun t ht => h t (List.mem_cons_of_mem _ ht))

/-- An import that returned. -/
theorem import_passes {env : Env} {fixture : PyVal} {s s' : LocalStore} {rep : ImportReport}
    (h : exec sha256 env (.importLegacyFixture fixture) s = (.ok (.imported rep), s')) :
    ∃ turns i k, validateLegacyFixture fixture = .ok turns ∧ s'.tx = none ∧
      Passes sha256 env.clock.now.text turns s.db i k s'.db ∧
      rep = ⟨i, k, s'.db.turnRequests.rows.length⟩ := by
  rw [exec] at h
  obtain ⟨turns, rep', hvalid, hrep, _, htx', hbody⟩ := perform_ok h
  cases hrep
  rcases hbody with hbody | ⟨hbody, _⟩
  · obtain ⟨i, k, hpasses, rfl⟩ := importLoop_eq_commit hbody
    refine ⟨turns, i, k, hvalid, htx', hpasses, ?_⟩
    simp only [Nat.zero_add]
  · exact absurd hbody importLoop_ne_rollback

/-- Turns that have their digests in the ledger, imported again. -/
theorem import_settled {env : Env} {fixture : PyVal} {turns : List LegacyTurn} {s : LocalStore}
    (hvalid : validateLegacyFixture fixture = .ok turns) (hidle : s.tx = none)
    (hfault : env.fault = .none) (h : ∀ t ∈ turns, SameDigest sha256 s.db t) :
    exec sha256 env (.importLegacyFixture fixture) s =
      (.ok (.imported ⟨0, turns.length, s.db.turnRequests.rows.length⟩), s) := by
  have hbody : (importBlock sha256 turns env.clock).body s.db =
      .commit ⟨0, turns.length, s.db.turnRequests.rows.length⟩ s.db := by
    have hloop := (passes_settled env.clock.now.text h).importLoop [] 0 0
    simp only [List.append_nil, Nat.zero_add] at hloop
    exact hloop
  have hs : (⟨s.db, none⟩ : LocalStore) = s := by rw [← hidle]
  simp only [exec, perform, hvalid, Block.run, hidle, hfault, hbody, hs]
  rfl

/-- **Importing twice is importing once, and a refused import writes nothing.** From any store:

* after an import that returned, the same fixture imports with nothing written and every turn
  skipped, and the store is as before;
* an import that raises a domain error leaves the tables as they were, and no transaction open
  that was not open before. -/
theorem import_idempotent (env : Env) (fixture : PyVal) (s s' : LocalStore) :
    (∀ rep, exec sha256 env (.importLegacyFixture fixture) s = (.ok (.imported rep), s') →
      ∀ env' : Env, env'.fault = .none → exec sha256 env' (.importLegacyFixture fixture) s' =
        (.ok (.imported ⟨0, rep.importedTurns + rep.skippedDuplicates, rep.totalTurnsAfter⟩), s')) ∧
    (∀ e, exec sha256 env (.importLegacyFixture fixture) s = (.error e, s') → e.isDomain = true →
      s'.db = s.db ∧ (s'.tx = none ∨ s'.tx = s.tx)) := by
  constructor
  · intro rep h env' hfault
    obtain ⟨turns, i, k, hvalid, hidle, hpasses, rfl⟩ := import_passes h
    have hcounts := hpasses.counts
    rw [import_settled hvalid hidle hfault hpasses.settled, ← hcounts]
  · intro e h hdomain
    rw [exec] at h
    rcases perform_cases h with ⟨_, _, _, rfl⟩ | ⟨turns, r₀, _, hrun, hr⟩
    · exact ⟨rfl, .inr rfl⟩
    rcases Block.run_cases hrun with ⟨_, _, _, _, rfl, _⟩ | ⟨_, hbody, _⟩ | ⟨e', rfl, hdb, htx⟩
    · cases hr
    · exact absurd hbody importLoop_ne_rollback
    · refine ⟨hdb, ?_⟩
      cases hr
      rcases htx with htx | htx | ⟨d, hbody, huncaught, _⟩ | ⟨huncaught, _⟩
      · exact .inl htx
      · exact .inr htx
      · -- what no clause names is no domain error
        rcases importLoop_eq_raise hbody with ⟨rfl, _⟩ | hother
        · cases huncaught
        · rw [hother] at hdomain
          cases hdomain
      · cases huncaught

/-! ## What an import adds -/

/-- The two messages of an imported turn; `x.2` is the row of its answer. -/
def importedMessages (now : PyStr) (x : LegacyTurn × Nat) : List (Nat × ChatLog) :=
  [(x.2 - 1, ⟨.user, x.1.userMessage, x.1.created now⟩),
    (x.2, ⟨.assistant, x.1.assistantMessage, x.1.created now⟩)]

/-- The turns of a fixture that are new to these contents. -/
def Db.newTurns (db : Db) (ts : List LegacyTurn) : List (LegacyTurn × Nat) :=
  Local.newTurns db.requestIds db.chatLogs.seq ts

theorem SameDigest.newTurns {db : Db} {t : LegacyTurn} (h : SameDigest sha256 db t) (ts : List LegacyTurn) :
    db.newTurns (t :: ts) = db.newTurns ts := by
  obtain ⟨row, hrow, _⟩ := h.digest
  rw [Db.newTurns, Local.newTurns, if_pos (mem_requestIds hrow)]
  rfl

theorem newTurns_importTurn (now hash text : PyStr) {db : Db} {t : LegacyTurn}
    (habsent : db.turnRequests.get? t.requestId = none) (ts : List LegacyTurn) :
    db.newTurns (t :: ts) = (t, db.chatLogs.seq + 2) :: (db.importTurn t now hash text).newTurns ts := by
  rw [Db.newTurns, Local.newTurns, if_neg (not_mem_requestIds habsent), Db.newTurns,
    requestIds_importTurn now hash text habsent]
  rfl

/-- **The messages of the new turns are appended**, in the order of the fixture. -/
theorem Passes.chatLogs {now : PyStr} {ts : List LegacyTurn} {db d : Db} {i k : Nat}
    (h : Passes sha256 now ts db i k d) :
    d.chatLogs.rows = db.chatLogs.rows ++ (db.newTurns ts).flatMap (importedMessages now) := by
  induction h with
  | nil =>
      rw [Db.newTurns, Local.newTurns, List.flatMap_nil, List.append_nil]
  | skip hsame _ ih => rw [ih, hsame.newTurns]
  | @write t ts db d i k hash text habsent _ _ ih =>
      rw [ih, newTurns_importTurn now hash text habsent, List.flatMap_cons,
        ← List.append_assoc]
      congr 1
      show (db.chatLogs.rows ++ [(db.chatLogs.seq + 1, _)]) ++ [(db.chatLogs.seq + 1 + 1, _)] = _
      rw [List.append_assoc]
      rfl

theorem Passes.frame {now : PyStr} {ts : List LegacyTurn} {db d : Db} {i k : Nat}
    (h : Passes sha256 now ts db i k d) : d.profile = db.profile ∧ d.memories = db.memories := by
  induction h with
  | nil => exact ⟨rfl, rfl⟩
  | skip _ _ ih => exact ih
  | write _ _ _ ih => exact ih

/-- Every message of before stays. -/
theorem Passes.keepsChat {now : PyStr} {ts : List LegacyTurn} {db d : Db} {i k : Nat}
    (h : Passes sha256 now ts db i k d) {j : Nat} {c : ChatLog} (hc : db.chatLogs.get? j = some c) :
    d.chatLogs.get? j = some c := by
  rw [AutoTable.get?_eq_some, h.chatLogs]
  exact List.mem_append_left _ (AutoTable.get?_eq_some.mp hc)

/-- An imported turn as the ledger has it. -/
structure Imported (now : PyStr) (d : Db) (x : LegacyTurn × Nat) (hash text : PyStr) : Prop where
  ledger : d.turnRequests.get? x.1.requestId =
    some (importedRow x.1 hash text (x.1.created now) (x.2 - 1) x.2)
  userMessage : d.chatLogs.get? (x.2 - 1) = some ⟨.user, x.1.userMessage, x.1.created now⟩
  replay : dumpReplay (importReplayPayload x.1 x.2) = .ok text

/-- **Every new turn is in the ledger afterwards.** -/
theorem Passes.imported {now : PyStr} {ts : List LegacyTurn} {db d : Db} {i k : Nat}
    (h : Passes sha256 now ts db i k d) :
    ∀ x ∈ db.newTurns ts, ∃ hash text, Imported now d x hash text := by
  induction h with
  | nil => exact List.forall_mem_nil _
  | skip hsame _ ih =>
      rw [hsame.newTurns]
      exact ih
  | @write t ts db d i k hash text habsent hstorable hrest ih =>
      rw [newTurns_importTurn now hash text habsent]
      refine List.forall_mem_cons.mpr ⟨⟨hash, text, hrest.keeps ?_, hrest.keepsChat ?_, hstorable.replay⟩, ih⟩
      · exact get?_importTurn now hash text habsent
      · exact AutoTable.get?_insert_of_some (AutoTable.get?_insert_self _ _)

/-! ## Where an import stops -/

section

variable (sha256)

/-- The digest under an id when the turns `before` have been imported: that of the ledger, or else of
the first of them. -/
def digestUnder (db : Db) (before : List LegacyTurn) (id : PyStr) : Option PyStr :=
  match db.turnRequests.get? id with
  | some row => some row.payloadHash
  | none => (before.find? fun t => decide (t.requestId = id)).map fun t => sha256 (legacyText t)

omit sha256 in
/-- What is written for a turn that is new can be bound. -/
structure Bindable (now : PyStr) (t : LegacyTurn) (assistantId : Nat) : Prop where
  userMessage : bindText t.userMessage = .ok ()
  createdAt : bindText (t.created now) = .ok ()
  assistantMessage : bindText t.assistantMessage = .ok ()
  replay : ∃ text, dumpReplay (importReplayPayload t assistantId) = .ok text ∧ bindText text = .ok ()

/-- Behind the turns `before`, the import gets past `t`: the digest under its id is its own, or there is
none and it can be written. -/
structure GetsPast (now : PyStr) (db : Db) (before : List LegacyTurn) (t : LegacyTurn) : Prop where
  requestId : bindText t.requestId = .ok ()
  text : encodeUtf8 (legacyText t) = .ok ()
  known : ∀ digest, digestUnder sha256 db before t.requestId = some digest → digest = sha256 (legacyText t)
  fresh : digestUnder sha256 db before t.requestId = none →
    Bindable now t (db.chatLogs.seq + 2 * (db.newTurns before).length + 2)

/-- Behind the turns `before`, another digest is under the id of `t`. -/
structure Conflicts (db : Db) (before : List LegacyTurn) (t : LegacyTurn) : Prop where
  requestId : bindText t.requestId = .ok ()
  text : encodeUtf8 (legacyText t) = .ok ()
  other : ∃ digest, digestUnder sha256 db before t.requestId = some digest ∧ digest ≠ sha256 (legacyText t)

/-- The import gets past each of these turns. -/
def GetsPastAll (now : PyStr) (db : Db) (ts : List LegacyTurn) : Prop :=
  ∀ before t after, ts = before ++ t :: after → GetsPast sha256 now db before t

/-- The first turn that the import does not get past is one that has another digest. -/
def StopsAtConflict (now : PyStr) (db : Db) (ts : List LegacyTurn) : Prop :=
  ∃ before t after, ts = before ++ t :: after ∧ GetsPastAll sha256 now db before ∧ Conflicts sha256 db before t

end

theorem legacyHash_eq_ok {t : LegacyTurn} {hash : PyStr} :
    legacyHash sha256 t = .ok hash ↔ encodeUtf8 (legacyText t) = .ok () ∧ hash = sha256 (legacyText t) := by
  rw [legacyHash, bind_eq_ok]
  constructor
  · rintro ⟨_, htext, hhash⟩
    exact ⟨htext, (Except.ok.inj hhash).symm⟩
  · rintro ⟨htext, rfl⟩
    exact ⟨(), htext, rfl⟩

theorem digestUnder_of_some {db : Db} {id : PyStr} {row : TurnRequest} (h : db.turnRequests.get? id = some row)
    (before : List LegacyTurn) : digestUnder sha256 db before id = some row.payloadHash := by
  rw [digestUnder, h]

/-- A turn that is skipped brings no digest. -/
theorem digestUnder_skip {db : Db} {t : LegacyTurn} (h : SameDigest sha256 db t) (before : List LegacyTurn)
    (id : PyStr) : digestUnder sha256 db (t :: before) id = digestUnder sha256 db before id := by
  obtain ⟨-, row, hrow, -⟩ := h
  by_cases hid : t.requestId = id
  · rw [← hid, digestUnder_of_some hrow, digestUnder_of_some hrow]
  · rw [digestUnder, digestUnder, List.find?_cons_of_neg (by simpa using hid)]

/-- A turn that is written brings its own. -/
theorem digestUnder_write (now text : PyStr) {db : Db} {t : LegacyTurn}
    (habsent : db.turnRequests.get? t.requestId = none) (before : List LegacyTurn) (id : PyStr) :
    digestUnder sha256 (db.importTurn t now (sha256 (legacyText t)) text) before id =
      digestUnder sha256 db (t :: before) id := by
  by_cases hid : t.requestId = id
  · rw [← hid, digestUnder_of_some (get?_importTurn now _ text habsent), digestUnder, habsent,
      List.find?_cons_of_pos (by simp)]
    rfl
  · have hget : (db.importTurn t now (sha256 (legacyText t)) text).turnRequests.get? id =
        db.turnRequests.get? id :=
      (Table.get?_insertNew _ _ _).trans (if_neg (Ne.symm hid))
    rw [digestUnder, digestUnder, hget, List.find?_cons_of_neg (by simpa using hid)]

/-- The first turn. -/
theorem getsPast_first {now : PyStr} {db : Db} {t : LegacyTurn} :
    GetsPast sha256 now db [] t ↔ SameDigest sha256 db t ∨
      (db.turnRequests.get? t.requestId = none ∧
        ∃ text, Storable sha256 now db t (sha256 (legacyText t)) text) := by
  have hnone : db.turnRequests.get? t.requestId = none → digestUnder sha256 db [] t.requestId = none := by
    intro h
    rw [digestUnder, h]
    rfl
  constructor
  · rintro ⟨hid, htext, hknown, hfresh⟩
    cases hrow : db.turnRequests.get? t.requestId with
    | some row =>
        have hsame := hknown _ (digestUnder_of_some hrow [])
        exact .inl ⟨hid, row, hrow, legacyHash_eq_ok.mpr ⟨htext, hsame⟩⟩
    | none =>
        obtain ⟨huser, hcreated, hassistant, text, hreplay, hbind⟩ := hfresh (hnone hrow)
        exact .inr ⟨rfl, text, hid, huser, hcreated, hassistant, legacyHash_eq_ok.mpr ⟨htext, rfl⟩, hreplay, hbind⟩
  · rintro (⟨hid, row, hrow, hhash⟩ | ⟨habsent, text, hstorable⟩)
    · obtain ⟨htext, hsame⟩ := legacyHash_eq_ok.mp hhash
      refine ⟨hid, htext, fun digest hdigest => ?_, fun hfresh => ?_⟩
      · rw [digestUnder_of_some hrow] at hdigest
        rw [← Option.some.inj hdigest]
        exact hsame
      · rw [digestUnder_of_some hrow] at hfresh
        cases hfresh
    · obtain ⟨hid, huser, hcreated, hassistant, hhash, hreplay, hbind⟩ := hstorable
      refine ⟨hid, (legacyHash_eq_ok.mp hhash).1, fun digest hdigest => ?_,
        fun _ => ⟨huser, hcreated, hassistant, text, hreplay, hbind⟩⟩
      rw [hnone habsent] at hdigest
      cases hdigest

theorem getsPast_skip {now : PyStr} {db : Db} {t u : LegacyTurn} (h : SameDigest sha256 db t)
    (before : List LegacyTurn) : GetsPast sha256 now db (t :: before) u ↔ GetsPast sha256 now db before u := by
  constructor
  · rintro ⟨hid, htext, hknown, hfresh⟩
    rw [digestUnder_skip h] at hknown hfresh
    rw [h.newTurns] at hfresh
    exact ⟨hid, htext, hknown, hfresh⟩
  · rintro ⟨hid, htext, hknown, hfresh⟩
    rw [← h.newTurns] at hfresh
    rw [← digestUnder_skip h] at hknown hfresh
    exact ⟨hid, htext, hknown, hfresh⟩

theorem getsPast_write (now text : PyStr) {db : Db} {t u : LegacyTurn}
    (habsent : db.turnRequests.get? t.requestId = none) (before : List LegacyTurn) :
    GetsPast sha256 now db (t :: before) u ↔
      GetsPast sha256 now (db.importTurn t now (sha256 (legacyText t)) text) before u := by
  have hrow : db.chatLogs.seq + 2 * (db.newTurns (t :: before)).length + 2 =
      (db.importTurn t now (sha256 (legacyText t)) text).chatLogs.seq +
        2 * ((db.importTurn t now (sha256 (legacyText t)) text).newTurns before).length + 2 := by
    have hseq : (db.importTurn t now (sha256 (legacyText t)) text).chatLogs.seq = db.chatLogs.seq + 2 := rfl
    rw [newTurns_importTurn now (sha256 (legacyText t)) text habsent, List.length_cons, hseq]
    omega
  constructor
  · rintro ⟨hid, htext, hknown, hfresh⟩
    rw [← digestUnder_write now text habsent] at hknown hfresh
    rw [hrow] at hfresh
    exact ⟨hid, htext, hknown, hfresh⟩
  · rintro ⟨hid, htext, hknown, hfresh⟩
    rw [← hrow] at hfresh
    rw [digestUnder_write now text habsent] at hknown hfresh
    exact ⟨hid, htext, hknown, hfresh⟩

theorem getsPastAll_cons {now : PyStr} {db : Db} {t : LegacyTurn} {ts : List LegacyTurn} :
    GetsPastAll sha256 now db (t :: ts) ↔ GetsPast sha256 now db [] t ∧
      ∀ before u after, ts = before ++ u :: after → GetsPast sha256 now db (t :: before) u := by
  constructor
  · intro h
    exact ⟨h [] t ts rfl, fun before u after hts => h (t :: before) u after (by rw [hts]; rfl)⟩
  · rintro ⟨hfirst, hrest⟩ before u after hts
    cases before with
    | nil =>
        cases hts
        exact hfirst
    | cons v before =>
        cases hts
        exact hrest before u after rfl

theorem getsPastAll_skip {now : PyStr} {db : Db} {t : LegacyTurn} {ts : List LegacyTurn}
    (h : SameDigest sha256 db t) : GetsPastAll sha256 now db (t :: ts) ↔ GetsPastAll sha256 now db ts := by
  rw [getsPastAll_cons]
  simp only [getsPast_skip h, getsPast_first.mpr (.inl h), true_and, GetsPastAll]

theorem getsPastAll_write {now text : PyStr} {db : Db} {t : LegacyTurn} {ts : List LegacyTurn}
    (habsent : db.turnRequests.get? t.requestId = none)
    (h : Storable sha256 now db t (sha256 (legacyText t)) text) :
    GetsPastAll sha256 now db (t :: ts) ↔
      GetsPastAll sha256 now (db.importTurn t now (sha256 (legacyText t)) text) ts := by
  rw [getsPastAll_cons]
  simp only [getsPast_write now text habsent, getsPast_first.mpr (.inr ⟨habsent, text, h⟩), true_and, GetsPastAll]

/-- **The loop gets to a turn with another digest** exactly if the digests say so before it starts. -/
theorem passes_conflict_iff {now : PyStr} {t : LegacyTurn} : ∀ {before : List LegacyTurn} {db : Db},
    (∃ i k d, Passes sha256 now before db i k d ∧ OtherDigest sha256 d t) ↔
      GetsPastAll sha256 now db before ∧ Conflicts sha256 db before t
  | [], db => by
      constructor
      · rintro ⟨_, _, _, hpasses, hid, row, hash, hrow, hhash, hne⟩
        cases hpasses
        obtain ⟨htext, rfl⟩ := legacyHash_eq_ok.mp hhash
        exact ⟨fun _ _ _ h => absurd h (by simp), hid, htext, _, digestUnder_of_some hrow [], hne⟩
      · rintro ⟨-, hid, htext, digest, hdigest, hne⟩
        refine ⟨0, 0, db, .nil, hid, ?_⟩
        cases hrow : db.turnRequests.get? t.requestId with
        | none =>
            rw [digestUnder, hrow] at hdigest
            cases hdigest
        | some row =>
            rw [digestUnder_of_some hrow] at hdigest
            obtain rfl := Option.some.inj hdigest
            exact ⟨row, _, rfl, legacyHash_eq_ok.mpr ⟨htext, rfl⟩, hne⟩
  | u :: before, db => by
      constructor
      · rintro ⟨_, _, _, hpasses, hother⟩
        cases hpasses with
        | skip hsame hrest =>
            obtain ⟨hall, hid, htext, hconflict⟩ := passes_conflict_iff.mp ⟨_, _, _, hrest, hother⟩
            rw [← digestUnder_skip hsame] at hconflict
            exact ⟨(getsPastAll_skip hsame).mpr hall, hid, htext, hconflict⟩
        | write habsent hstorable hrest =>
            obtain ⟨-, rfl⟩ := legacyHash_eq_ok.mp hstorable.hash
            obtain ⟨hall, hid, htext, hconflict⟩ := passes_conflict_iff.mp ⟨_, _, _, hrest, hother⟩
            rw [digestUnder_write now _ habsent] at hconflict
            exact ⟨(getsPastAll_write habsent hstorable).mpr hall, hid, htext, hconflict⟩
      · rintro ⟨hall, hid, htext, hconflict⟩
        rcases getsPast_first.mp (hall [] u before rfl) with hsame | ⟨habsent, text, hstorable⟩
        · rw [digestUnder_skip hsame] at hconflict
          obtain ⟨i, k, d, hpasses, hother⟩ :=
            passes_conflict_iff.mpr ⟨(getsPastAll_skip hsame).mp hall, hid, htext, hconflict⟩
          exact ⟨i, k + 1, d, .skip hsame hpasses, hother⟩
        · rw [← digestUnder_write now text habsent] at hconflict
          obtain ⟨i, k, d, hpasses, hother⟩ :=
            passes_conflict_iff.mpr ⟨(getsPastAll_write habsent hstorable).mp hall, hid, htext, hconflict⟩
          exact ⟨i + 1, k, d, .write habsent hstorable hpasses, hother⟩

theorem clashes_iff {now : PyStr} {db : Db} {ts : List LegacyTurn} :
    (∃ d, Clashes sha256 now ts db d) ↔ StopsAtConflict sha256 now db ts := by
  constructor
  · rintro ⟨d, before, t, after, i, k, hts, hpasses, hother⟩
    exact ⟨before, t, after, hts, passes_conflict_iff.mp ⟨i, k, d, hpasses, hother⟩⟩
  · rintro ⟨before, t, after, hts, hstops⟩
    obtain ⟨i, k, d, hpasses, hother⟩ := passes_conflict_iff.mpr hstops
    exact ⟨d, before, t, after, i, k, hts, hpasses, hother⟩

/-! ## Turns that differ from what is stored -/

section

variable (same : PyVal → PyVal → Prop)

/-- The row and its messages say what the turn says; about the time only if the turn has one. `same`
says when two replay payloads are the same; it gets them as they are decoded. -/
structure StoredAs (db : Db) (t : LegacyTurn) (row : TurnRequest) : Prop where
  userMessage : ∃ i c, row.userMessageId = some i ∧ db.chatLogs.get? i = some c ∧
    c.content = t.userMessage
  assistantMessage : ∃ i c, row.assistantMessageId = some i ∧ db.chatLogs.get? i = some c ∧
    c.content = t.assistantMessage
  createdAt : ∀ x, t.createdAt = some x → x ≠ [] → row.createdAt = x
  replayPayload : ∃ i stored imported, row.assistantMessageId = some i ∧
    row.replayPayload.bind loads = some stored ∧
    (dumpsDefault (importReplayPayload t i)).bind loads = some imported ∧ same stored imported

/-- The id of the turn is taken, by something else. -/
def Diverges (db : Db) (t : LegacyTurn) : Prop :=
  ∃ row, db.turnRequests.get? t.requestId = some row ∧ ¬ StoredAs same db t row

/-- A fixture with a turn that diverges is refused, and nothing changes. -/
def DivergenceRefused (sha256 : PyStr → PyStr) (env : Env) (fixture : PyVal) (turns : List LegacyTurn)
    (s : LocalStore) : Prop :=
  (∃ t ∈ turns, Diverges same s.db t) →
    exec sha256 env (.importLegacyFixture fixture) s = (.error legacyConflict, s)

end

/-- **An import is refused for a conflict exactly if the loop meets a turn with another digest.** -/
theorem import_refused_iff {env : Env} {fixture : PyVal} {turns : List LegacyTurn} {s : LocalStore}
    (hvalid : validateLegacyFixture fixture = .ok turns) (hfault : env.fault = .none) :
    exec sha256 env (.importLegacyFixture fixture) s = (.error legacyConflict, s) ↔
      s.tx = none ∧ ∃ d, Clashes sha256 env.clock.now.text turns s.db d := by
  have hrun : exec sha256 env (.importLegacyFixture fixture) s =
      (((importBlock sha256 turns env.clock).run .sqlite env.thread env.fault s).1.map .imported,
        ((importBlock sha256 turns env.clock).run .sqlite env.thread env.fault s).2) := by
    simp only [exec, perform, hvalid]
  rw [hrun]
  cases htx : s.tx with
  | some x =>
      -- `BEGIN` fails, whatever the fixture says
      constructor
      · intro h
        simp only [Block.run, htx] at h
        cases (Prod.mk.inj h).1
      · intro h
        cases h.1
  | none =>
      have hs : (⟨s.db, none⟩ : LocalStore) = s := by rw [← htx]
      simp only [Block.run, htx, hfault, true_and]
      constructor
      · intro h
        split at h
        · cases (Prod.mk.inj h).1
        · next hbody => exact absurd hbody importLoop_ne_rollback
        · next e d hbody =>
            rcases importLoop_eq_raise hbody with ⟨_, hclash⟩ | hother
            · exact ⟨d, hclash⟩
            · -- what nobody translates is not the conflict
              exfalso
              rw [Block.leave] at h
              cases e with
              | validation => cases hother
              | _ => cases (Prod.mk.inj h).1
      · rintro ⟨d, hclash⟩
        have hbody : (importBlock sha256 turns env.clock).body s.db = .raise legacyConflict d :=
          hclash.importLoop 0 0
        have hleave : (importBlock sha256 turns env.clock).leave env.thread s.db legacyConflict d =
            (.error legacyConflict, ⟨s.db, none⟩) := rfl
        simp only [hbody, hleave, hs]
        rfl

/-- **Divergent turns are refused exactly if the import stops at a turn with another digest**, whatever
the payloads are compared by. The digest covers the id and the two messages only. -/
theorem divergence_refused_iff {same : PyVal → PyVal → Prop} {env : Env} {fixture : PyVal}
    {turns : List LegacyTurn} {s : LocalStore} (hvalid : validateLegacyFixture fixture = .ok turns)
    (hfault : env.fault = .none) :
    DivergenceRefused same sha256 env fixture turns s ↔ (∀ t ∈ turns, ¬ Diverges same s.db t) ∨
      (s.tx = none ∧ StopsAtConflict sha256 env.clock.now.text s.db turns) := by
  rw [← clashes_iff, ← import_refused_iff hvalid hfault, DivergenceRefused]
  constructor
  · intro h
    by_cases hdiverges : ∃ t ∈ turns, Diverges same s.db t
    · exact .inr (h hdiverges)
    · exact .inl fun t ht hd => hdiverges ⟨t, ht, hd⟩
  · rintro (hnone | hrefused) ⟨t, ht, hd⟩
    · exact absurd hd (hnone t ht)
    · exact hrefused

/-! ## One turn, twice -/

/-- A fixture with one turn and a time. -/
def datedFixture (answer createdAt : PyStr) : PyVal :=
  .dict [(.str (py "schema_version"), .int 1), (.str (py "source"), .str (py "supabase")),
    (.str (py "turns"), .list [.dict [(.str (py "request_id"), .str (py "l1")),
      (.str (py "user_message"), .str (py "oi")), (.str (py "assistant_message"), .str answer),
      (.str (py "created_at"), .str createdAt)]])]

def datedTurn (answer createdAt : PyStr) : LegacyTurn := ⟨py "l1", py "oi", answer, some createdAt, none⟩

theorem validate_datedOk (createdAt : PyStr) :
    validateLegacyFixture (datedFixture (py "ok") createdAt) = .ok [datedTurn (py "ok") createdAt] := rfl

theorem validate_datedNo (createdAt : PyStr) :
    validateLegacyFixture (datedFixture (py "no") createdAt) = .ok [datedTurn (py "no") createdAt] := rfl

/-- The import of that turn, dated 2020. -/
def datedImport : Env × Call :=
  (sampleEnv, .importLegacyFixture (datedFixture (py "ok") (py "2020-01-01T00:00:00Z")))

/-- The store after it. -/
def datedStore : LocalStore := execAll sampleSha256 [datedImport] .init

/-- What an import reported. -/
def importReport : Except Err Reply → Option ImportReport
  | .ok (.imported r) => some r
  | _ => none

theorem importReport_eq_some {r : Except Err Reply} {rep : ImportReport} (h : importReport r = some rep) :
    r = .ok (.imported rep) := by
  unfold importReport at h
  split at h
  · rw [Option.some.inj h]
  · cases h

theorem datedStore_import :
    exec sampleSha256 sampleEnv datedImport.2 .init = (.ok (.imported ⟨1, 0, 1⟩), datedStore) := by
  have hreport : importReport (exec sampleSha256 sampleEnv datedImport.2 .init).1 = some ⟨1, 0, 1⟩ := by
    decide +kernel
  exact Prod.ext (importReport_eq_some hreport) rfl

/-- The same fixture again: the turn is skipped. -/
theorem import_idempotent_dated :
    exec sampleSha256 sampleEnv datedImport.2 datedStore = (.ok (.imported ⟨0, 1, 1⟩), datedStore) :=
  (import_idempotent sampleEnv _ .init datedStore).1 ⟨1, 0, 1⟩ datedStore_import sampleEnv rfl

/-- In that store the turn has its digest, whatever its time. -/
theorem datedStore_digest (createdAt : PyStr) :
    datedStore.tx = none ∧ SameDigest sampleSha256 datedStore.db (datedTurn (py "ok") createdAt) := by
  obtain ⟨turns, i, k, hvalid, htx, hpasses, _⟩ := import_passes datedStore_import
  rw [validate_datedOk] at hvalid
  cases hvalid
  obtain ⟨hid, row, hrow, hhash⟩ := hpasses.settled _ List.mem_cons_self
  exact ⟨htx, hid, row, hrow, hhash⟩

theorem datedStore_diverges {same : PyVal → PyVal → Prop} {t : LegacyTurn} (hid : t.requestId = py "l1")
    (htime : t.createdAt = some (py "2021-01-01T00:00:00Z")) : Diverges same datedStore.db t := by
  have hrow : (datedStore.db.turnRequests.get? (py "l1")).map (·.createdAt) =
      some (py "2020-01-01T00:00:00Z") := by decide +kernel
  obtain ⟨row, hget, hcreated⟩ := Option.map_eq_some_iff.mp hrow
  refine ⟨row, by rw [hid]; exact hget, fun hstored => ?_⟩
  have hsame := hstored.createdAt _ htime (by decide)
  rw [hcreated] at hsame
  exact absurd hsame (by decide)

/-- Another answer under the same id is refused. -/
theorem divergence_refused_iff_dated :
    exec sampleSha256 sampleEnv
      (.importLegacyFixture (datedFixture (py "no") (py "2021-01-01T00:00:00Z"))) datedStore =
      (.error legacyConflict, datedStore) := by
  have hvalid := validate_datedNo (py "2021-01-01T00:00:00Z")
  obtain ⟨hidle, -, row, hrow, hhash⟩ := datedStore_digest (py "2021-01-01T00:00:00Z")
  have hconflict : Conflicts sampleSha256 datedStore.db [] (datedTurn (py "no") (py "2021-01-01T00:00:00Z")) := by
    refine ⟨rfl, rfl, row.payloadHash, digestUnder_of_some hrow [], fun heq => ?_⟩
    rw [heq] at hhash
    have hsame := sampleSha256_injective (Except.ok.inj hhash)
    exact absurd hsame (by decide)
  have hrefused : DivergenceRefused (fun v w => pyEq v w = true) sampleSha256 sampleEnv
      (datedFixture (py "no") (py "2021-01-01T00:00:00Z")) _ datedStore :=
    (divergence_refused_iff hvalid rfl).mpr
      (.inr ⟨hidle, [], _, [], rfl, fun _ _ _ h => absurd h (by simp), hconflict⟩)
  exact hrefused ⟨_, List.mem_cons_self, datedStore_diverges rfl rfl⟩

/-- **A turn with another time is skipped as a duplicate.** -/
theorem other_time_is_skipped :
    Reachable sampleSha256 datedStore ∧
      (∃ turns, validateLegacyFixture (datedFixture (py "ok") (py "2021-01-01T00:00:00Z")) = .ok turns ∧
        ∃ t ∈ turns, Diverges (fun v w => pyEq v w = true) datedStore.db t) ∧
      exec sampleSha256 sampleEnv
        (.importLegacyFixture (datedFixture (py "ok") (py "2021-01-01T00:00:00Z"))) datedStore =
        (.ok (.imported ⟨0, 1, 1⟩), datedStore) := by
  obtain ⟨hidle, hsame⟩ := datedStore_digest (py "2021-01-01T00:00:00Z")
  have hvalid := validate_datedOk (py "2021-01-01T00:00:00Z")
  have hcount : datedStore.db.turnRequests.rows.length = 1 := by decide +kernel
  refine ⟨⟨_, run_trace [datedImport] .init⟩, ⟨_, hvalid, _, List.mem_cons_self, datedStore_diverges rfl rfl⟩,
    ?_⟩
  rw [import_settled hvalid hidle rfl (List.forall_mem_singleton.mpr hsame), hcount]
  rfl

end Katherine.Local
