import Katherine.Lib.Ledger
import Katherine.Lib.Runs
import Katherine.Lib.Transact
import Katherine.Local.Migrations

/-!
# Opening the store

`_run_migrations` of `backend/local_storage/storage.py` over the list of
`backend/local_storage/migrations.py`. Any number of processes open one file at once, each with
the migrations of its own release; any of them may end at any point, and those that have opened
the store write to it.

A process reads once which versions are applied and works off the others, each in a transaction
of its own. In between another may have been faster: then the row it would insert is there
already, and its transaction comes to nothing. `migrations_in_order` says what this makes of the
file, and `open_alone` what a process that is left alone makes of whatever it finds.
-/

namespace Katherine.Local.Opening

open Py Sql Runs Migrations

/-! ## The file -/

/-- The file: the rows of `schema_migrations`, once the table is there, and everything else. No
statement of a migration names that table. -/
structure File (σ : Type) where
  versions : Option (List Int)
  contents : σ

def File.rows {σ : Type} (f : File σ) : List Int := f.versions.getD []

/-- What can be raised: by the driver, by the lookup of a version, by the check for a newer
schema, or from outside, such as `KeyboardInterrupt`. -/
inductive Raised
  | sqlite
  | unknownVersion
  | schemaTooNew
  | interrupt
deriving DecidableEq

/-- `except Exception` names it. -/
def Raised.isException : Raised → Bool
  | .interrupt => false
  | _ => true

/-- `MIGRATIONS` of a release: version and SQL, in order. -/
abbrev MigrationList := List (Int × PyStr)

/-- `pending_versions`. -/
def pendingVersions (migrations : MigrationList) (applied : List Int) : List Int :=
  (migrations.map Prod.fst).filter (· ∉ applied)

/-- `migration_sql`; `none` is the `KeyError`. -/
def migrationSql (migrations : MigrationList) (version : Int) : Option PyStr :=
  (migrations.find? fun m => m.1 = version).map Prod.snd

variable {σ : Type}

/-- `insert into schema_migrations (version) values (?)`; the version is the primary key. -/
def insertVersion (version : Int) (f : File σ) : Except Raised (File σ) :=
  match f.versions with
  | none => .error .sqlite
  | some rows => if version ∈ rows then .error .sqlite else .ok { f with versions := some (rows ++ [version]) }

section

variable (execute : PyStr → σ → Except Raised σ)

/-- The statements of a migration, one by one. -/
def runStatements : List PyStr → File σ → (File σ → Outcome (File σ) Raised Unit) →
    Outcome (File σ) Raised Unit
  | [], f, k => k f
  | statement :: rest, f, k =>
      .attempt (execute statement f.contents) f fun c => runStatements rest { f with contents := c } k

/-- What these statements make of the contents. -/
def executeAll (statements : List PyStr) (c : σ) : Except Raised σ :=
  statements.foldlM (fun c statement => execute statement c) c

variable (t : LetterTable)

/-- The transaction of one migration. `BEGIN IMMEDIATE` stands outside the `try`. -/
def migrationBlock (sql : PyStr) (version : Int) : Block (File σ) Raised Unit where
  guarded := false
  catches e := if e.isException then some e else none
  body f := runStatements execute (splitSqlStatements t sql) f fun f =>
    .attempt (insertVersion version f) f fun f => .commit () f

/-! ## The processes -/

/-- Where a process is in `_run_migrations`. -/
inductive Stage
  | idle
  | bootstrapped
  /-- The versions it still goes through. -/
  | migrating (pending : List Int)
  | opened
  | failed (e : Raised)
  /-- The process is gone, and its connection with it. -/
  | gone
deriving DecidableEq

structure World (σ : Type) where
  store : Store Nat (File σ)
  stage : Nat → Stage

def World.at (w : World σ) (p : Nat) (stage : Stage) : World σ :=
  { w with stage := Function.update w.stage p stage }

/-- What the process `p` does next. A fault is what the driver or the system raises there. -/
inductive Move (σ : Type)
  /-- `executescript(BOOTSTRAP_SQL)`. -/
  | bootstrap (p : Nat) (fault : Option Raised)
  /-- Reading `schema_migrations`, up to the loop. -/
  | read (p : Nat) (fault : Option Raised)
  /-- One turn of the loop, or leaving it. -/
  | migrate (p : Nat) (fault : Fault) (raw : Raised)
  /-- An open store writes to its tables. -/
  | write (p : Nat) (contents : σ)
  | exit (p : Nat)

inductive Effect
  | quiet
  /-- A migration was committed. -/
  | applied (version : Int)
deriving DecidableEq

variable (migrations : Nat → MigrationList)

def bootstrap (p : Nat) (w : World σ) : World σ :=
  match w.store.db.versions with
  | some _ => w.at p .bootstrapped
  | none =>
      -- creating the table takes the lock
      if w.store.tx.isSome then w.at p (.failed .sqlite)
      else { w.at p .bootstrapped with
        store := { w.store with db := { w.store.db with versions := some [] } } }

def readApplied (p : Nat) (w : World σ) : World σ :=
  match w.store.db.versions with
  | none => w.at p (.failed .sqlite)
  | some applied =>
      if applied ⊆ (migrations p).map Prod.fst then
        w.at p (.migrating (pendingVersions (migrations p) applied))
      else w.at p (.failed .schemaTooNew)

def migrateNext (p : Nat) (fault : Fault) (raw : Raised) (w : World σ) : Effect × World σ :=
  match w.stage p with
  | .migrating [] => (.quiet, w.at p .opened)
  | .migrating (version :: rest) =>
      match migrationSql (migrations p) version with
      | none => (.quiet, w.at p (.failed .unknownVersion))
      | some sql =>
          match (migrationBlock execute t sql version).run raw p fault w.store with
          | (.ok (), store) => (.applied version, { w.at p (.migrating rest) with store })
          | (.error e, store) => (.quiet, { w.at p (.failed e) with store })
  | _ => (.quiet, w)

/-- A move that is not the next one of its process does nothing. -/
def step (move : Move σ) (w : World σ) : Effect × World σ :=
  match move with
  | .bootstrap p fault =>
      if w.stage p = .idle then
        (.quiet, match fault with
          | some e => w.at p (.failed e)
          | none => bootstrap p w)
      else (.quiet, w)
  | .read p fault =>
      if w.stage p = .bootstrapped then
        (.quiet, match fault with
          | some e => w.at p (.failed e)
          | none => readApplied migrations p w)
      else (.quiet, w)
  | .migrate p fault raw => migrateNext execute t migrations p fault raw w
  | .write p contents =>
      if w.stage p = .opened ∧ w.store.tx.isNone then
        (.quiet, { w with store := { w.store with db := { w.store.db with contents } } })
      else (.quiet, w)
  | .exit p =>
      -- what its connection had open is rolled back
      let tx := if w.store.tx.any (·.1 = p) then none else w.store.tx
      (.quiet, { w.at p .gone with store := { w.store with tx } })

/-! ## The transaction of a migration -/

theorem runStatements_eq_commit {statements : List PyStr} {f f' : File σ}
    {k : File σ → Outcome (File σ) Raised Unit} :
    runStatements execute statements f k = .commit () f' ↔
      ∃ c, executeAll execute statements f.contents = .ok c ∧ k { f with contents := c } = .commit () f' := by
  induction statements generalizing f with
  | nil => exact ⟨fun h => ⟨f.contents, rfl, h⟩, fun ⟨c, hc, h⟩ => by cases hc; exact h⟩
  | cons statement rest ih =>
      rw [runStatements, Outcome.attempt_eq_commit, executeAll, List.foldlM_cons]
      cases hrun : execute statement f.contents with
      | error e => exact iff_of_false (fun ⟨c, hc, _⟩ => by cases hc) (fun ⟨c, hc, _⟩ => by cases hc)
      | ok c =>
          refine Iff.trans ?_ (ih (f := { f with contents := c }))
          exact ⟨fun ⟨c', hc', h⟩ => by cases hc'; exact h, fun h => ⟨c, rfl, h⟩⟩

theorem runStatements_ne_rollback {k : File σ → Outcome (File σ) Raised Unit} {r : Except Raised Unit}
    (hk : ∀ f, k f ≠ .rollback r) (statements : List PyStr) (f : File σ) :
    runStatements execute statements f k ≠ .rollback r := by
  induction statements generalizing f with
  | nil => exact hk f
  | cons statement rest ih =>
      intro h
      obtain ⟨c, -, hrest⟩ := Outcome.attempt_eq_rollback.mp h
      exact ih _ hrest

theorem insertVersion_eq_ok {version : Int} {f f' : File σ} :
    insertVersion version f = .ok f' ↔
      ∃ rows, f.versions = some rows ∧ version ∉ rows ∧ f' = ⟨some (rows ++ [version]), f.contents⟩ := by
  unfold insertVersion
  cases f.versions with
  | none => simp
  | some rows =>
      by_cases h : version ∈ rows
      · simp [h]
      · simp [h, eq_comm]

/-- A migration is committed with its row, or not at all. -/
theorem migrationBlock_commit {sql : PyStr} {version : Int} {f f' : File σ} :
    (migrationBlock execute t sql version).body f = .commit () f' ↔
      ∃ rows c, f.versions = some rows ∧ version ∉ rows ∧
        executeAll execute (splitSqlStatements t sql) f.contents = .ok c ∧
        f' = ⟨some (rows ++ [version]), c⟩ := by
  refine (runStatements_eq_commit execute).trans ?_
  simp only [Outcome.attempt_eq_commit, insertVersion_eq_ok, Outcome.commit.injEq, true_and]
  constructor
  · rintro ⟨c, hc, _, ⟨rows, hrows, hnot, rfl⟩, rfl⟩
    exact ⟨rows, c, hrows, hnot, hc, rfl⟩
  · rintro ⟨rows, c, hrows, hnot, hc, rfl⟩
    exact ⟨c, hc, _, ⟨rows, hrows, hnot, rfl⟩, rfl⟩

theorem migrationBlock_ne_rollback {sql : PyStr} {version : Int} {f : File σ} {r : Except Raised Unit} :
    (migrationBlock execute t sql version).body f ≠ .rollback r := by
  refine runStatements_ne_rollback execute (fun f h => ?_) _ f
  obtain ⟨f', -, hf'⟩ := Outcome.attempt_eq_rollback.mp h
  cases hf'

/-! ## What a move does -/

/-- What can become of the stage of a process when no migration is committed. -/
inductive Turn (w : World σ) (p : Nat) : Stage → Prop
  | stays : Turn w p (w.stage p)
  | bootstrapped : Turn w p .bootstrapped
  | reads {applied : List Int} (h : w.store.db.versions = some applied)
      (hknown : applied ⊆ (migrations p).map Prod.fst) :
      Turn w p (.migrating (pendingVersions (migrations p) applied))
  | opens (h : w.stage p = .migrating []) : Turn w p .opened
  | fails (e : Raised) : Turn w p (.failed e)
  | exits : Turn w p .gone

/-- The move wrote to the tables of an open store. -/
def Writes (move : Move σ) (w : World σ) : Prop := ∃ p c, move = .write p c ∧ w.stage p = .opened

/-- The process committed its next migration. -/
structure Commits (w : World σ) (p : Nat) (version : Int) (w' : World σ) : Prop where
  next : ∃ rest, w.stage p = .migrating (version :: rest) ∧ w'.stage = Function.update w.stage p (.migrating rest)
  absent : version ∉ w.store.db.rows
  recorded : w'.store.db.versions = some (w.store.db.rows ++ [version])
  whole : ∃ sql, migrationSql (migrations p) version = some sql ∧
    executeAll execute (splitSqlStatements t sql) w.store.db.contents = .ok w'.store.db.contents

/-- No migration was committed. -/
structure Waits (move : Move σ) (w w' : World σ) : Prop where
  rows : w'.store.db.rows = w.store.db.rows
  contents : w'.store.db.contents = w.store.db.contents ∨ Writes move w
  turn : ∃ p stage, Turn migrations w p stage ∧ w'.stage = Function.update w.stage p stage

theorem Waits.nothing (move : Move σ) (w : World σ) : Waits migrations move w w where
  rows := rfl
  contents := .inl rfl
  turn := ⟨0, w.stage 0, .stays, (Function.update_eq_self 0 w.stage).symm⟩

/-- Only the stage of `p` changes. -/
theorem Waits.at (move : Move σ) {w : World σ} {p : Nat} {stage : Stage} (h : Turn migrations w p stage) :
    Waits migrations move w (w.at p stage) where
  rows := rfl
  contents := .inl rfl
  turn := ⟨p, stage, h, rfl⟩

theorem migrateNext_cases {p : Nat} {fault : Fault} {raw : Raised} {w w' : World σ} {eff : Effect}
    (h : migrateNext execute t migrations p fault raw w = (eff, w')) :
    (∃ version, eff = .applied version ∧ Commits execute t migrations w p version w') ∨
      (eff = .quiet ∧ Waits migrations (.migrate p fault raw) w w') := by
  unfold migrateNext at h
  split at h
  · rename_i hstage
    cases h
    exact .inr ⟨rfl, .at migrations _ (.opens hstage)⟩
  · rename_i version rest hstage
    split at h
    · cases h
      exact .inr ⟨rfl, .at migrations _ (.fails _)⟩
    · rename_i sql hsql
      split at h
      · rename_i store hrun
        cases h
        refine .inl ⟨version, rfl, ?_⟩
        -- a transaction that returns has committed
        obtain ⟨-, -, hcommit | ⟨hrollback, -⟩⟩ := Block.run_ok hrun
        · obtain ⟨rows, c, hrows, hnot, hwhole, hdb⟩ := (migrationBlock_commit execute t).mp hcommit
          have hrows' : w.store.db.rows = rows := by rw [File.rows, hrows]; rfl
          refine ⟨⟨rest, hstage, rfl⟩, by rw [hrows']; exact hnot, ?_, sql, hsql, ?_⟩
          · show store.db.versions = _
            rw [hdb, hrows']
          · show _ = Except.ok store.db.contents
            rw [hdb]
            exact hwhole
        · exact absurd hrollback (migrationBlock_ne_rollback execute t)
      · rename_i e store hrun
        cases h
        refine .inr ⟨rfl, ?_⟩
        have hdb : store.db = w.store.db := by
          obtain hdb | ⟨a, -, hok, -⟩ := Block.run_db hrun
          · exact hdb
          · cases hok
        exact ⟨congrArg File.rows hdb, .inl (congrArg File.contents hdb), p, .failed e, .fails e, rfl⟩
  · cases h
    exact .inr ⟨rfl, .nothing migrations _ w⟩

/-- **Everything a move can do.** -/
theorem step_cases {move : Move σ} {w w' : World σ} {eff : Effect}
    (h : step execute t migrations move w = (eff, w')) :
    (∃ p version, eff = .applied version ∧ Commits execute t migrations w p version w') ∨
      (eff = .quiet ∧ Waits migrations move w w') := by
  have hquiet : ∀ {x : World σ}, (Effect.quiet, x) = (eff, w') →
      Waits migrations move w x → eff = .quiet ∧ Waits migrations move w w' := fun hx hw => by
    cases hx
    exact ⟨rfl, hw⟩
  cases move with
  | bootstrap p fault =>
      refine .inr ?_
      simp only [step] at h
      split at h
      · refine hquiet h ?_
        cases fault with
        | some e => exact .at migrations _ (.fails e)
        | none =>
            show Waits migrations _ w (bootstrap p w)
            unfold bootstrap
            split
            · exact .at migrations _ .bootstrapped
            · rename_i hnone
              split
              · exact .at migrations _ (.fails _)
              · -- the table is created, and is empty
                refine ⟨?_, .inl rfl, p, _, .bootstrapped, rfl⟩
                show [] = w.store.db.rows
                rw [File.rows, hnone]
                rfl
      · exact hquiet h (.nothing migrations _ w)
  | read p fault =>
      refine .inr ?_
      simp only [step] at h
      split at h
      · refine hquiet h ?_
        cases fault with
        | some e => exact .at migrations _ (.fails e)
        | none =>
            show Waits migrations _ w (readApplied migrations p w)
            unfold readApplied
            split
            · exact .at migrations _ (.fails _)
            · rename_i applied happlied
              split
              · rename_i hknown
                exact .at migrations _ (.reads happlied hknown)
              · exact .at migrations _ (.fails _)
      · exact hquiet h (.nothing migrations _ w)
  | migrate p fault raw =>
      obtain ⟨version, heff, hcommit⟩ | hwait := migrateNext_cases execute t migrations h
      · exact .inl ⟨p, version, heff, hcommit⟩
      · exact .inr hwait
  | write p c =>
      refine .inr ?_
      simp only [step] at h
      split at h
      · rename_i hopened
        refine hquiet h ⟨rfl, .inr ⟨p, c, rfl, hopened.1⟩, ?_⟩
        exact ⟨0, w.stage 0, .stays, (Function.update_eq_self 0 w.stage).symm⟩
      · exact hquiet h (.nothing migrations _ w)
  | exit p =>
      cases h
      exact .inr ⟨rfl, rfl, .inl rfl, p, .gone, .exits, rfl⟩

end

/-! ## The releases -/

/-- Releases only append to the list of migrations: the process `p` has the first `shipped p`. -/
structure Releases where
  ledger : Ledger Int PyStr
  shipped : Nat → Nat

def Releases.migrations (r : Releases) (p : Nat) : MigrationList := r.ledger.upTo (r.shipped p)

variable (execute : PyStr → σ → Except Raised σ) (t : LetterTable) (r : Releases)

/-- What a run keeps: the file is `k` migrations far, no process has more to go through than it
would have from there or from an earlier place, and an open store has what it needs. -/
structure Sound (k : Nat) (w : World σ) : Prop where
  bound : k ≤ r.ledger.items.length
  rows : w.store.db.rows = r.ledger.keys k
  pending : ∀ p rest, w.stage p = .migrating rest →
    ∃ i ≤ k, rest = (r.ledger.keys (r.shipped p)).drop i
  opened : ∀ p, w.stage p = .opened → r.ledger.keys (r.shipped p) ⊆ w.store.db.rows

variable {r} {k : Nat} {w w' : World σ}

theorem Sound.waits {move : Move σ} (h : Sound r k w) (hw : Waits r.migrations move w w') : Sound r k w' := by
  obtain ⟨p, stage, hturn, hstage⟩ := hw.turn
  refine ⟨h.bound, hw.rows.trans h.rows, fun q rest hq => ?_, fun q hq => ?_⟩
  · rw [hstage] at hq
    by_cases hqp : q = p
    · subst hqp
      rw [Function.update_self] at hq
      cases hturn with
      | stays => exact h.pending q rest hq
      | reads happlied hknown =>
          -- what it read is how far the file is
          have hrows : w.store.db.rows = r.ledger.keys k := h.rows
          rw [File.rows, happlied, Option.getD_some] at hrows
          subst hrows
          cases hq
          exact ⟨k, le_rfl, r.ledger.pending_keys k (r.shipped q)⟩
      | _ => cases hq
    · rw [Function.update_of_ne hqp] at hq
      exact h.pending q rest hq
  · rw [hw.rows]
    rw [hstage] at hq
    by_cases hqp : q = p
    · subst hqp
      rw [Function.update_self] at hq
      cases hturn with
      | stays => exact h.opened q hq
      | opens hdone =>
          -- nothing was left from some place before `k`
          obtain ⟨i, hi, hnil⟩ := h.pending q [] hdone
          have hlen := List.drop_eq_nil_iff.mp hnil.symm
          rw [h.rows, r.ledger.keys_eq_take k]
          rw [Ledger.length_keys] at hlen
          intro version hversion
          rw [Ledger.keys_eq_take] at hversion
          obtain ⟨j, hj, hget⟩ := List.mem_take_iff_getElem.mp hversion
          rw [List.length_map] at hj
          exact List.mem_take_iff_getElem.mpr ⟨j, by rw [List.length_map]; omega, hget⟩
      | _ => cases hq
    · rw [Function.update_of_ne hqp] at hq
      exact h.opened q hq

/-- **A migration that is committed is the next one of the ledger**, whoever commits it. -/
theorem Sound.commits {p : Nat} {version : Int} (h : Sound r k w)
    (hc : Commits execute t r.migrations w p version w') :
    (∃ m, r.ledger.items[k]? = some m ∧ m.1 = version) ∧ Sound r (k + 1) w' := by
  obtain ⟨rest, hnext, hstage⟩ := hc.next
  obtain ⟨i, hi, hdrop⟩ := h.pending p _ hnext
  obtain ⟨-, ⟨m, hm, rfl⟩, hrest⟩ := r.ledger.getElem_of_next hdrop.symm
  have hik : k = i := by
    have hnot := hc.absent
    rw [h.rows] at hnot
    have := (r.ledger.notMem_keys hm).mp hnot
    omega
  subst hik
  have hrows : w'.store.db.rows = r.ledger.keys (k + 1) := by
    rw [File.rows, hc.recorded, h.rows, r.ledger.keys_succ hm]
    rfl
  refine ⟨⟨m, hm, rfl⟩, ?_, hrows, fun q rest' hq => ?_, fun q hq => ?_⟩
  · exact (List.getElem?_eq_some_iff.mp hm).1
  · rw [hstage] at hq
    by_cases hqp : q = p
    · subst hqp
      rw [Function.update_self] at hq
      cases hq
      exact ⟨k + 1, le_rfl, hrest.symm⟩
    · rw [Function.update_of_ne hqp] at hq
      obtain ⟨j, hj, hq⟩ := h.pending q rest' hq
      exact ⟨j, by omega, hq⟩
  · have hsub : w.store.db.rows ⊆ w'.store.db.rows := by
      rw [h.rows, hrows, r.ledger.keys_succ hm]
      exact List.subset_append_left _ _
    rw [hstage] at hq
    by_cases hqp : q = p
    · subst hqp
      rw [Function.update_self] at hq
      cases hq
    · rw [Function.update_of_ne hqp] at hq
      exact List.Subset.trans (h.opened q hq) hsub

/-! ## Any number of processes -/

/-- Nobody has begun, and the file is as the first `k` migrations have left it. -/
structure Fresh (r : Releases) (k : Nat) (w : World σ) : Prop where
  bound : k ≤ r.ledger.items.length
  rows : w.store.db.rows = r.ledger.keys k
  idle : ∀ p, w.stage p = .idle

theorem Fresh.sound (h : Fresh r k w) : Sound r k w where
  bound := h.bound
  rows := h.rows
  pending p rest hp := by rw [h.idle p] at hp; cases hp
  opened p hp := by rw [h.idle p] at hp; cases hp

abbrev OpenEvent (r : Releases) := Event (step execute t r.migrations)

theorem sound_run {k₀ : Nat} {es : List (OpenEvent execute t r)} (hrun : Run w es w') (h : Sound r k₀ w) :
    ∃ k, Sound r k w' := by
  refine (hrun.invariant (P := fun w => ∃ k, Sound r k w) ⟨k₀, h⟩ fun e _ hbefore => ?_).1
  obtain ⟨k, hk⟩ := hbefore
  obtain ⟨p, version, -, hcommit⟩ | ⟨-, hwait⟩ := step_cases execute t r.migrations e.executed
  · exact ⟨k + 1, (hk.commits execute t hcommit).2⟩
  · exact ⟨k, hk.waits hwait⟩

def Effect.version? : Effect → Option Int
  | .applied version => some version
  | .quiet => none

/-- Migrations one after the other, with nothing in between. -/
def executeMigrations (migrations : MigrationList) (c : σ) : Except Raised σ :=
  migrations.foldlM (fun c m => executeAll execute (splitSqlStatements t m.2) c) c

/-- What the steps `es` have made of the file of `w₀`, which was `k₀` migrations far. -/
structure InOrder (r : Releases) (k₀ : Nat) (w₀ : World σ) (es : List (OpenEvent execute t r))
    (w : World σ) : Prop where
  /-- The versions on record are those of a beginning of the ledger, and the rest of them was
  committed in this run, in order and each once. Where no store has written, the contents are
  those that these migrations make without an interruption. -/
  rows : ∃ k, k₀ ≤ k ∧ Sound r k w ∧ es.filterMap (·.reply.version?) = (r.ledger.keys k).drop k₀ ∧
    ((∀ e ∈ es, ¬ Writes e.input e.before) →
      executeMigrations execute t ((r.ledger.upTo k).drop k₀) w₀.store.db.contents = .ok w.store.db.contents)
  /-- A migration is committed whole. -/
  whole : ∀ e ∈ es, ∀ version, e.reply = .applied version → ∃ sql, (version, sql) ∈ r.ledger.items ∧
    executeAll execute (splitSqlStatements t sql) e.before.store.db.contents = .ok e.after.store.db.contents
  /-- Nothing else changes the contents but an open store. -/
  only : ∀ e ∈ es, e.reply = .quiet →
    e.after.store.db.contents = e.before.store.db.contents ∨ Writes e.input e.before

theorem migrationSql_mem {migrations : MigrationList} {version : Int} {sql : PyStr}
    (h : migrationSql migrations version = some sql) : (version, sql) ∈ migrations := by
  obtain ⟨m, hm, rfl⟩ := Option.map_eq_some_iff.mp h
  have hkey : m.1 = version := by simpa using List.find?_some hm
  rw [← hkey]
  exact List.mem_of_find?_eq_some hm

theorem inOrder_step {k₀ : Nat} {w₀ : World σ} {es : List (OpenEvent execute t r)} {e : OpenEvent execute t r}
    (h : InOrder execute t r k₀ w₀ es e.before) : InOrder execute t r k₀ w₀ (es ++ [e]) e.after := by
  obtain ⟨k, hk, hsound, hes, hcontents⟩ := h.rows
  have hall : ∀ {P : OpenEvent execute t r → Prop}, (∀ e ∈ es, P e) → P e → ∀ e' ∈ es ++ [e], P e' := by
    intro P hP he e' he'
    obtain he' | he' := List.mem_append.mp he'
    · exact hP e' he'
    · rw [List.mem_singleton] at he'
      exact he' ▸ he
  obtain ⟨p, version, heff, hcommit⟩ | ⟨heff, hwait⟩ := step_cases execute t r.migrations e.executed
  · obtain ⟨⟨m, hm, rfl⟩, hsound'⟩ := hsound.commits execute t hcommit
    obtain ⟨sql, hsql, hwhole⟩ := hcommit.whole
    have hmem : (m.1, sql) ∈ r.ledger.items := List.mem_of_mem_take (migrationSql_mem hsql)
    refine ⟨⟨k + 1, by omega, hsound', ?_, fun hquiet => ?_⟩, hall h.whole ?_, hall h.only ?_⟩
    · have hlen : k₀ ≤ (r.ledger.keys k).length := by
        have := hsound.bound
        rw [Ledger.length_keys]
        omega
      rw [List.filterMap_append, hes, r.ledger.keys_succ hm, List.drop_append_of_le_length hlen]
      simp [heff, Effect.version?]
    · have hsame : sql = m.2 := r.ledger.snd_eq hmem (List.mem_of_getElem? hm)
      have hlen : k₀ ≤ (r.ledger.upTo k).length := by
        have := hsound.bound
        rw [Ledger.upTo, List.length_take]
        omega
      have hbefore := hcontents fun e' he' => hquiet e' (List.mem_append_left _ he')
      rw [hsame] at hwhole
      rw [r.ledger.upTo_succ hm, List.drop_append_of_le_length hlen, executeMigrations, List.foldlM_append]
      rw [executeMigrations] at hbefore
      rw [hbefore]
      exact (bind_pure _).trans hwhole
    · intro version' hversion'
      rw [heff] at hversion'
      cases hversion'
      exact ⟨sql, hmem, hwhole⟩
    · intro hquiet
      rw [heff] at hquiet
      cases hquiet
  · refine ⟨⟨k, hk, hsound.waits hwait, ?_, fun hquiet => ?_⟩, hall h.whole ?_,
      hall h.only fun _ => hwait.contents⟩
    · rw [List.filterMap_append, hes]
      simp [heff, Effect.version?]
    · have hbefore := hcontents fun e' he' => hquiet e' (List.mem_append_left _ he')
      obtain hsame | hwrites := hwait.contents
      · rw [hsame]
        exact hbefore
      · exact absurd hwrites (hquiet e (by simp))
    · intro version hversion
      rw [heff] at hversion
      cases hversion

/--
**However many processes open the file, its migrations are applied in order and each once**, and
each of them whole: processes of older and newer releases in any order of their steps, with
errors anywhere, and gone in the middle of anything.
-/
theorem migrations_in_order {k₀ : Nat} {es : List (OpenEvent execute t r)} {w w' : World σ}
    (hrun : Run w es w') (h0 : Fresh r k₀ w) : InOrder execute t r k₀ w es w' := by
  have hstart : InOrder execute t r k₀ w [] w := by
    refine ⟨⟨k₀, le_rfl, h0.sound, ?_, fun _ => ?_⟩, fun _ he => absurd he List.not_mem_nil,
      fun _ he => absurd he List.not_mem_nil⟩
    · rw [List.drop_eq_nil_of_le (by rw [Ledger.length_keys]; omega)]
      rfl
    · rw [List.drop_eq_nil_of_le (by rw [Ledger.upTo, List.length_take]; omega)]
      rfl
  have hhistory := hrun.history (P := fun es w' => InOrder execute t r k₀ w es w') hstart
    fun pre e post _ h => inOrder_step execute t h
  exact hhistory.1

/-! ## A process that is left alone -/

def runMoves (r : Releases) (moves : List (Move σ)) (w : World σ) : World σ :=
  moves.foldl (fun w move => (step execute t r.migrations move w).2) w

/-- `p` opens the store, and nothing goes wrong; the loop turns `n` times at most. -/
def openMoves (p n : Nat) : List (Move σ) :=
  .bootstrap p none :: .read p none :: List.replicate n (.migrate p .none .sqlite)

theorem migrationSql_upTo {r : Releases} {n i : Nat} {m : Int × PyStr} (h : (r.ledger.upTo n)[i]? = some m) :
    migrationSql (r.ledger.upTo n) m.1 = some m.2 := by
  have hmem := List.mem_of_getElem? h
  have hsome : (migrationSql (r.ledger.upTo n) m.1).isSome := by
    rw [migrationSql, Option.isSome_map, List.find?_isSome]
    exact ⟨m, hmem, by simp⟩
  obtain ⟨sql, hsql⟩ := Option.isSome_iff_exists.mp hsome
  have hfound := List.mem_of_mem_take (migrationSql_mem hsql)
  rw [hsql, r.ledger.snd_eq hfound (List.mem_of_mem_take hmem)]

/-- Where the loop is over, more turns change nothing. -/
theorem runMoves_over {p : Nat} {w : World σ} (h : ∀ pending, w.stage p ≠ .migrating pending) (n : Nat) :
    runMoves execute t r (List.replicate n (.migrate p .none .sqlite)) w = w := by
  induction n with
  | zero => rfl
  | succ n ih =>
      have hstep : (step execute t r.migrations (.migrate p .none .sqlite) w).2 = w := by
        simp only [step, migrateNext]
        split
        · rename_i hstage
          exact absurd hstage (h _)
        · rename_i hstage
          exact absurd hstage (h _)
        · rfl
      rw [List.replicate_succ, runMoves, List.foldl_cons, hstep]
      exact ih

/-- The loop goes through the migrations that are left, if their statements run. -/
theorem runMoves_migrating {p : Nat} {left : MigrationList} {k n : Nat} {w : World σ} {c c' : σ}
    (hleft : left = (r.migrations p).drop k) (hk : k ≤ r.shipped p) (hstage : w.stage p = .migrating (left.map Prod.fst))
    (hstore : w.store = ⟨⟨some (r.ledger.keys k), c⟩, none⟩) (hn : left.length < n)
    (hrun : executeMigrations execute t left c = .ok c') :
    (runMoves execute t r (List.replicate n (.migrate p .none .sqlite)) w).stage p = .opened ∧
      (runMoves execute t r (List.replicate n (.migrate p .none .sqlite)) w).store =
        ⟨⟨some (r.ledger.keys (r.shipped p)), c'⟩, none⟩ := by
  induction left generalizing k n w c with
  | nil =>
      obtain ⟨n, rfl⟩ := Nat.exists_eq_add_one.mpr hn
      have hstep : (step execute t r.migrations (.migrate p .none .sqlite) w).2 = w.at p .opened := by
        simp only [step, migrateNext, hstage, List.map_nil]
      have hopened : (w.at p .opened).stage p = .opened := Function.update_self p _ _
      rw [List.replicate_succ, runMoves, List.foldl_cons, hstep]
      have hrest := runMoves_over execute t (r := r) (fun _ h => by rw [hopened] at h; cases h) n
      rw [runMoves] at hrest
      rw [hrest]
      -- `k` is as far as the release goes
      have hlen := List.drop_eq_nil_iff.mp hleft.symm
      have hkeys : r.ledger.keys k = r.ledger.keys (r.shipped p) := by
        rw [Releases.migrations, Ledger.upTo, List.length_take] at hlen
        rw [Ledger.keys_eq_take, Ledger.keys_eq_take]
        by_cases hshort : r.shipped p ≤ r.ledger.items.length
        · rw [show k = r.shipped p by omega]
        · rw [List.take_of_length_le (by rw [List.length_map]; omega),
            List.take_of_length_le (by rw [List.length_map]; omega)]
      cases hrun
      exact ⟨hopened, by rw [← hkeys]; exact hstore⟩
  | cons m rest ih =>
      obtain ⟨n, rfl⟩ := Nat.exists_eq_add_one.mpr (Nat.zero_lt_of_lt hn)
      rw [List.length_cons] at hn
      have hget : (r.ledger.upTo (r.shipped p))[k]? = some m := by
        have : ((r.migrations p).drop k)[0]? = (r.migrations p)[k + 0]? := List.getElem?_drop
        rw [← hleft, List.getElem?_cons_zero, Nat.add_zero] at this
        exact this.symm
      obtain ⟨hlt, hitem⟩ := r.ledger.getElem?_upTo hget
      rw [executeMigrations, List.foldlM_cons] at hrun
      cases hwhole : executeAll execute (splitSqlStatements t m.2) c with
      | error e => rw [hwhole] at hrun; cases hrun
      | ok c₁ =>
          rw [hwhole] at hrun
          have hbody : (migrationBlock execute t m.2 m.1).body ⟨some (r.ledger.keys k), c⟩ =
              .commit () ⟨some (r.ledger.keys (k + 1)), c₁⟩ := by
            refine (migrationBlock_commit execute t).mpr ⟨_, c₁, rfl, ?_, hwhole, ?_⟩
            · exact (r.ledger.notMem_keys hitem).mpr (Nat.le_refl k)
            · rw [r.ledger.keys_succ hitem]
          have hblock : (migrationBlock execute t m.2 m.1).run .sqlite p .none w.store =
              (.ok (), ⟨⟨some (r.ledger.keys (k + 1)), c₁⟩, none⟩) := by
            simp [hstore, Block.run, hbody]
          have hstep : (step execute t r.migrations (.migrate p .none .sqlite) w).2 =
              { w.at p (.migrating (rest.map Prod.fst)) with
                store := ⟨⟨some (r.ledger.keys (k + 1)), c₁⟩, none⟩ } := by
            simp only [step, migrateNext, hstage, List.map_cons, Releases.migrations,
              migrationSql_upTo hget, hblock]
          rw [List.replicate_succ, runMoves, List.foldl_cons, hstep]
          refine ih ?_ (by omega) (Function.update_self p _ _) rfl (by omega) hrun
          rw [← List.drop_drop, ← hleft, List.drop_succ_cons, List.drop_zero]

/-- Behind the bootstrap the table is there, with the rows it had. -/
theorem step_bootstrap {p k : Nat} {w : World σ} (hrows : w.store.db.rows = r.ledger.keys k)
    (hidle : w.stage p = .idle) (hfree : w.store.tx = none) :
    ((step execute t r.migrations (.bootstrap p none) w).2.stage p = .bootstrapped) ∧
      (step execute t r.migrations (.bootstrap p none) w).2.store =
        ⟨⟨some (r.ledger.keys k), w.store.db.contents⟩, none⟩ := by
  have hstep : (step execute t r.migrations (.bootstrap p none) w).2 = bootstrap p w := by
    simp only [step, hidle, if_true]
  rw [hstep, ← hrows, File.rows, bootstrap]
  cases hversions : w.store.db.versions with
  | some rows =>
      refine ⟨Function.update_self p _ _, ?_⟩
      show w.store = _
      rw [← hfree, Option.getD_some, ← hversions]
  | none =>
      simp only [hfree, Option.isSome_none, Bool.false_eq_true, if_false]
      exact ⟨Function.update_self p _ _, rfl⟩

/-- What the process makes of the rows it reads. -/
theorem step_read {p k : Nat} {w : World σ} (hstage : w.stage p = .bootstrapped)
    (hversions : w.store.db.versions = some (r.ledger.keys k)) :
    (step execute t r.migrations (.read p none) w).2 =
      if r.ledger.keys k ⊆ r.ledger.keys (r.shipped p) then
        w.at p (.migrating (((r.migrations p).drop k).map Prod.fst))
      else w.at p (.failed .schemaTooNew) := by
  have hstep : (step execute t r.migrations (.read p none) w).2 = readApplied r.migrations p w := by
    simp only [step, hstage, if_true]
  have hpending : pendingVersions (r.migrations p) (r.ledger.keys k) =
      ((r.migrations p).drop k).map Prod.fst := by
    rw [List.map_drop]
    exact r.ledger.pending_keys k (r.shipped p)
  rw [hstep, readApplied, hversions, ← hpending]
  rfl

/-- What `p` makes of the file, `k` migrations far, in `n` turns of the loop. -/
structure Settles (r : Releases) (p n k : Nat) (w : World σ) : Prop where
  /-- A migration that its release does not have: the file is left as it is. -/
  newer : r.shipped p < k →
    (runMoves execute t r (openMoves p n) w).stage p = .failed .schemaTooNew ∧
      (runMoves execute t r (openMoves p n) w).store = w.store
  /-- Otherwise it goes through what is left for its release, if that can be executed. -/
  older : k ≤ r.shipped p → ∀ c,
    executeMigrations execute t ((r.migrations p).drop k) w.store.db.contents = .ok c →
      (runMoves execute t r (openMoves p n) w).stage p = .opened ∧
        (runMoves execute t r (openMoves p n) w).store = ⟨⟨some (r.ledger.keys (r.shipped p)), c⟩, none⟩

/--
**Whatever has happened to the file, a process that is left alone** goes through exactly the
migrations that are left for its release; or it finds one that its release does not have, and
leaves the file as it is.
-/
theorem open_alone {k₀ : Nat} {es : List (OpenEvent execute t r)} {w₀ w : World σ} (hrun : Run w₀ es w)
    (h0 : Fresh r k₀ w₀) {p n : Nat} (hidle : w.stage p = .idle) (hfree : w.store.tx = none)
    (hn : r.ledger.items.length < n) :
    ∃ k, w.store.db.rows = r.ledger.keys k ∧ Settles execute t r p n k w := by
  obtain ⟨k, hsound⟩ := sound_run execute t hrun h0.sound
  obtain ⟨hboot, hstore⟩ := step_bootstrap execute t hsound.rows hidle hfree
  have hread := step_read execute t hboot (congrArg (·.db.versions) hstore)
  have hmoves : runMoves execute t r (openMoves p n) w =
      runMoves execute t r (List.replicate n (.migrate p .none .sqlite))
        (step execute t r.migrations (.read p none) (step execute t r.migrations (.bootstrap p none) w).2).2 := rfl
  refine ⟨k, hsound.rows, ⟨fun hnewer => ?_, fun hk c hc => ?_⟩⟩
  · have hnot : ¬ r.ledger.keys k ⊆ r.ledger.keys (r.shipped p) := fun hsub => by
      have := (r.ledger.keys_subset_iff hsound.bound).mp hsub
      omega
    have hfailed : ∀ w : World σ, (w.at p (.failed .schemaTooNew)).stage p = .failed .schemaTooNew :=
      fun w => Function.update_self p _ _
    rw [hmoves, hread, if_neg hnot, runMoves_over execute t (fun _ h => by rw [hfailed] at h; cases h)]
    refine ⟨hfailed _, hstore.trans ?_⟩
    -- the table was there before
    have hrows := hsound.rows
    have hbound := hsound.bound
    rw [File.rows] at hrows
    cases hversions : w.store.db.versions with
    | some rows =>
        rw [hversions, Option.getD_some] at hrows
        rw [← hfree, ← hrows, ← hversions]
    | none =>
        have hlen := congrArg List.length hrows
        rw [hversions, Ledger.length_keys] at hlen
        have : 0 = min k r.ledger.items.length := hlen
        omega
  · have hsub := (r.ledger.keys_subset_iff (n := r.shipped p) hsound.bound).mpr hk
    rw [hmoves, hread, if_pos hsub]
    refine runMoves_migrating execute t rfl hk (Function.update_self p _ _) hstore ?_ hc
    rw [List.length_drop, Releases.migrations, Ledger.upTo, List.length_take]
    omega

/-! ## Three processes -/

/-- An older release has the first migration only. -/
def sampleReleases : Releases where
  ledger := ⟨[(1, py "a"), (2, py "b;c")], by decide⟩
  shipped p := if p = 0 then 1 else 2

/-- The contents are the statements executed; none is executed twice. -/
def sampleExecute (statement : PyStr) (c : List PyStr) : Except Raised (List PyStr) :=
  if statement ∈ c then .error .sqlite else .ok (c ++ [statement])

def emptyFile : World (List PyStr) := ⟨⟨⟨none, []⟩, none⟩, fun _ => .idle⟩

theorem fresh_emptyFile : Fresh sampleReleases 0 emptyFile where
  bound := Nat.zero_le _
  rows := sampleReleases.ledger.keys_zero.symm
  idle _ := rfl

/-- The older release is overtaken, and the newer one is killed in its second migration. -/
def sampleMoves : List (Move (List PyStr)) :=
  [.bootstrap 0 none, .bootstrap 1 none, .read 0 none, .read 1 none, .migrate 1 .none .sqlite,
    .migrate 0 .none .sqlite, .migrate 1 .inside .interrupt, .exit 1]

def sampleEvents : List (OpenEvent sampleExecute asciiLetters sampleReleases) :=
  trace (step sampleExecute asciiLetters sampleReleases.migrations) sampleMoves emptyFile

def sampleWorld : World (List PyStr) := runMoves sampleExecute asciiLetters sampleReleases sampleMoves emptyFile

theorem migrations_in_order_overtaken :
    InOrder sampleExecute asciiLetters sampleReleases 0 emptyFile sampleEvents sampleWorld ∧
      sampleWorld.stage 0 = .failed .sqlite ∧ sampleWorld.store.db.rows = [1] := by
  refine ⟨migrations_in_order _ _ (Run.ofTrace sampleMoves emptyFile) fresh_emptyFile, ?_, ?_⟩ <;>
    decide +kernel

theorem open_alone_after_kill :
    ∃ k, sampleWorld.store.db.rows = sampleReleases.ledger.keys k ∧
      Settles sampleExecute asciiLetters sampleReleases 2 3 k sampleWorld :=
  open_alone sampleExecute asciiLetters (Run.ofTrace sampleMoves emptyFile) fresh_emptyFile (by decide +kernel)
    (by decide +kernel) (by decide)

end Katherine.Local.Opening
