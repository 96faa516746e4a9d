import Mathlib.Logic.Basic

/-!
# Hand-written transaction blocks

A client that manages its own transactions writes, at each call site, some form of

    BEGIN IMMEDIATE
    try:
        statements
        COMMIT
    except SomeError:
        ROLLBACK
        raise

and the blocks differ in where `BEGIN` stands and in which exceptions the `except`
clauses name. `Block` records exactly those differences, and `Block.run` says what
is left behind: the committed contents, and the transaction some connection still
has open, if an exception got past every clause.

`Block.run_cases` is the only place where the run of a block is taken apart.
-/

namespace Sql

/-- What the database file holds, and the transaction left open on it, if any. -/
structure Store (τ δ : Type) where
  /-- The committed contents. -/
  db : δ
  /-- The thread whose connection is inside a transaction, and what it sees there. -/
  tx : Option (τ × δ)

/-- What a connection reads: its own open transaction, else the committed contents. -/
def Store.view {τ δ : Type} [DecidableEq τ] (s : Store τ δ) (t : τ) : δ :=
  match s.tx with
  | some (t', d) => if t = t' then d else s.db
  | none => s.db

@[simp] theorem Store.view_idle {τ δ : Type} [DecidableEq τ] (db : δ) (t : τ) :
    (Store.mk db none).view t = db := rfl

/-- How the statements after `BEGIN` came out. -/
inductive Outcome (δ ε α : Type)
  /-- They reached `COMMIT` and the block returns `a`. -/
  | commit (a : α) (d : δ)
  /-- They issued `ROLLBACK` themselves, then returned or raised. -/
  | rollback (r : Except ε α)
  /-- They raised with the transaction open and `d` written in it. -/
  | raise (e : ε) (d : δ)

namespace Outcome

variable {δ ε α β : Type}

/-- Evaluate `x` inside the block, with `d` written so far. -/
def attempt (x : Except ε β) (d : δ) (k : β → Outcome δ ε α) : Outcome δ ε α :=
  match x with
  | .ok b => k b
  | .error e => .raise e d

@[simp] theorem attempt_ok (b : β) (d : δ) (k : β → Outcome δ ε α) :
    attempt (.ok b) d k = k b := rfl

@[simp] theorem attempt_error (e : ε) (d : δ) (k : β → Outcome δ ε α) :
    attempt (.error e) d k = .raise e d := rfl

theorem attempt_eq_commit {x : Except ε β} {d d' : δ} {k : β → Outcome δ ε α} {a : α} :
    attempt x d k = .commit a d' ↔ ∃ b, x = .ok b ∧ k b = .commit a d' := by
  cases x <;> simp

theorem attempt_eq_rollback {x : Except ε β} {d : δ} {k : β → Outcome δ ε α} {r : Except ε α} :
    attempt x d k = .rollback r ↔ ∃ b, x = .ok b ∧ k b = .rollback r := by
  cases x <;> simp

theorem attempt_eq_raise {x : Except ε β} {d d' : δ} {k : β → Outcome δ ε α} {e : ε} :
    attempt x d k = .raise e d' ↔
      (x = .error e ∧ d' = d) ∨ ∃ b, x = .ok b ∧ k b = .raise e d' := by
  cases x with
  | error e' => simp [eq_comm]
  | ok b => simp

end Outcome

/-- A driver error outside the program's control, at one of the places it can surface. -/
inductive Fault
  | none
  /-- A read before the block. -/
  | read
  /-- The `BEGIN`, for instance a lock timeout. -/
  | begin
  /-- A statement of the block or its `COMMIT`. -/
  | inside
deriving DecidableEq

/-- One `BEGIN … COMMIT` block. -/
structure Block (δ ε α : Type) where
  /-- `BEGIN` stands inside the `try`. -/
  guarded : Bool
  /-- The `except` clauses: the exception raised after the rollback, or `none` where no
  clause names the exception. -/
  catches : ε → Option ε
  body : δ → Outcome δ ε α

namespace Block

variable {τ δ ε α : Type} [DecidableEq τ]

/-- What the caller sees of an exception raised by a guarded `BEGIN`. -/
def translate (b : Block δ ε α) (e : ε) : ε := (b.catches e).getD e

/-- Leaving the block by the exception `e` with `d` written in the transaction. -/
def leave (b : Block δ ε α) (t : τ) (db : δ) (e : ε) (d : δ) : Except ε α × Store τ δ :=
  match b.catches e with
  | some e' => (.error e', ⟨db, none⟩)
  | none => (.error e, ⟨db, some (t, d)⟩)

/-- Run a block on thread `t`. `raw` is the exception the driver raises. -/
def run (raw : ε) (t : τ) (f : Fault) (b : Block δ ε α) (s : Store τ δ) :
    Except ε α × Store τ δ :=
  match s.tx with
  | some (t', d) =>
      -- a transaction is open, here or on another connection: `BEGIN` fails
      if b.guarded then (.error (b.translate raw), ⟨s.db, if t = t' then none else some (t', d)⟩)
      else (.error raw, s)
  | none =>
      match f with
      | .begin => (.error (if b.guarded then b.translate raw else raw), s)
      | .inside => b.leave t s.db raw s.db
      | _ =>
          match b.body s.db with
          | .commit a d => (.ok a, ⟨d, none⟩)
          | .rollback r => (r, ⟨s.db, none⟩)
          | .raise e d => b.leave t s.db e d

/-- **Everything a block can do.** Either its body committed on an idle store, or the
committed contents are as before; and then a transaction stays open only if it was open
already, or if the body raised what no `except` clause names. -/
theorem run_cases {raw : ε} {t : τ} {f : Fault} {b : Block δ ε α} {s s' : Store τ δ}
    {r : Except ε α} (h : b.run raw t f s = (r, s')) :
    (∃ a d, s.tx = none ∧ b.body s.db = .commit a d ∧ r = .ok a ∧ s' = ⟨d, none⟩) ∨
    (s.tx = none ∧ b.body s.db = .rollback r ∧ s' = ⟨s.db, none⟩) ∨
    (∃ e, r = .error e ∧ s'.db = s.db ∧
      (s'.tx = none ∨ s'.tx = s.tx ∨
        (∃ d, b.body s.db = .raise e d ∧ b.catches e = none ∧ s'.tx = some (t, d)) ∨
        (b.catches raw = none ∧ s'.tx = some (t, s.db)))) := by
  unfold run at h
  split at h
  · rename_i t' d htx
    split at h
    · cases h
      refine .inr (.inr ⟨_, rfl, rfl, ?_⟩)
      by_cases ht : t = t'
      · simp [ht]
      · simp [ht, htx]
    · cases h
      exact .inr (.inr ⟨_, rfl, rfl, .inr (.inl rfl)⟩)
  · rename_i htx
    split at h
    · cases h
      exact .inr (.inr ⟨_, rfl, rfl, .inr (.inl rfl)⟩)
    · unfold leave at h
      split at h <;> cases h
      · exact .inr (.inr ⟨_, rfl, rfl, .inl rfl⟩)
      · rename_i hc
        exact .inr (.inr ⟨_, rfl, rfl, .inr (.inr (.inr ⟨hc, rfl⟩))⟩)
    · split at h
      · rename_i a d hb
        cases h
        exact .inl ⟨a, d, htx, hb, rfl, rfl⟩
      · rename_i r' hb
        cases h
        exact .inr (.inl ⟨htx, hb, rfl⟩)
      · rename_i e d hb
        unfold leave at h
        split at h <;> cases h
        · exact .inr (.inr ⟨_, rfl, rfl, .inl rfl⟩)
        · rename_i hc
          exact .inr (.inr ⟨_, rfl, rfl, .inr (.inr (.inl ⟨d, hb, hc, rfl⟩))⟩)

/-- **What a block raises**: the driver's exception, what its body raises, or what its body
returns after a rollback of its own. -/
theorem run_raises {raw : ε} {t : τ} {f : Fault} {b : Block δ ε α} {s : Store τ δ} {p : ε → Prop}
    (hraw : p raw) (hbegin : p (b.translate raw))
    (hrollback : ∀ e, b.body s.db = .rollback (.error e) → p e)
    (hraise : ∀ e d, b.body s.db = .raise e d → p (b.translate e)) :
    ∀ e, (b.run raw t f s).1 = .error e → p e := by
  have hleave : ∀ {e e' : ε} {d : δ}, p (b.translate e) →
      (b.leave t s.db e d).1 = .error e' → p e' := by
    intro e e' d hp h
    unfold leave at h
    unfold translate at hp
    split at h <;> next hc =>
      rw [hc] at hp
      cases h
      exact hp
  intro e h
  unfold run at h
  split at h
  · split at h
    · cases h
      exact hbegin
    · cases h
      exact hraw
  · split at h
    · split at h <;> cases h
      · exact hbegin
      · exact hraw
    · exact hleave hbegin h
    · split at h
      · cases h
      · next hb =>
          have hr := h
          simp only at hr
          exact hrollback e (hr ▸ hb)
      · next hb => exact hleave (hraise _ _ hb) h

/-- The committed contents change only by a body that reached its `COMMIT`. -/
theorem run_db {raw : ε} {t : τ} {f : Fault} {b : Block δ ε α} {s s' : Store τ δ}
    {r : Except ε α} (h : b.run raw t f s = (r, s')) :
    s'.db = s.db ∨ ∃ a, b.body s.db = .commit a s'.db ∧ r = .ok a ∧ s.tx = none := by
  rcases run_cases h with ⟨a, d, htx, hb, rfl, rfl⟩ | ⟨_, _, rfl⟩ | ⟨e, _, hdb, _⟩
  · exact .inr ⟨a, hb, rfl, htx⟩
  · exact .inl rfl
  · exact .inl hdb

/-- A block that returns ran its body on the committed contents. -/
theorem run_ok {raw : ε} {t : τ} {f : Fault} {b : Block δ ε α} {s s' : Store τ δ} {a : α}
    (h : b.run raw t f s = (.ok a, s')) :
    s.tx = none ∧ s'.tx = none ∧
      (b.body s.db = .commit a s'.db ∨ (b.body s.db = .rollback (.ok a) ∧ s'.db = s.db)) := by
  rcases run_cases h with ⟨a', d, htx, hb, hr, rfl⟩ | ⟨htx, hb, rfl⟩ | ⟨e, hr, _, _⟩
  · cases hr
    exact ⟨htx, rfl, .inl hb⟩
  · exact ⟨htx, rfl, .inr ⟨hb, rfl⟩⟩
  · cases hr

/-- A block fails atomically on `d` when no exception its body raises there gets past the
`except` clauses. -/
def Sealed (b : Block δ ε α) (d : δ) : Prop :=
  ∀ e d', b.body d = .raise e d' → (b.catches e).isSome

/-- **Atomic failure.** A block that catches driver errors and is sealed on the contents
leaves an idle store idle, and leaves the contents alone if it raises. -/
theorem run_atomic {raw : ε} {t : τ} {f : Fault} {b : Block δ ε α} {s s' : Store τ δ}
    {r : Except ε α} (h : b.run raw t f s = (r, s')) (hraw : (b.catches raw).isSome)
    (hs : b.Sealed s.db) (htx : s.tx = none) :
    s'.tx = none ∧ (∀ e, r = .error e → s'.db = s.db) := by
  rcases run_cases h with ⟨a, d, _, _, rfl, rfl⟩ | ⟨_, _, rfl⟩ | ⟨e, rfl, hdb, hcase⟩
  · exact ⟨rfl, by simp⟩
  · exact ⟨rfl, fun _ _ => rfl⟩
  · refine ⟨?_, fun _ _ => hdb⟩
    rcases hcase with h' | h' | ⟨d, hb, hc, _⟩ | ⟨hc, _⟩
    · exact h'
    · rw [h', htx]
    · have := hs e d hb
      rw [hc] at this
      cases this
    · rw [hc] at hraw
      cases hraw

/-- A body that raises what no clause names leaves its transaction open. -/
theorem run_stuck {raw : ε} {t : τ} {b : Block δ ε α} {s : Store τ δ} {e : ε} {d : δ}
    (htx : s.tx = none) (hb : b.body s.db = .raise e d) (hc : b.catches e = none) :
    b.run raw t .none s = (.error e, ⟨s.db, some (t, d)⟩) := by
  simp [run, htx, hb, leave, hc]

/-- **Being sealed is exactly what atomic failure takes**, whatever the driver does. -/
theorem atomic_iff {raw : ε} (t : τ) {b : Block δ ε α} {d : δ} (hraw : (b.catches raw).isSome) :
    (∀ f e, (b.run raw t f ⟨d, none⟩).1 = .error e → (b.run raw t f ⟨d, none⟩).2 = ⟨d, none⟩) ↔
      b.Sealed d := by
  constructor
  · intro h e d' hb
    cases hc : b.catches e with
    | some e' => rfl
    | none =>
        have hstuck := @run_stuck _ _ _ _ _ raw t b ⟨d, none⟩ e d' rfl hb hc
        have := h .none e (by rw [hstuck])
        rw [hstuck] at this
        cases this
  · intro hs f e he
    obtain ⟨r, s', hrun⟩ : ∃ r s', b.run raw t f ⟨d, none⟩ = (r, s') := ⟨_, _, rfl⟩
    rw [hrun] at he ⊢
    obtain ⟨htx, hdb⟩ := run_atomic hrun hraw hs rfl
    obtain ⟨db', tx'⟩ := s'
    have hdb' : db' = d := hdb e he
    have htx' : tx' = none := htx
    rw [hdb', htx']

end Block

end Sql
