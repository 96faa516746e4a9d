import Katherine.Local.Payloads
import Katherine.Local.Revision

/-!
# What a commit can raise

`commit_turn` refuses a turn in one of two ways. Its argument checks raise a
`ValidationError`, or `UnicodeEncodeError` where a text has a lone surrogate; the store
raises a conflict, a database error, or `OverflowError` for the revision that does not fit
into 64 bits. Which of the two it is tells who is at fault, so a caller that was promised
good arguments has to expect the second kind only (`commitTurn_raises`).
-/

namespace Katherine.Local

open Py Sql

/-- What the checks of the arguments raise. -/
def Err.ofArguments : Err → Bool
  | .validation _ _ => true
  | .unicodeEncode => true
  | _ => false

/-- A conflict, a database error, or what the driver raises for an integer parameter. -/
def Err.ofStore : Err → Bool
  | .conflict _ _ _ _ _ => true
  | .persistence _ _ => true
  | .sqlite => true
  | .overflow => true
  | _ => false

/-- No exception is both. -/
theorem Err.ofStore_of_arguments {e : Err} (h : e.ofArguments = true) : e.ofStore = false := by
  cases e <;> first | rfl | cases h

/-! ## Exceptions of a kind -/

/-- Whatever the computation raises is of this kind. -/
def Raises {α : Type} (p : Err → Bool) (x : Except Err α) : Prop := ∀ e, x = .error e → p e = true

namespace Raises

variable {α β : Type} {p : Err → Bool}

theorem ok (a : α) : Raises p (.ok a) := nofun

theorem require {c : Bool} {e : Err} (h : p e = true) : Raises p (require c e) := by
  intro e' he
  cases c <;> cases he
  exact h

theorem orRaise {x : Option α} {e : Err} (h : p e = true) : Raises p (orRaise x e) := by
  intro e' he
  cases x <;> cases he
  exact h

theorem bind {x : Except Err α} {f : α → Except Err β} (hx : Raises p x)
    (hf : ∀ a, Raises p (f a)) : Raises p (x >>= f) := by
  cases x with
  | ok a => exact hf a
  | error e =>
      intro e' he
      cases he
      exact hx e rfl

theorem map {x : Except Err α} {f : α → β} (h : Raises p x) : Raises p (x.map f) := by
  cases x with
  | ok a => exact ok _
  | error e =>
      intro e' he
      cases he
      exact h e rfl

theorem forM {f : α → Except Err Unit} (hf : ∀ a, Raises p (f a)) : ∀ xs : List α, Raises p (xs.forM f)
  | [] => ok _
  | x :: xs => bind (hf x) fun _ => forM hf xs

end Raises

/-! ## The argument checks -/

section Arguments

open Err

theorem raises_requestId (v : PyVal) : Raises ofArguments (validateRequestId v) :=
  .bind (.orRaise rfl) fun _ => .bind (.require rfl) fun _ => .bind (.require rfl) fun _ => .ok _

theorem raises_message (v : PyVal) (field : String) : Raises ofArguments (validateMessage v field) :=
  .bind (.orRaise rfl) fun _ => .bind (.require rfl) fun _ => .ok _

theorem raises_canonicalBytes (v : PyVal) (code : ErrorCode) (n : Nat) :
    Raises ofArguments (requireCanonicalBytes v code n) :=
  .bind (.orRaise rfl) fun _ => .bind (.require rfl) fun _ => .require rfl

theorem raises_replayPayload (v : PyVal) : Raises ofArguments (validateReplayPayload v) :=
  .bind (.orRaise rfl) fun _ => .bind (.require rfl) fun _ => .bind (.require rfl) fun _ =>
    .bind (.require rfl) fun _ => .bind (.require rfl) fun _ => .bind (.require rfl) fun _ =>
    .bind (raises_canonicalBytes _ _ _) fun _ => .ok _

theorem raises_snapshot {σ : Type} (code : ErrorCode) (fromDict : List (PyKey × PyVal) → Option σ)
    (v : PyVal) : Raises ofArguments (validateSnapshot code fromDict v) :=
  .bind (.orRaise rfl) fun _ => .bind (.require rfl) fun _ =>
    .bind (raises_canonicalBytes _ _ _) fun _ => .bind (.require rfl) fun _ => .ok _

theorem raises_outboxEvent (index : Nat) (event : PyVal) :
    Raises ofArguments (validateOutboxEvent index event) := by
  have hvalue : ∀ p, Raises ofArguments (checkOutboxValue index p) := by
    rintro ⟨k, v⟩
    unfold checkOutboxValue
    split
    · split
      · exact .require rfl
      · exact .require rfl
    · exact .ok _
  exact .bind (.orRaise rfl) fun _ => .bind (.orRaise rfl) fun _ => .bind (.orRaise rfl) fun _ =>
    .bind (.orRaise rfl) fun _ => .bind (.require rfl) fun _ => .bind (.require rfl) fun _ =>
    .bind (.require rfl) fun _ => .bind (.forM hvalue _) fun _ =>
    .bind (raises_canonicalBytes _ _ _) fun _ => .ok _

theorem raises_outboxFrom : ∀ (index : Nat) (es : List PyVal),
    Raises ofArguments (validateOutboxFrom index es)
  | _, [] => .ok _
  | index, e :: es =>
      .bind (raises_outboxEvent index e) fun _ => .bind (raises_outboxFrom (index + 1) es) fun _ => .ok _

theorem raises_outboxEvents (v : PyVal) : Raises ofArguments (validateOutboxEvents v) := by
  unfold validateOutboxEvents
  split
  · exact .ok _
  · exact .bind (.orRaise rfl) fun _ => .bind (.require rfl) fun _ =>
      .bind (raises_outboxFrom 0 _) fun _ => .bind (.require rfl) fun _ => .ok _

theorem raises_expectedRevision (v : PyVal) : Raises ofArguments (validateExpectedRevision v) := by
  unfold validateExpectedRevision
  split
  · exact .ok _
  · exact .bind (.orRaise rfl) fun _ => .ok _

theorem raises_commit (a : CommitArgs) : Raises ofArguments (validateCommit a) :=
  .bind (raises_requestId _) fun _ => .bind (.orRaise rfl) fun _ => .bind (raises_message _ _) fun _ =>
    .bind (raises_message _ _) fun _ => .bind (.orRaise rfl) fun _ => .bind (.require rfl) fun _ =>
    .bind (raises_replayPayload _) fun _ => .bind (.require rfl) fun _ => .bind (.require rfl) fun _ =>
    .bind (raises_snapshot _ _ _) fun _ => .bind (raises_snapshot _ _ _) fun _ =>
    .bind (raises_outboxEvents _) fun _ => .bind (raises_expectedRevision _) fun _ => .ok _

/-- **Bad arguments are reported as such.** -/
theorem raises_commitInput (sha256 : PyStr → PyStr) (a : CommitArgs) :
    Raises ofArguments (commitInput sha256 a) := by
  have hhash : ∀ v, Raises ofArguments (canonicalPayloadHash sha256 v) := fun v =>
    .bind (.orRaise rfl) fun _ => .bind (.require rfl) fun _ => .ok _
  exact .bind (raises_commit a) fun _ => .bind (hhash _) fun _ => .ok _

end Arguments

/-! ## The store -/

/-- A snapshot that was accepted can be written. -/
theorem jsonDumps_snapshot {σ : Type} {code : ErrorCode} {fromDict : List (PyKey × PyVal) → Option σ}
    {v : PyVal} {kvs : List (PyKey × PyVal)} (h : validateSnapshot code fromDict v = .ok kvs) :
    ∃ text, jsonDumps (.dict kvs) = .ok text := by
  obtain ⟨rfl, _⟩ := validateSnapshot_items h
  simp only [validateSnapshot, bind_eq_ok, orRaise_eq_ok, requireCanonicalBytes_eq_ok] at h
  obtain ⟨_, _, _, _, _, ⟨hser, _, _⟩, _⟩ := h
  exact ⟨_, orRaise_eq_ok.mpr (if_pos (serialisable_of_strict hser))⟩

theorem jsonDumps_replayPayload {v : PyVal} {kvs : List (PyKey × PyVal)}
    (h : validateReplayPayload v = .ok kvs) : ∃ text, jsonDumps (.dict kvs) = .ok text := by
  obtain ⟨_, hcontract⟩ := validateReplayPayload_eq_ok.mp h
  exact ⟨_, orRaise_eq_ok.mpr (if_pos (serialisable_of_strict hcontract.serialisable))⟩

/-- The texts of an accepted input can be written. -/
structure Writable (c : CommitInput) : Prop where
  emotional : ∃ text, jsonDumps (.dict c.emotionalState) = .ok text
  relationship : ∃ text, jsonDumps (.dict c.relationshipState) = .ok text
  replay : ∃ text, jsonDumps (.dict c.replayPayload) = .ok text

theorem Accepted.writable {a : CommitArgs} {c : CommitInput} (h : Accepted a c) : Writable c where
  emotional := jsonDumps_snapshot h.emotionalState
  relationship := jsonDumps_snapshot h.relationshipState
  replay := jsonDumps_replayPayload h.replayPayload

theorem raises_committedFromRow (row : TurnRequest) : Raises Err.ofStore (committedFromRow row) := by
  have hdecode : ∀ text, Raises Err.ofStore (decodeObject text) := by
    intro text
    unfold decodeObject
    split
    · exact .ok _
    · exact .orRaise rfl
  exact .bind (hdecode _) fun _ => .ok _

theorem commitBlock_rollback {c : CommitInput} {hash : PyStr} {ck : Clock} {db : Db} {e : Err}
    (h : (commitBlock c hash ck).body db = .rollback (.error e)) : e.ofStore = true := by
  simp only [commitBlock] at h
  split at h
  · cases h
    rfl
  · next row _ =>
      split at h
      · split at h
        · cases h
          rfl
        · injection h with h
          exact raises_committedFromRow row e h
      · cases h
        rfl
      · split at h
        · cases h
          rfl
        · split at h
          · cases h
          · simp only [Outcome.attempt_eq_rollback] at h
            obtain ⟨_, _, _, _, _, _, _, _, _, _, h⟩ := h
            cases h

theorem commitBlock_raise {c : CommitInput} {hash : PyStr} {ck : Clock} {db d : Db} {e : Err}
    (hc : Writable c) (houtbox : c.outboxEvents = [])
    (h : (commitBlock c hash ck).body db = .raise e d) : e.ofStore = true := by
  obtain ⟨⟨emotional, hemotional⟩, ⟨relationship, hrelationship⟩, ⟨replay, hreplay⟩⟩ := hc
  simp only [commitBlock] at h
  split at h
  · cases h
  · split at h
    · split at h <;> cases h
    · cases h
    · split at h
      · cases h
      · split at h
        · cases h
          rfl
        · simp only [hemotional, hrelationship, hreplay, houtbox, Outcome.attempt_ok] at h
          rcases Outcome.attempt_eq_raise.mp h with ⟨hbind, _⟩ | ⟨_, _, h⟩
          · -- the revision does not fit
            unfold bindInt at hbind
            exact Raises.require (p := Err.ofStore) rfl e hbind
          · cases h

/-- **Good arguments leave the store's own exceptions.** -/
theorem commitTurn_raises {sha256 : PyStr → PyStr} {env : Env} {a : CommitArgs} {c : CommitInput}
    {hash : PyStr} {s : LocalStore} (hinput : commitInput sha256 a = .ok (c, hash))
    (houtbox : c.outboxEvents = []) :
    Raises Err.ofStore (exec sha256 env (.commitTurn a) s).1 := by
  have hwritable := ((commitInput_eq_ok sha256).mp hinput).1.writable
  have hblock : Raises Err.ofStore
      ((commitBlock c hash env.clock).run .sqlite env.thread env.fault s).1 := by
    intro e he
    refine Block.run_raises (p := fun e => e.ofStore = true) (b := commitBlock c hash env.clock) rfl rfl
      (fun _ h => commitBlock_rollback h) ?_ e he
    intro e d h
    have hraised := commitBlock_raise hwritable houtbox h
    cases e with
    | sqlite => rfl
    | _ => exact hraised
  refine .map ?_
  simp only [hinput]
  split
  · exact fun e he => by cases he; rfl
  · split
    · exact hblock
    · next row _ =>
        split
        · exact hblock
        · split
          · exact fun e he => by cases he; rfl
          · exact raises_committedFromRow row
        · exact fun e he => by cases he; rfl

/-- Bad ones are refused before the store is looked at. -/
theorem commitTurn_refused {sha256 : PyStr → PyStr} {env : Env} {a : CommitArgs} {e : Err}
    {s : LocalStore} (h : commitInput sha256 a = .error e) :
    (exec sha256 env (.commitTurn a) s).1 = .error e := by
  simp only [exec, commitTurn, h]
  rfl

/-! ## Revisions -/

theorem commitBlock_revision {c : CommitInput} {hash : PyStr} {ck : Clock} {db d : Db}
    {r : CommittedTurn} (h : (commitBlock c hash ck).body db = .commit r d) :
    d.revision < 2 ^ 63 := by
  have hdb : d.revision = db.revision + 1 := by
    obtain ⟨_, _, _, _, _, _, _, _, _, _, _, _, _, _, _, hd⟩ := commitBlock_commit h
    rw [hd]
    rfl
  rw [hdb]
  simp only [commitBlock] at h
  split at h
  · cases h
  · split at h
    · split at h <;> cases h
    · cases h
    · split at h
      · cases h
      · split at h
        · cases h
        · simp only [Outcome.attempt_eq_commit] at h
          obtain ⟨_, _, _, _, _, hbind, _⟩ := h
          simpa [bindInt] using hbind

/-- **A stored revision fits into 64 bits**, because the driver bound it. -/
theorem exec_revision_lt {sha256 : PyStr → PyStr} {env : Env} {call : Call} {s s' : LocalStore}
    {r : Except Err Reply} (h : exec sha256 env call s = (r, s')) (hs : s.db.revision < 2 ^ 63) :
    s'.db.revision < 2 ^ 63 := by
  by_cases hcommit : ∃ a, call = .commitTurn a
  · obtain ⟨a, rfl⟩ := hcommit
    obtain ⟨r₀, hr₀⟩ : ∃ r₀, commitTurn sha256 env a s = (r₀, s') := by
      simp only [exec] at h
      cases h
      exact ⟨_, rfl⟩
    rcases commitTurn_db sha256 hr₀ with hdb | ⟨_, _, _, _, hbody, _⟩
    · rw [hdb]
      exact hs
    · exact commitBlock_revision hbody
  · by_cases hreset : ∃ field neutral, call = .reset field neutral
    · obtain ⟨field, neutral, rfl⟩ := hreset
      rw [exec] at h
      rcases perform_db h with hdb | ⟨_, _, _, hbody, _⟩
      · rw [hdb]
        exact hs
      · have hlt := hbody
        simp only [resetBlock, Outcome.attempt_eq_commit] at hlt
        obtain ⟨_, _, _, hbind, _⟩ := hlt
        obtain ⟨_, _, _, _, _, hd⟩ := resetBlock_commit hbody
        rw [hd, revision_reset, revision_resetProfile]
        simpa [bindInt] using hbind
    · -- no other call writes the profile
      have hprofile : s'.db.profile = s.db.profile := by
        rcases exec_change sha256 h with hdb | ⟨_, _, hc⟩
        · rw [hdb]
        · generalize s'.db = after at hc ⊢
          cases hc with
          | commit => exact absurd ⟨_, rfl⟩ hcommit
          | reset => exact absurd ⟨_, _, rfl⟩ hreset
          | importFixture himports => exact himports.profile
          | _ => rfl
      rw [Db.revision, hprofile]
      exact hs

end Katherine.Local
