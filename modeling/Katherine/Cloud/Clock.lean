import Katherine.Cloud.Attempts
import Katherine.Lib.JsonbLoad

/-!
# Can a turn see a snapshot from its future?

An attempt reads the clock first and loads the state second. A commit or a reset that
lands in between may carry a later time, and then `transition_relationship` raises: the
turn fails on a clock regression although no clock went back. Without such a write it
never does, whatever else happens, and a write after the load is a `revision_mismatch`.

The invariant follows an attempt through its stages. While it holds a reading of the
clock, no stored snapshot of its user is later than the reading; this is what an
overtaking write would break. Once the state is loaded it has its own copy, and only the
revision ties it to the database.
-/

namespace Katherine.Cloud

open Py Sql Pg Runs

variable {sha256 : PyStr → PyStr} {decode : Jsonb → PyVal} {dyn : Dynamics}

/-! ## The invariant -/

/-- The loaded snapshot is not from the future of the reading, nor the reading of the clock's. -/
def Loaded.Past (known : Loaded) (clock : PosFloat) : Prop :=
  known.relationship.timestamp.val.value ≤ known.currentTime.val.value ∧
    known.currentTime.val.value ≤ clock.val.value

/-- The snapshot that will be written carries the reading. -/
def Loaded.Carries (known : Loaded) (relationship : RelationshipStateV1) (clock : PosFloat) : Prop :=
  relationship.timestamp = known.currentTime ∧ known.currentTime.val.value ≤ clock.val.value

def TurnOk (decode : Jsonb → PyVal) (db : Db) (clock : PosFloat) (turn : Turn) : Prop :=
  match turn.stage with
  | .begun => True
  | .timed currentTime => currentTime.val.value ≤ clock.val.value ∧
      ∀ r, storedRelationship decode db turn.user = some r →
        r.timestamp.val.value ≤ currentTime.val.value
  | .loaded known => known.Past clock
  | .informed known => known.Past clock
  | .appraised known _ => known.Past clock
  | .moved known _ relationship => known.Carries relationship clock
  | .generated known _ relationship _ => known.Carries relationship clock
  | .finished outcome => outcome ≠ .clockRegression

structure ClockInv (decode : Jsonb → PyVal) (s : Backend) : Prop where
  /-- No stored snapshot is from the future. -/
  stored : ∀ user r, storedRelationship decode s.db user = some r →
    r.timestamp.val.value ≤ s.clock.val.value
  /-- Nor is one that is about to be stored. -/
  requests : ∀ k r, s.requests k = some r → r.reading.val.value ≤ s.clock.val.value
  turns : ∀ n, TurnOk decode s.db s.clock (s.turns n)

theorem clockInv_fresh {s : Backend} (h : s.Fresh decode) : ClockInv decode s where
  stored := fun user r hr => FiniteFloat.lt_eq_false.mp (h.past user r hr)
  requests := by
    intro k r hr
    rw [h.requests k] at hr
    cases hr
  turns := by
    intro n
    obtain ⟨outcome, hstage, hne⟩ := h.turns n
    rw [TurnOk, hstage]
    exact hne

/-! ## What keeps it -/

/-- The clock may go on. -/
theorem turnOk_tick {db : Db} {clock clock' : PosFloat} {turn : Turn}
    (hle : clock.val.value ≤ clock'.val.value) (h : TurnOk decode db clock turn) :
    TurnOk decode db clock' turn := by
  unfold TurnOk at h ⊢
  split
  · trivial
  · rename_i currentTime hstage
    rw [hstage] at h
    exact ⟨h.1.trans hle, h.2⟩
  · rename_i known hstage
    rw [hstage] at h
    exact ⟨h.1, h.2.trans hle⟩
  · rename_i known hstage
    rw [hstage] at h
    exact ⟨h.1, h.2.trans hle⟩
  · rename_i known _ hstage
    rw [hstage] at h
    exact ⟨h.1, h.2.trans hle⟩
  · rename_i known _ relationship hstage
    rw [hstage] at h
    exact ⟨h.1, h.2.trans hle⟩
  · rename_i known _ relationship _ hstage
    rw [hstage] at h
    exact ⟨h.1, h.2.trans hle⟩
  · rename_i outcome hstage
    rw [hstage] at h
    exact h

/-- A stored snapshot matters to an attempt only between its reading and its load. -/
theorem turnOk_db {db db' : Db} {clock : PosFloat} {turn : Turn} (h : TurnOk decode db clock turn)
    (htimed : ∀ currentTime r, turn.stage = .timed currentTime →
      storedRelationship decode db' turn.user = some r →
      r.timestamp.val.value ≤ currentTime.val.value) : TurnOk decode db' clock turn := by
  unfold TurnOk at h ⊢
  split
  · trivial
  · rename_i currentTime hstage
    rw [hstage] at h
    exact ⟨h.1, fun r hr => htimed currentTime r hstage hr⟩
  all_goals
    rename_i hstage
    rw [hstage] at h
    exact h

theorem clockInv_setTurn {s : Backend} (h : ClockInv decode s) {n : Nat} {turn : Turn}
    (hturn : TurnOk decode s.db s.clock turn) : ClockInv decode (s.setTurn n turn) where
  stored := h.stored
  requests := h.requests
  turns := by
    intro m
    show TurnOk decode s.db s.clock (Function.update s.turns n turn m)
    by_cases hm : m = n
    · subst hm
      rw [Function.update_self]
      exact hturn
    · rw [Function.update_of_ne hm]
      exact h.turns m

/-- A write to the database keeps the invariant if it stores nothing from the future, neither of the
clock nor of a reading that is still to be used. -/
theorem clockInv_db {s : Backend} (h : ClockInv decode s) {db : Db}
    (hpast : ∀ user r, storedRelationship decode db user = some r →
      r.timestamp.val.value ≤ s.clock.val.value)
    (htimed : ∀ n currentTime r, (s.turns n).stage = .timed currentTime →
      storedRelationship decode db (s.turns n).user = some r →
      r.timestamp.val.value ≤ currentTime.val.value) : ClockInv decode { s with db } where
  stored := hpast
  requests := h.requests
  turns := fun n => turnOk_db (h.turns n) fun currentTime r => htimed n currentTime r

/-- A commit or a reset keeps it, if it does not overtake an attempt. -/
theorem clockInv_write {s : Backend} (h : ClockInv decode s) {db : Db} (user : PyStr)
    (time : PosFloat) (htime : time.val.value ≤ s.clock.val.value)
    (hstored : ∀ v r, storedRelationship decode db v = some r →
      storedRelationship decode s.db v = some r ∨
        v = user ∧ r.timestamp.val.value = time.val.value)
    (hlands : ∀ n currentTime, db.profiles.get? user ≠ s.db.profiles.get? user →
      (s.turns n).user = user → (s.turns n).stage = .timed currentTime →
      time.val.value ≤ currentTime.val.value) : ClockInv decode { s with db } := by
  refine clockInv_db h ?_ ?_
  · intro v r hr
    rcases hstored v r hr with hold | ⟨-, hnew⟩
    · exact h.stored v r hold
    · rw [hnew]
      exact htime
  · intro n currentTime r hstage hr
    have hturn := h.turns n
    rw [TurnOk, hstage] at hturn
    by_cases hsame : db.profiles.get? (s.turns n).user = s.db.profiles.get? (s.turns n).user
    · rw [storedRelationship_congr hsame] at hr
      exact hturn.2 r hr
    · rcases hstored _ r hr with hold | ⟨hu, hnew⟩
      · exact hturn.2 r hold
      · rw [hnew]
        rw [hu] at hsame
        exact hlands n currentTime hsame hu hstage

/-- What an attempt loads is not later than its reading, if no stored snapshot is. -/
theorem past_of_loadState {db : Db} {user : PyStr} {currentTime : PosFloat} {known : Loaded}
    (h : loadState decode db user currentTime = some known)
    (hstored : ∀ r, storedRelationship decode db user = some r →
      r.timestamp.val.value ≤ currentTime.val.value) :
    known.currentTime = currentTime ∧
      known.relationship.timestamp.val.value ≤ currentTime.val.value := by
  simp only [loadState, Option.bind_eq_bind, Option.bind_eq_some_iff] at h
  obtain ⟨state, hstate, emotional, -, h⟩ := h
  split at h
  · -- no snapshot: the neutral one of the reading
    cases h
    exact ⟨rfl, le_rfl⟩
  · obtain ⟨relationship, hrel, h⟩ := Option.bind_eq_some_iff.mp h
    cases h
    refine ⟨rfl, ?_⟩
    show relationship.timestamp.val.value ≤ currentTime.val.value
    unfold loadUserState at hstate
    split at hstate
    · -- no profile: again the neutral one
      obtain rfl := Option.some.inj hstate
      have hread : migrateLegacyRelationshipSnapshot (RelationshipStateV1.neutral currentTime).toDict =
          some (.neutral currentTime) := by
        refine migrateLegacyRelationshipSnapshot_of_fromDict ?_
        rw [← RelationshipStateV1.fromDict_canon (RelationshipStateV1.isJson_toDict _)]
        exact RelationshipStateV1.fromDict_canon_toDict _
      rw [hread] at hrel
      obtain rfl := Option.some.inj hrel
      exact le_rfl
    · rename_i p hp
      simp only [Option.bind_eq_bind, Option.bind_eq_some_iff] at hstate
      obtain ⟨_, -, kvs, hkvs, hstate⟩ := hstate
      cases hstate
      exact hstored relationship (storedRelationship_eq_some.mpr ⟨p, kvs, hp, hkvs, hrel⟩)

theorem turnOk_onCommit {db : Db} {clock : PosFloat} (turn : Turn) (reply : Reply) :
    TurnOk decode db clock (turn.onCommit reply) := by
  have hretry : TurnOk decode db clock turn.retry := by
    unfold Turn.retry
    split
    · exact TurnOutcome.noConfusion
    · trivial
  unfold Turn.onCommit
  split
  · exact TurnOutcome.noConfusion
  · split
    · exact hretry
    · exact TurnOutcome.noConfusion
  · exact TurnOutcome.noConfusion

/-! ## One step -/

section Step

variable {s : Backend} (h : ClockInv decode s)

include h

/-- The stages before the commit touch the turn alone. -/
theorem clockInv_setStage (n : Nat) (stage : Stage)
    (hturn : TurnOk decode s.db s.clock { s.turns n with stage }) :
    ClockInv decode (s.setStage n stage) :=
  clockInv_setTurn h hturn

theorem clockInv_tick (time : PosFloat) :
    ClockInv decode (s.step sha256 decode dyn (.tick time)) := by
  simp only [Backend.step]
  split
  · exact h
  · rename_i hlt
    have hle : s.clock.val.value ≤ time.val.value := by
      rw [← FiniteFloat.lt_eq_false, ← Bool.not_eq_true]
      exact hlt
    exact
      { stored := fun user r hr => (h.stored user r hr).trans hle
        requests := fun k r hr => (h.requests k r hr).trans hle
        turns := fun n => turnOk_tick hle (h.turns n) }

theorem clockInv_loadState (n : Nat) :
    ClockInv decode (s.step sha256 decode dyn (.loadState n)) := by
  simp only [Backend.step]
  split
  · rename_i currentTime hstage
    have hturn := h.turns n
    rw [TurnOk, hstage] at hturn
    split
    · rename_i known hknown
      obtain ⟨hreading, hpast⟩ := past_of_loadState hknown hturn.2
      refine clockInv_setStage h n (.loaded known) ⟨?_, ?_⟩
      · rw [hreading]
        exact hpast
      · rw [hreading]
        exact hturn.1
    · exact clockInv_setStage h n (.finished .failed) TurnOutcome.noConfusion
  · exact h

/-- With a snapshot that is not from the future the transition does not raise. -/
theorem clockInv_transition (n : Nat) :
    ClockInv decode (s.step sha256 decode dyn (.transition n)) := by
  simp only [Backend.step]
  split
  · rename_i known appraisal hstage
    have hturn := h.turns n
    rw [TurnOk, hstage] at hturn
    have hclock : known.currentTime.val.lt known.relationship.timestamp.val = false :=
      FiniteFloat.lt_eq_false.mpr hturn.1
    rw [Dynamics.transitionRelationship, hclock]
    exact clockInv_setStage h n (.moved known _ _) ⟨rfl, hturn.2⟩
  · exact h

/-- The write of a step does not overtake an attempt. -/
def Backend.Lands (sha256 : PyStr → PyStr) (decode : Jsonb → PyVal) (dyn : Dynamics) (s : Backend)
    (m : BackendMove) : Prop :=
  ∀ user time n currentTime, s.writeTime m = some (user, time) →
    (s.step sha256 decode dyn m).db.profiles.get? user ≠ s.db.profiles.get? user →
    (s.turns n).user = user → (s.turns n).stage = .timed currentTime →
    time.val.value ≤ currentTime.val.value

theorem clockInv_commit (hkeeps : KeepsTimestamps decode) {n : Nat} {t : Times} {ids : FreshIds}
    {rest : CommitArgs} (hlands : s.Lands sha256 decode dyn (.commit n t ids rest)) :
    ClockInv decode (s.step sha256 decode dyn (.commit n t ids rest)) := by
  cases hstage : (s.turns n).stage with
  | generated known emotional relationship response =>
      have hturn := h.turns n
      rw [TurnOk, hstage] at hturn
      obtain ⟨htime, hclock⟩ := hturn
      have hwrite : s.writeTime (.commit n t ids rest) =
          some ((s.turns n).user, known.currentTime) := by
        simp only [Backend.writeTime, hstage]
      have hdb : (s.step sha256 decode dyn (.commit n t ids rest)).db =
          (exec sha256 (t, .commitTurn ids
            (commitArgs (s.turns n).user known emotional relationship response rest)) s.db).2 := by
        simp only [Backend.step, hstage]
        rfl
      simp only [Backend.step, hstage]
      refine clockInv_setTurn ?_ (turnOk_onCommit _ _)
      refine clockInv_write h (s.turns n).user known.currentTime hclock ?_ ?_
      · intro v r hr
        rw [← htime]
        exact stored_commit hkeeps rfl rfl hr
      · intro m currentTime hne huser hm
        refine hlands _ _ m currentTime hwrite ?_ huser hm
        rw [hdb]
        exact hne
  | _ =>
      simp only [Backend.step, hstage]
      exact h

theorem clockInv_request {k : Nat} {operation : Operation} {user operationId : PyStr} :
    ClockInv decode (s.step sha256 decode dyn (.request k operation user operationId)) := by
  simp only [Backend.step]
  split
  · refine ⟨h.stored, ?_, h.turns⟩
    intro j r hr
    dsimp only at hr
    by_cases hj : j = k
    · subst hj
      rw [Function.update_self] at hr
      obtain rfl := Option.some.inj hr
      exact le_rfl
    · rw [Function.update_of_ne hj] at hr
      exact h.requests j r hr
  · exact h

theorem clockInv_apply (hkeeps : KeepsTimestamps decode) {k : Nat} {now : Timestamp}
    (hlands : s.Lands sha256 decode dyn (.apply k now)) :
    ClockInv decode (s.step sha256 decode dyn (.apply k now)) := by
  cases hr : s.requests k with
  | none =>
      simp only [Backend.step, hr]
      exact h
  | some request =>
      have hdb : (s.step sha256 decode dyn (.apply k now)).db =
          (privacyAction sha256 now request.operation request.user request.operationId
            (.fin request.reading.val) s.db).2 := by
        simp only [Backend.step, hr]
      have hwritten : ClockInv decode { s with db := (s.step sha256 decode dyn (.apply k now)).db } := by
        by_cases hreset : request.operation = .resetRelationshipState
        · have hwrite : s.writeTime (.apply k now) = some (request.user, request.reading) := by
            obtain ⟨operation, user, operationId, reading⟩ := request
            simp only at hreset
            subst hreset
            simp only [Backend.writeTime, hr]
          refine clockInv_write h request.user request.reading (h.requests k request hr) ?_ ?_
          · intro v r hv
            rw [hdb] at hv
            exact (stored_privacy hkeeps hv).imp id And.right
          · intro m currentTime hne huser hm
            exact hlands _ _ m currentTime hwrite hne huser hm
        · have hsame : ∀ v r, storedRelationship decode
              (s.step sha256 decode dyn (.apply k now)).db v = some r →
              storedRelationship decode s.db v = some r := by
            intro v r hv
            rw [hdb] at hv
            exact (stored_privacy hkeeps hv).resolve_right fun hnew => hreset hnew.1
          refine clockInv_db h (fun v r hv => h.stored v r (hsame v r hv)) ?_
          intro m currentTime r hm hv
          have hturn := h.turns m
          rw [TurnOk, hm] at hturn
          exact hturn.2 r (hsame _ r hv)
      rw [hdb] at hwritten
      simp only [Backend.step, hr]
      refine ⟨hwritten.stored, ?_, hwritten.turns⟩
      intro j r hj
      dsimp only at hj
      by_cases hjk : j = k
      · subst hjk
        rw [Function.update_self] at hj
        cases hj
      · rw [Function.update_of_ne hjk] at hj
        exact h.requests j r hj

theorem clockInv_other {t : Times} {call : { c : Call // c.isClocked = false }} :
    ClockInv decode (s.step sha256 decode dyn (.other t call)) := by
  have hsame : ∀ v r, storedRelationship decode (exec sha256 (t, call.1) s.db).2 v = some r →
      storedRelationship decode s.db v = some r := fun v r hv => stored_other call.2 hv
  refine clockInv_db h (fun v r hv => h.stored v r (hsame v r hv)) ?_
  intro m currentTime r hm hv
  have hturn := h.turns m
  rw [TurnOk, hm] at hturn
  exact hturn.2 r (hsame _ r hv)

/-- **Every step keeps the invariant, unless it overtakes an attempt.** -/
theorem clockInv_step (hkeeps : KeepsTimestamps decode) {m : BackendMove}
    (hlands : s.Lands sha256 decode dyn m) : ClockInv decode (s.step sha256 decode dyn m) := by
  have hturn := h.turns
  cases m with
  | tick time => exact clockInv_tick h time
  | loadState n => exact clockInv_loadState h n
  | transition n => exact clockInv_transition h n
  | commit n t ids rest => exact clockInv_commit h hkeeps hlands
  | request k operation user operationId => exact clockInv_request h
  | apply k now => exact clockInv_apply h hkeeps hlands
  | other t call => exact clockInv_other h
  | begin n user =>
      simp only [Backend.step]
      split
      · exact clockInv_setTurn h trivial
      · exact h
  | readClock n =>
      simp only [Backend.step]
      split
      · exact clockInv_setStage h n (.timed s.clock) ⟨le_rfl, h.stored _⟩
      · exact h
  | loadContext n =>
      simp only [Backend.step]
      split
      · rename_i known hstage
        have hn := hturn n
        rw [TurnOk, hstage] at hn
        exact clockInv_setStage h n (.informed known) hn
      · exact h
  | appraise n appraisal =>
      simp only [Backend.step]
      split
      · rename_i known hstage
        have hn := hturn n
        rw [TurnOk, hstage] at hn
        exact clockInv_setStage h n (.appraised known appraisal) hn
      · exact h
  | generate n response =>
      simp only [Backend.step]
      split
      · rename_i known emotional relationship hstage
        have hn := hturn n
        rw [TurnOk, hstage] at hn
        exact clockInv_setStage h n (.generated known emotional relationship response) hn
      · exact h
  | fail n =>
      simp only [Backend.step]
      split
      · exact h
      · exact clockInv_setStage h n (.finished .failed) TurnOutcome.noConfusion

end Step

/-! ## Whole runs -/

theorem after_eq (e : Event (backendStep sha256 decode dyn)) :
    e.after = e.before.step sha256 decode dyn e.input :=
  (congrArg Prod.snd e.executed).symm

/-- A step that does not overtake an attempt keeps the invariant. -/
theorem clockInv_event (hkeeps : KeepsTimestamps decode) (e : Event (backendStep sha256 decode dyn))
    (hnot : ¬ Overtakes e) (h : ClockInv decode e.before) : ClockInv decode e.after := by
  rw [after_eq e]
  refine clockInv_step h hkeeps ?_
  intro user time n currentTime hwrite hne huser hstage
  rw [← FiniteFloat.lt_eq_false, ← Bool.not_eq_true]
  intro hlt
  rw [← after_eq e] at hne
  exact hnot ⟨user, time, n, currentTime, hwrite, hne, huser, hstage, hlt⟩

/-- A commit whose revision was overtaken after the load writes nothing, and a request that is new
starts over. -/
theorem commit_overtaken {s : Backend} {n : Nat} {t : Times} {ids : FreshIds} {rest : CommitArgs}
    {known : Loaded} {emotional : EmotionalStateV1} {relationship : RelationshipStateV1}
    {response : PyStr} (hstage : (s.turns n).stage = .generated known emotional relationship response)
    (hne : s.db.revision (s.turns n).user ≠ known.revision) :
    (s.step sha256 decode dyn (.commit n t ids rest)).db = s.db ∧
      ∀ i, validateCommit (commitArgs (s.turns n).user known emotional relationship response rest) =
          .ok i → s.db.turnRequests.get? i.key = none →
        (s.step sha256 decode dyn (.commit n t ids rest)).turns n = (s.turns n).retry := by
  let d : Event (exec sha256) := .of _ (t, .commitTurn ids
    (commitArgs (s.turns n).user known emotional relationship response rest)) s.db
  obtain ⟨hafter, hreply⟩ := commit_stale (e := d) rfl rfl rfl hne
  simp only [Backend.step, hstage]
  refine ⟨hafter, fun i hv hnone => ?_⟩
  have hmismatch := hreply i hv hnone
  show Function.update s.turns n ((s.turns n).onCommit d.reply) n = (s.turns n).retry
  rw [Function.update_self, hmismatch]
  rfl

/-- **Interference is a `revision_mismatch`, unless it comes between the clock and the load.** In
every run from a state with no turn under way and no snapshot from the future, in which no commit and
no relationship reset with a later clock value lands between an attempt's reading of the clock and
its loading of the state:

* `transition_relationship` is called with a time that is not before the loaded timestamp;
* no turn ends with a clock regression;
* a commit whose profile moved on after the load writes nothing, and starts over if its request is
  new, or ends in a conflict on the second attempt. -/
theorem clock_regression_unreachable (hkeeps : KeepsTimestamps decode) {s s' : Backend}
    {es : List (Event (backendStep sha256 decode dyn))} (hrun : Run s es s') (hfresh : s.Fresh decode)
    (hnot : ∀ e ∈ es, ¬ Overtakes e) :
    (∀ e ∈ es, ∀ n known appraisal, e.input = .transition n →
      (e.before.turns n).stage = .appraised known appraisal →
      known.currentTime.val.lt known.relationship.timestamp.val = false) ∧
    (∀ e ∈ es, ∀ n, (e.after.turns n).stage ≠ .finished .clockRegression) ∧
    (∀ e ∈ es, ∀ n t ids rest known emotional relationship response,
      e.input = .commit n t ids rest →
      (e.before.turns n).stage = .generated known emotional relationship response →
      e.before.db.revision (e.before.turns n).user ≠ known.revision →
      e.after.db = e.before.db ∧
        ∀ i, validateCommit (commitArgs (e.before.turns n).user known emotional relationship response
            rest) = .ok i → e.before.db.turnRequests.get? i.key = none →
          e.after.turns n = (e.before.turns n).retry) := by
  obtain ⟨-, hall⟩ := hrun.invariant (P := ClockInv decode) (clockInv_fresh hfresh)
    fun e he => clockInv_event hkeeps e (hnot e he)
  refine ⟨?_, ?_, ?_⟩
  · intro e he n known appraisal _ hstage
    have hturn := (hall e he).1.turns n
    rw [TurnOk, hstage] at hturn
    exact FiniteFloat.lt_eq_false.mpr hturn.1
  · intro e he n hstage
    have hturn := (hall e he).2.turns n
    rw [TurnOk, hstage] at hturn
    exact hturn rfl
  · intro e he n t ids rest known emotional relationship response hin hstage hne
    rw [after_eq e, hin]
    exact commit_overtaken hstage hne

/-! ## A reset that comes in between -/

/-- The document as the JSON it is sent as. -/
def loadsDecode (doc : Jsonb) : PyVal := (loads doc.text).getD .none

/-- Transitions that change nothing but the time. -/
def stillDynamics : Dynamics where
  emotion := fun s _ t => { s with timestamp := t }
  metrics := fun r _ => (r.trust, r.affection, r.tension)

def earlyTime : PosFloat := ⟨⟨py "1700000000.0", isFloatRepr_early⟩, early_pos⟩

def lateTime : PosFloat := ⟨⟨py "1700000005.0", isFloatRepr_late⟩, by decide⟩

/-- A user with both snapshots, and no turn under way. -/
def overtakenStart : Backend where
  clock := earlyTime
  db :=
    { Db.empty with
      profiles := Table.empty.insertNew
        { userId := sampleUser, personaConfig := none, userProfile := none,
          relationshipState := Jsonb.ofPy (.dict (neutralSnapshot .relationship earlyTime)),
          emotionalState := Jsonb.ofPy (.dict (neutralSnapshot .emotional earlyTime)),
          revision := 1, updatedAt := none } }
  turns := fun _ => ⟨[], 1, .finished .committed⟩
  requests := fun _ => none

/-- A turn reads the clock; five seconds later the user resets the relationship; then the turn loads
the state. -/
def overtakenMoves : List BackendMove :=
  [.begin 0 sampleUser, .readClock 0, .tick lateTime,
    .request 0 .resetRelationshipState sampleUser sampleOperation.text, .apply 0 0, .loadState 0,
    .loadContext 0, .appraise 0 .neutral, .transition 0]

def Stage.isRegression : Stage → Bool
  | .finished .clockRegression => true
  | _ => false

theorem Stage.eq_of_isRegression {stage : Stage} (h : stage.isRegression = true) :
    stage = .finished .clockRegression := by
  unfold isRegression at h
  split at h
  · rfl
  · cases h

/-- The one snapshot there is has the time of the clock. -/
theorem overtakenStart_past
    (hstored : storedRelationship decode overtakenStart.db sampleUser = some (.neutral earlyTime)) (user : PyStr)
    (r : RelationshipStateV1) (hr : storedRelationship decode overtakenStart.db user = some r) :
    overtakenStart.clock.val.lt r.timestamp.val = false := by
  by_cases hu : user = sampleUser
  · subst hu
    rw [hstored] at hr
    obtain rfl := Option.some.inj hr
    decide
  · obtain ⟨p, _, hp, -⟩ := storedRelationship_eq_some.mp hr
    have hkey := Table.get?_key hp
    have hmem := Table.get?_mem hp
    obtain rfl := List.mem_singleton.mp hmem
    exact absurd hkey.symm hu

theorem overtakenStart_fresh : overtakenStart.Fresh loadsDecode where
  turns := fun _ => ⟨.committed, rfl, by decide⟩
  requests := fun _ => rfl
  past := overtakenStart_past (by decide +kernel)

/-- **A healthy turn fails on a clock regression.** -/
theorem reset_between_clock_and_load :
    ∃ (es : List (Event (backendStep resetSha256 loadsDecode stillDynamics))) (s' : Backend),
      Run overtakenStart es s' ∧ overtakenStart.Fresh loadsDecode ∧
      ∃ e ∈ es, (e.after.turns 0).stage = .finished .clockRegression := by
  have hregresses : (trace (backendStep resetSha256 loadsDecode stillDynamics) overtakenMoves
      overtakenStart).any (fun e => (e.after.turns 0).stage.isRegression) = true := by
    decide +kernel
  obtain ⟨e, he, hstage⟩ := List.any_eq_true.mp hregresses
  obtain ⟨s', hrun⟩ := Run.ofInputs overtakenMoves overtakenStart
  exact ⟨_, s', hrun, overtakenStart_fresh, e, he, Stage.eq_of_isRegression hstage⟩

/-! ## A turn that nothing overtakes -/

/-- A client that takes a number as it is, or not at all. -/
def readDocument : Jsonb → PyVal := Jsonb.load Jsonb.exactNumber

/-- A timestamp that a client like this accepts is the number in the document. -/
theorem value_of_exactNumber {x : Numeric} {t : PosFloat}
    (h : requirePositiveFloat (Jsonb.exactNumber x) = some t) : t.val.value = x.value := by
  simp only [requirePositiveFloat, Option.bind_eq_bind, Option.bind_eq_some_iff] at h
  obtain ⟨f, hf, h⟩ := h
  have hval : f = t.val := by
    split at h
    · cases h
      rfl
    · cases h
  rw [← hval]
  cases hx : Jsonb.exactNumber x with
  | int i =>
      rw [hx, requireFiniteFloat] at hf
      obtain ⟨hsmall, hi⟩ := Jsonb.exactNumber_int hx
      rw [value_of_floatOfInt hf hsmall, hi]
  | float y =>
      rw [hx] at hf
      cases y with
      | fin g =>
          obtain rfl := Option.some.inj hf
          exact Jsonb.exactNumber_float hx
      | _ => cases hf
  | _ =>
      rw [hx] at hf
      cases hf

theorem readDocument_keepsTimestamps : KeepsTimestamps readDocument := by
  intro s doc kvs r hdoc hkvs hr
  have hget : ∀ {k v x}, dictGet s.toDict k = some v → Jsonb.ofPy v = some x → doc.get? k = some x :=
    Jsonb.get?_of_ofPy (RelationshipStateV1.isJson_toDict s) hdoc
  have htime : doc.get? (py "timestamp") = some (.num (.ofFloat s.timestamp.val)) := hget rfl rfl
  have hversion : doc.get? (py "schema_version") = some (.num ⟨1, 0⟩) := hget rfl rfl
  cases doc with
  | obj items =>
      obtain rfl : Jsonb.loadItems Jsonb.exactNumber items = kvs := Option.some.inj hkvs
      have htime' : dictGet (Jsonb.loadItems Jsonb.exactNumber items) (py "timestamp") =
          some (Jsonb.exactNumber (.ofFloat s.timestamp.val)) := by
        rw [Jsonb.dictGet_loadItems, htime, Option.map_some, Jsonb.load]
      have hversion' : dictGet (Jsonb.loadItems Jsonb.exactNumber items) (py "schema_version") =
          some (Jsonb.exactNumber ⟨1, 0⟩) := by
        rw [Jsonb.dictGet_loadItems, hversion, Option.map_some, Jsonb.load]
      simp only [migrateLegacyRelationshipSnapshot, hversion', Option.bind_eq_bind] at hr
      split at hr
      · cases hr
      · split at hr
        · cases hr
        · obtain ⟨_, -, hr⟩ := Option.bind_eq_some_iff.mp hr
          rw [value_of_exactNumber (RelationshipStateV1.timestamp_of_fromDict hr htime'), Numeric.value_ofFloat]
  | _ => cases htime

/-- The slot of a step that belongs to a turn. -/
def BackendMove.slot : BackendMove → Option Nat
  | .begin n _ | .readClock n | .loadState n | .loadContext n | .appraise n _ | .transition n | .generate n _ |
    .commit n _ _ _ | .fail n => some n
  | _ => none

/-- A turn moves by its own steps only. -/
theorem turns_step_of_ne {s : Backend} {m : BackendMove} {n : Nat} (h : m.slot ≠ some n) :
    (s.step sha256 decode dyn m).turns n = s.turns n := by
  have hset : ∀ {s' : Backend} {k : Nat} {turn : Turn}, some k ≠ some n → (s'.setTurn k turn).turns n = s'.turns n :=
    fun hk => Function.update_of_ne (fun he => hk (by rw [he])) _ _
  cases m <;> simp only [BackendMove.slot] at h <;> simp only [Backend.step] <;> (try split) <;>
    first
      | rfl
      | exact hset h
      | (split <;> exact hset h)

/-- The user resets the relationship when the turn has loaded it, so the commit finds another revision;
the second attempt commits. -/
def quietMoves : List BackendMove :=
  [.begin 0 sampleUser, .readClock 0, .loadState 0, .tick lateTime,
    .request 0 .resetRelationshipState sampleUser sampleOperation.text, .apply 0 0, .loadContext 0,
    .appraise 0 .neutral, .transition 0, .generate 0 (py "hello"), .commit 0 sampleTimes (sampleIds 1) (sampleArgs 1),
    .readClock 0, .loadState 0, .loadContext 0, .appraise 0 .neutral, .transition 0, .generate 0 (py "hello"),
    .commit 0 sampleTimes (sampleIds 1) (sampleArgs 1)]

def quietEvents : List (Event (backendStep resetSha256 readDocument stillDynamics)) := trace _ quietMoves overtakenStart

def Stage.isTimed : Stage → Bool
  | .timed _ => true
  | _ => false

theorem quiet_not_overtaken : ∀ e ∈ quietEvents, ¬ Overtakes e := by
  rintro e he ⟨user, time, n, currentTime, hwrite, -, -, htimed, -⟩
  by_cases hn : n = 0
  · subst hn
    have hnone : quietEvents.all (fun e => (e.before.writeTime e.input).isNone || !(e.before.turns 0).stage.isTimed) =
        true := by decide +kernel
    have hsilent := List.all_eq_true.mp hnone e he
    rw [hwrite, htimed] at hsilent
    cases hsilent
  · -- no other slot is ever used
    obtain ⟨s', hrun⟩ := Run.ofInputs quietMoves overtakenStart
    have hidle := (hrun.invariant (P := fun s => (s.turns n).stage = .finished .committed) rfl fun e he h => by
      have hslot : quietMoves.all (fun m => m.slot.getD 0 = 0) = true := by decide +kernel
      have hzero := of_decide_eq_true (List.all_eq_true.mp hslot _ (input_of_mem_trace he))
      have hother : e.input.slot ≠ some n := fun hs => hn (by rw [hs] at hzero; exact hzero)
      rw [after_eq e, turns_step_of_ne hother]
      exact h).2 e he
    rw [hidle.1] at htimed
    cases htimed

theorem quietStart_fresh : overtakenStart.Fresh readDocument where
  turns := fun _ => ⟨.committed, rfl, by decide⟩
  requests := fun _ => rfl
  past := overtakenStart_past (by decide +kernel)

theorem clock_regression_unreachable_quiet : overtakenStart.Fresh readDocument ∧
    (quietEvents.map fun e => e.after.db.revision sampleUser) = List.replicate 5 1 ++ List.replicate 12 2 ++ [3] ∧
    ∀ e ∈ quietEvents, ∀ n, (e.after.turns n).stage ≠ .finished .clockRegression := by
  obtain ⟨s', hrun⟩ := Run.ofInputs quietMoves overtakenStart
  exact ⟨quietStart_fresh, by decide +kernel,
    (clock_regression_unreachable readDocument_keepsTimestamps hrun quietStart_fresh quiet_not_overtaken).2.1⟩

end Katherine.Cloud
