import Katherine.Runtime.Turns

/-!
# No lost update

A turn loads the stored snapshots, computes new ones from them while provider calls
go on, and commits with the revision it loaded. Whatever happens in between, a
commit that writes finds the snapshots it was computed from: every writer of the
profile raises the revision, so a turn whose revision is still current loaded what is
stored (`LoadInv`).

`Chain` is what the profile is, in its own terms: a sequence of snapshots that starts
with none, in which each one is the transition of the one before or a reset of it.
-/

namespace Katherine.Runtime

open Py Sql Local

/-! ## The commit of a turn -/

/-- What a turn has from its provider calls and from the presentation layer. -/
structure TurnOutput where
  response : PyStr
  /-- `public_emotion.model_dump()`. -/
  emotionState : List (PyKey × PyVal)
  json : isJsonItems emotionState = true
  /-- `_new_message_id()`. -/
  messageId : PyStr
  durationMs : Nat

/-- The replay payload of `_execute_reserved_turn`. -/
def TurnOutput.replayPayload (out : TurnOutput) : List (PyKey × PyVal) :=
  [(.str (py "response"), .str out.response), (.str (py "emotion_state"), .dict out.emotionState),
    (.str (py "message_id"), .str out.messageId), (.str (py "duration_ms"), .int out.durationMs)]

/-- The arguments `_execute_reserved_turn` builds from the snapshots it computed, besides the
turn's id and generation. -/
def turnArgs (state : LoadedUserState) (new : EmotionalStateV1 × RelationshipStateV1)
    (message : PyStr) (out : TurnOutput) : CommitArgs where
  requestId := .none
  historyGeneration := .none
  userMessage := .str message
  assistantMessage := .str out.response
  emotionalState := .dict new.1.toDict
  relationshipState := .dict new.2.toDict
  publicResponse := .str out.response
  replayPayload := .dict out.replayPayload
  expectedRevision := .int state.revision

section

/- The transitions of both domains, after the legacy migration of what was loaded: a function of
the loaded snapshots and of the turn's own input, the appraisal and the time. Where it is `none`
the turn raises. -/
variable {ι : Type} (next : LoadedUserState → ι → Option (EmotionalStateV1 × RelationshipStateV1))

variable (sha256 : PyStr → PyStr)

/-- The interleavings in which every commit is the commit of a turn that loaded its state.
`ids` are the message ids spent so far: `_new_message_id` returns none of them again. -/
inductive TurnRun : List PyStr → World → Prop
  | init : TurnRun [] .init
  | step {ids : List PyStr} {w w' : World} {a : Action} (h : TurnRun ids w)
      (ha : ∀ i args, a ≠ .commit i args) (hstep : Step sha256 w a w') : TurnRun ids w'
  | commit {ids : List PyStr} {w w' : World} {i : Nat} {t : Turn} {state : LoadedUserState} {x : ι}
      {new : EmotionalStateV1 × RelationshipStateV1} {message : PyStr} {out : TurnOutput}
      (h : TurnRun ids w) (ht : w.turns[i]? = some t) (hloaded : t.phase = .loaded state)
      (hnext : next state x = some new) (hfresh : out.messageId ∉ ids)
      (hstep : Step sha256 w (.commit i (turnArgs state new message out)) w') :
      TurnRun (out.messageId :: ids) w'

end

variable {ι : Type} {next : LoadedUserState → ι → Option (EmotionalStateV1 × RelationshipStateV1)}
  {sha256 : PyStr → PyStr}

theorem TurnRun.reachable {ids : List PyStr} {w : World} (h : TurnRun next sha256 ids w) :
    w.Reachable sha256 := by
  induction h with
  | init => exact ⟨[], .nil⟩
  | step _ _ hstep ih =>
      obtain ⟨as, ih⟩ := ih
      exact ⟨_, ih.snoc hstep⟩
  | commit _ _ _ _ _ hstep ih =>
      obtain ⟨as, ih⟩ := ih
      exact ⟨_, ih.snoc hstep⟩

/-! ## What is stored -/

/-- `state` is what `load_user_state` reads from the profile, up to the columns a turn does not
use: the stored snapshots, or the neutral ones of revision 0 where there is no row. -/
def Loads (state : LoadedUserState) : Option Profile → Prop
  | none => state.revision = 0 ∧ ∃ t,
      state.emotionalState = (EmotionalStateV1.neutral t).toDict ∧
        state.relationshipState = (RelationshipStateV1.neutral t).toDict
  | some p => state.revision = p.revision ∧
      decodeDoc p.emotionalState = .ok state.emotionalState ∧
        decodeDoc p.relationshipState = .ok state.relationshipState

theorem loads_of_loadUserState {ck : Clock} {db : Db} {state : LoadedUserState}
    (h : loadUserState ck db = .ok state) : Loads state db.profile := by
  unfold loadUserState at h
  split at h
  · rename_i hnone
    cases h
    rw [hnone]
    exact ⟨rfl, ck.unix, rfl, rfl⟩
  · rename_i p hp
    simp only [bind_eq_ok] at h
    obtain ⟨userProfile, _, emotional, hemotional, relationship, hrelationship, h⟩ := h
    cases h
    rw [hp]
    exact ⟨rfl, hemotional, hrelationship⟩

theorem Loads.revision {state : LoadedUserState} {db : Db} (h : Loads state db.profile) :
    state.revision = db.revision := by
  unfold Db.revision
  cases hp : db.profile with
  | none =>
      rw [hp] at h
      exact h.1
  | some p =>
      rw [hp] at h
      exact h.1

/-- The profile stores these two states. -/
structure Stores (p : Profile) (emotional : EmotionalStateV1)
    (relationship : RelationshipStateV1) : Prop where
  emotional : ∃ doc, decodeDoc p.emotionalState = .ok doc ∧
    EmotionalStateV1.fromDict doc = some emotional
  relationship : ∃ doc, decodeDoc p.relationshipState = .ok doc ∧
    RelationshipStateV1.fromDict doc = some relationship

/-- **The history of the profile**: each snapshot is the transition of the one stored before it,
or a reset of one of its halves, and each raises the revision by one. -/
inductive Chain (next : LoadedUserState → ι → Option (EmotionalStateV1 × RelationshipStateV1)) :
    Option Profile → Prop
  | absent : Chain next none
  | turn {old : Option Profile} {p : Profile} {state : LoadedUserState} {x : ι}
      {new : EmotionalStateV1 × RelationshipStateV1} (h : Chain next old)
      (hloads : Loads state old) (hrevision : p.revision = state.revision + 1)
      (hnext : next state x = some new) (hstores : Stores p new.1 new.2) : Chain next (some p)
  | reset {old : Option Profile} {field : StateField} {text otherText now later : PyStr}
      {t t' : PosFloat} {n : Nat} (h : Chain next old) (htext : field.neutralText t = .ok text)
      (hother : field.other.neutralText t' = .ok otherText)
      (hn : n = ((old.map (·.revision)).getD 0) + 1) :
      Chain next (some (resetProfile old field text otherText n now later))

/-! ## Who writes the profile -/

/-- A document that was written decodes to itself, keys in order. -/
theorem decodeDoc_jsonDumps {kvs : List (PyKey × PyVal)} {text : PyStr}
    (hjson : isJsonItems kvs = true) (h : jsonDumps (.dict kvs) = .ok text) :
    decodeDoc text = .ok (sortItems (canonItems kvs)) := by
  have hload := loads_dumpsCompact_json (v := .dict kvs) hjson (orRaise_eq_ok.mp h)
  have hne : text ≠ [] := by
    rintro rfl
    cases hload
  rw [decodeDoc, if_neg hne, hload]
  rfl

theorem stores_committedProfile {old : Option Profile} {emotional : EmotionalStateV1}
    {relationship : RelationshipStateV1} {text text' now : PyStr} {n : Nat}
    (h : jsonDumps (.dict emotional.toDict) = .ok text)
    (h' : jsonDumps (.dict relationship.toDict) = .ok text') :
    Stores (committedProfile old text text' n now) emotional relationship :=
  ⟨⟨_, decodeDoc_jsonDumps emotional.isJson_toDict h, emotional.fromDict_canon_toDict⟩,
    ⟨_, decodeDoc_jsonDumps relationship.isJson_toDict h', relationship.fromDict_canon_toDict⟩⟩

/-- The commit of a turn that loaded `state` writes what is computed from it, if `state` is
current. -/
theorem commit_writes {db db' : Db} {t : Turn} {state : LoadedUserState}
    {new : EmotionalStateV1 × RelationshipStateV1} {message : PyStr} {out : TurnOutput}
    {reply : Reply} (hc : Change sha256 db (t.commitCall (turnArgs state new message out)) reply db') :
    state.revision = db.revision ∧ ∃ p, db'.profile = some p ∧ p.revision = db.revision + 1 ∧
      Stores p new.1 new.2 := by
  unfold Turn.commitCall at hc
  cases hc with
  | @commit a c row y outbox hinput _ _ _ _ hrevision hemotional hrelationship _ _ =>
      obtain ⟨hacc, _⟩ := (commitInput_eq_ok sha256).mp hinput
      have h1 := PyVal.dict.inj (validateSnapshot_items hacc.emotionalState).1
      have h2 := PyVal.dict.inj (validateSnapshot_items hacc.relationshipState).1
      rw [← h1] at hemotional
      rw [← h2] at hrelationship
      have hexpected : c.expectedRevision = some state.revision :=
        (Except.ok.inj hacc.expectedRevision).symm
      rw [hexpected] at hrevision
      exact ⟨hrevision, _, rfl, rfl, stores_committedProfile hemotional hrelationship⟩

/-- Any other call keeps the profile, or resets it. -/
theorem other_profile {db db' : Db} {call : Call} {reply : Reply}
    (hc : Change sha256 db call reply db') (hcall : ∀ a, call ≠ .commitTurn a) :
    db'.profile = db.profile ∨ ∃ field text otherText now later t t',
      StateField.neutralText field t = .ok text ∧
      (StateField.other field).neutralText t' = .ok otherText ∧
      db'.profile = some (resetProfile db.profile field text otherText (db.revision + 1) now
        later) := by
  cases hc with
  | commit => exact absurd rfl (hcall _)
  | reset htext hother => exact .inr ⟨_, _, _, _, _, _, _, htext, hother, rfl⟩
  | importFixture himports => exact .inl himports.profile
  | _ => exact .inl rfl

theorem revision_of_profile {db db' : Db} (h : db'.profile = db.profile) :
    db'.revision = db.revision := by
  rw [Db.revision, Db.revision, h]

/-! ## The invariant -/

/-- What a turn has loaded is stored, or is of an earlier revision. -/
structure LoadInv (w : World) : Prop where
  loaded : ∀ t ∈ w.turns, ∀ state, t.phase = .loaded state →
    state.revision < w.store.db.revision ∨ Loads state w.store.db.profile

/-- The profile as a step leaves it: the same, or another one with a higher revision. -/
def Advances (db db' : Db) : Prop := db'.profile = db.profile ∨ db.revision < db'.revision

theorem advances_change {db db' : Db} {call : Call} {reply : Reply}
    (hc : Change sha256 db call reply db') : Advances db db' := by
  by_cases hcall : ∃ a, call = .commitTurn a
  · obtain ⟨a, rfl⟩ := hcall
    cases hc with
    | commit => exact .inr (Nat.lt_succ_self _)
  · rcases other_profile hc fun a ha => hcall ⟨a, ha⟩ with
      hsame | ⟨_, _, _, _, _, _, _, _, _, hp⟩
    · exact .inl hsame
    · refine .inr ?_
      rw [show db'.revision = db.revision + 1 by
        rw [Db.revision, hp, Option.map_some, Option.getD_some, revision_resetProfile]]
      exact Nat.lt_succ_self _

theorem Step.advances {w w' : World} {a : Action} (h : Step sha256 w a w') :
    Advances w.store.db w'.store.db := by
  rcases h.store with hs | ⟨e, hb, ha⟩
  · rw [hs]
    exact .inl rfl
  · rw [← hb, ← ha]
    rcases e.change with hdb | ⟨_, _, hc⟩
    · rw [hdb]
      exact .inl rfl
    · exact advances_change hc

theorem Loads.advance {state : LoadedUserState} {db db' : Db} (hadv : Advances db db')
    (h : state.revision < db.revision ∨ Loads state db.profile) :
    state.revision < db'.revision ∨ Loads state db'.profile := by
  rcases hadv with hsame | hlt
  · rw [revision_of_profile hsame, hsame]
    exact h
  · refine .inl ?_
    rcases h with h | h
    · omega
    · have := h.revision
      omega

/-- The turns a step leaves were there before in the same phase, unless they just loaded. -/
theorem Step.loaded {w w' : World} {a : Action} (h : Step sha256 w a w') {t : Turn}
    (ht : t ∈ w'.turns) {state : LoadedUserState} (hphase : t.phase = .loaded state) :
    (∃ t₀ ∈ w.turns, t₀.phase = .loaded state) ∨
      (w'.store = w.store ∧ ∃ env : Env,
        loadUserState env.clock (w.store.view env.thread) = .ok state) := by
  have hmove : ∀ {i : Nat} {u : Turn} {turns : List Turn}, (∀ st, u.phase ≠ .loaded st) →
      t ∈ turns.set i u → t ∈ turns := by
    intro i u turns hu hmem
    rcases List.mem_or_eq_of_mem_set hmem with hmem | rfl
    · exact hmem
    · exact absurd hphase (hu state)
  cases h with
  | reserve _ _ =>
      rcases List.mem_append.mp ht with ht | ht
      · exact .inl ⟨t, ht, hphase⟩
      · obtain rfl := List.mem_singleton.mp ht
        cases hphase
  | @load env i t' state' ht' _ hload =>
      rcases List.mem_or_eq_of_mem_set ht with hmem | rfl
      · exact .inl ⟨t, hmem, hphase⟩
      · cases hphase
        exact .inr ⟨rfl, env, hload⟩
  | @commit env i t' args r s ht' _ _ _ =>
      refine .inl ⟨t, hmove ?_ ht, hphase⟩
      intro st
      cases r <;> simp [Turn.to, Except.isOk, Except.toBool]
  | commitClosed _ _ _ => exact .inl ⟨t, hmove (by simp [Turn.to]) ht, hphase⟩
  | fail _ _ => exact .inl ⟨t, hmove (by simp [Turn.to]) ht, hphase⟩
  | release _ _ _ _ => exact .inl ⟨t, hmove (by simp [Turn.to]) ht, hphase⟩
  | releaseClosed _ _ _ => exact .inl ⟨t, hmove (by simp [Turn.to]) ht, hphase⟩
  | _ => exact .inl ⟨t, ht, hphase⟩

theorem loadInv_step {w w' : World} {a : Action} (hstep : Step sha256 w a w')
    (hw : w.Reachable sha256) (h : LoadInv w) : LoadInv w' := by
  refine ⟨fun t ht state hphase => ?_⟩
  rcases hstep.loaded ht hphase with ⟨t₀, ht₀, hphase₀⟩ | ⟨hs, env, hload⟩
  · exact Loads.advance hstep.advances (h.loaded t₀ ht₀ state hphase₀)
  · -- a connection inside a transaction that was left open sees the stored profile too
    obtain ⟨es, hrun⟩ := hw.store
    have hshows := (hrun.shows rfl env.thread).profile
    have hloads := loads_of_loadUserState hload
    rw [hshows] at hloads
    rw [hs]
    exact .inr hloads

theorem loadInv_reachable {w : World} (h : w.Reachable sha256) : LoadInv w := by
  obtain ⟨as, h⟩ := h
  induction h with
  | nil => exact ⟨by simp [World.init]⟩
  | snoc hsteps hstep ih => exact loadInv_step hstep ⟨_, hsteps⟩ ih

/-! ## Digests in the ledger

A turn commits a payload that holds its own message id, so no completed row carries
the digest of a turn that has yet to commit. -/

/-- The digest of an imported turn, or of a commit with one of the spent message ids. -/
def Spent (sha256 : PyStr → PyStr) (ids : List PyStr) (hash : PyStr) : Prop :=
  (∃ c : CommitInput, c.Json ∧
    canonicalPayloadHash sha256 (buildCanonicalCommitPayload c) = .ok hash ∧
    ∃ m ∈ ids, dictGet c.replayPayload (py "message_id") = some (.str m)) ∨
  ∃ t : LegacyTurn, legacyHash sha256 t = .ok hash

def DigestInv (sha256 : PyStr → PyStr) (ids : List PyStr) (db : Db) : Prop :=
  ∀ row ∈ db.turnRequests.rows, row.status = .completed → Spent sha256 ids row.payloadHash

theorem Imports.digests {ids : List PyStr} {db db' : Db} (hi : Imports sha256 db db')
    (h : DigestInv sha256 ids db) : DigestInv sha256 ids db' := by
  induction hi with
  | refl => exact h
  | step _ hhash _ ih =>
      refine ih fun row hrow hs => ?_
      rcases Table.mem_insertNew.mp hrow with hrow | ⟨rfl, _⟩
      · exact h row hrow hs
      · exact .inr ⟨_, hhash⟩

theorem digestInv_change {ids : List PyStr} {db db' : Db} {call : Call} {reply : Reply}
    (hc : Change sha256 db call reply db') (h : DigestInv sha256 ids db)
    (hcommit : ∀ a c hash, call = .commitTurn a → commitInput sha256 a = .ok (c, hash) →
      Spent sha256 ids hash) : DigestInv sha256 ids db' := by
  have hsubset : ∀ {d : Db}, (∀ r ∈ d.turnRequests.rows, r ∈ db.turnRequests.rows) →
      DigestInv sha256 ids d := fun hsub r hr => h r (hsub r hr)
  cases hc with
  | reserve _ _ =>
      intro row hrow hs
      rcases Table.mem_insertNew.mp hrow with hrow | ⟨rfl, _⟩
      · exact h row hrow hs
      · cases hs
  | commit hinput _ _ _ _ _ _ _ _ _ =>
      intro row hrow hs
      rcases Table.mem_put.mp hrow with rfl | hrow
      · exact hcommit _ _ _ rfl hinput
      · exact h row hrow.1 hs
  | release _ _ => exact hsubset fun r hr => List.mem_of_mem_filter hr
  | deleteHistory =>
      intro row hrow
      have hrow' : row ∈ db.clearHistory.turnRequests.rows := hrow
      rw [(clearHistory_empty db).2] at hrow'
      cases hrow'
  | trim _ => exact hsubset fun r hr => List.mem_of_mem_filter hr
  | importFixture himports => exact Imports.digests himports h
  | @recover now =>
      intro y hy hs
      obtain ⟨x, hx, rfl⟩ : ∃ x ∈ db.turnRequests.rows, failInterrupted now x = y := by
        simpa [Db.recover] using hy
      have hx' : x.status ≠ .pending := by
        intro hp
        simp [failInterrupted, hp] at hs
      simp only [failInterrupted, if_neg hx'] at hs ⊢
      exact h x hx hs
  | _ => exact hsubset fun r hr => hr

/-- What `commit_turn` makes of a turn's arguments. -/
theorem turnArgs_input {t : Turn} {state : LoadedUserState}
    {new : EmotionalStateV1 × RelationshipStateV1} {message : PyStr}
    {out : TurnOutput} {a : CommitArgs} {c : CommitInput} {hash : PyStr}
    (ha : t.commitCall (turnArgs state new message out) = .commitTurn a)
    (h : commitInput sha256 a = .ok (c, hash)) :
    c.Json ∧ c.requestId = t.requestId ∧ c.historyGeneration = t.generation ∧
      c.expectedRevision = some state.revision ∧ c.replayPayload = out.replayPayload ∧
      canonicalPayloadHash sha256 (buildCanonicalCommitPayload c) = .ok hash := by
  injection ha with ha
  subst ha
  obtain ⟨hacc, hhash⟩ := (commitInput_eq_ok sha256).mp h
  have h1 := PyVal.dict.inj (validateSnapshot_items hacc.emotionalState).1
  have h2 := PyVal.dict.inj (validateSnapshot_items hacc.relationshipState).1
  have h3 := PyVal.dict.inj (validateReplayPayload_items hacc.replayPayload)
  have h4 : c.outboxEvents = [] := (Except.ok.inj hacc.outboxEvents).symm
  have hreplay : isJsonItems out.replayPayload = true := by
    simp only [TurnOutput.replayPayload, isJsonItems, isJson, out.json]
    rfl
  refine ⟨⟨?_, ?_, ?_, by simp [h4]⟩, ?_, validateHistoryGeneration_nat hacc.historyGeneration,
    (Except.ok.inj hacc.expectedRevision).symm, h3.symm, hhash⟩
  · rw [← h1]
    exact new.1.isJson_toDict
  · rw [← h2]
    exact new.2.isJson_toDict
  · rw [← h3]
    exact hreplay
  · have := validateRequestId_str hacc.requestId
    simpa using this.symm

theorem Spent.mono {ids ids' : List PyStr} {hash : PyStr} (h : Spent sha256 ids hash)
    (hsub : ∀ m ∈ ids, m ∈ ids') : Spent sha256 ids' hash := by
  rcases h with ⟨c, hj, hh, m, hm, hget⟩ | h
  · exact .inl ⟨c, hj, hh, m, hsub m hm, hget⟩
  · exact .inr h

theorem digestInv_step {ids : List PyStr} {w w' : World} {a : Action} (hstep : Step sha256 w a w')
    (h : DigestInv sha256 ids w.store.db)
    (hcommit : ∀ i args t a' c hash, a = .commit i args → w.turns[i]? = some t →
      t.commitCall args = .commitTurn a' → commitInput sha256 a' = .ok (c, hash) →
      Spent sha256 ids hash) : DigestInv sha256 ids w'.store.db := by
  have hkeep : ∀ {env call r s}, exec sha256 env call w.store = (r, s) →
      (∀ a' c hash, call = .commitTurn a' → commitInput sha256 a' = .ok (c, hash) →
        Spent sha256 ids hash) → DigestInv sha256 ids s.db := by
    intro env call r s hexec hcall
    rcases exec_change sha256 hexec with hdb | ⟨_, _, hc⟩
    · rw [hdb]
      exact h
    · exact digestInv_change hc h hcall
  cases hstep with
  | reserve _ hexec => exact hkeep hexec (by simp)
  | refuse hexec _ => exact hkeep hexec (by simp)
  | commit ht _ _ hexec => exact hkeep hexec fun a' c hash ha => hcommit _ _ _ a' c hash rfl ht ha
  | release _ _ _ hexec => exact hkeep hexec (by simp [Turn.releaseCall])
  | other hcall hexec =>
      refine hkeep hexec fun a' c hash ha => ?_
      subst ha
      cases hcall
  | reopen hexec => exact hkeep hexec (by simp)
  | _ => exact h

theorem digestInv_turnRun {ids : List PyStr} {w : World} (h : TurnRun next sha256 ids w) :
    DigestInv sha256 ids w.store.db := by
  induction h with
  | init =>
      intro row hrow
      cases hrow
  | step _ ha hstep ih =>
      exact digestInv_step hstep ih fun i args _ _ _ _ heq => absurd heq (ha i args)
  | @commit ids w w' i t state x new message out _ _ _ _ _ hstep ih =>
      refine digestInv_step hstep (fun row hrow hs => (ih row hrow hs).mono (by simp_all)) ?_
      intro i' args t' a' c hash heq _ hcall hinput
      cases heq
      obtain ⟨hjson, _, _, _, hreplay, hhash⟩ := turnArgs_input hcall hinput
      refine .inl ⟨c, hjson, hhash, out.messageId, by simp, ?_⟩
      rw [hreplay]
      rfl

/-- The texts the importer digests. -/
def legacyTexts : Set PyStr := Set.range legacyText

/-- No canonical payload has the text of an imported turn. -/
theorem legacyText_ne {t : LegacyTurn} {c : CommitInput} {text : PyStr} (h : c.Json)
    (htext : dumpsCompact false (buildCanonicalCommitPayload c) = some text) :
    legacyText t ≠ text := by
  intro heq
  have h1 := loads_dumpsCompact_json h.payload htext
  have h2 : loads (legacyText t) = some (.dict [(.str (py "assistant_message"),
      .str t.assistantMessage), (.str (py "request_id"), .str t.requestId),
      (.str (py "user_message"), .str t.userMessage)]) := by
    unfold legacyText
    rw [loads_render rfl rfl, decoded_of_json rfl]
  rw [heq, h1] at h2
  have h3 := PyVal.dict.inj (Option.some.inj h2)
  have h4 := dictGet_canon h.payload (py "expected_revision")
  rw [h3] at h4
  have h5 : none = some (revisionDoc c.expectedRevision).canon := h4
  cases h5

/-- **A turn that has yet to commit has a digest of its own.** -/
theorem not_spent {ids : List PyStr} {t : Turn} {state : LoadedUserState}
    {new : EmotionalStateV1 × RelationshipStateV1} {message : PyStr}
    {out : TurnOutput} {a : CommitArgs} {c : CommitInput} {hash : PyStr}
    (hsha : Set.InjOn sha256 (canonicalTexts ∪ legacyTexts)) (hfresh : out.messageId ∉ ids)
    (ha : t.commitCall (turnArgs state new message out) = .commitTurn a)
    (h : commitInput sha256 a = .ok (c, hash)) : ¬ Spent sha256 ids hash := by
  obtain ⟨hjson, _, _, _, hreplay, hhash⟩ := turnArgs_input ha h
  rintro (⟨c', hjson', hhash', m, hm, hget⟩ | ⟨t', hhash'⟩)
  · have hagrees := (hash_eq_iff (hsha.mono Set.subset_union_left) hjson hjson' hhash hhash').mp rfl
    have hmessage := canon_lookup hjson.replayPayload hjson'.replayPayload hagrees.replayPayload
      (py "message_id")
    rw [hget, hreplay] at hmessage
    have hsame : some (PyVal.str out.messageId) = some (PyVal.str m) := hmessage
    simp only [Option.some.injEq, PyVal.str.injEq] at hsame
    exact hfresh (hsame ▸ hm)
  · simp only [canonicalPayloadHash, canonicalJson, bind_eq_ok, orRaise_eq_ok] at hhash
    obtain ⟨text, htext, _, _, hhash⟩ := hhash
    simp only [legacyHash, bind_eq_ok] at hhash'
    obtain ⟨_, _, hhash'⟩ := hhash'
    have heq : sha256 (legacyText t') = sha256 text :=
      (Except.ok.inj hhash').trans (Except.ok.inj hhash).symm
    exact legacyText_ne hjson htext (hsha (.inr ⟨t', rfl⟩) (.inl ⟨_, htext⟩) heq)

/-! ## A commit that is too late -/

/-- The conflicts that are not a revision mismatch: the reservation or the payload. -/
def isReservationConflict : ErrorCode → Bool
  | .requestReservationInvalidated => true
  | .requestReplayUnavailable => true
  | .requestPayloadConflict => true
  | _ => false

/-- **A commit that expects another revision raises**, and leaves the store as it was: a
revision mismatch where its reservation is intact, else a conflict about the reservation or the
payload. -/
theorem commit_stale {env : Env} {a : CommitArgs} {c : CommitInput} {hash : PyStr} {n : Nat}
    {s : LocalStore} (hinput : commitInput sha256 a = .ok (c, hash))
    (hexpected : c.expectedRevision = some n) (hstale : n ≠ s.db.revision) (hidle : s.tx = none)
    (hfault : env.fault = .none)
    (hfresh : ∀ row, s.db.turnRequests.get? c.requestId = some row → row.status = .completed →
      row.payloadHash ≠ hash) :
    ∃ code message actual, exec sha256 env (.commitTurn a) s
        = (.error (.conflict code message n actual c.requestId), s) ∧
      ((code = .revisionMismatch ∧ actual = some s.db.revision) ∨
        isReservationConflict code = true) := by
  have hview : s.view env.thread = s.db := by
    simp [Store.view, hidle]
  have hs : (⟨s.db, none⟩ : LocalStore) = s := by
    rw [← hidle]
  have hread : env.fault ≠ .read := by
    rw [hfault]
    decide
  simp only [exec, commitTurn, hinput, if_neg hread, hview]
  cases hrow : s.db.turnRequests.get? c.requestId with
  | none =>
      refine ⟨.requestReservationInvalidated, "Request reservation is no longer valid.", none, ?_,
        .inr rfl⟩
      simp [Block.run, hidle, hfault, commitBlock, hrow, hs, CommitInput.conflict, hexpected,
        Except.map]
  | some row =>
      simp only
      cases hstatus : row.status with
      | completed =>
          refine ⟨.requestPayloadConflict,
            "Request id was already completed with a different payload.", none, ?_, .inr rfl⟩
          simp [hfresh row hrow hstatus, CommitInput.conflict, hexpected, Except.map]
      | failed =>
          refine ⟨.requestReplayUnavailable, "Request cannot be replayed or recommitted.", none, ?_,
            .inr rfl⟩
          simp [CommitInput.conflict, hexpected, Except.map]
      | pending =>
          by_cases hheld : s.db.historyGeneration ≠ c.historyGeneration
              ∨ row.payloadHash ≠ reservationMarker c.historyGeneration
          · refine ⟨.requestReservationInvalidated, "Request reservation is no longer valid.", none,
              ?_, .inr rfl⟩
            simp [Block.run, hidle, hfault, commitBlock, hrow, hstatus, hheld, hs,
              CommitInput.conflict, hexpected, Except.map]
          · refine ⟨.revisionMismatch, "Profile revision changed concurrently.",
              some s.db.revision, ?_, .inl ⟨rfl, rfl⟩⟩
            simp [Block.run, hidle, hfault, commitBlock, hrow, hstatus, hheld, hs, hexpected,
              hstale, Block.leave, catchAll, Except.map]

/-! ## The chain -/

/-- A step moves the profile by a reset, by the commit of a turn, or not at all. -/
theorem Step.profile {w w' : World} {a : Action} (h : Step sha256 w a w') :
    w'.store.db.profile = w.store.db.profile ∨
    (∃ field text otherText now later t t', StateField.neutralText field t = .ok text ∧
      (StateField.other field).neutralText t' = .ok otherText ∧
      w'.store.db.profile = some (resetProfile w.store.db.profile field text otherText
        (w.store.db.revision + 1) now later)) ∨
    ∃ i args t reply, a = .commit i args ∧ w.turns[i]? = some t ∧
      Change sha256 w.store.db (t.commitCall args) reply w'.store.db := by
  have hother : ∀ {env call r s}, exec sha256 env call w.store = (r, s) →
      (∀ a, call ≠ .commitTurn a) → s.db.profile = w.store.db.profile ∨
        ∃ field text otherText now later t t', StateField.neutralText field t = .ok text ∧
          (StateField.other field).neutralText t' = .ok otherText ∧
          s.db.profile = some (resetProfile w.store.db.profile field text otherText
            (w.store.db.revision + 1) now later) := by
    intro env call r s hexec hcall
    rcases exec_change sha256 hexec with hdb | ⟨_, _, hc⟩
    · exact .inl (congrArg Db.profile hdb)
    · exact other_profile hc hcall
  cases h with
  | reserve _ hexec => exact (hother hexec (by simp)).imp_right .inl
  | refuse hexec _ => exact (hother hexec (by simp)).imp_right .inl
  | commit ht _ _ hexec =>
      rcases exec_change sha256 hexec with hdb | ⟨reply, _, hc⟩
      · exact .inl (congrArg Db.profile hdb)
      · exact .inr (.inr ⟨_, _, _, reply, rfl, ht, hc⟩)
  | release _ _ _ hexec => exact (hother hexec (by simp [Turn.releaseCall])).imp_right .inl
  | other hcall hexec =>
      refine (hother hexec fun a ha => ?_).imp_right .inl
      subst ha
      cases hcall
  | reopen hexec => exact (hother hexec (by simp)).imp_right .inl
  | _ => exact .inl rfl

theorem chain_turnRun {ids : List PyStr} {w : World} (h : TurnRun next sha256 ids w) :
    Chain next w.store.db.profile := by
  induction h with
  | init => exact .absent
  | step _ ha hstep ih =>
      rcases hstep.profile with hsame | ⟨_, _, _, _, _, _, _, htext, hother, hp⟩ |
        ⟨i, args, _, _, heq, _⟩
      · rw [hsame]
        exact ih
      · rw [hp]
        exact .reset ih htext hother rfl
      · exact absurd heq (ha i args)
  | commit hrun ht hloaded hnext _ hstep ih =>
      rcases hstep.profile with hsame | ⟨_, _, _, _, _, _, _, htext, hother, hp⟩ |
        ⟨i, args, t, reply, heq, ht', hc⟩
      · rw [hsame]
        exact ih
      · rw [hp]
        exact .reset ih htext hother rfl
      · cases heq
        rw [ht] at ht'
        cases ht'
        obtain ⟨hrevision, p, hp, hprevision, hstores⟩ := commit_writes hc
        rcases (loadInv_reachable hrun.reachable).loaded _ (List.mem_of_getElem? ht) _ hloaded with
          hlt | hloads
        · omega
        · rw [hp]
          exact .turn ih hloads (by rw [hprevision, hrevision]) hnext hstores

/-- **No lost update.** In every interleaving of turns that commit with the revision they loaded,
resets and other operations:

* a commit that succeeds for the first time finds stored what its turn loaded (or no profile, and
  the turn loaded the neutral state of revision 0), and stores the transition of it under the next
  revision;
* a commit whose loaded revision is no longer current changes no table, and if its arguments are
  accepted and the driver does not fail it raises a revision mismatch, or a conflict about its
  reservation or its payload;
* so the stored snapshots are a chain in which each one a turn wrote is the transition of the one
  stored before it. -/
theorem no_lost_update {ids : List PyStr} {w : World} (h : TurnRun next sha256 ids w) :
    (∀ (i : Nat) t state new message out (e : Event sha256) res, w.turns[i]? = some t →
      t.phase = .loaded state → e.before = w.store →
      e.call = t.commitCall (turnArgs state new message out) → e.firstCommit = some res →
      Loads state w.store.db.profile ∧ state.revision = w.store.db.revision ∧
        ∃ p, e.after.db.profile = some p ∧ p.revision = state.revision + 1 ∧
          Stores p new.1 new.2) ∧
    (∀ (i : Nat) t state new message out env r s, w.turns[i]? = some t →
      t.phase = .loaded state → state.revision ≠ w.store.db.revision →
      exec sha256 env (t.commitCall (turnArgs state new message out)) w.store = (r, s) →
      s.db = w.store.db ∧
      (Set.InjOn sha256 (canonicalTexts ∪ legacyTexts) → out.messageId ∉ ids →
        w.store.tx = none → env.fault = .none →
        (∃ a input, t.commitCall (turnArgs state new message out) = .commitTurn a ∧
          commitInput sha256 a = .ok input) →
        ∃ code text actual,
          r = .error (.conflict code text state.revision actual t.requestId) ∧
          ((code = .revisionMismatch ∧ actual = some w.store.db.revision) ∨
            isReservationConflict code = true))) ∧
    Chain next w.store.db.profile := by
  refine ⟨?_, ?_, chain_turnRun h⟩
  · intro i t state new message out e res ht hloaded hbefore hcall hfirst
    have hrev := e.revision_eq
    rw [hfirst] at hrev
    rcases e.change with hdb | ⟨reply, _, hc⟩
    · rw [hdb] at hrev
      simp only [Option.elim_some] at hrev
      omega
    · rw [hcall, hbefore] at hc
      obtain ⟨hrevision, p, hp, hprevision, hstores⟩ := commit_writes hc
      rcases (loadInv_reachable h.reachable).loaded t (List.mem_of_getElem? ht) state hloaded with
        hlt | hloads
      · omega
      · exact ⟨hloads, hrevision, p, hp, by rw [hprevision, hrevision], hstores⟩
  · intro i t state new message out env r s ht hloaded hstale hexec
    refine ⟨?_, ?_⟩
    · rcases exec_change sha256 hexec with hdb | ⟨reply, _, hc⟩
      · exact hdb
      · exact absurd (commit_writes hc).1 hstale
    · rintro hsha hfresh hidle hfault ⟨a, ⟨c, hash⟩, hcall, hinput⟩
      obtain ⟨_, hid, _, hexpected, _, _⟩ := turnArgs_input hcall hinput
      have hdigest := not_spent hsha hfresh hcall hinput
      have hnew : ∀ row, w.store.db.turnRequests.get? c.requestId = some row →
          row.status = .completed → row.payloadHash ≠ hash := by
        intro row hrow hs heq
        exact hdigest (heq ▸ digestInv_turnRun h row (Table.get?_mem hrow) hs)
      obtain ⟨code, text, actual, hx, hcode⟩ :=
        @commit_stale sha256 env a c hash _ w.store hinput hexpected hstale hidle hfault hnew
      rw [hcall, hx] at hexec
      cases hexec
      exact ⟨code, text, actual, by rw [hid], hcode⟩

/-! ## The first turn of a store -/

/-- A transition that leaves both domains neutral. -/
def neutralNext (_ : LoadedUserState) (_ : Unit) :
    Option (EmotionalStateV1 × RelationshipStateV1) :=
  some (.neutral sampleTime, .neutral sampleTime)

def sampleOutput : TurnOutput := ⟨py "ok", [], rfl, py "m1", 5⟩

/-- What the first turn loads: there is no profile yet. -/
def sampleState : LoadedUserState where
  revision := 0
  personaConfig := none
  userProfile := []
  emotionalState := (EmotionalStateV1.neutral sampleTime).toDict
  relationshipState := (RelationshipStateV1.neutral sampleTime).toDict

def sampleTurn : Turn := ⟨py "r1", 0, 0, .admitted⟩

/-- The world in which that turn was admitted. -/
def sampleAdmitted : World := ⟨(exec sampleSha256 sampleEnv sampleReserve.2 .init).2, 0, [sampleTurn]⟩

/-- The world in which it has loaded its state. -/
def sampleWorld : World := sampleAdmitted.move 0 (sampleTurn.to (.loaded sampleState))

theorem sampleWorld_run : TurnRun neutralNext sampleSha256 [] sampleWorld := by
  have hreserve : Step sampleSha256 .init (.reserve (.str (py "r1")) (.str (py "oi"))) sampleAdmitted :=
    @Step.reserve sampleSha256 .init sampleEnv _ _ (py "r1") 0 none _ rfl rfl
  have hload : Step sampleSha256 sampleAdmitted (.load 0) sampleWorld :=
    @Step.load sampleSha256 sampleAdmitted sampleEnv 0 sampleTurn sampleState rfl rfl rfl
  exact .step (.step .init (by simp) hreserve) (by simp) hload

/-- Its commit succeeds, finds no profile and stores the neutral states under revision 1. -/
theorem no_lost_update_first_turn : ∃ p,
    (exec sampleSha256 sampleEnv (.commitTurn sampleArgs) sampleWorld.store).2.db.profile = some p ∧
      p.revision = 1 ∧ Stores p (.neutral sampleTime) (.neutral sampleTime) := by
  let e := event sampleSha256 sampleEnv (.commitTurn sampleArgs) sampleWorld.store
  obtain ⟨res, hfirst⟩ : ∃ res, e.firstCommit = some res :=
    Option.isSome_iff_exists.mp (by decide +kernel)
  obtain ⟨_, _, p, hp, hrevision, hstores⟩ := (no_lost_update sampleWorld_run).1 0
    (sampleTurn.to (.loaded sampleState)) sampleState (.neutral sampleTime, .neutral sampleTime) (py "oi")
    sampleOutput e res rfl rfl rfl rfl
    hfirst
  exact ⟨p, hp, hrevision, hstores⟩

end Katherine.Runtime
