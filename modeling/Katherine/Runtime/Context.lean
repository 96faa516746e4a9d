import Katherine.Context
import Katherine.Runtime.Updates

/-!
# Loading the context of a turn

`_load_context` of `backend/companion_runtime.py`, and what it needs of the store. A
turn's messages are checked twice, by two modules that do not know of each other:
`commit_turn` takes any text that is not empty, while `LoadedContextData` and
`ChatMessage` refuse a text that is blank. Everything else the reader asks for holds of
every row a commit writes (`ContextInv`).

So the context of the next turn loads exactly if none of the messages in the window is
blank (`context_loads_iff`), and one blank message blocks every turn until it has left
the window.
-/

namespace Katherine.Runtime

open Py Sql Local Context

/-! ## The loader -/

/-- What a turn can raise before its commit. -/
inductive TurnErr
  | storage (e : Err)
  | context (e : ContextErr)

/-- `history_limit`, as the constructor of the runtime accepts it. -/
structure HistoryLimit where
  val : Nat
  ok : 1 ≤ val ∧ val ≤ 500

/-- `_HISTORY_CONTEXT_LIMIT`. -/
def HistoryLimit.default : HistoryLimit := ⟨10, by decide⟩

section

/- `float` of a text; `none` is a `ValueError`. -/
variable (floatOfText : PyStr → Option PyFloat)

/-- `float(v)`. Where it raises `TypeError` or `ValueError` the memory is dropped. -/
def floatOf : PyVal → Except ContextErr (Option PyFloat)
  | .float f => .ok (some f)
  | .int i =>
      match floatOfInt i with
      | some f => .ok (some (.fin f))
      | none => .error .overflow
  | .bool b => .ok (some (.fin (if b then ⟨py "1.0", isFloatRepr_one⟩ else ⟨py "0.0", isFloatRepr_zero⟩)))
  | .str s => .ok (floatOfText s)
  | _ => .ok none

/-- `_LocalContextMemory(content, metadata)`. -/
def localContextMemory (content : PyStr) (metadata : List (PyKey × PyVal)) :
    Except ContextErr (Option LocalContextMemory) := do
  let confidence ← floatOf floatOfText
    ((dictGet metadata (py "confidence")).getD (.float (.fin float03.val)))
  return confidence.map fun confidence =>
    { content
      sourceId := strOf ((dictGet metadata (py "source_id")).getD (.str []))
      provenance := strOf ((dictGet metadata (py "provenance")).getD (.str (py "legacy_profile")))
      epistemicStatus := strOf ((dictGet metadata (py "epistemic_status")).getD
        (.str (py "unknown")))
      confidence }

/-- `_load_local_memories`. -/
def loadLocalMemories (db : Db) : Except TurnErr (List LocalContextMemory) := do
  let rows ← (loadRecentMemories (.int 5) db).mapError .storage
  let memories ← (rows.mapM fun m => localContextMemory floatOfText m.1 m.2).mapError .context
  return memories.filterMap id

/-- `_load_context`, on the contents a connection sees. -/
def loadContext (limit : HistoryLimit) (state : LoadedUserState) (db : Db) :
    Except TurnErr LoadedContextData := do
  let historyRows ← (loadRecentHistory (.int limit.val) db).mapError .storage
  let memories ← loadLocalMemories floatOfText db
  (LoadedContextData.create historyRows memories state.userProfile
    (state.personaConfig.getD [])).mapError .context

/-- The steps of a turn from its state to its bundle, around the provider's appraisal. -/
def prepareContext (limit : HistoryLimit) (ck : Clock) (policy : PyStr) (db : Db) :
    Except TurnErr (ContextBundle (PyStr ×ₗ Nat)) := do
  let state ← (loadUserState ck db).mapError .storage
  let loaded ← loadContext floatOfText limit state db
  (buildContextBundle policy loaded).mapError .context

end

theorem mapError_ok {ε ε' α : Type} {f : ε → ε'} {x : Except ε α} {a : α} :
    x.mapError f = .ok a ↔ x = .ok a := by
  cases x <;> simp [Except.mapError]

/-! ## Timestamps a commit writes -/

theorem isSpace_digit (d : Nat) : isSpace (digit d) = false := by
  have hd : (digit d).val = 48 + d % 10 := rfl
  have hm : d % 10 < 10 := Nat.mod_lt _ (by omega)
  simp only [isSpace, hd]
  simp
  omega

theorem toUtc_zero (t : DateTime) : t.toUtc 0 = some t := by
  have h := t.micros_ok
  have hneg : ¬ ((t.micros : Int) - 0 < 0) := by omega
  have hday : ¬ ((dayMicros : Int) ≤ (t.micros : Int) - 0) := by omega
  have hnat : ((t.micros : Int) - 0).toNat = t.micros := by omega
  rw [DateTime.toUtc, if_neg hneg, if_neg hday, hnat]
  exact dif_pos h

theorem parseTimestamp_utc {invalid : Code} {s : PyStr} {t : DateTime} (hblank : blank s = false)
    (hparse : fromIsoFormat s = some (t, some 0)) : parseTimestamp invalid s = .ok t := by
  rw [parseTimestamp, hblank, hparse]
  simp only [toUtc_zero, Bool.false_eq_true, if_false]

/-- Every timestamp of the local clock parses. -/
theorem parseTimestamp_instant (invalid : Code) (i : Instant) :
    ∃ t, parseTimestamp invalid i.text = .ok t := by
  have hblank : blank i.text = false := by
    simp [blank, Instant.text, pad2, isSpace_digit]
  have hparse := fromIsoFormat_zuluText i.date i.hour_ok i.minute_ok i.second_ok i.micro_ok
  rw [← i.text_eq] at hparse
  exact ⟨_, parseTimestamp_utc hblank hparse⟩

/-! ## What commits leave behind -/

/-- A call that neither stores a memory nor imports a fixture. -/
def NoOutsideData : Call → Prop
  | .storeMemory _ _ => False
  | .importLegacyFixture _ => False
  | _ => True

/-- A row the window can be read from, whatever its text says. -/
structure WrittenRow (r : Nat × ChatLog) : Prop where
  length : r.2.content.length ≤ maxMessageLength
  time : ∃ i : Instant, r.2.createdAt = i.text

/-- A profile that no one but turns and resets has written. -/
structure WrittenProfile (p : Profile) : Prop where
  persona : p.personaConfig = none
  userProfile : p.userProfile = py "\x7b\x7d"
  emotional : ∃ doc, decodeDoc p.emotionalState = .ok doc
  relationship : ∃ doc, decodeDoc p.relationshipState = .ok doc

structure ContextInv (db : Db) : Prop where
  memories : db.memories.rows = []
  rows : ∀ r ∈ db.chatLogs.rows, WrittenRow r
  profile : ∀ p, db.profile = some p → WrittenProfile p

theorem contextInv_empty : ContextInv .empty where
  memories := rfl
  rows := by simp [Db.empty]
  profile := by simp [Db.empty]

/-- Whatever `_json_dumps` wrote decodes. -/
theorem decodeDoc_of_jsonDumps {kvs : List (PyKey × PyVal)} {text : PyStr}
    (h : jsonDumps (.dict kvs) = .ok text) : ∃ doc, decodeDoc text = .ok doc := by
  have hload := loads_dumpsCompact (orRaise_eq_ok.mp h)
  by_cases hne : text = []
  · exact ⟨[], if_pos hne⟩
  · refine ⟨((PyVal.dict kvs).canon.decoded.items?).getD [], ?_⟩
    rw [decodeDoc, if_neg hne, hload]
    rfl

/-- A change that adds no row keeps the invariant. -/
theorem ContextInv.mono {db db' : Db} (h : ContextInv db) (hmem : db'.memories.rows = [])
    (hrows : ∀ r ∈ db'.chatLogs.rows, r ∈ db.chatLogs.rows) (hprofile : db'.profile = db.profile) :
    ContextInv db' :=
  ⟨hmem, fun r hr => h.rows r (hrows r hr), fun p hp => h.profile p (hprofile ▸ hp)⟩

theorem WrittenProfile.reset {old : Option Profile} {field : StateField}
    {text otherText now later : PyStr} {n : Nat} {t t' : PosFloat}
    (h : ∀ p, old = some p → WrittenProfile p) (htext : field.neutralText t = .ok text)
    (hother : field.other.neutralText t' = .ok otherText) :
    WrittenProfile (resetProfile old field text otherText n now later) := by
  have hdecodes : ∀ {field : StateField} {t : PosFloat} {text : PyStr},
      field.neutralText t = .ok text → ∃ doc, decodeDoc text = .ok doc := by
    intro field t text h
    cases field <;> exact decodeDoc_of_jsonDumps h
  have h1 := hdecodes htext
  have h2 := hdecodes hother
  cases old with
  | none => cases field <;> exact ⟨rfl, rfl, ‹_›, ‹_›⟩
  | some p =>
      obtain ⟨hp, hu, he, hr⟩ := h p rfl
      cases field with
      | emotionalState => exact ⟨hp, hu, h1, hr⟩
      | relationshipState => exact ⟨hp, hu, he, h1⟩

/-- **The step lemma.** -/
theorem contextInv_change {sha256 : PyStr → PyStr} {db db' : Db} {call : Call} {reply : Reply}
    (hc : Change sha256 db call reply db') (hcall : NoOutsideData call) (h : ContextInv db) :
    ContextInv db' := by
  cases hc with
  | reserve _ _ => exact h.mono h.memories (fun _ hr => hr) rfl
  | @commit a c row x outbox hinput _ _ _ _ _ hemotional hrelationship _ _ hnow =>
      obtain ⟨hacc, _⟩ := (commitInput_eq_ok sha256).mp hinput
      refine ⟨h.memories, ?_, ?_⟩
      · intro r hr
        simp only [Db.commit, Db.commitMessages, AutoTable.insert_rows, List.append_assoc,
          List.mem_append, List.mem_singleton] at hr
        rcases hr with hr | rfl | rfl
        · exact h.rows r hr
        · exact ⟨validateMessage_length hacc.userMessage, hnow⟩
        · exact ⟨validateMessage_length hacc.assistantMessage, hnow⟩
      · intro p hp
        cases Option.some.inj hp
        refine ⟨?_, ?_, decodeDoc_of_jsonDumps hemotional, decodeDoc_of_jsonDumps hrelationship⟩
        · cases hold : db.profile with
          | none => simp [committedProfile]
          | some q => simpa [committedProfile] using (h.profile q hold).persona
        · cases hold : db.profile with
          | none => simp [committedProfile]
          | some q => simpa [committedProfile] using (h.profile q hold).userProfile
  | release _ _ => exact h.mono h.memories (fun _ hr => hr) rfl
  | storeMemory => exact hcall.elim
  | deleteHistory =>
      refine h.mono h.memories (fun r hr => ?_) rfl
      rw [show ((db.clearHistory.audit _ _ _).chatLogs.rows) = [] from (clearHistory_empty db).1] at hr
      cases hr
  | deleteMemories =>
      refine h.mono ?_ (fun _ hr => hr) rfl
      simp [Db.audit, Db.clearMemories]
  | reset htext hother =>
      refine ⟨h.memories, h.rows, fun p hp => ?_⟩
      cases Option.some.inj hp
      exact .reset h.profile htext hother
  | trim _ => exact h.mono h.memories (fun r hr => List.mem_of_mem_filter hr) rfl
  | importFixture _ => exact hcall.elim
  | recover => exact h.mono h.memories (fun _ hr => hr) rfl

/-- **The run lemma.** -/
theorem contextInv_run {sha256 : PyStr → PyStr} {es : List (Event sha256)} {s : LocalStore}
    (hrun : Run sha256 .init es s) (hes : ∀ e ∈ es, NoOutsideData e.call) : ContextInv s.db :=
  hrun.inductOn hes contextInv_empty contextInv_change

/-! ## Reading them back -/

/-- A row as `load_recent_history` returns it. -/
def asHistoryRow (r : Nat × ChatLog) : HistoryRow := ⟨r.1, r.2.role, r.2.content, r.2.createdAt⟩

/-- The rows the runtime reads, oldest first. -/
def window (limit : HistoryLimit) (db : Db) : List (Nat × ChatLog) :=
  (newest chatOrder limit.val db.chatLogs.rows).reverse

theorem validateLimit_limit (limit : HistoryLimit) : validateLimit (.int limit.val) = .ok limit.val := by
  have h := limit.ok
  have hrange : (1 : Int) ≤ limit.val ∧ (limit.val : Int) ≤ 500 := by omega
  rw [validateLimit, if_pos hrange]
  rfl

theorem ContextInv.loadRecentHistory {db : Db} (h : ContextInv db) (limit : HistoryLimit) :
    loadRecentHistory (.int limit.val) db = .ok ((window limit db).map asHistoryRow) := by
  have hrow : ∀ r ∈ newest chatOrder limit.val db.chatLogs.rows,
      historyRow r = .ok (asHistoryRow r) := by
    intro r hr
    rw [historyRow, decide_eq_true (h.rows r (newest_subset hr)).length]
    rfl
  rw [Local.loadRecentHistory, validateLimit_limit, ok_bind, mapM_eq_map hrow, ok_bind, window,
    List.map_reverse]
  rfl

theorem ContextInv.loadLocalMemories {db : Db} (h : ContextInv db)
    (floatOfText : PyStr → Option PyFloat) : loadLocalMemories floatOfText db = .ok [] := by
  have hrows : loadRecentMemories (.int 5) db = .ok [] := by
    rw [loadRecentMemories, h.memories]
    rfl
  rw [Runtime.loadLocalMemories, hrows]
  rfl

theorem ContextInv.loadUserState {db : Db} (h : ContextInv db) (ck : Clock) :
    ∃ state, loadUserState ck db = .ok state := by
  cases hp : db.profile with
  | none =>
      rw [Local.loadUserState, hp]
      exact ⟨_, rfl⟩
  | some p =>
      obtain ⟨_, huser, ⟨emotional, hemotional⟩, ⟨relationship, hrelationship⟩⟩ := h.profile p hp
      have hdoc : decodeDoc (py "\x7b\x7d") = .ok [] := rfl
      rw [Local.loadUserState, hp]
      simp only [huser, hdoc, hemotional, hrelationship, ok_bind]
      exact ⟨_, rfl⟩

/-- Of the checks of a row, a committed one can only fail the one on its text. -/
theorem checkRow_asHistoryRow {db : Db} (h : ContextInv db) {r : Nat × ChatLog}
    (hr : r ∈ db.chatLogs.rows) : checkRow (asHistoryRow r) = .ok () ↔ blank r.2.content = false := by
  obtain ⟨i, hi⟩ := (h.rows r hr).time
  obtain ⟨t, ht⟩ := parseTimestamp_instant .invalidLoadedDataHistoryTimestamp i
  have hid : decide (0 < r.1) = true := decide_eq_true (db.chatLogs.bound r hr).1
  simp only [checkRow, asHistoryRow, hi, ht, bind_ok_iff, check_eq_ok, hid, Bool.not_eq_true',
    true_and]
  constructor
  · rintro ⟨_, hb, _⟩
    exact hb
  · intro hb
    exact ⟨(), hb, (), t, rfl, rfl⟩

theorem mem_window {limit : HistoryLimit} {db : Db} {r : Nat × ChatLog} :
    r ∈ window limit db ↔ r ∈ db.chatLogs.rows ∧
      db.chatLogs.rows.countP (fun x => chatOrder r < chatOrder x) < limit.val := by
  rw [window, List.mem_reverse, mem_newest (chatOrder_nodup db)]

/-- Every blank message has `limit` newer ones. -/
def BlankIsOld (limit : HistoryLimit) (db : Db) : Prop :=
  ∀ r ∈ db.chatLogs.rows, blank r.2.content = true →
    limit.val ≤ db.chatLogs.rows.countP fun x => chatOrder r < chatOrder x

/-- **The context of the next turn loads exactly if no blank message is recent.** -/
theorem ContextInv.prepareContext_iff {db : Db} (h : ContextInv db)
    (floatOfText : PyStr → Option PyFloat) (limit : HistoryLimit) (ck : Clock) {policy : PyStr}
    (hpolicy : blank policy = false) :
    (∃ bundle, prepareContext floatOfText limit ck policy db = .ok bundle) ↔
      BlankIsOld limit db := by
  obtain ⟨state, hstate⟩ := h.loadUserState ck
  have hwindow : (∀ r ∈ (window limit db).map asHistoryRow, checkRow r = .ok ()) ↔
      BlankIsOld limit db := by
    simp only [List.forall_mem_map, BlankIsOld]
    constructor
    · intro hall r hr hb
      by_contra hlt
      have hmem := mem_window.mpr ⟨hr, Nat.lt_of_not_le hlt⟩
      rw [(checkRow_asHistoryRow h hr).mp (hall r hmem)] at hb
      cases hb
    · intro hold r hr
      obtain ⟨hr, hlt⟩ := mem_window.mp hr
      rw [checkRow_asHistoryRow h hr, Bool.eq_false_iff]
      intro hb
      exact absurd (hold r hr hb) (Nat.not_le_of_lt hlt)
  have hload : loadContext floatOfText limit state db =
      (LoadedContextData.create ((window limit db).map asHistoryRow) [] state.userProfile
        (state.personaConfig.getD [])).mapError .context := by
    rw [loadContext, h.loadRecentHistory, h.loadLocalMemories]
    rfl
  rw [← hwindow]
  constructor
  · rintro ⟨bundle, hb⟩
    simp only [prepareContext, bind_ok_iff, mapError_ok] at hb
    obtain ⟨state', hstate', loaded, hloaded, _⟩ := hb
    rw [hstate] at hstate'
    cases hstate'
    rw [hload, mapError_ok] at hloaded
    exact (LoadedContextData.exists_create.mp ⟨loaded, hloaded⟩).1
  · intro hall
    obtain ⟨loaded, hloaded⟩ := LoadedContextData.exists_create.mpr
      ⟨hall, fun _ hm => absurd hm List.not_mem_nil⟩
    obtain ⟨bundle, hbundle⟩ := buildContextBundle_ok hpolicy (LoadedContextData.create_eq_ok hloaded).2
    refine ⟨bundle, ?_⟩
    simp only [prepareContext, bind_ok_iff, mapError_ok]
    exact ⟨state, hstate, loaded, by rw [hload, mapError_ok]; exact hloaded, hbundle⟩

/-! ## Runs -/

/-- A commit whose two messages say something. Other calls write no message. -/
def SaysSomething : Call → Prop
  | .commitTurn a =>
      ∀ s, a.userMessage = .str s ∨ a.assistantMessage = .str s → blank s = false
  | _ => True

variable {sha256 : PyStr → PyStr}

theorem notBlank_run {es : List (Event sha256)} {s : LocalStore} (hrun : Run sha256 .init es s)
    (hes : ∀ e ∈ es, NoOutsideData e.call ∧ SaysSomething e.call) :
    ∀ r ∈ s.db.chatLogs.rows, blank r.2.content = false := by
  refine hrun.inductOn (P := fun db => ∀ r ∈ db.chatLogs.rows, blank r.2.content = false)
    (Q := fun c => NoOutsideData c ∧ SaysSomething c) hes (by simp [LocalStore.init, Db.empty]) ?_
  intro db call reply db' hc hcall h
  cases hc with
  | reserve _ _ => exact h
  | @commit a c row x outbox hinput =>
      obtain ⟨hacc, _⟩ := (commitInput_eq_ok sha256).mp hinput
      intro r hr
      simp only [Db.commit, Db.commitMessages, AutoTable.insert_rows, List.append_assoc,
        List.mem_append, List.mem_singleton] at hr
      rcases hr with hr | rfl | rfl
      · exact h r hr
      · exact hcall.2 _ (.inl (validateMessage_str hacc.userMessage))
      · exact hcall.2 _ (.inr (validateMessage_str hacc.assistantMessage))
  | release _ _ => exact h
  | storeMemory => exact hcall.1.elim
  | deleteHistory =>
      intro r hr
      rw [show ((db.clearHistory.audit _ _ _).chatLogs.rows) = [] from (clearHistory_empty db).1] at hr
      cases hr
  | deleteMemories => exact h
  | reset _ _ => exact h
  | trim _ => exact fun r hr => h r (List.mem_of_mem_filter hr)
  | importFixture _ => exact hcall.1.elim
  | recover => exact h

/-- **Whatever turns commit, the next turn's context loads exactly if every blank message has left
the window**, and it always loads where no commit had a blank message. -/
theorem context_loads_iff {es : List (Event sha256)} {s : LocalStore}
    (hrun : Run sha256 .init es s) (hes : ∀ e ∈ es, NoOutsideData e.call)
    (floatOfText : PyStr → Option PyFloat) (limit : HistoryLimit) (ck : Clock)
    (emotional : EmotionalStateV1) (relationship : RelationshipStateV1) :
    ((∃ bundle, prepareContext floatOfText limit ck (buildTrustedPolicy emotional relationship [])
        s.db = .ok bundle) ↔ BlankIsOld limit s.db) ∧
      ((∀ e ∈ es, SaysSomething e.call) → ∃ bundle, prepareContext floatOfText limit ck
        (buildTrustedPolicy emotional relationship []) s.db = .ok bundle) := by
  have hiff := (contextInv_run hrun hes).prepareContext_iff floatOfText limit ck
    (buildTrustedPolicy_not_blank emotional relationship [])
  refine ⟨hiff, fun hfull => hiff.mpr fun r hr hb => ?_⟩
  have hfalse := notBlank_run hrun (fun e he => ⟨hes e he, hfull e he⟩) r hr
  rw [hfalse] at hb
  cases hb

theorem context_loads_iff_first_turn :
    ∃ bundle, prepareContext (fun _ => none) .default sampleEnv.clock
      (buildTrustedPolicy (.neutral sampleTime) (.neutral sampleTime) [])
      (execAll sampleSha256 [sampleReserve, sampleCommit] .init).db = .ok bundle := by
  refine (context_loads_iff (run_trace [sampleReserve, sampleCommit] .init) ?_ (fun _ => none)
    .default sampleEnv.clock (.neutral sampleTime) (.neutral sampleTime)).2 ?_
  · intro e he
    simp only [trace, List.mem_cons, List.not_mem_nil, or_false] at he
    rcases he with rfl | rfl <;> exact trivial
  · intro e he
    simp only [trace, List.mem_cons, List.not_mem_nil, or_false] at he
    rcases he with rfl | rfl
    · exact trivial
    · rintro s (h | h) <;> cases h <;> decide

/-- The same turn with a message of one space. -/
def blankTurn : List (Env × Call) :=
  [(sampleEnv, .reserveRequest (.str (py "r1")) (.str (py " "))),
    (sampleEnv, .commitTurn { sampleArgs with userMessage := .str (py " ") })]

/-- The digest of its payload. -/
def blankSha256 (_ : PyStr) : PyStr :=
  py "b5a9740e55a64dae321d0f1f883d8c7fc0a332adff34da8e7df6c897c5bbc0f0"

/-- The code of a `TrustedContextError`. -/
def trustedCode {α : Type} : Except TurnErr α → Option Code
  | .error (.context (.trusted code)) => some code
  | _ => none

/-- **A message of one space is committed, and no later turn loads its context.** -/
theorem blank_message_blocks_turns :
    (trace blankSha256 blankTurn .init).all (fun e => e.result.isOk) = true ∧
      trustedCode (prepareContext (fun _ => none) .default sampleEnv.clock
        (buildTrustedPolicy (.neutral sampleTime) (.neutral sampleTime) [])
        (execAll blankSha256 blankTurn .init).db) = some .invalidLoadedDataHistoryContent := by
  decide +kernel

end Katherine.Runtime
