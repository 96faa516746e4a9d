import Katherine.Runtime.Imported

/-!
# Memories in the context

`store_memory` takes any text and any JSON object, and the next turn takes them apart
again: `_LocalContextMemory` fills in what the object lacks, `LoadedContextData` checks
the outcome against its allow-lists, and `build_context_bundle` makes an item of it. A
row whose projection raises `TypeError` or `ValueError` is dropped; one that is projected
and then refused ends the turn.

So what a stored memory does to the turns after it depends on its text and its metadata
alone, as long as it is among the five newest (`stored_memory_harmless_iff`). The
defaults do not pass: without a `source_id` no projected memory is accepted.
-/

namespace Katherine.Runtime

open Py Sql Local Context

variable {floatOfText : PyStr → Option PyFloat}

/-! ## The window of memories -/

section

variable (floatOfText)

/-- The memories of the next turn are loaded and checked, and become items. -/
def MemoriesBundle (db : Db) : Prop :=
  ∃ memories, loadLocalMemories floatOfText db = .ok memories ∧
    ∀ m ∈ memories, checkMemory m = .ok () ∧ blank m.content = false

/-- A row that is read, and dropped or accepted. -/
def Fits (r : Nat × Memory) : Prop :=
  ∃ p o, memoryRow r = .ok p ∧ localContextMemory floatOfText p.1 p.2 = .ok o ∧
    ∀ m, o = some m → checkMemory m = .ok () ∧ blank m.content = false

end

theorem exists_prepareContext {limit : HistoryLimit} {ck : Clock} {policy : PyStr} {db : Db} :
    (∃ bundle, prepareContext floatOfText limit ck policy db = .ok bundle) ↔
      ((∃ state, loadUserState ck db = .ok state) ∧ (∀ r ∈ window limit db, Readable r) ∧
        blank policy = false) ∧ MemoriesBundle floatOfText db := by
  constructor
  · rintro ⟨bundle, h⟩
    simp only [prepareContext, bind_ok_iff, mapError_ok] at h
    obtain ⟨state, hstate, d, hd, hbundle⟩ := h
    obtain ⟨hreadable, -⟩ := exists_loadContext.mp ⟨d, hd⟩
    obtain ⟨hpolicy, hfull⟩ := exists_buildContextBundle.mp ⟨bundle, hbundle⟩
    simp only [loadContext, bind_ok_iff, mapError_ok] at hd
    obtain ⟨rows, _, memories, hmemories, hcreate⟩ := hd
    obtain ⟨-, hchecked⟩ := LoadedContextData.exists_create.mp ⟨d, hcreate⟩
    rw [(LoadedContextData.create_eq_ok hcreate).2] at hfull
    exact ⟨⟨⟨state, hstate⟩, hreadable, hpolicy⟩, memories, hmemories,
      fun m hm => ⟨hchecked m hm, hfull m hm⟩⟩
  · rintro ⟨⟨⟨state, hstate⟩, hreadable, hpolicy⟩, memories, hmemories, hfit⟩
    obtain ⟨d, hd⟩ : ∃ d, loadContext floatOfText limit state db = .ok d :=
      exists_loadContext.mpr ⟨hreadable, memories, hmemories, fun m hm => (hfit m hm).1⟩
    have hloaded : d.retrievedMemories = memories := by
      simp only [loadContext, bind_ok_iff, mapError_ok] at hd
      obtain ⟨_, _, memories', hmemories', hcreate⟩ := hd
      rw [hmemories] at hmemories'
      cases hmemories'
      exact (LoadedContextData.create_eq_ok hcreate).2
    obtain ⟨bundle, hbundle⟩ : ∃ bundle, buildContextBundle policy d = .ok bundle :=
      exists_buildContextBundle.mpr ⟨hpolicy, by rw [hloaded]; exact fun m hm => (hfit m hm).2⟩
    refine ⟨bundle, ?_⟩
    simp only [prepareContext, bind_ok_iff, mapError_ok]
    exact ⟨state, hstate, d, hd, hbundle⟩

/-- What `_load_local_memories` goes through. -/
theorem loadLocalMemories_eq_ok {db : Db} {memories : List LocalContextMemory} :
    loadLocalMemories floatOfText db = .ok memories ↔
      ∃ ps os, (newest memoryOrder 5 db.memories.rows).mapM memoryRow = .ok ps ∧
        ps.reverse.mapM (fun p => localContextMemory floatOfText p.1 p.2) = .ok os ∧
        memories = os.filterMap id := by
  have hlimit : validateLimit (.int 5) = .ok 5 := rfl
  simp only [loadLocalMemories, bind_ok_iff, mapError_ok, loadRecentMemories, hlimit, ok_bind]
  constructor
  · rintro ⟨_, ⟨ps, hps, hreverse⟩, os, hos, h⟩
    cases hreverse
    cases h
    exact ⟨ps, os, hps, hos, rfl⟩
  · rintro ⟨ps, os, hps, hos, rfl⟩
    exact ⟨_, ⟨ps, hps, rfl⟩, os, hos, rfl⟩

/-- **Memories are a matter of each row.** -/
theorem memoriesBundle_iff {db : Db} : MemoriesBundle floatOfText db ↔
    ∀ r ∈ newest memoryOrder 5 db.memories.rows, Fits floatOfText r := by
  constructor
  · rintro ⟨memories, hload, hfit⟩ r hr
    obtain ⟨ps, os, hps, hos, rfl⟩ := loadLocalMemories_eq_ok.mp hload
    obtain ⟨p, hp, hrow⟩ := of_mapM_ok hps r hr
    obtain ⟨o, ho, hproject⟩ := of_mapM_ok hos p (List.mem_reverse.mpr hp)
    refine ⟨p, o, hrow, hproject, fun m hm => hfit m ?_⟩
    exact List.mem_filterMap.mpr ⟨o, ho, hm⟩
  · intro h
    obtain ⟨ps, hps⟩ : ∃ ps, (newest memoryOrder 5 db.memories.rows).mapM memoryRow = .ok ps := by
      refine mapM_ok fun r hr => ?_
      obtain ⟨p, _, hrow, _⟩ := h r hr
      exact ⟨p, hrow⟩
    have hrows : ∀ p ∈ ps.reverse, ∃ o, localContextMemory floatOfText p.1 p.2 = .ok o ∧
        ∀ m, o = some m → checkMemory m = .ok () ∧ blank m.content = false := by
      intro p hp
      obtain ⟨r, hr, hrow⟩ := of_mem_mapM_ok hps p (List.mem_reverse.mp hp)
      obtain ⟨p', o, hrow', hproject, hfit⟩ := h r hr
      rw [hrow] at hrow'
      cases hrow'
      exact ⟨o, hproject, hfit⟩
    obtain ⟨os, hos⟩ : ∃ os, ps.reverse.mapM (fun p => localContextMemory floatOfText p.1 p.2) = .ok os := by
      refine mapM_ok fun p hp => ?_
      obtain ⟨o, hproject, _⟩ := hrows p hp
      exact ⟨o, hproject⟩
    refine ⟨_, loadLocalMemories_eq_ok.mpr ⟨ps, os, hps, hos, rfl⟩, fun m hm => ?_⟩
    obtain ⟨o, ho, hm⟩ := List.mem_filterMap.mp hm
    obtain ⟨p, hp, hproject⟩ := of_mem_mapM_ok hos o ho
    obtain ⟨o', hproject', hfit⟩ := hrows p hp
    rw [hproject] at hproject'
    cases hproject'
    exact hfit m hm

/-! ## One memory -/

/-- The confidence a memory is projected with. -/
def confidenceOf (metadata : List (PyKey × PyVal)) : PyVal :=
  (dictGet metadata (py "confidence")).getD (.float (.fin float03.val))

/-- The checks of a projected memory, over its text and metadata. -/
structure Presentable (content : PyStr) (metadata : List (PyKey × PyVal)) (confidence : PyFloat) :
    Prop where
  content : blank content = false
  sourceId : canonicalUuid (strOf ((dictGet metadata (py "source_id")).getD (.str []))) = true
  provenance : ∃ p : Provenance, p ∈ Provenance.all ∧
    p.text = strOf ((dictGet metadata (py "provenance")).getD (.str (py "legacy_profile")))
  epistemicStatus : ∃ e : EpistemicStatus, e ∈ EpistemicStatus.all ∧
    e.text = strOf ((dictGet metadata (py "epistemic_status")).getD (.str (py "unknown")))
  confidence : ∃ f, confidence = .fin f ∧ f.ltRatio 0 1 = false ∧ f.gtRatio 1 1 = false

/-- **A memory that blocks no turn**: `float` of its confidence does not overflow, and if there is
such a float, the memory passes the checks. -/
def Harmless (floatOfText : PyStr → Option PyFloat) (content : PyStr) (metadata : List (PyKey × PyVal)) :
    Prop :=
  ∃ o, floatOf floatOfText (confidenceOf metadata) = .ok o ∧
    ∀ confidence, o = some confidence → Presentable content metadata confidence

theorem exists_checkConfidence (nanInf range : Code) {x : PyFloat} :
    (∃ u, checkConfidence nanInf range x = .ok u) ↔
      ∃ f, x = .fin f ∧ f.ltRatio 0 1 = false ∧ f.gtRatio 1 1 = false := by
  constructor
  · rintro ⟨u, h⟩
    unfold checkConfidence at h
    split at h
    · next f =>
        split at h
        · next hrange => exact ⟨f, rfl, hrange⟩
        · cases h
    · cases h
  · rintro ⟨f, rfl, hrange⟩
    exact ⟨⟨f, hrange.1, hrange.2⟩, dif_pos hrange⟩

theorem checkMemory_eq_ok {m : LocalContextMemory} : checkMemory m = .ok () ↔
    canonicalUuid m.sourceId = true ∧ (∃ p : Provenance, p ∈ Provenance.all ∧ p.text = m.provenance) ∧
      (∃ e : EpistemicStatus, e ∈ EpistemicStatus.all ∧ e.text = m.epistemicStatus) ∧
      ∃ f, m.confidence = .fin f ∧ f.ltRatio 0 1 = false ∧ f.gtRatio 1 1 = false := by
  rw [← exists_checkConfidence .invalidLoadedMemoryConfidence .invalidLoadedMemoryConfidence]
  simp only [checkMemory, bind_ok_iff, check_eq_ok, List.any_eq_true, decide_eq_true_eq]
  constructor
  · rintro ⟨_, hsource, _, hprovenance, _, hstatus, u, hu, _⟩
    exact ⟨hsource, hprovenance, hstatus, u, hu⟩
  · rintro ⟨hsource, hprovenance, hstatus, u, hu⟩
    exact ⟨(), hsource, (), hprovenance, (), hstatus, u, hu, rfl⟩

/-- What `_LocalContextMemory` makes of a row. -/
def projected (content : PyStr) (metadata : List (PyKey × PyVal)) (confidence : PyFloat) :
    LocalContextMemory where
  content := content
  sourceId := strOf ((dictGet metadata (py "source_id")).getD (.str []))
  provenance := strOf ((dictGet metadata (py "provenance")).getD (.str (py "legacy_profile")))
  epistemicStatus := strOf ((dictGet metadata (py "epistemic_status")).getD (.str (py "unknown")))
  confidence := confidence

theorem localContextMemory_eq_ok {content : PyStr} {metadata : List (PyKey × PyVal)}
    {o : Option LocalContextMemory} : localContextMemory floatOfText content metadata = .ok o ↔
      ∃ x, floatOf floatOfText (confidenceOf metadata) = .ok x ∧ o = x.map (projected content metadata) := by
  simp only [localContextMemory, bind_ok_iff]
  constructor
  · rintro ⟨x, hx, h⟩
    cases h
    exact ⟨x, hx, rfl⟩
  · rintro ⟨x, hx, rfl⟩
    exact ⟨x, hx, rfl⟩

theorem projected_fits {content : PyStr} {metadata : List (PyKey × PyVal)} {confidence : PyFloat} :
    (checkMemory (projected content metadata confidence) = .ok () ∧ blank content = false) ↔
      Presentable content metadata confidence := by
  rw [checkMemory_eq_ok]
  constructor
  · rintro ⟨⟨hsource, hprovenance, hstatus, hconfidence⟩, hblank⟩
    exact ⟨hblank, hsource, hprovenance, hstatus, hconfidence⟩
  · intro h
    exact ⟨⟨h.sourceId, h.provenance, h.epistemicStatus, h.confidence⟩, h.content⟩

/-- The metadata of a stored memory, as it is read back. -/
def storedMetadata (metadata : List (PyKey × PyVal)) : List (PyKey × PyVal) :=
  ((PyVal.dict metadata).canon.decoded.items?).getD []

/-- The row `store_memory` writes fits exactly if it is harmless. -/
theorem fits_stored {i : Nat} {content doc now : PyStr} {metadata : List (PyKey × PyVal)}
    (hshort : content.length ≤ maxMessageLength) (hdoc : jsonDumps (.dict metadata) = .ok doc) :
    Fits floatOfText (i, ⟨content, doc, now⟩) ↔ Harmless floatOfText content (storedMetadata metadata) := by
  have hread := loads_dumpsCompact (orRaise_eq_ok.mp hdoc)
  have hne : doc ≠ [] := by
    rintro rfl
    cases hread
  have hdecode : decodeObject doc = .ok (storedMetadata metadata) := by
    rw [decodeObject, if_neg hne, hread]
    rfl
  have hrow : memoryRow (i, ⟨content, doc, now⟩) = .ok (content, storedMetadata metadata) := by
    simp only [memoryRow, decide_eq_true hshort, require_true, hdecode, ok_bind]
    rfl
  constructor
  · rintro ⟨p, o, hp, hproject, hfit⟩
    rw [hrow] at hp
    cases hp
    obtain ⟨x, hx, rfl⟩ := localContextMemory_eq_ok.mp hproject
    refine ⟨x, hx, fun confidence hconfidence => ?_⟩
    rw [hconfidence] at hfit
    exact projected_fits.mp (hfit _ rfl)
  · rintro ⟨x, hx, hpresentable⟩
    refine ⟨_, _, hrow, localContextMemory_eq_ok.mpr ⟨x, hx, rfl⟩, fun m hm => ?_⟩
    obtain ⟨confidence, hconfidence, rfl⟩ := Option.map_eq_some_iff.mp hm
    exact projected_fits.mpr (hpresentable confidence hconfidence)

/-! ## After `store_memory` -/

variable {sha256 : PyStr → PyStr}

/-- A `store_memory` that returned. -/
theorem storeMemory_ok {env : Env} {content metadata : PyVal} {s s' : LocalStore} {id : Nat}
    (h : exec sha256 env (.storeMemory content metadata) s = (.ok (.memory id), s')) :
    ∃ text kvs doc, content = .str text ∧ metadata = .dict kvs ∧ text.length ≤ maxMessageLength ∧
      jsonDumps (.dict kvs) = .ok doc ∧ s'.db = s.db.addMemory text doc env.clock.now.text := by
  rw [exec] at h
  obtain ⟨p, n, hargs, _, _, _, hbody⟩ := perform_ok h
  obtain ⟨text, kvs⟩ := p
  simp only [both, bind_eq_ok, orRaise_eq_ok] at hargs
  obtain ⟨_, htext, _, hkvs, hpair⟩ := hargs
  cases hpair
  rcases hbody with hbody | ⟨hbody, _⟩
  · simp only [storeMemoryBlock, Outcome.attempt_eq_commit] at hbody
    obtain ⟨doc, hdoc, _, _, _, _, _, _, hcommit⟩ := hbody
    refine ⟨text, kvs, doc, validateMessage_str htext, items?_eq_some hkvs, validateMessage_length htext,
      hdoc, ?_⟩
    injection hcommit with _ hdb
    exact hdb.symm
  · simp only [storeMemoryBlock, Outcome.attempt_eq_rollback] at hbody
    obtain ⟨_, _, _, _, _, _, _, _, hbody⟩ := hbody
    cases hbody

/-- The new memory is among the newest five unless five are from the future. -/
theorem mem_newest_addMemory {db : Db} {text doc now : PyStr} :
    ((db.memories.seq + 1, ⟨text, doc, now⟩) : Nat × Memory) ∈
        newest memoryOrder 5 (db.addMemory text doc now).memories.rows ↔
      (db.memories.rows.countP fun x => now < x.2.createdAt) < 5 := by
  rw [mem_newest (memoryOrder_nodup _)]
  have hrows : (db.addMemory text doc now).memories.rows =
      db.memories.rows ++ [(db.memories.seq + 1, ⟨text, doc, now⟩)] := rfl
  have hcount : (db.memories.rows.countP fun x =>
      decide (memoryOrder (db.memories.seq + 1, ⟨text, doc, now⟩) < memoryOrder x)) =
      db.memories.rows.countP fun x => decide (now < x.2.createdAt) := by
    refine List.countP_congr fun x hx => ?_
    have hid := (db.memories.bound x hx).2
    simp only [memoryOrder, Prod.Lex.toLex_lt_toLex, decide_eq_true_eq]
    constructor
    · rintro (h | ⟨_, h⟩)
      · exact h
      · omega
    · exact fun h => .inl h
  rw [hrows, List.countP_append, hcount]
  simp

/-- **A stored memory blocks the next turn exactly if it is recent and not harmless.** -/
theorem stored_memory_harmless_iff {env : Env} {content metadata : PyVal} {s s' : LocalStore} {id : Nat}
    (hstore : exec sha256 env (.storeMemory content metadata) s = (.ok (.memory id), s'))
    {limit : HistoryLimit} {ck : Clock} {policy : PyStr}
    (hbefore : ∃ bundle, prepareContext floatOfText limit ck policy s.db = .ok bundle) :
    ∃ text kvs, content = .str text ∧ metadata = .dict kvs ∧
      ((∃ bundle, prepareContext floatOfText limit ck policy s'.db = .ok bundle) ↔
        5 ≤ s.db.memories.rows.countP (fun x => env.clock.now.text < x.2.createdAt) ∨
          Harmless floatOfText text (storedMetadata kvs)) := by
  obtain ⟨text, kvs, doc, rfl, rfl, hshort, hdoc, hdb⟩ := storeMemory_ok hstore
  refine ⟨text, kvs, rfl, rfl, ?_⟩
  obtain ⟨hrest, hmemories⟩ := exists_prepareContext.mp hbefore
  have hfits := memoriesBundle_iff.mp hmemories
  have hsame : (∃ bundle, prepareContext floatOfText limit ck policy s'.db = .ok bundle) ↔
      MemoriesBundle floatOfText s'.db := by
    rw [exists_prepareContext, hdb]
    exact and_iff_right hrest
  have hrows : s'.db.memories.rows =
      s.db.memories.rows ++ [(s.db.memories.seq + 1, ⟨text, doc, env.clock.now.text⟩)] := by
    rw [hdb]
    rfl
  have hnew := @mem_newest_addMemory s.db text doc env.clock.now.text
  rw [← hdb] at hnew
  rw [hsame, memoriesBundle_iff]
  constructor
  · intro h
    by_cases hrecent : (s.db.memories.rows.countP fun x => env.clock.now.text < x.2.createdAt) < 5
    · exact .inr ((fits_stored hshort hdoc).mp (h _ (hnew.mpr hrecent)))
    · exact .inl (Nat.le_of_not_lt hrecent)
  · intro h r hr
    have hmem : r ∈ s'.db.memories.rows := newest_subset hr
    rw [hrows] at hmem
    rcases List.mem_append.mp hmem with hold | hadded
    · have hkeys := memoryOrder_nodup s'.db
      rw [hrows] at hkeys hr
      exact hfits r (mem_newest_of_append hkeys hold hr)
    · obtain rfl := List.mem_singleton.mp hadded
      rcases h with hfuture | hharmless
      · exact absurd (hnew.mp hr) (Nat.not_lt_of_le hfuture)
      · exact (fits_stored hshort hdoc).mpr hharmless

/-! ## Two memories -/

/-- The policy of a neutral state. -/
def neutralPolicy : PyStr := buildTrustedPolicy (.neutral sampleTime) (.neutral sampleTime) []

theorem prepareContext_init : ∃ bundle, prepareContext (fun _ => none) .default sampleEnv.clock neutralPolicy
    LocalStore.init.db = .ok bundle := by
  refine (contextInv_empty.prepareContext_iff _ _ _ (buildTrustedPolicy_not_blank _ _ _)).mpr ?_
  exact fun r hr => absurd hr List.not_mem_nil

/-- Metadata as the web's rows have it. -/
def approvedMetadata : List (PyKey × PyVal) :=
  [(.str (py "source_id"), .str (py "12345678-1234-4234-8234-123456789abc")),
    (.str (py "provenance"), .str (py "user_confirmed"))]

/-- What a call of `store_memory` returned. -/
def memoryId : Except Err Reply → Option Nat
  | .ok (.memory id) => some id
  | _ => none

theorem memoryId_eq_some {r : Except Err Reply × LocalStore} {id : Nat} (h : memoryId r.1 = some id) :
    r = (.ok (.memory id), r.2) := by
  obtain ⟨reply, s⟩ := r
  unfold memoryId at h
  split at h
  · next hreply =>
      cases hreply
      rw [Option.some.inj h]
  · cases h

theorem stored_memory_harmless_iff_approved :
    ∃ bundle, prepareContext (fun _ => none) .default sampleEnv.clock neutralPolicy
      (exec sampleSha256 sampleEnv (.storeMemory (.str (py "nota")) (.dict approvedMetadata)) .init).2.db =
        .ok bundle := by
  have hid : memoryId (exec sampleSha256 sampleEnv
      (.storeMemory (.str (py "nota")) (.dict approvedMetadata)) .init).1 = some 1 := by decide +kernel
  obtain ⟨text, kvs, htext, hkvs, hiff⟩ :=
    stored_memory_harmless_iff (memoryId_eq_some hid) prepareContext_init
  cases htext
  cases hkvs
  have hstored : storedMetadata approvedMetadata =
      [(.str (py "provenance"), .str (py "user_confirmed")),
        (.str (py "source_id"), .str (py "12345678-1234-4234-8234-123456789abc"))] := rfl
  refine hiff.mpr (.inr ⟨some (.fin float03.val), ?_, ?_⟩)
  · rw [hstored]
    rfl
  · rintro confidence hconfidence
    cases hconfidence
    rw [hstored]
    exact ⟨rfl, by decide, ⟨.userConfirmed, by decide, rfl⟩, ⟨.unknown, by decide, rfl⟩, _, rfl,
      float03.ge, float03.le⟩

/-- **A memory without metadata is stored, and no later turn loads its context.** -/
theorem bare_memory_blocks_turns :
    memoryId (exec sampleSha256 sampleEnv (.storeMemory (.str (py "nota")) (.dict [])) .init).1 = some 1 ∧
      (∃ bundle, prepareContext (fun _ => none) .default sampleEnv.clock neutralPolicy
        LocalStore.init.db = .ok bundle) ∧
      trustedCode (prepareContext (fun _ => none) .default sampleEnv.clock neutralPolicy
        (exec sampleSha256 sampleEnv (.storeMemory (.str (py "nota")) (.dict [])) .init).2.db) =
        some .invalidLoadedMemorySourceId :=
  ⟨by decide +kernel, prepareContext_init, by decide +kernel⟩

end Katherine.Runtime
