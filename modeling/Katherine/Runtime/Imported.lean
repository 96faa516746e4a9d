import Katherine.Local.Reimport
import Katherine.Runtime.Context

/-!
# A store after an import

What the importer accepts is not what the readers accept. The window of a turn refuses a
message over `MAX_MESSAGE_LENGTH`, a blank one, and one whose time does not parse; the
importer takes twice the length, any text, and any `created_at`. Whether the next turn
can be prepared is then a matter of which messages are recent
(`usable_after_import_iff`).

`chatOrder` decides what is recent, and a window only loses rows when others are added
(`mem_window_append`).
-/

namespace Katherine.Runtime

open Py Sql Local Context

/-! ## When the window can be read -/

/-- How many rows come after this one. -/
def newer (rows : List (Nat × ChatLog)) (r : Nat × ChatLog) : Nat :=
  rows.countP fun x => chatOrder r < chatOrder x

theorem mem_window_newer {limit : HistoryLimit} {db : Db} {r : Nat × ChatLog} :
    r ∈ window limit db ↔ r ∈ db.chatLogs.rows ∧ newer db.chatLogs.rows r < limit.val := mem_window

/-- The readers' bound on a message. -/
def Short (r : Nat × ChatLog) : Prop := r.2.content.length ≤ maxMessageLength

theorem historyRow_eq_ok {r : Nat × ChatLog} {h : HistoryRow} :
    historyRow r = .ok h ↔ Short r ∧ h = asHistoryRow r := by
  simp only [historyRow, bind_ok_iff, require_eq_ok, decide_eq_true_eq]
  constructor
  · rintro ⟨_, hlen, hrow⟩
    cases hrow
    exact ⟨hlen, rfl⟩
  · rintro ⟨hlen, rfl⟩
    exact ⟨(), hlen, rfl⟩

/-- What `load_recent_history` returns. -/
theorem loadRecentHistory_eq_ok {limit : HistoryLimit} {db : Db} {rows : List HistoryRow} :
    loadRecentHistory (.int limit.val) db = .ok rows ↔
      (∀ r ∈ window limit db, Short r) ∧ rows = (window limit db).map asHistoryRow := by
  simp only [loadRecentHistory, validateLimit_limit, ok_bind]
  constructor
  · intro h
    obtain ⟨history, hhistory, hrows⟩ := bind_ok_iff.mp h
    have hshort : ∀ r ∈ newest chatOrder limit.val db.chatLogs.rows, Short r := by
      intro r hr
      obtain ⟨_, _, hrow⟩ := of_mapM_ok hhistory r hr
      exact (historyRow_eq_ok.mp hrow).1
    have hmap := mapM_eq_map fun r hr => historyRow_eq_ok.mpr ⟨hshort r hr, rfl⟩
    rw [hmap] at hhistory
    cases hhistory
    cases hrows
    refine ⟨fun r hr => hshort r (List.mem_reverse.mp hr), ?_⟩
    rw [window, List.map_reverse]
  · rintro ⟨hshort, rfl⟩
    have hmap := mapM_eq_map fun r hr => historyRow_eq_ok.mpr ⟨hshort r (List.mem_reverse.mpr hr), rfl⟩
    rw [hmap, window, List.map_reverse]
    rfl

/-- The history can be read exactly if every message that is too long has `limit` newer ones. -/
theorem exists_loadRecentHistory {limit : HistoryLimit} {db : Db} :
    (∃ rows, loadRecentHistory (.int limit.val) db = .ok rows) ↔
      ∀ r ∈ db.chatLogs.rows, ¬ Short r → limit.val ≤ newer db.chatLogs.rows r := by
  simp only [loadRecentHistory_eq_ok, exists_and_left, exists_eq, and_true]
  constructor
  · intro h r hr hlong
    by_contra hlt
    exact hlong (h r (mem_window_newer.mpr ⟨hr, Nat.lt_of_not_le hlt⟩))
  · intro h r hr
    obtain ⟨hr, hlt⟩ := mem_window_newer.mp hr
    by_contra hlong
    exact absurd (h r hr hlong) (Nat.not_le_of_lt hlt)

/-- The largest limit decides about all of them. -/
theorem exists_loadRecentHistory_all {db : Db} :
    (∀ limit : HistoryLimit, ∃ rows, loadRecentHistory (.int limit.val) db = .ok rows) ↔
      ∀ r ∈ db.chatLogs.rows, ¬ Short r → 500 ≤ newer db.chatLogs.rows r := by
  constructor
  · intro h
    exact exists_loadRecentHistory.mp (h ⟨500, by decide⟩)
  · intro h limit
    have hlimit := limit.ok
    refine exists_loadRecentHistory.mpr fun r hr hlong => ?_
    have := h r hr hlong
    omega

/-! ## When the context loads -/

/-- A row that both readers take. -/
def Readable (r : Nat × ChatLog) : Prop := Short r ∧ checkRow (asHistoryRow r) = .ok ()

/-- The memories of the next turn are loaded, and pass the constructor's checks. -/
def MemoriesLoad (floatOfText : PyStr → Option PyFloat) (db : Db) : Prop :=
  ∃ memories, loadLocalMemories floatOfText db = .ok memories ∧ ∀ m ∈ memories, checkMemory m = .ok ()

theorem exists_loadContext {floatOfText : PyStr → Option PyFloat} {limit : HistoryLimit}
    {state : LoadedUserState} {db : Db} :
    (∃ d, loadContext floatOfText limit state db = .ok d) ↔
      (∀ r ∈ window limit db, Readable r) ∧ MemoriesLoad floatOfText db := by
  constructor
  · rintro ⟨d, h⟩
    simp only [loadContext, bind_ok_iff, mapError_ok, loadRecentHistory_eq_ok] at h
    obtain ⟨_, ⟨hshort, rfl⟩, memories, hmemories, hcreate⟩ := h
    obtain ⟨hrows, hchecked⟩ := LoadedContextData.exists_create.mp ⟨d, hcreate⟩
    exact ⟨fun r hr => ⟨hshort r hr, hrows _ (List.mem_map_of_mem hr)⟩, memories, hmemories, hchecked⟩
  · rintro ⟨hreadable, memories, hmemories, hchecked⟩
    obtain ⟨d, hd⟩ : ∃ d, LoadedContextData.create ((window limit db).map asHistoryRow) memories
        state.userProfile (state.personaConfig.getD []) = .ok d :=
      LoadedContextData.exists_create.mpr
        ⟨List.forall_mem_map.mpr fun r hr => (hreadable r hr).2, hchecked⟩
    refine ⟨d, ?_⟩
    simp only [loadContext, bind_ok_iff, mapError_ok, loadRecentHistory_eq_ok]
    exact ⟨_, ⟨fun r hr => (hreadable r hr).1, rfl⟩, memories, hmemories, hd⟩

/-- `_load_state` and `_load_context` of the next turn return. -/
def ContextLoads (floatOfText : PyStr → Option PyFloat) (limit : HistoryLimit) (ck : Clock) (db : Db) :
    Prop :=
  ∃ state d, loadUserState ck db = .ok state ∧ loadContext floatOfText limit state db = .ok d

theorem contextLoads_iff {floatOfText : PyStr → Option PyFloat} {limit : HistoryLimit} {ck : Clock}
    {db : Db} : ContextLoads floatOfText limit ck db ↔ (∃ state, loadUserState ck db = .ok state) ∧
      (∀ r ∈ window limit db, Readable r) ∧ MemoriesLoad floatOfText db := by
  constructor
  · rintro ⟨state, d, hstate, hd⟩
    exact ⟨⟨state, hstate⟩, exists_loadContext.mp ⟨d, hd⟩⟩
  · rintro ⟨⟨state, hstate⟩, h⟩
    obtain ⟨d, hd⟩ := exists_loadContext.mpr h
    exact ⟨state, d, hstate, hd⟩

/-! ## After an import -/

/-- What the window holds after others were added, it held before, if it was there. -/
theorem mem_window_append {limit : HistoryLimit} {db d : Db} {added : List (Nat × ChatLog)}
    (hrows : d.chatLogs.rows = db.chatLogs.rows ++ added) {r : Nat × ChatLog}
    (hr : r ∈ db.chatLogs.rows) (h : r ∈ window limit d) : r ∈ window limit db := by
  have hkeys := chatOrder_nodup d
  rw [window, List.mem_reverse, hrows] at h
  rw [hrows] at hkeys
  exact List.mem_reverse.mpr (mem_newest_of_append hkeys hr h)

/-- The messages of an import that the next turn would choke on. -/
def Unreadable (r : Nat × ChatLog) : Prop :=
  blank r.2.content = true ∨
    ∀ t, parseTimestamp .invalidLoadedDataHistoryTimestamp r.2.createdAt ≠ .ok t

/-- **What makes a store usable after an import** of the messages `added`: those over the readers'
length have 500 newer ones, wherever they come from, and the unreadable ones that were added have
as many newer ones as the window is long. -/
structure ImportReadable (limit : HistoryLimit) (rows added : List (Nat × ChatLog)) : Prop where
  short : ∀ r ∈ rows ++ added, ¬ Short r → 500 ≤ newer (rows ++ added) r
  shown : ∀ r ∈ added, Unreadable r → limit.val ≤ newer (rows ++ added) r

theorem checkRow_eq_ok {db : Db} {r : Nat × ChatLog} (hr : r ∈ db.chatLogs.rows) :
    checkRow (asHistoryRow r) = .ok () ↔ ¬ Unreadable r := by
  have hid : decide (0 < r.1) = true := decide_eq_true (db.chatLogs.bound r hr).1
  simp only [checkRow, asHistoryRow, bind_ok_iff, check_eq_ok, Bool.not_eq_true', Unreadable,
    not_or, not_forall, not_not, Bool.not_eq_true]
  constructor
  · rintro ⟨_, hblank, _, _, t, ht, _⟩
    exact ⟨hblank, t, ht⟩
  · rintro ⟨hblank, t, ht⟩
    exact ⟨(), hblank, (), hid, t, ht, rfl⟩

variable {sha256 : PyStr → PyStr}

/-- **After an import the history and the context load exactly if what was imported is readable or
old.** -/
theorem usable_after_import_iff {env : Env} {fixture : PyVal} {turns : List LegacyTurn}
    {s s' : LocalStore} {rep : ImportReport} (hvalid : validateLegacyFixture fixture = .ok turns)
    (himport : exec sha256 env (.importLegacyFixture fixture) s = (.ok (.imported rep), s'))
    {floatOfText : PyStr → Option PyFloat} {limit : HistoryLimit} {ck : Clock}
    (hbefore : ContextLoads floatOfText limit ck s.db) :
    ((∀ n : HistoryLimit, ∃ rows, loadRecentHistory (.int n.val) s'.db = .ok rows) ∧
        ContextLoads floatOfText limit ck s'.db) ↔
      ImportReadable limit s.db.chatLogs.rows
        ((s.db.newTurns turns).flatMap (importedMessages env.clock.now.text)) := by
  obtain ⟨turns', i, k, hvalid', _, hpasses, _⟩ := import_passes himport
  rw [hvalid] at hvalid'
  cases hvalid'
  have hrows := hpasses.chatLogs
  obtain ⟨hprofile, hmemories⟩ := hpasses.frame
  have hstate : loadUserState ck s'.db = loadUserState ck s.db := by rw [loadUserState, hprofile]; rfl
  have hload : MemoriesLoad floatOfText s'.db ↔ MemoriesLoad floatOfText s.db := by
    simp only [MemoriesLoad, loadLocalMemories, loadRecentMemories, hmemories]
  obtain ⟨hstate', hwindow, hmem⟩ := contextLoads_iff.mp hbefore
  rw [exists_loadRecentHistory_all, contextLoads_iff, hstate, hload, hrows]
  constructor
  · rintro ⟨hshort, _, hreadable, _⟩
    refine ⟨hshort, fun r hr hunreadable => ?_⟩
    by_contra hlt
    have hmem' : r ∈ s'.db.chatLogs.rows := by rw [hrows]; exact List.mem_append_right _ hr
    have hin : r ∈ window limit s'.db := by
      refine mem_window_newer.mpr ⟨hmem', ?_⟩
      rw [hrows]
      exact Nat.lt_of_not_le hlt
    exact (checkRow_eq_ok hmem').mp (hreadable r hin).2 hunreadable
  · rintro ⟨hshort, hshown⟩
    refine ⟨hshort, hstate', fun r hr => ?_, hmem⟩
    obtain ⟨hmem', hlt⟩ := mem_window_newer.mp hr
    rw [hrows] at hlt
    rcases List.mem_append.mp (hrows ▸ hmem') with hold | hadded
    · exact hwindow r (mem_window_append hrows hold hr)
    · have hlimit := limit.ok
      refine ⟨?_, (checkRow_eq_ok hmem').mpr fun hunreadable => ?_⟩
      · by_contra hlong
        have := hshort r (List.mem_append_right _ hadded) hlong
        omega
      · exact absurd (hshown r hadded hunreadable) (Nat.not_le_of_lt hlt)

/-! ## Two dates -/

/-- Before anything happened the context loads. -/
theorem contextLoads_init (floatOfText : PyStr → Option PyFloat) (limit : HistoryLimit) (ck : Clock) :
    ContextLoads floatOfText limit ck LocalStore.init.db := by
  refine contextLoads_iff.mpr ⟨contextInv_empty.loadUserState ck, ?_, [],
    contextInv_empty.loadLocalMemories floatOfText, List.forall_mem_nil _⟩
  intro r hr
  exact absurd (mem_window_newer.mp hr).1 List.not_mem_nil

theorem datedStore_newTurns (createdAt : PyStr) :
    (LocalStore.init.db.newTurns [datedTurn (py "ok") createdAt]).flatMap
      (importedMessages sampleEnv.clock.now.text) =
      [(1, ⟨.user, py "oi", (datedTurn (py "ok") createdAt).created sampleEnv.clock.now.text⟩),
        (2, ⟨.assistant, py "ok", (datedTurn (py "ok") createdAt).created sampleEnv.clock.now.text⟩)] := rfl

theorem usable_after_import_iff_dated :
    (∀ n : HistoryLimit, ∃ rows, loadRecentHistory (.int n.val) datedStore.db = .ok rows) ∧
      ContextLoads (fun _ => none) .default sampleEnv.clock datedStore.db := by
  refine (usable_after_import_iff (validate_datedOk _) datedStore_import (contextLoads_init _ _ _)).mpr ?_
  rw [datedStore_newTurns]
  have hparse : (parseTimestamp .invalidLoadedDataHistoryTimestamp (py "2020-01-01T00:00:00Z")).isOk = true := by
    decide +kernel
  obtain ⟨t, ht⟩ := exists_of_isOk hparse
  constructor
  · intro r hr hlong
    refine absurd ?_ hlong
    simp only [List.mem_append, List.mem_cons, List.not_mem_nil, or_false] at hr
    rcases hr with hr | rfl | rfl
    · cases hr
    · exact (by decide : (2 : Nat) ≤ maxMessageLength)
    · exact (by decide : (2 : Nat) ≤ maxMessageLength)
  · intro r hr hunreadable
    exfalso
    simp only [List.mem_cons, List.not_mem_nil, or_false] at hr
    rcases hr with rfl | rfl <;> rcases hunreadable with hblank | htime
    · cases hblank
    · exact htime t ht
    · cases hblank
    · exact htime t ht

/-- **A fixture dated "ontem" is accepted, and no later turn loads its context.** -/
theorem undated_import_blocks_turns :
    ContextLoads (fun _ => none) .default sampleEnv.clock LocalStore.init.db ∧
      importReport (exec sampleSha256 sampleEnv
        (.importLegacyFixture (datedFixture (py "ok") (py "ontem"))) .init).1 = some ⟨1, 0, 1⟩ ∧
      ¬ ContextLoads (fun _ => none) .default sampleEnv.clock (exec sampleSha256 sampleEnv
        (.importLegacyFixture (datedFixture (py "ok") (py "ontem"))) .init).2.db := by
  refine ⟨contextLoads_init _ _ _, by decide +kernel, fun h => ?_⟩
  obtain ⟨_, hreadable, _⟩ := contextLoads_iff.mp h
  have hin : ((2, ⟨.assistant, py "ok", py "ontem"⟩) : Nat × ChatLog) ∈ window .default
      (exec sampleSha256 sampleEnv (.importLegacyFixture (datedFixture (py "ok") (py "ontem"))) .init).2.db := by
    decide +kernel
  have hcheck := (hreadable _ hin).2
  exact absurd hcheck (by decide +kernel)

end Katherine.Runtime
