import Katherine.Runtime.Imported

/-!
# Trimming the history

`trim_history` keeps the messages with the largest ids, `load_recent_history` shows the
latest by `created_at`, with the id to break ties. Ids are handed out in the order of
insertion, so the two agree as long as no message is older than one inserted before it
(`trim_keeps_window_iff`). A clock that went back, or an import of old messages, makes
them disagree: the trim then removes messages the window shows.
-/

namespace Katherine.Runtime

open Py Sql Local Context

/-! ## What a trim leaves -/

/-- The `n` rows with the largest ids come last. -/
theorem beyond_of_mem_take {db : Db} {n : Nat} {a : Nat × ChatLog}
    (ha : a ∈ db.chatLogs.rows.take (db.chatLogs.rows.length - n)) : db.beyond n a = true := by
  have hsplit := List.take_append_drop (db.chatLogs.rows.length - n) db.chatLogs.rows
  have hsorted := db.chatLogs.sorted
  rw [← hsplit, List.pairwise_append] at hsorted
  rw [Db.beyond, List.take_reverse, List.length_map, Bool.not_eq_true', ← List.map_drop,
    List.contains_eq_any_beq, List.any_eq_false]
  intro i hi
  obtain ⟨b, hb, rfl⟩ := List.mem_map.mp (List.mem_reverse.mp hi)
  have := hsorted.2.2 a ha b hb
  simp only [beq_iff_eq]
  omega

theorem beyond_of_mem_drop {db : Db} {n : Nat} {b : Nat × ChatLog}
    (hb : b ∈ db.chatLogs.rows.drop (db.chatLogs.rows.length - n)) : db.beyond n b = false := by
  rw [Db.beyond, List.take_reverse, List.length_map, Bool.not_eq_false', ← List.map_drop,
    List.contains_iff_mem, List.mem_reverse]
  exact List.mem_map_of_mem hb

/-- **What remains are the last `n` rows.** -/
theorem trim_rows (db : Db) (n : Nat) :
    (db.trim n).chatLogs.rows = db.chatLogs.rows.drop (db.chatLogs.rows.length - n) := by
  show (db.chatLogs.rows.filter fun r => !db.beyond n r) = _
  conv_lhs => rw [← List.take_append_drop (db.chatLogs.rows.length - n) db.chatLogs.rows]
  rw [List.filter_append]
  have htake : ((db.chatLogs.rows.take (db.chatLogs.rows.length - n)).filter fun r => !db.beyond n r) = [] := by
    refine List.filter_eq_nil_iff.mpr fun a ha => ?_
    rw [beyond_of_mem_take ha]
    decide
  have hdrop : ((db.chatLogs.rows.drop (db.chatLogs.rows.length - n)).filter fun r => !db.beyond n r) =
      db.chatLogs.rows.drop (db.chatLogs.rows.length - n) := by
    refine List.filter_eq_self.mpr fun b hb => ?_
    rw [beyond_of_mem_drop hb]
    rfl
  rw [htake, hdrop, List.nil_append]

theorem length_trim (db : Db) (n : Nat) :
    (db.trim n).chatLogs.rows.length = min n db.chatLogs.rows.length := by
  rw [trim_rows, List.length_drop]
  omega

/-- No message that a trim removes is later than one it keeps. Rows are in the order of their
ids. -/
def TrimsOldest (n : Nat) (db : Db) : Prop :=
  ∀ a ∈ db.chatLogs.rows.take (db.chatLogs.rows.length - n),
    ∀ b ∈ db.chatLogs.rows.drop (db.chatLogs.rows.length - n), a.2.createdAt ≤ b.2.createdAt

/-- For two rows in the order of ids, time decides. -/
theorem chatOrder_lt_iff {a b : Nat × ChatLog} (h : a.1 < b.1) :
    chatOrder a < chatOrder b ↔ a.2.createdAt ≤ b.2.createdAt := by
  rw [chatOrder, chatOrder, Prod.Lex.toLex_lt_toLex, le_iff_lt_or_eq]
  simp only [h, and_true]

/-- **The rows of the window are those that a trim keeps exactly if it removes the oldest.** -/
theorem trim_eq_window_iff {limit : HistoryLimit} {db : Db} :
    (db.trim limit.val).chatLogs.rows.Perm (newest chatOrder limit.val db.chatLogs.rows) ↔
      TrimsOldest limit.val db := by
  have hkeys := chatOrder_nodup db
  have hsplit := List.take_append_drop (db.chatLogs.rows.length - limit.val) db.chatLogs.rows
  have hsorted := db.chatLogs.sorted
  rw [← hsplit, List.pairwise_append] at hsorted
  have hkept : (db.trim limit.val).chatLogs.rows =
      db.chatLogs.rows.filter fun r => !db.beyond limit.val r := rfl
  have hcount : (db.chatLogs.rows.countP fun r => !db.beyond limit.val r) =
      min limit.val db.chatLogs.rows.length := by
    rw [List.countP_eq_length_filter, ← hkept, length_trim]
  have habove := newest_iff_above hkeys hcount
  have hold : (∀ a ∈ db.chatLogs.rows, (!db.beyond limit.val a) = false → ∀ b ∈ db.chatLogs.rows,
      (!db.beyond limit.val b) = true → chatOrder a < chatOrder b) ↔ TrimsOldest limit.val db := by
    constructor
    · intro h a ha b hb
      refine (chatOrder_lt_iff (hsorted.2.2 a ha b hb)).mp
        (h a (List.mem_of_mem_take ha) ?_ b (List.mem_of_mem_drop hb) ?_)
      · rw [beyond_of_mem_take ha]
        rfl
      · rw [beyond_of_mem_drop hb]
        rfl
    · intro h a ha hbeyond b hb hnot
      rw [← hsplit, List.mem_append] at ha hb
      rcases ha with ha | ha
      · rcases hb with hb | hb
        · rw [beyond_of_mem_take hb] at hnot
          cases hnot
        · exact (chatOrder_lt_iff (hsorted.2.2 a ha b hb)).mpr (h a ha b hb)
      · rw [beyond_of_mem_drop ha] at hbeyond
        cases hbeyond
  rw [← hold, ← habove]
  constructor
  · intro hperm r hr
    rw [← hperm.mem_iff, hkept, List.mem_filter]
    exact and_iff_right hr
  · intro h
    have hnodup : (newest chatOrder limit.val db.chatLogs.rows).Nodup :=
      ((descending_sort hkeys).sublist (List.take_sublist _ _)).imp fun h he => by
        rw [he] at h
        exact absurd h (lt_irrefl _)
    have hnodup' : (db.trim limit.val).chatLogs.rows.Nodup :=
      (db.trim limit.val).chatLogs.sorted.imp fun h he => by
        rw [he] at h
        exact absurd h (lt_irrefl _)
    rw [List.perm_ext_iff_of_nodup hnodup' hnodup]
    intro r
    rw [hkept, List.mem_filter]
    constructor
    · rintro ⟨hr, hp⟩
      exact (h r hr).mpr hp
    · intro hr
      have hmem := newest_subset hr
      exact ⟨hmem, (h r hmem).mp hr⟩

/-! ## The window around a trim -/

variable {sha256 : PyStr → PyStr}

/-- **What the window showed is what the trim leaves**: `load_recent_history(n)`, then
`trim_history(n)`, then `load_recent_history(n)`. -/
def KeepsWindow (sha256 : PyStr → PyStr) (env : Env) (n : HistoryLimit) (s : LocalStore) : Prop :=
  ∃ rows remaining s', loadRecentHistory (.int n.val) (s.view env.thread) = .ok rows ∧
    exec sha256 env (.trimHistory (.int n.val)) s = (.ok (.trimmed remaining), s') ∧
    (s'.db.chatLogs.rows.map asHistoryRow).Perm rows ∧
    loadRecentHistory (.int n.val) s'.db = .ok rows ∧ remaining = rows.length

/-- The row a message was read from. -/
def ofHistoryRow (h : HistoryRow) : Nat × ChatLog := (h.id, ⟨h.role, h.content, h.createdAt⟩)

theorem map_ofHistoryRow (rows : List (Nat × ChatLog)) : (rows.map asHistoryRow).map ofHistoryRow = rows := by
  rw [List.map_map]
  exact List.map_id rows

theorem exec_trimHistory {env : Env} {n : HistoryLimit} {s : LocalStore} (hidle : s.tx = none)
    (hfault : env.fault = .none) : exec sha256 env (.trimHistory (.int n.val)) s =
      (.ok (.trimmed (min s.db.chatLogs.rows.length n.val)), ⟨s.db.trim n.val, none⟩) := by
  have hn := n.ok
  have harg : PyVal.nat? (.int n.val) = some n.val := by
    have hle : (0 : Int) ≤ n.val := by omega
    rw [PyVal.nat?, if_pos hle]
    rfl
  have hbound : bindInt n.val = .ok () := by
    refine bindInt_ok ?_
    omega
  simp only [exec, perform, harg, orRaise, Block.run, hidle, hfault, trimBlock, hbound, Outcome.attempt_ok]
  rfl

/-- With a transaction open the trim cannot begin. -/
theorem exec_trimHistory_open {env : Env} {n : PyVal} {s s' : LocalStore} {x : Nat × Db} {m : Nat}
    (hopen : s.tx = some x) : exec sha256 env (.trimHistory n) s ≠ (.ok (.trimmed m), s') := by
  intro h
  rw [exec] at h
  obtain ⟨_, _, _, _, hidle, _⟩ := perform_ok h
  rw [hopen] at hidle
  cases hidle

/-- **A trim keeps what the window shows exactly if it removes the oldest.** -/
theorem trim_keeps_window_iff {env : Env} {n : HistoryLimit} {s : LocalStore}
    (hfault : env.fault = .none) : KeepsWindow sha256 env n s ↔
      s.tx = none ∧ (∀ r ∈ s.db.chatLogs.rows, ¬ Short r → n.val ≤ newer s.db.chatLogs.rows r) ∧
        TrimsOldest n.val s.db := by
  cases htx : s.tx with
  | some x =>
      refine iff_of_false ?_ (fun h => nomatch h.1)
      rintro ⟨_, _, _, _, htrim, _⟩
      exact exec_trimHistory_open htx htrim
  | none =>
      have hview : s.view env.thread = s.db := by simp only [Store.view, htx]
      rw [KeepsWindow, hview, exec_trimHistory htx hfault, ← exists_loadRecentHistory, ← trim_eq_window_iff]
      simp only [true_and]
      constructor
      · rintro ⟨rows, remaining, s', hload, htrim, hperm, -, -⟩
        cases htrim
        refine ⟨⟨rows, hload⟩, ?_⟩
        obtain ⟨-, rfl⟩ := loadRecentHistory_eq_ok.mp hload
        have hperm := hperm.map ofHistoryRow
        rw [map_ofHistoryRow, map_ofHistoryRow] at hperm
        exact hperm.trans (List.reverse_perm _)
      · rintro ⟨⟨rows, hload⟩, hperm⟩
        obtain ⟨hshort, rfl⟩ := loadRecentHistory_eq_ok.mp hload
        have hwindow : window n (s.db.trim n.val) = window n s.db := by
          rw [window, window, newest_of_perm (chatOrder_nodup s.db) hperm]
        refine ⟨_, _, _, hload, rfl, ?_, ?_, ?_⟩
        · exact (hperm.trans (List.reverse_perm _).symm).map _
        · refine loadRecentHistory_eq_ok.mpr ⟨?_, ?_⟩
          · rw [hwindow]
            exact hshort
          · rw [hwindow]
        · rw [List.length_map, window, List.length_reverse, length_newest, Nat.min_comm]

/-! ## Old messages, imported late -/

theorem trim_keeps_window_iff_dated : KeepsWindow sampleSha256 sampleEnv ⟨1, by decide⟩ datedStore := by
  have hshort : (datedStore.db.chatLogs.rows.all fun r => decide (r.2.content.length ≤ maxMessageLength)) =
      true := by decide +kernel
  have hsame : (datedStore.db.chatLogs.rows.all fun r =>
      decide (r.2.createdAt = py "2020-01-01T00:00:00Z")) = true := by decide +kernel
  refine (trim_keeps_window_iff rfl).mpr ⟨(datedStore_digest []).1, fun r hr hlong => ?_, fun a ha b hb => ?_⟩
  · exact absurd (of_decide_eq_true (List.all_eq_true.mp hshort r hr)) hlong
  · rw [of_decide_eq_true (List.all_eq_true.mp hsame a (List.mem_of_mem_take ha)),
      of_decide_eq_true (List.all_eq_true.mp hsame b (List.mem_of_mem_drop hb))]

/-- A turn, and then an import of a turn of 2020. -/
def lateImport : List (Env × Call) := [sampleReserve, sampleCommit, datedImport]

/-- The ids of a window. -/
def historyIds : Except Err (List HistoryRow) → Option (List Nat)
  | .ok rows => some (rows.map (·.id))
  | .error _ => none

/-- **The trim keeps the imported messages, and removes those the window showed.** -/
theorem trim_after_import_removes_window :
    Reachable sampleSha256 (execAll sampleSha256 lateImport .init) ∧
      historyIds (loadRecentHistory (.int 2) (execAll sampleSha256 lateImport .init).db) = some [1, 2] ∧
      historyIds (loadRecentHistory (.int 2) (exec sampleSha256 sampleEnv (.trimHistory (.int 2))
        (execAll sampleSha256 lateImport .init)).2.db) = some [3, 4] ∧
      ¬ KeepsWindow sampleSha256 sampleEnv ⟨2, by decide⟩ (execAll sampleSha256 lateImport .init) := by
  have hbefore : historyIds (loadRecentHistory (.int 2)
      ((execAll sampleSha256 lateImport .init).view 0)) = some [1, 2] := by decide +kernel
  have hafter : historyIds (loadRecentHistory (.int 2) (exec sampleSha256 sampleEnv (.trimHistory (.int 2))
      (execAll sampleSha256 lateImport .init)).2.db) = some [3, 4] := by decide +kernel
  refine ⟨⟨_, run_trace lateImport .init⟩, by decide +kernel, hafter, ?_⟩
  rintro ⟨rows, remaining, s', hload, htrim, -, hreload, -⟩
  have hstore : s' = (exec sampleSha256 sampleEnv (.trimHistory (.int 2))
      (execAll sampleSha256 lateImport .init)).2 := (congrArg Prod.snd htrim).symm
  have hids : historyIds (loadRecentHistory (.int 2) ((execAll sampleSha256 lateImport .init).view 0)) =
      some (rows.map (·.id)) := congrArg historyIds hload
  have hids' : historyIds (loadRecentHistory (.int 2) s'.db) = some (rows.map (·.id)) :=
    congrArg historyIds hreload
  rw [hstore, hafter] at hids'
  rw [hbefore, ← hids'] at hids
  exact absurd hids (by decide)

end Katherine.Runtime
