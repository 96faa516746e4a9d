import Katherine.Cloud.Admission
import Katherine.Lib.Best

/-!
# Retention

The purges of `Admission.lean`, and one round of `RetentionRunner` of `backend/retention.py`
over them. A purge deletes a batch of the oldest rows that are older than its cutoff, which
is the caller's or the horizon that the database's clock gives, whichever is earlier.

A round goes from category to category. Within one it purges batch after batch, until a
batch is short or the ceiling is reached; a category ends with nothing older than the cutoff
left, or with the ceiling reached and overshot by less than a batch.
-/

namespace Katherine.Cloud

open Py Sql Pg

/-! ## The round -/

/-- `RetentionPolicy`. -/
structure RetentionPolicy where
  schemaVersion : Int := 1
  admissionReservationsHorizon : Int := hours 24
  privacyOperationsHorizon : Int := days 30

def retentionMaxBatchSize : Nat := 1000

/-- `RetentionConfig`, less the timeout. -/
structure RetentionConfig where
  batchSize : Nat := 500
  maxRowsPerCategory : Nat := 10000
  batchSize_ok : 1 ≤ batchSize ∧ batchSize ≤ retentionMaxBatchSize
  maxRows_ok : batchSize ≤ maxRowsPerCategory

inductive RetentionCategory
  | admissionReservations
  | privacyOperations
  | outboxEvents
deriving DecidableEq

/-- `retention_cutoffs`. -/
def RetentionPolicy.cutoff (policy : RetentionPolicy) (now : Timestamp) :
    RetentionCategory → Timestamp
  | .admissionReservations => now - policy.admissionReservationsHorizon
  | .privacyOperations => now - policy.privacyOperationsHorizon
  | .outboxEvents => now

structure CategoryResult where
  category : RetentionCategory
  purged : Nat
  batches : Nat
deriving DecidableEq

structure RetentionRunResult where
  schemaVersion : Int
  results : List CategoryResult
  totalPurged : Nat

/-- `RetentionRunResult.build`. -/
def RetentionRunResult.build (schemaVersion : Int) (results : List CategoryResult) :
    RetentionRunResult :=
  ⟨schemaVersion, results, (results.map (·.purged)).sum⟩

section

variable {σ : Type} (config : RetentionConfig) (category : RetentionCategory)

/-- The loop of `_purge_category`; `none` is an exception of a purge. -/
def purgeCategory (purge : Nat → σ → Option Nat × σ) (total batches : Nat) (s : σ) :
    Option CategoryResult × σ :=
  if total < config.maxRowsPerCategory then
    match purge batches s with
    | (none, s) => (none, s)
    | (some count, s) =>
        if count < config.batchSize then (some ⟨category, total + count, batches + 1⟩, s)
        else purgeCategory purge (total + count) (batches + 1) s
  else (some ⟨category, total, batches⟩, s)
-- a batch that is not short has a row at least
termination_by config.maxRowsPerCategory - total
decreasing_by
  have := config.batchSize_ok.1
  omega

end

/-- What no clock and no key decides: the order among equally old rows, in each batch of a round. -/
structure TieOrders where
  admissions : Nat → AdmissionReservation → Nat
  privacy : Nat → PrivacyOperation → Nat
  outbox : Nat → OutboxEvent → Nat

/-- `run_once`, with the database's clock standing still; `now` is the runner's own. -/
def runRetention (policy : RetentionPolicy) (config : RetentionConfig) (now clock : Timestamp)
    (ties : TieOrders) (db : Db) : Option RetentionRunResult × Db :=
  let args := fun category => PurgeArgs.mk (some (policy.cutoff now category)) (some config.batchSize)
  match purgeCategory config .admissionReservations (fun i => purgeAdmissionReservations clock
      (ties.admissions i) (args .admissionReservations)) 0 0 db with
  | (none, db) => (none, db)
  | (some admissions, db) =>
      match purgeCategory config .privacyOperations (fun i => purgePrivacyOperations clock
          (ties.privacy i) (args .privacyOperations)) 0 0 db with
      | (none, db) => (none, db)
      | (some privacy, db) =>
          match purgeCategory config .outboxEvents (fun i => purgeOutboxEvents clock
              (ties.outbox i) (args .outboxEvents)) 0 0 db with
          | (none, db) => (none, db)
          | (some outbox, db) =>
              (some (.build policy.schemaVersion [admissions, privacy, outbox]), db)

/-! ## One purge -/

section

variable {ρ : Type} {time : ρ → Option Timestamp}

/-- The row is older than `cutoff`. -/
def OlderThan (time : ρ → Option Timestamp) (cutoff : Timestamp) (r : ρ) : Prop :=
  ∃ t, time r = some t ∧ t < cutoff

/-- `a` is not the younger of two rows that have a time. -/
def NotYounger (time : ρ → Option Timestamp) (a b : ρ) : Prop :=
  ∀ t t', time a = some t → time b = some t' → t ≤ t'

/-- `gone` was deleted, in that order: rows older than `cutoff`, the oldest first, and none of
them younger than a row that could have gone and stayed. -/
structure PurgedRows (time : ρ → Option Timestamp) (cutoff : Timestamp) (rows gone rows' : List ρ) :
    Prop where
  perm : rows.Perm (gone ++ rows')
  old : ∀ r ∈ gone, OlderThan time cutoff r
  order : gone.Pairwise (NotYounger time)
  oldest : ∀ r ∈ gone, ∀ r' ∈ rows', OlderThan time cutoff r' → NotYounger time r r'

theorem PurgedRows.nil (cutoff : Timestamp) (rows : List ρ) : PurgedRows time cutoff rows [] rows :=
  ⟨.refl _, by simp, .nil, by simp⟩

/-- A purge after another. -/
theorem PurgedRows.trans {cutoff : Timestamp} {rows gone rows' gone' rows'' : List ρ}
    (h : PurgedRows time cutoff rows gone rows') (h' : PurgedRows time cutoff rows' gone' rows'') :
    PurgedRows time cutoff rows (gone ++ gone') rows'' where
  perm := by
    rw [List.append_assoc]
    exact h.perm.trans (h'.perm.append_left gone)
  old r hr := (List.mem_append.mp hr).elim (h.old r) (h'.old r)
  order := by
    refine List.pairwise_append.mpr ⟨h.order, h'.order, fun r hr r' hr' => ?_⟩
    -- the second purge takes its rows from what the first left
    have : r' ∈ rows' := h'.perm.mem_iff.mpr (List.mem_append_left _ hr')
    exact h.oldest r hr r' this (h'.old r' hr')
  oldest r hr r' hr' := by
    rcases List.mem_append.mp hr with hr | hr
    · exact h.oldest r hr r' (h'.perm.mem_iff.mpr (List.mem_append_right _ hr'))
    · exact h'.oldest r hr r' hr'

/-- The order `oldest` sorts by. -/
def byAge (key : ρ → Timestamp) (prio : ρ → Nat) (a b : ρ) : Prop :=
  key a < key b ∨ key a = key b ∧ prio a ≤ prio b

instance (key : ρ → Timestamp) (prio : ρ → Nat) : DecidableRel (byAge key prio) :=
  fun _ _ => inferInstanceAs (Decidable (_ ∨ _))

/-- `ORDER BY key LIMIT n` returns none that is younger than one that it leaves out. -/
theorem oldest_split (key : ρ → Timestamp) (prio : ρ → Nat) (n : Nat) (rows : List ρ) :
    ∃ left, rows.Perm (oldest key prio n rows ++ left) ∧
      (oldest key prio n rows).Pairwise (key · ≤ key ·) ∧
      (∀ a ∈ oldest key prio n rows, ∀ b ∈ left, key a ≤ key b) ∧
      ((oldest key prio n rows).length < n → left = []) := by
  have htotal : Std.Total (byAge key prio) := ⟨fun a b => by grind [byAge]⟩
  have htrans : IsTrans ρ (byAge key prio) := ⟨fun a b c => by grind [byAge]⟩
  have hle : ∀ {a b}, byAge key prio a b → key a ≤ key b := by
    rintro a b (h | ⟨h, -⟩)
    · exact le_of_lt h
    · exact le_of_eq h
  obtain ⟨left, hperm, hbest, hshort⟩ := @Best.top_split _ (byAge key prio) _ _ _ n rows
  refine ⟨left, hperm, ?_, fun a ha b hb => hle (hbest a ha b hb), hshort⟩
  exact (@Best.pairwise_top _ (byAge key prio) _ n rows _ _).imp hle

/-- **One purge**: what it deletes, where `p` picks out its victims. -/
theorem purgeVictims_purged {cutoff : Timestamp} {prio : ρ → Nat} {n : Nat} {rows : List ρ}
    {p : ρ → Bool} (hnodup : rows.Nodup)
    (hp : ∀ r ∈ rows, p r = true ↔ r ∈ purgeVictims time prio cutoff n rows) :
    PurgedRows time cutoff rows (purgeVictims time prio cutoff n rows) (rows.filter fun r => !p r) ∧
      (purgeVictims time prio cutoff n rows).length ≤ n ∧
      ((purgeVictims time prio cutoff n rows).length < n →
        ∀ r ∈ rows.filter fun r => !p r, ¬ OlderThan time cutoff r) := by
  obtain ⟨left, hperm, horder, hle, hshort⟩ := oldest_split (fun r => (time r).getD 0) prio n
    (rows.filter fun r => (time r).any fun t => decide (t < cutoff))
  -- what stays and is old enough was left out by the limit
  have hleft : ∀ r ∈ rows.filter (fun r => !p r), OlderThan time cutoff r → r ∈ left := by
    rintro r hr ⟨t, ht, hlt⟩
    obtain ⟨hr, hkept⟩ := List.mem_filter.mp hr
    have : r ∈ rows.filter fun r => (time r).any fun t => decide (t < cutoff) :=
      List.mem_filter.mpr ⟨hr, by simp [ht, hlt]⟩
    rcases List.mem_append.mp (hperm.mem_iff.mp this) with h | h
    · rw [(hp r hr).mpr h] at hkept
      cases hkept
    · exact h
  have hgone : (rows.filter p).Perm (purgeVictims time prio cutoff n rows) := by
    have hv : (purgeVictims time prio cutoff n rows).Nodup :=
      (List.nodup_append.mp (hperm.nodup_iff.mp (hnodup.filter _))).1
    refine (List.perm_ext_iff_of_nodup (hnodup.filter _) hv).mpr fun r => ?_
    rw [List.mem_filter]
    refine ⟨fun ⟨hr, h⟩ => (hp r hr).mp h, fun h => ?_⟩
    have hr := (mem_purgeVictims h).1
    exact ⟨hr, (hp r hr).mpr h⟩
  have hyounger : ∀ {a b : ρ}, (time a).getD 0 ≤ (time b).getD 0 → NotYounger time a b := by
    intro a b h t t' ht ht'
    simpa [ht, ht'] using h
  refine ⟨⟨?_, fun r hr => (mem_purgeVictims hr).2, horder.imp hyounger, ?_⟩,
    List.length_take_le _ _, ?_⟩
  · exact (List.filter_append_perm p rows).symm.trans (hgone.append_right _)
  · intro r hr r' hr' hold
    exact hyounger (hle r hr r' (hleft r' hr' hold))
  · intro hlength r hr hold
    have := hleft r hr hold
    rw [hshort hlength] at this
    cases this

end

/-! ## One call -/

/-- A table of the database. -/
structure TableOf (ρ κ : Type) (key : ρ → κ) where
  get : Db → Table ρ κ key
  set : Table ρ κ key → Db → Db
  get_set : ∀ t db, get (set t db) = t
  set_get : ∀ db, set (get db) db = db
  set_set : ∀ t t' db, set t' (set t db) = set t' db

def TableOf.admissionReservations :
    TableOf AdmissionReservation (PyStr × Uuid) fun r => (r.userId, r.requestId) where
  get := Db.admissionReservations
  set t db := { db with admissionReservations := t }
  get_set _ _ := rfl
  set_get _ := rfl
  set_set _ _ _ := rfl

def TableOf.privacyOperations :
    TableOf PrivacyOperation (PyStr × Uuid) fun r => (r.userId, r.operationId) where
  get := Db.privacyOperations
  set t db := { db with privacyOperations := t }
  get_set _ _ := rfl
  set_get _ := rfl
  set_set _ _ _ := rfl

def TableOf.outboxEvents : TableOf OutboxEvent Uuid OutboxEvent.id where
  get := Db.outboxEvents
  set t db := { db with outboxEvents := t }
  get_set _ _ := rfl
  set_get _ := rfl
  set_set _ _ _ := rfl

section

variable {ρ κ : Type} {key : ρ → κ}

/-- One call of a purge of `table`: refused, or a batch of the rows that are older than the
caller's cutoff and the horizon. A batch is short only when no such row is left. -/
inductive PurgeCall (table : TableOf ρ κ key) (time : ρ → Option Timestamp) (horizon : Timestamp)
    (a : PurgeArgs) (db : Db) : Option Nat × Db → Prop
  | refused : validatePurge a = none → PurgeCall table time horizon a db (none, db)
  | purged {cutoff : Timestamp} {n : Nat} {gone : List ρ} {t : Table ρ κ key} :
      validatePurge a = some (cutoff, n) →
      PurgedRows time (min cutoff horizon) (table.get db).rows gone t.rows →
      gone.length ≤ n →
      (gone.length < n → ∀ r ∈ t.rows, ¬ OlderThan time (min cutoff horizon) r) →
      PurgeCall table time horizon a db (some gone.length, table.set t db)

/-- Deleting the victims, where `p` is the `WHERE` clause that finds them again. -/
theorem PurgeCall.deleteVictims {table : TableOf ρ κ key} {time : ρ → Option Timestamp}
    {prio : ρ → Nat} {horizon cutoff : Timestamp} {a : PurgeArgs} {n : Nat} {db : Db} {p : ρ → Bool}
    (hv : validatePurge a = some (cutoff, n))
    (hp : ∀ r ∈ (table.get db).rows,
      p r = true ↔ r ∈ purgeVictims time prio (min cutoff horizon) n (table.get db).rows) :
    PurgeCall table time horizon a db
      (some (purgeVictims time prio (min cutoff horizon) n (table.get db).rows).length,
        table.set ((table.get db).deleteWhere p) db) := by
  have hnodup := List.Nodup.of_map _ (table.get db).nodup
  obtain ⟨hpurged, hlength, hshort⟩ := purgeVictims_purged hnodup hp
  exact .purged hv hpurged hlength hshort

theorem purgeAdmissionReservations_call (clock : Timestamp) (prio : AdmissionReservation → Nat)
    (a : PurgeArgs) (db : Db) :
    PurgeCall .admissionReservations (fun r => some r.reservedAt) (clock - hours 24) a db
      (purgeAdmissionReservations clock prio a db) := by
  unfold purgeAdmissionReservations
  split
  · exact .refused ‹_›
  · exact PurgeCall.deleteVictims ‹_› fun r _ => decide_eq_true_iff

theorem purgePrivacyOperations_call (clock : Timestamp) (prio : PrivacyOperation → Nat)
    (a : PurgeArgs) (db : Db) :
    PurgeCall .privacyOperations (fun r => some r.appliedAt) (clock - days 30) a db
      (purgePrivacyOperations clock prio a db) := by
  unfold purgePrivacyOperations
  split
  · exact .refused ‹_›
  · exact PurgeCall.deleteVictims ‹_› fun r _ => decide_eq_true_iff

theorem purgeOutboxEvents_call (clock : Timestamp) (prio : OutboxEvent → Nat) (a : PurgeArgs)
    (db : Db) :
    PurgeCall .outboxEvents OutboxEvent.retentionUntil clock a db
      (purgeOutboxEvents clock prio a db) := by
  unfold purgeOutboxEvents
  split
  · exact .refused ‹_›
  · refine PurgeCall.deleteVictims ‹_› fun e he => ?_
    -- the statement finds the victims again by their ids
    rw [decide_eq_true_iff, List.mem_map]
    refine ⟨fun ⟨e', he', hid⟩ => ?_, fun h => ⟨e, h, rfl⟩⟩
    rwa [← List.inj_on_of_nodup_map db.outboxEvents.nodup (mem_purgeVictims he').1 he hid]

/-- The events a purge may delete are final. -/
theorem OutboxEvent.final_of_olderThan {cutoff : Timestamp} {e : OutboxEvent}
    (h : OlderThan OutboxEvent.retentionUntil cutoff e) :
    (∃ attempts processedAt t, e.delivery = .completed attempts processedAt t ∧ t < cutoff) ∨
      ∃ code deadAt t, e.delivery = .deadLetter code deadAt t ∧ t < cutoff := by
  obtain ⟨t, ht, hlt⟩ := h
  unfold OutboxEvent.retentionUntil at ht
  split at ht <;> cases ht
  · exact .inl ⟨_, _, _, ‹_›, hlt⟩
  · exact .inr ⟨_, _, _, ‹_›, hlt⟩

/-! ## A category, and the round -/

/-- **A category**, from any point of its loop: the rows it purges, and why it ends. -/
theorem purgeCategory_purges {config : RetentionConfig} (category : RetentionCategory)
    {table : TableOf ρ κ key} {time : ρ → Option Timestamp} {horizon cutoff : Timestamp}
    {purge : Nat → Db → Option Nat × Db}
    (hpurge : ∀ i db, PurgeCall table time horizon ⟨some cutoff, some config.batchSize⟩ db
      (purge i db)) (total batches : Nat) (db : Db)
    (htotal : total < config.maxRowsPerCategory + config.batchSize) :
    ∃ gone batches' t,
      purgeCategory config category purge total batches db =
        (some ⟨category, total + gone.length, batches'⟩, table.set t db) ∧
      PurgedRows time (min cutoff horizon) (table.get db).rows gone t.rows ∧
      total + gone.length < config.maxRowsPerCategory + config.batchSize ∧
      (config.maxRowsPerCategory ≤ total + gone.length ∨
        ∀ r ∈ t.rows, ¬ OlderThan time (min cutoff horizon) r) := by
  have hvalid : validatePurge ⟨some cutoff, some config.batchSize⟩ =
      some (cutoff, config.batchSize) := by
    have := config.batchSize_ok
    simp only [retentionMaxBatchSize] at this
    simp only [validatePurge, Option.bind_eq_bind, Option.bind_some, Option.filter_some]
    rw [if_pos (by simp; omega)]
    rfl
  rw [purgeCategory]
  by_cases hmore : total < config.maxRowsPerCategory
  · rw [if_pos hmore]
    have hcall := hpurge batches db
    generalize purge batches db = out at hcall
    cases hcall with
    | refused h => rw [hvalid] at h; cases h
    | @purged _ _ gone t h hpurged hlength hshort =>
        obtain ⟨rfl, rfl⟩ := Prod.mk.inj (Option.some.inj (hvalid.symm.trans h))
        by_cases hend : gone.length < config.batchSize
        · refine ⟨gone, batches + 1, t, ?_, hpurged, by omega, .inr (hshort hend)⟩
          simp only [if_pos hend]
        · -- a full batch: the loop goes on from what it left
          have := config.batchSize_ok.1
          obtain ⟨gone', batches', t', heq, hpurged', hmax, hstop⟩ :=
            purgeCategory_purges category hpurge (total + gone.length) (batches + 1) (table.set t db) (by omega)
          rw [table.get_set] at hpurged'
          refine ⟨gone ++ gone', batches', t', ?_, hpurged.trans hpurged', ?_, ?_⟩
          · simp only [if_neg hend]
            rw [heq, table.set_set, List.length_append, Nat.add_assoc]
          · rw [List.length_append]; omega
          · rw [List.length_append, ← Nat.add_assoc]
            exact hstop
  · rw [if_neg hmore]
    refine ⟨[], batches, table.get db, ?_, .nil _ _, htotal, .inl (by omega)⟩
    rw [table.set_get]
    rfl
termination_by config.maxRowsPerCategory - total

/-- What a category does in a round. -/
structure Swept (config : RetentionConfig) (time : ρ → Option Timestamp) (cutoff : Timestamp)
    (rows gone rows' : List ρ) : Prop extends PurgedRows time cutoff rows gone rows' where
  below : gone.length < config.maxRowsPerCategory + config.batchSize
  ends : config.maxRowsPerCategory ≤ gone.length ∨ ∀ r ∈ rows', ¬ OlderThan time cutoff r

theorem purgeCategory_swept {config : RetentionConfig} (category : RetentionCategory)
    {table : TableOf ρ κ key} {time : ρ → Option Timestamp} {horizon cutoff : Timestamp}
    {purge : Nat → Db → Option Nat × Db}
    (hpurge : ∀ i db, PurgeCall table time horizon ⟨some cutoff, some config.batchSize⟩ db
      (purge i db)) (db : Db) :
    ∃ gone batches t,
      purgeCategory config category purge 0 0 db =
        (some ⟨category, gone.length, batches⟩, table.set t db) ∧
      Swept config time (min cutoff horizon) (table.get db).rows gone t.rows := by
  obtain ⟨gone, batches, t, heq, hpurged, hbelow, hends⟩ :=
    purgeCategory_purges category hpurge 0 0 db (by have := config.batchSize_ok; omega)
  simp only [Nat.zero_add] at heq hbelow hends
  exact ⟨gone, batches, t, heq, hpurged, hbelow, hends⟩

end

/-- **Retention spares live data**: what one call deletes, whatever its arguments, and what a
round does. -/
theorem retention_spares_live_data (clock : Timestamp) :
    (∀ prio a db, PurgeCall .admissionReservations (fun r => some r.reservedAt) (clock - hours 24)
      a db (purgeAdmissionReservations clock prio a db)) ∧
    (∀ prio a db, PurgeCall .privacyOperations (fun r => some r.appliedAt) (clock - days 30)
      a db (purgePrivacyOperations clock prio a db)) ∧
    (∀ prio a db, PurgeCall .outboxEvents OutboxEvent.retentionUntil clock
      a db (purgeOutboxEvents clock prio a db)) ∧
    (∀ cutoff e, OlderThan OutboxEvent.retentionUntil cutoff e →
      (∃ attempts processedAt t, e.delivery = .completed attempts processedAt t ∧ t < cutoff) ∨
        ∃ code deadAt t, e.delivery = .deadLetter code deadAt t ∧ t < cutoff) ∧
    ∀ (policy : RetentionPolicy) (config : RetentionConfig) (now : Timestamp) (ties : TieOrders)
      (db : Db), ∃ admissions privacy outbox batches batches' batches'' db',
        runRetention policy config now clock ties db =
          (some { schemaVersion := policy.schemaVersion
                  results := [⟨.admissionReservations, admissions.length, batches⟩,
                    ⟨.privacyOperations, privacy.length, batches'⟩,
                    ⟨.outboxEvents, outbox.length, batches''⟩]
                  totalPurged := admissions.length + (privacy.length + outbox.length) }, db') ∧
        Swept config (fun r => some r.reservedAt)
          (min (policy.cutoff now .admissionReservations) (clock - hours 24))
          db.admissionReservations.rows admissions db'.admissionReservations.rows ∧
        Swept config (fun r => some r.appliedAt)
          (min (policy.cutoff now .privacyOperations) (clock - days 30))
          db.privacyOperations.rows privacy db'.privacyOperations.rows ∧
        Swept config OutboxEvent.retentionUntil (min (policy.cutoff now .outboxEvents) clock)
          db.outboxEvents.rows outbox db'.outboxEvents.rows ∧
        db' = { db with
          admissionReservations := db'.admissionReservations
          privacyOperations := db'.privacyOperations
          outboxEvents := db'.outboxEvents } := by
  refine ⟨purgeAdmissionReservations_call clock, purgePrivacyOperations_call clock,
    purgeOutboxEvents_call clock, fun cutoff e => OutboxEvent.final_of_olderThan,
    fun policy config now ties db => ?_⟩
  obtain ⟨admissions, batches, t, hadmissions, hswept⟩ := purgeCategory_swept
    .admissionReservations (fun i => purgeAdmissionReservations_call clock
      (ties.admissions i) ⟨some (policy.cutoff now .admissionReservations), some config.batchSize⟩) db
  obtain ⟨privacy, batches', t', hprivacy, hswept'⟩ := purgeCategory_swept
    .privacyOperations (fun i => purgePrivacyOperations_call clock
      (ties.privacy i) ⟨some (policy.cutoff now .privacyOperations), some config.batchSize⟩)
    (TableOf.admissionReservations.set t db)
  obtain ⟨outbox, batches'', t'', houtbox, hswept''⟩ := purgeCategory_swept
    .outboxEvents (fun i => purgeOutboxEvents_call clock
      (ties.outbox i) ⟨some (policy.cutoff now .outboxEvents), some config.batchSize⟩)
    (TableOf.privacyOperations.set t' (TableOf.admissionReservations.set t db))
  refine ⟨admissions, privacy, outbox, batches, batches', batches'',
    TableOf.outboxEvents.set t'' (TableOf.privacyOperations.set t'
      (TableOf.admissionReservations.set t db)), ?_, hswept, hswept', hswept'', rfl⟩
  simp only [runRetention, hadmissions, hprivacy, houtbox]
  rfl

end Katherine.Cloud
