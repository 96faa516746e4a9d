import Katherine.Cloud.Fence
import Katherine.Cloud.Jobs
import Katherine.Cloud.Quota
import Katherine.Cloud.Frontier

/-!
# What the purge of an account erases

`account_deletion_purge` holds the lock that `commit_turn` and the privacy operations take,
so no write falls into the middle of it. It leaves nothing behind that a later write would
look at: the job is marked, but no procedure that writes user data reads the job table.

What keeps data away afterwards is that there is nothing to build on. A turn that was
loaded before the purge expects a revision that is gone, and its request has no row to be
replayed from. Writes that build on nothing are not kept away. These are a turn that
expects revision 0, a privacy operation, which leaves its ledger row, and an admission.
-/

namespace Katherine.Cloud

open Py Sql Pg Runs

/-- The tables that the purge empties have no row of `user`. -/
structure Erased (user : PyStr) (db : Db) : Prop where
  outboxEvents : ∀ r ∈ db.outboxEvents.rows, r.userId ≠ user
  turnRequests : ∀ r ∈ db.turnRequests.rows, r.userId ≠ user
  archivalExtractions : ∀ r ∈ db.archivalExtractions.rows, r.userId ≠ user
  memories : ∀ r ∈ db.memories.rows, r.userId ≠ some user
  chatLogs : ∀ r ∈ db.chatLogs.rows, r.userId ≠ user
  admissionReservations : ∀ r ∈ db.admissionReservations.rows, r.userId ≠ user
  privacyOperations : ∀ r ∈ db.privacyOperations.rows, r.userId ≠ user
  profiles : ∀ r ∈ db.profiles.rows, r.userId ≠ user

section

variable {sha256 : PyStr → PyStr}

/-- The step sets `db_purged_at` of a deletion job of `user`. -/
def Marks (user : PyStr) (e : Event (exec sha256)) : Prop :=
  ∃ j at_, e.before.jobs.get? j.jobId = some j ∧ j.userId = some user ∧ j.dbPurgedAt = none ∧
    PurgedAt j.jobId at_ e.after

/-- The step writes for `user` what needs nothing to be there. -/
inductive WritesAnew (user : PyStr) (e : Event (exec sha256)) : Prop
  | turn {t : Times} {ids : FreshIds} {a : CommitArgs} (request : Uuid)
      (hin : e.input = (t, .commitTurn ids a)) (hzero : a.expectedRevision = some 0)
      (hfresh : FreshCommit (user, request) e)
  | operation (id : Uuid) (happlies : Applies (user, id) e)
  | admission (request : Uuid) (hadmits : Admits (user, request) e)

/-! ## The purge erases -/

/-- Only the purge sets the marker. -/
theorem purge_of_marks {user : PyStr} {e : Event (exec sha256)} (h : Marks user e) :
    ∃ t a j counts, e.input = (t, .purge a) ∧ e.reply = .job (.purged j.jobId t.vNow counts) ∧
      e.before.jobs.get? j.jobId = some j ∧ j.userId = some user := by
  obtain ⟨j, at_, hget, huser, hnone, j', hj', hat⟩ := h
  have hm := move_of_event e j.jobId
  rw [hget, hj'] at hm
  generalize e.reply = reply at hm ⊢
  generalize e.input = x at hm ⊢
  cases hm with
  | purged => exact ⟨_, _, j, _, rfl, rfl, hget, huser⟩
  | _ =>
      -- every other move leaves the marker as it was
      exact absurd (hnone.symm.trans hat) nofun

/-- With the marker go the rows of the user. -/
theorem purged_of_marks {user : PyStr} {e : Event (exec sha256)} (h : Marks user e) :
    ∃ vNow j, Purged vNow j user e.before e.after := by
  obtain ⟨t, a, j, counts, hin, hreply, hget, huser⟩ := purge_of_marks h
  have hbody := ledgerBody_of_event hreply nofun
  rw [hin] at hbody
  rcases purgeBody_inv (Option.some.inj hbody) with hsame | ⟨k, _, hk, hkget, hfresh, hafter⟩
  · obtain ⟨j', at_, hj', -, hnone, j'', hj'', hat⟩ := h
    rw [hsame, hj'] at hj''
    obtain rfl := Option.some.inj hj''
    rw [hnone] at hat
    cases hat
  · injection hk with hid
    rw [← hid, hget] at hkget
    obtain rfl := Option.some.inj hkget
    exact ⟨t.vNow, j, purged_of_inv hget huser hfresh hafter⟩

theorem erased_of_purged {vNow : Timestamp} {j : Job} {user : PyStr} {db db' : Db}
    (h : Purged vNow j user db db') : Erased user db' := by
  obtain ⟨-, -, -, rfl⟩ := h
  have hne : ∀ {ρ κ : Type} [DecidableEq κ] {key : ρ → κ} {t : Table ρ κ key} {owner : ρ → PyStr},
      ∀ r ∈ (t.deleteWhere fun r => decide (owner r = user)).rows, owner r ≠ user := by
    intro ρ κ _ key t owner r hr
    exact of_decide_eq_false (Table.mem_deleteWhere.mp hr).2
  have hevents : ∀ r ∈ (db.outboxEvents.deleteWhere (·.userId = user)).rows, r.userId ≠ user := hne
  exact
    { outboxEvents := fun r hr => hevents r (Table.mem_deleteWhere.mp hr).1
      turnRequests := by
        intro r hr
        obtain ⟨r', hr', rfl⟩ := List.mem_map.mp hr
        exact hne  r' hr'
      archivalExtractions := by
        intro r hr
        exact hne  r (Table.mem_deleteWhere.mp hr).1
      memories := fun r hr => of_decide_eq_false (Table.mem_deleteWhere.mp hr).2
      chatLogs := hne
      admissionReservations := hne
      privacyOperations := hne
      profiles := hne }

/-! ## Erased rows stay away -/

/-- Deleting messages removes rows and forgets references, no more. -/
theorem erased_deleteChatLogs {user : PyStr} {db : Db} (h : Erased user db) (p : ChatLog → Bool) :
    Erased user (db.deleteChatLogs p) :=
  { h with
    turnRequests := by
      intro r hr
      obtain ⟨r', hr', rfl⟩ := List.mem_map.mp hr
      exact h.turnRequests r' hr'
    archivalExtractions := fun r hr => h.archivalExtractions r (Table.mem_deleteWhere.mp hr).1
    chatLogs := fun r hr => h.chatLogs r (Table.mem_deleteWhere.mp hr).1 }

theorem erased_purgeUser {user other : PyStr} {db : Db} (h : Erased user db) :
    Erased user (db.purgeUser other).2 where
  outboxEvents r hr := h.outboxEvents r (Table.mem_deleteWhere.mp (Table.mem_deleteWhere.mp hr).1).1
  turnRequests := by
    intro r hr
    obtain ⟨r', hr', rfl⟩ := List.mem_map.mp hr
    exact h.turnRequests r' (Table.mem_deleteWhere.mp hr').1
  archivalExtractions r hr :=
    h.archivalExtractions r (Table.mem_deleteWhere.mp (Table.mem_deleteWhere.mp hr).1).1
  memories r hr := h.memories r (Table.mem_deleteWhere.mp hr).1
  chatLogs r hr := h.chatLogs r (Table.mem_deleteWhere.mp hr).1
  admissionReservations r hr := h.admissionReservations r (Table.mem_deleteWhere.mp hr).1
  privacyOperations r hr := h.privacyOperations r (Table.mem_deleteWhere.mp hr).1
  profiles r hr := h.profiles r (Table.mem_deleteWhere.mp hr).1

theorem revision_of_erased {user : PyStr} {db : Db} (h : Erased user db) : db.revision user = 0 := by
  have hnone : db.profiles.get? user = none := Table.get?_eq_none.mpr h.profiles
  rw [Db.revision, hnone]
  rfl

/-- Another user's turn. -/
theorem erased_committed {now : Timestamp} {ids : FreshIds} {i : CommitInput} {db db' : Db}
    {row : TurnRequest} (hc : Committed now ids i db row db') {user : PyStr} (hne : i.userId ≠ user)
    (h : Erased user db) : Erased user db' where
  outboxEvents := by
    obtain ⟨new, hrows, hnew⟩ := hc.events
    intro r hr
    rw [hrows, List.mem_append] at hr
    rcases hr with hr | hr
    · exact h.outboxEvents r hr
    · rw [(hnew r hr).1]
      exact hne
  turnRequests := by
    intro r hr
    rw [hc.turnRequests, Table.mem_put] at hr
    rcases hr with rfl | ⟨hr, -⟩
    · have hkey := congrArg Prod.fst hc.key
      change r.userId = i.userId at hkey
      rw [hkey]
      exact hne
    · exact h.turnRequests r hr
  archivalExtractions := by
    rw [hc.archivalExtractions]
    exact h.archivalExtractions
  memories := by
    rw [hc.memories]
    exact h.memories
  chatLogs := by
    intro r hr
    rw [hc.chatLogs] at hr
    simp only [List.mem_append, List.mem_cons, List.not_mem_nil, or_false] at hr
    rcases hr with hr | rfl | rfl
    · exact h.chatLogs r hr
    · exact hne
    · exact hne
  admissionReservations := by
    rw [hc.admissionReservations]
    exact h.admissionReservations
  privacyOperations := by
    rw [hc.privacyOperations]
    exact h.privacyOperations
  profiles := by
    obtain ⟨p, hp, -, hput⟩ := hc.profile
    intro r hr
    rw [hput, Table.mem_put] at hr
    rcases hr with rfl | ⟨hr, -⟩
    · rw [hp]
      exact hne
    · exact h.profiles r hr

/-- An operation on another user. -/
theorem erased_applied {now : Timestamp} {i : PrivacyInput} {db db' : Db} {result : PrivacyResult}
    (ha : Applied sha256 now i db result db') {user : PyStr} (hne : i.userId ≠ user)
    (h : Erased user db) : Erased user db' where
  outboxEvents := by
    rw [ha.outboxEvents]
    exact fun r hr => h.outboxEvents r (List.mem_filter.mp hr).1
  turnRequests := by
    obtain ⟨gone, -, hrows⟩ := ha.turnRequests
    intro r hr
    rw [hrows] at hr
    obtain ⟨r', hr', rfl⟩ := List.mem_map.mp hr
    exact h.turnRequests r' (List.mem_filter.mp hr').1
  archivalExtractions := by
    rw [ha.archivalExtractions]
    exact fun r hr => h.archivalExtractions r (List.mem_filter.mp hr).1
  memories := by
    rw [ha.memories]
    exact fun r hr => h.memories r (List.mem_filter.mp hr).1
  chatLogs := by
    rw [ha.chatLogs]
    exact fun r hr => h.chatLogs r (List.mem_filter.mp hr).1
  admissionReservations := by
    rw [ha.admissionReservations]
    exact h.admissionReservations
  privacyOperations := by
    intro r hr
    rw [ha.ledger, Table.mem_insertNew] at hr
    rcases hr with hr | ⟨rfl, -⟩
    · exact h.privacyOperations r hr
    · exact hne
  profiles := by
    have hnone : db'.profiles.get? user = none := by
      rw [ha.profiles, Table.get?_eq_none.mpr h.profiles]
      rfl
    exact Table.get?_eq_none.mp hnone

/-- **What is erased stays away, unless a step writes anew.** -/
theorem erased_kept {user : PyStr} {e : Event (exec sha256)} (h : Erased user e.before)
    (hquiet : ¬ WritesAnew user e) : Erased user e.after := by
  have heffect := effect_of_event e
  cases e with
  | mk input db reply db' hexec =>
      change Erased user db at h
      change Effect sha256 input db reply db' at heffect
      show Erased user db'
      cases heffect with
      | none => exact h
      | @committed t ids a i _ _ row hv hc =>
          have hargs := validateCommit_ok hv
          refine erased_committed hc (fun huser => hquiet ?_) h
          have hzero : i.expectedRevision = 0 := by
            rw [hc.expected, huser]
            exact revision_of_erased h
          have hfresh : freshCommit (user, i.requestId) (.commitTurn ids a) db
              (.commit (.result row.buildResult)) = true :=
            freshCommit_iff.mpr ⟨ids, a, _, rfl, rfl, huser ▸ hargs.userId, hargs.requestId,
              huser ▸ isCompleted_of_open hc.isOpen⟩
          have hexpected := hargs.expectedRevision
          rw [hzero] at hexpected
          exact .turn i.requestId rfl hexpected hfresh
      | @applied t a i _ _ result hv ha =>
          refine erased_applied ha (fun huser => hquiet ?_) h
          have happlies := appliesOperation_of_applied hv ha
          rw [PrivacyInput.key, huser] at happlies
          exact .operation i.operationId happlies
      | @reserved t a _ r hv hd =>
          refine { h with admissionReservations := ?_ }
          intro x hx
          rcases Table.mem_insertNew.mp hx with hx | ⟨rfl, -⟩
          · exact h.admissionReservations x hx
          · intro huser
            exact hquiet (.admission x.requestId ⟨x, hv, by rw [huser]⟩)
      | admissionPurged =>
          exact { h with admissionReservations := fun r hr =>
            h.admissionReservations r (Table.mem_deleteWhere.mp hr).1 }
      | privacyPurged =>
          exact { h with privacyOperations := fun r hr =>
            h.privacyOperations r (Table.mem_deleteWhere.mp hr).1 }
      | outboxPurged =>
          exact { h with outboxEvents := fun r hr =>
            h.outboxEvents r (Table.mem_deleteWhere.mp hr).1 }
      | jobs => exact { h with }
      | purged hp =>
          obtain ⟨-, -, -, rfl⟩ := hp
          exact { erased_purgeUser h with }
      | pruned => exact erased_deleteChatLogs h _
      | delivered =>
          refine { h with outboxEvents := ?_ }
          intro r hr
          obtain ⟨r', hr', rfl⟩ := List.mem_map.mp hr
          split
          · exact h.outboxEvents r' hr'
          · exact h.outboxEvents r' hr'

/-- A turn that expects a revision of its own finds nothing to commit to, and nothing to replay. -/
theorem commit_of_erased {user : PyStr} {e : Event (exec sha256)} (h : Erased user e.before)
    {t : Times} {ids : FreshIds} {a : CommitArgs} (hin : e.input = (t, .commitTurn ids a))
    (huser : a.authenticatedUserId = some user) (hexpected : a.expectedRevision ≠ some 0) :
    e.after = e.before ∧ ∀ turn, e.reply ≠ .commit (.result turn) := by
  obtain ⟨r, hreply, hstep⟩ := commitStep_of_event hin
  rw [hreply]
  generalize e.after = db' at hstep ⊢
  have hown : ∀ {i}, validateCommit a = .ok i → i.userId = user := by
    intro i hv
    have hu := (validateCommit_ok hv).userId
    rw [huser] at hu
    exact (Option.some.inj hu).symm
  cases hstep with
  | refused => exact ⟨rfl, nofun⟩
  | raised => exact ⟨rfl, nofun⟩
  | replayed i r hv hr =>
      have hkey := congrArg Prod.fst (Table.get?_key hr)
      exact absurd (hkey.trans (hown hv)) (h.turnRequests r (Table.get?_mem hr))
  | fresh i row _ hv hc =>
      have hzero : i.expectedRevision = 0 := by
        rw [hc.expected, hown hv]
        exact revision_of_erased h
      have hargs := (validateCommit_ok hv).expectedRevision
      rw [hzero] at hargs
      exact absurd hargs hexpected

/-! ## Whole runs -/

/-- **A purged account stays empty until something is written anew.** In every run, once the deletion
job of `user` is marked as purged:

* until a step of `user` writes what needs nothing to be there, no row of `user` is in any of the
  tables that the purge empties;
* until then a turn of `user` that expects a revision other than 0 writes nothing and gets no result. -/
theorem erased_after_purge {user : PyStr} {db db' : Db} {pre post : List (Event (exec sha256))}
    {p : Event (exec sha256)} (hrun : Run db (pre ++ p :: post) db') (hmarks : Marks user p) :
    Erased user p.after ∧ ∀ mid e rest, post = mid ++ e :: rest → (∀ m ∈ mid, ¬ WritesAnew user m) →
      (¬ WritesAnew user e → Erased user e.after) ∧
      ∀ t ids a, e.input = (t, .commitTurn ids a) → a.authenticatedUserId = some user →
        a.expectedRevision ≠ some 0 → e.after = e.before ∧ ∀ turn, e.reply ≠ .commit (.result turn) := by
  obtain ⟨_, _, hrest⟩ := hrun.split
  obtain ⟨_, hpost⟩ := hrest.cons_inv
  obtain ⟨vNow, j, hpurged⟩ := purged_of_marks hmarks
  have herased : Erased user p.after := erased_of_purged hpurged
  refine ⟨herased, ?_⟩
  rintro mid e rest rfl hquiet
  obtain ⟨m, hmid, hrest⟩ := hpost.split
  obtain ⟨rfl, _⟩ := hrest.cons_inv
  have hbefore : Erased user e.before :=
    (hmid.invariant herased fun e' he' h => erased_kept h (hquiet e' he')).1
  refine ⟨fun hnew => erased_kept hbefore hnew, ?_⟩
  intro t ids a hin huser hexpected
  exact commit_of_erased hbefore hin huser hexpected

end

/-! ## A turn that expects nothing -/

def turnTime : PosFloat := ⟨⟨py "1700000000.0", isFloatRepr_early⟩, early_pos⟩

/-- The first turn of a user without a profile. -/
def firstTurnArgs : CommitArgs :=
  { sampleArgs 0 with
    emotionalState := Jsonb.ofPy (.dict (neutralSnapshot .emotional turnTime))
    relationshipState := Jsonb.ofPy (.dict (neutralSnapshot .relationship turnTime)) }

/-- The turn that was waiting while the account was purged. -/
def turnAfterPurge : Event (exec id) :=
  .of _ (sampleTimes, .commitTurn (sampleIds 1) firstTurnArgs) firstPurge.after

/-- What a step does to the job under `id`, read off before and after it. -/
theorem marks_of_jobs {sha256 : PyStr → PyStr} {user : PyStr} {e : Event (exec sha256)} (id : Uuid) (at_ : Timestamp)
    (hjob : (e.before.jobs.get? id).map (fun j => (j.userId, j.dbPurgedAt)) = some (some user, none))
    (hafter : (e.after.jobs.get? id).bind (·.dbPurgedAt) = some at_) : Marks user e := by
  obtain ⟨j, hget, hj⟩ := Option.map_eq_some_iff.mp hjob
  obtain ⟨huser, hnone⟩ := Prod.mk.inj hj
  obtain ⟨j', hget', hat⟩ := Option.bind_eq_some_iff.mp hafter
  have hid : j.jobId = id := Table.get?_key hget
  exact ⟨j, at_, hid ▸ hget, huser, hnone, j', hid ▸ hget', hat⟩

theorem firstPurge_marks : Marks (py "u1") firstPurge :=
  marks_of_jobs jobOne 2 (by decide +kernel) (by decide +kernel)

/-- **The data of a purged account is back.** -/
theorem turn_after_purge_commits : ∃ (es : List (Event (exec id))) (db' : Db)
    (pre post : List (Event (exec id))) (p e : Event (exec id)), Run Db.empty es db' ∧
    es = pre ++ p :: post ∧ Marks (py "u1") p ∧ e ∈ post ∧ IsCommit e ∧
    ∃ r ∈ e.after.profiles.rows, r.userId = py "u1" := by
  refine ⟨_, _, [firstRequest, firstLease], [turnAfterPurge], firstPurge, turnAfterPurge,
    .cons firstRequest (.cons firstLease (.cons firstPurge (.cons turnAfterPurge (.nil _)))), rfl,
    firstPurge_marks, by simp, ⟨_, _, _, rfl⟩, ?_⟩
  decide +kernel

/-- A turn of the user before that, and the deletion of the account with its rows. -/
def turnBeforePurge : Event (exec id) :=
  .of _ (sampleTimes, .commitTurn (sampleIds 1) firstTurnArgs) Db.empty

def requestAfterTurn : Event (exec id) :=
  .of _ (⟨1, 1, 1⟩, .requestDeletion jobOne (deletionRequest jobOne)) turnBeforePurge.after

def leaseAfterTurn : Event (exec id) :=
  .of _ (⟨2, 2, 2⟩, .acquireLease (fun _ => false) (fun _ => 0) ⟨some (py "w1"), some 60, some 1⟩)
    requestAfterTurn.after

def purgeAfterTurn : Event (exec id) :=
  .of _ (⟨3, 3, 3⟩, .purge ⟨some jobOne, some (py "w1"), some (List.replicate 64 (cp 'b'))⟩)
    leaseAfterTurn.after

/-- The next turn of the user, that was loaded at the revision of the first one. -/
def staleTurnAfterPurge : Event (exec id) :=
  .of _ (sampleTimes, .commitTurn (sampleIds 3) { firstTurnArgs with
    requestId := some sampleOperation
    expectedRevision := some 1 }) purgeAfterTurn.after

theorem purgeAfterTurn_marks : Marks (py "u1") purgeAfterTurn :=
  marks_of_jobs jobOne 3 (by decide +kernel) (by decide +kernel)

/-- The purge takes the rows of a turn, and the turn that was loaded before it stays out. -/
theorem erased_after_purge_stale :
    (purgeAfterTurn.before.revision (py "u1") = 1 ∧ ¬ Erased (py "u1") purgeAfterTurn.before) ∧
    Erased (py "u1") purgeAfterTurn.after ∧ staleTurnAfterPurge.after = staleTurnAfterPurge.before := by
  have hrun : Run Db.empty ([turnBeforePurge, requestAfterTurn, leaseAfterTurn] ++
      purgeAfterTurn :: [staleTurnAfterPurge]) staleTurnAfterPurge.after :=
    .next (Event.of_before _ _ _) (.next (Event.of_before _ _ _) (.next (Event.of_before _ _ _)
      (.next (Event.of_before _ _ _) (.next (Event.of_before _ _ _) (.nil _)))))
  have hrevision : purgeAfterTurn.before.revision (py "u1") = 1 := by decide +kernel
  obtain ⟨herased, hlater⟩ := erased_after_purge hrun purgeAfterTurn_marks
  refine ⟨⟨hrevision, fun h => ?_⟩, herased, ?_⟩
  · rw [revision_of_erased h] at hrevision
    cases hrevision
  · obtain ⟨-, hcommit⟩ := hlater [] staleTurnAfterPurge [] rfl (by simp)
    exact (hcommit _ _ _ rfl rfl (by decide)).1

end Katherine.Cloud
