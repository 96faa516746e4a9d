import Katherine.Local.Replay

/-!
# Concurrent turns of the runtime

`CompanionRuntime._commit_turn_inner` in `backend/companion_runtime.py`: a turn
reserves its request id, loads the stored state, calls the provider, commits, and
releases its reservation if anything failed on the way. The runtime keeps no lock
around that, so any number of turns run interleaved with one another and with the
other operations of the store. `Step` is one atomic step of that interleaving.

A turn keeps the storage object it was started with. Closing the store, or a crash,
and opening it again leaves the turns of the old object behind: `opened` counts the
openings, and a turn of an earlier one gets `storage_closed` for whatever it tries.

Nothing in the tables names the turn that holds a reservation. `AdmissionInv` says
why there is at most one: a live turn of the current history generation has its
pending row, and no id with a row is reserved again.
-/

namespace Katherine.Runtime

open Py Sql Local

/-! ## Turns -/

/-- How far a turn has come. -/
inductive Phase
  /-- `reserve_request` returned `reserved`. -/
  | admitted
  /-- `_load_state` returned; provider calls and the commit are ahead. -/
  | loaded (state : LoadedUserState)
  /-- Something raised, the commit included; the release is ahead. -/
  | failed
  | finished

/-- The commit is still ahead. -/
def Phase.working : Phase → Bool
  | .admitted => true
  | .loaded _ => true
  | _ => false

structure Turn where
  requestId : PyStr
  /-- `pre.history_generation`. -/
  generation : Nat
  /-- The opening of the store this turn's storage object belongs to. -/
  opened : Nat
  phase : Phase

/-- The commit call of a turn: its own id and generation, and any other arguments. -/
def Turn.commitCall (t : Turn) (args : CommitArgs) : Call :=
  .commitTurn { args with requestId := .str t.requestId, historyGeneration := .int t.generation }

def Turn.releaseCall (t : Turn) : Call :=
  .releaseRequest (.str t.requestId) (.int t.generation)

/-- The same turn in another phase. -/
def Turn.to (t : Turn) (phase : Phase) : Turn := { t with phase := phase }

/-- The store, how often it was opened, and every turn admitted so far. -/
structure World where
  store : LocalStore
  opened : Nat
  turns : List Turn

def World.init : World := ⟨.init, 0, []⟩

/-- Move turn `i`. -/
def World.move (w : World) (i : Nat) (t : Turn) : World := { w with turns := w.turns.set i t }

/-! ## Steps -/

inductive Action
  | reserve (requestId message : PyVal)
  | load (i : Nat)
  | commit (i : Nat) (args : CommitArgs)
  | fail (i : Nat)
  | release (i : Nat)
  /-- An operation of the store that no turn makes. -/
  | other (call : Call)
  | reopen

/-- The calls that are not part of a turn. -/
def isOther : Call → Bool
  | .reserveRequest _ _ => false
  | .commitTurn _ => false
  | .releaseRequest _ _ => false
  | .reopen => false
  | _ => true

variable (sha256 : PyStr → PyStr)

/-- **One step.** Each makes at most one call on the store. -/
inductive Step : World → Action → World → Prop
  | reserve {w : World} {env : Env} {requestId message : PyVal} {id : PyStr} {g : Nat}
      {committed : Option CommittedTurn} {s : LocalStore}
      (hid : validateRequestId requestId = .ok id)
      (hexec : exec sha256 env (.reserveRequest requestId message) w.store
        = (.ok (.outcome ⟨.reserved, committed, some g⟩), s)) :
      Step w (.reserve requestId message) ⟨s, w.opened, w.turns ++ [⟨id, g, w.opened, .admitted⟩]⟩
  /-- A replay, a conflict or an exception: no turn is started. -/
  | refuse {w : World} {env : Env} {requestId message : PyVal} {r : Except Err Reply}
      {s : LocalStore}
      (hexec : exec sha256 env (.reserveRequest requestId message) w.store = (r, s))
      (hr : outcomeStatus r ≠ some .reserved) :
      Step w (.reserve requestId message) ⟨s, w.opened, w.turns⟩
  | load {w : World} {env : Env} {i : Nat} {t : Turn} {state : LoadedUserState}
      (ht : w.turns[i]? = some t) (hphase : t.phase = .admitted)
      (hload : loadUserState env.clock (w.store.view env.thread) = .ok state) :
      Step w (.load i) (w.move i (t.to (.loaded state)))
  | commit {w : World} {env : Env} {i : Nat} {t : Turn} {args : CommitArgs}
      {r : Except Err Reply} {s : LocalStore}
      (ht : w.turns[i]? = some t) (hphase : t.phase.working = true) (hlive : t.opened = w.opened)
      (hexec : exec sha256 env (t.commitCall args) w.store = (r, s)) :
      Step w (.commit i args)
        (World.move ⟨s, w.opened, w.turns⟩ i (t.to (if r.isOk then .finished else .failed)))
  /-- `storage_closed`. -/
  | commitClosed {w : World} {i : Nat} {t : Turn} {args : CommitArgs}
      (ht : w.turns[i]? = some t) (hphase : t.phase.working = true) (hlive : t.opened ≠ w.opened) :
      Step w (.commit i args) (w.move i (t.to .failed))
  /-- A provider call, the context or the envelope raised. -/
  | fail {w : World} {i : Nat} {t : Turn}
      (ht : w.turns[i]? = some t) (hphase : t.phase.working = true) :
      Step w (.fail i) (w.move i (t.to .failed))
  /-- The best-effort release: whatever it raises is dropped. -/
  | release {w : World} {env : Env} {i : Nat} {t : Turn} {r : Except Err Reply} {s : LocalStore}
      (ht : w.turns[i]? = some t) (hphase : t.phase = .failed) (hlive : t.opened = w.opened)
      (hexec : exec sha256 env t.releaseCall w.store = (r, s)) :
      Step w (.release i) (World.move ⟨s, w.opened, w.turns⟩ i (t.to .finished))
  | releaseClosed {w : World} {i : Nat} {t : Turn}
      (ht : w.turns[i]? = some t) (hphase : t.phase = .failed) (hlive : t.opened ≠ w.opened) :
      Step w (.release i) (w.move i (t.to .finished))
  | other {w : World} {env : Env} {call : Call} {r : Except Err Reply} {s : LocalStore}
      (hcall : isOther call = true) (hexec : exec sha256 env call w.store = (r, s)) :
      Step w (.other call) ⟨s, w.opened, w.turns⟩
  /-- Closing or crashing, and opening again. -/
  | reopen {w : World} {env : Env} {r : Except Err Reply} {s : LocalStore}
      (hexec : exec sha256 env .reopen w.store = (r, s)) :
      Step w .reopen ⟨s, w.opened + 1, w.turns⟩

/-- Any number of steps. -/
inductive Steps (w : World) : List Action → World → Prop
  | nil : Steps w [] w
  | snoc {as : List Action} {a : Action} {w' w'' : World} (h : Steps w as w')
      (hstep : Step sha256 w' a w'') : Steps w (as ++ [a]) w''

/-- The worlds some interleaving leads to. -/
def World.Reachable (w : World) : Prop := ∃ as, Steps sha256 .init as w

variable {sha256}

/-- The store moves by one call, or stays. -/
theorem Step.store {w w' : World} {a : Action} (h : Step sha256 w a w') :
    w'.store = w.store ∨ ∃ e : Event sha256, e.before = w.store ∧ e.after = w'.store := by
  cases h with
  | reserve _ hexec => exact .inr ⟨⟨_, _, _, _, _, hexec⟩, rfl, rfl⟩
  | refuse hexec _ => exact .inr ⟨⟨_, _, _, _, _, hexec⟩, rfl, rfl⟩
  | commit _ _ _ hexec => exact .inr ⟨⟨_, _, _, _, _, hexec⟩, rfl, rfl⟩
  | release _ _ _ hexec => exact .inr ⟨⟨_, _, _, _, _, hexec⟩, rfl, rfl⟩
  | other _ hexec => exact .inr ⟨⟨_, _, _, _, _, hexec⟩, rfl, rfl⟩
  | reopen hexec => exact .inr ⟨⟨_, _, _, _, _, hexec⟩, rfl, rfl⟩
  | _ => exact .inl rfl

/-- An interleaving of turns is a run of the store. -/
theorem Steps.run {w w' : World} {as : List Action} (h : Steps sha256 w as w') :
    ∃ es, Run sha256 w.store es w'.store := by
  induction h with
  | nil => exact ⟨[], .nil⟩
  | snoc _ hstep ih =>
      obtain ⟨es, hrun⟩ := ih
      rcases hstep.store with hs | ⟨e, hb, ha⟩
      · exact ⟨es, by rw [hs]; exact hrun⟩
      · rw [← hb] at hrun
        exact ⟨es ++ [e], by rw [← ha]; exact .snoc e hrun⟩

theorem World.Reachable.store {w : World} (h : w.Reachable sha256) :
    Local.Reachable sha256 w.store := by
  obtain ⟨as, h⟩ := h
  exact h.run

/-! ## Reservations in the ledger -/

/-- The ledger has a pending row for `id`. -/
def Pending (db : Db) (id : PyStr) : Prop :=
  ∃ row, db.turnRequests.get? id = some row ∧ row.status = .pending

/-- A row that no message belongs to is not removed by a trim. -/
theorem get?_trim_of_unfinished {db : Db} (hl : LedgerInv db) {id : PyStr} {row : TurnRequest}
    (hrow : db.turnRequests.get? id = some row) (hs : row.status ≠ .completed) (n : Nat) :
    (db.trim n).turnRequests.get? id = some row := by
  obtain ⟨hu, ha, _⟩ := hl.unfinished row (Table.get?_mem hrow) hs
  simp [Db.trim, hrow, Db.refersTo, hu, ha]

/-- **What can become of a pending row**: its generation is over, its turn committed, it was
released, or the store was opened again. -/
theorem pending_change {db db' : Db} {call : Call} {reply : Reply} {id : PyStr}
    (hc : Change sha256 db call reply db') (hl : LedgerInv db) (h : Pending db id) :
    Pending db' id ∨ call = .deleteHistory ∨
      (∃ a c, call = .commitTurn a ∧ validateCommit a = .ok c ∧ c.requestId = id) ∨
      (∃ requestId g, call = .releaseRequest requestId g ∧
        validateRequestId requestId = .ok id) ∨ call = .reopen := by
  obtain ⟨row, hrow, hs⟩ := h
  cases hc with
  | reserve _ _ => exact .inl ⟨row, Table.get?_insertNew_of_some hrow, hs⟩
  | @commit a c row₀ x outbox hinput hrow₀ _ _ _ _ _ _ _ _ =>
      by_cases hid : c.requestId = id
      · exact .inr (.inr (.inl ⟨a, c, rfl,
          validateCommit_eq_ok.mpr ((commitInput_eq_ok sha256).mp hinput).1, hid⟩))
      · refine .inl ⟨row, ?_, hs⟩
        have hne : id ≠ row₀.requestId := by
          rw [show row₀.requestId = c.requestId from Table.get?_key hrow₀]
          exact fun heq => hid heq.symm
        simp only [Db.commit, Table.get?_put]
        exact (if_neg hne).trans hrow
  | @release requestId g id' g' hid' _ =>
      by_cases hid : id' = id
      · exact .inr (.inr (.inr (.inl ⟨requestId, g, rfl, hid ▸ hid'⟩)))
      · refine .inl ⟨row, ?_, hs⟩
        have hkey : row.requestId = id := Table.get?_key hrow
        have hne : ¬ row.requestId = id' := by
          rw [hkey]
          exact fun heq => hid heq.symm
        simp [Db.release, hrow, hne]
  | deleteHistory => exact .inr (.inl rfl)
  | trim _ =>
      exact .inl ⟨row, get?_trim_of_unfinished hl hrow (by rw [hs]; decide) _, hs⟩
  | importFixture himports => exact .inl ⟨row, himports.keeps.1 id row hrow, hs⟩
  | recover => exact .inr (.inr (.inr (.inr rfl)))
  | _ => exact .inl ⟨row, hrow, hs⟩

/-- **A failed row stays as it is** until the history is deleted. -/
theorem failed_change {db db' : Db} {call : Call} {reply : Reply} {id : PyStr} {row : TurnRequest}
    (hc : Change sha256 db call reply db') (hl : LedgerInv db)
    (hrow : db.turnRequests.get? id = some row) (hs : row.status = .failed)
    (hcall : call ≠ .deleteHistory) : db'.turnRequests.get? id = some row := by
  cases hc with
  | reserve _ _ => exact Table.get?_insertNew_of_some hrow
  | @commit a c row₀ x outbox _ hrow₀ hpending _ _ _ _ _ _ _ =>
      have hne : id ≠ row₀.requestId := by
        rintro rfl
        rw [show row₀.requestId = c.requestId from Table.get?_key hrow₀, hrow₀] at hrow
        cases hrow
        rw [hs] at hpending
        cases hpending
      simp only [Db.commit, Table.get?_put]
      exact (if_neg hne).trans hrow
  | release _ _ => simp [Db.release, hrow, hs]
  | deleteHistory => exact absurd rfl hcall
  | trim _ => exact get?_trim_of_unfinished hl hrow (by rw [hs]; decide) _
  | importFixture himports => exact himports.keeps.1 id row hrow
  | recover => simp [Db.recover, hrow, failInterrupted, hs]
  | _ => exact hrow

/-! ## The invariant -/

/-- The turn is live, of the current history generation, and not finished: it holds the
reservation of its request id. -/
structure Holds (w : World) (t : Turn) : Prop where
  live : t.opened = w.opened
  unfinished : t.phase ≠ .finished
  current : t.generation = w.store.db.historyGeneration

structure AdmissionInv (w : World) : Prop where
  ledger : LedgerInv w.store.db
  /-- No turn is of a generation, or of an opening, that is still to come. -/
  past : ∀ t ∈ w.turns, t.generation ≤ w.store.db.historyGeneration ∧ t.opened ≤ w.opened
  /-- A turn that holds a reservation has its row. -/
  pending : ∀ (i : Nat) t, w.turns[i]? = some t → Holds w t → Pending w.store.db t.requestId
  /-- No two turns hold the same one. -/
  exclusive : ∀ (i j : Nat) t t', w.turns[i]? = some t → w.turns[j]? = some t' → Holds w t →
    Holds w t' → t.requestId = t'.requestId → i = j

theorem admissionInv_init : AdmissionInv .init where
  ledger := ledgerInv_empty
  past := by simp [World.init]
  pending := by simp [World.init]
  exclusive := by simp [World.init]

/-- `t'` is `t`, perhaps in a later phase. -/
structure Follows (t t' : Turn) : Prop where
  requestId : t'.requestId = t.requestId
  generation : t'.generation = t.generation
  opened : t'.opened = t.opened
  finished : t.phase = .finished → t'.phase = .finished

theorem Follows.refl (t : Turn) : Follows t t := ⟨rfl, rfl, rfl, id⟩

/-- Moving an unfinished turn moves no other. -/
theorem getElem?_move {w : World} {i j : Nat} {t t' : Turn} {phase : Phase}
    (ht : w.turns[i]? = some t) (hphase : t.phase ≠ .finished)
    (hj : (w.move i (t.to phase)).turns[j]? = some t') :
    ∃ t₀, w.turns[j]? = some t₀ ∧ Follows t₀ t' := by
  by_cases hij : i = j
  · subst hij
    have hlt : i < w.turns.length := (List.getElem?_eq_some_iff.mp ht).1
    simp only [World.move, List.getElem?_set_self hlt, Option.some.injEq] at hj
    subst hj
    exact ⟨t, ht, rfl, rfl, rfl, fun h => absurd h hphase⟩
  · simp only [World.move, List.getElem?_set_ne hij] at hj
    exact ⟨t', hj, .refl t'⟩

theorem getElem?_move_self {w : World} {i : Nat} {t t' : Turn} {phase : Phase}
    (ht : w.turns[i]? = some t) (hi : (w.move i (t.to phase)).turns[i]? = some t') :
    t'.phase = phase := by
  have hlt : i < w.turns.length := (List.getElem?_eq_some_iff.mp ht).1
  simp only [World.move, List.getElem?_set_self hlt, Option.some.injEq] at hi
  rw [← hi]
  rfl

theorem Phase.working_ne {p : Phase} (h : p.working = true) : p ≠ .finished := by
  rintro rfl
  cases h

/-- A turn that holds its reservation after a step held it before. -/
theorem AdmissionInv.held {w w' : World} (h : AdmissionInv w)
    (hgen : w.store.db.historyGeneration ≤ w'.store.db.historyGeneration)
    (hopened : w.opened ≤ w'.opened) {i : Nat} {t t' : Turn} (ht : w.turns[i]? = some t)
    (hf : Follows t t') (ht' : Holds w' t') :
    Holds w t ∧ w'.store.db.historyGeneration = w.store.db.historyGeneration ∧
      w'.opened = w.opened := by
  obtain ⟨hpast, hpast'⟩ := h.past t (List.mem_of_getElem? ht)
  have h1 := ht'.live
  have h2 := ht'.current
  rw [hf.opened] at h1
  rw [hf.generation] at h2
  refine ⟨⟨by omega, fun hfin => ht'.unfinished (hf.finished hfin), by omega⟩, by omega, by omega⟩

/-- **A step that admits no turn keeps the invariant** if it keeps the rows of the turns that hold
a reservation afterwards. -/
theorem AdmissionInv.inherit {w w' : World} (h : AdmissionInv w) (hl : LedgerInv w'.store.db)
    (hgen : w.store.db.historyGeneration ≤ w'.store.db.historyGeneration)
    (hopened : w.opened ≤ w'.opened)
    (hturns : ∀ (j : Nat) t', w'.turns[j]? = some t' → ∃ t, w.turns[j]? = some t ∧ Follows t t')
    (hpending : ∀ (j : Nat) t t', w.turns[j]? = some t → w'.turns[j]? = some t' → Holds w t →
      Holds w' t' → Pending w.store.db t.requestId → Pending w'.store.db t.requestId) :
    AdmissionInv w' where
  ledger := hl
  past := by
    intro t' ht'
    obtain ⟨j, hj⟩ := List.getElem?_of_mem ht'
    obtain ⟨t, ht, hf⟩ := hturns j t' hj
    obtain ⟨h1, h2⟩ := h.past t (List.mem_of_getElem? ht)
    rw [hf.generation, hf.opened]
    omega
  pending := by
    intro j t' hj ht'
    obtain ⟨t, ht, hf⟩ := hturns j t' hj
    have hheld := (h.held hgen hopened ht hf ht').1
    rw [hf.requestId]
    exact hpending j t t' ht hj hheld ht' (h.pending j t ht hheld)
  exclusive := by
    intro i j t' u' hi hj ht' hu' hid
    obtain ⟨t, ht, hft⟩ := hturns i t' hi
    obtain ⟨u, hu, hfu⟩ := hturns j u' hj
    rw [hft.requestId, hfu.requestId] at hid
    exact h.exclusive i j t u ht hu (h.held hgen hopened ht hft ht').1
      (h.held hgen hopened hu hfu hu').1 hid

/-- A step that keeps every pending row of `w`, too. -/
theorem AdmissionInv.keep {w w' : World} (h : AdmissionInv w) (hl : LedgerInv w'.store.db)
    (hgen : w.store.db.historyGeneration ≤ w'.store.db.historyGeneration)
    (hopened : w.opened ≤ w'.opened)
    (hturns : ∀ (j : Nat) t', w'.turns[j]? = some t' → ∃ t, w.turns[j]? = some t ∧ Follows t t')
    (hpending : ∀ id, Pending w.store.db id → Pending w'.store.db id) : AdmissionInv w' :=
  h.inherit hl hgen hopened hturns fun _ _ _ _ _ _ _ hp => hpending _ hp

theorem Event.ledgerInv (e : Event sha256) (h : LedgerInv e.before.db) : LedgerInv e.after.db := by
  rcases e.change with hdb | ⟨reply, _, hc⟩
  · rw [hdb]
    exact h
  · exact ledgerInv_change hc h

theorem Step.ledgerInv {w w' : World} {a : Action} (h : Step sha256 w a w')
    (hl : LedgerInv w.store.db) : LedgerInv w'.store.db := by
  rcases h.store with hs | ⟨e, hb, ha⟩
  · rw [hs]
    exact hl
  · rw [← hb] at hl
    rw [← ha]
    exact Event.ledgerInv e hl

theorem Step.generation_le {w w' : World} {a : Action} (h : Step sha256 w a w') :
    w.store.db.historyGeneration ≤ w'.store.db.historyGeneration := by
  rcases h.store with hs | ⟨e, hb, ha⟩
  · rw [hs]
  · rw [← hb, ← ha]
    exact e.generation_le

/-- A commit of a turn that changed the tables was made by the holder of its id. -/
theorem commit_by_holder {w : World} {env : Env} {t : Turn} {args : CommitArgs}
    {r : Except Err Reply} {s : LocalStore} (hphase : t.phase.working = true)
    (hlive : t.opened = w.opened) (hexec : exec sha256 env (t.commitCall args) w.store = (r, s))
    (hne : s.db ≠ w.store.db) : Holds w t ∧ ∃ reply, r = .ok reply := by
  rcases exec_change sha256 hexec with hdb | ⟨reply, hr, hc⟩
  · exact absurd hdb hne
  · refine ⟨⟨hlive, Phase.working_ne hphase, ?_⟩, reply, hr⟩
    generalize s.db = after at hc
    unfold Turn.commitCall at hc
    cases hc with
    | commit hinput _ _ hgen _ _ _ _ _ _ =>
        have hg := ((commitInput_eq_ok sha256).mp hinput).1.historyGeneration
        rw [hgen, validateHistoryGeneration_nat hg]

/-- **The admission step.** -/
theorem admissionInv_reserve {w : World} {env : Env} {requestId message : PyVal} {id : PyStr}
    {g : Nat} {committed : Option CommittedTurn} {s : LocalStore} (h : AdmissionInv w)
    (hid : validateRequestId requestId = .ok id)
    (hexec : exec sha256 env (.reserveRequest requestId message) w.store
      = (.ok (.outcome ⟨.reserved, committed, some g⟩), s)) :
    AdmissionInv ⟨s, w.opened, w.turns ++ [⟨id, g, w.opened, .admitted⟩]⟩ := by
  let e : Event sha256 := ⟨env, .reserveRequest requestId message, w.store, _, s, hexec⟩
  obtain ⟨_, habsent, hg, hafter⟩ :=
    (show e.Reserved id g from ⟨requestId, message, committed, rfl, hid, rfl⟩).change
  have hs : s = ⟨w.store.db.reserve id env.clock.sqlNow, none⟩ := hafter
  have hg : g = w.store.db.historyGeneration := hg
  have habsent : w.store.db.turnRequests.get? id = none := habsent
  have hgen : s.db.historyGeneration = w.store.db.historyGeneration := by
    rw [hs]
    rfl
  have hold : ∀ t, Holds ⟨s, w.opened, w.turns ++ [⟨id, g, w.opened, .admitted⟩]⟩ t ↔ Holds w t := by
    intro t
    constructor
    · intro ht
      exact ⟨ht.live, ht.unfinished, ht.current.trans hgen⟩
    · intro ht
      exact ⟨ht.live, ht.unfinished, ht.current.trans hgen.symm⟩
  -- a turn is one of before, or the new one at the end
  have hcase : ∀ (i : Nat) t, (w.turns ++ [⟨id, g, w.opened, .admitted⟩])[i]? = some t →
      w.turns[i]? = some t ∨ (i = w.turns.length ∧ t = ⟨id, g, w.opened, .admitted⟩) := by
    intro i t hi
    rw [List.getElem?_append] at hi
    split at hi
    · exact .inl hi
    · rename_i hlt
      obtain ⟨hlt', heq⟩ := List.getElem?_eq_some_iff.mp hi
      simp only [List.length_singleton] at hlt'
      refine .inr ⟨by omega, ?_⟩
      simpa using heq.symm
  -- nobody of before holds the id: it would have its row
  have hnobody : ∀ (i : Nat) t, w.turns[i]? = some t → Holds w t → t.requestId ≠ id := by
    intro i t hi ht heq
    obtain ⟨row, hrow, _⟩ := h.pending i t hi ht
    rw [heq, habsent] at hrow
    cases hrow
  refine ⟨Event.ledgerInv e h.ledger, ?_, ?_, ?_⟩
  · intro t ht
    rcases List.mem_append.mp ht with ht | ht
    · obtain ⟨h1, h2⟩ := h.past t ht
      exact ⟨h1.trans (le_of_eq hgen.symm), h2⟩
    · obtain rfl := List.mem_singleton.mp ht
      exact ⟨le_of_eq (hg.trans hgen.symm), le_rfl⟩
  · intro i t hi ht
    rcases hcase i t hi with hi | ⟨_, rfl⟩
    · obtain ⟨row, hrow, hp⟩ := h.pending i t hi ((hold t).mp ht)
      refine ⟨row, ?_, hp⟩
      rw [hs]
      exact Table.get?_insertNew_of_some hrow
    · refine ⟨reservationRow id w.store.db.historyGeneration env.clock.sqlNow, ?_, rfl⟩
      rw [hs]
      show (w.store.db.turnRequests.insertNew _).get? id = _
      simp [Table.get?_insertNew, reservationRow, habsent]
  · intro i j t t' hi hj ht ht' heq
    rcases hcase i t hi with hi' | ⟨hi', rfl⟩ <;> rcases hcase j t' hj with hj' | ⟨hj', rfl⟩
    · exact h.exclusive i j t t' hi' hj' ((hold t).mp ht) ((hold t').mp ht') heq
    · exact absurd heq (hnobody i t hi' ((hold t).mp ht))
    · exact absurd heq.symm (hnobody j t' hj' ((hold t').mp ht'))
    · rw [hi', hj']

/-- **Every step keeps the invariant.** -/
theorem admissionInv_step {w w' : World} {a : Action} (hstep : Step sha256 w a w')
    (h : AdmissionInv w) : AdmissionInv w' := by
  have hl := hstep.ledgerInv h.ledger
  have hgen := hstep.generation_le
  cases hstep with
  | reserve hid hexec => exact admissionInv_reserve h hid hexec
  | @refuse env requestId message r s hexec _ =>
      refine h.keep hl hgen le_rfl (fun j t ht => ⟨t, ht, .refl t⟩) fun id hp => ?_
      rcases exec_change sha256 hexec with hdb | ⟨reply, _, hc⟩
      · rw [show s.db = w.store.db from hdb]
        exact hp
      · rcases pending_change hc h.ledger hp with hp | hc | ⟨_, _, hc, _⟩ | ⟨_, _, hc, _⟩ | hc
        · exact hp
        all_goals cases hc
  | load ht hphase _ =>
      exact h.keep hl hgen le_rfl (fun j t' hj => getElem?_move ht (by rw [hphase]; simp) hj)
        fun _ hp => hp
  | @commit env i t args r s ht hphase hlive hexec =>
      refine h.inherit hl hgen le_rfl
        (fun j t' hj => @getElem?_move w i j t t' _ ht (Phase.working_ne hphase) hj) ?_
      intro j u u' hu hu' hheld hheld' hp
      by_cases hne : s.db = w.store.db
      · show Pending s.db u.requestId
        rw [hne]
        exact hp
      · -- the commit wrote, so its turn held the id and is finished now
        obtain ⟨hholder, reply, hr⟩ := commit_by_holder hphase hlive hexec hne
        have hij : i ≠ j := by
          rintro rfl
          have hphase' := @getElem?_move_self w i t u' _ ht hu'
          rw [hr] at hphase'
          exact hheld'.unfinished hphase'
        rcases exec_change sha256 hexec with hdb | ⟨_, _, hc⟩
        · exact absurd hdb hne
        · rcases pending_change hc h.ledger hp with
            hp | hc | ⟨a, c, hc, haccepted, hid⟩ | ⟨_, _, hc, _⟩ | hc
          · exact hp
          · cases hc
          · -- it completed the row of its own id, which is no other holder's
            exfalso
            cases hc
            have hv := (validateCommit_eq_ok.mp haccepted).requestId
            have hsame : t.requestId = c.requestId := by
              simpa using validateRequestId_str hv
            exact hij (h.exclusive i j t u ht hu hholder hheld (hsame.trans hid))
          · cases hc
          · cases hc
  | commitClosed ht hphase _ =>
      exact h.keep hl hgen le_rfl (fun j t' hj => getElem?_move ht (Phase.working_ne hphase) hj)
        fun _ hp => hp
  | fail ht hphase =>
      exact h.keep hl hgen le_rfl (fun j t' hj => getElem?_move ht (Phase.working_ne hphase) hj)
        fun _ hp => hp
  | @release env i t r s ht hphase hlive hexec =>
      refine h.inherit hl hgen le_rfl
        (fun j t' hj => @getElem?_move w i j t t' _ ht (by rw [hphase]; simp) hj) ?_
      intro j u u' hu hu' hheld hheld' hp
      have hij : i ≠ j := by
        rintro rfl
        exact hheld'.unfinished (@getElem?_move_self w i t u' _ ht hu')
      by_cases hcurrent : t.generation = w.store.db.historyGeneration
      · rcases exec_change sha256 hexec with hdb | ⟨_, _, hc⟩
        · show Pending s.db u.requestId
          rw [hdb]
          exact hp
        · rcases pending_change hc h.ledger hp with
            hp | hc | ⟨_, _, hc, _⟩ | ⟨requestId, g, hc, hid⟩ | hc
          · exact hp
          · cases hc
          · cases hc
          · -- it released its own id, which is no other holder's
            exfalso
            cases hc
            have hsame : t.requestId = u.requestId := by
              simpa using validateRequestId_str hid
            exact hij (h.exclusive i j t u ht hu ⟨hlive, by rw [hphase]; simp, hcurrent⟩ hheld hsame)
          · cases hc
      · -- a release of an earlier generation finds no row with its marker
        have hlt : t.generation < w.store.db.historyGeneration := by
          have := (h.past t (List.mem_of_getElem? ht)).1
          omega
        show Pending s.db u.requestId
        rw [release_fenced hexec h.ledger hlt]
        exact hp
  | releaseClosed ht hphase _ =>
      exact h.keep hl hgen le_rfl (fun j t' hj => getElem?_move ht (by rw [hphase]; simp) hj)
        fun _ hp => hp
  | @other env call r s hcall hexec =>
      refine h.inherit hl hgen le_rfl (fun j t ht => ⟨t, ht, .refl t⟩) ?_
      intro j u u' hu hu' hheld hheld' hp
      rcases exec_change sha256 hexec with hdb | ⟨_, _, hc⟩
      · show Pending s.db u.requestId
        rw [hdb]
        exact hp
      · rcases pending_change hc h.ledger hp with
          hp | hc' | ⟨_, _, hc, _⟩ | ⟨_, _, hc, _⟩ | hc
        · exact hp
        · -- the history was deleted: no turn of before is of the new generation
          exfalso
          have hsame := (h.held hgen le_rfl hu (.refl u) (by
            obtain rfl : u = u' := by simpa [hu] using hu'
            exact hheld')).2.1
          rcases generation_change hc with ⟨_, hinc⟩ | ⟨hne, _⟩
          · have hinc' : s.db.historyGeneration = w.store.db.historyGeneration + 1 := hinc
            have hsame' : s.db.historyGeneration = w.store.db.historyGeneration := hsame
            omega
          · exact hne hc'
        all_goals
          subst hc
          cases hcall
  | @reopen env r s hexec =>
      refine h.inherit hl hgen (Nat.le_succ _) (fun j t ht => ⟨t, ht, .refl t⟩) ?_
      intro j u u' hu hu' hheld hheld' hp
      exfalso
      obtain rfl : u = u' := by simpa [hu] using hu'
      have h1 := hheld.live
      have h2 : u.opened = w.opened + 1 := hheld'.live
      omega

/-- **In every interleaving.** -/
theorem admissionInv_reachable {w : World} (h : w.Reachable sha256) : AdmissionInv w := by
  obtain ⟨as, h⟩ := h
  induction h with
  | nil => exact admissionInv_init
  | snoc _ hstep ih => exact admissionInv_step hstep ih

/-! ## Admission is exclusive -/

theorem Step.failed_row {w w' : World} {a : Action} (h : Step sha256 w a w')
    (ha : a ≠ .other .deleteHistory) (hl : LedgerInv w.store.db) {id : PyStr} {row : TurnRequest}
    (hrow : w.store.db.turnRequests.get? id = some row) (hs : row.status = .failed) :
    w'.store.db.turnRequests.get? id = some row := by
  have hkeep : ∀ {env call r s}, exec sha256 env call w.store = (r, s) → call ≠ .deleteHistory →
      s.db.turnRequests.get? id = some row := by
    intro env call r s hexec hcall
    rcases exec_change sha256 hexec with hdb | ⟨_, _, hc⟩
    · rw [hdb]
      exact hrow
    · exact failed_change hc hl hrow hs hcall
  cases h with
  | reserve _ hexec => exact hkeep hexec (by simp)
  | refuse hexec _ => exact hkeep hexec (by simp)
  | commit _ _ _ hexec => exact hkeep hexec (by simp [Turn.commitCall])
  | release _ _ _ hexec => exact hkeep hexec (by simp [Turn.releaseCall])
  | other _ hexec => exact hkeep hexec fun hcall => ha (by rw [hcall])
  | reopen hexec => exact hkeep hexec (by simp)
  | _ => exact hrow

theorem Steps.failed_row {w w' : World} {as : List Action} (h : Steps sha256 w as w')
    (has : ∀ a ∈ as, a ≠ .other .deleteHistory) (hl : LedgerInv w.store.db) {id : PyStr}
    {row : TurnRequest} (hrow : w.store.db.turnRequests.get? id = some row)
    (hs : row.status = .failed) :
    LedgerInv w'.store.db ∧ w'.store.db.turnRequests.get? id = some row := by
  induction h with
  | nil => exact ⟨hl, hrow⟩
  | snoc _ hstep ih =>
      obtain ⟨hl', hrow'⟩ := ih fun a ha => has a (by simp [ha])
      exact ⟨hstep.ledgerInv hl', hstep.failed_row (has _ (by simp)) hl' hrow' hs⟩

/-- **Local admission is exclusive.** In every world an interleaving of turns and other
operations leads to:

* at most one live turn of the current generation holds the reservation of a given id, and that
  reservation is the pending row with the generation's marker;
* a commit that writes messages is made by the turn that holds the reservation of its id;
* a row that recovery moved to `failed` stays exactly as it is through any further steps, until
  one of them deletes the history. -/
theorem admission_exclusive {w : World} (h : w.Reachable sha256) :
    (∀ (i j : Nat) t t', w.turns[i]? = some t → w.turns[j]? = some t' → Holds w t → Holds w t' →
      t.requestId = t'.requestId → i = j) ∧
    (∀ (i : Nat) t, w.turns[i]? = some t → Holds w t →
      ∃ row, w.store.db.turnRequests.get? t.requestId = some row ∧ row.status = .pending ∧
        row.payloadHash = reservationMarker t.generation) ∧
    (∀ i args w', Step sha256 w (.commit i args) w' →
      w'.store.db.chatLogs ≠ w.store.db.chatLogs → ∃ t, w.turns[i]? = some t ∧ Holds w t) ∧
    (∀ as w', Steps sha256 w as w' → (∀ a ∈ as, a ≠ .other .deleteHistory) →
      ∀ id row, w.store.db.turnRequests.get? id = some row → row.status = .failed →
        w'.store.db.turnRequests.get? id = some row) := by
  have hinv := admissionInv_reachable h
  refine ⟨hinv.exclusive, ?_, ?_, ?_⟩
  · intro i t hi ht
    obtain ⟨row, hrow, hp⟩ := hinv.pending i t hi ht
    refine ⟨row, hrow, hp, ?_⟩
    rw [ht.current]
    exact hinv.ledger.marker row (Table.get?_mem hrow) hp
  · intro i args w' hstep hne
    cases hstep with
    | commit ht hphase hlive hexec =>
        refine ⟨_, ht, (commit_by_holder hphase hlive hexec fun hdb => hne ?_).1⟩
        exact congrArg Db.chatLogs hdb
    | commitClosed _ _ _ => exact absurd rfl hne
  · intro as w' hsteps has id row hrow hs
    exact (hsteps.failed_row has hinv.ledger hrow hs).2

/-- The stores of a turn of `r1`, a deletion of the history and another turn of `r1`. -/
def reservedStore : LocalStore := (exec sampleSha256 sampleEnv sampleReserve.2 .init).2

def deletedStore : LocalStore := (exec sampleSha256 sampleEnv .deleteHistory reservedStore).2

def reservedAgainStore : LocalStore := (exec sampleSha256 sampleEnv sampleReserve.2 deletedStore).2

/-- The generation that a reservation got. -/
def reservedGeneration : Except Err Reply → Option Nat
  | .ok (.outcome ⟨.reserved, _, g⟩) => g
  | _ => none

theorem reservedGeneration_eq_some {r : Except Err Reply} {g : Nat} (h : reservedGeneration r = some g) :
    ∃ committed, r = .ok (.outcome ⟨.reserved, committed, some g⟩) := by
  unfold reservedGeneration at h
  split at h
  · subst h
    exact ⟨_, rfl⟩
  · cases h

/-- While a turn of `r1` runs another one is refused. When the history is deleted it is admitted: then
two turns of `r1` are live and unfinished, and only the later one holds it. -/
theorem admission_exclusive_two_turns :
    ∃ w, w.Reachable sampleSha256 ∧
      w.turns = [⟨py "r1", 0, 0, .admitted⟩, ⟨py "r1", 1, 0, .admitted⟩] ∧
      ∀ (i : Nat) t, w.turns[i]? = some t → Holds w t → i = 1 := by
  have hreserve : Step sampleSha256 .init (.reserve (.str (py "r1")) (.str (py "oi")))
      ⟨reservedStore, 0, [⟨py "r1", 0, 0, .admitted⟩]⟩ :=
    @Step.reserve sampleSha256 .init sampleEnv _ _ (py "r1") 0 none _ rfl rfl
  have hrefuse : Step sampleSha256 ⟨reservedStore, 0, [⟨py "r1", 0, 0, .admitted⟩]⟩
      (.reserve (.str (py "r1")) (.str (py "oi"))) ⟨reservedStore, 0, [⟨py "r1", 0, 0, .admitted⟩]⟩ :=
    @Step.refuse sampleSha256 ⟨reservedStore, 0, _⟩ sampleEnv _ _ _ reservedStore rfl (by decide +kernel)
  have hdelete : Step sampleSha256 ⟨reservedStore, 0, [⟨py "r1", 0, 0, .admitted⟩]⟩ (.other .deleteHistory)
      ⟨deletedStore, 0, [⟨py "r1", 0, 0, .admitted⟩]⟩ :=
    @Step.other sampleSha256 ⟨reservedStore, 0, _⟩ sampleEnv _ _ _ rfl rfl
  obtain ⟨committed, hreserved⟩ := reservedGeneration_eq_some (g := 1)
    (show reservedGeneration (exec sampleSha256 sampleEnv sampleReserve.2 deletedStore).1 = _ by decide +kernel)
  have hagain : Step sampleSha256 ⟨deletedStore, 0, [⟨py "r1", 0, 0, .admitted⟩]⟩
      (.reserve (.str (py "r1")) (.str (py "oi")))
      ⟨reservedAgainStore, 0, [⟨py "r1", 0, 0, .admitted⟩, ⟨py "r1", 1, 0, .admitted⟩]⟩ :=
    @Step.reserve sampleSha256 ⟨deletedStore, 0, _⟩ sampleEnv _ _ (py "r1") 1 committed _ rfl
      (Prod.ext hreserved rfl)
  have hreach : World.Reachable sampleSha256 _ := ⟨_, (((Steps.nil.snoc hreserve).snoc hrefuse).snoc hdelete).snoc hagain⟩
  refine ⟨_, hreach, rfl, fun i t ht hholds => ?_⟩
  have hid : t.requestId = py "r1" := by
    rcases List.mem_pair.mp (List.mem_of_getElem? ht) with rfl | rfl
    · rfl
    · rfl
  refine (admission_exclusive hreach).1 i 1 t ⟨py "r1", 1, 0, .admitted⟩ ht rfl hholds ?_ hid
  exact ⟨rfl, nofun, by decide +kernel⟩

end Katherine.Runtime
