import Katherine.Lib.Mutex
import Katherine.Lib.Runs
import Katherine.Lib.Table
import Katherine.Lib.Text

/-!
# The lock of a user

`UserLockManager.lock` of `backend/lock_manager.py`, on one event loop, and the way
`_run_turn_locked` of `backend/chat_engine.py` enters it. A visit is one activation of the
context manager; a task that enters twice makes two visits.

A visit is suspended only where it waits for a lock, and in its body. Everything between is one
step here, as it is on the loop. Nothing of the code excludes that a visit waits for `_dict_lock`,
also on its way out, where a cancellation would skip the decrement. The invariant does:
`_dict_lock` is free whenever anything is suspended, so no visit ever waits for it.
-/

namespace Katherine.Cloud.UserLocks

open Py Runs Sql Sync

/-- `[asyncio.Lock, ref_count]`. -/
structure Entry where
  lock : Nat
  refCount : Int

/-- Where a visit is suspended. -/
inductive Stage
  /-- At `async with self._dict_lock` of the entry. -/
  | entering
  /-- At `async with user_lock`. -/
  | waiting (userLock : Nat)
  /-- At the `yield`. -/
  | body (userLock : Nat)
  /-- At `async with self._dict_lock` of the `finally`. -/
  | exiting
deriving DecidableEq

/-- Between the increment and the decrement. -/
def Stage.counted : Stage → Bool
  | .entering => false
  | _ => true

theorem Stage.lock_eq {stage : Stage} {l l' : Nat} (h : stage = .waiting l ∨ stage = .body l)
    (h' : stage = .waiting l' ∨ stage = .body l') : l = l' := by
  rcases h with rfl | rfl <;> rcases h' with h' | h' <;> cases h' <;> rfl

structure Visit where
  id : Nat
  userId : PyStr
  stage : Stage

/-- The manager, the lock objects by their identity, and the visits that have not ended. -/
structure State where
  locks : PyStr → Option Entry
  dictLock : Mutex Nat
  userLocks : Nat → Mutex Nat
  nextLock : Nat
  visits : Table Visit Nat Visit.id

def State.init : State where
  locks _ := none
  dictLock := .free
  userLocks _ := .free
  nextLock := 0
  visits := .empty

/-! ## The coroutine -/

def Visit.moveTo (v : Nat) (stage : Stage) (w : Visit) : Visit :=
  if w.id = v then { w with stage } else w

theorem Visit.moveTo_id (v : Nat) (stage : Stage) (w : Visit) : (w.moveTo v stage).id = w.id := by
  unfold Visit.moveTo
  split <;> rfl

namespace State

def setLocks (userId : PyStr) (entry : Option Entry) (s : State) : State :=
  { s with locks := Function.update s.locks userId entry }

def setUserLock (l : Nat) (m : Mutex Nat) (s : State) : State :=
  { s with userLocks := Function.update s.userLocks l m }

/-- The visit is suspended at `stage`. -/
def suspend (v : Nat) (stage : Stage) (s : State) : State :=
  { s with visits := s.visits.mapRows (Visit.moveTo v stage) (Visit.moveTo_id v stage) }

/-- The visit has ended. -/
def endVisit (v : Nat) (s : State) : State :=
  { s with visits := s.visits.deleteWhere fun w => decide (w.id = v) }

/-- `if user_id not in self._locks: self._locks[user_id] = [asyncio.Lock(), 0]`. -/
def ensureEntry (userId : PyStr) (s : State) : Entry × State :=
  match s.locks userId with
  | some e => (e, s)
  | none => (⟨s.nextLock, 0⟩, { s with nextLock := s.nextLock + 1 })

/-- `self._locks[user_id][1] += 1`, and the user's lock. -/
def increment (userId : PyStr) (s : State) : Nat × State :=
  let (e, s) := s.ensureEntry userId
  (e.lock, s.setLocks userId (some { e with refCount := e.refCount + 1 }))

/-- `self._locks[user_id][1] -= 1`, and the cleanup. -/
def decrement (userId : PyStr) (s : State) : State :=
  match s.locks userId with
  | none => s
  | some e =>
      if e.refCount - 1 ≤ 0 then s.setLocks userId none
      else s.setLocks userId (some { e with refCount := e.refCount - 1 })

/-- `async with user_lock`. -/
def acquireUserLock (v l : Nat) (s : State) : State :=
  match (s.userLocks l).acquire v with
  | (true, m) => (s.setUserLock l m).suspend v (.body l)
  | (false, m) => (s.setUserLock l m).suspend v (.waiting l)

/-- Phase 1 with `_dict_lock` taken, and on to the user's lock. -/
def enterLocked (v : Nat) (userId : PyStr) (s : State) : State :=
  let (l, s) := s.increment userId
  { s with dictLock := s.dictLock.release }.acquireUserLock v l

/-- Phase 3 with `_dict_lock` taken. -/
def exitLocked (v : Nat) (userId : PyStr) (s : State) : State :=
  let s := s.decrement userId
  { s with dictLock := s.dictLock.release }.endVisit v

/-- The visit begins. -/
def enter (v : Nat) (userId : PyStr) (s : State) : State :=
  let s := { s with visits := s.visits.insertNew ⟨v, userId, .entering⟩ }
  match s.dictLock.acquire v with
  | (true, m) => { s with dictLock := m }.enterLocked v userId
  | (false, m) => { s with dictLock := m }

/-- The `finally`, of a visit that has been counted. -/
def cleanUp (v : Nat) (userId : PyStr) (s : State) : State :=
  match s.dictLock.acquire v with
  | (true, m) => { s with dictLock := m }.exitLocked v userId
  | (false, m) => { s with dictLock := m }.suspend v .exiting

end State

/-! ## The loop -/

inductive Input
  /-- `async with manager.lock(user_id)`. -/
  | enter (v : Nat) (userId : PyStr)
  /-- `_run_turn_locked`, with the time its budget leaves for the lock. -/
  | turn (v : Nat) (userId : PyStr) (lockTimeout : Int)
  /-- The visit finds the lock it waits for free, and is the first in its queue. -/
  | resume (v : Nat)
  /-- The body ends: it returns, it raises, or it is cancelled. -/
  | leave (v : Nat)
  /-- A cancellation, or the timeout of `wait_for`, is thrown where the visit waits for a lock. -/
  | cancel (v : Nat)

inductive Reply
  | ok
  | deadlineExceeded
  /-- The loop cannot do this now. -/
  | disabled
deriving DecidableEq

/-- One step of the loop. A task that is suspended nowhere is cancelled nowhere, and a cancellation
in the body is the body's to raise or to swallow. -/
def step : Input → State → Reply × State
  | .enter v userId, s =>
      match s.visits.get? v with
      | some _ => (.disabled, s)
      | none => (.ok, s.enter v userId)
  | .turn v userId lockTimeout, s =>
      match s.visits.get? v with
      | some _ => (.disabled, s)
      | none =>
          -- `wait_for` cancels `__aenter__` before it starts
          if lockTimeout ≤ 0 then (.deadlineExceeded, s) else (.ok, s.enter v userId)
  | .resume v, s =>
      match s.visits.get? v with
      | some ⟨_, userId, .entering⟩ =>
          match s.dictLock.wake v with
          | some m => (.ok, { s with dictLock := m }.enterLocked v userId)
          | none => (.disabled, s)
      | some ⟨_, _, .waiting l⟩ =>
          match (s.userLocks l).wake v with
          | some m => (.ok, (s.setUserLock l m).suspend v (.body l))
          | none => (.disabled, s)
      | some ⟨_, userId, .exiting⟩ =>
          match s.dictLock.wake v with
          | some m => (.ok, { s with dictLock := m }.exitLocked v userId)
          | none => (.disabled, s)
      | _ => (.disabled, s)
  | .leave v, s =>
      match s.visits.get? v with
      | some ⟨_, userId, .body l⟩ =>
          (.ok, (s.setUserLock l (s.userLocks l).release).cleanUp v userId)
      | _ => (.disabled, s)
  | .cancel v, s =>
      match s.visits.get? v with
      | some ⟨_, _, .entering⟩ => (.ok, { s with dictLock := s.dictLock.abandon v }.endVisit v)
      | some ⟨_, userId, .waiting l⟩ =>
          (.ok, (s.setUserLock l ((s.userLocks l).abandon v)).cleanUp v userId)
      -- the decrement is skipped
      | some ⟨_, _, .exiting⟩ => (.ok, { s with dictLock := s.dictLock.abandon v }.endVisit v)
      | _ => (.disabled, s)

/-! ## The invariant -/

namespace State

/-- `v` is at `stage`. -/
def At (s : State) (stage : Stage) (v : Nat) : Prop :=
  ∃ w, s.visits.get? v = some w ∧ w.stage = stage

/-- How many visits of the user the reference count is to count. -/
def countedVisits (s : State) (userId : PyStr) : Nat :=
  s.visits.rows.countP fun w => decide (w.userId = userId) && w.stage.counted

/-- Nobody waits for `_dict_lock`; a visit waits for the lock of its user's entry or has it; an
entry counts the visits of its user. -/
structure Inv (s : State) : Prop where
  dictLock : s.dictLock = .free
  entry : ∀ {v w}, s.visits.get? v = some w →
    ∃ l n, (w.stage = .waiting l ∨ w.stage = .body l) ∧ s.locks w.userId = some ⟨l, n⟩
  refCount : ∀ {userId e}, s.locks userId = some e →
    e.refCount = s.visits.rows.countP (decide <| ·.userId = userId) ∧ 0 < e.refCount
  distinct : ∀ {u u' e e'}, s.locks u = some e → s.locks u' = some e' → e.lock = e'.lock → u = u'
  fresh : ∀ {userId e}, s.locks userId = some e → e.lock < s.nextLock
  userLock : ∀ l, (s.userLocks l).Tells (s.At (.body l)) (s.At (.waiting l))

theorem init_inv : State.init.Inv where
  dictLock := rfl
  entry h := by cases h
  refCount h := by cases h
  distinct h := by cases h
  fresh h := by cases h
  userLock l := Mutex.Tells.free_iff.mpr ⟨fun v ⟨w, h, _⟩ => (by cases h), fun v ⟨w, h, _⟩ => (by cases h)⟩

theorem get?_suspend {s : State} {v : Nat} {w : Visit} (hw : s.visits.get? v = some w)
    (stage : Stage) (x : Nat) :
    (s.suspend v stage).visits.get? x = if x = v then some { w with stage } else s.visits.get? x := by
  rw [suspend, Table.get?_mapRows]
  by_cases hx : x = v
  · subst hx
    rw [if_pos rfl, hw, Option.map_some, Visit.moveTo, if_pos (Table.get?_key hw)]
  · rw [if_neg hx]
    cases hg : s.visits.get? x with
    | none => rfl
    | some w' =>
        have hid := Table.get?_key hg
        rw [Option.map_some, Visit.moveTo, if_neg (hid ▸ hx)]

theorem at_suspend {s : State} {v : Nat} {w : Visit} (hw : s.visits.get? v = some w)
    (stage stage' : Stage) (x : Nat) :
    (s.suspend v stage).At stage' x ↔ if x = v then stage = stage' else s.At stage' x := by
  unfold At
  rw [get?_suspend hw]
  split <;> simp

/-- The decrement finds the entry. -/
theorem decrement_eq {s : State} {userId : PyStr} {l : Nat} {n : Int}
    (h : s.locks userId = some ⟨l, n⟩) :
    s.decrement userId = s.setLocks userId (if n - 1 ≤ 0 then none else some ⟨l, n - 1⟩) := by
  unfold decrement
  rw [h]
  dsimp only
  split <;> rfl

/-- `_dict_lock` is free, so the clean-up does not wait. -/
theorem cleanUp_eq {s : State} {userId : PyStr} {l : Nat} {n : Int} (hdict : s.dictLock = .free)
    (h : s.locks userId = some ⟨l, n⟩) (v : Nat) :
    s.cleanUp v userId =
      (s.setLocks userId (if n - 1 ≤ 0 then none else some ⟨l, n - 1⟩)).endVisit v := by
  obtain ⟨locks, dictLock, userLocks, nextLock, visits⟩ := s
  obtain rfl : dictLock = .free := hdict
  have hdecrement := @decrement_eq ⟨locks, ⟨some v, []⟩, userLocks, nextLock, visits⟩ userId l n h
  simp only [cleanUp, Mutex.acquire_free, exitLocked, hdecrement]
  rfl

/-- **The way out.** A visit that holds its user's lock no more, and waits for it no more, is
cleaned up. -/
theorem cleanUp_inv {s : State} (h : s.Inv) {v l : Nat} {w : Visit} {m : Mutex Nat}
    (hw : s.visits.get? v = some w) (hl : w.stage = .waiting l ∨ w.stage = .body l)
    (hm : m.Tells (fun x => s.At (.body l) x ∧ x ≠ v) fun x => s.At (.waiting l) x ∧ x ≠ v) :
    ((s.setUserLock l m).cleanUp v w.userId).Inv := by
  obtain ⟨l', n, hl', hentry⟩ := h.entry hw
  obtain rfl := Stage.lock_eq hl hl'
  have hperm := Table.perm_deleteKey hw
  obtain ⟨hcount, hpos⟩ := h.refCount hentry
  rw [hperm.countP_eq, List.countP_cons_of_pos (by simp)] at hcount
  dsimp only at hcount hpos
  rw [@cleanUp_eq (s.setUserLock l m) _ _ _ h.dictLock hentry]
  have hlocks : ∀ {u e}, Function.update s.locks w.userId
      (if n - 1 ≤ 0 then none else some ⟨l, n - 1⟩) u = some e →
      ∃ e', s.locks u = some e' ∧ e'.lock = e.lock := by
    intro u e he
    by_cases hu : u = w.userId
    · subst hu
      rw [Function.update_self] at he
      split at he <;> cases he
      exact ⟨_, hentry, rfl⟩
    · rw [Function.update_of_ne hu] at he
      exact ⟨e, he, rfl⟩
  refine ⟨h.dictLock, ?_, ?_, ?_, ?_, ?_⟩ <;>
    dsimp only [setUserLock, setLocks, endVisit]
  · intro x w' hw'
    rw [Table.get?_deleteKey] at hw'
    split at hw'
    · cases hw'
    · rename_i hx
      obtain ⟨l', n', hstage, hentry'⟩ := h.entry hw'
      by_cases hu : w'.userId = w.userId
      · -- another visit of the user: the count does not reach zero
        rw [hu, hentry] at hentry'
        cases hentry'
        have hmem : w' ∈ (s.visits.deleteWhere fun w => decide (w.id = v)).rows :=
          Table.mem_deleteWhere.mpr ⟨Table.get?_mem hw', by simpa [Table.get?_key hw'] using hx⟩
        have hothers : 0 < (s.visits.deleteWhere fun w => decide (w.id = v)).rows.countP
            (decide <| ·.userId = w.userId) := List.countP_pos_iff.mpr ⟨w', hmem, by simpa using hu⟩
        refine ⟨l, n - 1, hstage, ?_⟩
        rw [hu, Function.update_self, if_neg (by omega)]
      · exact ⟨l', n', hstage, by rw [Function.update_of_ne hu]; exact hentry'⟩
  · intro u e he
    by_cases hu : u = w.userId
    · subst hu
      rw [Function.update_self] at he
      split at he <;> cases he
      exact ⟨by dsimp only; omega, by dsimp only; omega⟩
    · rw [Function.update_of_ne hu] at he
      have := h.refCount he
      rwa [hperm.countP_eq, List.countP_cons_of_neg (by simpa using Ne.symm hu)] at this
  · intro u u' e e' he he' hll
    obtain ⟨e₁, he₁, hl₁⟩ := hlocks he
    obtain ⟨e₂, he₂, hl₂⟩ := hlocks he'
    exact h.distinct he₁ he₂ (by rw [hl₁, hl₂, hll])
  · intro u e he
    obtain ⟨e₁, he₁, hl₁⟩ := hlocks he
    exact hl₁ ▸ h.fresh he₁
  · intro l'
    have hat : ∀ stage x, (endVisit v (setLocks w.userId
        (if n - 1 ≤ 0 then none else some ⟨l, n - 1⟩) (s.setUserLock l m))).At stage x ↔
        s.At stage x ∧ x ≠ v := by
      intro stage x
      unfold At
      dsimp only [setUserLock, setLocks, endVisit]
      rw [Table.get?_deleteKey]
      by_cases hx : x = v <;> simp [hx]
    by_cases hll : l' = l
    · subst hll
      rw [Function.update_self]
      exact hm.of_iff (fun x => (hat _ x).symm) fun x => (hat _ x).symm
    · rw [Function.update_of_ne hll]
      have hne : ∀ {stage x}, stage = .body l' ∨ stage = .waiting l' → s.At stage x → x ≠ v := by
        rintro stage x hstage ⟨w', hw', hs⟩ rfl
        rw [hw] at hw'
        cases hw'
        rcases hstage with rfl | rfl <;> rcases hl with hl | hl <;> rw [hl] at hs <;> cases hs <;>
          exact hll rfl
      refine (h.userLock l').of_iff (fun x => ?_) fun x => ?_
      · exact ⟨fun hx => (hat _ x).mpr ⟨hx, hne (.inl rfl) hx⟩, fun hx => ((hat _ x).mp hx).1⟩
      · exact ⟨fun hx => (hat _ x).mpr ⟨hx, hne (.inr rfl) hx⟩, fun hx => ((hat _ x).mp hx).1⟩

theorem increment_eq (userId : PyStr) (s : State) : ∃ l n k,
    s.increment userId = (l, { s with
      locks := Function.update s.locks userId (some ⟨l, n + 1⟩), nextLock := k }) ∧
    (s.locks userId = some ⟨l, n⟩ ∧ k = s.nextLock ∨
      s.locks userId = none ∧ l = s.nextLock ∧ n = 0 ∧ k = s.nextLock + 1) := by
  unfold increment ensureEntry
  cases h : s.locks userId with
  | some e => exact ⟨e.lock, e.refCount, s.nextLock, rfl, .inl ⟨rfl, rfl⟩⟩
  | none => exact ⟨s.nextLock, 0, s.nextLock + 1, rfl, .inr ⟨rfl, rfl, rfl, rfl⟩⟩

theorem acquireUserLock_eq (v l : Nat) (s : State) :
    s.acquireUserLock v l = (s.setUserLock l ((s.userLocks l).acquire v).2).suspend v
      (if ((s.userLocks l).acquire v).1 then .body l else .waiting l) := by
  unfold acquireUserLock
  split <;> rename_i h <;> simp [h]

theorem countP_userId (v : Nat) (stage : Stage) (userId : PyStr) (rows : List Visit) :
    (rows.map (Visit.moveTo v stage)).countP (decide <| ·.userId = userId) =
      rows.countP (decide <| ·.userId = userId) := by
  rw [List.countP_map]
  congr 1
  funext w
  simp only [Function.comp, Visit.moveTo]
  split <;> rfl

/-- A user without an entry has no visit. -/
theorem Inv.no_visit {s : State} (h : s.Inv) {userId : PyStr} (hnone : s.locks userId = none) :
    s.visits.rows.countP (decide <| ·.userId = userId) = 0 := by
  refine List.countP_eq_zero.mpr fun w hw => ?_
  obtain ⟨l, n, -, hentry⟩ := h.entry (Table.get?_of_mem hw)
  rw [decide_eq_true_iff]
  rintro rfl
  rw [hnone] at hentry
  cases hentry

/-- `_dict_lock` is free, so the entry does not wait for it: the user's entry, or the one that is
made, counts one more. -/
theorem enter_eq {s : State} (hdict : s.dictLock = .free) (v : Nat) (userId : PyStr) : ∃ l n k,
    s.enter v userId =
      State.suspend v (if ((s.userLocks l).acquire v).1 then .body l else .waiting l)
        { locks := Function.update s.locks userId (some ⟨l, n + 1⟩)
          dictLock := .free
          userLocks := Function.update s.userLocks l ((s.userLocks l).acquire v).2
          nextLock := k
          visits := s.visits.insertNew ⟨v, userId, .entering⟩ } ∧
    (s.locks userId = some ⟨l, n⟩ ∧ k = s.nextLock ∨
      s.locks userId = none ∧ l = s.nextLock ∧ n = 0 ∧ k = s.nextLock + 1) := by
  obtain ⟨l, n, k, hincrement, hcase⟩ := increment_eq userId
    { s with dictLock := ⟨some v, []⟩, visits := s.visits.insertNew ⟨v, userId, .entering⟩ }
  refine ⟨l, n, k, ?_, hcase⟩
  simp only [enter, hdict, Mutex.acquire_free, enterLocked, hincrement]
  rw [acquireUserLock_eq]
  rfl

/-- **The way in.** The visit is counted, and has its user's lock or waits for it. -/
theorem enter_inv {s : State} (h : s.Inv) {v : Nat} (hv : s.visits.get? v = none) (userId : PyStr) :
    (s.enter v userId).Inv := by
  obtain ⟨l, n, k, henter, hcase⟩ := enter_eq h.dictLock v userId
  have hget : ∀ x, (s.visits.insertNew ⟨v, userId, .entering⟩).get? x =
      if x = v then some ⟨v, userId, .entering⟩ else s.visits.get? x := by
    intro x
    rw [Table.get?_insertNew, hv]
    rfl
  have hfresh : ∀ stage, ¬ s.At stage v := by
    rintro stage ⟨w, hw, -⟩
    rw [hv] at hw
    cases hw
  generalize hstage : (if ((s.userLocks l).acquire v).1 then Stage.body l else .waiting l) = stage
    at henter
  rw [henter]
  have hsame : ∀ {u e}, Function.update s.locks userId (some ⟨l, n + 1⟩) u = some e → u ≠ userId →
      s.locks u = some e := by
    intro u e he hu
    rwa [Function.update_of_ne hu] at he
  -- the lock is no other user's
  have hown : ∀ {u e}, s.locks u = some e → u ≠ userId → e.lock ≠ l := by
    intro u e he hu hl
    rcases hcase with ⟨hentry, -⟩ | ⟨-, hnext, -⟩
    · exact hu (h.distinct he hentry hl)
    · have := h.fresh he
      omega
  refine ⟨rfl, ?_, ?_, ?_, ?_, ?_⟩
  · intro x w hw
    rw [get?_suspend ((hget v).trans (if_pos rfl))] at hw
    split at hw
    · cases hw
      refine ⟨l, n + 1, ?_, Function.update_self ..⟩
      rw [← hstage]
      split
      · exact .inr rfl
      · exact .inl rfl
    · rename_i hx
      dsimp only at hw
      rw [hget, if_neg hx] at hw
      obtain ⟨l', n', hstage', hentry⟩ := h.entry hw
      by_cases hu : w.userId = userId
      · rcases hcase with ⟨hentry', -⟩ | ⟨hnone, -⟩
        · rw [hu, hentry'] at hentry
          cases hentry
          exact ⟨l, n + 1, hstage', by rw [hu]; exact Function.update_self ..⟩
        · rw [hu, hnone] at hentry
          cases hentry
      · exact ⟨l', n', hstage', by rw [← hentry]; exact Function.update_of_ne hu ..⟩
  · intro u e he
    dsimp only [suspend, Table.mapRows] at he ⊢
    rw [countP_userId, Table.insertNew_rows hv, List.countP_append]
    by_cases hu : u = userId
    · subst hu
      rw [Function.update_self] at he
      cases he
      rcases hcase with ⟨hentry, -⟩ | ⟨hnone, -, rfl, -⟩
      · have := h.refCount hentry
        dsimp only at this ⊢
        rw [List.countP_singleton, if_pos (by simp)]
        omega
      · rw [h.no_visit hnone, List.countP_singleton, if_pos (by simp)]
        simp
    · have := h.refCount (hsame he hu)
      rw [List.countP_singleton, if_neg (by simpa using Ne.symm hu)]
      simpa using this
  · intro u u' e e' he he' hll
    by_cases hu : u = userId <;> by_cases hu' : u' = userId
    · rw [hu, hu']
    · subst hu
      obtain rfl : e = ⟨l, n + 1⟩ := by simpa [suspend] using he.symm
      exact absurd hll.symm (hown (hsame he' hu') hu')
    · subst hu'
      obtain rfl : e' = ⟨l, n + 1⟩ := by simpa [suspend] using he'.symm
      exact absurd hll (hown (hsame he hu) hu)
    · exact h.distinct (hsame he hu) (hsame he' hu') hll
  · intro u e he
    dsimp only [suspend] at he ⊢
    by_cases hu : u = userId
    · subst hu
      rw [Function.update_self] at he
      cases he
      rcases hcase with ⟨hentry, rfl⟩ | ⟨-, rfl, -, rfl⟩
      · have := h.fresh hentry
        exact this
      · exact Nat.lt_succ_self _
    · have := h.fresh (hsame he hu)
      rcases hcase with ⟨-, rfl⟩ | ⟨-, -, -, rfl⟩
      · exact this
      · omega
  · intro l'
    have hat : ∀ stage' x, (State.suspend v stage
        { locks := Function.update s.locks userId (some ⟨l, n + 1⟩)
          dictLock := .free
          userLocks := Function.update s.userLocks l ((s.userLocks l).acquire v).2
          nextLock := k
          visits := s.visits.insertNew ⟨v, userId, .entering⟩ }).At stage' x ↔
        s.At stage' x ∨ x = v ∧ stage = stage' := by
      intro stage' x
      rw [at_suspend ((hget v).trans (if_pos rfl))]
      by_cases hx : x = v
      · subst hx
        simp [hfresh]
      · rw [if_neg hx]
        unfold At
        rw [hget, if_neg hx]
        simp [hx]
    change (Function.update s.userLocks l ((s.userLocks l).acquire v).2 l').Tells _ _
    by_cases hll : l' = l
    · subst hll
      rw [Function.update_self]
      have htells := (h.userLock l').acquire (hfresh _)
      generalize ((s.userLocks l').acquire v).1 = got at htells hstage
      subst hstage
      refine htells.of_iff (fun x => Iff.trans ?_ (hat _ x).symm) fun x =>
        Iff.trans ?_ (hat _ x).symm
      · cases got <;> simp
      · cases got <;> simp
    · rw [Function.update_of_ne hll]
      have hother : stage ≠ .body l' ∧ stage ≠ .waiting l' := by
        rw [← hstage]
        split <;> simp [Ne.symm hll]
      refine (h.userLock l').of_iff (fun x => ?_) fun x => ?_
      · exact Iff.trans (by simp [hother.1]) (hat _ x).symm
      · exact Iff.trans (by simp [hother.2]) (hat _ x).symm

/-- **The lock passes on.** The first of those that wait for it goes into its body. -/
theorem resume_inv {s : State} (h : s.Inv) {v l : Nat} {w : Visit} {m : Mutex Nat}
    (hw : s.visits.get? v = some w) (hl : w.stage = .waiting l)
    (hwake : (s.userLocks l).wake v = some m) :
    ((s.setUserLock l m).suspend v (.body l)).Inv := by
  have hget := @get?_suspend (s.setUserLock l m) v w hw (.body l)
  have hat := @at_suspend (s.setUserLock l m) v w hw (.body l)
  have hv : ∀ stage, s.At stage v → stage = .waiting l := by
    rintro stage ⟨w', hw', rfl⟩
    rw [hw] at hw'
    cases hw'
    exact hl
  refine ⟨h.dictLock, ?_, ?_, h.distinct, h.fresh, ?_⟩
  · intro x w' hw'
    rw [hget] at hw'
    split at hw'
    · cases hw'
      obtain ⟨l', n, hstage, hentry⟩ := h.entry hw
      obtain rfl : l = l' := by simpa [hl] using hstage
      exact ⟨l, n, .inr rfl, hentry⟩
    · exact h.entry hw'
  · intro u e he
    dsimp only [suspend, Table.mapRows]
    rw [countP_userId]
    exact h.refCount he
  · intro l'
    change (Function.update s.userLocks l m l').Tells _ _
    by_cases hll : l' = l
    · subst hll
      rw [Function.update_self]
      refine ((h.userLock l').wake hwake).2.of_iff (fun x => ?_) fun x => ?_
      · rw [hat]
        by_cases hx : x = v
        · simp [hx]
        · rw [if_neg hx]
          exact or_iff_left hx
      · rw [hat]
        by_cases hx : x = v
        · simp [hx]
        · rw [if_neg hx]
          exact and_iff_left hx
    · rw [Function.update_of_ne hll]
      refine (h.userLock l').of_iff (fun x => ?_) fun x => ?_ <;> rw [hat] <;> by_cases hx : x = v
      · subst hx
        rw [if_pos rfl]
        exact ⟨fun h => (by cases hv _ h), fun h => absurd (by cases h; rfl) hll⟩
      · rw [if_neg hx]
        exact .rfl
      · subst hx
        rw [if_pos rfl]
        exact ⟨fun h => absurd (by cases hv _ h; rfl) hll, fun h => (by cases h)⟩
      · rw [if_neg hx]
        exact .rfl

end State

/-! ## Steps -/

/-- What a step can do. -/
inductive Moves (s : State) : State → Prop
  | none : Moves s s
  | enter {v : Nat} (userId : PyStr) : s.visits.get? v = none → Moves s (s.enter v userId)
  | resume {v l : Nat} {w : Visit} {m : Mutex Nat} : s.visits.get? v = some w →
      w.stage = .waiting l → (s.userLocks l).wake v = some m →
      Moves s ((s.setUserLock l m).suspend v (.body l))
  | cleanUp {v l : Nat} {w : Visit} {m : Mutex Nat} : s.visits.get? v = some w →
      w.stage = .waiting l ∨ w.stage = .body l →
      m.Tells (fun x => s.At (.body l) x ∧ x ≠ v) (fun x => s.At (.waiting l) x ∧ x ≠ v) →
      Moves s ((s.setUserLock l m).cleanUp v w.userId)

theorem step_moves {s : State} (h : s.Inv) (i : Input) : Moves s (step i s).2 := by
  have hstage : ∀ {v w}, s.visits.get? v = some w → w.stage ≠ .entering ∧ w.stage ≠ .exiting := by
    intro v w hw
    obtain ⟨l, n, hl | hl, -⟩ := h.entry hw <;> simp [hl]
  have hnot : ∀ {v w stage}, s.visits.get? v = some w → stage ≠ w.stage → ¬ s.At stage v := by
    rintro v w stage hw hne ⟨w', hw', rfl⟩
    rw [hw] at hw'
    cases hw'
    exact hne rfl
  cases i with
  | enter v userId =>
      dsimp only [step]
      split
      · exact .none
      · exact .enter userId ‹_›
  | turn v userId lockTimeout =>
      dsimp only [step]
      split
      · exact .none
      · split
        · exact .none
        · exact .enter userId ‹_›
  | resume v =>
      dsimp only [step]
      split
      · exact absurd rfl (hstage ‹_›).1
      · split
        · exact .resume ‹_› rfl ‹_›
        · exact .none
      · exact absurd rfl (hstage ‹_›).2
      · exact .none
  | leave v =>
      dsimp only [step]
      split
      · rename_i id userId l hw
        have hbody : s.At (.body l) v := ⟨_, hw, rfl⟩
        refine .cleanUp (w := ⟨id, userId, .body l⟩) hw (.inr rfl) ?_
        refine ((h.userLock l).release hbody).of_iff (fun _ => .rfl) fun x => ?_
        refine ⟨fun hx => ⟨hx, ?_⟩, And.left⟩
        rintro rfl
        exact hnot hw (by simp) hx
      · exact .none
  | cancel v =>
      dsimp only [step]
      split
      · exact absurd rfl (hstage ‹_›).1
      · rename_i id userId l hw
        refine .cleanUp (w := ⟨id, userId, .waiting l⟩) hw (.inl rfl) ?_
        refine ((h.userLock l).abandon v).of_iff (fun x => ?_) fun _ => .rfl
        refine ⟨fun hx => ⟨hx, ?_⟩, And.left⟩
        rintro rfl
        exact hnot hw (by simp) hx
      · exact absurd rfl (hstage ‹_›).2
      · exact .none

theorem Moves.inv {s s' : State} (h : s.Inv) (hmove : Moves s s') : s'.Inv := by
  cases hmove with
  | none => exact h
  | enter userId hv => exact State.enter_inv h hv userId
  | resume hw hl hwake => exact State.resume_inv h hw hl hwake
  | cleanUp hw hl hm => exact State.cleanUp_inv h hw hl hm

/-- A lock that an entry has after a step it had before, or it has just been made. -/
theorem Moves.locks {s s' : State} (h : s.Inv) (hmove : Moves s s') {userId : PyStr} {e : Entry}
    (he : s'.locks userId = some e) :
    (∃ n, s.locks userId = some ⟨e.lock, n⟩) ∨ e.lock = s.nextLock := by
  cases hmove with
  | none => exact .inl ⟨e.refCount, he⟩
  | @enter v user hv =>
      obtain ⟨l, n, k, henter, hcase⟩ := State.enter_eq h.dictLock v user
      rw [henter] at he
      dsimp only [State.suspend] at he
      by_cases hu : userId = user
      · subst hu
        rw [Function.update_self] at he
        cases he
        rcases hcase with ⟨hentry, -⟩ | ⟨-, rfl, -⟩
        · exact .inl ⟨n, hentry⟩
        · exact .inr rfl
      · rw [Function.update_of_ne hu] at he
        exact .inl ⟨e.refCount, he⟩
  | resume => exact .inl ⟨e.refCount, he⟩
  | @cleanUp v l w m hw =>
      obtain ⟨l, n, -, hentry⟩ := h.entry hw
      rw [@State.cleanUp_eq (s.setUserLock _ m) _ _ _ h.dictLock hentry] at he
      dsimp only [State.endVisit, State.setLocks, State.setUserLock] at he
      by_cases hu : userId = w.userId
      · subst hu
        rw [Function.update_self] at he
        split at he <;> cases he
        exact .inl ⟨n, hentry⟩
      · rw [Function.update_of_ne hu] at he
        exact .inl ⟨e.refCount, he⟩

theorem run_inv {es : List (Event step)} {s : State} (h : Run State.init es s) :
    s.Inv ∧ ∀ e ∈ es, e.before.Inv ∧ e.after.Inv := by
  refine h.invariant State.init_inv fun e _ hinv => ?_
  have := (step_moves hinv e.input).inv hinv
  rwa [e.executed] at this

/-! ## Every run -/

theorem State.Inv.countedVisits {s : State} (h : s.Inv) (userId : PyStr) :
    s.countedVisits userId = s.visits.rows.countP (decide <| ·.userId = userId) := by
  refine List.countP_congr fun w hw => ?_
  obtain ⟨l, n, hstage, -⟩ := h.entry (Table.get?_of_mem hw)
  rcases hstage with hstage | hstage <;> simp [hstage, Stage.counted]

/-- Whoever has a lock, or waits for it, is a visit of the user whose entry has it. -/
theorem State.Inv.owner {s : State} (h : s.Inv) {l v : Nat}
    (hv : (s.userLocks l).holder = some v ∨ v ∈ (s.userLocks l).waiters) :
    ∃ w n, s.visits.get? v = some w ∧ s.locks w.userId = some ⟨l, n⟩ := by
  have hat : ∃ w, s.visits.get? v = some w ∧ (w.stage = .waiting l ∨ w.stage = .body l) := by
    rcases hv with hv | hv
    · obtain ⟨w, hw, hl⟩ := ((h.userLock l).holder v).mp hv
      exact ⟨w, hw, .inr hl⟩
    · obtain ⟨w, hw, hl⟩ := ((h.userLock l).waiters v).mp hv
      exact ⟨w, hw, .inl hl⟩
  obtain ⟨w, hw, hl⟩ := hat
  obtain ⟨l', n, hl', hentry⟩ := h.entry hw
  obtain rfl := Stage.lock_eq hl hl'
  exact ⟨w, n, hw, hentry⟩

/-- **The turns of a user are serialised**, and the map holds the locks that are in use: what is
true at the end of a run, so at every point of it, and what each of its steps leaves alone. -/
theorem userLocks_serialise {es : List (Event step)} {s : State} (h : Run State.init es s) :
    (∀ v v' w w' l l', s.visits.get? v = some w → s.visits.get? v' = some w' →
      w.stage = .body l → w'.stage = .body l' → w.userId = w'.userId → v = v') ∧
    (∀ userId, (∃ e, s.locks userId = some e) ↔ 0 < s.countedVisits userId) ∧
    (∀ userId e, s.locks userId = some e →
      e.refCount = s.countedVisits userId ∧ 0 < e.refCount) ∧
    (∀ l v, (s.userLocks l).holder = some v ∨ v ∈ (s.userLocks l).waiters →
      ∃ w n, s.visits.get? v = some w ∧ s.locks w.userId = some ⟨l, n⟩) ∧
    (∀ e ∈ es, ∀ userId entry v, e.before.locks userId = some entry →
      (e.after.userLocks entry.lock).holder = some v ∨ v ∈ (e.after.userLocks entry.lock).waiters →
      ∃ n, e.after.locks userId = some ⟨entry.lock, n⟩) ∧
    (s.visits.rows = [] → ∀ userId, s.locks userId = none) := by
  obtain ⟨hinv, hsteps⟩ := run_inv h
  have hcount : ∀ userId e, s.locks userId = some e →
      e.refCount = s.countedVisits userId ∧ 0 < e.refCount := by
    intro userId e he
    rw [hinv.countedVisits]
    exact hinv.refCount he
  refine ⟨?_, fun userId => ⟨?_, fun hpos => ?_⟩, hcount, fun l v => hinv.owner, ?_,
    fun hnone userId => ?_⟩
  · -- both have the lock of the user's entry
    intro v v' w w' l l' hw hw' hl hl' hu
    obtain ⟨l₁, n, hstage, hentry⟩ := hinv.entry hw
    obtain ⟨l₂, n', hstage', hentry'⟩ := hinv.entry hw'
    obtain rfl : l = l₁ := by simpa [hl] using hstage
    obtain rfl : l' = l₂ := by simpa [hl'] using hstage'
    rw [hu, hentry'] at hentry
    cases hentry
    exact (hinv.userLock _).eq ⟨w, hw, hl⟩ ⟨w', hw', hl'⟩
  · rintro ⟨e, he⟩
    have := hcount userId e he
    omega
  · rw [hinv.countedVisits, List.countP_pos_iff] at hpos
    obtain ⟨w, hw, hu⟩ := hpos
    obtain ⟨l, n, -, hentry⟩ := hinv.entry (Table.get?_of_mem hw)
    rw [decide_eq_true_iff] at hu
    exact ⟨_, hu ▸ hentry⟩
  · intro e he userId entry v hentry hv
    obtain ⟨hbefore, hafter⟩ := hsteps e he
    obtain ⟨w, n, -, howner⟩ := hafter.owner hv
    have hmove := step_moves hbefore e.input
    rw [e.executed] at hmove
    rcases hmove.locks hbefore howner with ⟨n', hold⟩ | hnew
    · obtain rfl := hbefore.distinct hentry hold rfl
      exact ⟨n, howner⟩
    · have := hbefore.fresh hentry
      dsimp only at hnew
      omega
  · cases he : s.locks userId with
    | none => rfl
    | some e =>
        have := hcount userId e he
        simp [State.countedVisits, hnone] at this
        omega

/-- A turn that times out behind another, and then the other's end. -/
theorem userLocks_serialise_timeout :
    ((([.turn 0 (py "a") 5, .turn 1 (py "a") 5, .cancel 1, .leave 0] : List Input).foldl
      (fun s i => (step i s).2) State.init).locks (py "a")) = none :=
  (userLocks_serialise (Run.ofTrace
    [.turn 0 (py "a") 5, .turn 1 (py "a") 5, .cancel 1, .leave 0] State.init)).2.2.2.2.2 rfl _

end Katherine.Cloud.UserLocks
