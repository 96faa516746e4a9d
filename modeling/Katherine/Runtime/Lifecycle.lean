import Katherine.Lib.Runs

/-!
# Closing the runtime

`close`, `_ensure_storage` and the public methods of `CompanionRuntime` in
`backend/companion_runtime.py`, for a runtime that was given a path. Bridge calls come in
on worker threads, so what is atomic here is one access to `_storage` and one operation
of the store; `LocalStorage` checks its own `_closed` under the lock `close()` takes.

`_ensure_storage` knows only that `_storage` is empty, not why. `close()` empties it, so
whoever asks next opens the file again. `Orderly` says when nobody does;
`close_is_terminal` is what closing means there, and `closed_runtime_reopens` a run
without.
-/

namespace Katherine.Lifecycle

open Runs

/-! ## Errors -/

inductive LocalErrorCode
  | timeout
  | rateLimited
  | serviceUnavailable
  | validation
  | requestReplay
  | requestConflict
  | configuration
  | storage
  | unknown
deriving DecidableEq

/-- What a step of a call can raise, as far as `runtime_error_code` tells it apart. -/
inductive Exc
  /-- `LocalStorageError`, sanitized already. -/
  | localStorage (code : LocalErrorCode)
  | languageModelConfiguration
  /-- `TurnExecutionError` and `LanguageModelError`, by what they are mapped to. -/
  | timeout
  | rateLimited
  | serviceUnavailable
  | authFailed
  | conflict
  | storageCorrupt
  | persistence
  | storageValidation
  | trustedContext
  /-- `AttributeError`: an operation of `None`. -/
  | attribute
  | other
deriving DecidableEq

/-- `runtime_error_code`. -/
def runtimeErrorCode : Exc → LocalErrorCode
  | .localStorage code => code
  | .languageModelConfiguration => .configuration
  | .timeout => .timeout
  | .rateLimited => .rateLimited
  | .serviceUnavailable => .serviceUnavailable
  | .authFailed => .configuration
  | .conflict => .requestConflict
  | .storageCorrupt => .storage
  | .persistence => .storage
  | .storageValidation => .validation
  | .trustedContext => .serviceUnavailable
  | .attribute => .unknown
  | .other => .unknown

/-- The public errors of the store: a constant code and a constant message. -/
def Exc.isStorageError : Exc → Bool
  | .localStorage _ => true
  | .conflict => true
  | .storageCorrupt => true
  | .persistence => true
  | .storageValidation => true
  | _ => false

/-- How a public call ends. -/
inductive Outcome
  | success
  /-- A payload that says so; `health` gives no code. -/
  | failure (code : Option LocalErrorCode)
  | raises (e : Exc)
deriving DecidableEq

/-- The call failed, with nothing but constant texts. -/
def Outcome.sanitized : Outcome → Bool
  | .success => false
  | .failure _ => true
  | .raises e => e.isStorageError

/-! ## Calls -/

/-- The public methods that ask the store one thing. -/
inductive Query
  | runtimeState
  | getState
  | loadHistory
  | getStorageMetrics
  | deleteHistory
  | deleteMemories
  | resetEmotionalState
  | resetRelationshipState
deriving DecidableEq

/-- Its `except` clauses. -/
def Query.boundary : Query → Exc → Outcome
  | .runtimeState, _ => .failure (some .storage)
  | .getState, e => .raises e
  | .loadHistory, e => .raises e
  | .getStorageMetrics, e => .raises e
  | .deleteHistory, e => .failure (some (runtimeErrorCode e))
  | .deleteMemories, e => .failure (some (runtimeErrorCode e))
  | .resetEmotionalState, e => .failure (some (runtimeErrorCode e))
  | .resetRelationshipState, e => .failure (some (runtimeErrorCode e))

/-- `commit_turn_async`. -/
def turnFailed (e : Exc) : Outcome := .failure (some (runtimeErrorCode e))

/-- A storage object, by the order in which they were opened. -/
abbrev Store := Nat

/-- What a handle is wanted for. A turn keeps the one it was reserved with. -/
inductive Use
  /-- `health`. -/
  | probe
  | query (q : Query)
  | reserve
  | loadState (turn : Store)
  | loadHistory (turn : Store)
deriving DecidableEq

/-- Where a call is. -/
inductive Pc
  /-- At `if self._storage is None`. -/
  | test (use : Use)
  /-- In `open_local_storage`. -/
  | opening (use : Use)
  /-- At the assignment behind it. -/
  | assigning (use : Use) (opened : Store)
  /-- At `return self._storage`. -/
  | reading (use : Use)
  /-- `_ensure_storage` returned. -/
  | holding (use : Use) (handle : Option Store)
  /-- `_load_local_memories`, on the handle of the history. -/
  | loadingMemories (turn handle : Store)
  /-- From the migrations to the generation. -/
  | thinking (turn : Store)
  | committing (turn : Store)
  | releasing (turn : Store) (e : Exc)
  /-- The answer is there. -/
  | finishing (outcome : Outcome)
  | finished
  /-- `close()`: at its three statements, and behind them. -/
  | closeRead
  | closeClear (handle : Option Store)
  | closeStore (handle : Option Store)
  | closed
deriving DecidableEq

/-- The store is being opened, from the test that found none to the assignment. -/
def Pc.isOpening : Pc → Bool
  | .opening _ => true
  | .assigning _ _ => true
  | _ => false

/-- A `close()` is under way. -/
def Pc.isClosing : Pc → Bool
  | .closeClear _ => true
  | .closeStore _ => true
  | _ => false

/-- A `close()` that has started. -/
def Pc.hasStartedClosing : Pc → Bool
  | .closeClear _ => true
  | .closeStore _ => true
  | .closed => true
  | _ => false

/-- `_storage`, the `_closed` flag of every storage object so far, and every call so far. -/
structure Runtime where
  handle : Option Store
  stores : List Bool
  calls : List Pc
deriving DecidableEq

def Runtime.init : Runtime := ⟨none, [], []⟩

/-- `is_closed`. -/
def Runtime.isClosed (r : Runtime) : Bool :=
  match r.handle with
  | none => false
  | some s => decide (r.stores[s]? = some true)

/-- `_closed` of a storage object is unset. -/
def Runtime.IsOpen (r : Runtime) (s : Store) : Prop := r.stores[s]? = some false

instance (r : Runtime) (s : Store) : Decidable (r.IsOpen s) :=
  inferInstanceAs (Decidable (_ = _))

/-! ## Steps -/

/-- What the store, the provider and the caller's arguments decide. -/
inductive Answer
  | ok
  /-- `reserve_request` found the request completed. -/
  | replay
  | conflict
  | raises (e : Exc)
deriving DecidableEq

inductive Input
  | health
  | query (q : Query)
  /-- `valid` is what the early validation says. -/
  | sendTurn (valid : Bool)
  | close
  /-- Call `i` goes on. -/
  | advance (i : Nat) (answer : Answer)
deriving DecidableEq

inductive Effect
  | silent
  /-- `open_local_storage` returned. -/
  | opens (s : Store)
  /-- An operation read or wrote the database. -/
  | touches (s : Store)
  /-- `close()` returned. -/
  | closeReturned
  | returns (i : Nat) (outcome : Outcome)
deriving DecidableEq

def Effect.usesStore : Effect → Bool
  | .opens _ => true
  | .touches _ => true
  | _ => false

/-- Where an exception takes a call that wanted a handle. -/
def Use.fail (e : Exc) : Use → Pc
  | .probe => .finishing (.failure none)
  | .query q => .finishing (q.boundary e)
  | .reserve => .finishing (turnFailed e)
  | .loadState turn => .releasing turn e
  | .loadHistory turn => .releasing turn e

/-- Where a call goes when the operation it wanted the handle for has been done. -/
def Use.answered (s : Store) : Use → Answer → Pc
  | use, .raises e => use.fail e
  | .probe, _ => .finishing .success
  | .query _, _ => .finishing .success
  | .reserve, .ok => .test (.loadState s)
  | .reserve, .replay => .finishing .success
  | .reserve, .conflict => .finishing (turnFailed .conflict)
  | .loadState turn, _ => .test (.loadHistory turn)
  | .loadHistory turn, _ => .loadingMemories turn s

/-- An operation of storage object `s`; a closed one raises `storage_closed` at its gate. -/
def Runtime.operate (r : Runtime) (s : Store) (answer : Answer) (next : Answer → Pc) :
    Effect × Pc :=
  if r.IsOpen s then (.touches s, next answer) else (.silent, next (.raises .persistence))

/-- One step of call `i`, which is at `pc`: what it does, and the state less that call's place. -/
def Runtime.advance (r : Runtime) (i : Nat) (answer : Answer) (pc : Pc) :
    Effect × Pc × Option Store × List Bool :=
  let stays := fun (p : Effect × Pc) => (p.1, p.2, r.handle, r.stores)
  match pc with
  | .test use => stays (.silent, if r.handle = none then .opening use else .reading use)
  | .opening use =>
      match answer with
      | .raises e => stays (.silent, use.fail e)
      | _ => (.opens r.stores.length, .assigning use r.stores.length, r.handle, r.stores ++ [false])
  | .assigning use s => (.silent, .reading use, some s, r.stores)
  | .reading use => stays (.silent, if use = .probe then .finishing .success else .holding use r.handle)
  | .holding use none => stays (.silent, use.fail .attribute)
  | .holding use (some s) => stays (r.operate s answer (use.answered s))
  | .loadingMemories turn s => stays (r.operate s answer fun
      | .raises e => .releasing turn e
      | _ => .thinking turn)
  | .thinking turn => stays (.silent, match answer with
      | .raises e => .releasing turn e
      | _ => .committing turn)
  | .committing turn => stays (r.operate turn answer fun
      | .raises e => .releasing turn e
      | _ => .finishing .success)
  -- what the release itself raises is dropped
  | .releasing turn e => stays (r.operate turn answer fun _ => .finishing (turnFailed e))
  | .finishing outcome => stays (.returns i outcome, .finished)
  | .finished => stays (.silent, .finished)
  | .closeRead => stays (.silent, .closeClear r.handle)
  | .closeClear handle => (.silent, .closeStore handle, none, r.stores)
  | .closeStore handle =>
      (.closeReturned, .closed, r.handle, match handle with
        | none => r.stores
        | some s => r.stores.set s true)
  | .closed => stays (.silent, .closed)

def Runtime.begin (r : Runtime) (pc : Pc) : Effect × Runtime :=
  (.silent, { r with calls := r.calls ++ [pc] })

def step : Input → Runtime → Effect × Runtime
  | .health, r => r.begin (.test .probe)
  | .query q, r => r.begin (.test (.query q))
  | .sendTurn valid, r =>
      r.begin (if valid then .test .reserve else .finishing (turnFailed .storageValidation))
  | .close, r => r.begin .closeRead
  | .advance i answer, r =>
      match r.calls[i]? with
      | none => (.silent, r)
      | some pc =>
          let (effect, pc', handle, stores) := r.advance i answer pc
          (effect, ⟨handle, stores, r.calls.set i pc'⟩)

/-! ## What one step does -/

/-- Neither opening the store nor closing it. -/
def Pc.isPlain (pc : Pc) : Bool := !pc.isOpening && !pc.hasStartedClosing && decide (pc ≠ .closeRead)

/-- The steps of a call. `plain` are those that leave `_storage` and the storage objects alone. -/
inductive Advanced (r : Runtime) (i : Nat) :
    Pc → Effect → Pc → Option Store → List Bool → Prop
  | plain {pc pc' : Pc} {effect : Effect} (hpc : pc.isPlain = true) (hpc' : pc'.isPlain = true)
      (heffect : effect = .silent ∨ (∃ s, r.IsOpen s ∧ effect = .touches s)
        ∨ ∃ outcome, pc = .finishing outcome ∧ effect = .returns i outcome) :
      Advanced r i pc effect pc' r.handle r.stores
  | tested {use : Use} (hempty : r.handle = none) :
      Advanced r i (.test use) .silent (.opening use) r.handle r.stores
  | openFailed {use : Use} {e : Exc} :
      Advanced r i (.opening use) .silent (use.fail e) r.handle r.stores
  | opened {use : Use} :
      Advanced r i (.opening use) (.opens r.stores.length) (.assigning use r.stores.length) r.handle
        (r.stores ++ [false])
  | assigned {use : Use} {s : Store} :
      Advanced r i (.assigning use s) .silent (.reading use) (some s) r.stores
  | closeRead : Advanced r i .closeRead .silent (.closeClear r.handle) r.handle r.stores
  | closeCleared {handle : Option Store} :
      Advanced r i (.closeClear handle) .silent (.closeStore handle) none r.stores
  | closeReturned {handle : Option Store} {stores : List Bool}
      (hstores : stores = match handle with | none => r.stores | some s => r.stores.set s true) :
      Advanced r i (.closeStore handle) .closeReturned .closed r.handle stores
  | closed : Advanced r i .closed .silent .closed r.handle r.stores

@[simp]
theorem Use.fail_isPlain (use : Use) (e : Exc) : (use.fail e).isPlain = true := by
  cases use <;> rfl

@[simp]
theorem Use.answered_isPlain (use : Use) (s : Store) (answer : Answer) :
    (use.answered s answer).isPlain = true := by
  cases answer with
  | raises e => rw [Use.answered]; exact use.fail_isPlain e
  | ok => cases use <;> rfl
  | replay => cases use <;> rfl
  | conflict => cases use <;> rfl

theorem Advanced.operate {r : Runtime} {i : Nat} {s : Store} {answer : Answer} {next : Answer → Pc}
    {pc : Pc} (hpc : pc.isPlain = true) (hnext : ∀ a, (next a).isPlain = true) :
    Advanced r i pc (r.operate s answer next).1 (r.operate s answer next).2 r.handle r.stores := by
  rw [Runtime.operate]
  split
  · next hopen => exact .plain hpc (hnext _) (.inr (.inl ⟨s, hopen, rfl⟩))
  · exact .plain hpc (hnext _) (.inl rfl)

/-- **What a call can do in one step.** -/
theorem Runtime.advanced (r : Runtime) (i : Nat) (answer : Answer) (pc : Pc) :
    Advanced r i pc (r.advance i answer pc).1 (r.advance i answer pc).2.1
      (r.advance i answer pc).2.2.1 (r.advance i answer pc).2.2.2 := by
  cases pc with
  | test use =>
      simp only [Runtime.advance]
      split
      · next hempty => exact .tested hempty
      · exact .plain rfl rfl (.inl rfl)
  | opening use =>
      cases answer with
      | raises e => exact .openFailed
      | ok => exact .opened
      | replay => exact .opened
      | conflict => exact .opened
  | assigning use s => exact .assigned
  | reading use =>
      simp only [Runtime.advance]
      split
      · exact .plain rfl rfl (.inl rfl)
      · exact .plain rfl rfl (.inl rfl)
  | holding use handle =>
      cases handle with
      | none => exact .plain rfl (use.fail_isPlain _) (.inl rfl)
      | some s => exact .operate rfl (use.answered_isPlain s)
  | loadingMemories turn s => exact .operate rfl fun a => by cases a <;> rfl
  | thinking turn => exact .plain rfl (by cases answer <;> rfl) (.inl rfl)
  | committing turn => exact .operate rfl fun a => by cases a <;> rfl
  | releasing turn e => exact .operate rfl fun a => rfl
  | finishing outcome => exact .plain rfl rfl (.inr (.inr ⟨outcome, rfl, rfl⟩))
  | finished => exact .plain rfl rfl (.inl rfl)
  | closeRead => exact .closeRead
  | closeClear handle => exact .closeCleared
  | closeStore handle => exact .closeReturned rfl
  | closed => exact .closed

/-- **What a step is.** A call begins, nothing happens, or one call goes on. -/
inductive Stepped (r : Runtime) (input : Input) : Effect → Runtime → Prop
  | began {pc : Pc} (hpc : pc.isPlain = true ∨ pc = .closeRead) :
      Stepped r input .silent ⟨r.handle, r.stores, r.calls ++ [pc]⟩
  | nothing : Stepped r input .silent r
  | advanced {i : Nat} {answer : Answer} {pc pc' : Pc} {effect : Effect} {handle : Option Store}
      {stores : List Bool} (hinput : input = .advance i answer) (hpc : r.calls[i]? = some pc)
      (h : Advanced r i pc effect pc' handle stores) :
      Stepped r input effect ⟨handle, stores, r.calls.set i pc'⟩

theorem step_stepped (input : Input) (r : Runtime) :
    Stepped r input (step input r).1 (step input r).2 := by
  cases input with
  | health => exact .began (.inl rfl)
  | query q => exact .began (.inl rfl)
  | sendTurn valid => exact .began (.inl (by cases valid <;> rfl))
  | close => exact .began (.inr rfl)
  | advance i answer =>
      simp only [step]
      cases hpc : r.calls[i]? with
      | none => exact .nothing
      | some pc => exact .advanced rfl hpc (r.advanced i answer pc)

/-! ## When closing is terminal -/

/-- The condition on a step. A call finds `_storage` empty only before any `close()` has started,
and while no other call is opening the store; a `close()` starts while no call is opening it, and
no other `close()` is under way. -/
def Orderly (r : Runtime) : Input → Prop
  | .advance i _ =>
      match r.calls[i]? with
      | some (.test _) => r.handle = none →
          (∀ pc ∈ r.calls, pc.isOpening = false) ∧ ∀ pc ∈ r.calls, pc.hasStartedClosing = false
      | some .closeRead =>
          (∀ pc ∈ r.calls, pc.isOpening = false) ∧ ∀ pc ∈ r.calls, pc.isClosing = false
      | _ => True
  | _ => True

instance (r : Runtime) (input : Input) : Decidable (Orderly r input) := by
  unfold Orderly
  split
  · split <;> infer_instance
  · infer_instance

theorem Orderly.test {r : Runtime} {i : Nat} {answer : Answer} {use : Use}
    (h : Orderly r (.advance i answer)) (hpc : r.calls[i]? = some (.test use))
    (hempty : r.handle = none) :
    (∀ pc ∈ r.calls, pc.isOpening = false) ∧ ∀ pc ∈ r.calls, pc.hasStartedClosing = false := by
  rw [Orderly, hpc] at h
  exact h hempty

theorem Orderly.closeRead {r : Runtime} {i : Nat} {answer : Answer}
    (h : Orderly r (.advance i answer)) (hpc : r.calls[i]? = some .closeRead) :
    (∀ pc ∈ r.calls, pc.isOpening = false) ∧ ∀ pc ∈ r.calls, pc.isClosing = false := by
  rw [Orderly, hpc] at h
  exact h

/-- At most one call of the list is `P`. -/
def AtMostOne (P : Pc → Bool) (calls : List Pc) : Prop :=
  ∀ (i j : Nat) (pc pc' : Pc), calls[i]? = some pc → calls[j]? = some pc' →
    P pc = true → P pc' = true → i = j

/-- What a call keeps open although `_storage` does not name it. -/
def Pc.keeps : Pc → Option Store
  | .assigning _ s => some s
  | .closeClear handle => handle
  | .closeStore handle => handle
  | _ => none

/-- What holds of every orderly run. -/
structure LifeInv (r : Runtime) : Prop where
  /-- An open store is known to somebody who will close it. -/
  known : ∀ s, r.IsOpen s → r.handle = some s ∨ ∃ pc ∈ r.calls, pc.keeps = some s
  /-- While a call is opening the store there is none, and no `close()` has started. -/
  opening : ∀ pc ∈ r.calls, pc.isOpening = true →
    r.handle = none ∧ ∀ pc' ∈ r.calls, pc'.hasStartedClosing = false
  oneOpening : AtMostOne Pc.isOpening r.calls
  oneClosing : AtMostOne Pc.isClosing r.calls
  /-- A `close()` that has started leaves `_storage` empty, or is about to. -/
  cleared : r.handle ≠ none → ∀ pc ∈ r.calls, pc.hasStartedClosing = true → pc = .closeClear r.handle

theorem lifeInv_init : LifeInv .init where
  known := by intro s h; simp [Runtime.IsOpen, Runtime.init] at h
  opening := by intro pc h; simp [Runtime.init] at h
  oneOpening := by intro i j pc pc' h; simp [Runtime.init] at h
  oneClosing := by intro i j pc pc' h; simp [Runtime.init] at h
  cleared := by intro h; exact absurd rfl h

section Calls

variable {P : Pc → Bool} {calls : List Pc} {i : Nat} {pc pc' : Pc}

theorem AtMostOne.append (h : AtMostOne P calls) (hpc : P pc = false) :
    AtMostOne P (calls ++ [pc]) := by
  have key : ∀ {j : Nat} {q : Pc}, (calls ++ [pc])[j]? = some q → P q = true → calls[j]? = some q := by
    intro j q hq hP
    by_cases hj : j < calls.length
    · rwa [List.getElem?_append_left hj] at hq
    · rw [List.getElem?_append_right (by omega)] at hq
      rw [List.mem_singleton.mp (List.mem_of_getElem? hq), hpc] at hP
      cases hP
  intro j k q q' hq hq' hP hP'
  exact h j k q q' (key hq hP) (key hq' hP') hP hP'

/-- One call moves, and is `P` afterwards only if it was before, or no other is. -/
theorem AtMostOne.set (h : AtMostOne P calls) (hpc : calls[i]? = some pc)
    (hnew : P pc' = true → P pc = true ∨ ∀ q ∈ calls, P q = false) :
    AtMostOne P (calls.set i pc') := by
  have hi : i < calls.length := (List.getElem?_eq_some_iff.mp hpc).1
  have other : ∀ {j : Nat} {q : Pc}, j ≠ i → (calls.set i pc')[j]? = some q → calls[j]? = some q := by
    intro j q hj hq
    rwa [List.getElem?_set_ne (Ne.symm hj)] at hq
  have own : ∀ {q : Pc}, (calls.set i pc')[i]? = some q → q = pc' := by
    intro q hq
    rw [List.getElem?_set_self hi] at hq
    exact (Option.some.inj hq).symm
  -- the moved call and another one that is `P`
  have mixed : ∀ {j : Nat} {q q' : Pc}, j ≠ i → (calls.set i pc')[i]? = some q →
      (calls.set i pc')[j]? = some q' → P q = true → P q' = true → i = j := by
    intro j q q' hj hq hq' hP hP'
    rw [own hq] at hP
    have hq' := other hj hq'
    rcases hnew hP with hold | hnone
    · exact h i j pc q' hpc hq' hold hP'
    · rw [hnone q' (List.mem_of_getElem? hq')] at hP'
      cases hP'
  intro j k q q' hq hq' hP hP'
  by_cases hj : j = i
  · subst hj
    by_cases hk : k = j
    · exact hk.symm
    · exact mixed hk hq hq' hP hP'
  · by_cases hk : k = i
    · subst hk
      exact (mixed hj hq' hq hP' hP).symm
    · exact h j k q q' (other hj hq) (other hk hq') hP hP'

theorem mem_set_or (pc' : Pc) (hpc : calls[i]? = some pc) {q : Pc} (hq : q ∈ calls) :
    q = pc ∨ q ∈ calls.set i pc' := by
  obtain ⟨j, hj⟩ := List.getElem?_of_mem hq
  by_cases hij : i = j
  · subst hij
    exact .inl (Option.some.inj (hj.symm.trans hpc))
  · refine .inr (List.mem_of_getElem? (i := j) ?_)
    rwa [List.getElem?_set_ne hij]

theorem forall_mem_set {Q : Pc → Prop} (h : ∀ q ∈ calls, Q q) (hnew : Q pc') :
    ∀ q ∈ calls.set i pc', Q q := by
  intro q hq
  rcases List.mem_or_eq_of_mem_set hq with hq | rfl
  · exact h q hq
  · exact hnew

end Calls

/-! ## The invariant -/

theorem Pc.isPlain_iff {pc : Pc} : pc.isPlain = true ↔
    pc.isOpening = false ∧ pc.hasStartedClosing = false ∧ pc ≠ .closeRead := by
  simp only [Pc.isPlain, Bool.and_eq_true, Bool.not_eq_true', decide_eq_true_eq, and_assoc]

theorem Pc.isClosing_of_hasStarted {pc : Pc} (h : pc.hasStartedClosing = false) :
    pc.isClosing = false := by
  cases pc <;> first | rfl | cases h

theorem Pc.keeps_of_plain {pc : Pc} (h : pc.isPlain = true) : pc.keeps = none := by
  cases pc <;> first | rfl | cases h

/-- A call begins. -/
theorem LifeInv.began {r : Runtime} (h : LifeInv r) {pc : Pc}
    (hpc : pc.isPlain = true ∨ pc = .closeRead) : LifeInv ⟨r.handle, r.stores, r.calls ++ [pc]⟩ := by
  have hopening : pc.isOpening = false := by
    rcases hpc with hpc | rfl
    · exact (Pc.isPlain_iff.mp hpc).1
    · rfl
  have hstarted : pc.hasStartedClosing = false := by
    rcases hpc with hpc | rfl
    · exact (Pc.isPlain_iff.mp hpc).2.1
    · rfl
  refine ⟨?_, ?_, h.oneOpening.append hopening,
    h.oneClosing.append (Pc.isClosing_of_hasStarted hstarted), ?_⟩
  · intro s hs
    rcases h.known s hs with hs | ⟨q, hq, hkeeps⟩
    · exact .inl hs
    · exact .inr ⟨q, List.mem_append_left _ hq, hkeeps⟩
  · intro q hq hqo
    rcases List.mem_append.mp hq with hq | hq
    · obtain ⟨hnone, hstart⟩ := h.opening q hq hqo
      refine ⟨hnone, fun q' hq' => ?_⟩
      rcases List.mem_append.mp hq' with hq' | hq'
      · exact hstart q' hq'
      · rw [List.mem_singleton.mp hq', hstarted]
    · rw [List.mem_singleton.mp hq, hopening] at hqo
      cases hqo
  · intro hsome q hq hqs
    rcases List.mem_append.mp hq with hq | hq
    · exact h.cleared hsome q hq hqs
    · rw [List.mem_singleton.mp hq, hstarted] at hqs
      cases hqs

theorem LifeInv.noneOpening {r : Runtime} (h : LifeInv r) {pc : Pc} (hpc : pc ∈ r.calls)
    (hstarted : pc.hasStartedClosing = true) : ∀ q ∈ r.calls, q.isOpening = false := by
  intro q hq
  by_contra hqo
  rw [(h.opening q hq (by simpa using hqo)).2 pc hpc] at hstarted
  cases hstarted

/-- A call goes from `pc` to `pc'`, and `_storage` does not change. -/
theorem LifeInv.moved {r : Runtime} (h : LifeInv r) {i : Nat} {pc pc' : Pc} {stores : List Bool}
    (hpc : r.calls[i]? = some pc)
    (hopen : ∀ s, stores[s]? = some false → pc'.keeps = some s ∨ r.IsOpen s ∧ pc.keeps ≠ some s)
    (hopening : pc'.isOpening = true → pc.isOpening = true ∨ r.handle = none ∧
      (∀ q ∈ r.calls, q.isOpening = false) ∧ ∀ q ∈ r.calls, q.hasStartedClosing = false)
    (hclosing : pc'.isClosing = true → pc.isClosing = true ∨ ∀ q ∈ r.calls, q.isClosing = false)
    (hstarted : pc'.hasStartedClosing = true → ∀ q ∈ r.calls, q.isOpening = false)
    (hcleared : r.handle ≠ none → pc'.hasStartedClosing = true → pc' = .closeClear r.handle) :
    LifeInv ⟨r.handle, stores, r.calls.set i pc'⟩ := by
  have hmem : pc ∈ r.calls := List.mem_of_getElem? hpc
  refine ⟨?_, ?_, h.oneOpening.set hpc fun ho => (hopening ho).imp_right fun ho => ho.2.1,
    h.oneClosing.set hpc hclosing, ?_⟩
  · intro s hs
    have hi := (List.getElem?_eq_some_iff.mp hpc).1
    rcases hopen s hs with hk | ⟨hold, hk'⟩
    · exact .inr ⟨pc', List.mem_set hi _, hk⟩
    · rcases h.known s hold with hhandle | ⟨q, hq, hk⟩
      · exact .inl hhandle
      · rcases mem_set_or pc' hpc hq with rfl | hq
        · exact absurd hk hk'
        · exact .inr ⟨q, hq, hk⟩
  · intro q hq hqo
    rcases List.mem_or_eq_of_mem_set hq with hq | rfl
    · obtain ⟨hnone, hstart⟩ := h.opening q hq hqo
      refine ⟨hnone, forall_mem_set hstart ?_⟩
      by_contra hs
      rw [hstarted (by simpa using hs) q hq] at hqo
      cases hqo
    · have hold : r.handle = none ∧ ∀ q' ∈ r.calls, q'.hasStartedClosing = false := by
        rcases hopening hqo with hpco | ⟨hnone, -, hstart⟩
        · exact h.opening pc hmem hpco
        · exact ⟨hnone, hstart⟩
      exact ⟨hold.1, forall_mem_set hold.2 (by cases q <;> first | rfl | cases hqo)⟩
  · intro hsome
    exact forall_mem_set (h.cleared hsome) (hcleared hsome)

theorem LifeInv.advanced {r : Runtime} (h : LifeInv r) {i : Nat} {answer : Answer} {pc pc' : Pc}
    {effect : Effect} {handle : Option Store} {stores : List Bool}
    (horderly : Orderly r (.advance i answer)) (hpc : r.calls[i]? = some pc)
    (hadv : Advanced r i pc effect pc' handle stores) :
    LifeInv ⟨handle, stores, r.calls.set i pc'⟩ := by
  have hmem : pc ∈ r.calls := List.mem_of_getElem? hpc
  cases hadv with
  | plain hplain hplain' =>
      obtain ⟨hopening, hstarted, -⟩ := Pc.isPlain_iff.mp hplain'
      refine h.moved hpc ?_ ?_ ?_ ?_ ?_
      · intro s hs
        exact .inr ⟨hs, by rw [Pc.keeps_of_plain hplain]; simp⟩
      · simp [hopening]
      · simp [Pc.isClosing_of_hasStarted hstarted]
      · simp [hstarted]
      · simp [hstarted]
  | tested hempty =>
      obtain ⟨hnone, hstart⟩ := horderly.test hpc hempty
      refine h.moved hpc ?_ ?_ ?_ ?_ ?_
      · intro s hs
        exact .inr ⟨hs, by simp [Pc.keeps]⟩
      · exact fun _ => .inr ⟨hempty, hnone, hstart⟩
      · simp [Pc.isClosing]
      · simp [Pc.hasStartedClosing]
      · simp [Pc.hasStartedClosing]
  | @openFailed use e =>
      obtain ⟨hopening, hstarted, -⟩ := Pc.isPlain_iff.mp (use.fail_isPlain e)
      refine h.moved hpc ?_ ?_ ?_ ?_ ?_
      · intro s hs
        exact .inr ⟨hs, by simp [Pc.keeps]⟩
      · simp [hopening]
      · simp [Pc.isClosing_of_hasStarted hstarted]
      · simp [hstarted]
      · simp [hstarted]
  | opened =>
      refine h.moved hpc ?_ ?_ ?_ ?_ ?_
      · intro s hs
        by_cases hlast : s = r.stores.length
        · exact .inl (by rw [hlast]; rfl)
        · have hlt : s < r.stores.length := by
            have := (List.getElem?_eq_some_iff.mp hs).1
            rw [List.length_append, List.length_singleton] at this
            exact Nat.lt_of_le_of_ne (Nat.lt_succ_iff.mp this) hlast
          rw [List.getElem?_append_left hlt] at hs
          exact .inr ⟨hs, by simp [Pc.keeps]⟩
      · exact fun _ => .inl rfl
      · simp [Pc.isClosing]
      · simp [Pc.hasStartedClosing]
      · simp [Pc.hasStartedClosing]
  | @assigned use s =>
      obtain ⟨hnone, hstart⟩ := h.opening _ hmem rfl
      have hreading : ∀ q ∈ r.calls.set i (.reading use), q.isOpening = false := by
        intro q hq
        by_contra hqo
        rw [Bool.not_eq_false] at hqo
        rcases List.mem_or_eq_of_mem_set hq with hold | rfl
        · obtain ⟨j, hj⟩ := List.getElem?_of_mem hq
          by_cases hij : i = j
          · subst hij
            rw [List.getElem?_set_self (List.getElem?_eq_some_iff.mp hpc).1] at hj
            rw [← Option.some.inj hj] at hqo
            cases hqo
          · rw [List.getElem?_set_ne hij] at hj
            exact hij (h.oneOpening i j _ _ hpc hj rfl hqo)
        · cases hqo
      refine ⟨?_, ?_, h.oneOpening.set hpc (by simp [Pc.isOpening]),
        h.oneClosing.set hpc (by simp [Pc.isClosing]), ?_⟩
      · intro s' hs'
        rcases h.known s' hs' with hhandle | ⟨q, hq, hk⟩
        · rw [hnone] at hhandle
          cases hhandle
        · rcases mem_set_or (.reading use) hpc hq with rfl | hq
          · exact .inl hk
          · exact .inr ⟨q, hq, hk⟩
      · intro q hq hqo
        rw [hreading q hq] at hqo
        cases hqo
      · intro _ q hq hqs
        rw [forall_mem_set hstart rfl q hq] at hqs
        cases hqs
  | closeRead =>
      obtain ⟨hnone, hclosing⟩ := horderly.closeRead hpc
      refine h.moved hpc ?_ ?_ ?_ ?_ ?_
      · intro s hs
        exact .inr ⟨hs, by simp [Pc.keeps]⟩
      · simp [Pc.isOpening]
      · exact fun _ => .inr hclosing
      · exact fun _ => hnone
      · exact fun _ _ => rfl
  | @closeCleared handle =>
      have hnone := h.noneOpening hmem rfl
      refine ⟨?_, ?_, h.oneOpening.set hpc (by simp [Pc.isOpening]),
        h.oneClosing.set hpc fun _ => .inl rfl, fun hsome => absurd rfl hsome⟩
      · intro s hs
        have hi := (List.getElem?_eq_some_iff.mp hpc).1
        rcases h.known s hs with hhandle | ⟨q, hq, hk⟩
        · have := h.cleared (by rw [hhandle]; simp) _ hmem rfl
          rw [hhandle] at this
          exact .inr ⟨_, List.mem_set hi _, by rw [Pc.closeClear.inj this]; rfl⟩
        · rcases mem_set_or (.closeStore handle) hpc hq with rfl | hq
          · exact .inr ⟨_, List.mem_set hi _, hk⟩
          · exact .inr ⟨q, hq, hk⟩
      · intro q hq hqo
        rw [forall_mem_set hnone rfl q hq] at hqo
        cases hqo
  | @closeReturned handle stores hstores =>
      refine h.moved hpc ?_ ?_ ?_ ?_ ?_
      · intro s hs
        rw [hstores] at hs
        cases handle with
        | none => exact .inr ⟨hs, by simp [Pc.keeps]⟩
        | some s' =>
            have hne : s' ≠ s := by
              rintro rfl
              simp [List.getElem?_set] at hs
            rw [List.getElem?_set_ne hne] at hs
            exact .inr ⟨hs, fun hk => hne (Option.some.inj hk)⟩
      · simp [Pc.isOpening]
      · simp [Pc.isClosing]
      · exact fun _ => h.noneOpening hmem rfl
      · intro hsome _
        have := h.cleared hsome _ hmem rfl
        cases this
  | closed =>
      refine h.moved hpc ?_ ?_ ?_ ?_ ?_
      · intro s hs
        exact .inr ⟨hs, by simp [Pc.keeps]⟩
      · simp [Pc.isOpening]
      · simp [Pc.isClosing]
      · exact fun _ => h.noneOpening hmem rfl
      · exact fun hsome _ => h.cleared hsome _ hmem rfl

theorem lifeInv_step {r : Runtime} (h : LifeInv r) {input : Input} (horderly : Orderly r input) :
    LifeInv (step input r).2 := by
  have hstep := step_stepped input r
  generalize step input r = result at hstep ⊢
  obtain ⟨effect, r'⟩ := result
  cases hstep with
  | began hpc => exact h.began hpc
  | nothing => exact h
  | advanced hinput hpc hadv =>
      subst hinput
      exact h.advanced horderly hpc hadv

/-! ## After `close()` has returned -/

/-- Nothing is open, nothing is cached, and some `close()` has started. -/
structure Shut (r : Runtime) : Prop where
  empty : r.handle = none
  closed : ∀ s, ¬ r.IsOpen s
  started : ∃ pc ∈ r.calls, pc.hasStartedClosing = true

theorem Advanced.hasStartedClosing {r : Runtime} {i : Nat} {pc pc' : Pc} {effect : Effect}
    {handle : Option Store} {stores : List Bool} (h : Advanced r i pc effect pc' handle stores)
    (hpc : pc.hasStartedClosing = true) : pc'.hasStartedClosing = true := by
  cases h with
  | plain hplain => rw [(Pc.isPlain_iff.mp hplain).2.1] at hpc; cases hpc
  | closeCleared => rfl
  | closeReturned => rfl
  | closed => rfl
  | _ => cases hpc

/-- **`close()` returns.** -/
theorem LifeInv.shut {r r' : Runtime} {input : Input} (h : LifeInv r)
    (hstep : Stepped r input .closeReturned r') : Shut r' := by
  cases hstep with
  | @advanced i _ _ _ _ _ _ hinput hpc hadv =>
      have hmem := List.mem_of_getElem? hpc
      cases hadv with
      | plain _ _ heffect => rcases heffect with h | ⟨_, _, h⟩ | ⟨_, _, h⟩ <;> cases h
      | @closeReturned handle stores hstores =>
          have hempty : r.handle = none := by
            by_contra hsome
            have := h.cleared hsome _ hmem rfl
            cases this
          have hlt := (List.getElem?_eq_some_iff.mp hpc).1
          refine ⟨hempty, ?_, ⟨.closed, List.mem_set hlt _, rfl⟩⟩
          intro s hs
          -- whoever knows the store is this `close()`
          have key : r.IsOpen s → handle = some s := by
            intro hopen
            rcases h.known s hopen with hhandle | ⟨q, hq, hk⟩
            · rw [hempty] at hhandle
              cases hhandle
            · obtain ⟨j, hj⟩ := List.getElem?_of_mem hq
              have hclosing : q.isClosing = true := by
                cases q with
                | assigning =>
                    have := h.noneOpening hmem rfl _ hq
                    cases this
                | closeClear => rfl
                | closeStore => rfl
                | _ => cases hk
              have hij := h.oneClosing i j _ _ hpc hj rfl hclosing
              subst hij
              rw [← Option.some.inj (hpc.symm.trans hj)] at hk
              exact hk
          rw [Runtime.IsOpen, hstores] at hs
          cases handle with
          | none =>
              have := key hs
              cases this
          | some s' =>
              have hne : s' ≠ s := by
                rintro rfl
                simp [List.getElem?_set] at hs
              rw [List.getElem?_set_ne hne] at hs
              exact hne (Option.some.inj (key hs))

theorem Shut.noTest {r : Runtime} (h : Shut r) {i : Nat} {answer : Answer}
    (horderly : Orderly r (.advance i answer)) {use : Use} : r.calls[i]? ≠ some (.test use) := by
  intro hpc
  obtain ⟨pc, hmem, hstarted⟩ := h.started
  rw [(horderly.test hpc h.empty).2 pc hmem] at hstarted
  cases hstarted

/-- **A closed runtime stays closed**, and the step does without a store. -/
theorem Shut.step {r r' : Runtime} {input : Input} {effect : Effect} (h : Shut r) (hinv : LifeInv r)
    (horderly : Orderly r input) (hstep : Stepped r input effect r') :
    Shut r' ∧ effect.usesStore = false := by
  obtain ⟨q, hq, hstarted⟩ := h.started
  cases hstep with
  | began => exact ⟨⟨h.empty, h.closed, q, List.mem_append_left _ hq, hstarted⟩, rfl⟩
  | nothing => exact ⟨h, rfl⟩
  | @advanced i answer pc pc' _ handle stores hinput hpc hadv =>
      subst hinput
      have hlt := (List.getElem?_eq_some_iff.mp hpc).1
      have hstarted' : ∃ q ∈ r.calls.set i pc', q.hasStartedClosing = true := by
        rcases mem_set_or pc' hpc hq with rfl | hq
        · exact ⟨pc', List.mem_set hlt _, hadv.hasStartedClosing hstarted⟩
        · exact ⟨q, hq, hstarted⟩
      cases hadv with
      | plain _ _ heffect =>
          refine ⟨⟨h.empty, h.closed, hstarted'⟩, ?_⟩
          rcases heffect with rfl | ⟨s, hs, -⟩ | ⟨_, _, rfl⟩
          · rfl
          · exact absurd hs (h.closed s)
          · rfl
      | tested => exact absurd hpc (h.noTest horderly)
      | openFailed =>
          have := hinv.noneOpening hq hstarted _ (List.mem_of_getElem? hpc)
          cases this
      | opened =>
          have := hinv.noneOpening hq hstarted _ (List.mem_of_getElem? hpc)
          cases this
      | assigned =>
          have := hinv.noneOpening hq hstarted _ (List.mem_of_getElem? hpc)
          cases this
      | closeRead => exact ⟨⟨h.empty, h.closed, hstarted'⟩, rfl⟩
      | closeCleared => exact ⟨⟨rfl, h.closed, hstarted'⟩, rfl⟩
      | @closeReturned handle' _ hstores =>
          refine ⟨⟨h.empty, ?_, hstarted'⟩, rfl⟩
          intro s hs
          rw [Runtime.IsOpen, hstores] at hs
          cases handle' with
          | none => exact h.closed s hs
          | some s' =>
              have hne : s' ≠ s := by
                rintro rfl
                simp [List.getElem?_set] at hs
              rw [List.getElem?_set_ne hne] at hs
              exact h.closed s hs
      | closed => exact ⟨⟨h.empty, h.closed, hstarted'⟩, rfl⟩

/-- `is_closed` does not say so. -/
theorem Shut.isClosed {r : Runtime} (h : Shut r) : r.isClosed = false := by
  rw [Runtime.isClosed, h.empty]

/-! ## What becomes of the calls -/

def Use.isTurn : Use → Bool
  | .probe => false
  | .query _ => false
  | .reserve => true
  | .loadState _ => true
  | .loadHistory _ => true

/-- A turn in flight: it has no answer yet. -/
def Pc.inTurn : Pc → Bool
  | .test use => use.isTurn
  | .opening use => use.isTurn
  | .assigning use _ => use.isTurn
  | .reading use => use.isTurn
  | .holding use _ => use.isTurn
  | .loadingMemories _ _ => true
  | .thinking _ => true
  | .committing _ => true
  | .releasing _ _ => true
  | _ => false

/-- Where a call can be that will fail once the runtime is closed. -/
def Pc.doomed : Pc → Bool
  | .test _ => true
  | .finishing outcome => outcome.sanitized
  | .finished => true
  | .closeRead => true
  | .closeClear _ => true
  | .closeStore _ => true
  | .closed => true
  | pc => pc.inTurn

theorem Pc.doomed_of_inTurn {pc : Pc} (h : pc.inTurn = true) : pc.doomed = true := by
  cases pc <;> first | rfl | exact h | cases h

theorem Use.fail_doomed {use : Use} (h : use.isTurn = true) (e : Exc) :
    (use.fail e).doomed = true := by
  cases use <;> first | rfl | cases h

/-- On a closed store every operation raises. -/
theorem Shut.operate {r : Runtime} (h : Shut r) (s : Store) (answer : Answer) (next : Answer → Pc) :
    r.operate s answer next = (.silent, next (.raises .persistence)) := by
  rw [Runtime.operate, if_neg (h.closed s)]

theorem Shut.doomed {r : Runtime} (h : Shut r) {i : Nat} {answer : Answer} {pc : Pc}
    (hpc : pc.doomed = true) (htest : ∀ use, pc ≠ .test use) :
    (r.advance i answer pc).2.1.doomed = true := by
  cases pc with
  | test use => exact absurd rfl (htest use)
  | opening use =>
      cases answer with
      | raises e => exact Use.fail_doomed hpc e
      | _ => exact hpc
  | assigning use s => exact hpc
  | reading use =>
      have hprobe : use ≠ .probe := by rintro rfl; cases hpc
      simp only [Runtime.advance, if_neg hprobe]
      exact hpc
  | holding use handle =>
      cases handle with
      | none => exact Use.fail_doomed hpc _
      | some s =>
          simp only [Runtime.advance, h.operate]
          exact Use.fail_doomed hpc _
  | loadingMemories turn s => simp only [Runtime.advance, h.operate]; rfl
  | thinking turn => cases answer <;> rfl
  | committing turn => simp only [Runtime.advance, h.operate]; rfl
  | releasing turn e => simp only [Runtime.advance, h.operate]; rfl
  | finishing outcome => rfl
  | finished => rfl
  | closeRead => rfl
  | closeClear handle => rfl
  | closeStore handle => rfl
  | closed => rfl

/-- The calls that are to fail: those that begin later, and the turns in flight. -/
def ToFail (r : Runtime) (i : Nat) : Prop :=
  r.calls[i]? = none ∨ ∃ pc, r.calls[i]? = some pc ∧ pc.inTurn = true

/-- Each of these calls is on its way to a failure. -/
def Doomed (T : Nat → Prop) (r : Runtime) : Prop :=
  ∀ (i : Nat) (pc : Pc), T i → r.calls[i]? = some pc → pc.doomed = true

theorem doomed_toFail (r : Runtime) : Doomed (ToFail r) r := by
  intro i pc hi hpc
  rcases hi with hnone | ⟨pc', hpc', hturn⟩
  · rw [hnone] at hpc
    cases hpc
  · rw [Option.some.inj (hpc.symm.trans hpc')]
    exact Pc.doomed_of_inTurn hturn

theorem Doomed.began {T : Nat → Prop} {r : Runtime} (h : Doomed T r) {pc : Pc}
    (hpc : pc.doomed = true) : Doomed T ⟨r.handle, r.stores, r.calls ++ [pc]⟩ := by
  intro i q hi hq
  by_cases hlt : i < r.calls.length
  · rw [List.getElem?_append_left hlt] at hq
    exact h i q hi hq
  · rw [List.getElem?_append_right (by omega)] at hq
    rw [List.mem_singleton.mp (List.mem_of_getElem? hq)]
    exact hpc

theorem Doomed.step {T : Nat → Prop} {r : Runtime} (h : Doomed T r) (hshut : Shut r) {input : Input}
    (horderly : Orderly r input) : Doomed T (step input r).2 := by
  cases input with
  | health => exact h.began rfl
  | query q => exact h.began rfl
  | sendTurn valid => exact h.began (by cases valid <;> rfl)
  | close => exact h.began rfl
  | advance i answer =>
      simp only [Lifecycle.step]
      cases hpc : r.calls[i]? with
      | none => exact h
      | some pc =>
          intro j q hj hq
          have hlt := (List.getElem?_eq_some_iff.mp hpc).1
          by_cases hij : i = j
          · subst hij
            simp only [List.getElem?_set_self hlt, Option.some.injEq] at hq
            rw [← hq]
            refine hshut.doomed (h i pc hj hpc) ?_
            rintro use rfl
            exact hshut.noTest horderly hpc
          · simp only [List.getElem?_set_ne hij] at hq
            exact h j q hj hq

/-! ## Closing is terminal -/

/-- After a `close()` has returned no step opens a store or uses the database, and each call that
begins later, and each turn that was in flight, ends in a sanitized error. -/
def Terminal (es : List (Event step)) : Prop :=
  ∀ pre c post, es = pre ++ c :: post → c.reply = .closeReturned →
    (∀ e ∈ post, e.reply.usesStore = false) ∧
      ∀ e ∈ post, ∀ i outcome, e.reply = .returns i outcome → ToFail c.after i →
        outcome.sanitized = true

/-- A call returns what it had at hand. -/
theorem Stepped.returns {r r' : Runtime} {input : Input} {i : Nat} {outcome : Outcome}
    (h : Stepped r input (.returns i outcome) r') : r.calls[i]? = some (.finishing outcome) := by
  cases h with
  | advanced hinput hpc hadv =>
      cases hadv with
      | plain _ _ heffect =>
          rcases heffect with h | ⟨_, _, h⟩ | ⟨outcome', rfl, h⟩
          · cases h
          · cases h
          · cases h
            exact hpc

theorem Event.stepped (e : Event step) : Stepped e.before e.input e.reply e.after := by
  have h := step_stepped e.input e.before
  rwa [e.executed] at h

theorem lifeInv_run {es : List (Event step)} {r : Runtime} (hrun : Run .init es r)
    (horderly : ∀ e ∈ es, Orderly e.before e.input) :
    LifeInv r ∧ ∀ e ∈ es, LifeInv e.before ∧ LifeInv e.after := by
  refine hrun.invariant lifeInv_init ?_
  intro e he h
  have := lifeInv_step h (horderly e he)
  rwa [e.executed] at this

/-- **Closing is terminal.** In every run in which whoever finds `_storage` empty does so before
any `close()` has started and alone, and closes do not overlap, a `close()` that has returned is
the end: see `Terminal`. -/
theorem close_is_terminal {es : List (Event step)} {r : Runtime} (hrun : Run .init es r)
    (horderly : ∀ e ∈ es, Orderly e.before e.input) : Terminal es := by
  intro pre c post hsplit hclose
  subst hsplit
  obtain ⟨-, hinv⟩ := lifeInv_run hrun horderly
  obtain ⟨m, -, hrun'⟩ := hrun.split
  obtain ⟨-, hpost⟩ := hrun'.cons_inv
  have hshut : Shut c.after := by
    have hstep := Event.stepped c
    rw [hclose] at hstep
    exact (hinv c (by simp)).1.shut hstep
  -- `Shut` and `Doomed` hold before each later step
  obtain ⟨-, hlater⟩ := hpost.invariant
    (P := fun r => Shut r ∧ Doomed (ToFail c.after) r) ⟨hshut, doomed_toFail _⟩ (by
      intro e he h
      have ho := horderly e (by simp [he])
      refine ⟨(h.1.step (hinv e (by simp [he])).1 ho (Event.stepped e)).1, ?_⟩
      have := h.2.step h.1 ho
      rwa [e.executed] at this)
  refine ⟨?_, ?_⟩
  · intro e he
    obtain ⟨⟨hshut, -⟩, -⟩ := hlater e he
    exact (hshut.step (hinv e (by simp [he])).1 (horderly e (by simp [he])) (Event.stepped e)).2
  · intro e he i outcome hreply hi
    obtain ⟨⟨-, hdoomed⟩, -⟩ := hlater e he
    have hstep := Event.stepped e
    rw [hreply] at hstep
    exact hdoomed i _ hi hstep.returns

/-! ## Two runs -/

/-- Call `i` takes `n` steps. -/
def advances (i n : Nat) : List Input := List.replicate n (.advance i .ok)

/-- A turn is waiting for the provider while `close()` runs, and goes on. -/
def closedDuringTurn : List Input :=
  .health :: advances 0 5 ++ .sendTurn true :: advances 1 10 ++ .close :: advances 2 3 ++ advances 1 4

theorem close_is_terminal_during_turn :
    Terminal (trace step closedDuringTurn .init) ∧
      Effect.returns 1 (.failure (some .storage)) ∈
        (trace step closedDuringTurn Runtime.init).map (·.reply) :=
  ⟨close_is_terminal (Run.ofInputs closedDuringTurn Runtime.init).choose_spec (by decide +kernel),
    by decide +kernel⟩

/-- `health()` before and after `close()`. -/
def healthAfterClose : List Input :=
  .health :: advances 0 5 ++ .close :: advances 1 3 ++ .health :: advances 2 5

/-- **`health()` reopens a closed runtime**, and says that all is well. -/
theorem closed_runtime_reopens :
    (trace step healthAfterClose Runtime.init).map (·.reply) =
        [.silent, .silent, .opens 0, .silent, .silent, .returns 0 .success,
          .silent, .silent, .silent, .closeReturned,
          .silent, .silent, .opens 1, .silent, .silent, .returns 2 .success] ∧
      ¬ ∀ es r, Run .init es r → Terminal es := by
  refine ⟨by decide +kernel, ?_⟩
  intro h
  obtain ⟨r, hrun⟩ : ∃ r, Run Runtime.init (trace step healthAfterClose Runtime.init) r :=
    Run.ofInputs healthAfterClose Runtime.init
  have hopens := (h _ r hrun ((trace step healthAfterClose .init).take 9)
    (.of step (.advance 1 .ok) ⟨none, [false], [.finished, .closeStore (some 0)]⟩)
    ((trace step healthAfterClose .init).drop 10) rfl rfl).1
  have := hopens (.of step (.advance 2 .ok) ⟨none, [true], [.finished, .closed, .opening .probe]⟩)
    (.tail _ (.tail _ (.head _)))
  cases this

end Katherine.Lifecycle
