import Katherine.Lib.Text
import Katherine.Lib.Runs
import Mathlib.Order.Lattice

/-!
# The provider's key pool

`GroqClientManager` of `backend/groq_manager.py`. The keys are shared by all calls: a
rotation index, the deactivated keys and a cooldown for each key, under one lock. A call
keeps its own attempt bound, read from the pool when it starts, and the keys it has tried.

A call acquires a key in one step, makes a client in the next and sends its request in a
third, so the key may be deactivated by another call in between. What the lock does
guarantee is about the moment of acquisition, and `key_pool_discipline` is stated there.

Times are any linear order, and `expiry` is the clock plus the cooldown as the floats
compute it.
-/

namespace Katherine.Provider

open Py Runs

/-! ## Failures -/

inductive ProviderFailure
  | rateLimited
  | authFailed
  | connectionFailed
  | serverError
  | invalidResponse
  | invalidRequest
  | timeout
  | cancelled
deriving DecidableEq

/-- The ways `_acquire_next_key` raises. -/
inductive Exhaustion
  | deactivated
  | cooldown
  | tried
  | fallback
deriving DecidableEq

def Exhaustion.message : Exhaustion → PyStr
  | .deactivated => py "All keys deactivated."
  | .cooldown => py "All keys in cooldown."
  | .tried => py "All keys tried, none succeeded."
  | .fallback => py "No eligible Groq keys available."

def Exhaustion.code : Exhaustion → ProviderFailure
  | .deactivated => .authFailed
  | .cooldown => .rateLimited
  | .tried => .connectionFailed
  | .fallback => .connectionFailed

/-! ## The pool -/

structure Pool (τ : Type) where
  deactivated : List PyStr
  cooldowns : PyStr → Option τ
  index : Nat

section

variable {τ : Type} [LinearOrder τ]

/-- Drop the cooldowns that have expired. -/
def Pool.expire (now : τ) (p : Pool τ) : Pool τ :=
  { p with cooldowns := fun k => (p.cooldowns k).filter fun t => !decide (t ≤ now) }

/-- The three `continue`s of the search. -/
def Pool.eligible (p : Pool τ) (tried : List PyStr) (k : PyStr) : Bool :=
  !decide (k ∈ p.deactivated) && (p.cooldowns k).isNone && !decide (k ∈ tried)

/-- The search from the rotation index on: a position and its key. -/
def Pool.search (keys tried : List PyStr) (p : Pool τ) : Option (Nat × PyStr) :=
  (List.range keys.length).findSome? fun i =>
    let idx := (p.index + i) % keys.length
    (keys[idx]?.filter (p.eligible tried)).map fun k => (idx, k)

/-- Which error is raised when the search finds nothing. -/
def Pool.exhaustion (keys tried : List PyStr) (p : Pool τ) : Exhaustion :=
  let active := keys.filter fun k => !decide (k ∈ p.deactivated)
  let allDeactivated := active.isEmpty
  let allInCooldown := !allDeactivated && active.all fun k => (p.cooldowns k).isSome
  let allTried := !allDeactivated && !allInCooldown &&
    (active.filter fun k => (p.cooldowns k).isNone).all fun k => decide (k ∈ tried)
  if allDeactivated then .deactivated
  else if allInCooldown then .cooldown
  else if allTried then .tried
  else .fallback

/-- `_acquire_next_key`. -/
def Pool.acquire (keys tried : List PyStr) (now : τ) (p : Pool τ) : Except Exhaustion PyStr × Pool τ :=
  let p := p.expire now
  match p.search keys tried with
  | some (idx, k) => (.ok k, { p with index := (idx + 1) % keys.length })
  | none => (.error (p.exhaustion keys tried), p)

/-- What a failed request does to its key. -/
inductive Penalty
  | none
  /-- `_mark_key_rate_limited`. -/
  | cooldown
  /-- `_deactivate_key`. -/
  | deactivate
deriving DecidableEq

def Pool.punish (until_ : τ) (k : PyStr) (p : Pool τ) : Penalty → Pool τ
  | .none => p
  | .cooldown => { p with cooldowns := fun k' => if k' = k then some until_ else p.cooldowns k' }
  | .deactivate => { p with deactivated := k :: p.deactivated }

/-! ### Acquiring -/

/-- `k` may be acquired at `now` by a call that has tried `tried`. -/
structure Eligible (p : Pool τ) (tried : List PyStr) (now : τ) (k : PyStr) : Prop where
  active : k ∉ p.deactivated
  cooled : ∀ t, p.cooldowns k = some t → t ≤ now
  untried : k ∉ tried

theorem expire_none {p : Pool τ} {now : τ} {k : PyStr} :
    (p.expire now).cooldowns k = none ↔ ∀ t, p.cooldowns k = some t → t ≤ now := by
  cases h : p.cooldowns k with
  | none => simp [Pool.expire, h]
  | some t => simp [Pool.expire, h, Option.filter]

theorem eligible_expire {p : Pool τ} {tried : List PyStr} {now : τ} {k : PyStr} :
    (p.expire now).eligible tried k = true ↔ Eligible p tried now k := by
  simp only [Pool.eligible, Bool.and_eq_true, Bool.not_eq_true', decide_eq_false_iff_not,
    Option.isNone_iff_eq_none, expire_none]
  exact ⟨fun ⟨⟨h1, h2⟩, h3⟩ => ⟨h1, h2, h3⟩, fun ⟨h1, h2, h3⟩ => ⟨⟨h1, h2⟩, h3⟩⟩

/-- The rotation reaches every position. -/
theorem exists_rotation {n j : Nat} (index : Nat) (hj : j < n) : ∃ i < n, (index + i) % n = j := by
  have hn : 0 < n := by omega
  have hlt := Nat.mod_lt index hn
  by_cases hle : index % n ≤ j
  · refine ⟨j - index % n, by omega, ?_⟩
    rw [Nat.add_mod, Nat.mod_eq_of_lt (show j - index % n < n by omega),
      Nat.mod_eq_of_lt (show index % n + (j - index % n) < n by omega)]
    omega
  · refine ⟨j + n - index % n, by omega, ?_⟩
    rw [Nat.add_mod, Nat.mod_eq_of_lt (show j + n - index % n < n by omega),
      show index % n + (j + n - index % n) = j + n by omega, Nat.add_mod_right,
      Nat.mod_eq_of_lt hj]

omit [LinearOrder τ] in
theorem search_some {keys tried : List PyStr} {p : Pool τ} {idx : Nat} {k : PyStr}
    (h : p.search keys tried = some (idx, k)) : k ∈ keys ∧ p.eligible tried k = true := by
  obtain ⟨i, -, hi⟩ := List.exists_of_findSome?_eq_some h
  obtain ⟨k', hk', hpair⟩ := Option.map_eq_some_iff.mp hi
  obtain ⟨-, rfl⟩ := Prod.mk.inj hpair
  obtain ⟨hget, heligible⟩ := Option.filter_eq_some_iff.mp hk'
  exact ⟨List.mem_of_getElem? hget, heligible⟩

omit [LinearOrder τ] in
theorem search_none {keys tried : List PyStr} {p : Pool τ} :
    p.search keys tried = none ↔ ∀ k ∈ keys, p.eligible tried k = false := by
  unfold Pool.search
  rw [List.findSome?_eq_none_iff]
  constructor
  · intro h k hk
    obtain ⟨j, hj⟩ := List.mem_iff_getElem?.mp hk
    obtain ⟨hlt, -⟩ := List.getElem?_eq_some_iff.mp hj
    obtain ⟨i, hi, hrot⟩ := exists_rotation p.index hlt
    have hnone := h i (List.mem_range.mpr hi)
    simp only [hrot, hj, Option.map_eq_none_iff, Option.filter_some_eq_none] at hnone
    simpa using hnone
  · intro h i _
    rw [Option.map_eq_none_iff, Option.filter_eq_none_iff]
    intro k hk
    simp [h k (List.mem_of_getElem? hk)]

omit [LinearOrder τ] in
/-- The three cases before it leave nothing for the generic branch. -/
theorem exhaustion_ne_fallback {keys tried : List PyStr} {p : Pool τ}
    (h : ∀ k ∈ keys, p.eligible tried k = false) : p.exhaustion keys tried ≠ .fallback := by
  have htried : ∀ k ∈ (keys.filter fun k => !decide (k ∈ p.deactivated)).filter
      (fun k => (p.cooldowns k).isNone), k ∈ tried := by
    intro k hk
    simp only [List.mem_filter, Bool.not_eq_true', decide_eq_false_iff_not] at hk
    have hk' := h k hk.1.1
    simpa [Pool.eligible, hk.1.2, hk.2] using hk'
  unfold Pool.exhaustion
  dsimp only
  split
  · simp
  · split
    · simp
    · rename_i hactive hcooldown
      have hall : ((keys.filter fun k => !decide (k ∈ p.deactivated)).filter
          fun k => (p.cooldowns k).isNone).all (fun k => decide (k ∈ tried)) = true := by
        simpa only [List.all_eq_true, decide_eq_true_eq] using htried
      rw [Bool.eq_false_iff.mpr hcooldown, Bool.eq_false_iff.mpr hactive, hall]
      simp

/-- **`_acquire_next_key` raises exactly when no key is eligible**, and never generically. -/
theorem acquire_error_iff {keys tried : List PyStr} {now : τ} {p : Pool τ} :
    ((∃ x, (p.acquire keys tried now).1 = .error x) ↔ ∀ k ∈ keys, ¬ Eligible p tried now k) ∧
      (p.acquire keys tried now).1 ≠ .error .fallback := by
  have hnone : (∀ k ∈ keys, ¬ Eligible p tried now k) ↔
      (p.expire now).search keys tried = none := by
    rw [search_none]
    refine forall₂_congr fun k _ => ?_
    rw [← eligible_expire, Bool.not_eq_true]
  rw [hnone]
  unfold Pool.acquire
  dsimp only
  cases hs : (p.expire now).search keys tried with
  | some found =>
      obtain ⟨idx, k⟩ := found
      simp
  | none =>
      refine ⟨by simp, ?_⟩
      intro h
      injection h with h
      exact exhaustion_ne_fallback (search_none.mp hs) h

theorem acquire_ok {keys tried : List PyStr} {now : τ} {p : Pool τ} {k : PyStr}
    (h : (p.acquire keys tried now).1 = .ok k) : k ∈ keys ∧ Eligible p tried now k := by
  unfold Pool.acquire at h
  dsimp only at h
  split at h
  · rename_i idx k' hs
    cases h
    obtain ⟨hmem, helig⟩ := search_some hs
    exact ⟨hmem, eligible_expire.mp helig⟩
  · cases h

/-- Acquiring deactivates nothing and drops expired cooldowns only. -/
theorem acquire_pool (keys tried : List PyStr) (now : τ) (p : Pool τ) :
    (p.acquire keys tried now).2.deactivated = p.deactivated ∧
      (p.acquire keys tried now).2.cooldowns = (p.expire now).cooldowns := by
  unfold Pool.acquire
  dsimp only
  split <;> exact ⟨rfl, rfl⟩

/-! ## Calls -/

inductive Mode
  /-- `chat_completion`. -/
  | sync
  /-- `chat_completion_async`. -/
  | async

/-- How a request can end. -/
inductive Outcome
  | completed
  | rateLimitError
  | authenticationError
  | apiConnectionError
  | apiTimeoutError
  /-- `asyncio.TimeoutError`. -/
  | deadline
  | apiStatusError (status : Nat)
  | cancelledError
  | turnExecutionError
  /-- Any other exception. -/
  | unknown

/-- How a call can end. -/
inductive CallResult
  | response
  /-- `GroqRequestError`. -/
  | requestError
  /-- `GroqPoolExhaustedError`. -/
  | poolExhausted (message : PyStr) (code : ProviderFailure)
  /-- `TurnExecutionError` of the call itself: no budget is left. -/
  | turnTimeout
  | cancelled
  | turnError
deriving DecidableEq

/-- What the `except` clauses make of an outcome. -/
inductive Verdict
  | ends (r : CallResult)
  | retry (penalty : Penalty) (failure : ProviderFailure)
deriving DecidableEq

def judge : Mode → Outcome → Verdict
  | _, .completed => .ends .response
  | _, .rateLimitError => .retry .cooldown .rateLimited
  | _, .authenticationError => .retry .deactivate .authFailed
  | _, .apiConnectionError => .retry .none .connectionFailed
  | _, .apiTimeoutError => .retry .none .timeout
  | .async, .deadline => .retry .none .timeout
  | .sync, .deadline => .retry .none .connectionFailed
  | mode, .apiStatusError status =>
      if status = 401 then .retry .deactivate .authFailed
      else if 500 ≤ status then .retry .none .serverError
      else match mode with
        | .sync => .ends .requestError
        | .async => .retry .none .invalidRequest
  | _, .cancelledError => .ends .cancelled
  | .async, .turnExecutionError => .ends .turnError
  | .sync, .turnExecutionError => .retry .none .connectionFailed
  | _, .unknown => .retry .none .connectionFailed

/-- What is raised after the last attempt, which failed with `failure`. -/
def exhausted (mode : Mode) (failure : ProviderFailure) : CallResult :=
  let generic := py "Provider unavailable after all attempts."
  match mode with
  | .sync => .poolExhausted generic .connectionFailed
  | .async =>
      if failure = .rateLimited then .poolExhausted (py "All keys rate limited.") failure
      else if failure = .timeout then .poolExhausted (py "All attempts timed out.") failure
      else .poolExhausted generic failure

inductive Stage
  | idle
  | ready
  | acquired (key : PyStr)
  /-- The client is made. -/
  | connected (key : PyStr)
  /-- The request is on its way. -/
  | waiting (key : PyStr)
  | finished (r : CallResult)
deriving DecidableEq

structure Call where
  mode : Mode
  /-- `max_attempts`, from the keys that were active when the call started. -/
  limit : Nat
  attempt : Nat
  tried : List PyStr
  /-- The keys of the requests sent so far. -/
  requests : List PyStr
  stage : Stage

/-- The manager, the clock and all calls on it. -/
structure Manager (τ : Type) where
  clock : τ
  pool : Pool τ
  calls : Nat → Call

def Manager.set (m : Manager τ) (n : Nat) (c : Call) : Manager τ :=
  { m with calls := fun i => if i = n then c else m.calls i }

inductive PoolMove (τ : Type)
  /-- The clock goes on, or stays. -/
  | tick (t : τ)
  /-- A call starts; `valid` is what `validate_provider_input` finds. -/
  | start (n : Nat) (mode : Mode) (valid : Bool)
  /-- `budget`: the effective timeout of the attempt is positive, which only the async call asks. -/
  | acquire (n : Nat) (budget : Bool)
  | connect (n : Nat) (ok : Bool)
  | send (n : Nat)
  | settle (n : Nat) (outcome : Outcome)
  /-- An async call is cancelled while it backs off. -/
  | cancel (n : Nat)

/-- A call before its first attempt. -/
def startCall (keys : List PyStr) (maxAttempts : Int) (p : Pool τ) (mode : Mode) (valid : Bool) :
    Call :=
  let active := keys.filter fun k => !decide (k ∈ p.deactivated)
  { mode, limit := (max 1 (min maxAttempts active.length)).toNat, attempt := 0, tried := [],
    requests := [], stage := if valid then .ready else .finished .requestError }

/-- The attempt with `key` has failed. -/
def Call.failed (c : Call) (key : PyStr) (failure : ProviderFailure) : Call :=
  { c with
    attempt := c.attempt + 1, tried := key :: c.tried
    stage := if c.attempt + 1 < c.limit then .ready else .finished (exhausted c.mode failure) }

def poolStep (keys : List PyStr) (maxAttempts : Int) (expiry : τ → τ) :
    PoolMove τ → Manager τ → Unit × Manager τ
  | .tick t, m => ((), { m with clock := max m.clock t })
  | .start n mode valid, m =>
      match (m.calls n).stage with
      | .idle => ((), m.set n (startCall keys maxAttempts m.pool mode valid))
      | _ => ((), m)
  | .acquire n budget, m =>
      let c := m.calls n
      match c.stage, c.mode, budget with
      | .ready, .async, false => ((), m.set n { c with stage := .finished .turnTimeout })
      | .ready, _, _ =>
          let (result, pool) := m.pool.acquire keys c.tried m.clock
          let stage := match result with
            | .ok key => Stage.acquired key
            | .error x => .finished (.poolExhausted x.message x.code)
          ((), { m with pool }.set n { c with stage })
      | _, _, _ => ((), m)
  | .connect n ok, m =>
      let c := m.calls n
      match c.stage with
      | .acquired key =>
          ((), m.set n { c with stage := if ok then .connected key else .finished .requestError })
      | _ => ((), m)
  | .send n, m =>
      let c := m.calls n
      match c.stage with
      | .connected key =>
          ((), m.set n { c with requests := key :: c.requests, stage := .waiting key })
      | _ => ((), m)
  | .settle n outcome, m =>
      let c := m.calls n
      match c.stage with
      | .waiting key =>
          match judge c.mode outcome with
          | .ends r => ((), m.set n { c with stage := .finished r })
          | .retry penalty failure =>
              ((), { m with pool := m.pool.punish (expiry m.clock) key penalty }.set n
                (c.failed key failure))
      | _ => ((), m)
  | .cancel n, m =>
      let c := m.calls n
      match c.stage, c.mode with
      | .ready, .async => ((), m.set n { c with stage := .finished .cancelled })
      | _, _ => ((), m)

/-- A manager nobody has called. -/
def Manager.fresh (clock : τ) : Manager τ where
  clock
  pool := ⟨[], fun _ => none, 0⟩
  calls := fun _ => ⟨.sync, 0, 0, [], [], .idle⟩

end

end Katherine.Provider
