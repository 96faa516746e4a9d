import Katherine.Provider.Discipline

/-!
# One completion

`chat_completion` and `chat_completion_async` of `backend/groq_manager.py` as the loops they
are, for a call that has the pool to itself. What the outside decides in an attempt (the
clock, the budget, the client, the answer) is given for each attempt in advance, so that the
two loops can be run on the same outside. `completion_runs` says that this is what the
machine of `KeyPool.lean` does when nobody else moves.
-/

namespace Katherine.Provider

open Py Runs

/-- The outside of one attempt. -/
structure Attempt (τ : Type) where
  /-- The effective timeout is positive. -/
  budget : Bool
  acquiredAt : τ
  /-- The client factory returns. -/
  connects : Bool
  outcome : Outcome
  settledAt : τ
  /-- The backoff behind it is cancelled. -/
  cancelled : Bool

/-- A call at the head of its loop. -/
structure Head (τ : Type) where
  pool : Pool τ
  tried : List PyStr
  /-- The requests so far and what came of them, the last one first. -/
  sent : List (PyStr × Outcome)
  lastFailure : Option ProviderFailure

/-- A call that has ended. -/
structure Completion (τ : Type) where
  result : CallResult
  sent : List (PyStr × Outcome)
  pool : Pool τ

section

variable {τ : Type} [LinearOrder τ] (mode : Mode) (keys : List PyStr) (expiry : τ → τ)
  (env : Nat → Attempt τ)

/-! ## The loop -/

omit [LinearOrder τ] in
def Head.finish (s : Head τ) (r : CallResult) : Completion τ := ⟨r, s.sent, s.pool⟩

/-- The outside of the attempt that comes next. -/
def Head.next (s : Head τ) : Attempt τ := env s.sent.length

/-- The request with `key` was sent, and failed. -/
def Head.retry (s : Head τ) (key : PyStr) (penalty : Penalty) (failure : ProviderFailure) : Head τ where
  pool := s.pool.punish (expiry (s.next env).settledAt) key penalty
  tried := key :: s.tried
  sent := (key, (s.next env).outcome) :: s.sent
  lastFailure := some failure

/-- The body of the loop; `more` is `attempt < max_attempts - 1`. -/
def attempt (more : Bool) (s : Head τ) : Completion τ ⊕ Head τ :=
  match mode, (s.next env).budget with
  | .async, false => .inl (s.finish .turnTimeout)
  | _, _ =>
      match s.pool.acquire keys s.tried (s.next env).acquiredAt with
      | (.error x, pool) => .inl ({ s with pool }.finish (.poolExhausted x.message x.code))
      | (.ok key, pool) =>
          if (s.next env).connects then
            match judge mode (s.next env).outcome with
            | .ends r => .inl ⟨r, (key, (s.next env).outcome) :: s.sent, pool⟩
            | .retry penalty failure =>
                let s' := { s with pool }.retry expiry env key penalty failure
                match mode, more && (s.next env).cancelled with
                | .async, true => .inl (s'.finish .cancelled)
                | _, _ => .inr s'
          else .inl ({ s with pool }.finish .requestError)

/-- The loop, with `left` attempts to go. -/
def completionLoop : Nat → Head τ → Completion τ
  | 0, s => s.finish (exhausted mode (s.lastFailure.getD .connectionFailed))
  | left + 1, s =>
      match attempt mode keys expiry env (decide (0 < left)) s with
      | .inl c => c
      | .inr s' => completionLoop left s'

/-- Where the call is at the head of its loop, with an attempt to go. -/
def heads : Nat → Head τ → List (Nat × Head τ)
  | 0, _ => []
  | left + 1, s =>
      (left, s) :: match attempt mode keys expiry env (decide (0 < left)) s with
        | .inl _ => []
        | .inr s' => heads left s'

omit [LinearOrder τ] in
/-- `max_attempts`, bounded by the keys that are active. -/
def attemptLimit (maxAttempts : Int) (p : Pool τ) : Nat :=
  (max 1 (min maxAttempts (keys.filter fun k => !decide (k ∈ p.deactivated)).length)).toNat

/-- `chat_completion` or `chat_completion_async`; `valid` is what `validate_provider_input`
finds. -/
def chatCompletion (maxAttempts : Int) (valid : Bool) (p : Pool τ) : Completion τ :=
  if valid then completionLoop mode keys expiry env (attemptLimit keys maxAttempts p) ⟨p, [], [], none⟩
  else ⟨.requestError, [], p⟩

/-- The heads a call comes to. -/
def callHeads (maxAttempts : Int) (valid : Bool) (p : Pool τ) : List (Nat × Head τ) :=
  if valid then heads mode keys expiry env (attemptLimit keys maxAttempts p) ⟨p, [], [], none⟩ else []

end

/-! ## What an attempt can do -/

section

variable {τ : Type} [LinearOrder τ] {mode : Mode} {keys : List PyStr} {expiry : τ → τ}
  {env : Nat → Attempt τ} {more : Bool}

inductive Attempted (mode : Mode) (keys : List PyStr) (expiry : τ → τ) (env : Nat → Attempt τ)
    (more : Bool) (s : Head τ) : Completion τ ⊕ Head τ → Prop
  | noBudget : mode = .async → (s.next env).budget = false →
      Attempted mode keys expiry env more s (.inl (s.finish .turnTimeout))
  | noKey {x : Exhaustion} {pool : Pool τ} : (mode = .async → (s.next env).budget = true) →
      s.pool.acquire keys s.tried (s.next env).acquiredAt = (.error x, pool) →
      Attempted mode keys expiry env more s (.inl ⟨.poolExhausted x.message x.code, s.sent, pool⟩)
  | noClient {key : PyStr} {pool : Pool τ} : (mode = .async → (s.next env).budget = true) →
      s.pool.acquire keys s.tried (s.next env).acquiredAt = (.ok key, pool) →
      (s.next env).connects = false →
      Attempted mode keys expiry env more s (.inl ⟨.requestError, s.sent, pool⟩)
  | ends {key : PyStr} {pool : Pool τ} {r : CallResult} :
      (mode = .async → (s.next env).budget = true) →
      s.pool.acquire keys s.tried (s.next env).acquiredAt = (.ok key, pool) →
      (s.next env).connects = true → judge mode (s.next env).outcome = .ends r →
      Attempted mode keys expiry env more s (.inl ⟨r, (key, (s.next env).outcome) :: s.sent, pool⟩)
  | cancelled {key : PyStr} {pool : Pool τ} {penalty : Penalty} {failure : ProviderFailure} :
      (mode = .async → (s.next env).budget = true) →
      s.pool.acquire keys s.tried (s.next env).acquiredAt = (.ok key, pool) →
      (s.next env).connects = true → judge mode (s.next env).outcome = .retry penalty failure →
      mode = .async → more = true → (s.next env).cancelled = true →
      Attempted mode keys expiry env more s
        (.inl (({ s with pool }.retry expiry env key penalty failure).finish .cancelled))
  | retry {key : PyStr} {pool : Pool τ} {penalty : Penalty} {failure : ProviderFailure} :
      (mode = .async → (s.next env).budget = true) →
      s.pool.acquire keys s.tried (s.next env).acquiredAt = (.ok key, pool) →
      (s.next env).connects = true → judge mode (s.next env).outcome = .retry penalty failure →
      (mode = .async → more = true → (s.next env).cancelled = false) →
      Attempted mode keys expiry env more s
        (.inr ({ s with pool }.retry expiry env key penalty failure))

theorem attempted (s : Head τ) :
    Attempted mode keys expiry env more s (attempt mode keys expiry env more s) := by
  unfold attempt
  split
  · exact .noBudget rfl ‹_›
  · rename_i mode _ _ hnot
    have hbudget : mode = .async → (s.next env).budget = true := fun hmode =>
      Bool.not_eq_false _ ▸ fun h => hnot hmode h
    split
    · exact .noKey hbudget ‹_›
    · rename_i key pool hacquire
      split
      · rename_i hconnects
        split
        · exact .ends hbudget hacquire hconnects ‹_›
        · rename_i penalty failure hjudge
          dsimp only
          split
          · rename_i hcancel
            rw [Bool.and_eq_true] at hcancel
            exact .cancelled hbudget hacquire hconnects hjudge rfl hcancel.1 hcancel.2
          · rename_i mode _ _ hgo
            refine .retry hbudget hacquire hconnects hjudge fun hmode hmore => ?_
            exact Bool.not_eq_true _ ▸ fun h => hgo hmode (by rw [hmore, h]; rfl)
      · exact .noClient hbudget hacquire (Bool.not_eq_true _ ▸ ‹_›)

end

/-! ## The machine, when nobody else moves -/

section

variable {τ : Type} [LinearOrder τ] {mode : Mode} {keys : List PyStr} {maxAttempts : Int}
  {expiry : τ → τ} {env : Nat → Attempt τ} {n limit : Nat}

def backoffMoves (n : Nat) (a : Attempt τ) : List (PoolMove τ) :=
  if a.cancelled then [.cancel n] else []

/-- The moves of an attempt. Those that come after the call has ended change nothing. -/
def attemptMoves (n : Nat) (a : Attempt τ) : List (PoolMove τ) :=
  [.tick a.acquiredAt, .acquire n a.budget, .connect n a.connects, .send n, .tick a.settledAt,
    .settle n a.outcome] ++ backoffMoves n a

/-- The moves of the attempts from `i` on. -/
def loopMoves (n : Nat) (env : Nat → Attempt τ) : Nat → Nat → List (PoolMove τ)
  | 0, _ => []
  | left + 1, i => attemptMoves n (env i) ++ loopMoves n env left (i + 1)

def play (keys : List PyStr) (maxAttempts : Int) (expiry : τ → τ) (moves : List (PoolMove τ))
    (m : Manager τ) : Manager τ :=
  moves.foldl (fun m x => (poolStep keys maxAttempts expiry x m).2) m

@[simp] theorem play_cons (x : PoolMove τ) (moves : List (PoolMove τ)) (m : Manager τ) :
    play keys maxAttempts expiry (x :: moves) m =
      play keys maxAttempts expiry moves (poolStep keys maxAttempts expiry x m).2 := rfl

/-- The call `n` has ended as `c`. -/
structure Done (n : Nat) (c : Completion τ) (m : Manager τ) : Prop where
  stage : (m.calls n).stage = .finished c.result
  requests : (m.calls n).requests = c.sent.map Prod.fst
  pool : m.pool = c.pool

/-- The call `n` is at the head of its loop, or its last attempt has failed. -/
structure AtHead (mode : Mode) (env : Nat → Attempt τ) (n limit left : Nat) (s : Head τ)
    (m : Manager τ) : Prop where
  call : m.calls n = ⟨mode, limit, s.sent.length, s.tried, s.sent.map Prod.fst,
    if 0 < left then .ready else .finished (exhausted mode (s.lastFailure.getD .connectionFailed))⟩
  pool : m.pool = s.pool
  clock : m.clock ≤ (s.next env).acquiredAt
  limit : s.sent.length + left = limit

/-- A move of an attempt of the call `n`. -/
def Own (n : Nat) : PoolMove τ → Prop
  | .tick _ => True
  | .start .. => False
  | .acquire i _ => i = n
  | .connect i _ => i = n
  | .send i => i = n
  | .settle i _ => i = n
  | .cancel i => i = n

omit [LinearOrder τ] in
theorem own_backoffMoves {a : Attempt τ} {x : PoolMove τ} (h : x ∈ backoffMoves n a) : Own n x := by
  unfold backoffMoves at h
  split at h
  · obtain rfl := List.mem_singleton.mp h
    rfl
  · cases h

omit [LinearOrder τ] in
theorem own_attemptMoves {a : Attempt τ} {x : PoolMove τ} (h : x ∈ attemptMoves n a) : Own n x := by
  rcases List.mem_append.mp h with h | h
  · simp at h
    rcases h with rfl | rfl | rfl | rfl | rfl | rfl <;> trivial
  · exact own_backoffMoves h

omit [LinearOrder τ] in
theorem own_loopMoves : ∀ {left i : Nat} {x : PoolMove τ}, x ∈ loopMoves n env left i → Own n x
  | _ + 1, _, _, h => (List.mem_append.mp h).elim own_attemptMoves own_loopMoves

theorem done_step {c : Completion τ} {x : PoolMove τ} {m : Manager τ} (hx : Own n x)
    (h : Done n c m) : Done n c (poolStep keys maxAttempts expiry x m).2 := by
  have hstage := h.stage
  cases x with
  | tick t => exact ⟨h.stage, h.requests, h.pool⟩
  | start => cases hx
  | _ =>
      obtain rfl : _ = n := hx
      simp only [poolStep, hstage]
      exact h

theorem done_play {c : Completion τ} {moves : List (PoolMove τ)} {m : Manager τ}
    (hown : ∀ x ∈ moves, Own n x) (h : Done n c m) :
    Done n c (play keys maxAttempts expiry moves m) := by
  induction moves generalizing m with
  | nil => exact h
  | cons x moves ih =>
      obtain ⟨hx, hown⟩ := List.forall_mem_cons.mp hown
      exact ih hown (done_step hx h)

theorem acquire_plays {c : Call} {b : Bool} {m : Manager τ} (hcall : m.calls n = c)
    (hstage : c.stage = .ready) (hbudget : c.mode = .async → b = true) :
    (poolStep keys maxAttempts expiry (.acquire n b) m).2 =
      { m with pool := (m.pool.acquire keys c.tried m.clock).2 }.set n
        { c with stage := match (m.pool.acquire keys c.tried m.clock).1 with
          | .ok key => Stage.acquired key
          | .error x => .finished (.poolExhausted x.message x.code) } := by
  obtain ⟨mode, _, _, _, _, _⟩ := c
  cases hstage
  simp only [poolStep, hcall]
  cases mode <;> cases b <;> first | rfl | cases hbudget rfl

/-- The call `n` is where an attempt has brought it. -/
def Brought (mode : Mode) (env : Nat → Attempt τ) (n limit left : Nat) (m : Manager τ) :
    Completion τ ⊕ Head τ → Prop
  | .inl c => Done n c m
  | .inr s => AtHead mode env n limit left s m

/-- A request that fails brings the call to the head of its loop. -/
theorem failed_plays {left : Nat} {s : Head τ} {m : Manager τ} {key : PyStr} {pool : Pool τ}
    {penalty : Penalty} {failure : ProviderFailure}
    (hclock : ∀ i, (env i).acquiredAt ≤ (env i).settledAt ∧
      (env i).settledAt ≤ (env (i + 1)).acquiredAt)
    (hlimit : s.sent.length + (left + 1) = limit)
    (hcall : m.calls n = ⟨mode, limit, s.sent.length, s.tried, s.sent.map Prod.fst, .acquired key⟩)
    (hpool : m.pool = pool) (hnow : m.clock = (s.next env).acquiredAt)
    (hconnects : (s.next env).connects = true)
    (hjudge : judge mode (s.next env).outcome = .retry penalty failure) :
    AtHead mode env n limit left ({ s with pool }.retry expiry env key penalty failure)
      (play keys maxAttempts expiry [.connect n (s.next env).connects, .send n,
        .tick (s.next env).settledAt, .settle n (s.next env).outcome] m) := by
  have hsettled : max (s.next env).acquiredAt (s.next env).settledAt = (s.next env).settledAt :=
    max_eq_right (hclock s.sent.length).1
  have hmore : s.sent.length + 1 < limit ↔ 0 < left := by omega
  refine ⟨?_, ?_, ?_, ?_⟩
  · simp [play, poolStep, hcall, hconnects, hjudge, hmore, Manager.set, Call.failed, Head.retry]
  · simp [play, poolStep, hcall, hpool, hnow, hconnects, hjudge, hsettled, Manager.set, Head.retry]
    rfl
  · have hnext : (({ s with pool }.retry expiry env key penalty failure).next env).acquiredAt =
        (env (s.sent.length + 1)).acquiredAt := rfl
    rw [hnext]
    simp only [play, poolStep, hcall, hconnects, hjudge, List.foldl_cons, List.foldl_nil, set_self,
      if_true]
    simp only [Manager.set, hnow, hsettled]
    exact (hclock s.sent.length).2
  · simp only [Head.retry, List.length_cons]
    omega

/-- The backoff is cancelled. -/
theorem cancelled_plays {left : Nat} {s : Head τ} {m : Manager τ} {a : Attempt τ}
    (h : AtHead mode env n limit left s m) (hmode : mode = .async) (hmore : 0 < left)
    (hcancelled : a.cancelled = true) :
    Done n (s.finish .cancelled) (play keys maxAttempts expiry (backoffMoves n a) m) := by
  rw [backoffMoves, if_pos hcancelled]
  have hcall := h.call
  rw [if_pos hmore, hmode] at hcall
  refine ⟨?_, ?_, ?_⟩ <;> simp [play, poolStep, hcall, h.pool, Manager.set, Head.finish]

/-- The backoff is over. -/
theorem backoff_plays {left : Nat} {s : Head τ} {m : Manager τ} {a : Attempt τ}
    (h : AtHead mode env n limit left s m)
    (hgo : mode = .async → decide (0 < left) = true → a.cancelled = false) :
    AtHead mode env n limit left s (play keys maxAttempts expiry (backoffMoves n a) m) := by
  unfold backoffMoves
  split
  · rename_i hcancelled
    have hcall := h.call
    have hsame : (poolStep keys maxAttempts expiry (.cancel n) m).2 = m := by
      by_cases hmore : 0 < left
      · cases mode with
        | sync => simp [poolStep, hcall, hmore]
        | async =>
            have := hgo rfl (decide_eq_true hmore)
            rw [hcancelled] at this
            cases this
      · simp [poolStep, hcall, hmore]
    rw [play_cons, hsame]
    exact h
  · exact h

/-- An attempt of the loop is its moves. -/
theorem attempt_plays {left : Nat} {s : Head τ} {m : Manager τ}
    (hclock : ∀ i, (env i).acquiredAt ≤ (env i).settledAt ∧
      (env i).settledAt ≤ (env (i + 1)).acquiredAt)
    (h : AtHead mode env n limit (left + 1) s m) {out : Completion τ ⊕ Head τ}
    (hout : Attempted mode keys expiry env (decide (0 < left)) s out) :
    Brought mode env n limit left
      (play keys maxAttempts expiry (attemptMoves n (s.next env)) m) out := by
  obtain ⟨hcall, hpool, hle, hlimit⟩ := h
  rw [if_pos (Nat.succ_pos left)] at hcall
  have hown : ∀ x ∈ attemptMoves n (s.next env), Own n x := fun _ => own_attemptMoves
  unfold attemptMoves at hown ⊢
  simp only [List.cons_append, List.nil_append, List.forall_mem_cons, play_cons] at hown ⊢
  obtain ⟨-, -, hconnect, hsend, htick, hsettle, hbackoff⟩ := hown
  rw [show (poolStep keys maxAttempts expiry (.tick (s.next env).acquiredAt) m).2 =
    { m with clock := (s.next env).acquiredAt } from by simp [poolStep, max_eq_right hle]]
  generalize hm : ({ m with clock := (s.next env).acquiredAt } : Manager τ) = m'
  replace hcall : m'.calls n =
      ⟨mode, limit, s.sent.length, s.tried, s.sent.map Prod.fst, .ready⟩ := by
    rw [← hm]; exact hcall
  replace hpool : m'.pool = s.pool := by rw [← hm]; exact hpool
  have hnow : m'.clock = (s.next env).acquiredAt := by rw [← hm]
  clear hm hle
  cases hout with
  | noBudget hmode hbudget =>
      refine done_play hbackoff (done_step hsettle (done_step htick (done_step hsend
        (done_step hconnect ⟨?_, ?_, ?_⟩)))) <;>
        simp [poolStep, hcall, hmode, hbudget, Head.finish, hpool, Manager.set]
  | noKey hbudget hacquire =>
      rw [acquire_plays hcall rfl hbudget]
      refine done_play hbackoff (done_step hsettle (done_step htick (done_step hsend
        (done_step hconnect ⟨?_, ?_, ?_⟩)))) <;>
        simp [hpool, hnow, hacquire, Manager.set]
  | noClient hbudget hacquire hconnects =>
      rw [acquire_plays hcall rfl hbudget]
      refine done_play hbackoff (done_step hsettle (done_step htick (done_step hsend ⟨?_, ?_, ?_⟩))) <;>
        simp [poolStep, hpool, hnow, hacquire, hconnects, Manager.set]
  | ends hbudget hacquire hconnects hjudge =>
      rw [acquire_plays hcall rfl hbudget]
      refine done_play hbackoff ⟨?_, ?_, ?_⟩ <;>
        simp [poolStep, hpool, hnow, hacquire, hconnects, hjudge, Manager.set]
  | cancelled hbudget hacquire hconnects hjudge hmode hmore hcancelled =>
      rw [acquire_plays hcall rfl hbudget]
      refine cancelled_plays (failed_plays hclock hlimit ?_ ?_ hnow hconnects hjudge) hmode
        (of_decide_eq_true hmore) hcancelled <;>
        simp [hpool, hnow, hacquire, Manager.set]
  | retry hbudget hacquire hconnects hjudge hgo =>
      rw [acquire_plays hcall rfl hbudget]
      refine backoff_plays (failed_plays hclock hlimit ?_ ?_ hnow hconnects hjudge) hgo <;>
        simp [hpool, hnow, hacquire, Manager.set]

/-- **The loop is what the machine does** when nobody else moves. -/
theorem loop_plays (hclock : ∀ i, (env i).acquiredAt ≤ (env i).settledAt ∧
      (env i).settledAt ≤ (env (i + 1)).acquiredAt) :
    ∀ {left : Nat} {s : Head τ} {m : Manager τ}, AtHead mode env n limit left s m →
      Done n (completionLoop mode keys expiry env left s)
        (play keys maxAttempts expiry (loopMoves n env left s.sent.length) m)
  | 0, s, m, h => ⟨by rw [play, loopMoves, List.foldl_nil, h.call]; rfl,
      by rw [play, loopMoves, List.foldl_nil, h.call]; rfl, h.pool⟩
  | left + 1, s, m, h => by
      have hattempt := @attempt_plays _ _ _ keys maxAttempts expiry _ _ _ _ _ _ hclock h _ (attempted s)
      have hmoves : play keys maxAttempts expiry (loopMoves n env (left + 1) s.sent.length) m =
          play keys maxAttempts expiry (loopMoves n env left (s.sent.length + 1))
            (play keys maxAttempts expiry (attemptMoves n (s.next env)) m) :=
        List.foldl_append ..
      rw [hmoves, completionLoop]
      cases hout : attempt mode keys expiry env (decide (0 < left)) s with
      | inl c =>
          rw [hout] at hattempt
          exact done_play (fun _ => own_loopMoves) hattempt
      | inr s' =>
          rw [hout] at hattempt
          have hlength : s'.sent.length = s.sent.length + 1 := by
            have := h.limit
            have := hattempt.limit
            omega
          rw [← hlength]
          exact loop_plays hclock hattempt

/-- **A call that has the pool to itself** is what the machine does from its start. -/
theorem completion_runs (hclock : ∀ i, (env i).acquiredAt ≤ (env i).settledAt ∧
      (env i).settledAt ≤ (env (i + 1)).acquiredAt) {m : Manager τ} {valid : Bool}
    (hidle : (m.calls n).stage = .idle) (hnow : m.clock ≤ (env 0).acquiredAt) :
    Done n (chatCompletion mode keys expiry env maxAttempts valid m.pool)
      (play keys maxAttempts expiry
        (.start n mode valid :: loopMoves n env (attemptLimit keys maxAttempts m.pool) 0) m) := by
  have hstart : (poolStep keys maxAttempts expiry (.start n mode valid) m).2 =
      m.set n (startCall keys maxAttempts m.pool mode valid) := by
    simp [poolStep, hidle]
  rw [play_cons, hstart, chatCompletion]
  cases valid with
  | false =>
      refine done_play (fun _ => own_loopMoves) ⟨?_, ?_, rfl⟩ <;> simp [startCall]
  | true =>
      refine @loop_plays _ _ _ keys maxAttempts expiry _ _ (attemptLimit keys maxAttempts m.pool)
        hclock _ ⟨m.pool, [], [], none⟩ _ ⟨?_, rfl, hnow, Nat.zero_add _⟩
      have hpos : 0 < attemptLimit keys maxAttempts m.pool := by
        unfold attemptLimit
        omega
      rw [set_self, if_pos hpos]
      rfl

end

end Katherine.Provider
