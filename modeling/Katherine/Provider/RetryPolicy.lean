import Katherine.Provider.Completion

/-!
# What a completion reports, and what it repeats

The two loops of `Completion.lean` are to report the last failure and to follow one policy.
Each of them slips once.

The asynchronous loop records the failure of each request, but when it finds no further key it
passes on what `_acquire_next_key` makes of the pool: `failure_code_iff` says when that is the
failure recorded last. And a client error that is no use to repeat ends the synchronous loop,
while the asynchronous one goes on with the next key: `paths_agree_iff` says when that makes no
difference.
-/

namespace Katherine.Provider

open Py

/-! ## The failure code -/

section

variable {τ : Type} [LinearOrder τ] {mode : Mode} {keys : List PyStr} {expiry : τ → τ}
  {env : Nat → Attempt τ} {more : Bool}

theorem judge_ends_ne_poolExhausted {o : Outcome} {message : PyStr} {code : ProviderFailure} :
    judge mode o ≠ .ends (.poolExhausted message code) := by
  cases mode <;> cases o <;> simp only [judge, ne_eq, reduceCtorEq, not_false_eq_true,
    Verdict.ends.injEq] <;> split <;> (try split) <;> simp

/-- `last_failure`, as an outcome sets it. -/
def recorded (o : Outcome) : Option ProviderFailure :=
  match judge .async o with
  | .retry _ failure => some failure
  | .ends _ => none

theorem recorded_of_judge {o : Outcome} {penalty : Penalty} {failure : ProviderFailure}
    (h : judge .async o = .retry penalty failure) : recorded o = some failure := by
  rw [recorded, h]

/-- The cooldown of `k` is in force. -/
def Cooling (p : Pool τ) (now : τ) (k : PyStr) : Prop := ∃ t, p.cooldowns k = some t ∧ now < t

/-- The state of the pool is what `failure` would leave: all keys deactivated, all active keys
cooling down, or an active key that is not cooling down and so has been tried. -/
def Explains (keys : List PyStr) (p : Pool τ) (now : τ) : ProviderFailure → Prop
  | .authFailed => ∀ k ∈ keys, k ∈ p.deactivated
  | .rateLimited =>
      (∃ k ∈ keys, k ∉ p.deactivated) ∧ ∀ k ∈ keys, k ∉ p.deactivated → Cooling p now k
  | .connectionFailed => ∃ k ∈ keys, k ∉ p.deactivated ∧ ¬ Cooling p now k
  | _ => False

theorem isSome_expire {p : Pool τ} {now : τ} {k : PyStr} :
    ((p.expire now).cooldowns k).isSome = true ↔ Cooling p now k := by
  rw [← not_iff_not, Bool.not_eq_true, Option.isSome_eq_false_iff, Option.isNone_iff_eq_none,
    expire_none]
  simp only [Cooling, not_exists, not_and, not_lt]

omit [LinearOrder τ] in
/-- Which error it is, when no key is eligible. -/
theorem exhaustion_cases {p : Pool τ} {tried : List PyStr}
    (h : ∀ k ∈ keys, p.eligible tried k = false) :
    (p.exhaustion keys tried = .deactivated ∧ ∀ k ∈ keys, k ∈ p.deactivated) ∨
      (p.exhaustion keys tried = .cooldown ∧ (∃ k ∈ keys, k ∉ p.deactivated) ∧
        ∀ k ∈ keys, k ∉ p.deactivated → (p.cooldowns k).isSome = true) ∨
      p.exhaustion keys tried = .tried ∧
        ∃ k ∈ keys, k ∉ p.deactivated ∧ (p.cooldowns k).isSome = false := by
  have hgeneric := exhaustion_ne_fallback h
  have hactive : (keys.filter fun k => !decide (k ∈ p.deactivated)).isEmpty = true ↔
      ∀ k ∈ keys, k ∈ p.deactivated := by
    simp [List.filter_eq_nil_iff]
  have hcooling : ((keys.filter fun k => !decide (k ∈ p.deactivated)).all
      fun k => (p.cooldowns k).isSome) = true ↔
      ∀ k ∈ keys, k ∉ p.deactivated → (p.cooldowns k).isSome = true := by
    simp [List.all_eq_true, or_iff_not_imp_left]
  unfold Pool.exhaustion at hgeneric ⊢
  dsimp only at hgeneric ⊢
  by_cases hd : (keys.filter fun k => !decide (k ∈ p.deactivated)).isEmpty = true
  · exact .inl ⟨if_pos hd, hactive.mp hd⟩
  · have hsome : ∃ k ∈ keys, k ∉ p.deactivated := by
      by_contra hnone
      exact hd (hactive.mpr fun k hk => by_contra fun hk' => hnone ⟨k, hk, hk'⟩)
    rw [if_neg hd] at hgeneric ⊢
    rw [Bool.not_eq_true] at hd
    rw [hd] at hgeneric ⊢
    simp only [Bool.not_false, Bool.true_and] at hgeneric ⊢
    by_cases hc : ((keys.filter fun k => !decide (k ∈ p.deactivated)).all
        fun k => (p.cooldowns k).isSome) = true
    · exact .inr (.inl ⟨if_pos hc, hsome, hcooling.mp hc⟩)
    · rw [if_neg hc] at hgeneric ⊢
      refine .inr (.inr ⟨?_, ?_⟩)
      · split at hgeneric
        · exact if_pos ‹_›
        · exact absurd rfl hgeneric
      · by_contra hnone
        refine hc (hcooling.mpr fun k hk hk' => ?_)
        by_contra hk''
        exact hnone ⟨k, hk, hk', Bool.not_eq_true _ ▸ hk''⟩

/-- The code that `_acquire_next_key` raises with is that of the pool. -/
theorem acquire_error_code {p pool : Pool τ} {tried : List PyStr} {now : τ} {x : Exhaustion}
    (h : p.acquire keys tried now = (.error x, pool)) (failure : ProviderFailure) :
    x.code = failure ↔ Explains keys p now failure := by
  unfold Pool.acquire at h
  dsimp only at h
  split at h
  · cases h
  · rename_i hsearch
    cases h
    have hcooling : ∀ k, ((p.expire now).cooldowns k).isSome = true ↔ Cooling p now k :=
      fun _ => isSome_expire
    rcases exhaustion_cases (search_none.mp hsearch) with ⟨hx, hall⟩ | ⟨hx, hsome, hall⟩ |
      ⟨hx, k, hk, hactive, hcool⟩ <;> rw [hx]
    · cases failure with
      | authFailed => exact iff_of_true rfl hall
      | rateLimited => exact iff_of_false (by simp [Exhaustion.code]) fun ⟨⟨k, hk, h⟩, _⟩ => h (hall k hk)
      | connectionFailed => exact iff_of_false (by simp [Exhaustion.code]) fun ⟨k, hk, h, _⟩ => h (hall k hk)
      | _ => exact iff_of_false (by simp [Exhaustion.code]) id
    · obtain ⟨k, hk, hactive⟩ := hsome
      cases failure with
      | authFailed => exact iff_of_false (by simp [Exhaustion.code]) fun h => hactive (h k hk)
      | rateLimited =>
          exact iff_of_true rfl ⟨⟨k, hk, hactive⟩, fun k hk h => (hcooling k).mp (hall k hk h)⟩
      | connectionFailed =>
          exact iff_of_false (by simp [Exhaustion.code]) fun ⟨k, hk, h, hcool⟩ =>
            hcool ((hcooling k).mp (hall k hk h))
      | _ => exact iff_of_false (by simp [Exhaustion.code]) id
    · have hnot : ¬ Cooling p now k := by
        rw [← hcooling, hcool]
        exact Bool.false_ne_true
      cases failure with
      | authFailed => exact iff_of_false (by simp [Exhaustion.code]) fun h => hactive (h k hk)
      | rateLimited =>
          exact iff_of_false (by simp [Exhaustion.code]) fun h => hnot (h.2 k hk hactive)
      | connectionFailed => exact iff_of_true rfl ⟨k, hk, hactive, hnot⟩
      | _ => exact iff_of_false (by simp [Exhaustion.code]) id

theorem acquire_none {p pool : Pool τ} {tried : List PyStr} {now : τ} {x : Exhaustion}
    (h : p.acquire keys tried now = (.error x, pool)) : ∀ k ∈ keys, ¬ Eligible p tried now k :=
  acquire_error_iff.1.mp ⟨x, by rw [h]⟩

/-- The call, from any point of its loop, tells the failure it recorded last. -/
def TellsFailure (c : Completion τ) : Prop :=
  ∀ message code key outcome rest, c.result = .poolExhausted message code →
    c.sent = (key, outcome) :: rest → recorded outcome = some code

/-- Should the attempt find no key, then the pool tells the failure recorded last. -/
def PoolExplains (keys : List PyStr) (env : Nat → Attempt τ) (s : Head τ) : Prop :=
  s.sent ≠ [] → (s.next env).budget = true →
    (∀ k ∈ keys, ¬ Eligible s.pool s.tried (s.next env).acquiredAt k) →
    ∃ failure, s.lastFailure = some failure ∧
      Explains keys s.pool (s.next env).acquiredAt failure

/-- `last_failure` is that of the last request. -/
def Recorded (s : Head τ) : Prop :=
  ∀ key outcome rest, s.sent = (key, outcome) :: rest →
    ∃ failure, s.lastFailure = some failure ∧ recorded outcome = some failure

theorem exhausted_code {failure code : ProviderFailure} {message : PyStr}
    (h : exhausted .async failure = .poolExhausted message code) : failure = code := by
  unfold exhausted at h
  dsimp only at h
  split at h
  · cases h; rfl
  · split at h <;> cases h <;> rfl

/-- From any point of the loop: the call tells its last failure exactly when the pool does wherever
the call finds no key. -/
theorem loop_tells_iff (left : Nat) (s : Head τ) (hs : Recorded s) :
    TellsFailure (completionLoop .async keys expiry env left s) ↔
      ∀ h ∈ heads .async keys expiry env left s, PoolExplains keys env h.2 := by
  induction left generalizing s with
  | zero =>
      refine iff_of_true ?_ fun _ h => absurd h List.not_mem_nil
      intro message code key outcome rest hresult hsent
      obtain ⟨failure, hlast, hrecorded⟩ := hs key outcome rest hsent
      have hcode := exhausted_code hresult
      rw [hlast, Option.getD_some] at hcode
      rw [hrecorded, hcode]
  | succ left ih =>
      have hattempt := @attempted _ _ .async keys expiry env (decide (0 < left)) s
      simp only [completionLoop, heads, List.forall_mem_cons]
      generalize attempt .async keys expiry env (decide (0 < left)) s = out at hattempt
      -- an attempt that finds a key asks nothing of the pool
      have hfound : ∀ {key pool},
          s.pool.acquire keys s.tried (s.next env).acquiredAt = (.ok key, pool) →
          PoolExplains keys env s := by
        intro key pool hacquire _ _ hnone
        have hok := @acquire_ok _ _ keys s.tried (s.next env).acquiredAt s.pool key (by rw [hacquire])
        exact absurd hok.2 (hnone key hok.1)
      cases hattempt with
      | noBudget _ hbudget =>
          refine iff_of_true (fun _ _ _ _ _ h => by cases h) ⟨fun _ hb => ?_, by simp⟩
          rw [hbudget] at hb
          cases hb
      | @noKey x pool hbudget hacquire =>
          have hcode := acquire_error_code hacquire
          rw [and_iff_left (by simp)]
          constructor
          · intro htells hsent _ _
            obtain ⟨⟨key, outcome⟩, rest, hcons⟩ := List.exists_cons_of_ne_nil hsent
            obtain ⟨failure, hlast, hrecorded⟩ := hs key outcome rest hcons
            have := htells x.message x.code key outcome rest rfl hcons
            rw [hrecorded, Option.some.injEq] at this
            exact ⟨failure, hlast, (hcode failure).mp this.symm⟩
          · intro hexplains message code key outcome rest hresult hcons
            change s.sent = _ at hcons
            obtain ⟨failure, hlast, hrecorded⟩ := hs key outcome rest hcons
            obtain ⟨failure', hlast', hpool⟩ := hexplains (by rw [hcons]; simp) (hbudget rfl)
              (acquire_none hacquire)
            obtain rfl : failure = failure' := Option.some.inj (hlast.symm.trans hlast')
            cases hresult
            rw [hrecorded, (hcode failure).mpr hpool]
      | noClient _ hacquire =>
          exact iff_of_true (fun _ _ _ _ _ h => by cases h) ⟨hfound hacquire, by simp⟩
      | ends _ hacquire _ hjudge =>
          refine iff_of_true (fun message code _ _ _ h => ?_) ⟨hfound hacquire, by simp⟩
          obtain rfl : _ = CallResult.poolExhausted message code := h
          exact absurd hjudge judge_ends_ne_poolExhausted
      | cancelled _ hacquire =>
          exact iff_of_true (fun _ _ _ _ _ h => by cases h) ⟨hfound hacquire, by simp⟩
      | @retry key pool penalty failure _ hacquire _ hjudge =>
          rw [and_iff_right (hfound hacquire)]
          refine ih _ fun key' outcome rest h => ⟨failure, rfl, ?_⟩
          obtain ⟨h, -⟩ := List.cons.inj h
          obtain ⟨-, rfl⟩ := Prod.mk.inj h
          exact recorded_of_judge hjudge

/-- **The code tells what happened** exactly when the pool does: wherever the call, with a request
behind it and budget left, finds no further key. -/
theorem failure_code_iff {maxAttempts : Int} {valid : Bool} {p : Pool τ} :
    TellsFailure (chatCompletion .async keys expiry env maxAttempts valid p) ↔
      ∀ h ∈ callHeads .async keys expiry env maxAttempts valid p, PoolExplains keys env h.2 := by
  unfold chatCompletion callHeads
  cases valid with
  | true => exact loop_tells_iff _ _ fun _ _ _ h => by cases h
  | false => exact iff_of_true (fun _ _ _ _ _ h => by cases h) fun _ h => absurd h List.not_mem_nil

end

/-- A key that answers with a timeout, and one that cools down meanwhile. -/
def coolingPool : Pool Int := ⟨[], fun k => if k = py "k2" then some 100 else none, 0⟩

def timedOut : Nat → Attempt Int := fun _ => ⟨true, 0, true, .apiTimeoutError, 0, false⟩

/-- **A timeout is reported as a failed connection.** -/
theorem timeout_reported_as_connection_failed :
    ¬ TellsFailure (chatCompletion .async [py "k1", py "k2"] (· + 10) timedOut 3 true coolingPool) := by
  intro h
  have := h (py "All keys tried, none succeeded.") .connectionFailed (py "k1") .apiTimeoutError []
    (by decide +kernel) rfl
  revert this
  decide

/-! ## The two paths -/

section

variable {τ : Type} [LinearOrder τ] {keys : List PyStr} {expiry : τ → τ} {env : Nat → Attempt τ}

/-- A client error that is no use to repeat: the answer of the last resort of the status clauses. -/
def Outcome.isClientError : Outcome → Bool
  | .apiStatusError status => decide (status ≠ 401) && decide (status < 500)
  | _ => false

/-- Success, 401, 429, another client error, a server error, a connection error, a timeout, or an
unknown exception. -/
def Outcome.isAnswer : Outcome → Bool
  | .cancelledError => false
  | .turnExecutionError => false
  | _ => true

/-- An outside with budget to spare in which the provider decides everything. -/
structure Answers (env : Nat → Attempt τ) : Prop where
  budget : ∀ i, (env i).budget = true
  connects : ∀ i, (env i).connects = true
  cancelled : ∀ i, (env i).cancelled = false
  outcome : ∀ i, (env i).outcome.isAnswer = true

/-- The clauses of the two paths do the same to the key, but for a client error. -/
theorem judge_agree {o : Outcome} (h : o.isAnswer = true) :
    (o.isClientError = false ∧
      ((∃ r, ∀ mode, judge mode o = .ends r) ∨
        ∃ penalty, ∀ mode, ∃ failure, judge mode o = .retry penalty failure)) ∨
    o.isClientError = true ∧ judge .sync o = .ends .requestError ∧
      judge .async o = .retry .none .invalidRequest := by
  cases o with
  | apiStatusError status =>
      by_cases h401 : status = 401
      · exact .inl ⟨by simp [Outcome.isClientError, h401], .inr ⟨.deactivate, fun mode => ⟨.authFailed, by simp [judge, h401]⟩⟩⟩
      · by_cases h500 : 500 ≤ status
        · exact .inl ⟨by simp [Outcome.isClientError]; omega, .inr ⟨.none, fun mode => ⟨.serverError, by simp [judge, h401, h500]⟩⟩⟩
        · exact .inr ⟨by simp [Outcome.isClientError]; omega, by simp [judge, h401, h500], by simp [judge, h401, h500]⟩
  | completed => exact .inl ⟨rfl, .inl ⟨.response, fun mode => by cases mode <;> rfl⟩⟩
  | cancelledError => cases h
  | turnExecutionError => cases h
  | deadline => exact .inl ⟨rfl, .inr ⟨.none, fun mode => by cases mode <;> exact ⟨_, rfl⟩⟩⟩
  | rateLimitError => exact .inl ⟨rfl, .inr ⟨.cooldown, fun mode => by cases mode <;> exact ⟨_, rfl⟩⟩⟩
  | authenticationError => exact .inl ⟨rfl, .inr ⟨.deactivate, fun mode => by cases mode <;> exact ⟨_, rfl⟩⟩⟩
  | apiConnectionError => exact .inl ⟨rfl, .inr ⟨.none, fun mode => by cases mode <;> exact ⟨_, rfl⟩⟩⟩
  | apiTimeoutError => exact .inl ⟨rfl, .inr ⟨.none, fun mode => by cases mode <;> exact ⟨_, rfl⟩⟩⟩
  | unknown => exact .inl ⟨rfl, .inr ⟨.none, fun mode => by cases mode <;> exact ⟨_, rfl⟩⟩⟩

/-- Where the provider decides everything, an attempt is its answer. -/
theorem attempt_eq (h : Answers env) (mode : Mode) (more : Bool) (s : Head τ) :
    attempt mode keys expiry env more s =
      match s.pool.acquire keys s.tried (s.next env).acquiredAt with
      | (.error x, pool) => .inl ⟨.poolExhausted x.message x.code, s.sent, pool⟩
      | (.ok key, pool) =>
          match judge mode (s.next env).outcome with
          | .ends r => .inl ⟨r, (key, (s.next env).outcome) :: s.sent, pool⟩
          | .retry penalty failure =>
              .inr ({ s with pool }.retry expiry env key penalty failure) := by
  have hbudget : (s.next env).budget = true := h.budget _
  have hconnects : (s.next env).connects = true := h.connects _
  have hcancelled : (s.next env).cancelled = false := h.cancelled _
  unfold attempt
  rw [hbudget, hconnects, hcancelled, Bool.and_false]
  cases mode <;> rfl

theorem sent_extends (h : Answers env) (mode : Mode) (left : Nat) (s : Head τ) :
    ∃ new, (completionLoop mode keys expiry env left s).sent = new ++ s.sent := by
  induction left generalizing s with
  | zero => exact ⟨[], rfl⟩
  | succ left ih =>
      rw [completionLoop, attempt_eq h]
      rcases s.pool.acquire keys s.tried (s.next env).acquiredAt with ⟨x | key, pool⟩
      · exact ⟨[], rfl⟩
      · dsimp only
        cases judge mode (s.next env).outcome with
        | ends r => exact ⟨[(key, (s.next env).outcome)], rfl⟩
        | retry penalty failure =>
            obtain ⟨new, hnew⟩ := ih ({ s with pool }.retry expiry env key penalty failure)
            exact ⟨new ++ [(key, (s.next env).outcome)], by rw [List.append_assoc]; exact hnew⟩

omit [LinearOrder τ] in
/-- The same requests, the same keys out of use, and no request behind a client error. -/
structure SamePath (a b : Completion τ) : Prop where
  keys : a.sent.map Prod.fst = b.sent.map Prod.fst
  deactivated : a.pool.deactivated = b.pool.deactivated
  cooldowns : a.pool.cooldowns = b.pool.cooldowns
  last : ∀ r ∈ a.sent.tail ++ b.sent.tail, r.2.isClientError = false

/-- A client error is answered to the last attempt, or it leaves nothing for another: no key is
eligible, and no cooldown has run out. -/
def NothingLeft (keys : List PyStr) (env : Nat → Attempt τ) (h : Nat × Head τ) : Prop :=
  (h.2.next env).outcome.isClientError = true → ∀ key pool,
    h.2.pool.acquire keys h.2.tried (h.2.next env).acquiredAt = (.ok key, pool) →
    h.1 = 0 ∨ (∀ k ∈ keys, ¬ Eligible pool (key :: h.2.tried) (env (h.2.sent.length + 1)).acquiredAt k) ∧
      ∀ k t, pool.cooldowns k = some t → (env (h.2.sent.length + 1)).acquiredAt < t

theorem expire_eq_iff {p : Pool τ} {now : τ} :
    p.cooldowns = (p.expire now).cooldowns ↔ ∀ k t, p.cooldowns k = some t → now < t := by
  constructor
  · intro h k t ht
    by_contra hle
    have := congrFun h k
    rw [ht] at this
    simp [Pool.expire, ht, Option.filter, not_lt.mp hle] at this
  · intro h
    funext k
    cases ht : p.cooldowns k with
    | none => simp [Pool.expire, ht]
    | some t => simp [Pool.expire, ht, Option.filter, h k t ht]

/-- After a client error: the synchronous call is over, and the asynchronous one goes on. -/
theorem client_error_same_iff (h : Answers env) (left : Nat) (s : Head τ) {key : PyStr}
    {pool : Pool τ} (hs : ∀ r ∈ s.sent, r.2.isClientError = false)
    (hacquire : s.pool.acquire keys s.tried (s.next env).acquiredAt = (.ok key, pool))
    (herror : (s.next env).outcome.isClientError = true) :
    SamePath ⟨.requestError, (key, (s.next env).outcome) :: s.sent, pool⟩
        (completionLoop .async keys expiry env left
          ({ s with pool }.retry expiry env key .none .invalidRequest)) ↔
      NothingLeft keys env (left, s) := by
  have hnothing : NothingLeft keys env (left, s) ↔ left = 0 ∨
      (∀ k ∈ keys, ¬ Eligible pool (key :: s.tried) (env (s.sent.length + 1)).acquiredAt k) ∧
        ∀ k t, pool.cooldowns k = some t → (env (s.sent.length + 1)).acquiredAt < t := by
    refine ⟨fun hn => hn herror key pool hacquire, fun hn _ key' pool' hacquire' => ?_⟩
    rw [hacquire] at hacquire'
    cases hacquire'
    exact hn
  rw [hnothing]
  cases left with
  | zero =>
      refine iff_of_true ⟨rfl, rfl, rfl, fun r hr => ?_⟩ (.inl rfl)
      rcases List.mem_append.mp hr with hr | hr <;> exact hs r hr
  | succ left =>
      generalize hnext : { s with pool }.retry expiry env key .none .invalidRequest = s'
      have hpool : s'.pool = pool := by rw [← hnext]; rfl
      have hsent : s'.sent = (key, (s.next env).outcome) :: s.sent := by rw [← hnext]; rfl
      have htried : s'.tried = key :: s.tried := by rw [← hnext]; rfl
      have hat : s'.next env = env (s.sent.length + 1) := by rw [Head.next, hsent]; rfl
      rw [or_iff_right (Nat.succ_ne_zero left), completionLoop, attempt_eq h, hat, hpool, hsent, htried]
      rcases hagain : pool.acquire keys (key :: s.tried) (env (s.sent.length + 1)).acquiredAt
        with ⟨x | key', pool'⟩
      · have hkept := acquire_pool keys (key :: s.tried) (env (s.sent.length + 1)).acquiredAt pool
        rw [hagain] at hkept
        rw [and_iff_right (acquire_none hagain), ← expire_eq_iff, ← hkept.2]
        refine ⟨SamePath.cooldowns, fun hsame => ⟨rfl, hkept.1.symm, hsame, fun r hr => ?_⟩⟩
        rcases List.mem_append.mp hr with hr | hr <;> exact hs r hr
      · -- another request
        refine iff_of_false (fun hsame => ?_) fun hnone => ?_
        · have hkeys := congrArg List.length hsame.keys
          dsimp only at hkeys
          cases hjudge : judge .async (env (s.sent.length + 1)).outcome with
          | ends r =>
              rw [hjudge] at hkeys
              simp at hkeys
          | retry penalty failure =>
              rw [hjudge] at hkeys
              obtain ⟨new, hnew⟩ := @sent_extends _ _ keys expiry env h .async left
                (Head.retry expiry env ⟨pool', key :: s.tried, (key, (s.next env).outcome) :: s.sent,
                  s'.lastFailure⟩ key' penalty failure)
              dsimp only at hkeys
              rw [hnew] at hkeys
              simp [Head.retry] at hkeys
              omega
        · have hok := @acquire_ok _ _ keys (key :: s.tried) (env (s.sent.length + 1)).acquiredAt
            pool key' (by rw [hagain])
          exact hnone.1 key' hok.1 hok.2

/-- From any point of the loops. -/
theorem loop_same_iff (h : Answers env) (left : Nat) (s : Head τ) (failure : Option ProviderFailure)
    (hs : ∀ r ∈ s.sent, r.2.isClientError = false) :
    SamePath (completionLoop .sync keys expiry env left s)
        (completionLoop .async keys expiry env left { s with lastFailure := failure }) ↔
      ∀ x ∈ heads .sync keys expiry env left s, NothingLeft keys env x := by
  have htail : ∀ {sent : List (PyStr × Outcome)}, (∀ r ∈ sent, r.2.isClientError = false) →
      ∀ r ∈ sent.tail ++ sent.tail, r.2.isClientError = false := by
    intro sent hsent r hr
    rcases List.mem_append.mp hr with hr | hr <;> exact hsent r (List.mem_of_mem_tail hr)
  induction left generalizing s failure with
  | zero => exact iff_of_true ⟨rfl, rfl, rfl, htail hs⟩ fun _ hx => absurd hx List.not_mem_nil
  | succ left ih =>
      simp only [completionLoop, heads, List.forall_mem_cons, attempt_eq h]
      rw [show Head.next env { s with lastFailure := failure } = s.next env from rfl]
      rcases hacquire : s.pool.acquire keys s.tried (s.next env).acquiredAt with ⟨x | key, pool⟩
      · refine iff_of_true ⟨rfl, rfl, rfl, htail hs⟩ ⟨fun _ key pool hok => ?_, by simp⟩
        rw [hacquire] at hok
        cases hok
      · dsimp only
        rcases judge_agree (h.outcome s.sent.length) with ⟨hother, ⟨r, hjudge⟩ | ⟨penalty, hjudge⟩⟩ |
          ⟨herror, hsync, hasync⟩
        · have hends : ∀ mode, judge mode (s.next env).outcome = .ends r := hjudge
          rw [hends, hends]
          refine iff_of_true ⟨rfl, rfl, rfl, fun x hx => ?_⟩ ⟨fun herror => ?_, by simp⟩
          · rcases List.mem_append.mp hx with hx | hx <;> exact hs x hx
          · exact absurd (hother.symm.trans herror) Bool.false_ne_true
        · obtain ⟨failure₁, hsync⟩ := hjudge .sync
          obtain ⟨failure₂, hasync⟩ := hjudge .async
          rw [show judge .sync (s.next env).outcome = _ from hsync,
            show judge .async (s.next env).outcome = _ from hasync]
          have hnone : NothingLeft keys env (left, s) := fun herror =>
            absurd (hother.symm.trans herror) Bool.false_ne_true
          rw [and_iff_right hnone]
          -- the two paths record different failures, and do the same to the pool
          refine ih ({ s with pool }.retry expiry env key penalty failure₁) (some failure₂) ?_
          exact List.forall_mem_cons.mpr ⟨hother, hs⟩
        · rw [show judge .sync (s.next env).outcome = _ from hsync,
            show judge .async (s.next env).outcome = _ from hasync]
          simp only [List.not_mem_nil, false_implies, implies_true, and_true]
          exact client_error_same_iff h left s hs hacquire herror

/-- **The two paths are the same** exactly when a client error leaves nothing for another attempt. -/
theorem paths_agree_iff (h : Answers env) {maxAttempts : Int} {valid : Bool} {p : Pool τ} :
    SamePath (chatCompletion .sync keys expiry env maxAttempts valid p)
        (chatCompletion .async keys expiry env maxAttempts valid p) ↔
      ∀ x ∈ callHeads .sync keys expiry env maxAttempts valid p, NothingLeft keys env x := by
  unfold chatCompletion callHeads
  cases valid with
  | true => exact loop_same_iff h _ ⟨p, [], [], none⟩ none (by simp)
  | false => exact iff_of_true ⟨rfl, rfl, rfl, by simp⟩ fun _ hx => absurd hx List.not_mem_nil

end

/-- A provider that refuses the request as it is. -/
def badRequest : Nat → Attempt Int := fun _ => ⟨true, 0, true, .apiStatusError 400, 0, false⟩

theorem badRequest_answers : Answers badRequest where
  budget _ := rfl
  connects _ := rfl
  cancelled _ := rfl
  outcome _ := rfl

/-- **The asynchronous path repeats a request that cannot succeed.** -/
theorem client_error_retried :
    Answers badRequest ∧
      ¬ SamePath (chatCompletion .sync [py "k1", py "k2"] (· + 10) badRequest 3 true ⟨[], fun _ => none, 0⟩)
        (chatCompletion .async [py "k1", py "k2"] (· + 10) badRequest 3 true ⟨[], fun _ => none, 0⟩) := by
  refine ⟨badRequest_answers, fun h => ?_⟩
  have := h.keys
  revert this
  decide +kernel

/-- Three keys, the last of them cooling down. -/
def threeKeys : List PyStr := [py "k1", py "k2", py "k3"]

def thirdCooling : Pool Int := ⟨[], fun k => if k = py "k3" then some 100 else none, 0⟩

/-- The first request meets a rate limit, every later one is refused as it is. -/
def limitedThenBad : Nat → Attempt Int
  | 0 => ⟨true, 0, true, .rateLimitError, 0, false⟩
  | _ + 1 => ⟨true, 0, true, .apiStatusError 400, 0, false⟩

theorem limitedThenBad_answers : Answers limitedThenBad where
  budget n := by cases n <;> rfl
  connects n := by cases n <;> rfl
  cancelled n := by cases n <;> rfl
  outcome n := by cases n <;> rfl

/-- The head of the second attempt: the first key cools down as well. -/
def secondHead : Head Int :=
  Head.retry (· + 10) limitedThenBad ⟨(thirdCooling.acquire threeKeys [] 0).2, [], [], none⟩ (py "k1") .cooldown
    .rateLimited

/-- No cooldown of it has run out. -/
theorem thirdCooling_later {k : PyStr} {t : Int} (h : (secondHead.pool.expire 0).cooldowns k = some t) : 0 < t := by
  obtain ⟨-, hlater⟩ := Option.filter_eq_some_iff.mp h
  simpa using hlater

/-- Both paths try two keys, and a third attempt, which one of them would make, finds no key. -/
theorem paths_agree_three :
    (chatCompletion .sync threeKeys (· + 10) limitedThenBad 3 true thirdCooling).sent.map Prod.fst =
      [py "k2", py "k1"] ∧
    SamePath (chatCompletion .sync threeKeys (· + 10) limitedThenBad 3 true thirdCooling)
      (chatCompletion .async threeKeys (· + 10) limitedThenBad 3 true thirdCooling) := by
  refine ⟨by decide +kernel, (paths_agree_iff limitedThenBad_answers).mpr fun x hx => ?_⟩
  have hlist : callHeads .sync threeKeys (· + 10) limitedThenBad 3 true thirdCooling =
      [(2, ⟨thirdCooling, [], [], none⟩), (1, secondHead)] := rfl
  rw [hlist] at hx
  rcases List.mem_pair.mp hx with rfl | rfl
  · exact fun herror => nomatch herror
  · intro _ key pool hacquire
    have hkey : secondHead.pool.acquire threeKeys secondHead.tried 0 =
        (.ok (py "k2"), ⟨[], (secondHead.pool.expire 0).cooldowns, 2⟩) := rfl
    cases hkey.symm.trans hacquire
    refine .inr ⟨fun k hk hok => ?_, fun k t ht => ?_⟩
    · simp only [threeKeys, List.mem_cons, List.not_mem_nil, or_false] at hk
      rcases hk with rfl | rfl | rfl
      · exact hok.untried (by decide)
      · exact hok.untried (by decide)
      · exact absurd (hok.cooled 100 rfl) (by decide)
    · exact thirdCooling_later ht

end Katherine.Provider
