import Katherine.Provider.KeyPool
import Mathlib.Data.Int.ConditionallyCompleteOrder
import Mathlib.Order.ConditionallyCompleteLattice.Basic

/-!
# The discipline of the key pool

What holds over any interleaving of calls on one manager. A call sends at most one request
for each attempt and one for each key. Every key it sends with was acquired while it was
active and cooled down. A key that is deactivated is not acquired again, but a call that
has it already still sends its request: `deactivated_key_used` is such a run.
-/

namespace Katherine.Provider

open Py Runs

section

variable {τ : Type} [LinearOrder τ] {keys : List PyStr} {maxAttempts : Int} {expiry : τ → τ}

/-! ## Everything a step can do -/

inductive Moved (keys : List PyStr) (maxAttempts : Int) (expiry : τ → τ) :
    PoolMove τ → Manager τ → Manager τ → Prop
  | same (x : PoolMove τ) (m : Manager τ) : Moved keys maxAttempts expiry x m m
  | ticked (t : τ) (m : Manager τ) :
      Moved keys maxAttempts expiry (.tick t) m { m with clock := max m.clock t }
  | started {n : Nat} {mode : Mode} {valid : Bool} {m : Manager τ} :
      Moved keys maxAttempts expiry (.start n mode valid) m
        (m.set n (startCall keys maxAttempts m.pool mode valid))
  | ended {x : PoolMove τ} {n : Nat} {r : CallResult} {m : Manager τ} :
      Moved keys maxAttempts expiry x m (m.set n { m.calls n with stage := .finished r })
  | acquired {n : Nat} {budget : Bool} {k : PyStr} {m : Manager τ}
      (hstage : (m.calls n).stage = .ready)
      (hk : (m.pool.acquire keys (m.calls n).tried m.clock).1 = .ok k) :
      Moved keys maxAttempts expiry (.acquire n budget) m
        ({ m with pool := (m.pool.acquire keys (m.calls n).tried m.clock).2 }.set n
          { m.calls n with stage := .acquired k })
  | refused {n : Nat} {budget : Bool} {r : CallResult} {m : Manager τ} :
      Moved keys maxAttempts expiry (.acquire n budget) m
        ({ m with pool := (m.pool.acquire keys (m.calls n).tried m.clock).2 }.set n
          { m.calls n with stage := .finished r })
  | connected {n : Nat} {ok : Bool} {k : PyStr} {m : Manager τ}
      (hstage : (m.calls n).stage = .acquired k) :
      Moved keys maxAttempts expiry (.connect n ok) m
        (m.set n { m.calls n with stage := .connected k })
  | sent {n : Nat} {k : PyStr} {m : Manager τ} (hstage : (m.calls n).stage = .connected k) :
      Moved keys maxAttempts expiry (.send n) m
        (m.set n { m.calls n with requests := k :: (m.calls n).requests, stage := .waiting k })
  | failed {n : Nat} {outcome : Outcome} {k : PyStr} {penalty : Penalty} {failure : ProviderFailure}
      {m : Manager τ} (hstage : (m.calls n).stage = .waiting k)
      (hjudge : judge (m.calls n).mode outcome = .retry penalty failure) :
      Moved keys maxAttempts expiry (.settle n outcome) m
        ({ m with pool := m.pool.punish (expiry m.clock) k penalty }.set n
          ((m.calls n).failed k failure))

theorem poolStep_moved (x : PoolMove τ) (m : Manager τ) :
    Moved keys maxAttempts expiry x m (poolStep keys maxAttempts expiry x m).2 := by
  unfold poolStep
  cases x with
  | tick t => exact .ticked t m
  | start n mode valid =>
      dsimp only
      split
      · exact .started
      · exact .same _ _
  | acquire n budget =>
      dsimp only
      split
      · exact .ended
      · rename_i hstage _
        cases hk : (m.pool.acquire keys (m.calls n).tried m.clock).1 with
        | ok k => exact .acquired hstage hk
        | error x => exact .refused
      · exact .same _ _
  | connect n ok =>
      dsimp only
      split
      · rename_i k hstage
        cases ok with
        | true => exact .connected hstage
        | false => exact .ended
      · exact .same _ _
  | send n =>
      dsimp only
      split
      · rename_i k hstage
        exact .sent hstage
      · exact .same _ _
  | settle n outcome =>
      dsimp only
      split
      · rename_i k hstage
        split
        · exact .ended
        · rename_i penalty failure hjudge
          exact .failed hstage hjudge
      · exact .same _ _
  | cancel n =>
      dsimp only
      split
      · exact .ended
      · exact .same _ _

theorem moved_of_event (e : Event (poolStep keys maxAttempts expiry)) :
    Moved keys maxAttempts expiry e.input e.before e.after := by
  have h : Moved keys maxAttempts expiry e.input e.before
      (poolStep keys maxAttempts expiry e.input e.before).2 := poolStep_moved e.input e.before
  rw [e.executed] at h
  exact h

omit [LinearOrder τ] in
@[simp] theorem set_self (m : Manager τ) (n : Nat) (c : Call) : (m.set n c).calls n = c := by
  simp [Manager.set]

omit [LinearOrder τ] in
theorem set_other (m : Manager τ) {n i : Nat} (c : Call) (h : i ≠ n) :
    (m.set n c).calls i = m.calls i := by
  simp [Manager.set, h]

/-! ## One call -/

/-- Where a call is in its loop: the keys it has tried are those it has sent with. -/
def StageOk (c : Call) : Prop :=
  match c.stage with
  | .ready => c.requests = c.tried ∧ c.tried.length = c.attempt ∧ c.attempt < c.limit
  | .acquired k => c.requests = c.tried ∧ c.tried.length = c.attempt ∧ c.attempt < c.limit ∧ k ∉ c.tried
  | .connected k => c.requests = c.tried ∧ c.tried.length = c.attempt ∧ c.attempt < c.limit ∧ k ∉ c.tried
  | .waiting k => c.requests = k :: c.tried ∧ c.tried.length = c.attempt ∧ c.attempt < c.limit ∧
      k ∉ c.tried
  | _ => True

structure CallOk (bound : Nat) (c : Call) : Prop where
  nodup : c.requests.Nodup
  count : c.requests.length ≤ bound
  limit : c.limit ≤ bound
  stage : StageOk c

/-- `max(1, min(max_attempts, number of keys))`. -/
def attemptBound (keys : List PyStr) (maxAttempts : Int) : Nat :=
  (max 1 (min maxAttempts keys.length)).toNat

omit [LinearOrder τ] in
theorem callOk_start (p : Pool τ) (mode : Mode) (valid : Bool) :
    CallOk (attemptBound keys maxAttempts) (startCall keys maxAttempts p mode valid) := by
  have hactive : (keys.filter fun k => !decide (k ∈ p.deactivated)).length ≤ keys.length :=
    List.length_filter_le _ _
  refine ⟨List.nodup_nil, Nat.zero_le _, ?_, ?_⟩
  · show (max 1 (min maxAttempts _)).toNat ≤ (max 1 (min maxAttempts _)).toNat
    omega
  · cases valid with
    | false => trivial
    | true =>
        refine ⟨rfl, rfl, ?_⟩
        show 0 < (max 1 (min maxAttempts _)).toNat
        omega

theorem callOk_end {bound : Nat} {c : Call} (h : CallOk bound c) (r : CallResult) :
    CallOk bound { c with stage := .finished r } :=
  ⟨h.nodup, h.count, h.limit, trivial⟩

theorem callOk_sent {bound : Nat} {c : Call} (h : CallOk bound c) {k : PyStr}
    (hstage : c.stage = .connected k) :
    CallOk bound { c with requests := k :: c.requests, stage := .waiting k } := by
  have hok := h.stage
  rw [StageOk, hstage] at hok
  obtain ⟨hrequests, hlength, hlt, hnew⟩ := hok
  refine ⟨?_, ?_, h.limit, by rw [hrequests], hlength, hlt, hnew⟩
  · exact List.nodup_cons.mpr ⟨by rw [hrequests]; exact hnew, h.nodup⟩
  · have hlimit := h.limit
    show (k :: c.requests).length ≤ bound
    rw [List.length_cons, hrequests]
    omega

theorem callOk_failed {bound : Nat} {c : Call} (h : CallOk bound c) {k : PyStr}
    (hstage : c.stage = .waiting k) (failure : ProviderFailure) : CallOk bound (c.failed k failure) := by
  have hok := h.stage
  rw [StageOk, hstage] at hok
  obtain ⟨hrequests, hlength, -, -⟩ := hok
  refine ⟨h.nodup, h.count, h.limit, ?_⟩
  unfold StageOk Call.failed
  dsimp only
  by_cases hmore : c.attempt + 1 < c.limit
  · rw [if_pos hmore]
    refine ⟨hrequests, ?_, hmore⟩
    rw [List.length_cons, hlength]
  · rw [if_neg hmore]
    trivial

/-- **Every step keeps every call in its bounds.** -/
theorem callOk_moved {x : PoolMove τ} {m m' : Manager τ} (h : Moved keys maxAttempts expiry x m m')
    (hok : ∀ n, CallOk (attemptBound keys maxAttempts) (m.calls n)) (i : Nat) :
    CallOk (attemptBound keys maxAttempts) (m'.calls i) := by
  have hset : ∀ {p : Pool τ} {n : Nat} {c : Call}, CallOk (attemptBound keys maxAttempts) c →
      CallOk (attemptBound keys maxAttempts) (({ m with pool := p }.set n c).calls i) := by
    intro p n c hc
    by_cases hi : i = n
    · rw [hi, set_self]
      exact hc
    · rw [set_other _ _ hi]
      exact hok i
  cases h with
  | same => exact hok i
  | ticked => exact hok i
  | started => exact hset (callOk_start _ _ _)
  | ended => exact hset (callOk_end (hok _) _)
  | @acquired n _ k _ hstage hk =>
      have hready := (hok n).stage
      rw [StageOk, hstage] at hready
      exact hset ⟨(hok n).nodup, (hok n).count, (hok n).limit, hready.1, hready.2.1, hready.2.2,
        (acquire_ok hk).2.untried⟩
  | refused => exact hset (callOk_end (hok _) _)
  | @connected n _ k _ hstage =>
      have hacquired := (hok n).stage
      rw [StageOk, hstage] at hacquired
      exact hset ⟨(hok n).nodup, (hok n).count, (hok n).limit, hacquired⟩
  | sent hstage => exact hset (callOk_sent (hok _) hstage)
  | failed hstage _ => exact hset (callOk_failed (hok _) hstage _)

/-! ## The history of a key -/

/-- A request with `k` failed, and the pool was told with `penalty`. -/
def Punishes (penalty : Penalty) (k : PyStr) (e : Event (poolStep keys maxAttempts expiry)) : Prop :=
  ∃ n outcome failure, e.input = .settle n outcome ∧ (e.before.calls n).stage = .waiting k ∧
    judge (e.before.calls n).mode outcome = .retry penalty failure

/-- The step deactivates `k`. -/
def Deactivates (k : PyStr) (e : Event (poolStep keys maxAttempts expiry)) : Prop :=
  Punishes .deactivate k e

/-- The step starts a cooldown of `k`. -/
def Cools (k : PyStr) (e : Event (poolStep keys maxAttempts expiry)) : Prop := Punishes .cooldown k e

/-- The call `n` acquires `k`. -/
def Acquires (n : Nat) (k : PyStr) (e : Event (poolStep keys maxAttempts expiry)) : Prop :=
  ∃ budget, e.input = .acquire n budget ∧ (e.before.calls n).stage = .ready ∧
    (e.after.calls n).stage = .acquired k

/-- The call `n` sends a request with `k`. -/
def Sends (n : Nat) (k : PyStr) (e : Event (poolStep keys maxAttempts expiry)) : Prop :=
  e.input = .send n ∧ (e.before.calls n).stage = .connected k

/-- `n` acquired `k` at some step of `pre`, before which `k` was not deactivated, and when every
earlier cooldown of `k` had expired. -/
def WellAcquired (n : Nat) (k : PyStr) (pre : List (Event (poolStep keys maxAttempts expiry))) : Prop :=
  ∃ pre₁ a pre₂, pre = pre₁ ++ a :: pre₂ ∧ Acquires n k a ∧ (∀ d ∈ pre₁, ¬ Deactivates k d) ∧
    ∀ c ∈ pre₁, Cools k c → expiry c.before.clock ≤ a.before.clock

theorem punished {penalty : Penalty} {k : PyStr} {e : Event (poolStep keys maxAttempts expiry)}
    (h : Punishes penalty k e) :
    e.after.pool = e.before.pool.punish (expiry e.before.clock) k penalty ∧
      e.after.clock = e.before.clock := by
  obtain ⟨n, outcome, failure, hin, hstage, hjudge⟩ := h
  have hafter : e.after = (poolStep keys maxAttempts expiry e.input e.before).2 := by rw [e.executed]
  rw [hin] at hafter
  simp only [poolStep, hstage, hjudge] at hafter
  rw [hafter]
  exact ⟨rfl, rfl⟩

/-- A call gets a key by acquiring it, and then it is eligible. -/
theorem moved_held {x : PoolMove τ} {m m' : Manager τ} (h : Moved keys maxAttempts expiry x m m')
    {n : Nat} {k : PyStr}
    (hheld : (m'.calls n).stage = .acquired k ∨ (m'.calls n).stage = .connected k) :
    ((m.calls n).stage = .acquired k ∨ (m.calls n).stage = .connected k) ∨
      (∃ budget, x = .acquire n budget) ∧ (m.calls n).stage = .ready ∧
        (m'.calls n).stage = .acquired k ∧ Eligible m.pool (m.calls n).tried m.clock k := by
  have hset : ∀ {p : Pool τ} {i : Nat} {c : Call},
      (({ m with pool := p }.set i c).calls n).stage = .acquired k ∨
        (({ m with pool := p }.set i c).calls n).stage = .connected k →
      ((m.calls n).stage = .acquired k ∨ (m.calls n).stage = .connected k) ∨
        n = i ∧ (c.stage = .acquired k ∨ c.stage = .connected k) := by
    intro p i c hc
    by_cases hn : n = i
    · rw [hn, set_self] at hc
      exact .inr ⟨hn, hc⟩
    · rw [set_other _ _ hn] at hc
      exact .inl hc
  cases h with
  | same => exact .inl hheld
  | ticked => exact .inl hheld
  | @started i mode valid =>
      rcases hset hheld with hold | ⟨-, hnew⟩
      · exact .inl hold
      · cases valid <;> rcases hnew with hnew | hnew <;> cases hnew
  | ended =>
      rcases hset hheld with hold | ⟨-, hnew⟩
      · exact .inl hold
      · rcases hnew with hnew | hnew <;> cases hnew
  | @acquired i budget key _ hstage hk =>
      rcases hset hheld with hold | ⟨rfl, hnew⟩
      · exact .inl hold
      · rcases hnew with hnew | hnew
        · obtain rfl : key = k := by
            injection hnew
          refine .inr ⟨⟨budget, rfl⟩, hstage, ?_, (acquire_ok hk).2⟩
          rw [set_self]
        · cases hnew
  | refused =>
      rcases hset hheld with hold | ⟨-, hnew⟩
      · exact .inl hold
      · rcases hnew with hnew | hnew <;> cases hnew
  | @connected i _ key _ hstage =>
      rcases hset hheld with hold | ⟨rfl, hnew⟩
      · exact .inl hold
      · rcases hnew with hnew | hnew
        · cases hnew
        · obtain rfl : key = k := by
            injection hnew
          exact .inl (.inl hstage)
  | sent =>
      rcases hset hheld with hold | ⟨-, hnew⟩
      · exact .inl hold
      · rcases hnew with hnew | hnew <;> cases hnew
  | @failed i _ key _ failure _ _ _ =>
      rcases hset hheld with hold | ⟨-, hnew⟩
      · exact .inl hold
      · unfold Call.failed at hnew
        dsimp only at hnew
        split at hnew <;> rcases hnew with hnew | hnew <;> cases hnew

theorem acquires_eligible {n : Nat} {k : PyStr} {e : Event (poolStep keys maxAttempts expiry)}
    (h : Acquires n k e) :
    Eligible e.before.pool (e.before.calls n).tried e.before.clock k := by
  obtain ⟨budget, hin, hready, hstage⟩ := h
  rcases moved_held (moved_of_event e) (.inl hstage) with hold | ⟨-, -, -, heligible⟩
  · rw [hready] at hold
    rcases hold with hold | hold <;> cases hold
  · exact heligible

/-- What the pool remembers of the steps so far. -/
structure PoolHistory (pre : List (Event (poolStep keys maxAttempts expiry))) (m : Manager τ) :
    Prop where
  deactivated : ∀ k, ∀ d ∈ pre, Deactivates k d → k ∈ m.pool.deactivated
  /-- A cooldown has expired, or one that ends no sooner is in force. -/
  cooled : ∀ k, ∀ c ∈ pre, Cools k c → c.before.clock ≤ m.clock ∧
    (expiry c.before.clock ≤ m.clock ∨
      ∃ v, m.pool.cooldowns k = some v ∧ expiry c.before.clock ≤ v)
  held : ∀ n k, (m.calls n).stage = .acquired k ∨ (m.calls n).stage = .connected k →
    WellAcquired n k pre

theorem clock_mono {x : PoolMove τ} {m m' : Manager τ} (h : Moved keys maxAttempts expiry x m m') :
    m.clock ≤ m'.clock := by
  cases h with
  | ticked t => exact le_max_left _ _
  | _ => exact le_rfl

theorem deactivated_kept {x : PoolMove τ} {m m' : Manager τ}
    (h : Moved keys maxAttempts expiry x m m') {k : PyStr} (hk : k ∈ m.pool.deactivated) :
    k ∈ m'.pool.deactivated := by
  cases h with
  | acquired =>
      show k ∈ (Pool.acquire _ _ _ _).2.deactivated
      rw [(acquire_pool _ _ _ _).1]
      exact hk
  | refused =>
      show k ∈ (Pool.acquire _ _ _ _).2.deactivated
      rw [(acquire_pool _ _ _ _).1]
      exact hk
  | @failed _ _ _ penalty _ _ _ _ =>
      cases penalty with
      | deactivate => exact List.mem_cons_of_mem _ hk
      | _ => exact hk
  | _ => exact hk

/-- A cooldown in force stays in force until the clock has reached its end, unless a later one takes
its place. -/
theorem cooldown_kept (hexpiry : Monotone expiry) {x : PoolMove τ} {m m' : Manager τ}
    (h : Moved keys maxAttempts expiry x m m') {k : PyStr} {t v : τ} (ht : t ≤ m.clock)
    (hv : m.pool.cooldowns k = some v) (hle : expiry t ≤ v) :
    expiry t ≤ m'.clock ∨ ∃ v', m'.pool.cooldowns k = some v' ∧ expiry t ≤ v' := by
  have hexpire : expiry t ≤ m.clock ∨ ∃ v', (m.pool.expire m.clock).cooldowns k = some v' ∧
      expiry t ≤ v' := by
    by_cases hdone : v ≤ m.clock
    · exact .inl (hle.trans hdone)
    · refine .inr ⟨v, ?_, hle⟩
      simp [Pool.expire, hv, Option.filter, hdone]
  cases h with
  | acquired =>
      rw [← (acquire_pool _ _ _ _).2] at hexpire
      exact hexpire
  | refused =>
      rw [← (acquire_pool _ _ _ _).2] at hexpire
      exact hexpire
  | @failed _ _ key penalty _ _ _ _ =>
      right
      cases penalty with
      | cooldown =>
          by_cases hkey : k = key
          · exact ⟨expiry m.clock, by simp [Manager.set, Pool.punish, hkey], hexpiry ht⟩
          · exact ⟨v, by simp [Manager.set, Pool.punish, hkey, hv], hle⟩
      | _ => exact ⟨v, hv, hle⟩
  | _ => exact .inr ⟨v, hv, hle⟩

theorem poolHistory_fresh (clock : τ) :
    PoolHistory ([] : List (Event (poolStep keys maxAttempts expiry))) (.fresh clock) where
  deactivated _ _ h := absurd h List.not_mem_nil
  cooled _ _ h := absurd h List.not_mem_nil
  held n k h := by rcases h with h | h <;> cases h

theorem wellAcquired_snoc {n : Nat} {k : PyStr}
    {pre : List (Event (poolStep keys maxAttempts expiry))} (h : WellAcquired n k pre)
    (e : Event (poolStep keys maxAttempts expiry)) : WellAcquired n k (pre ++ [e]) := by
  obtain ⟨pre₁, a, pre₂, rfl, hrest⟩ := h
  exact ⟨pre₁, a, pre₂ ++ [e], by simp, hrest⟩

/-- **Every step carries the history on.** -/
theorem poolHistory_step (hexpiry : Monotone expiry)
    {pre : List (Event (poolStep keys maxAttempts expiry))}
    {e : Event (poolStep keys maxAttempts expiry)} (h : PoolHistory pre e.before) :
    PoolHistory (pre ++ [e]) e.after := by
  have hm := moved_of_event e
  refine ⟨?_, ?_, ?_⟩
  · intro k d hd hdeactivates
    rcases List.mem_append.mp hd with hd | hd
    · exact deactivated_kept hm (h.deactivated k d hd hdeactivates)
    · obtain rfl := List.mem_singleton.mp hd
      rw [(punished hdeactivates).1]
      exact List.mem_cons_self
  · intro k c hc hcools
    rcases List.mem_append.mp hc with hc | hc
    · obtain ⟨hbefore, hin⟩ := h.cooled k c hc hcools
      refine ⟨hbefore.trans (clock_mono hm), ?_⟩
      rcases hin with hdone | ⟨v, hv, hle⟩
      · exact .inl (hdone.trans (clock_mono hm))
      · exact cooldown_kept hexpiry hm hbefore hv hle
    · obtain rfl := List.mem_singleton.mp hc
      refine ⟨clock_mono hm, .inr ⟨expiry c.before.clock, ?_, le_rfl⟩⟩
      rw [(punished hcools).1]
      simp [Pool.punish]
  · intro n k hheld
    rcases moved_held hm hheld with hold | ⟨⟨budget, hin⟩, hready, hstage, heligible⟩
    · exact wellAcquired_snoc (h.held n k hold) e
    · refine ⟨pre, e, [], rfl, ⟨budget, hin, hready, hstage⟩, ?_, ?_⟩
      · intro d hd hdeactivates
        exact heligible.active (h.deactivated k d hd hdeactivates)
      · intro c hc hcools
        rcases (h.cooled k c hc hcools).2 with hdone | ⟨v, hv, hle⟩
        · exact hdone
        · exact hle.trans (heligible.cooled v hv)

/-! ## Whole runs -/

/-- **The discipline of the key pool.** In every interleaving of calls on a fresh manager, whatever
the requests come to:

* a call sends at most `max(1, min(max_attempts, number of keys))` requests, and never two with the
  same key;
* every request is sent with a key that the call acquired at a moment before which the key was not
  deactivated and when all its cooldowns had expired;
* a deactivated key is never acquired again;
* `_acquire_next_key` raises exactly when no key is eligible, and its generic branch is unreachable. -/
theorem key_pool_discipline (hexpiry : Monotone expiry) {clock : τ} {m : Manager τ}
    {es : List (Event (poolStep keys maxAttempts expiry))} (hrun : Run (.fresh clock) es m) :
    (∀ e ∈ es, ∀ n, (e.after.calls n).requests.Nodup ∧
      (e.after.calls n).requests.length ≤ attemptBound keys maxAttempts) ∧
    (∀ pre e post, es = pre ++ e :: post → ∀ n k, Sends n k e → WellAcquired n k pre) ∧
    (∀ pre d mid a post, es = pre ++ d :: (mid ++ a :: post) → ∀ k, Deactivates k d →
      ∀ n, ¬ Acquires n k a) ∧
    (∀ (p : Pool τ) tried now,
      ((∃ x, (p.acquire keys tried now).1 = .error x) ↔ ∀ k ∈ keys, ¬ Eligible p tried now k) ∧
        (p.acquire keys tried now).1 ≠ .error .fallback) := by
  have hfresh : ∀ n, CallOk (attemptBound keys maxAttempts)
      ((Manager.fresh clock : Manager τ).calls n) := fun _ =>
    ⟨List.nodup_nil, Nat.zero_le _, Nat.zero_le _, trivial⟩
  obtain ⟨-, hcalls⟩ := hrun.invariant
    (P := fun m => ∀ n, CallOk (attemptBound keys maxAttempts) (m.calls n)) hfresh
    fun e _ h => callOk_moved (moved_of_event e) h
  obtain ⟨-, hhistory⟩ := hrun.history (P := PoolHistory) (poolHistory_fresh clock)
    fun _ _ _ _ h => poolHistory_step hexpiry h
  refine ⟨?_, ?_, ?_, fun p tried now => acquire_error_iff⟩
  · intro e he n
    have hok := (hcalls e he).2 n
    exact ⟨hok.nodup, hok.count⟩
  · intro pre e post hes n k hsends
    exact (hhistory pre e post hes).held n k (.inr hsends.2)
  · intro pre d mid a post hes k hdeactivates n hacquires
    have hsplit : es = (pre ++ d :: mid) ++ a :: post := by
      rw [hes, List.append_assoc]
      rfl
    have hgone := (hhistory _ a post hsplit).deactivated k d (by simp) hdeactivates
    exact (acquires_eligible hacquires).active hgone

end

/-! ## A key that is deactivated between acquisition and request -/

/-- Two calls hold the only key. The first is told that it is not valid, then the second sends. -/
def sharedKeyMoves : List (PoolMove Int) :=
  [.start 0 .sync true, .start 1 .sync true, .acquire 0 true, .acquire 1 true, .connect 0 true,
    .connect 1 true, .send 0, .settle 0 .authenticationError, .send 1]

def sampleKeys : List PyStr := [py "k1"]

/-- Ten seconds. -/
def sampleExpiry (t : Int) : Int := t + 10

/-- **A deactivated key is used again.** -/
theorem deactivated_key_used :
    ∃ (es : List (Event (poolStep sampleKeys 2 sampleExpiry))) (m : Manager Int),
      Run (.fresh 0) es m ∧ ∃ pre d mid e post, es = pre ++ d :: (mid ++ e :: post) ∧
        Deactivates (py "k1") d ∧ Sends 1 (py "k1") e := by
  obtain ⟨m, hrun⟩ := @Run.ofInputs _ _ _ (poolStep sampleKeys 2 sampleExpiry) sharedKeyMoves
    (Manager.fresh 0)
  refine ⟨_, m, hrun, (trace (poolStep sampleKeys 2 sampleExpiry) sharedKeyMoves
    (Manager.fresh 0)).take 7, _, [], _, [], rfl, ⟨0, .authenticationError, .authFailed, rfl, ?_, ?_⟩,
    rfl, ?_⟩
  · decide +kernel
  · decide +kernel
  · decide +kernel

theorem key_pool_discipline_shared :
    Monotone sampleExpiry ∧
      ∀ e ∈ trace (poolStep sampleKeys 2 sampleExpiry) sharedKeyMoves (Manager.fresh 0), ∀ n,
        (e.after.calls n).requests.Nodup ∧
          (e.after.calls n).requests.length ≤ attemptBound sampleKeys 2 := by
  have hexpiry : Monotone sampleExpiry := fun a b hab => by
    show a + 10 ≤ b + 10
    omega
  obtain ⟨m, hrun⟩ := @Run.ofInputs _ _ _ (poolStep sampleKeys 2 sampleExpiry) sharedKeyMoves
    (Manager.fresh 0)
  exact ⟨hexpiry, (key_pool_discipline hexpiry hrun).1⟩

end Katherine.Provider
