import Katherine.Lib.Runs
import Mathlib.Data.List.Basic

/-!
# Readiness probes

`DatabaseCheck` and `AuthClientCheck` of `backend/health.py`: polls of `/ready` that come at any
time, each behind two timeouts and a client that may hang up, probes that end when they like, and
`close` and `aclose`, in any order that asyncio allows.

A poll that has started a probe waits for that task. Being cancelled while the task is pending
cancels the task, and the poll goes on when the task is done; being cancelled when only the
wake-up is still to come is remembered and thrown there. So `wait_for` never leaves a task
behind, and the last lines of `run`, which would cancel it, find it done.
-/

namespace Katherine.Cloud.Readiness

open Runs

/-! ## One check -/

/-- How a task ends. -/
inductive Ending
  | returned
  | raised
  | cancelled
deriving DecidableEq

/-- The task of a probe. -/
inductive Probe
  | running (cancelRequested : Bool)
  | done (ending : Ending)
deriving DecidableEq

def Probe.isRunning : Probe → Bool
  | .running _ => true
  | .done _ => false

/-- `task.cancel()`, which a task that is done ignores. -/
def Probe.cancel : Probe → Probe
  | .running _ => .running true
  | .done ending => .done ending

inductive PollResult
  | ok
  | checkFailure
  | cancelledError
deriving DecidableEq

/-- A call of `run`: the task that it waits for, or has waited for, and what it came to. -/
structure Poll where
  task : Option Nat
  /-- The timer of `wait_for` has gone off. -/
  timedOut : Bool
  /-- Cancelled from outside: the request, or the timer of the registry. -/
  cancelled : Bool
  /-- `_must_cancel` of the awaiting task. -/
  mustCancel : Bool
  result : Option PollResult
deriving DecidableEq

/-- What is thrown or returned where the poll waits, through `wait_for` and the `except` clauses.
Only a cancellation by the timer, and by nothing else, is a `TimeoutError`. -/
def Poll.outcome (p : Poll) (ending : Ending) : PollResult :=
  match (if p.mustCancel then .cancelled else ending) with
  | .returned => .ok
  | .raised => .checkFailure
  | .cancelled => if p.timedOut && !p.cancelled then .checkFailure else .cancelledError

/-- A call of `aclose`. -/
inductive Closer
  | waiting (task : Nat)
  | returned
deriving DecidableEq

/-- A check, and all that has been called on it. -/
structure Check where
  /-- There is a probe to run. -/
  hasProbe : Bool
  closed : Bool
  inflight : Option Nat
  tasks : List Probe
  polls : List Poll
  closers : List Closer
deriving DecidableEq

/-- `__init__`. -/
def Check.create (hasProbe : Bool) : Check := ⟨hasProbe, false, none, [], [], []⟩

namespace Check

/-- `task is not None and not task.done()`. -/
def busy (c : Check) : Bool := c.inflight.any fun t => c.tasks[t]?.any Probe.isRunning

def addPoll (c : Check) (p : Poll) : Check := { c with polls := c.polls ++ [p] }

/-- A poll that fails before it has a task. -/
def refuse (c : Check) : Check := c.addPoll ⟨none, false, false, false, some .checkFailure⟩

def setPoll (c : Check) (i : Nat) (p : Poll) : Check := { c with polls := c.polls.set i p }

def cancelTask (c : Check) (t : Nat) : Check := { c with tasks := c.tasks.modify t Probe.cancel }

/-- `DatabaseCheck.run`, up to its `wait_for`. -/
def run (c : Check) : Check :=
  if !c.hasProbe || c.closed then c.refuse
  else if c.busy then c.refuse
  else
    let t := c.tasks.length
    { c.addPoll ⟨some t, false, false, false, none⟩ with
      tasks := c.tasks ++ [.running false]
      inflight := some t }

/-- What `AuthClientCheck` finds of `auth_client.auth.get_user`. -/
inductive AuthSurface
  | noClient
  /-- An attribute that raises when it is read. -/
  | raises
  | getUser (callable : Bool)

/-- `AuthClientCheck.run`, up to its `wait_for`. -/
def runAuth (surface : AuthSurface) (c : Check) : Check :=
  match surface with
  | .noClient => c.refuse
  | .raises => c.refuse
  | .getUser callable => if callable then c.run else c.refuse

/-- A cancellation reaches the poll that waits for `t`. -/
def interrupt (c : Check) (i : Nat) (p : Poll) (t : Nat) : Check :=
  if c.tasks[t]?.any Probe.isRunning then (c.setPoll i p).cancelTask t
  else c.setPoll i { p with mustCancel := true }

/-- The poll goes on. -/
def resume (c : Check) (i : Nat) (p : Poll) (t : Nat) (ending : Ending) : Check :=
  { c.setPoll i { p with result := some (p.outcome ending) } with
    inflight := if c.inflight = some t then none else c.inflight }

def close (c : Check) : Check := { c with closed := true }

/-- `aclose`, up to its `await`. -/
def aclose (c : Check) : Check :=
  let c' := { c with closed := true, inflight := none }
  match c.inflight with
  | some t =>
      if c.tasks[t]?.any Probe.isRunning then
        { c'.cancelTask t with closers := c.closers ++ [.waiting t] }
      else { c' with closers := c.closers ++ [.returned] }
  | none => { c' with closers := c.closers ++ [.returned] }

/-! ## What can happen -/

inductive Move
  /-- A poll of a database check. -/
  | run
  /-- A poll of an auth check. -/
  | runAuth (surface : AuthSurface)
  /-- A probe ends. -/
  | settle (t : Nat) (ending : Ending)
  /-- The timer of the poll goes off. -/
  | timeout (i : Nat)
  | cancel (i : Nat)
  | resume (i : Nat)
  | close
  | aclose
  /-- A call of `aclose` goes on. -/
  | closed (j : Nat)

/-- The poll that waits, and its task. -/
def waiting (c : Check) (i : Nat) : Option (Poll × Nat) := do
  let p ← c.polls[i]?
  let t ← p.task
  if p.result = none then some (p, t) else none

def step (move : Move) (c : Check) : Unit × Check :=
  ((), match move with
    | .run => c.run
    | .runAuth surface => c.runAuth surface
    | .settle t ending =>
        if c.tasks[t]?.any Probe.isRunning then { c with tasks := c.tasks.set t (.done ending) } else c
    | .timeout i =>
        match c.waiting i with
        | some (p, t) => if p.timedOut then c else c.interrupt i { p with timedOut := true } t
        | none => c
    | .cancel i =>
        match c.waiting i with
        | some (p, t) => c.interrupt i { p with cancelled := true } t
        | none => c
    | .resume i =>
        match c.waiting i with
        | some (p, t) =>
            match c.tasks[t]? with
            | some (.done ending) => c.resume i p t ending
            | _ => c
        | none => c
    | .close => c.close
    | .aclose => c.aclose
    | .closed j =>
        match c.closers[j]? with
        | some (.waiting t) =>
            if c.tasks[t]?.any Probe.isRunning then c else { c with closers := c.closers.set j .returned }
        | _ => c)

end Check

/-! ## What holds between the steps -/

/-- The task `t` is running. -/
def Check.Runs (c : Check) (t : Nat) : Prop := ∃ told, c.tasks[t]? = some (.running told)

theorem Check.any_isRunning {c : Check} {t : Nat} : (c.tasks[t]?.any Probe.isRunning) = true ↔ c.Runs t := by
  rw [Option.any_eq_true]
  constructor
  · rintro ⟨probe, hprobe, hrunning⟩
    cases probe with
    | running told => exact ⟨told, hprobe⟩
    | done ending => cases hrunning
  · rintro ⟨told, hprobe⟩
    exact ⟨_, hprobe, rfl⟩

/-- What every step keeps: who knows of a task that is running, and whose it is. -/
structure Sound (c : Check) : Prop where
  /-- A task that runs is in flight, or the first `aclose` waits for it. -/
  tracked : ∀ t, c.Runs t → c.inflight = some t ∨ c.closers[0]? = some (.waiting t)
  shut : c.closers ≠ [] → c.closed = true ∧ c.inflight = none
  /-- Only the first call of `aclose` finds a task, and that task has been told to stop. -/
  first : ∀ (j t : Nat), c.closers[j]? = some (.waiting t) → j = 0 ∧ c.tasks[t]? ≠ some (.running false)
  owner : ∀ (i j : Nat) (p q : Poll) (t : Nat), c.polls[i]? = some p → c.polls[j]? = some q →
    p.task = some t → q.task = some t → i = j
  below : ∀ p ∈ c.polls, ∀ t, p.task = some t → t < c.tasks.length
  /-- A poll that is over has left no task behind, and says `ok` for its own probe only. -/
  reported : ∀ p ∈ c.polls, ∀ r, p.result = some r →
    (∀ t, p.task = some t → ∃ ending, c.tasks[t]? = some (.done ending)) ∧
      (r = .ok → ∃ t, p.task = some t ∧ c.tasks[t]? = some (.done .returned))

variable {c : Check} {t i : Nat} {p : Poll}

theorem Check.waiting_eq_some (h : c.waiting i = some (p, t)) :
    c.polls[i]? = some p ∧ p.task = some t ∧ p.result = none := by
  unfold Check.waiting at h
  cases hp : c.polls[i]? with
  | none => rw [hp] at h; cases h
  | some q =>
      rw [hp] at h
      cases ht : q.task with
      | none => simp [ht] at h
      | some u =>
          simp only [ht, Option.bind_eq_bind, Option.bind_some, Option.ite_none_right_eq_some, Option.some.injEq,
            Prod.mk.injEq] at h
          obtain ⟨hres, rfl, rfl⟩ := h
          exact ⟨rfl, ht, hres⟩

theorem sound_create (hasProbe : Bool) : Sound (.create hasProbe) := by
  refine ⟨fun t ⟨told, ht⟩ => ?_, fun h => absurd rfl h, fun _ _ h => ?_, fun _ _ _ _ _ h => ?_,
    fun _ h => ?_, fun _ h => ?_⟩
  all_goals cases ‹_›

/-- A task that has ended stays as it is. -/
def Kept (tasks tasks' : List Probe) : Prop :=
  tasks.length ≤ tasks'.length ∧
    ∀ (t : Nat) (ending : Ending), tasks[t]? = some (.done ending) → tasks'[t]? = some (.done ending)

theorem Sound.reported_of_kept (h : Sound c) {tasks' : List Probe} (hkept : Kept c.tasks tasks') (hp : p ∈ c.polls)
    {r : PollResult} (hr : p.result = some r) :
    (∀ t, p.task = some t → ∃ ending, tasks'[t]? = some (.done ending)) ∧
      (r = .ok → ∃ t, p.task = some t ∧ tasks'[t]? = some (.done .returned)) := by
  obtain ⟨hdone, hok⟩ := h.reported p hp r hr
  refine ⟨fun t ht => ?_, fun hr' => ?_⟩
  · obtain ⟨ending, hending⟩ := hdone t ht
    exact ⟨ending, hkept.2 t ending hending⟩
  · obtain ⟨t, ht, hreturned⟩ := hok hr'
    exact ⟨t, ht, hkept.2 t _ hreturned⟩

/-- A poll notes something, or ends. -/
theorem Sound.setPoll (h : Sound c) (hp : c.polls[i]? = some p) {p' : Poll} (htask : p'.task = p.task)
    (hres : ∀ r, p'.result = some r →
      (∀ t, p'.task = some t → ∃ ending, c.tasks[t]? = some (.done ending)) ∧
        (r = .ok → ∃ t, p'.task = some t ∧ c.tasks[t]? = some (.done .returned))) :
    Sound (c.setPoll i p') := by
  obtain ⟨hlt, -⟩ := List.getElem?_eq_some_iff.mp hp
  -- the polls have the tasks they had
  have hold : ∀ (j : Nat) (q : Poll), (c.polls.set i p')[j]? = some q →
      ∃ q', c.polls[j]? = some q' ∧ q.task = q'.task := by
    intro j q hq
    by_cases hij : i = j
    · subst hij
      rw [List.getElem?_set_self hlt] at hq
      cases hq
      exact ⟨p, hp, htask⟩
    · rw [List.getElem?_set_ne hij] at hq
      exact ⟨q, hq, rfl⟩
  refine ⟨h.tracked, h.shut, h.first, fun j k q r t hq hr htq htr => ?_, fun q hq t ht => ?_,
    fun q hq r hr => ?_⟩
  · obtain ⟨q', hq', hsame⟩ := hold j q hq
    obtain ⟨r', hr', hsame'⟩ := hold k r hr
    exact h.owner j k q' r' t hq' hr' (hsame ▸ htq) (hsame' ▸ htr)
  · obtain ⟨j, hj⟩ := List.mem_iff_getElem?.mp hq
    obtain ⟨q', hq', hsame⟩ := hold j q hj
    exact h.below q' (List.mem_of_getElem? hq') t (hsame ▸ ht)
  · obtain hq | rfl := List.mem_or_eq_of_mem_set hq
    · exact h.reported q hq r hr
    · exact hres r hr

/-- A poll whose task, if it has one, is new. -/
theorem owner_append (h : Sound c) {p : Poll} (hnew : ∀ t, p.task = some t → c.tasks.length ≤ t) (j k : Nat)
    (q r : Poll) (t : Nat) (hq : (c.polls ++ [p])[j]? = some q) (hr : (c.polls ++ [p])[k]? = some r)
    (htq : q.task = some t) (htr : r.task = some t) : j = k := by
  have hcases : ∀ (j : Nat) (q : Poll), (c.polls ++ [p])[j]? = some q → q.task = some t →
      (c.polls[j]? = some q ∧ t < c.tasks.length) ∨ (j = c.polls.length ∧ c.tasks.length ≤ t) := by
    intro j q hq ht
    by_cases hlt : j < c.polls.length
    · rw [List.getElem?_append_left hlt] at hq
      exact .inl ⟨hq, h.below q (List.mem_of_getElem? hq) t ht⟩
    · rw [List.getElem?_append_right (by omega), List.getElem?_singleton] at hq
      split at hq
      · cases hq
        exact .inr ⟨by omega, hnew t ht⟩
      · cases hq
  obtain ⟨hq', hlt⟩ | ⟨hj, hle⟩ := hcases j q hq htq
  · obtain ⟨hr', -⟩ | ⟨-, hle⟩ := hcases k r hr htr
    · exact h.owner j k q r t hq' hr' htq htr
    · omega
  · obtain ⟨-, hlt⟩ | ⟨hk, -⟩ := hcases k r hr htr
    · omega
    · omega

theorem Sound.refuse (h : Sound c) : Sound c.refuse := by
  have hnew : ∀ t, (none : Option Nat) = some t → c.tasks.length ≤ t := fun _ ht => by cases ht
  refine ⟨h.tracked, h.shut, h.first, owner_append h hnew, fun q hq t ht => ?_, fun q hq r hr => ?_⟩
  · obtain hq | hq := List.mem_append.mp hq
    · exact h.below q hq t ht
    · cases List.mem_singleton.mp hq
      cases ht
  · obtain hq | hq := List.mem_append.mp hq
    · exact h.reported q hq r hr
    · cases List.mem_singleton.mp hq
      cases hr
      exact ⟨fun t ht => (nomatch ht), fun hok => (nomatch hok)⟩

/-! ### Tasks -/

theorem getElem?_cancelTask (c : Check) (t u : Nat) :
    (c.cancelTask t).tasks[u]? = c.tasks[u]?.map fun probe => if t = u then probe.cancel else probe := by
  rw [Check.cancelTask, List.getElem?_modify]
  rfl

/-- Being told to stop ends nothing. -/
theorem runs_cancelTask {u : Nat} : (c.cancelTask t).Runs u ↔ c.Runs u := by
  unfold Check.Runs
  rw [getElem?_cancelTask]
  cases c.tasks[u]? with
  | none => simp
  | some probe =>
      by_cases htu : t = u
      · cases probe <;> simp [htu, Probe.cancel]
      · simp [htu]

theorem kept_cancelTask (c : Check) (t : Nat) : Kept c.tasks (c.cancelTask t).tasks := by
  refine ⟨Nat.le_of_eq (List.length_modify ..).symm, fun u ending hu => ?_⟩
  rw [getElem?_cancelTask, hu, Option.map_some]
  by_cases htu : t = u
  · rw [if_pos htu]
    rfl
  · rw [if_neg htu]

theorem told_cancelTask (c : Check) (t : Nat) : (c.cancelTask t).tasks[t]? ≠ some (.running false) := by
  rw [getElem?_cancelTask]
  cases c.tasks[t]? with
  | none => simp
  | some probe => cases probe <;> simp [Probe.cancel]

theorem Sound.cancelTask (h : Sound c) (t : Nat) : Sound (c.cancelTask t) := by
  have hkept := kept_cancelTask c t
  refine ⟨fun u hu => h.tracked u (runs_cancelTask.mp hu), h.shut, fun j u hu => ?_, h.owner,
    fun q hq u hu => Nat.lt_of_lt_of_le (h.below q hq u hu) hkept.1, fun q hq r hr => h.reported_of_kept hkept hq hr⟩
  refine ⟨(h.first j u hu).1, fun htold => ?_⟩
  by_cases htu : t = u
  · subst htu
    exact told_cancelTask c t htold
  · rw [getElem?_cancelTask] at htold
    simp only [if_neg htu, Option.map_id_fun'] at htold
    exact (h.first j u hu).2 htold

theorem Sound.interrupt (h : Sound c) (hp : c.polls[i]? = some p) (hnone : p.result = none) {p' : Poll}
    (htask : p'.task = p.task) (hres : p'.result = p.result) (t : Nat) : Sound (c.interrupt i p' t) := by
  have hnot : ∀ r, p'.result = some r → False := fun r hr => by
    rw [hres, hnone] at hr
    cases hr
  unfold Check.interrupt
  split
  · exact (h.setPoll hp htask fun r hr => (hnot r hr).elim).cancelTask t
  · exact h.setPoll hp htask fun r hr => (hnot r hr).elim

theorem Sound.settle (h : Sound c) (ht : c.Runs t) (ending : Ending) :
    Sound { c with tasks := c.tasks.set t (.done ending) } := by
  obtain ⟨told, ht⟩ := ht
  obtain ⟨hlt, -⟩ := List.getElem?_eq_some_iff.mp ht
  have hsub : ∀ (u : Nat) (told : Bool), (c.tasks.set t (.done ending))[u]? = some (.running told) →
      c.tasks[u]? = some (.running told) := by
    intro u told hu
    by_cases htu : t = u
    · subst htu
      rw [List.getElem?_set_self hlt] at hu
      cases hu
    · rwa [List.getElem?_set_ne htu] at hu
  have hkept : Kept c.tasks (c.tasks.set t (.done ending)) := by
    refine ⟨Nat.le_of_eq List.length_set.symm, fun u e hu => ?_⟩
    by_cases htu : t = u
    · subst htu
      rw [ht] at hu
      cases hu
    · rwa [List.getElem?_set_ne htu]
  exact ⟨fun u ⟨told, hu⟩ => h.tracked u ⟨told, hsub u told hu⟩, h.shut,
    fun j u hu => ⟨(h.first j u hu).1, fun hu' => (h.first j u hu).2 (hsub u false hu')⟩, h.owner,
    fun q hq u hu => Nat.lt_of_lt_of_le (h.below q hq u hu) hkept.1, fun q hq r hr => h.reported_of_kept hkept hq hr⟩

/-- A new probe: nothing else runs, since no `aclose` has been called and the check is not busy. -/
theorem Sound.start (h : Sound c) (hclosed : c.closed = false) (hbusy : c.busy = false) :
    Sound { c.addPoll ⟨some c.tasks.length, false, false, false, none⟩ with
      tasks := c.tasks ++ [.running false]
      inflight := some c.tasks.length } := by
  have hopen : c.closers = [] := by
    by_contra hne
    rw [(h.shut hne).1] at hclosed
    cases hclosed
  have hidle : ∀ u, ¬ c.Runs u := by
    intro u hu
    obtain hin | hwait := h.tracked u hu
    · rw [Check.busy, hin, Option.any_some, Check.any_isRunning.mpr hu] at hbusy
      cases hbusy
    · rw [hopen] at hwait
      cases hwait
  have hkept : Kept c.tasks (c.tasks ++ [.running false]) := by
    refine ⟨by rw [List.length_append]; omega, fun u ending hu => ?_⟩
    rwa [List.getElem?_append_left (List.getElem?_eq_some_iff.mp hu).1]
  have hnew : ∀ t, some c.tasks.length = some t → c.tasks.length ≤ t := fun t ht => by
    cases ht
    exact Nat.le_refl _
  refine ⟨fun u ⟨told, hu⟩ => .inl ?_, fun hne => absurd hopen hne, fun j u hu => ?_, owner_append h hnew,
    fun q hq u hu => ?_, fun q hq r hr => ?_⟩
  · by_cases hlt : u < c.tasks.length
    · exact absurd ⟨told, by rwa [List.getElem?_append_left hlt] at hu⟩ (hidle u)
    · have hlen := (List.getElem?_eq_some_iff.mp hu).1
      rw [List.length_append, List.length_singleton] at hlen
      exact congrArg some (by omega)
  · change c.closers[j]? = some (.waiting u) at hu
    rw [hopen] at hu
    cases hu
  · obtain hq | hq := List.mem_append.mp hq
    · exact Nat.lt_of_lt_of_le (h.below q hq u hu) hkept.1
    · cases List.mem_singleton.mp hq
      cases hu
      rw [List.length_append, List.length_singleton]
      omega
  · obtain hq | hq := List.mem_append.mp hq
    · exact h.reported_of_kept hkept hq hr
    · cases List.mem_singleton.mp hq
      cases hr

theorem Sound.run (h : Sound c) : Sound c.run := by
  unfold Check.run
  split
  · exact h.refuse
  · split
    · exact h.refuse
    · rename_i hopen hbusy
      refine h.start ?_ (Bool.not_eq_true _ ▸ hbusy)
      cases hclosed : c.closed with
      | false => rfl
      | true => exact absurd (by rw [hclosed, Bool.or_true]) hopen

theorem Sound.runAuth (h : Sound c) (surface : Check.AuthSurface) : Sound (c.runAuth surface) := by
  cases surface with
  | noClient => exact h.refuse
  | raises => exact h.refuse
  | getUser callable =>
      unfold Check.runAuth
      cases callable
      · exact h.refuse
      · exact h.run

/-- A poll says `ok` only of a probe that returned. -/
theorem Poll.returned_of_ok {ending : Ending} (h : p.outcome ending = .ok) : ending = .returned := by
  have hthrown : (if p.timedOut && !p.cancelled then .checkFailure else .cancelledError) ≠ PollResult.ok := by
    split
    all_goals simp
  unfold Poll.outcome at h
  cases hmust : p.mustCancel with
  | true =>
      rw [hmust] at h
      exact absurd h hthrown
  | false =>
      rw [hmust] at h
      cases ending with
      | returned => rfl
      | raised => cases h
      | cancelled => exact absurd h hthrown

/-- A poll goes on: its task is done, so what was in flight, if it was that task, runs no longer. -/
theorem Sound.resume (h : Sound c) (hp : c.polls[i]? = some p) (htask : p.task = some t) {ending : Ending}
    (hdone : c.tasks[t]? = some (.done ending)) : Sound (c.resume i p t ending) := by
  have hset : Sound (c.setPoll i { p with result := some (p.outcome ending) }) := by
    refine h.setPoll hp rfl fun r hr => ⟨fun u hu => ?_, fun hok => ⟨t, htask, ?_⟩⟩
    · rw [show t = u from Option.some.inj (htask.symm.trans hu)] at hdone
      exact ⟨ending, hdone⟩
    · subst hok
      rw [hdone, Poll.returned_of_ok (Option.some.inj hr)]
  refine ⟨fun u hu => ?_, fun hne => ⟨(hset.shut hne).1, ?_⟩, hset.first, hset.owner, hset.below, hset.reported⟩
  · obtain hin | hwait := hset.tracked u hu
    · refine .inl ?_
      change c.inflight = some u at hin
      change (if c.inflight = some t then none else c.inflight) = some u
      rw [if_neg ?_]
      · exact hin
      · intro hin'
        obtain ⟨told, hu⟩ := hu
        cases hin.symm.trans hin'
        cases hdone.symm.trans hu
    · exact .inr hwait
  · change (if c.inflight = some t then none else c.inflight) = none
    split
    · rfl
    · exact (h.shut hne).2

/-! ### Closing -/

theorem Sound.close (h : Sound c) : Sound c.close :=
  ⟨h.tracked, fun hne => ⟨rfl, (h.shut hne).2⟩, h.first, h.owner, h.below, h.reported⟩

/-- A call of `aclose` that finds nothing to wait for. -/
theorem Sound.aclose_idle (h : Sound c) (hidle : ∀ t, c.inflight = some t → ¬ c.Runs t) :
    Sound { c with closed := true, inflight := none, closers := c.closers ++ [.returned] } := by
  refine ⟨fun u hu => .inr ?_, fun _ => ⟨rfl, rfl⟩, fun j u hu => ?_, h.owner, h.below, h.reported⟩
  · obtain hin | hwait := h.tracked u hu
    · exact absurd hu (hidle u hin)
    · rwa [List.getElem?_append_left (List.getElem?_eq_some_iff.mp hwait).1]
  · by_cases hlt : j < c.closers.length
    · rw [List.getElem?_append_left hlt] at hu
      exact h.first j u hu
    · rw [List.getElem?_append_right (by omega), List.getElem?_singleton] at hu
      split at hu
      all_goals cases hu

/-- A call of `aclose` that finds a task: no earlier call can have left one. -/
theorem Sound.aclose_busy (h : Sound c) (hin : c.inflight = some t) :
    Sound { ({ c with closed := true, inflight := none } : Check).cancelTask t with
      closers := c.closers ++ [.waiting t] } := by
  have hopen : c.closers = [] := by
    by_contra hne
    cases hin.symm.trans (h.shut hne).2
  have hkept := kept_cancelTask c t
  refine ⟨fun u hu => .inr ?_, fun _ => ⟨rfl, rfl⟩, fun j u hu => ?_, h.owner,
    fun q hq u hu => Nat.lt_of_lt_of_le (h.below q hq u hu) hkept.1, fun q hq r hr => h.reported_of_kept hkept hq hr⟩
  · change (c.closers ++ [.waiting t])[0]? = some (.waiting u)
    obtain hin' | hwait := h.tracked u (runs_cancelTask.mp hu)
    · cases hin.symm.trans hin'
      rw [hopen]
      rfl
    · rw [hopen] at hwait
      cases hwait
  · change (c.closers ++ [.waiting t])[j]? = some (.waiting u) at hu
    rw [hopen, List.nil_append, List.getElem?_singleton] at hu
    split at hu
    · cases hu
      exact ⟨‹j = 0›, told_cancelTask c t⟩
    · cases hu

theorem Sound.aclose (h : Sound c) : Sound c.aclose := by
  unfold Check.aclose
  cases hin : c.inflight with
  | none => exact h.aclose_idle fun t ht => by cases hin.symm.trans ht
  | some t =>
      dsimp only
      split
      · exact h.aclose_busy hin
      · rename_i hidle
        refine h.aclose_idle fun u hu hruns => hidle ?_
        cases hin.symm.trans hu
        exact Check.any_isRunning.mpr hruns

/-- The first `aclose` goes on, when its task is done. -/
theorem Sound.closed (h : Sound c) {j : Nat} (hj : c.closers[j]? = some (.waiting t)) (hdone : ¬ c.Runs t) :
    Sound { c with closers := c.closers.set j .returned } := by
  obtain ⟨hlt, -⟩ := List.getElem?_eq_some_iff.mp hj
  refine ⟨fun u hu => ?_, fun hne => h.shut fun hnil => hne ?_, fun k u hu => ?_, h.owner, h.below, h.reported⟩
  · obtain hin | hwait := h.tracked u hu
    · exact .inl hin
    · -- the task that ran is another one than the call waited for
      obtain ⟨rfl, -⟩ := h.first j t hj
      cases hj.symm.trans hwait
      exact absurd hu hdone
  · change c.closers.set j .returned = []
    rw [hnil]
    rfl
  · by_cases hjk : j = k
    · subst hjk
      rw [show (c.closers.set j .returned)[j]? = some .returned from List.getElem?_set_self hlt] at hu
      cases hu
    · refine h.first k u ?_
      rwa [show (c.closers.set j .returned)[k]? = c.closers[k]? from List.getElem?_set_ne hjk] at hu

/-! ## Every run -/

theorem sound_step (move : Check.Move) (h : Sound c) : Sound (Check.step move c).2 := by
  cases move with
  | run => exact h.run
  | runAuth surface => exact h.runAuth surface
  | settle t ending =>
      simp only [Check.step]
      split
      · exact h.settle (Check.any_isRunning.mp ‹_›) ending
      · exact h
  | timeout i =>
      simp only [Check.step]
      split
      · rename_i p t hwaiting
        obtain ⟨hp, -, hnone⟩ := Check.waiting_eq_some hwaiting
        split
        · exact h
        · refine h.interrupt hp hnone ?_ ?_ t
          all_goals rfl
      · exact h
  | cancel i =>
      simp only [Check.step]
      split
      · rename_i p t hwaiting
        obtain ⟨hp, -, hnone⟩ := Check.waiting_eq_some hwaiting
        refine h.interrupt hp hnone ?_ ?_ t
        all_goals rfl
      · exact h
  | resume i =>
      simp only [Check.step]
      split
      · rename_i p t hwaiting
        obtain ⟨hp, htask, -⟩ := Check.waiting_eq_some hwaiting
        split
        · exact h.resume hp htask ‹_›
        · exact h
      · exact h
  | close => exact h.close
  | aclose => exact h.aclose
  | closed j =>
      simp only [Check.step]
      split
      · split
        · exact h
        · rename_i hj hidle
          exact h.closed hj fun hruns => hidle (Check.any_isRunning.mpr hruns)
      · exact h

/-- A check that is closed stays so, and starts nothing. -/
theorem closed_step (move : Check.Move) (h : c.closed = true) :
    (Check.step move c).2.closed = true ∧ (Check.step move c).2.tasks.length = c.tasks.length := by
  have hrun : c.run = c.refuse := by
    rw [Check.run, h, Bool.or_true, if_pos rfl]
  have hinterrupt : ∀ (i : Nat) (p : Poll) (t : Nat),
      (c.interrupt i p t).closed = true ∧ (c.interrupt i p t).tasks.length = c.tasks.length := by
    intro i p t
    unfold Check.interrupt
    split
    · exact ⟨h, List.length_modify ..⟩
    · exact ⟨h, rfl⟩
  cases move with
  | run =>
      rw [show (Check.step .run c).2 = c.run from rfl, hrun]
      exact ⟨h, rfl⟩
  | runAuth surface =>
      rw [show (Check.step (.runAuth surface) c).2 = c.refuse by
        cases surface with
        | noClient => rfl
        | raises => rfl
        | getUser callable =>
            cases callable
            · rfl
            · exact hrun]
      exact ⟨h, rfl⟩
  | settle t ending =>
      simp only [Check.step]
      split
      · exact ⟨h, List.length_set ..⟩
      · exact ⟨h, rfl⟩
  | timeout i =>
      simp only [Check.step]
      split
      · split
        · exact ⟨h, rfl⟩
        · exact hinterrupt _ _ _
      · exact ⟨h, rfl⟩
  | cancel i =>
      simp only [Check.step]
      split
      · exact hinterrupt _ _ _
      · exact ⟨h, rfl⟩
  | resume i =>
      simp only [Check.step]
      split
      · split
        · exact ⟨h, rfl⟩
        · exact ⟨h, rfl⟩
      · exact ⟨h, rfl⟩
  | close => exact ⟨rfl, rfl⟩
  | aclose =>
      change c.aclose.closed = true ∧ c.aclose.tasks.length = c.tasks.length
      unfold Check.aclose
      split
      · split
        · exact ⟨rfl, List.length_modify ..⟩
        · exact ⟨rfl, rfl⟩
      · exact ⟨rfl, rfl⟩
  | closed j =>
      simp only [Check.step]
      split
      · split
        · exact ⟨h, rfl⟩
        · exact ⟨h, rfl⟩
      · exact ⟨h, rfl⟩

theorem Sound.runs_unique (h : Sound c) {t t' : Nat} (ht : c.Runs t) (ht' : c.Runs t') : t = t' := by
  have hexcl : ∀ u u', c.inflight = some u → c.closers[0]? = some (.waiting u') → False := by
    intro u u' hin hwait
    have hne : c.closers ≠ [] := fun hnil => by
      rw [hnil] at hwait
      cases hwait
    cases hin.symm.trans (h.shut hne).2
  obtain hin | hwait := h.tracked t ht
  · obtain hin' | hwait' := h.tracked t' ht'
    · exact Option.some.inj (hin.symm.trans hin')
    · exact (hexcl t t' hin hwait').elim
  · obtain hin' | hwait' := h.tracked t' ht'
    · exact (hexcl t' t hin' hwait).elim
    · cases hwait.symm.trans hwait'
      rfl

/-- A poll finds the check busy exactly when a probe is running. -/
theorem Sound.busy_iff (h : Sound c) (hopen : c.closers = []) : c.busy = true ↔ ∃ t, c.Runs t := by
  unfold Check.busy
  rw [Option.any_eq_true]
  constructor
  · rintro ⟨t, -, ht⟩
    exact ⟨t, Check.any_isRunning.mp ht⟩
  · rintro ⟨t, ht⟩
    obtain hin | hwait := h.tracked t ht
    · exact ⟨t, hin, Check.any_isRunning.mpr ht⟩
    · rw [hopen] at hwait
      cases hwait

/-- Of the probes of a check one at most is running, however the polls, their timers, the clients
that hang up and the calls of `close` and `aclose` fall; until `aclose` a poll is turned away as
busy only by a probe that runs, and once the first `aclose` is over none does. `aclose` has told the
probe that it waits for to stop. A poll that is over has left no probe behind and says `ok` only if
its own returned, which no other poll has waited for. After `close` nothing is started. -/
theorem single_flight {hasProbe : Bool} {es : List (Event Check.step)} (hrun : Run (.create hasProbe) es c) :
    (∀ t t', c.Runs t → c.Runs t' → t = t') ∧
    (c.closers = [] → (c.busy = true ↔ ∃ t, c.Runs t)) ∧
    (c.closers[0]? = some .returned → ∀ t, ¬ c.Runs t) ∧
    (∀ (j t : Nat), c.closers[j]? = some (.waiting t) → c.tasks[t]? ≠ some (.running false)) ∧
    (∀ p ∈ c.polls, ∀ r, p.result = some r →
      (∀ t, p.task = some t → ¬ c.Runs t) ∧
        (r = .ok → ∃ t, p.task = some t ∧ c.tasks[t]? = some (.done .returned))) ∧
    (∀ (i j : Nat) (p q : Poll) (t : Nat), c.polls[i]? = some p → c.polls[j]? = some q →
      p.task = some t → q.task = some t → i = j) ∧
    ∀ e ∈ es, e.before.closed = true → e.after.closed = true ∧ e.after.tasks.length = e.before.tasks.length := by
  have hsound : Sound c := by
    refine (hrun.invariant (sound_create hasProbe) fun e _ h => ?_).1
    have hafter : (Check.step e.input e.before).2 = e.after := congrArg Prod.snd e.executed
    exact hafter ▸ sound_step e.input h
  refine ⟨fun _ _ => hsound.runs_unique, hsound.busy_iff, fun hreturned t ht => ?_, fun j t hj => (hsound.first j t hj).2,
    fun p hp r hr => ⟨fun t ht ⟨told, htold⟩ => ?_, (hsound.reported p hp r hr).2⟩, hsound.owner,
    fun e _ hclosed => ?_⟩
  · have hne : c.closers ≠ [] := fun hnil => by
      rw [hnil] at hreturned
      cases hreturned
    obtain hin | hwait := hsound.tracked t ht
    · cases hin.symm.trans (hsound.shut hne).2
    · cases hreturned.symm.trans hwait
  · obtain ⟨ending, hending⟩ := (hsound.reported p hp r hr).1 t ht
    cases hending.symm.trans htold
  · have hafter : (Check.step e.input e.before).2 = e.after := congrArg Prod.snd e.executed
    exact hafter ▸ closed_step e.input hclosed

/-- A probe is cut off by its timer just when it answers, the next poll runs into `aclose`. -/
def sampleMoves : List Check.Move :=
  [.runAuth (.getUser true), .run, .timeout 0, .settle 0 .returned, .run, .resume 0, .cancel 2, .aclose, .aclose,
    .run, .settle 1 .cancelled, .resume 2, .closed 0]

def sampleCheck : Check := sampleMoves.foldl (fun c move => (Check.step move c).2) (Check.create true)

theorem single_flight_sample :
    sampleCheck.polls.map Poll.result = [some .ok, some .checkFailure, some .cancelledError, some .checkFailure] ∧
    ∀ t, ¬ sampleCheck.Runs t :=
  ⟨by decide, (single_flight (Run.ofTrace sampleMoves (Check.create true))).2.2.1 (by decide)⟩

end Katherine.Cloud.Readiness
