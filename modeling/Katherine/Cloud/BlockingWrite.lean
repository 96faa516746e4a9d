import Katherine.Cloud.ProcessTurn

/-!
# A write that is never abandoned

`run_blocking_write` of `backend/turn_execution.py`, one call of it on the event loop. The
worker is a task of its own, which hands the function to a thread; the coroutine waits for it
behind `asyncio.shield`, in a loop that swallows cancellations. The loop's callbacks, the
thread and the cancellations come in any order that asyncio allows.

A cancellation reaches the coroutine in one of two ways. If the future it waits for is
pending, that future is cancelled. If it is done already, and only the wake-up is still to
come, the task remembers the cancellation and throws it at the wake-up instead of the
future's result.
-/

namespace Katherine.Cloud.BlockingWrite

open Py Runs
open ProcessTurn (TurnBudget TurnErrorCode)

section

variable {α ε : Type}

/-- How the worker task ends. -/
inductive Outcome (α ε : Type)
  | value (a : α)
  | raised (exc : ε)
  /-- The function raised `CancelledError` itself. -/
  | cancelled
deriving DecidableEq

def Outcome.isCancelled : Outcome α ε → Bool
  | .cancelled => true
  | _ => false

inductive WorkerTask (α ε : Type)
  | created
  /-- `to_thread` has handed the function to the executor. -/
  | submitted
  /-- A thread runs the function. -/
  | running
  /-- The function is through, and the task is not. -/
  | returned (o : Outcome α ε)
  | done (o : Outcome α ε)
deriving DecidableEq

/-- How often the function was run, as the worker's own progress tells it. -/
def WorkerTask.runs : WorkerTask α ε → Nat
  | .created => 0
  | .submitted => 0
  | _ => 1

/-- How many steps the worker has to go. -/
def WorkerTask.left : WorkerTask α ε → Nat
  | .created => 4
  | .submitted => 3
  | .running => 2
  | .returned _ => 1
  | .done _ => 0

/-- How the call ends. -/
inductive WriteResult (α ε : Type)
  | value (a : α)
  /-- The worker's exception as it is. -/
  | raised (exc : ε)
  | turnExecution (code : TurnErrorCode) (message : PyStr)
  | cancelledError
deriving DecidableEq

/-- `DeadlineExceeded`. -/
def deadlineExceeded : WriteResult α ε := .turnExecution .turnTimeout (py "Turn deadline exceeded.")

/-- The call while it is suspended, or with its result. -/
structure Call (α ε : Type) where
  worker : WorkerTask α ε
  /-- How often the function was run. -/
  executions : Nat
  /-- The future of the last `asyncio.shield`: what is set on it, if anything is. -/
  shield : Option (Outcome α ε)
  /-- `_must_cancel` of the awaiting task. -/
  mustCancel : Bool
  originalCancel : Bool
  result : Option (WriteResult α ε)
deriving DecidableEq

end

/-! ## The coroutine -/

/-- What a call is made with: its stage, and what `isinstance` says of exceptions. -/
structure Site (ε : Type) where
  stageLabel : PyStr
  allowlisted : ε → Bool
  isTurnExecutionError : ε → Bool

section

variable {α ε : Type} (site : Site ε)

def Site.persistenceUnavailable : WriteResult α ε :=
  .turnExecution .persistenceUnavailable (py "Stage " ++ site.stageLabel ++ py " failed.")

/-- Phase 4: the worker's exception is classified. -/
def classify : Outcome α ε → WriteResult α ε
  | .value a => .value a
  | .raised exc =>
      if site.allowlisted exc then .raised exc
      else if site.isTurnExecutionError exc then .raised exc
      else site.persistenceUnavailable
  | .cancelled => site.persistenceUnavailable

/-- Phases 3 and 4, with the outcome that phases 1 and 2 have retrieved. -/
def conclude (o : Outcome α ε) (c : Call α ε) : Call α ε :=
  { c with result := some (if c.originalCancel then .cancelledError else classify site o) }

/-- The head of the loop. A worker that is not done is waited for behind a new shield, which a
cancellation that is still owed cancels at once. -/
def awaitWorker (c : Call α ε) : Call α ε :=
  match c.worker with
  | .done o => conclude site o c
  | _ => { c with shield := if c.mustCancel then some .cancelled else none, mustCancel := false }

/-- The coroutine wakes up with what is set on the shield. -/
def wake (o : Outcome α ε) (c : Call α ε) : Call α ε :=
  if c.mustCancel then awaitWorker site { c with mustCancel := false, originalCancel := true }
  else
    match o with
    | .cancelled => awaitWorker site { c with originalCancel := true }
    | .value _ => awaitWorker site c
    -- the `break`
    | .raised exc => conclude site (.raised exc) c

/-- The call up to where it first suspends; `mustCancel` is a cancellation that the task already
owes. -/
def runBlockingWrite (budget : TurnBudget) (now : Int) (mustCancel : Bool) :
    WriteResult α ε ⊕ Call α ε :=
  if budget.remaining now ≤ 0 then .inl deadlineExceeded
  else .inr (awaitWorker site
    { worker := .created, executions := 0, shield := none, mustCancel, originalCancel := false,
      result := none })

/-! ## The event loop -/

inductive LoopEvent (α ε : Type)
  /-- The first step of the worker task. -/
  | submit
  /-- A thread takes the function up. -/
  | run
  /-- The function returns or raises. -/
  | leave (o : Outcome α ε)
  /-- The last step of the worker task. -/
  | finish
  /-- The done callback that `asyncio.shield` left on the worker. -/
  | copy
  | wake
  /-- `cancel()` on the awaiting task. -/
  | cancel
deriving DecidableEq

def LoopEvent.isCancel : LoopEvent α ε → Bool
  | .cancel => true
  | _ => false

/-- One event; the reply says whether it could happen. -/
def loopStep (e : LoopEvent α ε) (c : Call α ε) : Bool × Call α ε :=
  match c.result with
  | some _ => (false, c)
  | none =>
      match e, c.worker, c.shield with
      | .submit, .created, _ => (true, { c with worker := .submitted })
      | .run, .submitted, _ => (true, { c with worker := .running, executions := c.executions + 1 })
      | .leave o, .running, _ => (true, { c with worker := .returned o })
      | .finish, .returned o, _ => (true, { c with worker := .done o })
      | .copy, .done o, none => (true, { c with shield := some o })
      | .wake, _, some o => (true, Katherine.Cloud.BlockingWrite.wake site o c)
      | .cancel, _, none => (true, { c with shield := some .cancelled })
      | .cancel, _, some _ => (true, { c with mustCancel := true })
      | _, _, _ => (false, c)

/-- A cancellation that was delivered. -/
def isCancel (e : Event (@loopStep α ε site)) : Bool := e.input.isCancel && e.reply

/-- A step of the loop or of the thread that is no cancellation. -/
def isProgress (e : Event (@loopStep α ε site)) : Bool := !e.input.isCancel && e.reply

/-! ## What a step does -/

inductive Happens : LoopEvent α ε → Call α ε → Call α ε → Prop
  | submit {c : Call α ε} (h : c.worker = .created) :
      Happens .submit c { c with worker := .submitted }
  | run {c : Call α ε} (h : c.worker = .submitted) :
      Happens .run c { c with worker := .running, executions := c.executions + 1 }
  | leave {c : Call α ε} {o : Outcome α ε} (h : c.worker = .running) :
      Happens (.leave o) c { c with worker := .returned o }
  | finish {c : Call α ε} {o : Outcome α ε} (h : c.worker = .returned o) :
      Happens .finish c { c with worker := .done o }
  | copy {c : Call α ε} {o : Outcome α ε} (h : c.worker = .done o) (hs : c.shield = none) :
      Happens .copy c { c with shield := some o }
  | wake {c : Call α ε} {o : Outcome α ε} (hs : c.shield = some o) :
      Happens .wake c (BlockingWrite.wake site o c)
  | interrupt {c : Call α ε} (hs : c.shield = none) :
      Happens .cancel c { c with shield := some .cancelled }
  | owe {c : Call α ε} {o : Outcome α ε} (hs : c.shield = some o) :
      Happens .cancel c { c with mustCancel := true }

variable {site}

/-- A step is one of these while the call lasts, or nothing. -/
theorem loopStep_cases {e : LoopEvent α ε} {c c' : Call α ε} {happened : Bool}
    (h : loopStep site e c = (happened, c')) :
    (happened = true ∧ c.result = none ∧ Happens site e c c') ∨ (happened = false ∧ c' = c) := by
  unfold loopStep at h
  split at h
  · obtain ⟨rfl, rfl⟩ := Prod.mk.inj h
    exact .inr ⟨rfl, rfl⟩
  · rename_i hresult
    split at h <;> obtain ⟨rfl, rfl⟩ := Prod.mk.inj h
    · exact .inl ⟨rfl, hresult, .submit ‹_›⟩
    · exact .inl ⟨rfl, hresult, .run ‹_›⟩
    · exact .inl ⟨rfl, hresult, .leave ‹_›⟩
    · exact .inl ⟨rfl, hresult, .finish ‹_›⟩
    · exact .inl ⟨rfl, hresult, .copy ‹_› ‹_›⟩
    · exact .inl ⟨rfl, hresult, .wake ‹_›⟩
    · exact .inl ⟨rfl, hresult, .interrupt ‹_›⟩
    · exact .inl ⟨rfl, hresult, .owe ‹_›⟩
    · exact .inr ⟨rfl, rfl⟩

/-- While the call lasts, the worker, its callback or the wake-up has something to do. -/
theorem exists_progress {c : Call α ε} (h : c.result = none) :
    ∃ e, e ≠ .cancel ∧ (loopStep site e c).1 = true := by
  cases hshield : c.shield with
  | some o => exact ⟨.wake, by simp, by simp [loopStep, h, hshield]⟩
  | none =>
      cases hworker : c.worker with
      | created => exact ⟨.submit, by simp, by simp [loopStep, h, hworker]⟩
      | submitted => exact ⟨.run, by simp, by simp [loopStep, h, hworker]⟩
      | running => exact ⟨.leave .cancelled, by simp, by simp [loopStep, h, hworker]⟩
      | returned o => exact ⟨.finish, by simp, by simp [loopStep, h, hworker]⟩
      | done o => exact ⟨.copy, by simp, by simp [loopStep, h, hworker, hshield]⟩

/-! ## The invariant -/

variable (site) in
/-- What the call ends with, if `delivered` cancellations reached it and the worker ended so. -/
def expected (delivered : Bool) (o : Outcome α ε) : WriteResult α ε :=
  if delivered || o.isCancelled then .cancelledError else classify site o

/-- While the call lasts. `delivered`: some cancellation was, and it is noted in one of three
places. -/
structure Waiting (delivered : Bool) (c : Call α ε) : Prop where
  owed : c.mustCancel = true → delivered = true
  seen : c.originalCancel = true → delivered = true ∨ c.worker = .done .cancelled
  copied : ∀ o, c.shield = some o → o = .cancelled ∧ delivered = true ∨ c.worker = .done o
  noted : delivered = true →
    c.originalCancel = true ∨ c.mustCancel = true ∨ c.shield = some .cancelled

variable (site) in
structure Inv (delivered : Bool) (c : Call α ε) : Prop where
  once : c.executions = c.worker.runs
  waiting : c.result = none → Waiting delivered c
  ended : ∀ r, c.result = some r → ∃ o, c.worker = .done o ∧ r = expected site delivered o

/-- At the head of the loop: a worker that is done has been waited for, so whatever cancellation
there was has been thrown, the one of the worker's own included. -/
structure AtHead (delivered : Bool) (c : Call α ε) : Prop where
  running : c.result = none
  once : c.executions = c.worker.runs
  owed : c.mustCancel = true → delivered = true
  seen : c.originalCancel = true → delivered = true ∨ c.worker = .done .cancelled
  noted : delivered = true → c.originalCancel = true ∨ c.mustCancel = true
  thrown : ∀ o, c.worker = .done o →
    c.mustCancel = false ∧ (o = .cancelled → c.originalCancel = true)

theorem conclude_inv {delivered : Bool} {c : Call α ε} {o : Outcome α ε}
    (once : c.executions = c.worker.runs) (hworker : c.worker = .done o)
    (h : c.originalCancel = true ↔ delivered = true ∨ o = .cancelled) :
    Inv site delivered (conclude site o c) := by
  have hflag : c.originalCancel = (delivered || o.isCancelled) := by
    rw [Bool.eq_iff_iff, h, Bool.or_eq_true]
    cases o <;> simp [Outcome.isCancelled]
  refine ⟨once, by simp [conclude], ?_⟩
  intro r hr
  simp only [conclude, Option.some.injEq] at hr
  exact ⟨o, hworker, by rw [← hr, expected, hflag]⟩

theorem awaitWorker_inv {delivered : Bool} {c : Call α ε} (h : AtHead delivered c) :
    Inv site delivered (awaitWorker site c) := by
  unfold awaitWorker
  split
  · rename_i o hworker
    obtain ⟨hmust, hcancelled⟩ := h.thrown o hworker
    refine conclude_inv h.once hworker ⟨?_, ?_⟩
    · intro horiginal
      exact (h.seen horiginal).imp_right fun hw => WorkerTask.done.inj (hworker.symm.trans hw)
    · rintro (hd | ho)
      · exact (h.noted hd).resolve_right (by simp [hmust])
      · exact hcancelled ho
  · refine ⟨h.once, ?_, by simp [h.running]⟩
    intro _
    refine ⟨by simp, h.seen, ?_, ?_⟩
    · intro o ho
      simp only [Option.ite_none_right_eq_some, Option.some.injEq] at ho
      exact .inl ⟨ho.2.symm, h.owed ho.1⟩
    · intro hd
      rcases h.noted hd with horiginal | hmust
      · exact .inl horiginal
      · exact .inr (.inr (by simp [hmust]))

theorem wake_inv {delivered : Bool} {c : Call α ε} {o : Outcome α ε} (h : Inv site delivered c)
    (hrunning : c.result = none) (hshield : c.shield = some o) :
    Inv site delivered (wake site o c) := by
  obtain ⟨owed, seen, copied, noted⟩ := h.waiting hrunning
  unfold wake
  split
  · rename_i hmust
    exact awaitWorker_inv ⟨hrunning, h.once, by simp, fun _ => .inl (owed hmust), fun _ => .inl rfl,
      fun _ _ => ⟨rfl, fun _ => rfl⟩⟩
  · rename_i hmust
    have hmust : c.mustCancel = false := by simpa using hmust
    cases o with
    | cancelled =>
        refine awaitWorker_inv ⟨hrunning, h.once, owed, ?_, fun _ => .inl rfl,
          fun _ _ => ⟨hmust, fun _ => rfl⟩⟩
        intro _
        exact (copied _ hshield).imp_left And.right
    | value a =>
        have hworker := (copied _ hshield).resolve_left (by simp)
        refine awaitWorker_inv ⟨hrunning, h.once, owed, seen, ?_, ?_⟩
        · intro hd
          exact (noted hd).imp_right fun hn => hn.resolve_right (by simp [hshield])
        · intro o ho
          obtain rfl := WorkerTask.done.inj (hworker.symm.trans ho)
          exact ⟨hmust, by simp⟩
    | raised exc =>
        have hworker := (copied _ hshield).resolve_left (by simp)
        refine conclude_inv h.once hworker ⟨?_, ?_⟩
        · intro horiginal
          exact (seen horiginal).imp_right fun hw => WorkerTask.done.inj (hworker.symm.trans hw)
        · rintro (hd | ho)
          · exact (noted hd).resolve_right (by simp [hmust, hshield])
          · cases ho

/-- A step keeps the invariant, with the cancellation it may be. -/
theorem happens_inv {delivered : Bool} {e : LoopEvent α ε} {c c' : Call α ε}
    (h : Inv site delivered c) (hrunning : c.result = none) (hstep : Happens site e c c') :
    Inv site (delivered || e.isCancel) c' := by
  obtain ⟨owed, seen, copied, noted⟩ := h.waiting hrunning
  -- a worker that goes on: what holds of it while it is not done, it holds of it either way
  have hold {w : WorkerTask α ε} {n : Nat} (honce : n = w.runs) (hnot : ∀ o, c.worker ≠ .done o) :
      Inv site delivered { c with worker := w, executions := n } := by
    refine ⟨honce, fun _ => ⟨owed, ?_, ?_, noted⟩, by simp [hrunning]⟩
    · intro horiginal
      exact .inl ((seen horiginal).resolve_right (hnot _))
    · intro o ho
      exact .inl ((copied o ho).resolve_right (hnot _))
  cases hstep with
  | submit hw =>
      simpa [LoopEvent.isCancel] using hold (h.once.trans (by simp [hw, WorkerTask.runs])) (by simp [hw])
  | run hw =>
      simpa [LoopEvent.isCancel] using hold (by simp [h.once, hw, WorkerTask.runs]) (by simp [hw])
  | leave hw =>
      simpa [LoopEvent.isCancel] using hold (h.once.trans (by simp [hw, WorkerTask.runs])) (by simp [hw])
  | finish hw =>
      simpa [LoopEvent.isCancel] using hold (h.once.trans (by simp [hw, WorkerTask.runs])) (by simp [hw])
  | copy hw hs =>
      simp only [LoopEvent.isCancel, Bool.or_false]
      refine ⟨h.once, fun _ => ⟨owed, seen, ?_, ?_⟩, by simp [hrunning]⟩
      · intro o ho
        exact .inr (hw.trans (congrArg _ (Option.some.inj ho)))
      · intro hd
        rcases noted hd with horiginal | hmust | hshield
        · exact .inl horiginal
        · exact .inr (.inl hmust)
        · simp [hs] at hshield
  | wake hs =>
      simp only [LoopEvent.isCancel, Bool.or_false]
      exact wake_inv h hrunning hs
  | interrupt hs =>
      simp only [LoopEvent.isCancel, Bool.or_true]
      refine ⟨h.once, fun _ => ⟨by simp, by simp, ?_, by simp⟩, by simp [hrunning]⟩
      intro o ho
      exact .inl ⟨(Option.some.inj ho).symm, rfl⟩
  | owe hs =>
      simp only [LoopEvent.isCancel, Bool.or_true]
      refine ⟨h.once, fun _ => ⟨by simp, by simp, ?_, by simp⟩, by simp [hrunning]⟩
      intro o ho
      exact (copied o ho).imp_left fun hc => ⟨hc.1, rfl⟩

/-! ## Progress -/

/-- How many steps there are still to do, at most, if no further cancellation comes. -/
def Call.remaining (c : Call α ε) : Nat :=
  if c.result.isSome then 0
  else if c.worker.left = 0 then if c.shield.isSome then 1 else 2
  else 4 * c.worker.left + if c.shield.isSome then 3 else 2

theorem remaining_awaitWorker {c : Call α ε} (hrunning : c.result = none)
    (hmust : c.mustCancel = false) (hshield : c.shield.isSome = true) :
    (awaitWorker site c).remaining < c.remaining := by
  unfold awaitWorker
  split
  · rename_i hworker
    simp [Call.remaining, conclude, hrunning, hworker, WorkerTask.left, hshield]
  · rename_i hnot
    have hleft : c.worker.left ≠ 0 := by
      cases hw : c.worker with
      | done o => exact absurd hw (hnot o)
      | created => simp [WorkerTask.left]
      | submitted => simp [WorkerTask.left]
      | running => simp [WorkerTask.left]
      | returned o => simp [WorkerTask.left]
    simp [Call.remaining, hmust, hrunning, hleft, hshield]

theorem remaining_wake {c : Call α ε} {o : Outcome α ε} (hrunning : c.result = none)
    (hshield : c.shield = some o) : (wake site o c).remaining < c.remaining := by
  have hsome : c.shield.isSome = true := by simp [hshield]
  have hpos : 0 < c.remaining := by
    by_cases hleft : c.worker.left = 0 <;> simp [Call.remaining, hrunning, hsome, hleft]
  unfold wake
  split
  · exact remaining_awaitWorker (c := { c with mustCancel := false, originalCancel := true })
      hrunning rfl hsome
  · rename_i hmust
    have hmust : c.mustCancel = false := by simpa using hmust
    cases o with
    | cancelled =>
        exact remaining_awaitWorker (c := { c with originalCancel := true }) hrunning hmust hsome
    | value a => exact remaining_awaitWorker hrunning hmust hsome
    | raised exc => simpa [conclude, Call.remaining] using hpos

/-- Every step but a cancellation brings the call nearer to its end; a cancellation takes it back
by one step at most. -/
theorem happens_remaining {e : LoopEvent α ε} {c c' : Call α ε} (hrunning : c.result = none)
    (hstep : Happens site e c c') :
    if e.isCancel then c'.remaining ≤ c.remaining + 1 else c'.remaining < c.remaining := by
  cases hstep with
  | submit hw => simp [LoopEvent.isCancel, Call.remaining, hrunning, hw, WorkerTask.left]
  | run hw => simp [LoopEvent.isCancel, Call.remaining, hrunning, hw, WorkerTask.left]
  | leave hw => simp [LoopEvent.isCancel, Call.remaining, hrunning, hw, WorkerTask.left]
  | finish hw =>
      simp only [LoopEvent.isCancel, Call.remaining, hrunning, hw, WorkerTask.left]
      cases c.shield <;> simp
  | copy hw hs => simp [LoopEvent.isCancel, Call.remaining, hrunning, hw, hs, WorkerTask.left]
  | wake hs => simpa [LoopEvent.isCancel] using remaining_wake hrunning hs
  | interrupt hs =>
      by_cases hleft : c.worker.left = 0 <;>
        simp [LoopEvent.isCancel, Call.remaining, hrunning, hs, hleft]
  | owe hs => simp [LoopEvent.isCancel, Call.remaining]

/-! ## Runs -/

variable (site) in
/-- Some cancellation was delivered: before the call first suspended, or by a step. -/
def delivered (owed : Bool) (es : List (Event (@loopStep α ε site))) : Bool :=
  owed || es.any (isCancel site)

theorem run_inv {owed : Bool} {c₀ c : Call α ε} {es : List (Event (@loopStep α ε site))}
    (h₀ : Inv site owed c₀) (hrun : Run c₀ es c) : Inv site (delivered site owed es) c := by
  refine (hrun.history (P := fun es c => Inv site (delivered site owed es) c)
    (by simpa [delivered] using h₀) ?_).1
  intro pre e post _ hinv
  have hsnoc : delivered site owed (pre ++ [e]) = (delivered site owed pre || isCancel site e) := by
    simp [delivered, Bool.or_assoc]
  rw [hsnoc]
  rcases loopStep_cases e.executed with ⟨hreply, hrunning, hstep⟩ | ⟨hreply, hsame⟩
  · simpa [isCancel, hreply] using happens_inv hinv hrunning hstep
  · simpa [isCancel, hreply, hsame] using hinv

theorem run_remaining {c₀ c : Call α ε} {es : List (Event (@loopStep α ε site))}
    (hrun : Run c₀ es c) :
    es.countP (isProgress site) + c.remaining ≤ c₀.remaining + es.countP (isCancel site) := by
  induction hrun with
  | nil => simp
  | cons e _ ih =>
      have hstep : (if isProgress site e then 1 else 0) + e.after.remaining
          ≤ e.before.remaining + if isCancel site e then 1 else 0 := by
        rcases loopStep_cases e.executed with ⟨hreply, hrunning, hstep⟩ | ⟨hreply, hsame⟩
        · have := happens_remaining hrunning hstep
          cases hcancel : e.input.isCancel <;> simp [isProgress, isCancel, hreply, hcancel] at this ⊢
            <;> omega
        · simp [isProgress, isCancel, hreply, hsame]
      simp only [List.countP_cons]
      omega

/-- What a call is like when it first suspends. -/
theorem suspended {budget : TurnBudget} {now : Int} {owed : Bool} {c : Call α ε}
    (h : runBlockingWrite site budget now owed = .inr c) :
    Inv site owed c ∧ c.remaining ≤ 19 := by
  unfold runBlockingWrite at h
  split at h
  · cases h
  · obtain rfl := Sum.inr.inj h
    refine ⟨awaitWorker_inv ⟨rfl, rfl, id, by simp, .inr, by simp⟩, ?_⟩
    cases owed <;> simp [awaitWorker, Call.remaining, WorkerTask.left]

/-- **A write is never abandoned.** Once the budget check has passed, whatever cancellations
arrive and whenever the worker ends, the function is run at most once; the call ends only after
the worker has, with the function run, and with `CancelledError` exactly if a cancellation was
delivered or the worker raised it itself, else with what the worker came to. And it does end:
as long as it has not, some step is possible, and there are no more than the cancellations and
nineteen of these. -/
theorem runBlockingWrite_drains {budget : TurnBudget} {now : Int} {owed : Bool} {c₀ c : Call α ε}
    {es : List (Event (@loopStep α ε site))}
    (h₀ : runBlockingWrite site budget now owed = .inr c₀) (hrun : Run c₀ es c) :
    c.executions ≤ 1 ∧
      (∀ r, c.result = some r → ∃ o, c.worker = .done o ∧ c.executions = 1 ∧
        r = if delivered site owed es || o.isCancelled then .cancelledError else classify site o) ∧
      (c.result = none → ∃ e, e ≠ .cancel ∧ (loopStep site e c).1 = true) ∧
      es.countP (isProgress site) ≤ 19 + es.countP (isCancel site) := by
  obtain ⟨hinv₀, hremaining⟩ := suspended h₀
  obtain ⟨once, -, ended⟩ := run_inv hinv₀ hrun
  refine ⟨?_, ?_, exists_progress, ?_⟩
  · rw [once]
    cases c.worker <;> simp [WorkerTask.runs]
  · intro r hr
    obtain ⟨o, hworker, hexpected⟩ := ended r hr
    exact ⟨o, hworker, by rw [once, hworker]; rfl, hexpected⟩
  · have := run_remaining hrun
    omega

end

/-- Two kinds of exceptions of their own among the numbers. -/
def sampleSite : Site Nat := ⟨py "commit", (· == 1), (· == 2)⟩

/-- A cancellation while the thread runs, another between the worker's end and the wake-up. -/
def cancelledWrite : List (LoopEvent Nat Nat) :=
  [.submit, .run, .cancel, .wake, .leave (.value 7), .finish, .copy, .cancel, .wake]

theorem runBlockingWrite_drains_cancelled :
    ∃ (c₀ c : Call Nat Nat) (es : List (Event (loopStep sampleSite))),
      runBlockingWrite sampleSite ⟨30, 8⟩ 5 false = .inr c₀ ∧ Run c₀ es c ∧
        c.result = some .cancelledError ∧ c.executions ≤ 1 ∧
        es.countP (isProgress sampleSite) ≤ 19 + es.countP (isCancel sampleSite) := by
  have h₀ : @runBlockingWrite Nat Nat sampleSite ⟨30, 8⟩ 5 false
      = .inr ⟨.created, 0, none, false, false, none⟩ := by decide
  have hrun := @Run.ofTrace _ _ _ (loopStep sampleSite) cancelledWrite
    ⟨.created, 0, none, false, false, none⟩
  obtain ⟨honce, -, -, hcount⟩ := runBlockingWrite_drains h₀ hrun
  exact ⟨_, _, _, h₀, hrun, by decide, honce, hcount⟩

end Katherine.Cloud.BlockingWrite
