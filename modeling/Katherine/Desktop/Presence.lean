import Katherine.Desktop.Geometry
import Katherine.Lib.Runs

/-!
# Switching to presence mode and back

`WindowController.set_presence_mode` of `backend/desktop/app.py`, over a native window that
may refuse any call, and `_dispatch_sync`, which waits for the GUI thread a bounded time.
The controller says of itself that its state tracking is transactional: a call that fails
is to leave the window as it was, and what is tracked is to be what the window shows.

Both directions apply one and the same `Mutation`, decoration, size, position, and undo it
when a call is refused. What they undo to is not what was there before: the decoration
goes back to that of the mode the call was to leave, so undoing is right only if the call
changes the mode (`undone_plan_eq_self`). And an action that has started when its timeout
fires runs on while the caller is told that it failed. `presence_transactional_iff` is the
exact condition on the calls of a run.
-/

namespace Katherine.Desktop.Window

open Runs

/-! ## The native window -/

/-- The window as the desktop has it. -/
structure Native where
  decorated : Bool
  x : Int
  y : Int
  width : Int
  height : Int
deriving DecidableEq

/-- The calls on it that may be refused. -/
inductive NativeCall
  | setDecorated
  | resize
  | move
deriving DecidableEq

/-- What `_apply_presence` and `_apply_companion` do: the values they set, and those they go back
to. -/
structure Mutation where
  decorated : Bool
  width : Int
  height : Int
  /-- Where to move; `none` if there is no move. -/
  move : Option (Int × Int)
  backWidth : Int
  backHeight : Int

/-- Where an action is: what it calls next, on its way or back, or how it ended. -/
inductive Stage
  | decorate
  | resize
  | move
  | resizeBack
  | decorateBack
  | ended (ok : Bool)
deriving DecidableEq

/-- An action on the GUI thread, with the calls that will be refused to it. -/
structure Action where
  mutation : Mutation
  fails : NativeCall → Bool
  stage : Stage

/-- One native call of an action. Calls that undo are not refused. -/
def Action.tick (a : Action) (n : Native) : Native × Action :=
  let m := a.mutation
  match a.stage with
  | .decorate =>
      -- outside the `try`: nothing has been done yet
      if a.fails .setDecorated then (n, { a with stage := .ended false })
      else ({ n with decorated := m.decorated }, { a with stage := .resize })
  | .resize =>
      if a.fails .resize then (n, { a with stage := .decorateBack })
      else ({ n with width := m.width, height := m.height }, { a with stage := .move })
  | .move =>
      match m.move with
      | none => (n, { a with stage := .ended true })
      | some (x, y) =>
          if a.fails .move then (n, { a with stage := .resizeBack })
          else ({ n with x, y }, { a with stage := .ended true })
  | .resizeBack =>
      ({ n with width := m.backWidth, height := m.backHeight }, { a with stage := .decorateBack })
  | .decorateBack => ({ n with decorated := !m.decorated }, { a with stage := .ended false })
  | .ended _ => (n, a)

/-- So many calls. -/
def Action.ticks (a : Action) (n : Native) : Nat → Native × Action
  | 0 => (n, a)
  | k + 1 => (a.tick n).2.ticks (a.tick n).1 k

/-- To its end: no action makes more than five calls. -/
def Action.finish (a : Action) (n : Native) : Native × Action := a.ticks n 5

/-! ## The controller -/

inductive Mode
  | companion
  | presence
deriving DecidableEq

/-- `_saved_geometry`. -/
structure SavedGeometry where
  x : Option Int
  y : Option Int
  width : Int
  height : Int
deriving DecidableEq

/-- What `WindowController` tracks. -/
structure WindowController where
  mode : Mode
  onTop : Bool
  width : Int
  height : Int
  x : Option Int
  y : Option Int
  savedGeometry : SavedGeometry
deriving DecidableEq

/-- `__init__`. -/
def WindowController.init : WindowController where
  mode := .companion
  onTop := false
  width := windowSize.1
  height := windowSize.2
  x := none
  y := none
  savedGeometry := ⟨none, none, windowSize.1, windowSize.2⟩

/-- `a or b`, where zero is false. -/
def orElse (a b : Int) : Int := if a = 0 then b else a

/-- `set_presence_mode(True)` before it dispatches: the action, and what is tracked if it is done.
Position and size are those of the native window. -/
def WindowController.enterPresence (c : WindowController) (n : Native) (workareas : List WorkArea)
    (primaryIndex : Int) : Mutation × WindowController :=
  let candidateSavedGeometry : SavedGeometry :=
    if c.mode = .companion then
      { x := some n.x
        y := some n.y
        width := orElse n.width (orElse c.width windowSize.1)
        height := orElse n.height (orElse c.height windowSize.2) }
    else c.savedGeometry
  let presence : ClampedGeometry :=
    if workareas.isEmpty then { x := n.x, y := n.y, width := 200, height := 200 }
    else clampWindowGeometry ⟨some n.x, some n.y, 200, 200⟩ workareas primaryIndex (120, 120)
  ({ decorated := false
     width := presence.width
     height := presence.height
     move := if presence.x ≠ n.x ∨ presence.y ≠ n.y then some (presence.x, presence.y) else none
     backWidth := orElse n.width (orElse c.width windowSize.1)
     backHeight := orElse n.height (orElse c.height windowSize.2) },
   { c with
     savedGeometry := candidateSavedGeometry
     mode := .presence
     width := presence.width
     height := presence.height
     x := some presence.x
     y := some presence.y })

/-- `set_presence_mode(False)` before it dispatches. -/
def WindowController.leavePresence (c : WindowController) (n : Native) (workareas : List WorkArea)
    (primaryIndex : Int) : Mutation × WindowController :=
  let saved := c.savedGeometry
  let target : TargetRect :=
    { x := saved.x
      y := saved.y
      width := orElse saved.width windowSize.1
      height := orElse saved.height windowSize.2 }
  let companion : TargetRect :=
    if workareas.isEmpty then target
    else
      let clamped := clampWindowGeometry target workareas primaryIndex (120, 120)
      ⟨some clamped.x, some clamped.y, clamped.width, clamped.height⟩
  ({ decorated := true
     width := companion.width
     height := companion.height
     move :=
       match companion.x, companion.y with
       | some x, some y => some (x, y)
       | _, _ => none
     backWidth := n.width
     backHeight := n.height },
   { c with
     mode := .companion
     width := companion.width
     height := companion.height
     x := companion.x
     y := companion.y })

/-- What a call plans, in either direction. -/
def WindowController.plan (c : WindowController) (n : Native) (enabled : Bool)
    (workareas : List WorkArea) (primaryIndex : Int) : Mutation × WindowController :=
  if enabled then c.enterPresence n workareas primaryIndex
  else c.leavePresence n workareas primaryIndex

/-! ## Calls and their dispatch -/

/-- How the wait of `_dispatch_sync` ends. -/
inductive Dispatch
  /-- The action has run to its end in time. -/
  | inTime
  /-- The timeout fires before the action starts; what an earlier call left running has made so
  many calls meanwhile. The action is cancelled. -/
  | notStarted (ticks : Nat)
  /-- The timeout fires when the action has made so many calls. It runs on. -/
  | overrun (ticks : Nat)

/-- What the desktop has for one call: its workareas, what it refuses, how fast it is. -/
structure CallEnv where
  workareas : List WorkArea
  primaryIndex : Int
  fails : NativeCall → Bool
  dispatch : Dispatch

inductive FailureCode
  | timeout
  | windowMutationFailed
deriving DecidableEq

/-- What `set_presence_mode` returns. -/
inductive PresenceReply
  | set (mode : Mode) (onTop : Bool) (width height : Int)
  | refused (code : FailureCode)
deriving DecidableEq

/-- The window, what is tracked of it, and an action that was timed out and still runs. -/
structure World where
  native : Native
  controller : WindowController
  running : Option Action

/-- A window that has just been bound. -/
def World.start (n : Native) : World := ⟨n, .init, none⟩

/-- The window after so many calls of what is running. -/
def World.advance (w : World) (ticks : Nat) : Native × Option Action :=
  match w.running with
  | none => (w.native, none)
  | some a => ((a.ticks w.native ticks).1, some (a.ticks w.native ticks).2)

/-- The window when what is running has ended. -/
def World.settled (w : World) : Native :=
  match w.running with
  | none => w.native
  | some a => (a.finish w.native).1

/-- `set_presence_mode`, from its lock to its return. The GUI thread runs one action after the
other, so a new one starts when what was running has ended. -/
def World.setPresenceMode (w : World) (enabled : Bool) (env : CallEnv) : PresenceReply × World :=
  let plan := w.controller.plan w.native enabled env.workareas env.primaryIndex
  let action : Action := ⟨plan.1, env.fails, .decorate⟩
  match env.dispatch with
  | .inTime =>
      let done := action.finish w.settled
      if done.2.stage = .ended true then
        (.set plan.2.mode plan.2.onTop plan.2.width plan.2.height, ⟨done.1, plan.2, none⟩)
      else (.refused .windowMutationFailed, ⟨done.1, w.controller, none⟩)
  | .notStarted ticks =>
      let (native, running) := w.advance ticks
      (.refused .timeout, ⟨native, w.controller, running⟩)
  | .overrun ticks =>
      let (native, running) := action.ticks w.settled ticks
      (.refused .timeout, ⟨native, w.controller, some running⟩)

/-- A call, or the GUI thread goes on with what is running. -/
inductive Input
  | setPresenceMode (enabled : Bool) (env : CallEnv)
  | proceed

def step : Input → World → Option PresenceReply × World
  | .setPresenceMode enabled env, w =>
      let (reply, w') := w.setPresenceMode enabled env
      (some reply, w')
  | .proceed, w =>
      let (native, running) := w.advance 1
      (none, { w with native, running })

/-! ## What an action comes to -/

/-- The window when all of the mutation is done. -/
def Mutation.applied (m : Mutation) (n : Native) : Native :=
  let n := { n with decorated := m.decorated, width := m.width, height := m.height }
  match m.move with
  | none => n
  | some (x, y) => { n with x, y }

/-- The window when a call was refused and what was done before it is undone. -/
def Mutation.undone (m : Mutation) (n : Native) : NativeCall → Native
  | .setDecorated => n
  | .resize => { n with decorated := !m.decorated }
  | .move => { n with decorated := !m.decorated, width := m.backWidth, height := m.backHeight }

/-- The first call of a mutation that is refused. -/
def refusedCall (moves : Bool) (fails : NativeCall → Bool) : Option NativeCall :=
  if fails .setDecorated then some .setDecorated
  else if fails .resize then some .resize
  else if moves && fails .move then some .move
  else none

/-- **An action that runs to its end** is done or undone. -/
theorem finish_decorate (m : Mutation) (fails : NativeCall → Bool) (n : Native) :
    (⟨m, fails, .decorate⟩ : Action).finish n =
      match refusedCall m.move.isSome fails with
      | none => (m.applied n, ⟨m, fails, .ended true⟩)
      | some call => (m.undone n call, ⟨m, fails, .ended false⟩) := by
  obtain ⟨decorated, width, height, move, backWidth, backHeight⟩ := m
  by_cases hdecorated : fails .setDecorated = true
  · simp only [Action.finish, Action.ticks, Action.tick, refusedCall, hdecorated, if_true, Mutation.undone]
  · by_cases hresize : fails .resize = true
    · simp only [Action.finish, Action.ticks, Action.tick, refusedCall, hdecorated, hresize, if_true,
        Mutation.undone, Bool.false_eq_true, if_false]
    · cases move with
      | none =>
          simp only [Action.finish, Action.ticks, Action.tick, refusedCall, hdecorated, hresize,
            Mutation.applied, Option.isSome_none, Bool.false_and, Bool.false_eq_true, if_false]
      | some p =>
          by_cases hmove : fails .move = true
          · simp only [Action.finish, Action.ticks, Action.tick, refusedCall, hdecorated, hresize, hmove,
              Mutation.undone, Option.isSome_some, Bool.true_and, Bool.false_eq_true, if_false, if_true]
          · simp only [Action.finish, Action.ticks, Action.tick, refusedCall, hdecorated, hresize, hmove,
              Mutation.applied, Option.isSome_some, Bool.true_and, Bool.false_eq_true, if_false]

/-- The call moves the window. -/
def World.moves (w : World) (enabled : Bool) (env : CallEnv) : Bool :=
  if enabled then
    !env.workareas.isEmpty &&
      let clamped := clampWindowGeometry ⟨some w.native.x, some w.native.y, 200, 200⟩ env.workareas
        env.primaryIndex (120, 120)
      decide (clamped.x ≠ w.native.x ∨ clamped.y ≠ w.native.y)
  else
    !env.workareas.isEmpty ||
      w.controller.savedGeometry.x.isSome && w.controller.savedGeometry.y.isSome

/-- The first native call of the action that is refused. -/
def World.refusedCall (w : World) (enabled : Bool) (env : CallEnv) : Option NativeCall :=
  Window.refusedCall (w.moves enabled env) env.fails

/-- The plan of a call in a state. -/
def World.plan (w : World) (enabled : Bool) (env : CallEnv) : Mutation × WindowController :=
  w.controller.plan w.native enabled env.workareas env.primaryIndex

theorem plan_move (w : World) (enabled : Bool) (env : CallEnv) :
    (w.plan enabled env).1.move.isSome = w.moves enabled env := by
  by_cases hareas : env.workareas.isEmpty = true
  · cases enabled with
    | true => simp [World.plan, WindowController.plan, WindowController.enterPresence, World.moves, hareas]
    | false =>
        simp only [World.plan, WindowController.plan, WindowController.leavePresence, World.moves, hareas,
          Bool.false_eq_true, if_false, if_true, Bool.not_true, Bool.false_or]
        cases w.controller.savedGeometry.x with
        | none => rfl
        | some x =>
            cases w.controller.savedGeometry.y with
            | none => rfl
            | some y => rfl
  · cases enabled with
    | true =>
        simp only [World.plan, WindowController.plan, WindowController.enterPresence, World.moves, hareas,
          Bool.false_eq_true, if_false, if_true, Bool.not_false, Bool.true_and]
        split
        · next hmoves => exact (decide_eq_true hmoves).symm
        · next hmoves => exact (decide_eq_false hmoves).symm
    | false =>
        simp only [World.plan, WindowController.plan, WindowController.leavePresence, World.moves, hareas,
          Bool.false_eq_true, if_false, Bool.not_false, Bool.true_or]
        rfl

variable {w : World} {enabled : Bool} {env : CallEnv}

/-- **A call that was answered in time**, with nothing else running. -/
theorem setPresenceMode_inTime (hidle : w.running = none) (hd : env.dispatch = .inTime) :
    w.setPresenceMode enabled env =
      match w.refusedCall enabled env with
      | none =>
          let c := (w.plan enabled env).2
          (.set c.mode c.onTop c.width c.height, ⟨(w.plan enabled env).1.applied w.native, c, none⟩)
      | some call =>
          (.refused .windowMutationFailed,
            ⟨(w.plan enabled env).1.undone w.native call, w.controller, none⟩) := by
  have hsettled : w.settled = w.native := by rw [World.settled, hidle]
  simp only [World.setPresenceMode, hd, hsettled, World.refusedCall, ← plan_move]
  rw [show w.controller.plan w.native enabled env.workareas env.primaryIndex = w.plan enabled env from rfl,
    finish_decorate]
  cases Window.refusedCall (w.plan enabled env).1.move.isSome env.fails with
  | none => rfl
  | some call => rfl

/-- A call that was not started leaves everything as it was. -/
theorem setPresenceMode_notStarted (hidle : w.running = none) {ticks : Nat}
    (hd : env.dispatch = .notStarted ticks) : w.setPresenceMode enabled env = (.refused .timeout, w) := by
  obtain ⟨native, controller, running⟩ := w
  cases hidle
  simp only [World.setPresenceMode, hd]
  rfl

/-! ## Transactional calls -/

/-- What is tracked is what the window shows. -/
structure InStep (w : World) : Prop where
  mode : w.controller.mode = .presence ↔ w.native.decorated = false
  width : w.controller.width = w.native.width
  height : w.controller.height = w.native.height
  x : w.controller.x = some w.native.x
  y : w.controller.y = some w.native.y

/-- After a call what is tracked is in step, and a call that is refused changes nothing. -/
structure Transactional (e : Event step) : Prop where
  inStep : e.input ≠ .proceed → InStep e.after
  kept : ∀ code, e.reply = some (.refused code) →
    e.after.controller = e.before.controller ∧ e.after.native = e.before.native

/-- An action of the call is running when its timeout fires. -/
def Overruns : Input → Prop
  | .setPresenceMode _ env => ∃ ticks, env.dispatch = .overrun ticks
  | .proceed => False

/-- **What a call may meet**, unless an action overruns. -/
structure Orderly (w : World) (enabled : Bool) (env : CallEnv) : Prop where
  /-- Where it fails, what is tracked is in step already. -/
  unchanged : (env.dispatch = .inTime → w.refusedCall enabled env ≠ none) → InStep w
  /-- Its resize or its move is refused only if it changes the decoration. -/
  changes : env.dispatch = .inTime → ∀ call, w.refusedCall enabled env = some call → call ≠ .setDecorated →
    w.native.decorated = enabled
  /-- A size that is gone back to on entering presence mode is not zero. -/
  sizes : env.dispatch = .inTime → enabled = true → w.refusedCall enabled env = some .move →
    w.native.width ≠ 0 ∧ w.native.height ≠ 0
  /-- A window that leaves presence mode is put somewhere: there are workareas, or a position was
  saved. -/
  placed : env.dispatch = .inTime → enabled = false → w.refusedCall enabled env = none →
    w.moves enabled env = true

/-- A step is a call in an orderly state, or none. -/
def OrderlyStep (w : World) : Input → Prop
  | .setPresenceMode enabled env => Orderly w enabled env
  | .proceed => True

theorem orElse_eq_self {a b d : Int} (hd : d ≠ 0) : orElse a (orElse b d) = a ↔ a ≠ 0 := by
  unfold orElse
  split
  · split <;> omega
  · omega

/-- What is undone is as before exactly if the call changed the decoration and the sizes are
those of before. -/
theorem undone_eq_self {m : Mutation} {n : Native} {call : NativeCall} :
    m.undone n call = n ↔ (call ≠ .setDecorated → n.decorated = !m.decorated) ∧
      (call = .move → m.backWidth = n.width ∧ m.backHeight = n.height) := by
  obtain ⟨decorated, x, y, width, height⟩ := n
  cases call with
  | setDecorated => simp [Mutation.undone]
  | resize => simp [Mutation.undone, eq_comm]
  | move => simp [Mutation.undone, eq_comm]

/-- **Entering presence mode, when it is done, is in step.** -/
theorem inStep_enter (w : World) (env : CallEnv) :
    InStep ⟨(w.plan true env).1.applied w.native, (w.plan true env).2, none⟩ := by
  simp only [World.plan, WindowController.plan, WindowController.enterPresence, if_true]
  split
  all_goals
    rename_i hareas
    simp only [Mutation.applied]
    split
    · next hmove =>
        -- the window stays where it is, which is where it was to go
        split at hmove
        · cases hmove
        · next hstays =>
            obtain ⟨hx, hy⟩ := not_or.mp hstays
            exact ⟨by simp, rfl, rfl, congrArg some (not_not.mp hx), congrArg some (not_not.mp hy)⟩
    · next hmove =>
        split at hmove
        · cases hmove
          exact ⟨by simp, rfl, rfl, rfl, rfl⟩
        · cases hmove

/-- **Leaving it is in step if the window is put somewhere.** -/
theorem inStep_leave (w : World) (env : CallEnv) :
    InStep ⟨(w.plan false env).1.applied w.native, (w.plan false env).2, none⟩ ↔
      w.moves false env = true := by
  rw [← plan_move]
  simp only [World.plan, WindowController.plan, WindowController.leavePresence, Bool.false_eq_true, if_false]
  generalize (if env.workareas.isEmpty = true then _ else _ : TargetRect) = companion
  obtain ⟨x, y, width, height⟩ := companion
  cases x with
  | none => exact ⟨fun h => (by cases h.x), nofun⟩
  | some x =>
      cases y with
      | none => exact ⟨fun h => (by cases h.y), nofun⟩
      | some y => exact ⟨fun _ => rfl, fun _ => ⟨by simp [Mutation.applied], rfl, rfl, rfl, rfl⟩⟩

/-- The mutation of a call goes back to the decoration the call is to change, and to the sizes of
the window unless one is zero. -/
theorem undone_plan_eq_self (w : World) (enabled : Bool) (env : CallEnv) (call : NativeCall) :
    (w.plan enabled env).1.undone w.native call = w.native ↔
      (call ≠ .setDecorated → w.native.decorated = enabled) ∧
        (enabled = true → call = .move → w.native.width ≠ 0 ∧ w.native.height ≠ 0) := by
  rw [undone_eq_self]
  cases enabled with
  | true =>
      have hsizes : (w.plan true env).1.backWidth = w.native.width ∧
          (w.plan true env).1.backHeight = w.native.height ↔ w.native.width ≠ 0 ∧ w.native.height ≠ 0 :=
        and_congr (orElse_eq_self (by decide)) (orElse_eq_self (by decide))
      rw [hsizes]
      exact ⟨fun ⟨hd, hs⟩ => ⟨hd, fun _ => hs⟩, fun ⟨hd, hs⟩ => ⟨hd, hs rfl⟩⟩
  | false => exact ⟨fun ⟨hd, _⟩ => ⟨hd, nofun⟩, fun ⟨hd, _⟩ => ⟨hd, fun _ => ⟨rfl, rfl⟩⟩⟩

/-! ## Calls, one by one -/

/-- **One call**, with nothing else running and no overrun, is transactional exactly if it is orderly. -/
theorem call_transactional_iff (hidle : w.running = none)
    (hrun : ∀ ticks, env.dispatch ≠ .overrun ticks) :
    (InStep (w.setPresenceMode enabled env).2 ∧
      ∀ code, (w.setPresenceMode enabled env).1 = .refused code →
        (w.setPresenceMode enabled env).2.controller = w.controller ∧
          (w.setPresenceMode enabled env).2.native = w.native) ↔
      Orderly w enabled env := by
  cases hd : env.dispatch with
  | overrun ticks => exact absurd hd (hrun ticks)
  | notStarted ticks =>
      rw [setPresenceMode_notStarted hidle hd]
      constructor
      · rintro ⟨hstep, _⟩
        exact ⟨fun _ => hstep, by rw [hd]; nofun, by rw [hd]; nofun, by rw [hd]; nofun⟩
      · intro h
        exact ⟨h.unchanged (by rw [hd]; nofun), fun _ _ => ⟨rfl, rfl⟩⟩
  | inTime =>
      rw [setPresenceMode_inTime hidle hd]
      cases hcall : w.refusedCall enabled env with
      | none =>
          -- done: only where the window is put may be missing
          have hin : InStep ⟨(w.plan enabled env).1.applied w.native, (w.plan enabled env).2, none⟩ ↔
              (enabled = false → w.moves false env = true) := by
            cases enabled with
            | true => exact ⟨fun _ => nofun, fun _ => inStep_enter w env⟩
            | false => exact (inStep_leave w env).trans ⟨fun h _ => h, fun h => h rfl⟩
          dsimp only
          rw [hin]
          constructor
          · rintro ⟨hput, _⟩
            refine ⟨fun h => absurd hcall (h hd), fun _ call h => ?_, fun _ _ h => ?_, fun _ he _ => ?_⟩
            · rw [hcall] at h
              cases h
            · rw [hcall] at h
              cases h
            · rw [he]
              exact hput he
          · intro h
            refine ⟨fun he => ?_, nofun⟩
            have hmoves := h.placed hd he hcall
            rw [he] at hmoves
            exact hmoves
      | some call =>
          -- undone: what is left has to be what was there
          dsimp only
          constructor
          · rintro ⟨hstep, hkept⟩
            obtain ⟨_, hsame⟩ := hkept _ rfl
            rw [hsame] at hstep
            obtain ⟨hchanges, hsizes⟩ := (undone_plan_eq_self w enabled env call).mp hsame
            refine ⟨fun _ => ⟨hstep.mode, hstep.width, hstep.height, hstep.x, hstep.y⟩, ?_, ?_, ?_⟩
            · intro _ call' hcall' hne
              rw [hcall] at hcall'
              cases hcall'
              exact hchanges hne
            · intro _ he hmove
              rw [hcall] at hmove
              cases hmove
              exact hsizes he rfl
            · intro _ _ hnone
              rw [hcall] at hnone
              cases hnone
          · intro h
            have hin := h.unchanged fun _ => by rw [hcall]; nofun
            have hsame := (undone_plan_eq_self w enabled env call).mpr
              ⟨h.changes hd call hcall, fun he hmove => h.sizes hd he (by rw [hcall, hmove])⟩
            rw [hsame]
            exact ⟨⟨hin.mode, hin.width, hin.height, hin.x, hin.y⟩, fun _ _ => ⟨rfl, rfl⟩⟩

/-- A step without an overrun leaves nothing running. -/
theorem step_idle {e : Event step} (hidle : e.before.running = none) (hno : ¬ Overruns e.input) :
    e.after.running = none := by
  have hafter : e.after = (step e.input e.before).2 := by rw [e.executed]
  rw [hafter]
  cases hinput : e.input with
  | proceed =>
      simp only [step, World.advance, hidle]
  | setPresenceMode enabled env =>
      rw [hinput] at hno
      simp only [step]
      cases hd : env.dispatch with
      | overrun ticks => exact absurd ⟨ticks, hd⟩ hno
      | notStarted ticks =>
          rw [setPresenceMode_notStarted hidle hd]
          exact hidle
      | inTime =>
          rw [setPresenceMode_inTime hidle hd]
          split <;> rfl

theorem step_transactional_iff {e : Event step} (hidle : e.before.running = none) (hno : ¬ Overruns e.input) :
    Transactional e ↔ OrderlyStep e.before e.input := by
  have hstep := e.executed
  cases hinput : e.input with
  | proceed =>
      rw [hinput] at hstep
      refine ⟨fun _ => trivial, fun _ => ⟨fun h => absurd hinput h, fun code hreply => ?_⟩⟩
      rw [← (Prod.mk.inj hstep).1] at hreply
      cases hreply
  | setPresenceMode enabled env =>
      rw [hinput] at hstep hno
      obtain ⟨hreply, hafter⟩ := Prod.mk.inj hstep
      have hrun : ∀ ticks, env.dispatch ≠ .overrun ticks := fun ticks hd => hno ⟨ticks, hd⟩
      rw [OrderlyStep, ← call_transactional_iff hidle hrun]
      constructor
      · rintro ⟨hin, hkept⟩
        rw [← hafter] at hin hkept
        refine ⟨hin (by rw [hinput]; nofun), fun code hcode => hkept code ?_⟩
        rw [← hreply, ← hcode]
        rfl
      · rintro ⟨hin, hkept⟩
        refine ⟨fun _ => ?_, fun code hcode => ?_⟩
        · rw [← hafter]
          exact hin
        · rw [← hafter]
          refine hkept code ?_
          rw [← hreply] at hcode
          exact Option.some.inj hcode

/-- **A run without an overrun is transactional exactly if its calls are orderly.** -/
theorem presence_transactional_iff {n : Native} {es : List (Event step)} {w : World}
    (h : Run (World.start n) es w) (hno : ∀ e ∈ es, ¬ Overruns e.input) :
    (∀ e ∈ es, Transactional e) ↔ ∀ e ∈ es, OrderlyStep e.before e.input := by
  obtain ⟨_, hidle⟩ := h.invariant (P := fun w => w.running = none) rfl
    fun e he hidle => step_idle hidle (hno e he)
  exact forall_congr' fun e => forall_congr' fun he =>
    step_transactional_iff (hidle e he).1 (hno e he)

/-- A window on a screen. -/
def sampleNative : Native := ⟨true, 100, 150, 1280, 800⟩

def smoothEnv : CallEnv := ⟨[⟨0, 0, 1920, 1080⟩], 0, fun _ => false, .inTime⟩

/-- A resize is refused. -/
def refusingEnv : CallEnv := { smoothEnv with fails := fun call => decide (call = .resize) }

/-- The timeout fires when the first native call of the action has been made. -/
def slowEnv : CallEnv := { smoothEnv with dispatch := .overrun 1 }

/-- The steps of some calls on that window. -/
def sampleTrace (inputs : List Input) : List (Event step) := trace step inputs (World.start sampleNative)

theorem orderly_of_smooth (hd : env.dispatch = .inTime) (hcall : w.refusedCall enabled env = none)
    (hmoves : w.moves false env = true) : Orderly w enabled env where
  unchanged h := absurd hcall (h hd)
  changes _ call h := by
    rw [hcall] at h
    cases h
  sizes _ _ h := by
    rw [hcall] at h
    cases h
  placed _ he _ := by
    rw [he]
    exact hmoves

/-- A call that is refused a resize, in step and for a window of the other decoration. -/
theorem orderly_of_refused (hcall : w.refusedCall enabled env = some .resize) (hin : InStep w)
    (hdecorated : w.native.decorated = enabled) : Orderly w enabled env where
  unchanged _ := hin
  changes _ _ _ _ := hdecorated
  sizes _ _ h := by
    rw [hcall] at h
    cases h
  placed _ _ h := by
    rw [hcall] at h
    cases h

/-- There and back, where the window does not go back at the first attempt. -/
def thereAndBack : List Input :=
  [.setPresenceMode true smoothEnv, .setPresenceMode false refusingEnv, .setPresenceMode false smoothEnv]

/-- The second of its calls sets the decoration and takes it off again. -/
theorem presence_transactional_iff_sample :
    (sampleTrace thereAndBack).map (fun e => (e.after.controller.mode, e.after.native.decorated)) =
      [(.presence, false), (.presence, false), (.companion, true)] ∧
    (∃ e ∈ sampleTrace thereAndBack, e.reply = some (.refused .windowMutationFailed)) ∧
    (∀ e ∈ sampleTrace thereAndBack, ¬ Overruns e.input) ∧ ∀ e ∈ sampleTrace thereAndBack, Transactional e := by
  obtain ⟨w, hrun⟩ : ∃ w, Run (World.start sampleNative) (sampleTrace thereAndBack) w := Run.ofInputs _ _
  have hno : ∀ e ∈ sampleTrace thereAndBack, ¬ Overruns e.input := by
    intro e he hover
    have hinput := input_of_mem_trace he
    simp only [thereAndBack, List.mem_cons, List.not_mem_nil, or_false] at hinput
    rcases hinput with hinput | hinput | hinput
    all_goals
      rw [hinput] at hover
      obtain ⟨_, hover⟩ := hover
      cases hover
  refine ⟨rfl, ⟨_, List.mem_cons_of_mem _ List.mem_cons_self, rfl⟩, hno, (presence_transactional_iff hrun hno).mpr
    (List.forall_mem_cons.mpr ⟨?_, List.forall_mem_cons.mpr ⟨?_, List.forall_mem_singleton.mpr ?_⟩⟩)⟩
  · exact orderly_of_smooth rfl rfl rfl
  · exact orderly_of_refused rfl ⟨by decide, rfl, rfl, rfl, rfl⟩ rfl
  · exact orderly_of_smooth rfl rfl rfl

/-- **A second call that fails gives the decoration back while the mode stays**, and a call that
timed out takes it away. -/
theorem failed_call_changes_window :
    (∃ e ∈ sampleTrace [.setPresenceMode true smoothEnv, .setPresenceMode true refusingEnv],
      e.reply = some (.refused .windowMutationFailed) ∧ e.before.controller.mode = .presence ∧
        e.after.controller.mode = .presence ∧ e.after.native.decorated = true ∧ ¬ Transactional e) ∧
      ∃ e ∈ sampleTrace [.setPresenceMode true slowEnv],
        e.reply = some (.refused .timeout) ∧ e.after.controller.mode = .companion ∧
          e.after.native.decorated = false ∧ ¬ Transactional e := by
  refine ⟨⟨_, List.mem_cons_of_mem _ List.mem_cons_self, rfl, rfl, rfl, rfl, fun h => ?_⟩,
    ⟨_, List.mem_cons_self, rfl, rfl, rfl, fun h => ?_⟩⟩
  · exact absurd (h.kept _ rfl).2 (by decide)
  · exact absurd (h.kept _ rfl).2 (by decide)

end Katherine.Desktop.Window
