import Katherine.Desktop.Presence

/-!
# Keeping the window on the screens

`reconcile_geometry` of `backend/desktop/app.py`, for `_on_window_moved` and `_on_screen_changed`: the window is read, clamped to the workareas, and moved or resized if that changes anything.
The window manager reports a move in its turn, and so asks for the next reconciliation. That the
two come to rest is `desk_settles`: what a clamp has produced lies inside one of the workareas, and
from there `clamp_of_within` takes it nowhere else, whatever the layout.
-/

namespace Katherine.Desktop.Window

open Runs

/-! ## What is read -/

/-- What a getter of the native window comes to. -/
inductive Reading
  | pair (a b : Int)
  /-- There is no such getter, or what it returns is no pair. -/
  | nothing
  | raises

/-- The window as `reconcile_geometry` finds it. -/
structure WindowView where
  /-- `get_position` and `get_size` of `window.native`. -/
  native : Option (Reading × Reading)
  x : Option Int
  y : Option Int
  /-- `window.width`, if that is an integer. -/
  width : Option Int
  height : Option Int
  canResize : Bool
  canMove : Bool

/-- The position is asked for if part of it is missing. -/
def WindowView.position (view : WindowView) (x y : Option Int) : Reading :=
  match view.native with
  | some (position, _) => if x.isNone || y.isNone then position else .nothing
  | none => .nothing

/-- The size is asked for unless asking for the position has raised. -/
def WindowView.size (view : WindowView) (x y : Option Int) : Reading :=
  match view.native, view.position x y with
  | _, .raises => .nothing
  | some (_, size), _ => size
  | none, _ => .nothing

/-- `(curr_x, curr_y, w, h)`. -/
def WindowView.currentRect (view : WindowView) (c : WindowController) (x y : Option Int) : TargetRect :=
  let (currX, currY) :=
    match view.position x y with
    | .pair a b => (some a, some b)
    | _ => (x, y)
  let (currW, currH) :=
    match view.size x y with
    | .pair a b => (a, b)
    | _ => (view.width.getD c.width, view.height.getD c.height)
  { x := currX.or view.x
    y := currY.or view.y
    width := if 0 < currW then currW else 200
    height := if 0 < currH then currH else 200 }

/-- Where the workareas come from. -/
structure Screens where
  /-- `_workareas` of the controller. -/
  configured : Option (List WorkArea)
  /-- What `_query_workareas_and_primary` returns. -/
  queried : List WorkArea × Int

/-- The workareas and the primary one that are taken. -/
def Screens.effective (screens : Screens) : List WorkArea × Int :=
  match screens.configured with
  | some workareas => (workareas, 0)
  | none => if screens.queried.1.isEmpty then ([], 0) else screens.queried

/-! ## What is done -/

/-- A call that is made on the window. -/
inductive Request
  | resize (width height : Int)
  | move (x y : Int)
deriving DecidableEq

inductive ReconcileReply
  /-- Not clamped: another reconciliation is going on. -/
  | inProgress
  | windowUnavailable
  /-- Not clamped: the window is not in presence mode. -/
  | otherMode (mode : Mode)
  /-- Not clamped: there was nothing to do. -/
  | unchanged (g : ClampedGeometry)
  | clamped (g : ClampedGeometry)
  | refused (code : FailureCode)
deriving DecidableEq

/-- The position and size that the reply names. -/
def ReconcileReply.produced : ReconcileReply → Option ClampedGeometry
  | .unchanged g => some g
  | .clamped g => some g
  | _ => none

/-- How the wait for the GUI thread ends. -/
inductive ReconcileDispatch
  | inTime
  /-- The timeout fires; the action may make its calls all the same. -/
  | late (runs : Bool)

/-- What one call of `reconcile_geometry` meets. -/
structure ReconcileEnv where
  window : Option WindowView
  screens : Screens
  fails : NativeCall → Bool
  dispatch : ReconcileDispatch

/-- What `_apply_reconcile` is to do, and what it goes back to. -/
structure Correction where
  clamped : ClampedGeometry
  needsMove : Bool
  needsResize : Bool
  original : TargetRect

def correction (curr : TargetRect) (clamped : ClampedGeometry) : Correction where
  clamped
  needsMove :=
    match curr.x, curr.y with
    | some x, some y => decide (clamped.x ≠ x ∨ clamped.y ≠ y)
    | _, _ => false
  needsResize := decide (clamped.width ≠ curr.width ∨ clamped.height ≠ curr.height)
  original := curr

/-- `_apply_reconcile`: the calls it makes, and whether it does not raise. Nothing is undone after a
move, which is the last of them. -/
def Correction.apply (k : Correction) (view : WindowView) (fails : NativeCall → Bool) :
    List Request × Bool :=
  let resizes := k.needsResize && view.canResize
  let moves := k.needsMove && view.canMove
  let resize := if resizes then [Request.resize k.clamped.width k.clamped.height] else []
  let move := if moves then [Request.move k.clamped.x k.clamped.y] else []
  if resizes && fails .resize then (resize, false)
  else if moves && fails .move then
    (resize ++ move ++
      (if resizes then [Request.resize k.original.width k.original.height] else []), false)
  else (resize ++ move, true)

/-- What the controller tracks, and `_is_reconciling`. -/
structure Reconciler where
  controller : WindowController
  reconciling : Bool

/-- The controller tracks this position and size. -/
def Reconciler.track (r : Reconciler) (g : ClampedGeometry) : Reconciler :=
  { r with controller :=
      { r.controller with x := some g.x, y := some g.y, width := g.width, height := g.height } }

/-- The controller tracks the position as it was read, and the clamped size. -/
def Reconciler.trackRead (r : Reconciler) (curr : TargetRect) (g : ClampedGeometry) : Reconciler :=
  { r with controller :=
      { r.controller with
        x := curr.x.or r.controller.x
        y := curr.y.or r.controller.y
        width := g.width
        height := g.height } }

/-- `reconcile_geometry`. While it waits for the GUI thread, another call finds `reconciling` set. -/
def Reconciler.reconcileGeometry (r : Reconciler) (x y : Option Int) (env : ReconcileEnv) :
    ReconcileReply × List Request × Reconciler :=
  if r.reconciling then (.inProgress, [], r)
  else
    match env.window with
    | none => (.windowUnavailable, [], r)
    | some view =>
        if r.controller.mode ≠ .presence then (.otherMode r.controller.mode, [], r)
        else
          let curr := view.currentRect r.controller x y
          let clamped := clampWindowGeometry curr env.screens.effective.1 env.screens.effective.2
            (120, 120)
          let k := correction curr clamped
          if !k.needsMove && !k.needsResize then (.unchanged clamped, [], r.trackRead curr clamped)
          else
            let done := k.apply view env.fails
            match env.dispatch with
            | .inTime =>
                if done.2 then (.clamped clamped, done.1, r.track clamped)
                else (.refused .windowMutationFailed, done.1, r)
            | .late runs => (.refused .timeout, if runs then done.1 else [], r)

/-! ## What it has produced stays -/

/-- Every workarea that is taken has room for the smallest window. -/
def Screens.Fit (screens : Screens) : Prop := ∀ wa ∈ screens.effective.1, wa.AtLeast (120, 120)

/-- The clamp of `reconcile_geometry`. -/
def Screens.clamp (screens : Screens) (curr : TargetRect) : ClampedGeometry :=
  clampWindowGeometry curr screens.effective.1 screens.effective.2 (120, 120)

/-- Without workareas it is the clamp to the one that stands in for them. -/
theorem clamp_nil (target : TargetRect) (primaryIndex : Int) (minSize : Int × Int) :
    clampWindowGeometry target [] primaryIndex minSize
      = clampWindowGeometry target [⟨0, 0, windowSize.1, windowSize.2⟩] primaryIndex minSize := rfl

/-- **Clamping what a clamp has produced changes nothing.** -/
theorem clamp_clamp {screens : Screens} (hfit : screens.Fit) (curr : TargetRect) :
    screens.clamp (screens.clamp curr).target = screens.clamp curr := by
  have hmin : 0 < ((120, 120) : Int × Int).1 ∧ 0 < ((120, 120) : Int × Int).2 := by decide
  unfold Screens.clamp
  by_cases h0 : screens.effective.1 = []
  · rw [h0, clamp_nil, clamp_nil]
    obtain ⟨hin, hsize⟩ := @clamp_within [⟨0, 0, windowSize.1, windowSize.2⟩] (120, 120)
      (List.cons_ne_nil _ _) (fun wa hwa => by
        rw [List.mem_singleton.mp hwa]
        exact ⟨by decide, by decide⟩) curr screens.effective.2
    exact clamp_of_within hmin hin hsize _
  · obtain ⟨hin, hsize⟩ := clamp_within h0 hfit curr screens.effective.2
    exact clamp_of_within hmin hin hsize _

section

variable {r : Reconciler} {x y : Option Int} {env : ReconcileEnv}

/-- **What a call that names a geometry has done.** -/
theorem produced_inv {g : ClampedGeometry} (h : (r.reconcileGeometry x y env).1.produced = some g) :
    r.reconciling = false ∧ r.controller.mode = .presence ∧
      (∃ curr, g = env.screens.clamp curr) ∧
      (r.reconcileGeometry x y env).2.2.reconciling = false ∧
      (r.reconcileGeometry x y env).2.2.controller.mode = .presence := by
  unfold Reconciler.reconcileGeometry at h ⊢
  split
  · rename_i hbusy
    rw [if_pos hbusy] at h
    cases h
  rename_i hidle
  rw [if_neg hidle] at h
  have hreconciling := Bool.eq_false_iff.mpr hidle
  split
  · rename_i hwindow
    simp only [hwindow] at h
    cases h
  rename_i view hwindow
  simp only [hwindow] at h
  split
  · rename_i hmode
    rw [if_pos hmode] at h
    cases h
  rename_i hpresence
  rw [if_neg hpresence] at h
  have hmode := not_not.mp hpresence
  refine ⟨hreconciling, hmode, ⟨view.currentRect r.controller x y, ?_⟩, ?_⟩
  · split at h
    · cases h
      rfl
    · split at h
      · split at h
        · cases h
          rfl
        · cases h
      · cases h
  · dsimp only
    split
    · exact ⟨hreconciling, hmode⟩
    · split
      · split
        · exact ⟨hreconciling, hmode⟩
        · exact ⟨hreconciling, hmode⟩
      · exact ⟨hreconciling, hmode⟩

/-- **A window that stands where it is clamped to is left alone.** -/
theorem reconcile_of_fixed (hidle : r.reconciling = false) (hmode : r.controller.mode = .presence)
    {view : WindowView} (hwindow : env.window = some view) {g : ClampedGeometry}
    (hcurr : view.currentRect r.controller x y = g.target) (hfixed : env.screens.clamp g.target = g) :
    r.reconcileGeometry x y env = (.unchanged g, [], r.track g) := by
  have hk : (correction g.target g).needsMove = false ∧ (correction g.target g).needsResize = false := by
    constructor <;> simp [correction, ClampedGeometry.target]
  unfold Screens.clamp at hfixed
  simp only [Reconciler.reconcileGeometry, hidle, Bool.false_eq_true, if_false, hwindow, hmode,
    ne_eq, not_true_eq_false, hcurr, hfixed, hk, Bool.not_false, Bool.and_self, if_true]
  rfl

end

/-! ## The window manager reports each move -/

/-- The controller, and the window where the window manager has put it. -/
structure Desk where
  reconciler : Reconciler
  rect : ClampedGeometry

/-- The window manager does what it is asked to. -/
def Request.obey (rect : ClampedGeometry) : Request → ClampedGeometry
  | .resize width height => { rect with width, height }
  | .move x y => { rect with x, y }

/-- The window reads as it stands, and takes every call. -/
def Desk.env (screens : Screens) (d : Desk) : ReconcileEnv where
  window := some
    { native := some (.pair d.rect.x d.rect.y, .pair d.rect.width d.rect.height)
      x := none
      y := none
      width := none
      height := none
      canResize := true
      canMove := true }
  screens
  fails := fun _ => false
  dispatch := .inTime

/-- A move is reported with the position, or the screens have changed and nothing is. -/
def deskStep (screens : Screens) (reported : Bool) (d : Desk) :
    (ReconcileReply × List Request) × Desk :=
  let done := d.reconciler.reconcileGeometry (if reported then some d.rect.x else none)
    (if reported then some d.rect.y else none) (d.env screens)
  ((done.1, done.2.1), ⟨done.2.2, done.2.1.foldl Request.obey d.rect⟩)

theorem desk_reads (screens : Screens) (d : Desk) (reported : Bool) (c : WindowController)
    (hsize : 0 < d.rect.width ∧ 0 < d.rect.height) {view : WindowView}
    (hview : (d.env screens).window = some view) :
    view.currentRect c (if reported then some d.rect.x else none) (if reported then some d.rect.y else none)
      = d.rect.target := by
  cases hview
  cases reported <;>
    simp [WindowView.currentRect, WindowView.position, WindowView.size, ClampedGeometry.target, hsize]

section

variable {screens : Screens}

/-- The window stands where clamping leaves it. -/
structure AtRest (screens : Screens) (d : Desk) : Prop where
  idle : d.reconciler.reconciling = false
  presence : d.reconciler.controller.mode = .presence
  positive : 0 < d.rect.width ∧ 0 < d.rect.height
  fixed : screens.clamp d.rect.target = d.rect

/-- **At rest nothing is asked of the window.** -/
theorem atRest_step {d : Desk} (h : AtRest screens d) (reported : Bool) :
    deskStep screens reported d = ((.unchanged d.rect, []), ⟨d.reconciler.track d.rect, d.rect⟩) := by
  have hdone := @reconcile_of_fixed _ _ _ (d.env screens) h.idle h.presence _ rfl _
    (desk_reads screens d reported d.reconciler.controller h.positive rfl) h.fixed
  rw [deskStep, hdone]
  rfl

theorem atRest_kept {e : Event (deskStep screens)} (h : AtRest screens e.before) :
    e.reply = (.unchanged e.before.rect, []) ∧ AtRest screens e.after := by
  have hexec := e.executed
  rw [atRest_step h] at hexec
  obtain ⟨hreply, hafter⟩ := Prod.mk.inj hexec
  refine ⟨hreply.symm, ?_⟩
  rw [← hafter]
  exact ⟨h.idle, h.presence, h.positive, h.fixed⟩

theorem clamp_positive (hfit : screens.Fit) (curr : TargetRect) :
    0 < (screens.clamp curr).width ∧ 0 < (screens.clamp curr).height := by
  have hsize : (screens.clamp curr).AtLeast (120, 120) := by
    unfold Screens.clamp
    by_cases h0 : screens.effective.1 = []
    · rw [h0, clamp_nil]
      exact (clamp_within (List.cons_ne_nil _ _) (fun wa hwa => by
        rw [List.mem_singleton.mp hwa]
        exact ⟨by decide, by decide⟩) curr _).2
    · exact (clamp_within h0 hfit curr _).2
  exact ⟨lt_of_lt_of_le (by decide) hsize.1, lt_of_lt_of_le (by decide) hsize.2⟩

/-- The calls of a correction when none is refused. -/
def Correction.calls (k : Correction) : List Request :=
  (if k.needsResize then [.resize k.clamped.width k.clamped.height] else []) ++
    if k.needsMove then [.move k.clamped.x k.clamped.y] else []

theorem apply_eq_calls (k : Correction) {view : WindowView} (hresize : view.canResize = true)
    (hmove : view.canMove = true) : k.apply view (fun _ => false) = (k.calls, true) := by
  simp only [Correction.apply, Correction.calls, hresize, hmove, Bool.and_true, Bool.and_false,
    Bool.false_eq_true, if_false]

theorem correction_needsMove (rect g : ClampedGeometry) :
    (correction rect.target g).needsMove = decide (g.x ≠ rect.x ∨ g.y ≠ rect.y) := rfl

theorem correction_needsResize (rect g : ClampedGeometry) :
    (correction rect.target g).needsResize
      = decide (g.width ≠ rect.width ∨ g.height ≠ rect.height) := rfl

/-- **The calls of a correction put the window where it is to be.** -/
theorem obey_calls (rect g : ClampedGeometry) :
    (correction rect.target g).calls.foldl Request.obey rect = g := by
  have hresize : (if (correction rect.target g).needsResize then [Request.resize g.width g.height]
      else []).foldl Request.obey rect = { rect with width := g.width, height := g.height } := by
    rw [correction_needsResize]
    by_cases hsize : g.width ≠ rect.width ∨ g.height ≠ rect.height
    · rw [if_pos (decide_eq_true hsize)]
      rfl
    · obtain ⟨hw, hh⟩ := not_or.mp hsize
      rw [if_neg (by rw [decide_eq_true_eq]; exact hsize), not_not.mp hw, not_not.mp hh]
      rfl
  have hmove : (if (correction rect.target g).needsMove then [Request.move g.x g.y] else []).foldl
      Request.obey { rect with width := g.width, height := g.height } = g := by
    rw [correction_needsMove]
    by_cases hposition : g.x ≠ rect.x ∨ g.y ≠ rect.y
    · rw [if_pos (decide_eq_true hposition)]
      rfl
    · obtain ⟨hx, hy⟩ := not_or.mp hposition
      rw [if_neg (by rw [decide_eq_true_eq]; exact hposition), ← not_not.mp hx, ← not_not.mp hy]
      rfl
  rw [Correction.calls, List.foldl_append]
  exact (congrArg (fun at_ => List.foldl Request.obey at_ _) hresize).trans hmove

/-- A reconciliation that meets no refusal makes the calls of its correction, and is over. -/
theorem reconcile_calls {r : Reconciler} {x y : Option Int} {env : ReconcileEnv}
    (hidle : r.reconciling = false) (hmode : r.controller.mode = .presence) {view : WindowView}
    (hwindow : env.window = some view) (hresize : view.canResize = true) (hmove : view.canMove = true)
    (hfails : env.fails = fun _ => false) (hdispatch : env.dispatch = .inTime) {rect : ClampedGeometry}
    (hcurr : view.currentRect r.controller x y = rect.target) :
    ∃ reply c, c.mode = .presence ∧ r.reconcileGeometry x y env
      = (reply, (correction rect.target (env.screens.clamp rect.target)).calls, ⟨c, false⟩) := by
  obtain ⟨controller, reconciling⟩ := r
  dsimp only at hidle hmode hcurr
  subst hidle
  have hcalls := apply_eq_calls (correction rect.target (env.screens.clamp rect.target)) hresize hmove
  unfold Screens.clamp at hcalls ⊢
  simp only [Reconciler.reconcileGeometry, Bool.false_eq_true, if_false, hwindow, hmode, ne_eq,
    not_true_eq_false, hcurr, hfails, hdispatch, hcalls, if_true]
  split
  · rename_i hquiet
    obtain ⟨hstays, hkeeps⟩ := Bool.and_eq_true_iff.mp hquiet
    rw [Bool.not_eq_true'] at hstays hkeeps
    refine ⟨_, _, ?_, Prod.ext rfl (Prod.ext ?_ rfl)⟩
    · exact hmode
    · rw [Correction.calls, hstays, hkeeps]
      rfl
  · refine ⟨_, _, ?_, rfl⟩
    exact hmode

/-- **One reconciliation brings the window to rest.** -/
theorem atRest_of_step (hfit : screens.Fit) {d : Desk} (hidle : d.reconciler.reconciling = false)
    (hmode : d.reconciler.controller.mode = .presence) (hsize : 0 < d.rect.width ∧ 0 < d.rect.height)
    (reported : Bool) : AtRest screens (deskStep screens reported d).2 := by
  obtain ⟨reply, c, hc, hdone⟩ := @reconcile_calls _ _ _ (d.env screens) hidle hmode _ rfl rfl rfl rfl
    rfl _ (desk_reads screens d reported d.reconciler.controller hsize rfl)
  have hafter : (deskStep screens reported d).2 = ⟨⟨c, false⟩, screens.clamp d.rect.target⟩ := by
    rw [deskStep, hdone]
    exact congrArg (Desk.mk _) (obey_calls d.rect (screens.clamp d.rect.target))
  rw [hafter]
  exact ⟨rfl, hc, clamp_positive hfit d.rect.target, clamp_clamp hfit d.rect.target⟩

/-- **The window manager and the clamp come to rest**: after the first reconciliation of a run, none
asks anything of the window. -/
theorem desk_settles (hfit : screens.Fit) {d d' : Desk} (hidle : d.reconciler.reconciling = false)
    (hmode : d.reconciler.controller.mode = .presence) (hsize : 0 < d.rect.width ∧ 0 < d.rect.height)
    {e : Event (deskStep screens)} {es : List (Event (deskStep screens))} (hrun : Run d (e :: es) d') :
    ∀ e' ∈ es, e'.reply = (.unchanged e'.before.rect, []) := by
  obtain ⟨rfl, hrest⟩ := hrun.cons_inv
  have hfirst : AtRest screens e.after := by
    have hafter : e.after = (deskStep screens e.input e.before).2 := by rw [e.executed]
    rw [hafter]
    exact atRest_of_step hfit hidle hmode hsize e.input
  obtain ⟨-, hall⟩ := hrest.invariant hfirst fun e' _ h => (atRest_kept h).2
  exact fun e' he' => (atRest_kept (hall e' he').1).1

end

/-! ## Settling -/

/-- **Clamping puts the window on a screen and settles.** The result lies inside one of the workareas
and is large enough; a rectangle that does already is returned as it is, so clamping twice is clamping
once; and a reconciliation that finds the window where the last one has put it does nothing. The least
size is positive, as it is in every call: what has no area shares none with any screen. -/
theorem window_settles {minSize : Int × Int} (hmin : 0 < minSize.1 ∧ 0 < minSize.2)
    {workareas : List WorkArea} (h0 : workareas ≠ []) (hfit : ∀ wa ∈ workareas, wa.AtLeast minSize) :
    (∀ target primaryIndex,
      (∃ wa ∈ workareas, (clampWindowGeometry target workareas primaryIndex minSize).Within wa) ∧
        (clampWindowGeometry target workareas primaryIndex minSize).AtLeast minSize) ∧
    (∀ (g : ClampedGeometry) primaryIndex, (∃ wa ∈ workareas, g.Within wa) → g.AtLeast minSize →
      clampWindowGeometry g.target workareas primaryIndex minSize = g) ∧
    (∀ target primaryIndex primaryIndex',
      clampWindowGeometry (clampWindowGeometry target workareas primaryIndex minSize).target workareas
          primaryIndex' minSize
        = clampWindowGeometry target workareas primaryIndex minSize) ∧
    ∀ (r : Reconciler) x y (env : ReconcileEnv) g, env.screens.Fit →
      (r.reconcileGeometry x y env).1.produced = some g →
      ∀ x' y' (env' : ReconcileEnv) view, env'.screens = env.screens → env'.window = some view →
        view.currentRect (r.reconcileGeometry x y env).2.2.controller x' y' = g.target →
        (r.reconcileGeometry x y env).2.2.reconcileGeometry x' y' env'
          = (.unchanged g, [], (r.reconcileGeometry x y env).2.2.track g) := by
  refine ⟨clamp_within h0 hfit, fun g primaryIndex hin hsize => clamp_of_within hmin hin hsize _,
    fun target primaryIndex primaryIndex' => ?_, ?_⟩
  · obtain ⟨hin, hsize⟩ := clamp_within h0 hfit target primaryIndex
    exact clamp_of_within hmin hin hsize primaryIndex'
  · intro r x y env g hscreens hproduced x' y' env' view hsame hwindow hcurr
    obtain ⟨-, -, ⟨curr, hg⟩, hidle, hmode⟩ := produced_inv hproduced
    refine reconcile_of_fixed hidle hmode hwindow hcurr ?_
    rw [hsame, hg]
    exact clamp_clamp hscreens curr

/-- Two screens, the left one taller, that overlap. -/
def twoScreens : List WorkArea := [⟨-1920, 0, 2000, 1080⟩, ⟨0, 24, 1280, 776⟩]

/-- A window beyond the left edge. -/
def strayDesk : Desk := ⟨⟨{ WindowController.init with mode := .presence }, false⟩, ⟨-2000, 50, 200, 200⟩⟩

def strayScreens : Screens := ⟨some twoScreens, ([], 0)⟩

theorem window_settles_stray :
    (⟨-1920, 50, 200, 200⟩ : ClampedGeometry).AtLeast (120, 120) ∧
    clampWindowGeometry ⟨some (-1920), some 50, 200, 200⟩ twoScreens 1 (120, 120)
      = ⟨-1920, 50, 200, 200⟩ ∧
    ((deskStep strayScreens true strayDesk).2.reconciler.reconcileGeometry none none
        ((deskStep strayScreens true strayDesk).2.env strayScreens)).1
      = .unchanged ⟨-1920, 50, 200, 200⟩ := by
  have hfit : ∀ wa ∈ twoScreens, wa.AtLeast (120, 120) := by
    intro wa hwa
    rcases List.mem_cons.mp hwa with rfl | hwa
    · exact ⟨by decide, by decide⟩
    · rw [List.mem_singleton.mp hwa]
      exact ⟨by decide, by decide⟩
  obtain ⟨hwithin, hkept, htwice, hreconciled⟩ :=
    @window_settles (120, 120) ⟨by decide, by decide⟩ twoScreens (by decide) hfit
  have hclamp : clampWindowGeometry ⟨some (-2000), some 50, 200, 200⟩ twoScreens 0 (120, 120)
      = ⟨-1920, 50, 200, 200⟩ := by decide
  refine ⟨?_, ?_, ?_⟩
  · rw [← hclamp]
    exact (hwithin _ _).2
  · exact hkept ⟨-1920, 50, 200, 200⟩ 1
      ⟨_, List.mem_cons_self, ⟨by decide, by decide, by decide, by decide⟩⟩ ⟨by decide, by decide⟩
  · exact congrArg Prod.fst (hreconciled strayDesk.reconciler (some (-2000)) (some 50)
      (strayDesk.env strayScreens) ⟨-1920, 50, 200, 200⟩ hfit (by decide) none none
      ((deskStep strayScreens true strayDesk).2.env strayScreens) _ rfl rfl rfl)

end Katherine.Desktop.Window
