import Katherine.Lib.Runs
import Mathlib.Data.List.Nodup

/-!
# One clock and one pointer listener for all faces

The part of `frontend/src/vendor/bfce/core.js` that the faces of a page share: the animation
frame that `tick` runs in, the set `living` of the faces it steps, and the pointer listeners,
which are counted in `trackedFaces`.

Faces come and go, scroll in and out of the page, and are told to change, all in any order, and
the browser runs a frame when it likes. `faces_share` says that there is never a second frame
and never a second listener, that there is one as long as some face has a use for it, and that
no face is left standing in the middle of a movement.
-/

namespace Katherine.Desktop.Bfce

open Runs

/-! ## The page -/

/-- What `createFace` closes over, as far as the shared parts go. -/
structure Face where
  alive : Bool
  visible : Bool
  /-- `prefersReducedMotion()`, asked once. -/
  reduced : Bool
  track : Bool
  blink : Bool
  idle : Bool
  /-- A reaction runs, the gaze is held somewhere, or a spring has not come to rest. -/
  moving : Bool
  pointerTrackingAcquired : Bool
deriving DecidableEq

def Face.needsFrame (f : Face) : Bool :=
  !f.reduced && f.visible && (f.moving || f.track || f.blink || f.idle)

/-- `frame`: where the face is not visible it returns at once. -/
def Face.frame (f : Face) (moving : Bool) : Face := if f.visible then { f with moving } else f

/-- The options that a call of `set` gives. -/
structure Options where
  track : Option Bool
  blink : Option Bool
  idle : Option Bool

/-- `Object.assign(opt, options)`. -/
def Face.assign (f : Face) (options : Options) : Face :=
  { f with
    track := options.track.getD f.track
    blink := options.blink.getD f.blink
    idle := options.idle.getD f.idle }

/-- The variables of the module, and what it has asked of the browser. -/
structure Page where
  /-- In the order of their creation. -/
  faces : List Face
  listening : Bool
  trackedFaces : Nat
  /-- How many times the three listeners stand on the window. -/
  listeners : Nat
  /-- A `Set`, in the order of insertion. -/
  living : List Nat
  raf : Option Nat
  /-- The frames requested and not yet run. -/
  frames : List Nat
  /-- What the next request returns. -/
  handle : Nat
deriving DecidableEq

/-- The page before its first face. -/
def Page.empty : Page := ⟨[], false, 0, 0, [], none, [], 0⟩

namespace Page

def startListening (w : Page) : Page :=
  if w.listening then w else { w with listening := true, listeners := w.listeners + 1 }

/-- `stopListening?.()`; it is set while `listening` is. -/
def stopListening (w : Page) : Page :=
  if w.listening then { w with listening := false, listeners := w.listeners - 1 } else w

def acquirePointerTracking (w : Page) : Page :=
  ({ w with trackedFaces := w.trackedFaces + 1 } : Page).startListening

def releasePointerTracking (w : Page) : Page :=
  let w := { w with trackedFaces := w.trackedFaces - 1 }
  if w.trackedFaces = 0 then w.stopListening else w

/-- `raf = requestAnimationFrame(tick)`. -/
def requestFrame (w : Page) : Page :=
  { w with raf := some w.handle, frames := w.frames ++ [w.handle], handle := w.handle + 1 }

def join (w : Page) (i : Nat) : Page :=
  let w := { w with living := if i ∈ w.living then w.living else w.living ++ [i] }
  if w.raf = none then w.requestFrame else w

def leave (w : Page) (i : Nat) : Page :=
  let w := { w with living := w.living.filter (· ≠ i) }
  match w.raf with
  | some handle =>
      if w.living = [] then { w with raf := none, frames := w.frames.filter (· ≠ handle) } else w
  | none => w

def addFace (w : Page) (f : Face) : Page := { w with faces := w.faces ++ [f] }

def setFace (w : Page) (i : Nat) (f : Face) : Page := { w with faces := w.faces.set i f }

/-- The faces after a step of those in `living`. -/
def stepped (w : Page) (moving : Nat → Bool) : List Face :=
  w.faces.mapIdx fun i f => if i ∈ w.living then f.frame (moving i) else f

/-- `raf = living.size ? requestAnimationFrame(tick) : null`. -/
def requestNext (w : Page) : Page := if w.living = [] then { w with raf := none } else w.requestFrame

/-- `tick`, whose frame has been taken off the list. `moving` says which faces still move after
their step. -/
def tick (w : Page) (moving : Nat → Bool) : Page :=
  requestNext { w with
    faces := w.stepped moving
    living := w.living.filter fun i => ((w.stepped moving)[i]?).any Face.needsFrame }

/-! ## What can happen -/

inductive Move
  /-- `createFace`, up to its first frame. -/
  | create (reduced track blink idle moving : Bool)
  /-- `setExpression`, with a name from the table or another. -/
  | setExpression (i : Nat) (known moving : Bool)
  | react (i : Nat) (known force : Bool)
  | look (i : Nat)
  | set (i : Nat) (options : Options)
  /-- The observer reports. -/
  | observe (i : Nat) (isIntersecting moving : Bool)
  /-- The browser runs a frame that was requested. -/
  | frame (handle : Nat) (moving : Nat → Bool)
  | destroy (i : Nat)

def createFace (w : Page) (reduced track blink idle moving : Bool) : Page :=
  let f : Face := ⟨true, true, reduced, track, blink, idle, moving, track && !reduced⟩
  let i := w.faces.length
  let w := w.addFace f
  let w := if track && !reduced then w.acquirePointerTracking else w
  if !reduced && f.needsFrame then w.join i else w

def setExpression (w : Page) (i : Nat) (f : Face) (known moving : Bool) : Page :=
  if !f.alive || !known then w
  else
    let w := w.setFace i { f with moving }
    if f.reduced then w else if f.visible then w.join i else w

def react (w : Page) (i : Nat) (f : Face) (known force : Bool) : Page :=
  if !f.alive || !known || (f.reduced && !force) then w
  else
    let w := w.setFace i { f with moving := true }
    if !f.reduced && f.visible then w.join i else w

def look (w : Page) (i : Nat) (f : Face) : Page :=
  if !f.alive || f.reduced then w
  else
    let w := w.setFace i { f with moving := true }
    if f.visible then w.join i else w

/-- The pointer from now on, if `track` has changed. -/
def retrack (w : Page) (i : Nat) (f : Face) : Page :=
  let shouldTrack := f.track && !f.reduced
  if !f.pointerTrackingAcquired && shouldTrack then
    w.acquirePointerTracking.setFace i { f with pointerTrackingAcquired := true }
  else if f.pointerTrackingAcquired && !shouldTrack then
    w.releasePointerTracking.setFace i { f with pointerTrackingAcquired := false }
  else w.setFace i f

/-- `set`. -/
def setOptions (w : Page) (i : Nat) (f : Face) (options : Options) : Page :=
  if !f.alive then w
  else
    let f := f.assign options
    let w := w.retrack i f
    if !f.reduced && f.visible && (f.track || f.blink || f.idle) then w.join i else w

def observe (w : Page) (i : Nat) (f : Face) (isIntersecting moving : Bool) : Page :=
  if !f.alive || f.visible = isIntersecting then w
  else if isIntersecting then
    let f := { f with visible := true, moving }
    let w := w.setFace i f
    if f.needsFrame then w.join i else w
  else (w.setFace i { f with visible := false }).leave i

def destroy (w : Page) (i : Nat) (f : Face) : Page :=
  if !f.alive then w
  else
    let w := (w.setFace i { f with alive := false }).leave i
    if f.pointerTrackingAcquired then
      w.releasePointerTracking.setFace i { f with alive := false, pointerTrackingAcquired := false }
    else w

/-- A call on a face that was never made does nothing. -/
def onFace (w : Page) (i : Nat) (k : Face → Page) : Page :=
  match w.faces[i]? with
  | some f => k f
  | none => w

def step (move : Move) (w : Page) : Unit × Page :=
  ((), match move with
    | .create reduced track blink idle moving => w.createFace reduced track blink idle moving
    | .setExpression i known moving => w.onFace i fun f => w.setExpression i f known moving
    | .react i known force => w.onFace i fun f => w.react i f known force
    | .look i => w.onFace i fun f => w.look i f
    | .set i options => w.onFace i fun f => w.setOptions i f options
    | .observe i isIntersecting moving => w.onFace i fun f => w.observe i f isIntersecting moving
    | .frame handle moving =>
        if handle ∈ w.frames then ({ w with frames := w.frames.filter (· ≠ handle) } : Page).tick moving else w
    | .destroy i => w.onFace i fun f => w.destroy i f)

end Page

/-! ## The clock -/

/-- The face takes part in the animation. -/
def Face.shown (f : Face) : Bool := f.alive && f.visible && !f.reduced

/-- What the faces but `i` and the clock have to do with each other. -/
structure ClockBut (i : Nat) (w : Page) : Prop where
  once : w.living.Nodup
  shown : ∀ j ∈ w.living, j ≠ i → ∃ f, w.faces[j]? = some f ∧ f.shown = true
  moving : ∀ j f, w.faces[j]? = some f → j ≠ i → f.alive = true → f.needsFrame = true → j ∈ w.living
  frames : w.frames = w.raf.toList
  running : w.raf = none ↔ w.living = []

/-- Only faces that are shown are stepped, and all that need it; there is one frame on request as
long as there are any, and none otherwise. -/
structure Clock (w : Page) : Prop where
  once : w.living.Nodup
  shown : ∀ j ∈ w.living, ∃ f, w.faces[j]? = some f ∧ f.shown = true
  moving : ∀ j f, w.faces[j]? = some f → f.alive = true → f.needsFrame = true → j ∈ w.living
  frames : w.frames = w.raf.toList
  running : w.raf = none ↔ w.living = []

theorem shown_of_needsFrame {f : Face} (ha : f.alive = true) (h : f.needsFrame = true) : f.shown = true := by
  simp only [Face.needsFrame, Face.shown, Bool.and_eq_true] at h ⊢
  exact ⟨⟨ha, h.1.2⟩, h.1.1⟩

variable {w : Page} {i : Nat} {f : Face}

@[simp] theorem Face.frame_alive (f : Face) (moving : Bool) : (f.frame moving).alive = f.alive := by
  unfold Face.frame
  split <;> rfl

@[simp] theorem Face.frame_shown (f : Face) (moving : Bool) : (f.frame moving).shown = f.shown := by
  unfold Face.frame
  split <;> rfl

theorem getElem?_stepped (hf : w.faces[i]? = some f) (moving : Nat → Bool) :
    (w.stepped moving)[i]? = some (if i ∈ w.living then f.frame (moving i) else f) := by
  rw [Page.stepped, List.getElem?_mapIdx, hf]
  rfl

theorem Clock.but (h : Clock w) (i : Nat) : ClockBut i w where
  once := h.once
  shown j hj _ := h.shown j hj
  moving j f hf _ := h.moving j f hf
  frames := h.frames
  running := h.running

/-- Nothing but the face `i` has changed. -/
theorem ClockBut.setFace (h : ClockBut i w) (f : Face) : ClockBut i (w.setFace i f) := by
  have hother : ∀ j, j ≠ i → (w.faces.set i f)[j]? = w.faces[j]? := fun j hj =>
    List.getElem?_set_ne (fun h => hj h.symm)
  refine ⟨h.once, fun j hj hne => ?_, fun j g hg hne ha hneeds => ?_, h.frames, h.running⟩
  · obtain ⟨g, hg, hshown⟩ := h.shown j hj hne
    exact ⟨g, (hother j hne).trans hg, hshown⟩
  · exact h.moving j g ((hother j hne).symm.trans hg) hne ha hneeds

theorem ClockBut.join (h : ClockBut i w) (hf : w.faces[i]? = some f) (hshown : f.shown = true) :
    Clock (w.join i) := by
  have hliving : ∀ living, living = (if i ∈ w.living then w.living else w.living ++ [i]) →
      living.Nodup ∧ living ≠ [] ∧ ∀ j, j ∈ living ↔ j ∈ w.living ∨ j = i := by
    rintro living rfl
    by_cases hi : i ∈ w.living
    · rw [if_pos hi]
      refine ⟨h.once, List.ne_nil_of_mem hi, fun j => ⟨.inl, ?_⟩⟩
      rintro (hj | rfl)
      · exact hj
      · exact hi
    · rw [if_neg hi]
      refine ⟨List.nodup_append.mpr ⟨h.once, List.nodup_singleton i, ?_⟩, by simp, by simp⟩
      rintro x hx y hy rfl
      rw [List.mem_singleton] at hy
      exact hi (hy ▸ hx)
  obtain ⟨honce, hne, hmem⟩ := hliving _ rfl
  have hshown' : ∀ j ∈ (if i ∈ w.living then w.living else w.living ++ [i]),
      ∃ f, w.faces[j]? = some f ∧ f.shown = true := by
    intro j hj
    by_cases hji : j = i
    · subst hji
      exact ⟨f, hf, hshown⟩
    · exact h.shown j (((hmem j).mp hj).resolve_right hji) hji
  have hmoving : ∀ j g, w.faces[j]? = some g → g.alive = true → g.needsFrame = true →
      j ∈ (if i ∈ w.living then w.living else w.living ++ [i]) := by
    intro j g hg ha hneeds
    by_cases hji : j = i
    · exact (hmem j).mpr (.inr hji)
    · exact (hmem j).mpr (.inl (h.moving j g hg hji ha hneeds))
  unfold Page.join
  by_cases hraf : w.raf = none
  · -- the first face to move
    rw [if_pos hraf]
    refine ⟨honce, hshown', hmoving, ?_, ?_⟩
    · show w.frames ++ [w.handle] = [w.handle]
      rw [h.frames, hraf]
      rfl
    · exact iff_of_false (fun h => by cases h) hne
  · rw [if_neg hraf]
    exact ⟨honce, hshown', hmoving, h.frames, iff_of_false hraf hne⟩

theorem ClockBut.leave (h : ClockBut i w)
    (hstill : ∀ f, w.faces[i]? = some f → f.alive = true → f.needsFrame = false) : Clock (w.leave i) := by
  have hmem : ∀ j, j ∈ w.living.filter (· ≠ i) ↔ j ∈ w.living ∧ j ≠ i := by simp
  have honce := h.once.filter (· ≠ i)
  have hshown : ∀ j ∈ w.living.filter (· ≠ i), ∃ f, w.faces[j]? = some f ∧ f.shown = true := fun j hj =>
    h.shown j ((hmem j).mp hj).1 ((hmem j).mp hj).2
  have hmoving : ∀ j g, w.faces[j]? = some g → g.alive = true → g.needsFrame = true →
      j ∈ w.living.filter (· ≠ i) := by
    intro j g hg ha hneeds
    refine (hmem j).mpr ?_
    by_cases hji : j = i
    · subst hji
      rw [hstill g hg ha] at hneeds
      cases hneeds
    · exact ⟨h.moving j g hg hji ha hneeds, hji⟩
  unfold Page.leave
  cases hraf : w.raf with
  | none =>
      have hnil := h.running.mp hraf
      exact ⟨honce, hshown, hmoving, h.frames.trans (congrArg _ hraf),
        iff_of_true rfl (congrArg (List.filter _) hnil)⟩
  | some handle =>
      simp only
      by_cases hnil : w.living.filter (· ≠ i) = []
      · -- the last one: its frame is cancelled
        rw [if_pos hnil]
        refine ⟨honce, hshown, hmoving, ?_, iff_of_true rfl hnil⟩
        show w.frames.filter (· ≠ handle) = []
        rw [h.frames, hraf]
        simp
      · rw [if_neg hnil]
        exact ⟨honce, hshown, hmoving, h.frames.trans (congrArg _ hraf), iff_of_false (fun h => by cases h) hnil⟩

/-- The face `i` is as it should be without a change of the clock. -/
theorem ClockBut.rest (h : ClockBut i w)
    (hshown : i ∈ w.living → ∃ f, w.faces[i]? = some f ∧ f.shown = true)
    (hmoving : ∀ f, w.faces[i]? = some f → f.alive = true → f.needsFrame = true → i ∈ w.living) : Clock w where
  once := h.once
  shown j hj := by
    by_cases hji : j = i
    · exact hji ▸ hshown (hji ▸ hj)
    · exact h.shown j hj hji
  moving j f hf := by
    by_cases hji : j = i
    · subst hji
      exact hmoving f hf
    · exact h.moving j f hf hji
  frames := h.frames
  running := h.running

/-- The frame has run: there is another one if it takes one. -/
theorem clock_requestNext (honce : w.living.Nodup)
    (hshown : ∀ j ∈ w.living, ∃ f, w.faces[j]? = some f ∧ f.shown = true)
    (hmoving : ∀ j f, w.faces[j]? = some f → f.alive = true → f.needsFrame = true → j ∈ w.living)
    (hframes : w.frames = []) : Clock w.requestNext := by
  unfold Page.requestNext
  split
  · rename_i hnil
    exact ⟨honce, hshown, hmoving, hframes, iff_of_true rfl hnil⟩
  · rename_i hne
    refine ⟨honce, hshown, hmoving, ?_, iff_of_false (fun h => by cases h) hne⟩
    show w.frames ++ [w.handle] = [w.handle]
    rw [hframes]
    rfl

theorem clock_tick (h : Clock w) {handle : Nat} (hframe : handle ∈ w.frames) (moving : Nat → Bool) :
    Clock (({ w with frames := w.frames.filter (· ≠ handle) } : Page).tick moving) := by
  have hnone : w.frames.filter (· ≠ handle) = [] := by
    rw [h.frames, Option.mem_toList] at hframe
    rw [h.frames, hframe]
    simp
  have hliving : ∀ i, i ∈ w.living.filter (fun i => ((w.stepped moving)[i]?).any Face.needsFrame) ↔
      i ∈ w.living ∧ ∃ f, (w.stepped moving)[i]? = some f ∧ f.needsFrame = true := by
    intro i
    rw [List.mem_filter, Option.any_eq_true]
  have hshown : ∀ i ∈ w.living.filter (fun i => ((w.stepped moving)[i]?).any Face.needsFrame),
      ∃ f, (w.stepped moving)[i]? = some f ∧ f.shown = true := by
    intro i hi
    obtain ⟨f, hf, hshown⟩ := h.shown i ((hliving i).mp hi).1
    exact ⟨_, getElem?_stepped hf moving, by rw [if_pos ((hliving i).mp hi).1, Face.frame_shown, hshown]⟩
  have hmoving : ∀ i f, (w.stepped moving)[i]? = some f → f.alive = true → f.needsFrame = true →
      i ∈ w.living.filter (fun i => ((w.stepped moving)[i]?).any Face.needsFrame) := by
    intro i f hf ha hneeds
    refine (hliving i).mpr ⟨?_, f, hf, hneeds⟩
    -- a face that was not stepped is as it was
    by_contra hi
    obtain ⟨g, hg⟩ : ∃ g, w.faces[i]? = some g := by
      cases hg : w.faces[i]? with
      | some g => exact ⟨g, rfl⟩
      | none =>
          rw [Page.stepped, List.getElem?_mapIdx, hg] at hf
          cases hf
    have hsame := getElem?_stepped hg moving
    rw [if_neg hi, hf] at hsame
    cases hsame
    exact hi (h.moving i f hg ha hneeds)
  have honce := h.once.filter fun i => ((w.stepped moving)[i]?).any Face.needsFrame
  exact clock_requestNext honce hshown hmoving hnone

/-- The clock has nothing to do with the pointer. -/
theorem Clock.congr {w' : Page} (h : Clock w) (hfaces : w'.faces = w.faces) (hliving : w'.living = w.living)
    (hraf : w'.raf = w.raf) (hframes : w'.frames = w.frames) : Clock w' where
  once := by rw [hliving]; exact h.once
  shown := by rw [hliving, hfaces]; exact h.shown
  moving := by rw [hliving, hfaces]; exact h.moving
  frames := by rw [hframes, hraf]; exact h.frames
  running := by rw [hliving, hraf]; exact h.running

theorem Clock.acquire (h : Clock w) : Clock w.acquirePointerTracking := by
  unfold Page.acquirePointerTracking Page.startListening
  split <;> exact h.congr rfl rfl rfl rfl

theorem Clock.release (h : Clock w) : Clock w.releasePointerTracking := by
  unfold Page.releasePointerTracking Page.stopListening
  dsimp only
  split
  · split <;> exact h.congr rfl rfl rfl rfl
  · exact h.congr rfl rfl rfl rfl

theorem faces_acquire (w : Page) : w.acquirePointerTracking.faces = w.faces := by
  unfold Page.acquirePointerTracking Page.startListening
  split <;> rfl

theorem faces_release (w : Page) : w.releasePointerTracking.faces = w.faces := by
  unfold Page.releasePointerTracking Page.stopListening
  dsimp only
  split
  · split <;> rfl
  · rfl

theorem faces_leave (w : Page) (i : Nat) : (w.leave i).faces = w.faces := by
  unfold Page.leave
  dsimp only
  split
  · split <;> rfl
  · rfl

/-- The face in the place `i` of a page where it has been set. -/
theorem getElem?_setFace (hf : w.faces[i]? = some f) (f' : Face) : (w.setFace i f').faces[i]? = some f' := by
  obtain ⟨hlt, -⟩ := List.getElem?_eq_some_iff.mp hf
  exact List.getElem?_set_self hlt

/-- A face changes that is shown, and is joined. -/
theorem Clock.joins (h : Clock w) (hf : w.faces[i]? = some f) {f' : Face} (hshown : f'.shown = true) :
    Clock ((w.setFace i f').join i) :=
  ((h.but i).setFace f').join (getElem?_setFace hf f') hshown

/-- A face changes, but takes part no more and no less, and needs no frame that it did not need. -/
theorem Clock.keeps (h : Clock w) (hf : w.faces[i]? = some f) {f' : Face} (hshown : f'.shown = f.shown)
    (hneeds : f'.alive = true → f'.needsFrame = true → f.alive = true ∧ f.needsFrame = true) :
    Clock (w.setFace i f') := by
  have hget := getElem?_setFace hf f'
  refine ((h.but i).setFace f').rest (fun hi => ⟨f', hget, ?_⟩) fun g hg ha hneeds' => ?_
  · obtain ⟨g, hg, hgshown⟩ := h.shown i hi
    rw [hf] at hg
    cases hg
    rw [hshown, hgshown]
  · rw [hget] at hg
    cases hg
    obtain ⟨ha', hneeds'⟩ := hneeds ha hneeds'
    exact h.moving i f hf ha' hneeds'

/-- The same for one that is not shown. -/
theorem Clock.hidden (h : Clock w) (hf : w.faces[i]? = some f) {f' : Face} (hshown : f'.shown = f.shown)
    (hhidden : f'.shown = false) : Clock (w.setFace i f') :=
  h.keeps hf hshown fun ha hneeds => by
    rw [shown_of_needsFrame ha hneeds] at hhidden
    cases hhidden

/-- A new face, which is not stepped yet. -/
theorem Clock.adds (h : Clock w) (f : Face) : ClockBut w.faces.length (w.addFace f) ∧ w.faces.length ∉ w.living := by
  have hold : ∀ j, j ≠ w.faces.length → (w.faces ++ [f])[j]? = w.faces[j]? := by
    intro j hj
    by_cases hlt : j < w.faces.length
    · exact List.getElem?_append_left hlt
    · rw [List.getElem?_eq_none (by rw [List.length_append, List.length_singleton]; omega),
        List.getElem?_eq_none (by omega)]
  refine ⟨⟨h.once, fun j hj hne => ?_, fun j g hg hne ha hneeds => ?_, h.frames, h.running⟩, fun hmem => ?_⟩
  · obtain ⟨g, hg, hshown⟩ := h.shown j hj
    exact ⟨g, (hold j hne).trans hg, hshown⟩
  · exact h.moving j g ((hold j hne).symm.trans hg) ha hneeds
  · obtain ⟨g, hg, -⟩ := h.shown _ hmem
    rw [List.getElem?_eq_none (Nat.le_refl _)] at hg
    cases hg

theorem acquire_addFace (w : Page) (f : Face) :
    (w.addFace f).acquirePointerTracking = w.acquirePointerTracking.addFace f := by
  unfold Page.acquirePointerTracking Page.startListening Page.addFace
  dsimp only
  split <;> rfl

theorem clock_create (h : Clock w) (reduced track blink idle moving : Bool) :
    Clock (w.createFace reduced track blink idle moving) := by
  -- whether the pointer is listened to makes no difference
  have hcreate : ∀ {w : Page} {f : Face}, Clock w → f.shown = !f.reduced →
      Clock (if !f.reduced && f.needsFrame then (w.addFace f).join w.faces.length else w.addFace f) := by
    intro w f h hshown
    obtain ⟨hbut, hnot⟩ := h.adds f
    have hget : (w.addFace f).faces[w.faces.length]? = some f := List.getElem?_concat_length
    by_cases hneeds : (!f.reduced && f.needsFrame) = true
    · rw [if_pos hneeds]
      rw [Bool.and_eq_true] at hneeds
      exact hbut.join hget (hshown.trans hneeds.1)
    · rw [if_neg hneeds]
      refine hbut.rest (fun hi => absurd hi hnot) fun g hg ha hneeds' => ?_
      rw [hget] at hg
      cases hg
      have := shown_of_needsFrame ha hneeds'
      rw [hshown] at this
      exact absurd (Bool.and_eq_true _ _ ▸ ⟨this, hneeds'⟩) hneeds
  unfold Page.createFace
  dsimp only
  by_cases htrack : (track && !reduced) = true
  · rw [if_pos htrack, acquire_addFace, ← faces_acquire w]
    exact hcreate (f := ⟨true, true, reduced, track, blink, idle, moving, track && !reduced⟩) h.acquire rfl
  · rw [if_neg htrack]
    exact hcreate (f := ⟨true, true, reduced, track, blink, idle, moving, track && !reduced⟩) h rfl

theorem clock_setOptions (h : Clock w) (hf : w.faces[i]? = some f) (options : Options) :
    Clock (w.setOptions i f options) := by
  -- whatever becomes of the pointer, the face has new options and is joined if one of them is set
  have hset : ∀ (w : Page) (f' : Face), Clock w → w.faces[i]? = some f → f.alive = true →
      f'.alive = f.alive → f'.visible = f.visible → f'.reduced = f.reduced → f'.moving = f.moving →
      Clock (if !f'.reduced && f'.visible && (f'.track || f'.blink || f'.idle) then (w.setFace i f').join i
        else w.setFace i f') := by
    intro w f' h hf ha halive hvisible hreduced hmoving
    have hshown : f'.shown = f.shown := by rw [Face.shown, halive, hvisible, hreduced, Face.shown]
    by_cases hwants : (!f'.reduced && f'.visible && (f'.track || f'.blink || f'.idle)) = true
    · rw [if_pos hwants]
      rw [Bool.and_eq_true, Bool.and_eq_true] at hwants
      exact h.joins hf (by rw [Face.shown, halive, ha, hwants.1.1, hwants.1.2]; rfl)
    · rw [if_neg hwants]
      refine h.keeps hf hshown fun _ hneeds => ⟨ha, ?_⟩
      -- what it still needs a frame for is that it moves
      simp only [Face.needsFrame, Bool.and_eq_true, Bool.or_eq_true] at hneeds hwants ⊢
      have hmove : f'.moving = true := by
        by_contra hnot
        exact hwants ⟨hneeds.1, by simpa [hnot, or_assoc] using hneeds.2⟩
      rw [← hreduced, ← hvisible, ← hmoving]
      exact ⟨hneeds.1, .inl (.inl (.inl hmove))⟩
  unfold Page.setOptions Page.retrack
  by_cases ha : f.alive = true
  · rw [if_neg (by rw [ha]; exact Bool.false_ne_true)]
    have hsame : (f.assign options).alive = f.alive ∧ (f.assign options).visible = f.visible ∧
        (f.assign options).reduced = f.reduced ∧ (f.assign options).moving = f.moving := ⟨rfl, rfl, rfl, rfl⟩
    generalize f.assign options = f' at hsame
    obtain ⟨halive, hvisible, hreduced, hmoving⟩ := hsame
    dsimp only
    by_cases hacquire : (!f'.pointerTrackingAcquired && (f'.track && !f'.reduced)) = true
    · rw [if_pos hacquire]
      exact hset _ { f' with pointerTrackingAcquired := true } h.acquire (by rw [faces_acquire]; exact hf) ha
        halive hvisible hreduced hmoving
    · rw [if_neg hacquire]
      by_cases hrelease : (f'.pointerTrackingAcquired && !(f'.track && !f'.reduced)) = true
      · rw [if_pos hrelease]
        exact hset _ { f' with pointerTrackingAcquired := false } h.release (by rw [faces_release]; exact hf) ha
          halive hvisible hreduced hmoving
      · rw [if_neg hrelease]
        exact hset _ f' h hf ha halive hvisible hreduced hmoving
  · rw [if_pos (by simpa using ha)]
    exact h

theorem clock_step (h : Clock w) (move : Page.Move) : Clock (Page.step move w).2 := by
  have hface : ∀ {i : Nat} {k : Face → Page}, (∀ f, w.faces[i]? = some f → Clock (k f)) → Clock (w.onFace i k) := by
    intro i k hk
    unfold Page.onFace
    split
    · rename_i f hf
      exact hk f hf
    · exact h
  cases move with
  | create reduced track blink idle moving => exact clock_create h reduced track blink idle moving
  | setExpression i known moving =>
      refine hface fun f hf => ?_
      unfold Page.setExpression
      dsimp only
      split
      · exact h
      · rename_i hcond
        simp only [Bool.or_eq_true, Bool.not_eq_true', not_or, Bool.not_eq_false] at hcond
        split
        · rename_i hreduced
          exact h.hidden hf rfl (by simp [Face.shown, hreduced])
        · rename_i hreduced
          split
          · rename_i hvisible
            exact h.joins hf (by simp [Face.shown, hcond.1, hreduced, hvisible])
          · rename_i hvisible
            exact h.hidden hf rfl (by simp [Face.shown, hvisible])
  | react i known force =>
      refine hface fun f hf => ?_
      unfold Page.react
      dsimp only
      split
      · exact h
      · rename_i hcond
        simp only [Bool.or_eq_true, Bool.not_eq_true', not_or, Bool.not_eq_false] at hcond
        split
        · rename_i hshown
          exact h.joins hf (by simpa [Face.shown, hcond.1.1, and_comm] using hshown)
        · rename_i hshown
          exact h.hidden hf rfl (by simpa [Face.shown, hcond.1.1, Bool.and_comm] using hshown)
  | look i =>
      refine hface fun f hf => ?_
      unfold Page.look
      dsimp only
      split
      · exact h
      · rename_i hcond
        simp only [Bool.or_eq_true, Bool.not_eq_true', not_or, Bool.not_eq_false] at hcond
        split
        · rename_i hvisible
          exact h.joins hf (by simp [Face.shown, hcond.1, hcond.2, hvisible])
        · rename_i hvisible
          exact h.hidden hf rfl (by simp [Face.shown, hvisible])
  | set i options => exact hface fun f hf => clock_setOptions h hf options
  | observe i isIntersecting moving =>
      refine hface fun f hf => ?_
      unfold Page.observe
      dsimp only
      split
      · exact h
      · rename_i hcond
        simp only [Bool.or_eq_true, Bool.not_eq_true', decide_eq_true_eq, not_or, Bool.not_eq_false] at hcond
        split
        · rename_i hin
          -- it was not visible, so it was not stepped
          have hhidden : f.shown = false := by simp [Face.shown, show f.visible = false by simpa [hin] using hcond.2]
          have hnot : i ∉ w.living := fun hi => by
            obtain ⟨g, hg, hshown⟩ := h.shown i hi
            rw [hf] at hg
            cases hg
            rw [hhidden] at hshown
            cases hshown
          split
          · rename_i hneeds
            exact h.joins hf (shown_of_needsFrame hcond.1 hneeds)
          · rename_i hneeds
            refine ((h.but i).setFace _).rest (fun hi => absurd hi hnot) fun g hg ha hneeds' => ?_
            rw [getElem?_setFace hf] at hg
            cases hg
            exact absurd hneeds' hneeds
        · refine ((h.but i).setFace _).leave fun g hg ha => ?_
          rw [getElem?_setFace hf] at hg
          cases hg
          simp [Face.needsFrame]
  | frame handle moving =>
      show Clock (if handle ∈ w.frames then _ else w)
      split
      · rename_i hframe
        exact clock_tick h hframe moving
      · exact h
  | destroy i =>
      refine hface fun f hf => ?_
      unfold Page.destroy
      dsimp only
      split
      · exact h
      · have hleave : Clock ((w.setFace i { f with alive := false }).leave i) := by
          refine ((h.but i).setFace _).leave fun g hg ha => ?_
          rw [getElem?_setFace hf] at hg
          cases hg
          cases ha
        split
        · have hget : ((w.setFace i { f with alive := false }).leave i).faces[i]? = some { f with alive := false } := by
            rw [faces_leave]
            exact getElem?_setFace hf _
          exact hleave.release.hidden (f := { f with alive := false }) (by rw [faces_release]; exact hget) rfl rfl
        · exact hleave

/-! ## The pointer -/

/-- A face is counted while it is alive and follows the pointer; the listeners stand on the window
while any is counted, and only once. -/
structure Pointer (w : Page) : Prop where
  acquired : ∀ f ∈ w.faces, f.pointerTrackingAcquired = (f.alive && f.track && !f.reduced)
  tracked : w.trackedFaces = w.faces.countP (·.pointerTrackingAcquired)
  listening : w.listening = decide (0 < w.trackedFaces)
  listeners : w.listeners = if w.listening then 1 else 0

/-- The pointer has nothing to do with the clock. -/
theorem Pointer.congr {w' : Page} (h : Pointer w) (hfaces : w'.faces = w.faces)
    (htracked : w'.trackedFaces = w.trackedFaces) (hlistening : w'.listening = w.listening)
    (hlisteners : w'.listeners = w.listeners) : Pointer w' where
  acquired := by rw [hfaces]; exact h.acquired
  tracked := by rw [htracked, hfaces]; exact h.tracked
  listening := by rw [hlistening, htracked]; exact h.listening
  listeners := by rw [hlisteners, hlistening]; exact h.listeners

theorem Pointer.join (h : Pointer w) (i : Nat) : Pointer (w.join i) := by
  unfold Page.join
  dsimp only
  split <;> exact h.congr rfl rfl rfl rfl

theorem Pointer.leave (h : Pointer w) (i : Nat) : Pointer (w.leave i) := by
  unfold Page.leave
  dsimp only
  split
  · split <;> exact h.congr rfl rfl rfl rfl
  · exact h.congr rfl rfl rfl rfl

theorem Pointer.acquired_set (h : Pointer w) (i : Nat) {f' : Face}
    (hf' : f'.pointerTrackingAcquired = (f'.alive && f'.track && !f'.reduced)) :
    ∀ g ∈ w.faces.set i f', g.pointerTrackingAcquired = (g.alive && g.track && !g.reduced) := by
  intro g hg
  obtain hg | rfl := List.mem_or_eq_of_mem_set hg
  · exact h.acquired g hg
  · exact hf'

theorem countP_set_acquired (hf : w.faces[i]? = some f) (f' : Face) :
    (w.faces.set i f').countP (·.pointerTrackingAcquired) + (if f.pointerTrackingAcquired then 1 else 0) =
      w.faces.countP (·.pointerTrackingAcquired) + (if f'.pointerTrackingAcquired then 1 else 0) := by
  obtain ⟨hlt, hget⟩ := List.getElem?_eq_some_iff.mp hf
  rw [List.countP_set hlt, hget]
  by_cases hacquired : f.pointerTrackingAcquired = true
  · have hpos : 0 < w.faces.countP (·.pointerTrackingAcquired) :=
      List.countP_pos_iff.mpr ⟨f, List.mem_of_getElem? hf, hacquired⟩
    rw [if_pos hacquired]
    omega
  · rw [if_neg hacquired]
    omega

/-- A face changes, but is counted as before. -/
theorem Pointer.keeps (h : Pointer w) (hf : w.faces[i]? = some f) {f' : Face}
    (hsame : f'.pointerTrackingAcquired = f.pointerTrackingAcquired)
    (hf' : f'.pointerTrackingAcquired = (f'.alive && f'.track && !f'.reduced)) : Pointer (w.setFace i f') := by
  refine ⟨h.acquired_set i hf', ?_, h.listening, h.listeners⟩
  have hcount := countP_set_acquired hf f'
  rw [hsame, ← h.tracked] at hcount
  exact (Nat.add_right_cancel hcount).symm

theorem Pointer.acquires (h : Pointer w) (hf : w.faces[i]? = some f) {f' : Face}
    (hold : f.pointerTrackingAcquired = false) (hnew : f'.pointerTrackingAcquired = true)
    (hf' : f'.pointerTrackingAcquired = (f'.alive && f'.track && !f'.reduced)) :
    Pointer (w.acquirePointerTracking.setFace i f') := by
  have hcount := countP_set_acquired hf f'
  rw [hold, hnew, ← h.tracked] at hcount
  unfold Page.acquirePointerTracking Page.startListening Page.setFace
  dsimp only
  split
  · rename_i hlistening
    exact ⟨h.acquired_set i hf', hcount.symm, hlistening.trans (by simp), h.listeners⟩
  · rename_i hlistening
    refine ⟨h.acquired_set i hf', hcount.symm, (decide_eq_true (Nat.succ_pos _)).symm, ?_⟩
    have hlisteners := h.listeners
    rw [if_neg hlistening] at hlisteners
    exact congrArg (· + 1) hlisteners

theorem Pointer.releases (h : Pointer w) (hf : w.faces[i]? = some f) {f' : Face}
    (hold : f.pointerTrackingAcquired = true) (hnew : f'.pointerTrackingAcquired = false)
    (hf' : f'.pointerTrackingAcquired = (f'.alive && f'.track && !f'.reduced)) :
    Pointer (w.releasePointerTracking.setFace i f') := by
  have hcount := countP_set_acquired hf f'
  rw [hold, hnew, ← h.tracked] at hcount
  have hcount' : w.trackedFaces - 1 = (w.faces.set i f').countP (·.pointerTrackingAcquired) := by
    simp only [if_true, Bool.false_eq_true, if_false] at hcount
    omega
  have hpos : 0 < w.trackedFaces := by
    simp only [if_true, Bool.false_eq_true, if_false] at hcount
    omega
  have hlistening : w.listening = true := h.listening.trans (decide_eq_true hpos)
  have hlisteners := h.listeners
  rw [if_pos hlistening] at hlisteners
  unfold Page.releasePointerTracking Page.stopListening Page.setFace
  dsimp only
  rw [if_pos hlistening]
  split
  · -- the last one
    rename_i hzero
    exact ⟨h.acquired_set i hf', hcount', (by show false = decide _; simp [hzero]), (by
      show w.listeners - 1 = 0
      rw [hlisteners])⟩
  · rename_i hmore
    refine ⟨h.acquired_set i hf', hcount', ?_, h.listeners⟩
    show w.listening = decide (0 < w.trackedFaces - 1)
    rw [hlistening]
    exact (decide_eq_true (Nat.pos_of_ne_zero hmore)).symm

/-- A step of the animation changes nothing that the pointer depends on. -/
theorem frame_pointer (f : Face) (moving : Bool) :
    (f.frame moving).pointerTrackingAcquired = f.pointerTrackingAcquired ∧
      ((f.frame moving).alive && (f.frame moving).track && !(f.frame moving).reduced) =
        (f.alive && f.track && !f.reduced) := by
  unfold Face.frame
  split <;> exact ⟨rfl, rfl⟩

theorem Pointer.tick (h : Pointer w) (frames : List Nat) (moving : Nat → Bool) :
    Pointer (({ w with frames } : Page).tick moving) := by
  have hcount : (w.stepped moving).countP (·.pointerTrackingAcquired) =
      w.faces.countP (·.pointerTrackingAcquired) := by
    have hmap : (w.stepped moving).map Face.pointerTrackingAcquired = w.faces.map Face.pointerTrackingAcquired := by
      refine List.ext_getElem? fun i => ?_
      rw [List.getElem?_map, List.getElem?_map, Page.stepped, List.getElem?_mapIdx, Option.map_map]
      refine congrArg (fun k => Option.map k _) (funext fun f => ?_)
      simp only [Function.comp_apply]
      split
      · exact (frame_pointer f _).1
      · rfl
    have hid : ∀ faces : List Face, faces.countP (·.pointerTrackingAcquired) =
        (faces.map Face.pointerTrackingAcquired).countP id := fun faces => by
      rw [List.countP_map]
      rfl
    rw [hid, hid, hmap]
  have hacquired : ∀ g ∈ w.stepped moving, g.pointerTrackingAcquired = (g.alive && g.track && !g.reduced) := by
    intro g hg
    obtain ⟨i, hi⟩ := List.mem_iff_getElem?.mp hg
    rw [Page.stepped, List.getElem?_mapIdx] at hi
    obtain ⟨f, hf, rfl⟩ := Option.map_eq_some_iff.mp hi
    have hold := h.acquired f (List.mem_of_getElem? hf)
    split
    · obtain ⟨hsame, hsame'⟩ := frame_pointer f (moving i)
      rw [hsame, hsame', hold]
    · exact hold
  unfold Page.tick Page.requestNext
  split <;> exact ⟨hacquired, h.tracked.trans hcount.symm, h.listening, h.listeners⟩

theorem pointer_create (h : Pointer w) (reduced track blink idle moving : Bool) :
    Pointer (w.createFace reduced track blink idle moving) := by
  unfold Page.createFace
  dsimp only
  generalize hnew : (⟨true, true, reduced, track, blink, idle, moving, track && !reduced⟩ : Face) = f
  have hf : f.pointerTrackingAcquired = (track && !reduced) ∧
      f.pointerTrackingAcquired = (f.alive && f.track && !f.reduced) := by
    subst hnew
    exact ⟨rfl, rfl⟩
  have hacquired : ∀ g ∈ w.faces ++ [f], g.pointerTrackingAcquired = (g.alive && g.track && !g.reduced) := by
    intro g hg
    obtain hg | hg := List.mem_append.mp hg
    · exact h.acquired g hg
    · rw [List.mem_singleton] at hg
      exact hg ▸ hf.2
  have hcount : (w.faces ++ [f]).countP (·.pointerTrackingAcquired) =
      w.trackedFaces + if track && !reduced then 1 else 0 := by
    rw [List.countP_append, ← h.tracked, List.countP_singleton, hf.1]
  have hadd : Pointer (if track && !reduced then (w.addFace f).acquirePointerTracking else w.addFace f) := by
    by_cases htrack : (track && !reduced) = true
    · rw [if_pos htrack] at hcount ⊢
      unfold Page.acquirePointerTracking Page.startListening Page.addFace
      dsimp only
      split
      · rename_i hlistening
        exact ⟨hacquired, hcount.symm, hlistening.trans (by simp), h.listeners⟩
      · rename_i hlistening
        refine ⟨hacquired, hcount.symm, (decide_eq_true (Nat.succ_pos _)).symm, ?_⟩
        have hlisteners := h.listeners
        rw [if_neg hlistening] at hlisteners
        exact congrArg (· + 1) hlisteners
    · rw [if_neg htrack] at hcount ⊢
      exact ⟨hacquired, hcount.symm, h.listening, h.listeners⟩
  split
  · exact hadd.join _
  · exact hadd

/-- Giving up the pointer depends on the count and the listeners only. -/
theorem release_congr {w' : Page} (htracked : w'.trackedFaces = w.trackedFaces)
    (hlistening : w'.listening = w.listening) (hlisteners : w'.listeners = w.listeners) :
    w'.releasePointerTracking.trackedFaces = w.releasePointerTracking.trackedFaces ∧
      w'.releasePointerTracking.listening = w.releasePointerTracking.listening ∧
      w'.releasePointerTracking.listeners = w.releasePointerTracking.listeners := by
  unfold Page.releasePointerTracking Page.stopListening
  dsimp only
  rw [htracked, hlistening]
  split
  · split
    · exact ⟨rfl, rfl, congrArg (· - 1) hlisteners⟩
    · exact ⟨rfl, rfl, hlisteners⟩
  · exact ⟨rfl, rfl, hlisteners⟩

theorem pointer_leave (w : Page) (i : Nat) : (w.leave i).trackedFaces = w.trackedFaces ∧
    (w.leave i).listening = w.listening ∧ (w.leave i).listeners = w.listeners := by
  unfold Page.leave
  dsimp only
  split
  · split <;> exact ⟨rfl, rfl, rfl⟩
  · exact ⟨rfl, rfl, rfl⟩

theorem pointer_destroy (h : Pointer w) (hf : w.faces[i]? = some f) : Pointer (w.destroy i f) := by
  unfold Page.destroy
  dsimp only
  split
  · exact h
  · split
    · rename_i hacquired
      -- as if it gave up the pointer first
      have hrelease : Pointer (w.releasePointerTracking.setFace i
          { f with alive := false, pointerTrackingAcquired := false }) := h.releases hf hacquired rfl rfl
      obtain ⟨htracked, hlistening, hlisteners⟩ := pointer_leave (w.setFace i { f with alive := false }) i
      obtain ⟨htracked', hlistening', hlisteners'⟩ := release_congr (w := w) htracked hlistening hlisteners
      refine hrelease.congr ?_ htracked' hlistening' hlisteners'
      show List.set (Page.releasePointerTracking _).faces i _ = List.set w.releasePointerTracking.faces i _
      rw [faces_release, faces_release, faces_leave]
      exact List.set_set _
    · rename_i hacquired
      have hset : Pointer (w.setFace i { f with alive := false }) :=
        h.keeps hf rfl (by simpa using hacquired)
      exact hset.leave i

theorem pointer_step (h : Pointer w) (move : Page.Move) : Pointer (Page.step move w).2 := by
  have hface : ∀ {i : Nat} {k : Face → Page}, (∀ f, w.faces[i]? = some f → Pointer (k f)) → Pointer (w.onFace i k) := by
    intro i k hk
    unfold Page.onFace
    split
    · rename_i f hf
      exact hk f hf
    · exact h
  -- a face that starts or stops to move, or is scrolled
  have hsame : ∀ {i : Nat} {f f' : Face}, w.faces[i]? = some f →
      f'.pointerTrackingAcquired = f.pointerTrackingAcquired → f'.alive = f.alive → f'.track = f.track →
      f'.reduced = f.reduced → Pointer (w.setFace i f') := by
    intro i f f' hf hacquired halive htrack hreduced
    refine h.keeps hf hacquired ?_
    rw [hacquired, halive, htrack, hreduced]
    exact h.acquired f (List.mem_of_getElem? hf)
  cases move with
  | create reduced track blink idle moving => exact pointer_create h reduced track blink idle moving
  | setExpression i known moving =>
      refine hface fun f hf => ?_
      have hset : Pointer (w.setFace i { f with moving }) := hsame hf rfl rfl rfl rfl
      unfold Page.setExpression
      dsimp only
      split
      · exact h
      · split
        · exact hset
        · split
          · exact hset.join i
          · exact hset
  | react i known force =>
      refine hface fun f hf => ?_
      have hset : Pointer (w.setFace i { f with moving := true }) := hsame hf rfl rfl rfl rfl
      unfold Page.react
      dsimp only
      split
      · exact h
      · split
        · exact hset.join i
        · exact hset
  | look i =>
      refine hface fun f hf => ?_
      have hset : Pointer (w.setFace i { f with moving := true }) := hsame hf rfl rfl rfl rfl
      unfold Page.look
      dsimp only
      split
      · exact h
      · split
        · exact hset.join i
        · exact hset
  | set i options =>
      refine hface fun f hf => ?_
      have hold := h.acquired f (List.mem_of_getElem? hf)
      unfold Page.setOptions
      by_cases ha : f.alive = true
      · rw [if_neg (by rw [ha]; exact Bool.false_ne_true)]
        dsimp only
        have hretrack : Pointer (w.retrack i (f.assign options)) := by
          have halive : (f.assign options).alive = true := ha
          have hacquired : (f.assign options).pointerTrackingAcquired = f.pointerTrackingAcquired := rfl
          generalize f.assign options = f' at halive hacquired
          unfold Page.retrack
          dsimp only
          split
          · rename_i hacquire
            simp only [Bool.and_eq_true, Bool.not_eq_true'] at hacquire
            refine h.acquires hf (hacquired ▸ hacquire.1) rfl ?_
            simp [halive, hacquire.2.1, hacquire.2.2]
          · rename_i hnot
            split
            · rename_i hrelease
              simp only [Bool.and_eq_true, Bool.not_eq_true'] at hrelease
              refine h.releases hf (hacquired ▸ hrelease.1) rfl ?_
              simp [halive, hrelease.2]
            · rename_i hnot'
              refine h.keeps hf hacquired ?_
              rw [halive, Bool.true_and]
              cases hb : f'.pointerTrackingAcquired <;> simp_all
        split
        · exact hretrack.join i
        · exact hretrack
      · rw [if_pos (by simpa using ha)]
        exact h
  | observe i isIntersecting moving =>
      refine hface fun f hf => ?_
      unfold Page.observe
      dsimp only
      split
      · exact h
      · split
        · have hset : Pointer (w.setFace i { f with visible := true, moving }) := hsame hf rfl rfl rfl rfl
          split
          · exact hset.join i
          · exact hset
        · have hset : Pointer (w.setFace i { f with visible := false }) := hsame hf rfl rfl rfl rfl
          exact hset.leave i
  | frame handle moving =>
      show Pointer (if handle ∈ w.frames then _ else w)
      split
      · exact h.tick _ moving
      · exact h
  | destroy i => exact hface fun f hf => pointer_destroy h hf

/-! ## Every run -/

theorem clock_run {es : List (Event Page.step)} {w : Page} (hrun : Run Page.empty es w) : Clock w := by
  have hstart : Clock Page.empty := by
    refine ⟨List.nodup_nil, fun _ hj => absurd hj List.not_mem_nil, fun _ _ hf => ?_, rfl, iff_of_true rfl rfl⟩
    cases hf
  refine (hrun.invariant hstart fun e _ h => ?_).1
  have := clock_step h e.input
  rwa [e.executed] at this

theorem pointer_run {es : List (Event Page.step)} {w : Page} (hrun : Run Page.empty es w) : Pointer w := by
  have hstart : Pointer Page.empty := ⟨fun _ hf => absurd hf List.not_mem_nil, rfl, rfl, rfl⟩
  refine (hrun.invariant hstart fun e _ h => ?_).1
  have := pointer_step h e.input
  rwa [e.executed] at this

/-- Once all faces are destroyed there is no frame, and no listener. -/
theorem nothing_left {w : Page} (hclock : Clock w) (hpointer : Pointer w)
    (hdestroyed : ∀ f ∈ w.faces, f.alive = false) :
    w.living = [] ∧ w.frames = [] ∧ w.listening = false ∧ w.listeners = 0 := by
  have hliving : w.living = [] := by
    refine List.eq_nil_iff_forall_not_mem.mpr fun i hi => ?_
    obtain ⟨f, hf, hshown⟩ := hclock.shown i hi
    rw [Face.shown, hdestroyed f (List.mem_of_getElem? hf)] at hshown
    cases hshown
  have htracked : w.trackedFaces = 0 := by
    rw [hpointer.tracked, List.countP_eq_zero]
    intro f hf hacquired
    rw [hpointer.acquired f hf, hdestroyed f hf] at hacquired
    cases hacquired
  have hlistening : w.listening = false := by
    rw [hpointer.listening, htracked]
    rfl
  refine ⟨hliving, ?_, hlistening, ?_⟩
  · rw [hclock.frames, hclock.running.mpr hliving]
    rfl
  · rw [hpointer.listeners, hlistening]
    rfl

/--
**One clock for all, and one pointer listener.** After anything that can happen to the faces of a
page, the browser owes `tick` one frame if some face is stepped and none otherwise. Whatever is
stepped is alive and shown, and whatever is alive and needs a frame is stepped; what no longer needs
one may be stepped still. There is one listener as long as a face follows the pointer, and once all
faces are destroyed nothing is left behind.
-/
theorem one_clock {es : List (Event Page.step)} {w : Page} (hrun : Run Page.empty es w) :
    Clock w ∧ Pointer w ∧ ((∀ f ∈ w.faces, f.alive = false) →
      w.living = [] ∧ w.frames = [] ∧ w.listening = false ∧ w.listeners = 0) :=
  ⟨clock_run hrun, pointer_run hrun, nothing_left (clock_run hrun) (pointer_run hrun)⟩

/-! ## Two faces -/

/-- Two faces follow the pointer, one scrolls away and is destroyed, and the other after a frame. -/
def sampleMoves : List Page.Move :=
  [.create false true true true true, .create false true false false true, .observe 0 false true,
    .frame 0 fun _ => true, .destroy 0, .frame 1 fun _ => false, .destroy 1]

def samplePage (n : Nat) : Page := (sampleMoves.take n).foldl (fun w move => (Page.step move w).2) .empty

theorem samplePage_run (n : Nat) :
    Run .empty (trace Page.step (sampleMoves.take n) .empty) (samplePage n) := Run.ofTrace _ _

theorem one_clock_sample :
    (Clock (samplePage 5) ∧ (samplePage 5).living = [1] ∧ (samplePage 5).listeners = 1) ∧
      (samplePage 7).faces.length = 2 ∧ (samplePage 7).living = [] ∧ (samplePage 7).frames = [] ∧
        (samplePage 7).listening = false ∧ (samplePage 7).listeners = 0 :=
  ⟨⟨(one_clock (samplePage_run 5)).1, by decide, by decide⟩, by decide,
    (one_clock (samplePage_run 7)).2.2 (by decide)⟩

end Katherine.Desktop.Bfce
