import Katherine.Lib.Best
import Mathlib.Algebra.Order.Ring.Int

/-!
# Screens and window rectangles

`WorkArea` and `clamp_window_geometry` of `backend/desktop/app.py`: where a window of a
given size goes on the usable areas of the screens. Distances between centres are
compared exactly; the source halves and squares them as floats.
-/

namespace Katherine.Desktop

/-- `_WINDOW_SIZE`. -/
def windowSize : Int × Int := (1280, 800)

structure WorkArea where
  x : Int
  y : Int
  width : Int
  height : Int
deriving DecidableEq

def WorkArea.right (wa : WorkArea) : Int := wa.x + wa.width

def WorkArea.bottom (wa : WorkArea) : Int := wa.y + wa.height

structure ClampedGeometry where
  x : Int
  y : Int
  width : Int
  height : Int
deriving DecidableEq

/-- Where the window should go: a position, unless it is unspecified, and a size. -/
structure TargetRect where
  x : Option Int
  y : Option Int
  width : Int
  height : Int

/-- The area two rectangles share. -/
def overlapArea (x y w h : Int) (wa : WorkArea) : Int :=
  let ix1 := max x wa.x
  let iy1 := max y wa.y
  let ix2 := min (x + w) wa.right
  let iy2 := min (y + h) wa.bottom
  max 0 (ix2 - ix1) * max 0 (iy2 - iy1)

/-- The workarea of maximum overlap, the first of them, with that overlap. -/
def bestOverlap (x y w h : Int) (workareas : List WorkArea) : Option WorkArea × Int :=
  workareas.foldl (fun best wa =>
    let overlap := overlapArea x y w h wa
    if best.2 < overlap then (some wa, overlap) else best) (none, -1)

/-- Four times the squared distance of the centres. -/
def centreDistance (x y w h : Int) (wa : WorkArea) : Int :=
  (2 * x + w - (2 * wa.x + wa.width)) ^ 2 + (2 * y + h - (2 * wa.y + wa.height)) ^ 2

/-- The workarea with the closest centre, the first of them; without any, the primary one. -/
def closestArea (x y w h : Int) (primary : WorkArea) (workareas : List WorkArea) : WorkArea :=
  (workareas.foldl (fun (best : WorkArea × Option Int) wa =>
    let dist := centreDistance x y w h wa
    if best.2.all fun least => decide (dist < least) then (wa, some dist) else best) (primary, none)).1

/-- Size and position limited to one workarea. -/
def clampInto (x y w h : Int) (wa : WorkArea) : ClampedGeometry :=
  let clampedW := min w wa.width
  let clampedH := min h wa.height
  let maxX := wa.x + wa.width - clampedW
  let maxY := wa.y + wa.height - clampedH
  { x := max wa.x (min x maxX)
    y := max wa.y (min y maxY)
    width := clampedW
    height := clampedH }

/-- In the middle of a workarea. -/
def centreIn (w h : Int) (wa : WorkArea) : ClampedGeometry :=
  let targetW := min w wa.width
  let targetH := min h wa.height
  { x := wa.x + max 0 ((wa.width - targetW) / 2)
    y := wa.y + max 0 ((wa.height - targetH) / 2)
    width := targetW
    height := targetH }

/-- `clamp_window_geometry`. -/
def clampWindowGeometry (target : TargetRect) (workareas : List WorkArea) (primaryIndex : Int)
    (minSize : Int × Int) : ClampedGeometry :=
  let fallback : WorkArea := ⟨0, 0, windowSize.1, windowSize.2⟩
  let workareas := if workareas.isEmpty then [fallback] else workareas
  let priIdx := if 0 ≤ primaryIndex ∧ primaryIndex < workareas.length then primaryIndex.toNat else 0
  let primary := workareas.getD priIdx fallback
  let w := max minSize.1 target.width
  let h := max minSize.2 target.height
  match target.x, target.y with
  | some x, some y =>
      let best := bestOverlap x y w h workareas
      match best.1 with
      | some wa =>
          if best.2 ≤ 0 then clampInto x y w h (closestArea x y w h primary workareas)
          else clampInto x y w h wa
      | none => clampInto x y w h (closestArea x y w h primary workareas)
  -- without a position, on the primary screen
  | _, _ => centreIn w h primary

/-! ## Where the window goes -/

/-- The rectangle lies entirely inside the workarea. -/
structure ClampedGeometry.Within (g : ClampedGeometry) (wa : WorkArea) : Prop where
  left : wa.x ≤ g.x
  top : wa.y ≤ g.y
  right : g.x + g.width ≤ wa.right
  bottom : g.y + g.height ≤ wa.bottom

/-- At least so large, in both dimensions. -/
def ClampedGeometry.AtLeast (g : ClampedGeometry) (minSize : Int × Int) : Prop :=
  minSize.1 ≤ g.width ∧ minSize.2 ≤ g.height

def WorkArea.AtLeast (wa : WorkArea) (minSize : Int × Int) : Prop :=
  minSize.1 ≤ wa.width ∧ minSize.2 ≤ wa.height

/-- The rectangle as the next target. -/
def ClampedGeometry.target (g : ClampedGeometry) : TargetRect := ⟨some g.x, some g.y, g.width, g.height⟩

theorem clampInto_within (x y w h : Int) (wa : WorkArea) : (clampInto x y w h wa).Within wa := by
  constructor <;> simp only [clampInto, WorkArea.right, WorkArea.bottom] <;> omega

theorem centreIn_within (w h : Int) (wa : WorkArea) : (centreIn w h wa).Within wa := by
  constructor <;> simp only [centreIn, WorkArea.right, WorkArea.bottom] <;> omega

/-- A rectangle inside the workarea stays where it is. -/
theorem clampInto_of_within {x y w h : Int} {wa : WorkArea} (hin : (⟨x, y, w, h⟩ : ClampedGeometry).Within wa) :
    clampInto x y w h wa = ⟨x, y, w, h⟩ := by
  obtain ⟨hleft, htop, hright, hbottom⟩ := hin
  simp only [WorkArea.right, WorkArea.bottom] at hleft htop hright hbottom
  have hw : min w wa.width = w := by omega
  have hh : min h wa.height = h := by omega
  rw [clampInto, hw, hh]
  simp only [ClampedGeometry.mk.injEq, and_true]
  omega

/-! ## The choice of the workarea -/

theorem overlapArea_nonneg (x y w h : Int) (wa : WorkArea) : 0 ≤ overlapArea x y w h wa :=
  mul_nonneg (le_max_left _ _) (le_max_left _ _)

/-- What a rectangle shares with a workarea is at most all of it. -/
theorem overlapArea_le {x y w h : Int} (hw : 0 < w) (hh : 0 < h) (wa : WorkArea) :
    overlapArea x y w h wa ≤ w * h :=
  mul_le_mul (by omega) (by omega) (le_max_left _ _) (by omega)

/-- **It shares all of it just when it lies inside.** -/
theorem overlapArea_eq_iff {x y w h : Int} (hw : 0 < w) (hh : 0 < h) (wa : WorkArea) :
    overlapArea x y w h wa = w * h ↔ (⟨x, y, w, h⟩ : ClampedGeometry).Within wa := by
  constructor
  · intro heq
    have hdx : max 0 (min (x + w) wa.right - max x wa.x) ≤ w := by omega
    have hdy : max 0 (min (y + h) wa.bottom - max y wa.y) ≤ h := by omega
    have hdx' : max 0 (min (x + w) wa.right - max x wa.x) = w := by
      by_contra hne
      have hlt := lt_of_le_of_ne hdx hne
      refine absurd heq (ne_of_lt ?_)
      calc overlapArea x y w h wa
          ≤ max 0 (min (x + w) wa.right - max x wa.x) * h :=
            mul_le_mul_of_nonneg_left hdy (le_max_left _ _)
        _ < w * h := mul_lt_mul_of_pos_right hlt hh
    have hdy' : max 0 (min (y + h) wa.bottom - max y wa.y) = h := by
      rw [overlapArea, hdx'] at heq
      exact mul_left_cancel₀ (ne_of_gt hw) heq
    constructor <;> dsimp only <;> omega
  · rintro ⟨hleft, htop, hright, hbottom⟩
    dsimp only at hleft htop hright hbottom
    have hdx : max 0 (min (x + w) wa.right - max x wa.x) = w := by omega
    have hdy : max 0 (min (y + h) wa.bottom - max y wa.y) = h := by omega
    rw [overlapArea, hdx, hdy]

section

variable (x y w h : Int)

/-- `a` has the larger overlap. -/
def LargerOverlap (a b : WorkArea) : Prop := overlapArea x y w h b < overlapArea x y w h a

instance : DecidableRel (LargerOverlap x y w h) := fun _ _ => inferInstanceAs (Decidable (_ < _))

/-- `a` is closer. -/
def Closer (a b : WorkArea) : Prop := centreDistance x y w h a < centreDistance x y w h b

instance : DecidableRel (Closer x y w h) := fun _ _ => inferInstanceAs (Decidable (_ < _))

theorem bestOverlap_eq (workareas : List WorkArea) : bestOverlap x y w h workareas
    = (Best.best (LargerOverlap x y w h) workareas,
        ((Best.best (LargerOverlap x y w h) workareas).map (overlapArea x y w h)).getD (-1)) := by
  refine Best.foldl_of_best (fun kept : Option WorkArea =>
    (kept, (kept.map (overlapArea x y w h)).getD (-1))) (fun kept wa => ?_) workareas
  cases kept with
  | none =>
      have := overlapArea_nonneg x y w h wa
      exact if_pos (by dsimp only [Option.map_none, Option.getD_none]; omega)
  | some k =>
      by_cases hwin : overlapArea x y w h k < overlapArea x y w h wa
      · rw [show Best.challenge (LargerOverlap x y w h) (some k) wa = some wa from if_pos hwin]
        exact if_pos hwin
      · rw [show Best.challenge (LargerOverlap x y w h) (some k) wa = some k from if_neg hwin]
        exact if_neg hwin

theorem closestArea_eq (primary : WorkArea) (workareas : List WorkArea) :
    closestArea x y w h primary workareas = (Best.best (Closer x y w h) workareas).getD primary := by
  refine congrArg Prod.fst (Best.foldl_of_best (fun kept : Option WorkArea =>
    (kept.getD primary, kept.map (centreDistance x y w h))) (fun kept wa => ?_) workareas)
  cases kept with
  | none => rfl
  | some k =>
      by_cases hwin : centreDistance x y w h wa < centreDistance x y w h k
      · rw [show Best.challenge (Closer x y w h) (some k) wa = some wa from if_pos hwin]
        exact if_pos (decide_eq_true hwin)
      · rw [show Best.challenge (Closer x y w h) (some k) wa = some k from if_neg hwin]
        exact if_neg (by simpa using hwin)

/-- **The workarea of the largest overlap**, and that overlap. -/
theorem bestOverlap_spec {workareas : List WorkArea} (h0 : workareas ≠ []) :
    ∃ wa ∈ workareas, bestOverlap x y w h workareas = (some wa, overlapArea x y w h wa) ∧
      ∀ wa' ∈ workareas, overlapArea x y w h wa' ≤ overlapArea x y w h wa := by
  obtain ⟨wa, hbest, hmem, hmax⟩ := @Best.best_spec _ (LargerOverlap x y w h) _
    (fun _ _ _ hab hbc => lt_trans hbc hab) (fun _ => lt_irrefl _) _ h0
  refine ⟨wa, hmem, ?_, fun wa' hwa' => not_lt.mp (hmax wa' hwa')⟩
  rw [bestOverlap_eq, hbest]
  rfl

theorem closestArea_mem {workareas : List WorkArea} (h0 : workareas ≠ []) (primary : WorkArea) :
    closestArea x y w h primary workareas ∈ workareas := by
  obtain ⟨wa, hbest, hmem, -⟩ := @Best.best_spec _ (Closer x y w h) _
    (fun _ _ _ hab hbc => lt_trans hab hbc) (fun _ => lt_irrefl _) _ h0
  rw [closestArea_eq, hbest]
  exact hmem

end

/-! ## The clamp -/

section

variable {workareas : List WorkArea} {minSize : Int × Int}

theorem getD_mem {i : Nat} (hi : i < workareas.length) (fallback : WorkArea) :
    workareas.getD i fallback ∈ workareas := by
  rw [List.getD_eq_getElem?_getD, List.getElem?_eq_getElem hi, Option.getD_some]
  exact List.getElem_mem hi

/-- **What the clamp comes to**, where there are workareas: the target in one of them. -/
theorem clamp_cases (h0 : workareas ≠ []) (target : TargetRect) (primaryIndex : Int) :
    ∃ wa ∈ workareas,
      (∃ x y, clampWindowGeometry target workareas primaryIndex minSize
        = clampInto x y (max minSize.1 target.width) (max minSize.2 target.height) wa) ∨
      clampWindowGeometry target workareas primaryIndex minSize
        = centreIn (max minSize.1 target.width) (max minSize.2 target.height) wa := by
  have hempty : workareas.isEmpty = false := by simpa using h0
  unfold clampWindowGeometry
  simp only [hempty, Bool.false_eq_true, if_false]
  split
  · rename_i x y _ _
    obtain ⟨wa, hmem, hbest, -⟩ := bestOverlap_spec x y (max minSize.1 target.width)
      (max minSize.2 target.height) h0
    simp only [hbest]
    split
    · exact ⟨_, closestArea_mem _ _ _ _ h0 _, .inl ⟨x, y, rfl⟩⟩
    · exact ⟨wa, hmem, .inl ⟨x, y, rfl⟩⟩
  · refine ⟨_, getD_mem ?_ _, .inr rfl⟩
    have hpos := List.length_pos_iff.mpr h0
    split <;> omega

/-- **A rectangle inside one of the workareas stays where it is.** -/
theorem clamp_of_within (hmin : 0 < minSize.1 ∧ 0 < minSize.2) {g : ClampedGeometry}
    (hin : ∃ wa ∈ workareas, g.Within wa) (hsize : g.AtLeast minSize) (primaryIndex : Int) :
    clampWindowGeometry g.target workareas primaryIndex minSize = g := by
  obtain ⟨wa, hwa, hin⟩ := hin
  have h0 : workareas ≠ [] := List.ne_nil_of_mem hwa
  have hempty : workareas.isEmpty = false := by simpa using h0
  have hw : 0 < g.width := lt_of_lt_of_le hmin.1 hsize.1
  have hh : 0 < g.height := lt_of_lt_of_le hmin.2 hsize.2
  obtain ⟨best, hmem, hbest, hmax⟩ := bestOverlap_spec g.x g.y g.width g.height h0
  -- no other workarea can have more of it, and one that has as much has it inside as well
  have hall : overlapArea g.x g.y g.width g.height best = g.width * g.height := by
    refine le_antisymm (overlapArea_le hw hh best) ?_
    rw [← (overlapArea_eq_iff hw hh wa).mpr hin]
    exact hmax wa hwa
  have hpos : ¬ overlapArea g.x g.y g.width g.height best ≤ 0 := by
    rw [hall]
    exact not_le.mpr (mul_pos hw hh)
  unfold clampWindowGeometry
  simp only [hempty, Bool.false_eq_true, if_false, ClampedGeometry.target, max_eq_right hsize.1,
    max_eq_right hsize.2, hbest, hpos]
  exact clampInto_of_within ((overlapArea_eq_iff hw hh best).mp hall)

/-- **Every clamp ends inside one of the workareas**, and is large enough where they all are. -/
theorem clamp_within (h0 : workareas ≠ []) (hfit : ∀ wa ∈ workareas, wa.AtLeast minSize)
    (target : TargetRect) (primaryIndex : Int) :
    (∃ wa ∈ workareas, (clampWindowGeometry target workareas primaryIndex minSize).Within wa) ∧
      (clampWindowGeometry target workareas primaryIndex minSize).AtLeast minSize := by
  obtain ⟨wa, hwa, hclamp⟩ := @clamp_cases workareas minSize h0 target primaryIndex
  obtain ⟨hwidth, hheight⟩ := hfit wa hwa
  rcases hclamp with ⟨x, y, heq⟩ | heq <;> rw [heq]
  · exact ⟨⟨wa, hwa, clampInto_within _ _ _ _ wa⟩, le_min (le_max_left _ _) hwidth,
      le_min (le_max_left _ _) hheight⟩
  · exact ⟨⟨wa, hwa, centreIn_within _ _ wa⟩, le_min (le_max_left _ _) hwidth,
      le_min (le_max_left _ _) hheight⟩

end

end Katherine.Desktop
