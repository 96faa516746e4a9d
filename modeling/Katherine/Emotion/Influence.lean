import Katherine.Emotion.Transition
import Mathlib.Tactic.Linarith

/-!
# How far one appraisal reaches

The appraisal is what a model wrote, so it may be anything. What it does to the state is
bounded by the configuration: the cap of an axis bounds how far the axis moves from where
the decay alone would have left it, and the tension follows the pleasure in steps of
`tension_increase` and `tension_relief`. Two appraisals are compared at the same state
and time.
-/

namespace Katherine.Emotion

open Py Katherine

variable {K : Type} [Field K] [LinearOrder K] [IsStrictOrderedRing K]

variable (decay : K → K) (config : TransitionConfig K)

/-! ## The axes -/

theorem abs_clampShift_le (shift : K) {cap : K} (h : 0 ≤ cap) : |clampShift shift cap| ≤ cap :=
  abs_le.mpr (clamp_mem ((neg_nonpos.mpr h).trans h))

/-- Where the decay alone leaves an axis. -/
def decayedAxis (elapsed value : K) : K :=
  clamp (exponentialDecay decay value config.padBaseline elapsed config.padHalfLife) (-1) 1

theorem bipolar_range : (-1 : K) ≤ 1 := (neg_nonpos.mpr zero_le_one).trans zero_le_one

/-- **The cap of an axis bounds how far one appraisal moves it.** -/
theorem shiftAxis_near (elapsed value shift : K) (cap : Unipolar K) :
    |shiftAxis decay config elapsed value shift cap - decayedAxis decay config elapsed value| ≤ cap := by
  unfold shiftAxis decayedAxis
  refine (abs_clamp_sub_le bipolar_range _ _).trans ?_
  rw [add_sub_cancel_left]
  exact abs_clampShift_le shift cap.property.1

theorem shiftAxis_close (elapsed value shift shift' : K) (cap : Unipolar K) :
    |shiftAxis decay config elapsed value shift cap - shiftAxis decay config elapsed value shift' cap| ≤
      2 * cap := by
  have h := shiftAxis_near decay config elapsed value shift cap
  have h' := shiftAxis_near decay config elapsed value shift' cap
  rw [abs_sub_comm] at h'
  calc |shiftAxis decay config elapsed value shift cap - shiftAxis decay config elapsed value shift' cap|
      ≤ |shiftAxis decay config elapsed value shift cap - decayedAxis decay config elapsed value| +
        |decayedAxis decay config elapsed value - shiftAxis decay config elapsed value shift' cap| :=
        abs_sub_le _ _ _
    _ ≤ cap + cap := add_le_add h h'
    _ = 2 * cap := (two_mul _).symm

theorem shiftAxis_mono (elapsed value : K) (cap : Unipolar K) {shift shift' : K} (h : shift ≤ shift') :
    shiftAxis decay config elapsed value shift cap ≤ shiftAxis decay config elapsed value shift' cap := by
  have hcap : -cap.val ≤ cap.val := (neg_nonpos.mpr cap.property.1).trans cap.property.1
  exact clamp_mono bipolar_range (add_le_add_right (clamp_mono hcap h) _)

/-! ## The tension -/

/-- Step 6: what the pleasure adds to the tension. -/
def tensionDelta (pleasure : K) : K :=
  if pleasure < config.negativePleasureThreshold.val then config.tensionIncrease
  else if config.positivePleasureThreshold.val < pleasure then -config.tensionRelief.val
  else 0

omit [IsStrictOrderedRing K] in
theorem updateTension_eq (elapsed tension pleasure : K) :
    updateTension decay config elapsed tension pleasure =
      clamp (exponentialDecay decay tension config.tensionBaseline elapsed config.tensionHalfLife +
        tensionDelta config pleasure) 0 1 := rfl

theorem tensionDelta_mem (pleasure : K) : -config.tensionRelief.val ≤ tensionDelta config pleasure ∧
    tensionDelta config pleasure ≤ config.tensionIncrease.val := by
  have hincrease : 0 ≤ config.tensionIncrease.val := config.tensionIncrease.property.1
  have hrelief : -config.tensionRelief.val ≤ 0 := neg_nonpos.mpr config.tensionRelief.property.1
  unfold tensionDelta
  split
  · exact ⟨hrelief.trans hincrease, le_rfl⟩
  · split
    · exact ⟨le_rfl, hrelief.trans hincrease⟩
    · exact ⟨hrelief, hincrease⟩

theorem tensionDelta_anti {p p' : K} (h : p ≤ p') : tensionDelta config p' ≤ tensionDelta config p := by
  by_cases hneg : p < config.negativePleasureThreshold.val
  · have hp : tensionDelta config p = config.tensionIncrease := if_pos hneg
    rw [hp]
    exact (tensionDelta_mem config p').2
  · have hneg' : ¬ p' < config.negativePleasureThreshold.val := not_lt.mpr ((not_lt.mp hneg).trans h)
    by_cases hpos : config.positivePleasureThreshold.val < p
    · rw [tensionDelta, tensionDelta, if_neg hneg, if_neg hneg', if_pos hpos, if_pos (hpos.trans_le h)]
    · rw [tensionDelta, tensionDelta, if_neg hneg, if_neg hneg', if_neg hpos]
      split
      · exact neg_nonpos.mpr config.tensionRelief.property.1
      · exact le_rfl

theorem updateTension_anti (elapsed tension : K) {p p' : K} (h : p ≤ p') :
    updateTension decay config elapsed tension p' ≤ updateTension decay config elapsed tension p := by
  rw [updateTension_eq, updateTension_eq]
  exact clamp_mono zero_le_one (add_le_add_right (tensionDelta_anti config h) _)

theorem updateTension_close (elapsed tension p p' : K) :
    |updateTension decay config elapsed tension p - updateTension decay config elapsed tension p'| ≤
      config.tensionIncrease.val + config.tensionRelief.val := by
  rw [updateTension_eq, updateTension_eq]
  refine (abs_clamp_sub_le zero_le_one _ _).trans ?_
  rw [add_sub_add_left_eq_sub, abs_le]
  obtain ⟨hlow, hhigh⟩ := tensionDelta_mem config p
  obtain ⟨hlow', hhigh'⟩ := tensionDelta_mem config p'
  constructor <;> linarith only [hlow, hhigh, hlow', hhigh']

/-! ## The arousal -/

/-- Scaling by the factor of the dissociation never leaves the range. -/
theorem regulated_mem (arousal : Bipolar K) (factor : Unipolar K) :
    min 0 arousal.val ≤ clamp (arousal.val * factor.val) (-1) 1 ∧
      clamp (arousal.val * factor.val) (-1) 1 ≤ max 0 arousal.val := by
  obtain ⟨hfactor, hfactor'⟩ := factor.property
  rcases le_total 0 arousal.val with h | h
  · have hlow : 0 ≤ arousal.val * factor.val := mul_nonneg h hfactor
    have hhigh : arousal.val * factor.val ≤ arousal.val := mul_le_of_le_one_right h hfactor'
    rw [clamp_of_mem ⟨(neg_nonpos.mpr zero_le_one).trans hlow, hhigh.trans arousal.property.2⟩,
      min_eq_left h, max_eq_right h]
    exact ⟨hlow, hhigh⟩
  · have hlow : arousal.val ≤ arousal.val * factor.val := by
      have := mul_le_mul_of_nonpos_left hfactor' h
      rwa [mul_one] at this
    have hhigh : arousal.val * factor.val ≤ 0 := mul_nonpos_of_nonpos_of_nonneg h hfactor
    rw [clamp_of_mem ⟨arousal.property.1.trans hlow, hhigh.trans zero_le_one⟩, min_eq_right h,
      max_eq_left h]
    exact ⟨hlow, hhigh⟩

variable {decay config} {previous : EmotionalState K}

theorem Computed.arousal_mem {appraisal : Appraisal K} {elapsed : K} {r : TransitionResult K}
    (h : Computed decay config previous appraisal elapsed r) :
    min 0 (shiftAxis decay config elapsed previous.arousal appraisal.arousalShift
        config.maxArousalShift) ≤ r.state.arousal.val ∧
      r.state.arousal.val ≤ max 0 (shiftAxis decay config elapsed previous.arousal
        appraisal.arousalShift config.maxArousalShift) := by
  rw [h.arousal]
  split
  · exact regulated_mem ⟨_, clamp_bipolar _⟩ config.dissociationArousalFactor
  · exact ⟨min_le_right _ _, le_max_right _ _⟩

/-! ## Two appraisals at one state -/

/-- Where each of two appraisals leads to, `elapsed` seconds after the state. -/
structure Pair (decay : K → K) (config : TransitionConfig K) (previous : EmotionalState K) (elapsed : K)
    (a b : Appraisal K) (ra rb : TransitionResult K) : Prop where
  left : Computed decay config previous a elapsed ra
  right : Computed decay config previous b elapsed rb

namespace Pair

variable {elapsed : K} {a b : Appraisal K} {ra rb : TransitionResult K}

theorem pleasure_close (h : Pair decay config previous elapsed a b ra rb) :
    |ra.state.pleasure.val - rb.state.pleasure.val| ≤ 2 * config.maxPleasureShift.val := by
  rw [h.left.pleasure, h.right.pleasure]
  exact shiftAxis_close decay config elapsed _ _ _ config.maxPleasureShift

theorem dominance_close (h : Pair decay config previous elapsed a b ra rb) :
    |ra.state.dominance.val - rb.state.dominance.val| ≤ 2 * config.maxDominanceShift.val := by
  rw [h.left.dominance, h.right.dominance]
  exact shiftAxis_close decay config elapsed _ _ _ config.maxDominanceShift

theorem tension_close (h : Pair decay config previous elapsed a b ra rb) :
    |ra.state.tension.val - rb.state.tension.val| ≤
      config.tensionIncrease.val + config.tensionRelief.val := by
  rw [h.left.tension, h.right.tension]
  exact updateTension_close decay config elapsed _ _ _

theorem pleasure_mono (h : Pair decay config previous elapsed a b ra rb)
    (hvalence : a.valenceShift.val ≤ b.valenceShift.val) :
    ra.state.pleasure.val ≤ rb.state.pleasure.val := by
  rw [h.left.pleasure, h.right.pleasure]
  exact shiftAxis_mono decay config elapsed _ config.maxPleasureShift hvalence

theorem tension_anti (h : Pair decay config previous elapsed a b ra rb)
    (hvalence : a.valenceShift.val ≤ b.valenceShift.val) :
    rb.state.tension.val ≤ ra.state.tension.val := by
  rw [h.left.tension, h.right.tension]
  exact updateTension_anti decay config elapsed _ (h.pleasure_mono hvalence)

omit [IsStrictOrderedRing K] in
/-- The tension sees the appraisal through the pleasure alone. -/
theorem tension_eq (h : Pair decay config previous elapsed a b ra rb)
    (hvalence : a.valenceShift = b.valenceShift) : ra.state.tension = rb.state.tension := by
  apply Subtype.ext
  rw [h.left.tension, h.right.tension, h.left.pleasure, h.right.pleasure, hvalence]

end Pair

omit [IsStrictOrderedRing K] in
/-- The discrete emotions are not read. -/
theorem transition_shifts (decay : K → K) (config : TransitionConfig K) (previous : EmotionalState K)
    {a b : Appraisal K} (currentTime : K) (hvalence : a.valenceShift = b.valenceShift)
    (harousal : a.arousalShift = b.arousalShift) (hdominance : a.dominanceShift = b.dominanceShift) :
    transition decay previous a currentTime config = transition decay previous b currentTime config := by
  simp only [transition, hvalence, harousal, hdominance]

/-- **One appraisal has a bounded and monotone influence.** From any state and time, and for any two
appraisals: pleasure and dominance stay within the cap of their axis of where the decay leaves them, and
so within twice the cap of each other; a higher valence leads to no less pleasure and no more tension;
the tensions are no further apart than one increase and one relief, and depend on the valence only; the
arousal is between zero and the shifted one; and the discrete emotions do not matter. -/
theorem one_appraisal_bounded (decay : K → K) (config : TransitionConfig K)
    (previous : EmotionalState K) (a b : Appraisal K) {currentTime : K} (htime : 0 < currentTime) :
    ∃ ra rb, transition decay previous a currentTime config = .ok ra ∧
      transition decay previous b currentTime config = .ok rb ∧
      let elapsed := (elapsedTime previous.timestamp.val currentTime).1
      let arousal := shiftAxis decay config elapsed previous.arousal a.arousalShift
        config.maxArousalShift
      |ra.state.pleasure.val - decayedAxis decay config elapsed previous.pleasure| ≤
          config.maxPleasureShift.val ∧
        |ra.state.dominance.val - decayedAxis decay config elapsed previous.dominance| ≤
          config.maxDominanceShift.val ∧
        |ra.state.pleasure.val - rb.state.pleasure.val| ≤ 2 * config.maxPleasureShift.val ∧
        |ra.state.dominance.val - rb.state.dominance.val| ≤ 2 * config.maxDominanceShift.val ∧
        (a.valenceShift.val ≤ b.valenceShift.val → ra.state.pleasure.val ≤ rb.state.pleasure.val ∧
          rb.state.tension.val ≤ ra.state.tension.val) ∧
        |ra.state.tension.val - rb.state.tension.val| ≤
          config.tensionIncrease.val + config.tensionRelief.val ∧
        (a.valenceShift = b.valenceShift → ra.state.tension = rb.state.tension) ∧
        (min 0 arousal ≤ ra.state.arousal.val ∧ ra.state.arousal.val ≤ max 0 arousal) ∧
        (a.valenceShift = b.valenceShift → a.arousalShift = b.arousalShift →
          a.dominanceShift = b.dominanceShift → ra = rb) := by
  obtain ⟨ra, hra, -, ha⟩ := transition_computed decay config previous a htime
  obtain ⟨rb, hrb, -, hb⟩ := transition_computed decay config previous b htime
  have hpair := Pair.mk ha hb
  refine ⟨ra, rb, hra, hrb, ?_, ?_, hpair.pleasure_close, hpair.dominance_close, ?_,
    hpair.tension_close, hpair.tension_eq, ha.arousal_mem, ?_⟩
  · rw [ha.pleasure]
    exact shiftAxis_near decay config _ _ _ config.maxPleasureShift
  · rw [ha.dominance]
    exact shiftAxis_near decay config _ _ _ config.maxDominanceShift
  · exact fun hvalence => ⟨hpair.pleasure_mono hvalence, hpair.tension_anti hvalence⟩
  · intro hvalence harousal hdominance
    have hsame := transition_shifts decay config previous currentTime hvalence harousal hdominance
    rw [hra, hrb] at hsame
    exact Except.ok.inj hsame

/-- As bad as can be, and as good. -/
def hostile : Appraisal ℚ :=
  ⟨⟨-1, negOne_bipolar⟩, ⟨1, one_bipolar⟩, ⟨-1, negOne_bipolar⟩, [(.anger, ⟨1, by decide⟩)], by decide⟩

def flattering : Appraisal ℚ :=
  ⟨⟨1, one_bipolar⟩, ⟨-1, negOne_bipolar⟩, ⟨1, one_bipolar⟩, [(.joy, ⟨1, by decide⟩)], by decide⟩

theorem one_appraisal_bounded_sample : ∃ ra rb,
    transition sampleDecay tenseState hostile 1000 sampleConfig = .ok ra ∧
      transition sampleDecay tenseState flattering 1000 sampleConfig = .ok rb ∧
      |ra.state.pleasure.val - rb.state.pleasure.val| ≤ 2 * (1 / 4) ∧
      |ra.state.tension.val - rb.state.tension.val| ≤ 1 / 20 + 1 / 20 := by
  obtain ⟨ra, rb, hra, hrb, -, -, hpleasure, -, -, htension, -⟩ :=
    one_appraisal_bounded sampleDecay sampleConfig tenseState hostile flattering
      (show (0 : ℚ) < 1000 by decide)
  exact ⟨ra, rb, hra, hrb, hpleasure, htension⟩

end Katherine.Emotion
