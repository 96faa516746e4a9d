import Katherine.Emotion.Transition
import Mathlib.Tactic.NormNum

/-!
# The relationship transition

`transition_relationship` of `backend/relationship.py` over an ordered field. Its
configuration does not order its thresholds, so any of the tests on the valence may
hold together. Each metric is a clamped sum all the same, and what is added to it is
bounded and goes one way with the valence; only the reconciliation takes something from
the tension after it was clamped, and only where there is some.
-/

namespace Katherine.Emotion

open Py Katherine

variable {K : Type} [Field K] [LinearOrder K] [IsStrictOrderedRing K]

/-! ## Values -/

/-- `RelationshipDomainError`. The checks of numbers are written as those of the emotional domain
are. -/
inductive RelationshipError
  | number (e : DomainError)
  | badTriggers
  | clockRegression
deriving DecidableEq

/-- `RelationshipStateV1`. -/
structure RelationshipState (K : Type) [Field K] [LinearOrder K] where
  trust : Unipolar K
  affection : Unipolar K
  tension : Unipolar K
  triggers : Triggers
  timestamp : {x : K // 0 < x}

/-- `_validate_triggers`, which raises. -/
def requireTriggers (raw : PyVal) : Except RelationshipError Triggers :=
  match validateTriggers raw with
  | some triggers => .ok triggers
  | none => .error .badTriggers

namespace RelationshipState

/-- `__post_init__`. -/
def postInit (trust affection tension timestamp : K) (triggers : PyVal) :
    Except RelationshipError (RelationshipState K) := do
  let trust ← (requireRange (py "trust") 0 1 trust).mapError .number
  let affection ← (requireRange (py "affection") 0 1 affection).mapError .number
  let tension ← (requireRange (py "tension") 0 1 tension).mapError .number
  let timestamp ← (requirePositive (py "timestamp") timestamp).mapError .number
  let triggers ← requireTriggers triggers
  return ⟨trust, affection, tension, triggers, timestamp⟩

/-- `RelationshipStateV1.create`: every check of the constructor, and then the constructor. -/
def create (trust affection tension : K) (triggers : PyVal) (timestamp : K) :
    Except RelationshipError (RelationshipState K) := do
  let trust ← (requireRange (py "trust") 0 1 trust).mapError .number
  let affection ← (requireRange (py "affection") 0 1 affection).mapError .number
  let tension ← (requireRange (py "tension") 0 1 tension).mapError .number
  let timestamp ← (requirePositive (py "timestamp") timestamp).mapError .number
  let triggers ← requireTriggers triggers
  postInit trust.val affection.val tension.val timestamp.val (.tuple (triggers.items.map .str))

end RelationshipState

/-- `RelationshipTransitionConfig`, as its constructor accepts it. -/
structure RelationshipTransitionConfig (K : Type) [Field K] [LinearOrder K] where
  trustPositiveThreshold : Bipolar K
  trustPositiveDelta : Unipolar K
  trustNegativeThreshold : Bipolar K
  trustNegativeDelta : {x : K // -1 ≤ x ∧ x ≤ 0}
  tendernessThreshold : Unipolar K
  tendernessBoost : Unipolar K
  joyThreshold : Unipolar K
  joyBoost : Unipolar K
  gratitudeThreshold : Unipolar K
  gratitudeBoost : Unipolar K
  angerThreshold : Unipolar K
  angerSpike : Unipolar K
  disgustThreshold : Unipolar K
  disgustSpike : Unipolar K
  tensionValenceThreshold : Bipolar K
  tensionValenceSpike : Unipolar K
  reconciliationValenceThreshold : Bipolar K
  reconciliationDelta : Unipolar K

/-! ## `transition_relationship` -/

/-- `get_emo`. -/
def getEmo (appraisal : Appraisal K) (key : DiscreteEmotion) : K :=
  ((appraisal.discreteEmotions.lookup key).map Subtype.val).getD 0

/-- `if c: total += amount`. -/
def addWhen (c : Prop) [Decidable c] (amount total : K) : K := if c then total + amount else total

def trustDelta (config : RelationshipTransitionConfig K) (valence : K) : K :=
  if config.trustPositiveThreshold.val < valence then config.trustPositiveDelta
  else if valence < config.trustNegativeThreshold.val then config.trustNegativeDelta
  else 0

def affectionBoost (config : RelationshipTransitionConfig K) (appraisal : Appraisal K) : K :=
  let boost := addWhen (config.tendernessThreshold.val < getEmo appraisal .tenderness)
    config.tendernessBoost.val 0
  let boost := addWhen (config.joyThreshold.val < getEmo appraisal .joy) config.joyBoost.val boost
  addWhen (config.gratitudeThreshold.val < getEmo appraisal .gratitude) config.gratitudeBoost.val boost

/-- What anger and disgust add to the tension. -/
def emotionSpike (config : RelationshipTransitionConfig K) (appraisal : Appraisal K) : K :=
  let spike := addWhen (config.angerThreshold.val < getEmo appraisal .anger) config.angerSpike.val 0
  addWhen (config.disgustThreshold.val < getEmo appraisal .disgust) config.disgustSpike.val spike

def tensionSpike (config : RelationshipTransitionConfig K) (appraisal : Appraisal K) : K :=
  addWhen (appraisal.valenceShift.val < config.tensionValenceThreshold.val)
    config.tensionValenceSpike.val (emotionSpike config appraisal)

/-- The tension after the reconciliation. -/
def reconcile (config : RelationshipTransitionConfig K) (valence tension : K) : K :=
  if config.reconciliationValenceThreshold.val < valence ∧ 0 < tension then
    clamp (tension - config.reconciliationDelta) 0 1
  else tension

/-- The new tension, both clamps and the reconciliation included. -/
def nextTension (config : RelationshipTransitionConfig K) (appraisal : Appraisal K) (tension : K) : K :=
  reconcile config appraisal.valenceShift (clamp (tension + tensionSpike config appraisal) 0 1)

/-- `transition_relationship`. -/
def transitionRelationship (previous : RelationshipState K) (appraisal : Appraisal K) (currentTime : K)
    (config : RelationshipTransitionConfig K) : Except RelationshipError (RelationshipState K) := do
  let time ← (requirePositive (py "current_time") currentTime).mapError .number
  if time.val < previous.timestamp.val then throw .clockRegression
  RelationshipState.create
    (clamp (previous.trust.val + trustDelta config appraisal.valenceShift) 0 1)
    (clamp (previous.affection.val + affectionBoost config appraisal) 0 1)
    (nextTension config appraisal previous.tension)
    (.tuple (previous.triggers.items.map .str)) time.val

/-! ## What the appraisal adds -/

theorem addWhen_mem {c : Prop} [Decidable c] {amount total bound : K} (h : 0 ≤ amount)
    (ht : 0 ≤ total ∧ total ≤ bound) :
    0 ≤ addWhen c amount total ∧ addWhen c amount total ≤ bound + amount := by
  unfold addWhen
  split
  · exact ⟨add_nonneg ht.1 h, add_le_add_left ht.2 amount⟩
  · exact ⟨ht.1, ht.2.trans (le_add_of_nonneg_right h)⟩

variable (config : RelationshipTransitionConfig K) (appraisal : Appraisal K)

omit [IsStrictOrderedRing K] in
theorem trustDelta_mem (valence : K) : config.trustNegativeDelta.val ≤ trustDelta config valence ∧
    trustDelta config valence ≤ config.trustPositiveDelta.val := by
  have hneg : config.trustNegativeDelta.val ≤ 0 := config.trustNegativeDelta.property.2
  have hpos : 0 ≤ config.trustPositiveDelta.val := config.trustPositiveDelta.property.1
  unfold trustDelta
  split
  · exact ⟨hneg.trans hpos, le_rfl⟩
  · split
    · exact ⟨le_rfl, hneg.trans hpos⟩
    · exact ⟨hneg, hpos⟩

omit [IsStrictOrderedRing K] in
/-- Where both thresholds are passed it is the positive delta that counts, at either valence. -/
theorem trustDelta_mono {v v' : K} (h : v ≤ v') : trustDelta config v ≤ trustDelta config v' := by
  by_cases hpos : config.trustPositiveThreshold.val < v
  · have hv : trustDelta config v = config.trustPositiveDelta := if_pos hpos
    have hv' : trustDelta config v' = config.trustPositiveDelta := if_pos (hpos.trans_le h)
    rw [hv, hv']
  · by_cases hneg : v < config.trustNegativeThreshold.val
    · have hv : trustDelta config v = config.trustNegativeDelta := by
        rw [trustDelta, if_neg hpos, if_pos hneg]
      rw [hv]
      exact (trustDelta_mem config v').1
    · have hv : trustDelta config v = 0 := by rw [trustDelta, if_neg hpos, if_neg hneg]
      have hneg' : ¬ v' < config.trustNegativeThreshold.val := not_lt.mpr ((not_lt.mp hneg).trans h)
      rw [hv, trustDelta, if_neg hneg']
      split
      · exact config.trustPositiveDelta.property.1
      · exact le_rfl

omit [IsStrictOrderedRing K] in
theorem getEmo_congr {a b : Appraisal K} (h : a.discreteEmotions = b.discreteEmotions)
    (key : DiscreteEmotion) : getEmo a key = getEmo b key := by
  rw [getEmo, getEmo, h]

omit [IsStrictOrderedRing K] in
theorem affectionBoost_congr {a b : Appraisal K} (h : a.discreteEmotions = b.discreteEmotions) :
    affectionBoost config a = affectionBoost config b := by
  unfold affectionBoost
  rw [getEmo_congr h .tenderness, getEmo_congr h .joy, getEmo_congr h .gratitude]

theorem affectionBoost_mem : 0 ≤ affectionBoost config appraisal ∧ affectionBoost config appraisal ≤
    config.tendernessBoost.val + config.joyBoost.val + config.gratitudeBoost.val := by
  have htenderness := addWhen_mem (c := config.tendernessThreshold.val < getEmo appraisal .tenderness)
    config.tendernessBoost.property.1 ⟨le_rfl, le_rfl⟩
  rw [zero_add] at htenderness
  have hjoy := addWhen_mem (c := config.joyThreshold.val < getEmo appraisal .joy)
    config.joyBoost.property.1 htenderness
  exact addWhen_mem config.gratitudeBoost.property.1 hjoy

theorem emotionSpike_mem : 0 ≤ emotionSpike config appraisal ∧
    emotionSpike config appraisal ≤ config.angerSpike.val + config.disgustSpike.val := by
  have hanger := addWhen_mem (c := config.angerThreshold.val < getEmo appraisal .anger)
    config.angerSpike.property.1 ⟨le_rfl, le_rfl⟩
  rw [zero_add] at hanger
  exact addWhen_mem config.disgustSpike.property.1 hanger

theorem tensionSpike_mem : 0 ≤ tensionSpike config appraisal ∧ tensionSpike config appraisal ≤
    config.angerSpike.val + config.disgustSpike.val + config.tensionValenceSpike.val :=
  addWhen_mem config.tensionValenceSpike.property.1 (emotionSpike_mem config appraisal)

/-- With the same emotions, the higher the valence the less it adds to the tension. -/
theorem tensionSpike_anti {a b : Appraisal K} (hemotions : a.discreteEmotions = b.discreteEmotions)
    (h : a.valenceShift.val ≤ b.valenceShift.val) : tensionSpike config b ≤ tensionSpike config a := by
  have hspike : emotionSpike config b = emotionSpike config a := by
    unfold emotionSpike
    rw [getEmo_congr hemotions .anger, getEmo_congr hemotions .disgust]
  unfold tensionSpike
  rw [hspike]
  by_cases hb : b.valenceShift.val < config.tensionValenceThreshold.val
  · rw [addWhen, addWhen, if_pos hb, if_pos (h.trans_lt hb)]
  · rw [addWhen, if_neg hb]
    unfold addWhen
    split
    · exact le_add_of_nonneg_right config.tensionValenceSpike.property.1
    · exact le_rfl

/-! ## The reconciliation -/

theorem reconcile_mem (valence : K) {tension : K} (h : 0 ≤ tension ∧ tension ≤ 1) :
    0 ≤ reconcile config valence tension ∧ reconcile config valence tension ≤ 1 := by
  unfold reconcile
  split
  · exact clamp_unipolar _
  · exact h

theorem sub_le_reconcile (valence : K) {tension : K} (h : 0 ≤ tension ∧ tension ≤ 1) :
    tension - config.reconciliationDelta.val ≤ reconcile config valence tension ∧
      reconcile config valence tension ≤ tension := by
  have hdelta : 0 ≤ config.reconciliationDelta.val := config.reconciliationDelta.property.1
  have hsub : tension - config.reconciliationDelta.val ≤ tension := sub_le_self tension hdelta
  unfold reconcile
  split
  · rw [clamp_eq zero_le_one, min_eq_left (hsub.trans h.2)]
    exact ⟨le_max_right _ _, max_le h.1 hsub⟩
  · exact ⟨hsub, le_rfl⟩

/-- A tension of 0 is not reconciled, and then it is the least there is. -/
theorem reconcile_mono (valence : K) {t t' : K} (h : 0 ≤ t) (htt' : t ≤ t') :
    reconcile config valence t ≤ reconcile config valence t' := by
  unfold reconcile
  by_cases hvalence : config.reconciliationValenceThreshold.val < valence
  · rcases h.lt_or_eq with hpos | rfl
    · rw [if_pos ⟨hvalence, hpos⟩, if_pos ⟨hvalence, hpos.trans_le htt'⟩]
      exact clamp_mono zero_le_one (sub_le_sub_right htt' _)
    · rw [if_neg fun hc => absurd hc.2 (lt_irrefl 0)]
      split
      · exact (clamp_unipolar _).1
      · exact htt'
  · rw [if_neg fun hc => hvalence hc.1, if_neg fun hc => hvalence hc.1]
    exact htt'

theorem reconcile_anti {v v' t : K} (h : 0 ≤ t ∧ t ≤ 1) (hvv' : v ≤ v') :
    reconcile config v' t ≤ reconcile config v t := by
  by_cases hvalence : config.reconciliationValenceThreshold.val < v
  · have hboth : ∀ w, v ≤ w → (config.reconciliationValenceThreshold.val < w ∧ 0 < t ↔ 0 < t) :=
      fun w hw => and_iff_right (hvalence.trans_le hw)
    unfold reconcile
    simp only [hboth v le_rfl, hboth v' hvv', le_rfl]
  · have hkept : reconcile config v t = t := if_neg fun hc => hvalence hc.1
    rw [hkept]
    exact (sub_le_reconcile config v' h).2

/-! ## The metrics -/

/-- A clamped sum moves no further than the sum, and not at all against its sign. -/
theorem clamp_add_mem {value delta low high : K} (h : 0 ≤ value ∧ value ≤ 1) (hlow : low ≤ 0)
    (hhigh : 0 ≤ high) (hdelta : low ≤ delta ∧ delta ≤ high) :
    value + low ≤ clamp (value + delta) 0 1 ∧ clamp (value + delta) 0 1 ≤ value + high := by
  have hle : value + low ≤ value := add_le_of_nonpos_right hlow
  have hge : value ≤ value + high := le_add_of_nonneg_right hhigh
  rw [clamp_eq zero_le_one]
  constructor
  · exact le_max_of_le_right (le_min (add_le_add_right hdelta.1 value) (hle.trans h.2))
  · exact max_le (h.1.trans hge) ((min_le_left _ _).trans (add_le_add_right hdelta.2 value))

theorem nextTension_mem (tension : K) :
    0 ≤ nextTension config appraisal tension ∧ nextTension config appraisal tension ≤ 1 :=
  reconcile_mem config _ (clamp_unipolar _)

theorem nextTension_delta {tension : K} (h : 0 ≤ tension ∧ tension ≤ 1) :
    tension - config.reconciliationDelta.val ≤ nextTension config appraisal tension ∧
      nextTension config appraisal tension ≤ tension +
        (config.angerSpike.val + config.disgustSpike.val + config.tensionValenceSpike.val) := by
  have hspike := tensionSpike_mem config appraisal
  obtain ⟨hlow, hhigh⟩ := clamp_add_mem h le_rfl (hspike.1.trans hspike.2) hspike
  rw [add_zero] at hlow
  obtain ⟨hsub, hle⟩ := sub_le_reconcile config appraisal.valenceShift.val
    (clamp_unipolar (tension + tensionSpike config appraisal))
  exact ⟨(sub_le_sub_right hlow _).trans hsub, hle.trans hhigh⟩

theorem nextTension_mono {t t' : K} (h : t ≤ t') :
    nextTension config appraisal t ≤ nextTension config appraisal t' :=
  reconcile_mono config _ (clamp_unipolar _).1 (clamp_mono zero_le_one (add_le_add_left h _))

/-- The spike and the reconciliation go the same way. -/
theorem nextTension_anti {a b : Appraisal K} (hemotions : a.discreteEmotions = b.discreteEmotions)
    (h : a.valenceShift.val ≤ b.valenceShift.val) (tension : K) :
    nextTension config b tension ≤ nextTension config a tension := by
  have hspike := tensionSpike_anti config hemotions h
  calc nextTension config b tension
      ≤ reconcile config b.valenceShift.val (clamp (tension + tensionSpike config a) 0 1) :=
        reconcile_mono config _ (clamp_unipolar _).1
          (clamp_mono zero_le_one (add_le_add_right hspike tension))
    _ ≤ nextTension config a tension := reconcile_anti config (clamp_unipolar _) h

/-! ## The transition -/

theorem requireTriggers_items (triggers : Triggers) :
    requireTriggers (.tuple (triggers.items.map .str)) = .ok triggers := by
  have h : validateTriggers (.tuple (triggers.items.map .str)) = some triggers :=
    validateTriggers_items triggers
  rw [requireTriggers, h]

omit [IsStrictOrderedRing K] in
/-- Metrics in their range make a state. -/
theorem RelationshipState.create_ok {trust affection tension timestamp : K}
    (htrust : 0 ≤ trust ∧ trust ≤ 1) (haffection : 0 ≤ affection ∧ affection ≤ 1)
    (htension : 0 ≤ tension ∧ tension ≤ 1) (triggers : Triggers) (htime : 0 < timestamp) :
    create trust affection tension (.tuple (triggers.items.map .str)) timestamp =
      .ok ⟨⟨trust, htrust⟩, ⟨affection, haffection⟩, ⟨tension, htension⟩, triggers,
        ⟨timestamp, htime⟩⟩ := by
  have hpositive : requirePositive (py "timestamp") timestamp = .ok ⟨timestamp, htime⟩ := dif_pos htime
  simp only [create, postInit, requireRange_ok htrust, requireRange_ok haffection,
    requireRange_ok htension, hpositive, requireTriggers_items, Except.mapError, bind, Except.bind]
  rfl

/-- The state the transition leads to. -/
def nextRelationship (previous : RelationshipState K) (currentTime : {x : K // 0 < x}) :
    RelationshipState K where
  trust := ⟨clamp (previous.trust.val + trustDelta config appraisal.valenceShift) 0 1,
    clamp_unipolar _⟩
  affection := ⟨clamp (previous.affection.val + affectionBoost config appraisal) 0 1, clamp_unipolar _⟩
  tension := ⟨nextTension config appraisal previous.tension, nextTension_mem config appraisal _⟩
  triggers := previous.triggers
  timestamp := currentTime

/-- **The transition raises on a clock that went back, and on nothing else.** -/
theorem transitionRelationship_eq (previous : RelationshipState K) (time : {x : K // 0 < x}) :
    transitionRelationship previous appraisal time.val config =
      if time.val < previous.timestamp.val then .error .clockRegression
      else .ok (nextRelationship config appraisal previous time) := by
  have hpositive : requirePositive (py "current_time") time.val = .ok time := dif_pos time.property
  unfold transitionRelationship
  rw [hpositive]
  simp only [Except.mapError, bind, Except.bind]
  split
  · rfl
  · rw [RelationshipState.create_ok (clamp_unipolar _) (clamp_unipolar _)
      (nextTension_mem config appraisal _) previous.triggers time.property]
    rfl

/-- What one transition may do to the metrics of `previous`. -/
structure Bounded (previous next : RelationshipState K) : Prop where
  trust : previous.trust.val + config.trustNegativeDelta.val ≤ next.trust.val ∧
    next.trust.val ≤ previous.trust.val + config.trustPositiveDelta.val
  affection : previous.affection.val ≤ next.affection.val ∧ next.affection.val ≤
    previous.affection.val +
      (config.tendernessBoost.val + config.joyBoost.val + config.gratitudeBoost.val)
  tension : previous.tension.val - config.reconciliationDelta.val ≤ next.tension.val ∧
    next.tension.val ≤ previous.tension.val +
      (config.angerSpike.val + config.disgustSpike.val + config.tensionValenceSpike.val)

theorem nextRelationship_bounded (previous : RelationshipState K) (time : {x : K // 0 < x}) :
    Bounded config previous (nextRelationship config appraisal previous time) where
  trust := clamp_add_mem previous.trust.property config.trustNegativeDelta.property.2
    config.trustPositiveDelta.property.1 (trustDelta_mem config _)
  affection := by
    have hboost := affectionBoost_mem config appraisal
    have h := clamp_add_mem previous.affection.property le_rfl (hboost.1.trans hboost.2) hboost
    rw [add_zero] at h
    exact h
  tension := nextTension_delta config appraisal previous.tension.property

/-- Each metric of the second state is at least that of the first, if it was. -/
structure KeepsOrder (previous previous' next next' : RelationshipState K) : Prop where
  trust : previous.trust.val ≤ previous'.trust.val → next.trust.val ≤ next'.trust.val
  affection : previous.affection.val ≤ previous'.affection.val →
    next.affection.val ≤ next'.affection.val
  tension : previous.tension.val ≤ previous'.tension.val → next.tension.val ≤ next'.tension.val

theorem nextRelationship_keepsOrder (previous previous' : RelationshipState K)
    (time : {x : K // 0 < x}) :
    KeepsOrder previous previous' (nextRelationship config appraisal previous time)
      (nextRelationship config appraisal previous' time) where
  trust h := clamp_mono zero_le_one (add_le_add_left h _)
  affection h := clamp_mono zero_le_one (add_le_add_left h _)
  tension h := nextTension_mono config appraisal h

/-- **The relationship transition is bounded and keeps order.** Whatever the configuration, the
previous state and the appraisal, a transition at a time not before the last one does not raise, keeps
the metrics in their ranges and the triggers as they are, moves each metric by no more than its deltas
allow, and is monotone in the previous state metric by metric. A higher valence, everything else the
same, leads to no less trust and no more tension. -/
theorem transition_relationship_bounded (previous : RelationshipState K) {currentTime : K}
    (hpos : 0 < currentTime) (hclock : previous.timestamp.val ≤ currentTime) :
    ∃ next, transitionRelationship previous appraisal currentTime config = .ok next ∧
      (0 ≤ next.trust.val ∧ next.trust.val ≤ 1) ∧
      (0 ≤ next.affection.val ∧ next.affection.val ≤ 1) ∧
      (0 ≤ next.tension.val ∧ next.tension.val ≤ 1) ∧
      next.triggers = previous.triggers ∧ next.timestamp.val = currentTime ∧
      Bounded config previous next ∧
      (∀ previous' : RelationshipState K, previous'.timestamp.val ≤ currentTime →
        ∃ next', transitionRelationship previous' appraisal currentTime config = .ok next' ∧
          KeepsOrder previous previous' next next') ∧
      ∀ appraisal' : Appraisal K, appraisal'.discreteEmotions = appraisal.discreteEmotions →
        appraisal.valenceShift.val ≤ appraisal'.valenceShift.val →
        ∃ next', transitionRelationship previous appraisal' currentTime config = .ok next' ∧
          next.trust.val ≤ next'.trust.val ∧ next'.affection.val = next.affection.val ∧
          next'.tension.val ≤ next.tension.val := by
  let time : {x : K // 0 < x} := ⟨currentTime, hpos⟩
  have hok : ∀ (appraisal : Appraisal K) (previous : RelationshipState K),
      previous.timestamp.val ≤ currentTime →
      transitionRelationship previous appraisal currentTime config =
        .ok (nextRelationship config appraisal previous time) := by
    intro appraisal previous hclock
    rw [transitionRelationship_eq config appraisal previous time, if_neg (not_lt.mpr hclock)]
  refine ⟨_, hok appraisal previous hclock, clamp_unipolar _, clamp_unipolar _,
    nextTension_mem config appraisal _, rfl, rfl, nextRelationship_bounded config appraisal previous time,
    ?_, ?_⟩
  · intro previous' hclock'
    exact ⟨_, hok appraisal previous' hclock',
      nextRelationship_keepsOrder config appraisal previous previous' time⟩
  · intro appraisal' hemotions hvalence
    have hboost : affectionBoost config appraisal' = affectionBoost config appraisal :=
      affectionBoost_congr config hemotions
    refine ⟨_, hok appraisal' previous hclock, ?_, ?_, ?_⟩
    · exact clamp_mono zero_le_one (add_le_add_right (trustDelta_mono config hvalence) _)
    · change clamp (previous.affection.val + affectionBoost config appraisal') 0 1 = _
      rw [hboost]
      rfl
    · exact nextTension_anti config hemotions.symm hvalence _

/-! ## A transition over the rationals -/

/-- The defaults, but for two thresholds that make a mild valence count as good and as bad. -/
def overlappingConfig : RelationshipTransitionConfig ℚ where
  trustPositiveThreshold := ⟨1 / 5, by decide +kernel⟩
  trustPositiveDelta := ⟨1 / 50, by decide +kernel⟩
  trustNegativeThreshold := ⟨1 / 2, by decide +kernel⟩
  trustNegativeDelta := ⟨-1 / 20, by decide +kernel⟩
  tendernessThreshold := ⟨3 / 10, threeTenths_unipolar⟩
  tendernessBoost := ⟨3 / 100, by decide +kernel⟩
  joyThreshold := ⟨3 / 10, threeTenths_unipolar⟩
  joyBoost := ⟨1 / 100, by decide +kernel⟩
  gratitudeThreshold := ⟨3 / 10, threeTenths_unipolar⟩
  gratitudeBoost := ⟨1 / 50, by decide +kernel⟩
  angerThreshold := ⟨3 / 10, threeTenths_unipolar⟩
  angerSpike := ⟨1 / 10, by decide +kernel⟩
  disgustThreshold := ⟨3 / 10, threeTenths_unipolar⟩
  disgustSpike := ⟨1 / 10, by decide +kernel⟩
  tensionValenceThreshold := ⟨1 / 2, by decide +kernel⟩
  tensionValenceSpike := ⟨1 / 20, twentieth_unipolar⟩
  reconciliationValenceThreshold := ⟨3 / 10, threeTenths_bipolar⟩
  reconciliationDelta := ⟨1 / 10, by decide +kernel⟩

def acquaintance : RelationshipState ℚ where
  trust := ⟨1 / 2, half_unipolar⟩
  affection := ⟨3 / 10, threeTenths_unipolar⟩
  tension := ⟨0, zero_unipolar⟩
  triggers := ⟨[py "exames"], by decide, by decide, by decide⟩
  timestamp := ⟨1000, thousand_pos⟩

/-- Cross, and pleased on the whole. -/
def mixed : Appraisal ℚ :=
  ⟨⟨2 / 5, by decide +kernel⟩, ⟨0, zero_bipolar⟩, ⟨0, zero_bipolar⟩,
    [(.anger, ⟨1 / 2, half_unipolar⟩)], by decide⟩

theorem transition_relationship_bounded_sample : ∃ next,
    transitionRelationship acquaintance mixed 1060 overlappingConfig = .ok next ∧
      next.triggers.items = [py "exames"] ∧ next.tension.val ≤ 1 / 4 := by
  obtain ⟨next, hnext, -, -, -, htriggers, -, hbounded, -⟩ :=
    transition_relationship_bounded overlappingConfig mixed acquaintance (show (0 : ℚ) < 1060 by decide) (by decide)
  refine ⟨next, hnext, ?_, ?_⟩
  · rw [htriggers]
    rfl
  · refine hbounded.tension.2.trans ?_
    change (0 : ℚ) + (1 / 10 + 1 / 10 + 1 / 20) ≤ 1 / 4
    norm_num

end Katherine.Emotion
