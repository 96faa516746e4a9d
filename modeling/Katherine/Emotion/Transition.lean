import Katherine.Presentation
import Mathlib.Algebra.Order.Field.Basic
import Mathlib.Algebra.Order.Field.Rat
import Mathlib.Algebra.Order.Group.MinMax

/-!
# The emotional transition

`transition` of `backend/emotional_domain/transition.py` over an ordered field, so
without rounding and without overflow, and with any function in place of
`0.5 ** x`. Unlike the snapshots of `Katherine.Domain`, which only have to be read and
written, a state here is computed: the transition works on bare numbers, and
`EmotionalState.create` and `RegulationResult.create` check what it computed.

The coping mode has a memory. Between the two thresholds it stays what it was, so after
a run it is what the last tension outside of them made it: `settledMode`.
-/

namespace Katherine.Emotion

open Py Katherine

variable {K : Type} [Field K] [LinearOrder K] [IsStrictOrderedRing K]

/-! ## Values -/

abbrev Bipolar (K : Type) [Field K] [LinearOrder K] := {x : K // -1 ≤ x ∧ x ≤ 1}

abbrev Unipolar (K : Type) [Field K] [LinearOrder K] := {x : K // 0 ≤ x ∧ x ≤ 1}

/-- The consistency checks of `RegulationResult`. -/
inductive RegulationCheck
  | changedInconsistent
  | reasonWithoutChange
  | changeWithoutReason
  | recoveredNotHealthy
  | positiveDominanceNotDefensive
  | nonpositiveDominanceNotDissociated
deriving DecidableEq

/-- `EmotionalDomainError`, with the field or the check it names. -/
inductive DomainError
  | outOfRange (field : PyStr)
  | notPositive (field : PyStr)
  | regulation (check : RegulationCheck)
deriving DecidableEq

omit [IsStrictOrderedRing K] in
/-- `_require_finite_float_in_range`. -/
def requireRange (field : PyStr) (lo hi value : K) : Except DomainError {x : K // lo ≤ x ∧ x ≤ hi} :=
  if h : lo ≤ value ∧ value ≤ hi then .ok ⟨value, h⟩ else .error (.outOfRange field)

/-- `_require_positive_float`. -/
def requirePositive (field : PyStr) (value : K) : Except DomainError {x : K // 0 < x} :=
  if h : 0 < value then .ok ⟨value, h⟩ else .error (.notPositive field)

/-- `EmotionalStateV1`. -/
structure EmotionalState (K : Type) [Field K] [LinearOrder K] where
  pleasure : Bipolar K
  arousal : Bipolar K
  dominance : Bipolar K
  libido : Unipolar K
  aggression : Unipolar K
  connection : Unipolar K
  energy : Unipolar K
  tension : Unipolar K
  copingMode : CopingMode
  timestamp : {x : K // 0 < x}

/-- `EmotionalStateV1.create`. -/
def EmotionalState.create (pleasure arousal dominance libido aggression connection energy tension : K)
    (copingMode : CopingMode) (timestamp : K) : Except DomainError (EmotionalState K) := do
  let pleasure ← requireRange (py "pleasure") (-1) 1 pleasure
  let arousal ← requireRange (py "arousal") (-1) 1 arousal
  let dominance ← requireRange (py "dominance") (-1) 1 dominance
  let libido ← requireRange (py "libido") 0 1 libido
  let aggression ← requireRange (py "aggression") 0 1 aggression
  let connection ← requireRange (py "connection") 0 1 connection
  let energy ← requireRange (py "energy") 0 1 energy
  let tension ← requireRange (py "tension") 0 1 tension
  let timestamp ← requirePositive (py "timestamp") timestamp
  return ⟨pleasure, arousal, dominance, libido, aggression, connection, energy, tension, copingMode,
    timestamp⟩

/-- `AppraisalV1`. -/
structure Appraisal (K : Type) [Field K] [LinearOrder K] where
  valenceShift : Bipolar K
  arousalShift : Bipolar K
  dominanceShift : Bipolar K
  discreteEmotions : List (DiscreteEmotion × Unipolar K)
  nodup : (discreteEmotions.map (·.1)).Nodup

/-- `TransitionConfig`, as its constructor accepts it. -/
structure TransitionConfig (K : Type) [Field K] [LinearOrder K] where
  padHalfLife : {x : K // 0 < x}
  tensionHalfLife : {x : K // 0 < x}
  padBaseline : Bipolar K
  tensionBaseline : Unipolar K
  maxPleasureShift : Unipolar K
  maxArousalShift : Unipolar K
  maxDominanceShift : Unipolar K
  negativePleasureThreshold : Bipolar K
  positivePleasureThreshold : Bipolar K
  tensionIncrease : Unipolar K
  tensionRelief : Unipolar K
  activationThreshold : Unipolar K
  recoveryThreshold : Unipolar K
  dissociationArousalFactor : Unipolar K
  pleasureOrder : negativePleasureThreshold.val < positivePleasureThreshold.val
  tensionOrder : recoveryThreshold.val < activationThreshold.val

/-! ## Regulation -/

inductive RegulationReason
  | none
  | highTensionPositiveDominance
  | highTensionNonpositiveDominance
  | recovered
deriving DecidableEq

structure RegulationResult where
  previousMode : CopingMode
  currentMode : CopingMode
  changed : Bool
  reason : RegulationReason
deriving DecidableEq

def require (c : Bool) (check : RegulationCheck) : Except DomainError Unit :=
  if c then .ok () else .error (.regulation check)

/-- `RegulationResult(...)`, with the checks of `__post_init__`. -/
def RegulationResult.create (previousMode currentMode : CopingMode) (changed : Bool)
    (reason : RegulationReason) : Except DomainError RegulationResult := do
  require (changed = decide (previousMode ≠ currentMode)) .changedInconsistent
  require (!(!changed && decide (reason ≠ .none))) .reasonWithoutChange
  require (!(changed && decide (reason = .none))) .changeWithoutReason
  require (!(decide (reason = .recovered) && decide (currentMode ≠ .healthy))) .recoveredNotHealthy
  require (!(decide (reason = .highTensionPositiveDominance) && decide (currentMode ≠ .defensive)))
    .positiveDominanceNotDefensive
  require (!(decide (reason = .highTensionNonpositiveDominance)
    && decide (currentMode ≠ .dissociated))) .nonpositiveDominanceNotDissociated
  return ⟨previousMode, currentMode, changed, reason⟩

structure TransitionResult (K : Type) [Field K] [LinearOrder K] where
  state : EmotionalState K
  regulation : RegulationResult

/-! ## The arithmetic -/

/-- `_exponential_decay`; `decay x` is `0.5 ** x`. -/
def exponentialDecay (decay : K → K) (value baseline elapsed halfLife : K) : K :=
  if halfLife ≤ 0 then value else baseline + (value - baseline) * decay (elapsed / halfLife)

/-- `_clamp`. -/
def clamp (value lo hi : K) : K := if value < lo then lo else if hi < value then hi else value

/-- `_clamp_shift`. -/
def clampShift (rawShift cap : K) : K := clamp rawShift (-cap) cap

/-- `_determine_coping_mode`. -/
def determineCopingMode (tension dominance : K) (previousMode : CopingMode)
    (config : TransitionConfig K) : CopingMode :=
  if config.activationThreshold.val ≤ tension then
    if 0 < dominance then .defensive else .dissociated
  else if tension ≤ config.recoveryThreshold.val then .healthy
  else previousMode

/-- Step 10: the reason of a mode change. -/
def regulationReason (previousMode newMode : CopingMode) : RegulationReason :=
  if previousMode = newMode then .none
  else match newMode with
    | .healthy => .recovered
    | .defensive => .highTensionPositiveDominance
    | .dissociated => .highTensionNonpositiveDominance
    | .manic => .none

/-! ## `transition` -/

/-- The elapsed seconds and the timestamp of the new state; a clock that went back counts as one
that stood still. -/
def elapsedTime (timestamp currentTime : K) : K × K :=
  if currentTime < timestamp then (0, timestamp) else (currentTime - timestamp, currentTime)

/-- Steps 3 to 5 for one axis: decay, the capped shift, the clamp. -/
def shiftAxis (decay : K → K) (config : TransitionConfig K) (elapsed value shift cap : K) : K :=
  clamp (exponentialDecay decay value config.padBaseline elapsed config.padHalfLife
    + clampShift shift cap) (-1) 1

/-- Steps 3, 6 and 7: the tension, given the new pleasure. -/
def updateTension (decay : K → K) (config : TransitionConfig K) (elapsed tension pleasure : K) : K :=
  let delta : K :=
    if pleasure < config.negativePleasureThreshold.val then config.tensionIncrease
    else if config.positivePleasureThreshold.val < pleasure then -config.tensionRelief.val
    else 0
  clamp (exponentialDecay decay tension config.tensionBaseline elapsed config.tensionHalfLife + delta) 0 1

/-- `transition`. -/
def transition (decay : K → K) (previous : EmotionalState K) (appraisal : Appraisal K) (currentTime : K)
    (config : TransitionConfig K) : Except DomainError (TransitionResult K) := do
  let time ← requirePositive (py "current_time") currentTime
  let (elapsed, timestamp) := elapsedTime previous.timestamp.val time.val
  let pleasure := shiftAxis decay config elapsed previous.pleasure appraisal.valenceShift
    config.maxPleasureShift
  let arousal := shiftAxis decay config elapsed previous.arousal appraisal.arousalShift
    config.maxArousalShift
  let dominance := shiftAxis decay config elapsed previous.dominance appraisal.dominanceShift
    config.maxDominanceShift
  let tension := updateTension decay config elapsed previous.tension pleasure
  let mode := determineCopingMode tension dominance previous.copingMode config
  let regulatedArousal :=
    if mode = .dissociated then clamp (arousal * config.dissociationArousalFactor) (-1) 1 else arousal
  let regulation ← RegulationResult.create previous.copingMode mode (previous.copingMode ≠ mode)
    (regulationReason previous.copingMode mode)
  let state ← EmotionalState.create pleasure regulatedArousal dominance previous.libido.val
    previous.aggression.val previous.connection.val previous.energy.val tension mode timestamp
  return ⟨state, regulation⟩

/-- `transition` after `transition`, each at its own time. -/
def iterate (decay : K → K) (config : TransitionConfig K) :
    EmotionalState K → List (Appraisal K × K) → Except DomainError (List (TransitionResult K))
  | _, [] => .ok []
  | previous, (appraisal, currentTime) :: inputs => do
      let result ← transition decay previous appraisal currentTime config
      let rest ← iterate decay config result.state inputs
      return result :: rest

/-- The state that the results `rs` lead to from `s`. -/
def lastState (s : EmotionalState K) (rs : List (TransitionResult K)) : EmotionalState K :=
  (rs.getLast?.map (·.state)).getD s

/-! ## One transition -/

omit [Field K] [IsStrictOrderedRing K] in
theorem clamp_mem {value lo hi : K} (h : lo ≤ hi) : lo ≤ clamp value lo hi ∧ clamp value lo hi ≤ hi := by
  unfold clamp
  split
  · exact ⟨le_rfl, h⟩
  · rename_i hlo
    split
    · exact ⟨h, le_rfl⟩
    · rename_i hhi
      exact ⟨not_lt.mp hlo, not_lt.mp hhi⟩

theorem clamp_bipolar (value : K) : -1 ≤ clamp value (-1) 1 ∧ clamp value (-1) 1 ≤ 1 :=
  clamp_mem ((neg_nonpos.mpr zero_le_one).trans zero_le_one)

theorem clamp_unipolar (value : K) : 0 ≤ clamp value 0 1 ∧ clamp value 0 1 ≤ 1 := clamp_mem zero_le_one

omit [Field K] [IsStrictOrderedRing K] in
theorem clamp_eq {lo hi : K} (h : lo ≤ hi) (value : K) : clamp value lo hi = max lo (min value hi) := by
  unfold clamp
  split
  · rename_i hlo
    exact (max_eq_left ((min_le_left value hi).trans hlo.le)).symm
  · rename_i hlo
    rw [not_lt] at hlo
    split
    · rename_i hhi
      rw [min_eq_right hhi.le, max_eq_right h]
    · rename_i hhi
      rw [min_eq_left (not_lt.mp hhi), max_eq_right hlo]

omit [Field K] [IsStrictOrderedRing K] in
theorem clamp_of_mem {value lo hi : K} (h : lo ≤ value ∧ value ≤ hi) : clamp value lo hi = value := by
  rw [clamp_eq (h.1.trans h.2), min_eq_left h.2, max_eq_right h.1]

omit [Field K] [IsStrictOrderedRing K] in
theorem clamp_mono {lo hi x y : K} (h : lo ≤ hi) (hxy : x ≤ y) : clamp x lo hi ≤ clamp y lo hi := by
  rw [clamp_eq h, clamp_eq h]
  exact max_le_max_left lo (min_le_min_right hi hxy)

/-- Clamping does not move two values apart. -/
theorem abs_clamp_sub_le {lo hi : K} (h : lo ≤ hi) (x y : K) :
    |clamp x lo hi - clamp y lo hi| ≤ |x - y| := by
  rw [clamp_eq h, clamp_eq h]
  calc |max lo (min x hi) - max lo (min y hi)|
      ≤ max |lo - lo| |min x hi - min y hi| := abs_max_sub_max_le_max lo _ lo _
    _ = |min x hi - min y hi| := by rw [sub_self, abs_zero, max_eq_right (abs_nonneg _)]
    _ ≤ max |x - y| |hi - hi| := abs_min_sub_min_le_max x hi y hi
    _ = |x - y| := by rw [sub_self, abs_zero, max_eq_left (abs_nonneg _)]

omit [Field K] [IsStrictOrderedRing K] in
theorem requireRange_ok {field : PyStr} {lo hi value : K} (h : lo ≤ value ∧ value ≤ hi) :
    requireRange field lo hi value = .ok ⟨value, h⟩ := dif_pos h

/-- The regulation the transition builds passes its checks. -/
theorem regulation_ok (previousMode : CopingMode) {mode : CopingMode}
    (hmanic : mode = .manic → previousMode = .manic) :
    RegulationResult.create previousMode mode (previousMode ≠ mode) (regulationReason previousMode mode)
      = .ok ⟨previousMode, mode, previousMode ≠ mode, regulationReason previousMode mode⟩ := by
  cases mode with
  | manic =>
      obtain rfl := hmanic rfl
      rfl
  | _ => cases previousMode <;> rfl

omit [IsStrictOrderedRing K] in
/-- `MANIC` is kept, never entered. -/
theorem determineCopingMode_manic {tension dominance : K} {previousMode : CopingMode}
    {config : TransitionConfig K} (h : determineCopingMode tension dominance previousMode config = .manic) :
    previousMode = .manic := by
  unfold determineCopingMode at h
  split at h
  · split at h <;> cases h
  · split at h
    · cases h
    · exact h

omit [IsStrictOrderedRing K] in
theorem elapsedTime_snd (timestamp currentTime : K) :
    (elapsedTime timestamp currentTime).2 = max timestamp currentTime := by
  unfold elapsedTime
  split
  · rename_i h
    exact (max_eq_left h.le).symm
  · rename_i h
    exact (max_eq_right (not_lt.mp h)).symm

/-- What a transition from `previous` at `currentTime` leads to. -/
structure Transitioned (config : TransitionConfig K) (previous : EmotionalState K) (currentTime : K)
    (r : TransitionResult K) : Prop where
  libido : r.state.libido = previous.libido
  aggression : r.state.aggression = previous.aggression
  connection : r.state.connection = previous.connection
  energy : r.state.energy = previous.energy
  timestamp : r.state.timestamp.val = max previous.timestamp.val currentTime
  copingMode : r.state.copingMode =
    determineCopingMode r.state.tension.val r.state.dominance.val previous.copingMode config
  regulation : r.regulation = ⟨previous.copingMode, r.state.copingMode,
    previous.copingMode ≠ r.state.copingMode, regulationReason previous.copingMode r.state.copingMode⟩

omit [IsStrictOrderedRing K] in
/-- Values in their ranges make a state. -/
theorem create_ok {pleasure arousal dominance tension timestamp : K}
    (hp : -1 ≤ pleasure ∧ pleasure ≤ 1) (ha : -1 ≤ arousal ∧ arousal ≤ 1)
    (hd : -1 ≤ dominance ∧ dominance ≤ 1) (libido aggression connection energy : Unipolar K)
    (ht : 0 ≤ tension ∧ tension ≤ 1) (mode : CopingMode) (hts : 0 < timestamp) :
    EmotionalState.create pleasure arousal dominance libido.val aggression.val connection.val energy.val
      tension mode timestamp = .ok ⟨⟨pleasure, hp⟩, ⟨arousal, ha⟩, ⟨dominance, hd⟩, libido, aggression,
        connection, energy, ⟨tension, ht⟩, mode, ⟨timestamp, hts⟩⟩ := by
  have hpositive : requirePositive (py "timestamp") timestamp = .ok ⟨timestamp, hts⟩ := dif_pos hts
  rw [EmotionalState.create, requireRange_ok hp, requireRange_ok ha, requireRange_ok hd,
    requireRange_ok libido.property, requireRange_ok aggression.property,
    requireRange_ok connection.property, requireRange_ok energy.property, requireRange_ok ht, hpositive]
  rfl

/-- The numbers a transition computes after `elapsed` seconds. -/
structure Computed (decay : K → K) (config : TransitionConfig K) (previous : EmotionalState K)
    (appraisal : Appraisal K) (elapsed : K) (r : TransitionResult K) : Prop where
  pleasure : r.state.pleasure.val =
    shiftAxis decay config elapsed previous.pleasure appraisal.valenceShift config.maxPleasureShift
  dominance : r.state.dominance.val =
    shiftAxis decay config elapsed previous.dominance appraisal.dominanceShift config.maxDominanceShift
  tension : r.state.tension.val =
    updateTension decay config elapsed previous.tension r.state.pleasure.val
  arousal : r.state.arousal.val =
    if r.state.copingMode = .dissociated then
      clamp (shiftAxis decay config elapsed previous.arousal appraisal.arousalShift
        config.maxArousalShift * config.dissociationArousalFactor) (-1) 1
    else shiftAxis decay config elapsed previous.arousal appraisal.arousalShift config.maxArousalShift

/-- **A transition at a positive time does not raise.** -/
theorem transition_computed (decay : K → K) (config : TransitionConfig K) (previous : EmotionalState K)
    (appraisal : Appraisal K) {currentTime : K} (htime : 0 < currentTime) :
    ∃ r, transition decay previous appraisal currentTime config = .ok r ∧
      Transitioned config previous currentTime r ∧
      Computed decay config previous appraisal (elapsedTime previous.timestamp.val currentTime).1 r := by
  have hpositive : requirePositive (py "current_time") currentTime = .ok ⟨currentTime, htime⟩ :=
    dif_pos htime
  have hmax := elapsedTime_snd previous.timestamp.val currentTime
  have hstamp : 0 < (elapsedTime previous.timestamp.val currentTime).2 := by
    rw [hmax]
    exact lt_max_of_lt_right htime
  unfold transition
  rw [hpositive]
  simp only [bind, Except.bind]
  generalize elapsedTime previous.timestamp.val currentTime = now at hmax hstamp ⊢
  -- every axis was clamped last
  have haxis : ∀ value shift cap : K, -1 ≤ shiftAxis decay config now.1 value shift cap ∧
      shiftAxis decay config now.1 value shift cap ≤ 1 := fun _ _ _ => clamp_bipolar _
  have htension : ∀ tension pleasure : K, 0 ≤ updateTension decay config now.1 tension pleasure ∧
      updateTension decay config now.1 tension pleasure ≤ 1 := fun _ _ => clamp_unipolar _
  generalize hmode : determineCopingMode _ _ previous.copingMode config = mode
  rw [regulation_ok previous.copingMode fun hm => determineCopingMode_manic (hmode.trans hm)]
  have harousal : ∀ arousal : K, -1 ≤ arousal ∧ arousal ≤ 1 →
      -1 ≤ (if mode = .dissociated then clamp (arousal * config.dissociationArousalFactor) (-1) 1
        else arousal) ∧
      (if mode = .dissociated then clamp (arousal * config.dissociationArousalFactor) (-1) 1
        else arousal) ≤ 1 := by
    intro arousal h
    split
    · exact clamp_bipolar _
    · exact h
  dsimp only
  rw [create_ok (haxis _ _ _) (harousal _ (haxis _ _ _)) (haxis _ _ _) previous.libido
    previous.aggression previous.connection previous.energy (htension _ _) mode hstamp]
  exact ⟨_, rfl, ⟨rfl, rfl, rfl, rfl, hmax, hmode.symm, rfl⟩, rfl, rfl, rfl, rfl⟩

theorem transition_ok (decay : K → K) (config : TransitionConfig K) (previous : EmotionalState K)
    (appraisal : Appraisal K) {currentTime : K} (htime : 0 < currentTime) :
    ∃ r, transition decay previous appraisal currentTime config = .ok r ∧
      Transitioned config previous currentTime r := by
  obtain ⟨r, hr, hstep, -⟩ := transition_computed decay config previous appraisal htime
  exact ⟨r, hr, hstep⟩

/-! ## Runs -/

/-- `rs` are the results of transitions from `s`, one for each input. -/
inductive Follows (config : TransitionConfig K) :
    EmotionalState K → List (Appraisal K × K) → List (TransitionResult K) → Prop
  | nil (s : EmotionalState K) : Follows config s [] []
  | cons {s : EmotionalState K} {x : Appraisal K × K} {r : TransitionResult K}
      {inputs : List (Appraisal K × K)} {rs : List (TransitionResult K)}
      (hstep : Transitioned config s x.2 r) (hrest : Follows config r.state inputs rs) :
      Follows config s (x :: inputs) (r :: rs)

theorem iterate_ok (decay : K → K) (config : TransitionConfig K) :
    ∀ (inputs : List (Appraisal K × K)) (s : EmotionalState K), (∀ x ∈ inputs, 0 < x.2) →
    ∃ rs, iterate decay config s inputs = .ok rs ∧ Follows config s inputs rs
  | [], s, _ => ⟨[], rfl, .nil s⟩
  | (appraisal, currentTime) :: inputs, s, h => by
      obtain ⟨r, hr, hstep⟩ :=
        transition_ok decay config s appraisal (h (appraisal, currentTime) List.mem_cons_self)
      obtain ⟨rs, hrs, hrest⟩ :=
        iterate_ok decay config inputs r.state fun x hx => h x (List.mem_cons_of_mem _ hx)
      refine ⟨r :: rs, ?_, .cons hstep hrest⟩
      rw [iterate, hr]
      simp only [bind, Except.bind, hrs]
      rfl

/-- The drives of two states are the same. -/
def SameDrives (s s' : EmotionalState K) : Prop :=
  s'.libido = s.libido ∧ s'.aggression = s.aggression ∧ s'.connection = s.connection ∧
    s'.energy = s.energy

/-- Where the tension left the interval between the thresholds. -/
def crosses (config : TransitionConfig K) (x : K × K) : Bool :=
  decide (config.activationThreshold.val ≤ x.1) || decide (x.1 ≤ config.recoveryThreshold.val)

/-- The mode after the pairs of tension and dominance `xs`: the last pair with a tension outside the
thresholds decides. -/
def settledMode (config : TransitionConfig K) (initial : CopingMode) (xs : List (K × K)) : CopingMode :=
  match xs.reverse.find? (crosses config) with
  | none => initial
  | some (tension, dominance) =>
      if config.activationThreshold.val ≤ tension then
        if 0 < dominance then .defensive else .dissociated
      else .healthy

/-- What a step computes before it chooses the mode. -/
def TransitionResult.levels (r : TransitionResult K) : K × K :=
  (r.state.tension.val, r.state.dominance.val)

omit [IsStrictOrderedRing K] in
/-- One more pair in front is one more determination of the initial mode. -/
theorem settledMode_cons (config : TransitionConfig K) (initial : CopingMode) (x : K × K)
    (xs : List (K × K)) : settledMode config initial (x :: xs) =
      settledMode config (determineCopingMode x.1 x.2 initial config) xs := by
  unfold settledMode
  rw [List.reverse_cons, List.find?_append]
  cases hxs : xs.reverse.find? (crosses config) with
  | some y => rfl
  | none =>
      by_cases hactive : config.activationThreshold.val ≤ x.1
      · simp [determineCopingMode, crosses, hactive]
      · by_cases hrecovered : x.1 ≤ config.recoveryThreshold.val
        · simp [determineCopingMode, crosses, hactive, hrecovered]
        · simp [determineCopingMode, crosses, hactive, hrecovered]

omit [IsStrictOrderedRing K] in
@[simp] theorem lastState_nil (s : EmotionalState K) : lastState s [] = s := rfl

omit [IsStrictOrderedRing K] in
@[simp] theorem lastState_cons (s : EmotionalState K) (r : TransitionResult K)
    (rs : List (TransitionResult K)) : lastState s (r :: rs) = lastState r.state rs := by
  unfold lastState
  rw [List.getLast?_cons]
  cases rs.getLast? <;> rfl

namespace Follows

variable {config : TransitionConfig K} {s : EmotionalState K} {inputs : List (Appraisal K × K)}
  {rs : List (TransitionResult K)}

omit [IsStrictOrderedRing K] in
theorem drives (h : Follows config s inputs rs) : ∀ r ∈ rs, SameDrives s r.state := by
  induction h with
  | nil => exact fun _ hr => absurd hr List.not_mem_nil
  | cons hstep _ ih =>
      have hfirst : SameDrives _ _ := ⟨hstep.libido, hstep.aggression, hstep.connection, hstep.energy⟩
      intro r hr
      rcases List.mem_cons.mp hr with rfl | hr
      · exact hfirst
      · obtain ⟨h1, h2, h3, h4⟩ := ih r hr
        obtain ⟨g1, g2, g3, g4⟩ := hfirst
        exact ⟨h1.trans g1, h2.trans g2, h3.trans g3, h4.trans g4⟩

omit [IsStrictOrderedRing K] in
/-- The timestamps are the running maximum. -/
theorem timestamps (h : Follows config s inputs rs) :
    s.timestamp.val :: rs.map (fun r => r.state.timestamp.val) =
      (inputs.map Prod.snd).scanl max s.timestamp.val := by
  induction h with
  | nil => rfl
  | cons hstep _ ih => rw [List.map_cons, List.map_cons, List.scanl_cons, ← hstep.timestamp, ← ih]

omit [IsStrictOrderedRing K] in
theorem copingMode (h : Follows config s inputs rs) : (lastState s rs).copingMode =
    settledMode config s.copingMode (rs.map TransitionResult.levels) := by
  induction h with
  | nil => rfl
  | cons hstep _ ih =>
      rw [lastState_cons, ih, List.map_cons, settledMode_cons, hstep.copingMode]
      rfl

omit [IsStrictOrderedRing K] in
/-- Every result is that of a transition from the state the results before it led to. -/
theorem transitioned (h : Follows config s inputs rs) : ∀ pre r post, rs = pre ++ r :: post →
    ∃ currentTime, Transitioned config (lastState s pre) currentTime r := by
  induction h with
  | nil =>
      intro pre r post hsplit
      simp at hsplit
  | @cons s x r' _ rs hstep _ ih =>
      intro pre r post hsplit
      cases pre with
      | nil =>
          obtain ⟨rfl, -⟩ := List.cons.inj hsplit
          exact ⟨x.2, hstep⟩
      | cons r₀ pre =>
          obtain ⟨rfl, htail⟩ := List.cons.inj hsplit
          rw [lastState_cons]
          exact ih pre r post htail

end Follows

/-- **The emotional transition keeps its state valid.** Whatever the configuration, the initial state,
the appraisals and the positive times, a run of transitions does not raise, keeps every coordinate in
its range and the drives as they are, and its timestamps are the running maximum of the times. -/
theorem transitions_stay_valid (decay : K → K) (config : TransitionConfig K) (s : EmotionalState K)
    (inputs : List (Appraisal K × K)) (hinputs : ∀ x ∈ inputs, 0 < x.2) :
    ∃ rs, iterate decay config s inputs = .ok rs ∧
      (∀ r ∈ rs, (-1 ≤ r.state.pleasure.val ∧ r.state.pleasure.val ≤ 1) ∧
        (-1 ≤ r.state.arousal.val ∧ r.state.arousal.val ≤ 1) ∧
        (-1 ≤ r.state.dominance.val ∧ r.state.dominance.val ≤ 1) ∧
        (0 ≤ r.state.tension.val ∧ r.state.tension.val ≤ 1) ∧ SameDrives s r.state) ∧
      s.timestamp.val :: rs.map (fun r => r.state.timestamp.val) =
        (inputs.map Prod.snd).scanl max s.timestamp.val := by
  obtain ⟨rs, hrs, hfollows⟩ := iterate_ok decay config inputs s hinputs
  refine ⟨rs, hrs, ?_, hfollows.timestamps⟩
  intro r hr
  exact ⟨r.state.pleasure.property, r.state.arousal.property, r.state.dominance.property,
    r.state.tension.property, hfollows.drives r hr⟩

/-- **Hysteresis of the coping mode.** After a run the mode is what the last tension at or outside a
threshold made it, and the initial mode if there was none. While the tension stays strictly between the
thresholds the mode stays, `MANIC` is never entered, and a step reports a change, with the reason that
goes with the new mode, exactly when the mode is another. -/
theorem coping_mode_hysteresis (decay : K → K) (config : TransitionConfig K) (s : EmotionalState K)
    (inputs : List (Appraisal K × K)) (hinputs : ∀ x ∈ inputs, 0 < x.2) :
    ∃ rs, iterate decay config s inputs = .ok rs ∧
      (lastState s rs).copingMode = settledMode config s.copingMode (rs.map TransitionResult.levels) ∧
      ∀ pre r post, rs = pre ++ r :: post →
        (config.recoveryThreshold.val < r.state.tension.val →
          r.state.tension.val < config.activationThreshold.val →
          r.state.copingMode = (lastState s pre).copingMode) ∧
        (r.state.copingMode = .manic → (lastState s pre).copingMode = .manic) ∧
        r.regulation.previousMode = (lastState s pre).copingMode ∧
        r.regulation.currentMode = r.state.copingMode ∧
        (r.regulation.changed = true ↔ r.state.copingMode ≠ (lastState s pre).copingMode) ∧
        r.regulation.reason = regulationReason (lastState s pre).copingMode r.state.copingMode := by
  obtain ⟨rs, hrs, hfollows⟩ := iterate_ok decay config inputs s hinputs
  refine ⟨rs, hrs, hfollows.copingMode, ?_⟩
  intro pre r post hsplit
  obtain ⟨currentTime, hstep⟩ := hfollows.transitioned pre r post hsplit
  refine ⟨?_, ?_, ?_, ?_, ?_, ?_⟩
  · intro hlow hhigh
    rw [hstep.copingMode, determineCopingMode, if_neg (not_le.mpr hhigh), if_neg (not_le.mpr hlow)]
  · intro hmanic
    rw [hstep.copingMode] at hmanic
    exact determineCopingMode_manic hmanic
  · rw [hstep.regulation]
  · rw [hstep.regulation]
  · rw [hstep.regulation, decide_eq_true_eq]
    exact ne_comm
  · rw [hstep.regulation]

/-! ## A run over the rationals -/

/-- The defaults. -/
def sampleConfig : TransitionConfig ℚ where
  padHalfLife := ⟨3600, by decide⟩
  tensionHalfLife := ⟨7200, by decide⟩
  padBaseline := ⟨0, by decide⟩
  tensionBaseline := ⟨0, by decide⟩
  maxPleasureShift := ⟨1 / 4, by decide +kernel⟩
  maxArousalShift := ⟨1 / 4, by decide +kernel⟩
  maxDominanceShift := ⟨1 / 4, by decide +kernel⟩
  negativePleasureThreshold := ⟨-3 / 10, by decide +kernel⟩
  positivePleasureThreshold := ⟨3 / 10, by decide +kernel⟩
  tensionIncrease := ⟨1 / 20, by decide +kernel⟩
  tensionRelief := ⟨1 / 20, by decide +kernel⟩
  activationThreshold := ⟨4 / 5, by decide +kernel⟩
  recoveryThreshold := ⟨3 / 10, by decide +kernel⟩
  dissociationArousalFactor := ⟨1 / 2, by decide +kernel⟩
  pleasureOrder := by decide +kernel
  tensionOrder := by decide +kernel

/-- A tense state, as yet healthy. -/
def tenseState : EmotionalState ℚ where
  pleasure := ⟨-1, by decide⟩
  arousal := ⟨1, by decide⟩
  dominance := ⟨-1 / 2, by decide +kernel⟩
  libido := ⟨0, by decide⟩
  aggression := ⟨0, by decide⟩
  connection := ⟨1 / 2, by decide +kernel⟩
  energy := ⟨4 / 5, by decide +kernel⟩
  tension := ⟨4 / 5, by decide +kernel⟩
  copingMode := .healthy
  timestamp := ⟨1000, by decide⟩

/-- `0.5 ** x` where it is rational enough: at 0, and halved once elsewhere. -/
def sampleDecay (x : ℚ) : ℚ := if x ≤ 0 then 1 else 1 / 2

def calm : Appraisal ℚ := ⟨⟨0, by decide⟩, ⟨0, by decide⟩, ⟨0, by decide⟩, [], List.nodup_nil⟩

/-- Another turn at once, one with the clock set back, and one two hours later. -/
def sampleInputs : List (Appraisal ℚ × ℚ) := [(calm, 1000), (calm, 900), (calm, 8200)]

theorem zero_bipolar : (-1 : ℚ) ≤ 0 ∧ (0 : ℚ) ≤ 1 := by decide

theorem one_bipolar : (-1 : ℚ) ≤ 1 ∧ (1 : ℚ) ≤ 1 := by decide

theorem negOne_bipolar : (-1 : ℚ) ≤ -1 ∧ (-1 : ℚ) ≤ 1 := by decide

theorem threeTenths_bipolar : (-1 : ℚ) ≤ 3 / 10 ∧ (3 / 10 : ℚ) ≤ 1 := by decide +kernel

theorem zero_unipolar : (0 : ℚ) ≤ 0 ∧ (0 : ℚ) ≤ 1 := by decide

theorem half_unipolar : (0 : ℚ) ≤ 1 / 2 ∧ (1 / 2 : ℚ) ≤ 1 := by decide +kernel

theorem threeTenths_unipolar : (0 : ℚ) ≤ 3 / 10 ∧ (3 / 10 : ℚ) ≤ 1 := by decide +kernel

theorem twentieth_unipolar : (0 : ℚ) ≤ 1 / 20 ∧ (1 / 20 : ℚ) ≤ 1 := by decide +kernel

theorem thousand_pos : (0 : ℚ) < 1000 := by decide

theorem sampleInputs_positive : ∀ x ∈ sampleInputs, 0 < x.2 := by
  intro x hx
  simp only [sampleInputs, List.mem_cons, List.not_mem_nil, or_false] at hx
  rcases hx with rfl | rfl | rfl <;> decide +kernel

theorem transitions_stay_valid_sample : ∃ rs,
    iterate sampleDecay sampleConfig tenseState sampleInputs = .ok rs ∧
      1000 :: rs.map (fun r => r.state.timestamp.val) = [1000, 1000, 1000, 8200] := by
  obtain ⟨rs, hrs, -, htimes⟩ :=
    transitions_stay_valid sampleDecay sampleConfig tenseState sampleInputs sampleInputs_positive
  refine ⟨rs, hrs, ?_⟩
  change (1000 : ℚ) :: _ = _ at htimes
  rw [htimes]
  decide +kernel

theorem coping_mode_hysteresis_sample : ∃ rs,
    iterate sampleDecay sampleConfig tenseState sampleInputs = .ok rs ∧
      (lastState tenseState rs).copingMode =
        settledMode sampleConfig .healthy (rs.map TransitionResult.levels) := by
  obtain ⟨rs, hrs, hmode, -⟩ :=
    coping_mode_hysteresis sampleDecay sampleConfig tenseState sampleInputs sampleInputs_positive
  exact ⟨rs, hrs, hmode⟩

end Katherine.Emotion
