import Katherine.Emotion.AppraisalParser
import Katherine.Lib.Best
import Katherine.Lib.Number
import Mathlib.Data.Prod.Lex

/-!
# The public emotion state

`project_public_emotion` of `backend/emotion_presentation.py`, through the models of the response and
their validators. What the snapshots carry passes all of them, so the response is built, and what is
sent is `projectPublicEmotion`. The emotions in it are the strongest three of the appraisal
(`dominantEmotions_spec`), in whatever order the appraisal lists them.
-/

namespace Katherine

open Py

/-! ## The models of the response -/

/-- What a validator of the response finds wrong. -/
inductive FieldFault
  | bool
  | type
  | nonFinite
  /-- The `OverflowError` of `float(i)`. -/
  | overflow
  /-- A bound of the `Field`, or a length. -/
  | constraint
  | unknownEmotion
  | duplicateEmotion
  | version
deriving DecidableEq

/-- The first fault of a model that is not built, with the field. -/
structure FieldError where
  field : PyStr
  fault : FieldFault

/-- `_reject_non_finite` and `_reject_non_finite_timestamp`, up to the sign. -/
def rejectNonFinite (field : PyStr) : PyVal → Except FieldError FiniteFloat
  | .bool _ => .error ⟨field, .bool⟩
  | .int i =>
      match floatOfInt i with
      | some f => .ok f
      | none => .error ⟨field, .overflow⟩
  | .float (.fin f) => .ok f
  | .float _ => .error ⟨field, .nonFinite⟩
  | _ => .error ⟨field, .type⟩

/-- A float field with `ge` and `le`. -/
def boundedField (lo hi : Int) (field : PyStr) (v : PyVal) : Except FieldError (RangedFloat lo hi) := do
  let f ← rejectNonFinite field v
  if h : f.ltRatio lo 1 = false ∧ f.gtRatio hi 1 = false then .ok ⟨f, ge_of_bounds h, le_of_bounds h⟩
  else .error ⟨field, .constraint⟩

structure PublicPAD where
  pleasure : Bipolar
  arousal : Bipolar
  dominance : Bipolar

def PublicPAD.create (pleasure arousal dominance : PyVal) : Except FieldError PublicPAD := do
  let pleasure ← boundedField (-1) 1 (py "pleasure") pleasure
  let arousal ← boundedField (-1) 1 (py "arousal") arousal
  let dominance ← boundedField (-1) 1 (py "dominance") dominance
  return { pleasure, arousal, dominance }

structure PublicDominantEmotion where
  name : DiscreteEmotion
  intensity : Unipolar

/-- `_validate_emotion_name`. -/
def validateEmotionName : PyVal → Except FieldError DiscreteEmotion
  | .str s =>
      match DiscreteEmotion.ofName s with
      | some e => .ok e
      | none => .error ⟨py "name", .unknownEmotion⟩
  | _ => .error ⟨py "name", .type⟩

def PublicDominantEmotion.create (name intensity : PyVal) :
    Except FieldError PublicDominantEmotion := do
  let name ← validateEmotionName name
  let intensity ← boundedField 0 1 (py "intensity") intensity
  return { name, intensity }

/-- `EmotionStateResponse`. Its `schema_version` is always 1. -/
structure EmotionStateResponse where
  moodLabel : PyStr
  labelled : moodLabel ≠ []
  pad : PublicPAD
  dominantEmotions : List PublicDominantEmotion
  atMostThree : dominantEmotions.length ≤ 3
  distinct : (dominantEmotions.map (·.name)).Nodup
  timestamp : PosFloat

/-- `_validate_schema_version`. -/
def validateSchemaVersion : PyVal → Except FieldError Unit
  | .int i => if i = 1 then .ok () else .error ⟨py "schema_version", .version⟩
  | .none => .error ⟨py "schema_version", .version⟩
  | .bool _ => .error ⟨py "schema_version", .version⟩
  | _ => .error ⟨py "schema_version", .type⟩

/-- `mood_label`, with its `min_length`. -/
def moodLabelField : PyVal → Except FieldError { label : PyStr // label ≠ [] }
  | .str s => if h : s ≠ [] then .ok ⟨s, h⟩ else .error ⟨py "mood_label", .constraint⟩
  | _ => .error ⟨py "mood_label", .type⟩

/-- `_reject_non_finite_timestamp`. -/
def timestampField (v : PyVal) : Except FieldError PosFloat := do
  let f ← rejectNonFinite (py "timestamp") v
  if h : f.gtRatio 0 1 = true then .ok ⟨f, h⟩ else .error ⟨py "timestamp", .constraint⟩

def EmotionStateResponse.create (schemaVersion moodLabel : PyVal) (pad : PublicPAD)
    (dominantEmotions : List PublicDominantEmotion) (timestamp : PyVal) :
    Except FieldError EmotionStateResponse := do
  validateSchemaVersion schemaVersion
  let label ← moodLabelField moodLabel
  -- `_limit_to_three`
  if h3 : dominantEmotions.length ≤ 3 then
    if hdistinct : (dominantEmotions.map (·.name)).Nodup then
      let timestamp ← timestampField timestamp
      return ⟨label.1, label.2, pad, dominantEmotions, h3, hdistinct, timestamp⟩
    else .error ⟨py "dominant_emotions", .duplicateEmotion⟩
  else .error ⟨py "dominant_emotions", .constraint⟩

/-- `model_dump()`. -/
def EmotionStateResponse.modelDump (r : EmotionStateResponse) : List (PyKey × PyVal) :=
  [(.str (py "schema_version"), .int 1),
   (.str (py "mood_label"), .str r.moodLabel),
   (.str (py "pad"), .dict [(.str (py "pleasure"), r.pad.pleasure.toVal),
      (.str (py "arousal"), r.pad.arousal.toVal), (.str (py "dominance"), r.pad.dominance.toVal)]),
   (.str (py "dominant_emotions"),
      .list (r.dominantEmotions.map fun e => emotionDoc (e.name, e.intensity))),
   (.str (py "timestamp"), r.timestamp.toVal)]

/-- `project_public_emotion`. -/
def projectPublicEmotionResponse (s : EmotionalStateV1) (a : AppraisalV1) :
    Except FieldError EmotionStateResponse := do
  let pad ← PublicPAD.create s.pleasure.toVal s.arousal.toVal s.dominance.toVal
  let dominant ← (dominantEmotions a).mapM fun e =>
    PublicDominantEmotion.create (.str e.1.name) e.2.toVal
  EmotionStateResponse.create (.int 1) (.str (getEmotionalLabel s)) pad dominant s.timestamp.toVal

/-! ## It is built -/

theorem boundedField_toVal {lo hi : Int} (field : PyStr) (x : RangedFloat lo hi) :
    boundedField lo hi field x.toVal = .ok x := dif_pos ⟨x.ge, x.le⟩

theorem validateEmotionName_name (e : DiscreteEmotion) : validateEmotionName (.str e.name) = .ok e := by
  simp only [validateEmotionName, DiscreteEmotion.ofName_name]

theorem create_emotion (e : DiscreteEmotion × Unipolar) :
    PublicDominantEmotion.create (.str e.1.name) e.2.toVal = .ok ⟨e.1, e.2⟩ := by
  rw [PublicDominantEmotion.create, validateEmotionName_name, boundedField_toVal]
  rfl

theorem timestampField_toVal (t : PosFloat) : timestampField t.toVal = .ok t := dif_pos t.pos

theorem create_response {label : PyStr} (hlabel : label ≠ []) (pad : PublicPAD)
    {emotions : List PublicDominantEmotion} (h3 : emotions.length ≤ 3)
    (hdistinct : (emotions.map (·.name)).Nodup) (t : PosFloat) :
    EmotionStateResponse.create (.int 1) (.str label) pad emotions t.toVal
      = .ok ⟨label, hlabel, pad, emotions, h3, hdistinct, t⟩ := by
  have hmood : moodLabelField (.str label) = .ok ⟨label, hlabel⟩ := dif_pos hlabel
  have hversion : validateSchemaVersion (.int 1) = .ok () := rfl
  rw [EmotionStateResponse.create, hmood, hversion]
  refine (dif_pos h3).trans ((dif_pos hdistinct).trans ?_)
  rw [timestampField_toVal]
  rfl

theorem classifyPadMood_ne_nil (pleasure arousal dominance : FiniteFloat) :
    classifyPadMood pleasure arousal dominance ≠ [] := by
  unfold classifyPadMood
  repeat' split
  all_goals decide

theorem dominantEmotions_eq_top (a : AppraisalV1) : dominantEmotions a
    = Best.top (fun a b => emotionLe a b = true) 3
        (a.discreteEmotions.filter fun e => e.2.val.gtRatio 0 1) := rfl

/-- No emotion is listed twice. -/
theorem dominantEmotions_nodup (a : AppraisalV1) : ((dominantEmotions a).map (·.1)).Nodup := by
  rw [dominantEmotions_eq_top]
  exact Best.nodup_top (a.nodup.sublist (List.filter_sublist.map _))

theorem dominantEmotions_length (a : AppraisalV1) : (dominantEmotions a).length
    = min 3 (a.discreteEmotions.filter fun e => e.2.val.gtRatio 0 1).length := by
  rw [dominantEmotions_eq_top, Best.length_top]

/-- **The projection does not raise**, and what is sent is the public emotion. -/
theorem projectPublicEmotionResponse_ok (s : EmotionalStateV1) (a : AppraisalV1) :
    ∃ r, projectPublicEmotionResponse s a = .ok r ∧ r.modelDump = projectPublicEmotion s a := by
  have hemotions : (dominantEmotions a).mapM (fun e =>
      PublicDominantEmotion.create (.str e.1.name) e.2.toVal)
        = .ok ((dominantEmotions a).map fun e => (⟨e.1, e.2⟩ : PublicDominantEmotion)) := by
    simp only [create_emotion]
    exact List.mapM_pure
  have h3 : ((dominantEmotions a).map fun e => (⟨e.1, e.2⟩ : PublicDominantEmotion)).length ≤ 3 := by
    rw [List.length_map, dominantEmotions_length]
    exact min_le_left _ _
  have hdistinct : (((dominantEmotions a).map fun e => (⟨e.1, e.2⟩ : PublicDominantEmotion)).map
      (·.name)).Nodup := by
    rw [List.map_map]
    exact dominantEmotions_nodup a
  refine ⟨⟨getEmotionalLabel s, classifyPadMood_ne_nil _ _ _, ⟨s.pleasure, s.arousal, s.dominance⟩, _,
    h3, hdistinct, s.timestamp⟩, ?_, ?_⟩
  · rw [projectPublicEmotionResponse, PublicPAD.create, boundedField_toVal, boundedField_toVal,
      boundedField_toVal, hemotions]
    exact create_response _ _ h3 hdistinct s.timestamp
  · rw [EmotionStateResponse.modelDump, List.map_map]
    rfl

/-! ## Which emotions are listed -/

/-- Intensity descending, then name ascending. -/
def Stronger (a b : DiscreteEmotion × Unipolar) : Prop :=
  b.2.val.value < a.2.val.value ∨ (a.2.val.value = b.2.val.value ∧ a.1.name < b.1.name)

/-- The sort key. -/
def emotionKey (e : DiscreteEmotion × Unipolar) : ℚ ×ₗ PyStr := toLex (-e.2.val.value, e.1.name)

theorem emotionLe_iff {a b : DiscreteEmotion × Unipolar} :
    emotionLe a b = true ↔ emotionKey a ≤ emotionKey b := by
  have heq : a.2.val.ratio.1 * b.2.val.ratio.2 = b.2.val.ratio.1 * a.2.val.ratio.2 ↔
      a.2.val.value = b.2.val.value := by
    have ha : (a.2.val.ratio.2 : ℚ) ≠ 0 := by exact_mod_cast a.2.val.ratio_pos.ne'
    have hb : (b.2.val.ratio.2 : ℚ) ≠ 0 := by exact_mod_cast b.2.val.ratio_pos.ne'
    rw [FiniteFloat.value, FiniteFloat.value, div_eq_div_iff ha hb]
    exact_mod_cast Iff.rfl
  have hlt := @FiniteFloat.lt_iff_value b.2.val a.2.val
  rw [FiniteFloat.lt, decide_eq_true_eq] at hlt
  rw [emotionLe, Bool.or_eq_true, Bool.and_eq_true, decide_eq_true_eq, decide_eq_true_eq,
    decide_eq_true_eq, emotionKey, emotionKey, Prod.Lex.toLex_le_toLex, neg_lt_neg_iff, neg_inj, ← hlt,
    ← heq, eq_comm (a := b.2.val.ratio.1 * _)]

theorem stronger_iff {a b : DiscreteEmotion × Unipolar} : Stronger a b ↔ emotionKey a < emotionKey b := by
  rw [Stronger, emotionKey, emotionKey, Prod.Lex.toLex_lt_toLex, neg_lt_neg_iff, neg_inj]

instance : Std.Total fun a b : DiscreteEmotion × Unipolar => emotionLe a b = true where
  total a b := by
    rw [emotionLe_iff, emotionLe_iff]
    exact le_total _ _

instance : IsTrans (DiscreteEmotion × Unipolar) fun a b => emotionLe a b = true where
  trans a b c := by
    rw [emotionLe_iff, emotionLe_iff, emotionLe_iff]
    exact le_trans

theorem DiscreteEmotion.name_injective {e e' : DiscreteEmotion} (h : e.name = e'.name) : e = e' := by
  have := e.ofName_name
  rw [h, e'.ofName_name] at this
  exact (Option.some.inj this).symm

/-- Two entries of an appraisal do not tie. -/
theorem emotion_anti {a : AppraisalV1} {x y : DiscreteEmotion × Unipolar} (hx : x ∈ a.discreteEmotions)
    (hy : y ∈ a.discreteEmotions) (hxy : emotionLe x y = true) (hyx : emotionLe y x = true) : x = y := by
  have hkey := le_antisymm (emotionLe_iff.mp hxy) (emotionLe_iff.mp hyx)
  have hname : x.1 = y.1 := DiscreteEmotion.name_injective (Prod.mk.inj (toLex.injective hkey)).2
  exact List.inj_on_of_nodup_map a.nodup hx hy hname

theorem stronger_of_le {a : AppraisalV1} {x y : DiscreteEmotion × Unipolar} (hx : x ∈ a.discreteEmotions)
    (hy : y ∈ a.discreteEmotions) (hxy : emotionLe x y = true) (hne : x ≠ y) : Stronger x y := by
  rw [stronger_iff]
  refine lt_of_le_of_ne (emotionLe_iff.mp hxy) fun hkey => hne ?_
  exact emotion_anti hx hy hxy (emotionLe_iff.mpr hkey.ge)

theorem felt_iff {x : FiniteFloat} : x.gtRatio 0 1 = true ↔ 0 < x.value := by
  have hpos : (0 : ℚ) < x.ratio.2 := by exact_mod_cast x.ratio_pos
  rw [FiniteFloat.gtRatio, decide_eq_true_eq, FiniteFloat.value, div_pos_iff_of_pos_right hpos, zero_mul]
  norm_num

/-- **The listed emotions are the strongest that are felt**: three of them, or all if they are fewer, the
strongest first, and each that is felt and not listed is weaker than all that are. -/
theorem dominantEmotions_spec (a : AppraisalV1) :
    (dominantEmotions a).Pairwise Stronger ∧
    (∀ e ∈ dominantEmotions a, e ∈ a.discreteEmotions ∧ 0 < e.2.val.value) ∧
    (dominantEmotions a).length
      = min 3 (a.discreteEmotions.filter fun e => decide (0 < e.2.val.value)).length ∧
    ∀ e ∈ a.discreteEmotions, 0 < e.2.val.value → e ∉ dominantEmotions a →
      ∀ l ∈ dominantEmotions a, Stronger l e := by
  have hmem : ∀ e ∈ dominantEmotions a, e ∈ a.discreteEmotions ∧ 0 < e.2.val.value := by
    intro e he
    rw [dominantEmotions_eq_top] at he
    obtain ⟨hin, hfelt⟩ := List.mem_filter.mp (Best.mem_of_mem_top he)
    exact ⟨hin, felt_iff.mp hfelt⟩
  refine ⟨?_, hmem, ?_, ?_⟩
  · have hsorted : (dominantEmotions a).Pairwise fun x y => emotionLe x y = true := by
      rw [dominantEmotions_eq_top]
      exact Best.pairwise_top
    have hdistinct : (dominantEmotions a).Pairwise (· ≠ ·) :=
      List.Nodup.of_map _ (dominantEmotions_nodup a)
    refine (hsorted.and hdistinct).imp_of_mem fun hx hy hxy => ?_
    exact stronger_of_le (hmem _ hx).1 (hmem _ hy).1 hxy.1 hxy.2
  · rw [dominantEmotions_length]
    congr 2
    refine List.filter_congr fun e _ => ?_
    rw [Bool.eq_iff_iff, felt_iff, decide_eq_true_eq]
  · intro e he hfelt hout l hl
    refine stronger_of_le (hmem l hl).1 he ?_ fun heq => hout (heq ▸ hl)
    rw [dominantEmotions_eq_top] at hl hout
    have hin : e ∈ a.discreteEmotions.filter fun e => e.2.val.gtRatio 0 1 :=
      List.mem_filter.mpr ⟨he, felt_iff.mpr hfelt⟩
    exact @Best.top_le _ (fun a b => emotionLe a b = true) _ _ _ _ _ _ _ hl hin hout

/-- **The order of the mapping does not matter.** -/
theorem dominantEmotions_perm {a a' : AppraisalV1} (h : a.discreteEmotions.Perm a'.discreteEmotions) :
    dominantEmotions a = dominantEmotions a' := by
  rw [dominantEmotions_eq_top, dominantEmotions_eq_top]
  refine Best.top_perm (h.filter _) fun x hx y hy => ?_
  exact emotion_anti (List.mem_of_mem_filter hx) (List.mem_of_mem_filter hy)

end Katherine
