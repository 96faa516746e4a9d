import Katherine.Presentation
import Katherine.Lib.FloatOfInt
import Katherine.Lib.JsonRoundTrip

/-!
# Reading an appraisal

`parse_llm_appraisal` of `backend/emotional_domain/appraisal_parser.py`, with
`AppraisalV1.create` of `backend/emotional_domain/models.py`. The input is whatever a
model wrote, decoded as JSON. It is read into an appraisal, or the neutral appraisal
takes its place and a code says why.

Two fields have two names. Only where a document uses both are they validated before the
other fields are, and then they have to say the same; the value under the canonical name
is read again afterwards, by the checks that every field goes through. All that the
parser does after it has looked at the keys is a function of six lookups (`doParse_eq`).
-/

namespace Katherine

open Py

/-! ## Results -/

/-- `ParseErrorCode`. -/
inductive ParseErrorCode
  | invalidStructure
  | unknownTopLevelKey
  | missingRequiredField
  | conflictingAliases
  | invalidNumericValue
  | unsupportedEmotion
  | unexpectedParserFailure
deriving DecidableEq

/-- `ParseResult`. -/
structure ParseResult where
  appraisal : AppraisalV1
  isFallback : Bool
  errorCode : Option ParseErrorCode

/-- What `_do_parse` may raise. -/
inductive ParseException
  /-- `_ParserFailure`. -/
  | failure (code : ParseErrorCode)
  /-- `EmotionalDomainError`. -/
  | domain
  /-- Any other exception. -/
  | other
deriving DecidableEq

/-! ## Dictionaries -/

/-- `d[k] = v`. -/
def assignItem {κ α : Type} [DecidableEq κ] (d : List (κ × α)) (k : κ) (v : α) : List (κ × α) :=
  if d.any (·.1 = k) then d.map fun p => if p.1 = k then (k, v) else p else d ++ [(k, v)]

/-- `d.pop(k, None)`. -/
def popItem {κ α : Type} [DecidableEq κ] (d : List (κ × α)) (k : κ) : List (κ × α) :=
  d.filter (·.1 ≠ k)

theorem assignItem_nodup {κ α : Type} [DecidableEq κ] {d : List (κ × α)} (h : (d.map Prod.fst).Nodup)
    (k : κ) (v : α) : ((assignItem d k v).map Prod.fst).Nodup := by
  unfold assignItem
  split
  · have hkeys : (d.map fun p => if p.1 = k then (k, v) else p).map Prod.fst = d.map Prod.fst := by
      rw [List.map_map]
      refine List.map_congr_left fun p _ => ?_
      by_cases hp : p.1 = k
      · simp [hp]
      · simp [hp]
    rw [hkeys]
    exact h
  · next hnew =>
      have habsent : k ∉ d.map Prod.fst := by
        simpa using hnew
      rw [List.map_append]
      exact List.nodup_append.mpr ⟨h, List.nodup_singleton k, by
        intro x hx y hy
        rw [List.mem_singleton.mp hy]
        rintro rfl
        exact habsent hx⟩

/-- `d[k]`; `other` is the `KeyError`. -/
def getItem (d : List (PyKey × PyVal)) (k : PyStr) : Except ParseException PyVal :=
  match dictGet d k with
  | some v => .ok v
  | none => .error .other

/-! ## Emotions -/

/-- `DISCRETE_EMOTIONS`. -/
def discreteEmotions : List DiscreteEmotion :=
  [.joy, .sadness, .anger, .fear, .disgust, .surprise, .trust, .anticipation, .tenderness, .guilt,
    .pride, .jealousy, .gratitude]

/-- The known emotion with a name. -/
def DiscreteEmotion.ofName (name : PyStr) : Option DiscreteEmotion :=
  discreteEmotions.find? (·.name = name)

/-- A `Dict[str, float]` of known emotions with valid intensities. -/
@[ext] structure Emotions where
  items : List (DiscreteEmotion × Unipolar)
  nodup : (items.map Prod.fst).Nodup

def Emotions.empty : Emotions := ⟨[], List.nodup_nil⟩

/-- `result[k] = x`. -/
def Emotions.assign (d : Emotions) (e : DiscreteEmotion) (x : Unipolar) : Emotions :=
  ⟨assignItem d.items e x, assignItem_nodup d.nodup e x⟩

/-- The same as a Python value. -/
def Emotions.toVal (d : Emotions) : PyVal := .dict (d.items.map fun e => (.str e.1.name, e.2.toVal))

/-- What is raised for a value that is no mapping, a key that is no text, an intensity out of range
and an emotion that is not known; the last is skipped if there is nothing to raise. -/
structure EmotionRules where
  notMapping : ParseException
  badKey : ParseException
  badIntensity : ParseException
  unknown : Option ParseException

/-- The loop over the items of a mapping. -/
def collectEmotions (rules : EmotionRules) (result : Emotions) :
    List (PyKey × PyVal) → Except ParseException Emotions
  | [] => .ok result
  | (.str k, v) :: items =>
      match DiscreteEmotion.ofName k with
      | none =>
          match rules.unknown with
          | some e => .error e
          | none => collectEmotions rules result items
      | some e =>
          match requireFiniteFloatInRange 0 1 v with
          | some x => collectEmotions rules (result.assign e x) items
          | none => .error rules.badIntensity
  | _ :: _ => .error rules.badKey

def readEmotions (rules : EmotionRules) (v : PyVal) : Except ParseException Emotions :=
  match v.items? with
  | some items => collectEmotions rules .empty items
  | none => .error rules.notMapping

/-- Skip what is not known. -/
def lenientRules : EmotionRules where
  notMapping := .failure .unsupportedEmotion
  badKey := .failure .unsupportedEmotion
  badIntensity := .failure .invalidNumericValue
  unknown := none

/-- `_validate_normalize_emotions`. -/
def validateNormalizeEmotions (v : PyVal) : Except ParseException Emotions := readEmotions lenientRules v

/-- `_parse_discrete_emotions`; `none` is `_ABSENT`. -/
def parseDiscreteEmotions : Option PyVal → Except ParseException Emotions
  | none => .ok .empty
  | some v => readEmotions lenientRules v

/-- Reject what is not known. -/
def strictRules : EmotionRules where
  notMapping := .domain
  badKey := .domain
  badIntensity := .domain
  unknown := some .domain

/-- `_validate_discrete_emotions`. -/
def validateDiscreteEmotions (v : PyVal) : Except ParseException Emotions := readEmotions strictRules v

/-- `a == b` for the items of two such dictionaries. -/
def emotionsEq (a b : List (DiscreteEmotion × Unipolar)) : Bool :=
  decide (a.length = b.length) &&
    a.all fun e =>
      match b.find? (·.1 = e.1) with
      | some e' => e.2.val.numEq e'.2.val
      | none => false

def Emotions.eq (a b : Emotions) : Bool := emotionsEq a.items b.items

/-! ## `AppraisalV1.create` -/

/-- `_require_finite_float_in_range(value, name, -1.0, 1.0)`. -/
def requireShift (v : PyVal) : Except ParseException Bipolar :=
  match requireFiniteFloatInRange (-1) 1 v with
  | some x => .ok x
  | none => .error .domain

namespace AppraisalV1

/-- `__post_init__`. -/
def postInit (valenceShift arousalShift dominanceShift discreteEmotions : PyVal) :
    Except ParseException AppraisalV1 := do
  let valence ← requireShift valenceShift
  let arousal ← requireShift arousalShift
  let dominance ← requireShift dominanceShift
  let emotions ← validateDiscreteEmotions discreteEmotions
  return ⟨valence, arousal, dominance, emotions.items, emotions.nodup⟩

/-- `AppraisalV1.create`, with the version it is given here. -/
def create (valenceShift arousalShift dominanceShift discreteEmotions : PyVal) :
    Except ParseException AppraisalV1 := do
  let valence ← requireShift valenceShift
  let arousal ← requireShift arousalShift
  let dominance ← requireShift dominanceShift
  let emotions ← validateDiscreteEmotions discreteEmotions
  postInit valence.toVal arousal.toVal dominance.toVal emotions.toVal

end AppraisalV1

/-! ## `parse_llm_appraisal` -/

/-- `_ALLOWED_TOP_LEVEL_KEYS`. -/
def allowedTopLevelKeys : List PyStr :=
  [py "valence_shift", py "arousal_shift", py "dominance_shift", py "discrete_emotions",
    py "valence", py "triggered_emotions"]

/-- `_REQUIRED_SHIFTS`. -/
def requiredShifts : List PyStr := [py "valence_shift", py "arousal_shift", py "dominance_shift"]

/-- `except EmotionalDomainError: raise _ParserFailure(ParseErrorCode.invalid_numeric_value)`. -/
def numericFailure {α : Type} : Except ParseException α → Except ParseException α
  | .error .domain => .error (.failure .invalidNumericValue)
  | r => r

/-- `_validate_normalize_shift`. -/
def validateNormalizeShift (v : PyVal) : Except ParseException Bipolar := numericFailure (requireShift v)

/-- `x == y`. -/
def shiftEq (x y : Bipolar) : Bool := x.val.numEq y.val

/-- One pair of `_translate_aliases`: what it makes of `result`. -/
def translatePair {β : Type} (normalize : PyVal → Except ParseException β) (eq : β → β → Bool)
    (aliasName canonical : PyStr) (raw result : List (PyKey × PyVal)) :
    Except ParseException (List (PyKey × PyVal)) :=
  match dictGet raw aliasName, dictGet raw canonical with
  | some a, some c => do
      let aliasNorm ← normalize a
      let canonicalNorm ← normalize c
      if !eq aliasNorm canonicalNorm then throw (.failure .conflictingAliases)
      return popItem result (.str aliasName)
  | some a, none => .ok (assignItem (popItem result (.str aliasName)) (.str canonical) a)
  | none, _ => .ok result

/-- `_translate_aliases`. -/
def translateAliases (raw : List (PyKey × PyVal)) : Except ParseException (List (PyKey × PyVal)) := do
  let result ← translatePair validateNormalizeShift shiftEq (py "valence") (py "valence_shift") raw raw
  translatePair validateNormalizeEmotions Emotions.eq (py "triggered_emotions")
    (py "discrete_emotions") raw result

/-- Step 5: the shifts. -/
def readShifts (translated : List (PyKey × PyVal)) :
    Except ParseException (Bipolar × Bipolar × Bipolar) :=
  numericFailure do
    let valence ← requireShift (← getItem translated (py "valence_shift"))
    let arousal ← requireShift (← getItem translated (py "arousal_shift"))
    let dominance ← requireShift (← getItem translated (py "dominance_shift"))
    return (valence, arousal, dominance)

/-- Steps 4 to 7 of `_do_parse`. -/
def readFields (translated : List (PyKey × PyVal)) : Except ParseException ParseResult := do
  if !requiredShifts.all (fun f => (dictGet translated f).isSome) then
    throw (.failure .missingRequiredField)
  let (valence, arousal, dominance) ← readShifts translated
  let emotions ← parseDiscreteEmotions (dictGet translated (py "discrete_emotions"))
  let appraisal ← AppraisalV1.create valence.toVal arousal.toVal dominance.toVal emotions.toVal
  return ⟨appraisal, false, none⟩

/-- `_do_parse`. -/
def doParse (raw : PyVal) : Except ParseException ParseResult :=
  match raw.items? with
  | none => .error (.failure .invalidStructure)
  | some kvs =>
      if !kvs.all (PyKey.isOneOf allowedTopLevelKeys ·.1) then .error (.failure .unknownTopLevelKey)
      else do
        let translated ← translateAliases kvs
        readFields translated

def fallback (code : ParseErrorCode) : ParseResult := ⟨.neutral, true, some code⟩

/-- `parse_llm_appraisal`. -/
def parseLlmAppraisal (raw : PyVal) : ParseResult :=
  match doParse raw with
  | .ok result => result
  | .error (.failure code) => fallback code
  | .error .domain => fallback .invalidNumericValue
  | .error .other => fallback .unexpectedParserFailure

/-! ## Numbers -/

/-- A number, and no `bool`, in `[lo, hi]`. -/
def inRange (lo hi : Int) : PyVal → Bool
  | .int i => decide (lo ≤ i ∧ i ≤ hi)
  | .float (.fin f) => !f.ltRatio lo 1 && !f.gtRatio hi 1
  | _ => false

theorem requireFiniteFloatInRange_isSome {lo hi : Int} (hlo : -1 ≤ lo) (hhi : hi ≤ 1) (v : PyVal) :
    (requireFiniteFloatInRange lo hi v).isSome = inRange lo hi v := by
  rw [Bool.eq_iff_iff]
  unfold requireFiniteFloatInRange
  cases v with
  | int i =>
      rw [inRange, decide_eq_true_eq, ← floatOfInt_range hlo hhi]
      simp only [requireFiniteFloat, Option.bind_eq_bind]
      cases floatOfInt i with
      | none => simp
      | some f => simp [Option.isSome_dite]
  | float x =>
      cases x with
      | fin f => simp [requireFiniteFloat, inRange, Option.isSome_dite]
      | _ => simp [requireFiniteFloat, inRange]
  | _ => simp [requireFiniteFloat, inRange]

/-- `float(v)`, for a number in a range within `[-1, 1]`. -/
theorem requireFiniteFloatInRange_cases (lo hi : Int) (hlo : -1 ≤ lo) (hhi : hi ≤ 1) (v : PyVal) :
    (inRange lo hi v = true ∧ ∃ x, requireFiniteFloatInRange lo hi v = some x) ∨
      (inRange lo hi v = false ∧ requireFiniteFloatInRange lo hi v = none) := by
  rw [← requireFiniteFloatInRange_isSome hlo hhi]
  cases requireFiniteFloatInRange lo hi v with
  | none => exact .inr ⟨rfl, rfl⟩
  | some x => exact .inl ⟨rfl, x, rfl⟩

/-! ## Emotions that are read -/

theorem DiscreteEmotion.ofName_name (e : DiscreteEmotion) : ofName e.name = some e := by
  cases e <;> decide

theorem DiscreteEmotion.name_of_ofName {k : PyStr} {e : DiscreteEmotion} (h : ofName k = some e) :
    e.name = k := by
  unfold ofName at h
  have hname := List.find?_some h
  exact of_decide_eq_true hname

/-- The emotion a key names. -/
def knownEmotion : PyKey → Option DiscreteEmotion
  | .str k => DiscreteEmotion.ofName k
  | _ => none

/-- An item of a mapping, if it is one of a known emotion with a valid intensity. -/
def emotionItem (p : PyKey × PyVal) : Option (DiscreteEmotion × Unipolar) := do
  let e ← knownEmotion p.1
  let x ← requireFiniteFloatInRange 0 1 p.2
  return (e, x)

/-- The intensities of the known emotions are valid. -/
def ValidIntensities (items : List (PyKey × PyVal)) : Prop :=
  ∀ p ∈ items, (knownEmotion p.1).isSome = true → inRange 0 1 p.2 = true

theorem knownEmotion_inj (key key' : PyKey) {e : DiscreteEmotion} (h : knownEmotion key = some e)
    (h' : knownEmotion key' = some e) : key = key' := by
  cases key with
  | str k =>
      cases key' with
      | str k' => rw [← DiscreteEmotion.name_of_ofName h, ← DiscreteEmotion.name_of_ofName h']
      | _ => cases h'
  | _ => cases h

theorem assignItem_of_not_mem {κ α : Type} [DecidableEq κ] {d : List (κ × α)} {k : κ}
    (h : k ∉ d.map Prod.fst) (v : α) : assignItem d k v = d ++ [(k, v)] := by
  have hnone : d.any (·.1 = k) = false := by
    rw [List.any_eq_false]
    intro p hp he
    exact h (List.mem_map.mpr ⟨p, hp, of_decide_eq_true he⟩)
  rw [assignItem, hnone]
  rfl

/-- **What the loop reads**, on items with distinct texts for keys: the known emotions in their order, and
it stops at the first bad intensity. -/
theorem collectEmotions_cases (rules : EmotionRules) : ∀ (items : List (PyKey × PyVal)) (result : Emotions),
    (∀ p ∈ items, p.1.isStr = true) → (items.map Prod.fst).Nodup →
    (∀ p ∈ items, ∀ e, knownEmotion p.1 = some e → e ∉ result.items.map Prod.fst) →
    (rules.unknown = none ∨ ∀ p ∈ items, (knownEmotion p.1).isSome = true) →
    (ValidIntensities items ∧ ∃ out, collectEmotions rules result items = .ok out ∧
        out.items = result.items ++ items.filterMap emotionItem) ∨
      (¬ ValidIntensities items ∧ collectEmotions rules result items = .error rules.badIntensity)
  | [], result, _, _, _, _ => by
      refine .inl ⟨fun p hp => absurd hp List.not_mem_nil, result, rfl, ?_⟩
      rw [List.filterMap_nil, List.append_nil]
  | (key, v) :: items, result, hstr, hnodup, hfresh, hunknown => by
      rw [List.map_cons, List.nodup_cons] at hnodup
      have hstr' := fun p hp => hstr p (List.mem_cons_of_mem _ hp)
      have hunknown' := hunknown.imp_right fun h p hp => h p (List.mem_cons_of_mem (key, v) hp)
      cases key with
      | str k =>
          cases hk : DiscreteEmotion.ofName k with
          | none =>
              have hskip : rules.unknown = none := by
                refine hunknown.resolve_right fun h => ?_
                have hsome := h (.str k, v) List.mem_cons_self
                rw [knownEmotion, hk] at hsome
                cases hsome
              have hvalid : ValidIntensities ((.str k, v) :: items) ↔ ValidIntensities items := by
                simp [ValidIntensities, knownEmotion, hk]
              have hitem : emotionItem (.str k, v) = none := by simp [emotionItem, knownEmotion, hk]
              rw [hvalid, List.filterMap_cons, hitem]
              simp only [collectEmotions, hk, hskip]
              exact collectEmotions_cases rules items result hstr' hnodup.2
                (fun p hp => hfresh p (List.mem_cons_of_mem _ hp)) hunknown'
          | some e =>
              rcases requireFiniteFloatInRange_cases 0 1 (by decide) le_rfl v with
                ⟨hrange, x, hx⟩ | ⟨hrange, hx⟩
              · have hvalid : ValidIntensities ((.str k, v) :: items) ↔ ValidIntensities items := by
                  simp [ValidIntensities, knownEmotion, hk, hrange]
                have hitem : emotionItem (.str k, v) = some (e, x) := by
                  simp [emotionItem, knownEmotion, hk, hx]
                have hnew : (result.assign e x).items = result.items ++ [(e, x)] :=
                  assignItem_of_not_mem (hfresh (.str k, v) List.mem_cons_self e hk) x
                have hfresh' : ∀ p ∈ items, ∀ e', knownEmotion p.1 = some e' →
                    e' ∉ (result.assign e x).items.map Prod.fst := by
                  intro p hp e' he' hmem
                  rw [hnew, List.map_append, List.mem_append] at hmem
                  rcases hmem with hmem | hmem
                  · exact hfresh p (List.mem_cons_of_mem _ hp) e' he' hmem
                  · obtain rfl : e' = e := List.mem_singleton.mp hmem
                    exact hnodup.1 (List.mem_map.mpr ⟨p, hp, knownEmotion_inj p.1 (.str k) he' hk⟩)
                have htail := collectEmotions_cases rules items (result.assign e x) hstr' hnodup.2 hfresh' hunknown'
                rw [hnew, List.append_assoc] at htail
                rw [hvalid, List.filterMap_cons, hitem]
                simp only [collectEmotions, hk, hx]
                exact htail
              · refine .inr ⟨fun h => ?_, ?_⟩
                · have hhead := h (.str k, v) List.mem_cons_self (by rw [knownEmotion, hk]; rfl)
                  rw [hrange] at hhead
                  cases hhead
                · simp only [collectEmotions, hk, hx]
      | _ => exact absurd (hstr _ List.mem_cons_self) Bool.false_ne_true

/-- An object with valid intensities for the emotions that are known. -/
def EmotionsEntry (v : PyVal) : Prop := ∃ items, v = .dict items ∧ ValidIntensities items

/-- What such an object says. -/
def emotionsOf (v : PyVal) : List (DiscreteEmotion × Unipolar) :=
  match v.items? with
  | some items => items.filterMap emotionItem
  | none => []

theorem isStr_of_json {kvs : List (PyKey × PyVal)} (h : isJson (.dict kvs) = true) :
    (∀ p ∈ kvs, p.1.isStr = true) ∧ (kvs.map Prod.fst).Nodup := by
  obtain ⟨hall, hnodup⟩ := (isJsonItems_iff kvs).mp h
  exact ⟨fun p hp => (hall p hp).1, hnodup⟩

theorem readEmotions_cases {v : PyVal} (hv : isJson v = true) :
    (EmotionsEntry v ∧ ∃ out, readEmotions lenientRules v = .ok out ∧ out.items = emotionsOf v) ∨
      (¬ EmotionsEntry v ∧ ∃ code, code ≠ .unexpectedParserFailure ∧
        readEmotions lenientRules v = .error (.failure code)) := by
  cases v with
  | dict items =>
      obtain ⟨hstr, hnodup⟩ := isStr_of_json hv
      have hentry : EmotionsEntry (.dict items) ↔ ValidIntensities items := by
        simp [EmotionsEntry]
      rw [hentry]
      rcases collectEmotions_cases lenientRules items .empty hstr hnodup
          (fun _ _ _ _ => List.not_mem_nil) (.inl rfl) with ⟨hvalid, out, hout, heq⟩ | ⟨hvalid, herror⟩
      · exact .inl ⟨hvalid, out, hout, heq⟩
      · exact .inr ⟨hvalid, .invalidNumericValue, by decide, herror⟩
  | _ =>
      refine .inr ⟨?_, .unsupportedEmotion, by decide, rfl⟩
      rintro ⟨items, hitems, -⟩
      cases hitems

theorem emotionItem_toVal (e : DiscreteEmotion × Unipolar) :
    emotionItem (.str e.1.name, e.2.toVal) = some e := by
  simp [emotionItem, knownEmotion, DiscreteEmotion.ofName_name]

/-- A dictionary of emotions is read back by the strict rules. -/
theorem validateDiscreteEmotions_toVal (d : Emotions) : validateDiscreteEmotions d.toVal = .ok d := by
  have hkeys : (d.items.map fun e => ((.str e.1.name, e.2.toVal) : PyKey × PyVal)).map Prod.fst =
      (d.items.map Prod.fst).map fun e => PyKey.str e.name := by
    rw [List.map_map, List.map_map]
    rfl
  have hinj : Function.Injective fun e : DiscreteEmotion => PyKey.str e.name := by
    intro e e' h
    have hname := DiscreteEmotion.ofName_name e
    rw [PyKey.str.inj h, DiscreteEmotion.ofName_name] at hname
    exact (Option.some.inj hname).symm
  have hcollect := collectEmotions_cases strictRules
    (d.items.map fun e => (.str e.1.name, e.2.toVal)) .empty
    (by
      intro p hp
      obtain ⟨e, -, rfl⟩ := List.mem_map.mp hp
      rfl)
    (by
      rw [hkeys]
      exact d.nodup.map hinj)
    (fun _ _ _ _ => List.not_mem_nil)
    (.inr (by
      intro p hp
      obtain ⟨e, -, rfl⟩ := List.mem_map.mp hp
      rw [knownEmotion, DiscreteEmotion.ofName_name]
      rfl))
  have hread : (d.items.map fun e => ((.str e.1.name, e.2.toVal) : PyKey × PyVal)).filterMap emotionItem =
      d.items := by
    have hsome : (emotionItem ∘ fun e : DiscreteEmotion × Unipolar => (.str e.1.name, e.2.toVal)) = some :=
      funext emotionItem_toVal
    rw [List.filterMap_map, hsome, List.filterMap_some]
  have hvalid : ValidIntensities (d.items.map fun e => (.str e.1.name, e.2.toVal)) := by
    intro p hp _
    obtain ⟨e, -, rfl⟩ := List.mem_map.mp hp
    rw [← requireFiniteFloatInRange_isSome (by decide) le_rfl]
    simp
  rcases hcollect with ⟨-, out, hout, heq⟩ | ⟨hnot, -⟩
  · rw [hread] at heq
    obtain rfl : out = d := Emotions.ext heq
    exact hout
  · exact absurd hvalid hnot

theorem requireShift_toVal (x : Bipolar) : requireShift x.toVal = .ok x := by
  simp [requireShift]

theorem AppraisalV1.create_ok (valence arousal dominance : Bipolar) (emotions : Emotions) :
    create valence.toVal arousal.toVal dominance.toVal emotions.toVal =
      .ok ⟨valence, arousal, dominance, emotions.items, emotions.nodup⟩ := by
  simp only [create, postInit, requireShift_toVal, validateDiscreteEmotions_toVal, bind, Except.bind]
  rfl

/-! ## The parser as a function of lookups -/

theorem dictGet_popItem (d : List (PyKey × PyVal)) (k k' : PyStr) :
    dictGet (popItem d (.str k)) k' = if k' = k then none else dictGet d k' := by
  unfold popItem dictGet
  rw [List.find?_filter]
  by_cases h : k' = k
  · subst h
    rw [if_pos rfl, Option.map_eq_none_iff, List.find?_eq_none]
    intro p _
    simp
  · rw [if_neg h]
    congr 2
    funext p
    by_cases hp : p.1 = .str k'
    · simp [hp, h]
    · simp [hp]

theorem dictGet_assignItem (d : List (PyKey × PyVal)) (k k' : PyStr) (v : PyVal) :
    dictGet (assignItem d (.str k) v) k' = if k' = k then some v else dictGet d k' := by
  unfold assignItem
  split
  · next hany =>
      have hkey : ∀ p : PyKey × PyVal,
          decide ((if p.1 = .str k then (.str k, v) else p).1 = .str k') = decide (p.1 = .str k') := by
        intro p
        by_cases hp : p.1 = .str k
        · simp [hp]
        · simp [hp]
      have hfind : (d.map fun p => if p.1 = .str k then (.str k, v) else p).find? (·.1 = .str k') =
          (d.find? (·.1 = .str k')).map fun p => if p.1 = .str k then (.str k, v) else p := by
        rw [List.find?_map]
        congr 2
        exact funext hkey
      rw [dictGet, hfind, Option.map_map]
      by_cases h : k' = k
      · subst h
        rw [if_pos rfl]
        obtain ⟨p, hp, hpk⟩ := List.any_eq_true.mp hany
        have hsome : (d.find? fun q => decide (q.1 = .str k')).isSome = true :=
          List.find?_isSome.mpr ⟨p, hp, hpk⟩
        obtain ⟨q, hq⟩ := Option.isSome_iff_exists.mp hsome
        have hqk : q.1 = .str k' := by simpa using List.find?_some hq
        simp [hq, hqk]
      · rw [if_neg h, dictGet]
        cases hq : d.find? (·.1 = .str k') with
        | none => rfl
        | some q =>
            have hqk : q.1 = .str k' := by simpa using List.find?_some hq
            simp [hqk, h]
  · next hnone =>
      have habsent : dictGet d k = none := by
        rw [dictGet_eq_none]
        simpa using hnone
      rw [dictGet_append]
      by_cases h : k' = k
      · subst h
        rw [if_pos rfl, habsent]
        simp [dictGet]
      · have hlast : dictGet [(PyKey.str k, v)] k' = none := by simp [dictGet, Ne.symm h]
        rw [if_neg h, hlast]
        cases dictGet d k' <;> rfl

/-- What a pair of names stands for, and what is raised if they disagree. -/
def resolvePair {β : Type} (normalize : PyVal → Except ParseException β) (eq : β → β → Bool)
    (aliased canonical : Option PyVal) : Except ParseException (Option PyVal) :=
  match aliased, canonical with
  | some a, some c => do
      let aliasNorm ← normalize a
      let canonicalNorm ← normalize c
      if !eq aliasNorm canonicalNorm then throw (.failure .conflictingAliases)
      return some c
  | some a, none => .ok (some a)
  | none, c => .ok c

/-- The lookups after a pair was translated. -/
def Resolved (aliasName canonical : PyStr) (result : List (PyKey × PyVal)) (c : Option PyVal)
    (d : List (PyKey × PyVal)) : Prop :=
  ∀ k, dictGet d k =
    if k = canonical then c else if k = aliasName then none else dictGet result k

theorem translatePair_spec {β : Type} (normalize : PyVal → Except ParseException β) (eq : β → β → Bool)
    (aliasName canonical : PyStr) (raw result : List (PyKey × PyVal)) (hne : canonical ≠ aliasName)
    (halias : dictGet result aliasName = dictGet raw aliasName)
    (hcanonical : dictGet result canonical = dictGet raw canonical) :
    match resolvePair normalize eq (dictGet raw aliasName) (dictGet raw canonical) with
    | .ok c => ∃ d, translatePair normalize eq aliasName canonical raw result = .ok d ∧
        Resolved aliasName canonical result c d
    | .error e => translatePair normalize eq aliasName canonical raw result = .error e := by
  unfold translatePair resolvePair
  cases ha : dictGet raw aliasName with
  | none =>
      refine ⟨result, rfl, fun k => ?_⟩
      by_cases hk : k = canonical
      · rw [hk, if_pos rfl, hcanonical]
      · by_cases hk' : k = aliasName
        · rw [if_neg hk, hk', if_pos rfl, halias, ha]
        · rw [if_neg hk, if_neg hk']
  | some a =>
      cases hc : dictGet raw canonical with
      | none =>
          refine ⟨_, rfl, fun k => ?_⟩
          rw [dictGet_assignItem, dictGet_popItem]
      | some c =>
          dsimp only
          cases normalize a with
          | error e => rfl
          | ok x =>
              cases normalize c with
              | error e => rfl
              | ok y =>
                  simp only [bind, Except.bind]
                  cases eq x y with
                  | false => rfl
                  | true =>
                      refine ⟨_, rfl, fun k => ?_⟩
                      rw [dictGet_popItem]
                      by_cases hk : k = canonical
                      · rw [hk, if_neg hne, if_pos rfl, hcanonical, hc]
                      · rw [if_neg hk]

/-- Steps 4 to 7, from what the four fields are. -/
def readResolved (valence arousal dominance emotions : Option PyVal) :
    Except ParseException ParseResult :=
  match valence, arousal, dominance with
  | some v, some a, some d => do
      let x ← numericFailure (requireShift v)
      let y ← numericFailure (requireShift a)
      let z ← numericFailure (requireShift d)
      let e ← parseDiscreteEmotions emotions
      return ⟨⟨x, y, z, e.items, e.nodup⟩, false, none⟩
  | _, _, _ => .error (.failure .missingRequiredField)

theorem numericFailure_bind {α β : Type} (r : Except ParseException α)
    (f : α → Except ParseException β) :
    numericFailure (r >>= f) = (numericFailure r >>= fun x => numericFailure (f x)) := by
  cases r with
  | ok x => rfl
  | error e => cases e <;> rfl

theorem readShifts_eq {d : List (PyKey × PyVal)} {v a e : PyVal}
    (hv : dictGet d (py "valence_shift") = some v) (ha : dictGet d (py "arousal_shift") = some a)
    (he : dictGet d (py "dominance_shift") = some e) :
    readShifts d = do
      let x ← numericFailure (requireShift v)
      let y ← numericFailure (requireShift a)
      let z ← numericFailure (requireShift e)
      return (x, y, z) := by
  simp only [readShifts, getItem, hv, ha, he, numericFailure_bind]
  rfl

theorem readFields_eq (d : List (PyKey × PyVal)) :
    readFields d = readResolved (dictGet d (py "valence_shift")) (dictGet d (py "arousal_shift"))
      (dictGet d (py "dominance_shift")) (dictGet d (py "discrete_emotions")) := by
  unfold readFields
  cases hv : dictGet d (py "valence_shift") with
  | none =>
      have hmissing : requiredShifts.all (fun f => (dictGet d f).isSome) = false := by
        simp [requiredShifts, hv]
      rw [hmissing]
      rfl
  | some v =>
      cases ha : dictGet d (py "arousal_shift") with
      | none =>
          have hmissing : requiredShifts.all (fun f => (dictGet d f).isSome) = false := by
            simp [requiredShifts, ha]
          rw [hmissing]
          rfl
      | some a =>
          cases he : dictGet d (py "dominance_shift") with
          | none =>
              have hmissing : requiredShifts.all (fun f => (dictGet d f).isSome) = false := by
                simp [requiredShifts, he]
              rw [hmissing]
              rfl
          | some e =>
              have hall : requiredShifts.all (fun f => (dictGet d f).isSome) = true := by
                simp [requiredShifts, hv, ha, he]
              rw [hall, readShifts_eq hv ha he]
              simp only [AppraisalV1.create_ok, readResolved, bind_assoc, pure_bind]
              rfl

/-- What is read once the keys are known to be allowed. -/
def readPairs (kvs : List (PyKey × PyVal)) : Except ParseException ParseResult := do
  let valence ← resolvePair validateNormalizeShift shiftEq (dictGet kvs (py "valence"))
    (dictGet kvs (py "valence_shift"))
  let emotions ← resolvePair validateNormalizeEmotions Emotions.eq
    (dictGet kvs (py "triggered_emotions")) (dictGet kvs (py "discrete_emotions"))
  readResolved valence (dictGet kvs (py "arousal_shift")) (dictGet kvs (py "dominance_shift")) emotions

/-- **Behind the check of the keys, the parser is a function of six lookups.** -/
theorem doParse_eq (kvs : List (PyKey × PyVal)) : doParse (.dict kvs) =
    if kvs.all (PyKey.isOneOf allowedTopLevelKeys ·.1) then readPairs kvs
    else .error (.failure .unknownTopLevelKey) := by
  have hdo : doParse (.dict kvs) =
      if !kvs.all (PyKey.isOneOf allowedTopLevelKeys ·.1) then .error (.failure .unknownTopLevelKey)
      else translateAliases kvs >>= readFields := rfl
  rw [hdo]
  cases kvs.all (PyKey.isOneOf allowedTopLevelKeys ·.1) with
  | false => rfl
  | true =>
      rw [Bool.not_true, if_neg Bool.false_ne_true, if_pos rfl]
      unfold translateAliases readPairs
      have hfirst := translatePair_spec validateNormalizeShift shiftEq (py "valence")
        (py "valence_shift") kvs kvs (by decide) rfl rfl
      cases hvalence : resolvePair validateNormalizeShift shiftEq (dictGet kvs (py "valence"))
        (dictGet kvs (py "valence_shift")) with
      | error e =>
          rw [hvalence] at hfirst
          rw [hfirst]
          rfl
      | ok valence =>
          rw [hvalence] at hfirst
          obtain ⟨d, hd, hget⟩ := hfirst
          have hsecond := translatePair_spec validateNormalizeEmotions Emotions.eq
            (py "triggered_emotions") (py "discrete_emotions") kvs d (by decide) (hget _) (hget _)
          rw [hd]
          simp only [bind, Except.bind]
          cases hemotions : resolvePair validateNormalizeEmotions Emotions.eq
            (dictGet kvs (py "triggered_emotions")) (dictGet kvs (py "discrete_emotions")) with
          | error e =>
              rw [hemotions] at hsecond
              rw [hsecond]
          | ok emotions =>
              rw [hemotions] at hsecond
              obtain ⟨d', hd', hget'⟩ := hsecond
              have hv : dictGet d' (py "valence_shift") = valence := (hget' _).trans (hget _)
              have ha : dictGet d' (py "arousal_shift") = dictGet kvs (py "arousal_shift") :=
                (hget' _).trans (hget _)
              have hdom : dictGet d' (py "dominance_shift") = dictGet kvs (py "dominance_shift") :=
                (hget' _).trans (hget _)
              have he : dictGet d' (py "discrete_emotions") = emotions := hget' _
              rw [hd']
              simp only [readFields_eq, hv, ha, hdom, he]

end Katherine
