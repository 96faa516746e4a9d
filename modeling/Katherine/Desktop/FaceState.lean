import Katherine.Emotion.PublicState
import Katherine.Lib.JsonShape

/-!
# From the public emotion state to the face

`validateEmotionState` and `selectKatherineFaceState` of the frontend, on what `JSON.parse` makes of the
response. The two sides have a list of emotions each, bounds of their own, and a rule each for which
emotion comes first: the backend sorts and cuts, the frontend keeps what is not beaten. They agree
(`public_emotion_shown`): every response is accepted as it is, and the face is that of the emotion
that is listed first.
-/

namespace Katherine.Desktop

open Py

/-! ## JavaScript values -/

/-- A JavaScript value, with its own properties; one is `none` if it holds no data: an accessor, a hole,
or one that throws. -/
inductive JsValue
  | undefined
  | null
  | bool (b : Bool)
  | number (f : PyFloat)
  | string (s : PyStr)
  /-- A function, a symbol or a bigint. -/
  | other
  | array (elements : List (Option JsValue))
  | object (own : List (PyStr × Option JsValue))

/-- An integer as a JavaScript number. -/
def numberOfInt (i : Int) : PyFloat :=
  match floatOfInt i with
  | some f => .fin f
  | none => .inf (decide (i < 0))

mutual
/-- What `JSON.parse` makes of the text of a value. -/
def jsOf : PyVal → JsValue
  | .none => .null
  | .bool b => .bool b
  | .int i => .number (numberOfInt i)
  | .float f => .number f
  | .str s => .string s
  | .list xs => .array (jsElems xs)
  | .tuple xs => .array (jsElems xs)
  | .dict kvs => .object (jsItems kvs)
  | .obj => .undefined
def jsElems : List PyVal → List (Option JsValue)
  | [] => []
  | x :: xs => some (jsOf x) :: jsElems xs
def jsItems : List (PyKey × PyVal) → List (PyStr × Option JsValue)
  | [] => []
  | (k, v) :: kvs => (keyText k, some (jsOf v)) :: jsItems kvs
end

/-- `readOwnDataProperty`. -/
def JsValue.ownData : JsValue → PyStr → Option JsValue
  | .object own, key => (own.find? (·.1 = key)).bind (·.2)
  | _, _ => none

/-- A non-null object that is no array. -/
def JsValue.isRecord : JsValue → Bool
  | .object _ => true
  | _ => false

/-- `=== 1`. -/
def JsValue.isOne : JsValue → Bool
  | .number (.fin f) => decide (f.ratio.1 = f.ratio.2)
  | _ => false

/-- A finite number. -/
def JsValue.finite? : JsValue → Option FiniteFloat
  | .number (.fin f) => some f
  | _ => none

/-- A string that is not empty. -/
def JsValue.text? : JsValue → Option PyStr
  | .string s => if s = [] then none else some s
  | _ => none

def JsValue.elements? : JsValue → Option (List (Option JsValue))
  | .array elements => some elements
  | _ => none

/-! ## Validation -/

/-- `EMOTION_LABELS`. -/
def emotionLabels : List (PyStr × PyStr) :=
  [(py "joy", py "Alegria"), (py "sadness", py "Tristeza"), (py "anger", py "Raiva"),
   (py "fear", py "Medo"), (py "disgust", py "Nojo"), (py "surprise", py "Surpresa"),
   (py "trust", py "Confiança"), (py "anticipation", py "Antecipação"),
   (py "tenderness", py "Ternura"), (py "guilt", py "Culpa"), (py "pride", py "Orgulho"),
   (py "jealousy", py "Ciúmes"), (py "gratitude", py "Gratidão")]

/-- `getEmotionLabel`. -/
def getEmotionLabel (name : PyStr) : Option PyStr := (emotionLabels.find? (·.1 = name)).map (·.2)

/-- What `validateEmotionState` returns; its `schema_version` is always 1. -/
structure ValidatedEmotionState where
  pleasure : FiniteFloat
  arousal : FiniteFloat
  dominance : FiniteFloat
  moodLabel : PyStr
  dominantEmotions : List (PyStr × FiniteFloat)
  timestamp : FiniteFloat

/-- The loop over the items of `dominant_emotions`, with `seenNames`. -/
def validateEmotions (seen : List PyStr) : List (Option JsValue) → Option (List (PyStr × FiniteFloat))
  | [] => some []
  | item :: items => do
      let item ← item
      guard item.isRecord
      let name ← item.ownData (py "name")
      let intensity ← item.ownData (py "intensity")
      let name ← name.text?
      guard ((getEmotionLabel name).isSome ∧ name ∉ seen)
      let intensity ← intensity.finite?
      guard (¬ intensity.ltRatio 0 1 ∧ ¬ intensity.gtRatio 1 1)
      let emotions ← validateEmotions (name :: seen) items
      return (name, intensity) :: emotions

/-- `validateEmotionState`. -/
def validateEmotionState (payload : JsValue) : Option ValidatedEmotionState := do
  guard payload.isRecord
  let schemaVersion ← payload.ownData (py "schema_version")
  guard schemaVersion.isOne
  let pad ← payload.ownData (py "pad")
  guard pad.isRecord
  let pleasure ← pad.ownData (py "pleasure")
  let arousal ← pad.ownData (py "arousal")
  let dominance ← pad.ownData (py "dominance")
  let pleasure ← pleasure.finite?
  let arousal ← arousal.finite?
  let dominance ← dominance.finite?
  guard (∀ value ∈ [pleasure, arousal, dominance], ¬ value.ltRatio (-1) 1 ∧ ¬ value.gtRatio 1 1)
  let dominantEmotions ← payload.ownData (py "dominant_emotions")
  let elements ← dominantEmotions.elements?
  guard (elements.length ≤ 3)
  let dominantEmotions ← validateEmotions [] elements
  let moodLabel ← payload.ownData (py "mood_label")
  let moodLabel ← moodLabel.text?
  let timestamp ← payload.ownData (py "timestamp")
  let timestamp ← timestamp.finite?
  guard (timestamp.gtRatio 0 1)
  return { pleasure, arousal, dominance, moodLabel, dominantEmotions, timestamp }

/-- The returned object, as JSON. -/
def ValidatedEmotionState.doc (v : ValidatedEmotionState) : List (PyKey × PyVal) :=
  [(.str (py "schema_version"), .int 1),
   (.str (py "pad"), .dict [(.str (py "pleasure"), .float (.fin v.pleasure)),
      (.str (py "arousal"), .float (.fin v.arousal)), (.str (py "dominance"), .float (.fin v.dominance))]),
   (.str (py "mood_label"), .str v.moodLabel),
   (.str (py "dominant_emotions"), .list (v.dominantEmotions.map fun e =>
      .dict [(.str (py "name"), .str e.1), (.str (py "intensity"), .float (.fin e.2))])),
   (.str (py "timestamp"), .float (.fin v.timestamp))]

/-! ## The face -/

/-- `KATHERINE_FACE_EXPRESSIONS`. -/
def katherineFaceExpressions : List PyStr :=
  [py "idle", py "thinking", py "happy", py "joy", py "sad", py "annoyed", py "angry", py "worried",
    py "scared", py "surprised", py "content", py "curious"]

/-- The expressions of an emotion. -/
structure Variants where
  moderate : PyStr
  strong : Option PyStr

/-- `EXPRESSION_BY_EMOTION`. -/
def expressionByEmotion : List (PyStr × Variants) :=
  [(py "joy", ⟨py "happy", some (py "joy")⟩),
   (py "sadness", ⟨py "sad", none⟩),
   (py "anger", ⟨py "annoyed", some (py "angry")⟩),
   (py "fear", ⟨py "worried", some (py "scared")⟩),
   (py "disgust", ⟨py "annoyed", none⟩),
   (py "surprise", ⟨py "surprised", none⟩),
   (py "trust", ⟨py "content", none⟩),
   (py "anticipation", ⟨py "curious", none⟩),
   (py "tenderness", ⟨py "content", some (py "happy")⟩),
   (py "guilt", ⟨py "worried", none⟩),
   (py "pride", ⟨py "content", some (py "happy")⟩),
   (py "jealousy", ⟨py "worried", none⟩),
   (py "gratitude", ⟨py "content", some (py "happy")⟩)]

/-- The expression for an intensity; `STRONG_EXPRESSION_THRESHOLD` is 0.70. -/
def Variants.expression (variants : Variants) (intensity : FiniteFloat) : PyStr :=
  if intensity.ltRatio 7 10 then variants.moderate else variants.strong.getD variants.moderate

/-- The expression of an emotion, by the table. -/
def expressionOf (name : PyStr) (intensity : FiniteFloat) : Option PyStr :=
  (expressionByEmotion.find? (·.1 = name)).map fun entry => entry.2.expression intensity

example : expressionOf (py "joy") ⟨py "0.7", by decide⟩ = some (py "joy") := by decide

/-- The `reduce` over the emotions. -/
def dominantOf (emotions : List (PyStr × FiniteFloat)) : Option (PyStr × FiniteFloat) :=
  emotions.foldl (fun current candidate =>
    match current with
    | none => some candidate
    | some kept => if kept.2.lt candidate.2 then some candidate else some kept) none

/-- `selectKatherineFaceState`. -/
def selectKatherineFaceState (emotionState isLoading : JsValue) : PyStr :=
  match isLoading with
  | .bool true => py "thinking"
  | _ =>
      match validateEmotionState emotionState with
      | none => py "idle"
      | some validated =>
          match dominantOf validated.dominantEmotions with
          | none => py "idle"
          | some dominant =>
              match expressionOf dominant.1 dominant.2 with
              | none => py "idle"
              | some expression =>
                  if expression ∈ katherineFaceExpressions then expression else py "idle"

/-! ## What the response is on the other side -/

theorem ownData_jsItems {kvs : List (PyKey × PyVal)} (h : ∀ p ∈ kvs, p.1.isStr = true) (k : PyStr) :
    (JsValue.object (jsItems kvs)).ownData k = (dictGet kvs k).map jsOf := by
  induction kvs with
  | nil => rfl
  | cons p kvs ih =>
      obtain ⟨key, v⟩ := p
      obtain ⟨hkey, hrest⟩ := List.forall_mem_cons.mp h
      obtain ⟨name, rfl⟩ : ∃ name, key = .str name := by
        cases key with
        | str name => exact ⟨name, rfl⟩
        | _ => cases hkey
      rw [dictGet_cons]
      by_cases hname : name = k
      · subst hname
        simp [JsValue.ownData, jsItems, keyText]
      · have hskip : (JsValue.object (jsItems ((.str name, v) :: kvs))).ownData k
            = (JsValue.object (jsItems kvs)).ownData k := by
          simp [JsValue.ownData, jsItems, keyText, hname]
        rw [hskip, ih hrest]
        simp [hname]

/-- **A property of a document that was written and read.** -/
theorem ownData_canon {kvs : List (PyKey × PyVal)} (h : isJsonItems kvs = true) (k : PyStr) :
    (jsOf (PyVal.dict kvs).canon).ownData k = (dictGet kvs k).map fun v => jsOf v.canon := by
  have hcanon := isJsonItems_perm (sortItems_perm (canonItems kvs)) (isJsonItems_canon h)
  have hkeys := fun p hp => (((isJsonItems_iff _).mp hcanon).1 p hp).1
  rw [PyVal.canon, jsOf, ownData_jsItems hkeys, dictGet_canon h, Option.map_map]
  rfl

theorem isJson_emotionDoc (e : DiscreteEmotion × Unipolar) :
    isJsonItems [(.str (py "name"), .str e.1.name), (.str (py "intensity"), e.2.toVal)] = true := rfl

theorem getEmotionLabel_name (e : DiscreteEmotion) : (getEmotionLabel e.name).isSome = true := by
  cases e <;> decide

theorem text?_name (e : DiscreteEmotion) : (JsValue.string e.name).text? = some e.name := by
  cases e <;> rfl

/-- **One emotion of the response is accepted as it is.** -/
theorem validateEmotions_cons {seen : List PyStr} {e : DiscreteEmotion × Unipolar} (hnew : e.1.name ∉ seen)
    (items : List (Option JsValue)) :
    validateEmotions seen (some (jsOf (emotionDoc e).canon) :: items)
      = (validateEmotions (e.1.name :: seen) items).map ((e.1.name, e.2.val) :: ·) := by
  have hname : (jsOf (emotionDoc e).canon).ownData (py "name") = some (.string e.1.name) :=
    ownData_canon (isJson_emotionDoc e) _
  have hintensity : (jsOf (emotionDoc e).canon).ownData (py "intensity")
      = some (.number (.fin e.2.val)) := ownData_canon (isJson_emotionDoc e) _
  have hrecord : (jsOf (emotionDoc e).canon).isRecord = true := rfl
  rw [validateEmotions]
  simp only [hname, hintensity, hrecord, text?_name, getEmotionLabel_name, hnew, JsValue.finite?, e.2.ge,
    e.2.le, Option.bind_eq_bind, Option.bind_some, guard, if_true, not_false_eq_true, and_self,
    Bool.false_eq_true]
  cases validateEmotions (e.1.name :: seen) items <;> rfl

theorem validateEmotions_docs : ∀ {es : List (DiscreteEmotion × Unipolar)} {seen : List PyStr},
    (es.map (·.1)).Nodup → (∀ e ∈ es, e.1.name ∉ seen) →
    validateEmotions seen (jsElems (canonElems (es.map emotionDoc)))
      = some (es.map fun e => (e.1.name, e.2.val))
  | [], _, _, _ => rfl
  | e :: es, seen, hnodup, hnew => by
      obtain ⟨hfresh, hrest⟩ := List.nodup_cons.mp hnodup
      obtain ⟨he, hes⟩ := List.forall_mem_cons.mp hnew
      rw [List.map_cons, canonElems, jsElems, validateEmotions_cons he, validateEmotions_docs hrest]
      · rfl
      · intro e' he' hmem
        rcases List.mem_cons.mp hmem with heq | hmem
        · exact hfresh (List.mem_map.mpr ⟨e', he', DiscreteEmotion.name_injective heq⟩)
        · exact hes e' he' hmem

/-- The axes of the response. -/
def padItems (s : EmotionalStateV1) : List (PyKey × PyVal) :=
  [(.str (py "pleasure"), s.pleasure.toVal), (.str (py "arousal"), s.arousal.toVal),
   (.str (py "dominance"), s.dominance.toVal)]

theorem isJson_padItems (s : EmotionalStateV1) : isJsonItems (padItems s) = true := rfl

/-- What the frontend makes of the response. -/
def shownState (s : EmotionalStateV1) (a : AppraisalV1) : ValidatedEmotionState where
  pleasure := s.pleasure.val
  arousal := s.arousal.val
  dominance := s.dominance.val
  moodLabel := getEmotionalLabel s
  dominantEmotions := (dominantEmotions a).map fun e => (e.1.name, e.2.val)
  timestamp := s.timestamp.val

theorem length_jsElems (xs : List PyVal) : (jsElems (canonElems xs)).length = xs.length := by
  induction xs with
  | nil => rfl
  | cons x xs ih => rw [canonElems, jsElems, List.length_cons, List.length_cons, ih]

/-- **Every response is accepted as it is.** -/
theorem validateEmotionState_public (s : EmotionalStateV1) (a : AppraisalV1) :
    validateEmotionState (jsOf (PyVal.dict (projectPublicEmotion s a)).canon) = some (shownState s a) := by
  have hown := fun k => ownData_canon (isJson_projectPublicEmotion s a) k
  have hrecord : (jsOf (PyVal.dict (projectPublicEmotion s a)).canon).isRecord = true := rfl
  have hversion : _ = some (JsValue.number (numberOfInt 1)) := hown (py "schema_version")
  have hone : (JsValue.number (numberOfInt 1)).isOne = true := by decide +kernel
  have hmood : _ = some (JsValue.string (getEmotionalLabel s)) := hown (py "mood_label")
  have hlabel : (JsValue.string (getEmotionalLabel s)).text? = some (getEmotionalLabel s) :=
    if_neg (classifyPadMood_ne_nil _ _ _)
  have hpad : _ = some (jsOf (PyVal.dict (padItems s)).canon) := hown (py "pad")
  have haxis := fun k => ownData_canon (isJson_padItems s) k
  have hpleasure : _ = some (JsValue.number (.fin s.pleasure.val)) := haxis (py "pleasure")
  have harousal : _ = some (JsValue.number (.fin s.arousal.val)) := haxis (py "arousal")
  have hdominance : _ = some (JsValue.number (.fin s.dominance.val)) := haxis (py "dominance")
  have hdominant : _ = some (JsValue.array (jsElems (canonElems ((dominantEmotions a).map emotionDoc)))) :=
    hown (py "dominant_emotions")
  have htimestamp : _ = some (JsValue.number (.fin s.timestamp.val)) := hown (py "timestamp")
  have hthree : (jsElems (canonElems ((dominantEmotions a).map emotionDoc))).length ≤ 3 := by
    rw [length_jsElems, List.length_map, dominantEmotions_length]
    exact min_le_left _ _
  have hpadRecord : (jsOf (PyVal.dict (padItems s)).canon).isRecord = true := rfl
  have hbounds : ∀ value ∈ [s.pleasure.val, s.arousal.val, s.dominance.val],
      ¬ value.ltRatio (-1) 1 ∧ ¬ value.gtRatio 1 1 := by
    simp [s.pleasure.ge, s.pleasure.le, s.arousal.ge, s.arousal.le, s.dominance.ge, s.dominance.le]
  have hemotions := validateEmotions_docs (dominantEmotions_nodup a) fun e _ => List.not_mem_nil (a := e.1.name)
  unfold validateEmotionState
  simp only [hrecord, hversion, hone, hmood, hlabel, hpad, hpleasure, harousal, hdominance, hdominant,
    htimestamp, hthree, hpadRecord, hemotions, JsValue.finite?, JsValue.elements?, s.timestamp.pos,
    Option.bind_eq_bind, Option.bind_some, guard, if_true]
  rw [if_pos hbounds]
  rfl

/-- The response can be written, without `NaN` and infinities. -/
theorem serialisable_public (o : DumpOpts) (s : EmotionalStateV1) (a : AppraisalV1) :
    serialisable o (.dict (projectPublicEmotion s a)) = true := by
  have hemotion : ∀ e : DiscreteEmotion × Unipolar, serialisable o (emotionDoc e) = true := by
    intro e
    refine serialisable_dict rfl fun p hp => ?_
    simp only [List.mem_cons, List.not_mem_nil, or_false] at hp
    rcases hp with rfl | rfl
    · rfl
    · exact serialisable_float o _
  have hemotions : ∀ es : List (DiscreteEmotion × Unipolar),
      serialisableElems o (es.map emotionDoc) = true := by
    intro es
    induction es with
    | nil => rfl
    | cons e es ih => rw [List.map_cons, serialisableElems, hemotion, ih, Bool.and_self]
  have hpad : serialisable o (.dict (padItems s)) = true := by
    refine serialisable_dict rfl fun p hp => ?_
    simp only [padItems, List.mem_cons, List.not_mem_nil, or_false] at hp
    rcases hp with rfl | rfl | rfl <;> exact serialisable_float o _
  refine serialisable_dict rfl fun p hp => ?_
  simp only [projectPublicEmotion, List.mem_cons, List.not_mem_nil, or_false] at hp
  rcases hp with rfl | rfl | rfl | rfl | rfl
  · exact serialisable_one o
  · rfl
  · exact hpad
  · exact hemotions _
  · exact serialisable_float o _

/-! ## Which face is shown -/

/-- The returned object has the fields of the response. -/
theorem shownState_doc (s : EmotionalStateV1) (a : AppraisalV1) :
    (shownState s a).doc.Perm (projectPublicEmotion s a) := by
  have hemotions : ((shownState s a).dominantEmotions.map fun e => PyVal.dict
      [(.str (py "name"), .str e.1), (.str (py "intensity"), .float (.fin e.2))])
      = (dominantEmotions a).map emotionDoc := by
    rw [shownState, List.map_map]
    rfl
  rw [ValidatedEmotionState.doc, hemotions]
  exact (List.Perm.swap _ _ _).cons _

theorem dominantOf_eq_best (emotions : List (PyStr × FiniteFloat)) :
    dominantOf emotions = Best.best (fun x y => y.2.lt x.2 = true) emotions :=
  Best.foldl_of_best id (fun kept _ => by cases kept <;> rfl) emotions

/-- **The emotion listed first is kept**: no later one is more intense. -/
theorem dominantOf_shown (a : AppraisalV1) :
    dominantOf ((dominantEmotions a).map fun e => (e.1.name, e.2.val))
      = (dominantEmotions a).head?.map fun e => (e.1.name, e.2.val) := by
  have hsorted := (dominantEmotions_spec a).1
  cases hlisted : dominantEmotions a with
  | nil => rfl
  | cons e es =>
      rw [hlisted] at hsorted
      rw [dominantOf_eq_best, List.map_cons, List.head?_cons, Option.map_some]
      refine Best.best_first fun y hy => ?_
      obtain ⟨e', he', rfl⟩ := List.mem_map.mp hy
      rw [Bool.not_eq_true, FiniteFloat.lt_eq_false]
      rcases (List.pairwise_cons.mp hsorted).1 e' he' with hlt | ⟨heq, -⟩
      · exact le_of_lt hlt
      · exact heq.ge

/-- Every emotion has an expression, and a face for it. -/
theorem expressionOf_name (e : DiscreteEmotion) (intensity : FiniteFloat) :
    ∃ expression, expressionOf e.name intensity = some expression ∧
      expression ∈ katherineFaceExpressions := by
  have hface : ∀ variants : Variants, variants.moderate ∈ katherineFaceExpressions →
      variants.strong.getD variants.moderate ∈ katherineFaceExpressions →
      variants.expression intensity ∈ katherineFaceExpressions := by
    intro variants hmoderate hstrong
    unfold Variants.expression
    split
    · exact hmoderate
    · exact hstrong
  cases e <;> exact ⟨_, rfl, hface _ (by decide) (by decide)⟩

theorem selectKatherineFaceState_public (s : EmotionalStateV1) (a : AppraisalV1) {isLoading : JsValue}
    (h : isLoading ≠ .bool true) :
    selectKatherineFaceState (jsOf (PyVal.dict (projectPublicEmotion s a)).canon) isLoading
      = match (dominantEmotions a).head? with
        | none => py "idle"
        | some e =>
            match expressionOf e.1.name e.2.val with
            | none => py "idle"
            | some expression =>
                if expression ∈ katherineFaceExpressions then expression else py "idle" := by
  unfold selectKatherineFaceState
  split
  · exact absurd rfl h
  · simp only [validateEmotionState_public, shownState, dominantOf_shown]
    cases (dominantEmotions a).head? <;> rfl

/-- **Every public emotion state is accepted and shown faithfully.** It is built; the frontend takes it
as it is; the emotions in it are the strongest that are felt, whatever the order of the appraisal; and
the face is that of the first of them. -/
theorem public_emotion_shown (s : EmotionalStateV1) (a : AppraisalV1) :
    (∃ r, projectPublicEmotionResponse s a = .ok r ∧ r.modelDump = projectPublicEmotion s a) ∧
    (∃ text v, dumpsCompact false (.dict (projectPublicEmotion s a)) = some text ∧ loads text = some v ∧
      (∃ shown, validateEmotionState (jsOf v) = some shown ∧
        shown.doc.Perm (projectPublicEmotion s a)) ∧
      ∀ isLoading, isLoading ≠ .bool true →
        match (dominantEmotions a).head? with
        | none => selectKatherineFaceState (jsOf v) isLoading = py "idle"
        | some e => expressionOf e.1.name e.2.val = some (selectKatherineFaceState (jsOf v) isLoading)) ∧
    ((dominantEmotions a).Pairwise Stronger ∧
      (∀ e ∈ dominantEmotions a, e ∈ a.discreteEmotions ∧ 0 < e.2.val.value) ∧
      (dominantEmotions a).length
        = min 3 (a.discreteEmotions.filter fun e => decide (0 < e.2.val.value)).length ∧
      ∀ e ∈ a.discreteEmotions, 0 < e.2.val.value → e ∉ dominantEmotions a →
        ∀ l ∈ dominantEmotions a, Stronger l e) ∧
    ∀ a' : AppraisalV1, a.discreteEmotions.Perm a'.discreteEmotions →
      projectPublicEmotionResponse s a' = projectPublicEmotionResponse s a := by
  have hjson : isJson (.dict (projectPublicEmotion s a)) = true := isJson_projectPublicEmotion s a
  have htext : dumpsCompact false (.dict (projectPublicEmotion s a))
      = some (render [] (PyVal.dict (projectPublicEmotion s a)).canon) :=
    if_pos (serialisable_public _ s a)
  refine ⟨projectPublicEmotionResponse_ok s a, ⟨_, _, htext,
    loads_dumpsCompact_json hjson htext,
    ⟨_, validateEmotionState_public s a, shownState_doc s a⟩, fun isLoading hloading => ?_⟩,
    dominantEmotions_spec a, fun a' hperm => ?_⟩
  · have hselect := selectKatherineFaceState_public s a hloading
    cases hhead : (dominantEmotions a).head? with
    | none =>
        rw [hhead] at hselect
        exact hselect
    | some e =>
        obtain ⟨expression, hexpression, hface⟩ := expressionOf_name e.1 e.2.val
        simp only [hhead, hexpression, if_pos hface] at hselect
        rw [hselect]
        exact hexpression
  · rw [projectPublicEmotionResponse, projectPublicEmotionResponse, dominantEmotions_perm hperm]

end Katherine.Desktop
