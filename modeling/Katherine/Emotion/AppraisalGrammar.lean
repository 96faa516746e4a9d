import Katherine.Emotion.AppraisalParser

/-!
# The documents that are appraisals

What `parse_llm_appraisal` accepts, stated for the names a document may use
(`InGrammar`), and what it reads, stated for the fields of an appraisal (`NormalForm`).
A name and its alias are interchangeable, and using both changes nothing if they say the
same. Two floats say the same when `==` says so: `1` and `1.0` do, and so do the two
zeros.
-/

namespace Katherine

open Py

/-! ## The grammar -/

/-- A field with two names: which values are valid, and which say the same. -/
structure AliasPair where
  aliasName : PyStr
  canonical : PyStr
  Valid : PyVal → Prop
  Same : PyVal → PyVal → Prop

def ShiftEntry (v : PyVal) : Prop := inRange (-1) 1 v = true

/-- Two shifts that are the same float. -/
def SameShift (a c : PyVal) : Prop :=
  ∃ x y, requireFiniteFloatInRange (-1) 1 a = some x ∧ requireFiniteFloatInRange (-1) 1 c = some y ∧
    shiftEq x y = true

def SameEmotions (a c : PyVal) : Prop := emotionsEq (emotionsOf a) (emotionsOf c) = true

def valencePair : AliasPair := ⟨py "valence", py "valence_shift", ShiftEntry, SameShift⟩

def emotionsPair : AliasPair :=
  ⟨py "triggered_emotions", py "discrete_emotions", EmotionsEntry, SameEmotions⟩

namespace AliasPair

/-- What stands under the names is valid, and the same if both are there. -/
structure Ok (p : AliasPair) (kvs : List (PyKey × PyVal)) : Prop where
  aliased : ∀ v, dictGet kvs p.aliasName = some v → p.Valid v
  canonical : ∀ v, dictGet kvs p.canonical = some v → p.Valid v
  agree : ∀ a c, dictGet kvs p.aliasName = some a → dictGet kvs p.canonical = some c → p.Same a c

/-- The value under the canonical name, or else under the other. -/
def get (p : AliasPair) (kvs : List (PyKey × PyVal)) : Option PyVal :=
  match dictGet kvs p.canonical with
  | some c => some c
  | none => dictGet kvs p.aliasName

end AliasPair

/-- The documents that are appraisals. -/
structure InGrammar (kvs : List (PyKey × PyVal)) : Prop where
  keys : kvs.all (PyKey.isOneOf allowedTopLevelKeys ·.1) = true
  valence : ∃ v, valencePair.get kvs = some v
  valences : valencePair.Ok kvs
  arousal : ∃ v, dictGet kvs (py "arousal_shift") = some v ∧ ShiftEntry v
  dominance : ∃ v, dictGet kvs (py "dominance_shift") = some v ∧ ShiftEntry v
  emotions : emotionsPair.Ok kvs

/-- What such a document says. -/
structure NormalForm (kvs : List (PyKey × PyVal)) (a : AppraisalV1) : Prop where
  valence : (valencePair.get kvs).bind (requireFiniteFloatInRange (-1) 1) = some a.valenceShift
  arousal : (dictGet kvs (py "arousal_shift")).bind (requireFiniteFloatInRange (-1) 1) =
    some a.arousalShift
  dominance : (dictGet kvs (py "dominance_shift")).bind (requireFiniteFloatInRange (-1) 1) =
    some a.dominanceShift
  emotions : a.discreteEmotions = ((emotionsPair.get kvs).map emotionsOf).getD []

/-- Raised on purpose. -/
def Rejects {α : Type} (r : Except ParseException α) : Prop :=
  ∃ code, code ≠ .unexpectedParserFailure ∧ r = .error (.failure code)

theorem Rejects.bind {α β : Type} {r : Except ParseException α} (h : Rejects r)
    (f : α → Except ParseException β) : Rejects (r >>= f) := by
  obtain ⟨code, hcode, rfl⟩ := h
  exact ⟨code, hcode, rfl⟩

/-- A pair is refused, or what it stands for decides whether it is fine. -/
theorem resolvePair_cases {β : Type} (p : AliasPair) {normalize : PyVal → Except ParseException β}
    {eq : β → β → Bool} {kvs : List (PyKey × PyVal)}
    (hnormalize : ∀ k v, dictGet kvs k = some v →
      (p.Valid v ∧ ∃ n, normalize v = .ok n) ∨ (¬ p.Valid v ∧ Rejects (normalize v)))
    (hsame : ∀ k k' a c n m, dictGet kvs k = some a → dictGet kvs k' = some c →
      normalize a = .ok n → normalize c = .ok m → (p.Same a c ↔ eq n m = true)) :
    (Rejects (resolvePair normalize eq (dictGet kvs p.aliasName) (dictGet kvs p.canonical)) ∧
        ¬ p.Ok kvs) ∨
      (resolvePair normalize eq (dictGet kvs p.aliasName) (dictGet kvs p.canonical) =
          .ok (p.get kvs) ∧
        (p.Ok kvs ↔ ∀ v, p.get kvs = some v → p.Valid v)) := by
  cases ha : dictGet kvs p.aliasName with
  | none =>
      have hget : p.get kvs = dictGet kvs p.canonical := by
        rw [AliasPair.get, ha]
        cases dictGet kvs p.canonical <;> rfl
      rw [hget]
      refine .inr ⟨rfl, fun h => h.canonical, fun h => ⟨?_, h, ?_⟩⟩
      · intro v hv
        rw [ha] at hv
        cases hv
      · intro a c hv
        rw [ha] at hv
        cases hv
  | some a =>
      cases hc : dictGet kvs p.canonical with
      | none =>
          have hget : p.get kvs = some a := by rw [AliasPair.get, hc, ha]
          rw [hget]
          refine .inr ⟨rfl, ?_, fun h => ⟨?_, ?_, ?_⟩⟩
          · intro h v hv
            exact h.aliased v (ha.trans hv)
          · intro v hv
            exact h v (ha.symm.trans hv)
          · intro v hv
            rw [hc] at hv
            cases hv
          · intro _ c _ hv
            rw [hc] at hv
            cases hv
      | some c =>
          have hget : p.get kvs = some c := by rw [AliasPair.get, hc]
          rw [hget]
          unfold resolvePair
          rcases hnormalize _ a ha with ⟨hvalid, n, hn⟩ | ⟨hinvalid, hreject⟩
          · rcases hnormalize _ c hc with ⟨hvalid', m, hm⟩ | ⟨hinvalid', hreject'⟩
            · have hiff := hsame _ _ a c n m ha hc hn hm
              simp only [hn, hm, bind, Except.bind]
              cases heq : eq n m with
              | false =>
                  refine .inl ⟨⟨.conflictingAliases, by decide, rfl⟩, fun h => ?_⟩
                  have := hiff.mp (h.agree a c ha hc)
                  rw [heq] at this
                  cases this
              | true =>
                  refine .inr ⟨rfl, fun _ v hv => Option.some.inj hv ▸ hvalid', fun _ => ⟨?_, ?_, ?_⟩⟩
                  · intro v hv
                    exact Option.some.inj (ha.symm.trans hv) ▸ hvalid
                  · intro v hv
                    exact Option.some.inj (hc.symm.trans hv) ▸ hvalid'
                  · intro a' c' ha' hc'
                    obtain rfl : a = a' := Option.some.inj (ha.symm.trans ha')
                    obtain rfl : c = c' := Option.some.inj (hc.symm.trans hc')
                    exact hiff.mpr heq
            · refine .inl ⟨?_, fun h => hinvalid' (h.canonical c hc)⟩
              simp only [hn]
              exact hreject'.bind _
          · exact .inl ⟨hreject.bind _, fun h => hinvalid (h.aliased a ha)⟩

theorem requireShift_cases (v : PyVal) :
    (ShiftEntry v ∧ ∃ x, requireFiniteFloatInRange (-1) 1 v = some x ∧
        numericFailure (requireShift v) = .ok x) ∨
      (¬ ShiftEntry v ∧ Rejects (numericFailure (requireShift v))) := by
  unfold requireShift ShiftEntry
  rcases requireFiniteFloatInRange_cases (-1) 1 le_rfl le_rfl v with ⟨hrange, x, hx⟩ | ⟨hrange, hx⟩
  · refine .inl ⟨hrange, x, hx, ?_⟩
    rw [hx]
    rfl
  · refine .inr ⟨?_, .invalidNumericValue, by decide, ?_⟩
    · rw [hrange]
      exact Bool.false_ne_true
    · rw [hx]
      rfl

/-- The four fields are there and valid, the emotions if they are there. -/
structure FieldsOk (valence arousal dominance emotions : Option PyVal) : Prop where
  valence : ∃ v, valence = some v ∧ ShiftEntry v
  arousal : ∃ v, arousal = some v ∧ ShiftEntry v
  dominance : ∃ v, dominance = some v ∧ ShiftEntry v
  emotions : ∀ v, emotions = some v → EmotionsEntry v

/-- Steps 4 to 7 fail on purpose, or read what the four fields say. -/
theorem readResolved_cases (valence arousal dominance : Option PyVal) {emotions : Option PyVal}
    (hjson : ∀ v, emotions = some v → isJson v = true) :
    (FieldsOk valence arousal dominance emotions ∧
      ∃ a : AppraisalV1, readResolved valence arousal dominance emotions = .ok ⟨a, false, none⟩ ∧
        valence.bind (requireFiniteFloatInRange (-1) 1) = some a.valenceShift ∧
        arousal.bind (requireFiniteFloatInRange (-1) 1) = some a.arousalShift ∧
        dominance.bind (requireFiniteFloatInRange (-1) 1) = some a.dominanceShift ∧
        a.discreteEmotions = (emotions.map emotionsOf).getD []) ∨
    (¬ FieldsOk valence arousal dominance emotions ∧
      Rejects (readResolved valence arousal dominance emotions)) := by
  have hmissing : Rejects (.error (.failure .missingRequiredField) : Except ParseException ParseResult) :=
    ⟨.missingRequiredField, by decide, rfl⟩
  have habsent : ¬ ∃ v, (none : Option PyVal) = some v ∧ ShiftEntry v := by
    rintro ⟨v, hv, -⟩
    cases hv
  cases valence with
  | none => exact .inr ⟨fun h => habsent h.valence, hmissing⟩
  | some v =>
      cases arousal with
      | none => exact .inr ⟨fun h => habsent h.arousal, hmissing⟩
      | some a =>
          cases dominance with
          | none => exact .inr ⟨fun h => habsent h.dominance, hmissing⟩
          | some d =>
              have hentry : ∀ {w : PyVal}, (∃ u, some w = some u ∧ ShiftEntry u) → ShiftEntry w := by
                rintro w ⟨u, hu, h⟩
                exact Option.some.inj hu ▸ h
              simp only [readResolved]
              rcases requireShift_cases v with ⟨hv, x, hx, hx'⟩ | ⟨hv, hreject⟩
              · rw [hx']
                rcases requireShift_cases a with ⟨ha, y, hy, hy'⟩ | ⟨ha, hreject⟩
                · rw [hy']
                  rcases requireShift_cases d with ⟨hd, z, hz, hz'⟩ | ⟨hd, hreject⟩
                  · rw [hz']
                    cases emotions with
                    | none =>
                        refine .inl ⟨⟨⟨v, rfl, hv⟩, ⟨a, rfl, ha⟩, ⟨d, rfl, hd⟩, ?_⟩, ?_⟩
                        · intro w hw
                          cases hw
                        · exact ⟨⟨x, y, z, [], .nil⟩, rfl, hx, hy, hz, rfl⟩
                    | some e =>
                        rcases readEmotions_cases (hjson e rfl) with
                          ⟨he, out, hout, heq⟩ | ⟨he, code, hcode, herror⟩
                        · refine .inl ⟨⟨⟨v, rfl, hv⟩, ⟨a, rfl, ha⟩, ⟨d, rfl, hd⟩, ?_⟩,
                            ⟨x, y, z, out.items, out.nodup⟩, ?_, hx, hy, hz, heq⟩
                          · intro w hw
                            exact Option.some.inj hw ▸ he
                          · simp only [parseDiscreteEmotions, hout]
                            rfl
                        · refine .inr ⟨fun h => he (h.emotions e rfl), code, hcode, ?_⟩
                          simp only [parseDiscreteEmotions, herror]
                          rfl
                  · exact .inr ⟨fun h => hd (hentry h.dominance), hreject.bind _⟩
                · exact .inr ⟨fun h => ha (hentry h.arousal), hreject.bind _⟩
              · exact .inr ⟨fun h => hv (hentry h.valence), hreject.bind _⟩

theorem isJson_dictGet {kvs : List (PyKey × PyVal)} (h : isJson (.dict kvs) = true) {k : PyStr} {v : PyVal}
    (hv : dictGet kvs k = some v) : isJson v = true := by
  obtain ⟨hall, hnodup⟩ := (isJsonItems_iff kvs).mp h
  exact (hall _ ((dictGet_eq_some hnodup).mp hv)).2

theorem isJson_pair {kvs : List (PyKey × PyVal)} (h : isJson (.dict kvs) = true) (p : AliasPair)
    {v : PyVal} (hv : p.get kvs = some v) : isJson v = true := by
  unfold AliasPair.get at hv
  split at hv
  · next c hc => exact isJson_dictGet h (hc.trans hv)
  · exact isJson_dictGet h hv

theorem resolve_valence (kvs : List (PyKey × PyVal)) :
    (Rejects (resolvePair validateNormalizeShift shiftEq (dictGet kvs (py "valence"))
        (dictGet kvs (py "valence_shift"))) ∧ ¬ valencePair.Ok kvs) ∨
      (resolvePair validateNormalizeShift shiftEq (dictGet kvs (py "valence"))
          (dictGet kvs (py "valence_shift")) = .ok (valencePair.get kvs) ∧
        (valencePair.Ok kvs ↔ ∀ v, valencePair.get kvs = some v → ShiftEntry v)) := by
  refine resolvePair_cases valencePair ?_ ?_
  · intro _ v _
    rcases requireShift_cases v with ⟨hv, x, -, hx⟩ | h
    · exact .inl ⟨hv, x, hx⟩
    · exact .inr h
  · intro _ _ a c n m _ _ hn hm
    rcases requireShift_cases a with ⟨-, x, hx, hx'⟩ | ⟨-, code, -, hx'⟩
    · rcases requireShift_cases c with ⟨-, y, hy, hy'⟩ | ⟨-, code, -, hy'⟩
      · obtain rfl : x = n := Except.ok.inj (hx'.symm.trans hn)
        obtain rfl : y = m := Except.ok.inj (hy'.symm.trans hm)
        refine ⟨?_, fun h => ⟨x, y, hx, hy, h⟩⟩
        rintro ⟨x', y', ha, hc, h⟩
        obtain rfl : x = x' := Option.some.inj (hx.symm.trans ha)
        obtain rfl : y = y' := Option.some.inj (hy.symm.trans hc)
        exact h
      · cases hy'.symm.trans hm
    · cases hx'.symm.trans hn

theorem resolve_emotions {kvs : List (PyKey × PyVal)} (hjson : isJson (.dict kvs) = true) :
    (Rejects (resolvePair validateNormalizeEmotions Emotions.eq (dictGet kvs (py "triggered_emotions"))
        (dictGet kvs (py "discrete_emotions"))) ∧ ¬ emotionsPair.Ok kvs) ∨
      (resolvePair validateNormalizeEmotions Emotions.eq (dictGet kvs (py "triggered_emotions"))
          (dictGet kvs (py "discrete_emotions")) = .ok (emotionsPair.get kvs) ∧
        (emotionsPair.Ok kvs ↔ ∀ v, emotionsPair.get kvs = some v → EmotionsEntry v)) := by
  have hread : ∀ {v : PyVal} {n : Emotions}, isJson v = true → validateNormalizeEmotions v = .ok n →
      n.items = emotionsOf v := by
    intro v n hv hn
    rcases readEmotions_cases hv with ⟨-, out, hout, heq⟩ | ⟨-, code, -, herror⟩
    · obtain rfl : out = n := Except.ok.inj (hout.symm.trans hn)
      exact heq
    · cases herror.symm.trans hn
  refine resolvePair_cases emotionsPair ?_ ?_
  · intro k v hv
    rcases readEmotions_cases (isJson_dictGet hjson hv) with ⟨he, out, hout, -⟩ | h
    · exact .inl ⟨he, out, hout⟩
    · exact .inr h
  · intro k k' a c n m ha hc hn hm
    change emotionsEq (emotionsOf a) (emotionsOf c) = true ↔ emotionsEq n.items m.items = true
    rw [hread (isJson_dictGet hjson ha) hn, hread (isJson_dictGet hjson hc) hm]

/-- **A document is read, or it is refused on purpose.** -/
theorem doParse_cases {kvs : List (PyKey × PyVal)} (hjson : isJson (.dict kvs) = true) :
    (InGrammar kvs ∧ ∃ a, doParse (.dict kvs) = .ok ⟨a, false, none⟩ ∧ NormalForm kvs a) ∨
      (¬ InGrammar kvs ∧ Rejects (doParse (.dict kvs))) := by
  rw [doParse_eq]
  cases hkeys : kvs.all (PyKey.isOneOf allowedTopLevelKeys ·.1) with
  | false =>
      refine .inr ⟨fun h => ?_, .unknownTopLevelKey, by decide, rfl⟩
      have := h.keys
      rw [hkeys] at this
      cases this
  | true =>
      rw [if_pos rfl]
      unfold readPairs
      rcases resolve_valence kvs with ⟨hreject, hbad⟩ | ⟨hvalence, hvalences⟩
      · exact .inr ⟨fun h => hbad h.valences, hreject.bind _⟩
      rcases resolve_emotions hjson with ⟨hreject, hbad⟩ | ⟨hemotions, hemotionsOk⟩
      · rw [hvalence]
        exact .inr ⟨fun h => hbad h.emotions, hreject.bind _⟩
      rw [hvalence, hemotions]
      have hfields : FieldsOk (valencePair.get kvs) (dictGet kvs (py "arousal_shift"))
          (dictGet kvs (py "dominance_shift")) (emotionsPair.get kvs) ↔ InGrammar kvs := by
        constructor
        · rintro ⟨⟨v, hv, hshift⟩, harousal, hdominance, he⟩
          refine ⟨hkeys, ⟨v, hv⟩, hvalences.mpr ?_, harousal, hdominance, hemotionsOk.mpr he⟩
          intro w hw
          exact Option.some.inj (hv.symm.trans hw) ▸ hshift
        · rintro ⟨-, ⟨v, hv⟩, hok, harousal, hdominance, he⟩
          exact ⟨⟨v, hv, hvalences.mp hok v hv⟩, harousal, hdominance, hemotionsOk.mp he⟩
      rcases readResolved_cases (valencePair.get kvs) (dictGet kvs (py "arousal_shift"))
          (dictGet kvs (py "dominance_shift")) (fun v hv => isJson_pair hjson emotionsPair hv) with
        ⟨hok, a, ha, h1, h2, h3, h4⟩ | ⟨hbad, hreject⟩
      · exact .inl ⟨hfields.mp hok, a, ha, h1, h2, h3, h4⟩
      · exact .inr ⟨fun h => hbad (hfields.mpr h), hreject⟩

/-! ## Results that are the same -/

/-- `a == b` on appraisals. -/
def AppraisalV1.eq (a b : AppraisalV1) : Bool :=
  shiftEq a.valenceShift b.valenceShift && shiftEq a.arousalShift b.arousalShift &&
    shiftEq a.dominanceShift b.dominanceShift && emotionsEq a.discreteEmotions b.discreteEmotions

/-- `r == r'` on results. -/
def ParseResult.eq (r r' : ParseResult) : Bool :=
  r.appraisal.eq r'.appraisal && decide (r.isFallback = r'.isFallback) &&
    decide (r.errorCode = r'.errorCode)

theorem shiftEq_refl (x : Bipolar) : shiftEq x x = true := by
  simp [shiftEq, FiniteFloat.numEq]

theorem emotionsEq_refl {es : List (DiscreteEmotion × Unipolar)} (h : (es.map Prod.fst).Nodup) :
    emotionsEq es es = true := by
  have hfind : ∀ e ∈ es, es.find? (·.1 = e.1) = some e := by
    intro e he
    have hsome : (es.find? fun e' => decide (e'.1 = e.1)).isSome = true :=
      List.find?_isSome.mpr ⟨e, he, decide_eq_true rfl⟩
    obtain ⟨e', he'⟩ := Option.isSome_iff_exists.mp hsome
    have hkey : e'.1 = e.1 := by simpa using List.find?_some he'
    rw [he', List.inj_on_of_nodup_map h (List.mem_of_find?_eq_some he') he hkey]
  unfold emotionsEq
  simp only [decide_true, Bool.true_and, List.all_eq_true]
  intro e he
  rw [hfind e he]
  simp [FiniteFloat.numEq]

theorem AppraisalV1.eq_refl (a : AppraisalV1) : a.eq a = true := by
  simp only [eq, shiftEq_refl, emotionsEq_refl a.nodup, Bool.and_self]

theorem ParseResult.eq_refl (r : ParseResult) : r.eq r = true := by
  simp [eq, AppraisalV1.eq_refl]

/-- The results of two parses are the same, or they raise the same. -/
def SameOutcome : Except ParseException ParseResult → Except ParseException ParseResult → Prop
  | .ok r, .ok r' => r.eq r' = true
  | .error e, .error e' => e = e'
  | _, _ => False

theorem SameOutcome.refl (r : Except ParseException ParseResult) : SameOutcome r r := by
  cases r with
  | ok r => exact r.eq_refl
  | error e => exact rfl

theorem SameOutcome.bind {α : Type} (r : Except ParseException α)
    {f g : α → Except ParseException ParseResult} (h : ∀ x, SameOutcome (f x) (g x)) :
    SameOutcome (r >>= f) (r >>= g) := by
  cases r with
  | ok x => exact h x
  | error e => exact rfl

/-- The `except` clauses. -/
def settle : Except ParseException ParseResult → ParseResult
  | .ok result => result
  | .error (.failure code) => fallback code
  | .error .domain => fallback .invalidNumericValue
  | .error .other => fallback .unexpectedParserFailure

theorem parseLlmAppraisal_eq (raw : PyVal) : parseLlmAppraisal raw = settle (doParse raw) := by
  unfold parseLlmAppraisal settle
  cases doParse raw with
  | ok r => rfl
  | error e => cases e <;> rfl

theorem SameOutcome.settle {r r' : Except ParseException ParseResult} (h : SameOutcome r r') :
    (settle r).eq (settle r') = true := by
  cases r with
  | ok x =>
      cases r' with
      | ok y => exact h
      | error e => exact h.elim
  | error e =>
      cases r' with
      | ok y => exact h.elim
      | error e' =>
          obtain rfl : e = e' := h
          exact ParseResult.eq_refl _

/-- Only the valence differs, and it is the same float. -/
theorem readResolved_sameValence {a c : PyVal} (h : SameShift a c) (arousal dominance : Option PyVal)
    (emotions : Option PyVal) : SameOutcome (readResolved (some a) arousal dominance emotions)
      (readResolved (some c) arousal dominance emotions) := by
  obtain ⟨x, y, hx, hy, hxy⟩ := h
  have hx' : numericFailure (requireShift a) = .ok x := by
    rw [requireShift, hx]
    rfl
  have hy' : numericFailure (requireShift c) = .ok y := by
    rw [requireShift, hy]
    rfl
  cases arousal with
  | none => exact rfl
  | some v =>
      cases dominance with
      | none => exact rfl
      | some w =>
          simp only [readResolved, hx', hy']
          refine SameOutcome.bind (numericFailure (requireShift v)) fun z => ?_
          refine SameOutcome.bind (numericFailure (requireShift w)) fun z' => ?_
          refine SameOutcome.bind (parseDiscreteEmotions emotions) fun e => ?_
          simp only [pure, Except.pure, SameOutcome, ParseResult.eq, AppraisalV1.eq, hxy, shiftEq_refl,
            emotionsEq_refl e.nodup, decide_true, Bool.and_self]

theorem readResolved_sameEmotions {a c : PyVal} {x y : Emotions}
    (hx : validateNormalizeEmotions a = .ok x) (hy : validateNormalizeEmotions c = .ok y)
    (hxy : x.eq y = true) (valence arousal dominance : Option PyVal) :
    SameOutcome (readResolved valence arousal dominance (some a))
      (readResolved valence arousal dominance (some c)) := by
  have hx' : parseDiscreteEmotions (some a) = .ok x := hx
  have hy' : parseDiscreteEmotions (some c) = .ok y := hy
  cases valence with
  | none => exact rfl
  | some u =>
      cases arousal with
      | none => exact rfl
      | some v =>
          cases dominance with
          | none => exact rfl
          | some w =>
              simp only [readResolved, hx', hy']
              refine SameOutcome.bind (numericFailure (requireShift u)) fun z => ?_
              refine SameOutcome.bind (numericFailure (requireShift v)) fun z' => ?_
              refine SameOutcome.bind (numericFailure (requireShift w)) fun z'' => ?_
              have hitems : emotionsEq x.items y.items = true := hxy
              simp only [bind, Except.bind, pure, Except.pure, SameOutcome, ParseResult.eq,
                AppraisalV1.eq, hitems, shiftEq_refl, decide_true, Bool.and_self]

/-! ## One name for another -/

theorem isOneOf_renameKey {old new : PyStr} {fields : List PyStr} (hold : old ∈ fields)
    (hnew : new ∈ fields) (kvs : List (PyKey × PyVal)) :
    (renameKey old new kvs).all (PyKey.isOneOf fields ·.1) = kvs.all (PyKey.isOneOf fields ·.1) := by
  rw [renameKey, List.all_map]
  congr 1
  funext p
  by_cases hp : p.1 = .str old
  · simp [hp, PyKey.isOneOf, hold, hnew]
  · simp [hp]

namespace AliasPair

/-- `v` stands under one of the names, and nothing under the other. -/
def Alone (p : AliasPair) (kvs : List (PyKey × PyVal)) (v : Option PyVal) : Prop :=
  (dictGet kvs p.aliasName = v ∧ dictGet kvs p.canonical = none) ∨
    (dictGet kvs p.aliasName = none ∧ dictGet kvs p.canonical = v)

/-- The documents differ at the names only. -/
def Elsewhere (p : AliasPair) (kvs kvs' : List (PyKey × PyVal)) : Prop :=
  ∀ k, k ≠ p.aliasName → k ≠ p.canonical → dictGet kvs' k = dictGet kvs k

/-- The two names, in either order. -/
def Names (p : AliasPair) (old new : PyStr) : Prop :=
  (old = p.aliasName ∧ new = p.canonical) ∨ (old = p.canonical ∧ new = p.aliasName)

end AliasPair

theorem resolvePair_alone {β : Type} {normalize : PyVal → Except ParseException β} {eq : β → β → Bool}
    {p : AliasPair} {kvs : List (PyKey × PyVal)} {v : Option PyVal} (h : p.Alone kvs v) :
    resolvePair normalize eq (dictGet kvs p.aliasName) (dictGet kvs p.canonical) = .ok v := by
  rcases h with ⟨ha, hc⟩ | ⟨ha, hc⟩
  · rw [ha, hc]
    cases v <;> rfl
  · rw [ha, hc]
    rfl

/-- `_translate_aliases` leaves `v` of the valences in `kvs`. -/
def ValenceIs (kvs : List (PyKey × PyVal)) (v : Option PyVal) : Prop :=
  resolvePair validateNormalizeShift shiftEq (dictGet kvs (py "valence"))
    (dictGet kvs (py "valence_shift")) = .ok v

def EmotionsAre (kvs : List (PyKey × PyVal)) (v : Option PyVal) : Prop :=
  resolvePair validateNormalizeEmotions Emotions.eq (dictGet kvs (py "triggered_emotions"))
    (dictGet kvs (py "discrete_emotions")) = .ok v

theorem readPairs_valence {kvs kvs' : List (PyKey × PyVal)} (v v' : Option PyVal)
    (h : ValenceIs kvs v) (h' : ValenceIs kvs' v') (helse : valencePair.Elsewhere kvs kvs') :
    ∃ rest : Option PyVal → Except ParseException ParseResult,
      readPairs kvs = rest v ∧ readPairs kvs' = rest v' ∧
      ((∀ arousal dominance emotions, SameOutcome (readResolved v arousal dominance emotions)
        (readResolved v' arousal dominance emotions)) → SameOutcome (rest v) (rest v')) := by
  have harousal := helse (py "arousal_shift") (by decide) (by decide)
  have hdominance := helse (py "dominance_shift") (by decide) (by decide)
  have htriggered := helse (py "triggered_emotions") (by decide) (by decide)
  have hdiscrete := helse (py "discrete_emotions") (by decide) (by decide)
  refine ⟨fun w => do
    let emotions ← resolvePair validateNormalizeEmotions Emotions.eq
      (dictGet kvs (py "triggered_emotions")) (dictGet kvs (py "discrete_emotions"))
    readResolved w (dictGet kvs (py "arousal_shift")) (dictGet kvs (py "dominance_shift")) emotions,
    ?_, ?_, fun hsame => SameOutcome.bind _ fun e => hsame _ _ e⟩
  · unfold readPairs
    rw [h]
    rfl
  · unfold readPairs
    rw [h', harousal, hdominance, htriggered, hdiscrete]
    rfl

theorem readPairs_emotions {kvs kvs' : List (PyKey × PyVal)} (v v' : Option PyVal)
    (h : EmotionsAre kvs v) (h' : EmotionsAre kvs' v') (helse : emotionsPair.Elsewhere kvs kvs') :
    ∃ rest : Option PyVal → Except ParseException ParseResult,
      readPairs kvs = rest v ∧ readPairs kvs' = rest v' ∧
      ((∀ valence arousal dominance, SameOutcome (readResolved valence arousal dominance v)
        (readResolved valence arousal dominance v')) → SameOutcome (rest v) (rest v')) := by
  have harousal := helse (py "arousal_shift") (by decide) (by decide)
  have hdominance := helse (py "dominance_shift") (by decide) (by decide)
  have hvalence := helse (py "valence") (by decide) (by decide)
  have hshift := helse (py "valence_shift") (by decide) (by decide)
  refine ⟨fun w => do
    let valence ← resolvePair validateNormalizeShift shiftEq (dictGet kvs (py "valence"))
      (dictGet kvs (py "valence_shift"))
    readResolved valence (dictGet kvs (py "arousal_shift")) (dictGet kvs (py "dominance_shift")) w,
    ?_, ?_, fun hsame => SameOutcome.bind _ fun x => hsame x _ _⟩
  · unfold readPairs
    rw [h]
    rfl
  · unfold readPairs
    rw [h', harousal, hdominance, hvalence, hshift]
    rfl

def aliasPairs : List AliasPair := [valencePair, emotionsPair]

/-- It does not matter which of the names is used. -/
theorem readPairs_alone {p : AliasPair} (hp : p ∈ aliasPairs) {kvs kvs' : List (PyKey × PyVal)}
    {v : Option PyVal} (h : p.Alone kvs v) (h' : p.Alone kvs' v) (helse : p.Elsewhere kvs kvs') :
    readPairs kvs' = readPairs kvs := by
  simp only [aliasPairs, List.mem_cons, List.not_mem_nil, or_false] at hp
  rcases hp with rfl | rfl
  · obtain ⟨rest, hrest, hrest', -⟩ :=
      readPairs_valence v v (resolvePair_alone h) (resolvePair_alone h') helse
    rw [hrest, hrest']
  · obtain ⟨rest, hrest, hrest', -⟩ :=
      readPairs_emotions v v (resolvePair_alone h) (resolvePair_alone h') helse
    rw [hrest, hrest']

theorem names_allowed {p : AliasPair} (hp : p ∈ aliasPairs) :
    p.aliasName ∈ allowedTopLevelKeys ∧ p.canonical ∈ allowedTopLevelKeys ∧ p.aliasName ≠ p.canonical := by
  simp only [aliasPairs, List.mem_cons, List.not_mem_nil, or_false] at hp
  rcases hp with rfl | rfl <;> decide

theorem doParse_renameKey {p : AliasPair} (hp : p ∈ aliasPairs) {old new : PyStr}
    (hnames : p.Names old new) {kvs : List (PyKey × PyVal)} (hfree : dictGet kvs new = none) :
    doParse (.dict (renameKey old new kvs)) = doParse (.dict kvs) := by
  obtain ⟨halias, hcanonical, hne⟩ := names_allowed hp
  have hnames' : old ∈ allowedTopLevelKeys ∧ new ∈ allowedTopLevelKeys ∧ old ≠ new := by
    rcases hnames with ⟨rfl, rfl⟩ | ⟨rfl, rfl⟩
    · exact ⟨halias, hcanonical, hne⟩
    · exact ⟨hcanonical, halias, hne.symm⟩
  obtain ⟨hold, hnew, hne'⟩ := hnames'
  have hget := fun k => dictGet_renameKey hne' k hfree
  have hgetNew : dictGet (renameKey old new kvs) new = dictGet kvs old := (hget new).trans (if_pos rfl)
  have hgetOld : dictGet (renameKey old new kvs) old = none := by
    rw [hget old, if_neg hne', if_pos rfl]
  rw [doParse_eq, doParse_eq, isOneOf_renameKey hold hnew]
  congr 1
  have helse : p.Elsewhere kvs (renameKey old new kvs) := by
    intro k hk hk'
    rw [hget k]
    rcases hnames with ⟨rfl, rfl⟩ | ⟨rfl, rfl⟩
    · rw [if_neg hk', if_neg hk]
    · rw [if_neg hk, if_neg hk']
  have halone : p.Alone kvs (dictGet kvs old) ∧ p.Alone (renameKey old new kvs) (dictGet kvs old) := by
    rcases hnames with ⟨rfl, rfl⟩ | ⟨rfl, rfl⟩
    · exact ⟨.inl ⟨rfl, hfree⟩, .inr ⟨hgetOld, hgetNew⟩⟩
    · exact ⟨.inr ⟨hfree, rfl⟩, .inl ⟨hgetNew, hgetOld⟩⟩
  exact readPairs_alone hp halone.1 halone.2 helse

/-! ## Both names -/

/-- `c` under `k`, at the end. -/
def addKey (kvs : List (PyKey × PyVal)) (k : PyStr) (c : PyVal) : List (PyKey × PyVal) :=
  kvs ++ [(.str k, c)]

theorem dictGet_addKey {kvs : List (PyKey × PyVal)} {k : PyStr} (hfree : dictGet kvs k = none) (c : PyVal)
    (k' : PyStr) : dictGet (addKey kvs k c) k' = if k' = k then some c else dictGet kvs k' := by
  rw [addKey, dictGet_append, dictGet_cons]
  by_cases h : k' = k
  · subst h
    rw [hfree]
    simp
  · have hne : PyKey.str k ≠ .str k' := fun he => h (PyKey.str.inj he).symm
    rw [if_neg hne, if_neg h]
    cases dictGet kvs k' <;> rfl

theorem isOneOf_addKey {fields : List PyStr} {k : PyStr} (hk : k ∈ fields) (kvs : List (PyKey × PyVal))
    (c : PyVal) :
    (addKey kvs k c).all (PyKey.isOneOf fields ·.1) = kvs.all (PyKey.isOneOf fields ·.1) := by
  simp [addKey, PyKey.isOneOf, hk]

theorem resolve_both_valences {kvs : List (PyKey × PyVal)} {a c : PyVal}
    (ha : dictGet kvs (py "valence") = some a) (hc : dictGet kvs (py "valence_shift") = some c)
    (hsame : SameShift a c) : ValenceIs kvs (some c) := by
  obtain ⟨x, y, hx, hy, hxy⟩ := hsame
  have hx' : validateNormalizeShift a = .ok x := by
    rw [validateNormalizeShift, requireShift, hx]
    rfl
  have hy' : validateNormalizeShift c = .ok y := by
    rw [validateNormalizeShift, requireShift, hy]
    rfl
  unfold ValenceIs
  rw [ha, hc]
  simp only [resolvePair, hx', hy', bind, Except.bind, hxy]
  rfl

theorem resolve_both_emotions {kvs : List (PyKey × PyVal)} {a c : PyVal} {x y : Emotions}
    (ha : dictGet kvs (py "triggered_emotions") = some a)
    (hc : dictGet kvs (py "discrete_emotions") = some c) (hx : validateNormalizeEmotions a = .ok x)
    (hy : validateNormalizeEmotions c = .ok y) (hxy : x.eq y = true) : EmotionsAre kvs (some c) := by
  unfold EmotionsAre
  rw [ha, hc]
  simp only [resolvePair, hx, hy, bind, Except.bind, hxy]
  rfl

/-- Two emotion entries that say the same, as the parser normalises them. -/
theorem normalized_emotions {a c : PyVal} (ha : isJson a = true) (hc : isJson c = true)
    (hentry : EmotionsEntry a) (hentry' : EmotionsEntry c) (hsame : SameEmotions a c) :
    ∃ x y, validateNormalizeEmotions a = .ok x ∧ validateNormalizeEmotions c = .ok y ∧ x.eq y = true := by
  rcases readEmotions_cases ha with ⟨-, x, hx, hx'⟩ | ⟨hbad, -⟩
  · rcases readEmotions_cases hc with ⟨-, y, hy, hy'⟩ | ⟨hbad, -⟩
    · refine ⟨x, y, hx, hy, ?_⟩
      change emotionsEq x.items y.items = true
      rw [hx', hy']
      exact hsame
    · exact absurd hentry' hbad
  · exact absurd hentry hbad

/-- The other name with the same value changes nothing that `==` sees. -/
theorem readPairs_both {p : AliasPair} (hp : p ∈ aliasPairs) (kvs kvs' : List (PyKey × PyVal))
    {a c : PyVal} (haJson : isJson a = true) (hcJson : isJson c = true) (ha : p.Valid a) (hc : p.Valid c)
    (hsame : p.Same a c) (ha' : dictGet kvs' p.aliasName = some a)
    (hc' : dictGet kvs' p.canonical = some c) (helse : p.Elsewhere kvs kvs') :
    (p.Alone kvs (some a) → SameOutcome (readPairs kvs) (readPairs kvs')) ∧
      (p.Alone kvs (some c) → readPairs kvs' = readPairs kvs) := by
  simp only [aliasPairs, List.mem_cons, List.not_mem_nil, or_false] at hp
  rcases hp with rfl | rfl
  · have hboth := resolve_both_valences ha' hc' hsame
    constructor
    · intro halone
      obtain ⟨rest, hrest, hrest', houtcome⟩ := readPairs_valence _ _ (resolvePair_alone halone) hboth helse
      rw [hrest, hrest']
      exact houtcome fun arousal dominance emotions => readResolved_sameValence hsame arousal dominance emotions
    · intro halone
      obtain ⟨rest, hrest, hrest', -⟩ := readPairs_valence _ _ (resolvePair_alone halone) hboth helse
      rw [hrest, hrest']
  · obtain ⟨x, y, hx, hy, hxy⟩ := normalized_emotions haJson hcJson ha hc hsame
    have hboth := resolve_both_emotions ha' hc' hx hy hxy
    constructor
    · intro halone
      obtain ⟨rest, hrest, hrest', houtcome⟩ := readPairs_emotions _ _ (resolvePair_alone halone) hboth helse
      rw [hrest, hrest']
      exact houtcome fun valence arousal dominance =>
        readResolved_sameEmotions hx hy hxy valence arousal dominance
    · intro halone
      obtain ⟨rest, hrest, hrest', -⟩ := readPairs_emotions _ _ (resolvePair_alone halone) hboth helse
      rw [hrest, hrest']

theorem parse_addCanonical {p : AliasPair} (hp : p ∈ aliasPairs) {kvs : List (PyKey × PyVal)} {a c : PyVal}
    (haJson : isJson a = true) (hcJson : isJson c = true) (ha : p.Valid a) (hc : p.Valid c)
    (hsame : p.Same a c) (halias : dictGet kvs p.aliasName = some a)
    (hfree : dictGet kvs p.canonical = none) :
    (parseLlmAppraisal (.dict kvs)).eq (parseLlmAppraisal (.dict (addKey kvs p.canonical c))) = true := by
  obtain ⟨-, hallowed, hne⟩ := names_allowed hp
  have hget := dictGet_addKey hfree c
  have hboth := readPairs_both hp kvs (addKey kvs p.canonical c) haJson hcJson ha hc hsame
    ((hget _).trans ((if_neg hne).trans halias)) ((hget _).trans (if_pos rfl))
    (fun k _ hk => (hget k).trans (if_neg hk))
  rw [parseLlmAppraisal_eq, parseLlmAppraisal_eq, doParse_eq, doParse_eq, isOneOf_addKey hallowed]
  refine SameOutcome.settle ?_
  split
  · exact hboth.1 (.inl ⟨halias, hfree⟩)
  · exact SameOutcome.refl _

theorem parse_addAlias {p : AliasPair} (hp : p ∈ aliasPairs) {kvs : List (PyKey × PyVal)} {a c : PyVal}
    (haJson : isJson a = true) (hcJson : isJson c = true) (ha : p.Valid a) (hc : p.Valid c)
    (hsame : p.Same a c) (hcanonical : dictGet kvs p.canonical = some c)
    (hfree : dictGet kvs p.aliasName = none) :
    parseLlmAppraisal (.dict (addKey kvs p.aliasName a)) = parseLlmAppraisal (.dict kvs) := by
  obtain ⟨hallowed, -, hne⟩ := names_allowed hp
  have hget := dictGet_addKey hfree a
  have hboth := readPairs_both hp kvs (addKey kvs p.aliasName a) haJson hcJson ha hc hsame
    ((hget _).trans (if_pos rfl)) ((hget _).trans ((if_neg hne.symm).trans hcanonical))
    (fun k hk _ => (hget k).trans (if_neg hk))
  rw [parseLlmAppraisal_eq, parseLlmAppraisal_eq, doParse_eq, doParse_eq, isOneOf_addKey hallowed,
    hboth.2 (.inr ⟨hfree, hcanonical⟩)]

/-- **`parse_llm_appraisal` accepts its grammar, and names do not matter.** A decoded value is read exactly
if it is a document of the grammar, and then into what the document says; anything else gives the neutral
appraisal and a code that says why, which is never the one for what was not foreseen. Renaming a field, or
writing it under both names with the same value, changes nothing. -/
theorem parse_llm_appraisal_exact {raw : PyVal} (hraw : isJson raw = true) :
    ((parseLlmAppraisal raw).isFallback = false ↔ ∃ kvs, raw = .dict kvs ∧ InGrammar kvs) ∧
      (∀ kvs, raw = .dict kvs → InGrammar kvs → (parseLlmAppraisal raw).errorCode = none ∧
        NormalForm kvs (parseLlmAppraisal raw).appraisal) ∧
      ((parseLlmAppraisal raw).isFallback = true →
        (parseLlmAppraisal raw).appraisal = AppraisalV1.neutral ∧
        ∃ code, (parseLlmAppraisal raw).errorCode = some code ∧ code ≠ .unexpectedParserFailure) ∧
      ∀ kvs, raw = .dict kvs → ∀ p ∈ aliasPairs,
        (∀ old new, p.Names old new → dictGet kvs new = none →
          parseLlmAppraisal (.dict (renameKey old new kvs)) = parseLlmAppraisal raw) ∧
        (∀ a c, isJson a = true → isJson c = true → p.Valid a → p.Valid c → p.Same a c →
          (dictGet kvs p.aliasName = some a → dictGet kvs p.canonical = none →
            (parseLlmAppraisal raw).eq (parseLlmAppraisal (.dict (addKey kvs p.canonical c))) = true) ∧
          (dictGet kvs p.canonical = some c → dictGet kvs p.aliasName = none →
            parseLlmAppraisal (.dict (addKey kvs p.aliasName a)) = parseLlmAppraisal raw)) := by
  have hcases : ((∃ kvs, raw = .dict kvs ∧ InGrammar kvs) ∧
        ∃ a, parseLlmAppraisal raw = ⟨a, false, none⟩ ∧ ∀ kvs, raw = .dict kvs → NormalForm kvs a) ∨
      ((¬ ∃ kvs, raw = .dict kvs ∧ InGrammar kvs) ∧
        ∃ code, code ≠ .unexpectedParserFailure ∧ parseLlmAppraisal raw = fallback code) := by
    rw [parseLlmAppraisal_eq]
    cases raw with
    | dict kvs =>
        rcases doParse_cases hraw with ⟨haccepted, a, ha, hform⟩ | ⟨hbad, code, hcode, herror⟩
        · refine .inl ⟨⟨kvs, rfl, haccepted⟩, a, ?_, ?_⟩
          · rw [ha]
            rfl
          · intro kvs' hkvs
            exact PyVal.dict.inj hkvs ▸ hform
        · refine .inr ⟨?_, code, hcode, ?_⟩
          · rintro ⟨kvs', hkvs, haccepted⟩
            exact hbad (PyVal.dict.inj hkvs ▸ haccepted)
          · rw [herror]
            rfl
    | _ =>
        refine .inr ⟨?_, .invalidStructure, by decide, rfl⟩
        rintro ⟨kvs, hkvs, -⟩
        cases hkvs
  refine ⟨?_, ?_, ?_, ?_⟩
  · rcases hcases with ⟨haccepted, a, ha, -⟩ | ⟨hbad, code, -, hfallback⟩
    · rw [ha]
      exact iff_of_true rfl haccepted
    · rw [hfallback]
      exact iff_of_false Bool.noConfusion hbad
  · intro kvs hkvs haccepted
    rcases hcases with ⟨-, a, ha, hform⟩ | ⟨hbad, -⟩
    · rw [ha]
      exact ⟨rfl, hform kvs hkvs⟩
    · exact absurd ⟨kvs, hkvs, haccepted⟩ hbad
  · intro hfallback
    rcases hcases with ⟨-, a, ha, -⟩ | ⟨-, code, hcode, heq⟩
    · rw [ha] at hfallback
      cases hfallback
    · rw [heq]
      exact ⟨rfl, code, rfl, hcode⟩
  · rintro kvs rfl p hp
    refine ⟨?_, ?_⟩
    · intro old new hnames hfree
      rw [parseLlmAppraisal_eq, parseLlmAppraisal_eq, doParse_renameKey hp hnames hfree]
    · intro a c haJson hcJson ha hc hsame
      exact ⟨parse_addCanonical hp haJson hcJson ha hc hsame, parse_addAlias hp haJson hcJson ha hc hsame⟩

/-- What a model might write: an alias, an integer, and an emotion nobody knows. -/
def sampleAppraisal : List (PyKey × PyVal) :=
  [(.str (py "valence"), .int 1), (.str (py "arousal_shift"), .float (.fin ⟨py "0.25", by decide⟩)),
    (.str (py "dominance_shift"), .int 0),
    (.str (py "triggered_emotions"), .dict [(.str (py "joy"), .float (.fin float05.val)),
      (.str (py "euphoria"), .str (py "high"))])]

theorem parse_llm_appraisal_exact_sample :
    (parseLlmAppraisal (.dict sampleAppraisal)).isFallback = false ∧
      parseLlmAppraisal (.dict (renameKey (py "valence") (py "valence_shift") sampleAppraisal)) =
        parseLlmAppraisal (.dict sampleAppraisal) := by
  obtain ⟨hiff, -, -, hnames⟩ :=
    parse_llm_appraisal_exact (show isJson (.dict sampleAppraisal) = true by decide)
  refine ⟨?_, ?_⟩
  · decide +kernel
  · exact (hnames sampleAppraisal rfl valencePair List.mem_cons_self).1 _ _ (.inl ⟨rfl, rfl⟩) (by decide)

end Katherine
