import Katherine.Local.Payloads
import Katherine.Transition

/-!
# Which states the store accepts

The domain bounds a relationship by its triggers: 32 of them, 128 characters each. The
store bounds its snapshot by the bytes of its JSON. A character takes up to six of these,
so the first bound does not imply the second, and a lone surrogate cannot be encoded at
all. `snapshots_storable_iff` counts the bytes of a snapshot from the characters of its
triggers.

An emotional state has no text of its own and always fits.
-/

namespace Katherine.Local

open Py

/-! ## Bytes of a relationship -/

/-- The bytes of the triggers: each with its quotes, and a comma between two. -/
def triggerBytes (ts : Triggers) : Nat :=
  (ts.items.map fun t => (t.map jsonCharBytes).sum + 2).sum + (ts.items.length - 1)

/-- The bytes of the four numbers. -/
def numberBytes (s : RelationshipStateV1) : Nat :=
  s.trust.val.text.length + s.affection.val.text.length + s.tension.val.text.length
    + s.timestamp.val.text.length

/-- The rest of a relationship snapshot: its version, keys and marks. -/
def relationshipFrame : Nat := 80

/-- Every trigger can be encoded, and the snapshot fits `MAX_SNAPSHOT_BYTES`. -/
structure SnapshotFits (s : RelationshipStateV1) : Prop where
  encodable : ∀ t ∈ s.triggers.items, encodable t = true
  size : triggerBytes s.triggers + numberBytes s + relationshipFrame ≤ maxSnapshotBytes

theorem jsonBytes_relationship (s : RelationshipStateV1) :
    jsonBytes (.dict s.toDict) = triggerBytes s.triggers + numberBytes s + relationshipFrame := by
  have hfloat : ∀ f : FiniteFloat, weigh utf8Size (floatText (.fin f)) = f.text.length := utf8Len_float
  have hmarks : utf8Size (cp '{') = 1 ∧ utf8Size (cp '}') = 1 ∧ utf8Size (cp ',') = 1 ∧
      utf8Size (cp ':') = 1 ∧ utf8Size (cp '[') = 1 ∧ utf8Size (cp ']') = 1 := by decide
  have hkeys : weigh utf8Size (quote (py "schema_version")) = 16 ∧ weigh utf8Size (quote (py "trust")) = 7 ∧
      weigh utf8Size (quote (py "affection")) = 11 ∧ weigh utf8Size (quote (py "tension")) = 9 ∧
      weigh utf8Size (quote (py "triggers")) = 10 ∧ weigh utf8Size (quote (py "timestamp")) = 11 ∧
      weigh utf8Size (intText 1) = 1 := by decide
  have htriggers : (s.triggers.items.map fun t => weigh utf8Size (quote t)).sum =
      (s.triggers.items.map fun t => (t.map jsonCharBytes).sum + 2).sum := by
    congr 1
    refine List.map_congr_left fun t _ => ?_
    rw [utf8Len_quote, utf8Len_escape]
  simp only [jsonBytes, RelationshipStateV1.toDict, weighJson, weighItems, weighElems_strs, htriggers,
    keyText, RangedFloat.toVal, PosFloat.toVal, hfloat, hmarks, hkeys, List.length_cons, List.length_nil,
    List.length_map, triggerBytes, numberBytes, relationshipFrame]
  omega

/-- The estimate behind the limit holds where a character takes one byte. -/
theorem snapshotFits_of_plain {s : RelationshipStateV1}
    (h : ∀ t ∈ s.triggers.items, ∀ c ∈ t, jsonCharBytes c = 1) : SnapshotFits s where
  encodable := by
    intro t ht
    refine List.all_eq_true.mpr fun c hc => ?_
    rw [isSurrogate_of_jsonCharBytes (h t ht c hc)]
    rfl
  size := by
    have hcount := s.triggers.count
    have hsum : ∀ ts : List PyStr, (∀ t ∈ ts, (t.map jsonCharBytes).sum ≤ 128) →
        (ts.map fun t => (t.map jsonCharBytes).sum + 2).sum ≤ 130 * ts.length := by
      intro ts
      induction ts with
      | nil => intro _; rfl
      | cons t ts ih =>
          intro hts
          obtain ⟨ht, hts⟩ := List.forall_mem_cons.mp hts
          have htail := ih hts
          rw [List.map_cons, List.sum_cons, List.length_cons]
          omega
    have htriggers := hsum s.triggers.items fun t ht => by
      rw [List.map_congr_left (h t ht), List.map_const', List.sum_replicate_nat, Nat.mul_one]
      exact (s.triggers.each t ht).2.2
    have h1 := s.trust.val.length_le
    have h2 := s.affection.val.length_le
    have h3 := s.tension.val.length_le
    have h4 := s.timestamp.val.length_le
    rw [triggerBytes, numberBytes, relationshipFrame, maxSnapshotBytes]
    omega

/-! ## Both validators -/

theorem serialisable_emotion (o : DumpOpts) (s : EmotionalStateV1) :
    serialisable o (.dict s.toDict) = true := by
  refine serialisable_dict rfl fun p hp => ?_
  simp only [EmotionalStateV1.toDict, List.mem_cons, List.not_mem_nil, or_false] at hp
  rcases hp with rfl | rfl | rfl | rfl | rfl | rfl | rfl | rfl | rfl | rfl | rfl
  · exact serialisable_one o
  all_goals first
    | exact serialisable_float o _
    | rfl

theorem serialisable_strs (o : DumpOpts) : ∀ ts : List PyStr, serialisableElems o (ts.map .str) = true
  | [] => rfl
  | t :: ts => by rw [List.map_cons, serialisableElems, serialisable_strs o ts]; rfl

theorem serialisable_relationship (o : DumpOpts) (s : RelationshipStateV1) :
    serialisable o (.dict s.toDict) = true := by
  refine serialisable_dict rfl fun p hp => ?_
  simp only [RelationshipStateV1.toDict, List.mem_cons, List.not_mem_nil, or_false] at hp
  rcases hp with rfl | rfl | rfl | rfl | rfl | rfl
  · exact serialisable_one o
  · exact serialisable_float o _
  · exact serialisable_float o _
  · exact serialisable_float o _
  · exact serialisable_strs o _
  · exact serialisable_float o _

theorem hasForbidden_strs (forbidden : List PyStr) : ∀ ts : List PyStr,
    hasForbiddenElems forbidden (ts.map .str) = false
  | [] => rfl
  | t :: ts => by rw [List.map_cons, hasForbiddenElems, hasForbidden_strs forbidden ts]; rfl

theorem hasForbidden_relationship (s : RelationshipStateV1) :
    hasForbidden snapshotForbiddenKeys (.dict s.toDict) = false := by
  have hkeys : ∀ f ∈ relationshipFields, PyKey.isOneOf snapshotForbiddenKeys (.str f) = false := by decide
  simp only [RelationshipStateV1.toDict, hasForbidden, hasForbiddenItems, hasForbidden_strs,
    RangedFloat.toVal, PosFloat.toVal, Bool.or_false, Bool.or_eq_false_iff]
  exact ⟨hkeys _ (by decide), hkeys _ (by decide), hkeys _ (by decide), hkeys _ (by decide), hkeys _ (by decide),
    hkeys _ (by decide)⟩

/-- What the validators of a snapshot return on a document that only its size can make unfit. -/
theorem validateSnapshot_eq {σ : Type} {code : ErrorCode} {fromDict : List (PyKey × PyVal) → Option σ}
    {kvs : List (PyKey × PyVal)} (hforbidden : hasForbidden snapshotForbiddenKeys (.dict kvs) = false)
    (hser : serialisable ⟨true, false⟩ (.dict kvs) = true) (hfrom : (fromDict kvs).isSome = true) :
    validateSnapshot code fromDict (.dict kvs) =
      if weighJson surrogateWeight (.dict kvs) = 0 then
        if jsonBytes (.dict kvs) ≤ maxSnapshotBytes then .ok kvs
        else .error (.validation code ("payload exceeds " ++ toString maxSnapshotBytes ++ " bytes"))
      else .error .unicodeEncode := by
  have hbytes : requireCanonicalBytes (.dict kvs) code maxSnapshotBytes =
      (encodeUtf8 (render [] (PyVal.dict kvs).canon) >>= fun _ =>
        require (jsonBytes (.dict kvs) ≤ maxSnapshotBytes)
          (.validation code ("payload exceeds " ++ toString maxSnapshotBytes ++ " bytes"))) := by
    rw [requireCanonicalBytes, dumpsCompact, if_pos hser, ← utf8Len_render_canon]
    rfl
  simp only [validateSnapshot, PyVal.items?, orRaise, hforbidden, hbytes, hfrom, Bool.not_false,
    require_true, ok_bind]
  by_cases hencodable : weighJson surrogateWeight (.dict kvs) = 0
  · rw [if_pos hencodable, encodeUtf8, (encodable_render_canon _).mpr hencodable]
    by_cases hsize : jsonBytes (.dict kvs) ≤ maxSnapshotBytes
    · rw [if_pos hsize, decide_eq_true hsize]
      rfl
    · rw [if_neg hsize, decide_eq_false hsize]
      rfl
  · have hnot : encodable (render [] (PyVal.dict kvs).canon) = false := by
      rw [← Bool.not_eq_true, encodable_render_canon]
      exact hencodable
    rw [if_neg hencodable, encodeUtf8, hnot]
    rfl

/-- Every emotional state passes the validator of its snapshots. -/
theorem validateEmotionalSnapshot_toDict (s : EmotionalStateV1) :
    validateEmotionalSnapshot (.dict s.toDict) = .ok s.toDict := by
  have hfrom : EmotionalStateV1.fromDict s.toDict = some s := by
    rw [← EmotionalStateV1.fromDict_canon s.isJson_toDict]
    exact s.fromDict_canon_toDict
  have hsize : jsonBytes (.dict s.toDict) ≤ maxSnapshotBytes := Nat.le_trans s.jsonBytes_toDict (by decide)
  rw [validateEmotionalSnapshot, validateSnapshot_eq rfl (serialisable_emotion _ s) (by rw [hfrom]; rfl),
    if_pos s.surrogates_toDict, if_pos hsize]

/-- A relationship passes if it can be encoded and is small enough. -/
theorem validateRelationshipSnapshot_toDict (s : RelationshipStateV1) :
    validateRelationshipSnapshot (.dict s.toDict) =
      if ∀ t ∈ s.triggers.items, encodable t = true then
        if triggerBytes s.triggers + numberBytes s + relationshipFrame ≤ maxSnapshotBytes then .ok s.toDict
        else .error (.validation .invalidRelationshipState
          ("payload exceeds " ++ toString maxSnapshotBytes ++ " bytes"))
      else .error .unicodeEncode := by
  have hfrom : RelationshipStateV1.fromDict s.toDict = some s := by
    rw [← RelationshipStateV1.fromDict_canon s.isJson_toDict]
    exact s.fromDict_canon_toDict
  rw [validateRelationshipSnapshot, validateSnapshot_eq (hasForbidden_relationship s)
    (serialisable_relationship _ s) (by rw [hfrom]; rfl), jsonBytes_relationship]
  simp only [RelationshipStateV1.surrogates_toDict]

theorem validateRelationshipSnapshot_iff (s : RelationshipStateV1) :
    validateRelationshipSnapshot (.dict s.toDict) = .ok s.toDict ↔ SnapshotFits s := by
  rw [validateRelationshipSnapshot_toDict]
  constructor
  · intro h
    split at h
    · rename_i hencodable
      split at h
      · rename_i hsize
        exact ⟨hencodable, hsize⟩
      · cases h
    · cases h
  · rintro ⟨hencodable, hsize⟩
    rw [if_pos hencodable, if_pos hsize]

/-! ## Stored snapshots -/

/-- A trigger is a text of the list that was validated, trimmed. -/
theorem validateTriggers_mem {raw : PyVal} {ts : Triggers} (h : validateTriggers raw = some ts) :
    ∃ xs, PyVal.elems? raw = some xs ∧ ∀ t ∈ ts.items, ∃ s, .str s ∈ xs ∧ t = strip s := by
  simp only [validateTriggers, Option.bind_eq_bind, Option.bind_eq_some_iff] at h
  obtain ⟨xs, hxs, h⟩ := h
  split at h
  · cases h
  obtain ⟨texts, htexts, h⟩ := Option.bind_eq_some_iff.mp h
  unfold Triggers.ofTexts at h
  split at h
  · cases h
    refine ⟨xs, hxs, fun t ht => ?_⟩
    obtain ⟨x, hx, hread⟩ := of_mem_mapM_some htexts t ((dedup_sublist texts).mem ht)
    cases x with
    | str s =>
        simp only [triggerText, Option.ite_none_right_eq_some, Option.some.injEq] at hread
        exact ⟨s, hx, hread.2.symm⟩
    | _ => cases hread
  · cases h

/-- A snapshot that can be encoded has triggers that can be. -/
theorem encodable_of_fromDict {kvs : List (PyKey × PyVal)} {s : RelationshipStateV1}
    (hencodable : weighJson surrogateWeight (.dict kvs) = 0)
    (hfrom : RelationshipStateV1.fromDict kvs = some s) : ∀ t ∈ s.triggers.items, encodable t = true := by
  unfold RelationshipStateV1.fromDict at hfrom
  split at hfrom
  · cases hfrom
  simp only [Option.bind_eq_bind, Option.bind_eq_some_iff] at hfrom
  obtain ⟨_, _, _, _, _, _, _, _, _, _, ts, ⟨raw, hraw, hts⟩, hs⟩ := hfrom
  cases hs
  obtain ⟨xs, hxs, hmem⟩ := validateTriggers_mem hts
  have hitems : weighItems surrogateWeight kvs = 0 := by
    rw [weighJson] at hencodable
    omega
  have hrawWeight := weighJson_dictGet_le (w := surrogateWeight) hraw
  have helems : weighElems surrogateWeight xs ≤ weighJson surrogateWeight raw := by
    cases raw with
    | list _ =>
        cases hxs
        rw [weighJson]
        omega
    | tuple _ =>
        cases hxs
        rw [weighJson]
        omega
    | _ => cases hxs
  intro t ht
  obtain ⟨text, htext, rfl⟩ := hmem t ht
  have helem : weighJson surrogateWeight (.str text) ≤ _ := weighJson_elem_le htext
  have hzero : weigh surrogateWeight (quote text) = 0 := by
    rw [weighJson] at helem
    omega
  exact encodable_strip ((surrogates_quote text).mp hzero)

theorem of_validateRelationshipSnapshot {kvs : List (PyKey × PyVal)}
    (h : validateRelationshipSnapshot (.dict kvs) = .ok kvs) : weighJson surrogateWeight (.dict kvs) = 0 := by
  simp only [validateRelationshipSnapshot, validateSnapshot, bind_eq_ok, require_eq_ok] at h
  obtain ⟨_, _, _, _, _, hbytes, _⟩ := h
  exact (requireCanonicalBytes_eq_ok.mp hbytes).2.1

/-- **Every emotional state can be stored, and a relationship exactly if its triggers can be encoded
and its snapshot fits.** So it is for what the transitions return: the triggers of a stored
relationship are encodable, and only the bytes are left to count. -/
theorem snapshots_storable_iff (dyn : Dynamics) :
    (∀ s : EmotionalStateV1, validateEmotionalSnapshot (.dict s.toDict) = .ok s.toDict) ∧
      (∀ s : RelationshipStateV1,
        validateRelationshipSnapshot (.dict s.toDict) = .ok s.toDict ↔ SnapshotFits s) ∧
      (∀ kvs s appraisal currentTime, validateEmotionalSnapshot (.dict kvs) = .ok kvs →
        EmotionalStateV1.fromDict kvs = some s →
        validateEmotionalSnapshot (.dict (dyn.emotion s appraisal currentTime).toDict) =
          .ok (dyn.emotion s appraisal currentTime).toDict) ∧
      ∀ kvs s appraisal currentTime next, validateRelationshipSnapshot (.dict kvs) = .ok kvs →
        RelationshipStateV1.fromDict kvs = some s →
        dyn.transitionRelationship s appraisal currentTime = some next →
        (validateRelationshipSnapshot (.dict next.toDict) = .ok next.toDict ↔
          triggerBytes s.triggers + numberBytes next + relationshipFrame ≤ maxSnapshotBytes) := by
  refine ⟨validateEmotionalSnapshot_toDict, validateRelationshipSnapshot_iff,
    fun _ s appraisal currentTime _ _ => validateEmotionalSnapshot_toDict _, ?_⟩
  intro kvs s appraisal currentTime next hstored hfrom hnext
  have htriggers := Dynamics.transitionRelationship_triggers hnext
  have hencodable := encodable_of_fromDict (of_validateRelationshipSnapshot hstored) hfrom
  rw [validateRelationshipSnapshot_iff, ← htriggers]
  refine ⟨fun h => h.size, fun hsize => ⟨?_, hsize⟩⟩
  rw [htriggers]
  exact hencodable

/-! ## Sixteen triggers of emojis -/

/-- A relationship that is neutral but for its triggers. -/
def withTriggers (ts : Triggers) : RelationshipStateV1 :=
  { RelationshipStateV1.neutral sampleTime with triggers := ts }

/-- 127 emojis, and one that tells the triggers apart. -/
def emojiTrigger (i : Nat) : PyStr := List.replicate 127 (cp '😀') ++ [cp (Char.ofNat (0x1F601 + i))]

theorem emojiTriggers_ok : ((List.range 16).map emojiTrigger).Nodup ∧
    ∀ t ∈ (List.range 16).map emojiTrigger, strip t = t ∧ t ≠ [] ∧ t.length ≤ 128 := by
  constructor
  · -- what tells them apart is the last character
    have hlast : ((List.range 16).map fun i => cp (Char.ofNat (0x1F601 + i))).Nodup := by decide
    rw [List.nodup_map_iff_inj_on List.nodup_range] at hlast ⊢
    intro i hi j hj h
    exact hlast i hi j hj (List.singleton_injective (List.append_cancel_left h))
  · intro t ht
    obtain ⟨i, hi, rfl⟩ := List.mem_map.mp ht
    have hspace : ∀ i ∈ List.range 16, isSpace (cp (Char.ofNat (0x1F601 + i))) = false := by decide
    refine ⟨strip_of_no_space fun c hc => ?_, by simp [emojiTrigger], by simp [emojiTrigger]⟩
    rcases List.mem_append.mp hc with hc | hc
    · rw [List.eq_of_mem_replicate hc]
      decide
    · rw [List.mem_singleton.mp hc]
      exact hspace i hi

def emojiTriggers : Triggers where
  items := (List.range 16).map emojiTrigger
  count := by decide
  each := emojiTriggers_ok.2
  nodup := emojiTriggers_ok.1

/-- One trigger, a lone surrogate. -/
def surrogateTriggers : Triggers := ⟨[[0xD800]], by decide, by decide, by decide⟩

/-- **Two states of the domain that the store refuses**: sixteen triggers of 128 emojis take more than
8192 bytes, and a lone surrogate cannot be encoded. -/
theorem domain_states_refused :
    validateRelationshipSnapshot (.dict (withTriggers emojiTriggers).toDict) =
        .error (.validation .invalidRelationshipState
          ("payload exceeds " ++ toString maxSnapshotBytes ++ " bytes")) ∧
      validateRelationshipSnapshot (.dict (withTriggers surrogateTriggers).toDict) =
        .error .unicodeEncode := by
  constructor
  · have hencodable : ∀ t ∈ (withTriggers emojiTriggers).triggers.items, encodable t = true := by
      decide +kernel
    have hsize : maxSnapshotBytes < triggerBytes (withTriggers emojiTriggers).triggers := by decide +kernel
    have hle := Nat.le_add_right (triggerBytes (withTriggers emojiTriggers).triggers)
      (numberBytes (withTriggers emojiTriggers) + relationshipFrame)
    rw [← Nat.add_assoc] at hle
    have hlarge := Nat.not_le.mpr (Nat.lt_of_lt_of_le hsize hle)
    rw [validateRelationshipSnapshot_toDict, if_pos hencodable, if_neg hlarge]
  · have hsurrogate : ¬ ∀ t ∈ (withTriggers surrogateTriggers).triggers.items, encodable t = true := by
      decide +kernel
    rw [validateRelationshipSnapshot_toDict, if_neg hsurrogate]

end Katherine.Local
