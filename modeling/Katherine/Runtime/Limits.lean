import Katherine.Envelope
import Katherine.Local.Refusals
import Katherine.Local.Storable
import Katherine.Runtime.Snapshots

/-!
# Size limits along a turn

A turn is admitted if its message has at most `MAX_MESSAGE_LENGTH` characters. After that
its texts are counted twice more, in other units: `build_envelope` counts the bytes of the
escaped message and the policy, and `validate_replay_payload` the bytes of the escaped
response and the public emotion. A character takes up to six of these bytes, so the first
limit does not imply the others, and a turn that is refused by one of them has already
spent its provider calls.

Everything else that a commit checks is passed by what a turn builds. `sizes_agree_iff`
says so by stating exactly when a turn gets through.
-/

namespace Katherine.Runtime

open Py Sql Local Context

/-! ## A turn -/

/-- The states `_execute_reserved_turn` computes from what it loaded, the appraisal and the
time; `none` where a migration or a transition raises. -/
def nextStates (dyn : Dynamics) (state : LoadedUserState) (x : AppraisalV1 × PosFloat) :
    Option (EmotionalStateV1 × RelationshipStateV1) := do
  let emotional ← migrateLegacySnapshot state.emotionalState
  let relationship ← migrateLegacyRelationshipSnapshot state.relationshipState
  let newRelationship ← dyn.transitionRelationship relationship x.1 x.2
  return (dyn.emotion emotional x.1 x.2, newRelationship)

/-- What a turn has at its commit besides the new states. -/
structure Generated where
  response : PyStr
  /-- `_new_message_id()`, the text of a `uuid4`. -/
  messageId : PyStr
  uuid : canonicalUuid messageId = true
  /-- `max(0, int(…))`, of a double. -/
  durationMs : Nat
  finite : durationMs < 2 ^ 1024

def Generated.output (g : Generated) (emotional : EmotionalStateV1) (appraisal : AppraisalV1) :
    TurnOutput where
  response := g.response
  emotionState := projectPublicEmotion emotional appraisal
  json := isJson_projectPublicEmotion emotional appraisal
  messageId := g.messageId
  durationMs := g.durationMs

/-- A text that can be sent or answered. -/
structure TurnText (s : PyStr) : Prop where
  ne_nil : s ≠ []
  length : s.length ≤ maxMessageLength

/-! ## Bytes -/

/-- The bytes of a text inside a JSON document, without its quotes. -/
def escapedBytes (s : PyStr) : Nat := utf8Len (escape s)

theorem escapedBytes_cons (c : CodePoint) (s : PyStr) :
    escapedBytes (c :: s) = utf8Len (escapeChar c) + escapedBytes s := by
  rw [escapedBytes, ← List.singleton_append, utf8Len_escape_append]
  simp [escapedBytes, escape]

theorem escapedBytes_replicate (n : Nat) (c : CodePoint) :
    escapedBytes (List.replicate n c) = n * utf8Len (escapeChar c) := by
  induction n with
  | zero => simp [escapedBytes, escape, utf8Len]
  | succ n ih => rw [List.replicate_succ, escapedBytes_cons, ih, Nat.succ_mul, Nat.add_comm]

/-- An identifier is written as it is. -/
theorem escapedBytes_ident : ∀ {s : PyStr}, s.all isIdentChar = true → escapedBytes s = s.length
  | [], _ => rfl
  | c :: s, h => by
      rw [List.all_cons, Bool.and_eq_true] at h
      have hplain : escapeChar c = [c] ∧ utf8Size c = 1 := by
        have hc := h.1
        simp only [isIdentChar, isDigit, Bool.or_eq_true, Bool.and_eq_true, decide_eq_true_eq,
          List.mem_cons, List.not_mem_nil, or_false] at hc
        have hrange : (45 ≤ c.val ∧ c.val < 92) ∨ (92 < c.val ∧ c.val < 128) := by
          rcases hc with ((hc | hc) | hc) | (rfl | rfl | rfl | rfl)
          · omega
          · omega
          · omega
          all_goals decide
        have hquote : c ≠ cp '"' := by
          rintro rfl
          exact absurd hrange (by decide)
        have hslash : c ≠ cp '\\' := by
          rintro rfl
          exact absurd hrange (by decide)
        constructor
        · rw [escapeChar, if_neg hquote, if_neg hslash, if_neg (by omega), if_neg (by omega),
            if_neg (by omega), if_neg (by omega), if_neg (by omega), if_neg (by omega)]
        · rw [utf8Size, if_pos (by omega)]
      rw [escapedBytes_cons, hplain.1, escapedBytes_ident h.2, List.length_cons, utf8Len, List.map_cons,
        hplain.2]
      simp [Nat.add_comm]

theorem encodable_ident {s : PyStr} (h : s.all isIdentChar = true) : encodable s = true := by
  refine List.all_eq_true.mpr fun c hc => ?_
  have hident := List.all_eq_true.mp h c hc
  simp only [isIdentChar, isDigit, Bool.or_eq_true, Bool.and_eq_true, decide_eq_true_eq,
    List.mem_cons, List.not_mem_nil, or_false] at hident
  have hlow : c.val < 128 := by
    rcases hident with ((hc | hc) | hc) | (rfl | rfl | rfl | rfl)
    · omega
    · omega
    · omega
    all_goals decide
  rw [isSurrogate]
  simp only [Bool.not_eq_true', Bool.and_eq_false_iff, decide_eq_false_iff_not]
  omega

/-- A `uuid4` is a bounded identifier of 36 characters. -/
theorem canonicalUuid_ident {s : PyStr} (h : canonicalUuid s = true) :
    s.length = 36 ∧ s.all isIdentChar = true := by
  simp only [canonicalUuid, Bool.and_eq_true, decide_eq_true_eq, List.all_eq_true] at h
  refine ⟨h.1, List.all_eq_true.mpr fun c hc => ?_⟩
  obtain ⟨i, hi, rfl⟩ := List.getElem_of_mem hc
  have hmem : (s[i], i) ∈ s.zipIdx := by
    rw [List.mem_zipIdx_iff_getElem?]
    exact List.getElem?_eq_getElem hi
  have hchar := h.2 _ hmem
  simp only at hchar
  split at hchar
  · rw [of_decide_eq_true hchar]
    decide
  · simp only [isLowerHex, Bool.or_eq_true, Bool.and_eq_true, decide_eq_true_eq] at hchar
    rcases hchar with hdigit | ⟨hlo, hhi⟩
    · simp [isIdentChar, hdigit]
    · have hhi' : (s[i]).val ≤ 122 := by omega
      simp [isIdentChar, hlo, hhi']

theorem jsonBytes_nat (n : Nat) : jsonBytes (.int n) = (natText n).length := by
  have htext : intText n = natText n := by simp [intText]
  rw [jsonBytes, weighJson, htext]
  refine utf8Len_ascii fun c hc => ?_
  have hdigit := natText_all_digit n c hc
  simp only [isDigit, Bool.and_eq_true, decide_eq_true_eq] at hdigit
  omega

/-! ## The replay payload -/

/-- What a replay payload takes besides the response, the public emotion and the duration: keys,
quotes, marks and the message id. -/
def replayFrame : Nat := 99

theorem jsonBytes_replayPayload (g : Generated) (s : EmotionalStateV1) (a : AppraisalV1) :
    jsonBytes (.dict (g.output s a).replayPayload) = escapedBytes g.response +
      jsonBytes (.dict (projectPublicEmotion s a)) + (natText g.durationMs).length + replayFrame := by
  have hmarks : utf8Size (cp '{') = 1 ∧ utf8Size (cp '}') = 1 ∧ utf8Size (cp ':') = 1 ∧
      utf8Size (cp ',') = 1 := by decide
  have hkeys : utf8Len (escape (py "response")) = 8 ∧ utf8Len (escape (py "emotion_state")) = 13 ∧
      utf8Len (escape (py "message_id")) = 10 ∧ utf8Len (escape (py "duration_ms")) = 11 := by decide
  have hid : utf8Len (escape g.messageId) = 36 := by
    obtain ⟨hlength, hident⟩ := canonicalUuid_ident g.uuid
    rw [← hlength]
    exact escapedBytes_ident hident
  have hpayload : ∀ v u : PyVal, jsonBytes (.dict [(.str (py "response"), .str g.response),
      (.str (py "emotion_state"), v), (.str (py "message_id"), .str g.messageId),
      (.str (py "duration_ms"), u)]) = escapedBytes g.response + jsonBytes v + jsonBytes u + 99 := by
    intro v u
    simp only [jsonBytes, weighJson, weighItems, keyText, utf8Len_quote, hmarks, hkeys, hid,
      List.length_cons, List.length_nil, escapedBytes]
    omega
  rw [← jsonBytes_nat]
  exact hpayload _ _

/-- The literals of the source have no lone surrogates. -/
theorem surrogates_text (t : String) : weigh surrogateWeight (quote (py t)) = 0 :=
  (surrogates_quote _).mpr (encodable_py t)

theorem surrogates_projectPublicEmotion (s : EmotionalStateV1) (a : AppraisalV1) :
    weighJson surrogateWeight (.dict (projectPublicEmotion s a)) = 0 := by
  have hmarks : surrogateWeight (cp '{') = 0 ∧ surrogateWeight (cp '}') = 0 ∧
      surrogateWeight (cp ':') = 0 ∧ surrogateWeight (cp ',') = 0 ∧ surrogateWeight (cp '[') = 0 ∧
      surrogateWeight (cp ']') = 0 := by decide
  have hlabel : weigh surrogateWeight (quote (getEmotionalLabel s)) = 0 :=
    (surrogates_quote _).mpr (encodable_classifyPadMood _ _ _)
  have hname : ∀ e : DiscreteEmotion, weigh surrogateWeight (quote e.name) = 0 := by
    intro e
    cases e <;> exact surrogates_text _
  have hfloat : ∀ f : FiniteFloat, weigh surrogateWeight (floatText (.fin f)) = 0 := surrogates_float
  have hemotion : ∀ e : DiscreteEmotion × Unipolar, weighJson surrogateWeight (emotionDoc e) = 0 := by
    intro e
    simp only [emotionDoc, weighJson, weighItems, keyText, surrogates_text, hname, hmarks, RangedFloat.toVal,
      hfloat, Nat.mul_zero, Nat.add_zero]
  have hemotions : ∀ es : List (DiscreteEmotion × Unipolar),
      weighElems surrogateWeight (es.map emotionDoc) = 0 := by
    intro es
    induction es with
    | nil => rfl
    | cons e es ih => rw [List.map_cons, weighElems, hemotion, ih]
  have hone : weigh surrogateWeight (intText 1) = 0 := by decide
  simp only [projectPublicEmotion, weighJson, weighItems, keyText, surrogates_text, hlabel, hemotions, hmarks,
    hone, hfloat, RangedFloat.toVal, PosFloat.toVal, Nat.mul_zero, Nat.add_zero]

/-- Where every key and value can be encoded, the dictionary can. -/
theorem surrogates_dict {kvs : List (PyKey × PyVal)}
    (h : ∀ p ∈ kvs, weigh surrogateWeight (quote (keyText p.1)) = 0 ∧ weighJson surrogateWeight p.2 = 0) :
    weighJson surrogateWeight (.dict kvs) = 0 := by
  have hmarks : surrogateWeight (cp '{') = 0 ∧ surrogateWeight (cp '}') = 0 ∧
      surrogateWeight (cp ':') = 0 ∧ surrogateWeight (cp ',') = 0 := by decide
  have hitems : weighItems surrogateWeight kvs ≤ kvs.length * (0 + surrogateWeight (cp ':') + 0) :=
    weighItems_le fun p hp => ⟨(h p hp).1.le, (h p hp).2.le⟩
  simp only [hmarks, Nat.add_zero, Nat.mul_zero, Nat.le_zero] at hitems
  simp only [weighJson, hitems, hmarks, Nat.mul_zero, Nat.add_zero]

theorem surrogates_nat (n : Nat) : weighJson surrogateWeight (.int n) = 0 := by
  have hint : intText n = natText n := by simp [intText]
  rw [weighJson, hint, ← encodable_iff_weigh]
  exact natText_encodable _

theorem surrogates_replayPayload (g : Generated) (s : EmotionalStateV1) (a : AppraisalV1) :
    weighJson surrogateWeight (.dict (g.output s a).replayPayload) = 0 ↔ encodable g.response = true := by
  have hmarks : surrogateWeight (cp '{') = 0 ∧ surrogateWeight (cp '}') = 0 ∧
      surrogateWeight (cp ':') = 0 ∧ surrogateWeight (cp ',') = 0 := by decide
  have hid : weigh surrogateWeight (quote g.messageId) = 0 :=
    (surrogates_quote _).mpr (encodable_ident (canonicalUuid_ident g.uuid).2)
  have hnat := surrogates_nat g.durationMs
  have hpayload : ∀ v u : PyVal, weighJson surrogateWeight v = 0 → weighJson surrogateWeight u = 0 →
      weighJson surrogateWeight (.dict [(.str (py "response"), .str g.response),
        (.str (py "emotion_state"), v), (.str (py "message_id"), .str g.messageId),
        (.str (py "duration_ms"), u)]) = weigh surrogateWeight (quote g.response) := by
    intro v u hv hu
    simp only [weighJson, weighItems, keyText, surrogates_text, hid, hv, hu, hmarks, Nat.mul_zero, Nat.add_zero,
      Nat.zero_add]
  rw [← surrogates_quote, ← hpayload _ _ (surrogates_projectPublicEmotion s a) hnat]
  rfl

/-- What holds of its values and of its keys holds everywhere in a public emotion. -/
theorem everywhere_projectPublicEmotion {leaf : PyVal → Bool} {keys : List PyKey → Bool}
    (hstr : ∀ t, leaf (.str t) = true) (hfloat : ∀ f, leaf (.float (.fin f)) = true)
    (hone : leaf (.int 1) = true)
    (hemotion : keys [.str (py "name"), .str (py "intensity")] = true)
    (hpad : keys [.str (py "pleasure"), .str (py "arousal"), .str (py "dominance")] = true)
    (hpublic : keys [.str (py "schema_version"), .str (py "mood_label"), .str (py "pad"),
      .str (py "dominant_emotions"), .str (py "timestamp")] = true)
    (s : EmotionalStateV1) (a : AppraisalV1) :
    everywhere leaf keys (.dict (projectPublicEmotion s a)) = true := by
  have hdocs : ∀ es : List (DiscreteEmotion × Unipolar),
      everywhereElems leaf keys (es.map emotionDoc) = true := by
    intro es
    induction es with
    | nil => rfl
    | cons e es ih =>
        rw [List.map_cons, everywhereElems, ih]
        simp [emotionDoc, everywhere, everywhereItems, hstr, hfloat, hemotion, RangedFloat.toVal]
  simp [projectPublicEmotion, everywhere, everywhereItems, hstr, hfloat, hone, hpad, hpublic, hdocs,
    RangedFloat.toVal, PosFloat.toVal]

theorem everywhere_replayPayload {leaf : PyVal → Bool} {keys : List PyKey → Bool} {g : Generated}
    {s : EmotionalStateV1} {a : AppraisalV1} (hstr : ∀ t, leaf (.str t) = true)
    (hnat : leaf (.int g.durationMs) = true)
    (hkeys : keys [.str (py "response"), .str (py "emotion_state"), .str (py "message_id"),
      .str (py "duration_ms")] = true)
    (hemotion : everywhere leaf keys (.dict (projectPublicEmotion s a)) = true) :
    everywhere leaf keys (.dict (g.output s a).replayPayload) = true := by
  have hpayload : ∀ v : PyVal, everywhere leaf keys v = true → everywhere leaf keys
      (.dict [(.str (py "response"), .str g.response), (.str (py "emotion_state"), v),
        (.str (py "message_id"), .str g.messageId), (.str (py "duration_ms"), .int g.durationMs)])
      = true := by
    intro v hv
    simp [everywhere, everywhereItems, hstr, hnat, hkeys, hv]
  exact hpayload _ hemotion

theorem duration_lt_intTextLimit (g : Generated) : g.durationMs < intTextLimit := by
  have h1 : ∀ n, 2 ^ n ≤ 10 ^ n := fun n => Nat.pow_le_pow_left (by decide) n
  have h2 : ∀ n, n < maxStrDigits → 10 ^ n < 10 ^ maxStrDigits :=
    fun n hn => Nat.pow_lt_pow_right (by decide) hn
  unfold intTextLimit
  exact Nat.lt_trans (Nat.lt_of_lt_of_le g.finite (h1 1024)) (h2 1024 (by decide))

theorem serialisable_replayPayload (o : DumpOpts) (g : Generated) (s : EmotionalStateV1)
    (a : AppraisalV1) : serialisable o (.dict (g.output s a).replayPayload) = true := by
  have hone : writableLeaf o.allowNan (.int 1) = true :=
    decide_eq_true (Nat.lt_trans (by decide) lt_intTextLimit)
  have hnat : writableLeaf o.allowNan (.int g.durationMs) = true :=
    decide_eq_true (duration_lt_intTextLimit g)
  have hfloat : ∀ f, writableLeaf o.allowNan (.float (.fin f)) = true := by
    intro f
    simp [writableLeaf, PyFloat.isFinite]
  exact serialisable_iff.mpr (everywhere_replayPayload (fun _ => rfl) hnat (writableKeys_str rfl)
    (everywhere_projectPublicEmotion (fun _ => rfl) hfloat hone (writableKeys_str rfl)
      (writableKeys_str rfl) (writableKeys_str rfl) s a))

/-- **The replay payload of a turn obeys its contract exactly if it is small enough**, and its
response can be encoded. -/
theorem replayContract_iff (g : Generated) (s : EmotionalStateV1) (a : AppraisalV1) :
    ReplayContract true (g.output s a).replayPayload ↔ encodable g.response = true ∧
      escapedBytes g.response + jsonBytes (.dict (projectPublicEmotion s a))
        + (natText g.durationMs).length + replayFrame ≤ maxReplayPayloadBytes := by
  rw [← jsonBytes_replayPayload, ← surrogates_replayPayload g s a]
  constructor
  · exact fun h => ⟨h.encodable, h.size⟩
  · rintro ⟨hencodable, hsize⟩
    obtain ⟨hlength, hident⟩ := canonicalUuid_ident g.uuid
    refine ⟨?_, ?_, ⟨_, rfl⟩, ?_, rfl, serialisable_replayPayload _ g s a, hencodable, hsize⟩
    · exact hasForbidden_iff.mpr (everywhere_replayPayload (fun _ => rfl) rfl (by decide)
        (everywhere_projectPublicEmotion (fun _ => rfl) (fun _ => rfl) rfl (by decide) (by decide)
          (by decide) s a))
    · intro p hp
      simp only [TurnOutput.replayPayload, List.mem_cons, List.not_mem_nil, or_false] at hp
      rcases hp with rfl | rfl | rfl | rfl <;> rfl
    · change isBoundedIdent g.messageId = true
      have hne : g.messageId ≠ [] := by
        intro hnil
        rw [hnil] at hlength
        cases hlength
      simp [isBoundedIdent, hident, hlength, hne]

/-! ## The arguments of the commit -/

/-- What `commit_turn` makes of the arguments of a turn. -/
def turnInput (t : Turn) (state : LoadedUserState) (new : EmotionalStateV1 × RelationshipStateV1)
    (message : PyStr) (out : TurnOutput) : CommitInput where
  requestId := t.requestId
  historyGeneration := t.generation
  userMessage := message
  assistantMessage := out.response
  emotionalState := new.1.toDict
  relationshipState := new.2.toDict
  publicResponse := out.response
  replayPayload := out.replayPayload
  outboxEvents := []
  expectedRevision := some state.revision

/-- The same arguments, as `commit_turn` gets them. -/
def commitArgs (t : Turn) (state : LoadedUserState) (new : EmotionalStateV1 × RelationshipStateV1)
    (message : PyStr) (out : TurnOutput) : CommitArgs :=
  { turnArgs state new message out with
    requestId := .str t.requestId
    historyGeneration := .int t.generation }

theorem commitCall_turnArgs (t : Turn) (state : LoadedUserState)
    (new : EmotionalStateV1 × RelationshipStateV1) (message : PyStr) (out : TurnOutput) :
    t.commitCall (turnArgs state new message out) = .commitTurn (commitArgs t state new message out) :=
  rfl

theorem nat?_ofNat (n : Nat) : PyVal.nat? (.int n) = some n := by
  simp [PyVal.nat?]

theorem validateMessage_turnText {s : PyStr} (h : TurnText s) (field : String) :
    validateMessage (.str s) field = .ok s := by
  have hne : (!s.isEmpty) = true := by simpa using h.ne_nil
  have hfilter : (PyVal.str? (.str s)).filter (!·.isEmpty) = some s := by
    rw [PyVal.str?, Option.filter_some, if_pos hne]
  simp only [validateMessage, hfilter, orRaise, decide_eq_true h.length, require_true, ok_bind]
  rfl

theorem encodable_requestId {s : PyStr} (h : validateRequestId (.str s) = .ok s) : encodable s = true := by
  simp only [validateRequestId, bind_eq_ok, orRaise_eq_ok, require_eq_ok] at h
  obtain ⟨_, _, _, _, _, hident, h⟩ := h
  cases h
  exact encodable_ident hident

section Accept

variable {t : Turn} {state : LoadedUserState} {new : EmotionalStateV1 × RelationshipStateV1}
  {message : PyStr} {g : Generated} {a : AppraisalV1}
  (hid : validateRequestId (.str t.requestId) = .ok t.requestId) (hmessage : TurnText message)
  (hresponse : TurnText g.response) (htriggers : new.2.triggers.items = [])

include hid hmessage hresponse htriggers

/-- **Of the checks of the commit only the one of the replay payload can fail.** -/
theorem accepted_turn (hcontract : ReplayContract true (g.output new.1 a).replayPayload) :
    Accepted (commitArgs t state new message (g.output new.1 a))
      (turnInput t state new message (g.output new.1 a)) where
  requestId := hid
  historyGeneration := by
    change orRaise (PyVal.nat? (.int t.generation)) _ = _
    rw [nat?_ofNat]
    rfl
  userMessage := validateMessage_turnText hmessage _
  assistantMessage := validateMessage_turnText hresponse _
  publicResponse := by
    have hne : (!g.response.isEmpty) = true := by simpa using hresponse.ne_nil
    change (some g.response).filter (!·.isEmpty) = some g.response
    rw [Option.filter_some, if_pos hne]
  responseLength := hresponse.length
  replayPayload := validateReplayPayload_eq_ok.mpr ⟨rfl, hcontract⟩
  response := rfl
  names := rfl
  emotionalState := validateEmotionalSnapshot_toDict new.1
  relationshipState := (validateRelationshipSnapshot_iff _).mpr (snapshotFits_of_plain (by rw [htriggers]; simp))
  outboxEvents := rfl
  expectedRevision := by
    change (orRaise (PyVal.nat? (.int state.revision)) _ >>= fun n => pure (some n)) = _
    rw [nat?_ofNat]
    rfl

/-- Its canonical payload can be written and encoded. -/
theorem commitInput_turn (sha256 : PyStr → PyStr)
    (hcontract : ReplayContract true (g.output new.1 a).replayPayload)
    (hencodable : encodable message = true) (hrevision : state.revision < 2 ^ 63) :
    ∃ hash, commitInput sha256 (commitArgs t state new message (g.output new.1 a)) =
      .ok (turnInput t state new message (g.output new.1 a), hash) := by
  have haccepted : Accepted (commitArgs t state new message (g.output new.1 a))
      (turnInput t state new message (g.output new.1 a)) :=
    accepted_turn hid hmessage hresponse htriggers hcontract
  have hser : serialisable ⟨true, false⟩
      (buildCanonicalCommitPayload (turnInput t state new message (g.output new.1 a))) = true := by
    refine serialisable_dict rfl fun p hp => ?_
    simp only [List.mem_cons, List.not_mem_nil, or_false] at hp
    rcases hp with rfl | rfl | rfl | rfl | rfl | rfl | rfl | rfl | rfl
    · rfl
    · exact (serialisable_nat _).mpr (Nat.lt_trans hrevision lt_intTextLimit)
    · rfl
    · rfl
    · exact serialisable_emotion _ _
    · exact serialisable_relationship _ _
    · rfl
    · exact hcontract.serialisable
    · rfl
  have hsurrogates : weighJson surrogateWeight
      (buildCanonicalCommitPayload (turnInput t state new message (g.output new.1 a))) = 0 := by
    have hquote : ∀ {s : PyStr}, encodable s = true → weighJson surrogateWeight (.str s) = 0 :=
      fun h => (surrogates_quote _).mpr h
    have hident : encodable t.requestId = true := encodable_requestId hid
    refine surrogates_dict fun p hp => ?_
    simp only [List.mem_cons, List.not_mem_nil, or_false] at hp
    rcases hp with rfl | rfl | rfl | rfl | rfl | rfl | rfl | rfl | rfl
    · exact ⟨surrogates_text _, hquote hident⟩
    · exact ⟨surrogates_text _, surrogates_nat _⟩
    · exact ⟨surrogates_text _, hquote hencodable⟩
    · exact ⟨surrogates_text _, hquote ((surrogates_replayPayload g new.1 a).mp hcontract.encodable)⟩
    · exact ⟨surrogates_text _, EmotionalStateV1.surrogates_toDict _⟩
    · exact ⟨surrogates_text _, (RelationshipStateV1.surrogates_toDict _).mpr (by rw [htriggers]; simp)⟩
    · exact ⟨surrogates_text _, hquote ((surrogates_replayPayload g new.1 a).mp hcontract.encodable)⟩
    · exact ⟨surrogates_text _, hcontract.encodable⟩
    · exact ⟨surrogates_text _, show weighJson surrogateWeight (.list []) = 0 by decide⟩
  have htext : canonicalJson (buildCanonicalCommitPayload (turnInput t state new message (g.output new.1 a)))
      = .ok _ := orRaise_eq_ok.mpr (if_pos hser)
  have hencode : encodeUtf8 (render [] (buildCanonicalCommitPayload
      (turnInput t state new message (g.output new.1 a))).canon) = .ok () :=
    require_eq_ok.mpr ((encodable_render_canon _).mpr hsurrogates)
  obtain ⟨hash, hhash⟩ : ∃ hash, canonicalPayloadHash sha256 (buildCanonicalCommitPayload
      (turnInput t state new message (g.output new.1 a))) = .ok hash := by
    rw [canonicalPayloadHash, htext, ok_bind, hencode, ok_bind]
    exact ⟨_, rfl⟩
  exact ⟨hash, (commitInput_eq_ok sha256).mpr ⟨haccepted, hhash⟩⟩

end Accept

/-! ## What holds of every turn -/

/-- The relationship stored in this text has no triggers: no turn adds one. -/
def Untriggered (text : PyStr) : Prop :=
  ∀ doc r, decodeDoc text = .ok doc → migrateLegacyRelationshipSnapshot doc = some r →
    r.triggers.items = []

theorem untriggered_neutral {t : PosFloat} {text : PyStr}
    (h : jsonDumps (.dict (RelationshipStateV1.neutral t).toDict) = .ok text) : Untriggered text := by
  intro doc r hdoc hr
  rw [decodeDoc_jsonDumps (RelationshipStateV1.isJson_toDict _) h] at hdoc
  cases hdoc
  rw [migrateLegacyRelationshipSnapshot_of_fromDict (RelationshipStateV1.fromDict_canon_toDict _)] at hr
  cases hr
  rfl

/-- The transition keeps the triggers of what was loaded. -/
theorem nextStates_triggers {dyn : Dynamics} {state : LoadedUserState} {x : AppraisalV1 × PosFloat}
    {new : EmotionalStateV1 × RelationshipStateV1} (h : nextStates dyn state x = some new) :
    ∃ r, migrateLegacyRelationshipSnapshot state.relationshipState = some r ∧
      new.2.triggers = r.triggers := by
  unfold nextStates at h
  obtain ⟨_, _, h⟩ := Option.bind_eq_some_iff.mp h
  obtain ⟨r, hr, h⟩ := Option.bind_eq_some_iff.mp h
  obtain ⟨r', hr', h⟩ := Option.bind_eq_some_iff.mp h
  cases h
  exact ⟨r, hr, Dynamics.transitionRelationship_triggers hr'⟩

/-- No trigger can be migrated from what a turn loaded. -/
def NoTriggers (state : LoadedUserState) : Prop :=
  ∀ r, migrateLegacyRelationshipSnapshot state.relationshipState = some r → r.triggers.items = []

theorem noTriggers_of_loads {profile : Option Profile} {state : LoadedUserState}
    (h : ∀ p, profile = some p → Untriggered p.relationshipState) (hloads : Loads state profile) :
    NoTriggers state := by
  intro r hr
  cases profile with
  | none =>
      obtain ⟨_, t, _, hrelationship⟩ := hloads
      rw [hrelationship,
        migrateLegacyRelationshipSnapshot_of_fromDict (fromDict_neutralRelationship t)] at hr
      cases hr
      rfl
  | some p => exact h p rfl _ r hloads.2.2 hr

/-- **No snapshot of the chain has triggers**: the first is neutral, a transition keeps those of
the one before, and a reset starts again. -/
theorem chain_untriggered {dyn : Dynamics} {profile : Option Profile}
    (h : Chain (nextStates dyn) profile) : ∀ p, profile = some p → Untriggered p.relationshipState := by
  induction h with
  | absent =>
      intro p hp
      cases hp
  | turn _ hloads _ hnext hstores ih =>
      intro p hp doc r hdoc hr
      cases hp
      obtain ⟨doc', hdoc', hnew⟩ := hstores.relationship
      rw [hdoc] at hdoc'
      cases hdoc'
      rw [migrateLegacyRelationshipSnapshot_of_fromDict hnew] at hr
      cases hr
      obtain ⟨old, hold, hkept⟩ := nextStates_triggers hnext
      rw [hkept]
      exact noTriggers_of_loads ih hloads old hold
  | @reset old field text otherText now later t t' n _ htext hother _ ih =>
      intro p hp
      cases hp
      cases old with
      | none =>
          cases field with
          | emotionalState => exact untriggered_neutral hother
          | relationshipState => exact untriggered_neutral htext
      | some q =>
          cases field with
          | emotionalState => exact ih q rfl
          | relationshipState => exact untriggered_neutral htext

/-- What the turns of a world have in common. -/
structure TurnsInv (w : World) : Prop where
  requestId : ∀ t ∈ w.turns, validateRequestId (.str t.requestId) = .ok t.requestId
  revision : w.store.db.revision < 2 ^ 63
  loaded : ∀ t ∈ w.turns, ∀ state, t.phase = .loaded state →
    state.revision < 2 ^ 63 ∧ NoTriggers state

theorem turnsInv_init : TurnsInv .init where
  requestId := by simp [World.init]
  revision := by decide
  loaded := by simp [World.init]

/-- A turn after a step has the id of one before, or was just admitted. -/
theorem Step.requestId {sha256 : PyStr → PyStr} {w w' : World} {a : Action} (h : Step sha256 w a w')
    {t : Turn} (ht : t ∈ w'.turns) : (∃ t₀ ∈ w.turns, t₀.requestId = t.requestId) ∨
      validateRequestId (.str t.requestId) = .ok t.requestId := by
  have hmove : ∀ {i : Nat} {u : Turn} {phase : Phase}, w.turns[i]? = some u →
      t ∈ w.turns.set i (u.to phase) → ∃ t₀ ∈ w.turns, t₀.requestId = t.requestId := by
    intro i u phase hu hmem
    rcases List.mem_or_eq_of_mem_set hmem with hmem | rfl
    · exact ⟨t, hmem, rfl⟩
    · exact ⟨u, List.mem_of_getElem? hu, rfl⟩
  cases h with
  | reserve hid _ =>
      rcases List.mem_append.mp ht with ht | ht
      · exact .inl ⟨t, ht, rfl⟩
      · obtain rfl := List.mem_singleton.mp ht
        rw [validateRequestId_str hid] at hid
        exact .inr hid
  | load hi _ _ => exact .inl (hmove hi ht)
  | commit hi _ _ _ => exact .inl (hmove hi ht)
  | commitClosed hi _ _ => exact .inl (hmove hi ht)
  | fail hi _ => exact .inl (hmove hi ht)
  | release hi _ _ _ => exact .inl (hmove hi ht)
  | releaseClosed hi _ _ => exact .inl (hmove hi ht)
  | _ => exact .inl ⟨t, ht, rfl⟩

theorem Step.revision_lt {sha256 : PyStr → PyStr} {w w' : World} {a : Action}
    (h : Step sha256 w a w') (hw : w.store.db.revision < 2 ^ 63) : w'.store.db.revision < 2 ^ 63 := by
  rcases h.store with hs | ⟨e, hb, ha⟩
  · rw [hs]
    exact hw
  · rw [← hb] at hw
    rw [← ha]
    exact exec_revision_lt e.executed hw

theorem turnsInv_step {dyn : Dynamics} {sha256 : PyStr → PyStr} {w w' : World} {a : Action}
    (hstep : Step sha256 w a w') (hw : w.Reachable sha256)
    (hchain : Chain (nextStates dyn) w.store.db.profile) (h : TurnsInv w) : TurnsInv w' where
  requestId := by
    intro t ht
    rcases hstep.requestId ht with ⟨t₀, ht₀, hid⟩ | hid
    · rw [← hid]
      exact h.requestId t₀ ht₀
    · exact hid
  revision := hstep.revision_lt h.revision
  loaded := by
    intro t ht state hphase
    rcases hstep.loaded ht hphase with ⟨t₀, ht₀, hphase₀⟩ | ⟨_, env, hload⟩
    · exact h.loaded t₀ ht₀ state hphase₀
    · obtain ⟨es, hrun⟩ := hw.store
      have hloads := loads_of_loadUserState hload
      rw [(hrun.shows rfl env.thread).profile] at hloads
      refine ⟨?_, noTriggers_of_loads (chain_untriggered hchain) hloads⟩
      rw [hloads.revision]
      exact h.revision

theorem turnsInv_turnRun {dyn : Dynamics} {sha256 : PyStr → PyStr} {ids : List PyStr} {w : World}
    (h : TurnRun (nextStates dyn) sha256 ids w) : TurnsInv w := by
  induction h with
  | init => exact turnsInv_init
  | step hrun _ hstep ih => exact turnsInv_step hstep hrun.reachable (chain_turnRun hrun) ih
  | commit hrun _ _ _ _ hstep ih => exact turnsInv_step hstep hrun.reachable (chain_turnRun hrun) ih

/-! ## Both limits -/

/-- The two checks that count bytes let the turn through. -/
structure SizesFit (new : EmotionalStateV1 × RelationshipStateV1) (appraisal : AppraisalV1)
    (message : PyStr) (g : Generated) : Prop where
  envelope : utf8Len (escape (buildTrustedPolicy new.1 new.2 [])) + utf8Len (escape boundaryRule)
    + escapedBytes message + mandatoryFrame ≤ providerInputMaxEstimatedUnits
  encodable : encodable g.response = true
  replay : escapedBytes g.response + jsonBytes (.dict (projectPublicEmotion new.1 appraisal))
    + (natText g.durationMs).length + replayFrame ≤ maxReplayPayloadBytes

/-- What was admitted is not refused for its size: neither by `build_envelope`, nor by the commit,
which raises nothing but conflicts and the exceptions of the store. -/
structure SizesAgree (sha256 : PyStr → PyStr) (w : World) (t : Turn) (state : LoadedUserState)
    (new : EmotionalStateV1 × RelationshipStateV1) (message : PyStr) (out : TurnOutput)
    (bundle : ContextBundle (PyStr ×ₗ Nat)) : Prop where
  envelope : buildEnvelope bundle message providerInputMaxEstimatedUnits ≠
    .error (.trusted .mandatoryBudgetExceeded)
  commit : ∀ env, Raises Err.ofStore (exec sha256 env (t.commitCall (turnArgs state new message out))
    w.store).1

section Agree

variable {sha256 : PyStr → PyStr} {w : World} {t : Turn} {state : LoadedUserState}
  {new : EmotionalStateV1 × RelationshipStateV1} {message : PyStr} {g : Generated} {a : AppraisalV1}
  {loaded : LoadedContextData} {bundle : ContextBundle (PyStr ×ₗ Nat)}

/-- The envelope is refused exactly if the policy and the message do not fit. -/
theorem envelope_fits_iff (hmessage : TurnText message) (hencodable : encodable message = true)
    (hbundle : buildContextBundle (buildTrustedPolicy new.1 new.2 []) loaded = .ok bundle) :
    buildEnvelope bundle message providerInputMaxEstimatedUnits ≠
        .error (.trusted .mandatoryBudgetExceeded) ↔
      utf8Len (escape (buildTrustedPolicy new.1 new.2 [])) + utf8Len (escape boundaryRule)
        + escapedBytes message + mandatoryFrame ≤ providerInputMaxEstimatedUnits := by
  obtain ⟨hpolicy, hrefs⟩ := buildContextBundle_refs hbundle
  have hpolicyText : encodable bundle.trustedPolicy = true := by
    rw [hpolicy]
    exact encodable_buildTrustedPolicy _ _
  rw [ne_eq, buildEnvelope_mandatory_iff (by decide) hmessage.ne_nil hrefs hpolicyText hencodable, hpolicy,
    escapedBytes]
  omega

theorem sizesAgree_of_fit (hid : validateRequestId (.str t.requestId) = .ok t.requestId)
    (hrevision : state.revision < 2 ^ 63) (htriggers : new.2.triggers.items = [])
    (hmessage : TurnText message) (hencodable : encodable message = true)
    (hresponse : TurnText g.response)
    (hbundle : buildContextBundle (buildTrustedPolicy new.1 new.2 []) loaded = .ok bundle)
    (hfit : SizesFit new a message g) :
    SizesAgree sha256 w t state new message (g.output new.1 a) bundle where
  envelope := (envelope_fits_iff hmessage hencodable hbundle).mpr hfit.envelope
  commit := by
    intro env
    have hcontract := (replayContract_iff g new.1 a).mpr ⟨hfit.encodable, hfit.replay⟩
    obtain ⟨hash, hinput⟩ :=
      commitInput_turn hid hmessage hresponse htriggers sha256 hcontract hencodable hrevision
    rw [commitCall_turnArgs]
    exact commitTurn_raises hinput rfl

/-- A replay payload that breaks its contract is reported by the commit, whatever the store. -/
theorem commit_refuses_replay (env : Env)
    (h : ¬ ReplayContract true (g.output new.1 a).replayPayload) :
    ∃ e, (exec sha256 env (t.commitCall (turnArgs state new message (g.output new.1 a))) w.store).1 =
      .error e ∧ e.ofStore = false := by
  rw [commitCall_turnArgs]
  cases hinput : commitInput sha256 (commitArgs t state new message (g.output new.1 a)) with
  | error e =>
      exact ⟨e, commitTurn_refused hinput,
        Err.ofStore_of_arguments (raises_commitInput sha256 _ e hinput)⟩
  | ok input =>
      obtain ⟨c, hash⟩ := input
      have hacc := ((commitInput_eq_ok sha256).mp hinput).1
      obtain ⟨heq, hcontract⟩ := validateReplayPayload_eq_ok.mp hacc.replayPayload
      rw [← PyVal.dict.inj heq] at hcontract
      exact absurd hcontract h

theorem fit_of_sizesAgree (hmessage : TurnText message) (hencodable : encodable message = true)
    (hbundle : buildContextBundle (buildTrustedPolicy new.1 new.2 []) loaded = .ok bundle) (env : Env)
    (h : SizesAgree sha256 w t state new message (g.output new.1 a) bundle) :
    SizesFit new a message g := by
  have hcontract : ReplayContract true (g.output new.1 a).replayPayload := by
    by_contra hnot
    obtain ⟨e, he, hstore⟩ : ∃ e, (exec sha256 env
        (t.commitCall (turnArgs state new message (g.output new.1 a))) w.store).1 = .error e ∧
          e.ofStore = false := commit_refuses_replay env hnot
    rw [h.commit env e he] at hstore
    cases hstore
  obtain ⟨hresponse, hreplay⟩ := (replayContract_iff g new.1 a).mp hcontract
  exact ⟨(envelope_fits_iff hmessage hencodable hbundle).mp h.envelope, hresponse, hreplay⟩

end Agree

/-- **The size limits of a turn agree exactly if its texts fit twice more.** A message and a
response within `MAX_MESSAGE_LENGTH` are not refused later, in any interleaving of turns and other
operations, if and only if the policy and the escaped message fit the provider's budget and the
escaped response and the public emotion fit the replay payload. -/
theorem sizes_agree_iff {dyn : Dynamics} {sha256 : PyStr → PyStr} {ids : List PyStr} {w : World}
    (hrun : TurnRun (nextStates dyn) sha256 ids w) {t : Turn} (ht : t ∈ w.turns)
    {state : LoadedUserState} (hloaded : t.phase = .loaded state) {x : AppraisalV1 × PosFloat}
    {new : EmotionalStateV1 × RelationshipStateV1} (hnext : nextStates dyn state x = some new)
    {message : PyStr} (hmessage : TurnText message) (hencodable : encodable message = true)
    {g : Generated} (hresponse : TurnText g.response) {loaded : LoadedContextData}
    {bundle : ContextBundle (PyStr ×ₗ Nat)}
    (hbundle : buildContextBundle (buildTrustedPolicy new.1 new.2 []) loaded = .ok bundle) :
    SizesAgree sha256 w t state new message (g.output new.1 x.1) bundle ↔
      SizesFit new x.1 message g := by
  have hinv := turnsInv_turnRun hrun
  obtain ⟨hrevision, hnone⟩ := hinv.loaded t ht state hloaded
  have htriggers : new.2.triggers.items = [] := by
    obtain ⟨r, hr, hkept⟩ := nextStates_triggers hnext
    rw [hkept]
    exact hnone r hr
  exact ⟨fit_of_sizesAgree hmessage hencodable hbundle sampleEnv,
    sizesAgree_of_fit (hinv.requestId t ht) hrevision htriggers hmessage hencodable hresponse hbundle⟩

/-! ## The first turn again -/

/-- Transitions that only move the timestamp. -/
def steadyDynamics : Dynamics where
  emotion := fun s _ t => { s with timestamp := t }
  metrics := fun r _ => (r.trust, r.affection, r.tension)

theorem sampleWorld_turnRun {ι : Type}
    (next : LoadedUserState → ι → Option (EmotionalStateV1 × RelationshipStateV1)) :
    TurnRun next sampleSha256 [] sampleWorld := by
  have hreserve : Step sampleSha256 .init (.reserve (.str (py "r1")) (.str (py "oi"))) sampleAdmitted :=
    @Step.reserve sampleSha256 .init sampleEnv _ _ (py "r1") 0 none _ rfl rfl
  have hload : Step sampleSha256 sampleAdmitted (.load 0) sampleWorld :=
    @Step.load sampleSha256 sampleAdmitted sampleEnv 0 sampleTurn sampleState rfl rfl rfl
  exact .step (.step .init (by simp) hreserve) (by simp) hload

/-- The states the first turn computes: both are still neutral. -/
def sampleNew : EmotionalStateV1 × RelationshipStateV1 := (.neutral sampleTime, .neutral sampleTime)

theorem sampleNew_next :
    nextStates steadyDynamics sampleState (.neutral, sampleTime) = some sampleNew := by
  have hemotional : migrateLegacySnapshot sampleState.emotionalState = some (.neutral sampleTime) :=
    migrateLegacySnapshot_of_fromDict (fromDict_neutral sampleTime)
  have hrelationship :
      migrateLegacyRelationshipSnapshot sampleState.relationshipState = some (.neutral sampleTime) :=
    migrateLegacyRelationshipSnapshot_of_fromDict (fromDict_neutralRelationship sampleTime)
  simp only [nextStates, hemotional, hrelationship]
  rfl

/-- A context without history, memories, profile or persona. -/
def emptyContext : LoadedContextData := ⟨[], [], [], [], rfl, rfl⟩

theorem buildContextBundle_empty {policy : PyStr} (h : blank policy = false) :
    buildContextBundle policy emptyContext = .ok ⟨policy, [], [], [], [], {}, h⟩ := by
  have hbundle : buildContextBundle policy emptyContext =
      if h : blank policy = false then .ok ⟨policy, [], [], [], [], {}, h⟩
      else .error (.trusted .emptyTrustedPolicy) := rfl
  rw [hbundle, dif_pos h]

def sampleGenerated (response : PyStr) : Generated where
  response := response
  messageId := py "12345678-1234-4234-8234-123456789abc"
  uuid := by decide
  durationMs := 5
  finite := Nat.lt_trans (show 5 < 1024 by decide) Nat.lt_two_pow_self

theorem utf8Len_escape_policyRules : utf8Len (escape policyRules) < 2600 := by
  unfold policyRules
  repeat rewrite [py_ofList]
  decide +kernel

theorem utf8Len_escape_boundaryRule : utf8Len (escape boundaryRule) < 500 := by
  unfold boundaryRule
  repeat rewrite [py_ofList]
  decide +kernel

/-- Stripping takes something away, if anything. -/
theorem utf8Len_escape_strip_le (s : PyStr) : utf8Len (escape (strip s)) ≤ utf8Len (escape s) := by
  obtain ⟨before, hbefore⟩ := List.dropWhile_suffix isSpace (l := s)
  obtain ⟨behind, hbehind⟩ := List.rdropWhile_prefix isSpace (s.dropWhile isSpace)
  rw [← strip_eq_rdropWhile] at hbehind
  have hsum : utf8Len (escape s) = utf8Len (escape before) +
      (utf8Len (escape (strip s)) + utf8Len (escape behind)) := by
    rw [← utf8Len_escape_append, hbehind, ← utf8Len_escape_append, hbefore]
  omega

/-- What the checks count besides the two texts. -/
theorem sampleFrame :
    utf8Len (escape (buildTrustedPolicy sampleNew.1 sampleNew.2 [])) + utf8Len (escape boundaryRule) < 10000 ∧
      jsonBytes (.dict (projectPublicEmotion sampleNew.1 .neutral)) + (natText 5).length < 1000 := by
  refine ⟨?_, by decide +kernel⟩
  -- the rules are all but a few lines of the policy
  obtain ⟨lines, hlines, hsize⟩ : ∃ lines, policyText sampleNew.1 sampleNew.2 (py "Seja você mesma.") =
      lines ++ policyRules ∧ utf8Len (escape lines) < 1000 := ⟨_, rfl, by decide +kernel⟩
  have hpolicy : buildTrustedPolicy sampleNew.1 sampleNew.2 [] = strip (lines ++ policyRules) ++ boundaryRule := by
    rw [buildTrustedPolicy, if_pos rfl, hlines]
  have hstrip := utf8Len_escape_strip_le (lines ++ policyRules)
  have hrules := utf8Len_escape_policyRules
  have hboundary := utf8Len_escape_boundaryRule
  rw [utf8Len_escape_append] at hstrip
  rw [hpolicy, utf8Len_escape_append]
  omega

theorem sizes_agree_iff_first_turn :
    SizesFit sampleNew .neutral (py "oi") (sampleGenerated (py "ok")) ∧
      ∃ bundle, SizesAgree sampleSha256 sampleWorld (sampleTurn.to (.loaded sampleState)) sampleState sampleNew
        (py "oi") ((sampleGenerated (py "ok")).output sampleNew.1 .neutral) bundle := by
  obtain ⟨hpolicy, hemotion⟩ := sampleFrame
  have hmessage : escapedBytes (py "oi") = 2 := by decide
  have hresponse : escapedBytes (py "ok") = 2 := by decide
  have hfit : SizesFit sampleNew .neutral (py "oi") (sampleGenerated (py "ok")) := by
    refine ⟨?_, by decide, ?_⟩
    · rw [hmessage, mandatoryFrame, providerInputMaxEstimatedUnits]
      omega
    · change escapedBytes (py "ok") + _ + (natText 5).length + replayFrame ≤ maxReplayPayloadBytes
      rw [hresponse, replayFrame, maxReplayPayloadBytes]
      omega
  have hbundle := buildContextBundle_empty (buildTrustedPolicy_not_blank sampleNew.1 sampleNew.2 [])
  exact ⟨hfit, _, (sizes_agree_iff (sampleWorld_turnRun (nextStates steadyDynamics))
    (t := sampleTurn.to (.loaded sampleState)) (List.mem_cons_self) rfl sampleNew_next ⟨by decide, by decide⟩
    (by decide) ⟨by decide, by decide⟩ hbundle).mpr hfit⟩

/-- **A message and a response of 10000 characters can both be refused**: the message when the
envelope is built, the response when the turn is committed, after both provider calls. -/
theorem long_texts_refused :
    ∃ bundle : ContextBundle (PyStr ×ₗ Nat),
      buildContextBundle (buildTrustedPolicy sampleNew.1 sampleNew.2 []) emptyContext = .ok bundle ∧
      (TurnText (List.replicate 10000 (cp 'é')) ∧ encodable (List.replicate 10000 (cp 'é')) = true ∧
        buildEnvelope bundle (List.replicate 10000 (cp 'é')) providerInputMaxEstimatedUnits =
          .error (.trusted .mandatoryBudgetExceeded)) ∧
      (TurnText (List.replicate 10000 (cp 'a')) ∧ encodable (List.replicate 10000 (cp 'a')) = true ∧
        ∃ e, (exec sampleSha256 sampleEnv ((sampleTurn.to (.loaded sampleState)).commitCall
            (turnArgs sampleState sampleNew (py "oi")
              ((sampleGenerated (List.replicate 10000 (cp 'a'))).output sampleNew.1 .neutral)))
            sampleWorld.store).1 = .error e ∧ e.ofStore = false) := by
  have htext : ∀ c, TurnText (List.replicate 10000 c) := by
    intro c
    refine ⟨fun hnil => ?_, ?_⟩
    · have hlength := congrArg List.length hnil
      rw [List.length_replicate] at hlength
      cases hlength
    · rw [List.length_replicate]
      decide
  have hencodable : ∀ c, isSurrogate c = false → encodable (List.replicate 10000 c) = true := by
    intro c hc
    refine List.all_eq_true.mpr fun d hd => ?_
    rw [List.eq_of_mem_replicate hd, hc]
    rfl
  have hpolicy := buildTrustedPolicy_not_blank sampleNew.1 sampleNew.2 []
  have he : utf8Len (escapeChar (cp 'é')) = 2 := by decide
  have ha : utf8Len (escapeChar (cp 'a')) = 1 := by decide
  refine ⟨_, buildContextBundle_empty hpolicy, ⟨htext _, hencodable _ (by decide), ?_⟩,
    htext _, hencodable _ (by decide), ?_⟩
  · by_contra hne
    have hfit := (envelope_fits_iff (htext _) (hencodable _ (by decide))
      (buildContextBundle_empty hpolicy)).mp hne
    rw [escapedBytes_replicate, he, providerInputMaxEstimatedUnits] at hfit
    omega
  · refine commit_refuses_replay sampleEnv fun hcontract => ?_
    have hsize := ((replayContract_iff _ _ _).mp hcontract).2
    have hbytes : escapedBytes (sampleGenerated (List.replicate 10000 (cp 'a'))).response = 10000 := by
      change escapedBytes (List.replicate 10000 (cp 'a')) = 10000
      rw [escapedBytes_replicate, ha]
    rw [hbytes, maxReplayPayloadBytes] at hsize
    omega

end Katherine.Runtime
