import Katherine.Envelope.Truncate

/-!
# The archival extraction's prompt

`run_archival_extraction` of `backend/engine.py`, up to the call of the provider. The
persisted message is put into a prompt; where the gate refuses it, shorter and shorter cuts
of the message are tried, and after the last the extraction is given up.

It never is (`archival_never_gives_up`). The cuts are measured in bytes of the message, the
gate counts bytes of JSON, and in JSON a byte becomes six at most: the last cut is short
enough for any text whatever.
-/

namespace Katherine.Cloud

open Py Context

/-- `_build_archival_prompt`. -/
def buildArchivalPrompt (userMessage : PyStr) : PyStr :=
  py "\nExtract facts from this user message for archival memory.\n" ++
  py "Facts should be significant, long-term personal details.\n" ++
  py "Return JSON ONLY matching: \x7b\"facts\":[...], \"schema_version\":1, \"extractor_version\":1\x7d\n" ++
  py "Maximum of 5 facts. If no relevant facts, return empty facts list.\n" ++
  py "User message: \"" ++ userMessage ++ py "\"\n"

/-- `[{"role": "user", "content": archival_prompt}]`. -/
def archivalMessages (userMessage : PyStr) : PyVal :=
  .list [ProviderMessage.toVal ⟨.user, buildArchivalPrompt userMessage⟩]

/-- `validate_provider_input` where a `ProviderEnvelopeError` is caught. -/
def accepted (messages : PyVal) : Except EnvelopeErr Bool :=
  match validateProviderInput messages providerInputMaxEstimatedUnits with
  | .ok () => .ok true
  | .error (.envelope _ _ _) => .ok false
  | .error e => .error e

/-- `max_content_bytes`. -/
def maxContentBytes (overheadUnits : Nat) : Nat :=
  scale (max 100 (providerInputMaxEstimatedUnits - overheadUnits)) (nearestDouble 9 10)

/-- `[0.8, 0.6, 0.4, 0.2, 0.1]`. -/
def retryFactors : List Double :=
  [nearestDouble 8 10, nearestDouble 6 10, nearestDouble 4 10, nearestDouble 2 10, nearestDouble 1 10]

/-- The messages with a cut of the message, if the gate accepts them. -/
def tryCut (userMessage : PyStr) (maxBytes : Nat) : Except EnvelopeErr (Option PyVal) := do
  let cut ← truncateUtf8SafeHeadTail userMessage maxBytes defaultHeadRatio
  let messages := archivalMessages cut.1
  if ← accepted messages then return some messages else return none

/-- The loop body for one factor. -/
def tryFactor (userMessage : PyStr) (maxBytes : Nat) (factor : Double) : Except EnvelopeErr (Option PyVal) :=
  let smallerBytes := scale maxBytes factor
  if smallerBytes < 10 then return none else tryCut userMessage smallerBytes

/-- The whole message, then the largest cut, then the smaller ones; `none` is `not saved`. -/
def fitArchivalMessages (userMessage : PyStr) : Except EnvelopeErr (Option PyVal) := do
  if ← accepted (archivalMessages userMessage) then return some (archivalMessages userMessage)
  else
    let overheadUnits ← estimateProviderInputUnits (archivalMessages [])
    let maxBytes := maxContentBytes overheadUnits
    match ← tryCut userMessage maxBytes with
    | some messages => return some messages
    | none => retryFactors.findSomeM? (tryFactor userMessage maxBytes)

/-- How an extraction begins. -/
inductive ArchivalStart
  /-- It is not enabled. -/
  | disabled
  /-- `archival_extraction_load_failed`. -/
  | loadFailed
  /-- `archival_extraction_budget_exceeded`. -/
  | budgetExceeded
  /-- The provider is called with these messages. -/
  | extract (messages : PyVal)

/-- `run_archival_extraction`, up to the call; `load` is the persisted message, if it was read. -/
def runArchivalExtraction (enabled : Bool) (load : Option PyStr) : Except EnvelopeErr ArchivalStart :=
  if enabled then
    match load with
    | none => .ok .loadFailed
    | some userMessage => do
        match ← fitArchivalMessages userMessage with
        | none => return .budgetExceeded
        | some messages => return .extract messages
  else .ok .disabled

/-! ## What the gate sees -/

/-- The bytes of the envelope around the message. -/
def archivalFrame : Nat := 330

/-- One message is its frame and its text. -/
theorem jsonBytes_message (content : PyStr) :
    jsonBytes (.list [ProviderMessage.toVal ⟨.user, content⟩]) =
      jsonBytes (.list [ProviderMessage.toVal ⟨.user, []⟩]) + utf8Len (escape content) := by
  have hnil : utf8Len (escape []) = 0 := rfl
  simp only [ProviderMessage.toVal, jsonBytes, weighJson, weighElems, weighItems, utf8Len_quote, hnil,
    List.length_cons, List.length_nil]
  omega

theorem utf8Len_escape_prompt (userMessage : PyStr) :
    utf8Len (escape (buildArchivalPrompt userMessage)) =
      utf8Len (escape (buildArchivalPrompt [])) + utf8Len (escape userMessage) := by
  have hnil : utf8Len (escape []) = 0 := rfl
  simp only [buildArchivalPrompt, utf8Len_escape_append, hnil]
  omega

theorem jsonBytes_archivalMessages (userMessage : PyStr) :
    jsonBytes (archivalMessages userMessage) = archivalFrame + utf8Len (escape userMessage) := by
  have hempty : jsonBytes (archivalMessages []) = archivalFrame := by
    unfold archivalMessages buildArchivalPrompt
    repeat rewrite [py_ofList]
    decide +kernel
  rw [archivalMessages, jsonBytes_message] at hempty ⊢
  rw [utf8Len_escape_prompt, ← Nat.add_assoc, hempty]

/-- What the gate says of any message of scalar values: whether the prompt fits. -/
theorem validateProviderInput_archivalMessages {userMessage : PyStr}
    (h : encodable userMessage = true) (maxUnits : Nat) :
    validateProviderInput (archivalMessages userMessage) maxUnits =
      if archivalFrame + utf8Len (escape userMessage) ≤ maxUnits then .ok ()
      else .error (.envelope .budgetExceeded (archivalFrame + utf8Len (escape userMessage)) maxUnits) := by
  have hprompt : encodable (buildArchivalPrompt userMessage) = true := by
    simp only [buildArchivalPrompt, encodable_append, encodable_py, h, Bool.and_self]
  have hscalar : ∀ m ∈ [ProviderMessage.toVal ⟨.user, buildArchivalPrompt userMessage⟩],
      weighJson surrogateWeight m = 0 := by
    intro m hm
    rw [List.mem_singleton.mp hm]
    exact surrogates_toVal hprompt
  have hmessage : ∀ m ∈ [ProviderMessage.toVal ⟨.user, buildArchivalPrompt userMessage⟩],
      checkMessage m = .ok () ∧ serialisable ⟨true, true⟩ m = true := by
    intro m hm
    rw [List.mem_singleton.mp hm]
    exact ⟨checkMessage_toVal _, rfl⟩
  have hchecked := validateProviderInput_of_checked (List.cons_ne_nil _ _) hmessage maxUnits
  rw [if_pos hscalar] at hchecked
  rw [← jsonBytes_archivalMessages]
  exact hchecked

theorem accepted_archivalMessages {userMessage : PyStr} (h : encodable userMessage = true) :
    accepted (archivalMessages userMessage) = .ok
      (decide (archivalFrame + utf8Len (escape userMessage) ≤ providerInputMaxEstimatedUnits)) := by
  rw [accepted, validateProviderInput_archivalMessages h]
  by_cases hfits : archivalFrame + utf8Len (escape userMessage) ≤ providerInputMaxEstimatedUnits
  · rw [if_pos hfits, decide_eq_true hfits]
  · rw [if_neg hfits, decide_eq_false hfits]

theorem overheadUnits_eq : estimateProviderInputUnits (archivalMessages []) = .ok archivalFrame := by
  have hfits := validateProviderInput_archivalMessages encodable_nil providerInputMaxEstimatedUnits
  have hle : archivalFrame + utf8Len (escape []) ≤ providerInputMaxEstimatedUnits := by decide
  rw [if_pos hle] at hfits
  obtain ⟨_, hsendable, _⟩ := validateProviderInput_eq_ok.mp hfits
  refine estimateProviderInputUnits_eq_ok.mpr
    ⟨fun m hm => ⟨(hsendable m hm).serialisable, (hsendable m hm).encodable⟩, ?_⟩
  exact (jsonBytes_archivalMessages []).symm

/-! ## Every cut is short enough in the end -/

/-- In JSON a byte becomes six at most. -/
theorem utf8Len_escape_le (s : PyStr) : utf8Len (escape s) ≤ 6 * utf8Len s := by
  rw [Py.utf8Len_escape]
  induction s with
  | nil => exact Nat.le_refl 0
  | cons c s ih =>
      have hchar : jsonCharBytes c ≤ 6 * utf8Size c := by
        have hpos := utf8Size_pos c
        unfold jsonCharBytes
        split
        · omega
        · split <;> omega
      rw [List.map_cons, List.sum_cons, utf8Len_cons]
      omega

/-- The text is the whole message, or a beginning and an end of it about the marker. -/
def WholeOrCut (userMessage text : PyStr) : Prop :=
  text = userMessage ∨ ∃ head omitted tail, userMessage = head ++ omitted ++ tail ∧
    text = head ++ omissionMarker ++ tail

/-- A cut of a message, and its size. -/
theorem truncateUtf8SafeHeadTail_ok {userMessage : PyStr} (h : encodable userMessage = true)
    {maxBytes : Nat} (hroom : 6 ≤ maxBytes) : ∃ text was,
      truncateUtf8SafeHeadTail userMessage maxBytes defaultHeadRatio = .ok (text, was) ∧
        encodable text = true ∧ utf8Len text ≤ maxBytes ∧ WholeOrCut userMessage text := by
  obtain ⟨⟨text, was⟩, tail, htext, hcut⟩ := (truncateUtf8SafeHeadTail_iff h).mpr (.inr (.inl hroom))
  have hbound := hcut.bound
  rw [Utf8.length_encode] at hbound
  refine ⟨text, was, htext, ?_⟩
  rcases Nat.lt_or_ge maxBytes (utf8Len userMessage) with hlong | hfits
  · obtain ⟨_, head, omitted, rfl, rfl⟩ := hcut.parts (by rwa [Utf8.length_encode])
    rw [encodable_append, encodable_append, Bool.and_eq_true, Bool.and_eq_true] at h
    refine ⟨?_, hbound, .inr ⟨head, omitted, tail, rfl, rfl⟩⟩
    rw [encodable_append, encodable_append, h.1.1, h.2]
    rfl
  · obtain ⟨rfl, rfl⟩ := Prod.mk.inj (hcut.whole (by rwa [Utf8.length_encode]))
    exact ⟨h, hbound, .inl rfl⟩

/-- These are messages the gate accepts, and in them is the message or a cut of it. -/
def Saved (userMessage : PyStr) (messages : PyVal) : Prop :=
  ∃ text, messages = archivalMessages text ∧ WholeOrCut userMessage text ∧
    validateProviderInput messages providerInputMaxEstimatedUnits = .ok ()

theorem saved_of_fits {userMessage text : PyStr} (h : encodable text = true)
    (hcut : WholeOrCut userMessage text)
    (hfits : archivalFrame + utf8Len (escape text) ≤ providerInputMaxEstimatedUnits) :
    Saved userMessage (archivalMessages text) := by
  refine ⟨text, rfl, hcut, ?_⟩
  rw [validateProviderInput_archivalMessages h, if_pos hfits]

/-- What a cut comes to: nothing is raised, what is returned is saved, and a cut that is small enough
for any text is. -/
theorem tryCut_spec {userMessage : PyStr} (h : encodable userMessage = true) (maxBytes : Nat)
    (hroom : 6 ≤ maxBytes) : ∃ r, tryCut userMessage maxBytes = .ok r ∧
      (∀ messages, r = some messages → Saved userMessage messages) ∧
      (archivalFrame + 6 * maxBytes ≤ providerInputMaxEstimatedUnits → r ≠ none) := by
  obtain ⟨text, was, htext, henc, hbound, hcut⟩ := truncateUtf8SafeHeadTail_ok h hroom
  have hescape := utf8Len_escape_le text
  simp only [tryCut, htext, bind_of_ok, accepted_archivalMessages henc, decide_eq_true_eq]
  by_cases hfits : archivalFrame + utf8Len (escape text) ≤ providerInputMaxEstimatedUnits
  · rw [if_pos hfits]
    refine ⟨_, rfl, fun messages hm => ?_, fun _ => nofun⟩
    cases hm
    exact saved_of_fits henc hcut hfits
  · rw [if_neg hfits]
    refine ⟨none, rfl, fun messages hm => ?_, fun hsmall => absurd hsmall (by omega)⟩
    cases hm

/-- The loop saves the message if one of its cuts is small enough for any text. -/
theorem retry_saved {userMessage : PyStr} (h : encodable userMessage = true) {maxBytes : Nat}
    {factors : List Double} (hsmall : ∃ factor ∈ factors, 10 ≤ scale maxBytes factor ∧
      archivalFrame + 6 * scale maxBytes factor ≤ providerInputMaxEstimatedUnits) :
    ∃ messages, factors.findSomeM? (tryFactor userMessage maxBytes) = .ok (some messages) ∧
      Saved userMessage messages := by
  induction factors with
  | nil => obtain ⟨_, hnone, _⟩ := hsmall; cases hnone
  | cons factor factors ih =>
      -- where this factor is not the one, a later one is
      have hlater : tryFactor userMessage maxBytes factor = .ok none →
          ¬ (10 ≤ scale maxBytes factor ∧
            archivalFrame + 6 * scale maxBytes factor ≤ providerInputMaxEstimatedUnits) →
          ∃ messages, (factor :: factors).findSomeM? (tryFactor userMessage maxBytes) = .ok (some messages) ∧
            Saved userMessage messages := by
        intro hnone hnot
        obtain ⟨f, hf, hgood⟩ := hsmall
        rcases List.mem_cons.mp hf with rfl | hf
        · exact absurd hgood hnot
        · obtain ⟨messages, hloop, hsaved⟩ := ih ⟨f, hf, hgood⟩
          refine ⟨messages, ?_, hsaved⟩
          rw [List.findSomeM?_cons, hnone]
          exact hloop
      by_cases hskip : scale maxBytes factor < 10
      · exact hlater (if_pos hskip) (by omega)
      · obtain ⟨r, hr, hsaved, hsure⟩ := tryCut_spec h (scale maxBytes factor) (by omega)
        have hfactor : tryFactor userMessage maxBytes factor = .ok r := by
          rw [← hr]
          exact if_neg hskip
        cases r with
        | none => exact hlater hfactor fun hgood => hsure hgood.2 rfl
        | some messages =>
            refine ⟨messages, ?_, hsaved messages rfl⟩
            rw [List.findSomeM?_cons, hfactor]
            rfl

/-- **The ladder ends with messages the gate accepts.** -/
theorem fitArchivalMessages_saved {userMessage : PyStr} (h : encodable userMessage = true) :
    ∃ messages, fitArchivalMessages userMessage = .ok (some messages) ∧ Saved userMessage messages := by
  simp only [fitArchivalMessages, accepted_archivalMessages h, overheadUnits_eq, bind_of_ok,
    decide_eq_true_eq]
  by_cases hwhole : archivalFrame + utf8Len (escape userMessage) ≤ providerInputMaxEstimatedUnits
  · rw [if_pos hwhole]
    exact ⟨_, rfl, saved_of_fits h (.inl rfl) hwhole⟩
  rw [if_neg hwhole]
  have hmax : maxContentBytes archivalFrame = 14103 := by decide +kernel
  obtain ⟨r, hr, hsaved, _⟩ := tryCut_spec h 14103 (by decide)
  simp only [hmax, hr, bind_of_ok]
  cases r with
  | some messages => exact ⟨messages, rfl, hsaved messages rfl⟩
  | none =>
      -- a tenth of the largest cut is 1410 bytes, at most 8460 of JSON
      have htenth : scale 14103 (nearestDouble 1 10) = 1410 := by decide +kernel
      exact retry_saved h ⟨nearestDouble 1 10, by simp [retryFactors], by rw [htenth]; decide⟩

/-- **An extraction is never given up for the size of the message.** Whatever was persisted, the
provider is called with messages the gate accepts. -/
theorem archival_never_gives_up (userMessage : PyStr) (h : encodable userMessage = true) :
    ∃ text, runArchivalExtraction true (some userMessage) = .ok (.extract (archivalMessages text)) ∧
      validateProviderInput (archivalMessages text) providerInputMaxEstimatedUnits = .ok () ∧
      (text = userMessage ∨ ∃ head omitted tail, userMessage = head ++ omitted ++ tail ∧
        text = head ++ omissionMarker ++ tail) := by
  obtain ⟨messages, hrun, text, rfl, hcut, hvalid⟩ := fitArchivalMessages_saved h
  refine ⟨text, ?_, hvalid, hcut⟩
  simp only [runArchivalExtraction, if_true, hrun, bind_of_ok]
  rfl

theorem archival_never_gives_up_control : encodable (List.replicate 20000 (1 : CodePoint)) = true ∧
    ∃ text, runArchivalExtraction true (some (List.replicate 20000 1)) =
      .ok (.extract (archivalMessages text)) := by
  have henc : encodable (List.replicate 20000 (1 : CodePoint)) = true := by
    rw [encodable, List.all_replicate]
    rfl
  obtain ⟨text, hrun, _⟩ := archival_never_gives_up (List.replicate 20000 1) henc
  exact ⟨henc, text, hrun⟩

end Katherine.Cloud
