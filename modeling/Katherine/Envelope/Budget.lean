import Katherine.Envelope
import Katherine.ProviderEnvelope

/-!
# The envelope and its budget

`build_envelope` measures what it selects with its own estimator; the gate before the
provider, `validate_provider_input` of `backend/provider_envelope.py`, measures it again
with another. The two agree, selection never leaves the budget, and the only refusal
left is the mandatory one.

The invariant of both selection loops is that the envelope of what is selected so far
fits. The order history is rendered in does not matter for it: the weight of a list of
messages is a sum (`weighJson_perm`).
-/

namespace Katherine.Context

open Py Local

/-! ## The two estimators -/

theorem checkMessage_toVal (m : ProviderMessage) : checkMessage m.toVal = .ok () := by
  obtain ⟨role, content⟩ := m
  cases role <;> rfl

/-- **The two estimators agree.** -/
theorem estimateProviderInputUnits_messages {ms : List ProviderMessage} {n : Nat}
    (h : estimateMessagesUnits ms = .ok n) :
    estimateProviderInputUnits (.list (ms.map ProviderMessage.toVal)) = .ok n := by
  obtain ⟨text, htext, h⟩ := bind_ok_iff.mp h
  unfold serializeCanonicalJson at htext
  split at htext
  · rename_i text' hdump
    cases htext
    simp only [estimateProviderInputUnits, hdump, estimateTextUnits]
    split at h
    · rename_i henc
      cases h
      rw [if_pos henc]
    · cases h
  · cases htext

/-- What fits by the one passes the other. -/
theorem validateProviderInput_messages {ms : List ProviderMessage} {n maxUnits : Nat}
    (hne : ms ≠ []) (h : estimateMessagesUnits ms = .ok n) (hn : n ≤ maxUnits) :
    validateProviderInput (.list (ms.map ProviderMessage.toVal)) maxUnits = .ok () := by
  have hunits := estimateProviderInputUnits_messages h
  have hchecks : (ms.map ProviderMessage.toVal).forM checkMessage = .ok () := by
    rw [forM_ok_iff]
    intro v hv
    obtain ⟨m, _, rfl⟩ := List.mem_map.mp hv
    exact checkMessage_toVal m
  cases ms with
  | nil => exact absurd rfl hne
  | cons m ms =>
      rw [List.map_cons] at hunits hchecks ⊢
      simp only [validateProviderInput, hchecks, hunits, bind, Except.bind, Nat.not_lt_of_le hn,
        if_false]
      rfl

/-! ## Texts that can be encoded -/

section Select

variable {κ : Type}

/-- Every text of the bundle is a sequence of Unicode scalar values. -/
structure ContextBundle.Scalar (bundle : ContextBundle κ) : Prop where
  policy : encodable bundle.trustedPolicy = true
  history : ∀ m ∈ bundle.history, encodable m.content = true
  items : ∀ i ∈ bundle.memoryItems ++ bundle.profileItems ++ bundle.personaItems,
    encodable i.content = true ∧ encodable i.sourceId = true

/-- The bytes of the JSON of these messages. -/
def messageBytes (ms : List ProviderMessage) : Nat := jsonBytes (.list (ms.map ProviderMessage.toVal))

theorem messageBytes_perm {ms ns : List ProviderMessage} (h : ms.Perm ns) :
    messageBytes ms = messageBytes ns :=
  weighJson_perm (h.map _)

theorem surrogates_toJsonDict {i : ContextItem} (hc : encodable i.content = true)
    (hs : encodable i.sourceId = true) : weighJson surrogateWeight i.toJsonDict = 0 := by
  have hcontent := (surrogates_quote i.content).mpr hc
  have hsource := (surrogates_quote i.sourceId).mpr hs
  have hkind : weigh surrogateWeight (quote i.kind.text) = 0 := by cases i.kind <;> decide
  have hprovenance : weigh surrogateWeight (quote i.provenance.text) = 0 := by
    cases i.provenance <;> decide
  have hstatus : weigh surrogateWeight (quote i.epistemicStatus.text) = 0 := by
    cases i.epistemicStatus <;> decide
  have hconfidence : weighJson surrogateWeight i.confidence.toVal = 0 := by
    cases i.confidence with
    | float x => exact (encodable_iff_weigh _).mp (encodable_float x.val)
    | int one => cases one <;> decide
  have hkeys : ∀ k ∈ [py "record_type", py "reference", py "kind", py "provenance",
      py "confidence", py "epistemic_status", py "content", py "untrusted_context"],
      weigh surrogateWeight (quote k) = 0 := by decide
  have hmarks : surrogateWeight (cp '\x7b') = 0 ∧ surrogateWeight (cp '\x7d') = 0 ∧
      surrogateWeight (cp ':') = 0 ∧ surrogateWeight (cp ',') = 0 := by decide
  simp only [List.forall_mem_cons, List.not_mem_nil, false_imp_iff, implies_true, and_true] at hkeys
  simp only [ContextItem.toJsonDict, weighJson, weighItems, keyText, hcontent, hsource, hkind,
    hprovenance, hstatus, hconfidence, hkeys, hmarks]
  rfl

theorem serialisable_items : ∀ items : List ContextItem,
    serialisableElems ⟨true, true⟩ (items.map ContextItem.toJsonDict) = true
  | [] => rfl
  | i :: items => by
      have hconfidence : serialisable ⟨true, true⟩ i.confidence.toVal = true := by
        cases i.confidence with
        | float x => rfl
        | int one =>
            have hone : (if one then 1 else 0 : Int).natAbs ≤ 1 := by cases one <;> decide
            exact decide_eq_true (Nat.lt_of_le_of_lt hone one_lt_intTextLimit)
      have hitem : serialisable ⟨true, true⟩ i.toJsonDict = true := by
        simp only [ContextItem.toJsonDict, serialisable, serialisableItems, hconfidence]
        rfl
      rw [List.map_cons, serialisableElems, serialisable_items items, hitem]
      rfl

/-- Items are always written; with texts that can be encoded, what is written can be too. -/
theorem serialize_items {items : List ContextItem}
    (h : ∀ i ∈ items, encodable i.content = true ∧ encodable i.sourceId = true) :
    ∃ text, serializeCanonicalJson (.list (items.map ContextItem.toJsonDict)) = .ok text ∧
      encodable text = true := by
  let v : PyVal := .list (items.map ContextItem.toJsonDict)
  have hmarks : surrogateWeight (cp '[') = 0 ∧ surrogateWeight (cp ',') = 0 ∧
      surrogateWeight (cp ']') = 0 := by decide
  have helems : weighElems surrogateWeight (items.map ContextItem.toJsonDict) = 0 := by
    rw [weighElems_eq_sum, List.map_map, List.sum_eq_zero_iff_forall_eq_nat]
    intro n hn
    obtain ⟨i, hi, rfl⟩ := List.mem_map.mp hn
    exact surrogates_toJsonDict (h i hi).1 (h i hi).2
  have hdump : dumpsCompact true v = some (render [] v.canon) := by
    rw [dumpsCompact, if_pos]
    exact serialisable_items items
  refine ⟨render [] v.canon, ?_, ?_⟩
  · rw [serializeCanonicalJson, hdump]
  · rw [encodable_render_canon]
    simp only [v, weighJson, helems, hmarks]
    rfl

variable {bundle : ContextBundle κ} {userMessage : PyStr} {maxUnits : Nat}

/-! ## Selection stays in the budget -/

/-- The envelope of encodable texts is measured by its bytes. -/
theorem estimate_envelope (hb : bundle.Scalar) (hu : encodable userMessage = true)
    (payload : List ProviderMessage) (hp : ∀ m ∈ payload, encodable m.content = true)
    (history : List (ChatMessage κ)) (hh : ∀ m ∈ history, m ∈ bundle.history) :
    estimateMessagesUnits (envelopeMessages bundle payload history userMessage) =
      .ok (messageBytes (envelopeMessages bundle payload history userMessage)) := by
  refine estimateMessagesUnits_eq _ fun m hm => ?_
  simp only [envelopeMessages, List.mem_cons, List.mem_append, List.mem_map, List.not_mem_nil,
    or_false] at hm
  rcases hm with rfl | hm | ⟨c, hc, rfl⟩ | rfl
  · rw [systemMessage, encodable_append, hb.policy, encodable_boundaryRule]
    rfl
  · exact hp m hm
  · exact hb.history c (hh c hc)
  · exact hu

theorem map_contextCandidates (bundle : ContextBundle κ) : (contextCandidates bundle).map (·.2) =
    bundle.memoryItems ++ bundle.profileItems ++ bundle.personaItems := by
  simp [contextCandidates, Function.comp_def]

variable [LinearOrder κ]

theorem perm_chronological (ms : List (ChatMessage κ)) : (chronological ms).Perm ms :=
  List.perm_insertionSort _ ms

theorem mem_chronological {ms : List (ChatMessage κ)} {m : ChatMessage κ} :
    m ∈ chronological ms ↔ m ∈ ms :=
  (perm_chronological ms).mem_iff

/-- The order of the history does not change the weight of an envelope. -/
theorem messageBytes_chronological (payload : List ProviderMessage)
    (history : List (ChatMessage κ)) :
    messageBytes (envelopeMessages bundle payload (chronological history) userMessage) =
      messageBytes (envelopeMessages bundle payload history userMessage) := by
  refine messageBytes_perm (.cons _ (.append_left _ (.append_right _ (.map _ ?_))))
  exact perm_chronological history

/-- The history is selected, and the envelope fits with it. -/
theorem selectHistory_fits (hb : bundle.Scalar) (hu : encodable userMessage = true)
    (hfit : messageBytes (mandatoryMessages bundle userMessage) ≤ maxUnits) :
    ∃ h, selectHistory bundle userMessage maxUnits = .ok h ∧
      (∀ m ∈ h.selected, m ∈ bundle.history) ∧
      messageBytes (envelopeMessages bundle [] (chronological h.selected) userMessage)
        ≤ maxUnits := by
  unfold selectHistory
  split
  · exact ⟨⟨[], 0⟩, rfl, List.forall_mem_nil _, hfit⟩
  rw [estimate_envelope hb hu _ (List.forall_mem_nil _) _ fun _ h => h]
  simp only [bind, Except.bind]
  split
  · rename_i hle
    refine ⟨⟨bundle.history, 0⟩, rfl, fun _ h => h, ?_⟩
    rw [messageBytes_chronological]
    exact hle
  -- not all of it fits: newest first, each message if the envelope still fits with it
  let Fits (_ : List (ChatMessage κ)) (s : HistorySelection κ) : Prop :=
    (∀ m ∈ s.selected, m ∈ bundle.history) ∧
      messageBytes (envelopeMessages bundle [] (chronological s.selected) userMessage) ≤ maxUnits
  have hstart : Fits [] ⟨[], 0⟩ := ⟨List.forall_mem_nil _, hfit⟩
  obtain ⟨s, hs, hfits⟩ := foldlM_ok (f := selectMessage bundle userMessage maxUnits)
    bundle.history.reverse [] hstart (by
      intro seen s m hm hs
      have hmem : ∀ x ∈ s.selected ++ [m], x ∈ bundle.history := by
        intro x hx
        rcases List.mem_append.mp hx with hx | hx
        · exact hs.1 x hx
        · rw [List.mem_singleton.mp hx]
          exact List.mem_reverse.mp hm
      rw [selectMessage, estimate_envelope hb hu _ (List.forall_mem_nil _) _
        fun x hx => hmem x (mem_chronological.mp hx)]
      simp only [bind, Except.bind]
      split
      · rename_i hle
        exact ⟨_, rfl, hmem, hle⟩
      · exact ⟨_, rfl, hs.1, hs.2⟩)
  exact ⟨s, hs, hfits⟩

/-- What the selection of items keeps: it takes candidates in their order, and with what it has
taken, if anything, the envelope fits. -/
structure ItemsFit (bundle : ContextBundle κ) (history : List (ChatMessage κ)) (userMessage : PyStr)
    (maxUnits : Nat) (seen : List (ItemKind × ContextItem)) (s : ItemSelection) : Prop where
  taken : s.selected.Sublist (seen.map (·.2))
  fits : s.selected ≠ [] → ∃ payload,
    serializeCanonicalJson (.list (s.selected.map ContextItem.toJsonDict)) = .ok payload ∧
    encodable payload = true ∧
    messageBytes (envelopeMessages bundle [⟨.user, payload⟩] (chronological history) userMessage)
      ≤ maxUnits

theorem omit_selected (s : ItemSelection) (kind : ItemKind) :
    (s.omit kind).selected = s.selected := by
  cases kind <;> rfl

/-- One candidate more. -/
theorem selectItem_fits (hb : bundle.Scalar) (hu : encodable userMessage = true)
    {history : List (ChatMessage κ)} (hh : ∀ m ∈ history, m ∈ bundle.history)
    {seen : List (ItemKind × ContextItem)} {s : ItemSelection} {c : ItemKind × ContextItem}
    (hseen : ∀ i ∈ s.selected, i ∈ bundle.memoryItems ++ bundle.profileItems ++ bundle.personaItems)
    (hc : c ∈ contextCandidates bundle)
    (h : ItemsFit bundle history userMessage maxUnits seen s) :
    ∃ s', selectItem bundle history userMessage maxUnits s c = .ok s' ∧
      (∀ i ∈ s'.selected,
        i ∈ bundle.memoryItems ++ bundle.profileItems ++ bundle.personaItems) ∧
      ItemsFit bundle history userMessage maxUnits (seen ++ [c]) s' := by
  have hmem : ∀ i ∈ s.selected ++ [c.2],
      i ∈ bundle.memoryItems ++ bundle.profileItems ++ bundle.personaItems := by
    intro i hi
    rcases List.mem_append.mp hi with hi | hi
    · exact hseen i hi
    · rw [List.mem_singleton.mp hi, ← map_contextCandidates]
      exact List.mem_map_of_mem hc
  obtain ⟨payload, hpayload, henc⟩ := serialize_items fun i hi => hb.items i (hmem i hi)
  have hestimate := estimate_envelope hb hu [⟨.user, payload⟩] (by simpa using henc)
    (chronological history) fun m hm => hh m (mem_chronological.mp hm)
  rw [selectItem, hpayload]
  simp only [bind, Except.bind, hestimate]
  by_cases hle : messageBytes (envelopeMessages bundle [⟨.user, payload⟩] (chronological history)
      userMessage) ≤ maxUnits
  · rw [if_pos hle]
    refine ⟨_, rfl, hmem, ?_, fun _ => ⟨payload, hpayload, henc, hle⟩⟩
    rw [List.map_append]
    exact h.taken.append (List.Sublist.refl _)
  · rw [if_neg hle]
    refine ⟨_, rfl, ?_, ?_, ?_⟩ <;> rw [omit_selected]
    · exact hseen
    · rw [List.map_append]
      exact h.taken.trans (List.sublist_append_left _ _)
    · exact h.fits

theorem selectItems_fits (maxUnits : Nat) (hb : bundle.Scalar) (hu : encodable userMessage = true)
    {history : List (ChatMessage κ)} (hh : ∀ m ∈ history, m ∈ bundle.history) :
    ∃ s, selectItems bundle history userMessage maxUnits = .ok s ∧
      ItemsFit bundle history userMessage maxUnits (contextCandidates bundle) s := by
  have hstart : ItemsFit bundle history userMessage maxUnits [] ⟨[], 0, 0, 0⟩ :=
    ⟨List.Sublist.refl _, fun h => absurd rfl h⟩
  obtain ⟨s, hs, hfit⟩ := foldlM_ok
    (f := selectItem bundle history userMessage maxUnits)
    (P := fun seen s => (∀ i ∈ s.selected,
      i ∈ bundle.memoryItems ++ bundle.profileItems ++ bundle.personaItems) ∧
      ItemsFit bundle history userMessage maxUnits seen s)
    (contextCandidates bundle) [] ⟨List.forall_mem_nil _, hstart⟩
    fun seen s c hc hs => selectItem_fits hb hu hh hs.1 hc hs.2
  exact ⟨s, hs, hfit.2⟩

/-! ## The rest of the build -/

/-- An item is added under its reference unless that is taken. -/
theorem addSource_ok {m : List (PyStr × PyStr)} {i : ContextItem} (h : i.sourceId ∉ m.map (·.1)) :
    ∃ id, addSource m i = .ok (m ++ [(i.sourceId, id)]) := by
  have hnew : (!(m.map (·.1)).contains i.sourceId) = true := by simpa using h
  rw [addSource, hnew, check_true]
  simp only [bind, Except.bind]
  split
  · rename_i happroved
    have hid : (!i.internalId.isEmpty) = true := by
      have huuid := i.internalId_ok.2 happroved.1 happroved.2
      cases hcase : i.internalId with
      | nil =>
          rw [hcase] at huuid
          exact absurd huuid (by decide)
      | cons c s => rfl
    rw [hid, check_true]
    exact ⟨_, rfl⟩
  · exact ⟨_, rfl⟩

theorem addSources_ok : ∀ {items : List ContextItem} {m : List (PyStr × PyStr)},
    (m.map (·.1) ++ items.map (·.sourceId)).Nodup → ∃ m', items.foldlM addSource m = .ok m'
  | [], m, _ => ⟨m, rfl⟩
  | i :: items, m, h => by
      have hnew : i.sourceId ∉ m.map (·.1) := by
        rw [List.nodup_append] at h
        intro hi
        exact h.2.2 _ hi _ (by simp) rfl
      obtain ⟨id, hadd⟩ := addSource_ok hnew
      have hrest : ((m ++ [(i.sourceId, id)]).map (·.1) ++ items.map (·.sourceId)).Nodup := by
        simpa using h
      obtain ⟨m', hm'⟩ := addSources_ok hrest
      refine ⟨m', ?_⟩
      rw [List.foldlM_cons, hadd]
      exact hm'

/-- **Once the mandatory messages fit, an envelope is built and it fits.** -/
theorem fillEnvelope_ok (hb : bundle.Scalar) (hu : encodable userMessage = true)
    (hrefs : (bundleRefs bundle).Nodup)
    (hfit : messageBytes (mandatoryMessages bundle userMessage) ≤ maxUnits) :
    ∃ r, fillEnvelope bundle userMessage maxUnits = .ok r := by
  obtain ⟨history, hhistory, hmem, hhfit⟩ := selectHistory_fits hb hu hfit
  obtain ⟨items, hitems, htaken, hifit⟩ := selectItems_fits maxUnits hb hu hmem
  have hall : items.selected.Sublist
      (bundle.memoryItems ++ bundle.profileItems ++ bundle.personaItems) := by
    rw [← map_contextCandidates]
    exact htaken
  have hchrono : ∀ m ∈ chronological history.selected, m ∈ bundle.history :=
    fun m hm => hmem m (mem_chronological.mp hm)
  obtain ⟨sources, hsources⟩ : ∃ m', items.selected.foldlM addSource [] = .ok m' := by
    refine addSources_ok ?_
    have hnodup : ((bundle.memoryItems ++ bundle.profileItems ++ bundle.personaItems).map
        (·.sourceId)).Nodup := by
      simp only [bundleRefs, List.append_assoc] at hrefs
      simp only [List.map_append, List.append_assoc]
      exact (List.nodup_append.mp hrefs).2.1
    exact (hall.map _).nodup hnodup
  unfold fillEnvelope
  rw [hhistory]
  simp only [bind, Except.bind]
  rw [hitems]
  simp only [serializeUntrustedItems]
  by_cases hnone : items.selected = []
  · have hestimate := estimate_envelope hb hu [] (List.forall_mem_nil _)
      (chronological history.selected) hchrono
    simp only [hnone, List.isEmpty_nil, if_true] at hsources ⊢
    rw [hsources]
    simp only [hestimate, decide_eq_true hhfit, check_true]
    exact ⟨_, rfl⟩
  · obtain ⟨payload, hpayload, henc, hle⟩ := hifit hnone
    have hestimate := estimate_envelope hb hu [⟨.user, payload⟩] (by simpa using henc)
      (chronological history.selected) hchrono
    have hne : items.selected.isEmpty = false := by simpa using hnone
    simp only [hne, hpayload, hsources, hestimate, decide_eq_true hle, check_true,
      Bool.false_eq_true, if_false]
    exact ⟨_, rfl⟩

/-- With acceptable arguments `build_envelope` is the mandatory check and what follows it. -/
theorem buildEnvelope_eq (hrefs : (bundleRefs bundle).Nodup) (hb : bundle.Scalar)
    (hne : userMessage ≠ []) (hu : encodable userMessage = true) (hmax : 0 < maxUnits) :
    buildEnvelope bundle userMessage maxUnits = (do
      check (messageBytes (mandatoryMessages bundle userMessage) ≤ maxUnits) .mandatoryBudgetExceeded
      fillEnvelope bundle userMessage maxUnits) := by
  have hunits := estimate_envelope hb hu [] (List.forall_mem_nil _) [] (List.forall_mem_nil _)
  have hcheck : (!userMessage.isEmpty) = true := by simpa using hne
  rw [buildEnvelope, validateUniqueRefs, decide_eq_true hmax, decide_eq_true hrefs, hcheck,
    check_true, mandatoryMessages, hunits]
  rfl

theorem buildEnvelope_ok (hrefs : (bundleRefs bundle).Nodup) (hb : bundle.Scalar)
    (hne : userMessage ≠ []) (hu : encodable userMessage = true) (hmax : 0 < maxUnits)
    (hfit : messageBytes (mandatoryMessages bundle userMessage) ≤ maxUnits) :
    ∃ r, buildEnvelope bundle userMessage maxUnits = .ok r := by
  obtain ⟨r, hr⟩ := fillEnvelope_ok hb hu hrefs hfit
  refine ⟨r, ?_⟩
  rw [buildEnvelope_eq hrefs hb hne hu hmax, decide_eq_true hfit, check_true, hr]
  rfl

/-- What `build_envelope` returns was measured last. -/
theorem buildEnvelope_units {r : ContextBuildResult}
    (h : buildEnvelope bundle userMessage maxUnits = .ok r) :
    r.messages ≠ [] ∧ r.unitCount ≤ maxUnits ∧
      estimateMessagesUnits r.messages = .ok r.unitCount := by
  simp only [buildEnvelope, fillEnvelope, bind_ok_iff, check_eq_ok] at h
  obtain ⟨_, _, _, _, _, _, _, _, _, _, _, _, _, _, _, _, _, _, _, hunits, _, hle, h⟩ := h
  cases h
  exact ⟨by simp [envelopeMessages], by simpa using hle, hunits⟩

/-- **An envelope respects the budget under both estimators**, and is refused only if its two
mandatory messages alone do not fit. -/
theorem envelope_within_budget (bundle : ContextBundle κ) (userMessage : PyStr) (maxUnits : Nat)
    (hrefs : (bundleRefs bundle).Nodup) (hb : bundle.Scalar) (hne : userMessage ≠ [])
    (hu : encodable userMessage = true) (hmax : 0 < maxUnits) :
    (∀ r, buildEnvelope bundle userMessage maxUnits = .ok r →
      r.unitCount ≤ maxUnits ∧
      estimateProviderInputUnits (.list (r.messages.map ProviderMessage.toVal)) = .ok r.unitCount ∧
      validateProviderInput (.list (r.messages.map ProviderMessage.toVal)) maxUnits = .ok ()) ∧
    (∃ units, estimateMessagesUnits (mandatoryMessages bundle userMessage) = .ok units ∧
      (buildEnvelope bundle userMessage maxUnits = .error (.trusted .mandatoryBudgetExceeded) ↔
        maxUnits < units) ∧
      (units ≤ maxUnits → ∃ r, buildEnvelope bundle userMessage maxUnits = .ok r)) ∧
    buildEnvelope bundle userMessage maxUnits ≠ .error (.trusted .budgetExceededAfterSelection) := by
  have hunits := estimate_envelope hb hu [] (List.forall_mem_nil _) [] (List.forall_mem_nil _)
  have hover : maxUnits < messageBytes (mandatoryMessages bundle userMessage) →
      buildEnvelope bundle userMessage maxUnits = .error (.trusted .mandatoryBudgetExceeded) := by
    intro hlt
    rw [buildEnvelope_eq hrefs hb hne hu hmax, decide_eq_false (Nat.not_le_of_lt hlt)]
    rfl
  have hfits := buildEnvelope_ok hrefs hb hne hu hmax
  refine ⟨fun r hr => ?_, ⟨_, hunits, ⟨fun herr => ?_, hover⟩, hfits⟩, fun hlast => ?_⟩
  · obtain ⟨hmessages, hle, hestimate⟩ := buildEnvelope_units hr
    exact ⟨hle, estimateProviderInputUnits_messages hestimate,
      validateProviderInput_messages hmessages hestimate hle⟩
  · rcases Nat.lt_or_ge maxUnits (messageBytes (mandatoryMessages bundle userMessage)) with hlt | hle
    · exact hlt
    · obtain ⟨r, hr⟩ := hfits hle
      rw [hr] at herr
      cases herr
  · rcases Nat.lt_or_ge maxUnits (messageBytes (mandatoryMessages bundle userMessage)) with hlt | hle
    · rw [hover hlt] at hlast
      cases hlast
    · obtain ⟨r, hr⟩ := hfits hle
      rw [hr] at hlast
      cases hlast

end Select

theorem sampleRef_ne_nil : py "msg-1" ≠ [] := by decide

/-- A policy, one message, one memory. -/
def sampleBundle : ContextBundle Nat where
  trustedPolicy := py "Seja gentil."
  history := [⟨.user, py "\"olá\"", py "msg-1", 1, by decide, sampleRef_ne_nil⟩]
  profileItems := []
  memoryItems := [⟨.memory, py "gosta de chá", .legacyMemory, .float float03, .unknown, py "mem-1", [],
    by decide, by decide, fun h => absurd rfl h, fun _ h => by cases h⟩]
  personaItems := []
  truncationReport := {}
  policy_ok := by decide

theorem sampleBundle_scalar : sampleBundle.Scalar :=
  ⟨by decide, by decide, by decide⟩

theorem envelope_within_budget_sample :
    (bundleRefs sampleBundle).Nodup ∧ sampleBundle.Scalar ∧
    buildEnvelope sampleBundle (py "e aí?") 1000 ≠
      .error (.trusted .budgetExceededAfterSelection) := by
  have hrefs : (bundleRefs sampleBundle).Nodup := by decide
  exact ⟨hrefs, sampleBundle_scalar,
    (envelope_within_budget sampleBundle (py "e aí?") 1000 hrefs sampleBundle_scalar (by decide)
      (by decide) (by decide)).2.2⟩

end Katherine.Context
