import Katherine.Context
import Katherine.Lib.JsonSize

/-!
# The provider envelope

`build_envelope` of `backend/trusted_context.py`: the messages of one provider call,
within a budget that counts the bytes of their canonical JSON. The system message and
the current user message are mandatory. History is taken newest first, then memories,
profile and persona in that order, each entry whole or not at all; what is taken is
rendered oldest first.
-/

namespace Katherine.Context

open Py Local

/-! ## Messages -/

inductive MessageRole
  | system
  | user
  | assistant
deriving DecidableEq

def MessageRole.text : MessageRole → PyStr
  | .system => py "system"
  | .user => py "user"
  | .assistant => py "assistant"

/-- One entry of the list a provider gets. -/
structure ProviderMessage where
  role : MessageRole
  content : PyStr
deriving DecidableEq

def ProviderMessage.toVal (m : ProviderMessage) : PyVal :=
  .dict [(.str (py "role"), .str m.role.text), (.str (py "content"), .str m.content)]

def historyRole : Role → MessageRole
  | .user => .user
  | .assistant => .assistant

def ChatMessage.toProvider {κ : Type} (m : ChatMessage κ) : ProviderMessage :=
  ⟨historyRole m.role, m.content⟩

/-- `_serialize_canonical_json`. -/
def serializeCanonicalJson (v : PyVal) : Except ContextErr PyStr :=
  match dumpsCompact true v with
  | some text => .ok text
  | none => .error (.trusted .serializationFailed)

/-- `_estimate_messages_units`. -/
def estimateMessagesUnits (messages : List ProviderMessage) : Except ContextErr Nat := do
  let text ← serializeCanonicalJson (.list (messages.map ProviderMessage.toVal))
  if encodable text then return max 1 (utf8Len text) else .error .unicodeEncode

/-- `to_json_dict`. -/
def ContextItem.toJsonDict (i : ContextItem) : PyVal :=
  .dict [(.str (py "record_type"), .str (py "untrusted_context")),
    (.str (py "reference"), .str i.sourceId),
    (.str (py "kind"), .str i.kind.text),
    (.str (py "provenance"), .str i.provenance.text),
    (.str (py "confidence"), i.confidence.toVal),
    (.str (py "epistemic_status"), .str i.epistemicStatus.text),
    (.str (py "content"), .str i.content)]

/-- `_serialize_untrusted_items`. -/
def serializeUntrustedItems (items : List ContextItem) : Except ContextErr PyStr :=
  if items.isEmpty then .ok [] else serializeCanonicalJson (.list (items.map ContextItem.toJsonDict))

/-! ## Selection -/

/-- `PROVIDER_INPUT_MAX_ESTIMATED_UNITS`. -/
def providerInputMaxEstimatedUnits : Nat := 16000

section Select

variable {κ : Type} [LinearOrder κ]

/-- `sorted(…, key=lambda m: m.sort_key)`, which is stable. -/
def chronological (ms : List (ChatMessage κ)) : List (ChatMessage κ) :=
  ms.insertionSort fun a b => a.sortKey ≤ b.sortKey

def systemMessage (bundle : ContextBundle κ) : ProviderMessage :=
  ⟨.system, bundle.trustedPolicy ++ boundaryRule⟩

/-- The envelope with this untrusted payload, if any, and this history. -/
def envelopeMessages (bundle : ContextBundle κ) (payload : List ProviderMessage)
    (history : List (ChatMessage κ)) (userMessage : PyStr) : List ProviderMessage :=
  systemMessage bundle :: (payload ++ (history.map ChatMessage.toProvider ++ [⟨.user, userMessage⟩]))

/-- The history chosen so far, and how many messages were left out. -/
structure HistorySelection (κ : Type) where
  selected : List (ChatMessage κ)
  omitted : Nat

/-- One step of the selection: the message is taken if the envelope still fits with it. -/
def selectMessage (bundle : ContextBundle κ) (userMessage : PyStr) (maxUnits : Nat)
    (s : HistorySelection κ) (m : ChatMessage κ) : Except ContextErr (HistorySelection κ) := do
  let units ← estimateMessagesUnits
    (envelopeMessages bundle [] (chronological (s.selected ++ [m])) userMessage)
  return if units ≤ maxUnits then ⟨s.selected ++ [m], s.omitted⟩ else ⟨s.selected, s.omitted + 1⟩

/-- All of the history if it fits, else the newest messages that do. -/
def selectHistory (bundle : ContextBundle κ) (userMessage : PyStr) (maxUnits : Nat) :
    Except ContextErr (HistorySelection κ) :=
  if bundle.history.isEmpty then .ok ⟨[], 0⟩
  else do
    let units ← estimateMessagesUnits (envelopeMessages bundle [] bundle.history userMessage)
    if units ≤ maxUnits then return ⟨bundle.history, 0⟩
    else bundle.history.reverse.foldlM (selectMessage bundle userMessage maxUnits) ⟨[], 0⟩

/-- The items chosen so far, and how many of each list were left out. -/
structure ItemSelection where
  selected : List ContextItem
  omittedMemory : Nat
  omittedProfile : Nat
  omittedPersona : Nat

def ItemSelection.omit (s : ItemSelection) : ItemKind → ItemSelection
  | .memory => { s with omittedMemory := s.omittedMemory + 1 }
  | .profile => { s with omittedProfile := s.omittedProfile + 1 }
  | .persona => { s with omittedPersona := s.omittedPersona + 1 }

/-- One step of the selection of items; `c.1` is the list the item comes from. -/
def selectItem (bundle : ContextBundle κ) (history : List (ChatMessage κ)) (userMessage : PyStr)
    (maxUnits : Nat) (s : ItemSelection) (c : ItemKind × ContextItem) :
    Except ContextErr ItemSelection := do
  let payload ← serializeCanonicalJson (.list ((s.selected ++ [c.2]).map ContextItem.toJsonDict))
  let units ← estimateMessagesUnits
    (envelopeMessages bundle [⟨.user, payload⟩] (chronological history) userMessage)
  return if units ≤ maxUnits then { s with selected := s.selected ++ [c.2] } else s.omit c.1

/-- Memories first, then profile, then persona. -/
def contextCandidates (bundle : ContextBundle κ) : List (ItemKind × ContextItem) :=
  bundle.memoryItems.map (.memory, ·) ++ bundle.profileItems.map (.profile, ·)
    ++ bundle.personaItems.map (.persona, ·)

def selectItems (bundle : ContextBundle κ) (history : List (ChatMessage κ)) (userMessage : PyStr)
    (maxUnits : Nat) : Except ContextErr ItemSelection :=
  (contextCandidates bundle).foldlM (selectItem bundle history userMessage maxUnits) ⟨[], 0, 0, 0⟩

/-! ## The envelope -/

/-- `ContextBuildResult`. -/
structure ContextBuildResult where
  messages : List ProviderMessage
  sourceMap : List (PyStr × PyStr)
  truncationReport : TruncationReport
  unitCount : Nat

def bundleRefs (bundle : ContextBundle κ) : List PyStr :=
  bundle.history.map (·.sourceId) ++ bundle.memoryItems.map (·.sourceId)
    ++ bundle.profileItems.map (·.sourceId) ++ bundle.personaItems.map (·.sourceId)

/-- `_validate_unique_refs`. -/
def validateUniqueRefs (bundle : ContextBundle κ) : Except ContextErr Unit :=
  check (decide (bundleRefs bundle).Nodup) .duplicateSourceRef

/-- One entry of the source map: an approved memory has to have its persisted id. -/
def addSource (m : List (PyStr × PyStr)) (i : ContextItem) :
    Except ContextErr (List (PyStr × PyStr)) := do
  check (!(m.map (·.1)).contains i.sourceId) .duplicateSourceRef
  if i.kind = .memory ∧ i.epistemicStatus = .approved then
    check (!i.internalId.isEmpty) .missingApprovedMemoryInternalId
    return m ++ [(i.sourceId, i.internalId)]
  else return m ++ [(i.sourceId, if i.internalId.isEmpty then i.sourceId else i.internalId)]

/-- The codes of what was left out, after those the bundle came with, each once. -/
def truncationCodes (existing : List TruncationCode) (history : Nat) (s : ItemSelection) :
    List TruncationCode :=
  let new := (if 0 < history then [TruncationCode.historyPartial] else [])
    ++ (if 0 < s.omittedMemory then [.memoryOmitted] else [])
    ++ (if 0 < s.omittedProfile then [.profileOmitted] else [])
    ++ (if 0 < s.omittedPersona then [.personaOmitted] else [])
  (existing ++ new).foldl (fun seen c => if c ∈ seen then seen else seen ++ [c]) []

/-- The counts of this call added to those the bundle came with. -/
def aggregateReport (existing : TruncationReport) (h : HistorySelection κ) (s : ItemSelection) :
    TruncationReport where
  codes := truncationCodes existing.codes h.omitted s
  omittedHistoryCount := existing.omittedHistoryCount + h.omitted
  omittedMemoryCount := existing.omittedMemoryCount + s.omittedMemory
  omittedProfileCount := existing.omittedProfileCount + s.omittedProfile
  omittedPersonaCount := existing.omittedPersonaCount + s.omittedPersona
  selectedHistoryCount := existing.selectedHistoryCount + h.selected.length
  selectedMemoryCount := existing.selectedMemoryCount + s.selected.countP (·.kind = .memory)
  selectedProfileCount := existing.selectedProfileCount + s.selected.countP (·.kind = .profile)
  selectedPersonaCount := existing.selectedPersonaCount + s.selected.countP (·.kind = .persona)

/-- The two messages that are always there. -/
def mandatoryMessages (bundle : ContextBundle κ) (userMessage : PyStr) : List ProviderMessage :=
  envelopeMessages bundle [] [] userMessage

/-- What follows the mandatory check: selection, rendering, the source map and the report. -/
def fillEnvelope (bundle : ContextBundle κ) (userMessage : PyStr) (maxUnits : Nat) :
    Except ContextErr ContextBuildResult := do
  let history ← selectHistory bundle userMessage maxUnits
  let items ← selectItems bundle history.selected userMessage maxUnits
  let payload ← serializeUntrustedItems items.selected
  let messages := envelopeMessages bundle
    (if items.selected.isEmpty then [] else [⟨.user, payload⟩])
    (chronological history.selected) userMessage
  let sourceMap ← items.selected.foldlM addSource []
  let unitCount ← estimateMessagesUnits messages
  check (unitCount ≤ maxUnits) .budgetExceededAfterSelection
  return { messages, sourceMap, unitCount,
           truncationReport := aggregateReport bundle.truncationReport history items }

/-- `build_envelope`. -/
def buildEnvelope (bundle : ContextBundle κ) (userMessage : PyStr) (maxUnits : Nat) :
    Except ContextErr ContextBuildResult := do
  check (0 < maxUnits) .invalidMaxUnitsNonPositive
  check (!userMessage.isEmpty) .emptyUserMessage
  validateUniqueRefs bundle
  let mandatoryUnits ← estimateMessagesUnits (mandatoryMessages bundle userMessage)
  check (mandatoryUnits ≤ maxUnits) .mandatoryBudgetExceeded
  fillEnvelope bundle userMessage maxUnits

end Select

/-! ## The mandatory budget -/

theorem serialisable_messages : ∀ ms : List ProviderMessage,
    serialisableElems ⟨true, true⟩ (ms.map ProviderMessage.toVal) = true
  | [] => rfl
  | m :: ms => by
      rw [List.map_cons, serialisableElems, serialisable_messages ms]
      rfl

theorem surrogates_toVal {m : ProviderMessage} (h : encodable m.content = true) :
    weighJson surrogateWeight m.toVal = 0 := by
  have hcontent := (surrogates_quote m.content).mpr h
  have hrole : weigh surrogateWeight (quote m.role.text) = 0 := by cases m.role <;> decide
  have hkeys : weigh surrogateWeight (quote (py "role")) = 0 ∧
      weigh surrogateWeight (quote (py "content")) = 0 := by decide
  have hmarks : surrogateWeight (cp '{') = 0 ∧ surrogateWeight (cp '}') = 0 ∧
      surrogateWeight (cp ':') = 0 ∧ surrogateWeight (cp ',') = 0 := by decide
  simp only [ProviderMessage.toVal, weighJson, weighItems, keyText, hcontent, hrole, hkeys, hmarks]
  rfl

theorem surrogates_messages : ∀ {ms : List ProviderMessage},
    (∀ m ∈ ms, encodable m.content = true) →
    weighElems surrogateWeight (ms.map ProviderMessage.toVal) = 0
  | [], _ => rfl
  | m :: ms, h => by
      rw [List.map_cons, weighElems, surrogates_toVal (h m (by simp)),
        surrogates_messages fun x hx => h x (by simp [hx])]

/-- The units of messages that can be encoded are the bytes of their JSON. -/
theorem estimateMessagesUnits_eq (ms : List ProviderMessage)
    (h : ∀ m ∈ ms, encodable m.content = true) :
    estimateMessagesUnits ms = .ok (jsonBytes (.list (ms.map ProviderMessage.toVal))) := by
  let v : PyVal := .list (ms.map ProviderMessage.toVal)
  have hdump : dumpsCompact true v = some (render [] v.canon) := by
    rw [dumpsCompact, if_pos]
    exact serialisable_messages ms
  have hmarks : surrogateWeight (cp '[') = 0 ∧ surrogateWeight (cp ',') = 0 ∧
      surrogateWeight (cp ']') = 0 := by decide
  have henc : encodable (render [] v.canon) = true := by
    rw [encodable_render_canon]
    simp only [v, weighJson, surrogates_messages h, hmarks]
    rfl
  have hpos : 1 ≤ jsonBytes v := by
    have hopen : utf8Size (cp '[') = 1 := by decide
    simp only [v, weighJson, hopen]
    omega
  have hser : serializeCanonicalJson v = .ok (render [] v.canon) := by
    rw [serializeCanonicalJson, hdump]
  rw [estimateMessagesUnits, show (PyVal.list (ms.map ProviderMessage.toVal)) = v from rfl, hser]
  simp only [bind, Except.bind, henc, if_true, utf8Len_render_canon, Nat.max_eq_right hpos]
  rfl

/-- What the two mandatory messages weigh besides their texts: brackets, keys, roles, quotes. -/
def mandatoryFrame : Nat := 61

theorem jsonBytes_mandatory {κ : Type} (bundle : ContextBundle κ) (userMessage : PyStr) :
    jsonBytes (.list ((mandatoryMessages bundle userMessage).map ProviderMessage.toVal)) =
      utf8Len (escape bundle.trustedPolicy) + utf8Len (escape boundaryRule)
        + utf8Len (escape userMessage) + mandatoryFrame := by
  have hmarks : utf8Size (cp '[') = 1 ∧ utf8Size (cp ']') = 1 ∧ utf8Size (cp '{') = 1 ∧
      utf8Size (cp '}') = 1 ∧ utf8Size (cp ':') = 1 ∧ utf8Size (cp ',') = 1 := by decide
  have htexts : utf8Len (escape (py "role")) = 4 ∧ utf8Len (escape (py "content")) = 7 ∧
      utf8Len (escape (py "system")) = 6 ∧ utf8Len (escape (py "user")) = 4 := by decide
  simp only [mandatoryMessages, envelopeMessages, systemMessage, List.map_nil, List.nil_append,
    List.map_cons, ProviderMessage.toVal, MessageRole.text, jsonBytes, weighJson, weighElems,
    weighItems, keyText, utf8Len_quote, utf8Len_escape_append, hmarks, htexts, List.length_cons,
    List.length_nil, mandatoryFrame]
  omega

/-- The computation does not end in `mandatory_budget_exceeded`. -/
def NeverMandatory {α : Type} (x : Except ContextErr α) : Prop :=
  x ≠ .error (.trusted .mandatoryBudgetExceeded)

namespace NeverMandatory

variable {α β : Type}

theorem ok (a : α) : NeverMandatory (.ok a) := nofun

theorem check {c : Bool} {code : Code} (h : code ≠ .mandatoryBudgetExceeded) :
    NeverMandatory (check c code) := by
  cases c with
  | true => exact ok ()
  | false =>
      intro he
      injection he with he
      injection he with he
      exact h he

theorem bind {x : Except ContextErr α} {f : α → Except ContextErr β} (hx : NeverMandatory x)
    (hf : ∀ a, NeverMandatory (f a)) : NeverMandatory (x >>= f) := by
  cases x with
  | ok a => exact hf a
  | error e =>
      intro he
      have he : Except.error (α := β) e = .error (.trusted .mandatoryBudgetExceeded) := he
      injection he with he
      exact hx (congrArg Except.error he)

theorem foldlM {f : β → α → Except ContextErr β} (hf : ∀ b a, NeverMandatory (f b a)) :
    ∀ (xs : List α) (b : β), NeverMandatory (xs.foldlM f b)
  | [], b => ok b
  | x :: xs, b => by
      rw [List.foldlM_cons]
      exact bind (hf b x) fun b' => foldlM hf xs b'

theorem serialize (v : PyVal) : NeverMandatory (serializeCanonicalJson v) := by
  unfold serializeCanonicalJson
  split
  · exact ok _
  · nofun

theorem estimate (ms : List ProviderMessage) : NeverMandatory (estimateMessagesUnits ms) := by
  refine bind (serialize _) fun text => ?_
  split
  · exact ok _
  · nofun

end NeverMandatory

section Fill

variable {κ : Type} [LinearOrder κ]

/-- After the check the code does not come up again. -/
theorem neverMandatory_fillEnvelope (bundle : ContextBundle κ) (userMessage : PyStr)
    (maxUnits : Nat) : NeverMandatory (fillEnvelope bundle userMessage maxUnits) := by
  have hmessage : ∀ s m, NeverMandatory (selectMessage bundle userMessage maxUnits s m) :=
    fun s m => .bind (.estimate _) fun _ => .ok _
  have hitem : ∀ history s c,
      NeverMandatory (selectItem bundle history userMessage maxUnits s c) :=
    fun history s c => .bind (.serialize _) fun _ => .bind (.estimate _) fun _ => .ok _
  have hsource : ∀ m i, NeverMandatory (addSource m i) := by
    intro m i
    refine .bind (.check (by simp)) fun _ => ?_
    split
    · exact .bind (.check (by simp)) fun _ => .ok _
    · exact .ok _
  refine .bind ?_ fun history => .bind (.foldlM (hitem _) _ _) fun items => .bind ?_ fun payload =>
    .bind (.foldlM hsource _ _) fun sources => .bind (.estimate _) fun units =>
    .bind (.check (by simp)) fun _ => .ok _
  · unfold selectHistory
    split
    · exact .ok _
    · refine .bind (.estimate _) fun units => ?_
      split
      · exact .ok _
      · exact .foldlM hmessage _ _
  · unfold serializeUntrustedItems
    split
    · exact .ok _
    · exact .serialize _

/-- **`build_envelope` refuses for the mandatory budget exactly if the policy, the boundary rule
and the message, escaped and in UTF-8, leave no room for their frame.** -/
theorem buildEnvelope_mandatory_iff {bundle : ContextBundle κ} {userMessage : PyStr}
    {maxUnits : Nat} (hmax : 0 < maxUnits) (hmessage : userMessage ≠ [])
    (hrefs : (bundleRefs bundle).Nodup) (hpolicy : encodable bundle.trustedPolicy = true)
    (henc : encodable userMessage = true) :
    buildEnvelope bundle userMessage maxUnits = .error (.trusted .mandatoryBudgetExceeded) ↔
      maxUnits < utf8Len (escape bundle.trustedPolicy) + utf8Len (escape boundaryRule)
        + utf8Len (escape userMessage) + mandatoryFrame := by
  have hunits := estimateMessagesUnits_eq (mandatoryMessages bundle userMessage) (by
    simp [mandatoryMessages, envelopeMessages, systemMessage, hpolicy, encodable_boundaryRule, henc])
  rw [jsonBytes_mandatory] at hunits
  have hne : (!userMessage.isEmpty) = true := by simpa using hmessage
  have hrest := neverMandatory_fillEnvelope bundle userMessage maxUnits
  simp only [buildEnvelope, validateUniqueRefs, decide_eq_true hmax, decide_eq_true hrefs, hne,
    check_true, hunits, bind_of_ok]
  by_cases hle : utf8Len (escape bundle.trustedPolicy) + utf8Len (escape boundaryRule)
      + utf8Len (escape userMessage) + mandatoryFrame ≤ maxUnits
  · rw [decide_eq_true hle]
    simp only [check_true, Nat.not_lt_of_le hle, iff_false]
    exact hrest
  · rw [decide_eq_false hle]
    simp only [check, Nat.lt_of_not_le hle, iff_true]
    rfl

end Fill

/-! ## References of a bundle -/

theorem map_of_mapM_ok {ε α β γ : Type} {f : α → Except ε β} {g : β → γ} {k : α → γ}
    (hf : ∀ x y, f x = .ok y → g y = k x) : ∀ {xs : List α} {ys : List β}, xs.mapM f = .ok ys →
    ys.map g = xs.map k
  | [], ys, h => by
      cases h
      rfl
  | x :: xs, ys, h => by
      rw [List.mapM_cons] at h
      obtain ⟨y, hy, h⟩ := bind_ok_iff.mp h
      obtain ⟨zs, hzs, h⟩ := bind_ok_iff.mp h
      cases h
      rw [List.map_cons, List.map_cons, hf x y hy, map_of_mapM_ok hf hzs]

theorem ContextItem.create_sourceId {kind : ItemKind} {content : PyStr} {provenance : Provenance}
    {confidence : PyFloat} {status : EpistemicStatus} {sourceId internalId : PyStr}
    {item : ContextItem}
    (h : create kind content provenance confidence status sourceId internalId = .ok item) :
    item.sourceId = sourceId := by
  obtain ⟨_, _, h⟩ := bind_ok_iff.mp h
  split at h
  · obtain ⟨_, _, h⟩ := bind_ok_iff.mp h
    split at h
    · split at h
      · cases h
      · split at h
        · split at h
          · cases h
            rfl
          · cases h
        · cases h
    · cases h
  · cases h

theorem chatMessage_sourceId {x : HistoryRow × Nat} {m : ChatMessage (PyStr ×ₗ Nat)}
    (h : chatMessage x = .ok m) : m.sourceId = py "msg-" ++ natText (x.2 + 1) := by
  obtain ⟨_, _, h⟩ := bind_ok_iff.mp h
  unfold ChatMessage.create at h
  split at h
  · split at h
    · cases h
      rfl
    · cases h
  · cases h

theorem memoryItem_sourceId {x : LocalContextMemory × Nat} {i : ContextItem}
    (h : memoryItem x = .ok i) : i.sourceId = py "mem-" ++ natText (x.2 + 1) := by
  unfold memoryItem at h
  split at h
  · rename_i item hitem
    cases h
    exact ContextItem.create_sourceId hitem
  · cases h

/-- Numbered references under one prefix are distinct. -/
theorem numbered_nodup {α : Type} (p : PyStr) (xs : List α) :
    (xs.zipIdx.map fun x => p ++ natText (x.2 + 1)).Nodup := by
  have hmap : (xs.zipIdx.map fun x => p ++ natText (x.2 + 1)) =
      (xs.zipIdx.map Prod.snd).map fun i => p ++ natText (i + 1) := by
    rw [List.map_map]
    rfl
  rw [hmap, List.zipIdx_map_snd]
  refine List.Nodup.map ?_ List.nodup_range'
  intro i j h
  have := natText_injective (List.append_cancel_left h)
  omega

theorem numbered_take {α : Type} (a b : CodePoint) {p : PyStr} (xs : List α) :
    ∀ r ∈ xs.zipIdx.map (fun x => a :: b :: p ++ natText (x.2 + 1)), r.take 2 = [a, b] := by
  intro r hr
  obtain ⟨x, _, rfl⟩ := List.mem_map.mp hr
  rfl

/-- **The references of a bundle are distinct**: each list has its own prefix. -/
theorem buildContextBundle_refs {policy : PyStr} {loaded : LoadedContextData}
    {bundle : ContextBundle (PyStr ×ₗ Nat)} (h : buildContextBundle policy loaded = .ok bundle) :
    bundle.trustedPolicy = policy ∧ (bundleRefs bundle).Nodup := by
  obtain ⟨history, hhistory, h⟩ := bind_ok_iff.mp h
  obtain ⟨memories, hmemories, h⟩ := bind_ok_iff.mp h
  obtain ⟨profile, hprofile, h⟩ := bind_ok_iff.mp h
  obtain ⟨persona, hpersona, h⟩ := bind_ok_iff.mp h
  split at h
  swap
  · cases h
  cases h
  refine ⟨rfl, ?_⟩
  have hh : history.map (·.sourceId) =
      loaded.historyRows.zipIdx.map fun x => py "msg-" ++ natText (x.2 + 1) :=
    map_of_mapM_ok (fun _ _ => chatMessage_sourceId) hhistory
  have hm : memories.map (·.sourceId) =
      loaded.retrievedMemories.zipIdx.map fun x => py "mem-" ++ natText (x.2 + 1) :=
    map_of_mapM_ok (fun _ _ => memoryItem_sourceId) hmemories
  have hp : profile.map (·.sourceId) = [] ∨ profile.map (·.sourceId) = [py "profile-1"] := by
    unfold profileItems at hprofile
    split at hprofile
    · cases hprofile
      exact .inl rfl
    · split at hprofile
      · cases hprofile
        exact .inl rfl
      · obtain ⟨item, hitem, hprofile⟩ := bind_ok_iff.mp hprofile
        cases hprofile
        exact .inr (by rw [List.map_singleton, ContextItem.create_sourceId hitem])
  have hq : persona.map (·.sourceId) = [] ∨ persona.map (·.sourceId) = [py "persona-1"] := by
    unfold personaItems at hpersona
    split at hpersona
    · cases hpersona
      exact .inl rfl
    · obtain ⟨item, hitem, hpersona⟩ := bind_ok_iff.mp hpersona
      cases hpersona
      exact .inr (by rw [List.map_singleton, ContextItem.create_sourceId hitem])
  -- the first two characters of a reference tell its list
  have hms : ∀ r ∈ history.map (·.sourceId), r.take 2 = py "ms" := by
    rw [hh]
    exact numbered_take _ _ _
  have hme : ∀ r ∈ memories.map (·.sourceId), r.take 2 = py "me" := by
    rw [hm]
    exact numbered_take _ _ _
  have hpr : ∀ r ∈ profile.map (·.sourceId), r.take 2 = py "pr" := by
    intro r hr
    rcases hp with hp | hp
    · rw [hp] at hr
      cases hr
    · rw [hp, List.mem_singleton] at hr
      rw [hr]
      rfl
  have hpe : ∀ r ∈ persona.map (·.sourceId), r.take 2 = py "pe" := by
    intro r hr
    rcases hq with hq | hq
    · rw [hq] at hr
      cases hr
    · rw [hq, List.mem_singleton] at hr
      rw [hr]
      rfl
  have h1 : (history.map (·.sourceId)).Nodup := hh ▸ numbered_nodup _ _
  have h2 : (memories.map (·.sourceId)).Nodup := hm ▸ numbered_nodup _ _
  have h3 : (profile.map (·.sourceId)).Nodup := by
    rcases hp with hp | hp <;> rw [hp] <;> simp
  have h4 : (persona.map (·.sourceId)).Nodup := by
    rcases hq with hq | hq <;> rw [hq] <;> simp
  have hne : ∀ {c c' : PyStr} {x y : PyStr}, x.take 2 = c → y.take 2 = c' → c ≠ c' → x ≠ y := by
    rintro c c' x y rfl rfl hcc rfl
    exact hcc rfl
  simp only [bundleRefs]
  rw [List.nodup_append, List.nodup_append, List.nodup_append]
  refine ⟨⟨⟨h1, h2, ?_⟩, h3, ?_⟩, h4, ?_⟩
  · intro x hx y hy
    exact hne (hms x hx) (hme y hy) (by decide)
  · intro x hx y hy
    rcases List.mem_append.mp hx with hx | hx
    · exact hne (hms x hx) (hpr y hy) (by decide)
    · exact hne (hme x hx) (hpr y hy) (by decide)
  · intro x hx y hy
    rcases List.mem_append.mp hx with hx | hx
    · rcases List.mem_append.mp hx with hx | hx
      · exact hne (hms x hx) (hpe y hy) (by decide)
      · exact hne (hme x hx) (hpe y hy) (by decide)
    · exact hne (hpr x hx) (hpe y hy) (by decide)

end Katherine.Context
