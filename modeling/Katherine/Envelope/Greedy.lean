import Katherine.Envelope.Budget
import Katherine.Lib.Greedy
import Mathlib.Algebra.Order.BigOperators.Group.List
import Mathlib.Algebra.Order.Ring.Nat

/-!
# The selection is greedy and maximal

`build_envelope` decides message by message and item by item whether the envelope still
fits, measuring all of it every time. Its size is not a sum over what is selected: items
share one block, the block is JSON inside a JSON string, and its message appears with the
first item. All the same it grows with the selection wherever something is added
(`selectionBytes_mono`), and that is what a greedy pass needs: the check whether all of
the history fits changes nothing, and nothing that was left out can be put back.

The passes are also what tells which bundles an envelope can be built for at all: every
message and every item is measured once, so all their texts can be encoded
(`buildEnvelope_encodable`).
-/

namespace Katherine.Context

open Py Local

/-! ## Sizes that grow -/

/-- The bytes a code point takes inside the string of a string. -/
def escapedSize (c : CodePoint) : Nat := utf8Len (escapeChar c)

theorem utf8Len_escape (s : PyStr) : utf8Len (escape s) = weigh escapedSize s := by
  induction s with
  | nil => rfl
  | cons c s ih =>
      have hcons : escape (c :: s) = escapeChar c ++ escape s := by simp [escape]
      have happend : utf8Len (escapeChar c ++ escape s) = utf8Len (escapeChar c) + utf8Len (escape s) :=
        weigh_append _ _
      rw [hcons, happend, ih, weigh_cons, escapedSize]

theorem map_subperm {α β : Type} {f : α → β} {xs ys : List α} (h : xs.Subperm ys) :
    (xs.map f).Subperm (ys.map f) := by
  obtain ⟨zs, hperm, hsub⟩ := h
  exact ⟨zs.map f, hperm.map f, hsub.map f⟩

/-- A list that contains another weighs no less. -/
theorem weighJson_subperm {w : CodePoint → Nat} {xs ys : List PyVal} (h : xs.Subperm ys) :
    weighJson w (.list xs) ≤ weighJson w (.list ys) := by
  obtain ⟨zs, hperm, hsub⟩ := h
  have hsum : (zs.map (weighJson w)).sum ≤ (ys.map (weighJson w)).sum :=
    (hsub.map (weighJson w)).sum_le_sum fun _ _ => Nat.zero_le _
  have hcommas : (zs.length - 1) * w (cp ',') ≤ (ys.length - 1) * w (cp ',') :=
    Nat.mul_le_mul_right _ (Nat.sub_le_sub_right hsub.length_le 1)
  rw [← weighJson_perm hperm, weighJson, weighJson, weighElems_eq_sum, weighElems_eq_sum]
  omega

theorem messageBytes_subperm {ms ns : List ProviderMessage} (h : ms.Subperm ns) :
    messageBytes ms ≤ messageBytes ns :=
  weighJson_subperm (map_subperm h)

/-- The content of a message weighs what its text does, wherever the message stands. -/
theorem messageBytes_content_add (ms ns : List ProviderMessage) (role : MessageRole) (s t : PyStr) :
    messageBytes (ms ++ ⟨role, s⟩ :: ns) + utf8Len (escape t) =
      messageBytes (ms ++ ⟨role, t⟩ :: ns) + utf8Len (escape s) := by
  have hmessage : jsonBytes (ProviderMessage.toVal ⟨role, s⟩) + utf8Len (escape t) =
      jsonBytes (ProviderMessage.toVal ⟨role, t⟩) + utf8Len (escape s) := by
    simp only [ProviderMessage.toVal, jsonBytes, weighJson, weighItems, keyText, utf8Len_quote,
      List.length_cons, List.length_nil]
    omega
  simp only [messageBytes, jsonBytes, weighJson, weighElems_eq_sum, List.map_append, List.map_cons,
    List.sum_append, List.sum_cons, List.length_append, List.length_cons] at hmessage ⊢
  omega

/-- A message with a longer content weighs no less. -/
theorem messageBytes_content (ms ns : List ProviderMessage) (role : MessageRole) {s t : PyStr}
    (h : utf8Len (escape s) ≤ utf8Len (escape t)) :
    messageBytes (ms ++ ⟨role, s⟩ :: ns) ≤ messageBytes (ms ++ ⟨role, t⟩ :: ns) := by
  have := messageBytes_content_add ms ns role s t
  omega

/-! ## Texts that were measured -/

theorem surrogates_elems {xs : List PyVal} :
    weighJson surrogateWeight (.list xs) = 0 ↔ ∀ x ∈ xs, weighJson surrogateWeight x = 0 := by
  have hmarks : surrogateWeight (cp '[') = 0 ∧ surrogateWeight (cp ',') = 0 ∧
      surrogateWeight (cp ']') = 0 := by decide
  simp only [weighJson, hmarks, Nat.mul_zero, Nat.zero_add, Nat.add_zero, weighElems_eq_sum,
    List.sum_eq_zero_iff_forall_eq_nat, List.forall_mem_map]

theorem surrogates_toVal_iff (m : ProviderMessage) :
    weighJson surrogateWeight m.toVal = 0 ↔ encodable m.content = true := by
  refine ⟨fun h => ?_, surrogates_toVal⟩
  rw [← surrogates_quote]
  simp only [ProviderMessage.toVal, weighJson, weighItems] at h
  omega

theorem surrogates_toJsonDict_iff (i : ContextItem) :
    weighJson surrogateWeight i.toJsonDict = 0 ↔ encodable i.content = true ∧ encodable i.sourceId = true := by
  refine ⟨fun h => ?_, fun h => surrogates_toJsonDict h.1 h.2⟩
  rw [← surrogates_quote, ← surrogates_quote]
  simp only [ContextItem.toJsonDict, weighJson, weighItems] at h
  omega

/-- **Messages are measured exactly if all their contents can be encoded.** -/
theorem estimateMessagesUnits_eq_ok {ms : List ProviderMessage} {n : Nat} :
    estimateMessagesUnits ms = .ok n ↔ (∀ m ∈ ms, encodable m.content = true) ∧ n = messageBytes ms := by
  constructor
  · intro h
    have henc : ∀ m ∈ ms, encodable m.content = true := by
      obtain ⟨text, htext, h⟩ := bind_ok_iff.mp h
      have hdump : dumpsCompact true (.list (ms.map ProviderMessage.toVal)) =
          some (render [] (PyVal.list (ms.map ProviderMessage.toVal)).canon) := by
        rw [dumpsCompact, if_pos]
        exact serialisable_messages ms
      rw [serializeCanonicalJson, hdump] at htext
      cases htext
      split at h
      · next hall =>
          intro m hm
          rw [encodable_render_canon, surrogates_elems] at hall
          exact (surrogates_toVal_iff m).mp (hall _ (List.mem_map_of_mem hm))
      · cases h
    rw [estimateMessagesUnits_eq ms henc] at h
    exact ⟨henc, (Except.ok.inj h).symm⟩
  · rintro ⟨henc, rfl⟩
    exact estimateMessagesUnits_eq ms henc

/-- The text of a block of items. -/
def blockText (items : List ContextItem) : PyStr :=
  render [] (PyVal.list (items.map ContextItem.toJsonDict)).canon

theorem serialize_items_eq (items : List ContextItem) :
    serializeCanonicalJson (.list (items.map ContextItem.toJsonDict)) = .ok (blockText items) := by
  have hdump : dumpsCompact true (.list (items.map ContextItem.toJsonDict)) = some (blockText items) := by
    rw [dumpsCompact, if_pos]
    · rfl
    · exact serialisable_items items
  rw [serializeCanonicalJson, hdump]

/-- A block can be encoded exactly if its items can. -/
theorem encodable_blockText (items : List ContextItem) : encodable (blockText items) = true ↔
    ∀ i ∈ items, encodable i.content = true ∧ encodable i.sourceId = true := by
  simp only [blockText, encodable_render_canon, surrogates_elems, List.forall_mem_map,
    surrogates_toJsonDict_iff]

/-- More items make a longer block. -/
theorem blockText_subperm {items items' : List ContextItem} (h : items.Subperm items') :
    utf8Len (escape (blockText items)) ≤ utf8Len (escape (blockText items')) := by
  rw [utf8Len_escape, utf8Len_escape, blockText, blockText, weigh_render, weigh_render,
    weighJson_canon, weighJson_canon]
  exact weighJson_subperm (map_subperm h)

/-! ## What a selection renders to -/

section Greedy

variable {κ : Type}

/-- The message of the block, if there is an item in it. -/
def itemBlock (items : List ContextItem) : List ProviderMessage :=
  if items.isEmpty then [] else [⟨.user, blockText items⟩]

/-- The bytes of the envelope with this selection. -/
def selectionBytes (bundle : ContextBundle κ) (userMessage : PyStr) (history : List (ChatMessage κ))
    (items : List ContextItem) : Nat :=
  messageBytes (envelopeMessages bundle (itemBlock items) history userMessage)

/-- All texts of the envelope with this selection can be encoded. -/
structure Encodable (bundle : ContextBundle κ) (userMessage : PyStr) (history : List (ChatMessage κ))
    (items : List ContextItem) : Prop where
  policy : encodable bundle.trustedPolicy = true
  user : encodable userMessage = true
  history : ∀ m ∈ history, encodable m.content = true
  items : ∀ i ∈ items, encodable i.content = true ∧ encodable i.sourceId = true

variable {bundle : ContextBundle κ} {userMessage : PyStr} {maxUnits : Nat}

theorem Encodable.mono {history history' : List (ChatMessage κ)} {items items' : List ContextItem}
    (h : Encodable bundle userMessage history' items') (hh : history ⊆ history')
    (hi : items ⊆ items') : Encodable bundle userMessage history items where
  policy := h.policy
  user := h.user
  history m hm := h.history m (hh hm)
  items i hm := h.items i (hi hm)

theorem encodable_envelope {history : List (ChatMessage κ)} {items : List ContextItem} :
    (∀ m ∈ envelopeMessages bundle (itemBlock items) history userMessage, encodable m.content = true) ↔
      Encodable bundle userMessage history items := by
  have hblock : (∀ m ∈ itemBlock items, encodable m.content = true) ↔
      ∀ i ∈ items, encodable i.content = true ∧ encodable i.sourceId = true := by
    cases items with
    | nil => exact ⟨fun _ => List.forall_mem_nil _, fun _ => List.forall_mem_nil _⟩
    | cons i items =>
        have hcons : itemBlock (i :: items) = [⟨.user, blockText (i :: items)⟩] := rfl
        rw [hcons, List.forall_mem_singleton, encodable_blockText]
  have hhistory : (∀ m ∈ history.map ChatMessage.toProvider, encodable m.content = true) ↔
      ∀ m ∈ history, encodable m.content = true := List.forall_mem_map
  simp only [envelopeMessages, List.forall_mem_cons, List.forall_mem_append, hblock, hhistory,
    systemMessage, encodable_append, encodable_boundaryRule, Bool.and_true, List.not_mem_nil,
    false_imp_iff, implies_true, and_true]
  constructor
  · rintro ⟨hpolicy, hitems, hhistory, huser⟩
    exact ⟨hpolicy, huser, hhistory, hitems⟩
  · intro h
    exact ⟨h.policy, h.items, h.history, h.user⟩

/-- **An envelope grows with its selection**, wherever something is added. -/
theorem selectionBytes_mono {history history' : List (ChatMessage κ)} {items items' : List ContextItem}
    (hh : history.Subperm history') (hi : items.Subperm items') :
    selectionBytes bundle userMessage history items ≤ selectionBytes bundle userMessage history' items' := by
  have hrest : ∀ block : List ProviderMessage,
      messageBytes (envelopeMessages bundle block history userMessage) ≤
        messageBytes (envelopeMessages bundle block history' userMessage) := by
    intro block
    obtain ⟨zs, hperm, hsub⟩ := map_subperm (f := ChatMessage.toProvider) hh
    refine messageBytes_subperm ⟨systemMessage bundle :: (block ++ (zs ++ [⟨.user, userMessage⟩])), ?_, ?_⟩
    · exact .cons _ (.append_left _ (hperm.append_right _))
    · exact ((List.Sublist.refl block).append (hsub.append (List.Sublist.refl _))).cons_cons _
  cases items with
  | nil =>
      -- the block may appear
      refine (hrest []).trans (messageBytes_subperm (List.Sublist.subperm ?_))
      exact (List.sublist_append_right _ _).cons_cons _
  | cons i items =>
      cases items' with
      | nil => exact absurd (List.subperm_nil.mp hi) (List.cons_ne_nil _ _)
      | cons i' items' =>
          refine (hrest _).trans ?_
          exact messageBytes_content [systemMessage bundle] _ .user (blockText_subperm hi)

variable [LinearOrder κ]

/-- The messages of an envelope with this selection, as they are rendered. -/
def renderSelection (bundle : ContextBundle κ) (userMessage : PyStr) (history : List (ChatMessage κ))
    (items : List ContextItem) : Except ContextErr (List ProviderMessage) := do
  let payload ← serializeUntrustedItems items
  return envelopeMessages bundle (if items.isEmpty then [] else [⟨.user, payload⟩])
    (chronological history) userMessage

/-- The units of an envelope with this selection. -/
def selectionUnits (bundle : ContextBundle κ) (userMessage : PyStr) (history : List (ChatMessage κ))
    (items : List ContextItem) : Except ContextErr Nat :=
  renderSelection bundle userMessage history items >>= estimateMessagesUnits

/-- An envelope with this selection is within the budget. -/
def selectionFits (bundle : ContextBundle κ) (userMessage : PyStr) (maxUnits : Nat)
    (history : List (ChatMessage κ)) (items : List ContextItem) : Bool :=
  match selectionUnits bundle userMessage history items with
  | .ok units => units ≤ maxUnits
  | .error _ => false

theorem renderSelection_eq (history : List (ChatMessage κ)) (items : List ContextItem) :
    renderSelection bundle userMessage history items =
      .ok (envelopeMessages bundle (itemBlock items) (chronological history) userMessage) := by
  cases items with
  | nil => rfl
  | cons i items =>
      have hpayload : serializeUntrustedItems (i :: items) = .ok (blockText (i :: items)) :=
        serialize_items_eq (i :: items)
      rw [renderSelection, hpayload]
      rfl

/-- **What a selection measures**, if it can be measured. -/
theorem selectionUnits_eq_ok {history : List (ChatMessage κ)} {items : List ContextItem} {n : Nat} :
    selectionUnits bundle userMessage history items = .ok n ↔
      Encodable bundle userMessage history items ∧ n = selectionBytes bundle userMessage history items := by
  have hmem : Encodable bundle userMessage (chronological history) items ↔
      Encodable bundle userMessage history items :=
    ⟨fun h => h.mono (perm_chronological history).symm.subset (List.Subset.refl _),
      fun h => h.mono (perm_chronological history).subset (List.Subset.refl _)⟩
  rw [selectionUnits, renderSelection_eq]
  exact estimateMessagesUnits_eq_ok.trans (by
    rw [encodable_envelope, hmem, messageBytes_chronological, selectionBytes])

theorem selectionFits_iff {history : List (ChatMessage κ)} {items : List ContextItem} :
    selectionFits bundle userMessage maxUnits history items = true ↔
      Encodable bundle userMessage history items ∧
        selectionBytes bundle userMessage history items ≤ maxUnits := by
  cases hunits : selectionUnits bundle userMessage history items with
  | ok n =>
      obtain ⟨henc, rfl⟩ := selectionUnits_eq_ok.mp hunits
      rw [selectionFits, hunits]
      exact ⟨fun h => ⟨henc, of_decide_eq_true h⟩, fun h => decide_eq_true h.2⟩
  | error e =>
      rw [selectionFits, hunits]
      refine ⟨nofun, fun ⟨henc, _⟩ => ?_⟩
      rw [selectionUnits_eq_ok.mpr ⟨henc, rfl⟩] at hunits
      cases hunits

/-- A selection that was measured fits exactly if its units do. -/
theorem selectionFits_of_units (maxUnits : Nat) {history : List (ChatMessage κ)}
    {items : List ContextItem} {n : Nat}
    (h : selectionUnits bundle userMessage history items = .ok n) :
    selectionFits bundle userMessage maxUnits history items = decide (n ≤ maxUnits) := by
  rw [selectionFits, h]

/-- A selection that does not fit and can be measured is too large. -/
theorem exists_too_large {history : List (ChatMessage κ)} {items : List ContextItem}
    (henc : Encodable bundle userMessage history items)
    (h : selectionFits bundle userMessage maxUnits history items = false) :
    ∃ n, selectionUnits bundle userMessage history items = .ok n ∧ maxUnits < n := by
  have hunits := selectionUnits_eq_ok.mpr ⟨henc, rfl⟩
  rw [selectionFits_of_units maxUnits hunits, decide_eq_false_iff_not] at h
  exact ⟨_, hunits, by omega⟩

theorem selectionFits_mono {history history' : List (ChatMessage κ)} {items items' : List ContextItem}
    (hh : history.Subperm history') (hi : items.Subperm items')
    (h : selectionFits bundle userMessage maxUnits history' items' = true) :
    selectionFits bundle userMessage maxUnits history items = true := by
  obtain ⟨henc, hle⟩ := selectionFits_iff.mp h
  exact selectionFits_iff.mpr ⟨henc.mono hh.subset hi.subset, (selectionBytes_mono hh hi).trans hle⟩

theorem hereditary_history (items : List ContextItem) :
    Greedy.Hereditary fun history => selectionFits bundle userMessage maxUnits history items :=
  fun _ _ hsub h => selectionFits_mono hsub (List.Subperm.refl _) h

theorem hereditary_items (history : List (ChatMessage κ)) :
    Greedy.Hereditary (selectionFits bundle userMessage maxUnits history) :=
  fun _ _ hsub h => selectionFits_mono (List.Subperm.refl _) hsub h

/-! ## The two passes -/

/-- The pass over the history is the greedy one. -/
theorem foldlM_selectMessage (maxUnits : Nat) {ms : List (ChatMessage κ)} (s : HistorySelection κ)
    (henc : Encodable bundle userMessage (s.selected ++ ms) []) :
    ∃ omitted, ms.foldlM (selectMessage bundle userMessage maxUnits) s =
      .ok ⟨Greedy.greedyFrom (fun history => selectionFits bundle userMessage maxUnits history [])
        s.selected ms, omitted⟩ := by
  induction ms generalizing s with
  | nil => exact ⟨s.omitted, rfl⟩
  | cons m ms ih =>
      have hsub : (s.selected ++ [m]).Sublist (s.selected ++ m :: ms) :=
        (List.Sublist.refl _).append ((List.nil_sublist ms).cons_cons m)
      have hunits := selectionUnits_eq_ok.mpr ⟨henc.mono hsub.subset (List.Subset.refl _), rfl⟩
      have hfits := selectionFits_of_units maxUnits hunits
      have hstep : selectMessage bundle userMessage maxUnits s m =
          .ok (if selectionFits bundle userMessage maxUnits (s.selected ++ [m]) [] = true
            then ⟨s.selected ++ [m], s.omitted⟩ else ⟨s.selected, s.omitted + 1⟩) := by
        have htest : estimateMessagesUnits (envelopeMessages bundle []
            (chronological (s.selected ++ [m])) userMessage) = _ := hunits
        rw [selectMessage, htest, hfits]
        simp only [bind, Except.bind, decide_eq_true_eq]
        rfl
      rw [List.foldlM_cons, hstep]
      by_cases h : selectionFits bundle userMessage maxUnits (s.selected ++ [m]) [] = true
      · rw [if_pos h, Greedy.greedyFrom_cons_of_fits h]
        refine ih ⟨s.selected ++ [m], s.omitted⟩ ?_
        rw [List.append_assoc]
        exact henc
      · rw [if_neg h, Greedy.greedyFrom_cons_of_not_fits h]
        refine ih ⟨s.selected, s.omitted + 1⟩ (henc.mono ?_ (List.Subset.refl _))
        exact ((List.Sublist.refl _).append (List.sublist_cons_self m ms)).subset

/-- One step of the pass over the items. -/
theorem selectItem_eq (maxUnits : Nat) {history : List (ChatMessage κ)} {s : ItemSelection}
    {c : ItemKind × ContextItem} (henc : Encodable bundle userMessage history (s.selected ++ [c.2])) :
    selectItem bundle history userMessage maxUnits s c =
      .ok (if selectionFits bundle userMessage maxUnits history (s.selected ++ [c.2]) = true
        then { s with selected := s.selected ++ [c.2] } else s.omit c.1) := by
  have hunits := selectionUnits_eq_ok.mpr ⟨henc, rfl⟩
  have hfits := selectionFits_of_units maxUnits hunits
  have hblock : itemBlock (s.selected ++ [c.2]) = [⟨.user, blockText (s.selected ++ [c.2])⟩] := by
    rw [itemBlock, if_neg]
    simp
  rw [selectionUnits, renderSelection_eq, hblock] at hunits
  have htest : estimateMessagesUnits (envelopeMessages bundle
      [⟨.user, blockText (s.selected ++ [c.2])⟩] (chronological history) userMessage) =
      .ok (selectionBytes bundle userMessage history (s.selected ++ [c.2])) := hunits
  rw [selectItem, serialize_items_eq, hfits]
  simp only [bind, Except.bind, htest, decide_eq_true_eq]
  rfl

/-- So is the pass over the items. -/
theorem foldlM_selectItem (maxUnits : Nat) {history : List (ChatMessage κ)}
    {cs : List (ItemKind × ContextItem)} (s : ItemSelection) (henc : Encodable bundle userMessage history (s.selected ++ cs.map (·.2))) :
    ∃ s', cs.foldlM (selectItem bundle history userMessage maxUnits) s = .ok s' ∧
      s'.selected = Greedy.greedyFrom (selectionFits bundle userMessage maxUnits history)
        s.selected (cs.map (·.2)) := by
  induction cs generalizing s with
  | nil => exact ⟨s, rfl, rfl⟩
  | cons c cs ih =>
      rw [List.map_cons] at henc ⊢
      have hsub : (s.selected ++ [c.2]).Sublist (s.selected ++ c.2 :: cs.map (·.2)) :=
        (List.Sublist.refl _).append ((List.nil_sublist _).cons_cons c.2)
      rw [List.foldlM_cons, selectItem_eq maxUnits (henc.mono (List.Subset.refl _) hsub.subset)]
      by_cases h : selectionFits bundle userMessage maxUnits history (s.selected ++ [c.2]) = true
      · rw [if_pos h, Greedy.greedyFrom_cons_of_fits h]
        refine ih { s with selected := s.selected ++ [c.2] } ?_
        rw [List.append_assoc]
        exact henc
      · rw [if_neg h, Greedy.greedyFrom_cons_of_not_fits h, ← omit_selected s c.1]
        refine ih (s.omit c.1) (henc.mono (List.Subset.refl _) ?_)
        rw [omit_selected]
        exact ((List.Sublist.refl _).append (List.sublist_cons_self c.2 _)).subset

/-! ## Bundles an envelope is built for -/

/-- An item that was considered can be encoded. -/
theorem selectItems_encodable {history : List (ChatMessage κ)} {s : ItemSelection}
    (h : selectItems bundle history userMessage maxUnits = .ok s) :
    ∀ i ∈ bundle.memoryItems ++ bundle.profileItems ++ bundle.personaItems,
      encodable i.content = true ∧ encodable i.sourceId = true := by
  rw [← map_contextCandidates, List.forall_mem_map]
  refine foldlM_keeps (P := fun seen _ => ∀ c ∈ seen, encodable c.2.content = true ∧
    encodable c.2.sourceId = true) [] (List.forall_mem_nil _) ?_ h
  intro seen s c s' hstep hseen
  obtain ⟨payload, hpayload, hstep⟩ := bind_ok_iff.mp hstep
  obtain ⟨units, hunits, _⟩ := bind_ok_iff.mp hstep
  rw [serialize_items_eq] at hpayload
  cases hpayload
  obtain ⟨henc, _⟩ := estimateMessagesUnits_eq_ok.mp hunits
  have hblock : encodable (blockText (s.selected ++ [c.2])) = true :=
    henc ⟨.user, blockText (s.selected ++ [c.2])⟩ (List.mem_cons_of_mem _ List.mem_cons_self)
  rw [encodable_blockText] at hblock
  intro d hd
  rcases List.mem_append.mp hd with hd | hd
  · exact hseen d hd
  · rw [List.mem_singleton.mp hd]
    exact hblock c.2 (List.mem_append_right _ (List.mem_singleton_self _))

/-- **An envelope is built only from texts that can be encoded.** -/
theorem buildEnvelope_encodable {r : ContextBuildResult}
    (h : buildEnvelope bundle userMessage maxUnits = .ok r) :
    Encodable bundle userMessage bundle.history
      (bundle.memoryItems ++ bundle.profileItems ++ bundle.personaItems) := by
  simp only [buildEnvelope, fillEnvelope, bind_ok_iff, check_eq_ok] at h
  obtain ⟨_, _, _, _, _, _, n, hmandatory, _, _, hs, hhistory, s, hitems, _⟩ := h
  have hframe : Encodable bundle userMessage [] [] :=
    encodable_envelope.mp (estimateMessagesUnits_eq_ok.mp hmandatory).1
  refine ⟨hframe.policy, hframe.user, ?_, selectItems_encodable hitems⟩
  unfold selectHistory at hhistory
  split at hhistory
  · next hempty =>
      rw [List.isEmpty_iff.mp hempty]
      exact List.forall_mem_nil _
  · obtain ⟨n, hunits, _⟩ := bind_ok_iff.mp hhistory
    have hall : Encodable bundle userMessage bundle.history [] :=
      encodable_envelope.mp (estimateMessagesUnits_eq_ok.mp hunits).1
    exact hall.history

/-! ## The selection -/

/-- Messages with different keys are rendered in one order. -/
theorem chronological_of_perm {history history' : List (ChatMessage κ)} (h : history.Perm history')
    (hkeys : (history.map (·.sortKey)).Nodup) : chronological history = chronological history' := by
  have hmem : ∀ {m : ChatMessage κ}, m ∈ chronological history' → m ∈ history := by
    intro m hm
    exact h.mem_iff.mpr (mem_chronological.mp hm)
  refine List.Perm.eq_of_pairwise ?_
    (List.pairwise_insertionSort _ _) (List.pairwise_insertionSort _ _)
    ((perm_chronological history).trans (h.trans (perm_chronological history').symm))
  intro a b ha hb hab hba
  exact List.inj_on_of_nodup_map hkeys (mem_chronological.mp ha) (hmem hb) (le_antisymm hab hba)

/-- **What is selected for an envelope.** -/
structure GreedyMaximal (bundle : ContextBundle κ) (userMessage : PyStr) (maxUnits : Nat)
    (r : ContextBuildResult) (history : List (ChatMessage κ)) (items : List ContextItem) : Prop where
  /-- The history and the items are those that were selected and are rendered. -/
  selectedHistory : ∃ omitted, selectHistory bundle userMessage maxUnits = .ok ⟨history, omitted⟩
  selectedItems : ∃ s, selectItems bundle history userMessage maxUnits = .ok s ∧ s.selected = items
  rendered : renderSelection bundle userMessage history items = .ok r.messages
  /-- The message by message pass would have selected the same history, whether it ran or not. -/
  incremental : ∃ s, bundle.history.reverse.foldlM (selectMessage bundle userMessage maxUnits) ⟨[], 0⟩ = .ok s ∧
    history.Perm s.selected
  greedyHistory : history.Perm (Greedy.greedy
    (fun history => selectionFits bundle userMessage maxUnits history []) bundle.history.reverse)
  /-- Unless two messages have one key, it is also rendered in the same order. -/
  ordered : (history.map (·.sortKey)).Nodup → chronological history = chronological (Greedy.greedy
    (fun history => selectionFits bundle userMessage maxUnits history []) bundle.history.reverse)
  greedyItems : items = Greedy.greedy (selectionFits bundle userMessage maxUnits history)
    (bundle.memoryItems ++ bundle.profileItems ++ bundle.personaItems)
  /-- One message more, wherever it is put, is too much. -/
  maximalHistory : ∀ m ∈ bundle.history, m ∉ history → ∀ history', history'.Perm (m :: history) →
    ∃ n, selectionUnits bundle userMessage history' items = .ok n ∧ maxUnits < n
  /-- So is one item more. -/
  maximalItems : ∀ i ∈ bundle.memoryItems ++ bundle.profileItems ++ bundle.personaItems, i ∉ items →
    ∀ items', items'.Perm (i :: items) →
      ∃ n, selectionUnits bundle userMessage history items' = .ok n ∧ maxUnits < n

theorem incremental_history (maxUnits : Nat) (henc : Encodable bundle userMessage bundle.history []) :
    ∃ omitted, bundle.history.reverse.foldlM (selectMessage bundle userMessage maxUnits) ⟨[], 0⟩ =
      .ok ⟨Greedy.greedy (fun history => selectionFits bundle userMessage maxUnits history [])
        bundle.history.reverse, omitted⟩ :=
  foldlM_selectMessage maxUnits ⟨[], 0⟩ (henc.mono bundle.history.reverse_perm.subset (List.Subset.refl _))

/-- **Testing all of the history first changes nothing.** -/
theorem selectHistory_greedy {s : HistorySelection κ} (henc : Encodable bundle userMessage bundle.history [])
    (h : selectHistory bundle userMessage maxUnits = .ok s) :
    s.selected.Perm (Greedy.greedy
      (fun history => selectionFits bundle userMessage maxUnits history []) bundle.history.reverse) := by
  have hrev := bundle.history.reverse_perm
  unfold selectHistory at h
  split at h
  · next hempty =>
      cases h
      rw [List.isEmpty_iff.mp hempty]
      exact List.Perm.nil
  · obtain ⟨units, hunits, h⟩ := bind_ok_iff.mp h
    split at h
    · next hall =>
        -- all of it fits, in either order
        cases h
        obtain ⟨_, rfl⟩ := estimateMessagesUnits_eq_ok.mp hunits
        have hfits : selectionFits bundle userMessage maxUnits bundle.history.reverse [] = true := by
          rw [(hereditary_history []).perm hrev]
          exact selectionFits_iff.mpr ⟨henc, hall⟩
        rw [Greedy.greedy_of_fits (hereditary_history []) hfits]
        exact hrev.symm
    · obtain ⟨omitted, hincremental⟩ := incremental_history maxUnits henc
      have hsame := hincremental.symm.trans h
      cases hsame
      exact List.Perm.refl _

theorem selectItems_greedy {history : List (ChatMessage κ)} {s : ItemSelection}
    (henc : Encodable bundle userMessage history
      (bundle.memoryItems ++ bundle.profileItems ++ bundle.personaItems))
    (h : selectItems bundle history userMessage maxUnits = .ok s) :
    s.selected = Greedy.greedy (selectionFits bundle userMessage maxUnits history)
      (bundle.memoryItems ++ bundle.profileItems ++ bundle.personaItems) := by
  rw [← map_contextCandidates] at henc ⊢
  obtain ⟨s', hfold, hselected⟩ := foldlM_selectItem maxUnits ⟨[], 0, 0, 0⟩ henc
  have hsame := hfold.symm.trans h
  cases hsame
  exact hselected

/-- A message that was left out does not fit beside the messages that were taken, and even less
beside the items as well. -/
theorem selectionFits_history_more {history history' : List (ChatMessage κ)} {m : ChatMessage κ}
    (hgreedy : history.Perm (Greedy.greedy
      (fun history => selectionFits bundle userMessage maxUnits history []) bundle.history.reverse))
    (hm : m ∈ bundle.history) (hout : m ∉ history) (hmore : history'.Perm (m :: history))
    (items : List ContextItem) : selectionFits bundle userMessage maxUnits history' items = false := by
  have hblocked := Greedy.greedy_maximal (hereditary_history []) (List.mem_reverse.mpr hm)
    fun hin => hout (hgreedy.mem_iff.mpr hin)
  rw [← Bool.not_eq_true] at hblocked ⊢
  intro hfits
  have hsub := ((hgreedy.cons m).symm.trans hmore.symm).subperm
  exact hblocked (selectionFits_mono hsub List.nil_subperm hfits)

theorem selectionFits_items_more {history : List (ChatMessage κ)} {items items' all : List ContextItem}
    {i : ContextItem} (hgreedy : items = Greedy.greedy (selectionFits bundle userMessage maxUnits history) all)
    (hi : i ∈ all) (hout : i ∉ items) (hmore : items'.Perm (i :: items)) :
    selectionFits bundle userMessage maxUnits history items' = false := by
  rw [(hereditary_items history).perm hmore]
  rw [hgreedy] at hout ⊢
  exact Greedy.greedy_maximal (hereditary_items history) hi hout

/-- **The selection of an envelope is greedy and maximal.** -/
theorem envelope_greedy_maximal {r : ContextBuildResult}
    (h : buildEnvelope bundle userMessage maxUnits = .ok r) :
    ∃ history items, GreedyMaximal bundle userMessage maxUnits r history items := by
  have henc := buildEnvelope_encodable h
  simp only [buildEnvelope, fillEnvelope, bind_ok_iff, check_eq_ok] at h
  obtain ⟨_, _, _, _, _, _, _, _, _, _, s, hhistory, t, hitems, payload, hpayload, _, _, _, _, _, _, h⟩ := h
  cases h
  have hnone := henc.mono (List.Subset.refl _) (List.nil_subset _)
  have hgreedyHistory := selectHistory_greedy hnone hhistory
  have hhistorySub : s.selected ⊆ bundle.history := by
    intro m hm
    exact List.mem_reverse.mp ((Greedy.greedy_sublist _).subset (hgreedyHistory.mem_iff.mp hm))
  have hgreedyItems := selectItems_greedy (henc.mono hhistorySub (List.Subset.refl _)) hitems
  have hitemsSub : t.selected ⊆ bundle.memoryItems ++ bundle.profileItems ++ bundle.personaItems := by
    rw [hgreedyItems]
    exact (Greedy.greedy_sublist _).subset
  obtain ⟨omitted, hincremental⟩ := incremental_history maxUnits hnone
  refine ⟨s.selected, t.selected, ?_⟩
  exact
    { selectedHistory := ⟨s.omitted, hhistory⟩
      selectedItems := ⟨t, hitems, rfl⟩
      rendered := by
        rw [renderSelection, hpayload]
        rfl
      incremental := ⟨_, hincremental, hgreedyHistory⟩
      greedyHistory := hgreedyHistory
      ordered := chronological_of_perm hgreedyHistory
      greedyItems := hgreedyItems
      maximalHistory := by
        intro m hm hout history' hmore
        refine exists_too_large (henc.mono ?_ hitemsSub)
          (selectionFits_history_more hgreedyHistory hm hout hmore _)
        intro x hx
        rcases List.mem_cons.mp (hmore.mem_iff.mp hx) with rfl | hx
        · exact hm
        · exact hhistorySub hx
      maximalItems := by
        intro i hi hout items' hmore
        refine exists_too_large (henc.mono hhistorySub ?_)
          (selectionFits_items_more hgreedyItems hi hout hmore)
        intro x hx
        rcases List.mem_cons.mp (hmore.mem_iff.mp hx) with rfl | hx
        · exact hi
        · exact hitemsSub hx }

end Greedy

/-- With room for the message and none for the memory. -/
theorem envelope_greedy_maximal_sample : ∃ r history items,
    buildEnvelope sampleBundle (py "e aí?") 600 = .ok r ∧ r.truncationReport.omittedMemoryCount = 1 ∧
      GreedyMaximal sampleBundle (py "e aí?") 600 r history items := by
  have hcount : (buildEnvelope sampleBundle (py "e aí?") 600).toOption.map
      (·.truncationReport.omittedMemoryCount) = some 1 := by decide +kernel
  cases hr : buildEnvelope sampleBundle (py "e aí?") 600 with
  | error e =>
      rw [hr] at hcount
      cases hcount
  | ok r =>
      obtain ⟨history, items, hgreedy⟩ := envelope_greedy_maximal hr
      rw [hr] at hcount
      exact ⟨r, history, items, rfl, Option.some.inj hcount, hgreedy⟩

end Katherine.Context
