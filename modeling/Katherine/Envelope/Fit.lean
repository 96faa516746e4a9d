import Katherine.Envelope.Greedy
import Mathlib.Data.Finset.Insert
import Mathlib.Data.Finset.Range

/-!
# Optional context

`fit_optional_context` tries the optional sections in one order and renders them in
another. Every try writes the whole system message and has the gate measure all of it, in
bytes of JSON inside which the message is a string. Inside a string each character weighs
by itself, so the bytes of a try are those of the frame and of the sections in it, in
whatever order they stand (`validateProviderInput_set`).

The loop is therefore a greedy pass over weights. What it takes fits, what it leaves out
does not fit beside what it took, and sections that fit together are taken together, in
whatever order they are tried.
-/

namespace Katherine.Context

open Py Local

/-! ## What the gate accepts -/

/-- A message that can be sent. -/
structure Sendable (m : PyVal) : Prop where
  checked : checkMessage m = .ok ()
  serialisable : serialisable ⟨true, true⟩ m = true
  encodable : weighJson surrogateWeight m = 0

theorem serialisableElems_forall {o : DumpOpts} {xs : List PyVal} :
    serialisableElems o xs = true ↔ ∀ x ∈ xs, serialisable o x = true := by
  induction xs with
  | nil => simp [serialisableElems]
  | cons x xs ih => rw [serialisableElems, Bool.and_eq_true, ih, List.forall_mem_cons]

theorem one_le_jsonBytes_list (ms : List PyVal) : 1 ≤ jsonBytes (.list ms) := by
  have hopen : utf8Size (cp '[') = 1 := by decide
  rw [jsonBytes, weighJson, hopen]
  omega

/-- **Messages have units exactly if they can be written and encoded.** -/
theorem estimateProviderInputUnits_eq_ok {ms : List PyVal} {n : Nat} :
    estimateProviderInputUnits (.list ms) = .ok n ↔
      (∀ m ∈ ms, serialisable ⟨true, true⟩ m = true ∧ weighJson surrogateWeight m = 0) ∧
        n = jsonBytes (.list ms) := by
  have hmax := Nat.max_eq_right (one_le_jsonBytes_list ms)
  have hserialisable : serialisable ⟨true, true⟩ (.list ms) = serialisableElems ⟨true, true⟩ ms := rfl
  rw [forall₂_and, ← serialisableElems_forall, ← surrogates_elems, ← encodable_render_canon]
  simp only [estimateProviderInputUnits, dumpsCompact, hserialisable]
  by_cases h : serialisableElems ⟨true, true⟩ ms = true
  · by_cases henc : encodable (render [] (PyVal.list ms).canon) = true
    · simp only [h, henc, if_true, estimateTextUnits, utf8Len_render_canon, hmax, true_and, Except.ok.injEq]
      exact eq_comm
    · simp [h, henc, estimateTextUnits]
  · simp [h]

/-- What the gate says to messages whose shape it accepts. -/
theorem validateProviderInput_of_checked {ms : List PyVal} (hne : ms ≠ [])
    (h : ∀ m ∈ ms, checkMessage m = .ok () ∧ serialisable ⟨true, true⟩ m = true) (maxUnits : Nat) :
    validateProviderInput (.list ms) maxUnits =
      if ∀ m ∈ ms, weighJson surrogateWeight m = 0 then
        if jsonBytes (.list ms) ≤ maxUnits then .ok ()
        else .error (.envelope .budgetExceeded (jsonBytes (.list ms)) maxUnits)
      else .error .unicodeEncode := by
  have hchecks : ms.forM checkMessage = .ok () := forM_ok_iff.mpr fun m hm => (h m hm).1
  have hwritten : serialisable ⟨true, true⟩ (.list ms) = true :=
    serialisableElems_forall.mpr fun m hm => (h m hm).2
  have hunits : estimateProviderInputUnits (.list ms) =
      if ∀ m ∈ ms, weighJson surrogateWeight m = 0 then .ok (jsonBytes (.list ms))
      else .error .unicodeEncode := by
    have henc : encodable (render [] (PyVal.list ms).canon) = true ↔
        ∀ m ∈ ms, weighJson surrogateWeight m = 0 := by
      rw [encodable_render_canon, surrogates_elems]
    simp only [estimateProviderInputUnits, dumpsCompact, hwritten, if_true, estimateTextUnits, henc,
      utf8Len_render_canon, Nat.max_eq_right (one_le_jsonBytes_list ms)]
  obtain ⟨m, ms, rfl⟩ := List.exists_cons_of_ne_nil hne
  simp only [validateProviderInput, hchecks, hunits, bind, Except.bind]
  by_cases henc : ∀ x ∈ m :: ms, weighJson surrogateWeight x = 0
  · rw [if_pos henc, if_pos henc]
    by_cases hle : jsonBytes (.list (m :: ms)) ≤ maxUnits
    · rw [if_pos hle]
      exact if_neg (Nat.not_lt_of_le hle)
    · rw [if_neg hle]
      exact if_pos (Nat.lt_of_not_le hle)
  · rw [if_neg henc, if_neg henc]

/-- **The gate accepts exactly the lists of messages that can be sent and fit.** -/
theorem validateProviderInput_eq_ok {ms : List PyVal} {maxUnits : Nat} :
    validateProviderInput (.list ms) maxUnits = .ok () ↔
      ms ≠ [] ∧ (∀ m ∈ ms, Sendable m) ∧ jsonBytes (.list ms) ≤ maxUnits := by
  constructor
  · intro h
    have hne : ms ≠ [] := by
      rintro rfl
      cases h
    refine ⟨hne, ?_⟩
    obtain ⟨m, ms, rfl⟩ := List.exists_cons_of_ne_nil hne
    simp only [validateProviderInput, bind_ok_iff] at h
    obtain ⟨_, hchecks, n, hunits, h⟩ := h
    obtain ⟨hall, rfl⟩ := estimateProviderInputUnits_eq_ok.mp hunits
    have hchecks := forM_ok_iff.mp hchecks
    refine ⟨fun x hx => ⟨hchecks x hx, (hall x hx).1, (hall x hx).2⟩, ?_⟩
    split at h
    · cases h
    · omega
  · rintro ⟨hne, hall, hle⟩
    rw [validateProviderInput_of_checked hne fun m hm => ⟨(hall m hm).checked, (hall m hm).serialisable⟩,
      if_pos fun m hm => (hall m hm).encodable, if_pos hle]

/-! ## One message in its frame -/

/-- The bytes of the messages around the content of the message at `i`. -/
def frameBytes (ms : List PyVal) (i : Nat) : Nat := jsonBytes (.list (ms.set i (systemVal [])))

theorem jsonBytes_systemVal (content : PyStr) :
    jsonBytes (systemVal content) = jsonBytes (systemVal []) + utf8Len (escape content) := by
  have hnil : utf8Len (escape []) = 0 := rfl
  simp only [systemVal, jsonBytes, weighJson, weighItems, keyText, utf8Len_quote, hnil, List.length_cons,
    List.length_nil]
  omega

/-- Replacing a message replaces its bytes. -/
theorem jsonBytes_set {ms : List PyVal} {i : Nat} (hi : i < ms.length) (v w : PyVal) :
    jsonBytes (.list (ms.set i v)) + jsonBytes w = jsonBytes (.list (ms.set i w)) + jsonBytes v := by
  simp only [jsonBytes, weighJson, weighElems_eq_sum, List.set_eq_take_append_cons_drop, if_pos hi,
    List.map_append, List.map_cons, List.sum_append, List.sum_cons, List.length_append, List.length_cons]
  omega

/-- **The content weighs what its characters do, whatever is around it.** -/
theorem jsonBytes_set_systemVal {ms : List PyVal} {i : Nat} (hi : i < ms.length) (content : PyStr) :
    jsonBytes (.list (ms.set i (systemVal content))) = frameBytes ms i + utf8Len (escape content) := by
  have hset := jsonBytes_set hi (systemVal content) (systemVal [])
  have hcontent := jsonBytes_systemVal content
  rw [frameBytes]
  omega

theorem checkMessage_systemVal (content : PyStr) : checkMessage (systemVal content) = .ok () := rfl

theorem serialisable_systemVal (content : PyStr) : serialisable ⟨true, true⟩ (systemVal content) = true := rfl

theorem surrogates_systemVal (content : PyStr) :
    weighJson surrogateWeight (systemVal content) = 0 ↔ encodable content = true := by
  have hval : systemVal content = (ProviderMessage.mk .system content).toVal := rfl
  rw [hval, surrogates_toVal_iff]

/-- **What the gate says to a new system message among messages that can be sent.** -/
theorem validateProviderInput_set {ms : List PyVal} {i : Nat} (hall : ∀ m ∈ ms, Sendable m)
    (hi : i < ms.length) (content : PyStr) (maxUnits : Nat) :
    validateProviderInput (.list (ms.set i (systemVal content))) maxUnits =
      if encodable content = true then
        if frameBytes ms i + utf8Len (escape content) ≤ maxUnits then .ok ()
        else .error (.envelope .budgetExceeded (frameBytes ms i + utf8Len (escape content)) maxUnits)
      else .error .unicodeEncode := by
  have hne : ms.set i (systemVal content) ≠ [] := by
    rw [← List.length_pos_iff, List.length_set]
    omega
  have hshape : ∀ m ∈ ms.set i (systemVal content),
      checkMessage m = .ok () ∧ serialisable ⟨true, true⟩ m = true := by
    intro m hm
    rcases List.mem_or_eq_of_mem_set hm with hm | rfl
    · exact ⟨(hall m hm).checked, (hall m hm).serialisable⟩
    · exact ⟨checkMessage_systemVal content, serialisable_systemVal content⟩
  have henc : (∀ m ∈ ms.set i (systemVal content), weighJson surrogateWeight m = 0) ↔
      encodable content = true := by
    rw [← surrogates_systemVal]
    refine ⟨fun h => h _ (List.mem_set hi _), fun h m hm => ?_⟩
    rcases List.mem_or_eq_of_mem_set hm with hm | rfl
    · exact (hall m hm).encodable
    · exact h
  rw [validateProviderInput_of_checked hne hshape, jsonBytes_set_systemVal hi]
  simp only [henc]

theorem contentAt_set {ms : List PyVal} {i : Nat} (hi : i < ms.length) (content : PyStr) :
    contentAt (ms.set i (systemVal content)) i = content := by
  rw [contentAt, List.getElem?_set_self hi]
  rfl

theorem findIdx_set {ms : List PyVal} {i : Nat} (h : ms.findIdx? isSystem = some i) (content : PyStr) :
    (ms.set i (systemVal content)).findIdx? isSystem = some i := by
  obtain ⟨hi, _, hbefore⟩ := List.findIdx?_eq_some_iff_getElem.mp h
  refine List.findIdx?_eq_some_iff_getElem.mpr ⟨by rwa [List.length_set], ?_, fun j hj => ?_⟩
  · rw [List.getElem_set_self]
    rfl
  · rw [List.getElem_set_ne (Nat.ne_of_gt hj)]
    exact hbefore j hj

theorem lt_of_findIdx {ms : List PyVal} {i : Nat} (h : ms.findIdx? isSystem = some i) : i < ms.length :=
  (List.findIdx?_eq_some_iff_getElem.mp h).1

theorem weigh_of_dictGet {w : CodePoint → Nat} {kvs : List (PyKey × PyVal)} {k s : PyStr}
    (h : dictGet kvs k = some (.str s)) : weigh w (quote s) ≤ weighJson w (.dict kvs) := by
  obtain ⟨p, hp, hs⟩ := Option.map_eq_some_iff.mp h
  have hmem := List.mem_of_find?_eq_some hp
  have hle := List.single_le_sum (fun _ _ => Nat.zero_le _) _
    (List.mem_map_of_mem (f := fun kv : PyKey × PyVal =>
      weigh w (quote (keyText kv.1)) + (w (cp ':') + weighJson w kv.2)) hmem)
  have hval : weighJson w p.2 = weigh w (quote s) := by
    rw [hs, weighJson]
  rw [weighJson, weighItems_eq_sum]
  omega

/-- The content of a message that can be sent can be encoded. -/
theorem encodable_contentAt {ms : List PyVal} (hall : ∀ m ∈ ms, Sendable m) (i : Nat) :
    encodable (contentAt ms i) = true := by
  unfold contentAt
  split
  · next kvs hkvs =>
      split
      · next content hcontent =>
          have hzero := (hall _ (List.mem_of_getElem? hkvs)).encodable
          have hle := weigh_of_dictGet (w := surrogateWeight) hcontent
          rw [← surrogates_quote]
          omega
      · rfl
  · rfl

/-! ## Sections in visual order -/

/-- The sections of these indices, as they are rendered. -/
def sectionsText (components : List (PyStr × PyStr)) (selected : Finset Nat) : PyStr :=
  (candidateComponents components selected).flatMap fun c => py "\n" ++ c.2

/-- The bytes of a section inside the string it is rendered into, with the line break before it. -/
def sectionUnits (components : List (PyStr × PyStr)) (i : Nat) : Nat :=
  utf8Len (escape (py "\n" ++ (componentAt components i).2))

theorem builtContent_eq (f : Fitting) (candidates : List (PyStr × PyStr)) :
    f.builtContent candidates =
      f.mandatoryHeader ++ (candidates.flatMap fun c => py "\n" ++ c.2) ++ suffixPayload f.suffix := by
  have hfold : ∀ (cs : List (PyStr × PyStr)) (built : PyStr),
      cs.foldl (fun built c => built ++ (py "\n" ++ c.2)) built =
        built ++ cs.flatMap fun c => py "\n" ++ c.2 := by
    intro cs
    induction cs with
    | nil => simp
    | cons c cs ih =>
        intro built
        rw [List.foldl_cons, ih, List.flatMap_cons, List.append_assoc]
  rw [Fitting.builtContent, hfold]

theorem utf8Len_escape_flatMap {α : Type} (g : α → PyStr) (xs : List α) :
    utf8Len (escape (xs.flatMap g)) = (xs.map fun x => utf8Len (escape (g x))).sum := by
  induction xs with
  | nil => rfl
  | cons x xs ih => rw [List.flatMap_cons, utf8Len_escape_append, ih, List.map_cons, List.sum_cons]

/-- Indices that are kept, in the order they stand in. -/
theorem perm_filter_range {n : Nat} {kept : List Nat} (hnodup : kept.Nodup) (hrange : ∀ k ∈ kept, k < n) :
    ((List.range n).filter (· ∈ kept.toFinset)).Perm kept := by
  rw [List.perm_ext_iff_of_nodup (List.nodup_range.filter _) hnodup]
  intro k
  simp only [List.mem_filter, List.mem_range, List.mem_toFinset, decide_eq_true_eq]
  exact ⟨And.right, fun hk => ⟨hrange k hk, hk⟩⟩

/-- **The bytes of sections do not depend on the order they were kept in.** -/
theorem utf8Len_sectionsText {components : List (PyStr × PyStr)} {kept : List Nat} (hnodup : kept.Nodup)
    (hrange : ∀ k ∈ kept, k < components.length) :
    utf8Len (escape (sectionsText components kept.toFinset)) =
      (kept.map (sectionUnits components)).sum := by
  have hperm := (perm_filter_range hnodup hrange).map (sectionUnits components)
  rw [sectionsText, utf8Len_escape_flatMap, candidateComponents, List.map_map, ← hperm.sum_eq]
  rfl

theorem encodable_flatMap {α : Type} {g : α → PyStr} {xs : List α} :
    encodable (xs.flatMap g) = true ↔ ∀ x ∈ xs, encodable (g x) = true := by
  induction xs with
  | nil => simp
  | cons x xs ih => rw [List.flatMap_cons, encodable_append, Bool.and_eq_true, ih, List.forall_mem_cons]

theorem encodable_sectionsText {components : List (PyStr × PyStr)} {selected : Finset Nat}
    (hrange : ∀ k ∈ selected, k < components.length) : encodable (sectionsText components selected) = true ↔
      ∀ k ∈ selected, encodable (componentAt components k).2 = true := by
  rw [sectionsText, encodable_flatMap, candidateComponents, List.forall_mem_map]
  simp only [encodable_append, encodable_py, Bool.true_and, List.mem_filter, List.mem_range,
    decide_eq_true_eq]
  exact ⟨fun h k hk => h k ⟨hrange k hk, hk⟩, fun h k hk => h k hk.2⟩

/-! ## One try -/

/-- What the loop is about: messages that can be sent, the first system message among them, and its
content. -/
structure Fitting.Over (f : Fitting) (mandatory : List PyVal) : Prop where
  sendable : ∀ m ∈ mandatory, Sendable m
  index : mandatory.findIdx? isSystem = some f.systemContentIndex
  header : f.mandatoryHeader = contentAt mandatory f.systemContentIndex

/-- The messages with this text after the header. -/
def Fitting.rendered (f : Fitting) (mandatory : List PyVal) (text : PyStr) : List PyVal :=
  mandatory.set f.systemContentIndex (systemVal (f.mandatoryHeader ++ text))

/-- What is always there: the frame, the header and the suffix. -/
def Fitting.baseUnits (f : Fitting) (mandatory : List PyVal) : Nat :=
  frameBytes mandatory f.systemContentIndex + utf8Len (escape f.mandatoryHeader)
    + utf8Len (escape (suffixPayload f.suffix))

section Loop

variable {f : Fitting} {mandatory : List PyVal}

theorem Fitting.Over.lt (h : f.Over mandatory) : f.systemContentIndex < mandatory.length :=
  lt_of_findIdx h.index

theorem Fitting.Over.encodable_header (h : f.Over mandatory) : encodable f.mandatoryHeader = true := by
  rw [h.header]
  exact encodable_contentAt h.sendable _

/-- **A try**, whatever sections are in it. -/
theorem Fitting.Over.attempt (h : f.Over mandatory) {messages : List PyVal}
    (hmessages : ∀ v, messages.set f.systemContentIndex v = mandatory.set f.systemContentIndex v)
    (candidates : List (PyStr × PyStr)) {text : PyStr}
    (htext : (candidates.flatMap fun c => py "\n" ++ c.2) = text) :
    f.attempt messages candidates =
      if encodable (text ++ suffixPayload f.suffix) = true then
        if f.baseUnits mandatory + utf8Len (escape text) ≤ f.maxUnits then .ok (some (f.rendered mandatory text))
        else .ok none
      else .error .unicodeEncode := by
  have hbuilt : f.builtContent candidates = f.mandatoryHeader ++ (text ++ suffixPayload f.suffix) := by
    rw [builtContent_eq, htext, List.append_assoc]
  have henc : encodable (f.mandatoryHeader ++ (text ++ suffixPayload f.suffix)) =
      encodable (text ++ suffixPayload f.suffix) := by
    rw [encodable_append, h.encodable_header, Bool.true_and]
  have hunits : frameBytes mandatory f.systemContentIndex +
      utf8Len (escape (f.mandatoryHeader ++ (text ++ suffixPayload f.suffix))) =
        f.baseUnits mandatory + utf8Len (escape text) := by
    rw [utf8Len_escape_append, utf8Len_escape_append, Fitting.baseUnits]
    omega
  simp only [Fitting.attempt, hbuilt, hmessages, validateProviderInput_set h.sendable h.lt, henc, hunits]
  by_cases he : encodable (text ++ suffixPayload f.suffix) = true
  · rw [if_pos he, if_pos he]
    by_cases hfits : f.baseUnits mandatory + utf8Len (escape text) ≤ f.maxUnits
    · rw [if_pos hfits, if_pos hfits]
      -- the suffix is cut off again
      by_cases hsuffix : f.suffix.isEmpty = true
      · have hpayload : suffixPayload f.suffix = [] := if_pos hsuffix
        simp only [hsuffix, if_true, hpayload, List.append_nil, Fitting.rendered]
      · have hpayload : (suffixPayload f.suffix).isEmpty = false := by
          rw [suffixPayload, if_neg hsuffix]
          rfl
        have hcut : (f.mandatoryHeader ++ (text ++ suffixPayload f.suffix)).take
            ((f.mandatoryHeader ++ (text ++ suffixPayload f.suffix)).length -
              (suffixPayload f.suffix).length) = f.mandatoryHeader ++ text := by
          rw [← List.append_assoc, List.length_append, Nat.add_sub_cancel, List.take_left]
        simp only [hsuffix, hpayload, Bool.false_eq_true, if_false, hcut, List.set_set, Fitting.rendered]
    · rw [if_neg hfits, if_neg hfits]
  · rw [if_neg he, if_neg he]

/-! ## The loop -/

/-- The state in which these indices were kept: nothing is touched before the first. -/
def Fitting.stateOf (f : Fitting) (mandatory : List PyVal) (kept : List Nat) : FitState where
  messages :=
    if kept = [] then mandatory else f.rendered mandatory (sectionsText f.components kept.toFinset)
  selected := kept.toFinset

theorem Fitting.stateOf_set (f : Fitting) (mandatory : List PyVal) (kept : List Nat) (v : PyVal) :
    (f.stateOf mandatory kept).messages.set f.systemContentIndex v =
      mandatory.set f.systemContentIndex v := by
  rw [stateOf]
  split
  · rfl
  · rw [rendered, List.set_set]

/-- Whether these sections fit together. -/
def Fitting.fits (f : Fitting) (mandatory : List PyVal) (kept : List Nat) : Bool :=
  decide (f.baseUnits mandatory + (kept.map (sectionUnits f.components)).sum ≤ f.maxUnits)

theorem Fitting.hereditary_fits (f : Fitting) (mandatory : List PyVal) :
    Greedy.Hereditary (f.fits mandatory) := by
  intro xs ys hsub hfits
  obtain ⟨zs, hperm, hsub⟩ := hsub
  have hle : (zs.map (sectionUnits f.components)).sum ≤ (ys.map (sectionUnits f.components)).sum :=
    (hsub.map _).sum_le_sum fun _ _ => Nat.zero_le _
  have hsum := (hperm.map (sectionUnits f.components)).sum_eq
  simp only [Fitting.fits, decide_eq_true_eq] at hfits ⊢
  omega

/-- Indices that can be kept: each once, none out of range. -/
structure Indices (components : List (PyStr × PyStr)) (kept : List Nat) : Prop where
  nodup : kept.Nodup
  range : ∀ k ∈ kept, k < components.length

theorem Indices.mono {components : List (PyStr × PyStr)} {kept kept' : List Nat}
    (h : Indices components kept') (hsub : kept.Sublist kept') : Indices components kept :=
  ⟨h.nodup.sublist hsub, fun k hk => h.range k (hsub.subset hk)⟩

theorem insert_toFinset (kept : List Nat) (idx : Nat) :
    insert idx kept.toFinset = (kept ++ [idx]).toFinset := by
  ext k
  simp only [Finset.mem_insert, List.mem_toFinset, List.mem_append, List.mem_singleton]
  exact or_comm

/-- The text of a section can be encoded, and the suffix. -/
def Fitting.Encodable (f : Fitting) (kept : List Nat) : Prop :=
  (∀ k ∈ kept, encodable (componentAt f.components k).2 = true) ∧
    encodable (suffixPayload f.suffix) = true

/-- Sections are tried, with these texts. -/
theorem Fitting.Over.attempt_sections (h : f.Over mandatory) {messages : List PyVal}
    (hmessages : ∀ v, messages.set f.systemContentIndex v = mandatory.set f.systemContentIndex v)
    {components : List (PyStr × PyStr)} {kept : List Nat} (hkept : Indices components kept) :
    f.attempt messages (candidateComponents components kept.toFinset) =
      if (∀ k ∈ kept, encodable (componentAt components k).2 = true) ∧
          encodable (suffixPayload f.suffix) = true then
        .ok (if f.baseUnits mandatory + (kept.map (sectionUnits components)).sum ≤ f.maxUnits then
          some (f.rendered mandatory (sectionsText components kept.toFinset)) else none)
      else .error .unicodeEncode := by
  have henc : encodable (sectionsText components kept.toFinset ++ suffixPayload f.suffix) = true ↔
      (∀ k ∈ kept, encodable (componentAt components k).2 = true) ∧
        encodable (suffixPayload f.suffix) = true := by
    have hrange : ∀ k ∈ kept.toFinset, k < components.length :=
      fun k hk => hkept.range k (List.mem_toFinset.mp hk)
    rw [encodable_append, Bool.and_eq_true, encodable_sectionsText hrange]
    simp only [List.mem_toFinset]
  have htext : ((candidateComponents components kept.toFinset).flatMap fun c => py "\n" ++ c.2) =
      sectionsText components kept.toFinset := rfl
  rw [h.attempt hmessages _ htext, utf8Len_sectionsText hkept.nodup hkept.range]
  simp only [henc]
  by_cases he : (∀ k ∈ kept, encodable (componentAt components k).2 = true) ∧
      encodable (suffixPayload f.suffix) = true
  · rw [if_pos he, if_pos he]
    split <;> rfl
  · rw [if_neg he, if_neg he]

/-- Whole sections are tried. -/
theorem Fitting.Over.attempt_whole (h : f.Over mandatory) {messages : List PyVal}
    (hmessages : ∀ v, messages.set f.systemContentIndex v = mandatory.set f.systemContentIndex v)
    {kept : List Nat} (hkept : Indices f.components kept) :
    (f.Encodable kept → f.attempt messages (candidateComponents f.components kept.toFinset) =
      .ok (if f.fits mandatory kept = true then
        some (f.rendered mandatory (sectionsText f.components kept.toFinset)) else none)) ∧
    (¬ f.Encodable kept → f.attempt messages (candidateComponents f.components kept.toFinset) =
      .error .unicodeEncode) := by
  simp only [h.attempt_sections hmessages hkept, Fitting.fits, decide_eq_true_eq]
  exact ⟨fun he => if_pos he, fun he => if_neg he⟩

/-- One step on a section that says something. -/
theorem Fitting.Over.step_eq (h : f.Over mandatory) {kept : List Nat} {idx : Nat}
    (hkept : Indices f.components (kept ++ [idx])) (hne : (componentAt f.components idx).2 ≠ []) :
    (f.Encodable (kept ++ [idx]) → f.step (f.stateOf mandatory kept) idx =
      if f.fits mandatory (kept ++ [idx]) = true then .ok (f.stateOf mandatory (kept ++ [idx]))
      else if f.truncateLongMessages = true then f.tryTruncated (f.stateOf mandatory kept) idx
      else .ok (f.stateOf mandatory kept)) ∧
    (¬ f.Encodable (kept ++ [idx]) → f.step (f.stateOf mandatory kept) idx = .error .unicodeEncode) := by
  obtain ⟨hok, herror⟩ := h.attempt_whole (f.stateOf_set mandatory kept) hkept
  have hselected : insert idx (f.stateOf mandatory kept).selected = (kept ++ [idx]).toFinset :=
    insert_toFinset kept idx
  have hnew : idx ∉ (f.stateOf mandatory kept).selected := by
    have hdisjoint := (List.nodup_append.mp hkept.nodup).2.2
    intro hidx
    exact hdisjoint idx (List.mem_toFinset.mp hidx) idx (List.mem_singleton_self idx) rfl
  refine ⟨fun henc => ?_, fun henc => ?_⟩
  · rw [Fitting.step, if_neg (by simpa using hne)]
    simp only [hselected, hok henc]
    by_cases hfits : f.fits mandatory (kept ++ [idx]) = true
    · have hcons : kept ++ [idx] ≠ [] := by simp
      have hstate : f.stateOf mandatory (kept ++ [idx]) =
          ⟨f.rendered mandatory (sectionsText f.components (kept ++ [idx]).toFinset),
            (kept ++ [idx]).toFinset⟩ := by
        rw [Fitting.stateOf, if_neg hcons]
      rw [if_pos hfits, if_pos hfits, hstate]
      rfl
    · rw [if_neg hfits, if_neg hfits]
      simp only [bind, Except.bind, ← hselected, Finset.erase_insert hnew]
      rfl
  · rw [Fitting.step, if_neg (by simpa using hne)]
    simp only [hselected, herror henc]
    rfl

theorem Fitting.step_empty (f : Fitting) (s : FitState) {idx : Nat}
    (h : (componentAt f.components idx).2 = []) : f.step s idx = .ok s := by
  rw [Fitting.step, h]
  rfl

/-- One step on a section, without truncation. -/
theorem Fitting.Over.step_whole (h : f.Over mandatory) (hatomic : f.truncateLongMessages = false)
    {kept : List Nat} {idx : Nat} (hkept : Indices f.components (kept ++ [idx])) :
    ((componentAt f.components idx).2 = [] →
      f.step (f.stateOf mandatory kept) idx = .ok (f.stateOf mandatory kept)) ∧
    ((componentAt f.components idx).2 ≠ [] → f.Encodable (kept ++ [idx]) →
      f.step (f.stateOf mandatory kept) idx = .ok (f.stateOf mandatory
        (if f.fits mandatory (kept ++ [idx]) = true then kept ++ [idx] else kept))) ∧
    ((componentAt f.components idx).2 ≠ [] → ¬ f.Encodable (kept ++ [idx]) →
      f.step (f.stateOf mandatory kept) idx = .error .unicodeEncode) := by
  refine ⟨f.step_empty _, fun hne henc => ?_, fun hne => (h.step_eq hkept hne).2⟩
  rw [(h.step_eq hkept hne).1 henc]
  split
  · rfl
  · rw [if_neg (by rw [hatomic]; exact Bool.false_ne_true)]

/-- The indices of sections that say something. -/
def nonempty (components : List (PyStr × PyStr)) (order : List Nat) : List Nat :=
  order.filter fun idx => !(componentAt components idx).2.isEmpty

theorem mem_nonempty {components : List (PyStr × PyStr)} {order : List Nat} {idx : Nat} :
    idx ∈ nonempty components order ↔ idx ∈ order ∧ (componentAt components idx).2 ≠ [] := by
  simp [nonempty]

/-- **The loop is a greedy pass**, and it returns exactly if every section in it can be encoded. -/
theorem Fitting.Over.run_whole (h : f.Over mandatory) (hatomic : f.truncateLongMessages = false)
    {order : List Nat} : ∀ {kept : List Nat}, Indices f.components (kept ++ order) →
      f.Encodable kept →
      ((∀ idx ∈ nonempty f.components order, encodable (componentAt f.components idx).2 = true) →
        order.foldlM f.step (f.stateOf mandatory kept) = .ok (f.stateOf mandatory
          (Greedy.greedyFrom (f.fits mandatory) kept (nonempty f.components order)))) ∧
      (¬ (∀ idx ∈ nonempty f.components order, encodable (componentAt f.components idx).2 = true) →
        order.foldlM f.step (f.stateOf mandatory kept) = .error .unicodeEncode) := by
  induction order with
  | nil =>
      intro kept _ _
      exact ⟨fun _ => rfl, fun hall => absurd (fun _ hidx => absurd hidx List.not_mem_nil) hall⟩
  | cons idx order ih =>
      intro kept hkept henc
      have hassoc : kept ++ idx :: order = (kept ++ [idx]) ++ order := by simp
      have hkept' : Indices f.components ((kept ++ [idx]) ++ order) := hassoc ▸ hkept
      have hskip : Indices f.components (kept ++ order) :=
        hkept.mono ((List.Sublist.refl kept).append (List.sublist_cons_self idx order))
      obtain ⟨hempty, hwhole, hbroken⟩ := h.step_whole hatomic (hkept'.mono (List.sublist_append_left _ _))
      by_cases hcontent : (componentAt f.components idx).2 = []
      · have hnonempty : nonempty f.components (idx :: order) = nonempty f.components order := by
          rw [nonempty, List.filter_cons_of_neg (by simp [hcontent])]
          rfl
        simp only [List.foldlM_cons, hempty hcontent, hnonempty]
        exact ih hskip henc
      · have hnonempty : nonempty f.components (idx :: order) = idx :: nonempty f.components order := by
          rw [nonempty, List.filter_cons_of_pos (by simp [hcontent])]
          rfl
        have hcons : f.Encodable (kept ++ [idx]) ↔ encodable (componentAt f.components idx).2 = true := by
          refine ⟨fun he => he.1 idx (by simp), fun he => ⟨fun k hk => ?_, henc.2⟩⟩
          rcases List.mem_append.mp hk with hk | hk
          · exact henc.1 k hk
          · rwa [List.mem_singleton.mp hk]
        rw [hnonempty]
        simp only [List.foldlM_cons, List.forall_mem_cons]
        by_cases he : encodable (componentAt f.components idx).2 = true
        · have hall : (encodable (componentAt f.components idx).2 = true ∧
              ∀ x ∈ nonempty f.components order, encodable (componentAt f.components x).2 = true) ↔
              ∀ x ∈ nonempty f.components order, encodable (componentAt f.components x).2 = true :=
            and_iff_right he
          rw [hwhole hcontent (hcons.mpr he), hall]
          by_cases hfits : f.fits mandatory (kept ++ [idx]) = true
          · rw [if_pos hfits, Greedy.greedyFrom_cons_of_fits hfits]
            exact ih hkept' (hcons.mpr he)
          · rw [if_neg hfits, Greedy.greedyFrom_cons_of_not_fits hfits]
            exact ih hskip henc
        · rw [hbroken hcontent (hcons.not.mpr he)]
          exact ⟨fun hall => absurd hall.1 he, fun _ => rfl⟩

/-! ## What a step can touch -/

/-- Nothing is touched but the content of the system message. -/
def Fitting.Touched (f : Fitting) (mandatory messages : List PyVal) : Prop :=
  messages = mandatory ∨ ∃ content, messages = mandatory.set f.systemContentIndex (systemVal content)

theorem Fitting.Touched.set {messages : List PyVal} (h : f.Touched mandatory messages) (v : PyVal) :
    messages.set f.systemContentIndex v = mandatory.set f.systemContentIndex v := by
  rcases h with rfl | ⟨content, rfl⟩
  · rfl
  · rw [List.set_set]

theorem Fitting.attempt_touched {messages messages' : List PyVal} {candidates : List (PyStr × PyStr)}
    (h : f.Touched mandatory messages) (hattempt : f.attempt messages candidates = .ok (some messages')) :
    f.Touched mandatory messages' := by
  simp only [Fitting.attempt] at hattempt
  split at hattempt
  · split at hattempt
    · cases hattempt
      exact .inr ⟨_, h.set _⟩
    · cases hattempt
      exact .inr ⟨_, by rw [List.set_set, h.set]⟩
  · cases hattempt
  · cases hattempt

theorem Fitting.tryTruncated_touched {messages : List PyVal} {selected : Finset Nat} {s' : FitState}
    {idx : Nat} (h : f.Touched mandatory messages)
    (hstep : f.tryTruncated ⟨messages, selected⟩ idx = .ok s') : f.Touched mandatory s'.messages := by
  simp only [Fitting.tryTruncated, bind_ok_iff] at hstep
  obtain ⟨remaining, _, hstep⟩ := hstep
  split at hstep
  · cases hstep
    exact h
  · obtain ⟨⟨truncated, _⟩, _, hstep⟩ := bind_ok_iff.mp hstep
    dsimp only at hstep
    split at hstep
    · cases hstep
      exact h
    · obtain ⟨attempted, hattempt, hstep⟩ := bind_ok_iff.mp hstep
      cases attempted with
      | some messages =>
          cases hstep
          exact attempt_touched h hattempt
      | none =>
          cases hstep
          exact h

theorem Fitting.step_touched {s s' : FitState} {idx : Nat} (h : f.Touched mandatory s.messages)
    (hstep : f.step s idx = .ok s') : f.Touched mandatory s'.messages := by
  unfold Fitting.step at hstep
  split at hstep
  · cases hstep
    exact h
  · obtain ⟨attempted, hattempt, hstep⟩ := bind_ok_iff.mp hstep
    cases attempted with
    | some messages =>
        cases hstep
        exact attempt_touched h hattempt
    | none =>
        dsimp only at hstep
        split at hstep
        · exact tryTruncated_touched h hstep
        · cases hstep
          exact h

theorem Fitting.run_touched {order : List Nat} {s : FitState}
    (h : order.foldlM f.step ⟨mandatory, ∅⟩ = .ok s) : f.Touched mandatory s.messages :=
  foldlM_keeps (P := fun _ s => f.Touched mandatory s.messages) [] (.inl rfl)
    (fun _ _ _ _ hstep hs => step_touched hs hstep) h

/-! ## The suffix -/

theorem Fitting.Over.findIdx (h : f.Over mandatory) {messages : List PyVal}
    (htouched : f.Touched mandatory messages) :
    messages.findIdx? isSystem = some f.systemContentIndex := by
  rcases htouched with rfl | ⟨content, rfl⟩
  · exact h.index
  · exact findIdx_set h.index content

/-- A suffix is put after the content, and all of it is measured once more. -/
theorem Fitting.Over.appendSuffix (h : f.Over mandatory) {messages result : List PyVal}
    (htouched : f.Touched mandatory messages) :
    Context.appendSuffix messages f.maxUnits f.suffix = .ok result ↔
      encodable (suffixPayload f.suffix) = true ∧
      (f.suffix = [] ∧ result = messages ∨
        f.suffix ≠ [] ∧ encodable (contentAt messages f.systemContentIndex) = true ∧
          frameBytes mandatory f.systemContentIndex +
            utf8Len (escape (contentAt messages f.systemContentIndex ++ suffixPayload f.suffix)) ≤ f.maxUnits ∧
          result = mandatory.set f.systemContentIndex
            (systemVal (contentAt messages f.systemContentIndex ++ suffixPayload f.suffix))) := by
  by_cases hsuffix : f.suffix = []
  · have hempty : f.suffix.isEmpty = true := List.isEmpty_iff.mpr hsuffix
    have hpayload : encodable (suffixPayload f.suffix) = true := by
      rw [hsuffix]
      rfl
    rw [Context.appendSuffix, if_pos hempty, Except.ok.injEq]
    constructor
    · rintro rfl
      exact ⟨hpayload, .inl ⟨hsuffix, rfl⟩⟩
    · rintro ⟨_, ⟨_, rfl⟩ | ⟨hne, _⟩⟩
      · rfl
      · exact absurd hsuffix hne
  · have hpayload : suffixPayload f.suffix = py "\n\n" ++ f.suffix := by
      rw [suffixPayload, if_neg (by simpa using hsuffix)]
    rw [Context.appendSuffix, if_neg (by simpa using hsuffix), appendToSystem, h.findIdx htouched, hpayload]
    simp only [bind, Except.bind, htouched.set]
    rw [validateProviderInput_set h.sendable h.lt, encodable_append]
    by_cases henc : encodable (contentAt messages f.systemContentIndex) = true ∧
        encodable (py "\n\n" ++ f.suffix) = true
    · rw [if_pos (by rw [henc.1, henc.2]; rfl)]
      by_cases hfits : frameBytes mandatory f.systemContentIndex + utf8Len (escape
          (contentAt messages f.systemContentIndex ++ (py "\n\n" ++ f.suffix))) ≤ f.maxUnits
      · rw [if_pos hfits]
        simp only [hsuffix, henc, hfits, false_and, false_or, true_and, ne_eq, not_false_iff, pure,
          Except.pure, Except.ok.injEq]
        exact eq_comm
      · rw [if_neg hfits]
        simp [hsuffix, hfits]
    · rw [if_neg (by simpa using henc)]
      simp only [hsuffix, false_and, false_or, ne_eq, not_false_iff, true_and, reduceCtorEq, false_iff]
      exact fun hall => henc ⟨hall.2.1, hall.1⟩

/-- The content when these indices were kept. -/
theorem Fitting.Over.contentAt_stateOf (h : f.Over mandatory) (kept : List Nat) :
    contentAt (f.stateOf mandatory kept).messages f.systemContentIndex =
      f.mandatoryHeader ++ sectionsText f.components kept.toFinset := by
  by_cases hkept : kept = []
  · have hempty : sectionsText f.components ([] : List Nat).toFinset = [] := by
      simp [sectionsText, candidateComponents]
    rw [Fitting.stateOf, if_pos hkept, hkept, hempty, List.append_nil, h.header]
  · rw [Fitting.stateOf, if_neg hkept, Fitting.rendered]
    exact contentAt_set h.lt _

theorem Fitting.stateOf_touched (f : Fitting) (mandatory : List PyVal) (kept : List Nat) :
    f.Touched mandatory (f.stateOf mandatory kept).messages := by
  unfold Fitting.stateOf
  split
  · exact .inl rfl
  · exact .inr ⟨_, rfl⟩

end Loop

/-! ## The order -/

/-- Every index once, if an order is given. -/
def ValidPriority (components : List (PyStr × PyStr)) (priority : Option (List Int)) : Prop :=
  ∀ p, priority = some p → p.Perm ((List.range components.length).map Int.ofNat)

theorem selectionOrder_eq_ok {components : List (PyStr × PyStr)} {priority : Option (List Int)}
    {order : List Nat} (h : selectionOrder components priority = .ok order) :
    order.Perm (List.range components.length) := by
  cases priority with
  | none =>
      cases h
      exact List.Perm.refl _
  | some p =>
      simp only [selectionOrder] at h
      split at h
      · next hsorted =>
          cases h
          have hperm := (List.perm_insertionSort (· ≤ ·) p).symm
          rw [hsorted] at hperm
          have hid : (List.range components.length).map (Int.toNat ∘ Int.ofNat) =
              List.range components.length := (List.map_congr_left fun _ _ => rfl).trans (List.map_id _)
          have hmap := hperm.map Int.toNat
          rwa [List.map_map, hid] at hmap
      · cases h

theorem exists_selectionOrder {components : List (PyStr × PyStr)} {priority : Option (List Int)}
    (h : ValidPriority components priority) : ∃ order, selectionOrder components priority = .ok order := by
  cases priority with
  | none => exact ⟨_, rfl⟩
  | some p =>
      refine ⟨p.map Int.toNat, if_pos ?_⟩
      have hrange : ((List.range components.length).map Int.ofNat).Pairwise (· ≤ ·) := by
        rw [List.pairwise_map]
        exact List.pairwise_le_range.imp fun hle => Int.ofNat_le.mpr hle
      refine List.Perm.eq_of_pairwise (fun a b _ _ hab hba => le_antisymm hab hba)
        (List.pairwise_insertionSort _ _) hrange ((List.perm_insertionSort _ _).trans (h p rfl))

theorem indices_of_perm {components : List (PyStr × PyStr)} {order : List Nat}
    (h : order.Perm (List.range components.length)) : Indices components order :=
  ⟨h.nodup_iff.mpr List.nodup_range, fun _ hk => List.mem_range.mp (h.mem_iff.mp hk)⟩

/-! ## The call -/

/-- What the loop runs on. -/
def fittingOf (mandatory : List PyVal) (components : List (PyStr × PyStr)) (maxUnits : Nat)
    (truncateLongMessages : Bool) (suffix : PyStr) (i : Nat) : Fitting :=
  ⟨components, maxUnits, truncateLongMessages, suffix, i, contentAt mandatory i⟩

section Call

variable {mandatory : List PyVal} {components : List (PyStr × PyStr)} {maxUnits : Nat}
  {truncateLongMessages : Bool} {suffix : PyStr} {priority : Option (List Int)} {r : ContextFitResult}

theorem fittingOf_over {i : Nat} (hall : ∀ m ∈ mandatory, Sendable m)
    (hi : mandatory.findIdx? isSystem = some i) :
    (fittingOf mandatory components maxUnits truncateLongMessages suffix i).Over mandatory :=
  ⟨hall, hi, rfl⟩

/-- A call with sections that returns: its loop and its end. -/
theorem fitOptionalContext_parts (hne : components ≠ [])
    (h : fitOptionalContext mandatory components maxUnits truncateLongMessages suffix priority = .ok r) :
    ∃ i order s, validateProviderInput (.list mandatory) maxUnits = .ok () ∧
      mandatory.findIdx? isSystem = some i ∧ selectionOrder components priority = .ok order ∧
      order.foldlM (fittingOf mandatory components maxUnits truncateLongMessages suffix i).step
        ⟨mandatory, ∅⟩ = .ok s ∧
      appendSuffix s.messages maxUnits suffix = .ok r.messages ∧ r.selectedIndices = s.selected := by
  obtain ⟨_, hvalid, h⟩ := bind_ok_iff.mp h
  rw [fitOptionalContextImpl, if_neg (by simpa using hne)] at h
  split at h
  · cases h
  · next i hi =>
      simp only [bind_ok_iff] at h
      obtain ⟨order, horder, s, hrun, messages, hmessages, h⟩ := h
      cases h
      exact ⟨i, order, s, hvalid, hi, horder, hrun, hmessages, rfl⟩

/-- **What `fit_optional_context` promises.** -/
structure FitsBest (mandatory : List PyVal) (components : List (PyStr × PyStr)) (maxUnits : Nat)
    (suffix : PyStr) (r : ContextFitResult) : Prop where
  units : ∃ n, estimateProviderInputUnits (.list r.messages) = .ok n ∧ n ≤ maxUnits
  length : r.messages.length = mandatory.length
  others : ∀ j, mandatory.findIdx? isSystem ≠ some j → r.messages[j]? = mandatory[j]?
  system : ∀ i, mandatory.findIdx? isSystem = some i → r.messages.findIdx? isSystem = some i ∧
    contentAt r.messages i =
      contentAt mandatory i ++ sectionsText components r.selectedIndices ++ suffixPayload suffix
  selected : ∀ idx ∈ r.selectedIndices, idx < components.length ∧ (componentAt components idx).2 ≠ []
  maximal : ∀ i, mandatory.findIdx? isSystem = some i → ∀ idx < components.length,
    (componentAt components idx).2 ≠ [] → idx ∉ r.selectedIndices →
    ∃ n, estimateProviderInputUnits (.list (r.messages.set i (systemVal (contentAt mandatory i ++
      sectionsText components (insert idx r.selectedIndices) ++ suffixPayload suffix)))) = .ok n ∧ maxUnits < n

/-- A system message among messages that can be sent has units if its content can be encoded. -/
theorem estimateProviderInputUnits_set {i : Nat} (hall : ∀ m ∈ mandatory, Sendable m)
    (hi : i < mandatory.length) {content : PyStr} {n : Nat} :
    estimateProviderInputUnits (.list (mandatory.set i (systemVal content))) = .ok n ↔
      encodable content = true ∧ n = frameBytes mandatory i + utf8Len (escape content) := by
  rw [estimateProviderInputUnits_eq_ok, jsonBytes_set_systemVal hi]
  refine and_congr_left fun _ => ⟨fun h => ?_, fun henc m hm => ?_⟩
  · exact (surrogates_systemVal content).mp (h _ (List.mem_set hi _)).2
  · rcases List.mem_or_eq_of_mem_set hm with hm | rfl
    · exact ⟨(hall m hm).serialisable, (hall m hm).encodable⟩
    · exact ⟨serialisable_systemVal content, (surrogates_systemVal content).mpr henc⟩

/-- Sections that were kept, to which none can be added, are the best. -/
theorem Fitting.Over.fitsBest {f : Fitting} (h : f.Over mandatory) {kept : List Nat}
    (hle : jsonBytes (.list mandatory) ≤ f.maxUnits) (hkept : Indices f.components kept)
    (hfull : ∀ k ∈ kept, (componentAt f.components k).2 ≠ [])
    (henc : ∀ idx < f.components.length, (componentAt f.components idx).2 ≠ [] →
      encodable (componentAt f.components idx).2 = true)
    (hfits : kept = [] ∨ f.fits mandatory kept = true)
    (hmaximal : ∀ idx < f.components.length, (componentAt f.components idx).2 ≠ [] → idx ∉ kept →
      f.fits mandatory (idx :: kept) = false)
    (hmessages : Context.appendSuffix (f.stateOf mandatory kept).messages f.maxUnits f.suffix = .ok r.messages)
    (hselected : r.selectedIndices = kept.toFinset) :
    FitsBest mandatory f.components f.maxUnits f.suffix r := by
  have htouched := f.stateOf_touched mandatory kept
  have hcontent := h.contentAt_stateOf kept
  obtain ⟨hpayload, hresult⟩ := (h.appendSuffix htouched).mp hmessages
  have hresultTouched : f.Touched mandatory r.messages := by
    rcases hresult with ⟨_, hr⟩ | ⟨_, _, _, hr⟩
    · rw [hr]
      exact htouched
    · exact .inr ⟨_, hr⟩
  have hencKept : encodable (sectionsText f.components kept.toFinset) = true := by
    rw [encodable_sectionsText fun k hk => hkept.range k (List.mem_toFinset.mp hk)]
    intro k hk
    have hk := List.mem_toFinset.mp hk
    exact henc k (hkept.range k hk) (hfull k hk)
  refine ⟨?_, ?_, ?_, ?_, ?_, ?_⟩
  · rcases hresult with ⟨hsuffix, hr⟩ | ⟨_, hcontentEnc, hbytes, hr⟩
    · rw [hr]
      by_cases hnone : kept = []
      · -- nothing was touched
        rw [Fitting.stateOf, if_pos hnone]
        exact ⟨_, estimateProviderInputUnits_eq_ok.mpr
          ⟨fun m hm => ⟨(h.sendable m hm).serialisable, (h.sendable m hm).encodable⟩, rfl⟩, hle⟩
      · have hnil : utf8Len (escape (suffixPayload f.suffix)) = 0 := by rw [hsuffix]; rfl
        have hfits := hfits.resolve_left hnone
        rw [Fitting.fits, decide_eq_true_eq, ← utf8Len_sectionsText hkept.nodup hkept.range,
          Fitting.baseUnits] at hfits
        rw [Fitting.stateOf, if_neg hnone, Fitting.rendered]
        refine ⟨_, (estimateProviderInputUnits_set h.sendable h.lt).mpr ⟨?_, rfl⟩, ?_⟩
        · rw [encodable_append, h.encodable_header, hencKept]
          rfl
        · rw [utf8Len_escape_append]
          omega
    · rw [hr]
      refine ⟨_, (estimateProviderInputUnits_set h.sendable h.lt).mpr ⟨?_, rfl⟩, hbytes⟩
      rw [encodable_append, hcontentEnc, hpayload]
      rfl
  · rcases hresultTouched with hr | ⟨_, hr⟩
    · rw [hr]
    · rw [hr, List.length_set]
  · intro j hj
    have hne : f.systemContentIndex ≠ j := fun heq => hj (heq ▸ h.index)
    rcases hresultTouched with hr | ⟨_, hr⟩
    · rw [hr]
    · rw [hr, List.getElem?_set_ne hne]
  · intro i hi
    obtain rfl := Option.some.inj (h.index.symm.trans hi)
    refine ⟨h.findIdx hresultTouched, ?_⟩
    rw [hselected, ← h.header, ← hcontent]
    rcases hresult with ⟨hsuffix, hr⟩ | ⟨_, _, _, hr⟩
    · have hnil : suffixPayload f.suffix = [] := by rw [hsuffix]; rfl
      rw [hr, hnil, List.append_nil]
    · rw [hr, contentAt_set h.lt]
  · intro idx hidx
    rw [hselected, List.mem_toFinset] at hidx
    exact ⟨hkept.range idx hidx, hfull idx hidx⟩
  · intro i hi idx hidx hne hout
    obtain rfl := Option.some.inj (h.index.symm.trans hi)
    rw [hselected, List.mem_toFinset] at hout
    have hmore : Indices f.components (idx :: kept) :=
      ⟨List.nodup_cons.mpr ⟨hout, hkept.nodup⟩, List.forall_mem_cons.mpr ⟨hidx, hkept.range⟩⟩
    have hinsert : insert idx r.selectedIndices = (idx :: kept).toFinset := by
      rw [hselected, List.toFinset_cons]
    have htoo := hmaximal idx hidx hne hout
    rw [Fitting.fits, decide_eq_false_iff_not, ← utf8Len_sectionsText hmore.nodup hmore.range,
      Fitting.baseUnits] at htoo
    have hencMore : encodable (sectionsText f.components (idx :: kept).toFinset) = true := by
      rw [encodable_sectionsText fun k hk => hmore.range k (List.mem_toFinset.mp hk)]
      intro k hk
      rcases List.mem_cons.mp (List.mem_toFinset.mp hk) with rfl | hk
      · exact henc k hidx hne
      · exact henc k (hkept.range k hk) (hfull k hk)
    rw [hinsert, hresultTouched.set, ← h.header]
    refine ⟨_, (estimateProviderInputUnits_set h.sendable h.lt).mpr ⟨?_, rfl⟩, ?_⟩
    · rw [encodable_append, encodable_append, h.encodable_header, hencMore, hpayload]
      rfl
    · rw [utf8Len_escape_append, utf8Len_escape_append]
      omega

/-- What the loop kept, and what it says about the suffix. -/
theorem fitOptionalContext_kept (hne : components ≠ [])
    (h : fitOptionalContext mandatory components maxUnits false suffix priority = .ok r) :
    ∃ i order, mandatory.findIdx? isSystem = some i ∧ selectionOrder components priority = .ok order ∧
      ∃ f, f = fittingOf mandatory components maxUnits false suffix i ∧ f.Over mandatory ∧
        (∀ idx ∈ nonempty components order, encodable (componentAt components idx).2 = true) ∧
        appendSuffix (f.stateOf mandatory
          (Greedy.greedy (f.fits mandatory) (nonempty components order))).messages maxUnits suffix =
            .ok r.messages ∧
        r.selectedIndices = (Greedy.greedy (f.fits mandatory) (nonempty components order)).toFinset := by
  obtain ⟨i, order, s, hvalid, hi, horder, hrun, hmessages, hselected⟩ := fitOptionalContext_parts hne h
  obtain ⟨_, hall, _⟩ := validateProviderInput_eq_ok.mp hvalid
  obtain ⟨f, hf⟩ : ∃ f, f = fittingOf mandatory components maxUnits false suffix i := ⟨_, rfl⟩
  have hover : f.Over mandatory := hf ▸ fittingOf_over hall hi
  have hcomponents : f.components = components := by rw [hf]; rfl
  rw [← hf] at hrun
  have hsuffix : encodable (suffixPayload f.suffix) = true := by
    have hmax : f.maxUnits = maxUnits ∧ f.suffix = suffix := by rw [hf]; exact ⟨rfl, rfl⟩
    rw [← hmax.1, ← hmax.2] at hmessages
    exact ((hover.appendSuffix (Fitting.run_touched hrun)).mp hmessages).1
  have hindices : Indices f.components ([] ++ order) :=
    hcomponents ▸ indices_of_perm (selectionOrder_eq_ok horder)
  obtain ⟨hreturns, hraises⟩ := hover.run_whole (by rw [hf]; rfl) hindices ⟨List.forall_mem_nil _, hsuffix⟩
  rw [hcomponents] at hreturns hraises
  by_cases henc : ∀ idx ∈ nonempty components order, encodable (componentAt components idx).2 = true
  · have hs := (hreturns henc).symm.trans hrun
    cases hs
    exact ⟨i, order, hi, horder, f, hf, hover, henc, hmessages, hselected⟩
  · have hs := (hraises henc).symm.trans hrun
    cases hs

/-- **Without truncation the result is the best there is.** -/
theorem fitsBest_of_fit
    (h : fitOptionalContext mandatory components maxUnits false suffix priority = .ok r) :
    FitsBest mandatory components maxUnits suffix r := by
  obtain ⟨_, hvalid, hrest⟩ := bind_ok_iff.mp h
  obtain ⟨_, hall, hle⟩ := validateProviderInput_eq_ok.mp hvalid
  by_cases hne : components = []
  · subst hne
    obtain ⟨messages, hmessages, hr⟩ := bind_ok_iff.mp hrest
    cases hr
    cases hi : mandatory.findIdx? isSystem with
    | some i =>
        obtain ⟨f, hf⟩ : ∃ f, f = fittingOf mandatory [] maxUnits false suffix i := ⟨_, rfl⟩
        have hover : f.Over mandatory := hf ▸ fittingOf_over hall hi
        have hnone : Indices f.components [] := ⟨List.nodup_nil, List.forall_mem_nil _⟩
        have hbest := hover.fitsBest (r := ⟨messages, ∅, false⟩) (by rw [hf]; exact hle) hnone
          (List.forall_mem_nil _)
          (by rw [hf]; exact fun _ hidx => absurd hidx (Nat.not_lt_zero _)) (.inl rfl)
          (by rw [hf]; exact fun _ hidx => absurd hidx (Nat.not_lt_zero _)) (by rw [hf]; exact hmessages) rfl
        rw [hf] at hbest
        exact hbest
    | none =>
        -- nothing can be appended where there is no system message
        have hsuffix : suffix = [] := by
          by_contra hsuffix
          rw [appendSuffix, if_neg (by simpa using hsuffix), appendToSystem, hi] at hmessages
          cases hmessages
        subst hsuffix
        cases hmessages
        exact
          { units := ⟨_, estimateProviderInputUnits_eq_ok.mpr
              ⟨fun m hm => ⟨(hall m hm).serialisable, (hall m hm).encodable⟩, rfl⟩, hle⟩
            length := rfl
            others := fun _ _ => rfl
            system := fun i hi' => absurd (hi.symm.trans hi') (by simp)
            selected := fun _ hidx => absurd hidx (Finset.notMem_empty _)
            maximal := fun i hi' => absurd (hi.symm.trans hi') (by simp) }
  · obtain ⟨i, order, hi, horder, f, hf, hover, henc, hmessages, hselected⟩ := fitOptionalContext_kept hne h
    have hindices := indices_of_perm (selectionOrder_eq_ok horder)
    have hmem : ∀ idx < components.length, idx ∈ order := fun idx hidx =>
      (selectionOrder_eq_ok horder).mem_iff.mpr (List.mem_range.mpr hidx)
    have hsub : (Greedy.greedy (f.fits mandatory) (nonempty components order)).Sublist
        (nonempty components order) := Greedy.greedy_sublist _
    have hkept : Indices f.components (Greedy.greedy (f.fits mandatory) (nonempty components order)) := by
      rw [hf]
      exact (hindices.mono List.filter_sublist).mono (hf ▸ hsub)
    have hbest := hover.fitsBest (r := r) (by rw [hf]; exact hle) hkept
      (by
        intro k hk
        rw [hf]
        exact (mem_nonempty.mp (hsub.subset hk)).2)
      (by
        rw [hf]
        intro idx hidx hfull
        exact henc idx (mem_nonempty.mpr ⟨hmem idx hidx, hfull⟩))
      (Greedy.greedyFrom_fits _ _ _)
      (by
        intro idx hidx hfull hout
        refine Greedy.greedy_maximal (f.hereditary_fits mandatory) (mem_nonempty.mpr ⟨hmem idx ?_, ?_⟩) hout
        · rw [hf] at hidx
          exact hidx
        · rw [hf] at hfull
          exact hfull)
      (by rw [hf] at hmessages ⊢; exact hmessages) hselected
    rw [hf] at hbest
    exact hbest

/-- All sections that say something. -/
def allSections (components : List (PyStr × PyStr)) : Finset Nat :=
  (nonempty components (List.range components.length)).toFinset

theorem Fitting.stateOf_perm (f : Fitting) (mandatory : List PyVal) {kept kept' : List Nat}
    (h : kept.Perm kept') : f.stateOf mandatory kept = f.stateOf mandatory kept' := by
  have hnil : kept = [] ↔ kept' = [] := by
    rw [← List.length_eq_zero_iff, ← List.length_eq_zero_iff, h.length_eq]
  simp only [Fitting.stateOf, List.toFinset_eq_of_perm _ _ h, hnil]

/-- All sections and the suffix within the budget: the loop keeps them all, in any order, and the
suffix has its room. -/
theorem Fitting.Over.run_all {f : Fitting} (h : f.Over mandatory) (hatomic : f.truncateLongMessages = false)
    {n : Nat} (hunits : estimateProviderInputUnits (.list (mandatory.set f.systemContentIndex (systemVal
      (f.mandatoryHeader ++ sectionsText f.components (allSections f.components) ++ suffixPayload f.suffix)))) =
        .ok n) (hn : n ≤ f.maxUnits) :
    (∀ order : List Nat, order.Perm (List.range f.components.length) →
      order.foldlM f.step ⟨mandatory, ∅⟩ =
        .ok (f.stateOf mandatory (nonempty f.components (List.range f.components.length)))) ∧
    ∃ messages, Context.appendSuffix (f.stateOf mandatory
      (nonempty f.components (List.range f.components.length))).messages f.maxUnits f.suffix = .ok messages := by
  obtain ⟨kept, hkept⟩ : ∃ kept, kept = nonempty f.components (List.range f.components.length) := ⟨_, rfl⟩
  have hindices : Indices f.components kept := by
    rw [hkept]
    exact (indices_of_perm (List.Perm.refl _)).mono List.filter_sublist
  have hall : allSections f.components = kept.toFinset := by rw [hkept]; rfl
  rw [hall] at hunits
  obtain ⟨henc, hbytes⟩ := (estimateProviderInputUnits_set h.sendable h.lt).mp hunits
  rw [encodable_append, encodable_append, Bool.and_eq_true, Bool.and_eq_true] at henc
  obtain ⟨⟨_, hsections⟩, hpayload⟩ := henc
  rw [← hkept]
  refine ⟨fun order horder => ?_, ?_⟩
  · have hperm : (nonempty f.components order).Perm kept := by
      rw [hkept]
      exact horder.filter _
    have hencAll : ∀ k ∈ kept, encodable (componentAt f.components k).2 = true := by
      intro k hk
      exact (encodable_sectionsText fun k hk => hindices.range k (List.mem_toFinset.mp hk)).mp hsections k
        (List.mem_toFinset.mpr hk)
    have hfits : f.fits mandatory (nonempty f.components order) = true := by
      rw [(f.hereditary_fits mandatory).perm hperm, Fitting.fits, decide_eq_true_eq,
        ← utf8Len_sectionsText hindices.nodup hindices.range, Fitting.baseUnits]
      rw [utf8Len_escape_append, utf8Len_escape_append] at hbytes
      omega
    have horderIndices : Indices f.components ([] ++ order) := indices_of_perm horder
    have hrun := (h.run_whole hatomic horderIndices ⟨List.forall_mem_nil _, hpayload⟩).1
      fun idx hidx => hencAll idx (hperm.mem_iff.mp hidx)
    have hgreedy := Greedy.greedy_of_fits (f.hereditary_fits mandatory) hfits
    rw [Greedy.greedy] at hgreedy
    rw [hgreedy, f.stateOf_perm mandatory hperm] at hrun
    exact hrun
  · have hcontent := h.contentAt_stateOf kept
    by_cases hsuffix : f.suffix = []
    · exact ⟨_, (h.appendSuffix (f.stateOf_touched mandatory kept)).mpr ⟨hpayload, .inl ⟨hsuffix, rfl⟩⟩⟩
    · refine ⟨_, (h.appendSuffix (f.stateOf_touched mandatory kept)).mpr
        ⟨hpayload, .inr ⟨hsuffix, ?_, ?_, rfl⟩⟩⟩
      · rw [hcontent, encodable_append, h.encodable_header, hsections]
        rfl
      · rw [hcontent]
        omega

/-- **Sections that fit together are all taken, whatever the priorities are.** -/
theorem fit_of_all_fit {i : Nat} (hvalid : validateProviderInput (.list mandatory) maxUnits = .ok ())
    (hi : mandatory.findIdx? isSystem = some i)
    (hfits : ∃ n, estimateProviderInputUnits (.list (mandatory.set i (systemVal (contentAt mandatory i ++
      sectionsText components (allSections components) ++ suffixPayload suffix)))) = .ok n ∧ n ≤ maxUnits) :
    ∃ r, r.selectedIndices = allSections components ∧ ∀ priority, ValidPriority components priority →
      fitOptionalContext mandatory components maxUnits false suffix priority = .ok r := by
  obtain ⟨n, hunits, hn⟩ := hfits
  obtain ⟨_, hall, _⟩ := validateProviderInput_eq_ok.mp hvalid
  have hover : (fittingOf mandatory components maxUnits false suffix i).Over mandatory :=
    fittingOf_over hall hi
  obtain ⟨hrun, messages, hmessages⟩ := hover.run_all rfl hunits hn
  by_cases hne : components = []
  · subst hne
    refine ⟨⟨messages, ∅, false⟩, rfl, fun priority _ => ?_⟩
    have hmessages : appendSuffix mandatory maxUnits suffix = .ok messages := hmessages
    rw [fitOptionalContext, hvalid, bind_of_ok, fitOptionalContextImpl, if_pos List.isEmpty_nil, hmessages]
    rfl
  · refine ⟨⟨messages, allSections components, decide ((allSections components).card < components.length)⟩,
      rfl, fun priority hpriority => ?_⟩
    obtain ⟨order, horder⟩ := exists_selectionOrder hpriority
    have hloop := hrun order (selectionOrder_eq_ok horder)
    rw [fitOptionalContext, hvalid, bind_of_ok, fitOptionalContextImpl, if_neg (by simpa using hne)]
    simp only [hi, horder, bind_of_ok]
    have hloop : order.foldlM (Fitting.step ⟨components, maxUnits, false, suffix, i,
        contentAt mandatory i⟩) ⟨mandatory, ∅⟩ = _ := hloop
    have hmessages : appendSuffix _ maxUnits suffix = .ok messages := hmessages
    rw [hloop, bind_of_ok, hmessages]
    rfl

end Call

/-- **Optional context fits, is the most that fits, and leaves the rest alone.** -/
theorem fit_optional_context_best (mandatory : List PyVal) (components : List (PyStr × PyStr))
    (maxUnits : Nat) (suffix : PyStr) :
    (∀ priority r, fitOptionalContext mandatory components maxUnits false suffix priority = .ok r →
      FitsBest mandatory components maxUnits suffix r) ∧
    (validateProviderInput (.list mandatory) maxUnits = .ok () →
      ∀ i, mandatory.findIdx? isSystem = some i →
      (∃ n, estimateProviderInputUnits (.list (mandatory.set i (systemVal (contentAt mandatory i ++
        sectionsText components (allSections components) ++ suffixPayload suffix)))) = .ok n ∧ n ≤ maxUnits) →
      ∃ r, r.selectedIndices = allSections components ∧ ∀ priority, ValidPriority components priority →
        fitOptionalContext mandatory components maxUnits false suffix priority = .ok r) :=
  ⟨fun _ _ h => fitsBest_of_fit h, fun hvalid _ hi hfits => fit_of_all_fit hvalid hi hfits⟩

/-- A policy, a message, and a section of each of three sizes. -/
def sampleMandatory : List PyVal :=
  [systemVal (py "regras"), .dict [(.str (py "role"), .str (py "user")), (.str (py "content"), .str (py "oi"))]]

def sampleSections : List (PyStr × PyStr) :=
  [(py "perfil", py "gosta de chuva"), (py "resumo", []), (py "fatos", py "diz \"não\"")]

theorem sampleSections_fit : validateProviderInput (.list sampleMandatory) 200 = .ok () ∧
    ∃ n, estimateProviderInputUnits (.list (sampleMandatory.set 0 (systemVal (contentAt sampleMandatory 0 ++
      sectionsText sampleSections (allSections sampleSections) ++ suffixPayload (py "fim"))))) = .ok n ∧
        n ≤ 200 := by
  refine ⟨by rfl, _, rfl, ?_⟩
  decide +kernel

/-- The second priority is taken first and rendered last; the first section then has no room. With
more room every order takes both. -/
theorem fit_optional_context_best_sample :
    (∃ r, fitOptionalContext sampleMandatory sampleSections 100 false (py "fim") (some [2, 1, 0]) = .ok r ∧
      r.selectedIndices = {2} ∧ FitsBest sampleMandatory sampleSections 100 (py "fim") r) ∧
    ∃ r, r.selectedIndices = allSections sampleSections ∧
      ∀ priority, ValidPriority sampleSections priority →
        fitOptionalContext sampleMandatory sampleSections 200 false (py "fim") priority = .ok r := by
  refine ⟨?_, (fit_optional_context_best sampleMandatory sampleSections 200 (py "fim")).2
    sampleSections_fit.1 0 rfl sampleSections_fit.2⟩
  have hselected : (fitOptionalContext sampleMandatory sampleSections 100 false (py "fim")
      (some [2, 1, 0])).toOption.map (·.selectedIndices) = some {2} := by decide +kernel
  cases hr : fitOptionalContext sampleMandatory sampleSections 100 false (py "fim") (some [2, 1, 0]) with
  | error e =>
      rw [hr] at hselected
      cases hselected
  | ok r =>
      rw [hr] at hselected
      exact ⟨r, rfl, Option.some.inj hselected,
        (fit_optional_context_best sampleMandatory sampleSections 100 (py "fim")).1 _ r hr⟩

end Katherine.Context
