import Katherine.Envelope.Greedy

/-!
# When the report adds up

`build_envelope` keeps two books. What it leaves out it counts by the collection the entry
came from; what it takes it counts by the entry's own `kind`. The constructor of a bundle
compares the two nowhere.

The pass over the items splits the candidates it has seen into those it took and those it
counted (`Counted`), so by collection the books always balance. By kind they do so at
every budget exactly if every item is in the collection of its kind: with the budget of a
prefix of the candidates, that prefix is what is taken.
-/

namespace Katherine.Context

open Py Local

/-! ## The counts of a category -/

def ItemSelection.omitted (s : ItemSelection) : ItemKind → Nat
  | .memory => s.omittedMemory
  | .profile => s.omittedProfile
  | .persona => s.omittedPersona

def TruncationReport.omitted (r : TruncationReport) : ItemKind → Nat
  | .memory => r.omittedMemoryCount
  | .profile => r.omittedProfileCount
  | .persona => r.omittedPersonaCount

def TruncationReport.selected (r : TruncationReport) : ItemKind → Nat
  | .memory => r.selectedMemoryCount
  | .profile => r.selectedProfileCount
  | .persona => r.selectedPersonaCount

/-- The code that says that entries of the collection were left out. -/
def omittedCode : ItemKind → TruncationCode
  | .memory => .memoryOmitted
  | .profile => .profileOmitted
  | .persona => .personaOmitted

/-- One list for each kind. -/
def ofKinds (memory profile persona : List ContextItem) : ItemKind → List ContextItem
  | .memory => memory
  | .profile => profile
  | .persona => persona

/-- The collection of a kind. -/
def ContextBundle.collection {κ : Type} (bundle : ContextBundle κ) : ItemKind → List ContextItem :=
  ofKinds bundle.memoryItems bundle.profileItems bundle.personaItems

/-- Every item is in the collection of its kind. -/
def ContextBundle.KindsAgree {κ : Type} (bundle : ContextBundle κ) : Prop :=
  ∀ kind, ∀ i ∈ bundle.collection kind, i.kind = kind

section

variable {κ : Type} [LinearOrder κ]

/-- **The report of an envelope adds up.** -/
structure AddsUp (bundle : ContextBundle κ) (userMessage : PyStr) (r : ContextBuildResult) : Prop where
  history : r.truncationReport.selectedHistoryCount + r.truncationReport.omittedHistoryCount =
    bundle.truncationReport.selectedHistoryCount + bundle.truncationReport.omittedHistoryCount
      + bundle.history.length
  items : ∀ kind, r.truncationReport.selected kind + r.truncationReport.omitted kind =
    bundle.truncationReport.selected kind + bundle.truncationReport.omitted kind
      + (bundle.collection kind).length
  /-- Without an earlier report, what counts as selected are the entries that are rendered. -/
  rendered : bundle.truncationReport = {} → ∃ (history : List (ChatMessage κ))
      (taken : ItemKind → List ContextItem),
    history.Subperm bundle.history ∧ (∀ kind, (taken kind).Sublist (bundle.collection kind)) ∧
    renderSelection bundle userMessage history (taken .memory ++ taken .profile ++ taken .persona) =
      .ok r.messages ∧
    r.truncationReport.selectedHistoryCount = history.length ∧
    ∀ kind, r.truncationReport.selected kind = (taken kind).length
  codes : bundle.truncationReport = {} →
    (.historyPartial ∈ r.truncationReport.codes ↔ 0 < r.truncationReport.omittedHistoryCount) ∧
    ∀ kind, omittedCode kind ∈ r.truncationReport.codes ↔ 0 < r.truncationReport.omitted kind

end

/-! ## The two passes count what they see -/

section Counting

variable {κ : Type} [LinearOrder κ] {bundle : ContextBundle κ} {userMessage : PyStr} {maxUnits : Nat}

/-- What is taken of the history and what is left out are all of it. -/
theorem selectHistory_counts {s : HistorySelection κ}
    (h : selectHistory bundle userMessage maxUnits = .ok s) :
    s.selected.length + s.omitted = bundle.history.length := by
  unfold selectHistory at h
  split at h
  · next hempty =>
      cases h
      rw [List.isEmpty_iff.mp hempty]
      rfl
  · obtain ⟨units, _, h⟩ := bind_ok_iff.mp h
    split at h
    · cases h
      rfl
    · have hlength : bundle.history.length = ([] ++ bundle.history.reverse).length := by simp
      rw [hlength]
      refine foldlM_keeps (P := fun seen s => s.selected.length + s.omitted = seen.length) [] rfl ?_ h
      intro seen s m s' hstep hs
      obtain ⟨units, _, hstep⟩ := bind_ok_iff.mp hstep
      cases hstep
      rw [List.length_append, List.length_singleton, ← hs]
      split
      · rw [List.length_append, List.length_singleton, Nat.add_right_comm]
      · rfl

/-- The candidates seen are those taken and those counted as left out. -/
structure Counted (seen : List (ItemKind × ContextItem)) (s : ItemSelection)
    (taken : List (ItemKind × ContextItem)) : Prop where
  sub : taken.Sublist seen
  selected : s.selected = taken.map (·.2)
  counts : ∀ kind, taken.countP (·.1 = kind) + s.omitted kind = seen.countP (·.1 = kind)

theorem omitted_omit (s : ItemSelection) (kind kind' : ItemKind) :
    (s.omit kind').omitted kind = s.omitted kind + if kind' = kind then 1 else 0 := by
  cases kind' <;> cases kind <;> rfl

theorem Counted.take {seen taken : List (ItemKind × ContextItem)} {s : ItemSelection}
    (h : Counted seen s taken) (c : ItemKind × ContextItem) :
    Counted (seen ++ [c]) { s with selected := s.selected ++ [c.2] } (taken ++ [c]) where
  sub := h.sub.append (List.Sublist.refl _)
  selected := by rw [h.selected, List.map_append, List.map_singleton]
  counts kind := by
    have hkind : ({ s with selected := s.selected ++ [c.2] } : ItemSelection).omitted kind =
        s.omitted kind := by cases kind <;> rfl
    rw [hkind, List.countP_append, List.countP_append, ← h.counts kind]
    omega

theorem Counted.omit {seen taken : List (ItemKind × ContextItem)} {s : ItemSelection}
    (h : Counted seen s taken) (c : ItemKind × ContextItem) :
    Counted (seen ++ [c]) (s.omit c.1) taken where
  sub := h.sub.trans (List.sublist_append_left _ _)
  selected := by rw [omit_selected, h.selected]
  counts kind := by
    rw [omitted_omit, List.countP_append, List.countP_singleton, ← h.counts kind]
    simp only [decide_eq_true_eq]
    omega

theorem selectItems_counted {history : List (ChatMessage κ)} {s : ItemSelection}
    (h : selectItems bundle history userMessage maxUnits = .ok s) :
    ∃ taken, Counted (contextCandidates bundle) s taken := by
  refine foldlM_keeps (P := fun seen s => ∃ taken, Counted seen s taken) [] ?_ ?_ h
  · exact ⟨[], List.Sublist.refl _, rfl, fun kind => by cases kind <;> rfl⟩
  · rintro seen s c s' hstep ⟨taken, hs⟩
    obtain ⟨payload, _, hstep⟩ := bind_ok_iff.mp hstep
    obtain ⟨units, _, hstep⟩ := bind_ok_iff.mp hstep
    cases hstep
    split
    · exact ⟨_, hs.take c⟩
    · exact ⟨_, hs.omit c⟩

/-! ## Candidates by collection -/

omit [LinearOrder κ] in
theorem mem_contextCandidates {c : ItemKind × ContextItem} :
    c ∈ contextCandidates bundle ↔ c.2 ∈ bundle.collection c.1 := by
  obtain ⟨kind, i⟩ := c
  simp only [contextCandidates, List.mem_append, List.mem_map, Prod.mk.injEq]
  cases kind <;> simp [ContextBundle.collection, ofKinds]

theorem countP_map_kind (kind kind' : ItemKind) (items : List ContextItem) :
    (items.map fun i => (kind', i)).countP (·.1 = kind) = if kind' = kind then items.length else 0 := by
  rw [List.countP_map]
  by_cases h : kind' = kind
  · rw [if_pos h, List.countP_eq_length.mpr]
    intro i _
    exact decide_eq_true h
  · rw [if_neg h, List.countP_eq_zero]
    intro i _ hi
    exact h (of_decide_eq_true hi)

omit [LinearOrder κ] in
theorem countP_contextCandidates (kind : ItemKind) :
    (contextCandidates bundle).countP (·.1 = kind) = (bundle.collection kind).length := by
  simp only [contextCandidates, List.countP_append]
  rw [countP_map_kind, countP_map_kind, countP_map_kind]
  cases kind <;> simp [ContextBundle.collection, ofKinds]

omit [LinearOrder κ] in
/-- What is taken of the candidates is taken of each collection. -/
theorem exists_taken {taken : List (ItemKind × ContextItem)}
    (h : taken.Sublist (contextCandidates bundle)) :
    ∃ ofKind : ItemKind → List ContextItem,
      (∀ kind, (ofKind kind).Sublist (bundle.collection kind)) ∧
      taken.map (·.2) = ofKind .memory ++ ofKind .profile ++ ofKind .persona ∧
      ∀ kind, taken.countP (·.1 = kind) = (ofKind kind).length := by
  obtain ⟨taken', persona', rfl, h', hpersona⟩ := List.sublist_append_iff.mp h
  obtain ⟨memory', profile', rfl, hmemory, hprofile⟩ := List.sublist_append_iff.mp h'
  obtain ⟨memory, hm, rfl⟩ := List.sublist_map_iff.mp hmemory
  obtain ⟨profile, hp, rfl⟩ := List.sublist_map_iff.mp hprofile
  obtain ⟨persona, hs, rfl⟩ := List.sublist_map_iff.mp hpersona
  refine ⟨ofKinds memory profile persona, ?_, ?_, ?_⟩
  · intro kind
    cases kind
    · exact hp
    · exact hm
    · exact hs
  · simp [Function.comp_def, ofKinds]
  · intro kind
    simp only [List.countP_append, countP_map_kind]
    cases kind <;> simp [ofKinds]

/-! ## The codes -/

theorem mem_foldl_new {c : TruncationCode} {codes : List TruncationCode} :
    ∀ {seen : List TruncationCode},
      c ∈ codes.foldl (fun seen c => if c ∈ seen then seen else seen ++ [c]) seen ↔
        c ∈ seen ∨ c ∈ codes := by
  induction codes with
  | nil => simp
  | cons d codes ih =>
      intro seen
      rw [List.foldl_cons, ih]
      split
      · next hd =>
          constructor
          · rintro (h | h)
            · exact .inl h
            · exact .inr (List.mem_cons_of_mem d h)
          · rintro (h | h)
            · exact .inl h
            · rcases List.mem_cons.mp h with rfl | h
              · exact .inl hd
              · exact .inr h
      · simp [or_assoc]

theorem omittedCode_injective : Function.Injective omittedCode := by
  intro kind kind' h
  cases kind <;> cases kind' <;> first | rfl | cases h

theorem omittedCode_ne (kind : ItemKind) : omittedCode kind ≠ .historyPartial := by
  cases kind <;> decide

/-- A code is there because it was, or because something of its category was left out. -/
theorem mem_truncationCodes {c : TruncationCode} {existing : List TruncationCode} {history : Nat}
    {s : ItemSelection} : c ∈ truncationCodes existing history s ↔ c ∈ existing ∨
      (c = .historyPartial ∧ 0 < history) ∨ ∃ kind, c = omittedCode kind ∧ 0 < s.omitted kind := by
  have hone : ∀ (n : Nat) (d : TruncationCode), c ∈ (if 0 < n then [d] else []) ↔ c = d ∧ 0 < n := by
    intro n d
    split
    · next hn => simp [hn]
    · next hn => simp [hn]
  have hkinds : (∃ kind, c = omittedCode kind ∧ 0 < s.omitted kind) ↔
      (c = .memoryOmitted ∧ 0 < s.omittedMemory) ∨ (c = .profileOmitted ∧ 0 < s.omittedProfile) ∨
        (c = .personaOmitted ∧ 0 < s.omittedPersona) := by
    constructor
    · rintro ⟨kind, h⟩
      cases kind
      · exact .inr (.inl h)
      · exact .inl h
      · exact .inr (.inr h)
    · rintro (h | h | h)
      · exact ⟨.memory, h⟩
      · exact ⟨.profile, h⟩
      · exact ⟨.persona, h⟩
  simp only [truncationCodes, mem_foldl_new, List.mem_append, hone, List.not_mem_nil, false_or, hkinds,
    or_assoc]

/-! ## Items where they belong -/

/-- What an envelope that was built consists of. -/
theorem buildEnvelope_parts {r : ContextBuildResult}
    (h : buildEnvelope bundle userMessage maxUnits = .ok r) :
    ∃ s t, selectHistory bundle userMessage maxUnits = .ok s ∧
      selectItems bundle s.selected userMessage maxUnits = .ok t ∧
      renderSelection bundle userMessage s.selected t.selected = .ok r.messages ∧
      r.truncationReport = aggregateReport bundle.truncationReport s t := by
  simp only [buildEnvelope, fillEnvelope, bind_ok_iff, check_eq_ok] at h
  obtain ⟨_, _, _, _, _, _, _, _, _, _, s, hhistory, t, hitems, payload, hpayload, _, _, _, _, _, _, h⟩ := h
  cases h
  refine ⟨s, t, hhistory, hitems, ?_, rfl⟩
  rw [renderSelection, hpayload]
  rfl

omit [LinearOrder κ] in
theorem aggregateReport_selected (existing : TruncationReport) (s : HistorySelection κ)
    (t : ItemSelection) (kind : ItemKind) : (aggregateReport existing s t).selected kind =
      existing.selected kind + t.selected.countP (·.kind = kind) := by
  cases kind <;> rfl

omit [LinearOrder κ] in
theorem aggregateReport_omitted (existing : TruncationReport) (s : HistorySelection κ)
    (t : ItemSelection) (kind : ItemKind) : (aggregateReport existing s t).omitted kind =
      existing.omitted kind + t.omitted kind := by
  cases kind <;> rfl

/-- **With every item in the collection of its kind the report adds up.** -/
theorem addsUp_of_kindsAgree {r : ContextBuildResult} (hkinds : bundle.KindsAgree)
    (h : buildEnvelope bundle userMessage maxUnits = .ok r) : AddsUp bundle userMessage r := by
  have hgreedy := h
  obtain ⟨s, t, hhistory, hitems, hrendered, hreport⟩ := buildEnvelope_parts h
  have hlength := selectHistory_counts hhistory
  obtain ⟨taken, htaken⟩ := selectItems_counted hitems
  -- what was taken counts the same by kind and by collection
  have hcount : ∀ kind, t.selected.countP (·.kind = kind) = taken.countP (·.1 = kind) := by
    intro kind
    rw [htaken.selected, List.countP_map]
    refine List.countP_congr fun c hc => ?_
    have hc := hkinds c.1 c.2 (mem_contextCandidates.mp (htaken.sub.subset hc))
    simp only [Function.comp_apply, hc]
  have hsum : ∀ kind, t.selected.countP (·.kind = kind) + t.omitted kind =
      (bundle.collection kind).length := by
    intro kind
    rw [hcount, htaken.counts, countP_contextCandidates]
  refine ⟨?_, ?_, ?_, ?_⟩
  · simp only [hreport, aggregateReport]
    omega
  · intro kind
    rw [hreport, aggregateReport_selected, aggregateReport_omitted, ← hsum kind]
    omega
  · intro hempty
    obtain ⟨ofKind, hsub, hall, hlengths⟩ := exists_taken htaken.sub
    obtain ⟨omitted, hselected⟩ : ∃ omitted, selectHistory bundle userMessage maxUnits =
        .ok ⟨s.selected, omitted⟩ := ⟨s.omitted, hhistory⟩
    have hperm := selectHistory_greedy ((buildEnvelope_encodable hgreedy).mono
      (List.Subset.refl _) (List.nil_subset _)) hhistory
    refine ⟨s.selected, ofKind, ?_, hsub, ?_, ?_, ?_⟩
    · exact (hperm.subperm.trans (Greedy.greedy_sublist _).subperm).trans
        bundle.history.reverse_perm.subperm
    · rw [← hall, ← htaken.selected, hrendered]
    · rw [hreport, hempty]
      exact Nat.zero_add _
    · intro kind
      rw [hreport, aggregateReport_selected, hcount, hlengths, hempty]
      cases kind <;> exact Nat.zero_add _
  · intro hempty
    have hcodes : ∀ c, c ∈ r.truncationReport.codes ↔ (c = .historyPartial ∧ 0 < s.omitted) ∨
        ∃ kind, c = omittedCode kind ∧ 0 < t.omitted kind := by
      intro c
      rw [hreport, hempty]
      exact mem_truncationCodes.trans (or_iff_right List.not_mem_nil)
    have hhistoryOmitted : r.truncationReport.omittedHistoryCount = s.omitted := by
      rw [hreport, hempty]
      exact Nat.zero_add _
    refine ⟨?_, ?_⟩
    · rw [hcodes, hhistoryOmitted]
      constructor
      · rintro (⟨_, hs⟩ | ⟨kind, hkind, _⟩)
        · exact hs
        · exact absurd hkind.symm (omittedCode_ne kind)
      · exact fun hs => .inl ⟨rfl, hs⟩
    · intro kind
      have homitted : r.truncationReport.omitted kind = t.omitted kind := by
        rw [hreport, aggregateReport_omitted, hempty]
        cases kind <;> exact Nat.zero_add _
      rw [hcodes, homitted]
      constructor
      · rintro (⟨hkind, _⟩ | ⟨kind', hkind, ht⟩)
        · exact absurd hkind (omittedCode_ne kind)
        · rwa [omittedCode_injective hkind]
      · exact fun ht => .inr ⟨kind, rfl, ht⟩

/-! ## A budget for every prefix of the candidates -/

/-- One item more makes a longer block. -/
theorem blockText_append_lt (items : List ContextItem) (i : ContextItem) :
    utf8Len (escape (blockText items)) < utf8Len (escape (blockText (items ++ [i]))) := by
  have hopen : 1 ≤ escapedSize (cp '{') := by decide
  have hitem : 1 ≤ weighJson escapedSize i.toJsonDict := by
    rw [ContextItem.toJsonDict, weighJson]
    omega
  have hcommas : (items.length - 1) * escapedSize (cp ',') ≤ items.length * escapedSize (cp ',') :=
    Nat.mul_le_mul_right _ (Nat.sub_le _ _)
  rw [utf8Len_escape, utf8Len_escape, blockText, blockText, weigh_render, weigh_render,
    weighJson_canon, weighJson_canon, weighJson, weighJson, weighElems_eq_sum, weighElems_eq_sum]
  simp only [List.map_append, List.map_singleton, List.sum_append, List.sum_singleton,
    List.length_append, List.length_map, List.length_singleton, Nat.add_sub_cancel]
  omega

omit [LinearOrder κ] in
/-- So does the envelope. -/
theorem selectionBytes_append_lt (history : List (ChatMessage κ)) (items : List ContextItem)
    (i : ContextItem) : selectionBytes bundle userMessage history items <
      selectionBytes bundle userMessage history (items ++ [i]) := by
  have hblock : itemBlock (items ++ [i]) = [⟨.user, blockText (items ++ [i])⟩] := by
    rw [itemBlock, if_neg]
    simp
  have hlonger : messageBytes (envelopeMessages bundle [⟨.user, blockText items⟩] history userMessage) <
      selectionBytes bundle userMessage history (items ++ [i]) := by
    have hadd := messageBytes_content_add [systemMessage bundle]
      (history.map ChatMessage.toProvider ++ [⟨.user, userMessage⟩]) .user (blockText items)
      (blockText (items ++ [i]))
    have hlt := blockText_append_lt items i
    rw [selectionBytes, hblock]
    simp only [envelopeMessages, List.singleton_append] at hadd ⊢
    omega
  cases items with
  | nil =>
      refine Nat.lt_of_le_of_lt (messageBytes_subperm (List.Sublist.subperm ?_)) hlonger
      exact (List.sublist_append_right _ _).cons_cons _
  | cons j items => exact hlonger

/-- What fits together is taken, all of it. -/
theorem foldlM_selectItem_take {history : List (ChatMessage κ)} {cs : List (ItemKind × ContextItem)} :
    ∀ {s : ItemSelection},
      selectionFits bundle userMessage maxUnits history (s.selected ++ cs.map (·.2)) = true →
      cs.foldlM (selectItem bundle history userMessage maxUnits) s =
        .ok { s with selected := s.selected ++ cs.map (·.2) } := by
  induction cs with
  | nil =>
      intro s _
      rw [List.map_nil, List.append_nil]
      rfl
  | cons c cs ih =>
      intro s hfits
      have hassoc : s.selected ++ c.2 :: cs.map (·.2) = (s.selected ++ [c.2]) ++ cs.map (·.2) := by simp
      rw [List.map_cons, hassoc] at hfits ⊢
      have hc := hereditary_items history (List.sublist_append_left _ _).subperm hfits
      rw [List.foldlM_cons, selectItem_eq maxUnits (selectionFits_iff.mp hc).1, if_pos hc]
      exact ih hfits

/-- What does not fit beside what was taken is left out, and counted. -/
theorem foldlM_selectItem_omit {history : List (ChatMessage κ)} {cs : List (ItemKind × ContextItem)} :
    ∀ {s : ItemSelection},
      (∀ c ∈ cs, Encodable bundle userMessage history (s.selected ++ [c.2]) ∧
        selectionFits bundle userMessage maxUnits history (s.selected ++ [c.2]) = false) →
      ∃ s', cs.foldlM (selectItem bundle history userMessage maxUnits) s = .ok s' ∧
        s'.selected = s.selected ∧ ∀ kind, s'.omitted kind = s.omitted kind + cs.countP (·.1 = kind) := by
  induction cs with
  | nil => exact fun _ => ⟨_, rfl, rfl, fun _ => rfl⟩
  | cons c cs ih =>
      intro s h
      obtain ⟨henc, hc⟩ := h c List.mem_cons_self
      rw [List.foldlM_cons, selectItem_eq maxUnits henc, if_neg (Bool.eq_false_iff.mp hc)]
      obtain ⟨s', hs', hselected, homitted⟩ := ih (s := s.omit c.1) fun d hd => by
        rw [omit_selected]
        exact h d (List.mem_cons_of_mem c hd)
      refine ⟨s', hs', by rw [hselected, omit_selected], fun kind => ?_⟩
      rw [homitted, omitted_omit, List.countP_cons]
      simp only [decide_eq_true_eq]
      omega

/-- If all of the history fits, it is taken. -/
theorem selectHistory_all
    (hfits : selectionFits bundle userMessage maxUnits bundle.history [] = true) :
    selectHistory bundle userMessage maxUnits = .ok ⟨bundle.history, 0⟩ := by
  obtain ⟨henc, hle⟩ := selectionFits_iff.mp hfits
  unfold selectHistory
  split
  · next hempty => rw [List.isEmpty_iff.mp hempty]
  · have hunits := estimateMessagesUnits_eq_ok.mpr ⟨encodable_envelope.mpr henc, rfl⟩
    have hblock : itemBlock [] = [] := rfl
    rw [hblock] at hunits
    rw [hunits]
    exact if_pos hle

/-- A prefix of the candidates that fits, and beside which no other candidate fits, is what is
taken. -/
theorem selectItems_prefix {history : List (ChatMessage κ)} {pre post : List (ItemKind × ContextItem)}
    (hsplit : contextCandidates bundle = pre ++ post)
    (hfits : selectionFits bundle userMessage maxUnits history (pre.map (·.2)) = true)
    (hnone : ∀ c ∈ post, Encodable bundle userMessage history (pre.map (·.2) ++ [c.2]) ∧
      selectionFits bundle userMessage maxUnits history (pre.map (·.2) ++ [c.2]) = false) :
    ∃ s, selectItems bundle history userMessage maxUnits = .ok s ∧ s.selected = pre.map (·.2) ∧
      ∀ kind, s.omitted kind = post.countP (·.1 = kind) := by
  obtain ⟨s, hs, hselected, homitted⟩ := foldlM_selectItem_omit (s := ⟨pre.map (·.2), 0, 0, 0⟩) hnone
  refine ⟨s, ?_, hselected, fun kind => ?_⟩
  · rw [selectItems, hsplit, List.foldlM_append,
      foldlM_selectItem_take (s := ⟨[], 0, 0, 0⟩) (by rwa [List.nil_append])]
    exact hs
  · rw [homitted]
    cases kind <;> exact Nat.zero_add _

/-- An envelope is built at every budget the two mandatory messages fit in. -/
theorem buildEnvelope_of_fits {r₀ : ContextBuildResult} {maxUnits₀ : Nat}
    (h : buildEnvelope bundle userMessage maxUnits₀ = .ok r₀)
    (hfits : selectionFits bundle userMessage maxUnits [] [] = true) :
    ∃ r, buildEnvelope bundle userMessage maxUnits = .ok r := by
  have henc := buildEnvelope_encodable h
  simp only [buildEnvelope, validateUniqueRefs, bind_ok_iff, check_eq_ok, decide_eq_true_eq] at h
  obtain ⟨_, _, _, huser, _, hrefs, _⟩ := h
  have hne : userMessage ≠ [] := by simpa using huser
  have hle : messageBytes (mandatoryMessages bundle userMessage) ≤ maxUnits :=
    (selectionFits_iff.mp hfits).2
  have hpos : 0 < messageBytes (mandatoryMessages bundle userMessage) := by
    have hopen : utf8Size (cp '[') = 1 := by decide
    rw [messageBytes, jsonBytes, weighJson, hopen]
    omega
  exact buildEnvelope_ok hrefs ⟨henc.policy, henc.history, henc.items⟩ hne henc.user
    (Nat.lt_of_lt_of_le hpos hle) hle

/-- **For every prefix of the candidates there is a budget at which it is what is taken.** -/
theorem exists_budget {r₀ : ContextBuildResult} {maxUnits₀ : Nat}
    (h : buildEnvelope bundle userMessage maxUnits₀ = .ok r₀)
    {pre post : List (ItemKind × ContextItem)} (hsplit : contextCandidates bundle = pre ++ post) :
    ∃ maxUnits r, buildEnvelope bundle userMessage maxUnits = .ok r ∧
      (∀ kind, r.truncationReport.selected kind =
        bundle.truncationReport.selected kind + (pre.map (·.2)).countP (·.kind = kind)) ∧
      ∀ kind, r.truncationReport.omitted kind =
        bundle.truncationReport.omitted kind + post.countP (·.1 = kind) := by
  have henc := buildEnvelope_encodable h
  rw [← map_contextCandidates, hsplit, List.map_append] at henc
  have hpre : Encodable bundle userMessage bundle.history (pre.map (·.2)) :=
    henc.mono (List.Subset.refl _) (List.subset_append_left _ _)
  -- the items of the prefix fill the budget, so no other fits beside them
  obtain ⟨budget, hbudget⟩ :
    ∃ n, n = selectionBytes bundle userMessage bundle.history (pre.map (·.2)) := ⟨_, rfl⟩
  have hfits : selectionFits bundle userMessage budget bundle.history (pre.map (·.2)) = true :=
    selectionFits_iff.mpr ⟨hpre, hbudget.ge⟩
  have hnone : ∀ c ∈ post,
      Encodable bundle userMessage bundle.history (pre.map (·.2) ++ [c.2]) ∧
        selectionFits bundle userMessage budget bundle.history (pre.map (·.2) ++ [c.2]) = false := by
    intro c hc
    have hc : c.2 ∈ post.map (·.2) := List.mem_map_of_mem hc
    refine ⟨henc.mono (List.Subset.refl _) ?_, Bool.eq_false_iff.mpr fun hmore => ?_⟩
    · exact List.append_subset.mpr ⟨List.subset_append_left _ _,
        List.cons_subset.mpr ⟨List.mem_append_right _ hc, List.nil_subset _⟩⟩
    · have hlt : selectionBytes bundle userMessage bundle.history (pre.map (·.2)) <
          selectionBytes bundle userMessage bundle.history (pre.map (·.2) ++ [c.2]) :=
        selectionBytes_append_lt _ _ _
      have hle := (selectionFits_iff.mp hmore).2
      omega
  have hhistory := selectHistory_all (selectionFits_mono (List.Subperm.refl _) List.nil_subperm hfits)
  obtain ⟨t, ht, hselected, homitted⟩ := selectItems_prefix hsplit hfits hnone
  obtain ⟨r, hr⟩ :=
    buildEnvelope_of_fits h (selectionFits_mono List.nil_subperm List.nil_subperm hfits)
  obtain ⟨s', t', hs', ht', _, hreport⟩ := buildEnvelope_parts hr
  rw [hhistory] at hs'
  cases hs'
  rw [ht] at ht'
  cases ht'
  refine ⟨budget, r, hr, fun kind => ?_, fun kind => ?_⟩
  · rw [hreport, aggregateReport_selected, hselected]
  · rw [hreport, aggregateReport_omitted, homitted]

/-- **The books balance at every budget exactly if every item is in the collection of its kind.** -/
theorem report_adds_up_iff (bundle : ContextBundle κ) (userMessage : PyStr)
    (hbuilt : ∃ maxUnits r, buildEnvelope bundle userMessage maxUnits = .ok r) :
    (∀ maxUnits r, buildEnvelope bundle userMessage maxUnits = .ok r → AddsUp bundle userMessage r) ↔
      bundle.KindsAgree := by
  refine ⟨fun hall => ?_, fun hkinds _ _ h => addsUp_of_kindsAgree hkinds h⟩
  obtain ⟨_, _, hr₀⟩ := hbuilt
  have hprefix : ∀ pre post, contextCandidates bundle = pre ++ post → ∀ kind,
      (pre.map (·.2)).countP (·.kind = kind) = pre.countP (·.1 = kind) := by
    intro pre post hsplit kind
    obtain ⟨maxUnits, r, hr, hselected, homitted⟩ := exists_budget hr₀ hsplit
    have hsum := (hall maxUnits r hr).items kind
    rw [hselected, homitted, ← countP_contextCandidates, hsplit, List.countP_append] at hsum
    omega
  intro kind i hi
  obtain ⟨pre, post, hsplit⟩ := List.append_of_mem (mem_contextCandidates.mpr hi : (kind, i) ∈ _)
  -- the prefix that ends with the item counts one more by collection, so also by kind
  have hbefore := hprefix pre _ hsplit kind
  have hafter := hprefix (pre ++ [(kind, i)]) post (by rw [hsplit, List.append_assoc]; rfl) kind
  rw [List.map_append, List.countP_append, List.countP_append, hbefore, List.map_singleton,
    List.countP_singleton, List.countP_singleton] at hafter
  by_contra hne
  simp [hne] at hafter

end Counting

theorem sampleBundle_kindsAgree : sampleBundle.KindsAgree := by
  intro kind i hi
  cases kind <;> simp [ContextBundle.collection, ofKinds, sampleBundle] at hi
  rw [hi]

theorem report_adds_up_iff_sample : sampleBundle.KindsAgree ∧
    ∀ maxUnits r, buildEnvelope sampleBundle (py "e aí?") maxUnits = .ok r →
      AddsUp sampleBundle (py "e aí?") r := by
  have hbuilt : ∃ maxUnits r, buildEnvelope sampleBundle (py "e aí?") maxUnits = .ok r :=
    ⟨_, buildEnvelope_ok (by decide) sampleBundle_scalar (by decide) (by decide)
      (Nat.lt_of_lt_of_le Nat.zero_lt_one (Nat.le_add_left 1 _)) (Nat.le_add_right _ 1)⟩
  exact ⟨sampleBundle_kindsAgree,
    (report_adds_up_iff sampleBundle (py "e aí?") hbuilt).mpr sampleBundle_kindsAgree⟩

theorem likesTea_ok : blank (py "gosta de chá") = false := by decide

theorem memoryRef_ne_nil : py "mem-1" ≠ [] := by decide

/-- A profile among the memories. -/
def misplacedBundle : ContextBundle Nat :=
  { sampleBundle with
    memoryItems := [⟨.profile, py "gosta de chá", .legacyProfile, .float float03, .unknown,
      py "mem-1", [], likesTea_ok, memoryRef_ne_nil, fun h => absurd rfl h, fun h => by cases h⟩] }

/-- It is rendered, and counts as a profile: of the one memory none was selected and none left out. -/
theorem misplaced_item_is_lost : ∃ r,
    buildEnvelope misplacedBundle (py "e aí?") providerInputMaxEstimatedUnits = .ok r ∧
      r.truncationReport.selectedMemoryCount + r.truncationReport.omittedMemoryCount = 0 ∧
      misplacedBundle.memoryItems.length = 1 ∧ ¬ AddsUp misplacedBundle (py "e aí?") r := by
  have hcounts : (buildEnvelope misplacedBundle (py "e aí?") providerInputMaxEstimatedUnits).toOption.map
      (fun r => (r.truncationReport.selectedMemoryCount, r.truncationReport.omittedMemoryCount)) =
        some (0, 0) := by decide +kernel
  cases hr : buildEnvelope misplacedBundle (py "e aí?") providerInputMaxEstimatedUnits with
  | error e =>
      rw [hr] at hcounts
      cases hcounts
  | ok r =>
      rw [hr] at hcounts
      have hcounts := Option.some.inj hcounts
      have hselected : r.truncationReport.selectedMemoryCount = 0 := congrArg Prod.fst hcounts
      have homitted : r.truncationReport.omittedMemoryCount = 0 := congrArg Prod.snd hcounts
      refine ⟨r, rfl, by rw [hselected, homitted], rfl, fun hadds => ?_⟩
      have hmemory := hadds.items .memory
      simp only [TruncationReport.selected, TruncationReport.omitted, hselected, homitted] at hmemory
      exact absurd hmemory (by decide)

end Katherine.Context
