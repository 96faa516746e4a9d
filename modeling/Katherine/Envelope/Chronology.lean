import Katherine.Envelope.Layout
import Katherine.Envelope.Report
import Katherine.Lib.IsoOrder
import Mathlib.Data.List.Perm.Basic

/-!
# History is in the order of time

A row is a message whose key is its normal timestamp and its id. Normal timestamps are
compared as texts, and the order of these texts is the order of the instants, wherever the
offsets put them and whether a fraction is written or not (`normalizeTimestamp_eq_ok`).

So a selection is rendered in the order of time. Its messages show nothing of the place a
row had in the window (`HistoryRow.view`); with distinct ids there is one order to render
them in, and a history that fits whole is rendered the same however its rows came.
-/

namespace Katherine.Context

open Py Local

/-! ## Timestamps -/

/-- **A timestamp is normalised to the text of its instant.** -/
theorem normalizeTimestamp_eq_ok {c : Code} {s n : PyStr} (h : normalizeTimestamp c s = .ok n) :
    ∃ t : DateTime, n = t.isoFormat ∧ instantOf s = some t.instant := by
  obtain ⟨t, ht, h⟩ := bind_ok_iff.mp h
  cases h
  refine ⟨t, rfl, ?_⟩
  unfold parseTimestamp at ht
  split at ht
  · cases ht
  · split at ht
    · cases ht
    · next u hread =>
        cases ht
        simp [instantOf, hread]
    · next u offset hread =>
        split at ht
        · cases ht
        · next v hutc =>
            cases ht
            have hinstant := DateTime.toUtc_instant hutc (fromIsoFormat_bound hread)
            simp [instantOf, hread, hinstant]

/-- **Normal timestamps are ordered as the instants are.** -/
theorem normalizeTimestamp_lt_iff {c c' : Code} {s s' n n' : PyStr}
    (h : normalizeTimestamp c s = .ok n) (h' : normalizeTimestamp c' s' = .ok n') :
    ∃ i i', instantOf s = some i ∧ instantOf s' = some i' ∧ (n < n' ↔ i < i') ∧ (n = n' ↔ i = i') := by
  obtain ⟨t, rfl, hi⟩ := normalizeTimestamp_eq_ok h
  obtain ⟨t', rfl, hi'⟩ := normalizeTimestamp_eq_ok h'
  exact ⟨_, _, hi, hi', DateTime.isoFormat_lt_iff, DateTime.isoFormat_inj_iff⟩

/-! ## Rows -/

/-- A row as it is rendered. -/
def rowMessage (r : HistoryRow) : ProviderMessage := ⟨historyRole r.role, r.content⟩

/-- One row is before another: by the instant, and by the id where the instants are equal. -/
def RowBefore (a b : HistoryRow) : Prop :=
  ∃ i j, instantOf a.createdAt = some i ∧ instantOf b.createdAt = some j ∧ (i < j ∨ i = j ∧ a.id < b.id)

/-- What a message is sorted by and rendered as. -/
def ChatMessage.view {κ : Type} (m : ChatMessage κ) : κ × ProviderMessage := (m.sortKey, m.toProvider)

/-- The same for a row. Rows of a context have a normal timestamp. -/
def rowKey (r : HistoryRow) : PyStr ×ₗ Nat :=
  toLex (((normalizeTimestamp .invalidHistoryTimestamp r.createdAt).toOption).getD [], r.id)

def rowView (r : HistoryRow) : (PyStr ×ₗ Nat) × ProviderMessage := (rowKey r, rowMessage r)

theorem chatMessage_view {x : HistoryRow × Nat} {m : ChatMessage (PyStr ×ₗ Nat)}
    (h : chatMessage x = .ok m) : m.view = rowView x.1 := by
  obtain ⟨n, hn, h⟩ := bind_ok_iff.mp h
  unfold ChatMessage.create at h
  split at h
  · split at h
    · cases h
      simp [ChatMessage.view, ChatMessage.toProvider, rowView, rowKey, rowMessage, hn, Except.toOption]
    · cases h
  · cases h

/-- **The history of a bundle is the rows as they came.** -/
theorem buildContextBundle_view {policy : PyStr} {loaded : LoadedContextData}
    {bundle : ContextBundle (PyStr ×ₗ Nat)} (h : buildContextBundle policy loaded = .ok bundle) :
    bundle.history.map ChatMessage.view = loaded.historyRows.map rowView := by
  obtain ⟨history, hhistory, h⟩ := bind_ok_iff.mp h
  obtain ⟨_, _, h⟩ := bind_ok_iff.mp h
  obtain ⟨_, _, h⟩ := bind_ok_iff.mp h
  obtain ⟨_, _, h⟩ := bind_ok_iff.mp h
  split at h
  · cases h
    have hview : history.map ChatMessage.view = loaded.historyRows.zipIdx.map (rowView ∘ Prod.fst) :=
      map_of_mapM_ok (fun _ _ => chatMessage_view) hhistory
    rw [hview, ← List.map_map, List.zipIdx_map_fst]
  · cases h

/-- The key of a row that was loaded tells its instant. -/
theorem rowKey_eq {r : HistoryRow} (h : checkRow r = .ok ()) :
    ∃ t : DateTime, rowKey r = toLex (t.isoFormat, r.id) ∧ instantOf r.createdAt = some t.instant := by
  simp only [checkRow, bind_ok_iff] at h
  obtain ⟨_, _, _, _, t, ht, _⟩ := h
  have hn : normalizeTimestamp .invalidHistoryTimestamp r.createdAt = .ok t.isoFormat := by
    rw [normalizeTimestamp, parseTimestamp_code .invalidHistoryTimestamp ht]
    rfl
  obtain ⟨u, hu, hinstant⟩ := normalizeTimestamp_eq_ok hn
  refine ⟨u, ?_, hinstant⟩
  rw [rowKey, hn, ← hu]
  rfl

theorem rowKey_lt {a b : HistoryRow} (ha : checkRow a = .ok ()) (hb : checkRow b = .ok ())
    (h : rowKey a < rowKey b) : RowBefore a b := by
  obtain ⟨t, hkey, hi⟩ := rowKey_eq ha
  obtain ⟨u, hkey', hj⟩ := rowKey_eq hb
  rw [hkey, hkey', Prod.Lex.toLex_lt_toLex] at h
  refine ⟨_, _, hi, hj, ?_⟩
  rcases h with hlt | ⟨heq, hid⟩
  · exact .inl (DateTime.isoFormat_lt_iff.mp hlt)
  · exact .inr ⟨DateTime.isoFormat_inj_iff.mp heq, hid⟩

/-! ## Sorting by a view -/

/-- What is contained in the images of a list is the image of something contained in it. -/
theorem exists_subperm_of_map {α β : Type} {f : α → β} {xs : List α} {ys : List β}
    (h : ys.Subperm (xs.map f)) : ∃ zs : List α, zs.Subperm xs ∧ zs.map f = ys := by
  obtain ⟨ws, hperm, hsub⟩ := h
  obtain ⟨vs, hvs, rfl⟩ := List.sublist_map_iff.mp hsub
  have hcomp := congrFun (congrFun (List.eq_map_comp_perm f) ys) vs
  obtain ⟨zs, rfl, hzs⟩ := hcomp.mpr hperm.symm
  exact ⟨zs, ⟨vs, hzs.symm, hvs⟩, rfl⟩

section Sorting

variable {κ : Type} [LinearOrder κ]

/-- A list of views sorted by the keys. -/
def sortViews (vs : List (κ × ProviderMessage)) : List (κ × ProviderMessage) :=
  vs.insertionSort fun a b => a.1 ≤ b.1

theorem chronological_view (ms : List (ChatMessage κ)) :
    (chronological ms).map ChatMessage.view = sortViews (ms.map ChatMessage.view) :=
  List.map_insertionSort _ _ _ _ fun _ _ _ _ => Iff.rfl

theorem pairwise_sortViews (vs : List (κ × ProviderMessage)) :
    (sortViews vs).Pairwise fun a b => a.1 ≤ b.1 :=
  List.pairwise_insertionSort (fun a b : κ × ProviderMessage => a.1 ≤ b.1) vs

/-- With distinct keys there is one order to render in. -/
theorem sortViews_perm {vs ws : List (κ × ProviderMessage)} (h : vs.Perm ws)
    (hkeys : (vs.map (·.1)).Nodup) : sortViews vs = sortViews ws := by
  have hvs := List.perm_insertionSort (fun a b : κ × ProviderMessage => a.1 ≤ b.1) vs
  have hws := List.perm_insertionSort (fun a b : κ × ProviderMessage => a.1 ≤ b.1) ws
  refine List.Perm.eq_of_pairwise ?_ (pairwise_sortViews vs) (pairwise_sortViews ws)
    (hvs.trans (h.trans hws.symm))
  intro a b ha hb hab hba
  exact List.inj_on_of_nodup_map hkeys (hvs.mem_iff.mp ha) (h.mem_iff.mpr (hws.mem_iff.mp hb))
    (le_antisymm hab hba)

/-! ## Envelopes with one order -/

variable {bundle bundle' : ContextBundle κ} {userMessage : PyStr} {maxUnits : Nat}

/-- Two bundles that differ in nothing but what their histories do not show. -/
structure SameView (bundle bundle' : ContextBundle κ) : Prop where
  policy : bundle.trustedPolicy = bundle'.trustedPolicy
  history : sortViews (bundle.history.map ChatMessage.view) =
    sortViews (bundle'.history.map ChatMessage.view)
  memory : bundle.memoryItems = bundle'.memoryItems
  profile : bundle.profileItems = bundle'.profileItems
  persona : bundle.personaItems = bundle'.personaItems

theorem SameView.toProvider (h : SameView bundle bundle') :
    (chronological bundle.history).map ChatMessage.toProvider =
      (chronological bundle'.history).map ChatMessage.toProvider := by
  have hsnd : ∀ ms : List (ChatMessage κ), (chronological ms).map ChatMessage.toProvider =
      (sortViews (ms.map ChatMessage.view)).map Prod.snd := by
    intro ms
    rw [← chronological_view, List.map_map]
    rfl
  rw [hsnd, hsnd, h.history]

/-- With all of the history the two have the same messages. -/
theorem SameView.envelopeMessages (h : SameView bundle bundle') (payload : List ProviderMessage) :
    Context.envelopeMessages bundle payload (chronological bundle.history) userMessage =
      Context.envelopeMessages bundle' payload (chronological bundle'.history) userMessage := by
  rw [Context.envelopeMessages, Context.envelopeMessages, systemMessage, systemMessage, h.policy,
    h.toProvider]

theorem SameView.selectionFits (h : SameView bundle bundle') :
    Context.selectionFits bundle userMessage maxUnits bundle.history [] =
      Context.selectionFits bundle' userMessage maxUnits bundle'.history [] := by
  rw [Context.selectionFits, Context.selectionFits, selectionUnits, selectionUnits, renderSelection_eq,
    renderSelection_eq, h.envelopeMessages]

theorem SameView.selectItems (h : SameView bundle bundle') :
    Context.selectItems bundle bundle.history userMessage maxUnits =
      Context.selectItems bundle' bundle'.history userMessage maxUnits := by
  have hstep : selectItem bundle bundle.history userMessage maxUnits =
      selectItem bundle' bundle'.history userMessage maxUnits := by
    funext s c
    simp only [selectItem, h.envelopeMessages]
  rw [Context.selectItems, Context.selectItems, contextCandidates, contextCandidates, hstep, h.memory,
    h.profile, h.persona]

/-- **If the history fits whole, the two have the same envelope.** -/
theorem SameView.buildEnvelope (h : SameView bundle bundle') (hrefs : (bundleRefs bundle).Nodup)
    (hrefs' : (bundleRefs bundle').Nodup)
    (hfits : Context.selectionFits bundle userMessage maxUnits bundle.history [] = true) :
    (Context.buildEnvelope bundle' userMessage maxUnits).map (·.messages) =
      (Context.buildEnvelope bundle userMessage maxUnits).map (·.messages) := by
  have hmandatory : mandatoryMessages bundle userMessage = mandatoryMessages bundle' userMessage := by
    rw [mandatoryMessages, mandatoryMessages, Context.envelopeMessages, Context.envelopeMessages,
      systemMessage, systemMessage, h.policy]
  have hall := selectHistory_all hfits
  have hall' := selectHistory_all (h.selectionFits ▸ hfits)
  simp only [Context.buildEnvelope, validateUniqueRefs, decide_eq_true hrefs, decide_eq_true hrefs',
    hmandatory]
  -- both run the same checks; only the report is not the same
  refine map_bind_congr fun _ => map_bind_congr fun _ => map_bind_congr fun _ =>
    map_bind_congr fun _ => map_bind_congr fun _ => ?_
  simp only [fillEnvelope, hall, hall', bind_of_ok, h.selectItems, h.envelopeMessages]
  exact map_bind_congr fun _ => map_bind_congr fun _ => map_bind_congr fun _ =>
    map_bind_congr fun _ => map_bind_congr fun _ => rfl

end Sorting

/-! ## Bundles of the same rows -/

theorem rowKey_nodup {rows : List HistoryRow} (hids : (rows.map (·.id)).Nodup) :
    ((rows.map rowView).map (·.1)).Nodup := by
  have hsnd : ((rows.map rowView).map (·.1)).map (fun k => (ofLex k).2) = rows.map (·.id) := by
    simp [rowView, rowKey, Function.comp_def]
  exact List.Nodup.of_map (fun k => (ofLex k).2) (hsnd ▸ hids)

/-- A permutation of the rows makes a bundle of the same view. -/
theorem exists_sameView {policy : PyStr} {loaded loaded' : LoadedContextData}
    {bundle : ContextBundle (PyStr ×ₗ Nat)} (hids : (loaded.historyRows.map (·.id)).Nodup)
    (hbundle : buildContextBundle policy loaded = .ok bundle)
    (hrows : loaded'.historyRows.Perm loaded.historyRows)
    (hmemories : loaded'.retrievedMemories = loaded.retrievedMemories)
    (hprofile : loaded'.profileSnapshot = loaded.profileSnapshot)
    (hpersona : loaded'.personaSnapshot = loaded.personaSnapshot) :
    ∃ bundle', buildContextBundle policy loaded' = .ok bundle' ∧ SameView bundle bundle' := by
  obtain ⟨bundle', hbundle'⟩ := exists_buildContextBundle.mpr
    (hmemories ▸ exists_buildContextBundle.mp ⟨bundle, hbundle⟩)
  refine ⟨bundle', hbundle', ?_⟩
  have hview := buildContextBundle_view hbundle
  have hview' := buildContextBundle_view hbundle'
  have hhistory : sortViews (bundle.history.map ChatMessage.view) =
      sortViews (bundle'.history.map ChatMessage.view) := by
    rw [hview, hview']
    exact sortViews_perm (hrows.map rowView).symm (rowKey_nodup hids)
  simp only [buildContextBundle, hmemories, hprofile, hpersona, bind_ok_iff] at hbundle hbundle'
  obtain ⟨_, _, memories, hm, profile, hp, persona, hq, hbundle⟩ := hbundle
  obtain ⟨_, _, memories', hm', profile', hp', persona', hq', hbundle'⟩ := hbundle'
  rw [hm] at hm'
  rw [hp] at hp'
  rw [hq] at hq'
  cases hm'
  cases hp'
  cases hq'
  split at hbundle
  · next hpolicy =>
      rw [dif_pos hpolicy] at hbundle'
      cases hbundle
      cases hbundle'
      exact ⟨rfl, hhistory, rfl, rfl, rfl⟩
  · cases hbundle

/-- **The selected history is rendered in the order of time.** -/
theorem rendered_in_order {policy userMessage : PyStr} {maxUnits : Nat} {loaded : LoadedContextData}
    {bundle : ContextBundle (PyStr ×ₗ Nat)} {r : ContextBuildResult}
    (hids : (loaded.historyRows.map (·.id)).Nodup)
    (hbundle : buildContextBundle policy loaded = .ok bundle)
    (h : buildEnvelope bundle userMessage maxUnits = .ok r) :
    ∃ (s : HistorySelection (PyStr ×ₗ Nat)) (rows : List HistoryRow) (items : List ContextItem),
      selectHistory bundle userMessage maxUnits = .ok s ∧
      (s.selected.map ChatMessage.view).Perm (rows.map rowView) ∧
      rows.Subperm loaded.historyRows ∧
      r.messages = systemMessage bundle ::
        (itemBlock items ++ (rows.map rowMessage ++ [⟨.user, userMessage⟩])) ∧
      rows.Pairwise RowBefore := by
  obtain ⟨s, t, hhistory, _, hrendered, _⟩ := buildEnvelope_parts h
  have hview := buildContextBundle_view hbundle
  have htaken : ((chronological s.selected).map ChatMessage.view).Subperm
      (loaded.historyRows.map rowView) := by
    rw [← hview]
    exact map_subperm (selectHistory_taken hhistory)
  obtain ⟨rows, hsub, hrows⟩ := exists_subperm_of_map htaken
  have hmessages : (chronological s.selected).map ChatMessage.toProvider = rows.map rowMessage := by
    have hsnd := congrArg (List.map Prod.snd) hrows
    rw [List.map_map, List.map_map] at hsnd
    exact hsnd.symm
  refine ⟨s, rows, t.selected, hhistory, ?_, hsub, ?_, ?_⟩
  · rw [hrows]
    exact ((perm_chronological s.selected).map _).symm
  · rw [renderSelection_eq] at hrendered
    rw [← Except.ok.inj hrendered, envelopeMessages, hmessages]
  · have hsorted : (rows.map rowView).Pairwise fun a b => a.1 ≤ b.1 := by
      rw [hrows, chronological_view]
      exact pairwise_sortViews _
    have hdistinct : (rows.map (·.id)).Nodup := by
      obtain ⟨ids, hperm, hids'⟩ := map_subperm (f := HistoryRow.id) hsub
      exact hperm.nodup_iff.mp (hids.sublist hids')
    have hne : (rows.map rowView).Pairwise fun a b => a.1 ≠ b.1 := by
      have := rowKey_nodup hdistinct
      rwa [List.Nodup, List.pairwise_map] at this
    have hlt := (hsorted.and hne).imp fun {a b} hab => lt_of_le_of_ne hab.1 hab.2
    rw [List.pairwise_map] at hlt
    have hchecked := forM_ok_iff.mp loaded.rows_ok
    refine hlt.imp_of_mem fun {a b} ha hb hab => ?_
    exact rowKey_lt (hchecked a (hsub.subset ha)) (hchecked b (hsub.subset hb)) hab

/-- **History is in the order of time**, and nothing but its rows decides how it is rendered. -/
theorem history_chronological (policy userMessage : PyStr) (maxUnits : Nat) (loaded : LoadedContextData)
    (bundle : ContextBundle (PyStr ×ₗ Nat)) (hids : (loaded.historyRows.map (·.id)).Nodup)
    (hbundle : buildContextBundle policy loaded = .ok bundle) :
    (∀ c c' s s' n n', normalizeTimestamp c s = .ok n → normalizeTimestamp c' s' = .ok n' →
      ∃ i i', instantOf s = some i ∧ instantOf s' = some i' ∧ (n < n' ↔ i < i') ∧ (n = n' ↔ i = i')) ∧
    (∀ r, buildEnvelope bundle userMessage maxUnits = .ok r →
      ∃ (s : HistorySelection (PyStr ×ₗ Nat)) (rows : List HistoryRow) (items : List ContextItem),
        selectHistory bundle userMessage maxUnits = .ok s ∧
        (s.selected.map ChatMessage.view).Perm (rows.map rowView) ∧
        rows.Subperm loaded.historyRows ∧
        r.messages = systemMessage bundle ::
          (itemBlock items ++ (rows.map rowMessage ++ [⟨.user, userMessage⟩])) ∧
        rows.Pairwise RowBefore) ∧
    (selectionFits bundle userMessage maxUnits bundle.history [] = true →
      ∀ loaded' : LoadedContextData, loaded'.historyRows.Perm loaded.historyRows →
        loaded'.retrievedMemories = loaded.retrievedMemories →
        loaded'.profileSnapshot = loaded.profileSnapshot →
        loaded'.personaSnapshot = loaded.personaSnapshot →
        ∃ bundle', buildContextBundle policy loaded' = .ok bundle' ∧
          (buildEnvelope bundle' userMessage maxUnits).map (·.messages) =
            (buildEnvelope bundle userMessage maxUnits).map (·.messages)) := by
  refine ⟨fun c c' s s' n n' h h' => normalizeTimestamp_lt_iff h h',
    fun r h => rendered_in_order hids hbundle h, ?_⟩
  intro hfits loaded' hrows hmemories hprofile hpersona
  obtain ⟨bundle', hbundle', hview⟩ := exists_sameView hids hbundle hrows hmemories hprofile hpersona
  exact ⟨bundle', hbundle', hview.buildEnvelope (buildContextBundle_refs hbundle).2
    (buildContextBundle_refs hbundle').2 hfits⟩

/-- Two rows whose offsets hide that the second is the earlier one. -/
def sampleRows : List HistoryRow :=
  [⟨1, .user, py "bom dia", py "2026-07-30T10:00:00-04:00"⟩,
    ⟨2, .assistant, py "oi", py "2026-07-30T13:30:00.5Z"⟩]

theorem sampleRows_ok : sampleRows.forM checkRow = .ok () := by rfl

theorem noMemories_ok : ([] : List LocalContextMemory).forM checkMemory = .ok () := rfl

def sampleLoaded : LoadedContextData := ⟨sampleRows, [], [], [], sampleRows_ok, noMemories_ok⟩

/-- The message of the earlier instant is rendered first, whatever its place and its offset. -/
theorem history_chronological_sample : ∃ (bundle : ContextBundle (PyStr ×ₗ Nat)) (r : ContextBuildResult),
    buildContextBundle (py "regras") sampleLoaded = .ok bundle ∧
    buildEnvelope bundle (py "tudo bem?") 1000 = .ok r ∧
    (r.messages.drop 1).map (·.content) = [py "oi", py "bom dia", py "tudo bem?"] ∧
    ∃ rows : List HistoryRow, rows.Subperm sampleRows ∧ rows.Pairwise RowBefore := by
  have hcontents : (buildContextBundle (py "regras") sampleLoaded >>= fun bundle =>
      buildEnvelope bundle (py "tudo bem?") 1000).toOption.map
        (fun r => (r.messages.drop 1).map (·.content)) =
      some [py "oi", py "bom dia", py "tudo bem?"] := by decide +kernel
  cases hbundle : buildContextBundle (py "regras") sampleLoaded with
  | error e =>
      rw [hbundle] at hcontents
      cases hcontents
  | ok bundle =>
      rw [hbundle, bind_of_ok] at hcontents
      cases hr : buildEnvelope bundle (py "tudo bem?") 1000 with
      | error e =>
          rw [hr] at hcontents
          cases hcontents
      | ok r =>
          rw [hr] at hcontents
          have hchronological := history_chronological (py "regras") (py "tudo bem?") 1000 sampleLoaded
            bundle (by decide) hbundle
          obtain ⟨s, rows, items, _, _, hsub, _, hordered⟩ := hchronological.2.1 r hr
          exact ⟨bundle, r, rfl, hr, Option.some.inj hcontents, rows, hsub, hordered⟩

end Katherine.Context
