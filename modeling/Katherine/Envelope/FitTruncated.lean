import Katherine.Envelope.Fit
import Katherine.Lib.JsonShape

/-!
# Where a section is cut

With `truncate_long_messages` a section that does not fit whole is cut to what remains of
the budget. What remains is counted in bytes of JSON, and the text is cut by its own
bytes; the line break before it and what it needs for escapes come on top. So a cut text
is too long by the two bytes of the line break, unless the cut falls inside a character
and loses as many (`CutFits.loses`), and where there is a suffix it is always too long.

A cut that does fit ends the selection: later tries render the section whole again
(`Fitting.Over.step_cut`).

So the loop has a closed form (`Fitting.outcome`), and what it misses can be read off the
sizes of the sections (`Served`).
-/

namespace Katherine.Context

open Py Local

/-! ## Cutting a text -/

theorem takeBytes_initial (n : Nat) (s : PyStr) : takeBytes n s <+: s := by
  induction s generalizing n with
  | nil => exact List.prefix_refl _
  | cons c s ih =>
      rw [takeBytes]
      split
      · exact (List.prefix_cons_inj c).mpr (ih _)
      · exact List.nil_prefix

theorem utf8Len_takeBytes_le (n : Nat) (s : PyStr) : utf8Len (takeBytes n s) ≤ n := by
  induction s generalizing n with
  | nil => exact Nat.zero_le n
  | cons c s ih =>
      rw [takeBytes]
      split
      · have := ih (n - utf8Size c)
        rw [utf8Len_cons]
        omega
      · exact Nat.zero_le n

/-- A text that is cut loses less than a character. -/
theorem le_utf8Len_takeBytes {n : Nat} {s : PyStr} (h : n < utf8Len s) : n ≤ utf8Len (takeBytes n s) + 3 := by
  induction s generalizing n with
  | nil => exact absurd h (Nat.not_lt_zero n)
  | cons c s ih =>
      have hsize := utf8Size_le c
      rw [utf8Len_cons] at h
      rw [takeBytes]
      split
      · have := ih (n := n - utf8Size c) (by omega)
        rw [utf8Len_cons]
        omega
      · omega

theorem encodable_of_prefix {s t : PyStr} (h : s <+: t) (ht : encodable t = true) : encodable s = true := by
  obtain ⟨u, rfl⟩ := h
  rw [encodable_append, Bool.and_eq_true] at ht
  exact ht.1

theorem utf8Size_le_escapedSize (c : CodePoint) : utf8Size c ≤ escapedSize c := by
  have hsmall : c.val < 128 → utf8Size c = 1 := fun h => if_pos h
  have hpos : ∀ d : CodePoint, ∀ s : PyStr, 1 ≤ utf8Len (d :: s) := by
    intro d s
    have := utf8Size_pos d
    rw [utf8Len_cons]
    omega
  have hascii : ∀ d : Char, d.toNat < 128 → c = cp d → utf8Size c = 1 := by
    rintro d hd rfl
    refine hsmall ?_
    have hval : (cp d).val = d.toNat % 0x110000 := rfl
    omega
  unfold escapedSize escapeChar
  split
  · next h => rw [hascii '"' (by decide) h]; exact hpos _ _
  split
  · next h => rw [hascii '\\' (by decide) h]; exact hpos _ _
  split
  · rw [hsmall (by omega)]; exact hpos _ _
  split
  · rw [hsmall (by omega)]; exact hpos _ _
  split
  · rw [hsmall (by omega)]; exact hpos _ _
  split
  · rw [hsmall (by omega)]; exact hpos _ _
  split
  · rw [hsmall (by omega)]; exact hpos _ _
  split
  · rw [hsmall (by omega)]; exact hpos _ _
  · rw [utf8Len_cons, utf8Len_nil]
    exact Nat.le_refl _

/-- Escaping makes no text shorter. -/
theorem utf8Len_le_escape (s : PyStr) : utf8Len s ≤ utf8Len (escape s) := by
  rw [utf8Len_escape]
  induction s with
  | nil => exact Nat.le_refl 0
  | cons c s ih =>
      have := utf8Size_le_escapedSize c
      rw [utf8Len_cons, weigh_cons]
      omega

theorem utf8Len_escape_marker : utf8Len (escape omissionMarker) = 5 := by decide

theorem utf8Len_escape_line (text : PyStr) :
    utf8Len (escape (py "\n" ++ text)) = 2 + utf8Len (escape text) := by
  have hline : utf8Len (escape (py "\n")) = 2 := by decide
  rw [utf8Len_escape_append, hline]

/-- A text that can be encoded is cut to one that can. -/
theorem truncateUtf8Safe_ok {text : PyStr} (h : encodable text = true) (maxBytes : Nat) :
    ∃ t was, truncateUtf8Safe text maxBytes = .ok (t, was) ∧ encodable t = true := by
  rw [truncateUtf8Safe, if_pos h]
  split
  · exact ⟨_, _, rfl, h⟩
  · refine ⟨_, _, rfl, ?_⟩
    rw [encodable_append, encodable_of_prefix (takeBytes_initial _ _) h]
    rfl

/-- The text a section is cut to where this much room is left. -/
def cutText (room : Nat) (content : PyStr) : PyStr := takeBytes (room - 5) content ++ omissionMarker

/-- The cut text is taken: there is no suffix, and the cut falls so that the line break finds room. -/
def CutFits (suffix : PyStr) (room : Nat) (content : PyStr) : Prop :=
  suffix = [] ∧ room < utf8Len content ∧ 2 + utf8Len (escape (cutText room content)) ≤ room

instance (suffix : PyStr) (room : Nat) (content : PyStr) : Decidable (CutFits suffix room content) :=
  inferInstanceAs (Decidable (_ ∧ _ ∧ _))

/-- **A cut that is taken loses at least two bytes of a character.** -/
theorem CutFits.loses {suffix : PyStr} {room : Nat} {content : PyStr} (h : CutFits suffix room content) :
    utf8Len (takeBytes (room - 5) content) + 2 ≤ room - 5 := by
  obtain ⟨_, _, hfits⟩ := h
  have hle := utf8Len_le_escape (takeBytes (room - 5) content)
  rw [cutText, utf8Len_escape_append, utf8Len_escape_marker] at hfits
  omega

/-- **Of a text in ASCII no cut is ever taken**: there is no character to lose bytes of. -/
theorem not_cutFits_of_ascii {suffix : PyStr} (room : Nat) {content : PyStr}
    (hascii : ∀ c ∈ content, c.val < 128) : ¬ CutFits suffix room content := by
  have htake : ∀ {s : PyStr}, (∀ c ∈ s, c.val < 128) → ∀ {n : Nat}, n ≤ utf8Len s →
      utf8Len (takeBytes n s) = n := by
    intro s
    induction s with
    | nil => exact fun _ {n} hn => (Nat.le_zero.mp hn).symm
    | cons c s ih =>
        intro hs n hn
        have hsize : utf8Size c = 1 := if_pos (hs c List.mem_cons_self)
        rw [utf8Len_cons, hsize] at hn
        rw [takeBytes, hsize]
        split
        · rw [utf8Len_cons, hsize, ih (fun d hd => hs d (List.mem_cons_of_mem c hd)) (by omega)]
          omega
        · rw [utf8Len_nil]
          omega
  intro h
  have hloses := h.loses
  have hlonger := h.2.1
  rw [htake hascii (by omega)] at hloses
  omega

/-! ## What a state shows -/

section Loop

variable {f : Fitting} {mandatory : List PyVal}

/-- The system message of the state is the header and this text. -/
structure Fitting.Shows (f : Fitting) (mandatory : List PyVal) (s : FitState) (text : PyStr) : Prop where
  touched : f.Touched mandatory s.messages
  content : contentAt s.messages f.systemContentIndex = f.mandatoryHeader ++ text
  enc : encodable text = true

/-- One more section fits beside what the state shows. -/
def Fitting.FitsBeside (f : Fitting) (s : FitState) (text : PyStr) : Prop :=
  ∃ n, estimateProviderInputUnits (.list (s.messages.set f.systemContentIndex (systemVal
    (contentAt s.messages f.systemContentIndex ++ (py "\n" ++ text) ++ suffixPayload f.suffix)))) = .ok n ∧
      n ≤ f.maxUnits

theorem Fitting.Shows.fitsBeside_iff {s : FitState} {shown text : PyStr} (hs : f.Shows mandatory s shown)
    (h : f.Over mandatory) (hsuffix : encodable (suffixPayload f.suffix) = true)
    (henc : encodable text = true) : f.FitsBeside s text ↔
      f.baseUnits mandatory + utf8Len (escape shown) + (2 + utf8Len (escape text)) ≤ f.maxUnits := by
  have hall : encodable (f.mandatoryHeader ++ shown ++ (py "\n" ++ text) ++ suffixPayload f.suffix) = true := by
    simp only [encodable_append, h.encodable_header, hs.enc, encodable_py, henc, hsuffix, Bool.and_self]
  have hunits : frameBytes mandatory f.systemContentIndex +
      utf8Len (escape (f.mandatoryHeader ++ shown ++ (py "\n" ++ text) ++ suffixPayload f.suffix)) =
        f.baseUnits mandatory + utf8Len (escape shown) + (2 + utf8Len (escape text)) := by
    rw [utf8Len_escape_append, utf8Len_escape_append, utf8Len_escape_append, utf8Len_escape_line,
      Fitting.baseUnits]
    omega
  rw [FitsBeside, hs.content, hs.touched.set]
  constructor
  · rintro ⟨n, hn, hle⟩
    obtain ⟨_, rfl⟩ := (estimateProviderInputUnits_set h.sendable h.lt).mp hn
    rwa [hunits] at hle
  · intro hle
    exact ⟨_, (estimateProviderInputUnits_set h.sendable h.lt).mpr ⟨hall, rfl⟩, by rwa [hunits]⟩

/-! ## The message as it came -/

/-- A message that was checked is its role and its content, in some order. -/
theorem jsonBytes_checked {m : PyVal} {content : PyStr} (hpython : m.isPython = true)
    (hchecked : checkMessage m = .ok ()) (hsystem : isSystem m = true) {ms : List PyVal} {i : Nat}
    (hm : ms[i]? = some m) (hcontent : contentAt ms i = content) :
    jsonBytes m = jsonBytes (systemVal content) := by
  cases m with
  | dict kvs =>
      have hparts : (∀ p ∈ kvs, PyKey.isOneOf validMessageKeys p.1 = true) ∧
          ∃ c, dictGet kvs (py "content") = some (.str c) := by
        simp only [checkMessage] at hchecked
        split at hchecked
        · cases hchecked
        · next hall =>
            obtain ⟨_, _, hget⟩ := bind_ok_iff.mp hchecked
            refine ⟨by simpa using hall, ?_⟩
            split at hget
            · next c hc => exact ⟨c, hc⟩
            · cases hget
      obtain ⟨hallowed, c, hc⟩ := hparts
      have hkey : ∀ p ∈ kvs, p.1 = .str (py "role") ∨ p.1 = .str (py "content") := by
        intro p hp
        have hallowed := hallowed p hp
        cases hk : p.1 with
        | str k =>
            rw [hk, PyKey.isOneOf, decide_eq_true_eq, validMessageKeys, List.mem_cons,
              List.mem_singleton] at hallowed
            rcases hallowed with rfl | rfl
            · exact .inl rfl
            · exact .inr rfl
        | num t => rw [hk] at hallowed; cases hallowed
        | none => rw [hk] at hallowed; cases hallowed
        | other => rw [hk] at hallowed; cases hallowed
      have hstr : ∀ p ∈ kvs, p.1.isStr = true := by
        intro p hp
        rcases hkey p hp with hk | hk <;> rw [hk] <;> rfl
      have hnodup := nodup_of_isPython hpython hstr
      have hrole : dictGet kvs (py "role") = some (.str (py "system")) := by
        simp only [isSystem] at hsystem
        split at hsystem
        · next role hrole => rw [hrole, of_decide_eq_true hsystem]
        · cases hsystem
      have hcontent : dictGet kvs (py "content") = some (.str content) := by
        rw [contentAt, hm] at hcontent
        simp only [hc] at hcontent
        rw [hc, hcontent]
      have hperm : kvs.Perm [(.str (py "role"), .str (py "system")), (.str (py "content"), .str content)] := by
        have hpair : ([(.str (py "role"), .str (py "system")), (.str (py "content"), .str content)] :
            List (PyKey × PyVal)).Nodup := by
          rw [List.nodup_cons]
          refine ⟨fun hin => ?_, List.nodup_singleton _⟩
          have hne : PyKey.str (py "role") ≠ .str (py "content") := by decide
          exact hne (congrArg Prod.fst (List.mem_singleton.mp hin))
        have hr := (dictGet_eq_some hnodup).mp hrole
        have hc := (dictGet_eq_some hnodup).mp hcontent
        rw [List.perm_ext_iff_of_nodup (List.Nodup.of_map _ hnodup) hpair]
        intro p
        rw [List.mem_cons, List.mem_singleton]
        constructor
        · intro hp
          rcases hkey p hp with hk | hk
          · exact .inl (List.inj_on_of_nodup_map hnodup hp hr hk)
          · exact .inr (List.inj_on_of_nodup_map hnodup hp hc hk)
        · rintro (rfl | rfl)
          · exact hr
          · exact hc
      rw [systemVal, jsonBytes, jsonBytes, weighJson, weighJson, weighItems_eq_sum, weighItems_eq_sum,
        (hperm.map _).sum_eq, hperm.length_eq]
  | _ => cases hsystem

/-- The mandatory messages weigh what they do with the header put back. -/
theorem Fitting.Over.jsonBytes_mandatory (h : f.Over mandatory)
    (hpython : ∀ m ∈ mandatory, m.isPython = true) : jsonBytes (.list mandatory) =
      frameBytes mandatory f.systemContentIndex + utf8Len (escape f.mandatoryHeader) := by
  obtain ⟨hi, hsystem, _⟩ := List.findIdx?_eq_some_iff_getElem.mp h.index
  have hmem := List.getElem_mem hi
  have hbytes := jsonBytes_checked (hpython _ hmem) (h.sendable _ hmem).checked hsystem
    (List.getElem?_eq_getElem hi) h.header.symm
  have hset := jsonBytes_set hi mandatory[f.systemContentIndex] (systemVal f.mandatoryHeader)
  rw [List.set_getElem_self, jsonBytes_set_systemVal hi] at hset
  omega

/-! ## What remains -/

theorem Fitting.Over.shows_stateOf (h : f.Over mandatory) {kept : List Nat}
    (hkept : Indices f.components kept)
    (henc : ∀ k ∈ kept, encodable (componentAt f.components k).2 = true) :
    f.Shows mandatory (f.stateOf mandatory kept) (sectionsText f.components kept.toFinset) where
  touched := f.stateOf_touched mandatory kept
  content := h.contentAt_stateOf kept
  enc := (encodable_sectionsText fun k hk => hkept.range k (List.mem_toFinset.mp hk)).mpr
    fun k hk => henc k (List.mem_toFinset.mp hk)

/-- What the code takes for the remaining budget, in whatever state. -/
theorem Fitting.Shows.remaining {s : FitState} {shown : PyStr} (hs : f.Shows mandatory s shown)
    (h : f.Over mandatory) (hpython : ∀ m ∈ mandatory, m.isPython = true)
    (hsuffix : encodable (suffixPayload f.suffix) = true) :
    estimateRemainingBudget s.messages f.maxUnits (suffixPayload f.suffix) =
      .ok (f.maxUnits - (frameBytes mandatory f.systemContentIndex + utf8Len (escape f.mandatoryHeader)
        + utf8Len (escape shown)) - utf8Len (suffixPayload f.suffix)) := by
  have hunits : estimateProviderInputUnits (.list s.messages) =
      .ok (frameBytes mandatory f.systemContentIndex + utf8Len (escape f.mandatoryHeader)
        + utf8Len (escape shown)) := by
    rcases hs.touched with hm | ⟨content, hm⟩
    · have hnil : shown = [] := by
        have hcontent := hs.content
        rw [hm, ← h.header] at hcontent
        exact List.append_cancel_left (hcontent.symm.trans (List.append_nil _).symm)
      rw [hm, estimateProviderInputUnits_eq_ok, hnil]
      exact ⟨fun m hm => ⟨(h.sendable m hm).serialisable, (h.sendable m hm).encodable⟩,
        (h.jsonBytes_mandatory hpython).symm⟩
    · have hcontent := hs.content
      rw [hm, contentAt_set h.lt] at hcontent
      rw [hm, estimateProviderInputUnits_set h.sendable h.lt, hcontent, utf8Len_escape_append,
        encodable_append, h.encodable_header, hs.enc]
      exact ⟨rfl, by omega⟩
  rw [estimateRemainingBudget, hunits, bind_of_ok]
  cases hp : suffixPayload f.suffix with
  | nil => rfl
  | cons c p =>
      rw [hp] at hsuffix
      have hpos := utf8Size_pos c
      have hmax : max 1 (utf8Len (c :: p)) = utf8Len (c :: p) := by
        rw [utf8Len_cons]
        omega
      rw [if_neg (by simp), estimateTextUnits, if_pos hsuffix, hmax]
      rfl

/-! ## The cut -/

theorem componentAt_set_self {components : List (PyStr × PyStr)} {idx : Nat} (h : idx < components.length)
    (c : PyStr × PyStr) : componentAt (components.set idx c) idx = c := by
  simp [componentAt, List.getD_eq_getElem?_getD, List.getElem?_set_self h]

theorem componentAt_set_ne {components : List (PyStr × PyStr)} {idx k : Nat} (h : k ≠ idx)
    (c : PyStr × PyStr) : componentAt (components.set idx c) k = componentAt components k := by
  simp [componentAt, List.getD_eq_getElem?_getD, List.getElem?_set_ne h.symm]

/-- The sections with one of them cut to a text. -/
def cutComponents (components : List (PyStr × PyStr)) (idx : Nat) (text : PyStr) : List (PyStr × PyStr) :=
  components.set idx ((componentAt components idx).1, text)

theorem Indices.cut {components : List (PyStr × PyStr)} {kept : List Nat} (h : Indices components kept)
    (idx : Nat) (text : PyStr) : Indices (cutComponents components idx text) kept :=
  ⟨h.nodup, fun k hk => by rw [cutComponents, List.length_set]; exact h.range k hk⟩

/-- The others weigh what they did. -/
theorem sum_sectionUnits_cut {components : List (PyStr × PyStr)} {kept : List Nat} {idx : Nat}
    (h : idx ∉ kept) (text : PyStr) : (kept.map (sectionUnits (cutComponents components idx text))).sum =
      (kept.map (sectionUnits components)).sum := by
  refine congrArg List.sum (List.map_congr_left fun k hk => ?_)
  rw [sectionUnits, cutComponents, componentAt_set_ne (ne_of_mem_of_not_mem hk h), sectionUnits]

theorem sectionUnits_cut {components : List (PyStr × PyStr)} {idx : Nat} (h : idx < components.length)
    (text : PyStr) : sectionUnits (cutComponents components idx text) idx = 2 + utf8Len (escape text) := by
  rw [sectionUnits, cutComponents, componentAt_set_self h, utf8Len_escape_line]

/-- The state once a section was cut. -/
def Fitting.cutState (f : Fitting) (mandatory : List PyVal) (kept : List Nat) (idx : Nat) (text : PyStr) :
    FitState where
  messages := f.rendered mandatory
    (sectionsText (cutComponents f.components idx text) (kept ++ [idx]).toFinset)
  selected := (kept ++ [idx]).toFinset

/-- What these sections leave of the budget. -/
def Fitting.room (f : Fitting) (mandatory : List PyVal) (kept : List Nat) : Nat :=
  f.maxUnits - (f.baseUnits mandatory + (kept.map (sectionUnits f.components)).sum)

theorem not_mem_of_nodup_append {kept : List Nat} {idx : Nat} (h : (kept ++ [idx]).Nodup) : idx ∉ kept :=
  fun hidx => (List.nodup_append.mp h).2.2 idx hidx idx (List.mem_singleton_self idx) rfl

/-- A suffix that is there takes two bytes more in the string than by itself, for its line breaks. -/
theorem suffixPayload_escape {suffix : PyStr} (h : suffix ≠ []) :
    utf8Len (suffixPayload suffix) + 2 ≤ utf8Len (escape (suffixPayload suffix)) := by
  have hlines : utf8Len (py "\n\n") = 2 ∧ utf8Len (escape (py "\n\n")) = 4 := by decide
  have hle := utf8Len_le_escape suffix
  rw [suffixPayload, if_neg (by simpa using h), utf8Len_append, utf8Len_escape_append, hlines.1, hlines.2]
  omega

theorem sum_sectionUnits_cut_append {components : List (PyStr × PyStr)} {kept : List Nat} {idx : Nat}
    (h : Indices components (kept ++ [idx])) (text : PyStr) :
    ((kept ++ [idx]).map (sectionUnits (cutComponents components idx text))).sum =
      (kept.map (sectionUnits components)).sum + (2 + utf8Len (escape text)) := by
  rw [List.map_append, List.sum_append, sum_sectionUnits_cut (not_mem_of_nodup_append h.nodup),
    List.map_singleton, List.sum_singleton, sectionUnits_cut (h.range idx (by simp))]

theorem encodable_cut {components : List (PyStr × PyStr)} {kept : List Nat} {idx : Nat} {text : PyStr}
    (h : Indices components (kept ++ [idx])) (htext : encodable text = true)
    (henc : ∀ k ∈ kept, encodable (componentAt components k).2 = true) :
    ∀ k ∈ kept ++ [idx], encodable (componentAt (cutComponents components idx text) k).2 = true := by
  intro k hk
  rcases List.mem_append.mp hk with hk | hk
  · rw [cutComponents, componentAt_set_ne (ne_of_mem_of_not_mem hk (not_mem_of_nodup_append h.nodup))]
    exact henc k hk
  · rw [List.mem_singleton.mp hk, cutComponents, componentAt_set_self (h.range idx (by simp))]
    exact htext

/-- **The cut to what the code takes for the remaining budget fits exactly if `CutFits`**: without a
suffix the estimate is right, and with one it is too high by two bytes at least. -/
theorem cutFits_iff {suffix content cut : PyStr} {room remaining : Nat}
    (hsame : suffix = [] → remaining = room) (hmore : suffix ≠ [] → room + 2 ≤ remaining)
    (hlong : remaining < utf8Len content)
    (hcut : cut = takeBytes (max (remaining - utf8Len omissionMarker) 1) content ++ omissionMarker) :
    (cut ≠ content ∧ 2 + utf8Len (escape cut) ≤ room ↔ CutFits suffix room content) ∧
      (CutFits suffix room content → cutText room content = cut) := by
  have hmarker : utf8Len omissionMarker = 5 := by decide
  have htext : CutFits suffix room content → cutText room content = cut := by
    intro h
    have hloses := h.loses
    rw [hcut, hmarker, hsame h.1, Nat.max_eq_left (by omega), cutText]
  refine ⟨⟨?_, ?_⟩, htext⟩
  · rintro ⟨_, hfits⟩
    have hle := utf8Len_le_escape (takeBytes (max (remaining - 5) 1) content)
    have hseven : utf8Len (takeBytes (max (remaining - 5) 1) content) + 7 ≤ room := by
      rw [hcut, hmarker, utf8Len_escape_append, utf8Len_escape_marker] at hfits
      omega
    have hsuffix : suffix = [] := by
      by_contra hsuffix
      -- the cut comes within three bytes of the estimate, which is two too high
      have hmore := hmore hsuffix
      have hloss := le_utf8Len_takeBytes (n := max (remaining - 5) 1) (s := content) (by omega)
      omega
    have hsame := hsame hsuffix
    refine ⟨hsuffix, by omega, ?_⟩
    rw [cutText, ← hsame]
    rwa [hcut, hmarker, Nat.max_eq_left (by omega), ← hsame] at hfits
  · intro h
    have hcutText := htext h
    refine ⟨fun heq => ?_, by rw [← hcutText]; exact h.2.2⟩
    -- the cut is within the room, the content is not
    have hlen := congrArg utf8Len (hcutText.trans heq)
    have hcutle := utf8Len_takeBytes_le (room - 5) content
    have hloses := h.loses
    have hlonger := h.2.1
    rw [cutText, utf8Len_append, hmarker] at hlen
    omega

/-- A section that does not fit whole is left out, or cut where `CutFits`. -/
theorem Fitting.Over.tryTruncated_stateOf (h : f.Over mandatory)
    (hpython : ∀ m ∈ mandatory, m.isPython = true) {kept : List Nat} {idx : Nat}
    (hkept : Indices f.components (kept ++ [idx])) (henc : f.Encodable (kept ++ [idx]))
    (hle : f.baseUnits mandatory + (kept.map (sectionUnits f.components)).sum ≤ f.maxUnits) :
    f.tryTruncated (f.stateOf mandatory kept) idx = .ok
      (if CutFits f.suffix (f.room mandatory kept) (componentAt f.components idx).2 then
        f.cutState mandatory kept idx (cutText (f.room mandatory kept) (componentAt f.components idx).2)
      else f.stateOf mandatory kept) := by
  obtain ⟨label, content, hcomponent⟩ : ∃ label content, componentAt f.components idx = (label, content) :=
    ⟨_, _, rfl⟩
  have hindices := hkept.mono (List.sublist_append_left kept [idx])
  have hencKept : ∀ k ∈ kept, encodable (componentAt f.components k).2 = true :=
    fun k hk => henc.1 k (List.mem_append_left _ hk)
  have hcontent : encodable content = true := by
    have := henc.1 idx (by simp)
    rwa [hcomponent] at this
  have hremaining := (h.shows_stateOf hindices hencKept).remaining h hpython henc.2
  rw [utf8Len_sectionsText hindices.nodup hindices.range] at hremaining
  obtain ⟨room, hroom⟩ : ∃ room, room = f.room mandatory kept := ⟨_, rfl⟩
  obtain ⟨remaining, hrem⟩ : ∃ remaining, remaining = f.maxUnits - (frameBytes mandatory
      f.systemContentIndex + utf8Len (escape f.mandatoryHeader) + (kept.map (sectionUnits f.components)).sum)
        - utf8Len (suffixPayload f.suffix) := ⟨_, rfl⟩
  rw [← hrem] at hremaining
  have hsame : f.suffix = [] → remaining = room := by
    intro hsuffix
    have hnil : utf8Len (suffixPayload f.suffix) = 0 ∧ utf8Len (escape (suffixPayload f.suffix)) = 0 := by
      rw [hsuffix]
      exact ⟨rfl, rfl⟩
    rw [hrem, hroom, Fitting.room, Fitting.baseUnits]
    omega
  have hmore : f.suffix ≠ [] → room + 2 ≤ remaining := by
    intro hsuffix
    have := suffixPayload_escape hsuffix
    rw [Fitting.baseUnits] at hle
    rw [hrem, hroom, Fitting.room, Fitting.baseUnits]
    omega
  have hroomle : f.baseUnits mandatory + (kept.map (sectionUnits f.components)).sum + room = f.maxUnits := by
    rw [hroom, Fitting.room]
    omega
  rw [← hroom, hcomponent, Fitting.tryTruncated]
  simp only [hcomponent, hremaining, bind_of_ok]
  by_cases hzero : remaining = 0
  · rw [if_pos hzero, if_neg fun hcut => ?_]
    · rfl
    · have := hsame hcut.1
      have := hcut.loses
      omega
  · rw [if_neg hzero, truncateUtf8Safe, if_pos hcontent]
    by_cases hshort : utf8Len content ≤ remaining
    · -- it would fit by its own bytes, and is left as it is
      rw [if_pos hshort, bind_of_ok, if_neg (c := CutFits f.suffix room content) fun hcut => ?_]
      · exact if_pos rfl
      · have := hsame hcut.1
        have := hcut.2.1
        omega
    · rw [if_neg hshort, bind_of_ok]
      obtain ⟨cut, hcut⟩ : ∃ cut, cut = takeBytes (max (remaining - utf8Len omissionMarker) 1) content ++
          omissionMarker := ⟨_, rfl⟩
      obtain ⟨hiff, htext⟩ := cutFits_iff hsame hmore (by omega) hcut
      rw [← hcut]
      dsimp only
      by_cases heq : cut = content
      · rw [if_pos heq, if_neg fun h => (hiff.mpr h).1 heq]
        rfl
      · rw [if_neg heq]
        have hselected : insert idx (f.stateOf mandatory kept).selected = (kept ++ [idx]).toFinset :=
          insert_toFinset kept idx
        have hcomponents : f.components.set idx (label, cut) = cutComponents f.components idx cut := by
          rw [cutComponents, hcomponent]
        have hcutEnc : encodable cut = true := by
          rw [hcut, encodable_append, encodable_of_prefix (takeBytes_initial _ _) hcontent]
          rfl
        have hattempt := h.attempt_sections (f.stateOf_set mandatory kept) (hkept.cut idx cut)
        rw [if_pos ⟨encodable_cut hkept hcutEnc hencKept, henc.2⟩, sum_sectionUnits_cut_append hkept] at hattempt
        simp only [hselected, hcomponents, hattempt, bind_of_ok]
        by_cases hfits : 2 + utf8Len (escape cut) ≤ room
        · have hcutFits := hiff.mp ⟨heq, hfits⟩
          rw [if_pos (by omega), if_pos hcutFits, htext hcutFits]
          rfl
        · rw [if_neg (by omega), if_neg fun h => hfits (hiff.mpr h).2]
          have herase : (kept ++ [idx]).toFinset.erase idx = kept.toFinset := by
            rw [← insert_toFinset, Finset.erase_insert
              (List.mem_toFinset.not.mpr (not_mem_of_nodup_append hkept.nodup))]
          simp only [herase]
          rfl

/-- What a state with a cut section shows. -/
theorem Fitting.Over.shows_cutState (h : f.Over mandatory) {kept : List Nat} {idx : Nat} {text : PyStr}
    (hkept : Indices f.components (kept ++ [idx])) (htext : encodable text = true)
    (henc : ∀ k ∈ kept, encodable (componentAt f.components k).2 = true) :
    f.Shows mandatory (f.cutState mandatory kept idx text)
      (sectionsText (cutComponents f.components idx text) (kept ++ [idx]).toFinset) where
  touched := .inr ⟨_, rfl⟩
  content := contentAt_set h.lt _
  enc := (encodable_sectionsText fun k hk => (hkept.cut idx text).range k (List.mem_toFinset.mp hk)).mpr
    fun k hk => encodable_cut hkept htext henc k (List.mem_toFinset.mp hk)

/-- **After a cut nothing more is taken**: every try has the section in it whole. -/
theorem Fitting.Over.step_cut (h : f.Over mandatory) (hpython : ∀ m ∈ mandatory, m.isPython = true)
    {kept : List Nat} {idx k : Nat} {text : PyStr} (hkept : Indices f.components ((kept ++ [idx]) ++ [k]))
    (henc : f.Encodable ((kept ++ [idx]) ++ [k])) (htext : encodable text = true)
    (htoo : f.maxUnits < f.baseUnits mandatory + ((kept ++ [idx]).map (sectionUnits f.components)).sum) :
    f.step (f.cutState mandatory kept idx text) k = .ok (f.cutState mandatory kept idx text) := by
  obtain ⟨label, content, hcomponent⟩ : ∃ label content, componentAt f.components k = (label, content) :=
    ⟨_, _, rfl⟩
  have hindices := hkept.mono (List.sublist_append_left (kept ++ [idx]) [k])
  have hshows := h.shows_cutState hindices htext fun j hj => henc.1 j (by simp [hj])
  have hset := fun v => hshows.touched.set v
  have hnew : k ∉ (f.cutState mandatory kept idx text).selected :=
    List.mem_toFinset.not.mpr (not_mem_of_nodup_append hkept.nodup)
  have hselected : insert k (f.cutState mandatory kept idx text).selected =
      ((kept ++ [idx]) ++ [k]).toFinset := insert_toFinset (kept ++ [idx]) k
  have hcontent : encodable content = true := by
    have := henc.1 k (by simp)
    rwa [hcomponent] at this
  rw [Fitting.step]
  by_cases hempty : (componentAt f.components k).2.isEmpty = true
  · rw [if_pos hempty]
    rfl
  · have hwhole := h.attempt_sections hset hkept
    rw [if_pos ⟨henc.1, henc.2⟩, if_neg (by rw [List.map_append, List.sum_append]; omega)] at hwhole
    rw [if_neg hempty]
    simp only [hselected, hwhole, bind_of_ok]
    have hback : FitState.mk (f.cutState mandatory kept idx text).messages
        (((kept ++ [idx]) ++ [k]).toFinset.erase k) = f.cutState mandatory kept idx text := by
      rw [← hselected, Finset.erase_insert hnew]
    rw [hback]
    split
    · have hremaining := hshows.remaining h hpython henc.2
      rw [Fitting.tryTruncated]
      simp only [hcomponent, hremaining, bind_of_ok]
      split
      · rfl
      · next hrest =>
          obtain ⟨cut, was, hcut, hcutEnc⟩ := truncateUtf8Safe_ok hcontent (f.maxUnits - (frameBytes mandatory
            f.systemContentIndex + utf8Len (escape f.mandatoryHeader) + utf8Len (escape (sectionsText
              (cutComponents f.components idx text) (kept ++ [idx]).toFinset)))
                - utf8Len (suffixPayload f.suffix))
          rw [hcut, bind_of_ok]
          dsimp only
          split
          · rfl
          · have hcomponents : f.components.set k (label, cut) = cutComponents f.components k cut := by
              rw [cutComponents, hcomponent]
            have hattempt := h.attempt_sections hset (hkept.cut k cut)
            rw [if_pos ⟨encodable_cut hkept hcutEnc fun j hj => henc.1 j (List.mem_append_left _ hj), henc.2⟩,
              sum_sectionUnits_cut_append hkept, if_neg (by omega)] at hattempt
            simp only [hselected, hcomponents, hattempt, bind_of_ok]
            rw [hback]
            rfl
    · rfl

/-! ## The loop in closed form -/

/-- What the loop ends in: whole sections as long as they fit, and one cut at most. -/
def Fitting.outcome (f : Fitting) (mandatory : List PyVal) : List Nat → List Nat → FitState
  | kept, [] => f.stateOf mandatory kept
  | kept, idx :: rest =>
      let content := (componentAt f.components idx).2
      if content = [] then f.outcome mandatory kept rest
      else if f.fits mandatory (kept ++ [idx]) then f.outcome mandatory (kept ++ [idx]) rest
      else if CutFits f.suffix (f.room mandatory kept) content then
        f.cutState mandatory kept idx (cutText (f.room mandatory kept) content)
      else f.outcome mandatory kept rest

theorem fits_append_iff {kept : List Nat} (idx : Nat)
    (hle : f.baseUnits mandatory + (kept.map (sectionUnits f.components)).sum ≤ f.maxUnits) :
    f.fits mandatory (kept ++ [idx]) = true ↔ sectionUnits f.components idx ≤ f.room mandatory kept := by
  rw [Fitting.fits, decide_eq_true_eq, Fitting.room, List.map_append, List.sum_append, List.map_singleton,
    List.sum_singleton]
  omega

/-- Sections that were kept, and those that are still to come. -/
structure Fitting.Ready (f : Fitting) (mandatory : List PyVal) (kept order : List Nat) : Prop where
  indices : Indices f.components (kept ++ order)
  keptEnc : ∀ k ∈ kept, encodable (componentAt f.components k).2 = true
  orderEnc : ∀ k ∈ order, encodable (componentAt f.components k).2 = true
  suffixEnc : encodable (suffixPayload f.suffix) = true
  within : f.baseUnits mandatory + (kept.map (sectionUnits f.components)).sum ≤ f.maxUnits

theorem Fitting.Ready.skip {kept rest : List Nat} {idx : Nat} (h : f.Ready mandatory kept (idx :: rest)) :
    f.Ready mandatory kept rest :=
  { h with
    indices := h.indices.mono ((List.Sublist.refl kept).append (List.sublist_cons_self idx rest))
    orderEnc := fun k hk => h.orderEnc k (List.mem_cons_of_mem idx hk) }

theorem Fitting.Ready.take {kept rest : List Nat} {idx : Nat} (h : f.Ready mandatory kept (idx :: rest))
    (hfits : f.fits mandatory (kept ++ [idx]) = true) : f.Ready mandatory (kept ++ [idx]) rest where
  indices := by
    have := h.indices
    rwa [List.append_cons] at this
  keptEnc := by
    intro k hk
    rcases List.mem_append.mp hk with hk | hk
    · exact h.keptEnc k hk
    · rw [List.mem_singleton.mp hk]
      exact h.orderEnc idx List.mem_cons_self
  orderEnc k hk := h.orderEnc k (List.mem_cons_of_mem idx hk)
  suffixEnc := h.suffixEnc
  within := of_decide_eq_true hfits

theorem Fitting.Ready.head {kept rest : List Nat} {idx : Nat} (h : f.Ready mandatory kept (idx :: rest)) :
    Indices f.components (kept ++ [idx]) ∧ f.Encodable (kept ++ [idx]) := by
  refine ⟨h.indices.mono ((List.Sublist.refl kept).append ((List.nil_sublist rest).cons_cons idx)), ?_,
    h.suffixEnc⟩
  intro k hk
  rcases List.mem_append.mp hk with hk | hk
  · exact h.keptEnc k hk
  · rw [List.mem_singleton.mp hk]
    exact h.orderEnc idx List.mem_cons_self

/-- After a cut the loop stands still. -/
theorem Fitting.Over.run_cut (h : f.Over mandatory) (hpython : ∀ m ∈ mandatory, m.isPython = true)
    {kept : List Nat} {idx : Nat} {text : PyStr} (htext : encodable text = true)
    (hnot : f.fits mandatory (kept ++ [idx]) = false) {rest : List Nat} :
    f.Ready mandatory kept (idx :: rest) →
      rest.foldlM f.step (f.cutState mandatory kept idx text) = .ok (f.cutState mandatory kept idx text) := by
  induction rest with
  | nil => exact fun _ => rfl
  | cons k rest ih =>
      intro hready
      have hassoc : kept ++ idx :: k :: rest = ((kept ++ [idx]) ++ [k]) ++ rest := by simp
      have hkept : Indices f.components ((kept ++ [idx]) ++ [k]) := by
        have := hready.indices
        rw [hassoc] at this
        exact this.mono (List.sublist_append_left _ rest)
      have henc : f.Encodable ((kept ++ [idx]) ++ [k]) := by
        refine ⟨fun j hj => ?_, hready.suffixEnc⟩
        rcases List.mem_append.mp hj with hj | hj
        · exact hready.head.2.1 j hj
        · rw [List.mem_singleton.mp hj]
          exact hready.orderEnc k (by simp)
      have hrest : f.Ready mandatory kept (idx :: rest) :=
        { hready with
          indices := hready.indices.mono ((List.Sublist.refl kept).append
            ((List.sublist_cons_self k rest).cons_cons idx))
          orderEnc := fun j hj => hready.orderEnc j ((List.sublist_cons_self k rest).cons_cons idx |>.subset hj) }
      rw [List.foldlM_cons, h.step_cut hpython hkept henc htext
        (Nat.lt_of_not_le (of_decide_eq_false hnot)), bind_of_ok]
      exact ih hrest

/-- One step from whole sections, with truncation. -/
theorem Fitting.Over.step_outcome (h : f.Over mandatory) (hpython : ∀ m ∈ mandatory, m.isPython = true)
    (htruncate : f.truncateLongMessages = true) {kept rest : List Nat} {idx : Nat}
    (hready : f.Ready mandatory kept (idx :: rest)) (hne : (componentAt f.components idx).2 ≠ []) :
    f.step (f.stateOf mandatory kept) idx = .ok
      (if f.fits mandatory (kept ++ [idx]) then f.stateOf mandatory (kept ++ [idx])
      else if CutFits f.suffix (f.room mandatory kept) (componentAt f.components idx).2 then
        f.cutState mandatory kept idx (cutText (f.room mandatory kept) (componentAt f.components idx).2)
      else f.stateOf mandatory kept) := by
  obtain ⟨hkept, henc⟩ := hready.head
  rw [(h.step_eq hkept hne).1 henc, if_pos htruncate,
    h.tryTruncated_stateOf hpython hkept henc hready.within]
  split <;> rfl

theorem encodable_cutText {content : PyStr} (h : encodable content = true) (room : Nat) :
    encodable (cutText room content) = true := by
  rw [cutText, encodable_append, encodable_of_prefix (takeBytes_initial _ _) h]
  rfl

/-- **The loop ends in its outcome.** -/
theorem Fitting.Over.run_outcome (h : f.Over mandatory) (hpython : ∀ m ∈ mandatory, m.isPython = true)
    (htruncate : f.truncateLongMessages = true) {order : List Nat} : ∀ {kept : List Nat},
      f.Ready mandatory kept order →
        order.foldlM f.step (f.stateOf mandatory kept) = .ok (f.outcome mandatory kept order) := by
  induction order with
  | nil => exact fun _ => rfl
  | cons idx rest ih =>
      intro kept hready
      rw [List.foldlM_cons, Fitting.outcome]
      by_cases hempty : (componentAt f.components idx).2 = []
      · rw [f.step_empty _ hempty, bind_of_ok, if_pos hempty]
        exact ih hready.skip
      · rw [h.step_outcome hpython htruncate hready hempty, bind_of_ok, if_neg hempty]
        by_cases hfits : f.fits mandatory (kept ++ [idx]) = true
        · rw [if_pos hfits, if_pos hfits]
          exact ih (hready.take hfits)
        · rw [if_neg hfits, if_neg hfits]
          by_cases hcut : CutFits f.suffix (f.room mandatory kept) (componentAt f.components idx).2
          · rw [if_pos hcut, if_pos hcut]
            exact h.run_cut hpython (encodable_cutText (hready.orderEnc idx List.mem_cons_self) _)
              (Bool.eq_false_iff.mpr hfits) hready
          · rw [if_neg hcut, if_neg hcut]
            exact ih hready.skip

/-! ## What the outcome has in it -/

/-- A section is in what a state shows. -/
def Fitting.Has (f : Fitting) (s : FitState) (idx : Nat) (text : PyStr) : Prop :=
  idx ∈ s.selected ∧ py "\n" ++ text <:+: contentAt s.messages f.systemContentIndex

theorem infix_sectionsText {components : List (PyStr × PyStr)} {selected : Finset Nat} {k : Nat}
    (hk : k ∈ selected) (hrange : k < components.length) :
    py "\n" ++ (componentAt components k).2 <:+: sectionsText components selected := by
  have hmem : componentAt components k ∈ candidateComponents components selected :=
    List.mem_map_of_mem (List.mem_filter.mpr ⟨List.mem_range.mpr hrange, decide_eq_true hk⟩)
  exact List.infix_of_mem_flatten (List.mem_map_of_mem (f := fun c => py "\n" ++ c.2) hmem)

theorem Fitting.Over.has_stateOf (h : f.Over mandatory) {kept : List Nat}
    (hkept : Indices f.components kept) {k : Nat} (hk : k ∈ kept) :
    f.Has (f.stateOf mandatory kept) k (componentAt f.components k).2 := by
  refine ⟨List.mem_toFinset.mpr hk, ?_⟩
  rw [h.contentAt_stateOf]
  exact (infix_sectionsText (List.mem_toFinset.mpr hk) (hkept.range k hk)).trans
    (List.suffix_append _ _).isInfix

theorem Fitting.Over.has_cutState (h : f.Over mandatory) {kept : List Nat} {idx : Nat}
    (hkept : Indices f.components (kept ++ [idx])) (text : PyStr) :
    f.Has (f.cutState mandatory kept idx text) idx text ∧
      ∀ k ∈ kept, f.Has (f.cutState mandatory kept idx text) k (componentAt f.components k).2 := by
  have hcontent : contentAt (f.cutState mandatory kept idx text).messages f.systemContentIndex =
      f.mandatoryHeader ++ sectionsText (cutComponents f.components idx text) (kept ++ [idx]).toFinset :=
    contentAt_set h.lt _
  have hhas : ∀ k ∈ kept ++ [idx], f.Has (f.cutState mandatory kept idx text) k
      (componentAt (cutComponents f.components idx text) k).2 := by
    intro k hk
    refine ⟨List.mem_toFinset.mpr hk, ?_⟩
    rw [hcontent]
    exact (infix_sectionsText (List.mem_toFinset.mpr hk) ((hkept.cut idx text).range k hk)).trans
      (List.suffix_append _ _).isInfix
  refine ⟨?_, fun k hk => ?_⟩
  · have := hhas idx (by simp)
    rwa [cutComponents, componentAt_set_self (hkept.range idx (by simp))] at this
  · have := hhas k (List.mem_append_left _ hk)
    rwa [cutComponents,
      componentAt_set_ne (ne_of_mem_of_not_mem hk (not_mem_of_nodup_append hkept.nodup))] at this

/-- What was kept stays, and nothing gets in that is not looked at. -/
theorem Fitting.Over.outcome_has (h : f.Over mandatory) {order : List Nat} : ∀ {kept : List Nat},
    Indices f.components (kept ++ order) →
      (∀ k ∈ kept, f.Has (f.outcome mandatory kept order) k (componentAt f.components k).2) ∧
      ∀ k ∈ (f.outcome mandatory kept order).selected, k ∈ kept ++ order := by
  induction order with
  | nil =>
      intro kept hkept
      rw [List.append_nil] at hkept ⊢
      exact ⟨fun k hk => h.has_stateOf hkept hk, fun k hk => List.mem_toFinset.mp hk⟩
  | cons idx rest ih =>
      intro kept hkept
      have hskip : Indices f.components (kept ++ rest) :=
        hkept.mono ((List.Sublist.refl kept).append (List.sublist_cons_self idx rest))
      have htake : Indices f.components ((kept ++ [idx]) ++ rest) := List.append_cons kept idx rest ▸ hkept
      have hwider : ∀ k ∈ kept ++ rest, k ∈ kept ++ idx :: rest := fun k hk =>
        ((List.Sublist.refl kept).append (List.sublist_cons_self idx rest)).subset hk
      rw [Fitting.outcome]
      split
      · exact ⟨(ih hskip).1, fun k hk => hwider k ((ih hskip).2 k hk)⟩
      split
      · refine ⟨fun k hk => (ih htake).1 k (List.mem_append_left _ hk), fun k hk => ?_⟩
        rw [List.append_cons]
        exact (ih htake).2 k hk
      split
      · refine ⟨(h.has_cutState (htake.mono (List.sublist_append_left _ _)) _).2, fun k hk => ?_⟩
        rw [List.append_cons]
        exact List.mem_append_left _ (List.mem_toFinset.mp hk)
      · exact ⟨(ih hskip).1, fun k hk => hwider k ((ih hskip).2 k hk)⟩

/-! ## Turns -/

/-- **What a section is owed when its turn comes**: it is taken whole if it fits beside what is there,
and otherwise cut if something of it does. -/
structure Fitting.Turn (f : Fitting) (s : FitState) (idx : Nat) (r : ContextFitResult) : Prop where
  whole : f.FitsBeside s (componentAt f.components idx).2 → idx ∈ r.selectedIndices ∧
    py "\n" ++ (componentAt f.components idx).2 <:+: contentAt r.messages f.systemContentIndex
  truncated : ¬ f.FitsBeside s (componentAt f.components idx).2 →
    (∃ p, p ≠ [] ∧ p <+: (componentAt f.components idx).2 ∧ f.FitsBeside s (p ++ omissionMarker)) →
    idx ∈ r.selectedIndices ∧ ∃ p, p ≠ [] ∧ p <+: (componentAt f.components idx).2 ∧
      py "\n" ++ (p ++ omissionMarker) <:+: contentAt r.messages f.systemContentIndex

/-- Every turn of the loop, from a state on. -/
def Fitting.Turns (f : Fitting) (s : FitState) (order : List Nat) (r : ContextFitResult) : Prop :=
  ∀ pre idx post s', order = pre ++ idx :: post → pre.foldlM f.step s = .ok s' →
    (componentAt f.components idx).2 ≠ [] → f.Turn s' idx r

theorem Fitting.turns_nil (f : Fitting) (s : FitState) (r : ContextFitResult) : f.Turns s [] r := by
  intro pre idx post s' hsplit
  have := congrArg List.length hsplit
  simp at this

theorem Fitting.turns_cons {s s' : FitState} {idx : Nat} (hstep : f.step s idx = .ok s') (rest : List Nat)
    (r : ContextFitResult) : f.Turns s (idx :: rest) r ↔
      ((componentAt f.components idx).2 ≠ [] → f.Turn s idx r) ∧ f.Turns s' rest r := by
  constructor
  · intro h
    refine ⟨fun hne => h [] idx rest s rfl rfl hne, fun pre k post t hsplit hrun => ?_⟩
    refine h (idx :: pre) k post t (by rw [hsplit]; rfl) ?_
    rw [List.foldlM_cons, hstep]
    exact hrun
  · rintro ⟨hfirst, hrest⟩ pre k post t hsplit hrun hne
    cases pre with
    | nil =>
        cases hsplit
        cases hrun
        exact hfirst hne
    | cons j pre =>
        cases hsplit
        rw [List.foldlM_cons, hstep] at hrun
        exact hrest pre k post t rfl hrun hne

/-! ## The condition -/

/-- Some text of the section, with the marker after it, has room. -/
def CanBeCut (room : Nat) (content : PyStr) : Prop :=
  ∃ p, p ≠ [] ∧ p <+: content ∧ 2 + utf8Len (escape (p ++ omissionMarker)) ≤ room

/-- The section, or some text of it, has room. -/
def HasRoom (room : Nat) (content : PyStr) : Prop :=
  2 + utf8Len (escape content) ≤ room ∨ CanBeCut room content

/-- **The sections that are owed something get it.** In the order they are tried in, each fits whole, or
nothing of it has room, or the cut is taken and nothing after it has room. -/
def Served (components : List (PyStr × PyStr)) (suffix : PyStr) : Nat → List Nat → Prop
  | _, [] => True
  | room, idx :: rest =>
      let content := (componentAt components idx).2
      if content = [] then Served components suffix room rest
      else if 2 + utf8Len (escape content) ≤ room then
        Served components suffix (room - (2 + utf8Len (escape content))) rest
      else if CutFits suffix room content then
        ∀ k ∈ nonempty components rest,
          ¬ HasRoom (room - (2 + utf8Len (escape (cutText room content)))) (componentAt components k).2
      else ¬ CanBeCut room content ∧ Served components suffix room rest

/-- Where something of a section has room, what the cut leaves of it is not empty. -/
theorem takeBytes_ne_nil {room : Nat} {content : PyStr} (h : CanBeCut room content) :
    takeBytes (room - 5) content ≠ [] := by
  obtain ⟨p, hne, hprefix, hfits⟩ := h
  obtain ⟨c, p, rfl⟩ := List.exists_cons_of_ne_nil hne
  obtain ⟨t, rfl⟩ := hprefix
  have hle := utf8Len_le_escape (c :: p)
  rw [utf8Len_escape_append, utf8Len_escape_marker] at hfits
  rw [utf8Len_cons] at hle
  rw [List.cons_append, takeBytes, if_pos (by omega)]
  exact List.cons_ne_nil _ _

/-- What fits beside a state is what its room has room for. -/
theorem Fitting.Shows.hasRoom_iff {s : FitState} {shown : PyStr} (hs : f.Shows mandatory s shown)
    (h : f.Over mandatory) (hsuffix : encodable (suffixPayload f.suffix) = true) {content : PyStr}
    (hcontent : encodable content = true) {room : Nat}
    (hroom : f.baseUnits mandatory + utf8Len (escape shown) + room = f.maxUnits) :
    (f.FitsBeside s content ↔ 2 + utf8Len (escape content) ≤ room) ∧
      ((∃ p, p ≠ [] ∧ p <+: content ∧ f.FitsBeside s (p ++ omissionMarker)) ↔ CanBeCut room content) := by
  have hfits : ∀ {text : PyStr}, encodable text = true →
      (f.FitsBeside s text ↔ 2 + utf8Len (escape text) ≤ room) := by
    intro text htext
    rw [hs.fitsBeside_iff h hsuffix htext]
    omega
  refine ⟨hfits hcontent, ?_⟩
  unfold CanBeCut
  refine exists_congr fun p => and_congr_right fun _ => and_congr_right fun hp => hfits ?_
  rw [encodable_append, encodable_of_prefix hp hcontent]
  rfl

theorem Fitting.room_append {kept : List Nat} {idx : Nat} : f.room mandatory (kept ++ [idx]) =
    f.room mandatory kept - (2 + utf8Len (escape (componentAt f.components idx).2)) := by
  rw [Fitting.room, Fitting.room, List.map_append, List.sum_append, List.map_singleton, List.sum_singleton,
    sectionUnits, utf8Len_escape_line]
  omega

/-- After a cut the turns are all right exactly if nothing that is left has room. -/
theorem Fitting.Over.turns_cut_iff (h : f.Over mandatory) (hpython : ∀ m ∈ mandatory, m.isPython = true)
    {r : ContextFitResult} {kept rest : List Nat} {idx : Nat}
    (hready : f.Ready mandatory kept (idx :: rest)) (hnot : f.fits mandatory (kept ++ [idx]) = false)
    (hcut : CutFits f.suffix (f.room mandatory kept) (componentAt f.components idx).2)
    (hselected : r.selectedIndices = (kept ++ [idx]).toFinset) :
    f.Turns (f.cutState mandatory kept idx (cutText (f.room mandatory kept)
        (componentAt f.components idx).2)) rest r ↔
      ∀ k ∈ nonempty f.components rest, ¬ HasRoom (f.room mandatory kept -
        (2 + utf8Len (escape (cutText (f.room mandatory kept) (componentAt f.components idx).2))))
          (componentAt f.components k).2 := by
  obtain ⟨hkept, henc⟩ := hready.head
  have hindices := hkept.mono (List.sublist_append_left kept [idx])
  have hcontent := hready.orderEnc idx List.mem_cons_self
  obtain ⟨text, htext⟩ : ∃ text, text = cutText (f.room mandatory kept) (componentAt f.components idx).2 :=
    ⟨_, rfl⟩
  have htextEnc : encodable text = true := htext ▸ encodable_cutText hcontent _
  have htextFits : 2 + utf8Len (escape text) ≤ f.room mandatory kept := htext ▸ hcut.2.2
  rw [← htext]
  have hshows := h.shows_cutState hkept htextEnc hready.keptEnc
  have hroom : f.baseUnits mandatory + utf8Len (escape (sectionsText (cutComponents f.components idx text)
      (kept ++ [idx]).toFinset)) + (f.room mandatory kept - (2 + utf8Len (escape text))) = f.maxUnits := by
    have hcutIndices := hkept.cut idx text
    have := hready.within
    rw [utf8Len_sectionsText hcutIndices.nodup hcutIndices.range, sum_sectionUnits_cut_append hkept]
    rw [Fitting.room] at htextFits ⊢
    omega
  have hturn : ∀ k ∈ rest, (f.Turn (f.cutState mandatory kept idx text) k r ↔
      ¬ HasRoom (f.room mandatory kept - (2 + utf8Len (escape text))) (componentAt f.components k).2) := by
    intro k hk
    obtain ⟨hwhole, hpart⟩ := hshows.hasRoom_iff h hready.suffixEnc
      (hready.orderEnc k (List.mem_cons_of_mem idx hk)) hroom
    have hout : k ∉ r.selectedIndices := by
      have hdisjoint := (List.nodup_append.mp (List.append_cons kept idx rest ▸ hready.indices).nodup).2.2
      rw [hselected, List.mem_toFinset]
      exact fun hin => hdisjoint k hin k hk rfl
    constructor
    · rintro hturn (hfits | hcan)
      · exact hout (hturn.whole (hwhole.mpr hfits)).1
      · by_cases hfits : f.FitsBeside (f.cutState mandatory kept idx text) (componentAt f.components k).2
        · exact hout (hturn.whole hfits).1
        · exact hout (hturn.truncated hfits (hpart.mpr hcan)).1
    · intro hnone
      exact ⟨fun hfits => absurd (.inl (hwhole.mp hfits)) hnone,
        fun _ hcan => absurd (.inr (hpart.mp hcan)) hnone⟩
  constructor
  · intro hturns k hk
    obtain ⟨hk, hne⟩ := mem_nonempty.mp hk
    obtain ⟨pre, post, hsplit⟩ := List.append_of_mem hk
    refine (hturn k hk).mp (hturns pre k post _ hsplit ?_ hne)
    have hpre : (idx :: pre).Sublist (idx :: rest) := by
      rw [hsplit]
      exact (List.sublist_append_left pre _).cons_cons idx
    exact h.run_cut hpython htextEnc hnot
      { hready with
        indices := hready.indices.mono ((List.Sublist.refl kept).append hpre)
        orderEnc := fun j hj => hready.orderEnc j (hpre.subset hj) }
  · intro hnone pre k post s' hsplit hrun hne
    have hk : k ∈ rest := by simp [hsplit]
    have hpre : (idx :: pre).Sublist (idx :: rest) := by
      rw [hsplit]
      exact (List.sublist_append_left pre _).cons_cons idx
    have hstill := h.run_cut hpython htextEnc hnot
      { hready with
        indices := hready.indices.mono ((List.Sublist.refl kept).append hpre)
        orderEnc := fun j hj => hready.orderEnc j (hpre.subset hj) }
    obtain rfl := Except.ok.inj (hstill.symm.trans hrun)
    exact (hturn k hk).mpr (hnone k (mem_nonempty.mpr ⟨hk, hne⟩))

/-- **The turns are all right exactly if the sections are served.** -/
theorem Fitting.Over.turns_iff (h : f.Over mandatory) (hpython : ∀ m ∈ mandatory, m.isPython = true)
    (htruncate : f.truncateLongMessages = true) {r : ContextFitResult} {order : List Nat} :
    ∀ {kept : List Nat}, f.Ready mandatory kept order →
      r.selectedIndices = (f.outcome mandatory kept order).selected →
      contentAt (f.outcome mandatory kept order).messages f.systemContentIndex <:+:
        contentAt r.messages f.systemContentIndex →
      (f.Turns (f.stateOf mandatory kept) order r ↔
        Served f.components f.suffix (f.room mandatory kept) order) := by
  induction order with
  | nil =>
      intro kept _ _ _
      exact ⟨fun _ => trivial, fun _ => f.turns_nil _ r⟩
  | cons idx rest ih =>
      intro kept hready hselected hmessages
      obtain ⟨hkept, henc⟩ := hready.head
      have hindices := hkept.mono (List.sublist_append_left kept [idx])
      have hcontent := hready.orderEnc idx List.mem_cons_self
      have hunits : sectionUnits f.components idx =
          2 + utf8Len (escape (componentAt f.components idx).2) := utf8Len_escape_line _
      obtain ⟨hhas, hseen⟩ := h.outcome_has hready.indices
      have hshows := h.shows_stateOf hindices hready.keptEnc
      have hroom : f.baseUnits mandatory + utf8Len (escape (sectionsText f.components kept.toFinset)) +
          f.room mandatory kept = f.maxUnits := by
        have := hready.within
        rw [utf8Len_sectionsText hindices.nodup hindices.range, Fitting.room]
        omega
      obtain ⟨hwhole, hcut⟩ := hshows.hasRoom_iff h hready.suffixEnc hcontent hroom
      rw [Served]
      by_cases hempty : (componentAt f.components idx).2 = []
      · rw [if_pos hempty, f.turns_cons (f.step_empty _ hempty)]
        rw [Fitting.outcome, if_pos hempty] at hselected hmessages
        rw [ih hready.skip hselected hmessages]
        exact and_iff_right fun hne => absurd hempty hne
      · rw [if_neg hempty]
        rw [Fitting.outcome, if_neg hempty] at hselected hmessages
        rw [f.turns_cons (h.step_outcome hpython htruncate hready hempty)]
        have hiff := fits_append_iff idx hready.within
        rw [hunits] at hiff
        by_cases hfits : f.fits mandatory (kept ++ [idx]) = true
        · -- it is taken whole
          rw [if_pos hfits] at hselected hmessages
          rw [if_pos hfits, if_pos (hiff.mp hfits), ih (hready.take hfits) hselected hmessages, f.room_append]
          refine and_iff_right fun _ => ⟨fun _ => ?_, fun hnot => absurd (hwhole.mpr (hiff.mp hfits)) hnot⟩
          obtain ⟨hin, hinfix⟩ := (h.outcome_has (hready.take hfits).indices).1 idx (by simp)
          exact ⟨hselected ▸ hin, hinfix.trans hmessages⟩
        · have hlarge := hiff.not.mp hfits
          rw [if_neg hfits] at hselected hmessages
          rw [if_neg hfits, if_neg hlarge]
          by_cases hcutFits : CutFits f.suffix (f.room mandatory kept) (componentAt f.components idx).2
          · -- it is cut
            rw [if_pos hcutFits] at hselected hmessages
            rw [if_pos hcutFits, if_pos hcutFits, h.turns_cut_iff hpython hready
              (Bool.eq_false_iff.mpr hfits) hcutFits hselected]
            refine and_iff_right fun _ => ⟨fun hfits => absurd (hwhole.mp hfits) hlarge, fun _ hcan => ?_⟩
            obtain ⟨hin, hinfix⟩ := (h.has_cutState hkept (cutText (f.room mandatory kept)
              (componentAt f.components idx).2)).1
            exact ⟨hselected ▸ hin, _, takeBytes_ne_nil (hcut.mp hcan), takeBytes_initial _ _,
              hinfix.trans hmessages⟩
          · -- it is left out
            rw [if_neg hcutFits] at hselected hmessages
            rw [if_neg hcutFits, if_neg hcutFits, ih hready.skip hselected hmessages]
            refine and_congr_left fun _ => ⟨fun hturn hcan => ?_, fun hnone _ => ?_⟩
            · have hin := (hturn hempty).truncated (hwhole.not.mpr hlarge) (hcut.mpr hcan)
              have hmem := (h.outcome_has hready.skip.indices).2 idx (hselected ▸ hin.1)
              have hnodup := hready.indices.nodup
              rw [List.nodup_append, List.nodup_cons] at hnodup
              rcases List.mem_append.mp hmem with hmem | hmem
              · exact hnodup.2.2 idx hmem idx List.mem_cons_self rfl
              · exact hnodup.2.1.1 hmem
            · exact ⟨fun hfits => absurd (hwhole.mp hfits) hlarge,
                fun _ hcan => absurd (hcut.mp hcan) hnone⟩

/-! ## Calls that return -/

theorem encodable_of_infix {s t : PyStr} (h : s <:+: t) (ht : encodable t = true) : encodable s = true := by
  obtain ⟨a, b, rfl⟩ := h
  simp only [encodable_append, Bool.and_eq_true] at ht
  exact ht.1.2

/-- A try that does not raise: its text can be encoded, and follows the header. -/
theorem Fitting.Over.attempt_parts (h : f.Over mandatory) {messages : List PyVal}
    (htouched : f.Touched mandatory messages) {candidates : List (PyStr × PyStr)}
    {attempted : Option (List PyVal)} (hattempt : f.attempt messages candidates = .ok attempted) :
    encodable (candidates.flatMap fun c => py "\n" ++ c.2) = true ∧
      ∀ m, attempted = some m → ∃ text, contentAt m f.systemContentIndex = f.mandatoryHeader ++ text := by
  rw [h.attempt htouched.set candidates rfl, encodable_append] at hattempt
  split at hattempt
  · next henc =>
      rw [Bool.and_eq_true] at henc
      refine ⟨henc.1, ?_⟩
      split at hattempt
      · cases hattempt
        rintro m hm
        cases hm
        exact ⟨_, contentAt_set h.lt _⟩
      · cases hattempt
        exact nofun
  · cases hattempt

/-- A step that returns keeps the header, and its section can be encoded. -/
theorem Fitting.Over.step_parts (h : f.Over mandatory) {s s' : FitState} {idx : Nat}
    (htouched : f.Touched mandatory s.messages)
    (hheader : ∃ text, contentAt s.messages f.systemContentIndex = f.mandatoryHeader ++ text)
    (hstep : f.step s idx = .ok s') :
    (∃ text, contentAt s'.messages f.systemContentIndex = f.mandatoryHeader ++ text) ∧
      (idx < f.components.length → encodable (componentAt f.components idx).2 = true) := by
  unfold Fitting.step at hstep
  split at hstep
  · next hempty =>
      cases hstep
      refine ⟨hheader, fun _ => ?_⟩
      rw [List.isEmpty_iff.mp hempty]
      rfl
  · obtain ⟨attempted, hattempt, hstep⟩ := bind_ok_iff.mp hstep
    obtain ⟨henc, hsome⟩ := h.attempt_parts htouched hattempt
    refine ⟨?_, fun hidx => ?_⟩
    · cases attempted with
      | some messages =>
          cases hstep
          exact hsome messages rfl
      | none =>
          dsimp only at hstep
          split at hstep
          · simp only [Fitting.tryTruncated, bind_ok_iff] at hstep
            obtain ⟨remaining, _, hstep⟩ := hstep
            split at hstep
            · cases hstep
              exact hheader
            · obtain ⟨⟨truncated, _⟩, _, hstep⟩ := bind_ok_iff.mp hstep
              dsimp only at hstep
              split at hstep
              · cases hstep
                exact hheader
              · obtain ⟨attempted, hattempt, hstep⟩ := bind_ok_iff.mp hstep
                obtain ⟨_, hsome⟩ := h.attempt_parts htouched hattempt
                cases attempted with
                | some messages =>
                    cases hstep
                    exact hsome messages rfl
                | none =>
                    cases hstep
                    exact hheader
          · cases hstep
            exact hheader
    · have hinfix := infix_sectionsText (Finset.mem_insert_self idx s.selected) hidx
      have hsection := encodable_of_infix hinfix henc
      rw [encodable_append, Bool.and_eq_true] at hsection
      exact hsection.2

/-- A loop that returns does so over sections that can be encoded. -/
theorem Fitting.Over.run_parts (h : f.Over mandatory) {order : List Nat} {s : FitState}
    (hrun : order.foldlM f.step ⟨mandatory, ∅⟩ = .ok s) :
    (∃ text, contentAt s.messages f.systemContentIndex = f.mandatoryHeader ++ text) ∧
      ∀ k ∈ order, k < f.components.length → encodable (componentAt f.components k).2 = true := by
  have hkeeps := foldlM_keeps (P := fun seen s => f.Touched mandatory s.messages ∧
    (∃ text, contentAt s.messages f.systemContentIndex = f.mandatoryHeader ++ text) ∧
      ∀ k ∈ seen, k < f.components.length → encodable (componentAt f.components k).2 = true) []
    ⟨.inl rfl, ⟨[], by rw [List.append_nil, h.header]⟩, List.forall_mem_nil _⟩
    (fun seen t idx t' hstep ht => by
      obtain ⟨htouched, hheader, hseen⟩ := ht
      obtain ⟨hheader', henc⟩ := h.step_parts htouched hheader hstep
      refine ⟨Fitting.step_touched htouched hstep, hheader', fun k hk => ?_⟩
      rcases List.mem_append.mp hk with hk | hk
      · exact hseen k hk
      · rw [List.mem_singleton.mp hk]
        exact henc) hrun
  exact hkeeps.2

/-- What the loop of a call that returns starts from. -/
theorem Fitting.Over.ready (h : f.Over mandatory) (hpython : ∀ m ∈ mandatory, m.isPython = true)
    (hle : jsonBytes (.list mandatory) ≤ f.maxUnits) {order : List Nat}
    (horder : order.Perm (List.range f.components.length)) {s : FitState}
    (hrun : order.foldlM f.step ⟨mandatory, ∅⟩ = .ok s) {messages : List PyVal}
    (hmessages : Context.appendSuffix s.messages f.maxUnits f.suffix = .ok messages) :
    f.Ready mandatory [] order := by
  have hindices := indices_of_perm horder
  obtain ⟨⟨text, htext⟩, henc⟩ := h.run_parts hrun
  obtain ⟨hsuffix, hend⟩ := (h.appendSuffix (Fitting.run_touched hrun)).mp hmessages
  refine ⟨hindices, List.forall_mem_nil _, fun k hk => henc k hk (hindices.range k hk), hsuffix, ?_⟩
  rw [List.map_nil, List.sum_nil, Fitting.baseUnits]
  rcases hend with ⟨hnone, _⟩ | ⟨_, _, hbytes, _⟩
  · have hnil : utf8Len (escape (suffixPayload f.suffix)) = 0 := by rw [hnone]; rfl
    have := h.jsonBytes_mandatory hpython
    omega
  · rw [htext, utf8Len_escape_append, utf8Len_escape_append] at hbytes
    omega

end Loop

/-- **Truncation is used where there is room for it**, at every turn of the call. -/
def UsesTheRoom (mandatory : List PyVal) (components : List (PyStr × PyStr)) (maxUnits : Nat)
    (suffix : PyStr) (priority : Option (List Int)) (r : ContextFitResult) : Prop :=
  ∀ i order, mandatory.findIdx? isSystem = some i → selectionOrder components priority = .ok order →
    (fittingOf mandatory components maxUnits true suffix i).Turns ⟨mandatory, ∅⟩ order r

/-- The condition for it: the sections are served from what the mandatory messages and the suffix leave
of the budget. -/
def ServedFrom (mandatory : List PyVal) (components : List (PyStr × PyStr)) (maxUnits : Nat)
    (suffix : PyStr) (priority : Option (List Int)) : Prop :=
  ∀ i order, mandatory.findIdx? isSystem = some i → selectionOrder components priority = .ok order →
    Served components suffix (maxUnits - (frameBytes mandatory i + utf8Len (escape (contentAt mandatory i))
      + utf8Len (escape (suffixPayload suffix)))) order

/-- **Where truncation is used.** -/
theorem truncation_used_iff (mandatory : List PyVal) (components : List (PyStr × PyStr)) (maxUnits : Nat)
    (suffix : PyStr) (priority : Option (List Int)) (r : ContextFitResult)
    (hpython : ∀ m ∈ mandatory, m.isPython = true)
    (h : fitOptionalContext mandatory components maxUnits true suffix priority = .ok r) :
    UsesTheRoom mandatory components maxUnits suffix priority r ↔
      ServedFrom mandatory components maxUnits suffix priority := by
  by_cases hne : components = []
  · -- there are no turns
    subst hne
    have hnone : ∀ {order : List Nat}, selectionOrder ([] : List (PyStr × PyStr)) priority = .ok order →
        order = [] := fun horder => List.perm_nil.mp (selectionOrder_eq_ok horder)
    constructor
    · intro _ i order _ horder
      rw [hnone horder]
      trivial
    · intro _ i order _ horder
      rw [hnone horder]
      exact Fitting.turns_nil _ _ r
  · obtain ⟨i, order, s, hvalid, hi, horder, hrun, hmessages, hselected⟩ := fitOptionalContext_parts hne h
    obtain ⟨_, hall, hle⟩ := validateProviderInput_eq_ok.mp hvalid
    obtain ⟨f, hf⟩ : ∃ f, f = fittingOf mandatory components maxUnits true suffix i := ⟨_, rfl⟩
    have hover : f.Over mandatory := hf ▸ fittingOf_over hall hi
    rw [← hf] at hrun
    have hready : f.Ready mandatory [] order := by
      subst hf
      exact hover.ready hpython hle (selectionOrder_eq_ok horder) hrun hmessages
    have hend := hover.run_outcome hpython (by rw [hf]; rfl) hready
    obtain rfl : s = f.outcome mandatory [] order := Except.ok.inj (hrun.symm.trans hend)
    have hinfix : contentAt (f.outcome mandatory [] order).messages f.systemContentIndex <:+:
        contentAt r.messages f.systemContentIndex := by
      have hmax : f.maxUnits = maxUnits ∧ f.suffix = suffix := by rw [hf]; exact ⟨rfl, rfl⟩
      rw [← hmax.1, ← hmax.2] at hmessages
      rcases ((hover.appendSuffix (Fitting.run_touched hrun)).mp hmessages).2 with ⟨_, hr⟩ | ⟨_, _, _, hr⟩
      · rw [hr]
      · rw [hr, contentAt_set hover.lt]
        exact (List.prefix_append _ _).isInfix
    have hiff := hover.turns_iff hpython (by rw [hf]; rfl) hready hselected hinfix
    subst hf
    constructor
    · intro huses j order' hj horder'
      cases hi.symm.trans hj
      cases horder.symm.trans horder'
      exact hiff.mp (huses i order hi horder)
    · intro hserved j order' hj horder'
      cases hi.symm.trans hj
      cases horder.symm.trans horder'
      exact hiff.mpr (hserved i order hi horder)

/-- Eight characters of three bytes: the cut falls inside one of them, and is taken. -/
def samplePrices : List (PyStr × PyStr) := [(py "precos", py "€€€€€€€€")]

theorem served_samplePrices : ServedFrom sampleMandatory samplePrices 82 [] none := by
  intro i order hi horder
  cases hi
  cases horder
  have hroom : 82 - (frameBytes sampleMandatory 0 + utf8Len (escape (contentAt sampleMandatory 0))
      + utf8Len (escape (suffixPayload []))) = 13 := by decide +kernel
  have horder : List.range samplePrices.length = [0] := rfl
  rw [hroom, horder, Served, if_neg (by decide), if_neg (by decide +kernel), if_pos (by decide +kernel)]
  exact List.forall_mem_nil _

theorem truncation_used_iff_sample : ∃ r,
    fitOptionalContext sampleMandatory samplePrices 82 true [] none = .ok r ∧
    r.selectedIndices = {0} ∧ UsesTheRoom sampleMandatory samplePrices 82 [] none r := by
  have hselected : (fitOptionalContext sampleMandatory samplePrices 82 true [] none).toOption.map
      (·.selectedIndices) = some {0} := by decide +kernel
  have hpython : ∀ m ∈ sampleMandatory, m.isPython = true := by
    intro m hm
    simp only [sampleMandatory, List.mem_cons, List.not_mem_nil, or_false] at hm
    rcases hm with rfl | rfl
    · rfl
    · rfl
  cases hr : fitOptionalContext sampleMandatory samplePrices 82 true [] none with
  | error e =>
      rw [hr] at hselected
      cases hselected
  | ok r =>
      rw [hr] at hselected
      exact ⟨r, rfl, Option.some.inj hselected, (truncation_used_iff sampleMandatory samplePrices 82 [] none r
        hpython hr).mpr served_samplePrices⟩

/-- A section of 58 bytes with room for 41. -/
def sampleLong : List (PyStr × PyStr) :=
  [(py "antigas", py "uma conversa longa sobre livros, chuva e as tardes de maio")]

/-- It is left out, although half of it would fit. -/
theorem long_section_left_out : ∃ r,
    fitOptionalContext sampleMandatory sampleLong 110 true [] none = .ok r ∧ r.selectedIndices = ∅ ∧
    ¬ UsesTheRoom sampleMandatory sampleLong 110 [] none r := by
  have hselected : (fitOptionalContext sampleMandatory sampleLong 110 true [] none).toOption.map
      (·.selectedIndices) = some ∅ := by decide +kernel
  cases hr : fitOptionalContext sampleMandatory sampleLong 110 true [] none with
  | error e =>
      rw [hr] at hselected
      cases hselected
  | ok r =>
      rw [hr] at hselected
      have hnone : r.selectedIndices = ∅ := Option.some.inj hselected
      refine ⟨r, rfl, hnone, fun huses => ?_⟩
      have hturn := huses 0 [0] rfl rfl [] 0 [] ⟨sampleMandatory, ∅⟩ rfl rfl (by decide)
      have hwhole : estimateProviderInputUnits (.list (sampleMandatory.set 0 (systemVal (contentAt
          sampleMandatory 0 ++ (py "\n" ++ (componentAt sampleLong 0).2) ++ suffixPayload [])))) = .ok 129 := by
        decide +kernel
      have hhalf : estimateProviderInputUnits (.list (sampleMandatory.set 0 (systemVal (contentAt
          sampleMandatory 0 ++ (py "\n" ++ (py "uma conversa longa" ++ omissionMarker)) ++
            suffixPayload [])))) = .ok 94 := by
        decide +kernel
      have hnot : ¬ (fittingOf sampleMandatory sampleLong 110 true [] 0).FitsBeside ⟨sampleMandatory, ∅⟩
          (componentAt sampleLong 0).2 := by
        rintro ⟨n, hn, hle⟩
        cases hwhole.symm.trans hn
        exact absurd hle (by decide)
      have hin := (hturn.truncated hnot ⟨py "uma conversa longa", by decide, by decide, 94, hhalf, by decide⟩).1
      rw [hnone] at hin
      exact Finset.notMem_empty 0 hin

end Katherine.Context
