import Katherine.Local.Storage
import Katherine.Presentation

/-!
# The trusted context

The types of `backend/trusted_context.py` and the step from loaded rows to a bundle. Its
classes check themselves on construction, so each is a structure with what its
constructor checks as a field, and a `create` that runs the checks in the source's order.
Where the source checks the Python type of a field, the field has that type here.

History and profile, memories and persona are untrusted: they become `ChatMessage`s and
`ContextItem`s, never part of the policy.
-/

namespace Katherine.Context

open Py Sql Local

/-! ## Errors -/

/-- The codes of `TrustedContextError` that the types leave possible. -/
inductive Code
  | invalidLoadedDataHistoryContent
  | invalidLoadedDataHistoryId
  | invalidLoadedDataHistoryTimestamp
  | invalidLoadedMemorySourceId
  | invalidLoadedMemoryProvenance
  | invalidLoadedMemoryEpistemicStatus
  | invalidLoadedMemoryConfidence
  | invalidHistoryContent
  | invalidHistoryTimestamp
  | invalidItemContent
  | invalidItemContentWhitespace
  | invalidConfidenceNanInf
  | invalidConfidenceRange
  | invalidSourceId
  | missingApprovedMemoryInternalId
  | invalidInternalIdEmpty
  | invalidInternalIdNotUuid
  | contextItemConversionFailed
  | serializationFailed
  | emptyTrustedPolicy
  | emptyUserMessage
  | duplicateSourceRef
  | invalidMaxUnitsNonPositive
  | mandatoryBudgetExceeded
  | budgetExceededAfterSelection
deriving DecidableEq

/-- What the module raises. -/
inductive ContextErr
  /-- `TrustedContextError`. -/
  | trusted (code : Code)
  /-- `OverflowError`: a timestamp that has no place in universal time. -/
  | overflow
  /-- `UnicodeEncodeError`: a text with a lone surrogate. -/
  | unicodeEncode
deriving DecidableEq

/-- `if not c: raise TrustedContextError(code)`. -/
def check (c : Bool) (code : Code) : Except ContextErr Unit :=
  if c then .ok () else .error (.trusted code)

@[simp] theorem check_true (code : Code) : check true code = .ok () := rfl

@[simp] theorem check_eq_ok {c : Bool} {code : Code} {u : Unit} :
    check c code = .ok u ↔ c = true := by
  cases c <;> simp [check]

section Except

variable {ε α β : Type}

theorem bind_ok_iff {x : Except ε α} {f : α → Except ε β} {b : β} :
    (x >>= f) = .ok b ↔ ∃ a, x = .ok a ∧ f a = .ok b := by
  cases x <;> simp [bind, Except.bind]

/-- A rewriting step and not a computation: some of the texts behind it are long to unfold. -/
theorem bind_of_ok (a : α) (f : α → Except ε β) : ((Except.ok a : Except ε α) >>= f) = f a := (rfl)

theorem map_bind_congr {γ : Type} {x : Except ε α} {f f' : α → Except ε β} {g : β → γ}
    (h : ∀ a, (f a).map g = (f' a).map g) : (x >>= f).map g = (x >>= f').map g := by
  cases x with
  | error e => rfl
  | ok a => exact h a

/-- A loop that succeeds on every element succeeds. -/
theorem mapM_ok {f : α → Except ε β} : ∀ {xs : List α}, (∀ x ∈ xs, ∃ y, f x = .ok y) →
    ∃ ys, xs.mapM f = .ok ys
  | [], _ => ⟨[], rfl⟩
  | x :: xs, h => by
      obtain ⟨y, hy⟩ := h x (by simp)
      obtain ⟨ys, hys⟩ := @mapM_ok f xs fun z hz => h z (by simp [hz])
      refine ⟨y :: ys, ?_⟩
      rw [List.mapM_cons, hy, hys]
      rfl

/-- A loop that succeeds succeeded on every element. -/
theorem of_mapM_ok {f : α → Except ε β} : ∀ {xs : List α} {ys : List β}, xs.mapM f = .ok ys →
    ∀ x ∈ xs, ∃ y ∈ ys, f x = .ok y
  | [], _, _ => by simp
  | x :: xs, ys, h => by
      rw [List.mapM_cons] at h
      obtain ⟨y, hy, h⟩ := bind_ok_iff.mp h
      obtain ⟨zs, hzs, h⟩ := bind_ok_iff.mp h
      cases h
      intro z hz
      rcases List.mem_cons.mp hz with rfl | hz
      · exact ⟨y, List.mem_cons_self, hy⟩
      · obtain ⟨y', hy', hz⟩ := of_mapM_ok hzs z hz
        exact ⟨y', List.mem_cons_of_mem _ hy', hz⟩

/-- A loop whose body always returns is a map. -/
theorem mapM_eq_map {f : α → Except ε β} {g : α → β} : ∀ {xs : List α},
    (∀ x ∈ xs, f x = .ok (g x)) → xs.mapM f = .ok (xs.map g)
  | [], _ => rfl
  | x :: xs, h => by
      rw [List.mapM_cons, h x (by simp), mapM_eq_map fun z hz => h z (by simp [hz])]
      rfl

/-- A loop that keeps a property, and never raises where it holds, returns with it. The property
may speak of the elements seen so far. -/
theorem foldlM_ok {f : β → α → Except ε β} {P : List α → β → Prop} (xs : List α) :
    ∀ {b : β} (seen : List α), P seen b →
      (∀ seen b x, x ∈ xs → P seen b → ∃ b', f b x = .ok b' ∧ P (seen ++ [x]) b') →
      ∃ b', xs.foldlM f b = .ok b' ∧ P (seen ++ xs) b' := by
  induction xs with
  | nil =>
      intro b seen hb _
      exact ⟨b, rfl, by rwa [List.append_nil]⟩
  | cons x xs ih =>
      intro b seen hb hstep
      obtain ⟨b', hx, hb'⟩ := hstep seen b x (by simp) hb
      obtain ⟨b'', hxs, hb''⟩ := ih (seen ++ [x]) hb' fun s c y hy => hstep s c y (by simp [hy])
      rw [List.append_assoc, List.singleton_append] at hb''
      refine ⟨b'', ?_, hb''⟩
      rw [List.foldlM_cons, hx]
      exact hxs

/-- A loop that keeps a property and returns, returns with it. -/
theorem foldlM_keeps {f : β → α → Except ε β} {P : List α → β → Prop} {xs : List α} :
    ∀ {b b' : β} (seen : List α), P seen b →
      (∀ seen b x b', f b x = .ok b' → P seen b → P (seen ++ [x]) b') →
      xs.foldlM f b = .ok b' → P (seen ++ xs) b' := by
  induction xs with
  | nil =>
      intro b b' seen hb _ h
      cases h
      rwa [List.append_nil]
  | cons x xs ih =>
      intro b b' seen hb hstep h
      rw [List.foldlM_cons] at h
      obtain ⟨c, hx, hxs⟩ := bind_ok_iff.mp h
      have := ih (seen ++ [x]) (hstep seen b x c hx hb) hstep hxs
      rwa [List.append_assoc, List.singleton_append] at this

theorem forM_ok_iff {f : α → Except ε Unit} : ∀ {xs : List α},
    xs.forM f = .ok () ↔ ∀ x ∈ xs, f x = .ok ()
  | [] => by simp [pure, Except.pure]
  | x :: xs => by
      rw [List.forM, bind_ok_iff]
      simp only [List.mem_cons, forall_eq_or_imp]
      constructor
      · rintro ⟨_, hx, hxs⟩
        exact ⟨hx, forM_ok_iff.mp hxs⟩
      · rintro ⟨hx, hxs⟩
        exact ⟨(), hx, forM_ok_iff.mpr hxs⟩

end Except

/-! ## Timestamps -/

/-- `_parse_timestamp`; `invalid` is what the caller makes of its `ValueError`. -/
def parseTimestamp (invalid : Code) (value : PyStr) : Except ContextErr DateTime :=
  if blank value then .error (.trusted invalid)
  else
    match fromIsoFormat value with
    | none => .error (.trusted invalid)
    | some (t, none) => .ok t
    | some (t, some offset) =>
        match t.toUtc offset with
        | none => .error .overflow
        | some t => .ok t

/-- The two callers differ only in what they make of a `ValueError`. -/
theorem parseTimestamp_code {c : Code} (c' : Code) {s : PyStr} {t : DateTime}
    (h : parseTimestamp c s = .ok t) : parseTimestamp c' s = .ok t := by
  unfold parseTimestamp at h ⊢
  split at h
  · cases h
  · rename_i hb
    rw [if_neg hb]
    split at h
    · cases h
    · exact h
    · split at h
      · cases h
      · exact h

/-- `_normalize_timestamp`. -/
def normalizeTimestamp (invalid : Code) (value : PyStr) : Except ContextErr PyStr := do
  let t ← parseTimestamp invalid value
  return t.isoFormat

/-! ## Messages and items -/

/-- `ChatMessage`, over any ordered sort key. -/
structure ChatMessage (κ : Type) where
  role : Role
  content : PyStr
  sourceId : PyStr
  sortKey : κ
  content_ok : blank content = false
  sourceId_ok : sourceId ≠ []

/-- `ChatMessage.__post_init__`. -/
def ChatMessage.create {κ : Type} (role : Role) (content sourceId : PyStr) (sortKey : κ) :
    Except ContextErr (ChatMessage κ) :=
  if hc : blank content = false then
    if hs : sourceId ≠ [] then .ok ⟨role, content, sourceId, sortKey, hc, hs⟩
    else .error (.trusted .invalidSourceId)
  else .error (.trusted .invalidHistoryContent)

inductive ItemKind
  | profile
  | memory
  | persona
deriving DecidableEq

def ItemKind.text : ItemKind → PyStr
  | .profile => py "profile"
  | .memory => py "memory"
  | .persona => py "persona"

inductive EpistemicStatus
  | unknown
  | selfReport
  | thirdParty
  | fiction
  | inferred
  | approved
deriving DecidableEq

def EpistemicStatus.text : EpistemicStatus → PyStr
  | .unknown => py "unknown"
  | .selfReport => py "self_report"
  | .thirdParty => py "third_party"
  | .fiction => py "fiction"
  | .inferred => py "inferred"
  | .approved => py "approved"

def EpistemicStatus.all : List EpistemicStatus :=
  [.unknown, .selfReport, .thirdParty, .fiction, .inferred, .approved]

inductive Provenance
  | legacyProfile
  | userConfirmed
  | extraction
  | system
  | legacyMemory
  | legacyPersona
deriving DecidableEq

def Provenance.text : Provenance → PyStr
  | .legacyProfile => py "legacy_profile_snapshot"
  | .userConfirmed => py "user_confirmed"
  | .extraction => py "extraction"
  | .system => py "system"
  | .legacyMemory => py "legacy_memory"
  | .legacyPersona => py "legacy_persona"

def Provenance.all : List Provenance :=
  [.legacyProfile, .userConfirmed, .extraction, .system, .legacyMemory, .legacyPersona]

/-- A number in `[0, 1]`: a float, or one of the two integers. -/
inductive Confidence
  | float (x : Unipolar)
  | int (one : Bool)
deriving DecidableEq

def Confidence.toVal : Confidence → PyVal
  | .float x => x.toVal
  | .int one => .int (if one then 1 else 0)

def isLowerHex (c : CodePoint) : Bool :=
  isDigit c || (decide (97 ≤ c.val) && decide (c.val ≤ 102))

/-- `str(uuid.UUID(s)) == s`: lower-case hexadecimal in groups of 8, 4, 4, 4 and 12. -/
def canonicalUuid (s : PyStr) : Bool :=
  decide (s.length = 36) && s.zipIdx.all fun x =>
    if x.2 ∈ [8, 13, 18, 23] then decide (x.1 = cp '-') else isLowerHex x.1

/-- What the constructor asks of `internal_id`. -/
def internalIdOk (kind : ItemKind) (status : EpistemicStatus) (internalId : PyStr) : Prop :=
  (internalId ≠ [] → blank internalId = false) ∧
    (kind = .memory → status = .approved → canonicalUuid internalId = true)

/-- `ContextItem`. -/
structure ContextItem where
  kind : ItemKind
  content : PyStr
  provenance : Provenance
  confidence : Confidence
  epistemicStatus : EpistemicStatus
  sourceId : PyStr
  internalId : PyStr
  content_ok : blank content = false
  sourceId_ok : sourceId ≠ []
  internalId_ok : internalIdOk kind epistemicStatus internalId

/-- The checks of `confidence` on a float. -/
def checkConfidence (nanInf range : Code) : PyFloat → Except ContextErr Unipolar
  | .fin f =>
      if h : f.ltRatio 0 1 = false ∧ f.gtRatio 1 1 = false then .ok ⟨f, h.1, h.2⟩
      else .error (.trusted range)
  | _ => .error (.trusted nanInf)

/-- `ContextItem.__post_init__`, on a float confidence. -/
def ContextItem.create (kind : ItemKind) (content : PyStr) (provenance : Provenance)
    (confidence : PyFloat) (epistemicStatus : EpistemicStatus) (sourceId internalId : PyStr) :
    Except ContextErr ContextItem := do
  check (!content.isEmpty) .invalidItemContent
  if hc : blank content = false then
    let x ← checkConfidence .invalidConfidenceNanInf .invalidConfidenceRange confidence
    if hs : sourceId ≠ [] then
      if kind = .memory ∧ epistemicStatus = .approved ∧ internalId = [] then
        .error (.trusted .missingApprovedMemoryInternalId)
      else if hb : internalId ≠ [] → blank internalId = false then
        if hu : kind = .memory → epistemicStatus = .approved → canonicalUuid internalId = true then
          return { kind, content, provenance, confidence := .float x, epistemicStatus, sourceId,
                   internalId, content_ok := hc, sourceId_ok := hs, internalId_ok := ⟨hb, hu⟩ }
        else .error (.trusted .invalidInternalIdNotUuid)
      else .error (.trusted .invalidInternalIdEmpty)
    else .error (.trusted .invalidSourceId)
  else .error (.trusted .invalidItemContentWhitespace)

/-! ## Loaded data -/

/-- `_LocalContextMemory`: a local memory as the context expects one. Its `metadata_version`
is 1 and it is `approved`. -/
structure LocalContextMemory where
  content : PyStr
  sourceId : PyStr
  provenance : PyStr
  epistemicStatus : PyStr
  confidence : PyFloat

/-- `to_context_item`. -/
def LocalContextMemory.toContextItem (m : LocalContextMemory) (sourceRef : PyStr) :
    Except ContextErr ContextItem :=
  ContextItem.create .memory m.content .legacyMemory m.confidence .unknown sourceRef []

/-- The checks of one history row. -/
def checkRow (r : HistoryRow) : Except ContextErr Unit := do
  check (!blank r.content) .invalidLoadedDataHistoryContent
  check (decide (0 < r.id)) .invalidLoadedDataHistoryId
  let _ ← parseTimestamp .invalidLoadedDataHistoryTimestamp r.createdAt
  return ()

/-- The checks of one memory. -/
def checkMemory (m : LocalContextMemory) : Except ContextErr Unit := do
  check (canonicalUuid m.sourceId) .invalidLoadedMemorySourceId
  check (Provenance.all.any (·.text = m.provenance)) .invalidLoadedMemoryProvenance
  check (EpistemicStatus.all.any (·.text = m.epistemicStatus)) .invalidLoadedMemoryEpistemicStatus
  let _ ← checkConfidence .invalidLoadedMemoryConfidence .invalidLoadedMemoryConfidence m.confidence
  return ()

/-- `LoadedContextData`. -/
structure LoadedContextData where
  historyRows : List HistoryRow
  retrievedMemories : List LocalContextMemory
  profileSnapshot : List (PyKey × PyVal)
  personaSnapshot : PyStr
  rows_ok : historyRows.forM checkRow = .ok ()
  memories_ok : retrievedMemories.forM checkMemory = .ok ()

/-- `LoadedContextData.__post_init__`. -/
def LoadedContextData.create (historyRows : List HistoryRow)
    (retrievedMemories : List LocalContextMemory) (profileSnapshot : List (PyKey × PyVal))
    (personaSnapshot : PyStr) : Except ContextErr LoadedContextData :=
  match hr : historyRows.forM checkRow with
  | .error e => .error e
  | .ok () =>
      match hm : retrievedMemories.forM checkMemory with
      | .error e => .error e
      | .ok () => .ok ⟨historyRows, retrievedMemories, profileSnapshot, personaSnapshot, hr, hm⟩

/-! ## The bundle -/

inductive TruncationCode
  | historyPartial
  | memoryOmitted
  | profileOmitted
  | personaOmitted
deriving DecidableEq

/-- `TruncationReport`. -/
structure TruncationReport where
  codes : List TruncationCode := []
  omittedHistoryCount : Nat := 0
  omittedMemoryCount : Nat := 0
  omittedProfileCount : Nat := 0
  omittedPersonaCount : Nat := 0
  selectedHistoryCount : Nat := 0
  selectedMemoryCount : Nat := 0
  selectedProfileCount : Nat := 0
  selectedPersonaCount : Nat := 0
deriving DecidableEq

/-- `ContextBundle`. -/
structure ContextBundle (κ : Type) where
  trustedPolicy : PyStr
  history : List (ChatMessage κ)
  profileItems : List ContextItem
  memoryItems : List ContextItem
  personaItems : List ContextItem
  truncationReport : TruncationReport
  policy_ok : blank trustedPolicy = false

/-- A history row as a message: `msg-1`, `msg-2`, … in the order of the window. -/
def chatMessage (x : HistoryRow × Nat) : Except ContextErr (ChatMessage (PyStr ×ₗ Nat)) := do
  let normalized ← normalizeTimestamp .invalidHistoryTimestamp x.1.createdAt
  ChatMessage.create x.1.role x.1.content (py "msg-" ++ natText (x.2 + 1))
    (toLex (normalized, x.1.id))

/-- A memory as an item. Whatever its conversion raises has one code. -/
def memoryItem (x : LocalContextMemory × Nat) : Except ContextErr ContextItem :=
  match x.1.toContextItem (py "mem-" ++ natText (x.2 + 1)) with
  | .ok item => .ok item
  | .error _ => .error (.trusted .contextItemConversionFailed)

/-- The profile as an item, if there is anything in it that can be written. -/
def profileItems (profile : List (PyKey × PyVal)) : Except ContextErr (List ContextItem) :=
  if profile.isEmpty then .ok []
  else
    match dumpsCompact true (.dict profile) with
    | none => .ok []
    | some text => do
        let item ← ContextItem.create .profile text .legacyProfile (.fin float03.val) .unknown
          (py "profile-1") []
        return [item]

/-- The persona as an item, if it says anything. -/
def personaItems (persona : PyStr) : Except ContextErr (List ContextItem) :=
  if blank persona then .ok []
  else do
    let item ← ContextItem.create .persona (strip persona) .legacyPersona (.fin float03.val)
      .unknown (py "persona-1") []
    return [item]

/-- `build_context_bundle`. -/
def buildContextBundle (trustedPolicy : PyStr) (loaded : LoadedContextData) :
    Except ContextErr (ContextBundle (PyStr ×ₗ Nat)) := do
  let history ← loaded.historyRows.zipIdx.mapM chatMessage
  let memoryItems ← loaded.retrievedMemories.zipIdx.mapM memoryItem
  let profileItems ← profileItems loaded.profileSnapshot
  let personaItems ← personaItems loaded.personaSnapshot
  if h : blank trustedPolicy = false then
    return { trustedPolicy, history, profileItems, memoryItems, personaItems,
             truncationReport := {}, policy_ok := h }
  else .error (.trusted .emptyTrustedPolicy)

/-! ## What was loaded can be bundled -/

theorem LoadedContextData.create_eq_ok {rows : List HistoryRow} {memories : List LocalContextMemory}
    {profile : List (PyKey × PyVal)} {persona : PyStr} {d : LoadedContextData}
    (h : create rows memories profile persona = .ok d) :
    d.historyRows = rows ∧ d.retrievedMemories = memories := by
  unfold create at h
  split at h
  · cases h
  · split at h
    · cases h
    · cases h
      exact ⟨rfl, rfl⟩

/-- The constructor accepts exactly what passes its loops. -/
theorem LoadedContextData.exists_create {rows : List HistoryRow}
    {memories : List LocalContextMemory} {profile : List (PyKey × PyVal)} {persona : PyStr} :
    (∃ d, create rows memories profile persona = .ok d) ↔
      (∀ r ∈ rows, checkRow r = .ok ()) ∧ ∀ m ∈ memories, checkMemory m = .ok () := by
  rw [← forM_ok_iff, ← forM_ok_iff]
  constructor
  · rintro ⟨d, h⟩
    obtain ⟨rfl, rfl⟩ := create_eq_ok h
    exact ⟨d.rows_ok, d.memories_ok⟩
  · rintro ⟨hr, hm⟩
    refine ⟨⟨rows, memories, profile, persona, hr, hm⟩, ?_⟩
    unfold create
    split
    · rename_i e he
      rw [hr] at he
      cases he
    · split
      · rename_i e he
        rw [hm] at he
        cases he
      · rfl

theorem ContextItem.create_ok (kind : ItemKind) {content : PyStr} (provenance : Provenance)
    (x : Unipolar) (sourceId : PyStr) (hc : blank content = false) (hs : sourceId ≠ []) :
    ∃ item, create kind content provenance (.fin x.val) .unknown sourceId [] = .ok item := by
  have hne : content.isEmpty = false := by
    cases content with
    | nil => cases hc
    | cons c s => rfl
  have hrange : x.val.ltRatio 0 1 = false ∧ x.val.gtRatio 1 1 = false := ⟨x.ge, x.le⟩
  refine ⟨⟨kind, content, provenance, .float x, .unknown, sourceId, [], hc, hs,
    fun h => absurd rfl h, fun _ h => by cases h⟩, ?_⟩
  have hnew : ¬ (kind = .memory ∧ EpistemicStatus.unknown = .approved ∧ ([] : PyStr) = []) :=
    fun h => by cases h.2.1
  have hempty : ([] : PyStr) ≠ [] → blank [] = false := fun h => absurd rfl h
  have huuid : kind = .memory → EpistemicStatus.unknown = .approved → canonicalUuid [] = true :=
    fun _ h => by cases h
  rw [create, hne, dif_pos hc, checkConfidence, dif_pos hrange]
  exact (dif_pos hs).trans ((if_neg hnew).trans ((dif_pos hempty).trans (dif_pos huuid)))

/-- What is written of an object starts with a brace. -/
theorem blank_dumps {kvs : List (PyKey × PyVal)} {text : PyStr}
    (h : dumpsCompact true (.dict kvs) = some text) : blank text = false := by
  have hspace : isSpace (cp '\x7b') = false := by decide
  simp only [dumpsCompact, Option.ite_none_right_eq_some, Option.some.injEq] at h
  rw [← h.2, PyVal.canon]
  cases sortItems (canonItems kvs) with
  | nil => simp [render, blank, hspace]
  | cons kv kvs => simp [render, blank, hspace]

theorem blank_strip {s : PyStr} (h : blank s = false) : blank (strip s) = false := by
  rw [Bool.eq_false_iff, ne_eq, ← strip_eq_nil_iff, strip_strip, strip_eq_nil_iff, h]
  simp

theorem chatMessage_ok {r : HistoryRow} {n : Nat} (h : checkRow r = .ok ()) :
    ∃ m, chatMessage (r, n) = .ok m := by
  simp only [checkRow, bind_ok_iff, check_eq_ok] at h
  obtain ⟨_, hblank, _, _, t, ht, _⟩ := h
  have hblank : blank r.content = false := by simpa using hblank
  have ht := parseTimestamp_code .invalidHistoryTimestamp ht
  have hsource : py "msg-" ++ natText (n + 1) ≠ [] := by simp [natText_ne_nil]
  refine ⟨⟨r.role, r.content, _, toLex (t.isoFormat, r.id), hblank, hsource⟩, ?_⟩
  simp only [chatMessage, normalizeTimestamp, ht, ChatMessage.create]
  exact (dif_pos hblank).trans (dif_pos hsource)

/-- A checked memory becomes an item exactly if it says something. -/
theorem exists_memoryItem {m : LocalContextMemory} {n : Nat} (h : checkMemory m = .ok ()) :
    (∃ item, memoryItem (m, n) = .ok item) ↔ blank m.content = false := by
  have hsource : py "mem-" ++ natText (n + 1) ≠ [] := by simp [natText_ne_nil]
  constructor
  · rintro ⟨item, hitem⟩
    simp only [memoryItem] at hitem
    split at hitem
    · next item' hcreate =>
        simp only [LocalContextMemory.toContextItem, ContextItem.create, bind_ok_iff] at hcreate
        obtain ⟨_, _, hcreate⟩ := hcreate
        by_contra hblank
        rw [dif_neg hblank] at hcreate
        cases hcreate
    · cases hitem
  · intro hblank
    simp only [checkMemory, bind_ok_iff] at h
    obtain ⟨_, _, _, _, _, _, x, hx, _⟩ := h
    have hconfidence : m.confidence = .fin x.val := by
      unfold checkConfidence at hx
      split at hx
      · next f hf =>
          split at hx
          · cases hx
            exact hf
          · cases hx
      · cases hx
    obtain ⟨item, hitem⟩ := ContextItem.create_ok .memory .legacyMemory x _ hblank hsource
    refine ⟨item, ?_⟩
    simp only [memoryItem, LocalContextMemory.toContextItem, hconfidence, hitem]

theorem profileItems_ok (profile : List (PyKey × PyVal)) : ∃ items, profileItems profile = .ok items := by
  unfold profileItems
  split
  · exact ⟨_, rfl⟩
  · split
    · exact ⟨_, rfl⟩
    · rename_i text htext
      obtain ⟨item, hitem⟩ := ContextItem.create_ok .profile .legacyProfile float03
        (py "profile-1") (blank_dumps htext) (by decide)
      exact ⟨[item], by rw [hitem]; rfl⟩

theorem personaItems_ok (persona : PyStr) : ∃ items, personaItems persona = .ok items := by
  unfold personaItems
  split
  · exact ⟨_, rfl⟩
  · rename_i hb
    obtain ⟨item, hitem⟩ := ContextItem.create_ok .persona .legacyPersona float03
      (py "persona-1") (blank_strip (Bool.eq_false_iff.mpr hb)) (by decide)
    exact ⟨[item], by rw [hitem]; rfl⟩

/-- **What was loaded can be bundled exactly if the policy and the memories say something.** -/
theorem exists_buildContextBundle {policy : PyStr} {loaded : LoadedContextData} :
    (∃ bundle, buildContextBundle policy loaded = .ok bundle) ↔
      blank policy = false ∧ ∀ m ∈ loaded.retrievedMemories, blank m.content = false := by
  have hchecked := forM_ok_iff.mp loaded.memories_ok
  constructor
  · rintro ⟨bundle, h⟩
    simp only [buildContextBundle, bind_ok_iff] at h
    obtain ⟨_, _, memoryItems, hmemory, _, _, _, _, h⟩ := h
    refine ⟨?_, fun m hm => ?_⟩
    · by_contra hblank
      rw [dif_neg hblank] at h
      cases h
    · obtain ⟨n, hn⟩ := List.mem_iff_getElem?.mp hm
      have hn := List.mk_mem_zipIdx_iff_getElem?.mpr hn
      obtain ⟨item, _, hitem⟩ := of_mapM_ok hmemory _ hn
      exact (exists_memoryItem (hchecked m hm)).mp ⟨item, hitem⟩
  · rintro ⟨hpolicy, hmemories⟩
    have hrows := forM_ok_iff.mp loaded.rows_ok
    obtain ⟨history, hhistory⟩ : ∃ history, loaded.historyRows.zipIdx.mapM chatMessage = .ok history :=
      mapM_ok fun x hx => chatMessage_ok (hrows x.1 (List.fst_mem_of_mem_zipIdx hx))
    obtain ⟨memory, hmemory⟩ : ∃ items, loaded.retrievedMemories.zipIdx.mapM memoryItem = .ok items := by
      refine mapM_ok fun x hx => ?_
      have hx := List.fst_mem_of_mem_zipIdx hx
      exact (exists_memoryItem (hchecked x.1 hx)).mpr (hmemories x.1 hx)
    obtain ⟨profile, hprofile⟩ := profileItems_ok loaded.profileSnapshot
    obtain ⟨persona, hpersona⟩ := personaItems_ok loaded.personaSnapshot
    refine ⟨⟨policy, history, profile, memory, persona, {}, hpolicy⟩, ?_⟩
    simp only [buildContextBundle, hhistory, hmemory, hprofile, hpersona, dif_pos hpolicy]
    rfl

/-- **What was loaded without memories can be bundled under any policy that says something.** -/
theorem buildContextBundle_ok {policy : PyStr} {loaded : LoadedContextData}
    (hpolicy : blank policy = false) (hmemories : loaded.retrievedMemories = []) :
    ∃ bundle, buildContextBundle policy loaded = .ok bundle := by
  refine exists_buildContextBundle.mpr ⟨hpolicy, ?_⟩
  rw [hmemories]
  exact List.forall_mem_nil _

end Katherine.Context
