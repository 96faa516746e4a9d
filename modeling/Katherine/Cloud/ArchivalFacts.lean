import Katherine.Cloud.Identifiers
import Katherine.Domain
import Katherine.Lib.JsonObject

/-!
# Facts for the archive

`parse_archival_extraction` of `backend/archival_memory.py`: what is accepted of the answer a
model gives to the archival prompt. The parser trims, lowers and drops duplicates, so what it
accepts is not always what it returns; what it returns it accepts again, unchanged
(`archival_normal_form`), which is why the stored facts can be read by the same code.
-/

namespace Katherine.Cloud

open Py

/-- What `parse_archival_extraction` raises. -/
inductive ArchivalErr
  /-- `ArchivalValidationError`. -/
  | validation (message : PyStr)
  /-- `OverflowError`: an `int` that is no `float`. -/
  | overflow
deriving DecidableEq

def reject {α : Type} (message : String) : Except ArchivalErr α := .error (.validation (py message))

/-! ## Tags -/

/-- `[a-z0-9]`. -/
def isTagStart (c : CodePoint) : Bool := isDigit c || (decide (97 ≤ c.val) && decide (c.val ≤ 122))

/-- `[a-z0-9_-]`. -/
def isTagChar (c : CodePoint) : Bool := isTagStart c || decide (c = cp '_') || decide (c = cp '-')

/-- `[a-z0-9][a-z0-9_-]*`, the whole text. -/
def isTagText : PyStr → Bool
  | [] => false
  | c :: s => isTagStart c && s.all isTagChar

/-- `re.match(r"^[a-z0-9][a-z0-9_-]*$", s)`. In Python `$` also matches before a newline at the end. -/
def matchTag (s : PyStr) : Bool :=
  isTagText s || (decide (s.getLast? = some (cp '\n')) && isTagText s.dropLast)

/-- What a tag has passed. -/
def TagOk (t : PyStr) : Prop := t ≠ [] ∧ t.length ≤ 32 ∧ matchTag t = true

abbrev Tag := { t : PyStr // TagOk t }

/-- `deduplicated_tags`. -/
structure Tags where
  items : List Tag
  nodup : items.Nodup

def Tags.empty : Tags := ⟨[], List.nodup_nil⟩

def Tags.add (seen : Tags) (t : Tag) : Tags :=
  if h : t ∈ seen.items then seen
  else ⟨seen.items ++ [t], List.nodup_append.mpr ⟨seen.nodup, List.nodup_singleton t, fun a ha b hb hab => by
    rw [List.mem_singleton.mp hb] at hab
    exact h (hab ▸ ha)⟩⟩

section

variable (lowerOther : PyStr → Nat → PyStr)

/-- One element of `tags`. -/
def parseTag : PyVal → Except ArchivalErr Tag
  | .str tag =>
      let normTag := lower lowerOther (strip tag)
      if hempty : normTag = [] then reject "Tag cannot be empty."
      else if hlong : 32 < normTag.length then reject "Tag exceeds 32 characters."
      else if hmatch : matchTag normTag = true then
        .ok ⟨normTag, hempty, Nat.le_of_not_lt hlong, hmatch⟩
      else
        .error (.validation (py "Tag '" ++ normTag ++ py "' does not match pattern [a-z0-9][a-z0-9_-]*."))
  | _ => reject "Tag must be a string."

/-- The loop over `tags`. -/
def collectTags (seen : Tags) : List PyVal → Except ArchivalErr Tags
  | [] => .ok seen
  | tag :: tags => do
      let t ← parseTag lowerOther tag
      collectTags (seen.add t) tags

/-! ## Facts -/

/-- `ArchivalFact`. -/
structure ArchivalFact where
  content : PyStr
  importance : Unipolar
  tags : Tags
  content_ok : strip content = content ∧ content ≠ [] ∧ content.length ≤ 500

/-- `ArchivalExtractionEnvelope`. Its versions are always 1. -/
structure ArchivalExtractionEnvelope where
  facts : List ArchivalFact

/-- `content`, trimmed. -/
def parseContent : Option PyVal → Except ArchivalErr { s : PyStr // strip s = s ∧ s ≠ [] ∧ s.length ≤ 500 }
  | some (.str content) =>
      if hempty : strip content = [] then reject "Fact content cannot be empty after trim."
      else if hlong : 500 < (strip content).length then reject "Fact content exceeds maximum of 500 characters."
      else .ok ⟨strip content, strip_strip content, hempty, Nat.le_of_not_lt hlong⟩
  | _ => reject "Fact content must be a non-empty string."

/-- `0.0 <= importance <= 1.0`, and `float(importance)`. -/
def importanceInRange (f : FiniteFloat) : Except ArchivalErr Unipolar :=
  if hge : f.ltRatio 0 1 = false then
    if hle : f.gtRatio 1 1 = false then .ok ⟨f, hge, hle⟩
    else reject "Fact importance must be finite and between 0.0 and 1.0."
  else reject "Fact importance must be finite and between 0.0 and 1.0."

/-- `importance`. -/
def parseImportance : Option PyVal → Except ArchivalErr Unipolar
  | some (.int i) =>
      match floatOfInt i with
      | some f => importanceInRange f
      | none => .error .overflow
  | some (.float (.fin f)) => importanceInRange f
  | some (.float _) => reject "Fact importance must be finite and between 0.0 and 1.0."
  | _ => reject "Fact importance must be a float."

/-- `tags`. -/
def parseTags : Option PyVal → Except ArchivalErr Tags
  | some (.list tags) =>
      if 8 < tags.length then reject "At most 8 tags are allowed per fact." else collectTags lowerOther .empty tags
  | _ => reject "Tags must be a list of strings."

/-- One element of `facts`. -/
def parseFact : PyVal → Except ArchivalErr ArchivalFact
  | .dict fact => do
      if fact.all (PyKey.isOneOf [py "content", py "importance", py "tags"] ·.1) then
        let content ← parseContent (dictGet fact (py "content"))
        let importance ← parseImportance (dictGet fact (py "importance"))
        let tags ← parseTags lowerOther (dictGet fact (py "tags"))
        return { content := content.val, importance, tags, content_ok := content.property }
      else reject "Unknown keys in fact dictionary."
  | _ => reject "Fact must be a dictionary."

/-- `type(version) is int and version == 1`. -/
def isVersionOne : PyVal → Bool
  | .int i => decide (i = 1)
  | _ => false

/-- `parse_archival_extraction`. -/
def parseArchivalExtraction : PyVal → Except ArchivalErr ArchivalExtractionEnvelope
  | .dict raw =>
      if raw.all (PyKey.isOneOf [py "facts", py "schema_version", py "extractor_version"] ·.1) then
        match dictGet raw (py "schema_version"), dictGet raw (py "extractor_version") with
        | some schemaVersion, some extractorVersion =>
            if !isVersionOne schemaVersion then reject "Invalid or unsupported schema version."
            else if !isVersionOne extractorVersion then reject "Invalid or unsupported extractor version."
            else
              match dictGet raw (py "facts") with
              | some (.list facts) =>
                  if 5 < facts.length then reject "At most 5 facts are allowed per turn."
                  else do return { facts := ← facts.mapM (parseFact lowerOther) }
              | _ => reject "Facts must be a list."
        | _, _ => reject "schema_version and extractor_version are required."
      else reject "Unknown keys in envelope."
  | _ => reject "Envelope must be a dictionary."

end

/-! ## What is stored -/

/-- An element of `facts_data`. -/
def ArchivalFact.toVal (f : ArchivalFact) : PyVal :=
  .dict [(.str (py "content"), .str f.content), (.str (py "importance"), f.importance.toVal),
    (.str (py "tags"), .list (f.tags.items.map fun t => .str t.val))]

/-- `facts_data`. -/
def ArchivalExtractionEnvelope.factsData (e : ArchivalExtractionEnvelope) : PyVal :=
  .list (e.facts.map ArchivalFact.toVal)

/-- The stored facts and versions, as an answer of the model would give them. -/
def ArchivalExtractionEnvelope.toVal (e : ArchivalExtractionEnvelope) : PyVal :=
  .dict [(.str (py "facts"), e.factsData), (.str (py "schema_version"), .int 1),
    (.str (py "extractor_version"), .int 1)]

/-! ## Bounds -/

section

variable {lowerOther : PyStr → Nat → PyStr}

theorem Tags.length_add (seen : Tags) (t : Tag) : (seen.add t).items.length ≤ seen.items.length + 1 := by
  unfold Tags.add
  split
  · omega
  · rw [List.length_append]
    exact le_rfl

theorem collectTags_length {seen ts : Tags} {tags : List PyVal}
    (h : collectTags lowerOther seen tags = .ok ts) : ts.items.length ≤ seen.items.length + tags.length := by
  induction tags generalizing seen with
  | nil =>
      cases h
      exact le_rfl
  | cons tag tags ih =>
      obtain ⟨t, -, hrest⟩ := Context.bind_ok_iff.mp h
      have hadd := seen.length_add t
      have hlater := ih hrest
      rw [List.length_cons]
      omega

theorem parseTags_length {v : Option PyVal} {ts : Tags} (h : parseTags lowerOther v = .ok ts) :
    ts.items.length ≤ 8 := by
  unfold parseTags at h
  split at h
  · split at h
    · cases h
    · have := collectTags_length h
      have hempty : Tags.empty.items.length = 0 := rfl
      omega
  · cases h

/-! ## What is returned is accepted again -/

/-- A text that no step of `parseTag` changes. -/
structure PlainTag (lowerOther : PyStr → Nat → PyStr) (t : PyStr) : Prop where
  stripped : strip t = t
  lowered : lower lowerOther t = t

theorem isTagChar_bounds {c : CodePoint} (h : isTagChar c = true) :
    c.val < 128 ∧ ¬ (65 ≤ c.val ∧ c.val ≤ 90) ∧ isSpace c = false := by
  have hval : 48 ≤ c.val ∧ c.val ≤ 57 ∨ 97 ≤ c.val ∧ c.val ≤ 122 ∨ c.val = 95 ∨ c.val = 45 := by
    simp only [isTagChar, isTagStart, isDigit, Bool.or_eq_true, Bool.and_eq_true, decide_eq_true_eq] at h
    rcases h with ((h | h) | rfl) | rfl
    · exact .inl h
    · exact .inr (.inl h)
    · exact .inr (.inr (.inl rfl))
    · exact .inr (.inr (.inr rfl))
  refine ⟨by omega, by omega, ?_⟩
  simp only [isSpace, List.mem_cons, List.not_mem_nil, or_false, Bool.or_eq_false_iff,
    Bool.and_eq_false_iff, decide_eq_false_iff_not]
  omega

theorem isTagText_chars {t : PyStr} (h : isTagText t = true) : ∀ c ∈ t, isTagChar c = true := by
  cases t with
  | nil => cases h
  | cons c t =>
      rw [isTagText, Bool.and_eq_true, List.all_eq_true] at h
      intro x hx
      rcases List.mem_cons.mp hx with rfl | hx
      · rw [isTagChar, h.1]
        rfl
      · exact h.2 x hx

theorem add_lt_of_upper (x : CodePoint × Nat) (h : 65 ≤ x.1.val ∧ x.1.val ≤ 90) : x.1.val + 32 < 0x110000 := by
  omega

/-- The piece of `lower` that a code point becomes. -/
def lowerPiece (lowerOther : PyStr → Nat → PyStr) (s : PyStr) (x : CodePoint × Nat) : PyStr :=
  if h : 65 ≤ x.1.val ∧ x.1.val ≤ 90 then [⟨x.1.val + 32, add_lt_of_upper x h⟩]
  else if x.1.val < 128 then [x.1]
  else lowerOther s x.2

theorem lower_eq (s : PyStr) : lower lowerOther s = s.zipIdx.flatMap (lowerPiece lowerOther s) := rfl

theorem plainTag_of_isTagText {t : PyStr} (h : isTagText t = true) : PlainTag lowerOther t := by
  have hchars := isTagText_chars h
  refine ⟨strip_of_no_space fun c hc => (isTagChar_bounds (hchars c hc)).2.2, ?_⟩
  have hpiece : ∀ x ∈ t.zipIdx, lowerPiece lowerOther t x = [x.1] := by
    intro x hx
    obtain ⟨hascii, hupper, -⟩ := isTagChar_bounds (hchars x.1 (List.fst_mem_of_mem_zipIdx hx))
    rw [lowerPiece, dif_neg hupper, if_pos hascii]
  calc lower lowerOther t = t.zipIdx.flatMap fun x => [x.1] := by
        rw [lower_eq, List.flatMap_def, List.flatMap_def, List.map_congr_left hpiece]
    _ = t.zipIdx.map Prod.fst := List.map_eq_flatMap.symm
    _ = t := List.zipIdx_map_fst ..

/-- What is left of a text by `strip` does not end with a line feed in lower case either. -/
theorem getLast?_lower_strip (hother : ∀ s i, lowerOther s i ≠ [] ∧ cp '\n' ∉ lowerOther s i) (s : PyStr) :
    (lower lowerOther (strip s)).getLast? ≠ some (cp '\n') := by
  by_cases hnil : strip s = []
  · rw [hnil]
    nofun
  · have hspace : isSpace ((strip s).getLast hnil) = false :=
      Bool.eq_false_iff.mpr (List.rdropWhile_last_not isSpace (s.dropWhile isSpace) hnil)
    have hsplit := List.dropLast_append_getLast hnil
    generalize (strip s).getLast hnil = c at hspace hsplit
    generalize (strip s).dropLast = init at hsplit
    -- the last code point leaves a piece of its own, with no line feed in it
    have hpiece : lowerPiece lowerOther (strip s) (c, init.length) ≠ [] ∧
        cp '\n' ∉ lowerPiece lowerOther (strip s) (c, init.length) := by
      unfold lowerPiece
      split
      · refine ⟨List.cons_ne_nil _ _, fun hmem => ?_⟩
        have hval := congrArg Fin.val (List.mem_singleton.mp hmem)
        simp only [cp] at hval
        have : ('\n'.toNat % 0x110000) = 10 := rfl
        omega
      · split
        · refine ⟨List.cons_ne_nil _ _, fun hmem => ?_⟩
          have hc : cp '\n' = c := List.mem_singleton.mp hmem
          rw [← hc] at hspace
          exact absurd hspace (by decide)
        · exact hother _ _
    have hlower : lower lowerOther (strip s) = init.zipIdx.flatMap (lowerPiece lowerOther (strip s)) ++
        lowerPiece lowerOther (strip s) (c, init.length) := by
      have hzip : (strip s).zipIdx = init.zipIdx ++ [(c, init.length)] := by
        rw [← hsplit, List.zipIdx_append, Nat.zero_add]
        rfl
      rw [lower_eq, hzip, List.flatMap_append, List.flatMap_singleton]
    rw [hlower, List.getLast?_append_of_ne_nil _ hpiece.1]
    exact fun hlast => hpiece.2 (List.mem_of_getLast? hlast)

/-- A tag that was accepted is plain. -/
theorem parseTag_plain (hother : ∀ s i, lowerOther s i ≠ [] ∧ cp '\n' ∉ lowerOther s i) {v : PyVal} {t : Tag}
    (h : parseTag lowerOther v = .ok t) : PlainTag lowerOther t.val := by
  unfold parseTag at h
  split at h
  · rename_i tag
    dsimp only at h
    split at h
    · cases h
    · split at h
      · cases h
      · split at h
        · rename_i hmatch
          cases h
          rw [matchTag, Bool.or_eq_true, Bool.and_eq_true, decide_eq_true_eq] at hmatch
          rcases hmatch with htext | ⟨hlast, -⟩
          · exact plainTag_of_isTagText htext
          · exact absurd hlast (getLast?_lower_strip hother tag)
        · cases h
  · cases h

theorem parseTag_of_plain {t : Tag} (h : PlainTag lowerOther t.val) :
    parseTag lowerOther (.str t.val) = .ok t := by
  have hsame : lower lowerOther (strip t.val) = t.val := by rw [h.stripped, h.lowered]
  obtain ⟨t, hempty, hlong, hmatch⟩ := t
  simp only at hsame
  simp only [parseTag, hsame, dif_neg hempty, dif_neg (Nat.not_lt.mpr hlong), dif_pos hmatch]

theorem collectTags_plain (hother : ∀ s i, lowerOther s i ≠ [] ∧ cp '\n' ∉ lowerOther s i) {seen ts : Tags}
    {tags : List PyVal} (hseen : ∀ t ∈ seen.items, PlainTag lowerOther t.val)
    (h : collectTags lowerOther seen tags = .ok ts) :
    ∀ t ∈ ts.items, PlainTag lowerOther t.val := by
  induction tags generalizing seen with
  | nil =>
      cases h
      exact hseen
  | cons tag tags ih =>
      obtain ⟨t, ht, hrest⟩ := Context.bind_ok_iff.mp h
      refine ih (fun x hx => ?_) hrest
      unfold Tags.add at hx
      split at hx
      · exact hseen x hx
      · rcases List.mem_append.mp hx with hx | hx
        · exact hseen x hx
        · rw [List.mem_singleton.mp hx]
          exact parseTag_plain hother ht

/-- Distinct plain tags are collected as they are. -/
theorem collectTags_of_plain {items : List Tag} (hplain : ∀ t ∈ items, PlainTag lowerOther t.val)
    {seen : Tags} (hnodup : (seen.items ++ items).Nodup) :
    collectTags lowerOther seen (items.map fun t => .str t.val) = .ok ⟨seen.items ++ items, hnodup⟩ := by
  induction items generalizing seen with
  | nil =>
      simp only [List.append_nil]
      rfl
  | cons t items ih =>
      have hnew : t ∉ seen.items := by
        intro ht
        rw [List.nodup_append] at hnodup
        exact hnodup.2.2 t ht t List.mem_cons_self rfl
      have hadd : (seen.add t).items = seen.items ++ [t] := by rw [Tags.add, dif_neg hnew]
      have happend : (seen.add t).items ++ items = seen.items ++ t :: items := by
        rw [hadd, List.append_assoc, List.singleton_append]
      have hrest := ih (fun x hx => hplain x (List.mem_cons_of_mem t hx)) (happend ▸ hnodup)
      rw [List.map_cons, collectTags, parseTag_of_plain (hplain t List.mem_cons_self)]
      refine hrest.trans ?_
      simp only [happend]

/-- A fact whose tags are few and plain is what is read from it. -/
structure PlainFact (lowerOther : PyStr → Nat → PyStr) (f : ArchivalFact) : Prop where
  few : f.tags.items.length ≤ 8
  plain : ∀ t ∈ f.tags.items, PlainTag lowerOther t.val

theorem parseFact_plain (hother : ∀ s i, lowerOther s i ≠ [] ∧ cp '\n' ∉ lowerOther s i) {v : PyVal}
    {f : ArchivalFact} (h : parseFact lowerOther v = .ok f) : PlainFact lowerOther f := by
  unfold parseFact at h
  split at h
  · split at h
    · obtain ⟨content, -, h⟩ := Context.bind_ok_iff.mp h
      obtain ⟨importance, -, h⟩ := Context.bind_ok_iff.mp h
      obtain ⟨tags, htags, h⟩ := Context.bind_ok_iff.mp h
      cases h
      refine ⟨parseTags_length htags, ?_⟩
      unfold parseTags at htags
      split at htags
      · split at htags
        · cases htags
        · exact collectTags_plain hother (fun t ht => by cases ht) htags
      · cases htags
    · cases h
  · cases h

theorem parseFact_of_plain {f : ArchivalFact} (h : PlainFact lowerOther f) :
    parseFact lowerOther f.toVal = .ok f := by
  obtain ⟨content, importance, ⟨items, hnodup⟩, hstrip, hne, hlong⟩ := f
  have hcontent : parseContent (some (.str content)) = .ok ⟨content, hstrip, hne, hlong⟩ := by
    simp only [parseContent, hstrip, dif_neg hne, dif_neg (Nat.not_lt.mpr hlong)]
  have himportance : parseImportance (some importance.toVal) = .ok importance :=
    (dif_pos importance.ge).trans (dif_pos importance.le)
  have htags : parseTags lowerOther (some (.list (items.map fun t => .str t.val))) = .ok ⟨items, hnodup⟩ := by
    have hfew : ¬ 8 < (items.map fun t => PyVal.str t.val).length := by
      rw [List.length_map]
      exact Nat.not_lt.mpr h.few
    rw [parseTags, if_neg hfew]
    have happend : (Tags.empty.items ++ items).Nodup := hnodup
    exact collectTags_of_plain h.plain happend
  have hkeys : PyKey.isOneOf [py "content", py "importance", py "tags"] (.str (py "content")) = true ∧
      PyKey.isOneOf [py "content", py "importance", py "tags"] (.str (py "importance")) = true ∧
      PyKey.isOneOf [py "content", py "importance", py "tags"] (.str (py "tags")) = true := by
    simp [PyKey.isOneOf]
  have himportanceKey : py "content" ≠ py "importance" := by simp [py_inj]
  have htagsKey : py "content" ≠ py "tags" ∧ py "importance" ≠ py "tags" := by simp [py_inj]
  simp only [ArchivalFact.toVal, parseFact, List.all_cons, List.all_nil, hkeys, Bool.and_true, if_true,
    dictGet_cons, PyKey.str.injEq, himportanceKey, htagsKey, if_false, hcontent, himportance, htags,
    Context.bind_of_ok]
  rfl

theorem length_of_mapM_ok {α β ε : Type} {f : α → Except ε β} {xs : List α} {ys : List β}
    (h : xs.mapM f = .ok ys) : ys.length = xs.length := by
  induction xs generalizing ys with
  | nil =>
      cases h
      rfl
  | cons x xs ih =>
      rw [List.mapM_cons] at h
      obtain ⟨y, -, h⟩ := Context.bind_ok_iff.mp h
      obtain ⟨rest, hrest, h⟩ := Context.bind_ok_iff.mp h
      cases h
      rw [List.length_cons, List.length_cons, ih hrest]

/-- Few facts, each as it is read. -/
structure PlainEnvelope (lowerOther : PyStr → Nat → PyStr) (e : ArchivalExtractionEnvelope) : Prop where
  few : e.facts.length ≤ 5
  plain : ∀ f ∈ e.facts, PlainFact lowerOther f

theorem parseArchivalExtraction_plain (hother : ∀ s i, lowerOther s i ≠ [] ∧ cp '\n' ∉ lowerOther s i) {v : PyVal}
    {e : ArchivalExtractionEnvelope} (h : parseArchivalExtraction lowerOther v = .ok e) :
    PlainEnvelope lowerOther e := by
  unfold parseArchivalExtraction at h
  split at h
  · split at h
    · split at h
      · split at h
        · cases h
        · split at h
          · cases h
          · split at h
            · rename_i facts _
              split at h
              · cases h
              · rename_i hfew
                obtain ⟨parsed, hparsed, h⟩ := Context.bind_ok_iff.mp h
                cases h
                refine ⟨length_of_mapM_ok hparsed ▸ Nat.le_of_not_lt hfew, fun f hf => ?_⟩
                obtain ⟨v, -, hv⟩ := of_mem_mapM_ok hparsed f hf
                exact parseFact_plain hother hv
            · cases h
      · cases h
    · cases h
  · cases h

theorem parseArchivalExtraction_of_plain {e : ArchivalExtractionEnvelope} (h : PlainEnvelope lowerOther e) :
    parseArchivalExtraction lowerOther e.toVal = .ok e := by
  obtain ⟨facts⟩ := e
  have hkeys : PyKey.isOneOf [py "facts", py "schema_version", py "extractor_version"] (.str (py "facts")) = true ∧
      PyKey.isOneOf [py "facts", py "schema_version", py "extractor_version"] (.str (py "schema_version")) = true ∧
      PyKey.isOneOf [py "facts", py "schema_version", py "extractor_version"]
        (.str (py "extractor_version")) = true := by
    simp [PyKey.isOneOf]
  have hschemaKey : py "facts" ≠ py "schema_version" := by simp [py_inj]
  have hextractorKey : py "facts" ≠ py "extractor_version" ∧ py "schema_version" ≠ py "extractor_version" := by
    simp [py_inj]
  have hone : isVersionOne (.int 1) = true := rfl
  have hfew : ¬ 5 < (facts.map ArchivalFact.toVal).length := by
    rw [List.length_map]
    exact Nat.not_lt.mpr h.few
  have hfacts : (facts.map ArchivalFact.toVal).mapM (parseFact lowerOther) = .ok facts := by
    rw [List.mapM_map]
    exact (Context.mapM_eq_map (g := id) fun f hf => parseFact_of_plain (h.plain f hf)).trans (by rw [List.map_id])
  simp only [ArchivalExtractionEnvelope.toVal, ArchivalExtractionEnvelope.factsData, parseArchivalExtraction,
    List.all_cons, List.all_nil, hkeys, Bool.and_true, if_true, dictGet_cons, PyKey.str.injEq, hschemaKey,
    hextractorKey, if_false, hone, Bool.not_true, Bool.false_eq_true, hfew, hfacts, Context.bind_of_ok]
  rfl

/-- **What the parser returns is a normal form.** There are at most five facts with at most eight tags
each, and the facts as they are stored are accepted by the parser, which returns them unchanged. -/
theorem archival_normal_form (hother : ∀ s i, lowerOther s i ≠ [] ∧ cp '\n' ∉ lowerOther s i) {v : PyVal}
    {e : ArchivalExtractionEnvelope} (h : parseArchivalExtraction lowerOther v = .ok e) :
    e.facts.length ≤ 5 ∧ (∀ f ∈ e.facts, f.tags.items.length ≤ 8) ∧
      parseArchivalExtraction lowerOther e.toVal = .ok e := by
  have hplain := parseArchivalExtraction_plain hother h
  exact ⟨hplain.few, fun f hf => (hplain.plain f hf).few, parseArchivalExtraction_of_plain hplain⟩

end

/-- `lower` outside ASCII, on a script without case. -/
def caselessLower (s : PyStr) (i : Nat) : PyStr :=
  match s[i]? with
  | some c => if c = cp '\n' then [cp '?'] else [c]
  | none => [cp '?']

theorem caselessLower_ok (s : PyStr) (i : Nat) :
    caselessLower s i ≠ [] ∧ cp '\n' ∉ caselessLower s i := by
  unfold caselessLower
  split
  · split
    · decide
    · rename_i c hc
      exact ⟨List.cons_ne_nil _ _, fun hmem => hc (List.mem_singleton.mp hmem).symm⟩
  · decide

/-- An answer whose content has spaces around it and whose tags say one thing twice. -/
def untidyAnswer : PyVal :=
  .dict [(.str (py "facts"), .list [.dict [(.str (py "content"), .str (py " Tea ")), (.str (py "importance"), .int 1),
      (.str (py "tags"), .list [.str (py " Tea"), .str (py "tea"), .str (py "hot_1\n")])]]),
    (.str (py "schema_version"), .int 1), (.str (py "extractor_version"), .int 1)]

theorem archival_normal_form_sample : ∃ e, parseArchivalExtraction caselessLower untidyAnswer = .ok e ∧
    e.facts.map (fun f => (f.content, f.tags.items.map (·.val))) = [(py "Tea", [py "tea", py "hot_1"])] ∧
    parseArchivalExtraction caselessLower e.toVal = .ok e := by
  have hread : (parseArchivalExtraction caselessLower untidyAnswer).toOption.map
      (fun e => e.facts.map fun f => (f.content, f.tags.items.map (·.val))) =
        some [(py "Tea", [py "tea", py "hot_1"])] := by decide +kernel
  cases hparse : parseArchivalExtraction caselessLower untidyAnswer with
  | error _ =>
      rw [hparse] at hread
      cases hread
  | ok e =>
      rw [hparse] at hread
      exact ⟨e, rfl, Option.some.inj hread, (archival_normal_form caselessLower_ok hparse).2.2⟩

end Katherine.Cloud
