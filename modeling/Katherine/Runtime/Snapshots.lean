import Katherine.Lib.FloatOfInt
import Katherine.Lib.JsonShape
import Katherine.Transition
import Katherine.Runtime.Updates

/-!
# Stored snapshots load

`commit_turn` accepts a snapshot through one package, and the next turn reads it through
two others: `load_user_state` decodes the stored text, and the legacy migrations build
the domain states from the documents. A snapshot that one side takes and the other
refuses would leave the companion unable to start a turn.

`SnapshotsInv` rules this out: each column of the profile decodes to a document that the
constructor of its domain accepts. What comes back is what was stored, with the triggers
trimmed and without repetitions; a timestamp that was given as an integer is a float
afterwards, which beyond `2 ^ 53` can be another number.
-/

namespace Katherine.Runtime

open Py Sql Local

/-! ## What a migrated state keeps of its document -/

/-- The same number is stored under `k` in both documents. -/
def SameNumber (doc doc' : List (PyKey × PyVal)) (k : PyStr) : Prop :=
  ∃ v v', dictGet doc k = some v ∧ dictGet doc' k = some v' ∧ pyEq v v' = true

/-- The first document has an integer beyond `2 ^ 53` under `k`, the second its nearest double. -/
def Rounded (doc doc' : List (PyKey × PyVal)) (k : PyStr) : Prop :=
  ∃ i f, dictGet doc k = some (.int i) ∧ 2 ^ 53 < i.natAbs ∧ floatOfInt i = some f ∧
    dictGet doc' k = some (.float (.fin f))

/-- Both documents have the same value under `k`. -/
def SameValue (doc doc' : List (PyKey × PyVal)) (k : PyStr) : Prop :=
  ∃ v, dictGet doc k = some v ∧ dictGet doc' k = some v

/-- The triggers of the second document are those of the first, trimmed and de-duplicated. -/
def TrimmedTriggers (doc doc' : List (PyKey × PyVal)) : Prop :=
  ∃ (raw : PyVal) (ts : List PyStr), dictGet doc (py "triggers") = some raw ∧
    PyVal.elems? raw = some (ts.map .str) ∧ dictGet doc' (py "triggers") = some (.list ((dedup (ts.map strip)).map .str))

/-- The numbers of an emotional snapshot besides its timestamp. -/
def emotionalNumbers : List PyStr :=
  [py "pleasure", py "arousal", py "dominance", py "libido", py "aggression", py "connection",
    py "energy", py "tension"]

/-- The numbers of a relationship snapshot besides its timestamp. -/
def relationshipNumbers : List PyStr := [py "trust", py "affection", py "tension"]

/-- `to_dict()` of the state that was read from `doc`. -/
structure KeepsEmotion (doc doc' : List (PyKey × PyVal)) : Prop where
  numbers : ∀ k ∈ emotionalNumbers, SameNumber doc doc' k
  timestamp : SameNumber doc doc' (py "timestamp") ∨ Rounded doc doc' (py "timestamp")
  mode : SameValue doc doc' (py "coping_mode")
  version : SameValue doc doc' (py "schema_version")

structure KeepsRelationship (doc doc' : List (PyKey × PyVal)) : Prop where
  numbers : ∀ k ∈ relationshipNumbers, SameNumber doc doc' k
  timestamp : SameNumber doc doc' (py "timestamp") ∨ Rounded doc doc' (py "timestamp")
  triggers : TrimmedTriggers doc doc'
  version : SameValue doc doc' (py "schema_version")

/-- `float(v)` is the number `v`, unless that is an integer beyond `2 ^ 53`. -/
theorem pyEq_requireFiniteFloat {v : PyVal} {f : FiniteFloat} (h : requireFiniteFloat v = some f) :
    pyEq v (.float (.fin f)) = true ∨
      ∃ i, v = .int i ∧ 2 ^ 53 < i.natAbs ∧ floatOfInt i = some f := by
  cases v with
  | int i =>
      rw [requireFiniteFloat] at h
      by_cases hi : i.natAbs ≤ 2 ^ 53
      · refine .inl ?_
        rw [pyEq]
        exact intEqFloat_of_le h hi
      · exact .inr ⟨i, rfl, Nat.lt_of_not_le hi, h⟩
  | float g =>
      cases g with
      | fin g =>
          cases h
          refine .inl ?_
          simp [pyEq, floatEq, FiniteFloat.numEq]
      | _ => cases h
  | _ => cases h

theorem sameNumber_of_range {doc doc' : List (PyKey × PyVal)} {k : PyStr} {lo hi : Int}
    {x : RangedFloat lo hi} (hlo : -1 ≤ lo) (hhi : hi ≤ 1)
    (h : (dictGet doc k).bind (requireFiniteFloatInRange lo hi) = some x)
    (h' : dictGet doc' k = some x.toVal) : SameNumber doc doc' k := by
  obtain ⟨v, hv, hx⟩ := Option.bind_eq_some_iff.mp h
  obtain ⟨f, hf, hx⟩ := Option.bind_eq_some_iff.mp hx
  split at hx
  · next hrange =>
      cases hx
      refine ⟨v, _, hv, h', ?_⟩
      rcases pyEq_requireFiniteFloat hf with heq | ⟨i, _, hlarge, hi⟩
      · exact heq
      · exact absurd (natAbs_le_of_floatOfInt hi hlo hhi hrange) (Nat.not_le.mpr hlarge)
  · cases hx

theorem sameNumber_or_rounded {doc doc' : List (PyKey × PyVal)} {k : PyStr} {x : PosFloat}
    (h : (dictGet doc k).bind requirePositiveFloat = some x)
    (h' : dictGet doc' k = some x.toVal) : SameNumber doc doc' k ∨ Rounded doc doc' k := by
  obtain ⟨v, hv, hx⟩ := Option.bind_eq_some_iff.mp h
  obtain ⟨f, hf, hx⟩ := Option.bind_eq_some_iff.mp hx
  split at hx
  · cases hx
    rcases pyEq_requireFiniteFloat hf with heq | ⟨i, rfl, hlarge, hi⟩
    · exact .inl ⟨v, _, hv, h', heq⟩
    · exact .inr ⟨i, f, hv, hlarge, hi, h'⟩
  · cases hx

theorem sameValue_version {doc doc' : List (PyKey × PyVal)} {u : Unit}
    (h : (dictGet doc (py "schema_version")).bind requireSchemaVersion = some u)
    (h' : dictGet doc' (py "schema_version") = some (.int 1)) :
    SameValue doc doc' (py "schema_version") := by
  obtain ⟨v, hv, hversion⟩ := Option.bind_eq_some_iff.mp h
  cases v with
  | int i =>
      rw [requireSchemaVersion] at hversion
      split at hversion
      · next hi =>
          rw [hi] at hv
          exact ⟨_, hv, h'⟩
      · cases hversion
  | _ => cases hversion

theorem CopingMode.ofVal_eq_some {v : PyVal} {m : CopingMode} (h : CopingMode.ofVal v = some m) :
    v = .str m.text := by
  cases v with
  | str s =>
      simp only [CopingMode.ofVal] at h
      split at h
      · next hs =>
          cases h
          rw [hs]
          rfl
      · split at h
        · next hs =>
            cases h
            rw [hs]
            rfl
        · split at h
          · next hs =>
              cases h
              rw [hs]
              rfl
          · split at h
            · next hs =>
                cases h
                rw [hs]
                rfl
            · cases h
  | _ => cases h

/-- Every accepted trigger is a string, and is kept trimmed. -/
theorem mapM_triggerText_eq_some : ∀ {xs : List PyVal} {ts : List PyStr},
    xs.mapM triggerText = some ts → ∃ raw : List PyStr, xs = raw.map .str ∧ ts = raw.map strip
  | [], ts, h => by
      cases h
      exact ⟨[], rfl, rfl⟩
  | x :: xs, ts, h => by
      rw [List.mapM_cons] at h
      simp only [Option.bind_eq_bind, Option.bind_eq_some_iff] at h
      obtain ⟨t, ht, ts', hts', h⟩ := h
      cases h
      obtain ⟨raw, rfl, rfl⟩ := mapM_triggerText_eq_some hts'
      cases x with
      | str s =>
          rw [triggerText] at ht
          split at ht
          · cases ht
            exact ⟨s :: raw, rfl, rfl⟩
          · cases ht
      | _ => cases ht

theorem trimmedTriggers {doc doc' : List (PyKey × PyVal)} {t : Triggers}
    (h : (dictGet doc (py "triggers")).bind validateTriggers = some t)
    (h' : dictGet doc' (py "triggers") = some (.list (t.items.map .str))) :
    TrimmedTriggers doc doc' := by
  obtain ⟨raw, hraw, ht⟩ := Option.bind_eq_some_iff.mp h
  obtain ⟨xs, hxs, ht⟩ := Option.bind_eq_some_iff.mp ht
  split at ht
  · cases ht
  · simp only [Option.bind_eq_bind, Option.bind_eq_some_iff] at ht
    obtain ⟨ts, hts, ht⟩ := ht
    obtain ⟨texts, rfl, rfl⟩ := mapM_triggerText_eq_some hts
    rw [Triggers.ofTexts] at ht
    split at ht
    · cases ht
      exact ⟨raw, texts, hraw, hxs, h'⟩
    · cases ht

/-- **An emotional state says what the document says that it was read from.** -/
theorem keepsEmotion_of_fromDict {doc : List (PyKey × PyVal)} {s : EmotionalStateV1}
    (h : EmotionalStateV1.fromDict doc = some s) : KeepsEmotion doc s.toDict := by
  unfold EmotionalStateV1.fromDict at h
  split at h
  · cases h
  · obtain ⟨_, hversion, h⟩ := Option.bind_eq_some_iff.mp h
    obtain ⟨pleasure, hpleasure, h⟩ := Option.bind_eq_some_iff.mp h
    obtain ⟨arousal, harousal, h⟩ := Option.bind_eq_some_iff.mp h
    obtain ⟨dominance, hdominance, h⟩ := Option.bind_eq_some_iff.mp h
    obtain ⟨libido, hlibido, h⟩ := Option.bind_eq_some_iff.mp h
    obtain ⟨aggression, haggression, h⟩ := Option.bind_eq_some_iff.mp h
    obtain ⟨connection, hconnection, h⟩ := Option.bind_eq_some_iff.mp h
    obtain ⟨energy, henergy, h⟩ := Option.bind_eq_some_iff.mp h
    obtain ⟨tension, htension, h⟩ := Option.bind_eq_some_iff.mp h
    obtain ⟨mode, hmode, h⟩ := Option.bind_eq_some_iff.mp h
    obtain ⟨timestamp, htimestamp, h⟩ := Option.bind_eq_some_iff.mp h
    cases h
    refine ⟨?_, sameNumber_or_rounded htimestamp rfl, ?_, sameValue_version hversion rfl⟩
    · intro k hk
      simp only [emotionalNumbers, List.mem_cons, List.not_mem_nil, or_false] at hk
      rcases hk with rfl | rfl | rfl | rfl | rfl | rfl | rfl | rfl
      · exact sameNumber_of_range (by decide) (by decide) hpleasure rfl
      · exact sameNumber_of_range (by decide) (by decide) harousal rfl
      · exact sameNumber_of_range (by decide) (by decide) hdominance rfl
      · exact sameNumber_of_range (by decide) (by decide) hlibido rfl
      · exact sameNumber_of_range (by decide) (by decide) haggression rfl
      · exact sameNumber_of_range (by decide) (by decide) hconnection rfl
      · exact sameNumber_of_range (by decide) (by decide) henergy rfl
      · exact sameNumber_of_range (by decide) (by decide) htension rfl
    · obtain ⟨v, hv, hm⟩ := Option.bind_eq_some_iff.mp hmode
      rw [CopingMode.ofVal_eq_some hm] at hv
      exact ⟨_, hv, rfl⟩

theorem keepsRelationship_of_fromDict {doc : List (PyKey × PyVal)} {s : RelationshipStateV1}
    (h : RelationshipStateV1.fromDict doc = some s) : KeepsRelationship doc s.toDict := by
  unfold RelationshipStateV1.fromDict at h
  split at h
  · cases h
  · obtain ⟨_, hversion, h⟩ := Option.bind_eq_some_iff.mp h
    obtain ⟨trust, htrust, h⟩ := Option.bind_eq_some_iff.mp h
    obtain ⟨affection, haffection, h⟩ := Option.bind_eq_some_iff.mp h
    obtain ⟨tension, htension, h⟩ := Option.bind_eq_some_iff.mp h
    obtain ⟨timestamp, htimestamp, h⟩ := Option.bind_eq_some_iff.mp h
    obtain ⟨triggers, htriggers, h⟩ := Option.bind_eq_some_iff.mp h
    cases h
    refine ⟨?_, sameNumber_or_rounded htimestamp rfl, trimmedTriggers htriggers rfl,
      sameValue_version hversion rfl⟩
    intro k hk
    simp only [relationshipNumbers, List.mem_cons, List.not_mem_nil, or_false] at hk
    rcases hk with rfl | rfl | rfl
    · exact sameNumber_of_range (by decide) (by decide) htrust rfl
    · exact sameNumber_of_range (by decide) (by decide) haffection rfl
    · exact sameNumber_of_range (by decide) (by decide) htension rfl

/-! ## What is read back of a document -/

theorem decodedElems_eq_map (xs : List PyVal) : decodedElems xs = xs.map PyVal.decoded := by
  induction xs with
  | nil => rfl
  | cons x xs ih =>
      rw [decodedElems, ih]
      rfl

theorem mapM_triggerText_decoded (xs : List PyVal) :
    (decodedElems xs).mapM triggerText = xs.mapM triggerText := by
  induction xs with
  | nil => rfl
  | cons x xs ih =>
      have hx : triggerText x.decoded = triggerText x := by cases x <;> rfl
      rw [decodedElems, List.mapM_cons, List.mapM_cons, ih, hx]

/-- Tuples come back as lists, which is the only thing a reader of triggers could notice. -/
theorem unread_decoded : Unread PyVal.decoded where
  number := by
    intro v
    cases v <;> rfl
  version := by
    intro v
    cases v <;> rfl
  mode := by
    intro v
    cases v <;> rfl
  triggers := by
    have hlist : ∀ xs : List PyVal,
        validateTriggers (.list (decodedElems xs)) = validateTriggers (.list xs) := by
      intro xs
      have hlen : (decodedElems xs).length = xs.length := by
        rw [decodedElems_eq_map, List.length_map]
      simp only [validateTriggers, PyVal.elems?, Option.bind_eq_bind, Option.bind_some, hlen,
        mapM_triggerText_decoded]
    intro v
    cases v with
    | list xs => exact hlist xs
    | tuple xs => exact hlist xs
    | _ => rfl

/-- A document with distinct string keys, as it is read back. -/
theorem readsAs_stored {kvs : List (PyKey × PyVal)} (hpy : (PyVal.dict kvs).isPython = true)
    (hstr : ∀ p ∈ kvs, p.1.isStr = true) :
    ReadsAs PyVal.canon kvs (sortItems (canonItems kvs)) ∧
      ReadsAs PyVal.decoded (sortItems (canonItems kvs))
        (dictOfItems (decodedItems (sortItems (canonItems kvs)))) := by
  have hnd := nodup_of_isPython hpy hstr
  have hperm := (sortItems_perm (canonItems kvs)).map Prod.fst
  rw [isStr_canonItems] at hperm
  have hnd' := hperm.nodup_iff.mpr hnd
  have hstr' : ∀ p ∈ sortItems (canonItems kvs), p.1.isStr = true := by
    intro p hp
    obtain ⟨q, hq, hkey⟩ := List.mem_map.mp (hperm.mem_iff.mp (List.mem_map_of_mem hp))
    rw [← hkey]
    exact hstr q hq
  have hitems := decoded_items hstr' hnd'
  refine ⟨⟨hperm, dictGet_canon_of_nodup hnd⟩, ⟨?_, ?_⟩⟩
  · rw [hitems, List.map_map]
    exact List.Perm.refl _
  · intro k
    rw [hitems, dictGet_map_decoded]

theorem isStr_of_hasExactly {fields : List PyStr} {kvs : List (PyKey × PyVal)}
    (h : hasExactly fields kvs = true) : ∀ p ∈ kvs, p.1.isStr = true := by
  simp only [hasExactly, Bool.and_eq_true, List.all_eq_true] at h
  intro p hp
  have hone := h.1 p hp
  cases hk : p.1 with
  | str s => rfl
  | _ => rw [hk] at hone; cases hone

/-- What `_json_dumps` wrote is decoded. -/
theorem decodeDoc_dumped {kvs : List (PyKey × PyVal)} {text : PyStr}
    (h : jsonDumps (.dict kvs) = .ok text) :
    decodeDoc text = .ok (dictOfItems (decodedItems (sortItems (canonItems kvs)))) := by
  have hload := loads_dumpsCompact (orRaise_eq_ok.mp h)
  have hne : text ≠ [] := by
    rintro rfl
    cases hload
  rw [decodeDoc, if_neg hne, hload]
  rfl

/-- **An accepted emotional snapshot is read back as the same state.** -/
theorem emotion_readBack {kvs : List (PyKey × PyVal)} {text : PyStr} {s : EmotionalStateV1}
    (hpy : (PyVal.dict kvs).isPython = true) (hs : EmotionalStateV1.fromDict kvs = some s)
    (htext : jsonDumps (.dict kvs) = .ok text) :
    ∃ doc, decodeDoc text = .ok doc ∧ EmotionalStateV1.fromDict doc = some s := by
  obtain ⟨hcanon, hdecoded⟩ :=
    readsAs_stored hpy (isStr_of_hasExactly (EmotionalStateV1.fromDict_cases hs).1)
  refine ⟨_, decodeDoc_dumped htext, ?_⟩
  rw [EmotionalStateV1.fromDict_reads unread_decoded hdecoded,
    EmotionalStateV1.fromDict_reads unread_canon hcanon, hs]

theorem relationship_readBack {kvs : List (PyKey × PyVal)} {text : PyStr} {s : RelationshipStateV1}
    (hpy : (PyVal.dict kvs).isPython = true) (hs : RelationshipStateV1.fromDict kvs = some s)
    (htext : jsonDumps (.dict kvs) = .ok text) :
    ∃ doc, decodeDoc text = .ok doc ∧ RelationshipStateV1.fromDict doc = some s := by
  obtain ⟨hcanon, hdecoded⟩ :=
    readsAs_stored hpy (isStr_of_hasExactly (RelationshipStateV1.fromDict_cases hs).1)
  refine ⟨_, decodeDoc_dumped htext, ?_⟩
  rw [RelationshipStateV1.fromDict_reads unread_decoded hdecoded,
    RelationshipStateV1.fromDict_reads unread_canon hcanon, hs]

/-! ## The invariant -/

/-- The profile holds two snapshots, and a user profile that can be decoded. -/
structure SnapshotsInv (p : Profile) : Prop where
  userProfile : ∃ doc, decodeDoc p.userProfile = .ok doc
  stores : ∃ emotional relationship, Stores p emotional relationship

/-- The snapshots a commit is given are values Python can hold. -/
def Call.pythonSnapshots : Call → Bool
  | .commitTurn a => a.emotionalState.isPython && a.relationshipState.isPython
  | _ => true

theorem decodeDoc_emptyObject : decodeDoc (py "\x7b\x7d") = .ok [] := rfl

theorem neutral_readBack {field : StateField} {t : PosFloat} {text : PyStr}
    (h : field.neutralText t = .ok text) {p : Profile} {emotional : EmotionalStateV1}
    {relationship : RelationshipStateV1} (hp : Stores p emotional relationship) :
    ∃ emotional' relationship', Stores (p.set field text) emotional' relationship' := by
  cases field with
  | emotionalState =>
      refine ⟨_, relationship, ⟨_, decodeDoc_jsonDumps (EmotionalStateV1.isJson_toDict _) h,
        EmotionalStateV1.fromDict_canon_toDict _⟩, hp.relationship⟩
  | relationshipState =>
      refine ⟨emotional, _, hp.emotional, ⟨_, decodeDoc_jsonDumps
        (RelationshipStateV1.isJson_toDict _) h, RelationshipStateV1.fromDict_canon_toDict _⟩⟩

/-- A reset leaves two snapshots, also where there was no profile. -/
theorem SnapshotsInv.reset {old : Option Profile} {field : StateField}
    {text otherText now later : PyStr} {n : Nat} {t t' : PosFloat}
    (h : ∀ p, old = some p → SnapshotsInv p) (htext : field.neutralText t = .ok text)
    (hother : field.other.neutralText t' = .ok otherText) :
    SnapshotsInv (resetProfile old field text otherText n now later) := by
  cases old with
  | none =>
      cases field with
      | emotionalState =>
          exact ⟨⟨_, decodeDoc_emptyObject⟩, _, _,
            ⟨_, decodeDoc_jsonDumps (EmotionalStateV1.isJson_toDict _) htext,
              EmotionalStateV1.fromDict_canon_toDict _⟩,
            ⟨_, decodeDoc_jsonDumps (RelationshipStateV1.isJson_toDict _) hother,
              RelationshipStateV1.fromDict_canon_toDict _⟩⟩
      | relationshipState =>
          exact ⟨⟨_, decodeDoc_emptyObject⟩, _, _,
            ⟨_, decodeDoc_jsonDumps (EmotionalStateV1.isJson_toDict _) hother,
              EmotionalStateV1.fromDict_canon_toDict _⟩,
            ⟨_, decodeDoc_jsonDumps (RelationshipStateV1.isJson_toDict _) htext,
              RelationshipStateV1.fromDict_canon_toDict _⟩⟩
  | some p =>
      obtain ⟨huser, emotional, relationship, hstores⟩ := h p rfl
      obtain ⟨emotional', relationship', hstores'⟩ := neutral_readBack htext hstores
      refine ⟨?_, emotional', relationship', hstores'.emotional, hstores'.relationship⟩
      cases field <;> exact huser

theorem SnapshotsInv.committed {old : Option Profile} {a : CommitArgs} {c : CommitInput}
    {text text' now : PyStr} {n : Nat} (h : ∀ p, old = some p → SnapshotsInv p) (hacc : Accepted a c)
    (hpy : a.emotionalState.isPython = true ∧ a.relationshipState.isPython = true)
    (htext : jsonDumps (.dict c.emotionalState) = .ok text)
    (htext' : jsonDumps (.dict c.relationshipState) = .ok text') :
    SnapshotsInv (committedProfile old text text' n now) := by
  obtain ⟨hitems, hsome⟩ := validateSnapshot_items hacc.emotionalState
  obtain ⟨hitems', hsome'⟩ := validateSnapshot_items hacc.relationshipState
  obtain ⟨emotional, hemotional⟩ := Option.isSome_iff_exists.mp hsome
  obtain ⟨relationship, hrelationship⟩ := Option.isSome_iff_exists.mp hsome'
  rw [hitems, hitems'] at hpy
  refine ⟨?_, emotional, relationship, emotion_readBack hpy.1 hemotional htext,
    relationship_readBack hpy.2 hrelationship htext'⟩
  cases old with
  | none => exact ⟨_, decodeDoc_emptyObject⟩
  | some p => exact (h p rfl).userProfile

/-- **The step lemma.** -/
theorem snapshotsInv_change {sha256 : PyStr → PyStr} {db db' : Db} {call : Call} {reply : Reply}
    (hc : Change sha256 db call reply db') (hpy : Call.pythonSnapshots call = true)
    (h : ∀ p, db.profile = some p → SnapshotsInv p) : ∀ p, db'.profile = some p → SnapshotsInv p := by
  by_cases hcommit : ∃ a, call = .commitTurn a
  · obtain ⟨a, rfl⟩ := hcommit
    cases hc with
    | commit hinput _ _ _ _ _ hemotional hrelationship _ _ _ =>
        intro p hp
        cases Option.some.inj hp
        have hacc := ((commitInput_eq_ok sha256).mp hinput).1
        exact .committed h hacc (Bool.and_eq_true_iff.mp hpy) hemotional hrelationship
  · rcases other_profile hc (fun a ha => hcommit ⟨a, ha⟩) with hsame |
      ⟨field, text, otherText, now, later, t, t', htext, hother, hprofile⟩
    · rw [hsame]
      exact h
    · intro p hp
      rw [hprofile] at hp
      cases hp
      exact .reset h htext hother

theorem snapshotsInv_run {sha256 : PyStr → PyStr} {es : List (Event sha256)} {s : LocalStore}
    (hrun : Run sha256 .init es s) (hpy : ∀ e ∈ es, Call.pythonSnapshots e.call = true) :
    ∀ p, s.db.profile = some p → SnapshotsInv p :=
  hrun.inductOn (P := fun db => ∀ p, db.profile = some p → SnapshotsInv p) hpy
    (by intro p hp; cases hp) snapshotsInv_change

/-- What a thread loads can be migrated. -/
structure Startable (state : LoadedUserState) : Prop where
  emotional : ∃ s, migrateLegacySnapshot state.emotionalState = some s ∧
    KeepsEmotion state.emotionalState s.toDict
  relationship : ∃ s, migrateLegacyRelationshipSnapshot state.relationshipState = some s ∧
    KeepsRelationship state.relationshipState s.toDict

theorem startable_of_fromDict {state : LoadedUserState} {emotional : EmotionalStateV1}
    {relationship : RelationshipStateV1}
    (h : EmotionalStateV1.fromDict state.emotionalState = some emotional)
    (h' : RelationshipStateV1.fromDict state.relationshipState = some relationship) :
    Startable state :=
  ⟨⟨emotional, migrateLegacySnapshot_of_fromDict h, keepsEmotion_of_fromDict h⟩,
    ⟨relationship, migrateLegacyRelationshipSnapshot_of_fromDict h',
      keepsRelationship_of_fromDict h'⟩⟩

theorem fromDict_neutral (t : PosFloat) :
    EmotionalStateV1.fromDict (EmotionalStateV1.neutral t).toDict = some (.neutral t) := by
  rw [← EmotionalStateV1.fromDict_canon (EmotionalStateV1.isJson_toDict _)]
  exact EmotionalStateV1.fromDict_canon_toDict _

theorem fromDict_neutralRelationship (t : PosFloat) :
    RelationshipStateV1.fromDict (RelationshipStateV1.neutral t).toDict = some (.neutral t) := by
  rw [← RelationshipStateV1.fromDict_canon (RelationshipStateV1.isJson_toDict _)]
  exact RelationshipStateV1.fromDict_canon_toDict _

/-- **Stored snapshots always load.** Whatever calls were made, every connection loads two
documents that the domains accept, and the states say what the documents say. -/
theorem stored_snapshots_load {sha256 : PyStr → PyStr} {es : List (Event sha256)} {s : LocalStore}
    (hrun : Run sha256 .init es s) (hpy : ∀ e ∈ es, Call.pythonSnapshots e.call = true) (ck : Clock)
    (thread : Nat) : ∃ state, loadUserState ck (s.view thread) = .ok state ∧ Startable state := by
  have hprofile : (s.view thread).profile = s.db.profile := (hrun.shows rfl thread).profile
  have hinv := snapshotsInv_run hrun hpy
  rw [loadUserState, hprofile]
  cases hp : s.db.profile with
  | none =>
      exact ⟨_, rfl, startable_of_fromDict (fromDict_neutral ck.unix)
        (fromDict_neutralRelationship ck.unix)⟩
  | some p =>
      obtain ⟨⟨user, huser⟩, emotional, relationship, ⟨doc, hdoc, hemotional⟩,
        ⟨doc', hdoc', hrelationship⟩⟩ := hinv p hp
      refine ⟨⟨p.revision, p.personaConfig, user, doc, doc'⟩, ?_,
        startable_of_fromDict hemotional hrelationship⟩
      simp only [huser, hdoc, hdoc', ok_bind]
      rfl

theorem stored_snapshots_load_first_turn :
    ∃ state, loadUserState sampleEnv.clock
        ((execAll sampleSha256 [sampleReserve, sampleCommit] .init).view 0) = .ok state ∧
      state.revision = 1 ∧ Startable state := by
  have hpy : ∀ e ∈ trace sampleSha256 [sampleReserve, sampleCommit] .init,
      Call.pythonSnapshots e.call = true := by
    intro e he
    simp only [trace, List.mem_cons, List.not_mem_nil, or_false] at he
    rcases he with rfl | rfl <;> decide +kernel
  obtain ⟨state, hload, hstart⟩ := stored_snapshots_load
    (run_trace [sampleReserve, sampleCommit] .init) hpy sampleEnv.clock 0
  refine ⟨state, hload, ?_, hstart⟩
  have hrevision : (loadUserState sampleEnv.clock
      ((execAll sampleSha256 [sampleReserve, sampleCommit] .init).view 0)).map (·.revision) = .ok 1 := by
    decide +kernel
  rw [hload] at hrevision
  exact Except.ok.inj hrevision

/-- A neutral emotional snapshot whose timestamp is the integer `2 ^ 53 + 1`. -/
def lateEmotion : List (PyKey × PyVal) :=
  (EmotionalStateV1.neutral sampleTime).toDict.map fun p =>
    if p.1 = .str (py "timestamp") then (p.1, .int (2 ^ 53 + 1)) else p

def lateCommit : Env × Call :=
  (sampleEnv, .commitTurn { sampleArgs with emotionalState := .dict lateEmotion })

/-- The timestamp of what is loaded equals the one of what it is migrated to. -/
def timestampKept (s : LocalStore) : Option Bool := do
  let state ← (loadUserState sampleEnv.clock s.db).toOption
  let emotion ← migrateLegacySnapshot state.emotionalState
  let v ← dictGet state.emotionalState (py "timestamp")
  let v' ← dictGet emotion.toDict (py "timestamp")
  return pyEq v v'

/-- **An integer timestamp can come back as another number.** -/
theorem stored_timestamp_is_rounded :
    ∃ es s, Run sampleSha256 .init es s ∧ (∀ e ∈ es, Call.pythonSnapshots e.call = true) ∧
      ∃ state emotion, loadUserState sampleEnv.clock s.db = .ok state ∧
        migrateLegacySnapshot state.emotionalState = some emotion ∧
        ¬ SameNumber state.emotionalState emotion.toDict (py "timestamp") := by
  refine ⟨_, _, run_trace [sampleReserve, lateCommit] .init, ?_, ?_⟩
  · intro e he
    simp only [trace, List.mem_cons, List.not_mem_nil, or_false] at he
    rcases he with rfl | rfl <;> decide +kernel
  · have hkept : timestampKept (execAll sampleSha256 [sampleReserve, lateCommit] .init) =
        some false := by
      decide +kernel
    generalize execAll sampleSha256 [sampleReserve, lateCommit] .init = s at hkept ⊢
    obtain ⟨state, hstate, hkept⟩ := Option.bind_eq_some_iff.mp hkept
    obtain ⟨emotion, hemotion, hkept⟩ := Option.bind_eq_some_iff.mp hkept
    obtain ⟨v, hv, hkept⟩ := Option.bind_eq_some_iff.mp hkept
    obtain ⟨v', hv', hkept⟩ := Option.bind_eq_some_iff.mp hkept
    have hload : loadUserState sampleEnv.clock s.db = .ok state := by
      cases hr : loadUserState sampleEnv.clock s.db with
      | error e => rw [hr] at hstate; cases hstate
      | ok st => rw [hr] at hstate; cases hstate; rfl
    refine ⟨state, emotion, hload, hemotion, ?_⟩
    rintro ⟨w, w', hw, hw', heq⟩
    rw [hv] at hw
    rw [hv'] at hw'
    cases hw
    cases hw'
    rw [heq] at hkept
    cases hkept

end Katherine.Runtime
