import Katherine.Transition

/-!
# Reading a snapshot, with what it raises

`from_dict` and the two migrations once more, this time with their exceptions:
`EmotionalStateV1` of `backend/emotional_domain/models.py` with
`migrate_legacy_snapshot` of `backend/emotional_domain/migration.py`, and
`RelationshipStateV1` with `migrate_legacy_relationship_snapshot` of
`backend/relationship.py`. The two pairs are one pair of functions with other fields
(`SnapshotClass`). Elsewhere it is enough that they read a state or do not: that is
`EmotionalStateV1.fromDict` and `migrateLegacySnapshot`, which are these functions with
the exceptions forgotten.

A migration is a projection onto the documents of version 1: it leaves them alone, and
what it makes of another document is what `from_dict` reads from that document under its
new names.
-/

namespace Katherine.Checked

open Py Katherine

/-! ## Exceptions -/

/-- `EmotionalDomainError` and `RelationshipDomainError`, with the check that failed. -/
inductive SnapshotError
  | notDict
  | empty
  | conflictingTimestamps
  | versionNone
  | versionNotInt
  | unsupportedVersion
  | versionMissing
  | unknownFields
  | missingFields
  | legacyTimestamp
  | notFinite (field : PyStr)
  | outOfRange (field : PyStr)
  | notPositive (field : PyStr)
  | badCopingMode
  | badTriggers
deriving DecidableEq

inductive SnapshotFailure
  | domain (e : SnapshotError)
  | keyError (key : PyStr)
  /-- A required keyword argument is missing. -/
  | typeError
  /-- An integer with too many digits has no `repr`. -/
  | valueError
deriving DecidableEq

/-- `data[key]`. -/
def getItem (data : List (PyKey × PyVal)) (key : PyStr) : Except SnapshotFailure PyVal :=
  match dictGet data key with
  | some v => .ok v
  | none => .error (.keyError key)

/-- A keyword argument. -/
def argument (kwargs : List (PyKey × PyVal)) (name : PyStr) : Except SnapshotFailure PyVal :=
  match dictGet kwargs name with
  | some v => .ok v
  | none => .error .typeError

def require (c : Bool) (e : SnapshotError) : Except SnapshotFailure Unit :=
  if c then .ok () else .error (.domain e)

/-! ## The checks of the fields -/

/-- `_require_schema_version`. -/
def requireSchemaVersion : PyVal → Except SnapshotFailure Unit
  | .int i =>
      if i = 1 then .ok ()
      else if i.natAbs < intTextLimit then .error (.domain .unsupportedVersion)
      else .error .valueError
  | _ => .error (.domain .versionNotInt)

/-- `_require_finite_float`. -/
def requireFloat (name : PyStr) (value : PyVal) : Except SnapshotFailure FiniteFloat :=
  match requireFiniteFloat value with
  | some f => .ok f
  | none => .error (.domain (.notFinite name))

/-- `_require_finite_float_in_range`. -/
def requireRange (lo hi : Int) (name : PyStr) (value : PyVal) :
    Except SnapshotFailure (RangedFloat lo hi) := do
  let f ← requireFloat name value
  if h : f.ltRatio lo 1 = false ∧ f.gtRatio hi 1 = false then .ok ⟨f, ge_of_bounds h, le_of_bounds h⟩
  else .error (.domain (.outOfRange name))

/-- `_require_positive_float`. -/
def requirePositive (name : PyStr) (value : PyVal) : Except SnapshotFailure PosFloat := do
  let f ← requireFloat name value
  if h : f.gtRatio 0 1 = true then .ok ⟨f, h⟩ else .error (.domain (.notPositive name))

def requireCopingMode (value : PyVal) : Except SnapshotFailure CopingMode :=
  match CopingMode.ofVal value with
  | some m => .ok m
  | none => .error (.domain .badCopingMode)

/-- `_validate_triggers`. -/
def requireTriggers (value : PyVal) : Except SnapshotFailure Triggers :=
  match validateTriggers value with
  | some t => .ok t
  | none => .error (.domain .badTriggers)

/-- `_validate_state_fields`. -/
def validateStateFields (kwargs : List (PyKey × PyVal)) : Except SnapshotFailure EmotionalStateV1 := do
  requireSchemaVersion (← argument kwargs (py "schema_version"))
  let pleasure ← requireRange (-1) 1 (py "pleasure") (← argument kwargs (py "pleasure"))
  let arousal ← requireRange (-1) 1 (py "arousal") (← argument kwargs (py "arousal"))
  let dominance ← requireRange (-1) 1 (py "dominance") (← argument kwargs (py "dominance"))
  let libido ← requireRange 0 1 (py "libido") (← argument kwargs (py "libido"))
  let aggression ← requireRange 0 1 (py "aggression") (← argument kwargs (py "aggression"))
  let connection ← requireRange 0 1 (py "connection") (← argument kwargs (py "connection"))
  let energy ← requireRange 0 1 (py "energy") (← argument kwargs (py "energy"))
  let tension ← requireRange 0 1 (py "tension") (← argument kwargs (py "tension"))
  let copingMode ← requireCopingMode (← argument kwargs (py "coping_mode"))
  let timestamp ← requirePositive (py "timestamp") (← argument kwargs (py "timestamp"))
  return { pleasure, arousal, dominance, libido, aggression, connection, energy, tension, copingMode,
           timestamp }

/-- `EmotionalStateV1.create`: the checks, and those of the constructor on what they return. -/
def createEmotionalState (kwargs : List (PyKey × PyVal)) : Except SnapshotFailure EmotionalStateV1 := do
  let s ← validateStateFields kwargs
  validateStateFields s.toDict

/-- The checks of `RelationshipStateV1`. -/
def validateRelationshipFields (kwargs : List (PyKey × PyVal)) :
    Except SnapshotFailure RelationshipStateV1 := do
  requireSchemaVersion (← argument kwargs (py "schema_version"))
  let trust ← requireRange 0 1 (py "trust") (← argument kwargs (py "trust"))
  let affection ← requireRange 0 1 (py "affection") (← argument kwargs (py "affection"))
  let tension ← requireRange 0 1 (py "tension") (← argument kwargs (py "tension"))
  let timestamp ← requirePositive (py "timestamp") (← argument kwargs (py "timestamp"))
  let triggers ← requireTriggers (← argument kwargs (py "triggers"))
  return { trust, affection, tension, triggers, timestamp }

/-- `RelationshipStateV1.create`. -/
def createRelationshipState (kwargs : List (PyKey × PyVal)) :
    Except SnapshotFailure RelationshipStateV1 := do
  let s ← validateRelationshipFields kwargs
  validateRelationshipFields s.toDict

/-! ## `from_dict` and the migrations -/

/-- What the two classes differ in. -/
structure SnapshotClass (S : Type) where
  /-- The fields of a v1 document. -/
  fields : List PyStr
  /-- `create`, from its keyword arguments. -/
  create : List (PyKey × PyVal) → Except SnapshotFailure S
  /-- `to_dict`. -/
  toDict : S → List (PyKey × PyVal)
  /-- The fields a legacy document may have, and those it must have. -/
  legacyAllowed : List PyStr
  legacyRequired : List PyStr
  /-- What `timestamp` was called. -/
  oldTimestamp : PyStr
  /-- Whether the empty document is refused by itself. -/
  refusesEmpty : Bool

def emotionalSnapshot : SnapshotClass EmotionalStateV1 where
  fields := stateFields
  create := createEmotionalState
  toDict := EmotionalStateV1.toDict
  legacyAllowed := legacyExactFields
  legacyRequired := legacyExactFields
  oldTimestamp := py "last_update"
  refusesEmpty := false

def relationshipSnapshot : SnapshotClass RelationshipStateV1 where
  fields := relationshipFields
  create := createRelationshipState
  toDict := RelationshipStateV1.toDict
  legacyAllowed := legacyAllowedFields
  legacyRequired := [py "trust", py "affection", py "tension", py "triggers", py "last_interaction"]
  oldTimestamp := py "last_interaction"
  refusesEmpty := true

/-- The keyword arguments of a call, each with the key its value is taken from. -/
def keywords (data : List (PyKey × PyVal)) (names : List (PyStr × PyStr)) :
    Except SnapshotFailure (List (PyKey × PyVal)) :=
  names.mapM fun n => do
    let v ← getItem data n.2
    return (.str n.1, v)

section Reading

variable {S : Type} (c : SnapshotClass S)

/-- `from_dict`. -/
def fromDict (raw : PyVal) : Except SnapshotFailure S :=
  match raw.items? with
  | none => .error (.domain .notDict)
  | some data => do
      require (data.all (PyKey.isOneOf c.fields ·.1)) .unknownFields
      require (dictGet data (py "schema_version")).isSome .versionMissing
      require (c.fields.all fun f => decide (f = py "schema_version") || (dictGet data f).isSome)
        .missingFields
      let kwargs ← keywords data (c.fields.map fun f => (f, f))
      c.create kwargs

/-- The version of a document that has one. -/
def requireV1 : PyVal → Except SnapshotFailure Unit
  | .none => .error (.domain .versionNone)
  | .int i => require (decide (i = 1)) .unsupportedVersion
  | _ => .error (.domain .versionNotInt)

def migrate (raw : PyVal) : Except SnapshotFailure S :=
  match raw.items? with
  | none => .error (.domain .notDict)
  | some data => do
      require (!(c.refusesEmpty && data.isEmpty)) .empty
      require (!((dictGet data c.oldTimestamp).isSome && (dictGet data (py "timestamp")).isSome))
        .conflictingTimestamps
      match dictGet data (py "schema_version") with
      | some version => do
          requireV1 version
          require (data.all (PyKey.isOneOf c.fields ·.1)) .unknownFields
          require (dictGet data c.oldTimestamp).isNone .legacyTimestamp
          fromDict c (.dict data)
      | none => do
          require (data.all (PyKey.isOneOf c.legacyAllowed ·.1)) .unknownFields
          require (c.legacyRequired.all fun f => (dictGet data f).isSome) .missingFields
          let kwargs ← keywords data
            (c.legacyRequired.map fun f => (if f = c.oldTimestamp then py "timestamp" else f, f))
          c.create (kwargs ++ [(.str (py "schema_version"), .int 1)])

end Reading

/-- `migrate_legacy_snapshot`. -/
def migrateLegacySnapshot : PyVal → Except SnapshotFailure EmotionalStateV1 := migrate emotionalSnapshot

/-- `migrate_legacy_relationship_snapshot`. -/
def migrateLegacyRelationshipSnapshot : PyVal → Except SnapshotFailure RelationshipStateV1 :=
  migrate relationshipSnapshot

/-! ## What is raised -/

/-- Nothing but the domain error is raised. -/
def RaisesDomain {α : Type} (r : Except SnapshotFailure α) : Prop := ∀ e, r = .error e → ∃ d, e = .domain d

theorem RaisesDomain.ok {α : Type} (x : α) : RaisesDomain (.ok x) := by
  intro e he
  cases he

theorem RaisesDomain.error {α : Type} (d : SnapshotError) : RaisesDomain (.error (.domain d) : Except _ α) := by
  intro e he
  cases he
  exact ⟨d, rfl⟩

theorem RaisesDomain.bind {α β : Type} {r : Except SnapshotFailure α} {f : α → Except SnapshotFailure β}
    (h : RaisesDomain r) (hf : ∀ x, RaisesDomain (f x)) : RaisesDomain (r >>= f) := by
  cases r with
  | ok x => exact hf x
  | error e =>
      obtain ⟨d, rfl⟩ := h e rfl
      exact .error d

theorem raisesDomain_requireFloat (name : PyStr) (v : PyVal) : RaisesDomain (requireFloat name v) := by
  unfold requireFloat
  split
  · exact .ok _
  · exact .error _

theorem raisesDomain_requireRange (lo hi : Int) (name : PyStr) (v : PyVal) :
    RaisesDomain (requireRange lo hi name v) := by
  refine (raisesDomain_requireFloat name v).bind fun f => ?_
  split
  · exact .ok _
  · exact .error _

theorem raisesDomain_requirePositive (name : PyStr) (v : PyVal) :
    RaisesDomain (requirePositive name v) := by
  refine (raisesDomain_requireFloat name v).bind fun f => ?_
  split
  · exact .ok _
  · exact .error _

theorem raisesDomain_requireCopingMode (v : PyVal) : RaisesDomain (requireCopingMode v) := by
  unfold requireCopingMode
  split
  · exact .ok _
  · exact .error _

theorem raisesDomain_requireTriggers (v : PyVal) : RaisesDomain (requireTriggers v) := by
  unfold requireTriggers
  split
  · exact .ok _
  · exact .error _

/-! ## What is read -/

theorem requireRange_toVal {lo hi : Int} (name : PyStr) (x : RangedFloat lo hi) :
    requireRange lo hi name x.toVal = .ok x := by
  have h : x.val.ltRatio lo 1 = false ∧ x.val.gtRatio hi 1 = false := ⟨x.ge, x.le⟩
  have hfloat : requireFloat name x.toVal = .ok x.val := rfl
  rw [requireRange, hfloat]
  exact dif_pos h

theorem requirePositive_toVal (name : PyStr) (x : PosFloat) :
    requirePositive name x.toVal = .ok x := by
  have hfloat : requireFloat name x.toVal = .ok x.val := rfl
  rw [requirePositive, hfloat]
  exact dif_pos x.pos

theorem requireCopingMode_text (m : CopingMode) : requireCopingMode (.str m.text) = .ok m := by
  rw [requireCopingMode, CopingMode.ofVal_text]

theorem requireTriggers_items (t : Triggers) :
    requireTriggers (.list (t.items.map .str)) = .ok t := by
  rw [requireTriggers, validateTriggers_items]

theorem validateStateFields_toDict (s : EmotionalStateV1) : validateStateFields s.toDict = .ok s := by
  have hget : ∀ {k : PyStr} {v : PyVal}, dictGet s.toDict k = some v → argument s.toDict k = .ok v := by
    intro k v hk
    rw [argument, hk]
  have hversion : requireSchemaVersion (.int 1) = .ok () := rfl
  unfold validateStateFields
  rw [hget (v := .int 1) rfl, hget (v := s.pleasure.toVal) rfl, hget (v := s.arousal.toVal) rfl,
    hget (v := s.dominance.toVal) rfl, hget (v := s.libido.toVal) rfl,
    hget (v := s.aggression.toVal) rfl, hget (v := s.connection.toVal) rfl,
    hget (v := s.energy.toVal) rfl, hget (v := s.tension.toVal) rfl,
    hget (v := .str s.copingMode.text) rfl, hget (v := s.timestamp.toVal) rfl]
  simp only [bind, Except.bind, hversion, requireRange_toVal, requireCopingMode_text,
    requirePositive_toVal]
  rfl

theorem validateRelationshipFields_toDict (s : RelationshipStateV1) :
    validateRelationshipFields s.toDict = .ok s := by
  have hget : ∀ {k : PyStr} {v : PyVal}, dictGet s.toDict k = some v → argument s.toDict k = .ok v := by
    intro k v hk
    rw [argument, hk]
  have hversion : requireSchemaVersion (.int 1) = .ok () := rfl
  unfold validateRelationshipFields
  rw [hget (v := .int 1) rfl, hget (v := s.trust.toVal) rfl, hget (v := s.affection.toVal) rfl,
    hget (v := s.tension.toVal) rfl, hget (v := s.timestamp.toVal) rfl,
    hget (v := .list (s.triggers.items.map .str)) rfl]
  simp only [bind, Except.bind, hversion, requireRange_toVal, requirePositive_toVal,
    requireTriggers_items]
  rfl

/-- The checks of the constructor find nothing that `create` did not. -/
theorem createEmotionalState_eq (kwargs : List (PyKey × PyVal)) :
    createEmotionalState kwargs = validateStateFields kwargs := by
  unfold createEmotionalState
  cases validateStateFields kwargs with
  | ok s => exact validateStateFields_toDict s
  | error e => rfl

theorem createRelationshipState_eq (kwargs : List (PyKey × PyVal)) :
    createRelationshipState kwargs = validateRelationshipFields kwargs := by
  unfold createRelationshipState
  cases validateRelationshipFields kwargs with
  | ok s => exact validateRelationshipFields_toDict s
  | error e => rfl

/-! ## The two classes -/

/-- What the readers rely on. `names` are the fields that were never renamed, and `dropped` those a
legacy document may have that are not read. -/
structure Lawful {S : Type} (c : SnapshotClass S) (names dropped : List PyStr) : Prop where
  fields : c.fields = names ++ [py "timestamp", py "schema_version"]
  required : c.legacyRequired = names ++ [c.oldTimestamp]
  allowed : c.legacyAllowed = dropped ++ c.legacyRequired
  distinct : (dropped ++ c.oldTimestamp :: c.fields).Nodup
  congr : ∀ a b, (∀ f ∈ c.fields, dictGet a f = dictGet b f) → c.create a = c.create b
  version : ∀ a s, c.create a = .ok s → dictGet a (py "schema_version") = some (.int 1)
  raises : ∀ a, (∀ f ∈ c.fields, (dictGet a f).isSome = true) →
    dictGet a (py "schema_version") = some (.int 1) → RaisesDomain (c.create a)
  toDict : ∀ s, hasExactly c.fields (c.toDict s) = true
  roundTrip : ∀ s, c.create (c.toDict s) = .ok s

theorem argument_congr {a b : List (PyKey × PyVal)} {k : PyStr} (h : dictGet a k = dictGet b k) :
    argument a k = argument b k := by
  rw [argument, argument, h]

theorem argument_some {a : List (PyKey × PyVal)} {k : PyStr} (h : (dictGet a k).isSome = true) :
    ∃ v, argument a k = .ok v := by
  obtain ⟨v, hv⟩ := Option.isSome_iff_exists.mp h
  exact ⟨v, by rw [argument, hv]⟩

/-- The version is the first thing that is looked at. -/
theorem version_of_ok {α : Type} {a : List (PyKey × PyVal)} {f : Unit → Except SnapshotFailure α} {s : α}
    (h : (argument a (py "schema_version") >>= fun v => requireSchemaVersion v >>= f) = .ok s) :
    dictGet a (py "schema_version") = some (.int 1) := by
  unfold argument at h
  cases hv : dictGet a (py "schema_version") with
  | none =>
      rw [hv] at h
      cases h
  | some v =>
      rw [hv] at h
      cases v with
      | int i =>
          by_cases hi : i = 1
          · rw [hi]
          · have herror : ∃ e, requireSchemaVersion (.int i) = .error e := by
              rw [requireSchemaVersion, if_neg hi]
              split
              · exact ⟨_, rfl⟩
              · exact ⟨_, rfl⟩
            obtain ⟨e, he⟩ := herror
            simp only [bind, Except.bind, he] at h
            cases h
      | _ => cases h

/-- An argument that is there, read by something that raises the domain error only. -/
theorem RaisesDomain.argument {α β : Type} {a : List (PyKey × PyVal)} {k : PyStr}
    {r : PyVal → Except SnapshotFailure β} {f : β → Except SnapshotFailure α}
    (h : (dictGet a k).isSome = true) (hr : ∀ v, RaisesDomain (r v)) (hf : ∀ x, RaisesDomain (f x)) :
    RaisesDomain (Checked.argument a k >>= fun v => r v >>= f) := by
  obtain ⟨v, hv⟩ := argument_some h
  rw [hv]
  exact (hr v).bind hf

theorem RaisesDomain.version {α : Type} {a : List (PyKey × PyVal)} {f : Unit → Except SnapshotFailure α}
    (h : dictGet a (py "schema_version") = some (.int 1)) (hf : RaisesDomain (f ())) :
    RaisesDomain (Checked.argument a (py "schema_version") >>= fun v => requireSchemaVersion v >>= f) := by
  have hv : Checked.argument a (py "schema_version") = .ok (.int 1) := by rw [Checked.argument, h]
  rw [hv]
  exact hf

theorem lawful_emotional : Lawful emotionalSnapshot
    [py "pleasure", py "arousal", py "dominance", py "libido", py "aggression", py "connection",
      py "energy", py "tension", py "coping_mode"] [] where
  fields := rfl
  required := rfl
  allowed := rfl
  distinct := by decide
  congr := by
    intro a b h
    have harg : ∀ f ∈ stateFields, argument a f = argument b f := fun f hf => argument_congr (h f hf)
    change createEmotionalState a = createEmotionalState b
    rw [createEmotionalState_eq, createEmotionalState_eq]
    unfold validateStateFields
    rw [harg (py "schema_version") (by decide), harg (py "pleasure") (by decide),
      harg (py "arousal") (by decide), harg (py "dominance") (by decide), harg (py "libido") (by decide),
      harg (py "aggression") (by decide), harg (py "connection") (by decide),
      harg (py "energy") (by decide), harg (py "tension") (by decide),
      harg (py "coping_mode") (by decide), harg (py "timestamp") (by decide)]
  version := by
    intro a s h
    change createEmotionalState a = .ok s at h
    rw [createEmotionalState_eq] at h
    exact version_of_ok h
  raises := by
    intro a h hversion
    change RaisesDomain (createEmotionalState a)
    rw [createEmotionalState_eq]
    have hthere : ∀ f ∈ stateFields, (dictGet a f).isSome = true := h
    have hbipolar := raisesDomain_requireRange (-1) 1
    have hunipolar := raisesDomain_requireRange 0 1
    refine .version hversion ?_
    refine .argument (hthere _ (by decide)) (hbipolar _) fun _ => ?_
    refine .argument (hthere _ (by decide)) (hbipolar _) fun _ => ?_
    refine .argument (hthere _ (by decide)) (hbipolar _) fun _ => ?_
    refine .argument (hthere _ (by decide)) (hunipolar _) fun _ => ?_
    refine .argument (hthere _ (by decide)) (hunipolar _) fun _ => ?_
    refine .argument (hthere _ (by decide)) (hunipolar _) fun _ => ?_
    refine .argument (hthere _ (by decide)) (hunipolar _) fun _ => ?_
    refine .argument (hthere _ (by decide)) (hunipolar _) fun _ => ?_
    refine .argument (hthere _ (by decide)) raisesDomain_requireCopingMode fun _ => ?_
    exact .argument (hthere _ (by decide)) (raisesDomain_requirePositive _) fun _ => .ok _
  toDict _ := rfl
  roundTrip s := (createEmotionalState_eq _).trans (validateStateFields_toDict s)

theorem lawful_relationship : Lawful relationshipSnapshot
    [py "trust", py "affection", py "tension", py "triggers"] [py "user_id", py "bond_label"] where
  fields := rfl
  required := rfl
  allowed := rfl
  distinct := by decide
  congr := by
    intro a b h
    have harg : ∀ f ∈ relationshipFields, argument a f = argument b f :=
      fun f hf => argument_congr (h f hf)
    change createRelationshipState a = createRelationshipState b
    rw [createRelationshipState_eq, createRelationshipState_eq]
    unfold validateRelationshipFields
    rw [harg (py "schema_version") (by decide), harg (py "trust") (by decide),
      harg (py "affection") (by decide), harg (py "tension") (by decide),
      harg (py "timestamp") (by decide), harg (py "triggers") (by decide)]
  version := by
    intro a s h
    change createRelationshipState a = .ok s at h
    rw [createRelationshipState_eq] at h
    exact version_of_ok h
  raises := by
    intro a h hversion
    change RaisesDomain (createRelationshipState a)
    rw [createRelationshipState_eq]
    have hthere : ∀ f ∈ relationshipFields, (dictGet a f).isSome = true := h
    have hunipolar := raisesDomain_requireRange 0 1
    refine .version hversion ?_
    refine .argument (hthere _ (by decide)) (hunipolar _) fun _ => ?_
    refine .argument (hthere _ (by decide)) (hunipolar _) fun _ => ?_
    refine .argument (hthere _ (by decide)) (hunipolar _) fun _ => ?_
    refine .argument (hthere _ (by decide)) (raisesDomain_requirePositive _) fun _ => ?_
    exact .argument (hthere _ (by decide)) raisesDomain_requireTriggers fun _ => .ok _
  toDict _ := rfl
  roundTrip s := (createRelationshipState_eq _).trans (validateRelationshipFields_toDict s)

/-! ## Lookups -/

/-- A keyword argument is what stands under the key it was taken from. -/
theorem keywords_ok (data : List (PyKey × PyVal)) : ∀ (names : List (PyStr × PyStr)),
    (∀ n ∈ names, (dictGet data n.2).isSome = true) →
    ∃ kwargs, keywords data names = .ok kwargs ∧
      ∀ k, dictGet kwargs k = (names.find? (·.1 = k)).bind fun n => dictGet data n.2
  | [], _ => ⟨[], rfl, fun _ => rfl⟩
  | n :: names, h => by
      obtain ⟨v, hv⟩ := Option.isSome_iff_exists.mp (h n List.mem_cons_self)
      obtain ⟨kwargs, hkwargs, hget⟩ := keywords_ok data names fun m hm => h m (List.mem_cons_of_mem n hm)
      refine ⟨(.str n.1, v) :: kwargs, ?_, fun k => ?_⟩
      · unfold keywords at hkwargs ⊢
        rw [List.mapM_cons, hkwargs, getItem, hv]
        rfl
      · rw [dictGet_cons, List.find?_cons, hget]
        by_cases hk : n.1 = k
        · simp [hk, hv]
        · simp [hk]

theorem find?_pair (k : PyStr) (l : List PyStr) :
    (l.map fun f => (f, f)).find? (·.1 = k) = if k ∈ l then some (k, k) else none := by
  induction l with
  | nil => rfl
  | cons f l ih =>
      rw [List.map_cons, List.find?_cons, ih]
      by_cases hk : f = k
      · simp [hk]
      · simp [hk, Ne.symm hk]

/-- The document without some of its fields. -/
def dropKeys (dropped : List PyStr) (kvs : List (PyKey × PyVal)) : List (PyKey × PyVal) :=
  kvs.filter fun p => !PyKey.isOneOf dropped p.1

theorem dictGet_dropKeys {dropped : List PyStr} {k : PyStr} (hk : k ∉ dropped)
    (kvs : List (PyKey × PyVal)) : dictGet (dropKeys dropped kvs) k = dictGet kvs k := by
  unfold dropKeys dictGet
  rw [List.find?_filter]
  congr 2
  funext p
  by_cases hp : p.1 = .str k
  · simp [hp, PyKey.isOneOf, hk]
  · simp [hp]

/-- The v1 names of a legacy document. -/
theorem dictGet_renameTimestamp {old : PyStr} {kvs : List (PyKey × PyVal)} (hne : old ≠ py "timestamp")
    (hfree : dictGet kvs (py "timestamp") = none) {k : PyStr} (hk : k ≠ py "schema_version") :
    dictGet (renameTimestamp old kvs) k =
      if k = py "timestamp" then dictGet kvs old else if k = old then none else dictGet kvs k := by
  have hversion : PyKey.str (py "schema_version") ≠ .str k := fun he => hk (PyKey.str.inj he).symm
  rw [renameTimestamp, dictGet_cons, if_neg hversion]
  exact dictGet_renameKey hne k hfree

section Generic

variable {S : Type} {c : SnapshotClass S} {names dropped : List PyStr}

theorem require_ok {b : Bool} (h : b = true) (e : SnapshotError) : require b e = .ok () := by
  rw [h]
  rfl

theorem require_error {b : Bool} (h : b = false) (e : SnapshotError) : require b e = .error (.domain e) := by
  rw [h]
  rfl

/-- **`from_dict` reads the documents with exactly its fields**, and raises the domain error on the
others. -/
theorem fromDict_cases (hc : Lawful c names dropped) (data : List (PyKey × PyVal)) :
    (hasExactly c.fields data = true ∧ fromDict c (.dict data) = c.create data) ∨
      (hasExactly c.fields data = false ∧ ∃ d, fromDict c (.dict data) = .error (.domain d)) := by
  have hversion : py "schema_version" ∈ c.fields := by
    rw [hc.fields]
    simp
  have hdo : fromDict c (.dict data) = (do
      require (data.all (PyKey.isOneOf c.fields ·.1)) .unknownFields
      require (dictGet data (py "schema_version")).isSome .versionMissing
      require (c.fields.all fun f => decide (f = py "schema_version") || (dictGet data f).isSome)
        .missingFields
      let kwargs ← keywords data (c.fields.map fun f => (f, f))
      c.create kwargs) := rfl
  rw [hdo]
  cases hall : data.all (PyKey.isOneOf c.fields ·.1) with
  | false =>
      refine .inr ⟨?_, .unknownFields, rfl⟩
      rw [hasExactly, hall, Bool.false_and]
  | true =>
      by_cases hthere : ∀ f ∈ c.fields, (dictGet data f).isSome = true
      · have hexact : hasExactly c.fields data = true := by
          rw [hasExactly, hall, Bool.true_and, List.all_eq_true]
          exact hthere
        have hkeys : ∀ n ∈ c.fields.map fun f => (f, f), (dictGet data n.2).isSome = true := by
          intro n hn
          obtain ⟨f, hf, rfl⟩ := List.mem_map.mp hn
          exact hthere f hf
        obtain ⟨kwargs, hkwargs, hget⟩ := keywords_ok data _ hkeys
        have hcreate : c.create kwargs = c.create data := by
          refine hc.congr kwargs data fun f hf => ?_
          rw [hget, find?_pair, if_pos hf]
          rfl
        refine .inl ⟨hexact, ?_⟩
        have hall' : (c.fields.all fun f => decide (f = py "schema_version") || (dictGet data f).isSome)
            = true := by
          rw [List.all_eq_true]
          intro f hf
          rw [hthere f hf, Bool.or_true]
        rw [require_ok rfl, require_ok (hthere _ hversion), require_ok hall', hkwargs, ← hcreate]
        rfl
      · have hexact : hasExactly c.fields data = false := by
          rw [hasExactly, hall, Bool.true_and, Bool.eq_false_iff, Ne, List.all_eq_true]
          exact hthere
        refine .inr ⟨hexact, ?_⟩
        rw [require_ok rfl]
        cases hsv : (dictGet data (py "schema_version")).isSome with
        | false => exact ⟨.versionMissing, rfl⟩
        | true =>
            have hmissing : (c.fields.all fun f =>
                decide (f = py "schema_version") || (dictGet data f).isSome) = false := by
              rw [Bool.eq_false_iff, Ne, List.all_eq_true]
              intro hothers
              refine hthere fun f hf => ?_
              by_cases he : f = py "schema_version"
              · rw [he]
                exact hsv
              · simpa [he] using hothers f hf
            rw [hmissing]
            exact ⟨.missingFields, rfl⟩

/-- A legacy document under the v1 names. -/
def upgraded (c : SnapshotClass S) (dropped : List PyStr) (data : List (PyKey × PyVal)) :
    List (PyKey × PyVal) := renameTimestamp c.oldTimestamp (dropKeys dropped data)

/-- What keeps the names apart. -/
theorem Lawful.apart (hc : Lawful c names dropped) :
    c.oldTimestamp ∉ c.fields ∧ c.oldTimestamp ∉ dropped ∧ (∀ f ∈ c.fields, f ∉ dropped) ∧
      py "timestamp" ∉ names ∧ py "schema_version" ∉ names := by
  have h := hc.distinct
  rw [List.nodup_append, List.nodup_cons] at h
  obtain ⟨-, ⟨hold, hfields⟩, hdropped⟩ := h
  rw [hc.fields, List.nodup_append] at hfields
  refine ⟨hold, ?_, ?_, ?_, ?_⟩
  · exact fun hmem => hdropped _ hmem _ List.mem_cons_self rfl
  · exact fun f hf hmem => hdropped f hmem f (List.mem_cons_of_mem _ hf) rfl
  · exact fun hmem => hfields.2.2 _ hmem _ List.mem_cons_self rfl
  · exact fun hmem => hfields.2.2 _ hmem _ (List.mem_cons_of_mem _ List.mem_cons_self) rfl

theorem dictGet_upgraded (hc : Lawful c names dropped) {data : List (PyKey × PyVal)}
    (hfree : dictGet data (py "timestamp") = none) {f : PyStr} (hf : f ∈ c.fields) :
    dictGet (upgraded c dropped data) f =
      if f = py "schema_version" then some (.int 1)
      else if f = py "timestamp" then dictGet data c.oldTimestamp else dictGet data f := by
  obtain ⟨hold, hold', hdropped, -, -⟩ := hc.apart
  have htimestamp : py "timestamp" ∈ c.fields := by
    rw [hc.fields]
    simp
  by_cases hversion : f = py "schema_version"
  · rw [if_pos hversion, hversion, upgraded, renameTimestamp, dictGet_cons, if_pos rfl]
  · have hne : c.oldTimestamp ≠ py "timestamp" := fun he => hold (he ▸ htimestamp)
    have hfree' : dictGet (dropKeys dropped data) (py "timestamp") = none := by
      rw [dictGet_dropKeys (hdropped _ htimestamp), hfree]
    have hfold : f ≠ c.oldTimestamp := fun he => hold (he ▸ hf)
    rw [if_neg hversion, upgraded, dictGet_renameTimestamp hne hfree' hversion, if_neg hfold,
      dictGet_dropKeys hold', dictGet_dropKeys (hdropped f hf)]

/-- The fields of a legacy document are right when those of the upgraded one are. -/
theorem hasExactly_upgraded (hc : Lawful c names dropped) {data : List (PyKey × PyVal)}
    (hversion : dictGet data (py "schema_version") = none)
    (hfree : dictGet data (py "timestamp") = none) :
    hasExactly c.fields (upgraded c dropped data) =
      (data.all (PyKey.isOneOf c.legacyAllowed ·.1) &&
        c.legacyRequired.all fun f => (dictGet data f).isSome) := by
  obtain ⟨-, -, -, htimestamp, hversion'⟩ := hc.apart
  have hget : ∀ f ∈ c.fields, _ := fun f hf => dictGet_upgraded hc hfree hf
  unfold hasExactly
  congr 1
  · have hkey : ∀ p ∈ data, ∀ k, p.1 = .str k → k ≠ py "schema_version" ∧ k ≠ py "timestamp" := by
      intro p hp k hk
      have hmem : PyKey.str k ∈ data.map Prod.fst := List.mem_map.mpr ⟨p, hp, hk⟩
      constructor
      · rintro rfl
        exact dictGet_eq_none.mp hversion hmem
      · rintro rfl
        exact dictGet_eq_none.mp hfree hmem
    rw [upgraded, renameTimestamp, List.all_cons, List.all_map, dropKeys, List.all_filter]
    have hfirst : PyKey.isOneOf c.fields (.str (py "schema_version")) = true := by
      simp [PyKey.isOneOf, hc.fields]
    rw [hfirst, Bool.true_and, Bool.eq_iff_iff, List.all_eq_true, List.all_eq_true]
    refine forall₂_congr fun p hp => ?_
    obtain ⟨key, v⟩ := p
    cases key with
    | str k =>
        obtain ⟨hk, hk'⟩ := hkey _ hp k rfl
        by_cases hold : k = c.oldTimestamp
        · simp [PyKey.isOneOf, hold, hc.fields, hc.allowed, hc.required]
        · simp [PyKey.isOneOf, hold, hk, hk', hc.fields, hc.allowed, hc.required]
    | _ => simp [PyKey.isOneOf]
  · have hnames : ∀ f ∈ names, dictGet (upgraded c dropped data) f = dictGet data f := by
      intro f hf
      have hne : f ≠ py "schema_version" := fun he => hversion' (he ▸ hf)
      have hne' : f ≠ py "timestamp" := fun he => htimestamp (he ▸ hf)
      rw [hget f (by rw [hc.fields]; exact List.mem_append_left _ hf), if_neg hne, if_neg hne']
    have hstamp : dictGet (upgraded c dropped data) (py "timestamp") = dictGet data c.oldTimestamp := by
      rw [hget _ (by rw [hc.fields]; simp), if_neg (by decide), if_pos rfl]
    have hone : dictGet (upgraded c dropped data) (py "schema_version") = some (.int 1) := by
      rw [hget _ (by rw [hc.fields]; simp), if_pos rfl]
    rw [hc.fields, hc.required, List.all_append, List.all_append]
    congr 1
    · rw [Bool.eq_iff_iff, List.all_eq_true, List.all_eq_true]
      exact forall₂_congr fun f hf => by rw [hnames f hf]
    · simp [hstamp, hone]

/-- **A legacy document is read as the document under the v1 names.** -/
theorem migrate_legacy_cases (hc : Lawful c names dropped) {data : List (PyKey × PyVal)}
    (hversion : dictGet data (py "schema_version") = none)
    (hfree : dictGet data (py "timestamp") = none) :
    (hasExactly c.fields (upgraded c dropped data) = true ∧
        migrate c (.dict data) = c.create (upgraded c dropped data)) ∨
      (hasExactly c.fields (upgraded c dropped data) = false ∧
        ∃ d, migrate c (.dict data) = .error (.domain d)) := by
  obtain ⟨hold, -, -, htimestamp, hversion'⟩ := hc.apart
  have hnameOld : ∀ f ∈ names, f ≠ c.oldTimestamp := by
    intro f hf he
    exact hold (he ▸ by rw [hc.fields]; exact List.mem_append_left _ hf)
  have hdo : migrate c (.dict data) = (do
      require (!(c.refusesEmpty && data.isEmpty)) .empty
      require (!((dictGet data c.oldTimestamp).isSome && (dictGet data (py "timestamp")).isSome))
        .conflictingTimestamps
      require (data.all (PyKey.isOneOf c.legacyAllowed ·.1)) .unknownFields
      require (c.legacyRequired.all fun f => (dictGet data f).isSome) .missingFields
      let kwargs ← keywords data
        (c.legacyRequired.map fun f => (if f = c.oldTimestamp then py "timestamp" else f, f))
      c.create (kwargs ++ [(.str (py "schema_version"), .int 1)])) := by
    simp only [migrate, PyVal.items?, hversion]
  have hnoConflict : (!((dictGet data c.oldTimestamp).isSome && (dictGet data (py "timestamp")).isSome))
      = true := by
    rw [hfree]
    simp
  rw [hasExactly_upgraded hc hversion hfree, hdo, require_ok hnoConflict]
  cases hempty : (c.refusesEmpty && data.isEmpty) with
  | true =>
      have hnil : data = [] := List.isEmpty_iff.mp (Bool.and_eq_true_iff.mp hempty).2
      refine .inr ⟨?_, .empty, rfl⟩
      rw [hnil, hc.required]
      simp [dictGet]
  | false =>
      cases hall : data.all (PyKey.isOneOf c.legacyAllowed ·.1) with
      | false => exact .inr ⟨rfl, .unknownFields, rfl⟩
      | true =>
          cases hthere : c.legacyRequired.all fun f => (dictGet data f).isSome with
          | false => exact .inr ⟨rfl, .missingFields, rfl⟩
          | true =>
              refine .inl ⟨rfl, ?_⟩
              rw [List.all_eq_true] at hthere
              have hpairs : (c.legacyRequired.map fun f =>
                  (if f = c.oldTimestamp then py "timestamp" else f, f)) =
                  (names.map fun f => (f, f)) ++ [(py "timestamp", c.oldTimestamp)] := by
                rw [hc.required, List.map_append, List.map_singleton, if_pos rfl]
                congr 1
                exact List.map_congr_left fun f hf => by rw [if_neg (hnameOld f hf)]
              have hkeys : ∀ n ∈ (names.map fun f => (f, f)) ++ [(py "timestamp", c.oldTimestamp)],
                  (dictGet data n.2).isSome = true := by
                intro n hn
                rw [← hpairs] at hn
                obtain ⟨f, hf, rfl⟩ := List.mem_map.mp hn
                exact hthere f hf
              obtain ⟨kwargs, hkwargs, hget⟩ := keywords_ok data _ hkeys
              rw [hpairs, hkwargs]
              refine hc.congr _ _ fun f hf => ?_
              rw [dictGet_upgraded hc hfree hf, dictGet_append, hget, List.find?_append, find?_pair]
              by_cases hname : f ∈ names
              · have hne : f ≠ py "schema_version" := fun he => hversion' (he ▸ hname)
                have hne' : f ≠ py "timestamp" := fun he => htimestamp (he ▸ hname)
                obtain ⟨v, hv⟩ := Option.isSome_iff_exists.mp
                  (hthere f (by rw [hc.required]; exact List.mem_append_left _ hname))
                simp [hname, hne, hne', hv]
              · rw [hc.fields, List.mem_append] at hf
                have hcases : f = py "timestamp" ∨ f = py "schema_version" := by
                  simpa using hf.resolve_left hname
                rcases hcases with rfl | rfl
                · obtain ⟨v, hv⟩ := Option.isSome_iff_exists.mp
                    (hthere c.oldTimestamp (by rw [hc.required]; simp))
                  have hne : py "timestamp" ≠ py "schema_version" := by decide
                  simp [htimestamp, hne, hv]
                · have hne : py "timestamp" ≠ py "schema_version" := by decide
                  simp [hversion', hne, dictGet]

/-- `from_dict` reads documents of version 1 only. -/
theorem fromDict_ok (hc : Lawful c names dropped) {data : List (PyKey × PyVal)} {s : S}
    (h : fromDict c (.dict data) = .ok s) :
    hasExactly c.fields data = true ∧ dictGet data (py "schema_version") = some (.int 1) := by
  rcases fromDict_cases hc data with ⟨hexact, heq⟩ | ⟨-, d, herror⟩
  · rw [heq] at h
    exact ⟨hexact, hc.version data s h⟩
  · rw [herror] at h
    cases h

theorem requireV1_cases (v : PyVal) : v = .int 1 ∨ ∃ d, requireV1 v = .error (.domain d) := by
  cases v with
  | int i =>
      by_cases hi : i = 1
      · exact .inl (by rw [hi])
      · exact .inr ⟨.unsupportedVersion, require_error (decide_eq_false hi) _⟩
  | none => exact .inr ⟨.versionNone, rfl⟩
  | _ => exact .inr ⟨.versionNotInt, rfl⟩

/-- **A document with a version is left to `from_dict`**, or the domain error is raised and `from_dict`
does not read it either. -/
theorem migrate_versioned_cases (hc : Lawful c names dropped) {data : List (PyKey × PyVal)} {v : PyVal}
    (hversion : dictGet data (py "schema_version") = some v) :
    (v = .int 1 ∧ migrate c (.dict data) = fromDict c (.dict data)) ∨
      ((∃ d, migrate c (.dict data) = .error (.domain d)) ∧ ∀ s, fromDict c (.dict data) ≠ .ok s) := by
  have hdo : migrate c (.dict data) = (do
      require (!(c.refusesEmpty && data.isEmpty)) .empty
      require (!((dictGet data c.oldTimestamp).isSome && (dictGet data (py "timestamp")).isSome))
        .conflictingTimestamps
      requireV1 v
      require (data.all (PyKey.isOneOf c.fields ·.1)) .unknownFields
      require (dictGet data c.oldTimestamp).isNone .legacyTimestamp
      fromDict c (.dict data)) := by
    simp only [migrate, PyVal.items?, hversion]
  have hempty : (!(c.refusesEmpty && data.isEmpty)) = true := by
    cases data with
    | nil => cases hversion
    | cons p ps => simp
  rw [hdo, require_ok hempty]
  cases hold : dictGet data c.oldTimestamp with
  | some w =>
      have hunread : ∀ s, fromDict c (.dict data) ≠ .ok s := by
        intro s hs
        have hnone := dictGet_of_hasExactly (fromDict_ok hc hs).1 hc.apart.1
        rw [hold] at hnone
        cases hnone
      refine .inr ⟨?_, hunread⟩
      cases (dictGet data (py "timestamp")).isSome with
      | true => exact ⟨.conflictingTimestamps, rfl⟩
      | false =>
          rcases requireV1_cases v with rfl | ⟨d, hd⟩
          · cases data.all (PyKey.isOneOf c.fields ·.1) with
            | true => exact ⟨.legacyTimestamp, rfl⟩
            | false => exact ⟨.unknownFields, rfl⟩
          · rw [hd]
            exact ⟨d, rfl⟩
  | none =>
      rcases requireV1_cases v with rfl | ⟨d, hd⟩
      · cases hall : data.all (PyKey.isOneOf c.fields ·.1) with
        | true => exact .inl ⟨rfl, rfl⟩
        | false =>
            refine .inr ⟨⟨.unknownFields, rfl⟩, fun s hs => ?_⟩
            have hexact := (fromDict_ok hc hs).1
            rw [hasExactly, hall] at hexact
            cases hexact
      · refine .inr ⟨?_, fun s hs => ?_⟩
        · rw [hd]
          exact ⟨d, rfl⟩
        · have hv := (fromDict_ok hc hs).2
          rw [hversion] at hv
          rw [Option.some.inj hv] at hd
          cases hd

theorem raisesDomain_create (hc : Lawful c names dropped) {data : List (PyKey × PyVal)}
    (hexact : hasExactly c.fields data = true)
    (hversion : dictGet data (py "schema_version") = some (.int 1)) : RaisesDomain (c.create data) := by
  rw [hasExactly, Bool.and_eq_true, List.all_eq_true, List.all_eq_true] at hexact
  exact hc.raises data hexact.2 hversion

/-- A legacy document has no `timestamp`. -/
theorem migrate_timestamp (hc : Lawful c names dropped) {data : List (PyKey × PyVal)}
    (hversion : dictGet data (py "schema_version") = none)
    (htime : (dictGet data (py "timestamp")).isSome = true) :
    data.all (PyKey.isOneOf c.legacyAllowed ·.1) = false ∧
      ∃ d, migrate c (.dict data) = .error (.domain d) := by
  obtain ⟨hold, -, hdropped, htimestamp, -⟩ := hc.apart
  have hmem : py "timestamp" ∈ c.fields := by
    rw [hc.fields]
    simp
  have hunknown : py "timestamp" ∉ c.legacyAllowed := by
    have hne : py "timestamp" ≠ c.oldTimestamp := fun he => hold (he ▸ hmem)
    simp [hc.allowed, hc.required, hdropped _ hmem, htimestamp, hne]
  have hall : data.all (PyKey.isOneOf c.legacyAllowed ·.1) = false := by
    rw [Bool.eq_false_iff, Ne, List.all_eq_true]
    intro hallowed
    obtain ⟨t, ht⟩ := Option.isSome_iff_exists.mp htime
    rw [dictGet, Option.map_eq_some_iff] at ht
    obtain ⟨p, hp, -⟩ := ht
    have hkey : p.1 = .str (py "timestamp") := by simpa using List.find?_some hp
    have hone := hallowed p (List.mem_of_find?_eq_some hp)
    rw [hkey] at hone
    exact hunknown (of_decide_eq_true hone)
  refine ⟨hall, ?_⟩
  simp only [migrate, PyVal.items?, hversion, hall]
  cases c.refusesEmpty && data.isEmpty with
  | true => exact ⟨.empty, rfl⟩
  | false =>
      cases (dictGet data c.oldTimestamp).isSome && (dictGet data (py "timestamp")).isSome with
      | true => exact ⟨.conflictingTimestamps, rfl⟩
      | false => exact ⟨.unknownFields, rfl⟩

theorem raisesDomain_migrate (hc : Lawful c names dropped) (raw : PyVal) :
    RaisesDomain (migrate c raw) := by
  cases raw with
  | dict data =>
      cases hversion : dictGet data (py "schema_version") with
      | some v =>
          rcases migrate_versioned_cases hc hversion with ⟨rfl, heq⟩ | ⟨⟨d, hd⟩, -⟩
          · rw [heq]
            rcases fromDict_cases hc data with ⟨hexact, hread⟩ | ⟨-, d, hd⟩
            · rw [hread]
              exact raisesDomain_create hc hexact hversion
            · rw [hd]
              exact .error d
          · rw [hd]
            exact .error d
      | none =>
          cases hfree : dictGet data (py "timestamp") with
          | none =>
              have hone : dictGet (upgraded c dropped data) (py "schema_version") = some (.int 1) := by
                rw [dictGet_upgraded hc hfree (by rw [hc.fields]; simp), if_pos rfl]
              rcases migrate_legacy_cases hc hversion hfree with ⟨hexact, heq⟩ | ⟨-, d, hd⟩
              · rw [heq]
                exact raisesDomain_create hc hexact hone
              · rw [hd]
                exact .error d
          | some t =>
              obtain ⟨-, d, hd⟩ := migrate_timestamp hc hversion (by rw [hfree]; rfl)
              rw [hd]
              exact .error d
  | _ => exact .error .notDict

/-- A migration projects onto what a reader of v1 documents accepts. -/
structure Projection (migration reader : PyVal → Except SnapshotFailure S)
    (write : S → List (PyKey × PyVal)) (oldTimestamp : PyStr) (dropped : List PyStr) : Prop where
  /-- What comes out is written and read, and migrated, as itself. -/
  stable : ∀ raw s, migration raw = .ok s →
    reader (.dict (write s)) = .ok s ∧ migration (.dict (write s)) = .ok s
  /-- A document with a version is migrated as it is read. -/
  versioned : ∀ data s, (dictGet data (py "schema_version")).isSome = true →
    (migration (.dict data) = .ok s ↔ reader (.dict data) = .ok s)
  /-- A document with neither a version nor a timestamp is migrated as its v1 form is read. -/
  legacy : ∀ data s, dictGet data (py "schema_version") = none →
    dictGet data (py "timestamp") = none →
    (migration (.dict data) = .ok s ↔
      reader (.dict (renameTimestamp oldTimestamp (dropKeys dropped data))) = .ok s)
  /-- Whatever the value, only the domain error is raised. -/
  raises : ∀ raw, RaisesDomain (migration raw)

theorem Lawful.projection (hc : Lawful c names dropped) :
    Projection (migrate c) (fromDict c) c.toDict c.oldTimestamp dropped where
  stable := by
    intro raw s _
    have hread : fromDict c (.dict (c.toDict s)) = .ok s := by
      rcases fromDict_cases hc (c.toDict s) with ⟨-, heq⟩ | ⟨hexact, -⟩
      · rw [heq, hc.roundTrip]
      · rw [hc.toDict] at hexact
        cases hexact
    rcases migrate_versioned_cases hc (fromDict_ok hc hread).2 with ⟨-, heq⟩ | ⟨-, hunread⟩
    · exact ⟨hread, heq.trans hread⟩
    · exact absurd hread (hunread s)
  versioned := by
    intro data s hsome
    obtain ⟨v, hversion⟩ := Option.isSome_iff_exists.mp hsome
    rcases migrate_versioned_cases hc hversion with ⟨-, heq⟩ | ⟨⟨d, hd⟩, hunread⟩
    · rw [heq]
    · rw [hd]
      exact iff_of_false (fun h => by cases h) (hunread s)
  legacy := by
    intro data s hversion hfree
    change _ ↔ fromDict c (.dict (upgraded c dropped data)) = .ok s
    rcases migrate_legacy_cases hc hversion hfree with ⟨hexact, heq⟩ | ⟨hexact, d, hd⟩
    · rcases fromDict_cases hc (upgraded c dropped data) with ⟨-, hread⟩ | ⟨hbad, -⟩
      · rw [heq, hread]
      · rw [hexact] at hbad
        cases hbad
    · rw [hd]
      refine iff_of_false (fun h => by cases h) fun hs => ?_
      rw [(fromDict_ok hc hs).1] at hexact
      cases hexact
  raises := raisesDomain_migrate hc

end Generic

/-- `EmotionalStateV1.from_dict`. -/
def emotionalFromDict : PyVal → Except SnapshotFailure EmotionalStateV1 := fromDict emotionalSnapshot

/-- `RelationshipStateV1.from_dict`. -/
def relationshipFromDict : PyVal → Except SnapshotFailure RelationshipStateV1 :=
  fromDict relationshipSnapshot

/-- **Both migrations are projections.** -/
theorem snapshot_migrations_project :
    Projection migrateLegacySnapshot emotionalFromDict EmotionalStateV1.toDict (py "last_update") [] ∧
      Projection migrateLegacyRelationshipSnapshot relationshipFromDict RelationshipStateV1.toDict
        (py "last_interaction") [py "user_id", py "bond_label"] :=
  ⟨lawful_emotional.projection, lawful_relationship.projection⟩

/-! ## Without the exceptions -/

theorem toOption_argument {α β : Type} {kwargs : List (PyKey × PyVal)} {k : PyStr}
    {r : PyVal → Except SnapshotFailure α} {o : PyVal → Option α}
    {f : α → Except SnapshotFailure β} (h : ∀ v, (r v).toOption = o v) :
    (argument kwargs k >>= fun v => r v >>= f).toOption =
      ((dictGet kwargs k).bind o).bind fun x => (f x).toOption := by
  unfold argument
  cases dictGet kwargs k with
  | none => rfl
  | some v =>
      change (r v >>= f).toOption = (o v).bind _
      rw [← h v]
      cases r v <;> rfl

theorem toOption_requireSchemaVersion (v : PyVal) :
    (requireSchemaVersion v).toOption = Katherine.requireSchemaVersion v := by
  cases v with
  | int i =>
      unfold requireSchemaVersion Katherine.requireSchemaVersion
      by_cases hi : i = 1
      · simp only [if_pos hi]
        rfl
      · simp only [if_neg hi]
        split <;> rfl
  | _ => rfl

theorem toOption_requireRange (lo hi : Int) (name : PyStr) (v : PyVal) :
    (requireRange lo hi name v).toOption = requireFiniteFloatInRange lo hi v := by
  unfold requireRange requireFloat requireFiniteFloatInRange
  cases requireFiniteFloat v with
  | none => rfl
  | some f =>
      simp only [bind, Except.bind, Option.bind_some]
      split <;> rfl

theorem toOption_requirePositive (name : PyStr) (v : PyVal) :
    (requirePositive name v).toOption = requirePositiveFloat v := by
  unfold requirePositive requireFloat requirePositiveFloat
  cases requireFiniteFloat v with
  | none => rfl
  | some f =>
      simp only [bind, Except.bind, Option.bind_some]
      split <;> rfl

theorem toOption_requireCopingMode (v : PyVal) :
    (requireCopingMode v).toOption = CopingMode.ofVal v := by
  unfold requireCopingMode
  cases CopingMode.ofVal v <;> rfl

theorem toOption_requireTriggers (v : PyVal) : (requireTriggers v).toOption = validateTriggers v := by
  unfold requireTriggers
  cases validateTriggers v <;> rfl

/-- `EmotionalStateV1.fromDict` is `from_dict` with its exceptions forgotten. -/
theorem emotionalFromDict_toOption (data : List (PyKey × PyVal)) :
    (emotionalFromDict (.dict data)).toOption = EmotionalStateV1.fromDict data := by
  unfold EmotionalStateV1.fromDict emotionalFromDict
  rcases fromDict_cases lawful_emotional data with ⟨hexact, heq⟩ | ⟨hexact, d, hd⟩
  · have hexact' : hasExactly stateFields data = true := hexact
    rw [heq, hexact']
    change (createEmotionalState data).toOption = _
    rw [createEmotionalState_eq, validateStateFields, toOption_argument toOption_requireSchemaVersion]
    simp only [toOption_argument (toOption_requireRange _ _ _),
      toOption_argument (toOption_requirePositive _), toOption_argument toOption_requireCopingMode]
    rfl
  · have hexact' : hasExactly stateFields data = false := hexact
    rw [hd, hexact']
    rfl

theorem relationshipFromDict_toOption (data : List (PyKey × PyVal)) :
    (relationshipFromDict (.dict data)).toOption = RelationshipStateV1.fromDict data := by
  unfold RelationshipStateV1.fromDict relationshipFromDict
  rcases fromDict_cases lawful_relationship data with ⟨hexact, heq⟩ | ⟨hexact, d, hd⟩
  · have hexact' : hasExactly relationshipFields data = true := hexact
    rw [heq, hexact']
    change (createRelationshipState data).toOption = _
    rw [createRelationshipState_eq, validateRelationshipFields,
      toOption_argument toOption_requireSchemaVersion]
    simp only [toOption_argument (toOption_requireRange _ _ _),
      toOption_argument (toOption_requirePositive _), toOption_argument toOption_requireTriggers]
    rfl
  · have hexact' : hasExactly relationshipFields data = false := hexact
    rw [hd, hexact']
    rfl

theorem ok_iff_toOption {α : Type} {r : Except SnapshotFailure α} {s : α} :
    r = .ok s ↔ r.toOption = some s := by
  cases r with
  | ok x => exact ⟨fun h => congrArg Except.toOption h, fun h => congrArg _ (Option.some.inj h)⟩
  | error e => exact iff_of_false (fun h => by cases h) (fun h => by cases h)

theorem dropKeys_nil (data : List (PyKey × PyVal)) : dropKeys [] data = data := by
  refine List.filter_eq_self.mpr fun p _ => ?_
  obtain ⟨key, v⟩ := p
  cases key <;> rfl

/-- `migrateLegacySnapshot` is the migration with its exceptions forgotten. -/
theorem migrateLegacySnapshot_toOption (data : List (PyKey × PyVal)) :
    (migrateLegacySnapshot (.dict data)).toOption = Katherine.migrateLegacySnapshot data := by
  obtain ⟨-, hversioned, hlegacy, -⟩ := lawful_emotional.projection
  refine Option.ext fun s => ?_
  rw [← ok_iff_toOption]
  have hread : ∀ data, fromDict emotionalSnapshot (.dict data) = .ok s ↔
      EmotionalStateV1.fromDict data = some s := by
    intro data
    rw [← emotionalFromDict_toOption, ← ok_iff_toOption]
    rfl
  unfold Katherine.migrateLegacySnapshot migrateLegacySnapshot
  cases hversion : dictGet data (py "schema_version") with
  | some v =>
      rw [hversioned data s (by rw [hversion]; rfl), hread]
      constructor
      · intro hs
        have hmigrated := migrateLegacySnapshot_of_fromDict hs
        unfold Katherine.migrateLegacySnapshot at hmigrated
        rw [hversion] at hmigrated
        exact hmigrated
      · intro hs
        split at hs
        · cases hs
        · simp only [Option.bind_eq_bind, Option.bind_eq_some_iff] at hs
          obtain ⟨_, -, hs⟩ := hs
          exact hs
  | none =>
      cases hfree : dictGet data (py "timestamp") with
      | none =>
          have hexact := hasExactly_upgraded lawful_emotional hversion hfree
          rw [hlegacy data s hversion hfree, hread, dropKeys_nil]
          rw [upgraded, dropKeys_nil] at hexact
          have hfields : hasExactly stateFields (renameTimestamp (py "last_update") data) =
              hasExactly legacyExactFields data := hexact
          simp only [Option.isSome_none, Bool.and_false, Bool.false_eq_true, if_false]
          constructor
          · intro hs
            change EmotionalStateV1.fromDict (renameTimestamp (py "last_update") data) = some s at hs
            rw [← hfields, (EmotionalStateV1.fromDict_cases hs).1, if_pos rfl]
            exact hs
          · intro hs
            split at hs
            · exact hs
            · cases hs
      | some t =>
          obtain ⟨hall, d, hd⟩ :=
            migrate_timestamp lawful_emotional hversion (by rw [hfree]; rfl)
          have hexact : hasExactly legacyExactFields data = false := by
            have hall' : data.all (PyKey.isOneOf legacyExactFields ·.1) = false := hall
            rw [hasExactly, hall', Bool.false_and]
          rw [hd, hexact]
          refine iff_of_false (fun h => by cases h) fun hs => ?_
          split at hs
          · cases hs
          · cases hs

/-- The document the relationship migration reads is the upgraded one, without what is not read. -/
theorem fromDict_upgraded {data : List (PyKey × PyVal)} {trust affection tension triggers time : PyVal}
    (hfree : dictGet data (py "timestamp") = none)
    (hexact : hasExactly relationshipFields
      (upgraded relationshipSnapshot [py "user_id", py "bond_label"] data) = true)
    (h1 : dictGet data (py "trust") = some trust) (h2 : dictGet data (py "affection") = some affection)
    (h3 : dictGet data (py "tension") = some tension) (h4 : dictGet data (py "triggers") = some triggers)
    (h5 : dictGet data (py "last_interaction") = some time) :
    RelationshipStateV1.fromDict [(.str (py "schema_version"), .int 1), (.str (py "trust"), trust),
        (.str (py "affection"), affection), (.str (py "tension"), tension),
        (.str (py "triggers"), triggers), (.str (py "timestamp"), time)] =
      RelationshipStateV1.fromDict
        (upgraded relationshipSnapshot [py "user_id", py "bond_label"] data) := by
  have hget : ∀ f ∈ relationshipFields, _ := fun f hf => dictGet_upgraded lawful_relationship hfree hf
  rw [← relationshipFromDict_toOption, ← relationshipFromDict_toOption]
  congr 1
  unfold relationshipFromDict
  have hgood : hasExactly relationshipFields [(.str (py "schema_version"), .int 1),
      (.str (py "trust"), trust), (.str (py "affection"), affection), (.str (py "tension"), tension),
      (.str (py "triggers"), triggers), (.str (py "timestamp"), time)] = true := rfl
  rcases fromDict_cases lawful_relationship [(.str (py "schema_version"), .int 1),
      (.str (py "trust"), trust), (.str (py "affection"), affection), (.str (py "tension"), tension),
      (.str (py "triggers"), triggers), (.str (py "timestamp"), time)] with ⟨-, hlist⟩ | ⟨hbad, -⟩
  · rcases fromDict_cases lawful_relationship
        (upgraded relationshipSnapshot [py "user_id", py "bond_label"] data) with ⟨-, hup⟩ | ⟨hbad, -⟩
    · rw [hlist, hup]
      refine lawful_relationship.congr _ _ fun f hf => ?_
      have hf' : f ∈ relationshipFields := hf
      rw [hget f hf']
      simp only [relationshipFields, List.mem_cons, List.not_mem_nil, or_false] at hf'
      rcases hf' with rfl | rfl | rfl | rfl | rfl | rfl
      · exact h1.symm
      · exact h2.symm
      · exact h3.symm
      · exact h4.symm
      · exact h5.symm
      · rfl
    · exact absurd (hexact.symm.trans hbad) (by decide)
  · exact absurd (hgood.symm.trans hbad) (by decide)

/-- `migrateLegacyRelationshipSnapshot` is the migration with its exceptions forgotten. -/
theorem migrateLegacyRelationshipSnapshot_toOption (data : List (PyKey × PyVal)) :
    (migrateLegacyRelationshipSnapshot (.dict data)).toOption =
      Katherine.migrateLegacyRelationshipSnapshot data := by
  obtain ⟨-, hversioned, hlegacy, -⟩ := lawful_relationship.projection
  refine Option.ext fun s => ?_
  rw [← ok_iff_toOption]
  have hread : ∀ data, fromDict relationshipSnapshot (.dict data) = .ok s ↔
      RelationshipStateV1.fromDict data = some s := by
    intro data
    rw [← relationshipFromDict_toOption, ← ok_iff_toOption]
    rfl
  unfold Katherine.migrateLegacyRelationshipSnapshot migrateLegacyRelationshipSnapshot
  cases hversion : dictGet data (py "schema_version") with
  | some v =>
      rw [hversioned data s (by rw [hversion]; rfl), hread]
      constructor
      · intro hs
        have hmigrated := migrateLegacyRelationshipSnapshot_of_fromDict hs
        unfold Katherine.migrateLegacyRelationshipSnapshot at hmigrated
        rw [hversion] at hmigrated
        exact hmigrated
      · intro hs
        split at hs
        · cases hs
        · split at hs
          · cases hs
          · simp only [Option.bind_eq_bind, Option.bind_eq_some_iff] at hs
            obtain ⟨_, -, hs⟩ := hs
            exact hs
  | none =>
      cases hfree : dictGet data (py "timestamp") with
      | none =>
          have hexact : hasExactly relationshipFields
              (upgraded relationshipSnapshot [py "user_id", py "bond_label"] data) =
              (data.all (PyKey.isOneOf legacyAllowedFields ·.1) &&
                [py "trust", py "affection", py "tension", py "triggers", py "last_interaction"].all
                  fun f => (dictGet data f).isSome) :=
            hasExactly_upgraded lawful_relationship hversion hfree
          rw [hlegacy data s hversion hfree, hread]
          change RelationshipStateV1.fromDict
            (upgraded relationshipSnapshot [py "user_id", py "bond_label"] data) = some s ↔ _
          simp only [Option.isSome_none, Bool.and_false, Bool.false_eq_true, if_false]
          by_cases hok : hasExactly relationshipFields
              (upgraded relationshipSnapshot [py "user_id", py "bond_label"] data) = true
          · have hparts := hok
            rw [hexact, Bool.and_eq_true] at hparts
            obtain ⟨hall, hthere⟩ := hparts
            simp only [List.all_cons, List.all_nil, Bool.and_true, Bool.and_eq_true,
              Option.isSome_iff_exists] at hthere
            obtain ⟨⟨trust, h1⟩, ⟨affection, h2⟩, ⟨tension, h3⟩, ⟨triggers, h4⟩, ⟨time, h5⟩⟩ := hthere
            have hne : data.isEmpty = false := by
              cases data with
              | nil => cases h1
              | cons p ps => rfl
            simp only [hne, hall, h1, h2, h3, h4, h5, Option.bind_eq_bind, Option.bind_some, if_true,
              Bool.false_eq_true, if_false]
            rw [fromDict_upgraded hfree hok h1 h2 h3 h4 h5]
          · refine iff_of_false (fun hs => hok (RelationshipStateV1.fromDict_cases hs).1) fun hs => hok ?_
            split at hs
            · cases hs
            · split at hs
              · rename_i hall
                simp only [Option.bind_eq_bind, Option.bind_eq_some_iff] at hs
                obtain ⟨trust, h1, affection, h2, tension, h3, triggers, h4, time, h5, -⟩ := hs
                rw [hexact, hall]
                simp [h1, h2, h3, h4, h5]
              · cases hs
      | some t =>
          obtain ⟨hall, d, hd⟩ :=
            migrate_timestamp lawful_relationship hversion (by rw [hfree]; rfl)
          have hall' : data.all (PyKey.isOneOf legacyAllowedFields ·.1) = false := hall
          rw [hd, hall']
          refine iff_of_false (fun h => by cases h) fun hs => ?_
          split at hs
          · cases hs
          · split at hs
            · cases hs
            · cases hs

end Katherine.Checked
