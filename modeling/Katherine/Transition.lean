import Katherine.Presentation

/-!
# From one snapshot to the next

The legacy migrations both snapshots go through when a turn loads them, and the
relationship transition of `backend/relationship.py`. The floating-point part of the two
transitions is a parameter (`Dynamics`): nothing here depends on what numbers come out,
only on what else a transition does. It raises on a clock that went backwards, and it
hands the triggers on.
-/

namespace Katherine

open Py

/-! ## Migrations -/

/-- `_LEGACY_EXACT_FIELDS`. -/
def legacyExactFields : List PyStr :=
  [py "pleasure", py "arousal", py "dominance", py "libido", py "aggression", py "connection",
    py "energy", py "tension", py "coping_mode", py "last_update"]

/-- A document under its v1 names: `old` is renamed to `timestamp`, and the version is added. -/
def renameTimestamp (old : PyStr) (kvs : List (PyKey × PyVal)) : List (PyKey × PyVal) :=
  (.str (py "schema_version"), .int 1)
    :: kvs.map fun p => (if p.1 = .str old then .str (py "timestamp") else p.1, p.2)

/-- `migrate_legacy_snapshot`; `none` is an `EmotionalDomainError`. -/
def migrateLegacySnapshot (raw : List (PyKey × PyVal)) : Option EmotionalStateV1 :=
  if (dictGet raw (py "last_update")).isSome && (dictGet raw (py "timestamp")).isSome then none
  else
    match dictGet raw (py "schema_version") with
    | some version => do
        let _ ← requireSchemaVersion version
        EmotionalStateV1.fromDict raw
    | none =>
        if hasExactly legacyExactFields raw then
          EmotionalStateV1.fromDict (renameTimestamp (py "last_update") raw)
        else none

/-- `_LEGACY_ALLOWED_FIELDS`. -/
def legacyAllowedFields : List PyStr :=
  [py "user_id", py "bond_label", py "trust", py "affection", py "tension", py "triggers",
    py "last_interaction"]

/-- `migrate_legacy_relationship_snapshot`; `none` is a `RelationshipDomainError`. The identity
and the bond label of a legacy document are dropped. -/
def migrateLegacyRelationshipSnapshot (payload : List (PyKey × PyVal)) :
    Option RelationshipStateV1 :=
  if payload.isEmpty then none
  else if (dictGet payload (py "last_interaction")).isSome
      && (dictGet payload (py "timestamp")).isSome then none
  else
    match dictGet payload (py "schema_version") with
    | some version => do
        let _ ← requireSchemaVersion version
        RelationshipStateV1.fromDict payload
    | none =>
        if payload.all (PyKey.isOneOf legacyAllowedFields ·.1) then do
          let trust ← dictGet payload (py "trust")
          let affection ← dictGet payload (py "affection")
          let tension ← dictGet payload (py "tension")
          let triggers ← dictGet payload (py "triggers")
          let timestamp ← dictGet payload (py "last_interaction")
          RelationshipStateV1.fromDict
            [(.str (py "schema_version"), .int 1), (.str (py "trust"), trust),
              (.str (py "affection"), affection), (.str (py "tension"), tension),
              (.str (py "triggers"), triggers), (.str (py "timestamp"), timestamp)]
        else none

/-- A document with a fixed set of keys has no other key. -/
theorem dictGet_of_hasExactly {fields : List PyStr} {kvs : List (PyKey × PyVal)} {k : PyStr}
    (h : hasExactly fields kvs = true) (hk : k ∉ fields) : dictGet kvs k = none := by
  simp only [hasExactly, Bool.and_eq_true, List.all_eq_true] at h
  simp only [dictGet, Option.map_eq_none_iff, List.find?_eq_none]
  intro p hp he
  have := h.1 p hp
  rw [of_decide_eq_true he] at this
  simp only [PyKey.isOneOf, decide_eq_true_eq] at this
  exact hk this

theorem EmotionalStateV1.fromDict_cases {kvs : List (PyKey × PyVal)} {s : EmotionalStateV1}
    (h : fromDict kvs = some s) : hasExactly stateFields kvs = true ∧
      ∃ v, dictGet kvs (py "schema_version") = some v ∧ requireSchemaVersion v = some () := by
  unfold fromDict at h
  split at h
  · cases h
  · rename_i hexact
    simp only [Option.bind_eq_bind, Option.bind_eq_some_iff] at h
    obtain ⟨_, ⟨v, hv, hversion⟩, _⟩ := h
    exact ⟨by simpa using hexact, v, hv, hversion⟩

theorem RelationshipStateV1.fromDict_cases {kvs : List (PyKey × PyVal)} {s : RelationshipStateV1}
    (h : fromDict kvs = some s) : hasExactly relationshipFields kvs = true ∧
      ∃ v, dictGet kvs (py "schema_version") = some v ∧ requireSchemaVersion v = some () := by
  unfold fromDict at h
  split at h
  · cases h
  · rename_i hexact
    simp only [Option.bind_eq_bind, Option.bind_eq_some_iff] at h
    obtain ⟨_, ⟨v, hv, hversion⟩, _⟩ := h
    exact ⟨by simpa using hexact, v, hv, hversion⟩

theorem RelationshipStateV1.timestamp_of_fromDict {kvs : List (PyKey × PyVal)} {s : RelationshipStateV1} {v : PyVal}
    (h : fromDict kvs = some s) (hv : dictGet kvs (py "timestamp") = some v) :
    requirePositiveFloat v = some s.timestamp := by
  unfold fromDict at h
  split at h
  · cases h
  · simp only [Option.bind_eq_bind, Option.bind_eq_some_iff] at h
    obtain ⟨_, -, _, -, _, -, _, -, timestamp, ⟨v', hv', htime⟩, _, -, h⟩ := h
    cases h
    cases hv.symm.trans hv'
    exact htime

/-- The migration leaves a v1 document as it is. -/
theorem migrateLegacySnapshot_of_fromDict {kvs : List (PyKey × PyVal)} {s : EmotionalStateV1}
    (h : EmotionalStateV1.fromDict kvs = some s) : migrateLegacySnapshot kvs = some s := by
  obtain ⟨hexact, v, hv, hversion⟩ := EmotionalStateV1.fromDict_cases h
  have hlast := dictGet_of_hasExactly (k := py "last_update") hexact (by decide)
  simp only [migrateLegacySnapshot, hlast, hv, hversion, h]
  rfl

theorem migrateLegacyRelationshipSnapshot_of_fromDict {kvs : List (PyKey × PyVal)}
    {s : RelationshipStateV1} (h : RelationshipStateV1.fromDict kvs = some s) :
    migrateLegacyRelationshipSnapshot kvs = some s := by
  obtain ⟨hexact, v, hv, hversion⟩ := RelationshipStateV1.fromDict_cases h
  have hlast := dictGet_of_hasExactly (k := py "last_interaction") hexact (by decide)
  have hne : kvs.isEmpty = false := by
    cases kvs with
    | nil => cases hv
    | cons p ps => rfl
  simp only [migrateLegacyRelationshipSnapshot, hne, hlast, hv, hversion, h]
  rfl

/-! ## Transitions -/

/-- The floating-point part of both transitions, with their configurations. -/
structure Dynamics where
  /-- `transition`. -/
  emotion : EmotionalStateV1 → AppraisalV1 → PosFloat → EmotionalStateV1
  /-- The new trust, affection and tension of `transition_relationship`. -/
  metrics : RelationshipStateV1 → AppraisalV1 → Unipolar × Unipolar × Unipolar

/-- `transition_relationship`; `none` is the error for a clock regression. -/
def Dynamics.transitionRelationship (d : Dynamics) (previousState : RelationshipStateV1)
    (appraisal : AppraisalV1) (currentTime : PosFloat) : Option RelationshipStateV1 :=
  if currentTime.val.lt previousState.timestamp.val then none
  else
    let (trust, affection, tension) := d.metrics previousState appraisal
    some ⟨trust, affection, tension, previousState.triggers, currentTime⟩

/-- Triggers are preserved. -/
theorem Dynamics.transitionRelationship_triggers {d : Dynamics} {r r' : RelationshipStateV1}
    {a : AppraisalV1} {t : PosFloat} (h : d.transitionRelationship r a t = some r') :
    r'.triggers = r.triggers := by
  unfold transitionRelationship at h
  split at h
  · cases h
  · cases h
    rfl

end Katherine
