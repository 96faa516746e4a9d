import Katherine.Lib.Number
import Katherine.Lib.JsonSize

/-!
# The two snapshots of the companion

`EmotionalStateV1` and `RelationshipStateV1` as `backend/emotional_domain/models.py`
and `backend/relationship.py` define them. Both classes validate on every
construction path, so here the ranges are in the types and there is no invalid
instance to talk about.

`fromDict` is the reader every stored document goes through. It rejects unknown
keys, missing keys and values outside their range, and converts integers to
floats. `fromDict_canon_toDict` says that what `toDict` writes is read back, also
after the keys have been sorted on the way to the database.
-/

namespace Katherine

open Py

/-! ## Numbers in a range -/

/-- A finite float in `[lo, hi]`. -/
structure RangedFloat (lo hi : Int) where
  val : FiniteFloat
  ge : val.ltRatio lo 1 = false
  le : val.gtRatio hi 1 = false
deriving DecidableEq

theorem ge_of_bounds {lo hi : Int} {f : FiniteFloat} (h : f.ltRatio lo 1 = false ∧ f.gtRatio hi 1 = false) :
    f.ltRatio lo 1 = false := h.1

theorem le_of_bounds {lo hi : Int} {f : FiniteFloat} (h : f.ltRatio lo 1 = false ∧ f.gtRatio hi 1 = false) :
    f.gtRatio hi 1 = false := h.2

/-- The PAD axes. -/
abbrev Bipolar := RangedFloat (-1) 1

/-- Drives and relationship metrics. -/
abbrev Unipolar := RangedFloat 0 1

/-- A timestamp: finite and positive. -/
structure PosFloat where
  val : FiniteFloat
  pos : val.gtRatio 0 1 = true
deriving DecidableEq

/-- `_require_finite_float`: `float(value)` for an `int` or a finite `float`, no `bool`. -/
def requireFiniteFloat : PyVal → Option FiniteFloat
  | .int i => floatOfInt i
  | .float (.fin f) => some f
  | _ => none

/-- `_require_finite_float_in_range`. -/
def requireFiniteFloatInRange (lo hi : Int) (v : PyVal) : Option (RangedFloat lo hi) := do
  let f ← requireFiniteFloat v
  if h : f.ltRatio lo 1 = false ∧ f.gtRatio hi 1 = false then some ⟨f, h.1, h.2⟩ else none

/-- `_require_positive_float`. -/
def requirePositiveFloat (v : PyVal) : Option PosFloat := do
  let f ← requireFiniteFloat v
  if h : f.gtRatio 0 1 = true then some ⟨f, h⟩ else none

/-- `_require_schema_version`: the `int` 1, and not `True`. -/
def requireSchemaVersion : PyVal → Option Unit
  | .int i => if i = 1 then some () else none
  | _ => none

def RangedFloat.toVal {lo hi : Int} (x : RangedFloat lo hi) : PyVal := .float (.fin x.val)

def PosFloat.toVal (x : PosFloat) : PyVal := .float (.fin x.val)

@[simp] theorem requireFiniteFloatInRange_toVal {lo hi : Int} (x : RangedFloat lo hi) :
    requireFiniteFloatInRange lo hi x.toVal = some x := by
  simp [requireFiniteFloatInRange, RangedFloat.toVal, requireFiniteFloat, x.ge, x.le]

@[simp] theorem requirePositiveFloat_toVal (x : PosFloat) :
    requirePositiveFloat x.toVal = some x := by
  simp [requirePositiveFloat, PosFloat.toVal, requireFiniteFloat, x.pos]

/-! ## Documents with a fixed set of keys -/

def PyKey.isOneOf (fields : List PyStr) : PyKey → Bool
  | .str k => decide (k ∈ fields)
  | _ => false

/-- No unknown key and no missing one. -/
def hasExactly (fields : List PyStr) (kvs : List (PyKey × PyVal)) : Bool :=
  kvs.all (PyKey.isOneOf fields ·.1) && fields.all fun f => (dictGet kvs f).isSome

/-! ## The emotional state -/

/-- `VALID_COPING_MODES`. -/
inductive CopingMode
  | healthy
  | defensive
  | dissociated
  | manic
deriving DecidableEq

def CopingMode.text : CopingMode → PyStr
  | .healthy => py "HEALTHY"
  | .defensive => py "DEFENSIVE"
  | .dissociated => py "DISSOCIATED"
  | .manic => py "MANIC"

def CopingMode.ofVal : PyVal → Option CopingMode
  | .str s =>
      if s = py "HEALTHY" then some .healthy
      else if s = py "DEFENSIVE" then some .defensive
      else if s = py "DISSOCIATED" then some .dissociated
      else if s = py "MANIC" then some .manic
      else none
  | _ => none

@[simp] theorem CopingMode.ofVal_text (m : CopingMode) : ofVal (.str m.text) = some m := by
  cases m <;> decide

/-- `EmotionalStateV1`. Its `schema_version` is always 1. -/
structure EmotionalStateV1 where
  pleasure : Bipolar
  arousal : Bipolar
  dominance : Bipolar
  libido : Unipolar
  aggression : Unipolar
  connection : Unipolar
  energy : Unipolar
  tension : Unipolar
  copingMode : CopingMode
  timestamp : PosFloat
deriving DecidableEq

/-- `_STATE_FIELDS`. -/
def stateFields : List PyStr :=
  [py "pleasure", py "arousal", py "dominance", py "libido", py "aggression", py "connection",
    py "energy", py "tension", py "coping_mode", py "timestamp", py "schema_version"]

namespace EmotionalStateV1

/-- `EmotionalStateV1.from_dict`; `none` is an `EmotionalDomainError`. -/
def fromDict (kvs : List (PyKey × PyVal)) : Option EmotionalStateV1 :=
  if !hasExactly stateFields kvs then none
  else do
    let _ ← (dictGet kvs (py "schema_version")).bind requireSchemaVersion
    let pleasure ← (dictGet kvs (py "pleasure")).bind (requireFiniteFloatInRange (-1) 1)
    let arousal ← (dictGet kvs (py "arousal")).bind (requireFiniteFloatInRange (-1) 1)
    let dominance ← (dictGet kvs (py "dominance")).bind (requireFiniteFloatInRange (-1) 1)
    let libido ← (dictGet kvs (py "libido")).bind (requireFiniteFloatInRange 0 1)
    let aggression ← (dictGet kvs (py "aggression")).bind (requireFiniteFloatInRange 0 1)
    let connection ← (dictGet kvs (py "connection")).bind (requireFiniteFloatInRange 0 1)
    let energy ← (dictGet kvs (py "energy")).bind (requireFiniteFloatInRange 0 1)
    let tension ← (dictGet kvs (py "tension")).bind (requireFiniteFloatInRange 0 1)
    let copingMode ← (dictGet kvs (py "coping_mode")).bind CopingMode.ofVal
    let timestamp ← (dictGet kvs (py "timestamp")).bind requirePositiveFloat
    some { pleasure, arousal, dominance, libido, aggression, connection, energy, tension,
           copingMode, timestamp }

/-- `to_dict`. -/
def toDict (s : EmotionalStateV1) : List (PyKey × PyVal) :=
  [(.str (py "schema_version"), .int 1),
   (.str (py "pleasure"), s.pleasure.toVal),
   (.str (py "arousal"), s.arousal.toVal),
   (.str (py "dominance"), s.dominance.toVal),
   (.str (py "libido"), s.libido.toVal),
   (.str (py "aggression"), s.aggression.toVal),
   (.str (py "connection"), s.connection.toVal),
   (.str (py "energy"), s.energy.toVal),
   (.str (py "tension"), s.tension.toVal),
   (.str (py "coping_mode"), .str s.copingMode.text),
   (.str (py "timestamp"), s.timestamp.toVal)]

end EmotionalStateV1

/-- The float literals of the neutral snapshots. -/
theorem isFloatRepr_zero : isFloatRepr (py "0.0") = true := by decide

theorem isFloatRepr_one : isFloatRepr (py "1.0") = true := by decide

def float00 : Unipolar := ⟨⟨py "0.0", isFloatRepr_zero⟩, by decide, by decide⟩
def float03 : Unipolar := ⟨⟨py "0.3", by decide⟩, by decide, by decide⟩
def float05 : Unipolar := ⟨⟨py "0.5", by decide⟩, by decide, by decide⟩
def float08 : Unipolar := ⟨⟨py "0.8", by decide⟩, by decide, by decide⟩

/-- `0.0` on a PAD axis. -/
def bipolarZero : Bipolar := ⟨⟨py "0.0", by decide⟩, by decide, by decide⟩

/-- `EmotionalStateV1.neutral`. -/
def EmotionalStateV1.neutral (timestamp : PosFloat) : EmotionalStateV1 where
  pleasure := bipolarZero
  arousal := bipolarZero
  dominance := bipolarZero
  libido := float00
  aggression := float00
  connection := float05
  energy := float08
  tension := float00
  copingMode := .healthy
  timestamp := timestamp

/-! ## The relationship state -/

/-- What `_validate_triggers` returns. -/
structure Triggers where
  items : List PyStr
  count : items.length ≤ 32
  each : ∀ t ∈ items, strip t = t ∧ t ≠ [] ∧ t.length ≤ 128
  nodup : items.Nodup
deriving DecidableEq

def Triggers.empty : Triggers := ⟨[], by simp, by simp, by simp⟩

/-- One trigger, trimmed. -/
def triggerText : PyVal → Option PyStr
  | .str s => if strip s ≠ [] ∧ (strip s).length ≤ 128 then some (strip s) else none
  | _ => none

/-- Keep the first occurrence of each item. -/
def dedup : List PyStr → List PyStr
  | [] => []
  | x :: xs => x :: (dedup xs).filter (· ≠ x)

theorem dedup_sublist : ∀ xs : List PyStr, (dedup xs).Sublist xs
  | [] => .slnil
  | _ :: xs => .cons_cons _ (List.filter_sublist.trans (dedup_sublist xs))

theorem dedup_nodup : ∀ xs : List PyStr, (dedup xs).Nodup
  | [] => .nil
  | x :: xs => by
      rw [dedup, List.nodup_cons]
      exact ⟨by simp, (dedup_nodup xs).filter _⟩

theorem dedup_of_nodup : ∀ {xs : List PyStr}, xs.Nodup → dedup xs = xs
  | [], _ => rfl
  | x :: xs, h => by
      obtain ⟨hx, hxs⟩ := List.nodup_cons.mp h
      rw [dedup, dedup_of_nodup hxs, List.filter_eq_self.mpr]
      intro y hy
      simpa using fun e : y = x => hx (e ▸ hy)

/-- `isinstance(raw, (list, tuple))`; the elements. -/
def PyVal.elems? : PyVal → Option (List PyVal)
  | .list xs => some xs
  | .tuple xs => some xs
  | _ => none

/-- Trimmed texts with the duplicates dropped. -/
def Triggers.ofTexts (ts : List PyStr) : Option Triggers :=
  if h : ts.length ≤ 32 ∧ ∀ t ∈ ts, strip t = t ∧ t ≠ [] ∧ t.length ≤ 128 then
    some { items := dedup ts
           count := (dedup_sublist ts).length_le.trans h.1
           each := fun t ht => h.2 t ((dedup_sublist ts).subset ht)
           nodup := dedup_nodup ts }
  else none

/-- `_validate_triggers`; the limit of 32 applies before duplicates are dropped. -/
def validateTriggers (raw : PyVal) : Option Triggers := do
  let xs ← PyVal.elems? raw
  if 32 < xs.length then none
  else (← xs.mapM triggerText) |> Triggers.ofTexts

/-- `RelationshipStateV1`. Its `schema_version` is always 1. -/
structure RelationshipStateV1 where
  trust : Unipolar
  affection : Unipolar
  tension : Unipolar
  triggers : Triggers
  timestamp : PosFloat
deriving DecidableEq

/-- `_RELATIONSHIP_FIELDS`. -/
def relationshipFields : List PyStr :=
  [py "trust", py "affection", py "tension", py "triggers", py "timestamp", py "schema_version"]

namespace RelationshipStateV1

/-- `RelationshipStateV1.from_dict`; `none` is a `RelationshipDomainError`. -/
def fromDict (kvs : List (PyKey × PyVal)) : Option RelationshipStateV1 :=
  if !hasExactly relationshipFields kvs then none
  else do
    let _ ← (dictGet kvs (py "schema_version")).bind requireSchemaVersion
    let trust ← (dictGet kvs (py "trust")).bind (requireFiniteFloatInRange 0 1)
    let affection ← (dictGet kvs (py "affection")).bind (requireFiniteFloatInRange 0 1)
    let tension ← (dictGet kvs (py "tension")).bind (requireFiniteFloatInRange 0 1)
    let timestamp ← (dictGet kvs (py "timestamp")).bind requirePositiveFloat
    let triggers ← (dictGet kvs (py "triggers")).bind validateTriggers
    some { trust, affection, tension, triggers, timestamp }

/-- `to_dict`. -/
def toDict (s : RelationshipStateV1) : List (PyKey × PyVal) :=
  [(.str (py "schema_version"), .int 1),
   (.str (py "trust"), s.trust.toVal),
   (.str (py "affection"), s.affection.toVal),
   (.str (py "tension"), s.tension.toVal),
   (.str (py "triggers"), .list (s.triggers.items.map .str)),
   (.str (py "timestamp"), s.timestamp.toVal)]

/-- `RelationshipStateV1.neutral`. -/
def neutral (timestamp : PosFloat) : RelationshipStateV1 where
  trust := float05
  affection := float03
  tension := float00
  triggers := .empty
  timestamp := timestamp

end RelationshipStateV1

/-! ## What is written is read back -/

theorem triggerText_of_trimmed {t : PyStr} (h : strip t = t ∧ t ≠ [] ∧ t.length ≤ 128) :
    triggerText (.str t) = some t := by
  simp [triggerText, h.1, h.2.1, h.2.2]

theorem mapM_triggerText : ∀ {ts : List PyStr},
    (∀ t ∈ ts, strip t = t ∧ t ≠ [] ∧ t.length ≤ 128) →
    (ts.map PyVal.str).mapM triggerText = some ts
  | [], _ => rfl
  | t :: ts, h => by
      rw [List.map_cons, List.mapM_cons, triggerText_of_trimmed (h t (by simp)),
        mapM_triggerText fun u hu => h u (by simp [hu])]
      rfl

@[simp] theorem validateTriggers_items (t : Triggers) :
    validateTriggers (.list (t.items.map .str)) = some t := by
  have hlen : ¬ 32 < t.items.length := Nat.not_lt.mpr t.count
  simp only [validateTriggers, PyVal.elems?, Option.bind_eq_bind, Option.bind_some, List.length_map,
    hlen, if_false, mapM_triggerText t.each, Triggers.ofTexts, t.count, true_and]
  rw [dif_pos t.each]
  simp only [dedup_of_nodup t.nodup]

theorem requireFiniteFloat_canon (v : PyVal) : requireFiniteFloat v.canon = requireFiniteFloat v := by
  cases v <;> rfl

theorem requireSchemaVersion_canon (v : PyVal) :
    requireSchemaVersion v.canon = requireSchemaVersion v := by
  cases v <;> rfl

theorem CopingMode.ofVal_canon (v : PyVal) : ofVal v.canon = ofVal v := by
  cases v <;> rfl

theorem triggerText_canon (v : PyVal) : triggerText v.canon = triggerText v := by
  cases v <;> rfl

theorem canonElems_eq_map (xs : List PyVal) : canonElems xs = xs.map PyVal.canon := by
  induction xs with
  | nil => rfl
  | cons x xs ih =>
      rw [canonElems, ih]
      rfl

theorem mapM_triggerText_canon (xs : List PyVal) :
    (canonElems xs).mapM triggerText = xs.mapM triggerText := by
  induction xs with
  | nil => rfl
  | cons x xs ih => rw [canonElems, List.mapM_cons, List.mapM_cons, ih, triggerText_canon]

theorem validateTriggers_canon (v : PyVal) : validateTriggers v.canon = validateTriggers v := by
  have hlist : ∀ xs : List PyVal,
      validateTriggers (.list (canonElems xs)) = validateTriggers (.list xs) := by
    intro xs
    have hlen : (canonElems xs).length = xs.length := by rw [canonElems_eq_map, List.length_map]
    simp only [validateTriggers, PyVal.elems?, Option.bind_eq_bind, Option.bind_some, hlen,
      mapM_triggerText_canon]
  cases v with
  | list xs => rw [PyVal.canon]; exact hlist xs
  | tuple xs => rw [PyVal.canon]; exact hlist xs
  | _ => rfl

/-- Rewriting a value by `g` changes nothing that a reader of snapshots looks at. -/
structure Unread (g : PyVal → PyVal) : Prop where
  number : ∀ v, requireFiniteFloat (g v) = requireFiniteFloat v
  version : ∀ v, requireSchemaVersion (g v) = requireSchemaVersion v
  mode : ∀ v, CopingMode.ofVal (g v) = CopingMode.ofVal v
  triggers : ∀ v, validateTriggers (g v) = validateTriggers v

theorem unread_canon : Unread PyVal.canon where
  number := requireFiniteFloat_canon
  version := requireSchemaVersion_canon
  mode := CopingMode.ofVal_canon
  triggers := validateTriggers_canon

/-- `kvs'` has the keys of `kvs`, in any order, with the values rewritten by `g`. -/
structure ReadsAs (g : PyVal → PyVal) (kvs kvs' : List (PyKey × PyVal)) : Prop where
  keys : (kvs'.map Prod.fst).Perm (kvs.map Prod.fst)
  get : ∀ k, dictGet kvs' k = (dictGet kvs k).map g

section

variable {g : PyVal → PyVal} {kvs kvs' : List (PyKey × PyVal)}

theorem ReadsAs.bind_get {α : Type} (h : ReadsAs g kvs kvs') {f : PyVal → Option α}
    (hf : ∀ v, f (g v) = f v) (k : PyStr) : (dictGet kvs' k).bind f = (dictGet kvs k).bind f := by
  rw [h.get]
  cases dictGet kvs k with
  | none => rfl
  | some v => exact hf v

theorem ReadsAs.hasExactly (h : ReadsAs g kvs kvs') (fields : List PyStr) :
    hasExactly fields kvs' = hasExactly fields kvs := by
  have hall : ∀ l : List (PyKey × PyVal), l.all (PyKey.isOneOf fields ·.1) =
      (l.map Prod.fst).all (PyKey.isOneOf fields) := by
    intro l
    rw [List.all_map]
    rfl
  unfold Katherine.hasExactly
  congr 1
  · rw [hall, hall, h.keys.all_eq]
  · simp only [h.get, Option.isSome_map]

theorem Unread.ranged (hg : Unread g) (lo hi : Int) (v : PyVal) :
    requireFiniteFloatInRange lo hi (g v) = requireFiniteFloatInRange lo hi v := by
  simp only [requireFiniteFloatInRange, hg.number]

theorem Unread.positive (hg : Unread g) (v : PyVal) :
    requirePositiveFloat (g v) = requirePositiveFloat v := by
  simp only [requirePositiveFloat, hg.number]

/-- **A reader finds the same state in both documents.** -/
theorem EmotionalStateV1.fromDict_reads (hg : Unread g) (h : ReadsAs g kvs kvs') :
    fromDict kvs' = fromDict kvs := by
  simp only [fromDict, h.hasExactly, h.bind_get hg.version, h.bind_get (hg.ranged _ _),
    h.bind_get hg.mode, h.bind_get hg.positive]

theorem RelationshipStateV1.fromDict_reads (hg : Unread g) (h : ReadsAs g kvs kvs') :
    fromDict kvs' = fromDict kvs := by
  simp only [fromDict, h.hasExactly, h.bind_get hg.version, h.bind_get (hg.ranged _ _),
    h.bind_get hg.triggers, h.bind_get hg.positive]

end

/-- Sorting the keys of a document changes no field a reader takes from it. -/
theorem readsAs_canon {kvs : List (PyKey × PyVal)} (h : isJsonItems kvs = true) :
    ReadsAs PyVal.canon kvs (sortItems (canonItems kvs)) where
  keys := by
    have hperm := (sortItems_perm (canonItems kvs)).map Prod.fst
    rwa [isStr_canonItems] at hperm
  get := dictGet_canon h

theorem EmotionalStateV1.fromDict_canon {kvs : List (PyKey × PyVal)} (h : isJsonItems kvs = true) :
    fromDict (sortItems (canonItems kvs)) = fromDict kvs :=
  fromDict_reads unread_canon (readsAs_canon h)

theorem RelationshipStateV1.fromDict_canon {kvs : List (PyKey × PyVal)}
    (h : isJsonItems kvs = true) : fromDict (sortItems (canonItems kvs)) = fromDict kvs :=
  fromDict_reads unread_canon (readsAs_canon h)

theorem EmotionalStateV1.isJson_toDict (s : EmotionalStateV1) : isJsonItems s.toDict = true := rfl

theorem isJsonElems_strs : ∀ ts : List PyStr, isJsonElems (ts.map .str) = true
  | [] => rfl
  | t :: ts => by rw [List.map_cons, isJsonElems, isJsonElems_strs ts]; rfl

theorem RelationshipStateV1.isJson_toDict (s : RelationshipStateV1) :
    isJsonItems s.toDict = true := by
  simp only [toDict, isJsonItems, isJson, isJsonElems_strs, RangedFloat.toVal, PosFloat.toVal]
  rfl

/-- **A written emotional snapshot is read back as it was.** -/
theorem EmotionalStateV1.fromDict_canon_toDict (s : EmotionalStateV1) :
    fromDict (sortItems (canonItems s.toDict)) = some s := by
  rw [fromDict_canon s.isJson_toDict]
  have hkeys : hasExactly stateFields s.toDict = true := rfl
  have hget : ∀ {α : Type} (f : PyVal → Option α) {k : PyStr} {v : PyVal},
      dictGet s.toDict k = some v → (dictGet s.toDict k).bind f = f v := by
    intro α f k v hk
    rw [hk]
    rfl
  rw [fromDict, hkeys, hget _ (v := .int 1) rfl, hget _ (v := s.pleasure.toVal) rfl,
    hget _ (v := s.arousal.toVal) rfl, hget _ (v := s.dominance.toVal) rfl,
    hget _ (v := s.libido.toVal) rfl, hget _ (v := s.aggression.toVal) rfl,
    hget _ (v := s.connection.toVal) rfl, hget _ (v := s.energy.toVal) rfl,
    hget _ (v := s.tension.toVal) rfl, hget _ (v := .str s.copingMode.text) rfl,
    hget _ (v := s.timestamp.toVal) rfl]
  simp [requireSchemaVersion]

/-- **A written relationship snapshot is read back as it was.** -/
theorem RelationshipStateV1.fromDict_canon_toDict (s : RelationshipStateV1) :
    fromDict (sortItems (canonItems s.toDict)) = some s := by
  rw [fromDict_canon s.isJson_toDict]
  have hkeys : hasExactly relationshipFields s.toDict = true := rfl
  have hget : ∀ {α : Type} (f : PyVal → Option α) {k : PyStr} {v : PyVal},
      dictGet s.toDict k = some v → (dictGet s.toDict k).bind f = f v := by
    intro α f k v hk
    rw [hk]
    rfl
  rw [fromDict, hkeys, hget _ (v := .int 1) rfl, hget _ (v := s.trust.toVal) rfl,
    hget _ (v := s.affection.toVal) rfl, hget _ (v := s.tension.toVal) rfl,
    hget _ (v := s.timestamp.toVal) rfl, hget _ (v := .list (s.triggers.items.map .str)) rfl]
  simp [requireSchemaVersion]

/-! ## How large a snapshot is -/

section Size

/- A weight, with a bound for keys and one for the values a snapshot can have. -/
variable {w : CodePoint → Nat} {k b : Nat}
  (hfloat : ∀ f : FiniteFloat, weighJson w (.float (.fin f)) ≤ b)
  (hone : weighJson w (.int 1) ≤ b)

include hfloat hone

theorem EmotionalStateV1.weighItems_toDict (s : EmotionalStateV1)
    (hkeys : ∀ f ∈ stateFields, weigh w (quote f) ≤ k)
    (hmode : ∀ m : CopingMode, weighJson w (.str m.text) ≤ b) :
    weighItems w s.toDict ≤ 11 * (k + w (cp ':') + b) := by
  refine weighItems_le fun p hp => ⟨?_, ?_⟩
  · simp only [toDict, List.mem_cons, List.not_mem_nil, or_false] at hp
    rcases hp with rfl | rfl | rfl | rfl | rfl | rfl | rfl | rfl | rfl | rfl | rfl <;>
      exact hkeys _ (by simp only [stateFields, keyText, List.mem_cons, true_or, or_true])
  · simp only [toDict, List.mem_cons, List.not_mem_nil, or_false] at hp
    rcases hp with rfl | rfl | rfl | rfl | rfl | rfl | rfl | rfl | rfl | rfl | rfl
    · exact hone
    all_goals first
      | exact hfloat _
      | exact hmode _

theorem RelationshipStateV1.weighItems_toDict {s : RelationshipStateV1} (hs : s.triggers.items = [])
    (hkeys : ∀ f ∈ relationshipFields, weigh w (quote f) ≤ k)
    (hlist : weighJson w (.list []) ≤ b) :
    weighItems w s.toDict ≤ 6 * (k + w (cp ':') + b) := by
  refine weighItems_le fun p hp => ⟨?_, ?_⟩
  · simp only [toDict, List.mem_cons, List.not_mem_nil, or_false] at hp
    rcases hp with rfl | rfl | rfl | rfl | rfl | rfl <;>
      exact hkeys _ (by simp only [relationshipFields, keyText, List.mem_cons, true_or, or_true])
  · simp only [toDict, hs, List.map_nil, List.mem_cons, List.not_mem_nil, or_false] at hp
    rcases hp with rfl | rfl | rfl | rfl | rfl | rfl
    · exact hone
    all_goals first
      | exact hfloat _
      | exact hlist

end Size

theorem EmotionalStateV1.jsonBytes_toDict (s : EmotionalStateV1) :
    jsonBytes (.dict s.toDict) ≤ 1400 := by
  have hitems := s.weighItems_toDict (k := 20) jsonBytes_float (by decide) (by decide)
    fun m => by cases m <;> decide
  have hascii : utf8Size (cp '{') = 1 ∧ utf8Size (cp '}') = 1 ∧ utf8Size (cp ',') = 1 ∧
      utf8Size (cp ':') = 1 := by decide
  have hlength : s.toDict.length = 11 := rfl
  rw [jsonBytes, weighJson, hlength]
  omega

theorem RelationshipStateV1.jsonBytes_toDict {s : RelationshipStateV1} (hs : s.triggers.items = []) :
    jsonBytes (.dict s.toDict) ≤ 1400 := by
  have hitems := weighItems_toDict (k := 20) jsonBytes_float (by decide) hs (by decide) (by decide)
  have hascii : utf8Size (cp '{') = 1 ∧ utf8Size (cp '}') = 1 ∧ utf8Size (cp ',') = 1 ∧
      utf8Size (cp ':') = 1 := by decide
  have hlength : s.toDict.length = 6 := rfl
  rw [jsonBytes, weighJson, hlength]
  omega

theorem EmotionalStateV1.surrogates_toDict (s : EmotionalStateV1) :
    weighJson surrogateWeight (.dict s.toDict) = 0 := by
  have hitems := s.weighItems_toDict (k := 0) (fun f => (surrogates_float f).le) (by decide)
    (by decide) fun m => by cases m <;> decide
  have hascii : surrogateWeight (cp '{') = 0 ∧ surrogateWeight (cp '}') = 0 ∧
      surrogateWeight (cp ',') = 0 ∧ surrogateWeight (cp ':') = 0 := by decide
  rw [weighJson, hascii.1, hascii.2.1, hascii.2.2.1]
  omega

theorem RelationshipStateV1.surrogates_toDict (s : RelationshipStateV1) :
    weighJson surrogateWeight (.dict s.toDict) = 0 ↔ ∀ t ∈ s.triggers.items, encodable t = true := by
  have hfloat : ∀ f : FiniteFloat, weigh surrogateWeight (floatText (.fin f)) = 0 := surrogates_float
  have hmarks : surrogateWeight (cp '{') = 0 ∧ surrogateWeight (cp '}') = 0 ∧ surrogateWeight (cp ',') = 0 ∧
      surrogateWeight (cp ':') = 0 ∧ surrogateWeight (cp '[') = 0 ∧ surrogateWeight (cp ']') = 0 := by decide
  have hkeys : ∀ t : String, weigh surrogateWeight (quote (py t)) = 0 :=
    fun t => (surrogates_quote _).mpr (encodable_py t)
  have hone : weigh surrogateWeight (intText 1) = 0 := by decide
  simp only [toDict, weighJson, weighItems, keyText, RangedFloat.toVal, PosFloat.toVal,
    hfloat, hmarks, hkeys, hone, Nat.mul_zero, Nat.add_zero, Nat.zero_add]
  exact surrogates_strs _

end Katherine
