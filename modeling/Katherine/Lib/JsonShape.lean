import Katherine.Lib.JsonSize

/-!
# Properties that hold throughout a document

`everywhere leaf keys v` asks something of every scalar of a document and of the key list
of every dictionary, at any depth. Such a property survives sorting the keys if it does
not look at their order, and it survives writing and reading if it survives turning the
keys into strings and losing some of them: a key that is written twice is read once.
-/

namespace Py

/-! ## Everywhere -/

section

variable (leaf : PyVal → Bool) (keys : List PyKey → Bool)

mutual
/-- `leaf` holds of every scalar, and `keys` of the keys of every dictionary. -/
def everywhere : PyVal → Bool
  | .list xs => everywhereElems xs
  | .tuple xs => everywhereElems xs
  | .dict kvs => keys (kvs.map Prod.fst) && everywhereItems kvs
  | v => leaf v
def everywhereElems : List PyVal → Bool
  | [] => true
  | x :: xs => everywhere x && everywhereElems xs
def everywhereItems : List (PyKey × PyVal) → Bool
  | [] => true
  | (_, v) :: kvs => everywhere v && everywhereItems kvs
end

end

variable {leaf : PyVal → Bool} {keys : List PyKey → Bool}

theorem everywhereItems_iff {kvs : List (PyKey × PyVal)} :
    everywhereItems leaf keys kvs = true ↔ ∀ p ∈ kvs, everywhere leaf keys p.2 = true := by
  induction kvs with
  | nil => simp [everywhereItems]
  | cons p kvs ih => simp only [everywhereItems, Bool.and_eq_true, ih, List.forall_mem_cons]

theorem everywhereElems_iff {xs : List PyVal} :
    everywhereElems leaf keys xs = true ↔ ∀ x ∈ xs, everywhere leaf keys x = true := by
  induction xs with
  | nil => simp [everywhereElems]
  | cons x xs ih => simp only [everywhereElems, Bool.and_eq_true, ih, List.forall_mem_cons]

mutual
/-- Sorting the keys changes nothing for what does not look at their order. -/
theorem everywhere_canon (hperm : ∀ ks ks', List.Perm ks ks' → keys ks = true → keys ks' = true) :
    ∀ {v : PyVal}, everywhere leaf keys v = true → everywhere leaf keys v.canon = true
  | .none, h => h
  | .bool _, h => h
  | .int _, h => h
  | .float _, h => h
  | .str _, h => h
  | .obj, h => h
  | .list xs, h => everywhereElems_canon hperm h
  | .tuple xs, h => everywhereElems_canon hperm h
  | .dict kvs, h => by
      simp only [everywhere, Bool.and_eq_true] at h
      have hp := sortItems_perm (canonItems kvs)
      simp only [PyVal.canon, everywhere, Bool.and_eq_true]
      refine ⟨hperm _ _ ?_ h.1, everywhereItems_iff.mpr ?_⟩
      · have hperm := (hp.map Prod.fst).symm
        rwa [isStr_canonItems] at hperm
      · intro p hmem
        exact everywhereItems_iff.mp (everywhereItems_canon hperm h.2) p (hp.mem_iff.mp hmem)
theorem everywhereElems_canon (hperm : ∀ ks ks', List.Perm ks ks' → keys ks = true → keys ks' = true) :
    ∀ {xs : List PyVal}, everywhereElems leaf keys xs = true →
      everywhereElems leaf keys (canonElems xs) = true
  | [], _ => rfl
  | x :: xs, h => by
      simp only [everywhereElems, Bool.and_eq_true] at h
      simp only [canonElems, everywhereElems, Bool.and_eq_true]
      exact ⟨everywhere_canon hperm h.1, everywhereElems_canon hperm h.2⟩
theorem everywhereItems_canon (hperm : ∀ ks ks', List.Perm ks ks' → keys ks = true → keys ks' = true) :
    ∀ {kvs : List (PyKey × PyVal)}, everywhereItems leaf keys kvs = true →
      everywhereItems leaf keys (canonItems kvs) = true
  | [], _ => rfl
  | (k, v) :: kvs, h => by
      simp only [everywhereItems, Bool.and_eq_true] at h
      simp only [canonItems, everywhereItems, Bool.and_eq_true]
      exact ⟨everywhere_canon hperm h.1, everywhereItems_canon hperm h.2⟩
end

/-! ## Reading back -/

theorem mem_dictOfItems : ∀ {l : List (PyStr × PyVal)} {p : PyKey × PyVal},
    p ∈ dictOfItems l → ∃ q ∈ l, p = (.str q.1, q.2)
  | [], _, h => by cases h
  | (k, v) :: l, p, h => by
      rw [dictOfItems] at h
      split at h
      · obtain ⟨q, hq, rfl⟩ := mem_dictOfItems h
        exact ⟨q, List.mem_cons_of_mem _ hq, rfl⟩
      · rcases List.mem_cons.mp h with rfl | h
        · exact ⟨(k, v), List.mem_cons_self, rfl⟩
        · obtain ⟨q, hq, rfl⟩ := mem_dictOfItems h
          exact ⟨q, List.mem_cons_of_mem _ hq, rfl⟩

/-- Of distinct keys none is lost. -/
theorem dictOfItems_of_nodup : ∀ {l : List (PyStr × PyVal)}, (l.map Prod.fst).Nodup →
    dictOfItems l = l.map fun q => (.str q.1, q.2)
  | [], _ => rfl
  | (k, v) :: l, h => by
      rw [List.map_cons, List.nodup_cons] at h
      have hany : l.any (·.1 = k) = false := by
        rw [Bool.eq_false_iff]
        intro ha
        obtain ⟨q, hq, hk⟩ := List.any_eq_true.mp ha
        exact h.1 (List.mem_map.mpr ⟨q, hq, of_decide_eq_true hk⟩)
      rw [dictOfItems, hany, dictOfItems_of_nodup h.2]
      rfl

theorem decodedItems_eq_map (kvs : List (PyKey × PyVal)) :
    decodedItems kvs = kvs.map fun p => (keyText p.1, p.2.decoded) := by
  induction kvs with
  | nil => rfl
  | cons p kvs ih =>
      rw [decodedItems, ih]
      rfl

/-- Every key that is read was written. -/
theorem keys_decoded {kvs : List (PyKey × PyVal)} {k : PyKey}
    (h : k ∈ (dictOfItems (decodedItems kvs)).map Prod.fst) :
    ∃ k' ∈ kvs.map Prod.fst, k = .str (keyText k') := by
  obtain ⟨p, hp, rfl⟩ := List.mem_map.mp h
  obtain ⟨q, hq, rfl⟩ := mem_dictOfItems hp
  rw [decodedItems_eq_map] at hq
  obtain ⟨p', hp', rfl⟩ := List.mem_map.mp hq
  exact ⟨p'.1, List.mem_map_of_mem hp', rfl⟩

mutual
/-- What holds of the strings that the keys are written as holds of what is read back. -/
theorem everywhere_decoded {keys' : List PyKey → Bool}
    (hkeys : ∀ ks ks', keys ks = true → (∀ k ∈ ks', ∃ k' ∈ ks, k = .str (keyText k')) →
      keys' ks' = true) :
    ∀ {v : PyVal}, everywhere leaf keys v = true → everywhere leaf keys' v.decoded = true
  | .none, h => h
  | .bool _, h => h
  | .int _, h => h
  | .float _, h => h
  | .str _, h => h
  | .obj, h => h
  | .list xs, h => everywhereElems_decoded hkeys h
  | .tuple xs, h => everywhereElems_decoded hkeys h
  | .dict kvs, h => by
      simp only [everywhere, Bool.and_eq_true] at h
      simp only [PyVal.decoded, everywhere, Bool.and_eq_true]
      refine ⟨hkeys _ _ h.1 fun k hk => keys_decoded hk, everywhereItems_iff.mpr ?_⟩
      intro p hp
      obtain ⟨q, hq, rfl⟩ := mem_dictOfItems hp
      exact everywhereItems_decoded hkeys h.2 q hq
theorem everywhereElems_decoded {keys' : List PyKey → Bool}
    (hkeys : ∀ ks ks', keys ks = true → (∀ k ∈ ks', ∃ k' ∈ ks, k = .str (keyText k')) →
      keys' ks' = true) :
    ∀ {xs : List PyVal}, everywhereElems leaf keys xs = true →
      everywhereElems leaf keys' (decodedElems xs) = true
  | [], _ => rfl
  | x :: xs, h => by
      simp only [everywhereElems, Bool.and_eq_true] at h
      simp only [decodedElems, everywhereElems, Bool.and_eq_true]
      exact ⟨everywhere_decoded hkeys h.1, everywhereElems_decoded hkeys h.2⟩
theorem everywhereItems_decoded {keys' : List PyKey → Bool}
    (hkeys : ∀ ks ks', keys ks = true → (∀ k ∈ ks', ∃ k' ∈ ks, k = .str (keyText k')) →
      keys' ks' = true) :
    ∀ {kvs : List (PyKey × PyVal)}, everywhereItems leaf keys kvs = true →
      ∀ q ∈ decodedItems kvs, everywhere leaf keys' q.2 = true
  | [], _, q, hq => by cases hq
  | (k, v) :: kvs, h, q, hq => by
      simp only [everywhereItems, Bool.and_eq_true] at h
      rcases List.mem_cons.mp hq with rfl | hq
      · exact everywhere_decoded hkeys h.1
      · exact everywhereItems_decoded hkeys h.2 q hq
end

mutual
theorem everywhere_and {leaf' : PyVal → Bool} {keys' : List PyKey → Bool} : ∀ {v : PyVal},
    everywhere leaf keys v = true → everywhere leaf' keys' v = true →
      everywhere (fun x => leaf x && leaf' x) (fun ks => keys ks && keys' ks) v = true
  | .none, h, h' => Bool.and_eq_true_iff.mpr ⟨h, h'⟩
  | .bool _, h, h' => Bool.and_eq_true_iff.mpr ⟨h, h'⟩
  | .int _, h, h' => Bool.and_eq_true_iff.mpr ⟨h, h'⟩
  | .float _, h, h' => Bool.and_eq_true_iff.mpr ⟨h, h'⟩
  | .str _, h, h' => Bool.and_eq_true_iff.mpr ⟨h, h'⟩
  | .obj, h, h' => Bool.and_eq_true_iff.mpr ⟨h, h'⟩
  | .list xs, h, h' => everywhereElems_and h h'
  | .tuple xs, h, h' => everywhereElems_and h h'
  | .dict kvs, h, h' => by
      simp only [everywhere, Bool.and_eq_true] at h h' ⊢
      exact ⟨⟨h.1, h'.1⟩, everywhereItems_and h.2 h'.2⟩
theorem everywhereElems_and {leaf' : PyVal → Bool} {keys' : List PyKey → Bool} :
    ∀ {xs : List PyVal}, everywhereElems leaf keys xs = true → everywhereElems leaf' keys' xs = true →
      everywhereElems (fun x => leaf x && leaf' x) (fun ks => keys ks && keys' ks) xs = true
  | [], _, _ => rfl
  | x :: xs, h, h' => by
      simp only [everywhereElems, Bool.and_eq_true] at h h' ⊢
      exact ⟨everywhere_and h.1 h'.1, everywhereElems_and h.2 h'.2⟩
theorem everywhereItems_and {leaf' : PyVal → Bool} {keys' : List PyKey → Bool} :
    ∀ {kvs : List (PyKey × PyVal)}, everywhereItems leaf keys kvs = true →
      everywhereItems leaf' keys' kvs = true →
      everywhereItems (fun x => leaf x && leaf' x) (fun ks => keys ks && keys' ks) kvs = true
  | [], _, _ => rfl
  | (k, v) :: kvs, h, h' => by
      simp only [everywhereItems, Bool.and_eq_true] at h h' ⊢
      exact ⟨everywhere_and h.1 h'.1, everywhereItems_and h.2 h'.2⟩
end

mutual
/-- What asks less of leaves holds everywhere too. -/
theorem everywhere_mono {leaf' : PyVal → Bool} (hleaf : ∀ v, leaf v = true → leaf' v = true) :
    ∀ {v : PyVal}, everywhere leaf keys v = true → everywhere leaf' keys v = true
  | .none, h => hleaf _ h
  | .bool _, h => hleaf _ h
  | .int _, h => hleaf _ h
  | .float _, h => hleaf _ h
  | .str _, h => hleaf _ h
  | .obj, h => hleaf _ h
  | .list xs, h => everywhereElems_mono hleaf h
  | .tuple xs, h => everywhereElems_mono hleaf h
  | .dict kvs, h => by
      simp only [everywhere, Bool.and_eq_true] at h ⊢
      exact ⟨h.1, everywhereItems_mono hleaf h.2⟩
theorem everywhereElems_mono {leaf' : PyVal → Bool} (hleaf : ∀ v, leaf v = true → leaf' v = true) :
    ∀ {xs : List PyVal}, everywhereElems leaf keys xs = true → everywhereElems leaf' keys xs = true
  | [], _ => rfl
  | x :: xs, h => by
      simp only [everywhereElems, Bool.and_eq_true] at h ⊢
      exact ⟨everywhere_mono hleaf h.1, everywhereElems_mono hleaf h.2⟩
theorem everywhereItems_mono {leaf' : PyVal → Bool} (hleaf : ∀ v, leaf v = true → leaf' v = true) :
    ∀ {kvs : List (PyKey × PyVal)}, everywhereItems leaf keys kvs = true →
      everywhereItems leaf' keys kvs = true
  | [], _ => rfl
  | (k, v) :: kvs, h => by
      simp only [everywhereItems, Bool.and_eq_true] at h ⊢
      exact ⟨everywhere_mono hleaf h.1, everywhereItems_mono hleaf h.2⟩
end

/-! ## What Python can hold -/

/-- How an `int`, `float` or `bool` is written as a key. -/
def isNumberText (t : PyStr) : Bool :=
  isIntText t || isFloatRepr t
    || decide (t ∈ [py "true", py "false", py "NaN", py "Infinity", py "-Infinity"])

def PyKey.isPython : PyKey → Bool
  | .num t => isNumberText t
  | _ => true

/-- No dictionary has a string key twice, and its number keys are written as numbers. -/
def PyVal.isPython (v : PyVal) : Bool :=
  everywhere (fun _ => true)
    (fun ks => decide (ks.filter PyKey.isStr).Nodup && ks.all PyKey.isPython) v

theorem isPython_canon {v : PyVal} (h : v.isPython = true) : v.canon.isPython = true := by
  refine everywhere_canon ?_ h
  intro ks ks' hperm hks
  simp only [Bool.and_eq_true, decide_eq_true_eq] at hks ⊢
  exact ⟨(hperm.filter _).nodup_iff.mp hks.1, by rw [← hperm.all_eq]; exact hks.2⟩

theorem nodup_of_isPython {kvs : List (PyKey × PyVal)} (h : (PyVal.dict kvs).isPython = true)
    (hstr : ∀ p ∈ kvs, p.1.isStr = true) : (kvs.map Prod.fst).Nodup := by
  simp only [PyVal.isPython, everywhere, Bool.and_eq_true, decide_eq_true_eq] at h
  have hall : (kvs.map Prod.fst).filter PyKey.isStr = kvs.map Prod.fst := by
    rw [List.filter_eq_self]
    intro k hk
    obtain ⟨p, hp, rfl⟩ := List.mem_map.mp hk
    exact hstr p hp
  rw [← hall]
  exact h.1.1

theorem isPython_dictGet {kvs : List (PyKey × PyVal)} (h : (PyVal.dict kvs).isPython = true)
    {k : PyStr} {v : PyVal} (hget : dictGet kvs k = some v) : v.isPython = true := by
  simp only [PyVal.isPython, everywhere, Bool.and_eq_true] at h
  obtain ⟨p, hp, rfl⟩ := Option.map_eq_some_iff.mp hget
  exact everywhereItems_iff.mp h.2 p (List.mem_of_find?_eq_some hp)

/-! ## What can be written -/

/-- `json.dumps` can write the scalar. -/
def writableLeaf (allowNan : Bool) : PyVal → Bool
  | .int i => decide (i.natAbs < intTextLimit)
  | .float f => allowNan || f.isFinite
  | .obj => false
  | _ => true

/-- `json.dumps` can write the keys. -/
def writableKeys (sortKeys : Bool) (ks : List PyKey) : Bool :=
  (!sortKeys || (ks.all PyKey.isStr || ks.all PyKey.isNum || decide (ks.length ≤ 1)))
    && ks.all fun k => decide (k ≠ .other)

mutual
theorem serialisable_iff {o : DumpOpts} : ∀ {v : PyVal}, serialisable o v = true ↔
    everywhere (writableLeaf o.allowNan) (writableKeys o.sortKeys) v = true
  | .none => Iff.rfl
  | .bool _ => Iff.rfl
  | .int _ => Iff.rfl
  | .float _ => Iff.rfl
  | .str _ => Iff.rfl
  | .obj => Iff.rfl
  | .list xs => serialisableElems_iff
  | .tuple xs => serialisableElems_iff
  | .dict kvs => by
      have hsort : sortable kvs = ((kvs.map Prod.fst).all PyKey.isStr || (kvs.map Prod.fst).all PyKey.isNum
          || decide ((kvs.map Prod.fst).length ≤ 1)) := by
        simp only [sortable, List.all_map, List.length_map]
        rfl
      simp only [serialisable, everywhere, writableKeys, Bool.and_eq_true, serialisableItems_iff, hsort]
      tauto
theorem serialisableElems_iff {o : DumpOpts} : ∀ {xs : List PyVal}, serialisableElems o xs = true ↔
    everywhereElems (writableLeaf o.allowNan) (writableKeys o.sortKeys) xs = true
  | [] => Iff.rfl
  | x :: xs => by
      simp only [serialisableElems, everywhereElems, Bool.and_eq_true, serialisable_iff,
        serialisableElems_iff]
theorem serialisableItems_iff {o : DumpOpts} : ∀ {kvs : List (PyKey × PyVal)},
    serialisableItems o kvs = true ↔ ((kvs.map Prod.fst).all fun k => decide (k ≠ .other)) = true ∧
      everywhereItems (writableLeaf o.allowNan) (writableKeys o.sortKeys) kvs = true
  | [] => by simp [serialisableItems, everywhereItems]
  | (k, v) :: kvs => by
      simp only [serialisableItems, everywhereItems, Bool.and_eq_true, serialisable_iff,
        serialisableItems_iff, List.map_cons, List.all_cons]
      tauto
end

theorem serialisable_canon {o : DumpOpts} {v : PyVal} (h : serialisable o v = true) :
    serialisable o v.canon = true := by
  refine serialisable_iff.mpr (everywhere_canon ?_ (serialisable_iff.mp h))
  intro ks ks' hperm hks
  rwa [writableKeys, ← hperm.all_eq, ← hperm.all_eq, ← hperm.all_eq, ← hperm.length_eq]

/-- What was written once can be written again, with the keys in order. -/
theorem serialisable_decoded {b sortKeys : Bool} {v : PyVal}
    (h : serialisable ⟨sortKeys, b⟩ v = true) : serialisable ⟨true, b⟩ v.decoded = true := by
  have hwritable := serialisable_iff.mp h
  refine serialisable_iff.mpr (everywhere_decoded ?_ hwritable)
  intro ks ks' _ hks'
  have hstr : ks'.all PyKey.isStr = true := by
    refine List.all_eq_true.mpr fun k hk => ?_
    obtain ⟨k', _, rfl⟩ := hks' k hk
    rfl
  have hother : (ks'.all fun k => decide (k ≠ .other)) = true := by
    refine List.all_eq_true.mpr fun k hk => ?_
    obtain ⟨k', _, rfl⟩ := hks' k hk
    simp
  rw [writableKeys, hstr, hother]
  rfl

/-- Keys that are strings can be written, and sorted. -/
theorem writableKeys_str {b : Bool} {ks : List PyKey} (h : ks.all PyKey.isStr = true) :
    writableKeys b ks = true := by
  have hother : (ks.all fun k => decide (k ≠ .other)) = true := by
    refine List.all_eq_true.mpr fun k hk => ?_
    have hstr := List.all_eq_true.mp h k hk
    cases k with
    | other => cases hstr
    | _ => simp
  rw [writableKeys, h, hother]
  simp

theorem serialisable_dict {o : DumpOpts} {kvs : List (PyKey × PyVal)}
    (hkeys : kvs.all (·.1.isStr) = true) (h : ∀ p ∈ kvs, serialisable o p.2 = true) :
    serialisable o (.dict kvs) = true := by
  have hks : writableKeys o.sortKeys (kvs.map Prod.fst) = true :=
    writableKeys_str (by rw [List.all_map]; exact hkeys)
  refine serialisable_iff.mpr (Bool.and_eq_true_iff.mpr ⟨hks, ?_⟩)
  exact everywhereItems_iff.mpr fun p hp => serialisable_iff.mp (h p hp)

theorem serialisable_float (o : DumpOpts) (f : FiniteFloat) : serialisable o (.float (.fin f)) = true := by
  simp [serialisable, PyFloat.isFinite]

theorem serialisable_one (o : DumpOpts) : serialisable o (.int 1) = true := by
  have hone : 1 < intTextLimit := Nat.lt_trans (by decide) lt_intTextLimit
  simpa [serialisable] using hone

/-- What can be written without `NaN` and infinities can be written. -/
theorem serialisable_of_strict {b : Bool} {v : PyVal} (h : serialisable ⟨b, false⟩ v = true) :
    serialisable ⟨b, true⟩ v = true := by
  have hstrict := serialisable_iff.mp h
  refine serialisable_iff.mpr (everywhere_mono ?_ hstrict)
  intro v hv
  cases v with
  | float f => rfl
  | _ => exact hv

mutual
/-- Without `NaN` and infinities it does not matter whether they may be written. -/
theorem serialisable_of_finite {b : Bool} : ∀ {v : PyVal}, v.finite = true →
    serialisable ⟨b, true⟩ v = true → serialisable ⟨b, false⟩ v = true
  | .none, _, h => h
  | .bool _, _, h => h
  | .int _, _, h => h
  | .float f, hf, _ => hf
  | .str _, _, h => h
  | .obj, _, h => h
  | .list xs, hf, h => serialisableElems_of_finite hf h
  | .tuple xs, hf, h => serialisableElems_of_finite hf h
  | .dict kvs, hf, h => by
      simp only [serialisable, Bool.and_eq_true] at h ⊢
      exact ⟨h.1, serialisableItems_of_finite hf h.2⟩
theorem serialisableElems_of_finite {b : Bool} : ∀ {xs : List PyVal}, finiteElems xs = true →
    serialisableElems ⟨b, true⟩ xs = true → serialisableElems ⟨b, false⟩ xs = true
  | [], _, _ => rfl
  | x :: xs, hf, h => by
      simp only [finiteElems, serialisableElems, Bool.and_eq_true] at hf h ⊢
      exact ⟨serialisable_of_finite hf.1 h.1, serialisableElems_of_finite hf.2 h.2⟩
theorem serialisableItems_of_finite {b : Bool} : ∀ {kvs : List (PyKey × PyVal)},
    finiteItems kvs = true → serialisableItems ⟨b, true⟩ kvs = true →
      serialisableItems ⟨b, false⟩ kvs = true
  | [], _, _ => rfl
  | (k, v) :: kvs, hf, h => by
      simp only [finiteItems, serialisableItems, Bool.and_eq_true] at hf h ⊢
      exact ⟨⟨h.1.1, serialisable_of_finite hf.1 h.1.2⟩, serialisableItems_of_finite hf.2 h.2⟩
end

/-! ## Size -/

section

variable {w : CodePoint → Nat}

/-- Losing items does not make a dictionary larger. -/
theorem weighItems_dictOfItems : ∀ l : List (PyStr × PyVal),
    weighItems w (dictOfItems l) ≤ weighItems w (l.map fun q => (.str q.1, q.2)) ∧
      (dictOfItems l).length ≤ l.length
  | [] => ⟨le_rfl, le_rfl⟩
  | (k, v) :: l => by
      obtain ⟨hweight, hlength⟩ := weighItems_dictOfItems l
      rw [dictOfItems]
      split
      · exact ⟨le_trans hweight (Nat.le_add_left _ _), Nat.le_succ_of_le hlength⟩
      · exact ⟨Nat.add_le_add_left hweight _, Nat.succ_le_succ hlength⟩

mutual
/-- **What is read back is no larger than what was written.** -/
theorem weighJson_decoded : ∀ v : PyVal, weighJson w v.decoded ≤ weighJson w v
  | .none => le_rfl
  | .bool _ => le_rfl
  | .int _ => le_rfl
  | .float _ => le_rfl
  | .str _ => le_rfl
  | .obj => le_rfl
  | .list xs => by
      obtain ⟨hweight, hlength⟩ := weighElems_decoded xs
      simp only [PyVal.decoded, weighJson, hlength]
      omega
  | .tuple xs => by
      obtain ⟨hweight, hlength⟩ := weighElems_decoded xs
      simp only [PyVal.decoded, weighJson, hlength]
      omega
  | .dict kvs => by
      obtain ⟨hlost, hfewer⟩ := weighItems_dictOfItems (w := w) (decodedItems kvs)
      have hitems := weighItems_decoded kvs
      have hlength : (decodedItems kvs).length = kvs.length := by
        rw [decodedItems_eq_map, List.length_map]
      have hcommas : ((dictOfItems (decodedItems kvs)).length - 1) * w (cp ',') ≤
          (kvs.length - 1) * w (cp ',') := Nat.mul_le_mul_right _ (by omega)
      simp only [PyVal.decoded, weighJson]
      omega
theorem weighElems_decoded : ∀ xs : List PyVal,
    weighElems w (decodedElems xs) ≤ weighElems w xs ∧ (decodedElems xs).length = xs.length
  | [] => ⟨le_rfl, rfl⟩
  | x :: xs => by
      obtain ⟨hweight, hlength⟩ := weighElems_decoded xs
      have hx := weighJson_decoded x
      simp only [decodedElems, weighElems, List.length_cons, hlength]
      exact ⟨by omega, trivial⟩
theorem weighItems_decoded : ∀ kvs : List (PyKey × PyVal),
    weighItems w ((decodedItems kvs).map fun q => (.str q.1, q.2)) ≤ weighItems w kvs
  | [] => le_rfl
  | (k, v) :: kvs => by
      have hitems := weighItems_decoded kvs
      have hv := weighJson_decoded v
      simp only [decodedItems, List.map_cons, weighItems, keyText]
      omega
end

end

/-! ## Dictionaries with distinct string keys -/

theorem decoded_items {kvs : List (PyKey × PyVal)} (hstr : ∀ p ∈ kvs, p.1.isStr = true)
    (hnd : (kvs.map Prod.fst).Nodup) :
    dictOfItems (decodedItems kvs) = kvs.map fun p => (p.1, p.2.decoded) := by
  have hkey : ∀ p ∈ kvs, PyKey.str (keyText p.1) = p.1 := by
    intro p hp
    have := hstr p hp
    cases hk : p.1 with
    | str s => rfl
    | _ => rw [hk] at this; cases this
  rw [decodedItems_eq_map, dictOfItems_of_nodup, List.map_map]
  · exact List.map_congr_left fun p hp => Prod.ext (hkey p hp) rfl
  · rw [List.map_map]
    refine List.Nodup.of_map PyKey.str ?_
    have hsame : (kvs.map (Prod.fst ∘ fun p => (keyText p.1, p.2.decoded))).map PyKey.str =
        kvs.map Prod.fst := by
      rw [List.map_map]
      exact List.map_congr_left hkey
    rwa [hsame]

theorem dictGet_map_decoded (kvs : List (PyKey × PyVal)) (k : PyStr) :
    dictGet (kvs.map fun p => (p.1, p.2.decoded)) k = (dictGet kvs k).map PyVal.decoded := by
  rw [dictGet, List.find?_map, dictGet, Option.map_map, Option.map_map]
  rfl

end Py
