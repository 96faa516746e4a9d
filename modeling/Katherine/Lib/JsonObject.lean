import Katherine.Lib.JsonRoundTrip

/-!
# Objects in transit

An object is sent as a list of named members. It arrives as a dictionary with its items in any
order, in which members that are null may be missing: libraries differ in what they do with a
null, and a reader should work with either. `Delivered` is what a reader may rely on, and
`delivered_of_kept` says which dictionaries satisfy it.
-/

namespace Py

theorem cp_injective : Function.Injective cp := by
  intro a b h
  have hval : ∀ c : Char, c.toNat % 0x110000 = c.toNat := by
    intro c
    refine Nat.mod_eq_of_lt ?_
    rcases c.valid with h | ⟨-, h⟩
    · exact lt_of_lt_of_le h (by decide)
    · exact h
  have := congrArg Fin.val h
  simp only [cp, hval] at this
  exact Char.toNat_inj.mp this

/-- Literals are told apart by their characters. -/
theorem py_inj {s t : String} : py s = py t ↔ s = t := by
  rw [py, py, List.map_inj_right fun _ _ h => cp_injective h, String.toList_inj]

/-! ## Members -/

/-- What a member is sent as. -/
inductive Field
  | val (v : PyVal)
  | obj (members : List (PyStr × PyVal))

def Field.isNull : Field → Bool
  | .val .none => true
  | _ => false

/-- A text, or null. -/
def nullable : Option PyStr → PyVal
  | none => .none
  | some s => .str s

abbrev Fields := List (PyStr × Field)

/-! ## On the way -/

/-- The value a member arrives as. -/
def Field.Shows : Field → PyVal → Prop
  | .val v, x => x = v
  | .obj members, x => ∃ items, x = .dict items ∧ (items.map Prod.fst).Nodup ∧
      ∀ kv, kv ∈ items ↔ ∃ m ∈ members, kv = (.str m.1, m.2)

/-- The object arrives as these items: in any order, and without some of its nulls. -/
structure Delivered (sent : Fields) (items : List (PyKey × PyVal)) : Prop where
  nodup : (items.map Prod.fst).Nodup
  only : ∀ kv ∈ items, ∃ f ∈ sent, kv.1 = .str f.1 ∧ f.2.Shows kv.2
  all : ∀ f ∈ sent, f.2.isNull = false → ∃ v, (PyKey.str f.1, v) ∈ items ∧ f.2.Shows v

namespace Delivered

variable {sent : Fields} {items : List (PyKey × PyVal)} (d : Delivered sent items)
include d

theorem get {k : PyStr} {v : PyVal} (h : (k, .val v) ∈ sent) (hv : v ≠ .none) :
    dictGet items k = some v := by
  have hnull : (Field.val v).isNull = false := by
    cases v with
    | none => exact absurd rfl hv
    | _ => rfl
  obtain ⟨x, hx, rfl⟩ := d.all _ h hnull
  exact (dictGet_eq_some d.nodup).mpr hx

theorem get_absent {k : PyStr} (h : ∀ f ∈ sent, f.1 ≠ k) : dictGet items k = none := by
  rw [dictGet_eq_none]
  intro hk
  obtain ⟨kv, hkv, hkey⟩ := List.mem_map.mp hk
  obtain ⟨f, hf, hf', -⟩ := d.only kv hkv
  rw [hkey] at hf'
  injection hf' with hf'
  exact h f hf hf'.symm

theorem get_obj {k : PyStr} {members : List (PyStr × PyVal)} (h : (k, .obj members) ∈ sent) :
    ∃ inner, dictGet items k = some (.dict inner) ∧
      Delivered (members.map fun m => (m.1, .val m.2)) inner := by
  obtain ⟨_, hx, inner, rfl, hnodup, hinner⟩ := d.all _ h rfl
  refine ⟨inner, (dictGet_eq_some d.nodup).mpr hx, hnodup, ?_, ?_⟩
  · intro kv hkv
    obtain ⟨m, hm, rfl⟩ := (hinner kv).mp hkv
    exact ⟨_, List.mem_map_of_mem hm, rfl, rfl⟩
  · intro f hf _
    obtain ⟨m, hm, rfl⟩ := List.mem_map.mp hf
    exact ⟨m.2, (hinner _).mpr ⟨m, hm, rfl⟩, rfl⟩

end Delivered

/-! ## Ways to arrive -/

def Field.value : Field → PyVal
  | .val v => v
  | .obj members => .dict (members.map fun m => (.str m.1, m.2))

/-- The names in an object and in the objects in it are distinct. -/
structure Distinct (sent : Fields) : Prop where
  nodup : (sent.map Prod.fst).Nodup
  inner : ∀ f ∈ sent, ∀ members, f.2 = .obj members → (members.map Prod.fst).Nodup

theorem keys_nodup {β γ : Type} {l : List (PyStr × β)} (g : β → γ) (h : (l.map Prod.fst).Nodup) :
    ((l.map fun m => (PyKey.str m.1, g m.2)).map Prod.fst).Nodup := by
  have hmap : (l.map fun m => (PyKey.str m.1, g m.2)).map Prod.fst = (l.map Prod.fst).map PyKey.str := by
    rw [List.map_map, List.map_map]
    rfl
  rw [hmap]
  exact h.map fun _ _ heq => by injection heq

/-- An object arrives if nothing is left out but nulls. -/
theorem delivered_of_kept {sent : Fields} (h : Distinct sent) (keep : PyStr × Field → Bool)
    (hkeep : ∀ f ∈ sent, f.2.isNull = false → keep f = true) :
    Delivered sent ((sent.filter keep).map fun f => (.str f.1, f.2.value)) := by
  have hshows : ∀ f ∈ sent, f.2.Shows f.2.value := by
    rintro ⟨k, f⟩ hf
    cases f with
    | val v => rfl
    | obj members =>
        refine ⟨_, rfl, keys_nodup id (h.inner _ hf members rfl), fun kv => ?_⟩
        simp only [List.mem_map, eq_comm]
  refine ⟨keys_nodup Field.value (h.nodup.sublist (List.filter_sublist.map _)), ?_, ?_⟩
  · intro kv hkv
    obtain ⟨f, hf, rfl⟩ := List.mem_map.mp hkv
    have hf := (List.mem_filter.mp hf).1
    exact ⟨f, hf, rfl, hshows f hf⟩
  · intro f hf hnull
    refine ⟨f.2.value, List.mem_map_of_mem ?_, hshows f hf⟩
    exact List.mem_filter.mpr ⟨hf, hkeep f hf hnull⟩

end Py
