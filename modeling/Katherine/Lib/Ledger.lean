import Mathlib.Data.List.Nodup

/-!
# Working off an append-only ledger

A ledger is a list of items with keys of their own, to which items are only ever appended.
Its readers have beginnings of it: `upTo n` is the ledger as it was when it had `n` items.
Whoever has worked it off up to `k` has done the keys of `upTo k`, and nothing else.

The rules below turn what a reader computes from the keys that are done into positions:
which keys it has never heard of (`keys_subset_iff`), what is left for it
(`pending_keys_upTo`), and when the next item may be done (`getElem_of_next`).
-/

structure Ledger (κ α : Type) where
  items : List (κ × α)
  nodup : (items.map Prod.fst).Nodup

namespace Ledger

variable {κ α : Type}

/-- The ledger when it had `n` items. -/
def upTo (l : Ledger κ α) (n : Nat) : List (κ × α) := l.items.take n

/-- The keys of the first `n` items. -/
def keys (l : Ledger κ α) (n : Nat) : List κ := (l.upTo n).map Prod.fst

variable (l : Ledger κ α) {k n : Nat}

theorem keys_eq_take (n : Nat) : l.keys n = (l.items.map Prod.fst).take n := by
  rw [keys, upTo, List.map_take]

theorem keys_nodup (n : Nat) : (l.keys n).Nodup := by
  rw [keys_eq_take]
  exact l.nodup.sublist (List.take_sublist n _)

theorem length_keys (n : Nat) : (l.keys n).length = min n l.items.length := by
  rw [keys_eq_take, List.length_take, List.length_map]

theorem keys_zero : l.keys 0 = [] := by
  rw [keys_eq_take, List.take_zero]

/-- One item further. -/
theorem keys_succ {m : κ × α} (h : l.items[k]? = some m) : l.keys (k + 1) = l.keys k ++ [m.1] := by
  have hkey : (l.items.map Prod.fst)[k]? = some m.1 := by rw [List.getElem?_map, h]; rfl
  rw [keys_eq_take, keys_eq_take, List.take_add_one, hkey]
  rfl

theorem upTo_succ {m : κ × α} (h : l.items[k]? = some m) : l.upTo (k + 1) = l.upTo k ++ [m] := by
  rw [upTo, upTo, List.take_add_one, h]
  rfl

/-- The key tells the item. -/
theorem snd_eq {key : κ} {a b : α} (ha : (key, a) ∈ l.items) (hb : (key, b) ∈ l.items) : a = b := by
  have := List.inj_on_of_nodup_map l.nodup ha hb rfl
  exact congrArg Prod.snd this

theorem getElem?_upTo {i : Nat} {m : κ × α} (h : (l.upTo n)[i]? = some m) : i < n ∧ l.items[i]? = some m := by
  rw [upTo, List.getElem?_take] at h
  by_cases hlt : i < n
  · rw [if_pos hlt] at h
    exact ⟨hlt, h⟩
  · rw [if_neg hlt] at h
    cases h

theorem keys_append_drop (h : k ≤ n) : l.keys n = l.keys k ++ (l.keys n).drop k := by
  have htake : l.keys k = (l.keys n).take k := by
    rw [keys_eq_take, keys_eq_take, List.take_take, Nat.min_eq_left h]
  rw [htake, List.take_append_drop]

/-- A key that is not done stands behind those that are. -/
theorem notMem_keys {m : κ × α} {i : Nat} (h : l.items[i]? = some m) : m.1 ∉ l.keys k ↔ k ≤ i := by
  have hkey : (l.items.map Prod.fst)[i]? = some m.1 := by rw [List.getElem?_map, h]; rfl
  obtain ⟨hi, hget⟩ := List.getElem?_eq_some_iff.mp hkey
  rw [keys_eq_take, ← Nat.not_lt]
  refine not_congr ⟨?_, ?_⟩
  · intro hmem
    obtain ⟨j, hj, hj'⟩ := List.getElem_of_mem hmem
    rw [List.length_take] at hj
    -- the key stands in one place only
    rw [List.getElem_take, ← hget] at hj'
    have := l.nodup.getElem_inj_iff.mp hj'
    omega
  · intro hlt
    rw [← hget]
    exact List.mem_take_iff_getElem.mpr ⟨i, by omega, rfl⟩

/-- A reader has heard of all that is done if nothing is done that it does not have. -/
theorem keys_subset_iff (h : k ≤ l.items.length) : l.keys k ⊆ l.keys n ↔ k ≤ n := by
  constructor
  · intro hsub
    by_contra hlt
    -- the item at `n` is done
    have hget : l.items[n]? = some l.items[n] := List.getElem?_eq_getElem (by omega)
    have hmem : l.items[n].1 ∈ l.keys k := by
      by_contra hnot
      have := (l.notMem_keys hget).mp hnot
      omega
    exact (l.notMem_keys hget).mpr (Nat.le_refl n) (hsub hmem)
  · intro hle
    rw [l.keys_append_drop hle]
    exact List.subset_append_left _ _

variable [DecidableEq κ]

/-- What is left to do of the first `n` items. -/
def pending (done : List κ) (n : Nat) : List κ := (l.keys n).filter (· ∉ done)

/-- **What is left is what stands behind.** -/
theorem pending_keys (k n : Nat) : l.pending (l.keys k) n = (l.keys n).drop k := by
  rw [pending]
  by_cases h : k ≤ n
  · have hnodup := l.keys_nodup n
    rw [l.keys_append_drop h, List.nodup_append] at hnodup
    nth_rewrite 1 [l.keys_append_drop h]
    have hdone : (l.keys k).filter (· ∉ l.keys k) = [] := by
      rw [List.filter_eq_nil_iff]
      intro key hkey
      simpa using hkey
    have hleft : ((l.keys n).drop k).filter (· ∉ l.keys k) = (l.keys n).drop k := by
      rw [List.filter_eq_self]
      intro key hkey
      simpa using fun hk => hnodup.2.2 key hk key hkey rfl
    rw [List.filter_append, hdone, hleft, List.nil_append]
  · have hle : n ≤ k := by omega
    have hlength := l.length_keys n
    rw [List.drop_eq_nil_of_le (by omega), List.filter_eq_nil_iff]
    intro key hkey
    rw [l.keys_append_drop hle]
    simpa using fun hk => absurd hkey hk

omit [DecidableEq κ] in
/-- The next thing left is the item at that place. -/
theorem getElem_of_next {i : Nat} {key : κ} {rest : List κ} (h : (l.keys n).drop i = key :: rest) :
    i < n ∧ (∃ m, l.items[i]? = some m ∧ m.1 = key) ∧ (l.keys n).drop (i + 1) = rest := by
  have hget : (l.keys n)[i]? = some key := by
    have : ((l.keys n).drop i)[0]? = (l.keys n)[i + 0]? := List.getElem?_drop
    rw [h, List.getElem?_cons_zero, Nat.add_zero] at this
    exact this.symm
  have hlen : i < (l.keys n).length := (List.getElem?_eq_some_iff.mp hget).1
  rw [length_keys] at hlen
  rw [keys_eq_take, List.getElem?_take_of_lt (by omega), List.getElem?_map] at hget
  refine ⟨by omega, ?_, ?_⟩
  · cases hm : l.items[i]? with
    | none => rw [hm] at hget; cases hget
    | some m =>
        rw [hm] at hget
        exact ⟨m, rfl, Option.some.inj hget⟩
  · rw [← List.drop_drop, h, List.drop_succ_cons, List.drop_zero]

end Ledger
