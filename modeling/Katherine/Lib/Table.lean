import Mathlib.Data.List.Nodup
import Mathlib.Data.List.Sort

/-!
# Tables with a primary key

Two kinds of table, each carrying what the database guarantees about its keys:

* `Table ρ κ key`: rows with a primary key the caller supplies. No two rows have
  the same key, so `get?` is a lookup in the ordinary sense.
* `AutoTable ρ`: rows under `integer primary key autoincrement`. Ids are handed
  out from a counter that deleting rows does not turn back, so an id is never
  used twice.

The operations are the statements a client issues. Deleting and updating take a
predicate, as a `where` clause does. `newest` is `order by key desc limit n`;
`mem_newest` says which rows it returns without naming the sort.
-/

namespace Sql

/-! ## A supplied key -/

/-- Rows, no two of which share a key. -/
structure Table (ρ κ : Type) (key : ρ → κ) where
  rows : List ρ
  nodup : (rows.map key).Nodup

namespace Table

variable {ρ κ : Type} [DecidableEq κ] {key : ρ → κ}

@[simps]
def empty : Table ρ κ key where
  rows := []
  nodup := by simp

/-- `select … where key = k`. -/
def get? (t : Table ρ κ key) (k : κ) : Option ρ := t.rows.find? fun r => key r = k

/-- `delete … where p`. -/
@[simps]
def deleteWhere (t : Table ρ κ key) (p : ρ → Bool) : Table ρ κ key where
  rows := t.rows.filter fun r => !p r
  nodup := t.nodup.sublist (List.filter_sublist.map key)

/-- `update … set …`, for an update that leaves the key alone. -/
@[simps]
def mapRows (t : Table ρ κ key) (f : ρ → ρ) (hf : ∀ r, key (f r) = key r) : Table ρ κ key where
  rows := t.rows.map f
  nodup := by
    have : key ∘ f = key := funext hf
    rw [List.map_map, this]
    exact t.nodup

theorem get?_eq_none {t : Table ρ κ key} {k : κ} : t.get? k = none ↔ ∀ r ∈ t.rows, key r ≠ k := by
  simp [get?]

/-- `insert … on conflict do nothing`. -/
def insertNew (t : Table ρ κ key) (r : ρ) : Table ρ κ key :=
  if h : t.get? (key r) = none then
    { rows := t.rows ++ [r]
      nodup := by
        rw [List.map_append, List.nodup_append]
        refine ⟨t.nodup, by simp, ?_⟩
        intro a ha b hb hab
        obtain ⟨x, hx, rfl⟩ := List.mem_map.mp ha
        obtain rfl : b = key r := by simpa using hb
        exact get?_eq_none.mp h x hx hab }
  else t

/-- `insert … on conflict do update`, for an update that overwrites the whole row. -/
def put (t : Table ρ κ key) (r : ρ) : Table ρ κ key :=
  (t.deleteWhere fun x => key x = key r).insertNew r

theorem get?_mem {t : Table ρ κ key} {k : κ} {r : ρ} (h : t.get? k = some r) : r ∈ t.rows :=
  List.mem_of_find?_eq_some h

theorem get?_key {t : Table ρ κ key} {k : κ} {r : ρ} (h : t.get? k = some r) : key r = k := by
  simpa using List.find?_some h

theorem get?_of_mem {t : Table ρ κ key} {r : ρ} (h : r ∈ t.rows) : t.get? (key r) = some r := by
  cases hg : t.get? (key r) with
  | none => exact absurd rfl (get?_eq_none.mp hg r h)
  | some r' =>
      rw [List.inj_on_of_nodup_map t.nodup (get?_mem hg) h (get?_key hg)]

@[simp] theorem get?_empty (k : κ) : (empty : Table ρ κ key).get? k = none := rfl

@[simp] theorem get?_deleteWhere (t : Table ρ κ key) (p : ρ → Bool) (k : κ) :
    (t.deleteWhere p).get? k = (t.get? k).filter fun r => !p r := by
  cases hg : t.get? k with
  | none =>
      refine get?_eq_none.mpr fun r hr => ?_
      exact get?_eq_none.mp hg r (List.mem_filter.mp hr).1
  | some r =>
      have hk := get?_key hg
      subst hk
      cases hp : p r with
      | false =>
          have hm : r ∈ (t.deleteWhere p).rows := by simp [get?_mem hg, hp]
          rw [get?_of_mem hm, Option.filter_some, hp]
          rfl
      | true =>
          rw [Option.filter_some, hp]
          refine get?_eq_none.mpr fun x hx hxr => ?_
          obtain ⟨hx, hpx⟩ := List.mem_filter.mp hx
          rw [List.inj_on_of_nodup_map t.nodup hx (get?_mem hg) hxr, hp] at hpx
          cases hpx

@[simp] theorem get?_mapRows (t : Table ρ κ key) (f : ρ → ρ) (hf : ∀ r, key (f r) = key r)
    (k : κ) : (t.mapRows f hf).get? k = (t.get? k).map f := by
  simp only [get?, mapRows_rows, List.find?_map]
  congr 2
  funext r
  simp [hf]

omit [DecidableEq κ] in
/-- Deleting what is not there changes nothing. -/
theorem deleteWhere_eq_self (t : Table ρ κ key) {p : ρ → Bool} (h : ∀ r ∈ t.rows, p r = false) :
    t.deleteWhere p = t := by
  have hrows : t.rows.filter (fun r => !p r) = t.rows := by
    refine List.filter_eq_self.mpr fun r hr => ?_
    rw [h r hr]
    rfl
  cases t
  simp only [deleteWhere, Table.mk.injEq]
  exact hrows

omit [DecidableEq κ] in
theorem mem_deleteWhere {t : Table ρ κ key} {p : ρ → Bool} {x : ρ} :
    x ∈ (t.deleteWhere p).rows ↔ x ∈ t.rows ∧ p x = false := by
  simp

theorem get?_deleteKey (t : Table ρ κ key) (k k' : κ) :
    (t.deleteWhere fun r => decide (key r = k)).get? k' = if k' = k then none else t.get? k' := by
  rw [get?_deleteWhere]
  cases hg : t.get? k' with
  | none => simp
  | some r =>
      have hk := get?_key hg
      subst hk
      by_cases hkk : key r = k <;> simp [hkk]

/-- A row, and the others. -/
theorem perm_deleteKey {t : Table ρ κ key} {k : κ} {r : ρ} (h : t.get? k = some r) :
    t.rows.Perm (r :: (t.deleteWhere fun x => decide (key x = k)).rows) := by
  obtain rfl := get?_key h
  refine (List.perm_ext_iff_of_nodup (.of_map _ t.nodup) ?_).mpr fun x => ?_
  · refine List.nodup_cons.mpr ⟨?_, .of_map _ (t.deleteWhere _).nodup⟩
    simp
  · rw [List.mem_cons, mem_deleteWhere, decide_eq_false_iff_not]
    refine ⟨fun hx => ?_, ?_⟩
    · by_cases hxr : key x = key r
      · exact .inl (List.inj_on_of_nodup_map t.nodup hx (get?_mem h) hxr)
      · exact .inr ⟨hx, hxr⟩
    · rintro (rfl | ⟨hx, -⟩)
      · exact get?_mem h
      · exact hx

theorem insertNew_rows {t : Table ρ κ key} {r : ρ} (h : t.get? (key r) = none) :
    (t.insertNew r).rows = t.rows ++ [r] := by
  simp [insertNew, h]

theorem mem_insertNew {t : Table ρ κ key} {r x : ρ} :
    x ∈ (t.insertNew r).rows ↔ x ∈ t.rows ∨ (x = r ∧ t.get? (key r) = none) := by
  unfold insertNew
  split <;> simp_all

theorem get?_insertNew (t : Table ρ κ key) (r : ρ) (k : κ) :
    (t.insertNew r).get? k =
      if k = key r then some ((t.get? (key r)).getD r) else t.get? k := by
  unfold insertNew
  split
  · rename_i h
    rw [get?, List.find?_append]
    by_cases hk : k = key r
    · subst hk
      rw [if_pos rfl, show (t.rows.find? fun x => decide (key x = key r)) = none from h, h]
      simp
    · have hkr : ¬ key r = k := fun e => hk e.symm
      simp [hk, hkr, get?]
  · rename_i h
    obtain ⟨x, hx⟩ := Option.ne_none_iff_exists'.mp h
    split
    · rename_i hk
      rw [hk, hx]
      rfl
    · rfl

/-- An insertion leaves every row that is there where it is. -/
theorem get?_insertNew_of_some {t : Table ρ κ key} {r x : ρ} {k : κ} (h : t.get? k = some x) :
    (t.insertNew r).get? k = some x := by
  rw [get?_insertNew]
  split
  · rename_i hk
    rw [← hk, h]
    rfl
  · exact h

/-- The row is there, and no other row changed. -/
theorem get?_put (t : Table ρ κ key) (r : ρ) (k : κ) :
    (t.put r).get? k = if k = key r then some r else t.get? k := by
  have hnone : (t.get? (key r)).filter (fun x => !decide (key x = key r)) = none := by
    cases hg : t.get? (key r) with
    | none => rfl
    | some x => simp [get?_key hg]
  rw [put, get?_insertNew]
  split
  · rw [get?_deleteWhere, hnone]
    rfl
  · rename_i hk
    rw [get?_deleteWhere]
    cases hg : t.get? k with
    | none => rfl
    | some x =>
        have hx := get?_key hg
        have hxr : ¬ key x = key r := fun e => hk (hx.symm.trans e)
        simp [hxr]

theorem mem_put {t : Table ρ κ key} {r x : ρ} :
    x ∈ (t.put r).rows ↔ x = r ∨ (x ∈ t.rows ∧ key x ≠ key r) := by
  constructor
  · intro hx
    rcases mem_insertNew.mp hx with hx | ⟨hx, _⟩
    · right
      simpa using hx
    · exact .inl hx
  · rintro (rfl | ⟨hx, hne⟩)
    · exact get?_mem (by rw [get?_put, if_pos rfl])
    · exact get?_mem (k := key x) (by rw [get?_put, if_neg hne]; exact get?_of_mem hx)

end Table

/-! ## A generated key -/

/-- Rows under generated ids, in the order of insertion. -/
structure AutoTable (ρ : Type) where
  rows : List (Nat × ρ)
  /-- The largest id ever handed out. -/
  seq : Nat
  sorted : rows.Pairwise fun a b => a.1 < b.1
  /-- Ids are handed out from 1 on. -/
  bound : ∀ r ∈ rows, 0 < r.1 ∧ r.1 ≤ seq

namespace AutoTable

variable {ρ : Type}

@[simps]
def empty : AutoTable ρ where
  rows := []
  seq := 0
  sorted := .nil
  bound := by simp

/-- `select … where id = i`. -/
def get? (t : AutoTable ρ) (i : Nat) : Option ρ := (t.rows.find? fun r => r.1 = i).map (·.2)

/-- `insert`; the new row's id is `t.seq + 1`. -/
@[simps]
def insert (t : AutoTable ρ) (r : ρ) : AutoTable ρ where
  rows := t.rows ++ [(t.seq + 1, r)]
  seq := t.seq + 1
  sorted := by
    rw [List.pairwise_append]
    refine ⟨t.sorted, by simp, ?_⟩
    intro a ha b hb
    have := (t.bound a ha).2
    obtain rfl : b = (t.seq + 1, r) := by simpa using hb
    exact Nat.lt_succ_of_le this
  bound := by
    intro x hx
    rcases List.mem_append.mp hx with hx | hx
    · have := t.bound x hx
      omega
    · obtain rfl : x = (t.seq + 1, r) := by simpa using hx
      simp

/-- `delete … where p`. -/
@[simps]
def deleteWhere (t : AutoTable ρ) (p : Nat × ρ → Bool) : AutoTable ρ where
  rows := t.rows.filter fun r => !p r
  seq := t.seq
  sorted := t.sorted.sublist List.filter_sublist
  bound := fun r hr => t.bound r (List.mem_of_mem_filter hr)

/-- Two rows with one id are one row. -/
theorem eq_of_mem {t : AutoTable ρ} {i : Nat} {x y : ρ} (hx : (i, x) ∈ t.rows)
    (hy : (i, y) ∈ t.rows) : x = y := by
  have hn : (t.rows.map (·.1)).Nodup := List.pairwise_map.mpr (t.sorted.imp Nat.ne_of_lt)
  have := List.inj_on_of_nodup_map hn hx hy rfl
  injection this

theorem get?_eq_some {t : AutoTable ρ} {i : Nat} {x : ρ} :
    t.get? i = some x ↔ (i, x) ∈ t.rows := by
  constructor
  · intro h
    obtain ⟨⟨j, y⟩, hy, rfl⟩ := Option.map_eq_some_iff.mp h
    obtain rfl : j = i := by simpa using List.find?_some hy
    exact List.mem_of_find?_eq_some hy
  · intro h
    cases hf : t.rows.find? (fun r => r.1 = i) with
    | none =>
        have := List.find?_eq_none.mp hf _ h
        simp at this
    | some r =>
        obtain ⟨j, y⟩ := r
        obtain rfl : j = i := by simpa using List.find?_some hf
        rw [get?, hf, eq_of_mem h (List.mem_of_find?_eq_some hf)]
        rfl

theorem get?_bound {t : AutoTable ρ} {i : Nat} {x : ρ} (h : t.get? i = some x) :
    0 < i ∧ i ≤ t.seq :=
  t.bound (i, x) (get?_eq_some.mp h)

@[simp] theorem get?_empty (i : Nat) : (empty : AutoTable ρ).get? i = none := rfl

theorem get?_insert_self (t : AutoTable ρ) (r : ρ) : (t.insert r).get? (t.seq + 1) = some r :=
  get?_eq_some.mpr (by simp)

/-- An insertion leaves every row that is there where it is. -/
theorem get?_insert_of_some {t : AutoTable ρ} {r x : ρ} {i : Nat} (h : t.get? i = some x) :
    (t.insert r).get? i = some x :=
  get?_eq_some.mpr (List.mem_append_left _ (get?_eq_some.mp h))

theorem get?_deleteWhere_eq_some {t : AutoTable ρ} {p : Nat × ρ → Bool} {i : Nat} {x : ρ} :
    (t.deleteWhere p).get? i = some x ↔ t.get? i = some x ∧ p (i, x) = false := by
  simp [get?_eq_some, List.mem_filter]

/-- Keys that end in the id are all different. -/
theorem nodup_map {κ : Type} (t : AutoTable ρ) {key : Nat × ρ → κ}
    (hkey : ∀ a b, key a = key b → a.1 = b.1) : (t.rows.map key).Nodup := by
  rw [List.Nodup, List.pairwise_map]
  refine t.sorted.imp fun {a b} hab he => ?_
  have := hkey a b he
  omega

end AutoTable

/-! ## The newest rows -/

section Newest

variable {ρ κ : Type} [LinearOrder κ] (key : ρ → κ)

/-- `select … order by key desc limit n`. -/
def newest (n : Nat) (rows : List ρ) : List ρ :=
  (rows.insertionSort fun a b => key b ≤ key a).take n

variable {key}

theorem newest_subset {n : Nat} {rows : List ρ} {r : ρ} (h : r ∈ newest key n rows) : r ∈ rows :=
  (List.perm_insertionSort _ rows).mem_iff.mp (List.mem_of_mem_take h)

/-- In a strictly descending list, a row is among the first `n` exactly if fewer than `n` rows
precede it. -/
theorem mem_take_of_descending {r : ρ} : ∀ {n : Nat} {rows : List ρ},
    rows.Pairwise (fun a b => key b < key a) →
    (r ∈ rows.take n ↔ r ∈ rows ∧ rows.countP (fun x => key r < key x) < n)
  | 0, rows, _ => by simp
  | n + 1, [], _ => by simp
  | n + 1, a :: rows, h => by
      obtain ⟨ha, hrows⟩ := List.pairwise_cons.mp h
      have ih := mem_take_of_descending (r := r) (n := n) hrows
      rw [List.take_succ_cons, List.mem_cons, List.mem_cons, List.countP_cons]
      by_cases hr : r ∈ rows
      · -- `a` precedes it, so the count drops by one with `a`
        have hlt : key r < key a := ha r hr
        have hne : r ≠ a := fun e => absurd hlt (by rw [e]; exact lt_irrefl _)
        simp only [hr, hne, hlt, false_or, true_and, or_true, decide_true, if_true] at ih ⊢
        rw [ih, Nat.add_lt_add_iff_right]
      · have htake : r ∉ rows.take n := fun hm => hr (List.mem_of_mem_take hm)
        simp only [hr, htake, or_false]
        refine ⟨fun h => ⟨h, ?_⟩, And.left⟩
        subst h
        have hzero : rows.countP (fun x => key r < key x) = 0 := by
          rw [List.countP_eq_zero]
          intro x hx
          simpa using (ha x hx).le
        rw [hzero]
        simp

/-- Sorted by different keys, the rows descend strictly. -/
theorem descending_sort {rows : List ρ} (hkeys : (rows.map key).Nodup) :
    (rows.insertionSort fun a b => key b ≤ key a).Pairwise fun a b => key b < key a := by
  have hperm := List.perm_insertionSort (fun a b => key b ≤ key a) rows
  have hsorted : (rows.insertionSort fun a b => key b ≤ key a).Pairwise
      (fun a b => key b ≤ key a) :=
    List.pairwise_insertionSort _ rows
  have hnodup : ((rows.insertionSort fun a b => key b ≤ key a).map key).Nodup :=
    (hperm.map key).nodup_iff.mpr hkeys
  exact (hsorted.and (List.pairwise_map.mp hnodup)).imp fun h => lt_of_le_of_ne h.1 h.2.symm

/-- **The newest `n` rows are those with fewer than `n` newer ones.** -/
theorem mem_newest {n : Nat} {rows : List ρ} (hkeys : (rows.map key).Nodup) {r : ρ} :
    r ∈ newest key n rows ↔ r ∈ rows ∧ rows.countP (fun x => key r < key x) < n := by
  have hperm := List.perm_insertionSort (fun a b => key b ≤ key a) rows
  rw [newest, mem_take_of_descending (descending_sort hkeys), hperm.mem_iff, hperm.countP_eq]

theorem length_newest (n : Nat) (rows : List ρ) : (newest key n rows).length = min n rows.length := by
  rw [newest, List.length_take, List.length_insertionSort]

/-- The newest rows alone are the newest rows again, in the same order. -/
theorem newest_of_perm {n : Nat} {rows rows' : List ρ} (hkeys : (rows.map key).Nodup)
    (hperm : rows'.Perm (newest key n rows)) : newest key n rows' = newest key n rows := by
  have hdescending : (newest key n rows).Pairwise fun a b => key b < key a :=
    (descending_sort hkeys).sublist (List.take_sublist _ _)
  have hkeys' : (rows'.map key).Nodup := by
    rw [(hperm.map key).nodup_iff, List.Nodup, List.pairwise_map]
    exact hdescending.imp fun h => h.ne'
  have hlength : rows'.length ≤ n := by
    rw [hperm.length_eq, length_newest]
    exact Nat.min_le_left _ _
  have hall : newest key n rows' = rows'.insertionSort fun a b => key b ≤ key a := by
    rw [newest, List.take_of_length_le]
    rw [List.length_insertionSort]
    exact hlength
  rw [hall]
  refine ((List.perm_insertionSort _ rows').trans hperm).eq_of_pairwise ?_ (descending_sort hkeys') hdescending
  exact fun a b _ _ hab hba => absurd (hab.trans hba) (lt_irrefl _)

/-- One row more is counted. -/
theorem countP_lt_countP {p q : ρ → Bool} {r : ρ} : ∀ {rows : List ρ},
    (∀ x ∈ rows, p x = true → q x = true) → r ∈ rows → p r = false → q r = true →
      rows.countP p < rows.countP q
  | a :: rows, hmono, hr, hp, hq => by
      have hmono' := fun x hx => hmono x (List.mem_cons_of_mem a hx)
      have ha := hmono a List.mem_cons_self
      rw [List.countP_cons, List.countP_cons]
      rcases List.mem_cons.mp hr with rfl | hr
      · have := List.countP_mono_left hmono'
        rw [hp, hq]
        simp only [Bool.false_eq_true, if_false, if_true]
        omega
      · have := countP_lt_countP hmono' hr hp hq
        cases hpa : p a with
        | false =>
            simp only [Bool.false_eq_true, if_false]
            omega
        | true =>
            rw [ha hpa]
            omega

/-- **Rows chosen by `p` are the newest `n` exactly if they are as many, and every other row comes
before each of them.** -/
theorem newest_iff_above {n : Nat} {rows : List ρ} {p : ρ → Bool} (hkeys : (rows.map key).Nodup)
    (hcount : rows.countP p = min n rows.length) :
    (∀ r ∈ rows, r ∈ newest key n rows ↔ p r = true) ↔
      ∀ a ∈ rows, p a = false → ∀ b ∈ rows, p b = true → key a < key b := by
  constructor
  · intro h a ha hpa b hb hpb
    have hout : ¬ a ∈ newest key n rows := by
      rw [h a ha, hpa]
      exact Bool.false_ne_true
    have hin := ((mem_newest hkeys).mp ((h b hb).mpr hpb)).2
    rw [mem_newest hkeys, not_and, Nat.not_lt] at hout
    by_contra hlt
    have hle : key b ≤ key a := le_of_not_gt hlt
    have hmono : rows.countP (fun x => key a < key x) ≤ rows.countP (fun x => key b < key x) := by
      refine List.countP_mono_left fun x _ hx => ?_
      rw [decide_eq_true_eq] at hx ⊢
      exact lt_of_le_of_lt hle hx
    have := hout ha
    omega
  · intro h r hr
    rw [mem_newest hkeys]
    cases hp : p r with
    | true =>
        -- whatever is newer is chosen, and so is `r` itself
        have hlt : rows.countP (fun x => key r < key x) < rows.countP p := by
          refine countP_lt_countP ?_ hr (by simp) hp
          intro x hx hnewer
          rw [decide_eq_true_eq] at hnewer
          by_contra hpx
          exact absurd (h x hx (Bool.eq_false_iff.mpr hpx) r hr hp) (not_lt_of_gt hnewer)
        simp only [iff_true]
        exact ⟨hr, by omega⟩
    | false =>
        have hle : rows.countP p ≤ rows.countP fun x => key r < key x := by
          refine List.countP_mono_left fun x hx hpx => ?_
          rw [decide_eq_true_eq]
          exact h r hr hp x hx hpx
        have hlt : rows.countP p < rows.length := by
          refine lt_of_le_of_ne List.countP_le_length fun heq => ?_
          rw [List.countP_eq_length] at heq
          rw [heq r hr] at hp
          cases hp
        simp only [Bool.false_eq_true, iff_false, not_and]
        intro _
        omega

/-- When rows are added, no old row becomes one of the newest. -/
theorem mem_newest_of_append {n : Nat} {rows added : List ρ} (hkeys : ((rows ++ added).map key).Nodup)
    {r : ρ} (hr : r ∈ rows) (h : r ∈ newest key n (rows ++ added)) : r ∈ newest key n rows := by
  rw [mem_newest hkeys, List.countP_append] at h
  rw [List.map_append] at hkeys
  rw [mem_newest hkeys.of_append_left]
  exact ⟨hr, by omega⟩

end Newest

end Sql
