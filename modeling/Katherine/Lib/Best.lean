import Mathlib.Data.List.Sort

/-!
# Choosing the best

A loop over candidates keeps one of them, and replaces it by the next that beats it. A tie is no
win, so if beating is a strict order, what it keeps at the end is beaten by none, and it is the
first candidate if none beats that.

The best `k` are the first `k` of all of them sorted. Where no two candidates tie, these are the same
in whatever order the candidates come.
-/

namespace Best

variable {α : Type} (beats : α → α → Prop) [DecidableRel beats]

/-- One candidate more. -/
def challenge (kept : Option α) (x : α) : Option α :=
  match kept with
  | none => some x
  | some k => if beats x k then some x else some k

/-- The candidate that is kept at the end. -/
def best (xs : List α) : Option α := xs.foldl (challenge beats) none

variable {beats}

/-- The loop from a candidate on: it ends with that one or with one that beats it, and none beats
what it ends with. -/
theorem foldl_challenge (htrans : ∀ a b c, beats a b → beats b c → beats a c)
    (hirrefl : ∀ a, ¬ beats a a) : ∀ (xs : List α) (k : α),
      ∃ b, xs.foldl (challenge beats) (some k) = some b ∧ b ∈ k :: xs ∧ (b = k ∨ beats b k) ∧
        ∀ x ∈ xs, ¬ beats x b
  | [], k => ⟨k, rfl, List.mem_cons_self, .inl rfl, fun _ hx => absurd hx List.not_mem_nil⟩
  | x :: xs, k => by
      rw [List.foldl_cons, challenge]
      split
      · rename_i hwin
        obtain ⟨b, hb, hmem, hfrom, hmax⟩ := foldl_challenge htrans hirrefl xs x
        refine ⟨b, hb, List.mem_cons_of_mem _ hmem, .inr ?_, List.forall_mem_cons.mpr ⟨?_, hmax⟩⟩
        · rcases hfrom with rfl | hbeats
          · exact hwin
          · exact htrans _ _ _ hbeats hwin
        · rcases hfrom with rfl | hbeats
          · exact hirrefl b
          · exact fun hx => hirrefl x (htrans _ _ _ hx hbeats)
      · rename_i hlose
        obtain ⟨b, hb, hmem, hfrom, hmax⟩ := foldl_challenge htrans hirrefl xs k
        refine ⟨b, hb, ?_, hfrom, List.forall_mem_cons.mpr ⟨fun hx => ?_, hmax⟩⟩
        · rcases List.mem_cons.mp hmem with rfl | hmem
          · exact List.mem_cons_self
          · exact List.mem_cons_of_mem _ (List.mem_cons_of_mem _ hmem)
        · rcases hfrom with rfl | hbeats
          · exact hlose hx
          · exact hlose (htrans _ _ _ hx hbeats)

/-- **What is kept is one of the candidates, and none beats it.** -/
theorem best_spec (htrans : ∀ a b c, beats a b → beats b c → beats a c)
    (hirrefl : ∀ a, ¬ beats a a) {xs : List α} (h : xs ≠ []) :
    ∃ b, best beats xs = some b ∧ b ∈ xs ∧ ∀ x ∈ xs, ¬ beats x b := by
  obtain ⟨k, xs, rfl⟩ := List.exists_cons_of_ne_nil h
  obtain ⟨b, hb, hmem, hfrom, hmax⟩ := foldl_challenge htrans hirrefl xs k
  refine ⟨b, hb, hmem, List.forall_mem_cons.mpr ⟨?_, hmax⟩⟩
  rcases hfrom with rfl | hbeats
  · exact hirrefl b
  · exact fun hk => hirrefl k (htrans _ _ _ hk hbeats)

/-- A loop that keeps more than the candidate. -/
theorem foldl_of_best {σ : Type} {loop : σ → α → σ} (view : Option α → σ)
    (hloop : ∀ kept x, loop (view kept) x = view (challenge beats kept x)) (xs : List α) :
    xs.foldl loop (view none) = view (best beats xs) :=
  List.foldl_hom view hloop

/-- **The first candidate is kept if none beats it.** -/
theorem best_first {x : α} : ∀ {xs : List α}, (∀ y ∈ xs, ¬ beats y x) → best beats (x :: xs) = some x
  | [], _ => rfl
  | y :: xs, h => by
      obtain ⟨hy, hrest⟩ := List.forall_mem_cons.mp h
      have ih := best_first hrest
      rw [best, List.foldl_cons, List.foldl_cons] at *
      rwa [show challenge beats (challenge beats none x) y = challenge beats none x from if_neg hy]

/-! ## The best few -/

section

variable (le : α → α → Prop) [DecidableRel le]

/-- The best `k`. -/
def top (k : Nat) (xs : List α) : List α := (xs.insertionSort le).take k

variable {le} {k : Nat} {xs ys : List α}

theorem mem_of_mem_top {x : α} (h : x ∈ top le k xs) : x ∈ xs :=
  (List.mem_insertionSort le).mp (List.mem_of_mem_take h)

theorem length_top : (top le k xs).length = min k xs.length := by
  rw [top, List.length_take, List.length_insertionSort]

theorem nodup_top {β : Type} {f : α → β} (h : (xs.map f).Nodup) : ((top le k xs).map f).Nodup :=
  (((List.perm_insertionSort le xs).map f).nodup_iff.mpr h).sublist
    ((List.take_sublist k _).map f)

variable [Std.Total le] [IsTrans α le]

theorem pairwise_top : (top le k xs).Pairwise le :=
  (List.pairwise_insertionSort le xs).sublist (List.take_sublist k _)

/-- **The best and the rest**: nothing in the rest is better, and there is no rest if the best are
fewer than `k`. -/
theorem top_split (k : Nat) (xs : List α) : ∃ rest, xs.Perm (top le k xs ++ rest) ∧
    (∀ x ∈ top le k xs, ∀ y ∈ rest, le x y) ∧ ((top le k xs).length < k → rest = []) := by
  have hsorted : (top le k xs ++ (xs.insertionSort le).drop k).Pairwise le := by
    rw [top, List.take_append_drop]
    exact List.pairwise_insertionSort le xs
  refine ⟨(xs.insertionSort le).drop k, ?_, (List.pairwise_append.mp hsorted).2.2, fun hshort => ?_⟩
  · rw [top, List.take_append_drop]
    exact (List.perm_insertionSort le xs).symm
  · rw [top, List.length_take] at hshort
    exact List.drop_of_length_le (by omega)

/-- What is left out is no better than what is not. -/
theorem top_le {x y : α} (hx : x ∈ top le k xs) (hy : y ∈ xs) (hout : y ∉ top le k xs) : le x y := by
  obtain ⟨rest, hperm, hle, -⟩ := @top_split _ le _ _ _ k xs
  exact hle x hx y ((List.mem_append.mp (hperm.mem_iff.mp hy)).resolve_left hout)

/-- **The order of the candidates does not matter** where no two of them tie. -/
theorem top_perm (h : xs.Perm ys) (hanti : ∀ x ∈ xs, ∀ y ∈ xs, le x y → le y x → x = y) :
    top le k xs = top le k ys := by
  have hperm : (xs.insertionSort le).Perm (ys.insertionSort le) :=
    (List.perm_insertionSort le xs).trans (h.trans (List.perm_insertionSort le ys).symm)
  refine congrArg (List.take k) (hperm.eq_of_pairwise (fun x y hx hy => ?_)
    (List.pairwise_insertionSort le xs) (List.pairwise_insertionSort le ys))
  exact hanti x ((List.mem_insertionSort le).mp hx) y
    (h.mem_iff.mpr ((List.mem_insertionSort le).mp hy))

end

end Best
