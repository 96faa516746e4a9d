import Mathlib.Data.List.Perm.Subperm

/-!
# Taking what fits

A greedy pass looks at the candidates in turn and keeps one if what it has kept fits with
it. Nothing is said about what fits, only that whatever is contained in something that
fits does fit (`Hereditary`): a bound on anything that grows with what it measures is of
this kind, whether or not it is a sum.

Under that assumption the pass has the two properties one wants of it. If all candidates
fit together it keeps them all (`greedyFrom_of_fits`), so testing that first is no change
of policy. And what it leaves out cannot be put back: the candidate did not fit when it
was tested, and what is kept has only grown since (`greedyFrom_maximal`).
-/

namespace Greedy

variable {α : Type} {fits : List α → Bool}

/-- What is contained in something that fits, fits; the order does not matter. -/
def Hereditary (fits : List α → Bool) : Prop :=
  ∀ ⦃xs ys : List α⦄, xs.Subperm ys → fits ys = true → fits xs = true

theorem Hereditary.perm (h : Hereditary fits) {xs ys : List α} (hperm : xs.Perm ys) : fits xs = fits ys := by
  rw [Bool.eq_iff_iff]
  exact ⟨h hperm.symm.subperm, h hperm.subperm⟩

/-- The pass, with what has been kept before it. -/
def greedyFrom (fits : List α → Bool) : List α → List α → List α
  | kept, [] => kept
  | kept, x :: xs =>
      if fits (kept ++ [x]) then greedyFrom fits (kept ++ [x]) xs else greedyFrom fits kept xs

/-- The greedy pass over the candidates. -/
def greedy (fits : List α → Bool) (xs : List α) : List α := greedyFrom fits [] xs

theorem greedyFrom_cons_of_fits {kept xs : List α} {x : α} (h : fits (kept ++ [x]) = true) :
    greedyFrom fits kept (x :: xs) = greedyFrom fits (kept ++ [x]) xs := by
  rw [greedyFrom, if_pos h]

theorem greedyFrom_cons_of_not_fits {kept xs : List α} {x : α} (h : ¬ fits (kept ++ [x]) = true) :
    greedyFrom fits kept (x :: xs) = greedyFrom fits kept xs := by
  rw [greedyFrom, if_neg h]

/-- What was kept stays, and what is added are candidates in their order. -/
theorem greedyFrom_eq_append (fits : List α → Bool) (kept xs : List α) :
    ∃ taken, greedyFrom fits kept xs = kept ++ taken ∧ taken.Sublist xs := by
  induction xs generalizing kept with
  | nil => exact ⟨[], (List.append_nil kept).symm, List.Sublist.refl _⟩
  | cons x xs ih =>
      by_cases h : fits (kept ++ [x]) = true
      · obtain ⟨taken, heq, hsub⟩ := ih (kept ++ [x])
        refine ⟨x :: taken, ?_, hsub.cons_cons x⟩
        rw [greedyFrom_cons_of_fits h, heq, List.append_assoc]
        rfl
      · obtain ⟨taken, heq, hsub⟩ := ih kept
        refine ⟨taken, ?_, hsub.cons x⟩
        rw [greedyFrom_cons_of_not_fits h, heq]

theorem kept_sublist_greedyFrom (kept xs : List α) : kept.Sublist (greedyFrom fits kept xs) := by
  obtain ⟨taken, heq, _⟩ := greedyFrom_eq_append fits kept xs
  rw [heq]
  exact List.sublist_append_left _ _

theorem greedy_sublist (xs : List α) : (greedy fits xs).Sublist xs := by
  obtain ⟨taken, heq, hsub⟩ := greedyFrom_eq_append fits [] xs
  rw [greedy, heq, List.nil_append]
  exact hsub

/-- What is kept fits, if anything was added. -/
theorem greedyFrom_fits (fits : List α → Bool) (kept xs : List α) :
    greedyFrom fits kept xs = kept ∨ fits (greedyFrom fits kept xs) = true := by
  induction xs generalizing kept with
  | nil => exact .inl rfl
  | cons x xs ih =>
      by_cases h : fits (kept ++ [x]) = true
      · rw [greedyFrom_cons_of_fits h]
        rcases ih (kept ++ [x]) with heq | hfits
        · rw [heq]
          exact .inr h
        · exact .inr hfits
      · rw [greedyFrom_cons_of_not_fits h]
        exact ih kept

/-- **If everything fits, everything is kept.** -/
theorem greedyFrom_of_fits (hh : Hereditary fits) {kept xs : List α} (h : fits (kept ++ xs) = true) :
    greedyFrom fits kept xs = kept ++ xs := by
  induction xs generalizing kept with
  | nil => rw [List.append_nil, greedyFrom]
  | cons x xs ih =>
      have hassoc : kept ++ x :: xs = (kept ++ [x]) ++ xs := by simp
      rw [hassoc] at h ⊢
      have hx : fits (kept ++ [x]) = true := hh (List.sublist_append_left _ _).subperm h
      rw [greedyFrom_cons_of_fits hx]
      exact ih h

theorem greedy_of_fits (hh : Hereditary fits) {xs : List α} (h : fits xs = true) : greedy fits xs = xs :=
  greedyFrom_of_fits hh h

/-- **What is left out does not fit beside what is kept.** -/
theorem greedyFrom_maximal (hh : Hereditary fits) {kept xs : List α} {x : α} (hx : x ∈ xs)
    (hout : x ∉ greedyFrom fits kept xs) : fits (x :: greedyFrom fits kept xs) = false := by
  induction xs generalizing kept with
  | nil => cases hx
  | cons y ys ih =>
      by_cases hy : fits (kept ++ [y]) = true
      · rw [greedyFrom_cons_of_fits hy] at hout ⊢
        -- what was just kept is not what was left out
        have hne : x ≠ y := by
          intro heq
          refine hout ((kept_sublist_greedyFrom (kept ++ [y]) ys).subset ?_)
          rw [heq]
          exact List.mem_append_right _ List.mem_cons_self
        exact ih ((List.mem_cons.mp hx).resolve_left hne) hout
      · rw [greedyFrom_cons_of_not_fits hy] at hout ⊢
        rcases List.mem_cons.mp hx with rfl | hx
        · -- it did not fit then, and what is kept has only grown
          rw [← Bool.not_eq_true]
          intro hfits
          refine hy (hh ?_ hfits)
          have hperm : (kept ++ [x]).Perm (x :: kept) := List.perm_append_comm
          exact hperm.subperm.trans ((kept_sublist_greedyFrom kept ys).cons_cons x).subperm
        · exact ih hx hout

theorem greedy_maximal (hh : Hereditary fits) {xs : List α} {x : α} (hx : x ∈ xs)
    (hout : x ∉ greedy fits xs) : fits (x :: greedy fits xs) = false :=
  greedyFrom_maximal hh hx hout

end Greedy
