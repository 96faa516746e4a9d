import Mathlib.Data.List.Infix

/-!
# Nesting counted by a depth that stops at zero

A scanner that follows nested blocks keeps a number: an opening mark adds one, a closing
mark takes one away, and a closing mark where nothing is open is ignored. So the depth is
not the difference of the two counts; it is the largest difference over the ends of what was
read (`depth_le_iff`), and nothing is open exactly if no end of it opens more than it closes
(`depth_eq_zero_iff`).
-/

namespace Nesting

inductive Mark
  | opening
  | closing
deriving DecidableEq

def step (d : Nat) : Mark → Nat
  | .opening => d + 1
  | .closing => d - 1

/-- The depth behind these marks, from the depth before them. -/
def depthFrom (d : Nat) (ms : List Mark) : Nat := ms.foldl step d

/-- Every block that is opened is closed. Closing marks too many are no harm. -/
def Settled (ms : List Mark) : Prop :=
  ∀ t ∈ ms.tails, t.count .opening ≤ t.count .closing

instance (ms : List Mark) : Decidable (Settled ms) := inferInstanceAs (Decidable (∀ t ∈ ms.tails, _))

@[simp] theorem depthFrom_nil (d : Nat) : depthFrom d [] = d := rfl

theorem depthFrom_append (d : Nat) (ms ns : List Mark) :
    depthFrom d (ms ++ ns) = depthFrom (depthFrom d ms) ns := List.foldl_append

/-- One mark more at the end. -/
theorem depthFrom_snoc (d : Nat) (ms : List Mark) (m : Mark) :
    depthFrom d (ms ++ [m]) = step (depthFrom d ms) m := depthFrom_append d ms [m]

/-- **The depth is the largest surplus of opening marks over the ends of what was read.** -/
theorem depth_le_iff {ms : List Mark} {k : Nat} :
    depthFrom 0 ms ≤ k ↔ ∀ t, t <:+ ms → t.count .opening ≤ t.count .closing + k := by
  induction ms using List.reverseRecOn generalizing k with
  | nil =>
      refine iff_of_true (Nat.zero_le k) fun t ht => ?_
      rw [List.suffix_nil.mp ht, List.count_nil]
      exact Nat.zero_le _
  | append_singleton ms m ih =>
      have hends : (∀ t, t <:+ ms ++ [m] → t.count .opening ≤ t.count .closing + k) ↔
          ∀ t, t <:+ ms → (t ++ [m]).count .opening ≤ (t ++ [m]).count .closing + k := by
        constructor
        · intro h t ht
          exact h _ (List.suffix_concat_iff.mpr (.inr ⟨t, rfl, ht⟩))
        · intro h t ht
          rcases List.suffix_concat_iff.mp ht with rfl | ⟨rest, rfl, hrest⟩
          · exact Nat.zero_le _
          · exact h rest hrest
      rw [depthFrom_snoc, hends]
      cases m with
      | opening =>
          have hcount : ∀ t : List Mark, (t ++ [Mark.opening]).count .opening = t.count .opening + 1 ∧
              (t ++ [Mark.opening]).count .closing = t.count .closing := fun t => by simp
          simp only [hcount, step]
          cases k with
          | zero =>
              -- the mark alone is an end that opens more than it closes
              refine iff_of_false (Nat.not_succ_le_zero _) fun h => ?_
              have hone := h [] List.nil_suffix
              simp at hone
          | succ k =>
              rw [Nat.succ_le_succ_iff, ih]
              exact forall₂_congr fun t _ => by omega
      | closing =>
          have hcount : ∀ t : List Mark, (t ++ [Mark.closing]).count .opening = t.count .opening ∧
              (t ++ [Mark.closing]).count .closing = t.count .closing + 1 := fun t => by simp
          have hstep : step (depthFrom 0 ms) .closing ≤ k ↔ depthFrom 0 ms ≤ k + 1 := by
            simp only [step]
            omega
          rw [hstep, ih]
          refine forall₂_congr fun t _ => ?_
          rw [(hcount t).1, (hcount t).2]
          omega

theorem depth_eq_zero_iff {ms : List Mark} : depthFrom 0 ms = 0 ↔ Settled ms := by
  have hle : depthFrom 0 ms ≤ 0 ↔ ∀ t, t <:+ ms → t.count .opening ≤ t.count .closing + 0 := depth_le_iff
  rw [Nat.le_zero] at hle
  simp only [hle, Settled, List.mem_tails, Nat.add_zero]

end Nesting
