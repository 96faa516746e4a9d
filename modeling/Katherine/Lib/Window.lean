import Mathlib.Data.List.Perm.Basic
import Mathlib.Algebra.Order.BigOperators.Group.List
import Mathlib.Algebra.Order.Ring.Nat

/-!
# Sliding windows

A log of timed, weighted entries, and a limit on the weight that any window of a given
length may hold. An entry may be added when the entries after `t - len` leave room, where
`t` is its own time. Times need not come in order, and entries that are too old to matter
may have been dropped from what is counted: the limit holds all the same
(`load_snoc_le`).
-/

namespace Window

variable {ρ : Type} (time : ρ → Int) (weight : ρ → Nat) (p : ρ → Bool)

/-- The weight of the entries with `p` in the window `[a, a + len)`. -/
def load (len a : Int) (log : List ρ) : Nat :=
  ((log.filter fun r => p r && decide (a ≤ time r ∧ time r < a + len)).map weight).sum

/-- The weight of the entries with `p` after `from_`. -/
def since (from_ : Int) (log : List ρ) : Nat :=
  ((log.filter fun r => p r && decide (from_ < time r)).map weight).sum

variable {time weight p}

theorem load_append (len a : Int) (log log' : List ρ) :
    load time weight p len a (log ++ log') =
      load time weight p len a log + load time weight p len a log' := by
  simp [load]

theorem load_perm {len a : Int} {log log' : List ρ} (h : log.Perm log') :
    load time weight p len a log = load time weight p len a log' :=
  ((h.filter _).map weight).sum_eq

/-- What is too old for the window does not weigh in it. -/
theorem load_eq_zero {len a : Int} {log : List ρ} (h : ∀ r ∈ log, time r < a) :
    load time weight p len a log = 0 := by
  have hnone : (log.filter fun r => p r && decide (a ≤ time r ∧ time r < a + len)) = [] := by
    rw [List.filter_eq_nil_iff]
    intro r hr hin
    simp only [Bool.and_eq_true, decide_eq_true_eq] at hin
    have := h r hr
    omega
  rw [load, hnone]
  rfl

/-- A window that holds an entry of time `t` lies after `t - len`. -/
theorem load_le_since {len a t : Int} (ht : t < a + len) (log : List ρ) :
    load time weight p len a log ≤ since time weight p (t - len) log := by
  have hsub : (log.filter fun r => p r && decide (a ≤ time r ∧ time r < a + len)).Sublist
      (log.filter fun r => p r && decide (t - len < time r)) := by
    refine List.monotone_filter_right log fun r hr => ?_
    simp only [Bool.and_eq_true, decide_eq_true_eq] at hr ⊢
    exact ⟨hr.1, by omega⟩
  exact (hsub.map weight).sum_le_sum fun _ _ => Nat.zero_le _

/-- **The limit is kept.** The entries are those that are still counted and those that were dropped;
none of the dropped ones is as recent as the new entry's window. -/
theorem load_snoc_le {len : Int} {limit : Nat} {log kept dropped : List ρ} {r : ρ}
    (h : ∀ a, load time weight p len a log ≤ limit) (hperm : log.Perm (kept ++ dropped))
    (hdropped : ∀ d ∈ dropped, time d ≤ time r - len)
    (hroom : p r = true → since time weight p (time r - len) kept + weight r ≤ limit) (a : Int) :
    load time weight p len a (log ++ [r]) ≤ limit := by
  rw [load_append]
  by_cases hin : p r = true ∧ a ≤ time r ∧ time r < a + len
  · obtain ⟨hp, hlow, hhigh⟩ := hin
    have hself : load time weight p len a [r] = weight r := by
      simp [load, hp, hlow, hhigh]
    have hold : load time weight p len a log ≤ since time weight p (time r - len) kept := by
      have hzero : load time weight p len a dropped = 0 := by
        refine load_eq_zero fun d hd => ?_
        have := hdropped d hd
        omega
      rw [load_perm hperm, load_append, hzero, Nat.add_zero]
      exact load_le_since hhigh kept
    have := hroom hp
    omega
  · have hself : load time weight p len a [r] = 0 := by
      have hnot : (p r && decide (a ≤ time r ∧ time r < a + len)) = false := by
        rw [Bool.eq_false_iff]
        intro hr
        rw [Bool.and_eq_true, decide_eq_true_eq] at hr
        exact hin hr
      rw [load, List.filter_cons, hnot]
      rfl
    have := h a
    omega

end Window
