import Katherine.Lib.Transact

/-!
# Blocks that others look into

`Block.run` is one step. Whoever reads the same contents meanwhile may look in between: behind `BEGIN`
the block has the write lock and what its statements make of the contents, and nothing of that is there
for others before the `COMMIT`. So a run is `Block.start`, which fails or gives the outcome of the
statements, and `Block.finish`.
-/

namespace Sql

section

variable {δ ε α β : Type}

/-- The same outcome, with another result. -/
def Outcome.map (g : α → β) : Outcome δ ε α → Outcome δ ε β
  | .commit a d => .commit (g a) d
  | .rollback r => .rollback (r.map g)
  | .raise e d => .raise e d

end

namespace Block

variable {τ δ ε α : Type} [DecidableEq τ]

/-! ### Another result -/

section

variable {β : Type} (g : α → β)

/-- The same block, with another result. -/
def map (b : Block δ ε α) : Block δ ε β where
  guarded := b.guarded
  catches := b.catches
  body d := (b.body d).map g

theorem run_map (raw : ε) (t : τ) (f : Fault) (b : Block δ ε α) (s : Store τ δ) :
    (b.map g).run raw t f s = ((b.run raw t f s).1.map g, (b.run raw t f s).2) := by
  obtain ⟨guarded, catches, body⟩ := b
  have hleave : ∀ e d, (map g ⟨guarded, catches, body⟩).leave t s.db e d =
      ((leave ⟨guarded, catches, body⟩ t s.db e d).1.map g, (leave ⟨guarded, catches, body⟩ t s.db e d).2) := by
    intro e d
    unfold leave map
    dsimp only
    cases catches e <;> rfl
  unfold run
  cases s.tx with
  | some held => cases guarded <;> rfl
  | none =>
      cases f with
      | begin => rfl
      | inside => exact hleave raw s.db
      | _ =>
          dsimp only [map]
          cases hbody : body s.db with
          | commit a d => rfl
          | rollback r => rfl
          | raise e d => exact hleave e d

end

/-! ### In two steps -/

/-- `BEGIN`: it fails, and the block is over, or the statements are run. -/
def start (raw : ε) (t : τ) (f : Fault) (b : Block δ ε α) (s : Store τ δ) :
    (Except ε α × Store τ δ) ⊕ Outcome δ ε α :=
  match s.tx with
  | some (t', d) =>
      if b.guarded then .inl (.error (b.translate raw), ⟨s.db, if t = t' then none else some (t', d)⟩)
      else .inl (.error raw, s)
  | none =>
      match f with
      | .begin => .inl (.error (if b.guarded then b.translate raw else raw), s)
      | _ => .inr (b.body s.db)

/-- The end of the block, with this outcome of its statements. -/
def finish (raw : ε) (t : τ) (f : Fault) (b : Block δ ε α) (s : Store τ δ) (o : Outcome δ ε α) :
    Except ε α × Store τ δ :=
  match f with
  | .inside => b.leave t s.db raw s.db
  | _ =>
      match o with
      | .commit a d => (.ok a, ⟨d, none⟩)
      | .rollback r => (r, ⟨s.db, none⟩)
      | .raise e d => b.leave t s.db e d

theorem run_of_start_inl {raw : ε} {t : τ} {f : Fault} {b : Block δ ε α} {s : Store τ δ}
    {out : Except ε α × Store τ δ} (h : b.start raw t f s = .inl out) : b.run raw t f s = out := by
  unfold start at h
  unfold run
  cases htx : s.tx with
  | some held =>
      obtain ⟨t', d⟩ := held
      simp only [htx] at h ⊢
      by_cases hguarded : b.guarded = true
      · rw [if_pos hguarded] at h ⊢
        cases h
        rfl
      · rw [if_neg hguarded] at h ⊢
        cases h
        rfl
  | none =>
      simp only [htx] at h ⊢
      cases f with
      | begin =>
          cases h
          rfl
      | _ => cases h

theorem run_of_start_inr {raw : ε} {t : τ} {f : Fault} {b : Block δ ε α} {s : Store τ δ}
    {o : Outcome δ ε α} (h : b.start raw t f s = .inr o) : b.run raw t f s = b.finish raw t f s o := by
  unfold start at h
  unfold run
  cases htx : s.tx with
  | some held =>
      obtain ⟨t', d⟩ := held
      simp only [htx] at h
      by_cases hguarded : b.guarded = true
      · rw [if_pos hguarded] at h
        cases h
      · rw [if_neg hguarded] at h
        cases h
  | none =>
      simp only [htx] at h ⊢
      cases f with
      | begin => cases h
      | _ =>
          cases h
          rfl

end Block

end Sql
