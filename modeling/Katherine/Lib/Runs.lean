import Mathlib.Data.List.Basic

/-!
# Runs of a state machine

A machine is a function `step : ι → σ → ρ × σ`: an input takes a state to a reply and
the next state. Everything the environment decides (who calls, what the clock says, in
which order things happen) is part of the input, so a run is any list of steps that
fit together.

The rules below are what proofs about such machines are made of: `Run.invariant` for
what every step keeps, `Run.history` for what ties a state to the steps that led to it,
`Run.persists` for what is kept until something ends it, and `Run.between` for what can
happen only once until then.
-/

namespace Runs

variable {ι σ ρ : Type}

/-- One step that was taken. -/
structure Event (step : ι → σ → ρ × σ) where
  input : ι
  before : σ
  reply : ρ
  after : σ
  executed : step input before = (reply, after)

/-- The step an input takes from a state. -/
@[simps]
def Event.of (step : ι → σ → ρ × σ) (input : ι) (s : σ) : Event step :=
  ⟨input, s, (step input s).1, (step input s).2, rfl⟩

/-- The steps that a list of inputs takes. -/
def trace (step : ι → σ → ρ × σ) : List ι → σ → List (Event step)
  | [], _ => []
  | i :: inputs, s => .of step i s :: trace step inputs (step i s).2

variable {step : ι → σ → ρ × σ}

theorem input_of_mem_trace {e : Event step} : ∀ {inputs : List ι} {s : σ},
    e ∈ trace step inputs s → e.input ∈ inputs
  | [], _, h => by cases h
  | i :: inputs, s, h => by
      rcases List.mem_cons.mp h with rfl | h
      · exact List.mem_cons_self
      · exact List.mem_cons_of_mem _ (input_of_mem_trace h)

/-- Steps, each starting where the one before it stopped. -/
inductive Run : σ → List (Event step) → σ → Prop
  | nil (s : σ) : Run s [] s
  | cons {es : List (Event step)} {s' : σ} (e : Event step) (h : Run e.after es s') :
      Run e.before (e :: es) s'

namespace Run

variable {s s' : σ} {es : List (Event step)}

/-- An event whose state is known by an equation. -/
theorem next {e : Event step} (hbefore : e.before = s) (h : Run e.after es s') : Run s (e :: es) s' :=
  hbefore ▸ .cons e h

theorem cons_inv {e : Event step} (h : Run s (e :: es) s') : e.before = s ∧ Run e.after es s' := by
  cases h with
  | cons _ h => exact ⟨rfl, h⟩

/-- A run of two parts passes through a state in between. -/
theorem split : ∀ {s : σ} {es es' : List (Event step)}, Run s (es ++ es') s' →
    ∃ m, Run s es m ∧ Run m es' s'
  | s, [], es', h => ⟨s, .nil s, h⟩
  | s, e :: es, es', h => by
      obtain ⟨rfl, hrest⟩ := cons_inv h
      obtain ⟨m, h1, h2⟩ := split hrest
      exact ⟨m, .cons e h1, h2⟩

theorem append {m : σ} {es' : List (Event step)} (h : Run s es m) (h' : Run m es' s') :
    Run s (es ++ es') s' := by
  induction h with
  | nil => exact h'
  | cons e _ ih => exact .cons e (ih h')

/-- The steps of a list of inputs are a run. -/
theorem ofInputs : ∀ (inputs : List ι) (s : σ), ∃ s', Run s (trace step inputs s) s'
  | [], s => ⟨s, .nil s⟩
  | i :: inputs, s => by
      obtain ⟨s', hrun⟩ := ofInputs inputs (step i s).2
      exact ⟨s', .cons (.of step i s) hrun⟩

/-- The same run, with the state it leads to. -/
theorem ofTrace : ∀ (inputs : List ι) (s : σ),
    Run s (trace step inputs s) (inputs.foldl (fun s i => (step i s).2) s)
  | [], s => .nil s
  | i :: inputs, s => .cons (.of step i s) (ofTrace inputs (step i s).2)

/-- What every step keeps holds in every state of a run. -/
theorem invariant {P : σ → Prop} (h : Run s es s') (h0 : P s)
    (hstep : ∀ e ∈ es, P e.before → P e.after) : P s' ∧ ∀ e ∈ es, P e.before ∧ P e.after := by
  induction h with
  | nil => exact ⟨h0, by simp⟩
  | cons e _ ih =>
      have hafter := hstep e (by simp) h0
      obtain ⟨hlast, hall⟩ := ih hafter fun e' he' => hstep e' (by simp [he'])
      refine ⟨hlast, ?_⟩
      intro e' he'
      rcases List.mem_cons.mp he' with rfl | he'
      · exact ⟨h0, hafter⟩
      · exact hall e' he'

/-- A relation between the steps so far and the state they led to, kept by every step, holds all
along a run. -/
theorem history {P : List (Event step) → σ → Prop} (h : Run s es s') (h0 : P [] s)
    (hstep : ∀ pre e post, es = pre ++ e :: post → P pre e.before → P (pre ++ [e]) e.after) :
    P es s' ∧ ∀ pre e post, es = pre ++ e :: post → P pre e.before := by
  -- the induction starts anywhere in the run, with the steps `done` behind it
  have key : ∀ {m m' : σ} {rest : List (Event step)}, Run m rest m' →
      ∀ done : List (Event step), es = done ++ rest → P done m →
        P es m' ∧ ∀ pre e post, rest = pre ++ e :: post → P (done ++ pre) e.before := by
    intro m m' rest hrest
    induction hrest with
    | nil m =>
        intro done hes hP
        refine ⟨by rw [hes, List.append_nil]; exact hP, ?_⟩
        intro pre e post hnil
        simp at hnil
    | @cons later _ e _ ih =>
        intro done hes hP
        have hes' : es = (done ++ [e]) ++ later := by rw [hes, List.append_assoc]; rfl
        obtain ⟨hlast, hall⟩ := ih (done ++ [e]) hes' (hstep done e _ hes hP)
        refine ⟨hlast, ?_⟩
        intro pre e' post hsplit
        cases pre with
        | nil =>
            obtain ⟨rfl, -⟩ := List.cons.inj hsplit
            rw [List.append_nil]
            exact hP
        | cons e₁ pre =>
            obtain ⟨rfl, htail⟩ := List.cons.inj hsplit
            have := hall pre e' post htail
            rwa [List.append_assoc] at this
  obtain ⟨hlast, hall⟩ := key h [] rfl h0
  exact ⟨hlast, fun pre e post hsplit => hall pre e post hsplit⟩

/-- What every step keeps unless it ends it still holds after a run, or some step ended it. -/
theorem persists {P : σ → Prop} {E : Event step → Prop} (h : Run s es s') (h0 : P s)
    (hstep : ∀ e ∈ es, P e.before → P e.after ∨ E e) : P s' ∨ ∃ e ∈ es, E e := by
  induction h with
  | nil => exact .inl h0
  | cons e _ ih =>
      rcases hstep e (by simp) h0 with hafter | hend
      · rcases ih hafter fun e' he' => hstep e' (by simp [he']) with hlast | ⟨e', he', hend⟩
        · exact .inl hlast
        · exact .inr ⟨e', by simp [he'], hend⟩
      · exact .inr ⟨e, by simp, hend⟩

/-- **At most once.** If `F` steps establish `P`, which forbids another `F` step, then between
two of them some step ended `P`. -/
theorem between {P : σ → Prop} {E F : Event step → Prop} {pre mid post : List (Event step)}
    {e₁ e₂ : Event step} (h : Run s (pre ++ e₁ :: (mid ++ e₂ :: post)) s')
    (hsets : F e₁ → P e₁.after) (hblocks : F e₂ → ¬ P e₂.before)
    (hkeeps : ∀ e ∈ mid, P e.before → P e.after ∨ E e) (h₁ : F e₁) (h₂ : F e₂) :
    ∃ e ∈ mid, E e := by
  obtain ⟨_, _, hrun⟩ := split h
  obtain ⟨_, hrun⟩ := cons_inv hrun
  obtain ⟨m, hmid, hrun⟩ := split hrun
  obtain ⟨rfl, _⟩ := cons_inv hrun
  rcases persists hmid (hsets h₁) hkeeps with hP | hE
  · exact absurd hP (hblocks h₂)
  · exact hE

end Run

end Runs
