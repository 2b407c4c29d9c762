/-!
Runs of a system that is given by the step each action takes in a state, if it can be
taken there: what every step preserves, a run preserves, also if the steps do so only
under a condition that holds along the run.
-/
namespace XitForge.StepRuns

variable {S A : Type} {step : S → A → Option S} {s s' : S} {actions : List A}

/-- The actions one after the other. -/
def run (step : S → A → Option S) : S → List A → Option S
  | s, [] => some s
  | s, action :: rest => (step s action).bind (run step · rest)

/-- Every action of the run is taken where the condition holds. -/
def Along (step : S → A → Option S) (P : S → A → Prop) : S → List A → Prop
  | _, [] => True
  | s, action :: rest =>
    P s action ∧ ∀ next, step s action = some next → Along step P next rest

/-- Conditions that agree where a third one holds agree along a run of that one. -/
theorem along_iff {P Q R : S → A → Prop} (h : ∀ s action, R s action → (P s action ↔ Q s action))
    (halong : Along step R s actions) : Along step P s actions ↔ Along step Q s actions := by
  induction actions generalizing s with
  | nil => exact Iff.rfl
  | cons action actions ih =>
    refine and_congr (h s action halong.1) (forall₂_congr fun next hnext => ?_)
    exact ih (halong.2 next hnext)

/-- An invariant of the steps that are taken where the condition holds. -/
theorem run_along {I : S → Prop} {P : S → A → Prop}
    (hstep : ∀ s action next, I s → P s action → step s action = some next → I next)
    (h : I s) (halong : Along step P s actions) (hrun : run step s actions = some s') : I s' := by
  induction actions generalizing s with
  | nil =>
    cases hrun
    exact h
  | cons action actions ih =>
    obtain ⟨next, hnext, hrest⟩ := Option.bind_eq_some_iff.mp hrun
    exact ih (hstep s action next h halong.1 hnext) (halong.2 next hnext) hrest

/-- An invariant of every step. -/
theorem run_invariant {I : S → Prop}
    (hstep : ∀ s action next, I s → step s action = some next → I next)
    (h : I s) (hrun : run step s actions = some s') : I s' := by
  induction actions generalizing s with
  | nil =>
    cases hrun
    exact h
  | cons action actions ih =>
    obtain ⟨next, hnext, hrest⟩ := Option.bind_eq_some_iff.mp hrun
    exact ih (hstep s action next h hnext) hrest

/-- What a step loses exactly where the condition fails, a run keeps exactly if the
condition holds along it. The states are those of an invariant. -/
theorem run_iff_along_of {I J : S → Prop} {P : S → A → Prop}
    (hinvariant : ∀ s action next, J s → step s action = some next → J next)
    (hstep : ∀ s action next, J s → step s action = some next → (I next ↔ I s ∧ P s action))
    (h : J s) (hrun : run step s actions = some s') : I s' ↔ I s ∧ Along step P s actions := by
  induction actions generalizing s with
  | nil =>
    cases hrun
    exact (and_iff_left True.intro).symm
  | cons action actions ih =>
    obtain ⟨next, hnext, hrest⟩ := Option.bind_eq_some_iff.mp hrun
    rw [ih (hinvariant s action next h hnext) hrest, hstep s action next h hnext, and_assoc]
    refine and_congr_right fun _ => and_congr_right fun _ => ?_
    constructor
    · intro halong other hother
      rw [hnext] at hother
      cases hother
      exact halong
    · exact fun halong => halong next hnext

end XitForge.StepRuns
