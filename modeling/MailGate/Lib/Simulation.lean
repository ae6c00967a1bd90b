import MailGate.Lib.Runs

/-!
# Simulations

A system simulates an abstract one under an abstraction function if each of its steps, seen
through the function, is a run of the abstract system.  The steps say which abstract steps they
may be seen as.  Runs are then seen as runs.
-/

namespace Runs

variable {σ τ ι κ : Type*}

/-- Every step that starts where `I` holds keeps it, and is seen as a run of abstract steps
that its label speaks of. -/
structure Simulation (step : ι → σ → σ → Prop) (astep : κ → τ → τ → Prop) (I : σ → Prop)
    (abs : σ → τ) (speaks : ι → κ → Prop) : Prop where
  keeps : ∀ l a b, step l a b → I a → I b
  seen : ∀ l a b, step l a b → I a →
    ∃ tr, Run astep (abs a) tr (abs b) ∧ ∀ t ∈ tr, speaks l t.label

/-- How a step is seen. -/
def SeenAs (astep : κ → τ → τ → Prop) (abs : σ → τ) (speaks : ι → κ → Prop) (t : Taken σ ι)
    (part : List (Taken τ κ)) : Prop :=
  Run astep (abs t.before) part (abs t.after) ∧ ∀ u ∈ part, speaks t.label u.label

variable {step : ι → σ → σ → Prop} {astep : κ → τ → τ → Prop} {I : σ → Prop} {abs : σ → τ}
  {speaks : ι → κ → Prop} {s s' : σ} {tr : List (Taken σ ι)}

/-- A run is seen as a run, part by part. -/
theorem Simulation.run (hsim : Simulation step astep I abs speaks) (h : Run step s tr s')
    (hs : I s) :
    I s' ∧ ∃ parts, List.Forall₂ (SeenAs astep abs speaks) tr parts ∧
      Run astep (abs s) parts.flatten (abs s') := by
  induction h with
  | nil s => exact ⟨hs, [], .nil, .nil _⟩
  | cons hstep hrest ih =>
    obtain ⟨hend, parts, hparts, hrun⟩ := ih (hsim.keeps _ _ _ hstep hs)
    obtain ⟨part, hpart, hspeaks⟩ := hsim.seen _ _ _ hstep hs
    exact ⟨hend, part :: parts, .cons ⟨hpart, hspeaks⟩ hparts, hpart.append hrun⟩

end Runs
