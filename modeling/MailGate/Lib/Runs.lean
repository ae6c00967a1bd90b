import Mathlib.Tactic.Common

/-!
# Runs of labelled steps

A system moves by steps that carry a label.  A run is recorded with each of its steps, so
that one can speak of what happened when.
-/

namespace Runs

variable {σ ι : Type*}

/-- A step that was taken. -/
structure Taken (σ ι : Type*) where
  before : σ
  label : ι
  after : σ

/-- `Run step s tr s'`: the steps `tr`, one after the other, lead from `s` to `s'`. -/
inductive Run (step : ι → σ → σ → Prop) : σ → List (Taken σ ι) → σ → Prop where
  | nil (s : σ) : Run step s [] s
  | cons {s s₁ s' : σ} {l : ι} {tr : List (Taken σ ι)} (hstep : step l s s₁)
      (hrest : Run step s₁ tr s') : Run step s (⟨s, l, s₁⟩ :: tr) s'

namespace Run

variable {step : ι → σ → σ → Prop} {s s' : σ} {tr : List (Taken σ ι)}

/-- What every step preserves holds at the end of a run. -/
lemma invariant {I : σ → Prop} (hstep : ∀ l a b, step l a b → I a → I b)
    (h : Run step s tr s') (hs : I s) : I s' := by
  induction h with
  | nil s => exact hs
  | cons hl hrest ih => exact ih (hstep _ _ _ hl hs)

/-- One run after another. -/
lemma append {s₁ : σ} {tr₁ tr₂ : List (Taken σ ι)} (h : Run step s tr₁ s₁)
    (h' : Run step s₁ tr₂ s') : Run step s (tr₁ ++ tr₂) s' := by
  induction h with
  | nil s => exact h'
  | cons hl hrest ih => exact .cons hl (ih h')

/-- The steps of a run are steps. -/
lemma step_of_mem (h : Run step s tr s') : ∀ t ∈ tr, step t.label t.before t.after := by
  induction h with
  | nil s => simp
  | cons hl hrest ih =>
    rw [List.forall_mem_cons]
    exact ⟨hl, ih⟩

/-- What the steps of a run preserve holds throughout. -/
lemma kept {I : σ → Prop} (h : Run step s tr s') (hstep : ∀ t ∈ tr, I t.before → I t.after)
    (hs : I s) : I s' ∧ ∀ t ∈ tr, I t.before ∧ I t.after := by
  induction h with
  | nil s => exact ⟨hs, by simp⟩
  | cons hl hrest ih =>
    rw [List.forall_mem_cons] at hstep
    have hnext := hstep.1 hs
    obtain ⟨hend, hall⟩ := ih hstep.2 hnext
    refine ⟨hend, ?_⟩
    rw [List.forall_mem_cons]
    exact ⟨⟨hs, hnext⟩, hall⟩

/-- What holds before some step, and is preserved, holds at the end. -/
lemma lasts {I : σ → Prop} (h : Run step s tr s') (hstep : ∀ t ∈ tr, I t.before → I t.after)
    {t : Taken σ ι} (ht : t ∈ tr) (hI : I t.before) : I s' := by
  induction h with
  | nil s => simp at ht
  | cons hl hrest ih =>
    rw [List.forall_mem_cons] at hstep
    rcases List.mem_cons.1 ht with rfl | ht
    · exact (hrest.kept hstep.2 (hstep.1 hI)).1
    · exact ih hstep.2 ht

/-- What holds after some step, and is preserved, holds at the end. -/
lemma established {I : σ → Prop} (h : Run step s tr s')
    (hstep : ∀ t ∈ tr, I t.before → I t.after) {t : Taken σ ι} (ht : t ∈ tr) (hI : I t.after) :
    I s' := by
  induction h with
  | nil s => simp at ht
  | cons hl hrest ih =>
    rw [List.forall_mem_cons] at hstep
    rcases List.mem_cons.1 ht with rfl | ht
    · exact (hrest.kept hstep.2 hI).1
    · exact ih hstep.2 ht

/-- What some steps establish and all steps preserve holds before every later step. -/
theorem pairwise {I : σ → Prop} {P : Taken σ ι → Prop} (h : Run step s tr s')
    (hP : ∀ t ∈ tr, P t → I t.after) (hstep : ∀ t ∈ tr, I t.before → I t.after) :
    tr.Pairwise fun e f => P e → I f.before := by
  induction h with
  | nil s => exact .nil
  | cons hl hrest ih =>
    rw [List.forall_mem_cons] at hP hstep
    refine .cons ?_ (ih hP.2 hstep.2)
    intro f hf he
    exact ((hrest.kept hstep.2 (hP.1 he)).2 f hf).1

/-- A run before, at and after one of its steps. -/
lemma split {tr₁ tr₂ : List (Taken σ ι)} {e : Taken σ ι} (h : Run step s (tr₁ ++ e :: tr₂) s') :
    Run step s tr₁ e.before ∧ step e.label e.before e.after ∧ Run step e.after tr₂ s' := by
  induction tr₁ generalizing s with
  | nil =>
    cases h with
    | cons hl hrest => exact ⟨.nil _, hl, hrest⟩
  | cons f tr₁ ih =>
    cases h with
    | cons hl hrest =>
      obtain ⟨hpre, he, hpost⟩ := ih hrest
      exact ⟨.cons hl hpre, he, hpost⟩

/-- A run that moves somewhere ends with a step that leads there. -/
lemma last (h : Run step s tr s') (hne : s ≠ s') : ∃ t ∈ tr, t.after = s' := by
  induction h with
  | nil s => exact absurd rfl hne
  | @cons s s₁ s' l tr hl hrest ih =>
    by_cases hs : s₁ = s'
    · exact ⟨_, List.mem_cons_self, hs⟩
    · obtain ⟨t, ht, hafter⟩ := ih hs
      exact ⟨t, List.mem_cons_of_mem _ ht, hafter⟩

/-- What holds at the end of a run has held throughout, or was established by one of the steps
and has held ever since. -/
theorem since {P : σ → Prop} (h : Run step s tr s') (hs' : P s') :
    (P s ∧ ∀ f ∈ tr, P f.before ∧ P f.after) ∨
      ∃ tr₁ e tr₂, tr = tr₁ ++ e :: tr₂ ∧ Run step s tr₁ e.before ∧
        step e.label e.before e.after ∧ Run step e.after tr₂ s' ∧
        ¬ P e.before ∧ P e.after ∧ ∀ f ∈ tr₂, P f.before ∧ P f.after := by
  induction h with
  | nil s => exact .inl ⟨hs', by simp⟩
  | @cons s s₁ s' l tr hl hrest ih =>
    rcases ih hs' with ⟨hs₁, hkept⟩ | ⟨tr₁, e, tr₂, rfl, hpre, hlater⟩
    · by_cases hs : P s
      · left
        refine ⟨hs, ?_⟩
        rw [List.forall_mem_cons]
        exact ⟨⟨hs, hs₁⟩, hkept⟩
      · exact .inr ⟨[], ⟨s, l, s₁⟩, tr, rfl, .nil s, hl, hrest, hs, hs₁, hkept⟩
    · exact .inr ⟨⟨s, l, s₁⟩ :: tr₁, e, tr₂, rfl, .cons hl hpre, hlater⟩

/-- What some steps establish and some steps end, while all others leave it as it is, holds at
the end of a run exactly if it held at the start or was established, and was not ended later. -/
theorem holds_iff {I P : σ → Prop} {E D : Taken σ ι → Prop}
    (hI : ∀ l a b, step l a b → I a → I b) (h : Run step s tr s')
    (hstep : ∀ t ∈ tr, step t.label t.before t.after → I t.before →
      (P t.after ↔ E t ∨ P t.before ∧ ¬ D t)) (hs : I s) :
    P s' ↔ (P s ∧ ∀ f ∈ tr, ¬ D f) ∨
      ∃ tr₁ e tr₂, tr = tr₁ ++ e :: tr₂ ∧ E e ∧ ∀ f ∈ tr₂, ¬ D f := by
  induction h with
  | nil s => simp
  | @cons s s₁ s' l tr hl hrest ih =>
    rw [List.forall_mem_cons] at hstep
    rw [ih hstep.2 (hI _ _ _ hl hs), hstep.1 hl hs, List.forall_mem_cons]
    constructor
    · rintro (⟨hE | ⟨hP, hD⟩, hlater⟩ | ⟨tr₁, e, tr₂, rfl, he⟩)
      · exact .inr ⟨[], _, tr, rfl, hE, hlater⟩
      · exact .inl ⟨hP, hD, hlater⟩
      · exact .inr ⟨_ :: tr₁, e, tr₂, rfl, he⟩
    · rintro (⟨hP, hD, hlater⟩ | ⟨tr₁, e, tr₂, hsplit, hE, hlater⟩)
      · exact .inl ⟨.inr ⟨hP, hD⟩, hlater⟩
      · -- the step that establishes it is the first one, or a later one
        cases tr₁ with
        | nil =>
          obtain ⟨rfl, rfl⟩ := List.cons.inj hsplit
          exact .inl ⟨.inl hE, hlater⟩
        | cons f tr₁ =>
          obtain ⟨-, rfl⟩ := List.cons.inj hsplit
          exact .inr ⟨tr₁, e, tr₂, rfl, hE, hlater⟩

end Run

end Runs
