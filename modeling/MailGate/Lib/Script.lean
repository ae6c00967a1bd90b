import Mathlib.Tactic.Common

/-!
# Scripts: computations with a state that raise

A script runs on its own.  It returns or raises, and it leaves the state as it is at that
moment: a raised exception undoes nothing.  What a script does is described by an assertion
about its result and the state in which it ends, and there is one rule for each way in which
scripts are put together.
-/

namespace Scripts

variable {σ ε α β : Type}

/-- A script on a state `σ` that raises exceptions from `ε` and returns an `α`. -/
def Script (σ ε α : Type) : Type := σ → Except ε α × σ

namespace Script

/-- The exception of `p`, or what `k` does with its result. -/
def bind (p : Script σ ε α) (k : α → Script σ ε β) : Script σ ε β := fun s =>
  match p s with
  | (.ok a, s') => k a s'
  | (.error e, s') => (.error e, s')

instance : Monad (Script σ ε) where
  pure a := fun s => (.ok a, s)
  bind := bind

/-- `raise`. -/
def raise (e : ε) : Script σ ε α := fun s => (.error e, s)

/-- A computation that does not touch the state. -/
def lift (r : Except ε α) : Script σ ε α := fun s => (r, s)

/-- A look at the state. -/
def look (f : σ → Except ε α) : Script σ ε α := fun s => (f s, s)

/-- `try: p`, `except BaseException: handler`. -/
def tryCatch (p : Script σ ε α) (handler : ε → Script σ ε α) : Script σ ε α := fun s =>
  match p s with
  | (.ok a, s') => (.ok a, s')
  | (.error e, s') => handler e s'

/-- `try: p`, `finally: cleanup`; an exception of the cleanup takes the place of the result. -/
def finallyDo (p : Script σ ε α) (cleanup : Script σ ε Unit) : Script σ ε α := fun s =>
  match p s with
  | (r, s') =>
      match cleanup s' with
      | (.ok (), s'') => (r, s'')
      | (.error e, s'') => (.error e, s'')

/-- A script on the first part of a state. -/
def first {τ : Type} (p : Script σ ε α) : Script (σ × τ) ε α := fun s =>
  ((p s.1).1, ((p s.1).2, s.2))

/-- A script on the second part of a state. -/
def second {τ : Type} (p : Script τ ε α) : Script (σ × τ) ε α := fun s =>
  ((p s.2).1, (s.1, (p s.2).2))

/-- The script ends with this result in this state. -/
def Ends (p : Script σ ε α) (s : σ) (Q : Except ε α → σ → Prop) : Prop := Q (p s).1 (p s).2

variable {p : Script σ ε α} {k : α → Script σ ε β} {handler : ε → Script σ ε α}
  {cleanup : Script σ ε Unit} {s : σ} {Q Q' : Except ε α → σ → Prop}

lemma Ends.mono (h : p.Ends s Q) (hQ : ∀ r s', Q r s' → Q' r s') : p.Ends s Q' := hQ _ _ h

@[simp] lemma ends_pure {a : α} : Ends (pure a : Script σ ε α) s Q ↔ Q (.ok a) s := Iff.rfl

@[simp] lemma ends_raise {e : ε} : Ends (raise e : Script σ ε α) s Q ↔ Q (.error e) s := Iff.rfl

@[simp] lemma ends_lift {r : Except ε α} : Ends (lift r : Script σ ε α) s Q ↔ Q r s := Iff.rfl

@[simp] lemma ends_look {f : σ → Except ε α} : Ends (look f) s Q ↔ Q (f s) s := Iff.rfl

lemma ends_bind {Q : Except ε β → σ → Prop} : (p >>= k).Ends s Q ↔ p.Ends s fun r s' =>
    match r with
    | .ok a => (k a).Ends s' Q
    | .error e => Q (.error e) s' := by
  show Q (bind p k s).1 (bind p k s).2 ↔ Ends p s _
  simp only [Ends, bind]
  rcases p s with ⟨r, s'⟩
  cases r <;> exact Iff.rfl

lemma ends_tryCatch : (p.tryCatch handler).Ends s Q ↔ p.Ends s fun r s' =>
    match r with
    | .ok a => Q (.ok a) s'
    | .error e => (handler e).Ends s' Q := by
  simp only [Ends, tryCatch]
  rcases p s with ⟨r, s'⟩
  cases r <;> exact Iff.rfl

lemma ends_finallyDo : (p.finallyDo cleanup).Ends s Q ↔ p.Ends s fun r s' =>
    cleanup.Ends s' fun r' s'' =>
      match r' with
      | .ok () => Q r s''
      | .error e => Q (.error e) s'' := by
  simp only [Ends, finallyDo]
  rcases p s with ⟨r, s'⟩
  dsimp only
  rcases cleanup s' with ⟨r', s''⟩
  cases r' <;> exact Iff.rfl

lemma ends_first {τ : Type} {s : σ × τ} {Q : Except ε α → σ × τ → Prop} :
    p.first.Ends s Q ↔ p.Ends s.1 fun r s' => Q r (s', s.2) := Iff.rfl

lemma ends_second {τ : Type} {p : Script τ ε α} {s : σ × τ} {Q : Except ε α → σ × τ → Prop} :
    p.second.Ends s Q ↔ p.Ends s.2 fun r t => Q r (s.1, t) := Iff.rfl

end Script

end Scripts
