import Mathlib.Tactic.Common

/-!
# Computations that raise

The rules by which a chain of steps in `Except` is run forwards, when the outcome of a step
is known, and taken apart backwards, when the outcome of the chain is known.
-/

namespace Exceptions

variable {ε α β : Type}

@[simp] lemma ok_bind (a : α) (f : α → Except ε β) : (Except.ok a >>= f) = f a := rfl

@[simp] lemma error_bind (e : ε) (f : α → Except ε β) :
    ((Except.error e : Except ε α) >>= f) = .error e := rfl

/-- A chain that returns has returned from its first step. -/
lemma bind_eq_ok {x : Except ε α} {f : α → Except ε β} {b : β} :
    (x >>= f) = .ok b ↔ ∃ a, x = .ok a ∧ f a = .ok b := by
  cases x with
  | ok a => simp
  | error e => simp

@[simp] lemma isOk_ok (a : α) : (Except.ok a : Except ε α).isOk = true := rfl

@[simp] lemma isOk_error (e : ε) : (Except.error e : Except ε α).isOk = false := rfl

lemma exists_of_isOk {x : Except ε α} (h : x.isOk = true) : ∃ a, x = .ok a := by
  cases x with
  | ok a => exact ⟨a, rfl⟩
  | error e => cases h

@[simp] lemma toOption_eq_some {x : Except ε α} {a : α} : x.toOption = some a ↔ x = .ok a := by
  cases x with
  | ok b => simp [Except.toOption]
  | error e => simp [Except.toOption]

/-- The state in an answer that is a pair. -/
@[simp] lemma toOption_map_snd {x : Except ε (α × β)} {b : β} :
    x.toOption.map (·.2) = some b ↔ ∃ a, x = .ok (a, b) := by
  cases x with
  | ok q => simp [Except.toOption, Prod.ext_iff]
  | error e => simp [Except.toOption]

end Exceptions
