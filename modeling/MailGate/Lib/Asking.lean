import Mathlib.Tactic.Common

/-!
# Programs that ask

A program asks questions, goes on with the answers and ends with a result.  With every question
answered it has one run, and the list of the questions that this run asks; answers to other
questions do not matter.  The number of questions is bounded by a potential: every question takes
one unit, and the result says how many units are left.
-/

/-- Programs with questions from `Q`, answers from `R` and results from `α`. -/
inductive Asking (Q R α : Type) where
  | done (a : α)
  | ask (q : Q) (next : R → Asking Q R α)

namespace Asking

variable {Q R α β ε : Type}

/-- The result under these answers. -/
def run (answer : Q → R) : Asking Q R α → α
  | done a => a
  | ask q next => (next (answer q)).run answer

/-- The questions that are asked under these answers, in their order. -/
def questions (answer : Q → R) : Asking Q R α → List Q
  | done _ => []
  | ask q next => q :: (next (answer q)).questions answer

/-- One program, and another one with its result. -/
def bind (f : α → Asking Q R β) : Asking Q R α → Asking Q R β
  | done a => f a
  | ask q next => ask q fun r => (next r).bind f

/-- One program, and another one unless the first has raised. -/
def bindOk (f : α → Asking Q R (Except ε β)) (p : Asking Q R (Except ε α)) :
    Asking Q R (Except ε β) :=
  p.bind fun result =>
    match result with
    | .error e => done (.error e)
    | .ok a => f a

variable {answer answer' : Q → R} {p : Asking Q R α}

@[simp] lemma run_done (a : α) : (done a : Asking Q R α).run answer = a := rfl

@[simp] lemma run_ask (q : Q) (next : R → Asking Q R α) :
    (ask q next).run answer = (next (answer q)).run answer := rfl

lemma run_bind (f : α → Asking Q R β) (p : Asking Q R α) :
    (p.bind f).run answer = (f (p.run answer)).run answer := by
  induction p with
  | done a => rfl
  | ask q next ih => exact ih (answer q)

lemma run_bindOk (f : α → Asking Q R (Except ε β)) (p : Asking Q R (Except ε α)) :
    (p.bindOk f).run answer = p.run answer >>= fun a => (f a).run answer := by
  rw [bindOk, run_bind]
  cases p.run answer with
  | error e => rfl
  | ok a => rfl

/-- Answers to questions that are not asked do not matter. -/
theorem run_congr (h : ∀ q ∈ p.questions answer, answer' q = answer q) :
    p.run answer' = p.run answer := by
  induction p with
  | done a => rfl
  | ask q next ih =>
    -- the first answer is the same, so both runs continue with the same program
    rw [questions, List.forall_mem_cons] at h
    rw [run_ask, run_ask, h.1]
    exact ih (answer q) h.2

/-! ## Bounds -/

/-- With `n` units the program asks allowed questions only, pays one unit for each, and has
`left a` units left when it ends with `a`; whatever the answers are. -/
def Within (allowed : Q → Prop) (left : α → ℕ) : ℕ → Asking Q R α → Prop
  | n, done a => left a ≤ n
  | n, ask q next => allowed q ∧ 1 ≤ n ∧ ∀ r, Within allowed left (n - 1) (next r)

variable {allowed : Q → Prop} {left : α → ℕ} {left' : β → ℕ} {m n : ℕ}

lemma Within.mono (h : Within allowed left m p) (hle : m ≤ n) : Within allowed left n p := by
  induction p generalizing m n with
  | done a => exact Nat.le_trans h hle
  | ask q next ih =>
    obtain ⟨hallowed, hm, hnext⟩ := h
    exact ⟨hallowed, by omega, fun r => ih r (hnext r) (by omega)⟩

/-- What the first program leaves is there for the second one. -/
theorem Within.bind {f : α → Asking Q R β} (h : Within allowed left n p)
    (hf : ∀ a, Within allowed left' (left a) (f a)) : Within allowed left' n (p.bind f) := by
  induction p generalizing n with
  | done a => exact (hf a).mono h
  | ask q next ih =>
    obtain ⟨hallowed, hn, hnext⟩ := h
    exact ⟨hallowed, hn, fun r => ih r (hnext r)⟩

/-- The units that are left if nothing has been raised. -/
def leftOk (left : α → ℕ) : Except ε α → ℕ
  | .error _ => 0
  | .ok a => left a

theorem Within.bindOk {f : α → Asking Q R (Except ε β)} {p : Asking Q R (Except ε α)}
    (h : Within allowed (leftOk left) n p)
    (hf : ∀ a, Within allowed (leftOk left') (left a) (f a)) :
    Within allowed (leftOk left') n (p.bindOk f) := by
  refine h.bind fun result => ?_
  cases result with
  | error e => exact Nat.zero_le _
  | ok a => exact hf a

/-- The bound under all answers is one for every run. -/
theorem Within.questions (h : Within allowed left n p) (answer : Q → R) :
    (p.questions answer).length + left (p.run answer) ≤ n ∧
      ∀ q ∈ p.questions answer, allowed q := by
  induction p generalizing n with
  | done a =>
    refine ⟨?_, fun q hq => by cases hq⟩
    show 0 + left a ≤ n
    rw [Nat.zero_add]
    exact h
  | ask q next ih =>
    obtain ⟨hallowed, hn, hnext⟩ := h
    obtain ⟨hlength, hall⟩ := ih (answer q) (hnext (answer q))
    refine ⟨?_, List.forall_mem_cons.2 ⟨hallowed, hall⟩⟩
    show ((next (answer q)).questions answer).length + 1 + left ((next (answer q)).run answer) ≤ n
    omega

end Asking
