import MailGate.Lib.Transaction

/-!
# Runs of programs, and two runs of one program

A program that cannot tell related states apart answers the same from both and leaves related
states.  It suffices that each of its transactions does.
-/

namespace Transaction

open Prog

variable {σ ε α β : Type} {R : σ → σ → Prop}

/-- A program goes on with the answer of a transaction that is committed. -/
lemma run_atomic_bind_ok {body : σ → Except ε (α × σ)} {k : α → Prog σ ε β} {s s' : σ} {a : α}
    (h : body s = .ok (a, s')) : (atomic body >>= k).run s = (k a).run s' := by
  rw [run_bind, atomic, Prog.run, h]
  rfl

/-- A program raises what its transaction raises. -/
lemma run_atomic_bind_error {body : σ → Except ε (α × σ)} {k : α → Prog σ ε β} {s : σ} {e : ε}
    (h : body s = .error e) : (atomic body >>= k).run s = (.error e, s) := by
  rw [run_bind, atomic, Prog.run, h]
  rfl

/-- Two ends of a transaction: the same answer and related states, or the same exception. -/
inductive SameEnd (R : σ → σ → Prop) : Except ε (α × σ) → Except ε (α × σ) → Prop where
  | ok (a : α) {s t : σ} (h : R s t) : SameEnd R (.ok (a, s)) (.ok (a, t))
  | error (e : ε) : SameEnd R (.error e) (.error e)

/-- No transaction of the program tells related states apart. -/
def Prog.Blind (R : σ → σ → Prop) : Prog σ ε α → Prop
  | .done _ => True
  | .txn body next =>
      (∀ s t, R s t → SameEnd R (body s) (body t)) ∧ ∀ r, (next r).Blind R

lemma blind_atomic {body : σ → Except ε (α × σ)}
    (h : ∀ s t, R s t → SameEnd R (body s) (body t)) : (atomic body).Blind R :=
  ⟨h, fun _ => trivial⟩

lemma blind_bind {p : Prog σ ε α} {k : α → Prog σ ε β} (hp : p.Blind R)
    (hk : ∀ a, (k a).Blind R) : (p >>= k).Blind R := by
  show (p.bind k).Blind R
  induction p with
  | done r =>
    cases r with
    | ok a => exact hk a
    | error e => trivial
  | txn body next ih => exact ⟨hp.1, fun r => ih r (hp.2 r)⟩

lemma blind_tryCatch {p : Prog σ ε α} {handler : ε → Prog σ ε α} (hp : p.Blind R)
    (hhandler : ∀ e, (handler e).Blind R) : (p.tryCatch handler).Blind R := by
  induction p with
  | done r =>
    cases r with
    | ok a => trivial
    | error e => exact hhandler e
  | txn body next ih => exact ⟨hp.1, fun r => ih r (hp.2 r)⟩

lemma blind_finallyDo {p : Prog σ ε α} (hp : p.Blind R) (c : Except ε Unit) :
    (p.finallyDo (compute c)).Blind R := by
  induction p with
  | done r => trivial
  | txn body next ih => exact ⟨hp.1, fun r => ih r (hp.2 r)⟩

/-- From related states the program answers the same, and leaves related states. -/
theorem Prog.Blind.run {p : Prog σ ε α} (hp : p.Blind R) {s t : σ} (hst : R s t) :
    (p.run s).1 = (p.run t).1 ∧ R (p.run s).2 (p.run t).2 := by
  induction p generalizing s t with
  | done r => exact ⟨rfl, hst⟩
  | txn body next ih =>
    have hend := hp.1 s t hst
    simp only [Prog.run]
    cases hs : body s with
    | ok b =>
      rw [hs] at hend
      cases ht : body t with
      | ok c =>
        rw [ht] at hend
        cases hend with
        | ok a hrel => exact ih (.ok a) (hp.2 _) hrel
      | error e =>
        rw [ht] at hend
        cases hend
    | error e =>
      rw [hs] at hend
      cases ht : body t with
      | ok c =>
        rw [ht] at hend
        cases hend
      | error e' =>
        rw [ht] at hend
        cases hend
        exact ih (.error e) (hp.2 _) hst

end Transaction
