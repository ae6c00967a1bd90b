import Mathlib.Logic.Relation
import MailGate.Lib.Transaction

/-!
# How executions end

The commits of the others carry a client from one of its transactions to the next.  In a world
without faults a transaction is committed, or its body has raised; and a client that handles an
exception goes on where it was raised.
-/

namespace Transaction

open Prog Relation

variable {σ ε α β : Type} {W : World σ ε} {s s' : σ} {tr : List (Event σ)}

/-- What every commit of the others keeps holds after any number of them. -/
lemma World.keeps {I : σ → Prop} (hI : ∀ a b, W.env a b → I a → I b)
    (h : ReflTransGen W.env s s') (hs : I s) : I s' := by
  induction h with
  | refl => exact hs
  | tail _ henv ih => exact hI _ _ henv ih

/-- A finished program ends as it is, after some commits of the others. -/
lemma Exec.done_rely {r r' : Except ε α} (h : Exec W (.done r) s tr (some r') s') :
    r' = r ∧ ReflTransGen W.env s s' := by
  generalize hq : Prog.done r = q at h
  generalize ho : some r' = o at h
  induction h with
  | done r s =>
    cases hq
    cases ho
    exact ⟨rfl, .refl⟩
  | stop q s => cases ho
  | txn hbody hnext ih => cases hq
  | env henv hnext ih =>
    obtain ⟨hr, hrely⟩ := ih hq ho
    exact ⟨hr, hrely.head henv⟩

/-- Without faults, a transaction that ends was committed, or its body has raised. -/
lemma Exec.atomic_rely (hfault : ∀ e, ¬ W.fault e) {body : σ → Except ε (α × σ)}
    {r : Except ε α} (h : Exec W (.atomic body) s tr (some r) s') :
    ∃ a b, ReflTransGen W.env s a ∧ ReflTransGen W.env b s' ∧
      ((∃ x, r = .ok x ∧ body a = .ok (x, b)) ∨ ∃ e, r = .error e ∧ body a = .error e ∧ b = a) := by
  generalize hq : Prog.atomic body = q at h
  generalize ho : some r = o at h
  induction h with
  | done r s => cases hq
  | stop q s => cases ho
  | txn hbody hnext ih =>
    cases hq
    subst ho
    obtain ⟨rfl, hrely⟩ := hnext.done_rely
    cases hbody with
    | commit hb => exact ⟨_, _, .refl, hrely, .inl ⟨_, rfl, hb⟩⟩
    | abort hb => exact ⟨_, _, .refl, hrely, .inr ⟨_, rfl, hb, rfl⟩⟩
    | fail hf => exact absurd hf (hfault _)
    | lost _ hf => exact absurd hf (hfault _)
  | env henv hnext ih =>
    obtain ⟨a, b, ha, hb, hcases⟩ := ih hq ho
    exact ⟨a, b, ha.head henv, hb, hcases⟩

/-- A transaction that the state always lets through, whatever the others have committed, is
committed where it ends. -/
lemma Exec.atomic_committed (hfault : ∀ e, ¬ W.fault e) {I : σ → Prop}
    (hI : ∀ a b, W.env a b → I a → I b) (hs : I s) {body : σ → Except ε (α × σ)}
    (hbody : ∀ a, I a → ∃ x b, body a = .ok (x, b)) {r : Except ε α}
    (h : Exec W (.atomic body) s tr (some r) s') :
    ∃ a x b, I a ∧ body a = .ok (x, b) ∧ r = .ok x ∧ ReflTransGen W.env b s' := by
  obtain ⟨a, b, ha, hb, ⟨x, rfl, hx⟩ | ⟨e, -, he, -⟩⟩ := h.atomic_rely hfault
  · exact ⟨a, x, b, World.keeps hI ha hs, hx, rfl, hb⟩
  · obtain ⟨x, c, hx⟩ := hbody a (World.keeps hI ha hs)
    cases hx.symm.trans he

/-- What returns is followed by the rest. -/
lemma Exec.bind_ok {p : Prog σ ε α} {k : α → Prog σ ε β} {x : α} {s₁ : σ}
    {tr' : List (Event σ)} {o : Option (Except ε β)} (h : Exec W p s tr (some (.ok x)) s₁)
    (hrest : Exec W (k x) s₁ tr' o s') : Exec W (p >>= k) s (tr ++ tr') o s' := by
  show Exec W (p.bind k) s (tr ++ tr') o s'
  generalize ho : some (Except.ok x) = outcome at h
  induction h with
  | done r s =>
    cases ho
    exact hrest
  | stop q s => cases ho
  | txn hbody hnext ih =>
    rw [List.append_assoc]
    exact .txn hbody (ih hrest ho)
  | env henv hnext ih => exact .env henv (ih hrest ho)

/-- What raises ends the rest too. -/
lemma Exec.bind_error {p : Prog σ ε α} {k : α → Prog σ ε β} {e : ε}
    (h : Exec W p s tr (some (.error e)) s') : Exec W (p >>= k) s tr (some (.error e)) s' := by
  show Exec W (p.bind k) s tr (some (.error e)) s'
  generalize ho : some (Except.error e) = outcome at h
  induction h with
  | done r s =>
    cases ho
    exact .done _ _
  | stop q s => cases ho
  | txn hbody hnext ih => exact .txn hbody (ih ho)
  | env henv hnext ih => exact .env henv (ih ho)

/-- What returns does not enter the handler. -/
lemma Exec.tryCatch_ok {p : Prog σ ε α} {x : α} (h : Exec W p s tr (some (.ok x)) s')
    (handler : ε → Prog σ ε α) : Exec W (p.tryCatch handler) s tr (some (.ok x)) s' := by
  generalize ho : some (Except.ok x) = outcome at h
  induction h with
  | done r s =>
    cases ho
    exact .done _ _
  | stop q s => cases ho
  | txn hbody hnext ih => exact .txn hbody (ih ho)
  | env henv hnext ih => exact .env henv (ih ho)

/-- Where the guarded part raises, the handler goes on. -/
lemma Exec.tryCatch_error {p : Prog σ ε α} {handler : ε → Prog σ ε α} {e : ε} {s₁ : σ}
    {tr' : List (Event σ)} {o : Option (Except ε α)} (h : Exec W p s tr (some (.error e)) s₁)
    (hhandler : Exec W (handler e) s₁ tr' o s') :
    Exec W (p.tryCatch handler) s (tr ++ tr') o s' := by
  generalize ho : some (Except.error e) = outcome at h
  induction h with
  | done r s =>
    cases ho
    exact hhandler
  | stop q s => cases ho
  | txn hbody hnext ih =>
    rw [List.append_assoc]
    exact .txn hbody (ih hhandler ho)
  | env henv hnext ih => exact .env henv (ih hhandler ho)

end Transaction
