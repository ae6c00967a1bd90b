import Mathlib.Tactic.Common

/-!
# Programs that work on a shared state in transactions

A client of a database computes on its own and, now and then, runs one transaction on the
shared state.  Between two of its transactions any other party may commit, every transaction
may fail without an effect, the acknowledgement of a commit may be lost, and the client
itself may be killed.  This file describes such clients as trees of transactions, gives
their executions, and supplies the rules by which executions are taken apart.
-/

namespace Transaction

variable {σ ε α β : Type}

/-- A client of a shared state `σ` that raises exceptions from `ε` and returns an `α`. -/
inductive Prog (σ ε α : Type) : Type 1 where
  /-- The program has returned or raised. -/
  | done (result : Except ε α)
  /-- One transaction: `body` commits an answer together with a new state, or raises and
  leaves the state as it was; `next` continues with the answer or with the exception. -/
  | txn {β : Type} (body : σ → Except ε (β × σ)) (next : Except ε β → Prog σ ε α)

namespace Prog

/-- Sequential composition: an exception skips the continuation. -/
def bind : Prog σ ε α → (α → Prog σ ε β) → Prog σ ε β
  | done (.ok a), k => k a
  | done (.error e), _ => done (.error e)
  | txn body next, k => txn body fun r => (next r).bind k

/-- Exception handling: the handler runs in place of the part that was skipped. -/
def tryCatch : Prog σ ε α → (ε → Prog σ ε α) → Prog σ ε α
  | done (.ok a), _ => done (.ok a)
  | done (.error e), handler => handler e
  | txn body next, handler => txn body fun r => (next r).tryCatch handler

/-- Run a program, and go on with its outcome. -/
def handle : Prog σ ε α → (Except ε α → Prog σ ε β) → Prog σ ε β
  | done r, k => k r
  | txn body next, k => txn body fun r => (next r).handle k

/-- The outcome of a cleanup that follows the outcome `r`. -/
def afterCleanup (r : Except ε α) : Except ε Unit → Except ε α
  | .ok _ => r
  | .error e => .error e

/-- `try: p finally: cleanup`. -/
def finallyDo (p : Prog σ ε α) (cleanup : Prog σ ε Unit) : Prog σ ε α :=
  p.handle fun r => cleanup.handle fun c => done (afterCleanup r c)

instance : Monad (Prog σ ε) where
  pure a := done (.ok a)
  bind := bind

instance : MonadExceptOf ε (Prog σ ε) where
  throw e := done (.error e)
  tryCatch := tryCatch

/-- A computation of the client that does not touch the shared state. -/
def compute (r : Except ε α) : Prog σ ε α := done r

/-- A single transaction. -/
def atomic (body : σ → Except ε (α × σ)) : Prog σ ε α := txn body done

/-- Raise `e` unless `c` holds. -/
def ensure (c : Prop) [Decidable c] (e : ε) : Prog σ ε Unit :=
  if c then done (.ok ()) else done (.error e)

/-- The execution in which nobody interferes and nothing fails. -/
def run : Prog σ ε α → σ → Except ε α × σ
  | done r, s => (r, s)
  | txn body next, s =>
      match body s with
      | .ok (b, s') => (next (.ok b)).run s'
      | .error e => (next (.error e)).run s

lemma afterCleanup_eq_ok {r : Except ε α} {c : Except ε Unit} {a : α}
    (h : afterCleanup r c = .ok a) : r = .ok a := by
  cases c with
  | ok u => exact h
  | error e => cases h

@[simp] lemma compute_ok_bind (a : α) (k : α → Prog σ ε β) :
    (compute (.ok a) : Prog σ ε α) >>= k = k a := rfl

@[simp] lemma compute_error_bind (e : ε) (k : α → Prog σ ε β) :
    (compute (.error e) : Prog σ ε α) >>= k = compute (.error e) := rfl

@[simp] lemma ensure_true {c : Prop} [Decidable c] (h : c) (e : ε) :
    (ensure c e : Prog σ ε Unit) = pure () := if_pos h

@[simp] lemma ensure_false {c : Prop} [Decidable c] (h : ¬ c) (e : ε) :
    (ensure c e : Prog σ ε Unit) = compute (.error e) := if_neg h

lemma run_bind (p : Prog σ ε α) (k : α → Prog σ ε β) (s : σ) : (p >>= k).run s =
    match p.run s with
    | (.ok a, s') => (k a).run s'
    | (.error e, s') => (.error e, s') := by
  show (p.bind k).run s = _
  induction p generalizing s with
  | done r => cases r <;> rfl
  | txn body next ih =>
    simp only [bind, run]
    cases body s with
    | ok b => exact ih _ _
    | error e => exact ih _ _

lemma run_tryCatch (p : Prog σ ε α) (handler : ε → Prog σ ε α) (s : σ) :
    (p.tryCatch handler).run s =
      match p.run s with
      | (.ok a, s') => (.ok a, s')
      | (.error e, s') => (handler e).run s' := by
  induction p generalizing s with
  | done r => cases r <;> rfl
  | txn body next ih =>
    simp only [tryCatch, run]
    cases body s with
    | ok b => exact ih _ _
    | error e => exact ih _ _

/-- A cleanup without transactions changes the outcome only. -/
lemma run_finallyDo (p : Prog σ ε α) (c : Except ε Unit) (s : σ) :
    (p.finallyDo (compute c)).run s = (afterCleanup (p.run s).1 c, (p.run s).2) := by
  induction p generalizing s with
  | done r => rfl
  | txn body next ih =>
    show (txn body fun r => (next r).finallyDo (compute c)).run s = _
    simp only [run]
    cases body s with
    | ok b => exact ih _ _
    | error e => exact ih _ _

/-- A composition that returns has returned from its first part. -/
lemma run_bind_eq_ok {p : Prog σ ε α} {k : α → Prog σ ε β} {s s' : σ} {b : β}
    (h : (p >>= k).run s = (.ok b, s')) :
    ∃ a s₁, p.run s = (.ok a, s₁) ∧ (k a).run s₁ = (.ok b, s') := by
  rw [run_bind] at h
  split at h
  · rename_i a s₁ hp
    exact ⟨a, s₁, hp, h⟩
  · cases h

end Prog

open Prog

/-! ## Executions -/

/-- A commit on the shared state, by the client itself or by somebody else. -/
inductive Event (σ : Type) where
  | own (before after : σ)
  | env (before after : σ)

/-- What a client runs against: the commits that other parties can make, and the
exceptions by which the database reports that a transaction failed. -/
structure World (σ ε : Type) where
  env : σ → σ → Prop
  fault : ε → Prop

/-- Nobody else commits. -/
def World.alone (fault : ε → Prop) : World σ ε := ⟨fun _ _ => False, fault⟩

/-- `Answer W body s ev r s'`: one transaction started in `s` ends in `s'`, makes the
commits `ev` (one or none) and gives the client the answer `r`. -/
inductive Answer (W : World σ ε) (body : σ → Except ε (β × σ)) (s : σ) :
    List (Event σ) → Except ε β → σ → Prop where
  | commit {b : β} {s' : σ} (hbody : body s = .ok (b, s')) :
      Answer W body s [.own s s'] (.ok b) s'
  | abort {e : ε} (hbody : body s = .error e) : Answer W body s [] (.error e) s
  /-- The database failed before the commit. -/
  | fail {e : ε} (hfault : W.fault e) : Answer W body s [] (.error e) s
  /-- The transaction is committed, but the client never hears of it. -/
  | lost {b : β} {s' : σ} {e : ε} (hbody : body s = .ok (b, s')) (hfault : W.fault e) :
      Answer W body s [.own s s'] (.error e) s'

/-- `Exec W p s tr o s'`: from the state `s` the client `p` can make the commits `tr`,
interleaved with those of the others, and reach the state `s'` with the outcome `o`, where
`none` stands for a client that has not finished (it is still running, or was killed). -/
inductive Exec (W : World σ ε) : Prog σ ε α → σ → List (Event σ) →
    Option (Except ε α) → σ → Prop where
  | done (r : Except ε α) (s : σ) : Exec W (.done r) s [] (some r) s
  | stop (p : Prog σ ε α) (s : σ) : Exec W p s [] none s
  | txn {γ : Type} {body : σ → Except ε (γ × σ)} {next : Except ε γ → Prog σ ε α}
      {s s₁ s' : σ} {ev tr : List (Event σ)} {r : Except ε γ} {o : Option (Except ε α)}
      (hbody : Answer W body s ev r s₁) (hnext : Exec W (next r) s₁ tr o s') :
      Exec W (.txn body next) s (ev ++ tr) o s'
  | env {p : Prog σ ε α} {s s₁ s' : σ} {tr : List (Event σ)} {o : Option (Except ε α)}
      (henv : W.env s s₁) (hnext : Exec W p s₁ tr o s') :
      Exec W p s (.env s s₁ :: tr) o s'

variable {W : World σ ε}

/-- The undisturbed execution is one of the executions. -/
lemma Exec.of_run (p : Prog σ ε α) (s : σ) :
    ∃ tr, Exec W p s tr (some (p.run s).1) (p.run s).2 := by
  induction p generalizing s with
  | done r => exact ⟨[], .done r s⟩
  | txn body next ih =>
    cases hb : body s with
    | ok q =>
      obtain ⟨tr, h⟩ := ih (.ok q.1) q.2
      refine ⟨.own s q.2 :: tr, ?_⟩
      simp only [run, hb]
      exact .txn (.commit hb) h
    | error e =>
      obtain ⟨tr, h⟩ := ih (.error e) s
      refine ⟨tr, ?_⟩
      simp only [run, hb]
      exact .txn (.abort hb) h

/-! ## Taking executions apart -/

/-- An execution of a composition stops in the first part, raises in the first part, or
runs the first part to its answer and goes on with the second. -/
lemma Exec.bind_inv {p : Prog σ ε α} {k : α → Prog σ ε β} {s s' : σ} {tr : List (Event σ)}
    {o : Option (Except ε β)} (h : Exec W (p >>= k) s tr o s') :
    (∃ e, Exec W p s tr (some (.error e)) s' ∧ o = some (.error e)) ∨
      (Exec W p s tr none s' ∧ o = none) ∨
      ∃ a s₁ tr₁ tr₂, tr = tr₁ ++ tr₂ ∧ Exec W p s tr₁ (some (.ok a)) s₁ ∧
        Exec W (k a) s₁ tr₂ o s' := by
  change Exec W (p.bind k) s tr o s' at h
  generalize hq : p.bind k = q at h
  -- the induction is on the execution: commits of others leave the program where it is
  induction h generalizing p with
  | done r s =>
    match p, hq with
    | .done (.ok a), hq =>
      exact .inr (.inr ⟨a, s, [], [], rfl, .done _ _,
        by rw [show k a = _ from hq]; exact .done r s⟩)
    | .done (.error e), hq =>
      cases hq
      exact .inl ⟨e, .done _ _, rfl⟩
  | stop q s => exact .inr (.inl ⟨.stop _ _, rfl⟩)
  | txn hbody hnext ih =>
    match p, hq with
    | .done (.ok a), hq =>
      refine .inr (.inr ⟨a, _, [], _, rfl, .done _ _, ?_⟩)
      rw [show k a = _ from hq]
      exact .txn hbody hnext
    | .txn body next, hq =>
      cases hq
      rcases ih rfl with ⟨e, hp, ho⟩ | ⟨hp, ho⟩ | ⟨a, s₁, tr₁, tr₂, rfl, hp, hk⟩
      · exact .inl ⟨e, .txn hbody hp, ho⟩
      · exact .inr (.inl ⟨.txn hbody hp, ho⟩)
      · exact .inr (.inr ⟨a, s₁, _, tr₂, (List.append_assoc _ _ _).symm, .txn hbody hp, hk⟩)
  | env henv hnext ih =>
    rcases ih hq with ⟨e, hp, ho⟩ | ⟨hp, ho⟩ | ⟨a, s₁, tr₁, tr₂, rfl, hp, hk⟩
    · exact .inl ⟨e, .env henv hp, ho⟩
    · exact .inr (.inl ⟨.env henv hp, ho⟩)
    · exact .inr (.inr ⟨a, s₁, _ :: tr₁, tr₂, rfl, .env henv hp, hk⟩)

/-- An execution of a composition ends within the first part without an answer, or runs the
first part to its answer and goes on with the second. -/
lemma Exec.bind_cases {p : Prog σ ε α} {k : α → Prog σ ε β} {s s' : σ} {tr : List (Event σ)}
    {o : Option (Except ε β)} (h : Exec W (p >>= k) s tr o s') :
    (∃ o₁, Exec W p s tr o₁ s' ∧ (∀ a, o₁ ≠ some (.ok a)) ∧ ∀ b, o ≠ some (.ok b)) ∨
      ∃ a s₁ tr₁ tr₂, tr = tr₁ ++ tr₂ ∧ Exec W p s tr₁ (some (.ok a)) s₁ ∧
        Exec W (k a) s₁ tr₂ o s' := by
  rcases h.bind_inv with ⟨e, hp, rfl⟩ | ⟨hp, rfl⟩ | hrest
  · exact .inl ⟨_, hp, by simp, by simp⟩
  · exact .inl ⟨_, hp, by simp, by simp⟩
  · exact .inr hrest

/-- An execution with a handler is one without it, or it enters the handler where the
guarded part raised. -/
lemma Exec.tryCatch_inv {p : Prog σ ε α} {handler : ε → Prog σ ε α} {s s' : σ}
    {tr : List (Event σ)} {o : Option (Except ε α)}
    (h : Exec W (p.tryCatch handler) s tr o s') :
    (∃ a, Exec W p s tr (some (.ok a)) s' ∧ o = some (.ok a)) ∨
      (Exec W p s tr none s' ∧ o = none) ∨
      ∃ e s₁ tr₁ tr₂, tr = tr₁ ++ tr₂ ∧ Exec W p s tr₁ (some (.error e)) s₁ ∧
        Exec W (handler e) s₁ tr₂ o s' := by
  generalize hq : p.tryCatch handler = q at h
  induction h generalizing p with
  | done r s =>
    match p, hq with
    | .done (.error e), hq =>
      refine .inr (.inr ⟨e, s, [], [], rfl, .done _ _, ?_⟩)
      rw [show handler e = _ from hq]
      exact .done r s
    | .done (.ok a), hq =>
      cases hq
      exact .inl ⟨a, .done _ _, rfl⟩
  | stop q s => exact .inr (.inl ⟨.stop _ _, rfl⟩)
  | txn hbody hnext ih =>
    match p, hq with
    | .done (.error e), hq =>
      refine .inr (.inr ⟨e, _, [], _, rfl, .done _ _, ?_⟩)
      rw [show handler e = _ from hq]
      exact .txn hbody hnext
    | .txn body next, hq =>
      cases hq
      rcases ih rfl with ⟨a, hp, ho⟩ | ⟨hp, ho⟩ | ⟨e, s₁, tr₁, tr₂, rfl, hp, hk⟩
      · exact .inl ⟨a, .txn hbody hp, ho⟩
      · exact .inr (.inl ⟨.txn hbody hp, ho⟩)
      · exact .inr (.inr ⟨e, s₁, _, tr₂, (List.append_assoc _ _ _).symm, .txn hbody hp, hk⟩)
  | env henv hnext ih =>
    rcases ih hq with ⟨a, hp, ho⟩ | ⟨hp, ho⟩ | ⟨e, s₁, tr₁, tr₂, rfl, hp, hk⟩
    · exact .inl ⟨a, .env henv hp, ho⟩
    · exact .inr (.inl ⟨.env henv hp, ho⟩)
    · exact .inr (.inr ⟨e, s₁, _ :: tr₁, tr₂, rfl, .env henv hp, hk⟩)

/-- An execution with a cleanup that has no transactions is one without it, up to the outcome. -/
lemma Exec.finallyDo_inv {p : Prog σ ε α} {c : Except ε Unit} {s s' : σ} {tr : List (Event σ)}
    {o : Option (Except ε α)} (h : Exec W (p.finallyDo (compute c)) s tr o s') :
    ∃ o', Exec W p s tr o' s' ∧ o = o'.map (afterCleanup · c) := by
  generalize hq : p.finallyDo (compute c) = q at h
  induction h generalizing p with
  | done r s =>
    match p, hq with
    | .done r', hq =>
      cases hq
      exact ⟨some r', .done r' s, rfl⟩
  | stop q s => exact ⟨none, .stop p s, rfl⟩
  | txn hbody hnext ih =>
    match p, hq with
    | .txn body next, hq =>
      cases hq
      obtain ⟨o', hp, ho⟩ := ih rfl
      exact ⟨o', .txn hbody hp, ho⟩
  | env henv hnext ih =>
    obtain ⟨o', hp, ho⟩ := ih hq
    exact ⟨o', .env henv hp, ho⟩

lemma Exec.finallyDo {p : Prog σ ε α} {s s' : σ} {tr : List (Event σ)}
    {o : Option (Except ε α)} (h : Exec W p s tr o s') (c : Except ε Unit) :
    Exec W (p.finallyDo (compute c)) s tr (o.map (afterCleanup · c)) s' := by
  induction h with
  | done r s => exact .done _ s
  | stop p s => exact .stop _ s
  | txn hbody _ ih => exact .txn hbody ih
  | env henv _ ih => exact .env henv ih

/-- A finished program makes no commits of its own. -/
lemma Exec.done_noOwn {r : Except ε α} {s s' : σ} {tr : List (Event σ)}
    {o : Option (Except ε α)} (h : Exec W (.done r) s tr o s') :
    (∀ a b, Event.own a b ∉ tr) ∧ (o = some r ∨ o = none) := by
  generalize hq : Prog.done r = q at h
  induction h with
  | done r s =>
    cases hq
    exact ⟨by simp, .inl rfl⟩
  | stop q s => exact ⟨by simp, .inr rfl⟩
  | txn hbody hnext ih => cases hq
  | env henv hnext ih =>
    obtain ⟨hno, ho⟩ := ih hq
    refine ⟨?_, ho⟩
    intro a b hmem
    rcases List.mem_cons.1 hmem with heq | hmem
    · cases heq
    · exact hno a b hmem

/-- A transaction that answers has been committed, and nothing was committed after it. -/
lemma Exec.atomic_ok {body : σ → Except ε (α × σ)} {s s' : σ} {tr : List (Event σ)} {x : α}
    (h : Exec W (.atomic body) s tr (some (.ok x)) s') :
    ∃ tr₁ a b tr₂, tr = tr₁ ++ Event.own a b :: tr₂ ∧ body a = .ok (x, b) ∧
      ∀ c d, Event.own c d ∉ tr₂ := by
  generalize hq : Prog.atomic body = q at h
  generalize ho : some (Except.ok x) = o at h
  induction h with
  | done r s => cases hq
  | stop q s => cases ho
  | txn hbody hnext ih =>
    cases hq
    subst ho
    obtain ⟨hno, hr⟩ := hnext.done_noOwn
    cases hbody with
    | commit hb =>
      obtain rfl := Except.ok.inj (Option.some.inj (hr.resolve_right (Option.some_ne_none _)))
      exact ⟨[], _, _, _, rfl, hb, hno⟩
    | abort => simp at hr
    | fail => simp at hr
    | lost => simp at hr
  | env henv hnext ih =>
    obtain ⟨tr₁, a, b, tr₂, rfl, hbody, hno⟩ := ih hq ho
    exact ⟨_ :: tr₁, a, b, tr₂, rfl, hbody, hno⟩

section Alone

variable {fault : ε → Prop}

/-- Alone, a finished program makes no commits. -/
lemma Exec.done_inv {r : Except ε α} {s s' : σ} {tr : List (Event σ)}
    {o : Option (Except ε α)} (h : Exec (.alone fault) (.done r) s tr o s') :
    tr = [] ∧ s' = s ∧ (o = some r ∨ o = none) := by
  cases h with
  | done => exact ⟨rfl, rfl, .inl rfl⟩
  | stop => exact ⟨rfl, rfl, .inr rfl⟩
  | env henv => exact henv.elim

/-- Alone, a single transaction commits as its body says or changes nothing. -/
lemma Exec.atomic_inv {body : σ → Except ε (α × σ)} {s s' : σ} {tr : List (Event σ)}
    {o : Option (Except ε α)} (h : Exec (.alone fault) (.atomic body) s tr o s') :
    (∃ a, body s = .ok (a, s') ∧ Event.own s s' ∈ tr ∧ ∀ b, o = some (.ok b) → b = a) ∨
      (s' = s ∧ ∀ b, o ≠ some (.ok b)) := by
  cases h with
  | stop => exact .inr ⟨rfl, by simp⟩
  | env henv => exact henv.elim
  | txn hbody hnext =>
    obtain ⟨-, rfl, ho⟩ := hnext.done_inv
    cases hbody with
    | commit hb => exact .inl ⟨_, hb, by simp, by rcases ho with rfl | rfl <;> simp⟩
    | abort hb => exact .inr ⟨rfl, by rcases ho with rfl | rfl <;> simp⟩
    | fail => exact .inr ⟨rfl, by rcases ho with rfl | rfl <;> simp⟩
    | lost hb => exact .inl ⟨_, hb, by simp, by rcases ho with rfl | rfl <;> simp⟩

end Alone

/-! ## Guarantees -/

/-- Every transaction of the program, wherever the exceptions and answers lead it, relates
the state before its commit to the state after it by `G`. -/
def Prog.Guarantees (G : σ → σ → Prop) : Prog σ ε α → Prop
  | .done _ => True
  | .txn body next =>
      (∀ s b s', body s = .ok (b, s') → G s s') ∧ ∀ r, (next r).Guarantees G

section Guarantees

variable {G : σ → σ → Prop}

@[simp] lemma guarantees_done (r : Except ε α) : (done r : Prog σ ε α).Guarantees G := trivial

@[simp] lemma guarantees_pure (a : α) : (pure a : Prog σ ε α).Guarantees G := trivial

@[simp] lemma guarantees_compute (r : Except ε α) :
    (compute r : Prog σ ε α).Guarantees G := trivial

@[simp] lemma guarantees_ensure (c : Prop) [Decidable c] (e : ε) :
    (ensure c e : Prog σ ε Unit).Guarantees G := by
  unfold ensure
  split <;> trivial

lemma guarantees_atomic {body : σ → Except ε (α × σ)}
    (h : ∀ s b s', body s = .ok (b, s') → G s s') : (atomic body).Guarantees G :=
  ⟨h, fun _ => trivial⟩

lemma guarantees_bind {p : Prog σ ε α} {k : α → Prog σ ε β} (hp : p.Guarantees G)
    (hk : ∀ a, (k a).Guarantees G) : (p >>= k).Guarantees G := by
  change (p.bind k).Guarantees G
  induction p with
  | done r =>
    cases r with
    | ok a => exact hk a
    | error e => trivial
  | txn body next ih => exact ⟨hp.1, fun r => ih r (hp.2 r)⟩

lemma guarantees_tryCatch {p : Prog σ ε α} {handler : ε → Prog σ ε α}
    (hp : p.Guarantees G) (hh : ∀ e, (handler e).Guarantees G) :
    (p.tryCatch handler).Guarantees G := by
  induction p with
  | done r =>
    cases r with
    | ok a => trivial
    | error e => exact hh e
  | txn body next ih => exact ⟨hp.1, fun r => ih r (hp.2 r)⟩

lemma guarantees_finallyDo {p : Prog σ ε α} (hp : p.Guarantees G) (c : Except ε Unit) :
    (p.finallyDo (compute c)).Guarantees G := by
  induction p with
  | done r => trivial
  | txn body next ih => exact ⟨hp.1, fun r => ih r (hp.2 r)⟩

lemma guarantees_mono {G' : σ → σ → Prop} {p : Prog σ ε α} (hp : p.Guarantees G)
    (h : ∀ s s', G s s' → G' s s') : p.Guarantees G' := by
  induction p with
  | done r => trivial
  | txn body next ih =>
    exact ⟨fun s b s' hbody => h s s' (hp.1 s b s' hbody), fun r => ih r (hp.2 r)⟩

end Guarantees

/-- A history leads from one state to another: the own commits are related by `G`, those
of the others by `E`, and each commit starts where the one before it ended. -/
inductive Linked (E G : σ → σ → Prop) : σ → List (Event σ) → σ → Prop where
  | nil (s : σ) : Linked E G s [] s
  | own {s s₁ s' : σ} {tr : List (Event σ)} (h : G s s₁) (hrest : Linked E G s₁ tr s') :
      Linked E G s (.own s s₁ :: tr) s'
  | env {s s₁ s' : σ} {tr : List (Event σ)} (h : E s s₁) (hrest : Linked E G s₁ tr s') :
      Linked E G s (.env s s₁ :: tr) s'

/-- What a program guarantees of each transaction holds along each of its executions. -/
theorem Exec.linked {G : σ → σ → Prop} {p : Prog σ ε α} {s s' : σ} {tr : List (Event σ)}
    {o : Option (Except ε α)} (h : Exec W p s tr o s') (hp : p.Guarantees G) :
    Linked W.env G s tr s' := by
  induction h with
  | done r s => exact .nil s
  | stop p s => exact .nil s
  | env henv hnext ih => exact .env henv (ih hp)
  | txn hbody hnext ih =>
    have hrest := ih (hp.2 _)
    cases hbody with
    | commit hb => exact .own (hp.1 _ _ _ hb) hrest
    | abort => exact hrest
    | fail => exact hrest
    | lost hb => exact .own (hp.1 _ _ _ hb) hrest

namespace Linked

variable {E G : σ → σ → Prop}

/-- A history can be cut at any commit. -/
lemma append_inv {s s' : σ} {tr₁ tr₂ : List (Event σ)} (h : Linked E G s (tr₁ ++ tr₂) s') :
    ∃ s₁, Linked E G s tr₁ s₁ ∧ Linked E G s₁ tr₂ s' := by
  induction tr₁ generalizing s with
  | nil => exact ⟨s, .nil s, h⟩
  | cons ev tr₁ ih =>
    cases h with
    | own hG hrest =>
      obtain ⟨s₁, h₁, h₂⟩ := ih hrest
      exact ⟨s₁, .own hG h₁, h₂⟩
    | env hE hrest =>
      obtain ⟨s₁, h₁, h₂⟩ := ih hrest
      exact ⟨s₁, .env hE h₁, h₂⟩

/-- What every commit preserves holds at the end of a history. -/
lemma invariant {I : σ → Prop} (hG : ∀ a b, G a b → I a → I b)
    (hE : ∀ a b, E a b → I a → I b) {s s' : σ} {tr : List (Event σ)}
    (h : Linked E G s tr s') (hs : I s) : I s' := by
  induction h with
  | nil s => exact hs
  | own h _ ih => exact ih (hG _ _ h hs)
  | env h _ ih => exact ih (hE _ _ h hs)

/-- What every commit preserves holds just before each own commit, which is related by
`G` to the state after it. -/
lemma own_mem {I : σ → Prop} (hG : ∀ a b, G a b → I a → I b)
    (hE : ∀ a b, E a b → I a → I b) {s s' a b : σ} {tr : List (Event σ)}
    (h : Linked E G s tr s') (hs : I s) (hmem : Event.own a b ∈ tr) : I a ∧ G a b := by
  induction h with
  | nil s => simp at hmem
  | own h _ ih =>
    rcases List.mem_cons.1 hmem with heq | hmem
    · cases heq
      exact ⟨hs, h⟩
    · exact ih (hG _ _ h hs) hmem
  | env h _ ih =>
    rcases List.mem_cons.1 hmem with heq | hmem
    · cases heq
    · exact ih (hE _ _ h hs) hmem

/-- What holds before an own commit and every commit preserves holds at the end. -/
lemma of_own_mem {I : σ → Prop} (hG : ∀ a b, G a b → I a → I b)
    (hE : ∀ a b, E a b → I a → I b) {s s' a b : σ} {tr : List (Event σ)}
    (h : Linked E G s tr s') (hmem : Event.own a b ∈ tr) (ha : I a) : I s' := by
  induction h with
  | nil s => simp at hmem
  | own h hrest ih =>
    rcases List.mem_cons.1 hmem with heq | hmem
    · cases heq
      exact hrest.invariant hG hE (hG _ _ h ha)
    · exact ih hmem
  | env h _ ih => exact ih ((List.mem_cons.1 hmem).resolve_left nofun)

end Linked

end Transaction
