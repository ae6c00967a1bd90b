import MailGate.Lib.Transaction

/-!
# A transaction statement by statement

A block of statements in one transaction is itself a program: each statement sees what the
statements before it have written, and each may fail.  The block commits what it has written
when it returns, and it rolls everything back when it raises, when the commit is refused and
when the client is killed.
-/

namespace Transaction

variable {σ ε α β : Type}

/-! ## Programs that catch nothing -/

/-- An exception of a statement ends the program. -/
def Prog.Straight : Prog σ ε α → Prop
  | .done _ => True
  | .txn _ next => (∀ e, next (.error e) = .done (.error e)) ∧ ∀ b, (next (.ok b)).Straight

@[simp] lemma straight_done (r : Except ε α) : (Prog.done r : Prog σ ε α).Straight := trivial

@[simp] lemma straight_pure (a : α) : (pure a : Prog σ ε α).Straight := trivial

@[simp] lemma straight_compute (r : Except ε α) : (Prog.compute r : Prog σ ε α).Straight :=
  trivial

@[simp] lemma straight_atomic (body : σ → Except ε (α × σ)) : (Prog.atomic body).Straight :=
  ⟨fun _ => rfl, fun _ => trivial⟩

lemma straight_bind {p : Prog σ ε α} {k : α → Prog σ ε β} (hp : p.Straight)
    (hk : ∀ a, (k a).Straight) : (p >>= k).Straight := by
  change (p.bind k).Straight
  induction p with
  | done r =>
    cases r with
    | ok a => exact hk a
    | error e => trivial
  | txn body next ih =>
    constructor
    · intro e
      show (next (.error e)).bind k = _
      rw [hp.1 e]
      rfl
    · intro b
      exact ih (.ok b) (hp.2 b)

section Alone

variable {fault : ε → Prop} {p : Prog σ ε α} {s s' : σ} {tr : List (Event σ)}

/-- With nobody else on the state, a program that catches nothing returns what it returns
when nothing fails, or it raises, by a fault or as it does when nothing fails. -/
lemma Exec.straight {o : Option (Except ε α)} (hp : p.Straight)
    (h : Exec (.alone fault) p s tr o s') :
    (∃ a, o = some (.ok a) ∧ p.run s = (.ok a, s')) ∨ o = none ∨
      ∃ e, o = some (.error e) ∧ (fault e ∨ (p.run s).1 = .error e) := by
  induction h with
  | done r s =>
    cases r with
    | ok a => exact .inl ⟨a, rfl, rfl⟩
    | error e => exact .inr (.inr ⟨e, rfl, .inr rfl⟩)
  | stop p s => exact .inr (.inl rfl)
  | env henv => exact henv.elim
  | @txn γ body next s s₁ s' ev tr r o hbody hnext ih =>
    obtain ⟨herror, hok⟩ := hp
    -- an exception of the statement is the outcome of the program
    have hraised : ∀ e, r = .error e → o = none ∨ o = some (.error e) := by
      rintro e rfl
      rw [herror e] at hnext
      exact hnext.done_noOwn.2.symm
    cases hbody with
    | commit hb =>
      rw [Prog.run, hb]
      exact ih (hok _)
    | abort hb =>
      rcases hraised _ rfl with rfl | rfl
      · exact .inr (.inl rfl)
      · refine .inr (.inr ⟨_, rfl, .inr ?_⟩)
        rw [Prog.run, hb]
        show ((next (.error _)).run _).1 = _
        rw [herror]
        rfl
    | fail hfault =>
      rcases hraised _ rfl with rfl | rfl
      · exact .inr (.inl rfl)
      · exact .inr (.inr ⟨_, rfl, .inl hfault⟩)
    | lost hb hfault =>
      rcases hraised _ rfl with rfl | rfl
      · exact .inr (.inl rfl)
      · exact .inr (.inr ⟨_, rfl, .inl hfault⟩)

end Alone

/-! ## Blocks -/

/-- `Block fault p s o s'`: the statements of `p`, as one transaction that nobody else
disturbs, lead from the state `s` to the committed state `s'` with the outcome `o`. -/
inductive Block (fault : ε → Prop) (p : Prog σ ε α) (s : σ) :
    Option (Except ε α) → σ → Prop where
  | commit {a : α} {s' : σ} {tr : List (Event σ)}
      (h : Exec (.alone fault) p s tr (some (.ok a)) s') : Block fault p s (some (.ok a)) s'
  /-- The block has raised. -/
  | rollback {e : ε} {s' : σ} {tr : List (Event σ)}
      (h : Exec (.alone fault) p s tr (some (.error e)) s') : Block fault p s (some (.error e)) s
  /-- The block has returned, but the commit fails. -/
  | refused {a : α} {e : ε} {s' : σ} {tr : List (Event σ)}
      (h : Exec (.alone fault) p s tr (some (.ok a)) s') (hfault : fault e) :
      Block fault p s (some (.error e)) s
  | killed {o : Option (Except ε α)} {s' : σ} {tr : List (Event σ)}
      (h : Exec (.alone fault) p s tr o s') : Block fault p s none s

namespace Block

variable {fault : ε → Prop} {p : Prog σ ε α} {s s' : σ} {o : Option (Except ε α)}

/-- A block that returns undisturbed can be committed. -/
lemma of_run {a : α} (h : p.run s = (.ok a, s')) : Block fault p s (some (.ok a)) s' := by
  obtain ⟨tr, hexec⟩ := Exec.of_run (W := .alone fault) p s
  rw [h] at hexec
  exact .commit hexec

/-- A block of statements that catches nothing commits what it computes undisturbed, or it
changes nothing. -/
theorem outcome (hp : p.Straight) (h : Block fault p s o s') :
    (∃ a, o = some (.ok a) ∧ p.run s = (.ok a, s')) ∨
      s' = s ∧ (o = none ∨ ∃ e, o = some (.error e) ∧ (fault e ∨ (p.run s).1 = .error e)) := by
  cases h with
  | commit h =>
    rcases h.straight hp with ⟨a, ho, hrun⟩ | ho | ⟨e, ho, -⟩
    · exact .inl ⟨a, ho, hrun⟩
    · cases ho
    · cases ho
  | rollback h =>
    rcases h.straight hp with ⟨a, ho, -⟩ | ho | ⟨e, ho, hraised⟩
    · cases ho
    · cases ho
    · exact .inr ⟨rfl, .inr ⟨e, ho, hraised⟩⟩
  | refused h hfault => exact .inr ⟨rfl, .inr ⟨_, rfl, .inl hfault⟩⟩
  | killed h => exact .inr ⟨rfl, .inl rfl⟩

end Block

end Transaction
