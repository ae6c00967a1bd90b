import MailGate.Lib.Block

/-!
# Clients that run blocks of statements

A client runs one block of statements after the other, each in a transaction of its own.  A
statement outside of all blocks commits alone.  Any statement and any commit may fail, and the
client may be killed anywhere.
-/

namespace Transaction

variable {σ ε α β : Type}

/-! ## A block as one transaction -/

namespace Prog

/-- What the statements do together when nothing fails. -/
def whole (p : Prog σ ε α) (s : σ) : Except ε (α × σ) :=
  match p.run s with
  | (.ok a, s') => .ok (a, s')
  | (.error e, _) => .error e

lemma whole_eq_ok {p : Prog σ ε α} {s s' : σ} {a : α} :
    p.whole s = .ok (a, s') ↔ p.run s = (.ok a, s') := by
  unfold whole
  split
  · next b s₁ hrun => simp [hrun]
  · next e s₁ hrun => simp [hrun]

@[simp] lemma whole_pure (a : α) (s : σ) : (pure a : Prog σ ε α).whole s = .ok (a, s) := rfl

@[simp] lemma whole_compute (r : Except ε α) (s : σ) :
    (compute r).whole s = r.map fun a => (a, s) := by
  cases r <;> rfl

@[simp] lemma whole_atomic (body : σ → Except ε (α × σ)) (s : σ) :
    (atomic body).whole s = body s := by
  unfold whole atomic run
  cases body s <;> rfl

/-- One statement, and then the others on what it has left. -/
@[simp] lemma whole_atomic_bind (body : σ → Except ε (β × σ)) (k : β → Prog σ ε α) (s : σ) :
    (atomic body >>= k).whole s =
      match body s with
      | .ok (b, s') => (k b).whole s'
      | .error e => .error e := by
  unfold whole
  rw [run_bind]
  unfold atomic run
  cases body s <;> rfl

end Prog

/-! ## Clients -/

/-- A client whose transactions are blocks of statements. -/
inductive Session (σ ε α : Type) : Type 1 where
  /-- The client has returned or raised. -/
  | done (result : Except ε α)
  | block {β : Type} (p : Prog σ ε β) (next : Except ε β → Session σ ε α)

namespace Session

/-- Sequential composition: an exception skips the continuation. -/
def bind : Session σ ε α → (α → Session σ ε β) → Session σ ε β
  | done (.ok a), k => k a
  | done (.error e), _ => done (.error e)
  | block p next, k => block p fun r => (next r).bind k

instance : Monad (Session σ ε) where
  pure a := done (.ok a)
  bind := bind

/-- A block of statements, committed as a whole. -/
def transaction (p : Prog σ ε α) : Session σ ε α := block p done

/-- A statement outside of all blocks. -/
def statement (body : σ → Except ε (α × σ)) : Session σ ε α := transaction (.atomic body)

/-- A program whose transactions are single statements. -/
def ofProg : Prog σ ε α → Session σ ε α
  | .done r => done r
  | .txn body next => block (.atomic body) fun r => ofProg (next r)

@[simp] lemma ofProg_pure (a : α) : ofProg (pure a : Prog σ ε α) = pure a := rfl

@[simp] lemma ofProg_compute (r : Except ε α) : ofProg (.compute r : Prog σ ε α) = done r := rfl

@[simp] lemma ofProg_atomic_bind (body : σ → Except ε (β × σ)) (k : β → Prog σ ε α) :
    ofProg (.atomic body >>= k) = statement body >>= fun b => ofProg (k b) := by
  show block _ _ = block _ _
  congr 1
  ext r
  cases r <;> rfl

@[simp] lemma pure_bind (a : α) (k : α → Session σ ε β) :
    (pure a : Session σ ε α) >>= k = k a := rfl

/-- The execution in which nobody interferes and nothing fails. -/
def run : Session σ ε α → σ → Except ε α × σ
  | done r, s => (r, s)
  | block p next, s =>
      match p.run s with
      | (.ok b, s') => (next (.ok b)).run s'
      | (.error e, _) => (next (.error e)).run s

/-- `Runs fault c s o s'`: from the state `s` the client can come to the state `s'` with the
outcome `o`, where `none` stands for a client that was killed. -/
inductive Runs (fault : ε → Prop) : Session σ ε α → σ → Option (Except ε α) → σ → Prop where
  | done (r : Except ε α) (s : σ) : Runs fault (.done r) s (some r) s
  | stop (c : Session σ ε α) (s : σ) : Runs fault c s none s
  | block {γ : Type} {p : Prog σ ε γ} {next : Except ε γ → Session σ ε α} {s s₁ s' : σ}
      {r : Except ε γ} {o : Option (Except ε α)} (hblock : Block fault p s (some r) s₁)
      (hnext : Runs fault (next r) s₁ o s') : Runs fault (.block p next) s o s'
  /-- The block is committed, but the client never hears of it. -/
  | lost {γ : Type} {p : Prog σ ε γ} {next : Except ε γ → Session σ ε α} {s s₁ s' : σ}
      {b : γ} {e : ε} {o : Option (Except ε α)} (hblock : Block fault p s (some (.ok b)) s₁)
      (hfault : fault e) (hnext : Runs fault (next (.error e)) s₁ o s') :
      Runs fault (.block p next) s o s'

variable {fault : ε → Prop} {G : σ → σ → Prop} {s s' : σ}

lemma runs_done_eq {r : Except ε α} {o : Option (Except ε α)}
    (h : Runs fault (.done r) s o s') : s' = s := by
  cases h with
  | done => rfl
  | stop => rfl

lemma runs_statement {body : σ → Except ε (β × σ)} {k : β → Session σ ε α} {b : β} {s₁ : σ}
    {o : Option (Except ε α)} (hbody : body s = .ok (b, s₁)) (hk : Runs fault (k b) s₁ o s') :
    Runs fault (statement body >>= k) s o s' := by
  refine .block (r := .ok b) (.of_run (Prog.whole_eq_ok.1 ?_)) hk
  rw [Prog.whole_atomic]
  exact hbody

lemma runs_statement_fails {body : σ → Except ε (β × σ)} {k : β → Session σ ε α} {e : ε}
    (hfault : fault e) : Runs fault (statement body >>= k) s (some (.error e)) s :=
  .block (r := .error e) (.rollback (.txn (.fail hfault) (.done _ _))) (.done _ _)

/-! ## One write at most -/

/-- From the state `s`, the client reads in some blocks and then writes, as `G` says, in one block,
with which it ends. -/
def OneStep (G : σ → σ → Prop) (s : σ) : Session σ ε α → Prop
  | .done _ => True
  | .block p next =>
      p.Straight ∧ (∀ e, next (.error e) = .done (.error e)) ∧
        ∀ b s', p.run s = (.ok b, s') →
          s' = s ∧ (next (.ok b)).OneStep G s ∨ G s s' ∧ ∃ r, next (.ok b) = .done r

@[simp] lemma oneStep_done (r : Except ε α) : (done r : Session σ ε α).OneStep G s := trivial

@[simp] lemma oneStep_pure (a : α) : (pure a : Session σ ε α).OneStep G s := trivial

/-- A statement that only reads comes first. -/
lemma oneStep_statement {body : σ → Except ε (β × σ)} {k : β → Session σ ε α}
    (hk : ∀ b s', body s = .ok (b, s') → s' = s ∧ (k b).OneStep G s) :
    (statement body >>= k).OneStep G s := by
  refine ⟨straight_atomic body, fun _ => rfl, fun b s' hrun => .inl (hk b s' ?_)⟩
  rw [← Prog.whole_atomic body]
  exact Prog.whole_eq_ok.2 hrun

/-- A block that writes comes last. -/
lemma oneStep_block {p : Prog σ ε β} {next : Except ε β → Session σ ε α} (hp : p.Straight)
    (hG : ∀ b s', p.whole s = .ok (b, s') → s' = s ∨ G s s')
    (herror : ∀ e, next (.error e) = done (.error e)) (hend : ∀ b, ∃ r, next (.ok b) = done r) :
    (block p next).OneStep G s := by
  refine ⟨hp, herror, fun b s' hrun => ?_⟩
  obtain ⟨r, hr⟩ := hend b
  rcases hG b s' (Prog.whole_eq_ok.2 hrun) with heq | hwrite
  · rw [hr]
    exact .inl ⟨heq, trivial⟩
  · exact .inr ⟨hwrite, r, hr⟩

lemma oneStep_transaction {p : Prog σ ε β} {k : β → Session σ ε α} (hp : p.Straight)
    (hG : ∀ b s', p.whole s = .ok (b, s') → s' = s ∨ G s s') (hk : ∀ b, ∃ r, k b = done r) :
    (transaction p >>= k).OneStep G s :=
  oneStep_block hp hG (fun _ => rfl) hk

/-- Whatever fails, such a client has done everything or nothing. -/
theorem OneStep.outcome {c : Session σ ε α} {o : Option (Except ε α)} (hc : c.OneStep G s)
    (h : Runs fault c s o s') : s' = s ∨ s' = (c.run s).2 ∧ G s s' := by
  induction h with
  | done r s => exact .inl rfl
  | stop c s => exact .inl rfl
  | @block γ p next s s₁ s' r o hblock hnext ih =>
    obtain ⟨hp, herror, hok⟩ := hc
    rcases hblock.outcome hp with ⟨b, hr, hrun⟩ | ⟨rfl, hr | ⟨e, hr, -⟩⟩
    · cases hr
      rcases hok b s₁ hrun with ⟨rfl, hrest⟩ | ⟨hG, r', hend⟩
      · rw [run, hrun]
        exact ih hrest
      · -- the block that writes is the last one
        rw [hend] at hnext
        rw [run, hrun, runs_done_eq hnext]
        dsimp only
        rw [hend]
        exact .inr ⟨rfl, hG⟩
    · cases hr
    · cases hr
      rw [herror] at hnext
      exact .inl (runs_done_eq hnext)
  | @lost γ p next s s₁ s' b e o hblock hfault hnext ih =>
    obtain ⟨hp, herror, hok⟩ := hc
    rcases hblock.outcome hp with ⟨b', hr, hrun⟩ | ⟨-, hr | ⟨e', hr, -⟩⟩
    · cases hr
      rw [herror] at hnext
      rw [runs_done_eq hnext]
      rcases hok b s₁ hrun with ⟨rfl, -⟩ | ⟨hG, r', hend⟩
      · exact .inl rfl
      · rw [run, hrun]
        dsimp only
        rw [hend]
        exact .inr ⟨rfl, hG⟩
    · cases hr
    · cases hr

end Session

end Transaction
