import Mathlib.Logic.Relation
import MailGate.Lib.Pool

/-!
# Rely and guarantee

What a client of a shared state achieves while others work on the same state.  A postcondition
speaks of the outcome of the client, of the commits it has made itself, and of the state; the
commits of the others are those of the world that the client runs in.  For a pool, the world of
each client consists of what the other clients guarantee.
-/

namespace Transaction

open Prog Runs Relation

variable {σ ε α β ι : Type}

namespace Prog

lemma bind_eq_handle (p : Prog σ ε α) (k : α → Prog σ ε β) :
    p >>= k = p.handle fun
      | .ok a => k a
      | .error e => done (.error e) := by
  show p.bind k = _
  induction p with
  | done r => cases r <;> rfl
  | txn body next ih =>
    simp only [Prog.bind, handle]
    congr
    ext r
    exact ih r

lemma tryCatch_eq_handle (p : Prog σ ε α) (handler : ε → Prog σ ε α) :
    p.tryCatch handler = p.handle fun
      | .ok a => done (.ok a)
      | .error e => handler e := by
  induction p with
  | done r => cases r <;> rfl
  | txn body next ih =>
    simp only [Prog.tryCatch, handle]
    congr
    ext r
    exact ih r

end Prog

/-- The terms on which a client runs: the world, which of its commits are considered, and what
it promises of these. -/
structure Terms (σ ε : Type) where
  world : World σ ε
  considered : σ → σ → Prop
  guarantee : σ → σ → Prop

/-- Nobody else is at work, and nothing is promised. -/
def Terms.alone (fault : ε → Prop) : Terms σ ε := ⟨.alone fault, fun _ _ => True, fun _ _ => True⟩

/-- A predicate of the client's own commits so far and of the state. -/
abbrev Assertion (σ : Type) : Type := List (σ × σ) → σ → Prop

/-- The commits of others lead from one state to the other. -/
abbrev Terms.Rely (T : Terms σ ε) : σ → σ → Prop := ReflTransGen T.world.env

/-- `WP T Q p own s`: from the state `s`, after the own commits `own`, the program keeps its
promises, and where it ends, it ends in `Q`, whatever the others do meanwhile. -/
def WP (T : Terms σ ε) (Q : Except ε α → Assertion σ) : Prog σ ε α → Assertion σ
  | .done r, own, s => ∀ s₁, T.Rely s s₁ → Q r own s₁
  | .txn body next, own, s => ∀ s₁, T.Rely s s₁ →
      (∀ b s₂, body s₁ = .ok (b, s₂) → T.considered s₁ s₂ →
        T.guarantee s₁ s₂ ∧ WP T Q (next (.ok b)) (own ++ [(s₁, s₂)]) s₂ ∧
          ∀ e, T.world.fault e → WP T Q (next (.error e)) (own ++ [(s₁, s₂)]) s₂) ∧
      ∀ e, body s₁ = .error e ∨ T.world.fault e → WP T Q (next (.error e)) own s₁

variable {T : Terms σ ε} {Q Q' : Except ε α → Assertion σ} {p : Prog σ ε α}
  {own : List (σ × σ)} {s s' : σ}

/-! ## Rules -/

/-- What holds of a program still holds after commits of others. -/
lemma WP.rely (h : WP T Q p own s) (hrely : T.Rely s s') : WP T Q p own s' := by
  cases p with
  | done r => exact fun s₁ h₁ => h s₁ (hrely.trans h₁)
  | txn body next => exact fun s₁ h₁ => h s₁ (hrely.trans h₁)

lemma WP.mono (hQ : ∀ r own s, Q r own s → Q' r own s) (h : WP T Q p own s) :
    WP T Q' p own s := by
  induction p generalizing own s with
  | done r => exact fun s₁ h₁ => hQ _ _ _ (h s₁ h₁)
  | txn body next ih =>
    intro s₁ h₁
    obtain ⟨hok, herror⟩ := h s₁ h₁
    refine ⟨fun b s₂ hbody hconsidered => ?_, fun e he => ih _ (herror e he)⟩
    obtain ⟨hguarantee, hnext, hlost⟩ := hok b s₂ hbody hconsidered
    exact ⟨hguarantee, ih _ hnext, fun e he => ih _ (hlost e he)⟩

/-- A program that goes on after another one. -/
lemma WP.handle {Q : Except ε β → Assertion σ} {k : Except ε α → Prog σ ε β}
    (h : WP T (fun r own s => WP T Q (k r) own s) p own s) : WP T Q (p.handle k) own s := by
  induction p generalizing own s with
  | done r => exact h s .refl
  | txn body next ih =>
    intro s₁ h₁
    obtain ⟨hok, herror⟩ := h s₁ h₁
    refine ⟨fun b s₂ hbody hconsidered => ?_, fun e he => ih _ (herror e he)⟩
    obtain ⟨hguarantee, hnext, hlost⟩ := hok b s₂ hbody hconsidered
    exact ⟨hguarantee, ih _ hnext, fun e he => ih _ (hlost e he)⟩

lemma WP.bind {Q : Except ε β → Assertion σ} {k : α → Prog σ ε β}
    (h : WP T (fun r own s => match r with
      | .ok a => WP T Q (k a) own s
      | .error e => WP T Q (.done (.error e)) own s) p own s) :
    WP T Q (p >>= k) own s := by
  rw [Prog.bind_eq_handle]
  refine WP.handle (h.mono fun r own s hr => ?_)
  cases r with
  | ok a => exact hr
  | error e => exact hr

lemma WP.tryCatch {handler : ε → Prog σ ε α}
    (h : WP T (fun r own s => match r with
      | .ok a => WP T Q (.done (.ok a)) own s
      | .error e => WP T Q (handler e) own s) p own s) :
    WP T Q (p.tryCatch handler) own s := by
  rw [Prog.tryCatch_eq_handle]
  refine WP.handle (h.mono fun r own s hr => ?_)
  cases r with
  | ok a => exact hr
  | error e => exact hr

/-- Where a program ends, it also ends after further commits of others. -/
lemma WP.settled (h : WP T Q p own s) :
    WP T (fun r own s => WP T Q (.done r) own s) p own s := by
  induction p generalizing own s with
  | done r => exact fun s₁ h₁ s₂ h₂ => h s₂ (h₁.trans h₂)
  | txn body next ih =>
    intro s₁ h₁
    obtain ⟨hok, herror⟩ := h s₁ h₁
    refine ⟨fun b s₂ hbody hconsidered => ?_, fun e he => ih _ (herror e he)⟩
    obtain ⟨hguarantee, hnext, hlost⟩ := hok b s₂ hbody hconsidered
    exact ⟨hguarantee, ih _ hnext, fun e he => ih _ (hlost e he)⟩

lemma WP.finallyDo {cleanup : Prog σ ε Unit}
    (h : WP T (fun r own s => WP T (fun c => Q (Prog.afterCleanup r c)) cleanup own s) p own s) :
    WP T Q (p.finallyDo cleanup) own s :=
  WP.handle (h.mono fun _ _ _ hr => WP.handle (hr.settled.mono fun _ _ _ hc => hc))

/-! ## States that the others leave alone -/

/-- The others leave this state as it is. -/
def Terms.Quiet (T : Terms σ ε) (s : σ) : Prop := ∀ s', T.world.env s s' → s' = s

lemma Terms.Quiet.eq (hs : T.Quiet s) (hrely : T.Rely s s') : s' = s := by
  induction hrely with
  | refl => rfl
  | tail _ henv ih =>
    subst ih
    exact hs _ henv

lemma Terms.alone_quiet (fault : ε → Prop) (s : σ) : (Terms.alone fault).Quiet s :=
  fun _ henv => henv.elim

lemma WP.done_quiet {r : Except ε α} (hs : T.Quiet s) (h : Q r own s) :
    WP T Q (.done r) own s := by
  intro s₁ h₁
  rw [hs.eq h₁]
  exact h

/-- One transaction in a state that the others leave alone. -/
lemma WP.atomic_quiet {body : σ → Except ε (α × σ)} (hs : T.Quiet s)
    (hok : ∀ b s₂, body s = .ok (b, s₂) → T.considered s s₂ → T.guarantee s s₂ ∧ T.Quiet s₂ ∧
      ∀ r, r = .ok b ∨ (∃ e, r = .error e) → Q r (own ++ [(s, s₂)]) s₂)
    (herror : ∀ e, Q (.error e) own s) : WP T Q (.atomic body) own s := by
  intro s₁ h₁
  obtain rfl := hs.eq h₁
  refine ⟨fun b s₂ hbody hconsidered => ?_, fun e _ => WP.done_quiet hs (herror e)⟩
  obtain ⟨hguarantee, hquiet, hQ⟩ := hok b s₂ hbody hconsidered
  exact ⟨hguarantee, WP.done_quiet hquiet (hQ _ (.inl rfl)),
    fun e _ => WP.done_quiet hquiet (hQ _ (.inr ⟨e, rfl⟩))⟩

/-! ## Soundness -/

/-- The own commits in a history. -/
def ownCommits : List (Event σ) → List (σ × σ)
  | [] => []
  | .own a b :: tr => (a, b) :: ownCommits tr
  | .env _ _ :: tr => ownCommits tr

lemma ownCommits_append (tr₁ tr₂ : List (Event σ)) :
    ownCommits (tr₁ ++ tr₂) = ownCommits tr₁ ++ ownCommits tr₂ := by
  induction tr₁ with
  | nil => rfl
  | cons ev tr₁ ih =>
    cases ev with
    | own a b => simp [ownCommits, ih]
    | env a b => simpa [ownCommits] using ih

/-- One transaction of a program that meets its postcondition. -/
lemma WP.answer {γ : Type} {body : σ → Except ε (γ × σ)} {next : Except ε γ → Prog σ ε α}
    {ev : List (Event σ)} {r : Except ε γ} (h : WP T Q (.txn body next) own s)
    (hanswer : Answer T.world body s ev r s')
    (hconsidered : ∀ c ∈ ownCommits ev, T.considered c.1 c.2) :
    (∀ c ∈ ownCommits ev, T.guarantee c.1 c.2) ∧
      WP T Q (next r) (own ++ ownCommits ev) s' := by
  obtain ⟨hok, herror⟩ := h s .refl
  cases hanswer with
  | commit hbody =>
    obtain ⟨hguarantee, hnext, -⟩ := hok _ _ hbody (hconsidered (s, s') (by simp [ownCommits]))
    exact ⟨by simpa [ownCommits] using hguarantee, hnext⟩
  | abort hbody => exact ⟨by simp [ownCommits], by simpa [ownCommits] using herror _ (.inl hbody)⟩
  | fail hfault => exact ⟨by simp [ownCommits], by simpa [ownCommits] using herror _ (.inr hfault)⟩
  | lost hbody hfault =>
    obtain ⟨hguarantee, -, hlost⟩ := hok _ _ hbody (hconsidered (s, s') (by simp [ownCommits]))
    exact ⟨by simpa [ownCommits] using hguarantee, hlost _ hfault⟩

/-- An execution that ends, ends in the postcondition. -/
theorem WP.exec {tr : List (Event σ)} {o : Option (Except ε α)} (h : Exec T.world p s tr o s')
    (hp : WP T Q p own s) (hconsidered : ∀ c ∈ ownCommits tr, T.considered c.1 c.2) :
    ∀ r, o = some r → Q r (own ++ ownCommits tr) s' := by
  induction h generalizing own with
  | done r s =>
    rintro r' ⟨⟩
    simpa [ownCommits] using hp s .refl
  | stop p s => simp
  | @txn γ body next s s₁ s' ev tr r o hanswer hnext ih =>
    rw [ownCommits_append] at hconsidered
    obtain ⟨-, hrest⟩ := hp.answer hanswer fun c hc => hconsidered c (by simp [hc])
    rw [ownCommits_append, ← List.append_assoc]
    exact ih hrest fun c hc => hconsidered c (by simp [hc])
  | env henv hnext ih => exact ih (hp.rely (.single henv)) hconsidered

/-- A client that was killed could have gone on alone to its end. -/
lemma Exec.finish {W : World σ ε} {tr : List (Event σ)} {o : Option (Except ε α)}
    (h : Exec W p s tr o s') : ∃ tr' r s₁, Exec W p s (tr ++ tr') (some r) s₁ := by
  induction h with
  | done r s => exact ⟨[], r, s, .done r s⟩
  | stop p s =>
    obtain ⟨tr', h⟩ := Exec.of_run p s
    exact ⟨tr', _, _, h⟩
  | txn hbody _ ih =>
    obtain ⟨tr', r, s₁, h⟩ := ih
    exact ⟨tr', r, s₁, List.append_assoc _ _ _ ▸ .txn hbody h⟩
  | env henv _ ih =>
    obtain ⟨tr', r, s₁, h⟩ := ih
    exact ⟨tr', r, s₁, .env henv h⟩

/-! ## Pools -/

/-- The terms of each client of a pool: the world is the given one and what the other clients
guarantee. -/
def Pool.terms (W : World σ ε) (considered guarantee : ι → σ → σ → Prop) (l : ι) : Terms σ ε where
  world := ⟨fun a b => W.env a b ∨ ∃ l', l' ≠ l ∧ guarantee l' a b, W.fault⟩
  considered := considered l
  guarantee := guarantee l

/-- The commits of a client in a step. -/
def Pool.commitsOf [DecidableEq ι] (l : ι) : PoolEvent σ ι → List (σ × σ)
  | .run l' ev => if l' = l then ownCommits ev else []
  | _ => []

/-- The commits of a client in a run. -/
def Pool.runCommits [DecidableEq ι] (l : ι) (tr : List (Taken (Pool σ ε α ι) (PoolEvent σ ι))) :
    List (σ × σ) :=
  tr.flatMap fun t => Pool.commitsOf l t.label

/-- Where nobody but the clients commits, a step leaves the state as it is, or it is the commit
of a client. -/
lemma Pool.Step.commits [DecidableEq ι] {fault : ε → Prop} {programs : ι → Prog σ ε α}
    {p p' : Pool σ ε α ι} {e : PoolEvent σ ι} (h : Pool.Step (.alone fault) programs e p p') :
    p'.state = p.state ∨ ∃ l, Pool.commitsOf l e = [(p.state, p'.state)] := by
  cases h with
  | start => exact .inl rfl
  | env henv => exact henv.elim
  | @run s s' l first rest β body next ev r hanswer =>
    cases hanswer with
    | commit => exact .inr ⟨l, by simp [Pool.commitsOf, ownCommits]⟩
    | abort => exact .inl rfl
    | fail => exact .inl rfl
    | lost => exact .inr ⟨l, by simp [Pool.commitsOf, ownCommits]⟩

section Pools

variable [DecidableEq ι] {W : World σ ε} {considered guarantee : ι → σ → σ → Prop}
  {ready : ι → σ → Prop} {programs : ι → Prog σ ε α} {Q : ι → Except ε α → Assertion σ}

/-- The state is ready for each client that has not started, and each of the others meets its
postcondition after the commits that it has made. -/
structure Pool.Meets (W : World σ ε) (considered guarantee : ι → σ → σ → Prop)
    (ready : ι → σ → Prop) (Q : ι → Except ε α → Assertion σ) (own : ι → List (σ × σ))
    (p : Pool σ ε α ι) : Prop where
  distinct : (p.clients.map (·.request)).Nodup
  fresh : ∀ l, l ∉ p.clients.map (·.request) → own l = [] ∧ ready l p.state
  client : ∀ c ∈ p.clients,
    WP (Pool.terms W considered guarantee c.request) (Q c.request) c.prog (own c.request) p.state

/-- One step keeps the promises. -/
lemma Pool.Meets.step
    (hready : ∀ l a b, (Pool.terms W considered guarantee l).world.env a b → ready l a → ready l b)
    (hprog : ∀ l s, ready l s →
      WP (Pool.terms W considered guarantee l) (Q l) (programs l) [] s)
    {own : ι → List (σ × σ)} {p p' : Pool σ ε α ι} {e : PoolEvent σ ι}
    (hp : p.Meets W considered guarantee ready Q own) (h : Pool.Step W programs e p p')
    (hconsidered : ∀ l, ∀ c ∈ Pool.commitsOf l e, considered l c.1 c.2) :
    (∀ l, ∀ c ∈ Pool.commitsOf l e, guarantee l c.1 c.2) ∧
      p'.Meets W considered guarantee ready Q fun l => own l ++ Pool.commitsOf l e := by
  have hkept : ∀ l a b, (Pool.terms W considered guarantee l).Rely a b → ready l a → ready l b := by
    intro l a b hrely ha
    induction hrely with
    | refl => exact ha
    | tail _ henv ih => exact hready l _ _ henv ih
  obtain ⟨hdistinct, hnew, hclient⟩ := hp
  cases h with
  | @start _ l hfresh =>
    refine ⟨by simp [Pool.commitsOf], ?_, ?_, ?_⟩
    · rw [List.map_append, List.map_singleton, List.nodup_append]
      refine ⟨hdistinct, List.nodup_singleton l, ?_⟩
      rintro a ha b hb rfl
      rw [List.mem_singleton.1 hb] at ha
      exact hfresh ha
    · intro l' hl'
      simp only [List.map_append, List.mem_append, not_or] at hl'
      simpa only [Pool.commitsOf, List.append_nil] using hnew l' hl'.1
    · intro c hc
      simp only [Pool.commitsOf, List.append_nil]
      rcases List.mem_append.1 hc with hc | hc
      · exact hclient c hc
      · rw [List.mem_singleton.1 hc, (hnew l hfresh).1]
        exact hprog l _ (hnew l hfresh).2
  | @run s s' l first rest β body next ev r hanswer =>
    have hown := hclient ⟨l, .txn body next⟩ (by simp)
    have hself : Pool.commitsOf l (.run l ev : PoolEvent σ ι) = ownCommits ev := by
      simp [Pool.commitsOf]
    have hother : ∀ l', l' ≠ l → Pool.commitsOf l' (.run l ev : PoolEvent σ ι) = [] := by
      intro l' hne
      simp [Pool.commitsOf, Ne.symm hne]
    have hworld : Answer (Pool.terms W considered guarantee l).world body s ev r s' := by
      cases hanswer with
      | commit hbody => exact .commit hbody
      | abort hbody => exact .abort hbody
      | fail hfault => exact .fail hfault
      | lost hbody hfault => exact .lost hbody hfault
    have hown' : ∀ c ∈ ownCommits ev, considered l c.1 c.2 := hself ▸ hconsidered l
    obtain ⟨hguarantee, hnext⟩ := hown.answer hworld hown'
    have hpromise : ∀ c ∈ ownCommits ev, guarantee l c.1 c.2 := hguarantee
    -- to the others, the step is a commit that this client guarantees, or none
    have hrely : ∀ l', l' ≠ l → (Pool.terms W considered guarantee l').Rely s s' := by
      intro l' hne
      cases hanswer with
      | commit hbody =>
        exact .single (.inr ⟨l, Ne.symm hne, hpromise (s, s') (by simp [ownCommits])⟩)
      | abort => exact .refl
      | fail => exact .refl
      | lost hbody =>
        exact .single (.inr ⟨l, Ne.symm hne, hpromise (s, s') (by simp [ownCommits])⟩)
    have hnodup := hdistinct
    simp only [List.map_append, List.map_cons, List.nodup_middle, List.nodup_cons,
      List.mem_append, not_or, List.mem_map, not_exists, not_and] at hnodup
    obtain ⟨⟨hfirst, hrest⟩, -⟩ := hnodup
    refine ⟨?_, by simpa using hdistinct, ?_, ?_⟩
    · intro l' c hc
      by_cases hl : l' = l
      · subst hl
        exact hpromise c (hself ▸ hc)
      · simp [hother l' hl] at hc
    · intro l' hl'
      simp only [List.map_append, List.map_cons, List.mem_append, List.mem_cons, not_or] at hl'
      obtain ⟨hnone, hstart⟩ := hnew l' (by simp [hl'.1, hl'.2.1, hl'.2.2])
      refine ⟨?_, hkept l' _ _ (hrely l' hl'.2.1) hstart⟩
      show own l' ++ Pool.commitsOf l' (.run l ev) = []
      rw [hother l' hl'.2.1, List.append_nil, hnone]
    · intro c hc
      simp only [List.mem_append, List.mem_cons] at hc
      rcases hc with hc | rfl | hc
      · have hne := hfirst c hc
        show WP _ _ _ (own c.request ++ Pool.commitsOf c.request (.run l ev)) _
        rw [hother _ hne, List.append_nil]
        exact (hclient c (by simp [hc])).rely (hrely _ hne)
      · show WP _ _ _ (own l ++ Pool.commitsOf l (.run l ev)) _
        rw [hself]
        exact hnext
      · have hne := hrest c hc
        show WP _ _ _ (own c.request ++ Pool.commitsOf c.request (.run l ev)) _
        rw [hother _ hne, List.append_nil]
        exact (hclient c (by simp [hc])).rely (hrely _ hne)
  | @env _ s' henv =>
    refine ⟨by simp [Pool.commitsOf], hdistinct, fun l hl => ?_, fun c hc => ?_⟩
    · simp only [Pool.commitsOf, List.append_nil]
      exact ⟨(hnew l hl).1, hready l _ _ (.inl henv) (hnew l hl).2⟩
    · simp only [Pool.commitsOf, List.append_nil]
      exact (hclient c hc).rely (.single (.inl henv))

/-- In every run of a pool that starts without clients and whose commits are all considered,
each commit keeps the promise of its client, and each client meets its postcondition. -/
theorem Pool.Meets.run
    (hready : ∀ l a b, (Pool.terms W considered guarantee l).world.env a b → ready l a → ready l b)
    (hprog : ∀ l s, ready l s →
      WP (Pool.terms W considered guarantee l) (Q l) (programs l) [] s)
    {own : ι → List (σ × σ)} {p p' : Pool σ ε α ι}
    {tr : List (Taken (Pool σ ε α ι) (PoolEvent σ ι))}
    (hp : p.Meets W considered guarantee ready Q own) (h : Pool.Run W programs p tr p')
    (hconsidered : ∀ t ∈ tr, ∀ l, ∀ c ∈ Pool.commitsOf l t.label, considered l c.1 c.2) :
    (∀ t ∈ tr, ∀ l, ∀ c ∈ Pool.commitsOf l t.label, guarantee l c.1 c.2) ∧
      p'.Meets W considered guarantee ready Q fun l => own l ++ Pool.runCommits l tr := by
  induction h generalizing own with
  | nil p => exact ⟨by simp, by simpa [Pool.runCommits] using hp⟩
  | cons hstep hrest ih =>
    rw [List.forall_mem_cons] at hconsidered
    obtain ⟨hguarantee, hnext⟩ := hp.step hready hprog hstep hconsidered.1
    obtain ⟨hall, hend⟩ := ih hnext hconsidered.2
    refine ⟨?_, ?_⟩
    · rw [List.forall_mem_cons]
      exact ⟨hguarantee, hall⟩
    · simpa [Pool.runCommits, List.append_assoc] using hend

omit [DecidableEq ι] in
lemma Pool.Meets.empty {p : Pool σ ε α ι} (hp : p.clients = []) (hready : ∀ l, ready l p.state) :
    p.Meets W considered guarantee ready Q fun _ => [] where
  distinct := by simp [hp]
  fresh l _ := ⟨rfl, hready l⟩
  client := by simp [hp]

end Pools

end Transaction
