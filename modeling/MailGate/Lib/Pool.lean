import Mathlib.Data.List.Nodup
import MailGate.Lib.Runs
import MailGate.Lib.Transaction

/-!
# Clients that run side by side

Any number of clients of one shared state, each of them a program of transactions.  Clients
start at any time, and at every step one of them runs its next transaction; a client that is
never served again is one that was killed.  An invariant of such a pool is shown for one step
of one client, and for what that step does to the others.
-/

namespace Transaction

open Prog Runs

variable {σ ε α ι : Type}

/-- A client: what it was started for, and what is left of its program. -/
structure Client (σ ε α ι : Type) : Type 1 where
  request : ι
  prog : Prog σ ε α

/-- The shared state and the clients that have started. -/
structure Pool (σ ε α ι : Type) : Type 1 where
  state : σ
  clients : List (Client σ ε α ι)

/-- What can happen next. -/
inductive PoolEvent (σ ι : Type) where
  | start (request : ι)
  /-- A client runs a transaction, with these commits. -/
  | run (request : ι) (commits : List (Event σ))
  /-- Another party commits. -/
  | env

/-- The steps of a pool in which the client for a request runs the program `programs` gives
it.  A request is served by one client. -/
inductive Pool.Step (W : World σ ε) (programs : ι → Prog σ ε α) :
    PoolEvent σ ι → Pool σ ε α ι → Pool σ ε α ι → Prop where
  | start {p : Pool σ ε α ι} {l : ι} (h : l ∉ p.clients.map (·.request)) :
      Step W programs (.start l) p { p with clients := p.clients ++ [⟨l, programs l⟩] }
  | run {s s' : σ} {l : ι} {first rest : List (Client σ ε α ι)} {β : Type}
      {body : σ → Except ε (β × σ)} {next : Except ε β → Prog σ ε α} {ev : List (Event σ)}
      {r : Except ε β} (h : Answer W body s ev r s') :
      Step W programs (.run l ev) ⟨s, first ++ ⟨l, .txn body next⟩ :: rest⟩
        ⟨s', first ++ ⟨l, next r⟩ :: rest⟩
  | env {p : Pool σ ε α ι} {s' : σ} (h : W.env p.state s') :
      Step W programs .env p { p with state := s' }

/-- A run of a pool. -/
abbrev Pool.Run (W : World σ ε) (programs : ι → Prog σ ε α) :
    Pool σ ε α ι → List (Taken (Pool σ ε α ι) (PoolEvent σ ι)) → Pool σ ε α ι → Prop :=
  Runs.Run (Pool.Step W programs)

/-- An invariant of the shared state, and one of each client and the shared state. -/
structure Pool.Holds (I : σ → Prop) (Ok : ι → Prog σ ε α → σ → Prop) (p : Pool σ ε α ι) :
    Prop where
  distinct : (p.clients.map (·.request)).Nodup
  shared : I p.state
  client : ∀ c ∈ p.clients, Ok c.request c.prog p.state

/-- Each transaction of the program, together with what follows it, has the property. -/
def Prog.Every (N : Prog σ ε α → Prop) : Prog σ ε α → Prop
  | .done _ => True
  | .txn body next => N (.txn body next) ∧ ∀ r, (next r).Every N

@[simp] lemma every_done {N : Prog σ ε α → Prop} (r : Except ε α) : (Prog.done r).Every N :=
  trivial

@[simp] lemma every_compute {N : Prog σ ε α → Prop} (r : Except ε α) :
    (Prog.compute r).Every N := trivial

@[simp] lemma every_pure {N : Prog σ ε α → Prop} (a : α) :
    (pure a : Prog σ ε α).Every N := trivial

namespace Pool

variable {W : World σ ε} {programs : ι → Prog σ ε α} {I : σ → Prop}
  {Ok : ι → Prog σ ε α → σ → Prop} {p p' : Pool σ ε α ι} {e : PoolEvent σ ι}

/-- What it takes for the two invariants to be kept: a client starts well, each transaction of
a client keeps them for the client, and disturbs no other client. -/
structure Keeps (W : World σ ε) (programs : ι → Prog σ ε α) (I : σ → Prop)
    (Ok : ι → Prog σ ε α → σ → Prop) : Prop where
  start : ∀ l s, I s → Ok l (programs l) s
  run : ∀ {l : ι} {β : Type} {body : σ → Except ε (β × σ)} {next : Except ε β → Prog σ ε α}
    {s s' : σ} {ev : List (Event σ)} {r : Except ε β}, I s → Ok l (.txn body next) s →
    Answer W body s ev r s' →
      I s' ∧ Ok l (next r) s' ∧ ∀ l' q, l' ≠ l → Ok l' q s → Ok l' q s'
  env : ∀ {s s' : σ}, I s → W.env s s' → I s' ∧ ∀ l q, Ok l q s → Ok l q s'

/-- One step keeps the invariants. -/
lemma Keeps.step (hkeeps : Keeps W programs I Ok) (hp : p.Holds I Ok)
    (h : Step W programs e p p') : p'.Holds I Ok := by
  obtain ⟨hdistinct, hshared, hclient⟩ := hp
  cases h with
  | @start _ l hfresh =>
    refine ⟨?_, hshared, ?_⟩
    · rw [List.map_append, List.map_singleton, List.nodup_append]
      refine ⟨hdistinct, List.nodup_singleton l, ?_⟩
      rintro a ha b hb rfl
      rw [List.mem_singleton.1 hb] at ha
      exact hfresh ha
    · intro c hc
      rcases List.mem_append.1 hc with hc | hc
      · exact hclient c hc
      · rw [List.mem_singleton.1 hc]
        exact hkeeps.start l _ hshared
  | @run s s' l first rest β body next ev r hanswer =>
    have hown : Ok l (.txn body next) s := hclient ⟨l, .txn body next⟩ (by simp)
    obtain ⟨hshared', hown', hothers⟩ := hkeeps.run hshared hown hanswer
    refine ⟨by simpa using hdistinct, hshared', ?_⟩
    -- the other clients serve other requests
    simp only [List.map_append, List.map_cons, List.nodup_middle, List.nodup_cons,
      List.mem_append, not_or, List.mem_map, not_exists, not_and] at hdistinct
    obtain ⟨⟨hfirst, hrest⟩, -⟩ := hdistinct
    intro c hc
    simp only [List.mem_append, List.mem_cons] at hc
    rcases hc with hc | rfl | hc
    · exact hothers _ _ (hfirst c hc) (hclient c (by simp [hc]))
    · exact hown'
    · exact hothers _ _ (hrest c hc) (hclient c (by simp [hc]))
  | env henv =>
    obtain ⟨hshared', hothers⟩ := hkeeps.env hshared henv
    exact ⟨hdistinct, hshared', fun c hc => hothers _ _ (hclient c hc)⟩

/-- The invariants hold before and after every step of a run. -/
theorem Keeps.run_holds (hkeeps : Keeps W programs I Ok)
    {tr : List (Taken (Pool σ ε α ι) (PoolEvent σ ι))} (h : Run W programs p tr p')
    (hp : p.Holds I Ok) : p'.Holds I Ok ∧ ∀ t ∈ tr, t.before.Holds I Ok ∧ t.after.Holds I Ok :=
  h.kept (fun t ht ht' => hkeeps.step ht' (h.step_of_mem t ht)) hp

/-- What every program guarantees of its transactions holds of every step of its client. -/
lemma keeps_guarantees {G : ι → σ → σ → Prop} (hprog : ∀ l, (programs l).Guarantees (G l)) :
    Keeps W programs (fun _ => True) fun l q _ => q.Guarantees (G l) where
  start l _ _ := hprog l
  run _ hown _ := ⟨trivial, hown.2 _, fun _ _ _ h => h⟩
  env _ _ := ⟨trivial, fun _ _ h => h⟩

/-- What holds of every transaction of a program holds of what is left of it. -/
lemma keeps_every {N : ι → Prog σ ε α → Prop} (hprog : ∀ l, (programs l).Every (N l)) :
    Keeps W programs (fun _ => True) fun l q _ => q.Every (N l) where
  start l _ _ := hprog l
  run _ hown _ := ⟨trivial, hown.2 _, fun _ _ _ h => h⟩
  env _ _ := ⟨trivial, fun _ _ h => h⟩

/-- A step of a client is the first transaction of what is left of its program. -/
lemma Step.client_eq {l : ι} {ev : List (Event σ)} {q : Prog σ ε α} (hp : p.Holds I Ok)
    (h : Step W programs (.run l ev) p p') (hq : ⟨l, q⟩ ∈ p.clients) :
    ∃ (β : Type) (body : σ → Except ε (β × σ)) (next : Except ε β → Prog σ ε α) (r : Except ε β),
      q = .txn body next ∧ Answer W body p.state ev r p'.state := by
  generalize he : PoolEvent.run l ev = e at h
  cases h with
  | start => cases he
  | env => cases he
  | @run s s' l first rest β body next ev r hanswer =>
    cases he
    have hmem : (⟨l, .txn body next⟩ : Client σ ε α ι) ∈ first ++ ⟨l, .txn body next⟩ :: rest := by
      simp
    have heq := List.inj_on_of_nodup_map hp.distinct hq hmem rfl
    exact ⟨β, body, next, r, congrArg Client.prog heq, hanswer⟩

/-- A step is a transaction of some client, or it leaves the state alone, or another party
commits. -/
lemma Step.cases_state (h : Step W programs e p p') :
    (∃ l ev, e = .run l ev ∧ ∃ q, ⟨l, q⟩ ∈ p.clients) ∨ p'.state = p.state ∨
      W.env p.state p'.state := by
  cases h with
  | start => exact .inr (.inl rfl)
  | @run s s' l first rest β body next ev r hanswer =>
    exact .inl ⟨l, ev, rfl, .txn body next, by simp⟩
  | env henv => exact .inr (.inr henv)

/-- A step of a client that guarantees `G` commits nothing, or is related by `G`. -/
lemma Step.guarantees {G : ι → σ → σ → Prop} {l : ι} {ev : List (Event σ)}
    (hp : p.Holds (fun _ => True) fun l q _ => q.Guarantees (G l))
    (h : Step W programs (.run l ev) p p') :
    (ev = [] ∧ p'.state = p.state) ∨ (ev = [.own p.state p'.state] ∧ G l p.state p'.state) := by
  generalize he : PoolEvent.run l ev = e at h
  cases h with
  | start => cases he
  | env => cases he
  | @run s s' l first rest β body next ev r hanswer =>
    cases he
    have hown : (Prog.txn body next).Guarantees (G l) := hp.client ⟨l, .txn body next⟩ (by simp)
    cases hanswer with
    | commit hbody => exact .inr ⟨rfl, hown.1 _ _ _ hbody⟩
    | abort => exact .inl ⟨rfl, rfl⟩
    | fail => exact .inl ⟨rfl, rfl⟩
    | lost hbody => exact .inr ⟨rfl, hown.1 _ _ _ hbody⟩

/-- A client makes its first step, after which its program need not guarantee `G`. -/
def Begins (W : World σ ε) (programs : ι → Prog σ ε α) (G : σ → σ → Prop) (l : ι)
    (t : Taken (Pool σ ε α ι) (PoolEvent σ ι)) : Prop :=
  ⟨l, programs l⟩ ∈ t.before.clients ∧ ∃ (β : Type) (body : σ → Except ε (β × σ))
    (next : Except ε β → Prog σ ε α) (ev : List (Event σ)) (r : Except ε β),
      programs l = .txn body next ∧ t.label = .run l ev ∧
        Answer W body t.before.state ev r t.after.state ∧ ¬(next r).Guarantees G

/-- What is known of a client after some steps: it has not made a step, or its program
guarantees `G`, or its first step was one of these. -/
def Traced (W : World σ ε) (programs : ι → Prog σ ε α) (G : σ → σ → Prop)
    (hist : List (Taken (Pool σ ε α ι) (PoolEvent σ ι))) (c : Client σ ε α ι) : Prop :=
  c.prog = programs c.request ∨ c.prog.Guarantees G ∨
    ∃ tr₁ t tr₂, hist = tr₁ ++ t :: tr₂ ∧ Begins W programs G c.request t

lemma Traced.append {G : σ → σ → Prop} {hist tr : List (Taken (Pool σ ε α ι) (PoolEvent σ ι))}
    {c : Client σ ε α ι} (h : Traced W programs G hist c) :
    Traced W programs G (hist ++ tr) c := by
  rcases h with h | h | ⟨tr₁, t, tr₂, rfl, h⟩
  · exact .inl h
  · exact .inr (.inl h)
  · exact .inr (.inr ⟨tr₁, t, tr₂ ++ tr, by simp, h⟩)

/-- One step keeps track of the clients. -/
lemma Traced.step {G : σ → σ → Prop} {hist : List (Taken (Pool σ ε α ι) (PoolEvent σ ι))}
    (hp : ∀ c ∈ p.clients, Traced W programs G hist c) (h : Step W programs e p p') :
    ∀ c ∈ p'.clients, Traced W programs G (hist ++ [⟨p, e, p'⟩]) c := by
  cases h with
  | start hfresh =>
    intro c hc
    rcases List.mem_append.1 hc with hc | hc
    · exact (hp c hc).append
    · rw [List.mem_singleton.1 hc]
      exact .inl rfl
  | @run s s' l first rest β body next ev r hanswer =>
    intro c hc
    simp only [List.mem_append, List.mem_cons] at hc
    rcases hc with hc | rfl | hc
    · exact (hp c (by simp [hc])).append
    · have hown : Traced W programs G hist ⟨l, .txn body next⟩ := hp _ (by simp)
      by_cases hG : (next r).Guarantees G
      · exact .inr (.inl hG)
      rcases hown with hstart | hguarantees | htraced
      · refine .inr (.inr
          ⟨hist, _, [], rfl, ?_, β, body, next, ev, r, hstart.symm, rfl, hanswer, hG⟩)
        have hprog : Prog.txn body next = programs l := hstart
        simp [← hprog]
      · exact absurd (hguarantees.2 r) hG
      · have hkept : Traced W programs G hist ⟨l, next r⟩ := .inr (.inr htraced)
        exact hkept.append
    · exact (hp c (by simp [hc])).append
  | env henv => exact fun c hc => (hp c hc).append

/-- Every client of a run can be traced back to its first step. -/
theorem Run.traced {G : σ → σ → Prop} {tr : List (Taken (Pool σ ε α ι) (PoolEvent σ ι))}
    (h : Run W programs p tr p') (hp : p.clients = []) :
    ∀ c ∈ p'.clients, Traced W programs G tr c := by
  have hrun : ∀ hist, (∀ c ∈ p.clients, Traced W programs G hist c) →
      ∀ c ∈ p'.clients, Traced W programs G (hist ++ tr) c := by
    clear hp
    induction h with
    | nil p => simp
    | cons hstep hrest ih =>
      intro hist hp
      have hnext := ih _ (Traced.step hp hstep)
      rwa [List.append_assoc, List.singleton_append] at hnext
  exact hrun [] (by simp [hp])

variable (W programs) in
/-- A client that is left to itself, among others. -/
lemma Run.of_run_among (first rest : List (Client σ ε α ι)) (l : ι) (q : Prog σ ε α) (s : σ) :
    ∃ tr, Run W programs ⟨s, first ++ ⟨l, q⟩ :: rest⟩ tr
        ⟨(q.run s).2, first ++ ⟨l, .done (q.run s).1⟩ :: rest⟩ ∧
      ∀ t ∈ tr, ∃ ev, t.label = .run l ev := by
  induction q generalizing s with
  | done r => exact ⟨[], .nil _, by simp⟩
  | txn body next ih =>
    cases hb : body s with
    | ok b =>
      obtain ⟨tr, h, hlabels⟩ := ih (.ok b.1) b.2
      simp only [Prog.run, hb]
      exact ⟨_, .cons (.run (.commit hb)) h, List.forall_mem_cons.2 ⟨⟨_, rfl⟩, hlabels⟩⟩
    | error e =>
      obtain ⟨tr, h, hlabels⟩ := ih (.error e) s
      simp only [Prog.run, hb]
      exact ⟨_, .cons (.run (.abort hb)) h, List.forall_mem_cons.2 ⟨⟨_, rfl⟩, hlabels⟩⟩

variable (W programs) in
/-- A client that is left to itself. -/
lemma Run.of_run (l : ι) (q : Prog σ ε α) (s : σ) :
    ∃ tr, Run W programs ⟨s, [⟨l, q⟩]⟩ tr ⟨(q.run s).2, [⟨l, .done (q.run s).1⟩]⟩ ∧
      ∀ t ∈ tr, ∃ ev, t.label = .run l ev :=
  Run.of_run_among W programs [] [] l q s

variable (W programs) in
/-- A client that starts alone and is left to itself. -/
lemma Run.of_start (l : ι) (s : σ) :
    ∃ tr, Run W programs ⟨s, []⟩ tr
        ⟨((programs l).run s).2, [⟨l, .done ((programs l).run s).1⟩]⟩ ∧
      (∃ t ∈ tr, t.before.state = s) ∧
      ∀ t ∈ tr, t.label = .start l ∨ ∃ ev, t.label = .run l ev := by
  obtain ⟨tr, h, hlabels⟩ := Run.of_run W programs l (programs l) s
  have hstart : Step W programs (.start l) ⟨s, []⟩ ⟨s, [] ++ [⟨l, programs l⟩]⟩ := .start (by simp)
  refine ⟨_, .cons hstart h, ⟨_, List.mem_cons_self, rfl⟩, ?_⟩
  exact List.forall_mem_cons.2 ⟨.inl rfl, fun t ht => .inr (hlabels t ht)⟩

end Pool

end Transaction
