import Mathlib.Data.Set.Insert
import Mathlib.Logic.Function.Basic
import Mathlib.Logic.Relation

/-!
# Transactions that lock what they touch

Any number of clients work on a store of rows.  Outside of transactions a client only sees rows as
they are committed.  Inside a transaction it takes locks, which it keeps to the end; each of its
statements sees the newest committed rows and the client's own writes, and a commit publishes
the writes at once.  A transaction that locks every row before it reads or writes it takes effect
as if it ran alone at the moment of its commit.
-/

namespace Locks

variable {κ ρ L ι : Type}

/-! ## Transactions -/

/-- A transaction, statement by statement.  `L` names what a transaction has done. -/
inductive Tx (κ ρ L : Type) where
  /-- Wait for the lock and take it. -/
  | lock (k : κ) (next : Tx κ ρ L)
  | read (k : κ) (next : ρ → Tx κ ρ L)
  | write (k : κ) (row : ρ) (next : Tx κ ρ L)
  | commit (label : L)
  | rollback

/-- What a client does: it looks at committed rows, runs transactions one after the other, and goes
on with what they have done. -/
inductive Plan (κ ρ L : Type) where
  | peek (k : κ) (next : ρ → Plan κ ρ L)
  | go (tx : Tx κ ρ L) (next : Option L → Plan κ ρ L)
  | stop

/-- Every transaction of the plan has the property. -/
def Plan.All (P : Tx κ ρ L → Prop) : Plan κ ρ L → Prop
  | .peek _ next => ∀ row, (next row).All P
  | .go tx next => P tx ∧ ∀ done, (next done).All P
  | .stop => True

namespace Tx

/-- An update of a row in its newest version. -/
def update (k : κ) (set : ρ → ρ) (next : Tx κ ρ L) : Tx κ ρ L :=
  .read k fun row => .write k (set row) next

/-- Apart from the locks in `K`, the transaction locks a row before it reads or writes it. -/
def Guarded (K : Set κ) : Tx κ ρ L → Prop
  | .lock k next => next.Guarded (insert k K)
  | .read k next => k ∈ K ∧ ∀ row, (next row).Guarded K
  | .write k _ next => k ∈ K ∧ next.Guarded K
  | .commit _ => True
  | .rollback => True

lemma guarded_update {K : Set κ} {k : κ} {set : ρ → ρ} {next : Tx κ ρ L} (hk : k ∈ K)
    (hnext : next.Guarded K) : (update k set next).Guarded K :=
  ⟨hk, fun _ => ⟨hk, hnext⟩⟩

end Tx

/-- The committed rows under the writes of a transaction. -/
def overlay (store : κ → ρ) (written : κ → Option ρ) (k : κ) : ρ := (written k).getD (store k)

@[simp] lemma overlay_none (store : κ → ρ) : overlay store (fun _ => none) = store := rfl

section

variable [DecidableEq κ]

lemma overlay_update (store : κ → ρ) (written : κ → Option ρ) (k : κ) (row : ρ) :
    overlay store (Function.update written k (some row)) =
      Function.update (overlay store written) k row := by
  ext j
  by_cases hj : j = k
  · subst hj
    simp [overlay]
  · simp [overlay, hj]

/-- The transaction alone on the store: what it has done and the new store. -/
def Tx.run : Tx κ ρ L → (κ → ρ) → Option (L × (κ → ρ))
  | .lock _ next, store => next.run store
  | .read k next, store => (next (store k)).run store
  | .write k row next, store => next.run (Function.update store k row)
  | .commit label, store => some (label, store)
  | .rollback, _ => none

@[simp] lemma Tx.run_update (k : κ) (set : ρ → ρ) (next : Tx κ ρ L) (store : κ → ρ) :
    (Tx.update k set next).run store = next.run (Function.update store k (set (store k))) := rfl

/-- `Reaches store start K tx written`: on this store the transaction `start` has come to `tx`, with
the locks `K` and these writes. -/
inductive Reaches (store : κ → ρ) (start : Tx κ ρ L) :
    Set κ → Tx κ ρ L → (κ → Option ρ) → Prop where
  | start : Reaches store start ∅ start fun _ => none
  | lock {K : Set κ} {k : κ} {next : Tx κ ρ L} {written : κ → Option ρ}
      (h : Reaches store start K (.lock k next) written) :
      Reaches store start (insert k K) next written
  | read {K : Set κ} {k : κ} {next : ρ → Tx κ ρ L} {written : κ → Option ρ}
      (h : Reaches store start K (.read k next) written) :
      Reaches store start K (next (overlay store written k)) written
  | write {K : Set κ} {k : κ} {row : ρ} {next : Tx κ ρ L} {written : κ → Option ρ}
      (h : Reaches store start K (.write k row next) written) :
      Reaches store start K next (Function.update written k (some row))

namespace Reaches

variable {store store' : κ → ρ} {start tx : Tx κ ρ L} {K : Set κ} {written : κ → Option ρ}

lemma guarded (h : Reaches store start K tx written) (hstart : start.Guarded ∅) : tx.Guarded K := by
  induction h with
  | start => exact hstart
  | lock _ ih => exact ih
  | read _ ih => exact ih.2 _
  | write _ ih => exact ih.2

/-- Only locked rows are written. -/
lemma written_locked (h : Reaches store start K tx written) (hstart : start.Guarded ∅) {k : κ}
    (hk : k ∉ K) : written k = none := by
  induction h with
  | start => rfl
  | lock h ih => exact ih fun hmem => hk (Set.mem_insert_of_mem _ hmem)
  | read h ih => exact ih hk
  | write h ih =>
    have hne : k ≠ _ := fun heq => hk (heq ▸ (h.guarded hstart).1)
    rw [Function.update_of_ne hne]
    exact ih hk

/-- Rows that are not locked may change. -/
lemma of_locked_eq (h : Reaches store start K tx written) (hstart : start.Guarded ∅)
    (heq : ∀ k ∈ K, store' k = store k) : Reaches store' start K tx written := by
  induction h with
  | start => exact .start
  | lock h ih => exact .lock (ih fun k hk => heq k (Set.mem_insert_of_mem _ hk))
  | @read K k next written h ih =>
    have hrow : overlay store written k = overlay store' written k := by
      rw [overlay, overlay, heq k (h.guarded hstart).1]
    rw [hrow]
    exact .read (ih heq)
  | write h ih => exact .write (ih heq)

/-- What is still to be done, on the store with the writes so far, is what the transaction does. -/
lemma run_eq (h : Reaches store start K tx written) :
    start.run store = tx.run (overlay store written) := by
  induction h with
  | start => rfl
  | lock h ih => exact ih
  | read h ih => exact ih
  | write h ih =>
    rw [overlay_update]
    exact ih

end Reaches

end

/-! ## Clients -/

/-- Where a client stands: between transactions, or within the one that it has started. -/
inductive Phase (κ ρ L : Type) where
  | idle (plan : Plan κ ρ L)
  | within (start tx : Tx κ ρ L) (written : κ → Option ρ) (next : Option L → Plan κ ρ L)

/-- The committed rows, who holds which lock, where the clients stand, and what has been
committed, by whom and in which order. -/
structure State (κ ρ L ι : Type) where
  store : κ → ρ
  owner : κ → Option ι
  phase : ι → Phase κ ρ L
  log : List (ι × L)

/-- Before anybody has done anything. -/
def State.start (store : κ → ρ) (plans : ι → Plan κ ρ L) : State κ ρ L ι :=
  ⟨store, fun _ => none, fun i => .idle (plans i), []⟩

variable [DecidableEq κ] [DecidableEq ι]

/-- The locks after the client has given back its own. -/
def release (owner : κ → Option ι) (i : ι) (k : κ) : Option ι :=
  if owner k = some i then none else owner k

/-- The client stands elsewhere. -/
def State.move (s : State κ ρ L ι) (i : ι) (phase : Phase κ ρ L) : State κ ρ L ι :=
  { s with phase := Function.update s.phase i phase }

/-- One statement of one client. -/
inductive Step (s : State κ ρ L ι) : State κ ρ L ι → Prop where
  | peek {i : ι} {k : κ} {next : ρ → Plan κ ρ L} (h : s.phase i = .idle (.peek k next)) :
      Step s (s.move i (.idle (next (s.store k))))
  | start {i : ι} {tx : Tx κ ρ L} {next : Option L → Plan κ ρ L}
      (h : s.phase i = .idle (.go tx next)) : Step s (s.move i (.within tx tx (fun _ => none) next))
  | lock {i : ι} {start tx : Tx κ ρ L} {k : κ} {written : κ → Option ρ}
      {next : Option L → Plan κ ρ L} (h : s.phase i = .within start (.lock k tx) written next)
      (hfree : s.owner k = none ∨ s.owner k = some i) :
      Step s { s.move i (.within start tx written next) with
        owner := Function.update s.owner k (some i) }
  | read {i : ι} {start : Tx κ ρ L} {k : κ} {tx : ρ → Tx κ ρ L} {written : κ → Option ρ}
      {next : Option L → Plan κ ρ L} (h : s.phase i = .within start (.read k tx) written next) :
      Step s (s.move i (.within start (tx (overlay s.store written k)) written next))
  | write {i : ι} {start tx : Tx κ ρ L} {k : κ} {row : ρ} {written : κ → Option ρ}
      {next : Option L → Plan κ ρ L}
      (h : s.phase i = .within start (.write k row tx) written next) :
      Step s (s.move i (.within start tx (Function.update written k (some row)) next))
  | commit {i : ι} {start : Tx κ ρ L} {label : L} {written : κ → Option ρ}
      {next : Option L → Plan κ ρ L} (h : s.phase i = .within start (.commit label) written next) :
      Step s { s.move i (.idle (next (some label))) with
        store := overlay s.store written
        owner := release s.owner i
        log := s.log ++ [(i, label)] }
  /-- A statement or the commit fails, or the transaction is rolled back. -/
  | abort {i : ι} {start tx : Tx κ ρ L} {written : κ → Option ρ} {next : Option L → Plan κ ρ L}
      (h : s.phase i = .within start tx written next) :
      Step s { s.move i (.idle (next none)) with owner := release s.owner i }
  /-- The client is gone. -/
  | kill {i : ι} : Step s { s.move i (.idle .stop) with owner := release s.owner i }

/-- Any number of statements of any clients. -/
abbrev Run : State κ ρ L ι → State κ ρ L ι → Prop := Relation.ReflTransGen Step

/-! ## Every commit is a transaction that runs alone -/

/-- `Replays P init log store`: transactions with the property `P`, each alone on the store, commit
what the log says, one after the other. -/
inductive Replays (P : ι → Tx κ ρ L → Prop) (init : κ → ρ) : List (ι × L) → (κ → ρ) → Prop where
  | nil : Replays P init [] init
  | commit {log : List (ι × L)} {store store' : κ → ρ} {i : ι} {tx : Tx κ ρ L} {label : L}
      (h : Replays P init log store) (htx : P i tx) (hrun : tx.run store = some (label, store')) :
      Replays P init (log ++ [(i, label)]) store'

/-- The clients only run transactions with the property, hold the locks of the rows that they have
used, and have committed as if each transaction ran alone. -/
structure Inv (P : ι → Tx κ ρ L → Prop) (init : κ → ρ) (s : State κ ρ L ι) : Prop where
  idle : ∀ i plan, s.phase i = .idle plan → plan.All (P i)
  within : ∀ i start tx written next, s.phase i = .within start tx written next →
    P i start ∧ (∀ done, (next done).All (P i)) ∧
      ∃ K, Reaches s.store start K tx written ∧ ∀ k ∈ K, s.owner k = some i
  log : Replays P init s.log s.store

variable {P : ι → Tx κ ρ L → Prop} {init : κ → ρ} {s s' : State κ ρ L ι}

omit [DecidableEq ι] in
lemma Inv.start {plans : ι → Plan κ ρ L} (h : ∀ i, (plans i).All (P i)) :
    Inv P init (State.start init plans) := by
  constructor
  · intro i plan hphase
    cases hphase
    exact h i
  · intro i start tx written next hphase
    cases hphase
  · exact .nil

omit [DecidableEq κ] in
lemma release_of_ne {owner : κ → Option ι} {i j : ι} {k : κ} (h : owner k = some j) (hne : j ≠ i) :
    release owner i k = some j := by
  rw [release, if_neg]
  · exact h
  · rw [h]
    exact fun heq => hne (Option.some.inj heq)

/-- A client that moves, while the locks and the rows that the others have stay as they are. -/
lemma Inv.move (h : Inv P init s) {i : ι} {phase : Phase κ ρ L} {store : κ → ρ}
    {owner : κ → Option ι} {log : List (ι × L)} (hP : ∀ j tx, P j tx → tx.Guarded ∅)
    (howner : ∀ j k, j ≠ i → s.owner k = some j → owner k = some j ∧ store k = s.store k)
    (hidle : ∀ plan, phase = .idle plan → plan.All (P i))
    (hwithin : ∀ start tx written next, phase = .within start tx written next →
      P i start ∧ (∀ done, (next done).All (P i)) ∧
        ∃ K, Reaches store start K tx written ∧ ∀ k ∈ K, owner k = some i)
    (hlog : Replays P init log store) :
    Inv P init ⟨store, owner, Function.update s.phase i phase, log⟩ := by
  constructor
  · intro j plan hphase
    change Function.update s.phase i phase j = _ at hphase
    by_cases hj : j = i
    · subst hj
      rw [Function.update_self] at hphase
      exact hidle plan hphase
    · rw [Function.update_of_ne hj] at hphase
      exact h.idle j plan hphase
  · intro j start tx written next hphase
    change Function.update s.phase i phase j = _ at hphase
    by_cases hj : j = i
    · subst hj
      rw [Function.update_self] at hphase
      exact hwithin start tx written next hphase
    · rw [Function.update_of_ne hj] at hphase
      obtain ⟨hstart, hnext, K, hreaches, hlocked⟩ := h.within j start tx written next hphase
      refine ⟨hstart, hnext, K, ?_, fun k hk => (howner j k hj (hlocked k hk)).1⟩
      exact hreaches.of_locked_eq (hP _ _ hstart) fun k hk => (howner j k hj (hlocked k hk)).2
  · exact hlog

/-- Each statement keeps the invariant. -/
lemma Inv.step (hP : ∀ i tx, P i tx → tx.Guarded ∅) (h : Inv P init s) (hstep : Step s s') :
    Inv P init s' := by
  have hsame : ∀ {i j : ι} {k : κ}, j ≠ i → s.owner k = some j →
      s.owner k = some j ∧ s.store k = s.store k := fun _ hk => ⟨hk, rfl⟩
  have hreleased : ∀ {i j : ι} {k : κ}, j ≠ i → s.owner k = some j →
      release s.owner i k = some j ∧ s.store k = s.store k :=
    fun hne hk => ⟨release_of_ne hk hne, rfl⟩
  cases hstep with
  | @peek i k next hphase =>
    refine h.move hP (fun j k hj hk => hsame hj hk) ?_ (fun _ _ _ _ heq => by cases heq) h.log
    intro plan heq
    cases heq
    exact h.idle _ _ hphase _
  | @start i tx next hphase =>
    obtain ⟨htx, hnext⟩ := h.idle _ _ hphase
    refine h.move hP (fun j k hj hk => hsame hj hk) (fun _ heq => by cases heq) ?_ h.log
    intro start tx' written next' heq
    cases heq
    exact ⟨htx, hnext, ∅, .start, by simp⟩
  | @lock i start tx k written next hphase hfree =>
    obtain ⟨hstart, hnext, K, hreaches, hlocked⟩ := h.within _ _ _ _ _ hphase
    refine h.move hP ?_ (fun _ heq => by cases heq) ?_ h.log
    · intro j k' hj hk'
      have hne : k' ≠ k := by
        rintro rfl
        rcases hfree with hfree | hfree
        · rw [hk'] at hfree
          cases hfree
        · rw [hk'] at hfree
          exact hj (Option.some.inj hfree)
      rw [Function.update_of_ne hne]
      exact ⟨hk', rfl⟩
    · intro start' tx' written' next' heq
      cases heq
      refine ⟨hstart, hnext, insert k K, hreaches.lock, ?_⟩
      intro k' hk'
      by_cases hk : k' = k
      · rw [hk, Function.update_self]
      · rw [Function.update_of_ne hk]
        exact hlocked k' (hk'.resolve_left hk)
  | @read i start k tx written next hphase =>
    obtain ⟨hstart, hnext, K, hreaches, hlocked⟩ := h.within _ _ _ _ _ hphase
    refine h.move hP (fun j k hj hk => hsame hj hk) (fun _ heq => by cases heq) ?_ h.log
    intro start' tx' written' next' heq
    cases heq
    exact ⟨hstart, hnext, K, hreaches.read, hlocked⟩
  | @write i start tx k row written next hphase =>
    obtain ⟨hstart, hnext, K, hreaches, hlocked⟩ := h.within _ _ _ _ _ hphase
    refine h.move hP (fun j k hj hk => hsame hj hk) (fun _ heq => by cases heq) ?_ h.log
    intro start' tx' written' next' heq
    cases heq
    exact ⟨hstart, hnext, K, hreaches.write, hlocked⟩
  | @commit i start label written next hphase =>
    obtain ⟨hstart, hnext, K, hreaches, hlocked⟩ := h.within _ _ _ _ _ hphase
    refine h.move hP ?_ ?_ (fun _ _ _ _ heq => by cases heq) ?_
    · -- a row that somebody else has locked is not among those written
      intro j k hj hk
      refine ⟨release_of_ne hk hj, ?_⟩
      have hnot : k ∉ K := by
        intro hmem
        rw [hlocked k hmem] at hk
        exact hj (Option.some.inj hk).symm
      rw [overlay, hreaches.written_locked (hP _ _ hstart) hnot]
      rfl
    · intro plan heq
      cases heq
      exact hnext _
    · exact h.log.commit hstart hreaches.run_eq
  | @abort i start tx written next hphase =>
    obtain ⟨-, hnext, -⟩ := h.within _ _ _ _ _ hphase
    refine h.move hP (fun j k hj hk => hreleased hj hk) ?_ (fun _ _ _ _ heq => by cases heq) h.log
    intro plan heq
    cases heq
    exact hnext _
  | @kill i =>
    refine h.move hP (fun j k hj hk => hreleased hj hk) ?_ (fun _ _ _ _ heq => by cases heq) h.log
    intro plan heq
    cases heq
    trivial

/-- In every run each commit is a transaction that runs alone on the store of that moment. -/
theorem Run.replays {plans : ι → Plan κ ρ L} (hP : ∀ i tx, P i tx → tx.Guarded ∅)
    (hplans : ∀ i, (plans i).All (P i)) (h : Run (State.start init plans) s) :
    Replays P init s.log s.store := by
  have hinv : Inv P init s := by
    induction h with
    | refl => exact Inv.start hplans
    | tail _ hstep ih => exact ih.step hP hstep
  exact hinv.log

end Locks
