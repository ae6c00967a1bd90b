import MailGate.Lib.RelyGuarantee

/-!
# Triples of clients among others

A precondition and a postcondition that the others keep.  A triple says that a client which
starts in the precondition keeps its promises, and ends in the postcondition if it returns.
-/

namespace Transaction

open Prog Relation

variable {σ ε α β : Type} {T : Terms σ ε}

/-- Commits of others keep the predicate. -/
def Terms.Stable (T : Terms σ ε) (P : σ → Prop) : Prop := ∀ a b, T.world.env a b → P a → P b

/-- No commit ends the predicate, neither one of others nor one of the client itself. -/
def Terms.Lasting (T : Terms σ ε) (P : σ → Prop) : Prop :=
  T.Stable P ∧ ∀ a b, T.guarantee a b → P a → P b

namespace Terms.Stable

variable {P P' : σ → Prop}

lemma rely (h : T.Stable P) {s s' : σ} (hrely : T.Rely s s') (hs : P s) : P s' := by
  induction hrely with
  | refl => exact hs
  | tail _ henv ih => exact h _ _ henv ih

lemma trivially : T.Stable fun _ => True := fun _ _ _ h => h

lemma and (h : T.Stable P) (h' : T.Stable P') : T.Stable fun s => P s ∧ P' s :=
  fun a b henv hs => ⟨h a b henv hs.1, h' a b henv hs.2⟩

lemma all {ι : Type} {P : ι → σ → Prop} (h : ∀ i, T.Stable (P i)) :
    T.Stable fun s => ∀ i, P i s :=
  fun a b henv hs i => h i a b henv (hs i)

lemma imp {c : Prop} (h : T.Stable P) : T.Stable fun s => c → P s :=
  fun a b henv hs hc => h a b henv (hs hc)

end Terms.Stable

/-- The terms of a client that promises this too. -/
def Terms.promising (T : Terms σ ε) (G : σ → σ → Prop) : Terms σ ε :=
  { T with guarantee := fun a b => T.guarantee a b ∧ G a b }

lemma Terms.Lasting.promising {P : σ → Prop} (h : T.Lasting P) (G : σ → σ → Prop) :
    (T.promising G).Lasting P := ⟨h.1, fun a b hab => h.2 a b hab.1⟩

/-- If the client returns, this holds of the answer. -/
def Returns (R : α → σ → Prop) : Except ε α → Assertion σ := fun r _ s => ∀ a, r = .ok a → R a s

/-- From the precondition the client keeps its promises, and it returns in the postcondition. -/
def Triple (T : Terms σ ε) (P : σ → Prop) (p : Prog σ ε α) (R : α → σ → Prop) : Prop :=
  ∀ own s, P s → WP T (Returns R) p own s

namespace Triple

variable {P P' : σ → Prop} {R : α → σ → Prop} {R' : β → σ → Prop}

lemma raised (P : σ → Prop) (e : ε) (R : α → σ → Prop) : Triple T P (compute (.error e)) R := by
  intro own s _ s₁ _ a ha
  cases ha

lemma returned (hR : ∀ a, T.Stable (R a)) (a : α) : Triple T (R a) (pure a) R := by
  intro own s hs s₁ h₁ a' ha
  cases ha
  exact (hR a).rely h₁ hs

lemma bind {p : Prog σ ε α} {k : α → Prog σ ε β} (hp : Triple T P p R)
    (hk : ∀ a, Triple T (R a) (k a) R') : Triple T P (p >>= k) R' := by
  intro own s hs
  refine WP.bind ((hp own s hs).mono fun r own s hr => ?_)
  cases r with
  | ok a => exact hk a own s (hr a rfl)
  | error e => exact raised (fun _ => True) e R' own s trivial

lemma pre {p : Prog σ ε α} (hp : Triple T P p R) (h : ∀ s, P' s → P s) : Triple T P' p R :=
  fun own s hs => hp own s (h s hs)

lemma post {R'' : α → σ → Prop} {p : Prog σ ε α} (hp : Triple T P p R)
    (h : ∀ a s, R a s → R'' a s) : Triple T P p R'' :=
  fun own s hs => (hp own s hs).mono fun _ _ s hr a ha => h a s (hr a ha)

lemma ite {c : Prop} [Decidable c] {p q : Prog σ ε α} (hp : c → Triple T P p R)
    (hq : ¬ c → Triple T P q R) : Triple T P (if c then p else q) R := by
  by_cases hc : c
  · rw [if_pos hc]
    exact hp hc
  · rw [if_neg hc]
    exact hq hc

/-- A client may promise more than is asked for. -/
lemma of_promising {G : σ → σ → Prop} {p : Prog σ ε α} (hp : Triple (T.promising G) P p R) :
    Triple T P p R := by
  have hwp : ∀ own s, WP (T.promising G) (Returns R) p own s → WP T (Returns R) p own s := by
    clear hp
    induction p with
    | done r => exact fun own s h => h
    | txn body next ih =>
      intro own s h s₁ h₁
      obtain ⟨hok, herror⟩ := h s₁ h₁
      refine ⟨fun b s₂ hb hconsidered => ?_, fun e he => ih _ own s₁ (herror e he)⟩
      obtain ⟨hguarantee, hnext, hlost⟩ := hok b s₂ hb hconsidered
      exact ⟨hguarantee.1, ih _ _ s₂ hnext, fun e he => ih _ _ s₂ (hlost e he)⟩
  exact fun own s hs => hwp own s (hp own s hs)

/-- One transaction, in a state that the others have left in the precondition. -/
lemma atomic {body : σ → Except ε (α × σ)} (hP : T.Stable P) (hR : ∀ a, T.Stable (R a))
    (hbody : ∀ s a s', P s → body s = .ok (a, s') → T.guarantee s s' ∧ R a s') :
    Triple T P (atomic body) R := by
  intro own s hs s₁ h₁
  refine ⟨fun b s₂ hb _ => ?_, fun e _ => raised (fun _ => True) e R own s₁ trivial⟩
  obtain ⟨hguarantee, hpost⟩ := hbody s₁ b s₂ (hP.rely h₁ hs) hb
  exact ⟨hguarantee, returned hR b _ s₂ hpost, fun e _ =>
    raised (fun _ => True) e R _ s₂ trivial⟩

/-- What no commit of anybody ends holds of the state at the end, besides the postcondition. -/
lemma frame {I : σ → Prop} {p : Prog σ ε α} (hp : Triple T P p R) (hI : T.Lasting I) :
    Triple T (fun s => P s ∧ I s) p (fun a s => R a s ∧ I s) := by
  have hframe : ∀ own s, WP T (Returns R) p own s → I s →
      WP T (Returns fun a s => R a s ∧ I s) p own s := by
    clear hp
    induction p with
    | done r => exact fun own s h hs s₁ h₁ a ha => ⟨h s₁ h₁ a ha, hI.1.rely h₁ hs⟩
    | txn body next ih =>
      intro own s h hs s₁ h₁
      obtain ⟨hok, herror⟩ := h s₁ h₁
      have hs₁ := hI.1.rely h₁ hs
      refine ⟨fun b s₂ hb hconsidered => ?_, fun e he => ih _ own s₁ (herror e he) hs₁⟩
      obtain ⟨hguarantee, hnext, hlost⟩ := hok b s₂ hb hconsidered
      have hs₂ := hI.2 s₁ s₂ hguarantee hs₁
      exact ⟨hguarantee, ih _ _ s₂ hnext hs₂, fun e he => ih _ _ s₂ (hlost e he) hs₂⟩
  exact fun own s hs => hframe own s (hp own s hs.1) hs.2

end Triple

end Transaction
