import Mathlib.Data.List.Basic
import Mathlib.Tactic.Common

/-!
# Regular expressions with word boundaries

Expressions that repeat characters of a class, run by a matcher that lists the ends of all
matches from one place.  A match depends on the text that it covers, and on whether the
characters beside it belong to words; so it stays a match when the text is put between
characters that do not, and when another text follows that goes on alike.
-/

/-- Regular expressions over the character classes `κ`. -/
inductive Regex (κ : Type) where
  | empty
  | one (a : κ)
  /-- At most `n` characters of the class. -/
  | upTo (a : κ) (n : ℕ)
  | star (a : κ)
  /-- The place between a character of a word and what is not one. -/
  | boundary
  | seq (r s : Regex κ)
  | alt (r s : Regex κ)
deriving DecidableEq, Repr

namespace Regex

variable {κ α : Type}

/-- A place in a text: whether the character before it belongs to a word, and what follows. -/
abbrev Place (α : Type) := Bool × List α

/-- One expression after the other. -/
def sequence (rs : List (Regex κ)) : Regex κ := rs.foldr seq empty

/-- One of the expressions. -/
def choice : List (Regex κ) → Regex κ
  | [] => empty
  | [r] => r
  | r :: rs => alt r (choice rs)

section

variable (test : κ → α → Bool) (word : α → Bool)

/-- Over one character of the class. -/
def advance (a : κ) : Place α → List (Place α)
  | (_, []) => []
  | (_, c :: rest) => if test a c then [(word c, rest)] else []

/-- Over at most `n` characters of the class. -/
def advances (a : κ) : ℕ → Place α → List (Place α)
  | 0, p => [p]
  | n + 1, p => p :: (advance test word a p).flatMap (advances a n)

/-- The ends of the matches that start at a place. -/
def ends : Regex κ → Place α → List (Place α)
  | empty, p => [p]
  | one a, p => advance test word a p
  | upTo a n, p => advances test word a n p
  | star a, p => advances test word a p.2.length p
  | boundary, p => if p.1 != p.2.head?.any word then [p] else []
  | seq r s, p => (r.ends p).flatMap s.ends
  | alt r s, p => r.ends p ++ s.ends p

/-- There is a match anywhere in the text; `before` tells whether a word goes on into it. -/
def search (r : Regex κ) (before : Bool) : List α → Bool
  | [] => !(r.ends test word (before, [])).isEmpty
  | c :: rest => !(r.ends test word (before, c :: rest)).isEmpty || r.search (word c) rest

end

variable {test : κ → α → Bool} {word : α → Bool} {r : Regex κ} {a : κ} {p q : Place α} {n : ℕ}
  {s t : List α}

/-! ## Text behind a match -/

/-- No word goes on into the text. -/
def StartsApart (word : α → Bool) (t : List α) : Prop := t.head?.any word = false

lemma mem_advances_self (n : ℕ) (p : Place α) : p ∈ advances test word a n p := by
  cases n with
  | zero => exact List.mem_singleton_self p
  | succ n => exact List.mem_cons_self

/-- With more repetitions allowed nothing is lost. -/
lemma mem_advances_mono {m : ℕ} (hmn : n ≤ m) (h : q ∈ advances test word a n p) :
    q ∈ advances test word a m p := by
  induction n generalizing m p with
  | zero =>
    rw [List.mem_singleton.1 h]
    exact mem_advances_self m p
  | succ n ih =>
    obtain ⟨m, rfl⟩ : ∃ k, m = k + 1 := ⟨m - 1, by omega⟩
    rcases List.mem_cons.1 h with rfl | h
    · exact List.mem_cons_self
    · obtain ⟨p', hp', hq⟩ := List.mem_flatMap.1 h
      exact List.mem_cons_of_mem _ (List.mem_flatMap.2 ⟨p', hp', ih (by omega) hq⟩)

lemma mem_advance_append (t : List α) (h : q ∈ advance test word a p) :
    (q.1, q.2 ++ t) ∈ advance test word a (p.1, p.2 ++ t) := by
  obtain ⟨before, s⟩ := p
  cases s with
  | nil => cases h
  | cons c rest =>
    rw [advance] at h
    split at h
    · rename_i htest
      rw [List.mem_singleton.1 h, List.cons_append, advance, if_pos htest]
      exact List.mem_singleton_self _
    · cases h

lemma mem_advances_append (t : List α) (h : q ∈ advances test word a n p) :
    (q.1, q.2 ++ t) ∈ advances test word a n (p.1, p.2 ++ t) := by
  induction n generalizing p with
  | zero =>
    rw [List.mem_singleton.1 h]
    exact List.mem_singleton_self _
  | succ n ih =>
    rcases List.mem_cons.1 h with rfl | h
    · exact List.mem_cons_self
    · obtain ⟨p', hp', hq⟩ := List.mem_flatMap.1 h
      exact List.mem_cons_of_mem _
        (List.mem_flatMap.2 ⟨_, mem_advance_append t hp', ih hq⟩)

/-- A match stays a match before a text that starts apart. -/
lemma mem_ends_append (ht : StartsApart word t) (h : q ∈ r.ends test word p) :
    (q.1, q.2 ++ t) ∈ r.ends test word (p.1, p.2 ++ t) := by
  induction r generalizing p q with
  | empty =>
    rw [List.mem_singleton.1 h]
    exact List.mem_singleton_self _
  | one a => exact mem_advance_append t h
  | upTo a n => exact mem_advances_append t h
  | star a =>
    refine mem_advances_mono ?_ (mem_advances_append t h)
    rw [List.length_append]
    omega
  | boundary =>
    -- at the end of the text, the text behind decides instead of its end
    have hhead : (p.2 ++ t).head?.any word = p.2.head?.any word := by
      cases hp : p.2 with
      | nil => exact ht
      | cons c rest => rfl
    rw [ends] at h ⊢
    rw [hhead]
    split at h
    · rw [List.mem_singleton.1 h]
      rename_i hne
      rw [if_pos hne]
      exact List.mem_singleton_self _
    · cases h
  | seq r₁ r₂ ih₁ ih₂ =>
    obtain ⟨m, hm, hq⟩ := List.mem_flatMap.1 h
    exact List.mem_flatMap.2 ⟨_, ih₁ hm, ih₂ hq⟩
  | alt r₁ r₂ ih₁ ih₂ =>
    rcases List.mem_append.1 h with h | h
    · exact List.mem_append.2 (.inl (ih₁ h))
    · exact List.mem_append.2 (.inr (ih₂ h))

/-! ## Searching -/

/-- A match from the start is found. -/
lemma search_of_ends {before : Bool} (h : q ∈ r.ends test word (before, s)) :
    r.search test word before s = true := by
  have hne : (r.ends test word (before, s)).isEmpty = false := by
    cases hends : r.ends test word (before, s) with
    | nil =>
      rw [hends] at h
      cases h
    | cons m ms => rfl
  cases s with
  | nil => rw [search, hne, Bool.not_false]
  | cons c rest => rw [search, hne, Bool.not_false, Bool.true_or]

lemma exists_end {ps : List (Place α)} (h : (!ps.isEmpty) = true) : ∃ q, q ∈ ps := by
  cases ps with
  | nil => cases h
  | cons q qs => exact ⟨q, List.mem_cons_self⟩

/-- What is found in a text is found when another text follows that starts apart. -/
lemma search_append (ht : StartsApart word t) {before : Bool}
    (h : r.search test word before s = true) : r.search test word before (s ++ t) = true := by
  induction s generalizing before with
  | nil =>
    obtain ⟨q, hq⟩ := exists_end h
    exact search_of_ends (mem_ends_append ht hq)
  | cons c rest ih =>
    rw [search, Bool.or_eq_true] at h
    rcases h with h | h
    · obtain ⟨q, hq⟩ := exists_end h
      exact search_of_ends (mem_ends_append ht hq)
    · rw [List.cons_append, search, ih h, Bool.or_true]

/-- What is found in a text is found behind a character of no word. -/
lemma search_after {c : α} (hc : word c = false) {before : Bool} (pre : List α)
    (h : r.search test word false s = true) :
    r.search test word before (pre ++ c :: s) = true := by
  induction pre generalizing before with
  | nil => rw [List.nil_append, search, hc, h, Bool.or_true]
  | cons d pre ih => rw [List.cons_append, search, ih, Bool.or_true]

/-! ## Matches that end inside of a text -/

lemma advance_suffix (h : q ∈ advance test word a p) : q.2 <:+ p.2 := by
  obtain ⟨before, s⟩ := p
  cases s with
  | nil => cases h
  | cons c rest =>
    rw [advance] at h
    split at h
    · rcases List.mem_singleton.1 h with rfl
      exact List.suffix_cons c rest
    · cases h

lemma advances_suffix (h : q ∈ advances test word a n p) : q.2 <:+ p.2 := by
  induction n generalizing p with
  | zero =>
    rcases List.mem_singleton.1 h with rfl
    exact List.suffix_rfl
  | succ n ih =>
    rcases List.mem_cons.1 h with rfl | h
    · exact List.suffix_rfl
    · obtain ⟨m, hm, hq⟩ := List.mem_flatMap.1 h
      exact (ih hq).trans (advance_suffix hm)

lemma ends_suffix (h : q ∈ r.ends test word p) : q.2 <:+ p.2 := by
  induction r generalizing p q with
  | empty =>
    rcases List.mem_singleton.1 h with rfl
    exact List.suffix_rfl
  | one a => exact advance_suffix h
  | upTo a n => exact advances_suffix h
  | star a => exact advances_suffix h
  | boundary =>
    rw [ends] at h
    split at h
    · rcases List.mem_singleton.1 h with rfl
      exact List.suffix_rfl
    · cases h
  | seq r₁ r₂ ih₁ ih₂ =>
    obtain ⟨m, hm, hq⟩ := List.mem_flatMap.1 h
    exact (ih₂ hq).trans (ih₁ hm)
  | alt r₁ r₂ ih₁ ih₂ =>
    rcases List.mem_append.1 h with h | h
    · exact ih₁ h
    · exact ih₂ h

/-- Both texts begin within a word, or neither does. -/
def Alike (word : α → Bool) (t t' : List α) : Prop := t.head?.any word = t'.head?.any word

section Alike

variable {b b' : Bool} {u v t' : List α}

/-- A step that leaves `t` is one over a character before it. -/
lemma advance_before (t' : List α) (h : q ∈ advance test word a (b, u ++ t)) (ht : t <:+ q.2) :
    ∃ c w, u = c :: w ∧ q = (word c, w ++ t) ∧
      (word c, w ++ t') ∈ advance test word a (b, u ++ t') := by
  cases u with
  | nil =>
    have hlength := ht.length_le
    cases t with
    | nil => cases h
    | cons c t =>
      rw [List.nil_append, advance] at h
      split at h
      · rw [List.mem_singleton.1 h, List.length_cons] at hlength
        exact absurd hlength (Nat.not_succ_le_self t.length)
      · cases h
  | cons c w =>
    rw [List.cons_append, advance] at h
    split at h
    · rename_i htest
      refine ⟨c, w, rfl, List.mem_singleton.1 h, ?_⟩
      rw [List.cons_append, advance, if_pos htest]
      exact List.mem_singleton_self _
    · cases h

/-- Over characters before `t`, at most one repetition for each of them. -/
lemma mem_advances_change (t' : List α) (h : (b', v ++ t) ∈ advances test word a n (b, u ++ t)) :
    (b', v ++ t') ∈ advances test word a (min n u.length) (b, u ++ t') := by
  induction n generalizing b u with
  | zero =>
    rw [advances, List.mem_singleton, Prod.mk.injEq, List.append_left_inj] at h
    rw [Nat.zero_min, advances, h.1, h.2]
    exact List.mem_singleton_self _
  | succ n ih =>
    rcases List.mem_cons.1 h with h | h
    · rw [Prod.mk.injEq, List.append_left_inj] at h
      rw [h.1, h.2]
      exact mem_advances_self _ _
    · obtain ⟨m, hm, hq⟩ := List.mem_flatMap.1 h
      obtain ⟨c, w, rfl, rfl, hstep⟩ :=
        advance_before t' hm ((List.suffix_append v t).trans (advances_suffix hq))
      rw [List.length_cons, Nat.succ_min_succ, advances]
      exact List.mem_cons_of_mem _ (List.mem_flatMap.2 ⟨_, hstep, ih hq⟩)

/-- What is left before `t` of a match is left before a text that goes on alike. -/
lemma mem_ends_change (halike : Alike word t t') (h : (b', v ++ t) ∈ r.ends test word (b, u ++ t)) :
    (b', v ++ t') ∈ r.ends test word (b, u ++ t') := by
  induction r generalizing b b' u v with
  | empty =>
    rw [ends, List.mem_singleton, Prod.mk.injEq, List.append_left_inj] at h
    rw [ends, h.1, h.2]
    exact List.mem_singleton_self _
  | one a =>
    obtain ⟨c, w, rfl, heq, hstep⟩ := advance_before t' h (List.suffix_append v t)
    rw [Prod.mk.injEq, List.append_left_inj] at heq
    rw [heq.1, heq.2]
    exact hstep
  | upTo a n => exact mem_advances_mono (Nat.min_le_left _ _) (mem_advances_change t' h)
  | star a =>
    have hlength : min (u ++ t).length u.length ≤ (u ++ t').length := by
      rw [List.length_append, List.length_append]
      omega
    exact mem_advances_mono hlength (mem_advances_change t' h)
  | boundary =>
    have hhead : (u ++ t).head?.any word = (u ++ t').head?.any word := by
      cases u with
      | nil => exact halike
      | cons c u => rfl
    rw [ends] at h ⊢
    rw [← hhead]
    split at h
    · rename_i hne
      rw [List.mem_singleton, Prod.mk.injEq, List.append_left_inj] at h
      rw [if_pos hne, h.1, h.2]
      exact List.mem_singleton_self _
    · cases h
  | seq r₁ r₂ ih₁ ih₂ =>
    obtain ⟨⟨b₁, s₁⟩, hm, hq⟩ := List.mem_flatMap.1 h
    -- the first part ends before `t` too, since the second one ends there
    obtain ⟨w, rfl⟩ : ∃ w, s₁ = w ++ t := by
      obtain ⟨w, hw⟩ := (List.suffix_append v t).trans (ends_suffix hq)
      exact ⟨w, hw.symm⟩
    exact List.mem_flatMap.2 ⟨_, ih₁ hm, ih₂ hq⟩
  | alt r₁ r₂ ih₁ ih₂ =>
    rcases List.mem_append.1 h with h | h
    · exact List.mem_append.2 (.inl (ih₁ h))
    · exact List.mem_append.2 (.inr (ih₂ h))

end Alike

/-- There is a match in `s ++ t` that ends where `t` begins. -/
def MatchEnds (test : κ → α → Bool) (word : α → Bool) (r : Regex κ) (before : Bool)
    (s t : List α) : Prop :=
  ∃ u v b, s = u ++ v ∧ (b, t) ∈ r.ends test word (u.foldl (fun _ c => word c) before, v ++ t)

/-- The match is there as well before a text that goes on alike. -/
lemma MatchEnds.change {before : Bool} {t' : List α} (halike : Alike word t t')
    (h : MatchEnds test word r before s t) : MatchEnds test word r before s t' := by
  obtain ⟨u, v, b, rfl, h⟩ := h
  exact ⟨u, v, b, rfl, mem_ends_change (v := []) halike h⟩

lemma MatchEnds.search {before : Bool} (h : MatchEnds test word r before s t) :
    r.search test word before (s ++ t) = true := by
  obtain ⟨u, v, b, rfl, h⟩ := h
  induction u generalizing before with
  | nil => exact search_of_ends h
  | cons c u ih =>
    rw [List.cons_append, List.cons_append, Regex.search, ih h, Bool.or_true]

/-! ## The characters that matter -/

/-- The same places, each with a part of `s` behind it. -/
def SameEnds (s : List α) (ps ps' : List (Place α)) : Prop := ps = ps' ∧ ∀ q ∈ ps, q.2 ⊆ s

namespace SameEnds

variable {ps ps' qs qs' : List (Place α)}

lemma singleton (p : Place α) : SameEnds p.2 [p] [p] := by
  refine ⟨rfl, fun q hq => ?_⟩
  rw [List.mem_singleton.1 hq]
  exact List.Subset.refl _

lemma nil (s : List α) : SameEnds s [] [] := ⟨rfl, by simp⟩

lemma append (h : SameEnds s ps ps') (h' : SameEnds s qs qs') :
    SameEnds s (ps ++ qs) (ps' ++ qs') := by
  refine ⟨by rw [h.1, h'.1], fun q hq => ?_⟩
  rcases List.mem_append.1 hq with hq | hq
  · exact h.2 q hq
  · exact h'.2 q hq

lemma flatMap {f g : Place α → List (Place α)} (h : SameEnds s ps ps')
    (hfg : ∀ m : Place α, m.2 ⊆ s → SameEnds m.2 (f m) (g m)) :
    SameEnds s (ps.flatMap f) (ps'.flatMap g) := by
  rw [← h.1]
  refine ⟨List.flatMap_congr fun m hm => (hfg m (h.2 m hm)).1, fun q hq => ?_⟩
  obtain ⟨m, hm, hq⟩ := List.mem_flatMap.1 hq
  exact List.Subset.trans ((hfg m (h.2 m hm)).2 q hq) (h.2 m hm)

end SameEnds

section Congr

variable {word' : α → Bool}

lemma advance_sameEnds (h : ∀ c ∈ p.2, word c = word' c) :
    SameEnds p.2 (advance test word a p) (advance test word' a p) := by
  obtain ⟨before, s⟩ := p
  cases s with
  | nil => exact .nil []
  | cons c rest =>
    rw [advance, advance, h c List.mem_cons_self]
    refine ⟨rfl, fun q hq => ?_⟩
    split at hq
    · rw [List.mem_singleton.1 hq]
      exact List.subset_cons_self c rest
    · cases hq

lemma advances_sameEnds (h : ∀ c ∈ p.2, word c = word' c) :
    SameEnds p.2 (advances test word a n p) (advances test word' a n p) := by
  induction n generalizing p with
  | zero => exact .singleton p
  | succ n ih =>
    rw [advances, advances]
    refine (SameEnds.singleton p).append ((advance_sameEnds h).flatMap fun m hm => ?_)
    exact ih fun c hc => h c (hm hc)

/-- Only the characters of the text are asked whether they belong to words. -/
lemma ends_sameEnds (h : ∀ c ∈ p.2, word c = word' c) :
    SameEnds p.2 (r.ends test word p) (r.ends test word' p) := by
  induction r generalizing p with
  | empty => exact .singleton p
  | one a => exact advance_sameEnds h
  | upTo a n => exact advances_sameEnds h
  | star a => exact advances_sameEnds h
  | boundary =>
    have hhead : p.2.head?.any word = p.2.head?.any word' := by
      cases hp : p.2 with
      | nil => rfl
      | cons c rest => exact h c (by rw [hp]; exact List.mem_cons_self)
    rw [ends, ends, hhead]
    split
    · exact .singleton p
    · exact .nil p.2
  | seq r₁ r₂ ih₁ ih₂ => exact (ih₁ h).flatMap fun m hm => ih₂ fun c hc => h c (hm hc)
  | alt r₁ r₂ ih₁ ih₂ => exact (ih₁ h).append (ih₂ h)

lemma search_congr {before : Bool} (h : ∀ c ∈ s, word c = word' c) :
    r.search test word before s = r.search test word' before s := by
  induction s generalizing before with
  | nil => rw [search, search, (ends_sameEnds (p := (before, [])) h).1]
  | cons c rest ih =>
    rw [search, search, (ends_sameEnds (p := (before, c :: rest)) h).1,
      h c List.mem_cons_self, ih fun d hd => h d (List.mem_cons_of_mem c hd)]

end Congr

end Regex
