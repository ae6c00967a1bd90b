import Mathlib.Data.List.Basic
import Mathlib.Data.List.Infix
import Mathlib.Tactic.Common

/-!
# Shell patterns

The patterns of a shell's `case`: characters that stand for themselves, brackets, and the star.
A pattern matches a whole text.
-/

namespace Glob

/-- One part of a pattern. -/
inductive Part (α : Type) where
  /-- A character that stands for itself. -/
  | char (a : α)
  /-- A bracket expression, as the test that it is. -/
  | bracket (test : α → Bool)
  | star

variable {α : Type} [DecidableEq α]

/-- The pattern matches the text. -/
def accepts : List (Part α) → List α → Bool
  | [], s => s.isEmpty
  | .star :: ps, s => s.tails.any (accepts ps)
  | .char _ :: _, [] => false
  | .char a :: ps, c :: s => decide (c = a) && accepts ps s
  | .bracket _ :: _, [] => false
  | .bracket test :: ps, c :: s => test c && accepts ps s

/-- A word of a pattern. -/
def word (w : List α) : List (Part α) := w.map .char

variable {ps : List (Part α)} {s w : List α} {test : α → Bool}

@[simp] lemma accepts_nil : accepts ([] : List (Part α)) s = true ↔ s = [] :=
  List.isEmpty_iff

/-- The star matches any text. -/
lemma accepts_star : accepts (.star :: ps) s = true ↔ ∃ t, t <:+ s ∧ accepts ps t = true := by
  simp only [accepts, List.any_eq_true, List.mem_tails]

lemma accepts_bracket : accepts (.bracket test :: ps) s = true ↔
    ∃ c t, s = c :: t ∧ test c = true ∧ accepts ps t = true := by
  cases s with
  | nil => simp [accepts]
  | cons c t => simp [accepts]

/-- A word matches itself. -/
lemma accepts_word_append :
    accepts (word w ++ ps) s = true ↔ ∃ t, s = w ++ t ∧ accepts ps t = true := by
  induction w generalizing s with
  | nil => simp [word]
  | cons a w ih =>
    cases s with
    | nil => simp [word, accepts]
    | cons c s =>
      have hstep : accepts (word (a :: w) ++ ps) (c :: s) =
          (decide (c = a) && accepts (word w ++ ps) s) := rfl
      rw [hstep, Bool.and_eq_true, decide_eq_true_eq, ih]
      simp only [List.cons_append, List.cons.injEq]
      constructor
      · rintro ⟨rfl, t, rfl, ht⟩
        exact ⟨t, ⟨rfl, rfl⟩, ht⟩
      · rintro ⟨t, ⟨rfl, rfl⟩, ht⟩
        exact ⟨rfl, t, rfl, ht⟩

@[simp] lemma accepts_word : accepts (word w) s = true ↔ s = w := by
  have h : accepts (word w ++ []) s = true ↔ ∃ t, s = w ++ t ∧ accepts [] t = true :=
    accepts_word_append
  rw [List.append_nil] at h
  simp [h]

@[simp] lemma accepts_star_nil : accepts [(.star : Part α)] s = true :=
  accepts_star.2 ⟨[], List.nil_suffix, rfl⟩

/-- `w*`. -/
lemma accepts_word_star : accepts (word w ++ [.star]) s = true ↔ w <+: s := by
  rw [accepts_word_append]
  constructor
  · rintro ⟨t, rfl, -⟩
    exact List.prefix_append w t
  · rintro ⟨t, rfl⟩
    exact ⟨t, rfl, accepts_star_nil⟩

/-- `*w`. -/
lemma accepts_star_word : accepts (.star :: word w) s = true ↔ w <:+ s := by
  rw [accepts_star]
  constructor
  · rintro ⟨t, ht, hw⟩
    rw [accepts_word] at hw
    exact hw ▸ ht
  · exact fun h => ⟨w, h, accepts_word.2 rfl⟩

/-- `*w*`. -/
lemma accepts_star_word_star : accepts (.star :: (word w ++ [.star])) s = true ↔ w <:+: s := by
  rw [accepts_star, List.infix_iff_prefix_suffix]
  simp only [accepts_word_star, and_comm]

/-- `*[...]*`. -/
lemma accepts_star_bracket_star :
    accepts [.star, .bracket test, .star] s = true ↔ ∃ c ∈ s, test c = true := by
  rw [accepts_star]
  constructor
  · rintro ⟨t, ht, hmatch⟩
    obtain ⟨c, r, rfl, hc, -⟩ := accepts_bracket.1 hmatch
    exact ⟨c, ht.subset List.mem_cons_self, hc⟩
  · rintro ⟨c, hc, htest⟩
    obtain ⟨front, rest, rfl⟩ := List.append_of_mem hc
    exact ⟨c :: rest, List.suffix_append front _,
      accepts_bracket.2 ⟨c, rest, rfl, htest, accepts_star_nil⟩⟩

end Glob
