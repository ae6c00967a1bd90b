import Mathlib.Algebra.BigOperators.Group.List.Basic
import MailGate.Python.Str

/-!
# Writing words for characters

Some characters of a text are written out as words, as `_visible_controls` does.  Breaking the
text into lines, trimming and joining only look at white space; so they can as well be done
before the characters are written out.
-/

namespace MailGate

namespace PyStr

open PyChar

/-- A text without line breaks that neither begins nor ends with white space. -/
structure IsWord (w : PyStr) : Prop where
  begins : ∃ c t, w = c :: t ∧ isSpace c = false
  ends : ∃ t c, w = t ++ [c] ∧ isSpace c = false
  oneLine : ∀ c ∈ w, isLineBreak c = false

/-- The character is written as itself, or it is no white space and is written as a word. -/
def Spells (σ : PyChar → PyStr) (c : PyChar) : Prop :=
  σ c = [c] ∨ isSpace c = false ∧ IsWord (σ c)

section

variable {σ : PyChar → PyStr} {c : PyChar} {s : PyStr}

lemma isSpace_of_isLineBreak (h : isLineBreak c = true) : isSpace c = true := by
  simp only [isLineBreak, Bool.or_eq_true, Bool.and_eq_true, decide_eq_true_eq, beq_iff_eq] at h
  simp only [isSpace, Bool.or_eq_true, Bool.and_eq_true, decide_eq_true_eq, beq_iff_eq]
  omega

lemma Spells.of_space (h : Spells σ c) (hc : isSpace c = true) : σ c = [c] := by
  rcases h with h | ⟨hspace, -⟩
  · exact h
  · rw [hc] at hspace
    cases hspace

lemma Spells.isWord (h : Spells σ c) (hc : isSpace c = false) : IsWord (σ c) := by
  rcases h with h | ⟨-, h⟩
  · rw [h]
    refine ⟨⟨c, [], rfl, hc⟩, ⟨[], c, rfl, hc⟩, ?_⟩
    intro d hd
    rw [List.mem_singleton.1 hd]
    by_contra hbreak
    rw [isSpace_of_isLineBreak (by simpa using hbreak)] at hc
    cases hc
  · exact h

/-! ## Trimming -/

lemma rdropWhile_flatMap (h : ∀ c ∈ s, Spells σ c) :
    (s.flatMap σ).rdropWhile isSpace = (s.rdropWhile isSpace).flatMap σ := by
  induction s using List.reverseRecOn with
  | nil => rfl
  | append_singleton s c ih =>
    rw [List.forall_mem_append, List.forall_mem_singleton] at h
    rw [List.flatMap_append, List.flatMap_singleton]
    cases hc : isSpace c with
    | true =>
      rw [h.2.of_space hc, List.rdropWhile_concat_pos _ _ _ (by simp [hc]),
        List.rdropWhile_concat_pos _ _ _ (by simp [hc])]
      exact ih h.1
    | false =>
      obtain ⟨t, d, hd, hspace⟩ := (h.2.isWord hc).ends
      rw [List.rdropWhile_concat_neg _ _ _ (by simp [hc]), hd, ← List.append_assoc,
        List.rdropWhile_concat_neg _ _ _ (by simp [hspace]), List.flatMap_append,
        List.flatMap_singleton, hd, List.append_assoc]

lemma dropWhile_flatMap (h : ∀ c ∈ s, Spells σ c) :
    (s.flatMap σ).dropWhile isSpace = (s.dropWhile isSpace).flatMap σ := by
  induction s with
  | nil => rfl
  | cons c s ih =>
    rw [List.forall_mem_cons] at h
    rw [List.flatMap_cons]
    cases hc : isSpace c with
    | true =>
      rw [h.1.of_space hc, List.singleton_append, List.dropWhile_cons_of_pos hc,
        List.dropWhile_cons_of_pos hc]
      exact ih h.2
    | false =>
      obtain ⟨d, t, hd, hspace⟩ := (h.1.isWord hc).begins
      rw [List.dropWhile_cons_of_neg (by simp [hc]), List.flatMap_cons, hd, List.cons_append,
        List.dropWhile_cons_of_neg (by simp [hspace])]

lemma strip_flatMap (h : ∀ c ∈ s, Spells σ c) : strip (s.flatMap σ) = (strip s).flatMap σ := by
  have hdrop : ∀ c ∈ s.dropWhile isSpace, Spells σ c :=
    fun c hc => h c ((List.dropWhile_suffix _).subset hc)
  rw [strip, dropWhile_flatMap h, rdropWhile_flatMap hdrop, strip]

/-! ## Lines -/

/-- The text is written before the first line. -/
def prepend (w : PyStr) : List PyStr → List PyStr
  | [] => [w]
  | l :: ls => (w ++ l) :: ls

lemma splitlines_cons (hc : isLineBreak c = false) (s : PyStr) :
    splitlines (c :: s) = prepend [c] (splitlines s) := by
  have hreturn : c ≠ 0x0D := by
    rintro rfl
    exact absurd hc (by decide)
  cases s with
  | nil => simp [splitlines, hc, prepend]
  | cons d s =>
    rw [splitlines, if_neg (fun h => hreturn h.1), if_neg (by simp [hc])]
    cases splitlines (d :: s) with
    | nil => rfl
    | cons l ls => rfl

lemma splitlines_cons_break (hc : isLineBreak c = true) (hreturn : c ≠ 0x0D) (s : PyStr) :
    splitlines (c :: s) = [] :: splitlines s := by
  cases s with
  | nil => simp [splitlines, hc]
  | cons d s => rw [splitlines, if_neg (fun h => hreturn h.1), if_pos hc]

lemma prepend_cons (w : PyStr) (ls : List PyStr) :
    prepend (c :: w) ls = prepend [c] (prepend w ls) := by
  cases ls with
  | nil => rfl
  | cons l ls => rfl

lemma splitlines_word {w : PyStr} (hne : w ≠ []) (hw : ∀ c ∈ w, isLineBreak c = false)
    (s : PyStr) : splitlines (w ++ s) = prepend w (splitlines s) := by
  induction w with
  | nil => exact absurd rfl hne
  | cons c w ih =>
    rw [List.forall_mem_cons] at hw
    cases w with
    | nil => exact splitlines_cons hw.1 s
    | cons d w =>
      rw [List.cons_append, splitlines_cons hw.1, ih (by simp) hw.2, ← prepend_cons]

lemma map_flatMap_prepend (c : PyChar) (ls : List PyStr) :
    (prepend [c] ls).map (·.flatMap σ) = prepend (σ c) (ls.map (·.flatMap σ)) := by
  cases ls with
  | nil => simp [prepend]
  | cons l ls => simp [prepend]

lemma splitlines_flatMap (h : ∀ c ∈ s, Spells σ c) (hreturn : (0x0D : PyChar) ∉ s) :
    splitlines (s.flatMap σ) = (splitlines s).map (·.flatMap σ) := by
  induction s with
  | nil => rfl
  | cons c s ih =>
    rw [List.forall_mem_cons] at h
    rw [List.mem_cons, not_or] at hreturn
    rw [List.flatMap_cons]
    cases hbreak : isLineBreak c with
    | true =>
      have hc : c ≠ 0x0D := fun heq => hreturn.1 heq.symm
      rw [h.1.of_space (isSpace_of_isLineBreak hbreak), List.singleton_append,
        splitlines_cons_break hbreak hc, splitlines_cons_break hbreak hc, ih h.2 hreturn.2]
      rfl
    | false =>
      have hword : σ c ≠ [] ∧ ∀ d ∈ σ c, isLineBreak d = false := by
        rcases h.1 with h | ⟨-, h⟩
        · rw [h]
          simpa using hbreak
        · obtain ⟨d, t, hd, -⟩ := h.begins
          exact ⟨by simp [hd], h.oneLine⟩
      rw [splitlines_word hword.1 hword.2, splitlines_cons hbreak, map_flatMap_prepend,
        ih h.2 hreturn.2]

lemma remove_flatMap (h : ∀ c ∈ s, Spells σ c) :
    remove 0x0D (s.flatMap σ) = (remove 0x0D s).flatMap σ := by
  have hspace : isSpace 0x0D = true := by decide
  have hbreak : isLineBreak 0x0D = true := by decide
  induction s with
  | nil => rfl
  | cons c s ih =>
    rw [List.forall_mem_cons] at h
    have hone : remove 0x0D (σ c) = (remove 0x0D [c]).flatMap σ := by
      by_cases hc : c = 0x0D
      · subst hc
        rw [h.1.of_space hspace]
        rfl
      · have hkept : remove 0x0D [c] = [c] := by simp [remove, hc]
        rw [hkept, List.flatMap_singleton]
        refine List.filter_eq_self.2 fun d hd => ?_
        rcases h.1 with h | ⟨-, h⟩
        · rw [h, List.mem_singleton] at hd
          simpa [hd] using hc
        · refine decide_eq_true ?_
          rintro rfl
          exact absurd (h.oneLine _ hd) (by simp [hbreak])
    have hcons : remove 0x0D (c :: s) = remove 0x0D [c] ++ remove 0x0D s := by
      show remove 0x0D ([c] ++ s) = _
      exact List.filter_append _ _
    rw [hcons, List.flatMap_append, ← hone, ← ih h.2, List.flatMap_cons]
    exact List.filter_append _ _

lemma join_flatMap (hline : σ (ofChar '\n') = py "\n") (ls : List PyStr) :
    join (py "\n") (ls.map (·.flatMap σ)) = (join (py "\n") ls).flatMap σ := by
  have hsep : (py "\n").flatMap σ = py "\n" := (List.flatMap_singleton _ _).trans hline
  induction ls with
  | nil => rfl
  | cons l ls ih =>
    cases ls with
    | nil => simp [join]
    | cons l' ls =>
      have hstep : ∀ (x y : PyStr) (ys : List PyStr),
          join (py "\n") (x :: y :: ys) = x ++ py "\n" ++ join (py "\n") (y :: ys) := by
        intro x y ys
        simp [join, List.intercalate]
      rw [List.map_cons, List.map_cons, hstep, hstep, ← List.map_cons, ih, List.flatMap_append,
        List.flatMap_append, hsep]

end

/-! ## What is not white space -/

/-- The characters that are not white space. -/
def solid (s : PyStr) : PyStr := s.filter (!isSpace ·)

section

variable {s t : PyStr}

lemma solid_append : solid (s ++ t) = solid s ++ solid t := List.filter_append s t

lemma solid_eq_nil (h : ∀ c ∈ s, isSpace c = true) : solid s = [] :=
  List.filter_eq_nil_iff.2 fun c hc => by simp [h c hc]

lemma solid_solid (s : PyStr) : solid (solid s) = solid s := by
  rw [solid, solid, List.filter_filter]
  simp only [Bool.and_self]

lemma solid_rdropWhile (s : PyStr) : solid (s.rdropWhile isSpace) = solid s := by
  conv_rhs => rw [← List.rdropWhile_append_rtakeWhile (p := isSpace) (l := s)]
  rw [solid_append, solid_eq_nil fun c hc => List.mem_rtakeWhile_imp hc, List.append_nil]

lemma solid_strip (s : PyStr) : solid (strip s) = solid s := by
  rw [strip, solid_rdropWhile]
  conv_rhs => rw [← List.takeWhile_append_dropWhile (p := isSpace) (l := s)]
  rw [solid_append, solid_eq_nil fun c hc => List.mem_takeWhile_imp hc, List.nil_append]

lemma solid_remove (s : PyStr) : solid (remove 0x0D s) = solid s := by
  have hspace : isSpace 0x0D = true := by decide
  rw [solid, solid, remove, List.filter_filter]
  refine List.filter_congr fun c _ => ?_
  by_cases hc : c = 0x0D
  · subst hc
    simp [hspace]
  · simp [hc]

/-- A separator of which nothing is left joins nothing. -/
lemma erase_join {f : PyStr → PyStr} {sep : PyStr} (hnil : f [] = [])
    (happend : ∀ s t, f (s ++ t) = f s ++ f t) (hsep : f sep = []) (ls : List PyStr) :
    f (join sep ls) = ls.flatMap f := by
  induction ls with
  | nil => exact hnil
  | cons l ls ih =>
    cases ls with
    | nil => simp [join]
    | cons l' ls =>
      have hstep : join sep (l :: l' :: ls) = l ++ sep ++ join sep (l' :: ls) := by
        simp [join, List.intercalate]
      rw [hstep, happend, happend, hsep, List.append_nil, ih]
      rfl

lemma solid_join (ls : List PyStr) : solid (join (py "\n") ls) = ls.flatMap solid :=
  erase_join rfl (fun _ _ => solid_append) (by decide) ls

lemma solid_splitlines (hreturn : (0x0D : PyChar) ∉ s) :
    (splitlines s).flatMap solid = solid s := by
  induction s with
  | nil => rfl
  | cons c s ih =>
    rw [List.mem_cons, not_or] at hreturn
    have hcons : solid (c :: s) = solid [c] ++ solid s := solid_append (s := [c])
    cases hbreak : isLineBreak c with
    | true =>
      have hspace : solid [c] = [] := by simp [solid, isSpace_of_isLineBreak hbreak]
      rw [splitlines_cons_break hbreak (fun h => hreturn.1 h.symm), List.flatMap_cons,
        ih hreturn.2, hcons, hspace]
      rfl
    | false =>
      rw [splitlines_cons hbreak, hcons, ← ih hreturn.2]
      cases splitlines s with
      | nil => simp [prepend]
      | cons l ls =>
        rw [prepend, List.flatMap_cons, List.flatMap_cons, solid_append, List.append_assoc]

end

/-! ## Weights -/

section

variable (w : PyChar → ℕ)

/-- The sum of the weights of the characters. -/
def weigh (s : PyStr) : ℕ := (s.map w).sum

variable {w}

/-- White space that weighs nothing can be left out. -/
lemma weigh_solid (hw : ∀ c, isSpace c = true → w c = 0) (s : PyStr) :
    weigh w (solid s) = weigh w s := by
  induction s with
  | nil => rfl
  | cons c s ih =>
    cases hc : isSpace c with
    | true =>
      have hgone : solid (c :: s) = solid s := by simp [solid, hc]
      rw [hgone, ih]
      simp [weigh, hw c hc]
    | false =>
      have hstays : solid (c :: s) = c :: solid s := by simp [solid, hc]
      rw [hstays]
      simpa [weigh] using ih

end

end PyStr

end MailGate
