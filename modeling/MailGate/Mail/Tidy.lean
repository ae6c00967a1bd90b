import MailGate.Mail.Parse

/-!
# The end of a text

How the text that `parse_message` keeps depends on the end of the text that it has collected:
line ends there do not count, and a character that is no white space stays the last one.
-/

namespace MailGate

namespace PyStr

open PyChar

/-! ## Joining -/

lemma join_append {sep : PyStr} {xs ys : List PyStr} (hxs : xs ≠ []) (hys : ys ≠ []) :
    join sep (xs ++ ys) = join sep xs ++ sep ++ join sep ys := by
  show sep.intercalate (xs ++ ys) = sep.intercalate xs ++ sep ++ sep.intercalate ys
  induction xs with
  | nil => exact absurd rfl hxs
  | cons x xs ih =>
    cases xs with
    | nil =>
      rw [List.singleton_append, List.intercalate_cons_of_ne_nil hys, List.intercalate_singleton]
    | cons x' xs =>
      have hne : (x' :: xs) ++ ys ≠ [] := by simp
      have hne' : x' :: xs ≠ [] := by simp
      rw [List.cons_append, List.intercalate_cons_of_ne_nil hne, ih hne',
        List.intercalate_cons_of_ne_nil hne']
      simp only [List.append_assoc]

lemma join_singleton (sep x : PyStr) : join sep [x] = x := List.intercalate_singleton

/-! ## Stripping -/

lemma strip_append_of_space {s x : PyStr} (hx : ∀ c ∈ x, isSpace c = true) :
    strip (s ++ x) = strip s := by
  have hall : x.dropWhile isSpace = [] := List.dropWhile_eq_nil_iff.2 hx
  have hend : ∀ t : PyStr, (t ++ x).rdropWhile isSpace = t.rdropWhile isSpace := by
    intro t
    rw [List.rdropWhile, List.rdropWhile, List.reverse_append,
      List.dropWhile_append_of_pos (by simpa using hx)]
  rw [strip, strip, List.dropWhile_append]
  split
  · rename_i hempty
    rw [List.isEmpty_iff.1 hempty, hall]
  · exact hend _

lemma strip_concat {s : PyStr} {c : PyChar} (hc : isSpace c = false) :
    (strip (s ++ [c])).getLast? = some c := by
  have hend : ∀ t : PyStr, ((t ++ [c]).rdropWhile isSpace).getLast? = some c := by
    intro t
    rw [List.rdropWhile_concat_neg _ _ _ (by simp [hc]), List.getLast?_concat]
  rw [strip, List.dropWhile_append]
  split
  · rw [List.dropWhile_cons_of_neg (by simp [hc])]
    exact hend []
  · exact hend _

/-! ## Lines -/

/-- A line end at the end of a text adds an empty line or nothing. -/
lemma splitlines_concat_newline (s : PyStr) :
    splitlines (s ++ py "\n") = splitlines s ∨
      splitlines (s ++ py "\n") = splitlines s ++ [[]] := by
  have hline : py "\n" = [0x0A] := by decide
  have hbreak : isLineBreak 0x0A = true := by decide
  rw [hline]
  induction s using splitlines.induct with
  | case1 => exact .inr (by simp [splitlines, hbreak])
  | case2 d hd =>
    by_cases hreturn : d = 0x0D
    · subst hreturn
      exact .inl (by simp [splitlines, hd])
    · exact .inr (by simp [splitlines, hd, hbreak, hreturn])
  | case3 d hd =>
    have hreturn : d ≠ 0x0D := by
      rintro rfl
      exact hd (by decide)
    exact .inl (by simp [splitlines, hd, hbreak, hreturn])
  | case4 d e cs hde ih =>
    simp only [List.cons_append, splitlines, hde, and_self, if_true]
    exact ih.imp (fun h => by rw [h]) fun h => by rw [h]
  | case5 d e cs hde hd ih =>
    simp only [List.cons_append, splitlines, hde, hd, if_false, if_true] at ih ⊢
    exact ih.imp (fun h => by rw [h]) fun h => by rw [h]
  | case6 d e cs hde hd hnil ih =>
    simp only [List.cons_append, splitlines, hde, hd, if_false, Bool.false_eq_true, hnil] at ih ⊢
    rcases ih with h | h
    · exact .inl (by rw [h])
    · exact .inl (by rw [h, List.nil_append])
  | case7 d e cs hde hd m ms hm ih =>
    simp only [List.cons_append, splitlines, hde, hd, if_false, Bool.false_eq_true, hm] at ih ⊢
    rcases ih with h | h
    · exact .inl (by rw [h])
    · exact .inr (by rw [h])

/-- A character that is no line break ends the last line. -/
lemma splitlines_concat {c : PyChar} (hc : isLineBreak c = false) (s : PyStr) :
    ∃ ls l, splitlines (s ++ [c]) = ls ++ [l ++ [c]] := by
  have hline : c ≠ 0x0A := by
    rintro rfl
    exact absurd hc (by decide)
  induction s using splitlines.induct with
  | case1 => exact ⟨[], [], by simp [splitlines, hc]⟩
  | case2 d hd => exact ⟨[[]], [], by simp [splitlines, hd, hc, hline]⟩
  | case3 d hd => exact ⟨[], [d], by simp [splitlines, hd, hc, hline]⟩
  | case4 d e cs hde ih =>
    obtain ⟨ls, l, h⟩ := ih
    refine ⟨[] :: ls, l, ?_⟩
    simp only [List.cons_append, splitlines, hde, and_self, if_true, h]
  | case5 d e cs hde hd ih =>
    obtain ⟨ls, l, h⟩ := ih
    refine ⟨[] :: ls, l, ?_⟩
    simp only [List.cons_append, splitlines, hde, hd, if_false, if_true] at h ⊢
    rw [h]
  | case6 d e cs hde hd hnil ih =>
    obtain ⟨ls, l, h⟩ := ih
    simp only [List.cons_append, splitlines, hde, hd, if_false, Bool.false_eq_true] at h ⊢
    rw [h]
    cases ls with
    | nil => exact ⟨[], d :: l, rfl⟩
    | cons l' ls => exact ⟨(d :: l') :: ls, l, rfl⟩
  | case7 d e cs hde hd m ms hm ih =>
    obtain ⟨ls, l, h⟩ := ih
    simp only [List.cons_append, splitlines, hde, hd, if_false, Bool.false_eq_true] at h ⊢
    rw [h]
    cases ls with
    | nil => exact ⟨[], d :: l, rfl⟩
    | cons l' ls => exact ⟨(d :: l') :: ls, l, rfl⟩

end PyStr

open PyStr PyChar

/-! ## The tidy text -/

lemma tidyLines_concat_newline (s : PyStr) : tidyLines (s ++ py "\n") = tidyLines s := by
  have hline : py "\n" = [0x0A] := by decide
  have hkept : remove 0x0D (py "\n") = py "\n" := by decide
  have hspace : ∀ c ∈ py "\n", isSpace c = true := by
    rw [hline]
    exact List.forall_mem_singleton.2 (by decide)
  have hremove : remove 0x0D (s ++ py "\n") = remove 0x0D s ++ py "\n" := by
    rw [remove, List.filter_append]
    exact congrArg _ hkept
  rw [tidyLines, tidyLines, hremove]
  rcases splitlines_concat_newline (remove 0x0D s) with h | h
  · rw [h]
  · rw [h, List.map_append]
    by_cases hnone : splitlines (remove 0x0D s) = []
    · rw [hnone]
      rfl
    · rw [join_append (by simpa using hnone) (by simp)]
      have hempty : join (py "\n") (List.map rstrip [[]]) = [] := rfl
      rw [hempty, List.append_nil, strip_append_of_space hspace]

lemma tidyLines_append_newlines (s : PyStr) (n : ℕ) :
    tidyLines (s ++ List.replicate n (ofChar '\n')) = tidyLines s := by
  induction n with
  | zero => simp
  | succ n ih =>
    have hline : py "\n" = [ofChar '\n'] := by decide
    rw [List.replicate_succ', ← List.append_assoc, ← hline, tidyLines_concat_newline, ih]

lemma tidyLines_concat {s : PyStr} {c : PyChar} (hspace : isSpace c = false)
    (hbreak : isLineBreak c = false) : (tidyLines (s ++ [c])).getLast? = some c := by
  have hreturn : c ≠ 0x0D := by
    rintro rfl
    exact absurd hspace (by decide)
  have hremove : remove 0x0D (s ++ [c]) = remove 0x0D s ++ [c] := by
    rw [remove, List.filter_append, List.filter_cons_of_pos (by simpa using hreturn)]
    rfl
  obtain ⟨ls, l, h⟩ := splitlines_concat hbreak (remove 0x0D s)
  have hlast : rstrip (l ++ [c]) = l ++ [c] :=
    List.rdropWhile_concat_neg _ _ _ (by simp [hspace])
  have hend : ∃ t, join (py "\n") ((ls ++ [l ++ [c]]).map rstrip) = t ++ [c] := by
    rw [List.map_append, List.map_singleton, hlast]
    by_cases hls : ls = []
    · rw [hls]
      exact ⟨l, join_singleton _ _⟩
    · rw [join_append (by simpa using hls) (by simp), join_singleton]
      exact ⟨join (py "\n") (ls.map rstrip) ++ py "\n" ++ l, by simp⟩
  obtain ⟨t, ht⟩ := hend
  rw [tidyLines, hremove, h, ht]
  exact strip_concat hspace

end MailGate
