import MailGate.Python.Json.Load

/-!
# Universal newlines

What `read_text` makes of the line ends of a file, and what does not depend on it: the text
without the white space around it, and the JSON value that it spells.
-/

namespace MailGate

namespace PyStr

open PyChar

/-- The rest of a text with every `"\r\n"` and `"\r"` as `"\n"`, after a `"\r"` or not. -/
def newlinesFrom : Bool → PyStr → PyStr
  | _, [] => []
  | afterReturn, c :: cs =>
      if c = 0x0D then 0x0A :: newlinesFrom true cs
      else if afterReturn ∧ c = 0x0A then newlinesFrom false cs
      else c :: newlinesFrom false cs

/-- A text as a file in text mode returns it. -/
def universalNewlines (s : PyStr) : PyStr := newlinesFrom false s

/-- The characters of a text as it is returned. -/
lemma mem_newlinesFrom {b : Bool} {s : PyStr} {c : PyChar} (h : c ∈ newlinesFrom b s) :
    c ∈ s ∨ c = 0x0A := by
  induction s generalizing b with
  | nil => cases h
  | cons d s ih =>
    rw [newlinesFrom] at h
    split at h
    · rcases List.mem_cons.1 h with rfl | h
      · exact .inr rfl
      · exact (ih h).imp (List.mem_cons_of_mem _) id
    split at h
    · exact (ih h).imp (List.mem_cons_of_mem _) id
    · rcases List.mem_cons.1 h with rfl | h
      · exact .inl List.mem_cons_self
      · exact (ih h).imp (List.mem_cons_of_mem _) id

lemma newlinesFrom_cons_of_not_space {c : PyChar} (hc : c.isSpace = false) (b : Bool) (s : PyStr) :
    newlinesFrom b (c :: s) = c :: newlinesFrom false s := by
  have hreturn : c ≠ 0x0D := by
    rintro rfl
    exact absurd hc (by decide)
  have hline : c ≠ 0x0A := by
    rintro rfl
    exact absurd hc (by decide)
  simp [newlinesFrom, hreturn, hline]

/-- What a character of white space becomes is white space. -/
lemma newlinesFrom_cons_of_space {c : PyChar} (hc : c.isSpace = true) (b : Bool) (s : PyStr) :
    ∃ x b', newlinesFrom b (c :: s) = x ++ newlinesFrom b' s ∧ ∀ d ∈ x, d.isSpace = true := by
  rw [newlinesFrom]
  split
  · exact ⟨[0x0A], true, rfl, List.forall_mem_singleton.2 (by decide)⟩
  split
  · exact ⟨[], false, rfl, by simp⟩
  · exact ⟨[c], false, rfl, by simpa using hc⟩

lemma dropWhile_newlinesFrom (b : Bool) (s : PyStr) :
    (newlinesFrom b s).dropWhile isSpace = universalNewlines (s.dropWhile isSpace) := by
  induction s generalizing b with
  | nil => rfl
  | cons c s ih =>
    cases hc : c.isSpace with
    | false =>
      rw [newlinesFrom_cons_of_not_space hc, List.dropWhile_cons_of_neg (by simp [hc]),
        List.dropWhile_cons_of_neg (by simp [hc]), universalNewlines,
        newlinesFrom_cons_of_not_space hc]
    | true =>
      obtain ⟨x, b', hx, hspace⟩ := newlinesFrom_cons_of_space hc b s
      rw [hx, List.dropWhile_append_of_pos hspace, ih, List.dropWhile_cons_of_pos hc]

/-- A character at the end of a text. -/
lemma newlinesFrom_concat (b : Bool) (s : PyStr) (c : PyChar) :
    ∃ b', newlinesFrom b (s ++ [c]) = newlinesFrom b s ++ newlinesFrom b' [c] := by
  induction s generalizing b with
  | nil => exact ⟨b, rfl⟩
  | cons d s ih =>
    simp only [List.cons_append, newlinesFrom]
    split
    · obtain ⟨b', h⟩ := ih true
      exact ⟨b', by rw [h]; rfl⟩
    split
    · exact ih false
    · obtain ⟨b', h⟩ := ih false
      exact ⟨b', by rw [h]; rfl⟩

lemma rdropWhile_append_of_pos {p : PyChar → Bool} {s x : PyStr} (hx : ∀ c ∈ x, p c = true) :
    (s ++ x).rdropWhile p = s.rdropWhile p := by
  rw [List.rdropWhile, List.rdropWhile, List.reverse_append,
    List.dropWhile_append_of_pos (by simpa using hx)]

lemma rdropWhile_newlinesFrom (b : Bool) (s : PyStr) :
    (newlinesFrom b s).rdropWhile isSpace = newlinesFrom b (s.rdropWhile isSpace) := by
  induction s using List.reverseRecOn with
  | nil => rfl
  | append_singleton s c ih =>
    obtain ⟨b', h⟩ := newlinesFrom_concat b s c
    cases hc : c.isSpace with
    | false =>
      rw [List.rdropWhile_concat_neg _ _ _ (by simp [hc]), h, newlinesFrom_cons_of_not_space hc,
        newlinesFrom, List.rdropWhile_concat_neg _ _ _ (by simp [hc])]
    | true =>
      obtain ⟨x, b'', hx, hspace⟩ := newlinesFrom_cons_of_space hc b' []
      rw [List.rdropWhile_concat_pos _ _ _ hc, h, hx, newlinesFrom, List.append_nil,
        rdropWhile_append_of_pos hspace, ih]

/-- The white space around a text goes in either order. -/
theorem strip_universalNewlines (s : PyStr) :
    strip (universalNewlines s) = universalNewlines (strip s) := by
  rw [strip, universalNewlines, dropWhile_newlinesFrom, universalNewlines, rdropWhile_newlinesFrom]
  rfl

/-- Line ends aside, the text is the same. -/
lemma filter_newlinesFrom (b : Bool) (s : PyStr) :
    (newlinesFrom b s).filter (fun c => c ≠ 0x0D ∧ c ≠ 0x0A) =
      s.filter (fun c => c ≠ 0x0D ∧ c ≠ 0x0A) := by
  induction s generalizing b with
  | nil => rfl
  | cons c s ih =>
    rw [newlinesFrom]
    split
    · rename_i hc
      rw [List.filter_cons_of_neg (by simp), List.filter_cons_of_neg (by simp [hc]), ih]
    split
    · rename_i hc
      rw [List.filter_cons_of_neg (by simp [hc.2]), ih]
    · rw [List.filter_cons, List.filter_cons, ih]

lemma filter_universalNewlines (s : PyStr) :
    (universalNewlines s).filter (fun c => c ≠ 0x0D ∧ c ≠ 0x0A) =
      s.filter (fun c => c ≠ 0x0D ∧ c ≠ 0x0A) :=
  filter_newlinesFrom false s

end PyStr

namespace Json

open PyStr

variable {F : Type} {floats : Floats F} {hook : List (PyStr × Json F) → Except LoadExn (Json F)}

/-- The tokens of a text do not depend on its line ends: outside strings these are white space,
and within a string they are an error. -/
lemma lex_newlinesFrom (s : PyStr) :
    (∀ state, lex floats state (newlinesFrom false s) = lex floats state s) ∧
      lex floats (.plain []) (newlinesFrom true s) = lex floats (.plain []) s := by
  induction s with
  | nil => exact ⟨fun _ => rfl, rfl⟩
  | cons c s ih =>
    obtain ⟨hsame, hafter⟩ := ih
    have hreturn : ∀ state, lex floats state (0x0A :: newlinesFrom true s) =
        lex floats state (0x0D :: s) := by
      intro state
      cases state with
      | plain run =>
        show scanRun floats run ++ _ = scanRun floats run ++ _
        rw [hafter]
      | text units => rfl
      | escape units => rfl
      | hex units digits value => rfl
    have hother : ∀ state, lex floats state (c :: newlinesFrom false s) =
        lex floats state (c :: s) := by
      intro state
      cases state with
      | plain run => simp only [lex, hsame]
      | text units => simp only [lex, hsame]
      | escape units => simp only [lex, hsame]
      | hex units digits value => simp only [lex, hsame]
    refine ⟨fun state => ?_, ?_⟩
    · rw [newlinesFrom]
      split
      · rename_i hc
        rw [hreturn, hc]
      · rw [if_neg (by simp), hother]
    · rw [newlinesFrom]
      split
      · rename_i hc
        rw [hreturn, hc]
      split
      · -- the second half of a line end that was read already
        rename_i hc
        rw [hsame, hc.2]
        rfl
      · exact hother _

lemma head_universalNewlines (s : PyStr) :
    (universalNewlines s).head? = some 0xFEFF ↔ s.head? = some 0xFEFF := by
  cases s with
  | nil => rfl
  | cons c s =>
    rw [universalNewlines, newlinesFrom]
    split
    · rename_i hc
      rw [hc]
      simp
    · simp

/-- The value of a text does not depend on its line ends. -/
theorem loads_universalNewlines (s : PyStr) :
    loads floats hook (universalNewlines s) = loads floats hook s := by
  rw [loads, loads, universalNewlines, (lex_newlinesFrom s).1]
  exact if_congr (head_universalNewlines s) rfl rfl

end Json

end MailGate
