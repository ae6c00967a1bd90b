import MailGate.Mail.Parse

/-!
# Character references

The parser of HTML decodes character references, and `_html_to_text` decodes what the parser
returns once more.  A text survives escaping and extraction exactly if it holds no reference
itself.
-/

namespace MailGate

open PyStr

/-- What `html.escape` writes for one character. -/
def escapeHtmlChar (c : PyChar) : PyStr :=
  if c = ofChar '&' then py "&amp;"
  else if c = ofChar '<' then py "&lt;"
  else if c = ofChar '>' then py "&gt;"
  else if c = ofChar '"' then py "&quot;"
  else if c = ofChar '\'' then py "&#x27;"
  else [c]

/-- `html.escape`. -/
def escapeHtml (s : PyStr) : PyStr := s.flatMap escapeHtmlChar

/-- Every ampersand is followed by a semicolon, so no reference is left open at the end. -/
def Terminated (s : PyStr) : Prop :=
  ∀ pre post, s = pre ++ ofChar '&' :: post → ofChar ';' ∈ post

/-- The events are character data, and together they are this text. -/
def DeliversText (events : List HtmlEvent) (s : PyStr) : Prop :=
  ∃ pieces : List PyStr, events = pieces.map .data ∧ pieces.flatten = s

/-- `HTMLParser` with `convert_charrefs` returns a text without tags and without an open
reference as its unescaped text. -/
def ConvertsCharrefs (lib : Library) : Prop :=
  ∀ s, ofChar '<' ∉ s → Terminated s → ∃ events, lib.feed s = .ok events ∧
    DeliversText events (lib.unescape s)

/-- `html.unescape` undoes `html.escape`. -/
def UndoesEscape (lib : Library) : Prop := ∀ s, lib.unescape (escapeHtml s) = s

/-! ## Escaped texts -/

lemma escapeHtmlChar_no_tag (c : PyChar) : ofChar '<' ∉ escapeHtmlChar c := by
  unfold escapeHtmlChar
  split_ifs with hamp hlt hgt hquot hapos
  · decide
  · decide
  · decide
  · decide
  · decide
  · exact fun h => hlt (List.mem_singleton.1 h).symm

lemma escapeHtml_no_tag (s : PyStr) : ofChar '<' ∉ escapeHtml s := by
  intro h
  obtain ⟨c, -, hc⟩ := List.mem_flatMap.1 h
  exact escapeHtmlChar_no_tag c hc

/-- What stands for one character is the character itself, or one reference. -/
lemma escapeHtmlChar_cases (c : PyChar) :
    (escapeHtmlChar c = [c] ∧ c ≠ ofChar '&') ∨
      ∃ name, escapeHtmlChar c = ofChar '&' :: name ++ [ofChar ';'] := by
  unfold escapeHtmlChar
  split_ifs with hamp hlt hgt hquot hapos
  · exact .inr ⟨py "amp", by decide⟩
  · exact .inr ⟨py "lt", by decide⟩
  · exact .inr ⟨py "gt", by decide⟩
  · exact .inr ⟨py "quot", by decide⟩
  · exact .inr ⟨py "#x27", by decide⟩
  · exact .inl ⟨rfl, hamp⟩

lemma escapeHtml_terminated (s : PyStr) : Terminated (escapeHtml s) := by
  induction s with
  | nil =>
    intro pre post h
    simp [escapeHtml] at h
  | cons c s ih =>
    intro pre post h
    have hcons : escapeHtml (c :: s) = escapeHtmlChar c ++ escapeHtml s := List.flatMap_cons
    rw [hcons, List.append_eq_append_iff] at h
    rcases h with ⟨x, rfl, hx⟩ | ⟨x, hx, hpost⟩
    · exact ih x post hx
    · -- the ampersand is in the reference for the first character, or behind it
      cases x with
      | nil =>
        exact ih [] post hpost.symm
      | cons d x =>
        obtain ⟨rfl, rfl⟩ := List.cons.inj hpost
        refine List.mem_append_left _ ?_
        rcases escapeHtmlChar_cases c with ⟨hone, hne⟩ | ⟨name, href⟩
        · rw [hone] at hx
          have hmem : ofChar '&' ∈ [c] := by rw [hx]; simp
          exact absurd (List.mem_singleton.1 hmem).symm hne
        · rw [href] at hx
          rcases List.eq_nil_or_concat x with rfl | ⟨x, last, rfl⟩
          · have hlast := congrArg List.getLast? hx
            rw [List.getLast?_concat, List.getLast?_concat] at hlast
            exact absurd (Option.some.inj hlast) (by decide)
          · have hassoc : pre ++ ofChar '&' :: x.concat last =
                (pre ++ ofChar '&' :: x) ++ [last] := by simp
            have hlast := congrArg List.getLast? (hx.trans hassoc)
            rw [List.getLast?_concat, List.getLast?_concat] at hlast
            rw [Option.some.inj hlast]
            simp

/-! ## Extraction -/

/-- Character data outside skipped elements is collected as it is. -/
lemma foldl_handle_data (pieces : List PyStr) (x : TextExtractor) (hx : x.skip = 0) :
    ((pieces.map HtmlEvent.data).foldl TextExtractor.handle x).parts = x.parts ++ pieces := by
  induction pieces generalizing x with
  | nil => simp
  | cons piece pieces ih =>
    have hstep : x.handle (.data piece) = { x with parts := x.parts ++ [piece] } := by
      simp [TextExtractor.handle, hx]
    rw [List.map_cons, List.foldl_cons, hstep, ih { x with parts := x.parts ++ [piece] } hx]
    simp

/-- An escaped text comes out of the extraction as its text, unescaped once more. -/
lemma htmlToText_escapeHtml {lib : Library} (hfeed : ConvertsCharrefs lib)
    (hescape : UndoesEscape lib) {d : PyStr}
    (hlen : (escapeHtml d).length ≤ 2 * maxTextChars) :
    htmlToText lib (escapeHtml d) = .ok (lib.unescape d) := by
  obtain ⟨events, hevents, pieces, rfl, hpieces⟩ :=
    hfeed (escapeHtml d) (escapeHtml_no_tag d) (escapeHtml_terminated d)
  have htake : (escapeHtml d).take (maxTextChars * 2) = escapeHtml d :=
    List.take_of_length_le (by omega)
  rw [htmlToText, htake, hevents]
  show Except.ok (lib.unescape ((pieces.map HtmlEvent.data).foldl
    TextExtractor.handle {}).parts.flatten) = _
  rw [foldl_handle_data pieces {} rfl, List.nil_append, hpieces, hescape]

/-- A text survives escaping and extraction exactly if unescaping leaves it alone. -/
theorem htmlToText_escapeHtml_iff {lib : Library} (hfeed : ConvertsCharrefs lib)
    (hescape : UndoesEscape lib) {d : PyStr}
    (hlen : (escapeHtml d).length ≤ 2 * maxTextChars) :
    htmlToText lib (escapeHtml d) = .ok d ↔ lib.unescape d = d := by
  rw [htmlToText_escapeHtml hfeed hescape hlen, Except.ok.injEq]

/-! ## A library with five references -/

/-- The references that `html.escape` writes. -/
def fiveReferences : List (PyStr × PyChar) :=
  [(py "&amp;", ofChar '&'), (py "&lt;", ofChar '<'), (py "&gt;", ofChar '>'),
    (py "&quot;", ofChar '"'), (py "&#x27;", ofChar '\'')]

/-- `html.unescape` for these references, where the first `skip` characters belong to the
reference before. -/
def unescapeFive : ℕ → PyStr → PyStr
  | _, [] => []
  | skip + 1, _ :: cs => unescapeFive skip cs
  | 0, c :: cs =>
      match fiveReferences.find? fun reference => startswith reference.1 (c :: cs) with
      | some reference => reference.2 :: unescapeFive (reference.1.length - 1) cs
      | none => c :: unescapeFive 0 cs

lemma unescapeFive_escapeHtmlChar (c : PyChar) (rest : PyStr) :
    unescapeFive 0 (escapeHtmlChar c ++ rest) = c :: unescapeFive 0 rest := by
  unfold escapeHtmlChar
  split_ifs with hamp hlt hgt hquot hapos
  · rw [hamp]
    rfl
  · rw [hlt]
    rfl
  · rw [hgt]
    rfl
  · rw [hquot]
    rfl
  · rw [hapos]
    rfl
  · -- no reference starts with another character than the ampersand
    have hnone : (fiveReferences.find? fun reference => startswith reference.1 (c :: rest)) =
        none := by
      have hstart : ∀ reference ∈ fiveReferences, reference.1.head? = some (ofChar '&') := by
        decide
      rw [List.find?_eq_none]
      intro reference hmem hmatch
      obtain ⟨t, ht⟩ := List.isPrefixOf_iff_prefix.1 hmatch
      have hhead := hstart reference hmem
      cases hreference : reference.1 with
      | nil =>
        rw [hreference] at hhead
        cases hhead
      | cons d ds =>
        rw [hreference] at hhead ht
        obtain ⟨rfl, -⟩ := List.cons.inj ht
        exact hamp (Option.some.inj hhead)
    rw [List.singleton_append, unescapeFive, hnone]

lemma unescapeFive_escapeHtml (s : PyStr) : unescapeFive 0 (escapeHtml s) = s := by
  induction s with
  | nil => rfl
  | cons c s ih =>
    have hcons : escapeHtml (c :: s) = escapeHtmlChar c ++ escapeHtml s := List.flatMap_cons
    rw [hcons, unescapeFive_escapeHtmlChar, ih]

/-- A library that knows these references. -/
def fiveLibrary : Library :=
  { sampleLibrary blankMessage [] [] with
    feed := fun s => .ok [.data (unescapeFive 0 s)]
    unescape := unescapeFive 0 }

lemma fiveLibrary_convertsCharrefs : ConvertsCharrefs fiveLibrary :=
  fun s _ _ => ⟨_, rfl, [unescapeFive 0 s], rfl, by simp [fiveLibrary]⟩

lemma fiveLibrary_undoesEscape : UndoesEscape fiveLibrary := unescapeFive_escapeHtml

/-- Angle brackets survive. -/
theorem htmlToText_escapeHtml_iff_bracket :
    htmlToText fiveLibrary (escapeHtml (py "1 < 2")) = .ok (py "1 < 2") :=
  (htmlToText_escapeHtml_iff fiveLibrary_convertsCharrefs fiveLibrary_undoesEscape
    (by decide)).2 (by decide)

/-- A text that reads as a reference is decoded twice. -/
theorem reference_decoded_twice : ConvertsCharrefs fiveLibrary ∧ UndoesEscape fiveLibrary ∧
    (escapeHtml (py "&lt;")).length ≤ 2 * maxTextChars ∧
    htmlToText fiveLibrary (escapeHtml (py "&lt;")) = .ok (py "<") ∧ py "<" ≠ py "&lt;" := by
  refine ⟨fiveLibrary_convertsCharrefs, fiveLibrary_undoesEscape, by decide, ?_, by decide⟩
  rw [htmlToText_escapeHtml fiveLibrary_convertsCharrefs fiveLibrary_undoesEscape (by decide)]
  decide

end MailGate
