import MailGate.Mail.Content
import MailGate.Mail.Patterns

/-!
# What the scan for prompt injection finds

`has_prompt_injection_indicators` searches one text, the normalised fields with line ends
between them.  A line end belongs to no word, so what a pattern matches in one of the fields it
matches there.
-/

namespace MailGate

open PyStr Regex

/-- `[0-9A-Za-z_]`. -/
def asciiWord (c : PyChar) : Bool := PyChar.isAlnum c || c == ofChar '_'

/-- Texts may be divided before the character: what follows it changes neither the normal form of
what stands before it, nor whether a word begins there. -/
structure Starter (lib : Library) (word : PyChar → Bool) (c : PyChar) : Prop where
  split : ∀ s t, lib.unicode.nfkc (s ++ c :: t) = lib.unicode.nfkc s ++ lib.unicode.nfkc (c :: t)
  head : ∀ t t', Alike word (lib.unicode.nfkc (c :: t)) (lib.unicode.nfkc (c :: t'))

/-- `re` and `unicodedata`, as far as the scan relies on them; `word` is `\w`. -/
structure ScanRules (lib : Library) (word : PyChar → Bool) : Prop where
  search : ∀ r ∈ promptInjectionRegexes, ∀ s,
    lib.search (patternText r) s = r.search CharClass.test word false s
  word_ascii : ∀ c : PyChar, c.val < 0x80 → word c = asciiWord c
  /-- Line ends and blanks are composed with nothing. -/
  nfkc_split : ∀ c ∈ py "\n ", ∀ s t,
    lib.unicode.nfkc (s ++ c :: t) = lib.unicode.nfkc s ++ c :: lib.unicode.nfkc t
  nfkc_ascii : ∀ s : PyStr, (∀ c ∈ s, c.val < 0x80) → lib.unicode.nfkc s = s
  /-- No ASCII character is composed with one before it, and a letter with an accent is a letter. -/
  ascii_starter : ∀ c : PyChar, c.val < 0x80 → Starter lib word c

/-- One of the patterns has a match in the text. -/
def HasIndicator (word : PyChar → Bool) (s : PyStr) : Prop :=
  ∃ r ∈ promptInjectionRegexes, r.search CharClass.test word false s = true

instance (word : PyChar → Bool) (s : PyStr) : Decidable (HasIndicator word s) :=
  inferInstanceAs (Decidable (∃ r ∈ promptInjectionRegexes, _))

/-- The text has at most `n` characters, or is cut there before a line end or a blank. -/
def CutBetweenWords (s : PyStr) (n : ℕ) : Prop := s.length ≤ n ∨ ∃ c ∈ py "\n ", s[n]? = some c

/-- One of the patterns has a match in the normal form of the text, and behind the match the text
has a character before which it may be divided. -/
def HasIndicatorInside (lib : Library) (word : PyChar → Bool) (s : PyStr) : Prop :=
  ∃ u c v, s = u ++ c :: v ∧ (c.val < 0x80 ∨ Starter lib word c) ∧
    ∃ r ∈ promptInjectionRegexes, ∃ p q, lib.unicode.nfkc u = p ++ q ∧
      MatchEnds CharClass.test word r false p (q ++ lib.unicode.nfkc (c :: v))

section

variable {lib : Library} {word : PyChar → Bool} {s t x : PyStr} {xs : List PyStr} {c : PyChar}

lemma ScanRules.word_separator (h : ScanRules lib word) (hc : c ∈ py "\n ") : word c = false := by
  have hascii : ((py "\n ").all fun c => c.val < 0x80 && !asciiWord c) = true := by rfl
  have hboth := List.all_eq_true.1 hascii c hc
  rw [Bool.and_eq_true, decide_eq_true_iff, Bool.not_eq_true'] at hboth
  rw [h.word_ascii c hboth.1, hboth.2]

lemma ScanRules.startsApart (h : ScanRules lib word) (hc : c ∈ py "\n ") (t : PyStr) :
    StartsApart word (c :: t) := h.word_separator hc

/-- What is found in a text is found when a line end or a blank follows. -/
lemma HasIndicator.append (h : ScanRules lib word) (hc : c ∈ py "\n ") (t : PyStr)
    (hs : HasIndicator word s) : HasIndicator word (s ++ c :: t) := by
  obtain ⟨r, hr, hsearch⟩ := hs
  exact ⟨r, hr, search_append (h.startsApart hc t) hsearch⟩

/-- What is found in a text is found behind a line end or a blank. -/
lemma HasIndicator.after (h : ScanRules lib word) (hc : c ∈ py "\n ") (t : PyStr)
    (hs : HasIndicator word s) : HasIndicator word (t ++ c :: s) := by
  obtain ⟨r, hr, hsearch⟩ := hs
  exact ⟨r, hr, search_after (h.word_separator hc) t hsearch⟩

lemma join_newline_singleton (x : PyStr) : join (py "\n") [x] = x := List.intercalate_singleton

lemma join_newline_cons (x : PyStr) (hxs : xs ≠ []) :
    join (py "\n") (x :: xs) = x ++ ofChar '\n' :: join (py "\n") xs := by
  show (py "\n").intercalate (x :: xs) = _
  rw [List.intercalate_cons_of_ne_nil hxs, List.append_assoc]
  rfl

lemma ofChar_newline_mem : ofChar '\n' ∈ py "\n " := by decide

/-- What is found in one of the lines is found in the text. -/
lemma HasIndicator.join (h : ScanRules lib word) (hx : x ∈ xs) (hs : HasIndicator word x) :
    HasIndicator word (join (py "\n") xs) := by
  induction xs with
  | nil => cases hx
  | cons y ys ih =>
    by_cases hys : ys = []
    · rw [hys, List.mem_singleton] at hx
      rwa [hys, ← hx, join_newline_singleton]
    · rw [join_newline_cons y hys]
      rcases List.mem_cons.1 hx with rfl | hx
      · exact hs.append h ofChar_newline_mem _
      · exact (ih hx).after h ofChar_newline_mem _

/-- The fields are normalised one by one. -/
lemma ScanRules.nfkc_join (h : ScanRules lib word) (xs : List PyStr) :
    lib.unicode.nfkc (join (py "\n") xs) = join (py "\n") (xs.map lib.unicode.nfkc) := by
  induction xs with
  | nil => exact h.nfkc_ascii [] (by simp)
  | cons y ys ih =>
    by_cases hys : ys = []
    · rw [hys, List.map_cons, List.map_nil, join_newline_singleton, join_newline_singleton]
    · rw [join_newline_cons y hys, h.nfkc_split _ ofChar_newline_mem, ih, List.map_cons,
        join_newline_cons _ (by simpa using hys)]

/-- The scan searches the normal form of all values together. -/
lemma hasPromptInjectionIndicators_iff (h : ScanRules lib word) (xs : List PyStr) :
    hasPromptInjectionIndicators lib xs = true ↔
      HasIndicator word (lib.unicode.nfkc (join (py "\n") xs)) := by
  rw [hasPromptInjectionIndicators, promptInjectionPatterns_eq, List.any_eq_true]
  constructor
  · rintro ⟨pattern, hpattern, hsearch⟩
    obtain ⟨r, hr, rfl⟩ := List.mem_map.1 hpattern
    rw [h.search r hr] at hsearch
    exact ⟨r, hr, hsearch⟩
  · rintro ⟨r, hr, hsearch⟩
    refine ⟨patternText r, List.mem_map_of_mem hr, ?_⟩
    rw [h.search r hr]
    exact hsearch

/-- A text that is cut between words has no match that the whole text does not have. -/
lemma HasIndicator.of_take (h : ScanRules lib word) {n : ℕ} (hcut : CutBetweenWords s n)
    (hs : HasIndicator word (lib.unicode.nfkc (s.take n))) :
    HasIndicator word (lib.unicode.nfkc s) := by
  rcases hcut with hlen | ⟨c, hc, hat⟩
  · rwa [List.take_of_length_le hlen] at hs
  · obtain ⟨hn, rfl⟩ := List.getElem?_eq_some_iff.1 hat
    rw [← List.take_append_drop n s, List.drop_eq_getElem_cons hn, h.nfkc_split _ hc]
    exact hs.append h hc _

/-- A match that ends inside of a cut text is one of the whole text. -/
lemma HasIndicatorInside.of_take (h : ScanRules lib word) {n : ℕ}
    (hs : HasIndicatorInside lib word (s.take n)) : HasIndicator word (lib.unicode.nfkc s) := by
  obtain ⟨u, c, v, htake, hc, r, hr, p, q, hu, hmatch⟩ := hs
  have hstarter : Starter lib word c := hc.elim (h.ascii_starter c) id
  have hwhole : s = u ++ c :: (v ++ s.drop n) := by
    rw [← List.cons_append, ← List.append_assoc, ← htake, List.take_append_drop]
  have halike : Alike word (q ++ lib.unicode.nfkc (c :: v))
      (q ++ lib.unicode.nfkc (c :: (v ++ s.drop n))) := by
    cases q with
    | nil => exact hstarter.head v (v ++ s.drop n)
    | cons d q => rfl
  refine ⟨r, hr, ?_⟩
  rw [hwhole, hstarter.split, hu, List.append_assoc]
  exact (hmatch.change halike).search

/-- An ASCII text is searched as it is. -/
lemma not_hasIndicator_ascii (h : ScanRules lib word) (hascii : (s.all (·.val < 0x80)) = true)
    (hnone :
      (promptInjectionRegexes.any fun r => r.search CharClass.test asciiWord false s) = false) :
    ¬ HasIndicator word (lib.unicode.nfkc s) := by
  have hvals : ∀ c ∈ s, c.val < 0x80 := by simpa using List.all_eq_true.1 hascii
  rw [h.nfkc_ascii s hvals]
  rintro ⟨r, hr, hsearch⟩
  rw [search_congr fun c hc => h.word_ascii c (hvals c hc)] at hsearch
  rw [List.any_eq_false] at hnone
  exact hnone r hr hsearch

end

/-! ## Parsed messages -/

section

variable {lib : Library} {word : PyChar → Bool} {resolver : DnsTxtResolver} {raw : Bytes}
  {trusted : List PyStr} {parsed : ParsedMessage} {x : PyStr}

/-- The fields that are scanned. -/
def ParsedMessage.scanned (parsed : ParsedMessage) : List PyStr :=
  [parsed.sender, parsed.senderName, parsed.subject, parsed.text] ++ parsed.links

/-- The signal is given exactly if the fields together have a match. -/
lemma parseMessage_suspected_iff (h : ScanRules lib word)
    (hparsed : parseMessage lib resolver raw trusted = .ok parsed) :
    py "prompt_injection_suspected" ∈ parsed.signals ↔
      HasIndicator word (lib.unicode.nfkc (join (py "\n") parsed.scanned)) := by
  obtain ⟨message, headers, dkim, acc, -, -, -, hcollect, rfl⟩ := parseMessage_eq_ok hparsed
  have hacc : py "prompt_injection_suspected" ∉ acc.signals := by
    have hall := collectParts_signals (P := (· ≠ py "prompt_injection_suspected")) (by decide)
      hcollect (by simp)
    exact fun hmem => hall _ hmem rfl
  -- no other flag of the message has this name
  have hothers : ∀ word ∈ ["mime_defect", "unicode_controls_in_headers", "text_truncated",
      "unicode_controls", "too_many_links"], py "prompt_injection_suspected" ≠ py word := by decide
  simp only [List.forall_mem_cons] at hothers
  rw [mem_signals_iff rfl, ← hasPromptInjectionIndicators_iff h]
  simp [hothers, hacc, ParsedMessage.scanned]

/-- A match in a field of a parsed message gives the signal. -/
lemma parseMessage_scanned (h : ScanRules lib word)
    (hparsed : parseMessage lib resolver raw trusted = .ok parsed) (hx : x ∈ parsed.scanned)
    (hs : HasIndicator word (lib.unicode.nfkc x)) :
    py "prompt_injection_suspected" ∈ parsed.signals := by
  rw [parseMessage_suspected_iff h hparsed, h.nfkc_join]
  exact hs.join h (List.mem_map_of_mem hx)

/-- The summaries that are not taken from a message. -/
def fixedSummaries : List PyStr :=
  ["Financial message", "Calendar-related message", "Newsletter", "Message",
    "Message quarantined because safe parsing failed",
    "Message quarantined because processing failed"].map py

lemma fixedSummaries_plain (h : ScanRules lib word) :
    ∀ s ∈ fixedSummaries, ¬ HasIndicator word (lib.unicode.nfkc s) := by
  have hplain : (fixedSummaries.all fun s => s.all (·.val < 0x80) &&
      !promptInjectionRegexes.any fun r => r.search CharClass.test asciiWord false s) = true := by
    decide +kernel
  intro s hs
  have hboth := List.all_eq_true.1 hplain s hs
  rw [Bool.and_eq_true, Bool.not_eq_true'] at hboth
  exact not_hasIndicator_ascii h hboth.1 hboth.2

/-- The summary is a fixed text, or it begins the subject. -/
lemma classify_summary (lib : Library) (parsed : ParsedMessage) :
    (classify lib parsed).2.2 ∈ fixedSummaries ∨
      (classify lib parsed).2.2 = parsed.subject.take 240 := by
  unfold classify
  dsimp only
  split
  · exact .inl (by decide)
  split
  · exact .inl (by decide)
  split
  · exact .inl (by decide)
  · split
    · exact .inr rfl
    · exact .inl (by decide)

end

end MailGate
