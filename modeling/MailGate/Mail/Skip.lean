import MailGate.Mail.Parse

/-!
# Skipped elements

`_TextExtractor` counts the skipped elements that are open, whatever their names are.  An end
tag of one name therefore closes an element of another name, and what stands behind it in an
element that is still open is taken for text.
-/

namespace MailGate

namespace TextExtractor

/-- The extractor after a sequence of events. -/
def after (events : List HtmlEvent) : TextExtractor := events.foldl handle {}

/-- The text that the extractor has collected. -/
def text (events : List HtmlEvent) : PyStr := (after events).parts.flatten

/-- The start tag of a skipped element. -/
def opens : HtmlEvent → Bool
  | .startTag tag => tag ∈ skippedTags
  | _ => false

/-- The end tag of a skipped element. -/
def closes : HtmlEvent → Bool
  | .endTag tag => tag ∈ skippedTags
  | _ => false

/-- A skipped element has started, and no end tag of its name has followed. -/
def InSkipped (events : List HtmlEvent) : Prop :=
  ∃ element ∈ skippedTags, ∃ pre mid, events = pre ++ .startTag element :: mid ∧
    .endTag element ∉ mid

/-- Some stretch at the end of the events has more start tags than end tags of skipped
elements. -/
def OpensMore (events : List HtmlEvent) : Prop :=
  ∃ pre mid, events = pre ++ mid ∧ mid.countP closes < mid.countP opens

/-- No character data inside a skipped element reaches the text. -/
def SkipsAll (events : List HtmlEvent) : Prop :=
  ∀ before data rest, events = before ++ .data data :: rest → InSkipped before →
    text (before ++ [.data data]) = text before

/-! ## The counter -/

lemma after_concat (events : List HtmlEvent) (event : HtmlEvent) :
    after (events ++ [event]) = (after events).handle event := by
  rw [after, after, List.foldl_concat]

/-- What one event does to the counter. -/
lemma handle_skip (x : TextExtractor) (event : HtmlEvent) :
    (x.handle event).skip =
      if opens event then x.skip + 1 else if closes event then x.skip - 1 else x.skip := by
  cases event with
  | startTag tag =>
    by_cases hskipped : tag ∈ skippedTags
    · simp [handle, opens, hskipped]
    · by_cases hbreaks : tag ∈ breakingStartTags
      · simp [handle, opens, closes, hskipped, hbreaks]
      · simp [handle, opens, closes, hskipped, hbreaks]
  | endTag tag =>
    by_cases hskipped : tag ∈ skippedTags
    · by_cases hzero : x.skip = 0
      · by_cases hbreaks : tag ∈ breakingEndTags
        · simp [handle, opens, closes, hskipped, hzero, hbreaks]
        · simp [handle, opens, closes, hskipped, hzero, hbreaks]
      · simp [handle, opens, closes, hskipped, hzero]
    · by_cases hbreaks : tag ∈ breakingEndTags
      · simp [handle, opens, closes, hskipped, hbreaks]
      · simp [handle, opens, closes, hskipped, hbreaks]
  | data text =>
    by_cases hzero : x.skip = 0
    · simp [handle, opens, closes, hzero]
    · simp [handle, opens, closes, hzero]

/-- The counter is the largest surplus of start tags in a stretch at the end of the events. -/
lemma lt_skip_iff (events : List HtmlEvent) (n : ℕ) :
    n < (after events).skip ↔
      ∃ pre mid, events = pre ++ mid ∧ mid.countP closes + n < mid.countP opens := by
  induction events using List.reverseRecOn generalizing n with
  | nil =>
    constructor
    · intro h
      exact absurd h (Nat.not_lt_zero n)
    · rintro ⟨pre, mid, hnil, h⟩
      obtain ⟨-, rfl⟩ := List.append_eq_nil_iff.1 hnil.symm
      exact absurd h (Nat.not_lt_zero _)
  | append_singleton events event ih =>
    -- a stretch at the end is empty, or it ends with the last event
    have hsplit : ∀ k : ℕ, (∃ pre mid, events ++ [event] = pre ++ mid ∧
        mid.countP closes + k < mid.countP opens) ↔
        ∃ pre mid, events = pre ++ mid ∧
          (mid ++ [event]).countP closes + k < (mid ++ [event]).countP opens := by
      intro k
      constructor
      · rintro ⟨pre, mid, heq, hlt⟩
        rcases List.eq_nil_or_concat mid with rfl | ⟨mid, last, rfl⟩
        · exact absurd hlt (Nat.not_lt_zero _)
        · rw [List.concat_eq_append, ← List.append_assoc] at heq
          obtain ⟨rfl, hlast⟩ := List.append_inj' heq rfl
          obtain rfl := List.singleton_injective hlast
          exact ⟨pre, mid, rfl, by simpa using hlt⟩
      · rintro ⟨pre, mid, rfl, hlt⟩
        exact ⟨pre, mid ++ [event], by simp, hlt⟩
    rw [hsplit, after_concat, handle_skip]
    simp only [List.countP_append, List.countP_singleton]
    by_cases hopens : opens event = true
    · have hcloses : closes event = false := by
        cases event with
        | startTag tag => rfl
        | endTag tag => cases hopens
        | data text => cases hopens
      simp only [hopens, hcloses, if_true, Bool.false_eq_true, if_false, Nat.add_zero]
      cases n with
      | zero =>
        refine ⟨fun _ => ⟨events, [], by simp, by simp⟩, fun _ => Nat.succ_pos _⟩
      | succ n =>
        rw [Nat.succ_lt_succ_iff, ih n]
        refine exists_congr fun pre => exists_congr fun mid => and_congr_right fun _ => ?_
        omega
    · by_cases hcloses : closes event = true
      · simp only [hopens, hcloses, if_true, Bool.false_eq_true, if_false, Nat.add_zero]
        rw [Nat.lt_sub_iff_add_lt, ih (n + 1)]
        refine exists_congr fun pre => exists_congr fun mid => and_congr_right fun _ => ?_
        omega
      · simp only [hopens, hcloses, Bool.false_eq_true, if_false, Nat.add_zero]
        exact ih n

lemma skip_ne_zero_iff (events : List HtmlEvent) : (after events).skip ≠ 0 ↔ OpensMore events := by
  rw [← Nat.pos_iff_ne_zero, lt_skip_iff]
  rfl

/-! ## Character data -/

/-- Character data reaches the text exactly where the counter is zero. -/
lemma text_data (before : List HtmlEvent) (data : PyStr) :
    text (before ++ [.data data]) = text before ↔ data = [] ∨ (after before).skip ≠ 0 := by
  rw [text, text, after_concat, handle]
  by_cases hzero : (after before).skip = 0
  · simp [hzero]
  · simp [hzero]

/-- The extractor keeps the data of skipped elements out of the text exactly where each piece of
it is preceded by a stretch with more start tags than end tags of skipped elements. -/
theorem skipsAll_iff (events : List HtmlEvent) :
    SkipsAll events ↔
      ∀ before data rest, events = before ++ .data data :: rest → InSkipped before → data ≠ [] →
        OpensMore before := by
  constructor
  · intro h before data rest hevents hinside hdata
    rcases (text_data before data).1 (h before data rest hevents hinside) with hnil | hskip
    · exact absurd hnil hdata
    · exact (skip_ne_zero_iff before).1 hskip
  · intro h before data rest hevents hinside
    rw [text_data]
    by_cases hdata : data = []
    · exact .inl hdata
    · exact .inr ((skip_ne_zero_iff before).2 (h before data rest hevents hinside hdata))

/-- The end tag of a drawing ends the skipping of a form. -/
theorem form_data_survives :
    ¬ SkipsAll [.startTag (py "form"), .endTag (py "svg"), .data (py "x")] := by
  intro h
  have hdata := h [.startTag (py "form"), .endTag (py "svg")] (py "x") [] rfl
    ⟨py "form", by decide, [], [.endTag (py "svg")], rfl, by decide⟩
  exact absurd hdata (by decide)

end TextExtractor

end MailGate
