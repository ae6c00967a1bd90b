import MailGate.Mail.Inventory
import MailGate.Python.Substitute

/-!
# How long the text can become

The joined text is cut to `MAX_TEXT_CHARS` before its controls are written out by their names, so
the stored text can be longer.  Its length is that of the tidied text plus what the names add.
-/

namespace MailGate

open PyStr PyChar Exceptions

section

variable (lib : Library)

/-- The character with a plain control, which has no name to be written, as a blank. -/
def blankControl (c : PyChar) : PyChar :=
  if visibleControl lib c = (py " ", false) then ofChar ' ' else c

/-- What is written for a character. -/
def spelling (c : PyChar) : PyStr := (visibleControl lib c).1

/-- How many characters the name of a control adds. -/
def growth (c : PyChar) : ℕ := (spelling lib c).length - 1

end

variable {lib : Library}

variable (lib) in
/-- What stands for a character, by its kind. -/
lemma visibleControl_cases (c : PyChar) :
    visibleControl lib c = ([c], false) ∨ visibleControl lib c = (py " ", false) ∨
      ∃ name : PyStr, visibleControl lib c = (py "[UNICODE " ++ name ++ py "]", true) ∧
        ∀ d ∈ name, 0x20 ≤ d.val ∧ d.val < 0x7F := by
  rw [visibleControl]
  split
  · exact .inl rfl
  · split
    · refine .inr (.inr ⟨_, rfl, ?_⟩)
      split
      · exact lib.unicode.name_ascii c
      · have hall : (py "CONTROL").all (fun d => 0x20 ≤ d.val && d.val < 0x7F) = true := by rfl
        intro d hd
        simpa using List.all_eq_true.1 hall d hd
    · split
      · exact .inr (.inl rfl)
      · exact .inl rfl

lemma isWord_name {name : PyStr} (h : ∀ d ∈ name, 0x20 ≤ d.val ∧ d.val < 0x7F) :
    IsWord (py "[UNICODE " ++ name ++ py "]") := by
  have hline : ∀ d : PyChar, 0x20 ≤ d.val ∧ d.val < 0x7F → isLineBreak d = false := by
    intro d hd
    simp only [isLineBreak, Bool.or_eq_false_iff, Bool.and_eq_false_iff, decide_eq_false_iff_not,
      beq_eq_false_iff_ne]
    omega
  have hopen : (py "[UNICODE ").all (!isLineBreak ·) = true := by rfl
  constructor
  · exact ⟨ofChar '[', _, rfl, by decide⟩
  · exact ⟨_, ofChar ']', rfl, by decide⟩
  · refine List.forall_mem_append.2 ⟨List.forall_mem_append.2 ⟨?_, ?_⟩, ?_⟩
    · exact fun d hd => by simpa using List.all_eq_true.1 hopen d hd
    · exact fun d hd => hline d (h d hd)
    · exact List.forall_mem_singleton.2 (by decide)

/-- A text is longer by what the names add. -/
lemma length_flatMap_spelling (t : PyStr) :
    (t.flatMap (spelling lib)).length = t.length + weigh (growth lib) t := by
  have hpos : ∀ c, (spelling lib c).length = 1 + growth lib c := by
    intro c
    have hne : 0 < (spelling lib c).length := by
      rw [spelling]
      rcases visibleControl_cases lib c with h | h | ⟨name, h, -⟩
      · simp [h]
      · simp [h, py]
      · simp [h, py]
    rw [growth]
    omega
  induction t with
  | nil => rfl
  | cons c t ih =>
    have hcons : weigh (growth lib) (c :: t) = growth lib c + weigh (growth lib) t := by
      simp [weigh]
    rw [List.flatMap_cons, List.length_append, ih, hpos, hcons, List.length_cons]
    omega

/-- Only white space is tidied. -/
lemma solid_tidyLines (t : PyStr) : solid (tidyLines t) = solid t := by
  have hreturn : (0x0D : PyChar) ∉ remove 0x0D t := by simp [remove]
  have hlines : ((splitlines (remove 0x0D t)).map rstrip).flatMap solid =
      (splitlines (remove 0x0D t)).flatMap solid := by
    rw [List.flatMap_map]
    exact List.flatMap_congr fun l _ => solid_rdropWhile l
  rw [tidyLines, solid_strip, solid_join, hlines, solid_splitlines hreturn, solid_remove]

/-- White space has none of the names that are written out. -/
def SpaceIsPlain (lib : Library) : Prop :=
  ∀ c, isSpace c = true → (visibleControl lib c).2 = false

section

variable (hspace : SpaceIsPlain lib)
include hspace

lemma growth_space {c : PyChar} (hc : isSpace c = true) : growth lib c = 0 := by
  have hplain := hspace c hc
  rw [growth, spelling]
  rcases visibleControl_cases lib c with h | h | ⟨name, h, -⟩
  · rw [h]
    rfl
  · rw [h]
    rfl
  · rw [h] at hplain
    cases hplain

lemma spelling_blank : spelling lib (ofChar ' ') = py " " := by
  have hplain := hspace (ofChar ' ') (by decide)
  rw [spelling]
  rcases visibleControl_cases lib (ofChar ' ') with h | h | ⟨name, h, -⟩
  · rw [h]
    rfl
  · rw [h]
  · rw [h] at hplain
    cases hplain

/-- With plain controls as blanks, a character is written as itself or as a word. -/
lemma spells_blankControl (c : PyChar) : Spells (spelling lib) (blankControl lib c) := by
  rw [blankControl]
  split
  · exact .inl (spelling_blank hspace)
  · rename_i hnot
    rcases visibleControl_cases lib c with h | h | ⟨name, h, hname⟩
    · exact .inl (congrArg Prod.fst h)
    · exact absurd h hnot
    · refine .inr ⟨?_, ?_⟩
      · by_contra hc
        have hplain := hspace c (by simpa using hc)
        rw [h] at hplain
        cases hplain
      · rw [spelling, h]
        exact isWord_name hname

lemma spelling_blankControl (c : PyChar) :
    spelling lib (blankControl lib c) = spelling lib c := by
  rw [blankControl]
  split
  · rename_i h
    rw [spelling_blank hspace, spelling, h]
  · rfl

/-- The stored text is the tidied one, where the names of controls are written only then. -/
lemma tidyLines_visibleControls (s : PyStr) : tidyLines (visibleControls lib s).1 =
    (tidyLines (s.map (blankControl lib))).flatMap (spelling lib) := by
  have hspelled : (visibleControls lib s).1 =
      (s.map (blankControl lib)).flatMap (spelling lib) := by
    rw [List.flatMap_map]
    exact List.flatMap_congr fun c _ => (spelling_blankControl hspace c).symm
  have hspells : ∀ c ∈ s.map (blankControl lib), Spells (spelling lib) c :=
    List.forall_mem_map.2 fun c _ => spells_blankControl hspace c
  have hline : spelling lib (ofChar '\n') = py "\n" := rfl
  rw [hspelled]
  generalize s.map (blankControl lib) = t at hspells
  -- the passes one after the other, each with the names still to be written
  have hremoved : ∀ c ∈ remove 0x0D t, Spells (spelling lib) c :=
    fun c hc => hspells c (List.mem_of_mem_filter hc)
  have hreturn : (0x0D : PyChar) ∉ remove 0x0D t := by simp [remove]
  have hlines : ∀ l ∈ splitlines (remove 0x0D t), ∀ c ∈ l, Spells (spelling lib) c :=
    fun l hl c hc => hremoved c (mem_of_mem_splitlines hl hc)
  have hrstrip : ((splitlines (remove 0x0D t)).map (·.flatMap (spelling lib))).map rstrip =
      ((splitlines (remove 0x0D t)).map rstrip).map (·.flatMap (spelling lib)) := by
    rw [List.map_map, List.map_map]
    exact List.map_congr_left fun l hl => rdropWhile_flatMap (hlines l hl)
  have hjoined : ∀ c ∈ join (py "\n") ((splitlines (remove 0x0D t)).map rstrip),
      Spells (spelling lib) c := by
    intro c hc
    rcases mem_join hc with hsep | ⟨line, hmem, hc⟩
    · rw [List.mem_singleton.1 hsep]
      exact .inl hline
    · obtain ⟨l, hl, rfl⟩ := List.mem_map.1 hmem
      exact hlines l hl c ((List.rdropWhile_prefix _ _).subset hc)
  rw [tidyLines, remove_flatMap hspells, splitlines_flatMap hremoved hreturn, hrstrip,
    join_flatMap hline, strip_flatMap hjoined, tidyLines]

/-- Tidying takes nothing from what the names add. -/
lemma weigh_tidyLines (t : PyStr) : weigh (growth lib) (tidyLines t) = weigh (growth lib) t := by
  have hw : ∀ c, isSpace c = true → growth lib c = 0 := fun c hc => growth_space hspace hc
  rw [← weigh_solid hw, solid_tidyLines, weigh_solid hw]

/-- The length of the stored text. -/
lemma length_tidyLines_visibleControls (s : PyStr) : (tidyLines (visibleControls lib s).1).length =
    (tidyLines (s.map (blankControl lib))).length + weigh (growth lib) s := by
  have hgrowth : weigh (growth lib) (s.map (blankControl lib)) = weigh (growth lib) s := by
    rw [weigh, weigh, List.map_map]
    refine congrArg List.sum (List.map_congr_left fun c _ => ?_)
    rw [Function.comp_apply, growth, growth, spelling_blankControl hspace]
  rw [tidyLines_visibleControls hspace, length_flatMap_spelling, weigh_tidyLines hspace, hgrowth]

end

/-! ## The bound -/

variable {resolver : DnsTxtResolver} {raw : Bytes} {trusted : List PyStr} {message : EmailMessage}
  {parsed : ParsedMessage}

/-- The text of an accepted message is as long as its cut text with tidy lines and with a name for
each named control. -/
lemma parseMessage_text_length (hspace : SpaceIsPlain lib)
    (hmessage : lib.parsebytes raw = .ok message)
    (h : parseMessage lib resolver raw trusted = .ok parsed) {cut : PyStr}
    (hcut : cut = (joinText (message.root.walk.filterMap (textIn lib))).1) :
    parsed.text.length =
      (tidyLines (cut.map (blankControl lib))).length + weigh (growth lib) cut := by
  rw [(parseMessage_leafFacts hmessage h).text, ← hcut, length_tidyLines_visibleControls hspace]

/-- The text of an accepted message keeps to `MAX_TEXT_CHARS` exactly if the cut text does when its
lines are tidy and each of its named controls counts as many characters as its name. -/
theorem parseMessage_text_le_iff (hspace : SpaceIsPlain lib)
    (hmessage : lib.parsebytes raw = .ok message)
    (h : parseMessage lib resolver raw trusted = .ok parsed) {cut : PyStr}
    (hcut : cut = (joinText (message.root.walk.filterMap (textIn lib))).1) :
    parsed.text.length ≤ maxTextChars ↔
      (tidyLines (cut.map (blankControl lib))).length + weigh (growth lib) cut ≤ maxTextChars := by
  rw [parseMessage_text_length hspace hmessage h hcut]

/-! ## A text of overrides -/

/-- A library that reads a message with this text. -/
def textLibrary (text : PyStr) : Library := sampleLibrary blankMessage [] text

lemma textLibrary_accepts (text : PyStr) : ∃ parsed,
    parseMessage (textLibrary text) silentResolver [] [] = .ok parsed :=
  exists_of_isOk rfl

lemma textLibrary_cut {text : PyStr} (h : text.length ≤ maxTextChars) :
    text = (joinText (blankMessage.root.walk.filterMap (textIn (textLibrary text)))).1 := by
  show text = (joinText [text]).1
  rw [joinText, join_singleton, if_neg (by omega)]

lemma textLibrary_spaceIsPlain (text : PyStr) : SpaceIsPlain (textLibrary text) := by
  intro c hc
  simp only [isSpace, Bool.or_eq_true, Bool.and_eq_true, decide_eq_true_eq, beq_iff_eq] at hc
  have hat : c ≠ ofChar '@' := by
    rintro rfl
    revert hc
    decide
  have hdot : c ≠ ofChar '.' := by
    rintro rfl
    revert hc
    decide
  have hname : sampleUnicode.name c = [] := by
    simp only [sampleUnicode, sampleName]
    rw [if_neg (by omega), if_neg hat, if_neg hdot, dif_neg (by omega)]
  have hformat : sampleUnicode.category c ≠ py "Cf" := by
    simp only [sampleUnicode, sampleCategory]
    split
    · decide
    · split
      · decide
      · rw [if_neg (by omega), if_neg (by simp [hat, hdot])]
        decide
  have hcontrol : ¬((textLibrary text).unicode.category c = py "Cf" ∨
      controlNames.any (contains · ((textLibrary text).unicode.name c)) = true) := by
    rw [show (textLibrary text).unicode.name c = [] from hname]
    rintro (h | h)
    · exact hformat h
    · exact absurd h (by decide)
  rw [visibleControl]
  simp only [if_neg hcontrol]
  split
  · rfl
  · split
    · rfl
    · rfl

/-- Two overrides and a blank line in a short text. -/
def overridesText : PyStr := py "a\u202eb \n\nc\u202e"

/-- The text keeps to the bound with the names of its overrides. -/
theorem parseMessage_text_le_iff_overrides : ∃ parsed,
    parseMessage (textLibrary overridesText) silentResolver [] [] = .ok parsed ∧
      parsed.text.length ≤ maxTextChars := by
  obtain ⟨parsed, hparsed⟩ := textLibrary_accepts overridesText
  refine ⟨parsed, hparsed, ?_⟩
  rw [parseMessage_text_le_iff (textLibrary_spaceIsPlain _) rfl hparsed
    (textLibrary_cut (by decide))]
  decide +kernel

/-- The names of ten thousand overrides make the text too long. -/
theorem overrides_exceed_bound : ∃ parsed,
    parseMessage (textLibrary (List.replicate 10000 0x202E)) silentResolver [] [] = .ok parsed ∧
      maxTextChars < parsed.text.length := by
  obtain ⟨parsed, hparsed⟩ := textLibrary_accepts (List.replicate 10000 0x202E)
  refine ⟨parsed, hparsed, ?_⟩
  have hsum : weigh (growth (textLibrary (List.replicate 10000 0x202E)))
      (List.replicate 10000 0x202E) = 310000 := by
    rw [weigh, List.map_replicate, List.sum_replicate]
    rfl
  have hlong : (List.replicate 10000 (0x202E : PyChar)).length ≤ maxTextChars := by
    rw [List.length_replicate]
    decide
  rw [parseMessage_text_length (textLibrary_spaceIsPlain _) rfl hparsed (textLibrary_cut hlong),
    hsum, maxTextChars]
  omega

end MailGate
