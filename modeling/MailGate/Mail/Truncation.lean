import MailGate.Mail.Length
import Mathlib.Data.List.ReduceOption

/-!
# What is lost on the way to the text

The text is cut in three places: an HTML part before it is parsed, the end of an HTML part that the
parser still holds back, because it is never closed, and the joined text.  Only the last of them
gives a signal.
-/

namespace MailGate

open PyStr Exceptions

/-! ## The parser -/

/-- `HTMLParser`.  Its state has what it holds back until more is fed or it is closed. -/
structure HtmlParser where
  State : Type
  fresh : State
  feed : State → PyStr → Except MailExn (List HtmlEvent × State)
  close : State → Except MailExn (List HtmlEvent)

namespace HtmlParser

variable (parser : HtmlParser)

/-- The library feeds a new parser. -/
def Feeds (lib : Library) : Prop :=
  ∀ s, lib.feed s = (parser.feed parser.fresh s).map Prod.fst

/-- The parser reports `fed` of the characters that `_html_to_text` feeds.  If it is then fed the
other characters of the part and closed, it reports `rest`. -/
def ReadsToEnd (value : PyStr) (fed rest : List HtmlEvent) : Prop :=
  ∃ state more state' last,
    parser.feed parser.fresh (value.take (maxTextChars * 2)) = .ok (fed, state) ∧
    parser.feed state (value.drop (maxTextChars * 2)) = .ok (more, state') ∧
    parser.close state' = .ok last ∧ rest = more ++ last

end HtmlParser

section

variable (lib : Library) (parser : HtmlParser)

/-- The text of an HTML part of which these events are reported. -/
def extractedText (events : List HtmlEvent) : PyStr :=
  lib.unescape (events.foldl TextExtractor.handle {}).parts.flatten

/-- The part is an HTML text, and this is what it decodes to. -/
def HtmlPart (part : MimePart) (value : PyStr) : Prop :=
  ∃ headers payload unknown, part = .leaf headers (.ok payload) ∧ ¬IsAttachment headers ∧
    headers.contentType = .ok (py "text/html") ∧
    decodePart lib headers (payload.getD []) = .ok (value, unknown)

/-- The text of a part, where an HTML part may have been read to its end. -/
def ReadAs (part : MimePart) (text : Option PyStr) : Prop :=
  text = textIn lib part ∨ ∃ value fed rest, HtmlPart lib part value ∧
    parser.ReadsToEnd value fed rest ∧ text = some (extractedText lib (fed ++ rest))

/-- The joined text of a message, before it is cut. -/
def wholeText (message : EmailMessage) : PyStr :=
  join (py "\n\n") (message.root.walk.filterMap (textIn lib))

/-- Without the limit on the joined text, and with some of the HTML parts read to their ends, the
message has a text with characters that this one lacks. -/
def LosesData (message : EmailMessage) (text : PyStr) : Prop :=
  ∃ texts, List.Forall₂ (ReadAs lib parser) message.root.walk texts ∧
    ¬(solid (tidyLines (visibleControls lib (join (py "\n\n") texts.reduceOption)).1)).Sublist text

/-- What is seen of a text. -/
def visibleText (text : PyStr) : PyStr := solid (visibleControls lib text).1

/-- The characters of an HTML part that are not fed, and the end that the parser holds back, add
nothing that is seen. -/
def AddsNothing (value : PyStr) : Prop :=
  ∀ fed rest, parser.ReadsToEnd value fed rest →
    (visibleText lib (extractedText lib (fed ++ rest))).Sublist
      (visibleText lib (extractedText lib fed))

end

section

variable {lib : Library} {parser : HtmlParser} {value : PyStr}

/-- Nothing is added to a part that is not cut and of which nothing is held back. -/
lemma addsNothing_of_short (hlen : value.length ≤ maxTextChars * 2)
    (hdone : ∀ fed state, parser.feed parser.fresh value = .ok (fed, state) →
      parser.feed state [] = .ok ([], state) ∧ parser.close state = .ok []) :
    AddsNothing lib parser value := by
  rintro fed rest ⟨state, more, state', last, hfed, hmore, hlast, rfl⟩
  rw [List.take_of_length_le hlen] at hfed
  rw [List.drop_of_length_le hlen] at hmore
  obtain ⟨hnone, hclosed⟩ := hdone fed state hfed
  rw [hnone] at hmore
  cases hmore
  rw [hclosed] at hlast
  cases hlast
  rw [List.append_nil, List.append_nil]

lemma htmlToText_of_readsToEnd (hparser : parser.Feeds lib) {fed rest : List HtmlEvent}
    (h : parser.ReadsToEnd value fed rest) :
    htmlToText lib value = .ok (extractedText lib fed) := by
  obtain ⟨state, more, state', last, hfed, -, -, -⟩ := h
  rw [htmlToText, hparser, hfed]
  rfl

/-- The text of an HTML part is what `_html_to_text` makes of it. -/
lemma textIn_html {part : MimePart} {text : PyStr} (hpart : HtmlPart lib part value)
    (htext : (textIn lib part).isSome) (hread : htmlToText lib value = .ok text) :
    textIn lib part = some text := by
  obtain ⟨headers, payload, unknown, rfl, -, htype, hvalue⟩ := hpart
  unfold textIn at htext ⊢
  dsimp only at htext ⊢
  split at htext
  · rename_i hbody hdisp hfile htype'
    cases hbody
    rw [htype] at htype'
    cases htype'
    split at htext
    · cases htext
    split at htext
    · cases htext
    rename_i hno hkind
    rw [if_neg hno, if_neg hkind, hvalue]
    simp only [if_true, hread]
    rfl
  · cases htext

/-- What is seen of texts that are joined and tidied. -/
lemma visibleText_join (texts : List (Option PyStr)) :
    solid (tidyLines (visibleControls lib (join (py "\n\n") texts.reduceOption)).1) =
      texts.flatMap (·.elim [] (visibleText lib)) := by
  have happend : ∀ s t, visibleText lib (s ++ t) = visibleText lib s ++ visibleText lib t := by
    intro s t
    show solid ((s ++ t).flatMap _) = _
    rw [List.flatMap_append, solid_append]
    rfl
  rw [solid_tidyLines]
  show visibleText lib (join (py "\n\n") texts.reduceOption) = _
  rw [erase_join rfl happend rfl]
  induction texts with
  | nil => rfl
  | cons text texts ih =>
    cases text with
    | none => exact ih
    | some text =>
      rw [List.reduceOption_cons_of_some, List.flatMap_cons, ih]
      rfl

/-- A text has the visible characters of a list of texts exactly if what is seen of it does. -/
lemma solid_sublist_iff {s t : PyStr} : (solid s).Sublist t ↔ (solid s).Sublist (solid t) := by
  constructor
  · intro h
    rw [← solid_solid s]
    exact h.filter _
  · intro h
    exact h.trans List.filter_sublist

/-- The parts are read to their ends one by one. -/
lemma seen_sublist {parts : List MimePart} {texts : List (Option PyStr)}
    (h : List.Forall₂ (ReadAs lib parser) parts texts)
    (hparts : ∀ part ∈ parts, ∀ text, ReadAs lib parser part text →
      (text.elim [] (visibleText lib)).Sublist ((textIn lib part).elim [] (visibleText lib))) :
    (texts.flatMap (·.elim [] (visibleText lib))).Sublist
      ((parts.map (textIn lib)).flatMap (·.elim [] (visibleText lib))) := by
  induction h with
  | nil => exact List.Sublist.refl []
  | cons hread _ ih =>
    rw [List.map_cons, List.flatMap_cons, List.flatMap_cons]
    exact (hparts _ List.mem_cons_self _ hread).append
      (ih fun part hpart => hparts part (List.mem_cons_of_mem _ hpart))

end

section

variable {lib : Library} {parser : HtmlParser} {resolver : DnsTxtResolver} {raw : Bytes}
  {trusted : List PyStr} {message : EmailMessage} {parsed : ParsedMessage}

/-- The signal is given exactly if the joined text is too long. -/
lemma textTruncated_mem (hmessage : lib.parsebytes raw = .ok message)
    (h : parseMessage lib resolver raw trusted = .ok parsed) :
    py "text_truncated" ∈ parsed.signals ↔ maxTextChars < (wholeText lib message).length := by
  obtain ⟨message', headers, dkim, acc, hmessage', -, -, hcollect, rfl⟩ := parseMessage_eq_ok h
  rw [hmessage] at hmessage'
  cases hmessage'
  have htexts : acc.textParts = message.root.walk.filterMap (textIn lib) :=
    (collectParts_eq_ok hcollect).2.1
  have hacc : py "text_truncated" ∉ acc.signals := by
    have hall := collectParts_signals (P := (· ≠ py "text_truncated")) (by decide) hcollect
      (by simp)
    exact fun hmem => hall _ hmem rfl
  have hcut : (joinText acc.textParts).2 = true ↔
      maxTextChars < (wholeText lib message).length := by
    rw [joinText, htexts, wholeText]
    split
    · rename_i hlong
      simpa using hlong
    · rename_i hshort
      simpa using hshort
  -- no other flag of the message has this name
  have hothers : ∀ word ∈ ["mime_defect", "unicode_controls_in_headers", "unicode_controls",
      "too_many_links", "prompt_injection_suspected"], py "text_truncated" ≠ py word := by decide
  simp only [List.forall_mem_cons] at hothers
  rw [mem_signals_iff rfl]
  simp [hothers, hacc, hcut]

/-- A text that is not cut loses data exactly if an HTML part has something that is not read. -/
lemma losesData_iff (hparser : parser.Feeds lib) (hmessage : lib.parsebytes raw = .ok message)
    (h : parseMessage lib resolver raw trusted = .ok parsed)
    (hshort : (wholeText lib message).length ≤ maxTextChars) :
    LosesData lib parser message parsed.text ↔
      ∃ part ∈ message.root.walk, ∃ value, HtmlPart lib part value ∧
        ¬AddsNothing lib parser value := by
  have facts := parseMessage_leafFacts hmessage h
  have hread : ∀ part ∈ message.root.walk, ∀ value, HtmlPart lib part value → ∀ fed rest,
      parser.ReadsToEnd value fed rest → textIn lib part = some (extractedText lib fed) := by
    intro part hmem value hvalue fed rest hends
    refine textIn_html hvalue ?_ (htmlToText_of_readsToEnd hparser hends)
    obtain ⟨headers, payload, unknown, rfl, hatt, htype, -⟩ := hvalue
    exact (facts.joined _ _ hmem).2 ⟨hatt, .inr htype⟩
  have htext : solid parsed.text =
      (message.root.walk.map (textIn lib)).flatMap (·.elim [] (visibleText lib)) := by
    have hwhole : (joinText (message.root.walk.filterMap (textIn lib))).1 =
        join (py "\n\n") (message.root.walk.map (textIn lib)).reduceOption := by
      rw [joinText_fst, List.reduceOption, List.filterMap_map, Function.id_comp]
      exact List.take_of_length_le hshort
    rw [facts.text, hwhole, visibleText_join]
  constructor
  · rintro ⟨texts, hreads, hlost⟩
    by_contra hnone
    push Not at hnone
    refine hlost ?_
    rw [solid_sublist_iff, htext, visibleText_join]
    refine seen_sublist hreads ?_
    rintro part hmem text (rfl | ⟨value, fed, rest, hvalue, hends, rfl⟩)
    · exact List.Sublist.refl _
    · rw [hread part hmem value hvalue fed rest hends]
      exact hnone part hmem value hvalue fed rest hends
  · rintro ⟨part, hmem, value, hvalue, hadds⟩
    simp only [AddsNothing, not_forall] at hadds
    obtain ⟨fed, rest, hends, hadds⟩ := hadds
    obtain ⟨before, behind, hwalk⟩ := List.append_of_mem hmem
    -- only this part is read to its end
    refine ⟨before.map (textIn lib) ++
      some (extractedText lib (fed ++ rest)) :: behind.map (textIn lib), ?_, ?_⟩
    · have hsame : ∀ parts, List.Forall₂ (ReadAs lib parser) parts (parts.map (textIn lib)) :=
        fun parts => List.forall₂_map_right_iff.2 (List.forall₂_same.2 fun _ _ => .inl rfl)
      rw [hwalk]
      exact List.rel_append (hsame before)
        (.cons (.inr ⟨value, fed, rest, hvalue, hends, rfl⟩) (hsame behind))
    · rw [solid_sublist_iff, htext, visibleText_join, hwalk, List.map_append, List.map_cons,
        hread part hmem value hvalue fed rest hends, List.flatMap_append, List.flatMap_append,
        List.flatMap_cons, List.flatMap_cons, List.append_sublist_append_left,
        List.append_sublist_append_right]
      exact hadds

end

/-! ## A text that the parser holds back -/

/-- The text may end within a reference: nothing behind its last ampersand ends one. -/
def endsInReference (text : PyStr) : Bool :=
  ofChar '&' ∈ text && (afterLast (ofChar '&') text).all fun c => !c.isSpace && c != ofChar ';'

/-- A parser of texts without tags; it waits where a text may end within a reference. -/
def plainParser : HtmlParser where
  State := PyStr
  fresh := []
  feed held s :=
    if endsInReference (held ++ s) then .ok ([], held ++ s)
    else .ok (if held ++ s = [] then [] else [.data (held ++ s)], [])
  close held := .ok (if held = [] then [] else [.data held])

/-- A message of a plain and an HTML text. -/
def alternativeMessage : EmailMessage :=
  { blankMessage with
    root := .multipart (containerPart (py "multipart/alternative"))
      [.leaf (inlinePart (py "text/plain")) (.ok (some [])),
        .leaf (inlinePart (py "text/html")) (.ok (some []))] alternative_canContain }

/-- A library that reads this text in both parts. -/
def htmlLibrary (text : PyStr) : Library :=
  { sampleLibrary alternativeMessage [] text with
    feed := fun s => (plainParser.feed plainParser.fresh s).map Prod.fst }

lemma htmlPart_value {text value : PyStr} {part : MimePart}
    (h : HtmlPart (htmlLibrary text) part value) : value = text := by
  obtain ⟨headers, payload, unknown, -, -, -, hvalue⟩ := h
  obtain ⟨charset, -, hvalue⟩ := bind_eq_ok.1 hvalue
  cases hvalue
  rfl

end MailGate
