import MailGate.Mail.Collect
import MailGate.Mail.Tidy

/-!
# What attachments have to do with the text

`parse_message` looks at the disposition of leaf parts only: it reads the text that is inside of
an attached container.  Here is exactly when the text of a message depends on nothing inside of
its attachments all the same.
-/

namespace MailGate

open Exceptions PyStr PyChar

/-! ## The parser of messages as a part of the library -/

/-- The library with another parser of messages. -/
def Library.withParser (lib : Library) (parsebytes : Bytes → Except MailExn EmailMessage) :
    Library := { lib with parsebytes := parsebytes }

section

variable {lib : Library} (parsebytes : Bytes → Except MailExn EmailMessage)

lemma collectParts_withParser : collectParts (lib.withParser parsebytes) = collectParts lib := by
  ext1 parts
  induction parts with
  | nil => rfl
  | cons part parts ih =>
    ext1 acc
    rw [collectParts, collectParts, ih]
    rfl

lemma collectLinks_withParser : collectLinks (lib.withParser parsebytes) = collectLinks lib := by
  ext1 found
  induction found with
  | nil => rfl
  | cons url found ih =>
    ext1 urls
    rw [collectLinks, collectLinks, ih]
    rfl

lemma assembleMessage_withParser :
    assembleMessage (lib.withParser parsebytes) = assembleMessage lib := by
  ext1 hasDefects
  ext1 headers
  ext1 authentication
  ext1 acc
  simp only [assembleMessage, collectLinks_withParser]
  rfl

lemma verifySignatures_withParser (resolver : DnsTxtResolver) (raw : Bytes) (index : ℕ)
    (signatures : List DkimSignature) (budget : DnsBudget) :
    verifySignatures (lib.withParser parsebytes) resolver raw index signatures budget =
      verifySignatures lib resolver raw index signatures budget := by
  induction signatures generalizing index budget with
  | nil => rfl
  | cons signature rest ih =>
    simp only [verifySignatures, ih]
    rfl

lemma verifyDkim_withParser (resolver : DnsTxtResolver) (raw : Bytes) :
    verifyDkim (lib.withParser parsebytes) resolver raw = verifyDkim lib resolver raw := by
  simp only [verifyDkim, verifySignatures_withParser]
  rfl

end

/-- `parse_message` once the message is read and its signatures are verified. -/
def parseRead (lib : Library) (message : EmailMessage) (independentDkim : DkimVerdict)
    (trustedAuthservIds : List PyStr) : Except MailExn ParsedMessage := do
  let headers ← readHeaders lib message
  let authentication : Authentication :=
    { schemaVersion := 1
      providerClaims :=
        parseAuthenticationResults lib headers.authenticationResults trustedAuthservIds
      independentDkim := independentDkim }
  if message.root.walk.length > maxParts then
    .error (.unsafeMessage (py "too_many_mime_parts"))
  else do
    let acc ← collectParts lib message.root.walk {}
    return assembleMessage lib message.hasDefects headers authentication acc

/-- `parse_message` on bytes that `email.parser` reads as the message. -/
lemma parseMessage_withParser {lib : Library} {message : EmailMessage}
    {parsebytes : Bytes → Except MailExn EmailMessage} {raw : Bytes}
    (h : parsebytes raw = .ok message) (resolver : DnsTxtResolver) (trusted : List PyStr) :
    parseMessage (lib.withParser parsebytes) resolver raw trusted =
      if raw.length > maxMessageBytes then .error (.unsafeMessage (py "message_too_large"))
      else verifyDkim lib resolver raw >>= (parseRead lib message · trusted) := by
  have hparse : (lib.withParser parsebytes).parsebytes raw = .ok message := h
  simp only [parseMessage, verifyDkim_withParser, hparse, ok_bind, collectParts_withParser,
    assembleMessage_withParser]
  rfl

/-- `parse_message` can return this for bytes that `email.parser` reads as this message. -/
def Parses (lib : Library) (message : EmailMessage) (parsed : ParsedMessage) : Prop :=
  ∃ parsebytes resolver raw trusted, parsebytes raw = .ok message ∧
    parseMessage (lib.withParser parsebytes) resolver raw trusted = .ok parsed

section

variable {lib : Library} {message message' : EmailMessage} {parsed parsed' : ParsedMessage}

/-! ## What the content of a parsed message comes from -/

/-- Text, links and the prompt-injection signal are the same. -/
structure SameContent (parsed parsed' : ParsedMessage) : Prop where
  text : parsed.text = parsed'.text
  links : parsed.links = parsed'.links
  signal : py "prompt_injection_suspected" ∈ parsed.signals ↔
    py "prompt_injection_suspected" ∈ parsed'.signals

/-- The messages have the same headers. -/
structure SameHeaders (message message' : EmailMessage) : Prop where
  get : message.get = message'.get
  getAll : message.getAll = message'.getAll

/-- The text that comes from the texts of parts. -/
def contentText (lib : Library) (textParts : List PyStr) : PyStr :=
  tidyLines (visibleControls lib (joinText textParts).1).1

/-- The texts of the leaf parts of a message. -/
def leafTexts (lib : Library) (message : EmailMessage) : List PyStr :=
  message.root.leaves.filterMap (textIn lib)

/-- What a message has that `parse_message` accepts, and what its content comes from. -/
structure Content (lib : Library) (message : EmailMessage) (headers : MessageHeaders)
    (parsed : ParsedMessage) : Prop where
  readHeaders_eq : readHeaders lib message = .ok headers
  walk_le : message.root.walk.length ≤ maxParts
  collected : ∃ acc, collectParts lib message.root.walk {} = .ok acc
  text_eq : parsed.text = contentText lib (leafTexts lib message)
  links_eq : parsed.links = (collectLinks lib (findUrls 0 parsed.text) []).1
  signal_iff : py "prompt_injection_suspected" ∈ parsed.signals ↔
    hasPromptInjectionIndicators lib ([(visibleControls lib headers.sender).1,
      (visibleControls lib headers.senderName).1, (visibleControls lib headers.subject).1,
      parsed.text] ++ parsed.links) = true

section

variable {hasDefects : Bool} {headers : MessageHeaders} {authentication : Authentication}
  {acc : PartsAcc}

lemma assembleMessage_text : (assembleMessage lib hasDefects headers authentication acc).text =
    contentText lib acc.textParts := rfl

lemma assembleMessage_links : (assembleMessage lib hasDefects headers authentication acc).links =
    (collectLinks lib (findUrls 0
      (assembleMessage lib hasDefects headers authentication acc).text) []).1 := by
  simp only [assembleMessage]

/-- Only the scan gives the prompt-injection signal. -/
lemma assembleMessage_signal
    (hacc : py "prompt_injection_suspected" ∉ acc.signals) :
    py "prompt_injection_suspected" ∈
        (assembleMessage lib hasDefects headers authentication acc).signals ↔
      hasPromptInjectionIndicators lib ([(visibleControls lib headers.sender).1,
        (visibleControls lib headers.senderName).1, (visibleControls lib headers.subject).1,
        (assembleMessage lib hasDefects headers authentication acc).text] ++
          (assembleMessage lib hasDefects headers authentication acc).links) = true := by
  have hothers : ∀ word ∈ ["mime_defect", "unicode_controls_in_headers", "text_truncated",
      "unicode_controls", "too_many_links"], py "prompt_injection_suspected" ≠ py word := by decide
  simp only [List.forall_mem_cons] at hothers
  rw [mem_signals_iff rfl]
  simp only [hothers, hacc, and_false, false_or, and_true]
  rfl

end

lemma parseRead_eq_ok {dkim : DkimVerdict} {trusted : List PyStr} :
    parseRead lib message dkim trusted = .ok parsed ↔ ∃ headers acc,
      readHeaders lib message = .ok headers ∧ message.root.walk.length ≤ maxParts ∧
      collectParts lib message.root.walk {} = .ok acc ∧
      assembleMessage lib message.hasDefects headers
        { schemaVersion := 1
          providerClaims := parseAuthenticationResults lib headers.authenticationResults trusted
          independentDkim := dkim } acc = parsed := by
  rw [parseRead, bind_eq_ok]
  constructor
  · rintro ⟨headers, hheaders, h⟩
    dsimp only at h
    split at h
    · cases h
    rename_i hwalk
    obtain ⟨acc, hacc, h⟩ := bind_eq_ok.1 h
    exact ⟨headers, acc, hheaders, Nat.le_of_not_lt hwalk, hacc, Except.ok.inj h⟩
  · rintro ⟨headers, acc, hheaders, hwalk, hacc, h⟩
    refine ⟨headers, hheaders, ?_⟩
    dsimp only
    rw [if_neg (Nat.not_lt.2 hwalk), hacc, ok_bind, h]
    rfl

/-- What an accepted message has. -/
lemma Parses.content (h : Parses lib message parsed) :
    ∃ headers, Content lib message headers parsed := by
  obtain ⟨parsebytes, resolver, raw, trusted, hmessage, h⟩ := h
  rw [parseMessage_withParser hmessage] at h
  split at h
  · cases h
  obtain ⟨dkim, -, h⟩ := bind_eq_ok.1 h
  obtain ⟨headers, acc, hheaders, hwalk, hacc, rfl⟩ := parseRead_eq_ok.1 h
  have hsignals : ∀ s ∈ acc.signals, s ≠ py "prompt_injection_suspected" :=
    collectParts_signals (by decide) hacc (by simp)
  have htexts : acc.textParts = leafTexts lib message := by
    rw [(collectParts_eq_ok hacc).2.1, leafTexts, filterMap_leaves fun _ _ _ => rfl]
    rfl
  refine ⟨headers, hheaders, hwalk, ⟨acc, hacc⟩, ?_, assembleMessage_links,
    assembleMessage_signal fun hmem => hsignals _ hmem rfl⟩
  rw [assembleMessage_text, htexts]

/-- Where one message is accepted, another one with the same headers is, if its parts are not
too many and the loop gets through them. -/
lemma Parses.transfer (h : Parses lib message parsed) (hheaders : SameHeaders message message')
    (hwalk : message'.root.walk.length ≤ maxParts)
    (hcollected : ∃ acc, collectParts lib message'.root.walk {} = .ok acc) :
    ∃ parsed', Parses lib message' parsed' := by
  obtain ⟨parsebytes, resolver, raw, trusted, hmessage, h⟩ := h
  obtain ⟨acc', hacc'⟩ := hcollected
  rw [parseMessage_withParser hmessage] at h
  split at h
  · cases h
  rename_i hsize
  obtain ⟨dkim, hdkim, h⟩ := bind_eq_ok.1 h
  obtain ⟨headers, acc, hread, -, -, -⟩ := parseRead_eq_ok.1 h
  have hread' : readHeaders lib message' = .ok headers := by
    rw [← hread, readHeaders, readHeaders, readDate, readDate, hheaders.get, hheaders.getAll]
  have hok : ∃ parsed', parseRead lib message' dkim trusted = .ok parsed' :=
    ⟨_, parseRead_eq_ok.2 ⟨headers, acc', hread', hwalk, hacc', rfl⟩⟩
  obtain ⟨parsed', hparsed'⟩ := hok
  refine ⟨parsed', fun _ => .ok message', resolver, raw, trusted, rfl, ?_⟩
  rw [parseMessage_withParser rfl, if_neg hsize, hdkim, ok_bind, hparsed']

/-- Two messages with the same headers have the same content where the texts of their leaf parts
come to the same. -/
lemma sameContent_of_texts (h : Parses lib message parsed) (h' : Parses lib message' parsed')
    (hheaders : SameHeaders message message')
    (htexts : contentText lib (leafTexts lib message) = contentText lib (leafTexts lib message')) :
    SameContent parsed parsed' := by
  obtain ⟨headers, hcontent⟩ := h.content
  obtain ⟨headers', hcontent'⟩ := h'.content
  have hread : readHeaders lib message = readHeaders lib message' := by
    rw [readHeaders, readHeaders, readDate, readDate, hheaders.get, hheaders.getAll]
  have hsame : headers = headers' := by
    have hok := hcontent.readHeaders_eq.symm.trans (hread.trans hcontent'.readHeaders_eq)
    exact Except.ok.inj hok
  subst hsame
  have htext : parsed.text = parsed'.text := by
    rw [hcontent.text_eq, hcontent'.text_eq, htexts]
  have hlinks : parsed.links = parsed'.links := by
    rw [hcontent.links_eq, hcontent'.links_eq, htext]
  refine ⟨htext, hlinks, ?_⟩
  rw [hcontent.signal_iff, hcontent'.signal_iff, htext, hlinks]

/-! ## The text that a limit leaves -/

lemma visibleControls_append (s t : PyStr) :
    (visibleControls lib (s ++ t)).1 = (visibleControls lib s).1 ++ (visibleControls lib t).1 :=
  List.flatMap_append

lemma visibleControls_newlines (n : ℕ) :
    (visibleControls lib (List.replicate n (ofChar '\n'))).1 = List.replicate n (ofChar '\n') := by
  have hline : (visibleControl lib (ofChar '\n')).1 = [ofChar '\n'] := by
    have hmem : ofChar '\n' ∈ py "\n\t" := by decide
    simp only [visibleControl, if_pos hmem]
  show (List.replicate n (ofChar '\n')).flatMap (fun char => (visibleControl lib char).1) = _
  induction n with
  | zero => rfl
  | succ n ih => rw [List.replicate_succ, List.flatMap_cons, ih, hline, List.singleton_append]

/-- Texts that fill the limit, or leave room for line ends only, are the whole text. -/
lemma contentText_of_full {before : List PyStr} (hbefore : before ≠ [])
    (hfull : maxTextChars ≤ (join (py "\n\n") before).length + 2) (rest : List PyStr) :
    contentText lib (before ++ rest) = contentText lib before := by
  have hcut : ∃ n, (joinText (before ++ rest)).1 =
      (joinText before).1 ++ List.replicate n (ofChar '\n') := by
    rw [joinText_fst, joinText_fst]
    by_cases hrest : rest = []
    · exact ⟨0, by simp [hrest]⟩
    · have hlines : py "\n\n" = List.replicate 2 (ofChar '\n') := by decide
      have hend : ∀ k ≤ 2, ∀ t, (py "\n\n" ++ t).take k =
          List.replicate (min k 2) (ofChar '\n') := by
        intro k hk t
        rw [hlines, List.take_append_of_le_length (by rwa [List.length_replicate]),
          List.take_replicate]
      refine ⟨min (maxTextChars - (join (py "\n\n") before).length) 2, ?_⟩
      rw [join_append hbefore hrest, List.append_assoc, List.take_append, hend _ (by omega)]
  obtain ⟨n, hn⟩ := hcut
  rw [contentText, contentText, hn, visibleControls_append, visibleControls_newlines,
    tidyLines_append_newlines]

/-- A character that fills the limit ends the text. -/
lemma contentText_getLast {before rest : List PyStr} {c : PyChar} {value : PyStr}
    (hvalue : value = List.replicate maxTextChars c)
    (hvisible : (visibleControl lib c).1 = [c]) (hspace : isSpace c = false)
    (hbreak : isLineBreak c = false)
    (hroom : before = [] ∨ (join (py "\n\n") before).length + 2 < maxTextChars) :
    (contentText lib (before ++ value :: rest)).getLast? = some c := by
  have hone : ∀ t : PyStr, (visibleControls lib (t ++ [c])).1 =
      (visibleControls lib t).1 ++ [c] := by
    intro t
    rw [visibleControls_append]
    exact congrArg _ ((List.flatMap_singleton _ _).trans hvisible)
  have hjoin : ∃ head tail, join (py "\n\n") (before ++ value :: rest) =
      head ++ (value ++ tail) ∧ head.length < maxTextChars := by
    have hletters : ∃ tail, join (py "\n\n") (value :: rest) =
        value ++ tail := by
      by_cases hrest : rest = []
      · exact ⟨[], by rw [hrest, join_singleton, List.append_nil]⟩
      · refine ⟨py "\n\n" ++ join (py "\n\n") rest, ?_⟩
        rw [← List.singleton_append, join_append (by simp) hrest, join_singleton,
          List.append_assoc]
    obtain ⟨tail, htail⟩ := hletters
    by_cases hbefore : before = []
    · exact ⟨[], tail, by rw [hbefore, List.nil_append, htail, List.nil_append], by decide⟩
    · refine ⟨join (py "\n\n") before ++ py "\n\n", tail, ?_, ?_⟩
      · rw [join_append hbefore (by simp), htail]
      · have hlines : (py "\n\n").length = 2 := by decide
        rw [List.length_append, hlines]
        exact hroom.resolve_left hbefore
  obtain ⟨head, tail, hjoin, hhead⟩ := hjoin
  have hcut : ∃ t, (joinText (before ++ value :: rest)).1 = t ++ [c] := by
    obtain ⟨n, hn⟩ : ∃ n, maxTextChars - head.length = n + 1 :=
      ⟨maxTextChars - head.length - 1, by omega⟩
    refine ⟨head ++ List.replicate n c, ?_⟩
    rw [joinText_fst, hjoin, hvalue, List.take_append, List.take_of_length_le (Nat.le_of_lt hhead),
      List.take_append_of_le_length (by simp only [List.length_replicate]; omega),
      List.take_replicate, Nat.min_eq_left (Nat.sub_le _ _), hn, List.replicate_succ',
      List.append_assoc]
  obtain ⟨t, ht⟩ := hcut
  rw [contentText, ht, hone]
  exact tidyLines_concat hspace hbreak

end

/-! ## Messages with the same outside -/

/-- Two messages that differ at most inside of their attachments. -/
structure SameOutside (message message' : EmailMessage) : Prop extends
    SameHeaders message message' where
  items : message.root.items = message'.root.items

/-- Text, links and signal of a message are those of every accepted message that differs from it
inside of attachments only. -/
def Contained (lib : Library) (message : EmailMessage) : Prop :=
  ∀ message' parsed parsed', SameOutside message message' → Parses lib message parsed →
    Parses lib message' parsed' → SameContent parsed parsed'

/-- The texts before the first attachment that can be a container. -/
def textsBefore (lib : Library) (root : MimePart) : List PyStr :=
  ((root.items.takeWhile OuterItem.isClosed).map OuterItem.part).filterMap (textIn lib)

/-- No attachment can be a container, or the limit on the text or the one on the parts leaves no
room for a text inside of one. -/
def Sealed (lib : Library) (root : MimePart) : Prop :=
  (∀ i ∈ root.items, i.isClosed = true) ∨
    (textsBefore lib root ≠ [] ∧
      maxTextChars ≤ (join (py "\n\n") (textsBefore lib root)).length + 2) ∨
    maxParts ≤ root.items.length + 1

/-- The headers of a text part that is no attachment. -/
def plainHeaders : PartHeaders where
  contentDisposition := .ok none
  filename := .ok none
  contentType := .ok (py "text/plain")
  contentCharset := .ok none

/-- The headers of a container of parts. -/
def mixedHeaders : PartHeaders :=
  { plainHeaders with contentType := .ok (py "multipart/mixed"), hasBoundary := true }

lemma mixedHeaders_canContain : mixedHeaders.canContain = true := by decide

/-- The items with an attached container in the middle, which has one text part inside. -/
def refill (before after : List OuterItem) (headers : PartHeaders)
    (h : headers.canContain = true) (payload : Bytes) : MimePart :=
  .multipart mixedHeaders (before.map OuterItem.part ++
    .multipart headers [.leaf plainHeaders (.ok (some payload))] h :: after.map OuterItem.part)
    mixedHeaders_canContain

namespace OuterItem

lemma items_part (i : OuterItem) : i.part.items = [i] := by
  cases i with
  | leaf headers payload h => rw [part, MimePart.items, dif_neg (by simp [h])]
  | attachment headers h =>
    by_cases hcontain : headers.canContain = true
    · rw [part_open h hcontain, MimePart.items, dif_pos h]
    · rw [part_closed h hcontain, MimePart.items, dif_pos h]

lemma walk_part (i : OuterItem) : i.part.walk = [i.part] := by
  cases i with
  | leaf headers payload h => rw [part, MimePart.walk]
  | attachment headers h =>
    by_cases hcontain : headers.canContain = true
    · rw [part_open h hcontain, MimePart.walk, MimePart.walkAll]
    · rw [part_closed h hcontain, MimePart.walk]

end OuterItem

namespace MimePart

lemma itemsAll_append (parts parts' : List MimePart) :
    itemsAll (parts ++ parts') = itemsAll parts ++ itemsAll parts' := by
  induction parts with
  | nil => rw [itemsAll, List.nil_append, List.nil_append]
  | cons part parts ih => rw [List.cons_append, itemsAll, itemsAll, ih, List.append_assoc]

lemma walkAll_append (parts parts' : List MimePart) :
    walkAll (parts ++ parts') = walkAll parts ++ walkAll parts' := by
  induction parts with
  | nil => rw [walkAll, List.nil_append, List.nil_append]
  | cons part parts ih => rw [List.cons_append, walkAll, walkAll, ih, List.append_assoc]

lemma itemsAll_map_part (is : List OuterItem) : itemsAll (is.map OuterItem.part) = is := by
  induction is with
  | nil => rw [List.map_nil, itemsAll]
  | cons i is ih => rw [List.map_cons, itemsAll, ih, i.items_part, List.singleton_append]

lemma walkAll_map_part (is : List OuterItem) :
    walkAll (is.map OuterItem.part) = is.map OuterItem.part := by
  induction is with
  | nil => rw [List.map_nil, walkAll]
  | cons i is ih => rw [List.map_cons, walkAll, ih, i.walk_part, List.singleton_append]

end MimePart

section

variable {before after : List OuterItem} {headers : PartHeaders}
  (h : carriesAttachment headers = true) (hopen : headers.canContain = true) (payload : Bytes)

/-- From outside, the refilled message has the items. -/
lemma items_refill : (refill before after headers hopen payload).items =
    before ++ .attachment headers h :: after := by
  have hmixed : ¬carriesAttachment mixedHeaders = true := by decide
  rw [refill, MimePart.items, dif_neg hmixed, MimePart.itemsAll_append,
    MimePart.itemsAll_map_part, MimePart.itemsAll, MimePart.itemsAll_map_part, MimePart.items,
    dif_pos h, List.singleton_append]

lemma walk_refill : (refill before after headers hopen payload).walk =
    refill before after headers hopen payload :: (before.map OuterItem.part ++
      .multipart headers [.leaf plainHeaders (.ok (some payload))] hopen ::
        .leaf plainHeaders (.ok (some payload)) :: after.map OuterItem.part) := by
  rw [refill, MimePart.walk, MimePart.walkAll_append, MimePart.walkAll_map_part,
    MimePart.walkAll, MimePart.walkAll_map_part, MimePart.walk, MimePart.walkAll, MimePart.walk,
    MimePart.walkAll]
  rfl

end

section

variable {lib : Library} {message message' : EmailMessage} {parsed parsed' : ParsedMessage}
  {before after : List OuterItem} {headers : PartHeaders} {payload : Bytes} {value : PyStr}

/-! ## A letter inside of an attached container -/

lemma textIn_plain (hdecode : lib.decode payload (py "utf-8") = .ok value) :
    textIn lib (.leaf plainHeaders (.ok (some payload))) = some value := by
  have hattachment : ¬(none = some (py "attachment") ∨ safeHeader none 255 ≠ []) := by decide
  have htype : ¬py "text/plain" ∉ [py "text/plain", py "text/html"] := by decide
  have hhtml : ¬py "text/plain" = py "text/html" := by decide
  have hpart : decodePart lib plainHeaders payload = .ok (value, false) := by
    rw [decodePart, plainHeaders, ok_bind, hdecode]
    rfl
  simp only [textIn, plainHeaders, if_neg hattachment, if_neg htype, Option.getD_some]
  rw [← plainHeaders, hpart]
  simp only [if_neg hhtml]

/-- The refilled message is accepted where the message is and where one more part fits. -/
lemma Parses.refill (h : Parses lib message parsed) (hc : carriesAttachment headers = true)
    (hopen : headers.canContain = true)
    (hitems : message.root.items = before ++ .attachment headers hc :: after)
    (hroom : message.root.items.length + 1 < maxParts)
    (hdecode : lib.decode payload (py "utf-8") = .ok value) :
    ∃ parsed',
      Parses lib { message with root := refill before after headers hopen payload } parsed' := by
  obtain ⟨_, hcontent⟩ := h.content
  obtain ⟨hreadable, hattachments⟩ := (collectParts_isOk (Nat.zero_le _)).1 hcontent.collected
  obtain ⟨n, hexpands, -, -⟩ := message.root.expands
  rw [readable_walk_iff] at hreadable
  have hitemsReadable := hexpands.readable hreadable
  have hitemsLength := hexpands.attachments_le hreadable
  rw [filterMap_leaves fun _ _ _ => rfl] at hitemsLength
  rw [hitems, List.map_append, List.map_cons, OuterItem.part_open hc hopen]
    at hitemsReadable hitemsLength
  rw [List.forall_mem_append, List.forall_mem_cons] at hitemsReadable
  have hplain : carriesAttachment plainHeaders = false := by decide
  -- the new message has room for its parts, all of them can be read, and it has no more attachments
  refine h.transfer ⟨rfl, rfl⟩ ?_ ((collectParts_isOk (Nat.zero_le _)).2 ⟨?_, ?_⟩)
  · have hlength := congrArg List.length hitems
    simp only [List.length_append, List.length_cons] at hlength
    show (MailGate.refill before after headers hopen payload).walk.length ≤ _
    simp only [walk_refill, List.length_cons, List.length_append, List.length_map]
    omega
  · show ∀ p ∈ (MailGate.refill before after headers hopen payload).walk, _
    rw [walk_refill, List.forall_mem_cons, List.forall_mem_append, List.forall_mem_cons,
      List.forall_mem_cons]
    exact ⟨readable_multipart _ _ _, hitemsReadable.1, readable_multipart _ _ _,
      readable_of_text (textIn_plain hdecode), hitemsReadable.2.2⟩
  · show 0 + ((MailGate.refill before after headers hopen payload).walk.filterMap _).length ≤ _
    rw [walk_refill, List.filterMap_cons_none rfl, List.filterMap_append,
      List.filterMap_cons_none rfl,
      List.filterMap_cons_none (attachmentIn_of_not_carries _ hplain _)]
    rw [List.filterMap_append, List.filterMap_cons_none rfl] at hitemsLength
    exact Nat.add_le_add_left hitemsLength 0 |>.trans hattachments

/-- The text of the refilled message begins with the texts before the container, and with the one
inside. -/
lemma leafTexts_refill (hopen : headers.canContain = true)
    (hdecode : lib.decode payload (py "utf-8") = .ok value) :
    leafTexts lib { message with root := refill before after headers hopen payload } =
      (before.map OuterItem.part).filterMap (textIn lib) ++
        value :: (after.map OuterItem.part).filterMap (textIn lib) := by
  show (refill before after headers hopen payload).leaves.filterMap (textIn lib) = _
  rw [filterMap_leaves fun _ _ _ => rfl, walk_refill, List.filterMap_cons_none rfl,
    List.filterMap_append, List.filterMap_cons_none rfl,
    List.filterMap_cons_some (textIn_plain hdecode)]

/-! ## When the attachments of a message do not matter -/

/-- The standard library knows two letters: their names and categories, and their ASCII bytes as
UTF-8. -/
structure KnowsLetters (lib : Library) : Prop where
  name_a : lib.unicode.name (ofChar 'a') = py "LATIN SMALL LETTER A"
  name_b : lib.unicode.name (ofChar 'b') = py "LATIN SMALL LETTER B"
  category_a : lib.unicode.category (ofChar 'a') = py "Ll"
  category_b : lib.unicode.category (ofChar 'b') = py "Ll"
  decode_a : ∀ n, lib.decode (List.replicate n 0x61) (py "utf-8") =
    .ok (List.replicate n (ofChar 'a'))
  decode_b : ∀ n, lib.decode (List.replicate n 0x62) (py "utf-8") =
    .ok (List.replicate n (ofChar 'b'))

/-- A letter stays as it is. -/
lemma visibleControl_letter {c : PyChar} {name : PyStr} (hname : lib.unicode.name c = name)
    (hcategory : lib.unicode.category c = py "Ll") (hplain : c ∉ py "\n\t")
    (hcontrol : controlNames.any (contains · name) = false) :
    (visibleControl lib c).1 = [c] := by
  have hformat : ¬(py "Ll" = py "Cf" ∨ controlNames.any (contains · name) = true) := by
    rw [hcontrol]
    decide
  have hother : ¬py "Ll" = py "Cc" := by decide
  simp only [visibleControl, hname, hcategory, if_neg hplain, if_neg hformat, if_neg hother]

/-- Texts before an attachment that leave room for a text inside of it. -/
lemma not_sealed (h : ¬Sealed lib message.root) : ∃ before headers hc after,
    headers.canContain = true ∧ message.root.items = before ++ .attachment headers hc :: after ∧
      textsBefore lib message.root = (before.map OuterItem.part).filterMap (textIn lib) ∧
      (textsBefore lib message.root = [] ∨
        (join (py "\n\n") (textsBefore lib message.root)).length + 2 < maxTextChars) ∧
      message.root.items.length + 1 < maxParts := by
  simp only [Sealed, not_or, not_and, not_le] at h
  obtain ⟨hopen, hroom, hparts⟩ := h
  have hsplit : message.root.items.takeWhile OuterItem.isClosed ++
      message.root.items.dropWhile OuterItem.isClosed = message.root.items :=
    List.takeWhile_append_dropWhile
  cases hrest : message.root.items.dropWhile OuterItem.isClosed with
  | nil => exact absurd (List.dropWhile_eq_nil_iff.1 hrest) hopen
  | cons i after =>
    have hi : i.isClosed = false := by
      have hne : message.root.items.dropWhile OuterItem.isClosed ≠ [] := by simp [hrest]
      have hhead := List.head_dropWhile_not OuterItem.isClosed hne
      simpa only [hrest, List.head_cons] using hhead
    cases i with
    | leaf headers payload hc => cases hi
    | attachment headers hc =>
      refine ⟨_, headers, hc, after, by simpa [OuterItem.isClosed] using hi, ?_, rfl, ?_, hparts⟩
      · rw [← hrest, hsplit]
      · by_cases hempty : textsBefore lib message.root = []
        · exact .inl hempty
        · exact .inr (hroom hempty)

/-- A message can be changed inside of an attachment so that its text ends in a given letter. -/
lemma exists_getLast (h : Parses lib message parsed) (hopen : ¬Sealed lib message.root)
    {b : UInt8} {c : PyChar} (hspace : isSpace c = false) (hbreak : isLineBreak c = false)
    (hvisible : (visibleControl lib c).1 = [c])
    (hdecode : ∀ n, lib.decode (List.replicate n b) (py "utf-8") = .ok (List.replicate n c)) :
    ∃ message' parsed', SameOutside message message' ∧ Parses lib message' parsed' ∧
      parsed'.text.getLast? = some c := by
  obtain ⟨before, headers, hc, after, hcontain, hitems, htexts, hroom, hparts⟩ := not_sealed hopen
  -- the letters stay folded: there are as many as the limit
  obtain ⟨payload, hpayload⟩ : ∃ payload, payload = List.replicate maxTextChars b := ⟨_, rfl⟩
  obtain ⟨value, hvalue⟩ : ∃ value : PyStr, value = List.replicate maxTextChars c := ⟨_, rfl⟩
  have hvalue' : lib.decode payload (py "utf-8") = .ok value := by
    rw [hpayload, hvalue, hdecode]
  obtain ⟨parsed', hparsed'⟩ := h.refill hc hcontain hitems hparts hvalue'
  refine ⟨{ message with root := refill before after headers hcontain payload }, parsed',
    ⟨⟨rfl, rfl⟩, ?_⟩, hparsed', ?_⟩
  · rw [hitems]
    exact (items_refill hc hcontain _).symm
  · obtain ⟨_, hcontent⟩ := hparsed'.content
    rw [htexts] at hroom
    rw [hcontent.text_eq, leafTexts_refill hcontain hvalue']
    exact contentText_getLast hvalue hvisible hspace hbreak hroom

/-- The text of a sealed message comes from its items. -/
lemma contentText_of_sealed (hsealed : Sealed lib message.root) :
    ∃ text, ∀ message' parsed', SameOutside message message' → Parses lib message' parsed' →
      contentText lib (leafTexts lib message') = text := by
  have hzero : ((∀ i ∈ message.root.items, i.isClosed = true) ∨
      maxParts ≤ message.root.items.length + 1) → ∀ message' parsed',
      SameOutside message message' → Parses lib message' parsed' →
      contentText lib (leafTexts lib message') = contentText lib
        ((message.root.items.map OuterItem.part).filterMap (textIn lib)) := by
    intro hcase message' parsed' hsame h
    obtain ⟨_, hcontent⟩ := h.content
    obtain ⟨n, hexpands, -, hlt⟩ := message'.root.expands
    rw [← hsame.items] at hexpands hlt
    have hn : n = 0 := by
      rcases hcase with hclosed | hparts
      · exact hexpands.eq_zero hclosed
      · have hmax : maxParts = 100 := rfl
        have hlt' := hlt (by omega)
        have hwalk := hcontent.walk_le
        omega
    exact congrArg (contentText lib) (hexpands.texts_of_zero hn)
  rcases hsealed with hclosed | ⟨hbefore, hfull⟩ | hparts
  · exact ⟨_, hzero (.inl hclosed)⟩
  · refine ⟨contentText lib (textsBefore lib message.root), fun message' parsed' hsame _ => ?_⟩
    obtain ⟨n, hexpands, -, -⟩ := message'.root.expands
    rw [← hsame.items] at hexpands
    obtain ⟨rest, hrest⟩ := hexpands.texts lib
    rw [leafTexts, hrest]
    exact contentText_of_full hbefore hfull rest
  · exact ⟨_, hzero (.inr hparts)⟩

/-- The leaf parts that are neither attachments nor inside of one. -/
def outsideLeaves (root : MimePart) : List MimePart :=
  (root.items.filter OuterItem.isLeaf).map OuterItem.part

/-- The texts outside of attachments come from the leaf parts there. -/
lemma texts_outside (root : MimePart) : (root.items.map OuterItem.part).filterMap (textIn lib) =
    (outsideLeaves root).filterMap (textIn lib) := by
  rw [outsideLeaves]
  generalize root.items = is
  induction is with
  | nil => rfl
  | cons i is ih =>
    cases i with
    | leaf headers payload hc =>
      rw [List.filter_cons_of_pos rfl, List.map_cons, List.map_cons, List.filterMap_cons,
        List.filterMap_cons, ih]
    | attachment headers hc =>
      rw [List.filter_cons_of_neg (by simp [OuterItem.isLeaf]), List.map_cons,
        List.filterMap_cons_none (textIn_part_attachment lib hc), ih]

end

/-! ## A forwarded message -/

/-- A library that decodes ASCII. -/
def letterLibrary : Library :=
  { sampleLibrary blankMessage [] [] with
    decode := fun payload _ => .ok ((Bytes.decodeAscii payload).getD []) }

/-- The headers of an attached message. -/
def forwardedHeaders : PartHeaders where
  contentDisposition := .ok (some (py "attachment"))
  filename := .ok (some (py "mail.eml"))
  contentType := .ok (py "message/rfc822")
  contentCharset := .ok none

lemma forwardedHeaders_canContain : forwardedHeaders.canContain = true := by decide

/-- A text, and an attached message with a text inside. -/
def forwardedMessage (inside : Bytes) : EmailMessage :=
  { blankMessage with
    root := .multipart mixedHeaders
      [.leaf plainHeaders (.ok (some (bytes "hello"))),
        .multipart forwardedHeaders [.leaf plainHeaders (.ok (some inside))]
          forwardedHeaders_canContain] mixedHeaders_canContain }

/-- A resolver that knows no names. -/
def blankResolver : DnsTxtResolver := ⟨fun _ _ => .value none, fun _ => true⟩

lemma parses_forwarded (inside : Bytes) (text : PyStr)
    (hrun : ((parseMessage (letterLibrary.withParser fun _ => .ok (forwardedMessage inside))
      blankResolver [] []).toOption.map (·.text)) = some text) :
    ∃ parsed, Parses letterLibrary (forwardedMessage inside) parsed ∧ parsed.text = text := by
  obtain ⟨parsed, hparsed, htext⟩ := Option.map_eq_some_iff.1 hrun
  exact ⟨parsed, ⟨_, _, _, _, rfl, toOption_eq_some.1 hparsed⟩, htext⟩

lemma forwarded_a : ∃ parsed, Parses letterLibrary (forwardedMessage (bytes "a")) parsed ∧
    parsed.text = py "hello\n\na" :=
  parses_forwarded _ _ (by decide +kernel)

lemma knowsLetters_letterLibrary : KnowsLetters letterLibrary := by
  have hdecode : ∀ (b : UInt8) (c : PyChar), Bytes.decodeAscii [b] = some [c] → ∀ n,
      Bytes.decodeAscii (List.replicate n b) = some (List.replicate n c) := by
    intro b c hone n
    rw [Bytes.decodeAscii] at hone
    split at hone
    swap
    · cases hone
    rename_i hascii
    cases hone
    induction n with
    | zero => rfl
    | succ n ih =>
      rw [List.replicate_succ, List.replicate_succ, Bytes.decodeAscii, dif_pos hascii, ih]
      rfl
  refine ⟨by decide, by decide, by decide, by decide, fun n => ?_, fun n => ?_⟩
  · show Except.ok ((Bytes.decodeAscii (List.replicate n 0x61)).getD []) = _
    rw [hdecode 0x61 (ofChar 'a') (by decide) n]
    rfl
  · show Except.ok ((Bytes.decodeAscii (List.replicate n 0x62)).getD []) = _
    rw [hdecode 0x62 (ofChar 'b') (by decide) n]
    rfl

end MailGate
