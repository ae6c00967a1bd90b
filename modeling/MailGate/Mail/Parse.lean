import MailGate.Mail.Authentication
import MailGate.Mail.Url

/-!
# Parsing a message

`mail.py` up to `parse_message`: headers are cut and made harmless, the parts of the message
are either inventoried as attachments or joined into the text, and the text is searched for
links and for signs of prompt injection.
-/

namespace MailGate

open PyStr

/-- `MAX_MESSAGE_BYTES`. -/
def maxMessageBytes : ℕ := 10 * 1024 * 1024

/-- `MAX_PARTS`. -/
def maxParts : ℕ := 100

/-- `MAX_TEXT_CHARS`. -/
def maxTextChars : ℕ := 200000

/-- `MAX_ATTACHMENTS`. -/
def maxAttachments : ℕ := 25

/-- `MAX_LINKS`. -/
def maxLinks : ℕ := 100

/-- `DANGEROUS_EXTENSIONS`. -/
def dangerousExtensions : List PyStr :=
  [".app", ".bat", ".cmd", ".com", ".cpl", ".exe", ".hta", ".js", ".jse", ".lnk", ".msi",
    ".ps1", ".scr", ".vbs", ".vbe", ".wsf"].map py

/-- The content types that make an attachment dangerous. -/
def dangerousContentTypes : List PyStr :=
  ["application/x-msdownload", "application/x-dosexec", "application/javascript"].map py

/-- `CONTROL_NAMES`. -/
def controlNames : List PyStr :=
  ["RIGHT-TO-LEFT", "LEFT-TO-RIGHT", "ISOLATE", "OVERRIDE", "EMBEDDING"].map py

/-- `PROMPT_INJECTION_PATTERNS`. -/
def promptInjectionPatterns : List PyStr :=
  ["\\b(?:ignore|disregard|forget)\\b.\x7b0,80\x7d\\b(?:previous|prior|above|system|developer)\\b.\x7b0,40\x7d\\b(?:instruction|message|prompt)s?\\b",
    "\\b(?:system prompt|developer message)\\b",
    "\\b(?:reveal|print|show|send|exfiltrate)\\b.\x7b0,80\x7d\\b(?:secret|password|credential|token|api[ -]?key)s?\\b",
    "\\b(?:call|use|invoke|run|execute)\\b.\x7b0,40\x7d\\b(?:tool|command|shell|terminal|api)s?\\b",
    "\\byou are now\\b.\x7b0,80\x7d\\b(?:assistant|agent|system|administrator)\\b",
    "\\bignoriere\\b.\x7b0,80\x7d\\b(?:vorherige|obige|system|entwickler)[a-zäöüß-]*\\b.\x7b0,40\x7d\\b(?:anweisung|nachricht|prompt)s?\\b",
    "\\b(?:zeige|sende|verrate|extrahiere)\\b.\x7b0,80\x7d\\b(?:geheimnis|passwort|zugangsdaten|token|api[ -]?schlüssel)\\b",
    "\\b(?:führe|starte|verwende)\\b.\x7b0,40\x7d\\b(?:werkzeug|befehl|shell|terminal|api)\\b"].map
    py

/-- `ParsedAttachment`. -/
structure ParsedAttachment where
  filename : PyStr
  contentType : PyStr
  size : ℕ
  sha256 : PyStr
  dangerous : Bool
deriving DecidableEq, Repr

/-- `ParsedMessage`. -/
structure ParsedMessage where
  sender : PyStr
  senderName : PyStr
  recipients : List PyStr
  subject : PyStr
  receivedAt : Option ℤ
  text : PyStr
  links : List PyStr
  attachments : List ParsedAttachment
  messageIdHash : PyStr
  authentication : Authentication
  signals : List PyStr
deriving DecidableEq, Repr

/-- `_safe_header`. -/
def safeHeader (value : Option PyStr) (limit : ℕ := 998) : PyStr :=
  (join (py " ") (splitWords (remove 0 (value.getD [])))).take limit

/-! ## Controls and HTML -/

/-- The tags whose content is skipped. -/
def skippedTags : List PyStr :=
  ["script", "style", "template", "svg", "form", "object", "iframe"].map py

/-- The start tags that break a line. -/
def breakingStartTags : List PyStr :=
  ["p", "br", "div", "li", "tr", "h1", "h2", "h3", "h4"].map py

/-- The end tags that break a line. -/
def breakingEndTags : List PyStr := ["p", "div", "li", "tr"].map py

/-- `_TextExtractor`. -/
structure TextExtractor where
  parts : List PyStr := []
  skip : ℕ := 0
deriving DecidableEq, Repr

/-- `handle_starttag`, `handle_endtag` and `handle_data`. -/
def TextExtractor.handle (x : TextExtractor) : HtmlEvent → TextExtractor
  | .startTag tag =>
      if tag ∈ skippedTags then { x with skip := x.skip + 1 }
      else if tag ∈ breakingStartTags then { x with parts := x.parts ++ [py "\n"] }
      else x
  | .endTag tag =>
      if tag ∈ skippedTags ∧ x.skip ≠ 0 then { x with skip := x.skip - 1 }
      else if tag ∈ breakingEndTags then { x with parts := x.parts ++ [py "\n"] }
      else x
  | .data text => if x.skip = 0 then { x with parts := x.parts ++ [text] } else x

section

variable (lib : Library)

/-- What `_visible_controls` puts in the place of one character, and whether it is a
control. -/
def visibleControl (char : PyChar) : PyStr × Bool :=
  let name := lib.unicode.name char
  if char ∈ py "\n\t" then ([char], false)
  else if lib.unicode.category char = py "Cf" ∨ controlNames.any (contains · name) then
    (py "[UNICODE " ++ (if name ≠ [] then name else py "CONTROL") ++ py "]", true)
  else if lib.unicode.category char = py "Cc" then (py " ", false)
  else ([char], false)

/-- `_visible_controls`. -/
def visibleControls (value : PyStr) : PyStr × Bool :=
  (value.flatMap fun char => (visibleControl lib char).1,
    value.any fun char => (visibleControl lib char).2)

/-- `_html_to_text`. -/
def htmlToText (value : PyStr) : Except MailExn PyStr := do
  let events ← lib.feed (value.take (maxTextChars * 2))
  let extractor := events.foldl TextExtractor.handle {}
  return lib.unescape extractor.parts.flatten

/-- `has_prompt_injection_indicators`. -/
def hasPromptInjectionIndicators (values : List PyStr) : Bool :=
  let content := lib.unicode.nfkc (join (py "\n") values)
  promptInjectionPatterns.any fun pattern => lib.search pattern content

/-! ## Authentication-Results -/

/-- The verdicts that are taken over. -/
def claimValues : List PyStr :=
  ["pass", "fail", "softfail", "neutral", "none", "temperror", "permerror"].map py

/-- The lower-case letter that a character stands for when case is ignored; the dotted and
the dotless i, the long s and the Kelvin sign count as letters. -/
def ignoreCase (c : PyChar) : PyChar :=
  if c.val = 0x130 ∨ c.val = 0x131 then ofChar 'i'
  else if c.val = 0x17F then ofChar 's'
  else if c.val = 0x212A then ofChar 'k'
  else if h : 0x41 ≤ c.val ∧ c.val ≤ 0x5A then ⟨c.val + 0x20, PyChar.val_add_lt h⟩
  else c

/-- `[a-zA-Z_-]`, upper and lower case alike. -/
def isClaimChar (c : PyChar) : Bool :=
  let n := (ignoreCase c).val
  (0x61 ≤ n && n ≤ 0x7A) || c == ofChar '_' || c == ofChar '-'

/-- The group of `METHOD=([a-zA-Z_-]+)` matched at the start of the text. -/
def matchClaim (method s : PyStr) : Option PyStr :=
  let keyword := method ++ py "="
  if (s.take keyword.length).map ignoreCase = keyword then
    let value := (s.drop keyword.length).takeWhile isClaimChar
    if value = [] then none else some value
  else none

/-- The group of the first match after `;` or white space. -/
def searchClaimAfter (method : PyStr) : PyStr → Option PyStr
  | [] => none
  | c :: cs =>
      if c = ofChar ';' ∨ c.isSpace then
        match matchClaim method cs with
        | some value => some value
        | none => searchClaimAfter method cs
      else searchClaimAfter method cs

/-- The group of the first match of `(?:^|[;\s])METHOD=([a-zA-Z_-]+)`. -/
def searchClaim (method s : PyStr) : Option PyStr :=
  match matchClaim method s with
  | some value => some value
  | none => searchClaimAfter method s

/-- What one method gets from a trusted header value. -/
def claimOf (method value current : PyStr) : PyStr :=
  match searchClaim method value with
  | some claim =>
      let candidate := lib.unicode.lower claim
      if candidate ∈ claimValues then candidate else py "unknown"
  | none => current

/-- The text before the first semicolon, trimmed and in lower case. -/
def authservOf (value : PyStr) : PyStr :=
  lib.unicode.lower (strip (before (ofChar ';') value))

/-- The claims without a trusted header. -/
def unknownClaims : ProviderClaims where
  spf := py "unknown"
  dkim := py "unknown"
  dmarc := py "unknown"
  arc := py "unknown"
  authservId := []

/-- `parse_authentication_results`.  The loop over the methods runs over every key of the
result, `authserv_id` included. -/
def parseAuthenticationResults (values trustedIds : List PyStr) : ProviderClaims :=
  match values.find? fun value => authservOf lib value ∈ trustedIds with
  | none => unknownClaims
  | some value =>
      { spf := claimOf lib (py "spf") value (py "unknown")
        dkim := claimOf lib (py "dkim") value (py "unknown")
        dmarc := claimOf lib (py "dmarc") value (py "unknown")
        arc := claimOf lib (py "arc") value (py "unknown")
        authservId := claimOf lib (py "authserv_id") value (authservOf lib value) }

/-! ## Parts -/

/-- What the loop over the parts has collected. -/
structure PartsAcc where
  attachments : List ParsedAttachment := []
  signals : List PyStr := []
  textParts : List PyStr := []

/-- The stored name of a part. -/
def partFilename (headers : PartHeaders) : Except MailExn PyStr := do
  let filename ← headers.filename
  return safeHeader filename 255

/-- The extension of a file name, in lower case and with its dot. -/
def filenameSuffix (filename : PyStr) : PyStr :=
  if ofChar '.' ∈ filename then py "." ++ lib.unicode.lower (afterLast (ofChar '.') filename)
  else []

/-- The inventory entry of a part. -/
def attachmentOf (filename contentType : PyStr) (payload : Bytes) : ParsedAttachment where
  filename := filename
  contentType := contentType
  size := payload.length
  sha256 := lib.sha256 payload
  dangerous :=
    decide (filenameSuffix lib filename ∈ dangerousExtensions ∨
      contentType ∈ dangerousContentTypes)

/-- The text of a part, and whether its charset is unknown. -/
def decodePart (headers : PartHeaders) (payload : Bytes) : Except MailExn (PyStr × Bool) := do
  let charset ← headers.contentCharset
  match lib.decode payload (match charset with | some (c :: cs) => c :: cs | _ => py "utf-8") with
  | .ok value => return (value, false)
  | .error .other => .error .other
  | .error .lookup =>
      match lib.decode payload (py "utf-8") with
      | .ok value => return (value, true)
      | .error _ => .error .other

/-- One round of the loop over the parts. -/
def collectPart (acc : PartsAcc) : MimePart → Except MailExn PartsAcc
  | .multipart _ _ _ => .ok acc
  | .leaf headers payload => do
      let payload := (← payload).getD []
      let disposition ← headers.contentDisposition
      let filename ← partFilename headers
      if disposition = some (py "attachment") ∨ filename ≠ [] then
        if acc.attachments.length ≥ maxAttachments then
          .error (.unsafeMessage (py "too_many_attachments"))
        else do
          let contentType ← headers.contentType
          let attachment := attachmentOf lib filename (lib.unicode.lower contentType) payload
          return { acc with
            attachments := acc.attachments ++ [attachment]
            signals := acc.signals ++
              [py "attachment_present", py "attachment_content_not_inspected"] ++
              (if attachment.dangerous then [py "dangerous_attachment"] else []) }
      else do
        let contentType ← headers.contentType
        if contentType ∉ [py "text/plain", py "text/html"] then return acc
        else do
          let (value, unknownCharset) ← decodePart lib headers payload
          let text ← if contentType = py "text/html" then htmlToText lib value else .ok value
          return { acc with
            signals := acc.signals ++ (if unknownCharset then [py "unknown_charset"] else [])
            textParts := acc.textParts ++ [text] }

/-- The loop over the parts. -/
def collectParts : List MimePart → PartsAcc → Except MailExn PartsAcc
  | [], acc => .ok acc
  | part :: parts, acc => do
      let acc ← collectPart lib acc part
      collectParts parts acc

/-! ## Text and links -/

/-- Carriage returns go, every line loses its trailing white space, and the text its outer
white space. -/
def tidyLines (text : PyStr) : PyStr :=
  strip (join (py "\n") ((splitlines (remove 0x0D text)).map rstrip))

/-- The links after one more match. -/
def addLink (urls : List PyStr) (found : PyStr) : List PyStr :=
  match normaliseUrl lib found with
  | some url => if url ≠ [] ∧ url ∉ urls then urls ++ [url] else urls
  | none => urls

/-- The loop over the links: those found so far, and whether the limit is reached. -/
def collectLinks : List PyStr → List PyStr → List PyStr × Bool
  | [], urls => (urls, false)
  | found :: rest, urls =>
      let urls := addLink lib urls found
      if urls.length ≥ maxLinks then (urls, true) else collectLinks rest urls

/-- The signal of one header field. -/
def headerSignal (found : Bool) : List PyStr :=
  if found then [py "unicode_controls_in_headers"] else []

/-- `hashlib.sha256(message_id.encode()).hexdigest() if message_id else ""`. -/
def hashMessageId (messageId : PyStr) : Except MailExn PyStr :=
  if messageId = [] then .ok []
  else
    match encode messageId with
    | some b => .ok (lib.sha256 b)
    | none => .error .other

/-- What `parse_message` reads from the headers, cut but not yet made visible. -/
structure MessageHeaders where
  sender : PyStr
  senderName : PyStr
  recipients : List PyStr
  subject : PyStr
  receivedAt : Option ℤ
  messageIdHash : PyStr
  authenticationResults : List PyStr

/-- `addresses[0] if addresses else ("", "")`: name and address. -/
def firstAddress (fromHeader : Option PyStr) : PyStr × PyStr :=
  (lib.getaddresses [fromHeader.getD []]).head?.getD ([], [])

/-- The field `received_at`: the `try` statement covers the reading of the header too. -/
def readDate (message : EmailMessage) : Except MailExn (Option ℤ) :=
  let date : Except MailExn ℤ := do
    let date ← message.get (py "Date")
    lib.parsedateToDatetime (date.getD [])
  match date with
  | .ok date => .ok (some date)
  | .error .value => .ok none
  | .error e => .error e

/-- The first part of `parse_message`. -/
def readHeaders (message : EmailMessage) : Except MailExn MessageHeaders := do
  let fromHeader ← message.get (py "From")
  let (senderName, sender) := firstAddress lib fromHeader
  let toHeader ← message.get (py "To")
  let ccHeader ← message.get (py "Cc")
  let recipients := (lib.getaddresses [toHeader.getD [], ccHeader.getD []]).map (·.2)
  let receivedAt ← readDate lib message
  let messageId ← message.get (py "Message-ID")
  let subject ← message.get (py "Subject")
  let messageIdHash ← hashMessageId lib (safeHeader messageId 998)
  let authenticationResults ← message.getAll (py "Authentication-Results")
  return {
    sender := safeHeader (some sender) 320
    senderName := safeHeader (some senderName) 320
    recipients := (recipients.take 100).map fun item => safeHeader (some item) 320
    subject := safeHeader subject
    receivedAt := receivedAt
    messageIdHash := messageIdHash
    authenticationResults := authenticationResults }

/-- The text of the message: the joined parts, and whether they were cut. -/
def joinText (textParts : List PyStr) : PyStr × Bool :=
  let text := join (py "\n\n") textParts
  if text.length > maxTextChars then (text.take maxTextChars, true) else (text, false)

lemma joinText_fst (textParts : List PyStr) :
    (joinText textParts).1 = (join (py "\n\n") textParts).take maxTextChars := by
  simp only [joinText]
  split
  · rfl
  · rw [List.take_of_length_le]
    omega

/-- The last part of `parse_message`: everything that is computed from the headers and the
collected parts. -/
def assembleMessage (hasDefects : Bool) (headers : MessageHeaders)
    (authentication : Authentication) (acc : PartsAcc) : ParsedMessage :=
  let sender := visibleControls lib headers.sender
  let senderName := visibleControls lib headers.senderName
  let subject := visibleControls lib headers.subject
  let recipients := headers.recipients.map (visibleControls lib)
  let joined := joinText acc.textParts
  let visible := visibleControls lib joined.1
  let text := tidyLines visible.1
  let links := collectLinks lib (findUrls 0 text) []
  let suspected :=
    hasPromptInjectionIndicators lib ([sender.1, senderName.1, subject.1, text] ++ links.1)
  { sender := sender.1
    senderName := senderName.1
    recipients := recipients.map (·.1)
    subject := subject.1
    receivedAt := headers.receivedAt
    text := text
    links := links.1
    attachments := acc.attachments
    messageIdHash := headers.messageIdHash
    authentication := authentication
    signals :=
      (if hasDefects then [py "mime_defect"] else []) ++ headerSignal sender.2 ++
        headerSignal senderName.2 ++ headerSignal subject.2 ++
        recipients.flatMap (headerSignal ·.2) ++ acc.signals ++
        (if joined.2 then [py "text_truncated"] else []) ++
        (if visible.2 then [py "unicode_controls"] else []) ++
        (if links.2 then [py "too_many_links"] else []) ++
        (if suspected then [py "prompt_injection_suspected"] else []) }

/-- `parse_message`. -/
def parseMessage (resolver : DnsTxtResolver) (raw : Bytes) (trustedAuthservIds : List PyStr) :
    Except MailExn ParsedMessage :=
  if raw.length > maxMessageBytes then .error (.unsafeMessage (py "message_too_large"))
  else do
    let independentDkim ← verifyDkim lib resolver raw
    let message ← lib.parsebytes raw
    let headers ← readHeaders lib message
    let authentication : Authentication :=
      { schemaVersion := 1
        providerClaims :=
          parseAuthenticationResults lib headers.authenticationResults trustedAuthservIds
        independentDkim := independentDkim }
    let parts := message.root.walk
    if parts.length > maxParts then .error (.unsafeMessage (py "too_many_mime_parts"))
    else do
      let acc ← collectParts lib parts {}
      return assembleMessage lib message.hasDefects headers authentication acc

end

end MailGate
