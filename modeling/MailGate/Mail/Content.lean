import MailGate.Lib.Exceptions
import MailGate.Mail.Assess

/-!
# What an accepted message contains

`parse_message` raises at many places.  Where it does not, every field of its result has a
plain description in terms of what the library reads from the message: which parts are
attachments, which are text, and how the headers are cut.
-/

namespace MailGate

open PyStr Exceptions

section

variable (lib : Library)

/-- The part is inventoried and not read. -/
def IsAttachment (headers : PartHeaders) : Prop :=
  headers.contentDisposition = .ok (some (py "attachment")) ∨
    ∃ filename, headers.filename = .ok filename ∧ safeHeader filename 255 ≠ []

/-- The inventory entry of a part, where the part has one and can be read. -/
def attachmentIn : MimePart → Option ParsedAttachment
  | .multipart _ _ _ => none
  | .leaf headers payload =>
      match payload, headers.contentDisposition, headers.filename, headers.contentType with
      | .ok payload, .ok disposition, .ok filename, .ok contentType =>
          if disposition = some (py "attachment") ∨ safeHeader filename 255 ≠ [] then
            some (attachmentOf lib (safeHeader filename 255) (lib.unicode.lower contentType)
              (payload.getD []))
          else none
      | _, _, _, _ => none

/-- The text of a part, where the part is text and can be read. -/
def textIn : MimePart → Option PyStr
  | .multipart _ _ _ => none
  | .leaf headers payload =>
      match payload, headers.contentDisposition, headers.filename, headers.contentType with
      | .ok payload, .ok disposition, .ok filename, .ok contentType =>
          if disposition = some (py "attachment") ∨ safeHeader filename 255 ≠ [] then none
          else if contentType ∉ [py "text/plain", py "text/html"] then none
          else
            match decodePart lib headers (payload.getD []) with
            | .error _ => none
            | .ok (value, _) =>
                if contentType = py "text/html" then (htmlToText lib value).toOption
                else some value
      | _, _, _, _ => none

variable {lib}

lemma mem_attachmentIn {part : MimePart} {a : ParsedAttachment}
    (h : attachmentIn lib part = some a) :
    ∃ headers payload filename contentType, part = .leaf headers (.ok payload) ∧
      IsAttachment headers ∧ headers.filename = .ok filename ∧
      headers.contentType = .ok contentType ∧
      a = attachmentOf lib (safeHeader filename 255) (lib.unicode.lower contentType)
        (payload.getD []) := by
  unfold attachmentIn at h
  split at h
  · cases h
  · rename_i headers payload
    split at h
    · rename_i payload disposition filename contentType hdisp hfile htype
      split at h
      · rename_i hcond
        cases h
        refine ⟨headers, payload, filename, contentType, rfl, ?_, hfile, htype, rfl⟩
        rcases hcond with rfl | hne
        · exact .inl hdisp
        · exact .inr ⟨filename, hfile, hne⟩
      · cases h
    · cases h

/-- One round of the loop over the parts that does not raise adds what the part has. -/
lemma collectPart_eq_ok {acc acc' : PartsAcc} {part : MimePart}
    (h : collectPart lib acc part = .ok acc') :
    acc'.attachments = acc.attachments ++ (attachmentIn lib part).toList ∧
      acc'.textParts = acc.textParts ++ (textIn lib part).toList ∧
      ∀ headers payload, part = .leaf headers payload → IsAttachment headers →
        (attachmentIn lib part).isSome := by
  cases part with
  | multipart headers parts hcontain =>
    cases h
    simp [attachmentIn, textIn]
  | leaf headers payload =>
    simp only [collectPart] at h
    obtain ⟨body, hbody, h⟩ := bind_eq_ok.1 h
    obtain ⟨disposition, hdisp, h⟩ := bind_eq_ok.1 h
    obtain ⟨name, hname, h⟩ := bind_eq_ok.1 h
    obtain ⟨filename, hfile, hname⟩ := bind_eq_ok.1 hname
    cases hname
    split at h
    · rename_i hcond
      split at h
      · cases h
      · obtain ⟨contentType, htype, h⟩ := bind_eq_ok.1 h
        cases h
        simp [attachmentIn, textIn, hbody, hdisp, hfile, htype, hcond]
    · rename_i hcond
      -- no attachment, so the last part of the statement is void
      have hnot : ¬ IsAttachment headers := by
        rintro (hatt | ⟨filename', hfile', hne⟩)
        · rw [hdisp] at hatt
          cases hatt
          exact hcond (.inl rfl)
        · rw [hfile] at hfile'
          cases hfile'
          exact hcond (.inr hne)
      have hvacuous : ∀ headers' payload',
          MimePart.leaf headers payload = .leaf headers' payload' → IsAttachment headers' →
          (attachmentIn lib (.leaf headers payload)).isSome := by
        rintro headers' payload' heq hatt
        cases heq
        exact absurd hatt hnot
      obtain ⟨contentType, htype, h⟩ := bind_eq_ok.1 h
      split at h
      · rename_i hother
        cases h
        refine ⟨?_, ?_, hvacuous⟩
        · simp [attachmentIn, hbody, hdisp, hfile, htype, hcond]
        · simp only [textIn, hbody, hdisp, hfile, htype, if_neg hcond, if_pos hother]
          simp
      · rename_i htext
        obtain ⟨⟨value, unknown⟩, hvalue, h⟩ := bind_eq_ok.1 h
        refine ⟨?_, ?_, hvacuous⟩
        -- an HTML part adds a text as a plain part does, and no attachment
        · have hatts : acc'.attachments = acc.attachments := by
            split at h
            · obtain ⟨text, -, h⟩ := bind_eq_ok.1 h
              cases h
              rfl
            · cases h
              rfl
          simp [attachmentIn, hbody, hdisp, hfile, htype, hcond, hatts]
        · simp only [textIn, hbody, hdisp, hfile, htype, if_neg hcond, if_neg htext, hvalue]
          split at h
          · rename_i hhtml
            obtain ⟨text, hdone, h⟩ := bind_eq_ok.1 h
            cases h
            simp [hhtml, hdone, Except.toOption]
          · rename_i hhtml
            cases h
            simp [hhtml]

/-- The loop over the parts collects what the parts have. -/
lemma collectParts_eq_ok {parts : List MimePart} {acc acc' : PartsAcc}
    (h : collectParts lib parts acc = .ok acc') :
    acc'.attachments = acc.attachments ++ parts.filterMap (attachmentIn lib) ∧
      acc'.textParts = acc.textParts ++ parts.filterMap (textIn lib) ∧
      ∀ headers payload, .leaf headers payload ∈ parts → IsAttachment headers →
        (attachmentIn lib (.leaf headers payload)).isSome := by
  induction parts generalizing acc with
  | nil =>
    cases h
    simp
  | cons part parts ih =>
    obtain ⟨mid, hpart, h⟩ := bind_eq_ok.1 h
    obtain ⟨hatt, htext, hsome⟩ := collectPart_eq_ok hpart
    obtain ⟨hatts, htexts, hsomes⟩ := ih h
    refine ⟨?_, ?_, ?_⟩
    · rw [hatts, hatt, List.append_assoc, List.filterMap_cons]
      cases attachmentIn lib part <;> rfl
    · rw [htexts, htext, List.append_assoc, List.filterMap_cons]
      cases textIn lib part <;> rfl
    · intro headers payload hmem hcond
      rcases List.mem_cons.1 hmem with rfl | hmem
      · exact hsome headers payload rfl hcond
      · exact hsomes headers payload hmem hcond

/-! ## Signals of parts -/

/-- The signals that the loop over the parts gives. -/
def partSignals : List PyStr :=
  ["attachment_present", "attachment_content_not_inspected", "dangerous_attachment",
    "unknown_charset"].map py

lemma collectPart_signals {P : PyStr → Prop} (hP : ∀ s ∈ partSignals, P s) {acc acc' : PartsAcc}
    {part : MimePart} (h : collectPart lib acc part = .ok acc') (hacc : ∀ s ∈ acc.signals, P s) :
    ∀ s ∈ acc'.signals, P s := by
  have hadd : ∀ more : List PyStr, (∀ s ∈ more, P s) → ∀ s ∈ acc.signals ++ more, P s :=
    fun more hmore => List.forall_mem_append.2 ⟨hacc, hmore⟩
  simp only [partSignals, List.map_cons, List.map_nil, List.forall_mem_cons] at hP
  obtain ⟨hpresent, hcontent, hdangerous, hcharset, hnil⟩ := hP
  have hone : ∀ (b : Bool) (word : PyStr), P word → ∀ s ∈ (if b then [word] else []), P s := by
    intro b word hword s hs
    split at hs
    · rw [List.mem_singleton.1 hs]
      exact hword
    · exact hnil s hs
  cases part with
  | multipart headers parts hcontain =>
    cases h
    exact hacc
  | leaf headers payload =>
    simp only [collectPart] at h
    obtain ⟨body, -, h⟩ := bind_eq_ok.1 h
    obtain ⟨disposition, -, h⟩ := bind_eq_ok.1 h
    obtain ⟨filename, -, h⟩ := bind_eq_ok.1 h
    split at h
    · split at h
      · cases h
      · obtain ⟨contentType, -, h⟩ := bind_eq_ok.1 h
        cases h
        simp only [List.append_assoc]
        refine hadd _ (List.forall_mem_append.2 ⟨?_, hone _ _ hdangerous⟩)
        exact List.forall_mem_cons.2 ⟨hpresent, List.forall_mem_singleton.2 hcontent⟩
    · obtain ⟨contentType, -, h⟩ := bind_eq_ok.1 h
      split at h
      · cases h
        exact hacc
      · obtain ⟨⟨value, unknown⟩, -, h⟩ := bind_eq_ok.1 h
        split at h
        · obtain ⟨text, -, h⟩ := bind_eq_ok.1 h
          cases h
          exact hadd _ (hone unknown _ hcharset)
        · cases h
          exact hadd _ (hone unknown _ hcharset)

/-- What holds of every signal of a part and of the signals so far holds of all that the loop
has collected. -/
lemma collectParts_signals {P : PyStr → Prop} (hP : ∀ s ∈ partSignals, P s)
    {parts : List MimePart} {acc acc' : PartsAcc} (h : collectParts lib parts acc = .ok acc')
    (hacc : ∀ s ∈ acc.signals, P s) : ∀ s ∈ acc'.signals, P s := by
  induction parts generalizing acc with
  | nil =>
    cases h
    exact hacc
  | cons part parts ih =>
    obtain ⟨mid, hpart, h⟩ := bind_eq_ok.1 h
    exact ih h (collectPart_signals hP hpart hacc)

lemma mem_flag {b : Bool} {signal word : PyStr} :
    signal ∈ (if b then [word] else []) ↔ b = true ∧ signal = word := by
  cases b with
  | false => simp
  | true => simp

lemma mem_headerSignal {found : Bool} {signal : PyStr} :
    signal ∈ headerSignal found ↔ found = true ∧ signal = py "unicode_controls_in_headers" :=
  mem_flag

/-- Where a signal of the result comes from. -/
lemma mem_signals_iff {hasDefects : Bool} {headers : MessageHeaders}
    {authentication : Authentication} {acc : PartsAcc} {parsed : ParsedMessage}
    (h : parsed = assembleMessage lib hasDefects headers authentication acc) (signal : PyStr) :
    signal ∈ parsed.signals ↔ (hasDefects = true ∧ signal = py "mime_defect") ∨
      ((∃ field ∈ headers.sender :: headers.senderName :: headers.subject :: headers.recipients,
          (visibleControls lib field).2 = true) ∧ signal = py "unicode_controls_in_headers") ∨
      signal ∈ acc.signals ∨
      ((joinText acc.textParts).2 = true ∧ signal = py "text_truncated") ∨
      ((visibleControls lib (joinText acc.textParts).1).2 = true ∧
        signal = py "unicode_controls") ∨
      ((collectLinks lib (findUrls 0 parsed.text) []).2 = true ∧ signal = py "too_many_links") ∨
      (hasPromptInjectionIndicators lib
          ([parsed.sender, parsed.senderName, parsed.subject, parsed.text] ++ parsed.links) =
            true ∧ signal = py "prompt_injection_suspected") := by
  have hrecipients : ∀ rs : List PyStr,
      signal ∈ (rs.map (visibleControls lib)).flatMap (headerSignal ·.2) ↔
        (∃ field ∈ rs, (visibleControls lib field).2 = true) ∧
          signal = py "unicode_controls_in_headers" := by
    intro rs
    rw [List.mem_flatMap]
    constructor
    · rintro ⟨r, hr, hmem⟩
      obtain ⟨field, hfield, rfl⟩ := List.mem_map.1 hr
      obtain ⟨hfound, hword⟩ := mem_headerSignal.1 hmem
      exact ⟨⟨field, hfield, hfound⟩, hword⟩
    · rintro ⟨⟨field, hfield, hfound⟩, hword⟩
      exact ⟨_, List.mem_map_of_mem hfield, mem_headerSignal.2 ⟨hfound, hword⟩⟩
  subst h
  simp only [assembleMessage, List.mem_append, mem_headerSignal, mem_flag, hrecipients,
    List.exists_mem_cons_iff, or_and_right, or_assoc]

/-- The headers that a message must have for `parse_message` to get past them. -/
structure HeaderFields (lib : Library) (message : EmailMessage) where
  fromHeader : Option PyStr
  toHeader : Option PyStr
  ccHeader : Option PyStr
  messageId : Option PyStr
  subject : Option PyStr
  from_eq : message.get (py "From") = .ok fromHeader
  to_eq : message.get (py "To") = .ok toHeader
  cc_eq : message.get (py "Cc") = .ok ccHeader
  messageId_eq : message.get (py "Message-ID") = .ok messageId
  subject_eq : message.get (py "Subject") = .ok subject

namespace HeaderFields

variable {message : EmailMessage} (f : HeaderFields lib message)

/-- The cut address of the sender. -/
def sender : PyStr := safeHeader (some (firstAddress lib f.fromHeader).2) 320

/-- The cut name of the sender. -/
def senderName : PyStr := safeHeader (some (firstAddress lib f.fromHeader).1) 320

/-- The cut addresses of the recipients. -/
def recipients : List PyStr :=
  (((lib.getaddresses [f.toHeader.getD [], f.ccHeader.getD []]).map (·.2)).take 100).map
    fun item => safeHeader (some item) 320

end HeaderFields

lemma readHeaders_eq_ok {message : EmailMessage} {headers : MessageHeaders}
    (h : readHeaders lib message = .ok headers) :
    ∃ f : HeaderFields lib message, headers.sender = f.sender ∧
      headers.senderName = f.senderName ∧ headers.recipients = f.recipients ∧
      headers.subject = safeHeader f.subject ∧
      hashMessageId lib (safeHeader f.messageId 998) = .ok headers.messageIdHash := by
  obtain ⟨fromHeader, hfrom, h⟩ := bind_eq_ok.1 h
  obtain ⟨toHeader, hto, h⟩ := bind_eq_ok.1 h
  obtain ⟨ccHeader, hcc, h⟩ := bind_eq_ok.1 h
  obtain ⟨receivedAt, -, h⟩ := bind_eq_ok.1 h
  obtain ⟨messageId, hid, h⟩ := bind_eq_ok.1 h
  obtain ⟨subject, hsubject, h⟩ := bind_eq_ok.1 h
  obtain ⟨messageIdHash, hhash, h⟩ := bind_eq_ok.1 h
  obtain ⟨results, -, h⟩ := bind_eq_ok.1 h
  cases h
  exact ⟨⟨fromHeader, toHeader, ccHeader, messageId, subject, hfrom, hto, hcc, hid, hsubject⟩,
    rfl, rfl, rfl, rfl, hhash⟩

/-- What `parse_message` has read when it accepts a message, and how its result is made. -/
lemma parseMessage_eq_ok {resolver : DnsTxtResolver} {raw : Bytes} {trusted : List PyStr}
    {parsed : ParsedMessage} (h : parseMessage lib resolver raw trusted = .ok parsed) :
    ∃ message headers dkim acc, lib.parsebytes raw = .ok message ∧
      readHeaders lib message = .ok headers ∧ verifyDkim lib resolver raw = .ok dkim ∧
      collectParts lib message.root.walk {} = .ok acc ∧
      parsed = assembleMessage lib message.hasDefects headers
        { schemaVersion := 1
          providerClaims := parseAuthenticationResults lib headers.authenticationResults trusted
          independentDkim := dkim } acc := by
  unfold parseMessage at h
  split at h
  · cases h
  obtain ⟨dkim, hdkim, h⟩ := bind_eq_ok.1 h
  obtain ⟨message, hmessage, h⟩ := bind_eq_ok.1 h
  obtain ⟨headers, hheaders, h⟩ := bind_eq_ok.1 h
  simp only at h
  split at h
  · cases h
  obtain ⟨acc, hacc, h⟩ := bind_eq_ok.1 h
  cases h
  exact ⟨message, headers, dkim, acc, hmessage, hheaders, hdkim, hacc, rfl⟩

end

end MailGate
