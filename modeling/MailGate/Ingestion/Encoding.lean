import MailGate.Ingestion.Sync
import MailGate.Mail.Encoding

/-!
# Whether a message can be stored as text

The strings that `_store_message` writes come from many places of a message.  This file
settles for which messages all of them can be encoded and held by the database: surrogates
survive every pass over headers, text and file names, and the tags of a DKIM signature and
the content type of an attachment keep U+0000 as well.
-/

namespace MailGate

open PyStr Exceptions

/-! ## Strings that the application chooses -/

section

variable {lib : Library}

lemma claimOf_textOk {method value current : PyStr} (h : TextOk current) :
    TextOk (claimOf lib method value current) := by
  have hvalues : ∀ s ∈ claimValues, TextOk s := by decide
  unfold claimOf
  split
  · simp only
    split
    · rename_i hmem
      exact hvalues _ hmem
    · decide
  · exact h

/-- The claims of a provider are words of the application, or a trusted id. -/
lemma parseAuthenticationResults_textOk {values trusted : List PyStr}
    (htrusted : ∀ s ∈ trusted, TextOk s) :
    let claims := parseAuthenticationResults lib values trusted
    TextOk claims.spf ∧ TextOk claims.dkim ∧ TextOk claims.dmarc ∧ TextOk claims.arc ∧
      TextOk claims.authservId := by
  have hunknown : TextOk (py "unknown") := by decide
  unfold parseAuthenticationResults
  split
  · exact ⟨hunknown, hunknown, hunknown, hunknown, by decide⟩
  · rename_i value hvalue
    have hmem := List.find?_some hvalue
    refine ⟨claimOf_textOk hunknown, claimOf_textOk hunknown, claimOf_textOk hunknown,
      claimOf_textOk hunknown, claimOf_textOk (htrusted _ ?_)⟩
    simpa using hmem

/-- The trusted ids of a mailbox are harmless if its column is. -/
lemma trustedIds_textOk {mailbox : Mailbox} (h : TextOk mailbox.trustedAuthservIds) :
    ∀ s ∈ trustedIds lib mailbox, TextOk s := by
  intro s hs
  obtain ⟨item, hitem, rfl⟩ := List.mem_map.1 hs
  have hsub := subset_of_mem_splitOn (List.mem_of_mem_filter hitem)
  exact lib.unicode.lower_textOk _ (h.of_subset hsub).strip

lemma signatureResult_textOk {valid : Except DkimExn Bool} {budget : DnsBudget} {result : PyStr}
    (h : signatureResult valid budget = .ok result) : TextOk result := by
  have hwords : ∀ s ∈ ["pass", "fail", "temperror", "permerror"].map py, TextOk s := by decide
  refine hwords result ?_
  unfold signatureResult at h
  split at h
  · cases h
    decide
  · cases h
  · cases h
    decide
  · cases h
    decide
  · split at h <;> cases h <;> decide

/-- Verifying signatures fills in results and nothing else. -/
lemma verifySignatures_eq_ok {resolver : DnsTxtResolver} {raw : Bytes} {index : ℕ}
    {signatures out : List DkimSignature} {budget : DnsBudget}
    (h : verifySignatures lib resolver raw index signatures budget = .ok out) :
    out.map (fun s => (s.domain, s.selector)) =
        signatures.map (fun s => (s.domain, s.selector)) ∧
      ((∀ s ∈ signatures, TextOk s.result) → ∀ s ∈ out, TextOk s.result) := by
  induction signatures generalizing index out budget with
  | nil =>
    cases h
    simp
  | cons signature rest ih =>
    rw [verifySignatures] at h
    split at h
    · obtain ⟨more, hmore, h⟩ := bind_eq_ok.1 h
      cases h
      obtain ⟨hmap, hresult⟩ := ih hmore
      refine ⟨by rw [List.map_cons, List.map_cons, hmap], ?_⟩
      intro hall
      rw [List.forall_mem_cons] at hall ⊢
      exact ⟨hall.1, hresult hall.2⟩
    · obtain ⟨result, hres, h⟩ := bind_eq_ok.1 h
      obtain ⟨more, hmore, h⟩ := bind_eq_ok.1 h
      cases h
      obtain ⟨hmap, hresult⟩ := ih hmore
      refine ⟨by rw [List.map_cons, List.map_cons, hmap], ?_⟩
      intro hall
      rw [List.forall_mem_cons] at hall ⊢
      exact ⟨signatureResult_textOk hres, hresult hall.2⟩

/-- What the independent verification stores: the cut tags of the first five signatures, and
words of the application. -/
lemma verifyDkim_eq_ok {resolver : DnsTxtResolver} {raw : Bytes} {dkim : DkimVerdict}
    (h : verifyDkim lib resolver raw = .ok dkim) :
    ∃ message values, lib.parseHeaders raw = .ok message ∧
      message.getAll (py "DKIM-Signature") = .ok values ∧ TextOk dkim.result ∧
      (∀ r ∈ dkim.reason, TextOk r) ∧ (∀ s ∈ dkim.signatures, TextOk s.result) ∧
      dkim.signatures.map (fun s => (s.domain, s.selector)) =
        (values.take maxDkimSignatures).map fun value =>
          ((dkimTag lib value (py "d")).take 253, (dkimTag lib value (py "s")).take 63) := by
  obtain ⟨signatures, hmeta, h⟩ := bind_eq_ok.1 h
  obtain ⟨message, hmessage, hmeta⟩ := bind_eq_ok.1 hmeta
  obtain ⟨values, hvalues, hmeta⟩ := bind_eq_ok.1 hmeta
  cases hmeta
  refine ⟨message, values, hmessage, hvalues, ?_⟩
  have hof : ∀ s ∈ values.map (signatureOf lib), TextOk s.result := by
    intro s hs
    obtain ⟨value, -, rfl⟩ := List.mem_map.1 hs
    simp only [signatureOf]
    split <;> decide
  split at h
  · rename_i hnil
    cases h
    obtain rfl : values = [] := by simpa using hnil
    exact ⟨by decide, by simp, by simp, rfl⟩
  · split at h
    · cases h
      have hresult : TextOk (py "permerror") := by decide
      have hreason : ∀ r ∈ some (py "too_many_signatures"), TextOk r := by decide
      refine ⟨hresult, hreason, ?_, ?_⟩
      · intro s hs
        exact hof s (List.take_subset _ _ hs)
      · simp only [← List.map_take, List.map_map]
        rfl
    · rename_i hfew
      split at h
      · cases h
      · obtain ⟨out, hout, h⟩ := bind_eq_ok.1 h
        cases h
        obtain ⟨hmap, hresult⟩ := verifySignatures_eq_ok hout
        have hlen : values.length ≤ maxDkimSignatures := by
          rw [List.length_map] at hfew
          omega
        refine ⟨?_, by simp, hresult hof, ?_⟩
        · simp only [overallResult]
          split_ifs <;> decide
        · rw [hmap, List.take_of_length_le hlen, List.map_map]
          rfl

/-- The signals of a message are words of the application. -/
lemma assembleMessage_signals {hasDefects : Bool} {headers : MessageHeaders}
    {authentication : Authentication} {acc : PartsAcc} (hacc : ∀ s ∈ acc.signals, TextOk s) :
    ∀ s ∈ (assembleMessage lib hasDefects headers authentication acc).signals, TextOk s := by
  have hif : ∀ (c : Prop) [Decidable c] (word : PyStr), TextOk word →
      ∀ s ∈ (if c then [word] else []), TextOk s := by
    intro c _ word hword s hs
    split at hs
    · rw [List.mem_singleton.1 hs]
      exact hword
    · cases hs
  have hheader : ∀ found : Bool, ∀ s ∈ headerSignal found, TextOk s :=
    fun found => hif _ _ (by decide)
  simp only [assembleMessage]
  intro s hs
  simp only [List.mem_append] at hs
  rcases hs with ((((((((hs | hs) | hs) | hs) | hs) | hs) | hs) | hs) | hs) | hs
  · exact hif _ _ (by decide) s hs
  · exact hheader _ s hs
  · exact hheader _ s hs
  · exact hheader _ s hs
  · obtain ⟨recipient, -, hs⟩ := List.mem_flatMap.1 hs
    exact hheader _ s hs
  · exact hacc s hs
  · exact hif _ _ (by decide) s hs
  · exact hif _ _ (by decide) s hs
  · exact hif _ _ (by decide) s hs
  · exact hif _ _ (by decide) s hs

/-- The reasons of an assessment are signals and words of the application. -/
lemma assess_textOk {parsed : ParsedMessage} (h : ∀ s ∈ parsed.signals, TextOk s) :
    ∀ s ∈ (assess parsed).2.2, TextOk s := by
  have hwords : ∀ s ∈ ["authentication_failure", "independent_dkim_failure",
      "independent_dkim_temperror", "missing_sender", "independent_dkim_pass",
      "provider_authentication_pass", "manual_review_required"].map py, TextOk s := by decide
  have hreasons : ∀ s ∈ assessReasons parsed, TextOk s := by
    intro s hs
    simp only [assessReasons, List.mem_append] at hs
    rcases hs with ((hs | hs) | hs) | hs
    · exact h s (List.mem_eraseDups.1 hs)
    · split at hs
      · exact hwords s (by rw [List.mem_singleton.1 hs]; decide)
      · cases hs
    · split at hs
      · exact hwords s (by rw [List.mem_singleton.1 hs]; decide)
      · split at hs
        · exact hwords s (by rw [List.mem_singleton.1 hs]; decide)
        · cases hs
    · split at hs
      · exact hwords s (by rw [List.mem_singleton.1 hs]; decide)
      · cases hs
  unfold assess
  simp only
  split
  · exact hreasons
  · split
    · intro s hs
      exact hwords s (by rw [List.mem_singleton.1 hs]; decide)
    · split
      · intro s hs
        exact hwords s (by rw [List.mem_singleton.1 hs]; decide)
      · intro s hs
        rcases List.mem_append.1 (List.mem_eraseDups.1 hs) with hs | hs
        · exact hreasons s hs
        · exact hwords s (by rw [List.mem_singleton.1 hs]; decide)

/-- The category is a word of the application. -/
lemma category_textOk {parsed : ParsedMessage} : TextOk (classify lib parsed).1 := by
  unfold classify
  simp only
  split_ifs
  · exact show TextOk (py "finance") by decide
  · exact show TextOk (py "calendar") by decide
  · exact show TextOk (py "newsletter") by decide
  · exact show TextOk (py "general") by decide
  · exact show TextOk (py "general") by decide

/-- The summary is a text of the application, or the cut subject. -/
lemma summary_textOk {parsed : ParsedMessage} (h : TextOk parsed.subject) :
    TextOk (classify lib parsed).2.2 := by
  unfold classify
  simp only
  split_ifs
  · exact show TextOk (py "Financial message") by decide
  · exact show TextOk (py "Calendar-related message") by decide
  · exact show TextOk (py "Newsletter") by decide
  · exact h.take 240
  · exact show TextOk ((py "Message").take 240) by decide

end

/-! ## The messages that can be stored -/

/-- The message has no surrogate where its headers, its text and the names of its attachments
are cut, and neither a surrogate nor U+0000 in the content types of its attachments and in the
cut tags of its first five DKIM signatures. -/
structure Clean (lib : Library) (raw : Bytes) (message : EmailMessage) : Prop where
  sender : ∀ value, message.get (py "From") = .ok value →
    NoSurrogate (safeHeader (some (firstAddress lib value).2) 320)
  senderName : ∀ value, message.get (py "From") = .ok value →
    NoSurrogate (safeHeader (some (firstAddress lib value).1) 320)
  subject : ∀ value, message.get (py "Subject") = .ok value → NoSurrogate (safeHeader value)
  recipients : ∀ toValue ccValue, message.get (py "To") = .ok toValue →
    message.get (py "Cc") = .ok ccValue →
    ∀ item ∈ ((lib.getaddresses [toValue.getD [], ccValue.getD []]).map (·.2)).take 100,
      NoSurrogate (safeHeader (some item) 320)
  text : NoSurrogate
    ((join (py "\n\n") (message.root.walk.filterMap (textIn lib))).take maxTextChars)
  filenames : ∀ headers payload, MimePart.leaf headers payload ∈ message.root.walk →
    IsAttachment headers → ∀ filename, headers.filename = .ok filename →
      NoSurrogate (safeHeader filename 255)
  contentTypes : ∀ headers payload, MimePart.leaf headers payload ∈ message.root.walk →
    IsAttachment headers → ∀ contentType, headers.contentType = .ok contentType →
      TextOk (lib.unicode.lower contentType)
  signatures : ∀ header, lib.parseHeaders raw = .ok header →
    ∀ values, header.getAll (py "DKIM-Signature") = .ok values →
      ∀ value ∈ values.take maxDkimSignatures,
        TextOk ((dkimTag lib value (py "d")).take 253) ∧
          TextOk ((dkimTag lib value (py "s")).take 63)

/-- Every string of a message row and of its attachment rows can be encoded and stored. -/
def Storable (row : Message) (attachments : List Attachment) : Prop :=
  (∀ p ∈ row.varchars, TextOk p.2) ∧ (∀ s ∈ row.freeTexts, TextOk s) ∧
    ∀ a ∈ attachments, ∀ p ∈ a.varchars, TextOk p.2

instance (row : Message) (attachments : List Attachment) :
    Decidable (Storable row attachments) := by
  unfold Storable
  infer_instance

/-- The strings inside the authentication object, one by one. -/
lemma authentication_texts_iff {a : Authentication} :
    (∀ s ∈ a.texts, TextOk s) ↔
      (TextOk a.providerClaims.spf ∧ TextOk a.providerClaims.dkim ∧
        TextOk a.providerClaims.dmarc ∧ TextOk a.providerClaims.arc ∧
        TextOk a.providerClaims.authservId) ∧
      TextOk a.independentDkim.result ∧ (∀ r ∈ a.independentDkim.reason, TextOk r) ∧
      ∀ s ∈ a.independentDkim.signatures,
        TextOk s.domain ∧ TextOk s.selector ∧ TextOk s.result := by
  simp only [Authentication.texts, List.forall_mem_append, List.forall_mem_cons,
    List.forall_mem_flatMap, List.not_mem_nil, false_imp_iff, implies_true, and_true,
    Option.mem_toList]
  tauto

/-- The authentication object is storable exactly if the tags of its signatures are. -/
lemma authentication_storable_iff {lib : Library} {values : List PyStr} {claims : ProviderClaims}
    {dkim : DkimVerdict}
    (hclaims : TextOk claims.spf ∧ TextOk claims.dkim ∧ TextOk claims.dmarc ∧
      TextOk claims.arc ∧ TextOk claims.authservId)
    (hresult : TextOk dkim.result) (hreason : ∀ r ∈ dkim.reason, TextOk r)
    (hresults : ∀ s ∈ dkim.signatures, TextOk s.result)
    (htags : dkim.signatures.map (fun s => (s.domain, s.selector)) =
      values.map fun value =>
        ((dkimTag lib value (py "d")).take 253, (dkimTag lib value (py "s")).take 63)) :
    (∀ s ∈ Authentication.texts ⟨1, claims, dkim⟩, TextOk s) ↔
      ∀ value ∈ values, TextOk ((dkimTag lib value (py "d")).take 253) ∧
        TextOk ((dkimTag lib value (py "s")).take 63) := by
  have hpairs : (∀ p ∈ dkim.signatures.map fun s => (s.domain, s.selector),
      TextOk p.1 ∧ TextOk p.2) ↔
      ∀ value ∈ values, TextOk ((dkimTag lib value (py "d")).take 253) ∧
        TextOk ((dkimTag lib value (py "s")).take 63) := by
    rw [htags, List.forall_mem_map]
  rw [← hpairs, List.forall_mem_map, authentication_texts_iff]
  constructor
  · rintro ⟨-, -, -, hsigs⟩ s hs
    exact ⟨(hsigs s hs).1, (hsigs s hs).2.1⟩
  · intro hsigs
    exact ⟨hclaims, hresult, hreason, fun s hs =>
      ⟨(hsigs s hs).1, (hsigs s hs).2, hresults s hs⟩⟩

/-- The strings of a row with a parsed message, one by one. -/
lemma storable_iff {a : StoreArgs} {parsed : ParsedMessage} {lib : Library}
    (h : a.assessed = processed lib parsed) :
    Storable a.messageRow a.attachmentRows ↔
      (TextOk parsed.messageIdHash ∧ TextOk parsed.sender ∧ TextOk parsed.senderName ∧
        TextOk parsed.subject ∧ TextOk (assess parsed).1.value ∧
        TextOk (classify lib parsed).1 ∧ TextOk (assess parsed).2.1.value) ∧
      ((∀ s ∈ parsed.recipients, TextOk s) ∧ TextOk parsed.text ∧
        (∀ s ∈ parsed.links, TextOk s) ∧ (∀ s ∈ parsed.authentication.texts, TextOk s) ∧
        (∀ s ∈ (assess parsed).2.2, TextOk s) ∧ TextOk (classify lib parsed).2.2) ∧
      ∀ item ∈ parsed.attachments,
        TextOk item.filename ∧ TextOk item.contentType ∧ TextOk item.sha256 := by
  simp only [Storable, Message.varchars, Message.freeTexts, Attachment.varchars,
    StoreArgs.messageRow, StoreArgs.attachmentRows, h, processed, Option.map_some,
    Option.getD_some, List.forall_mem_append, List.forall_mem_cons, List.forall_mem_map,
    List.not_mem_nil, false_imp_iff, implies_true, and_true]
  tauto

/-- The attachments of an accepted message are storable exactly if their names and content
types are. -/
lemma attachments_storable_iff {lib : Library} {parts : List MimePart} {acc : PartsAcc}
    (h : collectParts lib parts {} = .ok acc) :
    (∀ a ∈ acc.attachments, TextOk a.filename ∧ TextOk a.contentType ∧ TextOk a.sha256) ↔
      (∀ headers payload, MimePart.leaf headers payload ∈ parts → IsAttachment headers →
        ∀ filename, headers.filename = .ok filename → NoSurrogate (safeHeader filename 255)) ∧
      ∀ headers payload, MimePart.leaf headers payload ∈ parts → IsAttachment headers →
        ∀ contentType, headers.contentType = .ok contentType →
          TextOk (lib.unicode.lower contentType) := by
  obtain ⟨hatts, -, hsome⟩ := collectParts_eq_ok h
  rw [List.nil_append] at hatts
  -- each attachment part has its entry, made from its own headers
  have hentry : ∀ headers payload, MimePart.leaf headers payload ∈ parts →
      IsAttachment headers → ∃ a ∈ acc.attachments, ∃ filename contentType,
        headers.filename = .ok filename ∧ headers.contentType = .ok contentType ∧
          a.filename = safeHeader filename 255 ∧
          a.contentType = lib.unicode.lower contentType := by
    intro headers payload hmem hcond
    obtain ⟨a, ha⟩ := Option.isSome_iff_exists.1 (hsome headers payload hmem hcond)
    obtain ⟨headers', payload', filename, contentType, hpart, -, hfile, htype, rfl⟩ :=
      mem_attachmentIn ha
    cases hpart
    have hmem' := List.mem_filterMap.2 ⟨_, hmem, ha⟩
    rw [← hatts] at hmem'
    exact ⟨_, hmem', filename, contentType, hfile, htype, rfl, rfl⟩
  constructor
  · intro hok
    constructor
    · intro headers payload hmem hcond filename hfile
      obtain ⟨a, ha, filename', _, hfile', -, heq, -⟩ := hentry headers payload hmem hcond
      obtain rfl : filename = filename' := Except.ok.inj (hfile.symm.trans hfile')
      rw [← heq]
      exact (hok a ha).1.noSurrogate
    · intro headers payload hmem hcond contentType htype
      obtain ⟨a, ha, _, contentType', -, htype', -, heq⟩ := hentry headers payload hmem hcond
      obtain rfl : contentType = contentType' := Except.ok.inj (htype.symm.trans htype')
      rw [← heq]
      exact (hok a ha).2.1
  · rintro ⟨hfiles, htypes⟩ a ha
    rw [hatts] at ha
    obtain ⟨part, hmem, ha⟩ := List.mem_filterMap.1 ha
    obtain ⟨headers, payload, filename, contentType, rfl, hcond, hfile, htype, rfl⟩ :=
      mem_attachmentIn ha
    refine ⟨safeHeader_textOk_iff.2 (hfiles _ _ hmem hcond _ hfile),
      htypes _ _ hmem hcond _ htype, ?_⟩
    exact (show TextOk (py "0123456789abcdef") by decide).of_subset (lib.sha256_hex _)

/-- What the library reads from a message decides whether the message is clean. -/
lemma clean_iff {lib : Library} {raw : Bytes} {message header : EmailMessage}
    {values : List PyStr} (f : HeaderFields lib message)
    (hheader : lib.parseHeaders raw = .ok header)
    (hvalues : header.getAll (py "DKIM-Signature") = .ok values) :
    Clean lib raw message ↔
      NoSurrogate f.sender ∧ NoSurrogate f.senderName ∧ NoSurrogate (safeHeader f.subject) ∧
        (∀ item ∈ f.recipients, NoSurrogate item) ∧
        NoSurrogate ((join (py "\n\n") (message.root.walk.filterMap (textIn lib))).take
          maxTextChars) ∧
        ((∀ headers payload, MimePart.leaf headers payload ∈ message.root.walk →
            IsAttachment headers → ∀ filename, headers.filename = .ok filename →
              NoSurrogate (safeHeader filename 255)) ∧
          ∀ headers payload, MimePart.leaf headers payload ∈ message.root.walk →
            IsAttachment headers → ∀ contentType, headers.contentType = .ok contentType →
              TextOk (lib.unicode.lower contentType)) ∧
        ∀ value ∈ values.take maxDkimSignatures,
          TextOk ((dkimTag lib value (py "d")).take 253) ∧
            TextOk ((dkimTag lib value (py "s")).take 63) := by
  constructor
  · rintro ⟨hsender, hname, hsubject, hrecipients, htext, hfiles, htypes, hsigs⟩
    refine ⟨hsender _ f.from_eq, hname _ f.from_eq, hsubject _ f.subject_eq, ?_, htext,
      ⟨hfiles, htypes⟩, hsigs _ hheader _ hvalues⟩
    rw [HeaderFields.recipients, List.forall_mem_map]
    exact hrecipients _ _ f.to_eq f.cc_eq
  · rintro ⟨hsender, hname, hsubject, hrecipients, htext, ⟨hfiles, htypes⟩, hsigs⟩
    refine ⟨?_, ?_, ?_, ?_, htext, hfiles, htypes, ?_⟩
    · intro value hvalue
      obtain rfl := Except.ok.inj (f.from_eq.symm.trans hvalue)
      exact hsender
    · intro value hvalue
      obtain rfl := Except.ok.inj (f.from_eq.symm.trans hvalue)
      exact hname
    · intro value hvalue
      obtain rfl := Except.ok.inj (f.subject_eq.symm.trans hvalue)
      exact hsubject
    · intro toValue ccValue hto hcc
      obtain rfl := Except.ok.inj (f.to_eq.symm.trans hto)
      obtain rfl := Except.ok.inj (f.cc_eq.symm.trans hcc)
      rw [HeaderFields.recipients, List.forall_mem_map] at hrecipients
      exact hrecipients
    · intro header' hheader' values' hvalues'
      obtain rfl := Except.ok.inj (hheader.symm.trans hheader')
      obtain rfl := Except.ok.inj (hvalues.symm.trans hvalues')
      exact hsigs

/-- Every string that `_store_message` writes for an accepted message can be encoded and
stored exactly if the message is clean. -/
theorem storeArgs_storable_iff (env : SyncEnv) (mailbox : Mailbox) (validity uid tick : ℕ)
    (raw : Bytes) (message : EmailMessage) (parsed : ParsedMessage)
    (hmailbox : TextOk mailbox.trustedAuthservIds)
    (hmessage : env.lib.parsebytes raw = .ok message)
    (haccept : parseMessage env.lib (env.resolver tick) raw (trustedIds env.lib mailbox) =
      .ok parsed) :
    Storable (storeArgs env mailbox validity uid tick { raw := raw }).messageRow
        (storeArgs env mailbox validity uid tick { raw := raw }).attachmentRows ↔
      Clean env.lib raw message := by
  have hassessed : (storeArgs env mailbox validity uid tick { raw := raw }).assessed =
      processed env.lib parsed := processMessage_of_ok haccept
  rw [storable_iff hassessed]
  obtain ⟨message', headers, dkim, acc, hmessage', hheaders, hdkim, hacc, hparsed⟩ :=
    parseMessage_eq_ok haccept
  obtain rfl : message = message' := Except.ok.inj (hmessage.symm.trans hmessage')
  obtain ⟨f, hsender, hname, hrecipients, hsubject, hhash⟩ := readHeaders_eq_ok hheaders
  obtain ⟨header, values, hheader, hvalues, hresult, hreason, hresults, htags⟩ :=
    verifyDkim_eq_ok hdkim
  obtain ⟨-, htexts, -⟩ := collectParts_eq_ok hacc
  rw [List.nil_append] at htexts
  -- what is made visible
  have hsenderOk : TextOk parsed.sender ↔ NoSurrogate f.sender := by
    rw [hparsed, ← hsender]
    exact visibleControls_textOk_iff env.lib headers.sender
  have hnameOk : TextOk parsed.senderName ↔ NoSurrogate f.senderName := by
    rw [hparsed, ← hname]
    exact visibleControls_textOk_iff env.lib headers.senderName
  have hsubjectOk : TextOk parsed.subject ↔ NoSurrogate (safeHeader f.subject) := by
    rw [hparsed, ← hsubject]
    exact visibleControls_textOk_iff env.lib headers.subject
  have hrecipientsOk : (∀ s ∈ parsed.recipients, TextOk s) ↔
      ∀ item ∈ f.recipients, NoSurrogate item := by
    rw [hparsed, ← hrecipients]
    simp only [assembleMessage, List.forall_mem_map, visibleControls_textOk_iff]
  have htextOk : TextOk parsed.text ↔ NoSurrogate
      ((join (py "\n\n") (message.root.walk.filterMap (textIn env.lib))).take maxTextChars) := by
    rw [hparsed, ← htexts, ← joinText_fst]
    exact storedText_textOk_iff env.lib _
  have hlinksOk : TextOk parsed.text → ∀ s ∈ parsed.links, TextOk s := by
    intro htext
    have hlinks : parsed.links = (collectLinks env.lib (findUrls 0 parsed.text) []).1 := by
      rw [hparsed, assembleMessage]
    rw [hlinks]
    exact textOk_keptInLinks.collectLinks
      (fun s hs c hc _ => htext c (findUrls_subset hs hc)) (by simp)
  -- what is stored beside the text
  have hattsEq : parsed.attachments = acc.attachments := by rw [hparsed, assembleMessage]
  have hattsOk := attachments_storable_iff hacc
  rw [← hattsEq] at hattsOk
  have hauthOk : (∀ s ∈ parsed.authentication.texts, TextOk s) ↔
      ∀ value ∈ values.take maxDkimSignatures,
        TextOk ((dkimTag env.lib value (py "d")).take 253) ∧
          TextOk ((dkimTag env.lib value (py "s")).take 63) := by
    have hauth : parsed.authentication =
        { schemaVersion := 1
          providerClaims := parseAuthenticationResults env.lib headers.authenticationResults
            (trustedIds env.lib mailbox)
          independentDkim := dkim } := by rw [hparsed, assembleMessage]
    rw [hauth]
    exact authentication_storable_iff
      (parseAuthenticationResults_textOk (trustedIds_textOk hmailbox)) hresult hreason hresults
      htags
  -- words of the application
  have hhashOk : TextOk parsed.messageIdHash := by
    rw [hparsed]
    exact hashMessageId_textOk hhash
  have hreasonsOk : ∀ s ∈ (assess parsed).2.2, TextOk s := by
    refine assess_textOk ?_
    rw [hparsed]
    exact assembleMessage_signals (collectParts_signals (by decide) hacc (by simp))
  have hriskOk : ∀ r : Risk, TextOk r.value := by
    rintro (_ | _ | _) <;> decide
  have hstateOk : ∀ s : State, TextOk s.value := by
    rintro (_ | _ | _) <;> decide
  rw [clean_iff f hheader hvalues, ← hsenderOk, ← hnameOk, ← hsubjectOk, ← hrecipientsOk,
    ← htextOk, ← hauthOk, ← hattsOk]
  constructor
  · rintro ⟨⟨-, hs, hn, hsub, -, -, -⟩, ⟨hrec, htext, -, hauth, -, -⟩, hatt⟩
    exact ⟨hs, hn, hsub, hrec, htext, hatt, hauth⟩
  · rintro ⟨hs, hn, hsub, hrec, htext, hatt, hauth⟩
    exact ⟨⟨hhashOk, hs, hn, hsub, hriskOk _, category_textOk, hstateOk _⟩,
      ⟨hrec, htext, hlinksOk htext, hauth, hreasonsOk, summary_textOk hsub⟩, hatt⟩

/-- A run whose library decodes the text of a message without headers to `decoded`. -/
def decodedEnv (decoded : PyStr) : SyncEnv :=
  sampleEnv (sampleLibrary blankMessage [([], [])] decoded) fun _ _ => .error .connection

/-- What is stored of such a message. -/
def decodedArgs (decoded : PyStr) (raw : Bytes) : StoreArgs :=
  storeArgs (decodedEnv decoded) sampleMailbox 7 1 0 { raw := raw }

theorem storeArgs_storable_hello :
    Storable (decodedArgs (py "hello") (bytes "\r\nhello")).messageRow
      (decodedArgs (py "hello") (bytes "\r\nhello")).attachmentRows := by
  have hok : (parseMessage (decodedEnv (py "hello")).lib ((decodedEnv (py "hello")).resolver 0)
      (bytes "\r\nhello") (trustedIds (decodedEnv (py "hello")).lib sampleMailbox)).isOk =
      true := by decide +kernel
  obtain ⟨parsed, hparsed⟩ := Exceptions.exists_of_isOk hok
  refine (storeArgs_storable_iff (decodedEnv (py "hello")) sampleMailbox 7 1 0
    (bytes "\r\nhello") blankMessage parsed (by decide) rfl hparsed).2 ?_
  refine (clean_iff ⟨none, none, none, none, none, rfl, rfl, rfl, rfl, rfl⟩ rfl rfl).2
    ⟨by decide, by decide, by decide, by decide, by decide, ⟨?_, ?_⟩, by decide⟩
  all_goals
    intro headers payload hmem hatt
    obtain ⟨rfl, rfl⟩ := MimePart.leaf.inj (List.mem_singleton.1 hmem)
    rcases hatt with hatt | ⟨filename, hfile, hne⟩
    · cases hatt
    · cases hfile
      exact absurd rfl hne

/-- A message whose text is the escape of a lone surrogate, in the charset `unicode_escape`. -/
def surrogateRaw : Bytes :=
  bytes "Content-Type: text/plain; charset=unicode_escape\r\n\r\n\\ud800"

/-- The message is accepted, and its text is the lone surrogate. -/
theorem storeArgs_not_storable_surrogate :
    (parseMessage (decodedEnv [0xD800]).lib ((decodedEnv [0xD800]).resolver 0) surrogateRaw
        (trustedIds (decodedEnv [0xD800]).lib sampleMailbox)).isOk = true ∧
      (decodedArgs [0xD800] surrogateRaw).messageRow.sanitizedText = [0xD800] ∧
      ¬ Storable (decodedArgs [0xD800] surrogateRaw).messageRow
        (decodedArgs [0xD800] surrogateRaw).attachmentRows := by
  decide +kernel

end MailGate
