import MailGate.Ingestion.Sync
import MailGate.Mail.Content

/-!
# Whether a message fits its columns

Headers are cut to the widths of their columns, and made visible afterwards: a control
character then takes the place of its whole name.  The content type of an attachment is not
cut at all.  This file settles for which messages every value still fits its column.
-/

namespace MailGate

open PyStr

/-! ## The width of a visible text -/

section

variable (lib : Library)

/-- The number of characters that show one character. -/
def charWidth (char : PyChar) : ℕ :=
  let name := lib.unicode.name char
  if char ∈ py "\n\t" then 1
  else if lib.unicode.category char = py "Cf" ∨ controlNames.any (contains · name) then
    10 + (if name = [] then 7 else name.length)
  else 1

/-- The number of characters that show a text. -/
def displayWidth (s : PyStr) : ℕ := (s.map (charWidth lib)).sum

lemma length_visibleControl (char : PyChar) :
    (visibleControl lib char).1.length = charWidth lib char := by
  unfold visibleControl charWidth
  by_cases hline : char ∈ py "\n\t"
  · simp [hline]
  · by_cases hcontrol : lib.unicode.category char = py "Cf" ∨
        controlNames.any (contains · (lib.unicode.name char))
    · have hopen : (py "[UNICODE ").length = 9 := rfl
      have hclose : (py "]").length = 1 := rfl
      have hname : (py "CONTROL").length = 7 := rfl
      simp only [hline, if_false, if_pos hcontrol, List.length_append, hopen, hclose]
      by_cases hempty : lib.unicode.name char = []
      · rw [if_neg (not_not.2 hempty), if_pos hempty, hname]
      · rw [if_pos hempty, if_neg hempty]
        omega
    · simp only [hline, if_false, if_neg hcontrol]
      split <;> rfl

/-- Making the controls of a text visible gives it its display width. -/
lemma length_visibleControls (s : PyStr) :
    (visibleControls lib s).1.length = displayWidth lib s := by
  simp only [visibleControls, displayWidth, List.length_flatMap, length_visibleControl]

end

lemma length_safeHeader_le (value : Option PyStr) (limit : ℕ) :
    (safeHeader value limit).length ≤ limit := List.length_take_le _ _

lemma length_hashMessageId_le {lib : Library} {messageId hash : PyStr}
    (h : hashMessageId lib messageId = .ok hash) : hash.length ≤ 64 := by
  unfold hashMessageId at h
  split at h
  · cases h
    simp
  · split at h
    · cases h
      exact (lib.sha256_length _).le
    · cases h

/-- The category of a message is one of four words. -/
lemma classify_category (lib : Library) (parsed : ParsedMessage) :
    (classify lib parsed).1 ∈ [py "finance", py "calendar", py "newsletter", py "general"] := by
  unfold classify
  simp only
  split_ifs <;> simp

/-! ## The messages that fit -/

/-- The message shows its sender, the name of its sender and its subject within the widths of
their columns, and its attachments name no content type longer than the column. -/
structure Narrow (lib : Library) (message : EmailMessage) : Prop where
  sender : ∀ value, message.get (py "From") = .ok value →
    displayWidth lib (safeHeader (some (firstAddress lib value).2) 320) ≤ 320
  senderName : ∀ value, message.get (py "From") = .ok value →
    displayWidth lib (safeHeader (some (firstAddress lib value).1) 320) ≤ 320
  subject : ∀ value, message.get (py "Subject") = .ok value →
    displayWidth lib (safeHeader value) ≤ 998
  contentTypes : ∀ headers payload, MimePart.leaf headers payload ∈ message.root.walk →
    IsAttachment headers → ∀ contentType, headers.contentType = .ok contentType →
      (lib.unicode.lower contentType).length ≤ 255

/-- The headers that the library reads decide whether a message is narrow. -/
lemma narrow_iff {lib : Library} {message : EmailMessage} (f : HeaderFields lib message) :
    Narrow lib message ↔
      displayWidth lib f.sender ≤ 320 ∧ displayWidth lib f.senderName ≤ 320 ∧
        displayWidth lib (safeHeader f.subject) ≤ 998 ∧
        ∀ headers payload, MimePart.leaf headers payload ∈ message.root.walk →
          IsAttachment headers → ∀ contentType, headers.contentType = .ok contentType →
            (lib.unicode.lower contentType).length ≤ 255 := by
  constructor
  · rintro ⟨hsender, hname, hsubject, htypes⟩
    exact ⟨hsender _ f.from_eq, hname _ f.from_eq, hsubject _ f.subject_eq, htypes⟩
  · rintro ⟨hsender, hname, hsubject, htypes⟩
    refine ⟨?_, ?_, ?_, htypes⟩
    · intro value hvalue
      obtain rfl := Except.ok.inj (f.from_eq.symm.trans hvalue)
      exact hsender
    · intro value hvalue
      obtain rfl := Except.ok.inj (f.from_eq.symm.trans hvalue)
      exact hname
    · intro value hvalue
      obtain rfl := Except.ok.inj (f.subject_eq.symm.trans hvalue)
      exact hsubject

/-- The values of a message row and of its attachment rows are within the widths of their
columns. -/
def WithinColumns (row : Message) (attachments : List Attachment) : Prop :=
  (∀ p ∈ row.varchars, p.2.length ≤ p.1) ∧
    ∀ a ∈ attachments, ∀ p ∈ a.varchars, p.2.length ≤ p.1

lemma withinColumns_iff {row : Message} {attachments : List Attachment} :
    WithinColumns row attachments ↔
      (row.messageIdHash.length ≤ 64 ∧ row.sender.length ≤ 320 ∧ row.senderName.length ≤ 320 ∧
        row.subject.length ≤ 998 ∧ row.risk.length ≤ 10 ∧ row.category.length ≤ 80 ∧
        row.state.length ≤ 20) ∧
      ∀ a ∈ attachments, a.filename.length ≤ 255 ∧ a.contentType.length ≤ 255 ∧
        a.sha256.length ≤ 64 := by
  simp [WithinColumns, Message.varchars, Attachment.varchars]

instance (row : Message) (attachments : List Attachment) :
    Decidable (WithinColumns row attachments) := by
  unfold WithinColumns
  infer_instance

/-- The attachments of an accepted message are within their columns exactly if their content
types are. -/
lemma attachments_within_iff {lib : Library} {parts : List MimePart} {acc : PartsAcc}
    (h : collectParts lib parts {} = .ok acc) :
    (∀ a ∈ acc.attachments, a.filename.length ≤ 255 ∧ a.contentType.length ≤ 255 ∧
        a.sha256.length ≤ 64) ↔
      ∀ headers payload, MimePart.leaf headers payload ∈ parts → IsAttachment headers →
        ∀ contentType, headers.contentType = .ok contentType →
          (lib.unicode.lower contentType).length ≤ 255 := by
  obtain ⟨hatts, -, hsome⟩ := collectParts_eq_ok h
  rw [List.nil_append] at hatts
  constructor
  · intro hfit headers payload hmem hcond contentType htype
    obtain ⟨a, ha⟩ := Option.isSome_iff_exists.1 (hsome headers payload hmem hcond)
    obtain ⟨headers', payload', filename, contentType', hpart, -, -, htype', rfl⟩ :=
      mem_attachmentIn ha
    cases hpart
    rw [htype] at htype'
    cases htype'
    have hmem' := List.mem_filterMap.2 ⟨_, hmem, ha⟩
    rw [← hatts] at hmem'
    exact (hfit _ hmem').2.1
  · intro hnarrow a ha
    rw [hatts] at ha
    obtain ⟨part, hmem, ha⟩ := List.mem_filterMap.1 ha
    obtain ⟨headers, payload, filename, contentType, rfl, hcond, -, htype, rfl⟩ :=
      mem_attachmentIn ha
    exact ⟨length_safeHeader_le _ _, hnarrow _ _ hmem hcond _ htype,
      (lib.sha256_length _).le⟩

/-- Every value that `_store_message` writes for an accepted message fits its column exactly
if the message shows its headers within the widths of the columns and names no overlong
content type. -/
theorem storeArgs_within_columns_iff (env : SyncEnv) (mailbox : Mailbox)
    (validity uid tick : ℕ) (raw : Bytes) (message : EmailMessage) (parsed : ParsedMessage)
    (hmessage : env.lib.parsebytes raw = .ok message)
    (haccept : parseMessage env.lib (env.resolver tick) raw (trustedIds env.lib mailbox) =
      .ok parsed) :
    WithinColumns (storeArgs env mailbox validity uid tick { raw := raw }).messageRow
        (storeArgs env mailbox validity uid tick { raw := raw }).attachmentRows ↔
      Narrow env.lib message := by
  have hassessed : (storeArgs env mailbox validity uid tick { raw := raw }).assessed =
      processed env.lib parsed := processMessage_of_ok haccept
  generalize storeArgs env mailbox validity uid tick { raw := raw } = a at *
  obtain ⟨message', headers, dkim, acc, hmessage', hheaders, -, hacc, hparsed⟩ :=
    parseMessage_eq_ok haccept
  obtain rfl : message = message' := Except.ok.inj (hmessage.symm.trans hmessage')
  obtain ⟨f, hsender, hname, -, hsubject, hhash⟩ := readHeaders_eq_ok hheaders
  -- the three texts that are made visible after the cut
  have hwidths : a.messageRow.sender.length = displayWidth env.lib f.sender ∧
      a.messageRow.senderName.length = displayWidth env.lib f.senderName ∧
      a.messageRow.subject.length = displayWidth env.lib (safeHeader f.subject) := by
    rw [← length_visibleControls, ← length_visibleControls, ← length_visibleControls, ← hsender,
      ← hname, ← hsubject]
    simp only [StoreArgs.messageRow, hassessed, processed, hparsed, assembleMessage]
    exact ⟨rfl, rfl, rfl⟩
  -- the other texts of the row always fit
  have hrest : a.messageRow.messageIdHash.length ≤ 64 ∧ a.messageRow.risk.length ≤ 10 ∧
      a.messageRow.category.length ≤ 80 ∧ a.messageRow.state.length ≤ 20 := by
    have hrisk : ∀ r : Risk, r.value.length ≤ 10 := by
      rintro (_ | _ | _) <;> decide
    have hstate : ∀ s : State, s.value.length ≤ 20 := by
      rintro (_ | _ | _) <;> decide
    have hcategory : ∀ c ∈ [py "finance", py "calendar", py "newsletter", py "general"],
        c.length ≤ 80 := by decide
    simp only [StoreArgs.messageRow, hassessed, processed]
    refine ⟨?_, hrisk _, hcategory _ (classify_category env.lib parsed), hstate _⟩
    rw [hparsed]
    exact length_hashMessageId_le hhash
  have hatts : (∀ r ∈ a.attachmentRows, r.filename.length ≤ 255 ∧ r.contentType.length ≤ 255 ∧
        r.sha256.length ≤ 64) ↔
      ∀ item ∈ acc.attachments, item.filename.length ≤ 255 ∧ item.contentType.length ≤ 255 ∧
        item.sha256.length ≤ 64 := by
    simp only [StoreArgs.attachmentRows, hassessed, processed, hparsed, assembleMessage,
      Option.map_some, Option.getD_some, List.forall_mem_map]
  rw [withinColumns_iff, hatts, attachments_within_iff hacc, narrow_iff f, hwidths.1, hwidths.2.1,
    hwidths.2.2]
  tauto

/-- A message without text whose sender is named `name`. -/
def namedMessage (name : PyStr) : EmailMessage :=
  { blankMessage with get := fun header => .ok (if header = py "From" then some name else none) }

/-- A run whose library reads this sender with the address `a@b.c`. -/
def namedEnv (name : PyStr) : SyncEnv :=
  sampleEnv (sampleLibrary (namedMessage name) [(name, py "a@b.c")] []) fun _ _ =>
    .error .connection

/-- What is stored of a message by this sender. -/
def namedArgs (name : PyStr) (raw : Bytes) : StoreArgs :=
  storeArgs (namedEnv name) sampleMailbox 7 1 0 { raw := raw }

theorem storeArgs_within_columns_abc :
    WithinColumns (namedArgs (py "abc") (bytes "From: abc <a@b.c>")).messageRow
      (namedArgs (py "abc") (bytes "From: abc <a@b.c>")).attachmentRows := by
  have hok : (parseMessage (namedEnv (py "abc")).lib ((namedEnv (py "abc")).resolver 0)
      (bytes "From: abc <a@b.c>") (trustedIds (namedEnv (py "abc")).lib sampleMailbox)).isOk =
      true := by decide +kernel
  obtain ⟨parsed, hparsed⟩ := Exceptions.exists_of_isOk hok
  refine (storeArgs_within_columns_iff (namedEnv (py "abc")) sampleMailbox 7 1 0
    (bytes "From: abc <a@b.c>") (namedMessage (py "abc")) parsed rfl hparsed).2 ⟨?_, ?_, ?_, ?_⟩
  · intro value hvalue
    cases hvalue
    decide +kernel
  · intro value hvalue
    cases hvalue
    decide +kernel
  · intro value hvalue
    cases hvalue
    decide +kernel
  · intro headers payload hmem hatt
    obtain ⟨rfl, rfl⟩ := MimePart.leaf.inj (List.mem_singleton.1 hmem)
    rcases hatt with hatt | ⟨filename, hfile, hne⟩
    · cases hatt
    · cases hfile
      exact absurd rfl hne

/-- A message whose sender is named by eleven overrides, each of which is shown by 32
characters. -/
def overridesRaw : Bytes :=
  bytes "From: =?utf-8?b?4oCu4oCu4oCu4oCu4oCu4oCu4oCu4oCu4oCu4oCu4oCu?= <a@b.c>"

/-- The message is accepted, and the name of its sender takes 352 characters. -/
theorem storeArgs_beyond_columns_overrides :
    (parseMessage (namedEnv (List.replicate 11 0x202E)).lib
        ((namedEnv (List.replicate 11 0x202E)).resolver 0) overridesRaw
        (trustedIds (namedEnv (List.replicate 11 0x202E)).lib sampleMailbox)).isOk = true ∧
      (namedArgs (List.replicate 11 0x202E) overridesRaw).messageRow.senderName.length = 352 ∧
      ¬ WithinColumns (namedArgs (List.replicate 11 0x202E) overridesRaw).messageRow
        (namedArgs (List.replicate 11 0x202E) overridesRaw).attachmentRows := by
  decide +kernel

end MailGate
