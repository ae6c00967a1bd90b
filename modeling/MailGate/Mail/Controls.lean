import MailGate.Mail.Encoding
import MailGate.Mail.Inventory

/-!
# Controls made visible

Header fields and the text pass through `_visible_controls` before they are stored, and links are
made from the text after it.  File names of attachments do not pass through it, so a name with a
direction override reaches the review page as it is, and without a signal.
-/

namespace MailGate

open PyStr PyChar Exceptions

/-! ## Characters -/

section

variable (lib : Library)

/-- A format character or a control. -/
def IsControl (c : PyChar) : Prop :=
  lib.unicode.category c = py "Cf" ∨ lib.unicode.category c = py "Cc"

/-- Neither a format character nor a control other than a newline or a tab. -/
def IsShown (c : PyChar) : Prop :=
  lib.unicode.category c ≠ py "Cf" ∧ (lib.unicode.category c = py "Cc" → c ∈ py "\n\t")

/-- What the Unicode data says of ASCII, and that neither lower case nor the encoding of a host
name makes a control out of other characters. -/
structure ControlData : Prop where
  printable : ∀ c : PyChar, 0x20 ≤ c.val ∧ c.val < 0x7F → ¬IsControl lib c
  ascii : ∀ c : PyChar, c.val < 0x20 ∨ c.val = 0x7F → lib.unicode.category c = py "Cc"
  lower : ∀ s, (∀ c ∈ s, ¬IsControl lib c) → ∀ c ∈ lib.unicode.lower s, ¬IsControl lib c
  idna : ∀ host b, lib.idna host = some b → (∀ c ∈ host, 0x20 ≤ c.val ∧ c.val ≠ 0x7F) →
    ∀ x ∈ b, 0x20 ≤ x.toNat ∧ x.toNat ≠ 0x7F

end

variable {lib : Library}

lemma isShown_of_not_isControl {c : PyChar} (h : ¬IsControl lib c) : IsShown lib c :=
  ⟨fun hcf => h (.inl hcf), fun hcc => absurd (.inr hcc) h⟩

namespace ControlData

variable (data : ControlData lib)
include data

lemma isShown_line {c : PyChar} (h : c ∈ py "\n\t") : IsShown lib c := by
  have hlow : (py "\n\t").all (·.val < 0x20) = true := by rfl
  have hcc := data.ascii c (.inl (of_decide_eq_true (List.all_eq_true.1 hlow c h)))
  refine ⟨?_, fun _ => h⟩
  rw [hcc]
  decide

lemma isShown_literal {w : PyStr} (h : w.all isPrintable = true) : ∀ c ∈ w, IsShown lib c := by
  intro c hc
  have hprintable := List.all_eq_true.1 h c hc
  simp only [isPrintable, Bool.and_eq_true, decide_eq_true_eq] at hprintable
  exact isShown_of_not_isControl (data.printable c hprintable)

/-- What stands for a character is shown. -/
lemma isShown_visibleControl (c : PyChar) : ∀ d ∈ (visibleControl lib c).1, IsShown lib d := by
  have hself : IsShown lib c → ∀ d ∈ [c], IsShown lib d := fun h => by simpa using h
  rw [visibleControl]
  split
  · rename_i hline
    exact hself (data.isShown_line hline)
  · split
    · -- the name of a character is printable
      refine List.forall_mem_append.2 ⟨List.forall_mem_append.2
        ⟨data.isShown_literal (by rfl), ?_⟩, data.isShown_literal (by rfl)⟩
      split
      · exact fun d hd =>
          isShown_of_not_isControl (data.printable d (lib.unicode.name_ascii c d hd))
      · exact data.isShown_literal (by rfl)
    · rename_i hcontrol
      split
      · exact data.isShown_literal (by rfl)
      · rename_i hcc
        exact hself ⟨fun hcf => hcontrol (.inl hcf), fun hcc' => absurd hcc' hcc⟩

lemma isShown_visibleControls (s : PyStr) : ∀ c ∈ (visibleControls lib s).1, IsShown lib c := by
  intro d hd
  obtain ⟨c, -, hd⟩ := List.mem_flatMap.1 hd
  exact data.isShown_visibleControl c d hd

/-- The text of a message is shown. -/
lemma isShown_tidyLines (s : PyStr) :
    ∀ c ∈ tidyLines (visibleControls lib s).1, IsShown lib c := by
  intro c hc
  rcases mem_of_mem_tidyLines hc with rfl | hc
  · exact data.isShown_line (by decide)
  · exact data.isShown_visibleControls s c hc

/-- A format character is found. -/
lemma found_of_format {s : PyStr} {c : PyChar} (hc : c ∈ s)
    (hcf : lib.unicode.category c = py "Cf") : (visibleControls lib s).2 = true := by
  refine List.any_eq_true.2 ⟨c, hc, ?_⟩
  have hline : c ∉ py "\n\t" := by
    intro hline
    exact (data.isShown_line hline).1 hcf
  simp only [visibleControl]
  rw [if_neg hline, if_pos (.inl hcf)]

/-- An encoded host name has no control that the name did not have. -/
lemma not_isControl_encodeHost {host encoded : PyStr} (hhost : ∀ c ∈ host, ¬IsControl lib c)
    (h : encodeHost lib host = some encoded) : ∀ c ∈ encoded, ¬IsControl lib c := by
  rw [encodeHost] at h
  split at h
  · cases h
  · rename_i b hb
    split at h
    · rename_i hascii
      cases h
      have hbytes := data.idna host b hb fun c hc => by
        constructor
        · by_contra hlow
          exact hhost c hc (.inr (data.ascii c (.inl (by omega))))
        · intro hdel
          exact hhost c hc (.inr (data.ascii c (.inr hdel)))
      have hbyte : ∀ n : Fin 128, 0x20 ≤ n.val → n.val ≠ 0x7F →
          isPrintable (ofChar (Char.ofNat (Bytes.lower n.val.toUInt8).toNat)) = true := by
        decide +kernel
      intro c hc
      obtain ⟨x, hx, rfl⟩ := List.mem_map.1 hc
      have hlt : x < 0x80 := by simpa using List.all_eq_true.1 hascii x hx
      have hlt : x.toNat < 128 := UInt8.lt_iff_toNat_lt.1 hlt
      obtain ⟨hlow, hdel⟩ := hbytes x hx
      have hchar := hbyte ⟨x.toNat, hlt⟩ hlow hdel
      simp only [isPrintable, Bool.and_eq_true, decide_eq_true_eq] at hchar
      exact data.printable _ (by simpa using hchar)
    · cases h

lemma keptInLinks : KeptInLinks lib fun c => ¬IsControl lib c where
  printable := data.printable
  lower := data.lower
  encodeHost _ _ hhost h := data.not_isControl_encodeHost hhost h

/-- Links that are made from a text that is shown are shown. -/
lemma isShown_collectLinks {text : PyStr} (htext : ∀ c ∈ text, IsShown lib c) :
    ∀ s ∈ (collectLinks lib (findUrls 0 text) []).1, ∀ c ∈ s, IsShown lib c := by
  intro s hs c hc
  refine isShown_of_not_isControl (data.keptInLinks.collectLinks ?_ (by simp) s hs c hc)
  intro found hfound d hd hline hcontrol
  obtain ⟨hcf, hcc⟩ := htext d (findUrls_subset hfound hd)
  rcases hcontrol with h | h
  · exact hcf h
  · have hlines : (py "\n\t").all (· ∈ py "\t\r\n") = true := by rfl
    exact hline (of_decide_eq_true (List.all_eq_true.1 hlines d (hcc h)))

end ControlData

/-! ## Fields -/

/-- The strings of a message that are stored and shown. -/
def ParsedMessage.displayed (parsed : ParsedMessage) : List PyStr :=
  [parsed.sender, parsed.senderName, parsed.subject, parsed.text] ++ parsed.recipients ++
    parsed.links ++ parsed.attachments.map (·.filename)

/-- The same fields before controls are made visible; links are made from the text. -/
def originalFields {message : EmailMessage} (f : HeaderFields lib message) : List PyStr :=
  [f.sender, f.senderName, safeHeader f.subject,
      (joinText (message.root.walk.filterMap (textIn lib))).1] ++ f.recipients ++
    (message.root.walk.filterMap (attachmentIn lib)).map (·.filename)

/-- No stored string has a control other than newlines and tabs, and if there was a format
character, a signal tells. -/
structure ControlsVisible {message : EmailMessage} (f : HeaderFields lib message)
    (parsed : ParsedMessage) : Prop where
  shown : ∀ s ∈ parsed.displayed, ∀ c ∈ s, IsShown lib c
  signalled : (∃ s ∈ originalFields f, ∃ c ∈ s, lib.unicode.category c = py "Cf") →
    py "unicode_controls" ∈ parsed.signals ∨ py "unicode_controls_in_headers" ∈ parsed.signals

lemma HeaderFields.eq {message : EmailMessage} (f g : HeaderFields lib message) : f = g := by
  obtain ⟨a, b, c, d, e, ha, hb, hc, hd, he⟩ := f
  obtain ⟨a', b', c', d', e', ha', hb', hc', hd', he'⟩ := g
  obtain rfl := Except.ok.inj (ha.symm.trans ha')
  obtain rfl := Except.ok.inj (hb.symm.trans hb')
  obtain rfl := Except.ok.inj (hc.symm.trans hc')
  obtain rfl := Except.ok.inj (hd.symm.trans hd')
  obtain rfl := Except.ok.inj (he.symm.trans he')
  rfl

variable {resolver : DnsTxtResolver} {raw : Bytes} {trusted : List PyStr} {message : EmailMessage}
  {parsed : ParsedMessage}

/-- The header fields and the links of an accepted message are shown, and a format character in
the header fields or in the text gives a signal. -/
lemma controlsVisible_outside (data : ControlData lib) (hmessage : lib.parsebytes raw = .ok message)
    (h : parseMessage lib resolver raw trusted = .ok parsed) (f : HeaderFields lib message) :
    (∀ s ∈ [parsed.sender, parsed.senderName, parsed.subject, parsed.text] ++ parsed.recipients ++
        parsed.links, ∀ c ∈ s, IsShown lib c) ∧
      ∀ s ∈ [f.sender, f.senderName, safeHeader f.subject,
          (joinText (message.root.walk.filterMap (textIn lib))).1] ++ f.recipients,
        ∀ c ∈ s, lib.unicode.category c = py "Cf" → py "unicode_controls" ∈ parsed.signals ∨
          py "unicode_controls_in_headers" ∈ parsed.signals := by
  obtain ⟨message', headers, dkim, acc, hmessage', hread, -, hcollect, rfl⟩ := parseMessage_eq_ok h
  rw [hmessage] at hmessage'
  cases hmessage'
  obtain ⟨f', hsender, hname, hrecipients, hsubject, -⟩ := readHeaders_eq_ok hread
  obtain rfl := HeaderFields.eq f f'
  obtain ⟨-, htexts, -⟩ := collectParts_eq_ok hcollect
  have htexts : acc.textParts = message.root.walk.filterMap (textIn lib) := htexts
  constructor
  · simp only [List.forall_mem_append, List.forall_mem_cons, assembleMessage, List.forall_mem_map]
    refine ⟨⟨⟨?_, ?_, ?_, ?_, by simp⟩, ?_⟩, ?_⟩
    · exact data.isShown_visibleControls _
    · exact data.isShown_visibleControls _
    · exact data.isShown_visibleControls _
    · exact data.isShown_tidyLines _
    · exact fun recipient _ => data.isShown_visibleControls recipient
    · exact data.isShown_collectLinks (data.isShown_tidyLines _)
  · -- the field in which the character stands names the signal
    have hheader : ∀ {s : PyStr} {c : PyChar}, c ∈ s → lib.unicode.category c = py "Cf" →
        py "unicode_controls_in_headers" ∈ headerSignal (visibleControls lib s).2 := by
      intro s c hc hcf
      rw [data.found_of_format hc hcf]
      exact List.mem_singleton.2 rfl
    simp only [List.forall_mem_append, List.forall_mem_cons, assembleMessage, ← htexts, ← hsender,
      ← hname, ← hrecipients, ← hsubject]
    refine ⟨⟨?_, ?_, ?_, ?_, by simp⟩, ?_⟩
    · exact fun c hc hcf => .inr (by simp [hheader hc hcf])
    · exact fun c hc hcf => .inr (by simp [hheader hc hcf])
    · exact fun c hc hcf => .inr (by simp [hheader hc hcf])
    · intro c hc hcf
      left
      simp [data.found_of_format hc hcf]
    · intro recipient hrecipient c hc hcf
      right
      have hmem : py "unicode_controls_in_headers" ∈
          (headers.recipients.map (visibleControls lib)).flatMap (headerSignal ·.2) :=
        List.mem_flatMap.2 ⟨_, List.mem_map_of_mem hrecipient, hheader hc hcf⟩
      simp [hmem]

/-- Controls in an accepted message are made visible exactly if there are none in the names of
its attachments. -/
theorem controlsVisible_iff (data : ControlData lib) (hmessage : lib.parsebytes raw = .ok message)
    (h : parseMessage lib resolver raw trusted = .ok parsed) (f : HeaderFields lib message) :
    ControlsVisible f parsed ↔
      ∀ headers payload filename, .leaf headers payload ∈ message.root.walk →
        IsAttachment headers → headers.filename = .ok filename →
        ∀ c ∈ safeHeader filename 255, IsShown lib c := by
  have facts := parseMessage_leafFacts hmessage h
  obtain ⟨hshown, hsignal⟩ := controlsVisible_outside data hmessage h f
  constructor
  · intro hall headers payload filename hmem hatt hfile
    obtain ⟨a, ha⟩ := Option.isSome_iff_exists.1 ((facts.inventoried _ _ hmem).2 hatt)
    have hstored : a ∈ parsed.attachments := by
      rw [facts.attachments]
      exact List.mem_filterMap.2 ⟨_, hmem, ha⟩
    have hname := hall.shown a.filename (List.mem_append_right _ (List.mem_map_of_mem hstored))
    obtain ⟨headers', body, filename', contentType, heq, -, hfile', -, rfl⟩ := mem_attachmentIn ha
    cases heq
    rw [hfile] at hfile'
    cases hfile'
    exact hname
  · intro hall
    have hnames : ∀ a ∈ message.root.walk.filterMap (attachmentIn lib),
        ∀ c ∈ a.filename, IsShown lib c := by
      intro a ha
      obtain ⟨part, hmem, ha⟩ := List.mem_filterMap.1 ha
      obtain ⟨headers, body, filename, contentType, rfl, hatt, hfile, -, rfl⟩ :=
        mem_attachmentIn ha
      exact hall _ _ _ hmem hatt hfile
    constructor
    · refine List.forall_mem_append.2 ⟨hshown, ?_⟩
      rw [facts.attachments]
      exact List.forall_mem_map.2 hnames
    · rintro ⟨s, hs, c, hc, hcf⟩
      rcases List.mem_append.1 hs with hs | hs
      · exact hsignal s hs c hc hcf
      · obtain ⟨a, ha, rfl⟩ := List.mem_map.1 hs
        exact absurd hcf (hnames a ha c hc).1

/-! ## Names of one attachment -/

/-- In the small character data, the controls are those below the blank, those from delete on
and the one direction override. -/
lemma sample_isControl {c : PyChar} {message : EmailMessage} {addresses : List (PyStr × PyStr)}
    {decoded : PyStr} : IsControl (sampleLibrary message addresses decoded) c ↔
      (c.val < 0x20 ∨ (0x7F ≤ c.val ∧ c.val < 0xA0)) ∨ c.val = 0x202E := by
  show sampleUnicode.category c = _ ∨ sampleUnicode.category c = _ ↔ _
  simp only [sampleUnicode, sampleCategory]
  split
  · rename_i h
    simp only [h, true_or, or_true]
  · rename_i h
    simp only [h, false_or]
    split
    · rename_i hsurrogate
      have hval : c.val ≠ 0x202E := by
        simp only [isSurrogate, Bool.and_eq_true, decide_eq_true_eq] at hsurrogate
        omega
      simp only [hval, iff_false]
      decide
    · split
      · rename_i hformat
        simp only [hformat, true_or]
      · rename_i hother
        simp only [hother, iff_false]
        split
        · decide
        · decide

lemma sample_controlData (message : EmailMessage) (addresses : List (PyStr × PyStr))
    (decoded : PyStr) : ControlData (sampleLibrary message addresses decoded) := by
  constructor
  · intro c hc
    rw [sample_isControl]
    omega
  · intro c hc
    show sampleUnicode.category c = _
    simp only [sampleUnicode, sampleCategory]
    rw [if_pos (by omega)]
  · intro s hs c hc
    obtain ⟨d, hd, rfl⟩ := List.mem_map.1 hc
    rw [lowerAsciiChar]
    split
    · rw [sample_isControl]
      simp only
      omega
    · exact hs d hd
  · intro host b hb
    cases hb

/-- A plain name has no controls. -/
theorem controlsVisible_iff_plain : ∃ (parsed : ParsedMessage)
    (f : HeaderFields (partLibrary (namedPart (py "a.exe")))
      (partMessage (namedPart (py "a.exe")))),
    parseMessage (partLibrary (namedPart (py "a.exe"))) silentResolver [] [] = .ok parsed ∧
      ControlsVisible f parsed := by
  obtain ⟨parsed, hparsed⟩ := exists_of_isOk (show (parseMessage
    (partLibrary (namedPart (py "a.exe"))) silentResolver [] []).isOk = true by decide +kernel)
  refine ⟨parsed, ⟨none, none, none, none, none, rfl, rfl, rfl, rfl, rfl⟩, hparsed,
    (controlsVisible_iff (sample_controlData _ _ _) rfl hparsed _).2 ?_⟩
  intro headers payload filename hmem _ hfile
  obtain ⟨rfl, -⟩ := mem_walk_partMessage.1 hmem
  cases hfile
  exact (sample_controlData _ _ _).isShown_literal (by decide +kernel)

/-- A name that is a right-to-left override. -/
def overrideName : PyStr := [0x202E]

/-- An override in a file name is stored as it is. -/
theorem override_in_name : ∃ parsed,
    parseMessage (partLibrary (namedPart overrideName)) silentResolver [] [] = .ok parsed ∧
      ∀ f : HeaderFields (partLibrary (namedPart overrideName))
        (partMessage (namedPart overrideName)), ¬ControlsVisible f parsed := by
  obtain ⟨parsed, hparsed⟩ := exists_of_isOk (show (parseMessage
    (partLibrary (namedPart overrideName)) silentResolver [] []).isOk = true by decide +kernel)
  refine ⟨parsed, hparsed, fun f hall => ?_⟩
  have facts := parseMessage_leafFacts rfl hparsed
  have hstored : overrideName ∈ parsed.attachments.map (·.filename) := by
    rw [facts.attachments]
    decide +kernel
  have hshown := hall.shown overrideName (List.mem_append_right _ hstored) 0x202E (by decide)
  exact hshown.1 rfl

end MailGate
