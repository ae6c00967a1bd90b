import MailGate.Mail.Content
import MailGate.Mail.Tidy

/-!
# The inventory of parts

Each part of a message is meant to be either joined into the text or inventoried.  A part that
is neither named, nor an attachment by its disposition, nor text is in neither list, and no
signal tells of it.  A part that is inventoried is judged by its file name after the name
has been shortened, and so the end of a long name is not judged.
-/

namespace MailGate

open PyStr PyChar Exceptions

/-! ## Names -/

namespace PyStr

lemma splitWords_append_space {s t : PyStr} {c : PyChar} (hc : isSpace c = true) :
    splitWords (s ++ c :: t) = splitWords s ++ splitWords t := by
  rw [splitWords, List.splitOnP_append_cons s t hc, List.filter_append]
  rfl

lemma splitWords_of_space {s : PyStr} (hs : ∀ c ∈ s, isSpace c = true) : splitWords s = [] := by
  induction s with
  | nil => rfl
  | cons c s ih =>
    rw [List.forall_mem_cons] at hs
    exact (splitWords_append_space (s := []) hs.1).trans (ih hs.2)

lemma splitWords_append_of_space {s x : PyStr} (hx : ∀ c ∈ x, isSpace c = true) :
    splitWords (s ++ x) = splitWords s := by
  cases x with
  | nil => rw [List.append_nil]
  | cons c x =>
    rw [List.forall_mem_cons] at hx
    rw [splitWords_append_space hx.1, splitWords_of_space hx.2, List.append_nil]

lemma splitWords_word {x : PyStr} (hne : x ≠ []) (hx : ∀ c ∈ x, isSpace c = false) :
    splitWords x = [x] := by
  rw [splitWords, List.splitOnP_eq_singleton hx, List.filter_singleton]
  simp [hne]

lemma suffix_join (sep w : PyStr) (ws : List PyStr) : w <:+ join sep (ws ++ [w]) := by
  by_cases hws : ws = []
  · rw [hws, List.nil_append, join_singleton]
  · rw [join_append hws (by simp), join_singleton]
    exact ⟨_, rfl⟩

/-- Joining the words of a text again leaves the end of its last word alone. -/
lemma suffix_words {s x : PyStr} (hne : x ≠ []) (hx : ∀ c ∈ x, isSpace c = false) :
    x <:+ join (py " ") (splitWords (s ++ x)) := by
  -- the characters before `x` are taken into it up to the last space
  induction s using List.reverseRecOn generalizing x with
  | nil =>
    rw [List.nil_append, splitWords_word hne hx, join_singleton]
  | append_singleton s c ih =>
    rw [List.append_assoc, List.singleton_append]
    cases hc : isSpace c with
    | true =>
      rw [splitWords_append_space hc, splitWords_word hne hx]
      exact suffix_join _ _ _
    | false =>
      have hcx : ∀ d ∈ c :: x, isSpace d = false := List.forall_mem_cons.2 ⟨hc, hx⟩
      exact (List.suffix_cons c x).trans (ih (by simp) hcx)

/-- A text is what stripping leaves between white space. -/
lemma exists_strip (s : PyStr) : ∃ a b : PyStr, s = a ++ strip s ++ b ∧
    ∀ c ∈ b, isSpace c = true := by
  refine ⟨s.takeWhile isSpace, (s.dropWhile isSpace).rtakeWhile isSpace, ?_, ?_⟩
  · rw [List.append_assoc, strip, List.rdropWhile, List.rtakeWhile, ← List.reverse_append,
      List.takeWhile_append_dropWhile, List.reverse_reverse, List.takeWhile_append_dropWhile]
  · intro c hc
    exact List.mem_rtakeWhile_imp hc

end PyStr

/-- The name of a part as the header has it, without NUL and with single blanks: what
`_safe_header` cuts. -/
def normalisedName (filename : Option PyStr) : PyStr :=
  join (py " ") (splitWords (remove 0 (filename.getD [])))

lemma safeHeader_eq_take (filename : Option PyStr) (limit : ℕ) :
    safeHeader filename limit = (normalisedName filename).take limit := rfl

/-- An end of the stripped name without white space and NUL is an end of the normalised name. -/
lemma suffix_normalisedName {filename : Option PyStr} {x : PyStr} (hne : x ≠ [])
    (hx : ∀ c ∈ x, isSpace c = false ∧ c ≠ 0) (h : x <:+ strip (filename.getD [])) :
    x <:+ normalisedName filename := by
  obtain ⟨a, b, heq, hb⟩ := exists_strip (filename.getD [])
  obtain ⟨m, hm⟩ := h
  have hkeep : remove 0 x = x := List.filter_eq_self.2 fun c hc => by simpa using (hx c hc).2
  have hsplit : remove 0 (filename.getD []) = remove 0 (a ++ m) ++ x ++ remove 0 b := by
    rw [heq, ← hm]
    rw [remove, List.filter_append, List.filter_append, List.filter_append]
    rw [remove] at hkeep
    rw [hkeep, remove, List.filter_append, remove]
    simp only [List.append_assoc]
  have hspace : ∀ c ∈ remove 0 b, isSpace c = true := fun c hc => hb c (List.mem_of_mem_filter hc)
  rw [normalisedName, hsplit, splitWords_append_of_space hspace]
  exact suffix_words hne fun c hc => (hx c hc).1

/-! ## Dangerous names -/

/-- How `str.lower` treats characters that have no case: the full stop, NUL and white space stay
as they are, and a text whose lower case begins with a full stop begins with one. -/
structure KeepsUncased (lower : PyStr → PyStr) : Prop where
  keeps : ∀ s, ∀ c ∈ s, (c = ofChar '.' ∨ c = 0 ∨ isSpace c = true) → c ∈ lower s
  stop_cons : ∀ s, lower (ofChar '.' :: s) = ofChar '.' :: lower s
  of_stop_cons : ∀ s t, lower s = ofChar '.' :: t → s.head? = some (ofChar '.')

section

variable (lib : Library)

/-- The name ends in one of `DANGEROUS_EXTENSIONS`, upper and lower case alike. -/
def HasDangerousEnding (name : PyStr) : Prop :=
  ∃ x, x <:+ name ∧ lib.unicode.lower x ∈ dangerousExtensions

end

variable {lib : Library}

lemma mem_dangerousExtensions {e : PyStr} (h : e ∈ dangerousExtensions) :
    ∃ t, e = ofChar '.' :: t ∧ ofChar '.' ∉ t ∧ ∀ c ∈ e, isSpace c = false ∧ c ≠ 0 := by
  have hshape : ∀ e ∈ dangerousExtensions, e.head? = some (ofChar '.') ∧ ofChar '.' ∉ e.tail := by
    decide
  have hchars :
      (dangerousExtensions.all fun e => e.all fun c => !isSpace c && c.val != 0) = true := by
    rfl
  obtain ⟨hhead, htail⟩ := hshape e h
  cases e with
  | nil => cases hhead
  | cons c t =>
    cases hhead
    refine ⟨t, rfl, htail, fun d hd => ?_⟩
    have hd := List.all_eq_true.1 (List.all_eq_true.1 hchars _ h) d hd
    rw [Bool.and_eq_true, Bool.not_eq_true', bne_iff_ne] at hd
    exact ⟨hd.1, fun heq => hd.2 (congrArg Fin.val heq)⟩

/-- What a dangerous ending looks like before it is lowered. -/
lemma dangerous_shape (hlower : KeepsUncased lib.unicode.lower) {x : PyStr}
    (h : lib.unicode.lower x ∈ dangerousExtensions) :
    ∃ t, x = ofChar '.' :: t ∧ ofChar '.' ∉ t ∧ ∀ c ∈ x, isSpace c = false ∧ c ≠ 0 := by
  obtain ⟨u, hu, hstop, hchars⟩ := mem_dangerousExtensions h
  have hhead := hlower.of_stop_cons _ _ hu
  cases x with
  | nil => cases hhead
  | cons c t =>
    cases hhead
    rw [hlower.stop_cons] at hu
    obtain ⟨-, rfl⟩ := List.cons.inj hu
    refine ⟨t, rfl, fun hmem => hstop (hlower.keeps t _ hmem (.inl rfl)), ?_⟩
    intro c hc
    constructor
    · by_contra hspace
      have hkept := hlower.keeps _ _ hc (.inr (.inr (by simpa using hspace)))
      exact hspace (hchars c hkept).1
    · intro hnul
      exact (hchars c (hlower.keeps _ _ hc (.inr (.inl hnul)))).2 hnul

lemma afterLast_append {c : PyChar} {s t : PyStr} (ht : c ∉ t) :
    afterLast c (s ++ c :: t) = t := by
  have hall : ∀ d ∈ t.reverse, decide (d ≠ c) = true := by
    intro d hd
    exact decide_eq_true fun h => ht (h ▸ List.mem_reverse.1 hd)
  rw [afterLast, List.reverse_append, List.reverse_cons, List.append_assoc,
    List.takeWhile_append_of_pos hall, List.singleton_append, List.takeWhile_cons_of_neg (by simp),
    List.append_nil, List.reverse_reverse]

lemma exists_afterLast {c : PyChar} {s : PyStr} (h : c ∈ s) : ∃ t, s = t ++ c :: afterLast c s := by
  obtain ⟨a, b, hab, ha⟩ := List.eq_append_cons_of_mem (List.mem_reverse.2 h)
  have hs : s = b.reverse ++ c :: a.reverse := by
    rw [← List.reverse_reverse s, hab]
    simp
  have hlast : afterLast c s = a.reverse := by
    rw [hs]
    exact afterLast_append fun hmem => ha (List.mem_reverse.1 hmem)
  exact ⟨b.reverse, by rw [hlast, ← hs]⟩

/-- The suffix that `parse_message` computes is dangerous exactly if the name ends so. -/
lemma filenameSuffix_dangerous (hlower : KeepsUncased lib.unicode.lower) (name : PyStr) :
    filenameSuffix lib name ∈ dangerousExtensions ↔ HasDangerousEnding lib name := by
  rw [filenameSuffix]
  constructor
  · intro h
    split at h
    · rename_i hstop
      obtain ⟨stem, hstem⟩ := exists_afterLast hstop
      refine ⟨ofChar '.' :: afterLast (ofChar '.') name, ⟨stem, hstem.symm⟩, ?_⟩
      rw [hlower.stop_cons]
      exact h
    · exact absurd h (by decide)
  · rintro ⟨x, ⟨stem, rfl⟩, hx⟩
    obtain ⟨t, rfl, ht, -⟩ := dangerous_shape hlower hx
    rw [if_pos (by simp), afterLast_append ht]
    rw [hlower.stop_cons] at hx
    exact hx

/-- A dangerous ending of the stripped name is one of the normalised name. -/
lemma HasDangerousEnding.normalised (hlower : KeepsUncased lib.unicode.lower)
    {filename : Option PyStr} (h : HasDangerousEnding lib (strip (filename.getD []))) :
    HasDangerousEnding lib (normalisedName filename) := by
  obtain ⟨x, hx, hlow⟩ := h
  obtain ⟨t, rfl, -, hchars⟩ := dangerous_shape hlower hlow
  exact ⟨_, suffix_normalisedName (by simp) hchars hx, hlow⟩

/-! ## What the loop over the parts tells of each part -/

variable {resolver : DnsTxtResolver} {raw : Bytes} {trusted : List PyStr} {message : EmailMessage}
  {parsed : ParsedMessage}

/-- The part is `text/plain` or `text/html`. -/
def IsText (headers : PartHeaders) : Prop :=
  headers.contentType = .ok (py "text/plain") ∨ headers.contentType = .ok (py "text/html")

/-- A leaf part that is read is inventoried exactly if it is an attachment, and otherwise its text
is joined exactly if it is text. -/
lemma collectPart_leaf {acc acc' : PartsAcc} {headers : PartHeaders}
    {payload : Except MailExn (Option Bytes)}
    (h : collectPart lib acc (.leaf headers payload) = .ok acc') :
    ((attachmentIn lib (.leaf headers payload)).isSome ↔ IsAttachment headers) ∧
      ((textIn lib (.leaf headers payload)).isSome ↔ ¬IsAttachment headers ∧ IsText headers) := by
  simp only [collectPart] at h
  obtain ⟨body, hbody, h⟩ := bind_eq_ok.1 h
  obtain ⟨disposition, hdisp, h⟩ := bind_eq_ok.1 h
  obtain ⟨name, hname, h⟩ := bind_eq_ok.1 h
  obtain ⟨filename, hfile, hname⟩ := bind_eq_ok.1 hname
  cases hname
  have hatt : IsAttachment headers ↔
      disposition = some (py "attachment") ∨ safeHeader filename 255 ≠ [] := by
    simp [IsAttachment, hdisp, hfile]
  rw [hatt]
  split at h
  · rename_i hcond
    split at h
    · cases h
    · obtain ⟨contentType, htype, h⟩ := bind_eq_ok.1 h
      simp [attachmentIn, textIn, hbody, hdisp, hfile, htype, hcond]
  · rename_i hcond
    obtain ⟨contentType, htype, h⟩ := bind_eq_ok.1 h
    have hnone : attachmentIn lib (.leaf headers payload) = none := by
      simp [attachmentIn, hbody, hdisp, hfile, htype, hcond]
    have htext : IsText headers ↔ contentType ∈ [py "text/plain", py "text/html"] := by
      simp [IsText, htype]
    rw [hnone, htext]
    split at h
    · rename_i hother
      have hnone : textIn lib (.leaf headers payload) = none := by
        simp only [textIn, hbody, hdisp, hfile, htype, if_neg hcond, if_pos hother]
      simp [hnone, hcond, hother]
    · rename_i hother
      obtain ⟨⟨value, unknown⟩, hvalue, h⟩ := bind_eq_ok.1 h
      simp only [textIn, hbody, hdisp, hfile, htype, hvalue, if_neg hcond, if_neg hother]
      split at h
      · rename_i hhtml
        obtain ⟨text, hdone, -⟩ := bind_eq_ok.1 h
        simp [hhtml, hdone, Except.toOption, hcond]
      · rename_i hhtml
        simpa [hhtml, hcond] using hother

/-- A round of the loop keeps the signals so far, and adds those of the part's attachment. -/
lemma collectPart_raises {acc acc' : PartsAcc} {part : MimePart}
    (h : collectPart lib acc part = .ok acc') : acc.signals ⊆ acc'.signals ∧
      ∀ a, attachmentIn lib part = some a → py "attachment_present" ∈ acc'.signals ∧
        py "attachment_content_not_inspected" ∈ acc'.signals ∧
        (a.dangerous = true → py "dangerous_attachment" ∈ acc'.signals) := by
  cases part with
  | multipart headers parts hcontain =>
    cases h
    exact ⟨List.Subset.refl _, fun a ha => by cases ha⟩
  | leaf headers payload =>
    have hleaf := (collectPart_leaf h).1
    simp only [collectPart] at h
    obtain ⟨body, hbody, h⟩ := bind_eq_ok.1 h
    obtain ⟨disposition, hdisp, h⟩ := bind_eq_ok.1 h
    obtain ⟨name, hname, h⟩ := bind_eq_ok.1 h
    obtain ⟨filename, hfile, hname⟩ := bind_eq_ok.1 hname
    cases hname
    split at h
    · rename_i hcond
      split at h
      · cases h
      · obtain ⟨contentType, htype, h⟩ := bind_eq_ok.1 h
        cases h
        refine ⟨fun s hs => by simp [hs], ?_⟩
        intro a ha
        simp only [attachmentIn, hbody, hdisp, hfile, htype, if_pos hcond] at ha
        cases ha
        refine ⟨by simp, by simp, ?_⟩
        intro hdangerous
        simp [hdangerous]
    · rename_i hcond
      -- a part of the text: the signals grow, and there is nothing to inventory
      have hnone : ∀ a, attachmentIn lib (.leaf headers payload) ≠ some a := by
        intro a ha
        have hatt := hleaf.1 (by simp [ha])
        exact hcond (by simpa [IsAttachment, hdisp, hfile] using hatt)
      refine ⟨?_, fun a ha => absurd ha (hnone a)⟩
      obtain ⟨contentType, -, h⟩ := bind_eq_ok.1 h
      split at h
      · cases h
        exact List.Subset.refl _
      · obtain ⟨⟨value, unknown⟩, -, h⟩ := bind_eq_ok.1 h
        split at h
        · obtain ⟨text, -, h⟩ := bind_eq_ok.1 h
          cases h
          exact List.subset_append_left _ _
        · cases h
          exact List.subset_append_left _ _

/-- What the loop tells of the parts, whatever they are. -/
lemma collectParts_raises {parts : List MimePart} {acc acc' : PartsAcc}
    (h : collectParts lib parts acc = .ok acc') : acc.signals ⊆ acc'.signals ∧
      ∀ part ∈ parts, (∃ mid mid', collectPart lib mid part = .ok mid') ∧
        ∀ a, attachmentIn lib part = some a → py "attachment_present" ∈ acc'.signals ∧
          py "attachment_content_not_inspected" ∈ acc'.signals ∧
          (a.dangerous = true → py "dangerous_attachment" ∈ acc'.signals) := by
  induction parts generalizing acc with
  | nil =>
    cases h
    exact ⟨List.Subset.refl _, by simp⟩
  | cons part parts ih =>
    obtain ⟨mid, hpart, h⟩ := bind_eq_ok.1 h
    obtain ⟨hkept, hraised⟩ := collectPart_raises hpart
    obtain ⟨hlater, hrest⟩ := ih h
    refine ⟨fun s hs => hlater (hkept hs), List.forall_mem_cons.2 ⟨⟨⟨acc, mid, hpart⟩, ?_⟩, hrest⟩⟩
    intro a ha
    obtain ⟨hpresent, hcontent, hdangerous⟩ := hraised a ha
    exact ⟨hlater hpresent, hlater hcontent, fun h => hlater (hdangerous h)⟩

/-- What an accepted message tells of its leaf parts. -/
structure LeafFacts (lib : Library) (message : EmailMessage) (parsed : ParsedMessage) : Prop where
  attachments : parsed.attachments = message.root.walk.filterMap (attachmentIn lib)
  text : parsed.text = tidyLines
    (visibleControls lib (joinText (message.root.walk.filterMap (textIn lib))).1).1
  inventoried : ∀ headers payload, .leaf headers payload ∈ message.root.walk →
    ((attachmentIn lib (.leaf headers payload)).isSome ↔ IsAttachment headers)
  joined : ∀ headers payload, .leaf headers payload ∈ message.root.walk →
    ((textIn lib (.leaf headers payload)).isSome ↔ ¬IsAttachment headers ∧ IsText headers)
  signals : ∀ part ∈ message.root.walk, ∀ a, attachmentIn lib part = some a →
    py "attachment_present" ∈ parsed.signals ∧
      py "attachment_content_not_inspected" ∈ parsed.signals ∧
      (a.dangerous = true → py "dangerous_attachment" ∈ parsed.signals)

lemma parseMessage_leafFacts (hmessage : lib.parsebytes raw = .ok message)
    (h : parseMessage lib resolver raw trusted = .ok parsed) : LeafFacts lib message parsed := by
  obtain ⟨message', headers, dkim, acc, hmessage', -, -, hcollect, rfl⟩ := parseMessage_eq_ok h
  rw [hmessage] at hmessage'
  cases hmessage'
  obtain ⟨hatts, htexts, -⟩ := collectParts_eq_ok hcollect
  obtain ⟨-, hparts⟩ := collectParts_raises hcollect
  have hsignals : ∀ s ∈ acc.signals, s ∈ (assembleMessage lib message.hasDefects headers
      { schemaVersion := 1
        providerClaims := parseAuthenticationResults lib headers.authenticationResults trusted
        independentDkim := dkim } acc).signals := by
    intro s hs
    simp only [assembleMessage, List.mem_append]
    exact .inl (.inl (.inl (.inl (.inr hs))))
  constructor
  · exact hatts
  · rw [show message.root.walk.filterMap (textIn lib) = acc.textParts from htexts.symm]
    rfl
  · intro headers' payload hmem
    obtain ⟨mid, mid', hmid⟩ := (hparts _ hmem).1
    exact (collectPart_leaf hmid).1
  · intro headers' payload hmem
    obtain ⟨mid, mid', hmid⟩ := (hparts _ hmem).1
    exact (collectPart_leaf hmid).2
  · intro part hmem a ha
    obtain ⟨hpresent, hcontent, hdangerous⟩ := (hparts _ hmem).2 a ha
    exact ⟨hsignals _ hpresent, hsignals _ hcontent, fun h => hsignals _ (hdangerous h)⟩

/-! ## Every part is accounted for -/

/-- Every leaf part is either inventoried or its text is joined, inventoried parts give their
signals, and a part of a dangerous type makes the message one of high risk. -/
structure Inventoried (lib : Library) (message : EmailMessage) (parsed : ParsedMessage) : Prop where
  attachments : parsed.attachments = message.root.walk.filterMap (attachmentIn lib)
  text : parsed.text = tidyLines
    (visibleControls lib (joinText (message.root.walk.filterMap (textIn lib))).1).1
  once : ∀ headers payload, .leaf headers payload ∈ message.root.walk →
    Xor ((attachmentIn lib (.leaf headers payload)).isSome = true)
      ((textIn lib (.leaf headers payload)).isSome = true)
  signalled : parsed.attachments ≠ [] → py "attachment_present" ∈ parsed.signals ∧
    py "attachment_content_not_inspected" ∈ parsed.signals
  dangerous : ∀ headers payload contentType, .leaf headers payload ∈ message.root.walk →
    headers.contentType = .ok contentType →
    lib.unicode.lower contentType ∈ dangerousContentTypes →
    py "dangerous_attachment" ∈ parsed.signals ∧ (assess parsed).1 = .high

/-- The signal of a dangerous attachment makes the risk high. -/
lemma assess_dangerous (h : py "dangerous_attachment" ∈ parsed.signals) :
    (assess parsed).1 = .high :=
  (assess_high (by decide) h).1

/-- The inventory of an accepted message is complete exactly if every leaf part is an attachment
or text. -/
theorem inventoried_iff
    (hlower : ∀ t ∈ [py "text/plain", py "text/html"], lib.unicode.lower t = t)
    (hmessage : lib.parsebytes raw = .ok message)
    (h : parseMessage lib resolver raw trusted = .ok parsed) :
    Inventoried lib message parsed ↔ ∀ headers payload,
      .leaf headers payload ∈ message.root.walk → IsAttachment headers ∨ IsText headers := by
  have facts := parseMessage_leafFacts hmessage h
  constructor
  · intro hall headers payload hmem
    rcases hall.once headers payload hmem with ⟨hin, -⟩ | ⟨hin, -⟩
    · exact .inl ((facts.inventoried _ _ hmem).1 hin)
    · exact .inr ((facts.joined _ _ hmem).1 hin).2
  · intro hall
    constructor
    · exact facts.attachments
    · exact facts.text
    · intro headers payload hmem
      rw [facts.inventoried _ _ hmem, facts.joined _ _ hmem]
      have hor := hall _ _ hmem
      by_cases hatt : IsAttachment headers
      · exact .inl ⟨hatt, fun hboth => hboth.1 hatt⟩
      · exact .inr ⟨⟨hatt, hor.resolve_left hatt⟩, hatt⟩
    · intro hne
      obtain ⟨a, ha⟩ := List.exists_mem_of_ne_nil _ hne
      rw [facts.attachments] at ha
      obtain ⟨part, hpart, hin⟩ := List.mem_filterMap.1 ha
      obtain ⟨hpresent, hcontent, -⟩ := facts.signals part hpart a hin
      exact ⟨hpresent, hcontent⟩
    · intro headers payload contentType hmem htype hdangerous
      -- text is not dangerous, and so the part is an attachment
      have hnot : ¬IsText headers := by
        have hplain : ∀ t ∈ [py "text/plain", py "text/html"], t ∉ dangerousContentTypes := by
          decide
        have hsame : ∀ t ∈ [py "text/plain", py "text/html"], contentType ≠ t := by
          rintro t ht rfl
          exact hplain _ ht (hlower _ ht ▸ hdangerous)
        rintro (htext | htext)
        · rw [htype] at htext
          exact hsame _ (by simp) (Except.ok.inj htext)
        · rw [htype] at htext
          exact hsame _ (by simp) (Except.ok.inj htext)
      have hatt := (hall _ _ hmem).resolve_right hnot
      obtain ⟨a, ha⟩ := Option.isSome_iff_exists.1 ((facts.inventoried _ _ hmem).2 hatt)
      obtain ⟨headers', body, filename, contentType', heq, -, -, htype', rfl⟩ :=
        mem_attachmentIn ha
      cases heq
      rw [htype] at htype'
      cases htype'
      have hsignal := (facts.signals _ hmem _ ha).2.2 (by simp [attachmentOf, hdangerous])
      exact ⟨hsignal, assess_dangerous hsignal⟩

/-! ## Shortened names -/

/-- The part is inventoried as dangerous. -/
def Flagged (lib : Library) (parsed : ParsedMessage) (part : MimePart) : Prop :=
  ∃ a ∈ parsed.attachments, attachmentIn lib part = some a ∧ a.dangerous = true

/-- An attachment whose name ends dangerously is flagged, whether the name is taken from the
header and stripped or as it is before it is shortened. -/
structure FlagsDangerousNames (lib : Library) (message : EmailMessage) (parsed : ParsedMessage) :
    Prop where
  stripped : ∀ headers payload filename, .leaf headers payload ∈ message.root.walk →
    IsAttachment headers → headers.filename = .ok filename →
    HasDangerousEnding lib (strip (filename.getD [])) →
    Flagged lib parsed (.leaf headers payload)
  shortened : ∀ headers payload filename, .leaf headers payload ∈ message.root.walk →
    IsAttachment headers → headers.filename = .ok filename →
    HasDangerousEnding lib (normalisedName filename) → Flagged lib parsed (.leaf headers payload)

/-- When a part of an accepted message is inventoried as dangerous. -/
lemma flagged_iff (hlower : KeepsUncased lib.unicode.lower)
    (facts : LeafFacts lib message parsed) {headers : PartHeaders}
    {payload : Except MailExn (Option Bytes)} {filename : Option PyStr}
    (hmem : .leaf headers payload ∈ message.root.walk) (hatt : IsAttachment headers)
    (hfile : headers.filename = .ok filename) :
    ∃ contentType, headers.contentType = .ok contentType ∧
      (Flagged lib parsed (.leaf headers payload) ↔
        HasDangerousEnding lib ((normalisedName filename).take 255) ∨
          lib.unicode.lower contentType ∈ dangerousContentTypes) := by
  obtain ⟨a, ha⟩ := Option.isSome_iff_exists.1 ((facts.inventoried _ _ hmem).2 hatt)
  obtain ⟨headers', body, filename', contentType, heq, -, hfile', htype, rfl⟩ :=
    mem_attachmentIn ha
  cases heq
  rw [hfile] at hfile'
  cases hfile'
  refine ⟨contentType, htype, ?_⟩
  rw [← safeHeader_eq_take, ← filenameSuffix_dangerous hlower]
  constructor
  · rintro ⟨b, -, hb, hdangerous⟩
    rw [ha] at hb
    cases hb
    exact of_decide_eq_true hdangerous
  · intro hcond
    refine ⟨_, ?_, ha, decide_eq_true hcond⟩
    rw [facts.attachments]
    exact List.mem_filterMap.2 ⟨_, hmem, ha⟩

/-- Attachments with dangerous names are flagged exactly if none of them has a name of more than
255 characters whose beginning is harmless and a harmless type. -/
theorem flagsDangerousNames_iff (hlower : KeepsUncased lib.unicode.lower)
    (hmessage : lib.parsebytes raw = .ok message)
    (h : parseMessage lib resolver raw trusted = .ok parsed) :
    FlagsDangerousNames lib message parsed ↔
      ∀ headers payload filename contentType, .leaf headers payload ∈ message.root.walk →
        IsAttachment headers → headers.filename = .ok filename →
        headers.contentType = .ok contentType →
        HasDangerousEnding lib (normalisedName filename) →
        (normalisedName filename).length ≤ 255 ∨
          HasDangerousEnding lib ((normalisedName filename).take 255) ∨
          lib.unicode.lower contentType ∈ dangerousContentTypes := by
  have facts := parseMessage_leafFacts hmessage h
  constructor
  · intro hall headers payload filename contentType hmem hatt hfile htype hend
    obtain ⟨contentType', htype', hiff⟩ := flagged_iff hlower facts hmem hatt hfile
    rw [htype] at htype'
    cases htype'
    exact .inr (hiff.1 (hall.shortened _ _ _ hmem hatt hfile hend))
  · intro hall
    have hshort : ∀ headers payload filename, .leaf headers payload ∈ message.root.walk →
        IsAttachment headers → headers.filename = .ok filename →
        HasDangerousEnding lib (normalisedName filename) →
        Flagged lib parsed (.leaf headers payload) := by
      intro headers payload filename hmem hatt hfile hend
      obtain ⟨contentType, htype, hiff⟩ := flagged_iff hlower facts hmem hatt hfile
      rw [hiff]
      rcases hall _ _ _ _ hmem hatt hfile htype hend with hlen | hcond
      · rw [List.take_of_length_le hlen]
        exact .inl hend
      · exact hcond
    constructor
    · intro headers payload filename hmem hatt hfile hend
      exact hshort _ _ _ hmem hatt hfile (hend.normalised hlower)
    · exact hshort

/-! ## Messages of one part -/

/-- A message without headers whose only part has these headers and is empty. -/
def partMessage (headers : PartHeaders) : EmailMessage :=
  { blankMessage with root := .leaf headers (.ok (some [])) }

/-- A library that reads this message, with ASCII letters only. -/
def partLibrary (headers : PartHeaders) : Library := sampleLibrary (partMessage headers) [] []

lemma mem_walk_partMessage {headers headers' : PartHeaders}
    {payload : Except MailExn (Option Bytes)} :
    MimePart.leaf headers' payload ∈ (partMessage headers).root.walk ↔
      headers' = headers ∧ payload = .ok (some []) := by
  show MimePart.leaf headers' payload ∈ [MimePart.leaf headers (.ok (some []))] ↔ _
  rw [List.mem_singleton, MimePart.leaf.injEq]

lemma sampleUnicode_keepsUncased : KeepsUncased sampleUnicode.lower := by
  have hstop : lowerAsciiChar (ofChar '.') = ofChar '.' := by decide
  constructor
  · intro s c hc huncased
    have hsame : lowerAsciiChar c = c := by
      rw [lowerAsciiChar, dif_neg]
      rcases huncased with rfl | rfl | hspace
      · decide
      · decide
      · simp only [isSpace, Bool.or_eq_true, Bool.and_eq_true, decide_eq_true_eq, beq_iff_eq]
          at hspace
        omega
    exact List.mem_map.2 ⟨c, hc, hsame⟩
  · intro s
    show lowerAsciiChar _ :: _ = _
    rw [hstop]
    rfl
  · intro s t h
    cases s with
    | nil => cases h
    | cons c s =>
      obtain ⟨hc, -⟩ := List.cons.inj (show lowerAsciiChar c :: _ = _ from h)
      have hval : (ofChar '.').val = 0x2E := by decide
      rw [lowerAsciiChar] at hc
      split at hc
      · have hlow := congrArg Fin.val hc
        rw [hval] at hlow
        simp only at hlow
        omega
      · rw [hc]
        rfl

/-- A part without a name that is shown in place. -/
def inlinePart (contentType : PyStr) : PartHeaders where
  contentDisposition := .ok none
  filename := .ok none
  contentType := .ok contentType
  contentCharset := .ok none

/-- An attachment with this name. -/
def namedPart (name : PyStr) : PartHeaders :=
  { inlinePart (py "application/octet-stream") with
    contentDisposition := .ok (some (py "attachment"))
    filename := .ok (some name) }

/-- The headers of a container. -/
def containerPart (contentType : PyStr) : PartHeaders :=
  { inlinePart contentType with hasBoundary := true }

lemma mixed_canContain : (containerPart (py "multipart/mixed")).canContain = true := rfl

lemma alternative_canContain :
    (containerPart (py "multipart/alternative")).canContain = true := rfl

/-- A program that is an attachment by its disposition. -/
def programPart : PartHeaders :=
  { inlinePart (py "application/x-msdownload") with
    contentDisposition := .ok (some (py "attachment")) }

/-- A message of a plain and an HTML text, a document and a program. -/
def treeMessage : EmailMessage :=
  { blankMessage with
    root := .multipart (containerPart (py "multipart/mixed"))
      [.multipart (containerPart (py "multipart/alternative"))
          [.leaf (inlinePart (py "text/plain")) (.ok (some (bytes "text"))),
            .leaf (inlinePart (py "text/html")) (.ok (some (bytes "text")))]
          alternative_canContain,
        .leaf (namedPart (py "notes.pdf")) (.ok (some (bytes "notes"))),
        .leaf programPart (.ok (some (bytes "MZ")))] mixed_canContain }

/-- A library that reads it. -/
def treeLibrary : Library := sampleLibrary treeMessage [] (py "text")

/-- A message of texts and attachments is inventoried completely. -/
theorem inventoried_iff_tree : ∃ parsed,
    parseMessage treeLibrary silentResolver [] [] = .ok parsed ∧
      Inventoried treeLibrary treeMessage parsed := by
  obtain ⟨parsed, hparsed⟩ := exists_of_isOk (show (parseMessage treeLibrary silentResolver [] []
    ).isOk = true by decide +kernel)
  refine ⟨parsed, hparsed, (inventoried_iff (by decide) rfl hparsed).2 ?_⟩
  intro headers payload hmem
  simp only [treeMessage, MimePart.walk, MimePart.walkAll, List.mem_append, List.mem_cons,
    List.not_mem_nil, or_false, MimePart.leaf.injEq, reduceCtorEq, false_or] at hmem
  rcases hmem with (⟨rfl, -⟩ | ⟨rfl, -⟩) | ⟨rfl, -⟩ | ⟨rfl, -⟩
  · exact .inr (.inl rfl)
  · exact .inr (.inr rfl)
  · exact .inl (.inl rfl)
  · exact .inl (.inl rfl)

/-- A program that is neither named nor an attachment by its disposition is in neither list. -/
theorem unnamed_program_lost : ∃ parsed,
    parseMessage (partLibrary (inlinePart (py "application/x-msdownload"))) silentResolver [] [] =
        .ok parsed ∧
      ¬Inventoried (partLibrary (inlinePart (py "application/x-msdownload")))
        (partMessage (inlinePart (py "application/x-msdownload"))) parsed := by
  obtain ⟨parsed, hparsed⟩ := exists_of_isOk (show (parseMessage
    (partLibrary (inlinePart (py "application/x-msdownload"))) silentResolver [] []).isOk = true by
      decide +kernel)
  refine ⟨parsed, hparsed, fun hall => ?_⟩
  rcases hall.once _ _ (mem_walk_partMessage.2 ⟨rfl, rfl⟩) with ⟨hin, -⟩ | ⟨hin, -⟩
  · exact absurd hin (by decide +kernel)
  · exact absurd hin (by decide +kernel)

/-- A short name of a program is flagged. -/
theorem flagsDangerousNames_iff_short : ∃ parsed,
    parseMessage (partLibrary (namedPart (py "a.exe"))) silentResolver [] [] = .ok parsed ∧
      FlagsDangerousNames (partLibrary (namedPart (py "a.exe")))
        (partMessage (namedPart (py "a.exe")))
        parsed := by
  obtain ⟨parsed, hparsed⟩ := exists_of_isOk (show (parseMessage
    (partLibrary (namedPart (py "a.exe"))) silentResolver [] []).isOk = true by decide +kernel)
  refine ⟨parsed, hparsed, (flagsDangerousNames_iff sampleUnicode_keepsUncased rfl hparsed).2 ?_⟩
  intro headers payload filename contentType hmem _ hfile _ _
  obtain ⟨rfl, -⟩ := mem_walk_partMessage.1 hmem
  cases hfile
  exact .inl (by decide +kernel)

/-- A name of 256 characters that ends in `.exe`. -/
def longProgramName : PyStr := List.replicate 252 (ofChar 'a') ++ py ".exe"

/-- The end of a long name is cut off, and so the program is not flagged. -/
theorem long_program_harmless : ∃ parsed,
    parseMessage (partLibrary (namedPart longProgramName)) silentResolver [] [] = .ok parsed ∧
      ¬FlagsDangerousNames (partLibrary (namedPart longProgramName))
        (partMessage (namedPart longProgramName)) parsed := by
  obtain ⟨parsed, hparsed⟩ := exists_of_isOk (show (parseMessage
    (partLibrary (namedPart longProgramName)) silentResolver [] []).isOk = true by decide +kernel)
  refine ⟨parsed, hparsed, fun hall => ?_⟩
  have hstrip : strip longProgramName = longProgramName := by decide +kernel
  obtain ⟨a, -, ha, hdangerous⟩ := hall.stripped _ _ (some longProgramName)
    (mem_walk_partMessage.2 ⟨rfl, rfl⟩) (.inl rfl) rfl
    ⟨py ".exe", ⟨_, hstrip.symm⟩, by decide +kernel⟩
  have hharmless : (attachmentIn (partLibrary (namedPart longProgramName))
      (.leaf (namedPart longProgramName) (.ok (some [])))).map (·.dangerous) = some false := by
    decide +kernel
  rw [ha, Option.map_some, hdangerous] at hharmless
  exact absurd hharmless (by decide)

end MailGate
