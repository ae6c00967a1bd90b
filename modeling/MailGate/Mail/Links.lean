import MailGate.Mail.Content

/-!
# The links of a message

The loop over the links keeps the results of `_normalise_url` in the order of their first
occurrence and stops at the limit.  It signals too many links as soon as the limit is reached,
also where no further link follows.
-/

namespace MailGate

open PyStr

section

variable (lib : Library)

/-- The results of `_normalise_url` over the matches in a text, each at its first
occurrence. -/
def linkResults (text : PyStr) : List PyStr :=
  ((findUrls 0 text).filterMap (normaliseUrl lib)).eraseDups

variable {lib}

/-! ## Results -/

lemma normaliseUrl_ne_nil {value url : PyStr} (h : normaliseUrl lib value = some url) :
    url ≠ [] := by
  simp only [normaliseUrl, Option.bind_eq_bind, Option.bind_eq_some_iff] at h
  obtain ⟨parts, -, h⟩ := h
  split at h
  · cases h
  rename_i hparts
  push Not at hparts
  simp only [Option.bind_eq_some_iff, Option.pure_def, Option.some.injEq] at h
  obtain ⟨host, -, port, -, rfl⟩ := h
  have hscheme : parts.scheme ≠ [] := by
    intro hempty
    rw [hempty] at hparts
    exact absurd hparts.1 (by decide)
  intro hnil
  rw [List.take_eq_nil_iff] at hnil
  rcases hnil with hzero | hnil
  · exact absurd hzero (by decide)
  · rw [urlunsplit, List.append_eq_nil_iff, List.append_eq_nil_iff, List.append_eq_nil_iff] at hnil
    exact hscheme hnil.1.1.1

lemma addLink_of_none {urls : List PyStr} {found : PyStr} (h : normaliseUrl lib found = none) :
    addLink lib urls found = urls := by
  simp [addLink, h]

lemma addLink_of_some {urls : List PyStr} {found url : PyStr}
    (h : normaliseUrl lib found = some url) :
    addLink lib urls found = if url ∈ urls then urls else urls ++ [url] := by
  have hne := normaliseUrl_ne_nil h
  by_cases hmem : url ∈ urls
  · simp [addLink, h, hmem]
  · simp [addLink, h, hne, hmem]

/-! ## The loop -/

/-- The loop adds the results that it does not have yet until the limit is reached. -/
lemma collectLinks_eq {found urls : List PyStr} (hurls : urls.length < maxLinks) :
    collectLinks lib found urls =
      ((urls ++ ((found.filterMap (normaliseUrl lib)).filter (· ∉ urls)).eraseDups).take maxLinks,
        decide (maxLinks ≤
          (urls ++
            ((found.filterMap (normaliseUrl lib)).filter (· ∉ urls)).eraseDups).length)) := by
  induction found generalizing urls with
  | nil =>
    have htake : urls.take maxLinks = urls := List.take_of_length_le hurls.le
    simp [collectLinks, htake, hurls]
  | cons first rest ih =>
    rw [collectLinks]
    cases hfirst : normaliseUrl lib first with
    | none =>
      rw [addLink_of_none hfirst, if_neg (by omega), ih hurls, List.filterMap_cons_none hfirst]
    | some url =>
      rw [addLink_of_some hfirst, List.filterMap_cons_some hfirst]
      by_cases hmem : url ∈ urls
      · rw [if_pos hmem, if_neg (by omega), ih hurls, List.filter_cons_of_neg (by simpa using hmem)]
      · rw [if_neg hmem, List.filter_cons_of_pos (by simpa using hmem), List.eraseDups_cons]
        have hrest : ∀ results : List PyStr,
            ((results.filter (· ∉ urls)).filter fun b => !b == url) =
              results.filter (· ∉ urls ++ [url]) := by
          intro results
          rw [List.filter_filter]
          refine List.filter_congr ?_
          intro b _
          by_cases hb : b = url <;> simp [hb]
        have hmove : ∀ more : List PyStr, urls ++ url :: more = urls ++ [url] ++ more := by
          simp
        rw [hrest, hmove (List.eraseDups _)]
        by_cases hfull : (urls ++ [url]).length ≥ maxLinks
        · -- the limit is reached, and the rest of the matches is not looked at
          have hlen : (urls ++ [url]).length = maxLinks := by
            rw [List.length_append, List.length_singleton] at hfull ⊢
            omega
          rw [if_pos hfull, List.take_left' hlen, List.length_append, hlen]
          simp
        · rw [if_neg hfull, ih (by omega)]

/-- The links of a text, and whether they are said to be too many. -/
lemma collectLinks_findUrls (text : PyStr) :
    collectLinks lib (findUrls 0 text) [] =
      ((linkResults lib text).take maxLinks,
        decide (maxLinks ≤ (linkResults lib text).length)) := by
  have hall : ∀ results : List PyStr, results.filter (· ∉ ([] : List PyStr)) = results := by
    simp
  rw [collectLinks_eq (by decide), hall, List.nil_append]
  rfl

/-! ## The links of a message -/

/-- The links are the first `MAX_LINKS` results, and there are said to be too many exactly
where there are more results. -/
def LinksInventoried (lib : Library) (parsed : ParsedMessage) : Prop :=
  parsed.links = (linkResults lib parsed.text).take maxLinks ∧
    (py "too_many_links" ∈ parsed.signals ↔ maxLinks < (linkResults lib parsed.text).length)

variable {resolver : DnsTxtResolver} {raw : Bytes} {trusted : List PyStr} {parsed : ParsedMessage}

/-- The signal of an accepted message stands for at least `MAX_LINKS` results. -/
lemma parseMessage_links (h : parseMessage lib resolver raw trusted = .ok parsed) :
    parsed.links = (linkResults lib parsed.text).take maxLinks ∧
      (py "too_many_links" ∈ parsed.signals ↔ maxLinks ≤ (linkResults lib parsed.text).length) := by
  obtain ⟨message, headers, dkim, acc, -, -, -, hcollect, rfl⟩ := parseMessage_eq_ok h
  have hacc : py "too_many_links" ∉ acc.signals := by
    have hall := collectParts_signals (P := (· ≠ py "too_many_links")) (by decide) hcollect
      (by simp)
    exact fun hmem => hall _ hmem rfl
  refine ⟨by simp only [assembleMessage, collectLinks_findUrls], ?_⟩
  -- no other flag of the message has this name
  have hothers : ∀ word ∈ ["mime_defect", "unicode_controls_in_headers", "text_truncated",
      "unicode_controls", "prompt_injection_suspected"], py "too_many_links" ≠ py word := by decide
  simp only [List.forall_mem_cons] at hothers
  rw [mem_signals_iff rfl, collectLinks_findUrls]
  simp [hothers, hacc]

/-- The links of an accepted message are inventoried as they should be, unless there are exactly
`MAX_LINKS` distinct ones. -/
theorem linksInventoried_iff (h : parseMessage lib resolver raw trusted = .ok parsed) :
    LinksInventoried lib parsed ↔ (linkResults lib parsed.text).length ≠ maxLinks := by
  obtain ⟨hlinks, hsignal⟩ := parseMessage_links h
  rw [LinksInventoried, hsignal]
  constructor
  · rintro ⟨-, hexact⟩ hlen
    have hmore := hexact.1 hlen.ge
    omega
  · intro hlen
    refine ⟨hlinks, ?_⟩
    omega

end

/-! ## A message with a hundred links -/

/-- A library for one message with an ASCII text, in which host names are encoded as they
are. -/
def linkLibrary (text : PyStr) : Library :=
  { sampleLibrary blankMessage [] text with
    idna := fun s => some (s.map fun c => c.val.toUInt8 ||| 0x20)
    idna_nul := by
      intro s b hb _ x hx
      obtain rfl := Option.some.inj hb
      obtain ⟨c, -, rfl⟩ := List.mem_map.1 hx
      exact fun h => absurd (UInt8.or_eq_zero_iff.1 h).2 (by decide) }

/-- Links to this number of pages of one host. -/
def linkText (n : ℕ) : PyStr :=
  join (py " ") ((List.range n).map fun i => py "http://a/" ++ PyStr.ofNat i)

/-- The message with this text is accepted, and this number of links is found. -/
def acceptsLinks (text : PyStr) (n : ℕ) : Bool :=
  match parseMessage (linkLibrary text) silentResolver [] [] with
  | .ok parsed => decide ((linkResults (linkLibrary text) parsed.text).length = n)
  | .error _ => false

lemma acceptsLinks_spec {text : PyStr} {n : ℕ} (h : acceptsLinks text n = true) :
    ∃ parsed, parseMessage (linkLibrary text) silentResolver [] [] = .ok parsed ∧
      (linkResults (linkLibrary text) parsed.text).length = n := by
  unfold acceptsLinks at h
  split at h
  · rename_i parsed hparsed
    exact ⟨parsed, hparsed, by simpa using h⟩
  · cases h

/-- With two links nothing is wrong. -/
theorem linksInventoried_iff_two : ∃ parsed,
    parseMessage (linkLibrary (linkText 2)) silentResolver [] [] = .ok parsed ∧
      LinksInventoried (linkLibrary (linkText 2)) parsed := by
  obtain ⟨parsed, hparsed, hlen⟩ :=
    acceptsLinks_spec (show acceptsLinks (linkText 2) 2 = true by decide +kernel)
  refine ⟨parsed, hparsed, (linksInventoried_iff hparsed).2 ?_⟩
  rw [hlen]
  decide

/-- A hundred links are said to be too many, although none of them is left out. -/
theorem hundred_links_too_many : ∃ parsed,
    parseMessage (linkLibrary (linkText 100)) silentResolver [] [] = .ok parsed ∧
      ¬ LinksInventoried (linkLibrary (linkText 100)) parsed := by
  obtain ⟨parsed, hparsed, hlen⟩ :=
    acceptsLinks_spec (show acceptsLinks (linkText 100) 100 = true by decide +kernel)
  refine ⟨parsed, hparsed, ?_⟩
  rintro ⟨-, hexact⟩
  have hsignal := (parseMessage_links hparsed).2.2 hlen.ge
  have hmore := hexact.1 hsignal
  rw [hlen] at hmore
  exact absurd hmore (by decide)

end MailGate
