import MailGate.Mail.Content

/-!
# Which characters reach storage

The driver encodes texts as UTF-8 and the database holds no U+0000.  This file follows the
surrogates and the U+0000 of a message through the passes of `mail.py` and
`authentication.py`: making controls visible replaces U+0000 and keeps surrogates, trimming
and splitting keep surrogates, and links consist of characters of the text.
-/

namespace MailGate

open PyStr PyChar Exceptions

/-! ## Texts made of harmless characters -/

namespace PyStr

/-- No character of the text is a surrogate. -/
def NoSurrogate (s : PyStr) : Prop := ∀ c ∈ s, isSurrogate c = false

instance (s : PyStr) : Decidable (NoSurrogate s) := List.decidableBAll _ s

lemma TextOk.noSurrogate {s : PyStr} (h : TextOk s) : NoSurrogate s := fun c hc => (h c hc).1

lemma textOk_append {s t : PyStr} : TextOk (s ++ t) ↔ TextOk s ∧ TextOk t :=
  List.forall_mem_append

/-- A text made of characters of a harmless text is harmless. -/
lemma TextOk.of_subset {s t : PyStr} (h : TextOk t) (hsub : s ⊆ t) : TextOk s :=
  fun c hc => h c (hsub hc)

lemma TextOk.take {s : PyStr} (h : TextOk s) (n : ℕ) : TextOk (s.take n) :=
  h.of_subset (List.take_subset n s)

lemma TextOk.strip {s : PyStr} (h : TextOk s) : TextOk (strip s) :=
  h.of_subset fun _ => mem_of_mem_strip

/-- Printable ASCII is harmless. -/
lemma textOk_of_ascii {s : PyStr} (h : ∀ c ∈ s, 0x20 ≤ c.val ∧ c.val < 0x7F) : TextOk s := by
  intro c hc
  obtain ⟨hlow, hhigh⟩ := h c hc
  constructor
  · simp only [isSurrogate, Bool.and_eq_false_iff, decide_eq_false_iff_not]
    omega
  · rintro rfl
    exact absurd hlow (by decide)

end PyStr

/-! ## Headers and text -/

/-- A header that was made safe has no U+0000. -/
lemma safeHeader_ne_nul {value : Option PyStr} {limit : ℕ} {c : PyChar}
    (h : c ∈ safeHeader value limit) : c ≠ 0 := by
  rcases mem_join (List.take_subset _ _ h) with h | ⟨word, hword, h⟩
  · rintro rfl
    exact absurd h (by decide)
  · have hmem : c ∈ remove 0 (value.getD []) := mem_of_mem_splitWords hword h
    simpa using (List.mem_filter.1 hmem).2

lemma safeHeader_textOk_iff {value : Option PyStr} {limit : ℕ} :
    TextOk (safeHeader value limit) ↔ NoSurrogate (safeHeader value limit) :=
  ⟨TextOk.noSurrogate, fun h c hc => ⟨h c hc, safeHeader_ne_nul hc⟩⟩

section

variable (lib : Library)

/-- A surrogate has no name and a category of its own, so it stands for itself. -/
lemma visibleControl_of_surrogate {c : PyChar} (hc : isSurrogate c = true) :
    (visibleControl lib c).1 = [c] := by
  obtain ⟨hname, hcat⟩ := lib.unicode.surrogate c hc
  have hcontrol : ¬ (py "Cs" = py "Cf" ∨ controlNames.any (contains · []) = true) := by decide
  simp only [visibleControl, hname, hcat, if_neg hcontrol]
  rw [if_neg (show py "Cs" ≠ py "Cc" by decide)]
  split <;> rfl

/-- What stands for any other character is harmless. -/
lemma visibleControl_textOk {c : PyChar} (hc : isSurrogate c = false) :
    TextOk (visibleControl lib c).1 := by
  have hself : c ≠ 0 → TextOk [c] := by
    intro hne d hd
    rw [List.mem_singleton.1 hd]
    exact ⟨hc, hne⟩
  unfold visibleControl
  simp only
  split
  · rename_i hline
    refine hself ?_
    rintro rfl
    exact absurd hline (by decide)
  · split
    · -- the name of a character is printable
      refine textOk_append.2 ⟨textOk_append.2 ⟨by decide, ?_⟩, by decide⟩
      split
      · exact textOk_of_ascii (lib.unicode.name_ascii c)
      · decide
    · split
      · exact show TextOk (py " ") by decide
      · rename_i hcc
        refine hself ?_
        rintro rfl
        exact hcc lib.unicode.category_nul

lemma visibleControls_textOk {s : PyStr} (h : NoSurrogate s) :
    TextOk (visibleControls lib s).1 := by
  intro d hd
  obtain ⟨c, hc, hd⟩ := List.mem_flatMap.1 hd
  exact visibleControl_textOk lib (h c hc) d hd

/-- Making controls visible keeps every surrogate. -/
lemma noSurrogate_of_visibleControls {s : PyStr} (h : NoSurrogate (visibleControls lib s).1) :
    NoSurrogate s := by
  intro c hc
  by_contra hsur
  have hsur : isSurrogate c = true := by simpa using hsur
  have hmem : c ∈ (visibleControls lib s).1 :=
    List.mem_flatMap.2 ⟨c, hc, by rw [visibleControl_of_surrogate lib hsur]; simp⟩
  have hfalse := h c hmem
  rw [hsur] at hfalse
  cases hfalse

/-- Making controls visible leaves surrogates as the only harm. -/
lemma visibleControls_textOk_iff (s : PyStr) :
    TextOk (visibleControls lib s).1 ↔ NoSurrogate s :=
  ⟨fun h => noSurrogate_of_visibleControls lib h.noSurrogate, visibleControls_textOk lib⟩

end

/-- Tidying the lines of a text adds line feeds only. -/
lemma mem_of_mem_tidyLines {s : PyStr} {c : PyChar} (h : c ∈ tidyLines s) :
    c = ofChar '\n' ∨ c ∈ s := by
  rcases mem_join (mem_of_mem_strip h) with hnl | ⟨line, hline, hcl⟩
  · exact .inl (List.mem_singleton.1 hnl)
  · obtain ⟨l, hl, rfl⟩ := List.mem_map.1 hline
    have hcl' : c ∈ l := (List.rdropWhile_prefix _ _).subset hcl
    exact .inr (List.mem_of_mem_filter (mem_of_mem_splitlines hl hcl'))

lemma tidyLines_textOk {s : PyStr} (h : TextOk s) : TextOk (tidyLines s) := by
  intro c hc
  rcases mem_of_mem_tidyLines hc with rfl | hc
  · decide
  · exact h c hc

/-- Tidying the lines of a text drops white space and line breaks only. -/
lemma noSurrogate_of_tidyLines {s : PyStr} (h : NoSurrogate (tidyLines s)) : NoSurrogate s := by
  intro c hc
  by_contra hsur
  have hsur : isSurrogate c = true := by simpa using hsur
  have hne : c ≠ 0x0D := by
    rintro rfl
    exact absurd hsur (by decide)
  have hmem : c ∈ remove 0x0D s := List.mem_filter.2 ⟨hc, by simpa using hne⟩
  obtain ⟨l, hl, hcl⟩ := mem_splitlines (not_lineBreak_of_surrogate hsur) hmem
  have hspace := not_space_of_surrogate hsur
  have hline : c ∈ rstrip l := mem_rdropWhile hspace hcl
  have hjoin : c ∈ join (py "\n") ((splitlines (remove 0x0D s)).map rstrip) :=
    mem_join_of_mem (List.mem_map_of_mem hl) hline
  have hfalse := h c (mem_strip hspace hjoin)
  rw [hsur] at hfalse
  cases hfalse

/-- The stored text is harmless exactly if the text before had no surrogate. -/
lemma storedText_textOk_iff (lib : Library) (s : PyStr) :
    TextOk (tidyLines (visibleControls lib s).1) ↔ NoSurrogate s :=
  ⟨fun h => noSurrogate_of_visibleControls lib (noSurrogate_of_tidyLines h.noSurrogate),
    fun h => tidyLines_textOk (visibleControls_textOk lib h)⟩

lemma hashMessageId_textOk {lib : Library} {messageId hash : PyStr}
    (h : hashMessageId lib messageId = .ok hash) : TextOk hash := by
  unfold hashMessageId at h
  split at h
  · cases h
    decide
  · split at h
    · cases h
      exact (show TextOk (py "0123456789abcdef") by decide).of_subset (lib.sha256_hex _)
    · cases h

/-! ## Links -/

/-- Printable ASCII. -/
def isPrintable (c : PyChar) : Bool := 0x20 ≤ c.val && c.val < 0x7F

/-- A decimal number is printable. -/
lemma ofNat_printable (n : ℕ) : ∀ c ∈ PyStr.ofNat n, 0x20 ≤ c.val ∧ c.val < 0x7F := by
  intro c hc
  obtain ⟨d, hd, rfl⟩ := List.mem_map.1 hc
  have hd : d ∈ Nat.toDigits 10 n := by
    rw [← Nat.toList_repr]
    exact hd
  have hdigit : d.isDigit = true := Nat.isDigit_of_mem_toDigits (by decide) (by decide) hd
  simp only [Char.isDigit, Bool.and_eq_true, decide_eq_true_eq] at hdigit
  have hlow : (48 : ℕ) ≤ d.toNat := hdigit.1
  have hhigh : d.toNat ≤ 57 := hdigit.2
  change 0x20 ≤ d.toNat ∧ d.toNat < 0x7F
  omega

lemma before_subset (c : PyChar) (s : PyStr) : before c s ⊆ s :=
  (List.takeWhile_prefix _).subset

lemma after_subset (c : PyChar) (s : PyStr) : after c s ⊆ s :=
  fun _ h => (List.dropWhile_suffix _).subset (List.drop_subset _ _ h)

lemma afterLast_subset (c : PyChar) (s : PyStr) : afterLast c s ⊆ s := by
  intro d hd
  have hmem := (List.takeWhile_prefix _).subset (List.mem_reverse.1 hd)
  exact List.mem_reverse.1 hmem

lemma cutAt_subset (c : PyChar) (url : PyStr) : (cutAt c url).1 ⊆ url ∧ (cutAt c url).2 ⊆ url := by
  unfold cutAt
  split
  · exact ⟨before_subset c url, after_subset c url⟩
  · exact ⟨List.Subset.refl _, List.nil_subset _⟩

lemma splitScheme_subset (url : PyStr) : (splitScheme url).2 ⊆ url := by
  unfold splitScheme
  simp only
  split
  · exact after_subset _ url
  · exact List.Subset.refl _

lemma splitNetloc_subset (url : PyStr) :
    (splitNetloc url).1 ⊆ url ∧ (splitNetloc url).2 ⊆ url := by
  have hdrop : url.drop 2 ⊆ url := List.drop_subset 2 url
  unfold splitNetloc
  split
  · exact ⟨fun _ h => hdrop ((List.takeWhile_prefix _).subset h),
      fun _ h => hdrop ((List.dropWhile_suffix _).subset h)⟩
  · exact ⟨List.nil_subset _, List.Subset.refl _⟩

lemma hostinfo_subset (netloc : PyStr) : (hostinfo netloc).1 ⊆ netloc := by
  have hlast := afterLast_subset (ofChar '@') netloc
  unfold hostinfo
  simp only
  split
  · intro c hc
    exact hlast (after_subset _ _ (before_subset _ _ hc))
  · intro c hc
    exact hlast (before_subset _ _ hc)

section

variable {lib : Library}

/-- The parts of a URL consist of characters of the URL that are neither tabs nor line ends. -/
lemma urlsplit_subset {url : PyStr} {parts : SplitResult} (h : urlsplit lib url = some parts) :
    parts.netloc ⊆ url.filter (· ∉ py "\t\r\n") ∧ parts.path ⊆ url.filter (· ∉ py "\t\r\n") ∧
      parts.query ⊆ url.filter (· ∉ py "\t\r\n") := by
  unfold urlsplit at h
  simp only at h
  split at h
  · cases h
  split at h
  · cases h
  generalize hclean : (url.dropWhile (·.val ≤ 0x20)).filter (· ∉ py "\t\r\n") = clean at h
  have hsub : clean ⊆ url.filter (· ∉ py "\t\r\n") := by
    intro c hc
    rw [← hclean] at hc
    obtain ⟨hmem, hkept⟩ := List.mem_filter.1 hc
    exact List.mem_filter.2 ⟨(List.dropWhile_suffix _).subset hmem, hkept⟩
  have hscheme : (splitScheme clean).2 ⊆ url.filter (· ∉ py "\t\r\n") :=
    fun _ hc => hsub (splitScheme_subset clean hc)
  have hnetloc := splitNetloc_subset (splitScheme clean).2
  have hfragment := cutAt_subset (ofChar '#') (splitNetloc (splitScheme clean).2).2
  have hquery := cutAt_subset (ofChar '?')
    (cutAt (ofChar '#') (splitNetloc (splitScheme clean).2).2).1
  have hrest : (cutAt (ofChar '#') (splitNetloc (splitScheme clean).2).2).1 ⊆
      url.filter (· ∉ py "\t\r\n") := fun _ hc => hscheme (hnetloc.2 (hfragment.1 hc))
  cases h
  exact ⟨fun _ hc => hscheme (hnetloc.1 hc), fun _ hc => hrest (hquery.1 hc),
    fun _ hc => hrest (hquery.2 hc)⟩

/-- A property of characters that printable ASCII has, and that lower case and encoded host
names have where the text before has it. -/
structure KeptInLinks (lib : Library) (P : PyChar → Prop) : Prop where
  printable : ∀ c : PyChar, 0x20 ≤ c.val ∧ c.val < 0x7F → P c
  lower : ∀ s, (∀ c ∈ s, P c) → ∀ c ∈ lib.unicode.lower s, P c
  encodeHost : ∀ host encoded, (∀ c ∈ host, P c) → encodeHost lib host = some encoded →
    ∀ c ∈ encoded, P c

namespace KeptInLinks

variable {P : PyChar → Prop} (kept : KeptInLinks lib P)
include kept

lemma literal {w : PyStr} (h : w.all isPrintable = true) : ∀ c ∈ w, P c := by
  intro c hc
  have hprintable := List.all_eq_true.1 h c hc
  simp only [isPrintable, Bool.and_eq_true, decide_eq_true_eq] at hprintable
  exact kept.printable c hprintable

lemma hostname {parts : SplitResult} (h : ∀ c ∈ parts.netloc, P c) :
    ∀ c ∈ hostname lib parts, P c := by
  have hhost : ∀ c ∈ (hostinfo parts.netloc).1, P c := fun c hc => h c (hostinfo_subset _ hc)
  refine List.forall_mem_append.2 ⟨kept.lower _ ?_, ?_⟩
  · exact fun c hc => hhost c (before_subset _ _ hc)
  · exact fun c hc => hhost c ((List.dropWhile_suffix _).subset hc)

lemma urlunsplit {scheme netloc path query : PyStr} (hscheme : ∀ c ∈ scheme, P c)
    (hnetloc : ∀ c ∈ netloc, P c) (hpath : ∀ c ∈ path, P c) (hquery : ∀ c ∈ query, P c) :
    ∀ c ∈ urlunsplit scheme netloc path query, P c := by
  have hall : ((["//", "/", "?", ":", ""].map py).all (·.all isPrintable)) = true := by rfl
  have hmarks : ∀ w ∈ ["//", "/", "?", ":", ""].map py, ∀ c ∈ w, P c :=
    fun w hw => kept.literal (List.all_eq_true.1 hall w hw)
  refine List.forall_mem_append.2 ⟨List.forall_mem_append.2
    ⟨List.forall_mem_append.2 ⟨hscheme, hmarks (py ":") (by simp)⟩, ?_⟩, ?_⟩
  · split
    · refine List.forall_mem_append.2 ⟨List.forall_mem_append.2
        ⟨List.forall_mem_append.2 ⟨hmarks (py "//") (by simp), hnetloc⟩, ?_⟩, hpath⟩
      split
      · exact hmarks (py "/") (by simp)
      · exact hmarks (py "") (by simp)
    · split
      · exact List.forall_mem_append.2 ⟨hmarks (py "//") (by simp), hpath⟩
      · exact hpath
  · split
    · exact List.forall_mem_append.2 ⟨hmarks (py "?") (by simp), hquery⟩
    · exact hmarks (py "") (by simp)

/-- A link keeps the property when it is normalised, and loses its tabs and line ends. -/
lemma normaliseUrl {value url : PyStr} (hvalue : ∀ c ∈ value, c ∉ py "\t\r\n" → P c)
    (h : normaliseUrl lib value = some url) : ∀ c ∈ url, P c := by
  have hport : ∀ port : Option ℕ, ∀ c ∈ portText port, P c := by
    rintro (_ | _ | n)
    · simp [portText]
    · simp [portText]
    · exact List.forall_mem_append.2
        ⟨kept.literal (by rfl), fun c hc => kept.printable c (ofNat_printable _ c hc)⟩
  rw [MailGate.normaliseUrl] at h
  obtain ⟨parts, hparts, h⟩ := Option.bind_eq_some_iff.1 h
  obtain ⟨hnetloc, hpath, hquery⟩ := urlsplit_subset hparts
  have hcut : ∀ c ∈ (value.rdropWhile (· ∈ py ".,;:!?)")).filter (· ∉ py "\t\r\n"), P c := by
    intro c hc
    obtain ⟨hmem, hkept⟩ := List.mem_filter.1 hc
    exact hvalue c ((List.rdropWhile_prefix _ _).subset hmem) (of_decide_eq_true hkept)
  split at h
  · cases h
  rename_i hscheme
  obtain ⟨host, hhost, h⟩ := Option.bind_eq_some_iff.1 h
  obtain ⟨port, -, h⟩ := Option.bind_eq_some_iff.1 h
  cases h
  have hhost' := kept.encodeHost _ _ (kept.hostname fun c hc => hcut c (hnetloc hc)) hhost
  have hschemeKept : ∀ c ∈ parts.scheme, P c := by
    push Not at hscheme
    have hall : ([py "http", py "https"].all (·.all isPrintable)) = true := by rfl
    exact kept.literal (List.all_eq_true.1 hall _ hscheme.1)
  have hall := kept.urlunsplit hschemeKept (List.forall_mem_append.2 ⟨hhost', hport port⟩)
    (fun c hc => hcut c (hpath hc)) fun c hc => hcut c (hquery hc)
  exact fun c hc => hall c (List.take_subset _ _ hc)

lemma addLink {urls : List PyStr} {found : PyStr} (hurls : ∀ s ∈ urls, ∀ c ∈ s, P c)
    (hfound : ∀ c ∈ found, c ∉ py "\t\r\n" → P c) :
    ∀ s ∈ addLink lib urls found, ∀ c ∈ s, P c := by
  rw [MailGate.addLink]
  split
  · rename_i url hurl
    split
    · refine List.forall_mem_append.2 ⟨hurls, ?_⟩
      intro s hs
      rw [List.mem_singleton.1 hs]
      exact kept.normaliseUrl hfound hurl
    · exact hurls
  · exact hurls

/-- The collected links have the property if the matches have it. -/
lemma collectLinks {found urls : List PyStr}
    (hfound : ∀ s ∈ found, ∀ c ∈ s, c ∉ py "\t\r\n" → P c) (hurls : ∀ s ∈ urls, ∀ c ∈ s, P c) :
    ∀ s ∈ (collectLinks lib found urls).1, ∀ c ∈ s, P c := by
  induction found generalizing urls with
  | nil => exact hurls
  | cons value rest ih =>
    rw [List.forall_mem_cons] at hfound
    have hnext := kept.addLink hurls hfound.1
    rw [MailGate.collectLinks]
    split
    · exact hnext
    · exact ih hfound.2 hnext

end KeptInLinks

lemma matchUrl_subset {s url : PyStr} (h : matchUrl s = some url) : url ⊆ s := by
  unfold matchUrl at h
  simp only at h
  split at h
  · split at h
    · split at h
      · cases h
      · cases h
        refine List.append_subset.2 ⟨List.take_subset _ _, ?_⟩
        intro c hc
        exact List.drop_subset _ _ ((List.takeWhile_prefix _).subset hc)
    · cases h
  · cases h

lemma findUrls_subset {s url : PyStr} {skip : ℕ} (h : url ∈ findUrls skip s) : url ⊆ s := by
  induction s generalizing skip with
  | nil => cases h
  | cons c cs ih =>
    cases skip with
    | succ skip => exact List.subset_cons_of_subset _ (ih h)
    | zero =>
      rw [findUrls] at h
      split at h
      · rename_i found hfound
        rcases List.mem_cons.1 h with rfl | h
        · exact matchUrl_subset hfound
        · exact List.subset_cons_of_subset _ (ih h)
      · exact List.subset_cons_of_subset _ (ih h)

/-- The encoded host is ASCII without U+0000. -/
lemma encodeHost_textOk {host encoded : PyStr} (hhost : TextOk host)
    (h : encodeHost lib host = some encoded) : TextOk encoded := by
  unfold encodeHost at h
  split at h
  · cases h
  · rename_i b hb
    split at h
    · rename_i hascii
      cases h
      have hnul := lib.idna_nul host b hb fun c hc => (hhost c hc).2
      have hbyte : ∀ n : Fin 128, n.val ≠ 0 →
          (ofChar (Char.ofNat (Bytes.lower n.val.toUInt8).toNat)).isSurrogate = false ∧
            ofChar (Char.ofNat (Bytes.lower n.val.toUInt8).toNat) ≠ 0 := by decide +kernel
      intro c hc
      obtain ⟨x, hx, rfl⟩ := List.mem_map.1 hc
      have hlt : x < 0x80 := by simpa using List.all_eq_true.1 hascii x hx
      have hlt : x.toNat < 128 := UInt8.lt_iff_toNat_lt.1 hlt
      have hne : x.toNat ≠ 0 := by
        intro h0
        exact hnul x hx (UInt8.toNat_inj.1 h0)
      have hchar := hbyte ⟨x.toNat, hlt⟩ hne
      simpa using hchar
    · cases h

/-- Links made of harmless characters stay harmless. -/
lemma textOk_keptInLinks : KeptInLinks lib fun c => isSurrogate c = false ∧ c ≠ 0 where
  printable c hc := textOk_of_ascii (s := [c]) (by simpa using hc) c (by simp)
  lower := lib.unicode.lower_textOk
  encodeHost _ _ hhost h := encodeHost_textOk hhost h

end

end MailGate
