import MailGate.Mail.UrlHost

/-!
# Canonical links

What `_normalise_url` returns is short, starts with the scheme of the web, and names neither a user
nor a fragment.  Normalising it again gives the same text, unless the cuts have left punctuation at
its end or the host is one that is not encoded as itself.
-/

namespace MailGate

open PyStr

section

variable {lib : Library} {value url : PyStr} {parts : SplitResult}

/-! ## A normalised link -/

/-- The parts of a normalised link: the host is encoded, and the rest is a path and a query. -/
structure LinkParts (scheme host : PyStr) (number : Option ℕ) (rest : PyStr) : Prop where
  scheme : IsWebScheme scheme
  host_ne : host ≠ []
  host_ascii : ∀ c ∈ host, c.val < 0x80 ∧ ¬(0x41 ≤ c.val ∧ c.val ≤ 0x5A)
  host_plain : ∀ c ∈ host, c ∉ py "/?#@:\t\r\n"
  number_le : ∀ n ∈ number, n ≤ 65535
  rest_ends : EndsNetloc rest
  rest_plain : ∀ c ∈ rest, c ∉ py "#\t\r\n"

/-- The link with these parts. -/
def writeLink (scheme host : PyStr) (number : Option ℕ) (rest : PyStr) : PyStr :=
  scheme ++ py "://" ++ (host ++ portText number ++ rest)

/-- What `_normalise_url` returns is such a link, cut to 2048 characters. -/
lemma normaliseUrl_link (hcodec : HostCodec lib) (hopen : ∀ c ∈ value, c ≠ ofChar '[')
    (h : normaliseUrl lib value = some url) :
    ∃ scheme host number rest, LinkParts scheme host number rest ∧
      url = (writeLink scheme host number rest).take 2048 := by
  obtain ⟨parts, host, number, hparts, hscheme, hne, hhost, hnumber, rfl⟩ := normaliseUrl_spec h
  have hsep := urlsplit_separated hparts
  obtain ⟨hnetloc, hpath, hquery⟩ := urlsplit_subset hparts
  have hkept : ∀ c ∈ (value.rdropWhile (· ∈ py ".,;:!?)")).filter (· ∉ py "\t\r\n"),
      c ∈ value ∧ c ∉ py "\t\r\n" := by
    intro c hc
    obtain ⟨hmem, hblank⟩ := List.mem_filter.1 hc
    exact ⟨(List.rdropWhile_prefix _ _).subset hmem, of_decide_eq_true hblank⟩
  have hbracket : ofChar '[' ∉ parts.netloc := fun hc => hopen _ (hkept _ (hnetloc hc)).1 rfl
  have hplain := encodedHost_plain hcodec hsep hbracket (fun c hc => (hkept c (hnetloc hc)).2) hhost
  obtain ⟨b, hb, hlength, hascii⟩ := encodeHost_spec hhost
  have hhostNe : host ≠ [] := by
    rintro rfl
    exact hcodec.idna_ne_nil _ _ hb hne (List.length_eq_zero_iff.1 hlength.symm)
  have hnetlocNe : parts.netloc ≠ [] := by
    intro hnil
    apply hne
    have hlower : lib.unicode.lower [] = [] := hcodec.lower_ascii [] (by simp)
    rw [hostname, hnil]
    exact (congrArg (· ++ []) hlower).trans rfl
  -- the path is empty or absolute, so that no slash is added
  have habsolute : ¬(parts.path ≠ [] ∧ parts.path.head? ≠ some (ofChar '/')) := by
    rintro ⟨hne, hhead⟩
    obtain ⟨c, cs, hcons⟩ := List.exists_cons_of_ne_nil hne
    rw [hcons] at hhead
    exact hhead (congrArg some (hsep.path hnetlocNe c (by rw [hcons]; rfl)))
  refine ⟨parts.scheme, host, number,
    parts.path ++ (if parts.query ≠ [] then py "?" ++ parts.query else []), ?_, ?_⟩
  · refine ⟨hscheme, hhostNe, fun c hc => ⟨(hascii c hc).1, (hascii c hc).2.1⟩, hplain, ?_, ?_, ?_⟩
    · rintro n hn
      obtain rfl := hn
      exact port_eq_some hnumber
    · intro c hc
      cases hpathEq : parts.path with
      | cons d ds =>
        rw [hpathEq] at hc
        obtain rfl := Option.some.inj hc
        exact .inl (hsep.path hnetlocNe _ (by rw [hpathEq]; rfl))
      | nil =>
        rw [hpathEq, List.nil_append] at hc
        split at hc
        · exact .inr (Option.some.inj hc).symm
        · cases hc
    · have hblank : ∀ c, c ≠ ofChar '#' → c ∉ py "\t\r\n" → c ∉ py "#\t\r\n" := by
        intro c hhash hblank hc
        rcases List.mem_cons.1 hc with rfl | hc
        · exact hhash rfl
        · exact hblank hc
      refine List.forall_mem_append.2 ⟨fun c hc => ?_, fun c hc => ?_⟩
      · exact hblank c (fun heq => hsep.path_hash (heq ▸ hc)) (hkept c (hpath hc)).2
      · split at hc
        · rcases List.mem_append.1 hc with hmark | hc
          · obtain rfl := List.mem_singleton.1 hmark
            decide
          · exact hblank c (fun heq => hsep.query_hash (heq ▸ hc)) (hkept c (hquery hc)).2
        · exact absurd hc List.not_mem_nil
  · have hnetlocNe' : host ++ portText number ≠ [] := fun hnil =>
      hhostNe (List.append_eq_nil_iff.1 hnil).1
    rw [urlunsplit, if_pos hnetlocNe', if_neg habsolute, List.append_nil, writeLink]
    congr 1
    simp only [List.append_assoc]
    rfl

/-- The network location of a link, cut after any number of characters. -/
lemma LinkParts.netloc_plain {scheme host rest : PyStr} {number : Option ℕ}
    (hlink : LinkParts scheme host number rest) :
    ∀ c ∈ host ++ portText number, c.val < 0x80 ∧ c ∉ py "/?#@\t\r\n" := by
  refine List.forall_mem_append.2 ⟨fun c hc => ⟨(hlink.host_ascii c hc).1, fun hmem => ?_⟩, ?_⟩
  · have hsub : py "/?#@\t\r\n" ⊆ py "/?#@:\t\r\n" := by decide
    exact hlink.host_plain c hc (hsub hmem)
  · intro c hc
    rcases portText_chars number c hc with rfl | hdigit
    · exact ⟨by decide, by decide⟩
    · have hmarks : ((py "/?#@\t\r\n").all fun c => !PyChar.isDigit c) = true := by decide
      refine ⟨?_, fun hmem => ?_⟩
      · simp only [PyChar.isDigit, Bool.and_eq_true, decide_eq_true_eq] at hdigit
        omega
      · simpa [hdigit] using List.all_eq_true.1 hmarks c hmem

/-- The cut meets the rest, or the network location and then leaves no rest. -/
lemma take_writeLink {scheme : PyStr} (host rest : PyStr) (number : Option ℕ)
    (hscheme : IsWebScheme scheme) :
    ∃ j k, 0 < j ∧ (k ≠ 0 → (host ++ portText number).length ≤ j) ∧
      (writeLink scheme host number rest).take 2048 =
        scheme ++ py "://" ++ ((host ++ portText number).take j ++ rest.take k) := by
  have hlength : (scheme ++ py "://").length ≤ 8 := by
    rcases hscheme with rfl | rfl
    · decide
    · decide
  rw [writeLink]
  generalize scheme ++ py "://" = front at hlength ⊢
  refine ⟨2048 - front.length, 2048 - front.length - (host ++ portText number).length, by omega,
    by omega, ?_⟩
  rw [List.take_append, List.take_append, List.take_of_length_le (by omega)]

lemma netlocOf_web {scheme netloc rest : PyStr} (hscheme : IsWebScheme scheme)
    (hnetloc : ∀ c ∈ netloc, c ∉ py "/?#") (hrest : EndsNetloc rest) :
    netlocOf (scheme ++ py "://" ++ (netloc ++ rest)) = netloc := by
  rw [netlocOf, splitScheme_web hscheme, splitNetloc_web hnetloc hrest]

lemma EndsNetloc.take {rest : PyStr} (h : EndsNetloc rest) (k : ℕ) : EndsNetloc (rest.take k) := by
  intro c hc
  rw [List.head?_take] at hc
  split at hc
  · cases hc
  · exact h c hc

/-- A link that was cut names neither a user nor a fragment. -/
lemma LinkParts.cut_plain {scheme host rest : PyStr} {number : Option ℕ}
    (hlink : LinkParts scheme host number rest) :
    ofChar '@' ∉ netlocOf ((writeLink scheme host number rest).take 2048) ∧
      ofChar '#' ∉ (writeLink scheme host number rest).take 2048 := by
  obtain ⟨j, k, -, -, hcut⟩ := take_writeLink host rest number hlink.scheme
  have hplain : ∀ c ∈ (host ++ portText number).take j, c ∉ py "/?#@\t\r\n" :=
    fun c hc => (hlink.netloc_plain c (List.mem_of_mem_take hc)).2
  have hsub : py "/?#" ⊆ py "/?#@\t\r\n" := by decide
  rw [hcut]
  constructor
  · rw [netlocOf_web hlink.scheme (fun c hc h => hplain c hc (hsub h)) (hlink.rest_ends.take k)]
    exact fun h => hplain _ h (by decide)
  · intro h
    rcases List.mem_append.1 h with h | h
    · rcases hlink.scheme with rfl | rfl
      · exact absurd h (by decide)
      · exact absurd h (by decide)
    rcases List.mem_append.1 h with h | h
    · exact hplain _ h (by decide)
    · exact hlink.rest_plain _ (List.mem_of_mem_take h) (by decide)

/-- A link that was cut and does not end in punctuation is a link again: the cut has gone through
the rest, through the number of the port or through the host. -/
lemma LinkParts.cut {scheme host rest : PyStr} {number : Option ℕ}
    (hlink : LinkParts scheme host number rest)
    (hlast : ∀ c ∈ ((writeLink scheme host number rest).take 2048).getLast?,
      c ∉ py ".,;:!?)") :
    ∃ host' number' rest', LinkParts scheme host' number' rest' ∧
      (writeLink scheme host number rest).take 2048 = writeLink scheme host' number' rest' := by
  obtain ⟨j, k, hj, hk, hcut⟩ := take_writeLink host rest number hlink.scheme
  rw [hcut] at hlast ⊢
  by_cases hwhole : (host ++ portText number).length ≤ j
  · -- the network location is whole
    refine ⟨host, number, rest.take k, { hlink with rest_ends := hlink.rest_ends.take k
                                                    rest_plain := ?_ }, ?_⟩
    · exact fun c hc => hlink.rest_plain c (List.mem_of_mem_take hc)
    · rw [List.take_of_length_le hwhole, writeLink]
  obtain rfl : k = 0 := by
    by_contra hne
    exact hwhole (hk hne)
  rw [List.take_zero, List.append_nil] at hlast ⊢
  have hnone : EndsNetloc [] := fun c hc => by cases hc
  by_cases hhost : j ≤ host.length
  · -- the cut goes through the host
    have htake : (host ++ portText number).take j = host.take j :=
      List.take_append_of_le_length hhost
    refine ⟨host.take j, none, [], ⟨hlink.scheme, ?_, ?_, ?_, ?_, hnone, ?_⟩, ?_⟩
    · have := List.length_pos_iff.2 hlink.host_ne
      rw [← List.length_pos_iff, List.length_take]
      omega
    · exact fun c hc => hlink.host_ascii c (List.mem_of_mem_take hc)
    · exact fun c hc => hlink.host_plain c (List.mem_of_mem_take hc)
    · exact fun n hn => by cases hn
    · exact fun c hc => absurd hc List.not_mem_nil
    · have hnoPort : portText none = [] := rfl
      rw [htake, writeLink, hnoPort, List.append_nil, List.append_nil]
  · -- the cut goes through the port, and leaves a digit at least
    have htake : (host ++ portText number).take j =
        host ++ (portText number).take (j - host.length) := by
      rw [List.take_append, List.take_of_length_le (by omega)]
    rw [List.length_append] at hwhole
    rw [htake] at hlast ⊢
    obtain ⟨i, hi⟩ : ∃ i, j - host.length = i + 1 := ⟨j - host.length - 1, by omega⟩
    rw [hi] at hlast ⊢
    rcases number with _ | _ | n
    · simp only [portText, List.length_nil] at hwhole
      omega
    · simp only [portText, List.length_nil] at hwhole
      omega
    have hport : (portText (some (n + 1))).take (i + 1) =
        ofChar ':' :: (PyStr.ofNat (n + 1)).take i := rfl
    rw [hport] at hlast ⊢
    cases i with
    | zero =>
      exfalso
      refine hlast (ofChar ':') ?_ (by decide)
      rw [List.take_zero, ← List.append_assoc, List.getLast?_concat]
      rfl
    | succ i =>
      obtain ⟨m, hpos, hle, hm⟩ := take_toDigits (Nat.succ_pos n) i
      have hdigits : (PyStr.ofNat (n + 1)).take (i + 1) = PyStr.ofNat m := by
        rw [ofNat_eq_toDigits, ← List.map_take, hm, ofNat_eq_toDigits]
      obtain ⟨m, rfl⟩ : ∃ l, m = l + 1 := ⟨m - 1, by omega⟩
      refine ⟨host, some (m + 1), [],
        { hlink with number_le := ?_, rest_ends := hnone, rest_plain := ?_ }, ?_⟩
      · rintro l hl
        obtain rfl := Option.some.inj hl
        exact hle.trans (hlink.number_le _ rfl)
      · exact fun c hc => absurd hc List.not_mem_nil
      · rw [hdigits, writeLink, List.append_nil]
        rfl

/-! ## Normalising again -/

/-- The codec takes the host as it is, and it has no brackets. -/
structure KeepsHost (lib : Library) (host : PyStr) : Prop where
  encoded : encodeHost lib host = some host
  not_opened : ofChar '[' ∉ host
  not_closed : ofChar ']' ∉ host

lemma notMem_netloc {host : PyStr} {number : Option ℕ} {d : PyChar} (hhost : d ∉ host)
    (hcolon : d ≠ ofChar ':') (hdigit : PyChar.isDigit d = false) :
    d ∉ host ++ portText number := by
  intro h
  rcases List.mem_append.1 h with h | h
  · exact hhost h
  · rcases portText_chars number d h with heq | htrue
    · exact hcolon heq
    · rw [hdigit] at htrue
      cases htrue

/-- The port follows on the first colon. -/
lemma cut_portText {host : PyStr} (hcolon : ofChar ':' ∉ host) (number : Option ℕ) :
    before (ofChar ':') (host ++ portText number) = host ∧
      after (ofChar ':') (host ++ portText number) = (portText number).drop 1 := by
  have hnoPort : before (ofChar ':') (host ++ []) = host ∧
      after (ofChar ':') (host ++ []) = [] := by
    rw [List.append_nil]
    exact ⟨before_of_notMem hcolon, after_of_notMem hcolon⟩
  rcases number with _ | _ | n
  · exact hnoPort
  · exact hnoPort
  · exact ⟨before_append hcolon _, after_append hcolon _⟩

lemma LinkParts.colon {scheme host rest : PyStr} {number : Option ℕ}
    (hlink : LinkParts scheme host number rest) : ofChar ':' ∉ host :=
  fun h => hlink.host_plain _ h (by decide)

/-- The host and the port of a link. -/
lemma LinkParts.hostinfo {scheme host rest : PyStr} {number : Option ℕ}
    (hlink : LinkParts scheme host number rest) (hopen : ofChar '[' ∉ host) :
    hostinfo (host ++ portText number) = (host, (portText number).drop 1) := by
  have hat : ofChar '@' ∉ host ++ portText number :=
    fun h => (hlink.netloc_plain _ h).2 (by decide)
  have hbracket : ofChar '[' ∉ host ++ portText number :=
    notMem_netloc hopen (by decide) (by decide)
  obtain ⟨hbefore, hafter⟩ := cut_portText hlink.colon number
  rw [hostinfo_plain hbracket, afterLast_of_notMem hat, hbefore, hafter]

lemma LinkParts.hostOf_write {scheme host rest : PyStr} {number : Option ℕ}
    (hlink : LinkParts scheme host number rest) :
    hostOf (writeLink scheme host number rest) = host := by
  have hsub : py "/?#" ⊆ py "/?#@\t\r\n" := by decide
  rw [hostOf, writeLink, netlocOf_web hlink.scheme
    (fun c hc h => (hlink.netloc_plain c hc).2 (hsub h)) hlink.rest_ends]
  exact (cut_portText hlink.colon number).1

lemma hostname_of_lower (hlower : LowersAscii lib.unicode.lower) {host : PyStr}
    (hascii : ∀ c ∈ host, c.val < 0x80 ∧ ¬(0x41 ≤ c.val ∧ c.val ≤ 0x5A))
    (hhost : (MailGate.hostinfo parts.netloc).1 = host) : hostname lib parts = host := by
  have hfront : ∀ c ∈ before (ofChar '%') host, c.val < 0x80 ∧ ¬(0x41 ≤ c.val ∧ c.val ≤ 0x5A) :=
    fun c hc => hascii c (before_subset _ _ hc)
  rw [hostname, hhost, hlower _ fun c hc => (hfront c hc).1,
    map_lowerAsciiChar fun c hc => (hfront c hc).2]
  exact List.takeWhile_append_dropWhile

/-- A link whose host is kept is normalised to itself. -/
lemma LinkParts.normalise (hlower : LowersAscii lib.unicode.lower) {scheme host rest : PyStr}
    {number : Option ℕ} (hlink : LinkParts scheme host number rest) (hkeeps : KeepsHost lib host)
    (hlength : (writeLink scheme host number rest).length ≤ 2048)
    (hlast : ∀ c ∈ (writeLink scheme host number rest).getLast?, c ∉ py ".,;:!?)") :
    normaliseUrl lib (writeLink scheme host number rest) =
      some (writeLink scheme host number rest) := by
  have hstrip : (writeLink scheme host number rest).rdropWhile (· ∈ py ".,;:!?)") =
      writeLink scheme host number rest := by
    rw [List.rdropWhile_eq_self_iff]
    intro hne hmem
    exact hlast _ (List.getLast_mem_getLast? hne) (of_decide_eq_true hmem)
  have hnetlocNe : host ++ portText number ≠ [] := fun hnil =>
    hlink.host_ne (List.append_eq_nil_iff.1 hnil).1
  have hquestion : rest.getLast? ≠ some (ofChar '?') := by
    intro hmark
    refine hlast (ofChar '?') ?_ (by decide)
    rw [writeLink, ← List.append_assoc, List.getLast?_append, hmark]
    rfl
  -- the parser cuts the link where it was put together
  have hmarks : ∀ c ∈ host ++ portText number, c ∉ py "/?#[]" := by
    intro c hc hmem
    have hall : ((py "/?#[]").all fun c =>
        c ∈ py "/?#@\t\r\n" || c == ofChar '[' || c == ofChar ']') = true := by decide
    have hc' := List.all_eq_true.1 hall c hmem
    simp only [Bool.or_eq_true, decide_eq_true_eq, beq_iff_eq] at hc'
    rcases hc' with (hc' | rfl) | rfl
    · exact (hlink.netloc_plain c hc).2 hc'
    · exact notMem_netloc hkeeps.not_opened (by decide) (by decide) hc
    · exact notMem_netloc hkeeps.not_closed (by decide) (by decide) hc
  have hblank : ∀ c ∈ host ++ portText number ++ rest, c ∉ py "\t\r\n" := by
    have hsub : py "\t\r\n" ⊆ py "/?#@\t\r\n" := by decide
    refine List.forall_mem_append.2 ⟨fun c hc h => (hlink.netloc_plain c hc).2 (hsub h), ?_⟩
    exact fun c hc h => hlink.rest_plain c hc (List.mem_cons_of_mem _ h)
  have hhash : ofChar '#' ∉ rest := fun h => hlink.rest_plain _ h (by decide)
  have hinfo := hlink.hostinfo hkeeps.not_opened
  generalize hparts : SplitResult.mk scheme (host ++ portText number)
    (cutAt (ofChar '?') rest).1 (cutAt (ofChar '?') rest).2 [] = parts
  have hsplit := urlsplit_web lib hlink.scheme hmarks (fun c hc => (hlink.netloc_plain c hc).1)
    hlink.rest_ends hhash hblank
  rw [hparts] at hsplit
  have hnetloc : MailGate.hostinfo parts.netloc = (host, (portText number).drop 1) := by
    rw [← hparts]
    exact hinfo
  have hname : hostname lib parts = host :=
    hostname_of_lower hlower hlink.host_ascii (congrArg Prod.fst hnetloc)
  obtain ⟨number', hnumber, htext⟩ := port_portText hlink.number_le (congrArg Prod.snd hnetloc)
  -- and it is put together again from the same parts
  have hwritten := urlunsplit_web scheme hnetlocNe hlink.rest_ends hquestion
  rw [normaliseUrl_of_parts (hstrip.symm ▸ hsplit) (by rw [← hparts]; exact hlink.scheme)
    (by rw [hname]; exact hlink.host_ne) (by rw [hname]; exact hkeeps.encoded) hnumber, htext]
  congr 1
  rw [← hparts]
  refine (congrArg (List.take 2048) hwritten).trans ?_
  exact List.take_of_length_le hlength

end

/-- What `_normalise_url` returns for a match of the pattern has at most 2048 characters, starts
with the scheme of the web and names neither a user nor a fragment; and where it does not end in
punctuation and the codec takes its host as it is, it is its own normal form. -/
theorem normaliseUrl_canonical (lib : Library) (hcodec : HostCodec lib) (text value url : PyStr)
    (hmatch : value ∈ findUrls 0 text) (h : normaliseUrl lib value = some url) :
    url.length ≤ 2048 ∧ (py "http://" <+: url ∨ py "https://" <+: url) ∧
      ofChar '@' ∉ netlocOf url ∧ ofChar '#' ∉ url ∧
      ((∀ c ∈ url.getLast?, c ∉ py ".,;:!?)") → KeepsHost lib (hostOf url) →
        normaliseUrl lib url = some url) := by
  obtain ⟨scheme, host, number, rest, hlink, rfl⟩ :=
    normaliseUrl_link hcodec (findUrls_no_bracket hmatch) h
  have hlength : ((writeLink scheme host number rest).take 2048).length ≤ 2048 :=
    List.length_take_le _ _
  obtain ⟨huser, hfragment⟩ := hlink.cut_plain
  refine ⟨hlength, ?_, huser, hfragment, fun hlast hkeeps => ?_⟩
  · obtain ⟨j, k, -, -, hcut⟩ := take_writeLink host rest number hlink.scheme
    rw [hcut]
    rcases hlink.scheme with rfl | rfl
    · exact .inl ⟨_, rfl⟩
    · exact .inr ⟨_, rfl⟩
  · obtain ⟨host', number', rest', hlink', hcut⟩ := hlink.cut hlast
    rw [hcut] at hlast hkeeps hlength ⊢
    rw [hlink'.hostOf_write] at hkeeps
    exact hlink'.normalise hcodec.lower_ascii hkeeps hlength hlast

/-- An ellipsis is spelt out as three full stops, and a wide bracket as a plain one. -/
def spellOut (s : PyStr) : PyStr :=
  s.flatMap fun c =>
    if c.val = 0x2026 then py "..." else if c.val = 0xFF3B then py "[" else [c]

lemma mem_spellOut {s : PyStr} {c : PyChar} (h : c ∈ spellOut s) :
    c ∈ s ∨ c ∈ [ofChar '.', ofChar '['] := by
  have hall : ((py "...").all (· == ofChar '.')) = true ∧ py "[" = [ofChar '['] := by decide
  obtain ⟨d, hd, hc⟩ := List.mem_flatMap.1 h
  split at hc
  · have hdot : c = ofChar '.' := by simpa using List.all_eq_true.1 hall.1 c hc
    exact .inr (by simp [hdot])
  split at hc
  · rw [hall.2] at hc
    exact .inr (List.mem_cons_of_mem _ hc)
  · rw [List.mem_singleton.1 hc]
    exact .inl hd

/-- The codec of the sample: a host of ASCII is taken as it is, unless a label is empty; other
hosts are spelt out, and what they have become is not looked at again. -/
def sampleIdna (s : PyStr) : Option Bytes :=
  if s ≠ [] ∧ (s.all (·.val < 0x80) → [] ∉ s.splitOn (ofChar '.')) ∧
      (spellOut s).all (·.val < 0x80) then
    some ((spellOut s).map fun c => c.val.toUInt8)
  else none

lemma sampleIdna_spec {s : PyStr} {b : Bytes} (h : sampleIdna s = some b) :
    b.length = (spellOut s).length ∧ ∀ x ∈ b, ∃ c ∈ spellOut s, x.toNat = c.val := by
  rw [sampleIdna] at h
  split at h
  swap
  · cases h
  rename_i haccept
  obtain rfl := Option.some.inj h
  refine ⟨List.length_map _, fun x hx => ?_⟩
  obtain ⟨c, hc, rfl⟩ := List.mem_map.1 hx
  have hlt : c.val < 0x80 := by simpa using List.all_eq_true.1 haccept.2.2 c hc
  refine ⟨c, hc, ?_⟩
  rw [Nat.toUInt8_eq, UInt8.toNat_ofNat']
  omega

/-- A library with this codec. -/
def hostLibrary : Library :=
  { sampleLibrary blankMessage [] [] with
    idna := sampleIdna
    idna_nul := by
      intro s b hb hs x hx hzero
      obtain ⟨c, hc, hval⟩ := (sampleIdna_spec hb).2 x hx
      rw [hzero] at hval
      rcases mem_spellOut hc with hc | hc
      · exact hs c hc (Fin.ext hval.symm)
      · rcases List.mem_pair.1 hc with rfl | rfl
        · exact absurd hval (by decide)
        · exact absurd hval (by decide) }

lemma hostLibrary_codec : HostCodec hostLibrary where
  lower_ascii _ _ := rfl
  nfkc_ascii _ _ := rfl
  nfkc_blank d _ c h := (List.mem_singleton.1 h).symm
  nfkc_mem d _ s := by
    show d ∈ s ↔ ∃ c ∈ s, d ∈ [c]
    simp
  lower_mem := by
    intro d hd s c hc hmem
    obtain rfl := List.mem_singleton.1 hmem
    obtain ⟨c', hc', heq⟩ := List.mem_map.1 hc
    exact ⟨c', hc', List.mem_singleton.2 (lowerAsciiChar_eq (not_lower_of_delimiter hd) heq).symm⟩
  idna_mem := by
    intro d hd s b hb x hx hval
    obtain ⟨c, hc, hcx⟩ := (sampleIdna_spec hb).2 x hx
    obtain rfl : c = d := Fin.ext (hcx.symm.trans hval)
    rcases mem_spellOut hc with hc | hc
    · exact ⟨c, hc, List.mem_singleton_self c⟩
    · rcases List.mem_pair.1 hc with rfl | rfl
      · exact absurd hd (by decide)
      · exact absurd hd (by decide)
  idna_ne_nil := by
    intro s b hb hne hnil
    have hlength := (sampleIdna_spec hb).1
    obtain ⟨c, cs, rfl⟩ := List.exists_cons_of_ne_nil hne
    rw [hnil, spellOut, List.flatMap_cons, List.length_append] at hlength
    have hpos : 0 < (if c.val = 0x2026 then py "..."
        else if c.val = 0xFF3B then py "[" else [c]).length := by
      split
      · decide
      split
      · decide
      · exact Nat.one_pos
    rw [List.length_nil] at hlength
    omega

theorem normaliseUrl_canonical_sample :
    normaliseUrl hostLibrary (py "HTTP://A:080/x?y#z") = some (py "http://a:80/x?y") ∧
      normaliseUrl hostLibrary (py "http://a:80/x?y") = some (py "http://a:80/x?y") := by
  have hmatch : py "HTTP://A:080/x?y#z" ∈ findUrls 0 (py "HTTP://A:080/x?y#z") := by
    decide +kernel
  have hurl : normaliseUrl hostLibrary (py "HTTP://A:080/x?y#z") = some (py "http://a:80/x?y") := by
    decide +kernel
  obtain ⟨-, -, -, -, hagain⟩ :=
    normaliseUrl_canonical hostLibrary hostLibrary_codec _ _ _ hmatch hurl
  refine ⟨hurl, hagain ?_ ⟨by decide +kernel, by decide +kernel, by decide +kernel⟩⟩
  intro c hc
  obtain rfl := Option.some.inj hc
  decide

/-- The fragment is removed after the punctuation, so that the full stop in front of it stays; a
host with an ellipsis becomes one with empty labels; and one with a wide bracket becomes one with a
plain bracket, which the codec takes as it is, but `urlsplit` does not. -/
theorem normaliseUrl_again :
    normaliseUrl hostLibrary (py "http://a/b.#x") = some (py "http://a/b.") ∧
      normaliseUrl hostLibrary (py "http://a/b.") = some (py "http://a/b") ∧
      normaliseUrl hostLibrary (py "http://a…b/") = some (py "http://a...b/") ∧
      normaliseUrl hostLibrary (py "http://a...b/") = none ∧
      normaliseUrl hostLibrary (py "http://a［b/") = some (py "http://a[b/") ∧
      encodeHost hostLibrary (py "a[b") = some (py "a[b") ∧
      normaliseUrl hostLibrary (py "http://a[b/") = none ∧
      ∀ value ∈ [py "http://a/b.#x", py "http://a…b/", py "http://a［b/"],
        value ∈ findUrls 0 value ∧
        ¬∀ url, normaliseUrl hostLibrary value = some url →
          normaliseUrl hostLibrary url = some url := by
  have hfirst : normaliseUrl hostLibrary (py "http://a/b.#x") = some (py "http://a/b.") := by
    decide +kernel
  have hsecond : normaliseUrl hostLibrary (py "http://a/b.") = some (py "http://a/b") := by
    decide +kernel
  have hthird : normaliseUrl hostLibrary (py "http://a…b/") = some (py "http://a...b/") := by
    decide +kernel
  have hfourth : normaliseUrl hostLibrary (py "http://a...b/") = none := by decide +kernel
  have hfifth : normaliseUrl hostLibrary (py "http://a［b/") = some (py "http://a[b/") := by
    decide +kernel
  have hsixth : normaliseUrl hostLibrary (py "http://a[b/") = none := by decide +kernel
  refine ⟨hfirst, hsecond, hthird, hfourth, hfifth, by decide +kernel, hsixth,
    List.forall_mem_cons.2 ⟨⟨by decide +kernel, ?_⟩, List.forall_mem_cons.2
      ⟨⟨by decide +kernel, ?_⟩, List.forall_mem_singleton.2 ⟨by decide +kernel, ?_⟩⟩⟩⟩
  · intro h
    exact absurd (hsecond.symm.trans (h _ hfirst)) (by decide)
  · intro h
    exact absurd (hfourth.symm.trans (h _ hthird)) (by decide)
  · intro h
    exact absurd (hsixth.symm.trans (h _ hfifth)) (by decide)

end MailGate
