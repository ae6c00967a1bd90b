import MailGate.Mail.Encoding
import MailGate.Python.Query

/-!
# Links and their parts

`urlsplit` and `urlunsplit` on the links of the web: what has been put together is separated into
the same parts, a port that is written as a number is read as this number, and what was separated
holds none of the delimiters that it was separated by.
-/

namespace MailGate

open PyStr

/-! ## Decimal numbers -/

lemma ofNat_eq_toDigits (n : ℕ) : PyStr.ofNat n = (Nat.toDigits 10 n).map ofChar := by
  rw [PyStr.ofNat, py]
  exact congrArg _ Nat.toList_repr

/-- The front of a numeral is the numeral of a smaller number. -/
lemma take_toDigits {n : ℕ} (hn : 0 < n) (j : ℕ) :
    ∃ m, 0 < m ∧ m ≤ n ∧ (Nat.toDigits 10 n).take (j + 1) = Nat.toDigits 10 m := by
  induction n using Nat.strong_induction_on with
  | _ n ih =>
    by_cases hlt : n < 10
    · refine ⟨n, hn, le_rfl, ?_⟩
      rw [Nat.toDigits_of_lt_base hlt, List.take_succ_cons, List.take_nil]
    · have hsplit := Nat.toDigits_of_base_le (b := 10) (n := n) (by decide) (by omega)
      obtain ⟨m, hpos, hle, htake⟩ := ih (n / 10) (by omega) (by omega)
      by_cases hshort : j + 1 ≤ (Nat.toDigits 10 (n / 10)).length
      · refine ⟨m, hpos, by omega, ?_⟩
        rw [hsplit, List.take_append_of_le_length hshort, htake]
      · refine ⟨n, hn, le_rfl, List.take_of_length_le ?_⟩
        rw [hsplit, List.length_append, List.length_singleton]
        omega

lemma ofNat_isDigit (n : ℕ) : ∀ c ∈ PyStr.ofNat n, PyChar.isDigit c = true := by
  rw [ofNat_eq_toDigits, List.forall_mem_map]
  intro d hd
  have hdigit : d.isDigit = true := Nat.isDigit_of_mem_toDigits (by decide) (by decide) hd
  simp only [Char.isDigit, Bool.and_eq_true, decide_eq_true_eq] at hdigit
  rw [PyChar.isDigit, Bool.and_eq_true, decide_eq_true_eq, decide_eq_true_eq]
  exact ⟨hdigit.1, hdigit.2⟩

lemma ofNat_ne_nil (n : ℕ) : PyStr.ofNat n ≠ [] := by
  rw [ofNat_eq_toDigits]
  exact fun h => Nat.toDigits_ne_nil (List.map_eq_nil_iff.1 h)

lemma value_ofNat (n : ℕ) :
    (PyStr.ofNat n).foldl (fun n c => 10 * n + (c.val - 0x30)) 0 = n := by
  rw [ofNat_eq_toDigits, List.foldl_map]
  exact Nat.ofDigitChars_ten_toDigits

/-- A port that is written as a number is read as this number. -/
lemma port_ofNat {parts : SplitResult} {n : ℕ} (hle : n ≤ 65535)
    (h : (hostinfo parts.netloc).2 = PyStr.ofNat n) : port parts = some (some n) := by
  have hdigits : (PyStr.ofNat n).all PyChar.isDigit = true :=
    List.all_eq_true.2 (ofNat_isDigit n)
  have hlength : (PyStr.ofNat n).length ≤ 5 := by
    rw [ofNat_eq_toDigits, List.length_map, Nat.length_toDigits_le_iff (by decide) (by decide)]
    omega
  have hmax : (PyStr.ofNat n).length ≤ Bytes.maxIntDigits := hlength.trans (by decide)
  rw [port, h, if_neg (ofNat_ne_nil n), if_pos ⟨hdigits, hmax⟩]
  dsimp only
  rw [value_ofNat, if_pos hle]

lemma port_eq_some {parts : SplitResult} {n : ℕ} (h : port parts = some (some n)) :
    n ≤ 65535 := by
  rw [port] at h
  dsimp only at h
  split at h
  · cases h
  split at h
  swap
  · cases h
  split at h
  · rename_i hle
    obtain rfl := Option.some.inj (Option.some.inj h)
    exact hle
  · cases h

/-! ## A URL and its parts -/

/-- The network location of a URL. -/
def netlocOf (url : PyStr) : PyStr := (splitNetloc (splitScheme url).2).1

/-- The network location of a URL up to the port. -/
def hostOf (url : PyStr) : PyStr := before (ofChar ':') (netlocOf url)

lemma before_of_notMem {c : PyChar} {s : PyStr} (h : c ∉ s) : before c s = s := by
  rw [before, List.takeWhile_eq_self_iff]
  exact fun d hd => decide_eq_true (ne_of_mem_of_not_mem hd h)

lemma after_of_notMem {c : PyChar} {s : PyStr} (h : c ∉ s) : after c s = [] := by
  have hall : ∀ d ∈ s, decide (d ≠ c) = true :=
    fun d hd => decide_eq_true (ne_of_mem_of_not_mem hd h)
  rw [after, List.dropWhile_eq_nil_iff.2 hall, List.drop_nil]

lemma afterLast_of_notMem {c : PyChar} {s : PyStr} (h : c ∉ s) : afterLast c s = s := by
  have hall : ∀ d ∈ s.reverse, decide (d ≠ c) = true :=
    fun d hd => decide_eq_true (ne_of_mem_of_not_mem (List.mem_reverse.1 hd) h)
  rw [afterLast, List.takeWhile_eq_self_iff.2 hall, List.reverse_reverse]

/-- The text in front of a character, the character, and the text behind it. -/
lemma before_append_after {c : PyChar} {s : PyStr} (h : c ∈ s) :
    before c s ++ c :: after c s = s := by
  obtain ⟨t, u, rfl, ht⟩ := List.eq_append_cons_of_mem h
  rw [before_append ht, after_append ht]

lemma notMem_before (c : PyChar) (s : PyStr) : c ∉ before c s := by
  intro h
  simpa using List.mem_takeWhile_imp h

section

variable {scheme netloc rest : PyStr}

/-- The scheme of the web. -/
def IsWebScheme (scheme : PyStr) : Prop := scheme = py "http" ∨ scheme = py "https"

/-- The text is empty, or starts with a path or a query. -/
def EndsNetloc (rest : PyStr) : Prop :=
  ∀ c ∈ rest.head?, c = ofChar '/' ∨ c = ofChar '?'

lemma splitScheme_web (hscheme : IsWebScheme scheme) (t : PyStr) :
    splitScheme (scheme ++ py "://" ++ t) = (scheme, py "//" ++ t) := by
  have hcolon : ofChar ':' ∉ scheme := by
    rcases hscheme with rfl | rfl
    · decide
    · decide
  have hstart : scheme.head?.any isAsciiAlpha = true ∧ scheme.all isSchemeChar = true ∧
      lowerAscii scheme = scheme := by
    rcases hscheme with rfl | rfl
    · decide
    · decide
  have hurl : scheme ++ py "://" ++ t = scheme ++ ofChar ':' :: (py "//" ++ t) := by
    rw [List.append_assoc]
    rfl
  have hmem : ofChar ':' ∈ scheme ++ ofChar ':' :: (py "//" ++ t) := by simp
  rw [hurl, splitScheme, before_append hcolon, after_append hcolon,
    if_pos ⟨hmem, hstart.1, hstart.2.1⟩, hstart.2.2]

/-- The network location ends where the path or the query starts. -/
lemma splitNetloc_web (hnetloc : ∀ c ∈ netloc, c ∉ py "/?#")
    (hrest : EndsNetloc rest) :
    splitNetloc (py "//" ++ (netloc ++ rest)) = (netloc, rest) := by
  have htake : (py "//" ++ (netloc ++ rest)).take 2 = py "//" := rfl
  have hdrop : (py "//" ++ (netloc ++ rest)).drop 2 = netloc ++ rest := rfl
  have hall : ∀ c ∈ netloc, decide (c ∉ py "/?#") = true :=
    fun c hc => decide_eq_true (hnetloc c hc)
  rw [splitNetloc, if_pos htake, hdrop, List.takeWhile_append_of_pos hall,
    List.dropWhile_append_of_pos hall]
  cases rest with
  | nil => rw [List.takeWhile_nil, List.dropWhile_nil, List.append_nil]
  | cons c cs =>
    have hstop : ¬(decide (c ∉ py "/?#") = true) := by
      rcases hrest c rfl with rfl | rfl
      · decide
      · decide
    rw [List.takeWhile_cons_of_neg (p := fun c => decide (c ∉ py "/?#")) hstop,
      List.dropWhile_cons_of_neg (p := fun c => decide (c ∉ py "/?#")) hstop, List.append_nil]

variable (lib : Library)

/-- What `urlsplit` makes of a link without a fragment. -/
lemma urlsplit_web (hscheme : IsWebScheme scheme) (hnetloc : ∀ c ∈ netloc, c ∉ py "/?#[]")
    (hascii : ∀ c ∈ netloc, c.val < 0x80) (hrest : EndsNetloc rest)
    (hhash : ofChar '#' ∉ rest) (hblank : ∀ c ∈ netloc ++ rest, c ∉ py "\t\r\n") :
    urlsplit lib (scheme ++ py "://" ++ (netloc ++ rest)) =
      some ⟨scheme, netloc, (cutAt (ofChar '?') rest).1, (cutAt (ofChar '?') rest).2, []⟩ := by
  have hsub : py "/?#" ⊆ py "/?#[]" := by decide
  have hopen : ofChar '[' ∉ netloc := fun h => hnetloc _ h (by decide)
  have hclosed : ofChar ']' ∉ netloc := fun h => hnetloc _ h (by decide)
  have hstart : (scheme ++ py "://" ++ (netloc ++ rest)).dropWhile (·.val ≤ 0x20) =
      scheme ++ py "://" ++ (netloc ++ rest) := by
    rcases hscheme with rfl | rfl
    · rfl
    · rfl
  have hfilter : (scheme ++ py "://" ++ (netloc ++ rest)).filter (· ∉ py "\t\r\n") =
      scheme ++ py "://" ++ (netloc ++ rest) := by
    rw [List.filter_append]
    congr 1
    · rcases hscheme with rfl | rfl
      · decide
      · decide
    · rw [List.filter_eq_self]
      exact fun c hc => decide_eq_true (hblank c hc)
  have hbrackets : bracketsOk lib netloc = true := by
    simp [bracketsOk, hopen, hclosed]
  have hcheck : checkNetloc lib netloc = true := by
    have hall : (netloc.all fun c => decide (c.val < 0x80)) = true :=
      List.all_eq_true.2 fun c hc => decide_eq_true (hascii c hc)
    rw [checkNetloc, hall]
    rfl
  have hfragment : cutAt (ofChar '#') rest = (rest, []) := by rw [cutAt, if_neg hhash]
  have hlocation := splitNetloc_web (fun c hc h => hnetloc c hc (hsub h)) hrest
  simp only [urlsplit, hstart, hfilter, splitScheme_web hscheme, hlocation, hbrackets, hfragment,
    hcheck]
  rfl

variable (scheme) in
/-- `urlunsplit` puts the parts together again, unless the text ends in a question mark. -/
lemma urlunsplit_web (hne : netloc ≠ []) (hrest : EndsNetloc rest)
    (hlast : rest.getLast? ≠ some (ofChar '?')) :
    urlunsplit scheme netloc (cutAt (ofChar '?') rest).1 (cutAt (ofChar '?') rest).2 =
      scheme ++ py "://" ++ (netloc ++ rest) := by
  -- the path is empty or absolute, so that no slash is added
  have hpath : (cutAt (ofChar '?') rest).1 ≠ [] →
      (cutAt (ofChar '?') rest).1.head? = some (ofChar '/') := by
    intro hne'
    obtain ⟨c, cs, hcons⟩ := List.exists_cons_of_ne_nil hne'
    have hfront : (cutAt (ofChar '?') rest).1 <+: rest ∧
        ofChar '?' ∉ (cutAt (ofChar '?') rest).1 := by
      rw [cutAt]
      split
      · exact ⟨List.takeWhile_prefix _, notMem_before _ _⟩
      · rename_i hno
        exact ⟨List.prefix_rfl, hno⟩
    rw [hcons] at hfront ⊢
    obtain ⟨t, ht⟩ := hfront.1
    rcases hrest c (by rw [← ht]; rfl) with rfl | rfl
    · rfl
    · exact absurd List.mem_cons_self hfront.2
  have hjoin : (cutAt (ofChar '?') rest).1 ++ (if (cutAt (ofChar '?') rest).2 ≠ [] then
      py "?" ++ (cutAt (ofChar '?') rest).2 else []) = rest := by
    by_cases hmem : ofChar '?' ∈ rest
    · -- an empty query would lose its question mark
      have hsplit := before_append_after hmem
      have hquery : after (ofChar '?') rest ≠ [] := by
        intro hnil
        rw [hnil] at hsplit
        rw [← hsplit, List.getLast?_concat] at hlast
        exact hlast rfl
      rw [cutAt, if_pos hmem, if_pos hquery]
      exact hsplit
    · rw [cutAt, if_neg hmem]
      exact List.append_nil rest
  have hextra : ¬((cutAt (ofChar '?') rest).1 ≠ [] ∧
      (cutAt (ofChar '?') rest).1.head? ≠ some (ofChar '/')) := fun h => h.2 (hpath h.1)
  rw [urlunsplit, if_pos hne, if_neg hextra, List.append_nil]
  calc scheme ++ py ":" ++ (py "//" ++ netloc ++ (cutAt (ofChar '?') rest).1) ++
        (if (cutAt (ofChar '?') rest).2 ≠ [] then py "?" ++ (cutAt (ofChar '?') rest).2 else [])
      = scheme ++ (py ":" ++ py "//") ++ (netloc ++ ((cutAt (ofChar '?') rest).1 ++
        (if (cutAt (ofChar '?') rest).2 ≠ [] then
          py "?" ++ (cutAt (ofChar '?') rest).2 else []))) := by
        simp only [List.append_assoc]
    _ = scheme ++ py "://" ++ (netloc ++ rest) := by
        rw [hjoin]
        rfl

end

section

variable {lib : Library} {value url : PyStr} {parts : SplitResult}

/-- What `urlsplit` has separated. -/
structure Separated (lib : Library) (parts : SplitResult) : Prop where
  netloc : ∀ c ∈ parts.netloc, c ∉ py "/?#"
  path : parts.netloc ≠ [] → ∀ c ∈ parts.path.head?, c = ofChar '/'
  path_mark : ofChar '?' ∉ parts.path
  path_hash : ofChar '#' ∉ parts.path
  query_hash : ofChar '#' ∉ parts.query
  check : checkNetloc lib parts.netloc = true

lemma cutAt_fst_notMem (c : PyChar) (url : PyStr) : c ∉ (cutAt c url).1 := by
  rw [cutAt]
  split
  · exact notMem_before c url
  · assumption

lemma head?_cutAt {c d : PyChar} {url : PyStr} (h : d ∈ (cutAt c url).1.head?) :
    d ∈ url.head? ∧ d ≠ c := by
  constructor
  · have hfront : (cutAt c url).1 <+: url := by
      rw [cutAt]
      split
      · exact List.takeWhile_prefix _
      · exact List.prefix_rfl
    obtain ⟨t, ht⟩ := hfront
    rw [← ht, List.head?_append, h]
    rfl
  · rintro rfl
    exact cutAt_fst_notMem d url (List.mem_of_mem_head? h)

lemma splitNetloc_spec (url : PyStr) :
    (∀ c ∈ (splitNetloc url).1, c ∉ py "/?#") ∧
      ((splitNetloc url).1 ≠ [] → ∀ c ∈ (splitNetloc url).2.head?, c ∈ py "/?#") := by
  rw [splitNetloc]
  split
  · constructor
    · intro c hc
      simpa using List.mem_takeWhile_imp hc
    · intro _ c hc
      have hstop := List.head?_dropWhile_not (fun c => decide (c ∉ py "/?#")) (url.drop 2)
      rw [Option.mem_def] at hc
      rw [hc] at hstop
      simpa using hstop
  · exact ⟨by simp, fun h => absurd rfl h⟩

lemma urlsplit_separated (h : urlsplit lib url = some parts) : Separated lib parts := by
  unfold urlsplit at h
  dsimp only at h
  split at h
  · cases h
  split at h
  · cases h
  generalize hclean : splitScheme ((url.dropWhile (·.val ≤ 0x20)).filter (· ∉ py "\t\r\n")) =
    clean at h
  rename_i hcheck
  rw [hclean] at hcheck
  obtain rfl := Option.some.inj h
  obtain ⟨hnetloc, hstart⟩ := splitNetloc_spec clean.2
  have hsub := cutAt_subset (ofChar '?') (cutAt (ofChar '#') (splitNetloc clean.2).2).1
  have hhash := cutAt_fst_notMem (ofChar '#') (splitNetloc clean.2).2
  refine ⟨hnetloc, fun hne c hc => ?_, cutAt_fst_notMem _ _, fun hc => hhash (hsub.1 hc),
    fun hc => hhash (hsub.2 hc), by simpa using hcheck⟩
  -- of the three characters that end the network location, two would have been cut away
  obtain ⟨hmem, hmark⟩ := head?_cutAt hc
  obtain ⟨hmem, hnoHash⟩ := head?_cutAt hmem
  have hall : ((py "/?#").all fun c => c == ofChar '/' || c == ofChar '?' || c == ofChar '#') =
    true := by decide
  have hc := List.all_eq_true.1 hall c (hstart hne c hmem)
  simp only [Bool.or_eq_true, beq_iff_eq] at hc
  rcases hc with (rfl | rfl) | rfl
  · rfl
  · exact absurd rfl hmark
  · exact absurd rfl hnoHash

/-! ## What a link is made of -/

lemma portText_chars (number : Option ℕ) :
    ∀ c ∈ portText number, c = ofChar ':' ∨ PyChar.isDigit c = true := by
  rcases number with _ | _ | n
  · exact fun c hc => absurd hc List.not_mem_nil
  · exact fun c hc => absurd hc List.not_mem_nil
  · exact List.forall_mem_cons.2 ⟨.inl rfl, fun c hc => .inr (ofNat_isDigit _ c hc)⟩

/-- The text of a port is read as the port. -/
lemma port_portText {number : Option ℕ} (hle : ∀ n ∈ number, n ≤ 65535)
    (h : (hostinfo parts.netloc).2 = (portText number).drop 1) :
    ∃ number', port parts = some number' ∧ portText number' = portText number := by
  rcases number with _ | _ | n
  · exact ⟨none, by rw [port, h]; rfl, rfl⟩
  · exact ⟨none, by rw [port, h]; rfl, rfl⟩
  · exact ⟨some (n + 1), port_ofNat (hle _ rfl) h, rfl⟩

lemma normaliseUrl_spec (h : normaliseUrl lib value = some url) :
    ∃ parts host number, urlsplit lib (value.rdropWhile (· ∈ py ".,;:!?)")) = some parts ∧
      IsWebScheme parts.scheme ∧ hostname lib parts ≠ [] ∧
      encodeHost lib (hostname lib parts) = some host ∧ port parts = some number ∧
      url = (urlunsplit parts.scheme (host ++ portText number) parts.path
        parts.query).take 2048 := by
  rw [normaliseUrl] at h
  obtain ⟨parts, hparts, h⟩ := Option.bind_eq_some_iff.1 h
  split at h
  · cases h
  rename_i hweb
  push Not at hweb
  obtain ⟨host, hhost, h⟩ := Option.bind_eq_some_iff.1 h
  obtain ⟨number, hnumber, h⟩ := Option.bind_eq_some_iff.1 h
  refine ⟨parts, host, number, hparts, by simpa [IsWebScheme] using hweb.1, hweb.2, hhost, hnumber,
    ?_⟩
  rw [← Option.some.inj h]
  rcases number with _ | _ | n
  · rfl
  · rfl
  · rfl

/-- The other direction. -/
lemma normaliseUrl_of_parts {host : PyStr} {number : Option ℕ}
    (hparts : urlsplit lib (value.rdropWhile (· ∈ py ".,;:!?)")) = some parts)
    (hscheme : IsWebScheme parts.scheme) (hne : hostname lib parts ≠ [])
    (hhost : encodeHost lib (hostname lib parts) = some host)
    (hnumber : port parts = some number) :
    normaliseUrl lib value = some
      ((urlunsplit parts.scheme (host ++ portText number) parts.path parts.query).take 2048) := by
  have hweb : ¬(parts.scheme ∉ [py "http", py "https"] ∨ hostname lib parts = []) := by
    rintro (hother | hnil)
    · exact hother (by simpa [IsWebScheme] using hscheme)
    · exact hne hnil
  rw [normaliseUrl, hparts]
  show (if _ then _ else _) = _
  rw [if_neg hweb, hhost, hnumber]
  rcases number with _ | _ | n
  · rfl
  · rfl
  · rfl

end

end MailGate
