import MailGate.Mail.Names
import MailGate.Mail.UrlParts

/-!
# The host of a link

The host is folded and encoded, and each step could bring in a delimiter.  The check of `urlsplit`
under NFKC prevents it.
-/

namespace MailGate

open PyStr

section

variable {lib : Library} {value url : PyStr} {parts : SplitResult}

/-- How the case mapping, the normalisation NFKC and the codec for host names treat the delimiters
of a URL: a delimiter comes from a character that NFKC turns into it, and such a character stands
already in the text before the case mapping and before the encoding. -/
structure HostCodec (lib : Library) : Prop where
  lower_ascii : LowersAscii lib.unicode.lower
  nfkc_ascii : ∀ c : PyChar, c.val < 0x80 → lib.unicode.nfkc [c] = [c]
  nfkc_blank : ∀ d ∈ py "\t\r\n", ∀ c, d ∈ lib.unicode.nfkc [c] → c = d
  nfkc_mem : ∀ d ∈ py "/?#@:", ∀ s,
    d ∈ lib.unicode.nfkc s ↔ ∃ c ∈ s, d ∈ lib.unicode.nfkc [c]
  lower_mem : ∀ d ∈ py "/?#@:\t\r\n", ∀ s, ∀ c ∈ lib.unicode.lower s,
    d ∈ lib.unicode.nfkc [c] → ∃ c' ∈ s, d ∈ lib.unicode.nfkc [c']
  idna_mem : ∀ d ∈ py "/?#@:\t\r\n", ∀ s b, lib.idna s = some b → ∀ x ∈ b, x.toNat = d.val →
    ∃ c ∈ s, d ∈ lib.unicode.nfkc [c]
  idna_ne_nil : ∀ s b, lib.idna s = some b → s ≠ [] → b ≠ []

/-- An encoded host is lower-case ASCII. -/
lemma encodeHost_spec {host encoded : PyStr} (h : encodeHost lib host = some encoded) :
    ∃ b, lib.idna host = some b ∧ encoded.length = b.length ∧
      ∀ c ∈ encoded, c.val < 0x80 ∧ ¬(0x41 ≤ c.val ∧ c.val ≤ 0x5A) ∧
        ∃ x ∈ b, c.val = (Bytes.lower x).toNat := by
  rw [encodeHost] at h
  split at h
  · cases h
  rename_i b hb
  split at h
  swap
  · cases h
  rename_i hascii
  obtain rfl := Option.some.inj h
  refine ⟨b, hb, List.length_map _, fun c hc => ?_⟩
  obtain ⟨x, hx, rfl⟩ := List.mem_map.1 hc
  have hlt : x < 0x80 := by simpa using List.all_eq_true.1 hascii x hx
  obtain ⟨hsmall, hupper⟩ := lower_toNat hlt
  rw [val_ofChar_ofNat hsmall]
  exact ⟨hsmall, hupper, x, hx, rfl⟩

lemma not_lower_of_delimiter {d : PyChar} (h : d ∈ py "/?#@:\t\r\n") :
    ¬(0x61 ≤ d.val ∧ d.val ≤ 0x7A) := by
  have hletter : ((py "/?#@:\t\r\n").all fun c => !(0x61 ≤ c.val && c.val ≤ 0x7A)) = true := by
    decide
  have hd := List.all_eq_true.1 hletter d h
  simp only [Bool.not_eq_true', Bool.and_eq_false_iff, decide_eq_false_iff_not] at hd
  omega

/-- Lower case makes no delimiter. -/
lemma lowerAsciiChar_eq {c d : PyChar} (hd : ¬(0x61 ≤ d.val ∧ d.val ≤ 0x7A))
    (h : lowerAsciiChar c = d) : c = d := by
  rw [lowerAsciiChar] at h
  split at h
  · rename_i hupper
    refine absurd ?_ hd
    rw [← h]
    show 0x61 ≤ c.val + 0x20 ∧ c.val + 0x20 ≤ 0x7A
    omega
  · exact h

lemma toNat_of_lower {x : UInt8} {d : ℕ} (h : (Bytes.lower x).toNat = d)
    (hd : ¬(0x61 ≤ d ∧ d ≤ 0x7A)) : x.toNat = d := by
  rw [Bytes.lower] at h
  split at h
  · rename_i hupper
    simp only [Bool.and_eq_true, decide_eq_true_eq, UInt8.le_iff_toNat_le] at hupper
    rw [UInt8.toNat_add] at h
    simp only [UInt8.reduceToNat] at hupper h
    omega
  · exact h

/-- The host of a link without brackets, before it is encoded. -/
lemma hostinfo_plain {netloc : PyStr} (hopen : ofChar '[' ∉ netloc) :
    hostinfo netloc = (before (ofChar ':') (afterLast (ofChar '@') netloc),
      after (ofChar ':') (afterLast (ofChar '@') netloc)) := by
  rw [hostinfo, if_neg fun h => hopen (afterLast_subset _ _ h)]

/-- No character of the host stands for a delimiter. -/
lemma host_delimiter (hcodec : HostCodec lib) (hparts : Separated lib parts)
    (hopen : ofChar '[' ∉ parts.netloc) {d : PyChar} (hd : d ∈ py "/?#@:") :
    ∀ c ∈ (hostinfo parts.netloc).1, d ∉ lib.unicode.nfkc [c] := by
  have hcolon : ofChar ':' ∉ (hostinfo parts.netloc).1 := by
    rw [hostinfo_plain hopen]
    exact notMem_before _ _
  have hat : ofChar '@' ∉ (hostinfo parts.netloc).1 := by
    rw [hostinfo_plain hopen]
    intro h
    have hlast := before_subset _ _ h
    rw [afterLast] at hlast
    simpa using List.mem_takeWhile_imp (List.mem_reverse.1 hlast)
  have hsub := hostinfo_subset parts.netloc
  have hplain : ∀ c ∈ (hostinfo parts.netloc).1, c ∉ py "/?#@:" := by
    intro c hc hmem
    have hall : ((py "/?#@:").all fun c => c ∈ py "/?#" || c == ofChar '@' || c == ofChar ':') =
      true := by decide
    have hc' := List.all_eq_true.1 hall c hmem
    simp only [Bool.or_eq_true, beq_iff_eq, decide_eq_true_eq] at hc'
    rcases hc' with (hc' | rfl) | rfl
    · exact hparts.netloc c (hsub hc) hc'
    · exact hat hc
    · exact hcolon hc
  intro c hc hmem
  have hcheck := hparts.check
  rw [checkNetloc] at hcheck
  simp only [Bool.or_eq_true, List.all_eq_true, decide_eq_true_eq, beq_iff_eq] at hcheck
  have hfiltered : c ∈ parts.netloc.filter (· ∉ py "@:#?") := by
    have hsubset : py "@:#?" ⊆ py "/?#@:" := by decide
    exact List.mem_filter.2 ⟨hsub hc, decide_eq_true fun h => hplain c hc (hsubset h)⟩
  have hnfkc := (hcodec.nfkc_mem d hd _).2 ⟨c, hfiltered, hmem⟩
  rcases hcheck with (hascii | hsame) | hnone
  · -- an ASCII character stands for itself
    rw [hcodec.nfkc_ascii c (hascii c (hsub hc)), List.mem_singleton] at hmem
    exact hplain c hc (hmem ▸ hd)
  · -- nothing changes, and the delimiters were left out
    rw [← hsame] at hnfkc
    obtain ⟨hnetloc, hkept⟩ := List.mem_filter.1 hnfkc
    have hall : ((py "/?#@:").all fun c => c ∈ py "@:#?" || c ∈ py "/?#") = true := by decide
    have hd' := List.all_eq_true.1 hall d hd
    simp only [Bool.or_eq_true, decide_eq_true_eq] at hd' hkept
    exact hd'.elim hkept (hparts.netloc d hnetloc)
  · exact hnone d hd hnfkc

/-- An encoded host has none of the delimiters of a URL, no tab and no line end. -/
lemma encodedHost_plain (hcodec : HostCodec lib) (hparts : Separated lib parts)
    (hopen : ofChar '[' ∉ parts.netloc) (hblank : ∀ c ∈ parts.netloc, c ∉ py "\t\r\n")
    {host : PyStr} (hhost : encodeHost lib (hostname lib parts) = some host) :
    ∀ c ∈ host, c ∉ py "/?#@:\t\r\n" := by
  intro c hc hd
  obtain ⟨b, hb, -, hchars⟩ := encodeHost_spec hhost
  obtain ⟨-, -, x, hx, hval⟩ := hchars c hc
  have hbyte := toNat_of_lower hval.symm (not_lower_of_delimiter hd)
  obtain ⟨c₁, hc₁, hmem₁⟩ := hcodec.idna_mem c hd _ b hb x hx hbyte
  -- back through the case mapping
  obtain ⟨c₂, hc₂, hmem₂⟩ : ∃ c₂ ∈ (hostinfo parts.netloc).1, c ∈ lib.unicode.nfkc [c₂] := by
    rcases List.mem_append.1 hc₁ with hlow | hzone
    · obtain ⟨c₂, hc₂, hmem₂⟩ := hcodec.lower_mem c hd _ c₁ hlow hmem₁
      exact ⟨c₂, before_subset _ _ hc₂, hmem₂⟩
    · exact ⟨c₁, (List.dropWhile_suffix _).subset hzone, hmem₁⟩
  have hall : ((py "/?#@:\t\r\n").all fun c => c ∈ py "/?#@:" || c ∈ py "\t\r\n") = true := by
    decide
  have hkind := List.all_eq_true.1 hall c hd
  simp only [Bool.or_eq_true, decide_eq_true_eq] at hkind
  rcases hkind with hdelimiter | hspace
  · exact host_delimiter hcodec hparts hopen hdelimiter c₂ hc₂ hmem₂
  · obtain rfl := hcodec.nfkc_blank c hspace c₂ hmem₂
    exact hblank _ (hostinfo_subset _ hc₂) hspace

/-! ## A match of the pattern -/

lemma matchUrl_no_bracket {s : PyStr} (h : matchUrl s = some url) :
    ∀ c ∈ url, c ≠ ofChar '[' := by
  rw [matchUrl] at h
  split at h
  swap
  · cases h
  rename_i hhttp
  dsimp only at h
  split at h
  swap
  · cases h
  rename_i hslashes
  split at h
  · cases h
  obtain rfl := Option.some.inj h
  generalize hk : (((s.drop 4).takeWhile fun c => c ∈ py "sS" || c.val == 0x17F).length.min 1) = k
    at hslashes ⊢
  have hsplit : s.take (4 + k + 3) = s.take 4 ++ (s.drop 4).take k ++ (s.drop (4 + k)).take 3 := by
    rw [List.take_add, List.take_add]
  intro c hc
  rw [hsplit, hslashes] at hc
  simp only [List.mem_append] at hc
  rcases hc with ((hc | hc) | hc) | hc
  · rintro rfl
    have hlow : lowerAsciiChar (ofChar '[') ∈ lowerAscii (s.take 4) := List.mem_map_of_mem hc
    rw [hhttp] at hlow
    exact absurd hlow (by decide)
  · have hle : k ≤ ((s.drop 4).takeWhile fun c => c ∈ py "sS" || c.val == 0x17F).length := by
      rw [← hk]
      exact Nat.min_le_left _ _
    have hfront := List.take_prefix_take_left hle (l := s.drop 4)
    rw [← List.prefix_iff_eq_take.1 (List.takeWhile_prefix _)] at hfront
    have hword := List.mem_takeWhile_imp (hfront.subset hc)
    rintro rfl
    exact absurd hword (by decide)
  · rintro rfl
    exact absurd hc (by decide)
  · have hurl := List.mem_takeWhile_imp hc
    rintro rfl
    exact absurd hurl (by decide)

lemma findUrls_no_bracket {skip : ℕ} {text : PyStr} (h : url ∈ findUrls skip text) :
    ∀ c ∈ url, c ≠ ofChar '[' := by
  induction text generalizing skip with
  | nil =>
    cases skip with
    | zero => exact absurd h List.not_mem_nil
    | succ skip => exact absurd h List.not_mem_nil
  | cons c cs ih =>
    cases skip with
    | succ skip => exact ih h
    | zero =>
      rw [findUrls] at h
      split at h
      · rename_i first hfirst
        rcases List.mem_cons.1 h with rfl | h
        · exact matchUrl_no_bracket hfirst
        · exact ih h
      · exact ih h

end

end MailGate
