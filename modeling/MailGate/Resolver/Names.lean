import MailGate.Lib.Asking
import MailGate.Resolver.Agreement

/-!
# The names that the resolver forwards

`resolve_dkim_txt` as a program that asks the DNS-over-HTTPS server.  Its pattern ignores case
over all of Unicode, so it takes some names that are no DKIM names.
-/

namespace MailGate

namespace Resolver

open PyChar PyStr

variable {F : Type}

/-! ## The queries -/

/-- `resolve_dkim_txt` after the check of the name, with the call of `urlopen` as a question. -/
def lookupTxtAsking (env : Env F) (normalized : PyStr) :
    Asking PyStr (Except CallExn HttpResponse) (Except CallExn (Option Bytes)) :=
  match urlencode [(py "name", normalized), (py "type", py "TXT")] with
  | none => .done (.error .value)
  | some query => .ask (env.endpoint ++ py "?" ++ query) fun opened => .done do
      let response ← opened
      if response.status ≠ 200 then .error .os
      else
        let body := response.body.take (maxResponseBytes + 1)
        if body.length > maxResponseBytes then .error .os
        else
          match Json.loadsBytes env.floats env.wide body with
          | .error _ => .error .value
          | .ok document => recordOf env document

/-- `resolve_dkim_txt`. -/
def resolveAsking (env : Env F) (name : PyStr) :
    Asking PyStr (Except CallExn HttpResponse) (Except CallExn (Option Bytes)) :=
  if !matchesQuery (normalize env name) then .done (.error .value)
  else lookupTxtAsking env (normalize env name)

/-- Answered by `urlopen`, the program does what `resolve_dkim_txt` does. -/
theorem resolveAsking_run (env : Env F) (name : PyStr) :
    (resolveAsking env name).run env.urlopen = resolveDkimTxt env name := by
  rw [resolveAsking, resolveDkimTxt]
  split
  · rfl
  · rw [lookupTxtAsking, lookupTxt]
    cases urlencode [(py "name", normalize env name), (py "type", py "TXT")] with
    | none => rfl
    | some query => rfl

/-- The DNS-over-HTTPS queries for a name. -/
def dohQueries (env : Env F) (name : PyStr) : List PyStr :=
  (resolveAsking env name).questions env.urlopen

/-! ## The pattern -/

lemma matchesQuery_spec {s : PyStr} (h : matchesQuery s = true) :
    s.length ≤ 253 ∧ ∃ i marker, 1 ≤ i ∧ (s.splitOn (ofChar '.'))[i]? = some marker ∧
      marker.map foldQuery = py "_domainkey" ∧
      (∀ l ∈ (s.splitOn (ofChar '.')).take i, isSelectorLabel l = true) ∧
      2 ≤ ((s.splitOn (ofChar '.')).drop (i + 1)).length ∧
      ∀ l ∈ (s.splitOn (ofChar '.')).drop (i + 1), isDomainLabel l = true := by
  simp only [matchesQuery, Bool.and_eq_true, decide_eq_true_eq, List.any_eq_true, List.mem_range,
    List.all_eq_true, beq_iff_eq] at h
  obtain ⟨hlength, i, -, ⟨⟨⟨hi, hmarker⟩, hselector⟩, htwo⟩, hdomain⟩ := h
  obtain ⟨marker, hget, hfold⟩ := Option.map_eq_some_iff.1 hmarker
  exact ⟨hlength.2, i, marker, hi, hget, hfold, hselector, htwo, hdomain⟩

lemma isQueryAlnum_not_surrogate {c : PyChar} (h : isQueryAlnum c = true) :
    isSurrogate c = false := by
  simp only [isQueryAlnum, isAlnum, isDigit, Bool.or_eq_true, Bool.and_eq_true, decide_eq_true_eq,
    beq_iff_eq] at h
  simp only [isSurrogate, Bool.and_eq_false_iff, decide_eq_false_iff_not]
  omega

lemma isSelectorLabel_mem {l : PyStr} (h : isSelectorLabel l = true) {c : PyChar} (hc : c ∈ l) :
    isQueryAlnum c = true ∨ c ∈ py "_-" := by
  simp only [isSelectorLabel, Bool.and_eq_true, List.all_eq_true, Bool.or_eq_true,
    beq_iff_eq] at h
  rcases h.2 c hc with (h | rfl) | rfl
  · exact .inl h
  · exact .inr (by decide)
  · exact .inr (by decide)

lemma isDomainLabel_mem {l : PyStr} (h : isDomainLabel l = true) {c : PyChar} (hc : c ∈ l) :
    isQueryAlnum c = true ∨ c ∈ py "-" := by
  simp only [isDomainLabel, Bool.and_eq_true, List.all_eq_true, Bool.or_eq_true, beq_iff_eq] at h
  rcases h.1.1.2 c hc with h | rfl
  · exact .inl h
  · exact .inr (by decide)

/-- A character that folds to one of `_domainkey` is no surrogate. -/
lemma foldQuery_not_surrogate {c : PyChar} (h : foldQuery c ∈ py "_domainkey") :
    isSurrogate c = false := by
  by_contra hsurrogate
  have hrange : 0xD800 ≤ c.val ∧ c.val ≤ 0xDFFF := by
    simpa [isSurrogate] using hsurrogate
  have hself : foldQuery c = c := by
    rw [foldQuery, if_neg (by omega), if_neg (by omega), if_neg (by omega), lowerAsciiChar,
      dif_neg (by omega)]
  have hall : ((py "_domainkey").all fun c => c.val < 0x80) = true := by decide
  have hsmall : c.val < 0x80 := by simpa using List.all_eq_true.1 hall c (hself ▸ h)
  omega

lemma matchesQuery_not_surrogate {s : PyStr} (h : matchesQuery s = true) :
    ∀ c ∈ s, isSurrogate c = false := by
  obtain ⟨-, i, marker, -, hget, hfold, hselector, -, hdomain⟩ := matchesQuery_spec h
  have hothers : ((py "_-").all fun c => !isSurrogate c) = true := by decide
  refine forall_mem_of_labels (by decide) hget (fun c hc => ?_) (fun l hl c hc => ?_)
    (fun l hl c hc => ?_)
  · exact foldQuery_not_surrogate (hfold ▸ List.mem_map.2 ⟨c, hc, rfl⟩)
  · rcases isSelectorLabel_mem (hselector l hl) hc with h | h
    · exact isQueryAlnum_not_surrogate h
    · simpa using List.all_eq_true.1 hothers c h
  · rcases isDomainLabel_mem (hdomain l hl) hc with h | h
    · exact isQueryAlnum_not_surrogate h
    · exact by simpa using List.all_eq_true.1 hothers c (List.mem_cons_of_mem _ h)

/-- There is a query exactly for the names that match. -/
theorem dohQueries_ne_nil (env : Env F) (name : PyStr) :
    dohQueries env name ≠ [] ↔ matchesQuery (normalize env name) = true := by
  rw [dohQueries, resolveAsking]
  cases hmatch : matchesQuery (normalize env name) with
  | false => exact iff_of_false (by simp [Asking.questions]) Bool.false_ne_true
  | true =>
    -- a name that matches has no surrogate, so encoding the query cannot raise
    obtain ⟨b, hb⟩ := exists_encode (matchesQuery_not_surrogate hmatch)
    have hsafe : ([py "name", py "type", py "TXT"].all fun w => w.all isAlwaysSafe) = true := by
      decide
    have hquote : ∀ w ∈ [py "name", py "type", py "TXT"], quotePlus w = some w := fun w hw =>
      quotePlus_safe (List.all_eq_true.1 (List.all_eq_true.1 hsafe w hw))
    simp only [List.forall_mem_cons, List.not_mem_nil, false_imp_iff, implies_true, and_true]
      at hquote
    obtain ⟨value, hvalue⟩ : ∃ value, quotePlus (normalize env name) = some value := by
      rw [quotePlus, hb]
      exact ⟨_, rfl⟩
    have hquery : ∃ query, urlencode [(py "name", normalize env name), (py "type", py "TXT")] =
        some query := by
      simp [urlencode, hquote, hvalue]
    obtain ⟨query, hquery⟩ := hquery
    refine iff_of_true ?_ rfl
    rw [Bool.not_true, if_neg Bool.false_ne_true, lookupTxtAsking, hquery]
    exact List.cons_ne_nil _ _

/-! ## Names beyond ASCII -/

lemma isAlnum_of_isQueryAlnum {c : PyChar} (hascii : c.val < 0x80) (h : isQueryAlnum c = true) :
    isAlnum c = true := by
  simp only [isQueryAlnum, Bool.or_eq_true, beq_iff_eq] at h
  rcases h with (((h | h) | h) | h) | h
  · exact h
  all_goals omega

/-- An ASCII name without capitals that matches is a DKIM name. -/
lemma dkimName_of_matchesQuery {s : PyStr}
    (hlower : ∀ c ∈ s, ¬(0x41 ≤ c.val ∧ c.val ≤ 0x5A)) (h : matchesQuery s = true)
    (hascii : ∀ c ∈ s, c.val < 0x80) : DkimName s := by
  obtain ⟨hlength, i, marker, hi, hget, hfold, hselector, htwo, hdomain⟩ := matchesQuery_spec h
  have hlabel : ∀ l ∈ s.splitOn (ofChar '.'), ∀ c ∈ l, c ∈ s :=
    fun l hl c hc => subset_of_mem_splitOn hl hc
  have hmarker : marker = py "_domainkey" := by
    -- on ASCII without capitals, ignoring case changes nothing
    have hmem := hlabel marker (List.mem_of_getElem? hget)
    have hself : ∀ c ∈ marker, foldQuery c = c := by
      intro c hc
      have hsmall := hascii c (hmem c hc)
      rw [foldQuery, if_neg (by omega), if_neg (by omega), if_neg (by omega), lowerAsciiChar,
        dif_neg (hlower c (hmem c hc))]
    rw [← hfold, List.map_congr_left hself, List.map_id']
  refine .of_splitOn hlength hi (hmarker ▸ hget) (fun l hl => ?_) htwo (fun l hl => ?_)
  · have hmem := hlabel l (List.mem_of_mem_take hl)
    have hspec := hselector l hl
    refine ⟨?_, fun c hc => ?_⟩
    · simp only [isSelectorLabel, Bool.and_eq_true, decide_eq_true_eq] at hspec
      exact hspec.1
    · exact (isSelectorLabel_mem hspec hc).imp_left
        (isAlnum_of_isQueryAlnum (hascii c (hmem c hc)))
  · have hmem := hlabel l (List.mem_of_mem_drop hl)
    have hspec := hdomain l hl
    have hend : ∀ o : Option PyChar, o.all isQueryAlnum = true → o ≠ some (ofChar '-') := by
      rintro o ho rfl
      revert ho
      decide
    refine ⟨⟨?_, fun c hc => ?_⟩, ?_, ?_⟩
    · simp only [isDomainLabel, Bool.and_eq_true, decide_eq_true_eq] at hspec
      exact hspec.1.1.1
    · exact (isDomainLabel_mem hspec hc).imp_left
        (isAlnum_of_isQueryAlnum (hascii c (hmem c hc)))
    · simp only [isDomainLabel, Bool.and_eq_true] at hspec
      exact hend _ hspec.1.2
    · simp only [isDomainLabel, Bool.and_eq_true] at hspec
      exact hend _ hspec.2

/-- A DKIM name is ASCII. -/
lemma ascii_of_dkimName {s : PyStr} (h : DkimName s) : ∀ c ∈ s, c.val < 0x80 := by
  obtain ⟨selector, domain, -, -, hs, hselector, hdomain⟩ := h.labels
  have halnum : ∀ c : PyChar, isAlnum c = true → c.val < 0x80 := by
    intro c hc
    simp only [isAlnum, isDigit, Bool.or_eq_true, Bool.and_eq_true, decide_eq_true_eq] at hc
    omega
  have hwords : ([py ".", py "_-", py "-", py "_domainkey"].all fun w =>
      w.all fun c => c.val < 0x80) = true := by decide
  have hword : ∀ w ∈ [py ".", py "_-", py "-", py "_domainkey"], ∀ c ∈ w, c.val < 0x80 :=
    fun w hw c hc => by simpa using List.all_eq_true.1 (List.all_eq_true.1 hwords w hw) c hc
  intro c hc
  rw [hs] at hc
  rcases mem_join hc with hsep | ⟨l, hl, hcl⟩
  · exact hword (py ".") (by decide) c hsep
  rw [List.mem_append, List.mem_cons] at hl
  rcases hl with hl | rfl | hl
  · exact ((hselector l hl).chars c hcl).elim (halnum c) (hword (py "_-") (by decide) c)
  · exact hword (py "_domainkey") (by decide) c hcl
  · exact ((hdomain l hl).chars c hcl).elim (halnum c) (hword (py "-") (by decide) c)

/-- The resolver forwards a name only as a DKIM name exactly if the normalised name is ASCII or
does not match: without regard to case, `[a-z]` also takes the long s and the dotless i. -/
theorem dohQueries_dkimName_iff (env : Env F)
    (hlower : ∀ s, ∀ c ∈ env.lib.unicode.lower s, ¬(0x41 ≤ c.val ∧ c.val ≤ 0x5A))
    (name : PyStr) :
    (dohQueries env name ≠ [] → DkimName (normalize env name)) ↔
      (matchesQuery (normalize env name) = true → ∀ c ∈ normalize env name, c.val < 0x80) := by
  rw [dohQueries_ne_nil]
  constructor
  · exact fun h hmatch => ascii_of_dkimName (h hmatch)
  · intro h hmatch
    refine dkimName_of_matchesQuery (fun c hc => ?_) hmatch (h hmatch)
    exact hlower _ c ((List.rdropWhile_prefix _ _).subset hc)

/-- A name in ASCII is forwarded as a DKIM name. -/
theorem dohQueries_sample :
    dohQueries sampleDns (py " S1._domainkey.Example.org. ") ≠ [] ∧
      DkimName (normalize sampleDns (py " S1._domainkey.Example.org. ")) := by
  have hqueried : dohQueries sampleDns (py " S1._domainkey.Example.org. ") ≠ [] :=
    (dohQueries_ne_nil _ _).2 (by decide +kernel)
  refine ⟨hqueried,
    (dohQueries_dkimName_iff sampleDns (fun s c hc => ?_) _).2 (fun _ => ?_) hqueried⟩
  · obtain ⟨d, -, rfl⟩ := List.mem_map.1 hc
    exact lowerAsciiChar_no_capital d
  · have hall : ((normalize sampleDns (py " S1._domainkey.Example.org. ")).all
        fun c => c.val < 0x80) = true := by decide +kernel
    intro c hc
    simpa using List.all_eq_true.1 hall c hc

/-- A selector that is a long s is forwarded. -/
theorem dohQueries_long_s :
    ¬ ∀ name, dohQueries sampleDns name ≠ [] → DkimName (normalize sampleDns name) := by
  intro h
  have hqueried : dohQueries sampleDns ((0x17F : PyChar) :: py "._domainkey.example.org") ≠ [] :=
    (dohQueries_ne_nil _ _).2 (by decide +kernel)
  have hascii := ascii_of_dkimName (h _ hqueried) 0x17F (by decide +kernel)
  revert hascii
  decide

end Resolver

end MailGate
