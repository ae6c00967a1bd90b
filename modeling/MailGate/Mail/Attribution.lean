import MailGate.Lib.Exceptions
import MailGate.Mail.Authentication

/-!
# Whose signature is it

`verify_dkim` names a signature by the header that `email.parser` finds at an index, and lets
`dkim.DKIM` verify the header that it finds at the same index.  Here is when the two are
bound to be signatures of the same domain.
-/

namespace MailGate

/-- The tags `d=` and `s=` of a `DKIM-Signature` header. -/
structure SignatureTags where
  domain : PyStr
  selector : PyStr
deriving DecidableEq, Repr

/-- The signature is reported under these tags, up to the length limits. -/
def SignatureTags.Reported (tags : SignatureTags) (signature : DkimSignature) : Prop :=
  signature.domain = tags.domain.take 253 ∧ signature.selector = tags.selector.take 63

/-- Every signature that is reported as passed is reported under the tags of the header that
the verifier finds at its index. -/
def Attributed (reading : List SignatureTags) (verdict : DkimVerdict) : Prop :=
  ∀ (i : ℕ) (signature : DkimSignature), verdict.signatures[i]? = some signature →
    signature.result = py "pass" → ∃ tags : SignatureTags, reading[i]? = some tags ∧
      tags.Reported signature

section

variable {lib : Library} {resolver : DnsTxtResolver} {raw : Bytes}

/-! ## The loop -/

/-- The call of `verify` for the signature at an index, when the loop comes to it with this
budget. -/
def verifyAt (lib : Library) (resolver : DnsTxtResolver) (raw : Bytes) (index : ℕ)
    (budget : DnsBudget) : Except DkimExn Bool × DnsBudget :=
  (lib.dkimVerify raw index).run resolver { budget with lastError := none }

/-- The budget after the loop over some signatures. -/
def budgetAfter (lib : Library) (resolver : DnsTxtResolver) (raw : Bytes) :
    ℕ → List DkimSignature → DnsBudget → DnsBudget
  | _, [], budget => budget
  | index, signature :: rest, budget =>
      budgetAfter lib resolver raw (index + 1) rest
        (if signature.result ≠ [] then budget else (verifyAt lib resolver raw index budget).2)

/-- How the loop comes to what it reports of a signature: it keeps one that has a result, and
gives the others the result of one call of `verify`. -/
def DecidedBy (lib : Library) (resolver : DnsTxtResolver) (raw : Bytes) (index : ℕ)
    (budget : DnsBudget) (signature reported : DkimSignature) : Prop :=
  signature.result ≠ [] ∧ reported = signature ∨
    signature.result = [] ∧ ∃ result,
      signatureResult (verifyAt lib resolver raw index budget).1
          (verifyAt lib resolver raw index budget).2 = .ok result ∧
        reported = { signature with result := result }

/-- One round of the loop. -/
lemma verifySignatures_cons {signature : DkimSignature} (h : signature.result = []) (index : ℕ)
    (rest : List DkimSignature) (budget : DnsBudget) :
    verifySignatures lib resolver raw index (signature :: rest) budget =
      (signatureResult (verifyAt lib resolver raw index budget).1
          (verifyAt lib resolver raw index budget).2).bind fun result =>
        (verifySignatures lib resolver raw (index + 1) rest
            (verifyAt lib resolver raw index budget).2).bind fun rest =>
          .ok ({ signature with result := result } :: rest) := by
  rw [verifySignatures, if_neg (not_not.2 h)]
  rfl

/-- What the loop makes of one signature, with the budget that it has then. -/
lemma verifySignatures_getElem {index : ℕ} {signatures out : List DkimSignature}
    {budget : DnsBudget}
    (h : verifySignatures lib resolver raw index signatures budget = .ok out) {i : ℕ}
    {reported : DkimSignature} (hreported : out[i]? = some reported) :
    ∃ signature, signatures[i]? = some signature ∧
      DecidedBy lib resolver raw (index + i)
        (budgetAfter lib resolver raw index (signatures.take i) budget) signature reported := by
  induction signatures generalizing index out budget i with
  | nil =>
    cases h
    simp at hreported
  | cons signature rest ih =>
    by_cases hresult : signature.result = []
    · rw [verifySignatures_cons hresult] at h
      obtain ⟨result, hres, h⟩ := Exceptions.bind_eq_ok.1 h
      obtain ⟨out', hout', hout⟩ := Exceptions.bind_eq_ok.1 h
      obtain rfl := Except.ok.inj hout
      cases i with
      | zero =>
        exact ⟨signature, rfl, .inr ⟨hresult, result, hres, (Option.some.inj hreported).symm⟩⟩
      | succ i =>
        rw [show index + (i + 1) = index + 1 + i by omega, List.take_succ_cons, budgetAfter,
          if_neg (not_not.2 hresult)]
        exact ih hout' hreported
    · rw [verifySignatures, if_pos hresult] at h
      obtain ⟨out', hout', hout⟩ := Exceptions.bind_eq_ok.1 h
      obtain rfl := Except.ok.inj hout
      cases i with
      | zero => exact ⟨signature, rfl, .inl ⟨hresult, (Option.some.inj hreported).symm⟩⟩
      | succ i =>
        rw [show index + (i + 1) = index + 1 + i by omega, List.take_succ_cons, budgetAfter,
          if_pos hresult]
        exact ih hout' hreported

/-- Only a verifier that has returned true makes a signature pass. -/
lemma signatureResult_eq_pass {valid : Except DkimExn Bool} {budget : DnsBudget}
    (h : signatureResult valid budget = .ok (py "pass")) : valid = .ok true := by
  have hothers : py "fail" ≠ py "pass" ∧ py "permerror" ≠ py "pass" ∧
      py "temperror" ≠ py "pass" := by
    decide
  rw [signatureResult.eq_def] at h
  split at h
  · exact absurd (Except.ok.inj h) hothers.1
  · cases h
  · exact absurd (Except.ok.inj h) hothers.2.1
  · rfl
  · split at h
    · exact absurd (Except.ok.inj h) hothers.2.2
    · exact absurd (Except.ok.inj h) hothers.2.1
    · exact absurd (Except.ok.inj h) hothers.1

variable (resolver) in
/-- A verifier that decides at once, and which of the signatures pass then. -/
lemma verifySignatures_decided (decides : ℕ → Bool)
    (hverify : ∀ i, lib.dkimVerify raw i = .done (.ok (decides i))) (index : ℕ)
    (signatures : List DkimSignature) (budget : DnsBudget) :
    ∃ out, verifySignatures lib resolver raw index signatures budget = .ok out ∧
      ∀ (i : ℕ) (signature : DkimSignature), signatures[i]? = some signature →
        signature.result = [] → decides (index + i) = true →
          out[i]? = some { signature with result := py "pass" } := by
  induction signatures generalizing index budget with
  | nil => exact ⟨[], rfl, by simp⟩
  | cons signature rest ih =>
    by_cases hresult : signature.result = []
    -- a signature without a result yet is verified, with no error of the resolver
    · obtain ⟨result, hres, hpass⟩ : ∃ result,
          signatureResult (.ok (decides index)) { budget with lastError := none } = .ok result ∧
            (decides index = true → result = py "pass") := by
        cases decides index with
        | true => exact ⟨_, rfl, fun _ => rfl⟩
        | false => exact ⟨_, rfl, by simp⟩
      obtain ⟨out, hout, hspec⟩ := ih (index + 1) { budget with lastError := none }
      refine ⟨{ signature with result := result } :: out, ?_, ?_⟩
      · rw [verifySignatures_cons hresult, verifyAt, hverify, VerifyCall.run, hres]
        show (verifySignatures lib resolver raw (index + 1) rest _).bind _ = _
        rw [hout]
        rfl
      · intro i signature' hi hnone hdecides
        cases i with
        | zero =>
          obtain rfl : signature = signature' := by simpa using hi
          rw [← hpass hdecides]
          rfl
        | succ i =>
          rw [show index + (i + 1) = index + 1 + i by omega] at hdecides
          simpa using hspec i signature' (by simpa using hi) hnone hdecides
    · obtain ⟨out, hout, hspec⟩ := ih (index + 1) budget
      refine ⟨signature :: out, ?_, ?_⟩
      · rw [verifySignatures, if_pos hresult, hout]
        rfl
      · intro i signature' hi hnone hdecides
        cases i with
        | zero =>
          obtain rfl : signature = signature' := by simpa using hi
          exact absurd hnone hresult
        | succ i =>
          rw [show index + (i + 1) = index + 1 + i by omega] at hdecides
          simpa using hspec i signature' (by simpa using hi) hnone hdecides

/-- The metadata of a signature never say that it passed. -/
lemma signatureMetadata_ne_pass {signatures : List DkimSignature}
    (h : signatureMetadata lib raw = .ok signatures) : ∀ signature ∈ signatures,
      signature.result ≠ py "pass" := by
  rw [signatureMetadata, Exceptions.bind_eq_ok] at h
  obtain ⟨message, -, h⟩ := h
  obtain ⟨values, -, h⟩ := Exceptions.bind_eq_ok.1 h
  obtain rfl := Except.ok.inj h
  intro signature hsignature
  obtain ⟨value, -, rfl⟩ := List.mem_map.1 hsignature
  simp only [signatureOf]
  split
  · decide
  · decide

end

/-! ## Attribution -/

/-- Every signature that has both tags, and each once, has the tags of the header at its index
in the reading of the verifier. -/
def ReadAlike (lib : Library) (reading : List SignatureTags) (raw : Bytes) : Prop :=
  lib.dkimConstruct raw = .ok () → ∀ signatures, signatureMetadata lib raw = .ok signatures →
    signatures.length ≤ maxDkimSignatures →
      ∀ (i : ℕ) (signature : DkimSignature) (tags : SignatureTags),
        signatures[i]? = some signature →
        signature.result = [] → reading[i]? = some tags → tags.Reported signature

/-- The library with another verifier, which finds no more headers than there are in the
reading. -/
def Verifies (lib : Library) (reading : List SignatureTags) (raw : Bytes) : Prop :=
  ∀ i, reading.length ≤ i → lib.dkimVerify raw i = .done (.ok false)

section

variable {lib : Library} {reading : List SignatureTags} {raw : Bytes}

/-- What passes is a signature at the index of a header that the verifier finds. -/
lemma ReadAlike.attributed (h : ReadAlike lib reading raw) (hverify : Verifies lib reading raw)
    {resolver : DnsTxtResolver} {verdict : DkimVerdict}
    (hverdict : verifyDkim lib resolver raw = .ok verdict) : Attributed reading verdict := by
  intro i o ho hpass
  rw [verifyDkim, Exceptions.bind_eq_ok] at hverdict
  obtain ⟨signatures, hmetadata, hverdict⟩ := hverdict
  split at hverdict
  · cases hverdict
    simp at ho
  split at hverdict
  · cases hverdict
    have hmem := List.mem_of_mem_take (List.mem_of_getElem? ho)
    exact absurd hpass (signatureMetadata_ne_pass hmetadata o hmem)
  rename_i hfew
  split at hverdict
  · cases hverdict
  rename_i hconstruct
  obtain ⟨out, hout, hverdict⟩ := Exceptions.bind_eq_ok.1 hverdict
  cases hverdict
  obtain ⟨signature, hsignature, hdecided⟩ := verifySignatures_getElem hout ho
  rcases hdecided with ⟨-, rfl⟩ | ⟨hresult, result, hres, rfl⟩
  · exact absurd hpass (signatureMetadata_ne_pass hmetadata o (List.mem_of_getElem? hsignature))
  · obtain rfl : result = py "pass" := hpass
    have hfound : i < reading.length := by
      by_contra hmissing
      have hvalid := signatureResult_eq_pass hres
      rw [verifyAt, Nat.zero_add, hverify i (by omega), VerifyCall.run] at hvalid
      cases hvalid
    exact ⟨reading[i], List.getElem?_eq_getElem hfound, h hconstruct signatures hmetadata (by omega)
      i signature _ hsignature hresult (List.getElem?_eq_getElem hfound)⟩

/-- A verifier that accepts one header alone passes the signature at its index. -/
lemma verdict_of_accepting {signatures : List DkimSignature} {i : ℕ}
    (hverify : ∀ j, lib.dkimVerify raw j = .done (.ok (decide (j = i))))
    (hconstruct : lib.dkimConstruct raw = .ok ())
    (hmetadata : signatureMetadata lib raw = .ok signatures)
    (hfew : signatures.length ≤ maxDkimSignatures) {signature : DkimSignature}
    (hsignature : signatures[i]? = some signature) (hresult : signature.result = [])
    (resolver : DnsTxtResolver) : ∃ verdict, verifyDkim lib resolver raw = .ok verdict ∧
      verdict.signatures[i]? = some { signature with result := py "pass" } := by
  obtain ⟨out, hout, hspec⟩ := verifySignatures_decided resolver _ hverify 0 signatures {}
  have hne : signatures ≠ [] := by
    rintro rfl
    simp at hsignature
  refine ⟨{ result := overallResult out, signatures := out, reason := none }, ?_, ?_⟩
  · rw [verifyDkim, hmetadata, Exceptions.ok_bind, if_neg hne, if_neg (by omega)]
    simp only [hconstruct, hout, Exceptions.ok_bind]
    rfl
  · exact hspec i signature hsignature hresult (by simp)

end

/-- Whatever the verifier accepts among the headers that it finds, the signatures are reported
under the tags of the headers that were verified: exactly when both read alike. -/
theorem attributed_iff (lib : Library) (reading : List SignatureTags) (raw : Bytes) :
    (∀ verify : ℕ → VerifyCall,
      Verifies { lib with dkimVerify := fun _ i => verify i } reading raw →
      ∀ resolver verdict, verifyDkim { lib with dkimVerify := fun _ i => verify i } resolver raw =
        .ok verdict → Attributed reading verdict) ↔ ReadAlike lib reading raw := by
  constructor
  · intro h hconstruct signatures hmetadata hfew i signature tags hsignature hresult htags
    have hverify : Verifies { lib with dkimVerify := fun _ j => .done (.ok (decide (j = i))) }
        reading raw := by
      intro j hj
      have hi := (List.getElem?_eq_some_iff.1 htags).1
      show VerifyCall.done (.ok (decide (j = i))) = _
      rw [decide_eq_false (by omega)]
    have haccepting : ∀ j, Library.dkimVerify { lib with
        dkimVerify := fun _ j => .done (.ok (decide (j = i))) } raw j =
          .done (.ok (decide (j = i))) := fun _ => rfl
    obtain ⟨verdict, hverdict, hpass⟩ := verdict_of_accepting haccepting hconstruct hmetadata hfew
      hsignature hresult ⟨fun _ _ => .value none, fun _ => true⟩
    obtain ⟨tags', htags', hreported⟩ := h _ hverify _ _ hverdict i _ hpass rfl
    obtain rfl : tags = tags' := Option.some.inj (htags.symm.trans htags')
    exact hreported
  · intro h verify hverify resolver verdict hverdict
    have h' : ReadAlike { lib with dkimVerify := fun _ i => verify i } reading raw := h
    exact h'.attributed hverify hverdict

/-! ## Line ends -/

namespace Bytes

/-- The rest of a message in lines, which end at LF and CRLF, and where `bareReturn` holds also
at a CR on its own; after a CR or not, with what stands in the line before it. -/
def breakLines (bareReturn : Bool) : Bool → Bytes → Bytes → List Bytes
  | false, line, [] => [line]
  | true, line, [] => if bareReturn then [line, []] else [line ++ [0x0D]]
  | false, line, b :: bs =>
      if b = 0x0A then line :: breakLines bareReturn false [] bs
      else if b = 0x0D then breakLines bareReturn true line bs
      else breakLines bareReturn false (line ++ [b]) bs
  | true, line, b :: bs =>
      if b = 0x0A then line :: breakLines bareReturn false [] bs
      else if bareReturn then
        if b = 0x0D then line :: breakLines bareReturn true [] bs
        else line :: breakLines bareReturn false [b] bs
      else if b = 0x0D then breakLines bareReturn true (line ++ [0x0D]) bs
      else breakLines bareReturn false (line ++ [0x0D, b]) bs

/-- Every CR is followed by a LF, also one that was just read. -/
def noBareReturn : Bool → Bytes → Bool
  | afterReturn, [] => !afterReturn
  | false, b :: bs => noBareReturn (b == 0x0D) bs
  | true, b :: bs => b == 0x0A && noBareReturn false bs

/-- Header lines with their continuation lines. -/
def unfoldLines (header : Bytes) : List Bytes → List Bytes
  | [] => [header]
  | line :: lines =>
      if line.head? = some 0x20 ∨ line.head? = some 0x09 then unfoldLines (header ++ line) lines
      else header :: unfoldLines line lines

/-- The values of the `DKIM-Signature` headers of a message. -/
def signatureValues (bareReturn : Bool) (raw : Bytes) : List Bytes :=
  match (breakLines bareReturn false [] raw).takeWhile (· ≠ []) with
  | [] => []
  | line :: lines =>
      (unfoldLines line lines).filterMap fun header =>
        if (header.takeWhile (· ≠ 0x3A)).map lower = bytes "dkim-signature" then
          some ((header.dropWhile (· ≠ 0x3A)).drop 1)
        else none

/-- Without a CR on its own, both ways to end a line are the same. -/
lemma breakLines_eq {afterReturn : Bool} {bs : Bytes} (h : noBareReturn afterReturn bs = true)
    (line : Bytes) : breakLines true afterReturn line bs =
      breakLines false afterReturn line bs := by
  induction bs generalizing afterReturn line with
  | nil =>
    cases afterReturn with
    | false => rfl
    | true => cases h
  | cons b bs ih =>
    cases afterReturn with
    | false =>
      rw [noBareReturn] at h
      rw [breakLines, breakLines]
      by_cases hline : b = 0x0A
      · subst hline
        rw [if_pos rfl, if_pos rfl, @ih false h]
      by_cases hreturn : b = 0x0D
      · subst hreturn
        rw [if_neg hline, if_pos rfl, if_neg hline, if_pos rfl, @ih true h]
      · rw [beq_eq_false_iff_ne.2 hreturn] at h
        rw [if_neg hline, if_neg hreturn, if_neg hline, if_neg hreturn, ih h]
    | true =>
      simp only [noBareReturn, Bool.and_eq_true, beq_iff_eq] at h
      rw [breakLines, breakLines, if_pos h.1, if_pos h.1, ih h.2]

end Bytes

/-- `email.parser` ends a header line also at a CR on its own, the verifier does not.  In a
message without such a CR the two read alike, as far as they read one header alike. -/
theorem readAlike_of_noBareReturn {lib : Library} {raw : Bytes} {text : Bytes → PyStr}
    {tags : Bytes → SignatureTags}
    (hemail : ∀ signatures, signatureMetadata lib raw = .ok signatures →
      signatures = (Bytes.signatureValues true raw).map fun value => signatureOf lib (text value))
    (hsame : ∀ value ∈ Bytes.signatureValues false raw,
      (signatureOf lib (text value)).result = [] →
        (tags value).Reported (signatureOf lib (text value)))
    (hraw : Bytes.noBareReturn false raw = true) :
    ReadAlike lib ((Bytes.signatureValues false raw).map tags) raw := by
  intro _ signatures hmetadata _ i signature tag hsignature hresult htag
  have hvalues : Bytes.signatureValues true raw = Bytes.signatureValues false raw := by
    rw [Bytes.signatureValues, Bytes.signatureValues, Bytes.breakLines_eq hraw]
  rw [hemail signatures hmetadata, hvalues, List.getElem?_map, Option.map_eq_some_iff] at hsignature
  rw [List.getElem?_map, Option.map_eq_some_iff] at htag
  obtain ⟨value, hvalue, rfl⟩ := hsignature
  obtain ⟨value', hvalue', rfl⟩ := htag
  obtain rfl : value = value' := Option.some.inj (hvalue.symm.trans hvalue')
  exact hsame value (List.mem_of_getElem? hvalue) hresult

/-! ## A header that only one of them sees -/

/-- The text of ASCII bytes. -/
def asciiText (b : Bytes) : PyStr := (Bytes.decodeAscii b).getD []

/-- A library that reads the signatures as `email.parser` does, with a verifier that accepts
every signature that it finds. -/
def returnLibrary : Library :=
  { sampleLibrary blankMessage [] [] with
    parseHeaders := fun raw => .ok { blankMessage with
      getAll := fun _ => .ok ((Bytes.signatureValues true raw).map asciiText) }
    dkimVerify := fun raw i => .done (.ok (decide (i < (Bytes.signatureValues false raw).length))) }

/-- The tags of a header, in the reading of the verifier. -/
def returnTags (value : Bytes) : SignatureTags :=
  ⟨dkimTag returnLibrary (asciiText value) (py "d"),
    dkimTag returnLibrary (asciiText value) (py "s")⟩

/-- A signature of `mallory.example`, after a header that names another one behind a CR. -/
def returnMessage : Bytes :=
  bytes "Subject: hello" ++ [0x0D] ++ bytes "DKIM-Signature: d=bank.example; s=mail\n" ++
    bytes "DKIM-Signature: d=mallory.example; s=key\n\nhello\n"

/-- The signature of `mallory.example` passes as one of `bank.example`. -/
theorem attributed_return : ¬ ∀ (lib : Library) (reading : Bytes → List SignatureTags),
    (∀ raw, Verifies lib (reading raw) raw) → ∀ resolver raw verdict,
      verifyDkim lib resolver raw = .ok verdict → Attributed (reading raw) verdict := by
  intro h
  have hverify : ∀ raw, Verifies returnLibrary ((Bytes.signatureValues false raw).map returnTags)
      raw := by
    intro raw i hi
    rw [List.length_map] at hi
    show VerifyCall.done (.ok (decide (i < _))) = _
    rw [decide_eq_false (by omega)]
  have hrun : ((verifyDkim returnLibrary ⟨fun _ _ => .value none, fun _ => true⟩
      returnMessage).toOption.map (·.signatures)) = some [
        ⟨py "bank.example", py "mail", py "pass"⟩,
        ⟨py "mallory.example", py "key", py "fail"⟩] := by
    decide +kernel
  obtain ⟨verdict, hverdict, hsignatures⟩ := Option.map_eq_some_iff.1 hrun
  have hreading : ((Bytes.signatureValues false returnMessage).map returnTags)[0]? =
      some ⟨py "mallory.example", py "key"⟩ := by
    decide +kernel
  obtain ⟨tags, htags, hdomain, -⟩ := h returnLibrary
    (fun raw => (Bytes.signatureValues false raw).map returnTags) hverify _ returnMessage verdict
    (Exceptions.toOption_eq_some.1 hverdict) 0 _ (by rw [hsignatures]; rfl) rfl
  obtain rfl := Option.some.inj (hreading.symm.trans htags)
  revert hdomain
  decide

end MailGate
