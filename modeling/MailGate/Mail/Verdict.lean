import MailGate.Mail.Budget

/-!
# The verdict of the independent check

What stands behind a pass, and when `verify_dkim` comes to a verdict at all: its constructor call
is outside of the `try`, and with too many signatures it lists some that it has not looked at.
-/

namespace MailGate

section

variable {lib : Library} {resolver : DnsTxtResolver} {raw : Bytes}

/-! ## Behind a pass -/

/-- In the loop of `verify_dkim`, the verifier has accepted the signature in a header with both
tags, each of them once. -/
def Accepted (lib : Library) (resolver : DnsTxtResolver) (raw : Bytes) : Prop :=
  ∃ message values index value,
    lib.parseHeaders raw = .ok message ∧
      message.getAll (py "DKIM-Signature") = .ok values ∧ values[index]? = some value ∧
      (signatureTags lib value).2 = false ∧ dkimTag lib value (py "d") ≠ [] ∧
      dkimTag lib value (py "s") ≠ [] ∧
      (verifyAt lib resolver raw index (budgetAfter lib resolver raw 0
        ((values.take index).map (signatureOf lib)) {})).1 = .ok true

lemma signatureOf_result {value : PyStr} (h : (signatureOf lib value).result = []) :
    (signatureTags lib value).2 = false ∧ dkimTag lib value (py "d") ≠ [] ∧
      dkimTag lib value (py "s") ≠ [] := by
  simp only [signatureOf] at h
  split at h
  · exact absurd h (by decide)
  · rename_i hnone
    simp only [not_or, Bool.not_eq_true] at hnone
    exact hnone

lemma overallResult_eq_pass {signatures : List DkimSignature}
    (h : overallResult signatures = py "pass") : py "pass" ∈ signatures.map (·.result) := by
  rw [overallResult] at h
  split at h
  · assumption
  split at h
  · exact absurd h (by decide)
  split at h
  · exact absurd h (by decide)
  · exact absurd h (by decide)

/-- A pass takes an accepted signature. -/
lemma accepted_of_pass {verdict : DkimVerdict} (h : verifyDkim lib resolver raw = .ok verdict)
    (hpass : verdict.result = py "pass") : Accepted lib resolver raw := by
  rw [verifyDkim, Exceptions.bind_eq_ok] at h
  obtain ⟨signatures, hmetadata, h⟩ := h
  split at h
  · cases h
    exact absurd hpass (by decide)
  split at h
  · cases h
    have hother : py "permerror" ≠ py "pass" := by decide
    exact absurd hpass hother
  split at h
  · cases h
  obtain ⟨out, hout, h⟩ := Exceptions.bind_eq_ok.1 h
  cases h
  obtain ⟨reported, hmem, hreported⟩ := List.mem_map.1 (overallResult_eq_pass hpass)
  obtain ⟨index, hindex⟩ := List.mem_iff_getElem?.1 hmem
  obtain ⟨signature, hsignature, hdecided⟩ := verifySignatures_getElem hout hindex
  rcases hdecided with ⟨-, rfl⟩ | ⟨hresult, result, hres, rfl⟩
  · exact absurd hreported
      (signatureMetadata_ne_pass hmetadata _ (List.mem_of_getElem? hsignature))
  · obtain rfl : result = py "pass" := hreported
    have hvalid := signatureResult_eq_pass hres
    rw [signatureMetadata, Exceptions.bind_eq_ok] at hmetadata
    obtain ⟨message, hmessage, hmetadata⟩ := hmetadata
    obtain ⟨values, hvalues, hmetadata⟩ := Exceptions.bind_eq_ok.1 hmetadata
    obtain rfl := Except.ok.inj hmetadata
    obtain ⟨value, hvalue, rfl⟩ := by simpa [List.getElem?_map] using hsignature
    rw [Nat.zero_add, ← List.map_take] at hvalid
    exact ⟨message, values, index, value, hmessage, hvalues, hvalue,
      (signatureOf_result hresult).1, (signatureOf_result hresult).2.1,
      (signatureOf_result hresult).2.2, hvalid⟩

end

/-- Whatever the verifier does, one verification calls the resolver at most `MAX_DNS_QUERIES`
times and only for DKIM names in lower-case ASCII, and it passes only if the verifier has
accepted a signature with both tags.  The calls are all that the verification learns from the
resolver. -/
theorem verifyDkim_bounded (lib : Library) (resolver : DnsTxtResolver) (raw : Bytes) :
    (∀ resolver' : DnsTxtResolver, resolver'.timeLeft = resolver.timeLeft →
      (∀ call ∈ resolverCalls lib resolver raw,
        resolver'.resolveTxt call.1 call.2 = resolver.resolveTxt call.1 call.2) →
      verifyDkim lib resolver' raw = verifyDkim lib resolver raw) ∧
    (resolverCalls lib resolver raw).length ≤ maxDnsQueries ∧
    (∀ call ∈ resolverCalls lib resolver raw,
      DkimName call.2 ∧ ∀ c ∈ call.2, c.val < 0x80 ∧ ¬(0x41 ≤ c.val ∧ c.val ≤ 0x5A)) ∧
    ∀ verdict, verifyDkim lib resolver raw = .ok verdict → verdict.result = py "pass" →
      Accepted lib resolver raw := by
  obtain ⟨hlength, hallowed⟩ :=
    (verifyDkimAsking_within lib resolver.timeLeft raw).questions resolver.answer
  exact ⟨fun resolver' htime hcalls => verifyDkim_congr htime hcalls,
    le_trans (Nat.le_add_right _ _) hlength, hallowed,
    fun verdict h hpass => accepted_of_pass h hpass⟩

/-! ## Coming to a verdict -/

/-- The verifier raises nothing but what its package documents, whatever its `dnsfunc` returns. -/
def VerifyCall.Documented : VerifyCall → Prop
  | done valid => valid ≠ .error .other
  | lookup _ next => ∀ answer, (next (.ok answer)).Documented

/-- The resolver returns, or raises `DnsResolutionError`. -/
def DnsTxtResolver.Documented (resolver : DnsTxtResolver) : Prop :=
  ∀ number name exn, resolver.resolveTxt number name ≠ .raised exn

/-- The results of a signature. -/
def signatureResults : List PyStr := ["pass", "fail", "temperror", "permerror"].map py

/-- A verdict with known results. -/
structure ClosedVerdict (verdict : DkimVerdict) : Prop where
  result : verdict.result ∈ ["none", "pass", "temperror", "permerror", "fail"].map py
  signatures : ∀ signature ∈ verdict.signatures, signature.result ∈ signatureResults

/-- The headers can be read, and there is no signature, or there are too many and those that are
listed lack a tag or have one twice, or the constructor takes the message. -/
def Verifiable (lib : Library) (raw : Bytes) : Prop :=
  ∃ signatures, signatureMetadata lib raw = .ok signatures ∧
    (signatures = [] ∨
      (maxDkimSignatures < signatures.length ∧
        ∀ signature ∈ signatures.take maxDkimSignatures, signature.result ≠ []) ∨
      (signatures.length ≤ maxDkimSignatures ∧ (lib.dkimConstruct raw).isOk = true))

section

variable {lib : Library} {resolver : DnsTxtResolver} {raw : Bytes}

lemma lookup_documented (hresolver : resolver.Documented) (budget : DnsBudget) (name : Bytes) :
    ∃ answer budget', budget.lookup resolver name = (.ok answer, budget') := by
  rw [DnsBudget.lookup]
  dsimp only
  split
  · exact ⟨_, _, rfl⟩
  split
  · exact ⟨_, _, rfl⟩
  cases decodeName name with
  | none => exact ⟨_, _, rfl⟩
  | some decoded =>
    dsimp only
    split
    · exact ⟨_, _, rfl⟩
    cases hanswer : resolver.resolveTxt (budget.queries + 1) decoded with
    | raised exn => exact absurd hanswer (hresolver _ _ exn)
    | resolutionError temporary => exact ⟨_, _, rfl⟩
    | nonBytes => exact ⟨_, _, rfl⟩
    | value txt =>
      cases txt with
      | none => exact ⟨_, _, rfl⟩
      | some value =>
        dsimp only
        split
        · exact ⟨_, _, rfl⟩
        · exact ⟨_, _, rfl⟩

lemma run_documented (hresolver : resolver.Documented) {call : VerifyCall} (h : call.Documented)
    (budget : DnsBudget) :
    (call.run resolver budget).1 ≠ .error .other := by
  induction call generalizing budget with
  | done valid => exact h
  | lookup name next ih =>
    obtain ⟨answer, budget', hp⟩ := lookup_documented hresolver budget name
    rw [VerifyCall.run, hp]
    exact ih (.ok answer) (h answer) budget'

lemma signatureResult_documented {valid : Except DkimExn Bool} (h : valid ≠ .error .other)
    (budget : DnsBudget) :
    ∃ result ∈ signatureResults, signatureResult valid budget = .ok result := by
  rw [signatureResult.eq_def]
  split
  · exact ⟨_, by decide, rfl⟩
  · exact absurd rfl h
  · exact ⟨_, by decide, rfl⟩
  · exact ⟨_, by decide, rfl⟩
  · split
    · exact ⟨_, by decide, rfl⟩
    · exact ⟨_, by decide, rfl⟩
    · exact ⟨_, by decide, rfl⟩

/-- The loop comes to an end, and gives a result to every signature without one. -/
lemma verifySignatures_documented (hresolver : resolver.Documented)
    (hverify : ∀ index, (lib.dkimVerify raw index).Documented) (index : ℕ)
    {signatures : List DkimSignature}
    (hsignatures : ∀ s ∈ signatures, s.result ≠ [] → s.result ∈ signatureResults)
    (budget : DnsBudget) :
    ∃ out, verifySignatures lib resolver raw index signatures budget = .ok out ∧
      ∀ s ∈ out, s.result ∈ signatureResults := by
  induction signatures generalizing index budget with
  | nil => exact ⟨[], rfl, by simp⟩
  | cons signature rest ih =>
    rw [List.forall_mem_cons] at hsignatures
    by_cases hnone : signature.result = []
    · have hvalid : (verifyAt lib resolver raw index budget).1 ≠ .error .other :=
        run_documented hresolver (hverify index) { budget with lastError := none }
      obtain ⟨result, hmem, hresult⟩ :=
        signatureResult_documented hvalid (verifyAt lib resolver raw index budget).2
      obtain ⟨out, hout, hspec⟩ :=
        ih (index + 1) hsignatures.2 (verifyAt lib resolver raw index budget).2
      refine ⟨{ signature with result := result } :: out, ?_, List.forall_mem_cons.2 ⟨hmem, hspec⟩⟩
      rw [verifySignatures_cons hnone, hresult, hout]
      rfl
    · -- a signature that already has a result is not verified and spends nothing
      obtain ⟨out, hout, hspec⟩ := ih (index + 1) hsignatures.2 budget
      refine ⟨signature :: out, ?_, List.forall_mem_cons.2 ⟨hsignatures.1 hnone, hspec⟩⟩
      rw [verifySignatures, if_pos hnone, hout]
      rfl

lemma overallResult_mem (signatures : List DkimSignature) :
    overallResult signatures ∈ ["none", "pass", "temperror", "permerror", "fail"].map py := by
  rw [overallResult]
  split
  · decide
  split
  · decide
  split
  · decide
  · decide

/-- The metadata give a signature the result `permerror` or none. -/
lemma signatureMetadata_result {signatures : List DkimSignature}
    (h : signatureMetadata lib raw = .ok signatures) :
    ∀ s ∈ signatures, s.result ≠ [] → s.result ∈ signatureResults := by
  rw [signatureMetadata, Exceptions.bind_eq_ok] at h
  obtain ⟨message, -, h⟩ := h
  obtain ⟨values, -, h⟩ := Exceptions.bind_eq_ok.1 h
  obtain rfl := Except.ok.inj h
  intro s hs hresult
  obtain ⟨value, -, rfl⟩ := List.mem_map.1 hs
  simp only [signatureOf] at hresult ⊢
  split
  · decide
  · rename_i hnone
    rw [if_neg hnone] at hresult
    exact absurd rfl hresult

end

/-- With a resolver and a verifier that raise what they document, `verify_dkim` comes to a
verdict with known results exactly if the message is verifiable. -/
theorem verifyDkim_closed_iff (lib : Library) (resolver : DnsTxtResolver) (raw : Bytes)
    (hresolver : resolver.Documented) (hverify : ∀ index, (lib.dkimVerify raw index).Documented) :
    (∃ verdict, verifyDkim lib resolver raw = .ok verdict ∧ ClosedVerdict verdict) ↔
      Verifiable lib raw := by
  constructor
  · rintro ⟨verdict, h, hclosed⟩
    rw [verifyDkim, Exceptions.bind_eq_ok] at h
    obtain ⟨signatures, hmetadata, h⟩ := h
    refine ⟨signatures, hmetadata, ?_⟩
    split at h
    · exact .inl ‹_›
    split at h
    · -- too many signatures: the list is returned as the metadata have it
      rename_i hmany
      cases h
      refine .inr (.inl ⟨hmany, fun signature hsignature hnone => ?_⟩)
      have hresult := hclosed.signatures signature hsignature
      rw [hnone] at hresult
      revert hresult
      decide
    rename_i hfew
    split at h
    · -- the constructor stands outside the `try`, so its exception is no verdict
      cases h
    · rename_i hconstruct
      exact .inr (.inr ⟨by omega, by rw [hconstruct]; rfl⟩)
  · rintro ⟨signatures, hmetadata, hcases⟩
    rw [verifyDkim, hmetadata, Exceptions.ok_bind]
    by_cases hnil : signatures = []
    · rw [if_pos hnil]
      exact ⟨_, rfl, by decide, by simp⟩
    rw [if_neg hnil]
    by_cases hmany : signatures.length > maxDkimSignatures
    · rw [if_pos hmany]
      have hresult :
          py "permerror" ∈ ["none", "pass", "temperror", "permerror", "fail"].map py := by
        decide
      refine ⟨_, rfl, hresult, fun signature hsignature => ?_⟩
      obtain ⟨-, hlisted⟩ : _ ∧ ∀ s ∈ signatures.take maxDkimSignatures, s.result ≠ [] := by
        rcases hcases with h | h | ⟨h, -⟩
        · exact absurd h hnil
        · exact h
        · omega
      exact signatureMetadata_result hmetadata signature (List.mem_of_mem_take hsignature)
        (hlisted signature hsignature)
    · rw [if_neg hmany]
      obtain ⟨-, hok⟩ : _ ∧ (lib.dkimConstruct raw).isOk = true := by
        rcases hcases with h | ⟨h, -⟩ | h
        · exact absurd h hnil
        · omega
        · exact h
      obtain ⟨construct, hconstruct⟩ := Exceptions.exists_of_isOk hok
      obtain ⟨out, hout, hspec⟩ := verifySignatures_documented hresolver hverify 0
        (signatureMetadata_result hmetadata) {}
      rw [hconstruct]
      dsimp only
      rw [hout, Exceptions.ok_bind]
      exact ⟨_, rfl, overallResult_mem out, hspec⟩

/-- A signed message with a line that is no header. -/
def malformedMessage : Bytes :=
  bytes "DKIM-Signature: d=a.example; s=b\nno header\n\n"

/-- A library whose constructor refuses that message. -/
def strictLibrary : Library :=
  { returnLibrary with
    dkimConstruct := fun raw => if raw = malformedMessage then .error .dkim else .ok () }

/-- A resolver that finds nothing. -/
def emptyResolver : DnsTxtResolver := ⟨fun _ _ => .value none, fun _ => true⟩

/-- A message with two signatures gets a verdict. -/
theorem verifyDkim_closed_return :
    ∃ verdict, verifyDkim strictLibrary emptyResolver returnMessage = .ok verdict ∧
      ClosedVerdict verdict := by
  refine (verifyDkim_closed_iff strictLibrary emptyResolver returnMessage
    (fun _ _ _ h => by cases h) (fun _ h => by cases h)).2 ?_
  refine ⟨[⟨py "bank.example", py "mail", []⟩, ⟨py "mallory.example", py "key", []⟩],
    Exceptions.toOption_eq_some.1 (by decide +kernel), .inr (.inr ⟨by decide, by decide +kernel⟩)⟩

/-- The exception of the constructor leaves `verify_dkim`. -/
theorem verifyDkim_malformed :
    ¬ ∀ (lib : Library) (resolver : DnsTxtResolver) (raw : Bytes), resolver.Documented →
      (∀ index, (lib.dkimVerify raw index).Documented) →
      ∃ verdict, verifyDkim lib resolver raw = .ok verdict ∧ ClosedVerdict verdict := by
  intro h
  obtain ⟨verdict, hverdict, -⟩ := h strictLibrary emptyResolver malformedMessage
    (fun _ _ _ h => by cases h) (fun _ h => by cases h)
  have hraised : (verifyDkim strictLibrary emptyResolver malformedMessage).isOk = false := by
    decide +kernel
  rw [hverdict] at hraised
  cases hraised

end MailGate
