import MailGate.Lib.Asking
import MailGate.Lib.Exceptions
import MailGate.Mail.Attribution
import MailGate.Mail.Names

/-!
# The DNS budget

`verify_dkim` as a program that asks the resolver: every call of `resolve_txt` is a question,
with its number and its name.  The verifier of the package calls `dnsfunc` as it likes, but one
budget stands behind all of its calls, so the program asks few questions, and only for DKIM
names.
-/

namespace MailGate

/-! ## The questions -/

/-- A program that asks the resolver. -/
abbrev DnsAsking (α : Type) : Type := Asking (ℕ × PyStr) DnsAnswer α

/-- The answers of a resolver. -/
def DnsTxtResolver.answer (resolver : DnsTxtResolver) (question : ℕ × PyStr) : DnsAnswer :=
  resolver.resolveTxt question.1 question.2

/-- `_DnsBudget.lookup`, with the call of the resolver as a question. -/
def DnsBudget.lookupAsking (timeLeft : ℕ → Bool) (budget : DnsBudget) (name : Bytes) :
    DnsAsking (Except DkimExn (Option Bytes) × DnsBudget) :=
  let queries := budget.queries + 1
  let refuse (temporary : Bool) : Except DkimExn (Option Bytes) × DnsBudget :=
    (.ok none, { queries := queries, lastError := some temporary })
  if queries > maxDnsQueries then .done (refuse false)
  else if !timeLeft queries then .done (refuse true)
  else
    match decodeName name with
    | none => .done (refuse false)
    | some decoded =>
        if !matchesDkimQuery decoded then .done (refuse false)
        else .ask (queries, decoded) fun answer => .done <|
          match answer with
          | .raised exn => (.error exn, { budget with queries := queries })
          | .resolutionError temporary => refuse temporary
          | .nonBytes => refuse false
          | .value none => (.ok none, { budget with queries := queries })
          | .value (some value) =>
              if value.length > maxDnsTxtBytes then refuse false
              else (.ok (some value), { budget with queries := queries })

/-- One call of `verify`. -/
def VerifyCall.asking (timeLeft : ℕ → Bool) :
    VerifyCall → DnsBudget → DnsAsking (Except DkimExn Bool × DnsBudget)
  | done valid, budget => .done (valid, budget)
  | lookup name next, budget =>
      (budget.lookupAsking timeLeft name).bind fun p => (next p.1).asking timeLeft p.2

section

variable (lib : Library) (timeLeft : ℕ → Bool) (raw : Bytes)

/-- The loop over the signatures. -/
def verifySignaturesAsking :
    ℕ → List DkimSignature → DnsBudget → DnsAsking (Except MailExn (List DkimSignature))
  | _, [], _ => .done (.ok [])
  | index, signature :: rest, budget =>
      if signature.result ≠ [] then
        (verifySignaturesAsking (index + 1) rest budget).bindOk fun rest =>
          .done (.ok (signature :: rest))
      else
        ((lib.dkimVerify raw index).asking timeLeft { budget with lastError := none }).bind
          fun p =>
            match signatureResult p.1 p.2 with
            | .error e => .done (.error e)
            | .ok result =>
                (verifySignaturesAsking (index + 1) rest p.2).bindOk fun rest =>
                  .done (.ok ({ signature with result := result } :: rest))

/-- `verify_dkim`. -/
def verifyDkimAsking : DnsAsking (Except MailExn DkimVerdict) :=
  match signatureMetadata lib raw with
  | .error e => .done (.error e)
  | .ok signatures =>
      if signatures = [] then
        .done (.ok { result := py "none", signatures := [], reason := none })
      else if signatures.length > maxDkimSignatures then
        .done (.ok {
          result := py "permerror"
          signatures := signatures.take maxDkimSignatures
          reason := some (py "too_many_signatures") })
      else
        match lib.dkimConstruct raw with
        | .error _ => .done (.error .other)
        | .ok _ =>
            (verifySignaturesAsking lib timeLeft raw 0 signatures {}).bindOk fun signatures =>
              .done (.ok {
                result := overallResult signatures, signatures := signatures, reason := none })

end

section

variable {lib : Library} {resolver : DnsTxtResolver} {raw : Bytes}

/-! ## The program is `verify_dkim` -/

lemma lookupAsking_run (budget : DnsBudget) (name : Bytes) :
    (budget.lookupAsking resolver.timeLeft name).run resolver.answer =
      budget.lookup resolver name := by
  rw [DnsBudget.lookupAsking, DnsBudget.lookup]
  dsimp only
  split
  · rfl
  split
  · rfl
  cases decodeName name with
  | none => rfl
  | some decoded =>
    dsimp only
    split
    · rfl
    · exact Asking.run_ask _ _

lemma asking_run (call : VerifyCall) (budget : DnsBudget) :
    (call.asking resolver.timeLeft budget).run resolver.answer = call.run resolver budget := by
  induction call generalizing budget with
  | done valid => rfl
  | lookup name next ih =>
    rw [VerifyCall.asking, Asking.run_bind, lookupAsking_run, VerifyCall.run]
    exact ih _ _

lemma verifySignaturesAsking_run (index : ℕ) (signatures : List DkimSignature)
    (budget : DnsBudget) :
    (verifySignaturesAsking lib resolver.timeLeft raw index signatures budget).run
        resolver.answer =
      verifySignatures lib resolver raw index signatures budget := by
  induction signatures generalizing index budget with
  | nil => rfl
  | cons signature rest ih =>
    rw [verifySignaturesAsking, verifySignatures]
    split
    · rw [Asking.run_bindOk, ih]
      rfl
    · rw [Asking.run_bind, asking_run]
      obtain ⟨valid, budget'⟩ :=
        (lib.dkimVerify raw index).run resolver { budget with lastError := none }
      dsimp only
      cases signatureResult valid budget' with
      | error e => rfl
      | ok result =>
        rw [Exceptions.ok_bind, Asking.run_bindOk, ih]
        rfl

/-- Answered by the resolver, the program does what `verify_dkim` does. -/
theorem verifyDkimAsking_run (lib : Library) (resolver : DnsTxtResolver) (raw : Bytes) :
    (verifyDkimAsking lib resolver.timeLeft raw).run resolver.answer =
      verifyDkim lib resolver raw := by
  rw [verifyDkimAsking, verifyDkim]
  cases signatureMetadata lib raw with
  | error e => rfl
  | ok signatures =>
    rw [Exceptions.ok_bind]
    dsimp only
    split
    · rfl
    split
    · rfl
    cases lib.dkimConstruct raw with
    | error e => rfl
    | ok construct =>
      dsimp only
      rw [Asking.run_bindOk, verifySignaturesAsking_run]
      rfl

/-- The calls of the resolver in one verification. -/
def resolverCalls (lib : Library) (resolver : DnsTxtResolver) (raw : Bytes) : List (ℕ × PyStr) :=
  (verifyDkimAsking lib resolver.timeLeft raw).questions resolver.answer

/-- What the resolver would say to other questions does not matter. -/
theorem verifyDkim_congr {resolver' : DnsTxtResolver}
    (htime : resolver'.timeLeft = resolver.timeLeft)
    (hcalls : ∀ call ∈ resolverCalls lib resolver raw,
      resolver'.resolveTxt call.1 call.2 = resolver.resolveTxt call.1 call.2) :
    verifyDkim lib resolver' raw = verifyDkim lib resolver raw := by
  rw [← verifyDkimAsking_run, ← verifyDkimAsking_run, htime]
  exact Asking.run_congr hcalls

/-! ## The bound -/

/-- A question that the budget lets through. -/
def AllowedQuestion (question : ℕ × PyStr) : Prop :=
  DkimName question.2 ∧ ∀ c ∈ question.2, c.val < 0x80 ∧ ¬(0x41 ≤ c.val ∧ c.val ≤ 0x5A)

/-- The queries that a budget still allows. -/
def DnsBudget.left (budget : DnsBudget) : ℕ := maxDnsQueries - budget.queries

lemma lookupAsking_within (timeLeft : ℕ → Bool) (budget : DnsBudget) (name : Bytes) :
    (budget.lookupAsking timeLeft name).Within AllowedQuestion (fun p => p.2.left)
      budget.left := by
  -- every way out has counted the query
  have hrefuse : ∀ temporary : Bool, (Asking.done (.ok none,
      { queries := budget.queries + 1, lastError := some temporary }) :
        DnsAsking (Except DkimExn (Option Bytes) × DnsBudget)).Within AllowedQuestion
          (fun p => p.2.left) budget.left :=
    fun _ => Nat.sub_le_sub_left (Nat.le_succ _) _
  rw [DnsBudget.lookupAsking]
  dsimp only
  split
  · exact hrefuse false
  split
  · exact hrefuse true
  cases hname : decodeName name with
  | none => exact hrefuse false
  | some decoded =>
    dsimp only
    split
    · exact hrefuse false
    rename_i hqueries _ hquery
    refine ⟨⟨dkimName_of_matchesDkimQuery (getLast?_ne_dot hname) (by simpa using hquery),
      (decodeName_spec hname).1⟩, ?_, fun answer => ?_⟩
    · rw [DnsBudget.left]
      omega
    · have hleft : maxDnsQueries - (budget.queries + 1) ≤ budget.left - 1 := by
        rw [DnsBudget.left]
        omega
      show DnsBudget.left (Prod.snd _) ≤ budget.left - 1
      split
      · exact hleft
      · exact hleft
      · exact hleft
      · exact hleft
      · split
        · exact hleft
        · exact hleft

lemma asking_within (timeLeft : ℕ → Bool) (call : VerifyCall) (budget : DnsBudget) :
    (call.asking timeLeft budget).Within AllowedQuestion (fun p => p.2.left) budget.left := by
  induction call generalizing budget with
  | done valid => exact le_refl budget.left
  | lookup name next ih =>
    exact (lookupAsking_within timeLeft budget name).bind fun p => ih p.1 p.2

lemma verifySignaturesAsking_within (timeLeft : ℕ → Bool) (index : ℕ)
    (signatures : List DkimSignature) (budget : DnsBudget) :
    (verifySignaturesAsking lib timeLeft raw index signatures budget).Within AllowedQuestion
      (Asking.leftOk fun _ => 0) budget.left := by
  induction signatures generalizing index budget with
  | nil => exact Nat.zero_le _
  | cons signature rest ih =>
    rw [verifySignaturesAsking]
    split
    · exact (ih (index + 1) budget).bindOk fun _ => Nat.zero_le _
    · -- only the last error is reset between two signatures, the count goes on
      have hcall := asking_within timeLeft (lib.dkimVerify raw index)
        { budget with lastError := none }
      refine hcall.bind fun p => ?_
      cases signatureResult p.1 p.2 with
      | error e => exact Nat.zero_le _
      | ok result => exact (ih (index + 1) p.2).bindOk fun _ => Nat.zero_le _

lemma verifyDkimAsking_within (lib : Library) (timeLeft : ℕ → Bool) (raw : Bytes) :
    (verifyDkimAsking lib timeLeft raw).Within AllowedQuestion
      (Asking.leftOk fun _ => 0) maxDnsQueries := by
  rw [verifyDkimAsking]
  cases signatureMetadata lib raw with
  | error e => exact Nat.zero_le _
  | ok signatures =>
    dsimp only
    split
    · exact Nat.zero_le _
    split
    · exact Nat.zero_le _
    cases lib.dkimConstruct raw with
    | error e => exact Nat.zero_le _
    | ok construct =>
      exact (verifySignaturesAsking_within timeLeft 0 signatures {}).bindOk fun _ => Nat.zero_le _

end

end MailGate
