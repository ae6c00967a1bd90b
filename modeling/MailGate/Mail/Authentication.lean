import MailGate.Models
import MailGate.Python.Bytes
import MailGate.Python.Library

/-!
# Independent DKIM verification

`authentication.py`: the tags of the DKIM signatures, the DNS budget that stands between the
verifier and the resolver, and `verify_dkim`.
-/

namespace MailGate

/-- `MAX_DKIM_SIGNATURES`. -/
def maxDkimSignatures : ℕ := 5

/-- `MAX_DNS_QUERIES`. -/
def maxDnsQueries : ℕ := 5

/-- `MAX_DNS_TXT_BYTES`. -/
def maxDnsTxtBytes : ℕ := 8192

open PyChar

/-- `[a-z0-9_-]{1,63}`. -/
def isSelectorLabel (l : PyStr) : Bool :=
  1 ≤ l.length && l.length ≤ 63 &&
    l.all fun c => isAlnum c || c == ofChar '_' || c == ofChar '-'

/-- `[a-z0-9](?:[a-z0-9-]{0,61}[a-z0-9])?`. -/
def isDomainLabel (l : PyStr) : Bool :=
  1 ≤ l.length && l.length ≤ 63 && (l.all fun c => isAlnum c || c == ofChar '-') &&
    (l.head?.all isAlnum) && (l.getLast?.all isAlnum)

/-- `DKIM_QUERY_RE.fullmatch` on lower-case text: selector labels, `_domainkey`, and at least
two domain labels, with at most 253 characters before an optional final dot. -/
def matchesDkimQuery (s : PyStr) : Bool :=
  let body := if s.getLast? = some (ofChar '.') then s.dropLast else s
  let labels := body.splitOn (ofChar '.')
  1 ≤ body.length && body.length ≤ 253 &&
    (List.range labels.length).any fun i =>
      1 ≤ i && labels[i]? == some (py "_domainkey") && (labels.take i).all isSelectorLabel &&
        2 ≤ (labels.drop (i + 1)).length && (labels.drop (i + 1)).all isDomainLabel

/-- `_DnsBudget`; `lastError` tells whether the error is temporary. -/
structure DnsBudget where
  queries : ℕ := 0
  lastError : Option Bool := none
deriving DecidableEq, Repr

/-- `name.decode("ascii").lower().rstrip(".")`. -/
def decodeName (name : Bytes) : Option PyStr :=
  if name.all (· < 0x80) then
    some ((name.map fun b => ofChar (Char.ofNat (Bytes.lower b).toNat)).rdropWhile
      (· == ofChar '.'))
  else none

/-- `_DnsBudget.lookup`; the verifier sees an exception of the resolver other than
`DnsResolutionError`. -/
def DnsBudget.lookup (resolver : DnsTxtResolver) (budget : DnsBudget) (name : Bytes) :
    Except DkimExn (Option Bytes) × DnsBudget :=
  let queries := budget.queries + 1
  let refuse (temporary : Bool) : Except DkimExn (Option Bytes) × DnsBudget :=
    (.ok none, { queries := queries, lastError := some temporary })
  if queries > maxDnsQueries then refuse false
  else if !resolver.timeLeft queries then refuse true
  else
    match decodeName name with
    | none => refuse false
    | some decoded =>
        if !matchesDkimQuery decoded then refuse false
        else
          match resolver.resolveTxt queries decoded with
          | .raised exn => (.error exn, { budget with queries := queries })
          | .resolutionError temporary => refuse temporary
          | .nonBytes => refuse false
          | .value none => (.ok none, { budget with queries := queries })
          | .value (some value) =>
              if value.length > maxDnsTxtBytes then refuse false
              else (.ok (some value), { budget with queries := queries })

/-- One call of `verify` with the budget behind its `dnsfunc`. -/
def VerifyCall.run (resolver : DnsTxtResolver) :
    VerifyCall → DnsBudget → Except DkimExn Bool × DnsBudget
  | done valid, budget => (valid, budget)
  | lookup name next, budget =>
      let (answer, budget) := budget.lookup resolver name
      (next answer).run resolver budget

section

variable (lib : Library)

/-- One round of the loop over `str(value).split(";")`: the tags so far, the last assignment
first, and whether a tag was repeated. -/
def addTag (acc : List (PyStr × PyStr) × Bool) (item : PyStr) : List (PyStr × PyStr) × Bool :=
  if ofChar '=' ∈ item then
    let key := lib.unicode.lower (PyStr.strip (item.takeWhile (· ≠ ofChar '=')))
    let value := PyStr.strip ((item.dropWhile (· ≠ ofChar '=')).drop 1)
    ((key, value) :: acc.1, acc.2 || acc.1.any (·.1 == key))
  else acc

/-- The tags of one signature, and whether one is repeated. -/
def signatureTags (value : PyStr) : List (PyStr × PyStr) × Bool :=
  (value.splitOn (ofChar ';')).foldl (addTag lib) ([], false)

/-- `tags.get(key, "")`. -/
def dkimTag (value key : PyStr) : PyStr :=
  (((signatureTags lib value).1.find? (·.1 == key)).map (·.2)).getD []

/-- The metadata of one signature. -/
def signatureOf (value : PyStr) : DkimSignature where
  domain := (dkimTag lib value (py "d")).take 253
  selector := (dkimTag lib value (py "s")).take 63
  result :=
    if (signatureTags lib value).2 ∨ dkimTag lib value (py "d") = [] ∨
        dkimTag lib value (py "s") = [] then py "permerror"
    else []

/-- `_signature_metadata`. -/
def signatureMetadata (raw : Bytes) : Except MailExn (List DkimSignature) := do
  let message ← lib.parseHeaders raw
  let values ← message.getAll (py "DKIM-Signature")
  return values.map (signatureOf lib)

/-- The result that one call of `verify` gives its signature; an exception that the loop does
not handle leaves `verify_dkim`. -/
def signatureResult (valid : Except DkimExn Bool) (budget : DnsBudget) : Except MailExn PyStr :=
  match valid with
  | .error .validation => .ok (py "fail")
  | .error .other => .error .other
  | .error _ => .ok (py "permerror")
  | .ok true => .ok (py "pass")
  | .ok false =>
      match budget.lastError with
      | some true => .ok (py "temperror")
      | some false => .ok (py "permerror")
      | none => .ok (py "fail")

/-- The loop over the signatures; the budget is shared by all of them. -/
def verifySignatures (resolver : DnsTxtResolver) (raw : Bytes) :
    ℕ → List DkimSignature → DnsBudget → Except MailExn (List DkimSignature)
  | _, [], _ => .ok []
  | index, signature :: rest, budget =>
      if signature.result ≠ [] then do
        let rest ← verifySignatures resolver raw (index + 1) rest budget
        return signature :: rest
      else do
        let (valid, budget) :=
          (lib.dkimVerify raw index).run resolver { budget with lastError := none }
        let result ← signatureResult valid budget
        let rest ← verifySignatures resolver raw (index + 1) rest budget
        return { signature with result := result } :: rest

/-- The overall result of the signatures. -/
def overallResult (signatures : List DkimSignature) : PyStr :=
  let results := signatures.map (·.result)
  if py "pass" ∈ results then py "pass"
  else if py "temperror" ∈ results then py "temperror"
  else if py "permerror" ∈ results then py "permerror"
  else py "fail"

/-- `verify_dkim`. -/
def verifyDkim (resolver : DnsTxtResolver) (raw : Bytes) : Except MailExn DkimVerdict := do
  let signatures ← signatureMetadata lib raw
  if signatures = [] then return { result := py "none", signatures := [], reason := none }
  else if signatures.length > maxDkimSignatures then
    return {
      result := py "permerror"
      signatures := signatures.take maxDkimSignatures
      reason := some (py "too_many_signatures") }
  else
    match lib.dkimConstruct raw with
    | .error _ => .error .other
    | .ok _ =>
        let signatures ← verifySignatures lib resolver raw 0 signatures {}
        return { result := overallResult signatures, signatures := signatures, reason := none }

end

end MailGate
