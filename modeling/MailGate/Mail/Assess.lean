import MailGate.Mail.Parse

/-!
# Classifying and assessing a message

`classify` and `assess`, the end of `mail.py`.
-/

namespace MailGate

open PyStr

/-- `list(dict.fromkeys(xs))`: the distinct elements in the order of their first occurrence. -/
def dictFromkeys (xs : List PyStr) : List PyStr := xs.eraseDups

lemma mem_dictFromkeys {xs : List PyStr} {x : PyStr} : x ∈ dictFromkeys xs ↔ x ∈ xs :=
  List.mem_eraseDups

/-- `classify`: category, priority and summary. -/
def classify (lib : Library) (parsed : ParsedMessage) : PyStr × ℕ × PyStr :=
  let value := lib.unicode.lower (parsed.subject ++ py "\n" ++ parsed.text.take 5000)
  let mentions (words : List String) : Bool := words.any fun word => contains (py word) value
  if mentions ["invoice", "rechnung", "payment", "zahlung"] then
    (py "finance", 2, py "Financial message")
  else if mentions ["meeting", "termin", "appointment", "calendar"] then
    (py "calendar", 2, py "Calendar-related message")
  else if mentions ["newsletter", "unsubscribe", "abmelden"] then
    (py "newsletter", 4, py "Newsletter")
  else
    (py "general", 3, (if parsed.subject ≠ [] then parsed.subject else py "Message").take 240)

/-- The provider verdicts that count as a failure. -/
def failingClaims : List PyStr := ["fail", "softfail", "permerror", "temperror"].map py

/-- The reasons that make a message high risk. -/
def highRiskReasons : List PyStr :=
  ["dangerous_attachment", "authentication_failure", "independent_dkim_failure",
    "prompt_injection_suspected"].map py

/-- The reasons before the risk is decided. -/
def assessReasons (parsed : ParsedMessage) : List PyStr :=
  let claims := parsed.authentication.providerClaims
  let dkim := parsed.authentication.independentDkim.result
  dictFromkeys parsed.signals ++
    (if claims.dmarc ∈ failingClaims ∨ claims.dkim ∈ failingClaims ∨ claims.spf ∈ failingClaims
      then [py "authentication_failure"] else []) ++
    (if dkim ∈ [py "fail", py "permerror"] then [py "independent_dkim_failure"]
      else if dkim = py "temperror" then [py "independent_dkim_temperror"] else []) ++
    (if parsed.sender = [] then [py "missing_sender"] else [])

/-- `assess`: risk, state and reasons. -/
def assess (parsed : ParsedMessage) : Risk × State × List PyStr :=
  let reasons := assessReasons parsed
  if ∃ signal ∈ highRiskReasons, signal ∈ reasons then (.high, .quarantined, reasons)
  else if parsed.authentication.independentDkim.result = py "pass" ∧ reasons = [] then
    (.low, .quarantined, [py "independent_dkim_pass"])
  else if parsed.authentication.providerClaims.dmarc = py "pass" ∧ reasons = [] then
    (.low, .quarantined, [py "provider_authentication_pass"])
  else (.medium, .quarantined, dictFromkeys (reasons ++ [py "manual_review_required"]))

/-- A signal among the high-risk reasons makes the risk high, and stays among the reasons. -/
lemma assess_high {parsed : ParsedMessage} {signal : PyStr} (hhigh : signal ∈ highRiskReasons)
    (h : signal ∈ parsed.signals) :
    (assess parsed).1 = .high ∧ signal ∈ (assess parsed).2.2 := by
  have hreason : signal ∈ assessReasons parsed := by
    simp only [assessReasons, List.mem_append]
    exact .inl (.inl (.inl (mem_dictFromkeys.2 h)))
  rw [assess, if_pos ⟨signal, hhigh, hreason⟩]
  exact ⟨rfl, hreason⟩

/-- A message is marked as an attempt at prompt injection where it has been parsed. -/
lemma assess_suspected_iff {parsed : ParsedMessage} :
    py "prompt_injection_suspected" ∈ (assess parsed).2.2 ↔
      py "prompt_injection_suspected" ∈ parsed.signals := by
  refine ⟨fun h => ?_, fun h => (assess_high (by decide) h).2⟩
  have hothers : ∀ word ∈ ["authentication_failure", "independent_dkim_failure",
      "independent_dkim_temperror", "missing_sender", "independent_dkim_pass",
      "provider_authentication_pass", "manual_review_required"],
      py "prompt_injection_suspected" ≠ py word := by decide
  simp only [List.forall_mem_cons, List.not_mem_nil, false_imp_iff, implies_true,
    and_true] at hothers
  have hreasons : py "prompt_injection_suspected" ∈ assessReasons parsed →
      py "prompt_injection_suspected" ∈ parsed.signals := by
    intro h
    simp only [assessReasons, List.mem_append, mem_dictFromkeys] at h
    rcases h with ((h | h) | h) | h
    · exact h
    · split at h <;> simp [hothers] at h
    · split at h
      · simp [hothers] at h
      · split at h <;> simp [hothers] at h
    · split at h <;> simp [hothers] at h
  rw [assess] at h
  split at h
  · exact hreasons h
  · split at h
    · simp [hothers] at h
    · split at h
      · simp [hothers] at h
      · rw [mem_dictFromkeys, List.mem_append] at h
        rcases h with h | h
        · exact hreasons h
        · simp [hothers] at h

end MailGate
