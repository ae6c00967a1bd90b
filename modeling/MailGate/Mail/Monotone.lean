import MailGate.Mail.Assess

/-!
# Worse evidence, higher risk

`assess` is a cascade of early returns.  Here its risk is characterised without the cascade:
a message is condemned by a set of facts that only grows with worse evidence, and cleared by one
that only shrinks.  The order of the risks is that of the review: low, medium, high.
-/

namespace MailGate

open PyStr

/-- The place of a risk in low, medium, high. -/
def Risk.rank : Risk → ℕ
  | low => 0
  | medium => 1
  | high => 2

instance : LE Risk := ⟨fun r s => r.rank ≤ s.rank⟩

instance (r s : Risk) : Decidable (r ≤ s) := inferInstanceAs (Decidable (r.rank ≤ s.rank))

/-- Of two risks the first is not the higher one if it is high only with the second, and the
second is low only with the first. -/
lemma Risk.le_of {r s : Risk} (hhigh : r = high → s = high) (hlow : s = low → r = low) :
    r ≤ s := by
  cases r with
  | low => exact Nat.zero_le _
  | medium =>
    cases s with
    | low => exact absurd (hlow rfl) (by decide)
    | medium => exact le_refl 1
    | high => exact Nat.le_succ 1
  | high =>
    rw [hhigh rfl]
    exact le_refl 2

/-! ## Evidence -/

/-- How bad a claim of the provider is. -/
def claimTier (claim : PyStr) : Option ℕ :=
  if claim = py "pass" then some 0
  else if claim ∈ ["neutral", "none", "unknown"].map py then some 1
  else if claim ∈ failingClaims then some 2
  else none

/-- How bad the result of the independent check is. -/
def dkimTier (result : PyStr) : Option ℕ :=
  if result = py "pass" then some 0
  else if result = py "none" then some 1
  else if result = py "temperror" then some 2
  else if result ∈ [py "fail", py "permerror"] then some 3
  else none

/-- The second value is the first one, or it has a tier that is not below that of the first. -/
def WorseBy (tier : PyStr → Option ℕ) (v w : PyStr) : Prop :=
  v = w ∨ ∃ m n, tier v = some m ∧ tier w = some n ∧ m ≤ n

/-- The evidence on the second message is at least as bad: more signals, no sender where there
was one, worse claims, a worse result of the independent check.  All of it may change at once,
and what `assess` does not read may change in any way. -/
structure WorseEvidence (parsed parsed' : ParsedMessage) : Prop where
  signals : parsed.signals ⊆ parsed'.signals
  sender : parsed'.sender = parsed.sender ∨ parsed'.sender = []
  spf : WorseBy claimTier parsed.authentication.providerClaims.spf
    parsed'.authentication.providerClaims.spf
  dkim : WorseBy claimTier parsed.authentication.providerClaims.dkim
    parsed'.authentication.providerClaims.dkim
  dmarc : WorseBy claimTier parsed.authentication.providerClaims.dmarc
    parsed'.authentication.providerClaims.dmarc
  independent : WorseBy dkimTier parsed.authentication.independentDkim.result
    parsed'.authentication.independentDkim.result

section

variable {v w : PyStr}

/-- From a tier on, the values are closed under getting worse. -/
lemma WorseBy.tier_le {tier : PyStr → Option ℕ} (h : WorseBy tier v w) {k : ℕ}
    (hv : ∃ m, tier v = some m ∧ k ≤ m) : ∃ n, tier w = some n ∧ k ≤ n := by
  obtain ⟨m, hm, hk⟩ := hv
  rcases h with rfl | ⟨m', n, hm', hn, hle⟩
  · exact ⟨m, hm, hk⟩
  · have heq : m = m' := Option.some.inj (hm.symm.trans hm')
    exact ⟨n, hn, by omega⟩

/-- Nothing gets worse by getting into the first tier. -/
lemma WorseBy.eq_of_zero {tier : PyStr → Option ℕ} (h : WorseBy tier v w)
    (hzero : ∀ u, tier u = some 0 → u = w) (hw : tier w = some 0) : v = w := by
  rcases h with rfl | ⟨m, n, hm, hn, hle⟩
  · rfl
  · have heq : n = 0 := Option.some.inj (hn.symm.trans hw)
    have hmzero : m = 0 := by omega
    exact hzero v (hmzero ▸ hm)

lemma claimTier_pass (h : claimTier v = some 0) : v = py "pass" := by
  rw [claimTier] at h
  split at h
  · assumption
  · repeat' split at h
    all_goals simp at h

lemma dkimTier_pass (h : dkimTier v = some 0) : v = py "pass" := by
  rw [dkimTier] at h
  split at h
  · assumption
  · repeat' split at h
    all_goals simp at h

lemma mem_failingClaims : v ∈ failingClaims ↔ ∃ m, claimTier v = some m ∧ 2 ≤ m := by
  constructor
  · intro hv
    refine ⟨2, ?_, le_refl 2⟩
    revert hv
    have hall : ∀ u ∈ failingClaims, claimTier u = some 2 := by decide
    exact hall v
  · rintro ⟨m, hm, hle⟩
    rw [claimTier] at hm
    split at hm
    · obtain rfl := Option.some.inj hm
      omega
    split at hm
    · obtain rfl := Option.some.inj hm
      omega
    split at hm
    · assumption
    · cases hm

lemma mem_dkimFailure :
    v ∈ [py "fail", py "permerror"] ↔ ∃ m, dkimTier v = some m ∧ 3 ≤ m := by
  constructor
  · intro hv
    refine ⟨3, ?_, le_refl 3⟩
    revert hv
    have hall : ∀ u ∈ [py "fail", py "permerror"], dkimTier u = some 3 := by decide
    exact hall v
  · rintro ⟨m, hm, hle⟩
    rw [dkimTier] at hm
    split at hm
    · obtain rfl := Option.some.inj hm
      omega
    split at hm
    · obtain rfl := Option.some.inj hm
      omega
    split at hm
    · obtain rfl := Option.some.inj hm
      omega
    split at hm
    · assumption
    · cases hm

lemma mem_dkimError :
    v ∈ [py "temperror", py "fail", py "permerror"] ↔ ∃ m, dkimTier v = some m ∧ 2 ≤ m := by
  constructor
  · intro hv
    have hall : ∀ u ∈ [py "temperror", py "fail", py "permerror"],
        dkimTier u = some 2 ∨ dkimTier u = some 3 := by decide
    rcases hall v hv with hm | hm
    · exact ⟨2, hm, le_refl 2⟩
    · exact ⟨3, hm, Nat.le_succ 2⟩
  · rintro ⟨m, hm, hle⟩
    rw [dkimTier] at hm
    split at hm
    · obtain rfl := Option.some.inj hm
      omega
    split at hm
    · obtain rfl := Option.some.inj hm
      omega
    split at hm
    · rename_i heq
      rw [heq]
      exact List.mem_cons_self
    split at hm
    · rename_i hmem
      exact List.mem_cons_of_mem _ hmem
    · cases hm

end

/-! ## The risk without the cascade -/

/-- What makes the risk high. -/
def Condemned (parsed : ParsedMessage) : Prop :=
  (∃ signal ∈ highRiskReasons, signal ∈ parsed.signals) ∨
    (parsed.authentication.providerClaims.dmarc ∈ failingClaims ∨
      parsed.authentication.providerClaims.dkim ∈ failingClaims ∨
      parsed.authentication.providerClaims.spf ∈ failingClaims) ∨
    parsed.authentication.independentDkim.result ∈ [py "fail", py "permerror"]

/-- What makes the risk low. -/
structure Cleared (parsed : ParsedMessage) : Prop where
  signals : parsed.signals = []
  sender : parsed.sender ≠ []
  claims : ¬ (parsed.authentication.providerClaims.dmarc ∈ failingClaims ∨
    parsed.authentication.providerClaims.dkim ∈ failingClaims ∨
    parsed.authentication.providerClaims.spf ∈ failingClaims)
  independent : parsed.authentication.independentDkim.result ∉
    [py "temperror", py "fail", py "permerror"]
  passed : parsed.authentication.independentDkim.result = py "pass" ∨
    parsed.authentication.providerClaims.dmarc = py "pass"

section

variable {parsed parsed' : ParsedMessage}

lemma assessReasons_high :
    (∃ signal ∈ highRiskReasons, signal ∈ assessReasons parsed) ↔ Condemned parsed := by
  have hauth : py "authentication_failure" ∈ highRiskReasons := by decide
  have hdkim : py "independent_dkim_failure" ∈ highRiskReasons := by decide
  have htemp : py "independent_dkim_temperror" ∉ highRiskReasons := by decide
  have hsender : py "missing_sender" ∉ highRiskReasons := by decide
  simp only [assessReasons, List.mem_append, mem_dictFromkeys]
  constructor
  · -- the four sources of a reason, in the order in which `assess` appends them
    rintro ⟨signal, hhigh, ((h | h) | h) | h⟩
    · exact .inl ⟨signal, hhigh, h⟩
    · split at h
      · exact .inr (.inl ‹_›)
      · cases h
    · split at h
      · exact .inr (.inr ‹_›)
      -- a temporary error of the check is a reason, but never a high one
      split at h
      · rw [List.mem_singleton.1 h] at hhigh
        exact absurd hhigh htemp
      · cases h
    · split at h
      · rw [List.mem_singleton.1 h] at hhigh
        exact absurd hhigh hsender
      · cases h
  · rintro (⟨signal, hhigh, h⟩ | h | h)
    · exact ⟨signal, hhigh, .inl (.inl (.inl h))⟩
    · refine ⟨_, hauth, .inl (.inl (.inr ?_))⟩
      rw [if_pos h]
      exact List.mem_singleton_self _
    · refine ⟨_, hdkim, .inl (.inr ?_)⟩
      rw [if_pos h]
      exact List.mem_singleton_self _

lemma dictFromkeys_eq_nil {xs : List PyStr} : dictFromkeys xs = [] ↔ xs = [] := by
  rw [List.eq_nil_iff_forall_not_mem, List.eq_nil_iff_forall_not_mem]
  simp only [mem_dictFromkeys]

lemma assessReasons_eq_nil : assessReasons parsed = [] ↔
    parsed.signals = [] ∧ parsed.sender ≠ [] ∧
      ¬ (parsed.authentication.providerClaims.dmarc ∈ failingClaims ∨
        parsed.authentication.providerClaims.dkim ∈ failingClaims ∨
        parsed.authentication.providerClaims.spf ∈ failingClaims) ∧
      parsed.authentication.independentDkim.result ∉
        [py "temperror", py "fail", py "permerror"] := by
  simp only [assessReasons, List.append_eq_nil_iff, dictFromkeys_eq_nil, List.mem_cons,
    List.not_mem_nil, or_false]
  grind

/-- The risk is high exactly for what is condemned. -/
lemma assess_eq_high : (assess parsed).1 = .high ↔ Condemned parsed := by
  rw [assess, ← assessReasons_high]
  split
  · exact iff_of_true rfl ‹_›
  · rename_i hnot
    refine iff_of_false (fun h => ?_) hnot
    split at h
    · cases h
    split at h
    · cases h
    · cases h

/-- The risk is low exactly for what is cleared. -/
lemma assess_eq_low : (assess parsed).1 = .low ↔ Cleared parsed := by
  have hcleared : Cleared parsed ↔ assessReasons parsed = [] ∧
      (parsed.authentication.independentDkim.result = py "pass" ∨
        parsed.authentication.providerClaims.dmarc = py "pass") := by
    rw [assessReasons_eq_nil]
    exact ⟨fun ⟨h1, h2, h3, h4, h5⟩ => ⟨⟨h1, h2, h3, h4⟩, h5⟩,
      fun ⟨⟨h1, h2, h3, h4⟩, h5⟩ => ⟨h1, h2, h3, h4, h5⟩⟩
  rw [assess, hcleared]
  split
  · rename_i hhigh
    obtain ⟨signal, -, hmem⟩ := hhigh
    refine iff_of_false (fun h => by cases h) fun h => ?_
    rw [h.1] at hmem
    cases hmem
  split
  · rename_i hpass
    exact iff_of_true rfl ⟨hpass.2, .inl hpass.1⟩
  split
  · rename_i hpass
    exact iff_of_true rfl ⟨hpass.2, .inr hpass.1⟩
  · rename_i hdkim hdmarc
    refine iff_of_false (fun h => by cases h) ?_
    rintro ⟨hnil, h | h⟩
    · exact hdkim ⟨h, hnil⟩
    · exact hdmarc ⟨h, hnil⟩

lemma assess_state : (assess parsed).2.1 = .quarantined := by
  rw [assess]
  repeat' split
  all_goals rfl

/-! ## Worse evidence -/

lemma WorseBy.failing {v w : PyStr} (h : WorseBy claimTier v w) (hv : v ∈ failingClaims) :
    w ∈ failingClaims :=
  mem_failingClaims.2 (h.tier_le (mem_failingClaims.1 hv))

lemma WorseEvidence.claims (h : WorseEvidence parsed parsed')
    (hclaims : parsed.authentication.providerClaims.dmarc ∈ failingClaims ∨
      parsed.authentication.providerClaims.dkim ∈ failingClaims ∨
      parsed.authentication.providerClaims.spf ∈ failingClaims) :
    parsed'.authentication.providerClaims.dmarc ∈ failingClaims ∨
      parsed'.authentication.providerClaims.dkim ∈ failingClaims ∨
      parsed'.authentication.providerClaims.spf ∈ failingClaims :=
  hclaims.imp h.dmarc.failing (Or.imp h.dkim.failing h.spf.failing)

/-- What is condemned stays so. -/
lemma WorseEvidence.condemned (h : WorseEvidence parsed parsed') (hc : Condemned parsed) :
    Condemned parsed' := by
  rcases hc with ⟨signal, hhigh, hmem⟩ | hclaims | hdkim
  · exact .inl ⟨signal, hhigh, h.signals hmem⟩
  · exact .inr (.inl (h.claims hclaims))
  · exact .inr (.inr (mem_dkimFailure.2 (h.independent.tier_le (mem_dkimFailure.1 hdkim))))

/-- What is cleared on worse evidence was so before. -/
lemma WorseEvidence.cleared (h : WorseEvidence parsed parsed') (hc : Cleared parsed') :
    Cleared parsed where
  signals := List.subset_nil.1 (hc.signals ▸ h.signals)
  sender := by
    rcases h.sender with heq | hnil
    · exact heq ▸ hc.sender
    · exact absurd hnil hc.sender
  claims := fun hclaims => hc.claims (h.claims hclaims)
  independent := fun hdkim =>
    hc.independent (mem_dkimError.2 (h.independent.tier_le (mem_dkimError.1 hdkim)))
  passed := by
    rcases hc.passed with hpass | hpass
    · refine .inl ((h.independent.eq_of_zero (fun u hu => ?_) ?_).trans hpass)
      · rw [hpass, dkimTier_pass hu]
      · rw [hpass]
        decide
    · refine .inr ((h.dmarc.eq_of_zero (fun u hu => ?_) ?_).trans hpass)
      · rw [hpass, claimTier_pass hu]
      · rw [hpass]
        decide

end

/-- Worse evidence never lowers the risk, the message stays in quarantine whatever the evidence,
and a low risk takes a sender, no signal, no failing claim and a pass of the independent check or
of DMARC. -/
theorem assess_monotone :
    (∀ parsed parsed', WorseEvidence parsed parsed' → (assess parsed).1 ≤ (assess parsed').1) ∧
    (∀ parsed, (assess parsed).2.1 = .quarantined) ∧
    ∀ parsed, (assess parsed).1 = .low →
      parsed.signals = [] ∧ parsed.sender ≠ [] ∧
        (∀ claim ∈ [parsed.authentication.providerClaims.spf,
            parsed.authentication.providerClaims.dkim,
            parsed.authentication.providerClaims.dmarc], claim ∉ failingClaims) ∧
        (parsed.authentication.independentDkim.result = py "pass" ∨
          parsed.authentication.providerClaims.dmarc = py "pass") := by
  refine ⟨fun parsed parsed' h => ?_, fun parsed => assess_state, fun parsed hlow => ?_⟩
  · exact Risk.le_of (fun hhigh => assess_eq_high.2 (h.condemned (assess_eq_high.1 hhigh)))
      (fun hlow => assess_eq_low.2 (h.cleared (assess_eq_low.1 hlow)))
  · have hcleared := assess_eq_low.1 hlow
    refine ⟨hcleared.signals, hcleared.sender, ?_, hcleared.passed⟩
    have hclaims := hcleared.claims
    simp only [not_or] at hclaims
    simp only [List.forall_mem_cons, List.not_mem_nil, false_imp_iff, implies_true, and_true]
    exact ⟨hclaims.2.2, hclaims.2.1, hclaims.1⟩

end MailGate
