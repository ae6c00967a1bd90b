import MailGate.Ingestion.Sync
import MailGate.Lib.Firsts
import MailGate.Mail.Names
import MailGate.Web.Forms

/-!
# Trusted authentication services

The list of trusted services of a mailbox is written by the form and read by the worker and by the
self-test.  Each of them splits, trims and folds the text on its own; on what the form has accepted
all three see the same set.
-/

namespace MailGate

open PyStr Firsts

/-! ## The readers -/

/-- The trimmed lower-case items of a text between its commas. -/
def authservItems (unicode : Unicodedata) (value : PyStr) : List PyStr :=
  if strip value = [] then []
  else (value.splitOn (ofChar ',')).map fun item => unicode.lower (strip item)

/-- The items of a text without blanks. -/
def listedIds (value : PyStr) : List PyStr :=
  if value = [] then [] else value.splitOn (ofChar ',')

/-- `trusted` of `run_prompt_injection_suite`; `none` is the `ValueError`. -/
def suiteTrustedIds (unicode : Unicodedata) (mailbox : Mailbox) : Option (List PyStr) := do
  let normalisedIds ← normaliseAuthservIds unicode mailbox.trustedAuthservIds
  return (normalisedIds.splitOn (ofChar ',')).filter fun value => value ≠ []

section

variable {unicode : Unicodedata} {value n : PyStr}

/-- An accepted text is blank, or it has at most 500 characters and its items are valid. -/
lemma normaliseAuthservIds_eq_some (h : normaliseAuthservIds unicode value = some n) :
    (strip value = [] ∧ n = []) ∨
      (strip value ≠ [] ∧ value.length ≤ 500 ∧
        (∀ x ∈ authservItems unicode value, validAuthservId x = true) ∧
        n = join (py ",") (authservItems unicode value).eraseDups) := by
  rw [normaliseAuthservIds] at h
  split at h
  · rename_i hblank
    exact .inl ⟨hblank, (Option.some.inj h).symm⟩
  · rename_i hblank
    rw [authservItems, if_neg hblank]
    dsimp only at h
    split at h
    · cases h
    · rename_i hvalid
      push Not at hvalid
      exact .inr ⟨hblank, hvalid.1, List.all_eq_true.1 hvalid.2, (Option.some.inj h).symm⟩

/-! ## Valid items -/

/-- The labels of a valid item. -/
lemma nameLabel_of_valid {x : PyStr} (h : validAuthservId x = true) :
    ∀ label ∈ x.splitOn (ofChar '.'), NameLabel (py "-") label := by
  intro label hlabel
  have hchars : (dnsLabelCharacters.all fun c => PyChar.isAlnum c || c ∈ py "-") = true := by decide
  simp only [validAuthservId, Bool.and_eq_true, decide_eq_true_eq, List.all_eq_true] at h
  obtain ⟨-, hlabels⟩ := h
  obtain ⟨⟨⟨hlength, -⟩, -⟩, hall⟩ := hlabels label hlabel
  refine ⟨hlength, fun c hc => ?_⟩
  simpa using List.all_eq_true.1 hchars c (hall c hc)

lemma ne_nil_of_valid {x : PyStr} (h : validAuthservId x = true) : x ≠ [] := by
  rintro rfl
  cases h

/-- The characters of a valid item: letters, digits, hyphens and full stops. -/
lemma mem_of_valid {x : PyStr} (h : validAuthservId x = true) :
    ∀ c ∈ x, PyChar.isAlnum c = true ∨ c ∈ py "-." := by
  intro c hc
  by_cases hdot : c = ofChar '.'
  · exact .inr (hdot ▸ by decide)
  obtain ⟨label, hlabel, hcl⟩ := mem_splitOn hc hdot
  rcases (nameLabel_of_valid h label hlabel).chars c hcl with halnum | hhyphen
  · exact .inl halnum
  · have hsub : py "-" ⊆ py "-." := by decide
    exact .inr (hsub hhyphen)

lemma plain_of_valid {x : PyStr} (h : validAuthservId x = true) {c : PyChar} (hc : c ∈ x) :
    c.val < 0x80 ∧ PyChar.isSpace c = false ∧ c ≠ ofChar ',' := by
  rcases mem_of_valid h c hc with halnum | hother
  · simp only [PyChar.isAlnum, PyChar.isDigit, Bool.or_eq_true, Bool.and_eq_true,
      decide_eq_true_eq] at halnum
    have hcomma : (ofChar ',').val = 0x2C := rfl
    refine ⟨by omega, ?_, ?_⟩
    · simp only [PyChar.isSpace, Bool.or_eq_false_iff, Bool.and_eq_false_iff,
        decide_eq_false_iff_not, beq_eq_false_iff_ne]
      omega
    · rintro rfl
      omega
  · have hall :
        ((py "-.").all fun c => c.val < 0x80 && !PyChar.isSpace c && c != ofChar ',') = true := by
      decide
    simpa [and_assoc] using List.all_eq_true.1 hall c hother

/-! ## What the form has accepted -/

/-- A list that the form writes: valid items without repetition and without capital letters. -/
structure CanonicalIds (ids : List PyStr) : Prop where
  ne_nil : ids ≠ []
  nodup : ids.Nodup
  valid : ∀ x ∈ ids, validAuthservId x = true
  no_capital : ∀ x ∈ ids, ∀ c ∈ x, ¬(0x41 ≤ c.val ∧ c.val ≤ 0x5A)

variable {ids : List PyStr}

lemma CanonicalIds.splitOn (h : CanonicalIds ids) :
    (join (py ",") ids).splitOn (ofChar ',') = ids := by
  refine List.splitOn_intercalate (ofChar ',') (fun x hx hcomma => ?_) h.ne_nil
  exact (plain_of_valid (h.valid x hx) hcomma).2.2 rfl

/-- Trimming and folding an item again changes nothing. -/
lemma CanonicalIds.fold (h : CanonicalIds ids) (hlower : LowerCase unicode.lower) {x : PyStr}
    (hx : x ∈ ids) : strip x = x ∧ unicode.lower x = x := by
  refine ⟨strip_eq_self fun c hc => (plain_of_valid (h.valid x hx) hc).2.1, ?_⟩
  rw [hlower.ascii x fun c hc => (plain_of_valid (h.valid x hx) hc).1]
  exact map_lowerAsciiChar (h.no_capital x hx)

lemma CanonicalIds.map_fold (h : CanonicalIds ids) (hlower : LowerCase unicode.lower) :
    (ids.map fun item => unicode.lower (strip item)) = ids := by
  calc (ids.map fun item => unicode.lower (strip item)) = ids.map id := by
        refine List.map_congr_left fun x hx => ?_
        obtain ⟨hstrip, hfold⟩ := h.fold hlower hx
        rw [hstrip, hfold]
        rfl
    _ = ids := List.map_id ids

/-- The text is not blank: it contains an item. -/
lemma CanonicalIds.not_blank (h : CanonicalIds ids) : strip (join (py ",") ids) ≠ [] := by
  obtain ⟨x, hx⟩ := List.exists_mem_of_ne_nil ids h.ne_nil
  obtain ⟨c, hc⟩ := List.exists_mem_of_ne_nil x (ne_nil_of_valid (h.valid x hx))
  exact List.ne_nil_of_mem
    (mem_strip (plain_of_valid (h.valid x hx) hc).2.1 (mem_join_of_mem hx hc))

/-- The form accepts such a text and leaves it as it is. -/
lemma CanonicalIds.normalise (h : CanonicalIds ids) (hlower : LowerCase unicode.lower)
    (hlength : (join (py ",") ids).length ≤ 500) :
    normaliseAuthservIds unicode (join (py ",") ids) = some (join (py ",") ids) := by
  have hvalid : (ids.all validAuthservId) = true := List.all_eq_true.2 h.valid
  have haccept : ¬((join (py ",") ids).length > 500 ∨ ¬ids.all validAuthservId) := by
    rintro (hlong | hbad)
    · omega
    · exact hbad hvalid
  rw [normaliseAuthservIds, if_neg h.not_blank, h.splitOn]
  dsimp only
  rw [h.map_fold hlower, if_neg haccept, eraseDups_of_nodup h.nodup]

/-- The worker reads the items. -/
lemma CanonicalIds.worker (h : CanonicalIds ids) {lib : Library}
    (hlower : LowerCase lib.unicode.lower) {mailbox : Mailbox}
    (hmailbox : mailbox.trustedAuthservIds = join (py ",") ids) : trustedIds lib mailbox = ids := by
  have hnotBlank : (ids.filter fun item => decide (strip item ≠ [])) = ids := by
    rw [List.filter_eq_self]
    intro x hx
    rw [(h.fold hlower hx).1]
    exact decide_eq_true (ne_nil_of_valid (h.valid x hx))
  rw [trustedIds, hmailbox, h.splitOn, hnotBlank, h.map_fold hlower]

/-- The self-test reads the items. -/
lemma CanonicalIds.suite (h : CanonicalIds ids) (hlower : LowerCase unicode.lower)
    (hlength : (join (py ",") ids).length ≤ 500) {mailbox : Mailbox}
    (hmailbox : mailbox.trustedAuthservIds = join (py ",") ids) :
    suiteTrustedIds unicode mailbox = some ids := by
  have hnotEmpty : (ids.filter fun value => decide (value ≠ [])) = ids := by
    rw [List.filter_eq_self]
    exact fun x hx => decide_eq_true (ne_nil_of_valid (h.valid x hx))
  rw [suiteTrustedIds, hmailbox, h.normalise hlower hlength]
  exact congrArg some ((congrArg _ h.splitOn).trans hnotEmpty)

/-- An accepted text is written without its repetitions, and it has not grown. -/
lemma canonicalIds_of_items (hlower : LowerCase unicode.lower) (hnotBlank : strip value ≠ [])
    (hvalid : ∀ x ∈ authservItems unicode value, validAuthservId x = true) :
    CanonicalIds (authservItems unicode value).eraseDups ∧
      (join (py ",") (authservItems unicode value).eraseDups).length ≤ value.length := by
  have hitems : authservItems unicode value =
      (value.splitOn (ofChar ',')).map fun item => unicode.lower (strip item) := by
    rw [authservItems, if_neg hnotBlank]
  constructor
  · refine ⟨?_, (listsFirsts_eraseDups _).nodup, fun x hx => hvalid x (List.mem_eraseDups.1 hx), ?_⟩
    · obtain ⟨piece, hpiece⟩ :=
        List.exists_mem_of_ne_nil _ (List.splitOn_ne_nil (ofChar ',') value)
      have hmem : unicode.lower (strip piece) ∈ authservItems unicode value := by
        rw [hitems]
        exact List.mem_map_of_mem hpiece
      exact List.ne_nil_of_mem (List.mem_eraseDups.2 hmem)
    · intro x hx
      rw [List.mem_eraseDups, hitems] at hx
      obtain ⟨piece, -, rfl⟩ := List.mem_map.1 hx
      exact hlower.no_capital _
  · -- folding can lengthen a text outside ASCII, so the bound holds of accepted items only
    rw [hitems] at hvalid ⊢
    have hpieces : ∀ piece ∈ value.splitOn (ofChar ','),
        (unicode.lower (strip piece)).length ≤ piece.length := by
      intro piece hpiece
      have hx := hvalid _ (List.mem_map_of_mem hpiece)
      exact (hlower.length_le _ fun c hc => (plain_of_valid hx hc).1).trans (length_strip_le piece)
    have hle := length_intercalate_le [ofChar ','] (eraseDups_sublist _) hpieces
    rwa [List.intercalate_splitOn] at hle

end

/-- What the form writes for the trusted services has at most 500 characters, is accepted again as
it is, and lists the items of the input once each, in the order of their first occurrence; each
item consists of labels of letters, digits and hyphens; and the worker and the self-test read
exactly these items from it. -/
theorem normaliseAuthservIds_canonical (lib : Library) (hlower : LowerCase lib.unicode.lower)
    (value n : PyStr) (h : normaliseAuthservIds lib.unicode value = some n) :
    n.length ≤ 500 ∧ normaliseAuthservIds lib.unicode n = some n ∧
      ListsFirsts (authservItems lib.unicode value) (listedIds n) ∧
      (∀ x ∈ authservItems lib.unicode value,
        ∀ label ∈ x.splitOn (ofChar '.'), NameLabel (py "-") label) ∧
      ∀ mailbox : Mailbox, mailbox.trustedAuthservIds = n →
        (∀ x, x ∈ trustedIds lib mailbox ↔ x ∈ authservItems lib.unicode value) ∧
          ∃ trusted, suiteTrustedIds lib.unicode mailbox = some trusted ∧
            ∀ x, x ∈ trusted ↔ x ∈ authservItems lib.unicode value := by
  rcases normaliseAuthservIds_eq_some h with ⟨hblank, rfl⟩ | ⟨hnotBlank, hlength, hvalid, rfl⟩
  · -- a blank input is written as the empty text, which both readers take for no service
    have hitems : authservItems lib.unicode value = [] := by rw [authservItems, if_pos hblank]
    rw [hitems]
    refine ⟨by simp, rfl, ⟨by simp [listedIds], List.Pairwise.nil⟩, by simp, ?_⟩
    intro mailbox hmailbox
    have hworker : trustedIds lib mailbox = [] := by
      rw [trustedIds, hmailbox]
      rfl
    have hsuite : suiteTrustedIds lib.unicode mailbox = some [] := by
      rw [suiteTrustedIds, hmailbox]
      rfl
    rw [hworker]
    exact ⟨fun x => Iff.rfl, [], hsuite, fun x => Iff.rfl⟩
  · obtain ⟨hids, hle⟩ := canonicalIds_of_items hlower hnotBlank hvalid
    have hn := hle.trans hlength
    have hfirsts := listsFirsts_eraseDups (authservItems lib.unicode value)
    have hlisted : listedIds (join (py ",") (authservItems lib.unicode value).eraseDups) =
        (authservItems lib.unicode value).eraseDups := by
      rw [listedIds, if_neg, hids.splitOn]
      intro hnil
      exact hids.not_blank (by rw [hnil]; rfl)
    refine ⟨hn, hids.normalise hlower hn, ?_, fun x hx => nameLabel_of_valid (hvalid x hx), ?_⟩
    · rw [hlisted]
      exact hfirsts
    · intro mailbox hmailbox
      rw [hids.worker hlower hmailbox]
      exact ⟨hfirsts.mem_iff, _, hids.suite hlower hn hmailbox, hfirsts.mem_iff⟩

lemma sampleUnicode_lowerCase : LowerCase sampleUnicode.lower where
  ascii _ _ := rfl
  no_capital := by
    intro s c hc
    obtain ⟨d, -, rfl⟩ := List.mem_map.1 hc
    exact lowerAsciiChar_no_capital d
  length_le s _ := (List.length_map _).le

/-- The second spelling of the first item is left out. -/
theorem normaliseAuthservIds_canonical_sample :
    normaliseAuthservIds sampleUnicode (py " B.example ,a.example, b.EXAMPLE") =
        some (py "b.example,a.example") ∧
      ∀ mailbox : Mailbox, mailbox.trustedAuthservIds = py "b.example,a.example" →
        ∀ x, x ∈ trustedIds (sampleLibrary blankMessage [] []) mailbox ↔
          x ∈ authservItems sampleUnicode (py " B.example ,a.example, b.EXAMPLE") := by
  have haccept : normaliseAuthservIds sampleUnicode (py " B.example ,a.example, b.EXAMPLE") =
      some (py "b.example,a.example") := by decide +kernel
  obtain ⟨-, -, -, -, hread⟩ := normaliseAuthservIds_canonical (sampleLibrary blankMessage [] [])
    sampleUnicode_lowerCase _ _ haccept
  exact ⟨haccept, fun mailbox hmailbox => (hread mailbox hmailbox).1⟩

end MailGate
