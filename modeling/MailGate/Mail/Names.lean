import MailGate.Mail.Authentication

/-!
# DKIM names

A DKIM record is found under a name `labels._domainkey.domain`.  What the pattern of the worker
lets through, after the decoding, are such names in lower-case ASCII.
-/

namespace MailGate

open PyChar PyStr

/-- A label of 1 to 63 letters, digits and other allowed characters. -/
structure NameLabel (others l : PyStr) : Prop where
  length : 1 ≤ l.length ∧ l.length ≤ 63
  chars : ∀ c ∈ l, isAlnum c = true ∨ c ∈ others

/-- A domain label neither starts nor ends with a hyphen. -/
structure DomainLabel (l : PyStr) : Prop extends NameLabel (py "-") l where
  head : l.head? ≠ some (ofChar '-')
  last : l.getLast? ≠ some (ofChar '-')

/-- Selector labels, `_domainkey`, and at least two domain labels. -/
structure DkimName (s : PyStr) : Prop where
  length : s.length ≤ 253
  labels : ∃ selector domain : List PyStr, selector ≠ [] ∧ 2 ≤ domain.length ∧
    s = join (py ".") (selector ++ py "_domainkey" :: domain) ∧
    (∀ l ∈ selector, NameLabel (py "_-") l) ∧ ∀ l ∈ domain, DomainLabel l

/-- The name is made of labels that pass the tests of a pattern. -/
lemma DkimName.of_splitOn {s : PyStr} {i : ℕ} (hlength : s.length ≤ 253) (hi : 1 ≤ i)
    (hmarker : (s.splitOn (ofChar '.'))[i]? = some (py "_domainkey"))
    (hselector : ∀ l ∈ (s.splitOn (ofChar '.')).take i, NameLabel (py "_-") l)
    (htwo : 2 ≤ ((s.splitOn (ofChar '.')).drop (i + 1)).length)
    (hdomain : ∀ l ∈ (s.splitOn (ofChar '.')).drop (i + 1), DomainLabel l) : DkimName s where
  length := hlength
  labels := by
    refine ⟨_, _, ?_, htwo, ?_, hselector, hdomain⟩
    · have hlt := (List.getElem?_eq_some_iff.1 hmarker).1
      intro hnil
      have := congrArg List.length hnil
      rw [List.length_take, List.length_nil] at this
      omega
    · obtain ⟨hlt, hget⟩ := List.getElem?_eq_some_iff.1 hmarker
      rw [← hget, ← List.drop_eq_getElem_cons hlt, List.take_append_drop]
      exact (List.intercalate_splitOn _).symm

lemma nameLabel_of_isSelectorLabel {l : PyStr} (h : isSelectorLabel l = true) :
    NameLabel (py "_-") l := by
  simp only [isSelectorLabel, Bool.and_eq_true, decide_eq_true_eq, List.all_eq_true,
    Bool.or_eq_true, beq_iff_eq] at h
  refine ⟨h.1, fun c hc => ?_⟩
  rcases h.2 c hc with (h | rfl) | rfl
  · exact .inl h
  · exact .inr (by decide)
  · exact .inr (by decide)

lemma domainLabel_of_isDomainLabel {l : PyStr} (h : isDomainLabel l = true) : DomainLabel l := by
  simp only [isDomainLabel, Bool.and_eq_true, decide_eq_true_eq, List.all_eq_true,
    Bool.or_eq_true, beq_iff_eq] at h
  obtain ⟨⟨⟨hlength, hchars⟩, hhead⟩, hlast⟩ := h
  have hend : ∀ o : Option PyChar, o.all isAlnum = true → o ≠ some (ofChar '-') := by
    rintro o ho rfl
    revert ho
    decide
  refine ⟨⟨hlength, fun c hc => ?_⟩, hend _ hhead, hend _ hlast⟩
  rcases hchars c hc with h | rfl
  · exact .inl h
  · exact .inr (by decide)

/-- What holds of the full stop and of the characters of all labels holds of all characters. -/
lemma forall_mem_of_labels {s marker : PyStr} {i : ℕ} {P : PyChar → Prop} (hdot : P (ofChar '.'))
    (hmarker : (s.splitOn (ofChar '.'))[i]? = some marker) (hmark : ∀ c ∈ marker, P c)
    (hselector : ∀ l ∈ (s.splitOn (ofChar '.')).take i, ∀ c ∈ l, P c)
    (hdomain : ∀ l ∈ (s.splitOn (ofChar '.')).drop (i + 1), ∀ c ∈ l, P c) : ∀ c ∈ s, P c := by
  obtain ⟨hlt, rfl⟩ := List.getElem?_eq_some_iff.1 hmarker
  have hsplit : s.splitOn (ofChar '.') = (s.splitOn (ofChar '.')).take i ++
      (s.splitOn (ofChar '.'))[i] :: (s.splitOn (ofChar '.')).drop (i + 1) := by
    rw [← List.drop_eq_getElem_cons hlt, List.take_append_drop]
  intro c hc
  by_cases hsep : c = ofChar '.'
  · exact hsep ▸ hdot
  -- any other character lies in a label, before the marker, in it or after it
  obtain ⟨l, hl, hcl⟩ := mem_splitOn hc hsep
  rw [hsplit, List.mem_append, List.mem_cons] at hl
  rcases hl with hl | rfl | hl
  · exact hselector l hl c hcl
  · exact hmark c hcl
  · exact hdomain l hl c hcl

/-! ## The decoding and the pattern of the worker -/

lemma val_ofChar_ofNat {n : ℕ} (h : n < 0x80) : (ofChar (Char.ofNat n)).val = n := by
  have hvalid : n.isValidChar := .inl (by omega)
  show (Char.ofNat n).toNat = n
  rw [Char.ofNat, dif_pos hvalid]
  rfl

lemma lower_toNat {b : UInt8} (h : b < 0x80) :
    (Bytes.lower b).toNat < 0x80 ∧
      ¬(0x41 ≤ (Bytes.lower b).toNat ∧ (Bytes.lower b).toNat ≤ 0x5A) := by
  have hb : b.toNat < 0x80 := h
  unfold Bytes.lower
  split
  · rename_i hupper
    simp only [Bool.and_eq_true, decide_eq_true_eq, UInt8.le_iff_toNat_le] at hupper
    rw [UInt8.toNat_add]
    simp only [UInt8.reduceToNat] at hupper ⊢
    omega
  · rename_i hupper
    simp only [Bool.and_eq_true, decide_eq_true_eq, UInt8.le_iff_toNat_le] at hupper
    simp only [UInt8.reduceToNat] at hupper
    exact ⟨hb, hupper⟩

/-- A decoded name is lower-case ASCII and does not end in a full stop. -/
lemma decodeName_spec {name : Bytes} {decoded : PyStr} (h : decodeName name = some decoded) :
    (∀ c ∈ decoded, c.val < 0x80 ∧ ¬(0x41 ≤ c.val ∧ c.val ≤ 0x5A)) ∧
      decoded.rdropWhile (· == ofChar '.') = decoded := by
  rw [decodeName] at h
  split at h
  swap
  · cases h
  rename_i hascii
  obtain rfl := Option.some.inj h
  refine ⟨?_, List.rdropWhile_idempotent _ _⟩
  intro c hc
  have hmem := (List.rdropWhile_prefix _ _).subset hc
  obtain ⟨b, hb, rfl⟩ := List.mem_map.1 hmem
  have hlt : b < 0x80 := by simpa using List.all_eq_true.1 hascii b hb
  obtain ⟨hsmall, hupper⟩ := lower_toNat hlt
  rw [val_ofChar_ofNat hsmall]
  exact ⟨hsmall, hupper⟩

lemma getLast?_ne_dot {name : Bytes} {decoded : PyStr} (hname : decodeName name = some decoded) :
    decoded.getLast? ≠ some (ofChar '.') := by
  obtain ⟨-, hdrop⟩ := decodeName_spec hname
  rw [List.rdropWhile_eq_self_iff] at hdrop
  intro hlast
  have hne : decoded ≠ [] := by
    rintro rfl
    simp at hlast
  rw [List.getLast?_eq_some_getLast hne, Option.some.injEq] at hlast
  exact hdrop hne (by simp [hlast])

/-- What the worker's pattern says of a text that does not end in a full stop. -/
lemma matchesDkimQuery_spec {s : PyStr} (hdot : s.getLast? ≠ some (ofChar '.'))
    (h : matchesDkimQuery s = true) :
    (1 ≤ s.length ∧ s.length ≤ 253) ∧ ∃ i, 1 ≤ i ∧
      (s.splitOn (ofChar '.'))[i]? = some (py "_domainkey") ∧
      (∀ l ∈ (s.splitOn (ofChar '.')).take i, isSelectorLabel l = true) ∧
      2 ≤ ((s.splitOn (ofChar '.')).drop (i + 1)).length ∧
      ∀ l ∈ (s.splitOn (ofChar '.')).drop (i + 1), isDomainLabel l = true := by
  simp only [matchesDkimQuery, if_neg hdot, Bool.and_eq_true, decide_eq_true_eq, List.any_eq_true,
    List.mem_range, List.all_eq_true, beq_iff_eq] at h
  obtain ⟨hlength, i, -, ⟨⟨⟨hi, hmarker⟩, hselector⟩, htwo⟩, hdomain⟩ := h
  exact ⟨hlength, i, hi, hmarker, hselector, htwo, hdomain⟩

/-- The worker's pattern takes DKIM names only. -/
lemma dkimName_of_matchesDkimQuery {s : PyStr} (hdot : s.getLast? ≠ some (ofChar '.'))
    (h : matchesDkimQuery s = true) : DkimName s := by
  obtain ⟨hlength, i, hi, hmarker, hselector, htwo, hdomain⟩ := matchesDkimQuery_spec hdot h
  exact .of_splitOn hlength.2 hi hmarker
    (fun l hl => nameLabel_of_isSelectorLabel (hselector l hl)) htwo
    (fun l hl => domainLabel_of_isDomainLabel (hdomain l hl))

end MailGate
