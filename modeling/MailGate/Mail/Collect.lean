import MailGate.Mail.Outside

/-!
# Collecting from the parts

The loop over the parts gets through when every part can be read and the attachments are not too
many.  What it collects comes from the leaf parts, and so from what the message has outside of
its attachments and from what is inside of attached containers.
-/

namespace MailGate

open Exceptions

section

variable {lib : Library}

/-! ## Parts that can be read -/

/-- The loop over the parts does not raise at this part, the limit on attachments aside. -/
def Readable (lib : Library) (part : MimePart) : Prop := ∃ acc, collectPart lib {} part = .ok acc

lemma readable_multipart (headers : PartHeaders) (parts : List MimePart)
    (h : headers.canContain = true) : Readable lib (.multipart headers parts h) := ⟨{}, rfl⟩

/-- The limit on attachments is the only way in which a part depends on the earlier ones. -/
lemma collectPart_isOk {acc : PartsAcc} {part : MimePart} :
    (∃ acc', collectPart lib acc part = .ok acc') ↔ Readable lib part ∧
      ((attachmentIn lib part).isSome → acc.attachments.length < maxAttachments) := by
  cases part with
  | multipart headers parts hcontain => simp [Readable, collectPart, attachmentIn]
  | leaf headers payload =>
    have hzero : ¬(0 : ℕ) ≥ maxAttachments := by decide
    cases payload with
    | error e => simp [Readable, collectPart]
    | ok payload =>
      cases hdisposition : headers.contentDisposition with
      | error e => simp [Readable, collectPart, hdisposition]
      | ok disposition =>
        cases hfilename : headers.filename with
        | error e => simp [Readable, collectPart, partFilename, hdisposition, hfilename]
        | ok filename =>
          have hpart : partFilename headers = .ok (safeHeader filename 255) := by
            rw [partFilename, hfilename]
            rfl
          cases htype : headers.contentType with
          | error e =>
            simp only [Readable, collectPart, hdisposition, hpart, htype, ok_bind, error_bind,
              List.length_nil, if_neg hzero]
            split
            · split
              · simp
              · simp
            · simp
          | ok contentType =>
            simp only [Readable, collectPart, hdisposition, hpart, htype, ok_bind, attachmentIn,
              hfilename, List.length_nil, if_neg hzero]
            split
            · split
              · rename_i hfull
                simp [Nat.not_lt.2 hfull]
              · rename_i hroom
                exact ⟨fun _ => ⟨⟨_, rfl⟩, fun _ => Nat.lt_of_not_le hroom⟩, fun _ => ⟨_, rfl⟩⟩
            · split
              · exact ⟨fun _ => ⟨⟨_, rfl⟩, by simp⟩, fun _ => ⟨_, rfl⟩⟩
              · -- what is added does not depend on what was there
                cases hvalue : decodePart lib headers (payload.getD []) with
                | error e => simp
                | ok value =>
                  simp only [ok_bind]
                  split
                  · cases htext : htmlToText lib value.1 with
                    | error e => simp
                    | ok text => exact ⟨fun _ => ⟨⟨_, rfl⟩, by simp⟩, fun _ => ⟨_, rfl⟩⟩
                  · exact ⟨fun _ => ⟨⟨_, rfl⟩, by simp⟩, fun _ => ⟨_, rfl⟩⟩

/-- The loop gets through exactly when every part can be read and there is room for all
attachments. -/
lemma collectParts_isOk {parts : List MimePart} {acc : PartsAcc}
    (hacc : acc.attachments.length ≤ maxAttachments) :
    (∃ acc', collectParts lib parts acc = .ok acc') ↔ (∀ part ∈ parts, Readable lib part) ∧
      acc.attachments.length + (parts.filterMap (attachmentIn lib)).length ≤ maxAttachments := by
  induction parts generalizing acc with
  | nil => simpa [collectParts] using hacc
  | cons part parts ih =>
    have hstep : (∃ acc', collectParts lib (part :: parts) acc = .ok acc') ↔
        ∃ mid, collectPart lib acc part = .ok mid ∧
          ∃ acc', collectParts lib parts mid = .ok acc' := by
      simp only [collectParts, bind_eq_ok]
      constructor
      · rintro ⟨acc', mid, hmid, h⟩
        exact ⟨mid, hmid, acc', h⟩
      · rintro ⟨mid, hmid, acc', h⟩
        exact ⟨acc', mid, hmid, h⟩
    have hcons : ((part :: parts).filterMap (attachmentIn lib)).length =
        (attachmentIn lib part).toList.length + (parts.filterMap (attachmentIn lib)).length := by
      rw [List.filterMap_cons]
      cases attachmentIn lib part with
      | none => simp
      | some a => simp [Nat.add_comm]
    -- a round adds as many attachments as the part is, one or none
    have hround : ∀ {mid}, collectPart lib acc part = .ok mid → mid.attachments.length =
        acc.attachments.length + (attachmentIn lib part).toList.length := by
      intro mid hmid
      rw [(collectPart_eq_ok hmid).1, List.length_append]
    have hone : (attachmentIn lib part).toList.length = if (attachmentIn lib part).isSome then 1
        else 0 := by
      cases attachmentIn lib part with
      | none => rfl
      | some a => rfl
    rw [hstep, List.forall_mem_cons, hcons]
    constructor
    · rintro ⟨mid, hmid, hrest⟩
      obtain ⟨hpart, hroom⟩ := collectPart_isOk.1 ⟨mid, hmid⟩
      have hmidroom : mid.attachments.length ≤ maxAttachments := by
        rw [hround hmid, hone]
        split
        · rename_i hsome
          exact hroom hsome
        · exact hacc
      obtain ⟨hparts, hroom'⟩ := (ih hmidroom).1 hrest
      rw [hround hmid] at hroom'
      exact ⟨⟨hpart, hparts⟩, by omega⟩
    · rintro ⟨⟨hpart, hparts⟩, hroom⟩
      have hfree : (attachmentIn lib part).isSome → acc.attachments.length < maxAttachments := by
        intro hsome
        rw [hone, if_pos hsome] at hroom
        omega
      obtain ⟨mid, hmid⟩ := collectPart_isOk.2 ⟨hpart, hfree⟩
      have hlength := hround hmid
      exact ⟨mid, hmid, (ih (by omega)).2 ⟨hparts, by omega⟩⟩

/-! ## Leaf parts -/

/-- What comes from leaf parts only comes from the leaf parts that `walk()` returns. -/
lemma filterMap_leaves {α : Type} {f : MimePart → Option α}
    (hf : ∀ headers parts h, f (.multipart headers parts h) = none) (part : MimePart) :
    part.leaves.filterMap f = part.walk.filterMap f := by
  rw [MimePart.leaves, List.filterMap_filter]
  refine List.filterMap_congr fun p _ => ?_
  cases p with
  | leaf headers payload => rfl
  | multipart headers parts hcontain => exact (hf headers parts hcontain).symm

lemma readable_walk_iff (part : MimePart) :
    (∀ p ∈ part.walk, Readable lib p) ↔ ∀ p ∈ part.leaves, Readable lib p := by
  constructor
  · intro h p hp
    exact h p (List.mem_of_mem_filter hp)
  · intro h p hp
    cases p with
    | leaf headers payload => exact h _ (List.mem_filter.2 ⟨hp, rfl⟩)
    | multipart headers parts hcontain => exact readable_multipart headers parts hcontain

/-! ## Attachments -/

variable {headers : PartHeaders}

/-- The text of a message has nothing of an attachment that is a leaf part. -/
lemma textIn_of_carries (h : carriesAttachment headers = true)
    (payload : Except MailExn (Option Bytes)) : textIn lib (.leaf headers payload) = none := by
  rw [carriesAttachment_iff] at h
  unfold textIn
  dsimp only
  split
  · rename_i disposition filename contentType hdisposition hfilename htype
    rw [if_pos]
    rcases h with h | ⟨filename', h, hne⟩
    · rw [hdisposition] at h
      cases h
      exact .inl rfl
    · rw [hfilename] at h
      cases h
      exact .inr hne
  · rfl

/-- What is inventoried could be read. -/
lemma readable_of_isSome {part : MimePart} (h : (attachmentIn lib part).isSome) :
    Readable lib part := by
  obtain ⟨a, ha⟩ := Option.isSome_iff_exists.1 h
  cases part with
  | multipart headers parts hcontain => exact readable_multipart headers parts hcontain
  | leaf headers payload =>
    unfold attachmentIn at ha
    dsimp only at ha
    split at ha
    · rename_i hdisposition hfilename htype
      split at ha
      · rename_i hcond
        have hzero : ¬(0 : ℕ) ≥ maxAttachments := by decide
        simp only [Readable, collectPart, partFilename, hdisposition, hfilename, htype, ok_bind,
          pure_bind, if_pos hcond, List.length_nil, if_neg hzero]
        exact ⟨_, rfl⟩
      · cases ha
    · cases ha

/-- What has a text could be read. -/
lemma readable_of_text {part : MimePart} {text : PyStr} (h : textIn lib part = some text) :
    Readable lib part := by
  cases part with
  | multipart headers parts hcontain => exact readable_multipart headers parts hcontain
  | leaf headers payload =>
    unfold textIn at h
    dsimp only at h
    split at h
    · rename_i payload disposition filename contentType hdisposition hfilename htype
      split at h
      · cases h
      rename_i hcond
      split at h
      · cases h
      rename_i htext
      simp only [Readable, collectPart, partFilename, hdisposition, hfilename, htype, ok_bind,
        pure_bind, if_neg hcond, if_neg htext]
      cases hvalue : decodePart lib headers (payload.getD []) with
      | error e =>
        rw [hvalue] at h
        cases h
      | ok value =>
        simp only [hvalue, ok_bind] at h ⊢
        split at h
        · rename_i hhtml
          rw [toOption_eq_some] at h
          rw [if_pos hhtml, h]
          exact ⟨_, rfl⟩
        · rename_i hhtml
          rw [if_neg hhtml]
          exact ⟨_, rfl⟩
    · cases h

/-- An attachment that can be read is inventoried, and would be without its content. -/
lemma attachmentIn_of_carries (h : carriesAttachment headers = true)
    {payload : Except MailExn (Option Bytes)} (hread : Readable lib (.leaf headers payload)) :
    (attachmentIn lib (.leaf headers payload)).isSome ∧
      (attachmentIn lib (.leaf headers (.ok none))).isSome := by
  obtain ⟨acc, hacc⟩ := hread
  have hsome := (collectPart_eq_ok hacc).2.2 headers payload rfl (carriesAttachment_iff.1 h)
  refine ⟨hsome, ?_⟩
  unfold attachmentIn at hsome ⊢
  dsimp only at hsome ⊢
  cases payload with
  | error e => simp at hsome
  | ok payload =>
    split at hsome
    · rename_i hdisposition hfilename htype
      rw [hdisposition, hfilename, htype]
      dsimp only
      split at hsome
      · rename_i hcond
        rw [if_pos hcond]
        rfl
      · cases hsome
    · cases hsome

variable (lib) in
/-- A leaf part outside of attachments is not inventoried. -/
lemma attachmentIn_of_not_carries (h : carriesAttachment headers = false)
    (payload : Except MailExn (Option Bytes)) :
    attachmentIn lib (.leaf headers payload) = none := by
  cases hin : attachmentIn lib (.leaf headers payload) with
  | none => rfl
  | some a =>
    obtain ⟨headers', payload', filename, contentType, hpart, hatt, -, -, -⟩ := mem_attachmentIn hin
    cases hpart
    rw [carriesAttachment_iff.2 hatt] at h
    cases h

/-! ## What expands the items -/

variable (lib) in
/-- Nothing of the text is in an attachment that is shown without its content. -/
lemma textIn_part_attachment (h : carriesAttachment headers = true) :
    textIn lib (OuterItem.attachment headers h).part = none := by
  by_cases hcontain : headers.canContain = true
  · rw [OuterItem.part_open h hcontain]
    rfl
  · rw [OuterItem.part_closed h hcontain]
    exact textIn_of_carries h _

namespace Expands

variable {is : List OuterItem} {n : ℕ} {ls : List MimePart}

/-- Where the leaf parts can be read, the items can. -/
lemma readable (h : Expands is n ls) (hread : ∀ l ∈ ls, Readable lib l) :
    ∀ p ∈ is.map OuterItem.part, Readable lib p := by
  induction h with
  | nil => simp
  | leaf _ ih =>
    rw [List.forall_mem_cons] at hread
    rw [List.map_cons, List.forall_mem_cons]
    exact ⟨hread.1, ih hread.2⟩
  | @attachment headers hcarries payload _ _ _ _ ih =>
    rw [List.forall_mem_cons] at hread
    rw [List.map_cons, List.forall_mem_cons]
    refine ⟨?_, ih hread.2⟩
    by_cases hcontain : headers.canContain = true
    · rw [OuterItem.part_open hcarries hcontain]
      exact readable_multipart _ _ _
    · rw [OuterItem.part_closed hcarries hcontain]
      exact readable_of_isSome (attachmentIn_of_carries hcarries hread.1).2
  | @container _ hcarries hcontain inside _ _ _ _ ih =>
    rw [List.forall_mem_append] at hread
    rw [List.map_cons, List.forall_mem_cons, OuterItem.part_open hcarries hcontain]
    exact ⟨readable_multipart _ _ _, ih hread.2⟩

/-- There are at least as many attachments as those in the items. -/
lemma attachments_le (h : Expands is n ls) (hread : ∀ l ∈ ls, Readable lib l) :
    ((is.map OuterItem.part).filterMap (attachmentIn lib)).length ≤
      (ls.filterMap (attachmentIn lib)).length := by
  induction h with
  | nil => simp
  | @leaf _ payload hcarries _ _ _ _ ih =>
    rw [List.forall_mem_cons] at hread
    have hnone := attachmentIn_of_not_carries lib hcarries payload
    rw [List.map_cons, OuterItem.part, List.filterMap_cons_none hnone,
      List.filterMap_cons_none hnone]
    exact ih hread.2
  | @attachment headers hcarries payload _ _ _ _ ih =>
    rw [List.forall_mem_cons] at hread
    obtain ⟨hfull, hempty⟩ := attachmentIn_of_carries hcarries hread.1
    obtain ⟨a, ha⟩ := Option.isSome_iff_exists.1 hfull
    obtain ⟨b, hb⟩ := Option.isSome_iff_exists.1 hempty
    rw [List.map_cons, List.filterMap_cons_some ha, List.length_cons]
    by_cases hcontain : headers.canContain = true
    · rw [OuterItem.part_open hcarries hcontain, List.filterMap_cons_none rfl]
      exact Nat.le_succ_of_le (ih hread.2)
    · rw [OuterItem.part_closed hcarries hcontain, List.filterMap_cons_some hb, List.length_cons]
      exact Nat.succ_le_succ (ih hread.2)
  | @container _ hcarries hcontain inside _ _ _ _ ih =>
    rw [List.forall_mem_append] at hread
    rw [List.filterMap_append, List.length_append, List.map_cons,
      OuterItem.part_open hcarries hcontain, List.filterMap_cons_none rfl]
    exact Nat.le_add_left_of_le (ih hread.2)

variable (lib) in
/-- The texts of the leaf parts begin with those of the items before the first attachment that
can be a container. -/
lemma texts (h : Expands is n ls) : ∃ rest, ls.filterMap (textIn lib) =
    ((is.takeWhile OuterItem.isClosed).map OuterItem.part).filterMap (textIn lib) ++ rest := by
  induction h with
  | nil => exact ⟨[], rfl⟩
  | @leaf headers payload _ _ _ _ _ ih =>
    obtain ⟨rest, hrest⟩ := ih
    refine ⟨rest, ?_⟩
    rw [List.takeWhile_cons_of_pos rfl, List.map_cons, OuterItem.part, List.filterMap_cons,
      List.filterMap_cons, hrest]
    cases textIn lib (.leaf headers payload) with
    | none => rfl
    | some text => rfl
  | @attachment headers hcarries payload is _ _ _ ih =>
    obtain ⟨rest, hrest⟩ := ih
    by_cases hclosed : (OuterItem.attachment headers hcarries).isClosed = true
    · refine ⟨rest, ?_⟩
      rw [List.takeWhile_cons_of_pos hclosed, List.map_cons,
        List.filterMap_cons_none (textIn_of_carries hcarries payload),
        List.filterMap_cons_none (textIn_part_attachment lib hcarries), hrest]
    · rw [List.takeWhile_cons_of_neg hclosed]
      exact ⟨_, rfl⟩
  | @container headers hcarries hcontain inside _ _ _ _ _ =>
    have hopen : ¬(OuterItem.attachment headers hcarries).isClosed = true := by
      rw [OuterItem.isClosed, hcontain]
      exact Bool.false_ne_true
    rw [List.takeWhile_cons_of_neg hopen]
    exact ⟨_, rfl⟩

/-- With nothing inside of attached containers, the texts are those of the items. -/
lemma texts_of_zero (h : Expands is n ls) (hn : n = 0) :
    ls.filterMap (textIn lib) = (is.map OuterItem.part).filterMap (textIn lib) := by
  induction h with
  | nil => rfl
  | leaf _ ih =>
    rw [List.map_cons, OuterItem.part, List.filterMap_cons, List.filterMap_cons, ih hn]
  | @attachment _ hcarries payload _ _ _ _ ih =>
    rw [List.map_cons, List.filterMap_cons_none (textIn_of_carries hcarries payload),
      List.filterMap_cons_none (textIn_part_attachment lib hcarries), ih hn]
  | @container _ hcarries _ inside _ _ _ _ ih =>
    obtain ⟨hinside, hrest⟩ := Nat.add_eq_zero_iff.1 hn
    rw [List.eq_nil_of_length_eq_zero hinside, List.nil_append, ih hrest, List.map_cons,
      List.filterMap_cons_none (textIn_part_attachment lib hcarries)]

end Expands

end

end MailGate
