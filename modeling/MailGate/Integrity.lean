import MailGate.Lib.Exceptions
import MailGate.Models

/-!
# Integrity of the database

The constraints that the schema declares over whole tables: primary keys, the unique key of
a message, and the references from messages to mailboxes and from attachments to messages.
Every statement of the application keeps them.
-/

namespace MailGate

namespace Db

/-- What the schema declares about the tables as a whole. -/
structure Valid (db : Db) : Prop where
  mailbox_ids : (db.mailboxes.map (·.id)).Nodup
  /-- The sequence has not handed out its next value. -/
  mailbox_seq : ∀ m ∈ db.mailboxes, m.id < db.mailboxSeq
  message_ids : (db.messages.map (·.id)).Nodup
  /-- `unique_imap_message`. -/
  message_keys : (db.messages.map Message.key).Nodup
  message_mailbox : ∀ m ∈ db.messages, m.mailboxId ∈ db.mailboxes.map (·.id)
  attachment_message : ∀ a ∈ db.attachments, a.messageId ∈ db.messages.map (·.id)

/-- A row of a valid table is determined by its key. -/
lemma eq_of_map_nodup {α κ : Type} {key : α → κ} {rows : List α}
    (h : (rows.map key).Nodup) {a b : α} (ha : a ∈ rows) (hb : b ∈ rows)
    (hab : key a = key b) : a = b :=
  List.inj_on_of_nodup_map h ha hb hab

/-- A row with a new key keeps the keys of a table apart. -/
lemma nodup_map_concat {α κ : Type} {key : α → κ} {rows : List α} {row : α}
    (h : (rows.map key).Nodup) (hnew : ∀ r ∈ rows, key r ≠ key row) :
    ((rows ++ [row]).map key).Nodup := by
  rw [List.map_append, List.nodup_append]
  refine ⟨h, by simp, ?_⟩
  rintro _ hkey _ hkey'
  obtain ⟨r, hr, rfl⟩ := List.mem_map.1 hkey
  rw [List.mem_singleton.1 hkey']
  exact hnew r hr

section Statements

variable {db db' : Db}

/-- Updating rows in place keeps every column that the update of each row keeps. -/
lemma map_update {α κ : Type} {key : α → κ} {set : α → α} {rows : List α}
    (hset : ∀ a ∈ rows, key (set a) = key a) : (rows.map set).map key = rows.map key := by
  rw [List.map_map]
  exact List.map_congr_left hset

lemma writeAudit_valid (h : db.Valid) (actor action : PyStr) (obj : Option (PyStr × PyStr))
    (metadata : List (PyStr × MetaValue)) (now : Time) :
    (db.writeAudit actor action obj metadata now).Valid :=
  ⟨h.mailbox_ids, h.mailbox_seq, h.message_ids, h.message_keys, h.message_mailbox,
    h.attachment_message⟩

lemma writeAudit_audit (db : Db) (actor action : PyStr) (obj : Option (PyStr × PyStr))
    (metadata : List (PyStr × MetaValue)) (now : Time) :
    ∃ event, event.action = action.take 120 ∧
      (db.writeAudit actor action obj metadata now).audit = db.audit ++ [event] :=
  ⟨_, rfl, rfl⟩

/-- What an accepted insert has checked, and what it does. -/
lemma insertMessage_eq_ok {currentUser : Role} {new : Message} :
    db.insertMessage currentUser new = .ok db' ↔
      (forceWorkerQuarantine currentUser new).Fits ∧
      (∀ m ∈ db.messages, m.id ≠ (forceWorkerQuarantine currentUser new).id ∧
        m.key ≠ (forceWorkerQuarantine currentUser new).key) ∧
      (forceWorkerQuarantine currentUser new).mailboxId ∈ db.mailboxes.map (·.id) ∧
      (forceWorkerQuarantine currentUser new).state ∈
        [State.quarantined.value, State.approved.value, State.rejected.value] ∧
      { db with messages := db.messages ++ [forceWorkerQuarantine currentUser new] } = db' := by
  generalize hrow : forceWorkerQuarantine currentUser new = row
  unfold insertMessage
  rw [hrow]
  by_cases hfits : row.Fits
  · by_cases hbad : (∃ m ∈ db.messages, m.id = row.id ∨ m.key = row.key) ∨
        row.mailboxId ∉ db.mailboxes.map (·.id) ∨
        row.state ∉ [State.quarantined.value, State.approved.value, State.rejected.value]
    · simp only [hfits, not_true_eq_false, if_false, hbad, if_true, reduceCtorEq, true_and,
        false_iff]
      rintro ⟨hnew, hbox, hstate, -⟩
      rcases hbad with ⟨m, hm, hid | hkey⟩ | hbad | hbad
      · exact (hnew m hm).1 hid
      · exact (hnew m hm).2 hkey
      · exact hbad hbox
      · exact hbad hstate
    · simp only [hfits, not_true_eq_false, if_false, hbad, true_and, Except.ok.injEq]
      push Not at hbad
      obtain ⟨hnew, hbox, hstate⟩ := hbad
      exact ⟨fun h => ⟨hnew, hbox, hstate, h⟩, fun h => h.2.2.2⟩
  · simp [hfits]

/-- A new row for a message of a known mailbox keeps the integrity. -/
lemma Valid.addMessage (h : db.Valid) {row : Message}
    (hnew : ∀ m ∈ db.messages, m.id ≠ row.id ∧ m.key ≠ row.key)
    (hbox : row.mailboxId ∈ db.mailboxes.map (·.id)) :
    Valid { db with messages := db.messages ++ [row] } := by
  refine { h with message_ids := ?_, message_keys := ?_, message_mailbox := ?_,
                  attachment_message := ?_ }
  · exact nodup_map_concat h.message_ids fun m hm => (hnew m hm).1
  · exact nodup_map_concat h.message_keys fun m hm => (hnew m hm).2
  · intro m hm
    rcases List.mem_append.1 hm with hm | hm
    · exact h.message_mailbox m hm
    · rw [List.mem_singleton.1 hm]
      exact hbox
  · intro a ha
    rw [List.map_append, List.mem_append]
    exact .inl (h.attachment_message a ha)

lemma insertMessage_valid (h : db.Valid) {currentUser : Role} {new : Message}
    (hins : db.insertMessage currentUser new = .ok db') : db'.Valid := by
  obtain ⟨-, hnew, hbox, -, rfl⟩ := insertMessage_eq_ok.1 hins
  exact h.addMessage hnew hbox

lemma insertAttachments_eq_ok {rows : List Attachment} :
    db.insertAttachments rows = .ok db' ↔
      (∀ a ∈ rows, a.Fits) ∧ (∀ a ∈ rows, a.messageId ∈ db.messages.map (·.id)) ∧
        { db with attachments := db.attachments ++ rows } = db' := by
  unfold insertAttachments
  by_cases hfits : ∃ a ∈ rows, ¬ a.Fits
  · rw [if_pos hfits]
    obtain ⟨a, ha, hbad⟩ := hfits
    simp only [reduceCtorEq, false_iff]
    rintro ⟨hall, -⟩
    exact hbad (hall a ha)
  · rw [if_neg hfits]
    push Not at hfits
    by_cases href : ∃ a ∈ rows, a.messageId ∉ db.messages.map (·.id)
    · rw [if_pos href]
      obtain ⟨a, ha, hbad⟩ := href
      simp only [reduceCtorEq, false_iff]
      rintro ⟨-, hall, -⟩
      exact hbad (hall a ha)
    · rw [if_neg href]
      push Not at href
      rw [Except.ok.injEq]
      exact ⟨fun h => ⟨hfits, href, h⟩, fun h => h.2.2⟩

/-- New attachments of known messages keep the integrity. -/
lemma Valid.addAttachments (h : db.Valid) {rows : List Attachment}
    (href : ∀ a ∈ rows, a.messageId ∈ db.messages.map (·.id)) :
    Valid { db with attachments := db.attachments ++ rows } := by
  refine { h with attachment_message := ?_ }
  intro a ha
  rcases List.mem_append.1 ha with ha | ha
  · exact h.attachment_message a ha
  · exact href a ha

lemma insertAttachments_valid (h : db.Valid) {rows : List Attachment}
    (hins : db.insertAttachments rows = .ok db') : db'.Valid := by
  obtain ⟨-, href, rfl⟩ := insertAttachments_eq_ok.1 hins
  exact h.addAttachments href

@[simp] lemma bumpMailboxConfigVersion_id (old new : Mailbox) :
    (bumpMailboxConfigVersion old new).id = new.id := by
  unfold bumpMailboxConfigVersion
  split <;> rfl

lemma updateMailboxes_eq_ok {p : Mailbox → Bool} {set : Mailbox → Mailbox} {n : ℕ} :
    db.updateMailboxes p set = .ok (n, db') ↔
      (∀ m ∈ db.mailboxes, p m = true → (set m).Fits) ∧ db.mailboxes.countP p = n ∧
        { db with
          mailboxes := db.mailboxes.map fun m =>
            if p m then bumpMailboxConfigVersion m (set m) else m } = db' := by
  unfold updateMailboxes
  by_cases hbad : ∃ m ∈ db.mailboxes, p m = true ∧ ¬ (set m).Fits
  · rw [if_pos hbad]
    obtain ⟨m, hm, hp, hfits⟩ := hbad
    simp only [reduceCtorEq, false_iff]
    rintro ⟨hall, -⟩
    exact hfits (hall m hm hp)
  · rw [if_neg hbad]
    push Not at hbad
    simp only [Except.ok.injEq, Prod.mk.injEq]
    exact ⟨fun h => ⟨hbad, h⟩, fun h => h.2⟩

/-- An update that keeps the keys of the rows that it changes keeps all keys. -/
lemma updateMailboxes_ids {p : Mailbox → Bool} {set : Mailbox → Mailbox} {n : ℕ}
    (hset : ∀ m ∈ db.mailboxes, p m = true → (set m).id = m.id)
    (hupd : db.updateMailboxes p set = .ok (n, db')) :
    db'.mailboxes.map (·.id) = db.mailboxes.map (·.id) := by
  obtain ⟨-, -, rfl⟩ := updateMailboxes_eq_ok.1 hupd
  refine map_update ?_
  intro m hm
  by_cases hp : p m
  · simp [hp, hset m hm hp]
  · simp [hp]

lemma updateMailboxes_valid (h : db.Valid) {p : Mailbox → Bool} {set : Mailbox → Mailbox}
    {n : ℕ} (hset : ∀ m ∈ db.mailboxes, p m = true → (set m).id = m.id)
    (hupd : db.updateMailboxes p set = .ok (n, db')) : db'.Valid := by
  have hid := updateMailboxes_ids hset hupd
  obtain ⟨-, -, rfl⟩ := updateMailboxes_eq_ok.1 hupd
  simp only at hid
  refine { h with mailbox_ids := by rw [hid]; exact h.mailbox_ids, mailbox_seq := ?_,
                  message_mailbox := ?_ }
  · intro m hm
    have hmem : m.id ∈ db.mailboxes.map (·.id) := by
      rw [← hid]
      exact List.mem_map_of_mem hm
    obtain ⟨m', hm', heq⟩ := List.mem_map.1 hmem
    have hlt := h.mailbox_seq m' hm'
    simp only at heq ⊢
    omega
  · intro m hm
    simp only
    rw [hid]
    exact h.message_mailbox m hm

lemma insertMailbox_eq_ok {new : Mailbox} {id : ℕ} :
    db.insertMailbox new = .ok (id, db') ↔
      Mailbox.Fits { new with id := db.mailboxSeq } ∧ db.mailboxSeq = id ∧
        { db with
          mailboxes := db.mailboxes ++ [{ new with id := db.mailboxSeq }]
          mailboxSeq := db.mailboxSeq + 1 } = db' := by
  unfold insertMailbox
  by_cases hfits : Mailbox.Fits { new with id := db.mailboxSeq }
  · simp [hfits]
  · simp [hfits]

lemma insertMailbox_valid (h : db.Valid) {new : Mailbox} {id : ℕ}
    (hins : db.insertMailbox new = .ok (id, db')) : db'.Valid := by
  obtain ⟨-, -, rfl⟩ := insertMailbox_eq_ok.1 hins
  refine { h with mailbox_ids := ?_, mailbox_seq := ?_, message_mailbox := ?_ }
  · -- the sequence has not handed out the key of the new row
    exact nodup_map_concat h.mailbox_ids fun m hm => (h.mailbox_seq m hm).ne
  · intro m hm
    rcases List.mem_append.1 hm with hm | hm
    · have hlt := h.mailbox_seq m hm
      simp only
      omega
    · rw [List.mem_singleton.1 hm]
      simp
  · intro m hm
    rw [List.map_append, List.mem_append]
    exact .inl (h.message_mailbox m hm)

lemma deleteMessages_valid (h : db.Valid) (p : Message → Bool) : (db.deleteMessages p).Valid := by
  refine { h with message_ids := ?_, message_keys := ?_, message_mailbox := ?_,
                  attachment_message := ?_ }
  · exact h.message_ids.sublist (List.filter_sublist.map _)
  · exact h.message_keys.sublist (List.filter_sublist.map _)
  · intro m hm
    exact h.message_mailbox m (List.mem_of_mem_filter hm)
  · intro a ha
    obtain ⟨ha, hkept⟩ := List.mem_filter.1 ha
    obtain ⟨m, hm, hid⟩ := List.mem_map.1 (h.attachment_message a ha)
    refine List.mem_map.2 ⟨m, List.mem_filter.2 ⟨hm, ?_⟩, hid⟩
    -- a deleted message would have taken the attachment with it
    by_contra hp
    have hgone : a.messageId ∈ (db.messages.filter p).map (·.id) :=
      List.mem_map.2 ⟨m, List.mem_filter.2 ⟨hm, by simpa using hp⟩, hid⟩
    simp [hgone] at hkept

lemma deleteMailbox_valid (h : db.Valid) (id : ℕ) : (db.deleteMailbox id).Valid := by
  have hdel := deleteMessages_valid h fun m => m.mailboxId = id
  refine { hdel with mailbox_ids := ?_, mailbox_seq := ?_, message_mailbox := ?_ }
  · exact h.mailbox_ids.sublist (List.filter_sublist.map _)
  · intro m hm
    exact h.mailbox_seq m (List.mem_of_mem_filter hm)
  · intro m hm
    obtain ⟨hm, hkept⟩ := List.mem_filter.1 hm
    obtain ⟨box, hbox, hid⟩ := List.mem_map.1 (h.message_mailbox m hm)
    refine List.mem_map.2 ⟨box, List.mem_filter.2 ⟨hbox, ?_⟩, hid⟩
    simp only [decide_eq_true_eq]
    rintro rfl
    simp [hid] at hkept

lemma updateDecision_eq_ok {id : Uuid} {decision : PyStr} {now : Time} :
    db.updateDecision id decision now = .ok db' ↔
      id ∈ db.messages.map (·.id) ∧
        decision ∈ [State.quarantined.value, State.approved.value, State.rejected.value] ∧
        { db with
          messages := db.messages.map fun m =>
            if m.id = id then { m with state := decision, decidedAt := some now } else m } =
          db' := by
  unfold updateDecision
  by_cases hid : id ∈ db.messages.map (·.id)
  · by_cases hstate :
        decision ∈ [State.quarantined.value, State.approved.value, State.rejected.value]
    · rw [if_neg (by simpa using hid), if_neg (not_not.2 hstate), Except.ok.injEq]
      exact ⟨fun h => ⟨hid, hstate, h⟩, fun h => h.2.2⟩
    · rw [if_neg (by simpa using hid), if_pos hstate]
      simp [hstate]
  · rw [if_pos hid]
    simp [hid]

lemma updateDecision_valid (h : db.Valid) {id : Uuid} {decision : PyStr} {now : Time}
    (hupd : db.updateDecision id decision now = .ok db') : db'.Valid := by
  obtain ⟨-, -, rfl⟩ := updateDecision_eq_ok.1 hupd
  have hmap : ∀ {κ : Type} (key : Message → κ),
      (∀ m : Message, key { m with state := decision, decidedAt := some now } = key m) →
      (db.messages.map fun m =>
        if m.id = id then { m with state := decision, decidedAt := some now } else m).map key =
        db.messages.map key := by
    intro κ key hkey
    refine map_update ?_
    intro m hm
    split
    · exact hkey m
    · rfl
  refine { h with message_ids := ?_, message_keys := ?_, message_mailbox := ?_,
                  attachment_message := ?_ }
  · rw [hmap _ fun _ => rfl]
    exact h.message_ids
  · rw [hmap _ fun _ => rfl]
    exact h.message_keys
  · intro m hm
    have hbox : m.mailboxId ∈ db.messages.map (·.mailboxId) := by
      rw [← hmap (·.mailboxId) fun _ => rfl]
      exact List.mem_map_of_mem hm
    obtain ⟨m', hm', heq⟩ := List.mem_map.1 hbox
    rw [← heq]
    exact h.message_mailbox m' hm'
  · intro a ha
    rw [hmap _ fun _ => rfl]
    exact h.attachment_message a ha

end Statements

end Db

end MailGate
