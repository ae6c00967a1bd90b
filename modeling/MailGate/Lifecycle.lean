import MailGate.Integrity
import MailGate.Lib.Batches

/-!
# Retention

`lifecycle.py`: the retention policy, the rows that have expired under it, and
`purge_retention`, which deletes them and writes an audit event in one transaction.
-/

namespace MailGate

/-- `RetentionPolicy`; a policy with another period cannot be built. -/
structure RetentionPolicy where
  approvedDays : ℕ
  quarantinedDays : ℕ
  rejectedDays : ℕ
  tokenDays : ℕ
  auditDays : ℕ
  bounded : ∀ days ∈ [approvedDays, quarantinedDays, rejectedDays, tokenDays, auditDays],
    days ≤ 36500

namespace RetentionPolicy

variable (policy : RetentionPolicy) (now : Time)

/-- `now - timedelta(days=days)`. -/
def cutoff (now : Time) (days : ℕ) : Time := now - days * Time.day

/-- `Coalesce("decided_at", "ingested_at")`. -/
def retentionTimestamp (m : Message) : Time := m.decidedAt.getD m.ingestedAt

/-- `_message_queryset`. -/
def messageQueryset (state : State) (cutoff : Time) (m : Message) : Bool :=
  m.state = state.value && retentionTimestamp m < cutoff

/-- `_token_queryset`. -/
def tokenQueryset (cutoff : Time) (t : ApiToken) : Bool :=
  match t.revokedAt with
  | some revoked => revoked < cutoff
  | none => t.expiresAt.any (· < cutoff)

/-- `_delete_queryset_in_batches` for messages: the number of rows and the database. -/
def deleteMessagesInBatches (batchSize : ℕ) (p : Message → Bool) (db : Db) : ℕ × Db :=
  let keys := Batches.deleted Message.id (· ≤ ·) p batchSize
    (db.messages.length + 1) db.messages
  (keys.length, db.deleteMessages fun m => m.id ∈ keys)

/-- `_delete_queryset_in_batches` for tokens. -/
def deleteTokensInBatches (batchSize : ℕ) (p : ApiToken → Bool) (db : Db) : ℕ × Db :=
  let keys := Batches.deleted ApiToken.id (· ≤ ·) p batchSize
    (db.tokens.length + 1) db.tokens
  (keys.length, { db with tokens := db.tokens.filter fun t => t.id ∉ keys })

/-- `_delete_queryset_in_batches` for audit events. -/
def deleteAuditInBatches (batchSize : ℕ) (p : AuditEvent → Bool) (db : Db) : ℕ × Db :=
  let keys := Batches.deleted AuditEvent.id (· ≤ ·) p batchSize
    (db.audit.length + 1) db.audit
  (keys.length, { db with audit := db.audit.filter fun e => e.id ∉ keys })

/-- `vars(policy)`. -/
def vars : List (PyStr × ℕ) :=
  [(py "approved_days", policy.approvedDays), (py "quarantined_days", policy.quarantinedDays),
    (py "rejected_days", policy.rejectedDays), (py "token_days", policy.tokenDays),
    (py "audit_days", policy.auditDays)]

/-- The transaction of `purge_retention`: the counts and the database. -/
def purge (batchSize : ℕ) (auditAt : Time) (db : Db) : List (PyStr × ℕ) × Db :=
  let (approved, db) := deleteMessagesInBatches batchSize
    (messageQueryset .approved (cutoff now policy.approvedDays)) db
  let (quarantined, db) := deleteMessagesInBatches batchSize
    (messageQueryset .quarantined (cutoff now policy.quarantinedDays)) db
  let (rejected, db) := deleteMessagesInBatches batchSize
    (messageQueryset .rejected (cutoff now policy.rejectedDays)) db
  let (tokens, db) := deleteTokensInBatches batchSize
    (tokenQueryset (cutoff now policy.tokenDays)) db
  let (events, db) := deleteAuditInBatches batchSize
    (fun e => e.createdAt < cutoff now policy.auditDays) db
  let deleted :=
    [(py "approved_messages", approved), (py "quarantined_messages", quarantined),
      (py "rejected_messages", rejected), (py "inactive_tokens", tokens),
      (py "audit_events", events)]
  (deleted, db.writeAudit (py "system:retention") (py "retention.purged") none
    [(py "counts", .counts deleted), (py "policy_days", .counts policy.vars)] auditAt)

/-- `purge_retention`; `none` is the `ValueError` of a batch size out of range. -/
def purgeRetention (batchSize : ℕ) (auditAt : Time) (db : Db) :
    Option (List (PyStr × ℕ) × Db) :=
  if 1 ≤ batchSize ∧ batchSize ≤ 10000 then some (policy.purge now batchSize auditAt db) else none

/-- The message has expired. -/
def Expired (m : Message) : Prop :=
  messageQueryset .approved (cutoff now policy.approvedDays) m = true ∨
    messageQueryset .quarantined (cutoff now policy.quarantinedDays) m = true ∨
    messageQueryset .rejected (cutoff now policy.rejectedDays) m = true

instance (m : Message) : Decidable (policy.Expired now m) := by
  unfold Expired
  infer_instance

end RetentionPolicy

open RetentionPolicy

section Purge

variable {db : Db} {batchSize : ℕ}

/-- Deleting in batches deletes the messages that satisfy the condition. -/
lemma deleteMessagesInBatches_eq (hids : (db.messages.map (·.id)).Nodup)
    (hbatch : 0 < batchSize) (p : Message → Bool) :
    deleteMessagesInBatches batchSize p db = (db.messages.countP p, db.deleteMessages p) := by
  have hfuel : (db.messages.filter p).length < db.messages.length + 1 :=
    Nat.lt_succ_of_le (List.length_filter_le p db.messages)
  have hgone : ∀ m ∈ db.messages, decide (m.id ∈ Batches.deleted Message.id
      (· ≤ ·) p batchSize (db.messages.length + 1) db.messages) = p m :=
    fun m hm => Batches.decide_mem_deleted _ hbatch hids hfuel hm
  have hkept : ∀ m ∈ db.messages, (!decide (m.id ∈ Batches.deleted Message.id
      (· ≤ ·) p batchSize (db.messages.length + 1) db.messages)) = !p m :=
    fun m hm => congrArg not (hgone m hm)
  simp only [deleteMessagesInBatches, Db.deleteMessages, Prod.mk.injEq]
  refine ⟨Batches.length_deleted hbatch hids hfuel, ?_⟩
  rw [List.filter_congr hgone, List.filter_congr hkept]

lemma deleteTokensInBatches_eq (hids : (db.tokens.map (·.id)).Nodup) (hbatch : 0 < batchSize)
    (p : ApiToken → Bool) :
    deleteTokensInBatches batchSize p db =
      (db.tokens.countP p, { db with tokens := db.tokens.filter fun t => !p t }) := by
  have hfuel : (db.tokens.filter p).length < db.tokens.length + 1 :=
    Nat.lt_succ_of_le (List.length_filter_le p db.tokens)
  simp only [deleteTokensInBatches, Batches.length_deleted hbatch hids hfuel,
    Batches.filter_not_mem_deleted _ hbatch hids hfuel]

lemma deleteAuditInBatches_eq (hids : (db.audit.map (·.id)).Nodup) (hbatch : 0 < batchSize)
    (p : AuditEvent → Bool) :
    deleteAuditInBatches batchSize p db =
      (db.audit.countP p, { db with audit := db.audit.filter fun e => !p e }) := by
  have hfuel : (db.audit.filter p).length < db.audit.length + 1 :=
    Nat.lt_succ_of_le (List.length_filter_le p db.audit)
  simp only [deleteAuditInBatches, Batches.length_deleted hbatch hids hfuel,
    Batches.filter_not_mem_deleted _ hbatch hids hfuel]

lemma deleteTokensInBatches_valid (hvalid : db.Valid) (p : ApiToken → Bool) :
    (deleteTokensInBatches batchSize p db).2.Valid :=
  ⟨hvalid.mailbox_ids, hvalid.mailbox_seq, hvalid.message_ids, hvalid.message_keys,
    hvalid.message_mailbox, hvalid.attachment_message⟩

lemma deleteAuditInBatches_valid (hvalid : db.Valid) (p : AuditEvent → Bool) :
    (deleteAuditInBatches batchSize p db).2.Valid :=
  ⟨hvalid.mailbox_ids, hvalid.mailbox_seq, hvalid.message_ids, hvalid.message_keys,
    hvalid.message_mailbox, hvalid.attachment_message⟩

variable {policy : RetentionPolicy} {now auditAt : Time} {counts : List (PyStr × ℕ)} {db' : Db}

/-- A purge adds no message and touches no mailbox, whatever the tables hold. -/
lemma purgeRetention_frame
    (h : policy.purgeRetention now batchSize auditAt db = some (counts, db')) :
    (∀ m ∈ db'.messages, m ∈ db.messages) ∧ db'.mailboxes = db.mailboxes ∧
      db'.mailboxSeq = db.mailboxSeq := by
  unfold purgeRetention at h
  split at h
  swap
  · cases h
  simp only [purge, Option.some.injEq, Prod.mk.injEq] at h
  obtain ⟨-, rfl⟩ := h
  -- the three queries on messages, one after the other
  refine ⟨?_, rfl, rfl⟩
  intro m hm
  exact List.mem_of_mem_filter (List.mem_of_mem_filter (List.mem_of_mem_filter hm))

/-- A purge deletes the inactive tokens and the old audit events, and adds an event of its
own. -/
lemma purgeRetention_access (htokens : (db.tokens.map (·.id)).Nodup)
    (haudit : (db.audit.map (·.id)).Nodup)
    (h : policy.purgeRetention now batchSize auditAt db = some (counts, db')) :
    db'.tokens = (db.tokens.filter fun t => !tokenQueryset (cutoff now policy.tokenDays) t) ∧
      ∃ event, event.action = py "retention.purged" ∧
        db'.audit = (db.audit.filter fun e => cutoff now policy.auditDays ≤ e.createdAt) ++
          [event] := by
  unfold purgeRetention at h
  split at h
  swap
  · cases h
  rename_i hbatch
  have hpos : 0 < batchSize := hbatch.1
  -- the queries on messages leave the two tables alone
  have hstep : ∃ db₁ metadata, db₁.tokens = db.tokens ∧ db₁.audit = db.audit ∧
      db' = Db.writeAudit
        (deleteAuditInBatches batchSize (fun e => e.createdAt < cutoff now policy.auditDays)
          (deleteTokensInBatches batchSize (tokenQueryset (cutoff now policy.tokenDays)) db₁).2).2
        (py "system:retention") (py "retention.purged") none metadata auditAt := by
    refine ⟨_, _, ?_, ?_, (congrArg Prod.snd (Option.some.inj h)).symm⟩
    · rfl
    · rfl
  obtain ⟨db₁, metadata, htok, haud, rfl⟩ := hstep
  rw [← htok] at htokens ⊢
  rw [← haud] at haudit ⊢
  rw [deleteTokensInBatches_eq htokens hpos, deleteAuditInBatches_eq ?_ hpos]
  swap
  · exact haudit
  obtain ⟨event, haction, hadded⟩ := Db.writeAudit_audit
    { db₁ with
      tokens := db₁.tokens.filter fun t => !tokenQueryset (cutoff now policy.tokenDays) t
      audit := db₁.audit.filter fun e => !decide (e.createdAt < cutoff now policy.auditDays) }
    (py "system:retention") (py "retention.purged") none metadata auditAt
  refine ⟨rfl, event, haction.trans (List.take_of_length_le (by decide)), ?_⟩
  rw [hadded]
  simp only [← decide_not, not_lt]

/-- A purge deletes the expired messages, and leaves the mailboxes alone. -/
lemma purgeRetention_eq_some (hvalid : db.Valid)
    (h : policy.purgeRetention now batchSize auditAt db = some (counts, db')) :
    db'.messages = db.messages.filter (fun m => ¬ policy.Expired now m) ∧
      db'.mailboxes = db.mailboxes ∧ db'.mailboxSeq = db.mailboxSeq ∧ db'.Valid := by
  obtain ⟨-, hbox, hseq⟩ := purgeRetention_frame h
  unfold purgeRetention at h
  split at h
  swap
  · cases h
  rename_i hbatch
  have hpos : 0 < batchSize := hbatch.1
  have hvalid₁ := Db.deleteMessages_valid hvalid
    (messageQueryset .approved (cutoff now policy.approvedDays))
  have hvalid₂ := Db.deleteMessages_valid hvalid₁
    (messageQueryset .quarantined (cutoff now policy.quarantinedDays))
  have hvalid₃ := Db.deleteMessages_valid hvalid₂
    (messageQueryset .rejected (cutoff now policy.rejectedDays))
  simp only [purge, deleteMessagesInBatches_eq hvalid.message_ids hpos,
    deleteMessagesInBatches_eq hvalid₁.message_ids hpos,
    deleteMessagesInBatches_eq hvalid₂.message_ids hpos,
    Option.some.injEq, Prod.mk.injEq] at h
  obtain ⟨-, rfl⟩ := h
  refine ⟨?_, hbox, hseq, ?_⟩
  · simp only [Db.writeAudit, deleteTokensInBatches, deleteAuditInBatches, Db.deleteMessages,
      List.filter_filter]
    refine List.filter_congr ?_
    intro m hm
    simp only [Expired, not_or, Bool.decide_and, Bool.not_eq_true, Bool.decide_eq_false]
    grind
  · refine Db.writeAudit_valid ?_ _ _ _ _ _
    exact deleteAuditInBatches_valid (deleteTokensInBatches_valid hvalid₃ _) _

end Purge

end MailGate
