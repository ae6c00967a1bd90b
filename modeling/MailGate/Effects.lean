import MailGate.System

/-!
# What a transaction does to the mail

Most transactions of an installation leave the tables of mailboxes and messages alone.  This
file says of each of the others what it does to them, once.
-/

namespace MailGate

/-! ## Transactions that touch no mail -/

/-- The tables of mailboxes, messages and attachments are the same. -/
structure SameMail (s s' : Db) : Prop where
  mailboxes : s'.mailboxes = s.mailboxes
  mailboxSeq : s'.mailboxSeq = s.mailboxSeq
  messages : s'.messages = s.messages
  attachments : s'.attachments = s.attachments

namespace SameMail

variable {s s₁ s' : Db}

lemma refl (s : Db) : SameMail s s := ⟨rfl, rfl, rfl, rfl⟩

lemma valid (h : SameMail s s') (hs : s.Valid) : s'.Valid := by
  obtain ⟨hbox, hseq, hmsg, hatt⟩ := h
  constructor
  · rw [hbox]
    exact hs.mailbox_ids
  · rw [hbox, hseq]
    exact hs.mailbox_seq
  · rw [hmsg]
    exact hs.message_ids
  · rw [hmsg]
    exact hs.message_keys
  · rw [hmsg, hbox]
    exact hs.message_mailbox
  · rw [hatt, hmsg]
    exact hs.attachment_message

lemma writeAudit (s : Db) (actor action : PyStr) (obj : Option (PyStr × PyStr))
    (metadata : List (PyStr × MetaValue)) (now : Time) :
    SameMail s (s.writeAudit actor action obj metadata now) :=
  ⟨rfl, rfl, rfl, rfl⟩

end SameMail

section Frames

variable {s s' : Db}

lemma setupOwnerTransaction_sameMail {username : PyStr} {userId : ℕ} {now : Time} {page : Page}
    (h : setupOwnerTransaction username userId now s = .ok (page, s')) : SameMail s s' := by
  unfold setupOwnerTransaction at h
  split at h
  · cases h
    exact .refl s
  · cases h
    exact ⟨rfl, rfl, rfl, rfl⟩

lemma insertToken_sameMail {token : ApiToken} {id : ℕ} (h : s.insertToken token = .ok (id, s')) :
    SameMail s s' := by
  unfold Db.insertToken at h
  simp only at h
  split at h
  · cases h
  · split at h
    · cases h
    · cases h
      exact ⟨rfl, rfl, rfl, rfl⟩

lemma updateRevoked_sameMail {tokenId : ℕ} {now : Time}
    (h : s.updateRevoked tokenId now = .ok s') : SameMail s s' := by
  unfold Db.updateRevoked at h
  split at h
  · cases h
  · cases h
    exact ⟨rfl, rfl, rfl, rfl⟩

lemma mailgateApiAuthorize_sameMail (tokenHash path : PyStr) (now : Time) (s : Db) :
    SameMail s (mailgateApiAuthorize tokenHash path now s).2 := by
  rcases mailgateApiAuthorize_cases tokenHash path now s with
    ⟨-, hsame⟩ | ⟨token, -, -, -, hread⟩
  · rw [hsame]
    exact .refl s
  · rw [hread]
    exact ⟨rfl, rfl, rfl, rfl⟩

end Frames

/-! ## Updates of mailboxes -/

/-- One `UPDATE` of mailbox rows that keeps their keys. -/
def MailboxUpdate (s s' : Db) : Prop :=
  ∃ p set n, (∀ m ∈ s.mailboxes, p m = true → (set m).id = m.id) ∧
    s.updateMailboxes p set = .ok (n, s')

lemma MailboxUpdate.of_ok {s s' : Db} {p : Mailbox → Bool} {set : Mailbox → Mailbox} {n : ℕ}
    (hupd : s.updateMailboxes p set = .ok (n, s')) (hset : ∀ m, (set m).id = m.id) :
    MailboxUpdate s s' :=
  ⟨p, set, n, fun m _ _ => hset m, hupd⟩

/-- Any number of updates of mailbox rows, and changes that concern no mail. -/
inductive MailboxUpdates : Db → Db → Prop where
  | same {s s' : Db} (h : SameMail s s') : MailboxUpdates s s'
  | update {s s₁ s' : Db} (h : MailboxUpdate s s₁) (hrest : MailboxUpdates s₁ s') :
      MailboxUpdates s s'

namespace MailboxUpdates

variable {s s' : Db}

lemma messages (h : MailboxUpdates s s') :
    s'.messages = s.messages ∧ s'.attachments = s.attachments ∧ s'.mailboxSeq = s.mailboxSeq := by
  induction h with
  | same h => exact ⟨h.messages, h.attachments, h.mailboxSeq⟩
  | update h hrest ih =>
    obtain ⟨p, set, n, -, hupd⟩ := h
    obtain ⟨-, -, rfl⟩ := Db.updateMailboxes_eq_ok.1 hupd
    exact ih

lemma valid (h : MailboxUpdates s s') (hs : s.Valid) : s'.Valid := by
  induction h with
  | same h => exact h.valid hs
  | update h hrest ih =>
    obtain ⟨p, set, n, hset, hupd⟩ := h
    exact ih (Db.updateMailboxes_valid hs hset hupd)

end MailboxUpdates

lemma MailboxForm.save_id {settings : WebSettings} {encryptSecret : PyStr → Option Bytes}
    {cleaned : MailboxFields} {mailbox saved : Mailbox}
    (h : MailboxForm.save settings encryptSecret cleaned mailbox = some saved) :
    saved.id = mailbox.id := by
  unfold MailboxForm.save at h
  simp only [Option.bind_eq_bind, Option.bind_eq_some_iff, Option.pure_def,
    Option.some.injEq] at h
  obtain ⟨preset, -, password, -, rfl⟩ := h
  rfl

lemma editedMailbox_id {env : WebEnv} {post : MailboxFields} {mailbox saved : Mailbox}
    {changed : List PyStr} (h : editedMailbox env post mailbox = .ok (some (saved, changed))) :
    saved.id = mailbox.id := by
  unfold editedMailbox at h
  split at h
  · cases h
  · split at h
    · cases h
    · rename_i hsave
      cases h
      rw [← MailboxForm.save_id hsave]
      split <;> rfl

/-- An edit leaves the database alone or updates the row of the mailbox. -/
lemma mailboxEditTransaction_updates {env : WebEnv} {mailboxId : ℕ} {post : MailboxFields}
    {s s' : Db} {saved : Bool} (h : mailboxEditTransaction env mailboxId post s = .ok (saved, s')) :
    MailboxUpdates s s' := by
  unfold mailboxEditTransaction at h
  split at h
  · cases h
  · rename_i mailbox hfind
    have hid : mailbox.id = mailboxId := by simpa using List.find?_some hfind
    split at h
    · cases h
    · cases h
      exact .same (.refl s)
    · rename_i saved changed hedit
      split at h
      · cases h
      · rename_i n s₁ hupd
        cases h
        refine .update ⟨_, _, n, ?_, hupd⟩ (.same (.writeAudit s₁ _ _ _ _ _))
        intro m _ hm
        rw [editedMailbox_id hedit, hid]
        exact (of_decide_eq_true hm).symm

/-- The loop of a rotation updates mailbox rows only. -/
lemma rotateMailboxes_updates {env : RotationEnv} {rows : List Mailbox} {tick rotated total : ℕ}
    {s s₁ s' : Db} (h : rotateMailboxes env tick rows rotated s = some (total, s₁))
    (hend : SameMail s₁ s') : MailboxUpdates s s' := by
  induction rows generalizing tick rotated s with
  | nil =>
    cases h
    exact .same hend
  | cons mailbox rows ih =>
    simp only [rotateMailboxes, Option.bind_eq_bind, Option.bind_eq_some_iff] at h
    obtain ⟨⟨ciphertext, changed⟩, -, h⟩ := h
    simp only at h
    split at h
    · exact ih h
    · split at h
      · cases h
      · rename_i n s₂ hupd
        exact .update (.of_ok hupd fun _ => rfl) (ih h)

lemma rotateMailboxCredentials_updates {env : RotationEnv} {s s' : Db}
    (h : rotateMailboxCredentials env s = some s') : MailboxUpdates s s' := by
  simp only [rotateMailboxCredentials, Option.bind_eq_bind, Option.bind_eq_some_iff,
    Option.pure_def, Option.some.injEq] at h
  obtain ⟨primaryId, -, ⟨total, s₁⟩, hloop, rfl⟩ := h
  exact rotateMailboxes_updates hloop (.writeAudit s₁ _ _ _ _ _)

/-! ## The worker -/

/-- A statement of the worker keeps every message, and adds at most the one that it inserts. -/
lemma WorkerStatement.exec_messages {statement : WorkerStatement} {s s' : Db}
    (h : statement.exec s = .ok s') :
    s'.messages = s.messages ∨
      ∃ new, statement = .insertMessage new ∧
        (∀ m ∈ s.messages, m.id ≠ (forceWorkerQuarantine .worker new).id) ∧
        s'.messages = s.messages ++ [forceWorkerQuarantine .worker new] := by
  cases statement with
  | updateMailboxes p set =>
    obtain ⟨⟨n, s₁⟩, hupd, h⟩ := Exceptions.bind_eq_ok.1 h
    cases h
    obtain ⟨-, -, rfl⟩ := Db.updateMailboxes_eq_ok.1 hupd
    exact .inl rfl
  | insertMessage new =>
    obtain ⟨-, hnew, -, -, rfl⟩ := Db.insertMessage_eq_ok.1 h
    exact .inr ⟨new, rfl, fun m hm => (hnew m hm).1, rfl⟩
  | insertAttachments rows =>
    obtain ⟨-, -, rfl⟩ := Db.insertAttachments_eq_ok.1 h
    exact .inl rfl
  | insertAudit event =>
    cases h
    exact .inl rfl

/-- A transaction of the worker keeps every message, and adds messages that it inserts under
fresh keys. -/
lemma workerTransaction_messages {statements : List WorkerStatement} {s s' : Db}
    (h : workerTransaction statements s = .ok s') :
    ∀ r ∈ s'.messages, r ∈ s.messages ∨
      ∃ new, .insertMessage new ∈ statements ∧ r = forceWorkerQuarantine .worker new ∧
        ∀ m ∈ s.messages, m.id ≠ r.id := by
  induction statements generalizing s with
  | nil =>
    cases h
    exact fun r hr => .inl hr
  | cons statement statements ih =>
    obtain ⟨s₁, hfirst, hrest⟩ := Exceptions.bind_eq_ok.1 h
    intro r hr
    rcases ih hrest r hr with hr | ⟨new, hnew, rfl, hfresh⟩
    · rcases WorkerStatement.exec_messages hfirst with hmsg | ⟨new, rfl, hfresh, hmsg⟩
      · rw [hmsg] at hr
        exact .inl hr
      · rw [hmsg] at hr
        rcases List.mem_append.1 hr with hr | hr
        · exact .inl hr
        · obtain rfl := List.mem_singleton.1 hr
          exact .inr ⟨new, List.mem_cons_self, rfl, hfresh⟩
    · refine .inr ⟨new, List.mem_cons_of_mem _ hnew, rfl, ?_⟩
      intro m hm
      refine hfresh m ?_
      rcases WorkerStatement.exec_messages hfirst with hmsg | ⟨_, -, -, hmsg⟩
      · rw [hmsg]
        exact hm
      · rw [hmsg]
        exact List.mem_append_left _ hm

/-! ## Deletions -/

lemma mailboxDeleteTransaction_eq_ok {env : WebEnv} {mailboxId : ℕ} {s s' : Db}
    (h : mailboxDeleteTransaction env mailboxId s = .ok ((), s')) :
    ∃ s₁, SameMail s s₁ ∧ s' = s₁.deleteMailbox mailboxId := by
  unfold mailboxDeleteTransaction at h
  split at h
  · cases h
  · cases h
    exact ⟨_, .writeAudit s _ _ _ _ _, rfl⟩

/-! ## Decisions -/

lemma messageDecideTransaction_eq_ok {env : WebEnv} {messageId : Uuid} {decision : PyStr}
    {s s' : Db} (h : messageDecideTransaction env messageId decision s = .ok ((), s')) :
    ∃ s₁, s.updateDecision messageId decision (env.clock 0) = .ok s₁ ∧ SameMail s₁ s' := by
  unfold messageDecideTransaction at h
  split at h
  · cases h
  · rename_i s₁ hupd
    cases h
    exact ⟨s₁, hupd, .writeAudit s₁ _ _ _ _ _⟩

/-! ## All transactions -/

/-- The ways in which a transaction can change the tables of mailboxes, messages and
attachments. -/
inductive MailEffect : Txn → Db → Db → Prop where
  /-- It updates mailboxes, or nothing at all. -/
  | updates {t : Txn} {s s' : Db} (h : MailboxUpdates s s') : MailEffect t s s'
  | ingest {a : StoreArgs} {s : Db} (hacc : a.Accepted s) : MailEffect (.store a) s (a.ingest s)
  | worker {statements : List WorkerStatement} {s s' : Db}
      (h : workerTransaction statements s = .ok s') : MailEffect (.worker statements) s s'
  | newMailbox {mailbox : Mailbox} {id : ℕ} {s s' : Db}
      (h : s.insertMailbox mailbox = .ok (id, s')) : MailEffect (.mailboxCreate mailbox) s s'
  | deletion {env : WebEnv} {mailboxId : ℕ} {s s₁ : Db} (h : SameMail s s₁) :
      MailEffect (.mailboxDelete env mailboxId) s (s₁.deleteMailbox mailboxId)
  | decision {env : WebEnv} {messageId : Uuid} {decision : PyStr} {s s₁ s' : Db}
      (h : s.updateDecision messageId decision (env.clock 0) = .ok s₁) (hsame : SameMail s₁ s') :
      MailEffect (.messageDecide env messageId decision) s s'
  | purge {policy : RetentionPolicy} {now auditAt : Time} {batchSize : ℕ}
      {counts : List (PyStr × ℕ)} {s s' : Db}
      (h : policy.purgeRetention now batchSize auditAt s = some (counts, s')) :
      MailEffect (.purge policy now batchSize auditAt) s s'

/-- What each transaction of the installation does to the mail. -/
theorem Txn.mailEffect {t : Txn} {s s' : Db} (h : t.Step s s') : MailEffect t s s' := by
  have hsame : SameMail s s' → MailEffect t s s' := fun hsame => .updates (.same hsame)
  unfold Txn.Step at h
  cases t with
  | store a =>
    obtain ⟨created, hbody⟩ := Exceptions.toOption_map_snd.1 h
    rcases StoreArgs.transaction_cases hbody with ⟨-, rfl, -, -⟩ | ⟨-, rfl, hacc⟩
    · exact hsame (.refl _)
    · exact .ingest hacc
  | worker statements => exact .worker (Exceptions.toOption_eq_some.1 h)
  | setupOwner username userId now =>
    obtain ⟨page, hbody⟩ := Exceptions.toOption_map_snd.1 h
    exact hsame (setupOwnerTransaction_sameMail hbody)
  | mailboxCreate mailbox =>
    obtain ⟨id, hbody⟩ := Exceptions.toOption_map_snd.1 h
    exact .newMailbox hbody
  | audit actor action obj metadata now =>
    cases h
    exact hsame (.writeAudit s _ _ _ _ _)
  | mailboxEdit env mailboxId post =>
    obtain ⟨saved, hbody⟩ := Exceptions.toOption_map_snd.1 h
    exact .updates (mailboxEditTransaction_updates hbody)
  | mailboxDelete env mailboxId =>
    obtain ⟨_, hbody⟩ := Exceptions.toOption_map_snd.1 h
    obtain ⟨s₁, hsame₁, rfl⟩ := mailboxDeleteTransaction_eq_ok hbody
    exact .deletion hsame₁
  | messageDecide env messageId decision =>
    simp only [Txn.exec] at h
    split at h
    swap
    · cases h
    obtain ⟨_, hbody⟩ := Exceptions.toOption_map_snd.1 h
    obtain ⟨s₁, hupd, hsame₁⟩ := messageDecideTransaction_eq_ok hbody
    exact .decision hupd hsame₁
  | tokenIssue token =>
    obtain ⟨id, hbody⟩ := Exceptions.toOption_map_snd.1 h
    exact hsame (insertToken_sameMail hbody)
  | tokenRevoke tokenId now =>
    exact hsame (updateRevoked_sameMail (Exceptions.toOption_eq_some.1 h))
  | authorize tokenHash path now =>
    cases h
    exact hsame (mailgateApiAuthorize_sameMail tokenHash path now s)
  | purge policy now batchSize auditAt =>
    obtain ⟨⟨counts, s₁⟩, hbody, rfl⟩ := Option.map_eq_some_iff.1 h
    exact .purge hbody
  | rotate env => exact .updates (rotateMailboxCredentials_updates h)

/-! ## Integrity -/

lemma WorkerStatement.exec_valid {statement : WorkerStatement} {s s' : Db}
    (h : statement.exec s = .ok s') (hs : s.Valid) : s'.Valid := by
  cases statement with
  | updateMailboxes p set =>
    obtain ⟨⟨n, s₁⟩, hupd, h⟩ := Exceptions.bind_eq_ok.1 h
    cases h
    refine Db.updateMailboxes_valid hs ?_ hupd
    intro m _ _
    rfl
  | insertMessage new => exact Db.insertMessage_valid hs h
  | insertAttachments rows => exact Db.insertAttachments_valid hs h
  | insertAudit event =>
    cases h
    exact { hs with }

lemma workerTransaction_valid {statements : List WorkerStatement} {s s' : Db}
    (h : workerTransaction statements s = .ok s') (hs : s.Valid) : s'.Valid := by
  induction statements generalizing s with
  | nil =>
    cases h
    exact hs
  | cons statement statements ih =>
    obtain ⟨s₁, hfirst, hrest⟩ := Exceptions.bind_eq_ok.1 h
    exact ih hrest (WorkerStatement.exec_valid hfirst hs)

/-- Every transaction of the installation keeps the integrity of the database. -/
theorem Txn.valid {t : Txn} {s s' : Db} (h : t.Step s s') (hs : s.Valid) : s'.Valid := by
  cases Txn.mailEffect h with
  | updates hupd => exact hupd.valid hs
  | ingest hacc => exact StoreArgs.ingest_valid hs hacc
  | worker hbody => exact workerTransaction_valid hbody hs
  | newMailbox hins => exact Db.insertMailbox_valid hs hins
  | deletion hsame => exact Db.deleteMailbox_valid (hsame.valid hs) _
  | decision hupd hsame => exact hsame.valid (Db.updateDecision_valid hs hupd)
  | purge hbody => exact (purgeRetention_eq_some hs hbody).2.2.2

/-- An installation that starts with a database of sound tables has sound tables for ever. -/
theorem InstallationRun.valid {s s' : Db} {tr : List (Runs.Taken Db Txn)}
    (h : InstallationRun s tr s') (hs : s.Valid) : s'.Valid :=
  Runs.Run.invariant (fun _ _ _ hstep hvalid => Txn.valid hstep hvalid) h hs

end MailGate
