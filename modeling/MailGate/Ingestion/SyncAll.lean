import MailGate.Ingestion.Failure
import MailGate.Ingestion.Idempotence
import MailGate.Lib.Unwinding

/-!
# One cycle of the worker

`sync_all_mailboxes` synchronises the enabled mailboxes one after the other.  Whatever one server
does and however one run ends, the other mailboxes are left as if each had been synchronised
alone.
-/

namespace MailGate

open Transaction

/-! ## The loop -/

/-- The body of the loop of `sync_all_mailboxes`, with the counts `processed` and `errors`. -/
def syncNext (env : SyncEnv) (mailbox : Mailbox) (counts : ℕ × ℕ) : Prog Db SyncExn (ℕ × ℕ) :=
  Prog.tryCatch
    (do
      let created ← syncMailbox env mailbox
      return (counts.1 + created, counts.2))
    fun _ => pure (counts.1, counts.2 + 1)

/-- The loop of `sync_all_mailboxes`; each mailbox meets a server of its own. -/
def syncEach (envs : ℕ → SyncEnv) : List Mailbox → ℕ × ℕ → Prog Db SyncExn (ℕ × ℕ)
  | [], counts => pure counts
  | mailbox :: rest, counts => do
      let counts ← syncNext (envs mailbox.id) mailbox counts
      syncEach envs rest counts

/-- `sync_all_mailboxes`.  The rows are those of one snapshot, taken before the loop. -/
def syncAllMailboxes (envs : ℕ → SyncEnv) : Prog Db SyncExn (ℕ × ℕ) := do
  let mailboxes ← .atomic fun db => .ok (db.mailboxes.filter (·.enabled), db)
  syncEach envs mailboxes (0, 0)

/-! ## What a run sees of one mailbox -/

/-- The messages of a mailbox. -/
def ownMail (id : ℕ) (db : Db) : List Message := db.messages.filter (·.mailboxId = id)

/-- The attachments of the messages of a mailbox. -/
def ownAttachments (id : ℕ) (db : Db) : List Attachment :=
  db.attachments.filter fun a => a.messageId ∈ (ownMail id db).map (·.id)

/-- Two databases with the same row, messages and attachments of a mailbox. -/
structure SameBox (id : ℕ) (s t : Db) : Prop where
  row : rowsOf s (.row id) = rowsOf t (.row id)
  mail : ownMail id s = ownMail id t
  attachments : ownAttachments id s = ownAttachments id t

namespace SameBox

variable {id : ℕ} {s t u : Db}

lemma refl (id : ℕ) (s : Db) : SameBox id s s := ⟨rfl, rfl, rfl⟩

lemma symm (h : SameBox id s t) : SameBox id t s := ⟨h.row.symm, h.mail.symm, h.attachments.symm⟩

lemma trans (h : SameBox id s t) (h' : SameBox id t u) : SameBox id s u :=
  ⟨h.row.trans h'.row, h.mail.trans h'.mail, h.attachments.trans h'.attachments⟩

end SameBox

/-- The messages of the other mailboxes have none of these identifiers. -/
def OthersApart (id : ℕ) (ids : ℕ → Uuid) (s : Db) : Prop :=
  ∀ m ∈ s.messages, m.mailboxId ≠ id → ∀ n, m.id ≠ ids n

/-- Two databases that a run on the mailbox with these identifiers cannot tell apart. -/
structure Alike (id : ℕ) (ids : ℕ → Uuid) (s t : Db) : Prop where
  same : SameBox id s t
  left : s.Valid ∧ OthersApart id ids s
  right : t.Valid ∧ OthersApart id ids t

section Alike

variable {id : ℕ} {ids : ℕ → Uuid} {s t : Db} {a : StoreArgs} {mailbox : Mailbox}

/-- A transaction of the mailbox finds its lock in the row. -/
lemma exists_locks_iff (hs : s.Valid) (ha : a.mailboxId = id) :
    (∃ m ∈ s.mailboxes, a.locks m) ↔ ∃ row, rowsOf s (.row id) = some row ∧ a.locks row := by
  constructor
  · rintro ⟨m, hm, hlock⟩
    have hid : m.id = id := by
      simp only [StoreArgs.locks, Bool.and_eq_true, beq_iff_eq] at hlock
      exact hlock.1.1.trans ha
    exact ⟨m, hid ▸ rowsOf_of_mem hs.mailbox_ids hm, hlock⟩
  · rintro ⟨row, hrow, hlock⟩
    exact ⟨row, (rowsOf_eq_some hrow).1, hlock⟩

lemma exists_key_iff (ha : a.mailboxId = id) :
    (∃ m ∈ s.messages, m.key = a.key) ↔ ∃ m ∈ ownMail id s, m.key = a.key := by
  constructor
  · rintro ⟨m, hm, hkey⟩
    have hid : m.mailboxId = id := (congrArg Prod.fst hkey).trans ha
    exact ⟨m, List.mem_filter.2 ⟨hm, decide_eq_true hid⟩, hkey⟩
  · rintro ⟨m, hm, hkey⟩
    exact ⟨m, List.mem_of_mem_filter hm, hkey⟩

/-- An identifier of the run is free if the messages of the mailbox leave it free. -/
lemma forall_id_iff (happart : OthersApart id ids s) {n : ℕ} :
    (∀ m ∈ s.messages, m.id ≠ ids n) ↔ ∀ m ∈ ownMail id s, m.id ≠ ids n := by
  constructor
  · exact fun h m hm => h m (List.mem_of_mem_filter hm)
  · intro h m hm
    by_cases hid : m.mailboxId = id
    · exact h m (List.mem_filter.2 ⟨hm, decide_eq_true hid⟩)
    · exact happart m hm hid n

/-- What becomes of a message that is not there yet. -/
lemma StoreArgs.transaction_new (hlock : ∃ m ∈ s.mailboxes, a.locks m)
    (hnew : ¬ ∃ m ∈ s.messages, m.key = a.key) :
    a.transaction s =
      if a.Fitting ∧ ∀ m ∈ s.messages, m.id ≠ a.newId then .ok (true, a.ingest s)
      else .error .database := by
  rw [transaction, if_neg (not_not_intro hlock), if_neg hnew]
  push Not at hnew
  by_cases hok : a.Fitting ∧ ∀ m ∈ s.messages, m.id ≠ a.newId
  · obtain ⟨row, hrow, hlocked⟩ := hlock
    have hid : row.id = a.mailboxId := by
      simp only [locks, Bool.and_eq_true, beq_iff_eq] at hlocked
      exact hlocked.1.1
    have hcreate : a.create s = .ok (a.ingest s) :=
      create_of_fitting (fun m hm => ⟨hok.2 m hm, hnew m hm⟩)
        (List.mem_map.2 ⟨row, hrow, hid⟩) hok.1
    rw [if_pos hok, hcreate]
  · rw [if_neg hok]
    cases hcreate : a.create s with
    | error e => rfl
    | ok db =>
      obtain ⟨hfresh, hrowFits, hattFits, -⟩ := create_eq_ok hcreate
      exact absurd ⟨⟨hrowFits, hattFits⟩, fun m hm => (hfresh m hm).1⟩ hok

lemma ownMail_ingest (ha : a.mailboxId = id) :
    ownMail id (a.ingest s) = ownMail id s ++ [a.storedRow] := by
  have hrow : a.storedRow.mailboxId = id := ha
  rw [ownMail, ownMail, StoreArgs.ingest, List.filter_append, List.filter_singleton]
  simp [hrow]

/-- An ingestion adds its attachments to those of the mailbox. -/
lemma ownAttachments_ingest (hs : s.Valid) (ha : a.mailboxId = id)
    (hfresh : ∀ m ∈ s.messages, m.id ≠ a.newId) :
    ownAttachments id (a.ingest s) = ownAttachments id s ++ a.attachmentRows := by
  have hid : a.storedRow.id = a.newId := rfl
  rw [ownAttachments, ownMail_ingest ha, ownAttachments]
  show List.filter _ (s.attachments ++ a.attachmentRows) = _
  rw [List.filter_append]
  congr 1
  · -- no attachment refers to a message that is not there
    refine List.filter_congr fun r hr => ?_
    obtain ⟨m, hm, hr⟩ := List.mem_map.1 (hs.attachment_message r hr)
    have hne : r.messageId ≠ a.newId := hr ▸ hfresh m hm
    simp [hid, hne]
  · refine List.filter_eq_self.2 fun r hr => ?_
    rw [a.attachmentRows_messageId r hr]
    simp [hid]

/-- A message of the mailbox is ingested alike. -/
lemma Alike.ingest (h : Alike id ids s t) (ha : a.mailboxId = id)
    (hs : a.Accepted s) (ht : a.Accepted t) : Alike id ids (a.ingest s) (a.ingest t) := by
  have hrow : a.storedRow.mailboxId = id := ha
  have happart : ∀ {u : Db}, OthersApart id ids u → OthersApart id ids (a.ingest u) := by
    intro u hu m hm hid
    rcases List.mem_append.1 hm with hm | hm
    · exact hu m hm hid
    · rw [List.mem_singleton.1 hm] at hid
      exact absurd hrow hid
  refine ⟨⟨h.same.row, ?_, ?_⟩, ⟨StoreArgs.ingest_valid h.left.1 hs, happart h.left.2⟩,
    StoreArgs.ingest_valid h.right.1 ht, happart h.right.2⟩
  · rw [ownMail_ingest ha, ownMail_ingest ha, h.same.mail]
  · rw [ownAttachments_ingest h.left.1 ha fun m hm => (hs.fresh m hm).1,
      ownAttachments_ingest h.right.1 ha fun m hm => (ht.fresh m hm).1, h.same.attachments]

/-- Storing a message of the mailbox ends alike. -/
lemma Alike.transaction (h : Alike id ids s t) (ha : a.mailboxId = id) {n : ℕ}
    (hn : a.newId = ids n) :
    SameEnd (Alike id ids) (a.transaction s) (a.transaction t) := by
  have hlocks : (∃ m ∈ s.mailboxes, a.locks m) ↔ ∃ m ∈ t.mailboxes, a.locks m := by
    rw [exists_locks_iff h.left.1 ha, exists_locks_iff h.right.1 ha, h.same.row]
  have hkeys : (∃ m ∈ s.messages, m.key = a.key) ↔ ∃ m ∈ t.messages, m.key = a.key := by
    rw [exists_key_iff ha, exists_key_iff ha, h.same.mail]
  by_cases hlock : ∃ m ∈ s.mailboxes, a.locks m
  swap
  · rw [StoreArgs.transaction, if_pos hlock, StoreArgs.transaction,
      if_pos (fun ht => hlock (hlocks.2 ht))]
    exact .error _
  by_cases hkey : ∃ m ∈ s.messages, m.key = a.key
  · rw [StoreArgs.transaction, if_neg (not_not_intro hlock), if_pos hkey, StoreArgs.transaction,
      if_neg (not_not_intro (hlocks.1 hlock)), if_pos (hkeys.1 hkey)]
    exact .ok false h
  have hids : (∀ m ∈ s.messages, m.id ≠ a.newId) ↔ ∀ m ∈ t.messages, m.id ≠ a.newId := by
    rw [hn, forall_id_iff h.left.2, forall_id_iff h.right.2, h.same.mail]
  have hkey' : ¬ ∃ m ∈ t.messages, m.key = a.key := fun ht => hkey (hkeys.2 ht)
  rw [StoreArgs.transaction_new hlock hkey, StoreArgs.transaction_new (hlocks.1 hlock) hkey']
  by_cases hok : a.Fitting ∧ ∀ m ∈ s.messages, m.id ≠ a.newId
  · have hok' : a.Fitting ∧ ∀ m ∈ t.messages, m.id ≠ a.newId := ⟨hok.1, hids.1 hok.2⟩
    rw [if_pos hok, if_pos hok']
    push Not at hkey hkey'
    exact .ok true (h.ingest ha
      ⟨hlock, fun m hm => ⟨hok.2 m hm, hkey m hm⟩, hok.1.1, hok.1.2⟩
      ⟨hlocks.1 hlock, fun m hm => ⟨hok'.2 m hm, hkey' m hm⟩, hok.1.1, hok.1.2⟩)
  · rw [if_neg hok, if_neg fun ht => hok ⟨ht.1, hids.2 ht.2⟩]
    exact .error _

/-! ## Updates of the row -/

/-- The row of the mailbox is guarded by the version that the run started with. -/
def Guarded (mailbox : Mailbox) (row : Option Mailbox) : Prop :=
  ∃ m, row = some m ∧ guardsMailbox mailbox m = true

section Update

variable {set : Mailbox → Mailbox}

lemma updateGuarded_unguarded (hs : s.Valid)
    (h : ¬ Guarded mailbox (rowsOf s (.row mailbox.id))) :
    updateGuarded mailbox set s = .ok (0, s) := by
  have hnone : ∀ m ∈ s.mailboxes, guardsMailbox mailbox m = false := by
    intro m hm
    refine Bool.eq_false_iff.2 fun hguard => h ⟨m, ?_, hguard⟩
    rw [← guardsMailbox_id hguard]
    exact rowsOf_of_mem hs.mailbox_ids hm
  obtain ⟨n, hupd⟩ := updateMailboxes_skip set hnone
  obtain ⟨-, hcount, -⟩ := Db.updateMailboxes_eq_ok.1 hupd
  rw [List.countP_eq_zero.2 fun m hm => by simp [hnone m hm]] at hcount
  exact updateGuarded_eq_ok.2 (hcount ▸ hupd)

lemma updateGuarded_refused {row : Mailbox} (hrow : rowsOf s (.row mailbox.id) = some row)
    (hguard : guardsMailbox mailbox row = true) (hfits : ¬ (set row).Fits) :
    updateGuarded mailbox set s = .error .database := by
  have hbad : ∃ m ∈ s.mailboxes, guardsMailbox mailbox m = true ∧ ¬ (set m).Fits :=
    ⟨row, (rowsOf_eq_some hrow).1, hguard, hfits⟩
  rw [updateGuarded, Db.updateMailboxes, if_pos hbad]

lemma updateGuarded_met (hs : s.Valid) {row : Mailbox}
    (hrow : rowsOf s (.row mailbox.id) = some row) (hguard : guardsMailbox mailbox row = true)
    (hfits : (set row).Fits) : ∃ s', updateGuarded mailbox set s = .ok (1, s') := by
  obtain ⟨hmem, hid⟩ := rowsOf_eq_some hrow
  have honly : ∀ m ∈ s.mailboxes, guardsMailbox mailbox m = true → m = row := fun m hm hg =>
    Db.eq_of_map_nodup hs.mailbox_ids hm hmem ((guardsMailbox_id hg).trans hid.symm)
  have hcount : s.mailboxes.countP (guardsMailbox mailbox) = 1 := by
    have hle := countP_guardsMailbox_le mailbox hs.mailbox_ids
    have hpos := List.countP_pos_iff.2 ⟨row, hmem, hguard⟩
    omega
  exact ⟨_, updateGuarded_eq_ok.2 (Db.updateMailboxes_eq_ok.2
    ⟨fun m hm hg => honly m hm hg ▸ hfits, hcount, rfl⟩)⟩

/-- Updates that meet the row alike end alike. -/
lemma Alike.updated (h : Alike mailbox.id ids s t) (hset : ∀ m, (set m).id = m.id) {n : ℕ}
    {s' t' : Db} (hs : updateGuarded mailbox set s = .ok (n, s'))
    (ht : updateGuarded mailbox set t = .ok (n, t')) : Alike mailbox.id ids s' t' := by
  obtain ⟨hmsg, hatt, -⟩ := updateGuarded_frame hs
  obtain ⟨hmsg', hatt', -⟩ := updateGuarded_frame ht
  refine ⟨⟨?_, ?_, ?_⟩, ⟨updateGuarded_valid h.left.1 hs hset, ?_⟩,
    updateGuarded_valid h.right.1 ht hset, ?_⟩
  · rw [rowsOf_updateMailboxes (updateGuarded_eq_ok.1 hs) fun m _ _ => hset m,
      rowsOf_updateMailboxes (updateGuarded_eq_ok.1 ht) fun m _ _ => hset m, h.same.row]
  · rw [ownMail, hmsg, ownMail, hmsg']
    exact h.same.mail
  · rw [ownAttachments, ownMail, hmsg, hatt, ownAttachments, ownMail, hmsg', hatt']
    exact h.same.attachments
  · rw [OthersApart, hmsg]
    exact h.left.2
  · rw [OthersApart, hmsg']
    exact h.right.2

/-- Updating the row of the mailbox ends alike. -/
lemma Alike.updateGuarded (h : Alike mailbox.id ids s t) (hset : ∀ m, (set m).id = m.id) :
    SameEnd (Alike mailbox.id ids) (updateGuarded mailbox set s) (updateGuarded mailbox set t) := by
  by_cases hguarded : Guarded mailbox (rowsOf s (.row mailbox.id))
  swap
  · rw [updateGuarded_unguarded h.left.1 hguarded,
      updateGuarded_unguarded h.right.1 (h.same.row ▸ hguarded)]
    exact .ok 0 h
  obtain ⟨row, hrow, hguard⟩ := hguarded
  have hrow' := h.same.row.symm.trans hrow
  by_cases hfits : (set row).Fits
  · obtain ⟨s', hs⟩ := updateGuarded_met h.left.1 hrow hguard hfits
    obtain ⟨t', ht⟩ := updateGuarded_met h.right.1 hrow' hguard hfits
    have hend := h.updated hset hs ht
    rw [hs, ht]
    exact .ok 1 hend
  · rw [updateGuarded_refused hrow hguard hfits, updateGuarded_refused hrow' hguard hfits]
    exact .error _

end Update

end Alike

/-! ## A run cannot tell alike databases apart -/

section Blind

variable (env : SyncEnv) (mailbox : Mailbox)

lemma syncUids_blind (validity : ℕ) (uids : List ℕ) (tick created lastUid : ℕ) :
    (syncUids env mailbox validity tick uids created lastUid).Blind
      (Alike mailbox.id env.uuid4) := by
  induction uids generalizing tick created lastUid with
  | nil => trivial
  | cons uid uids ih =>
    refine blind_bind trivial fun item => blind_bind ?_ fun new => ih _ _ _
    exact blind_atomic fun s t h => h.transaction rfl rfl

lemma syncSelected_blind (plan : SyncPlan) :
    (syncSelected env mailbox plan).Blind (Alike mailbox.id env.uuid4) := by
  refine blind_bind (syncUids_blind env mailbox _ _ _ _ _) fun ⟨created, last⟩ => ?_
  refine blind_bind ?_ fun updated => blind_bind ?_ fun _ => trivial
  · exact blind_atomic fun s t h => h.updateGuarded fun _ => rfl
  · unfold Prog.ensure
    split <;> trivial

lemma syncFailed_blind (exc : SyncExn) :
    (syncFailed env mailbox exc).Blind (Alike mailbox.id env.uuid4) := by
  have hrecord : ∀ code, (recordFailure env mailbox code).Blind (Alike mailbox.id env.uuid4) := by
    intro code
    unfold recordFailure
    split
    · refine blind_bind ?_ fun _ => trivial
      exact blind_atomic fun s t h => h.updateGuarded fun _ => rfl
    · trivial
  cases exc with
  | mailboxSync code => exact hrecord code
  | connection => exact hrecord _
  | database => trivial
  | credential => trivial
  | other => trivial

lemma syncMailbox_blind (batchSize : ℕ) :
    (syncMailbox env mailbox batchSize).Blind (Alike mailbox.id env.uuid4) := by
  unfold syncMailbox
  split
  · trivial
  · refine blind_bind trivial fun password => blind_finallyDo (blind_tryCatch ?_ fun exc => ?_) _
    · exact blind_bind trivial fun plan => syncSelected_blind env mailbox plan
    · exact syncFailed_blind env mailbox exc

end Blind

/-! ## A run leaves the other mailboxes alone -/

section Others

variable {fault : SyncExn → Prop} {env : SyncEnv} {mailbox : Mailbox} {batchSize id : ℕ} {s s' : Db}

lemma updateGuarded_sameBox {set : Mailbox → Mailbox} {n : ℕ} (hid : id ≠ mailbox.id)
    (h : updateGuarded mailbox set s = .ok (n, s')) (hset : ∀ m, (set m).id = m.id) :
    SameBox id s' s := by
  obtain ⟨hmsg, hatt, -⟩ := updateGuarded_frame h
  refine ⟨?_, by rw [ownMail, hmsg, ownMail], by rw [ownAttachments, ownMail, hmsg, hatt]; rfl⟩
  rw [rowsOf_updateMailboxes (updateGuarded_eq_ok.1 h) fun m _ _ => hset m]
  cases hrow : rowsOf s (.row id) with
  | none => rfl
  | some row =>
    have hother : guardsMailbox mailbox row ≠ true := fun hguard =>
      hid ((rowsOf_eq_some hrow).2.symm.trans (guardsMailbox_id hguard))
    rw [Option.map_some, if_neg hother]

/-- Records of one mailbox leave the others alone. -/
lemma Ingests.sameBox {records : List StoreArgs} (hs : s.Valid) (h : Ingests s records s')
    (hid : ∀ a ∈ records, a.mailboxId ≠ id) : SameBox id s' s := by
  induction h with
  | nil s => exact .refl id s
  | @cons s s' a records hacc hrest ih =>
    rw [List.forall_mem_cons] at hid
    have hfirst : SameBox id (a.ingest s) s := by
      have hmail : ownMail id (a.ingest s) = ownMail id s := by
        have hrow : ¬ a.storedRow.mailboxId = id := hid.1
        rw [ownMail, ownMail, StoreArgs.ingest, List.filter_append, List.filter_singleton]
        simp [hrow]
      refine ⟨rfl, hmail, ?_⟩
      rw [ownAttachments, hmail, ownAttachments]
      show List.filter _ (s.attachments ++ a.attachmentRows) = _
      rw [List.filter_append, List.append_right_eq_self, List.filter_eq_nil_iff]
      intro r hr
      rw [a.attachmentRows_messageId r hr, decide_eq_true_eq]
      -- the new identifier belongs to no message that was there
      intro hold
      obtain ⟨m, hm, hmid⟩ := List.mem_map.1 hold
      exact (hacc.fresh m (List.mem_of_mem_filter hm)).1 hmid
    exact (ih (StoreArgs.ingest_valid hs hacc) hid.2).trans hfirst

/-- However a run ends, the other mailboxes are the same. -/
lemma syncMailbox_sameBox {tr : List (Event Db)} {o : Option (Except SyncExn ℕ)}
    (hs : s.Valid) (hid : id ≠ mailbox.id)
    (h : Exec (.alone fault) (syncMailbox env mailbox batchSize) s tr o s') :
    SameBox id s' s ∧ s'.Valid ∧
      ∀ m ∈ s'.messages, m ∈ s.messages ∨ m.mailboxId = mailbox.id ∧ ∃ n, m.id = env.uuid4 n := by
  obtain ⟨records, s₁, s₂, hsteps, -⟩ := syncMailbox_exec h
  have hrecords : ∀ a ∈ records, a.mailboxId = mailbox.id ∧ ∃ n, a.newId = env.uuid4 n := by
    intro a ha
    obtain ⟨plan, -, uid, -, tick, item, -, rfl⟩ := hsteps.planned a ha
    exact ⟨rfl, tick, rfl⟩
  have hingests := hsteps.ingests.sameBox hs fun a ha => (hrecords a ha).1 ▸ hid.symm
  have hcursor : SameBox id s₂ s₁ := by
    rcases hsteps.cursor with rfl | ⟨n, plan, -, -, hupd⟩
    · exact .refl id _
    · exact updateGuarded_sameBox hid hupd fun _ => rfl
  have hfailure : SameBox id s' s₂ := by
    rcases hsteps.failure with rfl | ⟨code, n, hupd⟩
    · exact .refl id _
    · exact updateGuarded_sameBox hid hupd fun _ => rfl
  refine ⟨(hfailure.trans hcursor).trans hingests, hsteps.valid hs, fun m hm => ?_⟩
  rw [hsteps.frame.1, hsteps.ingests.tables.1] at hm
  rcases List.mem_append.1 hm with hm | hm
  · exact .inl hm
  · obtain ⟨a, ha, rfl⟩ := List.mem_map.1 hm
    exact .inr (hrecords a ha)

end Others

/-! ## The cycle -/

/-- Runs on two mailboxes draw different identifiers. -/
def ApartIds (envs : ℕ → SyncEnv) (id id' : ℕ) : Prop :=
  ∀ n n', (envs id).uuid4 n ≠ (envs id').uuid4 n'

/-- The runs of a cycle draw different identifiers, and none that is in the table. -/
structure FreshIds (envs : ℕ → SyncEnv) (s : Db) : Prop where
  unused : ∀ m ∈ s.mailboxes, ∀ r ∈ s.messages, ∀ n, r.id ≠ (envs m.id).uuid4 n
  apart : ∀ m ∈ s.mailboxes, ∀ m' ∈ s.mailboxes, m.id ≠ m'.id → ApartIds envs m.id m'.id

/-- What a run on the mailbox returns and leaves. -/
def syncRun (envs : ℕ → SyncEnv) (mailbox : Mailbox) (s : Db) : Except SyncExn ℕ × Db :=
  (syncMailbox (envs mailbox.id) mailbox).run s

/-- The counts of a cycle: the messages of the runs that return, and the runs that raise. -/
def tally : List (Except SyncExn ℕ) → ℕ × ℕ
  | [] => (0, 0)
  | .ok created :: ends => (created + (tally ends).1, (tally ends).2)
  | .error _ :: ends => ((tally ends).1, (tally ends).2 + 1)

section Cycle

variable {envs : ℕ → SyncEnv} {mailboxes : List Mailbox} {s t : Db} {id : ℕ}

/-- The counts after a mailbox, and the database that its run leaves. -/
lemma run_syncNext (mailbox : Mailbox) (counts : ℕ × ℕ) (s : Db) :
    (syncNext (envs mailbox.id) mailbox counts).run s =
      (.ok (counts.1 + (tally [(syncRun envs mailbox s).1]).1,
        counts.2 + (tally [(syncRun envs mailbox s).1]).2), (syncRun envs mailbox s).2) := by
  rw [syncNext, Prog.run_tryCatch, Prog.run_bind, ← syncRun]
  rcases syncRun envs mailbox s with ⟨r, s'⟩
  cases r <;> rfl

/-- The database is sound, and a run on the mailbox draws no identifier of another mailbox. -/
def Drawn (envs : ℕ → SyncEnv) (id : ℕ) (s : Db) : Prop :=
  s.Valid ∧ OthersApart id (envs id).uuid4 s

/-- A run on another mailbox draws other identifiers. -/
lemma Drawn.syncRun {mailbox : Mailbox} (hid : id ≠ mailbox.id)
    (hapart : ApartIds envs id mailbox.id) (hs : Drawn envs id s) :
    SameBox id (syncRun envs mailbox s).2 s ∧ Drawn envs id (syncRun envs mailbox s).2 := by
  obtain ⟨tr, hexec⟩ := Exec.of_run (W := .alone fun _ => False)
    (syncMailbox (envs mailbox.id) mailbox) s
  obtain ⟨hsame, hvalid, hmessages⟩ := syncMailbox_sameBox hs.1 hid hexec
  refine ⟨hsame, hvalid, fun m hm hother n heq => ?_⟩
  rcases hmessages m hm with hold | ⟨-, k, hk⟩
  · exact hs.2 m hold hother n heq
  · exact hapart n k (heq.symm.trans hk)

/-- The runs of a cycle, one after the other. -/
def turns (envs : ℕ → SyncEnv) : List Mailbox → Db → List (Except SyncExn ℕ) × Db
  | [], s => ([], s)
  | mailbox :: rest, s =>
      let ends := turns envs rest (syncRun envs mailbox s).2
      ((syncRun envs mailbox s).1 :: ends.1, ends.2)

lemma run_syncEach (mailboxes : List Mailbox) (counts : ℕ × ℕ) (s : Db) :
    (syncEach envs mailboxes counts).run s =
      (.ok (counts.1 + (tally (turns envs mailboxes s).1).1,
        counts.2 + (tally (turns envs mailboxes s).1).2), (turns envs mailboxes s).2) := by
  induction mailboxes generalizing counts s with
  | nil => rfl
  | cons mailbox rest ih =>
    rw [syncEach, Prog.run_bind, run_syncNext]
    simp only [ih, turns]
    cases (syncRun envs mailbox s).1 with
    | ok created => simp only [tally, Nat.add_assoc, Nat.zero_add]
    | error e => simp only [tally, Nat.add_assoc, Nat.add_comm 1, Nat.zero_add, Nat.add_zero]

/-- A mailbox that a cycle passes over is left alone. -/
lemma turns_passed (hid : id ∉ mailboxes.map (·.id)) (hs : s.Valid) :
    SameBox id (turns envs mailboxes s).2 s := by
  induction mailboxes generalizing s with
  | nil => exact .refl id s
  | cons mailbox rest ih =>
    rw [List.map_cons, List.mem_cons, not_or] at hid
    obtain ⟨tr, hexec⟩ := Exec.of_run (W := .alone fun _ => False)
      (syncMailbox (envs mailbox.id) mailbox) s
    obtain ⟨hsame, hvalid, -⟩ := syncMailbox_sameBox hs hid.1 hexec
    exact (ih hid.2 hvalid).trans hsame

/-- The runs of a cycle end as if each were alone. -/
lemma turns_isolated (hids : (mailboxes.map (·.id)).Nodup)
    (hapart : ∀ m ∈ mailboxes, ∀ m' ∈ mailboxes, m.id ≠ m'.id → ApartIds envs m.id m'.id)
    (hs : ∀ m ∈ mailboxes, SameBox m.id s t ∧ Drawn envs m.id s ∧ Drawn envs m.id t) :
    (turns envs mailboxes s).1 = mailboxes.map (fun m => (syncRun envs m t).1) ∧
      ∀ m ∈ mailboxes, SameBox m.id (turns envs mailboxes s).2 (syncRun envs m t).2 := by
  induction mailboxes generalizing s with
  | nil => simp [turns]
  | cons mailbox rest ih =>
    rw [List.map_cons, List.nodup_cons] at hids
    rw [List.forall_mem_cons] at hs
    obtain ⟨⟨hsame, hdrawn, hdrawn'⟩, hrest⟩ := hs
    have halike : Alike mailbox.id (envs mailbox.id).uuid4 s t := ⟨hsame, hdrawn, hdrawn'⟩
    obtain ⟨hanswer, hleft⟩ := (syncMailbox_blind (envs mailbox.id) mailbox 50).run halike
    -- the mailboxes that are still to come do not notice the run
    have hlater : ∀ m ∈ rest, SameBox m.id (syncRun envs mailbox s).2 t ∧
        Drawn envs m.id (syncRun envs mailbox s).2 ∧ Drawn envs m.id t := by
      intro m hm
      obtain ⟨hbefore, hdrawn, hdrawn'⟩ := hrest m hm
      have hother : m.id ≠ mailbox.id := fun heq =>
        hids.1 (heq ▸ List.mem_map_of_mem (f := (·.id)) hm)
      obtain ⟨hkept, hdrawn⟩ := hdrawn.syncRun hother
        (hapart m (List.mem_cons_of_mem _ hm) mailbox List.mem_cons_self hother)
      exact ⟨hkept.trans hbefore, hdrawn, hdrawn'⟩
    obtain ⟨hends, hboxes⟩ := ih hids.2
      (fun m hm m' hm' => hapart m (List.mem_cons_of_mem _ hm) m' (List.mem_cons_of_mem _ hm'))
      hlater
    refine ⟨?_, ?_⟩
    · rw [turns, List.map_cons, hends]
      exact congrArg (· :: _) hanswer
    · rw [List.forall_mem_cons]
      exact ⟨(turns_passed hids.1 hleft.left.1).trans hleft.same, hboxes⟩

lemma turns_valid (hs : s.Valid) : (turns envs mailboxes s).2.Valid := by
  induction mailboxes generalizing s with
  | nil => exact hs
  | cons mailbox rest ih =>
    obtain ⟨tr, hrun⟩ := Exec.of_run (W := .alone fun _ => False)
      (syncMailbox (envs mailbox.id) mailbox) s
    obtain ⟨records, s₁, s₂, hsteps, -⟩ := syncMailbox_exec hrun
    exact ih (hsteps.valid hs)

/-- A cycle returns the counts of its runs. -/
lemma run_syncAllMailboxes (envs : ℕ → SyncEnv) (s : Db) :
    (syncAllMailboxes envs).run s =
      (.ok (tally (turns envs (s.mailboxes.filter (·.enabled)) s).1),
        (turns envs (s.mailboxes.filter (·.enabled)) s).2) := by
  show (syncEach envs (s.mailboxes.filter (·.enabled)) (0, 0)).run s = _
  rw [run_syncEach]
  simp only [Nat.zero_add]

/-- The runs of a cycle over a sound database end as if each were alone. -/
lemma turns_enabled (hs : s.Valid) (hfresh : FreshIds envs s) :
    (turns envs (s.mailboxes.filter (·.enabled)) s).1 =
        (s.mailboxes.filter (·.enabled)).map (fun m => (syncRun envs m s).1) ∧
      ∀ m ∈ s.mailboxes.filter (·.enabled),
        SameBox m.id (turns envs (s.mailboxes.filter (·.enabled)) s).2 (syncRun envs m s).2 := by
  have hdrawn : ∀ m ∈ s.mailboxes, Drawn envs m.id s :=
    fun m hm => ⟨hs, fun r hr _ n => hfresh.unused m hm r hr n⟩
  refine turns_isolated (hs.mailbox_ids.sublist (List.filter_sublist.map _)) ?_ ?_
  · exact fun m hm m' hm' =>
      hfresh.apart m (List.mem_of_mem_filter hm) m' (List.mem_of_mem_filter hm')
  · exact fun m hm => ⟨.refl m.id s, hdrawn m (List.mem_of_mem_filter hm),
      hdrawn m (List.mem_of_mem_filter hm)⟩

end Cycle

/-- Whatever the servers do and however the runs end, a cycle of the worker returns.  It leaves
the row, the messages and the attachments of each enabled mailbox as a run on this mailbox alone
would have left them, touches no other mailbox, and counts the messages and the failures of these
runs. -/
theorem syncAllMailboxes_isolated (envs : ℕ → SyncEnv) (s : Db) (hs : s.Valid)
    (hfresh : FreshIds envs s) :
    ∃ s', (syncAllMailboxes envs).run s =
        (.ok (tally ((s.mailboxes.filter (·.enabled)).map fun m => (syncRun envs m s).1)), s') ∧
      (∀ m ∈ s.mailboxes, m.enabled = true → SameBox m.id s' (syncRun envs m s).2) ∧
      ∀ id, id ∉ (s.mailboxes.filter (·.enabled)).map (·.id) → SameBox id s' s := by
  obtain ⟨hends, hboxes⟩ := turns_enabled hs hfresh
  refine ⟨(turns envs (s.mailboxes.filter (·.enabled)) s).2, ?_, ?_, ?_⟩
  · rw [run_syncAllMailboxes, hends]
  · exact fun m hm henabled => hboxes m (List.mem_filter.2 ⟨hm, henabled⟩)
  · exact fun id hid => turns_passed hid hs

/-- Two mailboxes: the server of the first breaks the connection, that of the second lists one
message that is too large. -/
def twoBoxes : Db :=
  { sampleDb with
    mailboxes := [sampleMailbox, { sampleMailbox with id := 2 }]
    mailboxSeq := 3 }

/-- The servers of the two mailboxes. -/
def twoServers (id : ℕ) : SyncEnv :=
  { sampleEnv (sampleLibrary blankMessage [] []) fun n _ =>
      if id = 1 then .error .connection
      else if n = 0 then .ok (py "OK", [.bytes (bytes "5")])
      else .ok (py "OK", [.bytes (bytes "5 (RFC822.SIZE 20000000)")])
    with uuid4 := fun _ => BitVec.ofNat 128 id }

theorem syncAllMailboxes_isolated_broken :
    ∃ s', (syncAllMailboxes twoServers).run twoBoxes = (.ok (1, 1), s') ∧
      SameBox 2 s' (syncRun twoServers { sampleMailbox with id := 2 } twoBoxes).2 ∧
      (ownMail 2 s').length = 1 := by
  have hfresh : FreshIds twoServers twoBoxes := by
    refine ⟨fun m _ r hr => absurd hr List.not_mem_nil, fun m hm m' hm' hne n n' => ?_⟩
    have hboxes : ∀ m ∈ twoBoxes.mailboxes, ∀ m' ∈ twoBoxes.mailboxes, m.id ≠ m'.id →
        BitVec.ofNat 128 m.id ≠ BitVec.ofNat 128 m'.id := by decide
    exact hboxes m hm m' hm' hne
  obtain ⟨s', hrun, hboxes, -⟩ := syncAllMailboxes_isolated twoServers twoBoxes
    (by constructor <;> decide) hfresh
  have hcounts : tally ((twoBoxes.mailboxes.filter (·.enabled)).map fun m =>
      (syncRun twoServers m twoBoxes).1) = (1, 1) := by decide +kernel
  have hlength : (ownMail 2 (syncRun twoServers { sampleMailbox with id := 2 }
      twoBoxes).2).length = 1 := by decide +kernel
  have hsecond := hboxes { sampleMailbox with id := 2 } (by decide) rfl
  exact ⟨s', by rw [hrun, hcounts], hsecond, by rw [hsecond.mail]; exact hlength⟩

end MailGate
