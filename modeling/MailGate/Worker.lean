import MailGate.Ingestion.Cursor

/-!
# The privileges of the worker

`apply-permissions.sh` grants the worker a few statements.  Whatever the worker runs, a
transaction of it is a list of these statements.
-/

namespace MailGate

/-- The columns of a mailbox that the worker may update. -/
structure StatusColumns where
  uidValidity : Option ℕ
  lastUid : ℕ
  lastSyncAt : Option Time
  lastErrorCode : PyStr
  updatedAt : Time
deriving DecidableEq, Repr

/-- A row with these values in the columns that the worker may update. -/
def Mailbox.withStatus (m : Mailbox) (c : StatusColumns) : Mailbox :=
  { m with
    uidValidity := c.uidValidity
    lastUid := c.lastUid
    lastSyncAt := c.lastSyncAt
    lastErrorCode := c.lastErrorCode
    updatedAt := c.updatedAt }

lemma Mailbox.withStatus_securityColumns (m : Mailbox) (c : StatusColumns) :
    (m.withStatus c).securityColumns = m.securityColumns := rfl

/-- An update of status columns is no change of the configuration. -/
lemma bumpMailboxConfigVersion_withStatus (m : Mailbox) (c : StatusColumns) :
    bumpMailboxConfigVersion m (m.withStatus c) = m.withStatus c := by
  unfold bumpMailboxConfigVersion
  rw [m.withStatus_securityColumns c, if_neg (not_not.2 rfl)]
  rfl

/-- The writing statements that the worker has the privilege for. -/
inductive WorkerStatement where
  | updateMailboxes (p : Mailbox → Bool) (set : Mailbox → StatusColumns)
  | insertMessage (new : Message)
  | insertAttachments (rows : List Attachment)
  /-- The key of the event comes from the sequence. -/
  | insertAudit (event : AuditEvent)

namespace WorkerStatement

/-- The effect of a statement. -/
def exec : WorkerStatement → Db → Except DbExn Db
  | updateMailboxes p set, db => do
      let (_, db) ← db.updateMailboxes p fun m => m.withStatus (set m)
      return db
  | insertMessage new, db => db.insertMessage .worker new
  | insertAttachments rows, db => db.insertAttachments rows
  | insertAudit event, db =>
      .ok { db with
        audit := db.audit ++ [{ event with id := db.auditSeq }]
        auditSeq := db.auditSeq + 1 }

end WorkerStatement

/-- A transaction of the worker. -/
def workerTransaction (statements : List WorkerStatement) (db : Db) : Except DbExn Db :=
  statements.foldlM (fun db statement => statement.exec db) db

/-! ## The transactions of a run -/

open Transaction

/-- What the transaction of `_store_message` and the conditional updates of status columns do,
each transaction of a run does. -/
lemma syncMailbox_guarantees {G : Db → Db → Prop} {env : SyncEnv} {mailbox : Mailbox}
    {batchSize : ℕ}
    (hstore : ∀ validity uid tick item s created s',
      (storeArgs env mailbox validity uid tick item).transaction s = .ok (created, s') → G s s')
    (hupdate : ∀ (columns : Mailbox → StatusColumns) s n s',
      updateGuarded mailbox (fun m => m.withStatus (columns m)) s = .ok (n, s') → G s s') :
    (syncMailbox env mailbox batchSize).Guarantees G := by
  have hloop : ∀ validity uids tick created lastUid,
      (syncUids env mailbox validity tick uids created lastUid).Guarantees G := by
    intro validity uids
    induction uids with
    | nil => exact fun _ _ _ => trivial
    | cons uid uids ih =>
      intro tick created lastUid
      refine guarantees_bind (guarantees_compute _) fun item => ?_
      refine guarantees_bind (guarantees_atomic ?_) fun new => ih _ _ _
      exact hstore validity uid tick item
  -- both updates of the row set status columns only
  have hcursor : ∀ validity lastUid,
      (Prog.atomic (updateGuarded mailbox (setCursor env validity lastUid))).Guarantees G :=
    fun validity lastUid => guarantees_atomic <| hupdate
      fun _ => ⟨some validity, lastUid, some env.syncedAt.1, [], env.syncedAt.2⟩
  have herror : ∀ code,
      (Prog.atomic (updateGuarded mailbox (setError env code))).Guarantees G :=
    fun code => guarantees_atomic <| hupdate
      fun m => ⟨m.uidValidity, m.lastUid, some env.failedAt.1, code, env.failedAt.2⟩
  have hrecord : ∀ code, (recordFailure env mailbox code).Guarantees G := by
    intro code
    unfold recordFailure
    split
    · exact guarantees_bind (herror code) fun _ => trivial
    · trivial
  have hfailed : ∀ exc, (syncFailed env mailbox exc).Guarantees G := by
    intro exc
    cases exc with
    | mailboxSync code => exact hrecord code
    | connection => exact hrecord _
    | database => trivial
    | credential => trivial
    | other => trivial
  unfold syncMailbox
  split
  · trivial
  · refine guarantees_bind (guarantees_compute _) fun password => ?_
    refine guarantees_finallyDo (guarantees_tryCatch ?_ hfailed) _
    refine guarantees_bind (guarantees_compute _) fun plan => ?_
    refine guarantees_bind (hloop _ _ _ _ _) fun q => ?_
    refine guarantees_bind (hcursor _ _) fun updated => ?_
    exact guarantees_bind (guarantees_ensure _ _) fun _ => trivial

end MailGate
