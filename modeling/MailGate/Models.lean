import Mathlib.Data.BitVec
import MailGate.Python.Str

/-!
# The database

The tables of `models.py` as PostgreSQL holds them, with what the schema and the migrations
add to them: the unique constraints, the column widths, the insert trigger that forces mail
of the worker into quarantine, the update trigger that counts security relevant changes of a
mailbox, and the view that the agent API reads.
-/

namespace MailGate

open PyStr (TextOk)

/-- A point of time, in microseconds. -/
abbrev Time : Type := ℤ

/-- `timedelta(minutes=1)`. -/
def Time.minute : Time := 60000000

/-- `timedelta(days=1)`. -/
def Time.day : Time := 86400000000

/-- A UUID. -/
abbrev Uuid : Type := BitVec 128

instance Uuid.lawfulBEq : LawfulBEq Uuid := inferInstance

/-- The `i`-th hexadecimal digit of a UUID, counted from the right. -/
def Uuid.digit (u : Uuid) (i : ℕ) : PyChar :=
  (py "0123456789abcdef").getD (u.toNat / 16 ^ i % 16) 0

/-- `str(uuid)`. -/
def Uuid.str (u : Uuid) : PyStr :=
  let digits (hi n : ℕ) : PyStr := (List.range n).map fun i => u.digit (hi - i)
  PyStr.join (py "-") [digits 31 8, digits 23 4, digits 19 4, digits 15 4, digits 11 12]

/-! ## Rows -/

/-- `Message.State`. -/
inductive State where
  | quarantined
  | approved
  | rejected
deriving DecidableEq, Repr

/-- The text that the column holds. -/
def State.value : State → PyStr
  | quarantined => py "quarantined"
  | approved => py "approved"
  | rejected => py "rejected"

/-- `Message.Risk`. -/
inductive Risk where
  | low
  | medium
  | high
deriving DecidableEq, Repr

/-- The text that the column holds. -/
def Risk.value : Risk → PyStr
  | low => py "low"
  | medium => py "medium"
  | high => py "high"

/-- `Mailbox`. -/
structure Mailbox where
  id : ℕ
  name : PyStr
  providerKey : PyStr
  presetVersion : ℕ
  host : PyStr
  port : ℕ
  username : PyStr
  passwordEncrypted : Bytes
  trustedAuthservIds : PyStr
  enabled : Bool
  uidValidity : Option ℕ
  lastUid : ℕ
  lastSyncAt : Option Time
  lastErrorCode : PyStr
  configVersion : ℕ
  createdAt : Time
  updatedAt : Time
deriving DecidableEq, Repr

/-- One entry of the `signatures` list of the independent DKIM result. -/
structure DkimSignature where
  domain : PyStr
  selector : PyStr
  result : PyStr
deriving DecidableEq, Repr

/-- The dictionary that `verify_dkim` returns. -/
structure DkimVerdict where
  result : PyStr
  signatures : List DkimSignature
  reason : Option PyStr
deriving DecidableEq, Repr

/-- The dictionary that `parse_authentication_results` returns. -/
structure ProviderClaims where
  spf : PyStr
  dkim : PyStr
  dmarc : PyStr
  arc : PyStr
  authservId : PyStr
deriving DecidableEq, Repr

/-- The authentication JSON of a message. -/
structure Authentication where
  schemaVersion : ℕ
  providerClaims : ProviderClaims
  independentDkim : DkimVerdict
deriving DecidableEq, Repr

/-- `Message`.  The authentication object of a message that could not be parsed is `{}`. -/
structure Message where
  id : Uuid
  mailboxId : ℕ
  uidValidity : ℕ
  uid : ℕ
  messageIdHash : PyStr
  sender : PyStr
  senderName : PyStr
  recipients : List PyStr
  subject : PyStr
  receivedAt : Option Time
  sanitizedText : PyStr
  links : List PyStr
  authentication : Option Authentication
  signals : List PyStr
  risk : PyStr
  category : PyStr
  priority : ℕ
  summary : PyStr
  state : PyStr
  ingestedAt : Time
  decidedAt : Option Time
deriving DecidableEq, Repr

/-- The columns of `unique_imap_message`. -/
def Message.key (m : Message) : ℕ × ℕ × ℕ := (m.mailboxId, m.uidValidity, m.uid)

/-- `Attachment`. -/
structure Attachment where
  messageId : Uuid
  filename : PyStr
  contentType : PyStr
  size : ℕ
  sha256 : PyStr
  dangerous : Bool
deriving DecidableEq, Repr

/-- `ApiToken`. -/
structure ApiToken where
  id : ℕ
  name : PyStr
  tokenPrefix : PyStr
  tokenHash : PyStr
  scope : PyStr
  createdAt : Time
  expiresAt : Option Time
  lastUsedAt : Option Time
  revokedAt : Option Time
deriving DecidableEq, Repr

/-- A value in the metadata of an audit event. -/
inductive MetaValue where
  | null
  | text (s : PyStr)
  | number (n : ℕ)
  | texts (xs : List PyStr)
  | counts (xs : List (PyStr × ℕ))
deriving DecidableEq, Repr

/-- `AuditEvent`. -/
structure AuditEvent where
  id : ℕ
  actor : PyStr
  action : PyStr
  objectType : PyStr
  objectId : PyStr
  metadata : List (PyStr × MetaValue)
  createdAt : Time
deriving DecidableEq, Repr

/-- The database.  Each table lists its rows in the order of their insertion; the sequences
hold the next value of a generated key, which is never handed out twice. -/
structure Db where
  users : List PyStr
  mailboxes : List Mailbox
  mailboxSeq : ℕ
  messages : List Message
  attachments : List Attachment
  tokens : List ApiToken
  tokenSeq : ℕ
  audit : List AuditEvent
  auditSeq : ℕ
deriving DecidableEq, Repr

/-- The errors by which PostgreSQL or the driver refuses a statement. -/
inductive DbExn where
  /-- A constraint is violated. -/
  | integrity
  /-- A value does not fit its column or cannot be encoded. -/
  | data
  /-- `save(update_fields=...)` met no row. -/
  | noRow
  /-- The role lacks the privilege. -/
  | permission
deriving DecidableEq, Repr

/-! ## Columns -/

/-- A text that fits a `varchar(n)` column. -/
def Varchar (n : ℕ) (s : PyStr) : Prop := s.length ≤ n ∧ TextOk s

instance (n : ℕ) (s : PyStr) : Decidable (Varchar n s) := by unfold Varchar; infer_instance

/-- The largest value of a `bigint` column. -/
def maxBigint : ℕ := 2 ^ 63 - 1

/-- The strings inside the authentication object. -/
def Authentication.texts (a : Authentication) : List PyStr :=
  let c := a.providerClaims
  let d := a.independentDkim
  [c.spf, c.dkim, c.dmarc, c.arc, c.authservId, d.result] ++ d.reason.toList ++
    d.signatures.flatMap fun s => [s.domain, s.selector, s.result]

/-- The strings of a message row that stand in text and JSON columns of any length. -/
def Message.freeTexts (m : Message) : List PyStr :=
  m.recipients ++ [m.sanitizedText] ++ m.links ++
    (m.authentication.map Authentication.texts).getD [] ++ m.signals ++ [m.summary]

/-- The texts of a message row in `varchar` columns, each with the width of its column. -/
def Message.varchars (m : Message) : List (ℕ × PyStr) :=
  [(64, m.messageIdHash), (320, m.sender), (320, m.senderName), (998, m.subject),
    (10, m.risk), (80, m.category), (20, m.state)]

/-- The texts of an attachment row, each with the width of its column. -/
def Attachment.varchars (a : Attachment) : List (ℕ × PyStr) :=
  [(255, a.filename), (255, a.contentType), (64, a.sha256)]

/-- Every value of a message row fits its column. -/
def Message.Fits (m : Message) : Prop :=
  (∀ p ∈ m.varchars, Varchar p.1 p.2) ∧ (∀ s ∈ m.freeTexts, TextOk s) ∧
    m.uidValidity ≤ maxBigint ∧ m.uid ≤ maxBigint

instance (m : Message) : Decidable m.Fits := by unfold Message.Fits; infer_instance

/-- Every value of an attachment row fits its column. -/
def Attachment.Fits (a : Attachment) : Prop :=
  (∀ p ∈ a.varchars, Varchar p.1 p.2) ∧ a.size ≤ maxBigint

instance (a : Attachment) : Decidable a.Fits := by unfold Attachment.Fits; infer_instance

/-- Every value of a token row fits its column. -/
def ApiToken.Fits (t : ApiToken) : Prop :=
  Varchar 120 t.name ∧ Varchar 16 t.tokenPrefix ∧ Varchar 64 t.tokenHash ∧ Varchar 40 t.scope

instance (t : ApiToken) : Decidable t.Fits := by unfold ApiToken.Fits; infer_instance

/-- Every value of a mailbox row fits its column. -/
def Mailbox.Fits (m : Mailbox) : Prop :=
  Varchar 120 m.name ∧ Varchar 32 m.providerKey ∧ Varchar 253 m.host ∧
    Varchar 320 m.username ∧ Varchar 500 m.trustedAuthservIds ∧ Varchar 80 m.lastErrorCode ∧
    (∀ v ∈ m.uidValidity, v ≤ maxBigint) ∧ m.lastUid ≤ maxBigint

instance (m : Mailbox) : Decidable m.Fits := by unfold Mailbox.Fits; infer_instance

/-! ## Statements -/

/-- The database roles of the containers. -/
inductive Role where
  | web
  | api
  | worker
deriving DecidableEq, Repr

/-- `mailgate_force_worker_quarantine`, the trigger before an insert into the message table. -/
def forceWorkerQuarantine (currentUser : Role) (new : Message) : Message :=
  if currentUser = .worker then
    { new with
      state := State.quarantined.value
      risk := if new.risk = Risk.high.value then Risk.high.value else Risk.medium.value }
  else new

/-- The columns whose change makes a running synchronisation stale. -/
structure SecurityColumns where
  providerKey : PyStr
  presetVersion : ℕ
  host : PyStr
  port : ℕ
  username : PyStr
  passwordEncrypted : Bytes
  trustedAuthservIds : PyStr
  enabled : Bool
deriving DecidableEq, Repr

/-- `ROW(provider_key, ..., enabled)`. -/
def Mailbox.securityColumns (m : Mailbox) : SecurityColumns where
  providerKey := m.providerKey
  presetVersion := m.presetVersion
  host := m.host
  port := m.port
  username := m.username
  passwordEncrypted := m.passwordEncrypted
  trustedAuthservIds := m.trustedAuthservIds
  enabled := m.enabled

/-- `mailgate_bump_mailbox_config_version`, the trigger before an update of a mailbox, as
migration 0005 leaves it. -/
def bumpMailboxConfigVersion (old new : Mailbox) : Mailbox :=
  if new.securityColumns ≠ old.securityColumns then
    { new with configVersion := old.configVersion + 1 }
  else { new with configVersion := old.configVersion }

namespace Db

/-- `AuditEvent.objects.create` through the function `audit`. -/
def writeAudit (db : Db) (actor action : PyStr) (obj : Option (PyStr × PyStr))
    (metadata : List (PyStr × MetaValue)) (now : Time) : Db :=
  let event : AuditEvent :=
    { id := db.auditSeq
      actor := actor.take 120
      action := action.take 120
      objectType := (obj.map (·.1)).getD []
      objectId := ((obj.map (·.2)).getD []).take 80
      metadata := metadata
      createdAt := now }
  { db with audit := db.audit ++ [event], auditSeq := db.auditSeq + 1 }

/-- `INSERT INTO gateway_message`. -/
def insertMessage (db : Db) (currentUser : Role) (new : Message) : Except DbExn Db :=
  let row := forceWorkerQuarantine currentUser new
  if ¬ row.Fits then .error .data
  else if (∃ m ∈ db.messages, m.id = row.id ∨ m.key = row.key) ∨
      row.mailboxId ∉ db.mailboxes.map (·.id) ∨
      row.state ∉ [State.quarantined.value, State.approved.value, State.rejected.value] then
    .error .integrity
  else .ok { db with messages := db.messages ++ [row] }

/-- `INSERT INTO gateway_attachment`, for a list of rows. -/
def insertAttachments (db : Db) (rows : List Attachment) : Except DbExn Db :=
  if ∃ a ∈ rows, ¬ a.Fits then .error .data
  else if ∃ a ∈ rows, a.messageId ∉ db.messages.map (·.id) then .error .integrity
  else .ok { db with attachments := db.attachments ++ rows }

/-- `UPDATE gateway_mailbox SET ... WHERE p`: the number of rows and the new table. -/
def updateMailboxes (db : Db) (p : Mailbox → Bool) (set : Mailbox → Mailbox) :
    Except DbExn (ℕ × Db) :=
  if ∃ m ∈ db.mailboxes, p m = true ∧ ¬ (set m).Fits then .error .data
  else
    .ok (db.mailboxes.countP p,
      { db with
        mailboxes := db.mailboxes.map fun m =>
          if p m then bumpMailboxConfigVersion m (set m) else m })

/-- `INSERT INTO gateway_mailbox` of a row whose key comes from the sequence. -/
def insertMailbox (db : Db) (new : Mailbox) : Except DbExn (ℕ × Db) :=
  let row := { new with id := db.mailboxSeq }
  if ¬ row.Fits then .error .data
  else .ok (row.id, { db with mailboxes := db.mailboxes ++ [row], mailboxSeq := db.mailboxSeq + 1 })

/-- Delete the messages that satisfy `p`, and with them their attachments. -/
def deleteMessages (db : Db) (p : Message → Bool) : Db :=
  let gone := (db.messages.filter p).map (·.id)
  { db with
    messages := db.messages.filter (!p ·)
    attachments := db.attachments.filter fun a => a.messageId ∉ gone }

/-- Delete a mailbox, and with it its messages and their attachments. -/
def deleteMailbox (db : Db) (id : ℕ) : Db :=
  let db := db.deleteMessages fun m => m.mailboxId = id
  { db with mailboxes := db.mailboxes.filter fun m => m.id ≠ id }

/-- `UPDATE gateway_message SET state, decided_at WHERE id`. -/
def updateDecision (db : Db) (id : Uuid) (decision : PyStr) (now : Time) : Except DbExn Db :=
  if id ∉ db.messages.map (·.id) then .error .noRow
  else if decision ∉ [State.quarantined.value, State.approved.value, State.rejected.value] then
    .error .integrity
  else
    .ok { db with
      messages := db.messages.map fun m =>
        if m.id = id then { m with state := decision, decidedAt := some now } else m }

/-- `INSERT INTO gateway_apitoken` of a row whose key comes from the sequence. -/
def insertToken (db : Db) (new : ApiToken) : Except DbExn (ℕ × Db) :=
  let row := { new with id := db.tokenSeq }
  if ¬ row.Fits then .error .data
  else if ∃ t ∈ db.tokens, t.tokenPrefix = row.tokenPrefix ∨ t.tokenHash = row.tokenHash then
    .error .integrity
  else .ok (row.id, { db with tokens := db.tokens ++ [row], tokenSeq := db.tokenSeq + 1 })

/-- `UPDATE gateway_apitoken SET revoked_at WHERE id`. -/
def updateRevoked (db : Db) (id : ℕ) (now : Time) : Except DbExn Db :=
  if id ∉ db.tokens.map (·.id) then .error .noRow
  else
    .ok { db with
      tokens := db.tokens.map fun t => if t.id = id then { t with revokedAt := some now } else t }

end Db

/-! ## The view of the agent API -/

/-- `ApprovedMessage`, a row of the view `mailgate_api_approved_message`. -/
structure ApprovedMessage where
  id : Uuid
  sender : PyStr
  senderName : PyStr
  subject : PyStr
  receivedAt : Option Time
  category : PyStr
  priority : ℕ
  risk : PyStr
  summary : PyStr
  sanitizedText : PyStr
  links : List PyStr
  ingestedAt : Time
deriving DecidableEq, Repr

/-- The columns of the view. -/
def Message.approvedColumns (m : Message) : ApprovedMessage where
  id := m.id
  sender := m.sender
  senderName := m.senderName
  subject := m.subject
  receivedAt := m.receivedAt
  category := m.category
  priority := m.priority
  risk := m.risk
  summary := m.summary
  sanitizedText := m.sanitizedText
  links := m.links
  ingestedAt := m.ingestedAt

/-- `mailgate_api_approved_message`. -/
def Db.approvedMessages (db : Db) : List ApprovedMessage :=
  (db.messages.filter fun m => m.state = State.approved.value).map Message.approvedColumns

end MailGate
