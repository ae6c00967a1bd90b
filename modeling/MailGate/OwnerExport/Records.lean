import MailGate.Models
import MailGate.Python.Datetime
import MailGate.Python.Json.Plain

/-!
# The records of the owner export

`owner_export.py`: the tables of the database as a stream of JSON objects, one a line.  A
record lists the columns by name; the columns that hold secrets are not among them.
-/

namespace MailGate

namespace OwnerExport

/-! ## Rows -/

/-- A row of the user table. -/
structure Account where
  id : ℕ
  username : PyStr
  email : PyStr
  firstName : PyStr
  lastName : PyStr
  isActive : Bool
  isStaff : Bool
  isSuperuser : Bool
  dateJoined : Time
  lastLogin : Option Time
  password : PyStr
deriving DecidableEq, Repr

/-- The database, the accounts behind its users, and the keys of its attachments. -/
structure Snapshot where
  db : Db
  accounts : List Account
  attachmentIds : List ℕ
  usernames : accounts.map (·.username) = db.users
  attachmentIds_length : attachmentIds.length = db.attachments.length

/-- What a record is made of. -/
inductive Row where
  | manifest (exportedAt : Time)
  | owner (account : Account)
  | mailbox (m : Mailbox)
  | message (m : Message)
  | attachment (id : ℕ) (a : Attachment)
  | token (t : ApiToken)
  | event (e : AuditEvent)
deriving DecidableEq, Repr

/-! ## Fields -/

/-- A value of a record. -/
inductive Field where
  | text (s : PyStr)
  | number (n : Option ℕ)
  | flag (b : Bool)
  /-- `_timestamp(value)`. -/
  | time (t : Option Time)
  /-- `str(value)` of a UUID. -/
  | uuid (u : Uuid)
  | texts (xs : List PyStr)
  /-- The `authentication` column. -/
  | authentication (a : Option Authentication)

/-- A record: its keys and values in the order of the source. -/
abbrev Record : Type := List (PyStr × Field)

variable {F : Type}

/-- A signature of the DKIM result. -/
def signatureJson (s : DkimSignature) : Json F :=
  .object [(py "domain", .string s.domain), (py "selector", .string s.selector),
    (py "result", .string s.result)]

/-- The DKIM result. -/
def verdictJson (d : DkimVerdict) : Json F :=
  .object ([(py "result", .string d.result),
      (py "signatures", .array (d.signatures.map signatureJson))] ++
    d.reason.toList.map fun reason => (py "reason", .string reason))

/-- The claims of the provider. -/
def claimsJson (c : ProviderClaims) : Json F :=
  .object [(py "spf", .string c.spf), (py "dkim", .string c.dkim), (py "dmarc", .string c.dmarc),
    (py "arc", .string c.arc), (py "authserv_id", .string c.authservId)]

/-- What the JSON column of a message holds. -/
def authenticationJson : Option Authentication → Json F
  | none => .object []
  | some a =>
      .object [(py "schema_version", .scalar (.int a.schemaVersion)),
        (py "provider_claims", claimsJson a.providerClaims),
        (py "independent", .object [(py "dkim", verdictJson a.independentDkim)])]

/-- The JSON value of a field. -/
def Field.json : Field → Json F
  | .text s => .string s
  | .number none => .scalar .null
  | .number (some n) => .scalar (.int n)
  | .flag b => .scalar (.bool b)
  | .time none => .scalar .null
  | .time (some t) => .string (Datetime.isoformat t)
  | .uuid u => .string u.str
  | .texts xs => .array (xs.map .string)
  | .authentication a => authenticationJson a

/-- The JSON object of a record. -/
def Record.json (r : Record) : Json F := .object (r.map fun p => (p.1, p.2.json))

/-! ## Records -/

/-- The first record. -/
def manifestRecord (effectiveTime : Time) : Record :=
  [(py "type", .text (py "manifest")),
    (py "schema", .text (py "mailgate.owner.ndjson")),
    (py "version", .number (some 1)),
    (py "exported_at", .time (some effectiveTime))]

/-- The record of an owner. -/
def ownerRecord (owner : Account) : Record :=
  [(py "type", .text (py "owner")),
    (py "id", .number (some owner.id)),
    (py "username", .text owner.username),
    (py "email", .text owner.email),
    (py "first_name", .text owner.firstName),
    (py "last_name", .text owner.lastName),
    (py "is_active", .flag owner.isActive),
    (py "date_joined", .time (some owner.dateJoined)),
    (py "last_login", .time owner.lastLogin)]

/-- The record of a mailbox. -/
def mailboxRecord (mailbox : Mailbox) : Record :=
  [(py "type", .text (py "mailbox")),
    (py "id", .number (some mailbox.id)),
    (py "name", .text mailbox.name),
    (py "provider_key", .text mailbox.providerKey),
    (py "preset_version", .number (some mailbox.presetVersion)),
    (py "host", .text mailbox.host),
    (py "port", .number (some mailbox.port)),
    (py "username", .text mailbox.username),
    (py "trusted_authserv_ids", .text mailbox.trustedAuthservIds),
    (py "enabled", .flag mailbox.enabled),
    (py "uid_validity", .number mailbox.uidValidity),
    (py "last_uid", .number (some mailbox.lastUid)),
    (py "last_sync_at", .time mailbox.lastSyncAt),
    (py "last_error_code", .text mailbox.lastErrorCode),
    (py "config_version", .number (some mailbox.configVersion)),
    (py "created_at", .time (some mailbox.createdAt)),
    (py "updated_at", .time (some mailbox.updatedAt))]

/-- The record of a message. -/
def messageRecord (message : Message) : Record :=
  [(py "type", .text (py "message")),
    (py "id", .uuid message.id),
    (py "mailbox_id", .number (some message.mailboxId)),
    (py "uid_validity", .number (some message.uidValidity)),
    (py "uid", .number (some message.uid)),
    (py "message_id_hash", .text message.messageIdHash),
    (py "sender", .text message.sender),
    (py "sender_name", .text message.senderName),
    (py "recipients", .texts message.recipients),
    (py "subject", .text message.subject),
    (py "received_at", .time message.receivedAt),
    (py "sanitized_text", .text message.sanitizedText),
    (py "links", .texts message.links),
    (py "authentication", .authentication message.authentication),
    (py "signals", .texts message.signals),
    (py "risk", .text message.risk),
    (py "category", .text message.category),
    (py "priority", .number (some message.priority)),
    (py "summary", .text message.summary),
    (py "state", .text message.state),
    (py "ingested_at", .time (some message.ingestedAt)),
    (py "decided_at", .time message.decidedAt)]

/-- The record of an attachment. -/
def attachmentRecord (id : ℕ) (attachment : Attachment) : Record :=
  [(py "type", .text (py "attachment")),
    (py "id", .number (some id)),
    (py "message_id", .uuid attachment.messageId),
    (py "filename", .text attachment.filename),
    (py "content_type", .text attachment.contentType),
    (py "size", .number (some attachment.size)),
    (py "sha256", .text attachment.sha256),
    (py "dangerous", .flag attachment.dangerous)]

/-- The record of a token. -/
def tokenRecord (token : ApiToken) : Record :=
  [(py "type", .text (py "api_token")),
    (py "id", .number (some token.id)),
    (py "name", .text token.name),
    (py "prefix", .text token.tokenPrefix),
    (py "scope", .text token.scope),
    (py "created_at", .time (some token.createdAt)),
    (py "expires_at", .time token.expiresAt),
    (py "last_used_at", .time token.lastUsedAt),
    (py "revoked_at", .time token.revokedAt)]

/-- The record of an audit event. -/
def eventRecord (event : AuditEvent) : Record :=
  [(py "type", .text (py "audit_event")),
    (py "id", .number (some event.id)),
    (py "actor", .text event.actor),
    (py "action", .text event.action),
    (py "object_type", .text event.objectType),
    (py "object_id", .text event.objectId),
    (py "created_at", .time (some event.createdAt))]

/-- The record of a row. -/
def Row.record : Row → Record
  | .manifest exportedAt => manifestRecord exportedAt
  | .owner account => ownerRecord account
  | .mailbox m => mailboxRecord m
  | .message m => messageRecord m
  | .attachment id a => attachmentRecord id a
  | .token t => tokenRecord t
  | .event e => eventRecord e

/-! ## The export -/

/-- `ORDER BY` the primary key. -/
def orderByPk {α κ : Type} [LinearOrder κ] (pk : α → κ) (rows : List α) : List α :=
  rows.insertionSort fun a b => pk a ≤ pk b

/-- The rows in the order in which `iter_owner_export` reads them. -/
def Snapshot.rows (s : Snapshot) (exportedAt : Time) : List Row :=
  .manifest exportedAt ::
    ((orderByPk (·.id) s.accounts).map .owner ++
      (orderByPk (·.id) s.db.mailboxes).map .mailbox ++
      (orderByPk (·.id.toNat) s.db.messages).map .message ++
      (orderByPk (·.1) (s.attachmentIds.zip s.db.attachments)).map (fun p => .attachment p.1 p.2) ++
      (orderByPk (·.id) s.db.tokens).map .token ++
      (orderByPk (·.id) s.db.audit).map .event)

/-- `iter_owner_export`. -/
def iterOwnerExport (s : Snapshot) (exportedAt : Option Time) (now : Time) : List Record :=
  (s.rows (exportedAt.getD now)).map Row.record

/-- `write_owner_export`: what it writes, and the number of records that it returns. -/
def writeOwnerExport (floats : Json.Floats F) (s : Snapshot) (exportedAt : Option Time)
    (now : Time) : PyStr × ℕ :=
  let records := iterOwnerExport s exportedAt now
  (Json.dumpLines floats (records.map Record.json), records.length)

end OwnerExport

end MailGate
