import MailGate.Ingestion.Imap
import MailGate.Lib.Transaction
import MailGate.Mail.Assess

/-!
# Synchronising a mailbox

`_store_message` and `sync_mailbox` of `ingestion.py`.  A run of `sync_mailbox` is a program
that works on the database in transactions: one for each message, one for the cursor, and,
where it fails, one for the error code.
-/

namespace MailGate

open Transaction

/-- What a run of `sync_mailbox` meets outside the database. -/
structure SyncEnv where
  lib : Library
  /-- The resolver behind the DKIM verification of the message with this number. -/
  resolver : ℕ → DnsTxtResolver
  imap : ImapSession
  /-- `settings.MAILGATE_IMAP_ALLOWED_HOST`. -/
  allowedHost : PyStr
  /-- `decrypt_secret`. -/
  decryptSecret : Bytes → Except SyncExn PyStr
  /-- The readings of `timezone.now()` while messages are stored. -/
  clock : ℕ → Time
  /-- The readings for `last_sync_at` and `updated_at` at the end of a run that succeeds. -/
  syncedAt : Time × Time
  /-- The readings for `last_sync_at` and `updated_at` at the end of a run that fails. -/
  failedAt : Time × Time
  /-- The values of `uuid.uuid4()`. -/
  uuid4 : ℕ → Uuid

/-! ## Storing a message -/

/-- What `_store_message` knows about a message before it opens its transaction. -/
structure Assessed where
  parsed : Option ParsedMessage
  risk : PyStr
  state : PyStr
  reasons : List PyStr
  category : PyStr
  priority : ℕ
  summary : PyStr
deriving DecidableEq, Repr

/-- What `sync_mailbox` hands to `_store_message`. -/
structure Fetched where
  raw : Bytes := []
  unsafeReason : PyStr := []
deriving DecidableEq, Repr

/-- The set of trusted ids of a mailbox. -/
def trustedIds (lib : Library) (mailbox : Mailbox) : List PyStr :=
  ((mailbox.trustedAuthservIds.splitOn (ofChar ',')).filter fun item => PyStr.strip item ≠ []).map
    fun item => lib.unicode.lower (PyStr.strip item)

/-- A message that could not be processed. -/
def unprocessed (reason summary : PyStr) : Assessed where
  parsed := none
  risk := Risk.high.value
  state := State.quarantined.value
  reasons := [reason]
  category := py "unsafe"
  priority := 1
  summary := summary

/-- A message that was parsed. -/
def processed (lib : Library) (parsed : ParsedMessage) : Assessed :=
  let (risk, state, reasons) := assess parsed
  let (category, priority, summary) := classify lib parsed
  { parsed := some parsed
    risk := risk.value
    state := state.value
    reasons, category, priority, summary }

/-- The `try` statement of `_store_message`. -/
def processMessage (lib : Library) (resolver : DnsTxtResolver) (trusted : List PyStr)
    (item : Fetched) : Assessed :=
  let parsed : Except MailExn ParsedMessage :=
    if item.unsafeReason ≠ [] then .error (.unsafeMessage item.unsafeReason)
    else parseMessage lib resolver item.raw trusted
  match parsed with
  | .ok parsed => processed lib parsed
  | .error (.unsafeMessage reason) =>
      unprocessed reason (py "Message quarantined because safe parsing failed")
  | .error _ =>
      unprocessed (py "processing_error") (py "Message quarantined because processing failed")

lemma processMessage_of_ok {lib : Library} {resolver : DnsTxtResolver} {trusted : List PyStr}
    {raw : Bytes} {parsed : ParsedMessage}
    (h : parseMessage lib resolver raw trusted = .ok parsed) :
    processMessage lib resolver trusted { raw := raw } = processed lib parsed := by
  simp [processMessage, h]

/-- The values that the transaction of `_store_message` works with. -/
structure StoreArgs where
  mailboxId : ℕ
  uidValidity : ℕ
  uid : ℕ
  expectedConfigVersion : ℕ
  assessed : Assessed
  newId : Uuid
  decidedAt : Time
  ingestedAt : Time
  auditAt : Time
deriving DecidableEq, Repr

namespace StoreArgs

variable (a : StoreArgs)

/-- The row that `get_or_create` creates. -/
def messageRow : Message where
  id := a.newId
  mailboxId := a.mailboxId
  uidValidity := a.uidValidity
  uid := a.uid
  messageIdHash := (a.assessed.parsed.map (·.messageIdHash)).getD []
  sender := (a.assessed.parsed.map (·.sender)).getD []
  senderName := (a.assessed.parsed.map (·.senderName)).getD []
  recipients := (a.assessed.parsed.map (·.recipients)).getD []
  subject := (a.assessed.parsed.map (·.subject)).getD []
  receivedAt := a.assessed.parsed.bind (·.receivedAt)
  sanitizedText := (a.assessed.parsed.map (·.text)).getD []
  links := (a.assessed.parsed.map (·.links)).getD []
  authentication := a.assessed.parsed.map (·.authentication)
  signals := a.assessed.reasons
  risk := a.assessed.risk
  category := a.assessed.category
  priority := a.assessed.priority
  summary := a.assessed.summary
  state := a.assessed.state
  ingestedAt := a.ingestedAt
  decidedAt := some a.decidedAt

/-- The attachment rows that `bulk_create` creates. -/
def attachmentRows : List Attachment :=
  ((a.assessed.parsed.map (·.attachments)).getD []).map fun item =>
    { messageId := a.newId
      filename := item.filename
      contentType := item.contentType
      size := item.size
      sha256 := item.sha256
      dangerous := item.dangerous }

/-- The row lock of the transaction is taken on a row that satisfies this. -/
def locks (m : Mailbox) : Bool :=
  m.id == a.mailboxId && m.enabled && m.configVersion == a.expectedConfigVersion

/-- The key of the message. -/
def key : ℕ × ℕ × ℕ := (a.mailboxId, a.uidValidity, a.uid)

/-- The statements for a message that is not in the table yet. -/
def create (db : Db) : Except DbExn Db := do
  let db ← db.insertMessage .worker a.messageRow
  let db ← db.insertAttachments a.attachmentRows
  return db.writeAudit (py "worker") (py "message.ingested")
    (some (py "Message", a.newId.str))
    [(py "state", .text a.assessed.state), (py "risk", .text a.assessed.risk)] a.auditAt

/-- The transaction of `_store_message`; the answer tells whether a row was created. -/
def transaction (db : Db) : Except SyncExn (Bool × Db) :=
  if ¬ ∃ m ∈ db.mailboxes, a.locks m then
    .error (.mailboxSync (py "configuration_changed"))
  else if ∃ m ∈ db.messages, m.key = a.key then .ok (false, db)
  else
    match a.create db with
    | .ok db => .ok (true, db)
    | .error _ => .error .database

end StoreArgs

/-- The arguments for the message with the number `tick`. -/
def storeArgs (env : SyncEnv) (mailbox : Mailbox) (validity uid tick : ℕ) (item : Fetched) :
    StoreArgs where
  mailboxId := mailbox.id
  uidValidity := validity
  uid := uid
  expectedConfigVersion := mailbox.configVersion
  assessed := processMessage env.lib (env.resolver tick) (trustedIds env.lib mailbox) item
  newId := env.uuid4 tick
  decidedAt := env.clock (3 * tick)
  ingestedAt := env.clock (3 * tick + 1)
  auditAt := env.clock (3 * tick + 2)

/-- `_store_message`. -/
def storeMessage (env : SyncEnv) (mailbox : Mailbox) (validity uid tick : ℕ) (item : Fetched) :
    Prog Db SyncExn Bool :=
  .atomic (storeArgs env mailbox validity uid tick item).transaction

/-! ## Talking to the server -/

/-- `_open_imap`. -/
def openImap (env : SyncEnv) (mailbox : Mailbox) : Except SyncExn Unit :=
  if mailbox.host ≠ env.allowedHost ∨ mailbox.port ≠ 993 then
    .error (.mailboxSync (py "egress_policy_denied"))
  else env.imap.connect

/-- What a run knows when it starts to fetch: the validity the server reports, the cursor it
starts from, and the UIDs it takes. -/
structure SyncPlan where
  uidValidity : ℕ
  lastUid : ℕ
  uids : List ℕ
deriving DecidableEq, Repr

/-- The cursor of a mailbox under a validity: a new validity starts from zero. -/
def cursorUnder (mailbox : Mailbox) (validity : ℕ) : ℕ :=
  if mailbox.uidValidity = some validity then mailbox.lastUid else 0

/-- `f"UID {last_uid + 1}:*"`. -/
def searchCriteria (lastUid : ℕ) : PyStr :=
  py "UID " ++ PyStr.ofNat (lastUid + 1) ++ py ":*"

/-- `sync_mailbox` from the connection to the list of UIDs. -/
def planSync (env : SyncEnv) (mailbox : Mailbox) (password : PyStr) (batchSize : ℕ) :
    Except SyncExn SyncPlan := do
  openImap env mailbox
  let status ← env.imap.login mailbox.username password
  if status ≠ py "OK" then .error (.mailboxSync (py "authentication_failed"))
  else do
    let status ← env.imap.select
    if status ≠ py "OK" then .error (.mailboxSync (py "inbox_unavailable"))
    else do
      let validity ← uidvalidity (← env.imap.response)
      let lastUid := cursorUnder mailbox validity
      let (status, values) ← env.imap.uid 0 (.search (searchCriteria lastUid))
      if status ≠ py "OK" then .error (.mailboxSync (py "search_failed"))
      else do
        let uids ← selectUids values lastUid batchSize
        return { uidValidity := validity, lastUid := lastUid, uids := uids }

/-- The two FETCH commands for one UID. -/
def fetchMessage (env : SyncEnv) (tick uid : ℕ) : Except SyncExn Fetched := do
  let (status, sizeResponse) ← env.imap.uid (2 * tick + 1) (.fetchSize (PyStr.ofNat uid))
  let size ← messageSize sizeResponse
  match size with
  | none => .error (.mailboxSync (py "size_unavailable"))
  | some size =>
      if status ≠ py "OK" then .error (.mailboxSync (py "size_unavailable"))
      else if size > maxMessageBytes then return { unsafeReason := py "message_too_large" }
      else do
        let (status, response) ← env.imap.uid (2 * tick + 2) (.fetchBody (PyStr.ofNat uid))
        if status ≠ py "OK" then .error (.mailboxSync (py "fetch_failed"))
        else
          let raw := responseBytes response
          if raw = [] then .error (.mailboxSync (py "empty_message"))
          else return { raw := raw }

/-! ## The run -/

/-- The loop over the UIDs: the number of rows created and the cursor so far. -/
def syncUids (env : SyncEnv) (mailbox : Mailbox) (validity : ℕ) :
    ℕ → List ℕ → ℕ → ℕ → Prog Db SyncExn (ℕ × ℕ)
  | _, [], created, lastUid => pure (created, lastUid)
  | tick, uid :: uids, created, lastUid => do
      let item ← .compute (fetchMessage env tick uid)
      let new ← storeMessage env mailbox validity uid tick item
      syncUids env mailbox validity (tick + 1) uids (created + new.toNat) (max lastUid uid)

/-- The rows that the updates of a run address: the mailbox, while it is enabled and has the
version that the run started with. -/
def guardsMailbox (mailbox m : Mailbox) : Bool :=
  m.id == mailbox.id && m.enabled && m.configVersion == mailbox.configVersion

/-- An update of the mailbox row; the answer is the number of rows. -/
def updateGuarded (mailbox : Mailbox) (set : Mailbox → Mailbox) (db : Db) :
    Except SyncExn (ℕ × Db) :=
  match db.updateMailboxes (guardsMailbox mailbox) set with
  | .ok (n, db) => .ok (n, db)
  | .error _ => .error .database

/-- The columns of the final update. -/
def setCursor (env : SyncEnv) (validity lastUid : ℕ) (m : Mailbox) : Mailbox :=
  { m with
    uidValidity := some validity
    lastUid := lastUid
    lastSyncAt := some env.syncedAt.1
    lastErrorCode := []
    updatedAt := env.syncedAt.2 }

/-- The columns of the update after a failure. -/
def setError (env : SyncEnv) (code : PyStr) (m : Mailbox) : Mailbox :=
  { m with
    lastErrorCode := code
    lastSyncAt := some env.failedAt.1
    updatedAt := env.failedAt.2 }

/-- `sync_mailbox` from the loop to the return. -/
def syncSelected (env : SyncEnv) (mailbox : Mailbox) (plan : SyncPlan) : Prog Db SyncExn ℕ := do
  let (created, lastUid) ←
    syncUids env mailbox plan.uidValidity 0 plan.uids 0 plan.lastUid
  let updated ← .atomic (updateGuarded mailbox (setCursor env plan.uidValidity lastUid))
  Prog.ensure (updated = 1) (.mailboxSync (py "configuration_changed"))
  return created

/-- The end of the `except` clause for an error with this code. -/
def recordFailure (env : SyncEnv) (mailbox : Mailbox) (code : PyStr) : Prog Db SyncExn ℕ :=
  if code ≠ py "configuration_changed" then do
    let _ ← .atomic (updateGuarded mailbox (setError env code))
    .compute (.error (.mailboxSync code))
  else .compute (.error (.mailboxSync code))

/-- The `except` clause of `sync_mailbox`; other exceptions pass. -/
def syncFailed (env : SyncEnv) (mailbox : Mailbox) : SyncExn → Prog Db SyncExn ℕ
  | .mailboxSync code => recordFailure env mailbox code
  | .connection => recordFailure env mailbox (py "connection_failed")
  | exc => .compute (.error exc)

/-- The `finally` clause of `sync_mailbox`: where there is a client, it is logged out, and
`imaplib.IMAP4.error` and `OSError` are dropped. -/
def closeImap (env : SyncEnv) (mailbox : Mailbox) : Except SyncExn Unit :=
  match openImap env mailbox, env.imap.logout with
  | .error _, _ => .ok ()
  | .ok _, .error .connection => .ok ()
  | .ok _, result => result

/-- `sync_mailbox`. -/
def syncMailbox (env : SyncEnv) (mailbox : Mailbox) (batchSize : ℕ := 50) :
    Prog Db SyncExn ℕ :=
  if !mailbox.enabled then pure 0
  else do
    let password ← .compute (env.decryptSecret mailbox.passwordEncrypted)
    (Prog.tryCatch
      (do
        let plan ← .compute (planSync env mailbox password batchSize)
        syncSelected env mailbox plan)
      (syncFailed env mailbox)).finallyDo (.compute (closeImap env mailbox))

/-! ## A small instance -/

/-- A run that meets a working server: validity 7, and `uid` for the numbered commands. -/
def sampleEnv (lib : Library) (uid : ℕ → UidCommand → Except SyncExn (PyStr × List Item)) :
    SyncEnv where
  lib := lib
  resolver _ := { resolveTxt := fun _ _ => .value none, timeLeft := fun _ => true }
  imap :=
    { connect := .ok ()
      login := fun _ _ => .ok (py "OK")
      select := .ok (py "OK")
      response := .ok [.bytes (bytes "7")]
      uid := uid }
  allowedHost := py "imap.example.org"
  decryptSecret _ := .ok (py "secret")
  clock n := n
  syncedAt := (1000, 1000)
  failedAt := (1000, 1000)
  uuid4 n := BitVec.ofNat 128 (n + 1)

/-- A mailbox that has not been synchronised yet. -/
def sampleMailbox : Mailbox where
  id := 1
  name := py "inbox"
  providerKey := py "generic_imaps"
  presetVersion := 1
  host := py "imap.example.org"
  port := 993
  username := py "user"
  passwordEncrypted := []
  trustedAuthservIds := []
  enabled := true
  uidValidity := none
  lastUid := 0
  lastSyncAt := none
  lastErrorCode := []
  configVersion := 1
  createdAt := 0
  updatedAt := 0

/-- A database that holds this mailbox only. -/
def sampleDb : Db where
  users := [py "owner"]
  mailboxes := [sampleMailbox]
  mailboxSeq := 2
  messages := []
  attachments := []
  tokens := []
  tokenSeq := 1
  audit := []
  auditSeq := 1

end MailGate
