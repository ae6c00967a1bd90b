import MailGate.Lib.Transaction
import MailGate.Web.Forms

/-!
# The views of the owner

The views of `views.py` that write.  A view is a program on the database: the statements
under one `transaction.atomic()` are one transaction, and each statement outside of one is a
transaction of its own.
-/

namespace MailGate

open Transaction

/-- What a request of the owner meets outside the database. -/
structure WebEnv where
  settings : WebSettings
  unicode : Unicodedata
  /-- `request.user.username`. -/
  user : PyStr
  /-- `encrypt_secret`; `none` is an exception. -/
  encryptSecret : PyStr → Option Bytes
  /-- The readings of `timezone.now()`. -/
  clock : ℕ → Time

/-- Exceptions of a view. -/
inductive WebExn where
  /-- `Http404`. -/
  | http404
  /-- `DoesNotExist`. -/
  | doesNotExist
  /-- The database refuses a statement or fails. -/
  | database
  | other
deriving DecidableEq, Repr

/-- What a view answers. -/
inductive Page where
  | redirect (view : PyStr)
  | render (template : PyStr)
  | notAllowed
deriving DecidableEq, Repr

/-- `get_object_or_404(Mailbox, pk=mailbox_id)`. -/
def getMailbox (mailboxId : ℕ) : Prog Db WebExn Mailbox :=
  .atomic fun db =>
    match db.mailboxes.find? (·.id = mailboxId) with
    | some mailbox => .ok (mailbox, db)
    | none => .error .http404

/-- `audit` in a transaction of its own. -/
def auditAlone (actor action : PyStr) (obj : PyStr × PyStr)
    (metadata : List (PyStr × MetaValue)) (now : Time) : Prog Db WebExn Unit :=
  .atomic fun db => .ok ((), db.writeAudit actor action (some obj) metadata now)

/-! ## Owner -/

/-- The transaction of `setup_owner`; `userId` is the key that the user gets. -/
def setupOwnerTransaction (username : PyStr) (userId : ℕ) (now : Time) (db : Db) :
    Except WebExn (Page × Db) :=
  if db.users ≠ [] then .ok (.redirect (py "login"), db)
  else
    .ok (.redirect (py "mailbox-create"),
      { db with users := [username] }.writeAudit username (py "owner.created")
        (some (py "User", PyStr.ofNat userId)) [] now)

/-- `setup_owner`, for a form whose user name and passwords the framework has accepted. -/
def setupOwner (env : WebEnv) (username setupToken : PyStr) (userId : ℕ) :
    Prog Db WebExn Page := do
  let exists? ← .atomic fun db => .ok (decide (db.users ≠ []), db)
  if exists? then return .redirect (py "login")
  else if env.settings.setupToken = [] ∨ setupToken ≠ env.settings.setupToken then
    return .render (py "gateway/setup_owner.html")
  else .atomic (setupOwnerTransaction username userId (env.clock 0))

/-! ## Mailboxes -/

/-- `mailbox_create`. -/
def mailboxCreate (env : WebEnv) (post : MailboxFields) : Prog Db WebExn Page :=
  match MailboxForm.clean env.settings env.unicode (MailboxForm.bind none post) with
  | none => pure (.render (py "gateway/mailbox_form.html"))
  | some cleaned =>
    match MailboxForm.save env.settings env.encryptSecret cleaned
        (MailboxForm.newMailbox (env.clock 0)) with
    | none => .compute (.error .other)
    | some mailbox => do
      let id ← .atomic fun db =>
        match db.insertMailbox mailbox with
        | .ok r => .ok r
        | .error _ => .error .database
      auditAlone env.user (py "mailbox.created") (py "Mailbox", PyStr.ofNat id) [] (env.clock 1)
      return .redirect (py "dashboard")

/-- What `mailbox_edit` saves to the row that it has locked: the row, and the changed fields. -/
def editedMailbox (env : WebEnv) (post : MailboxFields) (mailbox : Mailbox) :
    Except WebExn (Option (Mailbox × List PyStr)) :=
  match MailboxForm.clean env.settings env.unicode (MailboxForm.bind (some mailbox) post) with
  | none => .ok none
  | some cleaned =>
    match MailboxForm.save env.settings env.encryptSecret cleaned mailbox with
    | none => .error .other
    | some saved =>
      let changed := MailboxForm.changedData mailbox post
      let saved :=
        if py "password" ∈ changed ∨ (mailbox.enabled = false ∧ saved.enabled = true) then
          { saved with lastSyncAt := none, lastErrorCode := [] }
        else saved
      .ok (some ({ saved with updatedAt := env.clock 0 }, changed))

/-- The transaction of `mailbox_edit`; the answer tells whether the form was valid. -/
def mailboxEditTransaction (env : WebEnv) (mailboxId : ℕ) (post : MailboxFields) (db : Db) :
    Except WebExn (Bool × Db) :=
  match db.mailboxes.find? (·.id = mailboxId) with
  | none => .error .doesNotExist
  | some mailbox =>
    match editedMailbox env post mailbox with
    | .error e => .error e
    | .ok none => .ok (false, db)
    | .ok (some (saved, changed)) =>
      match db.updateMailboxes (·.id = mailboxId) (fun _ => saved) with
      | .error _ => .error .database
      | .ok (_, db) =>
        .ok (true, db.writeAudit env.user (py "mailbox.updated")
          (some (py "Mailbox", PyStr.ofNat mailboxId)) [(py "changed_fields", .texts changed)]
          (env.clock 1))

/-- `mailbox_edit`. -/
def mailboxEdit (env : WebEnv) (mailboxId : ℕ) (post : MailboxFields) : Prog Db WebExn Page := do
  let mailbox ← getMailbox mailboxId
  match MailboxForm.clean env.settings env.unicode (MailboxForm.bind (some mailbox) post) with
  | none => return .render (py "gateway/mailbox_form.html")
  | some _ =>
    let saved ← .atomic (mailboxEditTransaction env mailboxId post)
    return if saved then .redirect (py "dashboard") else .render (py "gateway/mailbox_form.html")

/-- The transaction of `mailbox_delete`. -/
def mailboxDeleteTransaction (env : WebEnv) (mailboxId : ℕ) (db : Db) :
    Except WebExn (Unit × Db) :=
  if mailboxId ∉ db.mailboxes.map (·.id) then .error .doesNotExist
  else
    let ids := (db.messages.filter (·.mailboxId = mailboxId)).map (·.id)
    let attachments := db.attachments.filter (·.messageId ∈ ids)
    let db := db.writeAudit env.user (py "mailbox.deleted")
      (some (py "Mailbox", PyStr.ofNat mailboxId))
      [(py "messages_deleted", .number ids.length),
        (py "attachments_deleted", .number attachments.length)] (env.clock 0)
    .ok ((), db.deleteMailbox mailboxId)

/-- `mailbox_delete`. -/
def mailboxDelete (env : WebEnv) (mailboxId : ℕ) (confirmation : PyStr) :
    Prog Db WebExn Page := do
  let _ ← getMailbox mailboxId
  if mailboxDeleteFormValid mailboxId confirmation then do
    .atomic (mailboxDeleteTransaction env mailboxId)
    return .redirect (py "dashboard")
  else return .render (py "gateway/mailbox_delete.html")

/-! ## Messages -/

/-- The transaction of `message_decide`. -/
def messageDecideTransaction (env : WebEnv) (messageId : Uuid) (decision : PyStr) (db : Db) :
    Except WebExn (Unit × Db) :=
  match db.updateDecision messageId decision (env.clock 0) with
  | .error _ => .error .database
  | .ok db =>
    .ok ((), db.writeAudit env.user (py "message." ++ decision)
      (some (py "Message", messageId.str)) [] (env.clock 1))

/-- `message_decide`. -/
def messageDecide (env : WebEnv) (messageId : Uuid) (decision : Option PyStr) :
    Prog Db WebExn Page := do
  let _ ← .atomic fun db =>
    if messageId ∈ db.messages.map (·.id) then .ok ((), db) else .error .http404
  match decision with
  | none => return .notAllowed
  | some decision =>
    if decision ∈ [State.approved.value, State.rejected.value] then do
      .atomic (messageDecideTransaction env messageId decision)
      return .redirect (py "message-detail")
    else return .notAllowed

/-! ## Tokens -/

/-- `ApiToken.issue` for the random text `raw` with this hash. -/
def newToken (name raw hash : PyStr) (expiresAt : Option Time) (now : Time) : ApiToken where
  id := 0
  name := name
  tokenPrefix := raw.take 12
  tokenHash := hash
  scope := py "messages:read:approved"
  createdAt := now
  expiresAt := expiresAt
  lastUsedAt := none
  revokedAt := none

/-- `tokens` for a form that is valid: the new token, and its audit event in a transaction of
its own.  `random` is the text of `secrets.token_urlsafe(32)`, `sha256` the digest of a text. -/
def tokens (env : WebEnv) (sha256 : PyStr → PyStr) (name random : PyStr) (lifetimeDays : ℕ) :
    Prog Db WebExn Page := do
  let raw := py "mg_" ++ random
  let token := newToken name raw (sha256 raw) (tokenExpiresAt lifetimeDays (env.clock 0))
    (env.clock 1)
  let id ← .atomic fun db =>
    match db.insertToken token with
    | .ok r => .ok r
    | .error _ => .error .database
  let expiry := if token.expiresAt = none then py "never" else py "finite"
  auditAlone env.user (py "token.created") (py "ApiToken", PyStr.ofNat id)
    [(py "prefix", .text token.tokenPrefix), (py "expiry", .text expiry)] (env.clock 2)
  return .render (py "gateway/tokens.html")

/-- `token_revoke`. -/
def tokenRevoke (env : WebEnv) (tokenId : ℕ) : Prog Db WebExn Page := do
  let token ← .atomic fun db =>
    match db.tokens.find? (·.id = tokenId) with
    | some token => .ok (token, db)
    | none => .error .http404
  if token.revokedAt = none then do
    .atomic fun db =>
      match db.updateRevoked tokenId (env.clock 0) with
      | .ok db => .ok ((), db)
      | .error _ => .error .database
    auditAlone env.user (py "token.revoked") (py "ApiToken", PyStr.ofNat tokenId)
      [(py "prefix", .text token.tokenPrefix)] (env.clock 1)
  return .redirect (py "tokens")

end MailGate
