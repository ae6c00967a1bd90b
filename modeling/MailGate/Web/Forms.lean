import MailGate.Python.Library
import MailGate.Models

/-!
# The forms of the owner

`providers.py`, `validators.py` and the parts of `forms.py` that decide what is written.  The
values of a form are those that the fields of the form framework have accepted.
-/

namespace MailGate

/-! ## Providers -/

/-- `ProviderPreset`. -/
structure ProviderPreset where
  key : PyStr
  presetVersion : ℕ
  imapHost : Option PyStr
  imapPort : ℕ
deriving DecidableEq, Repr

/-- `PROVIDER_PRESETS`. -/
def providerPresets : List ProviderPreset :=
  [{ key := py "generic_imaps", presetVersion := 1, imapHost := none, imapPort := 993 },
    { key := py "hostpoint", presetVersion := 1, imapHost := some (py "imap.mail.hostpoint.ch"),
      imapPort := 993 }]

/-- `get_provider_preset`; `none` is the `ValueError`. -/
def getProviderPreset (key : PyStr) : Option ProviderPreset :=
  providerPresets.find? fun preset => preset.key = key

/-- `effective_imap_host`. -/
def effectiveImapHost (preset : ProviderPreset) (configuredHost : PyStr) : PyStr :=
  match preset.imapHost with
  | some host => if host = [] then configuredHost else host
  | none => configuredHost

/-! ## Trusted authentication services -/

/-- `DNS_EDGE_CHARACTERS`. -/
def dnsEdgeCharacters : PyStr :=
  py "abcdefghijklmnopqrstuvwxyzABCDEFGHIJKLMNOPQRSTUVWXYZ0123456789"

/-- `DNS_LABEL_CHARACTERS`. -/
def dnsLabelCharacters : PyStr := dnsEdgeCharacters ++ py "-"

/-- `_valid_authserv_id`. -/
def validAuthservId (value : PyStr) : Bool :=
  1 ≤ value.length && value.length ≤ 253 &&
    (value.splitOn (ofChar '.')).all fun label =>
      1 ≤ label.length && label.length ≤ 63 &&
        label.head?.any (· ∈ dnsEdgeCharacters) &&
        label.getLast?.any (· ∈ dnsEdgeCharacters) &&
        label.all (· ∈ dnsLabelCharacters)

/-- `normalise_authserv_ids`; `none` is the `ValueError`. -/
def normaliseAuthservIds (unicode : Unicodedata) (value : PyStr) : Option PyStr :=
  if PyStr.strip value = [] then some []
  else
    let items := (value.splitOn (ofChar ',')).map fun item => unicode.lower (PyStr.strip item)
    if value.length > 500 ∨ ¬ items.all validAuthservId then none
    else some (PyStr.join (py ",") items.eraseDups)

/-! ## The mailbox form -/

/-- The settings that the views of the owner read. -/
structure WebSettings where
  /-- `MAILGATE_IMAP_ALLOWED_HOST`. -/
  imapAllowedHost : PyStr
  /-- `MAILGATE_SETUP_TOKEN`. -/
  setupToken : PyStr
deriving DecidableEq, Repr

/-- The values of `MailboxForm`. -/
structure MailboxFields where
  name : PyStr
  providerKey : PyStr
  host : PyStr
  port : ℕ
  username : PyStr
  password : PyStr
  trustedAuthservIds : PyStr
  enabled : Bool
deriving DecidableEq, Repr

namespace MailboxForm

variable (settings : WebSettings) (unicode : Unicodedata)

/-- The disabled fields of a bound form take their values from the instance. -/
def bind (instance? : Option Mailbox) (post : MailboxFields) : MailboxFields :=
  match instance? with
  | none => post
  | some mailbox =>
      { post with
        providerKey := mailbox.providerKey
        host := mailbox.host
        port := mailbox.port
        username := mailbox.username }

/-- The `clean` methods of the form; `none` is a form that is not valid. -/
def clean (fields : MailboxFields) : Option MailboxFields := do
  if fields.port ≠ 993 then none
  let host := (unicode.lower (PyStr.strip fields.host)).rdropWhile (· = ofChar '.')
  if host ≠ settings.imapAllowedHost then none
  let ids ← normaliseAuthservIds unicode fields.trustedAuthservIds
  let preset ← getProviderPreset fields.providerKey
  let presetHost := effectiveImapHost preset settings.imapAllowedHost
  if presetHost ≠ settings.imapAllowedHost then none
  return { fields with host := presetHost, port := preset.imapPort, trustedAuthservIds := ids }

/-- The password column after `save`: an empty field keeps the stored password. -/
def savedPassword (encryptSecret : PyStr → Option Bytes) (cleaned : MailboxFields)
    (mailbox : Mailbox) : Option Bytes :=
  if cleaned.password = [] then some mailbox.passwordEncrypted else encryptSecret cleaned.password

/-- `save(commit=False)` on a mailbox; `none` is an exception. -/
def save (encryptSecret : PyStr → Option Bytes) (cleaned : MailboxFields) (mailbox : Mailbox) :
    Option Mailbox := do
  let preset ← getProviderPreset cleaned.providerKey
  let password ← savedPassword encryptSecret cleaned mailbox
  return { mailbox with
    name := cleaned.name
    providerKey := preset.key
    presetVersion := preset.presetVersion
    host := effectiveImapHost preset settings.imapAllowedHost
    port := preset.imapPort
    username := cleaned.username
    passwordEncrypted := password
    trustedAuthservIds := cleaned.trustedAuthservIds
    enabled := cleaned.enabled }

/-- `sorted(form.changed_data)` of a form with an instance; the disabled fields never count. -/
def changedData (mailbox : Mailbox) (post : MailboxFields) : List PyStr :=
  (if post.enabled ≠ mailbox.enabled then [py "enabled"] else []) ++
    (if post.name ≠ mailbox.name then [py "name"] else []) ++
    (if post.password ≠ [] then [py "password"] else []) ++
    (if post.trustedAuthservIds ≠ mailbox.trustedAuthservIds then [py "trusted_authserv_ids"]
      else [])

/-- The mailbox that the form of a new mailbox is saved to. -/
def newMailbox (now : Time) : Mailbox where
  id := 0
  name := []
  providerKey := py "generic_imaps"
  presetVersion := 1
  host := []
  port := 993
  username := []
  passwordEncrypted := []
  trustedAuthservIds := []
  enabled := true
  uidValidity := none
  lastUid := 0
  lastSyncAt := none
  lastErrorCode := []
  configVersion := 1
  createdAt := now
  updatedAt := now

end MailboxForm

/-- `MailboxDeleteForm` is valid. -/
def mailboxDeleteFormValid (mailboxId : ℕ) (confirmation : PyStr) : Bool :=
  confirmation = py "DELETE " ++ PyStr.ofNat mailboxId

/-- `TokenForm.expires_at`. -/
def tokenExpiresAt (lifetimeDays : ℕ) (now : Time) : Option Time :=
  if lifetimeDays = 0 then none else some (now + lifetimeDays * Time.day)

end MailGate
