import MailGate.Python.Bytes

/-!
# Replies of the mail server

`imaplib` hands the untagged data of a command over as a list: a line that carries no
literal is a bytes object, a line that carries one is a tuple of the line and the literal.
This file has the functions of `ingestion.py` that read such lists, and the replies that
one synchronisation run meets.
-/

namespace MailGate

/-- The exceptions that can leave a synchronisation run. -/
inductive SyncExn where
  /-- `MailboxSyncError` with its code. -/
  | mailboxSync (code : PyStr)
  /-- `TimeoutError`, `imaplib.IMAP4.error` or `OSError`. -/
  | connection
  /-- `django.db.DatabaseError`. -/
  | database
  /-- `CredentialDecryptionError` or `ConfigurationError`. -/
  | credential
  /-- `ValueError` and every other exception. -/
  | other
deriving DecidableEq, Repr

/-- An element of the list that `imaplib` returns as data. -/
inductive Item where
  /-- `None`: the server sent no such data. -/
  | none
  | bytes (b : Bytes)
  /-- A tuple; an element that is not a bytes object is `none`. -/
  | tuple (elems : List (Option Bytes))
deriving DecidableEq, Repr

/-- `_response_bytes`: the first usable item. -/
def responseBytes : List Item → Bytes
  | [] => []
  | .bytes b :: _ => b
  | .tuple (_ :: some b :: _) :: _ => b
  | _ :: rest => responseBytes rest

/-- The bytes items of a reply. -/
def bytesItems : List Item → List Bytes
  | [] => []
  | .bytes b :: rest => b :: bytesItems rest
  | _ :: rest => bytesItems rest

/-- `int(...)` of a text of digits inside a run. -/
def intOrRaise (digits : Bytes) : Except SyncExn ℕ :=
  match Bytes.int digits with
  | some n => .ok n
  | none => .error .other

/-- `_uidvalidity`. -/
def uidvalidity (data : List Item) : Except SyncExn ℕ :=
  let raw := Bytes.join (bytes " ") (bytesItems data)
  match Bytes.searchNumber (bytes "UIDVALIDITY") raw with
  | some digits => intOrRaise digits
  | none =>
      if Bytes.isdigit raw then intOrRaise raw
      else .error (.mailboxSync (py "uidvalidity_missing"))

/-- The lines of a reply, with and without a literal. -/
def headerLines : List Item → List Bytes
  | [] => []
  | .bytes b :: rest => b :: headerLines rest
  | .tuple (some b :: _) :: rest => b :: headerLines rest
  | _ :: rest => headerLines rest

/-- `_message_size`. -/
def messageSize (response : List Item) : Except SyncExn (Option ℕ) :=
  match Bytes.searchNumber (bytes "RFC822.SIZE")
      (Bytes.join (bytes " ") (headerLines response)) with
  | some digits => (intOrRaise digits).map some
  | none => .ok none

/-- The UIDs that a text of SEARCH data lists, in the order of the text. -/
def listedUids (text : Bytes) : Except SyncExn (List ℕ) :=
  ((Bytes.splitWords text).filter Bytes.isdigit).mapM intOrRaise

/-- The UIDs of a SEARCH reply that one run takes: those of its first usable item that lie
above the cursor, cut to the batch size in the order of the server. -/
def selectUids (values : List Item) (lastUid batchSize : ℕ) : Except SyncExn (List ℕ) := do
  let uids ← listedUids (responseBytes values)
  return (uids.filter (lastUid < ·)).take batchSize

/-- The commands that a run sends with `client.uid`. -/
inductive UidCommand where
  | search (criteria : PyStr)
  | fetchSize (uid : PyStr)
  | fetchBody (uid : PyStr)
deriving DecidableEq, Repr

/-- The server as one run meets it: each call returns a status and data, or raises.  The
commands of a run are numbered, so the same command may be answered differently later. -/
structure ImapSession where
  /-- `client_class(...)`: dialling and the TLS handshake. -/
  connect : Except SyncExn Unit
  login : PyStr → PyStr → Except SyncExn PyStr
  select : Except SyncExn PyStr
  /-- `client.response("UIDVALIDITY")`. -/
  response : Except SyncExn (List Item)
  uid : ℕ → UidCommand → Except SyncExn (PyStr × List Item)
  logout : Except SyncExn Unit := .ok ()

end MailGate
