import MailGate.Crypto.KeyringFile
import MailGate.Lib.RelyGuarantee

/-!
# The keyring rotation tool

`rotate_credential_keyring.py` and the parts of `rotation_common.py` that it uses, on a POSIX
system.  Each look at the secrets directory and each change of it is one step, which may fail
with an `OSError`, and between two steps other runs of the tool may take theirs.
-/

namespace MailGate

open Transaction

/-- A file of the secrets directory. -/
structure SecretFile where
  /-- `st_ino`; a file that is put in the place of another one has a number of its own. -/
  inode : ℕ
  /-- A regular file with one link, and no symbolic link. -/
  regular : Bool
  mode : ℕ
  content : Bytes
deriving DecidableEq, Repr

/-- One run of the tool: its arguments, the random values that it draws, and what it meets. -/
structure RotationRun where
  number : ℕ
  newPrimaryId : PyStr
  legacyKeyId : Option PyStr
  activateExisting : Bool
  /-- What the key factory returns, if this is a bytes object. -/
  generated : Option Bytes
  /-- `secrets.token_hex(12)`. -/
  token : PyStr
  /-- `target.exists()` and `target.is_symlink()` run into an error that they take for an
  absent file: from Python 3.14 on any `OSError`, before that only some of them. -/
  blind : Bool
  /-- The same when the file is about to be replaced. -/
  blindAgain : Bool
deriving DecidableEq, Repr

/-- The secrets directory. -/
structure SecretsDir where
  /-- A directory and no symbolic link. -/
  real : Bool
  /-- It belongs to the user, and nobody else has access. -/
  ownerOnly : Bool
  masterKey : Option SecretFile
  masterKeyring : Option SecretFile
  /-- The run that has created the lock file, if there is one. -/
  lock : Option RotationRun
  /-- The temporary files, by the random part of their names. -/
  temporaries : List (PyStr × SecretFile)
  /-- The next inode number. -/
  inodes : ℕ
deriving DecidableEq, Repr

/-- The secrets that the tool reads. -/
inductive SecretPath where
  | masterKey
  | masterKeyring
deriving DecidableEq, Repr

/-- The file at a path. -/
def SecretsDir.file (s : SecretsDir) : SecretPath → Option SecretFile
  | .masterKey => s.masterKey
  | .masterKeyring => s.masterKeyring

/-- A part of the tool. -/
abbrev Tool : Type → Type 1 := Prog SecretsDir ToolExn

/-! ## Steps -/

/-- A look at the directory. -/
def observe {α : Type} (f : SecretsDir → Except ToolExn α) : Tool α :=
  .atomic fun s => (f s).map (·, s)

/-- A change of the directory. -/
def change (f : SecretsDir → Except ToolExn SecretsDir) : Tool Unit :=
  .atomic fun s => (f s).map ((), ·)

/-- A call of the system that leaves the names and the files of the directory alone. -/
def systemCall : Tool Unit := observe fun _ => .ok ()

/-- `raise RotationToolError(message)`. -/
def raiseTool {α : Type} (message : String) : Tool α := .done (.error (rotationToolError message))

/-- Turn an `OSError` into a `RotationToolError`. -/
def onOSError {α : Type} (message : String) (p : Tool α) : Tool α :=
  p.tryCatch fun
    | .os | .fileExists => raiseTool message
    | e => .done (.error e)

/-- `container_secret_mode`. -/
def containerSecretMode : ℕ := 0o444

/-- `require_secure_directory`. -/
def requireSecureDirectory : Tool Unit := do
  let (real, ownerOnly) ← onOSError "The secret directory is unavailable"
    (observe fun s => .ok (s.real, s.ownerOnly))
  if !real then raiseTool "The secret directory must be a real directory"
  else if !ownerOnly then raiseTool "The secret directory must be owner-only (0700)"
  else return ()

/-- `path.lstat()`, and `os.open(path)`. -/
def lookAt (path : SecretPath) : Tool SecretFile :=
  observe fun s =>
    match s.file path with
    | none => .error .os
    | some file => .ok file

/-- `target.exists() or target.is_symlink()`. -/
def present (blind : Bool) : Tool Bool :=
  observe fun s => .ok (!blind && s.masterKeyring.isSome)

/-! ## Reading a secret -/

/-- `maximum_bytes`. -/
def maximumSecretBytes : ℕ := 65536

/-- What `read_secret` makes of the bytes of a file. -/
def secretText (data : Bytes) : Except ToolExn PyStr :=
  if data.length > maximumSecretBytes then
    .error (rotationToolError "A secret file exceeds the supported size limit")
  else
    match Bytes.decodeUtf8 false data with
    | none => .error (rotationToolError "A secret file is not valid UTF-8")
    | some text =>
        if PyStr.strip text = [] ∨ 0 ∈ PyStr.strip text then
          .error (rotationToolError "A secret file is empty or malformed")
        else .ok (PyStr.strip text)

/-- `read_secret`. -/
def readSecret (path : SecretPath) : Tool (PyStr × ℕ) := do
  let before ← onOSError "A required secret file is unavailable" (lookAt path)
  if !before.regular then raiseTool "A required secret path is not a private regular file"
  else do
    let opened ← onOSError "Unable to read a required secret file" (lookAt path)
    let data ← (onOSError "Unable to read a required secret file" (do
      systemCall -- os.fstat
      if opened.inode ≠ before.inode then
        raiseTool "A secret file changed while it was being opened"
      else observe fun _ => .ok (opened.content.take (maximumSecretBytes + 1)))).finallyDo
        systemCall -- os.close
    let value ← .compute (secretText data)
    return (value, before.mode)

/-! ## Writing a secret -/

/-- `os.open(temporary, O_CREAT | O_EXCL)`. -/
def createTemporary (run : RotationRun) : Tool Unit :=
  change fun s =>
    if run.token ∈ s.temporaries.map (·.1) then .error .fileExists
    else .ok { s with
      temporaries := s.temporaries ++ [(run.token, ⟨s.inodes, true, 0o600, []⟩)]
      inodes := s.inodes + 1 }

/-- Write to the temporary file. -/
def writeTemporary (run : RotationRun) (value : PyStr) : Tool Unit :=
  change fun s =>
    match (value ++ py "\n").encode with
    | none => .error .other
    | some content => .ok { s with
        temporaries := s.temporaries.map fun p =>
          if p.1 = run.token then (p.1, { p.2 with content := content }) else p }

/-- `harden_secret_file`. -/
def hardenSecretFile (run : RotationRun) (mode : ℕ) : Tool Unit := do
  change fun s =>
    if run.token ∈ s.temporaries.map (·.1) then
      .ok { s with
        temporaries := s.temporaries.map fun p =>
          if p.1 = run.token then (p.1, { p.2 with mode := mode }) else p }
    else .error .os
  let file ← observe fun s =>
    match s.temporaries.lookup run.token with
    | none => .error .os
    | some file => .ok file
  if file.mode ≠ mode then raiseTool "Unable to apply restrictive secret-file permissions"
  else return ()

/-- `os.replace(temporary, target)`. -/
def replaceKeyring (run : RotationRun) : Tool Unit :=
  change fun s =>
    match s.temporaries.lookup run.token with
    | none => .error .os
    | some file => .ok { s with
        masterKeyring := some file
        temporaries := s.temporaries.filter (·.1 ≠ run.token) }

/-- `temporary.unlink(missing_ok=True)`. -/
def unlinkTemporary (run : RotationRun) : Tool Unit :=
  change fun s => .ok { s with temporaries := s.temporaries.filter (·.1 ≠ run.token) }

/-- `atomic_write_secret` for the keyring. -/
def atomicWriteSecret (run : RotationRun) (value : PyStr) (mode : ℕ) : Tool Unit := do
  requireSecureDirectory
  if ← present run.blindAgain then do
    let status ← onOSError "Unable to inspect the existing secret file" (lookAt .masterKeyring)
    if !status.regular then raiseTool "Refusing to replace a non-private secret path"
  (onOSError "Unable to replace the secret file atomically" (do
    createTemporary run
    writeTemporary run value
    systemCall -- os.fsync
    hardenSecretFile run mode
    replaceKeyring run
    systemCall -- _fsync_directory
    )).finallyDo (onOSError "Unable to remove a temporary secret file" (unlinkTemporary run))

/-! ## The lock -/

/-- `os.open(lock_path, O_CREAT | O_EXCL)`. -/
def createLock (run : RotationRun) : Tool Unit :=
  change fun s => if s.lock.isSome then .error .fileExists else .ok { s with lock := some run }

/-- `lock_path.unlink()`. -/
def unlinkLock : Tool Unit :=
  change fun s => if s.lock.isSome then .ok { s with lock := none } else .error .os

/-- `with exclusive_rotation_lock(directory, name): body`. -/
def exclusiveRotationLock {α : Type} (run : RotationRun) (body : Tool α) : Tool α := do
  requireSecureDirectory
  (createLock run).tryCatch fun
    | .fileExists => raiseTool
        "Another rotation is active; inspect and remove a stale lock only after verification"
    | .os => raiseTool "Unable to acquire the rotation lock"
    | e => .done (.error e)
  (do
    systemCall -- os.write
    systemCall -- os.fsync
    body).finallyDo (do
      systemCall -- os.close
      onOSError "Unable to release the rotation lock" unlinkLock)

/-! ## Rotation -/

section

variable {F Key : Type} (floats : Json.Floats F) (fernet : Fernet Key)

/-- `_load_keyring`. -/
def loadKeyring : Tool (KeyringDocument floats fernet × ℕ) := do
  let (raw, mode) ← readSecret .masterKeyring
  let document ← .compute (parseKeyring floats fernet raw)
  return (document, mode)

variable {floats fernet}

/-- Write the document, and read it again. -/
def writeVerified (run : RotationRun) (document : KeyringDocument floats fernet) : Tool Bool := do
  atomicWriteSecret run document.serialized containerSecretMode
  let (verified, _) ← loadKeyring floats fernet
  if !verified.same document then
    raiseTool "The atomically written credential keyring failed verification"
  else return true

/-- Generate a key, and make it the primary one. -/
def addGenerated (run : RotationRun) (hid : isKeyId run.newPrimaryId = true)
    (document : KeyringDocument floats fernet)
    (hnew : run.newPrimaryId ∉ document.keys.map (·.1)) : Tool Bool :=
  if hcount : document.keys.length < maximumKeys then do
    match run.generated.bind Bytes.decodeAscii with
    | none => raiseTool "The Fernet key generator returned invalid data"
    | some value =>
        let ⟨hvalue⟩ ← .compute (validateFernetKey fernet value)
        writeVerified run (document.add run.newPrimaryId value hid hvalue hnew hcount)
  else raiseTool "The keyring limit was reached; retire a verified old key first"

/-- The work on a keyring that exists. -/
def rotateExisting (run : RotationRun) (hid : isKeyId run.newPrimaryId = true)
    (document : KeyringDocument floats fernet) : Tool Bool :=
  if h : run.newPrimaryId ∈ document.keys.map (·.1) then
    if document.primary = run.newPrimaryId then return false
    else if !run.activateExisting then
      raiseTool ("The requested key ID already exists; use --activate-existing-id " ++
        "for an intentional rollback")
    else writeVerified run (document.activate run.newPrimaryId h)
  else addGenerated run hid document h

variable (floats fernet)

/-- The work where no keyring was seen. -/
def importMasterKey (run : RotationRun) (hid : isKeyId run.newPrimaryId = true) : Tool Bool :=
  if run.activateExisting then
    raiseTool "Cannot activate an existing key before a keyring exists"
  else
    match run.legacyKeyId with
    | none => raiseTool
        "--legacy-key-id is required when converting an installation without a keyring"
    | some legacyKeyId => do
        let ⟨hlegacy⟩ ← .compute (validateKeyId legacyKeyId)
        if hne : legacyKeyId = run.newPrimaryId then
          raiseTool "The legacy and new primary key IDs must differ"
        else do
          let (legacyValue, _) ← readSecret .masterKey
          let ⟨hvalue⟩ ← .compute (validateFernetKey fernet legacyValue)
          addGenerated run hid
            (.ofMasterKey legacyKeyId legacyValue hlegacy hvalue : KeyringDocument floats fernet)
            (by simpa [KeyringDocument.ofMasterKey] using Ne.symm hne)

/-- The work under the lock. -/
def rotateLocked (run : RotationRun) (hid : isKeyId run.newPrimaryId = true) : Tool Bool := do
  if ← present run.blind then do
    let (document, _) ← loadKeyring floats fernet
    rotateExisting run hid document
  else importMasterKey floats fernet run hid

/-- `rotate_credential_keyring`. -/
def rotateCredentialKeyring (run : RotationRun) : Tool Bool := do
  requireSecureDirectory
  let ⟨hid⟩ ← .compute (validateKeyId run.newPrimaryId)
  exclusiveRotationLock run (rotateLocked floats fernet run hid)

end

end MailGate
