import MailGate.Lib.Script
import MailGate.Crypto.KeyringFile

/-!
# Rotating the administrator's password

`rotate_postgres_admin_password.py`.  The password of the role `mailgate_admin` is kept twice,
by PostgreSQL and in a secret file, and the tool changes both.  Every Docker command and every
write of the file may fail, and one that fails may have taken effect or not.
-/

namespace MailGate

open Scripts Script

/-- What a rotation works on. -/
structure AdminStores where
  /-- The password of the role in PostgreSQL. -/
  role : PyStr
  /-- The text of the file `postgres_password`. -/
  file : PyStr
deriving DecidableEq, Repr

/-- The places at which the tool runs a Docker command or writes the file; a run comes to each
of them at most once. -/
inductive AdminCall where
  | localAdmin
  | currentProbe
  | updateRole
  | writeNew
  | rotatedProbe
  | bootstrap
  | rollbackRole
  | writeRetained
  | retainedProbe
  | writeOld
  | restoredProbe
deriving DecidableEq, Repr

/-- How a command or a write ends.  One that succeeds has taken effect. -/
inductive CallOutcome where
  | success
  /-- The command returns another code than 0. -/
  | failure (tookEffect : Bool)
  /-- `RotationToolError`: the command could not be executed, or the file not written. -/
  | raised (tookEffect : Bool)
  /-- Any other exception, such as an interrupt. -/
  | interrupted (tookEffect : Bool)
deriving DecidableEq, Repr

/-- The command or the write has taken effect. -/
def CallOutcome.tookEffect : CallOutcome → Bool
  | success => true
  | failure tookEffect => tookEffect
  | raised tookEffect => tookEffect
  | interrupted tookEffect => tookEffect

/-- Why `require_secure_directory`, `exclusive_rotation_lock` or `read_secret` raises. -/
inductive Refusal where
  | directoryUnavailable
  | directoryNotReal
  | directoryNotOwnerOnly
  | lockHeld
  | lockUnavailable
  | secretUnavailable
  | secretNotPrivate
  | secretChanged
  | secretUnreadable
  | secretNotClosed
  | secretTooLarge
  | secretNotUtf8
deriving DecidableEq, Repr

/-- What is raised; the `OSError` of closing the secret file is not turned into another one. -/
def Refusal.exception : Refusal → ToolExn
  | directoryUnavailable => rotationToolError "The secret directory is unavailable"
  | directoryNotReal => rotationToolError "The secret directory must be a real directory"
  | directoryNotOwnerOnly => rotationToolError "The secret directory must be owner-only (0700)"
  | lockHeld => rotationToolError
      "Another rotation is active; inspect and remove a stale lock only after verification"
  | lockUnavailable => rotationToolError "Unable to acquire the rotation lock"
  | secretUnavailable => rotationToolError "A required secret file is unavailable"
  | secretNotPrivate => rotationToolError "A required secret path is not a private regular file"
  | secretChanged => rotationToolError "A secret file changed while it was being opened"
  | secretUnreadable => rotationToolError "Unable to read a required secret file"
  | secretNotClosed => .os
  | secretTooLarge => rotationToolError "A secret file exceeds the supported size limit"
  | secretNotUtf8 => rotationToolError "A secret file is not valid UTF-8"

/-- One run of the tool: its arguments, and what it meets. -/
structure AdminRun where
  repositoryIsDir : Bool
  databaseName : PyStr
  /-- The directory, the lock and the file up to its text, where one of them is refused. -/
  directory : Option Refusal
  lock : Option Refusal
  secret : Option Refusal
  /-- The lock file can be written and synced, closed, and removed. -/
  note : Bool
  close : Bool
  release : Bool
  /-- `password_factory()`. -/
  generated : PyStr
  /-- How each command and each write ends, in the state in which it is made. -/
  call : AdminCall → AdminStores → CallOutcome

/-- A part of the tool. -/
abbrev AdminTool : Type → Type := Script AdminStores ToolExn

/-- `raise RotationToolError(message)`. -/
def raiseAdmin {α : Type} (message : String) : AdminTool α := raise (rotationToolError message)

/-- Raise where something is refused. -/
def accept (refusal : Option Refusal) : AdminTool Unit :=
  match refusal with
  | none => pure ()
  | some refusal => raise refusal.exception

/-- A call of the system that works, or raises this exception. -/
def perform (works : Bool) (e : ToolExn) : AdminTool Unit := if works then pure () else raise e

/-- `DATABASE_NAME_RE.fullmatch(database_name)`. -/
def isDatabaseName : PyStr → Bool
  | [] => false
  | c :: cs =>
      c.isAlnum && decide (cs.length ≤ 62) &&
        cs.all fun d => d.isAlnum || d ∈ py "_.-"

section

variable (run : AdminRun)

/-- A command or a write at one place: it returns whether it was a success, or raises. -/
def runner (c : AdminCall) (effect : AdminStores → AdminStores) : AdminTool Bool := fun s =>
  let s' := if (run.call c s).tookEffect then effect s else s
  match run.call c s with
  | .success => (.ok true, s')
  | .failure _ => (.ok false, s')
  | .raised _ => (.error (rotationToolError "A Docker Compose operation could not be executed"), s')
  | .interrupted _ => (.error .other, s')

/-- `_require_success`. -/
def requireSuccess (c : AdminCall) (effect : AdminStores → AdminStores) (stage : String) :
    AdminTool Unit := do
  if ← runner run c effect then return () else raiseAdmin stage

/-- A command that changes neither the role nor the file: the local administration channel, the
TCP probe, and the bootstrap of the other roles. -/
def requireOther (c : AdminCall) (stage : String) : AdminTool Unit :=
  requireSuccess run c id stage

/-- `\password mailgate_admin`. -/
def requirePassword (c : AdminCall) (value : PyStr) (stage : String) : AdminTool Unit :=
  requireSuccess run c (fun s => { s with role := value }) stage

/-- `write_secret`. -/
def writeSecret (c : AdminCall) (value : PyStr) : AdminTool Unit :=
  requireSuccess run c (fun s => { s with file := value ++ py "\n" })
    "Unable to replace the secret file atomically"

/-- `read_secret`. -/
def readAdminSecret : AdminTool PyStr := do
  accept run.secret
  let value ← look fun s => .ok (PyStr.strip s.file)
  if value = [] ∨ 0 ∈ value then raiseAdmin "A secret file is empty or malformed"
  else return value

/-- `16 <= len(value) <= 1024`, and no control character. -/
def isAdminPassword (value : PyStr) : Bool :=
  decide (16 ≤ value.length) && decide (value.length ≤ 1024) &&
    value.all fun c => decide (32 ≤ c.val)

/-- `_validate_password`. -/
def validatePassword (value : PyStr) : AdminTool PyStr :=
  if isAdminPassword value then pure value
  else raiseAdmin "The PostgreSQL admin secret is malformed"

/-- What is done after the rollback of the role has failed. -/
def retainNew (newPassword : PyStr) : AdminTool Unit := do
  let aligned ← (do
    writeSecret run .writeRetained newPassword
    requireOther run .retainedProbe "The retained rotated secret did not authenticate"
    return true).tryCatch fun _ => pure false
  if aligned then
    raiseAdmin ("Rollback failed; PostgreSQL and the secret file remain on the new value. " ++
      "Keep services stopped and rerun bootstrap after inspection")
  else
    raiseAdmin ("Rollback failed and database/file alignment could not be verified; " ++
      "manual recovery through the local database channel is required")

/-- The handler around the change.  `database_change_attempted` is set before anything in the
`try` block can raise. -/
def rollBack (oldPassword newPassword : PyStr) : AdminTool Unit := do
  (requirePassword run .rollbackRole oldPassword
    "PostgreSQL rejected the admin-password rollback").tryCatch fun _ => retainNew run newPassword
  (do
    writeSecret run .writeOld oldPassword
    requireOther run .restoredProbe
      "The restored previous admin secret failed verification").tryCatch fun _ =>
    raiseAdmin ("PostgreSQL was rolled back but the previous secret file could not be " ++
      "restored and verified; manual recovery is required")
  raiseAdmin "Admin rotation failed; PostgreSQL and the secret file were restored and verified"

/-- The `try` block around the change. -/
def changePassword (newPassword : PyStr) : AdminTool Unit := do
  requirePassword run .updateRole newPassword "PostgreSQL rejected the admin-role update"
  writeSecret run .writeNew newPassword
  requireOther run .rotatedProbe "The rotated admin secret failed connection verification"
  requireOther run .bootstrap "The database-role bootstrap failed after admin rotation"

/-- What is done under the lock. -/
def rotateUnderLock : AdminTool Unit := do
  let oldPassword ← readAdminSecret run
  let oldPassword ← validatePassword oldPassword
  let newPassword ← validatePassword run.generated
  if newPassword = oldPassword then
    raiseAdmin "The password generator did not produce a new value"
  else do
    requireOther run .localAdmin
      "The local PostgreSQL recovery channel is unavailable; nothing changed"
    requireOther run .currentProbe
      "The current admin secret does not authenticate; nothing changed"
    (changePassword run newPassword).tryCatch fun _ => rollBack run oldPassword newPassword

/-- The body of `with exclusive_rotation_lock(...)`, once the lock file exists. -/
def holdingLock (body : AdminTool Unit) : AdminTool Unit :=
  (do
    perform run.note .os -- os.write, os.fsync
    body).finallyDo (do
      perform run.close .os -- os.close
      perform run.release (rotationToolError "Unable to release the rotation lock"))

/-- `rotate_postgres_admin_password`. -/
def rotatePostgresAdminPassword : AdminTool Unit := do
  if !run.repositoryIsDir then raiseAdmin "The repository directory is unavailable"
  else if !isDatabaseName run.databaseName then raiseAdmin "The database name is invalid"
  else do
    accept run.directory
    accept run.lock
    holdingLock run (rotateUnderLock run)

end

end MailGate
