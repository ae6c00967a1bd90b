import MailGate.Backup.Authentic
import MailGate.Backup.Bundle
import MailGate.Lib.Transaction

/-!
# Creating a backup

`create_backup` of `backup.py`.  Each look at the directory of the output and each change of it
is one step, which may fail, and between two steps other programs may take theirs.
-/

namespace MailGate

open Aead Transaction
open Json (Floats)

/-- A text that Python has decoded.  The handler of undecodable bytes makes low surrogates only,
so that no high one stands before them. -/
abbrev Decoded : Type := {s : PyStr // Json.Spellable s}

/-- A text of the code. -/
def decoded (text : String) (h : ((py text).all fun c => !PyChar.isSurrogate c) = true) : Decoded :=
  ⟨py text, Json.spellable_py h⟩

/-- What a command that dumps a database does. -/
structure Dump where
  stdout : Stream
  returnCode : ℤ

/-- One run: its arguments, and what it meets. -/
structure BackupRun where
  secrets : BackupSecrets
  projectName : Option Decoded
  /-- `datetime.now(UTC).isoformat()`. -/
  createdAt : Decoded
  /-- `os.getenv("MAILGATE_DATABASE_NAME")`. -/
  databaseName : Option Decoded
  /-- The return code and `result.stdout.strip().lower()` of `git rev-parse HEAD`, if there is a
  `git`. -/
  git : Option (ℤ × Decoded)
  /-- `shutil.which("docker")`. -/
  docker : Option PyStr
  pgDump : List PyStr → Dump
  /-- `os.name != "nt"`. -/
  posix : Bool
  nonce : Nonce
  /-- `output.exists()` runs into an error that it takes for an absent file. -/
  blind : Bool

/-- `_git_commit`. -/
def gitCommit (git : Option (ℤ × Decoded)) : Decoded :=
  match git with
  | none => decoded "unknown" (by decide)
  | some (returnCode, value) =>
      if returnCode = 0 ∧ value.1.length = 40 then value else decoded "unknown" (by decide)

/-- `_docker_command`. -/
def dockerCommand (docker : Option PyStr) (projectName : Option PyStr) (arguments : List PyStr) :
    Except ArchiveExn (List PyStr) :=
  match docker with
  | none => .error (backupArchiveError "Docker CLI was not found")
  | some executable =>
      let project := match projectName with
        | some (c :: cs) => [py "--project-name", c :: cs]
        | _ => []
      .ok ([executable, py "compose"] ++ project ++ arguments)

namespace BackupRun

/-- `metadata["database"]`. -/
def database (run : BackupRun) : Decoded :=
  run.databaseName.getD (decoded "mailgate" (by decide))

/-- `project_name or "mailgate"`. -/
def project (run : BackupRun) : Decoded :=
  match run.projectName with
  | none => decoded "mailgate" (by decide)
  | some name => if name.1 = [] then decoded "mailgate" (by decide) else name

/-- `metadata`. -/
def metadata {F : Type} (run : BackupRun) : List (PyStr × Json F) := [
  (py "archive_version", .scalar (.int 1)),
  (py "created_at", .string run.createdAt.1),
  (py "database", .string run.database.1),
  (py "git_commit", .string (gitCommit run.git).1),
  (py "includes_credential_key_bundle", .scalar (.bool true)),
  (py "project_name", .string run.project.1)]

/-- `command`. -/
def command (run : BackupRun) : Except ArchiveExn (List PyStr) :=
  dockerCommand run.docker (run.projectName.map (·.1)) [
    py "exec", py "-T", py "db", py "pg_dump", py "--username=mailgate_admin",
    py "--dbname=" ++ run.database.1, py "--format=custom", py "--no-owner", py "--no-acl"]

end BackupRun

/-! ## The directory of the output -/

/-- A file, with a number of its own. -/
structure BackupFile where
  number : ℕ
  content : Bytes
deriving DecidableEq, Repr

/-- The directory of the output. -/
@[ext]
structure BackupDir where
  /-- What stands at the path of the output. -/
  output : Option BackupFile
  temporaries : List BackupFile
  /-- The number of the next file. -/
  next : ℕ
  numbered : ∀ f ∈ temporaries, f.number < next

namespace BackupDir

/-- A new temporary file, which is known by its number. -/
def create (s : BackupDir) : BackupDir where
  output := s.output
  temporaries := s.temporaries ++ [⟨s.next, []⟩]
  next := s.next + 1
  numbered := by
    rw [List.forall_mem_append, List.forall_mem_singleton]
    exact ⟨fun f hf => Nat.lt_succ_of_lt (s.numbered f hf), Nat.lt_succ_self _⟩

/-- A temporary file with this content. -/
def fill (s : BackupDir) (temporary : ℕ) (content : Bytes) : BackupDir where
  output := s.output
  temporaries := s.temporaries.map fun f =>
    if f.number = temporary then ⟨f.number, content⟩ else f
  next := s.next
  numbered := by
    intro g hg
    obtain ⟨f, hf, rfl⟩ := List.mem_map.1 hg
    have hlt := s.numbered f hf
    split <;> exact hlt

/-- The directory without a temporary file. -/
def remove (s : BackupDir) (temporary : ℕ) : BackupDir where
  output := s.output
  temporaries := s.temporaries.filter (·.number ≠ temporary)
  next := s.next
  numbered f hf := s.numbered f (List.mem_of_mem_filter hf)

end BackupDir

/-- A part of the tool. -/
abbrev BackupTool : Type → Type 1 := Prog BackupDir ArchiveExn

/-- A call of the system that leaves the directory alone. -/
def otherCall : BackupTool Unit := .atomic fun s => .ok ((), s)

/-- `output.exists()`. -/
def outputExists (blind : Bool) : BackupTool Bool :=
  .atomic fun s => .ok (!blind && s.output.isSome, s)

/-- `tempfile.mkstemp`. -/
def makeTemporary : BackupTool ℕ := .atomic fun s => .ok (s.next, s.create)

/-- The writes to the temporary file, which nobody else reads. -/
def fillBackup (temporary : ℕ) (content : Bytes) : BackupTool Unit :=
  .atomic fun s => .ok ((), s.fill temporary content)

/-- `os.replace(temporary, output)`. -/
def replaceOutput (temporary : ℕ) : BackupTool Unit :=
  .atomic fun s =>
    match s.temporaries.find? (·.number = temporary) with
    | none => .error .os
    | some file => .ok ((), { s.remove temporary with output := some file })

/-- `temporary.unlink(missing_ok=True)`. -/
def unlinkBackup (temporary : ℕ) : BackupTool Unit :=
  .atomic fun s => .ok ((), s.remove temporary)

/-! ## The tool -/

section

variable {F Ctx : Type} (floats : Floats F) (cipher : Cipher UInt8 Ctx) (run : BackupRun)

/-- The part of `create_backup` that fills the temporary file and puts it at the output. -/
def publishBackup (key payloadPrefix : Bytes) (command : List PyStr) (temporary : ℕ) :
    BackupTool (List (PyStr × Json F)) := do
  otherCall -- subprocess.Popen
  let archive ← .compute (encryptStream floats cipher run.nonce
    ⟨payloadPrefix, (run.pgDump command).stdout⟩ key (.object run.metadata))
  fillBackup temporary archive
  otherCall -- process.wait
  if (run.pgDump command).returnCode ≠ 0 then
    .compute (.error (backupArchiveError "pg_dump failed; no backup was published"))
  else do
    replaceOutput temporary
    return run.metadata

/-- `create_backup` after its first look at the output. -/
def createChecked : BackupTool (List (PyStr × Json F)) := do
  otherCall -- output.parent.mkdir
  let key ← .compute (loadBackupKey run.secrets.backupKey)
  let payloadPrefix ← .compute (credentialBundle floats run.secrets)
  let command ← .compute run.command
  let temporary ← makeTemporary
  if run.posix then otherCall -- temporary.chmod
  (publishBackup floats cipher run key payloadPrefix command temporary).tryCatch fun e => do
    unlinkBackup temporary
    .compute (.error e)

/-- `create_backup`. -/
def createBackup : BackupTool (List (PyStr × Json F)) := do
  if ← outputExists run.blind then
    .compute (.error (backupArchiveError "Refusing to overwrite an existing backup"))
  else createChecked floats cipher run

end

end MailGate
