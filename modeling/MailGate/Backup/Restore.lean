import MailGate.Backup.Bundle
import MailGate.Backup.Create
import MailGate.Backup.Decrypt

/-!
# Restoring a backup

`restore_backup` of `restore.py`, and when it leaves the dump behind that it has decrypted.
-/

namespace MailGate

open Aead Scripts Script
open Json (Floats)

/-! ## The project -/

/-- `re.fullmatch(r"[a-z0-9][a-z0-9_-]{2,62}", name)`. -/
def isProjectName : PyStr → Bool
  | [] => false
  | c :: cs =>
      let lower : PyChar → Bool := fun d => d ∈ py "abcdefghijklmnopqrstuvwxyz0123456789"
      lower c && decide (2 ≤ cs.length ∧ cs.length ≤ 62) && cs.all fun d => lower d || d ∈ py "_-"

/-- `validate_restore_project`. -/
def validateRestoreProject (projectName : Option PyStr) : Except ArchiveExn PyStr :=
  match projectName with
  | none => .error (backupArchiveError "An explicit isolated --project-name is required")
  | some name =>
      if name = [] then
        .error (backupArchiveError "An explicit isolated --project-name is required")
      else if name = py "mailgate" ∨ PyStr.contains (py "restore") name = false then
        .error (backupArchiveError
          "Restore project name must be non-production and contain 'restore'")
      else if isProjectName name = false then
        .error (backupArchiveError "Restore project name contains unsupported characters")
      else .ok name

/-! ## What a run meets -/

/-- What stands at the path for the recovered key files. -/
inductive RecoveryTarget where
  | absent
  | notDirectory
  | directory (entries : List (PyStr × Bytes))
deriving DecidableEq, Repr

/-- The calls of `restore.py` that can raise an `OSError`. -/
inductive RestoreCall where
  | openTemporary
  | readTemporary
  | runPgRestore
  | inspectTarget
  | makeTarget
  | chmodTarget
  | createEntry (name : PyStr)
  | writeEntry (name : PyStr)
deriving DecidableEq, Repr

/-- One run: its arguments, and what it meets. -/
structure RestoreRun where
  /-- The content of `backup_key`, if it can be read. -/
  backupKey : Option Bytes
  projectName : Option PyStr
  confirmation : PyStr
  /-- There is a `credential_output_dir`. -/
  recovers : Bool
  /-- `os.getenv("MAILGATE_DATABASE_NAME")`. -/
  databaseName : Option PyStr
  /-- `shutil.which("docker")`. -/
  docker : Option PyStr
  disk : Disk
  fails : RestoreCall → Bool
  /-- The return code of a command that is given these bytes; the bytes after the point at which
  it closes its input make no difference to it. -/
  pgRestore : List PyStr → Bytes → ℤ
  /-- The target or one of its parents is a link or a junction. -/
  targetLinked : Bool

/-- A call that may raise. -/
def RestoreRun.call (run : RestoreRun) (c : RestoreCall) : Except ArchiveExn Unit :=
  if run.fails c then .error .os else .ok ()

/-! ## The key files -/

/-- A part of the tool that works on the target. -/
abbrev Recoverer : Type → Type := Script RecoveryTarget ArchiveExn

namespace RecoveryTarget

/-- `target.exists() and (not target.is_dir() or any(target.iterdir()))` is false. -/
def isFree : RecoveryTarget → Bool
  | absent => true
  | notDirectory => false
  | directory entries => entries.isEmpty

/-- `target.mkdir(exist_ok=True)`. -/
def make : RecoveryTarget → RecoveryTarget
  | directory entries => directory entries
  | _ => directory []

/-- A change of the entries. -/
def modify (f : List (PyStr × Bytes) → List (PyStr × Bytes)) : RecoveryTarget → RecoveryTarget
  | directory entries => directory (f entries)
  | target => target

/-- The names of the entries. -/
def names : RecoveryTarget → List PyStr
  | directory entries => entries.map (·.1)
  | _ => []

end RecoveryTarget

/-- A change of the target. -/
def modifyTarget (f : RecoveryTarget → RecoveryTarget) : Recoverer Unit := fun t => (.ok (), f t)

section

variable (run : RestoreRun)

/-- The loop of `recover_credential_bundle`; what it has created goes when it raises. -/
def recoverEntries : List (PyStr × PyStr) → Recoverer Unit
  | [] => pure ()
  | (name, value) :: bundle => do
      lift (run.call (.createEntry name))
      look fun t => if name ∈ t.names then .error .os else .ok ()
      modifyTarget fun t => t.modify (· ++ [(name, [])])
      tryCatch (do
        lift (run.call (.writeEntry name))
        match (value ++ py "\n").encodeAscii with
        | none => raise .other
        | some content =>
            modifyTarget fun t =>
              t.modify (·.map fun e => if e.1 = name then (name, content) else e)
        recoverEntries bundle) fun e => do
          modifyTarget fun t => t.modify (·.filter (·.1 ≠ name))
          raise e

/-- `recover_credential_bundle`. -/
def recoverCredentialBundle (bundle : List (PyStr × PyStr)) : Recoverer Unit := do
  lift (run.call .inspectTarget)
  if run.targetLinked then
    raise (backupArchiveError "Credential recovery path must not contain links")
  else
    let free ← look fun t => .ok t.isFree
    if !free then raise (backupArchiveError "Credential recovery directory must be empty")
    else do
      lift (run.call .makeTarget)
      modifyTarget RecoveryTarget.make
      if run.disk.posix then lift (run.call .chmodTarget)
      recoverEntries run bundle

end

/-! ## Restoring -/

/-- A part of the tool: it works on the temporary files and on the target. -/
abbrev Restorer : Type → Type := Script (TempDir × RecoveryTarget) ArchiveExn

section

variable {F Ctx : Type} (floats : Floats F) (wide : Json.WideCodec) (cipher : Cipher UInt8 Ctx)
  (run : RestoreRun)

/-- `f"RESTORE {project_name}"`. -/
def expectedConfirmation (projectName : PyStr) : PyStr := py "RESTORE " ++ projectName

/-- `command`. -/
def restoreCommand (projectName : PyStr) : Except ArchiveExn (List PyStr) :=
  dockerCommand run.docker (some projectName) [
    py "exec", py "-T", py "db", py "pg_restore", py "--username=mailgate_admin",
    py "--dbname=" ++ run.databaseName.getD (py "mailgate"), py "--role=mailgate_migrate",
    py "--clean", py "--if-exists", py "--no-owner", py "--no-acl", py "--exit-on-error"]

/-- What `restore_backup` does with the decrypted dump. -/
def restoreTemporary (command : List PyStr) (temporary : ℕ) (metadata : Json F) :
    Restorer (Json F) := do
  lift (run.call .openTemporary)
  let payload ← look fun s =>
    match s.1.lookup temporary with
    | none => .error .os
    | some payload => .ok payload
  lift (run.call .readTemporary)
  let (bundle, dump) ← lift (readCredentialBundle floats wide payload)
  lift (run.call .runPgRestore)
  if run.pgRestore command dump ≠ 0 then
    raise (backupArchiveError "pg_restore failed; inspect the isolated database service locally")
  else do
    if run.recovers then second (recoverCredentialBundle run bundle)
    return metadata

/-- `restore_backup`. -/
def restoreBackup : Restorer (Json F) := do
  let projectName ← lift (validateRestoreProject run.projectName)
  if run.confirmation ≠ expectedConfirmation projectName then
    raise (.backup (py "Confirmation must be exactly: " ++ expectedConfirmation projectName))
  else do
    let key ← lift (loadBackupKey run.backupKey)
    let (temporary, metadata) ← first (decryptToTemporary floats wide cipher run.disk key)
    let command ← lift (restoreCommand run projectName)
    (restoreTemporary floats wide run command temporary metadata).finallyDo
      (first (modifyTemp fun s => s.unlink temporary))

end

/-! ## The decrypted dump -/

section

variable {F Ctx : Type} {floats : Floats F} {wide : Json.WideCodec} {cipher : Cipher UInt8 Ctx}
  {mode : Mode UInt8} {run : RestoreRun}

/-- The run gets so far that it decrypts the archive. -/
def RestoreRun.Decrypts (floats : Floats F) (wide : Json.WideCodec) (mode : Mode UInt8)
    (run : RestoreRun) : Prop :=
  ∃ projectName key content parts text, validateRestoreProject run.projectName = .ok projectName ∧
    run.confirmation = expectedConfirmation projectName ∧ loadBackupKey run.backupKey = .ok key ∧
      Opened floats wide mode run.disk key content parts text

variable (run) in
/-- The command can be made where Docker is found. -/
lemma restoreCommand_isOk (projectName : PyStr) :
    (restoreCommand run projectName).isOk = run.docker.isSome := by
  rw [restoreCommand]
  cases run.docker <;> rfl

/-- The work on the decrypted dump leaves the temporary files alone. -/
lemma ends_restoreTemporary (command : List PyStr) (temporary : ℕ) (metadata : Json F)
    (s : TempDir × RecoveryTarget) :
    Ends (restoreTemporary floats wide run command temporary metadata) s fun _ s' =>
      s'.1 = s.1 := by
  rw [restoreTemporary, ends_bind, ends_lift]
  cases run.call .openTemporary with
  | error e => rfl
  | ok =>
    show Ends _ _ _
    rw [ends_bind, ends_look]
    cases s.1.lookup temporary with
    | none => rfl
    | some payload =>
      show Ends _ _ _
      rw [ends_bind, ends_lift]
      cases run.call .readTemporary with
      | error e => rfl
      | ok =>
        show Ends _ _ _
        rw [ends_bind, ends_lift]
        cases readCredentialBundle floats wide payload with
        | error e => rfl
        | ok v =>
          show Ends _ _ _
          rw [ends_bind, ends_lift]
          cases run.call .runPgRestore with
          | error e => rfl
          | ok =>
            show Ends _ _ _
            split
            · rfl
            split
            · rw [ends_bind, ends_second]
              refine Ends.mono (Q := fun _ _ => True) trivial fun r t _ => ?_
              cases r <;> rfl
            · rfl

variable (floats wide run) in
/-- Only between decrypting and the `try` a run can end with a dump behind. -/
lemma ends_restoreBackup (himpl : cipher.Implements mode) (s : TempDir × RecoveryTarget) :
    Ends (restoreBackup floats wide cipher run) s fun _ s' =>
      s'.1 = s.1 ↔ ¬(run.Decrypts floats wide mode ∧ run.docker = none) := by
  rw [restoreBackup, ends_bind, ends_lift]
  cases hname : validateRestoreProject run.projectName with
  | error e =>
    refine iff_of_true rfl ?_
    rintro ⟨⟨projectName, key, content, parts, text, hname', -⟩, -⟩
    simp [hname'] at hname
  | ok projectName =>
    show Ends _ _ _
    split
    · rename_i hconfirmation
      refine iff_of_true rfl ?_
      rintro ⟨⟨projectName', key, content, parts, text, hname', hconfirmation', -⟩, -⟩
      obtain rfl := Except.ok.inj (hname.symm.trans hname')
      exact hconfirmation hconfirmation'
    rename_i hconfirmation
    rw [not_not] at hconfirmation
    rw [ends_bind, ends_lift]
    cases hkey : loadBackupKey run.backupKey with
    | error e =>
      refine iff_of_true rfl ?_
      rintro ⟨⟨projectName', key, content, parts, text, -, -, hkey', -⟩, -⟩
      simp [hkey'] at hkey
    | ok key =>
      show Ends _ _ _
      rw [ends_bind, ends_first]
      refine (ends_decryptToTemporary floats wide run.disk key s.1 himpl).mono ?_
      rintro (e | ⟨temporary, metadata⟩) t h
      · refine iff_of_true h.1 ?_
        rintro ⟨⟨projectName', key', content, parts, text, -, -, hkey', hopened⟩, -⟩
        obtain rfl := Except.ok.inj (hkey.symm.trans hkey')
        exact h.2 ⟨content, parts, text, hopened⟩
      · obtain ⟨content, parts, text, hopened, rfl, -, rfl⟩ := h
        have hdecrypts : run.Decrypts floats wide mode :=
          ⟨projectName, key, content, parts, text, hname, hconfirmation, hkey, hopened⟩
        show Ends _ _ _
        have hcommand := restoreCommand_isOk run projectName
        rw [ends_bind, ends_lift]
        -- the command is looked for before the `try`: without docker the plaintext stays
        cases hdocker : restoreCommand run projectName with
        | error e =>
          rw [hdocker, Exceptions.isOk_error, eq_comm, Option.isSome_eq_false_iff,
            Option.isNone_iff_eq_none] at hcommand
          refine iff_of_false ?_ (not_not.2 ⟨hdecrypts, hcommand⟩)
          simp
        | ok command =>
          have hfound : run.docker ≠ none := by
            rw [hdocker, Exceptions.isOk_ok, eq_comm] at hcommand
            exact Option.isSome_iff_ne_none.1 hcommand
          show Ends _ _ _
          rw [ends_finallyDo]
          refine (ends_restoreTemporary _ _ _ _).mono fun r t ht => ?_
          show TempDir.unlink t.1 _ = s.1 ↔ _
          rw [ht, TempDir.unlink_last (run.disk.fresh s.1)]
          exact iff_of_true rfl fun h => hfound h.2

variable (floats wide run) in
/-- A run leaves the temporary files as they were, unless it has decrypted the archive and does
not find Docker. -/
theorem restore_leaves_nothing_iff (himpl : cipher.Implements mode)
    (s : TempDir × RecoveryTarget) :
    (restoreBackup floats wide cipher run s).2.1 = s.1 ↔
      ¬(run.Decrypts floats wide mode ∧ run.docker = none) :=
  ends_restoreBackup floats wide run himpl s

end

/-! ## A host without Docker -/

/-- A run on the archive of a note, which is confirmed. -/
def noteRestore (docker : Option PyStr) (archive : Bytes) : RestoreRun where
  backupKey := some (List.replicate 43 0x41 ++ [0x3D])
  projectName := some (py "mailgate-restore")
  confirmation := py "RESTORE mailgate-restore"
  recovers := false
  databaseName := none
  docker := docker
  disk := quietDisk archive
  fails _ := false
  pgRestore _ _ := 0
  targetLinked := false

/-- The cipher that has encrypted the note. -/
def noteCipher : Cipher UInt8 (Session UInt8) :=
  ledger blankTag (· = (noteRun (py "nightly")).encryption (noteMetadata "nightly"))

/-- Its mode. -/
def noteMode : Mode UInt8 :=
  ledgerMode blankTag (· = (noteRun (py "nightly")).encryption (noteMetadata "nightly"))

lemma noteCipher_implements : noteCipher.Implements noteMode := ledger_implements _ _

lemma noteRestore_decrypts :
    ∃ bytes, ∀ docker, (noteRestore docker bytes).Decrypts halfFloats noWide noteMode := by
  have hok : (Json.object (noteRun (py "nightly")).metadata).Ok halfFloats := by
    simp only [noteRun, Json.Ok, Json.MembersOk, and_true]
    exact ⟨by decide, Json.spellable_py (by decide), Json.spellable_py (by decide)⟩
  obtain ⟨sorted, -, hload⟩ := loadMetadata_metadataBytes noWide metadataBytes_note hok
  obtain ⟨bytes, parts, -, -, hopens⟩ := noteRun_opened metadataBytes_note hload
  have hname : validateRestoreProject (some (py "mailgate-restore")) =
      .ok (py "mailgate-restore") := by
    decide +kernel
  have hconfirmation : py "RESTORE mailgate-restore" =
      expectedConfirmation (py "mailgate-restore") := by
    decide
  have hkey : loadBackupKey (some (List.replicate 43 0x41 ++ [0x3D])) =
      .ok (List.replicate 32 0) := by
    decide +kernel
  exact ⟨bytes, fun docker => ⟨_, _, _, _, _, hname, hconfirmation, hkey, hopens⟩⟩

/-- Where Docker is missing, the decrypted dump stays. -/
theorem dump_left_without_docker : ∃ bytes, ∀ s : TempDir × RecoveryTarget,
    (restoreBackup halfFloats noWide noteCipher (noteRestore none bytes) s).2.1 ≠ s.1 := by
  obtain ⟨bytes, hdecrypts⟩ := noteRestore_decrypts
  refine ⟨bytes, fun s hclean => ?_⟩
  have hends := ends_restoreBackup halfFloats noWide (noteRestore none bytes)
    noteCipher_implements s
  rw [Ends] at hends
  exact hends.1 hclean ⟨hdecrypts none, rfl⟩

/-- Where Docker is there, the decrypted dump is removed. -/
theorem restore_leaves_nothing_iff_docker : ∃ bytes,
    (noteRestore (some (py "docker")) bytes).Decrypts halfFloats noWide noteMode ∧
      ∀ s : TempDir × RecoveryTarget, (restoreBackup halfFloats noWide noteCipher
        (noteRestore (some (py "docker")) bytes) s).2.1 = s.1 := by
  obtain ⟨bytes, hdecrypts⟩ := noteRestore_decrypts
  have hfound : (noteRestore (some (py "docker")) bytes).docker ≠ none := by rintro ⟨⟩
  refine ⟨bytes, hdecrypts _, fun s => ?_⟩
  rw [restore_leaves_nothing_iff halfFloats noWide _ noteCipher_implements]
  exact fun h => hfound h.2

end MailGate
