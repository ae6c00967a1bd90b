import MailGate.Backup.Create

/-!
# Published backups can be restored

What `create_backup` publishes, and when `decrypt_to_temporary` and `read_credential_bundle` get
the key files and the dump back out of it.
-/

namespace MailGate

open Aead Transaction Prog
open Json (Floats)

section

variable {F Ctx : Type} {floats : Floats F} {cipher : Cipher UInt8 Ctx} {mode : Mode UInt8}
  {run : BackupRun} {s s' : BackupDir} {metadata : List (PyStr × Json F)}

/-! ## What is published -/

/-- The archive of a run whose key, bundle and command these are. -/
def BackupRun.archiveRun (run : BackupRun) (key payloadPrefix : Bytes) (command : List PyStr) :
    ArchiveRun F where
  key := key
  nonce := run.nonce
  metadata := run.metadata
  source := ⟨payloadPrefix, (run.pgDump command).stdout⟩

/-- What a run puts at the output. -/
structure Published (floats : Floats F) (cipher : Cipher UInt8 Ctx) (run : BackupRun)
    (key payloadPrefix : Bytes) (command : List PyStr) (content : Bytes) : Prop where
  loaded : loadBackupKey run.secrets.backupKey = .ok key
  bundled : credentialBundle floats run.secrets = .ok payloadPrefix
  found : run.command = .ok command
  dumped : (run.pgDump command).returnCode = 0
  encrypted : (run.archiveRun key payloadPrefix command).archive floats cipher = .ok content

namespace BackupDir

/-- The directory with a new file at the output. -/
def withOutput (s : BackupDir) (content : Bytes) : BackupDir where
  output := some ⟨s.next, content⟩
  temporaries := s.temporaries
  next := s.next + 1
  numbered f hf := Nat.lt_succ_of_lt (s.numbered f hf)

lemma fill_create (s : BackupDir) (content : Bytes) :
    (s.create.fill s.next content).temporaries = s.temporaries ++ [⟨s.next, content⟩] := by
  have hold : s.temporaries.map (fun f => if f.number = s.next then ⟨f.number, content⟩ else f) =
      s.temporaries := by
    conv_rhs => rw [← List.map_id s.temporaries]
    refine List.map_congr_left fun f hf => ?_
    rw [if_neg (Nat.ne_of_lt (s.numbered f hf))]
    rfl
  simp [fill, create, hold]

/-- The new temporary file is found by its number. -/
lemma find_fill_create (s : BackupDir) (content : Bytes) :
    (s.create.fill s.next content).temporaries.find? (·.number = s.next) =
      some ⟨s.next, content⟩ := by
  have hold : s.temporaries.find? (·.number = s.next) = none := by
    rw [List.find?_eq_none]
    intro f hf
    simpa using Nat.ne_of_lt (s.numbered f hf)
  rw [fill_create, List.find?_append, hold]
  simp

lemma remove_fill_create (s : BackupDir) (content : Bytes) :
    ((s.create.fill s.next content).remove s.next).temporaries = s.temporaries := by
  have hold : s.temporaries.filter (·.number ≠ s.next) = s.temporaries := by
    rw [List.filter_eq_self]
    intro f hf
    simpa using Nat.ne_of_lt (s.numbered f hf)
  show (s.create.fill s.next content).temporaries.filter (·.number ≠ s.next) = _
  rw [fill_create, List.filter_append, hold]
  simp

end BackupDir

/-! ## Steps of a run that is left alone -/

@[simp] lemma run_otherCall (s : BackupDir) : otherCall.run s = (.ok (), s) := rfl

@[simp] lemma run_makeTemporary (s : BackupDir) :
    makeTemporary.run s = (.ok s.next, s.create) := rfl

@[simp] lemma run_fillBackup (s : BackupDir) (temporary : ℕ) (content : Bytes) :
    (fillBackup temporary content).run s = (.ok (), s.fill temporary content) := rfl

@[simp] lemma run_compute {α : Type} (r : Except ArchiveExn α) (s : BackupDir) :
    (Prog.compute r : BackupTool α).run s = (r, s) := rfl

@[simp] lemma run_pure {α : Type} (a : α) (s : BackupDir) :
    (pure a : BackupTool α).run s = (.ok a, s) := rfl

/-- The new file takes the place of what is at the output. -/
lemma run_replaceOutput (s : BackupDir) (content : Bytes) :
    (replaceOutput s.next).run (s.create.fill s.next content) = (.ok (), s.withOutput content) := by
  simp only [replaceOutput, Prog.atomic, Prog.run, BackupDir.find_fill_create]
  refine congrArg (Prod.mk _) (BackupDir.ext rfl ?_ rfl)
  exact s.remove_fill_create content

/-- What a run does after its first look at the output. -/
lemma run_createChecked {key payloadPrefix content : Bytes} {command : List PyStr}
    (h : Published floats cipher run key payloadPrefix command content) (s : BackupDir) :
    (createChecked floats cipher run).run s = (.ok run.metadata, s.withOutput content) := by
  have harchive : encryptStream floats cipher run.nonce
      ⟨payloadPrefix, (run.pgDump command).stdout⟩ key (.object run.metadata) = .ok content :=
    h.encrypted
  have hpublish : (publishBackup floats cipher run key payloadPrefix command s.next).run s.create =
      (.ok run.metadata, s.withOutput content) := by
    simp only [publishBackup, run_bind, run_otherCall, harchive, run_compute, run_fillBackup,
      h.dumped, ne_eq, not_true_eq_false, if_false, run_replaceOutput, run_pure]
  simp only [createChecked, run_bind, run_otherCall, h.loaded, h.bundled, h.found, run_compute,
    run_makeTemporary]
  cases run.posix with
  | false => simp only [Bool.false_eq_true, if_false, run_tryCatch, hpublish]
  | true => simp only [if_true, run_bind, run_otherCall, run_tryCatch, hpublish]

/-- A run that finds no file at the output. -/
lemma run_createBackup {key payloadPrefix content : Bytes} {command : List PyStr}
    (h : Published floats cipher run key payloadPrefix command content) (hs : s.output = none) :
    (createBackup floats cipher run).run s = (.ok run.metadata, s.withOutput content) := by
  have hlook : (outputExists run.blind).run s = (.ok false, s) := by
    simp [outputExists, Prog.atomic, Prog.run, hs]
  rw [createBackup, run_bind, hlook]
  exact run_createChecked h s

/-- The cleanup of the temporary file raises again what it was called for. -/
lemma ok_of_cleanup {α : Type} {p : BackupTool α} {temporary : ℕ} {a : α}
    (h : (p.tryCatch fun e => do
      unlinkBackup temporary
      .compute (.error e)).run s = (.ok a, s')) : p.run s = (.ok a, s') := by
  rw [run_tryCatch] at h
  split at h
  · rename_i b t hp
    rw [hp, h]
  · cases h

/-- A run that returns has published its archive. -/
lemma published_of_createBackup (h : (createBackup floats cipher run).run s = (.ok metadata, s')) :
    ∃ key payloadPrefix command content,
      Published floats cipher run key payloadPrefix command content ∧
        s' = s.withOutput content := by
  obtain ⟨there, s₁, hlook, h⟩ := run_bind_eq_ok h
  have hlook : (Except.ok (!run.blind && s.output.isSome), s) = (Except.ok there, s₁) := hlook
  obtain ⟨hanswer, rfl⟩ := Prod.mk.inj hlook
  obtain rfl := Except.ok.inj hanswer
  cases hthere : !run.blind && s.output.isSome with
  | true =>
    rw [hthere] at h
    cases h
  | false =>
    rw [hthere] at h
    have hchecked : (createChecked floats cipher run).run s = (.ok metadata, s') := h
    obtain ⟨_, _, hmkdir, h⟩ := run_bind_eq_ok hchecked
    cases hmkdir
    obtain ⟨key, _, hkey, h⟩ := run_bind_eq_ok h
    rw [run_compute] at hkey
    obtain ⟨hloaded, rfl⟩ := Prod.mk.inj hkey
    obtain ⟨payloadPrefix, _, hleading, h⟩ := run_bind_eq_ok h
    rw [run_compute] at hleading
    obtain ⟨hbundled, rfl⟩ := Prod.mk.inj hleading
    obtain ⟨command, _, hcommand, h⟩ := run_bind_eq_ok h
    rw [run_compute] at hcommand
    obtain ⟨hfound, rfl⟩ := Prod.mk.inj hcommand
    obtain ⟨temporary, _, htemporary, h⟩ := run_bind_eq_ok h
    cases htemporary
    -- whether the mode of the temporary file is set or not, the same follows
    have hpublish : ∃ md t, (publishBackup floats cipher run key payloadPrefix command
        s.next).run s.create = (.ok md, t) := by
      cases hposix : run.posix with
      | false =>
        simp only [hposix, Bool.false_eq_true, if_false] at h
        exact ⟨_, _, ok_of_cleanup h⟩
      | true =>
        simp only [hposix, if_true, run_bind, run_otherCall] at h
        exact ⟨_, _, ok_of_cleanup h⟩
    obtain ⟨md, t, hpublish⟩ := hpublish
    obtain ⟨_, _, hpopen, h⟩ := run_bind_eq_ok hpublish
    cases hpopen
    obtain ⟨content, _, hcontent, h⟩ := run_bind_eq_ok h
    rw [run_compute] at hcontent
    obtain ⟨hencrypted, rfl⟩ := Prod.mk.inj hcontent
    obtain ⟨_, _, hfill, h⟩ := run_bind_eq_ok h
    cases hfill
    obtain ⟨_, _, hwait, h⟩ := run_bind_eq_ok h
    cases hwait
    have hcode : (run.pgDump command).returnCode = 0 := by
      by_contra hcode
      rw [if_pos hcode] at h
      cases h
    have hpublished : Published floats cipher run key payloadPrefix command content :=
      ⟨hloaded, hbundled, hfound, hcode, hencrypted⟩
    rw [run_createChecked hpublished] at hchecked
    exact ⟨key, payloadPrefix, command, content, hpublished, (Prod.mk.inj hchecked).2.symm⟩

/-! ## What can be restored -/

/-- The names of the metadata. -/
def metadataNames : List PyStr := [py "archive_version", py "created_at", py "database",
  py "git_commit", py "includes_credential_key_bundle", py "project_name"]

lemma metadataNames_spellable : ∀ name ∈ metadataNames, Json.Spellable name := by
  have hall : (metadataNames.all fun name => name.all fun c => !PyChar.isSurrogate c) = true := by
    decide +kernel
  intro name hname
  refine Json.spellable_of_not_surrogate fun c hc => ?_
  simpa using List.all_eq_true.1 (List.all_eq_true.1 hall name hname) c hc

lemma metadata_ok (run : BackupRun) : (Json.object run.metadata : Json F).Ok floats := by
  have hdistinct : metadataNames.Nodup := by decide +kernel
  have hnames : (run.metadata : List (PyStr × Json F)).map (·.1) = metadataNames := rfl
  have hvalues : ∀ p ∈ (run.metadata : List (PyStr × Json F)), p.2.Ok floats := by
    simp only [BackupRun.metadata, List.forall_mem_cons, List.not_mem_nil, false_implies,
      implies_true, and_true, Json.Ok, Json.Scalar.Ok, true_and]
    refine ⟨?_, run.createdAt.2, run.database.2, (gitCommit run.git).2, run.project.2⟩
    decide +kernel
  rw [Json.Ok, hnames, Json.membersOk_iff]
  refine ⟨hdistinct, fun p hp => ⟨?_, hvalues p hp⟩⟩
  exact metadataNames_spellable _ (hnames ▸ List.mem_map.2 ⟨p, hp, rfl⟩)

/-- `decrypt_to_temporary` and `read_credential_bundle` get the key files and the dump back. -/
def Restorable (floats : Floats F) (wide : Json.WideCodec) (cipher : Cipher UInt8 Ctx)
    (run : BackupRun) (content : Bytes) : Prop :=
  ∃ key command values, loadBackupKey run.secrets.backupKey = .ok key ∧
    run.command = .ok command ∧ credentialValues run.secrets = .ok values ∧
    ∀ disk : Disk, disk.archive = some content → (∀ c, disk.fails c = false) → ∀ s : TempDir,
      ∃ path metadata payload, decryptToTemporary floats wide cipher disk key s =
        (.ok (path, metadata), s ++ [(path, payload)]) ∧
          readCredentialBundle floats wide payload =
            .ok (values, (run.pgDump command).stdout.parts.flatten)

variable (wide : Json.WideCodec) in
/-- What a published archive decrypts to. -/
lemma Published.decrypts (himpl : cipher.Implements mode) (hsized : mode.Sized tagBytes)
    (hinverts : mode.Inverts Set.univ) {key payloadPrefix content : Bytes} {command : List PyStr}
    (h : Published floats cipher run key payloadPrefix command content) {disk : Disk}
    (hdisk : disk.archive = some content) (hcalls : ∀ c, disk.fails c = false) (s : TempDir) :
    ∃ path metadata, decryptToTemporary floats wide cipher disk key s =
      (.ok (path, metadata),
        s ++ [(path, payloadPrefix ++ (run.pgDump command).stdout.parts.flatten)]) := by
  obtain ⟨hkey, encodedMetadata, hmetadata⟩ := encryptStream_inv h.encrypted
  obtain ⟨sorted, -, hload⟩ := loadMetadata_metadataBytes wide hmetadata (metadata_ok run)
  have htext : (run.archiveRun (F := F) key payloadPrefix command).source.remaining ≠ [] :=
    List.append_ne_nil_of_left_ne_nil (credentialBundle_eq_ok h.bundled).1 _
  obtain ⟨bytes, hbytes, hopened⟩ := ArchiveRun.opened himpl hsized hkey hmetadata hload htext
    (hinverts ((run.archiveRun key payloadPrefix command).encryption encodedMetadata) trivial)
  obtain rfl := Except.ok.inj (hbytes.symm.trans h.encrypted)
  obtain ⟨parts, -, hparts⟩ := hopened disk hdisk hcalls
  exact ⟨_, _, hparts.decrypts himpl s⟩

/-- What is published can be restored where no key file that was there is empty. -/
lemma Published.restorable_iff (himpl : cipher.Implements mode) (hsized : mode.Sized tagBytes)
    (hinverts : mode.Inverts Set.univ) {wide : Json.WideCodec} {key payloadPrefix content : Bytes}
    {command : List PyStr}
    (h : Published floats cipher run key payloadPrefix command content) :
    Restorable floats wide cipher run content ↔ run.secrets.Filled := by
  obtain ⟨-, values, hvalues⟩ := credentialBundle_eq_ok h.bundled
  rw [← filled_iff hvalues]
  constructor
  · rintro ⟨key', command', values', hkey, hcommand, hvalues', hrestores⟩
    obtain rfl := Except.ok.inj (h.loaded.symm.trans hkey)
    obtain rfl := Except.ok.inj (h.found.symm.trans hcommand)
    have hdisk : (quietDisk content).archive = some content := rfl
    obtain ⟨path', metadata', payload, hdecrypts, hread⟩ := hrestores _ hdisk (fun _ => rfl) []
    obtain ⟨path, metadata, hdecrypts'⟩ :=
      h.decrypts wide himpl hsized hinverts hdisk (fun _ => rfl) []
    rw [hdecrypts'] at hdecrypts
    obtain ⟨rfl, rfl⟩ : path = path' ∧
        payloadPrefix ++ (run.pgDump command).stdout.parts.flatten = payload := by
      simpa using (Prod.mk.inj hdecrypts).2
    rw [readCredentialBundle_credentialBundle wide hvalues h.bundled] at hread
    by_contra hempty
    rw [if_neg hempty] at hread
    cases hread
  · intro hfilled
    refine ⟨key, command, values, h.loaded, h.found, hvalues, ?_⟩
    intro disk hdisk hcalls s
    obtain ⟨path, metadata, hdecrypts⟩ := h.decrypts wide himpl hsized hinverts hdisk hcalls s
    refine ⟨path, metadata, _, hdecrypts, ?_⟩
    rw [readCredentialBundle_credentialBundle wide hvalues h.bundled, if_pos hfilled]

variable (wide : Json.WideCodec) in
/-- A backup that a run has published can be restored exactly where no key file that was there
is empty. -/
theorem published_restorable_iff (himpl : cipher.Implements mode) (hsized : mode.Sized tagBytes)
    (hinverts : mode.Inverts Set.univ)
    (h : (createBackup floats cipher run).run s = (.ok metadata, s')) :
    ∃ file, s'.output = some file ∧
      (Restorable floats wide cipher run file.content ↔ run.secrets.Filled) := by
  obtain ⟨key, payloadPrefix, command, content, hpublished, rfl⟩ := published_of_createBackup h
  exact ⟨_, rfl, hpublished.restorable_iff himpl hsized hinverts⟩

end

/-! ## A keyring file beside a master key -/

/-- A run with a master key of one character, and this keyring file. -/
def keyringRun (masterKeyring : KeyFile) : BackupRun where
  secrets := ⟨some (List.replicate 43 0x41 ++ [0x3D]), .content [0x6B], masterKeyring⟩
  projectName := none
  createdAt := decoded "2026-01-01T00:00:00+00:00" (by decide)
  databaseName := none
  git := none
  docker := some (py "docker")
  pgDump _ := ⟨⟨[[1, 2, 3]], by simp⟩, 0⟩
  posix := true
  nonce := ⟨List.replicate 12 0, length_nonce⟩
  blind := false

/-- The cipher that decrypts everything that it has encrypted. -/
abbrev openCipher : Cipher UInt8 (Session UInt8) := ledger blankTag fun _ => true

lemma openMode_inverts : (ledgerMode blankTag fun _ => true).Inverts Set.univ :=
  fun e _ => (ledgerMode_ideal blankTag fun _ => true).inverts e rfl

/-- A directory without a file at the output. -/
def emptyBackupDir : BackupDir := ⟨none, [], 0, by simp⟩

/-- The run publishes, whatever the keyring file holds. -/
lemma published_keyringRun {masterKeyring : KeyFile}
    (h : (credentialBundle halfFloats (keyringRun masterKeyring).secrets).isOk = true) :
    ∃ key payloadPrefix command content, Published halfFloats openCipher
      (keyringRun masterKeyring) key payloadPrefix command content := by
  obtain ⟨payloadPrefix, hleading⟩ := Exceptions.exists_of_isOk h
  obtain ⟨encodedMetadata, hmetadata⟩ : ∃ encodedMetadata, metadataBytes halfFloats
      (.object (keyringRun masterKeyring).metadata) = .ok encodedMetadata :=
    Exceptions.exists_of_isOk (show (metadataBytes halfFloats
      (.object (keyringRun .absent).metadata)).isOk = true by decide +kernel)
  have hkey : loadBackupKey (keyringRun masterKeyring).secrets.backupKey =
      .ok (List.replicate 32 0) := by
    show loadBackupKey (some (List.replicate 43 0x41 ++ [0x3D])) = _
    decide +kernel
  obtain ⟨command, hcommand⟩ : ∃ command, (keyringRun masterKeyring).command = .ok command :=
    ⟨_, rfl⟩
  have hlength : (List.replicate 32 0 : Bytes).length = 32 := List.length_replicate
  exact ⟨_, payloadPrefix, command, _, hkey, hleading, hcommand, rfl,
    encryptStream_eq_ok (ledger_implements blankTag fun _ => true) hlength hmetadata rfl⟩

/-- A run without a keyring file. -/
theorem published_restorable_iff_absent : ∃ s' file,
    (createBackup halfFloats openCipher (keyringRun .absent)).run emptyBackupDir =
      (.ok (keyringRun .absent).metadata, s') ∧ s'.output = some file ∧
        Restorable halfFloats noWide openCipher (keyringRun .absent) file.content := by
  obtain ⟨key, payloadPrefix, command, content, hpublished⟩ :=
    published_keyringRun (show (credentialBundle halfFloats (keyringRun .absent).secrets).isOk =
      true by decide +kernel)
  have hrun := run_createBackup hpublished (show emptyBackupDir.output = none from rfl)
  obtain ⟨file, hfile, hiff⟩ := published_restorable_iff noWide (ledger_implements _ _)
    (ledgerMode_sized _ _) openMode_inverts hrun
  refine ⟨_, file, hrun, hfile, hiff.2 ?_⟩
  simp only [BackupSecrets.Filled, keyringRun, List.forall_mem_cons, List.not_mem_nil,
    false_implies, implies_true, and_true, reduceCtorEq]
  rintro content text ⟨⟩ htext
  have hk : readAsciiText [0x6B] = some (py "k") := by decide
  rw [hk] at htext
  rw [← Option.some.inj htext]
  decide

/-- An empty keyring file makes a backup that cannot be restored. -/
theorem empty_not_restorable : ∃ s' file,
    (createBackup halfFloats openCipher (keyringRun (.content []))).run emptyBackupDir =
      (.ok (keyringRun (.content [])).metadata, s') ∧ s'.output = some file ∧
        ¬Restorable halfFloats noWide openCipher (keyringRun (.content [])) file.content := by
  obtain ⟨key, payloadPrefix, command, content, hpublished⟩ := published_keyringRun
    (show (credentialBundle halfFloats (keyringRun (.content [])).secrets).isOk = true by
      decide +kernel)
  have hrun := run_createBackup hpublished (show emptyBackupDir.output = none from rfl)
  refine ⟨_, _, hrun, rfl, ?_⟩
  rw [hpublished.restorable_iff (ledger_implements _ _) (ledgerMode_sized _ _) openMode_inverts]
  intro hfilled
  exact hfilled (.content []) (by simp [keyringRun]) [] [] rfl rfl rfl

end MailGate
