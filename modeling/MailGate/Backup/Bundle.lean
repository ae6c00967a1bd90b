import MailGate.Backup.Archive

/-!
# The credential bundle

The key files that a backup carries before the dump: `credential_bundle` of `backup.py`, and
`read_credential_bundle` of `restore.py`, which checks more than the writer does.
-/

namespace MailGate

open Json (Floats)

/-- `PAYLOAD_MAGIC`. -/
def payloadMagic : Bytes := bytes "MAILGATE-PGDUMP\x00"

/-- `MAX_CREDENTIAL_BUNDLE_BYTES`. -/
def maxCredentialBundleBytes : ℕ := 64 * 1024

/-- A key file of the secrets directory. -/
inductive KeyFile where
  /-- `path.is_file()` is false. -/
  | absent
  | unreadable
  | content (b : Bytes)
deriving DecidableEq, Repr

/-- The secrets that a backup needs. -/
structure BackupSecrets where
  /-- The content of `backup_key`, if it can be read. -/
  backupKey : Option Bytes
  masterKey : KeyFile
  masterKeyring : KeyFile

/-! ## Writing -/

/-- One round of the loop of `credential_bundle`. -/
def readCredential (name : String) : KeyFile → Except ArchiveExn (List (PyStr × PyStr))
  | .absent => .ok []
  | .unreadable => .error (backupArchiveError "Unable to read the credential key bundle")
  | .content b =>
      match readAsciiText b with
      | none => .error (backupArchiveError "Unable to read the credential key bundle")
      | some text => .ok [(py name, PyStr.strip text)]

/-- `values`. -/
def credentialValues (secrets : BackupSecrets) : Except ArchiveExn (List (PyStr × PyStr)) := do
  let masterKey ← readCredential "master_key" secrets.masterKey
  let masterKeyring ← readCredential "master_keyring" secrets.masterKeyring
  return masterKey ++ masterKeyring

section

variable {F : Type} (floats : Floats F) (wide : Json.WideCodec)

/-- The values as a JSON object. -/
def bundleJson (values : List (PyStr × PyStr)) : Json F :=
  .object (values.map fun p => (p.1, .string p.2))

/-- `credential_bundle`. -/
def credentialBundle (secrets : BackupSecrets) : Except ArchiveExn Bytes := do
  let values ← credentialValues secrets
  if py "master_key" ∉ values.map (·.1) ∧ py "master_keyring" ∉ values.map (·.1) then
    .error (backupArchiveError "Credential master key or keyring is missing")
  else
    match (Json.dumps floats (bundleJson values)).encodeAscii with
    | none => .error .other
    | some encoded =>
        if maxCredentialBundleBytes < encoded.length then
          .error (backupArchiveError "Credential key bundle is unexpectedly large")
        else .ok (payloadMagic ++ Bytes.bigEndian encoded.length ++ encoded)

/-! ## Reading -/

/-- A value of the bundle: a string that is not empty. -/
def bundleValue : Json F → Option PyStr
  | .string value => if value = [] then none else some value
  | _ => none

/-- The values of a bundle; `none` is an invalid schema. -/
def bundleValues : Json F → Option (List (PyStr × PyStr))
  | .object members =>
      if members = [] ∨ ¬∀ p ∈ members, p.1 ∈ [py "master_key", py "master_keyring"] then none
      else members.mapM fun p => (bundleValue p.2).map fun value => (p.1, value)
  | _ => none

/-- `read_credential_bundle`; the result is the bundle and what the source still holds. -/
def readCredentialBundle (source : Bytes) :
    Except ArchiveExn (List (PyStr × PyStr) × Bytes) :=
  if source.take payloadMagic.length ≠ payloadMagic then
    .error (backupArchiveError "Encrypted payload is not a MailGate PostgreSQL backup")
  else
    let source := source.drop payloadMagic.length
    if (source.take 4).length ≠ 4 then
      .error (backupArchiveError "Encrypted backup payload is truncated")
    else
      let size := Bytes.fromBigEndian (source.take 4)
      let source := source.drop 4
      if ¬(1 ≤ size ∧ size ≤ maxCredentialBundleBytes) then
        .error (backupArchiveError "Credential key bundle has an invalid size")
      else
        match Json.loadsBytes floats wide (source.take size) with
        | .error .decode => .error (backupArchiveError "Credential key bundle is invalid")
        | .error .unicode => .error (backupArchiveError "Credential key bundle is invalid")
        | .error _ => .error .other
        | .ok document =>
            match bundleValues document with
            | none => .error (backupArchiveError "Credential key bundle has an invalid schema")
            | some bundle => .ok (bundle, source.drop size)

end

/-! ## The values -/

/-- No key file that is there is empty. -/
def BackupSecrets.Filled (secrets : BackupSecrets) : Prop :=
  ∀ file ∈ [secrets.masterKey, secrets.masterKeyring], ∀ content text, file = .content content →
    readAsciiText content = some text → PyStr.strip text ≠ []

lemma readCredential_eq_ok {name : String} {file : KeyFile} {values : List (PyStr × PyStr)} :
    readCredential name file = .ok values ↔
      (file = .absent ∧ values = []) ∨ ∃ content text, file = .content content ∧
        readAsciiText content = some text ∧ values = [(py name, PyStr.strip text)] := by
  cases file with
  | absent => simp [readCredential, eq_comm]
  | unreadable => simp [readCredential]
  | content b =>
    rw [readCredential]
    cases htext : readAsciiText b with
    | none => simp [htext]
    | some text => simp [htext, eq_comm]

/-- The values of a bundle, file by file. -/
lemma credentialValues_eq_ok {secrets : BackupSecrets} {values : List (PyStr × PyStr)}
    (h : credentialValues secrets = .ok values) :
    ∃ masterKey masterKeyring, values = masterKey ++ masterKeyring ∧
      readCredential "master_key" secrets.masterKey = .ok masterKey ∧
      readCredential "master_keyring" secrets.masterKeyring = .ok masterKeyring := by
  simp only [credentialValues, Exceptions.bind_eq_ok] at h
  obtain ⟨masterKey, hkey, masterKeyring, hkeyring, hvalues⟩ := h
  exact ⟨masterKey, masterKeyring, (Except.ok.inj hvalues).symm, hkey, hkeyring⟩

lemma readCredential_filled_iff {name : String} {file : KeyFile} {values : List (PyStr × PyStr)}
    (h : readCredential name file = .ok values) :
    (∀ p ∈ values, p.2 ≠ []) ↔ ∀ content text, file = .content content →
      readAsciiText content = some text → PyStr.strip text ≠ [] := by
  rcases readCredential_eq_ok.1 h with ⟨rfl, rfl⟩ | ⟨content, text, rfl, htext, rfl⟩
  · simp
  · rw [List.forall_mem_singleton]
    constructor
    · rintro hne _ text' ⟨⟩ htext'
      obtain rfl := Option.some.inj (htext.symm.trans htext')
      exact hne
    · intro hne
      exact hne content text rfl htext

/-- The values are not empty where the files are not. -/
lemma filled_iff {secrets : BackupSecrets} {values : List (PyStr × PyStr)}
    (h : credentialValues secrets = .ok values) :
    (∀ p ∈ values, p.2 ≠ []) ↔ secrets.Filled := by
  obtain ⟨masterKey, masterKeyring, rfl, hkey, hkeyring⟩ := credentialValues_eq_ok h
  rw [List.forall_mem_append, readCredential_filled_iff hkey, readCredential_filled_iff hkeyring,
    BackupSecrets.Filled, List.forall_mem_cons, List.forall_mem_singleton]

/-- The values of a bundle have names of their own, and are ASCII. -/
lemma credentialValues_names {secrets : BackupSecrets} {values : List (PyStr × PyStr)}
    (h : credentialValues secrets = .ok values) :
    (values.map (·.1)).Sublist [py "master_key", py "master_keyring"] ∧
      ∀ p ∈ values, ∀ c ∈ p.2, c.val < 0x80 := by
  obtain ⟨masterKey, masterKeyring, rfl, hkey, hkeyring⟩ := credentialValues_eq_ok h
  have hpart : ∀ {name : String} {file : KeyFile} {part : List (PyStr × PyStr)},
      readCredential name file = .ok part →
        (part.map (·.1)).Sublist [py name] ∧ ∀ p ∈ part, ∀ c ∈ p.2, c.val < 0x80 := by
    intro name file part hpart
    rcases readCredential_eq_ok.1 hpart with ⟨-, rfl⟩ | ⟨content, text, -, htext, rfl⟩
    · simp
    · refine ⟨.refl _, ?_⟩
      rw [List.forall_mem_singleton]
      intro c hc
      obtain ⟨raw, hraw, rfl⟩ := Option.map_eq_some_iff.1 htext
      rcases PyStr.mem_newlinesFrom (PyStr.mem_of_mem_strip hc) with hc | rfl
      · exact Bytes.ascii_of_decodeAscii hraw c hc
      · decide
  obtain ⟨hkeyNames, hkeyAscii⟩ := hpart hkey
  obtain ⟨hkeyringNames, hkeyringAscii⟩ := hpart hkeyring
  refine ⟨?_, ?_⟩
  · rw [List.map_append]
    exact hkeyNames.append hkeyringNames
  · rw [List.forall_mem_append]
    exact ⟨hkeyAscii, hkeyringAscii⟩

section

variable {F : Type} {floats : Floats F} {secrets : BackupSecrets} {values : List (PyStr × PyStr)}

lemma bundleJson_ok (h : credentialValues secrets = .ok values) :
    (bundleJson values : Json F).Ok floats := by
  obtain ⟨hnames, hascii⟩ := credentialValues_names h
  have hdistinct : [py "master_key", py "master_keyring"].Nodup := by decide
  rw [bundleJson, Json.Ok, Json.membersOk_iff, List.map_map]
  refine ⟨hnames.nodup hdistinct, ?_⟩
  intro q hq
  obtain ⟨p, hp, rfl⟩ := List.mem_map.1 hq
  have hname := hnames.subset (List.mem_map.2 ⟨p, hp, rfl⟩)
  refine ⟨?_, ?_⟩
  · simp only [List.mem_cons, List.not_mem_nil, or_false] at hname
    rcases hname with hname | hname
    · rw [hname]
      exact Json.spellable_py (by decide)
    · rw [hname]
      exact Json.spellable_py (by decide)
  · rw [Json.Ok]
    refine Json.spellable_of_not_surrogate fun c hc => ?_
    have hlt := hascii p hp c hc
    simp only [PyChar.isSurrogate, Bool.and_eq_false_iff, decide_eq_false_iff_not]
    omega

lemma sortKeys_bundleJson (h : credentialValues secrets = .ok values) :
    Json.sortKeys (bundleJson values : Json F) = bundleJson values := by
  obtain ⟨hnames, -⟩ := credentialValues_names h
  have horder : [py "master_key", py "master_keyring"].Pairwise (· ≤ ·) := by decide
  have hsorted : (values.map fun p => (p.1, (.string p.2 : Json F))).Pairwise
      fun a b => a.1 ≤ b.1 := by
    have hpairwise := horder.sublist hnames
    rw [List.pairwise_map] at hpairwise ⊢
    exact hpairwise
  rw [bundleJson, Json.sortKeys, Json.sortMembers_strings, hsorted.insertionSort_eq]

/-- The check of the reader: the bundle is the values, if none of them is empty. -/
lemma bundleValues_bundleJson (h : credentialValues secrets = .ok values) (hvalues : values ≠ []) :
    bundleValues (bundleJson values : Json F) =
      if ∀ p ∈ values, p.2 ≠ [] then some values else none := by
  obtain ⟨hnames, -⟩ := credentialValues_names h
  have hmem : ∀ q ∈ values.map fun p => (p.1, (.string p.2 : Json F)),
      q.1 ∈ [py "master_key", py "master_keyring"] := by
    intro q hq
    obtain ⟨p, hp, rfl⟩ := List.mem_map.1 hq
    exact hnames.subset (List.mem_map.2 ⟨p, hp, rfl⟩)
  have hread : ∀ ps : List (PyStr × PyStr), (ps.map fun p => (p.1, (.string p.2 : Json F))).mapM
      (fun p => (bundleValue p.2).map fun value => (p.1, value)) =
        if ∀ p ∈ ps, p.2 ≠ [] then some ps else none := by
    intro ps
    induction ps with
    | nil => simp
    | cons p ps ih =>
      rw [List.map_cons, List.mapM_cons, ih, bundleValue]
      by_cases hp : p.2 = []
      · simp [hp]
      · by_cases hps : ∀ p ∈ ps, p.2 ≠ []
        · have hall : ∀ q ∈ p :: ps, q.2 ≠ [] := List.forall_mem_cons.2 ⟨hp, hps⟩
          rw [if_neg hp, if_pos hps, if_pos hall]
          rfl
        · have hsome : ¬∀ q ∈ p :: ps, q.2 ≠ [] := fun hall => hps (List.forall_mem_cons.1 hall).2
          rw [if_neg hp, if_neg hps, if_neg hsome]
          rfl
  rw [bundleJson, bundleValues, if_neg, hread]
  rw [not_or, not_not]
  exact ⟨by simpa using hvalues, hmem⟩

lemma credentialBundle_eq_ok {payloadPrefix : Bytes}
    (h : credentialBundle floats secrets = .ok payloadPrefix) :
    payloadPrefix ≠ [] ∧ ∃ values, credentialValues secrets = .ok values := by
  rw [credentialBundle, Exceptions.bind_eq_ok] at h
  obtain ⟨values, hvalues, h⟩ := h
  refine ⟨?_, values, hvalues⟩
  split at h
  · cases h
  split at h
  · cases h
  split at h
  · cases h
  rw [← Except.ok.inj h, List.append_assoc]
  exact List.append_ne_nil_of_left_ne_nil (by decide +kernel) _

/-- The bundle that was written is read where no value is empty, and refused otherwise. -/
theorem readCredentialBundle_credentialBundle (wide : Json.WideCodec)
    (h : credentialValues secrets = .ok values) {payloadPrefix : Bytes}
    (hleading : credentialBundle floats secrets = .ok payloadPrefix) (dump : Bytes) :
    readCredentialBundle floats wide (payloadPrefix ++ dump) =
      if ∀ p ∈ values, p.2 ≠ [] then .ok (values, dump)
      else .error (backupArchiveError "Credential key bundle has an invalid schema") := by
  rw [credentialBundle, h, Exceptions.ok_bind] at hleading
  split at hleading
  · cases hleading
  rename_i hpresent
  have hvalues : values ≠ [] := by
    rintro rfl
    exact hpresent (by simp)
  split at hleading
  · cases hleading
  rename_i encoded hencoded
  split at hleading
  · cases hleading
  rename_i hbound
  obtain rfl := Except.ok.inj hleading
  have hok : (bundleJson values : Json F).Ok floats := bundleJson_ok h
  rw [Json.dumps, sortKeys_bundleJson h] at hencoded
  have hloads := Json.loadsBytes_render floats wide hok hencoded
  have hnonempty : 1 ≤ encoded.length := by
    obtain ⟨p, ps, rfl⟩ := List.exists_cons_of_ne_nil hvalues
    rw [PyStr.encodeAscii_length hencoded, bundleJson, List.map_cons, Json.render,
      List.length_cons]
    exact Nat.le_add_left 1 _
  have hsize : Bytes.fromBigEndian (Bytes.bigEndian encoded.length) = encoded.length := by
    have hmax : maxCredentialBundleBytes < 0x100000000 := by decide
    exact Bytes.fromBigEndian_bigEndian (by omega)
  have hmagic : (payloadMagic ++ Bytes.bigEndian encoded.length ++ encoded ++ dump).take
      payloadMagic.length = payloadMagic := by
    rw [List.append_assoc, List.append_assoc, List.take_left' rfl]
  have hrest : (payloadMagic ++ Bytes.bigEndian encoded.length ++ encoded ++ dump).drop
      payloadMagic.length = Bytes.bigEndian encoded.length ++ (encoded ++ dump) := by
    rw [List.append_assoc, List.append_assoc, List.drop_left' rfl]
  rw [readCredentialBundle, hmagic, if_neg (by simp), hrest]
  dsimp only
  rw [List.take_left' (Bytes.bigEndian_length _), if_neg (by simp), hsize,
    List.drop_left' (Bytes.bigEndian_length _), if_neg (by omega), List.take_left' rfl, hloads]
  dsimp only
  rw [bundleValues_bundleJson h hvalues, List.drop_left' rfl]
  by_cases hfilled : ∀ p ∈ values, p.2 ≠ []
  · rw [if_pos hfilled, if_pos hfilled]
  · rw [if_neg hfilled, if_neg hfilled]

end

end MailGate
