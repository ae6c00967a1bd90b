import MailGate.Crypto.RotateRuns
import MailGate.Crypto.Settings

/-!
# What the runtime makes of a rotated keyring

The runtime reads the secrets directory that a run of the rotation tool leaves.  It accepts the
keyring, and it decrypts what it decrypted before.
-/

namespace MailGate

open Transaction

/-- What the stored credentials rely on: a key is base64 text in which line ends do not count,
and a token that two keys decrypt holds one plaintext. -/
structure Fernet.Lawful {Key : Type} (fernet : Fernet Key) : Prop where
  lines : ∀ b, fernet.make (b.filter fun x => x ≠ 0x0D ∧ x ≠ 0x0A) = fernet.make b
  authentic : ∀ {key key' : Key} {token plaintext plaintext' : Bytes},
    fernet.decrypt key token = some plaintext → fernet.decrypt key' token = some plaintext' →
      plaintext = plaintext'

/-- A key decrypts what it has encrypted, and no key decrypts an empty token. -/
structure Fernet.Sound {Key : Type} (fernet : Fernet Key) : Prop extends fernet.Lawful where
  roundTrip : ∀ {b : Bytes} {key : Key}, fernet.make b = some key → ∀ seed plaintext,
    fernet.decrypt key (fernet.encrypt key seed plaintext) = some plaintext
  empty : ∀ key, fernet.decrypt key [] = none

/-- The key can take the place of the other one. -/
def Fernet.Replaces {Key : Type} (fernet : Fernet Key) (key key' : Key) : Prop :=
  ∀ token plaintext, fernet.decrypt key token = some plaintext →
    fernet.decrypt key' token = some plaintext

variable {F Key : Type} {floats : Json.Floats F} {fernet : Fernet Key}

lemma Fernet.Replaces.refl (key : Key) : fernet.Replaces key key := fun _ _ h => h

/-! ## The settings of a directory -/

/-- The configuration of a secret by the file that is there. -/
def SecretsDir.source (s : SecretsDir) (path : SecretPath) : SecretSource :=
  ⟨none, (s.file path).map fun file => some file.content⟩

/-- The keyring of a runtime with the settings read from the directory. -/
def SecretsDir.runtimeKeyring (floats : Json.Floats F) (fernet : Fernet Key) (s : SecretsDir) :
    Except CryptoExn (CredentialKeyring Key) := do
  fromSettings floats fernet (← keySettings (s.source .masterKeyring) (s.source .masterKey))

/-- The master key of the settings. -/
abbrev SecretsDir.masterKeySetting (s : SecretsDir) : Except CryptoExn PyStr :=
  optionalSecret "MAILGATE_MASTER_KEY" (s.source .masterKey) 44

/-- What the settings make of a file. -/
lemma optionalSecret_file {name : String} {content : Bytes} {text : PyStr}
    (h : Bytes.decodeUtf8 false content = some text) {minimumLength : ℕ} :
    optionalSecret name ⟨none, some (some content)⟩ minimumLength =
      if (PyStr.universalNewlines (PyStr.strip text)).length < minimumLength then
        .error (configurationError (name ++ " must contain at least " ++
          toString minimumLength ++ " characters"))
      else .ok (PyStr.universalNewlines (PyStr.strip text)) := by
  have htext : readText content = some (PyStr.universalNewlines text) := by
    rw [readText, h, Option.map_some]
  have hsource : SecretSource.configured ⟨none, some (some content)⟩ = true := rfl
  simp only [optionalSecret, hsource, if_true, getSecret, Option.isSome_none, Bool.false_and,
    Bool.false_eq_true, if_false, htext, Exceptions.ok_bind, PyStr.strip_universalNewlines]
  rfl

/-- The text of the keyring of a directory, as the tool and the settings read it. -/
lemma SecretsDir.keyring_setting {s : SecretsDir} {document : KeyringDocument floats fernet}
    (h : s.keyring floats fernet = some document) :
    ∃ raw, parseKeyring floats fernet raw = .ok document ∧
      optionalSecret "MAILGATE_MASTER_KEYRING" (s.source .masterKeyring) 1 =
        .ok (PyStr.universalNewlines raw) := by
  rw [SecretsDir.keyring, Option.bind_eq_some_iff] at h
  obtain ⟨file, hfile, h⟩ := h
  split at h
  swap
  · cases h
  rw [fileKeyring] at h
  obtain ⟨text, htext, hparse⟩ := Option.bind_eq_some_iff.1 h
  have hparse' := Exceptions.toOption_eq_some.1 hparse
  have hne : PyStr.universalNewlines (PyStr.strip text) ≠ [] := by
    intro hnil
    obtain ⟨ring, hring, -⟩ := fromSettings_of_parseKeyring hparse'
      (show masterKeys fernet [] = .ok [] from rfl)
    rw [hnil] at hring
    cases hring
  refine ⟨PyStr.strip text, hparse', ?_⟩
  have hsource : s.source .masterKeyring = ⟨none, some (some file.content)⟩ := by
    simp [SecretsDir.source, SecretsDir.file, hfile]
  rw [hsource, optionalSecret_file htext, if_neg]
  have hpos := List.length_pos_iff.2 hne
  omega

/-- A directory with a keyring that the tool reads, and with a master key that the runtime
accepts. -/
lemma SecretsDir.runtimeKeyring_of_keyring {s : SecretsDir}
    {document : KeyringDocument floats fernet} (h : s.keyring floats fernet = some document)
    {masterKey : PyStr} {added : List Key} (hsetting : s.masterKeySetting = .ok masterKey)
    (hadded : masterKeys fernet masterKey = .ok added) :
    ∃ ring, s.runtimeKeyring floats fernet = .ok ring ∧ ring.Mirrors fernet document added := by
  obtain ⟨raw, hparse, hraw⟩ := s.keyring_setting h
  obtain ⟨ring, hring, hmirrors⟩ := fromSettings_of_parseKeyring hparse hadded
  have hne : PyStr.universalNewlines raw ≠ [] := by
    intro hnil
    obtain ⟨ring, hring, -⟩ := fromSettings_of_parseKeyring hparse
      (show masterKeys fernet [] = .ok [] from rfl)
    rw [hnil] at hring
    cases hring
  refine ⟨ring, ?_, hmirrors⟩
  simp only [SecretsDir.runtimeKeyring, keySettings, hraw, hsetting, Exceptions.ok_bind, hne,
    false_and, if_false]
  exact hring

/-- The settings of a directory that the runtime accepts. -/
lemma SecretsDir.runtimeKeyring_eq_ok {s : SecretsDir} {ring : CredentialKeyring Key}
    (h : s.runtimeKeyring floats fernet = .ok ring) :
    ∃ masterKeyring masterKey added,
      optionalSecret "MAILGATE_MASTER_KEYRING" (s.source .masterKeyring) 1 = .ok masterKeyring ∧
      s.masterKeySetting = .ok masterKey ∧ masterKeys fernet masterKey = .ok added ∧
      ring.legacyKeys = ring.keys.map (·.2) ++ added ∧
      (∀ p ∈ ring.keys, ∃ value, fernetOf fernet value = some p.2) ∧
      fromSettings floats fernet ⟨masterKeyring, masterKey⟩ = .ok ring := by
  rw [SecretsDir.runtimeKeyring, Exceptions.bind_eq_ok] at h
  obtain ⟨settings, hsettings, hring⟩ := h
  rw [keySettings, Exceptions.bind_eq_ok] at hsettings
  obtain ⟨masterKeyring, hkeyring, hsettings⟩ := hsettings
  obtain ⟨masterKey, hkey, hsettings⟩ := Exceptions.bind_eq_ok.1 hsettings
  split at hsettings
  · cases hsettings
  cases hsettings
  obtain ⟨added, hadded, hlegacy, hmade⟩ := masterKeys_of_fromSettings hring
  exact ⟨masterKeyring, masterKey, added, hkeyring, hkey, hadded, hlegacy, hmade, hring⟩

/-! ## Credentials that stay readable -/

namespace CredentialKeyring

variable {ring ring' : CredentialKeyring Key} {value plaintext : Bytes}

lemma tryKeys_eq_ok {token : Bytes} {keys : List Key}
    (h : tryKeys fernet token keys = .ok plaintext) :
    ∃ key ∈ keys, fernet.decrypt key token = some plaintext := by
  induction keys with
  | nil => cases h
  | cons key keys ih =>
    rw [tryKeys] at h
    split at h
    · rename_i plaintext' hplaintext
      cases h
      exact ⟨key, List.mem_cons_self, hplaintext⟩
    · obtain ⟨key', hkey', hplaintext⟩ := ih h
      exact ⟨key', List.mem_cons_of_mem _ hkey', hplaintext⟩

lemma tryKeys_of_mem (hfernet : fernet.Lawful) {token : Bytes} {keys : List Key} {key : Key}
    (hkey : key ∈ keys) (h : fernet.decrypt key token = some plaintext) :
    tryKeys fernet token keys = .ok plaintext := by
  induction keys with
  | nil => cases hkey
  | cons key' keys ih =>
    rw [tryKeys]
    split
    · rename_i plaintext' hplaintext'
      rw [hfernet.authentic hplaintext' h]
    · rename_i hnone
      rcases List.mem_cons.1 hkey with rfl | hmem
      · rw [h] at hnone
        cases hnone
      · exact ih hmem

/-- A keyring in which the keys of another one are replaced decrypts what this one decrypts. -/
lemma decrypt_of_replaced (hfernet : fernet.Lawful)
    (hkeys : ∀ keyId key, ring.keys.lookup keyId = some key →
      ∃ key', ring'.keys.lookup keyId = some key' ∧ fernet.Replaces key key')
    (hlegacy : ∀ key ∈ ring.legacyKeys, ∃ key' ∈ ring'.legacyKeys, fernet.Replaces key key')
    (h : ring.decrypt fernet value = .ok plaintext) :
    ring'.decrypt fernet value = .ok plaintext := by
  rw [decrypt, Exceptions.bind_eq_ok] at h
  obtain ⟨⟨keyId, token⟩, hidentify, h⟩ := h
  rw [decrypt, hidentify, Exceptions.ok_bind]
  cases keyId with
  | none =>
    obtain ⟨key, hkey, hplaintext⟩ := tryKeys_eq_ok h
    obtain ⟨key', hkey', hreplaces⟩ := hlegacy key hkey
    exact tryKeys_of_mem hfernet hkey' (hreplaces token plaintext hplaintext)
  | some keyId =>
    dsimp only at h
    split at h
    · cases h
    rename_i key hkey
    obtain ⟨key', hkey', hreplaces⟩ := hkeys keyId key hkey
    split at h
    · cases h
    rename_i plaintext' hplaintext
    cases h
    simp only [hkey', hreplaces token plaintext hplaintext]

/-- A keyring that decrypts what another one decrypts has replaced its keys. -/
lemma replaced_of_decrypt (hfernet : fernet.Sound) {keyId value : PyStr} {key : Key}
    (hkey : ring.keys.lookup keyId = some key) (hmade : fernetOf fernet value = some key)
    (h : ∀ value plaintext, ring.decrypt fernet value = .ok plaintext →
      ring'.decrypt fernet value = .ok plaintext) :
    ∃ key', ring'.keys.lookup keyId = some key' ∧ fernet.Replaces key key' := by
  obtain ⟨encoded, hencoded, -⟩ := isKeyId_encoded (isKeyId_of_lookup hkey)
  -- the envelope of a token of the key
  have henvelope : ∀ token plaintext, fernet.decrypt key token = some plaintext →
      ∃ key', ring'.keys.lookup keyId = some key' ∧ fernet.decrypt key' token = some plaintext := by
    intro token plaintext hplaintext
    have hne : token ≠ [] := by
      rintro rfl
      rw [hfernet.empty] at hplaintext
      cases hplaintext
    have hidentify := identify_envelope (isKeyId_of_lookup hkey) hencoded token
    rw [if_neg hne] at hidentify
    obtain ⟨token', key', hidentify', hkey', hplaintext'⟩ := (enveloped_iff hidentify).2
      (h _ _ ((enveloped_iff hidentify).1 ⟨token, key, hidentify, hkey, hplaintext⟩))
    rw [hidentify] at hidentify'
    cases hidentify'
    exact ⟨key', hkey', hplaintext'⟩
  obtain ⟨b, -, hmake⟩ := Option.bind_eq_some_iff.1 hmade
  obtain ⟨key', hkey', -⟩ := henvelope _ _ (hfernet.roundTrip hmake 0 [])
  refine ⟨key', hkey', fun token plaintext hplaintext => ?_⟩
  obtain ⟨key'', hkey'', hplaintext'⟩ := henvelope token plaintext hplaintext
  rw [hkey'] at hkey''
  cases hkey''
  exact hplaintext'

end CredentialKeyring

/-- A key with other line ends is the same key. -/
lemma fernetOf_universalNewlines (hfernet : fernet.Lawful) {value : PyStr} {key : Key}
    (h : fernetOf fernet value = some key) {key' : Key}
    (h' : fernetOf fernet (PyStr.universalNewlines value) = some key') : key' = key := by
  have hascii : ∀ c : PyChar, c.val < 0x80 →
      decide (c.val.toUInt8 ≠ 0x0D ∧ c.val.toUInt8 ≠ 0x0A) = decide (c ≠ 0x0D ∧ c ≠ 0x0A) := by
    intro c hc
    have heq : ∀ (n : ℕ) (d : PyChar), n < 0x80 → d.val = n →
        (c.val.toUInt8 = n.toUInt8 ↔ c = d) := by
      intro n d hn hd
      rw [Fin.ext_iff, hd, ← UInt8.toNat_inj, PyStr.toNat_toUInt8 (by omega),
        PyStr.toNat_toUInt8 (by omega)]
    have hreturn : c.val.toUInt8 = 0x0D ↔ c = 0x0D := heq 0x0D 0x0D (by omega) rfl
    have hline : c.val.toUInt8 = 0x0A ↔ c = 0x0A := heq 0x0A 0x0A (by omega) rfl
    exact decide_eq_decide.2 (and_congr (not_congr hreturn) (not_congr hline))
  obtain ⟨b, hb, hkey⟩ := Option.bind_eq_some_iff.1 h
  obtain ⟨b', hb', hkey'⟩ := Option.bind_eq_some_iff.1 h'
  have hsame :
      b'.filter (fun x => x ≠ 0x0D ∧ x ≠ 0x0A) = b.filter fun x => x ≠ 0x0D ∧ x ≠ 0x0A := by
    have hleft := PyStr.encodeAscii_filter (p := fun c => c ≠ 0x0D ∧ c ≠ 0x0A)
      (q := fun x => x ≠ 0x0D ∧ x ≠ 0x0A) hascii hb
    have hright := PyStr.encodeAscii_filter (p := fun c => c ≠ 0x0D ∧ c ≠ 0x0A)
      (q := fun x => x ≠ 0x0D ∧ x ≠ 0x0A) hascii hb'
    rw [PyStr.filter_universalNewlines, hleft] at hright
    exact (Option.some.inj hright).symm
  have hmake : fernet.make b' = fernet.make b := by
    rw [← hfernet.lines b', hsame, hfernet.lines]
  rw [hmake, hkey] at hkey'
  exact (Option.some.inj hkey').symm

/-! ## A run and the runtime -/

/-- Nobody else is at work on the directory. -/
lemma suits_alone (floats : Json.Floats F) (fernet : Fernet Key) (run : RotationRun) :
    Suits floats fernet False (.alone (· = ToolExn.os)) run where
  quiet s _ := Terms.alone_quiet _ s
  promise _ _ _ := trivial

/-- What a run leaves that nobody disturbs. -/
lemma rotate_outcome (hone : ∀ f, floats.eqInt f 1 = true → floats.Faithful f) {run : RotationRun}
    {s s' : SecretsDir} {tr : List (Event SecretsDir)} {b : Bool}
    (hexec : Exec (.alone (· = ToolExn.os)) (rotateCredentialKeyring floats fernet run) s tr
      (some (.ok b)) s') :
    ∃ own s₁, Outcome floats fernet False run { s with lock := some run } b own s₁ ∧
      s' = { s₁ with lock := none } := by
  have hquiet : ∀ a b : SecretsDir, (Terms.alone (· = ToolExn.os)).Rely a b → b = a :=
    fun a b hab => (Terms.alone_quiet _ a).eq hab
  have hwp : WP (.alone (· = ToolExn.os))
      (fun r _ s' => ∀ b, r = .ok b → ∃ own s₁,
        Outcome floats fernet False run { s with lock := some run } b own s₁ ∧
          s' = { s₁ with lock := none }) (rotateCredentialKeyring floats fernet run) [] s := by
    refine wp_rotateCredentialKeyring (P := fun a => a = s) hone (suits_alone floats fernet run)
      (fun a b hab ha => (hquiet a b hab).trans ha) rfl (fun hkeep => hkeep.elim) ?_ (by simp)
    rintro b own own' a s₁ s₂ rfl houtcome - hrely b' ⟨⟩
    exact ⟨own, s₁, houtcome, hquiet _ _ hrely⟩
  exact hwp.exec hexec (fun _ _ => trivial) _ rfl b rfl

/-- What a runtime finds that reads the keyring `document`: it encrypts with the requested key,
and decrypts what `ring` decrypts. -/
structure Takes (fernet : Fernet Key) (run : RotationRun) (document : KeyringDocument floats fernet)
    (ring ring' : CredentialKeyring Key) : Prop where
  primary : ring'.primaryId = some document.primary
  keys : SameKeys fernet document.keys ring'.keys
  encrypt : ∀ seed value, ∃ key encoded, ring'.keys.lookup run.newPrimaryId = some key ∧
    run.newPrimaryId.encodeAscii = some encoded ∧ ring'.encrypt fernet seed value =
      .ok (tokenPrefix ++ (encoded ++ bytes ":" ++ fernet.encrypt key seed value))
  decrypt : ∀ value plaintext, ring.decrypt fernet value = .ok plaintext →
    ring'.decrypt fernet value = .ok plaintext

/-- A keyring whose primary key is the requested one encrypts with it. -/
lemma CredentialKeyring.encrypt_primary {ring : CredentialKeyring Key} {keyId : PyStr}
    (h : ring.primaryId = some keyId) (seed : ℕ) (value : Bytes) :
    ∃ key encoded, ring.keys.lookup keyId = some key ∧ keyId.encodeAscii = some encoded ∧
      ring.encrypt fernet seed value =
        .ok (tokenPrefix ++ (encoded ++ bytes ":" ++ fernet.encrypt key seed value)) := by
  obtain ⟨key, hkey⟩ := Dict.lookup_of_mem_keys (ring.primary_mem keyId (by simp [h]))
  obtain ⟨encoded, hencoded, -⟩ := isKeyId_encoded (CredentialKeyring.isKeyId_of_lookup hkey)
  refine ⟨key, encoded, hkey, hencoded, ?_⟩
  rw [CredentialKeyring.encrypt, h]
  simp only [hkey, hencoded]

/-- The keyring that a run leaves is one that the runtime accepts, with the same primary key and
keys.  The runtime then encrypts with the requested key, and decrypts to the same plaintext
whatever it decrypted before; so it does, where the run has seen no keyring, when the master key
is removed. -/
def RuntimeAgrees (floats : Json.Floats F) (fernet : Fernet Key) (run : RotationRun)
    (s s' : SecretsDir) (ring : CredentialKeyring Key) : Prop :=
  ∃ document, s'.keyring floats fernet = some document ∧ document.primary = run.newPrimaryId ∧
    (∃ ring', s'.runtimeKeyring floats fernet = .ok ring' ∧ Takes fernet run document ring ring') ∧
    (run.sees s = false → ∃ ring', SecretsDir.runtimeKeyring floats fernet
      { s' with masterKey := none } = .ok ring' ∧ Takes fernet run document ring ring')

/-- The run takes a keyring that is there for an absent one, and goes on to the master key. -/
def RotationRun.Overlooks (run : RotationRun) (s : SecretsDir) : Prop :=
  run.sees s = false ∧ run.imports = true ∧ s.masterKeyring ≠ none

/-- The text of the master key, as `read_secret` reads it. -/
def SecretsDir.masterKeyText (s : SecretsDir) : Option PyStr :=
  s.masterKey.bind fun file =>
    (secretText (file.content.take (maximumSecretBytes + 1))).toOption

/-- Each key of the keyring can be replaced by the one that an import puts under its ID, which is
the master key or the generated key. -/
def ReplacedByImport (fernet : Fernet Key) (run : RotationRun) (s : SecretsDir)
    (ring : CredentialKeyring Key) : Prop :=
  ∀ keyId key, ring.keys.lookup keyId = some key → ∃ value key',
    (run.legacyKeyId = some keyId ∧ s.masterKeyText = some value ∨
      keyId = run.newPrimaryId ∧ run.generated.bind Bytes.decodeAscii = some value) ∧
    fernetOf fernet value = some key' ∧ fernet.Replaces key key'

section

variable {run : RotationRun} {s s' : SecretsDir} {ring : CredentialKeyring Key}

/-- A runtime that reads the new keyring, in which the old keys are replaced. -/
lemma Takes.of_mirrors (hfernet : fernet.Lawful) {document : KeyringDocument floats fernet}
    {ring' : CredentialKeyring Key} {added : List Key}
    (hprimary : document.primary = run.newPrimaryId)
    (hmirrors : ring'.Mirrors fernet document added)
    (hkeys : ∀ keyId key, ring.keys.lookup keyId = some key →
      ∃ key', ring'.keys.lookup keyId = some key' ∧ fernet.Replaces key key')
    (hlegacy : ∀ key ∈ ring.legacyKeys, ∃ key' ∈ ring'.legacyKeys, fernet.Replaces key key') :
    Takes fernet run document ring ring' where
  primary := hmirrors.primary
  keys := hmirrors.keys
  encrypt := CredentialKeyring.encrypt_primary (hprimary ▸ hmirrors.primary)
  decrypt _ _ := CredentialKeyring.decrypt_of_replaced hfernet hkeys hlegacy

lemma SecretsDir.masterKeySetting_congr (h : s'.masterKey = s.masterKey) :
    s'.masterKeySetting = s.masterKeySetting := by
  rw [masterKeySetting, masterKeySetting, source, source, file, file, h]

/-- A runtime that reads a keyring in which each key under an ID is replaced under this ID, and
each further key is added again or is there under some ID. -/
lemma SecretsDir.takes_of_replaced (hfernet : fernet.Lawful)
    {document : KeyringDocument floats fernet} {masterKey : PyStr} {before added : List Key}
    (hlegacy : ring.legacyKeys = ring.keys.map (·.2) ++ before)
    (hdocument : s'.keyring floats fernet = some document)
    (hsetting : s'.masterKeySetting = .ok masterKey)
    (hadded : masterKeys fernet masterKey = .ok added)
    (hprimary : document.primary = run.newPrimaryId)
    (hkeys : ∀ keyId key, ring.keys.lookup keyId = some key → ∃ value key',
      document.keys.lookup keyId = some value ∧ fernetOf fernet value = some key' ∧
        fernet.Replaces key key')
    (hbefore : ∀ key ∈ before, key ∈ added ∨ ∃ keyId value,
      document.keys.lookup keyId = some value ∧ fernetOf fernet value = some key) :
    ∃ ring', s'.runtimeKeyring floats fernet = .ok ring' ∧
      Takes fernet run document ring ring' := by
  obtain ⟨ring', hring', hmirrors⟩ := runtimeKeyring_of_keyring hdocument hsetting hadded
  have hlookup : ∀ {keyId value key}, document.keys.lookup keyId = some value →
      fernetOf fernet value = some key → ring'.keys.lookup keyId = some key := by
    intro keyId value key hvalue hkey
    rw [hmirrors.keys.lookup, hvalue, Option.bind_some, hkey]
  have hmem : ∀ {keyId key}, ring'.keys.lookup keyId = some key → key ∈ ring'.legacyKeys := by
    intro keyId key hkey
    rw [hmirrors.legacy, List.mem_append]
    exact .inl (List.mem_map.2 ⟨_, Dict.mem_of_lookup hkey, rfl⟩)
  refine ⟨ring', hring', .of_mirrors hfernet hprimary hmirrors (fun keyId key hkey => ?_)
    fun key hkey => ?_⟩
  · obtain ⟨value, key', hvalue, hkey', hreplaces⟩ := hkeys keyId key hkey
    exact ⟨key', hlookup hvalue hkey', hreplaces⟩
  rw [hlegacy, List.mem_append] at hkey
  rcases hkey with hkey | hkey
  · obtain ⟨⟨keyId, _⟩, hp, rfl⟩ := List.mem_map.1 hkey
    obtain ⟨value, key', hvalue, hkey', hreplaces⟩ :=
      hkeys keyId _ ((Dict.lookup_eq_some_iff ring.distinct).2 hp)
    exact ⟨key', hmem (hlookup hvalue hkey'), hreplaces⟩
  · refine ⟨key, ?_, .refl key⟩
    rcases hbefore key hkey with hagain | ⟨keyId, value, hvalue, hkey'⟩
    · rw [hmirrors.legacy, List.mem_append]
      exact .inr hagain
    · exact hmem (hlookup hvalue hkey')

/-- A runtime that reads a keyring with the keys of the one from before. -/
lemma SecretsDir.takes_of_extends (hfernet : fernet.Lawful)
    (haccepted : s.runtimeKeyring floats fernet = .ok ring)
    {old document : KeyringDocument floats fernet} (hold : s.keyring floats fernet = some old)
    (hdocument : s'.keyring floats fernet = some document) (hmaster : s'.masterKey = s.masterKey)
    (hprimary : document.primary = run.newPrimaryId) (hextends : old.Extends document) :
    ∃ ring', s'.runtimeKeyring floats fernet = .ok ring' ∧
      Takes fernet run document ring ring' := by
  obtain ⟨_, masterKey, added, -, hsetting, hadded, hlegacy, -⟩ :=
    s.runtimeKeyring_eq_ok haccepted
  obtain ⟨ring₀, hring₀, hmirrors₀⟩ := runtimeKeyring_of_keyring hold hsetting hadded
  obtain rfl : ring₀ = ring := by
    rw [haccepted] at hring₀
    exact (Except.ok.inj hring₀).symm
  refine takes_of_replaced hfernet hlegacy hdocument
    ((masterKeySetting_congr hmaster).trans hsetting) hadded hprimary (fun keyId key hkey => ?_)
    fun key hkey => .inl hkey
  rw [hmirrors₀.keys.lookup, Option.bind_eq_some_iff] at hkey
  obtain ⟨value, hvalue, hmade⟩ := hkey
  exact ⟨value, key, hextends keyId value hvalue, hmade, .refl key⟩

/-- The master key of the settings is the one that the tool reads. -/
lemma SecretsDir.fernetOf_masterKey (hfernet : fernet.Lawful) {value masterKey : PyStr}
    {added : List Key} {key : Key} (htext : s.masterKeyText = some value)
    (hkey : fernetOf fernet value = some key) (hsetting : s.masterKeySetting = .ok masterKey)
    (hadded : masterKeys fernet masterKey = .ok added) : ∀ key' ∈ added, key' = key := by
  obtain ⟨file, hfile, hvalue⟩ := Option.bind_eq_some_iff.1 htext
  obtain ⟨text, hdecode, rfl⟩ := decode_of_secretText (Exceptions.toOption_eq_some.1 hvalue)
  have hsource : s.source .masterKey = ⟨none, some (some file.content)⟩ := by
    simp [source, SecretsDir.file, hfile]
  have hmasterKey : masterKey = PyStr.universalNewlines (PyStr.strip text) := by
    rw [masterKeySetting, hsource, optionalSecret_file hdecode] at hsetting
    split at hsetting
    · cases hsetting
    · exact (Except.ok.inj hsetting).symm
  intro key' hmem
  rw [masterKeys] at hadded
  split at hadded
  · cases hadded
    cases hmem
  · cases hmake : makeFernet fernet masterKey (py "MAILGATE_MASTER_KEY") with
    | error e => simp [hmake, Except.map] at hadded
    | ok made =>
      rw [hmake] at hadded
      cases hadded
      rw [List.mem_singleton] at hmem
      rw [hmem]
      exact fernetOf_universalNewlines hfernet hkey (hmasterKey ▸ makeFernet_eq_ok.1 hmake)

/-- Where there is no keyring, the runtime has no key under an ID. -/
lemma ReplacedByImport.of_no_keyring (hnone : s.masterKeyring = none)
    (haccepted : s.runtimeKeyring floats fernet = .ok ring) :
    ReplacedByImport fernet run s ring := by
  obtain ⟨masterKeyring, masterKey, added, hkeyring, -, -, -, -, hsettings⟩ :=
    s.runtimeKeyring_eq_ok haccepted
  have hsource : s.source .masterKeyring = ⟨none, none⟩ := by
    simp [SecretsDir.source, SecretsDir.file, hnone]
  obtain rfl : masterKeyring = [] := by
    rw [hsource] at hkeyring
    exact (Except.ok.inj hkeyring).symm
  obtain ⟨_, -, hkeys, -⟩ := fromSettings_masterKey hsettings
  simp [ReplacedByImport, hkeys]

/-- The tool and `read_secret` take the same text from the file of the master key. -/
lemma SecretsDir.masterKeyText_eq {file : SecretFile} {value : PyStr}
    (hfile : s.masterKey = some file)
    (hvalue : secretText (file.content.take (maximumSecretBytes + 1)) = .ok value) :
    s.masterKeyText = some value := by
  rw [masterKeyText, hfile, Option.bind_some]
  exact Exceptions.toOption_eq_some.2 hvalue

end

/-- A run that overlooks nothing, or only keys that an import replaces, leaves what the runtime
accepts. -/
lemma runtimeAgrees_of_replaced (hone : ∀ f, floats.eqInt f 1 = true → floats.Faithful f)
    (hfernet : fernet.Lawful) {run : RotationRun} {s s' : SecretsDir}
    {tr : List (Event SecretsDir)} {b : Bool} {ring : CredentialKeyring Key}
    (haccepted : s.runtimeKeyring floats fernet = .ok ring)
    (hexec : Exec (.alone (· = ToolExn.os)) (rotateCredentialKeyring floats fernet run) s tr
      (some (.ok b)) s') (hreplaced : run.Overlooks s → ReplacedByImport fernet run s ring) :
    RuntimeAgrees floats fernet run s s' ring := by
  have hseen : ∀ {old : KeyringDocument floats fernet}, s.keyring floats fernet = some old →
      run.blind = false → run.sees s = true := by
    intro old hold hsighted
    cases hfile : s.masterKeyring with
    | none => simp [SecretsDir.keyring, hfile] at hold
    | some file => simp [RotationRun.sees, hsighted, hfile]
  obtain ⟨own, s₁, houtcome, rfl⟩ := rotate_outcome hone hexec
  cases houtcome with
  | @same document _ hsighted hold hprimary =>
    refine ⟨document, hold, hprimary, ?_, fun hunseen => ?_⟩
    · exact SecretsDir.takes_of_extends hfernet haccepted hold hold rfl hprimary (.refl document)
    · simp [hseen hold hsighted] at hunseen
  | @rotated old new _ _ hsighted hold _ hwritten hprimary hextends =>
    refine ⟨new, hwritten.keyring, hprimary, ?_, fun hunseen => ?_⟩
    · exact SecretsDir.takes_of_extends hfernet haccepted hold hwritten.keyring hwritten.key
        hprimary hextends
    · simp [hseen hold hsighted] at hunseen
  | @imported new _ _ legacyKeyId value generated file himports hid hunseen _ hfile _ hvalue
      hwritten hprimary hlegacy hgenerated hnew _ =>
    obtain ⟨_, masterKey, added, -, hsetting, hadded, hlegacyKeys, -⟩ :=
      s.runtimeKeyring_eq_ok haccepted
    have htext : s.masterKeyText = some value := SecretsDir.masterKeyText_eq hfile hvalue
    -- what the runtime had under an ID is replaced, or it had nothing
    have hold : ReplacedByImport fernet run s ring := by
      by_cases hnone : s.masterKeyring = none
      · exact .of_no_keyring hnone haccepted
      · exact hreplaced ⟨hunseen, himports, hnone⟩
    have hkeys : ∀ keyId key, ring.keys.lookup keyId = some key → ∃ value' key',
        new.keys.lookup keyId = some value' ∧ fernetOf fernet value' = some key' ∧
          fernet.Replaces key key' := by
      intro keyId key hkey
      obtain ⟨value', key', ⟨hsame, hvalue'⟩ | ⟨rfl, hgenerated'⟩, hkey', hreplaces⟩ :=
        hold keyId key hkey
      · rw [hid, Option.some.injEq] at hsame
        rw [htext] at hvalue'
        exact ⟨value', key', hsame ▸ hlegacy.trans hvalue', hkey', hreplaces⟩
      · rw [hgenerated] at hgenerated'
        exact ⟨value', key', hnew.trans hgenerated', hkey', hreplaces⟩
    -- the master key is the imported one
    have himported : ∀ {added' : List Key}, ∀ key ∈ added, key ∈ added' ∨ ∃ keyId value',
        new.keys.lookup keyId = some value' ∧ fernetOf fernet value' = some key := by
      intro added' key hkey
      obtain ⟨made, hmade⟩ :=
        Option.isSome_iff_exists.1 (new.key_values _ (Dict.mem_of_lookup hlegacy))
      obtain rfl := SecretsDir.fernetOf_masterKey hfernet htext hmade hsetting hadded key hkey
      exact .inr ⟨legacyKeyId, value, hlegacy, hmade⟩
    have hsetting' := (SecretsDir.masterKeySetting_congr (s := s) hwritten.key).trans hsetting
    refine ⟨new, hwritten.keyring, hprimary, ?_, fun _ => ?_⟩
    · exact SecretsDir.takes_of_replaced hfernet hlegacyKeys hwritten.keyring hsetting' hadded
        hprimary hkeys himported
    · exact SecretsDir.takes_of_replaced hfernet hlegacyKeys hwritten.keyring rfl rfl hprimary
        hkeys himported

lemma sampleCipher_sound : sampleCipher.Sound where
  lines b := by simp [sampleCipher]
  authentic := by
    intro key key' token plaintext plaintext' h h'
    simp only [sampleCipher] at h h'
    split at h
    swap
    · cases h
    split at h'
    swap
    · cases h'
    exact (Option.some.inj h).symm.trans (Option.some.inj h')
  roundTrip := by
    intro b key hmake seed plaintext
    have hlength : key.length = 44 := by
      simp only [sampleCipher] at hmake
      split at hmake
      · rename_i h
        cases hmake
        exact h
      · cases hmake
    have htake : (key ++ plaintext).take 44 = key := by rw [← hlength, List.take_left]
    have hdrop : (key ++ plaintext).drop 44 = plaintext := by rw [← hlength, List.drop_left]
    simp only [sampleCipher, hlength, htake, hdrop, and_self, if_true]
  empty key := by
    have hnot : ¬(key.length = 44 ∧ ([] : Bytes).take 44 = key) := by
      rintro ⟨hlength, rfl⟩
      cases hlength
    exact if_neg hnot

/-- The secrets of an installation with a master key alone. -/
def masterKeySecrets : SecretsDir := { sampleSecrets with masterKeyring := none }

/-- A credential of the old key, in its envelope. -/
def oldCredential : Bytes :=
  tokenPrefix ++ (bytes "old:" ++ ((sampleKey 'b').encode.getD [] ++ bytes "pw"))

end MailGate
