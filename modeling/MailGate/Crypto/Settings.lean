import MailGate.Crypto.KeyringFile
import MailGate.Python.Newlines

/-!
# The keyring of the runtime

The secrets that the settings read, and the keyring that `CredentialKeyring.from_settings` makes
of them.  A document that the rotation tool accepts is one that the runtime accepts.
-/

namespace MailGate

open Json (Floats)

/-! ## Settings -/

/-- Where a secret is configured. -/
structure SecretSource where
  /-- `os.getenv(name)`. -/
  direct : Option PyStr
  /-- The file of `os.getenv(f"{name}_FILE")`, and its content if it can be read. -/
  file : Option (Option Bytes)

/-- One of the two variables is set. -/
def SecretSource.configured (source : SecretSource) : Bool :=
  source.direct.isSome || source.file.isSome

/-- `ConfigurationError(message)`. -/
def configurationError (message : String) : CryptoExn := .configuration (py message)

/-- `path.read_text(encoding="utf-8")`; `none` is the `UnicodeDecodeError`. -/
def readText (content : Bytes) : Option PyStr :=
  (Bytes.decodeUtf8 false content).map PyStr.universalNewlines

/-- `get_secret`. -/
def getSecret (name : String) (source : SecretSource) (minimumLength : ℕ) :
    Except CryptoExn PyStr := do
  if source.direct.isSome && source.file.isSome then
    .error (configurationError ("Set either " ++ name ++ " or " ++ name ++ "_FILE, not both"))
  else
    let value ← match source.file, source.direct with
      | some none, _ => .error (configurationError ("Unable to read " ++ name ++ "_FILE"))
      | some (some content), _ =>
          match readText content with
          | none => .error .other
          | some text => .ok (PyStr.strip text)
      | none, some value => .ok (PyStr.strip value)
      | none, none =>
          .error (configurationError ("Set " ++ name ++ "_FILE (preferred) or " ++ name))
    if value.length < minimumLength then
      .error (configurationError (name ++ " must contain at least " ++ toString minimumLength ++
        " characters"))
    else return value

/-- The settings of `crypto.py`. -/
structure KeySettings where
  masterKeyring : PyStr
  masterKey : PyStr

/-- A secret that may be absent. -/
def optionalSecret (name : String) (source : SecretSource) (minimumLength : ℕ) :
    Except CryptoExn PyStr :=
  if source.configured then getSecret name source minimumLength else .ok []

/-- The part of `settings.py` that reads the two secrets. -/
def keySettings (keyringSource keySource : SecretSource) : Except CryptoExn KeySettings := do
  let masterKeyring ← optionalSecret "MAILGATE_MASTER_KEYRING" keyringSource 1
  let masterKey ← optionalSecret "MAILGATE_MASTER_KEY" keySource 44
  if masterKeyring = [] ∧ masterKey = [] then
    .error (configurationError
      ("Set MAILGATE_MASTER_KEYRING_FILE or MAILGATE_MASTER_KEY_FILE (preferred), " ++
        "or the corresponding direct value"))
  else return ⟨masterKeyring, masterKey⟩

/-! ## `from_settings` -/

section

variable {F Key : Type} (floats : Floats F) (fernet : Fernet Key)

/-- `_make_fernet`. -/
def makeFernet (value description : PyStr) : Except CryptoExn Key :=
  match fernetOf fernet value with
  | none => .error (.configuration (description ++ py " is not a valid Fernet key"))
  | some key => .ok key

/-- What the master key adds to the legacy keys. -/
def masterKeys (masterKey : PyStr) : Except CryptoExn (List Key) :=
  if masterKey = [] then .ok []
  else (makeFernet fernet masterKey (py "MAILGATE_MASTER_KEY")).map ([·])

/-- The loop of `from_settings` over the entries. -/
def readEntries (keys : List (PyStr × Key)) :
    List (PyStr × Json F) → Except CryptoExn (List (PyStr × Key))
  | [] => .ok keys
  | (keyId, value) :: entries =>
      if isKeyId keyId = false then
        .error (configurationError "MAILGATE_MASTER_KEYRING contains an invalid key ID")
      else
        match value with
        | .string value => do
            let key ← makeFernet fernet value (py "Fernet key " ++ keyId)
            readEntries (Dict.set keys keyId key) entries
        | _ => .error (.configuration (py "Fernet key " ++ keyId ++ py " must be a string"))

variable {fernet} in
/-- The keys of a keyring have key IDs, and no two of them the same. -/
lemma readEntries_valid {entries : List (PyStr × Json F)} {keys keys' : List (PyStr × Key)}
    (h : readEntries fernet keys entries = .ok keys') (hids : ∀ p ∈ keys, isKeyId p.1 = true)
    (hdistinct : (keys.map (·.1)).Nodup) :
    (∀ p ∈ keys', isKeyId p.1 = true) ∧ (keys'.map (·.1)).Nodup := by
  induction entries generalizing keys with
  | nil =>
    cases h
    exact ⟨hids, hdistinct⟩
  | cons entry entries ih =>
    obtain ⟨keyId, value⟩ := entry
    by_cases hid : isKeyId keyId = true
    swap
    · simp [readEntries, hid] at h
    cases value with
    | string value =>
      simp only [readEntries, hid, Bool.true_eq_false, if_false, Exceptions.bind_eq_ok] at h
      obtain ⟨key, -, hrest⟩ := h
      refine ih hrest (fun p hp => ?_) (Dict.nodup_set hdistinct)
      rcases Dict.mem_set hp with hp | rfl
      · exact hids p hp
      · exact hid
    | scalar v => simp [readEntries, hid] at h
    | array vs => simp [readEntries, hid] at h
    | object ms => simp [readEntries, hid] at h

variable {fernet} in
/-- The keys of a keyring are made of the values of the entries. -/
lemma readEntries_made {entries : List (PyStr × Json F)} {keys keys' : List (PyStr × Key)}
    (h : readEntries fernet keys entries = .ok keys')
    (hmade : ∀ p ∈ keys, ∃ value, fernetOf fernet value = some p.2) :
    ∀ p ∈ keys', ∃ value, fernetOf fernet value = some p.2 := by
  induction entries generalizing keys with
  | nil =>
    cases h
    exact hmade
  | cons entry entries ih =>
    obtain ⟨keyId, value⟩ := entry
    by_cases hid : isKeyId keyId = true
    swap
    · simp [readEntries, hid] at h
    cases value with
    | string value =>
      simp only [readEntries, hid, Bool.true_eq_false, if_false, Exceptions.bind_eq_ok] at h
      obtain ⟨key, hkey, hrest⟩ := h
      refine ih hrest fun p hp => ?_
      rcases Dict.mem_set hp with hp | rfl
      · exact hmade p hp
      · refine ⟨value, ?_⟩
        rw [makeFernet] at hkey
        split at hkey
        · cases hkey
        · rename_i made hvalue
          cases hkey
          exact hvalue
    | scalar v => simp [readEntries, hid] at h
    | array vs => simp [readEntries, hid] at h
    | object ms => simp [readEntries, hid] at h

/-- `from_settings` after parsing. -/
def keyringOfDocument (masterKey : PyStr) : Json F → Except CryptoExn (CredentialKeyring Key)
  | .object members =>
      if hasKeyringFields members = false then
        .error (configurationError
          "MAILGATE_MASTER_KEYRING must contain exactly version, primary and keys")
      else if (Json.member members "version").isOne floats = false then
        .error (configurationError "Unsupported MAILGATE_MASTER_KEYRING version")
      else
        match Json.member members "primary" with
        | .string primary =>
            if isKeyId primary = false then
              .error (configurationError "MAILGATE_MASTER_KEYRING primary is not a valid key ID")
            else
              match Json.member members "keys" with
              | .object entries =>
                  if entries = [] then
                    .error (configurationError
                      "MAILGATE_MASTER_KEYRING keys must be a non-empty object")
                  else
                    match hkeys : readEntries fernet [] entries with
                    | .error e => .error e
                    | .ok keys =>
                        if hprimary : primary ∈ keys.map (·.1) then do
                          let added ← masterKeys fernet masterKey
                          return {
                            primaryId := some primary
                            keys := keys
                            legacyKeys := keys.map (·.2) ++ added
                            key_ids := (readEntries_valid hkeys (by simp) .nil).1
                            distinct := (readEntries_valid hkeys (by simp) .nil).2
                            primary_mem := by simpa using hprimary
                            legacy_ne := by
                              obtain ⟨p, hp, -⟩ := List.mem_map.1 hprimary
                              intro hnil
                              have hkeys := List.map_eq_nil_iff.1 (List.append_eq_nil_iff.1 hnil).1
                              rw [hkeys] at hp
                              cases hp }
                        else .error (configurationError
                          "MAILGATE_MASTER_KEYRING primary is absent from keys")
              | _ => .error (configurationError
                  "MAILGATE_MASTER_KEYRING keys must be a non-empty object")
        | _ => .error (configurationError
            "MAILGATE_MASTER_KEYRING primary is not a valid key ID")
  | _ => .error (configurationError
      "MAILGATE_MASTER_KEYRING must contain exactly version, primary and keys")

/-- `CredentialKeyring.from_settings`. -/
def fromSettings (settings : KeySettings) : Except CryptoExn (CredentialKeyring Key) :=
  if settings.masterKeyring = [] then
    if settings.masterKey = [] then
      .error (configurationError "No mailbox credential encryption key is configured")
    else do
      let legacy ← makeFernet fernet settings.masterKey (py "MAILGATE_MASTER_KEY")
      return {
        primaryId := none
        keys := []
        legacyKeys := [legacy]
        key_ids := by simp
        distinct := .nil
        primary_mem := by simp
        legacy_ne := CredentialKeyring.singleton_ne legacy }
  else
    match Json.loads floats Json.rejectDuplicateKeys settings.masterKeyring with
    | .error .decode => .error (configurationError "MAILGATE_MASTER_KEYRING must be valid JSON")
    | .error (.duplicate key) => .error (.configuration (py "Duplicate keyring field: " ++ key))
    | .error _ => .error .other
    | .ok document => keyringOfDocument floats fernet settings.masterKey document

end

/-! ## What the tool accepts -/

section

variable {F Key : Type} {floats : Floats F} {fernet : Fernet Key}

/-- The keys of the runtime are those of the document. -/
def SameKeys (fernet : Fernet Key) (keys : List (PyStr × PyStr)) (keys' : List (PyStr × Key)) :
    Prop :=
  List.Forall₂ (fun p q => q.1 = p.1 ∧ fernetOf fernet p.2 = some q.2) keys keys'

lemma SameKeys.lookup {keys : List (PyStr × PyStr)} {keys' : List (PyStr × Key)}
    (h : SameKeys fernet keys keys') (keyId : PyStr) :
    keys'.lookup keyId = (keys.lookup keyId).bind (fernetOf fernet) := by
  induction h with
  | nil => rfl
  | @cons p q keys keys' hpq _ ih =>
    rw [Dict.lookup_cons, Dict.lookup_cons, ih, hpq.1]
    split
    · rw [Option.bind_some, hpq.2]
    · rfl

lemma SameKeys.map_fst {keys : List (PyStr × PyStr)} {keys' : List (PyStr × Key)}
    (h : SameKeys fernet keys keys') : keys'.map (·.1) = keys.map (·.1) := by
  induction h with
  | nil => rfl
  | cons hpq _ ih => rw [List.map_cons, List.map_cons, hpq.1, ih]

lemma makeFernet_eq_ok {value description : PyStr} {key : Key} :
    makeFernet fernet value description = .ok key ↔ fernetOf fernet value = some key := by
  rw [makeFernet]
  cases fernetOf fernet value with
  | none => simp
  | some key' => simp

/-- The loop accepts the entries of a document, in their order. -/
lemma readEntries_entries {keys : List (PyStr × PyStr)} {before : List (PyStr × Key)}
    (hids : ∀ p ∈ keys, isKeyId p.1 = true)
    (hvalues : ∀ p ∈ keys, (fernetOf fernet p.2).isSome = true)
    (hdistinct : (before.map (·.1) ++ keys.map (·.1)).Nodup) :
    ∃ keys', SameKeys fernet keys keys' ∧
      readEntries fernet before (KeyringDocument.entries keys : List (PyStr × Json F)) =
        .ok (before ++ keys') := by
  induction keys generalizing before with
  | nil => exact ⟨[], .nil, by rw [List.append_nil]; rfl⟩
  | cons p keys ih =>
    rw [List.forall_mem_cons] at hids hvalues
    obtain ⟨key, hkey⟩ := Option.isSome_iff_exists.1 hvalues.1
    have hfresh : p.1 ∉ before.map (·.1) := by
      intro hmem
      exact (List.nodup_append.1 hdistinct).2.2 p.1 hmem p.1 (by simp) rfl
    have hnext : ((before ++ [(p.1, key)]).map (·.1) ++ keys.map (·.1)).Nodup := by
      simpa using hdistinct
    obtain ⟨keys', hsame, hrest⟩ := ih hids.2 hvalues.2 hnext
    refine ⟨(p.1, key) :: keys', .cons ⟨rfl, hkey⟩ hsame, ?_⟩
    rw [KeyringDocument.entries] at hrest
    simp only [KeyringDocument.entries, List.map_cons, readEntries, hids.1, Bool.true_eq_false,
      if_false, makeFernet_eq_ok.2 hkey, Exceptions.ok_bind, Dict.set_of_not_mem hfresh, hrest,
      List.append_assoc, List.singleton_append]

/-- The keyring of the runtime has the keys of the document, and tries further keys after them
on a token without an envelope. -/
structure CredentialKeyring.Mirrors (fernet : Fernet Key) (ring : CredentialKeyring Key)
    (document : KeyringDocument floats fernet) (added : List Key) : Prop where
  primary : ring.primaryId = some document.primary
  keys : SameKeys fernet document.keys ring.keys
  legacy : ring.legacyKeys = ring.keys.map (·.2) ++ added

lemma keyringOfDocument_of_checkDocument {json : Json F} {document : KeyringDocument floats fernet}
    (h : checkDocument floats fernet json = .ok document) {masterKey : PyStr} {added : List Key}
    (hadded : masterKeys fernet masterKey = .ok added) :
    ∃ ring, keyringOfDocument floats fernet masterKey json = .ok ring ∧
      ring.Mirrors fernet document added := by
  obtain ⟨members, rfl, hfields, hversion, hprimary, hkeys⟩ :=
    KeyringDocument.checkDocument_eq_ok h
  have hdistinct : (([] : List (PyStr × Key)).map (·.1) ++ document.keys.map (·.1)).Nodup :=
    document.distinct
  obtain ⟨keys, hsame, hread⟩ := readEntries_entries (F := F) document.key_ids
    document.key_values hdistinct
  rw [List.nil_append] at hread
  have hid : isKeyId document.primary = true := by
    obtain ⟨p, hp, hpid⟩ := List.mem_map.1 document.primary_mem
    exact hpid ▸ document.key_ids p hp
  have hne : (KeyringDocument.entries document.keys : List (PyStr × Json F)) ≠ [] := by
    intro hnil
    have hmem := document.primary_mem
    rw [List.map_eq_nil_iff.1 hnil] at hmem
    cases hmem
  have hmem : document.primary ∈ keys.map (·.1) := by
    rw [hsame.map_fst]
    exact document.primary_mem
  unfold keyringOfDocument
  dsimp only
  rw [if_neg (by simp [hfields]), if_neg (by simp [hversion, document.version_one])]
  simp only [hprimary, hid, Bool.true_eq_false, if_false, hkeys, if_neg hne]
  split
  · rename_i e he
    rw [hread] at he
    cases he
  · rename_i keys' hk
    obtain rfl : keys = keys' := by
      rw [hread] at hk
      exact Except.ok.inj hk
    rw [dif_pos hmem, hadded]
    exact ⟨_, rfl, rfl, hsame, rfl⟩

/-- A keyring that is accepted was accepted together with the master key, which it tries after
its own keys. -/
lemma masterKeys_of_keyringOfDocument {json : Json F} {masterKey : PyStr}
    {ring : CredentialKeyring Key} (h : keyringOfDocument floats fernet masterKey json = .ok ring) :
    ∃ added, masterKeys fernet masterKey = .ok added ∧
      ring.legacyKeys = ring.keys.map (·.2) ++ added ∧
      ∀ p ∈ ring.keys, ∃ value, fernetOf fernet value = some p.2 := by
  unfold keyringOfDocument at h
  split at h
  swap
  · cases h
  split at h
  · cases h
  split at h
  · cases h
  split at h
  swap
  · cases h
  split at h
  · cases h
  split at h
  swap
  · cases h
  split at h
  · cases h
  split at h
  · cases h
  rename_i keys hkeys
  split at h
  swap
  · cases h
  obtain ⟨added, hadded, hring⟩ := Exceptions.bind_eq_ok.1 h
  cases hring
  exact ⟨added, hadded, rfl, readEntries_made hkeys (by simp)⟩

/-- What the tool reads in a text, the runtime reads in the same text with other line ends. -/
lemma fromSettings_of_parseKeyring {raw : PyStr} {document : KeyringDocument floats fernet}
    (h : parseKeyring floats fernet raw = .ok document) {masterKey : PyStr} {added : List Key}
    (hadded : masterKeys fernet masterKey = .ok added) :
    ∃ ring, fromSettings floats fernet ⟨PyStr.universalNewlines raw, masterKey⟩ = .ok ring ∧
      ring.Mirrors fernet document added := by
  have hparse := h
  unfold parseKeyring at hparse
  split at hparse
  · cases hparse
  · cases hparse
  · cases hparse
  rename_i json hjson
  rw [← Json.loads_universalNewlines] at hjson
  have hne : PyStr.universalNewlines raw ≠ [] := by
    intro hnil
    rw [hnil] at hjson
    cases hjson
  obtain ⟨ring, hring, hmirrors⟩ := keyringOfDocument_of_checkDocument hparse hadded
  refine ⟨ring, ?_, hmirrors⟩
  simp only [fromSettings, if_neg hne, hjson]
  exact hring

lemma masterKeys_of_fromSettings {settings : KeySettings} {ring : CredentialKeyring Key}
    (h : fromSettings floats fernet settings = .ok ring) :
    ∃ added, masterKeys fernet settings.masterKey = .ok added ∧
      ring.legacyKeys = ring.keys.map (·.2) ++ added ∧
      ∀ p ∈ ring.keys, ∃ value, fernetOf fernet value = some p.2 := by
  unfold fromSettings at h
  split at h
  · split at h
    · cases h
    rename_i hne
    obtain ⟨legacy, hlegacy, hring⟩ := Exceptions.bind_eq_ok.1 h
    cases hring
    exact ⟨[legacy], by rw [masterKeys, if_neg hne, hlegacy]; rfl, rfl, by simp⟩
  · split at h
    · cases h
    · cases h
    · cases h
    exact masterKeys_of_keyringOfDocument h

/-- The keyring of an installation with a master key alone. -/
lemma fromSettings_masterKey {masterKey : PyStr} {ring : CredentialKeyring Key}
    (h : fromSettings floats fernet ⟨[], masterKey⟩ = .ok ring) :
    ∃ key, fernetOf fernet masterKey = some key ∧ ring.keys = [] ∧ ring.legacyKeys = [key] := by
  rw [fromSettings, if_pos rfl] at h
  split at h
  · cases h
  obtain ⟨key, hkey, hring⟩ := Exceptions.bind_eq_ok.1 h
  cases hring
  exact ⟨key, makeFernet_eq_ok.1 hkey, rfl, rfl⟩

end

end MailGate
