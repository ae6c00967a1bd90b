import MailGate.Lib.Dict
import MailGate.Lib.Exceptions
import MailGate.Python.Bytes

/-!
# The keyring of the mailbox credentials

`crypto.py`: a stored credential is a Fernet token of the master key, or an envelope that
names the key of its token.  A keyring has a primary key for new envelopes, and tries its keys
one after the other on a token without an envelope.
-/

namespace MailGate

/-- `cryptography.fernet.Fernet`, for keys of the type `Key`. -/
structure Fernet (Key : Type) where
  /-- `Fernet(key)`; `none` is the `ValueError`. -/
  make : Bytes → Option Key
  /-- `encrypt` with the time and the random block of this number. -/
  encrypt : Key → ℕ → Bytes → Bytes
  /-- `decrypt`; `none` is `InvalidToken`. -/
  decrypt : Key → Bytes → Option Bytes

/-- Exceptions of `crypto.py`. -/
inductive CryptoExn where
  /-- `ConfigurationError`. -/
  | configuration (message : PyStr)
  /-- `CredentialDecryptionError`. -/
  | decryption (message : PyStr)
  /-- `KeyError`, `IndexError` and `UnicodeEncodeError`. -/
  | other
deriving DecidableEq, Repr

/-- `[A-Za-z0-9._-]`. -/
def PyChar.isKeyIdChar (c : PyChar) : Bool :=
  PyChar.isAlnum c || c == ofChar '.' || c == ofChar '_' || c == ofChar '-'

/-- `KEY_ID_RE.fullmatch(value)`. -/
def isKeyId : PyStr → Bool
  | [] => false
  | c :: cs => PyChar.isAlnum c && cs.length ≤ 63 && cs.all PyChar.isKeyIdChar

/-- `TOKEN_PREFIX`. -/
def tokenPrefix : Bytes := bytes "mgk1:"

/-- `CredentialKeyring`; `from_settings` builds no other ones. -/
structure CredentialKeyring (Key : Type) where
  primaryId : Option PyStr
  keys : List (PyStr × Key)
  legacyKeys : List Key
  key_ids : ∀ p ∈ keys, isKeyId p.1 = true
  distinct : (keys.map (·.1)).Nodup
  primary_mem : ∀ id ∈ primaryId, id ∈ keys.map (·.1)
  legacy_ne : legacyKeys ≠ []

namespace CredentialKeyring

lemma singleton_ne {Key : Type} (key : Key) : [key] ≠ [] := List.cons_ne_nil key []

variable {Key : Type} (fernet : Fernet Key) (keyring : CredentialKeyring Key)

/-- `identify`: the key of an envelope, and the token. -/
def identify (value : Bytes) : Except CryptoExn (Option PyStr × Bytes) :=
  if ¬ value.startswith tokenPrefix then .ok (none, value)
  else
    match value.splitMax 0x3A 2 with
    | [_, id, token] =>
      match id.decodeAscii with
      | none => .error (.decryption (py "Stored credential has an invalid key ID"))
      | some keyId =>
        if isKeyId keyId = false ∨ token = [] then
          .error (.decryption (py "Stored credential has an invalid keyring envelope"))
        else .ok (some keyId, token)
    | _ => .error (.decryption (py "Stored credential has an invalid keyring envelope"))

/-- `encrypt`. -/
def encrypt (seed : ℕ) (value : Bytes) : Except CryptoExn Bytes :=
  match keyring.primaryId with
  | none =>
    match keyring.legacyKeys with
    | [] => .error .other
    | key :: _ => .ok (fernet.encrypt key seed value)
  | some id =>
    match keyring.keys.lookup id, id.encodeAscii with
    | some key, some encoded =>
      .ok (tokenPrefix ++ (encoded ++ bytes ":" ++ fernet.encrypt key seed value))
    | _, _ => .error .other

/-- The loop of `decrypt` over the legacy keys. -/
def tryKeys (token : Bytes) : List Key → Except CryptoExn Bytes
  | [] => .error (.decryption (py "Stored credential cannot be decrypted"))
  | key :: keys =>
    match fernet.decrypt key token with
    | some plaintext => .ok plaintext
    | none => tryKeys token keys

/-- `decrypt`. -/
def decrypt (value : Bytes) : Except CryptoExn Bytes := do
  match ← identify value with
  | (some keyId, token) =>
    match keyring.keys.lookup keyId with
    | none =>
      .error (.decryption (py "Stored credential references unavailable key ID " ++ keyId))
    | some key =>
      match fernet.decrypt key token with
      | none => .error (.decryption (py "Stored credential cannot be decrypted"))
      | some plaintext => .ok plaintext
  | (none, token) => tryKeys fernet token keyring.legacyKeys

/-- `uses_primary`. -/
def usesPrimary (value : Bytes) : Except CryptoExn Bool := do
  let (keyId, _) ← identify value
  return keyId = keyring.primaryId

end CredentialKeyring

/-- `reencrypt_secret`, with the keyring that `credential_keyring()` returns. -/
def reencryptSecret {Key : Type} (fernet : Fernet Key)
    (credentialKeyring : Except CryptoExn (CredentialKeyring Key)) (seed : ℕ) (value : Bytes) :
    Except CryptoExn (Bytes × Bool) := do
  let keyring ← credentialKeyring
  let plaintext ← keyring.decrypt fernet value
  if ← keyring.usesPrimary value then return (value, false)
  let rotated ← keyring.encrypt fernet seed plaintext
  if (← keyring.decrypt fernet rotated) ≠ plaintext then
    .error (.decryption (py "Rotated credential failed verification"))
  else return (rotated, true)

/-! ## Key IDs and envelopes -/

lemma PyChar.isKeyIdChar_of_isAlnum {c : PyChar} (h : PyChar.isAlnum c = true) :
    c.isKeyIdChar = true := by
  simp [isKeyIdChar, h]

/-- A character of a key ID is an ASCII character other than the colon. -/
lemma PyChar.isKeyIdChar_ascii {c : PyChar} (h : c.isKeyIdChar = true) :
    c.val < 0x80 ∧ c.val ≠ 0x3A := by
  have hdot : (ofChar '.').val = 0x2E := by decide
  have hunder : (ofChar '_').val = 0x5F := by decide
  have hhyphen : (ofChar '-').val = 0x2D := by decide
  simp only [isKeyIdChar, isAlnum, isDigit, Bool.or_eq_true, Bool.and_eq_true,
    decide_eq_true_eq, beq_iff_eq, Fin.ext_iff, hdot, hunder, hhyphen] at h
  omega

lemma isKeyId_chars {id : PyStr} (h : isKeyId id = true) : ∀ c ∈ id, c.isKeyIdChar = true := by
  cases id with
  | nil => simp
  | cons c cs =>
    simp only [isKeyId, Bool.and_eq_true, List.all_eq_true] at h
    rw [List.forall_mem_cons]
    exact ⟨PyChar.isKeyIdChar_of_isAlnum h.1.1, h.2⟩

/-- A key ID has an encoding, in which no colon occurs. -/
lemma isKeyId_encoded {id : PyStr} (h : isKeyId id = true) :
    ∃ encoded, id.encodeAscii = some encoded ∧ (0x3A : UInt8) ∉ encoded := by
  have hchars := fun c hc => PyChar.isKeyIdChar_ascii (isKeyId_chars h c hc)
  obtain ⟨encoded, hencoded⟩ := PyStr.encodeAscii_isSome fun c hc => (hchars c hc).1
  refine ⟨encoded, hencoded, ?_⟩
  intro hmem
  obtain ⟨c, hc, hval⟩ := PyStr.mem_of_mem_encodeAscii hencoded hmem
  exact (hchars c hc).2 hval

namespace CredentialKeyring

variable {Key : Type} {fernet : Fernet Key} {keyring : CredentialKeyring Key}

/-- What `identify` finds in an envelope. -/
lemma identify_envelope {id : PyStr} (hid : isKeyId id = true) {encoded : Bytes}
    (hencoded : id.encodeAscii = some encoded) (token : Bytes) :
    identify (tokenPrefix ++ (encoded ++ bytes ":" ++ token)) =
      if token = [] then
        .error (.decryption (py "Stored credential has an invalid keyring envelope"))
      else .ok (some id, token) := by
  obtain ⟨encoded', hencoded', hcolon⟩ := isKeyId_encoded hid
  obtain rfl : encoded = encoded' := by
    rw [hencoded'] at hencoded
    exact (Option.some.inj hencoded).symm
  have hleading :
      (tokenPrefix ++ (encoded ++ bytes ":" ++ token)).startswith tokenPrefix = true := by
    simp [Bytes.startswith]
  have hsplit : Bytes.splitMax 0x3A 2 (tokenPrefix ++ (encoded ++ bytes ":" ++ token)) =
      [bytes "mgk1", encoded, token] := by
    have hshape : tokenPrefix ++ (encoded ++ bytes ":" ++ token) =
        bytes "mgk1" ++ 0x3A :: (encoded ++ 0x3A :: token) := by
      simp [tokenPrefix, bytes]
    rw [hshape, Bytes.splitMax_append (by decide), Bytes.splitMax_append hcolon,
      Bytes.splitMax_zero]
  rw [identify, hleading, hsplit]
  simp [PyStr.decodeAscii_of_encodeAscii hencoded, hid]

lemma isKeyId_of_lookup {id : PyStr} {key : Key} (h : keyring.keys.lookup id = some key) :
    isKeyId id = true :=
  keyring.key_ids (id, key) (Dict.mem_of_lookup h)

/-! ## Envelopes of one key -/

/-- The credential is an envelope of the key with this ID, and holds the plaintext. -/
def Enveloped (fernet : Fernet Key) (keyring : CredentialKeyring Key) (id : PyStr)
    (plaintext value : Bytes) : Prop :=
  ∃ token key, identify value = .ok (some id, token) ∧ keyring.keys.lookup id = some key ∧
    fernet.decrypt key token = some plaintext

variable {id : PyStr} {plaintext value : Bytes}

/-- Decryption of an envelope, and what it finds. -/
lemma enveloped_iff {token : Bytes} (hidentify : identify value = .ok (some id, token)) :
    Enveloped fernet keyring id plaintext value ↔
      keyring.decrypt fernet value = .ok plaintext := by
  unfold Enveloped decrypt
  rw [hidentify]
  constructor
  · rintro ⟨token', key, heq, hkey, hplain⟩
    cases heq
    simp only [Exceptions.ok_bind, hkey, hplain]
  · intro h
    simp only [Exceptions.ok_bind] at h
    split at h
    · cases h
    · rename_i key hkey
      split at h
      · cases h
      · rename_i plain hplain
        cases h
        exact ⟨token, key, rfl, hkey, hplain⟩

lemma Enveloped.decrypt (h : Enveloped fernet keyring id plaintext value) :
    keyring.decrypt fernet value = .ok plaintext := by
  have h' := h
  obtain ⟨token, key, hidentify, -⟩ := h'
  exact (enveloped_iff hidentify).1 h

/-- What a keyring encrypts is an envelope of its primary key. -/
lemma encrypt_enveloped (hprimary : keyring.primaryId = some id) {seed : ℕ} {c plaintext' : Bytes}
    (hencrypt : keyring.encrypt fernet seed plaintext' = .ok c)
    (hdecrypt : keyring.decrypt fernet c = .ok plaintext) :
    Enveloped fernet keyring id plaintext c := by
  rw [encrypt, hprimary] at hencrypt
  simp only at hencrypt
  split at hencrypt
  swap
  · cases hencrypt
  rename_i key encoded hkey hencoded
  cases hencrypt
  have hidentify := identify_envelope (isKeyId_of_lookup hkey) hencoded
    (fernet.encrypt key seed plaintext')
  split at hidentify
  · -- such an envelope is not decrypted
    rw [CredentialKeyring.decrypt, hidentify] at hdecrypt
    cases hdecrypt
  · exact (enveloped_iff hidentify).2 hdecrypt

/-- A re-encryption that returns has returned an envelope of the primary key with the same
plaintext; where it has changed nothing, this is the credential itself. -/
lemma reencryptSecret_eq_ok (hprimary : keyring.primaryId = some id) {seed : ℕ} {c : Bytes}
    {changed : Bool}
    (h : reencryptSecret fernet (.ok keyring) seed value = .ok (c, changed)) :
    ∃ plaintext, keyring.decrypt fernet value = .ok plaintext ∧
      Enveloped fernet keyring id plaintext c ∧ (changed = false → c = value) := by
  simp only [reencryptSecret, Exceptions.ok_bind, Exceptions.bind_eq_ok] at h
  obtain ⟨plaintext, hplaintext, primary, husesPrimary, h⟩ := h
  refine ⟨plaintext, hplaintext, ?_⟩
  cases primary with
  | true =>
    cases h
    refine ⟨?_, fun _ => rfl⟩
    simp only [usesPrimary, Exceptions.bind_eq_ok] at husesPrimary
    obtain ⟨⟨keyId, token⟩, hidentify, hkeyId⟩ := husesPrimary
    have hid : keyId = some id := by
      rw [hprimary] at hkeyId
      simpa using Except.ok.inj hkeyId
    rw [hid] at hidentify
    exact (enveloped_iff hidentify).2 hplaintext
  | false =>
    simp only [Bool.false_eq_true, if_false, Exceptions.bind_eq_ok] at h
    obtain ⟨rotated, hencrypt, verified, hverified, h⟩ := h
    split at h
    · cases h
    · rename_i hsame
      cases h
      rw [not_not.1 hsame] at hverified
      exact ⟨encrypt_enveloped hprimary hencrypt hverified, by simp⟩

/-- An envelope of the primary key is left as it is. -/
lemma reencryptSecret_of_enveloped (hprimary : keyring.primaryId = some id)
    (h : Enveloped fernet keyring id plaintext value) (seed : ℕ) :
    reencryptSecret fernet (.ok keyring) seed value = .ok (value, false) := by
  have hdecrypt := h.decrypt
  obtain ⟨token, key, hidentify, -⟩ := h
  have huses : keyring.usesPrimary value = .ok true := by
    simp [usesPrimary, hidentify, hprimary]
  simp only [reencryptSecret, Exceptions.ok_bind, hdecrypt, huses, if_true]
  rfl

/-- The keyring that has the primary key alone, and no master key. -/
def reduced (keyring : CredentialKeyring Key) (id : PyStr) (key : Key)
    (h : keyring.keys.lookup id = some key) : CredentialKeyring Key where
  primaryId := some id
  keys := [(id, key)]
  legacyKeys := [key]
  key_ids := by
    intro p hp
    rw [List.mem_singleton.1 hp]
    exact isKeyId_of_lookup h
  distinct := List.nodup_singleton _
  primary_mem := by simp
  legacy_ne := singleton_ne key

/-- It still opens the envelopes of the primary key. -/
lemma Enveloped.reduced {key : Key} (h : Enveloped fernet keyring id plaintext value)
    (hkey : keyring.keys.lookup id = some key) :
    Enveloped fernet (keyring.reduced id key hkey) id plaintext value := by
  obtain ⟨token, key', hidentify, hkey', hplain⟩ := h
  obtain rfl : key = key' := by
    rw [hkey] at hkey'
    exact Option.some.inj hkey'
  exact ⟨token, key, hidentify, by simp [CredentialKeyring.reduced], hplain⟩

end CredentialKeyring

end MailGate
