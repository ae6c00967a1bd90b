import MailGate.Crypto.Keyring
import MailGate.Python.Json.RoundTrip
import MailGate.Python.Utf8

/-!
# The keyring file

`_load_keyring` of `rotate_credential_keyring.py`, and the documents that it accepts.  A
document that the tool writes is one that it reads again.
-/

namespace MailGate

open Json (Floats)

/-- Exceptions of the rotation tools. -/
inductive ToolExn where
  /-- `RotationToolError`. -/
  | tool (message : PyStr)
  /-- `FileExistsError`. -/
  | fileExists
  /-- Any other `OSError`. -/
  | os
  /-- Any other exception. -/
  | other
deriving DecidableEq, Repr

/-- `RotationToolError(message)`. -/
def rotationToolError (message : String) : ToolExn := .tool (py message)

/-- `MAXIMUM_KEYS`. -/
def maximumKeys : ℕ := 32

/-- `Fernet(value.encode("ascii"))`; `none` is a `UnicodeEncodeError` or a `ValueError`. -/
def fernetOf {Key : Type} (fernet : Fernet Key) (value : PyStr) : Option Key :=
  value.encodeAscii.bind fernet.make

/-- `{"version", "primary", "keys"}`. -/
def keyringFields : List PyStr := [py "version", py "primary", py "keys"]

/-- `set(document) == {"version", "primary", "keys"}`. -/
def hasKeyringFields {F : Type} (members : List (PyStr × Json F)) : Bool :=
  (members.all fun m => decide (m.1 ∈ keyringFields)) &&
    keyringFields.all fun k => decide (k ∈ members.map (·.1))

/-- `document[name]` of a member that is there. -/
def Json.member {F : Type} (members : List (PyStr × Json F)) (name : String) : Json F :=
  (members.lookup (py name)).getD (.scalar .null)

/-- The documents that `_load_keyring` accepts. -/
structure KeyringDocument {F Key : Type} (floats : Floats F) (fernet : Fernet Key) where
  version : Json F
  primary : PyStr
  keys : List (PyStr × PyStr)
  version_one : version.isOne floats = true
  key_ids : ∀ p ∈ keys, isKeyId p.1 = true
  key_values : ∀ p ∈ keys, (fernetOf fernet p.2).isSome = true
  distinct : (keys.map (·.1)).Nodup
  bounded : keys.length ≤ maximumKeys
  primary_mem : primary ∈ keys.map (·.1)

section

variable {F Key : Type} (floats : Floats F) (fernet : Fernet Key)

/-! ## Reading -/

/-- `_validate_key_id`; what it returns is a key ID. -/
def validateKeyId (value : PyStr) : Except ToolExn (PLift (isKeyId value = true)) :=
  if h : isKeyId value = true then .ok ⟨h⟩
  else .error (rotationToolError
    "Key IDs must be 1-64 ASCII letters, digits, dots, underscores or hyphens")

/-- `_validate_fernet_key`; what it returns is a Fernet key. -/
def validateFernetKey (value : PyStr) :
    Except ToolExn (PLift ((fernetOf fernet value).isSome = true)) :=
  if h : (fernetOf fernet value).isSome = true then .ok ⟨h⟩
  else .error (rotationToolError "The keyring contains an invalid Fernet key")

/-- The loop of `_load_keyring` over the entries. -/
def checkEntries : List (PyStr × Json F) → Except ToolExn (List (PyStr × PyStr))
  | [] => .ok []
  | (keyId, .string value) :: entries => do
      let _ ← validateKeyId keyId
      let _ ← validateFernetKey fernet value
      return (keyId, value) :: (← checkEntries entries)
  | _ :: _ => .error (rotationToolError "The existing credential keyring contains invalid entries")

variable {fernet} in
lemma checkEntries_eq_ok {entries : List (PyStr × Json F)} {keys : List (PyStr × PyStr)}
    (h : checkEntries fernet entries = .ok keys) :
    entries = keys.map (fun p => (p.1, .string p.2)) ∧ (∀ p ∈ keys, isKeyId p.1 = true) ∧
      ∀ p ∈ keys, (fernetOf fernet p.2).isSome = true := by
  induction entries generalizing keys with
  | nil =>
    cases h
    simp
  | cons entry entries ih =>
    obtain ⟨keyId, value⟩ := entry
    cases value with
    | string value =>
      simp only [checkEntries, Exceptions.bind_eq_ok] at h
      obtain ⟨⟨hid⟩, _, ⟨hvalue⟩, _, rest, hrest, hkeys⟩ := h
      obtain rfl := Except.ok.inj hkeys
      obtain ⟨rfl, hids, hvalues⟩ := ih hrest
      simp only [List.map_cons, List.forall_mem_cons]
      exact ⟨trivial, ⟨hid, hids⟩, hvalue, hvalues⟩
    | scalar v => cases h
    | array vs => cases h
    | object ms => cases h

/-- `_load_keyring` after parsing.  A dictionary has no key twice, so that the last check of the
keys never fails. -/
def checkDocument : Json F → Except ToolExn (KeyringDocument floats fernet)
  | .object members =>
      if hasKeyringFields members = false then
        .error (rotationToolError "The existing credential keyring has an unsupported shape")
      else if hversion : (Json.member members "version").isOne floats = true then
        match Json.member members "primary" with
        | .string primary => do
            let _ ← validateKeyId primary
            match Json.member members "keys" with
            | .object entries =>
                if hcount : entries ≠ [] ∧ entries.length ≤ maximumKeys then
                  match hkeys : checkEntries fernet entries with
                  | .error e => .error e
                  | .ok keys =>
                      if hprimary : primary ∈ keys.map (·.1) then
                        if hdistinct : (keys.map (·.1)).Nodup then
                          .ok {
                            version := Json.member members "version"
                            primary, keys
                            version_one := hversion
                            key_ids := (checkEntries_eq_ok hkeys).2.1
                            key_values := (checkEntries_eq_ok hkeys).2.2
                            distinct := hdistinct
                            bounded := by
                              have hlength := congrArg List.length (checkEntries_eq_ok hkeys).1
                              rw [List.length_map] at hlength
                              omega
                            primary_mem := hprimary }
                        else .error .other
                      else .error (rotationToolError
                        "The existing credential keyring primary key is unavailable")
                else .error (rotationToolError
                  "The existing credential keyring key count is invalid")
            | _ => .error (rotationToolError
                "The existing credential keyring key count is invalid")
        | _ => .error (rotationToolError "The existing credential keyring primary is invalid")
      else .error (rotationToolError "The existing credential keyring version is unsupported")
  | _ => .error (rotationToolError "The existing credential keyring has an unsupported shape")

/-- `_load_keyring` of a text. -/
def parseKeyring (raw : PyStr) : Except ToolExn (KeyringDocument floats fernet) :=
  match Json.loads floats Json.rejectDuplicateKeys raw with
  | .error .decode =>
      .error (rotationToolError "The existing credential keyring is not valid JSON")
  | .error (.duplicate _) =>
      .error (rotationToolError "The existing keyring contains duplicate fields")
  | .error _ => .error .other
  | .ok document => checkDocument floats fernet document

end

/-! ## Writing -/

namespace KeyringDocument

variable {F Key : Type} {floats : Floats F} {fernet : Fernet Key}

/-- The document as a JSON value. -/
def toJson (document : KeyringDocument floats fernet) : Json F :=
  .object [
    (py "version", document.version),
    (py "primary", .string document.primary),
    (py "keys", .object (document.keys.map fun p => (p.1, .string p.2)))]

/-- `json.dumps(document, separators=(",", ":"), sort_keys=True)`. -/
def serialized (document : KeyringDocument floats fernet) : PyStr :=
  Json.dumps floats document.toJson

/-- `verified == document`: the versions equal one, and dictionaries have no order. -/
def same (a b : KeyringDocument floats fernet) : Bool :=
  decide (a.primary = b.primary) && decide (a.keys.Perm b.keys)

/-- `document["primary"] = key_id` for a key of the document. -/
def activate (document : KeyringDocument floats fernet) (keyId : PyStr)
    (h : keyId ∈ document.keys.map (·.1)) : KeyringDocument floats fernet :=
  { document with primary := keyId, primary_mem := h }

/-- A further key, which becomes the primary one. -/
def add (document : KeyringDocument floats fernet) (keyId value : PyStr)
    (hid : isKeyId keyId = true) (hvalue : (fernetOf fernet value).isSome = true)
    (hnew : keyId ∉ document.keys.map (·.1)) (hcount : document.keys.length < maximumKeys) :
    KeyringDocument floats fernet where
  version := document.version
  primary := keyId
  keys := document.keys ++ [(keyId, value)]
  version_one := document.version_one
  key_ids p hp := by
    rcases List.mem_append.1 hp with hp | hp
    · exact document.key_ids p hp
    · rw [List.mem_singleton.1 hp]
      exact hid
  key_values p hp := by
    rcases List.mem_append.1 hp with hp | hp
    · exact document.key_values p hp
    · rw [List.mem_singleton.1 hp]
      exact hvalue
  distinct := by
    rw [List.map_append, List.map_singleton, List.nodup_append]
    refine ⟨document.distinct, List.nodup_singleton _, ?_⟩
    rintro a ha b hb rfl
    rw [List.mem_singleton.1 hb] at ha
    exact hnew ha
  bounded := by
    rw [List.length_append, List.length_singleton]
    omega
  primary_mem := by simp

/-- The document of an installation with a master key alone. -/
def ofMasterKey (keyId value : PyStr) (hid : isKeyId keyId = true)
    (hvalue : (fernetOf fernet value).isSome = true) : KeyringDocument floats fernet where
  version := .scalar (.int 1)
  primary := keyId
  keys := [(keyId, value)]
  version_one := rfl
  key_ids := by simpa using hid
  key_values := by simpa using hvalue
  distinct := List.nodup_singleton _
  bounded := by
    show 1 ≤ 32
    omega
  primary_mem := by simp

end KeyringDocument

namespace KeyringDocument

variable {F Key : Type} {floats : Floats F} {fernet : Fernet Key}

/-! ## What is written is read again -/

/-- The members of the `keys` object. -/
def entries (keys : List (PyStr × PyStr)) : List (PyStr × Json F) :=
  keys.map fun p => (p.1, .string p.2)

lemma checkEntries_entries {keys : List (PyStr × PyStr)} (hids : ∀ p ∈ keys, isKeyId p.1 = true)
    (hvalues : ∀ p ∈ keys, (fernetOf fernet p.2).isSome = true) :
    checkEntries fernet (entries keys : List (PyStr × Json F)) = .ok keys := by
  induction keys with
  | nil => rfl
  | cons p keys ih =>
    rw [List.forall_mem_cons] at hids hvalues
    have hrest := ih hids.2 hvalues.2
    rw [entries] at hrest
    simp only [entries, List.map_cons, checkEntries, validateKeyId, validateFernetKey,
      dif_pos hids.1, dif_pos hvalues.1, Exceptions.ok_bind, hrest]
    rfl

/-- The documents are those that have the fields of a document. -/
lemma checkDocument_fields (document : KeyringDocument floats fernet)
    {members : List (PyStr × Json F)} (hfields : hasKeyringFields members = true)
    (hversion : Json.member members "version" = document.version)
    (hprimary : Json.member members "primary" = .string document.primary)
    (hkeys : Json.member members "keys" = .object (entries document.keys)) :
    checkDocument floats fernet (.object members) = .ok document := by
  have hone : (Json.member members "version").isOne floats = true := by
    rw [hversion]
    exact document.version_one
  obtain ⟨_, hid⟩ : ∃ h, validateKeyId document.primary = .ok h := by
    obtain ⟨p, hp, hpid⟩ := List.mem_map.1 document.primary_mem
    exact ⟨_, by rw [validateKeyId, dif_pos (hpid ▸ document.key_ids p hp)]⟩
  have hcount : (entries document.keys : List (PyStr × Json F)) ≠ [] ∧
      (entries document.keys : List (PyStr × Json F)).length ≤ maximumKeys := by
    constructor
    · have hmem := document.primary_mem
      intro hnil
      rw [entries, List.map_eq_nil_iff] at hnil
      simp [hnil] at hmem
    · rw [entries, List.length_map]
      exact document.bounded
  have hentries := checkEntries_entries (F := F) document.key_ids document.key_values
  unfold checkDocument
  dsimp only
  rw [if_neg (by simp [hfields]), dif_pos hone]
  simp only [hprimary, hid, Exceptions.ok_bind, hkeys]
  rw [dif_pos hcount]
  split
  · rename_i e he
    rw [hentries] at he
    cases he
  · rename_i keys hk
    obtain rfl : document.keys = keys := by
      rw [hentries] at hk
      exact Except.ok.inj hk
    rw [dif_pos document.primary_mem, dif_pos document.distinct]
    congr

/-- What a document that was accepted looks like. -/
lemma checkDocument_eq_ok {json : Json F} {document : KeyringDocument floats fernet}
    (h : checkDocument floats fernet json = .ok document) :
    ∃ members, json = .object members ∧ hasKeyringFields members = true ∧
      Json.member members "version" = document.version ∧
      Json.member members "primary" = .string document.primary ∧
      Json.member members "keys" = .object (entries document.keys) := by
  unfold checkDocument at h
  split at h
  swap
  · cases h
  rename_i members
  split at h
  · cases h
  rename_i hfields
  split at h
  swap
  · cases h
  split at h
  swap
  · cases h
  rename_i primary hprimary
  obtain ⟨_, _, h⟩ := Exceptions.bind_eq_ok.1 h
  split at h
  swap
  · cases h
  rename_i members' hkeys
  split at h
  swap
  · cases h
  split at h
  · cases h
  rename_i keys hentries
  split at h
  swap
  · cases h
  split at h
  swap
  · cases h
  cases h
  refine ⟨members, rfl, by simpa using hfields, rfl, hprimary, ?_⟩
  rw [hkeys]
  exact congrArg Json.object (checkEntries_eq_ok hentries).1

lemma not_surrogate_of_ascii {c : PyChar} (h : c.val < 0x80) : c.isSurrogate = false := by
  simp only [PyChar.isSurrogate, Bool.and_eq_false_iff, decide_eq_false_iff_not]
  omega

lemma not_surrogate_of_isKeyId {id : PyStr} (h : isKeyId id = true) :
    ∀ c ∈ id, c.isSurrogate = false := fun c hc =>
  not_surrogate_of_ascii (PyChar.isKeyIdChar_ascii (isKeyId_chars h c hc)).1

lemma not_surrogate_of_fernetOf {value : PyStr} (h : (fernetOf fernet value).isSome = true) :
    ∀ c ∈ value, c.isSurrogate = false := by
  obtain ⟨key, hkey⟩ := Option.isSome_iff_exists.1 h
  obtain ⟨b, hb, -⟩ := Option.bind_eq_some_iff.1 hkey
  exact fun c hc => not_surrogate_of_ascii (PyStr.ascii_of_encodeAscii hb c hc)

/-- A version is a scalar, and one that can be written. -/
lemma version_scalar (hone : ∀ f, floats.eqInt f 1 = true → floats.Faithful f)
    (document : KeyringDocument floats fernet) :
    ∃ v : Json.Scalar F, document.version = .scalar v ∧ v.Ok floats := by
  have hversion := document.version_one
  match hshape : document.version with
  | .scalar .null => simp [hshape, Json.isOne] at hversion
  | .scalar (.bool b) => exact ⟨_, rfl, trivial⟩
  | .scalar (.int n) =>
    simp only [hshape, Json.isOne, beq_iff_eq] at hversion
    subst hversion
    refine ⟨_, rfl, ?_⟩
    show (Json.renderNat 1).length ≤ Json.maxIntDigits
    decide +kernel
  | .scalar (.float f) =>
    simp only [hshape, Json.isOne] at hversion
    exact ⟨_, rfl, hone f hversion⟩
  | .string s => simp [hshape, Json.isOne] at hversion
  | .array vs => simp [hshape, Json.isOne] at hversion
  | .object ms => simp [hshape, Json.isOne] at hversion

lemma entries_ok {keys : List (PyStr × PyStr)} (hids : ∀ p ∈ keys, isKeyId p.1 = true)
    (hvalues : ∀ p ∈ keys, (fernetOf fernet p.2).isSome = true) :
    Json.MembersOk floats (entries keys) := by
  rw [Json.membersOk_iff]
  intro q hq
  obtain ⟨p, hp, rfl⟩ := List.mem_map.1 hq
  refine ⟨Json.spellable_of_not_surrogate (not_surrogate_of_isKeyId (hids p hp)), ?_⟩
  rw [Json.Ok]
  exact Json.spellable_of_not_surrogate (not_surrogate_of_fernetOf (hvalues p hp))

lemma toJson_ok (hone : ∀ f, floats.eqInt f 1 = true → floats.Faithful f)
    (document : KeyringDocument floats fernet) : document.toJson.Ok floats := by
  have hfields : (keyringFields).Nodup := by decide
  obtain ⟨v, hv, hok⟩ := version_scalar hone document
  obtain ⟨p, hp, hpid⟩ := List.mem_map.1 document.primary_mem
  have hprimary := Json.spellable_of_not_surrogate
    (not_surrogate_of_isKeyId (hpid ▸ document.key_ids p hp))
  have hkeys : (Json.object (entries document.keys) : Json F).Ok floats := by
    rw [Json.Ok, entries, List.map_map]
    exact ⟨document.distinct, entries_ok document.key_ids document.key_values⟩
  rw [toJson, Json.Ok]
  refine ⟨hfields, ?_⟩
  rw [Json.membersOk_iff]
  intro q hq
  simp only [List.mem_cons, List.not_mem_nil, or_false] at hq
  rcases hq with rfl | rfl | rfl
  · exact ⟨Json.spellable_py (by decide), by rw [hv]; simpa [Json.Ok] using hok⟩
  · exact ⟨Json.spellable_py (by decide), by simpa [Json.Ok] using hprimary⟩
  · exact ⟨Json.spellable_py (by decide), hkeys⟩

/-- The document with its keys in the order in which they are written. -/
def sorted (document : KeyringDocument floats fernet) : KeyringDocument floats fernet :=
  have hperm := List.perm_insertionSort (fun a b : PyStr × PyStr => a.1 ≤ b.1) document.keys
  { version := document.version
    primary := document.primary
    keys := document.keys.insertionSort fun a b => a.1 ≤ b.1
    version_one := document.version_one
    key_ids := fun p hp => document.key_ids p (hperm.mem_iff.1 hp)
    key_values := fun p hp => document.key_values p (hperm.mem_iff.1 hp)
    distinct := (hperm.map _).nodup_iff.2 document.distinct
    bounded := by
      rw [hperm.length_eq]
      exact document.bounded
    primary_mem := (hperm.map _).mem_iff.2 document.primary_mem }

lemma sorted_keys (document : KeyringDocument floats fernet) :
    document.sorted.keys.Perm document.keys :=
  List.perm_insertionSort _ _

lemma sortMembers_entries (keys : List (PyStr × PyStr)) :
    Json.sortMembers (entries keys : List (PyStr × Json F)) = entries keys :=
  Json.sortMembers_strings keys

lemma sortKeys_toJson (hone : ∀ f, floats.eqInt f 1 = true → floats.Faithful f)
    (document : KeyringDocument floats fernet) :
    Json.sortKeys document.toJson = .object [
      (py "keys", .object (entries document.sorted.keys)),
      (py "primary", .string document.primary),
      (py "version", document.version)] := by
  obtain ⟨v, hv, -⟩ := version_scalar hone document
  have hentries : ((entries document.keys : List (PyStr × Json F)).insertionSort
      fun a b => a.1 ≤ b.1) = entries document.sorted.keys :=
    (List.map_insertionSort (r := fun a b : PyStr × PyStr => a.1 ≤ b.1)
      (s := fun a b : PyStr × Json F => a.1 ≤ b.1) (fun p => (p.1, .string p.2)) document.keys
      (by simp)).symm
  have horder : ∀ x y z : Json F, ([(py "version", x), (py "primary", y), (py "keys", z)] :
      List (PyStr × Json F)).insertionSort (fun a b => a.1 ≤ b.1) =
        [(py "keys", z), (py "primary", y), (py "version", x)] := by
    have hpv : ¬py "version" ≤ py "primary" := by decide
    have hkv : ¬py "version" ≤ py "keys" := by decide
    have hkp : ¬py "primary" ≤ py "keys" := by decide
    intro x y z
    simp [List.insertionSort_cons, List.orderedInsert, hpv, hkv, hkp]
  have hkeys : Json.sortKeys (.object (entries document.keys) : Json F) =
      .object (entries document.sorted.keys) := by
    rw [Json.sortKeys, sortMembers_entries, hentries]
  rw [toJson, Json.sortKeys]
  simp only [Json.sortMembers, hv]
  rw [← hkeys, ← horder]
  simp only [Json.sortKeys, entries]

theorem parseKeyring_serialized (hone : ∀ f, floats.eqInt f 1 = true → floats.Faithful f)
    (document : KeyringDocument floats fernet) :
    parseKeyring floats fernet document.serialized = .ok document.sorted := by
  have hloads := Json.loads_dumps Json.rejectDuplicateKeys_makesDict (toJson_ok hone document)
  rw [parseKeyring, serialized, hloads, sortKeys_toJson hone]
  exact checkDocument_fields document.sorted rfl rfl rfl rfl

end KeyringDocument

end MailGate
