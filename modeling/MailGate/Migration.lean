import MailGate.Lib.Rewriting
import MailGate.Mail.Claims
import MailGate.Python.Json.Load

/-!
# The migration of the authentication objects

`migrations/0005_provider_presets_and_authentication_schema.py`: the flat object with the claims
of the provider becomes an object with a schema version, and the reverse migration makes flat
objects again.  The reverse migration has no place for the ID of the service.
-/

namespace MailGate

namespace Migration

variable {F : Type} (floats : Json.Floats F)

/-- `AUTH_METHODS`. -/
def authMethods : List PyStr := ["spf", "dkim", "dmarc", "arc"].map py

/-- `Message`, as far as the migrations load it. -/
structure StoredMessage (F : Type) where
  id : Uuid
  authentication : Json F

/-- The rows of `Message.objects`. -/
structure MessageTable (F : Type) where
  rows : List (StoredMessage F)
  nodup : (rows.map (·.id)).Nodup

/-- The only exception that a migration raises. -/
inductive MigrationExn where
  /-- `AttributeError`: `provider_claims` is no dictionary. -/
  | attribute
deriving DecidableEq, Repr

/-- `current`: an empty dictionary where the value is no dictionary. -/
def currentObject : Json F → List (PyStr × Json F)
  | .object members => members
  | _ => []

/-- `current.get("schema_version") == 1`. -/
def isVersionOne (current : List (PyStr × Json F)) : Bool :=
  (current.lookup (py "schema_version")).any (Json.isOne floats)

/-- `{method: claims.get(method, "unknown") for method in AUTH_METHODS}`. -/
def methodClaims (claims : List (PyStr × Json F)) : List (PyStr × Json F) :=
  authMethods.map fun method => (method, (claims.lookup method).getD (.string (py "unknown")))

/-- The object with a schema version. -/
def versionedObject (current : List (PyStr × Json F)) : Json F :=
  .object
    [(py "schema_version", .scalar (.int 1)),
      (py "provider_claims", .object (methodClaims current ++
        [(py "authserv_id", (current.lookup (py "authserv_id")).getD (.string []))])),
      (py "independent", .object
        [(py "dkim", .object [(py "result", .string (py "none")), (py "signatures", .array [])])])]

/-- What the loop of `migrate_authentication_schema` does with a message; `none` is `continue`. -/
def migrateMessage (message : StoredMessage F) :
    Except MigrationExn (Option (StoredMessage F)) :=
  let current := currentObject message.authentication
  if isVersionOne floats current then .ok none
  else .ok (some { message with authentication := versionedObject current })

/-- What the loop of `restore_flat_authentication` does with a message. -/
def restoreMessage (message : StoredMessage F) :
    Except MigrationExn (Option (StoredMessage F)) :=
  let current := currentObject message.authentication
  if !isVersionOne floats current then .ok none
  else
    match (current.lookup (py "provider_claims")).getD (.object []) with
    | .object claims =>
        .ok (some { message with authentication := .object (methodClaims claims) })
    | _ => .error .attribute

/-- `migrate_authentication_schema`. -/
def migrateAuthenticationSchema (rows : List (StoredMessage F)) :
    Except MigrationExn (List (StoredMessage F)) :=
  Rewriting.rewrite (·.id) (migrateMessage floats) 500 rows [] rows

/-- `restore_flat_authentication`. -/
def restoreFlatAuthentication (rows : List (StoredMessage F)) :
    Except MigrationExn (List (StoredMessage F)) :=
  Rewriting.rewrite (·.id) (restoreMessage floats) 500 rows [] rows

/-! ## Flat objects -/

/-- The object with these entries. -/
def flatObject (entries : List (PyStr × PyStr)) : Json F :=
  .object (entries.map fun p => (p.1, .string p.2))

/-- A flat object: texts for some of the four methods and for the ID of the service. -/
def FlatAuthentication (authentication : Json F) : Prop :=
  ∃ entries : List (PyStr × PyStr), authentication = flatObject entries ∧
    (entries.map (·.1)).Nodup ∧
      ∀ key ∈ entries.map (·.1), key ∈ authMethods ++ [py "authserv_id"]

/-- Two dictionaries with the same entries. -/
def SameObject (authentication authentication' : Json F) : Prop :=
  ∃ members members', authentication = .object members ∧ authentication' = .object members' ∧
    ∀ key, members.lookup key = members'.lookup key

/-- The two migrations one after the other give every message its object back. -/
def GivesBack (rows : List (StoredMessage F)) : Prop :=
  ∃ migrated restored, migrateAuthenticationSchema floats rows = .ok migrated ∧
    restoreFlatAuthentication floats migrated = .ok restored ∧
      List.Forall₂ (fun row row' : StoredMessage F =>
        row'.id = row.id ∧ SameObject row.authentication row'.authentication) rows restored

/-- The migration changes nothing a second time. -/
def MigratesOnce (rows : List (StoredMessage F)) : Prop :=
  ∃ migrated, migrateAuthenticationSchema floats rows = .ok migrated ∧
    migrateAuthenticationSchema floats migrated = .ok migrated

/-- The object has an entry for every method, and none for the ID. -/
def WithoutId (authentication : Json F) : Prop :=
  (∀ method ∈ authMethods, ∃ v, (currentObject authentication).lookup method = some v) ∧
    (currentObject authentication).lookup (py "authserv_id") = none

section

variable {floats} {rows : List (StoredMessage F)} {message : StoredMessage F}

/-! ## What the loops compute -/

lemma mapM_eq_ok {α β ε : Type} {f : α → Except ε β} {g : α → β} {xs : List α}
    (h : ∀ x ∈ xs, f x = .ok (g x)) : xs.mapM f = .ok (xs.map g) := by
  induction xs with
  | nil => rfl
  | cons x xs ih =>
    rw [List.forall_mem_cons] at h
    rw [List.mapM_cons, h.1, ih h.2]
    rfl

/-- A message after the migration. -/
def migrated (floats : Json.Floats F) (message : StoredMessage F) : StoredMessage F :=
  if isVersionOne floats (currentObject message.authentication) then message
  else { message with authentication := versionedObject (currentObject message.authentication) }

lemma migrateAuthenticationSchema_eq (hids : (rows.map (·.id)).Nodup) :
    migrateAuthenticationSchema floats rows = .ok (rows.map (migrated floats)) := by
  rw [migrateAuthenticationSchema, Rewriting.rewrite_eq ?_ 500 hids]
  · refine mapM_eq_ok fun message _ => ?_
    rw [migrateMessage, migrated]
    split
    · rfl
    · rfl
  · intro message new h
    rw [migrateMessage] at h
    split at h
    · cases h
    · cases h
      rfl

lemma isVersionOne_versionedObject (current : List (PyStr × Json F)) :
    isVersionOne floats (currentObject (versionedObject current)) = true := rfl

lemma migrated_migrated (message : StoredMessage F) :
    migrated floats (migrated floats message) = migrated floats message := by
  by_cases h : isVersionOne floats (currentObject message.authentication) = true
  · have hsame : migrated floats message = message := by rw [migrated, if_pos h]
    rw [hsame, hsame]
  · have hnew : migrated floats message = { message with
        authentication := versionedObject (currentObject message.authentication) } := by
      rw [migrated, if_neg h]
    rw [hnew, migrated, if_pos (isVersionOne_versionedObject _)]

lemma map_id_migrated (rows : List (StoredMessage F)) :
    (rows.map (migrated floats)).map (·.id) = rows.map (·.id) := by
  rw [List.map_map]
  refine List.map_congr_left fun message _ => ?_
  rw [Function.comp_apply, migrated]
  split
  · rfl
  · rfl

/-- The second run finds nothing to do. -/
lemma migratesOnce (table : MessageTable F) : MigratesOnce floats table.rows := by
  refine ⟨_, migrateAuthenticationSchema_eq table.nodup, ?_⟩
  have hids : ((table.rows.map (migrated floats)).map (·.id)).Nodup := by
    rw [map_id_migrated]
    exact table.nodup
  rw [migrateAuthenticationSchema_eq hids, List.map_map]
  refine congrArg _ (List.map_congr_left fun message _ => ?_)
  exact migrated_migrated message

/-! ## There and back -/

lemma lookup_methodClaims (claims : List (PyStr × Json F)) (key : PyStr) :
    (methodClaims claims).lookup key =
      if key ∈ authMethods then some ((claims.lookup key).getD (.string (py "unknown")))
      else none :=
  Dict.lookup_comprehension authMethods _

/-- The claims of the methods are found again beside the ID. -/
lemma methodClaims_append (claims rest : List (PyStr × Json F)) :
    methodClaims (methodClaims claims ++ rest) = methodClaims claims := by
  refine List.map_congr_left fun method hmethod => ?_
  rw [List.lookup_append, lookup_methodClaims, if_pos hmethod]
  rfl

/-- A message after both migrations. -/
def restored (message : StoredMessage F) : StoredMessage F :=
  { message with authentication := .object (methodClaims (currentObject message.authentication)) }

lemma FlatAuthentication.isVersionOne {authentication : Json F}
    (h : FlatAuthentication authentication) :
    isVersionOne floats (currentObject authentication) = false := by
  obtain ⟨entries, rfl, -, hkeys⟩ := h
  have hnone : entries.lookup (py "schema_version") = none := by
    have hnot : py "schema_version" ∉ authMethods ++ [py "authserv_id"] := by decide
    exact Dict.lookup_eq_none fun h => hnot (hkeys _ h)
  rw [Migration.isVersionOne, flatObject, currentObject, Dict.lookup_map_values, hnone]
  rfl

lemma restoreMessage_migrated (h : FlatAuthentication message.authentication) :
    restoreMessage floats (migrated floats message) = .ok (some (restored message)) := by
  have hnew : migrated floats message = { message with
      authentication := versionedObject (currentObject message.authentication) } := by
    rw [migrated, h.isVersionOne]
    rfl
  have hclaims := methodClaims_append (currentObject message.authentication)
    [(py "authserv_id",
      ((currentObject message.authentication).lookup (py "authserv_id")).getD (.string []))]
  rw [hnew, restoreMessage, isVersionOne_versionedObject, restored, ← hclaims]
  rfl

lemma restoreFlatAuthentication_eq (hids : (rows.map (·.id)).Nodup)
    (hflat : ∀ row ∈ rows, FlatAuthentication row.authentication) :
    restoreFlatAuthentication floats (rows.map (migrated floats)) = .ok (rows.map restored) := by
  have hids' : ((rows.map (migrated floats)).map (·.id)).Nodup := by
    rw [map_id_migrated]
    exact hids
  rw [restoreFlatAuthentication, Rewriting.rewrite_eq ?_ 500 hids']
  · rw [List.mapM_map]
    refine mapM_eq_ok fun message hmessage => ?_
    rw [Function.comp_apply, restoreMessage_migrated (hflat message hmessage)]
    rfl
  · intro message new h
    rw [restoreMessage] at h
    split at h
    · cases h
    split at h
    · cases h
      rfl
    · cases h

/-- A flat object comes back exactly if it has all methods and no ID. -/
lemma sameObject_restored_iff (h : FlatAuthentication message.authentication) :
    SameObject message.authentication (restored message).authentication ↔
      WithoutId message.authentication := by
  have hid : py "authserv_id" ∉ authMethods := by decide
  obtain ⟨entries, hobject, -, hkeys⟩ := h
  constructor
  · rintro ⟨members, members', hmembers, hrestored, hsame⟩
    obtain rfl := Json.object.inj hrestored
    rw [hmembers] at hsame ⊢
    refine ⟨fun method hmethod => ?_, ?_⟩
    · have hlookup := hsame method
      rw [lookup_methodClaims, if_pos hmethod] at hlookup
      exact ⟨_, hlookup⟩
    · have hlookup := hsame (py "authserv_id")
      rw [lookup_methodClaims, if_neg hid] at hlookup
      exact hlookup
  · rintro ⟨hmethods, hnone⟩
    refine ⟨_, _, hobject, rfl, fun key => ?_⟩
    rw [lookup_methodClaims]
    rw [hobject] at hmethods hnone ⊢
    by_cases hkey : key ∈ authMethods
    · obtain ⟨v, hv⟩ := hmethods key hkey
      rw [if_pos hkey, hv]
      exact hv
    rw [if_neg hkey]
    by_cases hkeyId : key = py "authserv_id"
    · exact hkeyId ▸ hnone
    · -- a flat object has no other keys
      have hother : key ∉ entries.map (·.1) := by
        intro hmem
        rcases List.mem_append.1 (hkeys key hmem) with h | h
        · exact hkey h
        · exact hkeyId (List.mem_singleton.1 h)
      rw [Dict.lookup_map_values, Dict.lookup_eq_none hother]
      rfl

lemma givesBack_iff (floats : Json.Floats F) (table : MessageTable F)
    (hflat : ∀ row ∈ table.rows, FlatAuthentication row.authentication) :
    GivesBack floats table.rows ↔ ∀ row ∈ table.rows, WithoutId row.authentication := by
  have hforward : migrateAuthenticationSchema floats table.rows =
      .ok (table.rows.map (migrated floats)) := migrateAuthenticationSchema_eq table.nodup
  have hreverse : restoreFlatAuthentication floats (table.rows.map (migrated floats)) =
      .ok (table.rows.map restored) := restoreFlatAuthentication_eq table.nodup hflat
  have hrows : List.Forall₂ (fun row row' : StoredMessage F =>
      row'.id = row.id ∧ SameObject row.authentication row'.authentication) table.rows
        (table.rows.map restored) ↔ ∀ row ∈ table.rows, WithoutId row.authentication := by
    rw [List.forall₂_map_right_iff, List.forall₂_same]
    refine forall₂_congr fun row hrow => ?_
    rw [sameObject_restored_iff (hflat row hrow)]
    exact and_iff_right rfl
  rw [← hrows]
  constructor
  · rintro ⟨migrated, restored, hmigrated, hrestored, hsame⟩
    obtain rfl := Except.ok.inj (hforward.symm.trans hmigrated)
    obtain rfl := Except.ok.inj (hreverse.symm.trans hrestored)
    exact hsame
  · exact fun hsame => ⟨_, _, hforward, hreverse, hsame⟩

end

/-- Both migrations give every message its flat object back, and a second run of the first
changes nothing, exactly if every object has all methods and no ID. -/
theorem migrations_restore_iff (floats : Json.Floats F) (table : MessageTable F)
    (hflat : ∀ row ∈ table.rows, FlatAuthentication row.authentication) :
    GivesBack floats table.rows ∧ MigratesOnce floats table.rows ↔
      ∀ row ∈ table.rows, WithoutId row.authentication := by
  rw [← givesBack_iff floats table hflat]
  exact and_iff_left (migratesOnce table)

/-! ## Objects that the parser has written -/

/-- What `parse_authentication_results` returns is a flat object with an ID. -/
lemma flatAuthentication_results (lib : Library) (trustedIds values : List PyStr) :
    FlatAuthentication (flatObject (F := F) (authenticationResults lib trustedIds values)) ∧
      ∃ id, (authenticationResults lib trustedIds values).lookup (py "authserv_id") = some id := by
  have hkeys : (authenticationResults lib trustedIds values).map (·.1) =
      authMethods ++ [py "authserv_id"] := by
    rw [← parseAuthenticationResults_items]
    rfl
  constructor
  · refine ⟨_, rfl, ?_, fun key hkey => hkeys ▸ hkey⟩
    rw [hkeys]
    decide
  · refine Dict.lookup_of_mem_keys ?_
    rw [hkeys]
    decide

/-- So no message keeps what `parse_authentication_results` has written for it. -/
theorem migrations_restore_results_iff (floats : Json.Floats F) (table : MessageTable F)
    (hresults : ∀ row ∈ table.rows, ∃ lib trustedIds values,
      row.authentication = flatObject (authenticationResults lib trustedIds values)) :
    GivesBack floats table.rows ∧ MigratesOnce floats table.rows ↔ table.rows = [] := by
  have hflat : ∀ row ∈ table.rows, FlatAuthentication row.authentication := by
    intro row hrow
    obtain ⟨lib, trustedIds, values, hobject⟩ := hresults row hrow
    exact hobject ▸ (flatAuthentication_results lib trustedIds values).1
  rw [and_iff_left (migratesOnce table), givesBack_iff floats table hflat,
    List.eq_nil_iff_forall_not_mem]
  refine forall₂_congr fun row hrow => iff_of_false (fun hwithout => ?_) fun h => h
  obtain ⟨lib, trustedIds, values, hobject⟩ := hresults row hrow
  obtain ⟨id, hid⟩ := (flatAuthentication_results (F := F) lib trustedIds values).2
  have hnone := hwithout.2
  rw [hobject, flatObject, currentObject, Dict.lookup_map_values, hid] at hnone
  cases hnone

/-- Floats that equal no integer. -/
def sampleFloats : Json.Floats Unit := ⟨fun _ => (), fun _ => [], fun _ _ => false⟩

/-- A message after an earlier rollback. -/
def rolledBack : MessageTable Unit where
  rows := [⟨1, flatObject (authMethods.map fun method => (method, py "pass"))⟩]
  nodup := List.nodup_singleton _

theorem migrations_restore_rolledBack :
    GivesBack sampleFloats rolledBack.rows ∧ MigratesOnce sampleFloats rolledBack.rows := by
  refine (migrations_restore_iff sampleFloats rolledBack ?_).2 ?_
  · exact List.forall_mem_singleton.2 ⟨_, rfl, by decide, by decide⟩
  · refine List.forall_mem_singleton.2 ⟨fun method hmethod => ?_, rfl⟩
    refine Dict.lookup_of_mem_keys ?_
    exact hmethod

/-- A message with the claims of a provider. -/
def claimedTable : MessageTable Unit where
  rows := [⟨1, flatObject (authenticationResults (sampleLibrary blankMessage [] [])
    [py "mx.example.org"] [py "mx.example.org; spf=pass"])⟩]
  nodup := List.nodup_singleton _

/-- It comes back without the ID of the service. -/
theorem migrations_lose_id :
    ¬ ∀ table : MessageTable Unit, (∀ row ∈ table.rows, ∃ lib trustedIds values,
      row.authentication = flatObject (authenticationResults lib trustedIds values)) →
        GivesBack sampleFloats table.rows ∧ MigratesOnce sampleFloats table.rows := by
  intro h
  have hresults : ∀ row ∈ claimedTable.rows, ∃ lib trustedIds values,
      row.authentication = flatObject (authenticationResults lib trustedIds values) :=
    List.forall_mem_singleton.2 ⟨_, _, _, rfl⟩
  have hnil := (migrations_restore_results_iff sampleFloats claimedTable hresults).1
    (h claimedTable hresults)
  cases hnil

end Migration

end MailGate
