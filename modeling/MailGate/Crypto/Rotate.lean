import MailGate.Crypto.Keyring
import MailGate.Ingestion.Store
import MailGate.Rotation

/-!
# Rotation to the primary key

The command `rotate_mailbox_credentials` with a keyring: it re-encrypts all credentials in
one transaction, or none.  Afterwards the primary key alone opens every credential.
-/

namespace MailGate

open Transaction

variable {Key : Type}

/-- What the command meets when `credential_keyring()` gives this keyring. -/
def rotationEnv (fernet : Fernet Key) (keyring : CredentialKeyring Key) (clock : ℕ → Time)
    (auditAt : Time) : RotationEnv where
  primaryId := keyring.primaryId
  reencryptSecret seed value := (reencryptSecret fernet (.ok keyring) seed value).toOption
  clock := clock
  auditAt := auditAt

/-- `Command.handle`: its transaction commits what `rotate_mailbox_credentials` leaves, or is
rolled back by an exception. -/
def rotateCommand (env : RotationEnv) : Prog Db Unit Unit :=
  .atomic fun db =>
    match rotateMailboxCredentials env db with
    | some db => .ok ((), db)
    | none => .error ()

section Loop

variable {env : RotationEnv} {rows : List Mailbox} {tick n total : ℕ} {db db' : Db}

@[simp] lemma bumpMailboxConfigVersion_passwordEncrypted (old new : Mailbox) :
    (bumpMailboxConfigVersion old new).passwordEncrypted = new.passwordEncrypted := by
  unfold bumpMailboxConfigVersion
  split <;> rfl

/-- The loop rewrites the credentials of its rows as `reencrypt_secret` says, and leaves the
other mailboxes alone. -/
lemma rotateMailboxes_eq_some {Q : Bytes → Bytes → Prop}
    (hQ : ∀ tick v c changed, env.reencryptSecret tick v = some (c, changed) →
      Q v c ∧ (changed = false → c = v))
    (hdistinct : (rows.map (·.id)).Nodup)
    (h : rotateMailboxes env tick rows n db = some (total, db')) :
    db'.mailboxes.map (·.id) = db.mailboxes.map (·.id) ∧
      ∀ m' ∈ db'.mailboxes, ∃ m ∈ db.mailboxes, m'.id = m.id ∧
        (m ∈ rows → Q m.passwordEncrypted m'.passwordEncrypted) ∧
        (m.id ∉ rows.map (·.id) → m' = m) := by
  induction rows generalizing tick n db with
  | nil =>
    cases h
    exact ⟨rfl, fun m hm => ⟨m, hm, rfl, by simp, fun _ => rfl⟩⟩
  | cons row rows ih =>
    simp only [rotateMailboxes, Option.bind_eq_bind, Option.bind_eq_some_iff] at h
    obtain ⟨⟨c, changed⟩, hreencrypt, h⟩ := h
    obtain ⟨hrow, hrest⟩ := List.nodup_cons.1 hdistinct
    obtain ⟨hQrow, hsame⟩ := hQ _ _ _ _ hreencrypt
    simp only at h
    split at h
    · rename_i hunchanged
      obtain rfl := hsame (by simpa using hunchanged)
      obtain ⟨hids, hrows⟩ := ih hrest h
      refine ⟨hids, ?_⟩
      intro m' hm'
      obtain ⟨m, hm, hid, hin, hout⟩ := hrows m' hm'
      refine ⟨m, hm, hid, ?_, ?_⟩
      · intro hmem
        rcases List.mem_cons.1 hmem with rfl | hmem
        · rw [hout hrow]
          exact hQrow
        · exact hin hmem
      · intro hmem
        exact hout fun hrows => hmem (List.mem_cons_of_mem _ hrows)
    · split at h
      · cases h
      · rename_i updated db₁ hupd
        obtain ⟨-, -, rfl⟩ := Db.updateMailboxes_eq_ok.1 hupd
        obtain ⟨hids, hrows⟩ := ih hrest h
        refine ⟨hids.trans (Db.map_update ?_), ?_⟩
        · intro m _
          split
          · simp
          · rfl
        · intro m' hm'
          obtain ⟨m₁, hm₁, hid, hin, hout⟩ := hrows m' hm'
          obtain ⟨m, hm, rfl⟩ := List.mem_map.1 hm₁
          by_cases hmrow : m.id = row.id
          · -- the row that was rewritten
            simp only [hmrow, decide_true, if_true, Db.bumpMailboxConfigVersion_id] at hid hin hout
            refine ⟨m, hm, hid.trans hmrow.symm, ?_, ?_⟩
            · intro hmem
              rcases List.mem_cons.1 hmem with rfl | hmem
              · rw [hout (by simpa using hrow)]
                simpa using hQrow
              · exact absurd (List.mem_map.2 ⟨m, hmem, hmrow⟩) hrow
            · intro hmem
              exact absurd (by simp [hmrow]) hmem
          · simp only [hmrow, decide_false, Bool.false_eq_true, if_false] at hid hin hout
            refine ⟨m, hm, hid, ?_, ?_⟩
            · intro hmem
              rcases List.mem_cons.1 hmem with rfl | hmem
              · exact absurd rfl hmrow
              · exact hin hmem
            · intro hmem
              exact hout fun hrows => hmem (List.mem_cons_of_mem _ hrows)

/-- Where no credential changes, the loop changes nothing. -/
lemma rotateMailboxes_of_unchanged
    (h : ∀ row ∈ rows, ∀ tick,
      env.reencryptSecret tick row.passwordEncrypted = some (row.passwordEncrypted, false)) :
    rotateMailboxes env tick rows n db = some (n, db) := by
  induction rows generalizing tick with
  | nil => rfl
  | cons row rows ih =>
    rw [List.forall_mem_cons] at h
    simp only [rotateMailboxes, h.1, Option.bind_eq_bind, Option.bind_some, Bool.false_eq_true,
      not_false_eq_true, if_true]
    exact ih h.2

end Loop

section Command

variable {fernet : Fernet Key} {keyring : CredentialKeyring Key} {id : PyStr} {key : Key}
  {db db' : Db} {clock : ℕ → Time} {auditAt : Time}

/-- Every credential of `db'` is an envelope of the primary key with the plaintext that the
credential of the same mailbox has in `db`. -/
def RotatedTo (fernet : Fernet Key) (keyring : CredentialKeyring Key) (id : PyStr)
    (db db' : Db) : Prop :=
  db'.mailboxes.map (·.id) = db.mailboxes.map (·.id) ∧
    ∀ m' ∈ db'.mailboxes, ∃ m ∈ db.mailboxes, m'.id = m.id ∧ ∃ plaintext,
      keyring.decrypt fernet m.passwordEncrypted = .ok plaintext ∧
        CredentialKeyring.Enveloped fernet keyring id plaintext m'.passwordEncrypted

lemma rotateMailboxCredentials_rotated (hprimary : keyring.primaryId = some id)
    (hvalid : db.Valid)
    (h : rotateMailboxCredentials (rotationEnv fernet keyring clock auditAt) db = some db') :
    RotatedTo fernet keyring id db db' := by
  simp only [rotateMailboxCredentials, Option.bind_eq_bind, Option.bind_eq_some_iff,
    Option.pure_def, Option.some.injEq] at h
  obtain ⟨primaryId, -, ⟨total, db₁⟩, hloop, rfl⟩ := h
  have hperm := List.perm_insertionSort (fun a b : Mailbox => a.id ≤ b.id) db.mailboxes
  have hdistinct : ((db.mailboxes.insertionSort fun a b => a.id ≤ b.id).map (·.id)).Nodup :=
    (hperm.map _).nodup_iff.2 hvalid.mailbox_ids
  have hQ : ∀ tick v c changed,
      (rotationEnv fernet keyring clock auditAt).reencryptSecret tick v = some (c, changed) →
      (∃ plaintext, keyring.decrypt fernet v = .ok plaintext ∧
        CredentialKeyring.Enveloped fernet keyring id plaintext c) ∧ (changed = false → c = v) := by
    intro tick v c changed hreencrypt
    obtain ⟨plaintext, hplaintext, henveloped, hsame⟩ :=
      CredentialKeyring.reencryptSecret_eq_ok hprimary (Exceptions.toOption_eq_some.1 hreencrypt)
    exact ⟨⟨plaintext, hplaintext, henveloped⟩, hsame⟩
  obtain ⟨hids, hrows⟩ := rotateMailboxes_eq_some hQ hdistinct hloop
  refine ⟨hids, ?_⟩
  intro m' hm'
  obtain ⟨m, hm, hid, hin, -⟩ := hrows m' hm'
  exact ⟨m, hm, hid, hin (hperm.mem_iff.2 hm)⟩

/-- A rotation of envelopes of the primary key changes no mailbox. -/
lemma rotateMailboxCredentials_again (hprimary : keyring.primaryId = some id)
    (h : ∀ m ∈ db.mailboxes, ∃ plaintext,
      CredentialKeyring.Enveloped fernet keyring id plaintext m.passwordEncrypted) :
    ∃ db', rotateMailboxCredentials (rotationEnv fernet keyring clock auditAt) db = some db' ∧
      db'.mailboxes = db.mailboxes := by
  have hperm := List.perm_insertionSort (fun a b : Mailbox => a.id ≤ b.id) db.mailboxes
  have hloop : rotateMailboxes (rotationEnv fernet keyring clock auditAt) 0
      (db.mailboxes.insertionSort fun a b => a.id ≤ b.id) 0 db = some (0, db) := by
    refine rotateMailboxes_of_unchanged ?_
    intro row hrow tick
    obtain ⟨plaintext, henveloped⟩ := h row (hperm.mem_iff.1 hrow)
    exact Exceptions.toOption_eq_some.2
      (CredentialKeyring.reencryptSecret_of_enveloped hprimary henveloped tick)
  have hprimary' : (rotationEnv fernet keyring clock auditAt).primaryId = some id := hprimary
  unfold rotateMailboxCredentials
  rw [hprimary']
  simp only [Option.bind_eq_bind, Option.bind_some, hloop]
  exact ⟨_, rfl, rfl⟩

/-- The command fails and leaves the database as it was, or every credential ends in an
envelope of the primary key that decrypts to what it did before, also with the primary key
alone; and a second run, with the whole keyring or with that key alone, changes no mailbox. -/
theorem rotateCommand_rotates {fault : Unit → Prop} {tr : List (Event Db)}
    {o : Option (Except Unit Unit)} (hprimary : keyring.primaryId = some id)
    (hkey : keyring.keys.lookup id = some key) (hvalid : db.Valid)
    (h : Exec (.alone fault) (rotateCommand (rotationEnv fernet keyring clock auditAt)) db tr o
      db') :
    (db' = db ∧ o ≠ some (.ok ())) ∨
      (db'.mailboxes.map (·.id) = db.mailboxes.map (·.id) ∧
        (∀ m' ∈ db'.mailboxes, ∃ m ∈ db.mailboxes, m'.id = m.id ∧ ∃ plaintext token,
          keyring.decrypt fernet m.passwordEncrypted = .ok plaintext ∧
            CredentialKeyring.identify m'.passwordEncrypted = .ok (some id, token) ∧
            keyring.decrypt fernet m'.passwordEncrypted = .ok plaintext ∧
            (keyring.reduced id key hkey).decrypt fernet m'.passwordEncrypted = .ok plaintext) ∧
        ∀ keyring' ∈ [keyring, keyring.reduced id key hkey], ∀ clock' auditAt', ∃ db'',
          rotateMailboxCredentials (rotationEnv fernet keyring' clock' auditAt') db' = some db'' ∧
            db''.mailboxes = db'.mailboxes) := by
  rcases h.atomic_inv with ⟨_, hbody, -, -⟩ | ⟨hsame, hfailed⟩
  swap
  · exact .inl ⟨hsame, hfailed ()⟩
  right
  split at hbody
  swap
  · cases hbody
  rename_i db₁ hrotate
  cases hbody
  obtain ⟨hids, hrows⟩ := rotateMailboxCredentials_rotated hprimary hvalid hrotate
  -- each credential is now an envelope of the primary key, which both keyrings have
  refine ⟨hids, ?_, ?_⟩
  · intro m' hm'
    obtain ⟨m, hm, hid, plaintext, hplaintext, henveloped⟩ := hrows m' hm'
    have hreduced := (henveloped.reduced hkey).decrypt
    have hdecrypt := henveloped.decrypt
    obtain ⟨token, -, hidentify, -⟩ := henveloped
    exact ⟨m, hm, hid, plaintext, token, hplaintext, hidentify, hdecrypt, hreduced⟩
  · intro keyring' hkeyring' clock' auditAt'
    simp only [List.mem_cons, List.not_mem_nil, or_false] at hkeyring'
    rcases hkeyring' with rfl | rfl
    · refine rotateMailboxCredentials_again hprimary ?_
      intro m' hm'
      obtain ⟨-, -, -, plaintext, -, henveloped⟩ := hrows m' hm'
      exact ⟨plaintext, henveloped⟩
    · have hreduced : (keyring.reduced id key hkey).primaryId = some id := rfl
      refine rotateMailboxCredentials_again hreduced ?_
      intro m' hm'
      obtain ⟨-, -, -, plaintext, -, henveloped⟩ := hrows m' hm'
      exact ⟨plaintext, henveloped.reduced hkey⟩

end Command

/-! ## Two keys -/

/-- Tokens of a toy cipher: the name of the key before the plaintext. -/
def sampleFernet : Fernet UInt8 where
  make
    | [key] => some key
    | _ => none
  encrypt key _ value := key :: value
  decrypt key token := if token.head? = some key then some token.tail else none

/-- A keyring with a new primary key, the old key, and the master key. -/
def sampleKeyring : CredentialKeyring UInt8 where
  primaryId := some (py "new")
  keys := [(py "new", 1), (py "old", 2)]
  legacyKeys := [1, 2, 3]
  key_ids := by decide
  distinct := by decide
  primary_mem := by decide
  legacy_ne := by decide

/-- Four passwords: a token of the master key, an envelope of the old key, one of the new key, and a
token of the old key. -/
def sampleCredentials : List (ℕ × Bytes × Bytes) :=
  [(1, bytes "one", 3 :: bytes "one"), (2, bytes "two", bytes "mgk1:old:" ++ 2 :: bytes "two"),
    (3, bytes "three", bytes "mgk1:new:" ++ 1 :: bytes "three"),
    (4, bytes "four", 2 :: bytes "four")]

/-- Mailboxes with these passwords. -/
def sampleLegacyDb : Db :=
  { sampleDb with
    mailboxes := sampleCredentials.map fun p =>
      { sampleMailbox with id := p.1, passwordEncrypted := p.2.2 }
    mailboxSeq := 5 }

lemma sampleLegacyDb_valid : sampleLegacyDb.Valid := by
  constructor <;> decide

/-- All of them become envelopes that the new key opens alone. -/
theorem rotateCommand_rotates_legacy : ∃ tr db',
    Exec (.alone fun _ => False) (rotateCommand (rotationEnv sampleFernet sampleKeyring
      (fun n => n) 7)) sampleLegacyDb tr (some (.ok ())) db' ∧
      db'.mailboxes.map (·.id) = [1, 2, 3, 4] ∧
      ∀ m' ∈ db'.mailboxes, ∃ p ∈ sampleCredentials, m'.id = p.1 ∧
        (sampleKeyring.reduced (py "new") 1 rfl).decrypt sampleFernet m'.passwordEncrypted =
          .ok p.2.1 := by
  obtain ⟨db', hrotate⟩ : ∃ db', rotateMailboxCredentials (rotationEnv sampleFernet sampleKeyring
      (fun n => n) 7) sampleLegacyDb = some db' := by
    rw [← Option.isSome_iff_exists]
    decide +kernel
  have hexec : Exec (.alone fun _ => False) (rotateCommand (rotationEnv sampleFernet sampleKeyring
      (fun n => n) 7)) sampleLegacyDb _ (some (.ok ())) db' :=
    .txn (.commit (b := ()) (by rw [hrotate])) (.done _ _)
  refine ⟨_, db', hexec, ?_⟩
  rcases rotateCommand_rotates rfl rfl sampleLegacyDb_valid hexec with
    ⟨-, hfailed⟩ | ⟨hids, hrows, -⟩
  · exact absurd rfl hfailed
  refine ⟨hids, fun m' hm' => ?_⟩
  obtain ⟨m, hm, hid, plaintext, -, hplaintext, -, -, hreduced⟩ := hrows m' hm'
  have hold : ∀ p ∈ sampleCredentials, sampleKeyring.decrypt sampleFernet p.2.2 = .ok p.2.1 := by
    decide +kernel
  obtain ⟨p, hp, rfl⟩ := List.mem_map.1 hm
  refine ⟨p, hp, hid, ?_⟩
  rw [hreduced, ← hplaintext]
  exact hold p hp

end MailGate
