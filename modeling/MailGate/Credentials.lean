import MailGate.Crypto.Rotate
import MailGate.Crypto.RotateRuntime
import MailGate.Mailboxes

/-!
# The credential of a mailbox over whole runs

The owner enters a password when a mailbox is added, and may enter another one later.  The forms
encrypt it, the rotation encrypts it again under other keys, and the worker decrypts it.  Keyrings
come and go; as long as all of them are parts of one keyring, the credential of a mailbox
decrypts to the password that was entered last.
-/

namespace MailGate

open PyStr (encode)

variable {Key : Type}

/-- What the documentation of Fernet says besides. -/
structure Fernet.Documented (fernet : Fernet Key) : Prop extends fernet.Lawful where
  decrypt_encrypt : ∀ key seed plaintext,
    fernet.decrypt key (fernet.encrypt key seed plaintext) = some plaintext
  /-- A token is the URL-safe Base64 text of bytes that start with the version 128. -/
  token_head : ∀ key seed plaintext, (fernet.encrypt key seed plaintext).head? = some 0x67

/-! ## Parts of a keyring -/

namespace CredentialKeyring

/-- Every key of `part` is one of `whole`, under the same key ID. -/
structure PartOf (part whole : CredentialKeyring Key) : Prop where
  keys : ∀ id key, part.keys.lookup id = some key → whole.keys.lookup id = some key
  legacyKeys : ∀ key ∈ part.legacyKeys, key ∈ whole.legacyKeys

lemma PartOf.refl (keyring : CredentialKeyring Key) : keyring.PartOf keyring :=
  ⟨fun _ _ h => h, fun _ h => h⟩

variable {fernet : Fernet Key} {part whole : CredentialKeyring Key} {value plaintext : Bytes}

/-- What a part decrypts, the whole decrypts alike. -/
lemma PartOf.decrypt (hfernet : fernet.Documented) (hpart : part.PartOf whole)
    (h : part.decrypt fernet value = .ok plaintext) :
    whole.decrypt fernet value = .ok plaintext :=
  decrypt_of_replaced hfernet.toLawful
    (fun keyId key hkey => ⟨key, hpart.keys keyId key hkey, .refl key⟩)
    (fun key hkey => ⟨key, hpart.legacyKeys key hkey, .refl key⟩) h

/-- What a keyring encrypts, it decrypts. -/
lemma decrypt_encrypt (hfernet : fernet.Documented) {seed : ℕ} {c : Bytes}
    (h : part.encrypt fernet seed plaintext = .ok c) : part.decrypt fernet c = .ok plaintext := by
  unfold CredentialKeyring.encrypt at h
  split at h
  · split at h
    · cases h
    · rename_i key keys hlegacy
      cases h
      have hplain : (fernet.encrypt key seed plaintext).startswith tokenPrefix = false := by
        have hhead := hfernet.token_head key seed plaintext
        cases htoken : fernet.encrypt key seed plaintext with
        | nil => rfl
        | cons b token =>
          rw [htoken] at hhead
          obtain rfl := Option.some.inj hhead
          rfl
      have hidentify : identify (fernet.encrypt key seed plaintext) =
          .ok (none, fernet.encrypt key seed plaintext) := by
        rw [identify, if_pos (by simp [hplain])]
      rw [CredentialKeyring.decrypt, hidentify]
      refine tryKeys_of_mem hfernet.toLawful ?_ (hfernet.decrypt_encrypt key seed plaintext)
      rw [hlegacy]
      exact List.mem_cons_self
  · split at h
    · rename_i id _ key encoded hkey hencoded
      cases h
      have hne : fernet.encrypt key seed plaintext ≠ [] := by
        intro hnil
        have hhead := hfernet.token_head key seed plaintext
        rw [hnil] at hhead
        cases hhead
      have hidentify := identify_envelope (isKeyId_of_lookup hkey) hencoded
        (fernet.encrypt key seed plaintext)
      rw [if_neg hne] at hidentify
      rw [CredentialKeyring.decrypt, hidentify]
      simp only [Exceptions.ok_bind, hkey, hfernet.decrypt_encrypt]
    · cases h

end CredentialKeyring

/-! ## Who writes credentials -/

section

variable (fernet : Fernet Key) (whole : CredentialKeyring Key)

/-- `encrypt_secret` of a process whose keyring is a part of this one. -/
def EncryptsWith (encryptSecret : PyStr → Option Bytes) : Prop :=
  ∃ part : CredentialKeyring Key, part.PartOf whole ∧ ∀ value, ∃ seed,
    encryptSecret value =
      (encode value).bind fun plaintext => (part.encrypt fernet seed plaintext).toOption

/-- The transaction encrypts with a part of this keyring.  The form for a new mailbox does not
accept an empty password. -/
def Txn.UsesKeys : Txn → Prop
  | .mailboxCreate mailbox => ∃ env post, EncryptsWith fernet whole env.encryptSecret ∧
      MailboxForm.Makes env post mailbox ∧ post.password ≠ []
  | .mailboxEdit env _ _ => EncryptsWith fernet whole env.encryptSecret
  | .rotate env => ∃ (part : CredentialKeyring Key) (clock : ℕ → Time) (auditAt : Time),
      part.PartOf whole ∧ env = rotationEnv fernet part clock auditAt
  | _ => True

/-- The credential of the mailbox with this key decrypts to this plaintext. -/
def HoldsSecret (id : ℕ) (plaintext : Bytes) (db : Db) : Prop :=
  ∃ row, rowsOf db (.row id) = some row ∧
    whole.decrypt fernet row.passwordEncrypted = .ok plaintext

/-- The step adds the mailbox with this key and this password. -/
def AddsSecret (id : ℕ) (plaintext : Bytes) (e : Runs.Taken Db Txn) : Prop :=
  e.before.mailboxSeq = id ∧ ∃ mailbox env post, e.label = .mailboxCreate mailbox ∧
    EncryptsWith fernet whole env.encryptSecret ∧ MailboxForm.Makes env post mailbox ∧
    post.password ≠ [] ∧ encode post.password = some plaintext

end

/-- The step is an edit of the mailbox with this key, with a valid form and a new password. -/
def ChangesSecret (id : ℕ) (password : PyStr) (e : Runs.Taken Db Txn) : Prop :=
  password ≠ [] ∧ ∃ env post row saved, e.label = .mailboxEdit env id post ∧
    post.password = password ∧ rowsOf e.before (.row id) = some row ∧
    editedMailbox env post row = .ok (some saved)

/-- The step enters the password of the mailbox with this key. -/
def EntersSecret (fernet : Fernet Key) (whole : CredentialKeyring Key) (id : ℕ)
    (plaintext : Bytes) (e : Runs.Taken Db Txn) : Prop :=
  AddsSecret fernet whole id plaintext e ∨
    ∃ password, ChangesSecret id password e ∧ encode password = some plaintext

/-- After the step an earlier password of the mailbox with this key is gone. -/
def EndsSecret (id : ℕ) (e : Runs.Taken Db Txn) : Prop :=
  (∃ env, e.label = .mailboxDelete env id) ∨ ∃ password, ChangesSecret id password e

/-- The plaintext is the password that the run has entered last for this key. -/
def EnteredLast (fernet : Fernet Key) (whole : CredentialKeyring Key)
    (tr : List (Runs.Taken Db Txn)) (id : ℕ) (plaintext : Bytes) : Prop :=
  ∃ before entry after, tr = before ++ entry :: after ∧
    EntersSecret fernet whole id plaintext entry ∧ ∀ e ∈ after, ¬ EndsSecret id e

section Steps

variable {fernet : Fernet Key} {whole : CredentialKeyring Key} {plaintext : Bytes}

/-- What is encrypted with a part of the keyring, the keyring decrypts. -/
lemma EncryptsWith.decrypt (hfernet : fernet.Documented) {encryptSecret : PyStr → Option Bytes}
    (h : EncryptsWith fernet whole encryptSecret) {value : PyStr} {c : Bytes}
    (hc : encryptSecret value = some c) :
    ∃ plaintext, encode value = some plaintext ∧ whole.decrypt fernet c = .ok plaintext := by
  obtain ⟨part, hpart, hencrypt⟩ := h
  obtain ⟨seed, hvalue⟩ := hencrypt value
  rw [hvalue] at hc
  obtain ⟨plaintext, hplaintext, hc⟩ := Option.bind_eq_some_iff.1 hc
  have hdecrypt := CredentialKeyring.decrypt_encrypt hfernet (Exceptions.toOption_eq_some.1 hc)
  exact ⟨plaintext, hplaintext, hpart.decrypt hfernet hdecrypt⟩

lemma EncryptsWith.decrypt_iff (hfernet : fernet.Documented) {encryptSecret : PyStr → Option Bytes}
    (h : EncryptsWith fernet whole encryptSecret) {value : PyStr} {c : Bytes}
    (hc : encryptSecret value = some c) :
    whole.decrypt fernet c = .ok plaintext ↔ encode value = some plaintext := by
  obtain ⟨plaintext', hencode, hdecrypt⟩ := h.decrypt hfernet hc
  rw [hencode, hdecrypt]
  simp

/-- The password column that a form saves. -/
lemma MailboxForm.save_password {settings : WebSettings} {unicode : Unicodedata}
    {encryptSecret : PyStr → Option Bytes} {fields cleaned : MailboxFields}
    {mailbox saved : Mailbox}
    (hclean : MailboxForm.clean settings unicode fields = some cleaned)
    (hsave : MailboxForm.save settings encryptSecret cleaned mailbox = some saved) :
    (if fields.password = [] then some mailbox.passwordEncrypted
      else encryptSecret fields.password) = some saved.passwordEncrypted := by
  obtain ⟨-, -, -, hpassword, -⟩ := MailboxForm.clean_eq_some hclean
  unfold MailboxForm.save at hsave
  simp only [Option.bind_eq_bind, Option.bind_eq_some_iff, Option.pure_def,
    Option.some.injEq] at hsave
  obtain ⟨preset, -, password, hsaved, rfl⟩ := hsave
  rw [MailboxForm.savedPassword, hpassword] at hsaved
  exact hsaved

lemma editedMailbox_password {env : WebEnv} {post : MailboxFields} {old saved : Mailbox}
    {changed : List PyStr} (h : editedMailbox env post old = .ok (some (saved, changed))) :
    (if post.password = [] then some old.passwordEncrypted else env.encryptSecret post.password) =
      some saved.passwordEncrypted := by
  unfold editedMailbox at h
  split at h
  · cases h
  · rename_i cleaned hclean
    split at h
    · cases h
    · rename_i row hsave
      cases h
      rw [show post.password = (MailboxForm.bind (some old) post).password from rfl,
        MailboxForm.save_password hclean hsave]
      split <;> rfl

/-- The credential of a new mailbox holds the password of the form. -/
lemma MailboxForm.Makes.decrypt_iff (hfernet : fernet.Documented) {env : WebEnv}
    {post : MailboxFields} {mailbox : Mailbox}
    (hencrypts : EncryptsWith fernet whole env.encryptSecret)
    (h : MailboxForm.Makes env post mailbox) (hpassword : post.password ≠ []) :
    whole.decrypt fernet mailbox.passwordEncrypted = .ok plaintext ↔
      encode post.password = some plaintext := by
  obtain ⟨cleaned, hclean, hsave⟩ := h
  have hsaved := MailboxForm.save_password hclean hsave
  rw [show (MailboxForm.bind none post).password = post.password from rfl,
    if_neg hpassword] at hsaved
  exact hencrypts.decrypt_iff hfernet hsaved

/-- A rotation with a part of the keyring leaves what a credential decrypts to. -/
lemma decrypt_of_rotate (hfernet : fernet.Documented) {part : CredentialKeyring Key}
    (hpart : part.PartOf whole) {clock : ℕ → Time} {auditAt : Time} {old new : Mailbox}
    (h : (MailboxOp.rotate (rotationEnv fernet part clock auditAt)).Keeps old new) :
    (whole.decrypt fernet new.passwordEncrypted = .ok plaintext ↔
      whole.decrypt fernet old.passwordEncrypted = .ok plaintext) := by
  obtain ⟨-, hsame | ⟨tick, hreencrypt⟩⟩ := h
  · rw [hsame]
  · have hok := Exceptions.toOption_eq_some.1 hreencrypt
    simp only [reencryptSecret, Exceptions.ok_bind, Exceptions.bind_eq_ok] at hok
    obtain ⟨q, hq, primary, -, hok⟩ := hok
    have hold := hpart.decrypt hfernet hq
    cases primary with
    | true => simp [pure, Except.pure] at hok
    | false =>
      simp only [Bool.false_eq_true, if_false, Exceptions.bind_eq_ok] at hok
      obtain ⟨rotated, hencrypt, verified, -, hok⟩ := hok
      split at hok
      · cases hok
      · obtain ⟨rfl, -⟩ := Prod.mk.inj (Except.ok.inj hok)
        have hnew := hpart.decrypt hfernet (CredentialKeyring.decrypt_encrypt hfernet hencrypt)
        rw [hold, hnew]

/-- A password comes to be stored by being entered, and is stored until the mailbox is deleted or
another one is entered. -/
lemma Txn.holdsSecret_iff (hfernet : fernet.Documented) {e : Runs.Taken Db Txn}
    (h : e.label.Step e.before e.after) (huses : e.label.UsesKeys fernet whole)
    (hs : e.before.Valid) {id : ℕ} :
    HoldsSecret fernet whole id plaintext e.after ↔
      EntersSecret fernet whole id plaintext e ∨
        HoldsSecret fernet whole id plaintext e.before ∧ ¬ EndsSecret id e := by
  obtain ⟨s, t, s'⟩ := e
  have hstep := Txn.rowStep h hs id
  unfold HoldsSecret EntersSecret AddsSecret EndsSecret ChangesSecret
  simp only at hstep huses ⊢
  cases t with
  | mailboxCreate mailbox =>
    simp only [RowStep] at hstep
    rw [hstep]
    split
    · rename_i hid
      subst hid
      have hnone : rowsOf s (.row s.mailboxSeq) = none := by
        rw [rowsOf, List.find?_eq_none]
        intro m hm hkey
        exact absurd (of_decide_eq_true hkey) (hs.mailbox_seq m hm).ne
      constructor
      · rintro ⟨row, hrow, hdecrypt⟩
        cases hrow
        obtain ⟨env, post, hencrypts, hmakes, hpassword⟩ := huses
        exact .inl (.inl ⟨rfl, mailbox, env, post, rfl, hencrypts, hmakes, hpassword,
          (hmakes.decrypt_iff hfernet hencrypts hpassword).1 hdecrypt⟩)
      · rintro ((⟨-, mailbox', env, post, hlabel, hencrypts, hmakes, hpassword, hencode⟩ |
          ⟨_, ⟨-, _, _, _, _, hlabel, -⟩, -⟩) | ⟨⟨row, hrow, -⟩, -⟩)
        · cases hlabel
          exact ⟨_, rfl, (hmakes.decrypt_iff hfernet hencrypts hpassword).2 hencode⟩
        · cases hlabel
        · rw [hnone] at hrow
          cases hrow
    · rename_i hid
      simp [Ne.symm hid]
  | mailboxDelete env mailboxId =>
    simp only [RowStep] at hstep
    rw [hstep]
    split
    · rename_i hid
      simp [hid]
    · rename_i hid
      simp [Ne.symm hid]
  | mailboxEdit env mailboxId post =>
    simp only [RowStep] at hstep
    split at hstep
    · rename_i hid
      subst hid
      obtain ⟨m, hm, ⟨hinvalid, hsame⟩ | ⟨saved, changed, version, hedit, hnew⟩⟩ := hstep
      · -- a form that is not valid enters nothing
        have hnot : ∀ saved, ¬ editedMailbox env post m = .ok (some saved) := by simp [hinvalid]
        simp [hsame, hm, hnot]
      · have hsaved := editedMailbox_password hedit
        by_cases hblank : post.password = []
        · rw [if_pos hblank, Option.some.injEq] at hsaved
          simp [hnew, hm, hblank, hsaved]
        · rw [if_neg hblank] at hsaved
          simp [hnew, hm, hblank, hedit, huses.decrypt_iff hfernet hsaved]
    · rename_i hid
      simp [hstep, Ne.symm hid]
  | rotate env =>
    obtain ⟨part, clock, auditAt, hpart, rfl⟩ := huses
    obtain ⟨hold, hnew⟩ | ⟨m, m', hold, hnew, hkeeps⟩ := hstep
    · simp [hold, hnew]
    · simp [hold, hnew, decrypt_of_rotate hfernet hpart hkeeps]
  | worker statements =>
    obtain ⟨f, hf, hnew⟩ := hstep
    rw [hnew]
    cases rowsOf s (.row id) with
    | none => simp
    | some m =>
      have hcolumns := hf m
      simp only [Mailbox.securityColumns, SecurityColumns.mk.injEq] at hcolumns
      simp [hcolumns.2.2.2.2.2.1]
  | _ => simp [show rowsOf s' (.row id) = rowsOf s (.row id) from hstep]

/-- Every credential decrypts. -/
def SecretsReadable (fernet : Fernet Key) (whole : CredentialKeyring Key) (db : Db) : Prop :=
  ∀ id row, rowsOf db (.row id) = some row →
    ∃ plaintext, whole.decrypt fernet row.passwordEncrypted = .ok plaintext

/-- Every transaction keeps the credentials readable. -/
lemma Txn.secretsReadable (hfernet : fernet.Documented) {t : Txn} {s s' : Db} (h : t.Step s s')
    (huses : t.UsesKeys fernet whole) (hs : s.Valid) (hread : SecretsReadable fernet whole s) :
    SecretsReadable fernet whole s' := by
  intro id row hrow
  have hstep := Txn.rowStep h hs id
  rw [hrow] at hstep
  cases t with
  | mailboxCreate mailbox =>
    simp only [RowStep] at hstep
    split at hstep
    · cases hstep
      obtain ⟨env, post, hencrypts, ⟨cleaned, hclean, hsave⟩, hpassword⟩ := huses
      -- a new mailbox has a password, which its owner has encrypted
      have hsaved := MailboxForm.save_password hclean hsave
      rw [show (MailboxForm.bind none post).password = post.password from rfl,
        if_neg hpassword] at hsaved
      obtain ⟨plaintext, -, hdecrypt⟩ := hencrypts.decrypt hfernet hsaved
      exact ⟨plaintext, hdecrypt⟩
    · exact hread id row hstep.symm
  | mailboxDelete env mailboxId =>
    simp only [RowStep] at hstep
    split at hstep
    · cases hstep
    · exact hread id row hstep.symm
  | mailboxEdit env mailboxId post =>
    simp only [RowStep] at hstep
    split at hstep
    · obtain ⟨m, hm, ⟨-, hsame⟩ | ⟨saved, changed, version, hedit, hnew⟩⟩ := hstep
      · exact hread id row hsame.symm
      · cases hnew
        have hsaved := editedMailbox_password hedit
        -- an empty field keeps the credential; another one is encrypted anew
        split at hsaved
        · obtain ⟨plaintext, hdecrypt⟩ := hread id m hm
          exact ⟨plaintext, by rw [← hdecrypt, Option.some.inj hsaved]⟩
        · obtain ⟨plaintext, -, hdecrypt⟩ := huses.decrypt hfernet hsaved
          exact ⟨plaintext, hdecrypt⟩
    · exact hread id row hstep.symm
  | rotate env =>
    obtain ⟨part, clock, auditAt, hpart, rfl⟩ := huses
    obtain ⟨-, hnew⟩ | ⟨m, m', hold, hnew, hkeeps⟩ := hstep
    · cases hnew
    · cases hnew
      obtain ⟨plaintext, hdecrypt⟩ := hread id m hold
      exact ⟨plaintext, (decrypt_of_rotate hfernet hpart hkeeps).2 hdecrypt⟩
  | worker statements =>
    obtain ⟨f, hf, hnew⟩ := hstep
    obtain ⟨m, hm, rfl⟩ := Option.map_eq_some_iff.1 hnew.symm
    have hcolumns := hf m
    simp only [Mailbox.securityColumns, SecurityColumns.mk.injEq] at hcolumns
    rw [hcolumns.2.2.2.2.2.1]
    exact hread id m hm
  | _ => exact hread id row hstep.symm

end Steps

/-! ## The command `verify_mailbox_credentials` -/

section Verify

variable (fernet : Fernet Key) (keyring : CredentialKeyring Key)

/-- The loop over the locked rows. -/
def verifyRows : List Mailbox → ℕ → Except CryptoExn ℕ
  | [], verified => .ok verified
  | mailbox :: mailboxes, verified => do
      let _ ← keyring.decrypt fernet mailbox.passwordEncrypted
      verifyRows mailboxes (verified + 1)

/-- `Command.handle`, with the keyring that `credential_keyring()` returns: the number of verified
credentials.  A decryption error becomes a `CommandError`. -/
def verifyMailboxCredentials (db : Db) : Except CryptoExn ℕ :=
  verifyRows fernet keyring (db.mailboxes.insertionSort fun a b => a.id ≤ b.id) 0

variable {fernet keyring}

lemma verifyRows_eq_ok {rows : List Mailbox} {verified n : ℕ} :
    verifyRows fernet keyring rows verified = .ok n ↔
      (∀ m ∈ rows, ∃ plaintext, keyring.decrypt fernet m.passwordEncrypted = .ok plaintext) ∧
        n = verified + rows.length := by
  induction rows generalizing verified with
  | nil => simp [verifyRows, eq_comm]
  | cons m rows ih =>
    rw [verifyRows, List.forall_mem_cons, List.length_cons]
    cases keyring.decrypt fernet m.passwordEncrypted with
    | error e => simp [Exceptions.error_bind]
    | ok plaintext =>
      rw [Exceptions.ok_bind, ih]
      simp [Nat.add_assoc, Nat.add_comm 1]

/-- The command succeeds exactly if every credential decrypts, and counts them. -/
lemma verifyMailboxCredentials_eq_ok {db : Db} {n : ℕ} :
    verifyMailboxCredentials fernet keyring db = .ok n ↔
      (∀ m ∈ db.mailboxes, ∃ plaintext,
        keyring.decrypt fernet m.passwordEncrypted = .ok plaintext) ∧ n = db.mailboxes.length := by
  rw [verifyMailboxCredentials, verifyRows_eq_ok, List.length_insertionSort, Nat.zero_add]
  simp only [List.mem_insertionSort]

end Verify

/-! ## Runs -/

/-- In every run of an installation that starts without mailboxes, whose processes encrypt with
parts of one keyring, the credential of a mailbox decrypts to a password exactly if the owner has
entered it last.  `verify_mailbox_credentials` succeeds with the whole keyring; where it succeeds
with a part of it, a worker with this part logs in with the passwords that were entered last. -/
theorem installationRun_credentials {fernet : Fernet Key} {whole : CredentialKeyring Key}
    {s s' : Db} {tr : List (Runs.Taken Db Txn)} (hfernet : fernet.Documented)
    (hstart : s.mailboxes = []) (hvalid : s.Valid) (h : InstallationRun s tr s')
    (huses : ∀ e ∈ tr, e.label.UsesKeys fernet whole) :
    (∀ id plaintext, HoldsSecret fernet whole id plaintext s' ↔
        EnteredLast fernet whole tr id plaintext) ∧
      verifyMailboxCredentials fernet whole s' = .ok s'.mailboxes.length ∧
      ∀ part : CredentialKeyring Key, part.PartOf whole →
        ∀ n, verifyMailboxCredentials fernet part s' = .ok n → ∀ m ∈ s'.mailboxes,
          ∃ plaintext, part.decrypt fernet m.passwordEncrypted = .ok plaintext ∧
            EnteredLast fernet whole tr m.id plaintext := by
  have hnone : ∀ id, rowsOf s (.row id) = none := by
    intro id
    rw [rowsOf, hstart, List.find?_nil]
  have hholds : ∀ id plaintext, HoldsSecret fernet whole id plaintext s' ↔
      EnteredLast fernet whole tr id plaintext := by
    intro id plaintext
    rw [h.holds_iff (fun _ _ _ hstep hs => Txn.valid hstep hs)
      (fun e he hstep hs => Txn.holdsSecret_iff hfernet hstep (huses e he) hs) hvalid,
      or_iff_right]
    · rfl
    · rintro ⟨⟨row, hrow, -⟩, -⟩
      rw [hnone] at hrow
      cases hrow
  -- every credential stays readable along the run
  have hend : s'.Valid ∧ SecretsReadable fernet whole s' := by
    refine (h.kept (I := fun db => db.Valid ∧ SecretsReadable fernet whole db) ?_ ⟨hvalid, ?_⟩).1
    · intro e he hs
      have hstep := h.step_of_mem e he
      exact ⟨Txn.valid hstep hs.1, Txn.secretsReadable hfernet hstep (huses e he) hs.1 hs.2⟩
    · intro id row hrow
      rw [hnone] at hrow
      cases hrow
  have hrows : ∀ m ∈ s'.mailboxes, rowsOf s' (.row m.id) = some m :=
    fun m hm => rowsOf_of_mem hend.1.mailbox_ids hm
  refine ⟨hholds, ?_, ?_⟩
  · exact verifyMailboxCredentials_eq_ok.2 ⟨fun m hm => hend.2 m.id m (hrows m hm), rfl⟩
  · intro part hpart n hverify m hm
    obtain ⟨plaintext, hdecrypt⟩ := (verifyMailboxCredentials_eq_ok.1 hverify).1 m hm
    exact ⟨plaintext, hdecrypt, (hholds m.id plaintext).1 ⟨m, hrows m hm,
      hpart.decrypt hfernet hdecrypt⟩⟩

/-! ## A rotation -/

/-- Tokens of a toy cipher: a version and the key before the plaintext. -/
def taggedFernet : Fernet UInt8 where
  make text := (text.filter fun x => x ≠ 0x0D ∧ x ≠ 0x0A).head?
  encrypt key _ value := 0x67 :: key :: value
  decrypt key
    | version :: key' :: value => if version = 0x67 ∧ key' = key then some value else none
    | _ => none

lemma taggedFernet_documented : taggedFernet.Documented where
  lines b := by simp [taggedFernet]
  authentic := by
    intro key key' token plaintext plaintext' h h'
    rcases token with _ | ⟨version, _ | ⟨tag, value⟩⟩
    · cases h
    · cases h
    · simp only [taggedFernet, Option.ite_none_right_eq_some, Option.some.injEq] at h h'
      exact h.2.symm.trans h'.2
  decrypt_encrypt key seed plaintext := by simp [taggedFernet]
  token_head key seed plaintext := rfl

/-- The keyring before the rotation. -/
def oldKeyring : CredentialKeyring UInt8 where
  primaryId := some (py "old")
  keys := [(py "old", 2)]
  legacyKeys := [2]
  key_ids := by decide
  distinct := by decide
  primary_mem := by decide
  legacy_ne := by decide

/-- An owner whose process has the old keyring. -/
def keyedWebEnv : WebEnv :=
  { sampleWebEnv with
    encryptSecret := fun value =>
      (encode value).bind fun plaintext => (oldKeyring.encrypt taggedFernet 0 plaintext).toOption }

/-- The password of a new mailbox is still the one that a worker with the new key alone logs in
with, after the rotation to this key. -/
theorem installationRun_credentials_rotated :
    ∃ tr s', InstallationRun emptyDb tr s' ∧ s'.mailboxes.length = 1 ∧
      ∀ m ∈ s'.mailboxes, ∃ plaintext,
      (sampleKeyring.reduced (py "new") 1 rfl).decrypt taggedFernet m.passwordEncrypted =
          .ok plaintext ∧ EnteredLast taggedFernet sampleKeyring tr m.id plaintext := by
  have hmakes : MailboxForm.Makes keyedWebEnv sampleFields (addedMailbox keyedWebEnv) :=
    addedMailbox_makes (by decide +kernel)
  have hcreate : (Txn.mailboxCreate (addedMailbox keyedWebEnv)).Step emptyDb _ :=
    Txn.step_next (by decide +kernel)
  have hrotate := Txn.step_next
    (t := .rotate (rotationEnv taggedFernet sampleKeyring (fun n => n) 7))
    (s := (Txn.mailboxCreate (addedMailbox keyedWebEnv)).next emptyDb) (by decide +kernel)
  have hrun : InstallationRun emptyDb _ _ := .cons hcreate (.cons hrotate (.nil _))
  have hold : oldKeyring.PartOf sampleKeyring := by
    refine ⟨fun id key h => ?_, by simp [oldKeyring, sampleKeyring]⟩
    have hid := List.mem_singleton.1 (Dict.mem_of_lookup h)
    cases hid
    rfl
  have hnew : (sampleKeyring.reduced (py "new") 1 rfl).PartOf sampleKeyring := by
    refine ⟨fun id key h => ?_, by simp [CredentialKeyring.reduced, sampleKeyring]⟩
    have hid := List.mem_singleton.1 (Dict.mem_of_lookup h)
    cases hid
    rfl
  have hcreateKeys : (Txn.mailboxCreate (addedMailbox keyedWebEnv)).UsesKeys taggedFernet
      sampleKeyring :=
    ⟨keyedWebEnv, sampleFields, ⟨oldKeyring, hold, fun value => ⟨0, rfl⟩⟩, hmakes, by decide⟩
  have hrotateKeys : (Txn.rotate (rotationEnv taggedFernet sampleKeyring (fun n => n) 7)).UsesKeys
      taggedFernet sampleKeyring := ⟨sampleKeyring, _, _, .refl _, rfl⟩
  obtain ⟨-, -, hparts⟩ :=
    installationRun_credentials taggedFernet_documented rfl emptyDb_valid hrun
      (List.forall_mem_cons.2 ⟨hcreateKeys, List.forall_mem_singleton.2 hrotateKeys⟩)
  exact ⟨_, _, hrun, by decide +kernel, hparts _ hnew 1 (by decide +kernel)⟩

end MailGate
