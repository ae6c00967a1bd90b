import MailGate.MailboxRows

/-!
# The row of one mailbox

What each transaction of the installation makes of the row with a given key: the owner creates it,
edits it and deletes it, the rotation writes its credential, and the worker writes its status.
-/

namespace MailGate

/-- What the transaction makes of the row with the key `id` in `s`. -/
def Txn.RowStep (s : Db) (id : ℕ) (old new : Option Mailbox) : Txn → Prop
  | .mailboxCreate mailbox =>
      new = if id = s.mailboxSeq then some { mailbox with id := id } else old
  | .mailboxDelete _ mailboxId => new = if id = mailboxId then none else old
  | .mailboxEdit env mailboxId post =>
      if id = mailboxId then
        ∃ m, old = some m ∧
          (editedMailbox env post m = .ok none ∧ new = old ∨
            ∃ saved changed version, editedMailbox env post m = .ok (some (saved, changed)) ∧
              new = some { saved with configVersion := version })
      else new = old
  | .rotate env =>
      old = none ∧ new = none ∨
        ∃ m m', old = some m ∧ new = some m' ∧ (MailboxOp.rotate env).Keeps m m'
  | .worker _ => ∃ f : Mailbox → Mailbox, (∀ m, (f m).securityColumns = m.securityColumns) ∧
      new = old.map f
  | _ => new = old

section Rows

variable {s s' : Db}

lemma rowsOf_congr (h : s'.mailboxes = s.mailboxes) : rowsOf s' = rowsOf s := by
  ext k : 1
  cases k with
  | row id => rw [rowsOf, rowsOf, h]
  | rotation => rfl

lemma rowsOf_insertMailbox {mailbox : Mailbox} {key : ℕ} (hs : s.Valid)
    (h : s.insertMailbox mailbox = .ok (key, s')) (id : ℕ) :
    rowsOf s' (.row id) =
      if id = s.mailboxSeq then some { mailbox with id := id } else rowsOf s (.row id) := by
  obtain ⟨-, -, rfl⟩ := Db.insertMailbox_eq_ok.1 h
  simp only [rowsOf, List.find?_append]
  by_cases hid : id = s.mailboxSeq
  · -- no row has the key that the sequence hands out
    subst hid
    have hnone : s.mailboxes.find? (·.id = s.mailboxSeq) = none := by
      rw [List.find?_eq_none]
      intro m hm hkey
      exact absurd (of_decide_eq_true hkey) (hs.mailbox_seq m hm).ne
    simp [hnone]
  · simp [hid, Ne.symm hid]

lemma rowsOf_deleteMailbox (mailboxId id : ℕ) :
    rowsOf (s.deleteMailbox mailboxId) (.row id) =
      if id = mailboxId then none else rowsOf s (.row id) := by
  simp only [rowsOf, Db.deleteMailbox, Db.deleteMessages, List.find?_filter]
  split
  · rename_i hid
    rw [List.find?_eq_none]
    intro m _
    simp [hid]
  · rename_i hid
    refine List.find?_congr fun m _ => ?_
    by_cases hm : m.id = id
    · simp [hm, hid]
    · simp [hm]

lemma rowsOf_mailboxEdit {env : WebEnv} {mailboxId : ℕ} {post : MailboxFields} {saved : Bool}
    (h : mailboxEditTransaction env mailboxId post s = .ok (saved, s')) (id : ℕ) :
    (Txn.mailboxEdit env mailboxId post).RowStep s id (rowsOf s (.row id))
      (rowsOf s' (.row id)) := by
  unfold mailboxEditTransaction at h
  simp only [Txn.RowStep]
  split at h
  · cases h
  · rename_i mailbox hfind
    have hid := (rowsOf_eq_some (show rowsOf s (.row mailboxId) = some mailbox from hfind)).2
    split at h
    · cases h
    · rename_i hedit
      cases h
      split
      · rename_i heq
        subst heq
        exact ⟨mailbox, hfind, .inl ⟨hedit, rfl⟩⟩
      · rfl
    · rename_i saved' changed hedit
      split at h
      · cases h
      · rename_i n s₁ hupd
        cases h
        have hrows := rowsOf_updateMailboxes hupd
          (fun m _ hm => (editedMailbox_id hedit).trans (hid.trans (of_decide_eq_true hm).symm))
          (.row id)
        rw [rowsOf_writeAudit, hrows]
        split
        · rename_i heq
          subst heq
          obtain ⟨version, hbump⟩ := bumpMailboxConfigVersion_eq mailbox saved'
          refine ⟨mailbox, hfind, .inr ⟨saved', changed, version, hedit, ?_⟩⟩
          rw [show rowsOf s (.row id) = some mailbox from hfind, Option.map_some,
            if_pos (by simpa using hid), hbump]
        · -- the condition of the update holds of no other row
          rename_i hne
          cases hrow : rowsOf s (.row id) with
          | none => rfl
          | some m =>
            rw [Option.map_some, if_neg]
            rw [decide_eq_true_eq, (rowsOf_eq_some hrow).2]
            exact hne

lemma rowsOf_workerTransaction {statements : List WorkerStatement}
    (h : workerTransaction statements s = .ok s') (id : ℕ) :
    ∃ f : Mailbox → Mailbox, (∀ m, (f m).securityColumns = m.securityColumns) ∧
      rowsOf s' (.row id) = (rowsOf s (.row id)).map f := by
  induction statements generalizing s with
  | nil =>
    cases h
    exact ⟨fun m => m, fun _ => rfl, Option.map_id'.symm⟩
  | cons statement statements ih =>
    obtain ⟨s₁, hfirst, hrest⟩ := Exceptions.bind_eq_ok.1 h
    obtain ⟨f, hf, hrows⟩ := ih hrest
    have hsame : s₁.mailboxes = s.mailboxes → ∃ g : Mailbox → Mailbox,
        (∀ m, (g m).securityColumns = m.securityColumns) ∧
          rowsOf s' (.row id) = (rowsOf s (.row id)).map g := by
      intro heq
      exact ⟨f, hf, by rw [hrows, rowsOf_congr heq]⟩
    cases statement with
    | updateMailboxes p set =>
      obtain ⟨⟨n, s₂⟩, hupd, hend⟩ := Exceptions.bind_eq_ok.1 hfirst
      cases hend
      refine ⟨fun m => f (if p m then bumpMailboxConfigVersion m (m.withStatus (set m)) else m),
        fun m => ?_, ?_⟩
      · rw [hf, bumpMailboxConfigVersion_withStatus]
        split <;> rfl
      · rw [hrows, rowsOf_updateMailboxes hupd (by exact fun _ _ _ => rfl), Option.map_map]
        rfl
    | insertMessage new =>
      obtain ⟨-, -, -, -, rfl⟩ := Db.insertMessage_eq_ok.1 hfirst
      exact hsame rfl
    | insertAttachments rows =>
      obtain ⟨-, -, rfl⟩ := Db.insertAttachments_eq_ok.1 hfirst
      exact hsame rfl
    | insertAudit event =>
      cases hfirst
      exact hsame rfl

/-- A rotation keeps every key. -/
lemma rotateMailboxes_none {env : RotationEnv} {rows : List Mailbox} {tick n total : ℕ}
    (h : rotateMailboxes env tick rows n s = some (total, s')) {id : ℕ}
    (hnone : rowsOf s (.row id) = none) : rowsOf s' (.row id) = none := by
  induction rows generalizing tick n s with
  | nil =>
    cases h
    exact hnone
  | cons row rows ih =>
    simp only [rotateMailboxes, Option.bind_eq_bind, Option.bind_eq_some_iff] at h
    obtain ⟨⟨ciphertext, changed⟩, -, h⟩ := h
    simp only at h
    split at h
    · exact ih h hnone
    · split at h
      · cases h
      · rename_i hupd
        refine ih h ?_
        rw [rowsOf_updateMailboxes hupd (by exact fun _ _ _ => rfl), hnone, Option.map_none]

lemma rowsOf_rotate {env : RotationEnv} (hs : s.Valid)
    (h : rotateMailboxCredentials env s = some s') (id : ℕ) :
    (Txn.rotate env).RowStep s id (rowsOf s (.row id)) (rowsOf s' (.row id)) := by
  cases hold : rowsOf s (.row id) with
  | none =>
    simp only [rotateMailboxCredentials, Option.bind_eq_bind, Option.bind_eq_some_iff,
      Option.pure_def, Option.some.injEq] at h
    obtain ⟨primaryId, -, ⟨total, s₁⟩, hloop, rfl⟩ := h
    rw [rowsOf_writeAudit, rotateMailboxes_none hloop hold]
    exact .inl ⟨rfl, rfl⟩
  | some m =>
    have hop : (MailboxOp.rotate env).exec s = some s' := h
    have hrows := MailboxOp.exec_keepsRows hs.mailbox_ids (by simp) hop
    obtain ⟨m', hnew, hkeeps⟩ := hrows id m hold
    exact .inr ⟨m, m', rfl, hnew, hkeeps⟩

end Rows

/-- What each transaction of the installation makes of the row of a mailbox. -/
theorem Txn.rowStep {t : Txn} {s s' : Db} (h : t.Step s s') (hs : s.Valid) (id : ℕ) :
    t.RowStep s id (rowsOf s (.row id)) (rowsOf s' (.row id)) := by
  have hsame : s'.mailboxes = s.mailboxes → rowsOf s' (.row id) = rowsOf s (.row id) :=
    fun heq => by rw [rowsOf_congr heq]
  unfold Txn.Step at h
  cases t with
  | store a =>
    obtain ⟨created, hbody⟩ := Exceptions.toOption_map_snd.1 h
    rcases StoreArgs.transaction_cases hbody with ⟨-, rfl, -, -⟩ | ⟨-, rfl, -⟩
    · exact hsame rfl
    · exact hsame rfl
  | worker statements => exact rowsOf_workerTransaction (Exceptions.toOption_eq_some.1 h) id
  | setupOwner username userId now =>
    obtain ⟨page, hbody⟩ := Exceptions.toOption_map_snd.1 h
    exact hsame (setupOwnerTransaction_sameMail hbody).mailboxes
  | mailboxCreate mailbox =>
    obtain ⟨key, hbody⟩ := Exceptions.toOption_map_snd.1 h
    exact rowsOf_insertMailbox hs hbody id
  | audit actor action obj metadata now =>
    cases h
    exact hsame rfl
  | mailboxEdit env mailboxId post =>
    obtain ⟨saved, hbody⟩ := Exceptions.toOption_map_snd.1 h
    exact rowsOf_mailboxEdit hbody id
  | mailboxDelete env mailboxId =>
    obtain ⟨_, hbody⟩ := Exceptions.toOption_map_snd.1 h
    obtain ⟨s₁, hsame₁, rfl⟩ := mailboxDeleteTransaction_eq_ok hbody
    simp only [RowStep, rowsOf_deleteMailbox, rowsOf_congr hsame₁.mailboxes]
  | messageDecide env messageId decision =>
    simp only [Txn.exec] at h
    split at h
    swap
    · cases h
    obtain ⟨_, hbody⟩ := Exceptions.toOption_map_snd.1 h
    obtain ⟨s₁, hupd, hsame₁⟩ := messageDecideTransaction_eq_ok hbody
    obtain ⟨-, -, rfl⟩ := Db.updateDecision_eq_ok.1 hupd
    exact hsame hsame₁.mailboxes
  | tokenIssue token =>
    obtain ⟨key, hbody⟩ := Exceptions.toOption_map_snd.1 h
    exact hsame (insertToken_sameMail hbody).mailboxes
  | tokenRevoke tokenId now =>
    exact hsame (updateRevoked_sameMail (Exceptions.toOption_eq_some.1 h)).mailboxes
  | authorize tokenHash path now =>
    cases h
    exact hsame (mailgateApiAuthorize_sameMail tokenHash path now s).mailboxes
  | purge policy now batchSize auditAt =>
    obtain ⟨⟨counts, s₁⟩, hbody, rfl⟩ := Option.map_eq_some_iff.1 h
    exact hsame (purgeRetention_frame hbody).2.1
  | rotate env => exact rowsOf_rotate hs h id

/-! ## The policy of the installation -/

/-- The row obeys the policy of an installation for this host, where the owners fill in their
forms in these environments. -/
structure Mailbox.Permitted (allowedHost : PyStr) (owners : Set WebEnv) (m : Mailbox) :
    Prop where
  host : m.host = allowedHost
  port : m.port = 993
  preset : ∃ preset, getProviderPreset m.providerKey = some preset ∧
    m.presetVersion = preset.presetVersion ∧ effectiveImapHost preset allowedHost = allowedHost
  trusted : ∃ env ∈ owners, ∃ value,
    normaliseAuthservIds env.unicode value = some m.trustedAuthservIds

/-- The policy concerns columns that the worker does not write. -/
lemma Mailbox.Permitted.congr {allowedHost : PyStr} {owners : Set WebEnv} {m m' : Mailbox}
    (h : m.Permitted allowedHost owners) (hsame : m'.securityColumns = m.securityColumns) :
    m'.Permitted allowedHost owners := by
  simp only [Mailbox.securityColumns, SecurityColumns.mk.injEq] at hsame
  obtain ⟨hkey, hversion, hhost, hport, -, -, htrusted, -⟩ := hsame
  exact ⟨hhost.trans h.host, hport.trans h.port, by rw [hkey, hversion]; exact h.preset,
    by rw [htrusted]; exact h.trusted⟩

/-- What the form saves obeys the policy. -/
lemma MailboxForm.save_permitted {owners : Set WebEnv} {env : WebEnv} (henv : env ∈ owners)
    {fields cleaned : MailboxFields} {mailbox saved : Mailbox}
    (hclean : MailboxForm.clean env.settings env.unicode fields = some cleaned)
    (hsave : MailboxForm.save env.settings env.encryptSecret cleaned mailbox = some saved) :
    saved.Permitted env.settings.imapAllowedHost owners ∧
      saved.providerKey = fields.providerKey ∧ saved.username = fields.username := by
  obtain ⟨hport, hkey, husername, -, preset, hpreset, hallowed⟩ := MailboxForm.clean_eq_some hclean
  have htrusted : normaliseAuthservIds env.unicode fields.trustedAuthservIds =
      some cleaned.trustedAuthservIds := by
    unfold MailboxForm.clean at hclean
    simp only [Option.bind_eq_bind, Option.pure_def] at hclean
    split at hclean
    · cases hclean
    · split at hclean
      · cases hclean
      · obtain ⟨ids, hids, hclean⟩ := Option.bind_eq_some_iff.1 hclean
        obtain ⟨_, -, hclean⟩ := Option.bind_eq_some_iff.1 hclean
        split at hclean
        · cases hclean
        · cases hclean
          exact hids
  unfold MailboxForm.save at hsave
  simp only [Option.bind_eq_bind, Option.bind_eq_some_iff, Option.pure_def,
    Option.some.injEq] at hsave
  obtain ⟨preset', hpreset', password, -, rfl⟩ := hsave
  have hsame : preset' = preset := by
    rw [hkey, hpreset] at hpreset'
    exact (Option.some.inj hpreset').symm
  subst hsame
  obtain ⟨hpresetKey, hpresetPort⟩ := getProviderPreset_eq_some hpreset
  exact ⟨⟨hallowed, hpresetPort, ⟨preset', by rw [hpresetKey, hpreset], rfl, hallowed⟩,
    ⟨env, henv, _, htrusted⟩⟩, hpresetKey, husername⟩

/-- What is done with the form of a mailbox is done in one of these environments. -/
def Txn.ByOwners (owners : Set WebEnv) : Txn → Prop
  | .mailboxCreate mailbox => ∃ env ∈ owners, ∃ post, MailboxForm.Makes env post mailbox
  | .mailboxEdit env _ _ => env ∈ owners
  | _ => True

/-- The step creates the mailbox with this key for this user of this provider. -/
def CreatesAs (id : ℕ) (providerKey username : PyStr) (e : Runs.Taken Db Txn) : Prop :=
  e.before.mailboxSeq = id ∧ ∃ mailbox, e.label = .mailboxCreate mailbox ∧
    mailbox.providerKey = providerKey ∧ mailbox.username = username

/-- There is a mailbox with this key for this user of this provider. -/
def Identified (id : ℕ) (providerKey username : PyStr) (db : Db) : Prop :=
  ∃ row, rowsOf db (.row id) = some row ∧ row.providerKey = providerKey ∧ row.username = username

/-- The tables are sound, and all mailboxes obey the policy. -/
structure Db.Governed (allowedHost : PyStr) (owners : Set WebEnv) (db : Db) : Prop where
  valid : db.Valid
  permitted : ∀ id row, rowsOf db (.row id) = some row → row.Permitted allowedHost owners

section Policy

variable {allowedHost : PyStr} {owners : Set WebEnv} {s s' : Db}

/-- What an edit saves obeys the policy, and is for the same user of the same provider. -/
lemma editedMailbox_permitted {env : WebEnv} (henv : env ∈ owners) {post : MailboxFields}
    {old saved : Mailbox} {changed : List PyStr}
    (h : editedMailbox env post old = .ok (some (saved, changed))) (version : ℕ) :
    Mailbox.Permitted env.settings.imapAllowedHost owners
        { saved with configVersion := version } ∧
      saved.providerKey = old.providerKey ∧ saved.username = old.username := by
  unfold editedMailbox at h
  split at h
  · cases h
  · rename_i cleaned hclean
    split at h
    · cases h
    · rename_i row hsave
      cases h
      obtain ⟨hpermitted, hkey, husername⟩ := MailboxForm.save_permitted henv hclean hsave
      split
      · exact ⟨hpermitted.congr rfl, hkey, husername⟩
      · exact ⟨hpermitted.congr rfl, hkey, husername⟩

/-- Every transaction keeps the policy. -/
lemma Txn.governed (hhost : ∀ env ∈ owners, env.settings.imapAllowedHost = allowedHost)
    {t : Txn} (h : t.Step s s') (ht : t.ByOwners owners) (hs : s.Governed allowedHost owners) :
    s'.Governed allowedHost owners := by
  refine ⟨Txn.valid h hs.valid, fun id row hrow => ?_⟩
  have hstep := Txn.rowStep h hs.valid id
  rw [hrow] at hstep
  cases t with
  | mailboxCreate mailbox =>
    obtain ⟨env, henv, post, cleaned, hclean, hsave⟩ := ht
    simp only [RowStep] at hstep
    split at hstep
    · cases hstep
      rw [← hhost env henv]
      exact (MailboxForm.save_permitted henv hclean hsave).1.congr rfl
    · exact hs.permitted id row hstep.symm
  | mailboxDelete env mailboxId =>
    simp only [RowStep] at hstep
    split at hstep
    · cases hstep
    · exact hs.permitted id row hstep.symm
  | mailboxEdit env mailboxId post =>
    simp only [RowStep] at hstep
    split at hstep
    · obtain ⟨m, hm, ⟨-, hsame⟩ | ⟨saved, changed, version, hedit, hnew⟩⟩ := hstep
      · exact hs.permitted id row hsame.symm
      · cases hnew
        rw [← hhost env ht]
        exact (editedMailbox_permitted ht hedit version).1
    · exact hs.permitted id row hstep.symm
  | rotate env =>
    obtain ⟨-, hnew⟩ | ⟨m, m', hold, hnew, ⟨password, version, at', rfl⟩, -⟩ := hstep
    · cases hnew
    · cases hnew
      obtain ⟨hhost, hport, hpreset, htrusted⟩ := hs.permitted id m hold
      exact ⟨hhost, hport, hpreset, htrusted⟩
  | worker statements =>
    obtain ⟨f, hf, hnew⟩ := hstep
    obtain ⟨m, hm, rfl⟩ := Option.map_eq_some_iff.1 hnew.symm
    exact (hs.permitted id m hm).congr (hf m)
  | _ => exact hs.permitted id row hstep.symm

/-- A mailbox comes to be identified by being created, and stays so until it is deleted. -/
lemma Txn.identified_iff {e : Runs.Taken Db Txn} (h : e.label.Step e.before e.after)
    (hs : e.before.Valid) {id : ℕ} {providerKey username : PyStr} :
    Identified id providerKey username e.after ↔
      CreatesAs id providerKey username e ∨
        Identified id providerKey username e.before ∧ ¬ ∃ env, e.label = .mailboxDelete env id := by
  obtain ⟨s, t, s'⟩ := e
  have hstep := Txn.rowStep h hs id
  unfold Identified CreatesAs
  simp only at hstep ⊢
  cases t with
  | mailboxCreate mailbox =>
    simp only [RowStep] at hstep
    rw [hstep]
    split
    · rename_i hid
      have hnone : rowsOf s (.row id) = none := by
        rw [rowsOf, List.find?_eq_none]
        intro m hm hkey
        exact absurd ((of_decide_eq_true hkey).trans hid) (hs.mailbox_seq m hm).ne
      subst hid
      simp [hnone]
    · rename_i hid
      simp [Ne.symm hid]
  | mailboxDelete env mailboxId =>
    simp only [RowStep] at hstep
    rw [hstep]
    split
    · rename_i hid
      simp [hid]
    · rename_i hid
      simp [Ne.symm hid]
  | mailboxEdit env mailboxId post =>
    simp only [RowStep] at hstep
    split at hstep
    · obtain ⟨m, hm, ⟨-, hsame⟩ | ⟨saved, changed, version, hedit, hnew⟩⟩ := hstep
      · simp [hsame]
      · -- the disabled fields of the form
        obtain ⟨-, hkey, husername⟩ := editedMailbox_permitted (Set.mem_univ env) hedit version
        simp [hnew, hm, hkey, husername]
    · simp [hstep]
  | rotate env =>
    obtain ⟨hold, hnew⟩ | ⟨m, m', hold, hnew, ⟨password, version, at', rfl⟩, -⟩ := hstep
    · simp [hold, hnew]
    · simp [hold, hnew]
  | worker statements =>
    obtain ⟨f, hf, hnew⟩ := hstep
    rw [hnew]
    cases rowsOf s (.row id) with
    | none => simp
    | some m =>
      have hcolumns := hf m
      simp only [Mailbox.securityColumns, SecurityColumns.mk.injEq] at hcolumns
      simp [hcolumns.1, hcolumns.2.2.2.2.1]
  | _ => simp [show rowsOf s' (.row id) = rowsOf s (.row id) from hstep]

end Policy

/-- In every run of an installation that starts without mailboxes, where all owners work with the
settings of one host, every mailbox obeys the policy, so that no run of the worker is refused for
it; and the mailbox with a key is for the user and the provider that the owner has created it
for, until the owner deletes it. -/
theorem installationRun_policy {allowedHost : PyStr} {owners : Set WebEnv} {s s' : Db}
    {tr : List (Runs.Taken Db Txn)} (hstart : s.mailboxes = []) (hvalid : s.Valid)
    (h : InstallationRun s tr s') (howners : ∀ e ∈ tr, e.label.ByOwners owners)
    (hhost : ∀ env ∈ owners, env.settings.imapAllowedHost = allowedHost) :
    (∀ m ∈ s'.mailboxes, m.Permitted allowedHost owners ∧
      ∀ env : SyncEnv, env.allowedHost = allowedHost → openImap env m = env.imap.connect) ∧
    ∀ id providerKey username, Identified id providerKey username s' ↔
      ∃ before create after, tr = before ++ create :: after ∧
        CreatesAs id providerKey username create ∧
        ∀ e ∈ after, ∀ env, e.label ≠ .mailboxDelete env id := by
  have hnone : ∀ id, rowsOf s (.row id) = none := by
    intro id
    rw [rowsOf, hstart, List.find?_nil]
  have hgoverned : s.Governed allowedHost owners :=
    ⟨hvalid, fun id row hrow => by rw [hnone] at hrow; cases hrow⟩
  have hend : s'.Governed allowedHost owners :=
    (h.kept (fun e he hs => Txn.governed hhost (h.step_of_mem e he) (howners e he) hs)
      hgoverned).1
  refine ⟨fun m hm => ?_, fun id providerKey username => ?_⟩
  · have hpermitted := hend.permitted m.id m (rowsOf_of_mem hend.valid.mailbox_ids hm)
    refine ⟨hpermitted, fun env henv => ?_⟩
    rw [openImap, if_neg]
    rw [hpermitted.host, hpermitted.port, henv]
    simp
  · rw [h.holds_iff (fun _ _ _ hstep hs => Txn.valid hstep hs)
      (fun e _ hstep hs => Txn.identified_iff hstep hs) hvalid, or_iff_right]
    · simp only [not_exists]
    · rintro ⟨⟨row, hrow, -⟩, -⟩
      rw [hnone] at hrow
      cases hrow

/-- The form of an owner who adds a mailbox. -/
def sampleFields : MailboxFields where
  name := py "Inbox"
  providerKey := py "generic_imaps"
  host := py " IMAP.example.org. "
  port := 993
  username := py "owner"
  password := py "secret"
  trustedAuthservIds := py "MX.example.org, mx.Example.org"
  enabled := true

/-- What the form saves. -/
def savedFields (env : WebEnv) : Option Mailbox :=
  (MailboxForm.clean env.settings env.unicode sampleFields).bind fun cleaned =>
    MailboxForm.save env.settings env.encryptSecret cleaned (MailboxForm.newMailbox (env.clock 0))

/-- The new mailbox. -/
def addedMailbox (env : WebEnv) : Mailbox := (savedFields env).getD sampleMailbox

lemma addedMailbox_makes {env : WebEnv} (h : (savedFields env).isSome = true) :
    MailboxForm.Makes env sampleFields (addedMailbox env) := by
  obtain ⟨mailbox, hmailbox⟩ := Option.isSome_iff_exists.1 h
  obtain ⟨cleaned, hclean, hsave⟩ := Option.bind_eq_some_iff.1 hmailbox
  rw [addedMailbox, hmailbox]
  exact ⟨cleaned, hclean, hsave⟩

/-- A database without mailboxes. -/
def emptyDb : Db := { sampleDb with mailboxes := [] }

lemma emptyDb_valid : emptyDb.Valid := by constructor <;> decide

/-- A mailbox that the owner adds may be synchronised, and trusts the one service that the owner
has named twice. -/
theorem installationRun_policy_sample :
    ∃ tr s' m, InstallationRun emptyDb tr s' ∧ s'.mailboxes = [m] ∧
      m.trustedAuthservIds = py "mx.example.org" ∧
      m.Permitted (py "imap.example.org") {sampleWebEnv} ∧
      Identified m.id (py "generic_imaps") (py "owner") s' := by
  have hmakes : MailboxForm.Makes sampleWebEnv sampleFields (addedMailbox sampleWebEnv) :=
    addedMailbox_makes (by decide +kernel)
  have hstep : (Txn.mailboxCreate (addedMailbox sampleWebEnv)).Step emptyDb _ :=
    Txn.step_next (by decide +kernel)
  have hrun : InstallationRun emptyDb _ _ := .cons hstep (.nil _)
  have howners : (Txn.mailboxCreate (addedMailbox sampleWebEnv)).ByOwners {sampleWebEnv} :=
    ⟨sampleWebEnv, rfl, sampleFields, hmakes⟩
  have hhost : ∀ env ∈ ({sampleWebEnv} : Set WebEnv),
      env.settings.imapAllowedHost = py "imap.example.org" := by
    rintro _ rfl
    rfl
  obtain ⟨hpermitted, hidentified⟩ := installationRun_policy rfl emptyDb_valid hrun
    (List.forall_mem_singleton.2 howners) hhost
  have hrows : ((Txn.mailboxCreate (addedMailbox sampleWebEnv)).next emptyDb).mailboxes =
      [{ addedMailbox sampleWebEnv with id := 2 }] := by decide +kernel
  refine ⟨_, _, _, hrun, hrows, by decide +kernel, (hpermitted _ (by rw [hrows]; simp)).1, ?_⟩
  rw [hidentified]
  exact ⟨[], _, [], rfl, ⟨by decide, addedMailbox sampleWebEnv, rfl, by decide +kernel,
    by decide +kernel⟩, by simp⟩

end MailGate
