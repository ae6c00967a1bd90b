import MailGate.Ingestion.Transparent
import MailGate.Ingestion.Cursor
import MailGate.Lib.Outcomes

/-!
# What a failing run reports

A run that raises is to leave an error code and the time in the row of its mailbox, so that the
owner sees that something is wrong.  `sync_mailbox` does so in an `except` clause that takes four
classes of exceptions; it reads the password before the `try`, and logs out behind it.
-/

namespace MailGate

open Transaction Relation

/-! ## The world of a run -/

/-- The row of the mailbox is there, enabled and with the version that the run started with. -/
def Watched (mailbox : Mailbox) (db : Db) : Prop :=
  (db.mailboxes.map (·.id)).Nodup ∧
    ∃ row, rowsOf db (.row mailbox.id) = some row ∧ guardsMailbox mailbox row = true ∧ row.Fits

/-- The columns that report how the last run went. -/
def statusOf (id : ℕ) (db : Db) : Option (PyStr × Option Time) :=
  (rowsOf db (.row id)).map fun m => (m.lastErrorCode, m.lastSyncAt)

/-- The identifiers that the run draws from this tick on are free. -/
def Unused (ids : ℕ → Uuid) (batchSize tick : ℕ) (db : Db) : Prop :=
  ∀ i, tick ≤ i → i < batchSize → ∀ m ∈ db.messages, m.id ≠ ids i

/-- The others may commit anything that keeps the mailbox enabled with its version, does not
write its status and takes none of the identifiers of this run; the database does not fail. -/
def othersOf (ids : ℕ → Uuid) (batchSize : ℕ) (mailbox : Mailbox) : World Db SyncExn where
  env a b := Watched mailbox a → Watched mailbox b ∧
    statusOf mailbox.id b = statusOf mailbox.id a ∧
    ∀ tick, Unused ids batchSize tick a → Unused ids batchSize tick b
  fault _ := False

/-- The calls of `imaplib` do not raise the exception of the application. -/
structure PlainImap (imap : ImapSession) : Prop where
  connect : ∀ code, imap.connect ≠ .error (.mailboxSync code)
  login : ∀ username password code, imap.login username password ≠ .error (.mailboxSync code)
  select : ∀ code, imap.select ≠ .error (.mailboxSync code)
  response : ∀ code, imap.response ≠ .error (.mailboxSync code)
  uid : ∀ number command code, imap.uid number command ≠ .error (.mailboxSync code)

/-! ## The causes of a failure -/

/-- The `except` clause takes the exception. -/
def Handled : SyncExn → Prop
  | .mailboxSync _ => True
  | .connection => True
  | _ => False

/-- The columns of the row and of its attachments take the values. -/
def StoreArgs.Fitting (a : StoreArgs) : Prop := a.storedRow.Fits ∧ ∀ r ∈ a.attachmentRows, r.Fits

instance (a : StoreArgs) : Decidable a.Fitting := by unfold StoreArgs.Fitting; infer_instance

/-- The `finally` clause drops whatever `client.logout()` raises. -/
def LogoutHandled (imap : ImapSession) : Prop := ∀ exc, imap.logout = .error exc → exc = .connection

/-- For each UID in turn, what the server answers is a message that fits its columns, or an error
that the `except` clause takes and that ends the run; in the end the cursor fits its columns, and
the logout raises nothing that passes. -/
def UidsHandled (env : SyncEnv) (mailbox : Mailbox) (validity : ℕ) : ℕ → List ℕ → ℕ → Prop
  | _, [], lastUid => validity ≤ maxBigint ∧ lastUid ≤ maxBigint ∧ LogoutHandled env.imap
  | tick, uid :: uids, lastUid =>
      match fetchMessage env tick uid with
      | .error exc => Handled exc
      | .ok item => (storeArgs env mailbox validity uid tick item).Fitting ∧
          UidsHandled env mailbox validity (tick + 1) uids (max lastUid uid)

/-- The plan of a run, or what was raised instead, leads to no cause that the `except` clause lets
pass. -/
def PlanHandled (env : SyncEnv) (mailbox : Mailbox) : Except SyncExn SyncPlan → Prop
  | .error exc => Handled exc
  | .ok plan => UidsHandled env mailbox plan.uidValidity 0 plan.uids plan.lastUid

/-- The stored password decrypts, and the answers of the server contain no cause that the
`except` clause and the `finally` clause let pass. -/
def CausesHandled (env : SyncEnv) (mailbox : Mailbox) (batchSize : ℕ) : Prop :=
  ∃ password, env.decryptSecret mailbox.passwordEncrypted = .ok password ∧
    PlanHandled env mailbox (planSync env mailbox password batchSize)

/-- The row has an error code, and the time of this failure. -/
def FailureReported (failedAt : Time × Time) (mailbox : Mailbox) (db : Db) : Prop :=
  ∃ code, code ≠ [] ∧ statusOf mailbox.id db = some (code, some failedAt.1)

/-- The body of the `try` statement. -/
def syncBody (env : SyncEnv) (mailbox : Mailbox) (password : PyStr) (batchSize : ℕ) :
    Prog Db SyncExn ℕ := do
  let plan ← .compute (planSync env mailbox password batchSize)
  syncSelected env mailbox plan

/-- Whatever raises in a run of `sync_mailbox`, and whenever it ends, the failure is reported. -/
def FailuresReported (env : SyncEnv) (mailbox : Mailbox) (batchSize : ℕ) (s : Db) : Prop :=
  ∀ failedAt tr exc s', Exec (othersOf env.uuid4 batchSize mailbox)
    (syncMailbox { env with failedAt := failedAt } mailbox batchSize) s tr
    (some (.error exc)) s' → FailureReported failedAt mailbox s'

/-- The codes that a run raises on its own while the mailbox is watched. -/
def syncCodes : List PyStr :=
  ["egress_policy_denied", "authentication_failed", "inbox_unavailable", "uidvalidity_missing",
    "search_failed", "size_unavailable", "fetch_failed", "empty_message",
    "connection_failed"].map py

section

variable {env : SyncEnv} {mailbox : Mailbox} {batchSize : ℕ} {s s' : Db} {tr : List (Event Db)}

lemma syncMailbox_eq (env : SyncEnv) (batchSize : ℕ) (henabled : mailbox.enabled = true) :
    syncMailbox env mailbox batchSize =
      (Prog.compute (env.decryptSecret mailbox.passwordEncrypted) >>= fun password =>
        (Prog.tryCatch (syncBody env mailbox password batchSize)
          (syncFailed env mailbox)).finallyDo (.compute (closeImap env mailbox))) := by
  rw [syncMailbox, henabled]
  rfl

/-! ## The codes -/

/-- An exception of the application has one of the codes. -/
def Coded {α : Type} (r : Except SyncExn α) : Prop :=
  ∀ code, r = .error (.mailboxSync code) → code ∈ syncCodes

lemma Coded.bind {α β : Type} {x : Except SyncExn α} {f : α → Except SyncExn β} (hx : Coded x)
    (hf : ∀ a, Coded (f a)) : Coded (x >>= f) := by
  cases x with
  | error e => exact fun code h => hx code (congrArg _ (Except.error.inj h))
  | ok a => exact hf a

lemma coded_ok {α : Type} (a : α) : Coded (.ok a) := fun _ h => by cases h

lemma coded_code {α : Type} {code : PyStr} (h : code ∈ syncCodes) :
    Coded (.error (.mailboxSync code) : Except SyncExn α) := by
  intro code' heq
  obtain rfl := SyncExn.mailboxSync.inj (Except.error.inj heq)
  exact h

lemma intOrRaise_coded (digits : Bytes) : Coded (intOrRaise digits) := by
  intro code h
  rw [intOrRaise] at h
  split at h
  · cases h
  · cases h

lemma uidvalidity_coded (data : List Item) : Coded (uidvalidity data) := by
  rw [uidvalidity]
  split
  · exact intOrRaise_coded _
  split
  · exact intOrRaise_coded _
  · exact coded_code (by decide)

lemma messageSize_coded (response : List Item) : Coded (messageSize response) := by
  rw [messageSize]
  split
  · rename_i digits _
    intro code h
    refine intOrRaise_coded digits code ?_
    cases hint : intOrRaise digits with
    | error e =>
      rw [hint] at h
      exact congrArg _ (Except.error.inj h)
    | ok n =>
      rw [hint] at h
      cases h
  · exact coded_ok _

lemma selectUids_coded (values : List Item) (lastUid batchSize : ℕ) :
    Coded (selectUids values lastUid batchSize) := by
  have hlisted : ∀ texts : List Bytes, Coded (texts.mapM intOrRaise) := by
    intro texts
    induction texts with
    | nil => exact coded_ok _
    | cons text texts ih =>
      rw [List.mapM_cons]
      exact (intOrRaise_coded text).bind fun n => ih.bind fun ns => coded_ok _
  exact (hlisted _).bind fun uids => coded_ok _

variable (mailbox batchSize) in
lemma planSync_coded (himap : PlainImap env.imap) (password : PyStr) :
    Coded (planSync env mailbox password batchSize) := by
  have hopen : Coded (openImap env mailbox) := by
    rw [openImap]
    split
    · exact coded_code (by decide)
    · exact fun code h => absurd h (himap.connect code)
  have hlogin : Coded (env.imap.login mailbox.username password) :=
    fun code h => absurd h (himap.login _ _ code)
  have hselect : Coded env.imap.select := fun code h => absurd h (himap.select code)
  have hresponse : Coded env.imap.response := fun code h => absurd h (himap.response code)
  have huid : ∀ number command, Coded (env.imap.uid number command) :=
    fun number command code h => absurd h (himap.uid number command code)
  refine hopen.bind fun _ => hlogin.bind fun status => ?_
  split
  · exact coded_code (by decide)
  refine hselect.bind fun status => ?_
  split
  · exact coded_code (by decide)
  refine hresponse.bind fun data => (uidvalidity_coded data).bind fun validity =>
    (huid _ _).bind fun reply => ?_
  dsimp only
  split
  · exact coded_code (by decide)
  · exact (selectUids_coded _ _ _).bind fun uids => coded_ok _

lemma fetchMessage_coded (himap : PlainImap env.imap) (tick uid : ℕ) :
    Coded (fetchMessage env tick uid) := by
  have huid : ∀ number command, Coded (env.imap.uid number command) :=
    fun number command code h => absurd h (himap.uid number command code)
  refine (huid _ _).bind fun reply => (messageSize_coded reply.2).bind fun size => ?_
  split
  · exact coded_code (by decide)
  split
  · exact coded_code (by decide)
  split
  · exact coded_ok _
  refine (huid _ _).bind fun reply => ?_
  dsimp only
  split
  · exact coded_code (by decide)
  split
  · exact coded_code (by decide)
  · exact coded_ok _

/-! ## The row during a run -/

/-- What the run finds before it reports: the row is watched and has the old status, and the
identifiers from this tick on are free. -/
structure Unreported (ids : ℕ → Uuid) (batchSize : ℕ) (mailbox : Mailbox)
    (status : Option (PyStr × Option Time)) (tick : ℕ) (db : Db) : Prop where
  watched : Watched mailbox db
  status : statusOf mailbox.id db = status
  unused : Unused ids batchSize tick db

variable {ids : ℕ → Uuid} {status : Option (PyStr × Option Time)} {tick : ℕ}

lemma Unreported.others (a b : Db) (henv : (othersOf ids batchSize mailbox).env a b)
    (h : Unreported ids batchSize mailbox status tick a) :
    Unreported ids batchSize mailbox status tick b := by
  obtain ⟨hwatched, hstatus, hunused⟩ := henv h.watched
  exact ⟨hwatched, hstatus.trans h.status, hunused tick h.unused⟩

lemma Unreported.rely (hrely : ReflTransGen (othersOf ids batchSize mailbox).env s s')
    (h : Unreported ids batchSize mailbox status tick s) :
    Unreported ids batchSize mailbox status tick s' :=
  World.keeps (W := othersOf ids batchSize mailbox) Unreported.others hrely h

/-- A transaction that goes through on every such row is committed on such a row. -/
lemma Unreported.atomic {α : Type} {body : Db → Except SyncExn (α × Db)} {r : Except SyncExn α}
    (hs : Unreported ids batchSize mailbox status tick s)
    (hbody : ∀ a, Unreported ids batchSize mailbox status tick a → ∃ x b, body a = .ok (x, b))
    (h : Exec (othersOf ids batchSize mailbox) (.atomic body) s tr (some r) s') :
    ∃ a x b, Unreported ids batchSize mailbox status tick a ∧ body a = .ok (x, b) ∧ r = .ok x ∧
      ReflTransGen (othersOf ids batchSize mailbox).env b s' :=
  Exec.atomic_committed (fun _ hf => hf) Unreported.others hs hbody h

/-- The row is the same where the table of the mailboxes is. -/
lemma Unreported.congr (h : Unreported ids batchSize mailbox status tick s)
    (heq : s'.mailboxes = s.mailboxes) {tick' : ℕ} (hunused : Unused ids batchSize tick' s') :
    Unreported ids batchSize mailbox status tick' s' := by
  have hrows : rowsOf s' (.row mailbox.id) = rowsOf s (.row mailbox.id) := by
    simp only [rowsOf, heq]
  refine ⟨⟨by rw [heq]; exact h.watched.1, ?_⟩, ?_, hunused⟩
  · rw [hrows]
    exact h.watched.2
  · rw [statusOf, hrows]
    exact h.status

/-- An update meets the watched row, and no other one. -/
lemma Watched.count (h : Watched mailbox s) : s.mailboxes.countP (guardsMailbox mailbox) = 1 := by
  obtain ⟨hnodup, row, hrow, hguard, -⟩ := h
  have hle := countP_guardsMailbox_le mailbox hnodup
  have hmem : row ∈ s.mailboxes := List.mem_of_find?_eq_some hrow
  have hpos := List.countP_pos_iff.2 ⟨row, hmem, hguard⟩
  omega

lemma Watched.row_eq (h : Watched mailbox s) {m row : Mailbox} (hm : m ∈ s.mailboxes)
    (hguard : guardsMailbox mailbox m = true) (hrow : rowsOf s (.row mailbox.id) = some row) :
    m = row := by
  have hid : row.id = mailbox.id := by simpa using List.find?_some hrow
  exact Db.eq_of_map_nodup h.1 hm (List.mem_of_find?_eq_some hrow)
    ((guardsMailbox_id hguard).trans hid.symm)

/-- An update of a watched row is accepted if and only if its values fit. -/
lemma Watched.update (h : Watched mailbox s) {row : Mailbox}
    (hrow : rowsOf s (.row mailbox.id) = some row) {set : Mailbox → Mailbox}
    (hset : (set row).Fits) :
    ∃ db, s.updateMailboxes (guardsMailbox mailbox) set = .ok (1, db) :=
  ⟨_, Db.updateMailboxes_eq_ok.2
    ⟨fun _ hm hp => (h.row_eq hm hp hrow) ▸ hset, h.count, rfl⟩⟩

lemma Watched.update_error (h : Watched mailbox s) {row : Mailbox}
    (hrow : rowsOf s (.row mailbox.id) = some row) {set : Mailbox → Mailbox}
    (hset : ¬ (set row).Fits) : updateGuarded mailbox set s = .error .database := by
  obtain ⟨-, row', hrow', hguard, -⟩ := h
  obtain rfl : row' = row := Option.some.inj (hrow'.symm.trans hrow)
  cases hupdate : updateGuarded mailbox set s with
  | ok q =>
    obtain ⟨hall, -⟩ := Db.updateMailboxes_eq_ok.1 (updateGuarded_eq_ok.1 hupdate)
    exact absurd (hall row' (List.mem_of_find?_eq_some hrow) hguard) hset
  | error e =>
    rw [updateGuarded] at hupdate
    split at hupdate
    · cases hupdate
    · exact hupdate.symm

/-! ## One message -/

/-- The row of a message is created where it is new and fits. -/
lemma StoreArgs.create_of_fitting {a : StoreArgs} {db : Db}
    (hnew : ∀ m ∈ db.messages, m.id ≠ a.newId ∧ m.key ≠ a.key)
    (hbox : a.mailboxId ∈ db.mailboxes.map (·.id)) (hfits : a.Fitting) :
    a.create db = .ok (a.ingest db) := by
  have hins : db.insertMessage .worker a.messageRow = .ok _ :=
    Db.insertMessage_eq_ok.2 ⟨hfits.1, hnew, hbox, List.mem_cons_self, rfl⟩
  have href : ∀ r ∈ a.attachmentRows,
      r.messageId ∈ (db.messages ++ [a.storedRow]).map (·.id) := by
    intro r hr
    rw [a.attachmentRows_messageId r hr, List.map_append]
    exact List.mem_append_right _ (List.mem_singleton_self _)
  exact Exceptions.bind_eq_ok.2 ⟨_, hins, Exceptions.bind_eq_ok.2
    ⟨_, Db.insertAttachments_eq_ok.2 ⟨hfits.2, href, rfl⟩, rfl⟩⟩

variable (env) in
/-- The identifier of the message is free and the mailbox is watched, so a message that fits is
stored, unless it is there. -/
lemma Watched.transaction_of_fitting (h : Watched mailbox s) {validity uid : ℕ} {item : Fetched}
    (hfree : ∀ m ∈ s.messages, m.id ≠ env.uuid4 tick)
    (hfits : (storeArgs env mailbox validity uid tick item).Fitting) :
    ∃ new db, (storeArgs env mailbox validity uid tick item).transaction s = .ok (new, db) ∧
      db.mailboxes = s.mailboxes ∧ ∀ m ∈ db.messages, m ∈ s.messages ∨ m.id = env.uuid4 tick := by
  obtain ⟨-, row, hrow, hguard, -⟩ := h
  have hmem : row ∈ s.mailboxes := List.mem_of_find?_eq_some hrow
  have hlock : ∃ m ∈ s.mailboxes, (storeArgs env mailbox validity uid tick item).locks m :=
    ⟨row, hmem, hguard⟩
  rw [StoreArgs.transaction, if_neg (not_not_intro hlock)]
  split
  · exact ⟨false, s, rfl, rfl, fun m hm => .inl hm⟩
  · rename_i hkey
    push Not at hkey
    have hbox : mailbox.id ∈ s.mailboxes.map (·.id) :=
      List.mem_map.2 ⟨row, hmem, guardsMailbox_id hguard⟩
    rw [StoreArgs.create_of_fitting (fun m hm => ⟨hfree m hm, hkey m hm⟩) hbox hfits]
    refine ⟨true, _, rfl, rfl, fun m hm => ?_⟩
    rcases List.mem_append.1 hm with hm | hm
    · exact .inl hm
    · obtain rfl := List.mem_singleton.1 hm
      exact .inr rfl

variable (env) in
/-- A new message that does not fit is refused. -/
lemma Watched.transaction_error (h : Watched mailbox s) {validity uid : ℕ} {item : Fetched}
    (hempty : s.messages = [])
    (hfits : ¬ (storeArgs env mailbox validity uid tick item).Fitting) :
    (storeArgs env mailbox validity uid tick item).transaction s = .error .database := by
  obtain ⟨-, row, hrow, hguard, -⟩ := h
  have hlock : ∃ m ∈ s.mailboxes, (storeArgs env mailbox validity uid tick item).locks m :=
    ⟨row, List.mem_of_find?_eq_some hrow, hguard⟩
  have hkey : ¬ ∃ m ∈ s.messages, m.key = (storeArgs env mailbox validity uid tick item).key := by
    rw [hempty]
    exact fun ⟨m, hm, _⟩ => List.not_mem_nil hm
  rw [StoreArgs.transaction, if_neg (not_not_intro hlock), if_neg hkey]
  cases hcreate : (storeArgs env mailbox validity uid tick item).create s with
  | error e => rfl
  | ok db =>
    obtain ⟨-, hrowFits, hattFits, -⟩ := StoreArgs.create_eq_ok hcreate
    exact absurd ⟨hrowFits, hattFits⟩ hfits

/-- A message that is stored takes its own identifier only. -/
lemma Unused.step {db : Db} (hids : ∀ i < batchSize, ∀ j < batchSize, ids i = ids j → i = j)
    (hs : Unused ids batchSize tick s) (htick : tick < batchSize)
    (hmessages : ∀ m ∈ db.messages, m ∈ s.messages ∨ m.id = ids tick) :
    Unused ids batchSize (tick + 1) db := by
  intro i hi hlt m hm heq
  rcases hmessages m hm with hm | hid
  · exact hs i (by omega) hlt m hm heq
  · have := hids tick htick i hlt (hid.symm.trans heq)
    omega

/-! ## The loop -/

/-- Where the causes are handled, the loop over the UIDs raises what the `except` clause takes, or
it returns a cursor that fits, before a logout that is handled. -/
lemma syncUids_handled (himap : PlainImap env.imap)
    (hids : ∀ i < batchSize, ∀ j < batchSize, env.uuid4 i = env.uuid4 j → i = j)
    {validity : ℕ} (uids : List ℕ) {created lastUid : ℕ} {r : Except SyncExn (ℕ × ℕ)}
    (hlength : tick + uids.length ≤ batchSize)
    (hs : Unreported env.uuid4 batchSize mailbox status tick s)
    (hhandled : UidsHandled env mailbox validity tick uids lastUid)
    (h : Exec (othersOf env.uuid4 batchSize mailbox)
      (syncUids env mailbox validity tick uids created lastUid) s tr (some r) s') :
    (∃ tick', Unreported env.uuid4 batchSize mailbox status tick' s') ∧ Coded r ∧
      (∀ exc, r = .error exc → Handled exc) ∧
      ∀ n last, r = .ok (n, last) →
        validity ≤ maxBigint ∧ last ≤ maxBigint ∧ LogoutHandled env.imap := by
  induction uids generalizing tick created lastUid s tr with
  | nil =>
    obtain ⟨rfl, hrely⟩ := h.done_rely
    refine ⟨⟨tick, hs.rely hrely⟩, coded_ok _, by simp, ?_⟩
    rintro n last heq
    cases heq
    exact hhandled
  | cons uid uids ih =>
    rw [List.length_cons] at hlength
    simp only [syncUids] at h
    rw [UidsHandled] at hhandled
    cases hfetch : fetchMessage env tick uid with
    | error e =>
      rw [hfetch, Prog.compute_error_bind] at h
      rw [hfetch] at hhandled
      obtain ⟨rfl, hrely⟩ := h.done_rely
      refine ⟨⟨tick, hs.rely hrely⟩, fun code hcode => ?_, ?_, by simp⟩
      swap
      · rintro exc heq
        cases heq
        exact hhandled
      refine fetchMessage_coded himap tick uid code ?_
      rw [hfetch]
      exact congrArg _ (Except.error.inj hcode)
    | ok item =>
      rw [hfetch, Prog.compute_ok_bind] at h
      rw [hfetch] at hhandled
      obtain ⟨hfits, hrest⟩ := hhandled
      -- the transaction finds the row watched, whatever the others have committed before
      have hstored : ∀ {o tr₁ s₁}, Exec (othersOf env.uuid4 batchSize mailbox)
          (storeMessage env mailbox validity uid tick item) s tr₁ (some o) s₁ →
          (∃ new, o = .ok new) ∧ Unreported env.uuid4 batchSize mailbox status (tick + 1) s₁ := by
        intro o tr₁ s₁ hstore
        have hok := fun a (ha : Unreported env.uuid4 batchSize mailbox status tick a) =>
          ha.watched.transaction_of_fitting env
            (fun m hm => ha.unused tick le_rfl (by omega) m hm) hfits
        obtain ⟨a, new, db, ha, hbody, rfl, hb⟩ := hs.atomic (fun a ha => by
          obtain ⟨new, db, hcommit, -⟩ := hok a ha
          exact ⟨new, db, hcommit⟩) hstore
        obtain ⟨new', db', hcommit, hboxes, hmessages⟩ := hok a ha
        obtain ⟨rfl, rfl⟩ := Prod.mk.inj (Except.ok.inj (hcommit.symm.trans hbody))
        exact ⟨⟨_, rfl⟩, (ha.congr hboxes (ha.unused.step hids (by omega) hmessages)).rely hb⟩
      rcases h.bind_inv with ⟨e, hstore, -⟩ | ⟨-, ho⟩ | ⟨new, s₁, tr₁, tr₂, -, hstore, hnext⟩
      · obtain ⟨⟨new, hnew⟩, -⟩ := hstored hstore
        cases hnew
      · cases ho
      · exact ih (by omega) (hstored hstore).2 hrest hnext

/-- Where a cause is not handled, a run meets it: the loop raises an exception that the `except`
clause lets pass, or it returns a cursor that does not fit or comes to a logout that raises. -/
lemma syncUids_unhandled
    (hids : ∀ i < batchSize, ∀ j < batchSize, env.uuid4 i = env.uuid4 j → i = j)
    {validity : ℕ} (uids : List ℕ) {created lastUid : ℕ}
    (hlength : tick + uids.length ≤ batchSize)
    (hs : Unreported env.uuid4 batchSize mailbox status tick s)
    (hbad : ¬ UidsHandled env mailbox validity tick uids lastUid) :
    ∃ tr r s', Exec (othersOf env.uuid4 batchSize mailbox)
        (syncUids env mailbox validity tick uids created lastUid) s tr (some r) s' ∧
      (∃ tick', Unreported env.uuid4 batchSize mailbox status tick' s') ∧
      ((∃ exc, r = .error exc ∧ ¬ Handled exc) ∨
        ∃ n last, r = .ok (n, last) ∧
          ¬ (validity ≤ maxBigint ∧ last ≤ maxBigint ∧ LogoutHandled env.imap)) := by
  induction uids generalizing tick created lastUid s with
  | nil => exact ⟨_, _, _, .done _ _, ⟨tick, hs⟩, .inr ⟨_, _, rfl, hbad⟩⟩
  | cons uid uids ih =>
    rw [List.length_cons] at hlength
    simp only [syncUids]
    rw [UidsHandled] at hbad
    cases hfetch : fetchMessage env tick uid with
    | error e =>
      -- the server's answer raises before anything is stored
      rw [hfetch] at hbad
      rw [Prog.compute_error_bind]
      exact ⟨_, _, _, .done _ _, ⟨tick, hs⟩, .inl ⟨_, rfl, hbad⟩⟩
    | ok item =>
      rw [hfetch] at hbad
      rw [Prog.compute_ok_bind]
      by_cases hfits : (storeArgs env mailbox validity uid tick item).Fitting
      · have hrest : ¬ UidsHandled env mailbox validity (tick + 1) uids (max lastUid uid) :=
          fun hrest => hbad ⟨hfits, hrest⟩
        obtain ⟨new, db, hok, hboxes, hmessages⟩ := hs.watched.transaction_of_fitting env
          (fun m hm => hs.unused tick le_rfl (by omega) m hm) hfits
        have hs₁ := hs.congr hboxes (hs.unused.step hids (by omega) hmessages)
        obtain ⟨tr, r, s', hexec, hend⟩ := ih (by omega) hs₁ hrest
        have hstore : Exec (othersOf env.uuid4 batchSize mailbox)
            (storeMessage env mailbox validity uid tick item) s _ (some (.ok new)) db :=
          .txn (.commit hok) (.done _ _)
        exact ⟨_, r, s', hstore.bind_ok hexec, hend⟩
      · -- the others delete the messages, so the message is new
        have hs₀ : Unreported env.uuid4 batchSize mailbox status tick
            { s with messages := [] } := by
          refine hs.congr ?_ ?_
          · rfl
          · exact fun _ _ _ m hm => absurd hm List.not_mem_nil
        have henv : (othersOf env.uuid4 batchSize mailbox).env s { s with messages := [] } :=
          fun _ => ⟨hs₀.watched, hs₀.status.trans hs.status.symm,
            fun _ _ _ _ _ m hm => absurd hm List.not_mem_nil⟩
        have hstore : Exec (othersOf env.uuid4 batchSize mailbox)
            (storeMessage env mailbox validity uid tick item) s _ (some (.error .database)) _ :=
          .env henv (.txn (.abort (hs₀.watched.transaction_error env rfl hfits)) (.done _ _))
        exact ⟨_, _, _, hstore.bind_error, ⟨tick, hs₀⟩, .inl ⟨_, rfl, id⟩⟩

/-! ## The body of the `try` statement -/

lemma setCursor_fits {validity lastUid : ℕ} {row : Mailbox} (hrow : row.Fits) :
    (setCursor env validity lastUid row).Fits ↔ validity ≤ maxBigint ∧ lastUid ≤ maxBigint := by
  obtain ⟨hname, hprovider, hhost, husername, htrusted, -⟩ := hrow
  constructor
  · rintro ⟨-, -, -, -, -, -, hvalidity, hlast⟩
    exact ⟨hvalidity validity rfl, hlast⟩
  · rintro ⟨hvalidity, hlast⟩
    have hcode : Varchar 80 [] := by decide
    refine ⟨hname, hprovider, hhost, husername, htrusted, hcode, ?_, hlast⟩
    rintro v hv
    obtain rfl := Option.some.inj hv
    exact hvalidity

/-- A run that has a plan has a client. -/
lemma planSync_open {password : PyStr} {plan : SyncPlan}
    (h : planSync env mailbox password batchSize = .ok plan) : openImap env mailbox = .ok () := by
  rw [planSync] at h
  obtain ⟨_, hopen, -⟩ := Exceptions.bind_eq_ok.1 h
  exact hopen

lemma closeImap_of_handled (h : LogoutHandled env.imap) : closeImap env mailbox = .ok () := by
  rw [closeImap]
  cases hlogout : env.imap.logout with
  | ok u => cases openImap env mailbox <;> rfl
  | error exc =>
    rw [h exc hlogout]
    cases openImap env mailbox <;> rfl

lemma closeImap_error {exc : SyncExn} (hopen : openImap env mailbox = .ok ())
    (hlogout : env.imap.logout = .error exc) (h : exc ≠ .connection) :
    closeImap env mailbox = .error exc := by
  rw [closeImap, hopen, hlogout]
  cases exc with
  | connection => exact absurd rfl h
  | mailboxSync code => rfl
  | database => rfl
  | credential => rfl
  | other => rfl

lemma plan_uids_length {password : PyStr} {plan : SyncPlan}
    (h : planSync env mailbox password batchSize = .ok plan) : plan.uids.length ≤ batchSize := by
  obtain ⟨-, -, values, -, huids⟩ := planSync_eq_ok h
  rw [huids, List.length_take]
  exact Nat.min_le_left _ _

/-- Where the causes are handled, the body raises what the `except` clause takes, and it has
reported nothing yet: its last update meets the row, and then it returns. -/
lemma syncBody_handled (himap : PlainImap env.imap)
    (hids : ∀ i < batchSize, ∀ j < batchSize, env.uuid4 i = env.uuid4 j → i = j)
    {password : PyStr} (hs : Unreported env.uuid4 batchSize mailbox status 0 s)
    (hhandled : PlanHandled env mailbox (planSync env mailbox password batchSize)) {exc : SyncExn}
    (h : Exec (othersOf env.uuid4 batchSize mailbox) (syncBody env mailbox password batchSize) s tr
      (some (.error exc)) s') :
    (∃ tick', Unreported env.uuid4 batchSize mailbox status tick' s') ∧ Handled exc ∧
      ∀ code, exc = .mailboxSync code → code ∈ syncCodes := by
  rw [syncBody] at h
  cases hplan : planSync env mailbox password batchSize with
  | error e =>
    have hcoded := planSync_coded mailbox batchSize himap password
    rw [hplan] at hcoded hhandled
    rw [hplan, Prog.compute_error_bind] at h
    obtain ⟨heq, hrely⟩ := h.done_rely
    obtain rfl := Except.error.inj heq
    exact ⟨⟨0, hs.rely hrely⟩, hhandled, fun code hcode => hcoded code (congrArg _ hcode)⟩
  | ok plan =>
    have hlength := plan_uids_length hplan
    rw [hplan] at hhandled
    rw [hplan, Prog.compute_ok_bind] at h
    rcases h.bind_inv with ⟨e, hloop, he⟩ | ⟨-, ho⟩ | ⟨⟨created, last⟩, s₁, _, _, -, hloop, hrest⟩
    · obtain rfl := Except.error.inj (Option.some.inj he)
      obtain ⟨hs', hcoded, hexc, -⟩ :=
        syncUids_handled himap hids _ (by omega) hs hhandled hloop
      exact ⟨hs', hexc _ rfl, fun code hcode => hcoded code (congrArg _ hcode)⟩
    · cases ho
    obtain ⟨⟨tick₁, hs₁⟩, -, -, hcursor⟩ :=
      syncUids_handled himap hids _ (by omega) hs hhandled hloop
    -- the update meets the row, so that the run returns
    have hupdate : ∀ {o tr₂ s₂}, Exec (othersOf env.uuid4 batchSize mailbox)
        (.atomic (updateGuarded mailbox (setCursor env plan.uidValidity last))) s₁ tr₂ (some o) s₂ →
        o = .ok 1 := by
      intro o tr₂ s₂ hatomic
      have hok : ∀ a, Unreported env.uuid4 batchSize mailbox status tick₁ a →
          ∃ db, updateGuarded mailbox (setCursor env plan.uidValidity last) a = .ok (1, db) := by
        intro a ha
        obtain ⟨row, hrow, -, hfits⟩ := ha.watched.2
        obtain ⟨hvalidity, hlast, -⟩ := hcursor _ _ rfl
        have hset : (setCursor env plan.uidValidity last row).Fits :=
          (setCursor_fits hfits).2 ⟨hvalidity, hlast⟩
        obtain ⟨db, hdb⟩ := ha.watched.update hrow hset
        exact ⟨db, updateGuarded_eq_ok.2 hdb⟩
      obtain ⟨a, n, db, ha, hbody, rfl, -⟩ := hs₁.atomic (fun a ha => ⟨1, hok a ha⟩) hatomic
      obtain ⟨db', hcommit⟩ := hok a ha
      obtain ⟨rfl, -⟩ := Prod.mk.inj (Except.ok.inj (hcommit.symm.trans hbody))
      rfl
    rcases hrest.bind_inv with ⟨e, hatomic, -⟩ | ⟨-, ho⟩ | ⟨n, s₂, _, _, -, hatomic, hend⟩
    · cases hupdate hatomic
    · cases ho
    · obtain rfl : n = 1 := Except.ok.inj (hupdate hatomic)
      rw [Prog.ensure_true rfl] at hend
      obtain ⟨heq, -⟩ := hend.done_rely
      cases heq

/-- Where the causes are handled, a body that returns is followed by a logout that is handled. -/
lemma syncBody_returned (himap : PlainImap env.imap)
    (hids : ∀ i < batchSize, ∀ j < batchSize, env.uuid4 i = env.uuid4 j → i = j)
    {password : PyStr} (hs : Unreported env.uuid4 batchSize mailbox status 0 s)
    (hhandled : PlanHandled env mailbox (planSync env mailbox password batchSize)) {n : ℕ}
    (h : Exec (othersOf env.uuid4 batchSize mailbox) (syncBody env mailbox password batchSize) s tr
      (some (.ok n)) s') : LogoutHandled env.imap := by
  rw [syncBody] at h
  cases hplan : planSync env mailbox password batchSize with
  | error e =>
    rw [hplan, Prog.compute_error_bind] at h
    cases h.done_rely.1
  | ok plan =>
    have hlength := plan_uids_length hplan
    rw [hplan] at hhandled
    rw [hplan, Prog.compute_ok_bind] at h
    rcases h.bind_inv with ⟨e, -, he⟩ | ⟨-, ho⟩ | ⟨⟨created, last⟩, s₁, _, _, -, hloop, -⟩
    · cases he
    · cases ho
    · obtain ⟨-, -, -, hcursor⟩ := syncUids_handled himap hids _ (by omega) hs hhandled hloop
      exact (hcursor _ _ rfl).2.2

variable (env) in
/-- The final update of a watched row clears the error code. -/
lemma Watched.clear (h : Watched mailbox s) {validity lastUid : ℕ}
    (hvalidity : validity ≤ maxBigint) (hlast : lastUid ≤ maxBigint) :
    ∃ db, updateGuarded mailbox (setCursor env validity lastUid) s = .ok (1, db) ∧
      statusOf mailbox.id db = some ([], some env.syncedAt.1) := by
  obtain ⟨row, hrow, hguard, hfits⟩ := h.2
  have hfitting : (setCursor env validity lastUid row).Fits :=
    (setCursor_fits hfits).2 ⟨hvalidity, hlast⟩
  obtain ⟨db, hupdate⟩ := h.update hrow hfitting
  have hrow' := rowsOf_updateMailboxes hupdate (fun _ _ _ => rfl) (.row mailbox.id)
  have hcolumns : (setCursor env validity lastUid row).securityColumns = row.securityColumns := rfl
  rw [hrow, Option.map_some, if_pos hguard, bumpMailboxConfigVersion_of_same hcolumns] at hrow'
  refine ⟨db, updateGuarded_eq_ok.2 hupdate, ?_⟩
  rw [statusOf, hrow']
  rfl

/-- Where a cause is not handled, a run of the body raises an exception that the `except` clause
lets pass, and it has reported nothing; or it returns, has cleared the error code and comes to a
logout that raises. -/
lemma syncBody_unhandled
    (hids : ∀ i < batchSize, ∀ j < batchSize, env.uuid4 i = env.uuid4 j → i = j)
    {password : PyStr} (hs : Unreported env.uuid4 batchSize mailbox status 0 s)
    (hbad : ¬ PlanHandled env mailbox (planSync env mailbox password batchSize)) :
    ∃ tr r s', Exec (othersOf env.uuid4 batchSize mailbox)
        (syncBody env mailbox password batchSize) s tr (some r) s' ∧
      ((∃ exc, r = .error exc ∧ (∃ tick', Unreported env.uuid4 batchSize mailbox status tick' s') ∧
          ¬ Handled exc) ∨
        ∃ n time exc, r = .ok n ∧ statusOf mailbox.id s' = some ([], time) ∧
          closeImap env mailbox = .error exc) := by
  rw [syncBody]
  cases hplan : planSync env mailbox password batchSize with
  | error e =>
    rw [hplan] at hbad
    rw [Prog.compute_error_bind]
    exact ⟨_, _, _, .done _ _, .inl ⟨_, rfl, ⟨0, hs⟩, hbad⟩⟩
  | ok plan =>
    have hlength := plan_uids_length hplan
    rw [hplan] at hbad
    rw [Prog.compute_ok_bind]
    obtain ⟨tr, r, s₁, hloop, ⟨tick₁, hs₁⟩, ⟨exc, rfl, hexc⟩ | ⟨n, last, rfl, hcursor⟩⟩ :=
      syncUids_unhandled hids plan.uids (by omega) hs hbad
    · exact ⟨_, _, s₁, hloop.bind_error, .inl ⟨exc, rfl, ⟨tick₁, hs₁⟩, hexc⟩⟩
    by_cases hfit : plan.uidValidity ≤ maxBigint ∧ last ≤ maxBigint
    · -- the cursor is written, and the logout raises
      obtain ⟨db, hupdate, hstatus⟩ := hs₁.watched.clear env hfit.1 hfit.2
      have hreturn : Exec (othersOf env.uuid4 batchSize mailbox)
          (.atomic (updateGuarded mailbox (setCursor env plan.uidValidity last)) >>= fun updated =>
            Prog.ensure (updated = 1) (.mailboxSync (py "configuration_changed")) >>= fun _ =>
              pure n) s₁ _ (some (.ok n)) db :=
        .txn (.commit hupdate) (.done _ _)
      have hlogout : ¬ LogoutHandled env.imap := fun h => hcursor ⟨hfit.1, hfit.2, h⟩
      simp only [LogoutHandled, not_forall] at hlogout
      obtain ⟨exc, hraised, hother⟩ := hlogout
      refine ⟨_, _, db, hloop.bind_ok hreturn, .inr ⟨n, _, exc, rfl, hstatus, ?_⟩⟩
      exact closeImap_error (planSync_open hplan) hraised hother
    · -- the loop comes to its end, and the cursor is refused by its column
      obtain ⟨row, hrow, -, hfits⟩ := hs₁.watched.2
      have hrefused : ¬ (setCursor env plan.uidValidity last row).Fits :=
        fun h => hfit ((setCursor_fits hfits).1 h)
      have hupdate : Exec (othersOf env.uuid4 batchSize mailbox)
          (.atomic (updateGuarded mailbox (setCursor env plan.uidValidity last))) s₁ _
          (some (.error .database)) s₁ :=
        .txn (.abort (hs₁.watched.update_error hrow hrefused)) (.done _ _)
      exact ⟨_, _, s₁, hloop.bind_ok hupdate.bind_error, .inl ⟨_, rfl, ⟨tick₁, hs₁⟩, id⟩⟩

/-! ## The report -/

variable (env) in
/-- The update after a failure meets a watched row. -/
lemma Watched.report (h : Watched mailbox s) {code : PyStr} (hcode : code ∈ syncCodes) :
    ∃ db, updateGuarded mailbox (setError env code) s = .ok (1, db) ∧ Watched mailbox db ∧
      statusOf mailbox.id db = some (code, some env.failedAt.1) := by
  obtain ⟨row, hrow, hguard, hfits⟩ := h.2
  have hcodeFits : Varchar 80 code := by
    have hall : ∀ c ∈ syncCodes, Varchar 80 c := by decide
    exact hall code hcode
  have hset : (setError env code row).Fits :=
    ⟨hfits.1, hfits.2.1, hfits.2.2.1, hfits.2.2.2.1, hfits.2.2.2.2.1, hcodeFits,
      hfits.2.2.2.2.2.2⟩
  obtain ⟨db, hupdate⟩ := h.update hrow hset
  have hids : ∀ m ∈ s.mailboxes, guardsMailbox mailbox m = true → (setError env code m).id = m.id :=
    fun _ _ _ => rfl
  have hrow' := rowsOf_updateMailboxes hupdate hids (.row mailbox.id)
  have hcolumns : (setError env code row).securityColumns = row.securityColumns := rfl
  rw [hrow, Option.map_some, if_pos hguard, bumpMailboxConfigVersion_of_same hcolumns] at hrow'
  refine ⟨db, updateGuarded_eq_ok.2 hupdate, ⟨?_, _, hrow', hguard, hset⟩, ?_⟩
  · rw [Db.updateMailboxes_ids hids hupdate]
    exact h.1
  · rw [statusOf, hrow']
    rfl

/-- The end of the `except` clause reports the failure. -/
lemma recordFailure_reported {code : PyStr} (hcode : code ∈ syncCodes)
    (hs : Unreported env.uuid4 batchSize mailbox status tick s) {r : Except SyncExn ℕ}
    (h : Exec (othersOf env.uuid4 batchSize mailbox) (recordFailure env mailbox code) s tr
      (some r) s') :
    FailureReported env.failedAt mailbox s' := by
  have hcodes : ∀ c ∈ syncCodes, c ≠ py "configuration_changed" ∧ c ≠ [] := by decide
  obtain ⟨hother, hne⟩ := hcodes code hcode
  rw [recordFailure, if_pos hother] at h
  have hok : ∀ a, Unreported env.uuid4 batchSize mailbox status tick a →
      ∃ n db, updateGuarded mailbox (setError env code) a = .ok (n, db) := by
    intro a ha
    obtain ⟨db, hcommit, -⟩ := ha.watched.report env hcode
    exact ⟨1, db, hcommit⟩
  rcases h.bind_inv with ⟨e, hupdate, -⟩ | ⟨-, ho⟩ | ⟨n, s₁, _, _, -, hupdate, hend⟩
  · obtain ⟨_, _, _, -, -, heq, -⟩ := hs.atomic hok hupdate
    cases heq
  · cases ho
  · obtain ⟨a, n', db, ha, hbody, -, hb⟩ := hs.atomic hok hupdate
    obtain ⟨db', hcommit, hwatched, hstatus⟩ := ha.watched.report env hcode
    obtain ⟨-, rfl⟩ := Prod.mk.inj (Except.ok.inj (hcommit.symm.trans hbody))
    have hdb : Unreported env.uuid4 batchSize mailbox _ batchSize db' :=
      ⟨hwatched, hstatus, fun i hi hlt => absurd hi (not_le.2 hlt)⟩
    obtain ⟨-, hrely⟩ := hend.done_rely
    exact ⟨code, hne, ((hdb.rely hb).rely hrely).status⟩

/-! ## A run -/

/-- The condition does not ask when the run fails. -/
lemma causesHandled_failedAt (failedAt : Time × Time) :
    CausesHandled { env with failedAt := failedAt } mailbox batchSize ↔
      CausesHandled env mailbox batchSize := by
  have huids : ∀ validity uids tick lastUid,
      UidsHandled { env with failedAt := failedAt } mailbox validity tick uids lastUid =
        UidsHandled env mailbox validity tick uids lastUid := by
    intro validity uids
    induction uids with
    | nil => exact fun _ _ => rfl
    | cons uid uids ih =>
      intro tick lastUid
      rw [UidsHandled, UidsHandled]
      simp only [ih]
      rfl
  have hplan : ∀ r, PlanHandled { env with failedAt := failedAt } mailbox r =
      PlanHandled env mailbox r := by
    rintro (exc | plan)
    · rfl
    · exact huids _ _ _ _
  rw [CausesHandled, CausesHandled]
  simp only [hplan]
  rfl

variable (env) in
/-- Where the causes are handled, a run that raises has reported its failure. -/
lemma syncMailbox_reported (himap : PlainImap env.imap)
    (hids : ∀ i < batchSize, ∀ j < batchSize, env.uuid4 i = env.uuid4 j → i = j)
    (hs : Unreported env.uuid4 batchSize mailbox status 0 s) (henabled : mailbox.enabled = true)
    (hcauses : CausesHandled env mailbox batchSize) {exc : SyncExn}
    (h : Exec (othersOf env.uuid4 batchSize mailbox) (syncMailbox env mailbox batchSize) s tr
      (some (.error exc)) s') :
    FailureReported env.failedAt mailbox s' := by
  obtain ⟨password, hpassword, hplan⟩ := hcauses
  rw [syncMailbox_eq env batchSize henabled, hpassword, Prog.compute_ok_bind] at h
  obtain ⟨o', h, ho⟩ := h.finallyDo_inv
  obtain ⟨r, rfl, hr⟩ := Option.map_eq_some_iff.1 ho.symm
  rcases h.tryCatch_inv with ⟨n, hbody, hn⟩ | ⟨-, hnone⟩ | ⟨raised, s₁, _, _, -, hbody, hhandler⟩
  · -- the body has returned, so the logout raises nothing
    have hclosed : closeImap env mailbox = .ok () :=
      closeImap_of_handled (syncBody_returned himap hids hs hplan hbody)
    rw [Option.some.inj hn, hclosed] at hr
    cases hr
  · cases hnone
  obtain ⟨⟨tick, hs₁⟩, hraised, hcode⟩ := syncBody_handled himap hids hs hplan hbody
  cases raised with
  | mailboxSync code => exact recordFailure_reported (hcode code rfl) hs₁ hhandler
  | connection => exact recordFailure_reported (by decide) hs₁ hhandler
  | database => exact hraised.elim
  | credential => exact hraised.elim
  | other => exact hraised.elim

variable (env) in
/-- Where a cause is not handled, a run raises and leaves the status of the row as it was, or
without an error code. -/
lemma syncMailbox_unreported
    (hids : ∀ i < batchSize, ∀ j < batchSize, env.uuid4 i = env.uuid4 j → i = j)
    (hs : Unreported env.uuid4 batchSize mailbox status 0 s) (henabled : mailbox.enabled = true)
    (hcauses : ¬ CausesHandled env mailbox batchSize) :
    ∃ tr exc s', Exec (othersOf env.uuid4 batchSize mailbox) (syncMailbox env mailbox batchSize) s
      tr (some (.error exc)) s' ∧
        (statusOf mailbox.id s' = status ∨ ∃ time, statusOf mailbox.id s' = some ([], time)) := by
  rw [syncMailbox_eq env batchSize henabled]
  cases hpassword : env.decryptSecret mailbox.passwordEncrypted with
  | error e =>
    -- `decrypt_secret` stands before the `try`
    rw [Prog.compute_error_bind]
    exact ⟨_, _, _, .done _ _, .inl hs.status⟩
  | ok password =>
    rw [Prog.compute_ok_bind]
    have hplan : ¬ PlanHandled env mailbox (planSync env mailbox password batchSize) :=
      fun hplan => hcauses ⟨password, hpassword, hplan⟩
    obtain ⟨tr, r, s', hbody,
        ⟨exc, rfl, ⟨tick, hs'⟩, hexc⟩ | ⟨n, time, exc, rfl, hstatus, hclose⟩⟩ :=
      syncBody_unhandled hids hs hplan
    swap
    · have hend := hbody.tryCatch_ok (syncFailed env mailbox) |>.finallyDo (closeImap env mailbox)
      rw [hclose] at hend ⊢
      exact ⟨_, exc, s', hend, .inr ⟨time, hstatus⟩⟩
    have hhandler : Exec (othersOf env.uuid4 batchSize mailbox) (syncFailed env mailbox exc) s' []
        (some (.error exc)) s' := by
      cases exc with
      | mailboxSync code => exact absurd trivial hexc
      | connection => exact absurd trivial hexc
      | database => exact .done _ _
      | credential => exact .done _ _
      | other => exact .done _ _
    have hend := (hbody.tryCatch_error hhandler).finallyDo (closeImap env mailbox)
    obtain ⟨exc', hexc'⟩ : ∃ exc', Prog.afterCleanup (.error exc) (closeImap env mailbox) =
        (.error exc' : Except SyncExn ℕ) := by
      cases closeImap env mailbox with
      | ok u => exact ⟨exc, rfl⟩
      | error e => exact ⟨e, rfl⟩
    rw [Option.map_some, hexc'] at hend
    exact ⟨_, exc', s', hend, .inl hs'.status⟩

end

/-- A server that lists two messages, and breaks the connection after the first one. -/
def brokenEnv : SyncEnv :=
  sampleEnv (sampleLibrary blankMessage [] []) fun n _ =>
    match n with
    | 0 => .ok (py "OK", [.bytes (bytes "1 2")])
    | 1 => .ok (py "OK", [.bytes (bytes "1 (RFC822.SIZE 20000000)")])
    | _ => .error .connection

lemma sampleDb_watched : Watched sampleMailbox sampleDb :=
  ⟨by decide, sampleMailbox, rfl, rfl, by decide⟩

/-- A key that has left the keyring: the stored password does not decrypt. -/
def keylessEnv : SyncEnv := { brokenEnv with decryptSecret := fun _ => .error .credential }

end MailGate
