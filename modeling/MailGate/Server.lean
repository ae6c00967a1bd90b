import MailGate.Gate
import MailGate.Permissions

/-!
# The database server

The worker and the agent API are the parts of the installation that face untrusted input.  Suppose
that one of them is taken over: it then runs any statements that its database role has the
privileges for.  This file runs such statements among the transactions of the application.
-/

namespace MailGate

open Privileges (Allows)
open Quarantine (Released history shown)
open Runs (Run SeenAs Simulation Taken)

/-! ## Statements -/

/-- The columns of `gateway_mailbox`. -/
inductive MailboxColumn where
  | id
  | name
  | providerKey
  | presetVersion
  | host
  | port
  | username
  | passwordEncrypted
  | trustedAuthservIds
  | enabled
  | uidValidity
  | lastUid
  | lastSyncAt
  | lastErrorCode
  | configVersion
  | createdAt
  | updatedAt
deriving DecidableEq, Repr

namespace MailboxColumn

/-- The name of the column. -/
def columnName : MailboxColumn → PyStr
  | id => py "id"
  | name => py "name"
  | providerKey => py "provider_key"
  | presetVersion => py "preset_version"
  | host => py "host"
  | port => py "port"
  | username => py "username"
  | passwordEncrypted => py "password_encrypted"
  | trustedAuthservIds => py "trusted_authserv_ids"
  | enabled => py "enabled"
  | uidValidity => py "uid_validity"
  | lastUid => py "last_uid"
  | lastSyncAt => py "last_sync_at"
  | lastErrorCode => py "last_error_code"
  | configVersion => py "config_version"
  | createdAt => py "created_at"
  | updatedAt => py "updated_at"

/-- `SET column = new`. -/
def assign (c : MailboxColumn) (new m : Mailbox) : Mailbox :=
  match c with
  | id => { m with id := new.id }
  | name => { m with name := new.name }
  | providerKey => { m with providerKey := new.providerKey }
  | presetVersion => { m with presetVersion := new.presetVersion }
  | host => { m with host := new.host }
  | port => { m with port := new.port }
  | username => { m with username := new.username }
  | passwordEncrypted => { m with passwordEncrypted := new.passwordEncrypted }
  | trustedAuthservIds => { m with trustedAuthservIds := new.trustedAuthservIds }
  | enabled => { m with enabled := new.enabled }
  | uidValidity => { m with uidValidity := new.uidValidity }
  | lastUid => { m with lastUid := new.lastUid }
  | lastSyncAt => { m with lastSyncAt := new.lastSyncAt }
  | lastErrorCode => { m with lastErrorCode := new.lastErrorCode }
  | configVersion => { m with configVersion := new.configVersion }
  | createdAt => { m with createdAt := new.createdAt }
  | updatedAt => { m with updatedAt := new.updatedAt }

end MailboxColumn

/-- The row with these columns of another one. -/
def Mailbox.withColumns (m : Mailbox) (columns : List MailboxColumn) (new : Mailbox) : Mailbox :=
  columns.foldl (fun m c => c.assign new m) m

/-- A statement, as far as privileges are concerned: the columns that a query reads, the table
that is written, with the right for it and the columns that are named, the sequence that is
advanced, or the function that is called. -/
inductive Statement where
  | select (reads : List (DbRelation × PyStr))
  | write (relation : DbRelation) (right : DbRight) (columns : List PyStr)
  | nextval (s : DbSequence)
  | call (f : DbFunction)
deriving DecidableEq, Repr

/-- A role may run the statement.  A statement that inserts or updates needs the right on each
column that it names, every other one needs it on the table. -/
def Statement.Permitted (acl : DbAcl) (role : Role) : Statement → Prop
  | select reads => ∀ p ∈ reads, Allows acl role (.relation p.1) (some p.2) .select
  | write relation right columns =>
      if right = .insert ∨ right = .update then
        columns ≠ [] ∧ ∀ column ∈ columns, Allows acl role (.relation relation) (some column) right
      else Allows acl role (.relation relation) none right
  | nextval s =>
      Allows acl role (.sequence s) none .usage ∨ Allows acl role (.sequence s) none .update
  | call f => Allows acl role (.function f) none .execute

/-- The writes whose effect is modelled. -/
def modelledWrites : List (DbRelation × DbRight) :=
  [(.mailbox, .update), (.message, .insert), (.attachment, .insert), (.auditEvent, .insert)]

/-- What a statement of a role can do to the database.  Nothing is assumed of the other writes, by
any right but `SELECT`, and of the functions but `mailgate_api_authorize`. -/
inductive Statement.Effect (role : Role) : Statement → Db → Db → Prop where
  | select (reads : List (DbRelation × PyStr)) (db : Db) : Effect role (.select reads) db db
  | updateMailboxes {columns : List MailboxColumn} {p : Mailbox → Bool} {set : Mailbox → Mailbox}
      {n : ℕ} {db db' : Db}
      (h : db.updateMailboxes p (fun m => m.withColumns columns (set m)) = .ok (n, db')) :
      Effect role (.write .mailbox .update (columns.map (·.columnName))) db db'
  | insertMessage {columns : List PyStr} {new : Message} {db db' : Db}
      (h : db.insertMessage role new = .ok db') :
      Effect role (.write .message .insert columns) db db'
  | insertAttachments {columns : List PyStr} {rows : List Attachment} {db db' : Db}
      (h : db.insertAttachments rows = .ok db') :
      Effect role (.write .attachment .insert columns) db db'
  /-- The statement gives the key of the event. -/
  | insertAudit {columns : List PyStr} {event : AuditEvent} {db : Db}
      (h : event.id ∉ db.audit.map (·.id)) :
      Effect role (.write .auditEvent .insert columns) db { db with audit := db.audit ++ [event] }
  /-- The key of the event comes from the sequence. -/
  | insertNextAudit {columns : List PyStr} {event : AuditEvent} {db : Db}
      (h : db.auditSeq ∉ db.audit.map (·.id)) :
      Effect role (.write .auditEvent .insert columns) db
        { db with
          audit := db.audit ++ [{ event with id := db.auditSeq }]
          auditSeq := db.auditSeq + 1 }
  | nextAudit (db : Db) :
      Effect role (.nextval .auditEventId) db { db with auditSeq := db.auditSeq + 1 }
  | nextAttachment (db : Db) : Effect role (.nextval .attachmentId) db db
  | authorize (tokenHash path : PyStr) (now : Time) (db : Db) :
      Effect role (.call .apiAuthorize) db (mailgateApiAuthorize tokenHash path now db).2
  | otherWrite {relation : DbRelation} {right : DbRight} {columns : List PyStr} {db db' : Db}
      (hright : right ≠ .select) (h : (relation, right) ∉ modelledWrites) :
      Effect role (.write relation right columns) db db'
  | otherSequence {name : PyStr} {db db' : Db} : Effect role (.nextval (.other name)) db db'
  | otherCall {f : DbFunction} {db db' : Db} (h : f ≠ .apiAuthorize) : Effect role (.call f) db db'

/-- Statements one after the other. -/
inductive Effects (role : Role) : List Statement → Db → Db → Prop where
  | nil (db : Db) : Effects role [] db db
  | cons {statement : Statement} {statements : List Statement} {db db₁ db' : Db}
      (h : statement.Effect role db db₁) (hrest : Effects role statements db₁ db') :
      Effects role (statement :: statements) db db'

/-! ## The server -/

/-- The database with the privileges on it. -/
structure Server where
  db : Db
  acl : DbAcl

/-- What happens on the server. -/
inductive Act where
  /-- A transaction of the application. -/
  | app (t : Txn)
  /-- A transaction of statements that a role chooses. -/
  | sql (role : Role) (statements : List Statement)
  /-- A command of another run of `apply-permissions.sh`. -/
  | permissions (c : DbCommand)

/-- The step of an act. -/
inductive Act.Step : Act → Server → Server → Prop where
  | app {t : Txn} {s : Server} {db' : Db} (h : t.Step s.db db') :
      Step (.app t) s { s with db := db' }
  | sql {role : Role} {statements : List Statement} {s : Server} {db' : Db} (hrole : role ≠ .web)
      (hpermitted : ∀ statement ∈ statements, statement.Permitted s.acl role)
      (h : Effects role statements s.db db') : Step (.sql role statements) s { s with db := db' }
  | permissions {c : DbCommand} (s : Server) (h : c ∈ applyPermissions) :
      Step (.permissions c) s { s with acl := c.exec s.acl }

/-- A run of the server. -/
abbrev ServerRun : Server → List (Taken Server Act) → Server → Prop := Run Act.Step

/-! ## What the worker can do -/

/-- What a mailbox keeps in the columns that the worker may update. -/
def Mailbox.status (m : Mailbox) : StatusColumns where
  uidValidity := m.uidValidity
  lastUid := m.lastUid
  lastSyncAt := m.lastSyncAt
  lastErrorCode := m.lastErrorCode
  updatedAt := m.updatedAt

lemma Mailbox.withStatus_status (m : Mailbox) : m.withStatus m.status = m := rfl

/-- The column is one that the worker may update. -/
def MailboxColumn.isStatus : MailboxColumn → Bool
  | uidValidity => true
  | lastUid => true
  | lastSyncAt => true
  | lastErrorCode => true
  | updatedAt => true
  | _ => false

lemma MailboxColumn.isStatus_of_mem {c : MailboxColumn} (h : c.columnName ∈ statusColumnNames) :
    c.isStatus = true := by
  revert h
  cases c <;> decide +kernel

lemma MailboxColumn.assign_eq_withStatus {c : MailboxColumn} (hc : c.isStatus = true)
    (new m : Mailbox) : ∃ status, c.assign new m = m.withStatus status := by
  match c with
  | uidValidity => exact ⟨{ m.status with uidValidity := new.uidValidity }, rfl⟩
  | lastUid => exact ⟨{ m.status with lastUid := new.lastUid }, rfl⟩
  | lastSyncAt => exact ⟨{ m.status with lastSyncAt := new.lastSyncAt }, rfl⟩
  | lastErrorCode => exact ⟨{ m.status with lastErrorCode := new.lastErrorCode }, rfl⟩
  | updatedAt => exact ⟨{ m.status with updatedAt := new.updatedAt }, rfl⟩

/-- Assignments to status columns leave the rest of the row. -/
lemma Mailbox.withColumns_eq_withStatus {columns : List MailboxColumn}
    (hcolumns : ∀ c ∈ columns, c.isStatus = true) (m new : Mailbox) :
    ∃ status, m.withColumns columns new = m.withStatus status := by
  induction columns generalizing m with
  | nil => exact ⟨m.status, rfl⟩
  | cons c columns ih =>
    rw [List.forall_mem_cons] at hcolumns
    obtain ⟨status, hassign⟩ := MailboxColumn.assign_eq_withStatus hcolumns.1 new m
    obtain ⟨status', hrest⟩ := ih hcolumns.2 (c.assign new m)
    refine ⟨status', ?_⟩
    rw [withColumns, List.foldl_cons, ← withColumns, hrest, hassign]
    rfl

/-- What the worker leaves as it is, whatever it runs: it changes status columns of mailboxes, and
adds messages in quarantine, attachments and audit events. -/
structure WorkerKeeps (s s' : Db) : Prop where
  users : s'.users = s.users
  tokens : s'.tokens = s.tokens ∧ s'.tokenSeq = s.tokenSeq
  mailboxes : ∃ f : Mailbox → StatusColumns,
    s'.mailboxes = s.mailboxes.map (fun m => m.withStatus (f m)) ∧ s'.mailboxSeq = s.mailboxSeq
  messages : ∃ new, s'.messages = s.messages ++ new ∧
    ∀ m ∈ new, m.state = State.quarantined.value ∧ m.risk ≠ Risk.low.value
  attachments : s.attachments <+: s'.attachments
  audit : s.audit <+: s'.audit

namespace WorkerKeeps

variable {s s₁ s' : Db}

lemma refl (s : Db) : WorkerKeeps s s where
  users := rfl
  tokens := ⟨rfl, rfl⟩
  mailboxes := ⟨Mailbox.status, by simp [Mailbox.withStatus_status], rfl⟩
  messages := ⟨[], by simp, by simp⟩
  attachments := List.prefix_rfl
  audit := List.prefix_rfl

lemma trans (h : WorkerKeeps s s₁) (h' : WorkerKeeps s₁ s') : WorkerKeeps s s' := by
  obtain ⟨f, hf, hseq⟩ := h.mailboxes
  obtain ⟨f', hf', hseq'⟩ := h'.mailboxes
  obtain ⟨new, hnew, hwaiting⟩ := h.messages
  obtain ⟨new', hnew', hwaiting'⟩ := h'.messages
  refine ⟨h'.users.trans h.users,
    ⟨h'.tokens.1.trans h.tokens.1, h'.tokens.2.trans h.tokens.2⟩,
    ⟨fun m => f' (m.withStatus (f m)), ?_, hseq'.trans hseq⟩, ⟨new ++ new', ?_, ?_⟩,
    h.attachments.trans h'.attachments, h.audit.trans h'.audit⟩
  · rw [hf', hf, List.map_map]
    rfl
  · rw [hnew', hnew, List.append_assoc]
  · rw [List.forall_mem_append]
    exact ⟨hwaiting, hwaiting'⟩

end WorkerKeeps

lemma forceWorkerQuarantine_risk (new : Message) :
    (forceWorkerQuarantine .worker new).risk ≠ Risk.low.value := by
  rw [forceWorkerQuarantine, if_pos rfl]
  simp only
  split <;> decide +kernel

section Worker

variable {acl : DbAcl} {s s' : Db}

/-- The writes that the worker may be granted the right for. -/
lemma WorkerMay.write {relation : DbRelation} {part : Option PyStr} {right : DbRight}
    (hright : right ≠ .select) (h : WorkerMay (.relation relation) part right) :
    (relation, right) ∈ modelledWrites ∧
      (relation = .mailbox → ∃ name ∈ statusColumnNames, part = some name) := by
  cases relation with
  | mailbox =>
    cases right with
    | update => exact ⟨by decide, fun _ => h⟩
    | select => exact absurd rfl hright
    | _ => exact h.elim
  | message | attachment | auditEvent =>
    cases right with
    | insert => exact ⟨by decide, by simp⟩
    | select => exact absurd rfl hright
    | _ => exact h.elim
  | _ => exact h.elim

/-- What the worker is permitted to write. -/
lemma Confined.worker_write (hacl : Confined acl) {relation : DbRelation} {right : DbRight}
    {columns : List PyStr} (hright : right ≠ .select)
    (h : (Statement.write relation right columns).Permitted acl .worker) :
    (relation, right) ∈ modelledWrites ∧
      (relation = .mailbox → ∀ column ∈ columns, column ∈ statusColumnNames) := by
  have hmay : ∀ part, Allows acl .worker (.relation relation) part right →
      (relation, right) ∈ modelledWrites ∧
        (relation = .mailbox → ∃ name ∈ statusColumnNames, part = some name) :=
    fun part hallows => (allows_worker.1 (hacl.allows (by simp) hallows)).write hright
  simp only [Statement.Permitted] at h
  split at h
  · obtain ⟨hne, hcolumns⟩ := h
    obtain ⟨column, hcolumn⟩ := List.exists_mem_of_ne_nil _ hne
    refine ⟨(hmay _ (hcolumns column hcolumn)).1, fun hmailbox column hcolumn => ?_⟩
    obtain ⟨name, hname, heq⟩ := (hmay _ (hcolumns column hcolumn)).2 hmailbox
    cases heq
    exact hname
  · refine ⟨(hmay _ h).1, fun hmailbox => ?_⟩
    obtain ⟨name, -, heq⟩ := (hmay _ h).2 hmailbox
    cases heq

/-- What a statement of the worker can do. -/
inductive WorkerEffect (s : Db) : Db → Prop where
  | status {s' : Db} {p : Mailbox → Bool} (f : Mailbox → StatusColumns) {n : ℕ}
      (h : s.updateMailboxes p (fun m => m.withStatus (f m)) = .ok (n, s')) : WorkerEffect s s'
  | message {s' : Db} {new : Message} (h : s.insertMessage .worker new = .ok s') :
      WorkerEffect s s'
  | attachments {s' : Db} {rows : List Attachment} (h : s.insertAttachments rows = .ok s') :
      WorkerEffect s s'
  /-- Queries, audit events and their sequence. -/
  | audit {events : List AuditEvent} (auditSeq : ℕ) (h : s.audit <+: events) :
      WorkerEffect s { s with audit := events, auditSeq := auditSeq }

/-- Whatever the worker is permitted to run does one of these things. -/
lemma Statement.Effect.worker (hacl : Confined acl) {statement : Statement}
    (hpermitted : statement.Permitted acl .worker) (h : statement.Effect .worker s s') :
    WorkerEffect s s' := by
  have hmay : ∀ {o part right}, Allows acl .worker o part right → WorkerMay o part right :=
    fun hallows => allows_worker.1 (hacl.allows (by simp) hallows)
  cases h with
  | select reads => exact .audit s.auditSeq List.prefix_rfl
  | @updateMailboxes columns p set n _ _ hupd =>
    have hnames := (hacl.worker_write (by simp) hpermitted).2 rfl
    have hcolumns : ∀ c ∈ columns, c.isStatus = true := fun c hc =>
      MailboxColumn.isStatus_of_mem (hnames _ (List.mem_map_of_mem hc))
    choose f hf using fun m : Mailbox => m.withColumns_eq_withStatus hcolumns (set m)
    rw [funext hf] at hupd
    exact .status f hupd
  | insertMessage hins => exact .message hins
  | insertAttachments hins => exact .attachments hins
  | insertAudit hfresh => exact .audit s.auditSeq (List.prefix_append _ _)
  | insertNextAudit hfresh => exact .audit _ (List.prefix_append _ _)
  | nextAudit => exact .audit _ List.prefix_rfl
  | nextAttachment => exact .audit s.auditSeq List.prefix_rfl
  | otherWrite hright hother => exact absurd (hacl.worker_write hright hpermitted).1 hother
  -- the worker has no right on other sequences, and none on any function
  | otherSequence =>
    rcases hpermitted with hallows | hallows
    · exact (hmay hallows).elim
    · exact (hmay hallows).elim
  | authorize tokenHash path now => exact (hmay hpermitted).elim
  | otherCall hother => exact (hmay hpermitted).elim

lemma WorkerEffect.keeps (h : WorkerEffect s s') : WorkerKeeps s s' := by
  cases h with
  | @status _ p f n hupd =>
    obtain ⟨-, -, rfl⟩ := Db.updateMailboxes_eq_ok.1 hupd
    refine { WorkerKeeps.refl s with
      mailboxes := ⟨fun m => if p m then f m else m.status, List.map_congr_left ?_, rfl⟩ }
    intro m _
    -- the trigger leaves the version of a row whose status columns change
    by_cases hp : p m
    · simp only [hp, if_true]
      rw [bumpMailboxConfigVersion_withStatus]
    · simp only [hp, Bool.false_eq_true, if_false]
      exact m.withStatus_status.symm
  | message hins =>
    obtain ⟨-, -, -, -, rfl⟩ := Db.insertMessage_eq_ok.1 hins
    refine { WorkerKeeps.refl s with messages := ⟨_, rfl, ?_⟩ }
    rw [List.forall_mem_singleton]
    exact ⟨rfl, forceWorkerQuarantine_risk _⟩
  | attachments hins =>
    obtain ⟨-, -, rfl⟩ := Db.insertAttachments_eq_ok.1 hins
    exact { WorkerKeeps.refl s with attachments := List.prefix_append _ _ }
  | audit auditSeq hevents => exact { WorkerKeeps.refl s with audit := hevents }

lemma WorkerEffect.valid (h : WorkerEffect s s') (hs : s.Valid) : s'.Valid := by
  cases h with
  | status f hupd => exact Db.updateMailboxes_valid hs (by exact fun _ _ _ => rfl) hupd
  | message hins => exact Db.insertMessage_valid hs hins
  | attachments hins => exact Db.insertAttachments_valid hs hins
  | @audit events auditSeq hevents =>
    have hsame : SameMail s { s with audit := events, auditSeq := auditSeq } := ⟨rfl, rfl, rfl, rfl⟩
    exact hsame.valid hs

end Worker

/-! ## What the agent API can do -/

/-- A call of `mailgate_api_authorize`. -/
structure AuthorizeCall where
  tokenHash : PyStr
  path : PyStr
  now : Time
deriving DecidableEq, Repr

/-- The database after these calls. -/
def authorizeCalls (calls : List AuthorizeCall) (db : Db) : Db :=
  calls.foldl (fun db call => (mailgateApiAuthorize call.tokenHash call.path call.now db).2) db

section Api

variable {acl : DbAcl} {s s' : Db}

/-- The only right of the agent API on a relation is that of reading. -/
lemma ApiMay.eq_select {relation : DbRelation} {right : DbRight}
    (h : ApiMay (.relation relation) right) : right = .select := by
  match relation, right with
  | .approvedMessage, .select => rfl

/-- The only function that the agent API may call. -/
lemma ApiMay.eq_apiAuthorize {f : DbFunction} {right : DbRight} (h : ApiMay (.function f) right) :
    f = .apiAuthorize := by
  match f, right with
  | .apiAuthorize, .execute => rfl

/-- The agent API is permitted no write. -/
lemma Confined.not_api_write (hacl : Confined acl) {relation : DbRelation} {right : DbRight}
    {columns : List PyStr} (hright : right ≠ .select) :
    ¬ (Statement.write relation right columns).Permitted acl .api := by
  intro h
  have hmay : ∀ part, ¬ Allows acl .api (.relation relation) part right := by
    intro part hallows
    have hmay := allows_api.1 (hacl.allows (by simp) hallows)
    exact hright hmay.eq_select
  simp only [Statement.Permitted] at h
  split at h
  · obtain ⟨column, hcolumn⟩ := List.exists_mem_of_ne_nil _ h.1
    exact hmay _ (h.2 column hcolumn)
  · exact hmay _ h

/-- The agent API changes nothing but by calls of `mailgate_api_authorize`. -/
lemma Statement.Effect.apiCalls (hacl : Confined acl) {statement : Statement}
    (hpermitted : statement.Permitted acl .api) (h : statement.Effect .api s s') :
    ∃ calls, s' = authorizeCalls calls s := by
  have hmay : ∀ {o part right}, Allows acl .api o part right → ApiMay o right :=
    fun hallows => allows_api.1 (hacl.allows (by simp) hallows)
  have hsequence : ∀ {sequence}, ¬ (Statement.nextval sequence).Permitted acl .api := by
    rintro sequence (hallows | hallows)
    · exact hmay hallows
    · exact hmay hallows
  cases h with
  | select reads => exact ⟨[], rfl⟩
  | authorize tokenHash path now => exact ⟨[⟨tokenHash, path, now⟩], rfl⟩
  | nextAudit => exact absurd hpermitted hsequence
  | nextAttachment => exact absurd hpermitted hsequence
  | otherSequence => exact absurd hpermitted hsequence
  | otherCall hother => exact absurd (hmay hpermitted).eq_apiAuthorize hother
  | updateMailboxes hupd => exact absurd hpermitted (hacl.not_api_write (by simp))
  | insertMessage hins => exact absurd hpermitted (hacl.not_api_write (by simp))
  | insertAttachments hins => exact absurd hpermitted (hacl.not_api_write (by simp))
  | insertAudit hfresh => exact absurd hpermitted (hacl.not_api_write (by simp))
  | insertNextAudit hfresh => exact absurd hpermitted (hacl.not_api_write (by simp))
  | otherWrite hright hother => exact absurd hpermitted (hacl.not_api_write hright)

/-- A transaction of the agent API is a list of such calls. -/
lemma Effects.api (hacl : Confined acl) {statements : List Statement}
    (hpermitted : ∀ statement ∈ statements, statement.Permitted acl .api)
    (h : Effects .api statements s s') : ∃ calls, s' = authorizeCalls calls s := by
  induction h with
  | nil s => exact ⟨[], rfl⟩
  | cons hfirst hrest ih =>
    rw [List.forall_mem_cons] at hpermitted
    obtain ⟨calls, rfl⟩ := hfirst.apiCalls hacl hpermitted.1
    obtain ⟨calls', rfl⟩ := ih hpermitted.2
    exact ⟨calls ++ calls', List.foldl_append.symm⟩

lemma authorizeCalls_sameMail (calls : List AuthorizeCall) (s : Db) :
    SameMail s (authorizeCalls calls s) := by
  induction calls generalizing s with
  | nil => exact .refl s
  | cons call calls ih =>
    obtain ⟨hbox, hseq, hmsg, hatt⟩ :=
      mailgateApiAuthorize_sameMail call.tokenHash call.path call.now s
    obtain ⟨hbox', hseq', hmsg', hatt'⟩ :=
      ih (mailgateApiAuthorize call.tokenHash call.path call.now s).2
    exact ⟨hbox'.trans hbox, hseq'.trans hseq, hmsg'.trans hmsg, hatt'.trans hatt⟩

end Api

/-! ## Runs of the server -/

/-- The events of the quarantine that an act may cause: the worker adds messages, which are not of
low risk, and the agent API causes none. -/
def Act.MayCause : Act → GateEvent → Prop
  | app t, e => t.MayCause e
  | sql .worker _, .arrive _ content => content.risk ≠ Risk.low.value
  | _, _ => False

/-- What an act of the worker, of the agent API or of the permissions script leaves as it is. -/
def Act.Contained : Act → Db → Db → Prop
  | app _, _, _ => True
  | sql .worker _, s, s' => WorkerKeeps s s'
  | sql .api _, s, s' => ∃ calls, s' = authorizeCalls calls s
  | sql .web _, _, _ => False
  | permissions _, s, s' => s' = s

/-- How an act is seen. -/
def Act.Seen (a : Act) (g g' : Quarantine.Store Uuid ApprovedMessage) : Prop :=
  ∃ tr, Run Quarantine.Step g tr g' ∧ ∀ u ∈ tr, a.MayCause u.label

/-- What holds of the server at any time. -/
structure Server.Guarded (s : Server) : Prop where
  valid : s.db.Valid
  confined : Confined s.acl

lemma Act.Seen.refl (a : Act) (g : Quarantine.Store Uuid ApprovedMessage) : a.Seen g g :=
  ⟨[], .nil g, by simp⟩

lemma Act.Seen.trans {a : Act} {g g₁ g' : Quarantine.Store Uuid ApprovedMessage}
    (h : a.Seen g g₁) (h' : a.Seen g₁ g') : a.Seen g g' := by
  obtain ⟨tr, hrun, hlabels⟩ := h
  obtain ⟨tr', hrun', hlabels'⟩ := h'
  refine ⟨tr ++ tr', hrun.append hrun', ?_⟩
  rw [List.forall_mem_append]
  exact ⟨hlabels, hlabels'⟩

lemma WorkerEffect.seen {s s' : Db} (h : WorkerEffect s s') (statements : List Statement) :
    (Act.sql .worker statements).Seen (gate s) (gate s') := by
  cases h with
  | status f hupd =>
    obtain ⟨-, -, rfl⟩ := Db.updateMailboxes_eq_ok.1 hupd
    exact .refl _ _
  | @message _ new hins =>
    obtain ⟨-, hnew, -, -, rfl⟩ := Db.insertMessage_eq_ok.1 hins
    have hinserts : (Txn.worker [.insertMessage new]).Inserts (forceWorkerQuarantine .worker new) :=
      ⟨new, List.mem_singleton_self _, rfl⟩
    obtain ⟨tr, hrun, hlabels⟩ := hinserts.seen fun m hm => (hnew m hm).1
    refine ⟨tr, hrun, fun u hu => ?_⟩
    have hcaused := hlabels u hu
    cases hlabel : u.label with
    | arrive k content =>
      rw [hlabel] at hcaused
      obtain ⟨r, ⟨new', -, rfl⟩, -, rfl⟩ := hcaused
      exact forceWorkerQuarantine_risk new'
    | decide k release =>
      rw [hlabel] at hcaused
      obtain ⟨env, heq⟩ := hcaused
      cases heq
    | forget k =>
      rw [hlabel] at hcaused
      rcases hcaused with ⟨env, mailboxId, heq⟩ | ⟨policy, now, batchSize, auditAt, heq⟩
      · cases heq
      · cases heq
  | attachments hins =>
    obtain ⟨-, -, rfl⟩ := Db.insertAttachments_eq_ok.1 hins
    exact .refl _ _
  | audit auditSeq hevents => exact .refl _ _

/-- A transaction of the worker, statement by statement. -/
lemma Effects.worker {acl : DbAcl} (hacl : Confined acl) {statements : List Statement}
    (hpermitted : ∀ statement ∈ statements, statement.Permitted acl .worker) {s s' : Db}
    (h : Effects .worker statements s s') (hs : s.Valid) (a : List Statement) :
    s'.Valid ∧ WorkerKeeps s s' ∧ (Act.sql .worker a).Seen (gate s) (gate s') := by
  induction h with
  | nil s => exact ⟨hs, .refl s, .refl _ _⟩
  | cons hfirst hrest ih =>
    rw [List.forall_mem_cons] at hpermitted
    have heffect := hfirst.worker hacl hpermitted.1
    obtain ⟨hvalid, hkeeps, hseen⟩ := ih hpermitted.2 (heffect.valid hs)
    exact ⟨hvalid, heffect.keeps.trans hkeeps, (heffect.seen a).trans hseen⟩

/-- One act keeps the server guarded, stays within its bounds, and is seen as a run of the
quarantine. -/
lemma Act.Step.guarded {a : Act} {s s' : Server} (h : a.Step s s') (hs : s.Guarded) :
    s'.Guarded ∧ a.Contained s.db s'.db ∧ a.Seen (gate s.db) (gate s'.db) := by
  cases h with
  | app ht => exact ⟨⟨Txn.valid ht hs.valid, hs.confined⟩, trivial, Txn.seen ht hs.valid⟩
  | @sql role statements _ _ hrole hpermitted heffects =>
    cases role with
    | web => exact absurd rfl hrole
    | api =>
      obtain ⟨calls, rfl⟩ := heffects.api hs.confined hpermitted
      have hsame := authorizeCalls_sameMail calls s.db
      refine ⟨⟨hsame.valid hs.valid, hs.confined⟩, ⟨calls, rfl⟩, ?_⟩
      rw [gate, gate, hsame.messages]
      exact .refl _ _
    | worker =>
      obtain ⟨hvalid, hkeeps, hseen⟩ := heffects.worker hs.confined hpermitted hs.valid statements
      exact ⟨⟨hvalid, hs.confined⟩, hkeeps, hseen⟩
  | permissions _ hc => exact ⟨⟨hs.valid, hs.confined.exec hc⟩, rfl, .refl _ _⟩

/-- The server simulates a quarantine. -/
theorem server_simulation :
    Simulation Act.Step Quarantine.Step Server.Guarded (fun s => gate s.db) Act.MayCause where
  keeps _ _ _ h hs := (h.guarded hs).1
  seen _ _ _ h hs := (h.guarded hs).2.2

/-- Once `apply-permissions.sh` has run to its end, and whatever statements the worker and the
agent API then run with their privileges, among the transactions of the application and further
runs of the script: neither of them changes anything but what it is there for, and the agent can
read a message exactly if it arrived with that content and the owner released it afterwards, and
neither refused nor deleted it since. -/
theorem serverRun_contained {acl : DbAcl} (hacl : ∀ e ∈ acl, Revocable e) (steps : List SetupStep)
    {db : Db} (hdb : db.Valid) {tr : List (Taken Server Act)} {s' : Server}
    (h : ServerRun ⟨db, setup (steps ++ [.permissions applyPermissions.length]) acl⟩ tr s') :
    (∀ t ∈ tr, t.label.Contained t.before.db t.after.db) ∧
      ∃ parts,
        List.Forall₂ (SeenAs Quarantine.Step (fun s => gate s.db) Act.MayCause) tr parts ∧
        ∀ row : ApprovedMessage, row.id ∉ db.messages.map (·.id) →
          (row ∈ s'.db.approvedMessages ↔ Released (history parts.flatten row.id) row.id row) := by
  have hguarded :
      Server.Guarded ⟨db, setup (steps ++ [.permissions applyPermissions.length]) acl⟩ :=
    ⟨hdb, setup_confined hacl steps⟩
  obtain ⟨hend, parts, hparts, hrun⟩ := server_simulation.run h hguarded
  refine ⟨fun t ht => ?_, parts, hparts, fun row hrow => ?_⟩
  · have hkept := (h.kept (I := Server.Guarded)
      (fun t ht hbefore => ((h.step_of_mem t ht).guarded hbefore).1) hguarded).2 t ht
    exact ((h.step_of_mem t ht).guarded hkept.1).2.1
  · rw [mem_approvedMessages hend.valid]
    exact Quarantine.shown_iff hrun (gateOf_eq_none.2 hrow) row

/-- A message that claims to be approved. -/
def forgedMessage : Message :=
  { sampleRecord.messageRow with state := State.approved.value, risk := Risk.low.value }

/-- The database after the worker has inserted it. -/
def forgedDb : Db :=
  { sampleDb with messages := sampleDb.messages ++ [forceWorkerQuarantine .worker forgedMessage] }

/-- The worker inserts the forged message, and the agent API tries a token that does not exist. -/
theorem serverRun_contained_forged :
    ∃ tr s', ServerRun ⟨sampleDb, setup ([] ++ [.permissions applyPermissions.length]) []⟩ tr s' ∧
      s'.db = forgedDb ∧ (∀ t ∈ tr, t.label.Contained t.before.db t.after.db) ∧
      ∃ parts,
        List.Forall₂ (SeenAs Quarantine.Step (fun s => gate s.db) Act.MayCause) tr parts ∧
        ¬ Released (history parts.flatten 1) 1 forgedMessage.approvedColumns := by
  let acl := setup ([] ++ [.permissions applyPermissions.length]) []
  have hinsert : (Statement.write .message .insert [py "id"]).Permitted acl .worker := by
    have hallows : Allows acl .worker (.relation .message) (some (py "id")) .insert := by
      decide +kernel
    simpa [Statement.Permitted] using hallows
  have hcall : (Statement.call .apiAuthorize).Permitted acl .api := by
    have hallows : Allows acl .api (.function .apiAuthorize) none .execute := by decide +kernel
    exact hallows
  have hforged : sampleDb.insertMessage .worker forgedMessage = .ok forgedDb := by decide +kernel
  have hworker : Act.Step (.sql .worker [.write .message .insert [py "id"]]) ⟨sampleDb, acl⟩
      ⟨forgedDb, acl⟩ :=
    .sql (by simp) (List.forall_mem_singleton.2 hinsert) (.cons (.insertMessage hforged) (.nil _))
  have hapi : Act.Step (.sql .api [.call .apiAuthorize]) ⟨forgedDb, acl⟩ ⟨forgedDb, acl⟩ :=
    .sql (by simp) (List.forall_mem_singleton.2 hcall)
      (.cons (.authorize [] [] 0 forgedDb) (.nil _))
  have hrun : ServerRun ⟨sampleDb, acl⟩ _ ⟨forgedDb, acl⟩ := .cons hworker (.cons hapi (.nil _))
  obtain ⟨hcontained, parts, hparts, hrows⟩ := serverRun_contained (by simp) [] sampleDb_valid hrun
  refine ⟨_, _, hrun, rfl, hcontained, parts, hparts, fun hreleased => ?_⟩
  have hshown : forgedMessage.approvedColumns ∈ forgedDb.approvedMessages :=
    (hrows forgedMessage.approvedColumns (by simp [sampleDb])).2 hreleased
  revert hshown
  decide +kernel

end MailGate
