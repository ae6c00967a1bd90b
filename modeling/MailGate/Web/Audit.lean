import MailGate.Lib.Session
import MailGate.System
import MailGate.Web.SetupOwner

/-!
# Changes and their audit events

The operations of the owner, statement by statement.  Whatever statement fails, an operation
with one `transaction.atomic()` around its change and its event leaves both or neither.  The
operations without it can leave a change that no event tells of.
-/

namespace MailGate

open Transaction

/-! ## Blocks

Within a block, `.atomic` is one statement, and so is `auditAlone`. -/

/-- The statements of `setup_owner` after the advisory lock. -/
def setupOwnerBlock (request : OwnerRequest) : Prog Db WebExn Page := do
  let owned ← .atomic fun db => .ok (decide (db.users ≠ []), db)
  if owned then return .redirect (py "login")
  else do
    .atomic fun db => .ok ((), insertUser request.username db)
    auditAlone request.username (py "owner.created") (py "User", PyStr.ofNat request.userId) []
      request.now
    return .redirect (py "mailbox-create")

/-- The block of `mailbox_edit`. -/
def mailboxEditBlock (env : WebEnv) (mailboxId : ℕ) (post : MailboxFields) :
    Prog Db WebExn Bool := do
  let mailbox ← .atomic fun db =>
    match db.mailboxes.find? (·.id = mailboxId) with
    | some mailbox => .ok (mailbox, db)
    | none => .error .doesNotExist
  match editedMailbox env post mailbox with
  | .error e => .compute (.error e)
  | .ok none => return false
  | .ok (some (saved, changed)) => do
    .atomic fun db =>
      match db.updateMailboxes (·.id = mailboxId) (fun _ => saved) with
      | .ok (_, db) => .ok ((), db)
      | .error _ => .error .database
    auditAlone env.user (py "mailbox.updated") (py "Mailbox", PyStr.ofNat mailboxId)
      [(py "changed_fields", .texts changed)] (env.clock 1)
    return true

/-- The block of `mailbox_delete`: the counts, the event, and what the framework deletes for
`mailbox.delete()`, the rows that depend on it first. -/
def mailboxDeleteBlock (env : WebEnv) (mailboxId : ℕ) : Prog Db WebExn Unit := do
  .atomic fun db =>
    if mailboxId ∉ db.mailboxes.map (·.id) then .error .doesNotExist else .ok ((), db)
  let ids ← .atomic fun db =>
    .ok ((db.messages.filter (·.mailboxId = mailboxId)).map (·.id), db)
  let attachments ← .atomic fun db =>
    .ok ((db.attachments.filter (·.messageId ∈ ids)).length, db)
  auditAlone env.user (py "mailbox.deleted") (py "Mailbox", PyStr.ofNat mailboxId)
    [(py "messages_deleted", .number ids.length),
      (py "attachments_deleted", .number attachments)] (env.clock 0)
  .atomic fun db =>
    .ok ((), { db with attachments := db.attachments.filter fun a => a.messageId ∉ ids })
  .atomic fun db =>
    .ok ((), { db with messages := db.messages.filter fun m => !decide (m.mailboxId = mailboxId) })
  .atomic fun db =>
    .ok ((), { db with mailboxes := db.mailboxes.filter fun m => m.id ≠ mailboxId })

/-- The block of `message_decide`. -/
def messageDecideBlock (env : WebEnv) (messageId : Uuid) (decision : PyStr) :
    Prog Db WebExn Unit := do
  .atomic fun db =>
    match db.updateDecision messageId decision (env.clock 0) with
    | .ok db => .ok ((), db)
    | .error _ => .error .database
  auditAlone env.user (py "message." ++ decision) (py "Message", messageId.str) [] (env.clock 1)

/-! Undisturbed, the blocks are the transactions of the views. -/

lemma setupOwnerBlock_whole (request : OwnerRequest) : (setupOwnerBlock request).whole =
    setupOwnerTransaction request.username request.userId request.now := by
  ext db : 1
  simp only [setupOwnerBlock, Prog.whole_atomic_bind, setupOwnerTransaction, auditAlone]
  by_cases h : db.users = []
  · simp [h, insertUser]
  · simp [h]

lemma mailboxEditBlock_whole (env : WebEnv) (mailboxId : ℕ) (post : MailboxFields) :
    (mailboxEditBlock env mailboxId post).whole = mailboxEditTransaction env mailboxId post := by
  ext db : 1
  simp only [mailboxEditBlock, Prog.whole_atomic_bind, mailboxEditTransaction, auditAlone]
  cases db.mailboxes.find? (·.id = mailboxId) with
  | none => rfl
  | some mailbox =>
    dsimp only
    cases editedMailbox env post mailbox with
    | error e => rfl
    | ok edited =>
      cases edited with
      | none => rfl
      | some p =>
        obtain ⟨saved, changed⟩ := p
        simp only [Prog.whole_atomic_bind]
        cases db.updateMailboxes (·.id = mailboxId) fun _ => saved <;> rfl

lemma mailboxDeleteBlock_whole (env : WebEnv) (mailboxId : ℕ) :
    (mailboxDeleteBlock env mailboxId).whole = mailboxDeleteTransaction env mailboxId := by
  ext db : 1
  simp only [mailboxDeleteBlock, Prog.whole_atomic_bind, mailboxDeleteTransaction, auditAlone]
  by_cases h : mailboxId ∈ db.mailboxes.map (·.id)
  · simp only [h, not_true_eq_false, if_false, Prog.whole_atomic]
    rfl
  · simp [h]

lemma messageDecideBlock_whole (env : WebEnv) (messageId : Uuid) (decision : PyStr) :
    (messageDecideBlock env messageId decision).whole =
      messageDecideTransaction env messageId decision := by
  ext db : 1
  simp only [messageDecideBlock, Prog.whole_atomic_bind, messageDecideTransaction, auditAlone,
    Prog.whole_atomic]
  cases db.updateDecision messageId decision (env.clock 0) <;> rfl

/-! ## Operations -/

/-- A `POST` request of the owner, whose form the framework has accepted. -/
inductive OwnerOperation where
  | setupOwner (request : OwnerRequest)
  | mailboxCreate (post : MailboxFields)
  | mailboxEdit (mailboxId : ℕ) (post : MailboxFields)
  | mailboxDelete (mailboxId : ℕ) (confirmation : PyStr)
  | messageDecide (messageId : Uuid) (decision : Option PyStr)
  | tokens (name random : PyStr) (lifetimeDays : ℕ)
  | tokenRevoke (tokenId : ℕ)

namespace OwnerOperation

/-- The view of the operation.  `sha256` is the digest of a text. -/
def session (env : WebEnv) (sha256 : PyStr → PyStr) : OwnerOperation → Session Db WebExn Page
  | setupOwner request => do
    let owned ← .statement fun db => .ok (decide (db.users ≠ []), db)
    if owned then return .redirect (py "login")
    else if request.hasToken env.settings = false ∨ request.accepted = false then
      return .render (py "gateway/setup_owner.html")
    else do
      let owned ← .statement fun db => .ok (decide (db.users ≠ []), db)
      if owned then return .render (py "gateway/setup_owner.html")
      else .transaction (setupOwnerBlock request)
  | mailboxCreate post => .ofProg (MailGate.mailboxCreate env post)
  | mailboxEdit mailboxId post => do
    let mailbox ← .ofProg (getMailbox mailboxId)
    match MailboxForm.clean env.settings env.unicode (MailboxForm.bind (some mailbox) post) with
    | none => return .render (py "gateway/mailbox_form.html")
    | some _ => do
      let saved ← .transaction (mailboxEditBlock env mailboxId post)
      return if saved then .redirect (py "dashboard") else .render (py "gateway/mailbox_form.html")
  | mailboxDelete mailboxId confirmation => do
    let _ ← .ofProg (getMailbox mailboxId)
    if mailboxDeleteFormValid mailboxId confirmation then do
      .transaction (mailboxDeleteBlock env mailboxId)
      return .redirect (py "dashboard")
    else return .render (py "gateway/mailbox_delete.html")
  | messageDecide messageId decision => do
    .statement fun db =>
      if messageId ∈ db.messages.map (·.id) then .ok ((), db) else .error .http404
    match decision with
    | none => return .notAllowed
    | some decision =>
      if decision ∈ [State.approved.value, State.rejected.value] then do
        .transaction (messageDecideBlock env messageId decision)
        return .redirect (py "message-detail")
      else return .notAllowed
  | tokens name random lifetimeDays =>
    .ofProg (MailGate.tokens env sha256 name random lifetimeDays)
  | tokenRevoke tokenId => .ofProg (MailGate.tokenRevoke env tokenId)

/-- The action that the audit event of the operation names. -/
def action : OwnerOperation → PyStr
  | setupOwner _ => py "owner.created"
  | mailboxCreate _ => py "mailbox.created"
  | mailboxEdit _ _ => py "mailbox.updated"
  | mailboxDelete _ _ => py "mailbox.deleted"
  | messageDecide _ decision => py "message." ++ decision.getD []
  | tokens _ _ _ => py "token.created"
  | tokenRevoke _ => py "token.revoked"

end OwnerOperation

/-- One event with this action has been written. -/
def Audited (action : PyStr) (db db' : Db) : Prop :=
  ∃ event : AuditEvent, event.action = action ∧ db'.audit = db.audit ++ [event]

/-- Whatever fails, the operation has changed nothing, or it has changed all that it changes
undisturbed and has written its event. -/
def OwnerOperation.AuditComplete (env : WebEnv) (sha256 : PyStr → PyStr) (op : OwnerOperation)
    (db : Db) : Prop :=
  ∀ o db', (op.session env sha256).Runs (· = .database) db o db' →
    db' = db ∨ db' = ((op.session env sha256).run db).2 ∧ Audited op.action db db'

/-- The operation commits its change without its event: its form is valid and the database takes
the new row, or the token is there to be revoked. -/
def OwnerOperation.WritesAlone (env : WebEnv) (sha256 : PyStr → PyStr) (db : Db) :
    OwnerOperation → Prop
  | mailboxCreate post =>
    ∃ cleaned mailbox,
      MailboxForm.clean env.settings env.unicode (MailboxForm.bind none post) = some cleaned ∧
      MailboxForm.save env.settings env.encryptSecret cleaned
        (MailboxForm.newMailbox (env.clock 0)) = some mailbox ∧
      (db.insertMailbox mailbox).isOk = true
  | tokens name random lifetimeDays =>
    (db.insertToken (newToken name (py "mg_" ++ random) (sha256 (py "mg_" ++ random))
      (tokenExpiresAt lifetimeDays (env.clock 0)) (env.clock 1))).isOk = true
  | tokenRevoke tokenId =>
    ∃ token, db.tokens.find? (·.id = tokenId) = some token ∧ token.revokedAt = none
  | _ => False

/-! ## The operations with a block -/

lemma setupOwnerBlock_straight (request : OwnerRequest) :
    (setupOwnerBlock request).Straight := by
  refine straight_bind (straight_atomic _) fun owned => ?_
  split
  · trivial
  · exact straight_bind (straight_atomic _) fun _ => straight_bind (straight_atomic _)
      fun _ => trivial

lemma mailboxEditBlock_straight (env : WebEnv) (mailboxId : ℕ) (post : MailboxFields) :
    (mailboxEditBlock env mailboxId post).Straight := by
  refine straight_bind (straight_atomic _) fun mailbox => ?_
  split
  · trivial
  · trivial
  · exact straight_bind (straight_atomic _) fun _ => straight_bind (straight_atomic _)
      fun _ => trivial

lemma mailboxDeleteBlock_straight (env : WebEnv) (mailboxId : ℕ) :
    (mailboxDeleteBlock env mailboxId).Straight := by
  refine straight_bind (straight_atomic _) fun _ => ?_
  refine straight_bind (straight_atomic _) fun ids => ?_
  refine straight_bind (straight_atomic _) fun attachments => ?_
  refine straight_bind (straight_atomic _) fun _ => ?_
  refine straight_bind (straight_atomic _) fun _ => ?_
  exact straight_bind (straight_atomic _) fun _ => straight_atomic _

lemma messageDecideBlock_straight (env : WebEnv) (messageId : Uuid) (decision : PyStr) :
    (messageDecideBlock env messageId decision).Straight :=
  straight_bind (straight_atomic _) fun _ => straight_atomic _

section Audited

variable {action : PyStr} {db db' : Db}

lemma audited_writeAudit {actor : PyStr} {obj : Option (PyStr × PyStr)}
    {metadata : List (PyStr × MetaValue)} {now : Time} (haction : action.length ≤ 120)
    (haudit : db'.audit = db.audit) :
    Audited action db (db'.writeAudit actor action obj metadata now) := by
  unfold Audited
  rw [← haudit]
  exact ⟨_, List.take_of_length_le haction, rfl⟩

lemma setupOwnerTransaction_audited {username : PyStr} {userId : ℕ} {now : Time} {page : Page}
    (h : setupOwnerTransaction username userId now db = .ok (page, db')) :
    db' = db ∨ Audited (py "owner.created") db db' := by
  unfold setupOwnerTransaction at h
  split at h
  · cases h
    exact .inl rfl
  · cases h
    exact .inr (audited_writeAudit (by decide) rfl)

lemma mailboxEditTransaction_audited {env : WebEnv} {mailboxId : ℕ} {post : MailboxFields}
    {saved : Bool} (h : mailboxEditTransaction env mailboxId post db = .ok (saved, db')) :
    db' = db ∨ Audited (py "mailbox.updated") db db' := by
  unfold mailboxEditTransaction at h
  split at h
  · cases h
  · split at h
    · cases h
    · cases h
      exact .inl rfl
    · split at h
      · cases h
      · next hupdate =>
        cases h
        refine .inr (audited_writeAudit (by decide) ?_)
        unfold Db.updateMailboxes at hupdate
        split at hupdate
        · cases hupdate
        · cases hupdate
          rfl

lemma mailboxDeleteTransaction_audited {env : WebEnv} {mailboxId : ℕ}
    (h : mailboxDeleteTransaction env mailboxId db = .ok ((), db')) :
    Audited (py "mailbox.deleted") db db' := by
  unfold mailboxDeleteTransaction at h
  split at h
  · cases h
  · cases h
    exact audited_writeAudit (by decide) rfl

lemma messageDecideTransaction_audited {env : WebEnv} {messageId : Uuid} {decision : PyStr}
    (hdecision : decision ∈ [State.approved.value, State.rejected.value])
    (h : messageDecideTransaction env messageId decision db = .ok ((), db')) :
    Audited (py "message." ++ decision) db db' := by
  unfold messageDecideTransaction at h
  split at h
  · cases h
  · next hupdate =>
    cases h
    refine audited_writeAudit ?_ ?_
    · simp only [List.mem_cons, List.not_mem_nil, or_false] at hdecision
      rcases hdecision with rfl | rfl <;> decide
    · unfold Db.updateDecision at hupdate
      split at hupdate
      · cases hupdate
      · split at hupdate
        · cases hupdate
        · cases hupdate
          rfl

end Audited

namespace OwnerOperation

variable {env : WebEnv} {sha256 : PyStr → PyStr} {op : OwnerOperation} {db : Db}

/-- Unless it writes alone, an operation has one block that writes, and its event is in it. -/
lemma session_oneStep (h : ¬ op.WritesAlone env sha256 db) :
    (op.session env sha256).OneStep (Audited op.action) db := by
  cases op with
  | setupOwner request =>
    refine Session.oneStep_statement fun owned s' hread => ?_
    cases hread
    refine ⟨rfl, ?_⟩
    split
    · trivial
    · split
      · trivial
      · refine Session.oneStep_statement fun owned s' hread => ?_
        cases hread
        refine ⟨rfl, ?_⟩
        split
        · trivial
        · refine Session.oneStep_block (setupOwnerBlock_straight request) (fun page db' hrun => ?_)
            (fun _ => rfl) fun page => ⟨_, rfl⟩
          rw [setupOwnerBlock_whole] at hrun
          exact setupOwnerTransaction_audited hrun
  | mailboxCreate post =>
    simp only [session, MailGate.mailboxCreate]
    split
    · trivial
    · next cleaned hclean =>
      split
      · trivial
      · next mailbox hsave =>
        rw [Session.ofProg_atomic_bind]
        refine Session.oneStep_statement fun id db' hinsert => ?_
        -- the row is refused
        refine absurd ⟨cleaned, mailbox, hclean, hsave, ?_⟩ h
        cases hrow : db.insertMailbox mailbox with
        | ok r => rfl
        | error e =>
          rw [hrow] at hinsert
          cases hinsert
  | mailboxEdit mailboxId post =>
    refine Session.oneStep_statement fun mailbox s' hread => ?_
    split at hread
    · cases hread
      refine ⟨rfl, ?_⟩
      split
      · trivial
      · refine Session.oneStep_transaction (mailboxEditBlock_straight env mailboxId post)
          (fun saved db' hrun => ?_) fun saved => ⟨_, rfl⟩
        rw [mailboxEditBlock_whole] at hrun
        exact mailboxEditTransaction_audited hrun
    · cases hread
  | mailboxDelete mailboxId confirmation =>
    refine Session.oneStep_statement fun mailbox s' hread => ?_
    split at hread
    · cases hread
      refine ⟨rfl, ?_⟩
      split
      · refine Session.oneStep_transaction (mailboxDeleteBlock_straight env mailboxId)
          (fun _ db' hrun => ?_) fun _ => ⟨_, rfl⟩
        rw [mailboxDeleteBlock_whole] at hrun
        exact .inr (mailboxDeleteTransaction_audited hrun)
      · trivial
    · cases hread
  | messageDecide messageId decision =>
    refine Session.oneStep_statement fun _ s' hread => ?_
    split at hread
    · cases hread
      refine ⟨rfl, ?_⟩
      cases decision with
      | none => trivial
      | some decision =>
        dsimp only
        split
        · next hdecision =>
          refine Session.oneStep_transaction (messageDecideBlock_straight env messageId decision)
            (fun _ db' hrun => ?_) fun _ => ⟨_, rfl⟩
          rw [messageDecideBlock_whole] at hrun
          exact .inr (messageDecideTransaction_audited hdecision hrun)
        · trivial
    · cases hread
  | tokens name random lifetimeDays =>
    simp only [session, MailGate.tokens, Session.ofProg_atomic_bind]
    refine Session.oneStep_statement fun id db' hinsert => ?_
    refine absurd ?_ h
    show (db.insertToken _).isOk = true
    split at hinsert
    · next r hrow =>
      rw [hrow]
      rfl
    · cases hinsert
  | tokenRevoke tokenId =>
    simp only [session, MailGate.tokenRevoke, Session.ofProg_atomic_bind]
    refine Session.oneStep_statement fun token db' hread => ?_
    split at hread
    · next row hrow =>
      cases hread
      refine ⟨rfl, ?_⟩
      by_cases hrevoked : token.revokedAt = none
      · exact absurd ⟨token, hrow, hrevoked⟩ h
      · rw [if_neg hrevoked]
        trivial
    · cases hread

/-! ## The operations without a block -/

/-- A change without an event. -/
lemma not_auditComplete {o : Option (Except WebExn Page)} {db' : Db}
    (h : (op.session env sha256).Runs (· = .database) db o db') (hne : db' ≠ db)
    (haudit : db'.audit = db.audit) : ¬ op.AuditComplete env sha256 db := by
  intro hcomplete
  rcases hcomplete o db' h with heq | ⟨-, event, -, hevent⟩
  · exact hne heq
  · rw [haudit] at hevent
    have hlength := congrArg List.length hevent
    rw [List.length_append, List.length_singleton] at hlength
    omega

lemma insertMailbox_written {mailbox : Mailbox} {id : ℕ} {db' : Db}
    (h : db.insertMailbox mailbox = .ok (id, db')) : db' ≠ db ∧ db'.audit = db.audit := by
  unfold Db.insertMailbox at h
  dsimp only at h
  split at h
  · cases h
  · cases h
    refine ⟨fun heq => ?_, rfl⟩
    have hseq : db.mailboxSeq + 1 = db.mailboxSeq := congrArg Db.mailboxSeq heq
    omega

lemma insertToken_written {token : ApiToken} {id : ℕ} {db' : Db}
    (h : db.insertToken token = .ok (id, db')) : db' ≠ db ∧ db'.audit = db.audit := by
  unfold Db.insertToken at h
  dsimp only at h
  split at h
  · cases h
  · split at h
    · cases h
    · cases h
      refine ⟨fun heq => ?_, rfl⟩
      have hseq : db.tokenSeq + 1 = db.tokenSeq := congrArg Db.tokenSeq heq
      omega

/-- A token that is not revoked gets the date. -/
lemma updateRevoked_written (now : Time) {token : ApiToken} {tokenId : ℕ}
    (hfind : db.tokens.find? (·.id = tokenId) = some token) (hrevoked : token.revokedAt = none) :
    ∃ db', db.updateRevoked tokenId now = .ok db' ∧ db' ≠ db ∧ db'.audit = db.audit := by
  have hmem : token ∈ db.tokens := List.mem_of_find?_eq_some hfind
  have hid : token.id = tokenId := by simpa using List.find?_some hfind
  have hin : tokenId ∈ db.tokens.map (·.id) := List.mem_map.2 ⟨token, hmem, hid⟩
  refine ⟨_, if_neg (not_not_intro hin), fun heq => ?_, rfl⟩
  have htokens : db.tokens.map (fun t => if t.id = tokenId then { t with revokedAt := some now }
      else t) = db.tokens.map id := (congrArg Db.tokens heq).trans (List.map_id _).symm
  have hsame := List.map_inj_left.1 htokens token hmem
  rw [if_pos hid] at hsame
  have hdate : some now = token.revokedAt := congrArg ApiToken.revokedAt hsame
  rw [hrevoked] at hdate
  cases hdate

/-- The statement of `auditAlone` fails after the change has been committed. -/
lemma not_auditComplete_of_writesAlone (h : op.WritesAlone env sha256 db) :
    ¬ op.AuditComplete env sha256 db := by
  cases op with
  | setupOwner request => exact h.elim
  | mailboxCreate post =>
    obtain ⟨cleaned, mailbox, hclean, hsave, hinsert⟩ := h
    obtain ⟨⟨id, db'⟩, hrow⟩ := Exceptions.exists_of_isOk hinsert
    obtain ⟨hne, haudit⟩ := insertMailbox_written hrow
    refine not_auditComplete (o := some (.error .database)) ?_ hne haudit
    simp only [session, MailGate.mailboxCreate, hclean, hsave, Session.ofProg_atomic_bind,
      auditAlone]
    exact Session.runs_statement (by rw [hrow]) (Session.runs_statement_fails rfl)
  | mailboxEdit mailboxId post => exact h.elim
  | mailboxDelete mailboxId confirmation => exact h.elim
  | messageDecide messageId decision => exact h.elim
  | tokens name random lifetimeDays =>
    obtain ⟨⟨id, db'⟩, hrow⟩ := Exceptions.exists_of_isOk h
    obtain ⟨hne, haudit⟩ := insertToken_written hrow
    refine not_auditComplete (o := some (.error .database)) ?_ hne haudit
    simp only [session, MailGate.tokens, Session.ofProg_atomic_bind, auditAlone]
    exact Session.runs_statement (by rw [hrow]) (Session.runs_statement_fails rfl)
  | tokenRevoke tokenId =>
    obtain ⟨token, hfind, hrevoked⟩ := h
    obtain ⟨db', hupdate, hne, haudit⟩ := updateRevoked_written (env.clock 0) hfind hrevoked
    refine not_auditComplete (o := some (.error .database)) ?_ hne haudit
    simp only [session, MailGate.tokenRevoke, Session.ofProg_atomic_bind, auditAlone]
    refine Session.runs_statement (by rw [hfind]) ?_
    rw [if_pos hrevoked]
    simp only [Session.ofProg_atomic_bind]
    exact Session.runs_statement (by rw [hupdate]) (Session.runs_statement_fails rfl)

/-- The operations with a block always keep their event with their change; the others do if and
only if they change nothing. -/
theorem auditComplete_iff :
    op.AuditComplete env sha256 db ↔ ¬ op.WritesAlone env sha256 db := by
  constructor
  · intro hcomplete h
    exact not_auditComplete_of_writesAlone h hcomplete
  · intro h o db' hruns
    exact (session_oneStep h).outcome hruns

/-- A token is issued, and then the statement of its event fails. -/
theorem token_without_event :
    ¬ (tokens (py "reader") (py "random") 30).AuditComplete sampleWebEnv id
      ⟨[], [], 0, [], [], [], 0, [], 0⟩ :=
  not_auditComplete_of_writesAlone rfl

end OwnerOperation

end MailGate
