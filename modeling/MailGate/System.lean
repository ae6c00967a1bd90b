import MailGate.Api.Authorize
import MailGate.Lib.Runs
import MailGate.Lifecycle
import MailGate.Rotation
import MailGate.Web.Views
import MailGate.Worker

/-!
# The installation

The worker, the owner, the agent API, the retention job and the key rotation work on one
database.  This file lists the transactions of all of them, and shows that the programs of the
worker and of the owner commit these transactions and no others.
-/

namespace MailGate

open Transaction

/-- The writing transactions of an installation. -/
inductive Txn where
  /-- The transaction of `_store_message`. -/
  | store (a : StoreArgs)
  /-- Whatever else the worker runs with its privileges. -/
  | worker (statements : List WorkerStatement)
  | setupOwner (username : PyStr) (userId : ℕ) (now : Time)
  | mailboxCreate (mailbox : Mailbox)
  /-- An audit event of the owner in a transaction of its own. -/
  | audit (actor action : PyStr) (obj : PyStr × PyStr) (metadata : List (PyStr × MetaValue))
      (now : Time)
  | mailboxEdit (env : WebEnv) (mailboxId : ℕ) (post : MailboxFields)
  | mailboxDelete (env : WebEnv) (mailboxId : ℕ)
  | messageDecide (env : WebEnv) (messageId : Uuid) (decision : PyStr)
  | tokenIssue (token : ApiToken)
  | tokenRevoke (tokenId : ℕ) (now : Time)
  | authorize (tokenHash path : PyStr) (now : Time)
  | purge (policy : RetentionPolicy) (now : Time) (batchSize : ℕ) (auditAt : Time)
  | rotate (env : RotationEnv)

namespace Txn

/-- The state that a transaction commits; `none` where it fails. -/
def exec : Txn → Db → Option Db
  | store a, db => (a.transaction db).toOption.map (·.2)
  | worker statements, db => (workerTransaction statements db).toOption
  | setupOwner username userId now, db =>
      (setupOwnerTransaction username userId now db).toOption.map (·.2)
  | mailboxCreate mailbox, db => (db.insertMailbox mailbox).toOption.map (·.2)
  | audit actor action obj metadata now, db =>
      some (db.writeAudit actor action (some obj) metadata now)
  | mailboxEdit env mailboxId post, db =>
      (mailboxEditTransaction env mailboxId post db).toOption.map (·.2)
  | mailboxDelete env mailboxId, db =>
      (mailboxDeleteTransaction env mailboxId db).toOption.map (·.2)
  | messageDecide env messageId decision, db =>
      if decision ∈ [State.approved.value, State.rejected.value] then
        (messageDecideTransaction env messageId decision db).toOption.map (·.2)
      else none
  | tokenIssue token, db => (db.insertToken token).toOption.map (·.2)
  | tokenRevoke tokenId now, db => (db.updateRevoked tokenId now).toOption
  | authorize tokenHash path now, db => some (mailgateApiAuthorize tokenHash path now db).2
  | purge policy now batchSize auditAt, db =>
      (policy.purgeRetention now batchSize auditAt db).map (·.2)
  | rotate env, db => rotateMailboxCredentials env db

/-- A transaction of the worker. -/
def byWorker : Txn → Bool
  | store _ => true
  | worker _ => true
  | _ => false

end Txn

/-- A step of the installation. -/
def Txn.Step (t : Txn) (s s' : Db) : Prop := t.exec s = some s'

/-- A run of the installation: transactions of all parties in any order. -/
abbrev InstallationRun : Db → List (Runs.Taken Db Txn) → Db → Prop := Runs.Run Txn.Step

/-! ## Programs commit transactions of the installation -/

/-- What a commit of a program does: nothing, or one of the transactions. -/
def Commits (s s' : Db) : Prop := s' = s ∨ ∃ t : Txn, t.exec s = some s'

section Programs

variable {ε α : Type}

lemma commits_read {body : Db → Except ε (α × Db)}
    (h : ∀ s b s', body s = .ok (b, s') → s' = s) : (Prog.atomic body).Guarantees Commits :=
  guarantees_atomic fun s b s' hbody => .inl (h s b s' hbody)

lemma commits_txn (t : Txn) {body : Db → Except ε (α × Db)}
    (h : ∀ s b s', body s = .ok (b, s') → t.exec s = some s') :
    (Prog.atomic body).Guarantees Commits :=
  guarantees_atomic fun s b s' hbody => .inr ⟨t, h s b s' hbody⟩

/-- A run of `sync_mailbox` commits transactions of the worker. -/
theorem syncMailbox_commits (env : SyncEnv) (mailbox : Mailbox) (batchSize : ℕ) :
    (syncMailbox env mailbox batchSize).Guarantees Commits := by
  refine syncMailbox_guarantees ?_ ?_
  · intro validity uid tick item s created s' hbody
    refine .inr ⟨.store (storeArgs env mailbox validity uid tick item), ?_⟩
    exact Exceptions.toOption_map_snd.2 ⟨created, hbody⟩
  · -- a conditional update lies within the privileges of the worker
    intro columns s n s' hupd
    refine .inr ⟨.worker [.updateMailboxes (guardsMailbox mailbox) columns], ?_⟩
    have hok := updateGuarded_eq_ok.1 hupd
    simp [Txn.exec, workerTransaction, WorkerStatement.exec, hok]

lemma auditAlone_commits (actor action : PyStr) (obj : PyStr × PyStr)
    (metadata : List (PyStr × MetaValue)) (now : Time) :
    (auditAlone actor action obj metadata now).Guarantees Commits := by
  refine commits_txn (.audit actor action obj metadata now) ?_
  intro s b s' hbody
  cases hbody
  rfl

lemma getMailbox_commits (mailboxId : ℕ) : (getMailbox mailboxId).Guarantees Commits := by
  refine commits_read ?_
  intro s b s' hbody
  split at hbody
  · cases hbody
    rfl
  · cases hbody

variable (env : WebEnv)

lemma setupOwner_commits (username setupToken : PyStr) (userId : ℕ) :
    (setupOwner env username setupToken userId).Guarantees Commits := by
  refine guarantees_bind (commits_read ?_) fun exists? => ?_
  · intro s b s' hbody
    cases hbody
    rfl
  · split
    · trivial
    · split
      · trivial
      · refine commits_txn (.setupOwner username userId (env.clock 0)) ?_
        intro s b s' hbody
        simp [Txn.exec, hbody, Except.toOption]

/-- The mailbox is what the form for a new mailbox saves. -/
def MailboxForm.Makes (env : WebEnv) (post : MailboxFields) (mailbox : Mailbox) : Prop :=
  ∃ cleaned, MailboxForm.clean env.settings env.unicode (MailboxForm.bind none post) =
      some cleaned ∧
    MailboxForm.save env.settings env.encryptSecret cleaned
      (MailboxForm.newMailbox (env.clock 0)) = some mailbox

/-- The view adds such mailboxes only. -/
lemma mailboxCreate_makes (post : MailboxFields) :
    (mailboxCreate env post).Guarantees fun s s' => ∃ t : Txn, t.Step s s' ∧
      ∀ mailbox, t = .mailboxCreate mailbox → MailboxForm.Makes env post mailbox := by
  unfold mailboxCreate
  split
  · trivial
  · rename_i cleaned hclean
    split
    · trivial
    · rename_i mailbox hsave
      refine guarantees_bind (guarantees_atomic ?_) fun id => ?_
      · intro s b s' hbody
        refine ⟨.mailboxCreate mailbox, ?_, ?_⟩
        · split at hbody
          · rename_i r hr
            cases hbody
            simp [Txn.Step, Txn.exec, hr, Except.toOption]
          · cases hbody
        · intro mailbox' heq
          cases heq
          exact ⟨cleaned, hclean, hsave⟩
      · refine guarantees_bind (guarantees_atomic ?_) fun _ => trivial
        intro s b s' hbody
        cases hbody
        exact ⟨.audit _ _ _ _ _, rfl, by simp⟩

lemma mailboxCreate_commits (post : MailboxFields) :
    (mailboxCreate env post).Guarantees Commits := by
  refine guarantees_mono (mailboxCreate_makes env post) ?_
  rintro s s' ⟨t, hstep, -⟩
  exact .inr ⟨t, hstep⟩

lemma mailboxEdit_commits (mailboxId : ℕ) (post : MailboxFields) :
    (mailboxEdit env mailboxId post).Guarantees Commits := by
  refine guarantees_bind (getMailbox_commits mailboxId) fun mailbox => ?_
  split
  · trivial
  · refine guarantees_bind ?_ fun saved => trivial
    refine commits_txn (.mailboxEdit env mailboxId post) ?_
    intro s b s' hbody
    simp [Txn.exec, hbody, Except.toOption]

lemma mailboxDelete_commits (mailboxId : ℕ) (confirmation : PyStr) :
    (mailboxDelete env mailboxId confirmation).Guarantees Commits := by
  refine guarantees_bind (getMailbox_commits mailboxId) fun mailbox => ?_
  split
  · refine guarantees_bind ?_ fun _ => trivial
    refine commits_txn (.mailboxDelete env mailboxId) ?_
    intro s b s' hbody
    simp [Txn.exec, hbody, Except.toOption]
  · trivial

lemma messageDecide_commits (messageId : Uuid) (decision : Option PyStr) :
    (messageDecide env messageId decision).Guarantees Commits := by
  refine guarantees_bind (commits_read ?_) fun _ => ?_
  · intro s b s' hbody
    split at hbody
    · cases hbody
      rfl
    · cases hbody
  · cases decision with
    | none => trivial
    | some decision =>
      by_cases hdecision : decision ∈ [State.approved.value, State.rejected.value]
      · simp only [hdecision, if_true]
        refine guarantees_bind ?_ fun _ => trivial
        refine commits_txn (.messageDecide env messageId decision) ?_
        intro s b s' hbody
        simp only [Txn.exec, hdecision, if_true, hbody, Except.toOption, Option.map_some]
      · simp only [hdecision, if_false]
        trivial

lemma tokens_commits (sha256 : PyStr → PyStr) (name random : PyStr) (lifetimeDays : ℕ) :
    (tokens env sha256 name random lifetimeDays).Guarantees Commits := by
  refine guarantees_bind ?_ fun id => ?_
  · refine commits_txn (.tokenIssue (newToken name (py "mg_" ++ random)
      (sha256 (py "mg_" ++ random)) (tokenExpiresAt lifetimeDays (env.clock 0)) (env.clock 1))) ?_
    intro s b s' hbody
    split at hbody
    · rename_i r hr
      cases hbody
      simp [Txn.exec, hr, Except.toOption]
    · cases hbody
  · exact guarantees_bind (auditAlone_commits _ _ _ _ _) fun _ => trivial

lemma tokenRevoke_commits (tokenId : ℕ) : (tokenRevoke env tokenId).Guarantees Commits := by
  refine guarantees_bind (commits_read ?_) fun token => ?_
  · intro s b s' hbody
    split at hbody
    · cases hbody
      rfl
    · cases hbody
  · split
    · refine guarantees_bind ?_ fun _ => guarantees_bind (auditAlone_commits _ _ _ _ _) fun _ =>
        trivial
      refine commits_txn (.tokenRevoke tokenId (env.clock 0)) ?_
      intro s b s' hbody
      split at hbody
      · rename_i r hr
        cases hbody
        simp [Txn.exec, hr, Except.toOption]
      · cases hbody
    · trivial

/-- A program that commits transactions of the installation, among others who do the same,
takes part in a run of the installation. -/
theorem installationRun_of_exec {W : World Db ε} {p : Prog Db ε α} {s s' : Db}
    {tr : List (Event Db)} {o : Option (Except ε α)} (hp : p.Guarantees Commits)
    (hothers : ∀ a b, W.env a b → ∃ t : Txn, t.Step a b) (h : Exec W p s tr o s') :
    ∃ steps, InstallationRun s steps s' := by
  have hlinked := h.linked hp
  clear h
  induction hlinked with
  | nil s => exact ⟨[], .nil s⟩
  | own hcommit hrest ih =>
    obtain ⟨steps, hsteps⟩ := ih
    rcases hcommit with rfl | ⟨t, ht⟩
    · exact ⟨steps, hsteps⟩
    · exact ⟨_, .cons ht hsteps⟩
  | env henv hrest ih =>
    obtain ⟨steps, hsteps⟩ := ih
    obtain ⟨t, ht⟩ := hothers _ _ henv
    exact ⟨_, .cons ht hsteps⟩

end Programs

/-! ## A small instance -/

/-- An owner in front of an installation for one host. -/
def sampleWebEnv : WebEnv where
  settings := { imapAllowedHost := py "imap.example.org", setupToken := py "token" }
  unicode := sampleUnicode
  user := py "owner"
  encryptSecret s := PyStr.encode s
  clock n := n

/-- The state after a transaction, or the state itself where the transaction fails. -/
def Txn.next (t : Txn) (s : Db) : Db := (t.exec s).getD s

lemma Txn.step_next {t : Txn} {s : Db} (h : (t.exec s).isSome = true) : t.Step s (t.next s) := by
  obtain ⟨s', hs'⟩ := Option.isSome_iff_exists.1 h
  unfold Txn.Step Txn.next
  rw [hs', Option.getD_some]

end MailGate
