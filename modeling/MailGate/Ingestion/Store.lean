import MailGate.Ingestion.Sync
import MailGate.Integrity

/-!
# What one transaction of a run does

The transaction of `_store_message` finds the message in the table and changes nothing, or it
ingests the message: one row, its attachments and one audit event.  The other transactions of
a run update the mailbox row.  This file says so once, and describes the effect of a series of
ingestions.
-/

namespace MailGate

open Transaction

namespace StoreArgs

variable (a : StoreArgs)

/-- The row as the table holds it, after the trigger. -/
def storedRow : Message := forceWorkerQuarantine .worker a.messageRow

/-- The audit event of an ingestion. -/
def auditEvent (id : ℕ) : AuditEvent where
  id := id
  actor := py "worker"
  action := py "message.ingested"
  objectType := py "Message"
  objectId := a.newId.str.take 80
  metadata := [(py "state", .text a.assessed.state), (py "risk", .text a.assessed.risk)]
  createdAt := a.auditAt

/-- The database after the ingestion of a message. -/
def ingest (db : Db) : Db :=
  { db with
    messages := db.messages ++ [a.storedRow]
    attachments := db.attachments ++ a.attachmentRows
    audit := db.audit ++ [a.auditEvent db.auditSeq]
    auditSeq := db.auditSeq + 1 }

/-- What the database has checked when it accepts an ingestion. -/
structure Accepted (db : Db) : Prop where
  locked : ∃ m ∈ db.mailboxes, a.locks m
  fresh : ∀ m ∈ db.messages, m.id ≠ a.newId ∧ m.key ≠ a.key
  rowFits : a.storedRow.Fits
  attachmentsFit : ∀ r ∈ a.attachmentRows, r.Fits

lemma attachmentRows_messageId : ∀ r ∈ a.attachmentRows, r.messageId = a.newId := by
  intro r hr
  obtain ⟨item, -, rfl⟩ := List.mem_map.1 hr
  rfl

variable {a}

lemma create_eq_ok {db db' : Db} (h : a.create db = .ok db') :
    (∀ m ∈ db.messages, m.id ≠ a.newId ∧ m.key ≠ a.key) ∧ a.storedRow.Fits ∧
      (∀ r ∈ a.attachmentRows, r.Fits) ∧ db' = a.ingest db := by
  unfold create at h
  obtain ⟨db₁, h₁, h⟩ := Exceptions.bind_eq_ok.1 h
  obtain ⟨db₂, h₂, h⟩ := Exceptions.bind_eq_ok.1 h
  obtain ⟨hfits, hnew, -, -, rfl⟩ := Db.insertMessage_eq_ok.1 h₁
  obtain ⟨hatt, -, rfl⟩ := Db.insertAttachments_eq_ok.1 h₂
  cases h
  exact ⟨hnew, hfits, hatt, rfl⟩

/-- The two ways in which the transaction commits. -/
lemma transaction_cases {db db' : Db} {created : Bool}
    (h : a.transaction db = .ok (created, db')) :
    (created = false ∧ db' = db ∧ (∃ m ∈ db.mailboxes, a.locks m) ∧
        ∃ m ∈ db.messages, m.key = a.key) ∨
      (created = true ∧ db' = a.ingest db ∧ a.Accepted db) := by
  unfold transaction at h
  by_cases hlock : ∃ m ∈ db.mailboxes, a.locks m
  · rw [if_neg (not_not.2 hlock)] at h
    by_cases hkey : ∃ m ∈ db.messages, m.key = a.key
    · rw [if_pos hkey] at h
      cases h
      exact .inl ⟨rfl, rfl, hlock, hkey⟩
    · rw [if_neg hkey] at h
      cases hcreate : a.create db with
      | error e => simp [hcreate] at h
      | ok db₁ =>
        rw [hcreate] at h
        cases h
        obtain ⟨hnew, hfits, hatt, rfl⟩ := create_eq_ok hcreate
        exact .inr ⟨rfl, rfl, hlock, hnew, hfits, hatt⟩
  · rw [if_pos hlock] at h
    cases h

/-- An accepted ingestion keeps the integrity of the database. -/
lemma ingest_valid {db : Db} (h : db.Valid) (hacc : a.Accepted db) : (a.ingest db).Valid := by
  obtain ⟨box, hbox, hlock⟩ := hacc.locked
  have hid : box.id = a.mailboxId := by
    simp only [locks, Bool.and_eq_true, beq_iff_eq] at hlock
    exact hlock.1.1
  have hmailbox : a.storedRow.mailboxId ∈ db.mailboxes.map (·.id) :=
    List.mem_map.2 ⟨box, hbox, hid⟩
  have hrow := h.addMessage hacc.fresh hmailbox
  have hrows : ∀ r ∈ a.attachmentRows,
      r.messageId ∈ (db.messages ++ [a.storedRow]).map (·.id) := by
    intro r hr
    rw [attachmentRows_messageId a r hr]
    exact List.mem_map_of_mem (List.mem_append_right _ (List.mem_singleton_self _))
  -- the audit event concerns none of the constraints
  exact { hrow.addAttachments hrows with }

end StoreArgs

lemma sampleDb_valid : sampleDb.Valid := by
  constructor <;> decide

/-! ## Series of ingestions -/

/-- `Ingests s records s'`: the accepted ingestion of the records, one after the other, leads
from `s` to `s'`. -/
inductive Ingests : Db → List StoreArgs → Db → Prop where
  | nil (s : Db) : Ingests s [] s
  | cons {s s' : Db} {a : StoreArgs} {records : List StoreArgs} (hacc : a.Accepted s)
      (hrest : Ingests (a.ingest s) records s') : Ingests s (a :: records) s'

namespace Ingests

variable {s s' : Db} {records : List StoreArgs}

/-- The tables after a series of ingestions. -/
lemma tables (h : Ingests s records s') :
    s'.messages = s.messages ++ records.map StoreArgs.storedRow ∧
      s'.attachments = s.attachments ++ records.flatMap StoreArgs.attachmentRows ∧
      s'.mailboxes = s.mailboxes ∧ s'.mailboxSeq = s.mailboxSeq := by
  induction h with
  | nil s => simp
  | cons hacc hrest ih =>
    obtain ⟨hmsg, hatt, hbox, hseq⟩ := ih
    refine ⟨?_, ?_, hbox, hseq⟩
    · rw [hmsg]
      simp [StoreArgs.ingest]
    · rw [hatt]
      simp [StoreArgs.ingest]

lemma mailboxes_eq (h : Ingests s records s') : s'.mailboxes = s.mailboxes := h.tables.2.2.1

lemma valid (h : Ingests s records s') (hs : s.Valid) : s'.Valid := by
  induction h with
  | nil s => exact hs
  | cons hacc hrest ih => exact ih (StoreArgs.ingest_valid hs hacc)

lemma append {s₁ : Db} {more : List StoreArgs} (h : Ingests s records s₁)
    (h' : Ingests s₁ more s') : Ingests s (records ++ more) s' := by
  induction h with
  | nil s => exact h'
  | cons hacc hrest ih => exact .cons hacc (ih h')

end Ingests

/-- The message with this key is in the table. -/
def Db.Stored (db : Db) (key : ℕ × ℕ × ℕ) : Prop := ∃ m ∈ db.messages, m.key = key

instance (db : Db) (key : ℕ × ℕ × ℕ) : Decidable (db.Stored key) := by
  unfold Db.Stored
  infer_instance

/-- After a series of ingestions the table holds what it held and what was ingested. -/
lemma Ingests.stored_iff {s s' : Db} {records : List StoreArgs} (h : Ingests s records s')
    (key : ℕ × ℕ × ℕ) : s'.Stored key ↔ s.Stored key ∨ ∃ a ∈ records, a.key = key := by
  unfold Db.Stored
  rw [h.tables.1]
  constructor
  · rintro ⟨m, hm, rfl⟩
    rcases List.mem_append.1 hm with hm | hm
    · exact .inl ⟨m, hm, rfl⟩
    · obtain ⟨a, ha, rfl⟩ := List.mem_map.1 hm
      exact .inr ⟨a, ha, rfl⟩
  · rintro (⟨m, hm, rfl⟩ | ⟨a, ha, rfl⟩)
    · exact ⟨m, List.mem_append_left _ hm, rfl⟩
    · exact ⟨a.storedRow, List.mem_append_right _ (List.mem_map_of_mem ha), rfl⟩

/-! ## Runs without interference -/

section Alone

variable {fault : SyncExn → Prop} {env : SyncEnv} {mailbox : Mailbox} {s s' : Db}
  {tr : List (Event Db)}

/-- What a call of `_store_message` does when nobody interferes. -/
lemma storeMessage_exec {validity uid tick : ℕ} {item : Fetched}
    {o : Option (Except SyncExn Bool)}
    (h : Exec (.alone fault) (storeMessage env mailbox validity uid tick item) s tr o s') :
    ∃ records, Ingests s records s' ∧
      (∀ a ∈ records, a = storeArgs env mailbox validity uid tick item) ∧
      ∀ created, o = some (.ok created) →
        created.toNat = records.length ∧ s'.Stored (mailbox.id, validity, uid) := by
  rcases h.atomic_inv with ⟨created, hbody, -, ho⟩ | ⟨rfl, ho⟩
  · rcases StoreArgs.transaction_cases hbody with
      ⟨rfl, rfl, -, hkey⟩ | ⟨rfl, rfl, hacc⟩
    · refine ⟨[], .nil _, by simp, fun b hb => ?_⟩
      rw [ho b hb]
      exact ⟨rfl, hkey⟩
    · refine ⟨[_], .cons hacc (.nil _), by simp, fun b hb => ?_⟩
      rw [ho b hb]
      exact ⟨rfl, _, List.mem_append_right _ (List.mem_singleton_self _), rfl⟩
  · exact ⟨[], .nil _, by simp, fun b hb => absurd hb (ho b)⟩

/-- The record is for a message that the run has fetched. -/
def FetchedRecord (env : SyncEnv) (mailbox : Mailbox) (validity : ℕ) (uids : List ℕ)
    (a : StoreArgs) : Prop :=
  ∃ uid ∈ uids, ∃ tick item, fetchMessage env tick uid = .ok item ∧
    a = storeArgs env mailbox validity uid tick item

/-- The loop over the UIDs ingests records for some of them.  Where it runs to its end, the
count is the number of records, the cursor is the largest UID, and each UID has a row. -/
lemma syncUids_exec {validity : ℕ} (uids : List ℕ) {tick created lastUid : ℕ}
    {o : Option (Except SyncExn (ℕ × ℕ))}
    (h : Exec (.alone fault) (syncUids env mailbox validity tick uids created lastUid) s tr o s') :
    ∃ records, Ingests s records s' ∧
      (∀ a ∈ records, FetchedRecord env mailbox validity uids a) ∧
      ∀ n last, o = some (.ok (n, last)) →
        n = created + records.length ∧ last = uids.foldl max lastUid ∧
          ∀ uid ∈ uids, s'.Stored (mailbox.id, validity, uid) := by
  induction uids generalizing tick created lastUid s tr with
  | nil =>
    obtain ⟨-, rfl, ho⟩ := h.done_inv
    refine ⟨[], .nil _, by simp, fun n last hok => ?_⟩
    rcases ho with rfl | rfl
    · cases hok
      simp
    · cases hok
  | cons uid uids ih =>
    simp only [syncUids] at h
    cases hfetch : fetchMessage env tick uid with
    | error e =>
      rw [hfetch, Prog.compute_error_bind] at h
      obtain ⟨-, rfl, ho⟩ := h.done_inv
      exact ⟨[], .nil _, by simp, by rcases ho with rfl | rfl <;> simp⟩
    | ok item =>
      rw [hfetch, Prog.compute_ok_bind] at h
      have hkey : ∀ a, a = storeArgs env mailbox validity uid tick item →
          FetchedRecord env mailbox validity (uid :: uids) a :=
        fun a ha => ⟨uid, List.mem_cons_self, tick, item, hfetch, ha⟩
      -- the run ends in the transaction of this message, or it goes on with the next one
      rcases h.bind_cases with ⟨_, hst, -, hno⟩ | ⟨new, s₁, _, _, -, hst, hloop⟩
      · obtain ⟨records, hing, hargs, -⟩ := storeMessage_exec hst
        exact ⟨records, hing, fun a ha => hkey a (hargs a ha), fun n last hok =>
          absurd hok (hno (n, last))⟩
      · obtain ⟨records, hing, hargs, hst⟩ := storeMessage_exec hst
        obtain ⟨hnew, hstored⟩ := hst new rfl
        obtain ⟨more, hing', hargs', hend⟩ := ih hloop
        refine ⟨records ++ more, hing.append hing', ?_, ?_⟩
        · intro a ha
          rcases List.mem_append.1 ha with ha | ha
          · exact hkey a (hargs a ha)
          · obtain ⟨u, hu, hrec⟩ := hargs' a ha
            exact ⟨u, List.mem_cons_of_mem _ hu, hrec⟩
        · intro n last hok
          obtain ⟨hn, hlast, hall⟩ := hend n last hok
          refine ⟨?_, hlast, ?_⟩
          · rw [List.length_append]
            omega
          · intro u hu
            rcases List.mem_cons.1 hu with rfl | hu
            · exact (hing'.stored_iff _).2 (.inl hstored)
            · exact hall u hu

end Alone

/-! ## The parts of a run -/

/-- The run has read its password and reached this plan. -/
def Planned (env : SyncEnv) (mailbox : Mailbox) (batchSize : ℕ) (plan : SyncPlan) : Prop :=
  ∃ password, env.decryptSecret mailbox.passwordEncrypted = .ok password ∧
    planSync env mailbox password batchSize = .ok plan

/-- The record is for a message of the plan that the run has fetched. -/
def PlannedRecord (env : SyncEnv) (mailbox : Mailbox) (batchSize : ℕ) (a : StoreArgs) : Prop :=
  ∃ plan, Planned env mailbox batchSize plan ∧
    FetchedRecord env mailbox plan.uidValidity plan.uids a

/-- The final update of a run whose UIDs all have a row, on `n` rows. -/
def CursorMoved (env : SyncEnv) (mailbox : Mailbox) (batchSize n : ℕ) (s s' : Db) : Prop :=
  ∃ plan, Planned env mailbox batchSize plan ∧
    (∀ uid ∈ plan.uids, s.Stored (mailbox.id, plan.uidValidity, uid)) ∧
    updateGuarded mailbox
      (setCursor env plan.uidValidity (plan.uids.foldl max plan.lastUid)) s = .ok (n, s')

/-- The update after a failure. -/
def FailureRecorded (env : SyncEnv) (mailbox : Mailbox) (s s' : Db) : Prop :=
  ∃ code n, updateGuarded mailbox (setError env code) s = .ok (n, s')

/-- The parts of a run from `s` to `s'`: it ingests records, may move the cursor, and may
record a failure. -/
structure SyncSteps (env : SyncEnv) (mailbox : Mailbox) (batchSize : ℕ) (s : Db)
    (records : List StoreArgs) (s₁ s₂ s' : Db) : Prop where
  ingests : Ingests s records s₁
  planned : ∀ a ∈ records, PlannedRecord env mailbox batchSize a
  cursor : s₂ = s₁ ∨ ∃ n, CursorMoved env mailbox batchSize n s₁ s₂
  failure : s' = s₂ ∨ FailureRecorded env mailbox s₂ s'

section Alone

variable {fault : SyncExn → Prop} {env : SyncEnv} {mailbox : Mailbox} {batchSize : ℕ}
  {s s' : Db} {tr : List (Event Db)}

/-- An update of a run that nobody interferes with happens or leaves the database alone. -/
lemma updateGuarded_exec {set : Mailbox → Mailbox} {o : Option (Except SyncExn ℕ)}
    (h : Exec (.alone fault) (.atomic (updateGuarded mailbox set)) s tr o s') :
    (s' = s ∧ ∀ n, o ≠ some (.ok n)) ∨
      ∃ n, updateGuarded mailbox set s = .ok (n, s') ∧ Event.own s s' ∈ tr ∧
        ∀ m, o = some (.ok m) → m = n := by
  rcases h.atomic_inv with ⟨n, hbody, hown, ho⟩ | hstay
  · exact .inr ⟨n, hbody, hown, ho⟩
  · exact .inl hstay

/-- The handler of a run raises, and may record the failure. -/
lemma syncFailed_exec {exc : SyncExn} {o : Option (Except SyncExn ℕ)}
    (h : Exec (.alone fault) (syncFailed env mailbox exc) s tr o s') :
    (s' = s ∨ FailureRecorded env mailbox s s') ∧ ∀ n, o ≠ some (.ok n) := by
  have hpass : ∀ {exc : SyncExn} {s : Db} {tr : List (Event Db)},
      Exec (.alone fault) (.compute (.error exc)) s tr o s' → s' = s ∧ ∀ n, o ≠ some (.ok n) := by
    intro exc s tr h
    obtain ⟨-, rfl, ho⟩ := h.done_inv
    exact ⟨rfl, by rcases ho with rfl | rfl <;> simp⟩
  have hcode : ∀ code, Exec (.alone fault) (recordFailure env mailbox code) s tr o s' →
      (s' = s ∨ FailureRecorded env mailbox s s') ∧ ∀ n, o ≠ some (.ok n) := by
    intro code h
    have hupdate : ∀ {tr o s₁}, Exec (.alone fault)
        (.atomic (updateGuarded mailbox (setError env code))) s tr o s₁ →
        s₁ = s ∨ FailureRecorded env mailbox s s₁ := by
      intro tr o s₁ hupd
      rcases updateGuarded_exec hupd with ⟨rfl, -⟩ | ⟨n, hn, -, -⟩
      · exact .inl rfl
      · exact .inr ⟨code, n, hn⟩
    unfold recordFailure at h
    split at h
    · rcases h.bind_cases with ⟨_, hupd, -, hno⟩ | ⟨k, s₁, _, _, -, hupd, hend⟩
      · exact ⟨hupdate hupd, hno⟩
      · obtain ⟨rfl, hno⟩ := hpass hend
        exact ⟨hupdate hupd, hno⟩
    · obtain ⟨rfl, hno⟩ := hpass h
      exact ⟨.inl rfl, hno⟩
  cases exc with
  | mailboxSync code => exact hcode code h
  | connection => exact hcode _ h
  | database => exact ⟨.inl (hpass h).1, (hpass h).2⟩
  | credential => exact ⟨.inl (hpass h).1, (hpass h).2⟩
  | other => exact ⟨.inl (hpass h).1, (hpass h).2⟩

/-- The guarded part of a run from the loop on. -/
lemma syncSelected_exec {plan : SyncPlan} (hplan : Planned env mailbox batchSize plan)
    {o : Option (Except SyncExn ℕ)}
    (h : Exec (.alone fault) (syncSelected env mailbox plan) s tr o s') :
    ∃ records s₁, SyncSteps env mailbox batchSize s records s₁ s' s' ∧
      (s' = s₁ ∨ Event.own s₁ s' ∈ tr) ∧
      ∀ n, o = some (.ok n) →
        n = records.length ∧ CursorMoved env mailbox batchSize 1 s₁ s' := by
  have hrecord : ∀ a : StoreArgs, FetchedRecord env mailbox plan.uidValidity plan.uids a →
      PlannedRecord env mailbox batchSize a := fun a ha => ⟨plan, hplan, ha⟩
  rcases h.bind_cases with ⟨_, hloop, -, hno⟩ | ⟨⟨n, last⟩, s₁, tr₁, _, rfl, hloop, hrest⟩
  · obtain ⟨records, hing, hargs, -⟩ := syncUids_exec _ hloop
    have hplanned := fun a ha => hrecord a (hargs a ha)
    exact ⟨records, s', ⟨hing, hplanned, .inl rfl, .inl rfl⟩, .inl rfl,
      fun n hn => absurd hn (hno n)⟩
  · obtain ⟨records, hing, hargs, hend⟩ := syncUids_exec _ hloop
    have hplanned := fun a ha => hrecord a (hargs a ha)
    obtain ⟨rfl, rfl, hall⟩ := hend n last rfl
    have hmoved : ∀ {k s₂}, updateGuarded mailbox
        (setCursor env plan.uidValidity (plan.uids.foldl max plan.lastUid)) s₁ = .ok (k, s₂) →
        CursorMoved env mailbox batchSize k s₁ s₂ := fun hk => ⟨plan, hplan, hall, hk⟩
    refine ⟨records, s₁, ?_⟩
    rcases hrest.bind_cases with ⟨_, hupd, -, hno⟩ | ⟨k, s₂, tr₂, tr₃, rfl, hupd, hend⟩
    · rcases updateGuarded_exec hupd with ⟨rfl, -⟩ | ⟨n, hn, hown, -⟩
      · exact ⟨⟨hing, hplanned, .inl rfl, .inl rfl⟩, .inl rfl, fun n hn => absurd hn (hno n)⟩
      · exact ⟨⟨hing, hplanned, .inr ⟨n, hmoved hn⟩, .inl rfl⟩,
          .inr (List.mem_append_right _ hown), fun n hn => absurd hn (hno n)⟩
    · rcases updateGuarded_exec hupd with ⟨-, hno⟩ | ⟨n, hn, hown, hkn⟩
      · exact absurd rfl (hno k)
      · obtain rfl := hkn k rfl
        have hmem : Event.own s₁ s₂ ∈ tr₁ ++ (tr₂ ++ tr₃) :=
          List.mem_append_right _ (List.mem_append_left _ hown)
        -- nothing is committed behind the update; the run raises unless it met one row
        by_cases hone : k = 1
        · rw [Prog.ensure_true hone] at hend
          obtain ⟨-, rfl, ho⟩ := hend.done_inv
          subst hone
          refine ⟨⟨hing, hplanned, .inr ⟨1, hmoved hn⟩, .inl rfl⟩, .inr hmem, ?_⟩
          intro m hm
          rcases ho with rfl | rfl
          · cases hm
            exact ⟨by omega, hmoved hn⟩
          · cases hm
        · rw [Prog.ensure_false hone] at hend
          obtain ⟨-, rfl, ho⟩ := hend.done_inv
          refine ⟨⟨hing, hplanned, .inr ⟨k, hmoved hn⟩, .inl rfl⟩, .inr hmem, ?_⟩
          intro m hm
          rcases ho with rfl | rfl <;> cases hm

/-- The parts of a run of `sync_mailbox` that nobody interferes with, however it ends.  Where
the cursor moves, the final update is one of the commits. -/
theorem syncMailbox_exec {o : Option (Except SyncExn ℕ)}
    (h : Exec (.alone fault) (syncMailbox env mailbox batchSize) s tr o s') :
    ∃ records s₁ s₂, SyncSteps env mailbox batchSize s records s₁ s₂ s' ∧
      (s₂ = s₁ ∨ Event.own s₁ s₂ ∈ tr) ∧
      ∀ n, o = some (.ok n) → n = records.length ∧
        (mailbox.enabled = true → CursorMoved env mailbox batchSize 1 s₁ s') := by
  have hidle : SyncSteps env mailbox batchSize s [] s s s :=
    ⟨.nil s, by simp, .inl rfl, .inl rfl⟩
  unfold syncMailbox at h
  by_cases hen : mailbox.enabled = true
  · rw [if_neg (by simp [hen])] at h
    cases hpassword : env.decryptSecret mailbox.passwordEncrypted with
    | error e =>
      rw [hpassword, Prog.compute_error_bind] at h
      obtain ⟨-, rfl, ho⟩ := h.done_inv
      exact ⟨[], s', s', hidle, .inl rfl, by rcases ho with rfl | rfl <;> simp⟩
    | ok password =>
      rw [hpassword, Prog.compute_ok_bind] at h
      -- what the guarded part has done when it returns, stops or raises
      have hpart : ∀ {tr o s₂}, Exec (.alone fault)
          (do
            let plan ← Prog.compute (planSync env mailbox password batchSize)
            syncSelected env mailbox plan) s tr o s₂ →
          ∃ records s₁, SyncSteps env mailbox batchSize s records s₁ s₂ s₂ ∧
            (s₂ = s₁ ∨ Event.own s₁ s₂ ∈ tr) ∧
            ∀ n, o = some (.ok n) →
              n = records.length ∧ CursorMoved env mailbox batchSize 1 s₁ s₂ := by
        intro tr o s₂ hpart
        cases hplan : planSync env mailbox password batchSize with
        | error e =>
          rw [hplan, Prog.compute_error_bind] at hpart
          obtain ⟨-, rfl, ho⟩ := hpart.done_inv
          exact ⟨[], s₂, hidle, .inl rfl, by rcases ho with rfl | rfl <;> simp⟩
        | ok plan =>
          rw [hplan, Prog.compute_ok_bind] at hpart
          exact syncSelected_exec ⟨password, hpassword, hplan⟩ hpart
      obtain ⟨o', hrun, rfl⟩ := h.finallyDo_inv
      -- where the run returns, it has returned before the connection was closed
      have hclosed : ∀ n, o'.map (Prog.afterCleanup · (closeImap env mailbox)) = some (.ok n) →
          o' = some (.ok n) := by
        intro n hn
        obtain ⟨r, rfl, hr⟩ := Option.map_eq_some_iff.1 hn
        rw [Prog.afterCleanup_eq_ok hr]
      rcases hrun.tryCatch_inv with
        ⟨n, hbody, rfl⟩ | ⟨hbody, rfl⟩ | ⟨e, s₂, _, _, rfl, hbody, hfail⟩
      · obtain ⟨records, s₁, hsteps, hown, hend⟩ := hpart hbody
        obtain ⟨hn, hmoved⟩ := hend n rfl
        refine ⟨records, s₁, s', hsteps, hown, ?_⟩
        intro m hm
        cases hclosed m hm
        exact ⟨hn, fun _ => hmoved⟩
      · obtain ⟨records, s₁, hsteps, hown, -⟩ := hpart hbody
        exact ⟨records, s₁, s', hsteps, hown, by simp⟩
      · obtain ⟨records, s₁, hsteps, hown, -⟩ := hpart hbody
        obtain ⟨hfailure, hno⟩ := syncFailed_exec hfail
        refine ⟨records, s₁, s₂, { hsteps with failure := hfailure },
          hown.imp_right (List.mem_append_left _), ?_⟩
        intro n hn
        exact absurd (hclosed n hn) (hno n)
  · rw [if_pos (by simp [hen])] at h
    obtain ⟨-, rfl, ho⟩ := h.done_inv
    refine ⟨[], s', s', hidle, .inl rfl, ?_⟩
    intro n hn
    rcases ho with rfl | rfl
    · cases hn
      exact ⟨rfl, fun hen' => absurd hen' hen⟩
    · cases hn

end Alone

end MailGate
