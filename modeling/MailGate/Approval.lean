import MailGate.Effects

/-!
# Only the owner approves

A message that the agent may read was approved by the owner.  Whatever order the worker, the
owner, the agent, the retention job and the rotation work in, a row becomes approved by a
decision of the owner on that row, and what the row says is what the worker stored.
-/

namespace MailGate

/-- The columns that carry what the sender wrote. -/
structure MessageContent where
  sender : PyStr
  senderName : PyStr
  subject : PyStr
  sanitizedText : PyStr
  links : List PyStr
  summary : PyStr
deriving DecidableEq, Repr

/-- The content of a row. -/
def Message.content (m : Message) : MessageContent where
  sender := m.sender
  senderName := m.senderName
  subject := m.subject
  sanitizedText := m.sanitizedText
  links := m.links
  summary := m.summary

/-- The transaction inserts the row. -/
def Txn.Inserts : Txn → Message → Prop
  | .store a, r => r = a.storedRow
  | .worker statements, r =>
      ∃ new, .insertMessage new ∈ statements ∧ r = forceWorkerQuarantine .worker new
  | _, _ => False

/-- The transaction is the decision of the owner to approve the message. -/
def Txn.Approves (t : Txn) (messageId : Uuid) : Prop :=
  ∃ env, t = .messageDecide env messageId State.approved.value

lemma Txn.Inserts.quarantined {t : Txn} {r : Message} (h : t.Inserts r) :
    r.state = State.quarantined.value := by
  cases t with
  | store a =>
    cases h
    rfl
  | worker statements =>
    obtain ⟨new, -, rfl⟩ := h
    rfl
  | _ => cases h

/-- The ways in which a row can be in the table after a transaction: it was there, the owner
has just decided on it, or the worker has just inserted it. -/
theorem Txn.message_origin {t : Txn} {s s' : Db} (h : t.Step s s') {r : Message}
    (hr : r ∈ s'.messages) :
    r ∈ s.messages ∨
      (∃ env decision, t = .messageDecide env r.id decision ∧ ∃ m ∈ s.messages,
        r = { m with state := decision, decidedAt := some (env.clock 0) }) ∨
      t.Inserts r ∧ ∀ m ∈ s.messages, m.id ≠ r.id := by
  cases Txn.mailEffect h with
  | updates hupd => exact .inl (hupd.messages.1 ▸ hr)
  | ingest hacc =>
    rcases List.mem_append.1 hr with hr | hr
    · exact .inl hr
    · obtain rfl := List.mem_singleton.1 hr
      exact .inr (.inr ⟨rfl, fun m hm => (hacc.fresh m hm).1⟩)
  | worker hbody =>
    rcases workerTransaction_messages hbody r hr with hr | ⟨new, hnew, rfl, hfresh⟩
    · exact .inl hr
    · exact .inr (.inr ⟨⟨new, hnew, rfl⟩, hfresh⟩)
  | newMailbox hins =>
    obtain ⟨-, -, rfl⟩ := Db.insertMailbox_eq_ok.1 hins
    exact .inl hr
  | deletion hsame =>
    rw [← hsame.messages]
    exact .inl (List.mem_of_mem_filter hr)
  | @decision env messageId decision _ _ _ hupd hsame =>
    obtain ⟨-, -, rfl⟩ := Db.updateDecision_eq_ok.1 hupd
    rw [hsame.messages] at hr
    obtain ⟨m, hm, rfl⟩ := List.mem_map.1 hr
    by_cases hid : m.id = messageId
    · subst hid
      rw [if_pos rfl]
      exact .inr (.inl ⟨env, decision, rfl, m, hm, rfl⟩)
    · rw [if_neg hid]
      exact .inl hm
  | purge hbody => exact .inl ((purgeRetention_frame hbody).1 r hr)

/-! ## Runs -/

/-- The table holds the message under its key, with the same content. -/
def Holds (m : Message) (db : Db) : Prop := ∃ r ∈ db.messages, r.id = m.id ∧ r.content = m.content

/-- The steps of a run tell how the row came to be approved: the worker inserted it, later the
owner approved it, and from the insertion on the table has held it with the same content. -/
def ApprovedByOwner (tr : List (Runs.Taken Db Txn)) (m : Message) : Prop :=
  ∃ before insertion between decision after,
    tr = before ++ insertion :: (between ++ decision :: after) ∧
    (∃ r ∈ insertion.after.messages,
      insertion.label.Inserts r ∧ r.id = m.id ∧ r.content = m.content) ∧
    decision.label.Approves m.id ∧
    ∀ e ∈ between ++ decision :: after, Holds m e.before ∧ Holds m e.after

/-- A step that makes the table hold a message inserts it. -/
lemma inserts_of_holds {t : Txn} {s s' : Db} (h : t.Step s s') {m : Message} (hs : ¬ Holds m s)
    (hs' : Holds m s') :
    ∃ r ∈ s'.messages, t.Inserts r ∧ r.id = m.id ∧ r.content = m.content ∧
      ∀ r₀ ∈ s.messages, r₀.id ≠ m.id := by
  obtain ⟨r, hr, hid, hcontent⟩ := hs'
  rcases Txn.message_origin h hr with hold | ⟨env, decision, -, r₀, hr₀, rfl⟩ | ⟨hins, hfresh⟩
  · exact absurd ⟨r, hold, hid, hcontent⟩ hs
  · -- a decision keeps the key and the content
    exact absurd ⟨r₀, hr₀, hid, hcontent⟩ hs
  · exact ⟨r, hr, hins, hid, hcontent, fun r₀ hr₀ => hid ▸ hfresh r₀ hr₀⟩

/-- The table holds the message under its key, and it is approved. -/
def HoldsApproved (messageId : Uuid) (db : Db) : Prop :=
  ∃ r ∈ db.messages, r.id = messageId ∧ r.state = State.approved.value

lemma approved_ne_quarantined : State.approved.value ≠ State.quarantined.value := by decide

/-- A step that makes a message approved is a decision of the owner to approve it. -/
lemma approves_of_holdsApproved {t : Txn} {s s' : Db} (h : t.Step s s') {messageId : Uuid}
    (hs : ¬ HoldsApproved messageId s) (hs' : HoldsApproved messageId s') :
    t.Approves messageId := by
  obtain ⟨r, hr, rfl, hstate⟩ := hs'
  rcases Txn.message_origin h hr with hold | ⟨env, decision, rfl, r₀, hr₀, hrow⟩ | ⟨hins, -⟩
  · exact absurd ⟨r, hold, rfl, hstate⟩ hs
  · have hdecision : decision = State.approved.value := by
      rw [← hstate, hrow]
    rw [hdecision]
    exact ⟨env, rfl⟩
  · exact absurd (hstate.symm.trans hins.quarantined) approved_ne_quarantined

/-- After an insertion the message is not approved. -/
lemma not_holdsApproved_of_inserts {t : Txn} {s s' : Db} (h : t.Step s s') {r : Message}
    (hins : t.Inserts r) (hfresh : ∀ r₀ ∈ s.messages, r₀.id ≠ r.id) :
    ¬ HoldsApproved r.id s' := by
  rintro ⟨r', hr', hid, hstate⟩
  rcases Txn.message_origin h hr' with hold | ⟨env, decision, rfl, -⟩ | ⟨hins', -⟩
  · exact hfresh r' hold hid
  · exact hins
  · exact approved_ne_quarantined (hstate.symm.trans hins'.quarantined)

/-- In every run of an installation that starts without messages, a row is approved only if
the owner has approved it after the worker inserted it, and it says what was inserted.  No
transaction of the worker makes a row approved, whatever it runs with its privileges. -/
theorem installationRun_approvedByOwner {s s' : Db} {tr : List (Runs.Taken Db Txn)}
    (hstart : s.messages = []) (h : InstallationRun s tr s') :
    (∀ m ∈ s'.messages, m.state = State.approved.value → ApprovedByOwner tr m) ∧
      ∀ (t : Txn) (a b : Db), t.byWorker = true → t.Step a b →
        ∀ r ∈ b.messages, r.state = State.approved.value → r ∈ a.messages := by
  constructor
  · intro m hm hstate
    rcases h.since (P := Holds m) ⟨m, hm, rfl, rfl⟩ with
      ⟨⟨r, hr, -⟩, -⟩ | ⟨before, insertion, later, rfl, -, hstep, hlater, hnot, hholds, hkept⟩
    · rw [hstart] at hr
      cases hr
    · obtain ⟨r, hr, hins, hid, hcontent, hfresh⟩ := inserts_of_holds hstep hnot hholds
      rw [← hid] at hfresh
      rcases hlater.since (P := HoldsApproved m.id) ⟨m, hm, rfl, hstate⟩ with
        ⟨happroved, -⟩ | ⟨between, decision, after, rfl, -, hdecide, -, hbefore, hafter, -⟩
      · rw [← hid] at happroved
        exact absurd happroved (not_holdsApproved_of_inserts hstep hins hfresh)
      · exact ⟨before, insertion, between, decision, after, rfl, ⟨r, hr, hins, hid, hcontent⟩,
          approves_of_holdsApproved hdecide hbefore hafter, hkept⟩
  · intro t a b hworker hstep r hr hstate
    rcases Txn.message_origin hstep hr with hold | ⟨env, decision, rfl, -⟩ | ⟨hins, -⟩
    · exact hold
    · cases hworker
    · exact absurd (hstate.symm.trans hins.quarantined) approved_ne_quarantined

/-! ## A message that is stored and approved -/

/-- The record of a message that could not be parsed. -/
def sampleRecord : StoreArgs where
  mailboxId := 1
  uidValidity := 7
  uid := 1
  expectedConfigVersion := 1
  assessed := unprocessed (py "message_too_large") (py "Message quarantined")
  newId := 1
  decidedAt := 0
  ingestedAt := 0
  auditAt := 0

/-- The worker stores a message, and the owner approves it. -/
theorem installationRun_approvedByOwner_sample :
    ∃ tr s' m, InstallationRun sampleDb tr s' ∧ m ∈ s'.messages ∧
      m.state = State.approved.value ∧ ApprovedByOwner tr m := by
  have hstore : (Txn.store sampleRecord).Step sampleDb ((Txn.store sampleRecord).next sampleDb) :=
    Txn.step_next (by decide +kernel)
  have hdecide := Txn.step_next (t := .messageDecide sampleWebEnv 1 State.approved.value)
    (s := (Txn.store sampleRecord).next sampleDb) (by decide +kernel)
  have hrun : InstallationRun sampleDb _ _ := .cons hstore (.cons hdecide (.nil _))
  have hrow : ∃ m ∈ ((Txn.messageDecide sampleWebEnv 1 State.approved.value).next
      ((Txn.store sampleRecord).next sampleDb)).messages, m.state = State.approved.value := by
    decide +kernel
  obtain ⟨m, hm, hstate⟩ := hrow
  exact ⟨_, _, m, hrun, hm, hstate, (installationRun_approvedByOwner rfl hrun).1 m hm hstate⟩

end MailGate
