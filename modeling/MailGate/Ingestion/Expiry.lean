import MailGate.Ingestion.Cursor
import MailGate.Ingestion.Idempotence
import MailGate.Lifecycle

/-!
# Expired messages and the cursor

The retention job deletes rows, and the cursor of the mailbox is what keeps their messages
from being imported again.  The cursor is persisted at the end of a run, while messages are
committed one by one, so this works for the messages that the cursor has passed.
-/

namespace MailGate

open Transaction

/-! ## Runs and purges -/

/-- The server of each mailbox reports the same validity throughout. -/
def SteadyServer (validity : ℕ → ℕ) (call : SyncCall) : Prop :=
  ∀ v, (call.env.imap.response >>= uidvalidity) = .ok v → v = validity call.mailbox.id

/-- Runs of `sync_mailbox` and of `purge_retention` in any order, where each run starts from
the mailbox row as it is, may end in any way, and each purge meets the condition `C`.  The
set collects the keys of the messages that were stored and then deleted by a purge. -/
inductive RetentionRun (fault : SyncExn → Prop) (validity : ℕ → ℕ)
    (C : RetentionPolicy → Time → Db → Prop) : Db → Set (ℕ × ℕ × ℕ) → Db → Prop where
  | nil (s : Db) : RetentionRun fault validity C s ∅ s
  | sync {s s₁ s' : Db} {gone : Set (ℕ × ℕ × ℕ)} {call : SyncCall} {tr : List (Event Db)}
      (hrun : RetentionRun fault validity C s gone s₁)
      (hmailbox : call.mailbox ∈ s₁.mailboxes) (hsteady : SteadyServer validity call)
      (hexec : Exec (.alone fault) (syncMailbox call.env call.mailbox call.batchSize) s₁ tr
        call.outcome s') : RetentionRun fault validity C s gone s'
  | purge {s s₁ s' : Db} {gone : Set (ℕ × ℕ × ℕ)} {policy : RetentionPolicy}
      {now auditAt : Time} {batchSize : ℕ} {counts : List (PyStr × ℕ)}
      (hrun : RetentionRun fault validity C s gone s₁) (hcond : C policy now s₁)
      (hpurge : policy.purgeRetention now batchSize auditAt s₁ = some (counts, s')) :
      RetentionRun fault validity C s (gone ∪ {key | s₁.Stored key ∧ ¬ s'.Stored key}) s'

/-- The persisted cursor of the mailbox has passed the message with this key. -/
def CursorPassed (db : Db) (key : ℕ × ℕ × ℕ) : Prop :=
  ∃ box ∈ db.mailboxes,
    box.id = key.1 ∧ box.uidValidity = some key.2.1 ∧ key.2.2 ≤ box.lastUid

instance (db : Db) (key : ℕ × ℕ × ℕ) : Decidable (CursorPassed db key) := by
  unfold CursorPassed
  infer_instance

/-- Every expired message that the server could list again lies at or below the cursor. -/
def ExpiredPassed (validity : ℕ → ℕ) (policy : RetentionPolicy) (now : Time) (db : Db) : Prop :=
  ∀ m ∈ db.messages, policy.Expired now m → m.uidValidity = validity m.mailboxId →
    CursorPassed db m.key

instance (validity : ℕ → ℕ) (policy : RetentionPolicy) (now : Time) (db : Db) :
    Decidable (ExpiredPassed validity policy now db) := by
  unfold ExpiredPassed
  infer_instance

/-! ## The cursor never goes back -/

section Step

variable {validity : ℕ → ℕ} {fault : SyncExn → Prop} {call : SyncCall} {s s' : Db}
  {tr : List (Event Db)} {key : ℕ × ℕ × ℕ}

@[simp] lemma bumpMailboxConfigVersion_uidValidity (old new : Mailbox) :
    (bumpMailboxConfigVersion old new).uidValidity = new.uidValidity := by
  unfold bumpMailboxConfigVersion
  split <;> rfl

/-- An update of a run keeps a message below the cursor when the new columns do. -/
lemma CursorPassed.of_updateGuarded {mailbox : Mailbox} {set : Mailbox → Mailbox} {n : ℕ}
    (h : CursorPassed s key) (hupd : updateGuarded mailbox set s = .ok (n, s'))
    (hid : ∀ m, (set m).id = m.id)
    (hset : ∀ box ∈ s.mailboxes, box.id = mailbox.id → box.id = key.1 →
      box.uidValidity = some key.2.1 → key.2.2 ≤ box.lastUid →
      (set box).uidValidity = some key.2.1 ∧ key.2.2 ≤ (set box).lastUid) :
    CursorPassed s' key := by
  obtain ⟨box, hbox, hboxid, hval, hlast⟩ := h
  obtain ⟨-, -, rfl⟩ := Db.updateMailboxes_eq_ok.1 (updateGuarded_eq_ok.1 hupd)
  refine ⟨_, List.mem_map_of_mem hbox, ?_⟩
  by_cases hguard : guardsMailbox mailbox box = true
  · obtain ⟨hval', hlast'⟩ := hset box hbox (guardsMailbox_id hguard) hboxid hval hlast
    rw [if_pos hguard, Db.bumpMailboxConfigVersion_id, bumpMailboxConfigVersion_uidValidity,
      bumpMailboxConfigVersion_lastUid]
    exact ⟨(hid box).trans hboxid, hval', hlast'⟩
  · rw [if_neg hguard]
    exact ⟨hboxid, hval, hlast⟩

/-- The plan of a run against a steady server starts from the cursor of the mailbox. -/
lemma Planned.steady (hsteady : SteadyServer validity call) {plan : SyncPlan}
    (hplan : Planned call.env call.mailbox call.batchSize plan) :
    plan.uidValidity = validity call.mailbox.id ∧
      plan.lastUid = cursorUnder call.mailbox plan.uidValidity ∧
      ∀ uid ∈ plan.uids, plan.lastUid < uid := by
  obtain ⟨password, -, hplan⟩ := hplan
  obtain ⟨hval, hcursor, values, -, huids⟩ := planSync_eq_ok hplan
  refine ⟨hsteady _ hval, hcursor, ?_⟩
  intro uid huid
  rw [huids] at huid
  exact of_decide_eq_true (List.mem_filter.1 (List.mem_of_mem_take huid)).2

/-- The mailbox row that a run starts from is the one that has passed the message. -/
lemma CursorPassed.cursorUnder_le (hvalid : s.Valid) (hmailbox : call.mailbox ∈ s.mailboxes)
    (h : CursorPassed s key) (hid : key.1 = call.mailbox.id) :
    key.2.2 ≤ cursorUnder call.mailbox key.2.1 := by
  obtain ⟨box, hbox, hboxid, hval, hlast⟩ := h
  obtain rfl : box = call.mailbox :=
    Db.eq_of_map_nodup hvalid.mailbox_ids hbox hmailbox (hboxid.trans hid)
  rw [cursorUnder, if_pos hval]
  exact hlast

/-- A run keeps every message below the cursor that is there. -/
lemma CursorPassed.of_syncMailbox (hvalid : s.Valid) (hmailbox : call.mailbox ∈ s.mailboxes)
    (hsteady : SteadyServer validity call) (hkey : key.2.1 = validity key.1)
    (hexec : Exec (.alone fault) (syncMailbox call.env call.mailbox call.batchSize) s tr
      call.outcome s') (h : CursorPassed s key) : CursorPassed s' key := by
  have hbelow := h.cursorUnder_le hvalid hmailbox
  obtain ⟨records, s₁, s₂, hsteps, -⟩ := syncMailbox_exec hexec
  have h₁ : CursorPassed s₁ key := by
    rw [CursorPassed, hsteps.ingests.mailboxes_eq]
    exact h
  have h₂ : CursorPassed s₂ key := by
    rcases hsteps.cursor with rfl | ⟨n, plan, hplan, -, hupd⟩
    · exact h₁
    · refine h₁.of_updateGuarded hupd (fun _ => rfl) ?_
      intro box hbox hboxid hboxkey hval hlast
      obtain ⟨hvalidity, hcursor, -⟩ := Planned.steady hsteady hplan
      have hid : key.1 = call.mailbox.id := hboxkey.symm.trans hboxid
      have hsame : plan.uidValidity = key.2.1 := by rw [hvalidity, hkey, hid]
      refine ⟨congrArg some hsame, ?_⟩
      -- the new cursor is the largest UID of the plan, which starts from the old cursor
      have hle := hbelow hid
      rw [← hsame, ← hcursor] at hle
      by_contra hlt
      have hstart := (foldl_max_lt.1 (not_le.1 hlt)).1
      omega
  rcases hsteps.failure with rfl | ⟨code, n, hupd⟩
  · exact h₂
  · refine h₂.of_updateGuarded hupd (fun _ => rfl) ?_
    intro box _ _ _ hval hlast
    exact ⟨hval, hlast⟩

/-- A run imports no message that the cursor has passed, and none of another validity. -/
lemma not_stored_syncMailbox (hvalid : s.Valid) (hmailbox : call.mailbox ∈ s.mailboxes)
    (hsteady : SteadyServer validity call)
    (hexec : Exec (.alone fault) (syncMailbox call.env call.mailbox call.batchSize) s tr
      call.outcome s') (hpassed : key.2.1 = validity key.1 → CursorPassed s key)
    (hgone : ¬ s.Stored key) : ¬ s'.Stored key := by
  obtain ⟨records, s₁, s₂, hsteps, -⟩ := syncMailbox_exec hexec
  rw [Db.Stored, hsteps.frame.1, ← Db.Stored, hsteps.ingests.stored_iff]
  rintro (hstored | ⟨a, ha, rfl⟩)
  · exact hgone hstored
  · obtain ⟨plan, hplan, uid, huid, tick, item, -, rfl⟩ := hsteps.planned a ha
    obtain ⟨hvalidity, hcursor, habove⟩ := Planned.steady hsteady hplan
    have hle := (hpassed hvalidity).cursorUnder_le hvalid hmailbox rfl
    have hlt := habove uid huid
    rw [hcursor] at hlt
    exact absurd hle (not_le.2 hlt)

end Step

/-! ## Whole runs -/

section Run

variable {validity : ℕ → ℕ} {fault : SyncExn → Prop}
  {C : RetentionPolicy → Time → Db → Prop} {s s' : Db} {gone : Set (ℕ × ℕ × ℕ)}

lemma RetentionRun.valid (h : RetentionRun fault validity C s gone s') (hvalid : s.Valid) :
    s'.Valid := by
  induction h with
  | nil => exact hvalid
  | sync hrun hmailbox hsteady hexec ih =>
    obtain ⟨records, s₁, s₂, hsteps, -⟩ := syncMailbox_exec hexec
    exact hsteps.valid ih
  | purge hrun hcond hpurge ih => exact (purgeRetention_eq_some ih hpurge).2.2.2

/-- In a run whose purges delete only messages that the cursor has passed, a message that was
stored and then deleted by a purge is not in the table again. -/
theorem retentionRun_not_reimported (hvalid : s.Valid)
    (h : RetentionRun fault validity (ExpiredPassed validity) s gone s') :
    ∀ key ∈ gone, ¬ s'.Stored key := by
  -- the cursor has passed every deleted message, and stays above it
  have hinv : ∀ key ∈ gone, ¬ s'.Stored key ∧
      (key.2.1 = validity key.1 → CursorPassed s' key) := by
    induction h with
    | nil => simp
    | sync hrun hmailbox hsteady hexec ih =>
      intro key hkey
      obtain ⟨hgone, hpassed⟩ := ih key hkey
      have hvalid₁ := hrun.valid hvalid
      refine ⟨not_stored_syncMailbox hvalid₁ hmailbox hsteady hexec hpassed hgone, ?_⟩
      intro hvalidity
      exact (hpassed hvalidity).of_syncMailbox hvalid₁ hmailbox hsteady hvalidity hexec
    | @purge s₁ s' gone policy now auditAt batchSize counts hrun hcond hpurge ih =>
      obtain ⟨hmsg, hbox, -, -⟩ := purgeRetention_eq_some (hrun.valid hvalid) hpurge
      have hstored : ∀ key, s'.Stored key → s₁.Stored key := by
        rintro key ⟨m, hm, rfl⟩
        rw [hmsg] at hm
        exact ⟨m, List.mem_of_mem_filter hm, rfl⟩
      have hcursor : ∀ key, CursorPassed s₁ key → CursorPassed s' key := by
        intro key hpassed
        rw [CursorPassed, hbox]
        exact hpassed
      rintro key (hkey | ⟨⟨m, hm, rfl⟩, hnot⟩)
      · obtain ⟨hgone, hpassed⟩ := ih key hkey
        exact ⟨mt (hstored key) hgone, fun hvalidity => hcursor key (hpassed hvalidity)⟩
      · refine ⟨hnot, ?_⟩
        intro hvalidity
        -- the row is gone because it had expired
        have hexpired : policy.Expired now m := by
          by_contra hkept
          exact hnot ⟨m, by rw [hmsg]; exact List.mem_filter.2 ⟨hm, by simpa using hkept⟩, rfl⟩
        exact hcursor _ (hcond m hm hexpired hvalidity)
  exact fun key hkey => (hinv key hkey).1

end Run

/-! ## A run that fails at its second message -/

/-- The default periods of the command `purge_retention`. -/
def defaultPolicy : RetentionPolicy where
  approvedDays := 365
  quarantinedDays := 30
  rejectedDays := 30
  tokenDays := 30
  auditDays := 365
  bounded := by decide

/-- A server that lists the messages 1 and 2, has a size for the first only, and for both
when `answers` holds. -/
def failingEnv (answers : Bool) : SyncEnv :=
  sampleEnv (sampleLibrary blankMessage [] []) fun n _ =>
    match n with
    | 0 => .ok (py "OK", [.bytes (bytes "1 2")])
    | 1 => .ok (py "OK", [.bytes (bytes "1 (RFC822.SIZE 20000000)")])
    | _ =>
      if answers then .ok (py "OK", [.bytes (bytes "2 (RFC822.SIZE 20000000)")])
      else .ok (py "OK", [])

/-- A day on which the messages of these runs have expired. -/
def expiryDay : Time := 31 * Time.day

lemma failingEnv_steady (answers : Bool) (mailbox : Mailbox) (batchSize : ℕ)
    (outcome : Option (Except SyncExn ℕ)) :
    SteadyServer (fun _ => 7) ⟨failingEnv answers, mailbox, batchSize, outcome⟩ := by
  intro v hv
  have hseven : ((failingEnv answers).imap.response >>= uidvalidity) = .ok 7 := by
    cases answers <;> decide
  exact Except.ok.inj (hv.symm.trans hseven)

/-- The database after an undisturbed run on the first mailbox of the table. -/
def afterSync (answers : Bool) (s : Db) : Db :=
  ((syncMailbox (failingEnv answers) (s.mailboxes.headD sampleMailbox)).run s).2

/-- The database after a purge on the day of expiry. -/
def afterPurge (s : Db) : Db := (defaultPolicy.purge expiryDay 500 expiryDay s).2

section Sample

variable {C : RetentionPolicy → Time → Db → Prop} {s s₁ : Db} {gone : Set (ℕ × ℕ × ℕ)}

lemma retentionRun_afterSync (answers : Bool)
    (hmailbox : s₁.mailboxes.headD sampleMailbox ∈ s₁.mailboxes)
    (hrun : RetentionRun (fun _ => False) (fun _ => 7) C s gone s₁) :
    RetentionRun (fun _ => False) (fun _ => 7) C s gone (afterSync answers s₁) := by
  obtain ⟨tr, hexec⟩ := Exec.of_run (W := .alone fun _ => False)
    (syncMailbox (failingEnv answers) (s₁.mailboxes.headD sampleMailbox)) s₁
  exact .sync hrun hmailbox (failingEnv_steady answers _ 50 _) hexec

lemma retentionRun_afterPurge (hcond : C defaultPolicy expiryDay s₁)
    (hrun : RetentionRun (fun _ => False) (fun _ => 7) C s gone s₁) :
    RetentionRun (fun _ => False) (fun _ => 7) C s
      (gone ∪ {key | s₁.Stored key ∧ ¬ (afterPurge s₁).Stored key}) (afterPurge s₁) := by
  have hpurge : defaultPolicy.purgeRetention expiryDay 500 expiryDay s₁ =
      some (defaultPolicy.purge expiryDay 500 expiryDay s₁) := if_pos (by decide)
  exact .purge hrun hcond hpurge

end Sample

/-- A run that succeeds moves the cursor before the purge, and the next run imports nothing. -/
theorem retentionRun_not_reimported_passed :
    ∃ gone s', RetentionRun (fun _ => False) (fun _ => 7) (ExpiredPassed fun _ => 7)
        sampleDb gone s' ∧ (1, 7, 1) ∈ gone ∧ ∀ key ∈ gone, ¬ s'.Stored key := by
  have hnil : RetentionRun (fun _ => False) (fun _ => 7) (ExpiredPassed fun _ => 7)
      sampleDb ∅ sampleDb := .nil sampleDb
  have hfirst := retentionRun_afterSync true (by decide +kernel) hnil
  have hpurge := retentionRun_afterPurge (by decide +kernel) hfirst
  have hrun := retentionRun_afterSync true (by decide +kernel) hpurge
  refine ⟨_, _, hrun, ?_, retentionRun_not_reimported sampleDb_valid hrun⟩
  right
  show Db.Stored _ _ ∧ ¬ Db.Stored _ _
  decide +kernel

/-- A run stores the first message and fails at the second, so its cursor stays at 0; the
message expires and is deleted, and the next run imports it again. -/
theorem retentionRun_reimports_first :
    ∃ gone s', RetentionRun (fun _ => False) (fun _ => 7) (fun _ _ _ => True) sampleDb gone s' ∧
      ∃ key ∈ gone, s'.Stored key := by
  have hnil : RetentionRun (fun _ => False) (fun _ => 7) (fun _ _ _ => True)
      sampleDb ∅ sampleDb := .nil sampleDb
  have hfirst := retentionRun_afterSync false (by decide +kernel) hnil
  have hpurge := retentionRun_afterPurge trivial hfirst
  have hrun := retentionRun_afterSync false (by decide +kernel) hpurge
  refine ⟨_, _, hrun, (1, 7, 1), ?_, by decide +kernel⟩
  right
  show Db.Stored _ _ ∧ ¬ Db.Stored _ _
  decide +kernel

end MailGate
