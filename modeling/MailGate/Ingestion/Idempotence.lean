import Mathlib.Tactic.IntervalCases
import Mathlib.Tactic.Ring
import MailGate.Ingestion.Cursor

/-!
# Repeated runs

A run may be killed, may fail at any message, may meet messages that were stored before, and
is repeated for ever.  Whatever the runs do, a message has one row, which no later run
touches, with the attachments it came with and one audit event.
-/

namespace MailGate

open Transaction

/-! ## Texts of UUIDs -/

/-- Numbers below `16 ^ n` are determined by their first `n` hexadecimal digits. -/
lemma eq_of_hexDigits {n x y : ℕ} (hx : x < 16 ^ n) (hy : y < 16 ^ n)
    (h : ∀ i < n, x / 16 ^ i % 16 = y / 16 ^ i % 16) : x = y := by
  induction n generalizing x y with
  | zero => omega
  | succ n ih =>
    have hlow : x % 16 = y % 16 := by simpa using h 0 (by omega)
    have hhigh : x / 16 = y / 16 := by
      refine ih (by rw [Nat.pow_succ] at hx; omega) (by rw [Nat.pow_succ] at hy; omega) ?_
      intro i hi
      have hstep := h (i + 1) (by omega)
      rwa [Nat.pow_succ', ← Nat.div_div_eq_div_mul, ← Nat.div_div_eq_div_mul] at hstep
    omega

namespace Uuid

lemma str_length (u : Uuid) : u.str.length = 36 := rfl

lemma digit_inj {u v : Uuid} {i : ℕ} (h : u.digit i = v.digit i) :
    u.toNat / 16 ^ i % 16 = v.toNat / 16 ^ i % 16 := by
  have hdigits : ∀ a b : Fin 16, (py "0123456789abcdef").getD a.val 0 =
      (py "0123456789abcdef").getD b.val 0 → a = b := by decide
  have heq := hdigits ⟨u.toNat / 16 ^ i % 16, Nat.mod_lt _ (by decide)⟩
    ⟨v.toNat / 16 ^ i % 16, Nat.mod_lt _ (by decide)⟩ h
  exact congrArg Fin.val heq

/-- Different UUIDs have different texts. -/
lemma str_injective : Function.Injective Uuid.str := by
  intro u v h
  have hdigits : ∀ i < 32, u.digit i = v.digit i := by
    simp only [str, PyStr.join, List.intercalate, List.range_succ, List.range_zero,
      List.map_cons, List.map_nil, List.nil_append, List.cons_append, List.intersperse,
      List.flatten_cons, List.flatten_nil, List.cons.injEq] at h
    intro i hi
    interval_cases i <;> simp_all
  have hpow : (2 : ℕ) ^ 128 = 16 ^ 32 := by decide
  have hu : u.toNat < 16 ^ 32 := hpow ▸ u.isLt
  have hv : v.toNat < 16 ^ 32 := hpow ▸ v.isLt
  refine BitVec.eq_of_toNat_eq (eq_of_hexDigits hu hv ?_)
  intro i hi
  exact digit_inj (hdigits i hi)

end Uuid

/-! ## What a series of ingestions leaves -/

/-- The rows of one owner in a table that is grouped by owners. -/
lemma filter_flatMap_eq {α β κ : Type} [DecidableEq κ] {owner : α → κ} {ref : β → κ}
    {rows : α → List β} (hrows : ∀ a, ∀ b ∈ rows a, ref b = owner a) {as : List α}
    (hnodup : (as.map owner).Nodup) {a : α} (ha : a ∈ as) :
    (as.flatMap rows).filter (fun b => decide (ref b = owner a)) = rows a := by
  have hown : (rows a).filter (fun b => decide (ref b = owner a)) = rows a := by
    rw [List.filter_eq_self]
    intro b hb
    simpa using hrows a b hb
  induction as with
  | nil => cases ha
  | cons c as ih =>
    rw [List.map_cons, List.nodup_cons] at hnodup
    rw [List.flatMap_cons, List.filter_append]
    rcases List.mem_cons.1 ha with rfl | ha
    · -- the rest belongs to other owners
      have hrest : (as.flatMap rows).filter (fun b => decide (ref b = owner a)) = [] := by
        rw [List.filter_eq_nil_iff]
        intro b hb hba
        obtain ⟨d, hd, hb⟩ := List.mem_flatMap.1 hb
        have heq : owner d = owner a := (hrows d b hb).symm.trans (by simpa using hba)
        exact hnodup.1 (List.mem_map.2 ⟨d, hd, heq⟩)
      rw [hown, hrest, List.append_nil]
    · have hne : (rows c).filter (fun b => decide (ref b = owner a)) = [] := by
        rw [List.filter_eq_nil_iff]
        intro b hb hba
        have heq : owner a = owner c := (by simpa using hba : ref b = owner a).symm.trans
          (hrows c b hb)
        exact hnodup.1 (List.mem_map.2 ⟨a, ha, heq⟩)
      rw [hne, List.nil_append, ih hnodup.2 ha]

/-- The audit events of a series of ingestions. -/
lemma Ingests.audit {s s' : Db} {records : List StoreArgs} (h : Ingests s records s') :
    ∃ events, s'.audit = s.audit ++ events ∧
      (∀ e ∈ events, e.action = py "message.ingested" ∧ e.objectType = py "Message") ∧
      events.map (·.objectId) = records.map (·.newId.str) := by
  induction h with
  | nil s => exact ⟨[], by simp⟩
  | @cons s s' a records hacc hrest ih =>
    obtain ⟨events, haudit, hevents, hids⟩ := ih
    refine ⟨a.auditEvent s.auditSeq :: events, ?_, ?_, ?_⟩
    · rw [haudit]
      simp [StoreArgs.ingest]
    · rw [List.forall_mem_cons]
      exact ⟨⟨rfl, rfl⟩, hevents⟩
    · have hid : (a.auditEvent s.auditSeq).objectId = a.newId.str :=
        List.take_of_length_le (by rw [Uuid.str_length]; omega)
      rw [List.map_cons, List.map_cons, hids, hid]

/-- Between `s` and `s'` the messages of the records were stored, each once and with all that
belongs to it, and no other row of the three tables has changed. -/
structure StoredOnce (s : Db) (records : List StoreArgs) (s' : Db) : Prop where
  /-- No two rows have one key. -/
  keys : (s'.messages.map Message.key).Nodup
  /-- The rows that existed are unchanged, and one row was added for each record. -/
  messages : s'.messages = s.messages ++ records.map StoreArgs.storedRow
  /-- A new row has the attachments that were parsed with it. -/
  attachments : ∀ a ∈ records,
    s'.attachments.filter (fun r => r.messageId = a.storedRow.id) = a.attachmentRows
  /-- The rows that existed have the attachments they had. -/
  oldAttachments : ∀ m ∈ s.messages,
    s'.attachments.filter (fun r => r.messageId = m.id) =
      s.attachments.filter (fun r => r.messageId = m.id)
  /-- One audit event was added for each new row, and names that row and no other. -/
  audit : ∃ events, s'.audit = s.audit ++ events ∧
    (∀ e ∈ events, e.action = py "message.ingested" ∧ e.objectType = py "Message") ∧
    events.map (·.objectId) = records.map (·.storedRow.id.str) ∧
    (events.map (·.objectId)).Nodup

lemma Ingests.storedOnce {s s' : Db} {records : List StoreArgs} (h : Ingests s records s')
    (hvalid : s.Valid) : StoredOnce s records s' := by
  have hvalid' := h.valid hvalid
  obtain ⟨hmsg, hatt, -, -⟩ := h.tables
  have hids := hvalid'.message_ids
  rw [hmsg, List.map_append, List.map_map, List.nodup_append] at hids
  obtain ⟨-, hnew, hdisjoint⟩ := hids
  have hrows : ∀ a : StoreArgs, ∀ r ∈ a.attachmentRows, r.messageId = a.storedRow.id :=
    StoreArgs.attachmentRows_messageId
  refine ⟨hvalid'.message_keys, hmsg, ?_, ?_, ?_⟩
  · intro a ha
    -- the attachments that were there belong to rows that were there
    have hold : s.attachments.filter (fun r => r.messageId = a.storedRow.id) = [] := by
      rw [List.filter_eq_nil_iff]
      intro r hr hra
      have hmem := hvalid.attachment_message r hr
      exact hdisjoint _ hmem _ (List.mem_map.2 ⟨a, ha, rfl⟩) (of_decide_eq_true hra)
    rw [hatt, List.filter_append, hold, List.nil_append]
    exact filter_flatMap_eq hrows hnew ha
  · intro m hm
    have hadded : (records.flatMap StoreArgs.attachmentRows).filter
        (fun r => r.messageId = m.id) = [] := by
      rw [List.filter_eq_nil_iff]
      intro r hr hrm
      obtain ⟨a, ha, hr⟩ := List.mem_flatMap.1 hr
      have heq : m.id = a.storedRow.id := (by simpa using hrm : r.messageId = m.id).symm.trans
        (hrows a r hr)
      exact hdisjoint _ (List.mem_map_of_mem hm) _ (List.mem_map.2 ⟨a, ha, rfl⟩) heq
    rw [hatt, List.filter_append, hadded, List.append_nil]
  · obtain ⟨events, haudit, hevents, hobjects⟩ := h.audit
    refine ⟨events, haudit, hevents, hobjects, ?_⟩
    rw [hobjects]
    have hmap : records.map (fun a => a.newId.str) =
        (records.map fun a => a.storedRow.id).map Uuid.str := by
      rw [List.map_map]
      rfl
    rw [hmap]
    exact hnew.map Uuid.str_injective

/-! ## Repeated runs -/

lemma updateGuarded_frame {mailbox : Mailbox} {set : Mailbox → Mailbox} {s s' : Db} {n : ℕ}
    (h : updateGuarded mailbox set s = .ok (n, s')) :
    s'.messages = s.messages ∧ s'.attachments = s.attachments ∧ s'.audit = s.audit := by
  obtain ⟨-, -, rfl⟩ := Db.updateMailboxes_eq_ok.1 (updateGuarded_eq_ok.1 h)
  exact ⟨rfl, rfl, rfl⟩

lemma updateGuarded_valid {mailbox : Mailbox} {set : Mailbox → Mailbox} {s s' : Db} {n : ℕ}
    (hs : s.Valid) (h : updateGuarded mailbox set s = .ok (n, s'))
    (hset : ∀ m, (set m).id = m.id) : s'.Valid :=
  Db.updateMailboxes_valid hs (fun m _ _ => hset m) (updateGuarded_eq_ok.1 h)

namespace SyncSteps

variable {env : SyncEnv} {mailbox : Mailbox} {batchSize : ℕ} {s s₁ s₂ s' : Db}
  {records : List StoreArgs}

/-- Beside ingesting messages, a run touches the table of mailboxes only. -/
lemma frame (h : SyncSteps env mailbox batchSize s records s₁ s₂ s') :
    s'.messages = s₁.messages ∧ s'.attachments = s₁.attachments ∧ s'.audit = s₁.audit := by
  have hcursor : s₂.messages = s₁.messages ∧ s₂.attachments = s₁.attachments ∧
      s₂.audit = s₁.audit := by
    rcases h.cursor with rfl | ⟨n, plan, -, -, hupd⟩
    · exact ⟨rfl, rfl, rfl⟩
    · exact updateGuarded_frame hupd
  rcases h.failure with rfl | ⟨code, n, hupd⟩
  · exact hcursor
  · obtain ⟨hmsg, hatt, haudit⟩ := updateGuarded_frame hupd
    exact ⟨hmsg.trans hcursor.1, hatt.trans hcursor.2.1, haudit.trans hcursor.2.2⟩

lemma valid (h : SyncSteps env mailbox batchSize s records s₁ s₂ s') (hs : s.Valid) :
    s'.Valid := by
  have hvalid₂ : s₂.Valid := by
    rcases h.cursor with rfl | ⟨n, plan, -, -, hupd⟩
    · exact h.ingests.valid hs
    · exact updateGuarded_valid (h.ingests.valid hs) hupd fun _ => rfl
  rcases h.failure with rfl | ⟨code, n, hupd⟩
  · exact hvalid₂
  · exact updateGuarded_valid hvalid₂ hupd fun _ => rfl

lemma storedOnce (h : SyncSteps env mailbox batchSize s records s₁ s₂ s') (hs : s.Valid) :
    StoredOnce s records s' := by
  obtain ⟨hkeys, hmsgs, hatts, holds, haudit⟩ := h.ingests.storedOnce hs
  obtain ⟨hmsg, hatt, haud⟩ := h.frame
  rw [← hmsg] at hkeys hmsgs
  rw [← hatt] at hatts holds
  rw [← haud] at haudit
  exact ⟨hkeys, hmsgs, hatts, holds, haudit⟩

end SyncSteps

/-- One call of `sync_mailbox`: the server it meets, and how it ends. -/
structure SyncCall where
  env : SyncEnv
  mailbox : Mailbox
  batchSize : ℕ
  outcome : Option (Except SyncExn ℕ)

/-- Calls of `sync_mailbox`, one after the other, each of which may fail or be killed. -/
inductive SyncRuns (fault : SyncExn → Prop) : Db → List SyncCall → Db → Prop where
  | nil (s : Db) : SyncRuns fault s [] s
  | cons {s s₁ s' : Db} {call : SyncCall} {calls : List SyncCall} {tr : List (Event Db)}
      (hrun : Exec (.alone fault) (syncMailbox call.env call.mailbox call.batchSize) s tr
        call.outcome s₁)
      (hrest : SyncRuns fault s₁ calls s') : SyncRuns fault s (call :: calls) s'

/-- The records are those of the call, and a call that returns counts them. -/
def CallRecords (call : SyncCall) (records : List StoreArgs) : Prop :=
  (∀ a ∈ records, PlannedRecord call.env call.mailbox call.batchSize a) ∧
    ∀ n, call.outcome = some (.ok n) → n = records.length

/-- Storing some messages once, and then others, stores all of them once. -/
lemma StoredOnce.trans {s s₁ s' : Db} {records more : List StoreArgs}
    (h : StoredOnce s records s₁) (h' : StoredOnce s₁ more s') (hvalid' : s'.Valid) :
    StoredOnce s (records ++ more) s' := by
  have hmsg : s'.messages = s.messages ++ (records ++ more).map StoreArgs.storedRow := by
    rw [h'.messages, h.messages, List.map_append, List.append_assoc]
  obtain ⟨events, haudit, hevents, hobjects, -⟩ := h.audit
  obtain ⟨events', haudit', hevents', hobjects', -⟩ := h'.audit
  refine ⟨h'.keys, hmsg, ?_, ?_, events ++ events', ?_, ?_, ?_, ?_⟩
  · intro a ha
    rcases List.mem_append.1 ha with ha | ha
    · -- the row is an old one for the later part
      have hold : a.storedRow ∈ s₁.messages := by
        rw [h.messages]
        exact List.mem_append_right _ (List.mem_map_of_mem ha)
      rw [h'.oldAttachments _ hold]
      exact h.attachments a ha
    · exact h'.attachments a ha
  · intro m hm
    have hold : m ∈ s₁.messages := by
      rw [h.messages]
      exact List.mem_append_left _ hm
    rw [h'.oldAttachments m hold]
    exact h.oldAttachments m hm
  · rw [haudit', haudit, List.append_assoc]
  · rw [List.forall_mem_append]
    exact ⟨hevents, hevents'⟩
  · rw [List.map_append, List.map_append, hobjects, hobjects']
  · have hids := hvalid'.message_ids
    rw [hmsg, List.map_append, List.nodup_append] at hids
    rw [List.map_append, hobjects, hobjects', ← List.map_append]
    have hmap : (records ++ more).map (fun a => a.storedRow.id.str) =
        (((records ++ more).map StoreArgs.storedRow).map (·.id)).map Uuid.str := by
      rw [List.map_map, List.map_map]
      rfl
    rw [hmap]
    exact hids.2.1.map Uuid.str_injective

/-- Over any series of runs each message is stored once: no two rows have one key, the rows
that existed stay as they are, each new row keeps the attachments that were parsed with it
and has one audit event of its own, and a run that returns a number has added as many rows. -/
theorem syncRuns_storedOnce {fault : SyncExn → Prop} {s s' : Db} {calls : List SyncCall}
    (hvalid : s.Valid) (h : SyncRuns fault s calls s') :
    ∃ runs : List (List StoreArgs), List.Forall₂ CallRecords calls runs ∧
      StoredOnce s runs.flatten s' ∧ s'.Valid := by
  induction h with
  | nil s =>
    exact ⟨[], .nil, (Ingests.nil s).storedOnce hvalid, hvalid⟩
  | cons hrun hrest ih =>
    obtain ⟨records, s₂, s₃, hsteps, -, hend⟩ := syncMailbox_exec hrun
    obtain ⟨runs, hcalls, hstored, hvalid'⟩ := ih (hsteps.valid hvalid)
    refine ⟨records :: runs, .cons ⟨hsteps.planned, ?_⟩ hcalls, ?_, hvalid'⟩
    · intro n hn
      exact (hend n hn).1
    · rw [List.flatten_cons]
      exact (hsteps.storedOnce hvalid).trans hstored hvalid'

/-- The same mailbox is synchronised twice, and its server lists the same messages again. -/
theorem syncRuns_storedOnce_relisted :
    ∃ calls s' runs, calls.length = 2 ∧ SyncRuns (fun _ => False) sampleDb calls s' ∧
      List.Forall₂ CallRecords calls runs ∧ StoredOnce sampleDb runs.flatten s' ∧ s'.Valid := by
  have hcall : ∀ s : Db, ∃ call : SyncCall, ∃ tr s', Exec (.alone fun _ => False)
      (syncMailbox call.env call.mailbox call.batchSize) s tr call.outcome s' := by
    intro s
    obtain ⟨tr, hrun⟩ := Exec.of_run (W := .alone fun _ => False)
      (syncMailbox (searchEnv (bytes "5 20")) sampleMailbox 1) s
    exact ⟨⟨searchEnv (bytes "5 20"), sampleMailbox, 1, _⟩, tr, _, hrun⟩
  obtain ⟨first, _, s₁, hfirst⟩ := hcall sampleDb
  obtain ⟨second, _, s₂, hsecond⟩ := hcall s₁
  have hruns : SyncRuns (fun _ => False) sampleDb [first, second] s₂ :=
    .cons hfirst (.cons hsecond (.nil s₂))
  obtain ⟨runs, hcalls, hstored, hvalid⟩ := syncRuns_storedOnce sampleDb_valid hruns
  exact ⟨[first, second], s₂, runs, rfl, hruns, hcalls, hstored, hvalid⟩

end MailGate
