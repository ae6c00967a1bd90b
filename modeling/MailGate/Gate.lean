import MailGate.Approval
import MailGate.Lib.Quarantine
import MailGate.Lib.Simulation

/-!
# The gate

What the installation is for: mail waits in a quarantine until the owner decides on it, and the
agent sees what is released.  Seen through the table of messages, every transaction of the
installation is a run of such a quarantine, with arrivals by the worker, decisions by the owner,
and messages forgotten by the retention job or with their mailbox.
-/

namespace MailGate

open Quarantine (Standing Released history shown)
open Runs (SeenAs Simulation Taken)

/-- What a quarantine of approved messages can do. -/
abbrev GateEvent := Quarantine.Event Uuid ApprovedMessage

/-- Where the `state` of a row puts its message. -/
def standing (state : PyStr) : Standing :=
  if state = State.approved.value then .released
  else if state = State.rejected.value then .refused
  else .waiting

/-- A row as an item of the quarantine. -/
def Message.item (m : Message) : Quarantine.Item ApprovedMessage :=
  ⟨m.approvedColumns, standing m.state⟩

/-- The rows of a table as a quarantine. -/
def gateOf (rows : List Message) : Quarantine.Store Uuid ApprovedMessage := fun k =>
  (rows.find? fun m => m.id = k).map Message.item

/-- The installation as a quarantine. -/
def gate (db : Db) : Quarantine.Store Uuid ApprovedMessage := gateOf db.messages

/-- The events of the quarantine that a transaction may cause: arrivals of what it inserts, the
decision that it writes, and messages forgotten by a deletion or by the retention job. -/
def Txn.MayCause (t : Txn) : GateEvent → Prop
  | .arrive k content => ∃ r, t.Inserts r ∧ r.id = k ∧ r.approvedColumns = content
  | .decide k release => ∃ env, t = .messageDecide env k
      (if release then State.approved.value else State.rejected.value)
  | .forget _ => (∃ env mailboxId, t = .mailboxDelete env mailboxId) ∨
      ∃ policy now batchSize auditAt, t = .purge policy now batchSize auditAt

/-! ## Tables as quarantines -/

section Tables

variable {rows : List Message} {k : Uuid}

lemma gateOf_eq_none : gateOf rows k = none ↔ k ∉ rows.map (·.id) := by
  rw [gateOf, Option.map_eq_none_iff, List.find?_eq_none, List.mem_map]
  simp

lemma gateOf_eq_some (hids : (rows.map (·.id)).Nodup) {item : Quarantine.Item ApprovedMessage} :
    gateOf rows k = some item ↔ ∃ m ∈ rows, m.id = k ∧ m.item = item := by
  rw [gateOf, Option.map_eq_some_iff]
  constructor
  · rintro ⟨m, hfind, hitem⟩
    exact ⟨m, List.mem_of_find?_eq_some hfind, by simpa using List.find?_some hfind, hitem⟩
  · rintro ⟨m, hm, hid, hitem⟩
    refine ⟨m, ?_, hitem⟩
    cases hfind : rows.find? fun m => m.id = k with
    | none => exact absurd hid (by simpa using List.find?_eq_none.1 hfind m hm)
    | some m' =>
      have hid' : m'.id = k := by simpa using List.find?_some hfind
      rw [Db.eq_of_map_nodup hids hm (List.mem_of_find?_eq_some hfind) (hid.trans hid'.symm)]

/-- A row with a fresh key is an arrival. -/
lemma gateOf_concat {row : Message} (hfresh : ∀ m ∈ rows, m.id ≠ row.id) :
    gateOf (rows ++ [row]) = Function.update (gateOf rows) row.id (some row.item) := by
  funext k
  rw [gateOf, List.find?_append]
  by_cases hk : row.id = k
  · subst hk
    have hnone : rows.find? (fun m => m.id = row.id) = none := by
      rw [List.find?_eq_none]
      simpa using hfresh
    rw [hnone, Function.update_self]
    simp
  · rw [Function.update_of_ne (Ne.symm hk), List.find?_singleton, if_neg (by simpa using hk),
      Option.or_none, gateOf]

/-- Rows that are deleted are forgotten. -/
lemma gateOf_filter (hids : (rows.map (·.id)).Nodup) (p : Message → Bool) :
    gateOf (rows.filter p) =
      Quarantine.without (gateOf rows) ((rows.filter (!p ·)).map (·.id)) := by
  have hkept : ((rows.filter p).map (·.id)).Nodup := hids.sublist (List.filter_sublist.map _)
  funext k
  apply Option.ext
  intro item
  rw [Quarantine.without, Option.ite_none_left_eq_some, gateOf_eq_some hkept, gateOf_eq_some hids]
  constructor
  · rintro ⟨m, hm, rfl, hitem⟩
    obtain ⟨hm, hp⟩ := List.mem_filter.1 hm
    refine ⟨fun hgone => ?_, m, hm, rfl, hitem⟩
    obtain ⟨m', hm', hid⟩ := List.mem_map.1 hgone
    obtain ⟨hm', hp'⟩ := List.mem_filter.1 hm'
    rw [Db.eq_of_map_nodup hids hm' hm hid, hp] at hp'
    cases hp'
  · rintro ⟨hkeep, m, hm, rfl, hitem⟩
    refine ⟨m, List.mem_filter.2 ⟨hm, ?_⟩, rfl, hitem⟩
    by_contra hp
    exact hkeep (List.mem_map.2 ⟨m, List.mem_filter.2 ⟨hm, by simpa using hp⟩, rfl⟩)

lemma standing_decision (release : Bool) :
    standing (if release then State.approved.value else State.rejected.value) =
      Quarantine.verdict release := by
  cases release <;> rfl

/-- A decision of the owner is a decision of the quarantine. -/
lemma gateOf_decide (hids : (rows.map (·.id)).Nodup) {m : Message} (hm : m ∈ rows)
    (state : PyStr) (now : Time) :
    gateOf (rows.map fun r =>
        if r.id = m.id then { r with state := state, decidedAt := some now } else r) =
      Function.update (gateOf rows) m.id (some ⟨m.approvedColumns, standing state⟩) := by
  have hmap : (rows.map fun r =>
      if r.id = m.id then { r with state := state, decidedAt := some now } else r).map (·.id) =
      rows.map (·.id) := by
    refine Db.map_update ?_
    intro r _
    split <;> rfl
  have hids' := hids
  rw [← hmap] at hids'
  funext k
  by_cases hk : k = m.id
  · subst hk
    -- the row of the message: its state is the new one
    rw [Function.update_self, gateOf_eq_some hids']
    refine ⟨_, List.mem_map_of_mem hm, ?_⟩
    rw [if_pos rfl]
    exact ⟨rfl, rfl⟩
  · rw [Function.update_of_ne hk]
    apply Option.ext
    intro item
    -- the other rows are the same
    rw [gateOf_eq_some hids', gateOf_eq_some hids]
    constructor
    · rintro ⟨_, hupdated, hid, hitem⟩
      obtain ⟨r, hr, rfl⟩ := List.mem_map.1 hupdated
      by_cases hr' : r.id = m.id
      · rw [if_pos hr'] at hid
        exact absurd (hid.symm.trans hr') hk
      · rw [if_neg hr'] at hid hitem
        exact ⟨r, hr, hid, hitem⟩
    · rintro ⟨r, hr, rfl, hitem⟩
      refine ⟨_, List.mem_map_of_mem hr, ?_⟩
      rw [if_neg hk]
      exact ⟨rfl, hitem⟩

/-- The view of the agent API holds what the quarantine shows. -/
lemma mem_approvedMessages {db : Db} (hvalid : db.Valid) (row : ApprovedMessage) :
    row ∈ db.approvedMessages ↔ shown (gate db) row.id = some row := by
  rw [Db.approvedMessages, List.mem_map, shown, Option.bind_eq_some_iff]
  constructor
  · rintro ⟨m, hm, rfl⟩
    obtain ⟨hm, hstate⟩ := List.mem_filter.1 hm
    refine ⟨m.item, (gateOf_eq_some hvalid.message_ids).2 ⟨m, hm, rfl, rfl⟩, ?_⟩
    rw [decide_eq_true_eq] at hstate
    rw [Message.item, hstate]
    rfl
  · rintro ⟨item, hitem, hshown⟩
    obtain ⟨m, hm, -, rfl⟩ := (gateOf_eq_some hvalid.message_ids).1 hitem
    obtain ⟨hreleased, hrow⟩ := Option.ite_none_right_eq_some.1 hshown
    rw [Option.some.injEq] at hrow
    refine ⟨m, List.mem_filter.2 ⟨hm, decide_eq_true ?_⟩, hrow⟩
    by_contra hstate
    rw [Message.item, standing, if_neg hstate] at hreleased
    split at hreleased <;> cases hreleased

end Tables

/-! ## Transactions as runs of the quarantine -/

/-- How the transaction is seen. -/
def Txn.Seen (t : Txn) (g g' : Quarantine.Store Uuid ApprovedMessage) : Prop :=
  ∃ tr, Runs.Run Quarantine.Step g tr g' ∧ ∀ u ∈ tr, t.MayCause u.label

lemma Txn.Seen.refl (t : Txn) (g : Quarantine.Store Uuid ApprovedMessage) : t.Seen g g :=
  ⟨[], .nil g, by simp⟩

/-- A row that a transaction inserts under a fresh key is seen as an arrival. -/
lemma Txn.Inserts.seen {t : Txn} {rows : List Message} {row : Message} (h : t.Inserts row)
    (hfresh : ∀ m ∈ rows, m.id ≠ row.id) : t.Seen (gateOf rows) (gateOf (rows ++ [row])) := by
  have hitem : row.item = ⟨row.approvedColumns, .waiting⟩ := by
    rw [Message.item, h.quarantined]
    rfl
  rw [gateOf_concat hfresh, hitem]
  refine ⟨_, .cons (.arrive _ row.id row.approvedColumns ?_) (.nil _), ?_⟩
  · rw [gateOf_eq_none]
    intro hid
    obtain ⟨m, hm, heq⟩ := List.mem_map.1 hid
    exact hfresh m hm heq
  · rw [List.forall_mem_singleton]
    exact ⟨row, h, rfl, rfl⟩

/-- Deleted rows are seen as forgotten. -/
lemma Txn.seen_filter {t : Txn} (h : ∀ k, t.MayCause (.forget k)) {rows : List Message}
    (hids : (rows.map (·.id)).Nodup) (p : Message → Bool) :
    t.Seen (gateOf rows) (gateOf (rows.filter p)) := by
  rw [gateOf_filter hids]
  obtain ⟨tr, hrun, hlabels⟩ :=
    Quarantine.run_forget (gateOf rows) ((rows.filter (!p ·)).map (·.id))
  refine ⟨tr, hrun, fun u hu => ?_⟩
  obtain ⟨k, -, hlabel⟩ := hlabels u hu
  rw [hlabel]
  exact h k

/-- Whatever the worker runs is seen as arrivals of what it inserts. -/
lemma workerTransaction_seen {t : Txn} {statements : List WorkerStatement} {s s' : Db}
    (h : workerTransaction statements s = .ok s')
    (hins : ∀ new, .insertMessage new ∈ statements →
      t.Inserts (forceWorkerQuarantine .worker new)) :
    t.Seen (gate s) (gate s') := by
  induction statements generalizing s with
  | nil =>
    cases h
    exact .refl t _
  | cons statement statements ih =>
    obtain ⟨s₁, hfirst, hrest⟩ := Exceptions.bind_eq_ok.1 h
    obtain ⟨tr, hrun, hlabels⟩ := ih hrest fun new hnew => hins new (List.mem_cons_of_mem _ hnew)
    rcases WorkerStatement.exec_messages hfirst with hsame | ⟨new, rfl, hfresh, hmsg⟩
    · rw [gate, hsame] at hrun
      exact ⟨tr, hrun, hlabels⟩
    · rw [gate, hmsg] at hrun
      obtain ⟨tr₁, hrun₁, hlabels₁⟩ := (hins new List.mem_cons_self).seen hfresh
      refine ⟨tr₁ ++ tr, hrun₁.append hrun, ?_⟩
      rw [List.forall_mem_append]
      exact ⟨hlabels₁, hlabels⟩

/-- A decision is one of the two that the page offers. -/
lemma Txn.messageDecide_decision {env : WebEnv} {messageId : Uuid} {decision : PyStr} {s s' : Db}
    (h : (Txn.messageDecide env messageId decision).Step s s') :
    ∃ release : Bool,
      decision = if release then State.approved.value else State.rejected.value := by
  simp only [Txn.Step, Txn.exec] at h
  split at h
  · rename_i hdecision
    rcases List.mem_pair.1 hdecision with rfl | rfl
    · exact ⟨true, rfl⟩
    · exact ⟨false, rfl⟩
  · cases h

/-- Every transaction is seen as a run of the quarantine. -/
lemma Txn.seen {t : Txn} {s s' : Db} (h : t.Step s s') (hs : s.Valid) :
    t.Seen (gate s) (gate s') := by
  cases Txn.mailEffect h with
  | updates hupd =>
    rw [gate, gate, hupd.messages.1]
    exact .refl t _
  | ingest hacc => exact Txn.Inserts.seen rfl fun m hm => (hacc.fresh m hm).1
  | worker hbody => exact workerTransaction_seen hbody fun new hnew => ⟨new, hnew, rfl⟩
  | newMailbox hins =>
    obtain ⟨-, -, rfl⟩ := Db.insertMailbox_eq_ok.1 hins
    exact .refl _ _
  | deletion hsame =>
    rw [gate, ← hsame.messages]
    exact Txn.seen_filter (fun k => .inl ⟨_, _, rfl⟩) (hsame.messages ▸ hs.message_ids) _
  | decision hupd hsame =>
    obtain ⟨release, rfl⟩ := Txn.messageDecide_decision h
    obtain ⟨hid, -, rfl⟩ := Db.updateDecision_eq_ok.1 hupd
    obtain ⟨m, hm, rfl⟩ := List.mem_map.1 hid
    rw [gate, gate, hsame.messages, gateOf_decide hs.message_ids hm, standing_decision]
    refine ⟨_, .cons (.decide _ m.id release m.item ?_) (.nil _), ?_⟩
    · exact (gateOf_eq_some hs.message_ids).2 ⟨m, hm, rfl, rfl⟩
    · rw [List.forall_mem_singleton]
      exact ⟨_, rfl⟩
  | purge hbody =>
    rw [gate, gate, (purgeRetention_eq_some hs hbody).1]
    exact Txn.seen_filter (fun k => .inr ⟨_, _, _, _, rfl⟩) hs.message_ids _

/-- The installation simulates a quarantine. -/
theorem gate_simulation : Simulation Txn.Step Quarantine.Step Db.Valid gate Txn.MayCause where
  keeps _ _ _ := Txn.valid
  seen _ _ _ := Txn.seen

/-- In every run of an installation the agent can read a message exactly if it arrived with that
content, the owner released it afterwards, and neither refused nor deleted it since: the run is
seen as a run of the quarantine, step by step, and its events about the message say so. -/
theorem installationRun_quarantine {s s' : Db} {tr : List (Taken Db Txn)} (hs : s.Valid)
    (h : InstallationRun s tr s') :
    ∃ parts, List.Forall₂ (SeenAs Quarantine.Step gate Txn.MayCause) tr parts ∧
      ∀ row : ApprovedMessage, row.id ∉ s.messages.map (·.id) →
        (row ∈ s'.approvedMessages ↔ Released (history parts.flatten row.id) row.id row) := by
  obtain ⟨hend, parts, hparts, hrun⟩ := gate_simulation.run h hs
  refine ⟨parts, hparts, fun row hrow => ?_⟩
  rw [mem_approvedMessages hend]
  exact Quarantine.shown_iff hrun (gateOf_eq_none.2 hrow) row

/-- The worker stores a message, and the owner approves it. -/
theorem installationRun_quarantine_sample :
    ∃ tr s' parts row, InstallationRun sampleDb tr s' ∧
      List.Forall₂ (SeenAs Quarantine.Step gate Txn.MayCause) tr parts ∧
      row ∈ s'.approvedMessages ∧ Released (history parts.flatten row.id) row.id row := by
  have hstore : (Txn.store sampleRecord).Step sampleDb ((Txn.store sampleRecord).next sampleDb) :=
    Txn.step_next (by decide +kernel)
  have hdecide := Txn.step_next (t := .messageDecide sampleWebEnv 1 State.approved.value)
    (s := (Txn.store sampleRecord).next sampleDb) (by decide +kernel)
  have hrun : InstallationRun sampleDb _ _ := .cons hstore (.cons hdecide (.nil _))
  obtain ⟨parts, hparts, hrows⟩ := installationRun_quarantine sampleDb_valid hrun
  have hrow : ((Txn.messageDecide sampleWebEnv 1 State.approved.value).next
      ((Txn.store sampleRecord).next sampleDb)).approvedMessages ≠ [] := by
    decide +kernel
  obtain ⟨row, hrow⟩ := List.exists_mem_of_ne_nil _ hrow
  exact ⟨_, _, parts, row, hrun, hparts, hrow, (hrows row (by simp [sampleDb])).1 hrow⟩

end MailGate
