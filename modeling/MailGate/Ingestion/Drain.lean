import Mathlib.Data.List.TakeWhile
import MailGate.Approval
import MailGate.Ingestion.Columns
import MailGate.Ingestion.SyncAll

/-!
# Whether the worker catches up

A mailbox is imported in batches while mail keeps arriving.  Against a server that lists its
messages in ascending order, the cycles of the worker import them in this order, each once, a
batch in each cycle, and never go beyond the first message whose row the database refuses.
-/

namespace MailGate

open Transaction

/-! ## The server -/

/-- A mailbox of the server with all messages that arrive in it, and what the gateway makes of
each of them. -/
structure Inbox where
  validity : ℕ
  uids : List ℕ
  assessed : ℕ → Assessed
  ascending : uids.Pairwise (· < ·)
  positive : ∀ uid ∈ uids, 0 < uid

namespace Inbox

variable (inbox : Inbox)

/-- The UIDs in the range `first:*` when so many messages have arrived; a range above all UIDs
stands for the last one. -/
def range (arrived first : ℕ) : List ℕ :=
  let above := (inbox.uids.take arrived).filter (first ≤ ·)
  if above = [] then (inbox.uids.take arrived).getLast?.toList else above

/-- The cursor behind so many messages. -/
def position (p : ℕ) : ℕ := (inbox.uids.take p).getLast?.getD 0

/-- What is stored of a message, apart from identifiers and times. -/
def record (id uid : ℕ) : StoreArgs where
  mailboxId := id
  uidValidity := inbox.validity
  uid := uid
  expectedConfigVersion := 0
  assessed := inbox.assessed uid
  newId := 0
  decidedAt := 0
  ingestedAt := 0
  auditAt := 0

/-- The database takes the row of the message. -/
def storable (uid : ℕ) : Bool := (inbox.record 0 uid).Fitting

/-- The number of messages before the first one that the database refuses. -/
def passable : ℕ := (inbox.uids.takeWhile inbox.storable).length

end Inbox

/-- The mailbox is reached with its password, and the server answers as one with this inbox when
so many of its messages have arrived. -/
structure Serves (inbox : Inbox) (arrived : ℕ) (mailbox : Mailbox) (env : SyncEnv) : Prop where
  host : mailbox.host = env.allowedHost
  port : mailbox.port = 993
  connect : env.imap.connect = .ok ()
  login : ∃ password, env.decryptSecret mailbox.passwordEncrypted = .ok password ∧
    env.imap.login mailbox.username password = .ok (py "OK")
  select : env.imap.select = .ok (py "OK")
  validity : (env.imap.response >>= uidvalidity) = .ok inbox.validity
  search : ∀ lastUid, ∃ values,
    env.imap.uid 0 (.search (searchCriteria lastUid)) = .ok (py "OK", values) ∧
      listedUids (responseBytes values) = .ok (inbox.range arrived (lastUid + 1))
  fetch : ∀ tick, ∀ uid ∈ inbox.uids.take arrived, ∃ item,
    fetchMessage env tick uid = .ok item ∧
      processMessage env.lib (env.resolver tick) (trustedIds env.lib mailbox) item =
        inbox.assessed uid

/-! ## Ascending lists -/

section Ascending

variable {uids : List ℕ} {p : ℕ}

lemma le_getLast_of_ascending (h : uids.Pairwise (· < ·)) :
    ∀ uid ∈ uids, uid ≤ uids.getLast?.getD 0 := by
  rcases List.eq_nil_or_concat' uids with rfl | ⟨init, last, rfl⟩
  · simp
  · rw [List.getLast?_concat, Option.getD_some]
    intro uid huid
    rcases List.mem_append.1 huid with huid | huid
    · exact ((List.pairwise_append.1 h).2.2 uid huid last (List.mem_singleton_self _)).le
    · exact (List.mem_singleton.1 huid).le

/-- What lies above the last of the first UIDs is what comes behind them. -/
lemma filter_above_take (h : uids.Pairwise (· < ·)) (hpos : ∀ uid ∈ uids, 0 < uid) (p : ℕ) :
    uids.filter ((uids.take p).getLast?.getD 0 < ·) = uids.drop p := by
  have hsplit : (uids.take p ++ uids.drop p).Pairwise (· < ·) := by rwa [List.take_append_drop]
  obtain ⟨hfirst, -, hcross⟩ := List.pairwise_append.1 hsplit
  have hbelow : ∀ uid ∈ uids.take p, ¬ (uids.take p).getLast?.getD 0 < uid := fun uid huid =>
    not_lt.2 (le_getLast_of_ascending hfirst uid huid)
  have habove : ∀ uid ∈ uids.drop p, (uids.take p).getLast?.getD 0 < uid := by
    intro uid huid
    cases hlast : (uids.take p).getLast? with
    | none => exact hpos uid (List.mem_of_mem_drop huid)
    | some last => exact hcross last (List.mem_of_getLast? hlast) uid huid
  calc uids.filter ((uids.take p).getLast?.getD 0 < ·)
      = (uids.take p ++ uids.drop p).filter ((uids.take p).getLast?.getD 0 < ·) := by
        rw [List.take_append_drop]
    _ = uids.drop p := by
        rw [List.filter_append, List.filter_eq_nil_iff.2 (by simpa using hbelow),
          List.filter_eq_self.2 (by simpa using habove), List.nil_append]

/-- The largest of an ascending list above a cursor is its last. -/
lemma foldl_max_of_ascending (h : uids.Pairwise (· < ·)) {cursor : ℕ}
    (hcursor : ∀ uid ∈ uids, cursor < uid) : uids.foldl max cursor = uids.getLast?.getD cursor := by
  rcases List.eq_nil_or_concat' uids with rfl | ⟨init, last, rfl⟩
  · rfl
  · rw [List.foldl_concat, List.getLast?_concat, Option.getD_some]
    have hinit : init.foldl max cursor < last := foldl_max_lt.2
      ⟨hcursor last (by simp), fun uid huid =>
        (List.pairwise_append.1 h).2.2 uid huid last (List.mem_singleton_self _)⟩
    exact max_eq_right hinit.le

end Ascending

/-! ## The plan of a run -/

namespace Inbox

variable {inbox : Inbox} {arrived p : ℕ}

/-- The batch of a run whose cursor stands behind so many messages. -/
def batch (inbox : Inbox) (arrived p batchSize : ℕ) : List ℕ :=
  (inbox.uids.take (min (p + batchSize) arrived)).drop p

lemma filter_range (hp : p ≤ arrived) :
    (inbox.range arrived (inbox.position p + 1)).filter (inbox.position p < ·) =
      (inbox.uids.take arrived).drop p := by
  have htake : (inbox.uids.take arrived).take p = inbox.uids.take p := by
    rw [List.take_take, min_eq_left hp]
  have hdrop := filter_above_take (inbox.ascending.sublist (List.take_sublist arrived _))
    (fun uid huid => inbox.positive uid (List.mem_of_mem_take huid)) p
  rw [htake, ← position] at hdrop
  rw [range]
  simp only [Nat.succ_le_iff]
  split
  · -- the range is above all UIDs, and the server answers with the last one
    rename_i hempty
    rw [hempty] at hdrop
    rw [← hdrop]
    cases hlast : (inbox.uids.take arrived).getLast? with
    | none => rfl
    | some last =>
      have hnot := List.filter_eq_nil_iff.1 hempty last (List.mem_of_getLast? hlast)
      simpa using hnot
  · rw [List.filter_filter, ← hdrop]
    simp

lemma batch_eq (batchSize : ℕ) :
    ((inbox.uids.take arrived).drop p).take batchSize = inbox.batch arrived p batchSize := by
  rw [batch, List.take_drop, List.take_take]

end Inbox

section Run

variable {inbox : Inbox} {arrived batchSize : ℕ} {env : SyncEnv} {mailbox : Mailbox} {s : Db}

/-- The plan of a run against this server. -/
lemma Serves.plan (h : Serves inbox arrived mailbox env) {p : ℕ} (hp : p ≤ arrived)
    (hcursor : cursorUnder mailbox inbox.validity = inbox.position p) (batchSize : ℕ) :
    ∃ password, env.decryptSecret mailbox.passwordEncrypted = .ok password ∧
      planSync env mailbox password batchSize =
        .ok ⟨inbox.validity, inbox.position p, inbox.batch arrived p batchSize⟩ := by
  obtain ⟨password, hpassword, hlogin⟩ := h.login
  obtain ⟨data, hdata, hvalidity⟩ := Exceptions.bind_eq_ok.1 h.validity
  obtain ⟨values, hsearch, hlisted⟩ := h.search (inbox.position p)
  have hopen : openImap env mailbox = .ok () := by
    rw [openImap, if_neg (by simp [h.host, h.port]), h.connect]
  have huids : selectUids values (inbox.position p) batchSize =
      .ok (inbox.batch arrived p batchSize) := by
    rw [selectUids, hlisted, Exceptions.ok_bind, Inbox.filter_range hp, Inbox.batch_eq]
    rfl
  refine ⟨password, hpassword, ?_⟩
  simp only [planSync, hopen, Exceptions.ok_bind, hlogin, ne_eq, not_true_eq_false, if_false,
    h.select, hdata, hvalidity, hcursor, hsearch, huids]
  rfl

/-! ## The messages of a run -/

/-- What the table tells of the messages of a mailbox. -/
def mailRecords (id : ℕ) (db : Db) : List ((ℕ × ℕ × ℕ) × MessageContent) :=
  (ownMail id db).map fun m => (m.key, m.content)

/-- What the table tells of a message of the inbox. -/
def Inbox.entry (inbox : Inbox) (id uid : ℕ) : (ℕ × ℕ × ℕ) × MessageContent :=
  ((inbox.record id uid).storedRow.key, (inbox.record id uid).storedRow.content)

lemma stored_iff_mem_mailRecords {id validity uid : ℕ} :
    s.Stored (id, validity, uid) ↔ (id, validity, uid) ∈ (mailRecords id s).map (·.1) := by
  rw [mailRecords, List.map_map, List.mem_map]
  constructor
  · rintro ⟨m, hm, hkey⟩
    exact ⟨m, List.mem_filter.2 ⟨hm, decide_eq_true (congrArg Prod.fst hkey)⟩, hkey⟩
  · rintro ⟨m, hm, hkey⟩
    exact ⟨m, List.mem_of_mem_filter hm, hkey⟩

/-- Whether a row fits is settled by what is stored, and not by identifiers and times. -/
lemma fitting_congr {a b : StoreArgs} (hassessed : a.assessed = b.assessed)
    (hvalidity : a.uidValidity = b.uidValidity) (huid : a.uid = b.uid) :
    a.Fitting ↔ b.Fitting := by
  obtain ⟨id, validity, uid, version, assessed, newId, decidedAt, ingestedAt, auditAt⟩ := a
  obtain ⟨id', validity', uid', version', assessed', newId', decidedAt', ingestedAt', auditAt'⟩ := b
  subst hassessed hvalidity huid
  simp only [StoreArgs.Fitting, StoreArgs.attachmentRows, List.forall_mem_map]
  rfl

/-- A message of the inbox that the run has fetched. -/
lemma Serves.fetched (h : Serves inbox arrived mailbox env) {uid : ℕ}
    (huid : uid ∈ inbox.uids.take arrived) (tick : ℕ) :
    ∃ item, fetchMessage env tick uid = .ok item ∧
      ((storeArgs env mailbox inbox.validity uid tick item).Fitting ↔ inbox.storable uid = true) ∧
      (storeArgs env mailbox inbox.validity uid tick item).storedRow.key =
        (inbox.entry mailbox.id uid).1 ∧
      (storeArgs env mailbox inbox.validity uid tick item).storedRow.content =
        (inbox.entry mailbox.id uid).2 := by
  obtain ⟨item, hfetch, hassessed⟩ := h.fetch tick uid huid
  refine ⟨item, hfetch, ?_, rfl, ?_⟩
  · rw [Inbox.storable, decide_eq_true_eq]
    exact fitting_congr hassessed rfl rfl
  · simp only [Inbox.entry, Message.content, StoreArgs.storedRow, forceWorkerQuarantine, if_true,
      StoreArgs.messageRow, storeArgs, Inbox.record, hassessed]

/-- What a message of the inbox does to the table: it is there, it is new and stored, or it is
refused. -/
lemma Serves.transaction (h : Serves inbox arrived mailbox env) {uid : ℕ}
    (huid : uid ∈ inbox.uids.take arrived) (tick : ℕ) {row : Mailbox}
    (hrow : rowsOf s (.row mailbox.id) = some row) (hguard : guardsMailbox mailbox row = true)
    (hfree : ∀ m ∈ s.messages, m.id ≠ env.uuid4 tick) (hs : s.Valid) :
    ∃ item, fetchMessage env tick uid = .ok item ∧
      let a := storeArgs env mailbox inbox.validity uid tick item
      (s.Stored (mailbox.id, inbox.validity, uid) → a.transaction s = .ok (false, s)) ∧
      (¬ s.Stored (mailbox.id, inbox.validity, uid) → inbox.storable uid = true →
        ∃ s', a.transaction s = .ok (true, s') ∧ s'.Valid ∧ s'.mailboxes = s.mailboxes ∧
          mailRecords mailbox.id s' = mailRecords mailbox.id s ++ [inbox.entry mailbox.id uid] ∧
          ∀ m ∈ s'.messages, m ∈ s.messages ∨ m.id = env.uuid4 tick) ∧
      (¬ s.Stored (mailbox.id, inbox.validity, uid) → inbox.storable uid = false →
        a.transaction s = .error .database) := by
  obtain ⟨item, hfetch, hfits, hkey, hcontent⟩ := h.fetched huid tick
  have hlock : ∃ m ∈ s.mailboxes,
      (storeArgs env mailbox inbox.validity uid tick item).locks m :=
    ⟨row, (rowsOf_eq_some hrow).1, hguard⟩
  refine ⟨item, hfetch, ?_, ?_, ?_⟩
  · intro hstored
    rw [StoreArgs.transaction, if_neg (not_not_intro hlock)]
    exact if_pos hstored
  -- a new message is appended to those of the mailbox
  · intro hnew hstorable
    rw [StoreArgs.transaction_new hlock hnew, if_pos ⟨hfits.2 hstorable, hfree⟩]
    have hnew' : ∀ m ∈ s.messages, m.key ≠ _ := fun m hm hkey => hnew ⟨m, hm, hkey⟩
    refine ⟨_, rfl, StoreArgs.ingest_valid hs ⟨hlock, fun m hm => ⟨hfree m hm, hnew' m hm⟩,
      (hfits.2 hstorable).1, (hfits.2 hstorable).2⟩, rfl, ?_, ?_⟩
    · have hmail : ownMail mailbox.id
          ((storeArgs env mailbox inbox.validity uid tick item).ingest s) = _ := ownMail_ingest rfl
      rw [mailRecords, hmail, List.map_append, List.map_singleton, hkey, hcontent]
      rfl
    · intro m hm
      rcases List.mem_append.1 hm with hm | hm
      · exact .inl hm
      · rw [List.mem_singleton.1 hm]
        exact .inr rfl
  · intro hnew hrefused
    rw [StoreArgs.transaction_new hlock hnew, if_neg]
    rw [hfits, hrefused]
    simp

/-- What the loop leaves: the rows of the messages before the first one that is refused, where
they were not there. -/
structure Imports (inbox : Inbox) (id : ℕ) (uids : List ℕ) (s s' : Db) : Prop where
  valid : s'.Valid
  mailboxes : s'.mailboxes = s.mailboxes
  records : mailRecords id s' = mailRecords id s ++
    ((uids.takeWhile inbox.storable).filter fun uid => ¬ s.Stored (id, inbox.validity, uid)).map
      (inbox.entry id)

lemma filter_stored_congr {id : ℕ} {uids : List ℕ} {t : Db}
    (h : ∀ uid ∈ uids, t.Stored (id, inbox.validity, uid) ↔ s.Stored (id, inbox.validity, uid)) :
    ((uids.takeWhile inbox.storable).filter fun uid => ¬ t.Stored (id, inbox.validity, uid)) =
      (uids.takeWhile inbox.storable).filter fun uid => ¬ s.Stored (id, inbox.validity, uid) := by
  refine List.filter_congr fun uid huid => ?_
  exact decide_eq_decide.2 (not_congr (h uid ((List.takeWhile_prefix _).subset huid)))

/-- The loop over messages of the inbox imports them up to the first one that is refused, where
it raises. -/
lemma Serves.syncUids_run (h : Serves inbox arrived mailbox env)
    (hids : ∀ i < batchSize, ∀ j < batchSize, env.uuid4 i = env.uuid4 j → i = j)
    {row : Mailbox} (hguard : guardsMailbox mailbox row = true) (uids : List ℕ)
    (tick created lastUid : ℕ) (hlength : tick + uids.length ≤ batchSize) (hs : s.Valid)
    (hrow : rowsOf s (.row mailbox.id) = some row) (hunused : Unused env.uuid4 batchSize tick s)
    (hsub : ∀ uid ∈ uids, uid ∈ inbox.uids.take arrived) (hnodup : uids.Nodup)
    (hstored : ∀ uid ∈ uids, s.Stored (mailbox.id, inbox.validity, uid) →
      inbox.storable uid = true) :
    ∃ r s', (syncUids env mailbox inbox.validity tick uids created lastUid).run s = (r, s') ∧
      Imports inbox mailbox.id uids s s' ∧
      ((∀ uid ∈ uids, inbox.storable uid = true) →
        ∃ n, r = .ok (n, uids.foldl max lastUid)) ∧
      ((∃ uid ∈ uids, inbox.storable uid = false) → r = .error .database) := by
  induction uids generalizing tick created lastUid s with
  | nil => exact ⟨_, s, rfl, ⟨hs, rfl, by simp⟩, fun _ => ⟨created, rfl⟩, by simp⟩
  | cons uid uids ih =>
    rw [List.length_cons] at hlength
    rw [List.forall_mem_cons] at hsub hstored
    rw [List.nodup_cons] at hnodup
    obtain ⟨item, hfetch, hold, hnew, hrefused⟩ := h.transaction hsub.1 tick hrow hguard
      (fun m hm => hunused tick le_rfl (by omega) m hm) hs
    have hboxes : ∀ {s₁ : Db}, s₁.mailboxes = s.mailboxes →
        rowsOf s₁ (.row mailbox.id) = some row := fun hsame => by rw [rowsOf, hsame]; exact hrow
    simp only [syncUids, hfetch, Prog.compute_ok_bind]
    by_cases hin : s.Stored (mailbox.id, inbox.validity, uid)
    · -- the message was imported by an earlier run
      have hok := hstored.1 hin
      have hlater : Unused env.uuid4 batchSize (tick + 1) s :=
        fun i hi => hunused i (by omega)
      obtain ⟨r, s', hrun, himports, hreturns, hraises⟩ := ih (tick + 1)
        (created + false.toNat) (max lastUid uid) (by omega) hs hrow hlater
        hsub.2 hnodup.2 hstored.2
      refine ⟨r, s', ?_, ⟨himports.valid, himports.mailboxes, ?_⟩, fun hall => ?_, fun hbad => ?_⟩
      · rw [storeMessage, run_atomic_bind_ok (hold hin), hrun]
      · rw [himports.records, List.takeWhile_cons_of_pos hok,
          List.filter_cons_of_neg (by simpa using hin)]
      · exact hreturns fun u hu => hall u (List.mem_cons_of_mem _ hu)
      · obtain ⟨u, hu, hubad⟩ := hbad
        rcases List.mem_cons.1 hu with rfl | hu
        · rw [hok] at hubad
          cases hubad
        · exact hraises ⟨u, hu, hubad⟩
    cases hok : inbox.storable uid with
    | true =>
      obtain ⟨s₁, hcommit, hs₁, hsame, hrecords, hmessages⟩ := hnew hin hok
      -- the new row is that of no later message
      have hkeys : ∀ u ∈ uids, s₁.Stored (mailbox.id, inbox.validity, u) ↔
          s.Stored (mailbox.id, inbox.validity, u) := by
        intro u hu
        have hne : u ≠ uid := fun heq => hnodup.1 (heq ▸ hu)
        rw [stored_iff_mem_mailRecords, stored_iff_mem_mailRecords, hrecords, List.map_append,
          List.mem_append, or_iff_left]
        rw [List.map_singleton, List.mem_singleton]
        exact fun heq => hne (Prod.mk.inj (Prod.mk.inj heq).2).2
      obtain ⟨r, s', hrun, himports, hreturns, hraises⟩ := ih (tick + 1)
        (created + true.toNat) (max lastUid uid) (by omega) hs₁ (hboxes hsame)
        (hunused.step hids (by omega) hmessages) hsub.2 hnodup.2
        fun u hu hu' => hstored.2 u hu ((hkeys u hu).1 hu')
      refine ⟨r, s', ?_, ⟨himports.valid, himports.mailboxes.trans hsame, ?_⟩, fun hall => ?_,
        fun hbad => ?_⟩
      · rw [storeMessage, run_atomic_bind_ok hcommit, hrun]
      · rw [himports.records, hrecords, filter_stored_congr hkeys, List.takeWhile_cons_of_pos hok,
          List.filter_cons_of_pos (by simpa using hin), List.map_cons, List.append_assoc]
        rfl
      · exact hreturns fun u hu => hall u (List.mem_cons_of_mem _ hu)
      · obtain ⟨u, hu, hubad⟩ := hbad
        rcases List.mem_cons.1 hu with rfl | hu
        · rw [hok] at hubad
          cases hubad
        · exact hraises ⟨u, hu, hubad⟩
    | false =>
      refine ⟨_, s, ?_, ⟨hs, rfl, ?_⟩, fun hall => ?_, fun _ => rfl⟩
      · rw [storeMessage, run_atomic_bind_error (hrefused hin hok)]
      · rw [List.takeWhile_cons_of_neg (by simp [hok])]
        simp
      · rw [hall uid List.mem_cons_self] at hok
        cases hok

end Run

/-! ## One run -/

/-- So many messages of the inbox are imported, and the cursor stands behind so many.  They
differ where the next message is refused. -/
structure Progress (inbox : Inbox) (id : ℕ) (base : List ((ℕ × ℕ × ℕ) × MessageContent))
    (cursor imported : ℕ) (s : Db) : Prop where
  valid : s.Valid
  row : ∃ row, rowsOf s (.row id) = some row ∧ row.enabled = true ∧ row.Fits ∧
    cursorUnder row inbox.validity = inbox.position cursor
  records : mailRecords id s = base ++ (inbox.uids.take imported).map (inbox.entry id)

section Progress

variable {inbox : Inbox} {id p m arrived batchSize : ℕ}
  {base : List ((ℕ × ℕ × ℕ) × MessageContent)} {s s' : Db} {env : SyncEnv} {mailbox : Mailbox}

lemma Progress.stored_iff (h : Progress inbox id base p m s)
    (hbase : ∀ uid, (id, inbox.validity, uid) ∉ base.map (·.1)) {uid : ℕ} :
    s.Stored (id, inbox.validity, uid) ↔ uid ∈ inbox.uids.take m := by
  rw [stored_iff_mem_mailRecords, h.records, List.map_append, List.mem_append,
    or_iff_right (hbase uid), List.map_map, List.mem_map]
  constructor
  · rintro ⟨u, hu, heq⟩
    rwa [← (Prod.mk.inj (Prod.mk.inj heq).2).2]
  · exact fun huid => ⟨uid, huid, rfl⟩

namespace Inbox

lemma take_passable : inbox.uids.take inbox.passable = inbox.uids.takeWhile inbox.storable :=
  (List.prefix_iff_eq_take.1 (List.takeWhile_prefix _)).symm

/-- The first messages of the inbox can be stored. -/
lemma storable_of_mem_take {n : ℕ} (hn : n ≤ inbox.passable) :
    ∀ uid ∈ inbox.uids.take n, inbox.storable uid = true := by
  intro uid huid
  have hmem := (List.take_prefix_take_left hn).subset huid
  rw [take_passable] at hmem
  exact List.mem_takeWhile_imp hmem

/-- The message behind them is refused. -/
lemma exists_refused {n : ℕ} (hp : p ≤ inbox.passable) (hn : inbox.passable < n)
    (hlength : n ≤ inbox.uids.length) :
    ∃ uid ∈ (inbox.uids.take n).drop p, inbox.storable uid = false := by
  by_contra hall
  push Not at hall
  have htake : inbox.uids.take n = (inbox.uids.take n).takeWhile inbox.storable := by
    refine (List.takeWhile_eq_self_iff.2 fun uid huid => ?_).symm
    rw [← List.take_append_drop p (inbox.uids.take n), List.mem_append, List.take_take] at huid
    rcases huid with huid | huid
    · exact storable_of_mem_take ((Nat.min_le_left p n).trans hp) uid huid
    · simpa using hall uid huid
  have hle : ((inbox.uids.take n).takeWhile inbox.storable).length ≤ inbox.passable := by
    rw [← List.take_takeWhile, List.length_take]
    exact Nat.min_le_right _ _
  rw [← htake, List.length_take, Nat.min_eq_left hlength] at hle
  omega

/-- The part of a batch before the first message that is refused. -/
lemma takeWhile_batch (hp : p ≤ inbox.passable) :
    (inbox.batch arrived p batchSize).takeWhile inbox.storable =
      (inbox.uids.take (min (min (p + batchSize) arrived) inbox.passable)).drop p := by
  have hfirst : ∀ uid ∈ (inbox.uids.take (min (p + batchSize) arrived)).take p,
      inbox.storable uid = true := by
    rw [List.take_take]
    exact storable_of_mem_take ((Nat.min_le_left _ _).trans hp)
  have hall : (inbox.uids.take (min (p + batchSize) arrived)).takeWhile inbox.storable =
      inbox.uids.take (min (min (p + batchSize) arrived) inbox.passable) := by
    rw [← List.take_takeWhile, ← take_passable, List.take_take]
  rw [← hall, batch]
  generalize inbox.uids.take (min (p + batchSize) arrived) = uids at hfirst
  by_cases hlength : p ≤ uids.length
  · conv_rhs => rw [← List.take_append_drop p uids, List.takeWhile_append_of_pos hfirst]
    rw [List.drop_left' (by simp [hlength])]
  · rw [List.drop_eq_nil_of_le (by omega), List.drop_eq_nil_of_le]
    · rfl
    · have := (List.takeWhile_prefix inbox.storable (l := uids)).length_le
      omega

end Inbox

/-- The new rows of a batch are those behind the messages that are imported. -/
lemma Progress.filter_batch (h : Progress inbox id base p m s)
    (hbase : ∀ uid, (id, inbox.validity, uid) ∉ base.map (·.1)) {n : ℕ} (hp : p ≤ m)
    (hn : n = min (min (p + batchSize) arrived) inbox.passable) (hm : m ≤ n) :
    (inbox.uids.take m).map (inbox.entry id) ++
        (((inbox.batch arrived p batchSize).takeWhile inbox.storable).filter fun uid =>
          ¬ s.Stored (id, inbox.validity, uid)).map (inbox.entry id) =
      (inbox.uids.take n).map (inbox.entry id) := by
  have hnk : n ≤ inbox.passable := hn ▸ Nat.min_le_right _ _
  have hnodup : (inbox.uids.take n).Nodup :=
    (inbox.ascending.imp fun hlt => hlt.ne).sublist (List.take_sublist n _)
  have htake : inbox.uids.take m = (inbox.uids.take n).take m := by
    rw [List.take_take, Nat.min_eq_left hm]
  rw [Inbox.takeWhile_batch (by omega), ← hn, ← List.map_append]
  congr 1
  have hfilter : ((inbox.uids.take n).drop p).filter
        (fun uid => ¬ s.Stored (id, inbox.validity, uid)) =
      ((inbox.uids.take n).drop p).filter fun uid => uid ∉ (inbox.uids.take n).take m := by
    refine List.filter_congr fun uid _ => decide_eq_decide.2 (not_congr ?_)
    rw [h.stored_iff hbase, htake]
  rw [hfilter, htake]
  generalize inbox.uids.take n = uids at hnodup
  rw [← List.take_append_drop m uids, List.nodup_append] at hnodup
  obtain ⟨-, -, hcross⟩ := hnodup
  -- the batch: what is imported already, and what is not
  have hsplit : uids.drop p = (uids.take m).drop p ++ uids.drop m := by
    have hrest : uids.drop m = (uids.drop p).drop (m - p) := by
      rw [List.drop_drop, Nat.add_sub_cancel' hp]
    rw [List.drop_take, hrest, List.take_append_drop]
  rw [hsplit, List.filter_append, List.filter_eq_nil_iff.2, List.filter_eq_self.2, List.nil_append,
    List.take_append_drop]
  · intro uid huid
    exact decide_eq_true fun hmem => hcross uid hmem uid huid rfl
  · intro uid huid
    simp [List.mem_of_mem_drop huid]

/-- The cursor after a batch whose messages are all stored. -/
lemma Inbox.foldl_batch (hp : p ≤ min (p + batchSize) arrived) :
    (inbox.batch arrived p batchSize).foldl max (inbox.position p) =
      inbox.position (min (p + batchSize) arrived) := by
  generalize hn : min (p + batchSize) arrived = n at hp
  have hascending := inbox.ascending.sublist (List.take_sublist n _)
  have htake : (inbox.uids.take n).take p = inbox.uids.take p := by
    rw [List.take_take, Nat.min_eq_left hp]
  have habove : ∀ uid ∈ inbox.batch arrived p batchSize, inbox.position p < uid := by
    intro uid huid
    rw [Inbox.batch, hn, ← filter_above_take hascending
      (fun u hu => inbox.positive u (List.mem_of_mem_take hu)) p, htake] at huid
    exact of_decide_eq_true (List.mem_filter.1 huid).2
  rw [foldl_max_of_ascending (hascending.sublist (hn ▸ List.drop_sublist p _)) habove]
  simp only [Inbox.batch, hn, Inbox.position]
  conv_rhs => rw [← List.take_append_drop p (inbox.uids.take n), htake, List.getLast?_append]
  cases ((inbox.uids.take n).drop p).getLast? <;> rfl

lemma Inbox.le_maxBigint {n : ℕ} (hn : n ≤ inbox.passable) :
    ∀ uid ∈ inbox.uids.take n, inbox.validity ≤ maxBigint ∧ uid ≤ maxBigint := by
  intro uid huid
  have hfits := Inbox.storable_of_mem_take hn uid huid
  rw [Inbox.storable, decide_eq_true_eq] at hfits
  exact hfits.1.2.2

lemma guardsMailbox_self (h : mailbox.enabled = true) : guardsMailbox mailbox mailbox = true := by
  simp [guardsMailbox, h]

/-- The final update of a run moves the cursor behind its batch. -/
lemma Progress.moved (h : Progress inbox mailbox.id base p m s) (env : SyncEnv)
    (hrow : rowsOf s (.row mailbox.id) = some mailbox) {n : ℕ} (hp : p ≤ n)
    (hn : n ≤ inbox.passable) (hlength : n ≤ inbox.uids.length) :
    (∃ s', updateGuarded mailbox (setCursor env inbox.validity (inbox.position n)) s = .ok (1, s') ∧
        Progress inbox mailbox.id base n m s') ∨
      updateGuarded mailbox (setCursor env inbox.validity (inbox.position n)) s =
          .error .database ∧ n = p := by
  obtain ⟨row, hrow', henabled, hfits, hcursor⟩ := h.row
  obtain rfl : row = mailbox := Option.some.inj (hrow'.symm.trans hrow)
  have hguard := guardsMailbox_self henabled
  by_cases hset : (setCursor env inbox.validity (inbox.position n) row).Fits
  · obtain ⟨s', hupd⟩ := updateGuarded_met h.valid hrow hguard hset
    obtain ⟨hmsg, -, -⟩ := updateGuarded_frame hupd
    refine .inl ⟨s', hupd, updateGuarded_valid h.valid hupd fun _ => rfl, ?_, ?_⟩
    · have hrows := rowsOf_updateMailboxes (updateGuarded_eq_ok.1 hupd) (by exact fun _ _ _ => rfl)
        (.row row.id)
      have hcolumns : (setCursor env inbox.validity (inbox.position n) row).securityColumns =
          row.securityColumns := rfl
      rw [hrow, Option.map_some, if_pos hguard, bumpMailboxConfigVersion_of_same hcolumns] at hrows
      exact ⟨_, hrows, henabled, hset, if_pos rfl⟩
    · rw [mailRecords, ownMail, hmsg]
      exact h.records
  · -- only a cursor that stays where it was can be refused
    refine .inr ⟨updateGuarded_refused hrow hguard hset, ?_⟩
    by_contra hne
    refine hset ((setCursor_fits hfits).2 ?_)
    have hlast : inbox.position n ∈ inbox.uids.take n := by
      rw [Inbox.position]
      cases hlast : (inbox.uids.take n).getLast? with
      | none =>
        rw [List.getLast?_eq_none_iff, List.take_eq_nil_iff] at hlast
        rcases hlast with rfl | hnil
        · omega
        · rw [hnil, List.length_nil] at hlength
          omega
      | some last => exact List.mem_of_getLast? hlast
    exact Inbox.le_maxBigint hn _ hlast

/-- What the loop of a run imports. -/
lemma Serves.loop_progress (h : Serves inbox arrived mailbox env)
    (hids : ∀ i < batchSize, ∀ j < batchSize, env.uuid4 i = env.uuid4 j → i = j)
    (hunused : Unused env.uuid4 batchSize 0 s)
    (hbase : ∀ uid, (mailbox.id, inbox.validity, uid) ∉ base.map (·.1))
    (hs : Progress inbox mailbox.id base p m s) (hrow : rowsOf s (.row mailbox.id) = some mailbox)
    (harrived : arrived ≤ inbox.uids.length) (hp : p ≤ m)
    (hm : m ≤ min (min (p + batchSize) arrived) inbox.passable) :
    ∃ r s', (syncUids env mailbox inbox.validity 0 (inbox.batch arrived p batchSize) 0
          (inbox.position p)).run s = (r, s') ∧
      Progress inbox mailbox.id base p (min (min (p + batchSize) arrived) inbox.passable) s' ∧
      rowsOf s' (.row mailbox.id) = some mailbox ∧
      (min (p + batchSize) arrived ≤ inbox.passable →
        ∃ n, r = .ok (n, inbox.position (min (p + batchSize) arrived))) ∧
      (inbox.passable < min (p + batchSize) arrived → r = .error .database) := by
  obtain ⟨row, hrow', henabled, hfits, hcursor⟩ := hs.row
  obtain rfl : row = mailbox := Option.some.inj (hrow'.symm.trans hrow)
  have hlength : (inbox.batch arrived p batchSize).length ≤ batchSize := by
    rw [Inbox.batch, List.length_drop, List.length_take]
    omega
  have hsub : ∀ uid ∈ inbox.batch arrived p batchSize, uid ∈ inbox.uids.take arrived := by
    intro uid huid
    exact (List.take_prefix_take_left (Nat.min_le_right _ _)).subset (List.mem_of_mem_drop huid)
  have hnodup : (inbox.batch arrived p batchSize).Nodup :=
    (inbox.ascending.imp fun hlt => hlt.ne).sublist
      ((List.drop_sublist _ _).trans (List.take_sublist _ _))
  have hstored : ∀ uid ∈ inbox.batch arrived p batchSize,
      s.Stored (row.id, inbox.validity, uid) → inbox.storable uid = true := by
    intro uid _ hst
    exact Inbox.storable_of_mem_take (by omega) uid ((hs.stored_iff hbase).1 hst)
  -- of the batch, what precedes the refused message is stored
  obtain ⟨r, s', hloop, himports, hreturns, hraises⟩ := h.syncUids_run hids
    (guardsMailbox_self henabled) _ 0 0 (inbox.position p) (by omega) hs.valid hrow hunused hsub
      hnodup hstored
  have hkept : rowsOf s' (.row row.id) = some row := by
    rw [rowsOf, himports.mailboxes]
    exact hrow
  refine ⟨r, s', hloop, ⟨himports.valid, ⟨row, hkept, henabled, hfits, hcursor⟩, ?_⟩, hkept,
    fun hpass => ?_, fun hblocked => ?_⟩
  · rw [himports.records, hs.records, List.append_assoc, hs.filter_batch hbase hp rfl hm]
  · rw [← Inbox.foldl_batch (by omega)]
    exact hreturns fun uid huid =>
      Inbox.storable_of_mem_take hpass uid (List.mem_of_mem_drop huid)
  · exact hraises (Inbox.exists_refused (by omega) hblocked (by omega))

/-- What one run imports, and where it leaves the cursor. -/
lemma Serves.run_progress (h : Serves inbox arrived mailbox env)
    (hids : ∀ i < batchSize, ∀ j < batchSize, env.uuid4 i = env.uuid4 j → i = j)
    (hunused : Unused env.uuid4 batchSize 0 s)
    (hbase : ∀ uid, (mailbox.id, inbox.validity, uid) ∉ base.map (·.1))
    (hs : Progress inbox mailbox.id base p m s) (hrow : rowsOf s (.row mailbox.id) = some mailbox)
    (harrived : arrived ≤ inbox.uids.length) (hp : p ≤ m)
    (hm : m ≤ min (min (p + batchSize) arrived) inbox.passable) :
    ∃ p', Progress inbox mailbox.id base p' (min (min (p + batchSize) arrived) inbox.passable)
        ((syncMailbox env mailbox batchSize).run s).2 ∧
      (min (p + batchSize) arrived ≤ inbox.passable ∧ p' = min (p + batchSize) arrived ∨
        inbox.passable < min (p + batchSize) arrived ∧ p' = p) := by
  obtain ⟨row, hrow', henabled, -, hcursor⟩ := hs.row
  obtain rfl : row = mailbox := Option.some.inj (hrow'.symm.trans hrow)
  obtain ⟨password, hpassword, hplan⟩ := h.plan (p := p) (by omega) hcursor batchSize
  obtain ⟨r, s₁, hloop, hs₁, hrow₁, hreturns, hraises⟩ :=
    h.loop_progress hids hunused hbase hs hrow harrived hp hm
  -- the handler of the run commits nothing where the database has refused a row
  have hrun : ∀ {r t}, (syncSelected env row
      ⟨inbox.validity, inbox.position p, inbox.batch arrived p batchSize⟩).run s = (r, t) →
      ((∃ n, r = .ok n) ∨ r = .error .database) →
      ((syncMailbox env row batchSize).run s).2 = t := by
    intro r t hbody hend
    rw [syncMailbox_eq env batchSize henabled, hpassword, Prog.compute_ok_bind,
      Prog.run_finallyDo, Prog.run_tryCatch, syncBody, hplan, Prog.compute_ok_bind, hbody]
    rcases hend with ⟨n, rfl⟩ | rfl <;> rfl
  rcases Nat.lt_or_ge inbox.passable (min (p + batchSize) arrived) with hblocked | hpass
  · rw [hrun (r := .error .database) (t := s₁) ?_ (.inr rfl)]
    · exact ⟨p, hs₁, .inr ⟨hblocked, rfl⟩⟩
    · rw [syncSelected, Prog.run_bind, hloop, hraises hblocked]
  · obtain ⟨created, hr⟩ := hreturns hpass
    rw [Nat.min_eq_left hpass] at hs₁ ⊢
    rcases hs₁.moved env hrow₁ (by omega) hpass (by omega) with
      ⟨s₂, hupd, hs₂⟩ | ⟨hupd, hsame⟩
    · rw [hrun (r := .ok created) (t := s₂) ?_ (.inl ⟨created, rfl⟩)]
      · exact ⟨_, hs₂, .inl ⟨hpass, rfl⟩⟩
      · rw [syncSelected, Prog.run_bind, hloop, hr]
        exact run_atomic_bind_ok hupd
    · rw [hrun (r := .error .database) (t := s₁) ?_ (.inr rfl)]
      · exact ⟨p, hs₁, .inl ⟨hpass, hsame.symm⟩⟩
      · rw [syncSelected, Prog.run_bind, hloop, hr]
        exact run_atomic_bind_error hupd

/-- What a run reads is the same in the other database. -/
lemma Progress.congr (h : Progress inbox id base p m s)
    (hrow : rowsOf s' (.row id) = rowsOf s (.row id))
    (hrecords : mailRecords id s' = mailRecords id s) (hvalid : s'.Valid) :
    Progress inbox id base p m s' :=
  ⟨hvalid, by rw [hrow]; exact h.row, hrecords.trans h.records⟩

end Progress

/-! ## Cycles -/

/-- Cycles of the worker on an installation whose mailbox has this inbox.  Mail goes on arriving
in it; the other mailboxes have any servers; between the cycles the installation may do anything
that leaves the row of the mailbox and what the table tells of its messages. -/
inductive Cycles (inbox : Inbox) (id : ℕ) : Db → List ℕ → Db → Prop where
  | start (s : Db) : Cycles inbox id s [] s
  | cycle {s s₁ : Db} {arrivals : List ℕ} {envs : ℕ → SyncEnv} {arrived : ℕ}
      (hcycles : Cycles inbox id s arrivals s₁) (hgrows : ∀ a ∈ arrivals, a ≤ arrived)
      (harrived : arrived ≤ inbox.uids.length) (hfresh : FreshIds envs s₁)
      (hids : ∀ i < 50, ∀ j < 50, (envs id).uuid4 i = (envs id).uuid4 j → i = j)
      (hserves : ∀ row, rowsOf s₁ (.row id) = some row → Serves inbox arrived row (envs id)) :
      Cycles inbox id s (arrivals ++ [arrived]) ((syncAllMailboxes envs).run s₁).2
  | others {s s₁ s' : Db} {arrivals : List ℕ} (hcycles : Cycles inbox id s arrivals s₁)
      (hrow : rowsOf s' (.row id) = rowsOf s₁ (.row id))
      (hrecords : mailRecords id s' = mailRecords id s₁) (hvalid : s'.Valid) :
      Cycles inbox id s arrivals s'

/-- How many messages are imported after cycles that have found so many of them arrived. -/
def imported (passable : ℕ) (arrivals : List ℕ) : ℕ :=
  arrivals.foldl (fun m arrived => min (m + 50) (min arrived passable)) 0

lemma imported_concat (passable : ℕ) (arrivals : List ℕ) (arrived : ℕ) :
    imported passable (arrivals ++ [arrived]) =
      min (imported passable arrivals + 50) (min arrived passable) := by
  rw [imported, List.foldl_concat, imported]

/-- When all messages have arrived, each cycle imports a batch. -/
lemma imported_replicate {passable length : ℕ} (hle : passable ≤ length) (n : ℕ) :
    imported passable (List.replicate n length) = min (50 * n) passable := by
  induction n with
  | zero => simp [imported]
  | succ n ih =>
    rw [List.replicate_succ', imported_concat, ih]
    omega

/-- Where the cursor stands when so many messages are imported and all of the messages that have
arrived so far are within these bounds. -/
def CursorAt (passable cursor imported : ℕ) (arrivals : List ℕ) : Prop :=
  cursor ≤ imported ∧ imported ≤ passable ∧
    (∀ arrived, (∀ a ∈ arrivals, a ≤ arrived) → imported ≤ arrived) ∧
    (cursor = imported ∨ imported = passable ∧
      ∀ arrived, (∀ a ∈ arrivals, a ≤ arrived) → passable < min (cursor + 50) arrived)

lemma Cycles.progress {inbox : Inbox} {id : ℕ} {base : List ((ℕ × ℕ × ℕ) × MessageContent)}
    {s s' : Db} {arrivals : List ℕ} (h : Cycles inbox id s arrivals s')
    (hbase : ∀ uid, (id, inbox.validity, uid) ∉ base.map (·.1))
    (hs : Progress inbox id base 0 0 s) :
    ∃ p, Progress inbox id base p (imported inbox.passable arrivals) s' ∧
      CursorAt inbox.passable p (imported inbox.passable arrivals) arrivals := by
  induction h with
  | start => exact ⟨0, hs, le_rfl, Nat.zero_le _, fun _ _ => Nat.zero_le _, .inl rfl⟩
  | others _ hrow hrecords hvalid ih =>
    obtain ⟨p, hprogress, hat⟩ := ih
    exact ⟨p, hprogress.congr hrow hrecords hvalid, hat⟩
  | @cycle s₁ arrivals envs arrived _ hgrows harrived hfresh hids hserves ih =>
    obtain ⟨p, hprogress, hp, hpass, hgrown, hcursor⟩ := ih
    have harr := hgrown arrived hgrows
    obtain ⟨row, hrow, henabled, -⟩ := hprogress.row
    obtain ⟨hmem, rfl⟩ := rowsOf_eq_some hrow
    rw [imported_concat]
    generalize imported inbox.passable arrivals = m at *
    -- the cursor is behind the imported messages, or a message of the next batch is refused
    have hnext : min (m + 50) (min arrived inbox.passable) =
        min (min (p + 50) arrived) inbox.passable := by
      rcases hcursor with rfl | ⟨rfl, hblocked⟩
      · omega
      · have := hblocked arrived hgrows
        omega
    have hm : m ≤ min (min (p + 50) arrived) inbox.passable := by omega
    obtain ⟨p', hrun, hp'⟩ := (hserves row hrow).run_progress hids
      (fun i _ _ r hr => hfresh.unused row hmem r hr i) hbase hprogress hrow harrived hp hm
    have hsame := (turns_enabled hprogress.valid hfresh).2 row
      (List.mem_filter.2 ⟨hmem, henabled⟩)
    rw [run_syncAllMailboxes, hnext]
    refine ⟨p', hrun.congr hsame.row ?_ (turns_valid hprogress.valid), ?_⟩
    · rw [mailRecords, hsame.mail, mailRecords]
      rfl
    · have hlast : ∀ later, (∀ a ∈ arrivals ++ [arrived], a ≤ later) → arrived ≤ later :=
        fun later hlater => hlater arrived (List.mem_append_right _ (List.mem_singleton_self _))
      rcases hp' with ⟨hle, rfl⟩ | ⟨hlt, rfl⟩
      · refine ⟨by omega, by omega, fun later hlater => ?_, .inl (by omega)⟩
        have := hlast later hlater
        omega
      · refine ⟨by omega, by omega, fun later hlater => ?_, .inr ⟨by omega, fun later hlater => ?_⟩⟩
        · have := hlast later hlater
          omega
        · have := hlast later hlater
          omega

/-- What is fetched of a message: one that can be parsed, or one that is too large. -/
def manyItem (uid : ℕ) : Fetched :=
  if uid = 61 then { raw := overridesRaw } else { unsafeReason := py "message_too_large" }

/-- The library that reads a sender whose name is too long for its column. -/
def manyLibrary : Library := (namedEnv (List.replicate 11 0x202E)).lib

/-- Sixty messages.  The database refuses the row of the one that can be parsed. -/
def manyInbox : Inbox where
  validity := 7
  uids := List.range' 5 60
  assessed uid := processMessage manyLibrary
    ((namedEnv (List.replicate 11 0x202E)).resolver 0) [] (manyItem uid)
  ascending := List.pairwise_lt_range'
  positive uid huid := by
    rw [List.mem_range'_1] at huid
    omega

/-- What the server answers to a search for the messages above a cursor. -/
def manyListed (arrived lastUid : ℕ) : Bytes :=
  Bytes.join (bytes " ")
    ((manyInbox.range arrived (lastUid + 1)).map fun uid => bytes (toString uid))

/-- Its server, when so many messages have arrived. -/
def manyServer (arrived : ℕ) : UidCommand → Except SyncExn (PyStr × List Item)
  | .search criteria =>
      let lastUid := ((List.range 64).find? (searchCriteria · = criteria)).getD 64
      .ok (py "OK", [.bytes (manyListed arrived lastUid)])
  | .fetchSize uid =>
      .ok (py "OK", [.bytes (if uid = py "61" then bytes "61 (RFC822.SIZE 100)"
        else bytes "5 (RFC822.SIZE 20000000)")])
  | .fetchBody _ => .ok (py "OK", [.tuple [some (bytes "61 (BODY[] {100}"), some overridesRaw]])

/-- The servers of two mailboxes in a cycle.  That of the second breaks the connection. -/
def cycleEnvs (cycle arrived id : ℕ) : SyncEnv :=
  { sampleEnv manyLibrary fun _ command =>
      if id = 1 then manyServer arrived command else .error .connection
    with uuid4 := fun n => BitVec.ofNat 128 (1000 * cycle + 100 * id + n % 50) }

lemma manyInbox_range_above {arrived lastUid : ℕ} (h : 64 ≤ lastUid) :
    manyInbox.range arrived (lastUid + 1) = manyInbox.range arrived 65 := by
  have hempty : ∀ first, 64 < first →
      (manyInbox.uids.take arrived).filter (first ≤ ·) = [] := by
    intro first hfirst
    refine List.filter_eq_nil_iff.2 fun uid huid => ?_
    have hmem : uid ∈ List.range' 5 60 := List.mem_of_mem_take huid
    rw [List.mem_range'_1] at hmem
    simp only [decide_eq_true_eq]
    omega
  rw [Inbox.range, Inbox.range, hempty _ (by omega), hempty 65 (by omega)]

/-- The server knows the cursor from the criteria. -/
lemma find_searchCriteria (lastUid : ℕ) :
    ((List.range 64).find? (searchCriteria · = searchCriteria lastUid)).getD 64 =
      min lastUid 64 := by
  have hinj : ∀ n, searchCriteria n = searchCriteria lastUid ↔ n = lastUid := by
    intro n
    rw [searchCriteria, searchCriteria, List.append_left_inj, List.append_right_inj,
      PyStr.ofNat_injective.eq_iff, Nat.add_right_cancel_iff]
  simp only [hinj]
  by_cases hlt : lastUid < 64
  · have hfind : (List.range 64).find? (fun n => decide (n = lastUid)) = some lastUid := by
      rw [List.find?_range_eq_some]
      exact ⟨decide_eq_true rfl, List.mem_range.2 hlt, fun n hn => by simp [hn.ne]⟩
    rw [hfind, Option.getD_some, min_eq_left hlt.le]
  · have hnone : (List.range 64).find? (fun n => decide (n = lastUid)) = none := by
      refine List.find?_eq_none.2 fun n hn => ?_
      rw [List.mem_range] at hn
      simp only [decide_eq_true_eq]
      omega
    rw [hnone, Option.getD_none, min_eq_right (not_lt.1 hlt)]

lemma listedUids_manyListed {arrived : ℕ} (harrived : arrived ∈ [55, 60]) (lastUid : ℕ) :
    listedUids (manyListed arrived (min lastUid 64)) =
      .ok (manyInbox.range arrived (lastUid + 1)) := by
  have hall : ∀ arrived ∈ [55, 60], ∀ lastUid ≤ 64,
      listedUids (manyListed arrived lastUid) = .ok (manyInbox.range arrived (lastUid + 1)) := by
    decide +kernel
  rw [hall arrived harrived _ (Nat.min_le_right _ _)]
  by_cases hle : lastUid ≤ 64
  · rw [min_eq_left hle]
  · rw [min_eq_right (by omega), manyInbox_range_above (show 64 ≤ lastUid by omega)]

/-- What the servers and the identifiers of a cycle rely on. -/
structure ManyReady (cycle : ℕ) (s : Db) : Prop where
  boxes : s.mailboxes.map (·.id) = [1, 2]
  settings : ∀ row ∈ s.mailboxes,
    row.host = py "imap.example.org" ∧ row.port = 993 ∧ row.trustedAuthservIds = []
  drawn : ∀ m ∈ s.messages, m.id.toNat < 1000 * cycle

instance (cycle : ℕ) (s : Db) : Decidable (ManyReady cycle s) :=
  decidable_of_iff (s.mailboxes.map (·.id) = [1, 2] ∧ (∀ row ∈ s.mailboxes,
      row.host = py "imap.example.org" ∧ row.port = 993 ∧ row.trustedAuthservIds = []) ∧
    ∀ m ∈ s.messages, m.id.toNat < 1000 * cycle)
    ⟨fun h => ⟨h.1, h.2.1, h.2.2⟩, fun h => ⟨h.boxes, h.settings, h.drawn⟩⟩

section

variable {cycle arrived : ℕ} {s₁ : Db} {arrivals : List ℕ}

lemma manyServer_serves (harrived : arrived ∈ [55, 60]) {row : Mailbox}
    (hrow : row.host = py "imap.example.org" ∧ row.port = 993 ∧ row.trustedAuthservIds = []) :
    Serves manyInbox arrived row (cycleEnvs cycle arrived 1) where
  host := hrow.1
  port := hrow.2.1
  connect := rfl
  login := ⟨py "secret", rfl, rfl⟩
  select := rfl
  validity := by
    show ((.ok [.bytes (bytes "7")] : Except SyncExn (List Item)) >>= uidvalidity) = .ok 7
    decide +kernel
  search lastUid := by
    refine ⟨[.bytes (manyListed arrived (min lastUid 64))], ?_,
      listedUids_manyListed harrived lastUid⟩
    rw [← find_searchCriteria]
    rfl
  fetch tick uid huid := by
    have hfetch : ∀ uid ∈ List.range' 5 60,
        fetchMessage (cycleEnvs 0 55 1) 0 uid = .ok (manyItem uid) := by decide +kernel
    refine ⟨manyItem uid, hfetch uid (List.mem_of_mem_take huid), ?_⟩
    have htrusted : trustedIds manyLibrary row = [] := by
      rw [trustedIds, hrow.2.2]
      rfl
    show processMessage manyLibrary _ (trustedIds manyLibrary row) (manyItem uid) = _
    rw [htrusted]
    rfl

lemma cycleEnvs_uuid4 (hcycle : cycle < 10) {id : ℕ} (hid : id ∈ [1, 2]) (n : ℕ) :
    ((cycleEnvs cycle arrived id).uuid4 n).toNat = 1000 * cycle + 100 * id + n % 50 := by
  have hle : id ≤ 2 := by
    revert id
    decide
  show (BitVec.ofNat 128 (1000 * cycle + 100 * id + n % 50)).toNat = _
  rw [BitVec.toNat_ofNat, Nat.mod_eq_of_lt]
  omega

lemma ManyReady.freshIds (h : ManyReady cycle s₁) (hcycle : cycle < 10) :
    FreshIds (cycleEnvs cycle arrived) s₁ := by
  have hids : ∀ m ∈ s₁.mailboxes, m.id ∈ [1, 2] := by
    rw [← h.boxes]
    exact fun m hm => List.mem_map_of_mem hm
  constructor
  · intro m hm r hr n heq
    have hdrawn := h.drawn r hr
    rw [heq, cycleEnvs_uuid4 hcycle (hids m hm)] at hdrawn
    omega
  · intro m hm m' hm' hne n n' heq
    have hnat := congrArg BitVec.toNat heq
    rw [cycleEnvs_uuid4 hcycle (hids m hm), cycleEnvs_uuid4 hcycle (hids m' hm')] at hnat
    omega

/-- One more cycle. -/
lemma Cycles.many (cycle arrived : ℕ) (h : Cycles manyInbox 1 twoBoxes arrivals s₁)
    (hready : ManyReady cycle s₁) (hcycle : cycle < 10) (harrived : arrived ∈ [55, 60])
    (hgrows : ∀ a ∈ arrivals, a ≤ arrived) :
    Cycles manyInbox 1 twoBoxes (arrivals ++ [arrived])
      ((syncAllMailboxes (cycleEnvs cycle arrived)).run s₁).2 := by
  have hle : arrived ≤ manyInbox.uids.length := by
    have hall : ∀ arrived ∈ [55, 60], arrived ≤ 60 := by decide
    exact hall arrived harrived
  refine h.cycle hgrows hle (hready.freshIds hcycle) ?_ fun row hrow =>
    manyServer_serves harrived (hready.settings row (rowsOf_eq_some hrow).1)
  intro i hi j hj heq
  have hnat := congrArg BitVec.toNat heq
  rw [cycleEnvs_uuid4 hcycle (by decide), cycleEnvs_uuid4 hcycle (by decide)] at hnat
  omega

end

end MailGate
