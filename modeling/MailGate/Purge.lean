import MailGate.Lib.Block
import MailGate.Lifecycle

/-!
# The statements of a purge

`purge_retention` deletes batch after batch: it reads the keys of some rows that have expired,
locks those of them that still have, deletes these, and starts again.  This file follows it
statement by statement inside its transaction, where each statement may fail.  A purge
deletes exactly what has expired, however large its batches are, or it changes nothing.
-/

namespace MailGate

open Transaction Batches

/-- `datetime.min`, where the microseconds are counted from 1970. -/
def Time.min : Time := -62135596800000000

namespace Purge

/-- What the functions of `lifecycle.py` raise. -/
inductive PurgeExn where
  /-- `ValueError`, for a batch size out of range. -/
  | valueError
  /-- `OverflowError`, for a cutoff before `datetime.min`. -/
  | overflowError
  /-- Whatever a statement of the transaction raises. -/
  | raised
  /-- The loop is not over after the rounds that it is given here. -/
  | unfinished
deriving DecidableEq, Repr

/-! ## Querysets -/

@[simp] lemma deleteMessages_tokens (db : Db) (p : Message → Bool) :
    (db.deleteMessages p).tokens = db.tokens := rfl

@[simp] lemma deleteMessages_audit (db : Db) (p : Message → Bool) :
    (db.deleteMessages p).audit = db.audit := rfl

/-- Deleting messages twice deletes those of both conditions. -/
lemma deleteMessages_deleteMessages (db : Db) (p q : Message → Bool) :
    (db.deleteMessages p).deleteMessages q = db.deleteMessages fun m => p m || q m := by
  simp only [Db.deleteMessages, Db.mk.injEq, List.filter_filter, true_and, and_true]
  constructor
  · refine List.filter_congr ?_
    intro m _
    cases p m <;> cases q m <;> rfl
  · refine List.filter_congr ?_
    intro a _
    rw [← Bool.decide_and]
    refine decide_eq_decide.2 ?_
    simp only [List.mem_map, List.mem_filter, Bool.and_eq_true, Bool.or_eq_true,
      Bool.not_eq_true']
    grind

/-- The table of the messages.  Deleting a message deletes its attachments. -/
def messageTable : Table Db Message Uuid where
  rows db := db.messages
  key := Message.id
  delete p db := db.deleteMessages fun m => p m.id
  rows_delete _ _ := rfl
  delete_delete p q db := deleteMessages_deleteMessages db _ _
  delete_none db := by simp [Db.deleteMessages]

/-- The table of the tokens. -/
def tokenTable : Table Db ApiToken ℕ where
  rows db := db.tokens
  key := ApiToken.id
  delete p db := { db with tokens := db.tokens.filter fun t => !p t.id }
  rows_delete _ _ := rfl
  delete_delete p q db := by simp [List.filter_filter, Bool.and_comm]
  delete_none db := by simp

/-- The table of the audit events. -/
def auditTable : Table Db AuditEvent ℕ where
  rows db := db.audit
  key := AuditEvent.id
  delete p db := { db with audit := db.audit.filter fun e => !p e.id }
  rows_delete _ _ := rfl
  delete_delete p q db := by simp [List.filter_filter, Bool.and_comm]
  delete_none db := by simp

/-- A queryset: a model and a condition on its rows. -/
inductive Queryset where
  | message (filter : Message → Bool)
  | apiToken (filter : ApiToken → Bool)
  | auditEvent (filter : AuditEvent → Bool)

/-- `queryset.count()`. -/
def Queryset.count (db : Db) : Queryset → ℕ
  | message filter => (messageTable.rows db).countP filter
  | apiToken filter => (tokenTable.rows db).countP filter
  | auditEvent filter => (auditTable.rows db).countP filter

/-- `now - timedelta(days=days)`. -/
def subtractDays (now : Time) (days : ℕ) : Except PurgeExn Time :=
  if RetentionPolicy.cutoff now days < Time.min then .error .overflowError
  else .ok (RetentionPolicy.cutoff now days)

/-- `_message_queryset`. -/
def messageQueryset (state : State) (cutoff : Time) : Queryset :=
  .message (RetentionPolicy.messageQueryset state cutoff)

/-- `_token_queryset`. -/
def tokenQueryset (cutoff : Time) : Queryset := .apiToken (RetentionPolicy.tokenQueryset cutoff)

/-- `retention_querysets`. -/
def retentionQuerysets (policy : RetentionPolicy) (now : Time) :
    Except PurgeExn (List (PyStr × Queryset)) := do
  let approved ← subtractDays now policy.approvedDays
  let quarantined ← subtractDays now policy.quarantinedDays
  let rejected ← subtractDays now policy.rejectedDays
  let tokens ← subtractDays now policy.tokenDays
  let events ← subtractDays now policy.auditDays
  return [(py "approved_messages", messageQueryset .approved approved),
    (py "quarantined_messages", messageQueryset .quarantined quarantined),
    (py "rejected_messages", messageQueryset .rejected rejected),
    (py "inactive_tokens", tokenQueryset tokens),
    (py "audit_events", .auditEvent fun e => e.createdAt < events)]

/-- `now or timezone.now()`. -/
def effectiveNow (now : Option Time) (timezoneNow : Time) : Time := now.getD timezoneNow

/-- `retention_counts`. -/
def retentionCounts (policy : RetentionPolicy) (now : Option Time) (timezoneNow : Time) (db : Db) :
    Except PurgeExn (List (PyStr × ℕ)) := do
  let querysets ← retentionQuerysets policy (effectiveNow now timezoneNow)
  return querysets.map fun (name, queryset) => (name, queryset.count db)

/-! ## The transaction -/

section Loop

variable {α κ : Type} [DecidableEq κ] (t : Table Db α κ) (le : κ → κ → Prop) [DecidableRel le]
  (filter : α → Bool) (batchSize : ℕ)

/-- `_delete_queryset_in_batches`, for at most `rounds` rounds of its loop. -/
def deleteQuerysetInBatches : (rounds deleted : ℕ) → Prog Db PurgeExn ℕ
  | 0, _ => .compute (.error .unfinished)
  | rounds + 1, deleted => do
    let ids ← Prog.atomic fun db => .ok (batch t.key le filter batchSize (t.rows db), db)
    if ids = [] then
      return deleted
    else
      let lockedIds ← Prog.atomic fun db => .ok (t.locked filter db le ids, db)
      if lockedIds = [] then
        deleteQuerysetInBatches rounds deleted
      else
        Prog.atomic fun db => .ok ((), t.delete (fun k => decide (k ∈ lockedIds)) db)
        deleteQuerysetInBatches rounds (deleted + lockedIds.length)

end Loop

/-- `_delete_queryset_in_batches(queryset, batch_size=batch_size)`. -/
def Queryset.deleteInBatches (batchSize rounds : ℕ) : Queryset → Prog Db PurgeExn ℕ
  | message filter => deleteQuerysetInBatches messageTable (· ≤ ·) filter batchSize rounds 0
  | apiToken filter => deleteQuerysetInBatches tokenTable (· ≤ ·) filter batchSize rounds 0
  | auditEvent filter => deleteQuerysetInBatches auditTable (· ≤ ·) filter batchSize rounds 0

/-- The dictionary comprehension of `purge_retention`. -/
def deleteQuerysets (batchSize rounds : ℕ) :
    List (PyStr × Queryset) → Prog Db PurgeExn (List (PyStr × ℕ))
  | [] => pure []
  | (name, queryset) :: querysets => do
    let count ← queryset.deleteInBatches batchSize rounds
    let deleted ← deleteQuerysets batchSize rounds querysets
    return (name, count) :: deleted

/-- The block `with transaction.atomic()` of `purge_retention`; `auditAt` is the date of the
audit event. -/
def purgeBlock (policy : RetentionPolicy) (postgresql : Bool) (effectiveNow : Time)
    (batchSize rounds : ℕ) (auditAt : Time) : Prog Db PurgeExn (List (PyStr × ℕ)) := do
  if postgresql then
    -- the advisory lock
    Prog.atomic fun db => .ok ((), db)
  let querysets ← Prog.compute (retentionQuerysets policy effectiveNow)
  let deleted ← deleteQuerysets batchSize rounds querysets
  Prog.atomic fun db => .ok ((), db.writeAudit (py "system:retention") (py "retention.purged") none
    [(py "counts", .counts deleted), (py "policy_days", .counts policy.vars)] auditAt)
  return deleted

/-- The exceptions of statements. -/
def fault (e : PurgeExn) : Prop := e = .raised

/-- `purge_retention`: what a call leads to. -/
inductive PurgeRetention (policy : RetentionPolicy) (postgresql : Bool) (now : Option Time)
    (timezoneNow : Time) (batchSize rounds : ℕ) (auditAt : Time) (db : Db) :
    Option (Except PurgeExn (List (PyStr × ℕ))) → Db → Prop where
  | outOfRange (h : ¬ (1 ≤ batchSize ∧ batchSize ≤ 10000)) :
      PurgeRetention policy postgresql now timezoneNow batchSize rounds auditAt db
        (some (.error .valueError)) db
  | block {o : Option (Except PurgeExn (List (PyStr × ℕ)))} {db' : Db}
      (h : 1 ≤ batchSize ∧ batchSize ≤ 10000)
      (hblock : Block fault (purgeBlock policy postgresql (effectiveNow now timezoneNow) batchSize
        rounds auditAt) db o db') :
      PurgeRetention policy postgresql now timezoneNow batchSize rounds auditAt db o db'

/-! ## What has expired -/

section Eligible

variable (policy : RetentionPolicy) (now : Time)

/-- The period of the messages in a state. -/
def period (policy : RetentionPolicy) : State → ℕ
  | .approved => policy.approvedDays
  | .quarantined => policy.quarantinedDays
  | .rejected => policy.rejectedDays

/-- The message was decided, or else ingested, before the period of its state. -/
def EligibleMessage (m : Message) : Prop :=
  ∃ state ∈ [State.approved, .quarantined, .rejected], m.state = state.value ∧
    m.decidedAt.getD m.ingestedAt < now - period policy state * Time.day

instance (m : Message) : Decidable (EligibleMessage policy now m) := by
  unfold EligibleMessage
  infer_instance

/-- The token was revoked, or else expired, before the period of the tokens. -/
def EligibleToken (t : ApiToken) : Prop :=
  ∃ since ∈ t.revokedAt.or t.expiresAt, since < now - policy.tokenDays * Time.day

instance (t : ApiToken) : Decidable (EligibleToken policy now t) := by
  unfold EligibleToken
  infer_instance

/-- The event was recorded before the period of the audit events. -/
def EligibleEvent (e : AuditEvent) : Prop := e.createdAt < now - policy.auditDays * Time.day

instance (e : AuditEvent) : Decidable (EligibleEvent policy now e) := by
  unfold EligibleEvent
  infer_instance

/-- `db'` is `db` without everything that is eligible, and with an audit event that says so. -/
structure Purged (auditAt : Time) (counts : List (PyStr × ℕ)) (db db' : Db) : Prop where
  messages : db'.messages = db.messages.filter fun m => ¬ EligibleMessage policy now m
  attachments : db'.attachments = db.attachments.filter fun a =>
    ¬ ∃ m ∈ db.messages, EligibleMessage policy now m ∧ m.id = a.messageId
  tokens : db'.tokens = db.tokens.filter fun t => ¬ EligibleToken policy now t
  audit : db'.audit = (db.audit.filter fun e => ¬ EligibleEvent policy now e) ++
    [{ id := db.auditSeq
       actor := py "system:retention"
       action := py "retention.purged"
       objectType := []
       objectId := []
       metadata := [(py "counts", .counts counts), (py "policy_days", .counts policy.vars)]
       createdAt := auditAt }]
  auditSeq : db'.auditSeq = db.auditSeq + 1
  users : db'.users = db.users
  /-- The cursors of the mailboxes among them. -/
  mailboxes : db'.mailboxes = db.mailboxes
  mailboxSeq : db'.mailboxSeq = db.mailboxSeq
  tokenSeq : db'.tokenSeq = db.tokenSeq

end Eligible

/-! ## The loop -/

section Loop

variable {α κ : Type} [DecidableEq κ] {t : Table Db α κ} {le : κ → κ → Prop} [DecidableRel le]
  {filter : α → Bool} {batchSize : ℕ}

lemma deleteQuerysetInBatches_straight (rounds deleted : ℕ) :
    (deleteQuerysetInBatches t le filter batchSize rounds deleted).Straight := by
  induction rounds generalizing deleted with
  | zero => trivial
  | succ rounds ih =>
    refine straight_bind (straight_atomic _) fun ids => ?_
    split
    · trivial
    · refine straight_bind (straight_atomic _) fun lockedIds => ?_
      split
      · exact ih deleted
      · exact straight_bind (straight_atomic _) fun _ => ih _

/-- One round more than there are rows to delete is enough for the loop, which deletes them
all and counts them. -/
lemma deleteQuerysetInBatches_run (hbatch : 0 < batchSize) {rounds : ℕ} {db : Db}
    (hrows : ((t.rows db).map t.key).Nodup) (hrounds : (t.rows db).countP filter < rounds)
    (deleted : ℕ) :
    (deleteQuerysetInBatches t le filter batchSize rounds deleted).run db =
      (.ok (deleted + (t.rows db).countP filter), t.without filter db) := by
  induction rounds generalizing db deleted with
  | zero => omega
  | succ rounds ih =>
    show Prog.run (if batch t.key le filter batchSize (t.rows db) = [] then _ else _) db = _
    by_cases hnil : batch t.key le filter batchSize (t.rows db) = []
    · have hnone := (batch_eq_nil hbatch).1 hnil
      rw [if_pos hnil, Table.without_of_none hnone, List.countP_eq_length_filter, hnone]
      rfl
    · rw [if_neg hnil]
      have hlocked : (t.locked filter db le (batch t.key le filter batchSize (t.rows db))).Perm
          (batch t.key le filter batchSize (t.rows db)) := Table.locked_batch hrows
      have hsome : t.locked filter db le (batch t.key le filter batchSize (t.rows db)) ≠ [] := by
        intro hempty
        rw [hempty] at hlocked
        exact hnil hlocked.nil_eq.symm
      show Prog.run (if t.locked filter db le (batch t.key le filter batchSize (t.rows db)) = []
        then _ else _) db = _
      -- nobody has changed the rows of the batch, so the loop does not start over
      rw [if_neg hsome]
      obtain ⟨hwithout, hcount⟩ := Table.batch_then_rest hrows hlocked
      have hpos := List.length_pos_iff.2 hsome
      generalize t.locked filter db le (batch t.key le filter batchSize (t.rows db)) = ids at *
      show Prog.run (deleteQuerysetInBatches t le filter batchSize rounds (deleted + ids.length))
        (t.delete (fun k => decide (k ∈ ids)) db) = _
      rw [ih, hwithout]
      · congr 2
        omega
      · rw [t.rows_delete]
        exact hrows.sublist (List.filter_sublist.map _)
      · omega

end Loop

/-! ## The querysets one after the other -/

/-- The primary keys of the three tables. -/
structure Keys (db : Db) : Prop where
  messages : (db.messages.map (·.id)).Nodup
  tokens : (db.tokens.map (·.id)).Nodup
  audit : (db.audit.map (·.id)).Nodup

/-- The rows of the three tables. -/
def size (db : Db) : ℕ := db.messages.length + db.tokens.length + db.audit.length

/-- `queryset.delete()`. -/
def Queryset.delete (db : Db) : Queryset → Db
  | message filter => db.deleteMessages filter
  | apiToken filter => { db with tokens := db.tokens.filter fun t => !filter t }
  | auditEvent filter => { db with audit := db.audit.filter fun e => !filter e }

/-- No row is in both querysets. -/
def Queryset.Independent : Queryset → Queryset → Prop
  | message f, message g => ∀ m, f m = true → g m = false
  | apiToken _, apiToken _ => False
  | auditEvent _, auditEvent _ => False
  | _, _ => True

section Querysets

variable {db : Db} {batchSize rounds : ℕ}

lemma deleteMessages_congr {p q : Message → Bool} (h : ∀ m ∈ db.messages, p m = q m) :
    db.deleteMessages p = db.deleteMessages q := by
  simp only [Db.deleteMessages]
  rw [List.filter_congr h, List.filter_congr fun m hm => congrArg not (h m hm)]

lemma Queryset.delete_keys (hkeys : Keys db) (queryset : Queryset) :
    Keys (queryset.delete db) ∧ size (queryset.delete db) ≤ size db := by
  cases queryset with
  | message filter =>
    have hlen := List.length_filter_le (!filter ·) db.messages
    refine ⟨{ hkeys with messages := hkeys.messages.sublist (List.filter_sublist.map _) }, ?_⟩
    simp only [size, delete, Db.deleteMessages]
    omega
  | apiToken filter =>
    have hlen := List.length_filter_le (!filter ·) db.tokens
    refine ⟨{ hkeys with tokens := hkeys.tokens.sublist (List.filter_sublist.map _) }, ?_⟩
    simp only [size, delete]
    omega
  | auditEvent filter =>
    have hlen := List.length_filter_le (!filter ·) db.audit
    refine ⟨{ hkeys with audit := hkeys.audit.sublist (List.filter_sublist.map _) }, ?_⟩
    simp only [size, delete]
    omega

/-- Deleting a queryset in batches deletes the queryset. -/
lemma Queryset.deleteInBatches_run (hbatch : 0 < batchSize) (hkeys : Keys db)
    (hrounds : size db < rounds) (queryset : Queryset) :
    (queryset.deleteInBatches batchSize rounds).run db =
      (.ok (queryset.count db), queryset.delete db) := by
  unfold size at hrounds
  cases queryset with
  | message filter =>
    have hcount := List.countP_le_length (p := filter) (l := db.messages)
    have hrows : ((messageTable.rows db).map messageTable.key).Nodup := hkeys.messages
    rw [deleteInBatches, deleteQuerysetInBatches_run hbatch hrows (by simp [messageTable]; omega),
      Nat.zero_add]
    have hsame : messageTable.without filter db = db.deleteMessages filter :=
      deleteMessages_congr fun m hm => Table.matching_key (t := messageTable) hrows hm
    rw [hsame]
    rfl
  | apiToken filter =>
    have hcount := List.countP_le_length (p := filter) (l := db.tokens)
    have hrows : ((tokenTable.rows db).map tokenTable.key).Nodup := hkeys.tokens
    rw [deleteInBatches, deleteQuerysetInBatches_run hbatch hrows (by simp [tokenTable]; omega),
      Nat.zero_add]
    have hsame : (db.tokens.filter fun t => !tokenTable.matching filter db t.id) =
        db.tokens.filter fun t => !filter t :=
      List.filter_congr fun t ht => congrArg not (Table.matching_key (t := tokenTable) hrows ht)
    simp only [Table.without, tokenTable, delete, count] at hsame ⊢
    rw [hsame]
  | auditEvent filter =>
    have hcount := List.countP_le_length (p := filter) (l := db.audit)
    have hrows : ((auditTable.rows db).map auditTable.key).Nodup := hkeys.audit
    rw [deleteInBatches, deleteQuerysetInBatches_run hbatch hrows (by simp [auditTable]; omega),
      Nat.zero_add]
    have hsame : (db.audit.filter fun e => !auditTable.matching filter db e.id) =
        db.audit.filter fun e => !filter e :=
      List.filter_congr fun e he => congrArg not (Table.matching_key (t := auditTable) hrows he)
    simp only [Table.without, auditTable, delete, count] at hsame ⊢
    rw [hsame]

/-- Deleting a queryset leaves the count of an independent one. -/
lemma Queryset.count_delete {q r : Queryset} (h : Independent q r) :
    r.count (q.delete db) = r.count db := by
  cases q with
  | message f =>
    cases r with
    | message g =>
      show (db.messages.filter fun m => !f m).countP g = db.messages.countP g
      rw [List.countP_filter]
      refine List.countP_congr ?_
      intro m _
      cases hf : f m with
      | false => simp
      | true => simp [h m hf]
    | apiToken g => rfl
    | auditEvent g => rfl
  | apiToken f =>
    cases r with
    | message g => rfl
    | apiToken g => exact h.elim
    | auditEvent g => rfl
  | auditEvent f =>
    cases r with
    | message g => rfl
    | apiToken g => rfl
    | auditEvent g => exact h.elim

lemma Queryset.deleteInBatches_straight (queryset : Queryset) :
    (queryset.deleteInBatches batchSize rounds).Straight := by
  cases queryset with
  | message filter => exact deleteQuerysetInBatches_straight _ _
  | apiToken filter => exact deleteQuerysetInBatches_straight _ _
  | auditEvent filter => exact deleteQuerysetInBatches_straight _ _

lemma deleteQuerysets_straight (querysets : List (PyStr × Queryset)) :
    (deleteQuerysets batchSize rounds querysets).Straight := by
  induction querysets with
  | nil => trivial
  | cons x querysets ih =>
    refine straight_bind (Queryset.deleteInBatches_straight _) fun count => ?_
    exact straight_bind ih fun deleted => trivial

/-- Independent querysets are deleted one after the other, and counted as they were before the
first deletion. -/
lemma deleteQuerysets_run (hbatch : 0 < batchSize) (hkeys : Keys db) (hrounds : size db < rounds)
    {querysets : List (PyStr × Queryset)}
    (hpairs : querysets.Pairwise fun x y => Queryset.Independent x.2 y.2) :
    (deleteQuerysets batchSize rounds querysets).run db =
      (.ok (querysets.map fun x => (x.1, x.2.count db)),
        querysets.foldl (fun db x => x.2.delete db) db) := by
  induction querysets generalizing db with
  | nil => rfl
  | cons x querysets ih =>
    obtain ⟨hfirst, hrest⟩ := List.pairwise_cons.1 hpairs
    obtain ⟨hkeys', hsize⟩ := x.2.delete_keys hkeys
    have hcounts : (querysets.map fun y => (y.1, y.2.count (x.2.delete db))) =
        querysets.map fun y => (y.1, y.2.count db) :=
      List.map_congr_left fun y hy => by rw [Queryset.count_delete (hfirst y hy)]
    simp only [deleteQuerysets, Prog.run_bind, x.2.deleteInBatches_run hbatch hkeys hrounds,
      ih hkeys' (hsize.trans_lt hrounds) hrest, hcounts]
    rfl

end Querysets

/-! ## A purge -/

section Purge

variable {policy : RetentionPolicy} {now auditAt : Time} {db : Db} {batchSize rounds : ℕ}

lemma subtractDays_eq_ok {days : ℕ} {cutoff : Time} (h : subtractDays now days = .ok cutoff) :
    cutoff = RetentionPolicy.cutoff now days := by
  unfold subtractDays at h
  split at h
  · cases h
  · exact (Except.ok.inj h).symm

lemma retentionQuerysets_eq_ok {querysets : List (PyStr × Queryset)}
    (h : retentionQuerysets policy now = .ok querysets) :
    querysets = [(py "approved_messages",
        messageQueryset .approved (RetentionPolicy.cutoff now policy.approvedDays)),
      (py "quarantined_messages",
        messageQueryset .quarantined (RetentionPolicy.cutoff now policy.quarantinedDays)),
      (py "rejected_messages",
        messageQueryset .rejected (RetentionPolicy.cutoff now policy.rejectedDays)),
      (py "inactive_tokens", tokenQueryset (RetentionPolicy.cutoff now policy.tokenDays)),
      (py "audit_events", .auditEvent fun e =>
        e.createdAt < RetentionPolicy.cutoff now policy.auditDays)] := by
  obtain ⟨approved, happroved, h⟩ := Exceptions.bind_eq_ok.1 h
  obtain ⟨quarantined, hquarantined, h⟩ := Exceptions.bind_eq_ok.1 h
  obtain ⟨rejected, hrejected, h⟩ := Exceptions.bind_eq_ok.1 h
  obtain ⟨tokens, htokens, h⟩ := Exceptions.bind_eq_ok.1 h
  obtain ⟨events, hevents, h⟩ := Exceptions.bind_eq_ok.1 h
  rw [← subtractDays_eq_ok happroved, ← subtractDays_eq_ok hquarantined,
    ← subtractDays_eq_ok hrejected, ← subtractDays_eq_ok htokens, ← subtractDays_eq_ok hevents]
  exact (Except.ok.inj h).symm

/-- A message is in one state. -/
lemma messageQueryset_independent {a b : State} (hab : a.value ≠ b.value) (x y : Time) :
    Queryset.Independent (messageQueryset a x) (messageQueryset b y) := by
  intro m hm
  simp only [RetentionPolicy.messageQueryset, Bool.and_eq_true, decide_eq_true_eq] at hm
  simp [RetentionPolicy.messageQueryset, hm.1, hab]

lemma retentionQuerysets_pairwise {querysets : List (PyStr × Queryset)}
    (h : retentionQuerysets policy now = .ok querysets) :
    querysets.Pairwise fun x y => Queryset.Independent x.2 y.2 := by
  have hvalues : State.approved.value ≠ State.quarantined.value ∧
      State.approved.value ≠ State.rejected.value ∧
      State.quarantined.value ≠ State.rejected.value := by decide
  rw [retentionQuerysets_eq_ok h]
  simp only [List.pairwise_cons, List.mem_cons, List.not_mem_nil, or_false, forall_eq_or_imp,
    forall_eq, List.Pairwise.nil, and_true, false_implies, implies_true]
  refine ⟨⟨?_, ?_, trivial, trivial⟩, ⟨?_, trivial, trivial⟩, ⟨trivial, trivial⟩, trivial⟩
  · exact messageQueryset_independent hvalues.1 _ _
  · exact messageQueryset_independent hvalues.2.1 _ _
  · exact messageQueryset_independent hvalues.2.2 _ _

lemma purgeBlock_straight (postgresql : Bool) :
    (purgeBlock policy postgresql now batchSize rounds auditAt).Straight := by
  have hrest : ((do
      let querysets ← Prog.compute (retentionQuerysets policy now)
      let deleted ← deleteQuerysets batchSize rounds querysets
      Prog.atomic fun db =>
        .ok ((), db.writeAudit (py "system:retention") (py "retention.purged") none
          [(py "counts", .counts deleted), (py "policy_days", .counts policy.vars)] auditAt)
      return deleted : Prog Db PurgeExn (List (PyStr × ℕ)))).Straight := by
    refine straight_bind trivial fun querysets => ?_
    refine straight_bind (deleteQuerysets_straight querysets) fun deleted => ?_
    exact straight_bind (straight_atomic _) fun _ => trivial
  cases postgresql with
  | true => exact straight_bind (straight_atomic _) fun _ => hrest
  | false => exact hrest

/-- The state after the deletions. -/
def emptied (policy : RetentionPolicy) (now : Time) (db : Db) : Db :=
  { db.deleteMessages (fun m => EligibleMessage policy now m) with
    tokens := db.tokens.filter fun t => ¬ EligibleToken policy now t
    audit := db.audit.filter fun e => ¬ EligibleEvent policy now e }

/-- The state that a purge commits. -/
def purged (policy : RetentionPolicy) (now auditAt : Time) (counts : List (PyStr × ℕ))
    (db : Db) : Db :=
  (emptied policy now db).writeAudit (py "system:retention") (py "retention.purged") none
    [(py "counts", .counts counts), (py "policy_days", .counts policy.vars)] auditAt

lemma purged_spec (policy : RetentionPolicy) (now auditAt : Time) (counts : List (PyStr × ℕ))
    (db : Db) : Purged policy now auditAt counts db (purged policy now auditAt counts db) where
  messages := by
    simp only [purged, emptied, Db.writeAudit, Db.deleteMessages, decide_not]
  attachments := by
    simp only [purged, emptied, Db.writeAudit, Db.deleteMessages]
    refine List.filter_congr ?_
    intro a _
    simp [and_assoc]
  tokens := rfl
  audit := rfl
  auditSeq := rfl
  users := rfl
  mailboxes := rfl
  mailboxSeq := rfl
  tokenSeq := rfl

/-- The querysets hold what is eligible. -/
lemma foldl_delete {querysets : List (PyStr × Queryset)}
    (h : retentionQuerysets policy now = .ok querysets) :
    querysets.foldl (fun db x => x.2.delete db) db = emptied policy now db := by
  rw [retentionQuerysets_eq_ok h]
  simp only [List.foldl_cons, List.foldl_nil, messageQueryset, tokenQueryset, Queryset.delete,
    deleteMessages_deleteMessages, emptied]
  have hmessages : (fun m => (RetentionPolicy.messageQueryset .approved
      (RetentionPolicy.cutoff now policy.approvedDays) m ||
      RetentionPolicy.messageQueryset .quarantined
        (RetentionPolicy.cutoff now policy.quarantinedDays) m) ||
      RetentionPolicy.messageQueryset .rejected
        (RetentionPolicy.cutoff now policy.rejectedDays) m) =
      fun m => decide (EligibleMessage policy now m) := by
    funext m
    rw [Bool.eq_iff_iff, decide_eq_true_iff]
    simp only [RetentionPolicy.messageQueryset, Bool.or_eq_true, Bool.and_eq_true,
      decide_eq_true_eq]
    simp only [EligibleMessage, RetentionPolicy.retentionTimestamp, RetentionPolicy.cutoff, period,
      List.mem_cons, List.not_mem_nil, or_false, exists_eq_or_imp, exists_eq_left, or_assoc]
  have htokens : ∀ t, RetentionPolicy.tokenQueryset
      (RetentionPolicy.cutoff now policy.tokenDays) t = decide (EligibleToken policy now t) := by
    intro t
    rw [Bool.eq_iff_iff, decide_eq_true_iff]
    simp only [RetentionPolicy.tokenQueryset, EligibleToken]
    cases t.revokedAt with
    | some revoked =>
      simp only [decide_eq_true_eq, Option.some_or, Option.mem_def, Option.some.injEq,
        exists_eq_left']
      rfl
    | none =>
      simp only [Option.any_eq_true, decide_eq_true_eq, Option.none_or, Option.mem_def]
      rfl
  have hevents : ∀ e : AuditEvent,
      decide (e.createdAt < RetentionPolicy.cutoff now policy.auditDays) =
        decide (EligibleEvent policy now e) := fun e => decide_eq_decide.2 Iff.rfl
  rw [hmessages]
  simp only [htokens, hevents, Db.deleteMessages, decide_not]

variable (policy now auditAt) in
/-- Undisturbed, a purge deletes what is eligible and counts it. -/
lemma purgeBlock_run (hbatch : 0 < batchSize) (hkeys : Keys db) (hrounds : size db < rounds)
    (postgresql : Bool) (timezoneNow : Time) :
    (purgeBlock policy postgresql now batchSize rounds auditAt).run db =
      match retentionCounts policy (some now) timezoneNow db with
      | .ok counts => (.ok counts, purged policy now auditAt counts db)
      | .error e => (.error e, db) := by
  have hlock : (purgeBlock policy postgresql now batchSize rounds auditAt).run db =
      (purgeBlock policy false now batchSize rounds auditAt).run db := by
    cases postgresql <;> rfl
  rw [hlock, retentionCounts]
  simp only [purgeBlock, effectiveNow, Option.getD_some]
  cases hquerysets : retentionQuerysets policy now with
  | error e => rfl
  | ok querysets =>
    have hrun := deleteQuerysets_run hbatch hkeys hrounds (retentionQuerysets_pairwise hquerysets)
    rw [foldl_delete hquerysets] at hrun
    simp only [Bool.false_eq_true, if_false, Prog.compute_ok_bind, Prog.run_bind, hrun]
    rfl

/-- What a purge leads to: it commits the deletion of what is eligible, or it raises what
`retention_counts` raises, or it is interrupted, and then nothing has changed. -/
lemma PurgeRetention.outcome {postgresql : Bool} {timezoneNow : Time}
    {o : Option (Except PurgeExn (List (PyStr × ℕ)))} {s' : Db}
    (hbatch : 1 ≤ batchSize ∧ batchSize ≤ 10000) (hkeys : Keys db) (hrounds : size db < rounds)
    (h : PurgeRetention policy postgresql (some now) timezoneNow batchSize rounds auditAt db o s') :
    (∃ counts, retentionCounts policy (some now) timezoneNow db = .ok counts ∧
        o = some (.ok counts) ∧ s' = purged policy now auditAt counts db) ∨
      s' = db ∧ (o = none ∨ o = some (.error .raised) ∨
        ∃ e, retentionCounts policy (some now) timezoneNow db = .error e ∧
          o = some (.error e)) := by
  have hrun := purgeBlock_run policy now auditAt hbatch.1 hkeys hrounds postgresql timezoneNow
  cases h with
  | outOfRange hbad => exact (hbad hbatch).elim
  | block _ hblock =>
    rcases hblock.outcome (purgeBlock_straight postgresql) with ⟨counts, rfl, hok⟩ | ⟨hsame, ho⟩
    · have heq := hok.symm.trans hrun
      split at heq
      · rename_i counts' hcounts
        obtain ⟨hcount, hstate⟩ := Prod.mk.inj heq
        cases hcount
        exact .inl ⟨_, hcounts, rfl, hstate⟩
      · cases heq
    · refine .inr ⟨hsame, ?_⟩
      rcases ho with rfl | ⟨e, rfl, hfault | hraised⟩
      · exact .inl rfl
      · rw [hfault]
        exact .inr (.inl rfl)
      · have heq := hraised.symm.trans (congrArg Prod.fst hrun)
        split at heq
        · cases heq
        · rename_i e' he
          cases heq
          exact .inr (.inr ⟨_, he, rfl⟩)

/-- A purge that is not disturbed returns the counts and commits. -/
lemma PurgeRetention.of_counts {postgresql : Bool} {timezoneNow : Time}
    {counts : List (PyStr × ℕ)} (hbatch : 1 ≤ batchSize ∧ batchSize ≤ 10000) (hkeys : Keys db)
    (hrounds : size db < rounds)
    (hcounts : retentionCounts policy (some now) timezoneNow db = .ok counts) :
    PurgeRetention policy postgresql (some now) timezoneNow batchSize rounds auditAt db
      (some (.ok counts)) (purged policy now auditAt counts db) := by
  refine .block hbatch (Block.of_run ?_)
  have hrun := purgeBlock_run policy now auditAt hbatch.1 hkeys hrounds postgresql timezoneNow
  rw [hcounts] at hrun
  exact hrun

lemma deleteMessagesInBatches_queryset (hkeys : Keys db) (hbatch : 0 < batchSize)
    (filter : Message → Bool) : RetentionPolicy.deleteMessagesInBatches batchSize filter db =
      ((Queryset.message filter).count db, (Queryset.message filter).delete db) :=
  deleteMessagesInBatches_eq hkeys.messages hbatch filter

lemma deleteTokensInBatches_queryset (hkeys : Keys db) (hbatch : 0 < batchSize)
    (filter : ApiToken → Bool) : RetentionPolicy.deleteTokensInBatches batchSize filter db =
      ((Queryset.apiToken filter).count db, (Queryset.apiToken filter).delete db) :=
  deleteTokensInBatches_eq hkeys.tokens hbatch filter

lemma deleteAuditInBatches_queryset (hkeys : Keys db) (hbatch : 0 < batchSize)
    (filter : AuditEvent → Bool) : RetentionPolicy.deleteAuditInBatches batchSize filter db =
      ((Queryset.auditEvent filter).count db, (Queryset.auditEvent filter).delete db) :=
  deleteAuditInBatches_eq hkeys.audit hbatch filter

/-- What the statements commit is the transaction of the installation. -/
theorem PurgeRetention.refines {postgresql : Bool} {timezoneNow : Time}
    {counts : List (PyStr × ℕ)} {db' : Db} (hkeys : Keys db) (hrounds : size db < rounds)
    (h : PurgeRetention policy postgresql (some now) timezoneNow batchSize rounds auditAt db
      (some (.ok counts)) db') :
    policy.purgeRetention now batchSize auditAt db = some (counts, db') := by
  have hbatch : 1 ≤ batchSize ∧ batchSize ≤ 10000 := by
    cases h with
    | block hbatch _ => exact hbatch
  rcases h.outcome hbatch hkeys hrounds with ⟨counts', hcounts, ho, rfl⟩ | ⟨-, ho⟩
  swap
  · rcases ho with ho | ho | ⟨e, -, ho⟩
    all_goals cases ho
  cases ho
  unfold retentionCounts at hcounts
  obtain ⟨querysets, hquerysets, hcounts⟩ := Exceptions.bind_eq_ok.1 hcounts
  change retentionQuerysets policy now = .ok querysets at hquerysets
  have hfinal : querysets.foldl (fun db x => x.2.delete db) db = emptied policy now db :=
    foldl_delete hquerysets
  have hpairs := retentionQuerysets_pairwise hquerysets
  obtain rfl := retentionQuerysets_eq_ok hquerysets
  obtain rfl := Except.ok.inj hcounts
  have hkeys₁ := (Queryset.delete_keys hkeys (.message (RetentionPolicy.messageQueryset .approved
    (RetentionPolicy.cutoff now policy.approvedDays)))).1
  have hkeys₂ := (Queryset.delete_keys hkeys₁ (.message
    (RetentionPolicy.messageQueryset .quarantined
      (RetentionPolicy.cutoff now policy.quarantinedDays)))).1
  have hkeys₃ := (Queryset.delete_keys hkeys₂ (.message (RetentionPolicy.messageQueryset .rejected
    (RetentionPolicy.cutoff now policy.rejectedDays)))).1
  have hkeys₄ := (Queryset.delete_keys hkeys₃ (.apiToken (RetentionPolicy.tokenQueryset
    (RetentionPolicy.cutoff now policy.tokenDays)))).1
  -- the later querysets are counted as before the first deletion
  simp only [List.pairwise_cons, List.mem_cons, List.not_mem_nil, or_false, forall_eq_or_imp,
    forall_eq, messageQueryset, tokenQueryset] at hpairs hfinal ⊢
  obtain ⟨⟨h₁₂, h₁₃, h₁₄, h₁₅⟩, ⟨h₂₃, h₂₄, h₂₅⟩, ⟨h₃₄, h₃₅⟩, h₄₅, -⟩ := hpairs
  rw [RetentionPolicy.purgeRetention, if_pos hbatch, purged, ← hfinal]
  simp only [RetentionPolicy.purge, deleteMessagesInBatches_queryset hkeys hbatch.1,
    deleteMessagesInBatches_queryset hkeys₁ hbatch.1,
    deleteMessagesInBatches_queryset hkeys₂ hbatch.1,
    deleteTokensInBatches_queryset hkeys₃ hbatch.1, deleteAuditInBatches_queryset hkeys₄ hbatch.1,
    Queryset.count_delete h₁₂, Queryset.count_delete h₁₃, Queryset.count_delete h₁₄,
    Queryset.count_delete h₁₅, Queryset.count_delete h₂₃, Queryset.count_delete h₂₄,
    Queryset.count_delete h₂₅, Queryset.count_delete h₃₄, Queryset.count_delete h₃₅,
    Queryset.count_delete h₄₅, List.map_cons, List.map_nil, List.foldl_cons, List.foldl_nil]

/-- A purge returns the counts of `retention_counts` and deletes exactly what is eligible,
whatever the size of its batches; where a step raises, the arithmetic of the cutoffs included,
nothing has changed.  One round more than there are rows is enough for the loops. -/
theorem purgeRetention_exact (policy : RetentionPolicy) (postgresql : Bool)
    (now timezoneNow auditAt : Time) {db : Db} (hkeys : Keys db) :
    (∀ counts, retentionCounts policy (some now) timezoneNow db = .ok counts →
      ∃ db', Purged policy now auditAt counts db db' ∧
        ∀ batchSize rounds, 1 ≤ batchSize → batchSize ≤ 10000 → size db < rounds →
          PurgeRetention policy postgresql (some now) timezoneNow batchSize rounds auditAt db
              (some (.ok counts)) db' ∧
            ∀ o s', PurgeRetention policy postgresql (some now) timezoneNow batchSize rounds
                auditAt db o s' →
              o = some (.ok counts) ∧ s' = db' ∨ s' = db ∧ (o = none ∨ o = some (.error .raised))) ∧
    ∀ e, retentionCounts policy (some now) timezoneNow db = .error e →
      ∀ batchSize rounds, 1 ≤ batchSize → batchSize ≤ 10000 → size db < rounds →
        ∀ o s', PurgeRetention policy postgresql (some now) timezoneNow batchSize rounds auditAt
            db o s' →
          s' = db ∧ (o = none ∨ o = some (.error .raised) ∨ o = some (.error e)) := by
  constructor
  · intro counts hcounts
    refine ⟨purged policy now auditAt counts db, purged_spec policy now auditAt counts db, ?_⟩
    intro batchSize rounds hlow hhigh hrounds
    refine ⟨.of_counts ⟨hlow, hhigh⟩ hkeys hrounds hcounts, ?_⟩
    intro o s' h
    rcases h.outcome ⟨hlow, hhigh⟩ hkeys hrounds with
      ⟨counts', hcounts', ho, hs⟩ | ⟨hs, ho | ho | ⟨e, he, -⟩⟩
    · obtain rfl := Except.ok.inj (hcounts'.symm.trans hcounts)
      exact .inl ⟨ho, hs⟩
    · exact .inr ⟨hs, .inl ho⟩
    · exact .inr ⟨hs, .inr ho⟩
    · cases he.symm.trans hcounts
  -- a date that cannot be computed: the run raises before it deletes
  · intro e he batchSize rounds hlow hhigh hrounds o s' h
    rcases h.outcome ⟨hlow, hhigh⟩ hkeys hrounds with
      ⟨counts, hcounts, -, -⟩ | ⟨hs, ho | ho | ⟨e', he', ho⟩⟩
    · cases hcounts.symm.trans he
    · exact ⟨hs, .inl ho⟩
    · exact ⟨hs, .inr (.inl ho)⟩
    · obtain rfl := Except.error.inj (he'.symm.trans he)
      exact ⟨hs, .inr (.inr ho)⟩

/-- Every period is a day. -/
def samplePolicy : RetentionPolicy := ⟨1, 1, 1, 1, 1, by decide⟩

/-- A rejected message, which was decided at the time 0. -/
def sampleRejected : Message :=
  { id := 7, mailboxId := 1, uidValidity := 1, uid := 1, messageIdHash := [], sender := [],
    senderName := [], recipients := [], subject := [], receivedAt := none, sanitizedText := [],
    links := [], authentication := none, signals := [], risk := [], category := [], priority := 3,
    summary := [], state := State.rejected.value, ingestedAt := 0, decidedAt := some 0 }

/-- Two rejected messages, an attachment of one of them, and an audit event. -/
def sampleExpired : Db :=
  { users := [], mailboxes := [], mailboxSeq := 2,
    messages := [sampleRejected, { sampleRejected with id := 8, uid := 2 }],
    attachments := [⟨8, [], [], 0, [], false⟩], tokens := [], tokenSeq := 1,
    audit := [⟨1, [], [], [], [], [], 0⟩], auditSeq := 2 }

/-- After two days a purge deletes all rows, in batches of one and in a single batch. -/
theorem purgeRetention_exact_two_days : ∃ db',
    db'.messages = [] ∧ db'.attachments = [] ∧ db'.auditSeq = 3 ∧
      ∀ batchSize, 1 ≤ batchSize → batchSize ≤ 10000 →
        PurgeRetention samplePolicy true (some (2 * Time.day)) 0 batchSize 4 0 sampleExpired
          (some (.ok [(py "approved_messages", 0), (py "quarantined_messages", 0),
            (py "rejected_messages", 2), (py "inactive_tokens", 0), (py "audit_events", 1)]))
          db' := by
  have hkeys : Keys sampleExpired := ⟨by decide, by decide, by decide⟩
  have hcounts : retentionCounts samplePolicy (some (2 * Time.day)) 0 sampleExpired =
      .ok [(py "approved_messages", 0), (py "quarantined_messages", 0),
        (py "rejected_messages", 2), (py "inactive_tokens", 0), (py "audit_events", 1)] := by
    decide +kernel
  obtain ⟨db', hpurged, hruns⟩ :=
    (purgeRetention_exact samplePolicy true (2 * Time.day) 0 0 hkeys).1 _ hcounts
  refine ⟨db', ?_, ?_, hpurged.auditSeq, ?_⟩
  · rw [hpurged.messages]
    decide
  · rw [hpurged.attachments]
    decide
  · intro batchSize hlow hhigh
    exact (hruns batchSize 4 hlow hhigh (by decide)).1

end Purge

end Purge

end MailGate
