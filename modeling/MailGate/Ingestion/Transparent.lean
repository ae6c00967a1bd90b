import MailGate.Ingestion.Expiry
import MailGate.Lib.Outcomes
import MailGate.MailboxRows
import MailGate.Worker

/-!
# Runs that fail

A run commits its messages one by one and its cursor in the end.  A run that fails before this
commit leaves the cursor as it was, and a later run that gets the same replies takes the same
UIDs: the messages that are stored already make no difference to what it leaves.  Only a run
that fails behind this commit, whose acknowledgement may be lost, has moved the cursor.
-/

namespace MailGate

open Transaction

/-- The persisted `uid_validity` and `last_uid` of a mailbox. -/
def cursorOf (id : ℕ) (db : Db) : Option (Option ℕ × ℕ) :=
  (rowsOf db (.row id)).map fun m => (m.uidValidity, m.lastUid)

/-- The run is given this UIDVALIDITY, and to its SEARCH this reply, unless it fails before. -/
structure SameReplies (validity : ℕ) (values : List Item) (env : SyncEnv) : Prop where
  validity : ∀ v, (env.imap.response >>= uidvalidity) = .ok v → v = validity
  search : ∀ criteria reply, env.imap.uid 0 (.search criteria) = .ok (py "OK", reply) →
    reply = values

/-- Among the commits of the run is its final update, which has moved the cursor of its row. -/
structure FinalUpdate (env : SyncEnv) (mailbox : Mailbox) (batchSize : ℕ)
    (tr : List (Event Db)) (a b : Db) : Prop where
  committed : Event.own a b ∈ tr
  moved : CursorMoved env mailbox batchSize 1 a b
  cursor : cursorOf mailbox.id b ≠ cursorOf mailbox.id a

/-- Any number of runs on a mailbox that get the same replies, do not return, and do not come to
their final update. -/
inductive FailedRuns (fault : SyncExn → Prop) (id batchSize validity : ℕ) (values : List Item) :
    Db → Db → Prop where
  | nil (s : Db) : FailedRuns fault id batchSize validity values s s
  | fail {s s₁ s' : Db} {env : SyncEnv} {mailbox : Mailbox} {tr : List (Event Db)}
      {o : Option (Except SyncExn ℕ)} (hruns : FailedRuns fault id batchSize validity values s s₁)
      (hrow : rowsOf s₁ (.row id) = some mailbox) (hreplies : SameReplies validity values env)
      (hfailed : Exec (.alone fault) (syncMailbox env mailbox batchSize) s₁ tr o s')
      (hnot : ∀ n, o ≠ some (.ok n)) (hfinal : ∀ a b, ¬ FinalUpdate env mailbox batchSize tr a b) :
      FailedRuns fault id batchSize validity values s s'

/-- A run that gets these replies and returns. -/
def Succeeds (fault : SyncExn → Prop) (id batchSize validity : ℕ) (values : List Item)
    (s s' : Db) : Prop :=
  ∃ env mailbox tr n, rowsOf s (.row id) = some mailbox ∧ SameReplies validity values env ∧
    Exec (.alone fault) (syncMailbox env mailbox batchSize) s tr (some (.ok n)) s'

/-! ## The row after a failure -/

section Failed

variable {fault : SyncExn → Prop} {env : SyncEnv} {mailbox : Mailbox} {batchSize : ℕ}
  {s s' : Db} {tr : List (Event Db)} {o : Option (Except SyncExn ℕ)}

/-- What a later run reads of the row: whether it is enabled, and its cursor. -/
def runColumns (id : ℕ) (db : Db) : Option (Bool × Option ℕ × ℕ) :=
  (rowsOf db (.row id)).map fun m => (m.enabled, m.uidValidity, m.lastUid)

lemma runColumns_congr (h : s'.mailboxes = s.mailboxes) (id : ℕ) :
    runColumns id s' = runColumns id s := by
  simp only [runColumns, rowsOf, h]

lemma cursorOf_eq (id : ℕ) (db : Db) : cursorOf id db = (runColumns id db).map (·.2) := by
  simp only [cursorOf, runColumns, Option.map_map]
  rfl

/-- The update after a failure writes other columns. -/
lemma FailureRecorded.runColumns (h : FailureRecorded env mailbox s s') (id : ℕ) :
    runColumns id s' = runColumns id s := by
  obtain ⟨code, n, hupd⟩ := h
  have hrow := rowsOf_updateMailboxes (updateGuarded_eq_ok.1 hupd) (by exact fun m _ _ => rfl)
    (.row id)
  rw [MailGate.runColumns, MailGate.runColumns, hrow, Option.map_map]
  congr 1
  ext m : 1
  simp only [Function.comp_apply]
  by_cases hguard : guardsMailbox mailbox m = true
  · obtain ⟨version, hbump⟩ := bumpMailboxConfigVersion_eq m (setError env code m)
    rw [if_pos hguard, hbump]
    rfl
  · rw [if_neg hguard]

/-- The primary key leaves at most one row for an update to meet. -/
lemma countP_guardsMailbox_le (mailbox : Mailbox) (hs : (s.mailboxes.map (·.id)).Nodup) :
    s.mailboxes.countP (guardsMailbox mailbox) ≤ 1 := by
  have hsub : ((s.mailboxes.filter (guardsMailbox mailbox)).map (·.id)).Nodup :=
    hs.sublist (List.filter_sublist.map _)
  have hall : (s.mailboxes.filter (guardsMailbox mailbox)).map (·.id) =
      List.replicate (s.mailboxes.filter (guardsMailbox mailbox)).length mailbox.id := by
    refine List.eq_replicate_iff.2 ⟨by simp, ?_⟩
    intro id hid
    obtain ⟨m, hm, rfl⟩ := List.mem_map.1 hid
    exact guardsMailbox_id (List.mem_filter.1 hm).2
  rw [hall, List.nodup_replicate] at hsub
  rwa [List.countP_eq_length_filter]

/-- An update that does not meet exactly one row meets none. -/
lemma updateGuarded_missed {set : Mailbox → Mailbox} {n : ℕ}
    (hs : (s.mailboxes.map (·.id)).Nodup) (h : updateGuarded mailbox set s = .ok (n, s'))
    (hn : n ≠ 1) : s' = s := by
  have hupd := updateGuarded_eq_ok.1 h
  obtain ⟨-, hcount, -⟩ := Db.updateMailboxes_eq_ok.1 hupd
  have hle := countP_guardsMailbox_le mailbox hs
  have hzero : s.mailboxes.countP (guardsMailbox mailbox) = 0 := by omega
  have hnone : ∀ m ∈ s.mailboxes, guardsMailbox mailbox m = false := by
    intro m hm
    simpa using List.countP_eq_zero.1 hzero m hm
  obtain ⟨k, hskip⟩ := updateMailboxes_skip set hnone
  rw [hupd] at hskip
  exact (Prod.mk.inj (Except.ok.inj hskip)).2

/-- The final update writes the cursor of its own row only. -/
lemma CursorMoved.runColumns {n : ℕ} (h : CursorMoved env mailbox batchSize n s s') {id : ℕ}
    (hkept : id = mailbox.id → cursorOf id s' = cursorOf id s) :
    runColumns id s' = runColumns id s := by
  obtain ⟨plan, -, -, hupd⟩ := h
  have hrow := rowsOf_updateMailboxes (updateGuarded_eq_ok.1 hupd) (by exact fun m _ _ => rfl)
    (.row id)
  cases hold : rowsOf s (.row id) with
  | none => rw [MailGate.runColumns, MailGate.runColumns, hrow, hold, Option.map_none]
  | some m =>
    rw [hold, Option.map_some] at hrow
    by_cases hguard : guardsMailbox mailbox m = true
    · have hid : id = mailbox.id := (rowsOf_eq_some hold).2.symm.trans (guardsMailbox_id hguard)
      obtain ⟨version, hbump⟩ := bumpMailboxConfigVersion_eq m
        (setCursor env plan.uidValidity (plan.uids.foldl max plan.lastUid) m)
      rw [if_pos hguard, hbump] at hrow
      -- the update keeps `enabled`, and the cursor is the same
      have hcursor := hkept hid
      simp only [cursorOf, hrow, hold, Option.map_some, Option.some.injEq] at hcursor
      simp only [MailGate.runColumns, hrow, hold, Option.map_some, Option.some.injEq]
      exact Prod.ext rfl hcursor
    · rw [if_neg hguard] at hrow
      rw [MailGate.runColumns, MailGate.runColumns, hrow, hold]

lemma updateGuarded_stored {set : Mailbox → Mailbox} {n : ℕ}
    (h : updateGuarded mailbox set s = .ok (n, s')) (key : ℕ × ℕ × ℕ) :
    s'.Stored key ↔ s.Stored key := by
  obtain ⟨-, -, rfl⟩ := Db.updateMailboxes_eq_ok.1 (updateGuarded_eq_ok.1 h)
  rfl

/-- However a run ends, what it leaves of the row is what it found, or its final update has
moved the cursor. -/
lemma syncMailbox_cursor (hs : (s.mailboxes.map (·.id)).Nodup)
    (h : Exec (.alone fault) (syncMailbox env mailbox batchSize) s tr o s') (id : ℕ) :
    runColumns id s' = runColumns id s ∨ id = mailbox.id ∧
      ∃ a b, FinalUpdate env mailbox batchSize tr a b ∧ cursorOf id a = cursorOf id s ∧
        cursorOf id s' = cursorOf id b ∧ ∀ key, s'.Stored key ↔ b.Stored key := by
  obtain ⟨records, s₁, s₂, hsteps, hown, -⟩ := syncMailbox_exec h
  have hfirst : runColumns id s₁ = runColumns id s :=
    runColumns_congr hsteps.ingests.mailboxes_eq id
  have hlast : runColumns id s' = runColumns id s₂ ∧ ∀ key, s'.Stored key ↔ s₂.Stored key := by
    rcases hsteps.failure with rfl | hfailure
    · exact ⟨rfl, fun _ => Iff.rfl⟩
    · obtain ⟨code, n, hupd⟩ := hfailure
      exact ⟨FailureRecorded.runColumns ⟨code, n, hupd⟩ id, updateGuarded_stored hupd⟩
  by_cases hsame : s₂ = s₁
  · exact .inl (hlast.1.trans (hsame ▸ hfirst))
  · obtain ⟨n, hmoved⟩ := hsteps.cursor.resolve_left hsame
    -- an update that does not meet its row changes nothing
    have hone : n = 1 := by
      by_contra hn
      obtain ⟨plan, -, -, hupd⟩ := hmoved
      exact hsame (updateGuarded_missed (by rw [hsteps.ingests.mailboxes_eq]; exact hs) hupd hn)
    subst hone
    by_cases hcursor : id = mailbox.id → cursorOf id s₂ = cursorOf id s₁
    · exact .inl (hlast.1.trans ((hmoved.runColumns hcursor).trans hfirst))
    · obtain ⟨rfl, hne⟩ := Classical.not_imp.1 hcursor
      refine .inr ⟨rfl, s₁, s₂, ⟨hown.resolve_left hsame, hmoved, hne⟩, ?_, ?_, hlast.2⟩
      · rw [cursorOf_eq, cursorOf_eq, hfirst]
      · rw [cursorOf_eq, cursorOf_eq, hlast.1]

/-- A run whose final update is committed has a row for each UID that it has taken. -/
lemma FinalUpdate.stored {a b : Db}
    (h : Exec (.alone fault) (syncMailbox env mailbox batchSize) s tr o s')
    (hfinal : FinalUpdate env mailbox batchSize tr a b) : ∃ plan,
      Planned env mailbox batchSize plan ∧
        ∀ uid ∈ plan.uids, s'.Stored (mailbox.id, plan.uidValidity, uid) := by
  obtain ⟨plan, hplan, hstored, -⟩ := hfinal.moved
  -- no transaction of the run deletes a row
  have hkeeps : (syncMailbox env mailbox batchSize).Guarantees
      fun s s' => ∀ key, s.Stored key → s'.Stored key := by
    refine syncMailbox_guarantees ?_ ?_
    · intro validity uid tick item s created s' hbody key hkey
      rcases StoreArgs.transaction_cases hbody with ⟨-, rfl, -⟩ | ⟨-, rfl, hacc⟩
      · exact hkey
      · exact ((Ingests.cons hacc (.nil _)).stored_iff key).2 (.inl hkey)
    · intro columns s n s' hupd key
      exact (updateGuarded_stored hupd key).2
  refine ⟨plan, hplan, fun uid huid => ?_⟩
  exact (h.linked hkeeps).of_own_mem (fun _ _ hkeep => hkeep _) (fun _ _ henv => henv.elim)
    hfinal.committed (hstored uid huid)

end Failed

/-! ## The rows of messages -/

section Rows

variable {fault : SyncExn → Prop} {env : SyncEnv} {mailbox : Mailbox}
  {batchSize validity : ℕ} {values : List Item} {s s' : Db} {tr : List (Event Db)}
  {o : Option (Except SyncExn ℕ)}

/-- The UIDs that a run takes from the reply to its SEARCH. -/
def takenUids (batchSize validity : ℕ) (values : List Item) (mailbox : Mailbox) : List ℕ :=
  (freshUids values (cursorUnder mailbox validity)).take batchSize

/-- The replies determine the plan. -/
lemma SameReplies.plan_eq (h : SameReplies validity values env) {plan : SyncPlan}
    (hplan : Planned env mailbox batchSize plan) :
    plan =
      ⟨validity, cursorUnder mailbox validity, takenUids batchSize validity values mailbox⟩ := by
  obtain ⟨password, -, hplan⟩ := hplan
  obtain ⟨hvalidity, hcursor, reply, hsearch, huids⟩ := planSync_eq_ok hplan
  have hv := h.validity _ hvalidity
  have hreply := h.search _ _ hsearch
  subst hreply
  obtain ⟨v, lastUid, uids⟩ := plan
  simp only at hv hcursor huids
  subst hv hcursor
  rw [huids, takenUids]

/-- However a run ends, it only adds rows for UIDs that it has taken. -/
lemma syncMailbox_stored (hreplies : SameReplies validity values env)
    (h : Exec (.alone fault) (syncMailbox env mailbox batchSize) s tr o s') (key : ℕ × ℕ × ℕ) :
    (s.Stored key → s'.Stored key) ∧
      (s'.Stored key → s.Stored key ∨
        ∃ uid ∈ takenUids batchSize validity values mailbox,
          key = (mailbox.id, validity, uid)) := by
  obtain ⟨records, s₁, s₂, hsteps, -⟩ := syncMailbox_exec h
  have hcursor : s₂.Stored key ↔ s₁.Stored key := by
    rcases hsteps.cursor with rfl | ⟨n, plan, -, -, hupd⟩
    · rfl
    · exact updateGuarded_stored hupd key
  have hfailure : s'.Stored key ↔ s₂.Stored key := by
    rcases hsteps.failure with rfl | ⟨code, n, hupd⟩
    · rfl
    · exact updateGuarded_stored hupd key
  rw [hfailure, hcursor, hsteps.ingests.stored_iff]
  refine ⟨.inl, .imp_right ?_⟩
  rintro ⟨a, ha, rfl⟩
  obtain ⟨plan, hplan, uid, huid, tick, item, -, rfl⟩ := hsteps.planned a ha
  rw [hreplies.plan_eq hplan] at huid ⊢
  exact ⟨uid, huid, rfl⟩

/-- A run that returns has a row for each UID that it has taken, and moves the cursor there. -/
lemma syncMailbox_returned (hs : s.Valid) (hreplies : SameReplies validity values env)
    (henabled : mailbox.enabled = true) {n : ℕ}
    (h : Exec (.alone fault) (syncMailbox env mailbox batchSize) s tr (some (.ok n)) s') :
    (∀ uid ∈ takenUids batchSize validity values mailbox,
      s'.Stored (mailbox.id, validity, uid)) ∧
    cursorOf mailbox.id s' = some (some validity,
      (takenUids batchSize validity values mailbox).foldl max (cursorUnder mailbox validity)) := by
  obtain ⟨records, s₁, s₂, hsteps, -, hend⟩ := syncMailbox_exec h
  obtain ⟨-, hmoved⟩ := hend n rfl
  obtain ⟨plan, hplan, hstored, hupd⟩ := hmoved henabled
  rw [hreplies.plan_eq hplan] at hstored hupd
  refine ⟨fun uid huid => (updateGuarded_stored hupd _).2 (hstored uid huid), ?_⟩
  have hvalid : s₁.Valid := hsteps.ingests.valid hs
  have hboxes := updateGuarded_eq_ok.1 hupd
  obtain ⟨-, hcount, -⟩ := Db.updateMailboxes_eq_ok.1 hboxes
  obtain ⟨row, hrow, hguard⟩ :=
    List.countP_pos_iff.1 (Nat.lt_of_lt_of_eq Nat.one_pos hcount.symm)
  have hfound : rowsOf s₁ (.row mailbox.id) = some row := by
    rw [← guardsMailbox_id hguard]
    exact rowsOf_of_mem hvalid.mailbox_ids hrow
  rw [cursorOf, rowsOf_updateMailboxes hboxes (by exact fun m _ _ => rfl), hfound,
    Option.map_some, Option.map_some, if_pos hguard, bumpMailboxConfigVersion_lastUid,
    bumpMailboxConfigVersion_uidValidity]
  rfl

lemma syncMailbox_disabled (hdisabled : mailbox.enabled = false)
    (h : Exec (.alone fault) (syncMailbox env mailbox batchSize) s tr o s') : s' = s := by
  unfold syncMailbox at h
  rw [if_pos (by simp [hdisabled])] at h
  exact h.done_inv.2.1

end Rows

/-! ## Failed runs before a run that returns -/

section Runs

variable {fault : SyncExn → Prop} {id batchSize validity : ℕ} {values : List Item}
  {s s₁ s' : Db}

lemma cursorUnder_congr {m m' : Mailbox} (hvalidity : m'.uidValidity = m.uidValidity)
    (hlast : m'.lastUid = m.lastUid) : cursorUnder m' validity = cursorUnder m validity := by
  simp only [cursorUnder, hvalidity, hlast]

/-- Two rows from which the same UIDs are taken. -/
lemma runColumns_eq_some {mailbox : Mailbox} (hrow : rowsOf s' (.row id) = some mailbox)
    (h : runColumns id s' = runColumns id s) :
    ∃ m, rowsOf s (.row id) = some m ∧ mailbox.enabled = m.enabled ∧
      mailbox.uidValidity = m.uidValidity ∧ mailbox.lastUid = m.lastUid := by
  rw [runColumns, runColumns, hrow] at h
  obtain ⟨m, hm, hcols⟩ := Option.map_eq_some_iff.1 h.symm
  simp only [Prod.mk.injEq] at hcols
  exact ⟨m, hm, hcols.1.symm, hcols.2.1.symm, hcols.2.2.symm⟩

/-- The rows that runs with these replies may have added to `s`. -/
def Added (id batchSize validity : ℕ) (values : List Item) (s s' : Db) : Prop :=
  ∀ key, (s.Stored key → s'.Stored key) ∧
    (s'.Stored key → s.Stored key ∨ ∃ m, rowsOf s (.row id) = some m ∧ m.enabled = true ∧
      ∃ uid ∈ takenUids batchSize validity values m, key = (id, validity, uid))

/-- Failed runs leave the cursor, and add rows only that a run from the cursor adds. -/
lemma FailedRuns.kept (h : FailedRuns fault id batchSize validity values s s') (hs : s.Valid) :
    s'.Valid ∧ runColumns id s' = runColumns id s ∧ Added id batchSize validity values s s' := by
  induction h with
  | nil => exact ⟨hs, rfl, fun key => ⟨fun h => h, .inl⟩⟩
  | @fail s₁ s' env mailbox tr o _ hrow hreplies hfailed _ hfinal ih =>
    obtain ⟨hvalid, hcols, hadded⟩ := ih
    obtain ⟨records, t₁, t₂, hsteps, -⟩ := syncMailbox_exec hfailed
    refine ⟨hsteps.valid hvalid, ?_, ?_⟩
    · rcases syncMailbox_cursor hvalid.mailbox_ids hfailed id with hkept | ⟨-, a, b, hmoved, -⟩
      · exact hkept.trans hcols
      · exact absurd hmoved (hfinal a b)
    have hid : mailbox.id = id := (rowsOf_eq_some hrow).2
    obtain ⟨m, hm, hen, hval, hlast⟩ := runColumns_eq_some hrow hcols
    intro key
    obtain ⟨hkeep, hnew⟩ := syncMailbox_stored hreplies hfailed key
    refine ⟨fun h => hkeep ((hadded key).1 h), fun h => ?_⟩
    rcases hnew h with hold | ⟨uid, huid, hkey⟩
    · exact (hadded key).2 hold
    · cases hmailbox : mailbox.enabled with
      | false =>
        rw [syncMailbox_disabled hmailbox hfailed] at h
        exact (hadded key).2 h
      | true =>
        rw [takenUids, cursorUnder_congr hval hlast] at huid
        exact .inr ⟨m, hm, hen ▸ hmailbox, uid, huid, by rw [hkey, hid]⟩

/-- What a run that returns leaves when the rows of `s'` are those of `s`, and some that runs
from `s` add. -/
lemma Succeeds.reached {t : Db} (hs' : s'.Valid)
    (hcols : runColumns id s' = runColumns id s) (hadded : Added id batchSize validity values s s')
    (h : Succeeds fault id batchSize validity values s' t) :
    ∃ m, rowsOf s (.row id) = some m ∧
      (m.enabled = false → cursorOf id t = cursorOf id s ∧ ∀ key, t.Stored key ↔ s.Stored key) ∧
      (m.enabled = true →
        cursorOf id t = some (some validity,
          (takenUids batchSize validity values m).foldl max (cursorUnder m validity)) ∧
        ∀ key, t.Stored key ↔ s.Stored key ∨
          ∃ uid ∈ takenUids batchSize validity values m, key = (id, validity, uid)) := by
  obtain ⟨env, mailbox, tr, n, hrow, hreplies, hrun⟩ := h
  obtain ⟨m, hm, hen, hval, hlast⟩ := runColumns_eq_some hrow hcols
  have hid : mailbox.id = id := (rowsOf_eq_some hrow).2
  have hcursor : cursorUnder mailbox validity = cursorUnder m validity :=
    cursorUnder_congr hval hlast
  have htaken : takenUids batchSize validity values mailbox =
      takenUids batchSize validity values m := by
    rw [takenUids, takenUids, hcursor]
  -- the runs before have left the cursor, and have stored messages of this batch at most
  refine ⟨m, hm, fun hdisabled => ?_, fun henabled => ?_⟩
  · obtain rfl := syncMailbox_disabled (hen.trans hdisabled) hrun
    refine ⟨by rw [cursorOf_eq, cursorOf_eq, hcols], fun key => ⟨fun h => ?_, (hadded key).1⟩⟩
    rcases (hadded key).2 h with hold | ⟨m', hm', hen', -⟩
    · exact hold
    · rw [hm] at hm'
      obtain rfl := Option.some.inj hm'
      rw [hdisabled] at hen'
      cases hen'
  · obtain ⟨hall, hend⟩ := syncMailbox_returned hs' hreplies (hen.trans henabled) hrun
    rw [htaken, hid] at hall
    rw [htaken, hcursor, hid] at hend
    refine ⟨hend, fun key => ⟨fun h => ?_, ?_⟩⟩
    · rcases (syncMailbox_stored hreplies hrun key).2 h with hold | ⟨uid, huid, hkey⟩
      · rcases (hadded key).2 hold with hold | ⟨m', hm', -, hnew⟩
        · exact .inl hold
        · rw [hm] at hm'
          obtain rfl := Option.some.inj hm'
          exact .inr hnew
      · rw [htaken] at huid
        rw [hid] at hkey
        exact .inr ⟨uid, huid, hkey⟩
    · rintro (hold | ⟨uid, huid, rfl⟩)
      · exact (syncMailbox_stored hreplies hrun key).1 ((hadded key).1 hold)
      · exact hall uid huid

/-- A run that does not return leaves the cursor of every mailbox, unless its final update is
committed and has moved the cursor of its own.  After any number of runs that fail without this
commit, a run that returns leaves the same cursor and the same rows of messages as it would have
left without them, when all of them get the same UIDVALIDITY and the same reply to their SEARCH. -/
theorem syncMailbox_failure_transparent (fault : SyncExn → Prop) (id batchSize validity : ℕ)
    (values : List Item) (s : Db) (hs : s.Valid) :
    (∀ (env : SyncEnv) (mailbox : Mailbox) (tr : List (Event Db))
      (o : Option (Except SyncExn ℕ)) (s' : Db),
      Exec (.alone fault) (syncMailbox env mailbox batchSize) s tr o s' →
      (∀ n, o ≠ some (.ok n)) →
        cursorOf id s' = cursorOf id s ∨ id = mailbox.id ∧
          ∃ a b, FinalUpdate env mailbox batchSize tr a b ∧ cursorOf id a = cursorOf id s ∧
            cursorOf id s' = cursorOf id b ∧ ∀ key, s'.Stored key ↔ b.Stored key) ∧
    ∀ s₁, FailedRuns fault id batchSize validity values s s₁ →
      cursorOf id s₁ = cursorOf id s ∧
      ∀ s₂ t, Succeeds fault id batchSize validity values s₁ s₂ →
        Succeeds fault id batchSize validity values s t →
          cursorOf id s₂ = cursorOf id t ∧
          ∀ v uid, s₂.Stored (id, v, uid) ↔ t.Stored (id, v, uid) := by
  constructor
  · intro env mailbox tr o s' hfailed _
    refine (syncMailbox_cursor hs.mailbox_ids hfailed id).imp_left fun hkept => ?_
    rw [cursorOf_eq, cursorOf_eq, hkept]
  · intro s₁ hruns
    obtain ⟨hvalid, hcols, hadded⟩ := hruns.kept hs
    refine ⟨by rw [cursorOf_eq, cursorOf_eq, hcols], fun s₂ t hafter halone => ?_⟩
    have hnone : Added id batchSize validity values s s := fun key => ⟨fun h => h, .inl⟩
    -- both runs end where the row and the replies say, whether or not others failed before
    obtain ⟨m, hm, hidle, hran⟩ := hafter.reached hvalid hcols hadded
    obtain ⟨m', hm', hidle', hran'⟩ := halone.reached hs rfl hnone
    rw [hm] at hm'
    obtain rfl := Option.some.inj hm'
    cases hen : m.enabled with
    | false =>
      rw [(hidle hen).1, (hidle' hen).1]
      exact ⟨rfl, fun v uid => by rw [(hidle hen).2, (hidle' hen).2]⟩
    | true =>
      rw [(hran hen).1, (hran' hen).1]
      exact ⟨rfl, fun v uid => by rw [(hran hen).2, (hran' hen).2]⟩

end Runs

/-! ## A run that fails at its second message -/

lemma failingEnv_replies (answers : Bool) :
    SameReplies 7 [.bytes (bytes "1 2")] (failingEnv answers) where
  validity v hv := failingEnv_steady answers sampleMailbox 50 none v hv
  search criteria reply h := by
    cases h
    rfl

lemma succeeds_afterSync {s : Db}
    (hrow : rowsOf s (.row 1) = some (s.mailboxes.headD sampleMailbox))
    (hreturns : ((syncMailbox (failingEnv true) (s.mailboxes.headD sampleMailbox)).run
      s).1.toOption.isSome = true) :
    Succeeds (fun _ => False) 1 50 7 [.bytes (bytes "1 2")] s (afterSync true s) := by
  obtain ⟨tr, hrun⟩ := Exec.of_run (W := .alone fun _ => False)
    (syncMailbox (failingEnv true) (s.mailboxes.headD sampleMailbox)) s
  cases hend : ((syncMailbox (failingEnv true) (s.mailboxes.headD sampleMailbox)).run s).1 with
  | ok n =>
    rw [hend] at hrun
    exact ⟨_, _, tr, n, hrow, failingEnv_replies true, hrun⟩
  | error e =>
    rw [hend] at hreturns
    cases hreturns

/-- The failed run has stored the first message and left the cursor; the next run stores the
second. -/
theorem syncMailbox_failure_transparent_second :
    ∃ s₁ s₂ t, FailedRuns (fun _ => False) 1 50 7 [.bytes (bytes "1 2")] sampleDb s₁ ∧
      Succeeds (fun _ => False) 1 50 7 [.bytes (bytes "1 2")] s₁ s₂ ∧
      Succeeds (fun _ => False) 1 50 7 [.bytes (bytes "1 2")] sampleDb t ∧
      s₁.Stored (1, 7, 1) ∧ cursorOf 1 s₁ = some (none, 0) ∧ cursorOf 1 s₂ = cursorOf 1 t ∧
      ∀ v uid, s₂.Stored (1, v, uid) ↔ t.Stored (1, v, uid) := by
  have hraises : ((syncMailbox (failingEnv false) sampleMailbox).run
      sampleDb).1.toOption.isSome = false := by decide +kernel
  have hmissing : ¬ (afterSync false sampleDb).Stored (1, 7, 2) := by decide +kernel
  have hruns : FailedRuns (fun _ => False) 1 50 7 [.bytes (bytes "1 2")] sampleDb
      (afterSync false sampleDb) := by
    obtain ⟨tr, hrun⟩ := Exec.of_run (W := .alone fun _ => False)
      (syncMailbox (failingEnv false) sampleMailbox) sampleDb
    refine .fail (.nil sampleDb) rfl (failingEnv_replies false) hrun ?_ ?_
    · intro n hn
      rw [Option.some.inj hn] at hraises
      cases hraises
    · intro a b hfinal
      obtain ⟨plan, hplan, hstored⟩ := hfinal.stored hrun
      rw [(failingEnv_replies false).plan_eq hplan] at hstored
      exact hmissing (hstored 2 (by decide))
  have hafter := succeeds_afterSync (s := afterSync false sampleDb) (by decide +kernel)
    (by decide +kernel)
  have halone := succeeds_afterSync (s := sampleDb) rfl (by decide +kernel)
  obtain ⟨-, htransparent⟩ := syncMailbox_failure_transparent (fun _ => False) 1 50 7
    [.bytes (bytes "1 2")] sampleDb sampleDb_valid
  obtain ⟨hcursor, hlater⟩ := htransparent _ hruns
  obtain ⟨hsame, hrows⟩ := hlater _ _ hafter halone
  exact ⟨_, _, _, hruns, hafter, halone, by decide +kernel, hcursor, hsame, hrows⟩

/-! ## A run that never hears of its final update -/

/-- The acknowledgement of the final update can be lost, and the database error passes through
the handler. -/
lemma exec_lostUpdate {env : SyncEnv} {mailbox : Mailbox} {batchSize : ℕ} {s s₁ s' : Db}
    {plan : SyncPlan} {created last n : ℕ} (henabled : mailbox.enabled = true)
    (hplan : Planned env mailbox batchSize plan)
    (hloop : (syncUids env mailbox plan.uidValidity 0 plan.uids 0 plan.lastUid).run s =
      (.ok (created, last), s₁))
    (hupd : updateGuarded mailbox (setCursor env plan.uidValidity last) s₁ = .ok (n, s'))
    (hclose : closeImap env mailbox = .ok ()) :
    ∃ tr, Exec (.alone (· = .database)) (syncMailbox env mailbox batchSize) s tr
      (some (.error .database)) s' := by
  obtain ⟨password, hpassword, hplan⟩ := hplan
  obtain ⟨tr, hexec⟩ := Exec.of_run (W := .alone (· = SyncExn.database))
    (syncUids env mailbox plan.uidValidity 0 plan.uids 0 plan.lastUid) s
  rw [hloop] at hexec
  have hlost : Exec (.alone (· = SyncExn.database))
      (.atomic (updateGuarded mailbox (setCursor env plan.uidValidity last))) s₁
      ([.own s₁ s'] ++ []) (some (.error .database)) s' :=
    .txn (.lost hupd rfl) (.done _ _)
  have hbody : Exec (.alone (· = SyncExn.database)) (syncSelected env mailbox plan) s
      (tr ++ ([.own s₁ s'] ++ [])) (some (.error .database)) s' := hexec.bind_ok hlost.bind_error
  have hpass : Exec (.alone (· = SyncExn.database)) (syncFailed env mailbox .database) s' []
      (some (.error .database)) s' := .done _ s'
  have heq : syncMailbox env mailbox batchSize =
      ((syncSelected env mailbox plan).tryCatch (syncFailed env mailbox)).finallyDo
        (.compute (.ok ())) := by
    rw [syncMailbox, if_neg (by simp [henabled]), hpassword, Prog.compute_ok_bind, hplan,
      Prog.compute_ok_bind, hclose]
  rw [heq]
  exact ⟨_, (hbody.tryCatch_error hpass).finallyDo (.ok ())⟩

/-- Both messages are stored and the cursor is committed, but the run raises. -/
theorem syncMailbox_lostUpdate_moves : ∃ tr s',
    Exec (.alone (· = .database)) (syncMailbox (failingEnv true) sampleMailbox) sampleDb tr
      (some (.error .database)) s' ∧
    cursorOf 1 sampleDb = some (none, 0) ∧ cursorOf 1 s' = some (some 7, 2) := by
  have hplan : Planned (failingEnv true) sampleMailbox 50 ⟨7, 0, [1, 2]⟩ :=
    ⟨py "secret", rfl, by decide +kernel⟩
  have hloop : ((syncUids (failingEnv true) sampleMailbox 7 0 [1, 2] 0 0).run sampleDb).1 =
      .ok (2, 2) := by decide +kernel
  have hmoved : (updateGuarded sampleMailbox (setCursor (failingEnv true) 7 2)
      ((syncUids (failingEnv true) sampleMailbox 7 0 [1, 2] 0 0).run sampleDb).2).toOption.map
      (fun q => cursorOf 1 q.2) = some (some (some 7, 2)) := by decide +kernel
  obtain ⟨⟨n, s'⟩, hupd, hcursor⟩ := Option.map_eq_some_iff.1 hmoved
  obtain ⟨tr, hrun⟩ := exec_lostUpdate rfl hplan (Prod.ext hloop rfl)
    (Exceptions.toOption_eq_some.1 hupd) rfl
  exact ⟨tr, s', hrun, by decide, hcursor⟩

end MailGate
