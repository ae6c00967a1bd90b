import MailGate.Ingestion.Store

/-!
# The cursor and the UIDs that a run leaves behind

A run takes the first UIDs of the SEARCH reply in the order of the server, and then moves the
cursor to the largest of them.  This file settles which listed messages are left behind: those
that are neither stored nor above the cursor.
-/

namespace MailGate

open Transaction

/-! ## What a SEARCH reply lists -/

/-- The texts of the usable items of a reply. -/
def usableTexts : List Item → List Bytes
  | [] => []
  | .bytes b :: rest => b :: usableTexts rest
  | .tuple (_ :: some b :: _) :: rest => b :: usableTexts rest
  | _ :: rest => usableTexts rest

/-- The numbers in a text, in its order. -/
def numbersOf (text : Bytes) : List ℕ :=
  ((Bytes.splitWords text).filter Bytes.isdigit).filterMap Bytes.int

/-- The UIDs that a reply lists, in whichever of its texts. -/
def listedAnywhere (values : List Item) : List ℕ := (usableTexts values).flatMap numbersOf

/-- The UIDs above the cursor in the first text, in the order of the server. -/
def freshUids (values : List Item) (cursor : ℕ) : List ℕ :=
  (numbersOf (responseBytes values)).filter (cursor < ·)

/-- Reading a list of numbers succeeds with the numbers. -/
lemma mapM_intOrRaise {words : List Bytes} {uids : List ℕ}
    (h : words.mapM intOrRaise = .ok uids) : uids = words.filterMap Bytes.int := by
  induction words generalizing uids with
  | nil =>
    cases h
    rfl
  | cons word words ih =>
    rw [List.mapM_cons] at h
    obtain ⟨n, hn, h⟩ := Exceptions.bind_eq_ok.1 h
    obtain ⟨rest, hrest, h⟩ := Exceptions.bind_eq_ok.1 h
    cases h
    have hint : Bytes.int word = some n := by
      unfold intOrRaise at hn
      split at hn
      · rename_i m hm
        cases hn
        exact hm
      · cases hn
    rw [List.filterMap_cons_some hint, ih hrest]

lemma selectUids_eq_ok {values : List Item} {cursor batchSize : ℕ} {uids : List ℕ}
    (h : selectUids values cursor batchSize = .ok uids) :
    uids = (freshUids values cursor).take batchSize := by
  obtain ⟨all, hall, h⟩ := Exceptions.bind_eq_ok.1 h
  cases h
  rw [freshUids, numbersOf, ← mapM_intOrRaise hall]

/-- What a run has learnt from the server when it reaches its plan. -/
lemma planSync_eq_ok {env : SyncEnv} {mailbox : Mailbox} {password : PyStr} {batchSize : ℕ}
    {plan : SyncPlan} (h : planSync env mailbox password batchSize = .ok plan) :
    (env.imap.response >>= uidvalidity) = .ok plan.uidValidity ∧
      plan.lastUid = cursorUnder mailbox plan.uidValidity ∧
      ∃ values, env.imap.uid 0 (.search (searchCriteria plan.lastUid)) = .ok (py "OK", values) ∧
        plan.uids = (freshUids values plan.lastUid).take batchSize := by
  obtain ⟨_, -, h⟩ := Exceptions.bind_eq_ok.1 h
  obtain ⟨status, -, h⟩ := Exceptions.bind_eq_ok.1 h
  split at h
  · cases h
  obtain ⟨status, -, h⟩ := Exceptions.bind_eq_ok.1 h
  split at h
  · cases h
  obtain ⟨data, hdata, h⟩ := Exceptions.bind_eq_ok.1 h
  obtain ⟨validity, hvalidity, h⟩ := Exceptions.bind_eq_ok.1 h
  obtain ⟨⟨status, values⟩, hsearch, h⟩ := Exceptions.bind_eq_ok.1 h
  simp only at h
  split at h
  · cases h
  rename_i hstatus
  obtain ⟨uids, huids, h⟩ := Exceptions.bind_eq_ok.1 h
  cases h
  obtain rfl : status = py "OK" := not_not.1 hstatus
  refine ⟨?_, rfl, values, hsearch, selectUids_eq_ok huids⟩
  rw [hdata, Exceptions.ok_bind]
  exact hvalidity

/-! ## The cursor after a run -/

lemma foldl_max_lt {uids : List ℕ} {cursor bound : ℕ} :
    uids.foldl max cursor < bound ↔ cursor < bound ∧ ∀ uid ∈ uids, uid < bound := by
  induction uids generalizing cursor with
  | nil => simp
  | cons uid uids ih =>
    rw [List.foldl_cons, ih, max_lt_iff, List.forall_mem_cons]
    tauto

@[simp] lemma bumpMailboxConfigVersion_lastUid (old new : Mailbox) :
    (bumpMailboxConfigVersion old new).lastUid = new.lastUid := by
  unfold bumpMailboxConfigVersion
  split <;> rfl

lemma updateGuarded_eq_ok {mailbox : Mailbox} {set : Mailbox → Mailbox} {s s' : Db} {n : ℕ} :
    updateGuarded mailbox set s = .ok (n, s') ↔
      s.updateMailboxes (guardsMailbox mailbox) set = .ok (n, s') := by
  unfold updateGuarded
  cases s.updateMailboxes (guardsMailbox mailbox) set with
  | ok q => simp
  | error e => simp

lemma guardsMailbox_id {mailbox m : Mailbox} (h : guardsMailbox mailbox m = true) :
    m.id = mailbox.id := by
  simp only [guardsMailbox, Bool.and_eq_true, beq_iff_eq] at h
  exact h.1.1

/-- The final update of a run, on its one row, persists the largest UID as the cursor. -/
lemma CursorMoved.lastUid {env : SyncEnv} {mailbox : Mailbox} {batchSize : ℕ} {s s' : Db}
    (hvalid : s.Valid) (h : CursorMoved env mailbox batchSize 1 s s') :
    ∃ plan, Planned env mailbox batchSize plan ∧
      (∀ uid ∈ plan.uids, s.Stored (mailbox.id, plan.uidValidity, uid)) ∧
      s'.messages = s.messages ∧ (∃ row ∈ s'.mailboxes, row.id = mailbox.id) ∧
      ∀ row ∈ s'.mailboxes, row.id = mailbox.id →
        row.lastUid = plan.uids.foldl max plan.lastUid := by
  obtain ⟨plan, hplan, hstored, hupd⟩ := h
  obtain ⟨-, hcount, rfl⟩ := Db.updateMailboxes_eq_ok.1 (updateGuarded_eq_ok.1 hupd)
  obtain ⟨box, hbox, hguard⟩ := List.countP_pos_iff.1 (Nat.lt_of_lt_of_eq Nat.one_pos hcount.symm)
  refine ⟨plan, hplan, hstored, rfl, ⟨_, List.mem_map_of_mem hbox, ?_⟩, ?_⟩
  · rw [if_pos hguard, Db.bumpMailboxConfigVersion_id]
    exact guardsMailbox_id hguard
  · intro row hrow hid
    obtain ⟨m, hm, rfl⟩ := List.mem_map.1 hrow
    have hmid : m.id = mailbox.id := by
      split at hid
      · rwa [Db.bumpMailboxConfigVersion_id] at hid
      · exact hid
    -- the primary key leaves one row for the update to meet
    obtain rfl : m = box :=
      Db.eq_of_map_nodup hvalid.mailbox_ids hm hbox (hmid.trans (guardsMailbox_id hguard).symm)
    rw [if_pos hguard, bumpMailboxConfigVersion_lastUid]
    rfl

/-- A run that returns leaves no listed message behind exactly if each fresh UID that the
reply lists, in whichever of its texts, has a row already, or is one of the first
`batchSize` of the first text, or lies above all of these. -/
theorem syncMailbox_none_skipped_iff {fault : SyncExn → Prop} {env : SyncEnv}
    {mailbox : Mailbox} {batchSize validity n : ℕ} {status : PyStr} {values : List Item}
    {s s' : Db} {tr : List (Event Db)} (hvalid : s.Valid) (henabled : mailbox.enabled = true)
    (hvalidity : (env.imap.response >>= uidvalidity) = .ok validity)
    (hsearch : env.imap.uid 0 (.search (searchCriteria (cursorUnder mailbox validity))) =
      .ok (status, values))
    (hrun : Exec (.alone fault) (syncMailbox env mailbox batchSize) s tr (some (.ok n)) s') :
    (∀ uid ∈ listedAnywhere values, cursorUnder mailbox validity < uid →
        s'.Stored (mailbox.id, validity, uid) ∨
          ∀ row ∈ s'.mailboxes, row.id = mailbox.id → row.lastUid < uid) ↔
      ∀ uid ∈ listedAnywhere values, cursorUnder mailbox validity < uid →
        s.Stored (mailbox.id, validity, uid) ∨
          uid ∈ (freshUids values (cursorUnder mailbox validity)).take batchSize ∨
          ∀ taken ∈ (freshUids values (cursorUnder mailbox validity)).take batchSize,
            taken < uid := by
  obtain ⟨records, s₁, s₂, hsteps, -, hend⟩ := syncMailbox_exec hrun
  obtain ⟨-, hmoved⟩ := hend n rfl
  obtain ⟨plan, ⟨password, -, hplan⟩, hstored, hmsg, ⟨row, hrow, hid⟩, hlast⟩ :=
    (hmoved henabled).lastUid (hsteps.ingests.valid hvalid)
  obtain ⟨hval, hcur, values', hsearch', huids⟩ := planSync_eq_ok hplan
  obtain rfl : validity = plan.uidValidity := Except.ok.inj (hvalidity.symm.trans hval)
  rw [hcur] at hsearch' huids hlast
  obtain ⟨rfl, rfl⟩ : status = py "OK" ∧ values = values' := by
    simpa using hsearch.symm.trans hsearch'
  rw [← huids]
  -- the table after the run: what it held before, and rows for UIDs that were taken
  have hafter : ∀ uid, s'.Stored (mailbox.id, plan.uidValidity, uid) ↔
      s.Stored (mailbox.id, plan.uidValidity, uid) ∨ uid ∈ plan.uids := by
    intro uid
    have hsame : s'.Stored (mailbox.id, plan.uidValidity, uid) ↔
        s₁.Stored (mailbox.id, plan.uidValidity, uid) := by
      rw [Db.Stored, hmsg, Db.Stored]
    rw [hsame]
    constructor
    · intro h
      rcases (hsteps.ingests.stored_iff _).1 h with h | ⟨a, ha, hkey⟩
      · exact .inl h
      · obtain ⟨plan', ⟨password', hpw', hplan'⟩, u, hu, tick, item, -, rfl⟩ :=
          hsteps.planned a ha
        obtain ⟨hval', hcur', values', hsearch', huids'⟩ := planSync_eq_ok hplan'
        have hvv : plan'.uidValidity = plan.uidValidity :=
          Except.ok.inj (hval'.symm.trans hval)
        rw [hcur', hvv] at hsearch' huids'
        obtain ⟨-, rfl⟩ : py "OK" = py "OK" ∧ values = values' := by
          simpa using hsearch.symm.trans hsearch'
        have huid : u = uid := congrArg (fun k => k.2.2) hkey
        right
        rw [huids, ← huids', ← huid]
        exact hu
    · rintro (h | h)
      · exact (hsteps.ingests.stored_iff _).2 (.inl h)
      · exact hstored uid h
  have habove : ∀ uid, cursorUnder mailbox plan.uidValidity < uid →
      ((∀ row ∈ s'.mailboxes, row.id = mailbox.id → row.lastUid < uid) ↔
        ∀ taken ∈ plan.uids, taken < uid) := by
    intro uid hfresh
    constructor
    · intro h
      have hlt := h row hrow hid
      rw [hlast row hrow hid, foldl_max_lt] at hlt
      exact hlt.2
    · intro h row hrow hid
      rw [hlast row hrow hid, foldl_max_lt]
      exact ⟨hfresh, h⟩
  refine forall_congr' fun uid => ?_
  refine imp_congr_right fun hlisted => ?_
  refine imp_congr_right fun hfresh => ?_
  rw [hafter, habove uid hfresh, or_assoc]

/-- A server whose SEARCH reply is `text`, and whose messages are all too large to fetch. -/
def searchEnv (text : Bytes) : SyncEnv :=
  sampleEnv (sampleLibrary blankMessage [] []) fun n _ =>
    match n with
    | 0 => .ok (py "OK", [.bytes text])
    | _ => .ok (py "OK", [.bytes (bytes "1 (RFC822.SIZE 20000000)")])

theorem syncMailbox_none_skipped_ascending :
    ∃ tr s', Exec (.alone fun _ => False) (syncMailbox (searchEnv (bytes "5 20")) sampleMailbox 1)
        sampleDb tr (some (.ok 1)) s' ∧
      ∀ uid ∈ listedAnywhere [.bytes (bytes "5 20")], cursorUnder sampleMailbox 7 < uid →
        s'.Stored (sampleMailbox.id, 7, uid) ∨
          ∀ row ∈ s'.mailboxes, row.id = sampleMailbox.id → row.lastUid < uid := by
  obtain ⟨tr, hrun⟩ := Exec.of_run (W := .alone fun _ => False)
    (syncMailbox (searchEnv (bytes "5 20")) sampleMailbox 1) sampleDb
  have hok : ((syncMailbox (searchEnv (bytes "5 20")) sampleMailbox 1).run sampleDb).1 = .ok 1 := by
    decide +kernel
  rw [hok] at hrun
  exact ⟨tr, _, hrun, (syncMailbox_none_skipped_iff sampleDb_valid rfl (by decide) rfl hrun).2
    (by decide)⟩

/-- With the UIDs in descending order, the run takes 20, moves the cursor there, and the
message 5 is never listed again. -/
theorem syncMailbox_skips_five :
    ∃ tr s', Exec (.alone fun _ => False) (syncMailbox (searchEnv (bytes "20 5")) sampleMailbox 1)
        sampleDb tr (some (.ok 1)) s' ∧
      ¬ ∀ uid ∈ listedAnywhere [.bytes (bytes "20 5")], cursorUnder sampleMailbox 7 < uid →
        s'.Stored (sampleMailbox.id, 7, uid) ∨
          ∀ row ∈ s'.mailboxes, row.id = sampleMailbox.id → row.lastUid < uid := by
  obtain ⟨tr, hrun⟩ := Exec.of_run (W := .alone fun _ => False)
    (syncMailbox (searchEnv (bytes "20 5")) sampleMailbox 1) sampleDb
  have hok : ((syncMailbox (searchEnv (bytes "20 5")) sampleMailbox 1).run sampleDb).1 = .ok 1 := by
    decide +kernel
  rw [hok] at hrun
  refine ⟨tr, _, hrun, ?_⟩
  decide +kernel

end MailGate
