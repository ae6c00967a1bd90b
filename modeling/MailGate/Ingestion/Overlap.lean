import MailGate.Lib.Pool
import MailGate.MailboxRows

/-!
# Runs that overlap

A run of `sync_mailbox` writes the cursor that it has computed from its own copy of the mailbox.
Another run can have moved the cursor since.  The persisted `last_uid` decreases exactly if a
run ends that was overtaken: one that comes to its final update when the cursor is above all
that the run knows of.
-/

namespace MailGate

open Transaction Prog

/-- The persisted `last_uid` of a mailbox. -/
def lastUidOf (id : ℕ) (db : Db) : ℕ := ((rowsOf db (.row id)).map (·.lastUid)).getD 0

/-- A worker process reads the mailbox and synchronises it. -/
def syncOnce (env : SyncEnv) (id batchSize : ℕ) : Prog Db SyncExn ℕ := do
  let row ← .atomic fun db => .ok (rowsOf db (.row id), db)
  match row with
  | none => return 0
  | some mailbox => syncMailbox env mailbox batchSize

/-- What a worker process does with what it has read. -/
def afterRead (env : SyncEnv) (batchSize : ℕ) :
    Except SyncExn (Option Mailbox) → Prog Db SyncExn ℕ
  | .error e => .done (.error e)
  | .ok none => pure 0
  | .ok (some mailbox) => syncMailbox env mailbox batchSize

lemma syncOnce_eq (env : SyncEnv) (id batchSize : ℕ) : syncOnce env id batchSize =
    .txn (fun db => .ok (rowsOf db (.row id), db)) (afterRead env batchSize) := by
  show Prog.txn _ _ = Prog.txn _ _
  congr 1
  ext r
  match r with
  | .error e => rfl
  | .ok none => rfl
  | .ok (some mailbox) => rfl

/-- What is left of a run after its last message. -/
def finalUpdate (env : SyncEnv) (mailbox : Mailbox) (plan : SyncPlan) (created : ℕ) :
    Prog Db SyncExn ℕ :=
  (Prog.tryCatch
    (do
      let updated ← .atomic (updateGuarded mailbox
        (setCursor env plan.uidValidity (plan.uids.foldl max plan.lastUid)))
      Prog.ensure (updated = 1) (.mailboxSync (py "configuration_changed"))
      return created)
    (syncFailed env mailbox)).finallyDo (.compute (closeImap env mailbox))

variable {ι : Type}

/-- The steps of runs side by side. -/
abbrev SyncStep (ι : Type) := Runs.Taken (Pool Db SyncExn ℕ ι) (PoolEvent Db ι)

/-- A run commits its final update to a row whose cursor is above the cursor that the run has
started from, and above every UID that it has taken from the reply to its SEARCH. -/
def Overtaken (envs : ι → SyncEnv) (batchSize : ι → ℕ) (id : ℕ) (t : SyncStep ι) : Prop :=
  ∃ l ev mailbox plan created row,
    t.label = .run l ev ∧ ev ≠ [] ∧
    ⟨l, finalUpdate (envs l) mailbox plan created⟩ ∈ t.before.clients ∧
    Planned (envs l) mailbox (batchSize l) plan ∧
    rowsOf t.before.state (.row id) = some row ∧ guardsMailbox mailbox row = true ∧
    plan.lastUid < row.lastUid ∧ ∀ uid ∈ plan.uids, uid < row.lastUid

/-- Other parties leave the mailboxes alone. -/
def besideMailboxes (fault : SyncExn → Prop) : World Db SyncExn :=
  ⟨fun s s' => s'.mailboxes = s.mailboxes, fault⟩

/-! ## What the statements do to the cursor -/

section Statements

variable {env : SyncEnv} {mailbox : Mailbox} {id : ℕ} {s s' : Db}

lemma lastUidOf_congr (h : s'.mailboxes = s.mailboxes) : lastUidOf id s' = lastUidOf id s := by
  simp only [lastUidOf, rowsOf, h]

lemma lastUidOf_row {row : Mailbox} (h : rowsOf s (.row id) = some row) :
    lastUidOf id s = row.lastUid := by
  rw [lastUidOf, h]
  rfl

/-- An update of the row writes the column, an update of other rows does not. -/
lemma lastUidOf_updateGuarded {set : Mailbox → Mailbox} {n : ℕ} (hset : ∀ m, (set m).id = m.id)
    (h : updateGuarded mailbox set s = .ok (n, s')) :
    (lastUidOf id s' = lastUidOf id s ∧
      ∀ row, rowsOf s (.row id) = some row → ¬ guardsMailbox mailbox row = true) ∨
    ∃ row, rowsOf s (.row id) = some row ∧ guardsMailbox mailbox row = true ∧
      lastUidOf id s' = (set row).lastUid := by
  have hrow := rowsOf_updateMailboxes (updateGuarded_eq_ok.1 h) (fun m _ _ => hset m) (.row id)
  cases hs : rowsOf s (.row id) with
  | none =>
    rw [hs] at hrow
    refine .inl ⟨?_, by simp⟩
    rw [lastUidOf, lastUidOf, hrow, hs]
    rfl
  | some row =>
    rw [hs, Option.map_some] at hrow
    by_cases hguard : guardsMailbox mailbox row = true
    · rw [if_pos hguard] at hrow
      refine .inr ⟨row, rfl, hguard, ?_⟩
      rw [lastUidOf_row hrow, bumpMailboxConfigVersion_lastUid]
    · rw [if_neg hguard] at hrow
      refine .inl ⟨?_, ?_⟩
      · rw [lastUidOf_row hrow, lastUidOf_row hs]
      · rintro _ ⟨⟩
        exact hguard

end Statements

/-! ## What is left of a run -/

/-- The first transaction of a program does not move the cursor. -/
def KeepsCursor (id : ℕ) : Prog Db SyncExn ℕ → Prop
  | .done _ => True
  | .txn body _ => ∀ s b s', body s = .ok (b, s') → lastUidOf id s' = lastUidOf id s

/-- The next transaction of a run does not move the cursor, or it is the final update. -/
def CursorStep (env : SyncEnv) (batchSize id : ℕ) (q : Prog Db SyncExn ℕ) : Prop :=
  KeepsCursor id q ∨
    ∃ mailbox plan created, Planned env mailbox batchSize plan ∧
      q = finalUpdate env mailbox plan created

section Run

variable {env : SyncEnv} {mailbox : Mailbox} {batchSize id : ℕ}

lemma recordFailure_every (code : PyStr) :
    ((recordFailure env mailbox code).finallyDo
      (.compute (closeImap env mailbox))).Every (CursorStep env batchSize id) := by
  unfold recordFailure
  split
  · refine ⟨.inl fun s n s' hupd => ?_, fun r => ?_⟩
    · rcases lastUidOf_updateGuarded (by exact fun m => rfl) hupd with
        ⟨heq, -⟩ | ⟨row, hrow, -, heq⟩
      · exact heq
      · rw [heq, lastUidOf_row hrow]
        rfl
    · cases r <;> trivial
  · trivial

lemma syncFailed_every (exc : SyncExn) :
    ((syncFailed env mailbox exc).finallyDo
      (.compute (closeImap env mailbox))).Every (CursorStep env batchSize id) := by
  cases exc with
  | mailboxSync code => exact recordFailure_every code
  | connection => exact recordFailure_every _
  | database => trivial
  | credential => trivial
  | other => trivial

lemma finalUpdate_every {plan : SyncPlan} (hplan : Planned env mailbox batchSize plan)
    (created : ℕ) :
    (finalUpdate env mailbox plan created).Every (CursorStep env batchSize id) := by
  refine ⟨.inr ⟨mailbox, plan, created, hplan, rfl⟩, fun r => ?_⟩
  cases r with
  | error e => exact syncFailed_every e
  | ok n =>
    by_cases hone : n = 1
    · subst hone
      trivial
    · show ((Prog.tryCatch (Prog.ensure (n = 1) _ >>= fun _ => pure created) _).finallyDo _).Every _
      rw [Prog.ensure_false hone]
      exact syncFailed_every _

/-- The loop over the messages and the final update. -/
lemma syncUids_every {plan : SyncPlan} (hplan : Planned env mailbox batchSize plan)
    {tick created lastUid : ℕ} {uids : List ℕ}
    (huids : uids.foldl max lastUid = plan.uids.foldl max plan.lastUid) :
    ((Prog.tryCatch
      (do
        let (created, lastUid) ← syncUids env mailbox plan.uidValidity tick uids created lastUid
        let updated ← .atomic (updateGuarded mailbox (setCursor env plan.uidValidity lastUid))
        Prog.ensure (updated = 1) (.mailboxSync (py "configuration_changed"))
        return created)
      (syncFailed env mailbox)).finallyDo
        (.compute (closeImap env mailbox))).Every (CursorStep env batchSize id) := by
  induction uids generalizing tick created lastUid with
  | nil =>
    rw [List.foldl_nil] at huids
    rw [huids]
    exact finalUpdate_every hplan created
  | cons uid uids ih =>
    rw [syncUids]
    cases hitem : fetchMessage env tick uid with
    | error e => exact syncFailed_every e
    | ok item =>
      refine ⟨.inl fun s new s' hstore => ?_, fun r => ?_⟩
      · rcases StoreArgs.transaction_cases hstore with ⟨-, rfl, -⟩ | ⟨-, rfl, -⟩
        · rfl
        · exact lastUidOf_congr rfl
      · cases r with
        | error e => exact syncFailed_every e
        | ok new => exact ih huids

lemma syncOnce_every (env : SyncEnv) (id batchSize : ℕ) :
    (syncOnce env id batchSize).Every (CursorStep env batchSize id) := by
  rw [syncOnce_eq]
  refine ⟨.inl fun s row s' hread => ?_, fun r => ?_⟩
  · cases hread
    rfl
  · cases r with
    | error e => trivial
    | ok row =>
      cases row with
      | none => trivial
      | some mailbox =>
        rw [afterRead, syncMailbox]
        split
        · trivial
        · cases hpassword : env.decryptSecret mailbox.passwordEncrypted with
          | error e => trivial
          | ok password =>
            rw [compute_ok_bind]
            cases hplan : planSync env mailbox password batchSize with
            | error e => exact syncFailed_every e
            | ok plan => exact syncUids_every ⟨password, hpassword, hplan⟩ rfl

end Run

/-! ## Runs side by side -/

section Pool

variable {fault : SyncExn → Prop} {envs : ι → SyncEnv} {batchSize : ι → ℕ} {id : ℕ}

/-- What a transaction can do to the state: what it commits, or nothing. -/
lemma answer_cases {W : World Db SyncExn} {β : Type} {body : Db → Except SyncExn (β × Db)}
    {s s' : Db} {ev : List (Event Db)} {r : Except SyncExn β} (h : Answer W body s ev r s') :
    ev = [] ∧ s' = s ∨ ev ≠ [] ∧ ∃ b, body s = .ok (b, s') := by
  cases h with
  | commit hbody => exact .inr ⟨by simp, _, hbody⟩
  | abort => exact .inl ⟨rfl, rfl⟩
  | fail => exact .inl ⟨rfl, rfl⟩
  | lost hbody => exact .inr ⟨by simp, _, hbody⟩

/-- The first transaction of the final update. -/
lemma finalUpdate_answer {W : World Db SyncExn} {env : SyncEnv} {mailbox : Mailbox}
    {plan : SyncPlan} {created : ℕ} {β : Type} {body : Db → Except SyncExn (β × Db)}
    {next : Except SyncExn β → Prog Db SyncExn ℕ} {s s' : Db} {ev : List (Event Db)}
    {r : Except SyncExn β} (hprog : finalUpdate env mailbox plan created = .txn body next)
    (h : Answer W body s ev r s') :
    ev = [] ∧ s' = s ∨ ev ≠ [] ∧ ∃ n, updateGuarded mailbox
      (setCursor env plan.uidValidity (plan.uids.foldl max plan.lastUid)) s = .ok (n, s') := by
  change Prog.txn _ _ = Prog.txn body next at hprog
  cases hprog
  exact answer_cases h

/-- The cursor never goes back, unless a run ends that was overtaken. -/
theorem overlappingRuns_cursor_iff {db : Db} {tr : List (SyncStep ι)} {p : Pool Db SyncExn ℕ ι}
    (h : Pool.Run (besideMailboxes fault) (fun l => syncOnce (envs l) id (batchSize l))
      ⟨db, []⟩ tr p) :
    (∀ t ∈ tr, lastUidOf id t.before.state ≤ lastUidOf id t.after.state) ↔
      ∀ t ∈ tr, ¬ Overtaken envs batchSize id t := by
  have hkeeps := Pool.keeps_every (W := besideMailboxes fault)
    fun l => syncOnce_every (envs l) id (batchSize l)
  have hholds := (hkeeps.run_holds h ⟨by simp, trivial, by simp⟩).2
  refine forall₂_congr fun t ht => ?_
  have hstep := h.step_of_mem t ht
  have hbefore := (hholds t ht).1
  constructor
  · rintro hle ⟨l, ev, mailbox, plan, created, row, hlabel, hev, hmem, hplan, hrow, hguard,
      hcursor, huids⟩
    rw [hlabel] at hstep
    obtain ⟨β, body, next, r, hprog, hanswer⟩ := Pool.Step.client_eq hbefore hstep hmem
    rcases finalUpdate_answer hprog hanswer with ⟨hnil, -⟩ | ⟨-, n, hupd⟩
    · exact hev hnil
    · -- the update meets the row and writes a smaller number
      rcases lastUidOf_updateGuarded (by exact fun m => rfl) hupd with
        ⟨-, hmissed⟩ | ⟨row', hrow', -, hset⟩
      · exact hmissed row hrow hguard
      · have hlower : plan.uids.foldl max plan.lastUid < row.lastUid :=
          foldl_max_lt.2 ⟨hcursor, huids⟩
        rw [hset, lastUidOf_row hrow] at hle
        exact absurd hle (not_le.2 hlower)
  · intro hnot
    rcases hstep.cases_state with ⟨l, ev, hlabel, q, hq⟩ | hsame | henv
    · rw [hlabel] at hstep
      obtain ⟨β, body, next, r, hprog, hanswer⟩ := Pool.Step.client_eq hbefore hstep hq
      have hevery : q.Every (CursorStep (envs l) (batchSize l) id) := hbefore.client _ hq
      rw [hprog] at hevery
      rcases hevery.1 with hkept | ⟨mailbox, plan, created, hplan, hfinal⟩
      · rcases answer_cases hanswer with ⟨-, heq⟩ | ⟨-, b, hbody⟩
        · rw [heq]
        · exact (hkept _ _ _ hbody).ge
      · rcases finalUpdate_answer hfinal.symm hanswer with ⟨-, heq⟩ | ⟨hev, n, hupd⟩
        · rw [heq]
        · rcases lastUidOf_updateGuarded (by exact fun m => rfl) hupd with
            ⟨heq, -⟩ | ⟨row, hrow, hguard, hset⟩
          · exact heq.ge
          · rw [hset, lastUidOf_row hrow]
            by_contra hlower
            obtain ⟨hcursor, huids⟩ := foldl_max_lt.1 (not_le.1 hlower)
            refine hnot ⟨l, ev, mailbox, plan, created, row, hlabel, hev, ?_, hplan, hrow, hguard,
              hcursor, huids⟩
            rw [← hfinal, ← hprog]
            exact hq
    · rw [hsame]
    · exact (lastUidOf_congr henv).ge

end Pool

/-! ## A run that is overtaken -/

/-- Two worker processes: the mailbox gets a message between the two searches. -/
def overlappingEnvs (late : Bool) : SyncEnv := searchEnv (if late then bytes "5 20" else bytes "5")

/-- Both runs read the mailbox.  The late one ends first and writes 20, then the other one
writes 5. -/
lemma overtaken_run : ∃ tr₁ p₁ tr₂ p₂,
    Pool.Run (besideMailboxes fun _ => False) (fun l => syncOnce (overlappingEnvs l) 1 50)
      ⟨sampleDb, []⟩ (tr₁ ++ tr₂) p₂ ∧
    Pool.Run (besideMailboxes fun _ => False) (fun l => syncOnce (overlappingEnvs l) 1 50)
      p₁ tr₂ p₂ ∧
    lastUidOf 1 p₁.state = 20 ∧ lastUidOf 1 p₂.state = 5 := by
  let W := besideMailboxes fun _ => False
  let programs := fun l => syncOnce (overlappingEnvs l) 1 50
  let read := fun l => afterRead (overlappingEnvs l) 50 (.ok (some sampleMailbox))
  have hprog : ∀ l, programs l = .txn (fun db => .ok (rowsOf db (.row 1), db))
      (afterRead (overlappingEnvs l) 50) := fun l => syncOnce_eq _ _ _
  have hfirst : Pool.Step W programs (.start false) ⟨sampleDb, []⟩
      ⟨sampleDb, [⟨false, programs false⟩]⟩ := .start (by simp)
  have hlate : Pool.Step W programs (.start true) ⟨sampleDb, [⟨false, programs false⟩]⟩
      ⟨sampleDb, [⟨false, programs false⟩, ⟨true, programs true⟩]⟩ := .start (by simp)
  have hread : Pool.Step W programs (.run false [.own sampleDb sampleDb])
      ⟨sampleDb, [] ++ ⟨false, programs false⟩ :: [⟨true, programs true⟩]⟩
      ⟨sampleDb, [] ++ ⟨false, read false⟩ :: [⟨true, programs true⟩]⟩ := by
    rw [hprog false]
    exact .run (.commit rfl)
  have hread' : Pool.Step W programs (.run true [.own sampleDb sampleDb])
      ⟨sampleDb, [⟨false, read false⟩] ++ ⟨true, programs true⟩ :: []⟩
      ⟨sampleDb, [⟨false, read false⟩] ++ ⟨true, read true⟩ :: []⟩ := by
    rw [hprog true]
    exact .run (.commit rfl)
  obtain ⟨tr, hrun, -⟩ := Pool.Run.of_run_among W programs [⟨false, read false⟩] [] true (read true)
    sampleDb
  obtain ⟨tr₂, hrun', -⟩ := Pool.Run.of_run_among W programs []
    [⟨true, .done ((read true).run sampleDb).1⟩] false (read false) ((read true).run sampleDb).2
  refine ⟨_, _, tr₂, _, Runs.Run.append
    (.cons hfirst (.cons hlate (.cons hread (.cons hread' hrun))))
    hrun', hrun', ?_, ?_⟩
  · decide +kernel
  · decide +kernel

/-- Where the cursor goes back, some step lowers it. -/
lemma not_forall_cursor_le {W : World Db SyncExn} {programs : ι → Prog Db SyncExn ℕ} {id : ℕ}
    (tr₁ : List (SyncStep ι)) {tr₂ : List (SyncStep ι)} {p p' : Pool Db SyncExn ℕ ι}
    (h : Pool.Run W programs p tr₂ p') (hlower : lastUidOf id p'.state < lastUidOf id p.state) :
    ¬ ∀ t ∈ tr₁ ++ tr₂, lastUidOf id t.before.state ≤ lastUidOf id t.after.state := by
  intro hall
  have hkept := h.kept (I := fun q => lastUidOf id p.state ≤ lastUidOf id q.state)
    (fun t ht hle => hle.trans (hall t (List.mem_append_right _ ht))) le_rfl
  exact absurd hkept.1 (not_le.2 hlower)

/-- In this run a run is overtaken. -/
theorem overlappingRuns_cursor_iff_late : ∃ tr p,
    Pool.Run (besideMailboxes fun _ => False) (fun l => syncOnce (overlappingEnvs l) 1 50)
      ⟨sampleDb, []⟩ tr p ∧
    ¬ ∀ t ∈ tr, ¬ Overtaken overlappingEnvs (fun _ => 50) 1 t := by
  obtain ⟨tr₁, p₁, tr₂, p₂, h, h', hbefore, hafter⟩ := overtaken_run
  have hnot := not_forall_cursor_le tr₁ h' (by rw [hbefore, hafter]; decide)
  exact ⟨_, p₂, h, fun hall => hnot ((overlappingRuns_cursor_iff h).2 hall)⟩

/-- The persisted `last_uid` falls from 20 to 5. -/
theorem overlappingRuns_cursor_lowered : ∃ tr p,
    Pool.Run (besideMailboxes fun _ => False) (fun l => syncOnce (overlappingEnvs l) 1 50)
      ⟨sampleDb, []⟩ tr p ∧
    ¬ ∀ t ∈ tr, lastUidOf 1 t.before.state ≤ lastUidOf 1 t.after.state := by
  obtain ⟨tr₁, p₁, tr₂, p₂, h, h', hbefore, hafter⟩ := overtaken_run
  exact ⟨_, p₂, h, not_forall_cursor_le tr₁ h' (by rw [hbefore, hafter]; decide)⟩

end MailGate
