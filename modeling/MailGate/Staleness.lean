import MailGate.Effects

/-!
# Stale runs write nothing

A run of `sync_mailbox` works for minutes with the configuration that it has read at its start,
while the owner may edit, delete and create mailboxes, and the rotation may replace passwords.
The database counts the relevant changes of a mailbox and never uses a key twice, so a run whose
configuration has changed, even for a moment, finds no row that it may write.
-/

namespace MailGate

open Transaction

/-! ## Versions only grow -/

/-- What every transaction does to the mailboxes: a row is new, or its security columns and its
version are those that it had, or its version has grown. -/
def VersionStep (s s' : Db) : Prop :=
  s.mailboxSeq ≤ s'.mailboxSeq ∧
    ∀ row' ∈ s'.mailboxes, s.mailboxSeq ≤ row'.id ∨
      ∃ row ∈ s.mailboxes, row.id = row'.id ∧
        (row'.securityColumns = row.securityColumns ∧ row'.configVersion = row.configVersion ∨
          row.configVersion < row'.configVersion)

namespace VersionStep

variable {s s₁ s' : Db}

/-- A transaction that adds and changes no mailbox. -/
lemma of_subset (hrows : ∀ row ∈ s'.mailboxes, row ∈ s.mailboxes)
    (hseq : s'.mailboxSeq = s.mailboxSeq) : VersionStep s s' :=
  ⟨hseq.ge, fun row hrow => .inr ⟨row, hrows row hrow, rfl, .inl ⟨rfl, rfl⟩⟩⟩

lemma of_eq (hrows : s'.mailboxes = s.mailboxes) (hseq : s'.mailboxSeq = s.mailboxSeq) :
    VersionStep s s' :=
  of_subset (fun _ hrow => hrows ▸ hrow) hseq

lemma refl (s : Db) : VersionStep s s := of_eq rfl rfl

lemma trans (h : VersionStep s s₁) (h' : VersionStep s₁ s') : VersionStep s s' := by
  obtain ⟨hseq, hrows⟩ := h
  obtain ⟨hseq', hrows'⟩ := h'
  refine ⟨hseq.trans hseq', ?_⟩
  intro row'' hrow''
  rcases hrows' row'' hrow'' with hnew | ⟨row', hrow', hid', hver'⟩
  · exact .inl (hseq.trans hnew)
  · rcases hrows row' hrow' with hnew | ⟨row, hrow, hid, hver⟩
    · exact .inl (hid' ▸ hnew)
    · refine .inr ⟨row, hrow, hid.trans hid', ?_⟩
      rcases hver with ⟨hcols, heq⟩ | hlt
      · rcases hver' with ⟨hcols', heq'⟩ | hlt'
        · exact .inl ⟨hcols'.trans hcols, heq'.trans heq⟩
        · exact .inr (by omega)
      · rcases hver' with ⟨-, heq'⟩ | hlt'
        · exact .inr (by omega)
        · exact .inr (by omega)

end VersionStep

/-- The trigger keeps the version exactly where it keeps the security columns. -/
lemma bumpMailboxConfigVersion_version (old new : Mailbox) :
    (bumpMailboxConfigVersion old new).securityColumns = old.securityColumns ∧
        (bumpMailboxConfigVersion old new).configVersion = old.configVersion ∨
      old.configVersion < (bumpMailboxConfigVersion old new).configVersion := by
  unfold bumpMailboxConfigVersion
  by_cases hcols : new.securityColumns = old.securityColumns
  · rw [if_neg (not_not.2 hcols)]
    exact .inl ⟨hcols, rfl⟩
  · rw [if_pos hcols]
    exact .inr (Nat.lt_succ_self _)

lemma MailboxUpdate.versionStep {s s' : Db} (h : MailboxUpdate s s') : VersionStep s s' := by
  obtain ⟨p, set, n, hset, hupd⟩ := h
  obtain ⟨-, -, rfl⟩ := Db.updateMailboxes_eq_ok.1 hupd
  refine ⟨le_rfl, ?_⟩
  intro row' hrow'
  obtain ⟨row, hrow, rfl⟩ := List.mem_map.1 hrow'
  refine .inr ⟨row, hrow, ?_⟩
  by_cases hp : p row = true
  · rw [if_pos hp]
    exact ⟨by rw [Db.bumpMailboxConfigVersion_id, hset row hrow hp],
      bumpMailboxConfigVersion_version row (set row)⟩
  · rw [if_neg hp]
    exact ⟨rfl, .inl ⟨rfl, rfl⟩⟩

lemma MailboxUpdates.versionStep {s s' : Db} (h : MailboxUpdates s s') : VersionStep s s' := by
  induction h with
  | same h => exact .of_eq h.mailboxes h.mailboxSeq
  | update h hrest ih => exact h.versionStep.trans ih

lemma WorkerStatement.versionStep {statement : WorkerStatement} {s s' : Db}
    (h : statement.exec s = .ok s') : VersionStep s s' := by
  cases statement with
  | updateMailboxes p set =>
    obtain ⟨⟨n, s₁⟩, hupd, h⟩ := Exceptions.bind_eq_ok.1 h
    cases h
    exact (MailboxUpdate.of_ok hupd fun _ => rfl).versionStep
  | insertMessage new =>
    obtain ⟨-, -, -, -, rfl⟩ := Db.insertMessage_eq_ok.1 h
    exact .of_eq rfl rfl
  | insertAttachments rows =>
    obtain ⟨-, -, rfl⟩ := Db.insertAttachments_eq_ok.1 h
    exact .of_eq rfl rfl
  | insertAudit event =>
    cases h
    exact .of_eq rfl rfl

lemma workerTransaction_versionStep {statements : List WorkerStatement} {s s' : Db}
    (h : workerTransaction statements s = .ok s') : VersionStep s s' := by
  induction statements generalizing s with
  | nil =>
    cases h
    exact .refl _
  | cons statement statements ih =>
    obtain ⟨s₁, hfirst, hrest⟩ := Exceptions.bind_eq_ok.1 h
    exact (WorkerStatement.versionStep hfirst).trans (ih hrest)

/-- Every transaction of the installation keeps or raises the version of each mailbox. -/
theorem Txn.versionStep {t : Txn} {s s' : Db} (h : t.Step s s') : VersionStep s s' := by
  cases Txn.mailEffect h with
  | updates hupd => exact hupd.versionStep
  | ingest hacc => exact .of_eq rfl rfl
  | worker hbody => exact workerTransaction_versionStep hbody
  | newMailbox hins =>
    obtain ⟨-, -, rfl⟩ := Db.insertMailbox_eq_ok.1 hins
    refine ⟨Nat.le_succ _, ?_⟩
    intro row hrow
    rcases List.mem_append.1 hrow with hrow | hrow
    · exact .inr ⟨row, hrow, rfl, .inl ⟨rfl, rfl⟩⟩
    · -- the key of the new row has never been used
      rw [List.mem_singleton.1 hrow]
      exact .inl le_rfl
  | deletion hsame =>
    refine .of_subset ?_ hsame.mailboxSeq
    intro row hrow
    rw [← hsame.mailboxes]
    exact List.mem_of_mem_filter hrow
  | decision hupd hsame =>
    obtain ⟨-, -, rfl⟩ := Db.updateDecision_eq_ok.1 hupd
    exact .of_eq hsame.mailboxes hsame.mailboxSeq
  | purge hbody =>
    obtain ⟨-, hbox, hseq⟩ := purgeRetention_frame hbody
    exact .of_eq hbox hseq

/-! ## Current and stale configurations -/

section Configuration

variable (mailbox : Mailbox) (s s' : Db)

/-- The mailbox exists, is enabled, and has the version that the run has read. -/
def Current : Prop :=
  ∃ row ∈ s.mailboxes, row.id = mailbox.id ∧ row.enabled = true ∧
    row.configVersion = mailbox.configVersion

/-- The version of the mailbox has not fallen behind the one that the run has read. -/
def NotOlder : Prop :=
  mailbox.id < s.mailboxSeq ∧
    ∀ row ∈ s.mailboxes, row.id = mailbox.id → mailbox.configVersion ≤ row.configVersion

/-- The mailbox is gone, or its version has grown beyond the one that the run has read. -/
def Stale : Prop :=
  mailbox.id < s.mailboxSeq ∧
    ∀ row ∈ s.mailboxes, row.id = mailbox.id → mailbox.configVersion < row.configVersion

/-- Between the two states the mailbox was deleted, or one of its security columns changed. -/
def ConfigChanged : Prop :=
  ∀ row ∈ s.mailboxes, ∀ row' ∈ s'.mailboxes, row.id = mailbox.id → row'.id = mailbox.id →
    row'.securityColumns ≠ row.securityColumns

end Configuration

section Versions

variable {mailbox : Mailbox} {s s' : Db}

lemma notOlder_of_mem (hvalid : s.Valid) (hmailbox : mailbox ∈ s.mailboxes) :
    NotOlder mailbox s := by
  refine ⟨hvalid.mailbox_seq mailbox hmailbox, ?_⟩
  intro row hrow hid
  rw [Db.eq_of_map_nodup hvalid.mailbox_ids hrow hmailbox hid]

lemma Stale.not_current (h : Stale mailbox s) : ¬ Current mailbox s := by
  rintro ⟨row, hrow, hid, -, hver⟩
  have hlt := h.2 row hrow hid
  omega

lemma NotOlder.step (h : NotOlder mailbox s) (hstep : VersionStep s s') : NotOlder mailbox s' := by
  obtain ⟨hseq, hrows⟩ := hstep
  refine ⟨h.1.trans_le hseq, ?_⟩
  intro row' hrow' hid'
  rcases hrows row' hrow' with hnew | ⟨row, hrow, hid, hver⟩
  · have hlt := h.1
    omega
  · have hle := h.2 row hrow (hid.trans hid')
    rcases hver with ⟨-, heq⟩ | hlt
    · omega
    · omega

lemma Stale.step (h : Stale mailbox s) (hstep : VersionStep s s') : Stale mailbox s' := by
  obtain ⟨hseq, hrows⟩ := hstep
  refine ⟨h.1.trans_le hseq, ?_⟩
  intro row' hrow' hid'
  rcases hrows row' hrow' with hnew | ⟨row, hrow, hid, hver⟩
  · have hlt := h.1
    omega
  · have hlt := h.2 row hrow (hid.trans hid')
    rcases hver with ⟨-, heq⟩ | hgrown
    · omega
    · omega

/-- A change of the configuration leaves the run behind. -/
lemma NotOlder.stale (h : NotOlder mailbox s) (hstep : VersionStep s s')
    (hchanged : ConfigChanged mailbox s s') : Stale mailbox s' := by
  obtain ⟨hseq, hrows⟩ := hstep
  refine ⟨h.1.trans_le hseq, ?_⟩
  intro row' hrow' hid'
  rcases hrows row' hrow' with hnew | ⟨row, hrow, hid, hver⟩
  · have hlt := h.1
    omega
  · have hle := h.2 row hrow (hid.trans hid')
    rcases hver with ⟨hcols, -⟩ | hgrown
    · exact absurd hcols (hchanged row hrow row' hrow' (hid.trans hid') hid')
    · omega

end Versions

/-! ## The run -/

/-- What a transaction of a run does: it keeps the versions, and it changes nothing unless the
mailbox is current before and after it. -/
def RunStep (mailbox : Mailbox) (s s' : Db) : Prop :=
  VersionStep s s' ∧ (s' ≠ s → Current mailbox s ∧ Current mailbox s')

section Run

variable {env : SyncEnv} {mailbox : Mailbox} {batchSize : ℕ} {s s' : Db}

lemma guardsMailbox_eq_true {row : Mailbox} : guardsMailbox mailbox row = true ↔
    row.id = mailbox.id ∧ row.enabled = true ∧ row.configVersion = mailbox.configVersion := by
  simp only [guardsMailbox, Bool.and_eq_true, beq_iff_eq, and_assoc]

/-- A conditional update of status columns. -/
lemma updateGuarded_runStep {columns : Mailbox → StatusColumns} {n : ℕ}
    (h : updateGuarded mailbox (fun m => m.withStatus (columns m)) s = .ok (n, s')) :
    RunStep mailbox s s' := by
  have hupd := updateGuarded_eq_ok.1 h
  refine ⟨(MailboxUpdate.of_ok hupd fun _ => rfl).versionStep, ?_⟩
  obtain ⟨-, -, rfl⟩ := Db.updateMailboxes_eq_ok.1 hupd
  intro hne
  -- an update that met no row has changed nothing
  have hmet : ∃ row ∈ s.mailboxes, guardsMailbox mailbox row = true := by
    by_contra hnone
    push Not at hnone
    refine hne ?_
    have hid : s.mailboxes.map (fun m => if guardsMailbox mailbox m = true then
        bumpMailboxConfigVersion m (m.withStatus (columns m)) else m) = s.mailboxes := by
      refine (List.map_congr_left ?_).trans (List.map_id _)
      intro row hrow
      rw [if_neg (hnone row hrow)]
      rfl
    simp only [hid]
  obtain ⟨row, hrow, hguard⟩ := hmet
  obtain ⟨hid, hen, hver⟩ := guardsMailbox_eq_true.1 hguard
  refine ⟨⟨row, hrow, hid, hen, hver⟩, ⟨_, List.mem_map_of_mem hrow, ?_⟩⟩
  rw [if_pos hguard, bumpMailboxConfigVersion_withStatus]
  exact ⟨hid, hen, hver⟩

lemma storeTransaction_runStep {validity uid tick : ℕ} {item : Fetched} {created : Bool}
    (h : (storeArgs env mailbox validity uid tick item).transaction s = .ok (created, s')) :
    RunStep mailbox s s' := by
  rcases StoreArgs.transaction_cases h with ⟨-, rfl, -, -⟩ | ⟨-, rfl, hacc⟩
  · exact ⟨.refl _, fun hne => absurd rfl hne⟩
  · refine ⟨.of_eq rfl rfl, fun _ => ?_⟩
    obtain ⟨row, hrow, hlock⟩ := hacc.locked
    simp only [StoreArgs.locks, Bool.and_eq_true, beq_iff_eq] at hlock
    exact ⟨⟨row, hrow, hlock.1.1, hlock.1.2, hlock.2⟩, ⟨row, hrow, hlock.1.1, hlock.1.2, hlock.2⟩⟩

lemma syncMailbox_runStep : (syncMailbox env mailbox batchSize).Guarantees (RunStep mailbox) :=
  syncMailbox_guarantees (fun _ _ _ _ _ _ _ h => storeTransaction_runStep h)
    fun _ _ _ _ h => updateGuarded_runStep h

variable {W : World Db SyncExn} {tr : List (Event Db)}

/-- The handler of a run does not return. -/
lemma syncFailed_not_ok {exc : SyncExn} {n : ℕ} :
    ¬ Exec W (syncFailed env mailbox exc) s tr (some (.ok n)) s' := by
  have hpass : ∀ {exc : SyncExn} {s tr},
      ¬ Exec W (.compute (.error exc) : Prog Db SyncExn ℕ) s tr (some (.ok n)) s' := by
    intro exc s tr h
    simpa using h.done_noOwn.2
  have hrecord : ∀ {code}, ¬ Exec W (recordFailure env mailbox code) s tr (some (.ok n)) s' := by
    intro code h
    unfold recordFailure at h
    split at h
    · rcases h.bind_cases with ⟨_, -, -, hno⟩ | ⟨_, _, _, _, -, -, hend⟩
      · exact hno n rfl
      · exact hpass hend
    · exact hpass h
  intro h
  cases exc with
  | mailboxSync code => exact hrecord h
  | connection => exact hrecord h
  | database => exact hpass h
  | credential => exact hpass h
  | other => exact hpass h

/-- The last commit of a run from the loop to its return met the current mailbox. -/
lemma syncSelected_returns {plan : SyncPlan} {n : ℕ}
    (h : Exec W (syncSelected env mailbox plan) s tr (some (.ok n)) s') :
    ∃ tr₁ a b tr₂, tr = tr₁ ++ Event.own a b :: tr₂ ∧ Current mailbox a ∧
      ∀ c d, Event.own c d ∉ tr₂ := by
  rcases h.bind_cases with ⟨_, -, -, hno⟩ | ⟨⟨created, last⟩, s₁, tr₁, tr₂, rfl, -, hrest⟩
  · exact absurd rfl (hno n)
  rcases hrest.bind_cases with ⟨_, -, -, hno⟩ | ⟨updated, s₂, tr₃, tr₄, rfl, hupd, hend⟩
  · exact absurd rfl (hno n)
  obtain ⟨tr₅, a, b, tr₆, rfl, hbody, hno⟩ := hupd.atomic_ok
  by_cases hone : updated = 1
  · subst hone
    rw [Prog.ensure_true rfl] at hend
    refine ⟨tr₁ ++ tr₅, a, b, tr₆ ++ tr₄, by simp, ?_, ?_⟩
    · obtain ⟨-, hcount, -⟩ := Db.updateMailboxes_eq_ok.1 (updateGuarded_eq_ok.1 hbody)
      obtain ⟨row, hrow, hguard⟩ :=
        List.countP_pos_iff.1 (Nat.lt_of_lt_of_eq Nat.one_pos hcount.symm)
      exact ⟨row, hrow, guardsMailbox_eq_true.1 hguard⟩
    · intro c d hmem
      rcases List.mem_append.1 hmem with hmem | hmem
      · exact hno c d hmem
      · exact hend.done_noOwn.1 c d hmem
  · -- an update that met no row makes the run raise
    rw [Prog.ensure_false hone] at hend
    simpa using hend.done_noOwn.2

/-- A run that returns has made no commit, or has made its last one on the current mailbox. -/
lemma syncMailbox_returns {n : ℕ}
    (h : Exec W (syncMailbox env mailbox batchSize) s tr (some (.ok n)) s') :
    (∀ c d, Event.own c d ∉ tr) ∨
      ∃ tr₁ a b tr₂, tr = tr₁ ++ Event.own a b :: tr₂ ∧ Current mailbox a ∧
        ∀ c d, Event.own c d ∉ tr₂ := by
  unfold syncMailbox at h
  split at h
  · exact .inl h.done_noOwn.1
  · right
    rcases h.bind_cases with ⟨_, -, -, hno⟩ | ⟨password, s₁, tr₁, tr₂, rfl, -, hrun⟩
    · exact absurd rfl (hno n)
    obtain ⟨o', hrun, ho⟩ := hrun.finallyDo_inv
    obtain ⟨r, rfl, hr⟩ := Option.map_eq_some_iff.1 ho.symm
    rw [Prog.afterCleanup_eq_ok hr] at hrun
    rcases hrun.tryCatch_inv with ⟨_, hpart, ho⟩ | ⟨-, ho⟩ | ⟨exc, _, _, _, -, -, hfail⟩
    · obtain rfl := Except.ok.inj (Option.some.inj ho)
      rcases hpart.bind_cases with ⟨_, -, -, hno⟩ | ⟨plan, s₂, tr₃, tr₄, rfl, -, hsel⟩
      · exact absurd rfl (hno n)
      · obtain ⟨tr₅, a, b, tr₆, rfl, hcurrent, hno⟩ := syncSelected_returns hsel
        exact ⟨tr₁ ++ (tr₃ ++ tr₅), a, b, tr₆, by simp, hcurrent, hno⟩
    · cases ho
    · exact absurd hfail syncFailed_not_ok

end Run

/-- A run amid the transactions of an installation. -/
def amidInstallation (fault : SyncExn → Prop) : World Db SyncExn :=
  ⟨fun a b => ∃ t : Txn, t.Step a b, fault⟩

/-- However a run is interleaved with the transactions of the others, it writes only while the
mailbox exists, is enabled and has the version that the run has read.  Once a change of the
configuration or a deletion is committed, no later commit of the run changes anything, whatever
becomes of the mailbox, and a run that still meant to write raises. -/
theorem syncMailbox_writes_current {fault : SyncExn → Prop} {env : SyncEnv} {mailbox : Mailbox}
    {batchSize : ℕ} {s s' : Db} {tr : List (Event Db)} {o : Option (Except SyncExn ℕ)}
    (hvalid : s.Valid) (hmailbox : mailbox ∈ s.mailboxes)
    (h : Exec (amidInstallation fault) (syncMailbox env mailbox batchSize) s tr o s') :
    (∀ a b, Event.own a b ∈ tr → b ≠ a → Current mailbox a ∧ Current mailbox b) ∧
      ∀ tr₁ a b tr₂, tr = tr₁ ++ Event.env a b :: tr₂ → ConfigChanged mailbox a b →
        ∀ c d, Event.own c d ∈ tr₂ → d = c ∧ ∀ n, o ≠ some (.ok n) := by
  have hlinked := h.linked syncMailbox_runStep
  have henv : ∀ a b, (amidInstallation fault).env a b → VersionStep a b := by
    rintro a b ⟨t, ht⟩
    exact Txn.versionStep ht
  have hstart := notOlder_of_mem hvalid hmailbox
  constructor
  · intro a b hmem hne
    exact (hlinked.own_mem (I := fun _ => True) (fun _ _ _ _ => trivial) (fun _ _ _ _ => trivial)
      trivial hmem).2.2 hne
  · rintro tr₁ a b tr₂ rfl hchanged c d hmem
    obtain ⟨s₁, hbefore, hafter⟩ := hlinked.append_inv
    have hbound : NotOlder mailbox s₁ := hbefore.invariant (fun a b hab ha => ha.step hab.1)
      (fun a b hab ha => ha.step (henv a b hab)) hstart
    cases hafter with
    | env hchange hrest =>
      -- from the change on the run is stale
      have hstale : Stale mailbox b := hbound.stale (henv a b hchange) hchanged
      have hlater : ∀ {c d}, Event.own c d ∈ tr₂ → ¬ Current mailbox c ∧ RunStep mailbox c d := by
        intro c d hmem
        obtain ⟨hc, hcd⟩ := hrest.own_mem (I := Stale mailbox) (fun a b hab ha => ha.step hab.1)
          (fun a b hab ha => ha.step (henv a b hab)) hstale hmem
        exact ⟨hc.not_current, hcd⟩
      obtain ⟨hnot, -, hwrites⟩ := hlater hmem
      refine ⟨?_, ?_⟩
      · by_contra hne
        exact hnot (hwrites hne).1
      · rintro n rfl
        rcases syncMailbox_returns h with hnone | ⟨tr₃, a', b', tr₄, hsplit, hcurrent, hlast⟩
        · exact hnone c d (List.mem_append_right _ (List.mem_cons_of_mem _ hmem))
        · -- the last commit lies behind the change
          rcases List.append_eq_append_iff.1 hsplit with
            ⟨mid, -, hmid⟩ | ⟨mid, -, hmid⟩
          · have hin : Event.own a' b' ∈ Event.env a b :: tr₂ := by
              rw [hmid]
              simp
            rcases List.mem_cons.1 hin with heq | hin
            · cases heq
            · exact (hlater hin).1 hcurrent
          · cases mid with
            | nil => cases hmid
            | cons e mid =>
              obtain ⟨-, rfl⟩ := List.cons_eq_cons.1 hmid
              exact hlast c d (List.mem_append_right _ (List.mem_cons_of_mem _ hmem))

/-- The owner disables the mailbox. -/
def disableMailbox : Txn :=
  .mailboxEdit sampleWebEnv 1
    { name := py "inbox", providerKey := [], host := [], port := 0, username := [],
      password := [], trustedAuthservIds := [], enabled := false }

/-- The owner disables the mailbox before the run has stored its first message. -/
theorem syncMailbox_writes_current_disabled :
    ∃ s₁ tr s' o, Exec (amidInstallation fun _ => False)
        (syncMailbox (searchEnv (bytes "5 20")) sampleMailbox 1) sampleDb
        (.env sampleDb s₁ :: tr) o s' ∧
      ConfigChanged sampleMailbox sampleDb s₁ ∧ ∀ c d, Event.own c d ∈ tr → d = c := by
  have hstep : ∃ t : Txn, t.Step sampleDb (disableMailbox.next sampleDb) :=
    ⟨disableMailbox, Txn.step_next (by decide +kernel)⟩
  obtain ⟨tr, hrun⟩ := Exec.of_run (W := amidInstallation fun _ => False)
    (syncMailbox (searchEnv (bytes "5 20")) sampleMailbox 1) (disableMailbox.next sampleDb)
  have hexec := Exec.env (W := amidInstallation fun _ => False) hstep hrun
  have hchanged : ConfigChanged sampleMailbox sampleDb (disableMailbox.next sampleDb) := by
    unfold ConfigChanged
    decide +kernel
  refine ⟨_, tr, _, _, hexec, hchanged, ?_⟩
  intro c d hmem
  have hwrites := syncMailbox_writes_current sampleDb_valid List.mem_cons_self hexec
  exact (hwrites.2 [] _ _ tr rfl hchanged c d hmem).1

end MailGate
