import Mathlib.Data.List.Find
import MailGate.Effects
import MailGate.Lib.Locks

/-!
# Writers of one mailbox row

The edits of the owner, the rotation of the credentials and the worker all write rows of mailboxes.
Here they are clients that lock rows, statement by statement.  However they interleave, the rows
are what the operations make of them one after the other, in the order of the commits.
-/

namespace MailGate

open Locks

/-- What can be locked: a row of a mailbox, or the advisory lock of the rotation. -/
inductive MailboxLock where
  | row (id : ℕ)
  | rotation
deriving DecidableEq

/-- The rows of the mailbox table by their keys. -/
def rowsOf (db : Db) : MailboxLock → Option Mailbox
  | .row id => db.mailboxes.find? (·.id = id)
  | .rotation => none

/-! ## Operations -/

/-- What a run of the worker writes to its mailbox in the end. -/
inductive WorkerUpdate where
  | cursor (validity lastUid : ℕ)
  | failure (code : PyStr)

/-- The columns of the update. -/
def WorkerUpdate.set (env : SyncEnv) : WorkerUpdate → Mailbox → Mailbox
  | cursor validity lastUid => setCursor env validity lastUid
  | failure code => setError env code

/-- The transactions that lock or write rows of mailboxes. -/
inductive MailboxOp where
  /-- The transaction of `mailbox_edit`. -/
  | edit (env : WebEnv) (mailboxId : ℕ) (post : MailboxFields)
  /-- `rotate_mailbox_credentials`. -/
  | rotate (env : RotationEnv)
  /-- The lock of `_store_message`, for a run that has read this row. -/
  | store (mailbox : Mailbox)
  /-- The last update of a run that has read this row. -/
  | update (env : SyncEnv) (mailbox : Mailbox) (values : WorkerUpdate)

/-- The operation as one step on the database.  The row that `_store_message` inserts is in
another table. -/
def MailboxOp.exec : MailboxOp → Db → Option Db
  | edit env mailboxId post, db => (mailboxEditTransaction env mailboxId post db).toOption.map (·.2)
  | rotate env, db => rotateMailboxCredentials env db
  | store mailbox, db => if db.mailboxes.any (guardsMailbox mailbox) then some db else none
  | update env mailbox values, db =>
    (updateGuarded mailbox (values.set env) db).toOption.map (·.2)

/-! ## Statements -/

/-- `UPDATE gateway_mailbox SET ... WHERE p` on the newest version of a row. -/
def updateRow {L : Type} (id : ℕ) (p : Mailbox → Bool) (set : Mailbox → Mailbox)
    (next : Tx MailboxLock (Option Mailbox) L) : Tx MailboxLock (Option Mailbox) L :=
  .read (.row id) fun row =>
    match row with
    | none => next
    | some mailbox =>
      if p mailbox = false then next
      else if (set mailbox).Fits then
        .write (.row id) (some (bumpMailboxConfigVersion mailbox (set mailbox))) next
      else .rollback

/-- `SELECT ... FOR UPDATE` of these rows, one after the other; each row comes with its key. -/
def lockRows {L : Type} : List ℕ → (List (ℕ × Mailbox) → Tx MailboxLock (Option Mailbox) L) →
    Tx MailboxLock (Option Mailbox) L
  | [], next => next []
  | id :: ids, next =>
    .lock (.row id) <| .read (.row id) fun row =>
      lockRows ids fun rows => next ((row.map fun mailbox => (id, mailbox)).toList ++ rows)

/-- The loop of the rotation over the rows that it has locked. -/
def saveRows {L : Type} (env : RotationEnv) (next : Tx MailboxLock (Option Mailbox) L) :
    ℕ → List (ℕ × Mailbox) → Tx MailboxLock (Option Mailbox) L
  | _, [] => next
  | tick, (id, mailbox) :: rows =>
    match env.reencryptSecret tick mailbox.passwordEncrypted with
    | none => .rollback
    | some (_, false) => saveRows env next (tick + 1) rows
    | some (ciphertext, true) =>
      updateRow id (·.id = id)
        (fun m => { m with
          passwordEncrypted := ciphertext
          configVersion := mailbox.configVersion + 1
          updatedAt := env.clock tick })
        (saveRows env next (tick + 1) rows)

/-- The operation statement by statement.  `ids` are the keys of the table in order. -/
def MailboxOp.tx (ids : List ℕ) (op : MailboxOp) : Tx MailboxLock (Option Mailbox) MailboxOp :=
  match op with
  | edit env mailboxId post =>
    .lock (.row mailboxId) <| .read (.row mailboxId) fun row =>
      match row with
      | none => .rollback
      | some mailbox =>
        match editedMailbox env post mailbox with
        | .error _ => .rollback
        | .ok none => .commit op
        | .ok (some (saved, _)) =>
          updateRow mailboxId (·.id = mailboxId) (fun _ => saved) (.commit op)
  | rotate env => .lock .rotation <| lockRows ids fun rows => saveRows env (.commit op) 0 rows
  | store mailbox =>
    .lock (.row mailbox.id) <| .read (.row mailbox.id) fun row =>
      if row.any (guardsMailbox mailbox) then .commit op else .rollback
  | update env mailbox values =>
    .lock (.row mailbox.id) <|
      updateRow mailbox.id (guardsMailbox mailbox) (values.set env) (.commit op)

/-! ## Locks -/

section Guarded

variable {L : Type} {K : Set MailboxLock} {next : Tx MailboxLock (Option Mailbox) L}

lemma updateRow_guarded {id : ℕ} {p : Mailbox → Bool} {set : Mailbox → Mailbox}
    (hid : .row id ∈ K) (hnext : next.Guarded K) : (updateRow id p set next).Guarded K := by
  refine ⟨hid, fun row => ?_⟩
  dsimp only
  split
  · exact hnext
  · split
    · exact hnext
    · split
      · exact ⟨hid, hnext⟩
      · trivial

lemma saveRows_guarded {env : RotationEnv} {tick : ℕ} {rows : List (ℕ × Mailbox)}
    (hrows : ∀ r ∈ rows, .row r.1 ∈ K) (hnext : next.Guarded K) :
    (saveRows env next tick rows).Guarded K := by
  induction rows generalizing tick with
  | nil => exact hnext
  | cons row rows ih =>
    obtain ⟨id, mailbox⟩ := row
    rw [List.forall_mem_cons] at hrows
    unfold saveRows
    split
    · trivial
    · exact ih hrows.2
    · exact updateRow_guarded hrows.1 (ih hrows.2)

lemma lockRows_guarded {ids : List ℕ}
    {next : List (ℕ × Mailbox) → Tx MailboxLock (Option Mailbox) L}
    (hnext : ∀ rows K', K ⊆ K' → (∀ r ∈ rows, .row r.1 ∈ K') → (next rows).Guarded K') :
    (lockRows ids next).Guarded K := by
  induction ids generalizing K next with
  | nil => exact hnext [] K subset_rfl (by simp)
  | cons id ids ih =>
    refine ⟨Set.mem_insert _ _, fun row => ih fun rows K' hK hrows => ?_⟩
    refine hnext _ K' (fun k hk => hK (Set.mem_insert_of_mem _ hk)) ?_
    intro r hr
    rcases List.mem_append.1 hr with hr | hr
    · obtain ⟨mailbox, -, rfl⟩ := by simpa using hr
      exact hK (Set.mem_insert _ _)
    · exact hrows r hr

/-- Every operation locks a row before it reads or writes it. -/
lemma MailboxOp.tx_guarded (ids : List ℕ) (op : MailboxOp) : (op.tx ids).Guarded ∅ := by
  cases op with
  | edit env mailboxId post =>
    refine ⟨by simp, fun row => ?_⟩
    dsimp only
    split
    · trivial
    · split
      · trivial
      · trivial
      · exact updateRow_guarded (by simp) trivial
  | rotate env =>
    refine lockRows_guarded fun rows K' _ hrows => ?_
    exact saveRows_guarded hrows trivial
  | store mailbox =>
    refine ⟨by simp, fun row => ?_⟩
    dsimp only
    split <;> trivial
  | update env mailbox values => exact updateRow_guarded (by simp) trivial

end Guarded

/-! ## Each operation alone -/

section Alone

variable {db db' : Db}

lemma rowsOf_eq_some {id : ℕ} {mailbox : Mailbox} (h : rowsOf db (.row id) = some mailbox) :
    mailbox ∈ db.mailboxes ∧ mailbox.id = id :=
  ⟨List.mem_of_find?_eq_some h, by simpa using List.find?_some h⟩

lemma rowsOf_eq_none {id : ℕ} (h : rowsOf db (.row id) = none) :
    ∀ mailbox ∈ db.mailboxes, mailbox.id ≠ id := by
  simpa [rowsOf] using h

lemma rowsOf_of_mem (hdb : (db.mailboxes.map (·.id)).Nodup) {mailbox : Mailbox}
    (h : mailbox ∈ db.mailboxes) : rowsOf db (.row mailbox.id) = some mailbox := by
  cases hrow : rowsOf db (.row mailbox.id) with
  | none => exact absurd rfl (rowsOf_eq_none hrow mailbox h)
  | some row =>
    obtain ⟨hmem, hid⟩ := rowsOf_eq_some hrow
    rw [Db.eq_of_map_nodup hdb hmem h hid]

/-- An update of the table changes each row where it stands. -/
lemma rowsOf_updateMailboxes {p : Mailbox → Bool} {set : Mailbox → Mailbox} {n : ℕ}
    (h : db.updateMailboxes p set = .ok (n, db'))
    (hset : ∀ m ∈ db.mailboxes, p m = true → (set m).id = m.id) (k : MailboxLock) :
    rowsOf db' k =
      (rowsOf db k).map fun m => if p m then bumpMailboxConfigVersion m (set m) else m := by
  obtain ⟨-, -, rfl⟩ := Db.updateMailboxes_eq_ok.1 h
  cases k with
  | rotation => rfl
  | row id =>
    show List.find? _ (List.map _ _) = Option.map _ (List.find? _ _)
    rw [List.find?_map]
    congr 1
    refine List.find?_congr fun m hm => ?_
    show decide ((if p m then _ else m).id = id) = decide (m.id = id)
    by_cases hp : p m = true
    · rw [if_pos hp, Db.bumpMailboxConfigVersion_id, hset m hm hp]
    · rw [if_neg hp]

/-- An update that meets no row. -/
lemma updateMailboxes_skip {p : Mailbox → Bool} (set : Mailbox → Mailbox)
    (h : ∀ m ∈ db.mailboxes, p m = false) : ∃ n, db.updateMailboxes p set = .ok (n, db) := by
  refine ⟨_, Db.updateMailboxes_eq_ok.2 ⟨?_, rfl, ?_⟩⟩
  · intro m hm hpm
    rw [h m hm] at hpm
    cases hpm
  · have hsame : db.mailboxes.map (fun m =>
        if p m then bumpMailboxConfigVersion m (set m) else m) = db.mailboxes := by
      refine (List.map_congr_left fun m hm => ?_).trans (List.map_id _)
      rw [h m hm]
      rfl
    rw [hsame]

/-- An update that meets one row writes it. -/
lemma rowsOf_updateMailboxes_row {id : ℕ} {mailbox : Mailbox} {p : Mailbox → Bool}
    {set : Mailbox → Mailbox} {n : ℕ} (hp : ∀ m, p m = true → m.id = id)
    (hset : ∀ m ∈ db.mailboxes, p m = true → (set m).id = m.id)
    (hrow : rowsOf db (.row id) = some mailbox) (hpm : p mailbox = true)
    (h : db.updateMailboxes p set = .ok (n, db')) :
    rowsOf db' = Function.update (rowsOf db) (.row id)
      (some (bumpMailboxConfigVersion mailbox (set mailbox))) := by
  ext k : 1
  rw [rowsOf_updateMailboxes h hset]
  by_cases hk : k = .row id
  · subst hk
    rw [Function.update_self, hrow, Option.map_some, if_pos hpm]
  · rw [Function.update_of_ne hk]
    cases k with
    | rotation => rfl
    | row id' =>
      cases hrow' : rowsOf db (.row id') with
      | none => rfl
      | some m =>
        -- a row with another key does not satisfy the condition
        have hpm' : ¬ p m = true := by
          intro hpm'
          rw [← (rowsOf_eq_some hrow').2, hp m hpm'] at hk
          exact hk rfl
        rw [Option.map_some, if_neg hpm']

/-- The newest version of the row is the row of the table. -/
lemma run_updateRow {L : Type} {id : ℕ} {p : Mailbox → Bool} {set : Mailbox → Mailbox}
    {next : Tx MailboxLock (Option Mailbox) L} (hdb : (db.mailboxes.map (·.id)).Nodup)
    (hp : ∀ m, p m = true → m.id = id)
    (hset : ∀ m ∈ db.mailboxes, p m = true → (set m).id = m.id) :
    (updateRow id p set next).run (rowsOf db) =
      match db.updateMailboxes p set with
      | .ok (_, db') => next.run (rowsOf db')
      | .error _ => none := by
  have honly : ∀ m ∈ db.mailboxes, p m = true → rowsOf db (.row id) = some m := by
    intro m hm hpm
    rw [← hp m hpm]
    exact rowsOf_of_mem hdb hm
  unfold updateRow
  rw [Tx.run]
  by_cases hnone : ∀ m ∈ db.mailboxes, p m = false
  · obtain ⟨n, hupd⟩ := updateMailboxes_skip set hnone
    rw [hupd]
    cases hrow : rowsOf db (.row id) with
    | none => rfl
    | some mailbox =>
      dsimp only
      rw [if_pos (hnone mailbox (rowsOf_eq_some hrow).1)]
  · push Not at hnone
    obtain ⟨mailbox, hmem, hpm⟩ := hnone
    have hpm' : p mailbox = true := by simpa using hpm
    have hrow := honly mailbox hmem hpm'
    rw [hrow]
    dsimp only
    rw [if_neg hpm]
    by_cases hfits : (set mailbox).Fits
    · have hall : ∀ m ∈ db.mailboxes, p m = true → (set m).Fits := by
        intro m hm hpm
        have heq := honly m hm hpm
        rw [hrow] at heq
        rw [← Option.some.inj heq]
        exact hfits
      have hupd := Db.updateMailboxes_eq_ok.2 ⟨hall, rfl, rfl⟩
      rw [if_pos hfits, Tx.run, hupd]
      dsimp only
      rw [rowsOf_updateMailboxes_row hp hset hrow hpm' hupd]
    · have hbad : ∃ m ∈ db.mailboxes, p m = true ∧ ¬ (set m).Fits := ⟨mailbox, hmem, hpm', hfits⟩
      rw [if_neg hfits, Tx.run, Db.updateMailboxes, if_pos hbad]

lemma run_lockRows {L : Type} {ids : List ℕ}
    {next : List (ℕ × Mailbox) → Tx MailboxLock (Option Mailbox) L}
    (store : MailboxLock → Option Mailbox) :
    (lockRows ids next).run store =
      (next (ids.filterMap fun id => (store (.row id)).map fun m => (id, m))).run store := by
  induction ids generalizing next with
  | nil => rfl
  | cons id ids ih =>
    rw [lockRows, Tx.run, Tx.run, ih]
    cases hrow : store (.row id) with
    | none => rw [List.filterMap_cons_none (by rw [hrow]; rfl)]; rfl
    | some m => rw [List.filterMap_cons_some (by rw [hrow]; rfl)]; rfl

/-- The loop on the locked rows is the loop on the rows of the table. -/
lemma run_saveRows {L : Type} {env : RotationEnv} {next : Tx MailboxLock (Option Mailbox) L}
    {tick : ℕ} {rows : List Mailbox} (rotated : ℕ) (hdb : (db.mailboxes.map (·.id)).Nodup) :
    (saveRows env next tick (rows.map fun m => (m.id, m))).run (rowsOf db) =
      (rotateMailboxes env tick rows rotated db).bind fun r => next.run (rowsOf r.2) := by
  induction rows generalizing tick rotated db with
  | nil => rfl
  | cons mailbox rows ih =>
    rw [List.map_cons, saveRows, rotateMailboxes]
    cases env.reencryptSecret tick mailbox.passwordEncrypted with
    | none => rfl
    | some r =>
      obtain ⟨ciphertext, changed⟩ := r
      cases changed with
      | false => exact ih rotated hdb
      | true =>
        dsimp only [Option.bind_eq_bind, Option.bind_some]
        refine (run_updateRow hdb ?_ ?_).trans ?_
        · exact fun m hm => of_decide_eq_true hm
        · exact fun m _ _ => rfl
        · rw [if_neg (by simp)]
          split
          · next n db' hupd =>
            have hids : db'.mailboxes.map (·.id) = db.mailboxes.map (·.id) :=
              Db.updateMailboxes_ids (by exact fun m _ _ => rfl) hupd
            rw [hupd]
            exact ih (rotated + 1) (by rw [hids]; exact hdb)
          · next e hupd =>
            rw [hupd]
            rfl

lemma map_filterMap_rowsOf (hdb : (db.mailboxes.map (·.id)).Nodup) {rows : List Mailbox}
    (hrows : ∀ m ∈ rows, m ∈ db.mailboxes) :
    (rows.map (·.id)).filterMap (fun id => (rowsOf db (.row id)).map fun m => (id, m)) =
      rows.map fun m => (m.id, m) := by
  rw [List.filterMap_map, ← List.filterMap_eq_map]
  refine List.filterMap_congr fun m hm => ?_
  show Option.map _ (rowsOf db (.row m.id)) = _
  rw [rowsOf_of_mem hdb (hrows m hm)]
  rfl

lemma rowsOf_any (hdb : (db.mailboxes.map (·.id)).Nodup) (mailbox : Mailbox) :
    (rowsOf db (.row mailbox.id)).any (guardsMailbox mailbox) =
      db.mailboxes.any (guardsMailbox mailbox) := by
  rw [Bool.eq_iff_iff, Option.any_eq_true, List.any_eq_true]
  constructor
  · rintro ⟨m, hrow, hguard⟩
    exact ⟨m, (rowsOf_eq_some hrow).1, hguard⟩
  · rintro ⟨m, hm, hguard⟩
    refine ⟨m, ?_, hguard⟩
    rw [← guardsMailbox_id hguard]
    exact rowsOf_of_mem hdb hm

/-- The keys of the table in order. -/
def keysOf (db : Db) : List ℕ := (db.mailboxes.insertionSort fun a b => a.id ≤ b.id).map (·.id)

/-- Alone, the statements of an operation do what the operation does in one step. -/
lemma MailboxOp.run_tx (op : MailboxOp) (hdb : (db.mailboxes.map (·.id)).Nodup)
    (hstart : ∀ env, op = .rotate env → env.primaryId ≠ none) :
    (op.tx (keysOf db)).run (rowsOf db) = (op.exec db).map fun db' => (op, rowsOf db') := by
  cases op with
  | edit env mailboxId post =>
    simp only [tx, Tx.run, exec, mailboxEditTransaction]
    cases hrow : rowsOf db (.row mailboxId) with
    | none =>
      have hfind : db.mailboxes.find? (·.id = mailboxId) = none := hrow
      rw [hfind]
      rfl
    | some mailbox =>
      have hfind : db.mailboxes.find? (·.id = mailboxId) = some mailbox := hrow
      rw [hfind]
      dsimp only
      cases hedit : editedMailbox env post mailbox with
      | error e => rfl
      | ok edited =>
        cases edited with
        | none => rfl
        | some p =>
          obtain ⟨saved, changed⟩ := p
          have hid : saved.id = mailboxId := by
            rw [editedMailbox_id hedit]
            exact (rowsOf_eq_some hrow).2
          dsimp only
          -- the row is locked by its key, and no other row has it
          rw [run_updateRow hdb (fun m hm => by simpa using hm)
            (fun m _ hm => hid.trans (of_decide_eq_true hm).symm)]
          cases db.updateMailboxes (fun m => decide (m.id = mailboxId)) fun _ => saved <;> rfl
  | rotate env =>
    obtain ⟨id, hid⟩ := Option.ne_none_iff_exists'.1 (hstart env rfl)
    simp only [tx, Tx.run, exec, rotateMailboxCredentials, hid]
    have hrows : ∀ m ∈ db.mailboxes.insertionSort fun a b => a.id ≤ b.id, m ∈ db.mailboxes :=
      fun m hm => (List.mem_insertionSort _).1 hm
    -- all rows are locked in the order of their keys before one is written
    rw [run_lockRows, keysOf, map_filterMap_rowsOf hdb hrows, run_saveRows 0 hdb]
    cases rotateMailboxes env 0 (db.mailboxes.insertionSort fun a b => a.id ≤ b.id) 0 db <;> rfl
  | store mailbox =>
    simp only [tx, Tx.run, exec, rowsOf_any hdb]
    by_cases hguard : db.mailboxes.any (guardsMailbox mailbox) = true
    · rw [if_pos hguard, if_pos hguard]
      rfl
    · rw [if_neg hguard, if_neg hguard]
      rfl
  | update env mailbox values =>
    simp only [tx, Tx.run, exec, updateGuarded]
    rw [run_updateRow hdb (fun m hm => guardsMailbox_id hm) (fun m _ _ => by cases values <;> rfl)]
    cases db.updateMailboxes (guardsMailbox mailbox) (values.set env) <;> rfl

end Alone

/-! ## What an operation leaves alone -/

/-- The operation turns the row `old` into `new` without touching what is not its own: an edit keeps
the identity of the mailbox, its cursor, and the password if the new one is blank; a rotation only
writes the password, as a new envelope of the current one; the worker only writes its cursor and
its status. -/
def MailboxOp.Keeps : MailboxOp → Mailbox → Mailbox → Prop
  | edit _ _ post, old, new =>
    (new.providerKey = old.providerKey ∧ new.host = old.host ∧ new.port = old.port ∧
      new.username = old.username) ∧
    (new.uidValidity = old.uidValidity ∧ new.lastUid = old.lastUid) ∧
    (post.password = [] → new.passwordEncrypted = old.passwordEncrypted)
  | rotate env, old, new =>
    (∃ password version at', new =
      { old with passwordEncrypted := password, configVersion := version, updatedAt := at' }) ∧
    (new.passwordEncrypted = old.passwordEncrypted ∨
      ∃ tick, env.reencryptSecret tick old.passwordEncrypted = some (new.passwordEncrypted, true))
  | store _, old, new => new = old
  | update _ _ _, old, new =>
    ∃ uidValidity lastUid lastSyncAt lastErrorCode updatedAt, new =
      { old with
        uidValidity := uidValidity
        lastUid := lastUid
        lastSyncAt := lastSyncAt
        lastErrorCode := lastErrorCode
        updatedAt := updatedAt }

/-- Every row is still there, and the operation has kept what is not its own. -/
def MailboxOp.KeepsRows (op : MailboxOp) (db db' : Db) : Prop :=
  ∀ id old, rowsOf db (.row id) = some old → ∃ new, rowsOf db' (.row id) = some new ∧
    op.Keeps old new

namespace MailboxOp

lemma Keeps.refl (op : MailboxOp) (old : Mailbox) : op.Keeps old old := by
  cases op with
  | edit env mailboxId post => exact ⟨⟨rfl, rfl, rfl, rfl⟩, ⟨rfl, rfl⟩, fun _ => rfl⟩
  | rotate env => exact ⟨⟨_, _, _, rfl⟩, .inl rfl⟩
  | store mailbox => exact rfl
  | update env mailbox values => exact ⟨_, _, _, _, _, rfl⟩

lemma Keeps.host {op : MailboxOp} {old new : Mailbox} (h : op.Keeps old new) :
    new.host = old.host := by
  cases op with
  | edit env mailboxId post => exact h.1.2.1
  | rotate env =>
    obtain ⟨⟨password, version, at', rfl⟩, -⟩ := h
    rfl
  | store mailbox => rw [show new = old from h]
  | update env mailbox values =>
    obtain ⟨_, _, _, _, _, rfl⟩ := h
    rfl

end MailboxOp

/-- The trigger only writes the version. -/
lemma bumpMailboxConfigVersion_eq (old new : Mailbox) :
    ∃ version, bumpMailboxConfigVersion old new = { new with configVersion := version } := by
  unfold bumpMailboxConfigVersion
  split <;> exact ⟨_, rfl⟩

lemma bumpMailboxConfigVersion_of_same {old new : Mailbox}
    (h : new.securityColumns = old.securityColumns) :
    bumpMailboxConfigVersion old new = { new with configVersion := old.configVersion } := by
  rw [bumpMailboxConfigVersion, if_neg (not_not_intro h)]

lemma getProviderPreset_eq_some {key : PyStr} {preset : ProviderPreset}
    (h : getProviderPreset key = some preset) : preset.key = key ∧ preset.imapPort = 993 := by
  have hkey := List.find?_some h
  have hmem := List.mem_of_find?_eq_some h
  refine ⟨by simpa using hkey, ?_⟩
  simp only [providerPresets, List.mem_cons, List.not_mem_nil, or_false] at hmem
  rcases hmem with rfl | rfl <;> rfl

/-- What the checks of the form leave of its fields. -/
lemma MailboxForm.clean_eq_some {settings : WebSettings} {unicode : Unicodedata}
    {fields cleaned : MailboxFields}
    (h : MailboxForm.clean settings unicode fields = some cleaned) :
    fields.port = 993 ∧ cleaned.providerKey = fields.providerKey ∧
      cleaned.username = fields.username ∧ cleaned.password = fields.password ∧
      ∃ preset, getProviderPreset fields.providerKey = some preset ∧
        effectiveImapHost preset settings.imapAllowedHost = settings.imapAllowedHost := by
  unfold MailboxForm.clean at h
  simp only [Option.bind_eq_bind, Option.pure_def] at h
  split at h
  · cases h
  · next hport =>
    split at h
    · cases h
    · obtain ⟨ids, -, h⟩ := Option.bind_eq_some_iff.1 h
      obtain ⟨preset, hpreset, h⟩ := Option.bind_eq_some_iff.1 h
      split at h
      · cases h
      · next hhost =>
        cases h
        exact ⟨not_not.1 hport, rfl, rfl, rfl, preset, hpreset, not_not.1 hhost⟩

/-- What the form saves to a row of the installation's host. -/
lemma editedMailbox_keeps {env : WebEnv} {post : MailboxFields} {old saved : Mailbox}
    {changed : List PyStr} (h : editedMailbox env post old = .ok (some (saved, changed)))
    (hhost : old.host = env.settings.imapAllowedHost) (id version : ℕ) :
    (MailboxOp.edit env id post).Keeps old { saved with configVersion := version } := by
  unfold editedMailbox at h
  split at h
  · cases h
  · next cleaned hclean =>
    obtain ⟨hport, hkey, husername, hpassword, preset, hpreset, hallowed⟩ :=
      MailboxForm.clean_eq_some hclean
    split at h
    · cases h
    · next row hsave =>
      cases h
      unfold MailboxForm.save at hsave
      simp only [Option.bind_eq_bind, Option.bind_eq_some_iff, Option.pure_def,
        Option.some.injEq] at hsave
      obtain ⟨preset', hpreset', password, hsaved, rfl⟩ := hsave
      -- the disabled fields of the form come from the row
      have hsame : preset' = preset := by
        rw [hkey, hpreset] at hpreset'
        exact (Option.some.inj hpreset').symm
      subst hsame
      obtain ⟨hpresetKey, hpresetPort⟩ := getProviderPreset_eq_some hpreset
      have hold : old.port = 993 := hport
      have hpost : cleaned.password = post.password := hpassword
      have hblank : post.password = [] → password = old.passwordEncrypted := by
        intro hnil
        rw [MailboxForm.savedPassword, hpost, if_pos hnil] at hsaved
        exact (Option.some.inj hsaved).symm
      have hhost' : effectiveImapHost preset' env.settings.imapAllowedHost = old.host := by
        rw [hallowed, hhost]
      have hport' : preset'.imapPort = old.port := by rw [hpresetPort, hold]
      split
      · exact ⟨⟨hpresetKey, hhost', hport', husername⟩, ⟨rfl, rfl⟩, hblank⟩
      · exact ⟨⟨hpresetKey, hhost', hport', husername⟩, ⟨rfl, rfl⟩, hblank⟩

section Keeps

variable {db db' : Db}

/-- The rows of one update. -/
lemma keepsRows_updateMailboxes {op : MailboxOp} {p : Mailbox → Bool} {set : Mailbox → Mailbox}
    {n : ℕ} (hset : ∀ m ∈ db.mailboxes, p m = true → (set m).id = m.id)
    (hkeeps : ∀ m ∈ db.mailboxes, p m = true → op.Keeps m (bumpMailboxConfigVersion m (set m)))
    (h : db.updateMailboxes p set = .ok (n, db')) : op.KeepsRows db db' := by
  intro id old hold
  have hrow := rowsOf_updateMailboxes h hset (.row id)
  rw [hold, Option.map_some] at hrow
  refine ⟨_, hrow, ?_⟩
  by_cases hp : p old = true
  · rw [if_pos hp]
    exact hkeeps old (rowsOf_eq_some hold).1 hp
  · rw [if_neg hp]
    exact .refl op old

lemma rowsOf_writeAudit (db : Db) (actor action : PyStr) (obj : Option (PyStr × PyStr))
    (metadata : List (PyStr × MetaValue)) (now : Time) :
    rowsOf (db.writeAudit actor action obj metadata now) = rowsOf db := by
  ext k : 1
  cases k <;> rfl

lemma mailboxEditTransaction_keepsRows {env : WebEnv} {mailboxId : ℕ} {post : MailboxFields}
    {saved : Bool} (hdb : (db.mailboxes.map (·.id)).Nodup)
    (hhost : ∀ m ∈ db.mailboxes, m.host = env.settings.imapAllowedHost)
    (h : mailboxEditTransaction env mailboxId post db = .ok (saved, db')) :
    (MailboxOp.edit env mailboxId post).KeepsRows db db' := by
  unfold mailboxEditTransaction at h
  split at h
  · cases h
  · next mailbox hfind =>
    obtain ⟨hmem, hid⟩ := rowsOf_eq_some (show rowsOf db (.row mailboxId) = some mailbox from hfind)
    split at h
    · cases h
    · cases h
      exact fun id old hold => ⟨old, hold, .refl _ old⟩
    · next saved changed hedit =>
      split at h
      · cases h
      · next n db₁ hupd =>
        cases h
        have hsaved : saved.id = mailboxId := (editedMailbox_id hedit).trans hid
        have hkeeps : ∀ m ∈ db.mailboxes, decide (m.id = mailboxId) = true →
            (MailboxOp.edit env mailboxId post).Keeps m (bumpMailboxConfigVersion m saved) := by
          intro m hm hm'
          have hsame : m = mailbox :=
            Db.eq_of_map_nodup hdb hm hmem ((of_decide_eq_true hm').trans hid.symm)
          subst hsame
          obtain ⟨version, hbump⟩ := bumpMailboxConfigVersion_eq m saved
          rw [hbump]
          exact editedMailbox_keeps hedit (hhost m hm) mailboxId version
        have hrows := keepsRows_updateMailboxes
          (fun m _ hm => hsaved.trans (of_decide_eq_true hm).symm) hkeeps hupd
        intro id old hold
        rw [rowsOf_writeAudit]
        exact hrows id old hold

/-- The loop writes envelopes of what the locked rows hold. -/
lemma rotateMailboxes_keepsRows {env : RotationEnv} {tick n total : ℕ} {rows : List Mailbox}
    (h : rotateMailboxes env tick rows n db = some (total, db')) {id : ℕ} {old : Mailbox}
    (hold : rowsOf db (.row id) = some old) :
    ∃ new, rowsOf db' (.row id) = some new ∧
      (∃ password version at', new =
        { old with passwordEncrypted := password, configVersion := version, updatedAt := at' }) ∧
      (new.passwordEncrypted = old.passwordEncrypted ∨
        ∃ row ∈ rows, row.id = id ∧ ∃ tick,
          env.reencryptSecret tick row.passwordEncrypted = some (new.passwordEncrypted, true)) := by
  induction rows generalizing tick n db old with
  | nil =>
    cases h
    exact ⟨old, hold, ⟨_, _, _, rfl⟩, .inl rfl⟩
  | cons row rows ih =>
    simp only [rotateMailboxes, Option.bind_eq_bind, Option.bind_eq_some_iff] at h
    obtain ⟨⟨ciphertext, changed⟩, hreencrypt, h⟩ := h
    simp only at h
    split at h
    · obtain ⟨new, hnew, hform, hpassword⟩ := ih h hold
      refine ⟨new, hnew, hform, hpassword.imp_right fun hrow => ?_⟩
      obtain ⟨r, hr, hrest⟩ := hrow
      exact ⟨r, List.mem_cons_of_mem _ hr, hrest⟩
    · next hchanged =>
      split at h
      · cases h
      · next updated db₁ hupd =>
        have hrow := rowsOf_updateMailboxes hupd (by exact fun m _ _ => rfl) (.row id)
        rw [hold, Option.map_some] at hrow
        obtain ⟨new, hnew, ⟨password, version, at', hform⟩, hpassword⟩ := ih h hrow
        obtain ⟨version', hbump⟩ := bumpMailboxConfigVersion_eq old
          { old with
            passwordEncrypted := ciphertext
            configVersion := row.configVersion + 1
            updatedAt := env.clock tick }
        refine ⟨new, hnew, ⟨password, version, at', ?_⟩, ?_⟩
        · rw [hform]
          split
          · rw [hbump]
          · rfl
        · rcases hpassword with hpassword | ⟨r, hr, hrest⟩
          · by_cases hid : old.id = row.id
            · -- the row that the step has written
              rw [if_pos (by simpa using hid), hbump] at hpassword
              refine .inr ⟨row, List.mem_cons_self, ?_, tick, ?_⟩
              · rw [← hid]
                exact (rowsOf_eq_some hold).2
              · rw [hreencrypt, hpassword]
                simpa using hchanged
            · rw [if_neg (by simpa using hid)] at hpassword
              exact .inl hpassword
          · exact .inr ⟨r, List.mem_cons_of_mem _ hr, hrest⟩

/-- Each operation keeps what is not its own. -/
lemma MailboxOp.exec_keepsRows {op : MailboxOp} (hdb : (db.mailboxes.map (·.id)).Nodup)
    (hhost : ∀ env mailboxId post, op = .edit env mailboxId post →
      ∀ m ∈ db.mailboxes, m.host = env.settings.imapAllowedHost)
    (h : op.exec db = some db') : op.KeepsRows db db' := by
  cases op with
  | edit env mailboxId post =>
    obtain ⟨saved, hedit⟩ := Exceptions.toOption_map_snd.1 h
    exact mailboxEditTransaction_keepsRows hdb (hhost env mailboxId post rfl) hedit
  | rotate env =>
    simp only [exec, rotateMailboxCredentials, Option.bind_eq_bind, Option.bind_eq_some_iff,
      Option.pure_def, Option.some.injEq] at h
    obtain ⟨primaryId, -, ⟨total, db₁⟩, hloop, rfl⟩ := h
    intro id old hold
    obtain ⟨new, hnew, hform, hpassword⟩ := rotateMailboxes_keepsRows hloop hold
    rw [rowsOf_writeAudit]
    refine ⟨new, hnew, hform, hpassword.imp_right ?_⟩
    rintro ⟨row, hrow, hid, hreencrypt⟩
    obtain ⟨hmem, hid'⟩ := rowsOf_eq_some hold
    have hsame : row = old :=
      Db.eq_of_map_nodup hdb ((List.mem_insertionSort _).1 hrow) hmem (hid.trans hid'.symm)
    rw [← hsame]
    exact hreencrypt
  | store mailbox =>
    simp only [exec] at h
    split at h
    · cases h
      exact fun id old hold => ⟨old, hold, rfl⟩
    · cases h
  | update env mailbox values =>
    obtain ⟨n, hupd⟩ := Exceptions.toOption_map_snd.1 h
    refine keepsRows_updateMailboxes ?_ ?_ (updateGuarded_eq_ok.1 hupd)
    · exact fun m _ _ => by cases values <;> rfl
    · intro m hm hguard
      have hsame : (values.set env m).securityColumns = m.securityColumns := by
        cases values <;> rfl
      rw [bumpMailboxConfigVersion_of_same hsame]
      cases values with
      | cursor validity lastUid => exact ⟨_, _, _, _, _, rfl⟩
      | failure code => exact ⟨_, _, _, _, _, rfl⟩

end Keeps

/-! ## The clients -/

/-- The clients that write rows of mailboxes. -/
inductive MailboxClient where
  /-- A request of `mailbox_edit`. -/
  | edit (env : WebEnv) (mailboxId : ℕ) (post : MailboxFields)
  | rotate (env : RotationEnv)
  /-- A run of the worker that comes to store `stores` messages and then writes what `outcome`
  says, if anything. -/
  | sync (env : SyncEnv) (mailboxId stores : ℕ) (outcome : Mailbox → Option WorkerUpdate)

/-- The messages of a run; a message that is not stored ends it. -/
def storePlan (ids : List ℕ) (mailbox : Mailbox)
    (next : Plan MailboxLock (Option Mailbox) MailboxOp) :
    ℕ → Plan MailboxLock (Option Mailbox) MailboxOp
  | 0 => next
  | n + 1 =>
    .go ((MailboxOp.store mailbox).tx ids) fun done =>
      if done.isSome then storePlan ids mailbox next n else .stop

namespace MailboxClient

/-- What a client does.  Forms are checked and runs begin on rows that are not locked, and an
`UPDATE` waits for the lock only of a row that it has seen to satisfy its condition. -/
def plan (ids : List ℕ) : MailboxClient → Plan MailboxLock (Option Mailbox) MailboxOp
  | edit env mailboxId post =>
    .peek (.row mailboxId) fun row =>
      match row with
      | none => .stop
      | some mailbox =>
        if (MailboxForm.clean env.settings env.unicode
            (MailboxForm.bind (some mailbox) post)).isSome then
          .go ((MailboxOp.edit env mailboxId post).tx ids) fun _ => .stop
        else .stop
  | rotate env =>
    if env.primaryId = none then .stop
    else .go ((MailboxOp.rotate env).tx ids) fun _ => .stop
  | sync env mailboxId stores outcome =>
    .peek (.row mailboxId) fun row =>
      match row with
      | none => .stop
      | some mailbox =>
        if mailbox.enabled = false then .stop
        else
          storePlan ids mailbox
            (match outcome mailbox with
            | none => .stop
            | some values =>
              .peek (.row mailbox.id) fun row =>
                if row.any (guardsMailbox mailbox) then
                  .go ((MailboxOp.update env mailbox values).tx ids) fun _ => .stop
                else .stop)
            stores

/-- The operations that are transactions of the client. -/
def Issues : MailboxClient → MailboxOp → Prop
  | edit env mailboxId post, op => op = .edit env mailboxId post
  | rotate env, op => op = .rotate env ∧ env.primaryId ≠ none
  | sync env _ _ outcome, op =>
    ∃ mailbox, op = .store mailbox ∨
      ∃ values, outcome mailbox = some values ∧ op = .update env mailbox values

lemma storePlan_all {ids : List ℕ} {mailbox : Mailbox}
    {next : Plan MailboxLock (Option Mailbox) MailboxOp}
    {P : Tx MailboxLock (Option Mailbox) MailboxOp → Prop}
    (hstore : P ((MailboxOp.store mailbox).tx ids)) (hnext : next.All P) (n : ℕ) :
    (storePlan ids mailbox next n).All P := by
  induction n with
  | zero => exact hnext
  | succ n ih =>
    refine ⟨hstore, fun done => ?_⟩
    dsimp only
    split
    · exact ih
    · trivial

lemma plan_all (ids : List ℕ) (client : MailboxClient) :
    (client.plan ids).All fun tx => ∃ op, tx = op.tx ids ∧ client.Issues op := by
  cases client with
  | edit env mailboxId post =>
    intro row
    dsimp only
    split
    · trivial
    · split
      · exact ⟨⟨_, rfl, rfl⟩, fun _ => trivial⟩
      · trivial
  | rotate env =>
    change Plan.All _ (if env.primaryId = none then _ else _)
    split
    · trivial
    · next hprimary => exact ⟨⟨_, rfl, rfl, hprimary⟩, fun _ => trivial⟩
  | sync env mailboxId stores outcome =>
    intro row
    dsimp only
    split
    · trivial
    · next mailbox =>
      split
      · trivial
      · refine storePlan_all ⟨_, rfl, mailbox, .inl rfl⟩ ?_ stores
        split
        · trivial
        · next values houtcome =>
          intro row
          dsimp only
          split
          · exact ⟨⟨_, rfl, mailbox, .inr ⟨values, houtcome, rfl⟩⟩, fun _ => trivial⟩
          · trivial

lemma Issues.edit_eq {client : MailboxClient} {env : WebEnv} {mailboxId : ℕ}
    {post : MailboxFields} (h : client.Issues (.edit env mailboxId post)) :
    client = .edit env mailboxId post := by
  cases client with
  | edit env' mailboxId' post' =>
    cases h
    rfl
  | rotate env' => cases h.1
  | sync env' mailboxId' stores outcome =>
    obtain ⟨mailbox, h | ⟨values, -, h⟩⟩ := h
    · cases h
    · cases h

lemma Issues.primaryId_ne_none {client : MailboxClient} {env : RotationEnv}
    (h : client.Issues (.rotate env)) : env.primaryId ≠ none := by
  cases client with
  | edit env' mailboxId' post' => cases h
  | rotate env' =>
    obtain ⟨heq, hprimary⟩ := h
    cases heq
    exact hprimary
  | sync env' mailboxId' stores outcome =>
    obtain ⟨mailbox, h | ⟨values, -, h⟩⟩ := h
    · cases h
    · cases h

end MailboxClient

/-! ## Every run is serial -/

/-- From the database `db` the operations, each in one step and one after the other, lead to
another database, and each keeps what is not its own. -/
inductive Serial {ι : Type} (clients : ι → MailboxClient) (db : Db) :
    List (ι × MailboxOp) → Db → Prop where
  | nil : Serial clients db [] db
  | commit {log : List (ι × MailboxOp)} {db₁ db₂ : Db} {i : ι} {op : MailboxOp}
      (h : Serial clients db log db₁) (hissued : (clients i).Issues op)
      (hexec : op.exec db₁ = some db₂) (hkeeps : op.KeepsRows db₁ db₂) :
      Serial clients db (log ++ [(i, op)]) db₂

section Serial

variable {db db' : Db}

lemma MailboxUpdates.ids (h : MailboxUpdates db db') :
    db'.mailboxes.map (·.id) = db.mailboxes.map (·.id) := by
  induction h with
  | same h => rw [h.mailboxes]
  | update h hrest ih =>
    obtain ⟨p, set, n, hset, hupd⟩ := h
    exact ih.trans (Db.updateMailboxes_ids hset hupd)

lemma MailboxOp.exec_ids {op : MailboxOp} (h : op.exec db = some db') :
    db'.mailboxes.map (·.id) = db.mailboxes.map (·.id) := by
  cases op with
  | edit env mailboxId post =>
    obtain ⟨saved, hedit⟩ := Exceptions.toOption_map_snd.1 h
    exact (mailboxEditTransaction_updates hedit).ids
  | rotate env => exact (rotateMailboxCredentials_updates h).ids
  | store mailbox =>
    simp only [exec] at h
    split at h
    · cases h
      rfl
    · cases h
  | update env mailbox values =>
    obtain ⟨n, hupd⟩ := Exceptions.toOption_map_snd.1 h
    exact Db.updateMailboxes_ids (fun m _ _ => by cases values <;> rfl) (updateGuarded_eq_ok.1 hupd)

lemma keysOf_congr (h : db'.mailboxes.map (·.id) = db.mailboxes.map (·.id)) :
    keysOf db' = keysOf db := by
  have hkeys : ∀ rows : List Mailbox,
      (rows.insertionSort fun a b => a.id ≤ b.id).map (·.id) =
        (rows.map (·.id)).insertionSort (· ≤ ·) :=
    fun rows => List.map_insertionSort _ _ _ rows fun a _ b _ => Iff.rfl
  rw [keysOf, keysOf, hkeys, hkeys, h]

/-- The rows stay rows of the installation's host. -/
lemma MailboxOp.KeepsRows.hosts {op : MailboxOp} (hdb : (db.mailboxes.map (·.id)).Nodup)
    (hids : db'.mailboxes.map (·.id) = db.mailboxes.map (·.id)) {host : PyStr}
    (hhost : ∀ m ∈ db.mailboxes, m.host = host) (h : op.KeepsRows db db') :
    ∀ m ∈ db'.mailboxes, m.host = host := by
  intro m hm
  have hmem : m.id ∈ db.mailboxes.map (·.id) := by
    rw [← hids]
    exact List.mem_map_of_mem hm
  obtain ⟨old, hold, hid⟩ := List.mem_map.1 hmem
  obtain ⟨new, hnew, hkeeps⟩ := h old.id old (rowsOf_of_mem hdb hold)
  rw [hid, rowsOf_of_mem (by rw [hids]; exact hdb) hm] at hnew
  rw [Option.some.inj hnew, hkeeps.host]
  exact hhost old hold

variable {ι : Type} {clients : ι → MailboxClient}

/-- Transactions that run alone are operations one after the other. -/
lemma serial_of_replays {host : PyStr} (hdb : (db.mailboxes.map (·.id)).Nodup)
    (hhost : ∀ m ∈ db.mailboxes, m.host = host)
    (hclients : ∀ i env mailboxId post, clients i = .edit env mailboxId post →
      env.settings.imapAllowedHost = host)
    {log : List (ι × MailboxOp)} {store : MailboxLock → Option Mailbox}
    (h : Replays (fun i tx => ∃ op, tx = op.tx (keysOf db) ∧ (clients i).Issues op) (rowsOf db)
      log store) :
    ∃ db', Serial clients db log db' ∧ store = rowsOf db' ∧
      db'.mailboxes.map (·.id) = db.mailboxes.map (·.id) ∧ ∀ m ∈ db'.mailboxes, m.host = host := by
  induction h with
  | nil => exact ⟨db, .nil, rfl, rfl, hhost⟩
  | @commit log store store' i tx label h htx hrun ih =>
    obtain ⟨op, rfl, hissued⟩ := htx
    obtain ⟨db₁, hserial, rfl, hids, hhost₁⟩ := ih
    have hdb₁ : (db₁.mailboxes.map (·.id)).Nodup := by
      rw [hids]
      exact hdb
    have hstart : ∀ env, op = .rotate env → env.primaryId ≠ none := by
      rintro env rfl
      exact hissued.primaryId_ne_none
    rw [← keysOf_congr hids, op.run_tx hdb₁ hstart] at hrun
    obtain ⟨db₂, hexec, heq⟩ := Option.map_eq_some_iff.1 hrun
    obtain ⟨rfl, rfl⟩ := Prod.mk.inj heq
    have hkeeps : op.KeepsRows db₁ db₂ := by
      refine MailboxOp.exec_keepsRows hdb₁ ?_ hexec
      rintro env mailboxId post rfl m hm
      rw [hhost₁ m hm, hclients i env mailboxId post hissued.edit_eq]
    have hids₂ := MailboxOp.exec_ids hexec
    exact ⟨db₂, hserial.commit hissued hexec hkeeps, rfl, hids₂.trans hids,
      hkeeps.hosts hdb₁ hids₂ hhost₁⟩

/-- However edits, rotations and runs of the worker interleave, the rows are what the committed
operations make of them one after the other, and none of them reverts what another has
committed. -/
theorem mailboxRows_serial [DecidableEq ι] {host : PyStr}
    (hdb : (db.mailboxes.map (·.id)).Nodup) (hhost : ∀ m ∈ db.mailboxes, m.host = host)
    (hclients : ∀ i env mailboxId post, clients i = .edit env mailboxId post →
      env.settings.imapAllowedHost = host)
    {s : Locks.State MailboxLock (Option Mailbox) MailboxOp ι}
    (h : Run (.start (rowsOf db) fun i => (clients i).plan (keysOf db)) s) :
    ∃ db', Serial clients db s.log db' ∧ s.store = rowsOf db' := by
  have hreplays := Run.replays (P := fun i tx => ∃ op, tx = op.tx (keysOf db) ∧
    (clients i).Issues op) (fun i tx ⟨op, htx, _⟩ => htx ▸ op.tx_guarded _)
    (fun i => (clients i).plan_all _) h
  obtain ⟨db', hserial, hstore, -⟩ := serial_of_replays hdb hhost hclients hreplays
  exact ⟨db', hserial, hstore⟩

end Serial

/-- The owner renames the mailbox while the worker reads its mail. -/
def renamingClients (i : Bool) : MailboxClient :=
  if i then .sync (searchEnv []) 1 0
    fun _ => some (.cursor 7 20)
  else .edit sampleWebEnv 1
    { name := py "renamed", providerKey := [], host := [], port := 0, username := [],
      password := [], trustedAuthservIds := [], enabled := true }

/-- Both have read the row before the other one writes it. -/
theorem mailboxRows_serial_rename :
    ∃ s : Locks.State MailboxLock (Option Mailbox) MailboxOp Bool,
      (s.store (.row 1)).map (fun m => (m.name, m.lastUid)) = some (py "renamed", 20) ∧
      ∃ db', Serial renamingClients sampleDb s.log db' ∧ s.store = rowsOf db' := by
  have hdb : (sampleDb.mailboxes.map (·.id)).Nodup := List.nodup_singleton 1
  have hhost : ∀ m ∈ sampleDb.mailboxes, m.host = py "imap.example.org" := by
    intro m hm
    rw [List.mem_singleton.1 hm]
    rfl
  have hclients : ∀ i env mailboxId post, renamingClients i = .edit env mailboxId post →
      env.settings.imapAllowedHost = py "imap.example.org" := by
    intro i env mailboxId post h
    cases i <;> cases h
    rfl
  refine ⟨_, ?_, mailboxRows_serial hdb hhost hclients <|
    .tail (.tail (.tail (.tail (.tail (.tail (.tail (.tail (.tail (.tail (.tail (.tail (.tail
    (.tail .refl
      (.peek (i := true) rfl)) (.peek (i := false) rfl)) (.peek (i := true) rfl))
      (.start (i := true) rfl)) (.start (i := false) rfl)) (.lock (i := false) rfl (.inl rfl)))
      (.read (i := false) rfl)) (.read (i := false) rfl)) (.write (i := false) rfl))
      (.commit (i := false) rfl)) (.lock (i := true) rfl (.inl rfl))) (.read (i := true) rfl))
      (.write (i := true) rfl)) (.commit (i := true) rfl)⟩
  rfl

end MailGate
