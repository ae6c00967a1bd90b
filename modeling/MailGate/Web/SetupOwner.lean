import MailGate.Lib.Exceptions
import MailGate.Lib.Locks
import MailGate.Python.Bytes
import MailGate.Web.Views

/-!
# The first owner

`setup_owner` looks three times whether there is an owner: at its start, in the form, and under
the advisory lock of its transaction.  Only the last of them counts when several requests meet.
-/

namespace MailGate

open Locks

/-! ## The form -/

/-- `hmac.compare_digest` of two strings; `none` is the `TypeError` for other than ASCII. -/
def compareDigest (a b : PyStr) : Option Bool :=
  match PyStr.encodeAscii a, PyStr.encodeAscii b with
  | some a, some b => some (a == b)
  | _, _ => none

lemma eq_of_compareDigest {a b : PyStr} (h : compareDigest a b = some true) : a = b := by
  unfold compareDigest at h
  split at h
  · next a' b' ha hb =>
    have heq : a' = b' := by simpa using h
    subst heq
    exact Option.some.inj ((PyStr.decodeAscii_of_encodeAscii ha).symm.trans
      (PyStr.decodeAscii_of_encodeAscii hb))
  · cases h

/-- A `POST` request of `setup_owner`. -/
structure OwnerRequest where
  username : PyStr
  /-- The cleaned `setup_token`. -/
  setupToken : PyStr
  /-- The framework has accepted the user name and the passwords. -/
  accepted : Bool
  /-- The key that the user gets. -/
  userId : ℕ
  now : Time

/-- `OwnerCreationForm.clean` before it asks for an owner: the request has the setup token. -/
def OwnerRequest.hasToken (settings : WebSettings) (request : OwnerRequest) : Bool :=
  settings.setupToken ≠ [] && compareDigest request.setupToken settings.setupToken == some true

lemma OwnerRequest.token_eq {settings : WebSettings} {request : OwnerRequest}
    (h : request.hasToken settings = true) :
    settings.setupToken ≠ [] ∧ request.setupToken = settings.setupToken := by
  simp only [hasToken, Bool.and_eq_true, decide_eq_true_eq, beq_iff_eq] at h
  exact ⟨h.1, eq_of_compareDigest h.2⟩

/-! ## The view -/

/-- `INSERT INTO auth_user`. -/
def insertUser (username : PyStr) (db : Db) : Db := { db with users := db.users ++ [username] }

/-- The statements of `setup_owner` under `transaction.atomic()`.  The only lock is the advisory
one. -/
def OwnerRequest.transaction (request : OwnerRequest) : Tx Unit Db Page :=
  .lock () <| .read () fun db =>
    if db.users ≠ [] then .commit (.redirect (py "login"))
    else
      .update () (insertUser request.username) <|
      .update () (fun db => db.writeAudit request.username (py "owner.created")
        (some (py "User", PyStr.ofNat request.userId)) [] request.now) <|
      .commit (.redirect (py "mailbox-create"))

/-- `setup_owner`: the view and then the form ask for an owner outside of a transaction. -/
def OwnerRequest.plan (settings : WebSettings) (request : OwnerRequest) : Plan Unit Db Page :=
  .peek () fun db =>
    if db.users ≠ [] ∨ request.hasToken settings = false ∨ request.accepted = false then .stop
    else
      .peek () fun db =>
        if db.users ≠ [] then .stop else .go request.transaction fun _ => .stop

lemma OwnerRequest.transaction_guarded (request : OwnerRequest) :
    request.transaction.Guarded ∅ := by
  refine ⟨by simp, fun db => ?_⟩
  dsimp only
  split
  · trivial
  · exact Tx.guarded_update (by simp) (Tx.guarded_update (by simp) trivial)

/-- Alone, the statements are the transaction of the view. -/
lemma OwnerRequest.run_transaction (request : OwnerRequest) (db : Db) :
    request.transaction.run (fun _ => db) =
      (setupOwnerTransaction request.username request.userId request.now db).toOption.map
        fun r => (r.1, fun _ => r.2) := by
  by_cases hne : db.users = []
  · have hupdate : ∀ (c : Unit → Db) (db : Db), Function.update c () db = fun _ => db := by
      intro c db
      ext
      rfl
    simp [transaction, Tx.run, setupOwnerTransaction, insertUser, hne, hupdate, Except.toOption]
  · simp [transaction, Tx.run, setupOwnerTransaction, hne, Except.toOption]

/-- Only a request with the token comes to its transaction. -/
lemma OwnerRequest.plan_all (settings : WebSettings) (request : OwnerRequest) :
    (request.plan settings).All fun tx =>
      tx = request.transaction ∧ request.hasToken settings = true := by
  intro db
  dsimp only
  split
  · trivial
  · next hform =>
    intro db'
    dsimp only
    split
    · trivial
    · push Not at hform
      exact ⟨⟨rfl, by simpa using hform.2.1⟩, fun _ => trivial⟩

/-! ## Many requests -/

/-- How many events say that an owner was created. -/
def ownerCreatedCount (db : Db) : ℕ := db.audit.countP (·.action = py "owner.created")

lemma setupOwnerTransaction_owned {username : PyStr} {userId : ℕ} {now : Time} {db db' : Db}
    {page : Page} (h : setupOwnerTransaction username userId now db = .ok (page, db'))
    (hne : db.users ≠ []) : db' = db := by
  simp only [setupOwnerTransaction, hne, ne_eq, not_false_eq_true, if_true, Except.ok.injEq,
    Prod.mk.injEq] at h
  exact h.2.symm

lemma setupOwnerTransaction_first {username : PyStr} {userId : ℕ} {now : Time} {db db' : Db}
    {page : Page} (h : setupOwnerTransaction username userId now db = .ok (page, db'))
    (hnil : db.users = []) :
    db'.users = [username] ∧ ownerCreatedCount db' = ownerCreatedCount db + 1 := by
  simp only [setupOwnerTransaction, hnil, ne_eq, not_true_eq_false, if_false, Except.ok.injEq,
    Prod.mk.injEq] at h
  obtain ⟨-, rfl⟩ := h
  refine ⟨rfl, ?_⟩
  simp only [ownerCreatedCount, Db.writeAudit, List.countP_append]
  rfl

/-- What a list of requests has created since the database was `db`: an account and an event for
each. -/
structure OwnersCreated {ι : Type} (settings : WebSettings) (requests : ι → OwnerRequest)
    (db db' : Db) (created : List ι) : Prop where
  users : db'.users = db.users ++ created.map fun i => (requests i).username
  events : ownerCreatedCount db' = ownerCreatedCount db + created.length
  tokens : ∀ i ∈ created,
    settings.setupToken ≠ [] ∧ (requests i).setupToken = settings.setupToken

variable {ι : Type} {settings : WebSettings} {requests : ι → OwnerRequest} {db : Db}

/-- One transaction after the other: the first of them creates the account, if there is none. -/
lemma replays_ownersCreated {log : List (ι × Page)} {store : Unit → Db}
    (h : Replays (fun i tx => tx = (requests i).transaction ∧
      (requests i).hasToken settings = true) (fun _ => db) log store) :
    ∃ created : List ι, created.length ≤ 1 ∧
      OwnersCreated settings requests db (store ()) created := by
  induction h with
  | nil => exact ⟨[], by simp, ⟨by simp, by simp, by simp⟩⟩
  | @commit log store store' i tx page h htx hrun ih =>
    obtain ⟨rfl, htoken⟩ := htx
    obtain ⟨created, hlength, hcreated⟩ := ih
    have hstore : store = fun _ => store () := rfl
    rw [hstore, OwnerRequest.run_transaction] at hrun
    obtain ⟨⟨page', db'⟩, hok, heq⟩ := Option.map_eq_some_iff.1 hrun
    have hbody := Exceptions.toOption_eq_some.1 hok
    cases heq
    by_cases hne : (store ()).users = []
    · -- no account yet, so no request has created one
      obtain ⟨husers, hevents⟩ := setupOwnerTransaction_first hbody hne
      have hnil := hcreated.users
      rw [hne, eq_comm, List.append_eq_nil_iff, List.map_eq_nil_iff] at hnil
      obtain ⟨hdb, rfl⟩ := hnil
      refine ⟨[i], by simp, ⟨?_, ?_, ?_⟩⟩
      · rw [husers, hdb]
        rfl
      · rw [hevents, hcreated.events]
        rfl
      · intro j hj
        obtain rfl := List.mem_singleton.1 hj
        exact (requests j).token_eq htoken
    · have hsame : db' = store () := setupOwnerTransaction_owned hbody hne
      subst hsame
      exact ⟨created, hlength, hcreated⟩

/-- However the requests interleave, at most one account and one event come into being, and the
account belongs to a request with the setup token. -/
theorem setupOwner_creates_one [DecidableEq ι] {s : Locks.State Unit Db Page ι}
    (h : Run (.start (fun _ => db) fun i => (requests i).plan settings) s) :
    ∃ created : List ι, created.length ≤ 1 ∧
      OwnersCreated settings requests db (s.store ()) created :=
  replays_ownersCreated <| Run.replays (fun i _ htx => htx.1 ▸ (requests i).transaction_guarded)
    (fun i => (requests i).plan_all settings) h

/-- Two requests with the token. -/
def ownerRequests (i : Bool) : OwnerRequest :=
  { username := if i then py "anna" else py "berta"
    setupToken := py "token"
    accepted := true
    userId := 1
    now := 0 }

/-- Both requests see no owner, in the view and in the form; then they run their transactions. -/
theorem setupOwner_creates_one_overlap :
    ∃ s : Locks.State Unit Db Page Bool, (s.store ()).users = [py "anna"] ∧
      s.log = [(true, .redirect (py "mailbox-create")), (false, .redirect (py "login"))] ∧
      ∃ created : List Bool, created.length ≤ 1 ∧
        OwnersCreated ⟨[], py "token"⟩ ownerRequests ⟨[], [], 0, [], [], [], 0, [], 0⟩
          (s.store ()) created := by
  refine ⟨_, ?_, ?_, setupOwner_creates_one <|
    .tail (.tail (.tail (.tail (.tail (.tail (.tail (.tail (.tail (.tail (.tail (.tail (.tail
    (.tail (.tail (.tail .refl
      (.peek (i := false) rfl)) (.peek (i := true) rfl)) (.peek (i := false) rfl))
      (.peek (i := true) rfl)) (.start (i := true) rfl)) (.start (i := false) rfl))
      (.lock (i := true) rfl (.inl rfl))) (.read (i := true) rfl)) (.read (i := true) rfl))
      (.write (i := true) rfl)) (.read (i := true) rfl)) (.write (i := true) rfl))
      (.commit (i := true) rfl)) (.lock (i := false) rfl (.inl rfl))) (.read (i := false) rfl))
      (.commit (i := false) rfl)⟩
  · rfl
  · rfl

end MailGate
