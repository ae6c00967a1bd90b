import MailGate.Lib.Privileges
import MailGate.Models

/-!
# The privileges of the database roles

`bootstrap-roles.sh` sets up the roles, the migrations create the objects of the schema, and
`apply-permissions.sh` grants the worker and the agent API what they need.  However often and in
which order they were run, and wherever a run was killed: once `apply-permissions.sh` has run to
its end, the two roles hold exactly the privileges that it lists.
-/

namespace MailGate

open Privileges (Acl Allows Command Grant Grantee)

/-! ## Objects and rights -/

/-- The tables and views of the schema. -/
inductive DbRelation where
  | mailbox
  | message
  | attachment
  | apiToken
  | auditEvent
  | user
  | approvedMessage
  | other (name : PyStr)
deriving DecidableEq, Repr

/-- The sequences behind generated keys. -/
inductive DbSequence where
  | attachmentId
  | auditEventId
  | other (name : PyStr)
deriving DecidableEq, Repr

/-- The functions of the schema. -/
inductive DbFunction where
  | apiAuthorize
  | forceWorkerQuarantine
  | bumpMailboxConfigVersion
  | other (name : PyStr)
deriving DecidableEq, Repr

/-- What privileges are granted on. -/
inductive DbObject where
  | relation (r : DbRelation)
  | sequence (s : DbSequence)
  | function (f : DbFunction)
deriving DecidableEq, Repr

/-- The rights that PostgreSQL knows on these objects. -/
inductive DbRight where
  | select
  | insert
  | update
  | delete
  | truncate
  | references
  | trigger
  | maintain
  | usage
  | execute
deriving DecidableEq, Repr

/-- A privilege on an object, or on the column of a relation. -/
abbrev DbGrant := Grant Role DbObject PyStr DbRight

/-- The privileges of a database.  All of them were granted by the owner, and none with a grant
option; no role is a member of another one.  What the owner and superusers may do is not listed. -/
abbrev DbAcl := Acl Role DbObject PyStr DbRight

/-- `GRANT` and `REVOKE`. -/
abbrev DbCommand := Command Role DbObject PyStr DbRight

/-- `GRANT rights ON object TO role`. -/
def granted (role : Role) (object : DbObject) (rights : List DbRight) : List DbGrant :=
  rights.map fun right => ⟨.role role, object, none, right⟩

/-- `GRANT right (columns) ON relation TO role`. -/
def grantedColumns (role : Role) (relation : DbRelation) (right : DbRight)
    (columns : List PyStr) : List DbGrant :=
  columns.map fun column => ⟨.role role, .relation relation, some column, right⟩

namespace DbObject

/-- `ALL TABLES IN SCHEMA public`. -/
def isRelation : DbObject → Bool
  | relation _ => true
  | _ => false

/-- `ALL SEQUENCES IN SCHEMA public`. -/
def isSequence : DbObject → Bool
  | sequence _ => true
  | _ => false

/-- `ALL FUNCTIONS IN SCHEMA public`. -/
def isFunction : DbObject → Bool
  | function _ => true
  | _ => false

end DbObject

/-! ## The scripts -/

/-- The columns of a mailbox that the worker may update. -/
def statusColumnNames : List PyStr :=
  [py "uid_validity", py "last_uid", py "last_sync_at", py "last_error_code", py "updated_at"]

/-- What `apply-permissions.sh` grants to `mailgate_api`. -/
def apiGrants : List DbGrant :=
  granted .api (.relation .approvedMessage) [.select] ++
    granted .api (.function .apiAuthorize) [.execute]

/-- What `apply-permissions.sh` grants to `mailgate_worker`. -/
def workerGrants : List DbGrant :=
  granted .worker (.relation .mailbox) [.select] ++
    grantedColumns .worker .mailbox .update statusColumnNames ++
    granted .worker (.relation .message) [.select, .insert] ++
    granted .worker (.relation .attachment) [.select, .insert] ++
    granted .worker (.relation .auditEvent) [.insert] ++
    grantedColumns .worker .auditEvent .select [py "id"] ++
    granted .worker (.sequence .attachmentId) [.usage, .select] ++
    granted .worker (.sequence .auditEventId) [.usage, .select]

/-- The commands of `apply-permissions.sh`. -/
def applyPermissions : List DbCommand :=
  [.revoke (.role .api) fun o _ => o.isRelation,
    .revoke (.role .api) fun o _ => o.isSequence,
    .revoke (.role .api) fun o _ => o.isFunction,
    .revoke .everyone fun o right => o.isFunction && right == .execute,
    .grant (granted .api (.relation .approvedMessage) [.select]),
    .grant (granted .api (.function .apiAuthorize) [.execute]),
    .revoke (.role .worker) fun o _ => o.isRelation,
    .revoke (.role .worker) fun o _ => o.isSequence,
    .grant (granted .worker (.relation .mailbox) [.select]),
    .grant (grantedColumns .worker .mailbox .update statusColumnNames),
    .grant (granted .worker (.relation .message) [.select, .insert]),
    .grant (granted .worker (.relation .attachment) [.select, .insert]),
    .grant (granted .worker (.relation .auditEvent) [.insert]),
    .grant (grantedColumns .worker .auditEvent .select [py "id"]),
    .grant (granted .worker (.sequence .attachmentId) [.usage, .select] ++
      granted .worker (.sequence .auditEventId) [.usage, .select])]

/-- The `DO` block of `apply-permissions.sh` that looks at the privileges. -/
def permissionChecks (acl : DbAcl) : Bool :=
  let hasTable (role : Role) (r : DbRelation) : Bool := Allows acl role (.relation r) none .select
  let hasFunction (role : Role) (f : DbFunction) : Bool :=
    Allows acl role (.function f) none .execute
  !(hasTable .api .message || hasTable .api .mailbox || hasTable .api .attachment ||
      hasTable .api .apiToken || hasTable .api .auditEvent) &&
    hasTable .api .approvedMessage &&
    hasFunction .api .apiAuthorize &&
    !hasFunction .worker .apiAuthorize &&
    !(hasFunction .api .forceWorkerQuarantine || hasFunction .api .bumpMailboxConfigVersion) &&
    !(hasTable .worker .apiToken || hasTable .worker .user)

/-- The privileges that `bootstrap-roles.sh` gives `mailgate_web` on an object. -/
def webGrants : DbObject → List DbGrant
  | .relation r => granted .web (.relation r) [.select, .insert, .update, .delete]
  | .sequence s => granted .web (.sequence s) [.usage, .select]
  | .function _ => []

/-- What PostgreSQL grants on an object when it is created. -/
def defaultGrants : DbObject → List DbGrant
  | .function f => [⟨.everyone, .function f, none, .execute⟩]
  | _ => []

/-- What happens to the privileges while a server is set up and updated. -/
inductive SetupStep where
  /-- `bootstrap-roles.sh`, where these objects exist. -/
  | bootstrap (objects : List DbObject)
  /-- A migration creates an object. -/
  | create (object : DbObject)
  /-- Migration 0004 after it has created the function. -/
  | revokeAuthorize
  /-- `apply-permissions.sh`, stopped after so many commands. -/
  | permissions (commands : ℕ)

/-- The commands of a step. -/
def SetupStep.commands : SetupStep → List DbCommand
  | bootstrap objects => [.grant (objects.flatMap webGrants)]
  | create object => [.grant (webGrants object ++ defaultGrants object)]
  | revokeAuthorize => [.revoke .everyone fun o _ => o == .function .apiAuthorize]
  | permissions n => applyPermissions.take n

/-- The privileges after these steps. -/
def setup (steps : List SetupStep) (acl : DbAcl) : DbAcl :=
  Privileges.run (steps.flatMap (·.commands)) acl

/-! ## What the scripts leave -/

/-- What the two roles are meant to hold. -/
def listedGrants : List DbGrant := apiGrants ++ workerGrants

/-- The privileges that `apply-permissions.sh` can deal with: nothing is granted to everyone but
the execution of functions, and the worker has no function of its own. -/
def Revocable (e : DbGrant) : Prop :=
  match e.grantee with
  | .role .web => True
  | .role .api => True
  | .role .worker => e.object.isFunction = false
  | .everyone => e.object.isFunction = true ∧ e.right = .execute

instance (e : DbGrant) : Decidable (Revocable e) := by
  unfold Revocable
  split <;> infer_instance

/-- A privilege of one of the two roles, or of everyone. -/
def Concerns (e : DbGrant) : Prop := e.grantee ≠ .role .web

lemma mem_listedGrants {c : DbCommand} (hc : c ∈ applyPermissions) {e : DbGrant}
    (he : e ∈ c.grants) : e ∈ listedGrants := by
  have hall : applyPermissions.flatMap (·.grants) = listedGrants := rfl
  rw [← hall, List.mem_flatMap]
  exact ⟨c, hc, he⟩

lemma listedGrants_revocable : ∀ e ∈ listedGrants, Revocable e := by decide +kernel

lemma webGrants_revocable {o : DbObject} {e : DbGrant} (he : e ∈ webGrants o) : Revocable e := by
  cases o with
  | relation r =>
    obtain ⟨right, -, rfl⟩ := List.mem_map.1 he
    trivial
  | sequence s =>
    obtain ⟨right, -, rfl⟩ := List.mem_map.1 he
    trivial
  | function f => exact absurd he List.not_mem_nil

lemma defaultGrants_revocable {o : DbObject} {e : DbGrant} (he : e ∈ defaultGrants o) :
    Revocable e := by
  cases o with
  | relation r => exact absurd he List.not_mem_nil
  | sequence s => exact absurd he List.not_mem_nil
  | function f =>
    obtain rfl := List.mem_singleton.1 he
    exact ⟨rfl, rfl⟩

/-- The steps of the setup grant nothing that the script cannot deal with. -/
lemma SetupStep.revocable {step : SetupStep} {c : DbCommand} (hc : c ∈ step.commands) {e : DbGrant}
    (he : e ∈ c.grants) : Revocable e := by
  cases step with
  | bootstrap objects =>
    obtain rfl := List.mem_singleton.1 hc
    obtain ⟨o, -, he⟩ := List.mem_flatMap.1 he
    exact webGrants_revocable he
  | create object =>
    obtain rfl := List.mem_singleton.1 hc
    rcases List.mem_append.1 he with he | he
    · exact webGrants_revocable he
    · exact defaultGrants_revocable he
  | revokeAuthorize =>
    obtain rfl := List.mem_singleton.1 hc
    exact absurd he List.not_mem_nil
  | permissions n => exact listedGrants_revocable e (mem_listedGrants (List.mem_of_mem_take hc) he)

lemma setup_revocable {steps : List SetupStep} {acl : DbAcl} (hacl : ∀ e ∈ acl, Revocable e) :
    ∀ e ∈ setup steps acl, Revocable e := by
  refine Privileges.run_invariant (I := fun acl => ∀ e ∈ acl, Revocable e) ?_ hacl
  intro c hc acl hacl e he
  obtain ⟨step, -, hc⟩ := List.mem_flatMap.1 hc
  rcases Privileges.mem_exec.1 he with ⟨he, -⟩ | he
  · exact hacl e he
  · exact SetupStep.revocable hc he

/-- The script takes away what it can deal with. -/
lemma applyPermissions_takes {e : DbGrant} (he : Revocable e) (hrole : Concerns e) :
    ∃ c ∈ applyPermissions, c.takes e = true := by
  rw [← List.any_eq_true]
  obtain ⟨grantee, object, part, right⟩ := e
  match grantee, object with
  | .role .web, _ => exact absurd rfl hrole
  | .role .api, .relation _ => rfl
  | .role .api, .sequence _ => rfl
  | .role .api, .function _ => rfl
  | .role .worker, .relation _ => rfl
  | .role .worker, .sequence _ => rfl
  | .role .worker, .function _ => cases he
  | .everyone, .relation _ => cases he.1
  | .everyone, .sequence _ => cases he.1
  | .everyone, .function _ =>
    obtain ⟨-, rfl⟩ := he
    rfl

/-- After the script the two roles and everyone hold what it lists. -/
lemma mem_run_applyPermissions {acl : DbAcl} (hacl : ∀ e ∈ acl, Revocable e) {e : DbGrant}
    (hrole : Concerns e) : e ∈ Privileges.run applyPermissions acl ↔ e ∈ listedGrants := by
  constructor
  · intro h
    by_contra hlisted
    obtain ⟨hold, hkept⟩ := Privileges.mem_of_mem_run
      (fun d hd he => hlisted (mem_listedGrants hd he)) h
    obtain ⟨c, hc, htakes⟩ := applyPermissions_takes (hacl e hold) hrole
    rw [hkept c hc] at htakes
    cases htakes
  · intro h
    have hfresh : ∀ e ∈ listedGrants, e ∈ Privileges.run applyPermissions [] := by decide +kernel
    exact Privileges.run_subset (List.nil_subset acl) (hfresh e h)

/-- What a privilege of one of the two roles rests on is listed. -/
def Confined (acl : DbAcl) : Prop := ∀ e ∈ acl, Concerns e → e ∈ listedGrants

lemma confined_run {acl : DbAcl} (hacl : ∀ e ∈ acl, Revocable e) :
    Confined (Privileges.run applyPermissions acl) :=
  fun _ he hrole => (mem_run_applyPermissions hacl hrole).1 he

lemma setup_concat (steps : List SetupStep) (acl : DbAcl) :
    setup (steps ++ [.permissions applyPermissions.length]) acl =
      Privileges.run applyPermissions (setup steps acl) := by
  simp [setup, SetupStep.commands, Privileges.run_append]

lemma setup_confined {acl : DbAcl} (hacl : ∀ e ∈ acl, Revocable e) (steps : List SetupStep) :
    Confined (setup (steps ++ [.permissions applyPermissions.length]) acl) := by
  rw [setup_concat]
  exact confined_run (setup_revocable hacl)

/-- A command of the script adds only what is listed. -/
lemma Confined.exec {acl : DbAcl} (h : Confined acl) {c : DbCommand} (hc : c ∈ applyPermissions) :
    Confined (c.exec acl) := by
  intro e he hrole
  rcases Privileges.mem_exec.1 he with ⟨he, -⟩ | he
  · exact h e he hrole
  · exact mem_listedGrants hc he

/-- What the agent API may do. -/
def ApiMay : DbObject → DbRight → Prop
  | .relation .approvedMessage, .select => True
  | .function .apiAuthorize, .execute => True
  | _, _ => False

/-- What the worker may do, with a column or without. -/
def WorkerMay : DbObject → Option PyStr → DbRight → Prop
  | .relation .mailbox, _, .select => True
  | .relation .mailbox, column, .update => ∃ name ∈ statusColumnNames, column = some name
  | .relation .message, _, .select => True
  | .relation .message, _, .insert => True
  | .relation .attachment, _, .select => True
  | .relation .attachment, _, .insert => True
  | .relation .auditEvent, _, .insert => True
  | .relation .auditEvent, column, .select => column = some (py "id")
  | .sequence .attachmentId, _, .usage => True
  | .sequence .attachmentId, _, .select => True
  | .sequence .auditEventId, _, .usage => True
  | .sequence .auditEventId, _, .select => True
  | _, _, _ => False

lemma apiGrants_grantee : ∀ e ∈ apiGrants, e.grantee = .role .api := by decide +kernel

lemma workerGrants_grantee : ∀ e ∈ workerGrants, e.grantee = .role .worker := by decide +kernel

lemma allows_api {o : DbObject} {part : Option PyStr} {right : DbRight} :
    Allows listedGrants .api o part right ↔ ApiMay o right := by
  constructor
  · rintro ⟨e, he, hgrantee, rfl, rfl, -⟩
    rcases List.mem_append.1 he with he | he
    · simp only [apiGrants, granted, List.map_cons, List.map_nil, List.cons_append,
        List.nil_append, List.mem_cons, List.not_mem_nil, or_false] at he
      rcases he with rfl | rfl <;> trivial
    · rw [workerGrants_grantee e he] at hgrantee
      simp at hgrantee
  · intro h
    match o, right with
    | .relation .approvedMessage, .select => exact .of_mem (by decide +kernel) (.inl rfl)
    | .function .apiAuthorize, .execute => exact .of_mem (by decide +kernel) (.inl rfl)

lemma allows_worker {o : DbObject} {part : Option PyStr} {right : DbRight} :
    Allows listedGrants .worker o part right ↔ WorkerMay o part right := by
  constructor
  · rintro ⟨e, he, hgrantee, rfl, rfl, hpart⟩
    rcases List.mem_append.1 he with he | he
    · rw [apiGrants_grantee e he] at hgrantee
      simp at hgrantee
    · simp only [workerGrants, granted, grantedColumns, List.mem_append, List.mem_map, or_assoc,
        List.mem_cons, List.not_mem_nil, or_false, exists_eq_or_imp, exists_eq_left] at he
      rcases he with rfl | ⟨name, hname, rfl⟩ | rfl | rfl | rfl | rfl | rfl | rfl | rfl | rfl |
        rfl | rfl
      all_goals try trivial
      · exact ⟨name, hname, (hpart.resolve_left (by simp)).symm⟩
      · exact (hpart.resolve_left (by simp)).symm
  · intro h
    match o, right with
    | .relation .mailbox, .update =>
      obtain ⟨name, hname, rfl⟩ := h
      have hmem : ⟨.role .worker, .relation .mailbox, some name, .update⟩ ∈
          grantedColumns .worker .mailbox .update statusColumnNames :=
        List.mem_map_of_mem hname
      exact .of_mem (by simp [listedGrants, workerGrants, hmem]) (.inr rfl)
    | .relation .auditEvent, .select =>
      obtain rfl := h
      exact .of_mem (by decide +kernel) (.inr rfl)
    | .relation .mailbox, .select | .relation .message, .select | .relation .message, .insert
    | .relation .attachment, .select | .relation .attachment, .insert
    | .relation .auditEvent, .insert | .sequence .attachmentId, .usage
    | .sequence .attachmentId, .select | .sequence .auditEventId, .usage
    | .sequence .auditEventId, .select => exact .of_mem (by decide +kernel) (.inl rfl)

lemma concerns_of_grantee {e : DbGrant} {role : Role} (hrole : role ≠ .web)
    (h : e.grantee = .role role ∨ e.grantee = .everyone) : Concerns e := by
  rw [Concerns]
  rcases h with h | h
  · rw [h]
    simpa using hrole
  · rw [h]
    simp

lemma Confined.allows {acl : DbAcl} (h : Confined acl) {role : Role} (hrole : role ≠ .web)
    {o : DbObject} {part : Option PyStr} {right : DbRight}
    (hallows : Allows acl role o part right) :
    Allows listedGrants role o part right := by
  exact hallows.mono fun e he hgrantee => h e he (concerns_of_grantee hrole hgrantee)

/-- After a complete run of the script the two roles are allowed what is listed, and no more. -/
lemma allows_run_applyPermissions {acl : DbAcl} (hacl : ∀ e ∈ acl, Revocable e) {role : Role}
    (hrole : role ≠ .web) {o : DbObject} {part : Option PyStr} {right : DbRight} :
    Allows (Privileges.run applyPermissions acl) role o part right ↔
      Allows listedGrants role o part right := by
  refine ⟨(confined_run hacl).allows hrole, fun h => h.mono fun e he hgrantee => ?_⟩
  exact (mem_run_applyPermissions hacl (concerns_of_grantee hrole hgrantee)).2 he

/-- The checks look at the two roles only, so they see what is listed. -/
lemma permissionChecks_congr {acl acl' : DbAcl}
    (h : ∀ role o part right, role ≠ .web →
      (Allows acl role o part right ↔ Allows acl' role o part right)) :
    permissionChecks acl = permissionChecks acl' := by
  unfold permissionChecks
  simp only [h, ne_eq, reduceCtorEq, not_false_eq_true]

/-- Whatever was granted before (nothing to everyone but functions, no function to the worker),
and however often the scripts and migrations were run and killed: once `apply-permissions.sh` has
run to its end its checks pass, and the worker and the agent API hold exactly what it lists.  A
later run that is killed leaves them no more than that. -/
theorem setup_allows {acl : DbAcl} (hacl : ∀ e ∈ acl, Revocable e) (steps : List SetupStep) :
    let acl' := setup (steps ++ [.permissions applyPermissions.length]) acl
    permissionChecks acl' = true ∧
      (∀ o part right, Allows acl' .api o part right ↔ ApiMay o right) ∧
      (∀ o part right, Allows acl' .worker o part right ↔ WorkerMay o part right) ∧
      ∀ n role o part right, role ≠ .web →
        Allows (setup [.permissions n] acl') role o part right → Allows acl' role o part right := by
  intro acl'
  have hacl' : acl' = Privileges.run applyPermissions (setup steps acl) := setup_concat steps acl
  have hold : ∀ e ∈ setup steps acl, Revocable e := setup_revocable hacl
  have hallows : ∀ role o part right, role ≠ .web →
      (Allows acl' role o part right ↔ Allows listedGrants role o part right) := by
    intro role o part right hrole
    rw [hacl']
    exact allows_run_applyPermissions hold hrole
  refine ⟨?_, fun o part right => ?_, fun o part right => ?_, fun n role o part right hrole h => ?_⟩
  · rw [permissionChecks_congr hallows]
    decide +kernel
  · exact (hallows .api o part right (by simp)).trans allows_api
  · exact (hallows .worker o part right (by simp)).trans allows_worker
  · -- each command of the later run adds only what is listed
    have hconfined : Confined (setup [.permissions n] acl') := by
      refine Privileges.run_invariant (I := Confined) (fun c hc acl hacl => hacl.exec ?_) ?_
      · rw [List.flatMap_singleton] at hc
        exact List.mem_of_mem_take hc
      · exact setup_confined hacl steps
    exact (hallows role o part right hrole).2 (hconfined.allows hrole h)

/-- The agent API was once allowed to read every message; an update puts that right. -/
theorem setup_allows_mistake :
    ¬ Allows (setup ([.bootstrap [.relation .message], .create (.function .apiAuthorize)] ++
        [.permissions applyPermissions.length])
      [⟨.role .api, .relation .message, none, .select⟩])
      .api (.relation .message) none .select := by
  intro h
  have hacl : ∀ e ∈ ([⟨.role .api, .relation .message, none, .select⟩] : DbAcl), Revocable e := by
    simp [Revocable]
  exact (((setup_allows hacl
    [.bootstrap [.relation .message], .create (.function .apiAuthorize)]).2.1 _ _ _).1 h).elim

end MailGate
