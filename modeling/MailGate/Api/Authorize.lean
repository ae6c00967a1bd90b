import MailGate.Models

/-!
# Authorisation of the agent API

The database function `mailgate_api_authorize` of migration 0004: it finds the token, counts
its reads of the last minute, and records the read.
-/

namespace MailGate

/-- The status that `mailgate_api_authorize` returns. -/
inductive ApiStatus where
  | authorized
  | unauthorized
  | rateLimited
deriving DecidableEq, Repr

/-- `RATE_LIMIT_PER_MINUTE`. -/
def rateLimitPerMinute : ℕ := 60

/-- `p_token_hash ~ '^[0-9a-f]{64}$'`. -/
def isTokenHash (tokenHash : PyStr) : Bool :=
  tokenHash.length == 64 && tokenHash.all (· ∈ py "0123456789abcdef")

namespace ApiToken

variable (t : ApiToken)

/-- `'token:' || v_prefix`. -/
def actor : PyStr := py "token:" ++ t.tokenPrefix

/-- The condition under which the function accepts a token at the time `now`. -/
def usable (tokenHash : PyStr) (now : Time) : Bool :=
  t.tokenHash == tokenHash && t.revokedAt.isNone && t.expiresAt.all (now < ·) &&
    t.scope == py "messages:read:approved"

end ApiToken

/-- The event is a read of the token behind this actor. -/
def isApiRead (actor : PyStr) (e : AuditEvent) : Bool :=
  e.actor == actor && e.action == py "api.read"

/-- The event that records a read. -/
def apiReadEvent (id : ℕ) (actor path : PyStr) (now : Time) : AuditEvent where
  id := id
  actor := actor
  action := py "api.read"
  objectType := []
  objectId := []
  metadata := [(py "path", .text path)]
  createdAt := now

/-- `v_recent`: the reads of the last minute. -/
def recentReads (db : Db) (actor : PyStr) (now : Time) : ℕ :=
  db.audit.countP fun e => isApiRead actor e && now - Time.minute ≤ e.createdAt

/-- The two writing statements of the function. -/
def recordRead (db : Db) (tokenHash actor path : PyStr) (now : Time) : Db :=
  { db with
    tokens := db.tokens.map fun t =>
      if t.tokenHash = tokenHash then { t with lastUsedAt := some now } else t
    audit := db.audit ++ [apiReadEvent db.auditSeq actor path now]
    auditSeq := db.auditSeq + 1 }

/-- `mailgate_api_authorize`, where `now` is the value of `v_now`. -/
def mailgateApiAuthorize (tokenHash path : PyStr) (now : Time) (db : Db) : ApiStatus × Db :=
  if ¬ isTokenHash tokenHash ∨ path.length > 2048 then (.unauthorized, db)
  else
    match db.tokens.find? (·.usable tokenHash now) with
    | none => (.unauthorized, db)
    | some token =>
      if rateLimitPerMinute ≤ recentReads db token.actor now then (.rateLimited, db)
      else (.authorized, recordRead db tokenHash token.actor path now)

/-- The keys of the two tables that the authorisation reads. -/
structure Db.AccessKeys (db : Db) : Prop where
  token_ids : (db.tokens.map (·.id)).Nodup
  token_hashes : (db.tokens.map (·.tokenHash)).Nodup
  audit_ids : (db.audit.map (·.id)).Nodup

/-- A call changes nothing, or it admits a read of a usable token and records it. -/
lemma mailgateApiAuthorize_cases (tokenHash path : PyStr) (now : Time) (db : Db) :
    ((mailgateApiAuthorize tokenHash path now db).1 ≠ .authorized ∧
        (mailgateApiAuthorize tokenHash path now db).2 = db) ∨
      ∃ token ∈ db.tokens, token.usable tokenHash now = true ∧
        recentReads db token.actor now < rateLimitPerMinute ∧
        mailgateApiAuthorize tokenHash path now db =
          (.authorized, recordRead db tokenHash token.actor path now) := by
  unfold mailgateApiAuthorize
  split
  · exact .inl ⟨by simp, rfl⟩
  · split
    · exact .inl ⟨by simp, rfl⟩
    · rename_i token hfind
      by_cases hlimit : rateLimitPerMinute ≤ recentReads db token.actor now
      · rw [if_pos hlimit]
        exact .inl ⟨by simp, rfl⟩
      · rw [if_neg hlimit]
        refine .inr ⟨token, List.mem_of_find?_eq_some hfind, ?_, not_le.1 hlimit, rfl⟩
        simpa using List.find?_some hfind

end MailGate
