import MailGate.Api.RateLimit

/-!
# The fallback of the authorisation

`_orm_authorize` of `api_auth.py`, which stands in for the database function when the
database is not PostgreSQL.  It reads the clock three times where the function reads it once;
with one reading the two agree on the answer and on every row.
-/

namespace MailGate

/-- Exceptions of `_orm_authorize`. -/
inductive OrmExn where
  /-- `ApiToken.MultipleObjectsReturned`. -/
  | multipleObjectsReturned
  /-- `save(update_fields=...)` met no row. -/
  | noRow
deriving DecidableEq, Repr

/-- `ApiToken.active`, where `now` is the clock. -/
def ApiToken.active (t : ApiToken) (now : Time) : Bool :=
  t.revokedAt.isNone &&
    match t.expiresAt with
    | none => true
    | some expires => expires > now

/-- `token.save(update_fields=("last_used_at",))`. -/
def Db.updateLastUsed (db : Db) (id : ℕ) (now : Time) : Except OrmExn Db :=
  if id ∉ db.tokens.map (·.id) then .error .noRow
  else
    .ok { db with
      tokens := db.tokens.map fun t => if t.id = id then { t with lastUsedAt := some now } else t }

/-- `_orm_authorize`; `clock` holds the readings of `timezone.now()` in their order. -/
def ormAuthorize (tokenHash path : PyStr) (clock : ℕ → Time) (db : Db) :
    Except OrmExn (ApiStatus × Db) :=
  match db.tokens.filter fun t => t.tokenHash = tokenHash with
  | [] => .ok (.unauthorized, db)
  | [token] =>
    let now := clock 0
    if token.active (clock 1) = false ∨ token.scope ≠ py "messages:read:approved" then
      .ok (.unauthorized, db)
    else
      let recent := db.audit.countP fun e =>
        e.actor = token.actor && e.action = py "api.read" && now - Time.minute ≤ e.createdAt
      if rateLimitPerMinute ≤ recent then .ok (.rateLimited, db)
      else
        (db.updateLastUsed token.id now).map fun db =>
          (.authorized, db.writeAudit token.actor (py "api.read") none
            [(py "path", .text path)] (clock 2))
  | _ => .error .multipleObjectsReturned

section Agreement

variable {db : Db} {tokenHash path : PyStr} {now : Time} {token : ApiToken}

/-- The two conditions on a token with the hash. -/
lemma ApiToken.usable_iff_active :
    token.usable tokenHash now = true ↔
      token.tokenHash = tokenHash ∧ token.active now = true ∧
        token.scope = py "messages:read:approved" := by
  unfold ApiToken.usable ApiToken.active
  cases token.expiresAt with
  | none => simp [and_assoc]
  | some expires => simp [and_assoc]

lemma countP_apiRead (actor : PyStr) :
    (db.audit.countP fun e =>
      e.actor = actor && e.action = py "api.read" && now - Time.minute ≤ e.createdAt) =
        recentReads db actor now := by
  refine List.countP_congr ?_
  intro e _
  simp [isApiRead]

/-- The unique row with a hash is what both of them find. -/
lemma find?_usable_of_filter
    (hfilter : (db.tokens.filter fun t => t.tokenHash = tokenHash) = [token]) :
    db.tokens.find? (·.usable tokenHash now) =
      if token.usable tokenHash now then some token else none := by
  have hsplit : db.tokens.find? (·.usable tokenHash now) =
      (db.tokens.filter fun t => t.tokenHash = tokenHash).find? (·.usable tokenHash now) := by
    rw [List.find?_filter]
    refine congrArg (List.find? · db.tokens) ?_
    funext t
    by_cases hhash : t.tokenHash = tokenHash
    · simp [hhash]
    · simp [ApiToken.usable, hhash]
  rw [hsplit, hfilter, List.find?_singleton]

lemma filter_tokenHash (hkeys : db.AccessKeys) (htoken : token ∈ db.tokens)
    (hhash : token.tokenHash = tokenHash) :
    (db.tokens.filter fun t => t.tokenHash = tokenHash) = [token] := by
  have hnodup : (db.tokens.filter fun t => t.tokenHash = tokenHash).Nodup :=
    (List.Nodup.of_map _ hkeys.token_hashes).filter _
  refine List.perm_singleton.1 ((List.perm_ext_iff_of_nodup hnodup (List.nodup_singleton _)).2 ?_)
  intro t
  simp only [List.mem_filter, decide_eq_true_eq, List.mem_singleton]
  constructor
  · rintro ⟨ht, heq⟩
    exact List.inj_on_of_nodup_map hkeys.token_hashes ht htoken (heq.trans hhash.symm)
  · rintro rfl
    exact ⟨htoken, hhash⟩

/-- The update by primary key is the update by hash. -/
lemma updateLastUsed_eq (hkeys : db.AccessKeys) (htoken : token ∈ db.tokens)
    (hhash : token.tokenHash = tokenHash) :
    db.updateLastUsed token.id now =
      .ok { db with
        tokens := db.tokens.map fun t =>
          if t.tokenHash = tokenHash then { t with lastUsedAt := some now } else t } := by
  have hrow : token.id ∈ db.tokens.map (·.id) := List.mem_map_of_mem htoken
  rw [Db.updateLastUsed, if_neg (not_not.2 hrow)]
  refine congrArg Except.ok (congrArg (fun tokens => { db with tokens := tokens }) ?_)
  refine List.map_congr_left ?_
  intro t ht
  have hiff : t.id = token.id ↔ t.tokenHash = tokenHash := by
    constructor
    · intro hid
      rw [List.inj_on_of_nodup_map hkeys.token_ids ht htoken hid]
      exact hhash
    · intro heq
      rw [List.inj_on_of_nodup_map hkeys.token_hashes ht htoken (heq.trans hhash.symm)]
  by_cases hid : t.id = token.id
  · rw [if_pos hid, if_pos (hiff.1 hid)]
  · rw [if_neg hid, if_neg fun heq => hid (hiff.2 heq)]

/-- The actor of a token whose prefix fits its column is not cut. -/
lemma writeAudit_read (hfits : token.Fits) (db : Db) :
    db.writeAudit token.actor (py "api.read") none [(py "path", .text path)] now =
      { db with
        audit := db.audit ++ [apiReadEvent db.auditSeq token.actor path now]
        auditSeq := db.auditSeq + 1 } := by
  have hactor : token.actor.take 120 = token.actor := by
    have hhead : token.tokenPrefix.length ≤ 16 := hfits.2.1.1
    refine List.take_of_length_le ?_
    rw [ApiToken.actor, List.length_append]
    have hlabel : (py "token:").length = 6 := by decide
    omega
  have haction : (py "api.read").take 120 = py "api.read" := by decide
  simp only [Db.writeAudit, apiReadEvent, hactor, haction, Option.map_none, Option.getD_none,
    List.take_nil]

/-- With one reading of the clock the fallback answers as the database function does, and
leaves the same database. -/
theorem ormAuthorize_eq (hkeys : db.AccessKeys) (hfits : ∀ t ∈ db.tokens, t.Fits)
    (hhash : isTokenHash tokenHash = true) (hpath : path.length ≤ 2048) {clock : ℕ → Time}
    (hclock : ∀ i, clock i = now) :
    ormAuthorize tokenHash path clock db = .ok (mailgateApiAuthorize tokenHash path now db) := by
  have hwell : ¬ (¬ isTokenHash tokenHash = true ∨ path.length > 2048) := by
    rintro (h | h)
    · exact h hhash
    · omega
  rw [mailgateApiAuthorize, if_neg hwell]
  by_cases hex : ∃ token ∈ db.tokens, token.tokenHash = tokenHash
  · obtain ⟨token, htoken, heq⟩ := hex
    have hfilter := filter_tokenHash hkeys htoken heq
    rw [find?_usable_of_filter hfilter, ormAuthorize, hfilter]
    simp only [hclock, countP_apiRead]
    by_cases husable : token.usable tokenHash now = true
    · obtain ⟨-, hactive, hscope⟩ := ApiToken.usable_iff_active.1 husable
      rw [if_pos husable]
      simp only [hactive, hscope, ne_eq, not_true_eq_false, Bool.true_eq_false, or_self, if_false]
      by_cases hlimit : rateLimitPerMinute ≤ recentReads db token.actor now
      · rw [if_pos hlimit, if_pos hlimit]
      · rw [if_neg hlimit, if_neg hlimit, updateLastUsed_eq hkeys htoken heq]
        simp only [Except.map, writeAudit_read (hfits token htoken)]
        rfl
    · have hrefused : token.active now = false ∨ token.scope ≠ py "messages:read:approved" := by
        by_contra hboth
        rw [not_or, Bool.not_eq_false, not_not] at hboth
        exact husable (ApiToken.usable_iff_active.2 ⟨heq, hboth⟩)
      rw [if_neg husable]
      simp only [if_pos hrefused]
  · -- no row has the hash
    have hnone : ∀ t ∈ db.tokens, t.tokenHash ≠ tokenHash := fun t ht h => hex ⟨t, ht, h⟩
    have hfilter : (db.tokens.filter fun t => t.tokenHash = tokenHash) = [] := by
      rw [List.filter_eq_nil_iff]
      intro t ht
      simpa using hnone t ht
    have hfind : db.tokens.find? (·.usable tokenHash now) = none := by
      rw [List.find?_eq_none]
      intro t ht husable
      exact hnone t ht (ApiToken.usable_iff_active.1 husable).1
    rw [ormAuthorize, hfilter, hfind]

end Agreement

/-- Both admit a first read of the token of `sampleCalls`. -/
theorem ormAuthorize_eq_sample :
    ormAuthorize sampleHash (py "/api/v1/categories") (fun _ => 7) sampleCalls.db =
        .ok (mailgateApiAuthorize sampleHash (py "/api/v1/categories") 7 sampleCalls.db) ∧
      (mailgateApiAuthorize sampleHash (py "/api/v1/categories") 7 sampleCalls.db).1 =
        .authorized := by
  have hkeys : sampleCalls.db.AccessKeys := ⟨by decide, by decide +kernel, by decide⟩
  have hfits : ∀ t ∈ sampleCalls.db.tokens, t.Fits := by
    intro t ht
    rw [List.mem_singleton.1 ht]
    decide +kernel
  exact ⟨ormAuthorize_eq hkeys hfits (by decide +kernel) (by decide) fun _ => rfl,
    by decide +kernel⟩

end MailGate
