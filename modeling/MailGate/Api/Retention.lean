import Mathlib.Tactic.Linarith
import MailGate.Api.RateLimit
import MailGate.Lifecycle

/-!
# Retention and authorisation

`purge_retention` deletes tokens that `mailgate_api_authorize` looks up, and audit events that
it counts.  The deleted tokens are none that could be used again.  The deleted events lie
outside the minute that is counted, as long as audit events are kept for a day at least; a
policy that keeps them for no time lifts the rate limit.
-/

namespace MailGate

open RetentionPolicy

/-- The reads of an actor that are dated at or after a point of time. -/
def readsSince (db : Db) (actor : PyStr) (time : Time) : ℕ :=
  db.audit.countP fun e => isApiRead actor e && time ≤ e.createdAt

section Reads

variable {db db' : Db} {tokenHash path actor : PyStr} {now time : Time}

lemma readsSince_anti (hle : now ≤ time) : readsSince db actor time ≤ readsSince db actor now := by
  refine List.countP_mono_left ?_
  intro e _ he
  simp only [Bool.and_eq_true, decide_eq_true_eq] at he ⊢
  exact ⟨he.1, hle.trans he.2⟩

/-- The answer depends on the token that is found and on the number of its reads. -/
lemma mailgateApiAuthorize_status (tokenHash path : PyStr) (now : Time) (db : Db) :
    (mailgateApiAuthorize tokenHash path now db).1 =
      if ¬ isTokenHash tokenHash ∨ path.length > 2048 then .unauthorized
      else
        match db.tokens.find? (·.usable tokenHash now) with
        | none => .unauthorized
        | some token =>
          if rateLimitPerMinute ≤ readsSince db token.actor (now - Time.minute) then
            .rateLimited
          else .authorized := by
  have hreads : ∀ actor, recentReads db actor now = readsSince db actor (now - Time.minute) :=
    fun _ => rfl
  simp only [mailgateApiAuthorize, hreads]
  split
  · rfl
  · cases db.tokens.find? (·.usable tokenHash now) with
    | none => rfl
    | some token =>
      simp only
      split
      · rfl
      · rfl

/-- A token that may be used later may be used now. -/
lemma ApiToken.usable_of_le {token : ApiToken} (hle : now ≤ time)
    (h : token.usable tokenHash time = true) : token.usable tokenHash now = true := by
  simp only [ApiToken.usable, Bool.and_eq_true] at h ⊢
  obtain ⟨⟨⟨hhash, hrevoked⟩, hexpires⟩, hscope⟩ := h
  refine ⟨⟨⟨hhash, hrevoked⟩, ?_⟩, hscope⟩
  cases hexp : token.expiresAt with
  | none => rfl
  | some expires =>
    simp only [hexp, Option.all_some, decide_eq_true_eq] at hexpires ⊢
    exact hle.trans_lt hexpires

/-- The token with a hash that may be used later is the one that may be used now. -/
lemma find?_usable_of_le (hkeys : db.AccessKeys) (hle : now ≤ time) {token : ApiToken}
    (h : db.tokens.find? (·.usable tokenHash time) = some token) :
    db.tokens.find? (·.usable tokenHash now) = some token := by
  have hmem := List.mem_of_find?_eq_some h
  have huse : token.usable tokenHash now = true :=
    ApiToken.usable_of_le hle (by simpa using List.find?_some h)
  have hhash : ∀ {t : ApiToken}, t.usable tokenHash now = true → t.tokenHash = tokenHash := by
    intro t ht
    simp only [ApiToken.usable, Bool.and_eq_true, beq_iff_eq] at ht
    exact ht.1.1.1
  cases hfind : db.tokens.find? (·.usable tokenHash now) with
  | none =>
    rw [List.find?_eq_none] at hfind
    exact absurd huse (hfind token hmem)
  | some other =>
    have hother : other.usable tokenHash now = true := by simpa using List.find?_some hfind
    have hsame := List.inj_on_of_nodup_map hkeys.token_hashes (List.mem_of_find?_eq_some hfind)
      hmem ((hhash hother).trans (hhash huse).symm)
    rw [hsame]

end Reads

/-! ## What a purge leaves -/

section Purge

variable {policy : RetentionPolicy} {now auditAt time : Time} {batchSize : ℕ}
  {counts : List (PyStr × ℕ)} {db db' : Db} {tokenHash actor : PyStr}

lemma cutoff_le (now : Time) (days : ℕ) : cutoff now days ≤ now := by
  have hday : 0 ≤ (days : ℤ) * Time.day := mul_nonneg (Int.natCast_nonneg days) (by decide)
  unfold cutoff
  linarith

/-- A token that a purge deletes cannot be used from its time on. -/
lemma not_usable_of_tokenQueryset {token : ApiToken} {days : ℕ} (hle : now ≤ time)
    (h : tokenQueryset (cutoff now days) token = true) : token.usable tokenHash time = false := by
  have hcutoff := cutoff_le now days
  unfold tokenQueryset at h
  unfold ApiToken.usable
  cases hrevoked : token.revokedAt with
  | some revoked => simp
  | none =>
    simp only [hrevoked] at h
    cases hexp : token.expiresAt with
    | none => simp [hexp] at h
    | some expires =>
      -- it expired before the purge
      simp only [hexp, Option.any_some, decide_eq_true_eq] at h
      have hpast : ¬ time < expires := by linarith
      simp [hpast]

/-- After a purge the same token is found. -/
lemma find?_usable_purge (htokens : db'.tokens =
      db.tokens.filter fun t => !tokenQueryset (cutoff now policy.tokenDays) t)
    (hle : now ≤ time) :
    db'.tokens.find? (·.usable tokenHash time) = db.tokens.find? (·.usable tokenHash time) := by
  rw [htokens, List.find?_filter]
  refine congrArg (List.find? · db.tokens) ?_
  funext token
  cases hgone : tokenQueryset (cutoff now policy.tokenDays) token with
  | false => simp
  | true => simp [not_usable_of_tokenQueryset hle hgone]

/-- After a purge the reads since the end of the audit period are counted. -/
lemma readsSince_purge {event : AuditEvent} (haction : event.action = py "retention.purged")
    (haudit : db'.audit = (db.audit.filter fun e => cutoff now policy.auditDays ≤ e.createdAt) ++
      [event]) (actor : PyStr) (time : Time) :
    readsSince db' actor time = readsSince db actor (max time (cutoff now policy.auditDays)) := by
  have hevent : isApiRead actor event = false := by
    have hne : (py "retention.purged" == py "api.read") = false := by decide
    rw [isApiRead, haction, hne, Bool.and_false]
  unfold readsSince
  rw [haudit, List.countP_append, List.countP_singleton, List.countP_filter]
  simp only [hevent, Bool.false_and, Bool.false_eq_true, if_false, Nat.add_zero]
  refine List.countP_congr ?_
  intro e _
  simp only [Bool.and_eq_true, decide_eq_true_eq, max_le_iff, and_assoc]

/-- A purge that keeps the audit events of the last day keeps all that are counted. -/
lemma cutoff_le_window {days : ℕ} (hdays : 1 ≤ days) (hle : now ≤ time) :
    cutoff now days ≤ time - Time.minute := by
  have hday : (1 : ℤ) * Time.day ≤ (days : ℤ) * Time.day :=
    mul_le_mul_of_nonneg_right (by exact_mod_cast hdays) (by decide)
  have hminute : Time.minute ≤ Time.day := by decide
  unfold cutoff
  linarith

lemma cutoff_zero (now : Time) : cutoff now 0 = now := by simp [cutoff]

/-- A purge leaves the answers to calls under a hash as they are, from its time on, exactly if
its policy keeps audit events for a day at least, or the hash is malformed, or the token has
fewer than sixty reads in the minute before the purge, or as many that are dated after it. -/
theorem purgeRetention_transparent_iff (hkeys : db.AccessKeys)
    (hpurge : policy.purgeRetention now batchSize auditAt db = some (counts, db')) :
    (∀ path time, now ≤ time → (mailgateApiAuthorize tokenHash path time db').1 =
        (mailgateApiAuthorize tokenHash path time db).1) ↔
      1 ≤ policy.auditDays ∨ isTokenHash tokenHash = false ∨
        ∀ token, db.tokens.find? (·.usable tokenHash now) = some token →
          rateLimitPerMinute ≤ readsSince db token.actor (now - Time.minute) →
          rateLimitPerMinute ≤ readsSince db token.actor now := by
  obtain ⟨htokens, event, haction, haudit⟩ :=
    purgeRetention_access hkeys.token_ids hkeys.audit_ids hpurge
  have hreads := readsSince_purge haction haudit
  constructor
  · intro hsame
    by_cases hdays : 1 ≤ policy.auditDays
    · exact .inl hdays
    cases hhash : isTokenHash tokenHash with
    | false => exact .inr (.inl rfl)
    | true =>
      right
      right
      intro token hfind hlimit
      -- a call at the time of the purge
      have hnow := hsame [] now le_rfl
      rw [mailgateApiAuthorize_status, mailgateApiAuthorize_status,
        find?_usable_purge htokens le_rfl, hfind] at hnow
      simp only [hhash, not_true_eq_false, List.length_nil, gt_iff_lt, Nat.not_lt_zero, or_self,
        if_false, hreads] at hnow
      have hzero : policy.auditDays = 0 := by omega
      have hminute : now - Time.minute ≤ now := sub_le_self now (by decide)
      rw [hzero, cutoff_zero, max_eq_right hminute, if_pos hlimit] at hnow
      by_contra hfew
      rw [if_neg hfew] at hnow
      cases hnow
  · intro hcond path time hle
    rw [mailgateApiAuthorize_status, mailgateApiAuthorize_status, find?_usable_purge htokens hle]
    split
    · rfl
    rename_i hwell
    cases hfind : db.tokens.find? (·.usable tokenHash time) with
    | none => rfl
    | some token =>
      simp only [hreads]
      rcases hcond with hdays | hbad | hcond
      · rw [max_eq_left (cutoff_le_window hdays hle)]
      · simp [hbad] at hwell
      · by_cases hwindow : cutoff now policy.auditDays ≤ time - Time.minute
        · rw [max_eq_left hwindow]
        · rw [max_eq_right (not_le.1 hwindow).le]
          -- the window of the call begins before the purge
          have hcutoff := cutoff_le now policy.auditDays
          have hbefore : readsSince db token.actor (time - Time.minute) ≤
              readsSince db token.actor (now - Time.minute) :=
            readsSince_anti (sub_le_sub_right hle _)
          have hafter : readsSince db token.actor now ≤
              readsSince db token.actor (cutoff now policy.auditDays) := readsSince_anti hcutoff
          have hinside : readsSince db token.actor (cutoff now policy.auditDays) ≤
              readsSince db token.actor (time - Time.minute) :=
            readsSince_anti (not_le.1 hwindow).le
          have hkept := hcond token (find?_usable_of_le hkeys hle hfind)
          by_cases hlimit : rateLimitPerMinute ≤ readsSince db token.actor (time - Time.minute)
          · rw [if_pos hlimit, if_pos ((hkept (hlimit.trans hbefore)).trans hafter)]
          · rw [if_neg hlimit, if_neg fun h => hlimit (h.trans hinside)]

end Purge

/-! ## A token with sixty reads -/

/-- The reads of the token of `sampleCalls`, one a microsecond. -/
def sampleReads : List AuditEvent :=
  (List.range rateLimitPerMinute).map fun i =>
    apiReadEvent (i + 1) sampleToken.actor (py "/api/v1/categories") i

/-- The token of `sampleCalls` with sixty reads. -/
def sampleReadDb : Db :=
  { sampleCalls.db with audit := sampleReads, auditSeq := rateLimitPerMinute + 1 }

/-- The default periods, with another one for the audit events. -/
def samplePolicy (auditDays : ℕ) (h : auditDays ≤ 36500) : RetentionPolicy where
  approvedDays := 365
  quarantinedDays := 30
  rejectedDays := 30
  tokenDays := 30
  auditDays := auditDays
  bounded := by simpa using h

lemma sampleReadDb_accessKeys : sampleReadDb.AccessKeys where
  token_ids := by decide
  token_hashes := by decide +kernel
  audit_ids := by decide +kernel

/-- With audit events kept for a year the limit outlasts a purge. -/
theorem purgeRetention_transparent_year : ∃ counts db',
    (samplePolicy 365 (by decide)).purgeRetention 100 500 200 sampleReadDb =
        some (counts, db') ∧
      (mailgateApiAuthorize sampleHash (py "/api/v1/categories") 100 db').1 = .rateLimited := by
  obtain ⟨counts, db', hpurge⟩ : ∃ counts db',
      (samplePolicy 365 (by decide)).purgeRetention 100 500 200 sampleReadDb =
        some (counts, db') := ⟨_, _, rfl⟩
  have hsame : (mailgateApiAuthorize sampleHash (py "/api/v1/categories") 100 db').1 =
      (mailgateApiAuthorize sampleHash (py "/api/v1/categories") 100 sampleReadDb).1 :=
    (purgeRetention_transparent_iff sampleReadDb_accessKeys hpurge).2 (.inl (by decide)) _ _ le_rfl
  refine ⟨counts, db', hpurge, hsame.trans ?_⟩
  decide +kernel

/-- With audit events kept for no time a purge admits a read that was refused. -/
theorem purgeRetention_lifts_limit :
    (mailgateApiAuthorize sampleHash (py "/api/v1/categories") 100 sampleReadDb).1 =
        .rateLimited ∧
      ∃ counts db',
        (samplePolicy 0 (by decide)).purgeRetention 100 500 200 sampleReadDb =
            some (counts, db') ∧
          (mailgateApiAuthorize sampleHash (py "/api/v1/categories") 100 db').1 =
            .authorized := by
  refine ⟨by decide +kernel, _, _, rfl, ?_⟩
  decide +kernel

end MailGate
