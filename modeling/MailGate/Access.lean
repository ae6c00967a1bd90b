import MailGate.Api.Retention
import MailGate.Api.Views
import MailGate.Effects
import MailGate.Lib.Firsts

/-!
# Who the agent API lets in

A token is issued by the owner, is used by an agent, may expire, may be revoked by the owner, and
is deleted at some time after that.  Whatever order all parties of an installation work in, the
agent API lets a request in exactly if the owner has issued its token, it has not expired, and
the owner has not revoked it since.
-/

namespace MailGate

open RetentionPolicy

/-! ## What a transaction does to the tokens -/

/-- The table of tokens is the same. -/
structure SameTokens (s s' : Db) : Prop where
  tokens : s'.tokens = s.tokens
  tokenSeq : s'.tokenSeq = s.tokenSeq

namespace SameTokens

variable {s s₁ s' : Db}

lemma refl (s : Db) : SameTokens s s := ⟨rfl, rfl⟩

lemma trans (h : SameTokens s s₁) (h' : SameTokens s₁ s') : SameTokens s s' :=
  ⟨h'.tokens.trans h.tokens, h'.tokenSeq.trans h.tokenSeq⟩

lemma writeAudit (s : Db) (actor action : PyStr) (obj : Option (PyStr × PyStr))
    (metadata : List (PyStr × MetaValue)) (now : Time) :
    SameTokens s (s.writeAudit actor action obj metadata now) :=
  ⟨rfl, rfl⟩

lemma updateMailboxes {p : Mailbox → Bool} {set : Mailbox → Mailbox} {n : ℕ}
    (h : s.updateMailboxes p set = .ok (n, s')) : SameTokens s s' := by
  obtain ⟨-, -, rfl⟩ := Db.updateMailboxes_eq_ok.1 h
  exact ⟨rfl, rfl⟩

end SameTokens

/-- The transaction is one of the owner on the tokens. -/
def Txn.onTokens : Txn → Bool
  | .tokenIssue _ => true
  | .tokenRevoke _ _ => true
  | _ => false

/-- The ways in which a transaction can change the table of tokens. -/
inductive TokenEffect : Txn → Db → Db → Prop where
  | same {t : Txn} {s s' : Db} (h : SameTokens s s') (ht : t.onTokens = false) :
      TokenEffect t s s'
  | issue {token : ApiToken} {s s' : Db}
      (hfresh : ∀ r ∈ s.tokens, r.tokenHash ≠ token.tokenHash)
      (htokens : s'.tokens = s.tokens ++ [{ token with id := s.tokenSeq }])
      (hseq : s'.tokenSeq = s.tokenSeq + 1) : TokenEffect (.tokenIssue token) s s'
  | revoke {tokenId : ℕ} {now : Time} {s s' : Db}
      (htokens : s'.tokens =
        s.tokens.map fun r => if r.id = tokenId then { r with revokedAt := some now } else r)
      (hseq : s'.tokenSeq = s.tokenSeq) : TokenEffect (.tokenRevoke tokenId now) s s'
  /-- A read writes when the token was used. -/
  | read {tokenHash path : PyStr} {now : Time} {s s' : Db}
      (htokens : s'.tokens = s.tokens.map fun r =>
        if r.tokenHash = tokenHash then { r with lastUsedAt := some now } else r)
      (hseq : s'.tokenSeq = s.tokenSeq) : TokenEffect (.authorize tokenHash path now) s s'
  | purge {policy : RetentionPolicy} {now auditAt : Time} {batchSize : ℕ} {s s' : Db}
      (htokens : (s.tokens.map (·.id)).Nodup →
        s'.tokens = s.tokens.filter fun r => !tokenQueryset (cutoff now policy.tokenDays) r)
      (hsub : s'.tokens.Sublist s.tokens)
      (hseq : s'.tokenSeq = s.tokenSeq) : TokenEffect (.purge policy now batchSize auditAt) s s'

section Transactions

variable {s s' : Db}

lemma setupOwnerTransaction_sameTokens {username : PyStr} {userId : ℕ} {now : Time} {page : Page}
    (h : setupOwnerTransaction username userId now s = .ok (page, s')) : SameTokens s s' := by
  unfold setupOwnerTransaction at h
  split at h
  · cases h
    exact .refl _
  · cases h
    exact ⟨rfl, rfl⟩

lemma mailboxEditTransaction_sameTokens {env : WebEnv} {mailboxId : ℕ} {post : MailboxFields}
    {saved : Bool} (h : mailboxEditTransaction env mailboxId post s = .ok (saved, s')) :
    SameTokens s s' := by
  unfold mailboxEditTransaction at h
  split at h
  · cases h
  · split at h
    · cases h
    · cases h
      exact .refl _
    · split at h
      · cases h
      · rename_i n s₁ hupd
        cases h
        exact (SameTokens.updateMailboxes hupd).trans (.writeAudit s₁ _ _ _ _ _)

lemma rotateMailboxes_sameTokens {env : RotationEnv} {rows : List Mailbox}
    {tick rotated total : ℕ} (h : rotateMailboxes env tick rows rotated s = some (total, s')) :
    SameTokens s s' := by
  induction rows generalizing tick rotated s with
  | nil =>
    cases h
    exact .refl _
  | cons mailbox rows ih =>
    simp only [rotateMailboxes, Option.bind_eq_bind, Option.bind_eq_some_iff] at h
    obtain ⟨⟨ciphertext, changed⟩, -, h⟩ := h
    simp only at h
    split at h
    · exact ih h
    · split at h
      · cases h
      · rename_i n s₂ hupd
        exact (SameTokens.updateMailboxes hupd).trans (ih h)

lemma rotateMailboxCredentials_sameTokens {env : RotationEnv}
    (h : rotateMailboxCredentials env s = some s') : SameTokens s s' := by
  simp only [rotateMailboxCredentials, Option.bind_eq_bind, Option.bind_eq_some_iff,
    Option.pure_def, Option.some.injEq] at h
  obtain ⟨primaryId, -, ⟨total, s₁⟩, hloop, rfl⟩ := h
  exact (rotateMailboxes_sameTokens hloop).trans (.writeAudit s₁ _ _ _ _ _)

lemma WorkerStatement.exec_sameTokens {statement : WorkerStatement}
    (h : statement.exec s = .ok s') : SameTokens s s' := by
  cases statement with
  | updateMailboxes p set =>
    obtain ⟨⟨n, s₁⟩, hupd, h⟩ := Exceptions.bind_eq_ok.1 h
    cases h
    exact .updateMailboxes hupd
  | insertMessage new =>
    obtain ⟨-, -, -, -, rfl⟩ := Db.insertMessage_eq_ok.1 h
    exact ⟨rfl, rfl⟩
  | insertAttachments rows =>
    obtain ⟨-, -, rfl⟩ := Db.insertAttachments_eq_ok.1 h
    exact ⟨rfl, rfl⟩
  | insertAudit event =>
    cases h
    exact ⟨rfl, rfl⟩

lemma workerTransaction_sameTokens {statements : List WorkerStatement}
    (h : workerTransaction statements s = .ok s') : SameTokens s s' := by
  induction statements generalizing s with
  | nil =>
    cases h
    exact .refl _
  | cons statement statements ih =>
    obtain ⟨s₁, hfirst, hrest⟩ := Exceptions.bind_eq_ok.1 h
    exact (WorkerStatement.exec_sameTokens hfirst).trans (ih hrest)

lemma insertToken_eq_ok {token : ApiToken} {id : ℕ} (h : s.insertToken token = .ok (id, s')) :
    id = s.tokenSeq ∧ (∀ r ∈ s.tokens, r.tokenHash ≠ token.tokenHash) ∧
      s' = { s with
        tokens := s.tokens ++ [{ token with id := s.tokenSeq }]
        tokenSeq := s.tokenSeq + 1 } := by
  unfold Db.insertToken at h
  simp only at h
  split at h
  · cases h
  · split at h
    · cases h
    · rename_i hfresh
      cases h
      exact ⟨rfl, fun r hr hhash => hfresh ⟨r, hr, .inr hhash⟩, rfl⟩

/-- A purge deletes the inactive tokens. -/
lemma purgeRetention_tokens {policy : RetentionPolicy} {now auditAt : Time} {batchSize : ℕ}
    {counts : List (PyStr × ℕ)}
    (h : policy.purgeRetention now batchSize auditAt s = some (counts, s')) :
    ((s.tokens.map (·.id)).Nodup →
        s'.tokens = s.tokens.filter fun r => !tokenQueryset (cutoff now policy.tokenDays) r) ∧
      s'.tokens.Sublist s.tokens ∧ s'.tokenSeq = s.tokenSeq := by
  unfold purgeRetention at h
  split at h
  swap
  · cases h
  rename_i hbatch
  simp only [purge, Option.some.injEq, Prod.mk.injEq] at h
  obtain ⟨-, rfl⟩ := h
  -- the queries on messages leave the table alone
  refine ⟨fun hids => ?_, List.filter_sublist, rfl⟩
  exact congrArg Db.tokens (congrArg Prod.snd (deleteTokensInBatches_eq hids hbatch.1 _))

end Transactions

/-- What each transaction of the installation does to the tokens. -/
theorem Txn.tokenEffect {t : Txn} {s s' : Db} (h : t.Step s s') : TokenEffect t s s' := by
  unfold Txn.Step at h
  cases t with
  | store a =>
    obtain ⟨created, hbody⟩ := Exceptions.toOption_map_snd.1 h
    rcases StoreArgs.transaction_cases hbody with ⟨-, rfl, -, -⟩ | ⟨-, rfl, -⟩
    · exact .same (.refl _) rfl
    · exact .same ⟨rfl, rfl⟩ rfl
  | worker statements =>
    exact .same (workerTransaction_sameTokens (Exceptions.toOption_eq_some.1 h)) rfl
  | setupOwner username userId now =>
    obtain ⟨page, hbody⟩ := Exceptions.toOption_map_snd.1 h
    exact .same (setupOwnerTransaction_sameTokens hbody) rfl
  | mailboxCreate mailbox =>
    obtain ⟨id, hbody⟩ := Exceptions.toOption_map_snd.1 h
    obtain ⟨-, -, rfl⟩ := Db.insertMailbox_eq_ok.1 hbody
    exact .same ⟨rfl, rfl⟩ rfl
  | audit actor action obj metadata now =>
    cases h
    exact .same (.writeAudit s _ _ _ _ _) rfl
  | mailboxEdit env mailboxId post =>
    obtain ⟨saved, hbody⟩ := Exceptions.toOption_map_snd.1 h
    exact .same (mailboxEditTransaction_sameTokens hbody) rfl
  | mailboxDelete env mailboxId =>
    obtain ⟨_, hbody⟩ := Exceptions.toOption_map_snd.1 h
    unfold mailboxDeleteTransaction at hbody
    split at hbody
    · cases hbody
    · cases hbody
      exact .same ⟨rfl, rfl⟩ rfl
  | messageDecide env messageId decision =>
    simp only [Txn.exec] at h
    split at h
    swap
    · cases h
    obtain ⟨_, hbody⟩ := Exceptions.toOption_map_snd.1 h
    unfold messageDecideTransaction at hbody
    split at hbody
    · cases hbody
    · rename_i s₁ hupd
      obtain ⟨-, -, rfl⟩ := Db.updateDecision_eq_ok.1 hupd
      cases hbody
      exact .same ⟨rfl, rfl⟩ rfl
  | tokenIssue token =>
    obtain ⟨id, hbody⟩ := Exceptions.toOption_map_snd.1 h
    obtain ⟨-, hfresh, rfl⟩ := insertToken_eq_ok hbody
    exact .issue hfresh rfl rfl
  | tokenRevoke tokenId now =>
    have hbody := Exceptions.toOption_eq_some.1 h
    unfold Db.updateRevoked at hbody
    split at hbody
    · cases hbody
    · cases hbody
      exact .revoke rfl rfl
  | authorize tokenHash path now =>
    cases h
    rcases mailgateApiAuthorize_cases tokenHash path now s with
      ⟨-, hsame⟩ | ⟨token, -, -, -, hread⟩
    · rw [hsame]
      exact .same (.refl s) rfl
    · rw [hread]
      exact .read rfl rfl
  | purge policy now batchSize auditAt =>
    obtain ⟨⟨counts, s₁⟩, hbody, rfl⟩ := Option.map_eq_some_iff.1 h
    obtain ⟨htokens, hsub, hseq⟩ := purgeRetention_tokens hbody
    exact .purge htokens hsub hseq
  | rotate env => exact .same (rotateMailboxCredentials_sameTokens h) rfl

/-! ## Live tokens -/

/-- The keys of the tokens come from their sequence. -/
structure Db.TokenKeys (db : Db) : Prop where
  nodup : (db.tokens.map (·.id)).Nodup
  below : ∀ r ∈ db.tokens, r.id < db.tokenSeq

/-- An update of other columns keeps the keys. -/
lemma Db.TokenKeys.map {s s' : Db} {f : ApiToken → ApiToken} (h : s.TokenKeys)
    (hf : ∀ r, (f r).id = r.id) (htokens : s'.tokens = s.tokens.map f)
    (hseq : s'.tokenSeq = s.tokenSeq) : s'.TokenKeys := by
  have hids : s'.tokens.map (·.id) = s.tokens.map (·.id) := by
    rw [htokens, List.map_map]
    exact List.map_congr_left fun r _ => hf r
  refine ⟨by rw [hids]; exact h.nodup, ?_⟩
  intro r hr
  rw [htokens] at hr
  obtain ⟨r₀, hr₀, rfl⟩ := List.mem_map.1 hr
  rw [hf, hseq]
  exact h.below r₀ hr₀

lemma Db.TokenKeys.sublist {s s' : Db} (h : s.TokenKeys) (hsub : s'.tokens.Sublist s.tokens)
    (hseq : s'.tokenSeq = s.tokenSeq) : s'.TokenKeys :=
  ⟨h.nodup.sublist (hsub.map _), fun r hr => hseq ▸ h.below r (hsub.subset hr)⟩

/-- Every transaction keeps the keys of the tokens. -/
lemma Txn.tokenKeys {t : Txn} {s s' : Db} (h : t.Step s s') (hs : s.TokenKeys) :
    s'.TokenKeys := by
  cases Txn.tokenEffect h with
  | same hsame _ => exact hs.sublist (hsame.tokens ▸ .refl _) hsame.tokenSeq
  | issue hfresh htokens hseq =>
    refine ⟨?_, ?_⟩
    · rw [htokens]
      exact Db.nodup_map_concat hs.nodup fun r hr => (hs.below r hr).ne
    · intro r hr
      rw [hseq]
      rw [htokens] at hr
      rcases List.mem_append.1 hr with hr | hr
      · exact Nat.lt_succ_of_lt (hs.below r hr)
      · rw [List.mem_singleton.1 hr]
        exact Nat.lt_succ_self _
  | revoke htokens hseq => exact hs.map (fun r => by split <;> rfl) htokens hseq
  | read htokens hseq => exact hs.map (fun r => by split <;> rfl) htokens hseq
  | purge htokens hsub hseq => exact hs.sublist hsub hseq

/-- The row of the token is there, and may be used at this time under this hash. -/
def Live (id : ℕ) (tokenHash : PyStr) (now : Time) (db : Db) : Prop :=
  ∃ r ∈ db.tokens, r.id = id ∧ r.usable tokenHash now = true

/-- The step issues the token with this key, which may be used under this hash. -/
def Issues (id : ℕ) (tokenHash : PyStr) (now : Time) (e : Runs.Taken Db Txn) : Prop :=
  e.before.tokenSeq = id ∧ ∃ token, e.label = .tokenIssue token ∧
    token.usable tokenHash now = true

/-- The step revokes the token with this key. -/
def Revokes (id : ℕ) (e : Runs.Taken Db Txn) : Prop := ∃ at', e.label = .tokenRevoke id at'

/-- A token becomes live by being issued, and is live until it is revoked.  A purge whose clock
is not ahead deletes no live token. -/
lemma Txn.live_iff {id : ℕ} {tokenHash : PyStr} {now : Time} {e : Runs.Taken Db Txn}
    (h : e.label.Step e.before e.after) (hs : e.before.TokenKeys)
    (hpurge : ∀ policy purgeAt batchSize auditAt,
      e.label = .purge policy purgeAt batchSize auditAt → purgeAt ≤ now) :
    Live id tokenHash now e.after ↔
      Issues id tokenHash now e ∨ Live id tokenHash now e.before ∧ ¬ Revokes id e := by
  obtain ⟨s, t, s'⟩ := e
  unfold Issues Revokes Live
  simp only at h hs hpurge ⊢
  cases Txn.tokenEffect h with
  | same hsame ht =>
    -- the labels of the owner on the tokens are not among these
    rw [hsame.tokens]
    cases t with
    | tokenIssue token => cases ht
    | tokenRevoke tokenId now => cases ht
    | _ => simp
  | @issue token _ _ hfresh htokens hseq =>
    simp only [htokens, List.mem_append, List.mem_singleton, or_and_right, exists_or,
      exists_eq_left, Txn.tokenIssue.injEq, reduceCtorEq, exists_false, not_false_eq_true,
      and_true, exists_eq_left']
    exact or_comm
  | @revoke tokenId revokedAt _ _ htokens hseq =>
    have hlive : (∃ r ∈ s'.tokens, r.id = id ∧ r.usable tokenHash now = true) ↔
        ∃ r ∈ s.tokens, (r.id = id ∧ r.usable tokenHash now = true) ∧ r.id ≠ tokenId := by
      rw [htokens]
      simp only [List.mem_map, exists_exists_and_eq_and]
      refine exists_congr fun r => and_congr_right fun _ => ?_
      split
      · -- a revoked row is of no use
        rename_i hid
        simp [ApiToken.usable, hid]
      · rename_i hid
        simp [hid]
    rw [hlive]
    constructor
    · rintro ⟨r, hr, hrow, hne⟩
      refine .inr ⟨⟨r, hr, hrow⟩, ?_⟩
      rintro ⟨at', hlabel⟩
      cases hlabel
      exact hne hrow.1
    · rintro (⟨-, token, hlabel, -⟩ | ⟨⟨r, hr, hrow⟩, hne⟩)
      · cases hlabel
      · refine ⟨r, hr, hrow, fun hid => hne ⟨revokedAt, ?_⟩⟩
        rw [← hid, hrow.1]
  | read htokens hseq =>
    rw [htokens]
    simp only [List.mem_map, exists_exists_and_eq_and, reduceCtorEq, exists_false, false_and,
      and_false, not_false_eq_true, and_true, false_or]
    refine exists_congr fun r => and_congr_right fun _ => ?_
    split <;> rfl
  | @purge policy purgeAt auditAt batchSize _ _ htokens hsub hseq =>
    have hle := hpurge policy purgeAt batchSize auditAt rfl
    rw [htokens hs.nodup]
    simp only [reduceCtorEq, exists_false, false_and, and_false, not_false_eq_true, and_true,
      false_or]
    constructor
    · rintro ⟨r, hr, hrow⟩
      exact ⟨r, List.mem_of_mem_filter hr, hrow⟩
    · rintro ⟨r, hr, hid, husable⟩
      refine ⟨r, List.mem_filter.2 ⟨hr, ?_⟩, hid, husable⟩
      by_contra hgone
      rw [not_usable_of_tokenQueryset hle (by simpa using hgone)] at husable
      cases husable

/-- The run issues a token that may be used under this hash, and does not revoke it later. -/
def Issued (tr : List (Runs.Taken Db Txn)) (tokenHash : PyStr) (now : Time) : Prop :=
  ∃ before issue after token, tr = before ++ issue :: after ∧
    issue.label = .tokenIssue token ∧ token.usable tokenHash now = true ∧
    ∀ e ∈ after, ∀ at', e.label ≠ .tokenRevoke issue.before.tokenSeq at'

/-- After a run from an installation without tokens, the live tokens are those that were issued
and not revoked. -/
lemma InstallationRun.exists_live_iff {s s' : Db} {tr : List (Runs.Taken Db Txn)}
    (hstart : s.tokens = []) (h : InstallationRun s tr s') {tokenHash : PyStr} {now : Time}
    (hpurge : ∀ e ∈ tr, ∀ policy purgeAt batchSize auditAt,
      e.label = .purge policy purgeAt batchSize auditAt → purgeAt ≤ now) :
    (∃ id, Live id tokenHash now s') ↔ Issued tr tokenHash now := by
  have hkeys : s.TokenKeys := ⟨by simp [hstart], by simp [hstart]⟩
  have hnone : ∀ id, ¬ Live id tokenHash now s := by
    rintro id ⟨r, hr, -⟩
    rw [hstart] at hr
    cases hr
  have hlive : ∀ id, Live id tokenHash now s' ↔ ∃ tr₁ e tr₂, tr = tr₁ ++ e :: tr₂ ∧
      Issues id tokenHash now e ∧ ∀ f ∈ tr₂, ¬ Revokes id f := by
    intro id
    rw [h.holds_iff (fun _ _ _ hstep hs => Txn.tokenKeys hstep hs)
      (fun t ht hstep hs => Txn.live_iff hstep hs (hpurge t ht)) hkeys]
    exact or_iff_right fun hfirst => hnone id hfirst.1
  simp only [hlive]
  constructor
  · rintro ⟨id, before, issue, after, rfl, ⟨rfl, token, hlabel, husable⟩, hafter⟩
    exact ⟨before, issue, after, token, rfl, hlabel, husable,
      fun e he at' hrevoke => hafter e he ⟨at', hrevoke⟩⟩
  · rintro ⟨before, issue, after, token, rfl, hlabel, husable, hafter⟩
    exact ⟨_, before, issue, after, rfl, ⟨rfl, token, hlabel, husable⟩,
      fun e he hrevoke => hrevoke.elim (hafter e he)⟩

/-! ## Requests -/

/-- The database refuses a call exactly if no token is live under its hash. -/
lemma unauthorized_iff {db : Db} {tokenHash path : PyStr} {now : Time}
    (hhash : isTokenHash tokenHash = true) (hpath : path.length ≤ 2048) :
    (mailgateApiAuthorize tokenHash path now db).1 = .unauthorized ↔
      ¬ ∃ id, Live id tokenHash now db := by
  have hlive : (∃ id, Live id tokenHash now db) ↔ ∃ r ∈ db.tokens, r.usable tokenHash now = true :=
    ⟨fun ⟨_, r, hr, _, husable⟩ => ⟨r, hr, husable⟩,
      fun ⟨r, hr, husable⟩ => ⟨_, r, hr, rfl, husable⟩⟩
  rw [hlive, mailgateApiAuthorize_status, if_neg (by simp [hhash, hpath])]
  cases hfind : db.tokens.find? (·.usable tokenHash now) with
  | none => simpa using hfind
  | some token =>
    have hfound : ∃ r ∈ db.tokens, r.usable tokenHash now = true :=
      ⟨token, List.mem_of_find?_eq_some hfind, by simpa using List.find?_some hfind⟩
    simp only [hfound, not_true_eq_false, iff_false]
    split <;> simp

lemma Uuid.length_str (u : Uuid) : u.str.length = 36 := by
  rw [Uuid.str, PyStr.join, Firsts.length_intercalate]
  simp only [List.map_cons, List.map_nil, List.length_map, List.length_range]
  rfl

lemma Endpoint.length_path_le (endpoint : Endpoint) : endpoint.path.length ≤ 2048 := by
  cases endpoint with
  | messages state limit => exact (by decide : (py "/api/v1/messages").length ≤ 2048)
  | messageSummary messageId =>
    have hfront : (py "/api/v1/messages/").length = 17 := by decide
    have hback : (py "/summary").length = 8 := by decide
    rw [Endpoint.path, List.length_append, List.length_append, messageId.length_str, hfront, hback]
    omega
  | categories => exact (by decide : (py "/api/v1/categories").length ≤ 2048)

/-- The views behind the authorisation never answer that it failed. -/
lemma Endpoint.view_status (env : ApiEnv) (endpoint : Endpoint) (db : Db) :
    (endpoint.view env db).status ≠ 401 := by
  cases endpoint with
  | messages state limit =>
    simp only [Endpoint.view, apiMessages]
    split
    · decide
    · split <;> simp [apiError]
  | messageSummary messageId =>
    simp only [Endpoint.view, apiMessageSummary]
    split <;> simp [apiError, serverError]
  | categories => simp [Endpoint.view, apiCategories]

/-- The request is a `GET` with a bearer token whose digest is this hash. -/
def ApiRequest.Presents (env : ApiEnv) (request : ApiRequest) (tokenHash : PyStr) : Prop :=
  request.method = py "GET" ∧ request.authorization.length ≤ 256 ∧
    ∃ raw bytes, request.authorization = py "Bearer " ++ raw ∧ PyStr.encode raw = some bytes ∧
      env.sha256 bytes = tokenHash

/-- A request that presents no token gets an error, and changes nothing. -/
lemma serve_of_not_presents {env : ApiEnv} {request : ApiRequest} {db : Db}
    (h : ∀ tokenHash, ¬ request.Presents env tokenHash) :
    (serve env request db).2 = db ∧ ∃ code, (serve env request db).1.body = .error code := by
  simp only [serve]
  split
  · exact ⟨rfl, _, rfl⟩
  · rename_i hmethod
    split
    · exact ⟨rfl, _, rfl⟩
    · rename_i hheader
      rw [not_or, not_not, not_lt] at hheader
      split
      · exact ⟨rfl, _, rfl⟩
      · rename_i raw hraw
        obtain ⟨text, htext⟩ := List.isPrefixOf_iff_prefix.1 hheader.1
        rw [← htext, List.drop_left' (by decide)] at hraw
        exact absurd ⟨not_not.1 hmethod, hheader.2, text, raw, htext.symm, hraw, rfl⟩
          (h (env.sha256 raw))

/-- A request that presents a token of the installation is answered as the database decides. -/
lemma serve_status_of_presents {env : ApiEnv} {request : ApiRequest} {tokenHash : PyStr} {db : Db}
    (h : request.Presents env tokenHash) :
    (serve env request db).1.status = 401 ↔
      (mailgateApiAuthorize tokenHash request.endpoint.path request.now db).1 = .unauthorized := by
  obtain ⟨hmethod, hlength, raw, bytes, hheader, hraw, rfl⟩ := h
  have hstarts : PyStr.startswith (py "Bearer ") request.authorization = true :=
    List.isPrefixOf_iff_prefix.2 ⟨raw, hheader.symm⟩
  have hdrop : request.authorization.drop 7 = raw := by
    rw [hheader, List.drop_left' (by decide)]
  simp only [serve, hmethod, hstarts, hdrop, hraw, ne_eq, not_true_eq_false, if_false, false_or,
    if_neg (not_lt.2 hlength)]
  generalize mailgateApiAuthorize (env.sha256 bytes) request.endpoint.path request.now db = answer
  obtain ⟨status, db'⟩ := answer
  cases status with
  | authorized => simpa using request.endpoint.view_status env db'
  | unauthorized => simp [apiError]
  | rateLimited => simp [apiError]

/-- In every run of an installation that starts without tokens, the agent API answers 401 to a
request with a token exactly if the owner has not issued the token, or it has expired, or the
owner has revoked it since it was issued.  A request without a token gets an error and changes
nothing. -/
theorem installationRun_access (env : ApiEnv) (request : ApiRequest) {s s' : Db}
    {tr : List (Runs.Taken Db Txn)} (hstart : s.tokens = []) (h : InstallationRun s tr s')
    (hpurge : ∀ e ∈ tr, ∀ policy purgeAt batchSize auditAt,
      e.label = .purge policy purgeAt batchSize auditAt → purgeAt ≤ request.now) :
    (∀ tokenHash, isTokenHash tokenHash = true → request.Presents env tokenHash →
        ((serve env request s').1.status = 401 ↔ ¬ Issued tr tokenHash request.now)) ∧
      ((∀ tokenHash, ¬ request.Presents env tokenHash) →
        (serve env request s').2 = s' ∧ ∃ code, (serve env request s').1.body = .error code) := by
  refine ⟨fun tokenHash hhash hpresents => ?_, serve_of_not_presents⟩
  rw [serve_status_of_presents hpresents,
    unauthorized_iff hhash request.endpoint.length_path_le, h.exists_live_iff hstart hpurge]

/-- The SHA-256 digest of `mg_token`. -/
def tokenDigest : PyStr := py "71d86eac9cde014fcedc03690f2561989fa4d746e45255489995ce6f6b4c2a80"

/-- A token that never expires. -/
def agentToken : ApiToken := newToken (py "agent") (py "mg_token") tokenDigest none 0

/-- A token opens the agent API until the owner revokes it. -/
theorem installationRun_access_sample :
    ∃ env request s s', request.Presents env tokenDigest ∧
      InstallationRun sampleDb [⟨sampleDb, .tokenIssue agentToken, s⟩] s ∧
      InstallationRun s [⟨s, .tokenRevoke 1 5, s'⟩] s' ∧
      (serve env request s).1.status ≠ 401 ∧ (serve env request s').1.status = 401 := by
  obtain ⟨collation⟩ := TotalOrder.nonempty PyStr
  obtain ⟨tieBreak⟩ := TotalOrder.nonempty ApprovedMessage
  let env : ApiEnv :=
    { sha256 := fun _ => tokenDigest, isoformat := fun _ => [], decimal := fun _ => none,
      collation, tieBreak }
  let request : ApiRequest :=
    { method := py "GET", authorization := py "Bearer mg_token", endpoint := .categories, now := 9 }
  have hpresents : request.Presents env tokenDigest :=
    ⟨rfl, by decide, py "mg_token", _, rfl, rfl, rfl⟩
  have hissue : (Txn.tokenIssue agentToken).Step sampleDb
      ((Txn.tokenIssue agentToken).next sampleDb) := Txn.step_next (by decide +kernel)
  have hrevoke : (Txn.tokenRevoke 1 5).Step _ _ :=
    Txn.step_next (s := (Txn.tokenIssue agentToken).next sampleDb) (by decide +kernel)
  have hrun : InstallationRun sampleDb _ _ := .cons hissue (.nil _)
  have hlater : InstallationRun sampleDb _ _ := .cons hissue (.cons hrevoke (.nil _))
  have hhash : isTokenHash tokenDigest = true := by decide
  refine ⟨env, request, _, _, hpresents, hrun, .cons hrevoke (.nil _), ?_, ?_⟩
  · rw [Ne, (installationRun_access env request rfl hrun (by simp)).1 _ hhash hpresents, not_not]
    exact ⟨[], _, [], agentToken, rfl, rfl, by decide, by simp⟩
  · rw [(installationRun_access env request rfl hlater (by simp)).1 _ hhash hpresents]
    rintro ⟨before, issue, after, token, hsplit, hlabel, -, hkept⟩
    -- the token is issued by the first step, and the second one revokes it
    rcases before with _ | ⟨first, _ | ⟨second, rest⟩⟩
    · obtain ⟨rfl, rfl⟩ := List.cons.inj hsplit
      exact hkept _ (List.mem_singleton_self _) 5 rfl
    · obtain ⟨-, hsplit⟩ := List.cons.inj hsplit
      obtain ⟨rfl, -⟩ := List.cons.inj hsplit
      cases hlabel
    · have hlength := congrArg List.length hsplit
      simp only [List.cons_append, List.length_cons, List.length_append, List.length_nil] at hlength
      omega

end MailGate
