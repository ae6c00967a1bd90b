import MailGate.Api.RateLimit
import MailGate.Api.Views

/-!
# The agent learns nothing about messages that are not approved

Two databases that agree on the approved rows and on the tables of tokens and audit events
answer every sequence of requests alike: authorisation, rate limit, order, limit and counts
depend on nothing else.
-/

namespace MailGate

/-! ## Tables as multisets -/

/-- A search finds the same row in whichever order the rows stand, if it can find one only. -/
lemma find?_eq_of_perm {α : Type} {p : α → Bool} {l l' : List α} (h : l.Perm l')
    (hunique : ∀ a ∈ l, ∀ b ∈ l, p a = true → p b = true → a = b) : l.find? p = l'.find? p := by
  cases hfind : l.find? p with
  | none =>
    symm
    rw [List.find?_eq_none] at hfind ⊢
    intro a ha
    exact hfind a (h.mem_iff.2 ha)
  | some a =>
    have ha := List.mem_of_find?_eq_some hfind
    have hp : p a = true := by simpa using List.find?_some hfind
    cases hfind' : l'.find? p with
    | none =>
      rw [List.find?_eq_none] at hfind'
      exact absurd hp (hfind' a (h.mem_iff.1 ha))
    | some b =>
      have hb := h.mem_iff.2 (List.mem_of_find?_eq_some hfind')
      have hp' : p b = true := by simpa using List.find?_some hfind'
      rw [hunique a ha b hb hp hp']

/-- The columns by which reads are counted. -/
def AuditEvent.rateColumns (e : AuditEvent) : PyStr × PyStr × Time :=
  (e.actor, e.action, e.createdAt)

/-- The two databases have the same approved rows, the same tokens and the same audit events;
everything else may differ. -/
structure SameForAgent (s t : Db) : Prop where
  approved : s.approvedMessages.Perm t.approvedMessages
  tokens : s.tokens.Perm t.tokens
  audit : (s.audit.map AuditEvent.rateColumns).Perm (t.audit.map AuditEvent.rateColumns)

/-- Databases that agree on the approved rows and on the two tables. -/
lemma sameForAgent_of_tables {s t : Db}
    (hrows : (s.messages.filter (·.state = State.approved.value)).Perm
      (t.messages.filter (·.state = State.approved.value)))
    (htokens : s.tokens = t.tokens) (haudit : s.audit = t.audit) : SameForAgent s t := by
  refine ⟨hrows.map _, ?_, ?_⟩
  · rw [htokens]
  · rw [haudit]

/-- The unique constraint on the hashes of tokens. -/
def Db.HashesUnique (db : Db) : Prop := (db.tokens.map (·.tokenHash)).Nodup

/-! ## Authorisation -/

section Authorize

variable {s t : Db}

lemma SameForAgent.recentReads (h : SameForAgent s t) (actor : PyStr) (now : Time) :
    recentReads s actor now = recentReads t actor now := by
  have hcount : ∀ db : Db, MailGate.recentReads db actor now =
      (db.audit.map AuditEvent.rateColumns).countP fun c =>
        c.1 == actor && c.2.1 == py "api.read" && now - Time.minute ≤ c.2.2 := by
    intro db
    rw [List.countP_map]
    rfl
  rw [hcount, hcount]
  exact h.audit.countP_eq _

lemma recordRead_hashesUnique (hunique : s.HashesUnique) (tokenHash actor path : PyStr)
    (now : Time) : (recordRead s tokenHash actor path now).HashesUnique := by
  have hsame : (recordRead s tokenHash actor path now).tokens.map (·.tokenHash) =
      s.tokens.map (·.tokenHash) := by
    rw [recordRead, List.map_map]
    refine List.map_congr_left ?_
    intro token _
    simp only [Function.comp_apply]
    split <;> rfl
  rw [Db.HashesUnique, hsame]
  exact hunique

lemma SameForAgent.recordRead (h : SameForAgent s t) (tokenHash actor path : PyStr) (now : Time) :
    SameForAgent (recordRead s tokenHash actor path now)
      (recordRead t tokenHash actor path now) := by
  refine ⟨h.approved, h.tokens.map _, ?_⟩
  simp only [MailGate.recordRead, List.map_append, List.map_cons, List.map_nil]
  exact h.audit.append_right _

/-- The two databases authorise a call alike, and stay alike. -/
lemma SameForAgent.authorize (h : SameForAgent s t) (hunique : s.HashesUnique)
    (tokenHash path : PyStr) (now : Time) :
    (mailgateApiAuthorize tokenHash path now s).1 = (mailgateApiAuthorize tokenHash path now t).1 ∧
      SameForAgent (mailgateApiAuthorize tokenHash path now s).2
        (mailgateApiAuthorize tokenHash path now t).2 ∧
      (mailgateApiAuthorize tokenHash path now s).2.HashesUnique := by
  have hfind : s.tokens.find? (·.usable tokenHash now) =
      t.tokens.find? (·.usable tokenHash now) := by
    refine find?_eq_of_perm h.tokens ?_
    intro a ha b hb hpa hpb
    simp only [ApiToken.usable, Bool.and_eq_true, beq_iff_eq] at hpa hpb
    exact List.inj_on_of_nodup_map hunique ha hb (hpa.1.1.1.trans hpb.1.1.1.symm)
  unfold mailgateApiAuthorize
  rw [← hfind]
  split
  · exact ⟨rfl, h, hunique⟩
  · split
    · exact ⟨rfl, h, hunique⟩
    · rename_i token _
      rw [← h.recentReads token.actor now]
      split
      · exact ⟨rfl, h, hunique⟩
      · exact ⟨rfl, h.recordRead _ _ _ _, recordRead_hashesUnique hunique _ _ _ _⟩

end Authorize

/-! ## Views -/

section Views

variable {s t : Db} (env : ApiEnv)

lemma SameForAgent.apiMessages (h : SameForAgent s t) (state limit : Option PyStr) :
    apiMessages env state limit s = apiMessages env state limit t := by
  unfold MailGate.apiMessages
  rw [(newestFirst env).sort_eq_of_perm h.approved]

lemma SameForAgent.apiMessageSummary (h : SameForAgent s t) (messageId : Uuid) :
    apiMessageSummary env messageId s = apiMessageSummary env messageId t := by
  have hrows := h.approved.filter fun item => decide (item.id = messageId)
  unfold MailGate.apiMessageSummary
  split
  · rename_i hnone
    rw [hnone] at hrows
    rw [hrows.nil_eq.symm]
  · rename_i item hone
    rw [hone] at hrows
    rw [(List.singleton_perm.1 hrows).symm]
  · rename_i hnone hone
    -- two rows or more on both sides
    split
    · rename_i hnone'
      rw [hnone'] at hrows
      exact absurd hrows.eq_nil hnone
    · rename_i item hone'
      rw [hone'] at hrows
      exact absurd (List.perm_singleton.1 hrows) (hone item)
    · rfl

lemma SameForAgent.apiCategories (h : SameForAgent s t) :
    apiCategories env s = apiCategories env t := by
  have hnames := env.collation.sort_eq_of_perm (h.approved.map (·.category)).dedup
  unfold MailGate.apiCategories
  rw [hnames]
  simp only [h.approved.countP_eq]

lemma SameForAgent.view (h : SameForAgent s t) (endpoint : Endpoint) :
    endpoint.view env s = endpoint.view env t := by
  cases endpoint with
  | messages state limit => exact h.apiMessages env state limit
  | messageSummary messageId => exact h.apiMessageSummary env messageId
  | categories => exact h.apiCategories env

/-- The two databases answer a request alike, and stay alike. -/
lemma SameForAgent.serve (h : SameForAgent s t) (hunique : s.HashesUnique) (request : ApiRequest) :
    (serve env request s).1 = (serve env request t).1 ∧
      SameForAgent (serve env request s).2 (serve env request t).2 ∧
      (serve env request s).2.HashesUnique := by
  unfold MailGate.serve
  simp only
  split
  · exact ⟨rfl, h, hunique⟩
  · split
    · exact ⟨rfl, h, hunique⟩
    · split
      · exact ⟨rfl, h, hunique⟩
      · rename_i raw _
        obtain ⟨hstatus, hsame, hunique'⟩ :=
          h.authorize hunique (env.sha256 raw) request.endpoint.path request.now
        generalize mailgateApiAuthorize (env.sha256 raw) request.endpoint.path request.now s =
          a at *
        generalize mailgateApiAuthorize (env.sha256 raw) request.endpoint.path request.now t =
          b at *
        obtain ⟨status, s'⟩ := a
        obtain ⟨status', t'⟩ := b
        obtain rfl : status = status' := hstatus
        cases status with
        | authorized => exact ⟨by simp only [hsame.view env request.endpoint], hsame, hunique'⟩
        | unauthorized => exact ⟨rfl, hsame, hunique'⟩
        | rateLimited => exact ⟨rfl, hsame, hunique'⟩

/-- Two databases that agree on what the agent may see answer every sequence of requests, at
the same readings of the clock, with the same responses. -/
theorem serveAll_sameForAgent (requests : List ApiRequest) (hunique : s.HashesUnique)
    (h : SameForAgent s t) : (serveAll env requests s).1 = (serveAll env requests t).1 := by
  induction requests generalizing s t with
  | nil => rfl
  | cons request requests ih =>
    obtain ⟨hresponse, hsame, hunique'⟩ := h.serve env hunique request
    have hrest := ih hunique' hsame
    simp only [serveAll, hresponse, hrest]

end Views

/-! ## A quarantined message that the agent does not notice -/

/-- A message that waits for the decision of the owner. -/
def waitingMessage : Message where
  id := 1
  mailboxId := 1
  uidValidity := 7
  uid := 1
  messageIdHash := []
  sender := py "someone@example.org"
  senderName := []
  recipients := []
  subject := py "secret"
  receivedAt := none
  sanitizedText := py "secret"
  links := []
  authentication := none
  signals := []
  risk := Risk.medium.value
  category := py "unsafe"
  priority := 1
  summary := []
  state := State.quarantined.value
  ingestedAt := 0
  decidedAt := none

/-- With and without the quarantined message, a token reads the list, the message itself and
the categories. -/
theorem serveAll_sameForAgent_quarantined :
    ∃ (env : ApiEnv) (requests : List ApiRequest) (s t : Db), requests.length = 3 ∧
      s.messages = [] ∧ t.messages = [waitingMessage] ∧
      (serveAll env requests s).1.map (·.status) = [200, 404, 200] ∧
      (serveAll env requests s).1 = (serveAll env requests t).1 := by
  obtain ⟨collation⟩ := TotalOrder.nonempty PyStr
  obtain ⟨tieBreak⟩ := TotalOrder.nonempty ApprovedMessage
  let env : ApiEnv :=
    { sha256 := fun _ => sampleHash, isoformat := fun _ => [],
      decimal := fun c => if PyChar.isDigit c then some (c.val - 0x30) else none,
      collation, tieBreak }
  let read (endpoint : Endpoint) : ApiRequest :=
    { method := py "GET", authorization := py "Bearer mg_sample", endpoint, now := 0 }
  let requests :=
    [read (.messages none none), read (.messageSummary 1), read .categories]
  let s := sampleCalls.db
  let t := { s with messages := [waitingMessage] }
  have hsame : SameForAgent s t := sameForAgent_of_tables (by decide +kernel) rfl rfl
  refine ⟨env, requests, s, t, rfl, rfl, rfl, ?_, ?_⟩
  · rfl
  · exact serveAll_sameForAgent env requests (by unfold Db.HashesUnique; decide +kernel) hsame

end MailGate
