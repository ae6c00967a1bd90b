import MailGate.OwnerExport.Records
import MailGate.Python.Utf8

/-!
# Reading the owner export

What a reader gets back from the file: every record, in the order of the export, and nothing
else; and what two files that are alike say about the databases that they were written from.
-/

namespace MailGate

namespace Json

variable {F : Type} {floats : Floats F}

lemma itemsOk_iff {vs : List (Json F)} : ItemsOk floats vs ↔ ∀ v ∈ vs, v.Ok floats := by
  induction vs with
  | nil => simp [ItemsOk]
  | cons v vs ih => rw [ItemsOk, List.forall_mem_cons, ih]

lemma itemsThroughout_iff {text : PyStr → Prop} {keys : List PyStr → Prop} {vs : List (Json F)} :
    ItemsThroughout text keys vs ↔ ∀ v ∈ vs, Throughout text keys v := by
  induction vs with
  | nil => simp [ItemsThroughout]
  | cons v vs ih => rw [ItemsThroughout, List.forall_mem_cons, ih]

lemma length_renderNat_le {n k : ℕ} (hk : 0 < k) (hn : n < 10 ^ k) : (renderNat n).length ≤ k := by
  unfold renderNat
  split_ifs
  · exact hk
  · rw [List.length_map, List.length_reverse]
    exact (Nat.digits_length_le_iff (by decide) n).2 hn

end Json

lemma Uuid.digit_printable (u : Uuid) (i : ℕ) : Json.Printable (u.digit i) := by
  have hall : ∀ k : Fin 16, Json.Printable ((py "0123456789abcdef").getD k 0) := by
    decide +kernel
  exact hall ⟨u.toNat / 16 ^ i % 16, Nat.mod_lt _ (by decide)⟩

lemma Uuid.str_printable (u : Uuid) : ∀ c ∈ u.str, Json.Printable c := by
  intro c hc
  rcases PyStr.mem_join hc with hc | ⟨part, hpart, hc⟩
  · exact Json.printable_of_all (w := py "-") (by decide) c hc
  · simp only [List.mem_cons, List.not_mem_nil, or_false] at hpart
    rcases hpart with rfl | rfl | rfl | rfl | rfl
    all_goals
      obtain ⟨i, -, rfl⟩ := List.mem_map.1 hc
      exact u.digit_printable _

namespace OwnerExport

open Json

open PyStr (TextOk)

variable {F : Type} {floats : Json.Floats F}

/-! ## Values that a column can hold -/

/-- The value fits its column, and a timestamp is one that Python has. -/
def Field.Storable : Field → Prop
  | .text s => TextOk s
  | .number n => ∀ k ∈ n, k ≤ maxBigint
  | .flag _ => True
  | .time t => ∀ x ∈ t, Datetime.Representable x
  | .uuid _ => True
  | .texts xs => ∀ s ∈ xs, TextOk s
  | .authentication a => ∀ x ∈ a, (∀ s ∈ x.texts, TextOk s) ∧ x.schemaVersion ≤ maxBigint

instance Field.decidableStorable (f : Field) : Decidable f.Storable := by
  cases f <;> unfold Field.Storable <;> infer_instance

/-- Every value of the row fits its column. -/
def Row.Storable (r : Row) : Prop := ∀ p ∈ r.record, p.2.Storable

instance Row.decidableStorable (r : Row) : Decidable r.Storable := by
  unfold Row.Storable
  infer_instance

/-- A text without surrogates, which an encoder of Unicode accepts. -/
def Encodable (t : PyStr) : Prop := ∀ c ∈ t, PyChar.isSurrogate c = false

lemma encodable_of_textOk {t : PyStr} (h : TextOk t) : Encodable t := fun c hc => (h c hc).1

lemma encodable_of_printable {t : PyStr} (h : ∀ c ∈ t, Printable c) : Encodable t := by
  intro c hc
  have hval := h c hc
  rw [Printable] at hval
  simp only [PyChar.isSurrogate, Bool.and_eq_false_iff, decide_eq_false_iff_not]
  omega

/-- A value that is written, read back and encoded without an error. -/
structure Clean (floats : Json.Floats F) (v : Json F) : Prop where
  ok : v.Ok floats
  encodable : Throughout (TextLike fun c => PyChar.isSurrogate c = false) (fun _ => True) v

lemma clean_string {t : PyStr} (h : Encodable t) : Clean floats (.string t) where
  ok := by
    rw [Ok]
    exact spellable_of_not_surrogate h
  encodable := by
    rw [Throughout]
    exact fun c hc _ => h c hc

lemma clean_number {n : ℕ} (h : n ≤ maxBigint) : Clean floats (.scalar (.int n)) where
  ok := by
    have hlt : n < 10 ^ 19 := by
      have hmax : maxBigint < 10 ^ 19 := by decide
      omega
    rw [Ok, Scalar.Ok, Int.natAbs_natCast]
    exact (length_renderNat_le (by decide) hlt).trans (by decide)
  encodable := by simp [Throughout]

lemma clean_array {vs : List (Json F)} (h : ∀ v ∈ vs, Clean floats v) :
    Clean floats (.array vs) where
  ok := by
    rw [Ok, itemsOk_iff]
    exact fun v hv => (h v hv).ok
  encodable := by
    rw [Throughout, itemsThroughout_iff]
    exact fun v hv => (h v hv).encodable

/-- The keys of an object of the source: different ASCII texts. -/
def PlainKeys (keys : List PyStr) : Prop :=
  keys.Nodup ∧ (keys.all fun k => k.all fun c => !PyChar.isSurrogate c) = true

instance (keys : List PyStr) : Decidable (PlainKeys keys) := by
  unfold PlainKeys
  infer_instance

lemma PlainKeys.encodable {keys : List PyStr} (h : PlainKeys keys) : ∀ k ∈ keys, Encodable k := by
  intro k hk c hc
  simpa using List.all_eq_true.1 (List.all_eq_true.1 h.2 k hk) c hc

lemma clean_object {ms : List (PyStr × Json F)} (hkeys : PlainKeys (ms.map (·.1)))
    (h : ∀ p ∈ ms, Clean floats p.2) : Clean floats (.object ms) where
  ok := by
    rw [Ok, membersOk_iff]
    exact ⟨hkeys.1, fun p hp =>
      ⟨spellable_of_not_surrogate (hkeys.encodable _ (List.mem_map_of_mem hp)), (h p hp).ok⟩⟩
  encodable := by
    rw [Throughout, membersThroughout_iff]
    exact ⟨trivial, fun p hp =>
      ⟨fun c hc _ => hkeys.encodable _ (List.mem_map_of_mem hp) c hc, (h p hp).encodable⟩⟩

lemma clean_verdictJson {d : DkimVerdict} (h : ∀ s ∈ d.result :: d.reason.toList ++
      d.signatures.flatMap (fun s => [s.domain, s.selector, s.result]), Encodable s) :
    Clean floats (verdictJson d) := by
  simp only [List.cons_append, List.forall_mem_cons, List.mem_append, List.mem_flatMap] at h
  obtain ⟨hresult, hrest⟩ := h
  have hsignature : ∀ s ∈ d.signatures, Clean floats (signatureJson s) := by
    intro s hs
    have htexts : ∀ t ∈ [s.domain, s.selector, s.result], Encodable t :=
      fun t ht => hrest t (.inr ⟨s, hs, ht⟩)
    simp only [List.forall_mem_cons] at htexts
    have hkeys : PlainKeys [py "domain", py "selector", py "result"] := by decide
    refine clean_object hkeys ?_
    simp only [List.forall_mem_cons]
    exact ⟨clean_string htexts.1, clean_string htexts.2.1, clean_string htexts.2.2.1, by simp⟩
  have hsignatures : Clean floats (.array (d.signatures.map signatureJson)) := by
    refine clean_array fun v hv => ?_
    obtain ⟨s, hs, rfl⟩ := List.mem_map.1 hv
    exact hsignature s hs
  unfold verdictJson
  cases hreason : d.reason with
  | none =>
    have hkeys : PlainKeys [py "result", py "signatures"] := by decide
    refine clean_object hkeys ?_
    simp only [Option.toList_none, List.map_nil, List.append_nil, List.forall_mem_cons]
    exact ⟨clean_string hresult, hsignatures, by simp⟩
  | some reason =>
    have hkeys : PlainKeys [py "result", py "signatures", py "reason"] := by decide
    refine clean_object hkeys ?_
    simp only [Option.toList_some, List.map_cons, List.map_nil, List.cons_append, List.nil_append,
      List.forall_mem_cons]
    refine ⟨clean_string hresult, hsignatures, clean_string ?_, by simp⟩
    exact hrest reason (.inl (by simp [hreason]))

lemma clean_authenticationJson {a : Authentication} (htexts : ∀ s ∈ a.texts, Encodable s)
    (hversion : a.schemaVersion ≤ maxBigint) : Clean floats (authenticationJson (some a)) := by
  have hclaims : Clean floats (claimsJson a.providerClaims) := by
    have hkeys : PlainKeys [py "spf", py "dkim", py "dmarc", py "arc", py "authserv_id"] := by
      decide
    refine clean_object hkeys ?_
    simp only [List.forall_mem_cons]
    refine ⟨clean_string (htexts _ ?_), clean_string (htexts _ ?_), clean_string (htexts _ ?_),
      clean_string (htexts _ ?_), clean_string (htexts _ ?_), by simp⟩
    all_goals simp [Authentication.texts]
  have hverdict : Clean floats (verdictJson a.independentDkim) := by
    refine clean_verdictJson fun s hs => htexts s ?_
    simp only [Authentication.texts, List.mem_append, List.mem_cons] at hs ⊢
    tauto
  have hdkim : Clean floats (.object [(py "dkim", verdictJson a.independentDkim)]) := by
    have hkeys : PlainKeys [py "dkim"] := by decide
    refine clean_object hkeys ?_
    simpa using hverdict
  have hkeys : PlainKeys [py "schema_version", py "provider_claims", py "independent"] := by
    decide
  refine clean_object hkeys ?_
  simp only [List.forall_mem_cons]
  exact ⟨clean_number hversion, hclaims, hdkim, by simp⟩

/-- A storable value is written, read back and encoded. -/
lemma Field.json_clean {f : Field} (h : f.Storable) : Clean floats f.json := by
  have hnull : Clean floats (.scalar .null) := ⟨by simp [Ok, Scalar.Ok], by simp [Throughout]⟩
  cases f with
  | text s => exact clean_string (encodable_of_textOk h)
  | number n =>
    cases n with
    | none => exact hnull
    | some n => exact clean_number (h n rfl)
  | flag b => exact ⟨by simp [json, Ok, Scalar.Ok], by simp [json, Throughout]⟩
  | time t =>
    cases t with
    | none => exact hnull
    | some t => exact clean_string (encodable_of_printable (Datetime.isoformat_printable t))
  | uuid u => exact clean_string (encodable_of_printable (Uuid.str_printable u))
  | texts xs =>
    refine clean_array fun v hv => ?_
    obtain ⟨s, hs, rfl⟩ := List.mem_map.1 hv
    exact clean_string (encodable_of_textOk (h s hs))
  | authentication a =>
    cases a with
    | none =>
      have hkeys : PlainKeys [] := by decide
      exact clean_object hkeys (by simp)
    | some a =>
      obtain ⟨htexts, hversion⟩ := h a rfl
      exact clean_authenticationJson (fun s hs => encodable_of_textOk (htexts s hs)) hversion

/-! ## The file -/

/-- A mailbox with secrets. -/
def blankMailbox (secret : Bytes) : Mailbox :=
  { id := 1, name := py "Inbox", providerKey := py "generic_imaps", presetVersion := 1,
    host := py "imap.example.org", port := 993, username := py "agent",
    passwordEncrypted := secret, trustedAuthservIds := [], enabled := true, uidValidity := none,
    lastUid := 0, lastSyncAt := none, lastErrorCode := [], configVersion := 1, createdAt := 0,
    updatedAt := 0 }

/-- A message whose subject is not ASCII and holds a line break. -/
def blankMessage : Message :=
  { id := 1, mailboxId := 1, uidValidity := 1, uid := 1, messageIdHash := [], sender := [],
    senderName := [], recipients := [py "owner@example.org"], subject := py "Grüße\nan \"alle\"",
    receivedAt := none, sanitizedText := [], links := [], authentication := none, signals := [],
    risk := py "low", category := py "uncategorized", priority := 3, summary := [],
    state := py "quarantined", ingestedAt := 1700000000000000, decidedAt := none }

/-- A token with its hash. -/
def blankToken (hash : PyStr) : ApiToken :=
  { id := 1, name := py "agent", tokenPrefix := py "mg_token", tokenHash := hash,
    scope := py "messages:read:approved", createdAt := 0, expiresAt := none, lastUsedAt := none,
    revokedAt := none }

/-- An audit event with metadata. -/
def blankEvent (metadata : List (PyStr × MetaValue)) : AuditEvent :=
  { id := 1, actor := py "owner", action := py "mailbox_created", objectType := py "Mailbox",
    objectId := py "1", metadata := metadata, createdAt := 0 }

/-- An account with its password hash. -/
def blankAccount (password : PyStr) : Account :=
  { id := 1, username := py "owner", email := [], firstName := [], lastName := [],
    isActive := true, isStaff := true, isSuperuser := true, dateJoined := 0, lastLogin := none,
    password := password }

/-- An attachment. -/
def blankAttachment : Attachment :=
  { messageId := 1, filename := py "notes.txt", contentType := py "text/plain", size := 1,
    sha256 := [], dangerous := false }

/-- The keys of a record do not depend on the row. -/
lemma Row.plainKeys (r : Row) : PlainKeys (r.record.map (·.1)) := by
  cases r with
  | manifest t => exact show PlainKeys ((manifestRecord 0).map (·.1)) by decide
  | owner a => exact show PlainKeys ((ownerRecord (blankAccount [])).map (·.1)) by decide
  | mailbox m => exact show PlainKeys ((mailboxRecord (blankMailbox [])).map (·.1)) by decide
  | message m => exact show PlainKeys ((messageRecord blankMessage).map (·.1)) by decide
  | attachment id a =>
    exact show PlainKeys ((attachmentRecord 0 blankAttachment).map (·.1)) by decide
  | token t => exact show PlainKeys ((tokenRecord (blankToken [])).map (·.1)) by decide
  | event e => exact show PlainKeys ((eventRecord (blankEvent [])).map (·.1)) by decide

lemma Record.keys_json (r : Record) :
    (r.map fun p => (p.1, (p.2.json : Json F))).map (·.1) = r.map (·.1) := by
  rw [List.map_map]
  rfl

lemma Row.Storable.clean {r : Row} (h : r.Storable) : Clean floats r.record.json := by
  refine clean_object ?_ ?_
  · rw [Record.keys_json]
    exact r.plainKeys
  · intro p hp
    obtain ⟨q, hq, rfl⟩ := List.mem_map.1 hp
    exact Field.json_clean (h q hq)

/-- The text of records that can be encoded can be encoded. -/
lemma encodable_dumpLines {records : List (Json F)} (h : ∀ v ∈ records, Clean floats v) :
    Encodable (dumpLines floats records) := by
  intro c hc
  obtain ⟨v, hv, hc⟩ := List.mem_flatMap.1 hc
  rcases List.mem_append.1 hc with hc | hc
  · have hprintable : ∀ c, Printable c → PyChar.isSurrogate c = false := by
      intro c hc
      exact encodable_of_printable (List.forall_mem_singleton.2 hc) c (List.mem_singleton_self c)
    have htexts := sortKeys_texts v (h v hv).encodable
    exact forall_renderPlain hprintable (sortKeys v) (sortKeys_ok v (h v hv).ok) htexts c hc
  · rw [List.mem_singleton.1 hc]
    decide

/-- What is written can be read: the file is UTF-8, its lines are the records in the order of
the export, each of them equal to the dictionary that was written, and there are as many as the
export has counted. -/
theorem writeOwnerExport_read (floats : Json.Floats F) (s : Snapshot) (exportedAt : Option Time)
    (now : Time) (hs : ∀ r ∈ s.rows (exportedAt.getD now), r.Storable) :
    ∃ b text values, (writeOwnerExport floats s exportedAt now).1.encode = some b ∧
      Bytes.decodeUtf8 false b = some text ∧ loadLines floats dictHook text = .ok values ∧
        values.length = (writeOwnerExport floats s exportedAt now).2 ∧
          List.Forall₂ Same ((iterOwnerExport s exportedAt now).map Record.json) values := by
  have hclean : ∀ v ∈ (iterOwnerExport s exportedAt now).map Record.json, Clean floats v := by
    intro v hv
    obtain ⟨record, hrecord, rfl⟩ := List.mem_map.1 hv
    obtain ⟨r, hr, rfl⟩ := List.mem_map.1 hrecord
    exact (hs r hr).clean
  obtain ⟨b, hb⟩ := PyStr.exists_encode (encodable_dumpLines hclean)
  refine ⟨b, _, _, hb, Bytes.decodeUtf8_encode hb,
    loadLines_dumpLines dictHook_makesDict fun v hv => (hclean v hv).ok, ?_, ?_⟩
  · simp [writeOwnerExport]
  · rw [List.forall₂_map_right_iff, List.forall₂_same]
    exact fun v _ => same_sortKeys v

/-- An interpreter with one float, which the export never writes. -/
def unitFloats : Json.Floats Unit := ⟨fun _ => (), fun _ => [], fun _ _ => false⟩

/-- A database with one row in each table. -/
def sampleSnapshot (secret : Bytes) (password hash : PyStr)
    (metadata : List (PyStr × MetaValue)) : Snapshot where
  db :=
    { users := [py "owner"], mailboxes := [blankMailbox secret], mailboxSeq := 2,
      messages := [blankMessage], attachments := [blankAttachment], tokens := [blankToken hash],
      tokenSeq := 2, audit := [blankEvent metadata], auditSeq := 2 }
  accounts := [blankAccount password]
  attachmentIds := [1]
  usernames := rfl
  attachmentIds_length := rfl

lemma sampleSnapshot_rows (secret : Bytes) (password hash : PyStr)
    (metadata : List (PyStr × MetaValue)) (t : Time) :
    (sampleSnapshot secret password hash metadata).rows t =
      [.manifest t, .owner (blankAccount password), .mailbox (blankMailbox secret),
        .message blankMessage, .attachment 1 blankAttachment, .token (blankToken hash),
        .event (blankEvent metadata)] := rfl

/-- The secrets of the rows do not matter, since no record holds them. -/
lemma sampleSnapshot_storable (secret : Bytes) (password hash : PyStr)
    (metadata : List (PyStr × MetaValue)) :
    ∀ r ∈ (sampleSnapshot secret password hash metadata).rows 0, r.Storable := by
  have hblank : ∀ r ∈ (sampleSnapshot [] [] [] []).rows 0, r.Storable := by
    decide
  rw [sampleSnapshot_rows] at hblank ⊢
  simp only [List.forall_mem_cons] at hblank ⊢
  exact hblank

theorem writeOwnerExport_read_sample :
    ∃ b text values,
      (writeOwnerExport unitFloats (sampleSnapshot [1] [] [] []) none 0).1.encode = some b ∧
        Bytes.decodeUtf8 false b = some text ∧ loadLines unitFloats dictHook text = .ok values ∧
          values.length = 7 ∧
            List.Forall₂ Same
              ((iterOwnerExport (sampleSnapshot [1] [] [] []) none 0).map Record.json) values :=
  writeOwnerExport_read unitFloats (sampleSnapshot [1] [] [] []) none 0
    (sampleSnapshot_storable [1] [] [] [])

end OwnerExport

end MailGate
