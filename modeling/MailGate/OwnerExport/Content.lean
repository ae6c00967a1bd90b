import MailGate.Ingestion.Idempotence
import MailGate.OwnerExport.RoundTrip

/-!
# What an export tells

Two exports are alike exactly when the databases agree on every column that is exported.  So
the file leaves nothing out, and the columns that are not exported (password hashes, encrypted
mailbox passwords, token hashes and the metadata of audit events) have no influence on it.
-/

namespace MailGate

namespace OwnerExport

open Json

open PyStr (TextOk)

variable {F : Type} {floats : Json.Floats F}

/-! ## Values that are written alike -/

/-- The two values are of the same type. -/
def Field.SameType : Field → Field → Prop
  | .text _, .text _ => True
  | .number _, .number _ => True
  | .flag _, .flag _ => True
  | .time _, .time _ => True
  | .uuid _, .uuid _ => True
  | .texts _, .texts _ => True
  | .authentication _, .authentication _ => True
  | _, _ => False

lemma sortItems_eq_map (vs : List (Json F)) : sortItems vs = vs.map sortKeys := by
  induction vs with
  | nil => rw [sortItems, List.map_nil]
  | cons v vs ih => rw [sortItems, ih, List.map_cons]

lemma sortKeys_string_inj {s t : PyStr}
    (h : sortKeys (.string s : Json F) = sortKeys (.string t)) : s = t := by
  rw [sortKeys, sortKeys, string.injEq] at h
  exact h

/-- Arrays are written alike only if their items are. -/
lemma sortKeys_array_inj {α : Type} {f : α → Json F}
    (hf : ∀ a b, sortKeys (f a) = sortKeys (f b) → a = b) {xs ys : List α}
    (h : sortKeys (.array (xs.map f)) = sortKeys (.array (ys.map f))) : xs = ys := by
  rw [sortKeys, sortKeys, array.injEq, sortItems_eq_map, sortItems_eq_map, List.map_map,
    List.map_map] at h
  exact List.map_injective_iff.2 (fun a b => hf a b) h

/-- Objects with the same keys are written alike only if their values are. -/
lemma sortKeys_zip_inj {keys : List PyStr} (hkeys : keys.Nodup) {vs ws : List (Json F)}
    (hv : vs.length = keys.length) (hw : ws.length = keys.length)
    (h : sortKeys (.object (keys.zip vs)) = sortKeys (.object (keys.zip ws))) :
    vs.map sortKeys = ws.map sortKeys := by
  have hfst : ∀ us : List (Json F), us.length = keys.length → (keys.zip us).map (·.1) = keys :=
    fun us hus => List.map_fst_zip hus.ge
  have hsnd : ∀ us : List (Json F), us.length = keys.length →
      (keys.zip us).map (fun p => sortKeys p.2) = us.map sortKeys := by
    intro us hus
    have hzip : (keys.zip us).map (·.2) = us := List.map_snd_zip hus.le
    conv_rhs => rw [← hzip, List.map_map]
    rfl
  have hvalues := sortKeys_object_inj ((hfst vs hv).trans (hfst ws hw).symm)
    ((hfst vs hv).symm ▸ hkeys) h
  rwa [hsnd vs hv, hsnd ws hw] at hvalues

/-- Objects of texts with the same keys are written alike only if their texts are equal. -/
lemma sortKeys_texts_inj {keys : List PyStr} (hkeys : keys.Nodup) {xs ys : List PyStr}
    (hx : xs.length = keys.length) (hy : ys.length = keys.length)
    (h : sortKeys (.object (keys.zip (xs.map (Json.string (F := F))))) =
      sortKeys (.object (keys.zip (ys.map .string)))) : xs = ys := by
  have hvalues := sortKeys_zip_inj hkeys (by simpa using hx) (by simpa using hy) h
  rw [List.map_map, List.map_map] at hvalues
  exact List.map_injective_iff.2 (fun s t => sortKeys_string_inj) hvalues

lemma signatureJson_inj {s t : DkimSignature}
    (h : sortKeys (signatureJson s : Json F) = sortKeys (signatureJson t)) : s = t := by
  have hkeys : [py "domain", py "selector", py "result"].Nodup := by decide
  have htexts : [s.domain, s.selector, s.result] = [t.domain, t.selector, t.result] :=
    sortKeys_texts_inj hkeys rfl rfl h
  cases s
  cases t
  simpa using htexts

lemma claimsJson_inj {c d : ProviderClaims}
    (h : sortKeys (claimsJson c : Json F) = sortKeys (claimsJson d)) : c = d := by
  have hkeys : [py "spf", py "dkim", py "dmarc", py "arc", py "authserv_id"].Nodup := by decide
  have htexts : [c.spf, c.dkim, c.dmarc, c.arc, c.authservId] =
      [d.spf, d.dkim, d.dmarc, d.arc, d.authservId] :=
    sortKeys_texts_inj hkeys rfl rfl h
  cases c
  cases d
  simpa using htexts

/-- A reason is not lost: with it the object has one member more. -/
lemma verdictJson_inj {d e : DkimVerdict}
    (h : sortKeys (verdictJson d : Json F) = sortKeys (verdictJson e)) : d = e := by
  have hshape : ∀ d : DkimVerdict, (verdictJson d : Json F) = .object
      (([py "result", py "signatures"] ++ d.reason.toList.map fun _ => py "reason").zip
        ([.string d.result, .array (d.signatures.map signatureJson)] ++
          d.reason.toList.map .string)) := by
    intro d
    cases hreason : d.reason <;> simp [verdictJson, hreason]
  have hlength : d.reason.toList.length = e.reason.toList.length := by
    have hmembers := h
    rw [verdictJson, verdictJson, sortKeys, sortKeys, object.injEq] at hmembers
    have hcount := congrArg List.length hmembers
    simpa only [sortMembers_eq_map, List.length_insertionSort, List.length_map, List.length_append,
      List.length_cons, List.length_nil, Nat.add_left_cancel_iff] using hcount
  have hreasons : (d.reason.toList.map fun _ => py "reason") =
      e.reason.toList.map fun _ => py "reason" := by
    rw [List.map_const', List.map_const', hlength]
  have hnodup : ([py "result", py "signatures"] ++
      e.reason.toList.map fun _ => py "reason").Nodup := by
    cases e.reason with
    | none => exact show [py "result", py "signatures"].Nodup by decide
    | some _ => exact show [py "result", py "signatures", py "reason"].Nodup by decide
  rw [hshape d, hshape e, hreasons] at h
  have hvalues := sortKeys_zip_inj hnodup (by simp [hlength]) (by simp) h
  simp only [List.map_cons, List.cons_append, List.nil_append, List.cons.injEq] at hvalues
  obtain ⟨hresult, hsignatures, hreason⟩ := hvalues
  rw [List.map_map, List.map_map] at hreason
  have hreason' : d.reason.toList = e.reason.toList :=
    List.map_injective_iff.2 (fun s t => sortKeys_string_inj) hreason
  have hresult' := sortKeys_string_inj hresult
  have hsignatures' := sortKeys_array_inj (fun _ _ => signatureJson_inj) hsignatures
  have hoption : d.reason = e.reason := by
    have hhead := congrArg List.head? hreason'
    simpa using hhead
  cases d
  cases e
  simp_all

lemma authenticationJson_inj {a b : Option Authentication}
    (h : sortKeys (authenticationJson a : Json F) = sortKeys (authenticationJson b)) : a = b := by
  have hlength : ∀ c : Option Authentication, ∀ ms, (sortKeys (authenticationJson c) : Json F) =
      .object ms → ms.length = if c.isSome then 3 else 0 := by
    intro c ms hms
    cases c with
    | none =>
      rw [authenticationJson, sortKeys, object.injEq] at hms
      rw [← hms]
      rfl
    | some c =>
      rw [authenticationJson, sortKeys, object.injEq] at hms
      rw [← hms, List.length_insertionSort, sortMembers_eq_map, List.length_map]
      rfl
  cases a with
  | none =>
    cases b with
    | none => rfl
    | some b =>
      have hnone := hlength none _ (by rw [authenticationJson, sortKeys])
      have hsome := hlength (some b) _ (by rw [← h, authenticationJson, sortKeys])
      exact absurd (hnone.symm.trans hsome) (by simp)
  | some a =>
    cases b with
    | none =>
      have hnone := hlength none _ (by rw [authenticationJson, sortKeys])
      have hsome := hlength (some a) _ (by rw [h, authenticationJson, sortKeys])
      exact absurd (hnone.symm.trans hsome) (by simp)
    | some b =>
      have hkeys : [py "schema_version", py "provider_claims", py "independent"].Nodup := by decide
      have hvalues : [Json.scalar (.int a.schemaVersion), claimsJson a.providerClaims,
            .object [(py "dkim", verdictJson a.independentDkim)]].map sortKeys =
          [Json.scalar (.int b.schemaVersion), claimsJson b.providerClaims,
            .object [(py "dkim", verdictJson b.independentDkim)]].map (sortKeys (F := F)) :=
        sortKeys_zip_inj hkeys rfl rfl h
      simp only [List.map_cons, List.map_nil, List.cons.injEq, and_true] at hvalues
      obtain ⟨hversion, hclaims, hindependent⟩ := hvalues
      have hdkim : [verdictJson a.independentDkim].map sortKeys =
          [verdictJson b.independentDkim].map (sortKeys (F := F)) :=
        sortKeys_zip_inj (List.nodup_singleton (py "dkim")) rfl rfl hindependent
      have hverdict := verdictJson_inj (List.cons.inj hdkim).1
      have hclaims' := claimsJson_inj hclaims
      rw [sortKeys, sortKeys, scalar.injEq, Scalar.int.injEq, Nat.cast_inj] at hversion
      cases a
      cases b
      simp_all

/-- Values of one type that are written alike are equal. -/
lemma Field.json_injective {f g : Field} (htype : f.SameType g) (hf : f.Storable) (hg : g.Storable)
    (h : sortKeys (f.json : Json F) = sortKeys g.json) : f = g := by
  cases f with
  | text s =>
    cases g with
    | text t => rw [sortKeys_string_inj h]
    | _ => exact htype.elim
  | number m =>
    cases g with
    | number n =>
      cases m <;> cases n <;> simp_all [json, sortKeys]
    | _ => exact htype.elim
  | flag b =>
    cases g with
    | flag c => simpa [json, sortKeys] using h
    | _ => exact htype.elim
  | time t =>
    cases g with
    | time u =>
      cases t with
      | none => cases u <;> simp_all [json, sortKeys]
      | some t =>
        cases u with
        | none => simp_all [json, sortKeys]
        | some u =>
          rw [Datetime.isoformat_injective (hf t rfl) (hg u rfl) (sortKeys_string_inj h)]
    | _ => exact htype.elim
  | uuid u =>
    cases g with
    | uuid v => rw [Uuid.str_injective (sortKeys_string_inj h)]
    | _ => exact htype.elim
  | texts xs =>
    cases g with
    | texts ys => rw [sortKeys_array_inj (fun _ _ => sortKeys_string_inj) h]
    | _ => exact htype.elim
  | authentication a =>
    cases g with
    | authentication b => rw [authenticationJson_inj h]
    | _ => exact htype.elim

/-- Records with the same keys and types that are written alike are equal. -/
lemma Record.json_injective {r s : Record} (hkeys : r.map (·.1) = s.map (·.1))
    (hnodup : (r.map (·.1)).Nodup) (htypes : List.Forall₂ (fun p q => p.2.SameType q.2) r s)
    (hr : ∀ p ∈ r, p.2.Storable) (hs : ∀ p ∈ s, p.2.Storable)
    (h : sortKeys (r.json : Json F) = sortKeys s.json) : r = s := by
  have hvalues := sortKeys_object_inj ((keys_json r).trans (hkeys.trans (keys_json s).symm))
    ((keys_json r).symm ▸ hnodup) h
  rw [List.map_map, List.map_map] at hvalues
  clear hnodup h
  induction htypes with
  | nil => rfl
  | @cons p q r s htype _ ih =>
    simp only [List.map_cons, List.cons.injEq, Function.comp_apply] at hkeys hvalues
    rw [List.forall_mem_cons] at hr hs
    have hvalue := Field.json_injective htype hr.1 hs.1 hvalues.1
    rw [ih hkeys.2 hr.2 hs.2 hvalues.2, Prod.ext hkeys.1 hvalue]

/-! ## Rows that are written alike -/

/-- The tables, and the manifest. -/
inductive Table where
  | manifest
  | owner
  | mailbox
  | message
  | attachment
  | token
  | event

/-- The value of the key `type`. -/
def Table.typeText : Table → PyStr
  | .manifest => py "manifest"
  | .owner => py "owner"
  | .mailbox => py "mailbox"
  | .message => py "message"
  | .attachment => py "attachment"
  | .token => py "api_token"
  | .event => py "audit_event"

/-- The table of a row. -/
def Row.table : Row → Table
  | .manifest _ => .manifest
  | .owner _ => .owner
  | .mailbox _ => .mailbox
  | .message _ => .message
  | .attachment _ _ => .attachment
  | .token _ => .token
  | .event _ => .event

lemma Table.typeText_injective : Function.Injective typeText := by
  intro i j h
  cases i <;> cases j <;> first | rfl | exact absurd h (by decide)

lemma Row.type_mem (r : Row) : (py "type", .text r.table.typeText) ∈ r.record := by
  cases r <;> exact List.mem_cons_self

/-- Rows of two tables are not written alike. -/
lemma Row.table_eq {r r' : Row} (h : sortKeys (r.record.json : Json F) = sortKeys r'.record.json) :
    r.table = r'.table := by
  have hmem : (py "type", sortKeys (.string r.table.typeText : Json F)) ∈
      ((r.record.map fun p => (p.1, p.2.json)).map fun p => (p.1, sortKeys p.2)) :=
    List.mem_map.2 ⟨_, List.mem_map.2 ⟨_, r.type_mem, rfl⟩, rfl⟩
  obtain ⟨p, hp, heq⟩ := List.mem_map.1 ((perm_of_sortKeys h).mem_iff.1 hmem)
  obtain ⟨q, hq, rfl⟩ := List.mem_map.1 hp
  rw [Prod.mk.injEq] at heq
  -- a record has one member with this key
  have hsame := List.inj_on_of_nodup_map r'.plainKeys.1 hq r'.type_mem heq.1
  have htext : sortKeys (.string r'.table.typeText : Json F) =
      sortKeys (.string r.table.typeText) := by
    rw [← heq.2, hsame]
    rfl
  exact (Table.typeText_injective (sortKeys_string_inj htext)).symm

/-- The row without the columns that are not exported. -/
def Row.publicColumns : Row → Row
  | .manifest t => .manifest t
  | .owner a => .owner { a with password := [], isStaff := false, isSuperuser := false }
  | .mailbox m => .mailbox { m with passwordEncrypted := [] }
  | .message m => .message m
  | .attachment id a => .attachment id a
  | .token t => .token { t with tokenHash := [] }
  | .event e => .event { e with metadata := [] }

lemma Row.record_publicColumns (r : Row) : r.publicColumns.record = r.record := by
  cases r <;> rfl

/-- Two rows of one table. -/
@[elab_as_elim]
lemma Row.of_same_table {motive : Row → Row → Prop} {r r' : Row} (htable : r.table = r'.table)
    (manifest : ∀ t t', motive (.manifest t) (.manifest t'))
    (owner : ∀ a a', motive (.owner a) (.owner a'))
    (mailbox : ∀ m m', motive (.mailbox m) (.mailbox m'))
    (message : ∀ m m', motive (.message m) (.message m'))
    (attachment : ∀ id id' a a', motive (.attachment id a) (.attachment id' a'))
    (token : ∀ t t', motive (.token t) (.token t'))
    (event : ∀ e e', motive (.event e) (.event e')) : motive r r' := by
  cases r <;> cases r' <;> first | exact Table.noConfusion htable | skip
  · exact manifest _ _
  · exact owner _ _
  · exact mailbox _ _
  · exact message _ _
  · exact attachment _ _ _ _
  · exact token _ _
  · exact event _ _

lemma Row.sameKeys {r r' : Row} (htable : r.table = r'.table) :
    r.record.map (·.1) = r'.record.map (·.1) := by
  refine of_same_table htable ?_ ?_ ?_ ?_ ?_ ?_ ?_
  all_goals
    intros
    rfl

lemma Row.sameTypes {r r' : Row} (htable : r.table = r'.table) :
    List.Forall₂ (fun p q => p.2.SameType q.2) r.record r'.record := by
  refine of_same_table htable ?_ ?_ ?_ ?_ ?_ ?_ ?_
  all_goals
    intros
    simp only [record, manifestRecord, ownerRecord, mailboxRecord, messageRecord,
      attachmentRecord, tokenRecord, eventRecord, List.forall₂_cons, Field.SameType, and_self,
      List.Forall₂.nil]

/-- A row is told apart by its record from every row with other public columns. -/
lemma Row.publicColumns_eq_of_record {r r' : Row} (htable : r.table = r'.table)
    (h : r.record = r'.record) : r.publicColumns = r'.publicColumns := by
  revert h
  refine of_same_table htable ?_ ?_ ?_ ?_ ?_ ?_ ?_
  · intro t t' h
    simpa [record, manifestRecord, publicColumns] using h
  · intro a a' h
    simpa [record, ownerRecord, publicColumns] using h
  · intro m m' h
    simpa [record, mailboxRecord, publicColumns] using h
  · intro m m' h
    cases m
    cases m'
    simpa [record, messageRecord, publicColumns] using h
  · intro id id' a a' h
    cases a
    cases a'
    simpa [record, attachmentRecord, publicColumns] using h
  · intro t t' h
    simpa [record, tokenRecord, publicColumns] using h
  · intro e e' h
    simpa [record, eventRecord, publicColumns] using h

/-- Rows are written alike exactly when their public columns are equal. -/
lemma Row.sortKeys_json_eq_iff {r r' : Row} (hr : r.Storable) (hr' : r'.Storable) :
    sortKeys (r.record.json : Json F) = sortKeys r'.record.json ↔
      r.publicColumns = r'.publicColumns := by
  constructor
  · intro h
    have htable := table_eq h
    refine publicColumns_eq_of_record htable ?_
    exact Record.json_injective (sameKeys htable) r.plainKeys.1 (sameTypes htable) hr hr' h
  · intro h
    rw [← record_publicColumns r, h, record_publicColumns]

/-! ## Tables that are written alike -/

/-- The columns of the tables that are exported, each table in the order of its primary key. -/
structure PublicTables where
  accounts : List Account
  mailboxes : List Mailbox
  messages : List Message
  attachments : List (ℕ × Attachment)
  tokens : List ApiToken
  events : List AuditEvent
deriving DecidableEq

/-- What of the database is exported. -/
def Snapshot.publicTables (s : Snapshot) : PublicTables where
  accounts := (orderByPk (·.id) s.accounts).map fun a =>
    { a with password := [], isStaff := false, isSuperuser := false }
  mailboxes := (orderByPk (·.id) s.db.mailboxes).map fun m => { m with passwordEncrypted := [] }
  messages := orderByPk (·.id.toNat) s.db.messages
  attachments := orderByPk (·.1) (s.attachmentIds.zip s.db.attachments)
  tokens := (orderByPk (·.id) s.db.tokens).map fun t => { t with tokenHash := [] }
  events := (orderByPk (·.id) s.db.audit).map fun e => { e with metadata := [] }

/-- The rows of the tables, one table after the other. -/
def PublicTables.rows (p : PublicTables) : List Row :=
  p.accounts.map .owner ++ (p.mailboxes.map .mailbox ++ (p.messages.map .message ++
    (p.attachments.map (fun a => .attachment a.1 a.2) ++
      (p.tokens.map .token ++ p.events.map .event))))

lemma Snapshot.rows_publicColumns (s : Snapshot) (t : Time) :
    (s.rows t).map Row.publicColumns = .manifest t :: s.publicTables.rows := by
  simp [rows, publicTables, PublicTables.rows, Row.publicColumns, Function.comp_def]

/-- Two lists that each begin with the rows of one table. -/
lemma append_inj_of_table {α : Type} {k : Table} {f : α → Row} (hf : ∀ a, (f a).table = k)
    {xs ys : List α} {rest rest' : List Row} (hrest : k ∉ rest.map Row.table)
    (hrest' : k ∉ rest'.map Row.table) (h : xs.map f ++ rest = ys.map f ++ rest') :
    xs.map f = ys.map f ∧ rest = rest' := by
  classical
  have hfilter : ∀ (as : List α) (bs : List Row), k ∉ bs.map Row.table →
      (as.map f ++ bs).filter (fun r => decide (r.table = k)) = as.map f := by
    intro as bs hbs
    rw [List.mem_map, not_exists] at hbs
    rw [List.filter_append, List.filter_eq_self.2 (by simpa using fun a _ => hf a),
      List.filter_eq_nil_iff.2 (by simpa using hbs), List.append_nil]
  have hfirst : xs.map f = ys.map f := by
    rw [← hfilter xs rest hrest, h, hfilter ys rest' hrest']
  rw [hfirst] at h
  exact ⟨hfirst, List.append_cancel_left h⟩

/-- The rows of different tables do not mix. -/
lemma PublicTables.rows_injective : Function.Injective PublicTables.rows := by
  intro p q h
  unfold rows at h
  obtain ⟨haccounts, h⟩ := append_inj_of_table (k := .owner) (fun _ => rfl)
    (by simp [Row.table]) (by simp [Row.table]) h
  obtain ⟨hmailboxes, h⟩ := append_inj_of_table (k := .mailbox) (fun _ => rfl)
    (by simp [Row.table]) (by simp [Row.table]) h
  obtain ⟨hmessages, h⟩ := append_inj_of_table (k := .message) (fun _ => rfl)
    (by simp [Row.table]) (by simp [Row.table]) h
  obtain ⟨hattachments, h⟩ := append_inj_of_table (k := .attachment) (fun _ => rfl)
    (by simp [Row.table]) (by simp [Row.table]) h
  obtain ⟨htokens, hevents⟩ := append_inj_of_table (k := .token) (fun _ => rfl)
    (by simp [Row.table]) (by simp [Row.table]) h
  have hattachment : Function.Injective fun a : ℕ × Attachment => Row.attachment a.1 a.2 := by
    intro a b hab
    exact Prod.ext (Row.attachment.inj hab).1 (Row.attachment.inj hab).2
  cases p
  cases q
  simp only [PublicTables.mk.injEq]
  exact ⟨List.map_injective_iff.2 (fun _ _ => Row.owner.inj) haccounts,
    List.map_injective_iff.2 (fun _ _ => Row.mailbox.inj) hmailboxes,
    List.map_injective_iff.2 (fun _ _ => Row.message.inj) hmessages,
    List.map_injective_iff.2 hattachment hattachments,
    List.map_injective_iff.2 (fun _ _ => Row.token.inj) htokens,
    List.map_injective_iff.2 (fun _ _ => Row.event.inj) hevents⟩

/-- Rows are written alike one by one. -/
lemma map_publicColumns_eq {rows rows' : List Row} (h : ∀ r ∈ rows, r.Storable)
    (h' : ∀ r ∈ rows', r.Storable)
    (heq : rows.map (fun r => sortKeys (r.record.json : Json F)) =
      rows'.map fun r => sortKeys r.record.json) :
    rows.map Row.publicColumns = rows'.map Row.publicColumns := by
  rw [← List.forall₂_eq_eq_eq, List.forall₂_map_left_iff, List.forall₂_map_right_iff] at heq ⊢
  induction heq with
  | nil => exact .nil
  | cons hrow _ ih =>
    rw [List.forall_mem_cons] at h h'
    exact .cons ((Row.sortKeys_json_eq_iff h.1 h'.1).1 hrow) (ih h.2 h'.2)

/-- Two exports are alike exactly when they bear the same date and the databases agree on every
exported column: nothing is lost, and no other column tells in the file. -/
theorem writeOwnerExport_eq_iff (floats : Json.Floats F) (s s' : Snapshot)
    (exportedAt exportedAt' : Option Time) (now now' : Time)
    (hs : ∀ r ∈ s.rows (exportedAt.getD now), r.Storable)
    (hs' : ∀ r ∈ s'.rows (exportedAt'.getD now'), r.Storable) :
    writeOwnerExport floats s exportedAt now = writeOwnerExport floats s' exportedAt' now' ↔
      exportedAt.getD now = exportedAt'.getD now' ∧ s.publicTables = s'.publicTables := by
  have hvalues : ∀ (s : Snapshot) (t : Time), (∀ r ∈ s.rows t, r.Storable) →
      ∀ v ∈ ((s.rows t).map Row.record).map Record.json, v.Ok floats := by
    intro s t hs v hv
    obtain ⟨record, hrecord, rfl⟩ := List.mem_map.1 hv
    obtain ⟨r, hr, rfl⟩ := List.mem_map.1 hrecord
    exact (hs r hr).clean.ok
  constructor
  · intro h
    -- the reader gets the same values from both files
    have hread := loadLines_dumpLines dictHook_makesDict (hvalues s _ hs)
    have htext :
        dumpLines floats (((s.rows (exportedAt.getD now)).map Row.record).map Record.json) =
          dumpLines floats (((s'.rows (exportedAt'.getD now')).map Row.record).map Record.json) :=
      congrArg Prod.fst h
    rw [htext, loadLines_dumpLines dictHook_makesDict (hvalues s' _ hs'), Except.ok.injEq] at hread
    simp only [List.map_map] at hread
    have hrows := map_publicColumns_eq hs hs' hread.symm
    rw [Snapshot.rows_publicColumns, Snapshot.rows_publicColumns, List.cons.injEq,
      Row.manifest.injEq] at hrows
    exact ⟨hrows.1, PublicTables.rows_injective hrows.2⟩
  · rintro ⟨htime, htables⟩
    have hrecords : iterOwnerExport s exportedAt now = iterOwnerExport s' exportedAt' now' := by
      have hpublic : ∀ rows : List Row,
          rows.map Row.record = (rows.map Row.publicColumns).map Row.record := by
        intro rows
        rw [List.map_map]
        exact List.map_congr_left fun r _ => r.record_publicColumns.symm
      rw [iterOwnerExport, iterOwnerExport, hpublic, Snapshot.rows_publicColumns, htime, htables,
        ← Snapshot.rows_publicColumns, ← hpublic]
    simp only [writeOwnerExport, hrecords]

/-- Other secrets give the same file. -/
theorem writeOwnerExport_eq_iff_sample :
    writeOwnerExport unitFloats (sampleSnapshot [1] (py "a") (py "b") [(py "c", .null)]) none 0 =
      writeOwnerExport unitFloats (sampleSnapshot [] [] [] []) none 0 :=
  (writeOwnerExport_eq_iff unitFloats (sampleSnapshot [1] (py "a") (py "b") [(py "c", .null)])
    (sampleSnapshot [] [] [] []) none none 0 0 (sampleSnapshot_storable _ _ _ _)
    (sampleSnapshot_storable _ _ _ _)).2 ⟨rfl, rfl⟩

end OwnerExport

end MailGate
