import MailGate.Crypto.RotateRuntime
import MailGate.LocalSecrets

/-!
# The keys of a new installation

A run of `create_local_secrets.py` that is left alone creates what is missing.  The rotation tool
reads the keyring that it creates, and the runtime starts with its key.
-/

namespace MailGate

namespace LocalSecrets

open Transaction Prog

variable {F Key ι : Type} {floats : Json.Floats F} {fernet : Fernet Key}
  {tokenBytes : ι → PyStr → ℕ → Bytes} {room : ι → PyStr → Option ℕ} {posix : Bool} {run : ι}
  {s s' : Dir ι} {name : PyStr} {kind : SecretKind}

/-! ## The texts -/

lemma urlsafe_char {b : Bytes} {c : PyChar} (h : c ∈ urlsafeB64encode b) :
    c.val < 0x80 ∧ c.isSpace = false := by
  have hdigit : ∀ n < 64, (urlsafeChar (Base64.digit n)).val < 0x80 ∧
      (urlsafeChar (Base64.digit n)).isSpace = false := by
    decide +kernel
  obtain ⟨d, hd, rfl⟩ := List.mem_map.1 h
  rcases Base64.b64encode_chars b d hd with rfl | ⟨n, hn, rfl⟩
  · decide
  · exact hdigit n hn

lemma py_line : py "\n" = [ofChar '\n'] := by decide

lemma ascii_line {t : PyStr} (h : ∀ c ∈ t, c.val < 0x80) : ∀ c ∈ t ++ py "\n", c.val < 0x80 := by
  intro c hc
  rcases List.mem_append.1 hc with hc | hc
  · exact h c hc
  · rw [py_line, List.mem_singleton] at hc
    rw [hc]
    decide

lemma keyringDocument_ok (b : Bytes) : (keyringDocument (urlsafeB64encode b)).Ok floats := by
  have hkey : Json.Spellable (urlsafeB64encode b) :=
    Json.spellable_of_not_surrogate fun c hc => by
      have hascii := (urlsafe_char hc).1
      simp only [PyChar.isSurrogate, Bool.and_eq_false_iff, decide_eq_false_iff_not, not_le]
      exact .inl (lt_trans hascii (by decide))
  have hfields : [py "version", py "primary", py "keys"].Nodup := by decide
  have hone : (Json.renderNat 1).length ≤ Json.maxIntDigits := by decide
  rw [keyringDocument, Json.Ok]
  refine ⟨hfields, ?_⟩
  rw [Json.membersOk_iff]
  simp only [List.forall_mem_cons, Json.Ok, Json.MembersOk, Json.Scalar.Ok, List.map_cons,
    List.map_nil, List.nodup_singleton, and_true]
  exact ⟨⟨Json.spellable_py (by decide), hone⟩,
    ⟨Json.spellable_py (by decide), Json.spellable_py (by decide)⟩,
    ⟨Json.spellable_py (by decide), trivial, Json.spellable_py (by decide), hkey⟩, by simp⟩

/-- Every secret can be written as UTF-8. -/
lemma exists_secretOf (run : ι) (name : PyStr) (kind : SecretKind) :
    ∃ secret, secretOf floats tokenBytes run name kind = some secret := by
  have hascii : ∀ c ∈ kind.text floats (tokenBytes run name), c.val < 0x80 := by
    cases kind with
    | token n =>
      exact ascii_line fun c hc => (urlsafe_char ((List.rdropWhile_prefix _ _).subset hc)).1
    | fernetKey => exact ascii_line fun c hc => (urlsafe_char hc).1
    | keyring =>
      refine ascii_line fun c hc => lt_trans (?_ : Json.Printable c).2 (by decide)
      exact Json.render_printable _ (Json.sortKeys_ok _ (keyringDocument_ok _)) c hc
  exact ⟨_, PyStr.encode_ascii hascii⟩

/-! ## A run that is left alone -/

lemma run_filterNames {p : PyStr → Creator ι Bool} {keep : PyStr → Bool} {names : List PyStr}
    (hp : ∀ name ∈ names, (p name).run s = (.ok (keep name), s)) :
    (filterNames p names).run s = (.ok (names.filter keep), s) := by
  induction names with
  | nil => rfl
  | cons name names ih =>
    rw [List.forall_mem_cons] at hp
    simp only [filterNames, run_bind, hp.1, ih hp.2, List.filter_cons]
    rfl

/-- Nothing but files stand under the names of the secrets. -/
def Regular (s : Dir ι) : Prop :=
  ∀ name ∈ secretNames.map (·.1), s.entries name = none ∨ ∃ creator content mode,
    s.entries name = some (.file creator content mode)

lemma run_isInvalid (h : Regular s) (hname : name ∈ secretNames.map (·.1)) :
    (isInvalid name).run s = (.ok false, s) := by
  rcases h name hname with h | ⟨creator, content, mode, h⟩
  · simp [isInvalid, pathExists, run_bind, Prog.atomic, Prog.run, h]
    rfl
  · simp [isInvalid, pathExists, isFile, run_bind, Prog.atomic, Prog.run, h]
    rfl

lemma run_isMissing (h : Regular s) (hname : name ∈ secretNames.map (·.1)) :
    (isMissing name).run s = (.ok (s.entries name).isNone, s) := by
  rcases h name hname with h | ⟨creator, content, mode, h⟩
  · simp [isMissing, pathExists, run_bind, Prog.atomic, Prog.run, h]
    rfl
  · simp [isMissing, pathExists, run_bind, Prog.atomic, Prog.run, h]
    rfl

lemma Regular.set (h : Regular s) (name : PyStr) (creator : Option ι) (content : Bytes)
    (mode : ℕ) : Regular (s.set name (.file creator content mode)) := by
  intro name' hname'
  by_cases hname : name' = name
  · exact .inr ⟨creator, content, mode, by simp [Dir.set, hname]⟩
  · simpa [Dir.set, hname] using h name' hname'

/-- The same names are free. -/
def SameFree (s s' : Dir ι) : Prop := ∀ name, (s'.entries name).isNone = (s.entries name).isNone

lemma SameFree.set {entry e : Entry ι} (h : s.entries name = some e) :
    SameFree s (s.set name entry) := by
  intro name'
  by_cases hname : name' = name
  · simp [Dir.set, hname, h]
  · simp [Dir.set, hname]

lemma run_makeDirectory (posix : Bool) (s : Dir ι) : ∃ mode,
    (makeDirectory posix).run s = (.ok (), { s with mode := mode }) := by
  cases posix with
  | false => exact ⟨_, rfl⟩
  | true => exact ⟨_, rfl⟩

lemma run_exposeFiles (posix : Bool) (names : List PyStr)
    (hnames : ∀ name ∈ names, name ∈ secretNames.map (·.1)) (h : Regular s) :
    ∃ s', (exposeFiles posix names).run s = (.ok (), s') ∧ Regular s' ∧ SameFree s s' := by
  induction names generalizing s with
  | nil => exact ⟨s, rfl, h, fun _ => rfl⟩
  | cons name names ih =>
    rw [List.forall_mem_cons] at hnames
    rcases h name hnames.1 with hname | ⟨creator, content, mode, hname⟩
    · obtain ⟨s', hrun, hs'⟩ := ih hnames.2 h
      have hfile : (isFile name).run s = (.ok false, s) := by
        simp [isFile, Prog.atomic, Prog.run, hname]
      refine ⟨s', ?_, hs'⟩
      simp only [exposeFiles, run_bind, hfile, Bool.false_eq_true, if_false]
      exact hrun
    · have hfile : (isFile name).run s = (.ok true, s) := by
        simp [isFile, Prog.atomic, Prog.run, hname]
      cases posix with
      | false =>
        obtain ⟨s', hrun, hs'⟩ := ih hnames.2 h
        refine ⟨s', ?_, hs'⟩
        simp only [exposeFiles, run_bind, hfile, if_true, makeContainerReadable,
          Bool.false_eq_true, if_false]
        exact hrun
      | true =>
        have hmade : (makeContainerReadable true name).run s =
            (.ok (), s.set name (.file creator content 0o444)) := by
          simp [makeContainerReadable, Prog.atomic, Prog.run, hname]
        obtain ⟨s', hrun, hregular, hfree⟩ := ih hnames.2
          (h.set name creator content 0o444)
        refine ⟨s', ?_, hregular, fun name' => (hfree name').trans (SameFree.set hname name')⟩
        simp only [exposeFiles, run_bind, hfile, if_true, hmade]
        exact hrun

variable [DecidableEq ι]

lemma run_createSecret (hname : s.entries name = none) (hroom : room run name = none) :
    ∃ secret mode, (createSecret floats posix tokenBytes room run name kind).run s =
      (.ok (), s.set name (.file (some run) secret mode)) := by
  have hset : ∀ e e' : Entry ι, (s.set name e).set name e' = s.set name e' := by
    intro e e'
    simp [Dir.set]
  have hentry : ∀ e : Entry ι, (s.set name e).entries name = some e := by
    intro e
    simp [Dir.set]
  have hsecret : ∃ secret, secretOf floats tokenBytes run name kind = some secret :=
    exists_secretOf run name kind
  obtain ⟨secret, hsecret⟩ := hsecret
  have hopen : (openExclusive run name).run s =
      (.ok (), s.set name (.file (some run) [] 0o600)) := by
    simp [openExclusive, Prog.atomic, Prog.run, hname]
  have hwrite : (writeSecret floats tokenBytes room run name kind).run
      (s.set name (.file (some run) [] 0o600)) =
        (.ok (), s.set name (.file (some run) secret 0o600)) := by
    simp [writeSecret, Prog.atomic, run_bind, Prog.run, hsecret, hroom, hentry, hset]
    rfl
  cases posix with
  | false =>
    refine ⟨secret, 0o600, ?_⟩
    simp only [createSecret, run_bind, hopen, hwrite, makeContainerReadable]
    rfl
  | true =>
    refine ⟨secret, 0o444, ?_⟩
    simp only [createSecret, run_bind, hopen, hwrite]
    simp [makeContainerReadable, Prog.atomic, Prog.run, hentry, hset]

lemma run_createMissing {missing : List PyStr} {list : List (PyStr × SecretKind)}
    (hlist : (list.map (·.1)).Nodup) (hroom : ∀ name, room run name = none)
    (hfree : ∀ p ∈ list, p.1 ∈ missing → s.entries p.1 = none) :
    ∃ s', (createMissing floats posix tokenBytes room run missing list).run s = (.ok (), s') := by
  induction list generalizing s with
  | nil => exact ⟨s, rfl⟩
  | cons p list ih =>
    obtain ⟨name, kind⟩ := p
    rw [List.map_cons, List.nodup_cons] at hlist
    rw [List.forall_mem_cons] at hfree
    by_cases hname : name ∈ missing
    · have hcreated : ∃ secret mode,
          (createSecret floats posix tokenBytes room run name kind).run s =
            (.ok (), s.set name (.file (some run) secret mode)) :=
        run_createSecret (hfree.1 hname) (hroom name)
      obtain ⟨secret, mode, hcreated⟩ := hcreated
      have hrest : ∀ p ∈ list, p.1 ∈ missing →
          (s.set name (.file (some run) secret mode)).entries p.1 = none := by
        intro p hp hmissing
        have hne : p.1 ≠ name := fun heq => hlist.1 (List.mem_map.2 ⟨p, hp, heq⟩)
        simpa [Dir.set, hne] using hfree.2 p hp hmissing
      obtain ⟨s', hrun⟩ := ih hlist.2 hrest
      refine ⟨s', ?_⟩
      simp only [createMissing, run_bind, if_pos hname, hcreated]
      exact hrun
    · obtain ⟨s', hrun⟩ := ih hlist.2 hfree.2
      refine ⟨s', ?_⟩
      simp only [createMissing, run_bind, if_neg hname]
      exact hrun

omit [DecidableEq ι] in
/-- What a client establishes among others, it establishes alone. -/
lemma run_of_triple {α : Type} {P : Dir ι → Prop} {p : Creator ι α} {R : α → Dir ι → Prop} {a : α}
    (h : Triple (terms floats tokenBytes run) P p R) (hs : P s) (hrun : p.run s = (.ok a, s')) :
    R a s' := by
  obtain ⟨tr, hexec⟩ := Exec.of_run (W := (terms floats tokenBytes run).world) p s
  rw [hrun] at hexec
  exact (h [] s hs).exec hexec (fun _ _ => trivial) _ rfl a rfl

/-- A run that is left alone returns if a name is free, nothing but files stand under the others,
and no write fails; and it has written each secret that was missing. -/
theorem createLocalSecrets_alone (hregular : Regular s) (hroom : ∀ name, room run name = none)
    {p : PyStr × SecretKind} (hp : p ∈ secretNames) (hfree : s.entries p.1 = none) :
    ∃ s', (createLocalSecrets floats posix tokenBytes room run).run s = (.ok (), s') ∧
      ∀ q ∈ secretNames, s.entries q.1 = none →
        Written floats tokenBytes posix run q.1 q.2 s' := by
  obtain ⟨mode, hmade⟩ := run_makeDirectory posix s
  set s₁ : Dir ι := { s with mode := mode } with hs₁
  have hregular₁ : Regular s₁ := hregular
  have hinvalid : (filterNames isInvalid (secretNames.map (·.1))).run s₁ = (.ok [], s₁) := by
    rw [run_filterNames fun name hname => run_isInvalid hregular₁ hname, List.filter_false]
  obtain ⟨s₂, hexposed, hregular₂, hsame⟩ := run_exposeFiles posix
    (secretNames.map (·.1)) (fun _ hname => hname) hregular₁
  set missing := (secretNames.map (·.1)).filter fun name => (s₂.entries name).isNone with hdef
  have hmissing : (filterNames isMissing (secretNames.map (·.1))).run s₂ = (.ok missing, s₂) :=
    run_filterNames fun name hname => run_isMissing hregular₂ hname
  have hmem : ∀ q ∈ secretNames, s.entries q.1 = none → q.1 ∈ missing := by
    intro q hq hnone
    rw [hdef, List.mem_filter, hsame q.1]
    exact ⟨List.mem_map_of_mem hq, by simp [hs₁, hnone]⟩
  have hne := List.ne_nil_of_mem (hmem p hp hfree)
  have hcreated : ∃ s', (createMissing floats posix tokenBytes room run missing secretNames).run
      s₂ = (.ok (), s') :=
    run_createMissing secretNames_nodup hroom fun q _ hq => by
      simpa using (List.mem_filter.1 hq).2
  obtain ⟨s', hcreated⟩ := hcreated
  refine ⟨s', ?_, fun q hq hnone => ?_⟩
  · simp only [createLocalSecrets, run_bind, hmade, hinvalid, hexposed, hmissing, ne_eq,
      not_true_eq_false, if_false, if_neg hne]
    exact hcreated
  · exact run_of_triple (triple_createMissing missing fun _ h => h) trivial hcreated q hq
      (hmem q hq hnone)

omit [DecidableEq ι]

/-! ## What is read -/

lemma newlinesFrom_eq_self {t : PyStr} (h : ∀ c ∈ t, c.isSpace = false) (b : Bool) :
    PyStr.newlinesFrom b t = t := by
  induction t generalizing b with
  | nil => rfl
  | cons c t ih =>
    rw [List.forall_mem_cons] at h
    rw [PyStr.newlinesFrom_cons_of_not_space h.1, ih h.2]

lemma strip_word {t : PyStr} (h : ∀ c ∈ t, c.isSpace = false) :
    PyStr.strip (t ++ py "\n") = t := by
  have hline : ∀ c ∈ py "\n", PyChar.isSpace c = true := by
    rw [py_line, List.forall_mem_singleton]
    decide
  cases t with
  | nil => decide +kernel
  | cons c t =>
    have hc := h c List.mem_cons_self
    rw [PyStr.strip, List.cons_append, List.dropWhile_cons_of_neg (by simp [hc]),
      ← List.cons_append, PyStr.rdropWhile_append_of_pos hline, PyStr.rdropWhile_eq_self h]

lemma decode_line {t : PyStr} (h : ∀ c ∈ t, c.val < 0x80) {content : Bytes}
    (hcontent : (t ++ py "\n").encode = some content) :
    Bytes.decodeUtf8 false content = some (t ++ py "\n") := by
  obtain ⟨encoded, hencoded⟩ := PyStr.encodeAscii_isSome (ascii_line h)
  rw [PyStr.encode_of_encodeAscii hencoded] at hcontent
  cases hcontent
  exact Bytes.decodeUtf8_of_decodeAscii (PyStr.decodeAscii_of_encodeAscii hencoded)

lemma urlsafe_length {b : Bytes} (h : b.length = 32) : (urlsafeB64encode b).length = 44 := by
  rw [urlsafeB64encode, List.length_map, Base64.b64encode_length, h]

/-- URL-safe Base64 text of 32 bytes is a Fernet key. -/
def TakesUrlsafe (fernet : Fernet Key) : Prop :=
  ∀ b : Bytes, b.length = 32 → ∃ key, fernetOf fernet (urlsafeB64encode b) = some key

/-- The keys of the document that `create_credential_keyring` writes. -/
def firstKeys (value : PyStr) : List (PyStr × PyStr) := [(py "k1", value)]

lemma firstKeys_ids (value : PyStr) : ∀ p ∈ firstKeys value, isKeyId p.1 = true := by
  rw [firstKeys, List.forall_mem_singleton]
  exact show isKeyId (py "k1") = true by decide

lemma firstKeys_values {value : PyStr} (hvalue : (fernetOf fernet value).isSome = true) :
    ∀ p ∈ firstKeys value, (fernetOf fernet p.2).isSome = true := by
  rw [firstKeys, List.forall_mem_singleton]
  exact hvalue

lemma firstKeys_distinct (value : PyStr) : ((firstKeys value).map (·.1)).Nodup :=
  List.nodup_singleton _

lemma firstKeys_bounded (value : PyStr) : (firstKeys value).length ≤ maximumKeys := by
  rw [firstKeys, List.length_singleton]
  decide

lemma firstKeys_primary (value : PyStr) : py "k1" ∈ (firstKeys value).map (·.1) :=
  List.mem_singleton_self _

lemma firstVersion_one (floats : Json.Floats F) : (Json.scalar (.int 1)).isOne floats = true := rfl

/-- The document of `create_credential_keyring`, as the rotation tool reads it. -/
def firstDocument (floats : Json.Floats F) (fernet : Fernet Key) (value : PyStr)
    (hvalue : (fernetOf fernet value).isSome = true) : KeyringDocument floats fernet where
  version := .scalar (.int 1)
  primary := py "k1"
  keys := firstKeys value
  version_one := firstVersion_one floats
  key_ids := firstKeys_ids value
  key_values := firstKeys_values hvalue
  distinct := firstKeys_distinct value
  bounded := firstKeys_bounded value
  primary_mem := firstKeys_primary value

/-- What the rotation tool and the runtime find in the directory.  A file of unknown origin may be
a link. -/
def Dir.secretsDir (s : Dir ι) : SecretsDir where
  real := true
  ownerOnly := s.mode == some 0o700
  masterKey := secretFile 0 (s.entries (py "master_key"))
  masterKeyring := secretFile 1 (s.entries (py "master_keyring"))
  lock := none
  temporaries := []
  inodes := 2
where
  secretFile (inode : ℕ) : Option (Entry ι) → Option SecretFile
    | some (.file creator content mode) => some ⟨inode, creator.isSome, mode, content⟩
    | _ => none

/-- The text of the created keyring is short. -/
lemma length_dumps_keyringDocument (value : PyStr) :
    (Json.dumps floats (keyringDocument value)).length ≤ 100 + 12 * value.length := by
  have hsorted : Json.sortKeys (keyringDocument value : Json F) =
      .object [(py "keys", .object [(py "k1", .string value)]),
        (py "primary", .string (py "k1")), (py "version", .scalar (.int 1))] := rfl
  have hvalue := Json.length_renderString_le value
  have hwords : (Json.renderString (py "keys")).length = 6 ∧
      (Json.renderString (py "k1")).length = 4 ∧ (Json.renderString (py "primary")).length = 9 ∧
      (Json.renderString (py "version")).length = 9 ∧ (Json.renderInt 1).length = 1 := by decide
  have hclose : (py "\x7d").length = 1 := by decide
  obtain ⟨hkeys, hid, hprimary, hversion, hnumber⟩ := hwords
  rw [Json.dumps, hsorted]
  simp only [Json.render, Json.renderMembers, Json.renderScalar, 
    List.length_cons, List.length_append, List.length_nil, hkeys, hid, hprimary, hversion, hnumber,
    hclose]
  omega

/-- The created keyring has one key. -/
lemma keyring_of_written (hone : ∀ f, floats.eqInt f 1 = true → floats.Faithful f)
    (h : Written floats tokenBytes posix run (py "master_keyring") .keyring s)
    (hvalue : (fernetOf fernet
      (urlsafeB64encode (tokenBytes run (py "master_keyring") 32))).isSome = true) :
    s.secretsDir.keyring floats fernet = some (firstDocument floats fernet _ hvalue).sorted := by
  obtain ⟨secret, mode, hsecret, hentry, -⟩ := h
  have hread := fileKeyring_serialized hone (firstDocument floats fernet _ hvalue) hsecret
  simpa [SecretsDir.keyring, Dir.secretsDir, Dir.secretsDir.secretFile, hentry] using hread

/-- The rotation tool reads the created keyring. -/
lemma loadKeyring_of_written (hone : ∀ f, floats.eqInt f 1 = true → floats.Faithful f)
    (hbytes : ∀ run name n, (tokenBytes run name n).length = n)
    (h : Written floats tokenBytes posix run (py "master_keyring") .keyring s)
    (hvalue : (fernetOf fernet
      (urlsafeB64encode (tokenBytes run (py "master_keyring") 32))).isSome = true) :
    ∃ mode, (loadKeyring floats fernet).run s.secretsDir =
      (.ok ((firstDocument floats fernet _ hvalue).sorted, mode), s.secretsDir) := by
  obtain ⟨secret, mode, hsecret, hentry, -⟩ := h
  have hfile : s.secretsDir.masterKeyring = some ⟨1, true, mode, secret⟩ := by
    simp [Dir.secretsDir, Dir.secretsDir.secretFile, hentry]
  set document := firstDocument floats fernet _ hvalue
  have hlength : document.serialized.length < maximumSecretBytes := by
    refine lt_of_le_of_lt (length_dumps_keyringDocument _) ?_
    rw [urlsafe_length (hbytes _ _ _)]
    decide
  exact ⟨mode, run_loadKeyring hfile rfl (secretText_serialized hone document hsecret hlength)
    (KeyringDocument.parseKeyring_serialized hone document)⟩

/-- The created master key is the one of the settings. -/
lemma masterKeySetting_of_written (hbytes : ∀ run name n, (tokenBytes run name n).length = n)
    (h : Written floats tokenBytes posix run (py "master_key") .fernetKey s) :
    s.secretsDir.masterKeySetting =
      .ok (urlsafeB64encode (tokenBytes run (py "master_key") 32)) := by
  obtain ⟨secret, mode, hsecret, hentry, -⟩ := h
  set value := urlsafeB64encode (tokenBytes run (py "master_key") 32) with hvalue
  have hspace : ∀ c ∈ value, c.isSpace = false := fun c hc => (urlsafe_char hc).2
  have hread : PyStr.universalNewlines (PyStr.strip (value ++ py "\n")) = value := by
    rw [strip_word hspace]
    exact newlinesFrom_eq_self hspace false
  have hsource : s.secretsDir.source .masterKey = ⟨none, some (some secret)⟩ := by
    simp [SecretsDir.source, SecretsDir.file, Dir.secretsDir, Dir.secretsDir.secretFile, hentry]
  have hdecode := decode_line (fun c hc => (urlsafe_char hc).1) hsecret
  have hlength : value.length = 44 := urlsafe_length (hbytes _ _ _)
  rw [SecretsDir.masterKeySetting, hsource, optionalSecret_file hdecode, hread, hlength]
  rfl

variable [DecidableEq ι]

/-- In a directory without keys, a run that is left alone returns, and it leaves a keyring that the
rotation tool reads and that the runtime starts with: its one key is the primary one, and the
master key serves older credentials. -/
theorem createLocalSecrets_runtime (hfernet : TakesUrlsafe fernet)
    (hone : ∀ f, floats.eqInt f 1 = true → floats.Faithful f)
    (hbytes : ∀ run name n, (tokenBytes run name n).length = n) (hregular : Regular s)
    (hroom : ∀ name, room run name = none) (hkeyring : s.entries (py "master_keyring") = none)
    (hkey : s.entries (py "master_key") = none) :
    ∃ s' document legacy ring,
      (createLocalSecrets floats posix tokenBytes room run).run s = (.ok (), s') ∧
      s'.secretsDir.keyring floats fernet = some document ∧
      (∃ mode, (loadKeyring floats fernet).run s'.secretsDir =
        (.ok (document, mode), s'.secretsDir)) ∧
      document.primary = py "k1" ∧
      document.keys = [(py "k1", urlsafeB64encode (tokenBytes run (py "master_keyring") 32))] ∧
      fernetOf fernet (urlsafeB64encode (tokenBytes run (py "master_key") 32)) = some legacy ∧
      s'.secretsDir.runtimeKeyring floats fernet = .ok ring ∧
      ring.Mirrors fernet document [legacy] := by
  have hkeyringName : (py "master_keyring", SecretKind.keyring) ∈ secretNames := by decide
  have hkeyName : (py "master_key", SecretKind.fernetKey) ∈ secretNames := by decide
  -- all names that are free get their secrets, these two among them
  have halone : ∃ s', (createLocalSecrets floats posix tokenBytes room run).run s = (.ok (), s') ∧
      ∀ q ∈ secretNames, s.entries q.1 = none →
        Written floats tokenBytes posix run q.1 q.2 s' :=
    createLocalSecrets_alone hregular hroom hkeyName hkey
  obtain ⟨s', hrun, hwritten⟩ := halone
  obtain ⟨first, hfirst⟩ := hfernet (tokenBytes run (py "master_keyring") 32) (hbytes _ _ _)
  obtain ⟨legacy, hlegacy⟩ := hfernet (tokenBytes run (py "master_key") 32) (hbytes _ _ _)
  have hdocument := keyring_of_written hone (hwritten _ hkeyringName hkeyring)
    (Option.isSome_iff_exists.2 ⟨first, hfirst⟩)
  have hsetting := masterKeySetting_of_written hbytes (hwritten _ hkeyName hkey)
  have hne : urlsafeB64encode (tokenBytes run (py "master_key") 32) ≠ [] := by
    rw [← List.length_pos_iff, urlsafe_length (hbytes _ _ _)]
    decide
  have hadded : masterKeys fernet (urlsafeB64encode (tokenBytes run (py "master_key") 32)) =
      .ok [legacy] := by
    rw [masterKeys, if_neg hne, makeFernet, hlegacy]
    rfl
  obtain ⟨ring, hring, hmirrors⟩ :=
    SecretsDir.runtimeKeyring_of_keyring hdocument hsetting hadded
  have hloaded := loadKeyring_of_written hone hbytes (hwritten _ hkeyringName hkeyring)
    (Option.isSome_iff_exists.2 ⟨first, hfirst⟩)
  exact ⟨s', _, legacy, ring, hrun, hdocument, hloaded, rfl, rfl, hlegacy, hring, hmirrors⟩

/-- The cipher of the samples takes every text of 44 characters. -/
lemma sampleCipher_takesUrlsafe : TakesUrlsafe sampleCipher := by
  intro b hb
  have hascii : ∀ c ∈ urlsafeB64encode b, c.val < 0x80 := fun c hc => (urlsafe_char hc).1
  obtain ⟨encoded, hencoded⟩ := PyStr.encodeAscii_isSome hascii
  have hkept : (encoded.filter fun x => x ≠ 0x0D ∧ x ≠ 0x0A) = encoded := by
    refine List.filter_eq_self.2 fun x hx => ?_
    obtain ⟨c, hc, hval⟩ := PyStr.mem_of_mem_encodeAscii hencoded hx
    have hspace := (urlsafe_char hc).2
    have hreturn : x ≠ 0x0D := by
      rintro rfl
      rw [show c = 0x0D from Fin.ext hval] at hspace
      exact absurd hspace (by decide)
    have hline : x ≠ 0x0A := by
      rintro rfl
      rw [show c = 0x0A from Fin.ext hval] at hspace
      exact absurd hspace (by decide)
    simp [hreturn, hline]
  refine ⟨encoded, ?_⟩
  rw [fernetOf, hencoded]
  simp only [Option.bind_some, sampleCipher, hkept, PyStr.encodeAscii_length hencoded,
    urlsafe_length hb, if_true]

/-- A first run makes keys that the runtime starts with. -/
theorem createLocalSecrets_runtime_sample :
    ∃ s' document legacy ring,
      (createLocalSecrets wordFloats true sampleBytes sampleRoom ()).run ⟨none, fun _ => none⟩ =
        (.ok (), s') ∧
      s'.secretsDir.keyring wordFloats sampleCipher = some document ∧
      (∃ mode, (loadKeyring wordFloats sampleCipher).run s'.secretsDir =
        (.ok (document, mode), s'.secretsDir)) ∧
      document.primary = py "k1" ∧
      document.keys = [(py "k1", urlsafeB64encode (List.replicate 32 7))] ∧
      fernetOf sampleCipher (urlsafeB64encode (List.replicate 32 7)) = some legacy ∧
      s'.secretsDir.runtimeKeyring wordFloats sampleCipher = .ok ring ∧
      ring.Mirrors sampleCipher document [legacy] :=
  createLocalSecrets_runtime sampleCipher_takesUrlsafe (fun _ h => absurd h Bool.false_ne_true)
    (fun _ _ _ => List.length_replicate) (fun _ _ => .inl rfl) (fun _ => rfl) rfl rfl

end LocalSecrets

end MailGate
