import MailGate.Lib.Triples
import MailGate.Python.Base64
import MailGate.Python.Json.Dump

/-!
# The secrets of a new installation

`create_local_secrets.py` creates the secret files that are missing.  Each file is opened with
`O_EXCL`, written and made readable, in three calls of the system.  Any number of runs may be at
work in one directory, every call may fail, and a run may be killed between two of them.
-/

namespace MailGate

namespace LocalSecrets

open Transaction Prog

/-! ## Secrets -/

/-- What a secret file holds: the text of `secrets.token_urlsafe(length)`, a Fernet key, or a
keyring with one key. -/
inductive SecretKind where
  | token (length : ℕ)
  | fernetKey
  | keyring
deriving DecidableEq, Repr

/-- `SECRET_NAMES`, in their order, with what `main` writes under each name. -/
def secretNames : List (PyStr × SecretKind) :=
  [(py "django_secret_key", .token 64),
    (py "postgres_password", .token 48),
    (py "postgres_migrate_password", .token 48),
    (py "postgres_web_password", .token 48),
    (py "postgres_api_password", .token 48),
    (py "postgres_worker_password", .token 48),
    (py "api_django_secret_key", .token 48),
    (py "master_key", .fernetKey),
    (py "master_keyring", .keyring),
    (py "backup_key", .fernetKey),
    (py "setup_token", .token 32)]

/-- The two digits that `base64.urlsafe_b64encode` replaces. -/
def urlsafeChar (c : PyChar) : PyChar :=
  if c = ofChar '+' then ofChar '-' else if c = ofChar '/' then ofChar '_' else c

/-- `base64.urlsafe_b64encode(b).decode("ascii")`. -/
def urlsafeB64encode (b : Bytes) : PyStr := (Base64.b64encode b).map urlsafeChar

variable {F : Type} (floats : Json.Floats F)

/-- The document of `create_credential_keyring`. -/
def keyringDocument (key : PyStr) : Json F :=
  .object [
    (py "version", .scalar (.int 1)),
    (py "primary", .string (py "k1")),
    (py "keys", .object [(py "k1", .string key)])]

/-- The line that is written, where `tokenBytes` is `secrets.token_bytes`. -/
def SecretKind.text (tokenBytes : ℕ → Bytes) : SecretKind → PyStr
  | token length => (urlsafeB64encode (tokenBytes length)).rdropWhile (· = Base64.pad) ++ py "\n"
  | fernetKey => urlsafeB64encode (tokenBytes 32) ++ py "\n"
  | keyring => Json.dumps floats (keyringDocument (urlsafeB64encode (tokenBytes 32))) ++ py "\n"

/-! ## The directory -/

variable {ι : Type}

/-- What is found under a name.  Of a file we also record which run has created it, if one did. -/
inductive Entry (ι : Type) where
  | file (creator : Option ι) (content : Bytes) (mode : ℕ)
  /-- A directory, a device or the like. -/
  | other
  /-- A symbolic link to nothing. -/
  | dangling
deriving DecidableEq, Repr

/-- The directory `.local/secrets`, with its mode once it exists. -/
structure Dir (ι : Type) where
  mode : Option ℕ
  entries : PyStr → Option (Entry ι)

/-- The directory with this entry under the name. -/
def Dir.set (s : Dir ι) (name : PyStr) (entry : Entry ι) : Dir ι :=
  { s with entries := Function.update s.entries name (some entry) }

/-- How the script ends if it does not return. -/
inductive SecretsExn where
  /-- `OSError`, with `FileExistsError` among them, or a text that cannot be encoded. -/
  | os
  | systemExit (message : PyStr)
deriving DecidableEq, Repr

/-! ## The script -/

/-- A part of the script. -/
abbrev Creator (ι : Type) : Type → Type 1 := Prog (Dir ι) SecretsExn

/-- `path.exists()`. -/
def pathExists (name : PyStr) : Creator ι Bool :=
  .atomic fun s =>
    .ok (match s.entries name with | none | some .dangling => false | _ => true, s)

/-- `path.is_file()`. -/
def isFile (name : PyStr) : Creator ι Bool :=
  .atomic fun s => .ok (match s.entries name with | some (.file ..) => true | _ => false, s)

/-- The list comprehensions of `main`. -/
def filterNames (p : PyStr → Creator ι Bool) : List PyStr → Creator ι (List PyStr)
  | [] => pure []
  | name :: names => do
      let keep ← p name
      let rest ← filterNames p names
      return if keep then name :: rest else rest

/-- A name is taken by something that is not a file. -/
def isInvalid (name : PyStr) : Creator ι Bool := do
  let present ← pathExists name
  if present then
    let file ← isFile name
    return !file
  else return false

/-- A name is free. -/
def isMissing (name : PyStr) : Creator ι Bool := do
  let present ← pathExists name
  return !present

section

variable (posix : Bool)

/-- `target.mkdir(mode=0o700, parents=True, exist_ok=True)` and `target.chmod(0o700)`. -/
def makeDirectory : Creator ι Unit := do
  .atomic fun s => .ok ((), { s with mode := some (s.mode.getD 0o700) })
  if posix then .atomic fun s => .ok ((), { s with mode := some 0o700 }) else pure ()

/-- `make_container_readable`. -/
def makeContainerReadable (name : PyStr) : Creator ι Unit :=
  if posix then
    .atomic fun s =>
      match s.entries name with
      | none | some .dangling => .error .os
      | some (.file creator content _) => .ok ((), s.set name (.file creator content 0o444))
      | some .other => .ok ((), s)
  else pure ()

/-- The loop that makes the present files readable. -/
def exposeFiles : List PyStr → Creator ι Unit
  | [] => pure ()
  | name :: names => do
      let file ← isFile name
      (if file then makeContainerReadable posix name else pure ())
      exposeFiles names

variable [DecidableEq ι] (tokenBytes : ι → PyStr → ℕ → Bytes) (room : ι → PyStr → Option ℕ)
  (run : ι)

/-- `os.open(path, O_WRONLY | O_CREAT | O_EXCL, 0o600)`. -/
def openExclusive (name : PyStr) : Creator ι Unit :=
  .atomic fun s =>
    match s.entries name with
    | some _ => .error .os
    | none => .ok ((), s.set name (.file (some run) [] 0o600))

/-- The secret that a run has for a name. -/
def secretOf (name : PyStr) (kind : SecretKind) : Option Bytes :=
  PyStr.encode (kind.text floats (tokenBytes run name))

/-- What is written through the descriptor arrives in the file that the run has opened.  Where
`room` gives a number, no more bytes than that fit, and the write fails. -/
def writeSecret (name : PyStr) (kind : SecretKind) : Creator ι Unit := do
  .atomic fun s =>
    match secretOf floats tokenBytes run name kind, s.entries name with
    | none, _ => .error .os
    | some secret, some (.file creator _ mode) =>
        if creator = some run then
          let content := (room run name).elim secret secret.take
          .ok ((), s.set name (.file creator content mode))
        else .ok ((), s)
    | some _, _ => .ok ((), s)
  if (room run name).isSome then .compute (.error .os) else pure ()

/-- `create_secret`, `create_fernet_key` and `create_credential_keyring`. -/
def createSecret (name : PyStr) (kind : SecretKind) : Creator ι Unit := do
  openExclusive run name
  writeSecret floats tokenBytes room run name kind
  makeContainerReadable posix name

/-- The part of `main` that creates what is missing. -/
def createMissing (missing : List PyStr) : List (PyStr × SecretKind) → Creator ι Unit
  | [] => pure ()
  | (name, kind) :: rest => do
      (if name ∈ missing then createSecret floats posix tokenBytes room run name kind else pure ())
      createMissing missing rest

/-- `main`. -/
def createLocalSecrets : Creator ι Unit := do
  makeDirectory posix
  let names := secretNames.map (·.1)
  let invalid ← filterNames isInvalid names
  if invalid ≠ [] then
    .compute (.error (.systemExit
      (py "Refusing non-file secret path(s): " ++ PyStr.join (py ", ") invalid)))
  else
    exposeFiles posix names
    let missing ← filterNames isMissing names
    if missing = [] then
      .compute (.error (.systemExit
        (py "All local secret files already exist; nothing was changed")))
    else createMissing floats posix tokenBytes room run missing secretNames

end

/-! ## What one call does -/

section Steps

variable (tokenBytes : ι → PyStr → ℕ → Bytes)

/-- What a call of a run does to the entry under a name. -/
inductive EntryChange (run : ι) (name : PyStr) : Option (Entry ι) → Option (Entry ι) → Prop where
  | same (e : Option (Entry ι)) : EntryChange run name e e
  | readable (creator : Option ι) (content : Bytes) (mode : ℕ) :
      EntryChange run name (some (.file creator content mode)) (some (.file creator content 0o444))
  | create : EntryChange run name none (some (.file (some run) [] 0o600))
  | write {kind : SecretKind} {secret content : Bytes} {mode : ℕ}
      (hkind : (name, kind) ∈ secretNames)
      (h : secretOf floats tokenBytes run name kind = some secret) (hpart : content <+: secret) :
      EntryChange run name (some (.file (some run) [] mode)) (some (.file (some run) content mode))

/-- What a call of a run does to the directory. -/
structure Change (run : ι) (s s' : Dir ι) : Prop where
  mode : s'.mode = s.mode ∨ s'.mode = some 0o700
  entries : ∀ name, EntryChange floats tokenBytes run name (s.entries name) (s'.entries name)

variable {floats tokenBytes} {run : ι} {s s' : Dir ι} {name : PyStr} {kind : SecretKind}

lemma Change.refl (s : Dir ι) : Change floats tokenBytes run s s := ⟨.inl rfl, fun _ => .same _⟩

lemma Change.set {entry : Entry ι}
    (h : EntryChange floats tokenBytes run name (s.entries name) (some entry)) :
    Change floats tokenBytes run s (s.set name entry) := by
  refine ⟨.inl rfl, fun name' => ?_⟩
  by_cases hname : name' = name
  · subst hname
    simpa only [Dir.set, Function.update_self] using h
  · simp only [Dir.set, Function.update_of_ne hname]
    exact .same _

/-- The terms of a run among any number of others. -/
abbrev terms (floats : Json.Floats F) (tokenBytes : ι → PyStr → ℕ → Bytes) (run : ι) :
    Terms (Dir ι) SecretsExn :=
  Pool.terms (.alone (· = .os)) (fun _ _ _ => True) (Change floats tokenBytes) run

lemma stable_of_others {P : Dir ι → Prop}
    (h : ∀ l, l ≠ run → ∀ s s', Change floats tokenBytes l s s' → P s → P s') :
    (terms floats tokenBytes run).Stable P := by
  rintro a b (henv | ⟨l, hl, hchange⟩) hs
  · exact henv.elim
  · exact h l hl a b hchange hs

lemma lasting_of_all {P : Dir ι → Prop}
    (h : ∀ l s s', Change floats tokenBytes l s s' → P s → P s') :
    (terms floats tokenBytes run).Lasting P :=
  ⟨stable_of_others fun l _ => h l, h run⟩

/-- The run has created nothing so far. -/
def Idle (run : ι) (s : Dir ι) : Prop :=
  ∀ name content mode, s.entries name ≠ some (.file (some run) content mode)

/-- Something is there under the name that the run has not created. -/
def Foreign (run : ι) (name : PyStr) (s : Dir ι) : Prop :=
  ∃ e, s.entries name = some e ∧ ∀ content mode, e ≠ .file (some run) content mode

/-- The run has opened the file. -/
def Opened (run : ι) (name : PyStr) (s : Dir ι) : Prop :=
  ∃ mode, s.entries name = some (.file (some run) [] mode)

/-- The run has written its secret. -/
def Written (floats : Json.Floats F) (tokenBytes : ι → PyStr → ℕ → Bytes) (posix : Bool) (run : ι)
    (name : PyStr) (kind : SecretKind) (s : Dir ι) : Prop :=
  ∃ secret mode, secretOf floats tokenBytes run name kind = some secret ∧
    s.entries name = some (.file (some run) secret mode) ∧ (posix = true → mode = 0o444)

lemma Idle.foreign (hs : Idle run s) (h : (s.entries name).isSome = true) :
    Foreign run name s := by
  obtain ⟨e, he⟩ := Option.isSome_iff_exists.1 h
  exact ⟨e, he, fun content mode hfile => hs name content mode (he.trans (congrArg some hfile))⟩

/-- The other runs leave the content of a file that a run has created. -/
lemma EntryChange.of_other {l : ι} (hl : l ≠ run) {content : Bytes} {mode : ℕ}
    {e' : Option (Entry ι)}
    (h : EntryChange floats tokenBytes l name (some (.file (some run) content mode)) e') :
    ∃ mode', e' = some (.file (some run) content mode') ∧ (mode' = mode ∨ mode' = 0o444) := by
  cases h with
  | same => exact ⟨mode, rfl, .inl rfl⟩
  | readable => exact ⟨0o444, rfl, .inr rfl⟩
  | write => exact absurd rfl hl

lemma secretNames_nodup : (secretNames.map (·.1)).Nodup := by decide +kernel

lemma kind_unique {kind' : SecretKind} (h : (name, kind) ∈ secretNames)
    (h' : (name, kind') ∈ secretNames) : kind' = kind :=
  congrArg Prod.snd (List.inj_on_of_nodup_map secretNames_nodup h' h rfl)

/-- A run leaves the content of a file that it has written. -/
lemma EntryChange.of_written (hkind : (name, kind) ∈ secretNames) {secret : Bytes} {mode : ℕ}
    {e' : Option (Entry ι)} (hsecret : secretOf floats tokenBytes run name kind = some secret)
    (h : EntryChange floats tokenBytes run name (some (.file (some run) secret mode)) e') :
    ∃ mode', e' = some (.file (some run) secret mode') ∧ (mode' = mode ∨ mode' = 0o444) := by
  cases h with
  | same => exact ⟨mode, rfl, .inl rfl⟩
  | readable => exact ⟨0o444, rfl, .inr rfl⟩
  | write hkind' h hpart =>
    -- only an empty secret could be written again
    rw [kind_unique hkind hkind', hsecret] at h
    cases h
    rw [List.prefix_nil.1 hpart]
    exact ⟨mode, rfl, .inl rfl⟩

/-- Only the run itself creates files of the run. -/
lemma Change.idle {l : ι} (hl : l ≠ run) (h : Change floats tokenBytes l s s') (hs : Idle run s) :
    Idle run s' := by
  intro name content mode hentry
  have hchange := h.entries name
  rw [hentry] at hchange
  generalize hbefore : s.entries name = e at hchange
  cases hchange with
  | same => exact hs name content mode hbefore
  | readable _ _ mode => exact hs name content mode hbefore
  | create => exact hl rfl
  | write => exact hl rfl

/-- Nobody takes away what is there, or makes it a file of another creator. -/
lemma lasting_foreign (name : PyStr) :
    (terms floats tokenBytes run).Lasting (Foreign run name) := by
  refine lasting_of_all fun l s s' hchange hs => ?_
  obtain ⟨e, he, hforeign⟩ := hs
  have hentry := hchange.entries name
  rw [he] at hentry
  generalize hafter : s'.entries name = e' at hentry
  cases hentry with
  | same => exact ⟨e, hafter, hforeign⟩
  | readable creator content mode =>
    refine ⟨_, hafter, fun content' mode' hfile => hforeign content mode ?_⟩
    cases hfile
    rfl
  | @write kind secret content mode =>
    refine ⟨_, hafter, fun content' mode' hfile => hforeign [] mode ?_⟩
    cases hfile
    rfl

/-- The terms of a run that creates nothing yet. -/
abbrev preparing (floats : Json.Floats F) (tokenBytes : ι → PyStr → ℕ → Bytes) (run : ι) :
    Terms (Dir ι) SecretsExn :=
  (terms floats tokenBytes run).promising fun s s' => Idle run s → Idle run s'

lemma lasting_idle : (preparing floats tokenBytes run).Lasting (Idle run) :=
  ⟨stable_of_others fun _ hl _ _ hchange hs => hchange.idle hl hs, fun _ _ hab hs => hab.2 hs⟩

lemma stable_opened (name : PyStr) : (terms floats tokenBytes run).Stable (Opened run name) := by
  refine stable_of_others fun l hl s s' hchange hs => ?_
  obtain ⟨mode, hs⟩ := hs
  have hentry := hchange.entries name
  rw [hs] at hentry
  obtain ⟨mode', hs', -⟩ := hentry.of_other hl
  exact ⟨mode', hs'⟩

lemma lasting_written (hkind : (name, kind) ∈ secretNames) (posix : Bool) :
    (terms floats tokenBytes run).Lasting (Written floats tokenBytes posix run name kind) := by
  refine lasting_of_all fun l s s' hchange hs => ?_
  obtain ⟨secret, mode, hsecret, hs, hmode⟩ := hs
  have hentry := hchange.entries name
  rw [hs] at hentry
  have hkept : ∃ mode', s'.entries name = some (.file (some run) secret mode') ∧
      (mode' = mode ∨ mode' = 0o444) := by
    by_cases hl : l = run
    · subst hl
      exact hentry.of_written hkind hsecret
    · exact hentry.of_other hl
  obtain ⟨mode', hs', hmode'⟩ := hkept
  refine ⟨secret, mode', hsecret, hs', fun hposix => ?_⟩
  rcases hmode' with rfl | rfl
  · exact hmode hposix
  · rfl

end Steps

/-! ## What a run achieves -/

section Runs

variable {floats} {tokenBytes : ι → PyStr → ℕ → Bytes} {room : ι → PyStr → Option ℕ} {run : ι}
  {posix : Bool} {name : PyStr} {kind : SecretKind}

/-- A call that only looks. -/
lemma triple_look {α : Type} {R : α → Dir ι → Prop} (look : Dir ι → α)
    (hR : ∀ a, (preparing floats tokenBytes run).Stable (R a))
    (hlook : ∀ s, Idle run s → R (look s) s) :
    Triple (preparing floats tokenBytes run) (Idle run) (.atomic fun s => .ok (look s, s))
      fun a s => R a s ∧ Idle run s := by
  refine Triple.atomic lasting_idle.1 (fun a => (hR a).and lasting_idle.1) ?_
  rintro s a s' hs h
  cases h
  exact ⟨⟨.refl s, fun hs => hs⟩, hlook s hs, hs⟩

/-- What a run finds before it has created anything is not its own. -/
lemma triple_pathExists (name : PyStr) :
    Triple (preparing floats tokenBytes run) (Idle run) (pathExists name)
      (fun present s => (present = true → Foreign run name s) ∧ Idle run s) := by
  refine triple_look _ (fun _ => (lasting_foreign name).1.imp) fun s hs h => hs.foreign ?_
  split at h
  · exact absurd h (by simp)
  · exact absurd h (by simp)
  · rename_i hnone hdangling
    exact Option.isSome_iff_ne_none.2 hnone

lemma triple_isFile (name : PyStr) :
    Triple (preparing floats tokenBytes run) (Idle run) (isFile name) (fun _ => Idle run) :=
  (triple_look _ (fun _ => .trivially) fun _ _ => trivial).post fun _ _ hs => hs.2

lemma triple_isMissing (name : PyStr) :
    Triple (preparing floats tokenBytes run) (Idle run) (isMissing name)
      (fun missing s => (missing = false → Foreign run name s) ∧ Idle run s) := by
  refine Triple.bind (triple_pathExists name) fun present => ?_
  have hstable : ∀ missing, (preparing floats tokenBytes run).Stable
      fun s => (missing = false → Foreign run name s) ∧ Idle run s :=
    fun _ => .and (.imp (lasting_foreign name).1) lasting_idle.1
  refine (Triple.returned hstable (!present)).pre fun s hs => ⟨fun hmissing => hs.1 ?_, hs.2⟩
  simpa using hmissing

lemma triple_isInvalid (name : PyStr) :
    Triple (preparing floats tokenBytes run) (Idle run) (isInvalid name) (fun _ => Idle run) := by
  have hend : ∀ invalid, Triple (preparing floats tokenBytes run) (Idle run)
      (pure invalid : Creator ι Bool) (fun _ => Idle run) :=
    fun _ => Triple.returned (fun _ => lasting_idle.1) _
  refine Triple.bind (triple_pathExists name) fun present => Triple.ite (fun _ => ?_) fun _ => ?_
  · exact Triple.bind ((triple_isFile name).pre fun _ hs => hs.2) fun file => hend _
  · exact (hend _).pre fun _ hs => hs.2

/-- The names that are kept are some of these, and what is found of a name that is left out
lasts. -/
lemma triple_filterNames {p : PyStr → Creator ι Bool} {R : PyStr → Dir ι → Prop}
    (hR : ∀ name, (preparing floats tokenBytes run).Lasting (R name))
    (hp : ∀ name, Triple (preparing floats tokenBytes run) (Idle run) (p name)
      (fun keep s => (keep = false → R name s) ∧ Idle run s)) (names : List PyStr) :
    Triple (preparing floats tokenBytes run) (Idle run) (filterNames p names)
      (fun kept s => ((∀ name ∈ kept, name ∈ names) ∧
        ∀ name, name ∈ names → name ∉ kept → R name s) ∧ Idle run s) := by
  -- what has been found of a name stays so while the other names are looked at
  have hstable : ∀ (names kept : List PyStr), (preparing floats tokenBytes run).Stable
      fun s => ((∀ name ∈ kept, name ∈ names) ∧
        ∀ name, name ∈ names → name ∉ kept → R name s) ∧ Idle run s :=
    fun names kept => .and (.and (fun _ _ _ h => h) (.all fun name => .imp (.imp (hR name).1)))
      lasting_idle.1
  induction names with
  | nil =>
    refine (Triple.returned (hstable []) []).pre fun s hs => ⟨⟨by simp, ?_⟩, hs⟩
    exact fun name hname => absurd hname (by simp)
  | cons name names ih =>
    refine Triple.bind (hp name) fun keep => ?_
    have hfound : (preparing floats tokenBytes run).Lasting fun s => keep = false → R name s :=
      ⟨.imp (hR name).1, fun a b hab hs hkeep => (hR name).2 a b hab (hs hkeep)⟩
    refine Triple.bind ((ih.frame hfound).pre fun s hs => ⟨hs.2, hs.1⟩) fun rest => ?_
    refine (Triple.returned (hstable (name :: names)) _).pre fun s hs => ?_
    obtain ⟨⟨⟨hsome, hrest⟩, hidle⟩, hfirst⟩ := hs
    refine ⟨?_, hidle⟩
    cases keep with
    | false =>
      refine ⟨fun name' hname' => List.mem_cons_of_mem _ (hsome name' hname'),
        fun name' hname' hleft => ?_⟩
      rcases List.mem_cons.1 hname' with rfl | hname'
      · exact hfirst rfl
      · exact hrest name' hname' hleft
    | true =>
      refine ⟨fun name' hname' => ?_, fun name' hname' hleft => ?_⟩
      · rcases List.mem_cons.1 hname' with rfl | hname'
        · exact List.mem_cons_self
        · exact List.mem_cons_of_mem _ (hsome name' hname')
      · have hkept : name' ≠ name ∧ name' ∉ rest := by simpa using hleft
        rcases List.mem_cons.1 hname' with rfl | hname'
        · exact absurd rfl hkept.1
        · exact hrest name' hname' hkept.2

lemma triple_makeContainerReadable (name : PyStr) :
    Triple (preparing floats tokenBytes run) (Idle run) (makeContainerReadable posix name)
      (fun _ => Idle run) := by
  refine Triple.ite (fun _ => Triple.atomic lasting_idle.1 (fun _ => lasting_idle.1) ?_) fun _ =>
    Triple.returned (fun _ => lasting_idle.1) ()
  rintro s a s' hs h
  have hidle : Change floats tokenBytes run s s' ∧ Idle run s' := by
    split at h
    · cases h
    · cases h
    · rename_i creator content mode hentry
      cases h
      refine ⟨.set (hentry ▸ .readable creator content mode), fun name' content' mode' hfile => ?_⟩
      by_cases hname : name' = name
      · subst hname
        simp only [Dir.set, Function.update_self] at hfile
        cases hfile
        exact hs _ _ _ hentry
      · simp only [Dir.set, Function.update_of_ne hname] at hfile
        exact hs _ _ _ hfile
    · cases h
      exact ⟨.refl s, hs⟩
  exact ⟨⟨hidle.1, fun _ => hidle.2⟩, hidle.2⟩

lemma triple_exposeFiles (names : List PyStr) :
    Triple (preparing floats tokenBytes run) (Idle run) (exposeFiles posix names)
      (fun _ => Idle run) := by
  induction names with
  | nil => exact Triple.returned (fun _ => lasting_idle.1) ()
  | cons name names ih =>
    refine Triple.bind (triple_isFile name) fun file => Triple.bind ?_ fun _ => ih
    exact Triple.ite (fun _ => triple_makeContainerReadable name) fun _ =>
      Triple.returned (fun _ => lasting_idle.1) ()

/-- The directory is for its owner alone. -/
def Private (posix : Bool) (s : Dir ι) : Prop := posix = true → s.mode = some 0o700

lemma lasting_private : (terms floats tokenBytes run).Lasting (Private posix) := by
  refine lasting_of_all fun l s s' hchange hs hposix => ?_
  rcases hchange.mode with hsame | hsame
  · rw [hsame]
    exact hs hposix
  · exact hsame

lemma triple_makeDirectory :
    Triple (preparing floats tokenBytes run) (Idle run) (makeDirectory posix)
      (fun _ s => Private posix s ∧ Idle run s) := by
  have hstable : ∀ _ : Unit, (preparing floats tokenBytes run).Stable
      fun s => Private posix s ∧ Idle run s := fun _ => .and lasting_private.1 lasting_idle.1
  refine Triple.bind (R := fun _ => Idle run)
    (Triple.atomic lasting_idle.1 (fun _ => lasting_idle.1) ?_) fun _ => Triple.ite (fun _ => ?_) ?_
  · rintro s a s' hs h
    cases h
    refine ⟨⟨⟨?_, fun _ => .same _⟩, fun hs => hs⟩, hs⟩
    cases hmode : s.mode with
    | none => exact .inr rfl
    | some mode => exact .inl rfl
  · refine Triple.atomic lasting_idle.1 hstable ?_
    rintro s a s' hs h
    cases h
    exact ⟨⟨⟨.inr rfl, fun _ => .same _⟩, fun hs => hs⟩, fun _ => rfl, hs⟩
  · intro hposix
    exact (Triple.returned hstable ()).pre fun s hs => ⟨fun h => absurd h hposix, hs⟩

lemma triple_openExclusive :
    Triple (terms floats tokenBytes run) (fun _ => True) (openExclusive run name)
      (fun _ => Opened run name) := by
  refine Triple.atomic .trivially (fun _ => stable_opened name) ?_
  rintro s a s' - h
  split at h
  · cases h
  · rename_i hentry
    cases h
    exact ⟨.set (hentry ▸ .create), 0o600, by simp [Dir.set]⟩

variable [DecidableEq ι]

/-- What has arrived in the file is the secret, unless the write has failed. -/
lemma triple_writeSecret (hkind : (name, kind) ∈ secretNames) :
    Triple (terms floats tokenBytes run) (Opened run name)
      (writeSecret floats tokenBytes room run name kind)
      (fun _ => Written floats tokenBytes false run name kind) := by
  have hstable : (terms floats tokenBytes run).Stable
      fun s => room run name = none → Written floats tokenBytes false run name kind s :=
    (lasting_written hkind false).1.imp
  refine Triple.bind (Triple.atomic (stable_opened name) (fun _ => hstable) ?_) fun _ =>
    Triple.ite (fun _ => Triple.raised _ _ _) fun hroom => ?_
  · rintro s a s' ⟨mode, hentry⟩ h
    rw [hentry] at h
    cases hsecret : secretOf floats tokenBytes run name kind with
    | none =>
      rw [hsecret] at h
      cases h
    | some secret =>
      rw [hsecret] at h
      simp only [if_true] at h
      cases h
      have hpart : (room run name).elim secret secret.take <+: secret := by
        cases room run name with
        | none => exact List.prefix_rfl
        | some n => exact List.take_prefix n secret
      refine ⟨.set (hentry ▸ .write hkind hsecret hpart), fun hroom =>
        ⟨secret, mode, hsecret, ?_, by simp⟩⟩
      simp [Dir.set, hroom]
  · exact (Triple.returned (fun _ => (lasting_written hkind false).1) ()).pre fun s hs =>
      hs (by simpa using hroom)

/-- A file that is created holds the secret of the run from then on. -/
lemma triple_createSecret (hkind : (name, kind) ∈ secretNames) :
    Triple (terms floats tokenBytes run) (fun _ => True)
      (createSecret floats posix tokenBytes room run name kind)
      (fun _ => Written floats tokenBytes posix run name kind) := by
  refine Triple.bind triple_openExclusive fun _ => Triple.bind (triple_writeSecret hkind) fun _ =>
    Triple.ite (fun hposix => ?_) fun hposix => ?_
  · refine Triple.atomic (lasting_written hkind false).1
      (fun _ => (lasting_written hkind posix).1) ?_
    rintro s a s' ⟨secret, mode, hsecret, hentry, -⟩ h
    rw [hentry] at h
    cases h
    refine ⟨.set (hentry ▸ .readable _ secret mode), secret, 0o444, hsecret, ?_, fun _ => rfl⟩
    simp [Dir.set]
  · refine (Triple.returned (fun _ => (lasting_written hkind posix).1) ()).pre ?_
    rintro s ⟨secret, mode, hsecret, hentry, -⟩
    exact ⟨secret, mode, hsecret, hentry, fun h => absurd h hposix⟩

lemma triple_createMissing (missing : List PyStr) {list : List (PyStr × SecretKind)}
    (hlist : ∀ p ∈ list, p ∈ secretNames) :
    Triple (terms floats tokenBytes run) (fun _ => True)
      (createMissing floats posix tokenBytes room run missing list)
      (fun _ s => ∀ p, p ∈ list → p.1 ∈ missing →
        Written floats tokenBytes posix run p.1 p.2 s) := by
  induction list with
  | nil =>
    refine (Triple.returned (R := fun _ _ => True) (fun _ => .trivially) ()).post ?_
    simp
  | cons p list ih =>
    obtain ⟨name, kind⟩ := p
    rw [List.forall_mem_cons] at hlist
    have hlasting : (terms floats tokenBytes run).Lasting
        (Written floats tokenBytes posix run name kind) := lasting_written hlist.1 posix
    have hfirst : (terms floats tokenBytes run).Lasting fun s =>
        name ∈ missing → Written floats tokenBytes posix run name kind s :=
      ⟨.imp hlasting.1, fun a b hab hs hname => hlasting.2 a b hab (hs hname)⟩
    have hothers := ((ih hlist.2).frame hfirst).pre fun s hs => ⟨trivial, hs⟩
    refine Triple.bind (Triple.ite (fun hname => ?_) fun hname => ?_) fun _ => hothers.post ?_
    · exact (triple_createSecret hlist.1).post fun _ s hs _ => hs
    · exact (Triple.returned (fun _ => hfirst.1) ()).pre fun s _ h => absurd h hname
    · rintro _ s ⟨hrest, hhead⟩ p hp hmissing
      rcases List.mem_cons.1 hp with rfl | hp
      · exact hhead hmissing
      · exact hrest p hp hmissing

/-- What holds once a run has returned: the directory is private; under each name stands the
secret that the run has created, or something that it has not; and it has created one. -/
def Finished (floats : Json.Floats F) (tokenBytes : ι → PyStr → ℕ → Bytes) (posix : Bool) (run : ι)
    (s : Dir ι) : Prop :=
  Private posix s ∧
    (∀ p ∈ secretNames, Written floats tokenBytes posix run p.1 p.2 s ∨ Foreign run p.1 s) ∧
    ∃ p ∈ secretNames, Written floats tokenBytes posix run p.1 p.2 s

/-- A run that returns is finished, whatever the others do meanwhile. -/
lemma triple_createLocalSecrets :
    Triple (terms floats tokenBytes run) (Idle run)
      (createLocalSecrets floats posix tokenBytes room run)
      (fun _ => Finished floats tokenBytes posix run) := by
  have hprivate : (preparing floats tokenBytes run).Lasting (Private posix) :=
    lasting_private.promising _
  have hswap : ∀ s : Dir ι, Private posix s ∧ Idle run s → Idle run s ∧ Private posix s :=
    fun _ => And.symm
  refine Triple.bind triple_makeDirectory.of_promising fun _ => ?_
  -- from here on the directory is private
  refine Triple.bind (((triple_filterNames (R := fun _ _ => True)
    (fun _ => ⟨.trivially, fun _ _ _ _ => trivial⟩)
    (fun name => (triple_isInvalid name).post fun _ _ hs => ⟨fun _ => trivial, hs⟩) _).frame
      hprivate).pre hswap).of_promising fun invalid => ?_
  refine Triple.ite (fun _ => Triple.raised _ _ _) fun _ => ?_
  refine Triple.bind (((triple_exposeFiles _).frame hprivate).pre
    fun s hs => ⟨hs.1.2, hs.2⟩).of_promising fun _ => ?_
  refine Triple.bind ((triple_filterNames (fun name => (lasting_foreign name).promising _)
    triple_isMissing _).frame hprivate).of_promising fun missing => ?_
  refine Triple.ite (fun _ => Triple.raised _ _ _) fun hmissing => ?_
  -- what the run has found under the other names stays there while it creates its files
  have hlasting : (terms floats tokenBytes run).Lasting fun s : Dir ι =>
      ((∀ name ∈ missing, name ∈ secretNames.map (·.1)) ∧
        ∀ name, name ∈ secretNames.map (·.1) → name ∉ missing → Foreign run name s) ∧
          Private posix s :=
    ⟨.and (.and (fun _ _ _ h => h) (.all fun name => .imp (.imp (lasting_foreign name).1)))
        lasting_private.1,
      fun a b hab hs => ⟨⟨hs.1.1, fun name hname hleft =>
        (lasting_foreign name).2 a b hab (hs.1.2 name hname hleft)⟩,
        lasting_private.2 a b hab hs.2⟩⟩
  refine (((triple_createMissing missing fun _ h => h).frame hlasting).pre
    fun s hs => ⟨trivial, hs.1.1, hs.2⟩).post ?_
  rintro _ s ⟨hwritten, ⟨hsome, hforeign⟩, hdir⟩
  refine ⟨hdir, fun p hp => ?_, ?_⟩
  · by_cases hname : p.1 ∈ missing
    · exact .inl (hwritten p hp hname)
    · exact .inr (hforeign p.1 (List.mem_map_of_mem hp) hname)
  · obtain ⟨name, hname⟩ := List.exists_mem_of_ne_nil missing hmissing
    obtain ⟨p, hp, rfl⟩ := List.mem_map.1 (hsome name hname)
    exact ⟨p, hp, hwritten p hp hname⟩

end Runs

/-! ## Any number of runs -/

section Pools

variable {floats} {tokenBytes : ι → PyStr → ℕ → Bytes} {room : ι → PyStr → Option ℕ}
  {posix : Bool} {l : ι} {s s' : Dir ι}

/-- A file that a run has created is empty, or holds a first part of the secret of that run. -/
def Sound (floats : Json.Floats F) (tokenBytes : ι → PyStr → ℕ → Bytes) (s : Dir ι) : Prop :=
  ∀ name creator content mode, s.entries name = some (.file (some creator) content mode) →
    content = [] ∨ ∃ kind secret, (name, kind) ∈ secretNames ∧
      secretOf floats tokenBytes creator name kind = some secret ∧ content <+: secret

lemma Change.sound (h : Change floats tokenBytes l s s') (hs : Sound floats tokenBytes s) :
    Sound floats tokenBytes s' := by
  intro name creator content mode hentry
  have hchange := h.entries name
  rw [hentry] at hchange
  generalize hbefore : s.entries name = e at hchange
  cases hchange with
  | same => exact hs name creator content mode hbefore
  | readable _ _ mode => exact hs name creator content mode hbefore
  | create => exact .inl rfl
  | write hkind hsecret hpart => exact .inr ⟨_, _, hkind, hsecret, hpart⟩

/-- A file holds this content, which no run is still to write. -/
def Holds (name : PyStr) (creator : Option ι) (content : Bytes) (s : Dir ι) : Prop :=
  (creator = none ∨ content ≠ []) ∧ ∃ mode, s.entries name = some (.file creator content mode)

lemma Change.holds (h : Change floats tokenBytes l s s') {name : PyStr} {creator : Option ι}
    {content : Bytes} (hs : Holds name creator content s) : Holds name creator content s' := by
  obtain ⟨hfilled, mode, hentry⟩ := hs
  have hchange := h.entries name
  rw [hentry] at hchange
  generalize hafter : s'.entries name = e at hchange
  refine ⟨hfilled, ?_⟩
  cases hchange with
  | same => exact ⟨mode, hafter⟩
  | readable => exact ⟨_, hafter⟩
  | write => exact absurd rfl (hfilled.resolve_left (by simp))

variable [DecidableEq ι]

/-- However the calls of any number of runs are interleaved, whichever of them fail and whichever
runs are killed: a file with a content keeps it to the end, whoever has created it; a file that
a run has created is empty or holds a first part of the secret of that run; and once a run has
returned, the directory is private, and under each name stands the whole secret of the run,
readable to the containers, or something that the run has not created; at least one is its own. -/
theorem createLocalSecrets_runs {p p' : Pool (Dir ι) SecretsExn Unit ι}
    {tr : List (Runs.Taken (Pool (Dir ι) SecretsExn Unit ι) (PoolEvent (Dir ι) ι))}
    (hstart : p.clients = [])
    (hfresh : ∀ name creator content mode,
      p.state.entries name ≠ some (.file (some creator) content mode))
    (hrun : Pool.Run (.alone (· = .os)) (createLocalSecrets floats posix tokenBytes room) p tr p') :
    (∀ t ∈ tr, ∀ name creator content, Holds name creator content t.before.state →
      Holds name creator content p'.state) ∧
    Sound floats tokenBytes p'.state ∧
    ∀ c ∈ p'.clients, c.prog = .done (.ok ()) →
      Finished floats tokenBytes posix c.request p'.state := by
  have hprog : ∀ (l : ι) (s : Dir ι), Idle l s → WP (terms floats tokenBytes l)
      (Returns fun _ => Finished floats tokenBytes posix l)
      (createLocalSecrets floats posix tokenBytes room l) [] s :=
    fun l s hs => triple_createLocalSecrets [] s hs
  have hidle : ∀ l : ι, Idle l p.state := fun l name content mode => hfresh name l content mode
  obtain ⟨hguarantee, hmeets⟩ := Pool.Meets.run (fun _ => lasting_idle.1) hprog
    (Pool.Meets.empty hstart hidle) hrun fun _ _ _ _ _ => trivial
  have hstep : ∀ t ∈ tr, t.after.state = t.before.state ∨
      ∃ l, Change floats tokenBytes l t.before.state t.after.state := by
    intro t ht
    rcases (hrun.step_of_mem t ht).commits with hsame | ⟨l, hcommits⟩
    · exact .inl hsame
    · refine .inr ⟨l, hguarantee t ht l (t.before.state, t.after.state) ?_⟩
      rw [hcommits]
      exact List.mem_singleton_self _
  have hstart' : Sound floats tokenBytes p.state := fun name creator content mode hentry =>
    absurd hentry (hfresh name creator content mode)
  obtain ⟨hend, -⟩ := hrun.kept (I := fun q => Sound floats tokenBytes q.state)
    (fun t ht hs => by
      rcases hstep t ht with hsame | ⟨l, hchange⟩
      · rw [hsame]
        exact hs
      · exact hchange.sound hs) hstart'
  refine ⟨fun t ht name creator content hs => ?_, hend, fun c hc hdone => ?_⟩
  · refine hrun.lasts (I := fun q => Holds name creator content q.state) (fun t ht hs => ?_) ht hs
    rcases hstep t ht with hsame | ⟨l, hchange⟩
    · rw [hsame]
      exact hs
    · exact hchange.holds hs
  · have hwp := hmeets.client c hc
    rw [hdone] at hwp
    exact hwp p'.state .refl () rfl

/-- A directory in which one secret is there already. -/
def sampleDir : Dir Unit where
  mode := none
  entries := Function.update (fun _ => none) (py "master_key") (some (.file none [1] 0o600))

/-- The secrets of a run. -/
def sampleBytes (_ : Unit) (_ : PyStr) (n : ℕ) : Bytes := List.replicate n 7

/-- There is room for every secret. -/
def sampleRoom (_ : Unit) (_ : PyStr) : Option ℕ := none

/-- Numbers of a document that has none but integers. -/
def noFloats : Json.Floats Unit := ⟨fun _ => (), fun _ => [], fun _ _ => false⟩

lemma sampleDir_run :
    ((createLocalSecrets noFloats true sampleBytes sampleRoom ()).run sampleDir).1 = .ok () := by
  decide +kernel

/-- A run that fills the directory leaves the secret that is there. -/
theorem createLocalSecrets_runs_sample :
    Holds (py "master_key") none [1]
        ((createLocalSecrets noFloats true sampleBytes sampleRoom ()).run sampleDir).2 ∧
      Finished noFloats sampleBytes true ()
        ((createLocalSecrets noFloats true sampleBytes sampleRoom ()).run sampleDir).2 := by
  obtain ⟨tr, hrun, ⟨t, ht, hbefore⟩, -⟩ := Pool.Run.of_start (.alone (· = SecretsExn.os))
    (createLocalSecrets noFloats true sampleBytes sampleRoom) () sampleDir
  have hdone := sampleDir_run
  -- the end of the run is not to be computed again
  generalize (createLocalSecrets noFloats true sampleBytes sampleRoom ()).run sampleDir = r
    at hrun hdone ⊢
  have hfresh : ∀ name creator content mode,
      sampleDir.entries name ≠ some (.file (some creator) content mode) := by
    intro name creator content mode
    by_cases hname : name = py "master_key"
    · simp [sampleDir, hname]
    · simp [sampleDir, hname]
  obtain ⟨hkept, -, hfinished⟩ := createLocalSecrets_runs rfl hfresh hrun
  have hholds : Holds (py "master_key") none [1] t.before.state := by
    rw [hbefore]
    exact ⟨.inl rfl, 0o600, by simp [sampleDir]⟩
  exact ⟨hkept t ht _ _ _ hholds, hfinished _ List.mem_cons_self (congrArg Prog.done hdone)⟩

end Pools

end LocalSecrets

end MailGate
