import MailGate.Crypto.RotateKeyring

/-!
# What the parts of the rotation tool do

Under the lock a run is alone with the files.  Here is what each part of the tool does then:
the parts that read say what they have read, and the parts that write say what they promise
about the keyring.
-/

namespace MailGate

open Transaction

variable {F Key : Type} {floats : Json.Floats F} {fernet : Fernet Key} {keep : Prop}

/-! ## The keyring in the directory -/

/-- The document in the bytes of a file. -/
def fileKeyring (floats : Json.Floats F) (fernet : Fernet Key) (content : Bytes) :
    Option (KeyringDocument floats fernet) := do
  let text ← Bytes.decodeUtf8 false content
  (parseKeyring floats fernet (PyStr.strip text)).toOption

/-- The keyring of a directory: the document in a regular file. -/
def SecretsDir.keyring (floats : Json.Floats F) (fernet : Fernet Key) (s : SecretsDir) :
    Option (KeyringDocument floats fernet) :=
  s.masterKeyring.bind fun file =>
    if file.regular then fileKeyring floats fernet file.content else none

/-- Every key is still there, under its ID. -/
def KeyringDocument.Extends (old new : KeyringDocument floats fernet) : Prop :=
  ∀ keyId value, old.keys.lookup keyId = some value → new.keys.lookup keyId = some value

/-- What one run may do to the directory in one step; `keep` says that keys are to be kept. -/
inductive ToolStep (floats : Json.Floats F) (fernet : Fernet Key) (keep : Prop) (run : RotationRun)
    (a b : SecretsDir) : Prop where
  | look (h : b = a)
  | acquire (hfree : a.lock = none) (h : b = { a with lock := some run })
  /-- It changes its temporary file, or gives the lock back. -/
  | work (hlock : a.lock = some run) (hkeyring : b.masterKeyring = a.masterKeyring)
      (hkey : b.masterKey = a.masterKey)
  | write (hlock : a.lock = some run) (hkey : b.masterKey = a.masterKey)
      {document : KeyringDocument floats fernet}
      (hdocument : b.keyring floats fernet = some document)
      (hprimary : document.primary = run.newPrimaryId)
      (hextends : keep → ∀ old, a.keyring floats fernet = some old → old.Extends document)

/-- The terms on which the parts of the tool are looked at: what a run may do is promised, and
nobody else touches the directory of the one that holds the lock. -/
structure Suits (floats : Json.Floats F) (fernet : Fernet Key) (keep : Prop)
    (T : Terms SecretsDir ToolExn) (run : RotationRun) : Prop where
  quiet : ∀ s, s.lock = some run → T.Quiet s
  promise : ∀ a b, ToolStep floats fernet keep run a b → T.guarantee a b

/-! ## Parts of a run -/

/-- A part of a run that holds the lock: where it returns, it returns in `φ`, and the lock is
still held however it ends. -/
def Works {α : Type} (floats : Json.Floats F) (fernet : Fernet Key) (keep : Prop)
    (run : RotationRun) (p : Tool α) (φ : α → Assertion SecretsDir) : Assertion SecretsDir :=
  fun own s =>
  ∀ (T : Terms SecretsDir ToolExn) (Q : Except ToolExn α → Assertion SecretsDir),
    Suits floats fernet keep T run → s.lock = some run →
    (∀ a own' s', s'.lock = some run → φ a own' s' → Q (.ok a) own' s') →
    (∀ e own' s', s'.lock = some run → Q (.error e) own' s') → WP T Q p own s

namespace Works

variable {run : RotationRun} {α β : Type} {p : Tool α} {φ ψ : α → Assertion SecretsDir}
  {s : SecretsDir} {own : List (SecretsDir × SecretsDir)}

lemma done (r : Except ToolExn α) (h : ∀ a, r = .ok a → φ a own s) :
    Works floats fernet keep run (.done r) φ own s := by
  intro T Q hT hlock hok herror
  refine WP.done_quiet (hT.quiet s hlock) ?_
  cases r with
  | ok a => exact hok a own s hlock (h a rfl)
  | error e => exact herror e own s hlock

lemma raise (message : String) :
    Works floats fernet keep run (raiseTool message : Tool α) φ own s :=
  done _ fun _ h => by cases h

lemma mono (h : Works floats fernet keep run p φ own s)
    (hψ : ∀ a own' s', φ a own' s' → ψ a own' s') : Works floats fernet keep run p ψ own s := by
  intro T Q hT hlock hok herror
  exact h T Q hT hlock (fun a own' s' hlock' h' => hok a own' s' hlock' (hψ a own' s' h')) herror

lemma bind {k : α → Tool β} {ψ : β → Assertion SecretsDir}
    (hp : Works floats fernet keep run p φ own s)
    (hk : ∀ a own' s', s'.lock = some run → φ a own' s' →
      Works floats fernet keep run (k a) ψ own' s') :
    Works floats fernet keep run (p >>= k) ψ own s := by
  intro T Q hT hlock hok herror
  refine WP.bind (hp T _ hT hlock (fun a own' s' hlock' h => ?_) fun e own' s' hlock' => ?_)
  · exact hk a own' s' hlock' h T Q hT hlock' hok herror
  · exact WP.done_quiet (hT.quiet s' hlock') (herror e own' s' hlock')

lemma onOSError (message : String) (hp : Works floats fernet keep run p φ own s) :
    Works floats fernet keep run (onOSError message p) φ own s := by
  intro T Q hT hlock hok herror
  have hfail : ∀ e own' s', s'.lock = some run → WP T Q (.done (.error e)) own' s' :=
    fun e own' s' hlock' => WP.done_quiet (hT.quiet s' hlock') (herror e own' s' hlock')
  refine WP.tryCatch (hp T _ hT hlock (fun a own' s' hlock' h => ?_) fun e own' s' hlock' => ?_)
  · exact WP.done_quiet (hT.quiet s' hlock') (hok a own' s' hlock' h)
  · cases e <;> exact hfail _ own' s' hlock'

lemma finallyDo {cleanup : Tool Unit} (hp : Works floats fernet keep run p φ own s)
    (hcleanup : ∀ own₁ s₁, s₁.lock = some run → Works floats fernet keep run cleanup
      (fun _ own₂ s₂ => ∀ a, φ a own₁ s₁ → φ a own₂ s₂) own₁ s₁) :
    Works floats fernet keep run (p.finallyDo cleanup) φ own s := by
  intro T Q hT hlock hok herror
  refine WP.finallyDo (hp T _ hT hlock (fun a own₁ s₁ hlock₁ h => ?_) fun e own₁ s₁ hlock₁ => ?_)
  · refine hcleanup own₁ s₁ hlock₁ T _ hT hlock₁ (fun _ own₂ s₂ hlock₂ hkept => ?_) herror
    exact hok a own₂ s₂ hlock₂ (hkept a h)
  · exact hcleanup own₁ s₁ hlock₁ T _ hT hlock₁ (fun _ own₂ s₂ hlock₂ _ => herror e own₂ s₂ hlock₂)
      herror

lemma ite {c : Prop} [Decidable c] {q : Tool α} (hp : c → Works floats fernet keep run p φ own s)
    (hq : ¬c → Works floats fernet keep run q φ own s) :
    Works floats fernet keep run (if c then p else q) φ own s := by
  split
  · rename_i h
    exact hp h
  · rename_i h
    exact hq h

/-- One change of the directory. -/
lemma change {f : SecretsDir → Except ToolExn SecretsDir} {φ : Unit → Assertion SecretsDir}
    (hf : ∀ s', s.lock = some run → f s = .ok s' →
      s'.lock = some run ∧ ToolStep floats fernet keep run s s' ∧
        ∀ own', own ⊆ own' → (s, s') ∈ own' → φ () own' s') :
    Works floats fernet keep run (change f) φ own s := by
  intro T Q hT hlock hok herror
  refine WP.atomic_quiet (hT.quiet s hlock) ?_ fun e => herror e own s hlock
  intro u s' hbody _
  have hs' : f s = .ok s' := by
    cases hfs : f s with
    | error e => simp [hfs, Except.map] at hbody
    | ok s'' =>
      obtain rfl : s'' = s' := by simpa [hfs, Except.map] using hbody
      rfl
  obtain ⟨hlock', hstep, hφ⟩ := hf s' hlock hs'
  refine ⟨hT.promise _ _ hstep, hT.quiet _ hlock', ?_⟩
  rintro r (rfl | ⟨e, rfl⟩)
  · exact hok () _ s' hlock' (hφ _ (List.subset_append_left _ _) (by simp))
  · exact herror e _ s' hlock'

end Works

/-! ## Parts that read -/

/-- The part leaves the directory as it is, and what it returns is in the relation `φ` to it. -/
def Reads {α : Type} (floats : Json.Floats F) (fernet : Fernet Key) (keep : Prop)
    (run : RotationRun) (p : Tool α) (φ : SecretsDir → α → Prop) : Prop :=
  ∀ own s, Works floats fernet keep run p (fun a own' s' => own ⊆ own' ∧ s' = s ∧ φ s a) own s

namespace Reads

variable {run : RotationRun} {α β : Type} {p : Tool α} {φ : SecretsDir → α → Prop}

lemma done (r : Except ToolExn α) (h : ∀ s a, r = .ok a → φ s a) :
    Reads floats fernet keep run (.done r) φ := fun _ s =>
  .done r fun a ha => ⟨List.Subset.refl _, rfl, h s a ha⟩

lemma raise (message : String) : Reads floats fernet keep run (raiseTool message : Tool α) φ :=
  done _ fun _ _ h => by cases h

lemma observe {f : SecretsDir → Except ToolExn α} (h : ∀ s a, f s = .ok a → φ s a) :
    Reads floats fernet keep run (observe f) φ := by
  intro own s T Q hT hlock hok herror
  refine WP.atomic_quiet (hT.quiet s hlock) ?_ fun e => herror e own s hlock
  intro a s' hbody _
  obtain ⟨a', ha', heq⟩ : ∃ a', f s = .ok a' ∧ (a', s) = (a, s') := by
    cases hf : f s with
    | error e => simp [hf, Except.map] at hbody
    | ok a' => exact ⟨a', rfl, by simpa [hf, Except.map] using hbody⟩
  obtain ⟨rfl, rfl⟩ := Prod.mk.inj heq
  refine ⟨hT.promise _ _ (.look rfl), hT.quiet _ hlock, ?_⟩
  rintro r (rfl | ⟨e, rfl⟩)
  · exact hok a' _ s hlock ⟨List.subset_append_left _ _, rfl, h s a' ha'⟩
  · exact herror e _ s hlock

lemma systemCall : Reads floats fernet keep run systemCall fun _ _ => True :=
  observe fun _ _ _ => trivial

lemma bind {k : α → Tool β} {ψ : SecretsDir → β → Prop} (hp : Reads floats fernet keep run p φ)
    (hk : ∀ a, Reads floats fernet keep run (k a) fun s b => φ s a → ψ s b) :
    Reads floats fernet keep run (p >>= k) ψ := by
  intro own s
  refine (hp own s).bind ?_
  rintro a own₁ s₁ - ⟨hown, rfl, ha⟩
  refine (hk a own₁ s₁).mono ?_
  rintro b own₂ s₂ ⟨hown', rfl, hb⟩
  exact ⟨List.Subset.trans hown hown', rfl, hb ha⟩

lemma onOSError (message : String) (hp : Reads floats fernet keep run p φ) :
    Reads floats fernet keep run (onOSError message p) φ :=
  fun own s => (hp own s).onOSError message

lemma finallyDo {cleanup : Tool Unit} (hp : Reads floats fernet keep run p φ)
    (hcleanup : Reads floats fernet keep run cleanup fun _ _ => True) :
    Reads floats fernet keep run (p.finallyDo cleanup) φ := by
  intro own s
  refine (hp own s).finallyDo fun own₁ s₁ _ => (hcleanup own₁ s₁).mono ?_
  rintro - own₂ s₂ ⟨hown', rfl, -⟩ a ⟨hown, rfl, ha⟩
  exact ⟨List.Subset.trans hown hown', rfl, ha⟩

lemma ite {c : Prop} [Decidable c] {q : Tool α} (hp : c → Reads floats fernet keep run p φ)
    (hq : ¬c → Reads floats fernet keep run q φ) :
    Reads floats fernet keep run (if c then p else q) φ :=
  fun own s => .ite (fun h => hp h own s) fun h => hq h own s

/-- Work that goes on after a part that reads. -/
lemma works {k : α → Tool β} {ψ : β → Assertion SecretsDir} {s : SecretsDir}
    {own : List (SecretsDir × SecretsDir)} (hp : Reads floats fernet keep run p φ)
    (hk : ∀ a own', own ⊆ own' → φ s a → Works floats fernet keep run (k a) ψ own' s) :
    Works floats fernet keep run (p >>= k) ψ own s := by
  refine (hp own s).bind ?_
  rintro a own' s' - ⟨hown, rfl, ha⟩
  exact hk a own' hown ha

end Reads

section

variable (run : RotationRun)

lemma reads_requireSecureDirectory :
    Reads floats fernet keep run requireSecureDirectory fun _ _ => True := by
  refine Reads.bind (φ := fun _ _ => True) (.onOSError _ (.observe fun _ _ _ => trivial)) ?_
  rintro ⟨real, ownerOnly⟩
  refine .ite (fun _ => .raise _) fun _ => .ite (fun _ => .raise _) fun _ => ?_
  exact .done _ fun _ _ _ _ => trivial

lemma reads_lookAt (path : SecretPath) :
    Reads floats fernet keep run (lookAt path) fun s file => s.file path = some file := by
  refine .observe ?_
  intro s file h
  cases hfile : s.file path with
  | none => simp [hfile] at h
  | some file' => simpa [hfile] using h

lemma reads_present (blind : Bool) : Reads floats fernet keep run (present blind) fun s there =>
    there = (!blind && s.masterKeyring.isSome) :=
  .observe fun _ _ h => (Except.ok.inj h).symm

/-- What a run has read is the text of a regular file. -/
lemma reads_readSecret (path : SecretPath) : Reads floats fernet keep run (readSecret path)
    fun s secret => ∃ file, s.file path = some file ∧ file.regular = true ∧
      secretText (file.content.take (maximumSecretBytes + 1)) = .ok secret.1 := by
  refine Reads.bind (.onOSError _ (reads_lookAt run path)) fun before => ?_
  refine .ite (fun _ => .raise _) fun hregular => ?_
  refine Reads.bind (.onOSError _ (reads_lookAt run path)) fun opened => ?_
  have hdata : Reads floats fernet keep run ((onOSError "Unable to read a required secret file" (do
      systemCall
      if opened.inode ≠ before.inode then
        raiseTool "A secret file changed while it was being opened"
      else observe fun _ => .ok (opened.content.take (maximumSecretBytes + 1)))).finallyDo
        systemCall) fun _ data => data = opened.content.take (maximumSecretBytes + 1) := by
    refine .finallyDo (.onOSError _ (.bind .systemCall fun _ => ?_)) .systemCall
    refine .ite (fun _ => .raise _) fun _ => ?_
    exact .observe fun _ _ h _ => (Except.ok.inj h).symm
  refine Reads.bind hdata fun data => ?_
  refine Reads.bind (φ := fun _ value => secretText data = .ok value)
    (.done _ fun _ _ h => h) fun value => ?_
  refine .done _ ?_
  rintro s _ ⟨⟩ hvalue rfl hopened hbefore
  obtain rfl : before = opened := Option.some.inj (hbefore.symm.trans hopened)
  exact ⟨before, hbefore, by simpa using hregular, hvalue⟩

/-- The text that a run reads is the text of the whole file. -/
lemma decode_of_secretText {content : Bytes} {value : PyStr}
    (h : secretText (content.take (maximumSecretBytes + 1)) = .ok value) :
    ∃ text, Bytes.decodeUtf8 false content = some text ∧ value = PyStr.strip text := by
  unfold secretText at h
  split at h
  · cases h
  rename_i hlength
  have hwhole : content.take (maximumSecretBytes + 1) = content := by
    rw [List.take_of_length_le]
    rw [List.length_take] at hlength
    omega
  rw [hwhole] at h
  split at h
  · cases h
  rename_i text htext
  split at h
  · cases h
  exact ⟨text, htext, (Except.ok.inj h).symm⟩

lemma reads_loadKeyring : Reads floats fernet keep run (loadKeyring floats fernet)
    fun s loaded => s.keyring floats fernet = some loaded.1 := by
  refine Reads.bind (reads_readSecret run .masterKeyring) fun secret => ?_
  obtain ⟨raw, mode⟩ := secret
  refine Reads.bind (φ := fun _ document => parseKeyring floats fernet raw = .ok document)
    (.done _ fun _ _ h => h) fun document => ?_
  refine .done _ ?_
  rintro s _ ⟨⟩ hparse ⟨file, hfile, hregular, htext⟩
  obtain ⟨text, hdecode, hraw⟩ := decode_of_secretText htext
  subst hraw
  have hfile' : s.masterKeyring = some file := hfile
  simp [SecretsDir.keyring, hfile', hregular, fileKeyring, hdecode, hparse]

end

/-! ## The written file -/

lemma strip_line {c d : PyChar} (mid : PyStr) (hc : c.isSpace = false) (hd : d.isSpace = false) :
    PyStr.strip (c :: (mid ++ [d]) ++ py "\n") = c :: (mid ++ [d]) := by
  have hline : py "\n" = [ofChar '\n'] := by decide
  have hspace : (ofChar '\n').isSpace = true := by decide
  have hright : ((c :: mid) ++ [d]).rdropWhile PyChar.isSpace = (c :: mid) ++ [d] :=
    List.rdropWhile_concat_neg _ _ _ (by simp [hd])
  have hshape : c :: (mid ++ [d]) ++ py "\n" = ((c :: mid) ++ [d]) ++ [ofChar '\n'] := by
    simp [hline]
  have hleft : (((c :: mid) ++ [d]) ++ [ofChar '\n']).dropWhile PyChar.isSpace =
      ((c :: mid) ++ [d]) ++ [ofChar '\n'] :=
    List.dropWhile_cons_of_neg (by simp [hc])
  rw [hshape, PyStr.strip, hleft, List.rdropWhile_concat_pos _ _ _ hspace, hright]
  simp

/-- The text of a document is an object. -/
lemma serialized_shape (hone : ∀ f, floats.eqInt f 1 = true → floats.Faithful f)
    (document : KeyringDocument floats fernet) :
    ∃ mid, document.serialized = ofChar '\x7b' :: (mid ++ [ofChar '\x7d']) := by
  have hclose : py "\x7d" = [ofChar '\x7d'] := by decide
  rw [KeyringDocument.serialized, Json.dumps, KeyringDocument.sortKeys_toJson hone, Json.render,
    hclose]
  refine ⟨Json.renderString (py "keys") ++ ofChar ':' ::
    (Json.render floats (.object (KeyringDocument.entries document.sorted.keys)) ++
      Json.renderMembers floats [(py "primary", .string document.primary),
        (py "version", document.version)]), ?_⟩
  simp

lemma serialized_printable (hone : ∀ f, floats.eqInt f 1 = true → floats.Faithful f)
    (document : KeyringDocument floats fernet) :
    ∀ c ∈ document.serialized, Json.Printable c :=
  Json.render_printable _ (Json.sortKeys_ok _ (KeyringDocument.toJson_ok hone document))

/-- What the file that is written decodes to. -/
lemma decodeUtf8_serialized (hone : ∀ f, floats.eqInt f 1 = true → floats.Faithful f)
    (document : KeyringDocument floats fernet) {content : Bytes}
    (h : (document.serialized ++ py "\n").encode = some content) :
    content.length = document.serialized.length + 1 ∧
      Bytes.decodeUtf8 false content = some (document.serialized ++ py "\n") ∧
      PyStr.strip (document.serialized ++ py "\n") = document.serialized := by
  have hascii : ∀ c ∈ document.serialized ++ py "\n", c.val < 0x80 := by
    intro c hc
    rcases List.mem_append.1 hc with hc | hc
    · exact lt_trans (serialized_printable hone document c hc).2 (by decide)
    · have hline : py "\n" = [ofChar '\n'] := by decide
      rw [hline, List.mem_singleton] at hc
      rw [hc]
      decide
  obtain ⟨encoded, hencoded⟩ := PyStr.encodeAscii_isSome hascii
  obtain rfl : encoded = content := by
    rw [PyStr.encode_of_encodeAscii hencoded] at h
    exact Option.some.inj h
  refine ⟨?_, Bytes.decodeUtf8_of_decodeAscii (PyStr.decodeAscii_of_encodeAscii hencoded), ?_⟩
  · rw [PyStr.encodeAscii_length hencoded, List.length_append]
    rfl
  · obtain ⟨mid, hmid⟩ := serialized_shape hone document
    rw [hmid]
    exact strip_line mid (by decide) (by decide)

/-- The file that is written holds the document. -/
lemma fileKeyring_serialized (hone : ∀ f, floats.eqInt f 1 = true → floats.Faithful f)
    (document : KeyringDocument floats fernet) {content : Bytes}
    (h : (document.serialized ++ py "\n").encode = some content) :
    fileKeyring floats fernet content = some document.sorted := by
  obtain ⟨-, hdecode, hstrip⟩ := decodeUtf8_serialized hone document h
  simp [fileKeyring, hdecode, hstrip, KeyringDocument.parseKeyring_serialized hone]

/-- `read_secret` takes the file where it is not too large. -/
lemma secretText_serialized (hone : ∀ f, floats.eqInt f 1 = true → floats.Faithful f)
    (document : KeyringDocument floats fernet) {content : Bytes}
    (h : (document.serialized ++ py "\n").encode = some content)
    (hlength : document.serialized.length < maximumSecretBytes) :
    secretText content = .ok document.serialized := by
  obtain ⟨hcontent, hdecode, hstrip⟩ := decodeUtf8_serialized hone document h
  have hne : document.serialized ≠ [] := by
    obtain ⟨mid, hmid⟩ := serialized_shape hone document
    rw [hmid]
    exact List.cons_ne_nil _ _
  have hzero : (0 : PyChar) ∉ document.serialized := fun hmem =>
    absurd (serialized_printable hone document 0 hmem).1 (by decide)
  simp only [secretText, hdecode, hstrip]
  rw [if_neg (by omega), if_neg (by simp [hne, hzero])]

/-- What the rotation tool reads of a keyring that nobody changes meanwhile. -/
lemma run_loadKeyring {s : SecretsDir} {file : SecretFile} {text : PyStr}
    {document : KeyringDocument floats fernet} (hfile : s.masterKeyring = some file)
    (hregular : file.regular = true) (htext : secretText file.content = .ok text)
    (hparse : parseKeyring floats fernet text = .ok document) :
    (loadKeyring floats fernet).run s = (.ok (document, file.mode), s) := by
  have hlength : file.content.length ≤ maximumSecretBytes := by
    by_contra hlong
    rw [secretText, if_pos (not_le.1 hlong)] at htext
    cases htext
  have htake : file.content.take (maximumSecretBytes + 1) = file.content :=
    List.take_of_length_le (by omega)
  have hlook : ∀ message, (onOSError message (lookAt .masterKeyring)).run s = (.ok file, s) := by
    intro message
    simp [onOSError, lookAt, observe, Prog.atomic, Prog.run_tryCatch, Prog.run, SecretsDir.file,
      hfile]
    rfl
  have hdata : ((onOSError "Unable to read a required secret file" (do
      systemCall
      if file.inode ≠ file.inode then
        raiseTool "A secret file changed while it was being opened"
      else observe fun _ => .ok (file.content.take (maximumSecretBytes + 1)))).finallyDo
        systemCall).run s = (.ok file.content, s) := by
    rw [if_neg (not_not_intro rfl), htake]
    rfl
  have hread : (readSecret .masterKeyring).run s = (.ok (text, file.mode), s) := by
    simp only [readSecret, Prog.run_bind, hlook, hregular, Bool.not_true, Bool.false_eq_true,
      if_false, hdata, htext]
    rfl
  rw [loadKeyring, Prog.run_bind, hread]
  simp only [hparse, Prog.compute_ok_bind]
  rfl

/-! ## Parts that write -/

section

variable {run : RotationRun} {s : SecretsDir} {own : List (SecretsDir × SecretsDir)}

/-- The run has its temporary file, and the keyring and the master key are still as they were. -/
structure Prepared (run : RotationRun) (s s' : SecretsDir) (content : Bytes) : Prop where
  keyring : s'.masterKeyring = s.masterKeyring
  key : s'.masterKey = s.masterKey
  file : ∃ file, s'.temporaries.lookup run.token = some file ∧ file.regular = true ∧
    file.content = content

lemma works_createTemporary : Works floats fernet keep run (createTemporary run)
    (fun _ _ s' => Prepared run s s' []) own s := by
  refine .change fun s' hlock h => ?_
  split at h
  · cases h
  rename_i hfresh
  cases h
  refine ⟨hlock, .work hlock rfl rfl, fun own' _ _ => ?_⟩
  refine ⟨rfl, rfl, ⟨s.inodes, true, 0o600, []⟩, ?_, rfl, rfl⟩
  exact Dict.lookup_append_of_not_mem hfresh

/-- A change of the temporary file. -/
lemma Prepared.update {s₀ : SecretsDir} {content content' : Bytes}
    (hs : Prepared run s₀ s content) (g : SecretFile → SecretFile)
    (hregular : ∀ file, (g file).regular = file.regular)
    (hcontent : ∀ file, file.content = content → (g file).content = content') :
    Prepared run s₀ { s with temporaries := s.temporaries.map fun p =>
      if p.1 = run.token then (p.1, g p.2) else p } content' := by
  obtain ⟨hkeyring, hkey, file, hfile, hfileRegular, hfileContent⟩ := hs
  refine ⟨hkeyring, hkey, g file, ?_, ?_, hcontent file hfileContent⟩
  · exact (Dict.lookup_map_at (k := run.token) g).trans (by rw [hfile, Option.map_some])
  · rw [hregular, hfileRegular]

lemma works_writeTemporary {s₀ : SecretsDir} {value : PyStr} {content : Bytes}
    (hs : Prepared run s₀ s content) : Works floats fernet keep run (writeTemporary run value)
      (fun _ _ s' => ∃ content', (value ++ py "\n").encode = some content' ∧
        Prepared run s₀ s' content') own s := by
  refine .change fun s' hlock h => ?_
  split at h
  · cases h
  rename_i content' hcontent'
  cases h
  refine ⟨hlock, .work hlock rfl rfl, fun own' _ _ => ⟨content', hcontent', ?_⟩⟩
  exact hs.update (fun file => { file with content := content' }) (fun _ => rfl) fun _ _ => rfl

lemma works_hardenSecretFile {s₀ : SecretsDir} {content : Bytes} {mode : ℕ}
    (hs : Prepared run s₀ s content) : Works floats fernet keep run (hardenSecretFile run mode)
      (fun _ _ s' => Prepared run s₀ s' content) own s := by
  refine Works.bind (φ := fun _ _ s' => Prepared run s₀ s' content) (.change fun s' hlock h => ?_)
    fun _ own₁ s₁ _ h₁ => ?_
  · split at h
    swap
    · cases h
    cases h
    refine ⟨hlock, .work hlock rfl rfl, fun own' _ _ => ?_⟩
    exact hs.update (fun file => { file with mode := mode }) (fun _ => rfl) fun _ hfile => hfile
  · refine Reads.works (φ := fun _ _ => True) (.observe fun _ _ _ => trivial)
      fun file own₂ _ _ => ?_
    exact .ite (fun _ => .raise _) fun _ => .done _ fun _ _ => h₁

/-- The run has put the document in the place of the keyring. -/
structure Written (floats : Json.Floats F) (fernet : Fernet Key) (s : SecretsDir)
    (document : KeyringDocument floats fernet) (own : List (SecretsDir × SecretsDir))
    (s' : SecretsDir) : Prop where
  key : s'.masterKey = s.masterKey
  keyring : s'.keyring floats fernet = some document
  own : ∃ c ∈ own, c.1.keyring floats fernet = s.keyring floats fernet ∧
    c.2.keyring floats fernet = some document

lemma Written.kept {document : KeyringDocument floats fernet}
    {own' : List (SecretsDir × SecretsDir)} {s₁ s₂ : SecretsDir}
    (h : Written floats fernet s document own s₁) (hown : own ⊆ own')
    (hkey : s₂.masterKey = s₁.masterKey) (hkeyring : s₂.masterKeyring = s₁.masterKeyring) :
    Written floats fernet s document own' s₂ := by
  obtain ⟨hkey₁, hkeyring₁, c, hc, hwrote⟩ := h
  refine ⟨hkey.trans hkey₁, ?_, c, hown hc, hwrote⟩
  rw [SecretsDir.keyring, hkeyring]
  exact hkeyring₁

lemma works_replaceKeyring {s₀ : SecretsDir} {content : Bytes}
    {document : KeyringDocument floats fernet} (hs : Prepared run s₀ s content)
    (hcontent : fileKeyring floats fernet content = some document)
    (hprimary : document.primary = run.newPrimaryId)
    (hextends : keep → ∀ old, s₀.keyring floats fernet = some old → old.Extends document) :
    Works floats fernet keep run (replaceKeyring run)
      (fun _ own' s' => Written floats fernet s₀ document own' s') own s := by
  obtain ⟨hkeyring, hkey, file, hfile, hregular, rfl⟩ := hs
  have hsame : s.keyring floats fernet = s₀.keyring floats fernet := by
    rw [SecretsDir.keyring, SecretsDir.keyring, hkeyring]
  refine .change fun s' hlock h => ?_
  rw [hfile] at h
  cases h
  have hdocument : SecretsDir.keyring floats fernet { s with
      masterKeyring := some file
      temporaries := s.temporaries.filter (·.1 ≠ run.token) } = some document := by
    simp [SecretsDir.keyring, hregular, hcontent]
  refine ⟨hlock, .write hlock rfl hdocument hprimary (by rw [hsame]; exact hextends), ?_⟩
  exact fun own' _ hmem => ⟨hkey, hdocument, _, hmem, hsame, hdocument⟩

/-- `atomic_write_secret` puts the document in the place of the keyring. -/
lemma works_atomicWriteSecret {value : PyStr} {mode : ℕ}
    {document : KeyringDocument floats fernet}
    (hvalue : ∀ content, (value ++ py "\n").encode = some content →
      fileKeyring floats fernet content = some document)
    (hprimary : document.primary = run.newPrimaryId)
    (hextends : keep → ∀ old, s.keyring floats fernet = some old → old.Extends document) :
    Works floats fernet keep run (atomicWriteSecret run value mode)
      (fun _ own' s' => Written floats fernet s document own' s') own s := by
  -- removing the temporary file keeps what has been written
  have hunlink : ∀ own₁ s₁, s₁.lock = some run → Works floats fernet keep run
      (onOSError "Unable to remove a temporary secret file" (unlinkTemporary run))
      (fun _ own₂ s₂ => Unit → Written floats fernet s document own₁ s₁ →
        Written floats fernet s document own₂ s₂) own₁ s₁ := by
    intro own₁ s₁ _
    refine .onOSError _ (.change ?_)
    rintro s' hlock ⟨⟩
    exact ⟨hlock, .work hlock rfl rfl, fun own' hown _ _ h => h.kept hown rfl rfl⟩
  -- from the temporary file to the replacement, call by call
  have hwrite : ∀ own₁, Works floats fernet keep run
      ((onOSError "Unable to replace the secret file atomically" (do
        createTemporary run
        writeTemporary run value
        systemCall
        hardenSecretFile run mode
        replaceKeyring run
        systemCall)).finallyDo
          (onOSError "Unable to remove a temporary secret file" (unlinkTemporary run)))
      (fun _ own' s' => Written floats fernet s document own' s') own₁ s := by
    intro own₁
    refine Works.finallyDo (.onOSError _ ?_) hunlink
    refine Works.bind works_createTemporary fun _ own₂ s₂ _ h₂ => ?_
    refine Works.bind (works_writeTemporary h₂) fun _ own₃ s₃ _ ⟨content, hcontent, h₃⟩ => ?_
    refine Reads.works .systemCall fun _ own₄ _ _ => ?_
    refine Works.bind (works_hardenSecretFile h₃) fun _ own₅ s₅ _ h₅ => ?_
    refine Works.bind (works_replaceKeyring h₅ (hvalue content hcontent) hprimary hextends)
      fun _ own₆ s₆ _ h₆ => ?_
    refine (Reads.systemCall own₆ s₆).mono ?_
    rintro _ own₇ s₇ ⟨hown, rfl, -⟩
    exact h₆.kept hown rfl rfl
  refine Reads.works (reads_requireSecureDirectory run) fun _ own₁ _ _ => ?_
  refine Reads.works (reads_present run run.blindAgain) fun there own₂ _ _ => ?_
  cases there with
  | false => exact hwrite own₂
  | true =>
    refine Reads.works (.onOSError _ (reads_lookAt run _)) fun status own₃ _ _ => ?_
    cases hregular : status.regular with
    | false => exact Works.bind (.raise _ : Works _ _ _ _ _ (fun _ _ _ => False) _ _) (by simp)
    | true => exact hwrite own₃

end

end MailGate
