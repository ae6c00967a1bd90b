import MailGate.Crypto.RotateSteps

/-!
# What the runs of the rotation tool do

The work of a run under the lock, the lock, and then any number of runs side by side: the
keyring that they leave, and the keys that it keeps.
-/

namespace MailGate

open Transaction

variable {F Key : Type} {floats : Json.Floats F} {fernet : Fernet Key} {keep : Prop}

/-! ## Keys that are kept -/

namespace KeyringDocument

variable {old new document : KeyringDocument floats fernet}

lemma extends_iff : old.Extends new ↔ old.keys ⊆ new.keys := by
  constructor
  · intro h p hp
    exact Dict.mem_of_lookup (h p.1 p.2 ((Dict.lookup_eq_some_iff old.distinct).2 hp))
  · intro h keyId value hlookup
    exact (Dict.lookup_eq_some_iff new.distinct).2 (h (Dict.mem_of_lookup hlookup))

lemma Extends.refl (document : KeyringDocument floats fernet) : document.Extends document :=
  fun _ _ h => h

lemma Extends.trans (h : old.Extends document) (h' : document.Extends new) : old.Extends new :=
  fun keyId value hlookup => h' keyId value (h keyId value hlookup)

lemma extends_sorted (document : KeyringDocument floats fernet) :
    document.Extends document.sorted :=
  extends_iff.2 (sorted_keys document).symm.subset

lemma extends_add {keyId value : PyStr} {hid : isKeyId keyId = true}
    {hvalue : (fernetOf fernet value).isSome = true} {hnew : keyId ∉ document.keys.map (·.1)}
    {hcount : document.keys.length < maximumKeys} :
    document.Extends (document.add keyId value hid hvalue hnew hcount) :=
  extends_iff.2 (List.subset_append_left _ _)

end KeyringDocument

/-! ## The work under the lock -/

/-- What `target.exists() or target.is_symlink()` says. -/
def RotationRun.sees (run : RotationRun) (s : SecretsDir) : Bool :=
  !run.blind && s.masterKeyring.isSome

/-- A run without a keyring to start from that goes on to the master key. -/
def RotationRun.imports (run : RotationRun) : Bool :=
  run.legacyKeyId.isSome && !run.activateExisting

/-- How a run that returns has left the directory that it found under the lock. -/
inductive Outcome (floats : Json.Floats F) (fernet : Fernet Key) (keep : Prop) (run : RotationRun)
    (s : SecretsDir) : Bool → Assertion SecretsDir
  | same {document : KeyringDocument floats fernet} {own : List (SecretsDir × SecretsDir)}
      (hsighted : run.blind = false) (hold : s.keyring floats fernet = some document)
      (hprimary : document.primary = run.newPrimaryId) :
      Outcome floats fernet keep run s false own s
  | rotated {old new : KeyringDocument floats fernet} {own : List (SecretsDir × SecretsDir)}
      {s' : SecretsDir} (hsighted : run.blind = false) (hold : s.keyring floats fernet = some old)
      (hother : old.primary ≠ run.newPrimaryId) (hwritten : Written floats fernet s new own s')
      (hprimary : new.primary = run.newPrimaryId) (hextends : old.Extends new) :
      Outcome floats fernet keep run s true own s'
  | imported {new : KeyringDocument floats fernet} {own : List (SecretsDir × SecretsDir)}
      {s' : SecretsDir} {legacyKeyId value generated : PyStr} {file : SecretFile}
      (himports : run.imports = true) (hid : run.legacyKeyId = some legacyKeyId)
      (hunseen : run.sees s = false)
      (hnone : keep → s.keyring floats fernet = none) (hfile : s.masterKey = some file)
      (hregular : file.regular = true)
      (hvalue : secretText (file.content.take (maximumSecretBytes + 1)) = .ok value)
      (hwritten : Written floats fernet s new own s')
      (hprimary : new.primary = run.newPrimaryId)
      (hlegacy : new.keys.lookup legacyKeyId = some value)
      (hgenerated : run.generated.bind Bytes.decodeAscii = some generated)
      (hnew : new.keys.lookup run.newPrimaryId = some generated)
      (hkeys : ∀ p ∈ new.keys, p = (legacyKeyId, value) ∨ p = (run.newPrimaryId, generated)) :
      Outcome floats fernet keep run s true own s'

section

variable {run : RotationRun} {s : SecretsDir} {own : List (SecretsDir × SecretsDir)}

/-- What a run writes is the document, with its keys in order. -/
lemma works_writeVerified (hone : ∀ f, floats.eqInt f 1 = true → floats.Faithful f)
    {document : KeyringDocument floats fernet} (hprimary : document.primary = run.newPrimaryId)
    (hextends : keep → ∀ old, s.keyring floats fernet = some old → old.Extends document) :
    Works floats fernet keep run (writeVerified run document)
      (fun b own' s' => b = true ∧ Written floats fernet s document.sorted own' s') own s := by
  have hkept : keep → ∀ old, s.keyring floats fernet = some old → old.Extends document.sorted :=
    fun hkeep old hold => (hextends hkeep old hold).trans document.extends_sorted
  refine Works.bind (works_atomicWriteSecret
    (fun content h => fileKeyring_serialized hone document h) hprimary hkept)
    fun _ own₁ s₁ _ h₁ => ?_
  refine Reads.works (reads_loadKeyring run) fun loaded own₂ hown _ => ?_
  refine .ite (fun _ => .raise _) fun _ => .done _ ?_
  rintro b ⟨⟩
  exact ⟨rfl, h₁.kept hown rfl rfl⟩

lemma works_addGenerated (hone : ∀ f, floats.eqInt f 1 = true → floats.Faithful f)
    {document : KeyringDocument floats fernet} (hid : isKeyId run.newPrimaryId = true)
    (hnew : run.newPrimaryId ∉ document.keys.map (·.1))
    (hextends : keep → ∀ old, s.keyring floats fernet = some old → old.Extends document) :
    Works floats fernet keep run (addGenerated run hid document hnew)
      (fun b own' s' => b = true ∧ ∃ new : KeyringDocument floats fernet,
        Written floats fernet s new own' s' ∧ new.primary = run.newPrimaryId ∧
          document.Extends new ∧
            ∃ generated, run.generated.bind Bytes.decodeAscii = some generated ∧
            new.keys.lookup run.newPrimaryId = some generated ∧
            ∀ p ∈ new.keys, p ∈ document.keys ∨ p = (run.newPrimaryId, generated)) own s := by
  unfold addGenerated
  split
  swap
  · exact .raise _
  rename_i hcount
  split
  · exact .raise _
  rename_i value hvalue
  refine Reads.works (φ := fun _ _ => True) (.done _ fun _ _ _ => trivial) fun valid own₁ _ _ => ?_
  obtain ⟨hvalid⟩ := valid
  refine Works.mono (works_writeVerified hone rfl
    fun hkeep old hold => (hextends hkeep old hold).trans KeyringDocument.extends_add) ?_
  rintro b own' s' ⟨rfl, hwritten⟩
  refine ⟨rfl, _, hwritten, rfl, ?_, value, hvalue, ?_, fun p hp => ?_⟩
  · exact KeyringDocument.extends_add.trans (KeyringDocument.extends_sorted _)
  · exact KeyringDocument.extends_sorted _ _ _ (Dict.lookup_append_of_not_mem hnew)
  · have hadded := (KeyringDocument.sorted_keys _).subset hp
    rcases List.mem_append.1 hadded with hold | hnew
    · exact .inl hold
    · exact .inr (List.mem_singleton.1 hnew)

lemma works_rotateExisting (hone : ∀ f, floats.eqInt f 1 = true → floats.Faithful f)
    {document : KeyringDocument floats fernet} (hid : isKeyId run.newPrimaryId = true)
    (hsighted : run.blind = false)
    (hdocument : s.keyring floats fernet = some document) :
    Works floats fernet keep run (rotateExisting run hid document)
      (fun b own' s' => Outcome floats fernet keep run s b own' s') own s := by
  have hold : keep → ∀ old, s.keyring floats fernet = some old → old.Extends document := by
    intro _ old hold
    rw [hdocument] at hold
    rw [Option.some.inj hold]
    exact .refl old
  unfold rotateExisting
  split
  · rename_i hmem
    refine .ite (fun hprimary => .done _ ?_) fun hother => .ite (fun _ => .raise _) fun _ => ?_
    · rintro b ⟨⟩
      exact .same hsighted hdocument hprimary
    · refine Works.mono (works_writeVerified hone rfl hold) ?_
      rintro b own' s' ⟨rfl, hwritten⟩
      refine .rotated hsighted hdocument hother hwritten rfl ?_
      exact KeyringDocument.extends_sorted (document.activate run.newPrimaryId hmem)
  · rename_i hmem
    refine (works_addGenerated hone hid hmem hold).mono ?_
    rintro b own' s' ⟨rfl, new, hwritten, hprimary, hextends, -⟩
    refine .rotated hsighted hdocument ?_ hwritten hprimary hextends
    intro hsame
    exact hmem (hsame ▸ document.primary_mem)

lemma works_importMasterKey (hone : ∀ f, floats.eqInt f 1 = true → floats.Faithful f)
    (hid : isKeyId run.newPrimaryId = true)
    (hunseen : run.sees s = false)
    (hnone : keep → run.imports = true → s.keyring floats fernet = none) :
    Works floats fernet keep run (importMasterKey floats fernet run hid)
      (fun b own' s' => Outcome floats fernet keep run s b own' s') own s := by
  unfold importMasterKey
  split
  · exact .raise _
  rename_i hactivate
  split
  · exact .raise _
  rename_i legacyKeyId hlegacy
  have himports : run.imports = true := by simp [RotationRun.imports, hlegacy, hactivate]
  refine Reads.works (φ := fun _ _ => True) (.done _ fun _ _ _ => trivial) fun valid own₁ _ _ => ?_
  obtain ⟨hlegacyId⟩ := valid
  dsimp only
  split
  · exact .raise _
  rename_i hne
  refine Reads.works (reads_readSecret run .masterKey) fun secret own₂ _ hsecret => ?_
  obtain ⟨value, mode⟩ := secret
  obtain ⟨file, hfile, hregular, htext⟩ := hsecret
  refine Reads.works (φ := fun _ _ => True) (.done _ fun _ _ _ => trivial) fun valid own₃ _ _ => ?_
  obtain ⟨hvalue⟩ := valid
  refine (works_addGenerated hone hid _ fun hkeep => by simp [hnone hkeep himports]).mono ?_
  rintro b own' s' ⟨rfl, new, hwritten, hprimary, hextends, generated, hgenerated, hnew, hkeys⟩
  refine .imported himports hlegacy hunseen (hnone · himports) hfile hregular htext hwritten
    hprimary (hextends legacyKeyId value ?_) hgenerated hnew fun p hp => ?_
  · simp [KeyringDocument.ofMasterKey]
  · exact (hkeys p hp).imp_left List.mem_singleton.1

/-- The work under the lock; where keys are to be kept, a run does not take a keyring for an
absent one. -/
lemma works_rotateLocked (hone : ∀ f, floats.eqInt f 1 = true → floats.Faithful f)
    (hid : isKeyId run.newPrimaryId = true)
    (hseen : keep → run.blind = true → run.imports = true → s.keyring floats fernet = none) :
    Works floats fernet keep run (rotateLocked floats fernet run hid)
      (fun b own' s' => Outcome floats fernet keep run s b own' s') own s := by
  refine Reads.works (reads_present run run.blind) fun there own₁ _ hthere => ?_
  cases there with
  | true =>
    have hsighted : run.blind = false := by
      rw [eq_comm, Bool.and_eq_true, Bool.not_eq_true'] at hthere
      exact hthere.1
    refine Reads.works (reads_loadKeyring run) fun loaded own₂ _ hloaded => ?_
    exact works_rotateExisting hone hid hsighted hloaded
  | false =>
    refine works_importMasterKey hone hid hthere.symm fun hkeep himports => ?_
    cases hblind : run.blind with
    | true => exact hseen hkeep hblind himports
    | false =>
      have habsent : s.masterKeyring = none := by simpa [hblind] using hthere
      simp [SecretsDir.keyring, habsent]

end

/-! ## The lock -/

section

variable {T : Terms SecretsDir ToolExn} {run : RotationRun} {s : SecretsDir}
  {own : List (SecretsDir × SecretsDir)}

/-- A look at the directory without the lock: the directory may have changed before it and
after it. -/
lemma wp_observe {α : Type} {Q : Except ToolExn α → Assertion SecretsDir}
    {f : SecretsDir → Except ToolExn α} {P : SecretsDir → Prop}
    (hT : Suits floats fernet keep T run)
    (hP : ∀ a b, T.Rely a b → P a → P b) (hs : P s) (hQ : ∀ r own' s', P s' → Q r own' s') :
    WP T Q (observe f) own s := by
  intro s₁ h₁
  have hdone : ∀ (r : Except ToolExn α) own', WP T Q (.done r) own' s₁ := fun r own' s₂ h₂ =>
    hQ r own' s₂ (hP _ _ h₂ (hP _ _ h₁ hs))
  refine ⟨fun b s₂ hbody _ => ?_, fun e _ => hdone _ own⟩
  obtain rfl : s₁ = s₂ := by
    cases hf : f s₁ with
    | error e => simp [hf, Except.map] at hbody
    | ok a =>
      simp only [hf, Except.map, Except.ok.injEq, Prod.mk.injEq] at hbody
      exact hbody.2
  exact ⟨hT.promise _ _ (.look rfl), hdone _ _, fun e _ => hdone _ _⟩

lemma wp_requireSecureDirectory {Q : Except ToolExn Unit → Assertion SecretsDir}
    {P : SecretsDir → Prop} (hT : Suits floats fernet keep T run)
    (hP : ∀ a b, T.Rely a b → P a → P b) (hs : P s) (hQ : ∀ r own' s', P s' → Q r own' s') :
    WP T Q requireSecureDirectory own s := by
  have hdone : ∀ (r : Except ToolExn Unit) own' s', P s' → WP T Q (.done r) own' s' :=
    fun r own' s' hs' s₁ h₁ => hQ r own' s₁ (hP _ _ h₁ hs')
  refine WP.bind (WP.tryCatch (wp_observe hT hP hs fun r own₁ s₁ hs₁ => ?_))
  cases r with
  | error e => cases e <;> exact fun s₂ h₂ => hdone _ own₁ s₂ (hP _ _ h₂ hs₁)
  | ok a =>
    intro s₂ h₂
    have hs₂ := hP _ _ h₂ hs₁
    obtain ⟨real, ownerOnly⟩ := a
    cases real with
    | false => exact hdone _ own₁ s₂ hs₂
    | true =>
      cases ownerOnly with
      | false => exact hdone _ own₁ s₂ hs₂
      | true => exact hdone _ own₁ s₂ hs₂

/-- Where the lock is taken, the run goes on alone with the directory as it is then. -/
lemma wp_createLock {Q : Except ToolExn Unit → Assertion SecretsDir} {P : SecretsDir → Prop}
    (hT : Suits floats fernet keep T run) (hP : ∀ a b, T.Rely a b → P a → P b) (hs : P s)
    (hok : ∀ own' a, P a → a.lock = none → T.considered a { a with lock := some run } →
      Q (.ok ()) own' { a with lock := some run })
    (herror : ∀ e own' s', Q (.error e) own' s') : WP T Q (createLock run) own s := by
  intro s₁ h₁
  have hfail : ∀ e own' s', WP T Q (.done (.error e)) own' s' := fun e own' s' s₂ _ =>
    herror e own' s₂
  refine ⟨fun b s₂ hbody hconsidered => ?_, fun e _ => hfail e own s₁⟩
  cases hlock : s₁.lock with
  | some other => simp [hlock, Except.map] at hbody
  | none =>
    obtain rfl : { s₁ with lock := some run } = s₂ := by
      simpa [hlock, Except.map] using hbody
    refine ⟨hT.promise _ _ (.acquire hlock rfl), ?_, fun e _ => hfail e _ _⟩
    exact WP.done_quiet (hT.quiet _ rfl) (hok _ s₁ (hP _ _ h₁ hs) hlock hconsidered)

/-- Once the lock is given back, the directory is no longer the run's own. -/
lemma wp_unlinkLock {Q : Except ToolExn Unit → Assertion SecretsDir}
    (hT : Suits floats fernet keep T run) (hlock : s.lock = some run)
    (hok : ∀ own' s', own ⊆ own' → T.Rely { s with lock := none } s' → Q (.ok ()) own' s')
    (herror : ∀ e own' s', Q (.error e) own' s') : WP T Q unlinkLock own s := by
  intro s₁ h₁
  obtain rfl := (hT.quiet s hlock).eq h₁
  have hfail : ∀ e own' s', WP T Q (.done (.error e)) own' s' := fun e own' s' s₂ _ =>
    herror e own' s₂
  refine ⟨fun b s₂ hbody _ => ?_, fun e _ => hfail e own s₁⟩
  obtain rfl : { s₁ with lock := none } = s₂ := by
    simpa [hlock, Except.map] using hbody
  refine ⟨hT.promise _ _ (.work hlock rfl rfl), ?_, fun e _ => hfail e _ _⟩
  exact fun s₃ h₃ => hok _ s₃ (List.subset_append_left _ _) h₃

/-- `with exclusive_rotation_lock(…): body`. -/
lemma wp_exclusiveRotationLock {α : Type} {body : Tool α}
    {Q : Except ToolExn α → Assertion SecretsDir} {P : SecretsDir → Prop}
    {φ : SecretsDir → α → Assertion SecretsDir} (hT : Suits floats fernet keep T run)
    (hP : ∀ a b, T.Rely a b → P a → P b) (hs : P s)
    (hbody : ∀ own' a, P a → a.lock = none → T.considered a { a with lock := some run } →
      Works floats fernet keep run body (φ { a with lock := some run }) own'
        { a with lock := some run })
    (hok : ∀ b own' own'' a s₁ s₂, P a → φ { a with lock := some run } b own' s₁ → own' ⊆ own'' →
      T.Rely { s₁ with lock := none } s₂ → Q (.ok b) own'' s₂)
    (herror : ∀ e own' s', Q (.error e) own' s') :
    WP T Q (exclusiveRotationLock run body) own s := by
  have hfail : ∀ e own' s', WP T Q (.done (.error e)) own' s' := fun e own' s' s₂ _ =>
    herror e own' s₂
  refine WP.bind (wp_requireSecureDirectory hT hP hs fun r own₁ s₁ hs₁ => ?_)
  cases r with
  | error e => exact hfail e own₁ s₁
  | ok u =>
    refine WP.bind (WP.tryCatch (wp_createLock hT hP hs₁ (fun own₂ a ha hfree hconsidered => ?_)
      fun e own₂ s₂ => ?_))
    swap
    · cases e <;> exact fun s₃ _ => hfail _ own₂ s₃
    have hquiet := hT.quiet { a with lock := some run } rfl
    refine WP.done_quiet hquiet (WP.finallyDo ?_)
    have hwork : Works floats fernet keep run (do
        systemCall
        systemCall
        body) (φ { a with lock := some run }) own₂ { a with lock := some run } := by
      refine Reads.works .systemCall fun _ own₃ _ _ => ?_
      refine Reads.works .systemCall fun _ own₄ _ _ => ?_
      exact hbody own₄ a ha hfree hconsidered
    -- the lock is given back whether the work was done or not
    have hcleanup : ∀ (r : Except ToolExn α) own₃ s₃, s₃.lock = some run →
        (∀ b, r = .ok b → φ { a with lock := some run } b own₃ s₃) →
        WP T (fun c => Q (Prog.afterCleanup r c)) (do
          systemCall
          onOSError "Unable to release the rotation lock" unlinkLock) own₃ s₃ := by
      intro r own₃ s₃ hlock₃ hr
      refine WP.bind (Reads.systemCall own₃ s₃ T _ hT hlock₃ ?_ fun e own₄ s₄ _ => ?_)
      · rintro _ own₄ s₄ hlock₄ ⟨hown, rfl, -⟩
        refine WP.tryCatch (wp_unlinkLock hT hlock₄ (fun own₅ s₅ hown' h₅ => ?_)
          fun e own₅ s₅ => ?_)
        · intro s₆ h₆
          cases r with
          | error e => exact herror e own₅ s₆
          | ok b =>
            exact hok b own₃ own₅ a s₄ s₆ ha (hr b rfl) (List.Subset.trans hown hown')
              (h₅.trans h₆)
        · cases e <;> exact fun s₆ _ => herror _ own₅ s₆
      · exact fun s₅ _ => herror e own₄ s₅
    refine hwork T _ hT rfl (fun b own₃ s₃ hlock₃ h₃ => ?_) fun e own₃ s₃ hlock₃ => ?_
    · refine hcleanup (.ok b) own₃ s₃ hlock₃ ?_
      rintro b' ⟨⟩
      exact h₃
    · exact hcleanup (.error e) own₃ s₃ hlock₃ (by simp)

/-- What a whole run does; where keys are to be kept, it does not take a keyring for an absent
one. -/
lemma wp_rotateCredentialKeyring {Q : Except ToolExn Bool → Assertion SecretsDir}
    {P : SecretsDir → Prop} (hone : ∀ f, floats.eqInt f 1 = true → floats.Faithful f)
    (hT : Suits floats fernet keep T run) (hP : ∀ a b, T.Rely a b → P a → P b) (hs : P s)
    (hseen : keep → ∀ a, P a → a.lock = none → T.considered a { a with lock := some run } →
      run.blind = true → run.imports = true → a.keyring floats fernet = none)
    (hok : ∀ b own' own'' a s₁ s₂, P a →
      Outcome floats fernet keep run { a with lock := some run } b own' s₁ → own' ⊆ own'' →
      T.Rely { s₁ with lock := none } s₂ → Q (.ok b) own'' s₂)
    (herror : ∀ e own' s', Q (.error e) own' s') :
    WP T Q (rotateCredentialKeyring floats fernet run) own s := by
  have hfail : ∀ e own' s', WP T Q (.done (.error e)) own' s' := fun e own' s' s₂ _ =>
    herror e own' s₂
  refine WP.bind (wp_requireSecureDirectory hT hP hs fun r own₁ s₁ hs₁ => ?_)
  cases r with
  | error e => exact hfail e own₁ s₁
  | ok u =>
    refine WP.bind ?_
    show WP T _ (.done (validateKeyId run.newPrimaryId)) own₁ s₁
    intro s₂ h₂
    cases validateKeyId run.newPrimaryId with
    | error e => exact hfail e own₁ s₂
    | ok valid =>
      obtain ⟨hid⟩ := valid
      refine wp_exclusiveRotationLock hT hP (hP _ _ h₂ hs₁) (fun own' a ha hfree hconsidered => ?_)
        hok herror
      exact works_rotateLocked hone hid fun hkeep => hseen hkeep a ha hfree hconsidered

end

/-! ## Runs side by side -/

/-- The lock is not taken by a run that goes on to the master key because its look at the
keyring failed, while there is a keyring. -/
def Seen (floats : Json.Floats F) (fernet : Fernet Key) (run : RotationRun) (a b : SecretsDir) :
    Prop :=
  a.lock = none → b.lock = some run → run.blind = true → run.imports = true →
    a.keyring floats fernet = none

/-- Any number of runs of the tool on one directory; each step may fail. -/
abbrev Rotations (floats : Json.Floats F) (fernet : Fernet Key) :=
  Pool.Run (.alone (· = ToolExn.os)) (rotateCredentialKeyring floats fernet)

/-- While a run holds the lock, the other runs do not touch the directory. -/
lemma suits_pool (floats : Json.Floats F) (fernet : Fernet Key) (run : RotationRun) :
    Suits floats fernet True (Pool.terms (.alone (· = ToolExn.os)) (Seen floats fernet)
      (ToolStep floats fernet True) run) run where
  quiet s hlock s' henv := by
    rcases henv with henv | ⟨other, hother, hstep⟩
    · exact henv.elim
    · cases hstep with
      | look h => exact h
      | acquire hfree => simp [hlock] at hfree
      | work hlock' => exact absurd (Option.some.inj (hlock'.symm.trans hlock)) hother
      | write hlock' => exact absurd (Option.some.inj (hlock'.symm.trans hlock)) hother
  promise _ _ h := h

/-- A run that returns `True` has replaced the keyring. -/
lemma wp_rotations (hone : ∀ f, floats.eqInt f 1 = true → floats.Faithful f) (run : RotationRun)
    (s : SecretsDir) :
    WP (Pool.terms (.alone (· = ToolExn.os)) (Seen floats fernet) (ToolStep floats fernet True) run)
      (fun r own _ => r = .ok true → ∃ c ∈ own, c.2.masterKeyring ≠ c.1.masterKeyring)
      (rotateCredentialKeyring floats fernet run) [] s := by
  have hchanged : ∀ {a b : SecretsDir}, a.keyring floats fernet ≠ b.keyring floats fernet →
      b.masterKeyring ≠ a.masterKeyring := by
    intro a b hne hsame
    exact hne (by rw [SecretsDir.keyring, SecretsDir.keyring, hsame])
  refine wp_rotateCredentialKeyring (P := fun _ => True) hone (suits_pool floats fernet run)
    (fun _ _ _ h => h) trivial (fun _ a _ hfree hseen => hseen hfree rfl) ?_ (by simp)
  rintro b own own' a s₁ s₂ - houtcome hown - hb
  cases houtcome with
  | same => simp at hb
  | rotated _ hold hother hwritten hprimary _ =>
    obtain ⟨-, -, c, hc, hbefore, hafter⟩ := hwritten
    refine ⟨c, hown hc, hchanged ?_⟩
    rw [hbefore, hold, hafter]
    intro hsame
    exact hother (Option.some.inj hsame ▸ hprimary)
  | imported _ _ _ hnone _ _ _ hwritten _ _ =>
    obtain ⟨-, -, c, hc, hbefore, hafter⟩ := hwritten
    refine ⟨c, hown hc, hchanged ?_⟩
    rw [hbefore, hnone trivial, hafter]
    simp

/-- A step of the tool that changes the keyring writes one with the requested primary key, and
keeps the keys. -/
lemma ToolStep.keyring {run : RotationRun} {a b : SecretsDir}
    (h : ToolStep floats fernet True run a b) :
    b.masterKeyring = a.masterKeyring ∨ ∃ document : KeyringDocument floats fernet,
      b.keyring floats fernet = some document ∧ document.primary = run.newPrimaryId ∧
        ∀ old, a.keyring floats fernet = some old → old.Extends document := by
  cases h with
  | look h => exact .inl (by rw [h])
  | acquire _ h => exact .inl (by rw [h])
  | work _ hkeyring _ => exact .inl hkeyring
  | write _ _ hdocument hprimary hextends => exact .inr ⟨_, hdocument, hprimary, hextends trivial⟩

/-- However the steps of the runs are interleaved and wherever they fail: once a run has written
the keyring, it is a valid keyring with at most 32 keys from then on, no key is dropped or
changed, and a run that returns `True` has written a keyring with the requested primary key.
This holds as long as no run takes a keyring for an absent one. -/
theorem rotations_keep_keys (hone : ∀ f, floats.eqInt f 1 = true → floats.Faithful f)
    {p p' : Pool SecretsDir ToolExn Bool RotationRun}
    {tr : List (Runs.Taken (Pool SecretsDir ToolExn Bool RotationRun)
      (PoolEvent SecretsDir RotationRun))} (hstart : p.clients = [])
    (hrun : Rotations floats fernet p tr p')
    (hseen : ∀ t ∈ tr, ∀ run, ∀ c ∈ Pool.commitsOf run t.label, Seen floats fernet run c.1 c.2) :
    ((∃ t ∈ tr, t.after.state.masterKeyring ≠ t.before.state.masterKeyring) →
      ∃ document, p'.state.keyring floats fernet = some document ∧ document.keys.length ≤ 32 ∧
        document.primary ∈ document.keys.map (·.1)) ∧
    (∀ t ∈ tr, ∀ old, t.before.state.keyring floats fernet = some old →
      ∃ new, p'.state.keyring floats fernet = some new ∧ old.Extends new) ∧
    (∀ c ∈ p'.clients, c.prog = .done (.ok true) →
      ∃ write ∈ Pool.runCommits c.request tr, write.2.masterKeyring ≠ write.1.masterKeyring) ∧
    ∀ run, ∀ write ∈ Pool.runCommits run tr, write.2.masterKeyring ≠ write.1.masterKeyring →
      ∃ document, write.2.keyring floats fernet = some document ∧
        document.primary = run.newPrimaryId := by
  obtain ⟨hguarantee, hmeets⟩ := Pool.Meets.run (fun _ _ _ _ (h : True) => h)
    (fun run s _ => wp_rotations hone run s) (Pool.Meets.empty hstart fun _ => trivial) hrun hseen
  -- one step leaves the keyring, or writes one that extends what was there
  have hstep : ∀ t ∈ tr, t.after.state.masterKeyring = t.before.state.masterKeyring ∨
      ∃ document, t.after.state.keyring floats fernet = some document ∧
        ∀ old, t.before.state.keyring floats fernet = some old → old.Extends document := by
    intro t ht
    rcases (hrun.step_of_mem t ht).commits with hsame | ⟨run, hcommits⟩
    · exact .inl (by rw [hsame])
    · have hwrite := hguarantee t ht run _ (by rw [hcommits]; exact List.mem_singleton_self _)
      rcases hwrite.keyring with hsame | ⟨document, hdocument, -, hextends⟩
      · exact .inl hsame
      · exact .inr ⟨document, hdocument, hextends⟩
  -- so a keyring that extends an old one is followed by such keyrings only
  have hkept : ∀ old : KeyringDocument floats fernet, ∀ t ∈ tr,
      (∃ new, t.before.state.keyring floats fernet = some new ∧ old.Extends new) →
      ∃ new, t.after.state.keyring floats fernet = some new ∧ old.Extends new := by
    rintro old t ht ⟨new, hnew, hextends⟩
    rcases hstep t ht with hsame | ⟨document, hdocument, hextends'⟩
    · exact ⟨new, by rw [SecretsDir.keyring, hsame]; exact hnew, hextends⟩
    · exact ⟨document, hdocument, hextends.trans (hextends' new hnew)⟩
  refine ⟨?_, ?_, ?_, ?_⟩
  · rintro ⟨t, ht, hchanged⟩
    rcases hstep t ht with hsame | ⟨document, hdocument, -⟩
    · exact absurd hsame hchanged
    · obtain ⟨new, hnew, -⟩ := hrun.established (I := fun q => ∃ new,
        q.state.keyring floats fernet = some new ∧ document.Extends new) (hkept document) ht
        ⟨document, hdocument, .refl document⟩
      exact ⟨new, hnew, new.bounded, new.primary_mem⟩
  · intro t ht old hold
    exact hrun.lasts (I := fun q => ∃ new, q.state.keyring floats fernet = some new ∧
      old.Extends new) (hkept old) ht ⟨old, hold, .refl old⟩
  · intro c hc hdone
    have hwp := hmeets.client c hc
    rw [hdone] at hwp
    simpa using hwp p'.state .refl rfl
  · intro run write hwrite hchanged
    obtain ⟨t, ht, hmem⟩ := List.mem_flatMap.1 hwrite
    rcases (hguarantee t ht run write hmem).keyring with hsame | ⟨document, hdocument, hprimary, -⟩
    · exact absurd hsame hchanged
    · exact ⟨document, hdocument, hprimary⟩

/-! ## Runs with and without sight of the keyring -/

/-- Numbers of a document that has none but integers. -/
def wordFloats : Json.Floats PyStr := ⟨id, id, fun _ _ => false⟩

/-- A cipher whose keys have the length of a Fernet key, line ends aside, with the key before the
plaintext as the token. -/
def sampleCipher : Fernet Bytes where
  make key :=
    let key := key.filter fun x => x ≠ 0x0D ∧ x ≠ 0x0A
    if key.length = 44 then some key else none
  encrypt key _ value := key ++ value
  decrypt key token :=
    if key.length = 44 ∧ token.take 44 = key then some (token.drop 44) else none

/-- A key of the cipher. -/
def sampleKey (c : Char) : PyStr := List.replicate 43 (ofChar c) ++ py "="

/-- The secrets of an installation with one key, which is not the master key. -/
def sampleSecrets : SecretsDir where
  real := true
  ownerOnly := true
  masterKey := some ⟨1, true, 0o444, (sampleKey 'a').encode.getD []⟩
  masterKeyring := some ⟨2, true, 0o444, (py "\x7b\"keys\":\x7b\"old\":\"" ++ sampleKey 'b' ++
    py "\"\x7d,\"primary\":\"old\",\"version\":1\x7d").encode.getD []⟩
  lock := none
  temporaries := []
  inodes := 3

lemma sampleSecrets_keyring : ∃ old, sampleSecrets.keyring wordFloats sampleCipher = some old ∧
    old.keys.lookup (py "old") = some (sampleKey 'b') := by
  have hbefore : (sampleSecrets.keyring wordFloats sampleCipher).map
      (·.keys.lookup (py "old")) = some (some (sampleKey 'b')) := by
    decide +kernel
  simpa using hbefore

/-- A run that is to add a key. -/
def sightedRun : RotationRun where
  number := 0
  newPrimaryId := py "new"
  legacyKeyId := some (py "legacy")
  activateExisting := false
  generated := (sampleKey 'c').encode
  token := py "0123456789abcdef01234567"
  blind := false
  blindAgain := false

/-- The same run, where its looks at the keyring fail. -/
def blindRun : RotationRun := { sightedRun with blind := true, blindAgain := true }

/-- A run that sees the keyring keeps its key. -/
theorem rotations_keep_keys_sighted : ∃ tr p', Rotations wordFloats sampleCipher
    ⟨sampleSecrets, []⟩ tr p' ∧ ∃ new, p'.state.keyring wordFloats sampleCipher = some new ∧
      new.keys.lookup (py "old") = some (sampleKey 'b') := by
  obtain ⟨old, hold, hkey⟩ := sampleSecrets_keyring
  obtain ⟨tr, hrun, ⟨t, ht, hbefore⟩, hlabels⟩ := Pool.Run.of_start (.alone (· = ToolExn.os))
    (rotateCredentialKeyring wordFloats sampleCipher) sightedRun sampleSecrets
  have hseen : ∀ t ∈ tr, ∀ run, ∀ c ∈ Pool.commitsOf run t.label,
      Seen wordFloats sampleCipher run c.1 c.2 := by
    intro t ht run c hc _ _ hblind
    rcases hlabels t ht with hlabel | ⟨ev, hlabel⟩
    · simp [hlabel, Pool.commitsOf] at hc
    · rw [hlabel, Pool.commitsOf] at hc
      split at hc
      · rename_i hsame
        rw [← hsame] at hblind
        cases hblind
      · cases hc
  obtain ⟨-, hkept, -⟩ := rotations_keep_keys (by simp [wordFloats]) rfl hrun hseen
  obtain ⟨new, hnew, hextends⟩ := hkept t ht old (by rw [hbefore]; exact hold)
  exact ⟨tr, _, hrun, new, hnew, hextends _ _ hkey⟩

/-- A run that does not puts another keyring in its place, and the key is gone. -/
theorem rotations_drop_key : ¬ ∀ (p p' : Pool SecretsDir ToolExn Bool RotationRun)
    (tr : List (Runs.Taken (Pool SecretsDir ToolExn Bool RotationRun)
      (PoolEvent SecretsDir RotationRun))), p.clients = [] →
    Rotations wordFloats sampleCipher p tr p' →
    ∀ t ∈ tr, ∀ old, t.before.state.keyring wordFloats sampleCipher = some old →
      ∃ new, p'.state.keyring wordFloats sampleCipher = some new ∧ old.Extends new := by
  intro h
  have hafter : (((rotateCredentialKeyring wordFloats sampleCipher blindRun).run
      sampleSecrets).2.keyring wordFloats sampleCipher).map
        (·.keys.lookup (py "old")) = some none := by
    decide +kernel
  obtain ⟨old, hold, hkey⟩ := sampleSecrets_keyring
  obtain ⟨tr, hrun, ⟨t, ht, hbefore⟩, -⟩ := Pool.Run.of_start (.alone (· = ToolExn.os))
    (rotateCredentialKeyring wordFloats sampleCipher) blindRun sampleSecrets
  generalize (rotateCredentialKeyring wordFloats sampleCipher blindRun).run sampleSecrets = final
    at hafter hrun
  obtain ⟨new, hnew, hextends⟩ := h _ _ _ rfl hrun t ht old (by rw [hbefore]; exact hold)
  rw [hnew, Option.map_some, hextends _ _ hkey] at hafter
  cases hafter

end MailGate
