import MailGate.Backup.Restorable
import MailGate.Lib.Pool

/-!
# Backups that run side by side

Any number of runs of `create_backup` with one output, and other programs that do to the output
what they like: when a run replaces a file that is there.
-/

namespace MailGate

open Aead Transaction Prog Runs
open Json (Floats)

section

variable {F Ctx ι : Type} (floats : Floats F) (cipher : Cipher UInt8 Ctx) (runs : ι → BackupRun)

/-- The runs of `create_backup` and the directory of their output. -/
abbrev BackupPool (F ι : Type) : Type 1 := Pool BackupDir ArchiveExn (List (PyStr × Json F)) ι

/-- A step that was taken. -/
abbrev BackupStep (F ι : Type) : Type 1 := Taken (BackupPool F ι) (PoolEvent BackupDir ι)

/-- The program of a run. -/
def backupProgram (l : ι) : BackupTool (List (PyStr × Json F)) :=
  createBackup floats cipher (runs l)

/-- A run makes its first step: it looks at the output. -/
def Looks (l : ι) (t : BackupStep F ι) : Prop :=
  ⟨l, backupProgram floats cipher runs l⟩ ∈ t.before.clients ∧ ∃ ev, t.label = .run l ev

/-- A run makes a step that changes what is at the output. -/
def Publishes (l : ι) (t : BackupStep F ι) : Prop :=
  (∃ ev, t.label = .run l ev) ∧ t.after.state.output ≠ t.before.state.output

/-- A file appears at the output. -/
def Appears (t : BackupStep F ι) : Prop :=
  t.before.state.output = none ∧ t.after.state.output ≠ none

/-- No run replaces a file that is at the output. -/
def NeverReplaced (tr : List (BackupStep F ι)) : Prop :=
  ∀ t ∈ tr, ∀ l ev, t.label = .run l ev → t.before.state.output ≠ none →
    t.after.state.output = t.before.state.output

/-- Between the look of a run at the output and its publication no file appears there, except
one that is removed again before the publication; and a file that the look has overlooked is
removed as well. -/
def Undisturbed (tr : List (BackupStep F ι)) : Prop :=
  ∀ l tr₁ look tr₂ publication tr₃, tr = tr₁ ++ look :: (tr₂ ++ publication :: tr₃) →
    Looks floats cipher runs l look → Publishes l publication →
      ((runs l).blind = true → look.before.state.output ≠ none →
        ∃ g ∈ tr₂, g.after.state.output = none) ∧
      ∀ a f b, tr₂ = a ++ f :: b → Appears f → ∃ g ∈ b, g.after.state.output = none

end

section

variable {F Ctx ι : Type} {floats : Floats F} {cipher : Cipher UInt8 Ctx} {runs : ι → BackupRun}
  {W : World BackupDir ArchiveExn}

/-- A commit that leaves a file at the output alone. -/
def KeepsOutput (s s' : BackupDir) : Prop := s.output ≠ none → s'.output = s.output

/-- What `output.exists()` answers. -/
lemma answer_exists {blind : Bool} {s s' : BackupDir} {ev : List (Event BackupDir)}
    {r : Except ArchiveExn Bool}
    (h : Answer W (fun s : BackupDir => .ok (!blind && s.output.isSome, s)) s ev r s') :
    s' = s ∧ ∀ there, r = .ok there → there = (!blind && s.output.isSome) := by
  cases h with
  | commit hbody =>
    cases hbody
    refine ⟨rfl, ?_⟩
    rintro there ⟨⟩
    rfl
  | abort hbody => cases hbody
  | fail => exact ⟨rfl, by simp⟩
  | lost hbody =>
    cases hbody
    exact ⟨rfl, by simp⟩

/-- The program of a run: its first step, and what comes after it. -/
lemma backupProgram_eq (l : ι) : backupProgram floats cipher runs l = .txn
    (fun s => .ok (!(runs l).blind && s.output.isSome, s))
    (fun r => (Prog.done r).bind fun there => if there then
      .compute (.error (backupArchiveError "Refusing to overwrite an existing backup"))
      else createChecked floats cipher (runs l)) := rfl

/-- A run that goes on after its first step has seen no file. -/
lemma begins_look {l : ι} {t : BackupStep F ι}
    (h : Pool.Begins W (backupProgram floats cipher runs) KeepsOutput l t) :
    Looks floats cipher runs l t ∧ t.after.state.output = t.before.state.output ∧
      ((runs l).blind = true ∨ t.before.state.output = none) := by
  obtain ⟨hmem, β, body, next, ev, r, hprog, hlabel, hanswer, hnext⟩ := h
  refine ⟨⟨hmem, ev, hlabel⟩, ?_⟩
  rw [backupProgram_eq] at hprog
  cases hprog
  obtain ⟨hstate, hthere⟩ := answer_exists hanswer
  rw [hstate]
  refine ⟨rfl, ?_⟩
  cases r with
  | error e => exact absurd trivial hnext
  | ok there =>
    have hanswered := hthere there rfl
    cases there with
    | true => exact absurd trivial hnext
    | false =>
      cases hblind : (runs l).blind with
      | true => exact .inl rfl
      | false =>
        rw [hblind, Bool.not_false, Bool.true_and] at hanswered
        exact .inr (Option.isNone_iff_eq_none.1 (Option.isSome_eq_false_iff.1 hanswered.symm))

/-- The first step of a run changes nothing. -/
lemma first_keeps {l : ι} {β : Type} {body : BackupDir → Except ArchiveExn (β × BackupDir)}
    {next : Except ArchiveExn β → BackupTool (List (PyStr × Json F))} {s s' : BackupDir}
    {ev : List (Event BackupDir)} {r : Except ArchiveExn β}
    (hprog : Prog.txn body next = backupProgram floats cipher runs l)
    (h : Answer W body s ev r s') : s' = s := by
  rw [backupProgram_eq] at hprog
  cases hprog
  exact (answer_exists h).1

/-- A run of which a step publishes has looked at the output, and saw no file there. -/
lemma publishes_traced {s : BackupDir} {tr₁ tr₂ : List (BackupStep F ι)} {e : BackupStep F ι}
    {p' : BackupPool F ι} {l : ι}
    (h : Pool.Run W (backupProgram floats cipher runs) ⟨s, []⟩ (tr₁ ++ e :: tr₂) p')
    (hpublishes : Publishes l e) (hthere : e.before.state.output ≠ none) :
    ∃ a look b, tr₁ = a ++ look :: b ∧
      Pool.Begins W (backupProgram floats cipher runs) KeepsOutput l look := by
  obtain ⟨hpre, hstep, -⟩ := h.split
  have htraced := Pool.Run.traced (G := KeepsOutput) hpre rfl
  obtain ⟨⟨ev, hlabel⟩, hchange⟩ := hpublishes
  obtain ⟨before, label, after⟩ := e
  dsimp only at hlabel hchange hthere hstep htraced
  subst hlabel
  cases hstep with
  | @run s₁ s₂ _ first rest β body next _ r hanswer =>
    rcases htraced ⟨l, .txn body next⟩ (by simp) with hstart | hguarantees | htraced
    · exact absurd (congrArg BackupDir.output (first_keeps hstart hanswer)) hchange
    · -- a program that guarantees `KeepsOutput` does not publish here
      have hkeeps : KeepsOutput s₁ s₂ := by
        cases hanswer with
        | commit hbody => exact hguarantees.1 _ _ _ hbody
        | abort => exact fun _ => rfl
        | fail => exact fun _ => rfl
        | lost hbody => exact hguarantees.1 _ _ _ hbody
      exact absurd (hkeeps hthere) hchange
    · exact htraced

/-- The runs of `create_backup` never replace a file exactly where they are left undisturbed
between their look at the output and their publication. -/
theorem never_replaced_iff {s : BackupDir} {tr : List (BackupStep F ι)} {p' : BackupPool F ι}
    (h : Pool.Run W (backupProgram floats cipher runs) ⟨s, []⟩ tr p') :
    NeverReplaced tr ↔ Undisturbed floats cipher runs tr := by
  constructor
  · rintro hnever l tr₁ look tr₂ publication tr₃ rfl ⟨hmem, ev, hlook⟩ ⟨⟨ev', hlabel⟩, hchange⟩
    have hfree : publication.before.state.output = none := by
      by_contra hthere
      exact hchange (hnever _ (by simp) l ev' hlabel hthere)
    obtain ⟨-, -, hafter⟩ := h.split
    obtain ⟨hbetween, -, -⟩ := hafter.split
    -- nothing stands at the output when the run publishes, so what stood there was removed
    have hremoved : ∀ {q : BackupPool F ι} {b : List (BackupStep F ι)},
        Pool.Run W (backupProgram floats cipher runs) q b publication.before →
          q.state.output ≠ none → ∃ g ∈ b, g.after.state.output = none := by
      intro q b hrun hthere
      have hne : q ≠ publication.before := by
        rintro rfl
        exact hthere hfree
      obtain ⟨g, hg, hlast⟩ := hrun.last hne
      exact ⟨g, hg, hlast ▸ hfree⟩
    refine ⟨fun _ hthere => hremoved hbetween ?_, ?_⟩
    · rw [hnever _ (by simp) l ev hlook hthere]
      exact hthere
    · rintro a f b rfl ⟨-, happears⟩
      exact hremoved hbetween.split.2.2 happears
  · rintro hundisturbed e he l ev hlabel hthere
    by_contra hchange
    obtain ⟨tr₁, tr₃, rfl⟩ := List.append_of_mem he
    obtain ⟨a, look, tr₂, rfl, hbegins⟩ := publishes_traced h ⟨⟨ev, hlabel⟩, hchange⟩ hthere
    obtain ⟨hlooks, hunchanged, hsaw⟩ := begins_look hbegins
    obtain ⟨hoverlooked, hundisturbed⟩ := hundisturbed l a look tr₂ e tr₃ (by simp) hlooks
      ⟨⟨ev, hlabel⟩, hchange⟩
    have hrun := h
    rw [List.append_assoc, List.cons_append] at hrun
    obtain ⟨hbetween, -, -⟩ := hrun.split.2.2.split
    -- since when has the output been there: since the look, or since another program made it
    rcases hbetween.since (P := fun q => q.state.output ≠ none) hthere with
      ⟨hstart, hall⟩ | ⟨b, f, c, rfl, -, -, -, hbefore, hafter, hall⟩
    · rw [hunchanged] at hstart
      obtain ⟨g, hg, hnone⟩ := hoverlooked (hsaw.resolve_right hstart) hstart
      exact (hall g hg).2 hnone
    · obtain ⟨g, hg, hnone⟩ := hundisturbed b f c rfl ⟨not_not.1 hbefore, hafter⟩
      exact (hall g hg).2 hnone

end

/-! ## A file that appears while a run is dumping -/

/-- A world in which other programs do what they like, and no call fails. -/
def busyWorld : World BackupDir ArchiveExn := ⟨fun _ _ => True, fun _ => False⟩

/-- A single run. -/
def oneRun : Unit → BackupRun := fun _ => keyringRun .absent

/-- The directory after another program has made a file at the output. -/
def takenDir : BackupDir := ⟨some ⟨0, []⟩, [], 1, by simp⟩

/-- A run looks at the output, another program makes a file there, and the run goes on. -/
lemma replaced_run : ∃ (tr : List (BackupStep Unit Unit)) (p' : BackupPool Unit Unit),
    Pool.Run busyWorld (backupProgram halfFloats openCipher oneRun) ⟨emptyBackupDir, []⟩ tr p' ∧
      ¬NeverReplaced tr := by
  obtain ⟨key, payloadPrefix, command, content, hpublished⟩ :=
    published_keyringRun (show (credentialBundle halfFloats (keyringRun .absent).secrets).isOk =
      true by decide +kernel)
  have hchecked := run_createChecked hpublished takenDir
  obtain ⟨tr, hrun, hlabels⟩ := Pool.Run.of_run busyWorld
    (backupProgram halfFloats openCipher oneRun) ()
    (createChecked halfFloats openCipher (keyringRun .absent)) takenDir
  rw [hchecked] at hrun
  have hstart : Pool.Step busyWorld (backupProgram halfFloats openCipher oneRun) (.start ())
      ⟨emptyBackupDir, []⟩
      ⟨emptyBackupDir, [⟨(), backupProgram halfFloats openCipher oneRun ()⟩]⟩ :=
    .start (by simp)
  have hlook : Pool.Step busyWorld (backupProgram halfFloats openCipher oneRun)
      (.run () [.own emptyBackupDir emptyBackupDir])
      ⟨emptyBackupDir, [⟨(), backupProgram halfFloats openCipher oneRun ()⟩]⟩
      ⟨emptyBackupDir, [⟨(), createChecked halfFloats openCipher (keyringRun .absent)⟩]⟩ := by
    rw [backupProgram_eq]
    exact @Pool.Step.run _ _ _ _ _ _ emptyBackupDir emptyBackupDir () [] [] _ _ _ _ (.ok false)
      (.commit rfl)
  have hother : Pool.Step busyWorld (backupProgram halfFloats openCipher oneRun) .env
      ⟨emptyBackupDir, [⟨(), createChecked halfFloats openCipher (keyringRun .absent)⟩]⟩
      ⟨takenDir, [⟨(), createChecked halfFloats openCipher (keyringRun .absent)⟩]⟩ :=
    .env trivial
  refine ⟨_, _, .cons hstart (.cons hlook (.cons hother hrun)), fun hnever => ?_⟩
  have hkept : (takenDir.withOutput content).output = takenDir.output := by
    refine (hrun.kept (I := fun q => q.state.output = takenDir.output) ?_ rfl).1
    intro t ht hbefore
    obtain ⟨ev, hlabel⟩ := hlabels t ht
    rw [hnever t (by simp [ht]) () ev hlabel (by rw [hbefore]; simp [takenDir]), hbefore]
  cases hkept

/-- A run of `create_backup` can replace a file that is at the output. -/
theorem backup_replaced : ∃ (tr : List (BackupStep Unit Unit)) (p' : BackupPool Unit Unit),
    Pool.Run busyWorld (backupProgram halfFloats openCipher oneRun) ⟨emptyBackupDir, []⟩ tr p' ∧
      ∃ t ∈ tr, ∃ l ev, t.label = .run l ev ∧ t.before.state.output ≠ none ∧
        t.after.state.output ≠ t.before.state.output := by
  obtain ⟨tr, p', hrun, hnot⟩ := replaced_run
  refine ⟨tr, p', hrun, ?_⟩
  simpa [NeverReplaced, and_assoc] using hnot

/-- That run has been disturbed. -/
theorem never_replaced_iff_disturbed :
    ∃ (tr : List (BackupStep Unit Unit)) (p' : BackupPool Unit Unit),
      Pool.Run busyWorld (backupProgram halfFloats openCipher oneRun) ⟨emptyBackupDir, []⟩ tr p' ∧
        ¬NeverReplaced tr ∧ ¬Undisturbed halfFloats openCipher oneRun tr := by
  obtain ⟨tr, p', hrun, hnot⟩ := replaced_run
  exact ⟨tr, p', hrun, hnot, fun h => hnot ((never_replaced_iff hrun).2 h)⟩

end MailGate
