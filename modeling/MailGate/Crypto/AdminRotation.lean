import MailGate.Crypto.AdminPassword

/-!
# What a rotation of the administrator's password leaves behind

A run of the tool can fail at every command and at every write of the file.  Here is what its
outcome says about PostgreSQL and the file, and in which runs the file loses a password that
PostgreSQL never gave up.
-/

namespace MailGate

open Scripts Script

/-! ## Messages -/

/-- Two errors are the same when their messages are. -/
@[simp] lemma rotationToolError_inj {a b : String} :
    rotationToolError a = rotationToolError b ↔ a = b := by
  simp only [rotationToolError, ToolExn.tool.injEq]
  exact PyStr.py_injective.eq_iff

@[simp] lemma other_ne_rotationToolError (a : String) : ToolExn.other ≠ rotationToolError a := by
  simp [rotationToolError]

@[simp] lemma os_ne_rotationToolError (a : String) : ToolExn.os ≠ rotationToolError a := by
  simp [rotationToolError]

/-- `$(cat postgres_password)`. -/
def shellText (text : PyStr) : PyStr := text.rdropWhile (· = ofChar '\n')

/-- PostgreSQL and the file hold this password. -/
structure AdminStores.Hold (s : AdminStores) (value : PyStr) : Prop where
  role : s.role = value
  file : shellText s.file = value

/-- The TCP probe. -/
def probes : List AdminCall := [.currentProbe, .rotatedProbe, .retainedProbe, .restoredProbe]

/-- The TCP probe returns 0 exactly when the file has the password of the role. -/
def AdminRun.Probing (run : AdminRun) : Prop :=
  ∀ c ∈ probes, ∀ s, run.call c s = .success ↔ shellText s.file = s.role

/-- `RotationToolError("... were restored and verified")`. -/
def restored : ToolExn :=
  rotationToolError
    "Admin rotation failed; PostgreSQL and the secret file were restored and verified"

/-- `RotationToolError("... remain on the new value ...")`. -/
def retained : ToolExn :=
  rotationToolError ("Rollback failed; PostgreSQL and the secret file remain on the new value. " ++
    "Keep services stopped and rerun bootstrap after inspection")

/-- `RotationToolError("...; nothing changed")`. -/
def nothingChanged : List ToolExn :=
  [rotationToolError "The local PostgreSQL recovery channel is unavailable; nothing changed",
    rotationToolError "The current admin secret does not authenticate; nothing changed"]

/-- The exceptions that the messages of the outcome belong to. -/
def reports : List ToolExn := restored :: retained :: nothingChanged

section

variable {run : AdminRun} {s : AdminStores} {c : AdminCall}
  {effect : AdminStores → AdminStores} {stage : String}

/-! ## Commands and writes -/

/-- The exceptions of a command or a write. -/
def callErrors (stage : String) : List ToolExn :=
  [rotationToolError stage, rotationToolError "A Docker Compose operation could not be executed",
    .other]

/-- A command that does not succeed raises, in the state that it has left. -/
lemma requireSuccess_ends_exact {Q : Except ToolExn Unit → AdminStores → Prop}
    (hok : run.call c s = .success → Q (.ok ()) (effect s))
    (herror : run.call c s ≠ .success → ∀ e ∈ callErrors stage,
      Q (.error e) (if (run.call c s).tookEffect then effect s else s)) :
    (requireSuccess run c effect stage).Ends s Q := by
  rw [requireSuccess, ends_bind]
  simp only [Ends, runner]
  cases hcall : run.call c s with
  | success => exact hok hcall
  | failure took =>
    rw [hcall] at herror
    exact herror (by simp) _ (by simp [callErrors])
  | raised took =>
    rw [hcall] at herror
    exact herror (by simp) _ (by simp [callErrors])
  | interrupted took =>
    rw [hcall] at herror
    exact herror (by simp) _ (by simp [callErrors])

/-- How a command or a write ends, if nothing is known of its effect. -/
lemma requireSuccess_ends {Q : Except ToolExn Unit → AdminStores → Prop}
    (hok : run.call c s = .success → Q (.ok ()) (effect s))
    (herror : ∀ e ∈ callErrors stage, ∀ s', s' = s ∨ s' = effect s → Q (.error e) s') :
    (requireSuccess run c effect stage).Ends s Q := by
  refine requireSuccess_ends_exact hok fun _ e he => herror e he _ ?_
  split
  · exact .inr rfl
  · exact .inl rfl

/-- How a command ends that changes nothing. -/
lemma requireOther_ends {Q : Except ToolExn Unit → AdminStores → Prop}
    (hok : run.call c s = .success → Q (.ok ()) s)
    (herror : run.call c s ≠ .success → ∀ e ∈ callErrors stage, Q (.error e) s) :
    (requireOther run c stage).Ends s Q := by
  refine requireSuccess_ends_exact hok fun hcall e he => ?_
  rw [id, ite_self]
  exact herror hcall e he

/-! ## Passwords -/

lemma isAdminPassword_iff {value : PyStr} : isAdminPassword value = true ↔
    16 ≤ value.length ∧ value.length ≤ 1024 ∧ ∀ c ∈ value, 32 ≤ c.val := by
  simp [isAdminPassword, and_assoc]

/-- What the tool writes is what the containers read. -/
lemma shellText_line {value : PyStr} (h : isAdminPassword value = true) :
    shellText (value ++ py "\n") = value := by
  have hline : py "\n" = [ofChar '\n'] := by decide
  have hplain : ∀ c ∈ value, c ≠ ofChar '\n' := by
    rintro c hc rfl
    have hlow := (isAdminPassword_iff.1 h).2.2 _ hc
    revert hlow
    decide
  rw [shellText, hline, List.rdropWhile_concat_pos _ _ _ (by simp), List.rdropWhile_eq_self_iff]
  intro hne
  simpa using hplain _ (List.getLast_mem hne)

/-! ## What the outcome says -/

/-- What an outcome says about PostgreSQL and the file. -/
structure Tells (oldPassword newPassword : PyStr) (before : AdminStores)
    (r : Except ToolExn Unit) (after : AdminStores) : Prop where
  returned : r = .ok () → after.Hold newPassword
  restored : r = .error restored → after.Hold oldPassword
  retained : r = .error retained → after.Hold newPassword
  unchanged : ∀ e ∈ nothingChanged, r = .error e → after = before

variable {oldPassword newPassword : PyStr} {before : AdminStores}

/-- An exception with another message says nothing. -/
lemma tells_of_not_mem {e : ToolExn} (he : e ∉ reports) (after : AdminStores) :
    Tells oldPassword newPassword before (.error e) after := by
  constructor
  · simp
  · rintro h
    cases h
    exact absurd (by simp [reports]) he
  · rintro h
    cases h
    exact absurd (by simp [reports]) he
  · rintro e' he' h
    cases h
    exact absurd (by simp [reports, he']) he

lemma reports_nodup : reports.Nodup := by
  simp [reports, restored, retained, nothingChanged]

lemma tells_returned {after : AdminStores} (h : after.Hold newPassword) :
    Tells oldPassword newPassword before (.ok ()) after :=
  ⟨fun _ => h, by simp, by simp, by simp⟩

lemma tells_restored {after : AdminStores} (h : after.Hold oldPassword) :
    Tells oldPassword newPassword before (.error restored) after := by
  have hother := (List.nodup_cons.1 reports_nodup).1
  rw [List.mem_cons, not_or] at hother
  refine ⟨by simp, fun _ => h, fun heq => absurd (Except.error.inj heq) hother.1, ?_⟩
  intro e he heq
  rw [← Except.error.inj heq] at he
  exact absurd he hother.2

lemma tells_retained {after : AdminStores} (h : after.Hold newPassword) :
    Tells oldPassword newPassword before (.error retained) after := by
  have hother := List.nodup_cons.1 reports_nodup
  have hretained := (List.nodup_cons.1 hother.2).1
  rw [List.mem_cons, not_or] at hother
  refine ⟨by simp, fun heq => absurd (Except.error.inj heq).symm hother.1.1, fun _ => h, ?_⟩
  intro e he heq
  rw [← Except.error.inj heq] at he
  exact absurd he hretained

/-- Before the change, a run that raises has changed nothing. -/
lemma tells_unchanged {e : ToolExn} (hrestored : e ≠ restored) (hretained : e ≠ retained) :
    Tells oldPassword newPassword before (.error e) before := by
  refine ⟨by simp, fun heq => ?_, fun heq => ?_, fun _ _ _ => rfl⟩
  · exact absurd (Except.error.inj heq) hrestored
  · exact absurd (Except.error.inj heq) hretained

/-- Where the rollback of the role has failed: the file is written, and the probe tells whether
PostgreSQL has the same password. -/
lemma retainNew_tells (hprobing : run.Probing) (hnew : isAdminPassword newPassword = true) :
    (retainNew run newPassword).Ends s fun r s' =>
      ∃ e, r = .error e ∧ Tells oldPassword newPassword before (.error e) s' := by
  have hlost : rotationToolError ("Rollback failed and database/file alignment could not be " ++
      "verified; manual recovery through the local database channel is required") ∉ reports := by
    simp [reports, restored, retained, nothingChanged]
  rw [retainNew, ends_bind, ends_tryCatch, ends_bind]
  refine requireSuccess_ends (fun _ => ?_) fun e _ s' _ => ⟨_, rfl, tells_of_not_mem hlost s'⟩
  show Ends _ _ _
  rw [ends_bind]
  refine requireOther_ends (fun hprobe => ?_) fun _ e _ => ⟨_, rfl, tells_of_not_mem hlost _⟩
  have hfile := shellText_line hnew
  have hrole := (hprobing _ (by decide) _).1 hprobe
  exact ⟨_, rfl, tells_retained ⟨hrole.symm.trans hfile, hfile⟩⟩

/-- The handler: PostgreSQL is given the old password again, and then the file is. -/
lemma rollBack_tells (hprobing : run.Probing) (hold : isAdminPassword oldPassword = true)
    (hnew : isAdminPassword newPassword = true) :
    (rollBack run oldPassword newPassword).Ends s (Tells oldPassword newPassword before) := by
  have hfailed : rotationToolError
      ("PostgreSQL was rolled back but the previous secret file could " ++
        "not be restored and verified; manual recovery is required") ∉ reports := by
    simp [reports, restored, retained, nothingChanged]
  rw [rollBack, ends_bind, ends_tryCatch]
  refine requireSuccess_ends (fun _ => ?_) fun e _ s' _ => ?_
  · show Ends _ _ _
    rw [ends_bind, ends_tryCatch, ends_bind]
    refine requireSuccess_ends (fun _ => ?_) fun e _ s' _ => tells_of_not_mem hfailed s'
    refine requireOther_ends (fun _ => ?_) fun _ e _ => tells_of_not_mem hfailed _
    exact tells_restored ⟨rfl, shellText_line hold⟩
  · have hretain : (retainNew run newPassword).Ends s' fun r s'' =>
        ∃ e, r = .error e ∧ Tells oldPassword newPassword before (.error e) s'' :=
      retainNew_tells hprobing hnew
    refine hretain.mono ?_
    rintro r s'' ⟨e', rfl, h⟩
    exact h

/-- The block around the change returns only after it has seen the new password in use. -/
lemma changePassword_tells (hnew : isAdminPassword newPassword = true)
    {Q : Except ToolExn Unit → AdminStores → Prop} (hok : ∀ s', s'.Hold newPassword → Q (.ok ()) s')
    (herror : ∀ e s', Q (.error e) s') : (changePassword run newPassword).Ends s Q := by
  rw [changePassword, ends_bind]
  refine requireSuccess_ends (fun _ => ?_) fun e _ s' _ => herror e s'
  show Ends _ _ _
  rw [ends_bind]
  refine requireSuccess_ends (fun _ => ?_) fun e _ s' _ => herror e s'
  show Ends _ _ _
  rw [ends_bind]
  refine requireOther_ends (fun _ => ?_) fun _ e _ => herror e _
  refine requireOther_ends (fun _ => ?_) fun _ e _ => herror e _
  exact hok _ ⟨rfl, shellText_line hnew⟩

/-- Nothing that is raised before the change belongs to a report of a change. -/
lemma tells_early {e : ToolExn} (h : e ∉ [restored, retained]) :
    Tells oldPassword newPassword before (.error e) before := by
  simp only [List.mem_cons, List.not_mem_nil, or_false, not_or] at h
  exact tells_unchanged h.1 h.2

lemma tells_stage {e : ToolExn} (he : e ∈ callErrors stage)
    (hstage : rotationToolError stage ∉ [restored, retained]) :
    Tells oldPassword newPassword before (.error e) before := by
  simp only [callErrors, List.mem_cons, List.not_mem_nil, or_false] at he
  rcases he with rfl | rfl | rfl
  · exact tells_early hstage
  · exact tells_early (by simp [restored, retained])
  · exact tells_unchanged (by simp [restored]) (by simp [retained])

lemma accept_ends {refusal : Option Refusal} {Q : Except ToolExn Unit → AdminStores → Prop}
    (hok : refusal = none → Q (.ok ()) s)
    (herror : refusal ≠ none → ∀ e ∉ [restored, retained], Q (.error e) s) :
    (accept refusal).Ends s Q := by
  cases refusal with
  | none => exact hok rfl
  | some refusal =>
    refine herror (by simp) refusal.exception ?_
    cases refusal <;> simp [Refusal.exception, restored, retained]

lemma perform_ends {works : Bool} {e : ToolExn} {Q : Except ToolExn Unit → AdminStores → Prop}
    (hok : works = true → Q (.ok ()) s) (herror : works = false → Q (.error e) s) :
    (perform works e).Ends s Q := by
  cases works with
  | true => exact hok rfl
  | false => exact herror rfl

/-- The exceptions of the lock file. -/
def lockErrors : List ToolExn := [.os, rotationToolError "Unable to release the rotation lock"]

/-- The lock is released, or it is not. -/
lemma releaseLock_ends {Q : Except ToolExn Unit → AdminStores → Prop} (hok : Q (.ok ()) s)
    (herror : ∀ e ∈ lockErrors, Q (.error e) s) :
    Ends (do
      perform run.close .os
      perform run.release (rotationToolError "Unable to release the rotation lock")) s Q := by
  rw [ends_bind]
  refine perform_ends (fun _ => ?_) fun _ => herror _ (by simp [lockErrors])
  exact perform_ends (fun _ => hok) fun _ => herror _ (by simp [lockErrors])

/-- How the body ends under the lock, where it is entered at all. -/
lemma holdingLock_ends {body : AdminTool Unit} {Q : Except ToolExn Unit → AdminStores → Prop}
    (hbody : run.note = true → body.Ends s fun r s' =>
      Q r s' ∧ ∀ e ∈ lockErrors, Q (.error e) s')
    (hnote : run.note = false → ∀ e ∈ lockErrors, Q (.error e) s) :
    (holdingLock run body).Ends s Q := by
  rw [holdingLock, ends_finallyDo, ends_bind]
  refine perform_ends (fun hnoted => ?_) fun hnoted => ?_
  · exact (hbody hnoted).mono fun r s' h => releaseLock_ends h.1 h.2
  · exact releaseLock_ends (hnote hnoted .os List.mem_cons_self) (hnote hnoted)

/-- A check before the change does nothing but raise. -/
lemma ends_check {α : Type} {condition : Bool} {message : String} {p : AdminTool α}
    {Q : Except ToolExn α → AdminStores → Prop}
    (hraise : condition = true → Q (.error (rotationToolError message)) s)
    (hp : condition = false → p.Ends s Q) :
    (if condition then raiseAdmin message else p).Ends s Q := by
  cases condition with
  | true => exact hraise rfl
  | false => exact hp rfl

lemma rotateUnderLock_tells (hprobing : run.Probing) :
    (rotateUnderLock run).Ends s (Tells (PyStr.strip s.file) run.generated s) := by
  rw [rotateUnderLock, readAdminSecret, ends_bind, ends_bind]
  refine accept_ends (fun _ => ?_) fun _ e h => tells_early h
  show Ends _ _ _
  rw [ends_bind, ends_look]
  dsimp only
  split
  · exact tells_early (by simp [restored, retained])
  rw [ends_pure]
  show Ends _ _ _
  rw [ends_bind, validatePassword]
  split
  swap
  · exact tells_early (by simp [restored, retained])
  rename_i hold
  rw [ends_pure]
  show Ends _ _ _
  rw [ends_bind, validatePassword]
  split
  swap
  · exact tells_early (by simp [restored, retained])
  rename_i hnew
  rw [ends_pure]
  show Ends _ _ _
  split
  · exact tells_early (by simp [restored, retained])
  rw [ends_bind]
  -- the first two commands change nothing, whether they succeed or not
  refine requireOther_ends (fun _ => ?_) fun _ e he =>
    tells_stage he (by simp [restored, retained])
  show Ends _ _ _
  rw [ends_bind]
  refine requireOther_ends (fun _ => ?_) fun _ e he =>
    tells_stage he (by simp [restored, retained])
  show Ends _ _ _
  rw [ends_tryCatch]
  exact changePassword_tells hnew (fun s' h => tells_returned h) fun e s' =>
    rollBack_tells hprobing hold hnew

/-- The outcome of a rotation is true: in every run, whatever fails and whether or not it has
taken effect by then, what the tool says of PostgreSQL and the file is so. -/
theorem rotatePostgresAdminPassword_tells (run : AdminRun) (hprobing : run.Probing)
    (s : AdminStores) : (rotatePostgresAdminPassword run).Ends s
      (Tells (PyStr.strip s.file) run.generated s) := by
  rw [rotatePostgresAdminPassword]
  refine ends_check (fun _ => tells_early (by simp [restored, retained])) fun _ => ?_
  refine ends_check (fun _ => tells_early (by simp [restored, retained])) fun _ => ?_
  rw [ends_bind]
  refine accept_ends (fun _ => ?_) fun _ e h => tells_early h
  show Ends _ _ _
  rw [ends_bind]
  refine accept_ends (fun _ => ?_) fun _ e h => tells_early h
  have hlock : ∀ e ∈ lockErrors, e ∉ reports := by
    simp [lockErrors, reports, restored, retained, nothingChanged]
  refine holdingLock_ends (fun _ => ?_) fun _ e he => tells_of_not_mem (hlock e he) s
  exact (rotateUnderLock_tells hprobing).mono fun r s' h =>
    ⟨h, fun e he => tells_of_not_mem (hlock e he) s'⟩

end

/-! ## Rotations that PostgreSQL takes no part in -/

/-- Everything before the first `\password` command goes well. -/
structure AdminRun.Ready (run : AdminRun) (s : AdminStores) : Prop where
  repository : run.repositoryIsDir = true
  database : isDatabaseName run.databaseName = true
  directory : run.directory = none
  lock : run.lock = none
  note : run.note = true
  secret : run.secret = none
  old : isAdminPassword (PyStr.strip s.file) = true
  new : isAdminPassword run.generated = true
  differs : run.generated ≠ PyStr.strip s.file
  localAdmin : run.call .localAdmin s = .success
  currentProbe : run.call .currentProbe s = .success

section

variable {run : AdminRun} {s : AdminStores}

/-- The write of the new password after a failed rollback takes effect. -/
def AdminRun.Overwrites (run : AdminRun) (s : AdminStores) : Prop :=
  run.Ready s ∧ (run.call .writeRetained s).tookEffect = true

/-- The file after a run whose `\password` commands have no effect. -/
structure AdminRun.FileAfter (run : AdminRun) (s : AdminStores) (file : PyStr) : Prop where
  overwritten : run.Overwrites s → file = run.generated ++ py "\n"
  kept : ¬run.Overwrites s → file = s.file

/-- A run that stops before the change leaves the file alone. -/
lemma fileAfter_of_not_ready (h : ¬run.Ready s) : run.FileAfter s s.file :=
  ⟨fun h' => absurd h'.1 h, fun _ => rfl⟩

lemma requirePassword_ends {c : AdminCall} {value : PyStr} {stage : String}
    (hnone : (run.call c s).tookEffect = false) {Q : Except ToolExn Unit → AdminStores → Prop}
    (herror : ∀ e, Q (.error e) s) : (requirePassword run c value stage).Ends s Q := by
  refine requireSuccess_ends_exact (fun hcall => ?_) fun _ e _ => ?_
  · rw [hcall] at hnone
    cases hnone
  · rw [hnone]
    exact herror e

variable (run) in
lemma retainNew_file {newPassword : PyStr} : (retainNew run newPassword).Ends s fun r s' =>
    (∃ e, r = .error e) ∧ s'.file =
      if (run.call .writeRetained s).tookEffect then newPassword ++ py "\n" else s.file := by
  rw [retainNew, ends_bind, ends_tryCatch, ends_bind]
  refine requireSuccess_ends_exact (fun hcall => ?_) fun _ e _ => ?_
  · show Ends _ _ _
    rw [ends_bind, hcall]
    -- the probe changes nothing, whatever comes of it
    exact requireOther_ends (fun _ => ⟨⟨_, rfl⟩, rfl⟩) fun _ e _ => ⟨⟨_, rfl⟩, rfl⟩
  · refine ⟨⟨_, rfl⟩, ?_⟩
    split <;> rfl

/-- After two `\password` commands without an effect, the new password is written all the same. -/
lemma rollBack_file {oldPassword newPassword : PyStr}
    (hrollback : (run.call .rollbackRole s).tookEffect = false) :
    (rollBack run oldPassword newPassword).Ends s fun _ s' => s'.file =
      if (run.call .writeRetained s).tookEffect then newPassword ++ py "\n" else s.file := by
  rw [rollBack, ends_bind, ends_tryCatch]
  refine requirePassword_ends hrollback fun e => ?_
  refine (retainNew_file run).mono ?_
  rintro r s' ⟨⟨e', rfl⟩, h⟩
  exact h

/-- What a run under the lock does to the file, where everything before it has gone well. -/
lemma rotateUnderLock_file (hupdate : (run.call .updateRole s).tookEffect = false)
    (hrollback : (run.call .rollbackRole s).tookEffect = false)
    (hbefore : run.repositoryIsDir = true ∧ isDatabaseName run.databaseName = true ∧
      run.directory = none ∧ run.lock = none ∧ run.note = true) :
    (rotateUnderLock run).Ends s fun _ s' => run.FileAfter s s'.file := by
  rw [rotateUnderLock, readAdminSecret, ends_bind, ends_bind]
  refine accept_ends (fun hsecret => ?_) fun hsecret e _ =>
    fileAfter_of_not_ready fun h => hsecret h.secret
  show Ends _ _ _
  rw [ends_bind, ends_look]
  dsimp only
  split
  · rename_i hempty
    refine fileAfter_of_not_ready fun h => ?_
    obtain ⟨hlength, -, hplain⟩ := isAdminPassword_iff.1 h.old
    rcases hempty with hnil | hzero
    · rw [hnil] at hlength
      exact absurd hlength (by decide)
    · exact absurd (hplain 0 hzero) (by decide)
  rw [ends_pure]
  show Ends _ _ _
  rw [ends_bind, validatePassword]
  split
  swap
  · rename_i hold
    exact fileAfter_of_not_ready fun h => hold h.old
  rename_i hold
  rw [ends_pure]
  show Ends _ _ _
  rw [ends_bind, validatePassword]
  split
  swap
  · rename_i hnew
    exact fileAfter_of_not_ready fun h => hnew h.new
  rename_i hnew
  rw [ends_pure]
  show Ends _ _ _
  split
  · rename_i hsame
    exact fileAfter_of_not_ready fun h => h.differs hsame
  rename_i hdiffers
  rw [ends_bind]
  refine requireOther_ends (fun hlocal => ?_) fun hlocal e he =>
    fileAfter_of_not_ready fun h => hlocal h.localAdmin
  show Ends _ _ _
  rw [ends_bind]
  refine requireOther_ends (fun hprobe => ?_) fun hprobe e he =>
    fileAfter_of_not_ready fun h => hprobe h.currentProbe
  -- every check is passed, so what happens next depends on the rollback alone
  have hready : run.Ready s :=
    ⟨hbefore.1, hbefore.2.1, hbefore.2.2.1, hbefore.2.2.2.1, hbefore.2.2.2.2, hsecret, hold, hnew,
      hdiffers, hlocal, hprobe⟩
  show Ends _ _ _
  rw [ends_tryCatch, changePassword, ends_bind]
  refine requirePassword_ends hupdate fun e => ?_
  refine (rollBack_file hrollback).mono fun _ s' hfile => ⟨fun h => ?_, fun h => ?_⟩
  · rw [hfile, if_pos h.2]
  · rw [hfile, if_neg fun heffect => h ⟨hready, heffect⟩]

/-- What a whole run does to the file. -/
lemma rotate_file (hupdate : (run.call .updateRole s).tookEffect = false)
    (hrollback : (run.call .rollbackRole s).tookEffect = false) :
    (rotatePostgresAdminPassword run).Ends s fun _ s' => run.FileAfter s s'.file := by
  rw [rotatePostgresAdminPassword]
  refine ends_check (fun h => fileAfter_of_not_ready fun hready => ?_) fun hrepository => ?_
  · rw [hready.repository] at h
    cases h
  refine ends_check (fun h => fileAfter_of_not_ready fun hready => ?_) fun hdatabase => ?_
  · rw [hready.database] at h
    cases h
  rw [Bool.not_eq_false'] at hrepository hdatabase
  rw [ends_bind]
  refine accept_ends (fun hdirectory => ?_) fun hdirectory e _ =>
    fileAfter_of_not_ready fun h => hdirectory h.directory
  show Ends _ _ _
  rw [ends_bind]
  refine accept_ends (fun hlock => ?_) fun hlock e _ =>
    fileAfter_of_not_ready fun h => hlock h.lock
  refine holdingLock_ends (fun hnote => ?_) fun hnote e _ => fileAfter_of_not_ready fun h => ?_
  · exact (rotateUnderLock_file hupdate hrollback
      ⟨hrepository, hdatabase, hdirectory, hlock, hnote⟩).mono fun r s' h => ⟨h, fun _ _ => h⟩
  · rw [h.note] at hnote
    cases hnote

/-- In a run in which no `\password` command takes effect, the file keeps the password that it
holds exactly when the run stops before the change, or the write of the new password after the
failed rollback has no effect, or the two passwords are the same. -/
theorem file_kept_iff (run : AdminRun) (s : AdminStores)
    (hupdate : (run.call .updateRole s).tookEffect = false)
    (hrollback : (run.call .rollbackRole s).tookEffect = false) :
    shellText ((rotatePostgresAdminPassword run) s).2.file = shellText s.file ↔
      ¬run.Ready s ∨ (run.call .writeRetained s).tookEffect = false ∨
        run.generated = shellText s.file := by
  have hafter : run.FileAfter s ((rotatePostgresAdminPassword run) s).2.file :=
    rotate_file hupdate hrollback
  by_cases h : run.Overwrites s
  · rw [hafter.overwritten h, shellText_line h.1.new, h.2]
    constructor
    · exact fun hsame => .inr (.inr hsame)
    · rintro (hready | hnone | hsame)
      · exact absurd h.1 hready
      · cases hnone
      · exact hsame
  · rw [hafter.kept h]
    refine iff_of_true rfl ?_
    by_cases hready : run.Ready s
    · exact .inr (.inl (Bool.eq_false_of_not_eq_true fun heffect => h ⟨hready, heffect⟩))
    · exact .inl hready

end

/-! ## Two runs -/

/-- Sixteen times the same letter. -/
def sixteen (c : Char) : PyStr := List.replicate 16 (ofChar c)

/-- A run that meets no obstacle before the change; `call` says how its commands and writes end. -/
def sampleRun (call : AdminCall → AdminStores → CallOutcome) : AdminRun where
  repositoryIsDir := true
  databaseName := py "mailgate"
  directory := none
  lock := none
  secret := none
  note := true
  close := true
  release := true
  generated := sixteen 'n'
  call := call

/-- PostgreSQL and the file have the same password. -/
def sampleStores : AdminStores := ⟨sixteen 'o', sixteen 'o' ++ py "\n"⟩

/-- A run in which everything works. -/
def workingRun : AdminRun := sampleRun fun c s =>
  if c ∈ probes ∧ shellText s.file ≠ s.role then .failure false else .success

/-- PostgreSQL rejects both `\password` commands; everything else works. -/
def rejectingRun : AdminRun := sampleRun fun c s =>
  if c = .updateRole ∨ c = .rollbackRole then .failure false else workingRun.call c s

lemma workingRun_probing : workingRun.Probing := by
  intro c hc s
  show (if c ∈ probes ∧ shellText s.file ≠ s.role then CallOutcome.failure false else .success) =
    .success ↔ _
  split
  · rename_i h
    exact iff_of_false (by simp) h.2
  · rename_i h
    exact iff_of_true rfl (by simpa [hc] using h)

/-- A rotation that succeeds. -/
theorem rotatePostgresAdminPassword_tells_success :
    ((rotatePostgresAdminPassword workingRun) sampleStores).2.Hold (sixteen 'n') :=
  (rotatePostgresAdminPassword_tells workingRun workingRun_probing sampleStores).returned
    (by decide +kernel)

/-- The file loses the password that PostgreSQL still has. -/
theorem file_lost : ¬ ∀ (run : AdminRun) (s : AdminStores),
    (∀ s', (run.call .updateRole s').tookEffect = false) →
    (∀ s', (run.call .rollbackRole s').tookEffect = false) →
      shellText ((rotatePostgresAdminPassword run) s).2.file = shellText s.file := by
  intro h
  have hkept := h rejectingRun sampleStores (fun _ => rfl) fun _ => rfl
  revert hkept
  decide +kernel

/-- The run of `rejectingRun` does not keep the file, as nothing stops it. -/
theorem file_kept_iff_rejecting : ¬(¬rejectingRun.Ready sampleStores ∨
    (rejectingRun.call .writeRetained sampleStores).tookEffect = false ∨
      rejectingRun.generated = shellText sampleStores.file) := by
  rw [← file_kept_iff rejectingRun sampleStores rfl rfl]
  decide +kernel

/-- The file has another password than PostgreSQL to begin with. -/
def apartStores : AdminStores := ⟨sixteen 'p', sixteen 'o' ++ py "\n"⟩

/-- The probe refuses the run, and PostgreSQL does not hold the password of the file. -/
theorem nothingChanged_apart : ¬ ∀ (run : AdminRun) (s : AdminStores), run.Probing →
    ∀ e ∈ nothingChanged, ((rotatePostgresAdminPassword run) s).1 = .error e →
      ((rotatePostgresAdminPassword run) s).2.Hold (PyStr.strip s.file) := by
  intro h
  have hraised : ((rotatePostgresAdminPassword workingRun) apartStores).1 =
      .error (rotationToolError
        "The current admin secret does not authenticate; nothing changed") := by
    decide +kernel
  have hhold := h workingRun apartStores workingRun_probing _ (by simp [nothingChanged]) hraised
  have hrole := hhold.role
  revert hrole
  decide +kernel

end MailGate
