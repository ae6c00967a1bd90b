import MailGate.Lib.RelyGuarantee
import MailGate.OwnerExport.RoundTrip

/-!
# The export command

`management/commands/export_owner_data.py`: the records go to a temporary file, which is linked
to the path of the output.  Each call of the system and each transaction is one step; between
two steps other programs change the database and the directory.
-/

namespace MailGate

namespace OwnerExport

open Transaction Prog

/-! ## The command -/

/-- What the command and everybody else work on. -/
structure ExportState where
  store : Snapshot
  /-- What stands at a path. -/
  files : PyStr → Option Bytes
  /-- `target.parent.is_dir()`. -/
  parentIsDir : Bool
  /-- The temporary file of the command. -/
  temporary : Option Bytes

/-- Exceptions of the command. -/
inductive ExportExn where
  /-- `CommandError`. -/
  | command (message : PyStr)
  /-- `UnicodeEncodeError`. -/
  | unicode
  /-- `FileExistsError`. -/
  | fileExists
  /-- Another `OSError`. -/
  | os
  /-- `DatabaseError`. -/
  | database
deriving DecidableEq, Repr

/-- The calls that can fail. -/
inductive ExportCall where
  | exists
  | isDir
  | mkstemp
  | chmod
  | snapshot
  | write
  | flush
  | fsync
  | link
  | unlink
  | stdout
deriving DecidableEq, Repr

/-- One run of the command: its argument, and what it meets. -/
structure ExportRun where
  output : PyStr
  /-- `Path(output).expanduser().resolve()`. -/
  target : PyStr
  /-- `timezone.now()`. -/
  now : Time
  /-- `os.name != "nt"`. -/
  posix : Bool
  /-- How much of the file is written before `flush`. -/
  buffered : ℕ
  /-- How a call fails. -/
  fails : ExportCall → Option ExportExn

/-- What the command tells: the records on standard output, or the number of records that it
has exported. -/
inductive Report where
  | records (text : PyStr)
  | exported (count : ℕ)
deriving DecidableEq, Repr

section

variable {F : Type} (floats : Json.Floats F) (run : ExportRun)

/-- A part of the command. -/
abbrev Exporter : Type → Type 1 := Prog ExportState ExportExn

/-- One step. -/
def call {α : Type} (c : ExportCall) (body : ExportState → Except ExportExn (α × ExportState)) :
    Exporter α :=
  .atomic fun s =>
    match run.fails c with
    | some e => .error e
    | none => body s

/-- A call that leaves the state alone. -/
def systemCall (c : ExportCall) : Exporter Unit := call run c fun s => .ok ((), s)

/-- `_write_records`: one snapshot of the database. -/
def writeRecords : Exporter (PyStr × ℕ) :=
  call run .snapshot fun s => .ok (writeOwnerExport floats s.store none run.now, s)

/-- What the stream has written to the temporary file. -/
def writeTemporary (content : Bytes) : Exporter Unit :=
  call run .write fun s => .ok ((), { s with temporary := s.temporary.map fun _ => content })

/-- `os.link(temporary_path, target)`. -/
def linkTarget : Exporter Unit :=
  call run .link fun s =>
    match s.files run.target, s.temporary with
    | some _, _ => .error .fileExists
    | none, none => .error .os
    | none, some content =>
        .ok ((), { s with files := Function.update s.files run.target (some content) })

/-- What the command raises where `os.link` has raised. -/
def linkFailure : ExportExn → ExportExn
  | .fileExists => .command (py "Refusing to overwrite an existing export file")
  | .os => .command (py "Unable to publish export atomically")
  | e => e

/-- `temporary_path.unlink(missing_ok=True)`. -/
def unlinkTemporary : Exporter Unit :=
  call run .unlink fun s => .ok ((), { s with temporary := none })

/-- The rest of the block, from the first write to the temporary file. -/
def publishContent (content : Bytes) (count : ℕ) : Exporter ℕ := do
  writeTemporary run (content.take run.buffered)
  systemCall run .flush
  writeTemporary run content
  systemCall run .fsync
  (linkTarget run).tryCatch fun e => .compute (.error (linkFailure e))
  return count

/-- The part of the block in which the temporary file is open. -/
def publishRecords : Exporter ℕ := do
  let written ← writeRecords floats run
  match written.1.encode with
  | none => .compute (.error .unicode)
  | some content => publishContent run content written.2

/-- The block that fills the temporary file and links it to the target. -/
def publishExport : Exporter ℕ := do
  if run.posix then systemCall run .chmod
  publishRecords floats run

/-- `handle`. -/
def exportOwnerData : Exporter Report :=
  if run.output = py "-" then do
    let written ← writeRecords floats run
    return .records written.1
  else do
    let there ← call run .exists fun s => .ok ((s.files run.target).isSome, s)
    if there then
      .compute (.error (.command (py "Refusing to overwrite an existing export file")))
    else do
      let isDir ← call run .isDir fun s => .ok (s.parentIsDir, s)
      if !isDir then
        .compute (.error (.command (py "Export parent directory does not exist")))
      else do
        call run .mkstemp fun s => .ok ((), { s with temporary := some [] })
        let count ← (publishExport floats run).finallyDo (unlinkTemporary run)
        -- the last line of the command, on standard output
        systemCall run .stdout
        return .exported count

end

/-! ## What the command commits -/

section

variable {F : Type} {floats : Json.Floats F} {run : ExportRun}

/-- A commit, by the states before and after it. -/
abbrev Commit : Type := ExportState × ExportState

/-- The commits leave the files alone. -/
def Silent (own : List Commit) : Prop := ∀ c ∈ own, c.2.files = c.1.files

/-- The commit puts a whole export at the target, where nothing stood: that of the database in
a state that the run has read before. -/
def Publication (floats : Json.Floats F) (run : ExportRun) (before : List Commit) (c : Commit)
    (count : ℕ) : Prop :=
  c.1.files run.target = none ∧ ∃ read ∈ before, ∃ content,
    (writeOwnerExport floats read.1.store none run.now).1.encode = some content ∧
      (writeOwnerExport floats read.1.store none run.now).2 = count ∧
        c.2.files = Function.update c.1.files run.target (some content)

/-- One of the commits publishes the export, and the others leave the files alone. -/
def Published (floats : Json.Floats F) (run : ExportRun) (own : List Commit) (count : ℕ) : Prop :=
  ∃ before c after, own = before ++ c :: after ∧ Silent before ∧ Silent after ∧
    Publication floats run before c count

/-- What is so when the command ends. -/
def Outcome (floats : Json.Floats F) (run : ExportRun) (r : Except ExportExn Report)
    (own : List Commit) (s : ExportState) : Prop :=
  match r with
  | .ok (.records text) => Silent own ∧
      ∃ read ∈ own, text = (writeOwnerExport floats read.1.store none run.now).1
  | .ok (.exported count) => Published floats run own count ∧ s.temporary = none
  | .error e =>
      (Silent own ∧ (run.fails .unlink = none → s.temporary = none)) ∨
        (∃ count, Published floats run own count) ∧
          (run.fails .unlink = some e ∨ run.fails .stdout = some e ∧ s.temporary = none)

lemma silent_concat {own : List Commit} {c : Commit} (h : Silent own)
    (hc : c.2.files = c.1.files) : Silent (own ++ [c]) := by
  intro d hd
  rcases List.mem_append.1 hd with hd | hd
  · exact h d hd
  · rw [List.mem_singleton.1 hd]
    exact hc

lemma Published.concat {own : List Commit} {count : ℕ} {c : Commit}
    (h : Published floats run own count) (hc : c.2.files = c.1.files) :
    Published floats run (own ++ [c]) count := by
  obtain ⟨before, d, after, rfl, hbefore, hafter, hd⟩ := h
  exact ⟨before, d, after ++ [c], by simp, hbefore, silent_concat hafter hc, hd⟩

/-- The commit that changes a file is the publication. -/
lemma Published.publication {own before after : List Commit} {c : Commit} {count : ℕ}
    (h : Published floats run own count) (hown : own = before ++ c :: after)
    (hc : c.2.files ≠ c.1.files) : Publication floats run before c count := by
  obtain ⟨before', d, after', rfl, hbefore, hafter, hd⟩ := h
  rcases List.append_eq_append_iff.1 hown with ⟨mid, hmid, hrest⟩ | ⟨mid, hmid, hrest⟩
  · cases mid with
    | nil =>
      rw [List.nil_append, List.cons.injEq] at hrest
      rw [List.append_nil] at hmid
      rw [hmid, ← hrest.1]
      exact hd
    | cons e mid =>
      -- the commit would stand behind the publication
      rw [List.cons_append, List.cons.injEq] at hrest
      exact absurd (hafter c (by simp [hrest.2])) hc
  · cases mid with
    | nil =>
      rw [List.nil_append, List.cons.injEq] at hrest
      rw [List.append_nil] at hmid
      rw [← hmid, hrest.1]
      exact hd
    | cons e mid =>
      rw [List.cons_append, List.cons.injEq] at hrest
      exact absurd (hbefore c (by simp [hmid, hrest.1])) hc

/-! ## The steps -/

/-- The others, who leave the temporary file alone; no answer is lost. -/
def exportTerms (others : ExportState → ExportState → Prop) : Terms ExportState ExportExn :=
  ⟨⟨others, fun _ => False⟩, fun _ _ => True, fun _ _ => True⟩

variable {others : ExportState → ExportState → Prop}

lemma temporary_eq_of_rely (hothers : ∀ a b, others a b → b.temporary = a.temporary)
    {s s' : ExportState} (h : (exportTerms others).Rely s s') : s'.temporary = s.temporary := by
  induction h with
  | refl => rfl
  | tail _ henv ih => rw [hothers _ _ henv, ih]

/-- One step of the command, and what comes after it. -/
lemma wp_call_bind {α β : Type} {Q : Except ExportExn β → Assertion ExportState} {c : ExportCall}
    {body : ExportState → Except ExportExn (α × ExportState)} {k : α → Exporter β}
    {own : List Commit} {s : ExportState}
    (hok : ∀ s₁ a s₂, (exportTerms others).Rely s s₁ → body s₁ = .ok (a, s₂) →
      WP (exportTerms others) Q (k a) (own ++ [(s₁, s₂)]) s₂)
    (herror : ∀ s₁ s₂ e, (exportTerms others).Rely s s₂ →
      run.fails c = some e ∨ body s₁ = .error e → Q (.error e) own s₂) :
    WP (exportTerms others) Q (call run c body >>= k) own s := by
  intro s₁ h₁
  refine ⟨fun a s₂ hbody _ => ⟨trivial, ?_, fun e he => he.elim⟩, ?_⟩
  · cases hfails : run.fails c with
    | some e => simp [hfails] at hbody
    | none =>
      simp only [hfails] at hbody
      exact hok s₁ a s₂ h₁ hbody
  · rintro e (hbody | hfault) s₂ h₂
    · refine herror s₁ s₂ e (h₁.trans h₂) ?_
      cases hfails : run.fails c with
      | some e' =>
        simp only [hfails, Except.error.injEq] at hbody
        exact .inl (congrArg some hbody)
      | none =>
        simp only [hfails] at hbody
        exact .inr hbody
    · exact hfault.elim

/-- What is so when the temporary file is about to go. -/
def Inner (floats : Json.Floats F) (run : ExportRun) (r : Except ExportExn ℕ)
    (own : List Commit) (_ : ExportState) : Prop :=
  match r with
  | .ok count => Published floats run own count
  | .error _ => Silent own

/-- What is so when it should have gone. -/
def Cleared (floats : Json.Floats F) (run : ExportRun) (r : Except ExportExn ℕ)
    (own : List Commit) (s : ExportState) : Prop :=
  match r with
  | .ok count => Published floats run own count ∧ s.temporary = none
  | .error e => (Silent own ∧ (run.fails .unlink = none → s.temporary = none)) ∨
      (∃ count, Published floats run own count) ∧ run.fails .unlink = some e

/-- A step that leaves the files alone, before the publication. -/
lemma wp_silent {α : Type} {c : ExportCall}
    {body : ExportState → Except ExportExn (α × ExportState)} {k : α → Exporter ℕ}
    {own : List Commit} {s : ExportState} (hown : Silent own)
    (hok : ∀ s₁ a s₂, (exportTerms others).Rely s s₁ → body s₁ = .ok (a, s₂) →
      s₂.files = s₁.files ∧ (Silent (own ++ [(s₁, s₂)]) →
        WP (exportTerms others) (Inner floats run) (k a) (own ++ [(s₁, s₂)]) s₂)) :
    WP (exportTerms others) (Inner floats run) (call run c body >>= k) own s :=
  wp_call_bind
    (fun s₁ a s₂ hrely hbody =>
      (hok s₁ a s₂ hrely hbody).2 (silent_concat hown (hok s₁ a s₂ hrely hbody).1))
    fun _ _ _ _ _ => hown

/-- The link publishes the whole file, or nothing. -/
lemma linkTarget_wp (hothers : ∀ a b, others a b → b.temporary = a.temporary) {content : Bytes}
    {count : ℕ} {own : List Commit} {s : ExportState} (hown : Silent own)
    (hread : ∃ read ∈ own,
      (writeOwnerExport floats read.1.store none run.now).1.encode = some content ∧
        (writeOwnerExport floats read.1.store none run.now).2 = count)
    (htemporary : s.temporary = some content) :
    WP (exportTerms others) (Inner floats run)
      ((linkTarget run).tryCatch (fun e => .compute (.error (linkFailure e))) >>=
        fun _ => pure count) own s := by
  refine WP.bind (WP.tryCatch ?_)
  intro s₁ h₁
  refine ⟨fun u s₂ hbody _ => ⟨trivial, ?_, fun e he => he.elim⟩, ?_⟩
  · intro s₃ _ s₄ _ s₅ _
    obtain ⟨read, hmem, hencode, hcount⟩ := hread
    have hfile : s₁.temporary = some content := by
      rw [temporary_eq_of_rely hothers h₁, htemporary]
    refine ⟨own, (s₁, s₂), [], rfl, hown, by simp [Silent], ?_⟩
    cases hfails : run.fails .link with
    | some e => simp [hfails] at hbody
    | none =>
      cases hthere : s₁.files run.target with
      | some b => simp [hfails, hthere] at hbody
      | none =>
        simp only [hfails, hthere, hfile, Except.ok.injEq, Prod.mk.injEq, true_and] at hbody
        subst hbody
        exact ⟨hthere, read, hmem, content, hencode, hcount, rfl⟩
  · intro e _ s₂ _ s₃ _ s₄ _
    exact hown

lemma publishContent_wp (hothers : ∀ a b, others a b → b.temporary = a.temporary)
    {content : Bytes} {count : ℕ} {own : List Commit} {s : ExportState} (hown : Silent own)
    (hread : ∃ read ∈ own,
      (writeOwnerExport floats read.1.store none run.now).1.encode = some content ∧
        (writeOwnerExport floats read.1.store none run.now).2 = count)
    (htemporary : s.temporary.isSome = true) :
    WP (exportTerms others) (Inner floats run) (publishContent run content count) own s := by
  obtain ⟨read, hmem, hencode⟩ := hread
  refine wp_silent hown fun s₁ u s₂ h₁ hwrite => ?_
  cases hwrite
  refine ⟨rfl, fun hown₁ => wp_silent hown₁ fun s₂ u s₃ h₂ hflush => ?_⟩
  cases hflush
  refine ⟨rfl, fun hown₂ => wp_silent hown₂ fun s₃ u s₄ h₃ hwrite => ?_⟩
  cases hwrite
  refine ⟨rfl, fun hown₃ => wp_silent hown₃ fun s₄ u s₅ h₄ hfsync => ?_⟩
  cases hfsync
  refine ⟨rfl, fun hown₄ => ?_⟩
  refine linkTarget_wp hothers hown₄ ⟨read, by simp [hmem], hencode⟩ ?_
  -- nobody else has touched the temporary file since the last write
  have hstart := temporary_eq_of_rely hothers h₁
  have hfirst := temporary_eq_of_rely hothers h₂
  have hsecond := temporary_eq_of_rely hothers h₃
  have hlast := temporary_eq_of_rely hothers h₄
  obtain ⟨old, hold⟩ := Option.isSome_iff_exists.1 htemporary
  simp only [hstart, hfirst, hsecond, hlast, hold, Option.map_some]

lemma publishRecords_wp (hothers : ∀ a b, others a b → b.temporary = a.temporary)
    {own : List Commit} {s : ExportState} (hown : Silent own)
    (htemporary : s.temporary.isSome = true) :
    WP (exportTerms others) (Inner floats run) (publishRecords floats run) own s := by
  refine wp_silent hown fun s₁ written s₂ h₁ hread => ?_
  cases hread
  refine ⟨rfl, fun hown₁ => ?_⟩
  cases hencode : (writeOwnerExport floats s₁.store none run.now).1.encode with
  | none => exact fun _ _ => hown₁
  | some content =>
    refine publishContent_wp hothers hown₁ ⟨(s₁, s₁), by simp, hencode, rfl⟩ ?_
    rw [temporary_eq_of_rely hothers h₁, htemporary]

/-- Until the link, the files stay as they are. -/
lemma publishExport_wp (hothers : ∀ a b, others a b → b.temporary = a.temporary)
    {own : List Commit} {s : ExportState} (hown : Silent own)
    (htemporary : s.temporary.isSome = true) :
    WP (exportTerms others) (Inner floats run) (publishExport floats run) own s := by
  unfold publishExport
  cases run.posix with
  | false => exact publishRecords_wp hothers hown htemporary
  | true =>
    refine wp_silent hown fun s₁ u s₂ h₁ hchmod => ?_
    cases hchmod
    refine ⟨rfl, fun hown₁ => publishRecords_wp hothers hown₁ ?_⟩
    rw [temporary_eq_of_rely hothers h₁, htemporary]

/-- The temporary file goes, whatever has happened. -/
lemma unlinkTemporary_wp (hothers : ∀ a b, others a b → b.temporary = a.temporary)
    {r : Except ExportExn ℕ} {own : List Commit} {s : ExportState}
    (h : Inner floats run r own s) :
    WP (exportTerms others) (fun c => Cleared floats run (afterCleanup r c)) (unlinkTemporary run)
      own s := by
  intro s₁ _
  refine ⟨fun u s₂ hbody _ => ⟨trivial, ?_, fun e he => he.elim⟩, ?_⟩
  · intro s₃ h₃
    cases hfails : run.fails .unlink with
    | some e => simp [hfails] at hbody
    | none =>
      simp only [hfails, Except.ok.injEq, Prod.mk.injEq, true_and] at hbody
      subst hbody
      have hgone : s₃.temporary = none := temporary_eq_of_rely hothers h₃
      cases r with
      | error e => exact .inl ⟨silent_concat h rfl, fun _ => hgone⟩
      | ok count => exact ⟨Published.concat h rfl, hgone⟩
  · rintro e (hbody | hfault) s₂ _
    · cases hfails : run.fails .unlink with
      | none => simp [hfails] at hbody
      | some e' =>
        simp only [hfails, Except.error.injEq] at hbody
        subst hbody
        cases r with
        | error e => exact .inl ⟨h, fun hnone => absurd hnone (by simp [hfails])⟩
        | ok count => exact .inr ⟨⟨count, h⟩, hfails⟩
    · exact hfault.elim

/-- The last line may fail, when the export is published and the temporary file has gone. -/
lemma report_wp (hothers : ∀ a b, others a b → b.temporary = a.temporary) {count : ℕ}
    {own : List Commit} {s : ExportState} (h : Cleared floats run (.ok count) own s) :
    WP (exportTerms others) (Outcome floats run)
      (systemCall run .stdout >>= fun _ => pure (.exported count)) own s := by
  obtain ⟨hpublished, hs⟩ := h
  refine wp_call_bind (fun s₁ u s₂ h₁ hwrite => ?_) fun s₁ s₂ e h₂ hfails => ?_
  · cases hwrite
    intro s₂ h₂
    exact ⟨hpublished.concat rfl, (temporary_eq_of_rely hothers (h₁.trans h₂)).trans hs⟩
  · have hgone : s₂.temporary = none := (temporary_eq_of_rely hothers h₂).trans hs
    exact .inr ⟨⟨count, hpublished⟩, .inr ⟨hfails.resolve_right nofun, hgone⟩⟩

/-- However the command ends, its outcome says what it has done. -/
lemma exportOwnerData_wp (hothers : ∀ a b, others a b → b.temporary = a.temporary)
    {s : ExportState} (hs : s.temporary = none) :
    WP (exportTerms others) (Outcome floats run) (exportOwnerData floats run) [] s := by
  have hnil : Silent [] := by simp [Silent]
  have hgone : ∀ {s₁ : ExportState}, (exportTerms others).Rely s s₁ → s₁.temporary = none :=
    fun h => (temporary_eq_of_rely hothers h).trans hs
  unfold exportOwnerData
  split_ifs with hdash
  · refine wp_call_bind (fun s₁ written s₂ h₁ hread => ?_) fun s₁ s₂ e h₂ _ =>
      .inl ⟨hnil, fun _ => hgone h₂⟩
    cases hread
    exact fun s₃ _ => ⟨silent_concat hnil rfl, (s₁, s₁), by simp, rfl⟩
  · refine wp_call_bind (fun s₁ there s₂ h₁ hlook => ?_) fun s₁ s₂ e h₂ _ =>
      .inl ⟨hnil, fun _ => hgone h₂⟩
    cases hlook
    have hown₁ := silent_concat hnil (c := (s₁, s₁)) rfl
    split_ifs with hthere
    · exact fun s₃ h₃ => .inl ⟨hown₁, fun _ => hgone (h₁.trans h₃)⟩
    refine wp_call_bind (fun s₂ isDir s₃ h₂ hlook => ?_) fun _ s₃ e h₃ _ =>
      .inl ⟨hown₁, fun _ => hgone (h₁.trans h₃)⟩
    cases hlook
    have hown₂ := silent_concat hown₁ (c := (s₂, s₂)) rfl
    split_ifs with hisDir
    · exact fun s₃ h₃ => .inl ⟨hown₂, fun _ => hgone ((h₁.trans h₂).trans h₃)⟩
    refine wp_call_bind (fun s₃ u s₄ h₃ hmake => ?_) fun _ s₄ e h₄ _ =>
      .inl ⟨hown₂, fun _ => hgone ((h₁.trans h₂).trans h₄)⟩
    cases hmake
    have hown₃ := silent_concat hown₂ (c := (s₃, { s₃ with temporary := some [] })) rfl
    refine WP.bind (WP.mono (Q := Cleared floats run) (fun r own s h => ?_) (WP.finallyDo
      ((publishExport_wp hothers hown₃ rfl).mono fun r own s h => unlinkTemporary_wp hothers h)))
    cases r with
    | ok count => exact report_wp hothers h
    | error e =>
      intro s₅ h₅
      refine h.imp (fun hsilent => ⟨hsilent.1, fun hnone => ?_⟩) fun hfailed =>
        ⟨hfailed.1, .inl hfailed.2⟩
      exact (temporary_eq_of_rely hothers h₅).trans (hsilent.2 hnone)

/-- What holds of the commits of a run that has ended or was killed. -/
structure Exported (floats : Json.Floats F) (run : ExportRun) (own : List Commit) : Prop where
  /-- No file is replaced. -/
  kept : ∀ c ∈ own, ∀ path, c.1.files path ≠ none → c.2.files path = c.1.files path
  /-- What appears is a whole export. -/
  whole : ∀ before c after, own = before ++ c :: after → c.2.files ≠ c.1.files →
    ∃ count, Publication floats run before c count

lemma Publication.kept {before : List Commit} {c : Commit} {count : ℕ}
    (h : Publication floats run before c count) {path : PyStr} (hpath : c.1.files path ≠ none) :
    c.2.files path = c.1.files path := by
  obtain ⟨hfree, _, _, _, _, _, hfiles⟩ := h
  have hne : path ≠ run.target := by
    rintro rfl
    exact hpath hfree
  rw [hfiles, Function.update_of_ne hne]

lemma Exported.of_whole {own : List Commit}
    (h : ∀ before c after, own = before ++ c :: after → c.2.files ≠ c.1.files →
      ∃ count, Publication floats run before c count) : Exported floats run own where
  kept c hc path hpath := by
    by_cases hsilent : c.2.files = c.1.files
    · rw [hsilent]
    · obtain ⟨before, after, rfl⟩ := List.append_of_mem hc
      obtain ⟨count, hpublication⟩ := h before c after rfl hsilent
      exact hpublication.kept hpath
  whole := h

/-- In every run of the command, next to whatever other programs do to the database and to the
other files, and wherever it fails or is killed: no file is replaced, and what appears is the
whole export of the database in one state that the run has read.  A run that returns has
published it; one that raises has not, unless the temporary file could not be removed, or the
last line could not be written; and no temporary file is left, unless it could not be removed. -/
theorem exportOwnerData_exec (floats : Json.Floats F) (run : ExportRun)
    (hothers : ∀ a b, others a b → b.temporary = a.temporary) {s s' : ExportState}
    (hs : s.temporary = none) {tr : List (Event ExportState)}
    {o : Option (Except ExportExn Report)}
    (h : Exec ⟨others, fun _ => False⟩ (exportOwnerData floats run) s tr o s') :
    Exported floats run (ownCommits tr) ∧
      ∀ r, o = some r → Outcome floats run r (ownCommits tr) s' := by
  have hwp : WP (exportTerms others) (Outcome floats run) (exportOwnerData floats run) [] s :=
    exportOwnerData_wp hothers hs
  refine ⟨.of_whole fun before c after hown hc => ?_, fun r hr => ?_⟩
  · -- a run that was killed could have ended, with the same commits so far
    obtain ⟨tr', r, s₁, hfinished⟩ := h.finish
    have hend := WP.exec (T := exportTerms others) hfinished hwp (fun _ _ => trivial) r rfl
    rw [List.nil_append, ownCommits_append, hown, List.append_assoc, List.cons_append] at hend
    have hsilent : Silent (before ++ c :: (after ++ ownCommits tr')) → False :=
      fun hsilent => hc (hsilent c (by simp))
    cases r with
    | ok report =>
      cases report with
      | records text => exact (hsilent hend.1).elim
      | exported count => exact ⟨count, hend.1.publication rfl hc⟩
    | error e =>
      rcases hend with ⟨hnothing, -⟩ | ⟨⟨count, hpublished⟩, -⟩
      · exact (hsilent hnothing).elim
      · exact ⟨count, hpublished.publication rfl hc⟩
  · exact WP.exec (T := exportTerms others) h hwp (fun _ _ => trivial) r hr

end

/-- A run in which no call fails. -/
def sampleRun : ExportRun :=
  { output := py "owner.ndjson", target := py "/srv/owner.ndjson", now := 0, posix := true,
    buffered := 3, fails := fun _ => none }

/-- A directory without files. -/
def sampleState : ExportState :=
  { store := sampleSnapshot [] [] [] [], files := fun _ => none, parentIsDir := true,
    temporary := none }

/-- The run of a command whose surroundings do what they like with the other files. -/
theorem exportOwnerData_exec_sample : ∃ tr s',
    Exec ⟨fun a b => b.temporary = a.temporary, fun _ => False⟩
        (exportOwnerData unitFloats sampleRun) sampleState tr
        (some ((exportOwnerData unitFloats sampleRun).run sampleState).1) s' ∧
      Exported unitFloats sampleRun (ownCommits tr) := by
  obtain ⟨tr, h⟩ := Exec.of_run (W := ⟨fun a b => b.temporary = a.temporary, fun _ => False⟩)
    (exportOwnerData unitFloats sampleRun) sampleState
  exact ⟨tr, _, h, (exportOwnerData_exec unitFloats sampleRun (fun _ _ h => h) rfl h).1⟩

end OwnerExport

end MailGate
