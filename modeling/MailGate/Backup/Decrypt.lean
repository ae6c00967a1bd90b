import MailGate.Backup.Archive

/-!
# What decrypting an archive does

A run of `decrypt_to_temporary` that raises leaves the temporary files as they were, and one
that returns has added a single file, with the text that the archive decrypts to.
-/

namespace MailGate

open Aead Scripts Script
open Json (Floats)

namespace TempDir

variable {s : TempDir} {path : ℕ} {x data : Bytes}

lemma write_last (h : path ∉ s.map (·.1)) :
    write (s ++ [(path, x)]) path data = s ++ [(path, x ++ data)] := by
  have hold : s.map (fun f => if f.1 = path then (f.1, f.2 ++ data) else f) = s := by
    conv_rhs => rw [← List.map_id s]
    refine List.map_congr_left fun f hf => ?_
    rw [if_neg]
    · rfl
    · rintro rfl
      exact h (List.mem_map.2 ⟨f, hf, rfl⟩)
  simp [write, hold]

lemma unlink_last (h : path ∉ s.map (·.1)) : unlink (s ++ [(path, x)]) path = s := by
  have hold : s.filter (·.1 ≠ path) = s := by
    rw [List.filter_eq_self]
    intro f hf
    rw [decide_eq_true_iff]
    rintro rfl
    exact h (List.mem_map.2 ⟨f, hf, rfl⟩)
  rw [unlink, List.filter_append, hold]
  simp

end TempDir

lemma Disk.call_eq_ok {disk : Disk} {c : DiskCall} {a : Unit} :
    disk.call c = .ok a ↔ disk.fails c = false := by
  rw [Disk.call]
  cases disk.fails c <;> simp

/-- The calls of the loop that are made for a ciphertext of this size. -/
def copyCalls (remaining : ℕ) : List DiskCall :=
  if remaining = 0 then []
  else
    .readChunk remaining :: .writeChunk remaining ::
      copyCalls (remaining - min chunkBytes remaining)
termination_by remaining
decreasing_by
  have hpos : 0 < chunkBytes := by decide
  omega

/-- The calls that are made for the temporary file once it is there. -/
def fillCalls (posix : Bool) (ciphertextSize : ℕ) : List DiskCall :=
  (if posix then [.chmod] else []) ++ .fdopen ::
    (copyCalls ciphertextSize ++ [.writeRest, .closeTemporary])

section

variable {F Ctx : Type} {floats : Floats F} {wide : Json.WideCodec} {cipher : Cipher UInt8 Ctx}
  {mode : Mode UInt8} {disk : Disk} {key content : Bytes} {parts : ArchiveParts F} {path : ℕ}
  {s : TempDir}

/-- A call, and what comes after it. -/
lemma ends_call {α : Type} {c : DiskCall} {k : Unit → Archiver α}
    {Q : Except ArchiveExn α → TempDir → Prop} :
    Ends (lift (disk.call c) >>= k) s Q ↔
      (disk.fails c = true → Q (.error .os) s) ∧ (disk.fails c = false → Ends (k ()) s Q) := by
  rw [ends_bind, ends_lift, Disk.call]
  cases disk.fails c <;> simp

lemma ends_modifyTemp {α : Type} {f : TempDir → TempDir} {k : Unit → Archiver α}
    {Q : Except ArchiveExn α → TempDir → Prop} :
    Ends (modifyTemp f >>= k) s Q ↔ Ends (k ()) (f s) Q := by
  rw [ends_bind]
  exact Iff.rfl

/-! ## The loop -/

/-- The loop writes what the cipher makes of the ciphertext. -/
lemma ends_decryptChunks (hpath : path ∉ s.map (·.1)) (ctx : Ctx) (source x : Bytes)
    {remaining : ℕ} (hsource : remaining ≤ source.length) :
    Ends (decryptChunks cipher disk path ctx source remaining) (s ++ [(path, x)]) fun r s' =>
      ∃ out, s' = s ++ [(path, x ++ out)] ∧
        (r.isOk = true ↔ ∀ c ∈ copyCalls remaining, disk.fails c = false) ∧
        ∀ ctx', r = .ok ctx' →
          ∃ ps, ps.flatten = source.take remaining ∧ cipher.pieces ctx ps = (out, ctx') := by
  induction remaining using Nat.strong_induction_on generalizing ctx source x with
  | _ remaining ih =>
    rw [decryptChunks, copyCalls]
    split
    · rename_i hzero
      rw [ends_pure]
      refine ⟨[], by simp, by simp, ?_⟩
      rintro _ ⟨⟩
      exact ⟨[], by simp [hzero], rfl⟩
    rename_i hpos
    rw [ends_call]
    refine ⟨fun hread => ⟨[], by simp, by simp [hread], by simp⟩,
      fun hread => ?_⟩
    have hlength : (source.take (min chunkBytes remaining)).length = min chunkBytes remaining := by
      rw [List.length_take]
      omega
    have hsize : 0 < min chunkBytes remaining := by
      have hpositive : 0 < chunkBytes := by decide
      omega
    rw [dif_neg (List.ne_nil_of_length_pos (by rw [hlength]; exact hsize))]
    dsimp only
    rw [ends_call]
    refine ⟨fun hwrite => ⟨[], by simp, by simp [hwrite], by simp⟩,
      fun hwrite => ?_⟩
    rw [ends_modifyTemp, TempDir.write_last hpath, hlength]
    refine (ih _ (by omega) _ _ _ (by rw [List.length_drop]; omega)).mono ?_
    rintro r s' ⟨out, rfl, hcalls, hok⟩
    refine ⟨_, by rw [List.append_assoc], ?_, ?_⟩
    · simpa [hread, hwrite] using hcalls
    intro ctx' hr
    obtain ⟨ps, hps, hpieces⟩ := hok ctx' hr
    refine ⟨source.take (min chunkBytes remaining) :: ps, ?_, by rw [Cipher.pieces, hpieces]⟩
    rw [List.flatten_cons, hps, ← List.take_add]
    congr 1
    omega

/-! ## The temporary file -/

/-- The text that the parts of an archive decrypt to. -/
def plaintext (mode : Mode UInt8) (key content : Bytes) (parts : ArchiveParts F) : Option Bytes :=
  mode.decrypt key parts.nonce (parts.header ++ parts.encodedMetadata)
    ((content.drop parts.ciphertextStart).take parts.ciphertextSize) parts.tag

variable (disk key) in
/-- The temporary file holds the text where every call succeeds and the archive decrypts. -/
lemma ends_writePlaintext (himpl : cipher.Implements mode) (hpath : path ∉ s.map (·.1))
    (hsize : parts.ciphertextSize ≤ (content.drop parts.ciphertextStart).length) :
    Ends (writePlaintext cipher disk key content parts path) (s ++ [(path, [])]) fun r s' =>
      ∃ out, s' = s ++ [(path, out)] ∧
        (r.isOk = true ↔ (∀ c ∈ .fdopen :: (copyCalls parts.ciphertextSize ++
          [.writeRest, .closeTemporary]), disk.fails c = false) ∧
            (plaintext mode key content parts).isSome = true) ∧
        (r.isOk = true → plaintext mode key content parts = some out) := by
  rw [writePlaintext, ends_call]
  refine ⟨fun hopen => ⟨[], rfl, by simp [hopen], by simp⟩, fun hopen => ?_⟩
  rw [ends_bind]
  refine (ends_decryptChunks hpath _ _ _ hsize).mono ?_
  rintro r s' ⟨out, rfl, hcalls, hok⟩
  rw [List.forall_mem_cons, List.forall_mem_append, ← hcalls]
  cases r with
  | error e => exact ⟨_, rfl, by simp, by simp⟩
  | ok ctx' =>
    obtain ⟨ps, hps, hpieces⟩ := hok ctx' rfl
    have htext : plaintext mode key content parts =
        (cipher.finalize ctx').map fun rest => out ++ rest.1 := by
      rw [himpl.decrypts _ _ _ _ _ _ _ hpieces, hps, plaintext]
    rw [htext]
    show Ends _ _ _
    cases cipher.finalize ctx' with
    | none =>
      rw [ends_raise]
      exact ⟨_, rfl, by simp, by simp⟩
    | some rest =>
      show Ends _ _ _
      rw [ends_call]
      refine ⟨fun hwrite => ⟨_, rfl, by simp [hwrite], by simp⟩, fun hwrite => ?_⟩
      rw [ends_modifyTemp, TempDir.write_last hpath, ends_lift, Disk.call]
      refine ⟨_, rfl, ?_⟩
      cases hclose : disk.fails .closeTemporary with
      | true => exact ⟨by simp [hclose], by simp⟩
      | false => exact ⟨by simp [hopen, hwrite, hclose], by simp⟩

lemma ends_fillTemporary (himpl : cipher.Implements mode) (hpath : path ∉ s.map (·.1))
    (hsize : parts.ciphertextSize ≤ (content.drop parts.ciphertextStart).length) :
    Ends (fillTemporary cipher disk key content parts path) (s ++ [(path, [])]) fun r s' =>
      ∃ out, s' = s ++ [(path, out)] ∧
        (r.isOk = true ↔ (∀ c ∈ fillCalls disk.posix parts.ciphertextSize, disk.fails c = false) ∧
          (plaintext mode key content parts).isSome = true) ∧
        (r.isOk = true → plaintext mode key content parts = some out) := by
  have hrest := ends_writePlaintext disk key himpl hpath hsize
  rw [fillTemporary, fillCalls]
  cases disk.posix with
  | false => exact hrest
  | true =>
    rw [if_pos rfl, ends_call]
    refine ⟨fun hchmod => ⟨[], rfl, by simp [hchmod], by simp⟩, fun hchmod => ?_⟩
    refine hrest.mono ?_
    rintro r s' ⟨out, rfl, hok, htext⟩
    refine ⟨out, rfl, ?_, htext⟩
    rw [hok]
    simp [hchmod]

/-! ## A run -/

/-- Where the parts of an archive stand. -/
lemma readArchive_eq_ok (h : readArchive floats wide disk content = .ok parts) :
    parts.header = content.take fixedSize ∧ parts.header.length = fixedSize ∧
      parts.encodedMetadata =
        (content.drop fixedSize).take (parts.ciphertextStart - fixedSize) ∧
      fixedSize ≤ parts.ciphertextStart ∧
      parts.ciphertextStart + parts.ciphertextSize + tagBytes = content.length ∧
      parts.tag = (content.drop (content.length - tagBytes)).take tagBytes := by
  rw [readArchive, Exceptions.bind_eq_ok] at h
  obtain ⟨_, -, h⟩ := h
  dsimp only at h
  split at h
  · cases h
  rename_i hheader
  split at h
  · cases h
  split at h
  · cases h
  rw [Exceptions.bind_eq_ok] at h
  obtain ⟨_, -, h⟩ := h
  split at h
  · cases h
  rw [Exceptions.bind_eq_ok] at h
  obtain ⟨metadata, -, h⟩ := h
  rw [Exceptions.bind_eq_ok] at h
  obtain ⟨_, -, h⟩ := h
  split at h
  · cases h
  rename_i hpayload
  rw [Exceptions.bind_eq_ok] at h
  obtain ⟨_, -, h⟩ := h
  cases h
  rw [not_or, not_not] at hheader
  refine ⟨rfl, hheader.1, ?_, Nat.le_add_right _ _, ?_, rfl⟩
  · rw [Nat.add_sub_cancel_left]
  · dsimp only
    omega

lemma ciphertextSize_le (h : readArchive floats wide disk content = .ok parts) :
    parts.ciphertextSize ≤ (content.drop parts.ciphertextStart).length := by
  obtain ⟨-, -, -, -, hlength, -⟩ := readArchive_eq_ok h
  rw [List.length_drop]
  omega

/-- The disk has an archive with these parts, which decrypts to this text, and no call fails. -/
structure Opened (floats : Floats F) (wide : Json.WideCodec) (mode : Mode UInt8) (disk : Disk)
    (key content : Bytes) (parts : ArchiveParts F) (text : Bytes) : Prop where
  key_length : key.length = 32
  archive : disk.archive = some content
  parsed : readArchive floats wide disk content = .ok parts
  opens : disk.fails .openArchive = false
  creates : disk.fails .mkstemp = false
  fills : ∀ c ∈ fillCalls disk.posix parts.ciphertextSize, disk.fails c = false
  decrypted : plaintext mode key content parts = some text

variable (floats wide disk key s) in
/-- What a run returns, and the temporary files that it leaves. -/
theorem ends_decryptToTemporary (himpl : cipher.Implements mode) :
    Ends (decryptToTemporary floats wide cipher disk key) s fun r s' =>
      match r with
      | .ok (path, metadata) => ∃ content parts text,
          Opened floats wide mode disk key content parts text ∧ path = disk.tempName s ∧
            metadata = .object parts.metadata ∧ s' = s ++ [(path, text)]
      | .error _ => s' = s ∧
          ¬∃ content parts text, Opened floats wide mode disk key content parts text := by
  rw [decryptToTemporary]
  split
  · rename_i hkey
    refine ⟨rfl, ?_⟩
    rintro ⟨content, parts, text, h⟩
    exact hkey h.key_length
  rename_i hkey
  rw [not_not] at hkey
  rw [ends_tryCatch, ends_call]
  -- a call that fails is one that `Opened` asks to succeed
  refine ⟨fun hopen => ⟨rfl, ?_⟩, fun hopen => ?_⟩
  · rintro ⟨content, parts, text, h⟩
    simp [h.opens] at hopen
  rw [ends_bind, ends_lift]
  cases harchive : disk.archive with
  | none =>
    refine ⟨rfl, ?_⟩
    rintro ⟨content, parts, text, h⟩
    simp [h.archive] at harchive
  | some content =>
    show Ends _ _ _
    rw [ends_bind, ends_lift]
    cases hparts : readArchive floats wide disk content with
    | error e =>
      refine ⟨rfl, ?_⟩
      rintro ⟨content', parts, text, h⟩
      obtain rfl := Option.some.inj (harchive.symm.trans h.archive)
      simp [h.parsed] at hparts
    | ok parts =>
      show Ends _ _ _
      rw [ends_call]
      refine ⟨fun hmake => ⟨rfl, ?_⟩, fun hmake => ?_⟩
      · rintro ⟨content', parts, text, h⟩
        simp [h.creates] at hmake
      rw [ends_bind, ends_look]
      show Ends _ _ _
      rw [ends_modifyTemp, ends_bind, ends_tryCatch, TempDir.create]
      have hpath := disk.fresh s
      refine (ends_fillTemporary himpl hpath (ciphertextSize_le hparts)).mono ?_
      rintro r s' ⟨out, rfl, hok, htext⟩
      cases r with
      | error e =>
        show TempDir.unlink _ _ = s ∧ _
        -- what was written of the file is removed again
        rw [TempDir.unlink_last hpath]
        refine ⟨rfl, ?_⟩
        rintro ⟨content', parts', text, h⟩
        obtain rfl := Option.some.inj (harchive.symm.trans h.archive)
        obtain rfl := Except.ok.inj (hparts.symm.trans h.parsed)
        have hisOk := hok.2 ⟨h.fills, by simp [h.decrypted]⟩
        simp at hisOk
      | ok u =>
        obtain ⟨hcalls, -⟩ := hok.1 rfl
        exact ⟨content, parts, out, ⟨hkey, harchive, hparts, hopen, hmake, hcalls, htext rfl⟩,
          rfl, rfl, rfl⟩

/-- A run on an archive that opens. -/
lemma Opened.decrypts {text : Bytes} (himpl : cipher.Implements mode)
    (h : Opened floats wide mode disk key content parts text) (s : TempDir) :
    decryptToTemporary floats wide cipher disk key s =
      (.ok (disk.tempName s, .object parts.metadata), s ++ [(disk.tempName s, text)]) := by
  have hends := ends_decryptToTemporary floats wide disk key s himpl
  rcases hrun : decryptToTemporary floats wide cipher disk key s with ⟨r, s'⟩
  rw [Ends, hrun] at hends
  cases r with
  | error e => exact absurd ⟨content, parts, text, h⟩ hends.2
  | ok v =>
    obtain ⟨content', parts', text', h', hpath, hmetadata, hs'⟩ := hends
    obtain rfl := Option.some.inj (h.archive.symm.trans h'.archive)
    obtain rfl := Except.ok.inj (h.parsed.symm.trans h'.parsed)
    obtain rfl := Option.some.inj (h.decrypted.symm.trans h'.decrypted)
    obtain ⟨path, metadata⟩ := v
    dsimp only at hpath hmetadata hs'
    rw [hs', ← hpath, ← hmetadata]

end

end MailGate
