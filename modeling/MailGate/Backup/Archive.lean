import MailGate.Lib.Aead
import MailGate.Lib.Script
import MailGate.Python.Base64
import MailGate.Python.Json.Bytes
import MailGate.Python.Json.Strict
import MailGate.Python.Newlines
import MailGate.Python.Struct

/-!
# The backup archive

`backup_archive.py` and the reader that `backup.py` puts in front of a dump.  An archive is a
header of fixed size, the metadata, the ciphertext and the tag; what stands before the
ciphertext is the additional data of the encryption.
-/

namespace MailGate

open Aead Scripts Script
open Json (Floats)

/-- Exceptions of the backup tools. -/
inductive ArchiveExn where
  /-- `BackupArchiveError`. -/
  | backup (message : PyStr)
  | invalidTag
  | os
  | other
deriving DecidableEq, Repr

/-- `BackupArchiveError(message)`. -/
def backupArchiveError (message : String) : ArchiveExn := .backup (py message)

/-- `MAGIC`. -/
def magic : Bytes := bytes "MAILGATE-BACKUP\x00"

/-- `VERSION`. -/
def archiveVersion : UInt8 := 1

/-- `NONCE_BYTES`. -/
def nonceBytes : ℕ := 12

/-- `TAG_BYTES`. -/
def tagBytes : ℕ := 16

/-- `MAX_METADATA_BYTES`. -/
def maxMetadataBytes : ℕ := 64 * 1024

/-- `CHUNK_BYTES`. -/
def chunkBytes : ℕ := 1024 * 1024

/-- The length of the header. -/
def fixedSize : ℕ := magic.length + 1 + nonceBytes + 4

/-! ## The key -/

/-- `base64.urlsafe_b64decode`, from the digits `quad` of a group and the bits `left` that they
leave over; characters outside the alphabet are passed over, and the padding ends the text. -/
def a2bBase64 : (quad left pads : ℕ) → PyStr → Option Bytes
  | quad, _, _, [] => if quad = 0 then some [] else none
  | quad, left, pads, c :: cs =>
      if c = Base64.pad then
        if 2 ≤ quad then
          if 4 ≤ quad + (pads + 1) then some [] else a2bBase64 quad left (pads + 1) cs
        else a2bBase64 quad left pads cs
      else
        match Base64.value
          (if c = ofChar '-' then ofChar '+' else if c = ofChar '_' then ofChar '/' else c) with
        | none => a2bBase64 quad left pads cs
        | some v =>
            if quad = 0 then a2bBase64 1 v 0 cs
            else if quad = 1 then
              (a2bBase64 2 (v % 16) 0 cs).map ((left * 4 + v / 16).toUInt8 :: ·)
            else if quad = 2 then
              (a2bBase64 3 (v % 4) 0 cs).map ((left * 16 + v / 4).toUInt8 :: ·)
            else (a2bBase64 0 0 0 cs).map ((left * 64 + v).toUInt8 :: ·)

/-- `path.read_text(encoding="ascii")`; `none` is the `UnicodeDecodeError`. -/
def readAsciiText (content : Bytes) : Option PyStr :=
  (Bytes.decodeAscii content).map PyStr.universalNewlines

/-- `load_backup_key` of a file that has this content, if it can be read. -/
def loadBackupKey (file : Option Bytes) : Except ArchiveExn Bytes :=
  match file.bind readAsciiText with
  | none => .error (backupArchiveError "Unable to read a valid backup key")
  | some encoded =>
      match a2bBase64 0 0 0 (PyStr.strip encoded) with
      | none => .error (backupArchiveError "Unable to read a valid backup key")
      | some key =>
          if key.length ≠ 32 then
            .error (backupArchiveError
              "Backup key must be one URL-safe base64-encoded 32-byte key")
          else .ok key

/-! ## Streams -/

/-- What a blocking stream delivers, one part after another; an empty part would be its end. -/
structure Stream where
  parts : List Bytes
  nonempty : ∀ p ∈ parts, p ≠ []

namespace Stream

lemma nonempty_nil : ∀ p ∈ ([] : List Bytes), p ≠ [] := by simp

/-- `stream.read(n)`: at most `n` bytes of the next part. -/
def read (s : Stream) (n : ℕ) : Bytes × Stream :=
  match s with
  | ⟨[], h⟩ => ([], ⟨[], h⟩)
  | ⟨p :: ps, h⟩ =>
      if n = 0 then ([], ⟨p :: ps, h⟩)
      else if hn : n < p.length then
        (p.take n, ⟨p.drop n :: ps, by
          rw [List.forall_mem_cons] at h ⊢
          exact ⟨by simpa using hn, h.2⟩⟩)
      else (p, ⟨ps, fun q hq => h q (List.mem_cons_of_mem _ hq)⟩)

/-- `stream.read()`. -/
def readAll (s : Stream) : Bytes × Stream := (s.parts.flatten, ⟨[], nonempty_nil⟩)

end Stream

/-- `PrefixedReader`: what is left of its prefix, and the stream behind it. -/
structure PrefixedReader where
  prefixRest : Bytes
  source : Stream

namespace PrefixedReader

/-- `read`. -/
def read (r : PrefixedReader) (size : ℤ) : Bytes × PrefixedReader :=
  if size < 0 then (r.prefixRest ++ r.source.readAll.1, ⟨[], r.source.readAll.2⟩)
  else
    let first := r.prefixRest.take size.toNat
    let more := r.source.read (size.toNat - first.length)
    (first ++ more.1, ⟨r.prefixRest.drop size.toNat, more.2⟩)

/-- Everything that it will return. -/
def remaining (r : PrefixedReader) : Bytes := r.prefixRest ++ r.source.parts.flatten

end PrefixedReader

lemma Stream.read_append (s : Stream) (n : ℕ) :
    (s.read n).1 ++ (s.read n).2.parts.flatten = s.parts.flatten := by
  obtain ⟨parts, h⟩ := s
  cases parts with
  | nil => rfl
  | cons p ps =>
    simp only [read]
    split
    · rfl
    split
    · simp [← List.append_assoc]
    · rfl

lemma Stream.parts_of_read {s : Stream} {n : ℕ} (hn : n ≠ 0) (h : (s.read n).1 = []) :
    s.parts = [] := by
  obtain ⟨parts, hparts⟩ := s
  cases parts with
  | nil => rfl
  | cons p ps =>
    have hp : p ≠ [] := hparts p List.mem_cons_self
    simp only [read, if_neg hn] at h
    split at h
    · rw [List.take_eq_nil_iff] at h
      exact absurd h (by simp [hn, hp])
    · exact absurd h hp

namespace PrefixedReader

/-- Reading takes off what it returns. -/
lemma read_append (r : PrefixedReader) (n : ℕ) :
    (r.read n).1 ++ (r.read n).2.remaining = r.remaining := by
  have hsource := r.source.read_append (n - (r.prefixRest.take n).length)
  simp only [read, if_neg (Int.not_lt.2 (Int.natCast_nonneg n)), Int.toNat_natCast, remaining]
  by_cases hn : r.prefixRest.length ≤ n
  · simpa [List.take_of_length_le hn, List.drop_of_length_le hn] using hsource
  · have hzero : n - (r.prefixRest.take n).length = 0 := by
      rw [List.length_take]
      omega
    rw [hzero] at hsource ⊢
    have hnone : (r.source.read 0).1 = [] := by
      rcases r.source with ⟨_ | ⟨p, ps⟩, h⟩ <;> rfl
    rw [hnone, List.nil_append] at hsource
    rw [hnone, hsource, List.append_nil, ← List.append_assoc, List.take_append_drop]

/-- Only at its end a reader returns nothing. -/
lemma remaining_of_read {r : PrefixedReader} {n : ℕ} (hn : n ≠ 0) (h : (r.read n).1 = []) :
    r.remaining = [] := by
  simp only [read, if_neg (Int.not_lt.2 (Int.natCast_nonneg n)), Int.toNat_natCast,
    List.append_eq_nil_iff] at h
  obtain ⟨hfirst, hmore⟩ := h
  have hleading : r.prefixRest = [] := by
    rw [List.take_eq_nil_iff] at hfirst
    exact hfirst.resolve_left hn
  rw [hleading, List.take_nil, List.length_nil, Nat.sub_zero] at hmore
  rw [remaining, hleading, Stream.parts_of_read hn hmore, List.flatten_nil, List.append_nil]

/-- What the loop `while chunk := source.read(CHUNK_BYTES)` reads. -/
def chunks (r : PrefixedReader) : List Bytes :=
  if _ : (r.read chunkBytes).1 = [] then []
  else (r.read chunkBytes).1 :: (r.read chunkBytes).2.chunks
termination_by r.remaining.length
decreasing_by
  rename_i hne
  have hlength := congrArg List.length (r.read_append chunkBytes)
  have hpos := List.length_pos_of_ne_nil hne
  rw [List.length_append] at hlength
  omega

/-- The loop reads everything. -/
theorem chunks_flatten (r : PrefixedReader) : r.chunks.flatten = r.remaining := by
  fun_induction chunks r with
  | case1 r h => rw [remaining_of_read (by decide) h, List.flatten_nil]
  | case2 r h ih => rw [List.flatten_cons, ih, read_append]

end PrefixedReader

/-! ## Encrypting -/

/-- `os.urandom(NONCE_BYTES)`. -/
abbrev Nonce : Type := {b : Bytes // b.length = nonceBytes}

/-- `header`. -/
def archiveHeader (nonce : Nonce) (metadataSize : ℕ) : Bytes :=
  magic ++ [archiveVersion] ++ nonce.1 ++ Bytes.bigEndian metadataSize

section

variable {F Ctx : Type} (floats : Floats F) (wide : Json.WideCodec) (cipher : Cipher UInt8 Ctx)

/-- `_metadata_bytes`. -/
def metadataBytes (metadata : Json F) : Except ArchiveExn Bytes :=
  match (Json.dumpsStrict floats metadata).bind PyStr.encode with
  | none => .error (backupArchiveError "Backup metadata is not valid JSON")
  | some value =>
      if value = [] ∨ maxMetadataBytes < value.length then
        .error (backupArchiveError "Backup metadata has an invalid size")
      else .ok value

/-- `encrypt_stream`; the result is what it has written to its destination. -/
def encryptStream (nonce : Nonce) (source : PrefixedReader) (key : Bytes) (metadata : Json F) :
    Except ArchiveExn Bytes :=
  if key.length ≠ 32 then
    .error (backupArchiveError "Backup encryption key must contain 32 bytes")
  else do
    let encodedMetadata ← metadataBytes floats metadata
    let header := archiveHeader nonce encodedMetadata.length
    let encryptor :=
      cipher.authenticate (cipher.encryptor key nonce.1) (header ++ encodedMetadata)
    let (ciphertext, encryptor) := cipher.pieces encryptor source.chunks
    match cipher.finalize encryptor with
    | none => .error .invalidTag
    | some (rest, encryptor) =>
        return header ++ encodedMetadata ++ ciphertext ++ rest ++ cipher.tag encryptor

/-! ## Decrypting -/

/-- The calls of `decrypt_to_temporary` that can raise an `OSError`; the chunks are named by
`remaining`. -/
inductive DiskCall where
  | openArchive
  | readHeader
  | readMetadata
  | statArchive
  | readTag
  | mkstemp
  | chmod
  | fdopen
  | readChunk (remaining : ℕ)
  | writeChunk (remaining : ℕ)
  | writeRest
  | closeTemporary
deriving DecidableEq, Repr

/-- The files of the directory for temporary files, by the random part of their names. -/
abbrev TempDir : Type := List (ℕ × Bytes)

/-- What a run meets. -/
structure Disk where
  /-- The bytes of the archive, if there is one. -/
  archive : Option Bytes
  /-- `os.name != "nt"`. -/
  posix : Bool
  fails : DiskCall → Bool
  /-- The name that `mkstemp` chooses. -/
  tempName : TempDir → ℕ
  fresh : ∀ s : TempDir, tempName s ∉ s.map (·.1)

/-- A call that may raise. -/
def Disk.call (disk : Disk) (c : DiskCall) : Except ArchiveExn Unit :=
  if disk.fails c then .error .os else .ok ()

namespace TempDir

/-- A new file. -/
def create (s : TempDir) (path : ℕ) : TempDir := s ++ [(path, [])]

/-- `destination.write(data)`. -/
def write (s : TempDir) (path : ℕ) (data : Bytes) : TempDir :=
  s.map fun f => if f.1 = path then (f.1, f.2 ++ data) else f

/-- `path.unlink(missing_ok=True)`; the tools can remove the files that they have made. -/
def unlink (s : TempDir) (path : ℕ) : TempDir := s.filter (·.1 ≠ path)

end TempDir

/-- A part of the tools that works on temporary files. -/
abbrev Archiver : Type → Type := Script TempDir ArchiveExn

/-- A change of the temporary files. -/
def modifyTemp (f : TempDir → TempDir) : Archiver Unit := fun s => (.ok (), f s)

/-- What an archive consists of. -/
structure ArchiveParts (F : Type) where
  header : Bytes
  nonce : Bytes
  encodedMetadata : Bytes
  metadata : List (PyStr × Json F)
  ciphertextStart : ℕ
  ciphertextSize : ℕ
  tag : Bytes

/-- `metadata`. -/
def loadMetadata (encodedMetadata : Bytes) : Except ArchiveExn (List (PyStr × Json F)) :=
  match Json.loadsBytes floats wide encodedMetadata with
  | .error .decode => .error (backupArchiveError "Backup metadata is invalid")
  | .error .unicode => .error (backupArchiveError "Backup metadata is invalid")
  | .error _ => .error .other
  | .ok (.object metadata) => .ok metadata
  | .ok _ => .error (backupArchiveError "Backup metadata must be an object")

/-- `decrypt_to_temporary` up to the temporary file. -/
def readArchive (disk : Disk) (content : Bytes) : Except ArchiveExn (ArchiveParts F) := do
  disk.call .readHeader
  let header := content.take fixedSize
  if header.length ≠ fixedSize ∨ Bytes.startswith header magic = false then
    .error (backupArchiveError "Not a MailGate backup archive")
  else if header.getD magic.length 0 ≠ archiveVersion then
    .error (backupArchiveError "Unsupported MailGate backup version")
  else
    let nonce := (header.drop (magic.length + 1)).take nonceBytes
    let metadataSize := Bytes.fromBigEndian (header.drop (header.length - 4))
    if ¬(1 ≤ metadataSize ∧ metadataSize ≤ maxMetadataBytes) then
      .error (backupArchiveError "Backup metadata has an invalid size")
    else do
      disk.call .readMetadata
      let encodedMetadata := (content.drop fixedSize).take metadataSize
      if encodedMetadata.length ≠ metadataSize then
        .error (backupArchiveError "Backup archive is truncated")
      else do
        let metadata ← loadMetadata floats wide encodedMetadata
        disk.call .statArchive
        let ciphertextStart := fixedSize + metadataSize
        -- a negative size and zero are refused alike
        let ciphertextSize := content.length - ciphertextStart - tagBytes
        if ciphertextSize < 1 then
          .error (backupArchiveError "Backup archive has no encrypted payload")
        else do
          disk.call .readTag
          let tag := (content.drop (content.length - tagBytes)).take tagBytes
          return ⟨header, nonce, encodedMetadata, metadata, ciphertextStart, ciphertextSize, tag⟩

/-- The loop of `decrypt_to_temporary`, with what the archive still holds. -/
def decryptChunks (disk : Disk) (path : ℕ) (decryptor : Ctx) (source : Bytes) (remaining : ℕ) :
    Archiver Ctx :=
  if remaining = 0 then pure decryptor
  else do
    lift (disk.call (.readChunk remaining))
    if _ : source.take (min chunkBytes remaining) = [] then
      raise (backupArchiveError "Backup archive is truncated")
    else do
      let chunk := source.take (min chunkBytes remaining)
      lift (disk.call (.writeChunk remaining))
      modifyTemp fun s => s.write path (cipher.update decryptor chunk).1
      decryptChunks disk path (cipher.update decryptor chunk).2 (source.drop chunk.length)
        (remaining - chunk.length)
termination_by remaining
decreasing_by
  rename_i hne
  have hpos := List.length_pos_of_ne_nil hne
  rw [List.length_take] at hpos ⊢
  omega

/-- `with os.fdopen(descriptor, "wb") as destination`. -/
def writePlaintext (disk : Disk) (key content : Bytes) (parts : ArchiveParts F) (path : ℕ) :
    Archiver Unit := do
  let decryptor := cipher.authenticate (cipher.decryptor key parts.nonce parts.tag)
    (parts.header ++ parts.encodedMetadata)
  lift (disk.call .fdopen)
  let decryptor ← decryptChunks cipher disk path decryptor (content.drop parts.ciphertextStart)
    parts.ciphertextSize
  match cipher.finalize decryptor with
  | none => raise .invalidTag
  | some (rest, _) => do
      lift (disk.call .writeRest)
      modifyTemp fun s => s.write path rest
      lift (disk.call .closeTemporary)

/-- `decrypt_to_temporary` with the temporary file. -/
def fillTemporary (disk : Disk) (key content : Bytes) (parts : ArchiveParts F) (path : ℕ) :
    Archiver Unit := do
  if disk.posix then lift (disk.call .chmod)
  writePlaintext cipher disk key content parts path

/-- The `except` clauses of `decrypt_to_temporary`. -/
def ArchiveExn.translated : ArchiveExn → ArchiveExn
  | .invalidTag => backupArchiveError "Backup authentication failed"
  | .os => backupArchiveError "Unable to read or decrypt the backup archive"
  | e => e

/-- `decrypt_to_temporary`; the result is the name of the temporary file and the metadata. -/
def decryptToTemporary (disk : Disk) (key : Bytes) : Archiver (ℕ × Json F) :=
  if key.length ≠ 32 then
    raise (backupArchiveError "Backup decryption key must contain 32 bytes")
  else
    tryCatch (do
      lift (disk.call .openArchive)
      let content ← lift (disk.archive.elim (.error .os) .ok)
      let parts ← lift (readArchive floats wide disk content)
      lift (disk.call .mkstemp)
      let path ← look fun s => .ok (disk.tempName s)
      modifyTemp fun s => s.create path
      -- from here on there is a `temporary_path`, which an exception removes
      (fillTemporary cipher disk key content parts path).tryCatch fun e => do
        modifyTemp fun s => s.unlink path
        raise e
      return (path, .object parts.metadata)) fun e => raise e.translated

end

end MailGate
