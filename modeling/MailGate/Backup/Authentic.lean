import MailGate.Backup.Decrypt

/-!
# Archives are authentic

An archive decrypts to what was encrypted; and where the mode of encryption is ideal, nothing
decrypts but the archives that were made under the key.
-/

namespace MailGate

open Aead Scripts Script
open Json (Floats)

section

variable {F Ctx : Type} {floats : Floats F} {wide : Json.WideCodec} {cipher : Cipher UInt8 Ctx}
  {mode : Mode UInt8} {disk : Disk} {key content : Bytes} {parts : ArchiveParts F}
  {s : TempDir}

/-! ## The bytes of an archive -/

lemma archiveHeader_length (nonce : Nonce) (n : ℕ) :
    (archiveHeader nonce n).length = fixedSize := by
  simp only [archiveHeader, List.length_append, nonce.2, Bytes.bigEndian_length, fixedSize,
    List.length_singleton]

/-- What `encrypt_stream` writes: the additional data, the ciphertext and the tag. -/
lemma encryptStream_eq_ok (himpl : cipher.Implements mode) {nonce : Nonce}
    {source : PrefixedReader} {metadata : Json F} {encodedMetadata ciphertext tag : Bytes}
    (hkey : key.length = 32) (hmetadata : metadataBytes floats metadata = .ok encodedMetadata)
    (hencrypt : mode.encrypt key nonce.1
      (archiveHeader nonce encodedMetadata.length ++ encodedMetadata) source.remaining =
        (ciphertext, tag)) :
    encryptStream floats cipher nonce source key metadata =
      .ok (archiveHeader nonce encodedMetadata.length ++ encodedMetadata ++ ciphertext ++ tag) := by
  rw [encryptStream, if_neg (by simpa using hkey), hmetadata, Exceptions.ok_bind]
  obtain ⟨out, ctx, hpieces⟩ : ∃ out ctx, cipher.pieces (cipher.authenticate
      (cipher.encryptor key nonce.1) (archiveHeader nonce encodedMetadata.length ++
        encodedMetadata)) source.chunks = (out, ctx) := ⟨_, _, rfl⟩
  obtain ⟨last, ctx', hfinalize, hout⟩ := himpl.encrypts _ _ _ _ _ _ hpieces
  rw [source.chunks_flatten, hencrypt] at hout
  obtain ⟨rfl, rfl⟩ := Prod.mk.inj hout
  simp only [hpieces, hfinalize, List.append_assoc]
  rfl

/-- What is encrypted has a key and metadata that fit. -/
lemma encryptStream_inv {nonce : Nonce} {source : PrefixedReader} {metadata : Json F}
    (h : encryptStream floats cipher nonce source key metadata = .ok content) :
    key.length = 32 ∧ ∃ encodedMetadata, metadataBytes floats metadata = .ok encodedMetadata := by
  rw [encryptStream] at h
  split at h
  · cases h
  rename_i hkey
  rw [Exceptions.bind_eq_ok] at h
  obtain ⟨encodedMetadata, hmetadata, -⟩ := h
  exact ⟨not_not.1 hkey, encodedMetadata, hmetadata⟩

/-- The parts of an archive, one after the other, are the archive. -/
lemma content_eq (h : readArchive floats wide disk content = .ok parts) :
    content = parts.header ++ parts.encodedMetadata ++
      (content.drop parts.ciphertextStart).take parts.ciphertextSize ++ parts.tag := by
  obtain ⟨hheader, hheaderLength, hmetadata, hstart, hlength, htag⟩ := readArchive_eq_ok h
  have hbefore : parts.header ++ parts.encodedMetadata = content.take parts.ciphertextStart := by
    rw [hheader, hmetadata, ← List.take_add, Nat.add_sub_cancel' hstart]
  have hafter : parts.tag = (content.drop parts.ciphertextStart).drop parts.ciphertextSize := by
    rw [htag, List.drop_drop, List.take_of_length_le]
    · congr 1
      omega
    · rw [List.length_drop]
      omega
  rw [hbefore, hafter, List.append_assoc, List.take_append_drop, List.take_append_drop]

/-- An archive has the parts of which it was made. -/
lemma readArchive_archive {nonce : Nonce} {encodedMetadata ciphertext tag : Bytes}
    {metadata : List (PyStr × Json F)} (hcalls : ∀ c, disk.fails c = false)
    (hpos : encodedMetadata ≠ []) (hbound : encodedMetadata.length ≤ maxMetadataBytes)
    (hmetadata : loadMetadata floats wide encodedMetadata = .ok metadata)
    (hciphertext : ciphertext ≠ []) (htag : tag.length = tagBytes) :
    readArchive floats wide disk
        (archiveHeader nonce encodedMetadata.length ++ encodedMetadata ++ ciphertext ++ tag) =
      .ok ⟨archiveHeader nonce encodedMetadata.length, nonce.1, encodedMetadata, metadata,
        fixedSize + encodedMetadata.length, ciphertext.length, tag⟩ := by
  have hcall : ∀ c, disk.call c = .ok () := fun c => Disk.call_eq_ok.2 (hcalls c)
  have hheader := archiveHeader_length nonce encodedMetadata.length
  -- the parts of the archive, one after the other
  have htake : (archiveHeader nonce encodedMetadata.length ++ encodedMetadata ++ ciphertext ++
      tag).take fixedSize = archiveHeader nonce encodedMetadata.length := by
    rw [List.append_assoc, List.append_assoc, List.take_left' hheader]
  have hstarts : Bytes.startswith (archiveHeader nonce encodedMetadata.length) magic = true := by
    rw [Bytes.startswith, List.isPrefixOf_iff_prefix, archiveHeader, List.append_assoc,
      List.append_assoc]
    exact List.prefix_append _ _
  have hversion : (archiveHeader nonce encodedMetadata.length).getD magic.length 0 =
      archiveVersion := by
    rw [archiveHeader, List.append_assoc, List.append_assoc, List.getD_eq_getElem?_getD,
      List.getElem?_append_right le_rfl, Nat.sub_self]
    rfl
  have hnonce : ((archiveHeader nonce encodedMetadata.length).drop (magic.length + 1)).take
      nonceBytes = nonce.1 := by
    rw [archiveHeader, List.append_assoc (magic ++ [archiveVersion]),
      List.drop_left' (by rw [List.length_append, List.length_singleton]), List.take_left' nonce.2]
  have hsize : Bytes.fromBigEndian ((archiveHeader nonce encodedMetadata.length).drop
      ((archiveHeader nonce encodedMetadata.length).length - 4)) = encodedMetadata.length := by
    have hbefore : (magic ++ [archiveVersion] ++ nonce.1).length =
        (archiveHeader nonce encodedMetadata.length).length - 4 := by
      rw [archiveHeader, @List.length_append _ _ (Bytes.bigEndian _), Bytes.bigEndian_length,
        Nat.add_sub_cancel]
    have hmax : maxMetadataBytes < 0x100000000 := by decide
    rw [← hbefore, archiveHeader, List.drop_left' rfl]
    exact Bytes.fromBigEndian_bigEndian (by omega)
  have hmeta : ((archiveHeader nonce encodedMetadata.length ++ encodedMetadata ++ ciphertext ++
      tag).drop fixedSize).take encodedMetadata.length = encodedMetadata := by
    rw [List.append_assoc, List.append_assoc, List.drop_left' hheader, List.take_left' rfl]
  have hlength : (archiveHeader nonce encodedMetadata.length ++ encodedMetadata ++ ciphertext ++
      tag).length = fixedSize + encodedMetadata.length + ciphertext.length + tagBytes := by
    rw [List.length_append, List.length_append, List.length_append, hheader, htag]
  have hciphertextSize : fixedSize + encodedMetadata.length + ciphertext.length + tagBytes -
      (fixedSize + encodedMetadata.length) - tagBytes = ciphertext.length := by omega
  have htagPart : ((archiveHeader nonce encodedMetadata.length ++ encodedMetadata ++ ciphertext ++
      tag).drop (fixedSize + encodedMetadata.length + ciphertext.length + tagBytes - tagBytes)).take
        tagBytes = tag := by
    rw [List.drop_left' (by
      rw [List.length_append, List.length_append, hheader]
      omega), List.take_of_length_le htag.le]
  -- each check of the reader passes on them
  have hpayload := List.length_pos_of_ne_nil hciphertext
  rw [readArchive, hcall, Exceptions.ok_bind]
  dsimp only
  rw [htake, if_neg (by simp [hheader, hstarts]), if_neg (not_not.2 hversion), hsize,
    if_neg (by
      rw [not_not]
      exact ⟨List.length_pos_of_ne_nil hpos, hbound⟩), hcall, Exceptions.ok_bind, hmeta,
    if_neg (by simp), hmetadata, Exceptions.ok_bind, hcall, Exceptions.ok_bind, hlength,
    hciphertextSize, if_neg (by omega), hcall, Exceptions.ok_bind, htagPart, hnonce]
  rfl

/-! ## Metadata -/

lemma metadataBytes_eq_ok {metadata : Json F} {encodedMetadata : Bytes}
    (h : metadataBytes floats metadata = .ok encodedMetadata) :
    Json.isStrict floats metadata = true ∧
      PyStr.encode (Json.dumps floats metadata) = some encodedMetadata ∧ encodedMetadata ≠ [] ∧
      encodedMetadata.length ≤ maxMetadataBytes := by
  rw [metadataBytes, Json.dumpsStrict] at h
  split at h
  · cases h
  rename_i value hvalue
  split at h
  · cases h
  rename_i hsize
  obtain rfl := Except.ok.inj h
  rw [not_or, Nat.not_lt] at hsize
  split at hvalue
  · rename_i hstrict
    exact ⟨hstrict, hvalue, hsize⟩
  · cases hvalue

variable (wide) in
/-- Metadata is read as it was written, with its keys in order. -/
lemma loadMetadata_metadataBytes {metadata : List (PyStr × Json F)}
    {encodedMetadata : Bytes}
    (h : metadataBytes floats (.object metadata) = .ok encodedMetadata)
    (hok : (Json.object metadata).Ok floats) :
    ∃ sorted, Json.sortKeys (.object metadata) = .object sorted ∧
      loadMetadata floats wide encodedMetadata = .ok sorted := by
  obtain ⟨-, hencode, -, -⟩ := metadataBytes_eq_ok h
  have hok := Json.sortKeys_ok _ hok
  have hascii : ∀ c ∈ Json.dumps floats (.object metadata), c.val < 0x80 := by
    intro c hc
    have hprintable := Json.render_printable _ hok c hc
    exact hprintable.2.trans (by decide)
  obtain ⟨b, hb⟩ := PyStr.encodeAscii_isSome hascii
  obtain rfl := Option.some.inj ((PyStr.encode_of_encodeAscii hb).symm.trans hencode)
  have hloads := Json.loadsBytes_render floats wide hok hb
  rw [Json.sortKeys] at hloads ⊢
  exact ⟨_, rfl, by rw [loadMetadata, hloads]⟩

/-! ## Runs of `encrypt_stream` -/

/-- One run of `encrypt_stream` with a prefixed reader. -/
structure ArchiveRun (F : Type) where
  key : Bytes
  nonce : Nonce
  metadata : List (PyStr × Json F)
  source : PrefixedReader

/-- What a run writes. -/
def ArchiveRun.archive (floats : Floats F) (cipher : Cipher UInt8 Ctx) (run : ArchiveRun F) :
    Except ArchiveExn Bytes :=
  encryptStream floats cipher run.nonce run.source run.key (.object run.metadata)

/-- The encryption that a run with this metadata makes. -/
def ArchiveRun.encryption (run : ArchiveRun F) (encodedMetadata : Bytes) : Encryption UInt8 where
  key := run.key
  nonce := run.nonce.1
  aad := archiveHeader run.nonce encodedMetadata.length ++ encodedMetadata
  text := run.source.remaining

/-- The encryptions that some runs have made. -/
def encryptionsOf (floats : Floats F) (runs : Set (ArchiveRun F)) : Set (Encryption UInt8) :=
  {e | ∃ run ∈ runs, ∃ encodedMetadata, run.key.length = 32 ∧
    metadataBytes floats (.object run.metadata) = .ok encodedMetadata ∧
      e = run.encryption encodedMetadata}

/-- The archive of a run opens, and gives its text and the metadata that are read. -/
lemma ArchiveRun.opened (himpl : cipher.Implements mode) (hsized : mode.Sized tagBytes)
    {run : ArchiveRun F} {encodedMetadata : Bytes} {metadata : List (PyStr × Json F)}
    (hkey : run.key.length = 32)
    (hmetadata : metadataBytes floats (.object run.metadata) = .ok encodedMetadata)
    (hload : loadMetadata floats wide encodedMetadata = .ok metadata)
    (htext : run.source.remaining ≠ [])
    (hinverts : ∀ ciphertext tag, mode.encrypt run.key run.nonce.1
      (run.encryption encodedMetadata).aad run.source.remaining = (ciphertext, tag) →
        mode.decrypt run.key run.nonce.1 (run.encryption encodedMetadata).aad ciphertext tag =
          some run.source.remaining) :
    ∃ bytes, run.archive floats cipher = .ok bytes ∧ ∀ disk : Disk, disk.archive = some bytes →
      (∀ c, disk.fails c = false) → ∃ parts, parts.metadata = metadata ∧
        Opened floats wide mode disk run.key bytes parts run.source.remaining := by
  obtain ⟨-, -, hnonempty, hbound⟩ := metadataBytes_eq_ok hmetadata
  obtain ⟨ciphertext, tag, hencrypt⟩ : ∃ ciphertext tag, mode.encrypt run.key run.nonce.1
      (run.encryption encodedMetadata).aad run.source.remaining = (ciphertext, tag) :=
    ⟨_, _, rfl⟩
  have hciphertext : ciphertext ≠ [] := by
    have hlength := hsized.ciphertext run.key run.nonce.1 (run.encryption encodedMetadata).aad
      run.source.remaining
    rw [hencrypt] at hlength
    rintro rfl
    exact htext (List.length_eq_zero_iff.1 hlength.symm)
  have htag : tag.length = tagBytes := by
    have hlength := hsized.tag run.key run.nonce.1 (run.encryption encodedMetadata).aad
      run.source.remaining
    rwa [hencrypt] at hlength
  -- the archive is the header, the metadata, the ciphertext and the tag, as the reader expects
  refine ⟨_, encryptStream_eq_ok himpl hkey hmetadata hencrypt, ?_⟩
  intro disk harchive hcalls
  refine ⟨_, rfl, hkey, harchive, readArchive_archive hcalls hnonempty hbound hload hciphertext
    htag, hcalls _, hcalls _, fun c _ => hcalls c, ?_⟩
  have hheader := archiveHeader_length run.nonce encodedMetadata.length
  rw [plaintext, List.append_assoc, List.drop_left' (by rw [List.length_append, hheader]),
    List.take_left' rfl]
  exact hinverts _ _ hencrypt

/-- What opens under an ideal mode is the archive of a run. -/
lemma Opened.archive_eq (himpl : cipher.Implements mode) {runs : Set (ArchiveRun F)}
    (hideal : mode.Ideal (encryptionsOf floats runs)) {text : Bytes}
    (h : Opened floats wide mode disk key content parts text) :
    ∃ run ∈ runs, run.key = key ∧ run.archive floats cipher = .ok content := by
  obtain ⟨e, ⟨run, hrun, encodedMetadata, hkey, hmetadata, rfl⟩, rfl, hnonce, haad,
      hencrypt⟩ :=
    hideal.genuine _ _ _ _ _ _ h.decrypted
  rw [← haad, ← hnonce] at hencrypt
  have hwritten := encryptStream_eq_ok himpl hkey hmetadata hencrypt
  refine ⟨run, hrun, rfl, ?_⟩
  have hcontent := content_eq h.parsed
  rw [← haad] at hcontent
  exact hwritten.trans (congrArg Except.ok hcontent.symm)

variable (wide) in
/-- What an encryption under an ideal mode has made decrypts to the same payload and the same
metadata, and nothing else decrypts; a run that raises leaves the temporary files alone. -/
theorem archives_authentic (himpl : cipher.Implements mode) (hsized : mode.Sized tagBytes)
    (hfloats : floats.Strict) (runs : Set (ArchiveRun F))
    (hideal : mode.Ideal (encryptionsOf floats runs)) :
    (∀ run ∈ runs, ∀ encodedMetadata, run.key.length = 32 →
      metadataBytes floats (.object run.metadata) = .ok encodedMetadata →
      (Json.object run.metadata).Dictionaries → (Json.object run.metadata).SpellableTexts →
      run.source.remaining ≠ [] →
        ∃ bytes, run.archive floats cipher = .ok bytes ∧
          ∀ disk : Disk, disk.archive = some bytes → (∀ c, disk.fails c = false) →
            ∀ s : TempDir, ∃ path metadata,
              decryptToTemporary floats wide cipher disk run.key s =
                (.ok (path, metadata), s ++ [(path, run.source.remaining)]) ∧
              path ∉ s.map (·.1) ∧ Json.Same (.object run.metadata) metadata) ∧
    ∀ (disk : Disk) (key content : Bytes) (s : TempDir), disk.archive = some content →
      match decryptToTemporary floats wide cipher disk key s with
      | (.ok _, _) => ∃ run ∈ runs, run.key = key ∧ run.archive floats cipher = .ok content
      | (.error _, s') => s' = s := by
  constructor
  · intro run hrun encodedMetadata hkey hmetadata hdicts htexts htext
    obtain ⟨hstrict, -, -, -⟩ := metadataBytes_eq_ok hmetadata
    obtain ⟨sorted, hsorted, hload⟩ := loadMetadata_metadataBytes wide hmetadata
      (Json.ok_of_isStrict hfloats _ hstrict hdicts htexts)
    obtain ⟨bytes, harchive, hopened⟩ := ArchiveRun.opened himpl hsized hkey hmetadata hload htext
      (hideal.inverts (run.encryption encodedMetadata) ⟨run, hrun, _, hkey, hmetadata, rfl⟩)
    refine ⟨bytes, harchive, fun disk hdisk hcalls s => ?_⟩
    obtain ⟨parts, rfl, hparts⟩ := hopened disk hdisk hcalls
    refine ⟨disk.tempName s, _, hparts.decrypts himpl s, disk.fresh s, ?_⟩
    rw [← hsorted]
    exact Json.same_sortKeys _
  -- what decrypts at all is an encryption of one of the runs, since the mode is ideal
  · intro disk key content s hdisk
    have hends := ends_decryptToTemporary floats wide disk key s himpl
    rcases hrun : decryptToTemporary floats wide cipher disk key s with ⟨r, s'⟩
    rw [Ends, hrun] at hends
    cases r with
    | error e => exact hends.1
    | ok v =>
      obtain ⟨content', parts, text, hopened, -⟩ := hends
      obtain rfl := Option.some.inj (hdisk.symm.trans hopened.archive)
      exact hopened.archive_eq himpl hideal

end

/-! ## A note in the metadata -/

/-- An interpreter with a single float. -/
def halfFloats : Floats Unit := ⟨fun _ => (), fun _ => py "0.5", fun _ _ => false⟩

lemma halfFloats_strict : halfFloats.Strict := fun _ _ =>
  ⟨fun _ hc => Json.printable_of_all (w := py "0.5") (by decide) _ hc,
    List.all_eq_true.1 (show (py "0.5").all Json.isPlain = true by decide),
    show Json.scanRun halfFloats (py "0.5") = [.scalar (.float ())] by decide +kernel⟩

lemma length_nonce : (List.replicate 12 (0 : UInt8)).length = 12 := rfl

/-- A run that encrypts one byte, with a note in the metadata. -/
def noteRun (note : PyStr) : ArchiveRun Unit where
  key := List.replicate 32 0
  nonce := ⟨List.replicate 12 0, length_nonce⟩
  metadata := [(py "note", .string note)]
  source := ⟨[7], ⟨[], Stream.nonempty_nil⟩⟩

/-- A tag. -/
def blankTag : Bytes := List.replicate tagBytes 0

/-- The encoded metadata of a run with a short note. -/
def noteMetadata (spelling : String) : Bytes := bytes ("\x7b\"note\":\"" ++ spelling ++ "\"\x7d")

lemma metadataBytes_note : metadataBytes halfFloats (.object (noteRun (py "nightly")).metadata) =
    .ok (noteMetadata "nightly") := by
  decide +kernel

lemma metadataBytes_pair : metadataBytes halfFloats
    (.object (noteRun [0xD83D, 0xDE00]).metadata) = .ok (noteMetadata "\\ud83d\\ude00") := by
  decide +kernel

/-- A decoder that knows neither UTF-16 nor UTF-32. -/
def noWide : Json.WideCodec := fun _ _ => none

/-- The two escapes are read as one character. -/
lemma loadMetadata_pair : loadMetadata halfFloats noWide (noteMetadata "\\ud83d\\ude00") =
    .ok [(py "note", .string [0x1F600])] := by
  have hdecode : Json.decodeBytes noWide (noteMetadata "\\ud83d\\ude00") =
      some (py "\x7b\"note\":\"\\ud83d\\ude00\"\x7d") := by
    decide +kernel
  have hlex : Json.lex halfFloats (.plain []) (py "\x7b\"note\":\"\\ud83d\\ude00\"\x7d") =
      [.lbrace, .string (py "note"), .colon, .string [0x1F600], .rbrace] := by
    decide +kernel
  have hmark : ¬(py "\x7b\"note\":\"\\ud83d\\ude00\"\x7d").head? = some 0xFEFF := by decide +kernel
  have hloads : Json.loadsBytes halfFloats noWide (noteMetadata "\\ud83d\\ude00") =
      .ok (.object [(py "note", .string [0x1F600])]) := by
    simp only [Json.loadsBytes, hdecode, Json.loads, if_neg hmark, hlex]
    rfl
  rw [loadMetadata, hloads]

lemma max_add_one_not_mem (ns : List ℕ) : ns.foldr max 0 + 1 ∉ ns := by
  have hbound : ∀ n ∈ ns, n ≤ ns.foldr max 0 := by
    induction ns with
    | nil => simp
    | cons m ns ih =>
      rw [List.forall_mem_cons]
      exact ⟨le_max_left _ _, fun n hn => (ih n hn).trans (le_max_right _ _)⟩
  intro hmem
  have hle := hbound _ hmem
  omega

/-- A disk that holds this archive, on which nothing fails. -/
def quietDisk (archive : Bytes) : Disk where
  archive := some archive
  posix := true
  fails _ := false
  tempName s := (s.map (·.1)).foldr max 0 + 1
  fresh _ := max_add_one_not_mem _

/-- The archives of one run, and an ideal mode for them. -/
lemma ledger_ideal_note {note : PyStr} {encodedMetadata : Bytes}
    (h : metadataBytes halfFloats (.object (noteRun note).metadata) = .ok encodedMetadata) :
    (ledgerMode blankTag (· = (noteRun note).encryption encodedMetadata)).Ideal
      (encryptionsOf halfFloats {noteRun note}) := by
  have hmade : encryptionsOf halfFloats {noteRun note} =
      {e | decide (e = (noteRun note).encryption encodedMetadata) = true} := by
    ext e
    simp only [encryptionsOf, Set.mem_singleton_iff, exists_eq_left, Set.mem_ofPred_eq,
      decide_eq_true_iff]
    constructor
    · rintro ⟨encodedMetadata', -, h', rfl⟩
      rw [Except.ok.inj (h'.symm.trans h)]
    · rintro rfl
      exact ⟨encodedMetadata, rfl, h, rfl⟩
  rw [hmade]
  exact ledgerMode_ideal _ _

/-- The archive of a run with a note opens. -/
lemma noteRun_opened {note : PyStr} {encodedMetadata : Bytes} {metadata : List (PyStr × Json Unit)}
    (h : metadataBytes halfFloats (.object (noteRun note).metadata) = .ok encodedMetadata)
    (hload : loadMetadata halfFloats noWide encodedMetadata = .ok metadata) :
    ∃ bytes parts, (noteRun note).archive halfFloats (ledger blankTag
        (· = (noteRun note).encryption encodedMetadata)) = .ok bytes ∧ parts.metadata = metadata ∧
      Opened halfFloats noWide (ledgerMode blankTag (· = (noteRun note).encryption encodedMetadata))
        (quietDisk bytes) (List.replicate 32 0) bytes parts [7] := by
  obtain ⟨bytes, hbytes, hopened⟩ := ArchiveRun.opened (ledger_implements blankTag
      (· = (noteRun note).encryption encodedMetadata)) (ledgerMode_sized _ _) rfl h hload
    (by simp [noteRun, PrefixedReader.remaining])
    ((ledger_ideal_note h).inverts _ ⟨_, rfl, _, rfl, h, rfl⟩)
  obtain ⟨parts, hparts, hopens⟩ := hopened (quietDisk bytes) rfl fun _ => rfl
  exact ⟨bytes, parts, hbytes, hparts, hopens⟩

/-- The two halves of a pair of surrogates are not what is read. -/
theorem pair_respelled :
    ∃ bytes path metadata, (noteRun [0xD83D, 0xDE00]).archive halfFloats (ledger blankTag
        (· = (noteRun [0xD83D, 0xDE00]).encryption (noteMetadata "\\ud83d\\ude00"))) = .ok bytes ∧
      decryptToTemporary halfFloats noWide (ledger blankTag
          (· = (noteRun [0xD83D, 0xDE00]).encryption (noteMetadata "\\ud83d\\ude00")))
          (quietDisk bytes) (List.replicate 32 0) [] = (.ok (path, metadata), [(path, [7])]) ∧
      ¬Json.Same (.object (noteRun [0xD83D, 0xDE00]).metadata) metadata := by
  obtain ⟨bytes, parts, hbytes, hparts, hopens⟩ :=
    noteRun_opened metadataBytes_pair loadMetadata_pair
  refine ⟨bytes, _, _, hbytes, hopens.decrypts (ledger_implements _ _) [], ?_⟩
  rw [hparts]
  rintro (_ | _ | _ | ⟨hmembers, hperm⟩)
  rcases hmembers with _ | ⟨hvalue, hrest⟩
  cases hrest
  rw [List.singleton_perm] at hperm
  cases hperm
  exact absurd hvalue (by rintro ⟨⟩)

/-- The archive of a run under an ideal mode. -/
theorem archives_authentic_note :
    ∃ bytes path metadata, (noteRun (py "nightly")).archive halfFloats (ledger blankTag
        (· = (noteRun (py "nightly")).encryption (noteMetadata "nightly"))) = .ok bytes ∧
      decryptToTemporary halfFloats noWide (ledger blankTag
          (· = (noteRun (py "nightly")).encryption (noteMetadata "nightly"))) (quietDisk bytes)
          (List.replicate 32 0) [] = (.ok (path, metadata), [(path, [7])]) ∧
      Json.Same (.object (noteRun (py "nightly")).metadata) metadata := by
  have hdicts : (Json.object (noteRun (py "nightly")).metadata).Dictionaries := by
    simp [noteRun, Json.Dictionaries, Json.Throughout, Json.MembersThroughout]
  have htexts : (Json.object (noteRun (py "nightly")).metadata).SpellableTexts := by
    simp only [noteRun, Json.SpellableTexts, Json.Throughout, Json.MembersThroughout, and_true,
      true_and]
    exact ⟨Json.spellable_py (by decide), Json.spellable_py (by decide)⟩
  obtain ⟨bytes, hbytes, hdecrypt⟩ := (archives_authentic noWide
    (ledger_implements blankTag (· = (noteRun (py "nightly")).encryption (noteMetadata "nightly")))
    (ledgerMode_sized _ _) halfFloats_strict {noteRun (py "nightly")}
    (ledger_ideal_note metadataBytes_note)).1 _ rfl _ rfl metadataBytes_note hdicts htexts
    (by simp [noteRun, PrefixedReader.remaining])
  obtain ⟨path, metadata, hrun, -, hsame⟩ := hdecrypt (quietDisk bytes) rfl (fun _ => rfl) []
  exact ⟨bytes, path, metadata, hbytes, hrun, hsame⟩

end MailGate
