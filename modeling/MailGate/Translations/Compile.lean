import Mathlib.Data.List.Lex
import Mathlib.Data.List.Sort
import Mathlib.Order.Fin.Basic
import MailGate.Lib.Dict
import MailGate.Lib.Layout
import MailGate.Python.Struct
import MailGate.Python.Utf8

/-!
# Compiling a message catalogue

`compile_catalog` writes the messages of a catalogue as an MO file: a header of seven words, a
table of the keys and one of the values, and the texts.  A reader of such a file knows only its
header, so what the file says is what the tables lead to.
-/

namespace MailGate

open Layout

/-- The messages of a catalogue, a `dict[str, str]`. -/
structure Catalog where
  entries : List (PyStr × PyStr)
  nodup : (entries.map (·.1)).Nodup

namespace Catalog

def keys (messages : Catalog) : List PyStr := messages.entries.map (·.1)

/-- `messages[key]`; `none` is the `KeyError`. -/
def get (messages : Catalog) (key : PyStr) : Option PyStr := messages.entries.lookup key

/-- The bytes of a text that can be encoded. -/
def utf8 (s : PyStr) : Bytes := s.encode.getD []

/-- The bytes of the file: its header and, for each message, two entries of the tables and two
texts with the byte behind each. -/
def size (messages : Catalog) : ℕ :=
  7 * 4 + (messages.entries.map fun p => 18 + (utf8 p.1).length + (utf8 p.2).length).sum

lemma get_of_mem {messages : Catalog} {p : PyStr × PyStr} (h : p ∈ messages.entries) :
    messages.get p.1 = some p.2 :=
  (Dict.lookup_eq_some_iff messages.nodup).2 h

end Catalog

/-! ## Writing -/

namespace Translations

open Catalog

/-- The loop that writes a table: the length and the offset of each text. -/
def packTable : ℕ → List Bytes → Option Bytes
  | _, [] => some []
  | offset, value :: values => do
      let entry ← Bytes.packWords [value.length, offset]
      let output ← packTable (offset + value.length + 1) values
      return entry ++ output

/-- `compile_catalog`; `none` is the `UnicodeEncodeError` of a lone surrogate, or the
`struct.error` of a file of four gigabytes. -/
def compileCatalog (messages : Catalog) : Option Bytes := do
  let keys := messages.keys.insertionSort (· ≤ ·)
  let encodedKeys ← keys.mapM PyStr.encode
  let encodedValues ← keys.mapM fun key => (messages.get key).bind PyStr.encode
  let count := keys.length
  let keyTableOffset := 7 * 4
  let valueTableOffset := keyTableOffset + count * 8
  let keyDataOffset := valueTableOffset + count * 8
  let keyData := (encodedKeys.map (· ++ [0])).flatten
  let valueDataOffset := keyDataOffset + keyData.length
  let valueData := (encodedValues.map (· ++ [0])).flatten
  let header ← Bytes.packWords [0x950412DE, 0, count, keyTableOffset, valueTableOffset, 0, 0]
  let keyTable ← packTable keyDataOffset encodedKeys
  let valueTable ← packTable valueDataOffset encodedValues
  return [header, keyTable, valueTable, keyData, valueData].flatten

/-! ## Reading -/

/-- The word at an offset. -/
def word (file : Bytes) (offset : ℕ) : ℕ := Bytes.fromLittleEndian (Span.read file ⟨4, offset⟩)

/-- The entries of a table, each the length and the offset of a text. -/
def table (file : Bytes) : (offset count : ℕ) → List Span
  | _, 0 => []
  | offset, count + 1 =>
      ⟨word file offset, word file (offset + 4)⟩ :: table file (offset + 8) count

/-- Where the keys stand, by the header. -/
def keySpans (file : Bytes) : List Span := table file (word file 12) (word file 8)

/-- Where the values stand, by the header. -/
def valueSpans (file : Bytes) : List Span := table file (word file 16) (word file 8)

/-- The messages of a file; `none` if a text is not UTF-8. -/
def readMo (file : Bytes) : Option (List (PyStr × PyStr)) := do
  let keys ← (keySpans file).mapM fun s => Bytes.decodeUtf8 false (s.read file)
  let values ← (valueSpans file).mapM fun s => Bytes.decodeUtf8 false (s.read file)
  return keys.zip values

/-- What the header refers to, and the header: the two tables and the texts, each with the byte
behind it. -/
def extents (file : Bytes) : List Span :=
  ⟨7 * 4, 0⟩ :: ⟨word file 8 * 8, word file 12⟩ :: ⟨word file 8 * 8, word file 16⟩ ::
    (keySpans file ++ valueSpans file).map Span.extend

/-- A little-endian MO file without a hash table. -/
structure IsMo (file : Bytes) : Prop where
  magic : word file 0 = 0x950412DE
  revision : word file 4 = 0
  unhashed : word file 20 = 0
  inside : ∀ s ∈ extents file, s.stop ≤ file.length
  disjoint : (extents file).Pairwise Span.Disjoint
  terminated : ∀ s ∈ keySpans file ++ valueSpans file, Terminates 0 file s
  sorted : ((keySpans file).map (Span.read file)).Pairwise (· < ·)

/-! ## Words and tables are read back -/

variable {front back b t : Bytes} {offset : ℕ} {values : List Bytes}

lemma word_littleEndian {n : ℕ} (h : n < 0x100000000) (front back : Bytes) :
    word (front ++ (Bytes.littleEndian n ++ back)) front.length = n := by
  have hread := Span.read_middle front (Bytes.littleEndian n) back
  rw [Bytes.littleEndian_length] at hread
  rw [word, hread, Bytes.fromLittleEndian_littleEndian h]

lemma packWords_eq_some {words : List ℕ} (h : Bytes.packWords words = some b) :
    (∀ n ∈ words, n < 0x100000000) ∧ b = (words.map Bytes.littleEndian).flatten := by
  rw [Bytes.packWords] at h
  split at h
  · rename_i hwords
    exact ⟨hwords, (Option.some.inj h).symm⟩
  · cases h

/-- The words of one call of `struct.pack` stand one after the other. -/
lemma word_packWords {words : List ℕ} (h : Bytes.packWords words = some b) {i n : ℕ}
    (hi : words[i]? = some n) (front back : Bytes) :
    word (front ++ (b ++ back)) (front.length + 4 * i) = n := by
  obtain ⟨hwords, rfl⟩ := packWords_eq_some h
  clear h
  induction words generalizing front i with
  | nil => simp at hi
  | cons m words ih =>
    rw [List.forall_mem_cons] at hwords
    rw [List.map_cons, List.flatten_cons, List.append_assoc]
    cases i with
    | zero =>
      obtain rfl : m = n := by simpa using hi
      exact word_littleEndian hwords.1 front _
    | succ i =>
      rw [List.getElem?_cons_succ] at hi
      have hrest := ih hi (front ++ Bytes.littleEndian m) hwords.2
      rw [List.length_append, Bytes.littleEndian_length, List.append_assoc] at hrest
      rw [show front.length + 4 * (i + 1) = front.length + 4 + 4 * i by omega]
      exact hrest

lemma packTable_cons {value : Bytes} (h : packTable offset (value :: values) = some t) :
    ∃ entry rest, Bytes.packWords [value.length, offset] = some entry ∧
      packTable (offset + value.length + 1) values = some rest ∧ t = entry ++ rest := by
  rw [packTable] at h
  obtain ⟨entry, hentry, h⟩ := Option.bind_eq_some_iff.1 h
  obtain ⟨rest, hrest, h⟩ := Option.bind_eq_some_iff.1 h
  exact ⟨entry, rest, hentry, hrest, (Option.some.inj h).symm⟩

lemma packTable_length (h : packTable offset values = some t) : t.length = values.length * 8 := by
  induction values generalizing offset t with
  | nil =>
    cases h
    rfl
  | cons value values ih =>
    obtain ⟨entry, rest, hentry, hrest, rfl⟩ := packTable_cons h
    obtain ⟨-, rfl⟩ := packWords_eq_some hentry
    rw [List.length_append, ih hrest, List.length_cons]
    simp only [List.map_cons, List.map_nil, List.flatten_cons, List.flatten_nil, List.length_append,
      Bytes.littleEndian_length, List.length_nil]
    omega

/-- A table that was written is read as the places of the texts. -/
lemma table_packTable (h : packTable offset values = some t) (front back : Bytes) :
    table (front ++ (t ++ back)) front.length values.length = spans offset values := by
  induction values generalizing offset t front with
  | nil => rfl
  | cons value values ih =>
    obtain ⟨entry, rest, hentry, hrest, rfl⟩ := packTable_cons h
    have hlength := word_packWords hentry (i := 0) rfl front (rest ++ back)
    have hoffset := word_packWords hentry (i := 1) rfl front (rest ++ back)
    have hsize : entry.length = 8 := by
      obtain ⟨-, rfl⟩ := packWords_eq_some hentry
      rfl
    have hnext := ih hrest (front ++ entry)
    rw [List.length_append, hsize, List.append_assoc] at hnext
    rw [List.append_assoc, List.length_cons, table, spans, hnext]
    rw [Nat.mul_zero, Nat.add_zero] at hlength
    rw [Nat.mul_one] at hoffset
    rw [hlength, hoffset]

/-! ## Lists of encoded texts -/

section Lists

variable {α β : Type} {f : α → Option β} {xs : List α} {ys : List β}

lemma mapM_of_forall {u : α → β} (h : ∀ x ∈ xs, f x = some (u x)) :
    xs.mapM f = some (xs.map u) := by
  induction xs with
  | nil => rfl
  | cons x xs ih =>
    rw [List.forall_mem_cons] at h
    rw [List.mapM_cons, h.1, ih h.2]
    rfl

lemma forall_of_mapM (d : β) (h : xs.mapM f = some ys) :
    (∀ x ∈ xs, f x = some ((f x).getD d)) ∧ ys = xs.map fun x => (f x).getD d := by
  induction xs generalizing ys with
  | nil =>
    cases h
    simp
  | cons x xs ih =>
    rw [List.mapM_cons] at h
    obtain ⟨y, hy, h⟩ := Option.bind_eq_some_iff.1 h
    obtain ⟨ys', hys, h⟩ := Option.bind_eq_some_iff.1 h
    obtain ⟨hrest, rfl⟩ := ih hys
    obtain rfl := Option.some.inj h
    rw [List.forall_mem_cons, List.map_cons, hy, Option.getD_some]
    exact ⟨⟨rfl, hrest⟩, rfl⟩

end Lists

/-! ## What is written -/

variable {messages : Catalog} {file : Bytes}

/-- The keys in their order. -/
def sortedKeys (messages : Catalog) : List PyStr := messages.keys.insertionSort (· ≤ ·)

/-- The value of a key that is there. -/
def valueOf (messages : Catalog) (key : PyStr) : PyStr := (messages.get key).getD []

/-- Where the texts begin, behind the header and the two tables. -/
def dataOffset (messages : Catalog) : ℕ :=
  7 * 4 + (sortedKeys messages).length * 8 + (sortedKeys messages).length * 8

def encodedKeys (messages : Catalog) : List Bytes := (sortedKeys messages).map utf8

def encodedValues (messages : Catalog) : List Bytes :=
  (sortedKeys messages).map fun key => utf8 (valueOf messages key)

lemma sortedKeys_perm (messages : Catalog) : (sortedKeys messages).Perm messages.keys :=
  List.perm_insertionSort _ _

/-- No key comes twice. -/
lemma sortedKeys_pairwise (messages : Catalog) : (sortedKeys messages).Pairwise (· < ·) := by
  have hle : (sortedKeys messages).Pairwise (· ≤ ·) := List.pairwise_insertionSort _ _
  have hne : (sortedKeys messages).Nodup := (sortedKeys_perm messages).nodup_iff.2 messages.nodup
  exact (hle.and hne).imp fun h => lt_of_le_of_ne h.1 h.2

/-- The messages by their keys, in any order of the keys. -/
lemma messages_perm (messages : Catalog) :
    ((sortedKeys messages).map fun key => (key, valueOf messages key)).Perm messages.entries := by
  refine ((sortedKeys_perm messages).map _).trans (List.Perm.of_eq ?_)
  rw [Catalog.keys, List.map_map]
  refine (List.map_congr_left fun p hp => ?_).trans (List.map_id _)
  show (p.1, valueOf messages p.1) = p
  rw [valueOf, Catalog.get_of_mem hp, Option.getD_some]

lemma get_sortedKeys {key : PyStr} (h : key ∈ sortedKeys messages) :
    (key, valueOf messages key) ∈ messages.entries ∧
      messages.get key = some (valueOf messages key) := by
  have hmem := (messages_perm messages).mem_iff.1 (List.mem_map_of_mem h)
  exact ⟨hmem, Catalog.get_of_mem hmem⟩

/-- What the tables and the texts take. -/
lemma terminated_length {α : Type} (keys : List α) (a b : α → Bytes) :
    keys.length * 8 + keys.length * 8 + (terminated 0 (keys.map a ++ keys.map b)).length =
      (keys.map fun key => 18 + (a key).length + (b key).length).sum := by
  rw [terminated_append, List.length_append]
  induction keys with
  | nil => rfl
  | cons key keys ih =>
    simp only [List.map_cons, List.length_cons, List.sum_cons, terminated_cons, List.length_append,
      ← ih]
    omega

/-- The file ends with the last text. -/
lemma size_eq (messages : Catalog) : messages.size = dataOffset messages +
    (terminated 0 (encodedKeys messages ++ encodedValues messages)).length := by
  have hsum := ((messages_perm messages).map fun p =>
    18 + (utf8 p.1).length + (utf8 p.2).length).sum_nat
  have hlength := terminated_length (sortedKeys messages) utf8
    fun key => utf8 (valueOf messages key)
  rw [List.map_map] at hsum
  rw [Catalog.size, ← hsum, dataOffset, encodedKeys, encodedValues]
  simp only [Function.comp_def]
  omega

/-- The words of the header. -/
def headerWords (messages : Catalog) : List ℕ :=
  [0x950412DE, 0, (sortedKeys messages).length, 7 * 4, 7 * 4 + (sortedKeys messages).length * 8,
    0, 0]

/-- Every text of the catalogue can be encoded. -/
def Encodable (messages : Catalog) : Prop :=
  ∀ key ∈ sortedKeys messages, key.encode = some (utf8 key) ∧
    (valueOf messages key).encode = some (utf8 (valueOf messages key))

lemma bind_get {key : PyStr} (h : key ∈ sortedKeys messages) :
    (messages.get key).bind PyStr.encode = (valueOf messages key).encode := by
  rw [(get_sortedKeys h).2, Option.bind_some]

lemma encodable_of_compileCatalog (h : compileCatalog messages = some file) :
    Encodable messages := by
  rw [compileCatalog] at h
  obtain ⟨ks, hkeys, h⟩ := Option.bind_eq_some_iff.1 h
  obtain ⟨vs, hvalues, h⟩ := Option.bind_eq_some_iff.1 h
  have hkeysEncode := (forall_of_mapM [] hkeys).1
  have hvaluesEncode := (forall_of_mapM [] hvalues).1
  intro key hkey
  refine ⟨hkeysEncode key hkey, ?_⟩
  have hvalue := hvaluesEncode key hkey
  rwa [bind_get hkey] at hvalue

/-- What is written once the texts are encoded. -/
lemma compileCatalog_eq (h : Encodable messages) : compileCatalog messages =
    (Bytes.packWords (headerWords messages)).bind fun header =>
      (packTable (dataOffset messages) (encodedKeys messages)).bind fun keyTable =>
        (packTable (dataOffset messages + (terminated 0 (encodedKeys messages)).length)
          (encodedValues messages)).bind fun valueTable =>
            some (header ++ (keyTable ++ (valueTable ++
              terminated 0 (encodedKeys messages ++ encodedValues messages)))) := by
  have hkeys : (sortedKeys messages).mapM PyStr.encode = some (encodedKeys messages) :=
    mapM_of_forall fun key hkey => (h key hkey).1
  have hvalues : (sortedKeys messages).mapM (fun key => (messages.get key).bind PyStr.encode) =
      some (encodedValues messages) :=
    mapM_of_forall fun key hkey => (bind_get hkey).trans (h key hkey).2
  have hflatten : ∀ header keyTable valueTable : Bytes,
      [header, keyTable, valueTable, terminated 0 (encodedKeys messages),
        terminated 0 (encodedValues messages)].flatten = header ++ (keyTable ++ (valueTable ++
          terminated 0 (encodedKeys messages ++ encodedValues messages))) := by
    intro header keyTable valueTable
    simp [terminated_append]
  simp only [← hflatten]
  rw [compileCatalog]
  show ((sortedKeys messages).mapM PyStr.encode).bind _ = _
  rw [hkeys, Option.bind_some]
  show ((sortedKeys messages).mapM fun key => (messages.get key).bind PyStr.encode).bind _ = _
  rw [hvalues, Option.bind_some]
  rfl

/-- The parts of a file that was written. -/
structure Parts (messages : Catalog) (file : Bytes) where
  header : Bytes
  keyTable : Bytes
  valueTable : Bytes
  encodable : Encodable messages
  header_eq : Bytes.packWords (headerWords messages) = some header
  keyTable_eq : packTable (dataOffset messages) (encodedKeys messages) = some keyTable
  valueTable_eq : packTable (dataOffset messages + (terminated 0 (encodedKeys messages)).length)
    (encodedValues messages) = some valueTable
  file_eq : file = header ++ (keyTable ++ (valueTable ++
    terminated 0 (encodedKeys messages ++ encodedValues messages)))

lemma nonempty_parts (h : compileCatalog messages = some file) :
    Nonempty (Parts messages file) := by
  have hencodable := encodable_of_compileCatalog h
  rw [compileCatalog_eq hencodable] at h
  obtain ⟨header, hheader, h⟩ := Option.bind_eq_some_iff.1 h
  obtain ⟨keyTable, hkeyTable, h⟩ := Option.bind_eq_some_iff.1 h
  obtain ⟨valueTable, hvalueTable, h⟩ := Option.bind_eq_some_iff.1 h
  exact ⟨⟨header, keyTable, valueTable, hencodable, hheader, hkeyTable, hvalueTable,
    (Option.some.inj h).symm⟩⟩

namespace Parts

variable (p : Parts messages file)

include p

lemma header_length : p.header.length = 7 * 4 := by
  obtain ⟨-, h⟩ := packWords_eq_some p.header_eq
  rw [h]
  rfl

lemma front_length : (p.header ++ (p.keyTable ++ p.valueTable)).length = dataOffset messages := by
  rw [List.length_append, List.length_append, p.header_length, packTable_length p.keyTable_eq,
    packTable_length p.valueTable_eq, encodedKeys, encodedValues, List.length_map, List.length_map,
    dataOffset]
  omega

lemma file_length : file.length = messages.size := by
  have h := congrArg List.length p.file_eq
  have hfront := p.front_length
  simp only [List.length_append] at h hfront
  rw [size_eq]
  omega

/-- The words of the header. -/
lemma word_header {i n : ℕ} (hi : (headerWords messages)[i]? = some n) :
    word file (4 * i) = n := by
  have h := word_packWords p.header_eq hi []
    (p.keyTable ++ (p.valueTable ++ terminated 0 (encodedKeys messages ++ encodedValues messages)))
  rw [List.nil_append, ← p.file_eq, List.length_nil, Nat.zero_add] at h
  exact h

lemma word_count : word file 8 = (sortedKeys messages).length := p.word_header (i := 2) rfl

lemma word_keyTable : word file 12 = 7 * 4 := p.word_header (i := 3) rfl

lemma word_valueTable : word file 16 = 7 * 4 + (sortedKeys messages).length * 8 :=
  p.word_header (i := 4) rfl

lemma keySpans_eq : keySpans file = spans (dataOffset messages) (encodedKeys messages) := by
  have h := table_packTable p.keyTable_eq p.header
    (p.valueTable ++ terminated 0 (encodedKeys messages ++ encodedValues messages))
  rw [← p.file_eq, p.header_length, encodedKeys, List.length_map] at h
  rw [keySpans, p.word_keyTable, p.word_count, h, encodedKeys]

lemma valueSpans_eq : valueSpans file =
    spans (dataOffset messages + (terminated 0 (encodedKeys messages)).length)
      (encodedValues messages) := by
  have h := table_packTable p.valueTable_eq (p.header ++ p.keyTable)
    (terminated 0 (encodedKeys messages ++ encodedValues messages))
  rw [List.append_assoc, ← p.file_eq, List.length_append, p.header_length,
    packTable_length p.keyTable_eq] at h
  rw [valueSpans, p.word_valueTable, p.word_count]
  simpa only [encodedKeys, encodedValues, List.length_map] using h

/-- Where the texts stand. -/
lemma spans_eq : keySpans file ++ valueSpans file =
    spans (p.header ++ (p.keyTable ++ p.valueTable)).length
      (encodedKeys messages ++ encodedValues messages) := by
  rw [p.keySpans_eq, p.valueSpans_eq, spans_append 0, p.front_length]

/-- The texts stand there, each with the byte behind it. -/
lemma read_spans : (keySpans file ++ valueSpans file).map (Span.read file) =
      encodedKeys messages ++ encodedValues messages ∧
    ∀ s ∈ keySpans file ++ valueSpans file, Terminates 0 file s := by
  have h := Layout.read_spans 0 (p.header ++ (p.keyTable ++ p.valueTable))
    (encodedKeys messages ++ encodedValues messages) []
  have hfile : p.header ++ (p.keyTable ++ p.valueTable) ++
      (terminated 0 (encodedKeys messages ++ encodedValues messages) ++ []) = file := by
    rw [List.append_nil, List.append_assoc, List.append_assoc, ← p.file_eq]
  rw [hfile, ← p.spans_eq] at h
  exact h

lemma read_keys : (keySpans file).map (Span.read file) = encodedKeys messages := by
  have h := p.read_spans.1
  rw [List.map_append] at h
  refine (List.append_inj h ?_).1
  rw [List.length_map, p.keySpans_eq, spans_length]

lemma read_values : (valueSpans file).map (Span.read file) = encodedValues messages := by
  have h := p.read_spans.1
  rw [List.map_append, p.read_keys] at h
  exact List.append_cancel_left h

/-- The texts lie behind the tables. -/
lemma texts_after {s : Span} (hs : s ∈ (keySpans file ++ valueSpans file).map Span.extend) :
    dataOffset messages ≤ s.offset ∧ s.stop ≤ file.length := by
  obtain ⟨t, ht, rfl⟩ := List.mem_map.1 hs
  rw [p.spans_eq, p.front_length] at ht
  have hoffset : dataOffset messages ≤ t.offset := offset_le_of_mem_spans ht
  have hstop := stop_le_of_mem_spans 0 ht
  rw [← size_eq, ← p.file_length] at hstop
  exact ⟨hoffset, hstop⟩

/-- The parts come one after the other and end with the file. -/
lemma extents_precede : (extents file).Pairwise Span.Precedes ∧
    ∀ s ∈ extents file, s.stop ≤ file.length := by
  have htexts : ((keySpans file ++ valueSpans file).map Span.extend).Pairwise Span.Precedes := by
    rw [List.pairwise_map, p.spans_eq]
    exact spans_pairwise _ _
  have hfile : dataOffset messages ≤ file.length := by
    rw [p.file_length, size_eq]
    omega
  have hbehind : ∀ n ≤ dataOffset messages,
      ∀ s ∈ (keySpans file ++ valueSpans file).map Span.extend, n ≤ s.offset :=
    fun n hn s hs => hn.trans (p.texts_after hs).1
  rw [extents, p.word_keyTable, p.word_valueTable, p.word_count]
  rw [dataOffset] at hbehind hfile
  simp only [List.pairwise_cons, List.forall_mem_cons, Span.Precedes, Span.stop]
  refine ⟨⟨⟨by omega, by omega, hbehind _ (by omega)⟩, ⟨by omega, hbehind _ (by omega)⟩,
    hbehind _ (by omega), htexts⟩, by omega, by omega, by omega, ?_⟩
  exact fun s hs => (p.texts_after hs).2

lemma isMo : IsMo file where
  magic := p.word_header (i := 0) rfl
  revision := p.word_header (i := 1) rfl
  unhashed := p.word_header (i := 5) rfl
  inside := p.extents_precede.2
  disjoint := p.extents_precede.1.imp .inl
  terminated := p.read_spans.2
  sorted := by
    rw [p.read_keys, encodedKeys, List.pairwise_map]
    refine (sortedKeys_pairwise messages).imp_of_mem fun hx hy hlt => ?_
    exact PyStr.encode_lt hlt (p.encodable _ hx).1 (p.encodable _ hy).1

/-- The messages are read in the order of their keys. -/
lemma readMo_eq : readMo file =
    some ((sortedKeys messages).map fun key => (key, valueOf messages key)) := by
  have hkeys : (keySpans file).mapM (Bytes.decodeUtf8 false ∘ Span.read file) =
      some ((sortedKeys messages).map id) := by
    rw [← List.mapM_map, p.read_keys, encodedKeys, List.mapM_map]
    exact mapM_of_forall fun key hkey => Bytes.decodeUtf8_encode ((p.encodable key hkey).1)
  have hvalues : (valueSpans file).mapM (Bytes.decodeUtf8 false ∘ Span.read file) =
      some ((sortedKeys messages).map (valueOf messages)) := by
    rw [← List.mapM_map, p.read_values, encodedValues, List.mapM_map]
    exact mapM_of_forall fun key hkey => Bytes.decodeUtf8_encode ((p.encodable key hkey).2)
  rw [List.map_id] at hkeys
  rw [readMo]
  simp only [Function.comp_def] at hkeys hvalues
  rw [hkeys, hvalues, List.map_prod_left_eq_zip]
  rfl

end Parts

/-! ## Every catalogue is written -/

/-- The map holds no lone surrogate. -/
def NoSurrogates (messages : Catalog) : Prop :=
  ∀ p ∈ messages.entries, ∀ c ∈ p.1 ++ p.2, PyChar.isSurrogate c = false

instance (messages : Catalog) : Decidable (NoSurrogates messages) :=
  decidable_of_iff (messages.entries.all fun p => (p.1 ++ p.2).all fun c => !c.isSurrogate) (by
    simp only [List.all_eq_true, Bool.not_eq_true', NoSurrogates])

lemma encode_utf8 {s : PyStr} (h : ∀ c ∈ s, PyChar.isSurrogate c = false) :
    s.encode = some (utf8 s) := by
  obtain ⟨b, hb⟩ := PyStr.exists_encode h
  rw [utf8, hb, Option.getD_some]

lemma NoSurrogates.encodable (h : NoSurrogates messages) : Encodable messages := by
  intro key hkey
  have htexts := h _ (get_sortedKeys hkey).1
  exact ⟨encode_utf8 fun c hc => htexts c (List.mem_append_left _ hc),
    encode_utf8 fun c hc => htexts c (List.mem_append_right _ hc)⟩

lemma packWords_of_lt {words : List ℕ} (h : ∀ n ∈ words, n < 0x100000000) :
    Bytes.packWords words = some (words.map Bytes.littleEndian).flatten := if_pos h

/-- A table can be written if the texts end below four gigabytes. -/
lemma exists_packTable (h : ∀ s ∈ spans offset values, s.stop < 0x100000000) :
    ∃ t, packTable offset values = some t := by
  induction values generalizing offset with
  | nil => exact ⟨[], rfl⟩
  | cons value values ih =>
    rw [spans, List.forall_mem_cons] at h
    obtain ⟨rest, hrest⟩ := ih h.2
    have hstop : offset + value.length < 0x100000000 := h.1
    have hwords : ∀ n ∈ [value.length, offset], n < 0x100000000 := by
      intro n hn
      rcases List.mem_pair.1 hn with rfl | rfl
      · omega
      · omega
    exact ⟨_, by rw [packTable, packWords_of_lt hwords, hrest]; rfl⟩

lemma exists_file (hencodable : Encodable messages) (hsize : messages.size < 0x100000000) :
    ∃ file, compileCatalog messages = some file := by
  rw [size_eq, terminated_append, List.length_append] at hsize
  have hheader : ∀ n ∈ headerWords messages, n < 0x100000000 := by
    intro n hn
    rw [dataOffset] at hsize
    simp only [headerWords, List.mem_cons, List.not_mem_nil, or_false] at hn
    omega
  obtain ⟨keyTable, hkeyTable⟩ : ∃ t, packTable (dataOffset messages) (encodedKeys messages) =
      some t := by
    refine exists_packTable fun s hs => ?_
    have hstop := stop_le_of_mem_spans 0 hs
    rw [Span.stop_extend] at hstop
    omega
  obtain ⟨valueTable, hvalueTable⟩ : ∃ t, packTable (dataOffset messages +
      (terminated 0 (encodedKeys messages)).length) (encodedValues messages) = some t := by
    refine exists_packTable fun s hs => ?_
    have hstop := stop_le_of_mem_spans 0 hs
    rw [Span.stop_extend] at hstop
    omega
  rw [compileCatalog_eq hencodable, packWords_of_lt hheader, hkeyTable, hvalueTable]
  exact ⟨_, rfl⟩

/-- What `compile_catalog` writes is an MO file of the size of the catalogue, and its messages are
those of the catalogue.  It writes every catalogue without surrogates of less than four
gigabytes. -/
theorem compileCatalog_isMo (messages : Catalog) :
    (∀ file, compileCatalog messages = some file →
      file.length = messages.size ∧ IsMo file ∧
        ∃ entries, readMo file = some entries ∧ entries.Perm messages.entries) ∧
    (NoSurrogates messages → messages.size < 0x100000000 →
      ∃ file, compileCatalog messages = some file) := by
  constructor
  · intro file h
    obtain ⟨p⟩ := nonempty_parts h
    exact ⟨p.file_length, p.isMo, _, p.readMo_eq, messages_perm messages⟩
  · intro hsurrogates hsize
    exact exists_file hsurrogates.encodable hsize

/-- A catalogue whose keys are not in their order. -/
def greetings : Catalog where
  entries := [(py "Yes", py "Ja"), (py "", py "Language: de"), (py "Bye", py "Tschüss")]
  nodup := by decide

theorem compileCatalog_isMo_greetings :
    ∃ file, compileCatalog greetings = some file ∧ IsMo file := by
  obtain ⟨file, hfile⟩ := (compileCatalog_isMo greetings).2 (by decide) (by decide)
  exact ⟨file, hfile, ((compileCatalog_isMo greetings).1 file hfile).2.1⟩

end Translations

end MailGate
