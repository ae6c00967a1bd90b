import MailGate.Python.Str

/-!
# The Python standard library and the third-party verifier

The parts of the standard library whose behaviour is a table or a large parser of its own
(Unicode data, `email`, `html.parser`, codecs, IDNA, regular expressions over free text,
SHA-256) and the package `dkim` enter the model as parameters.  A field that is a proof
records a documented fact about the part.
-/

namespace MailGate

open PyStr (TextOk)

/-- Exceptions inside the processing of a message. -/
inductive MailExn where
  /-- `UnsafeMessage` with its reason. -/
  | unsafeMessage (reason : PyStr)
  /-- `TypeError`, `ValueError` or `OverflowError` while a header is read. -/
  | value
  /-- Any other exception. -/
  | other
deriving DecidableEq, Repr

/-- `unicodedata` and the case mapping of `str`. -/
structure Unicodedata where
  /-- `unicodedata.name(c, "")`. -/
  name : PyChar → PyStr
  /-- `unicodedata.category(c)`. -/
  category : PyChar → PyStr
  /-- `unicodedata.normalize("NFKC", s)`. -/
  nfkc : PyStr → PyStr
  /-- `s.lower()`. -/
  lower : PyStr → PyStr
  /-- Character names are printable ASCII. -/
  name_ascii : ∀ c, ∀ x ∈ name c, 0x20 ≤ x.val ∧ x.val < 0x7F
  category_nul : category 0 = py "Cc"
  /-- Surrogates have no name and a category of their own. -/
  surrogate : ∀ c, c.isSurrogate = true → name c = [] ∧ category c = py "Cs"
  /-- Lower case of characters is made of characters, and U+0000 has no other upper case. -/
  lower_textOk : ∀ s, TextOk s → TextOk (lower s)

/-- What the application asks a MIME part for; reading a header can raise. -/
structure PartHeaders where
  contentDisposition : Except MailExn (Option PyStr)
  filename : Except MailExn (Option PyStr)
  contentType : Except MailExn PyStr
  contentCharset : Except MailExn (Option PyStr)
  /-- The content type has a `boundary` parameter. -/
  hasBoundary : Bool := false

/-- The headers of a part that can be a container: a `message/*`, or a `multipart/*` with a
boundary.  Without its boundary in the body the latter is a leaf. -/
def PartHeaders.canContain (headers : PartHeaders) : Bool :=
  match headers.contentType with
  | .error _ => false
  | .ok contentType =>
      PyStr.startswith (py "message/") contentType ||
        (PyStr.startswith (py "multipart/") contentType && headers.hasBoundary)

/-- A MIME part; `message/rfc822` counts as multipart. -/
inductive MimePart where
  /-- A part with a payload, which `get_payload(decode=True)` returns decoded. -/
  | leaf (headers : PartHeaders) (payload : Except MailExn (Option Bytes))
  | multipart (headers : PartHeaders) (parts : List MimePart) (h : headers.canContain = true)

namespace MimePart

mutual

/-- `part.walk()`: the part and everything below it, in preorder. -/
def walk : MimePart → List MimePart
  | leaf headers payload => [leaf headers payload]
  | multipart headers parts h => multipart headers parts h :: walkAll parts

/-- The parts of a list, each followed by everything below it. -/
def walkAll : List MimePart → List MimePart
  | [] => []
  | part :: parts => part.walk ++ walkAll parts

end

end MimePart

/-- A message as `email.parser` returns it. -/
structure EmailMessage where
  /-- `str(message.get(name))`, where there is such a header. -/
  get : PyStr → Except MailExn (Option PyStr)
  /-- `message.get_all(name, [])`. -/
  getAll : PyStr → Except MailExn (List PyStr)
  /-- The parser recorded a defect. -/
  hasDefects : Bool
  root : MimePart

/-- Why `bytes.decode` raised. -/
inductive CodecExn where
  | lookup
  | other
deriving DecidableEq, Repr

/-- What `HTMLParser` reports. -/
inductive HtmlEvent where
  | startTag (tag : PyStr)
  | endTag (tag : PyStr)
  | data (text : PyStr)
deriving DecidableEq, Repr

/-- Exceptions of `dkim.DKIM.verify` and of its constructor. -/
inductive DkimExn where
  | validation
  | dkim
  | value
  | index
  | other
deriving DecidableEq, Repr

/-- A call of `verify`: the package asks for the DNS names it likes and then decides.  What its
`dnsfunc` raises it may let through, handle or turn into an exception of its own. -/
inductive VerifyCall where
  | done (valid : Except DkimExn Bool)
  | lookup (name : Bytes) (next : Except DkimExn (Option Bytes) → VerifyCall)

/-- How a resolver answers. -/
inductive DnsAnswer where
  | value (txt : Option Bytes)
  /-- Something that is neither `None` nor a bytes object. -/
  | nonBytes
  /-- `DnsResolutionError`, temporary or not. -/
  | resolutionError (temporary : Bool)
  /-- Any other exception. -/
  | raised (exn : DkimExn)
deriving DecidableEq, Repr

/-- A `DnsTxtResolver` as one verification meets it. -/
structure DnsTxtResolver where
  /-- The answer to the query with this number. -/
  resolveTxt : ℕ → PyStr → DnsAnswer
  /-- Whether time is left in the budget of the verification at the query. -/
  timeLeft : ℕ → Bool

/-- Everything outside the repository that `parse_message` calls. -/
structure Library where
  unicode : Unicodedata
  /-- `BytesParser(policy=policy.default).parsebytes(raw)`. -/
  parsebytes : Bytes → Except MailExn EmailMessage
  /-- The same with `headersonly=True`. -/
  parseHeaders : Bytes → Except MailExn EmailMessage
  /-- `email.utils.getaddresses`: names and addresses. -/
  getaddresses : List PyStr → List (PyStr × PyStr)
  /-- `email.utils.parsedate_to_datetime`. -/
  parsedateToDatetime : PyStr → Except MailExn ℤ
  /-- `payload.decode(charset, errors="replace")`. -/
  decode : Bytes → PyStr → Except CodecExn PyStr
  /-- The events of `HTMLParser.feed`, without a closing `close()`. -/
  feed : PyStr → Except MailExn (List HtmlEvent)
  /-- `html.unescape`. -/
  unescape : PyStr → PyStr
  /-- `re.search(pattern, content, re.IGNORECASE | re.DOTALL)`. -/
  search : PyStr → PyStr → Bool
  /-- `s.encode("idna")`; `none` is a `UnicodeError`. -/
  idna : PyStr → Option Bytes
  /-- `urllib.parse._check_bracketed_host` accepts the text. -/
  bracketedHostOk : PyStr → Bool
  /-- `hashlib.sha256(b).hexdigest()`. -/
  sha256 : Bytes → PyStr
  /-- `dkim.DKIM(raw)`. -/
  dkimConstruct : Bytes → Except DkimExn Unit
  /-- `verifier.verify(idx=i)`. -/
  dkimVerify : Bytes → ℕ → VerifyCall
  sha256_length : ∀ b, (sha256 b).length = 64
  sha256_hex : ∀ b, ∀ c ∈ sha256 b, c ∈ py "0123456789abcdef"
  /-- An encoded host name has no NUL that the name did not have. -/
  idna_nul : ∀ s b, idna s = some b → (∀ c ∈ s, c ≠ 0) → ∀ x ∈ b, x ≠ 0

/-! ## A small instance -/

/-- Lower case of one ASCII character. -/
def lowerAsciiChar (c : PyChar) : PyChar :=
  if h : 0x41 ≤ c.val ∧ c.val ≤ 0x5A then ⟨c.val + 0x20, PyChar.val_add_lt h⟩ else c

lemma lowerAsciiChar_no_capital (c : PyChar) :
    ¬(0x41 ≤ (lowerAsciiChar c).val ∧ (lowerAsciiChar c).val ≤ 0x5A) := by
  rw [lowerAsciiChar]
  split
  · show ¬(0x41 ≤ c.val + 0x20 ∧ c.val + 0x20 ≤ 0x5A)
    omega
  · assumption

/-- A text without capital letters stays as it is. -/
lemma map_lowerAsciiChar {s : PyStr} (h : ∀ c ∈ s, ¬(0x41 ≤ c.val ∧ c.val ≤ 0x5A)) :
    s.map lowerAsciiChar = s := by
  calc s.map lowerAsciiChar = s.map id := by
        refine List.map_congr_left fun c hc => ?_
        rw [lowerAsciiChar, dif_neg (h c hc)]
        rfl
    _ = s := List.map_id s

/-- What `s.lower()` does to ASCII text. -/
def LowersAscii (lower : PyStr → PyStr) : Prop :=
  ∀ s : PyStr, (∀ c ∈ s, c.val < 0x80) → lower s = s.map lowerAsciiChar

/-- What `s.lower()` does to any text: it leaves no capital letter of ASCII, and where it gives
ASCII it has mapped each character to one. -/
structure LowerCase (lower : PyStr → PyStr) : Prop where
  ascii : LowersAscii lower
  no_capital : ∀ s, ∀ c ∈ lower s, ¬(0x41 ≤ c.val ∧ c.val ≤ 0x5A)
  length_le : ∀ s, (∀ c ∈ lower s, c.val < 0x80) → (lower s).length ≤ s.length

/-- Character names of lower-case letters, the full stop, the at sign and U+202E. -/
def sampleName (c : PyChar) : PyStr :=
  if c.val = 0x202E then py "RIGHT-TO-LEFT OVERRIDE"
  else if c = ofChar '@' then py "COMMERCIAL AT"
  else if c = ofChar '.' then py "FULL STOP"
  else if h : 0x61 ≤ c.val ∧ c.val ≤ 0x7A then
    py "LATIN SMALL LETTER " ++ [(⟨c.val - 0x20, PyChar.val_sub_lt h⟩ : PyChar)]
  else []

/-- Categories of the characters that have a name, of controls and of surrogates. -/
def sampleCategory (c : PyChar) : PyStr :=
  if c.val < 0x20 ∨ (0x7F ≤ c.val ∧ c.val < 0xA0) then py "Cc"
  else if c.isSurrogate then py "Cs"
  else if c.val = 0x202E then py "Cf"
  else if c = ofChar '@' ∨ c = ofChar '.' then py "Po"
  else py "Ll"

lemma sampleName_ascii (c : PyChar) : ∀ x ∈ sampleName c, 0x20 ≤ x.val ∧ x.val < 0x7F := by
  intro x hx
  have hmem : ∀ w : PyStr, (w.all fun y => 0x20 ≤ y.val && y.val < 0x7F) = true →
      x ∈ w → 0x20 ≤ x.val ∧ x.val < 0x7F := by
    intro w hw hxw
    simpa using List.all_eq_true.1 hw x hxw
  rw [sampleName] at hx
  split_ifs at hx with h₁ h₂ h₃ h₄
  · exact hmem _ (by decide) hx
  · exact hmem _ (by decide) hx
  · exact hmem _ (by decide) hx
  · rcases List.mem_append.1 hx with hx | hx
    · exact hmem _ (by decide) hx
    · rw [List.mem_singleton.1 hx]
      change 0x20 ≤ c.val - 0x20 ∧ c.val - 0x20 < 0x7F
      omega
  · simp at hx

lemma sampleCategory_nul : sampleCategory 0 = py "Cc" := by decide

lemma sample_surrogate (c : PyChar) (hc : c.isSurrogate = true) :
    sampleName c = [] ∧ sampleCategory c = py "Cs" := by
  have hrange : 0xD800 ≤ c.val ∧ c.val ≤ 0xDFFF := by
    simpa [PyChar.isSurrogate] using hc
  have hat : c ≠ ofChar '@' := by
    rintro rfl
    revert hrange
    decide
  have hdot : c ≠ ofChar '.' := by
    rintro rfl
    revert hrange
    decide
  constructor
  · rw [sampleName, if_neg (by omega), if_neg hat, if_neg hdot, dif_neg (by omega)]
  · rw [sampleCategory, if_neg (by omega), if_pos hc]

lemma map_lowerAsciiChar_textOk (s : PyStr) (hs : TextOk s) : TextOk (s.map lowerAsciiChar) := by
  intro x hx
  obtain ⟨c, hc, rfl⟩ := List.mem_map.1 hx
  obtain ⟨hsur, hne⟩ := hs c hc
  unfold lowerAsciiChar
  split
  · rename_i h
    refine ⟨?_, fun h0 => ?_⟩
    · simp only [PyChar.isSurrogate, Bool.and_eq_false_iff, decide_eq_false_iff_not]
      omega
    · have := congrArg Fin.val h0
      simp at this
  · exact ⟨hsur, hne⟩

/-- The character data of lower-case letters, the full stop, the at sign, U+202E, controls and
surrogates. -/
def sampleUnicode : Unicodedata where
  name := sampleName
  category := sampleCategory
  nfkc s := s
  lower s := s.map lowerAsciiChar
  name_ascii := sampleName_ascii
  category_nul := sampleCategory_nul
  surrogate := sample_surrogate
  lower_textOk := map_lowerAsciiChar_textOk

/-- A message without headers and with an empty text. -/
def blankMessage : EmailMessage where
  get _ := .ok none
  getAll _ := .ok []
  hasDefects := false
  root := .leaf
    { contentDisposition := .ok none
      filename := .ok none
      contentType := .ok (py "text/plain")
      contentCharset := .ok none }
    (.ok (some []))

/-- A resolver that is not asked. -/
def silentResolver : DnsTxtResolver := ⟨fun _ _ => .raised .other, fun _ => false⟩

/-- A library for one message without links, dates, signatures or digests: `addresses` is
read from its `From` field, and `decoded` is what its text parts decode to. -/
def sampleLibrary (message : EmailMessage) (addresses : List (PyStr × PyStr))
    (decoded : PyStr) : Library where
  unicode := sampleUnicode
  parsebytes _ := .ok message
  parseHeaders _ := .ok message
  getaddresses values := if values.length = 1 then addresses else [([], [])]
  parsedateToDatetime _ := .error .value
  decode _ _ := .ok decoded
  feed s := .ok [.data s]
  unescape s := s
  search _ _ := false
  idna _ := none
  bracketedHostOk _ := false
  sha256 _ := List.replicate 64 (ofChar '0')
  dkimConstruct _ := .ok ()
  dkimVerify _ _ := .done (.ok false)
  sha256_length _ := List.length_replicate
  sha256_hex := by
    intro b c hc
    obtain rfl := List.eq_of_mem_replicate hc
    decide
  idna_nul := by simp

end MailGate
