import Mathlib.Data.List.Infix
import MailGate.Lib.Exceptions
import MailGate.Python.Newlines
import MailGate.Translations.Compile

/-!
# Reading a message catalogue

`read_catalog` goes over the lines of a PO file.  It keeps the texts of the entry that it is in,
whether that entry is fuzzy, and whether a line with the flag came after it.
-/

namespace MailGate

namespace Catalog

def empty : Catalog := ⟨[], List.nodup_nil⟩

/-- `messages[key] = value`. -/
def set (messages : Catalog) (key value : PyStr) : Catalog :=
  ⟨Dict.set messages.entries key value, Dict.nodup_set messages.nodup⟩

end Catalog

namespace Translations

open PyStr

/-! ## Placeholders -/

/-- `[a-zA-Z]`. -/
def isLetter (c : PyChar) : Bool := PyChar.isAlnum c && !PyChar.isDigit c

/-- The match of `%\([^)]+\)[a-zA-Z]` at the start of a text. -/
def matchNamed : PyStr → Option PyStr
  | percent :: paren :: rest =>
      let name := rest.takeWhile (· ≠ ofChar ')')
      match rest.dropWhile (· ≠ ofChar ')') with
      | _ :: letter :: _ =>
          if percent = ofChar '%' ∧ paren = ofChar '(' ∧ name ≠ [] ∧ isLetter letter then
            some (percent :: paren :: name ++ [ofChar ')', letter])
          else none
      | _ => none
  | _ => none

/-- The match of the other alternative, a name in braces, at the start of a text. -/
def matchBraces : PyStr → Option PyStr
  | brace :: first :: rest =>
      let name := rest.takeWhile fun c => PyChar.isAlnum c || c == ofChar '_'
      if brace.val = 0x7B ∧ (isLetter first ∨ first = ofChar '_') ∧
          (rest.drop name.length).head?.any (·.val == 0x7D) then
        some (brace :: first :: name ++ [0x7D])
      else none
  | _ => none

/-- `PLACEHOLDER_RE.findall` of a text whose first `skip` characters belong to a match. -/
def findPlaceholders : (skip : ℕ) → PyStr → List PyStr
  | _, [] => []
  | skip + 1, _ :: s => findPlaceholders skip s
  | 0, c :: s =>
      match (matchNamed (c :: s)).or (matchBraces (c :: s)) with
      | some found => found :: findPlaceholders (found.length - 1) s
      | none => findPlaceholders 0 s

/-- `_placeholders`, a set. -/
def placeholders (value : PyStr) : List PyStr := findPlaceholders 0 value

/-- `_placeholders(key) == _placeholders(value)`. -/
def SamePlaceholders (key value : PyStr) : Prop :=
  placeholders key ⊆ placeholders value ∧ placeholders value ⊆ placeholders key

instance (key value : PyStr) : Decidable (SamePlaceholders key value) :=
  inferInstanceAs (Decidable (_ ∧ _))

/-! ## Lines -/

/-- A value that `ast.literal_eval` returns. -/
inductive Literal where
  | str (s : PyStr)
  | other
deriving DecidableEq, Repr

/-- The literals of Python. -/
structure Literals where
  /-- `ast.literal_eval`; `none` is an exception. -/
  eval : PyStr → Option Literal
  /-- `repr` of a text. -/
  repr : PyStr → PyStr

/-- The exceptions of `read_catalog`. -/
inductive CatalogError where
  | unicodeDecode
  /-- An exception of `ast.literal_eval`. -/
  | literal
  | valueError (text : PyStr)
deriving DecidableEq, Repr

/-- Which text a line in quotes belongs to. -/
inductive Section where
  | none
  | msgid
  | msgstr
deriving DecidableEq, Repr

/-- The variables of `read_catalog`. -/
structure Reader where
  messages : Catalog
  msgid : Option (List PyStr)
  msgstr : Option (List PyStr)
  «section» : Section
  fuzzy : Bool
  pendingFuzzy : Bool

variable (literals : Literals) (path : PyStr)

/-- `_quoted`. -/
def quoted (value : PyStr) : Except CatalogError PyStr :=
  match literals.eval value with
  | none => .error .literal
  | some .other => .error (.valueError (py "PO value must be a quoted string"))
  | some (.str parsed) => .ok parsed

namespace Reader

/-- No entry has been read since the last commit. -/
def idle (messages : Catalog) (pendingFuzzy : Bool) : Reader :=
  ⟨messages, none, none, .none, false, pendingFuzzy⟩

/-- The messages with the entry that has been read, if it counts. -/
def committed (st : Reader) : Except CatalogError Catalog :=
  match st.msgid, st.msgstr with
  | some msgid, some msgstr =>
      if st.fuzzy then .ok st.messages
      else
        let key := msgid.flatten
        let value := msgstr.flatten
        if key ≠ [] ∧ value ≠ [] ∧ ¬SamePlaceholders key value then
          .error (.valueError (py "Placeholder mismatch for " ++ literals.repr key ++ py " in " ++
            path))
        else if key = [] ∨ value ≠ [] then .ok (st.messages.set key value)
        else .ok st.messages
  | _, _ => .ok st.messages

/-- `commit`. -/
def commit (st : Reader) : Except CatalogError Reader := do
  let messages ← st.committed literals path
  return idle messages st.pendingFuzzy

/-- The branch for a line in quotes. -/
def readQuoted (st : Reader) (line : PyStr) : Except CatalogError Reader :=
  match st.section, st.msgid, st.msgstr with
  | .msgid, some msgid, _ => do
      let piece ← quoted literals line
      return { st with msgid := some (msgid ++ [piece]) }
  | .msgstr, _, some msgstr => do
      let piece ← quoted literals line
      return { st with msgstr := some (msgstr ++ [piece]) }
  | _, _, _ => .ok st

/-- One round of the loop. -/
def readLine (st : Reader) (rawLine : PyStr) : Except CatalogError Reader :=
  let line := strip rawLine
  if startswith (py "#,") line ∧ contains (py "fuzzy") line then
    .ok { st with pendingFuzzy := true }
  else if startswith (py "msgctxt ") line ∨ startswith (py "msgid_plural ") line then
    .error (.valueError (py "Unsupported plural/context entry in " ++ path))
  else if startswith (py "msgid ") line then do
    let st ← st.commit literals path
    let piece ← quoted literals (line.drop 6)
    return { st with
      fuzzy := st.pendingFuzzy
      pendingFuzzy := false
      msgid := some [piece]
      msgstr := some []
      «section» := .msgid }
  else if startswith (py "msgstr ") line then
    if st.msgid = none then .error (.valueError (py "msgstr without msgid in " ++ path))
    else do
      let piece ← quoted literals (line.drop 7)
      return { st with msgstr := some [piece], «section» := .msgstr }
  else if startswith (py "\"") line then st.readQuoted literals line
  else if line = [] then st.commit literals path
  else .ok st

end Reader

/-- `path.read_text(encoding="utf-8").splitlines()` of a file with this content. -/
def readLines (content : Bytes) : Option (List PyStr) :=
  (Bytes.decodeUtf8 false content).map fun text => splitlines (universalNewlines text)

/-- `read_catalog`. -/
def readCatalog (content : Bytes) : Except CatalogError Catalog :=
  match readLines content with
  | none => .error .unicodeDecode
  | some lines => do
      let st ← lines.foldlM (Reader.readLine literals path) (Reader.idle .empty false)
      let st ← st.commit literals path
      return st.messages

/-! ## What a line does -/

namespace Reader

variable {literals path} {st : Reader} {messages : Catalog} {raw text value : PyStr}

/-- A line that starts with `#` leaves the entry as it is. -/
lemma readLine_hash (h : startswith (py "#") (strip raw)) : readLine literals path st raw =
    .ok { st with pendingFuzzy := st.pendingFuzzy ||
      (startswith (py "#,") (strip raw) && contains (py "fuzzy") (strip raw)) } := by
  obtain ⟨rest, hline⟩ := List.isPrefixOf_iff_prefix.1 h
  rw [readLine]
  by_cases hflag : startswith (py "#,") (strip raw) ∧ contains (py "fuzzy") (strip raw)
  · rw [if_pos hflag, hflag.1, hflag.2, Bool.true_and, Bool.or_true]
  · have hpending : (startswith (py "#,") (strip raw) && contains (py "fuzzy") (strip raw)) =
        false := by
      rwa [← Bool.not_eq_true, Bool.and_eq_true]
    rw [if_neg hflag, hpending, Bool.or_false, ← hline]
    rfl

/-- A blank line ends the entry. -/
lemma readLine_blank (h : strip raw = []) :
    readLine literals path st raw = st.commit literals path := by
  rw [readLine, h]
  rfl

/-- The first line of an entry. -/
lemma readLine_msgid (h : strip raw = py "msgid " ++ text)
    (htext : literals.eval text = some (.str value)) {messages : Catalog}
    (hcommit : st.committed literals path = .ok messages) : readLine literals path st raw =
    .ok ⟨messages, some [value], some [], .msgid, st.pendingFuzzy, false⟩ := by
  rw [readLine, h, commit, hcommit]
  show (do let piece ← quoted literals text; _) = _
  rw [quoted, htext]
  rfl

lemma readLine_msgstr (h : strip raw = py "msgstr " ++ text)
    (htext : literals.eval text = some (.str value)) {msgid : List PyStr}
    (hmsgid : st.msgid = some msgid) : readLine literals path st raw =
    .ok { st with msgstr := some [value], «section» := .msgstr } := by
  rw [readLine, h, hmsgid]
  show (do let piece ← quoted literals text; _) = _
  rw [quoted, htext]
  rfl

/-- A line in quotes goes on with the text that was read last. -/
lemma readLine_quoted (h : startswith (py "\"") (strip raw)) :
    readLine literals path st raw = st.readQuoted literals (strip raw) := by
  obtain ⟨rest, hline⟩ := List.isPrefixOf_iff_prefix.1 h
  rw [readLine, ← hline]
  rfl

lemma readQuoted_msgid (htext : literals.eval text = some (.str value)) {msgid : List PyStr}
    (hsection : st.section = .msgid) (hmsgid : st.msgid = some msgid) :
    st.readQuoted literals text = .ok { st with msgid := some (msgid ++ [value]) } := by
  rw [readQuoted, hsection, hmsgid]
  show (quoted literals text >>= _) = _
  rw [quoted, htext]
  rfl

lemma readQuoted_msgstr (htext : literals.eval text = some (.str value)) {msgstr : List PyStr}
    (hsection : st.section = .msgstr) (hmsgstr : st.msgstr = some msgstr) :
    st.readQuoted literals text = .ok { st with msgstr := some (msgstr ++ [value]) } := by
  rw [readQuoted, hsection, hmsgstr]
  show (quoted literals text >>= _) = _
  rw [quoted, htext]
  rfl

end Reader

end Translations

end MailGate
