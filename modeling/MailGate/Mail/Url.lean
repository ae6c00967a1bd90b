import MailGate.Python.Bytes
import MailGate.Python.Library

/-!
# Links of a message text

The pattern that finds links, `urllib.parse.urlsplit` and `urlunsplit` as far as
`_normalise_url` uses them, and `_normalise_url`.
-/

namespace MailGate

namespace PyStr

/-- `s.partition(c)[0]`. -/
def before (c : PyChar) (s : PyStr) : PyStr := s.takeWhile (· ≠ c)

/-- `s.partition(c)[2]`. -/
def after (c : PyChar) (s : PyStr) : PyStr := (s.dropWhile (· ≠ c)).drop 1

/-- `s.rpartition(c)[2]`. -/
def afterLast (c : PyChar) (s : PyStr) : PyStr := (s.reverse.takeWhile (· ≠ c)).reverse

/-- `s.lower()` of an ASCII text. -/
def lowerAscii (s : PyStr) : PyStr :=
  s.map fun c => if h : 0x41 ≤ c.val ∧ c.val ≤ 0x5A then ⟨c.val + 0x20, PyChar.val_add_lt h⟩ else c

end PyStr

open PyStr

/-! ## Splitting a URL -/

/-- `SplitResult`. -/
structure SplitResult where
  scheme : PyStr
  netloc : PyStr
  path : PyStr
  query : PyStr
  fragment : PyStr
deriving DecidableEq, Repr

/-- The letters of `scheme_chars`. -/
def isAsciiAlpha (c : PyChar) : Bool :=
  (0x41 ≤ c.val && c.val ≤ 0x5A) || (0x61 ≤ c.val && c.val ≤ 0x7A)

/-- `scheme_chars`. -/
def isSchemeChar (c : PyChar) : Bool := isAsciiAlpha c || c.isDigit || c ∈ py "+-."

/-- The scheme and what follows it. -/
def splitScheme (url : PyStr) : PyStr × PyStr :=
  let head := before (ofChar ':') url
  if ofChar ':' ∈ url ∧ head.head?.any isAsciiAlpha ∧ head.all isSchemeChar then
    (lowerAscii head, after (ofChar ':') url)
  else ([], url)

/-- The network location after `//`, and what follows it. -/
def splitNetloc (url : PyStr) : PyStr × PyStr :=
  if url.take 2 = py "//" then
    ((url.drop 2).takeWhile (· ∉ py "/?#"), (url.drop 2).dropWhile (· ∉ py "/?#"))
  else ([], url)

/-- The text before the first `c` and the text after it. -/
def cutAt (c : PyChar) (url : PyStr) : PyStr × PyStr :=
  if c ∈ url then (before c url, after c url) else (url, [])

section

variable (lib : Library)

/-- The bracket check of `urlsplit`. -/
def bracketsOk (netloc : PyStr) : Bool :=
  let opened := decide (ofChar '[' ∈ netloc)
  let closed := decide (ofChar ']' ∈ netloc)
  if opened && closed then
    lib.bracketedHostOk (before (ofChar ']') (after (ofChar '[') netloc))
  else !opened && !closed

/-- `_checknetloc`: no character may turn into a delimiter under NFKC. -/
def checkNetloc (netloc : PyStr) : Bool :=
  let n := netloc.filter (· ∉ py "@:#?")
  netloc.all (·.val < 0x80) || n == lib.unicode.nfkc n ||
    (py "/?#@:").all (· ∉ lib.unicode.nfkc n)

/-- `urlsplit`; `none` is its `ValueError`. -/
def urlsplit (url : PyStr) : Option SplitResult :=
  let url := (url.dropWhile (·.val ≤ 0x20)).filter (· ∉ py "\t\r\n")
  let (scheme, url) := splitScheme url
  let (netloc, url) := splitNetloc url
  if !bracketsOk lib netloc then none
  else
    let (url, fragment) := cutAt (ofChar '#') url
    let (path, query) := cutAt (ofChar '?') url
    if !checkNetloc lib netloc then none
    else some { scheme, netloc, path, query, fragment }

/-- `_hostinfo`: the host and the text of the port. -/
def hostinfo (netloc : PyStr) : PyStr × PyStr :=
  let host := afterLast (ofChar '@') netloc
  if ofChar '[' ∈ host then
    let bracketed := after (ofChar '[') host
    (before (ofChar ']') bracketed, after (ofChar ':') (after (ofChar ']') bracketed))
  else (before (ofChar ':') host, after (ofChar ':') host)

/-- `parts.hostname`, empty where it is `None`; a zone is not lowered. -/
def hostname (parts : SplitResult) : PyStr :=
  let host := (hostinfo parts.netloc).1
  lib.unicode.lower (before (ofChar '%') host) ++ host.dropWhile (· ≠ ofChar '%')

/-- `parts.port`, where the first level is the `ValueError`. -/
def port (parts : SplitResult) : Option (Option ℕ) :=
  let text := (hostinfo parts.netloc).2
  if text = [] then some none
  else if text.all PyChar.isDigit ∧ text.length ≤ Bytes.maxIntDigits then
    let n := text.foldl (fun n c => 10 * n + (c.val - 0x30)) 0
    if n ≤ 65535 then some (some n) else none
  else none

/-- `urlunsplit` without a fragment, for a scheme that uses a network location. -/
def urlunsplit (scheme netloc path query : PyStr) : PyStr :=
  let url :=
    if netloc ≠ [] then
      py "//" ++ netloc ++ (if path ≠ [] ∧ path.head? ≠ some (ofChar '/') then py "/" else []) ++
        path
    else if path = [] ∨ path.head? = some (ofChar '/') then py "//" ++ path
    else path
  scheme ++ py ":" ++ url ++ (if query ≠ [] then py "?" ++ query else [])

/-- The encoded host, in lower case; `none` is a `UnicodeError`. -/
def encodeHost (host : PyStr) : Option PyStr :=
  match lib.idna host with
  | none => none
  | some b =>
      if b.all (· < 0x80) then
        some (b.map fun x => ofChar (Char.ofNat (Bytes.lower x).toNat))
      else none

/-- The text of a port in a normalised link. -/
def portText : Option ℕ → PyStr
  | some (n + 1) => py ":" ++ PyStr.ofNat (n + 1)
  | _ => []

/-- `_normalise_url`. -/
def normaliseUrl (value : PyStr) : Option PyStr := do
  let parts ← urlsplit lib (value.rdropWhile (· ∈ py ".,;:!?)"))
  if parts.scheme ∉ [py "http", py "https"] ∨ hostname lib parts = [] then none
  else
    let host ← encodeHost lib (hostname lib parts)
    let port ← port parts
    let netloc :=
      host ++ match port with
        | some (n + 1) => py ":" ++ PyStr.ofNat (n + 1)
        | _ => []
    return (urlunsplit parts.scheme netloc parts.path parts.query).take 2048

end

/-! ## Finding links -/

/-- `[^\s<>\]\[\"']`. -/
def isUrlChar (c : PyChar) : Bool := !c.isSpace && c ∉ py "<>][\"'"

/-- `URL_RE` matched at the start of the text.  Without regard to case, `s` also stands for
the long s. -/
def matchUrl (s : PyStr) : Option PyStr :=
  if lowerAscii (s.take 4) = py "http" then
    let rest := s.drop 4
    let scheme := 4 + (rest.takeWhile fun c => c ∈ py "sS" || c.val == 0x17F).length.min 1
    if (s.drop scheme).take 3 = py "://" then
      let body := (s.drop (scheme + 3)).takeWhile isUrlChar
      if body = [] then none else some (s.take (scheme + 3) ++ body)
    else none
  else none

/-- `URL_RE.findall(s)`, where the first `skip` characters belong to the match before. -/
def findUrls : ℕ → PyStr → List PyStr
  | _, [] => []
  | skip + 1, _ :: cs => findUrls skip cs
  | 0, c :: cs =>
      match matchUrl (c :: cs) with
      | some url => url :: findUrls (url.length - 1) cs
      | none => findUrls 0 cs

end MailGate
