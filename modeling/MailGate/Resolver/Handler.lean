import MailGate.Models
import MailGate.Python.Base64
import MailGate.Python.Json.Bytes
import MailGate.Python.Query

/-!
# The DKIM resolver

`mailgate_dkim_resolver/__main__.py`: the process that looks up DKIM records over HTTPS and
hands them to the worker.
-/

namespace MailGate

namespace Resolver

open PyChar

/-! ## The admissible names -/

/-- `[a-z0-9]` without regard to case, which takes four letters beyond ASCII. -/
def isQueryAlnum (c : PyChar) : Bool :=
  isAlnum c || c.val == 0x130 || c.val == 0x131 || c.val == 0x17F || c.val == 0x212A

/-- The letter that a character matches without regard to case. -/
def foldQuery (c : PyChar) : PyChar :=
  if c.val = 0x130 ∨ c.val = 0x131 then ofChar 'i'
  else if c.val = 0x17F then ofChar 's'
  else if c.val = 0x212A then ofChar 'k'
  else lowerAsciiChar c

/-- `[a-z0-9_-]{1,63}`. -/
def isSelectorLabel (l : PyStr) : Bool :=
  1 ≤ l.length && l.length ≤ 63 &&
    l.all fun c => isQueryAlnum c || c == ofChar '_' || c == ofChar '-'

/-- `[a-z0-9](?:[a-z0-9-]{0,61}[a-z0-9])?`. -/
def isDomainLabel (l : PyStr) : Bool :=
  1 ≤ l.length && l.length ≤ 63 && (l.all fun c => isQueryAlnum c || c == ofChar '-') &&
    (l.head?.all isQueryAlnum) && (l.getLast?.all isQueryAlnum)

/-- `QUERY_RE.fullmatch`. -/
def matchesQuery (s : PyStr) : Bool :=
  let labels := s.splitOn (ofChar '.')
  1 ≤ s.length && s.length ≤ 253 &&
    (List.range labels.length).any fun i =>
      1 ≤ i && (labels[i]?.map (·.map foldQuery)) == some (py "_domainkey") &&
        (labels.take i).all isSelectorLabel &&
          2 ≤ (labels.drop (i + 1)).length && (labels.drop (i + 1)).all isDomainLabel

/-! ## Calls of other programs -/

/-- The classes of the exceptions that the resolver and its clients tell apart. -/
inductive CallExn where
  /-- `OSError`, which includes `URLError` and `HTTPError`. -/
  | os
  /-- `ValueError`, which includes `JSONDecodeError` and `UnicodeDecodeError`. -/
  | value
  | other
deriving DecidableEq, Repr

/-- A response with its whole body. -/
structure HttpResponse where
  status : ℕ
  body : Bytes
deriving DecidableEq, Repr

/-- `urlopen(url)`, and reading the response. -/
abbrev UrlOpen : Type := PyStr → Except CallExn HttpResponse

/-- What the resolver uses of its interpreter and of the network. -/
structure Env (F : Type) where
  lib : Library
  floats : Json.Floats F
  wide : Json.WideCodec
  /-- `self.server.doh_endpoint`. -/
  endpoint : PyStr
  urlopen : UrlOpen
  /-- `dns.rdata.from_text(IN, TXT, data).strings`; `none` is any exception. -/
  txtStrings : PyStr → Option (List Bytes)

/-- `MAX_RESPONSE_BYTES`. -/
def maxResponseBytes : ℕ := 16 * 1024

/-- `MAX_TXT_BYTES`. -/
def maxTxtBytes : ℕ := 8192

/-- `MAX_REQUESTS_PER_MINUTE`. -/
def maxRequestsPerMinute : ℕ := 120

variable {F : Type} (env : Env F)

/-! ## The answer of the DNS-over-HTTPS server -/

/-- A value that is an `int`, `bool` included. -/
def asInt : Json F → Option ℤ
  | .scalar (.int n) => some n
  | .scalar (.bool b) => some (if b then 1 else 0)
  | _ => none

/-- `answer.get("type") == 16`. -/
def isTxtType : Option (Json F) → Bool
  | some (.scalar (.int n)) => n == 16
  | some (.scalar (.float f)) => env.floats.eqInt f 16
  | _ => false

/-- What `for answer in value` goes over; a number or `None` is a `TypeError`. -/
def iterate : Json F → Except CallExn (List (Json F))
  | .array items => .ok items
  | .string s => .ok (s.map fun c => .string [c])
  | .object members => .ok (members.map fun m => .string m.1)
  | .scalar _ => .error .other

/-- One round of the loop over the answers. -/
def addRecord (records : List Bytes) : Json F → Except CallExn (List Bytes)
  | .object answer =>
      if !isTxtType env (answer.lookup (py "type")) then .ok records
      else
        match answer.lookup (py "data") with
        | some (.string data) =>
            match env.txtStrings data with
            | none => .error .os
            | some strings => .ok (records ++ [strings.flatten])
        | _ => .error .os
  | _ => .ok records

/-- The record in a document. -/
def recordOf : Json F → Except CallExn (Option Bytes)
  | .object document =>
      match (document.lookup (py "Status")).bind asInt with
      | none => .error .os
      | some status =>
          if status = 3 then .ok none
          else if status ≠ 0 then .error .os
          else do
            let answers ← iterate ((document.lookup (py "Answer")).getD (.array []))
            let records ← answers.foldlM (addRecord env) []
            match records with
            | [] => .ok none
            | [record] => if record.length > maxTxtBytes then .error .os else .ok (some record)
            | _ => .error .os
  | _ => .error .os

/-- `resolve_dkim_txt` after the check of the name. -/
def lookupTxt (normalized : PyStr) : Except CallExn (Option Bytes) :=
  match urlencode [(py "name", normalized), (py "type", py "TXT")] with
  | none => .error .value
  | some query => do
      let response ← env.urlopen (env.endpoint ++ py "?" ++ query)
      if response.status ≠ 200 then .error .os
      else
        let body := response.body.take (maxResponseBytes + 1)
        if body.length > maxResponseBytes then .error .os
        else
          match Json.loadsBytes env.floats env.wide body with
          | .error _ => .error .value
          | .ok document => recordOf env document

/-- `name.strip().lower().rstrip(".")`. -/
def normalize (name : PyStr) : PyStr :=
  (env.lib.unicode.lower (PyStr.strip name)).rdropWhile (· == ofChar '.')

/-- `resolve_dkim_txt`. -/
def resolveDkimTxt (name : PyStr) : Except CallExn (Option Bytes) :=
  if !matchesQuery (normalize env name) then .error .value else lookupTxt env (normalize env name)

/-! ## The handler -/

/-- `_rate_allowed` on `REQUEST_TIMES`. -/
def rateAllowed (now : Time) (times : List Time) : Bool × List Time :=
  let times := times.dropWhile fun t => decide (t ≤ now - Time.minute)
  if times.length ≥ maxRequestsPerMinute then (false, times) else (true, times ++ [now])

/-- `self._json`; no response is the `UnicodeEncodeError` of a text that is not ASCII. -/
def json (status : ℕ) (members : List (PyStr × Json F)) : Option HttpResponse :=
  (PyStr.encodeAscii (Json.dumps env.floats (.object members))).map (⟨status, ·⟩)

/-- The document of an error. -/
def failure (status : ℕ) (error : String) : Option HttpResponse :=
  json env status [(py "error", .string (py error))]

/-- The answer to an accepted query, from what `resolve_dkim_txt` did; an exception that the
handler does not catch ends the connection without a response. -/
def answer : Except CallExn (Option Bytes) → Option HttpResponse
  | .error .value => failure env 400 "invalid_query"
  | .error .os => failure env 503 "resolver_unavailable"
  | .error .other => none
  | .ok none => json env 200 [(py "value", .scalar .null)]
  | .ok (some value) => json env 200 [(py "value", .string (Base64.b64encode value))]

/-- `do_GET` of a target, with `REQUEST_TIMES` before and after. -/
def doGet (now : Time) (times : List Time) (path : PyStr) : Option HttpResponse × List Time :=
  match urlsplit env.lib path with
  | none => (none, times)
  | some parsed =>
      if parsed.path = py "/health" ∧ parsed.query = [] then
        (json env 200 [(py "status", .string (py "ok"))], times)
      else if parsed.path ≠ py "/resolve" ∨ path.length > 600 then
        (failure env 404 "not_found", times)
      else
        match parseQsl env.lib parsed.query with
        | some [(key, name)] =>
            if key ≠ py "name" then (failure env 400 "invalid_query", times)
            else
              match rateAllowed now times with
              | (false, times) => (failure env 429 "rate_limited", times)
              | (true, times) => (answer env (resolveDkimTxt env name), times)
        | _ => (failure env 400 "invalid_query", times)

end Resolver

end MailGate
