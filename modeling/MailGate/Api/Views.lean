import Mathlib.Order.WithBot
import MailGate.Api.Authorize
import MailGate.Lib.TotalOrder
import MailGate.Python.Bytes

/-!
# The views of the agent API

`api.py`: the decorator `token_required` and the three endpoints, which read the view of the
approved messages.
-/

namespace MailGate

/-- What the API process takes from outside the repository. -/
structure ApiEnv where
  /-- `hashlib.sha256(b).hexdigest()`. -/
  sha256 : Bytes → PyStr
  /-- `datetime.isoformat()`. -/
  isoformat : Time → PyStr
  /-- The value of a decimal digit, for `int`. -/
  decimal : PyChar → Option ℕ
  /-- The collation of the database. -/
  collation : TotalOrder PyStr
  /-- The order in which the database returns rows with equal dates. -/
  tieBreak : TotalOrder ApprovedMessage

/-! ## Requests and responses -/

/-- The routes of `api_urls.py`, with their query parameters. -/
inductive Endpoint where
  | messages (state limit : Option PyStr)
  | messageSummary (messageId : Uuid)
  | categories
deriving DecidableEq, Repr

/-- `request.path`. -/
def Endpoint.path : Endpoint → PyStr
  | messages _ _ => py "/api/v1/messages"
  | messageSummary messageId => py "/api/v1/messages/" ++ messageId.str ++ py "/summary"
  | categories => py "/api/v1/categories"

/-- A request; `now` is the reading of the clock in the database. -/
structure ApiRequest where
  method : PyStr
  /-- The header `Authorization`, or the empty text. -/
  authorization : PyStr
  endpoint : Endpoint
  now : Time
deriving DecidableEq, Repr

/-- What `_message_json` builds; the text and the links stand in details only. -/
structure MessageJson where
  id : PyStr
  sender : PyStr
  senderName : PyStr
  subject : PyStr
  receivedAt : Option PyStr
  category : PyStr
  priority : ℕ
  risk : PyStr
  summary : PyStr
  detail : Option (PyStr × List PyStr)
deriving DecidableEq, Repr

/-- The JSON object of a response. -/
inductive ApiBody where
  | error (code : PyStr)
  | messages (items : List MessageJson) (limit : ℤ)
  | message (item : MessageJson)
  | categories (items : List (PyStr × ℕ))
deriving DecidableEq, Repr

/-- A response with the headers that the view sets. -/
structure ApiResponse where
  status : ℕ
  body : ApiBody
  headers : List (PyStr × PyStr) := []
deriving DecidableEq, Repr

/-- `_error`. -/
def apiError (status : ℕ) (code : PyStr) : ApiResponse := { status, body := .error code }

/-- An exception that no handler of the application expects. -/
def serverError : ApiResponse := apiError 500 (py "server_error")

/-! ## Views -/

/-- `int(s)`; `none` is the `ValueError`. -/
def parseInt (decimal : PyChar → Option ℕ) (s : PyStr) : Option ℤ :=
  let (negative, body) : Bool × PyStr :=
    match PyStr.strip s with
    | c :: rest =>
      if c = ofChar '-' then (true, rest)
      else if c = ofChar '+' then (false, rest)
      else (false, c :: rest)
    | [] => (false, [])
  -- single underscores may stand between digits
  let groups := body.splitOn (ofChar '_')
  if [] ∈ groups then none
  else do
    let digits ← groups.flatten.mapM decimal
    if digits.length > Bytes.maxIntDigits then none
    else
      let n : ℤ := digits.foldl (fun acc d => 10 * acc + d) 0
      return if negative then -n else n

/-- `_message_json`. -/
def messageJson (env : ApiEnv) (item : ApprovedMessage) (detail : Bool := false) : MessageJson where
  id := item.id.str
  sender := item.sender
  senderName := item.senderName
  subject := item.subject
  receivedAt := item.receivedAt.map env.isoformat
  category := item.category
  priority := item.priority
  risk := item.risk
  summary := item.summary
  detail := if detail then some (item.sanitizedText, item.links) else none

/-- `ORDER BY received_at DESC, ingested_at DESC`; a missing date counts as the largest. -/
def newestFirst (env : ApiEnv) : TotalOrder ApprovedMessage :=
  (env.tieBreak.byKey fun m => OrderDual.toDual m.ingestedAt).byKey fun m =>
    OrderDual.toDual (match m.receivedAt with
      | none => (⊤ : WithTop ℤ)
      | some time => (time : WithTop ℤ))

/-- `messages`. -/
def apiMessages (env : ApiEnv) (state limit : Option PyStr) (db : Db) : ApiResponse :=
  if state.getD (py "approved") ≠ py "approved" then
    apiError 400 (py "only_approved_state_is_available")
  else
    match parseInt env.decimal (limit.getD (py "50")) with
    | none => apiError 400 (py "invalid_limit")
    | some n =>
      let limit := min (max n 1) 100
      let rows := ((newestFirst env).sort db.approvedMessages).take limit.toNat
      { status := 200, body := .messages (rows.map fun item => messageJson env item) limit }

/-- `message_summary`. -/
def apiMessageSummary (env : ApiEnv) (messageId : Uuid) (db : Db) : ApiResponse :=
  match db.approvedMessages.filter (·.id = messageId) with
  | [] => apiError 404 (py "not_found")
  | [item] => { status := 200, body := .message (messageJson env item true) }
  | _ => serverError

/-- `categories`. -/
def apiCategories (env : ApiEnv) (db : Db) : ApiResponse :=
  let names := env.collation.sort (db.approvedMessages.map (·.category)).dedup
  { status := 200
    body := .categories (names.map fun name =>
      (name, db.approvedMessages.countP fun item => item.category = name)) }

/-- The view behind an endpoint. -/
def Endpoint.view (env : ApiEnv) : Endpoint → Db → ApiResponse
  | messages state limit => apiMessages env state limit
  | messageSummary messageId => apiMessageSummary env messageId
  | categories => apiCategories env

/-- `token_required` around the view of the endpoint. -/
def serve (env : ApiEnv) (request : ApiRequest) (db : Db) : ApiResponse × Db :=
  let header := request.authorization
  if request.method ≠ py "GET" then (apiError 405 (py "method_not_allowed"), db)
  else if ¬ PyStr.startswith (py "Bearer ") header ∨ header.length > 256 then
    (apiError 401 (py "unauthorized"), db)
  else
    match PyStr.encode (header.drop 7) with
    | none => (serverError, db)
    | some raw =>
      match mailgateApiAuthorize (env.sha256 raw) request.endpoint.path request.now db with
      | (.rateLimited, db) =>
        ({ apiError 429 (py "rate_limited") with headers := [(py "Retry-After", py "60")] }, db)
      | (.unauthorized, db) => (apiError 401 (py "unauthorized"), db)
      | (.authorized, db) =>
        ({ request.endpoint.view env db with headers := [(py "Cache-Control", py "no-store")] }, db)

/-- The responses to a sequence of requests, and the database after them. -/
def serveAll (env : ApiEnv) : List ApiRequest → Db → List ApiResponse × Db
  | [], db => ([], db)
  | request :: requests, db =>
      let (response, db) := serve env request db
      let (responses, db) := serveAll env requests db
      (response :: responses, db)

end MailGate
