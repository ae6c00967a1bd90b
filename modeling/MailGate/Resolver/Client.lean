import MailGate.Mail.Authentication
import MailGate.Resolver.Handler

/-!
# The worker's side of the DKIM resolver

`HttpDnsTxtResolver` of `authentication.py`, and the route of its requests to the handler.
-/

namespace MailGate

namespace Resolver

variable {F : Type}

/-- `HttpDnsTxtResolver`: its `endpoint` as it was configured, and what it uses. -/
structure Client (F : Type) where
  lib : Library
  floats : Json.Floats F
  wide : Json.WideCodec
  endpoint : PyStr
  urlopen : UrlOpen

/-- `endpoint.rstrip("/")`. -/
def Client.base (client : Client F) : PyStr := client.endpoint.rdropWhile (· == ofChar '/')

/-- The URL of the request for a name; `none` is a `UnicodeEncodeError`. -/
def Client.url (client : Client F) (name : PyStr) : Option PyStr :=
  (urlencode [(py "name", name)]).map fun query => client.base ++ py "/resolve?" ++ query

/-- The value in a document of the resolver. -/
def valueOf : Json F → DnsAnswer
  | .object [(key, value)] =>
      if key ≠ py "value" then .resolutionError true
      else
        match value with
        | .scalar .null => .value none
        | .string encoded =>
            match Base64.b64decode encoded with
            | none => .resolutionError true
            | some txt =>
                if txt.length > maxDnsTxtBytes then .resolutionError false else .value (some txt)
        | _ => .resolutionError true
  | _ => .resolutionError true

/-- `resolve_txt`; an overlong number in the response is a `ValueError` that it does not catch. -/
def Client.resolveTxt (client : Client F) (name : PyStr) : DnsAnswer :=
  match client.url name with
  | none => .raised .value
  | some url =>
      match client.urlopen url with
      | .error .os => .resolutionError true
      | .error .value => .raised .value
      | .error .other => .raised .other
      | .ok response =>
          if response.status ≠ 200 then .resolutionError true
          else
            match Json.loadsBytes client.floats client.wide
                (response.body.take (maxDnsTxtBytes * 2)) with
            | .ok document => valueOf document
            | .error .overlong => .raised .value
            | .error _ => .resolutionError true

/-! ## The route -/

/-- `self.path` of a request: slashes at its start count as one. -/
def requestPath (target : PyStr) : PyStr :=
  if PyStr.startswith (py "//") target then ofChar '/' :: target.dropWhile (· == ofChar '/')
  else target

/-- A target that `http.client` sends. -/
def validTarget (target : PyStr) : Bool :=
  target.all fun c => decide (0x20 < c.val) && decide (c.val < 0x7F)

/-- `urlopen` where the network leads to one HTTP server, which listens at `host`.  A response
that is not a success is an `HTTPError`, and so is a connection that ends without one. -/
def urlopenTo (lib : Library) (host : PyStr) (server : PyStr → Option HttpResponse) : UrlOpen :=
  fun url =>
    match parseRequest lib url with
    | none => .error .value
    | some request =>
        if request.scheme ≠ py "http" ∨ request.host = [] ∨ request.host ≠ host then .error .os
        else if !validTarget request.selector then .error .other
        else
          match server (requestPath request.selector) with
          | none => .error .os
          | some response =>
              if 200 ≤ response.status ∧ response.status < 300 then .ok response else .error .os

/-- The worker's resolver in front of a handler that has answered the requests of `times`. -/
def connected (env : Env F) (host endpoint : PyStr) (now : Time) (times : List Time) :
    Client F where
  lib := env.lib
  floats := env.floats
  wide := env.wide
  endpoint := endpoint
  urlopen := urlopenTo env.lib host fun path => (doGet env now times path).1

end Resolver

end MailGate
