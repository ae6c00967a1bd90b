import MailGate.Mail.Names
import MailGate.Resolver.Client

/-!
# Worker and resolver agree on the wire

Every name that `_DnsBudget.lookup` lets through is a name for which the handler accepts the
request of `HttpDnsTxtResolver`, and the value that the resolver found arrives unchanged.
-/

namespace MailGate

namespace Resolver

open PyChar PyStr

/-! ## The names that the worker lets through -/

/-- A character of an admissible name. -/
def IsNameChar (c : PyChar) : Prop :=
  isAlnum c = true ∨ c = ofChar '_' ∨ c = ofChar '-' ∨ c = ofChar '.'

lemma isSelectorLabel_char {l : PyStr} (h : MailGate.isSelectorLabel l = true) {c : PyChar}
    (hc : c ∈ l) : IsNameChar c := by
  simp only [MailGate.isSelectorLabel, Bool.and_eq_true, List.all_eq_true, Bool.or_eq_true,
    beq_iff_eq] at h
  rcases h.2 c hc with (h | h) | h
  · exact .inl h
  · exact .inr (.inl h)
  · exact .inr (.inr (.inl h))

lemma isDomainLabel_char {l : PyStr} (h : MailGate.isDomainLabel l = true) {c : PyChar}
    (hc : c ∈ l) : IsNameChar c := by
  simp only [MailGate.isDomainLabel, Bool.and_eq_true, List.all_eq_true, Bool.or_eq_true,
    beq_iff_eq] at h
  rcases h.1.1.2 c hc with h | h
  · exact .inl h
  · exact .inr (.inr (.inl h))

lemma marker_char {c : PyChar} (hc : c ∈ py "_domainkey") : IsNameChar c := by
  have hall : ((py "_domainkey").all fun c => isAlnum c || c == ofChar '_') = true := by decide
  have h := List.all_eq_true.1 hall c hc
  simp only [Bool.or_eq_true, beq_iff_eq] at h
  rcases h with h | h
  · exact .inl h
  · exact .inr (.inl h)

lemma matchesDkimQuery_chars {s : PyStr} (hdot : s.getLast? ≠ some (ofChar '.'))
    (h : matchesDkimQuery s = true) : ∀ c ∈ s, IsNameChar c := by
  obtain ⟨-, i, -, hmarker, hselector, -, hdomain⟩ := matchesDkimQuery_spec hdot h
  exact forall_mem_of_labels (.inr (.inr (.inr rfl))) hmarker (fun c hc => marker_char hc)
    (fun l hl c hc => isSelectorLabel_char (hselector l hl) hc)
    (fun l hl c hc => isDomainLabel_char (hdomain l hl) hc)

/-! ## The resolver's pattern takes them too -/

lemma isQueryAlnum_of_isAlnum {c : PyChar} (h : isAlnum c = true) : isQueryAlnum c = true := by
  simp [isQueryAlnum, h]

lemma isSelectorLabel_query {l : PyStr} (h : MailGate.isSelectorLabel l = true) :
    isSelectorLabel l = true := by
  simp only [MailGate.isSelectorLabel, isSelectorLabel, Bool.and_eq_true, List.all_eq_true,
    Bool.or_eq_true] at h ⊢
  refine ⟨h.1, fun c hc => ?_⟩
  rcases h.2 c hc with (h | h) | h
  · exact .inl (.inl (isQueryAlnum_of_isAlnum h))
  · exact .inl (.inr h)
  · exact .inr h

lemma isDomainLabel_query {l : PyStr} (h : MailGate.isDomainLabel l = true) :
    isDomainLabel l = true := by
  have hend : ∀ o : Option PyChar, o.all isAlnum = true → o.all isQueryAlnum = true := by
    rintro (_ | c) ho
    · rfl
    · exact isQueryAlnum_of_isAlnum ho
  simp only [MailGate.isDomainLabel, isDomainLabel, Bool.and_eq_true, List.all_eq_true,
    Bool.or_eq_true] at h ⊢
  obtain ⟨⟨⟨hlength, hchars⟩, hhead⟩, hlast⟩ := h
  refine ⟨⟨⟨hlength, fun c hc => ?_⟩, hend _ hhead⟩, hend _ hlast⟩
  exact (hchars c hc).imp isQueryAlnum_of_isAlnum id

lemma matchesQuery_of_matchesDkimQuery {s : PyStr} (hdot : s.getLast? ≠ some (ofChar '.'))
    (h : matchesDkimQuery s = true) : matchesQuery s = true := by
  obtain ⟨hlength, i, hi, hmarker, hselector, htwo, hdomain⟩ := matchesDkimQuery_spec hdot h
  have hlt : i < (s.splitOn (ofChar '.')).length := (List.getElem?_eq_some_iff.1 hmarker).1
  have hfold : (py "_domainkey").map foldQuery = py "_domainkey" := by decide
  simp only [matchesQuery, Bool.and_eq_true, decide_eq_true_eq, List.any_eq_true, List.mem_range,
    List.all_eq_true, beq_iff_eq]
  refine ⟨hlength, i, hlt, ⟨⟨⟨hi, ?_⟩, ?_⟩, htwo⟩, ?_⟩
  · rw [hmarker, Option.map_some, hfold]
  · exact fun l hl => isSelectorLabel_query (hselector l hl)
  · exact fun l hl => isDomainLabel_query (hdomain l hl)

/-! ## The name on its way -/

lemma IsNameChar.safe {c : PyChar} (h : IsNameChar c) : isAlwaysSafe c = true := by
  rcases h with h | rfl | rfl | rfl
  · simp [isAlwaysSafe, h]
  · decide
  · decide
  · decide

lemma not_space_of_alwaysSafe {c : PyChar} (h : isAlwaysSafe c = true) : isSpace c = false := by
  have hother : ((py "_.-~").all fun c => !isSpace c) = true := by decide
  simp only [isAlwaysSafe, isAlnum, isDigit, Bool.or_eq_true, Bool.and_eq_true,
    decide_eq_true_eq] at h
  rcases h with h | h
  · simp only [isSpace, Bool.or_eq_false_iff, Bool.and_eq_false_iff, decide_eq_false_iff_not,
      beq_eq_false_iff_ne]
    omega
  · simpa using List.all_eq_true.1 hother c h

lemma printable_of_alwaysSafe {c : PyChar} (h : isAlwaysSafe c = true) :
    (decide (0x20 < c.val) && decide (c.val < 0x7F)) = true := by
  have hother :
      ((py "_.-~").all fun c => decide (0x20 < c.val) && decide (c.val < 0x7F)) = true := by
    decide
  simp only [isAlwaysSafe, isAlnum, isDigit, Bool.or_eq_true, Bool.and_eq_true,
    decide_eq_true_eq] at h
  rcases h with h | h
  · simp only [Bool.and_eq_true, decide_eq_true_eq]
    omega
  · exact List.all_eq_true.1 hother c h

section

variable {F : Type} {env : Env F}
  (hlower : ∀ s : PyStr, (∀ c ∈ s, c.val < 0x80) →
    env.lib.unicode.lower s = s.map lowerAsciiChar)
  {name : Bytes} {decoded : PyStr} (hname : decodeName name = some decoded)
  (hquery : matchesDkimQuery decoded = true)

include hname hquery in
lemma decoded_safe : ∀ c ∈ decoded, isAlwaysSafe c = true := fun c hc =>
  (matchesDkimQuery_chars (getLast?_ne_dot hname) hquery c hc).safe

include hlower hname hquery in
/-- The resolver does not change a name that the worker has decoded. -/
lemma normalize_decoded : normalize env decoded = decoded := by
  have hsafe := decoded_safe hname hquery
  obtain ⟨hchars, hdrop⟩ := decodeName_spec hname
  have hid : ∀ c ∈ decoded, lowerAsciiChar c = c := by
    intro c hc
    rw [lowerAsciiChar, dif_neg (hchars c hc).2]
  rw [normalize, strip_eq_self (fun c hc => not_space_of_alwaysSafe (hsafe c hc)),
    hlower _ (fun c hc => (hchars c hc).1), List.map_congr_left hid, List.map_id', hdrop]

include hlower hname hquery in
lemma resolveDkimTxt_decoded : resolveDkimTxt env decoded = lookupTxt env decoded := by
  rw [resolveDkimTxt, normalize_decoded hlower hname hquery,
    matchesQuery_of_matchesDkimQuery (getLast?_ne_dot hname) hquery]
  rfl

/-! ## The request -/

/-- The target of the request for a name. -/
def target (decoded : PyStr) : PyStr :=
  py "/resolve" ++ ofChar '?' :: (py "name" ++ ofChar '=' :: decoded)

lemma target_chars (hsafe : ∀ c ∈ decoded, isAlwaysSafe c = true) :
    ∀ c ∈ target decoded, isAlwaysSafe c = true ∨ c ∈ py "/?=" := by
  have hall :
      ((py "/resolve?name=").all fun c => isAlwaysSafe c || decide (c ∈ py "/?=")) = true := by
    decide
  intro c hc
  have hsplit : target decoded = py "/resolve?name=" ++ decoded := by
    have hleading : py "/resolve?name=" =
        py "/resolve" ++ ofChar '?' :: (py "name" ++ [ofChar '=']) := by
      decide
    rw [target, hleading]
    simp
  rw [hsplit, List.mem_append] at hc
  rcases hc with hc | hc
  · simpa using List.all_eq_true.1 hall c hc
  · exact .inl (hsafe c hc)

/-- What `urlsplit` makes of the target. -/
lemma urlsplit_target (lib : Library) (hsafe : ∀ c ∈ decoded, isAlwaysSafe c = true) :
    urlsplit lib (target decoded) = some {
      scheme := [], netloc := [], path := py "/resolve",
      query := py "name" ++ ofChar '=' :: decoded, fragment := [] } := by
  have hchars := target_chars hsafe
  have hnot : ∀ d : PyChar, isAlwaysSafe d = false → d ∉ py "/?=" → d ∉ target decoded := by
    intro d hd hother hmem
    rcases hchars d hmem with h | h
    · simp [hd] at h
    · exact hother h
  have hstart : (target decoded).dropWhile (·.val ≤ 0x20) = target decoded := rfl
  have hfilter : (target decoded).filter (· ∉ py "\t\r\n") = target decoded := by
    rw [List.filter_eq_self]
    intro c hc
    have hall : ((py "\t\r\n").all fun d => !isAlwaysSafe d && decide (d ∉ py "/?=")) = true := by
      decide
    by_contra hcontra
    have hmem : c ∈ py "\t\r\n" := by simpa using hcontra
    have hd := List.all_eq_true.1 hall c hmem
    simp only [Bool.and_eq_true, Bool.not_eq_true', decide_eq_true_eq] at hd
    exact hnot c hd.1 hd.2 hc
  have hcolon : ofChar ':' ∉ target decoded := hnot _ (by decide) (by decide)
  have hhash : ofChar '#' ∉ target decoded := hnot _ (by decide) (by decide)
  have hscheme : splitScheme (target decoded) = ([], target decoded) := by
    rw [splitScheme, if_neg (fun h => hcolon h.1)]
  have hnetloc : splitNetloc (target decoded) = ([], target decoded) := by
    have hne : (target decoded).take 2 ≠ py "//" := by
      show py "/r" ≠ py "//"
      decide
    rw [splitNetloc, if_neg hne]
  have hfragment : cutAt (ofChar '#') (target decoded) = (target decoded, []) := by
    rw [cutAt, if_neg hhash]
  have hquestion : cutAt (ofChar '?') (target decoded) =
      (py "/resolve", py "name" ++ ofChar '=' :: decoded) := by
    have hpath : ofChar '?' ∉ py "/resolve" := by decide
    rw [cutAt, if_pos (by simp [target]), target, before_append hpath, after_append hpath]
  simp only [urlsplit, hstart, hfilter, hscheme, hnetloc, hfragment, hquestion]
  rfl

include hlower hname hquery in
/-- The handler accepts the request of the worker. -/
lemma doGet_target (now : Time) (times : List Time) :
    (doGet env now times (target decoded)).1 =
      if (rateAllowed now times).1 then answer env (lookupTxt env decoded)
      else failure env 429 "rate_limited" := by
  have hsafe := decoded_safe hname hquery
  have hkey : ∀ c ∈ py "name", isAlwaysSafe c = true :=
    List.all_eq_true.1 (show (py "name").all isAlwaysSafe = true by decide)
  have hlength : (target decoded).length ≤ 600 := by
    have hname := (matchesDkimQuery_spec (getLast?_ne_dot hname) hquery).1.2
    have hleading : (target decoded).length = 14 + decoded.length := by
      simp only [target, List.length_append, List.length_cons]
      have hpath : (py "/resolve").length = 8 := rfl
      have hfield : (py "name").length = 4 := rfl
      omega
    omega
  have hhealth : ¬(py "/resolve" = py "/health" ∧ py "name" ++ ofChar '=' :: decoded = []) := by
    rintro ⟨-, hnil⟩
    simp at hnil
  have hpath : ¬(False ∨ (target decoded).length > 600) := by
    rintro (hfalse | hgt)
    · exact hfalse
    · omega
  simp only [doGet, urlsplit_target env.lib hsafe, if_neg hhealth,
    parseQsl_urlencode env.lib hkey hsafe, ne_eq, not_true_eq_false, if_false, if_neg hpath]
  rw [resolveDkimTxt_decoded hlower hname hquery]
  rcases rateAllowed now times with ⟨_ | _, times'⟩
  · rfl
  · rfl

include hlower in
/-- Where the request for a path of an HTTP server goes. -/
lemma parseRequest_http {host path : PyStr} (hhost : ∀ c ∈ host, c ∉ py "/#?%")
    (hroot : path.head? = some (ofChar '/'))
    (hpath : ∀ c ∈ path, isSpace c = false ∧ c ≠ ofChar '#') :
    parseRequest env.lib (py "http://" ++ (host ++ path)) =
      some { scheme := py "http", host := host, selector := path } := by
  -- neither blanks nor angle brackets nor `URL:` are taken off
  have hunwrap : unwrap (py "http://" ++ (host ++ path)) = py "http://" ++ (host ++ path) := by
    have hleft : (py "http://" ++ (host ++ path)).dropWhile isSpace =
        py "http://" ++ (host ++ path) := rfl
    have hright : (py "http://" ++ (host ++ path)).rdropWhile isSpace =
        py "http://" ++ (host ++ path) := by
      rw [List.rdropWhile_eq_self_iff]
      intro hne
      have hnil : path ≠ [] := by
        rintro rfl
        simp at hroot
      have hlast : (py "http://" ++ (host ++ path)).getLast hne = path.getLast hnil := by
        rw [List.getLast_append_of_ne_nil _ (by simp [hnil]), List.getLast_append_of_ne_nil _ hnil]
      rw [hlast]
      simp [(hpath _ (List.getLast_mem hnil)).1]
    have hstrip : strip (py "http://" ++ (host ++ path)) = py "http://" ++ (host ++ path) := by
      rw [strip, hleft, hright]
    have hangle : ¬((py "http://" ++ (host ++ path)).head? = some (ofChar '<') ∧
        (py "http://" ++ (host ++ path)).getLast? = some (ofChar '>')) := by
      rintro ⟨hhead, -⟩
      revert hhead
      show some (ofChar 'h') = some (ofChar '<') → False
      decide
    have hurl : startswith (py "URL:") (py "http://" ++ (host ++ path)) = false := rfl
    simp only [unwrap, hstrip, if_neg hangle, hurl, Bool.false_eq_true, if_false]
  have htag : splitTag (py "http://" ++ (host ++ path)) = py "http://" ++ (host ++ path) := by
    have hscheme : ofChar '#' ∉ py "http://" := by decide
    refine if_neg ?_
    simp only [List.mem_append, not_or]
    exact ⟨hscheme, fun h => hhost _ h (by decide), fun h => (hpath _ h).2 rfl⟩
  have hscheme : (py "http://" ++ (host ++ path)).takeWhile (· ∉ py "/:") = py "http" := rfl
  have hafter : ((py "http://" ++ (host ++ path)).drop (py "http").length).drop 1 =
      py "//" ++ (host ++ path) := rfl
  have hslashes : startswith (py "//") (py "//" ++ (host ++ path)) = true := rfl
  have hauthority : (py "//" ++ (host ++ path)).drop 2 = host ++ path := rfl
  -- the host ends at the first slash, which is that of the path
  have htake : (host ++ path).takeWhile (· ∉ py "/#?") = host := by
    obtain ⟨path', rfl⟩ : ∃ path', path = ofChar '/' :: path' := by
      cases path with
      | nil => simp at hroot
      | cons c path' =>
        obtain rfl : c = ofChar '/' := by simpa using hroot
        exact ⟨path', rfl⟩
    rw [List.takeWhile_append_of_pos, List.takeWhile_cons_of_neg (by decide), List.append_nil]
    intro c hc
    have hsub : ∀ d ∈ py "/#?", d ∈ py "/#?%" := by
      have hall : ((py "/#?").all fun d => decide (d ∈ py "/#?%")) = true := by decide
      intro d hd
      simpa using List.all_eq_true.1 hall d hd
    simpa using fun hmem => hhost c hc (hsub c hmem)
  have hunquote : unquote env.lib host = host := if_pos fun hmem => hhost _ hmem (by decide)
  have hrooted : rooted path = path := if_neg fun h => h.2 hroot
  have hlowered : env.lib.unicode.lower (py "http") = py "http" := by
    have hall : ((py "http").all fun c => decide (c.val < 0x80)) = true := by decide
    rw [hlower _ (fun c hc => by simpa using List.all_eq_true.1 hall c hc)]
    decide
  have hcolon : ¬(py "http" = [] ∨
      ((py "http://" ++ (host ++ path)).drop (py "http").length).head? ≠ some (ofChar ':')) := by
    rintro (hnil | hne)
    · revert hnil
      decide
    · exact hne rfl
  simp only [parseRequest, hunwrap, htag, hscheme, hafter, if_neg hcolon, hslashes, if_true,
    hauthority, htake, hunquote, hlowered, List.drop_left, hrooted]

/-! ## The response -/

/-- A record of the resolver is not too long. -/
lemma lookupTxt_length {txt : Bytes} (h : lookupTxt env decoded = .ok (some txt)) :
    txt.length ≤ maxTxtBytes := by
  have hrecord : ∀ document : Json F, recordOf env document = .ok (some txt) →
      txt.length ≤ maxTxtBytes := by
    intro document h
    unfold recordOf at h
    split at h
    swap
    · cases h
    split at h
    · cases h
    split_ifs at h
    · cases h
    obtain ⟨answers, -, h⟩ := Exceptions.bind_eq_ok.1 h
    obtain ⟨records, -, h⟩ := Exceptions.bind_eq_ok.1 h
    split at h
    · cases h
    · split_ifs at h with hlong
      obtain rfl := Option.some.inj (Except.ok.inj h)
      omega
    · cases h
  unfold lookupTxt at h
  split at h
  · cases h
  obtain ⟨response, -, h⟩ := Exceptions.bind_eq_ok.1 h
  split_ifs at h
  dsimp only at h
  split_ifs at h
  split at h
  · cases h
  · exact hrecord _ h

/-- The document of a value. -/
def valueDocument (value : Option Bytes) : Json F :=
  .object [(py "value",
    match value with
    | none => .scalar .null
    | some txt => .string (Base64.b64encode txt))]

lemma answer_ok (value : Option Bytes) : answer env (.ok value) =
    (PyStr.encodeAscii (Json.dumps env.floats (valueDocument value))).map (⟨200, ·⟩) := by
  cases value with
  | none => rfl
  | some txt => rfl

lemma escapeChar_b64encode (txt : Bytes) :
    (Base64.b64encode txt).flatMap Json.escapeChar = Base64.b64encode txt := by
  have hdigit : ∀ n < 64, Json.escapeChar (Base64.digit n) = [Base64.digit n] := by decide +kernel
  have hall : ∀ c ∈ Base64.b64encode txt, Json.escapeChar c = [c] := by
    intro c hc
    rcases Base64.b64encode_chars txt c hc with rfl | ⟨n, hn, rfl⟩
    · decide
    · exact hdigit n hn
  rw [List.flatMap_congr hall]
  simp

lemma not_surrogate_b64encode (txt : Bytes) :
    ∀ c ∈ Base64.b64encode txt, isSurrogate c = false := by
  have hdigit : ∀ n < 64, isSurrogate (Base64.digit n) = false := by decide +kernel
  intro c hc
  rcases Base64.b64encode_chars txt c hc with rfl | ⟨n, hn, rfl⟩
  · decide
  · exact hdigit n hn

lemma valueDocument_ok (floats : Json.Floats F) (value : Option Bytes) :
    (valueDocument value).Ok floats := by
  have hkey : Json.Spellable (py "value") := Json.spellable_py (by decide)
  cases value with
  | none => simpa [valueDocument, Json.Ok, Json.MembersOk, Json.Scalar.Ok] using hkey
  | some txt =>
    simpa [valueDocument, Json.Ok, Json.MembersOk] using
      ⟨hkey, Json.spellable_of_not_surrogate (not_surrogate_b64encode txt)⟩

lemma sortKeys_valueDocument (value : Option Bytes) :
    Json.sortKeys (valueDocument value : Json F) = valueDocument value := by
  cases value with
  | none => simp [valueDocument, Json.sortKeys, Json.sortMembers]
  | some txt => simp [valueDocument, Json.sortKeys, Json.sortMembers]

/-- The text of a value fits into what the worker reads of a response. -/
lemma render_valueDocument_length (floats : Json.Floats F) {value : Option Bytes}
    (hlength : ∀ txt, value = some txt → txt.length ≤ maxTxtBytes) :
    (Json.render floats (valueDocument value)).length ≤ maxDnsTxtBytes * 2 := by
  have hkey : (Json.renderString (py "value")).length = 7 := by decide
  cases value with
  | none =>
    have hnull : (py "null").length = 4 := rfl
    have hclose : (py "\x7d").length = 1 := rfl
    simp only [valueDocument, Json.render, Json.renderMembers, Json.renderScalar, List.length_cons,
      List.length_append, hkey, hnull, hclose, List.length_nil, maxDnsTxtBytes]
    omega
  | some txt =>
    have htxt := hlength txt rfl
    have hclose : (py "\x7d").length = 1 := rfl
    have hencoded : (Json.renderString (Base64.b64encode txt)).length =
        4 * ((txt.length + 2) / 3) + 2 := by
      rw [Json.renderString, escapeChar_b64encode]
      simp [Base64.b64encode_length]
    simp only [valueDocument, Json.render, Json.renderMembers, List.length_cons, hencoded,
      List.length_append, hkey, hclose, List.length_nil, maxDnsTxtBytes]
    rw [maxTxtBytes] at htxt
    omega

lemma answer_isSome (value : Option Bytes) :
    ∃ response, answer env (.ok value) = some response := by
  have hascii : ∀ c ∈ Json.dumps env.floats (valueDocument value), c.val < 0x80 := by
    intro c hc
    rw [Json.dumps, sortKeys_valueDocument] at hc
    have hprintable := Json.render_printable _ (valueDocument_ok env.floats value) c hc
    exact lt_trans hprintable.2 (by decide)
  obtain ⟨body, hbody⟩ := encodeAscii_isSome hascii
  exact ⟨⟨200, body⟩, by rw [answer_ok, hbody]; rfl⟩

lemma json_status {status : ℕ} {members : List (PyStr × Json F)} {response : HttpResponse}
    (h : json env status members = some response) : response.status = status := by
  obtain ⟨body, -, rfl⟩ := Option.map_eq_some_iff.1 h
  rfl

lemma failure_status {status : ℕ} {error : String} {response : HttpResponse}
    (h : failure env status error = some response) : response.status = status :=
  json_status h

/-- An answer is never 404, and 400 only for a `ValueError`. -/
lemma answer_status {found : Except CallExn (Option Bytes)} {response : HttpResponse}
    (h : answer env found = some response) :
    response.status ≠ 404 ∧ (response.status = 400 → found = .error .value) := by
  match found with
  | .error .value =>
    have hstatus : response.status = 400 := failure_status h
    simp [hstatus]
  | .error .os =>
    have hstatus : response.status = 503 := failure_status h
    simp [hstatus]
  | .error .other => cases h
  | .ok none => simp [json_status h]
  | .ok (some txt) => simp [json_status h]

/-- The worker reads the value out of the response to it. -/
lemma resolveTxt_of_answer {client : Client F} {url : PyStr} {response : HttpResponse}
    {value : Option Bytes} (hfloats : client.floats = env.floats)
    (hurl : client.url decoded = some url) (hopen : client.urlopen url = .ok response)
    (hanswer : answer env (.ok value) = some response)
    (hlength : ∀ txt, value = some txt → txt.length ≤ maxTxtBytes) :
    client.resolveTxt decoded = .value value := by
  rw [answer_ok] at hanswer
  obtain ⟨body, hbody, rfl⟩ := Option.map_eq_some_iff.1 hanswer
  rw [Json.dumps, sortKeys_valueDocument] at hbody
  have hfits : body.length ≤ maxDnsTxtBytes * 2 := by
    rw [encodeAscii_length hbody]
    exact render_valueDocument_length env.floats hlength
  have hloads :=
    Json.loadsBytes_render env.floats client.wide (valueDocument_ok env.floats value) hbody
  have hvalue : valueOf (valueDocument value : Json F) = .value value := by
    cases value with
    | none => rfl
    | some txt =>
      have hshort : ¬txt.length > maxDnsTxtBytes := by
        have := hlength txt rfl
        rw [maxTxtBytes] at this
        rw [maxDnsTxtBytes]
        omega
      simp only [valueOf, valueDocument, ne_eq, not_true_eq_false, if_false,
        Base64.b64decode_b64encode, if_neg hshort]
  rw [Client.resolveTxt, hurl]
  simp only [hopen, ne_eq, not_true_eq_false, if_false, List.take_of_length_le hfits, hfloats,
    hloads, hvalue]

end

/-- Worker and resolver agree: for a name that the worker lets through, the request goes to the
handler, which never answers 404, and 400 only for what the DNS-over-HTTPS server sent; and
where the rate limiter admits it, the worker gets exactly the value that the resolver found. -/
theorem resolver_agrees {F : Type} (env : Env F)
    (hlower : ∀ s : PyStr, (∀ c ∈ s, c.val < 0x80) →
      env.lib.unicode.lower s = s.map lowerAsciiChar)
    (host endpoint : PyStr) (hnonempty : host ≠ []) (hhost : ∀ c ∈ host, c ∉ py "/#?%")
    (hendpoint : endpoint.rdropWhile (· == ofChar '/') = py "http://" ++ host)
    (name : Bytes) (decoded : PyStr) (hname : decodeName name = some decoded)
    (hquery : matchesDkimQuery decoded = true) (now : Time) (times : List Time) :
    ∃ url request, (connected env host endpoint now times).url decoded = some url ∧
      parseRequest env.lib url = some request ∧ request.scheme = py "http" ∧
      request.host = host ∧
      (∀ response, (doGet env now times (requestPath request.selector)).1 = some response →
        response.status ≠ 404 ∧
          (response.status = 400 → lookupTxt env decoded = .error .value)) ∧
      ((rateAllowed now times).1 = true → ∀ value, resolveDkimTxt env decoded = .ok value →
        (connected env host endpoint now times).resolveTxt decoded = .value value) := by
  have hsafe := decoded_safe hname hquery
  have hkey : ∀ c ∈ py "name", isAlwaysSafe c = true :=
    List.all_eq_true.1 (show (py "name").all isAlwaysSafe = true by decide)
  have htarget := target_chars hsafe
  -- the path of the request has no character that the URL parser treats in a way of its own
  have hpath : ∀ c ∈ target decoded, isSpace c = false ∧ c ≠ ofChar '#' := by
    have hall : ((py "/?=").all fun c => !isSpace c && decide (c ≠ ofChar '#')) = true := by decide
    intro c hc
    rcases htarget c hc with h | h
    · exact ⟨not_space_of_alwaysSafe h, ne_of_alwaysSafe h (by decide)⟩
    · simpa using List.all_eq_true.1 hall c h
  have hvalid : validTarget (target decoded) = true := by
    have hall :
        ((py "/?=").all fun c => decide (0x20 < c.val) && decide (c.val < 0x7F)) = true := by
      decide
    refine List.all_eq_true.2 fun c hc => ?_
    rcases htarget c hc with h | h
    · exact printable_of_alwaysSafe h
    · exact List.all_eq_true.1 hall c h
  have hurl : (connected env host endpoint now times).url decoded =
      some (py "http://" ++ (host ++ target decoded)) := by
    have hleading : py "/resolve?" = py "/resolve" ++ [ofChar '?'] := by decide
    have hbase : (connected env host endpoint now times).base = py "http://" ++ host := hendpoint
    rw [Client.url, urlencode_single hkey hsafe, Option.map_some, hbase, hleading, target]
    simp
  have hroot : (target decoded).head? = some (ofChar '/') := rfl
  have hrequest := parseRequest_http hlower hhost hroot hpath
  have hself : requestPath (target decoded) = target decoded := rfl
  have hserved := doGet_target hlower hname hquery now times
  refine ⟨_, _, hurl, hrequest, rfl, rfl, ?_, ?_⟩
  · intro response hresponse
    rw [hself, hserved] at hresponse
    split at hresponse
    · exact answer_status hresponse
    · simp [failure_status hresponse]
  -- the record is written as JSON with base64 texts, and the client reads the same bytes
  · intro hadmitted value hfound
    rw [resolveDkimTxt_decoded hlower hname hquery] at hfound
    have hlength : ∀ txt, value = some txt → txt.length ≤ maxTxtBytes := by
      rintro txt rfl
      exact lookupTxt_length hfound
    obtain ⟨response, hanswer⟩ : ∃ response, answer env (.ok value) = some response :=
      answer_isSome value
    have hstatus : response.status = 200 := by
      rw [answer_ok] at hanswer
      obtain ⟨body, -, rfl⟩ := Option.map_eq_some_iff.1 hanswer
      rfl
    have hopen : (connected env host endpoint now times).urlopen
        (py "http://" ++ (host ++ target decoded)) = .ok response := by
      have hroute : ¬(py "http" ≠ py "http" ∨ host = [] ∨ host ≠ host) := by simp [hnonempty]
      have hsuccess : 200 ≤ response.status ∧ response.status < 300 := by omega
      simp only [connected, urlopenTo, hrequest, if_neg hroute, hvalid, hself, hserved, hadmitted,
        if_true, hfound, hanswer, Bool.not_true, Bool.false_eq_true, if_false, if_pos hsuccess]
    have hfloats : (connected env host endpoint now times).floats = env.floats := rfl
    exact resolveTxt_of_answer hfloats hurl hopen hanswer hlength

/-- A network in which the DNS-over-HTTPS server knows one record. -/
def sampleDns : Env Unit where
  lib := sampleLibrary blankMessage [] []
  floats := { parse := fun _ => (), repr := fun _ => py "0.0", eqInt := fun _ n => n == 0 }
  wide _ _ := none
  endpoint := py "https://cloudflare-dns.com/dns-query"
  urlopen url :=
    if url = py "https://cloudflare-dns.com/dns-query?name=s1._domainkey.example.org&type=TXT" then
      .ok ⟨200, bytes "\x7b\"Status\":0,\"Answer\":[\x7b\"type\":16,\"data\":\"v=DKIM1\"\x7d]\x7d"⟩
    else .error .os
  txtStrings data := if data = py "v=DKIM1" then some [bytes "v=DKIM1"] else none

theorem resolver_agrees_sample :
    (connected sampleDns (py "dkim-resolver:8053") (py "http://dkim-resolver:8053/")
      0 []).resolveTxt
      (py "s1._domainkey.example.org") = .value (some (bytes "v=DKIM1")) := by
  have hascii : ∀ s : PyStr, (∀ c ∈ s, c.val < 0x80) →
      sampleDns.lib.unicode.lower s = s.map lowerAsciiChar := fun _ _ => rfl
  have hhost : ((py "dkim-resolver:8053").all fun c => decide (c ∉ py "/#?%")) = true := by decide
  obtain ⟨_, _, -, -, -, -, -, hvalue⟩ := resolver_agrees sampleDns hascii
    (py "dkim-resolver:8053") (py "http://dkim-resolver:8053/") (by decide)
    (fun c hc => by simpa using List.all_eq_true.1 hhost c hc) (by decide +kernel)
    (bytes "S1._domainkey.Example.org.") (py "s1._domainkey.example.org") (by decide +kernel)
    (by decide +kernel) 0 []
  exact hvalue rfl _ rfl

end Resolver

end MailGate
