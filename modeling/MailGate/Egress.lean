import Mathlib.Data.List.Lex
import Mathlib.Order.Fin.Basic
import MailGate.Lib.Glob
import MailGate.Mail.Authentication
import MailGate.Python.IpAddress
import MailGate.Python.Newlines

/-!
# The IMAP destination

Three programs read `MAILGATE_IMAP_ALLOWED_HOST`: `get_dns_hostname` of `config.py` for the
application, `_check_environment` of `doctor.py` for the operator, and `render-haproxy.sh` for
the relay.  Each has a grammar of its own.
-/

namespace MailGate

open PyStr PyChar

/-! ## The application -/

/-- `[a-z0-9]`. -/
def isLowerAlnum (c : PyChar) : Bool := isDigit c || (0x61 ≤ c.val && c.val ≤ 0x7A)

/-- `DNS_LABEL_RE.fullmatch`. -/
def isDnsLabel (l : PyStr) : Bool :=
  1 ≤ l.length && l.length ≤ 63 && (l.all fun c => isLowerAlnum c || c == ofChar '-') &&
    (l.head?.all isLowerAlnum) && (l.getLast?.all isLowerAlnum)

/-- `get_dns_hostname` of a variable with this value; the error is the text of a
`ConfigurationError`. -/
def getDnsHostname (unicode : Unicodedata) (name : PyStr) (value : Option PyStr)
    (default : PyStr) : Except PyStr PyStr :=
  let value := (unicode.lower (strip (value.getD default))).rdropWhile (· == ofChar '.')
  if isIpAddress value then .error (name ++ py " must be a DNS hostname, not an IP address")
  else
    let labels := value.splitOn (ofChar '.')
    if value.length > 253 ∨ labels.length < 2 ∨ ¬labels.all isDnsLabel ∨
        py ".local" <:+ value ∨ value = py "localhost" then
      .error (name ++ py " must be one valid public DNS hostname")
    else .ok value

/-! ## The doctor -/

/-- The level of a `Check`. -/
inductive CheckLevel where
  | pass
  | warn
  | fail
deriving DecidableEq, Repr

/-- `Check`. -/
structure Check where
  level : CheckLevel
  name : PyStr
  detail : PyStr
deriving DecidableEq, Repr

/-- `SAFE_ENV_KEYS`. -/
def safeEnvKeys : List PyStr :=
  ["MAILGATE_ENVIRONMENT", "MAILGATE_HTTP_PORT", "MAILGATE_IMAP_ALLOWED_HOST",
    "MAILGATE_SECRETS_DIR"].map py

/-- `DIRECT_SECRET_KEYS`. -/
def directSecretKeys : List PyStr :=
  ["MAILGATE_SECRET_KEY", "MAILGATE_DATABASE_PASSWORD", "MAILGATE_MASTER_KEY",
    "MAILGATE_MASTER_KEYRING", "MAILGATE_SETUP_TOKEN", "MAILGATE_BACKUP_KEY",
    "POSTGRES_PASSWORD", "POSTGRES_MIGRATE_PASSWORD", "POSTGRES_WEB_PASSWORD",
    "POSTGRES_API_PASSWORD", "POSTGRES_WORKER_PASSWORD"].map py

/-- `HOSTNAME_RE.fullmatch`. -/
def matchesHostname (s : PyStr) : Bool :=
  let labels := s.splitOn (ofChar '.')
  1 ≤ s.length && s.length ≤ 253 && 2 ≤ labels.length && labels.all isDomainLabel

/-- The value without the quotes around it. -/
def stripQuotes (value : PyStr) : PyStr :=
  if 2 ≤ value.length ∧ value.head? = value.getLast? ∧ value.head?.any (· ∈ py "\"'") then
    (value.drop 1).dropLast
  else value

/-- One round of the loop of `_read_safe_env`. -/
def readEnvLine (acc : List (PyStr × PyStr) × List PyStr) (rawLine : PyStr) :
    List (PyStr × PyStr) × List PyStr :=
  let line := strip rawLine
  if line = [] ∨ line.head? = some (ofChar '#') ∨ ofChar '=' ∉ line then acc
  else
    let key := strip (line.takeWhile (· ≠ ofChar '='))
    let rawValue := (line.dropWhile (· ≠ ofChar '=')).drop 1
    let forbidden := if key ∈ directSecretKeys then acc.2 ++ [key] else acc.2
    if key ∉ safeEnvKeys then (acc.1, forbidden)
    else (Dict.set acc.1 key (stripQuotes (strip rawValue)), forbidden)

/-- `_read_safe_env` of a file with this text: the values, and the forbidden keys. -/
def readSafeEnv (text : PyStr) : List (PyStr × PyStr) × List PyStr :=
  ((universalNewlines text).splitOn (ofChar '\n')).foldl readEnvLine ([], [])

/-- The check of the IMAP destination. -/
def destinationCheck (unicode : Unicodedata) (hostname : PyStr) : Check :=
  let normalized := hostname.rdropWhile (· == ofChar '.')
  if normalized = [] ∨ isIpAddress normalized ∨ ¬matchesHostname normalized then
    ⟨.fail, py "IMAP destination", py "A valid DNS hostname is required in .env."⟩
  else if [py ".test", py ".invalid", py ".example"].any fun w =>
      w.isSuffixOf (unicode.lower hostname) then
    ⟨.warn, py "IMAP destination",
      py "The configured IMAP destination is a reserved placeholder hostname."⟩
  else ⟨.pass, py "IMAP destination", py "An IMAP DNS hostname is configured."⟩

section

variable (unicode : Unicodedata) (int : PyStr → Option ℤ)

/-- The checks of the values that were read; `int` is the conversion of a text, which may raise
a `ValueError`. -/
def environmentChecks (values : List (PyStr × PyStr)) (forbidden : List PyStr) : List Check :=
  let environment :=
    unicode.lower ((values.lookup (py "MAILGATE_ENVIRONMENT")).getD (py "development"))
  let port := int ((values.lookup (py "MAILGATE_HTTP_PORT")).getD (py "8080"))
  [⟨.pass, py "environment", py ".env is present and readable."⟩] ++
    (if forbidden ≠ [] then
      [⟨.fail, py "environment secrets",
        py "Direct secret values are present in .env; use file-backed secrets instead: " ++
          join (py ", ") (forbidden.eraseDups.insertionSort (· ≤ ·))⟩]
    else []) ++
    [if environment ∉ [py "development", py "test", py "production"] then
      ⟨.fail, py "environment mode", py "MAILGATE_ENVIRONMENT is invalid."⟩
    else ⟨.pass, py "environment mode", py "Environment mode is recognized."⟩] ++
    [destinationCheck unicode ((values.lookup (py "MAILGATE_IMAP_ALLOWED_HOST")).getD [])] ++
    if port.any fun n => 1 ≤ n ∧ n ≤ 65535 then []
    else [⟨.fail, py "HTTP port", py "MAILGATE_HTTP_PORT is not a valid TCP port."⟩]

/-- The file `.env`. -/
inductive EnvFile where
  | missing
  | unreadable
  | text (content : PyStr)
deriving DecidableEq, Repr

/-- `_check_environment`. -/
def checkEnvironment : EnvFile → List Check × List (PyStr × PyStr)
  | .missing => ([⟨.fail, py "environment", py ".env is missing or is not a regular file."⟩], [])
  | .unreadable => ([⟨.fail, py "environment", py ".env could not be read."⟩], [])
  | .text content =>
      let (values, forbidden) := readSafeEnv content
      (environmentChecks unicode int values forbidden, values)

end

/-! ## The relay -/

/-- `[^a-z0-9.-]`. -/
def isForeign (c : PyChar) : Bool := !(isLowerAlnum c || c ∈ py ".-")

open Glob in
/-- The patterns of the first `case`. -/
def refusedHosts : List (List (Glob.Part PyChar)) :=
  [word [], [.star, .bracket isForeign, .star], word (py ".") ++ [.star],
    .star :: (word (py "..") ++ [.star]), .star :: word (py "."), word (py "-") ++ [.star],
    .star :: word (py "-"), word (py "localhost"), .star :: word (py ".local")]

open Glob in
/-- `render-haproxy.sh`: the text that stands for `@ALLOWED_HOST@` in the configuration, or the
text of the error.  None of its characters is special to `sed`. -/
def renderHaproxy (host : PyStr) : Except PyStr PyStr :=
  if refusedHosts.any (accepts · host) then
    .error (py "MAILGATE_IMAP_ALLOWED_HOST must be one lowercase public DNS hostname")
  else if accepts (.star :: (word (py ".") ++ [.star])) host then .ok host
  else .error (py "MAILGATE_IMAP_ALLOWED_HOST must contain a dot")

/-! ## What the doctor lets pass -/

/-- The doctor does not report that the destination fails. -/
def DoctorPasses (checks : List Check) : Prop :=
  ∀ check ∈ checks, check.name = py "IMAP destination" → check.level ≠ .fail

/-- A name that the doctor lets pass. -/
structure Hostname (s : PyStr) : Prop where
  length : s.length ≤ 253
  two : 2 ≤ (s.splitOn (ofChar '.')).length
  labels : ∀ l ∈ s.splitOn (ofChar '.'), isDomainLabel l = true
  no_address : isIpAddress s = false

/-- The form in which the relay wants its host. -/
structure RelayForm (s : PyStr) : Prop where
  no_capital : ∀ c ∈ s, ¬(0x41 ≤ c.val ∧ c.val ≤ 0x5A)
  no_dot : ¬ py "." <:+ s
  not_local : ¬ py ".local" <:+ s

/-- The application and the relay accept the value and use it under the same name. -/
def Agreed (unicode : Unicodedata) (value : PyStr) : Prop :=
  ∃ name, getDnsHostname unicode (py "MAILGATE_IMAP_ALLOWED_HOST") (some value)
    (py "imap.example.test") = .ok name ∧ renderHaproxy value = .ok name

section

variable {unicode : Unicodedata} {int : PyStr → Option ℤ} {s l value : PyStr}

lemma hostname_iff :
    Hostname s ↔ ¬(s = [] ∨ isIpAddress s = true ∨ ¬matchesHostname s = true) := by
  simp only [matchesHostname, not_or, not_not, Bool.not_eq_true, Bool.and_eq_true,
    decide_eq_true_eq, List.all_eq_true]
  constructor
  · intro h
    have hne : s ≠ [] := by
      rintro rfl
      exact absurd h.two (by decide)
    have hpos := List.length_pos_iff.2 hne
    exact ⟨hne, h.no_address, ⟨⟨hpos, h.length⟩, h.two⟩, h.labels⟩
  · rintro ⟨-, haddress, ⟨⟨-, hlength⟩, htwo⟩, hlabels⟩
    exact ⟨hlength, htwo, hlabels, haddress⟩

lemma destinationCheck_spec (unicode : Unicodedata) (value : PyStr) :
    (destinationCheck unicode value).name = py "IMAP destination" ∧
      ((destinationCheck unicode value).level ≠ .fail ↔
        Hostname (value.rdropWhile (· == ofChar '.'))) := by
  rw [destinationCheck, hostname_iff]
  split
  · rename_i h
    exact ⟨rfl, iff_of_false (fun hne => hne rfl) (not_not_intro h)⟩
  rename_i h
  split
  · exact ⟨rfl, iff_of_true (by decide) h⟩
  · exact ⟨rfl, iff_of_true (by decide) h⟩

lemma doctorPasses_iff {values : List (PyStr × PyStr)} {forbidden : List PyStr}
    (hvalue : values.lookup (py "MAILGATE_IMAP_ALLOWED_HOST") = some value) :
    DoctorPasses (environmentChecks unicode int values forbidden) ↔
      Hostname (value.rdropWhile (· == ofChar '.')) := by
  obtain ⟨hname, hlevel⟩ := destinationCheck_spec unicode value
  rw [← hlevel]
  constructor
  · refine fun h => h _ ?_ hname
    simp [environmentChecks, hvalue]
  · -- no other check has that name
    intro hne check hcheck hcheckName
    have hothers : ∀ text ∈ ["environment", "environment secrets", "environment mode", "HTTP port"],
        py text ≠ py "IMAP destination" := by decide
    simp only [environmentChecks, hvalue, Option.getD_some, List.mem_append, List.mem_singleton]
      at hcheck
    rcases hcheck with (((rfl | hsecrets) | rfl) | rfl) | hport
    · exact absurd hcheckName (hothers _ (by decide))
    · split at hsecrets
      · rw [List.mem_singleton.1 hsecrets] at hcheckName
        exact absurd hcheckName (hothers "environment secrets" (by decide))
      · cases hsecrets
    · split at hcheckName
      · exact absurd hcheckName (hothers "environment mode" (by decide))
      · exact absurd hcheckName (hothers "environment mode" (by decide))
    · exact hne
    · split at hport
      · cases hport
      · rw [List.mem_singleton.1 hport] at hcheckName
        exact absurd hcheckName (hothers "HTTP port" (by decide))

/-! ## The first and the last character of a name -/

lemma head?_join {sep : PyStr} {ls : List PyStr} (hl : l ≠ []) :
    (join sep (l :: ls)).head? = l.head? := by
  obtain ⟨c, r, rfl⟩ := List.exists_cons_of_ne_nil hl
  cases ls with
  | nil => simp [join, List.intercalate]
  | cons l' ls => simp [join, List.intercalate]

lemma getLast?_join {sep : PyStr} {ls : List PyStr} (hl : l ≠ []) :
    (join sep (ls ++ [l])).getLast? = l.getLast? := by
  have hend : ∃ front, join sep (ls ++ [l]) = front ++ l := by
    induction ls with
    | nil => exact ⟨[], by simp [join, List.intercalate]⟩
    | cons l' ls ih =>
      obtain ⟨front, hfront⟩ := ih
      obtain ⟨l'', ls', hls⟩ := List.exists_cons_of_ne_nil
        (List.append_ne_nil_of_right_ne_nil ls (List.cons_ne_nil l []))
      refine ⟨l' ++ sep ++ front, ?_⟩
      rw [hls] at hfront
      rw [List.cons_append, hls, List.append_assoc, ← hfront]
      simp [join, List.intercalate]
  obtain ⟨front, hfront⟩ := hend
  rw [hfront, List.getLast?_append_of_ne_nil front hl]

lemma isDomainLabel_spec (h : isDomainLabel l = true) :
    l ≠ [] ∧ (∀ c ∈ l, isAlnum c = true ∨ c = ofChar '-') ∧
      (∀ c ∈ l.head?, isAlnum c = true) ∧ ∀ c ∈ l.getLast?, isAlnum c = true := by
  simp only [isDomainLabel, Bool.and_eq_true, decide_eq_true_eq, List.all_eq_true,
    Bool.or_eq_true, beq_iff_eq, Option.all_eq_true] at h
  obtain ⟨⟨⟨⟨hpos, -⟩, hchars⟩, hhead⟩, hlast⟩ := h
  exact ⟨List.length_pos_iff.1 hpos, hchars, hhead, hlast⟩

/-- A name consists of letters, digits, hyphens and full stops. -/
lemma Hostname.chars (h : Hostname s) :
    ∀ c ∈ s, isAlnum c = true ∨ c = ofChar '-' ∨ c = ofChar '.' := by
  intro c hc
  by_cases hdot : c = ofChar '.'
  · exact .inr (.inr hdot)
  obtain ⟨l, hl, hcl⟩ := mem_splitOn hc hdot
  exact ((isDomainLabel_spec (h.labels l hl)).2.1 c hcl).imp_right .inl

/-- It starts with a letter or a digit. -/
lemma Hostname.head (h : Hostname s) : ∀ c ∈ s.head?, isAlnum c = true := by
  obtain ⟨l, ls, hsplit⟩ := List.exists_cons_of_ne_nil (List.splitOn_ne_nil (ofChar '.') s)
  have hlabel := isDomainLabel_spec (h.labels l (hsplit ▸ List.mem_cons_self))
  have hjoin : join [ofChar '.'] (l :: ls) = s := by
    rw [← hsplit]
    exact List.intercalate_splitOn _
  rw [← hjoin, head?_join hlabel.1]
  exact hlabel.2.2.1

/-- It ends with a letter or a digit. -/
lemma Hostname.last (h : Hostname s) : ∀ c ∈ s.getLast?, isAlnum c = true := by
  obtain ⟨ls, l, hsplit⟩ := List.eq_nil_or_concat' (s.splitOn (ofChar '.')) |>.resolve_left
    (List.splitOn_ne_nil (ofChar '.') s)
  have hlabel := isDomainLabel_spec (h.labels l (hsplit ▸ by simp))
  have hjoin : join [ofChar '.'] (ls ++ [l]) = s := by
    rw [← hsplit]
    exact List.intercalate_splitOn _
  rw [← hjoin, getLast?_join hlabel.1]
  exact hlabel.2.2.2

/-- No label is empty. -/
lemma Hostname.no_dots (h : Hostname s) : ¬ py ".." <:+: s := by
  rintro ⟨front, rest, rfl⟩
  have hmem : ([] : PyStr) ∈ (front ++ py ".." ++ rest).splitOn (ofChar '.') := by
    have hsplit : front ++ py ".." ++ rest = front ++ ofChar '.' :: ([] ++ ofChar '.' :: rest) := by
      simp [py]
    rw [hsplit, List.splitOn, List.splitOnP_append_cons _ _ (by simp),
      List.splitOnP_append_cons _ _ (by simp)]
    simp
  exact (isDomainLabel_spec (h.labels _ hmem)).1 rfl

/-! ## What the relay accepts -/

open Glob in
lemma refused_iff : refusedHosts.any (accepts · s) = true ↔
    s = [] ∨ (∃ c ∈ s, isForeign c = true) ∨ py "." <+: s ∨ py ".." <:+: s ∨ py "." <:+ s ∨
      py "-" <+: s ∨ py "-" <:+ s ∨ s = py "localhost" ∨ py ".local" <:+ s := by
  simp only [refusedHosts, List.any_cons, List.any_nil, Bool.or_eq_true, Bool.or_false,
    accepts_word, accepts_star_bracket_star, accepts_word_star, accepts_star_word,
    accepts_star_word_star]

lemma renderHaproxy_eq_ok {name : PyStr} : renderHaproxy s = .ok name ↔
    refusedHosts.any (Glob.accepts · s) = false ∧ py "." <:+: s ∧ s = name := by
  rw [renderHaproxy]
  split
  · rename_i h
    simp [h]
  rename_i h
  split
  · rename_i hdot
    rw [Glob.accepts_star_word_star] at hdot
    simp [h, hdot]
  · rename_i hdot
    rw [Glob.accepts_star_word_star] at hdot
    simp [hdot]

lemma isLowerAlnum_no_capital {c : PyChar} (h : isForeign c = false) :
    ¬(0x41 ≤ c.val ∧ c.val ≤ 0x5A) := by
  have hwords : ((py ".-").all fun c => c.val < 0x41) = true := by decide
  simp only [isForeign, isLowerAlnum, isDigit, Bool.not_eq_false', Bool.or_eq_true,
    Bool.and_eq_true, decide_eq_true_eq] at h
  rcases h with h | h
  · omega
  · have hsmall : c.val < 0x41 := by simpa using List.all_eq_true.1 hwords c h
    omega

lemma isForeign_eq_false {c : PyChar} (h : isAlnum c = true ∨ c = ofChar '-' ∨ c = ofChar '.')
    (hcapital : ¬(0x41 ≤ c.val ∧ c.val ≤ 0x5A)) : isForeign c = false := by
  rcases h with h | rfl | rfl
  · have hlower : isLowerAlnum c = true := by
      simp only [isAlnum, isDigit, Bool.or_eq_true, Bool.and_eq_true, decide_eq_true_eq] at h
      simp only [isLowerAlnum, isDigit, Bool.or_eq_true, Bool.and_eq_true, decide_eq_true_eq]
      omega
    rw [isForeign, hlower]
    rfl
  · decide
  · decide

/-- What the relay accepts is in its form. -/
lemma relayForm_of_render {name : PyStr} (h : renderHaproxy s = .ok name) : RelayForm s := by
  obtain ⟨hrefused, -, -⟩ := renderHaproxy_eq_ok.1 h
  rw [← Bool.not_eq_true, refused_iff] at hrefused
  push Not at hrefused
  obtain ⟨-, hforeign, -, -, hdot, -, -, -, hlocal⟩ := hrefused
  exact ⟨fun c hc => isLowerAlnum_no_capital (by simpa using hforeign c hc), hdot, hlocal⟩

lemma Hostname.ne_nil (h : Hostname s) : s ≠ [] := by
  rintro rfl
  exact absurd h.two (by decide)

lemma Hostname.dot_mem (h : Hostname s) : ofChar '.' ∈ s := by
  by_contra hdot
  have hsplit : s.splitOn (ofChar '.') = [s] := by
    refine List.splitOn_eq_singleton_of_beq_eq_false fun c hc => ?_
    rw [beq_eq_false_iff_ne]
    exact ne_of_mem_of_not_mem hc hdot
  have htwo := h.two
  rw [hsplit, List.length_singleton] at htwo
  omega

/-- The relay accepts every name in its form. -/
lemma Hostname.render (h : Hostname s) (hform : RelayForm s) : renderHaproxy s = .ok s := by
  have hdot : py "." <:+: s := by
    obtain ⟨front, rest, hs⟩ := List.append_of_mem h.dot_mem
    exact ⟨front, rest, by rw [hs, List.append_assoc]; rfl⟩
  have hnot : ∀ c, c = ofChar '.' ∨ c = ofChar '-' → isAlnum c = true → False := by
    rintro c (rfl | rfl) hc
    · revert hc
      decide
    · revert hc
      decide
  refine renderHaproxy_eq_ok.2 ⟨?_, hdot, rfl⟩
  rw [← Bool.not_eq_true, refused_iff]
  rintro (hnil | ⟨c, hc, hforeign⟩ | ⟨r, rfl⟩ | hdots | ⟨r, rfl⟩ | ⟨r, rfl⟩ | ⟨r, rfl⟩ | rfl |
    hlocal)
  · exact h.ne_nil hnil
  · rw [isForeign_eq_false (h.chars c hc) (hform.no_capital c hc)] at hforeign
    cases hforeign
  · exact hnot _ (.inl rfl) (h.head _ rfl)
  · exact h.no_dots hdots
  · exact hnot _ (.inl rfl) (h.last _ List.getLast?_concat)
  · exact hnot _ (.inr rfl) (h.head _ rfl)
  · exact hnot _ (.inr rfl) (h.last _ List.getLast?_concat)
  · exact absurd h.two (by decide)
  · exact hform.not_local hlocal

lemma isDnsLabel_of_isDomainLabel (h : isDomainLabel l = true)
    (hcapital : ∀ c ∈ l, ¬(0x41 ≤ c.val ∧ c.val ≤ 0x5A)) : isDnsLabel l = true := by
  have hlower : ∀ c ∈ l, isAlnum c = true → isLowerAlnum c = true := by
    intro c hc halnum
    have hc := hcapital c hc
    simp only [isAlnum, isDigit, Bool.or_eq_true, Bool.and_eq_true, decide_eq_true_eq] at halnum
    simp only [isLowerAlnum, isDigit, Bool.or_eq_true, Bool.and_eq_true, decide_eq_true_eq]
    omega
  simp only [isDomainLabel, isDnsLabel, Bool.and_eq_true, decide_eq_true_eq, List.all_eq_true,
    Bool.or_eq_true, beq_iff_eq, Option.all_eq_true] at h ⊢
  obtain ⟨⟨⟨hlength, hchars⟩, hhead⟩, hlast⟩ := h
  exact ⟨⟨⟨hlength, fun c hc => (hchars c hc).imp_left (hlower c hc)⟩,
    fun c hc => hlower c (List.mem_of_mem_head? hc) (hhead c hc)⟩,
    fun c hc => hlower c (List.mem_of_mem_getLast? hc) (hlast c hc)⟩

/-- The characters of a name are ASCII and no white space. -/
lemma Hostname.plain (h : Hostname s) : ∀ c ∈ s, c.val < 0x80 ∧ isSpace c = false := by
  intro c hc
  rcases h.chars c hc with halnum | rfl | rfl
  · simp only [isAlnum, isDigit, Bool.or_eq_true, Bool.and_eq_true, decide_eq_true_eq] at halnum
    refine ⟨by omega, ?_⟩
    simp only [isSpace, Bool.or_eq_false_iff, Bool.and_eq_false_iff, decide_eq_false_iff_not,
      beq_eq_false_iff_ne]
    omega
  · decide
  · decide

/-- The application accepts a name in the form of the relay too, and leaves it as it is. -/
lemma Hostname.accepted (h : Hostname s) (hform : RelayForm s)
    (hlower : LowersAscii unicode.lower) (name default : PyStr) :
    getDnsHostname unicode name (some s) default = .ok s := by
  have hstrip : strip s = s := strip_eq_self fun c hc => (h.plain c hc).2
  have hfold : unicode.lower s = s := by
    rw [hlower s fun c hc => (h.plain c hc).1]
    exact map_lowerAsciiChar hform.no_capital
  have hdots : s.rdropWhile (· == ofChar '.') = s := by
    rw [List.rdropWhile_eq_self_iff]
    intro hne hlast
    have halnum := h.last _ (List.getLast?_eq_some_getLast hne)
    rw [beq_iff_eq.1 hlast] at halnum
    revert halnum
    decide
  have hvalid : (s.splitOn (ofChar '.')).all isDnsLabel = true := by
    refine List.all_eq_true.2 fun l hl => isDnsLabel_of_isDomainLabel (h.labels l hl) fun c hc => ?_
    exact hform.no_capital c (subset_of_mem_splitOn hl hc)
  have hhost : s ≠ py "localhost" := by
    rintro rfl
    exact absurd h.two (by decide)
  have hlength := h.length
  have htwo := h.two
  rw [getDnsHostname, Option.getD_some, hstrip, hfold, hdots, h.no_address,
    if_neg Bool.false_ne_true, if_neg]
  rintro (hlong | hfew | hbad | hlocal | heq)
  · omega
  · omega
  · exact hbad hvalid
  · exact hform.not_local hlocal
  · exact hhost heq

end

/-- Where the doctor lets a value pass, the application and the relay agree on it exactly if it
has the form of the relay: no capital letter, no full stop at its end, and no `.local`. -/
theorem validators_agree_iff (unicode : Unicodedata) (hlower : LowersAscii unicode.lower)
    (int : PyStr → Option ℤ) (values : List (PyStr × PyStr)) (forbidden : List PyStr)
    (value : PyStr) (hvalue : values.lookup (py "MAILGATE_IMAP_ALLOWED_HOST") = some value) :
    (DoctorPasses (environmentChecks unicode int values forbidden) → Agreed unicode value) ↔
      (DoctorPasses (environmentChecks unicode int values forbidden) → RelayForm value) := by
  rw [doctorPasses_iff hvalue]
  refine forall_congr' fun hname => ⟨?_, fun hform => ?_⟩
  · rintro ⟨name, -, hrender⟩
    exact relayForm_of_render hrender
  · have hdots : value.rdropWhile (· == ofChar '.') = value := by
      rw [List.rdropWhile_eq_self_iff]
      intro hne hlast
      have hdot : py "." = [value.getLast hne] := by
        rw [beq_iff_eq.1 hlast]
        rfl
      exact hform.no_dot ⟨value.dropLast, hdot ▸ List.dropLast_append_getLast hne⟩
    rw [hdots] at hname
    exact ⟨value, hname.accepted hform hlower _ _, hname.render hform⟩

/-- A file `.env` that sets the allowed host. -/
def sampleEnvFile (host : String) : PyStr :=
  py "# The relay\nMAILGATE_HTTP_PORT=8080\nMAILGATE_IMAP_ALLOWED_HOST = \"" ++ py host ++
    py "\"\n"

/-- The value of the example file, in quotes. -/
theorem validators_agree_sample :
    DoctorPasses (checkEnvironment sampleUnicode (fun _ => some 8080)
      (.text (sampleEnvFile "imap.example.test"))).1 ∧
      Agreed sampleUnicode (py "imap.example.test") := by
  have hpasses : DoctorPasses (checkEnvironment sampleUnicode (fun _ => some 8080)
      (.text (sampleEnvFile "imap.example.test"))).1 := by
    unfold DoctorPasses
    decide +kernel
  have hlower : ((py "imap.example.test").all fun c => c.val < 0x41 || 0x5A < c.val) = true := by
    decide
  refine ⟨hpasses, (validators_agree_iff sampleUnicode (fun _ _ => rfl) (fun _ => some 8080) _ _
    (py "imap.example.test") (by decide +kernel)).2
      (fun _ => ⟨fun c hc => ?_, by decide, by decide⟩) hpasses⟩
  have hchar : c.val < 0x41 ∨ 0x5A < c.val := by simpa using List.all_eq_true.1 hlower c hc
  omega

/-- The doctor lets a name with capital letters pass, and the relay refuses it. -/
theorem validators_disagree :
    ¬ ∀ (file : EnvFile) (value : PyStr), value ≠ [] →
      (checkEnvironment sampleUnicode (fun _ => some 8080) file).2.lookup
        (py "MAILGATE_IMAP_ALLOWED_HOST") = some value →
      DoctorPasses (checkEnvironment sampleUnicode (fun _ => some 8080) file).1 →
        Agreed sampleUnicode value := by
  intro h
  have hpasses : DoctorPasses (checkEnvironment sampleUnicode (fun _ => some 8080)
      (.text (sampleEnvFile "IMAP.Example.org"))).1 := by
    unfold DoctorPasses
    decide +kernel
  obtain ⟨name, -, hrender⟩ := h (.text (sampleEnvFile "IMAP.Example.org"))
    (py "IMAP.Example.org") (by decide) (by decide +kernel) hpasses
  have hcapital := (relayForm_of_render hrender).no_capital (ofChar 'I') (by decide)
  revert hcapital
  decide

end MailGate
