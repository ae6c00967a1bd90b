import MailGate.Mail.Url

/-!
# Queries and requests

`urllib.parse.urlencode` and `parse_qs`, and how `urllib.request` finds the host and the target
of a request in its URL.
-/

namespace MailGate

open PyStr

/-! ## Writing a query -/

/-- `_ALWAYS_SAFE`. -/
def isAlwaysSafe (c : PyChar) : Bool := PyChar.isAlnum c || c ∈ py "_.-~"

/-- `%XX`. -/
def percentEscape (b : UInt8) : PyStr :=
  let hex (n : ℕ) : PyChar := (py "0123456789ABCDEF").getD n (ofChar '0')
  [ofChar '%', hex (b.toNat / 16), hex (b.toNat % 16)]

/-- `quote_plus(s)`; `none` is the `UnicodeEncodeError` of a surrogate. -/
def quotePlus (s : PyStr) : Option PyStr := do
  let b ← s.encode
  return b.flatMap fun x =>
    let c : PyChar := Fin.ofNat _ x.toNat
    if isAlwaysSafe c then [c] else if c = ofChar ' ' then [ofChar '+'] else percentEscape x

/-- `urlencode(pairs)`. -/
def urlencode (pairs : List (PyStr × PyStr)) : Option PyStr := do
  let items ← pairs.mapM fun p => do return (← quotePlus p.1) ++ ofChar '=' :: (← quotePlus p.2)
  return join (py "&") items

/-! ## Reading a query -/

/-- `unquote_to_bytes` of ASCII text. -/
def unquoteToBytes : PyStr → Bytes
  | c :: h :: l :: cs =>
      if c = ofChar '%' then
        match h.hexValue, l.hexValue with
        | some h, some l => (16 * h + l).toUInt8 :: unquoteToBytes cs
        | _, _ => c.val.toUInt8 :: unquoteToBytes (h :: l :: cs)
      else c.val.toUInt8 :: unquoteToBytes (h :: l :: cs)
  | c :: cs => c.val.toUInt8 :: unquoteToBytes cs
  | [] => []

section

variable (lib : Library)

/-- `unquote(s)`: the ASCII parts of the text are decoded, as UTF-8 with the handler `replace`. -/
def unquote (s : PyStr) : PyStr :=
  if ofChar '%' ∉ s then s
  else
    (s.splitBy fun a b => decide (a.val < 0x80) == decide (b.val < 0x80)).flatMap fun part =>
      if part.all fun c => decide (c.val < 0x80) then
        match lib.decode (unquoteToBytes part) (py "utf-8") with
        | .ok text => text
        | .error _ => []
      else part

/-- `s.replace("+", " ")`. -/
def plusToSpace (s : PyStr) : PyStr := s.map fun c => if c = ofChar '+' then ofChar ' ' else c

/-- One field of a query; `none` is the `ValueError` for a field without `=`. -/
def parseField (field : PyStr) : Option (PyStr × PyStr) :=
  if ofChar '=' ∈ field then
    some (unquote lib (plusToSpace (before (ofChar '=') field)),
      unquote lib (plusToSpace (after (ofChar '=') field)))
  else none

/-- `parse_qsl(query, keep_blank_values=True, strict_parsing=True)`; `parse_qs` groups the
values by their names. -/
def parseQsl (query : PyStr) : Option (List (PyStr × PyStr)) :=
  (if query = [] then [] else query.splitOn (ofChar '&')).mapM (parseField lib)

/-! ## Requests -/

/-- `unwrap`. -/
def unwrap (url : PyStr) : PyStr :=
  let url := strip url
  let url :=
    if url.head? = some (ofChar '<') ∧ url.getLast? = some (ofChar '>') then
      strip (url.tail.dropLast)
    else url
  if startswith (py "URL:") url then strip (url.drop 4) else url

/-- `urllib.request.Request` as far as it says where the request goes. -/
structure Request where
  scheme : PyStr
  host : PyStr
  selector : PyStr
deriving DecidableEq, Repr

/-- `url.rpartition("#")[0]`, or the URL where it has no fragment. -/
def splitTag (url : PyStr) : PyStr :=
  if ofChar '#' ∈ url then ((url.reverse.dropWhile (· ≠ ofChar '#')).drop 1).reverse else url

/-- The text with a slash before it, if it begins with anything else. -/
def rooted (path : PyStr) : PyStr :=
  if path ≠ [] ∧ path.head? ≠ some (ofChar '/') then ofChar '/' :: path else path

/-- `Request(url)`; `none` is the `ValueError` of a URL without a scheme. -/
def parseRequest (url : PyStr) : Option Request :=
  let url := splitTag (unwrap url)
  let scheme := url.takeWhile (· ∉ py "/:")
  let rest := url.drop scheme.length
  if scheme = [] ∨ rest.head? ≠ some (ofChar ':') then none
  else
    let rest := rest.drop 1
    if startswith (py "//") rest then
      let host := (rest.drop 2).takeWhile (· ∉ py "/#?")
      some {
        scheme := lib.unicode.lower scheme
        host := unquote lib host
        selector := rooted ((rest.drop 2).drop host.length) }
    else some { scheme := lib.unicode.lower scheme, host := [], selector := rest }

/-! ## Text that needs no quoting -/

lemma ascii_of_alwaysSafe {c : PyChar} (h : isAlwaysSafe c = true) : c.val < 0x80 := by
  have hother : ((py "_.-~").all fun c => decide (c.val < 0x80)) = true := by decide
  simp only [isAlwaysSafe, PyChar.isAlnum, PyChar.isDigit, Bool.or_eq_true, Bool.and_eq_true,
    decide_eq_true_eq] at h
  rcases h with h | h
  · omega
  · simpa using List.all_eq_true.1 hother c h

/-- A text of unreserved characters is quoted as itself. -/
lemma quotePlus_safe {s : PyStr} (h : ∀ c ∈ s, isAlwaysSafe c = true) : quotePlus s = some s := by
  have hascii : ∀ c ∈ s, c.val < 0x80 := fun c hc => ascii_of_alwaysSafe (h c hc)
  rw [quotePlus, encode_ascii hascii]
  simp only [Option.pure_def, Option.bind_eq_bind, Option.bind_some, Option.some.injEq,
    List.flatMap_map]
  induction s with
  | nil => rfl
  | cons c s ih =>
    rw [List.forall_mem_cons] at h hascii
    have hc : (Fin.ofNat 0x110000 c.val.toUInt8.toNat : PyChar) = c := by
      rw [toNat_toUInt8 (hascii.1.trans (by decide))]
      exact Fin.ext (Nat.mod_eq_of_lt c.isLt)
    rw [List.flatMap_cons, ih h.2 hascii.2, hc, if_pos h.1]
    rfl

lemma ne_of_alwaysSafe {c d : PyChar} (hc : isAlwaysSafe c = true) (hd : isAlwaysSafe d = false) :
    c ≠ d := by
  rintro rfl
  simp [hc] at hd

/-- A text of unreserved characters is read as itself. -/
lemma unquote_plusToSpace_safe {s : PyStr} (h : ∀ c ∈ s, isAlwaysSafe c = true) :
    unquote lib (plusToSpace s) = s := by
  have hplus : plusToSpace s = s := by
    have hid : ∀ c ∈ s, (if c = ofChar '+' then ofChar ' ' else c) = c :=
      fun c hc => if_neg (ne_of_alwaysSafe (h c hc) (by decide))
    rw [plusToSpace, List.map_congr_left hid, List.map_id']
  have hpercent : ofChar '%' ∉ s := fun hmem => by
    have := h _ hmem
    revert this
    decide
  rw [hplus, unquote, if_pos hpercent]

/-- The query of one field. -/
lemma urlencode_single {key value : PyStr} (hkey : ∀ c ∈ key, isAlwaysSafe c = true)
    (hvalue : ∀ c ∈ value, isAlwaysSafe c = true) :
    urlencode [(key, value)] = some (key ++ ofChar '=' :: value) := by
  simp [urlencode, quotePlus_safe hkey, quotePlus_safe hvalue, join, List.intercalate]

lemma before_append {c : PyChar} {s : PyStr} (h : c ∉ s) (t : PyStr) :
    before c (s ++ c :: t) = s := by
  rw [before, List.takeWhile_append_of_pos (fun d hd => by simpa using ne_of_mem_of_not_mem hd h)]
  simp

lemma after_append {c : PyChar} {s : PyStr} (h : c ∉ s) (t : PyStr) :
    after c (s ++ c :: t) = t := by
  rw [after, List.dropWhile_append_of_pos (fun d hd => by simpa using ne_of_mem_of_not_mem hd h)]
  simp

/-- Reading inverts writing. -/
theorem parseQsl_urlencode {key value : PyStr} (hkey : ∀ c ∈ key, isAlwaysSafe c = true)
    (hvalue : ∀ c ∈ value, isAlwaysSafe c = true) :
    parseQsl lib (key ++ ofChar '=' :: value) = some [(key, value)] := by
  have hnot : ∀ d : PyChar, isAlwaysSafe d = false → d ∉ key ∧ d ∉ value := fun d hd =>
    ⟨fun hmem => by simp [hkey d hmem] at hd, fun hmem => by simp [hvalue d hmem] at hd⟩
  obtain ⟨hampKey, hampValue⟩ := hnot (ofChar '&') (by decide)
  obtain ⟨heqKey, -⟩ := hnot (ofChar '=') (by decide)
  have hamp : ∀ d ∈ key ++ ofChar '=' :: value, (d == ofChar '&') = false := by
    intro d hd
    simp only [List.mem_append, List.mem_cons] at hd
    rw [beq_eq_false_iff_ne]
    rcases hd with hd | rfl | hd
    · exact ne_of_mem_of_not_mem hd hampKey
    · decide
    · exact ne_of_mem_of_not_mem hd hampValue
  have hsplit : (key ++ ofChar '=' :: value).splitOn (ofChar '&') =
      [key ++ ofChar '=' :: value] := List.splitOnP_eq_singleton hamp
  have hfield : parseField lib (key ++ ofChar '=' :: value) = some (key, value) := by
    rw [parseField, if_pos (by simp), before_append heqKey, after_append heqKey,
      unquote_plusToSpace_safe lib hkey, unquote_plusToSpace_safe lib hvalue]
  rw [parseQsl, if_neg (by simp), hsplit]
  simp [hfield]

end

end MailGate
