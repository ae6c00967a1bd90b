import MailGate.Lib.Dict
import MailGate.Lib.Exceptions
import MailGate.Python.Str

/-!
# Reading JSON

`json.loads` of a text: the tokens of the text, and the value that they spell.  A lexical
error is a token of its own, so that errors come in the order of the text; a text directly
after a number or a word is such an error, since no value may stand there.
-/

namespace MailGate

namespace Json

/-- The floats of the interpreter, of type `F`. -/
structure Floats (F : Type) where
  /-- `float(text)`, also for `NaN`, `Infinity` and `-Infinity`. -/
  parse : PyStr → F
  /-- What `json` writes for a float. -/
  repr : F → PyStr
  /-- `x == n`. -/
  eqInt : F → ℤ → Bool

/-- The values that one word or number spells. -/
inductive Scalar (F : Type) where
  | null
  | bool (b : Bool)
  | int (n : ℤ)
  | float (f : F)
deriving DecidableEq, Repr

/-- Exceptions of `json.loads`. -/
inductive LoadExn where
  /-- `JSONDecodeError`. -/
  | decode
  /-- The `ValueError` of an overlong integer. -/
  | overlong
  /-- The `UnicodeDecodeError` of a text in bytes. -/
  | unicode
  /-- What `object_pairs_hook` raises for a repeated key. -/
  | duplicate (key : PyStr)
deriving DecidableEq, Repr

/-- A token. -/
inductive Token (F : Type) where
  | lbrace
  | rbrace
  | lbracket
  | rbracket
  | comma
  | colon
  | string (s : PyStr)
  | scalar (s : Scalar F)
  /-- An error at this point of the text. -/
  | bad (e : LoadExn)
deriving DecidableEq, Repr

end Json

/-- A value of `json.loads`; an object is a dictionary. -/
inductive Json (F : Type) where
  | scalar (s : Json.Scalar F)
  | string (s : PyStr)
  | array (items : List (Json F))
  | object (members : List (PyStr × Json F))

namespace Json

variable {F : Type} (floats : Floats F)

/-! ## Words and numbers -/

/-- The longest integer that `int` converts (`sys.get_int_max_str_digits()`). -/
def maxIntDigits : ℕ := 4300

/-- The value of a text of decimal digits. -/
def digitsValue (ds : PyStr) : ℕ := ds.foldl (fun n d => 10 * n + (d.val - 0x30)) 0

/-- `-?(?:0|[1-9][0-9]*)`: the sign, the digits, and what is left. -/
def scanInt (s : PyStr) : Option (Bool × PyStr × PyStr) :=
  let negative := s.head? == some (ofChar '-')
  let body := if negative then s.tail else s
  match body with
  | [] => none
  | d :: ds =>
    if d = ofChar '0' then some (negative, [d], ds)
    else if d.isDigit then
      some (negative, d :: ds.takeWhile PyChar.isDigit, ds.dropWhile PyChar.isDigit)
    else none

/-- `(\.[0-9]+)?`: what is left. -/
def scanFrac (s : PyStr) : PyStr :=
  match s with
  | c :: d :: ds =>
    if c = ofChar '.' ∧ d.isDigit then ds.dropWhile PyChar.isDigit else s
  | _ => s

/-- `([eE][-+]?[0-9]+)?`: what is left. -/
def scanExp (s : PyStr) : PyStr :=
  match s with
  | c :: cs =>
    if c = ofChar 'e' ∨ c = ofChar 'E' then
      let body :=
        if cs.head? = some (ofChar '-') ∨ cs.head? = some (ofChar '+') then cs.tail else cs
      if (body.takeWhile PyChar.isDigit) = [] then s else body.dropWhile PyChar.isDigit
    else s
  | [] => s

/-- The number at the start of a text, as a token, and what is left. -/
def scanNumber (s : PyStr) : Option (Token F × PyStr) := do
  let (negative, digits, afterInt) ← scanInt s
  let rest := scanExp (scanFrac afterInt)
  if rest.length < afterInt.length then
    return (.scalar (.float (floats.parse (s.take (s.length - rest.length)))), rest)
  else if digits.length > maxIntDigits then return (.bad .overlong, rest)
  else
    let n : ℤ := digitsValue digits
    return (.scalar (.int (if negative then -n else n)), rest)

/-- The word or number at the start of a text, as a token, and what is left. -/
def scanScalar (s : PyStr) : Option (Token F × PyStr) :=
  let word (w : PyStr) (v : Scalar F) : Option (Token F × PyStr) :=
    if PyStr.startswith w s then some (.scalar v, s.drop w.length) else none
  word (py "null") .null <|> word (py "true") (.bool true) <|> word (py "false") (.bool false) <|>
    scanNumber floats s <|> word (py "NaN") (.float (floats.parse (py "NaN"))) <|>
    word (py "Infinity") (.float (floats.parse (py "Infinity"))) <|>
    word (py "-Infinity") (.float (floats.parse (py "-Infinity")))

/-- The tokens of a text without white space, quotes, brackets, braces, commas and colons. -/
def scanRun (run : PyStr) : List (Token F) :=
  if run = [] then []
  else
    match scanScalar floats run with
    | none => [.bad .decode]
    | some (token, []) => [token]
    | some (token, _ :: _) => [token, .bad .decode]

/-! ## Strings -/

/-- A code unit of a string: a character as it stands, or one that was written as `\uXXXX`. -/
inductive StrUnit where
  | raw (c : PyChar)
  | escaped (c : PyChar)
deriving DecidableEq, Repr

/-- The character of a surrogate pair. -/
def joinSurrogates (high low : PyChar) : PyChar :=
  ⟨min (0x10000 + ((high.val - 0xD800) * 0x400 + (low.val - 0xDC00))) 0x10FFFF, by omega⟩

/-- The units of a string as text, where two escapes that form a surrogate pair are one. -/
def joinUnits : List StrUnit → PyStr
  | [] => []
  | .raw c :: us => c :: joinUnits us
  | [.escaped c] => [c]
  | .escaped c :: .raw d :: us => c :: d :: joinUnits us
  | .escaped c :: .escaped d :: us =>
      if (0xD800 ≤ c.val ∧ c.val ≤ 0xDBFF) ∧ 0xDC00 ≤ d.val ∧ d.val ≤ 0xDFFF then
        joinSurrogates c d :: joinUnits us
      else c :: joinUnits (.escaped d :: us)

/-- `BACKSLASH`. -/
def backslash : List (PyChar × PyChar) :=
  [(ofChar '"', ofChar '"'), (ofChar '\\', ofChar '\\'), (ofChar '/', ofChar '/'),
    (ofChar 'b', 0x08), (ofChar 'f', 0x0C), (ofChar 'n', 0x0A), (ofChar 'r', 0x0D),
    (ofChar 't', 0x09)]

/-! ## Tokens -/

/-- `[ \t\n\r]`. -/
def isWhitespace (c : PyChar) : Bool :=
  c.val == 0x20 || c.val == 0x09 || c.val == 0x0A || c.val == 0x0D

/-- The tokens of one character. -/
def punctuation : List (PyChar × Token F) :=
  [(ofChar '{', .lbrace), (ofChar '}', .rbrace), (ofChar '[', .lbracket), (ofChar ']', .rbracket),
    (ofChar ',', .comma), (ofChar ':', .colon)]

/-- Where the reader is: outside strings, after a part of a word; in a string; after a
backslash; or within the digits of `\uXXXX`. -/
inductive LexState where
  | plain (run : PyStr)
  | text (units : List StrUnit)
  | escape (units : List StrUnit)
  | hex (units : List StrUnit) (digits value : ℕ)

/-- The tokens of the rest of a text. -/
def lex : LexState → PyStr → List (Token F)
  | .plain run, [] => scanRun floats run
  | .plain run, c :: cs =>
      if isWhitespace c then scanRun floats run ++ lex (.plain []) cs
      else
        match punctuation.lookup c with
        | some token => scanRun floats run ++ token :: lex (.plain []) cs
        | none =>
          if c = ofChar '"' then scanRun floats run ++ lex (.text []) cs
          else lex (.plain (run ++ [c])) cs
  | .text _, [] => [.bad .decode]
  | .text units, c :: cs =>
      if c = ofChar '"' then .string (joinUnits units) :: lex (.plain []) cs
      else if c = ofChar '\\' then lex (.escape units) cs
      else if c.val < 0x20 then [.bad .decode]
      else lex (.text (units ++ [.raw c])) cs
  | .escape _, [] => [.bad .decode]
  | .escape units, c :: cs =>
      if c = ofChar 'u' then lex (.hex units 0 0) cs
      else
        match backslash.lookup c with
        | some d => lex (.text (units ++ [.raw d])) cs
        | none => [.bad .decode]
  | .hex _ _ _, [] => [.bad .decode]
  | .hex units digits value, c :: cs =>
      match c.hexValue with
      | none => [.bad .decode]
      | some d =>
        if digits = 3 then lex (.text (units ++ [.escaped (Fin.ofNat _ (16 * value + d))])) cs
        else lex (.hex units (digits + 1) (16 * value + d)) cs

/-! ## Values -/

/-- An array or an object that is not closed yet: what it holds so far, and for an object the
key whose value comes next. -/
inductive Frame (F : Type) where
  | array (items : List (Json F))
  | object (members : List (PyStr × Json F)) (key : PyStr)

variable (hook : List (PyStr × Json F) → Except LoadExn (Json F))

mutual

/-- Read a value within the open frames, and go on. -/
def readValue (frames : List (Frame F)) : List (Token F) → Except LoadExn (Json F)
  | .scalar s :: ts => readRest (.scalar s) frames ts
  | .string s :: ts => readRest (.string s) frames ts
  | .lbracket :: .rbracket :: ts => readRest (.array []) frames ts
  | .lbracket :: ts => readValue (.array [] :: frames) ts
  | .lbrace :: .rbrace :: ts =>
      match hook [] with
      | .error e => .error e
      | .ok v => readRest v frames ts
  | .lbrace :: .string key :: .colon :: ts => readValue (.object [] key :: frames) ts
  | .bad e :: _ => .error e
  | _ => .error .decode

/-- Go on after a value within the open frames. -/
def readRest (v : Json F) (frames : List (Frame F)) : List (Token F) → Except LoadExn (Json F)
  | [] =>
      match frames with
      | [] => .ok v
      | _ :: _ => .error .decode
  | .comma :: .string key :: .colon :: ts =>
      match frames with
      | .object members key' :: frames =>
          readValue (.object (members ++ [(key', v)]) key :: frames) ts
      | _ => .error .decode
  | .comma :: ts =>
      match frames with
      | .array items :: frames => readValue (.array (items ++ [v]) :: frames) ts
      | _ => .error .decode
  | .rbracket :: ts =>
      match frames with
      | .array items :: frames => readRest (.array (items ++ [v])) frames ts
      | _ => .error .decode
  | .rbrace :: ts =>
      match frames with
      | .object members key :: frames =>
          match hook (members ++ [(key, v)]) with
          | .error e => .error e
          | .ok v => readRest v frames ts
      | _ => .error .decode
  | _ => .error .decode

end

/-- `json.loads(s, object_pairs_hook=hook)`. -/
def loads (s : PyStr) : Except LoadExn (Json F) :=
  if s.head? = some 0xFEFF then .error .decode else readValue hook [] (lex floats (.plain []) s)

/-- `dict(pairs)`, the hook of a call without a hook. -/
def dictHook (pairs : List (PyStr × Json F)) : Except LoadExn (Json F) :=
  .ok (.object (pairs.foldl (fun d p => Dict.set d p.1 p.2) []))

/-- The loop of `_reject_duplicate_keys` over the pairs that are left. -/
def rejectDuplicates (result : List (PyStr × Json F)) :
    List (PyStr × Json F) → Except LoadExn (List (PyStr × Json F))
  | [] => .ok result
  | (key, value) :: pairs =>
      if key ∈ result.map (·.1) then .error (.duplicate key)
      else rejectDuplicates (result ++ [(key, value)]) pairs

/-- `_reject_duplicate_keys`. -/
def rejectDuplicateKeys (pairs : List (PyStr × Json F)) : Except LoadExn (Json F) :=
  (rejectDuplicates [] pairs).map .object

/-- `document == 1` of a value that JSON can hold. -/
def isOne : Json F → Bool
  | .scalar (.int n) => n == 1
  | .scalar (.bool b) => b
  | .scalar (.float f) => floats.eqInt f 1
  | _ => false

end Json

end MailGate
