import MailGate.Lib.Regex
import MailGate.Mail.Parse

/-!
# The patterns for prompt injection

`PROMPT_INJECTION_PATTERNS` as regular expressions: each of them, written as a pattern of the
module `re`, is the text in the table of the source.
-/

namespace MailGate

open PyStr Regex

/-- What a pattern says about one character. -/
inductive CharClass where
  | lit (c : Char)
  /-- `.`, which `re.DOTALL` lets stand for line ends too. -/
  | any
  /-- `[...]`, with the first and the last character of each range. -/
  | set (ranges : List (Char × Char))
deriving DecidableEq, Repr

/-- The lower-case letter that a character stands for in these patterns when case is ignored. -/
def ignorePatternCase (c : PyChar) : PyChar :=
  if c = ofChar 'Ä' then ofChar 'ä'
  else if c = ofChar 'Ö' then ofChar 'ö'
  else if c = ofChar 'Ü' then ofChar 'ü'
  else if c.val = 0x1E9E then ofChar 'ß'
  else ignoreCase c

/-- The character belongs to the class, upper and lower case alike. -/
def CharClass.test : CharClass → PyChar → Bool
  | lit c, x => ignorePatternCase x == ofChar c
  | any, _ => true
  | set ranges, x =>
      ranges.any fun range =>
        ofChar range.1 ≤ ignorePatternCase x && ignorePatternCase x ≤ ofChar range.2

/-! ## Writing patterns -/

/-- The class in a pattern. -/
def CharClass.text : CharClass → List Char
  | lit c => [c]
  | any => ['.']
  | set ranges =>
      '[' :: (ranges.flatMap fun range =>
        if range.1 = range.2 then [range.1] else [range.1, '-', range.2]) ++ [']']

/-- Alternatives stand in a group of their own inside a sequence. -/
def grouped (r : Regex CharClass) (text : List Char) : List Char :=
  match r with
  | .alt _ _ => ['(', '?', ':'] ++ text ++ [')']
  | _ => text

/-- The expression as a pattern of `re`. -/
def patternChars : Regex CharClass → List Char
  | .empty => []
  | .one a => a.text
  | .upTo a 1 => a.text ++ ['?']
  | .upTo a n => a.text ++ ['\x7b', '0', ','] ++ Nat.toDigits 10 n ++ ['\x7d']
  | .star a => a.text ++ ['*']
  | .boundary => ['\\', 'b']
  | .seq r s => grouped r (patternChars r) ++ grouped s (patternChars s)
  | .alt r s => patternChars r ++ '|' :: patternChars s

/-- The same as a Python string. -/
def patternText (r : Regex CharClass) : PyStr := (patternChars r).map ofChar

/-- A text that stands for itself. -/
def literal (s : String) : Regex CharClass := sequence (s.toList.map fun c => .one (.lit c))

/-- `(?:a|b|c)`. -/
def anyOf (words : List String) : Regex CharClass := choice (words.map literal)

/-- `.{0,n}`. -/
def gap (n : ℕ) : Regex CharClass := .upTo .any n

/-- `c?`. -/
def optional (c : Char) : Regex CharClass := .upTo (.lit c) 1

/-- `[ -]`. -/
def blankOrHyphen : CharClass := .set [(' ', ' '), ('-', '-')]

/-- `PROMPT_INJECTION_PATTERNS`. -/
def promptInjectionRegexes : List (Regex CharClass) :=
  [sequence [.boundary, anyOf ["ignore", "disregard", "forget"], .boundary, gap 80, .boundary,
      anyOf ["previous", "prior", "above", "system", "developer"], .boundary, gap 40, .boundary,
      anyOf ["instruction", "message", "prompt"], optional 's', .boundary],
    sequence [.boundary, anyOf ["system prompt", "developer message"], .boundary],
    sequence [.boundary, anyOf ["reveal", "print", "show", "send", "exfiltrate"], .boundary,
      gap 80, .boundary,
      choice (["secret", "password", "credential", "token"].map literal ++
        [sequence [literal "api", .upTo blankOrHyphen 1, literal "key"]]),
      optional 's', .boundary],
    sequence [.boundary, anyOf ["call", "use", "invoke", "run", "execute"], .boundary, gap 40,
      .boundary, anyOf ["tool", "command", "shell", "terminal", "api"], optional 's', .boundary],
    sequence [.boundary, literal "you are now", .boundary, gap 80, .boundary,
      anyOf ["assistant", "agent", "system", "administrator"], .boundary],
    sequence [.boundary, literal "ignoriere", .boundary, gap 80, .boundary,
      anyOf ["vorherige", "obige", "system", "entwickler"],
      .star (.set [('a', 'z'), ('ä', 'ä'), ('ö', 'ö'), ('ü', 'ü'), ('ß', 'ß'), ('-', '-')]),
      .boundary, gap 40, .boundary, anyOf ["anweisung", "nachricht", "prompt"], optional 's',
      .boundary],
    sequence [.boundary, anyOf ["zeige", "sende", "verrate", "extrahiere"], .boundary, gap 80,
      .boundary,
      choice (["geheimnis", "passwort", "zugangsdaten", "token"].map literal ++
        [sequence [literal "api", .upTo blankOrHyphen 1, literal "schlüssel"]]), .boundary],
    sequence [.boundary, anyOf ["führe", "starte", "verwende"], .boundary, gap 40, .boundary,
      anyOf ["werkzeug", "befehl", "shell", "terminal", "api"], .boundary]]

lemma py_eq_map {s : String} {l : List Char} (h : s = String.ofList l) : py s = l.map ofChar := by
  rw [h, py, String.toList_ofList]

set_option maxRecDepth 4000 in
/-- These are the patterns of the table. -/
lemma promptInjectionPatterns_eq :
    promptInjectionPatterns = promptInjectionRegexes.map patternText := by
  simp only [promptInjectionPatterns, promptInjectionRegexes, List.map_cons, List.map_nil,
    List.cons.injEq, and_true]
  refine ⟨?_, ?_, ?_, ?_, ?_, ?_, ?_, ?_⟩
  all_goals exact py_eq_map rfl

end MailGate
