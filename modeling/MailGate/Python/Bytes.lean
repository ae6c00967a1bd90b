import MailGate.Python.Str

/-!
# Python bytes

The methods of `bytes`, the ASCII codec, and the two byte patterns that the ingestion code
applies to the replies of a mail server.
-/

namespace MailGate

namespace Bytes

/-- ASCII white space, which is also `\s` in a bytes pattern. -/
def isSpace (b : UInt8) : Bool := b == 0x20 || (0x09 ≤ b && b ≤ 0x0D)

/-- `[0-9]`, which is also `\d` in a bytes pattern. -/
def isDigit (b : UInt8) : Bool := 0x30 ≤ b && b ≤ 0x39

/-- ASCII lower case. -/
def lower (b : UInt8) : UInt8 := if 0x41 ≤ b && b ≤ 0x5A then b + 0x20 else b

/-- `s.split()`. -/
def splitWords (s : Bytes) : List Bytes := (s.splitOnP isSpace).filter (· ≠ [])

/-- `s.isdigit()`. -/
def isdigit (s : Bytes) : Bool := !s.isEmpty && s.all isDigit

/-- The longest decimal text that `int` converts (`sys.get_int_max_str_digits()`). -/
def maxIntDigits : ℕ := 4300

/-- `int(s)` of a text of digits; `none` is the `ValueError` of an overlong text. -/
def int (s : Bytes) : Option ℕ :=
  if s.length ≤ maxIntDigits then some (s.foldl (fun n b => 10 * n + (b.toNat - 0x30)) 0)
  else none

/-- `sep.join(xs)`. -/
def join (sep : Bytes) (xs : List Bytes) : Bytes := sep.intercalate xs

/-- The group of `KEYWORD\s+(\d+)` matched at the start of `s`, upper and lower case alike. -/
def matchNumber (keyword s : Bytes) : Option Bytes :=
  if (s.take keyword.length).map lower = keyword.map lower then
    let rest := s.drop keyword.length
    let digits := (rest.dropWhile isSpace).takeWhile isDigit
    if rest.takeWhile isSpace = [] ∨ digits = [] then none else some digits
  else none

/-- The group of the first match of `KEYWORD\s+(\d+)` in `s`. -/
def searchNumber (keyword : Bytes) : Bytes → Option Bytes
  | [] => none
  | b :: s =>
      match matchNumber keyword (b :: s) with
      | some digits => some digits
      | none => searchNumber keyword s

/-- `s.split(sep, maxsplit)` for a separator of one byte. -/
def splitMax (sep : UInt8) : ℕ → Bytes → List Bytes
  | 0, s => [s]
  | maxsplit + 1, s =>
      if sep ∈ s then
        s.takeWhile (· ≠ sep) :: splitMax sep maxsplit (s.dropWhile (· ≠ sep)).tail
      else [s]

/-- `s.startswith(w)`. -/
def startswith (s w : Bytes) : Bool := w.isPrefixOf s

/-- `s.decode("ascii")`; `none` is the `UnicodeDecodeError`. -/
def decodeAscii : Bytes → Option PyStr
  | [] => some []
  | b :: bs =>
      if h : b.toNat < 0x80 then
        (decodeAscii bs).map fun cs => (⟨b.toNat, by omega⟩ : PyChar) :: cs
      else none

/-- What is decoded is ASCII. -/
lemma ascii_of_decodeAscii {b : Bytes} {s : PyStr} (h : decodeAscii b = some s) :
    ∀ c ∈ s, c.val < 0x80 := by
  induction b generalizing s with
  | nil =>
    cases h
    simp
  | cons x b ih =>
    rw [decodeAscii] at h
    split at h
    · rename_i hx
      obtain ⟨cs, hcs, rfl⟩ := Option.map_eq_some_iff.1 h
      rw [List.forall_mem_cons]
      exact ⟨hx, ih hcs⟩
    · cases h

@[simp] lemma splitMax_zero (sep : UInt8) (s : Bytes) : splitMax sep 0 s = [s] := rfl

/-- A split cuts at the first separator. -/
lemma splitMax_append {sep : UInt8} {a : Bytes} (ha : sep ∉ a) (n : ℕ) (b : Bytes) :
    splitMax sep (n + 1) (a ++ sep :: b) = a :: splitMax sep n b := by
  have hall : ∀ x ∈ a, decide (x ≠ sep) = true := by
    intro x hx
    simp only [ne_eq, decide_not, Bool.not_eq_eq_eq_not, Bool.not_true, decide_eq_false_iff_not]
    rintro rfl
    exact ha hx
  have htake : (a ++ sep :: b).takeWhile (· ≠ sep) = a := by
    rw [List.takeWhile_append_of_pos hall]
    simp
  have hdrop : (a ++ sep :: b).dropWhile (· ≠ sep) = sep :: b := by
    rw [List.dropWhile_append_of_pos hall]
    simp
  rw [splitMax, if_pos (by simp), htake, hdrop]
  rfl

end Bytes

namespace PyStr

/-- `s.encode("ascii")`; `none` is the `UnicodeEncodeError`. -/
def encodeAscii : PyStr → Option Bytes
  | [] => some []
  | c :: cs => if c.val < 0x80 then (encodeAscii cs).map (c.val.toUInt8 :: ·) else none

lemma toNat_toUInt8 {n : ℕ} (h : n < 0x100) : n.toUInt8.toNat = n := by
  simp only [Nat.toUInt8, UInt8.toNat_ofNat']
  omega

/-- The ASCII codec is faithful. -/
lemma decodeAscii_of_encodeAscii {s : PyStr} {b : Bytes} (h : encodeAscii s = some b) :
    Bytes.decodeAscii b = some s := by
  induction s generalizing b with
  | nil =>
    cases h
    rfl
  | cons c cs ih =>
    rw [encodeAscii] at h
    split at h
    swap
    · cases h
    rename_i hc
    obtain ⟨bs, hbs, rfl⟩ := Option.map_eq_some_iff.1 h
    have hval : c.val.toUInt8.toNat = c.val := toNat_toUInt8 (by omega)
    rw [Bytes.decodeAscii, dif_pos (by omega), ih hbs]
    simp only [Option.map_some, Option.some.injEq, List.cons.injEq, and_true]
    exact Fin.ext hval

/-- A text of ASCII characters has an encoding. -/
lemma encodeAscii_isSome {s : PyStr} (h : ∀ c ∈ s, c.val < 0x80) : ∃ b, encodeAscii s = some b := by
  induction s with
  | nil => exact ⟨[], rfl⟩
  | cons c cs ih =>
    rw [List.forall_mem_cons] at h
    obtain ⟨bs, hbs⟩ := ih h.2
    exact ⟨_, by rw [encodeAscii, if_pos h.1, hbs]; rfl⟩

lemma ascii_of_encodeAscii {s : PyStr} {b : Bytes} (h : encodeAscii s = some b) :
    ∀ c ∈ s, c.val < 0x80 := by
  induction s generalizing b with
  | nil => simp
  | cons c cs ih =>
    rw [encodeAscii] at h
    split at h
    swap
    · cases h
    rename_i hc
    obtain ⟨bs, hbs, -⟩ := Option.map_eq_some_iff.1 h
    rw [List.forall_mem_cons]
    exact ⟨hc, ih hbs⟩

lemma encode_ascii {s : PyStr} (h : ∀ c ∈ s, c.val < 0x80) :
    s.encode = some (s.map fun c => c.val.toUInt8) := by
  induction s with
  | nil => rfl
  | cons c s ih =>
    rw [List.forall_mem_cons] at h
    have hsurrogate : c.isSurrogate = false := by
      simp only [PyChar.isSurrogate, Bool.and_eq_false_iff, decide_eq_false_iff_not]
      omega
    simp [encode, encodeChar, hsurrogate, h.1, ih h.2]

/-- Where the ASCII codec applies, UTF-8 is the same. -/
lemma encode_of_encodeAscii {s : PyStr} {b : Bytes} (h : encodeAscii s = some b) :
    s.encode = some b := by
  rw [encode_ascii (ascii_of_encodeAscii h)]
  induction s generalizing b with
  | nil =>
    cases h
    rfl
  | cons c cs ih =>
    rw [encodeAscii] at h
    split at h
    swap
    · cases h
    obtain ⟨bs, hbs, rfl⟩ := Option.map_eq_some_iff.1 h
    have hrest := Option.some.inj (ih hbs)
    simp [hrest]

lemma encodeAscii_length {s : PyStr} {b : Bytes} (h : encodeAscii s = some b) :
    b.length = s.length := by
  induction s generalizing b with
  | nil =>
    cases h
    rfl
  | cons c cs ih =>
    rw [encodeAscii] at h
    split at h
    swap
    · cases h
    obtain ⟨bs, hbs, rfl⟩ := Option.map_eq_some_iff.1 h
    simp [ih hbs]

/-- The codec goes character by character. -/
lemma encodeAscii_filter {p : PyChar → Bool} {q : UInt8 → Bool}
    (hpq : ∀ c : PyChar, c.val < 0x80 → q c.val.toUInt8 = p c) {s : PyStr} {b : Bytes}
    (h : encodeAscii s = some b) : encodeAscii (s.filter p) = some (b.filter q) := by
  induction s generalizing b with
  | nil =>
    cases h
    rfl
  | cons c cs ih =>
    rw [encodeAscii] at h
    split at h
    swap
    · cases h
    rename_i hc
    obtain ⟨bs, hbs, rfl⟩ := Option.map_eq_some_iff.1 h
    rw [List.filter_cons, List.filter_cons, hpq c hc]
    split
    · rw [encodeAscii, if_pos hc, ih hbs, Option.map_some]
    · exact ih hbs

lemma mem_of_mem_encodeAscii {s : PyStr} {b : Bytes} (h : encodeAscii s = some b) {x : UInt8}
    (hx : x ∈ b) : ∃ c ∈ s, c.val = x.toNat := by
  induction s generalizing b with
  | nil =>
    cases h
    simp at hx
  | cons c cs ih =>
    rw [encodeAscii] at h
    split at h
    swap
    · cases h
    rename_i hc
    obtain ⟨bs, hbs, rfl⟩ := Option.map_eq_some_iff.1 h
    rcases List.mem_cons.1 hx with rfl | hx
    · exact ⟨c, List.mem_cons_self, (toNat_toUInt8 (by omega)).symm⟩
    · obtain ⟨d, hd, hval⟩ := ih hbs hx
      exact ⟨d, List.mem_cons_of_mem _ hd, hval⟩

end PyStr

end MailGate
