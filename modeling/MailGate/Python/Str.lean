import Mathlib.Algebra.GroupWithZero.Nat
import Mathlib.Data.List.Basic
import Mathlib.Data.List.Infix
import Mathlib.Data.List.Intervals
import Mathlib.Data.List.DropRight
import Mathlib.Tactic.Common

/-!
# Python strings

A Python string is a sequence of code points.  Unlike a Lean `String` it may hold lone
surrogates, and decoding hostile bytes produces such strings, so they are lists of code
points here.  Only the methods that the application calls are defined.
-/

namespace MailGate

/-- A code point, surrogates included. -/
abbrev PyChar : Type := Fin 0x110000

instance PyChar.neZero : NeZero (0x110000 : ℕ) := ⟨by decide⟩

/-- A Python `str`. -/
abbrev PyStr : Type := List PyChar

instance PyChar.lawfulBEq : LawfulBEq PyChar := inferInstance

instance PyStr.lawfulBEq : LawfulBEq PyStr := inferInstance

/-- A Python `bytes` object. -/
abbrev Bytes : Type := List UInt8

/-- The code point of a character. -/
def ofChar (c : Char) : PyChar :=
  ⟨c.toNat, by
    have h := c.valid
    simp only [UInt32.isValidChar, Nat.isValidChar] at h
    have hval : c.toNat = c.val.toNat := rfl
    omega⟩

/-- A string literal of the source. -/
def py (s : String) : PyStr := s.toList.map ofChar

/-- A bytes literal of the source. -/
def bytes (s : String) : Bytes := s.toList.map fun c => c.toNat.toUInt8

namespace PyChar

/-- A surrogate code point, which no encoding of Unicode text can carry. -/
def isSurrogate (c : PyChar) : Bool := 0xD800 ≤ c.val && c.val ≤ 0xDFFF

/-- `str.isspace` on one character; `\s` and `str.split` use the same set. -/
def isSpace (c : PyChar) : Bool :=
  let n := c.val
  (0x09 ≤ n && n ≤ 0x0D) || (0x1C ≤ n && n ≤ 0x20) || n == 0x85 || n == 0xA0 ||
    n == 0x1680 || (0x2000 ≤ n && n ≤ 0x200A) || n == 0x2028 || n == 0x2029 ||
    n == 0x202F || n == 0x205F || n == 0x3000

/-- The characters at which `str.splitlines` breaks a line. -/
def isLineBreak (c : PyChar) : Bool :=
  let n := c.val
  (0x0A ≤ n && n ≤ 0x0D) || (0x1C ≤ n && n ≤ 0x1E) || n == 0x85 || n == 0x2028 || n == 0x2029

/-- `[0-9]`. -/
def isDigit (c : PyChar) : Bool := 0x30 ≤ c.val && c.val ≤ 0x39

/-- `[a-z0-9]`, upper and lower case alike. -/
def isAlnum (c : PyChar) : Bool :=
  isDigit c || (0x41 ≤ c.val && c.val ≤ 0x5A) || (0x61 ≤ c.val && c.val ≤ 0x7A)

/-- `[0-9A-Fa-f]`: the value of the digit. -/
def hexValue (c : PyChar) : Option ℕ :=
  let n := c.val
  if 0x30 ≤ n ∧ n ≤ 0x39 then some (n - 0x30)
  else if 0x41 ≤ n ∧ n ≤ 0x46 then some (n - 0x37)
  else if 0x61 ≤ n ∧ n ≤ 0x66 then some (n - 0x57)
  else none

/-- A capital letter has a small letter. -/
lemma val_add_lt {c : PyChar} (h : 0x41 ≤ c.val ∧ c.val ≤ 0x5A) : c.val + 0x20 < 0x110000 := by
  omega

/-- A small letter has a capital letter. -/
lemma val_sub_lt {c : PyChar} (h : 0x61 ≤ c.val ∧ c.val ≤ 0x7A) : c.val - 0x20 < 0x110000 := by
  omega

lemma not_space_of_surrogate {c : PyChar} (h : isSurrogate c = true) : isSpace c = false := by
  simp only [isSurrogate, Bool.and_eq_true, decide_eq_true_eq] at h
  simp only [isSpace, Bool.or_eq_false_iff, Bool.and_eq_false_iff, decide_eq_false_iff_not,
    beq_eq_false_iff_ne]
  omega

lemma not_lineBreak_of_surrogate {c : PyChar} (h : isSurrogate c = true) :
    isLineBreak c = false := by
  simp only [isSurrogate, Bool.and_eq_true, decide_eq_true_eq] at h
  simp only [isLineBreak, Bool.or_eq_false_iff, Bool.and_eq_false_iff, decide_eq_false_iff_not,
    beq_eq_false_iff_ne]
  omega

end PyChar

namespace PyStr

open PyChar

/-- `s.strip()`. -/
def strip (s : PyStr) : PyStr := (s.dropWhile isSpace).rdropWhile isSpace

/-- `s.rstrip()`. -/
def rstrip (s : PyStr) : PyStr := s.rdropWhile isSpace

/-- `s.split()`. -/
def splitWords (s : PyStr) : List PyStr := (s.splitOnP isSpace).filter (· ≠ [])

/-- `sep.join(xs)`. -/
def join (sep : PyStr) (xs : List PyStr) : PyStr := sep.intercalate xs

/-- `s.replace(c, "")`. -/
def remove (c : PyChar) (s : PyStr) : PyStr := s.filter (· ≠ c)

/-- `s.splitlines()`. -/
def splitlines : PyStr → List PyStr
  | [] => []
  | [c] => if isLineBreak c then [[]] else [[c]]
  | c :: d :: cs =>
      if c = 0x0D ∧ d = 0x0A then [] :: splitlines cs
      else if isLineBreak c then [] :: splitlines (d :: cs)
      else
        match splitlines (d :: cs) with
        | [] => [[c]]
        | l :: ls => (c :: l) :: ls

/-- `w in s`. -/
def contains (w s : PyStr) : Bool := decide (w <:+: s)

/-- `s.startswith(w)`. -/
def startswith (w s : PyStr) : Bool := w.isPrefixOf s

/-- `str(n)`. -/
def ofNat (n : ℕ) : PyStr := py (toString n)

/-- `s.encode("utf-8")` of one code point; a surrogate cannot be encoded. -/
def encodeChar (c : PyChar) : Option Bytes :=
  let n := c.val
  if isSurrogate c then none
  else if n < 0x80 then some [n.toUInt8]
  else if n < 0x800 then some [(0xC0 + n / 0x40).toUInt8, (0x80 + n % 0x40).toUInt8]
  else if n < 0x10000 then
    some [(0xE0 + n / 0x1000).toUInt8, (0x80 + n / 0x40 % 0x40).toUInt8,
      (0x80 + n % 0x40).toUInt8]
  else
    some [(0xF0 + n / 0x40000).toUInt8, (0x80 + n / 0x1000 % 0x40).toUInt8,
      (0x80 + n / 0x40 % 0x40).toUInt8, (0x80 + n % 0x40).toUInt8]

/-- `s.encode("utf-8")`. -/
def encode : PyStr → Option Bytes
  | [] => some []
  | c :: cs => do
      let b ← encodeChar c
      let bs ← encode cs
      return b ++ bs

/-- A text that can be encoded and that a PostgreSQL text holds: no surrogate, no U+0000. -/
def TextOk (s : PyStr) : Prop := ∀ c ∈ s, isSurrogate c = false ∧ c ≠ 0

instance (s : PyStr) : Decidable (TextOk s) := List.decidableBAll _ s

lemma contains_iff {w s : PyStr} : contains w s = true ↔ w <:+: s := decide_eq_true_iff

/-! ### Which characters survive -/

lemma mem_join {sep : PyStr} {xs : List PyStr} {c : PyChar} (h : c ∈ join sep xs) :
    c ∈ sep ∨ ∃ x ∈ xs, c ∈ x := by
  induction xs with
  | nil => simp [join, List.intercalate] at h
  | cons x xs ih =>
    cases xs with
    | nil => exact .inr ⟨x, by simp, by simpa [join, List.intercalate] using h⟩
    | cons y ys =>
      have hstep : join sep (x :: y :: ys) = x ++ sep ++ join sep (y :: ys) := by
        simp [join, List.intercalate]
      rw [hstep, List.mem_append, List.mem_append] at h
      rcases h with (h | h) | h
      · exact .inr ⟨x, by simp, h⟩
      · exact .inl h
      · rcases ih h with h | ⟨z, hz, hc⟩
        · exact .inl h
        · exact .inr ⟨z, List.mem_cons_of_mem _ hz, hc⟩

lemma mem_join_of_mem {sep : PyStr} {xs : List PyStr} {x : PyStr} {c : PyChar} (hx : x ∈ xs)
    (hc : c ∈ x) : c ∈ join sep xs := by
  induction xs with
  | nil => simp at hx
  | cons y ys ih =>
    cases ys with
    | nil =>
      obtain rfl : x = y := by simpa using hx
      simpa [join, List.intercalate] using hc
    | cons z zs =>
      have hstep : join sep (y :: z :: zs) = y ++ sep ++ join sep (z :: zs) := by
        simp [join, List.intercalate]
      rw [hstep, List.mem_append, List.mem_append]
      rcases List.mem_cons.1 hx with rfl | hx
      · exact .inl (.inl hc)
      · exact .inr (ih hx)

/-- A piece of a text consists of characters of the text. -/
lemma subset_of_mem_splitOn {s piece : PyStr} {d : PyChar} (hp : piece ∈ s.splitOn d) :
    piece ⊆ s := by
  intro c hc
  have hjoin : c ∈ join [d] (s.splitOn d) := mem_join_of_mem hp hc
  rwa [join, List.intercalate_splitOn] at hjoin

/-- The pieces of a text hold its other characters. -/
lemma mem_splitOn {d c : PyChar} {s : PyStr} (hc : c ∈ s) (hne : c ≠ d) :
    ∃ l ∈ s.splitOn d, c ∈ l := by
  have hjoin : [d].intercalate (s.splitOn d) = s := List.intercalate_splitOn d
  rw [← hjoin] at hc
  rcases mem_join hc with hsep | hlabel
  · exact absurd (List.mem_singleton.1 hsep) hne
  · exact hlabel

/-- A text without surrogates can be encoded. -/
lemma exists_encode {s : PyStr} (h : ∀ c ∈ s, isSurrogate c = false) : ∃ b, s.encode = some b := by
  induction s with
  | nil => exact ⟨[], rfl⟩
  | cons c s ih =>
    rw [List.forall_mem_cons] at h
    obtain ⟨bs, hbs⟩ := ih h.2
    obtain ⟨b, hb⟩ : ∃ b, encodeChar c = some b := by
      rw [encodeChar, h.1, if_neg Bool.false_ne_true]
      split
      · exact ⟨_, rfl⟩
      split
      · exact ⟨_, rfl⟩
      split
      · exact ⟨_, rfl⟩
      · exact ⟨_, rfl⟩
    exact ⟨b ++ bs, by rw [encode, hb, hbs]; rfl⟩

lemma mem_of_mem_splitWords {s w : PyStr} {c : PyChar} (hw : w ∈ splitWords s) (hc : c ∈ w) :
    c ∈ s := by
  have hw' : w ∈ s.splitOnP isSpace := (List.mem_filter.1 hw).1
  clear hw
  induction s generalizing w with
  | nil => simp_all [List.splitOnP_nil]
  | cons d s ih =>
    rw [List.splitOnP_cons_eq_if_modifyHead] at hw'
    split at hw'
    · rcases List.mem_cons.1 hw' with rfl | hw'
      · simp at hc
      · exact List.mem_cons_of_mem _ (ih hc hw')
    · obtain ⟨v, vs, hvs⟩ := List.exists_cons_of_ne_nil (List.splitOnP_ne_nil isSpace s)
      rw [hvs, List.modifyHead_cons] at hw'
      rcases List.mem_cons.1 hw' with rfl | hw'
      · rcases List.mem_cons.1 hc with rfl | hc
        · simp
        · exact List.mem_cons_of_mem _ (ih hc (by simp [hvs]))
      · exact List.mem_cons_of_mem _ (ih hc (by simp [hvs, hw']))

lemma mem_of_mem_strip {s : PyStr} {c : PyChar} (h : c ∈ strip s) : c ∈ s :=
  (List.dropWhile_suffix isSpace).subset ((List.rdropWhile_prefix isSpace _).subset h)

lemma mem_rdropWhile {p : PyChar → Bool} {s : PyStr} {c : PyChar} (hc : p c = false)
    (h : c ∈ s) : c ∈ s.rdropWhile p := by
  rw [List.rdropWhile, List.mem_reverse]
  have hmem : c ∈ s.reverse := List.mem_reverse.2 h
  rw [← List.takeWhile_append_dropWhile (p := p) (l := s.reverse), List.mem_append] at hmem
  rcases hmem with hmem | hmem
  · exact absurd (List.mem_takeWhile_imp hmem) (by simp [hc])
  · exact hmem

/-- Stripping removes white space only. -/
lemma mem_strip {s : PyStr} {c : PyChar} (hc : isSpace c = false) (h : c ∈ s) :
    c ∈ strip s := by
  refine mem_rdropWhile hc ?_
  rw [← List.takeWhile_append_dropWhile (p := isSpace) (l := s), List.mem_append] at h
  rcases h with h | h
  · exact absurd (List.mem_takeWhile_imp h) (by simp [hc])
  · exact h

lemma length_strip_le (s : PyStr) : (strip s).length ≤ s.length :=
  (List.rdropWhile_prefix isSpace _).length_le.trans (List.dropWhile_suffix isSpace).length_le

lemma dropWhile_eq_self {p : PyChar → Bool} {s : PyStr} (h : ∀ c ∈ s, p c = false) :
    s.dropWhile p = s := by
  cases s with
  | nil => rfl
  | cons c s => rw [List.dropWhile_cons_of_neg (by simp [h c List.mem_cons_self])]

lemma rdropWhile_eq_self {p : PyChar → Bool} {s : PyStr} (h : ∀ c ∈ s, p c = false) :
    s.rdropWhile p = s := by
  rw [List.rdropWhile, dropWhile_eq_self (fun c hc => h c (List.mem_reverse.1 hc)),
    List.reverse_reverse]

lemma strip_eq_self {s : PyStr} (h : ∀ c ∈ s, isSpace c = false) : strip s = s := by
  rw [strip, dropWhile_eq_self h, rdropWhile_eq_self h]

lemma mem_of_mem_splitlines {s l : PyStr} {c : PyChar} (hl : l ∈ splitlines s) (hc : c ∈ l) :
    c ∈ s := by
  induction s using splitlines.induct generalizing l with
  | case1 => simp [splitlines] at hl
  | case2 d hd => simp_all [splitlines]
  | case3 d hd => simp_all [splitlines]
  | case4 d e cs hde ih =>
    simp only [splitlines, hde, and_self, if_true, List.mem_cons] at hl
    rcases hl with rfl | hl
    · simp at hc
    · exact List.mem_cons_of_mem _ (List.mem_cons_of_mem _ (ih hl hc))
  | case5 d e cs hde hd ih =>
    simp only [splitlines, hde, hd, if_false, if_true, List.mem_cons] at hl
    rcases hl with rfl | hl
    · simp at hc
    · exact List.mem_cons_of_mem _ (ih hl hc)
  | case6 d e cs hde hd hnil ih =>
    simp only [splitlines, hde, hd, if_false, hnil] at hl
    simp_all
  | case7 d e cs hde hd m ms hm ih =>
    simp only [splitlines, hde, hd, if_false, hm, Bool.false_eq_true, List.mem_cons] at hl
    rcases hl with rfl | hl
    · rcases List.mem_cons.1 hc with rfl | hc
      · simp
      · exact List.mem_cons_of_mem _ (ih (by simp [hm]) hc)
    · exact List.mem_cons_of_mem _ (ih (by simp [hm, hl]) hc)

/-- Breaking a text into lines loses line breaks only. -/
lemma mem_splitlines {s : PyStr} {c : PyChar} (hb : isLineBreak c = false) (h : c ∈ s) :
    ∃ l ∈ splitlines s, c ∈ l := by
  induction s using splitlines.induct with
  | case1 => simp at h
  | case2 d hd => simp_all
  | case3 d hd => simp_all [splitlines]
  | case4 d e cs hde ih =>
    obtain ⟨rfl, rfl⟩ := hde
    have hne : c ∈ cs := by
      rcases List.mem_cons.1 h with rfl | h
      · exact absurd hb (by decide)
      · rcases List.mem_cons.1 h with rfl | h
        · exact absurd hb (by decide)
        · exact h
    obtain ⟨l, hl, hc⟩ := ih hne
    exact ⟨l, by simp [splitlines, hl], hc⟩
  | case5 d e cs hde hd ih =>
    rcases List.mem_cons.1 h with rfl | h
    · simp [hb] at hd
    · obtain ⟨l, hl, hc⟩ := ih h
      exact ⟨l, by simp [splitlines, hde, hd, hl], hc⟩
  | case6 d e cs hde hd hnil ih =>
    rcases List.mem_cons.1 h with rfl | h
    · exact ⟨[c], by simp [splitlines, hde, hd, hnil], by simp⟩
    · obtain ⟨l, hl, -⟩ := ih h
      simp [hnil] at hl
  | case7 d e cs hde hd m ms hm ih =>
    rcases List.mem_cons.1 h with rfl | h
    · exact ⟨c :: m, by simp [splitlines, hde, hd, hm], by simp⟩
    · obtain ⟨l, hl, hc⟩ := ih h
      rw [hm, List.mem_cons] at hl
      rcases hl with rfl | hl
      · exact ⟨d :: l, by simp [splitlines, hde, hd, hm], List.mem_cons_of_mem _ hc⟩
      · exact ⟨l, by simp [splitlines, hde, hd, hm, hl], hc⟩

lemma py_injective : Function.Injective py := by
  have hchar : Function.Injective ofChar := by
    intro c d h
    refine Char.ext (UInt32.toNat_inj.1 ?_)
    simpa [ofChar] using h
  intro a b h
  exact String.toList_inj.1 (List.map_injective_iff.2 hchar h)

lemma ofNat_injective : Function.Injective ofNat := by
  intro m n h
  have hrepr : Nat.repr m = Nat.repr n := py_injective h
  rw [← Nat.ofDigitChars_ten_toDigits (n := m), ← Nat.toList_repr, hrepr, Nat.toList_repr,
    Nat.ofDigitChars_ten_toDigits]

end PyStr

end MailGate
