import MailGate.Python.Json.Dump

/-!
# Reading inverts writing

A text that `json.dumps` has written is read as the value that was written.  The text is cut
into the tokens of the value, one scalar or string at a time; and the tokens of a value are
read as that value, wherever they stand.
-/

namespace MailGate

namespace Json

variable {F : Type} {floats : Floats F}

/-! ## Scalars -/

/-- A character that can stand in a word or a number. -/
def isPlain (c : PyChar) : Bool :=
  !isWhitespace c && ((punctuation (F := Unit)).lookup c).isNone && c != ofChar '"'

/-- A printable ASCII character. -/
def Printable (c : PyChar) : Prop := 0x20 ≤ c.val ∧ c.val < 0x7F

instance (c : PyChar) : Decidable (Printable c) := by
  unfold Printable
  infer_instance

/-- A float that is written as a word that is read as the same float. -/
structure Floats.Faithful (floats : Floats F) (f : F) : Prop where
  printable : ∀ c ∈ floats.repr f, Printable c
  plain : ∀ c ∈ floats.repr f, isPlain c = true
  scan : scanRun floats (floats.repr f) = [.scalar (.float f)]

lemma isPlain_iff {c : PyChar} :
    isPlain c = true ↔ isWhitespace c = false ∧ (punctuation (F := F)).lookup c = none ∧
      c ≠ ofChar '"' := by
  have hlookup : ((punctuation (F := Unit)).lookup c).isNone = true ↔
      (punctuation (F := F)).lookup c = none := by
    simp only [punctuation, Dict.lookup_cons]
    grind
  simp only [isPlain, Bool.and_eq_true, Bool.not_eq_true', bne_iff_ne, hlookup, and_assoc]

/-- A word is collected character by character. -/
lemma lex_plain {w : PyStr} (hw : ∀ c ∈ w, isPlain c = true) (run s : PyStr) :
    lex floats (.plain run) (w ++ s) = lex floats (.plain (run ++ w)) s := by
  induction w generalizing run with
  | nil => simp
  | cons c w ih =>
    rw [List.forall_mem_cons] at hw
    obtain ⟨hspace, hpunct, hquote⟩ := (isPlain_iff (F := F)).1 hw.1
    rw [List.cons_append, lex, hspace, hpunct]
    simp only [Bool.false_eq_true, if_false, hquote]
    rw [ih hw.2, List.append_assoc, List.singleton_append]

/-- What can follow a word: nothing, or a token of one character. -/
def Delimited (s : PyStr) : Prop :=
  ∀ c ∈ s.head?, isWhitespace c = false ∧ ((punctuation (F := Unit)).lookup c).isSome = true

/-- There the word ends. -/
lemma lex_delimited {s : PyStr} (hs : Delimited s) (run : PyStr) :
    lex floats (.plain run) s = scanRun floats run ++ lex floats (.plain []) s := by
  cases s with
  | nil => simp [lex, scanRun]
  | cons c cs =>
    obtain ⟨hspace, hpunct⟩ := hs c (by simp)
    have hlookup : ∃ token, (punctuation (F := F)).lookup c = some token := by
      rw [← Option.isSome_iff_exists]
      simp only [punctuation, Dict.lookup_cons] at hpunct ⊢
      grind
    obtain ⟨token, htoken⟩ := hlookup
    simp only [lex, hspace, htoken, Bool.false_eq_true, if_false, scanRun, if_true,
      List.nil_append]

lemma digitChar_val {d : ℕ} (h : d < 10) : (digitChar d).val = 0x30 + d := by
  rw [digitChar, Fin.val_ofNat]
  omega

lemma isDigit_digitChar {d : ℕ} (h : d < 10) : (digitChar d).isDigit = true := by
  simp only [PyChar.isDigit, digitChar_val h, Bool.and_eq_true, decide_eq_true_eq]
  omega

/-- The plain characters by their code points. -/
lemma isPlain_iff_val {c : PyChar} : isPlain c = true ↔
    c.val ∉ [0x20, 0x09, 0x0A, 0x0D, 0x7B, 0x7D, 0x5B, 0x5D, 0x2C, 0x3A, 0x22] := by
  have hpunct : (punctuation (F := Unit)).map (·.1.val) = [0x7B, 0x7D, 0x5B, 0x5D, 0x2C, 0x3A] := by
    decide
  have hquote : (ofChar '"').val = 0x22 := by decide
  have hlookup : ((punctuation (F := Unit)).lookup c).isNone = true ↔
      c.val ∉ (punctuation (F := Unit)).map (·.1.val) := by
    rw [Option.isNone_iff_eq_none]
    constructor
    · intro hnone hmem
      obtain ⟨p, hp, hval⟩ := List.mem_map.1 hmem
      obtain ⟨v, hv⟩ := Dict.lookup_of_mem_keys (List.mem_map.2 ⟨p, hp, Fin.ext hval⟩)
      rw [hnone] at hv
      cases hv
    · intro hnot
      cases hv : (punctuation (F := Unit)).lookup c with
      | none => rfl
      | some v =>
        refine absurd ?_ hnot
        exact List.mem_map.2 ⟨(c, v), Dict.mem_of_lookup hv, rfl⟩
  rw [hpunct] at hlookup
  simp only [isPlain, isWhitespace, Bool.and_eq_true, hlookup, Bool.not_eq_true',
    Bool.or_eq_false_iff, beq_eq_false_iff_ne, bne_iff_ne, ne_eq, Fin.ext_iff, hquote,
    List.mem_cons, List.not_mem_nil, or_false]
  omega

lemma isPlain_of_isDigit {c : PyChar} (h : c.isDigit = true) : isPlain c = true := by
  simp only [PyChar.isDigit, Bool.and_eq_true, decide_eq_true_eq] at h
  rw [isPlain_iff_val]
  simp only [List.mem_cons, List.not_mem_nil, or_false]
  omega

lemma digitsValue_append (xs : PyStr) (d : PyChar) :
    digitsValue (xs ++ [d]) = 10 * digitsValue xs + (d.val - 0x30) := by
  simp [digitsValue]

lemma digitsValue_digits {ds : List ℕ} (h : ∀ d ∈ ds, d < 10) :
    digitsValue (ds.reverse.map digitChar) = Nat.ofDigits 10 ds := by
  induction ds with
  | nil => rfl
  | cons d ds ih =>
    rw [List.forall_mem_cons] at h
    rw [List.reverse_cons, List.map_append, List.map_singleton, digitsValue_append, ih h.2,
      digitChar_val h.1, Nat.ofDigits_cons]
    simp
    omega

/-- The digits of a number: none but a lone zero begins with a zero. -/
lemma renderNat_spec (n : ℕ) :
    digitsValue (renderNat n) = n ∧ (∀ c ∈ renderNat n, c.isDigit = true) ∧
      ∃ d ds, renderNat n = d :: ds ∧ (d = ofChar '0' → ds = []) := by
  unfold renderNat
  by_cases hn : n = 0
  · subst hn
    simp only [if_true]
    refine ⟨by decide, ?_, digitChar 0, [], rfl, fun _ => rfl⟩
    intro c hc
    rw [List.mem_singleton.1 hc]
    exact isDigit_digitChar (by decide)
  · rw [if_neg hn]
    have hlt : ∀ d ∈ Nat.digits 10 n, d < 10 := fun d hd => Nat.digits_lt_base (by decide) hd
    refine ⟨?_, ?_, ?_⟩
    · rw [digitsValue_digits hlt, Nat.ofDigits_digits]
    · intro c hc
      obtain ⟨d, hd, rfl⟩ := List.mem_map.1 hc
      exact isDigit_digitChar (hlt d (List.mem_reverse.1 hd))
    · have hne : Nat.digits 10 n ≠ [] := Nat.digits_ne_nil_iff_ne_zero.2 hn
      have hlast := Nat.getLast_digit_ne_zero 10 hn
      have hsplit := List.dropLast_append_getLast hne
      refine ⟨digitChar ((Nat.digits 10 n).getLast hne),
        (Nat.digits 10 n).dropLast.reverse.map digitChar, ?_, ?_⟩
      · conv_lhs => rw [← hsplit]
        simp
      · intro hzero
        have hval := congrArg Fin.val hzero
        rw [digitChar_val (hlt _ (List.getLast_mem hne))] at hval
        have : (ofChar '0').val = 0x30 := by decide
        omega

/-- The digits of a number are scanned to their end. -/
lemma scanInt_digits {d : PyChar} {ds : PyStr} (hdigits : ∀ c ∈ d :: ds, c.isDigit = true)
    (hzero : d = ofChar '0' → ds = []) (negative : Bool) :
    scanInt (if negative then ofChar '-' :: d :: ds else d :: ds) =
      some (negative, d :: ds, []) := by
  rw [List.forall_mem_cons] at hdigits
  have hhead : d ≠ ofChar '-' := by
    rintro rfl
    exact absurd hdigits.1 (by decide)
  have htake : ds.takeWhile PyChar.isDigit = ds := List.takeWhile_eq_self_iff.2 hdigits.2
  have hdrop : ds.dropWhile PyChar.isDigit = [] := List.dropWhile_eq_nil_iff.2 hdigits.2
  by_cases hd : d = ofChar '0'
  · obtain rfl := hzero hd
    subst hd
    cases negative with
    | true => rfl
    | false => rfl
  · cases negative with
    | true => simp [scanInt, hd, hdigits.1, htake, hdrop]
    | false => simp [scanInt, hd, hdigits.1, htake, hdrop, hhead]

/-- A text that begins with a digit or a sign is no word. -/
lemma scanScalar_of_scanNumber {c : PyChar} {cs : PyStr} {r : Token F × PyStr}
    (hc : c.val < 0x40) (h : scanNumber floats (c :: cs) = some r) :
    scanScalar floats (c :: cs) = some r := by
  have hn : ofChar 'n' ≠ c := by
    rintro rfl
    exact absurd hc (by decide)
  have ht : ofChar 't' ≠ c := by
    rintro rfl
    exact absurd hc (by decide)
  have hf : ofChar 'f' ≠ c := by
    rintro rfl
    exact absurd hc (by decide)
  simp [scanScalar, PyStr.startswith, py, hn, ht, hf, h]

/-- An integer that is not too long is read as it was written. -/
lemma scanRun_renderInt {n : ℤ} (hn : (renderNat n.natAbs).length ≤ maxIntDigits) :
    scanRun floats (renderInt n) = [.scalar (.int n)] := by
  obtain ⟨hvalue, hdigits, d, ds, hshape, hzero⟩ := renderNat_spec n.natAbs
  have hint := scanInt_digits (hshape ▸ hdigits) hzero
  have hrender :
      renderInt n = if decide (n < 0) = true then ofChar '-' :: d :: ds else d :: ds := by
    rw [renderInt, hshape]
    simp only [decide_eq_true_eq]
  have hnumber : scanNumber floats (renderInt n) = some (.scalar (.int n), []) := by
    have hsign : (if decide (n < 0) = true then -(n.natAbs : ℤ) else (n.natAbs : ℤ)) = n := by
      simp only [decide_eq_true_eq]
      split <;> omega
    rw [scanNumber, hrender, hint]
    rw [hshape] at hvalue hn
    simp only [Option.bind_eq_bind, Option.bind_some, scanFrac, scanExp, List.length_nil,
      lt_self_iff_false, if_false, not_lt.2 hn, hvalue, hsign, gt_iff_lt]
    rfl
  have hscalar : scanScalar floats (renderInt n) = some (.scalar (.int n), []) := by
    rw [hrender] at hnumber ⊢
    have hd := hdigits d (hshape ▸ List.mem_cons_self)
    simp only [PyChar.isDigit, Bool.and_eq_true, decide_eq_true_eq] at hd
    cases hneg : decide (n < 0) with
    | true =>
      rw [hneg] at hnumber
      exact scanScalar_of_scanNumber (by decide) hnumber
    | false =>
      rw [hneg] at hnumber
      exact scanScalar_of_scanNumber (by omega) hnumber
  have hne : renderInt n ≠ [] := by
    rw [hrender]
    split <;> simp
  rw [scanRun, if_neg hne, hscalar]

/-- A scalar that can be written. -/
def Scalar.Ok (floats : Floats F) : Scalar F → Prop
  | .int n => (renderNat n.natAbs).length ≤ maxIntDigits
  | .float f => floats.Faithful f
  | _ => True

lemma renderScalar_plain {v : Scalar F} (hv : v.Ok floats) :
    ∀ c ∈ renderScalar floats v, isPlain c = true := by
  cases v with
  | null => exact List.all_eq_true.1 (show (py "null").all isPlain = true by decide)
  | bool b =>
    cases b with
    | false => exact List.all_eq_true.1 (show (py "false").all isPlain = true by decide)
    | true => exact List.all_eq_true.1 (show (py "true").all isPlain = true by decide)
  | int n =>
    obtain ⟨-, hdigits, -⟩ := renderNat_spec n.natAbs
    intro c hc
    simp only [renderScalar, renderInt] at hc
    split at hc
    · rcases List.mem_cons.1 hc with rfl | hc
      · decide
      · exact isPlain_of_isDigit (hdigits c hc)
    · exact isPlain_of_isDigit (hdigits c hc)
  | float f => exact hv.plain

lemma scanRun_renderScalar {v : Scalar F} (hv : v.Ok floats) :
    scanRun floats (renderScalar floats v) = [.scalar v] := by
  cases v with
  | null => rfl
  | bool b => cases b <;> rfl
  | int n => exact scanRun_renderInt hv
  | float f => exact hv.scan

/-! ## Strings -/

/-- The units that a character is written as. -/
def unitsOf (c : PyChar) : List StrUnit :=
  let n := c.val
  if (escapeDict.lookup c).isSome ∨ (0x20 ≤ n ∧ n ≤ 0x7E) then [.raw c]
  else if n < 0x10000 then [.escaped c]
  else
    [.escaped (Fin.ofNat _ (0xD800 + (n - 0x10000) / 0x400)),
      .escaped (Fin.ofNat _ (0xDC00 + (n - 0x10000) % 0x400))]

/-- Each escape letter stands for the character that it escapes. -/
lemma backslash_escapeDict : ∀ p ∈ escapeDict,
    backslash.lookup p.2 = some p.1 ∧ p.2 ≠ ofChar 'u' := by
  have hall : (escapeDict.all fun p =>
      decide (backslash.lookup p.2 = some p.1) && decide (p.2 ≠ ofChar 'u')) = true := by
    decide
  intro p hp
  simpa using List.all_eq_true.1 hall p hp

lemma hexValue_hexDigit {d : ℕ} (h : d < 16) : PyChar.hexValue (hexDigit d) = some d := by
  revert d
  decide +kernel

/-- Four hexadecimal digits are one unit. -/
lemma lex_unicodeEscape {n : ℕ} (hn : n < 0x10000) (units : List StrUnit) (s : PyStr) :
    lex floats (.text units) (unicodeEscape n ++ s) =
      lex floats (.text (units ++ [.escaped (Fin.ofNat _ n)])) s := by
  have hsum : 16 * (16 * (16 * (16 * 0 + n / 0x1000 % 16) + n / 0x100 % 16) + n / 0x10 % 16) +
      n % 16 = n := by omega
  have hslash : ofChar '\\' ≠ ofChar '"' := by decide
  have hstep : ∀ (digits value d : ℕ) (cs : PyStr), d < 16 →
      lex floats (.hex units digits value) (hexDigit d :: cs) =
        if digits = 3 then
          lex floats (.text (units ++ [.escaped (Fin.ofNat _ (16 * value + d))])) cs
        else lex floats (.hex units (digits + 1) (16 * value + d)) cs := by
    intro digits value d cs hd
    rw [lex, hexValue_hexDigit hd]
  have hmod : ∀ m, m % 16 < 16 := fun m => Nat.mod_lt m (by decide)
  simp only [unicodeEscape, List.cons_append, List.nil_append]
  rw [lex, if_neg hslash, if_pos rfl, lex, if_pos rfl, hstep _ _ _ _ (hmod _), if_neg (by decide),
    hstep _ _ _ _ (hmod _), if_neg (by decide), hstep _ _ _ _ (hmod _), if_neg (by decide),
    hstep _ _ _ _ (hmod _), if_pos rfl, hsum]

/-- A character within a string is read as its units. -/
lemma lex_escapeChar (c : PyChar) (units : List StrUnit) (s : PyStr) :
    lex floats (.text units) (escapeChar c ++ s) = lex floats (.text (units ++ unitsOf c)) s := by
  have hslash : ofChar '\\' ≠ ofChar '"' := by decide
  cases hlookup : escapeDict.lookup c with
  | some d =>
    obtain ⟨hback, hu⟩ := backslash_escapeDict _ (Dict.mem_of_lookup hlookup)
    simp only [escapeChar, unitsOf, hlookup, List.cons_append, List.nil_append, lex, hslash, hu,
      if_false, if_true, hback, Option.isSome_some, true_or]
  | none =>
    have hquote : c ≠ ofChar '"' := by
      rintro rfl
      exact absurd hlookup (by decide)
    have hback : c ≠ ofChar '\\' := by
      rintro rfl
      exact absurd hlookup (by decide)
    simp only [escapeChar, unitsOf, hlookup, Option.isSome_none, Bool.false_eq_true, false_or]
    by_cases hascii : 0x20 ≤ c.val ∧ c.val ≤ 0x7E
    · rw [if_pos hascii, if_pos hascii, List.singleton_append, lex, if_neg hquote, if_neg hback,
        if_neg (by omega)]
    · rw [if_neg hascii, if_neg hascii]
      by_cases hbmp : c.val < 0x10000
      · rw [if_pos hbmp, if_pos hbmp, lex_unicodeEscape hbmp]
        have hc : Fin.ofNat _ c.val = c := Fin.ext (Nat.mod_eq_of_lt c.isLt)
        rw [hc]
      · have hlt := c.isLt
        rw [if_neg hbmp, if_neg hbmp, List.append_assoc, lex_unicodeEscape (by omega),
          lex_unicodeEscape (by omega), List.append_assoc, List.singleton_append]

/-- Two escapes that JSON reads as one character. -/
def IsPair (c d : PyChar) : Prop :=
  (0xD800 ≤ c.val ∧ c.val ≤ 0xDBFF) ∧ 0xDC00 ≤ d.val ∧ d.val ≤ 0xDFFF

instance (c d : PyChar) : Decidable (IsPair c d) := by
  unfold IsPair
  infer_instance

/-- No high surrogate stands directly before a low one: JSON has the same spelling for these two
as for the character of the pair. -/
def Spellable : PyStr → Prop
  | c :: d :: s => ¬IsPair c d ∧ Spellable (d :: s)
  | _ => True

lemma spellable_of_not_surrogate {s : PyStr} (h : ∀ c ∈ s, PyChar.isSurrogate c = false) :
    Spellable s := by
  induction s with
  | nil => trivial
  | cons c s ih =>
    rw [List.forall_mem_cons] at h
    cases s with
    | nil => trivial
    | cons d s =>
      refine ⟨?_, ih h.2⟩
      have hc := h.1
      simp only [PyChar.isSurrogate, Bool.and_eq_false_iff, decide_eq_false_iff_not] at hc
      rw [IsPair]
      omega

lemma spellable_py {text : String} (h : ((py text).all fun c => !PyChar.isSurrogate c) = true) :
    Spellable (py text) := by
  refine spellable_of_not_surrogate fun c hc => ?_
  simpa using List.all_eq_true.1 h c hc

/-- A character is what its units join to, unless it forms a pair with the unit that follows. -/
lemma joinUnits_unitsOf {c : PyChar} {us : List StrUnit}
    (h : ∀ d, us.head? = some (.escaped d) → ¬IsPair c d) :
    joinUnits (unitsOf c ++ us) = c :: joinUnits us := by
  have hlt := c.isLt
  simp only [unitsOf]
  split_ifs with hraw hbmp
  · rfl
  · cases us with
    | nil => rfl
    | cons u us =>
      cases u with
      | raw d => rfl
      | escaped d =>
        have hpair := h d rfl
        rw [IsPair] at hpair
        rw [List.singleton_append, joinUnits, if_neg hpair]
  · -- a surrogate pair
    have hhigh : (Fin.ofNat 0x110000 (0xD800 + (c.val - 0x10000) / 0x400)).val =
        0xD800 + (c.val - 0x10000) / 0x400 := by
      rw [Fin.val_ofNat]
      omega
    have hlow : (Fin.ofNat 0x110000 (0xDC00 + (c.val - 0x10000) % 0x400)).val =
        0xDC00 + (c.val - 0x10000) % 0x400 := by
      rw [Fin.val_ofNat]
      omega
    rw [List.cons_append, List.singleton_append, joinUnits, if_pos]
    · have hjoin : joinSurrogates (Fin.ofNat 0x110000 (0xD800 + (c.val - 0x10000) / 0x400))
          (Fin.ofNat 0x110000 (0xDC00 + (c.val - 0x10000) % 0x400)) = c := by
        refine Fin.ext ?_
        simp only [joinSurrogates, hhigh, hlow]
        omega
      rw [hjoin]
    · rw [hhigh, hlow]
      omega

/-- The first unit of a character is not the second one of a pair, unless the character is. -/
lemma head_unitsOf {c d e : PyChar} {us : List StrUnit} (h : ¬IsPair c d)
    (he : (unitsOf d ++ us).head? = some (.escaped e)) : ¬IsPair c e := by
  have hlt := d.isLt
  simp only [unitsOf] at he
  split_ifs at he
  · cases he
  · cases he
    exact h
  · cases he
    rw [IsPair, Fin.val_ofNat]
    omega

lemma joinUnits_flatMap {t : PyStr} (ht : Spellable t) : joinUnits (t.flatMap unitsOf) = t := by
  induction t with
  | nil => rfl
  | cons c t ih =>
    cases t with
    | nil =>
      rw [List.flatMap_cons, joinUnits_unitsOf (by simp)]
      rfl
    | cons d t =>
      have hhead : ∀ e, ((d :: t).flatMap unitsOf).head? = some (.escaped e) → ¬IsPair c e := by
        intro e he
        rw [List.flatMap_cons] at he
        exact head_unitsOf ht.1 he
      rw [List.flatMap_cons, joinUnits_unitsOf hhead, ih ht.2]

lemma lex_flatMap (t : PyStr) (units : List StrUnit) (s : PyStr) :
    lex floats (.text units) (t.flatMap escapeChar ++ s) =
      lex floats (.text (units ++ t.flatMap unitsOf)) s := by
  induction t generalizing units with
  | nil => simp
  | cons c t ih =>
    rw [List.flatMap_cons, List.append_assoc, lex_escapeChar, ih, List.flatMap_cons,
      List.append_assoc]

/-- A string is read as it was written. -/
lemma lex_renderString {t : PyStr} (ht : Spellable t) (s : PyStr) :
    lex floats (.plain []) (renderString t ++ s) = .string t :: lex floats (.plain []) s := by
  have hquote : isWhitespace (ofChar '"') = false ∧
      (punctuation (F := F)).lookup (ofChar '"') = none := ⟨by decide, rfl⟩
  rw [renderString, List.cons_append, lex, hquote.1, hquote.2]
  simp only [Bool.false_eq_true, if_false, if_true, scanRun, List.nil_append]
  rw [List.append_assoc, lex_flatMap, List.nil_append, List.singleton_append, lex, if_pos rfl,
    joinUnits_flatMap ht]

/-! ## The text is printable ASCII -/

lemma hexDigit_printable (d : ℕ) : Printable (hexDigit d) := by
  by_cases h : d < 16
  · revert d
    decide +kernel
  · have hlength : (py "0123456789abcdef").length = 16 := by decide
    rw [hexDigit, List.getD_eq_getElem?_getD, List.getElem?_eq_none (by omega)]
    decide

lemma unicodeEscape_printable (n : ℕ) : ∀ c ∈ unicodeEscape n, Printable c := by
  intro c hc
  simp only [unicodeEscape, List.mem_cons, List.not_mem_nil, or_false] at hc
  rcases hc with rfl | rfl | rfl | rfl | rfl | rfl
  · decide
  · decide
  all_goals exact hexDigit_printable _

lemma escapeChar_printable (c : PyChar) : ∀ d ∈ escapeChar c, Printable d := by
  have hdict : (escapeDict.all fun p => decide (Printable p.2)) = true := by decide
  intro d hd
  cases hlookup : escapeDict.lookup c with
  | some e =>
    simp only [escapeChar, hlookup, List.mem_cons, List.not_mem_nil, or_false] at hd
    rcases hd with rfl | rfl
    · decide
    · simpa using List.all_eq_true.1 hdict _ (Dict.mem_of_lookup hlookup)
  | none =>
    simp only [escapeChar, hlookup] at hd
    split_ifs at hd with hprintable
    · rw [List.mem_singleton.1 hd, Printable]
      omega
    · exact unicodeEscape_printable _ d hd
    · rcases List.mem_append.1 hd with hd | hd
      · exact unicodeEscape_printable _ d hd
      · exact unicodeEscape_printable _ d hd

lemma renderString_printable (t : PyStr) : ∀ c ∈ renderString t, Printable c := by
  intro c hc
  simp only [renderString, List.mem_cons, List.mem_append, List.mem_flatMap, List.not_mem_nil,
    or_false] at hc
  rcases hc with rfl | ⟨d, -, hd⟩ | rfl
  · decide
  · exact escapeChar_printable d c hd
  · decide

lemma printable_of_all {w : PyStr} (h : (w.all fun c => decide (Printable c)) = true) :
    ∀ c ∈ w, Printable c := by
  intro c hc
  simpa using List.all_eq_true.1 h c hc

lemma renderScalar_printable {v : Scalar F} (hv : v.Ok floats) :
    ∀ c ∈ renderScalar floats v, Printable c := by
  cases v with
  | null => exact printable_of_all (w := py "null") (by decide)
  | bool b =>
    cases b with
    | false => exact printable_of_all (w := py "false") (by decide)
    | true => exact printable_of_all (w := py "true") (by decide)
  | int n =>
    obtain ⟨-, hdigits, -⟩ := renderNat_spec n.natAbs
    have hdigit : ∀ c ∈ renderNat n.natAbs, Printable c := by
      intro c hc
      have := hdigits c hc
      simp only [PyChar.isDigit, Bool.and_eq_true, decide_eq_true_eq] at this
      rw [Printable]
      omega
    intro c hc
    simp only [renderScalar, renderInt] at hc
    split at hc
    · rcases List.mem_cons.1 hc with rfl | hc
      · decide
      · exact hdigit c hc
    · exact hdigit c hc
  | float f => exact hv.printable

/-! ## Values -/

mutual

/-- The value can be written: no surrogate pair, no overlong integer, no repeated key. -/
def Ok (floats : Floats F) : Json F → Prop
  | .scalar v => v.Ok floats
  | .string s => Spellable s
  | .array vs => ItemsOk floats vs
  | .object ms => (ms.map (·.1)).Nodup ∧ MembersOk floats ms

/-- The items can be written. -/
def ItemsOk (floats : Floats F) : List (Json F) → Prop
  | [] => True
  | v :: vs => v.Ok floats ∧ ItemsOk floats vs

/-- The members can be written. -/
def MembersOk (floats : Floats F) : List (PyStr × Json F) → Prop
  | [] => True
  | (k, v) :: ms => Spellable k ∧ v.Ok floats ∧ MembersOk floats ms

end

mutual

/-- The tokens of a value. -/
def tokens : Json F → List (Token F)
  | .scalar v => [.scalar v]
  | .string s => [.string s]
  | .array [] => [.lbracket, .rbracket]
  | .array (v :: vs) => .lbracket :: (tokens v ++ (itemTokens vs ++ [.rbracket]))
  | .object [] => [.lbrace, .rbrace]
  | .object ((k, v) :: ms) =>
      .lbrace :: .string k :: .colon :: (tokens v ++ (memberTokens ms ++ [.rbrace]))

/-- The tokens of the items after the first one. -/
def itemTokens : List (Json F) → List (Token F)
  | [] => []
  | v :: vs => .comma :: (tokens v ++ itemTokens vs)

/-- The tokens of the members after the first one. -/
def memberTokens : List (PyStr × Json F) → List (Token F)
  | [] => []
  | (k, v) :: ms => .comma :: .string k :: .colon :: (tokens v ++ memberTokens ms)

end

lemma lex_punctuation {c : PyChar} {token : Token F} (hspace : isWhitespace c = false)
    (h : punctuation.lookup c = some token) (s : PyStr) :
    lex floats (.plain []) (c :: s) = token :: lex floats (.plain []) s := by
  rw [lex, hspace, h]
  simp [scanRun]

lemma delimited_cons {c : PyChar} (hspace : isWhitespace c = false)
    (h : ((punctuation (F := Unit)).lookup c).isSome = true) (s : PyStr) : Delimited (c :: s) := by
  intro d hd
  obtain rfl : c = d := by simpa using hd
  exact ⟨hspace, h⟩

mutual

/-- The text of a value is cut into the tokens of the value. -/
theorem lex_render : ∀ v : Json F, v.Ok floats → ∀ s, Delimited s →
    lex floats (.plain []) (render floats v ++ s) = tokens v ++ lex floats (.plain []) s
  | .scalar v, hv, s, hs => by
    have hscalar : v.Ok floats := by simpa [Ok] using hv
    rw [render, lex_plain (renderScalar_plain hscalar), List.nil_append, lex_delimited hs,
      scanRun_renderScalar hscalar, tokens]
  | .string t, ht, s, _ => by
    rw [render, lex_renderString (by simpa [Ok] using ht), tokens]
    rfl
  | .array [], _, s, _ => by
    rw [render, tokens]
    exact (lex_punctuation (by decide) rfl _).trans
      (congrArg _ (lex_punctuation (by decide) rfl _))
  | .array (v :: vs), hv, s, hs => by
    simp only [Ok, ItemsOk] at hv
    have hclose : Delimited (py "]" ++ s) := delimited_cons (by decide) rfl _
    obtain ⟨hrest, hlex⟩ := lex_renderItems vs hv.2 _ hclose
    have hend : lex floats (.plain []) (py "]" ++ s) = .rbracket :: lex floats (.plain []) s :=
      lex_punctuation (by decide) rfl _
    rw [render, tokens, List.cons_append, lex_punctuation (by decide) rfl, List.append_assoc,
      List.append_assoc, lex_render v hv.1 _ hrest, hlex, hend]
    simp
  | .object [], _, s, _ => by
    rw [render, tokens]
    exact (lex_punctuation (by decide) rfl _).trans
      (congrArg _ (lex_punctuation (by decide) rfl _))
  | .object ((k, v) :: ms), hv, s, hs => by
    simp only [Ok, MembersOk] at hv
    have hclose : Delimited (py "\x7d" ++ s) := delimited_cons (by decide) rfl _
    obtain ⟨hrest, hlex⟩ := lex_renderMembers ms hv.2.2.2 _ hclose
    have hend : lex floats (.plain []) (py "\x7d" ++ s) = .rbrace :: lex floats (.plain []) s :=
      lex_punctuation (by decide) rfl _
    rw [render, tokens, List.cons_append, lex_punctuation (by decide) rfl, List.append_assoc,
      lex_renderString hv.2.1, List.cons_append, lex_punctuation (by decide) rfl,
      List.append_assoc, List.append_assoc, lex_render v hv.2.2.1 _ hrest, hlex, hend]
    simp

/-- The same for the items after the first one. -/
theorem lex_renderItems : ∀ vs : List (Json F), ItemsOk floats vs →
    ∀ s, Delimited s →
      Delimited (renderItems floats vs ++ s) ∧
        lex floats (.plain []) (renderItems floats vs ++ s) =
          itemTokens vs ++ lex floats (.plain []) s
  | [], _, s, hs => by
    simpa [renderItems, itemTokens] using hs
  | v :: vs, hv, s, hs => by
    simp only [ItemsOk] at hv
    obtain ⟨hrest, hlex⟩ := lex_renderItems vs hv.2 s hs
    rw [renderItems, itemTokens]
    refine ⟨delimited_cons (by decide) rfl _, ?_⟩
    rw [List.cons_append, lex_punctuation (by decide) rfl, List.append_assoc,
      lex_render v hv.1 _ hrest, hlex, List.cons_append, List.append_assoc]

/-- The same for the members after the first one. -/
theorem lex_renderMembers : ∀ ms : List (PyStr × Json F),
    MembersOk floats ms → ∀ s, Delimited s →
      Delimited (renderMembers floats ms ++ s) ∧
        lex floats (.plain []) (renderMembers floats ms ++ s) =
          memberTokens ms ++ lex floats (.plain []) s
  | [], _, s, hs => by
    simpa [renderMembers, memberTokens] using hs
  | (k, v) :: ms, hv, s, hs => by
    simp only [MembersOk] at hv
    obtain ⟨hrest, hlex⟩ := lex_renderMembers ms hv.2.2 s hs
    rw [renderMembers, memberTokens]
    refine ⟨delimited_cons (by decide) rfl _, ?_⟩
    rw [List.cons_append, lex_punctuation (by decide) rfl, List.append_assoc,
      lex_renderString hv.1, List.cons_append, lex_punctuation (by decide) rfl, List.append_assoc,
      lex_render v hv.2.1 _ hrest, hlex]
    simp only [List.cons_append, List.append_assoc]

end

mutual

/-- What is written is printable ASCII. -/
theorem render_printable : ∀ v : Json F, v.Ok floats → ∀ c ∈ render floats v, Printable c
  | .scalar v, hv => by
    rw [render]
    exact renderScalar_printable (by simpa [Ok] using hv)
  | .string t, _ => by
    rw [render]
    exact renderString_printable t
  | .array [], _ => by
    rw [render]
    exact printable_of_all (by decide)
  | .array (v :: vs), hok => by
    simp only [Ok, ItemsOk] at hok
    have hv := render_printable v hok.1
    have hvs := renderItems_printable vs hok.2
    intro c hc
    simp only [render, List.mem_cons, List.mem_append] at hc
    rcases hc with rfl | hc | hc | hc
    · decide
    · exact hv c hc
    · exact hvs c hc
    · exact printable_of_all (w := py "]") (by decide) c hc
  | .object [], _ => by
    rw [render]
    exact printable_of_all (by decide)
  | .object ((k, v) :: ms), hok => by
    simp only [Ok, MembersOk] at hok
    have hv := render_printable v hok.2.2.1
    have hms := renderMembers_printable ms hok.2.2.2
    intro c hc
    simp only [render, List.mem_cons, List.mem_append] at hc
    rcases hc with rfl | hc | rfl | hc | hc | hc
    · decide
    · exact renderString_printable k c hc
    · decide
    · exact hv c hc
    · exact hms c hc
    · exact printable_of_all (w := py "\x7d") (by decide) c hc

/-- The same for the items after the first one. -/
theorem renderItems_printable : ∀ vs : List (Json F), ItemsOk floats vs →
    ∀ c ∈ renderItems floats vs, Printable c
  | [], _ => by simp [renderItems]
  | v :: vs, hok => by
    simp only [ItemsOk] at hok
    have hv := render_printable v hok.1
    have hvs := renderItems_printable vs hok.2
    intro c hc
    simp only [renderItems, List.mem_cons, List.mem_append] at hc
    rcases hc with rfl | hc | hc
    · decide
    · exact hv c hc
    · exact hvs c hc

/-- The same for the members after the first one. -/
theorem renderMembers_printable : ∀ ms : List (PyStr × Json F), MembersOk floats ms →
    ∀ c ∈ renderMembers floats ms, Printable c
  | [], _ => by simp [renderMembers]
  | (k, v) :: ms, hok => by
    simp only [MembersOk] at hok
    have hv := render_printable v hok.2.1
    have hms := renderMembers_printable ms hok.2.2
    intro c hc
    simp only [renderMembers, List.mem_cons, List.mem_append] at hc
    rcases hc with rfl | hc | rfl | hc | hc
    · decide
    · exact renderString_printable k c hc
    · decide
    · exact hv c hc
    · exact hms c hc

end

/-! ## Reading the tokens -/

section Read

variable {hook : List (PyStr × Json F) → Except LoadExn (Json F)} {frames : List (Frame F)}
  {ts : List (Token F)}

/-- A value does not begin with a closing bracket, and no colon follows it. -/
lemma tokens_head (v : Json F) : ∃ t ts', tokens v = t :: ts' ∧ t ≠ .rbracket ∧
    (∀ key, t = .string key → ts' = []) := by
  cases v with
  | scalar v => exact ⟨_, _, by rw [tokens], by simp, by simp⟩
  | string s => exact ⟨_, _, by rw [tokens], by simp, by simp⟩
  | array vs => cases vs <;> exact ⟨_, _, by rw [tokens], by simp, by simp⟩
  | object ms => cases ms <;> exact ⟨_, _, by rw [tokens], by simp, by simp⟩

/-- The first item of an array. -/
lemma readValue_lbracket (v : Json F) (ts : List (Token F)) :
    readValue hook frames (.lbracket :: (tokens v ++ ts)) =
      readValue hook (.array [] :: frames) (tokens v ++ ts) := by
  obtain ⟨t, ts', htokens, hne, -⟩ := tokens_head v
  rw [htokens, List.cons_append, readValue]
  rintro ts'' heq
  exact hne (List.cons.inj heq).1

/-- A further item of an array. -/
lemma readRest_comma (v w : Json F) (items : List (Json F)) (hcolon : ts.head? ≠ some .colon) :
    readRest hook v (.array items :: frames) (.comma :: (tokens w ++ ts)) =
      readValue hook (.array (items ++ [v]) :: frames) (tokens w ++ ts) := by
  obtain ⟨t, ts', htokens, -, hstring⟩ := tokens_head w
  rw [htokens, List.cons_append, readRest]
  rintro key ts'' heq
  obtain ⟨rfl, hrest⟩ := List.cons.inj heq
  rw [hstring key rfl, List.nil_append] at hrest
  exact hcolon (by rw [hrest]; rfl)

/-- A hook that makes a dictionary of members with different keys. -/
def MakesDict (hook : List (PyStr × Json F) → Except LoadExn (Json F)) : Prop :=
  ∀ ms : List (PyStr × Json F), (ms.map (·.1)).Nodup → hook ms = .ok (.object ms)

mutual

/-- The tokens of a value are read as the value, wherever they stand. -/
theorem readValue_tokens (hhook : MakesDict hook) : ∀ v : Json F, v.Ok floats →
    ∀ frames ts, readValue hook frames (tokens v ++ ts) = readRest hook v frames ts
  | .scalar v, _, frames, ts => by
    rw [tokens]
    rfl
  | .string s, _, frames, ts => by
    rw [tokens]
    rfl
  | .array [], _, frames, ts => by
    rw [tokens]
    rfl
  | .array (v :: vs), hv, frames, ts => by
    simp only [Ok, ItemsOk] at hv
    rw [tokens, List.cons_append, List.append_assoc, readValue_lbracket,
      readValue_tokens hhook v hv.1, List.append_assoc]
    exact readRest_itemTokens hhook vs hv.2 v [] frames ts
  | .object [], _, frames, ts => by
    have hempty : hook [] = .ok (.object []) := hhook [] List.nodup_nil
    rw [tokens, List.cons_append, List.singleton_append, readValue, hempty]
  | .object ((k, v) :: ms), hv, frames, ts => by
    simp only [Ok, MembersOk] at hv
    rw [tokens, List.cons_append, List.cons_append, List.cons_append, readValue,
      List.append_assoc, readValue_tokens hhook v hv.2.2.1, List.append_assoc]
    exact readRest_memberTokens hhook ms hv.2.2.2 k v [] frames ts (by simpa using hv.1)

/-- The same for the items after the first one. -/
theorem readRest_itemTokens (hhook : MakesDict hook) : ∀ vs : List (Json F), ItemsOk floats vs →
    ∀ v items frames ts, readRest hook v (.array items :: frames)
        (itemTokens vs ++ ([.rbracket] ++ ts)) =
      readRest hook (.array (items ++ v :: vs)) frames ts
  | [], _, v, items, frames, ts => by
    rw [itemTokens]
    rfl
  | w :: vs, hv, v, items, frames, ts => by
    simp only [ItemsOk] at hv
    have hcolon : (itemTokens vs ++ ([Token.rbracket] ++ ts)).head? ≠ some Token.colon := by
      cases vs <;> simp [itemTokens]
    rw [itemTokens, List.cons_append, List.append_assoc, readRest_comma v w items hcolon,
      readValue_tokens hhook w hv.1, readRest_itemTokens hhook vs hv.2, List.append_assoc,
      List.singleton_append]

/-- The same for the members after the first one. -/
theorem readRest_memberTokens (hhook : MakesDict hook) : ∀ ms : List (PyStr × Json F),
    MembersOk floats ms → ∀ k v members frames ts, ((members ++ (k, v) :: ms).map (·.1)).Nodup →
      readRest hook v (.object members k :: frames) (memberTokens ms ++ ([.rbrace] ++ ts)) =
        readRest hook (.object (members ++ (k, v) :: ms)) frames ts
  | [], _, k, v, members, frames, ts, hdistinct => by
    rw [memberTokens, List.nil_append, List.singleton_append, readRest, hhook _ hdistinct]
  | (k', v') :: ms, hv, k, v, members, frames, ts, hdistinct => by
    simp only [MembersOk] at hv
    have hassoc : members ++ (k, v) :: (k', v') :: ms = members ++ [(k, v)] ++ (k', v') :: ms := by
      simp
    rw [hassoc] at hdistinct ⊢
    rw [memberTokens, List.cons_append, List.cons_append, List.cons_append, readRest,
      List.append_assoc, readValue_tokens hhook v' hv.2.1,
      readRest_memberTokens hhook ms hv.2.2 k' v' _ frames ts hdistinct]

end

/-- Reading a text that was written gives the value. -/
theorem loads_render (hhook : MakesDict hook) {v : Json F}
    (hv : v.Ok floats) : loads floats hook (render floats v) = .ok v := by
  have hlex := lex_render v hv [] (by simp [Delimited])
  have hread := readValue_tokens hhook v hv [] []
  simp only [List.append_nil] at hlex hread
  have hnil : lex floats (.plain []) [] = [] := by simp [lex, scanRun]
  have hbom : (render floats v).head? ≠ some 0xFEFF := by
    intro hhead
    have hprintable := render_printable v hv 0xFEFF (List.mem_of_head? hhead)
    exact absurd hprintable (by decide)
  rw [loads, if_neg hbom, hlex, hnil, List.append_nil, hread, readRest]

end Read

/-! ## The order of the keys -/

lemma membersOk_iff {ms : List (PyStr × Json F)} : MembersOk floats ms ↔
    ∀ p ∈ ms, Spellable p.1 ∧ p.2.Ok floats := by
  induction ms with
  | nil => simp [MembersOk]
  | cons p ms ih =>
    obtain ⟨k, v⟩ := p
    rw [MembersOk, List.forall_mem_cons, ih, and_assoc]

mutual

/-- A value that can be written can be written with its keys in order. -/
theorem sortKeys_ok : ∀ v : Json F, v.Ok floats → (sortKeys v).Ok floats
  | .scalar v, hv => by simpa [sortKeys, Ok] using hv
  | .string t, ht => by simpa [sortKeys, Ok] using ht
  | .array vs, hv => by
    simp only [Ok, sortKeys] at hv ⊢
    exact sortItems_ok vs hv
  | .object ms, hv => by
    simp only [Ok, sortKeys] at hv ⊢
    obtain ⟨hkeys, hok⟩ := sortMembers_ok ms hv.2
    have hperm := List.perm_insertionSort (fun a b : PyStr × Json F => a.1 ≤ b.1) (sortMembers ms)
    refine ⟨?_, ?_⟩
    · rw [(hperm.map _).nodup_iff, hkeys]
      exact hv.1
    · rw [membersOk_iff] at hok ⊢
      intro p hp
      exact hok p (hperm.mem_iff.1 hp)

theorem sortItems_ok : ∀ vs : List (Json F), ItemsOk floats vs → ItemsOk floats (sortItems vs)
  | [], _ => by simp [sortItems, ItemsOk]
  | v :: vs, hv => by
    simp only [ItemsOk, sortItems] at hv ⊢
    exact ⟨sortKeys_ok v hv.1, sortItems_ok vs hv.2⟩

theorem sortMembers_ok : ∀ ms : List (PyStr × Json F), MembersOk floats ms →
    (sortMembers ms).map (·.1) = ms.map (·.1) ∧ MembersOk floats (sortMembers ms)
  | [], _ => by simp [sortMembers, MembersOk]
  | (k, v) :: ms, hv => by
    simp only [MembersOk] at hv
    obtain ⟨hkeys, hok⟩ := sortMembers_ok ms hv.2.2
    simp only [sortMembers, MembersOk, List.map_cons, hkeys]
    exact ⟨trivial, hv.1, sortKeys_ok v hv.2.1, hok⟩

end

/-- `json.loads` gives what `json.dumps` was given, with its keys in order. -/
theorem loads_dumps {hook : List (PyStr × Json F) → Except LoadExn (Json F)}
    (hhook : MakesDict hook) {v : Json F} (hv : v.Ok floats) :
    loads floats hook (dumps floats v) = .ok (sortKeys v) :=
  loads_render hhook (sortKeys_ok v hv)

lemma sortMembers_strings (values : List (PyStr × PyStr)) :
    sortMembers (values.map fun p => (p.1, (.string p.2 : Json F))) =
      values.map fun p => (p.1, .string p.2) := by
  induction values with
  | nil => rw [List.map_nil, sortMembers]
  | cons p values ih => rw [List.map_cons, sortMembers, ih, sortKeys]

/-! ## The two hooks -/

lemma rejectDuplicates_eq_ok {result pairs : List (PyStr × Json F)}
    (h : ((result ++ pairs).map (·.1)).Nodup) :
    rejectDuplicates result pairs = .ok (result ++ pairs) := by
  induction pairs generalizing result with
  | nil => simp [rejectDuplicates]
  | cons p pairs ih =>
    obtain ⟨k, v⟩ := p
    have hfresh : k ∉ result.map (·.1) := by
      simp only [List.map_append, List.map_cons, List.nodup_append, List.mem_cons] at h
      intro hmem
      exact h.2.2 k hmem k (.inl rfl) rfl
    have hassoc : result ++ (k, v) :: pairs = result ++ [(k, v)] ++ pairs := by simp
    rw [rejectDuplicates, if_neg hfresh, hassoc]
    rw [hassoc] at h
    exact ih h

lemma rejectDuplicateKeys_makesDict : MakesDict (rejectDuplicateKeys (F := F)) := by
  intro ms hms
  rw [rejectDuplicateKeys, rejectDuplicates_eq_ok (by simpa using hms)]
  rfl

lemma foldl_set_eq {result pairs : List (PyStr × Json F)}
    (h : ((result ++ pairs).map (·.1)).Nodup) :
    pairs.foldl (fun d p => Dict.set d p.1 p.2) result = result ++ pairs := by
  induction pairs generalizing result with
  | nil => simp
  | cons p pairs ih =>
    have hfresh : p.1 ∉ result.map (·.1) := by
      simp only [List.map_append, List.map_cons, List.nodup_append, List.mem_cons] at h
      intro hmem
      exact h.2.2 p.1 hmem p.1 (.inl rfl) rfl
    have hassoc : result ++ p :: pairs = result ++ [p] ++ pairs := by simp
    have hset : Dict.set result p.1 p.2 = result ++ [p] :=
      Dict.set_of_not_mem (by simpa using hfresh)
    rw [List.foldl_cons, hset, hassoc]
    rw [hassoc] at h
    exact ih h

lemma dictHook_makesDict : MakesDict (dictHook (F := F)) := by
  intro ms hms
  rw [dictHook, foldl_set_eq (by simpa using hms), List.nil_append]

end Json

end MailGate
