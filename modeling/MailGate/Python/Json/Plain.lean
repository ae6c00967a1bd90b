import MailGate.Python.Json.Strict
import MailGate.Python.Newlines

/-!
# Writing JSON without escapes of non-ASCII text

`json.dumps` with `ensure_ascii=False`: only quotes, backslashes and control characters of a
string are escaped.  A text that was written so holds no control character and is read as the
value that was written; lone surrogates come back too, since none of them is escaped.
-/

namespace MailGate

namespace Json

variable {F : Type} (floats : Floats F)

/-! ## Writing -/

/-- The text of a character within a string (`ESCAPE`). -/
def plainChar (c : PyChar) : PyStr :=
  match escapeDict.lookup c with
  | some d => [ofChar '\\', d]
  | none => if c.val < 0x20 then unicodeEscape c.val else [c]

/-- The text of a string. -/
def plainString (s : PyStr) : PyStr := ofChar '"' :: (s.flatMap plainChar ++ [ofChar '"'])

mutual

/-- The text of a value whose keys stand in the order in which they are written. -/
def renderPlain : Json F → PyStr
  | .scalar s => renderScalar floats s
  | .string s => plainString s
  | .array [] => py "[]"
  | .array (v :: vs) => ofChar '[' :: (renderPlain v ++ (renderPlainItems vs ++ py "]"))
  | .object [] => py "\x7b\x7d"
  | .object ((k, v) :: ms) =>
      ofChar '\x7b' ::
        (plainString k ++ ofChar ':' :: (renderPlain v ++ (renderPlainMembers ms ++ py "\x7d")))

/-- The items after the first one. -/
def renderPlainItems : List (Json F) → PyStr
  | [] => []
  | v :: vs => ofChar ',' :: (renderPlain v ++ renderPlainItems vs)

/-- The members after the first one. -/
def renderPlainMembers : List (PyStr × Json F) → PyStr
  | [] => []
  | (k, v) :: ms =>
      ofChar ',' :: (plainString k ++ ofChar ':' :: (renderPlain v ++ renderPlainMembers ms))

end

/-- `json.dumps(value, ensure_ascii=False, separators=(",", ":"), sort_keys=True)`. -/
def dumpsPlain (v : Json F) : PyStr := renderPlain floats (sortKeys v)

variable {floats}

/-! ## Strings -/

/-- The unit that a character is written as. -/
def plainUnit (c : PyChar) : StrUnit :=
  if (escapeDict.lookup c).isSome ∨ 0x20 ≤ c.val then .raw c else .escaped c

/-- A character within a string is read as its unit. -/
lemma lex_plainChar (c : PyChar) (units : List StrUnit) (s : PyStr) :
    lex floats (.text units) (plainChar c ++ s) =
      lex floats (.text (units ++ [plainUnit c])) s := by
  have hslash : ofChar '\\' ≠ ofChar '"' := by decide
  cases hlookup : escapeDict.lookup c with
  | some d =>
    obtain ⟨hback, hu⟩ := backslash_escapeDict _ (Dict.mem_of_lookup hlookup)
    simp only [plainChar, plainUnit, hlookup, List.cons_append, List.nil_append, lex, hslash, hu,
      if_false, if_true, hback, Option.isSome_some, true_or]
  | none =>
    have hquote : c ≠ ofChar '"' := by
      rintro rfl
      exact absurd hlookup (by decide)
    have hback : c ≠ ofChar '\\' := by
      rintro rfl
      exact absurd hlookup (by decide)
    simp only [plainChar, plainUnit, hlookup, Option.isSome_none, Bool.false_eq_true, false_or]
    by_cases hcontrol : c.val < 0x20
    · have hc : Fin.ofNat _ c.val = c := Fin.ext (Nat.mod_eq_of_lt c.isLt)
      rw [if_pos hcontrol, if_neg (by omega), lex_unicodeEscape (by omega), hc]
    · rw [if_neg hcontrol, if_pos (by omega), List.singleton_append, lex, if_neg hquote,
        if_neg hback, if_neg hcontrol]

/-- No unit of such a text is half of a surrogate pair. -/
lemma joinUnits_plainUnit (c : PyChar) (us : List StrUnit) :
    joinUnits (plainUnit c :: us) = c :: joinUnits us := by
  unfold plainUnit
  split_ifs with hraw
  · rfl
  · cases us with
    | nil => rfl
    | cons u us =>
      cases u with
      | raw d => rfl
      | escaped d => rw [joinUnits, if_neg (by omega)]

lemma joinUnits_map_plainUnit (t : PyStr) : joinUnits (t.map plainUnit) = t := by
  induction t with
  | nil => rfl
  | cons c t ih => rw [List.map_cons, joinUnits_plainUnit, ih]

lemma lex_flatMap_plainChar (t : PyStr) (units : List StrUnit) (s : PyStr) :
    lex floats (.text units) (t.flatMap plainChar ++ s) =
      lex floats (.text (units ++ t.map plainUnit)) s := by
  induction t generalizing units with
  | nil => simp
  | cons c t ih =>
    rw [List.flatMap_cons, List.append_assoc, lex_plainChar, ih, List.map_cons, List.append_assoc,
      List.singleton_append]

/-- A string is read as it was written. -/
lemma lex_plainString (t s : PyStr) :
    lex floats (.plain []) (plainString t ++ s) = .string t :: lex floats (.plain []) s := by
  have hquote : isWhitespace (ofChar '"') = false ∧
      (punctuation (F := F)).lookup (ofChar '"') = none := ⟨by decide, rfl⟩
  rw [plainString, List.cons_append, lex, hquote.1, hquote.2]
  simp only [Bool.false_eq_true, if_false, if_true, scanRun, List.nil_append]
  rw [List.append_assoc, lex_flatMap_plainChar, List.nil_append, List.singleton_append, lex,
    if_pos rfl, joinUnits_map_plainUnit]

/-! ## Values -/

mutual

/-- The text of a value is cut into the tokens of the value. -/
theorem lex_renderPlain : ∀ v : Json F, v.Ok floats → ∀ s, Delimited s →
    lex floats (.plain []) (renderPlain floats v ++ s) = tokens v ++ lex floats (.plain []) s
  | .scalar v, hv, s, hs => by
    have hscalar : v.Ok floats := by simpa [Ok] using hv
    rw [renderPlain, lex_plain (renderScalar_plain hscalar), List.nil_append, lex_delimited hs,
      scanRun_renderScalar hscalar, tokens]
  | .string t, _, s, _ => by
    rw [renderPlain, lex_plainString, tokens]
    rfl
  | .array [], _, s, _ => by
    rw [renderPlain, tokens]
    exact (lex_punctuation (by decide) rfl _).trans
      (congrArg _ (lex_punctuation (by decide) rfl _))
  | .array (v :: vs), hv, s, hs => by
    simp only [Ok, ItemsOk] at hv
    have hclose : Delimited (py "]" ++ s) := delimited_cons (by decide) rfl _
    obtain ⟨hrest, hlex⟩ := lex_renderPlainItems vs hv.2 _ hclose
    have hend : lex floats (.plain []) (py "]" ++ s) = .rbracket :: lex floats (.plain []) s :=
      lex_punctuation (by decide) rfl _
    rw [renderPlain, tokens, List.cons_append, lex_punctuation (by decide) rfl, List.append_assoc,
      List.append_assoc, lex_renderPlain v hv.1 _ hrest, hlex, hend]
    simp
  | .object [], _, s, _ => by
    rw [renderPlain, tokens]
    exact (lex_punctuation (by decide) rfl _).trans
      (congrArg _ (lex_punctuation (by decide) rfl _))
  | .object ((k, v) :: ms), hv, s, hs => by
    simp only [Ok, MembersOk] at hv
    have hclose : Delimited (py "\x7d" ++ s) := delimited_cons (by decide) rfl _
    obtain ⟨hrest, hlex⟩ := lex_renderPlainMembers ms hv.2.2.2 _ hclose
    have hend : lex floats (.plain []) (py "\x7d" ++ s) = .rbrace :: lex floats (.plain []) s :=
      lex_punctuation (by decide) rfl _
    rw [renderPlain, tokens, List.cons_append, lex_punctuation (by decide) rfl, List.append_assoc,
      lex_plainString, List.cons_append, lex_punctuation (by decide) rfl,
      List.append_assoc, List.append_assoc, lex_renderPlain v hv.2.2.1 _ hrest, hlex, hend]
    simp

/-- The same for the items after the first one. -/
theorem lex_renderPlainItems : ∀ vs : List (Json F), ItemsOk floats vs →
    ∀ s, Delimited s →
      Delimited (renderPlainItems floats vs ++ s) ∧
        lex floats (.plain []) (renderPlainItems floats vs ++ s) =
          itemTokens vs ++ lex floats (.plain []) s
  | [], _, s, hs => by
    simpa [renderPlainItems, itemTokens] using hs
  | v :: vs, hv, s, hs => by
    simp only [ItemsOk] at hv
    obtain ⟨hrest, hlex⟩ := lex_renderPlainItems vs hv.2 s hs
    rw [renderPlainItems, itemTokens]
    refine ⟨delimited_cons (by decide) rfl _, ?_⟩
    rw [List.cons_append, lex_punctuation (by decide) rfl, List.append_assoc,
      lex_renderPlain v hv.1 _ hrest, hlex, List.cons_append, List.append_assoc]

/-- The same for the members after the first one. -/
theorem lex_renderPlainMembers : ∀ ms : List (PyStr × Json F),
    MembersOk floats ms → ∀ s, Delimited s →
      Delimited (renderPlainMembers floats ms ++ s) ∧
        lex floats (.plain []) (renderPlainMembers floats ms ++ s) =
          memberTokens ms ++ lex floats (.plain []) s
  | [], _, s, hs => by
    simpa [renderPlainMembers, memberTokens] using hs
  | (k, v) :: ms, hv, s, hs => by
    simp only [MembersOk] at hv
    obtain ⟨hrest, hlex⟩ := lex_renderPlainMembers ms hv.2.2 s hs
    rw [renderPlainMembers, memberTokens]
    refine ⟨delimited_cons (by decide) rfl _, ?_⟩
    rw [List.cons_append, lex_punctuation (by decide) rfl, List.append_assoc,
      lex_plainString, List.cons_append, lex_punctuation (by decide) rfl, List.append_assoc,
      lex_renderPlain v hv.2.1 _ hrest, hlex]
    simp only [List.cons_append, List.append_assoc]

end

/-! ## The characters of the text -/

section Characters

variable {P : PyChar → Prop}

/-- A text whose characters, but for the control characters, are like this. -/
def TextLike (P : PyChar → Prop) (t : PyStr) : Prop := ∀ c ∈ t, 0x20 ≤ c.val → P c

lemma forall_plainString (hP : ∀ c, Printable c → P c) {t : PyStr} (ht : TextLike P t) :
    ∀ c ∈ plainString t, P c := by
  intro c hc
  have hquote : P (ofChar '"') := hP _ (by decide)
  simp only [plainString, List.mem_cons, List.mem_append, List.mem_flatMap, List.not_mem_nil,
    or_false] at hc
  rcases hc with rfl | ⟨d, hd, hc⟩ | rfl
  · exact hquote
  · unfold plainChar at hc
    cases hlookup : escapeDict.lookup d with
    | some e =>
      -- what an escape writes is what the escape of the other encoder writes
      refine hP c (escapeChar_printable d c ?_)
      simpa only [escapeChar, hlookup] using hc
    | none =>
      simp only [hlookup] at hc
      split_ifs at hc with hcontrol
      · exact hP c (unicodeEscape_printable _ c hc)
      · rw [List.mem_singleton.1 hc]
        exact ht d hd (by omega)
  · exact hquote

mutual

/-- Every character of the text is a printable ASCII character or stands in a string. -/
theorem forall_renderPlain (hP : ∀ c, Printable c → P c) : ∀ v : Json F, v.Ok floats →
    Throughout (TextLike P) (fun _ => True) v → ∀ c ∈ renderPlain floats v, P c
  | .scalar v, hv, _ => by
    rw [renderPlain]
    exact fun c hc => hP c (renderScalar_printable (by simpa [Ok] using hv) c hc)
  | .string t, _, ht => by
    rw [renderPlain]
    exact forall_plainString hP (by simpa [Throughout] using ht)
  | .array [], _, _ => by
    rw [renderPlain]
    exact fun c hc => hP c (printable_of_all (w := py "[]") (by decide) c hc)
  | .array (v :: vs), hok, htexts => by
    simp only [Ok, ItemsOk] at hok
    simp only [Throughout, ItemsThroughout] at htexts
    have hv := forall_renderPlain hP v hok.1 htexts.1
    have hvs := forall_renderPlainItems hP vs hok.2 htexts.2
    intro c hc
    simp only [renderPlain, List.mem_cons, List.mem_append] at hc
    rcases hc with rfl | hc | hc | hc
    · exact hP _ (by decide)
    · exact hv c hc
    · exact hvs c hc
    · exact hP c (printable_of_all (w := py "]") (by decide) c hc)
  | .object [], _, _ => by
    rw [renderPlain]
    exact fun c hc => hP c (printable_of_all (w := py "\x7b\x7d") (by decide) c hc)
  | .object ((k, v) :: ms), hok, htexts => by
    simp only [Ok, MembersOk] at hok
    simp only [Throughout, MembersThroughout, true_and] at htexts
    have hk := forall_plainString hP htexts.1
    have hv := forall_renderPlain hP v hok.2.2.1 htexts.2.1
    have hms := forall_renderPlainMembers hP ms hok.2.2.2 htexts.2.2
    intro c hc
    simp only [renderPlain, List.mem_cons, List.mem_append] at hc
    rcases hc with rfl | hc | rfl | hc | hc | hc
    · exact hP _ (by decide)
    · exact hk c hc
    · exact hP _ (by decide)
    · exact hv c hc
    · exact hms c hc
    · exact hP c (printable_of_all (w := py "\x7d") (by decide) c hc)

/-- The same for the items after the first one. -/
theorem forall_renderPlainItems (hP : ∀ c, Printable c → P c) : ∀ vs : List (Json F),
    ItemsOk floats vs → ItemsThroughout (TextLike P) (fun _ => True) vs →
      ∀ c ∈ renderPlainItems floats vs, P c
  | [], _, _ => by simp [renderPlainItems]
  | v :: vs, hok, htexts => by
    simp only [ItemsOk] at hok
    simp only [ItemsThroughout] at htexts
    have hv := forall_renderPlain hP v hok.1 htexts.1
    have hvs := forall_renderPlainItems hP vs hok.2 htexts.2
    intro c hc
    simp only [renderPlainItems, List.mem_cons, List.mem_append] at hc
    rcases hc with rfl | hc | hc
    · exact hP _ (by decide)
    · exact hv c hc
    · exact hvs c hc

/-- The same for the members after the first one. -/
theorem forall_renderPlainMembers (hP : ∀ c, Printable c → P c) :
    ∀ ms : List (PyStr × Json F), MembersOk floats ms →
      MembersThroughout (TextLike P) (fun _ => True) ms →
        ∀ c ∈ renderPlainMembers floats ms, P c
  | [], _, _ => by simp [renderPlainMembers]
  | (k, v) :: ms, hok, htexts => by
    simp only [MembersOk] at hok
    simp only [MembersThroughout] at htexts
    have hk := forall_plainString hP htexts.1
    have hv := forall_renderPlain hP v hok.2.1 htexts.2.1
    have hms := forall_renderPlainMembers hP ms hok.2.2 htexts.2.2
    intro c hc
    simp only [renderPlainMembers, List.mem_cons, List.mem_append] at hc
    rcases hc with rfl | hc | rfl | hc | hc
    · exact hP _ (by decide)
    · exact hk c hc
    · exact hP _ (by decide)
    · exact hv c hc
    · exact hms c hc

end

end Characters

/-! ## Reading -/

/-- A text is no byte order mark if it is read as the value that was written. -/
lemma head_renderPlain {v : Json F} (hv : v.Ok floats) :
    (renderPlain floats v).head? ≠ some 0xFEFF := by
  have hpunct : ∀ {d : PyChar} {ds : PyStr}, Printable d → (d :: ds).head? ≠ some 0xFEFF := by
    intro d ds hd hhead
    rw [List.head?_cons, Option.some.injEq] at hhead
    rw [hhead] at hd
    exact absurd hd (by decide)
  cases v with
  | scalar v =>
    intro hhead
    rw [renderPlain] at hhead
    have hprintable := renderScalar_printable (by simpa [Ok] using hv) 0xFEFF
      (List.mem_of_head? hhead)
    exact absurd hprintable (by decide)
  | string s =>
    rw [renderPlain]
    exact hpunct (by decide)
  | array vs =>
    cases vs <;> rw [renderPlain] <;> exact hpunct (by decide)
  | object ms =>
    cases ms <;> rw [renderPlain] <;> exact hpunct (by decide)

/-- `json.loads` gives what `json.dumps` was given, with its keys in order. -/
theorem loads_dumpsPlain {hook : List (PyStr × Json F) → Except LoadExn (Json F)}
    (hhook : MakesDict hook) {v : Json F} (hv : v.Ok floats) :
    loads floats hook (dumpsPlain floats v) = .ok (sortKeys v) := by
  have hok := sortKeys_ok v hv
  have hlex := lex_renderPlain (sortKeys v) hok [] (by simp [Delimited])
  have hread := readValue_tokens hhook (sortKeys v) hok [] []
  simp only [List.append_nil] at hlex hread
  have hnil : lex floats (.plain []) [] = [] := by simp [lex, scanRun]
  rw [dumpsPlain, loads, if_neg (head_renderPlain hok), hlex, hnil, List.append_nil, hread,
    readRest]

/-! ## Sorted keys -/

lemma membersThroughout_iff {text : PyStr → Prop} {keys : List PyStr → Prop}
    {ms : List (PyStr × Json F)} : MembersThroughout text keys ms ↔
      ∀ p ∈ ms, text p.1 ∧ Throughout text keys p.2 := by
  induction ms with
  | nil => simp [MembersThroughout]
  | cons p ms ih =>
    obtain ⟨k, v⟩ := p
    rw [MembersThroughout, List.forall_mem_cons, ih, and_assoc]

mutual

/-- The texts of a value stay when its keys are put in order. -/
theorem sortKeys_texts {text : PyStr → Prop} : ∀ v : Json F,
    Throughout text (fun _ => True) v → Throughout text (fun _ => True) (sortKeys v)
  | .scalar s, _ => by
    rw [sortKeys, Throughout]
    trivial
  | .string s, hs => by
    rw [sortKeys]
    exact hs
  | .array vs, hvs => by
    rw [Throughout] at hvs
    rw [sortKeys, Throughout]
    exact sortItems_texts vs hvs
  | .object ms, hms => by
    rw [Throughout] at hms
    have hsorted := sortMembers_texts ms hms.2
    rw [sortKeys, Throughout]
    refine ⟨trivial, membersThroughout_iff.2 fun p hp => ?_⟩
    exact membersThroughout_iff.1 hsorted p ((List.perm_insertionSort _ _).mem_iff.1 hp)

theorem sortItems_texts {text : PyStr → Prop} : ∀ vs : List (Json F),
    ItemsThroughout text (fun _ => True) vs → ItemsThroughout text (fun _ => True) (sortItems vs)
  | [], _ => by
    rw [sortItems, ItemsThroughout]
    trivial
  | v :: vs, h => by
    rw [ItemsThroughout] at h
    rw [sortItems, ItemsThroughout]
    exact ⟨sortKeys_texts v h.1, sortItems_texts vs h.2⟩

theorem sortMembers_texts {text : PyStr → Prop} : ∀ ms : List (PyStr × Json F),
    MembersThroughout text (fun _ => True) ms →
      MembersThroughout text (fun _ => True) (sortMembers ms)
  | [], _ => by
    rw [sortMembers, MembersThroughout]
    trivial
  | (k, v) :: ms, h => by
    rw [MembersThroughout] at h
    rw [sortMembers, MembersThroughout]
    exact ⟨h.1, sortKeys_texts v h.2.1, sortMembers_texts ms h.2.2⟩

end

mutual

/-- What holds of every text holds of the texts of every value. -/
theorem throughout_of_forall {text : PyStr → Prop} (h : ∀ s, text s) : ∀ v : Json F,
    Throughout text (fun _ => True) v
  | .scalar s => by
    rw [Throughout]
    trivial
  | .string s => by
    rw [Throughout]
    exact h s
  | .array vs => by
    rw [Throughout]
    exact itemsThroughout_of_forall h vs
  | .object ms => by
    rw [Throughout]
    exact ⟨trivial, membersThroughout_of_forall h ms⟩

theorem itemsThroughout_of_forall {text : PyStr → Prop} (h : ∀ s, text s) :
    ∀ vs : List (Json F), ItemsThroughout text (fun _ => True) vs
  | [] => by
    rw [ItemsThroughout]
    trivial
  | v :: vs => by
    rw [ItemsThroughout]
    exact ⟨throughout_of_forall h v, itemsThroughout_of_forall h vs⟩

theorem membersThroughout_of_forall {text : PyStr → Prop} (h : ∀ s, text s) :
    ∀ ms : List (PyStr × Json F), MembersThroughout text (fun _ => True) ms
  | [] => by
    rw [MembersThroughout]
    trivial
  | (k, v) :: ms => by
    rw [MembersThroughout]
    exact ⟨h k, throughout_of_forall h v, membersThroughout_of_forall h ms⟩

end

lemma sortMembers_eq_map (ms : List (PyStr × Json F)) :
    sortMembers ms = ms.map fun p => (p.1, sortKeys p.2) := by
  induction ms with
  | nil => rw [sortMembers, List.map_nil]
  | cons p ms ih => rw [sortMembers, ih, List.map_cons]

/-- Dictionaries that are written alike have the same members. -/
lemma perm_of_sortKeys {ms ns : List (PyStr × Json F)}
    (h : sortKeys (.object ms) = sortKeys (.object ns)) :
    (ms.map fun p => (p.1, sortKeys p.2)).Perm (ns.map fun p => (p.1, sortKeys p.2)) := by
  rw [sortKeys, sortKeys, object.injEq] at h
  rw [← sortMembers_eq_map, ← sortMembers_eq_map]
  exact (List.perm_insertionSort _ _).symm.trans (h ▸ (List.perm_insertionSort _ (sortMembers ns)))

/-- Two dictionaries with the same keys in the same order are told apart by what is written. -/
lemma sortKeys_object_inj {ms ns : List (PyStr × Json F)} (hkeys : ms.map (·.1) = ns.map (·.1))
    (hnodup : (ms.map (·.1)).Nodup) (h : sortKeys (.object ms) = sortKeys (.object ns)) :
    ms.map (fun p => sortKeys p.2) = ns.map fun p => sortKeys p.2 := by
  have hperm := perm_of_sortKeys h
  -- at one place of the two lists stands one key, and there the same value
  refine List.ext_getElem (by simpa using congrArg List.length hkeys) fun i hi hi' => ?_
  rw [List.length_map] at hi hi'
  have hkey : (ms[i]).1 = (ns[i]).1 := by
    have hget := List.getElem_of_eq hkeys (i := i) (by simpa using hi)
    simpa using hget
  have hmem : ((ns[i]).1, sortKeys (ms[i]).2) ∈ ns.map fun p => (p.1, sortKeys p.2) := by
    rw [← hkey]
    exact hperm.mem_iff.1 (List.mem_map.2 ⟨ms[i], List.getElem_mem hi, rfl⟩)
  obtain ⟨q, hq, heq⟩ := List.mem_map.1 hmem
  rw [Prod.mk.injEq] at heq
  have hsame : q = ns[i] :=
    List.inj_on_of_nodup_map (hkeys ▸ hnodup) hq (List.getElem_mem hi') heq.1
  rw [List.getElem_map, List.getElem_map, ← heq.2, hsame]

/-! ## One value a line -/

/-- `json.dumps(record, ...) + "\n"` of each record. -/
def dumpLines (floats : Floats F) (records : List (Json F)) : PyStr :=
  records.flatMap fun v => dumpsPlain floats v ++ [0x0A]

/-- The values of the lines of a file in text mode, without the blank ones. -/
def loadLines (floats : Floats F) (hook : List (PyStr × Json F) → Except LoadExn (Json F))
    (s : PyStr) : Except LoadExn (List (Json F)) :=
  (((PyStr.universalNewlines s).splitOn 0x0A).filter (· ≠ [])).mapM (loads floats hook)

lemma textLike_control (t : PyStr) : TextLike (fun c => 0x20 ≤ c.val) t := fun _ _ hc => hc

lemma dumpsPlain_control {v : Json F} (hv : v.Ok floats) : ∀ c ∈ dumpsPlain floats v,
    0x20 ≤ c.val :=
  forall_renderPlain (fun _ hc => hc.1) _ (sortKeys_ok v hv)
    (throughout_of_forall textLike_control _)

lemma newlinesFrom_eq_self {s : PyStr} (h : (0x0D : PyChar) ∉ s) :
    PyStr.newlinesFrom false s = s := by
  induction s with
  | nil => rfl
  | cons c s ih =>
    rw [List.mem_cons, not_or] at h
    rw [PyStr.newlinesFrom, if_neg (Ne.symm h.1), if_neg (by simp), ih h.2]

/-- The lines of such a file are the texts that were written. -/
lemma splitOn_lines {lines : List PyStr} (h : ∀ l ∈ lines, (0x0A : PyChar) ∉ l) :
    (lines.flatMap fun l => l ++ [0x0A]).splitOn 0x0A = lines ++ [[]] := by
  induction lines with
  | nil => rfl
  | cons l lines ih =>
    rw [List.forall_mem_cons] at h
    rw [List.flatMap_cons, List.append_assoc, List.singleton_append, List.splitOn,
      List.splitOnP_append_cons_of_forall_mem ?_ _ (by simp), ← List.splitOn, ih h.2,
      List.cons_append]
    intro c hc
    rw [beq_eq_false_iff_ne]
    rintro rfl
    exact h.1 hc

/-- A file of records is read as the records, each with its keys in order, no matter which of
the line ends the reader knows. -/
theorem loadLines_dumpLines {hook : List (PyStr × Json F) → Except LoadExn (Json F)}
    (hhook : MakesDict hook) {records : List (Json F)} (h : ∀ v ∈ records, v.Ok floats) :
    loadLines floats hook (dumpLines floats records) = .ok (records.map sortKeys) := by
  have hcontrol : ∀ l ∈ records.map (dumpsPlain floats), ∀ c ∈ l, 0x20 ≤ c.val := by
    intro l hl
    obtain ⟨v, hv, rfl⟩ := List.mem_map.1 hl
    exact dumpsPlain_control (h v hv)
  have hline : ∀ l ∈ records.map (dumpsPlain floats), (0x0A : PyChar) ∉ l :=
    fun l hl hmem => absurd (hcontrol l hl _ hmem) (by decide)
  have htext : dumpLines floats records =
      (records.map (dumpsPlain floats)).flatMap fun l => l ++ [0x0A] := by
    rw [List.flatMap_map]
    rfl
  have hreturn : (0x0D : PyChar) ∉ dumpLines floats records := by
    rw [htext, List.mem_flatMap]
    rintro ⟨l, hl, hc⟩
    rcases List.mem_append.1 hc with hc | hc
    · exact absurd (hcontrol l hl _ hc) (by decide)
    · exact absurd (List.mem_singleton.1 hc) (by decide)
  have hne : ∀ l ∈ records.map (dumpsPlain floats), decide (l ≠ []) = true := by
    intro l hl
    obtain ⟨v, hv, rfl⟩ := List.mem_map.1 hl
    rw [decide_eq_true_iff]
    intro hnil
    -- no value is spelled by the empty text
    have hload := loads_dumpsPlain hhook (h v hv)
    rw [hnil] at hload
    simp [loads, lex, scanRun, readValue] at hload
  rw [loadLines, PyStr.universalNewlines, newlinesFrom_eq_self hreturn, htext, splitOn_lines hline,
    List.filter_append, List.filter_eq_self.2 hne, List.filter_cons_of_neg (by simp),
    List.filter_nil, List.append_nil]
  clear hcontrol hline htext hreturn hne
  induction records with
  | nil => rfl
  | cons v records ih =>
    rw [List.forall_mem_cons] at h
    rw [List.map_cons, List.mapM_cons, loads_dumpsPlain hhook h.1, ih h.2]
    rfl

end Json

end MailGate
