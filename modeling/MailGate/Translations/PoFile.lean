import Mathlib.Data.List.DropRight
import MailGate.Translations.Read

/-!
# PO files

A PO file is a list of entries, obsolete entries, comments and blank lines.  The flag `fuzzy`
belongs to the entry that comes next, obsolete or not.  `read_catalog` gives it to the next entry
that is not obsolete.
-/

namespace MailGate

namespace Translations

open PyStr

/-! ## What a file consists of -/

section

variable (literals : Literals)

/-- A line with a text, after a keyword or alone and then in double quotes. -/
structure Piece (keyword : PyStr) where
  raw : PyStr
  text : PyStr
  value : PyStr
  strip_eq : strip raw = keyword ++ text
  quote : keyword = [] → startswith (py "\"") text
  eval : literals.eval text = some (.str value)

/-- An entry of two texts.  (An entry with a context or with plural forms is refused.) -/
structure LiveEntry where
  msgid : Piece literals (py "msgid ")
  msgidMore : List (Piece literals [])
  msgstr : Piece literals (py "msgstr ")
  msgstrMore : List (Piece literals [])

/-- A line that starts with `#~`. -/
def IsObsoleteLine (raw : PyStr) : Prop := startswith (py "#~") (strip raw)

instance (raw : PyStr) : Decidable (IsObsoleteLine raw) :=
  inferInstanceAs (Decidable (_ = true))

/-- A line that starts with `#` and is not obsolete. -/
structure Comment where
  raw : PyStr
  hash : startswith (py "#") (strip raw)
  not_obsolete : ¬IsObsoleteLine raw

structure Obsolete where
  lines : List PyStr
  ne_nil : lines ≠ []
  marked : ∀ raw ∈ lines, IsObsoleteLine raw

structure Blank where
  raw : PyStr
  strip_eq : strip raw = []

inductive Item where
  | blank (line : Blank)
  | comment (line : Comment)
  | obsolete (entry : Obsolete)
  | live (entry : LiveEntry literals)

end

variable {literals : Literals} {path : PyStr}

namespace LiveEntry

/-- The msgid. -/
def key (e : LiveEntry literals) : PyStr := (e.msgid.value :: e.msgidMore.map (·.value)).flatten

/-- The msgstr. -/
def value (e : LiveEntry literals) : PyStr := (e.msgstr.value :: e.msgstrMore.map (·.value)).flatten

def lines (e : LiveEntry literals) : List PyStr :=
  e.msgid.raw :: e.msgidMore.map (·.raw) ++ e.msgstr.raw :: e.msgstrMore.map (·.raw)

/-- Key and value name the same placeholders, if both are there. -/
def PlaceholdersMatch (e : LiveEntry literals) : Prop :=
  e.key ≠ [] → e.value ≠ [] → SamePlaceholders e.key e.value

end LiveEntry

namespace Comment

/-- The flags of a comment that starts with `#,` stand between commas and white space. -/
def isFuzzyFlag (c : Comment) : Bool :=
  startswith (py "#,") (strip c.raw) &&
    decide (py "fuzzy" ∈ ((strip c.raw).drop 2).splitOnP fun x => x == ofChar ',' || x.isSpace)

/-- What `read_catalog` takes for the flag. -/
def setsPending (c : Comment) : Bool :=
  startswith (py "#,") (strip c.raw) && contains (py "fuzzy") (strip c.raw)

end Comment

namespace Item

def lines : Item literals → List PyStr
  | blank line => [line.raw]
  | comment line => [line.raw]
  | obsolete entry => entry.lines
  | live entry => entry.lines

def isLive : Item literals → Bool
  | live _ => true
  | _ => false

/-- An entry, live or obsolete. -/
def isEntry : Item literals → Bool
  | live _ | obsolete _ => true
  | _ => false

def isFuzzyFlag : Item literals → Bool
  | comment line => line.isFuzzyFlag
  | _ => false

def setsPending : Item literals → Bool
  | comment line => line.setsPending
  | _ => false

end Item

/-- One of the items has the flag, and nothing after it stops it. -/
def lastFlag (flag stop : Item literals → Bool) (before : List (Item literals)) : Bool :=
  (before.rtakeWhile fun item => !stop item).any flag

/-- An entry after these items has the flag `fuzzy` of its own: it stands after the last entry. -/
def ownFlag (before : List (Item literals)) : Bool := lastFlag Item.isFuzzyFlag Item.isEntry before

/-- A comment that `read_catalog` takes for the flag stands after the last live entry. -/
def pendingFlag (before : List (Item literals)) : Bool :=
  lastFlag Item.setsPending Item.isLive before

/-- The live entries after `before`, each with everything that stands before it. -/
def occurrences : (before items : List (Item literals)) →
    List (List (Item literals) × LiveEntry literals)
  | _, [] => []
  | before, .live entry :: items => (before, entry) :: occurrences (before ++ [.live entry]) items
  | before, item :: items => occurrences (before ++ [item]) items

/-- A PO file: its lines are those of the items, no two live entries have one msgid, and the
placeholders match. -/
structure IsPoFile (content : Bytes) (items : List (Item literals)) : Prop where
  lines_eq : readLines content = some (items.flatMap Item.lines)
  distinct : ((occurrences [] items).map (·.2.key)).Nodup
  placeholders : ∀ o ∈ occurrences [] items, o.2.PlaceholdersMatch

/-! ## What a catalogue should hold -/

/-- The header counts, and a translation without a flag of its own. -/
def Counts (before : List (Item literals)) (e : LiveEntry literals) : Prop :=
  e.key = [] ∨ e.value ≠ [] ∧ ownFlag before = false

/-- The file is read, and the catalogue holds the entries that count and nothing else. -/
def ReadsExactly (path : PyStr) (content : Bytes) (items : List (Item literals)) : Prop :=
  ∃ messages, readCatalog literals path content = .ok messages ∧
    ∀ key value, (key, value) ∈ messages.entries ↔
      ∃ o ∈ occurrences [] items, Counts o.1 o.2 ∧ (key, value) = (o.2.key, o.2.value)

/-- Wherever a comment that `read_catalog` takes for the flag is pending at a live entry, the entry
is not the header, and it is not translated or has the flag of its own. -/
def FlagsOwned (items : List (Item literals)) : Prop :=
  ∀ o ∈ occurrences [] items, pendingFlag o.1 = true →
    o.2.key ≠ [] ∧ (o.2.value = [] ∨ ownFlag o.1 = true)

instance (e : LiveEntry literals) : Decidable e.PlaceholdersMatch :=
  inferInstanceAs (Decidable (_ → _ → _))

instance (items : List (Item literals)) : Decidable (FlagsOwned items) :=
  List.decidableBAll _ _

/-! ## Flags -/

lemma lastFlag_concat (flag stop : Item literals → Bool) (before : List (Item literals))
    (item : Item literals) : lastFlag flag stop (before ++ [item]) =
      if stop item then false else lastFlag flag stop before || flag item := by
  rw [lastFlag, List.rtakeWhile_concat]
  cases hstop : stop item with
  | true => rfl
  | false =>
    rw [Bool.not_false, if_pos rfl, if_neg Bool.false_ne_true, List.any_append, lastFlag]
    simp

/-- The pieces of a text are parts of it. -/
lemma infix_of_mem_splitOnP {p : PyChar → Bool} {s piece : PyStr} (h : piece ∈ s.splitOnP p) :
    piece <:+: s := by
  have hparts : ∀ s : PyStr, ∃ first rest, s.splitOnP p = first :: rest ∧ first <+: s ∧
      ∀ x ∈ rest, x <:+: s := by
    intro s
    induction s with
    | nil => exact ⟨[], [], List.splitOnP_nil, List.prefix_refl [], by simp⟩
    | cons c s ih =>
      obtain ⟨first, rest, hs, hfirst, hrest⟩ := ih
      have hlater : ∀ x ∈ rest, x <:+: c :: s :=
        fun x hx => (hrest x hx).trans (List.infix_cons s.infix_rfl)
      rw [List.splitOnP_cons_eq_if_modifyHead, hs]
      split
      · refine ⟨[], first :: rest, rfl, List.nil_prefix, ?_⟩
        rw [List.forall_mem_cons]
        exact ⟨hfirst.isInfix.trans (List.infix_cons s.infix_rfl), hlater⟩
      · exact ⟨c :: first, rest, rfl, List.prefix_cons_inj c |>.2 hfirst, hlater⟩
  obtain ⟨first, rest, hs, hfirst, hrest⟩ := hparts s
  rw [hs] at h
  rcases List.mem_cons.1 h with rfl | h
  · exact hfirst.isInfix
  · exact hrest piece h

/-- `read_catalog` overlooks no flag. -/
lemma Comment.setsPending_of_isFuzzyFlag {c : Comment} (h : c.isFuzzyFlag = true) :
    c.setsPending = true := by
  rw [isFuzzyFlag, Bool.and_eq_true, decide_eq_true_eq] at h
  rw [setsPending, h.1, Bool.true_and, contains_iff]
  exact (infix_of_mem_splitOnP h.2).trans (List.drop_suffix 2 _).isInfix

lemma pendingFlag_of_ownFlag {before : List (Item literals)} (h : ownFlag before = true) :
    pendingFlag before = true := by
  induction before using List.reverseRecOn with
  | nil => exact absurd h Bool.false_ne_true
  | append_singleton before item ih =>
    rw [ownFlag, lastFlag_concat] at h
    rw [pendingFlag, lastFlag_concat]
    cases item with
    | blank line =>
      have h : (lastFlag Item.isFuzzyFlag Item.isEntry before || false) = true := h
      rw [Bool.or_false] at h
      exact Bool.or_eq_true_iff.2 (.inl (ih h))
    | comment line =>
      rcases Bool.or_eq_true_iff.1 h with h | h
      · exact Bool.or_eq_true_iff.2 (.inl (ih h))
      · exact Bool.or_eq_true_iff.2 (.inr (Comment.setsPending_of_isFuzzyFlag h))
    | obsolete entry => exact absurd h Bool.false_ne_true
    | live entry => exact absurd h Bool.false_ne_true

/-! ## One item -/

section

variable {st : Reader} {messages : Catalog}

/-- Lines in quotes go on with a text that `make` keeps. -/
lemma foldlM_more (make : List PyStr → Reader)
    (hstep : ∀ (pieces : List PyStr) {text value : PyStr}, literals.eval text = some (.str value) →
      (make pieces).readQuoted literals text = .ok (make (pieces ++ [value])))
    (more : List (Piece literals [])) (pieces : List PyStr) :
    (more.map (·.raw)).foldlM (Reader.readLine literals path) (make pieces) =
      .ok (make (pieces ++ more.map (·.value))) := by
  induction more generalizing pieces with
  | nil =>
    rw [List.map_nil, List.map_nil, List.append_nil]
    rfl
  | cons piece more ih =>
    have htext : strip piece.raw = piece.text := piece.strip_eq
    have hline : (make pieces).readLine literals path piece.raw =
        .ok (make (pieces ++ [piece.value])) := by
      rw [Reader.readLine_quoted (by rw [htext]; exact piece.quote rfl), htext,
        hstep pieces piece.eval]
    rw [List.map_cons, List.foldlM_cons, hline, Exceptions.ok_bind, ih, List.map_cons,
      List.append_assoc, List.singleton_append]

/-- The variables behind an entry. -/
def LiveEntry.reader (e : LiveEntry literals) (messages : Catalog) (fuzzy : Bool) : Reader :=
  ⟨messages, some (e.msgid.value :: e.msgidMore.map (·.value)),
    some (e.msgstr.value :: e.msgstrMore.map (·.value)), .msgstr, fuzzy, false⟩

/-- The pending flag becomes that of the entry. -/
lemma foldlM_live (e : LiveEntry literals) (h : st.committed literals path = .ok messages) :
    e.lines.foldlM (Reader.readLine literals path) st =
      .ok (e.reader messages st.pendingFuzzy) := by
  rw [LiveEntry.lines, List.foldlM_append, List.foldlM_cons,
    Reader.readLine_msgid e.msgid.strip_eq e.msgid.eval h, Exceptions.ok_bind,
    foldlM_more (fun pieces => ⟨messages, some pieces, some [], .msgid, st.pendingFuzzy, false⟩)
      (fun _ _ _ htext => Reader.readQuoted_msgid htext rfl rfl),
    Exceptions.ok_bind, List.foldlM_cons,
    Reader.readLine_msgstr e.msgstr.strip_eq e.msgstr.eval rfl, Exceptions.ok_bind]
  exact foldlM_more (fun pieces => ⟨messages, some (e.msgid.value :: e.msgidMore.map (·.value)),
      some pieces, .msgstr, st.pendingFuzzy, false⟩)
    (fun _ _ _ htext => Reader.readQuoted_msgstr htext rfl rfl) _ _

/-- An entry with a new key joins the messages, unless it is fuzzy or not translated. -/
lemma committed_reader (path : PyStr) {e : LiveEntry literals} (hplaceholders : e.PlaceholdersMatch)
    (hkey : e.key ∉ messages.keys) (fuzzy : Bool) :
    ∃ messages', (e.reader messages fuzzy).committed literals path = .ok messages' ∧
      messages'.entries = messages.entries ++
        if fuzzy = false ∧ (e.key = [] ∨ e.value ≠ []) then [(e.key, e.value)] else [] := by
  cases fuzzy with
  | true => exact ⟨messages, rfl, (List.append_nil _).symm⟩
  | false =>
    have hsame : ¬(e.key ≠ [] ∧ e.value ≠ [] ∧ ¬SamePlaceholders e.key e.value) :=
      fun h => h.2.2 (hplaceholders h.1 h.2.1)
    have hcommitted : (e.reader messages false).committed literals path =
        if e.key = [] ∨ e.value ≠ [] then .ok (messages.set e.key e.value) else .ok messages :=
      if_neg hsame
    rw [hcommitted]
    by_cases hcounts : e.key = [] ∨ e.value ≠ []
    · rw [if_pos hcounts, if_pos ⟨rfl, hcounts⟩]
      exact ⟨_, rfl, Dict.set_of_not_mem hkey⟩
    · rw [if_neg hcounts, if_neg fun h => hcounts h.2]
      exact ⟨messages, rfl, (List.append_nil _).symm⟩

/-- The next commit leaves these messages, and this flag is pending. -/
def Settled (literals : Literals) (path : PyStr) (st : Reader) (messages : Catalog)
    (pending : Bool) : Prop :=
  st.committed literals path = .ok messages ∧ st.pendingFuzzy = pending

lemma readLine_obsolete {raw : PyStr} (h : IsObsoleteLine raw) :
    st.readLine literals path raw = .ok st := by
  obtain ⟨rest, hline⟩ := List.isPrefixOf_iff_prefix.1 h
  have hhash : startswith (py "#") (strip raw) = true := by
    rw [← hline]
    rfl
  have hflag : startswith (py "#,") (strip raw) = false := by
    rw [← hline]
    rfl
  rw [Reader.readLine_hash hhash, hflag, Bool.false_and, Bool.or_false]

lemma foldlM_obsolete {lines : List PyStr} (h : ∀ raw ∈ lines, IsObsoleteLine raw) :
    lines.foldlM (Reader.readLine literals path) st = .ok st := by
  induction lines with
  | nil => rfl
  | cons raw lines ih =>
    rw [List.forall_mem_cons] at h
    rw [List.foldlM_cons, readLine_obsolete h.1, Exceptions.ok_bind, ih h.2]

/-- What is not a live entry leaves the messages, and hands on the pending flag. -/
lemma settled_other {before : List (Item literals)} {item : Item literals}
    (hitem : item.isLive = false) (h : Settled literals path st messages (pendingFlag before)) :
    ∃ st', item.lines.foldlM (Reader.readLine literals path) st = .ok st' ∧
      Settled literals path st' messages (pendingFlag (before ++ [item])) := by
  obtain ⟨hcommitted, hpending⟩ := h
  rw [pendingFlag, lastFlag_concat, if_neg (by simp [hitem]), ← pendingFlag, ← hpending]
  cases item with
  | blank line =>
    refine ⟨Reader.idle messages st.pendingFuzzy, ?_, rfl, (Bool.or_false _).symm⟩
    rw [Item.lines, List.foldlM_cons, Reader.readLine_blank line.strip_eq, Reader.commit,
      hcommitted]
    rfl
  | comment line =>
    refine ⟨{ st with pendingFuzzy := st.pendingFuzzy || line.setsPending }, ?_, hcommitted, rfl⟩
    rw [Item.lines, List.foldlM_cons, Reader.readLine_hash line.hash]
    rfl
  | obsolete entry => exact ⟨st, foldlM_obsolete entry.marked, hcommitted, (Bool.or_false _).symm⟩
  | live entry => cases hitem

/-! ## All items -/

/-- `read_catalog` takes the entry. -/
def Taken (o : List (Item literals) × LiveEntry literals) : Prop :=
  pendingFlag o.1 = false ∧ (o.2.key = [] ∨ o.2.value ≠ [])

instance (o : List (Item literals) × LiveEntry literals) : Decidable (Taken o) :=
  inferInstanceAs (Decidable (_ ∧ _))

/-- The messages of the entries that are taken. -/
def takenEntries (before items : List (Item literals)) : List (PyStr × PyStr) :=
  ((occurrences before items).filter (Taken ·)).map fun o => (o.2.key, o.2.value)

lemma occurrences_other {before items : List (Item literals)} {item : Item literals}
    (h : item.isLive = false) :
    occurrences before (item :: items) = occurrences (before ++ [item]) items := by
  cases item with
  | live entry => cases h
  | blank line => rfl
  | comment line => rfl
  | obsolete entry => rfl

lemma takenEntries_live (before items : List (Item literals)) (e : LiveEntry literals) :
    takenEntries before (.live e :: items) =
      (if Taken (before, e) then [(e.key, e.value)] else []) ++
        takenEntries (before ++ [.live e]) items := by
  rw [takenEntries, occurrences, List.filter_cons]
  by_cases h : Taken (before, e)
  · rw [if_pos h, if_pos (decide_eq_true h)]
    rfl
  · rw [if_neg h, if_neg (by simpa using h)]
    rfl

lemma Item.exists_of_isLive {item : Item literals} (h : item.isLive = true) :
    ∃ e, item = .live e := by
  cases item with
  | live entry => exact ⟨entry, rfl⟩
  | blank line => cases h
  | comment line => cases h
  | obsolete entry => cases h

/-- A live entry that is taken joins the messages, and no flag is pending behind it. -/
lemma settled_live {before : List (Item literals)} {e : LiveEntry literals}
    (hplaceholders : e.PlaceholdersMatch) (hkey : e.key ∉ messages.keys)
    (h : Settled literals path st messages (pendingFlag before)) :
    ∃ messages', (Item.live e).lines.foldlM (Reader.readLine literals path) st =
        .ok (e.reader messages (pendingFlag before)) ∧
      Settled literals path (e.reader messages (pendingFlag before)) messages'
        (pendingFlag (before ++ [.live e])) ∧
      messages'.entries = messages.entries ++
        if Taken (before, e) then [(e.key, e.value)] else [] := by
  obtain ⟨messages', hcommitted, hentries⟩ :=
    committed_reader path hplaceholders hkey (pendingFlag before)
  have hnext : pendingFlag (before ++ [.live e]) = false := by
    rw [pendingFlag, lastFlag_concat]
    rfl
  refine ⟨messages', ?_, ⟨hcommitted, hnext.symm⟩, hentries⟩
  rw [Item.lines, foldlM_live e h.1, h.2]

/-- The items add the entries that are taken, in their order. -/
lemma foldlM_items {before items : List (Item literals)}
    (h : Settled literals path st messages (pendingFlag before))
    (hkeys : (messages.keys ++ (occurrences before items).map (·.2.key)).Nodup)
    (hplaceholders : ∀ o ∈ occurrences before items, o.2.PlaceholdersMatch) :
    ∃ st' messages',
      (items.flatMap Item.lines).foldlM (Reader.readLine literals path) st = .ok st' ∧
      st'.committed literals path = .ok messages' ∧
      messages'.entries = messages.entries ++ takenEntries before items := by
  induction items generalizing before st messages with
  | nil => exact ⟨st, messages, rfl, h.1, (List.append_nil _).symm⟩
  | cons item items ih =>
    rw [List.flatMap_cons, List.foldlM_append]
    cases hitem : item.isLive with
    | false =>
      obtain ⟨st₁, hlines, hsettled⟩ := settled_other hitem h
      rw [occurrences_other hitem] at hkeys hplaceholders
      rw [hlines, Exceptions.ok_bind, takenEntries, occurrences_other hitem]
      exact ih hsettled hkeys hplaceholders
    | true =>
      obtain ⟨e, rfl⟩ := Item.exists_of_isLive hitem
      rw [occurrences, List.map_cons] at hkeys
      rw [occurrences, List.forall_mem_cons] at hplaceholders
      have hkey : e.key ∉ messages.keys := fun hmem =>
        (List.nodup_append.1 hkeys).2.2 _ hmem _ List.mem_cons_self rfl
      obtain ⟨messages₁, hlines, hsettled, hentries⟩ := settled_live hplaceholders.1 hkey h
      -- the key is taken now, or still free where the entry is fuzzy
      have hkeys₁ : (messages₁.keys ++
          (occurrences (before ++ [.live e]) items).map (·.2.key)).Nodup := by
        refine hkeys.sublist ?_
        rw [Catalog.keys, hentries, List.map_append, List.append_assoc]
        refine List.Sublist.append_left ?_ _
        split
        · exact List.Sublist.refl _
        · exact List.sublist_cons_self _ _
      obtain ⟨st', messages', hrest, hcommitted', hentries'⟩ :=
        ih hsettled hkeys₁ hplaceholders.2
      refine ⟨st', messages', ?_, hcommitted', ?_⟩
      · rw [hlines, Exceptions.ok_bind, hrest]
      · rw [hentries', hentries, List.append_assoc, takenEntries_live]

end

/-- A PO file is read, and the catalogue holds what is taken. -/
theorem readCatalog_poFile (path : PyStr) {content : Bytes} {items : List (Item literals)}
    (h : IsPoFile content items) :
    ∃ messages, readCatalog literals path content = .ok messages ∧
      messages.entries = takenEntries [] items := by
  have hidle : Settled literals path (.idle .empty false) .empty
      (pendingFlag ([] : List (Item literals))) := ⟨rfl, rfl⟩
  obtain ⟨st, messages, hlines, hcommitted, hentries⟩ :=
    foldlM_items hidle h.distinct h.placeholders
  refine ⟨messages, ?_, hentries⟩
  rw [readCatalog, h.lines_eq]
  show (_ >>= _) = _
  rw [hlines, Exceptions.ok_bind, Reader.commit, hcommitted]
  rfl

/-! ## When the catalogue is right -/

/-- `read_catalog` and the flags of their own agree on an entry. -/
lemma taken_iff_counts (o : List (Item literals) × LiveEntry literals) :
    (Taken o ↔ Counts o.1 o.2) ↔
      (pendingFlag o.1 = true → o.2.key ≠ [] ∧ (o.2.value = [] ∨ ownFlag o.1 = true)) := by
  have hown : pendingFlag o.1 = false → ownFlag o.1 = false := by
    intro h
    rw [← Bool.not_eq_true] at h ⊢
    exact fun hown => h (pendingFlag_of_ownFlag hown)
  rw [Taken, Counts]
  cases hpending : pendingFlag o.1 with
  | false => simp [hown hpending]
  | true => simp; tauto

/-- Which entry a message comes from is known by its key. -/
lemma mem_image_iff {items : List (Item literals)}
    (hdistinct : ((occurrences [] items).map (·.2.key)).Nodup)
    {p : List (Item literals) × LiveEntry literals → Prop}
    {o : List (Item literals) × LiveEntry literals} (ho : o ∈ occurrences [] items) :
    (∃ o' ∈ occurrences [] items, p o' ∧ (o.2.key, o.2.value) = (o'.2.key, o'.2.value)) ↔ p o := by
  constructor
  · rintro ⟨o', ho', hp, heq⟩
    have hsame : o' = o := List.inj_on_of_nodup_map hdistinct ho' ho (Prod.mk.inj heq).1.symm
    rwa [← hsame]
  · exact fun hp => ⟨o, ho, hp, rfl⟩

section

variable {content : Bytes} {items : List (Item literals)}

lemma mem_takenEntries {key value : PyStr} : (key, value) ∈ takenEntries [] items ↔
    ∃ o ∈ occurrences [] items, Taken o ∧ (key, value) = (o.2.key, o.2.value) := by
  rw [takenEntries, List.mem_map]
  simp only [List.mem_filter, decide_eq_true_eq]
  constructor
  · rintro ⟨o, ⟨ho, htaken⟩, heq⟩
    exact ⟨o, ho, htaken, heq.symm⟩
  · rintro ⟨o, ho, htaken, heq⟩
    exact ⟨o, ⟨ho, htaken⟩, heq.symm⟩

lemma flagsOwned_of_readsExactly (h : IsPoFile content items)
    (hexact : ReadsExactly path content items) : FlagsOwned items := by
  obtain ⟨messages, hread, hentries⟩ := readCatalog_poFile path h
  obtain ⟨messages', hread', hmem⟩ := hexact
  obtain rfl : messages' = messages := Except.ok.inj (hread'.symm.trans hread)
  intro o ho
  refine (taken_iff_counts o).1 ?_
  have heq := hmem o.2.key o.2.value
  rwa [hentries, mem_takenEntries, mem_image_iff h.distinct ho,
    mem_image_iff (p := fun o => Counts o.1 o.2) h.distinct ho] at heq

lemma readsExactly_of_flagsOwned (h : IsPoFile content items) (hflags : FlagsOwned items) :
    ReadsExactly path content items := by
  obtain ⟨messages, hread, hentries⟩ := readCatalog_poFile path h
  refine ⟨messages, hread, fun key value => ?_⟩
  rw [hentries, mem_takenEntries]
  refine exists_congr fun o => and_congr_right fun ho => and_congr_left fun _ => ?_
  exact (taken_iff_counts o).2 (hflags o ho)

/-- The catalogue of a PO file holds exactly the header and the translations without a flag of
their own if and only if no flag is pending where it does harm. -/
theorem readsExactly_iff (path : PyStr) (h : IsPoFile content items) :
    ReadsExactly path content items ↔ FlagsOwned items :=
  ⟨flagsOwned_of_readsExactly h, readsExactly_of_flagsOwned h⟩

end

/-- Texts of printable ASCII in double quotes, without escapes. -/
def plain : Literals where
  eval
    | quote :: rest =>
        if quote = ofChar '"' ∧ rest.getLast? = some (ofChar '"') ∧
            (rest.dropLast.all fun c =>
              0x20 ≤ c.val && c.val < 0x7F && c != ofChar '"' && c != ofChar '\\') then
          some (.str rest.dropLast)
        else none
    | [] => none
  repr s := py "'" ++ s ++ py "'"

def oldEntry : LiveEntry plain where
  msgid := ⟨py "msgid \"Old\"", py "\"Old\"", py "Old", by decide, by decide, by decide⟩
  msgidMore := []
  msgstr := ⟨py "msgstr \"Alt\"", py "\"Alt\"", py "Alt", by decide, by decide, by decide⟩
  msgstrMore := []

def currentEntry : LiveEntry plain where
  msgid :=
    ⟨py "msgid \"Current\"", py "\"Current\"", py "Current", by decide, by decide, by decide⟩
  msgidMore := []
  msgstr :=
    ⟨py "msgstr \"Aktuell\"", py "\"Aktuell\"", py "Aktuell", by decide, by decide, by decide⟩
  msgstrMore := []

def fuzzyComment : Comment := ⟨py "#, fuzzy", by decide, by decide⟩

/-- A fuzzy entry before one that is not. -/
theorem readsExactly_iff_fuzzy :
    ReadsExactly (py "django.po")
      (bytes ("#, fuzzy\n" ++ "msgid \"Old\"\n" ++ "msgstr \"Alt\"\n" ++ "\n" ++
        "msgid \"Current\"\n" ++ "msgstr \"Aktuell\"\n"))
      [.comment fuzzyComment, .live oldEntry, .blank ⟨[], rfl⟩, .live currentEntry] :=
  (readsExactly_iff (py "django.po") ⟨by decide +kernel, by decide +kernel, by decide +kernel⟩).2
    (by decide +kernel)

def obsoleteEntry : Obsolete where
  lines := [py "#~ msgid \"Old\"", py "#~ msgstr \"Alt\""]
  ne_nil := by decide
  marked := by decide

/-- The same file with the fuzzy entry obsolete. -/
def obsoleteFile : Bytes :=
  bytes ("#, fuzzy\n" ++ "#~ msgid \"Old\"\n" ++ "#~ msgstr \"Alt\"\n" ++ "\n" ++
    "msgid \"Current\"\n" ++ "msgstr \"Aktuell\"\n")

def obsoleteItems : List (Item plain) :=
  [.comment fuzzyComment, .obsolete obsoleteEntry, .blank ⟨[], rfl⟩, .live currentEntry]

/-- The flag of the obsolete entry removes the translation after it. -/
theorem obsoleteFile_not_readsExactly :
    IsPoFile obsoleteFile obsoleteItems ∧
      ¬ReadsExactly (py "django.po") obsoleteFile obsoleteItems := by
  have hfile : IsPoFile obsoleteFile obsoleteItems :=
    ⟨by decide +kernel, by decide +kernel, by decide +kernel⟩
  exact ⟨hfile, fun h => absurd (flagsOwned_of_readsExactly hfile h) (by decide +kernel)⟩

/-! ## Compiling -/

/-- What the compiled file of a PO file says. -/
theorem readMo_of_poFile {content file : Bytes} {items : List (Item literals)} {messages : Catalog}
    (h : IsPoFile content items) (hread : readCatalog literals path content = .ok messages)
    (hfile : compileCatalog messages = some file) :
    ∃ entries, readMo file = some entries ∧ entries.Perm (takenEntries [] items) := by
  obtain ⟨messages', hread', hentries⟩ := readCatalog_poFile path h
  obtain rfl : messages' = messages := Except.ok.inj (hread'.symm.trans hread)
  obtain ⟨p⟩ := nonempty_parts hfile
  exact ⟨_, p.readMo_eq, hentries ▸ messages_perm messages'⟩

end Translations

end MailGate
