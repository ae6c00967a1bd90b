import MailGate.Mail.Claims
import MailGate.Python.Query

/-!
# Quoted text in Authentication-Results

A provider quotes what the sender has chosen, an envelope address or a reason, in quoted strings
and comments.  The source searches the header as plain text, so a claim in quoted text counts as
one of the provider unless the provider has made that claim before.
-/

namespace MailGate

open PyStr

/-! ## The lexical contexts of a header -/

/-- Where a place of a header lies; a comment has the number of comments around it. -/
inductive HeaderContext where
  | text
  | quoted
  | quotedPair
  | comment (depth : ℕ)
  | commentPair (depth : ℕ)
deriving DecidableEq, Repr

/-- What is around a comment. -/
def HeaderContext.around : ℕ → HeaderContext
  | 0 => text
  | depth + 1 => comment depth

/-- The context behind a character. -/
def HeaderContext.next : HeaderContext → PyChar → HeaderContext
  | text, c =>
      if c = ofChar '"' then quoted else if c = ofChar '(' then comment 0 else text
  | quoted, c =>
      if c = ofChar '"' then text else if c = ofChar '\\' then quotedPair else quoted
  | quotedPair, _ => quoted
  | comment depth, c =>
      if c = ofChar '(' then comment (depth + 1)
      else if c = ofChar ')' then around depth
      else if c = ofChar '\\' then commentPair depth
      else comment depth
  | commentPair depth, _ => comment depth

/-- The context behind a piece of a header. -/
def HeaderContext.after (context : HeaderContext) (s : PyStr) : HeaderContext :=
  s.foldl next context

/-- Text without quotes, parentheses and backslashes. -/
def PlainText (s : PyStr) : Prop := ∀ c ∈ s, c ∉ py "\"()\\"

instance (s : PyStr) : Decidable (PlainText s) := List.decidableBAll _ s

/-- The characters that open and close quoted text. -/
def quoteChars : PyStr := [ofChar '"', ofChar '(', ofChar ')']

/-- Behind `front`, which ends behind the authserv-id, comes a quoted string or a comment, maybe
one inside of other comments, with this content. -/
structure QuotedPart (front : PyStr) (opening : PyChar) (content : PyStr) (closing : PyChar) :
    Prop where
  afterId : ofChar ';' ∈ front
  delimiters : (opening = ofChar '"' ∧ closing = ofChar '"' ∧
      HeaderContext.text.after front = .text) ∨
    (opening = ofChar '(' ∧ closing = ofChar ')' ∧
      (HeaderContext.text.after front = .text ∨
        ∃ depth, HeaderContext.text.after front = .comment depth))
  inside : ∀ k ≤ content.length,
    HeaderContext.text.after (front ++ opening :: content.take k) ≠
      HeaderContext.text.after front
  closes : HeaderContext.text.after (front ++ opening :: content ++ [closing]) =
    HeaderContext.text.after front

section

variable {front content new rest s t : PyStr} {opening closing c : PyChar}
  {context : HeaderContext}

@[simp] lemma HeaderContext.after_append (context : HeaderContext) (s t : PyStr) :
    context.after (s ++ t) = (context.after s).after t := List.foldl_append

@[simp] lemma HeaderContext.after_cons (context : HeaderContext) (c : PyChar) (s : PyStr) :
    context.after (c :: s) = (context.next c).after s := rfl

@[simp] lemma HeaderContext.after_nil (context : HeaderContext) : context.after [] = context := rfl

lemma PlainText.ne (hs : PlainText s) (hc : c ∈ s) :
    c ≠ ofChar '"' ∧ c ≠ ofChar '(' ∧ c ≠ ofChar ')' ∧ c ≠ ofChar '\\' := by
  refine ⟨?_, ?_, ?_, ?_⟩
  all_goals
    rintro rfl
    exact hs _ hc (by decide)

/-- Plain text stays in its quoted string. -/
lemma PlainText.quoted (hs : PlainText s) : HeaderContext.quoted.after s = .quoted := by
  induction s with
  | nil => rfl
  | cons c s ih =>
    have hc := hs.ne List.mem_cons_self
    rw [HeaderContext.after_cons, HeaderContext.next, if_neg hc.1, if_neg hc.2.2.2]
    exact ih fun d hd => hs d (List.mem_cons_of_mem _ hd)

/-- Plain text stays in its comment. -/
lemma PlainText.comment (hs : PlainText s) (depth : ℕ) :
    (HeaderContext.comment depth).after s = .comment depth := by
  induction s with
  | nil => rfl
  | cons c s ih =>
    have hc := hs.ne List.mem_cons_self
    rw [HeaderContext.after_cons, HeaderContext.next, if_neg hc.2.1, if_neg hc.2.2.1,
      if_neg hc.2.2.2]
    exact ih fun d hd => hs d (List.mem_cons_of_mem _ hd)

/-- The context that a delimiter opens: plain text stays in it, and the other delimiter closes
it. -/
lemma QuotedPart.opened (h : QuotedPart front opening content closing) (hs : PlainText s) :
    ((HeaderContext.text.after front).next opening).after s ≠ HeaderContext.text.after front ∧
      (((HeaderContext.text.after front).next opening).after s).next closing =
        HeaderContext.text.after front := by
  rcases h.delimiters with ⟨rfl, rfl, hfront⟩ | ⟨rfl, rfl, hfront | ⟨depth, hfront⟩⟩
  · have hnext : HeaderContext.text.next (ofChar '"') = .quoted := by decide
    rw [hfront, hnext, hs.quoted]
    decide
  · have hnext : HeaderContext.text.next (ofChar '(') = .comment 0 := by decide
    rw [hfront, hnext, hs.comment]
    decide
  · have hnext : (HeaderContext.comment depth).next (ofChar '(') = .comment (depth + 1) := by
      rw [HeaderContext.next, if_pos rfl]
    rw [hfront, hnext, hs.comment, HeaderContext.next, if_neg (by decide), if_pos rfl]
    exact ⟨by simp, rfl⟩

/-- With other plain text in it, the quoted part is still one. -/
theorem QuotedPart.replace (h : QuotedPart front opening content closing) (hnew : PlainText new) :
    QuotedPart front opening new closing where
  afterId := h.afterId
  delimiters := h.delimiters
  inside := by
    intro k hk
    have htake : PlainText (new.take k) := fun c hc => hnew c (List.mem_of_mem_take hc)
    rw [HeaderContext.after_append, HeaderContext.after_cons]
    exact (h.opened htake).1
  closes := by
    rw [HeaderContext.after_append, HeaderContext.after_append, HeaderContext.after_cons]
    exact (h.opened hnew).2

/-! ## The search stops at a delimiter -/

/-- A character that no claim of the method contains, and that no claim follows. -/
structure Stops (method : PyStr) (c : PyChar) : Prop where
  keyword : ignoreCase c ∉ method ++ py "="
  value : isClaimChar c = false
  start : ¬ (c = ofChar ';' ∨ c.isSpace)

variable {method : PyStr}

lemma stops_delimiter (hmethod : method ∈ claimMethods)
    (hc : c ∈ quoteChars) : Stops method c := by
  have hkeyword : (claimMethods.all fun m => quoteChars.all fun d =>
      decide (ignoreCase d ∉ m ++ py "=")) = true := by decide
  have hvalue : (quoteChars.all fun d =>
      !isClaimChar d && !d.isSpace && d != ofChar ';') = true := by decide
  have hd := List.all_eq_true.1 hvalue _ hc
  simp only [Bool.and_eq_true, Bool.not_eq_true', bne_iff_ne] at hd
  refine ⟨?_, hd.1.1, ?_⟩
  · simpa using List.all_eq_true.1 (List.all_eq_true.1 hkeyword _ hmethod) _ hc
  · rw [hd.1.2]
    simpa using hd.2

/-- A match ends before such a character. -/
lemma matchClaim_append (hc : Stops method c) (s t : PyStr) :
    matchClaim method (s ++ c :: t) = matchClaim method s := by
  rw [matchClaim, matchClaim]
  dsimp only
  by_cases hlen : (method ++ py "=").length ≤ s.length
  · rw [List.take_append_of_le_length hlen, List.drop_append_of_le_length hlen,
      List.takeWhile_append]
    have hhead : (c :: t).takeWhile isClaimChar = [] := by
      rw [List.takeWhile_cons_of_neg (by rw [hc.value]; decide)]
    rw [hhead]
    split
    · split
      · rename_i hfull
        rw [List.append_nil, (List.takeWhile_prefix isClaimChar).eq_of_length hfull]
      · rfl
    · rfl
  · -- the keyword would have to contain the character
    rw [if_neg, if_neg]
    · intro heq
      have := congrArg List.length heq
      rw [List.length_map, List.length_take] at this
      omega
    · intro heq
      refine hc.keyword (heq ▸ List.mem_map.2 ⟨c, ?_, rfl⟩)
      rw [List.take_append]
      refine List.mem_append.2 (.inr ?_)
      obtain ⟨k, hk⟩ : ∃ k, (method ++ py "=").length - s.length = k + 1 :=
        ⟨(method ++ py "=").length - s.length - 1, by omega⟩
      rw [hk]
      exact List.mem_cons_self

lemma searchClaimAfter_append (hc : Stops method c) (s t : PyStr) :
    searchClaimAfter method (s ++ c :: t) =
      (searchClaimAfter method s).or (searchClaimAfter method t) := by
  induction s with
  | nil =>
    rw [List.nil_append, searchClaimAfter.eq_2, if_neg hc.start, searchClaimAfter.eq_1,
      Option.none_or]
  | cons d s ih =>
    rw [List.cons_append, searchClaimAfter, searchClaimAfter, matchClaim_append hc, ih]
    split
    · cases matchClaim method s with
      | some claim => rfl
      | none => rfl
    · rfl

/-- The first claim is the one before the delimiter, if there is one, and otherwise the first
one behind it. -/
lemma searchClaim_append (hc : Stops method c) (s t : PyStr) :
    searchClaim method (s ++ c :: t) =
      (searchClaim method s).or (searchClaimAfter method t) := by
  rw [searchClaim, searchClaim, matchClaim_append hc, searchClaimAfter_append hc]
  cases matchClaim method s with
  | some claim => rfl
  | none => rfl

/-- A claim that somebody has put behind a blank is found. -/
lemma searchClaimAfter_claim {word : PyStr} (hmethod : method ∈ claimMethods)
    (hword : word ∈ [py "pass", py "fail"]) (hc : c ∈ quoteChars) (t : PyStr) :
    searchClaimAfter method (py " " ++ method ++ py "=" ++ word ++ c :: t) = some word := by
  have hfound : ∀ m ∈ claimMethods, ∀ w ∈ [py "pass", py "fail"],
      matchClaim m (m ++ py "=" ++ w) = some w := by decide
  have hmatch : matchClaim method (method ++ py "=" ++ word ++ c :: t) = some word :=
    (matchClaim_append (stops_delimiter hmethod hc) _ t).trans (hfound _ hmethod _ hword)
  show searchClaimAfter method (ofChar ' ' :: (method ++ py "=" ++ word ++ c :: t)) = some word
  rw [searchClaimAfter, if_pos (.inr (by decide)), hmatch]

end

/-! ## Replacing quoted text -/

section

variable {lib : Library} {trustedIds : List PyStr} {method value : PyStr}

/-- What a trusted value says about the methods. -/
def methodClaims (result : List (PyStr × PyStr)) : List (Option PyStr) :=
  claimMethods.map fun method => result.lookup method

lemma methodClaims_trusted (hvalue : authservOf lib value ∈ trustedIds) :
    methodClaims (authenticationResults lib trustedIds [value]) =
      claimMethods.map fun method => some (claimOf lib method value (py "unknown")) := by
  rw [authenticationResults_eq_scan, scanResults_cons hvalue, readTrusted_initial, methodClaims]
  exact List.map_congr_left fun method hmethod => lookup_methods hmethod

/-- The ID is the one before the first semicolon. -/
lemma authservOf_append {front : PyStr} (h : ofChar ';' ∈ front) (t : PyStr) :
    authservOf lib (front ++ t) = authservOf lib front := by
  obtain ⟨s, u, rfl, hs⟩ := List.eq_append_cons_of_mem h
  rw [authservOf, authservOf, List.append_assoc, List.cons_append, before_append hs,
    before_append hs]

lemma verdictOf_word (hlower : LowersAscii lib.unicode.lower) {word : PyStr}
    (hword : word ∈ [py "pass", py "fail"]) : verdictOf lib word = word := by
  have hfixed : ∀ w ∈ [py "pass", py "fail"],
      (∀ c ∈ w, c.val < 0x80) ∧ w.map lowerAsciiChar = w ∧ w ∈ claimValues := by
    have hascii : ([py "pass", py "fail"].all fun w => w.all fun c => c.val < 0x80) = true := by
      decide
    have hmap : ∀ w ∈ [py "pass", py "fail"], w.map lowerAsciiChar = w ∧ w ∈ claimValues := by
      decide
    exact fun w hw => ⟨by simpa using List.all_eq_true.1 hascii w hw, hmap w hw⟩
  obtain ⟨hascii, hmap, hmem⟩ := hfixed word hword
  rw [verdictOf, hlower word hascii, hmap, if_pos hmem]

variable {front content new rest : PyStr} {opening closing : PyChar}

lemma QuotedPart.opening_mem (h : QuotedPart front opening content closing) :
    opening ∈ quoteChars ∧ closing ∈ quoteChars := by
  rcases h.delimiters with ⟨rfl, rfl, -⟩ | ⟨rfl, rfl, -⟩
  · decide
  · decide

/-- What a method gets from the value with this text in the quoted part. -/
lemma QuotedPart.claimOf (h : QuotedPart front opening content closing)
    (hmethod : method ∈ claimMethods) (new rest : PyStr) :
    claimOf lib method (front ++ opening :: new ++ closing :: rest) (py "unknown") =
      (((searchClaim method front).or
        (searchClaimAfter method (new ++ closing :: rest))).map (verdictOf lib)).getD
          (py "unknown") := by
  rw [claimOf_eq, List.append_assoc, List.cons_append,
    searchClaim_append (stops_delimiter hmethod h.opening_mem.1)]

end

/-- The claims of a trusted value do not depend on a quoted part exactly if the provider has made
a claim for every method before it. -/
theorem methodClaims_quoted_iff (lib : Library) (hlower : LowersAscii lib.unicode.lower)
    (trustedIds : List PyStr) (front content rest : PyStr) (opening closing : PyChar)
    (hpart : QuotedPart front opening content closing)
    (htrusted : authservOf lib (front ++ opening :: content ++ closing :: rest) ∈ trustedIds) :
    (∀ new, PlainText new →
      methodClaims (authenticationResults lib trustedIds
          [front ++ opening :: new ++ closing :: rest]) =
        methodClaims (authenticationResults lib trustedIds
          [front ++ opening :: content ++ closing :: rest])) ↔
      ∀ method ∈ claimMethods, (searchClaim method front).isSome := by
  have htrust : ∀ new,
      authservOf lib (front ++ opening :: new ++ closing :: rest) ∈ trustedIds := by
    intro new
    rw [List.append_assoc, authservOf_append hpart.afterId]
    rwa [List.append_assoc, authservOf_append hpart.afterId] at htrusted
  simp only [methodClaims_trusted (htrust _), List.map_inj_left, Option.some.injEq]
  constructor
  · intro hkept method hmethod
    rw [Option.isSome_iff_ne_none]
    intro hnone
    -- without a claim before it, the quoted part decides
    have hword : ∀ word ∈ [py "pass", py "fail"],
        claimOf lib method (front ++ opening :: content ++ closing :: rest) (py "unknown") =
          word := by
      intro word hword
      have hplain : ∀ m ∈ claimMethods, ∀ w ∈ [py "pass", py "fail"],
          PlainText (py " " ++ m ++ py "=" ++ w) := by decide
      rw [← hkept _ (hplain _ hmethod _ hword) method hmethod, hpart.claimOf hmethod, hnone,
        Option.none_or, searchClaimAfter_claim hmethod hword hpart.opening_mem.2]
      exact verdictOf_word hlower hword
    have hpass := hword (py "pass") (by decide)
    have hfail := hword (py "fail") (by decide)
    rw [hpass] at hfail
    revert hfail
    decide
  · intro hbefore new _ method hmethod
    obtain ⟨claim, hclaim⟩ := Option.isSome_iff_exists.1 (hbefore method hmethod)
    rw [hpart.claimOf hmethod, hpart.claimOf hmethod, hclaim, Option.some_or, Option.some_or]

/-- A reason behind the four claims changes none of them. -/
theorem methodClaims_reason :
    methodClaims (authenticationResults (sampleLibrary blankMessage [] []) [py "mx"]
        [py "mx; spf=pass dkim=pass dmarc=fail arc=none reason=" ++ ofChar '"' :: py "dmarc=pass" ++
          ofChar '"' :: py ""]) =
      methodClaims (authenticationResults (sampleLibrary blankMessage [] []) [py "mx"]
        [py "mx; spf=pass dkim=pass dmarc=fail arc=none reason=" ++ ofChar '"' :: py "ok" ++
          ofChar '"' :: py ""]) := by
  refine (methodClaims_quoted_iff _ (fun s _ => rfl) _ _ _ _ _ _ ?_ ?_).2 ?_ _ (by decide)
  · exact ⟨by decide, .inl ⟨rfl, rfl, by decide⟩, by decide, by decide⟩
  · decide
  · decide

/-- The envelope address of a sender takes the place of the verdict of the provider: the quoted
text `x` leaves `dmarc=fail` to be found, the text `x; dmarc=pass` hides it. -/
theorem methodClaims_masked :
    ¬ ∀ (front content new rest : PyStr) (opening closing : PyChar),
      QuotedPart front opening content closing → PlainText new →
      authservOf (sampleLibrary blankMessage [] [])
        (front ++ opening :: content ++ closing :: rest) ∈ [py "mx"] →
      methodClaims (authenticationResults (sampleLibrary blankMessage [] []) [py "mx"]
          [front ++ opening :: new ++ closing :: rest]) =
        methodClaims (authenticationResults (sampleLibrary blankMessage [] []) [py "mx"]
          [front ++ opening :: content ++ closing :: rest]) := by
  intro hkept
  have hpart : QuotedPart (py "mx; spf=none smtp.mailfrom=") (ofChar '"') (py "x")
      (ofChar '"') :=
    ⟨by decide, .inl ⟨rfl, rfl, by decide⟩, by decide, by decide⟩
  have heq := hkept _ _ (py "x; dmarc=pass") (py "; dmarc=fail") _ _ hpart (by decide) (by decide)
  revert heq
  decide

end MailGate
