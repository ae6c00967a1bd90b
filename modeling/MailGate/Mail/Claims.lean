import MailGate.Lib.Dict
import MailGate.Mail.Parse

/-!
# The claims of the provider

`parse_authentication_results` as the source has it: a dictionary, a loop over the header values
that stops at the first trusted one, and in it a loop over the keys of the dictionary that
writes the dictionary.  It reads nothing but the first trusted value.
-/

namespace MailGate

open PyStr

/-- The keys that stand for methods. -/
def claimMethods : List PyStr := ["spf", "dkim", "dmarc", "arc"].map py

/-- The dictionary before the loop. -/
def initialResult : List (PyStr × PyStr) :=
  claimMethods.map (fun item => (item, py "unknown")) ++ [(py "authserv_id", [])]

/-- The values that a method can have. -/
def closedValues : List PyStr := claimValues ++ [py "unknown"]

section

variable (lib : Library) (trustedIds : List PyStr)

/-- The verdict that a match stands for. -/
def verdictOf (claim : PyStr) : PyStr :=
  if lib.unicode.lower claim ∈ claimValues then lib.unicode.lower claim else py "unknown"

/-- One round of `for method in result`. -/
def readMethod (value : PyStr) (result : List (PyStr × PyStr)) (method : PyStr) :
    List (PyStr × PyStr) :=
  match searchClaim method value with
  | some claim => Dict.set result method (verdictOf lib claim)
  | none => result

/-- What the body of the loop does with a trusted value before it stops. -/
def readTrusted (value : PyStr) (result : List (PyStr × PyStr)) : List (PyStr × PyStr) :=
  let result := Dict.set result (py "authserv_id") (authservOf lib value)
  (result.map (·.1)).foldl (readMethod lib value) result

/-- `for value in values`. -/
def scanResults : List PyStr → List (PyStr × PyStr) → List (PyStr × PyStr)
  | [], result => result
  | value :: values, result =>
      if authservOf lib value ∉ trustedIds then scanResults values result
      else readTrusted lib value result

/-- `parse_authentication_results`, with the dictionary it returns. -/
def authenticationResults (values : List PyStr) : List (PyStr × PyStr) :=
  if trustedIds = [] then initialResult else scanResults lib trustedIds values initialResult

/-- The dictionary with these entries. -/
def ProviderClaims.items (claims : ProviderClaims) : List (PyStr × PyStr) :=
  [(py "spf", claims.spf), (py "dkim", claims.dkim), (py "dmarc", claims.dmarc),
    (py "arc", claims.arc), (py "authserv_id", claims.authservId)]

end

section

variable {lib : Library} {trustedIds values : List PyStr} {value : PyStr}

/-! ## The loop over the keys -/

lemma claimOf_eq (method value current : PyStr) : claimOf lib method value current =
    ((searchClaim method value).map (verdictOf lib)).getD current := by
  rw [claimOf]
  cases searchClaim method value with
  | some claim => rfl
  | none => rfl

lemma readMethod_middle {before after : List (PyStr × PyStr)} {method current : PyStr}
    (hbefore : method ∉ before.map (·.1)) (hafter : method ∉ after.map (·.1)) :
    readMethod lib value (before ++ (method, current) :: after) method =
      before ++ (method, claimOf lib method value current) :: after := by
  rw [readMethod, claimOf_eq]
  cases searchClaim method value with
  | some claim => exact Dict.set_middle hbefore hafter
  | none => rfl

/-- The loop over the keys visits every entry once, although it writes the dictionary; the
entries of `before` are those that it has visited. -/
lemma foldl_readMethod (before after : List (PyStr × PyStr))
    (hkeys : ((before ++ after).map (·.1)).Nodup) :
    (after.map (·.1)).foldl (readMethod lib value) (before ++ after) =
      before ++ after.map fun p => (p.1, claimOf lib p.1 value p.2) := by
  induction after generalizing before with
  | nil => rfl
  | cons p after ih =>
    obtain ⟨method, current⟩ := p
    rw [List.map_append, List.map_cons, List.nodup_middle, List.nodup_cons, List.mem_append,
      not_or] at hkeys
    have hnodup : (((before ++ [(method, claimOf lib method value current)]) ++ after).map
        (·.1)).Nodup := by
      rw [List.append_assoc, List.singleton_append, List.map_append, List.map_cons,
        List.nodup_middle, List.nodup_cons, List.mem_append, not_or]
      exact hkeys
    rw [List.map_cons, List.foldl_cons, readMethod_middle hkeys.1.1 hkeys.1.2,
      ← List.singleton_append, ← List.append_assoc, ih _ hnodup, List.append_assoc]
    rfl

/-- What a trusted value makes of the dictionary. -/
lemma readTrusted_initial (value : PyStr) : readTrusted lib value initialResult =
    (claimMethods.map fun method => (method, claimOf lib method value (py "unknown"))) ++
      [(py "authserv_id", claimOf lib (py "authserv_id") value (authservOf lib value))] := by
  have hset : Dict.set initialResult (py "authserv_id") (authservOf lib value) =
      claimMethods.map (fun item => (item, py "unknown")) ++
        [(py "authserv_id", authservOf lib value)] :=
    Dict.set_middle (by decide) (by simp)
  have hkeys : (claimMethods ++ [py "authserv_id"]).Nodup := by decide
  rw [readTrusted, hset]
  exact foldl_readMethod [] _ hkeys

/-! ## The loop over the values -/

lemma scanResults_append {before : List PyStr}
    (hbefore : ∀ v ∈ before, authservOf lib v ∉ trustedIds) (after : List PyStr)
    (result : List (PyStr × PyStr)) :
    scanResults lib trustedIds (before ++ after) result =
      scanResults lib trustedIds after result := by
  induction before with
  | nil => rfl
  | cons v before ih =>
    rw [List.forall_mem_cons] at hbefore
    rw [List.cons_append, scanResults, if_pos hbefore.1, ih hbefore.2]

lemma scanResults_cons (hvalue : authservOf lib value ∈ trustedIds) (after : List PyStr)
    (result : List (PyStr × PyStr)) :
    scanResults lib trustedIds (value :: after) result = readTrusted lib value result := by
  rw [scanResults, if_neg (not_not_intro hvalue)]

/-- The scan reads the first trusted value. -/
lemma scanResults_eq (values : List PyStr) (result : List (PyStr × PyStr)) :
    scanResults lib trustedIds values result =
      match values.find? fun value => authservOf lib value ∈ trustedIds with
      | some value => readTrusted lib value result
      | none => result := by
  induction values with
  | nil => rfl
  | cons v values ih =>
    by_cases hv : authservOf lib v ∈ trustedIds
    · rw [scanResults_cons hv, List.find?_cons_of_pos (by simpa using hv)]
    · rw [scanResults, if_pos hv, ih, List.find?_cons_of_neg (by simpa using hv)]

/-- With nothing trusted, there is nothing to scan. -/
lemma authenticationResults_eq_scan (values : List PyStr) :
    authenticationResults lib trustedIds values =
      scanResults lib trustedIds values initialResult := by
  rw [authenticationResults]
  split
  · -- the early return: the loop would skip every value
    rename_i hnil
    rw [← List.append_nil values, scanResults_append (by simp [hnil])]
    rfl
  · rfl

/-- The record of the claims has the entries of the dictionary. -/
theorem parseAuthenticationResults_items (values : List PyStr) :
    (parseAuthenticationResults lib values trustedIds).items =
      authenticationResults lib trustedIds values := by
  rw [authenticationResults_eq_scan, scanResults_eq, parseAuthenticationResults]
  cases values.find? fun value => authservOf lib value ∈ trustedIds with
  | none => rfl
  | some value =>
    dsimp only
    rw [readTrusted_initial]
    rfl

end

/-- The result is that of the first trusted value alone, and that of no value where none is
trusted.  Values that are not trusted may come, go and change, and so may all values behind the
first trusted one. -/
theorem authenticationResults_first (lib : Library) (trustedIds : List PyStr) :
    (∀ values, authenticationResults lib trustedIds values =
      match values.find? fun value => authservOf lib value ∈ trustedIds with
      | some value => authenticationResults lib trustedIds [value]
      | none => initialResult) ∧
    (∀ before old new after : List PyStr, (∀ v ∈ old, authservOf lib v ∉ trustedIds) →
      (∀ v ∈ new, authservOf lib v ∉ trustedIds) →
        authenticationResults lib trustedIds (before ++ old ++ after) =
          authenticationResults lib trustedIds (before ++ new ++ after)) ∧
    ∀ before value after after', authservOf lib value ∈ trustedIds →
      authenticationResults lib trustedIds (before ++ value :: after) =
        authenticationResults lib trustedIds (before ++ value :: after') := by
  refine ⟨fun values => ?_, fun before old new after hold hnew => ?_,
    fun before value after after' hvalue => ?_⟩
  · rw [authenticationResults_eq_scan, scanResults_eq]
    cases hfind : values.find? fun value => authservOf lib value ∈ trustedIds with
    | none => rfl
    | some value =>
      have htrusted : authservOf lib value ∈ trustedIds := by simpa using List.find?_some hfind
      dsimp only
      rw [authenticationResults_eq_scan, scanResults_cons htrusted]
  · simp only [authenticationResults_eq_scan, List.append_assoc]
    induction before with
    | nil => rw [List.nil_append, List.nil_append, scanResults_append hold, scanResults_append hnew]
    | cons v before ih =>
      rw [List.cons_append, List.cons_append, scanResults, scanResults, ih]
  · simp only [authenticationResults_eq_scan]
    induction before with
    | nil => rw [List.nil_append, List.nil_append, scanResults_cons hvalue, scanResults_cons hvalue]
    | cons v before ih =>
      rw [List.cons_append, List.cons_append, scanResults, scanResults, ih]

/-! ## The values of the dictionary -/

/-- Every method has one of the known values, and the ID is trusted, if there is one. -/
def ClosedResult (trustedIds : List PyStr) (result : List (PyStr × PyStr)) : Prop :=
  (∀ method ∈ claimMethods, ∃ claim ∈ closedValues, result.lookup method = some claim) ∧
    ∃ id, result.lookup (py "authserv_id") = some id ∧ (id = [] ∨ id ∈ trustedIds)

/-- The value has no claim that is named like the key of the ID, or one whose verdict is a
trusted ID. -/
def KeepsId (lib : Library) (trustedIds : List PyStr) (value : PyStr) : Prop :=
  ∀ claim, searchClaim (py "authserv_id") value = some claim → verdictOf lib claim ∈ trustedIds

section

variable {lib : Library} {trustedIds : List PyStr} {value : PyStr}

lemma verdictOf_closed (claim : PyStr) : verdictOf lib claim ∈ closedValues := by
  rw [verdictOf]
  split
  · rename_i h
    exact List.mem_append.2 (.inl h)
  · exact List.mem_append.2 (.inr (List.mem_singleton_self _))

lemma claimOf_closed (method value : PyStr) :
    claimOf lib method value (py "unknown") ∈ closedValues := by
  rw [claimOf_eq]
  cases searchClaim method value with
  | some claim => exact verdictOf_closed claim
  | none => exact List.mem_append.2 (.inr (List.mem_singleton_self _))

lemma lookup_methods {claims : PyStr → PyStr} {id method : PyStr} (h : method ∈ claimMethods) :
    ((claimMethods.map fun m => (m, claims m)) ++ [(py "authserv_id", id)]).lookup method =
      some (claims method) := by
  have hkeys : (claimMethods ++ [py "authserv_id"]).Nodup := by decide
  have hmap : ((claimMethods.map fun m => (m, claims m)) ++ [(py "authserv_id", id)]).map (·.1) =
      claimMethods ++ [py "authserv_id"] := by
    rw [List.map_append, List.map_map]
    congr 1
  refine (Dict.lookup_eq_some_iff (by rw [hmap]; exact hkeys)).2 ?_
  exact List.mem_append.2 (.inl (List.mem_map.2 ⟨method, h, rfl⟩))

lemma lookup_id {claims : PyStr → PyStr} {id : PyStr} :
    ((claimMethods.map fun m => (m, claims m)) ++ [(py "authserv_id", id)]).lookup
      (py "authserv_id") = some id := by
  refine Dict.lookup_append_of_not_mem ?_
  rw [List.map_map]
  have hnot : py "authserv_id" ∉ claimMethods := by decide
  simpa using hnot

end

/-- The result is closed exactly if the first trusted value keeps the ID: the loop over the keys
also looks for a claim with the name `authserv_id`. -/
theorem authenticationResults_closed_iff (lib : Library) (trustedIds values : List PyStr) :
    ClosedResult trustedIds (authenticationResults lib trustedIds values) ↔
      ∀ value, (values.find? fun value => authservOf lib value ∈ trustedIds) = some value →
        KeepsId lib trustedIds value := by
  rw [authenticationResults_eq_scan, scanResults_eq]
  cases hfind : values.find? fun value => authservOf lib value ∈ trustedIds with
  | none =>
    refine iff_of_true ⟨fun method hmethod => ?_, [], lookup_id, .inl rfl⟩ (by simp)
    exact ⟨py "unknown", List.mem_append.2 (.inr (List.mem_singleton_self _)),
      lookup_methods hmethod⟩
  | some value =>
    have htrusted : authservOf lib value ∈ trustedIds := by simpa using List.find?_some hfind
    dsimp only
    rw [readTrusted_initial]
    constructor
    · rintro ⟨-, id, hid, hin⟩ value' heq claim hclaim
      obtain rfl := Option.some.inj heq
      rw [lookup_id, claimOf_eq, hclaim] at hid
      obtain rfl := Option.some.inj hid
      -- a verdict is a word
      have hne : ∀ v ∈ closedValues, v ≠ [] := by decide
      exact hin.resolve_left (hne _ (verdictOf_closed claim))
    · intro hkeeps
      refine ⟨fun method hmethod => ⟨_, claimOf_closed method value, lookup_methods hmethod⟩,
        _, lookup_id, .inr ?_⟩
      rw [claimOf_eq]
      cases hclaim : searchClaim (py "authserv_id") value with
      | none => exact htrusted
      | some claim => exact hkeeps value rfl claim hclaim

/-- A provider whose header has such a claim ends up with the ID `pass`. -/
theorem authenticationResults_not_closed :
    ¬ ClosedResult [py "mx.example.org"]
      (authenticationResults (sampleLibrary blankMessage [] []) [py "mx.example.org"]
        [py "mx.example.org; spf=fail authserv_id=pass"]) := by
  rintro ⟨-, id, hid, hin⟩
  have hpass : (authenticationResults (sampleLibrary blankMessage [] []) [py "mx.example.org"]
      [py "mx.example.org; spf=fail authserv_id=pass"]).lookup (py "authserv_id") =
        some (py "pass") := by decide +kernel
  rw [hpass] at hid
  obtain rfl := Option.some.inj hid
  revert hin
  decide

end MailGate
