import MailGate.Python.Json.RoundTrip

/-!
# Writing strict JSON

`json.dumps` with `allow_nan=False`, which refuses the floats that JSON does not have, and what
is left to ask of a value that it writes before reading gives it back.
-/

namespace MailGate

namespace Json

variable {F : Type} (floats : Floats F)

/-! ## Writing -/

/-- A float that is neither a NaN nor infinite. -/
def Floats.isFinite (f : F) : Bool :=
  decide (floats.repr f ∉ [py "NaN", py "Infinity", py "-Infinity"])

/-- A scalar that is written. -/
def Scalar.isStrict : Scalar F → Bool
  | .int n => decide ((renderNat n.natAbs).length ≤ maxIntDigits)
  | .float f => floats.isFinite f
  | _ => true

mutual

/-- Every scalar of the value is written. -/
def isStrict : Json F → Bool
  | .scalar s => s.isStrict floats
  | .string _ => true
  | .array vs => itemsStrict vs
  | .object ms => membersStrict ms

/-- Every scalar of the items is written. -/
def itemsStrict : List (Json F) → Bool
  | [] => true
  | v :: vs => isStrict v && itemsStrict vs

/-- Every scalar of the members is written. -/
def membersStrict : List (PyStr × Json F) → Bool
  | [] => true
  | (_, v) :: ms => isStrict v && membersStrict ms

end

/-- `json.dumps(value, allow_nan=False, separators=(",", ":"), sort_keys=True)`; `none` is the
`ValueError`. -/
def dumpsStrict (v : Json F) : Option PyStr :=
  if isStrict floats v then some (dumps floats v) else none

/-! ## Values -/

section

variable (text : PyStr → Prop) (keys : List PyStr → Prop)

mutual

/-- Every string of the value, also as a key, and the keys of every object are like this. -/
def Throughout : Json F → Prop
  | .scalar _ => True
  | .string s => text s
  | .array vs => ItemsThroughout vs
  | .object ms => keys (ms.map (·.1)) ∧ MembersThroughout ms

/-- The same of items. -/
def ItemsThroughout : List (Json F) → Prop
  | [] => True
  | v :: vs => Throughout v ∧ ItemsThroughout vs

/-- The same of members. -/
def MembersThroughout : List (PyStr × Json F) → Prop
  | [] => True
  | (k, v) :: ms => text k ∧ Throughout v ∧ MembersThroughout ms

end

end

/-- The objects are dictionaries: no key stands in one of them twice. -/
def Dictionaries (v : Json F) : Prop := Throughout (fun _ => True) List.Nodup v

/-- No string has a high surrogate directly before a low one. -/
def SpellableTexts (v : Json F) : Prop := Throughout Spellable (fun _ => True) v

/-- Finite floats are read back. -/
def Floats.Strict : Prop := ∀ f, floats.isFinite f = true → floats.Faithful f

variable {floats}

lemma Scalar.ok_of_isStrict (hfloats : floats.Strict) {s : Scalar F}
    (h : s.isStrict floats = true) : s.Ok floats := by
  cases s with
  | null => trivial
  | bool b => trivial
  | int n => simpa [isStrict, Ok] using h
  | float f => exact hfloats f h

mutual

/-- A strict value whose strings can be spelled can be written and read back. -/
theorem ok_of_isStrict (hfloats : floats.Strict) : ∀ v : Json F, isStrict floats v = true →
    v.Dictionaries → v.SpellableTexts → v.Ok floats
  | .scalar s, hstrict, _, _ => by
    rw [isStrict] at hstrict
    rw [Ok]
    exact Scalar.ok_of_isStrict hfloats hstrict
  | .string s, _, _, htexts => by
    rw [SpellableTexts, Throughout] at htexts
    rwa [Ok]
  | .array vs, hstrict, hdicts, htexts => by
    rw [isStrict] at hstrict
    rw [Dictionaries, Throughout] at hdicts
    rw [SpellableTexts, Throughout] at htexts
    rw [Ok]
    exact itemsOk_of_strict hfloats vs hstrict hdicts htexts
  | .object ms, hstrict, hdicts, htexts => by
    rw [isStrict] at hstrict
    rw [Dictionaries, Throughout] at hdicts
    rw [SpellableTexts, Throughout] at htexts
    rw [Ok]
    exact ⟨hdicts.1, membersOk_of_strict hfloats ms hstrict hdicts.2 htexts.2⟩

theorem itemsOk_of_strict (hfloats : floats.Strict) : ∀ vs : List (Json F),
    itemsStrict floats vs = true → ItemsThroughout (fun _ => True) List.Nodup vs →
      ItemsThroughout Spellable (fun _ => True) vs → ItemsOk floats vs
  | [], _, _, _ => by rw [ItemsOk]; trivial
  | v :: vs, hstrict, hdicts, htexts => by
    rw [itemsStrict, Bool.and_eq_true] at hstrict
    rw [ItemsThroughout] at hdicts htexts
    rw [ItemsOk]
    exact ⟨ok_of_isStrict hfloats v hstrict.1 hdicts.1 htexts.1,
      itemsOk_of_strict hfloats vs hstrict.2 hdicts.2 htexts.2⟩

theorem membersOk_of_strict (hfloats : floats.Strict) : ∀ ms : List (PyStr × Json F),
    membersStrict floats ms = true → MembersThroughout (fun _ => True) List.Nodup ms →
      MembersThroughout Spellable (fun _ => True) ms → MembersOk floats ms
  | [], _, _, _ => by rw [MembersOk]; trivial
  | (k, v) :: ms, hstrict, hdicts, htexts => by
    rw [membersStrict, Bool.and_eq_true] at hstrict
    rw [MembersThroughout] at hdicts htexts
    rw [MembersOk]
    exact ⟨htexts.1, ok_of_isStrict hfloats v hstrict.1 hdicts.2.1 htexts.2.1,
      membersOk_of_strict hfloats ms hstrict.2 hdicts.2.2 htexts.2.2⟩

end

/-! ## Equality of dictionaries -/

mutual

/-- `v == w` of two values: dictionaries have no order. -/
inductive Same : Json F → Json F → Prop
  | scalar (s : Scalar F) : Same (.scalar s) (.scalar s)
  | string (s : PyStr) : Same (.string s) (.string s)
  | array {vs ws : List (Json F)} (h : SameItems vs ws) : Same (.array vs) (.array ws)
  | object {ms ns ns' : List (PyStr × Json F)} (h : SameMembers ms ns) (hperm : ns.Perm ns') :
      Same (.object ms) (.object ns')

/-- The items are equal one by one. -/
inductive SameItems : List (Json F) → List (Json F) → Prop
  | nil : SameItems [] []
  | cons {v w : Json F} {vs ws : List (Json F)} (h : Same v w) (hs : SameItems vs ws) :
      SameItems (v :: vs) (w :: ws)

/-- The members are equal one by one. -/
inductive SameMembers : List (PyStr × Json F) → List (PyStr × Json F) → Prop
  | nil : SameMembers [] []
  | cons {k : PyStr} {v w : Json F} {ms ns : List (PyStr × Json F)} (h : Same v w)
      (hs : SameMembers ms ns) : SameMembers ((k, v) :: ms) ((k, w) :: ns)

end

mutual

/-- Sorting the keys changes nothing. -/
theorem same_sortKeys : ∀ v : Json F, Same v (sortKeys v)
  | .scalar s => by
    rw [sortKeys]
    exact .scalar s
  | .string s => by
    rw [sortKeys]
    exact .string s
  | .array vs => by
    rw [sortKeys]
    exact .array (same_sortItems vs)
  | .object ms => by
    rw [sortKeys]
    exact .object (same_sortMembers ms) (List.perm_insertionSort _ _).symm

theorem same_sortItems : ∀ vs : List (Json F), SameItems vs (sortItems vs)
  | [] => by
    rw [sortItems]
    exact .nil
  | v :: vs => by
    rw [sortItems]
    exact .cons (same_sortKeys v) (same_sortItems vs)

theorem same_sortMembers : ∀ ms : List (PyStr × Json F), SameMembers ms (sortMembers ms)
  | [] => by
    rw [sortMembers]
    exact .nil
  | (k, v) :: ms => by
    rw [sortMembers]
    exact .cons (same_sortKeys v) (same_sortMembers ms)

end

end Json

end MailGate
