import Mathlib.Data.List.Basic
import Mathlib.Data.List.Induction
import Mathlib.Logic.Function.Basic
import MailGate.Lib.Runs

/-!
# A quarantine

Items arrive under a key and wait.  A decision releases an item or refuses it, and may be
revised; an item can be forgotten.  Only what is released is shown.
-/

namespace Quarantine

open Runs (Run Taken)

/-- Where an item stands. -/
inductive Standing where
  | waiting
  | released
  | refused
deriving DecidableEq, Repr

/-- What is kept of an item. -/
structure Item (ω : Type*) where
  content : ω
  standing : Standing
deriving DecidableEq

/-- The items by their keys. -/
abbrev Store (κ ω : Type*) := κ → Option (Item ω)

/-- What can happen to an item. -/
inductive Event (κ ω : Type*) where
  | arrive (k : κ) (content : ω)
  | decide (k : κ) (release : Bool)
  | forget (k : κ)

variable {κ ω : Type*}

/-- The item that an event is about. -/
def Event.key : Event κ ω → κ
  | arrive k _ => k
  | decide k _ => k
  | forget k => k

/-- Where a decision puts an item. -/
def verdict (release : Bool) : Standing := if release then .released else .refused

variable [DecidableEq κ]

/-- An item arrives under a free key; a decision is about an item that is there. -/
inductive Step : Event κ ω → Store κ ω → Store κ ω → Prop where
  | arrive (s : Store κ ω) (k : κ) (content : ω) (h : s k = none) :
      Step (.arrive k content) s (Function.update s k (some ⟨content, .waiting⟩))
  | decide (s : Store κ ω) (k : κ) (release : Bool) (item : Item ω) (h : s k = some item) :
      Step (.decide k release) s
        (Function.update s k (some ⟨item.content, verdict release⟩))
  | forget (s : Store κ ω) (k : κ) : Step (.forget k) s (Function.update s k none)

/-- What is shown under a key. -/
def shown (s : Store κ ω) (k : κ) : Option ω :=
  (s k).bind fun item => if item.standing = .released then some item.content else none

/-- The events of a run, as far as they are about this key. -/
def history (tr : List (Taken (Store κ ω) (Event κ ω))) (k : κ) : List (Event κ ω) :=
  (tr.map (·.label)).filter fun e => e.key = k

/-- What the events about a key make of its item. -/
def settle (item : Option (Item ω)) : Event κ ω → Option (Item ω)
  | .arrive _ content => some ⟨content, .waiting⟩
  | .decide _ release => item.map fun item => ⟨item.content, verdict release⟩
  | .forget _ => none

variable {s s' : Store κ ω} {tr : List (Taken (Store κ ω) (Event κ ω))} {e : Event κ ω} {k : κ}

/-- A step settles the item that it is about and no other. -/
lemma Step.settles (h : Step e s s') (k : κ) :
    s' k = if e.key = k then settle (s k) e else s k := by
  by_cases hk : e.key = k
  · rw [if_pos hk]
    subst hk
    cases h with
    | arrive _ _ _ hfree => exact Function.update_self ..
    | decide _ _ _ item hitem =>
      rw [settle, Event.key, hitem, Option.map_some, Function.update_self]
    | forget _ _ => exact Function.update_self ..
  · rw [if_neg hk]
    cases h with
    | arrive _ _ _ hfree => exact Function.update_of_ne (Ne.symm hk) ..
    | decide _ _ _ item hitem => exact Function.update_of_ne (Ne.symm hk) ..
    | forget _ _ => exact Function.update_of_ne (Ne.symm hk) ..

lemma history_cons (t : Taken (Store κ ω) (Event κ ω))
    (tr : List (Taken (Store κ ω) (Event κ ω))) (k : κ) :
    history (t :: tr) k = if t.label.key = k then t.label :: history tr k else history tr k := by
  rw [history, history, List.map_cons, List.filter_cons]
  by_cases hk : t.label.key = k
  · rw [if_pos hk, if_pos (decide_eq_true hk)]
  · rw [if_neg hk, if_neg (by simpa using hk)]

/-- A run settles each item by the events about it. -/
theorem Run.settles (h : Run Step s tr s') (k : κ) : s' k = (history tr k).foldl settle (s k) := by
  induction h with
  | nil s => rfl
  | @cons s s₁ s' l tr hstep hrest ih =>
    rw [ih, hstep.settles k, history_cons]
    by_cases hk : l.key = k
    · rw [if_pos hk, if_pos hk, List.foldl_cons]
    · rw [if_neg hk, if_neg hk]

/-- The events about a key that is shown: it arrived with what is shown, was not forgotten
since, and the last decision released it. -/
def Released (events : List (Event κ ω)) (k : κ) (content : ω) : Prop :=
  ∃ before decisions, events = before ++ .arrive k content :: (decisions ++ [.decide k true]) ∧
    ∀ e ∈ decisions, ∃ release, e = .decide k release

omit [DecidableEq κ] in
/-- What a list of decisions makes of an item. -/
lemma foldl_decisions {events : List (Event κ ω)}
    (h : ∀ e ∈ events, ∃ release, e = .decide k release) (item : Item ω) :
    ∃ standing, events.foldl settle (some item) = some ⟨item.content, standing⟩ := by
  induction events generalizing item with
  | nil => exact ⟨item.standing, rfl⟩
  | cons e events ih =>
    rw [List.forall_mem_cons] at h
    obtain ⟨release, rfl⟩ := h.1
    exact ih h.2 ⟨item.content, verdict release⟩

omit [DecidableEq κ] in
/-- An item that is there arrived, and was only decided upon since. -/
lemma arrived_of_foldl {events : List (Event κ ω)} (hkey : ∀ e ∈ events, e.key = k)
    {item : Item ω} (h : events.foldl settle none = some item) :
    ∃ before decisions, events = before ++ .arrive k item.content :: decisions ∧
      ∀ e ∈ decisions, ∃ release, e = .decide k release := by
  induction events using List.reverseRecOn generalizing item with
  | nil => cases h
  | append_singleton events e ih =>
    rw [List.foldl_concat] at h
    rw [List.forall_mem_append, List.forall_mem_singleton] at hkey
    obtain ⟨hkeys, he⟩ := hkey
    cases e with
    | arrive k' content =>
      cases h
      cases he
      exact ⟨events, [], rfl, by simp⟩
    | decide k' release =>
      cases he
      obtain ⟨item', hitem', rfl⟩ := Option.map_eq_some_iff.1 h
      obtain ⟨before, decisions, rfl, hdecisions⟩ := ih hkeys hitem'
      refine ⟨before, decisions ++ [.decide k' release], by simp, ?_⟩
      rw [List.forall_mem_append, List.forall_mem_singleton]
      exact ⟨hdecisions, release, rfl⟩
    | forget k' => cases h

/-- Something is shown under a key exactly if it arrived there and was released afterwards, and
neither forgotten nor refused since. -/
theorem shown_iff (h : Run Step s tr s') (hstart : s k = none) (content : ω) :
    shown s' k = some content ↔ Released (history tr k) k content := by
  have hsettle := Run.settles h k
  rw [hstart] at hsettle
  have hkeys : ∀ e ∈ history tr k, e.key = k := fun e he => by simpa using List.of_mem_filter he
  rw [shown, hsettle]
  constructor
  · intro hshown
    obtain ⟨item, hitem, hif⟩ := Option.bind_eq_some_iff.1 hshown
    obtain ⟨hreleased, hcontent⟩ := Option.ite_none_right_eq_some.1 hif
    rw [Option.some.injEq] at hcontent
    obtain ⟨before, decisions, hevents, hdecisions⟩ := arrived_of_foldl hkeys hitem
    rw [hcontent] at hevents
    rcases List.eq_nil_or_concat' decisions with rfl | ⟨earlier, last, rfl⟩
    · -- an item that has just arrived waits
      rw [hevents, List.foldl_concat] at hitem
      rw [← Option.some.inj hitem] at hreleased
      cases hreleased
    · rw [List.forall_mem_append, List.forall_mem_singleton] at hdecisions
      obtain ⟨hearlier, release, rfl⟩ := hdecisions
      obtain ⟨standing, hsettled⟩ := foldl_decisions hearlier ⟨content, .waiting⟩
      rw [hevents, List.foldl_append, List.foldl_cons, List.foldl_concat, settle, hsettled] at hitem
      rw [← Option.some.inj hitem] at hreleased
      cases release with
      | true => exact ⟨before, earlier, hevents, hearlier⟩
      | false => cases hreleased
  · rintro ⟨before, decisions, hevents, hdecisions⟩
    obtain ⟨standing, hsettled⟩ := foldl_decisions hdecisions ⟨content, .waiting⟩
    rw [hevents, List.foldl_append, List.foldl_cons, List.foldl_concat, settle, hsettled]
    rfl

/-! ## Many items -/

/-- The store without these keys. -/
def without (s : Store κ ω) (ks : List κ) : Store κ ω := fun k => if k ∈ ks then none else s k

/-- Items can be forgotten one after the other. -/
lemma run_forget (s : Store κ ω) (ks : List κ) :
    ∃ tr, Run Step s tr (without s ks) ∧ ∀ t ∈ tr, ∃ k ∈ ks, t.label = .forget k := by
  induction ks generalizing s with
  | nil =>
    have hsame : without s [] = s := by
      funext k
      rw [without, if_neg List.not_mem_nil]
    rw [hsame]
    exact ⟨[], .nil s, by simp⟩
  | cons k ks ih =>
    obtain ⟨tr, hrun, hlabels⟩ := ih (Function.update s k none)
    have hsame : without (Function.update s k none) ks = without s (k :: ks) := by
      funext k'
      rw [without, without]
      by_cases hk : k' = k
      · rw [hk, Function.update_self, if_pos List.mem_cons_self, ite_self]
      · rw [Function.update_of_ne hk]
        simp only [List.mem_cons, hk, false_or]
    refine ⟨_, .cons (.forget s k) (hsame ▸ hrun), ?_⟩
    rw [List.forall_mem_cons]
    refine ⟨⟨k, List.mem_cons_self, rfl⟩, fun t ht => ?_⟩
    obtain ⟨k', hk', hlabel⟩ := hlabels t ht
    exact ⟨k', List.mem_cons_of_mem _ hk', hlabel⟩

end Quarantine
