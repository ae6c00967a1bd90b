import Mathlib.Data.List.Nodup
import MailGate.Lib.Exceptions

/-!
# Rewriting a table in batches

A loop goes over the rows of a table as they were at its start, collects the rows that it
changes, and writes them whenever it has collected a batch.  Where keys are unique and a changed
row keeps its key, the table ends up with every row changed in its place, whatever the size of
the batches.
-/

namespace Rewriting

variable {α κ ε : Type} [DecidableEq κ] (key : α → κ)

/-- The rows of the table after an update: a row is replaced by the first new one with its key. -/
def overwrite (new table : List α) : List α :=
  table.map fun a => (new.find? fun b => key b = key a).getD a

/-- The loop over the rows: `pending` has been changed but not written. -/
def rewrite (convert : α → Except ε (Option α)) (size : ℕ) :
    (rows pending table : List α) → Except ε (List α)
  | [], pending, table => .ok (if pending = [] then table else overwrite key pending table)
  | row :: rows, pending, table => do
      match ← convert row with
      | none => rewrite convert size rows pending table
      | some new =>
          let pending := pending ++ [new]
          if pending.length = size then rewrite convert size rows [] (overwrite key pending table)
          else rewrite convert size rows pending table

variable {key} {new pending table rows done : List α} {a b : α}

@[simp] lemma overwrite_nil (table : List α) : overwrite key [] table = table :=
  List.map_id' table

/-- An update with one more row is an update with that row after the others. -/
lemma overwrite_concat (hb : key b ∉ new.map key) (table : List α) :
    overwrite key (new ++ [b]) table = overwrite key [b] (overwrite key new table) := by
  simp only [overwrite, List.map_map]
  refine List.map_congr_left fun a _ => ?_
  show ((new ++ [b]).find? fun c => key c = key a).getD a = _
  rw [List.find?_append, Function.comp_apply]
  cases hfind : new.find? fun c => key c = key a with
  | none => rfl
  | some c =>
    have hc : key c = key a := by simpa using List.find?_some hfind
    have hne : key b ≠ key c := fun h =>
      hb (h ▸ List.mem_map_of_mem (List.mem_of_find?_eq_some hfind))
    rw [Option.some_or, Option.getD_some, List.find?_cons_of_neg (by simpa using hne)]
    rfl

/-- A row whose key is unique is replaced in its place. -/
lemma overwrite_middle (hkeys : ((done ++ a :: rows).map key).Nodup) (hb : key b = key a) :
    overwrite key [b] (done ++ a :: rows) = done ++ b :: rows := by
  rw [List.map_append, List.map_cons, List.nodup_middle, List.nodup_cons, List.mem_append,
    not_or] at hkeys
  have hother : ∀ rest : List α, key a ∉ rest.map key → overwrite key [b] rest = rest := by
    intro rest hrest
    refine (List.map_congr_left fun c hc => ?_).trans (List.map_id rest)
    have hne : key b ≠ key c := fun h => hrest (hb ▸ h ▸ List.mem_map_of_mem hc)
    rw [List.find?_cons_of_neg (by simpa using hne)]
    rfl
  have hself : ([b].find? fun c => key c = key a).getD a = b := by
    rw [List.find?_cons_of_pos (by simpa using hb)]
    rfl
  have hdone := hother done hkeys.1.1
  have hrows := hother rows hkeys.1.2
  rw [overwrite] at hdone hrows ⊢
  rw [List.map_append, List.map_cons, hdone, hrows, hself]

omit [DecidableEq κ] in
/-- A pending row is one of those that are done, so the next row has another key. -/
lemma key_notMem_pending (hkeys : ((done ++ a :: rows).map key).Nodup)
    (hpending : ∀ b ∈ pending, key b ∈ done.map key) : key a ∉ pending.map key := by
  intro hmem
  obtain ⟨c, hc, hca⟩ := List.mem_map.1 hmem
  rw [List.map_append, List.map_cons, List.nodup_middle, List.nodup_cons] at hkeys
  exact hkeys.1 (List.mem_append_left _ (hca ▸ hpending c hc))

/-- One row more is done, and it is `a` now. -/
lemma done_concat (rest : Except ε (List α)) (done : List α) (a : α) :
    (rest >>= fun rest => .ok ((done ++ [a]) ++ rest)) =
      (rest >>= fun rest => .ok (a :: rest)) >>= fun rest => .ok (done ++ rest) := by
  cases rest with
  | error e => rfl
  | ok rest =>
    rw [Exceptions.ok_bind, Exceptions.ok_bind, Exceptions.ok_bind, List.append_assoc]
    rfl

/-- The loop from any point on: writing what is pending gives the rows that are done, followed by
those that are still to come. -/
lemma rewrite_from {convert : α → Except ε (Option α)}
    (hconvert : ∀ a b, convert a = .ok (some b) → key b = key a) (size : ℕ)
    (hkeys : ((done ++ rows).map key).Nodup) (hwrite : overwrite key pending table = done ++ rows)
    (hpending : ∀ b ∈ pending, key b ∈ done.map key) :
    rewrite key convert size rows pending table =
      rows.mapM (fun a => (convert a).map (·.getD a)) >>= fun rest => .ok (done ++ rest) := by
  induction rows generalizing done pending table with
  | nil =>
    rw [rewrite]
    split
    · rename_i hnil
      rw [hnil, overwrite_nil] at hwrite
      rw [hwrite]
      rfl
    · rw [hwrite]
      rfl
  | cons a rows ih =>
    rw [rewrite, List.mapM_cons]
    cases hrow : convert a with
    | error e => rfl
    | ok changed =>
      cases changed with
      | none =>
        have hkeys' : (((done ++ [a]) ++ rows).map key).Nodup := by
          simpa using hkeys
        -- a row that stays is done at once, and what is pending stays pending
        have hrest := ih hkeys' (by simpa using hwrite) fun b hb => by simp [hpending b hb]
        exact hrest.trans (done_concat _ done a)
      | some b =>
        have hb := hconvert a b hrow
        have hnew : key b ∉ pending.map key := by
          rw [hb]
          exact key_notMem_pending hkeys hpending
        -- whether it is written now or later, the table would then hold the new row in its place
        have hnext : overwrite key (pending ++ [b]) table = (done ++ [b]) ++ rows := by
          rw [overwrite_concat hnew, hwrite, overwrite_middle hkeys hb, List.append_assoc]
          rfl
        have hkeys' : (((done ++ [b]) ++ rows).map key).Nodup := by
          simpa [hb] using hkeys
        have hrest : ∀ pending' table', overwrite key pending' table' = (done ++ [b]) ++ rows →
            (∀ c ∈ pending', key c ∈ (done ++ [b]).map key) →
            rewrite key convert size rows pending' table' = _ :=
          fun pending' table' hwrite' hpending' =>
            (ih hkeys' hwrite' hpending').trans (done_concat _ done b)
        show (if (pending ++ [b]).length = size then
          rewrite key convert size rows [] (overwrite key (pending ++ [b]) table)
          else rewrite key convert size rows (pending ++ [b]) table) = _
        split
        · exact hrest _ _ (by rw [overwrite_nil, hnext]) (by simp)
        · refine hrest _ _ hnext fun c hc => ?_
          rcases List.mem_append.1 hc with hc | hc
          · simp [hpending c hc]
          · simp [List.mem_singleton.1 hc]

/-- The loop changes every row in its place. -/
theorem rewrite_eq {convert : α → Except ε (Option α)}
    (hconvert : ∀ a b, convert a = .ok (some b) → key b = key a) (size : ℕ)
    (hkeys : (rows.map key).Nodup) :
    rewrite key convert size rows [] rows = rows.mapM fun a => (convert a).map (·.getD a) := by
  have hkeys' : (([] ++ rows).map key).Nodup := hkeys
  rw [rewrite_from hconvert size hkeys' (overwrite_nil rows) (by simp)]
  cases rows.mapM fun a => (convert a).map (·.getD a) with
  | error e => rfl
  | ok rest => rfl

end Rewriting
