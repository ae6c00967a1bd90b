import Mathlib.Data.List.Nodup
import Mathlib.Data.List.Perm.Basic
import Mathlib.Data.List.Sort
import Mathlib.Tactic.Common

/-!
# Deleting in batches

A table is emptied of the rows that satisfy a condition by a loop: read the keys of the first
rows that satisfy it, delete these rows, and start again, until no such row is left.  The loop
deletes exactly the rows that satisfy the condition.
-/

namespace Batches

variable {α κ : Type}

/-- The keys of the next batch: at most `n` keys of rows that satisfy `p`, in their order. -/
def batch (key : α → κ) (le : κ → κ → Prop) [DecidableRel le] (p : α → Bool) (n : ℕ)
    (rows : List α) : List κ :=
  (((rows.filter p).map key).insertionSort le).take n

variable {key : α → κ} {le : κ → κ → Prop} [DecidableRel le] {p : α → Bool} {n : ℕ}
  {rows : List α}

lemma mem_batch {k : κ} (h : k ∈ batch key le p n rows) : ∃ a ∈ rows, p a = true ∧ key a = k := by
  have hmem : k ∈ (rows.filter p).map key := by
    simpa [List.mem_insertionSort] using List.take_subset _ _ h
  obtain ⟨a, ha, rfl⟩ := List.mem_map.1 hmem
  obtain ⟨ha, hp⟩ := List.mem_filter.1 ha
  exact ⟨a, ha, hp, rfl⟩

lemma batch_nodup (hrows : (rows.map key).Nodup) : (batch key le p n rows).Nodup := by
  have hnodup : ((rows.filter p).map key).Nodup := hrows.sublist (List.filter_sublist.map key)
  exact ((List.perm_insertionSort le _).nodup_iff.2 hnodup).sublist (List.take_sublist _ _)

/-- The loop stops only where no row satisfies the condition. -/
lemma batch_eq_nil (hn : 0 < n) : batch key le p n rows = [] ↔ rows.filter p = [] := by
  unfold batch
  rw [List.take_eq_nil_iff]
  constructor
  · rintro (hzero | hnil)
    · omega
    · have hlen := congrArg List.length hnil
      simpa [List.length_insertionSort] using hlen
  · intro hnil
    right
    simp [hnil]

variable [DecidableEq κ]

variable (le n) in
/-- The rows of a batch are rows that satisfy the condition, and each is taken once. -/
lemma taken_perm (hrows : (rows.map key).Nodup) :
    (((rows.filter p).filter fun a => key a ∈ batch key le p n rows).map key).Perm
      (batch key le p n rows) := by
  rw [List.perm_ext_iff_of_nodup _ (batch_nodup hrows)]
  · intro k
    constructor
    · intro hk
      obtain ⟨a, ha, rfl⟩ := List.mem_map.1 hk
      simpa using (List.mem_filter.1 ha).2
    · intro hk
      obtain ⟨a, ha, hp, rfl⟩ := mem_batch hk
      exact List.mem_map_of_mem
        (List.mem_filter.2 ⟨List.mem_filter.2 ⟨ha, hp⟩, by simpa using hk⟩)
  · exact hrows.sublist ((List.filter_sublist.trans List.filter_sublist).map key)

/-- The keys that the loop deletes, batch by batch; it ends after at most `fuel` rounds. -/
def deleted (key : α → κ) (le : κ → κ → Prop) [DecidableRel le] (p : α → Bool) (n : ℕ) :
    ℕ → List α → List κ
  | 0, _ => []
  | fuel + 1, rows =>
      let keys := batch key le p n rows
      if keys = [] then []
      else keys ++ deleted key le p n fuel (rows.filter fun a => key a ∉ keys)

/-- The loop deletes each row that satisfies the condition once, and no other row, when it is
given one round more than there are such rows. -/
theorem deleted_perm (hn : 0 < n) {fuel : ℕ} (hrows : (rows.map key).Nodup)
    (hfuel : (rows.filter p).length < fuel) :
    (deleted key le p n fuel rows).Perm ((rows.filter p).map key) := by
  induction fuel generalizing rows with
  | zero => omega
  | succ fuel ih =>
    rw [deleted]
    by_cases hnil : batch key le p n rows = []
    · have hfilter := (batch_eq_nil hn).1 hnil
      simp [hnil, hfilter]
    · simp only [hnil, if_false]
      -- what the batch takes, and what it leaves
      have hkeep : (rows.filter fun a => key a ∉ batch key le p n rows).filter p =
          (rows.filter p).filter fun a => key a ∉ batch key le p n rows := by
        rw [List.filter_filter, List.filter_filter]
        refine List.filter_congr ?_
        intro a _
        exact Bool.and_comm _ _
      have htake := taken_perm le n (p := p) hrows
      have hsplit := List.filter_append_perm (fun a => decide (key a ∈ batch key le p n rows))
        (rows.filter p)
      have hlen := hsplit.length_eq
      have hpos : 0 < (batch key le p n rows).length := List.length_pos_iff.2 hnil
      have htaken := htake.length_eq
      rw [List.length_map] at htaken
      rw [List.length_append] at hlen
      have hrest : (deleted key le p n fuel
          (rows.filter fun a => key a ∉ batch key le p n rows)).Perm
          (((rows.filter p).filter fun a => key a ∉ batch key le p n rows).map key) := by
        rw [← hkeep]
        refine ih (hrows.sublist (List.filter_sublist.map key)) ?_
        rw [hkeep]
        simp only [decide_not]
        omega
      refine (htake.symm.append hrest).trans ?_
      rw [← List.map_append]
      refine List.Perm.map key ?_
      simpa using hsplit

/-- A row of the table is among the deleted ones exactly if it satisfies the condition. -/
lemma decide_mem_deleted (le : κ → κ → Prop) [DecidableRel le] (hn : 0 < n) {fuel : ℕ}
    (hrows : (rows.map key).Nodup) (hfuel : (rows.filter p).length < fuel) {a : α}
    (ha : a ∈ rows) : decide (key a ∈ deleted key le p n fuel rows) = p a := by
  have hmem : key a ∈ deleted key le p n fuel rows ↔ p a = true := by
    rw [(deleted_perm hn hrows hfuel).mem_iff]
    constructor
    · intro h
      obtain ⟨b, hb, hkey⟩ := List.mem_map.1 h
      obtain ⟨hb, hp⟩ := List.mem_filter.1 hb
      rwa [← List.inj_on_of_nodup_map hrows hb ha hkey]
    · intro hp
      exact List.mem_map_of_mem (List.mem_filter.2 ⟨ha, hp⟩)
  by_cases hp : p a
  · simp [hp, hmem.2 hp]
  · have hno := mt hmem.1 hp
    simp [hp, hno]

/-- What the loop leaves in the table. -/
lemma filter_not_mem_deleted (le : κ → κ → Prop) [DecidableRel le] (hn : 0 < n) {fuel : ℕ}
    (hrows : (rows.map key).Nodup) (hfuel : (rows.filter p).length < fuel) :
    (rows.filter fun a => key a ∉ deleted key le p n fuel rows) = rows.filter fun a => !p a := by
  refine List.filter_congr ?_
  intro a ha
  rw [decide_not, decide_mem_deleted le hn hrows hfuel ha]

lemma length_deleted (hn : 0 < n) {fuel : ℕ} (hrows : (rows.map key).Nodup)
    (hfuel : (rows.filter p).length < fuel) :
    (deleted key le p n fuel rows).length = rows.countP p := by
  rw [(deleted_perm hn hrows hfuel).length_eq, List.length_map, List.countP_eq_length_filter]

/-! ## Tables of a state -/

/-- A table in a state: its rows, their keys, and the deletion of the rows with given keys. -/
structure Table (σ α κ : Type) where
  rows : σ → List α
  key : α → κ
  delete : (κ → Bool) → σ → σ
  rows_delete : ∀ p s, rows (delete p s) = (rows s).filter fun a => !p (key a)
  delete_delete : ∀ p q s, delete q (delete p s) = delete (fun k => p k || q k) s
  delete_none : ∀ s, delete (fun _ => false) s = s

namespace Table

variable {σ : Type} (t : Table σ α κ) (p : α → Bool) (s : σ)

/-- The key of a row that satisfies the condition. -/
def matching (k : κ) : Bool := k ∈ ((t.rows s).filter p).map t.key

/-- The state without the rows that satisfy the condition. -/
def without : σ := t.delete (t.matching p s) s

/-- The keys of the rows that are in a batch and still satisfy the condition. -/
def locked (le : κ → κ → Prop) [DecidableRel le] (ids : List κ) : List κ :=
  (((t.rows s).filter fun a => p a && t.key a ∈ ids).map t.key).insertionSort le

variable {t p s} {le : κ → κ → Prop} [DecidableRel le] {n : ℕ}

/-- With no row that satisfies the condition there is nothing to delete. -/
lemma without_of_none (h : (t.rows s).filter p = []) : t.without p s = s := by
  have hnone : t.matching p s = fun _ => false := by
    funext k
    simp [matching, h]
  rw [without, hnone, t.delete_none]

/-- A row is recognised by its key. -/
lemma matching_key (hrows : ((t.rows s).map t.key).Nodup) {a : α} (ha : a ∈ t.rows s) :
    t.matching p s (t.key a) = p a := by
  have hiff : t.key a ∈ ((t.rows s).filter p).map t.key ↔ p a = true := by
    constructor
    · intro h
      obtain ⟨b, hb, hkey⟩ := List.mem_map.1 h
      obtain ⟨hb, hp⟩ := List.mem_filter.1 hb
      rwa [← List.inj_on_of_nodup_map hrows hb ha hkey]
    · intro hp
      exact List.mem_map_of_mem (List.mem_filter.2 ⟨ha, hp⟩)
  rw [matching, Bool.eq_iff_iff, decide_eq_true_iff, hiff]

/-- While nobody else writes, the lock finds every row of the batch. -/
lemma locked_batch (hrows : ((t.rows s).map t.key).Nodup) :
    (t.locked p s le (batch t.key le p n (t.rows s))).Perm (batch t.key le p n (t.rows s)) := by
  refine (List.perm_insertionSort le _).trans ?_
  have hfilter : ((t.rows s).filter fun a =>
      p a && t.key a ∈ batch t.key le p n (t.rows s)) =
      ((t.rows s).filter p).filter fun a => t.key a ∈ batch t.key le p n (t.rows s) := by
    rw [List.filter_filter]
    exact List.filter_congr fun a _ => Bool.and_comm _ _
  rw [hfilter]
  exact taken_perm le n hrows

/-- Deleting a batch and then the rest deletes all rows that satisfy the condition, and
counts each of them. -/
lemma batch_then_rest (hrows : ((t.rows s).map t.key).Nodup) {ids : List κ}
    (hids : ids.Perm (batch t.key le p n (t.rows s))) :
    t.without p (t.delete (fun k => decide (k ∈ ids)) s) = t.without p s ∧
      ids.length + (t.rows (t.delete (fun k => decide (k ∈ ids)) s)).countP p =
        (t.rows s).countP p := by
  have hleft : (t.rows (t.delete (fun k => decide (k ∈ ids)) s)).filter p =
      ((t.rows s).filter p).filter fun a => !decide (t.key a ∈ ids) := by
    rw [t.rows_delete, List.filter_filter, List.filter_filter]
    exact List.filter_congr fun a _ => Bool.and_comm _ _
  constructor
  · rw [without, without, t.delete_delete]
    congr 1
    funext k
    -- a key of the batch is the key of a row that satisfies the condition
    have hbatch : k ∈ ids → k ∈ ((t.rows s).filter p).map t.key := by
      intro hk
      obtain ⟨a, ha, hp, rfl⟩ := mem_batch (hids.mem_iff.1 hk)
      exact List.mem_map_of_mem (List.mem_filter.2 ⟨ha, hp⟩)
    rw [matching, matching, hleft, ← Bool.decide_or]
    refine decide_eq_decide.2 ?_
    constructor
    · rintro (hk | hk)
      · exact hbatch hk
      · obtain ⟨a, ha, rfl⟩ := List.mem_map.1 hk
        exact List.mem_map_of_mem (List.mem_of_mem_filter ha)
    · intro hk
      by_cases hin : k ∈ ids
      · exact .inl hin
      · obtain ⟨a, ha, rfl⟩ := List.mem_map.1 hk
        exact .inr (List.mem_map_of_mem (List.mem_filter.2 ⟨ha, by simpa using hin⟩))
  · have hsplit := (List.filter_append_perm (fun a => decide (t.key a ∈ ids))
      ((t.rows s).filter p)).length_eq
    have htaken := (taken_perm le n (p := p) hrows).length_eq
    have hsame : (((t.rows s).filter p).filter fun a => t.key a ∈ ids) =
        ((t.rows s).filter p).filter fun a => t.key a ∈ batch t.key le p n (t.rows s) :=
      List.filter_congr fun a _ => decide_eq_decide.2 hids.mem_iff
    rw [List.length_append, hsame, ← hleft] at hsplit
    rw [List.length_map] at htaken
    rw [List.countP_eq_length_filter, List.countP_eq_length_filter, hids.length_eq]
    omega

end Table

end Batches
