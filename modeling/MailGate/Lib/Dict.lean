import Mathlib.Data.List.Nodup

/-!
# Dictionaries

A dictionary as the list of its entries in the order of their insertion.  No key has two
entries.
-/

namespace Dict

variable {α β : Type} [BEq α] [LawfulBEq α] {k k' : α} {v v' : β} {d : List (α × β)}

/-- `d[k] = v`: the entry of the key is replaced where it stands, or added at the end. -/
def set (d : List (α × β)) (k : α) (v : β) : List (α × β) :=
  if (d.map (·.1)).contains k then d.map fun p => if p.1 == k then (k, v) else p
  else d ++ [(k, v)]

omit [LawfulBEq α] in
lemma lookup_cons (k : α) (p : α × β) (d : List (α × β)) :
    (p :: d).lookup k = if k == p.1 then some p.2 else d.lookup k := by
  rw [List.lookup_cons]
  cases k == p.1 with
  | true => rfl
  | false => rfl

/-- A dictionary has a value for each of its keys. -/
lemma lookup_of_mem_keys (h : k ∈ d.map (·.1)) : ∃ v, d.lookup k = some v := by
  induction d with
  | nil => simp at h
  | cons p d ih =>
    rw [lookup_cons]
    cases hk : k == p.1 with
    | true => exact ⟨p.2, rfl⟩
    | false => exact ih (by simpa [ne_of_beq_false hk] using h)

lemma mem_of_lookup (h : d.lookup k = some v) : (k, v) ∈ d := by
  induction d with
  | nil => simp at h
  | cons p d ih =>
    rw [lookup_cons] at h
    split at h
    · rename_i hk
      obtain rfl := Option.some.inj h
      rw [eq_of_beq hk]
      exact List.mem_cons_self
    · exact List.mem_cons_of_mem _ (ih h)

lemma lookup_eq_none (h : k ∉ d.map (·.1)) : d.lookup k = none := by
  rw [List.lookup_eq_none_iff]
  intro p hp
  rw [bne_iff_ne]
  exact fun hk => h (hk ▸ List.mem_map_of_mem hp)

/-- The entries of a dictionary are what looking up finds. -/
lemma lookup_eq_some_iff (hd : (d.map (·.1)).Nodup) : d.lookup k = some v ↔ (k, v) ∈ d := by
  constructor
  · exact mem_of_lookup
  · intro h
    obtain ⟨v', hv'⟩ := lookup_of_mem_keys (List.mem_map.2 ⟨_, h, rfl⟩)
    have heq := List.inj_on_of_nodup_map hd (mem_of_lookup hv') h rfl
    rw [hv', (Prod.mk.inj heq).2]

/-- A key that is new is added at the end. -/
lemma lookup_append_of_not_mem (h : k ∉ d.map (·.1)) : (d ++ [(k, v)]).lookup k = some v := by
  induction d with
  | nil => simp
  | cons p d ih =>
    rw [List.map_cons, List.mem_cons, not_or] at h
    rw [List.cons_append, lookup_cons, if_neg (by simpa using h.1)]
    exact ih h.2

lemma set_of_not_mem (h : k ∉ d.map (·.1)) : set d k v = d ++ [(k, v)] := by
  rw [set, if_neg (by simpa using h)]

/-- A key that has an entry keeps its place. -/
lemma set_middle {before after : List (α × β)} (hbefore : k ∉ before.map (·.1))
    (hafter : k ∉ after.map (·.1)) :
    set (before ++ (k, v) :: after) k v' = before ++ (k, v') :: after := by
  have hother : ∀ d : List (α × β), k ∉ d.map (·.1) →
      d.map (fun p => if p.1 == k then (k, v') else p) = d := by
    intro d hd
    refine (List.map_congr_left fun p hp => ?_).trans (List.map_id d)
    have hne : (p.1 == k) = false := by
      rw [beq_eq_false_iff_ne]
      rintro rfl
      exact hd (List.mem_map_of_mem hp)
    rw [hne]
    rfl
  rw [set, if_pos (by simp), List.map_append, List.map_cons, hother before hbefore,
    hother after hafter, beq_self_eq_true]
  rfl

omit [LawfulBEq α] in
/-- The entries after an assignment. -/
lemma mem_set {p : α × β} (h : p ∈ set d k v) : p ∈ d ∨ p = (k, v) := by
  rw [set] at h
  split at h
  · obtain ⟨q, hq, rfl⟩ := List.mem_map.1 h
    split
    · exact .inr rfl
    · exact .inl hq
  · rw [List.mem_append, List.mem_singleton] at h
    exact h

lemma nodup_set (hd : (d.map (·.1)).Nodup) : ((set d k v).map (·.1)).Nodup := by
  by_cases hk : k ∈ d.map (·.1)
  · -- an assignment to a key that is there leaves the keys as they are
    have hsame : (set d k v).map (·.1) = d.map (·.1) := by
      rw [set, if_pos (by simpa using hk), List.map_map]
      refine List.map_congr_left fun p _ => ?_
      show (if p.1 == k then (k, v) else p).1 = p.1
      split
      · rename_i hp
        exact (eq_of_beq hp).symm
      · rfl
    rw [hsame]
    exact hd
  · rw [set_of_not_mem hk, List.map_append, List.map_singleton, List.nodup_append]
    refine ⟨hd, List.nodup_singleton k, ?_⟩
    rintro a ha b hb rfl
    rw [List.mem_singleton.1 hb] at ha
    exact hk ha

/-- A change of the value of one key. -/
lemma lookup_map_at [DecidableEq α] (g : β → β) :
    (d.map fun p => if p.1 = k then (p.1, g p.2) else p).lookup k = (d.lookup k).map g := by
  induction d with
  | nil => rfl
  | cons p d ih =>
    rw [List.map_cons, lookup_cons, lookup_cons, ih]
    by_cases hp : p.1 = k
    · simp [hp]
    · simp [hp, Ne.symm hp]

/-- A dictionary by comprehension over its keys. -/
lemma lookup_comprehension [DecidableEq α] (keys : List α) (g : α → β) :
    (keys.map fun k => (k, g k)).lookup k = if k ∈ keys then some (g k) else none := by
  induction keys with
  | nil => rfl
  | cons k' keys ih =>
    rw [List.map_cons, lookup_cons, ih]
    by_cases hk : k = k'
    · simp [hk]
    · simp [hk]

omit [LawfulBEq α] in
/-- A dictionary with changed values. -/
lemma lookup_map_values {γ : Type} (g : β → γ) :
    (d.map fun p => (p.1, g p.2)).lookup k = (d.lookup k).map g := by
  induction d with
  | nil => rfl
  | cons p d ih =>
    rw [List.map_cons, lookup_cons, lookup_cons, ih]
    split
    · rfl
    · rfl

end Dict
