import Mathlib.Data.List.Basic
import Mathlib.Algebra.GroupWithZero.Nat
import Mathlib.Algebra.Order.BigOperators.Group.List
import Mathlib.Algebra.Order.Group.Nat

/-!
# Lists without repetition

A list without its repetitions has the same members, in the order in which they occur first, and
it is not longer when it is written down with a separator.
-/

namespace Firsts

variable {α : Type}

/-! ## With a separator -/

lemma length_intercalate (sep : List α) (xss : List (List α)) :
    (sep.intercalate xss).length =
      (xss.map List.length).sum + (xss.length - 1) * sep.length := by
  induction xss with
  | nil => simp [List.intercalate]
  | cons xs xss ih =>
    cases xss with
    | nil => simp [List.intercalate]
    | cons ys yss =>
      have hstep : sep.intercalate (xs :: ys :: yss) =
          xs ++ sep ++ sep.intercalate (ys :: yss) := by
        simp [List.intercalate]
      rw [hstep, List.length_append, List.length_append, ih]
      simp only [List.map_cons, List.sum_cons, List.length_cons, Nat.add_sub_cancel, Nat.succ_mul]
      omega

/-- Fewer and shorter pieces make a text that is not longer. -/
lemma length_intercalate_le (sep : List α) {f : List α → List α} {xss yss : List (List α)}
    (hsub : yss.Sublist (xss.map f)) (hf : ∀ xs ∈ xss, (f xs).length ≤ xs.length) :
    (sep.intercalate yss).length ≤ (sep.intercalate xss).length := by
  rw [length_intercalate, length_intercalate]
  have hsum : (yss.map List.length).sum ≤ ((xss.map f).map List.length).sum :=
    (hsub.map List.length).sum_le_sum fun _ _ => Nat.zero_le _
  have hpieces : ((xss.map f).map List.length).sum ≤ (xss.map List.length).sum := by
    rw [List.map_map]
    exact List.sum_le_sum hf
  have hlength : yss.length ≤ xss.length := by simpa using hsub.length_le
  have hseps : (yss.length - 1) * sep.length ≤ (xss.length - 1) * sep.length :=
    Nat.mul_le_mul_right _ (by omega)
  omega

/-! ## First occurrences -/

variable [BEq α] {xs ys : List α}

/-- `ys` lists the members of `xs` once each, in the order of their first occurrence. -/
structure ListsFirsts (xs ys : List α) : Prop where
  mem_iff : ∀ x, x ∈ ys ↔ x ∈ xs
  ordered : ys.Pairwise fun x y => xs.idxOf x < xs.idxOf y

lemma ListsFirsts.nodup (h : ListsFirsts xs ys) : ys.Nodup := by
  refine h.ordered.imp ?_
  rintro x y hlt rfl
  exact lt_irrefl _ hlt

lemma eraseDups_sublist (xs : List α) : xs.eraseDups.Sublist xs := by
  match xs with
  | [] => exact List.Sublist.refl _
  | a :: as =>
    rw [List.eraseDups_cons]
    have hrest := eraseDups_sublist (as.filter fun b => !b == a)
    exact (hrest.trans List.filter_sublist).cons_cons a
termination_by xs.length
decreasing_by
  have hle := List.length_filter_le (fun b => !b == a) as
  rw [List.length_cons]
  omega

variable [LawfulBEq α]

/-- Leaving elements out keeps the order of the others. -/
lemma idxOf_lt_of_filter {p : α → Bool} {x y : α} (hx : p x = true) (hy : p y = true)
    (h : (xs.filter p).idxOf x < (xs.filter p).idxOf y) : xs.idxOf x < xs.idxOf y := by
  induction xs with
  | nil => simp at h
  | cons a as ih =>
    by_cases hax : a = x
    · subst hax
      have hay : a ≠ y := by
        rintro rfl
        exact lt_irrefl _ h
      rw [List.idxOf_cons_self, List.idxOf_cons_ne _ hay]
      omega
    by_cases hay : a = y
    · subst hay
      rw [List.filter_cons_of_pos hy, List.idxOf_cons_self] at h
      omega
    · rw [List.idxOf_cons_ne _ hax, List.idxOf_cons_ne _ hay]
      suffices as.idxOf x < as.idxOf y by omega
      -- the head is neither of the two, whether it is kept or left out
      by_cases hp : p a = true
      · rw [List.filter_cons_of_pos hp, List.idxOf_cons_ne _ hax, List.idxOf_cons_ne _ hay] at h
        exact ih (by omega)
      · rw [List.filter_cons_of_neg hp] at h
        exact ih h

lemma ne_of_mem_eraseDups {a x : α} (h : x ∈ (xs.filter fun b => !b == a).eraseDups) :
    a ≠ x := by
  rw [List.mem_eraseDups, List.mem_filter, Bool.not_eq_true', beq_eq_false_iff_ne] at h
  exact h.2.symm

/-- `List.eraseDups` keeps the first occurrences. -/
theorem eraseDups_ordered (xs : List α) :
    xs.eraseDups.Pairwise fun x y => xs.idxOf x < xs.idxOf y := by
  match xs with
  | [] => exact List.Pairwise.nil
  | a :: as =>
    rw [List.eraseDups_cons]
    refine List.Pairwise.cons (fun x hx => ?_) ?_
    · rw [List.idxOf_cons_self, List.idxOf_cons_ne _ (ne_of_mem_eraseDups hx)]
      omega
    · -- the recursion orders by the filtered tail, so its positions are carried back to the tail
      refine (eraseDups_ordered (as.filter fun b => !b == a)).imp_of_mem fun {x y} hx hy hlt => ?_
      have hax := ne_of_mem_eraseDups hx
      have hay := ne_of_mem_eraseDups hy
      rw [List.idxOf_cons_ne _ hax, List.idxOf_cons_ne _ hay]
      have hkeep : ∀ z, a ≠ z → (!z == a) = true := by
        intro z hz
        rw [Bool.not_eq_true', beq_eq_false_iff_ne]
        exact hz.symm
      have hxy := idxOf_lt_of_filter (p := fun z => !z == a) (hkeep x hax) (hkeep y hay) hlt
      omega
termination_by xs.length
decreasing_by
  have hle := List.length_filter_le (fun b => !b == a) as
  rw [List.length_cons]
  omega

lemma listsFirsts_eraseDups (xs : List α) : ListsFirsts xs xs.eraseDups :=
  ⟨fun _ => List.mem_eraseDups, eraseDups_ordered xs⟩

/-- A list without repetition stays as it is. -/
lemma eraseDups_of_nodup (h : xs.Nodup) : xs.eraseDups = xs := by
  induction xs with
  | nil => rfl
  | cons a as ih =>
    obtain ⟨hnotMem, hnodup⟩ := List.nodup_cons.1 h
    have hfilter : (as.filter fun b => !b == a) = as := by
      rw [List.filter_eq_self]
      intro b hb
      rw [Bool.not_eq_true', beq_eq_false_iff_ne]
      exact ne_of_mem_of_not_mem hb hnotMem
    rw [List.eraseDups_cons, hfilter, ih hnodup]

end Firsts
