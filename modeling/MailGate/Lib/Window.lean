import Mathlib.Algebra.Order.Group.Defs
import Mathlib.Data.List.Perm.Subperm
import Mathlib.Data.List.TakeWhile
import Mathlib.Tactic.Abel
import Mathlib.Tactic.Common

/-!
# Sliding windows

A limiter admits a request when fewer than `n` requests were recorded from `w` before its time
on.  The times may come in any order: each closed window of width `w` holds at most `n` of the
recorded times.

A limiter that forgets times of its log counts what is left of them.  It bounds the half-open
windows of a new time if the log still holds all times that lie in one of them.
-/

namespace Window

variable {τ : Type} [AddCommGroup τ] [LinearOrder τ] [IsOrderedAddMonoid τ]

/-- Every closed window of width `w` holds at most `n` of the times. -/
def Bounded (w : τ) (n : ℕ) (times : List τ) : Prop :=
  ∀ start, (times.countP fun t => start ≤ t ∧ t ≤ start + w) ≤ n

/-- Recording one more time keeps the bound when fewer than `n` times lie in the half-line that
starts `w` before it. -/
lemma Bounded.append {w : τ} {n : ℕ} {times : List τ} (h : Bounded w n times) {t : τ}
    (hroom : (times.countP fun u => t - w ≤ u) < n) : Bounded w n (times ++ [t]) := by
  intro start
  rw [List.countP_append, List.countP_singleton]
  by_cases hin : start ≤ t ∧ t ≤ start + w
  · -- a window that holds the new time lies in the half-line
    have hstart : t - w ≤ start := sub_le_iff_le_add.2 hin.2
    have hle : (times.countP fun u => start ≤ u ∧ u ≤ start + w) ≤
        times.countP fun u => t - w ≤ u := by
      refine List.countP_mono_left ?_
      intro u _ hu
      exact decide_eq_true (hstart.trans (of_decide_eq_true hu).1)
    rw [if_pos (decide_eq_true hin)]
    omega
  · rw [if_neg (by simpa using hin)]
    exact h start

/-! ## A log that forgets -/

/-- Every half-open window of width `w` holds at most `n` of the times. -/
def HalfOpen (w : τ) (n : ℕ) (times : List τ) : Prop :=
  ∀ start, (times.countP fun t => start ≤ t ∧ t < start + w) ≤ n

/-- The times that lie in a half-open window together with `t`. -/
def around (w t : τ) (times : List τ) : List τ :=
  times.filter fun u => t - w < u ∧ u < t + w

/-- A log that holds all times around the new one, and fewer than `n`, leaves room for it. -/
lemma HalfOpen.append {w : τ} {n : ℕ} {times log : List τ} (h : HalfOpen w n times) {t : τ}
    (hlog : (around w t times).Subperm log) (hroom : log.length < n) :
    HalfOpen w n (times ++ [t]) := by
  intro start
  rw [List.countP_append, List.countP_singleton]
  by_cases hin : start ≤ t ∧ t < start + w
  · have hle : (times.countP fun u => start ≤ u ∧ u < start + w) ≤ (around w t times).length := by
      rw [around, ← List.countP_eq_length_filter]
      refine List.countP_mono_left ?_
      intro u _ hu
      obtain ⟨hstart, hend⟩ := of_decide_eq_true hu
      have hafter : t - w < u := (sub_lt_iff_lt_add.2 hin.2).trans_le hstart
      have hbefore : u < t + w := hend.trans_le (add_le_add_left hin.1 w)
      exact decide_eq_true ⟨hafter, hbefore⟩
    have hlength := hlog.length_le
    rw [if_pos (decide_eq_true hin)]
    omega
  · rw [if_neg (by simpa using hin)]
    exact h start

omit [IsOrderedAddMonoid τ] in
/-- Forgetting old times loses none of the times around a new one. -/
lemma around_subperm_dropWhile {w t : τ} {times log : List τ}
    (hlog : (around w t times).Subperm log) :
    (around w t times).Subperm (log.dropWhile fun u => u ≤ t - w) := by
  have hself : around w t times = (around w t times).filter fun u => t - w < u := by
    rw [around, List.filter_filter]
    refine List.filter_congr ?_
    intro u _
    simp only [← Bool.decide_and, ← and_assoc, and_self]
  have hkept : (log.filter fun u => t - w < u) =
      (log.dropWhile fun u => u ≤ t - w).filter fun u => t - w < u := by
    conv_lhs => rw [← List.takeWhile_append_dropWhile (p := fun u => decide (u ≤ t - w)) (l := log)]
    rw [List.filter_append]
    have hnil : ((log.takeWhile fun u => u ≤ t - w).filter fun u => t - w < u) = [] := by
      rw [List.filter_eq_nil_iff]
      intro u hu
      simpa using List.mem_takeWhile_imp hu
    rw [hnil, List.nil_append]
  rw [hself]
  exact (hlog.filter _).trans (hkept ▸ List.filter_sublist.subperm)

end Window
