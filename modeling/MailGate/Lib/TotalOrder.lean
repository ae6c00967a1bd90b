import Mathlib.Data.List.Sort
import Mathlib.Order.Extension.Linear
import Mathlib.Tactic.Common

/-!
# Sorting by a total order

A database sorts a table by an order in which no two different rows are equal, so the result
does not depend on how the rows lie in the table.  Orders are built as in `ORDER BY`: by a key
first, and among equal keys by another order.
-/

/-- A decidable total order. -/
structure TotalOrder (α : Type) where
  le : α → α → Prop
  decidable : DecidableRel le
  total : ∀ a b, le a b ∨ le b a
  trans : ∀ a b c, le a b → le b c → le a c
  antisymm : ∀ a b, le a b → le b a → a = b

namespace TotalOrder

variable {α κ : Type} (o : TotalOrder α)

instance : DecidableRel o.le := o.decidable

instance : Std.Total o.le := ⟨o.total⟩

instance : IsTrans α o.le := ⟨o.trans⟩

instance : Std.Antisymm o.le := ⟨o.antisymm⟩

/-- The list in the order. -/
def sort (l : List α) : List α := l.insertionSort o.le

/-- The result of sorting does not depend on where the elements stood. -/
lemma sort_eq_of_perm {l l' : List α} (h : l.Perm l') : o.sort l = o.sort l' := by
  have hperm : (o.sort l).Perm (o.sort l') :=
    (List.perm_insertionSort o.le l).trans (h.trans (List.perm_insertionSort o.le l').symm)
  exact hperm.eq_of_pairwise' (List.pairwise_insertionSort o.le l)
    (List.pairwise_insertionSort o.le l')

/-- Every type has a total order. -/
lemma nonempty (α : Type) : Nonempty (TotalOrder α) := by
  classical
  have heq : IsPartialOrder α (· = ·) :=
    { refl := Eq.refl, trans := fun _ _ _ => Eq.trans, antisymm := fun _ _ h _ => h }
  obtain ⟨le, hle, -⟩ := extend_partialOrder (fun a b : α => a = b)
  exact ⟨le, fun _ _ => inferInstance, hle.total, hle.trans, hle.antisymm⟩

/-- Sorting by a key, and by the given order among equal keys. -/
def byKey [LinearOrder κ] (key : α → κ) : TotalOrder α where
  le a b := key a < key b ∨ key a = key b ∧ o.le a b
  decidable _ _ := inferInstance
  total a b := by
    rcases lt_trichotomy (key a) (key b) with hlt | heq | hgt
    · exact .inl (.inl hlt)
    · rcases o.total a b with hle | hle
      · exact .inl (.inr ⟨heq, hle⟩)
      · exact .inr (.inr ⟨heq.symm, hle⟩)
    · exact .inr (.inl hgt)
  trans a b c := by
    rintro (hab | ⟨hab, hle⟩) (hbc | ⟨hbc, hle'⟩)
    · exact .inl (hab.trans hbc)
    · exact .inl (hab.trans_eq hbc)
    · exact .inl (hab.trans_lt hbc)
    · exact .inr ⟨hab.trans hbc, o.trans a b c hle hle'⟩
  antisymm a b := by
    rintro (hab | ⟨hab, hle⟩) (hba | ⟨hba, hle'⟩)
    · exact absurd hab hba.asymm
    · exact absurd hba hab.ne'
    · exact absurd hab hba.ne'
    · exact o.antisymm a b hle hle'

end TotalOrder
