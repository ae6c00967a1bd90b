import Mathlib.Data.List.Flatten
import Mathlib.Tactic.Common

/-!
# Blocks in a file

A file that keeps blocks of any length writes them one after the other, each with a terminator
behind it, and refers to a block by its length and its offset.  The offsets are a running sum of
the lengths.  They meet the blocks, whatever stands before and after them in the file.
-/

namespace Layout

variable {α : Type}

/-- A part of a file, by its length and its offset. -/
structure Span where
  length : ℕ
  offset : ℕ
deriving DecidableEq, Repr

namespace Span

/-- The position behind the part. -/
def stop (s : Span) : ℕ := s.offset + s.length

/-- What stands in the part. -/
def read (file : List α) (s : Span) : List α := (file.drop s.offset).take s.length

/-- The part and the terminator behind it. -/
def extend (s : Span) : Span := ⟨s.length + 1, s.offset⟩

/-- One part ends before the other begins. -/
def Precedes (s t : Span) : Prop := s.stop ≤ t.offset

/-- No position belongs to both parts, and neither lies within the other. -/
def Disjoint (s t : Span) : Prop := s.Precedes t ∨ t.Precedes s

instance (s t : Span) : Decidable (s.Precedes t) := inferInstanceAs (Decidable (_ ≤ _))

instance (s t : Span) : Decidable (s.Disjoint t) := inferInstanceAs (Decidable (_ ∨ _))

@[simp] lemma stop_extend (s : Span) : s.extend.stop = s.stop + 1 := by
  simp only [stop, extend]
  omega

lemma read_middle (front block back : List α) :
    Span.read (front ++ (block ++ back)) ⟨block.length, front.length⟩ = block := by
  rw [read, List.drop_left, List.take_left]

end Span

/-- The blocks, each with the terminator behind it. -/
def terminated (z : α) (blocks : List (List α)) : List α := (blocks.map (· ++ [z])).flatten

/-- Where the blocks stand, the first of them at the offset. -/
def spans (offset : ℕ) : List (List α) → List Span
  | [] => []
  | block :: blocks => ⟨block.length, offset⟩ :: spans (offset + block.length + 1) blocks

@[simp] lemma terminated_nil (z : α) : terminated z [] = [] := rfl

lemma terminated_cons (z : α) (block : List α) (blocks : List (List α)) :
    terminated z (block :: blocks) = block ++ z :: terminated z blocks := by
  simp [terminated]

lemma terminated_append (z : α) (blocks blocks' : List (List α)) :
    terminated z (blocks ++ blocks') = terminated z blocks ++ terminated z blocks' := by
  simp [terminated]

@[simp] lemma spans_length (offset : ℕ) (blocks : List (List α)) :
    (spans offset blocks).length = blocks.length := by
  induction blocks generalizing offset with
  | nil => rfl
  | cons block blocks ih => rw [spans, List.length_cons, List.length_cons, ih]

/-- Blocks that follow others stand behind them. -/
lemma spans_append (z : α) (offset : ℕ) (blocks blocks' : List (List α)) :
    spans offset (blocks ++ blocks') =
      spans offset blocks ++ spans (offset + (terminated z blocks).length) blocks' := by
  induction blocks generalizing offset with
  | nil => rfl
  | cons block blocks ih =>
    have hlength : offset + (terminated z (block :: blocks)).length =
        offset + block.length + 1 + (terminated z blocks).length := by
      rw [terminated_cons, List.length_append, List.length_cons]
      omega
    rw [List.cons_append, spans, spans, ih, hlength, List.cons_append]

/-- Behind the part stands the terminator. -/
def Terminates (z : α) (file : List α) (s : Span) : Prop := file[s.stop]? = some z

/-- Each block stands where its span says, with the terminator behind it. -/
lemma read_spans (z : α) (front : List α) (blocks : List (List α)) (back : List α) :
    (spans front.length blocks).map (Span.read (front ++ (terminated z blocks ++ back))) = blocks ∧
      ∀ s ∈ spans front.length blocks, Terminates z (front ++ (terminated z blocks ++ back)) s := by
  induction blocks generalizing front with
  | nil => exact ⟨rfl, by simp [spans]⟩
  | cons block blocks ih =>
    -- what the first block takes is in front of the others
    have hfile : front ++ (terminated z (block :: blocks) ++ back) =
        (front ++ (block ++ [z])) ++ (terminated z blocks ++ back) := by
      simp [terminated_cons]
    have hlength : (front ++ (block ++ [z])).length = front.length + block.length + 1 := by
      simp only [List.length_append, List.length_singleton]
      omega
    obtain ⟨hread, hterm⟩ := ih (front ++ (block ++ [z]))
    rw [← hfile, hlength] at hread hterm
    rw [spans, List.map_cons, hread, List.forall_mem_cons]
    refine ⟨?_, ?_, hterm⟩
    · rw [terminated_cons, List.append_assoc, Span.read_middle]
    · have hz : (front ++ (block ++ z :: (terminated z blocks ++ back)))[front.length +
          block.length]? = some z := by
        rw [← List.append_assoc, List.getElem?_append_right (by simp)]
        simp
      rw [Terminates, terminated_cons, List.append_assoc, List.cons_append]
      exact hz

lemma offset_le_of_mem_spans {offset : ℕ} {blocks : List (List α)} {s : Span}
    (h : s ∈ spans offset blocks) : offset ≤ s.offset := by
  induction blocks generalizing offset with
  | nil => simp [spans] at h
  | cons block blocks ih =>
    rcases List.mem_cons.1 h with rfl | h
    · exact Nat.le_refl _
    · have := ih h
      omega

/-- The last terminator is the end of the blocks. -/
lemma stop_le_of_mem_spans (z : α) {offset : ℕ} {blocks : List (List α)} {s : Span}
    (h : s ∈ spans offset blocks) :
    s.extend.stop ≤ offset + (terminated z blocks).length := by
  induction blocks generalizing offset with
  | nil => simp [spans] at h
  | cons block blocks ih =>
    rw [terminated_cons, List.length_append, List.length_cons]
    rcases List.mem_cons.1 h with rfl | h
    · rw [Span.stop_extend]
      show offset + block.length + 1 ≤ _
      omega
    · have := ih h
      omega

/-- No block begins before the terminator of an earlier one. -/
lemma spans_pairwise (offset : ℕ) (blocks : List (List α)) :
    (spans offset blocks).Pairwise fun s t => s.extend.Precedes t.extend := by
  induction blocks generalizing offset with
  | nil => exact List.Pairwise.nil
  | cons block blocks ih =>
    refine List.Pairwise.cons ?_ (ih _)
    intro t ht
    have hle := offset_le_of_mem_spans ht
    rw [Span.Precedes, Span.stop_extend]
    exact hle

end Layout
