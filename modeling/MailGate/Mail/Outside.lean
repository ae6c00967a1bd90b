import MailGate.Mail.Content

/-!
# Inside and outside of attachments

A part with the disposition `attachment` or with a file name is an attachment, and so is
everything below it.  Here is what a message has outside of its attachments, and how the parts
that `walk()` returns are made of it.
-/

namespace MailGate

/-- `disposition == "attachment" or filename`, where these can be read. -/
def carriesAttachment (headers : PartHeaders) : Bool :=
  (match headers.contentDisposition with
    | .ok disposition => decide (disposition = some (py "attachment"))
    | .error _ => false) ||
  match headers.filename with
    | .ok filename => decide (safeHeader filename 255 ≠ [])
    | .error _ => false

lemma carriesAttachment_iff {headers : PartHeaders} :
    carriesAttachment headers = true ↔ IsAttachment headers := by
  rw [carriesAttachment, IsAttachment, Bool.or_eq_true]
  refine or_congr ?_ ?_
  · cases headers.contentDisposition with
    | error e => simp
    | ok disposition => simp
  · cases headers.filename with
    | error e => simp
    | ok filename => simp

/-- What a message has outside of its attachments: leaf parts, and the headers of attachments. -/
inductive OuterItem where
  | leaf (headers : PartHeaders) (payload : Except MailExn (Option Bytes))
      (h : carriesAttachment headers = false)
  | attachment (headers : PartHeaders) (h : carriesAttachment headers = true)

namespace OuterItem

/-- The item is no attachment whose content can make it a container. -/
def isClosed : OuterItem → Bool
  | leaf _ _ _ => true
  | attachment headers _ => !headers.canContain

/-- The item is a leaf part outside of attachments. -/
def isLeaf : OuterItem → Bool
  | leaf _ _ _ => true
  | _ => false

/-- The item as a part, an attachment without its content. -/
def part : OuterItem → MimePart
  | leaf headers payload _ => .leaf headers payload
  | attachment headers _ =>
      if h : headers.canContain = true then .multipart headers [] h else .leaf headers (.ok none)

lemma part_open {headers : PartHeaders} (hc : carriesAttachment headers = true)
    (h : headers.canContain = true) : (attachment headers hc).part = .multipart headers [] h := by
  rw [part, dif_pos h]

lemma part_closed {headers : PartHeaders} (hc : carriesAttachment headers = true)
    (h : ¬headers.canContain = true) : (attachment headers hc).part = .leaf headers (.ok none) := by
  rw [part, dif_neg h]

end OuterItem

namespace MimePart

mutual

/-- What a part has outside of attachments, in preorder. -/
def items : MimePart → List OuterItem
  | leaf headers payload =>
      if h : carriesAttachment headers = true then [.attachment headers h]
      else [.leaf headers payload (by simpa using h)]
  | multipart headers parts _ =>
      if h : carriesAttachment headers = true then [.attachment headers h] else itemsAll parts

/-- The same for a list of parts. -/
def itemsAll : List MimePart → List OuterItem
  | [] => []
  | part :: parts => part.items ++ itemsAll parts

end

/-- `not part.is_multipart()`. -/
def isLeaf : MimePart → Bool
  | leaf _ _ => true
  | multipart _ _ _ => false

/-- The leaf parts that `walk()` returns. -/
def leaves (part : MimePart) : List MimePart := part.walk.filter isLeaf

/-- Induction over a part and the parts below it. -/
lemma induction {P : MimePart → Prop} (leaf : ∀ headers payload, P (.leaf headers payload))
    (multipart : ∀ headers parts h, (∀ part ∈ parts, P part) → P (.multipart headers parts h))
    (part : MimePart) : P part := by
  refine MimePart.rec (motive_1 := P) (motive_2 := fun parts => ∀ part ∈ parts, P part) leaf
    (fun headers parts h ih => multipart headers parts h ih) ?_ ?_ part
  · simp
  · intro head tail hhead htail
    rw [List.forall_mem_cons]
    exact ⟨hhead, htail⟩

end MimePart

/-- The leaf parts of a message: those outside of attachments, and for each attachment a leaf or,
where its headers allow that, what is inside of a container; with the number of those inside. -/
inductive Expands : List OuterItem → ℕ → List MimePart → Prop where
  | nil : Expands [] 0 []
  | leaf {headers : PartHeaders} {payload : Except MailExn (Option Bytes)}
      {h : carriesAttachment headers = false} {is : List OuterItem} {n : ℕ} {ls : List MimePart}
      (hrest : Expands is n ls) :
      Expands (.leaf headers payload h :: is) n (.leaf headers payload :: ls)
  | attachment {headers : PartHeaders} {h : carriesAttachment headers = true}
      (payload : Except MailExn (Option Bytes)) {is : List OuterItem} {n : ℕ} {ls : List MimePart}
      (hrest : Expands is n ls) :
      Expands (.attachment headers h :: is) n (.leaf headers payload :: ls)
  | container {headers : PartHeaders} {h : carriesAttachment headers = true}
      (hcontain : headers.canContain = true) (inside : List MimePart) {is : List OuterItem} {n : ℕ}
      {ls : List MimePart} (hrest : Expands is n ls) :
      Expands (.attachment headers h :: is) (inside.length + n) (inside ++ ls)

namespace Expands

variable {is is' : List OuterItem} {n n' : ℕ} {ls ls' : List MimePart}

lemma append (h : Expands is n ls) (h' : Expands is' n' ls') :
    Expands (is ++ is') (n + n') (ls ++ ls') := by
  induction h with
  | nil => simpa using h'
  | leaf _ ih => exact .leaf ih
  | attachment payload _ ih => exact .attachment payload ih
  | container hcontain inside _ ih =>
    rw [List.append_assoc, Nat.add_assoc]
    exact .container hcontain inside ih

/-- Where no attachment can be a container, nothing is inside of one. -/
lemma eq_zero (h : Expands is n ls) (hclosed : ∀ i ∈ is, i.isClosed = true) : n = 0 := by
  induction h with
  | nil => rfl
  | leaf _ ih => exact ih fun i hi => hclosed i (List.mem_cons_of_mem _ hi)
  | attachment _ _ ih => exact ih fun i hi => hclosed i (List.mem_cons_of_mem _ hi)
  | container hcontain =>
    have hfirst := hclosed _ List.mem_cons_self
    rw [OuterItem.isClosed, hcontain] at hfirst
    cases hfirst

end Expands

namespace MimePart

lemma walk_multipart (headers : PartHeaders) (parts : List MimePart)
    (h : headers.canContain = true) :
    (multipart headers parts h).walk = multipart headers parts h :: walkAll parts := by
  rw [walk]

lemma leaves_multipart (headers : PartHeaders) (parts : List MimePart)
    (h : headers.canContain = true) :
    (multipart headers parts h).leaves = (walkAll parts).filter isLeaf := by
  rw [leaves, walk_multipart, List.filter_cons_of_neg (by simp [isLeaf])]

/-- The leaf parts of a message expand what it has outside of attachments.  There are at least
as many parts as these items and what is inside of attached containers, and one more where the
message is a container of several items. -/
lemma expands (part : MimePart) : ∃ n, Expands part.items n part.leaves ∧
    part.items.length + n ≤ part.walk.length ∧
      (part.items.length ≠ 1 → part.items.length + n < part.walk.length) := by
  induction part using induction with
  | leaf headers payload =>
    have hwalk : (leaf headers payload).walk = [leaf headers payload] := by rw [walk]
    have hleaves : (leaf headers payload).leaves = [leaf headers payload] := by
      rw [leaves, hwalk, List.filter_cons_of_pos rfl, List.filter_nil]
    rw [hleaves, hwalk, items]
    split
    · exact ⟨0, .attachment payload .nil, by simp⟩
    · exact ⟨0, .leaf .nil, by simp⟩
  | multipart headers parts hcontain ih =>
    -- first for the parts of the container, one after the other
    have hall : ∃ n, Expands (itemsAll parts) n ((walkAll parts).filter isLeaf) ∧
        (itemsAll parts).length + n ≤ (walkAll parts).length := by
      induction parts with
      | nil =>
        rw [itemsAll, walkAll]
        exact ⟨0, .nil, by simp⟩
      | cons part parts ihparts =>
        rw [List.forall_mem_cons] at ih
        obtain ⟨n, hexpands, hlength, -⟩ := ih.1
        obtain ⟨n', hexpands', hlength'⟩ := ihparts ih.2
        rw [itemsAll, walkAll, List.filter_append]
        refine ⟨n + n', hexpands.append hexpands', ?_⟩
        simp only [List.length_append]
        omega
    rw [leaves_multipart, walk_multipart, items, List.length_cons]
    split
    · rename_i hcarries
      -- an attached container is one item, whatever it holds
      have hinside : Expands [.attachment headers hcarries] _ _ :=
        .container hcontain ((walkAll parts).filter isLeaf) .nil
      rw [List.append_nil] at hinside
      refine ⟨_, hinside, ?_⟩
      have hle := List.length_filter_le isLeaf (walkAll parts)
      simp only [List.length_singleton]
      omega
    · obtain ⟨n, hexpands, hlength⟩ := hall
      exact ⟨n, hexpands, by omega, fun _ => by omega⟩

end MimePart

end MailGate
