import Mathlib.Data.List.Basic

/-!
# Privileges

A server keeps a list of the privileges that were granted, each to one role or to everyone, on an
object or on one part of it.  A script of grants and revocations is run on such a list; this file
says what the list holds afterwards.
-/

namespace Privileges

/-- Who a privilege is granted to. -/
inductive Grantee (ρ : Type*) where
  | role (r : ρ)
  | everyone
deriving DecidableEq, Repr

/-- A right on an object, or on one part of it. -/
structure Grant (ρ ο κ π : Type*) where
  grantee : Grantee ρ
  object : ο
  part : Option κ
  right : π
deriving DecidableEq, Repr

/-- A revocation covers rights on objects, and with them what was granted on the parts. -/
inductive Command (ρ ο κ π : Type*) where
  | grant (new : List (Grant ρ ο κ π))
  | revoke (grantee : Grantee ρ) (covers : ο → π → Bool)

variable {ρ ο κ π : Type*}

/-- The list of granted privileges. -/
abbrev Acl (ρ ο κ π : Type*) := List (Grant ρ ο κ π)

namespace Command

/-- What a command grants. -/
def grants : Command ρ ο κ π → List (Grant ρ ο κ π)
  | grant new => new
  | revoke _ _ => []

variable [DecidableEq ρ]

/-- The command takes this privilege away. -/
def takes : Command ρ ο κ π → Grant ρ ο κ π → Bool
  | grant _, _ => false
  | revoke grantee covers, e => e.grantee == grantee && covers e.object e.right

/-- The list after a command. -/
def exec (c : Command ρ ο κ π) (acl : Acl ρ ο κ π) : Acl ρ ο κ π :=
  acl.filter (!c.takes ·) ++ c.grants

end Command

variable [DecidableEq ρ]

/-- The list after a script. -/
def run (script : List (Command ρ ο κ π)) (acl : Acl ρ ο κ π) : Acl ρ ο κ π :=
  script.foldl (fun acl c => c.exec acl) acl

variable {c : Command ρ ο κ π} {script : List (Command ρ ο κ π)} {acl : Acl ρ ο κ π}
  {e : Grant ρ ο κ π}

lemma mem_exec : e ∈ c.exec acl ↔ e ∈ acl ∧ c.takes e = false ∨ e ∈ c.grants := by
  rw [Command.exec, List.mem_append, List.mem_filter, Bool.not_eq_true']

@[simp] lemma run_nil : run [] acl = acl := rfl

@[simp] lemma run_cons : run (c :: script) acl = run script (c.exec acl) := rfl

lemma run_append (script script' : List (Command ρ ο κ π)) (acl : Acl ρ ο κ π) :
    run (script ++ script') acl = run script' (run script acl) := List.foldl_append

/-- What stands after a script was granted by one of its commands, or stood before it, and no
later command has taken it away. -/
theorem mem_run : e ∈ run script acl ↔
    (e ∈ acl ∧ ∀ d ∈ script, d.takes e = false) ∨
      ∃ before d after, script = before ++ d :: after ∧ e ∈ d.grants ∧
        ∀ d' ∈ after, d'.takes e = false := by
  induction script generalizing acl with
  | nil => simp
  | cons c script ih =>
    rw [run_cons, ih, mem_exec, List.forall_mem_cons]
    constructor
    · rintro (⟨⟨hacl, hc⟩ | hnew, hrest⟩ | ⟨before, d, after, rfl, hd⟩)
      · exact .inl ⟨hacl, hc, hrest⟩
      · exact .inr ⟨[], c, script, rfl, hnew, hrest⟩
      · exact .inr ⟨c :: before, d, after, rfl, hd⟩
    · rintro (⟨hacl, hc, hrest⟩ | ⟨before, d, after, hsplit, hnew, hafter⟩)
      · exact .inl ⟨.inl ⟨hacl, hc⟩, hrest⟩
      · -- the granting command is the first one, or stands in the rest
        cases before with
        | nil =>
          obtain ⟨rfl, rfl⟩ := List.cons.inj hsplit
          exact .inl ⟨.inr hnew, hafter⟩
        | cons b before =>
          obtain ⟨-, rfl⟩ := List.cons.inj hsplit
          exact .inr ⟨before, d, after, rfl, hnew, hafter⟩

/-- What no command grants stands after a script only if it stood before. -/
lemma mem_of_mem_run (hnew : ∀ d ∈ script, e ∉ d.grants) (h : e ∈ run script acl) :
    e ∈ acl ∧ ∀ d ∈ script, d.takes e = false := by
  rcases mem_run.1 h with hold | ⟨before, d, after, rfl, hd, -⟩
  · exact hold
  · exact absurd hd (hnew d (by simp))

lemma exec_subset {acl' : Acl ρ ο κ π} (h : acl ⊆ acl') : c.exec acl ⊆ c.exec acl' := by
  intro e he
  rw [mem_exec] at he ⊢
  exact he.imp_left fun hold => ⟨h hold.1, hold.2⟩

/-- More before a script is more after it. -/
lemma run_subset {acl' : Acl ρ ο κ π} (h : acl ⊆ acl') : run script acl ⊆ run script acl' := by
  induction script generalizing acl acl' with
  | nil => exact h
  | cons c script ih => exact ih (exec_subset h)

/-- What every command of a script keeps, the script keeps. -/
lemma run_invariant {I : Acl ρ ο κ π → Prop} (hstep : ∀ d ∈ script, ∀ acl, I acl → I (d.exec acl))
    (h : I acl) : I (run script acl) := by
  induction script generalizing acl with
  | nil => exact h
  | cons c script ih =>
    rw [List.forall_mem_cons] at hstep
    exact ih hstep.2 (hstep.1 acl h)

/-- A role has a right on a part of an object if it was granted to the role or to everyone, on
the part or on the object; without a part, the right is one on the object. -/
def Allows (acl : Acl ρ ο κ π) (r : ρ) (object : ο) (part : Option κ) (right : π) : Prop :=
  ∃ e ∈ acl, (e.grantee = .role r ∨ e.grantee = .everyone) ∧ e.object = object ∧
    e.right = right ∧ (e.part = none ∨ e.part = part)

instance [DecidableEq ο] [DecidableEq κ] [DecidableEq π] (acl : Acl ρ ο κ π) (r : ρ) (object : ο)
    (part : Option κ) (right : π) : Decidable (Allows acl r object part right) := by
  unfold Allows
  infer_instance

omit [DecidableEq ρ] in
/-- A right that was granted to the role itself. -/
lemma Allows.of_mem {r : ρ} {object : ο} {part part' : Option κ} {right : π}
    (h : ⟨.role r, object, part', right⟩ ∈ acl) (hpart : part' = none ∨ part' = part) :
    Allows acl r object part right :=
  ⟨_, h, .inl rfl, rfl, rfl, hpart⟩

omit [DecidableEq ρ] in
/-- A right is allowed by one of the privileges that stand. -/
lemma Allows.mono {acl' : Acl ρ ο κ π} {r : ρ} {object : ο} {part : Option κ} {right : π}
    (h : Allows acl r object part right)
    (hsub : ∀ e ∈ acl, e.grantee = .role r ∨ e.grantee = .everyone → e ∈ acl') :
    Allows acl' r object part right := by
  obtain ⟨e, he, hgrantee, hrest⟩ := h
  exact ⟨e, hsub e he hgrantee, hgrantee, hrest⟩

end Privileges
