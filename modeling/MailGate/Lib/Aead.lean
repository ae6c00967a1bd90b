import Mathlib.Data.Set.Basic
import Mathlib.Tactic.Common

/-!
# Authenticated encryption

A library encrypts a text piece by piece, through a context; a mode encrypts it at once.  A
library implements a mode if the pieces that it returns make up what the mode gives for the
whole text, however the text is cut.
-/

namespace Aead

variable {α Ctx : Type}

/-- A mode of authenticated encryption. -/
structure Mode (α : Type) where
  /-- The ciphertext and the tag. -/
  encrypt : (key nonce aad text : List α) → List α × List α
  /-- The text; `none` is a tag that is not right. -/
  decrypt : (key nonce aad ciphertext tag : List α) → Option (List α)

/-- The contexts of a library. -/
structure Cipher (α Ctx : Type) where
  encryptor : (key nonce : List α) → Ctx
  decryptor : (key nonce tag : List α) → Ctx
  /-- The additional data. -/
  authenticate : Ctx → List α → Ctx
  update : Ctx → List α → List α × Ctx
  /-- What is left of the output; `none` is a tag that is not right. -/
  finalize : Ctx → Option (List α × Ctx)
  /-- The tag after `finalize`. -/
  tag : Ctx → List α

/-- The output for some pieces, and the context after them. -/
def Cipher.pieces (cipher : Cipher α Ctx) : Ctx → List (List α) → List α × Ctx
  | ctx, [] => ([], ctx)
  | ctx, p :: ps =>
      ((cipher.update ctx p).1 ++ (cipher.pieces (cipher.update ctx p).2 ps).1,
        (cipher.pieces (cipher.update ctx p).2 ps).2)

/-- The library gives what the mode gives. -/
structure Cipher.Implements (cipher : Cipher α Ctx) (mode : Mode α) : Prop where
  encrypts : ∀ key nonce aad ps out ctx,
    cipher.pieces (cipher.authenticate (cipher.encryptor key nonce) aad) ps = (out, ctx) →
      ∃ last ctx', cipher.finalize ctx = some (last, ctx') ∧
        (out ++ last, cipher.tag ctx') = mode.encrypt key nonce aad ps.flatten
  decrypts : ∀ key nonce aad tag ps out ctx,
    cipher.pieces (cipher.authenticate (cipher.decryptor key nonce tag) aad) ps = (out, ctx) →
      (cipher.finalize ctx).map (fun r => out ++ r.1) = mode.decrypt key nonce aad ps.flatten tag

/-- The ciphertext is as long as the text, and every tag has one length. -/
structure Mode.Sized (mode : Mode α) (tagLength : ℕ) : Prop where
  ciphertext : ∀ key nonce aad text, (mode.encrypt key nonce aad text).1.length = text.length
  tag : ∀ key nonce aad text, (mode.encrypt key nonce aad text).2.length = tagLength

/-- What one encryption was given. -/
structure Encryption (α : Type) where
  key : List α
  nonce : List α
  aad : List α
  text : List α
deriving DecidableEq, Repr

/-- Decryption inverts these encryptions. -/
def Mode.Inverts (mode : Mode α) (made : Set (Encryption α)) : Prop :=
  ∀ e ∈ made, ∀ ciphertext tag,
    mode.encrypt e.key e.nonce e.aad e.text = (ciphertext, tag) →
      mode.decrypt e.key e.nonce e.aad ciphertext tag = some e.text

/-- The mode is ideal for the encryptions that were made: they can be undone, and nothing else
decrypts. -/
structure Mode.Ideal (mode : Mode α) (made : Set (Encryption α)) : Prop where
  inverts : mode.Inverts made
  genuine : ∀ key nonce aad ciphertext tag text,
    mode.decrypt key nonce aad ciphertext tag = some text →
      ∃ e ∈ made, e.key = key ∧ e.nonce = nonce ∧ e.aad = aad ∧
        mode.encrypt key nonce aad e.text = (ciphertext, tag)

/-! ## A ledger

A ledger says which encryptions may be undone: a mode that is ideal for them.
-/

/-- A context of the ledger. -/
structure Session (α : Type) where
  decrypting : Bool
  key : List α
  nonce : List α
  aad : List α
  text : List α
  tag : List α

section Ledger

variable [DecidableEq α] (tag : List α) (made : Encryption α → Bool)

/-- The mode of a ledger. -/
def ledgerMode : Mode α where
  encrypt _ _ _ text := (text, tag)
  decrypt key nonce aad ciphertext t :=
    if made ⟨key, nonce, aad, ciphertext⟩ = true ∧ t = tag then some ciphertext else none

/-- The contexts of a ledger. -/
def ledger : Cipher α (Session α) where
  encryptor key nonce := ⟨false, key, nonce, [], [], tag⟩
  decryptor key nonce t := ⟨true, key, nonce, [], [], t⟩
  authenticate s aad := { s with aad := s.aad ++ aad }
  update s p := (p, { s with text := s.text ++ p })
  finalize s :=
    if s.decrypting = true ∧ ¬(made ⟨s.key, s.nonce, s.aad, s.text⟩ = true ∧ s.tag = tag) then none
    else some ([], s)
  tag s := s.tag

lemma ledger_pieces (s : Session α) (ps : List (List α)) :
    (ledger tag made).pieces s ps = (ps.flatten, { s with text := s.text ++ ps.flatten }) := by
  induction ps generalizing s with
  | nil => simp [Cipher.pieces]
  | cons p ps ih =>
    have hupdate : (ledger tag made).update s p = (p, { s with text := s.text ++ p }) := rfl
    rw [Cipher.pieces, hupdate, ih, List.flatten_cons, List.append_assoc]

lemma ledger_finalize {s : Session α} (h : s.decrypting = false) :
    (ledger tag made).finalize s = some ([], s) := by
  show (if s.decrypting = true ∧ _ then none else some ([], s)) = _
  rw [if_neg (by simp [h])]

lemma ledger_implements : (ledger tag made).Implements (ledgerMode tag made) where
  encrypts key nonce aad ps out ctx h := by
    rw [ledger_pieces] at h
    cases h
    refine ⟨[], _, ledger_finalize _ _ rfl, ?_⟩
    rw [List.append_nil]
    rfl
  decrypts key nonce aad t ps out ctx h := by
    rw [ledger_pieces] at h
    cases h
    simp only [ledger, ledgerMode, List.nil_append, true_and, ite_not]
    split <;> simp

lemma ledgerMode_sized : (ledgerMode tag made).Sized tag.length :=
  ⟨fun _ _ _ _ => rfl, fun _ _ _ _ => rfl⟩

lemma ledgerMode_ideal : (ledgerMode tag made).Ideal {e | made e = true} where
  inverts e he ciphertext t h := by
    cases h
    exact if_pos ⟨he, rfl⟩
  genuine key nonce aad ciphertext t text h := by
    simp only [ledgerMode, Option.ite_none_right_eq_some] at h
    obtain ⟨⟨hmade, rfl⟩, -⟩ := h
    exact ⟨_, hmade, rfl, rfl, rfl, rfl⟩

end Ledger

end Aead
