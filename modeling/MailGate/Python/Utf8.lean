import MailGate.Python.Bytes

/-!
# Decoding UTF-8

`bytes.decode("utf-8")`, strict or with the handler `surrogatepass`, and the two things that
callers rely on: ASCII text stands for itself, and a text that was encoded comes back.  The order
of the encoded bytes is that of the texts.
-/

namespace MailGate

namespace Bytes

/-- A code point that the decoder may return. -/
def utf8Ok (surrogatepass : Bool) (least n : ℕ) : Prop :=
  least ≤ n ∧ n < 0x110000 ∧ (surrogatepass = true ∨ ¬(0xD800 ≤ n ∧ n ≤ 0xDFFF))

instance (surrogatepass : Bool) (least n : ℕ) : Decidable (utf8Ok surrogatepass least n) := by
  unfold utf8Ok
  infer_instance

/-- The text of bytes, within a character of which `more` bytes are still to come, whose bits so
far are `n` and which must be `least` at least. -/
def decodeUtf8From (surrogatepass : Bool) : (more n least : ℕ) → Bytes → Option PyStr
  | 0, _, _, [] => some []
  | _ + 1, _, _, [] => none
  | 0, _, _, b :: bs =>
      let n := b.toNat
      if n < 0x80 then
        (decodeUtf8From surrogatepass 0 0 0 bs).map (Fin.ofNat _ n :: ·)
      else if n < 0xC0 then none
      else if n < 0xE0 then decodeUtf8From surrogatepass 1 (n - 0xC0) 0x80 bs
      else if n < 0xF0 then decodeUtf8From surrogatepass 2 (n - 0xE0) 0x800 bs
      else if n < 0xF8 then decodeUtf8From surrogatepass 3 (n - 0xF0) 0x10000 bs
      else none
  | more + 1, n, least, b :: bs =>
      if b.toNat / 0x40 = 2 then
        let n := 0x40 * n + b.toNat % 0x40
        if more ≠ 0 then decodeUtf8From surrogatepass more n least bs
        else if utf8Ok surrogatepass least n then
          (decodeUtf8From surrogatepass 0 0 0 bs).map (Fin.ofNat _ n :: ·)
        else none
      else none

/-- `s.decode("utf-8")`, with the handler `strict` or `surrogatepass`; `none` is the
`UnicodeDecodeError`. -/
def decodeUtf8 (surrogatepass : Bool) (s : Bytes) : Option PyStr :=
  decodeUtf8From surrogatepass 0 0 0 s

/-- ASCII text stands for itself. -/
lemma decodeUtf8_of_decodeAscii {surrogatepass : Bool} {b : Bytes} {s : PyStr}
    (h : decodeAscii b = some s) : decodeUtf8 surrogatepass b = some s := by
  induction b generalizing s with
  | nil => simpa [decodeAscii, decodeUtf8, decodeUtf8From] using h
  | cons x bs ih =>
    rw [decodeAscii] at h
    split at h
    swap
    · cases h
    rename_i hx
    obtain ⟨cs, hcs, rfl⟩ := Option.map_eq_some_iff.1 h
    have hrest := ih hcs
    rw [decodeUtf8] at hrest
    rw [decodeUtf8, decodeUtf8From]
    simp only [hx, if_true, hrest, Option.map_some, Option.some.injEq, List.cons.injEq, and_true]
    ext
    rw [Fin.val_ofNat]
    exact Nat.mod_eq_of_lt (by omega)

end Bytes

namespace PyStr

open PyChar

/-- The bytes of a character, by the size of its code point. -/
lemma encodeChar_cases {c : PyChar} {b : Bytes} (h : encodeChar c = some b) :
    isSurrogate c = false ∧
      (c.val < 0x80 ∧ b = [c.val.toUInt8] ∨
        0x80 ≤ c.val ∧ c.val < 0x800 ∧
          b = [(0xC0 + c.val / 0x40).toUInt8, (0x80 + c.val % 0x40).toUInt8] ∨
        0x800 ≤ c.val ∧ c.val < 0x10000 ∧
          b = [(0xE0 + c.val / 0x1000).toUInt8, (0x80 + c.val / 0x40 % 0x40).toUInt8,
            (0x80 + c.val % 0x40).toUInt8] ∨
        0x10000 ≤ c.val ∧
          b = [(0xF0 + c.val / 0x40000).toUInt8, (0x80 + c.val / 0x1000 % 0x40).toUInt8,
            (0x80 + c.val / 0x40 % 0x40).toUInt8, (0x80 + c.val % 0x40).toUInt8]) := by
  rw [encodeChar] at h
  split at h
  · cases h
  rename_i hs
  refine ⟨by simpa using hs, ?_⟩
  split at h
  · rename_i h1
    exact .inl ⟨h1, (Option.some.inj h).symm⟩
  rename_i h1
  split at h
  · rename_i h2
    exact .inr (.inl ⟨by omega, h2, (Option.some.inj h).symm⟩)
  rename_i h2
  split at h
  · rename_i h3
    exact .inr (.inr (.inl ⟨by omega, h3, (Option.some.inj h).symm⟩))
  · exact .inr (.inr (.inr ⟨by omega, (Option.some.inj h).symm⟩))

lemma encodeChar_ne_nil {c : PyChar} {b : Bytes} (h : encodeChar c = some b) : b ≠ [] := by
  obtain ⟨-, ⟨-, rfl⟩ | ⟨-, -, rfl⟩ | ⟨-, -, rfl⟩ | ⟨-, rfl⟩⟩ := encodeChar_cases h <;> simp

/-- The bytes of a character tell it from every later one, whatever follows. -/
lemma encodeChar_lt {c d : PyChar} (hcd : c < d) {x y : Bytes} (hx : encodeChar c = some x)
    (hy : encodeChar d = some y) (u v : Bytes) : x ++ u < y ++ v := by
  have hval : c.val < d.val := hcd
  have hlast := d.isLt
  obtain ⟨-, hx⟩ := encodeChar_cases hx
  obtain ⟨-, hy⟩ := encodeChar_cases hy
  -- the first byte tells two sizes apart; within one size the digits to base 64 come in order
  rcases hx with ⟨h1, rfl⟩ | ⟨h0, h1, rfl⟩ | ⟨h0, h1, rfl⟩ | ⟨h0, rfl⟩ <;>
    rcases hy with ⟨h3, rfl⟩ | ⟨h2, h3, rfl⟩ | ⟨h2, h3, rfl⟩ | ⟨h2, rfl⟩ <;>
    simp (disch := omega) only [List.cons_append, List.nil_append, List.cons_lt_cons_iff,
      UInt8.lt_iff_toNat_lt, ← UInt8.toNat_inj, toNat_toUInt8] <;>
    omega

/-- The bytes of a text are those of its first character and of the others. -/
lemma encode_cons {c : PyChar} {s : PyStr} {b : Bytes} (h : encode (c :: s) = some b) :
    ∃ x y, encodeChar c = some x ∧ s.encode = some y ∧ b = x ++ y := by
  rw [encode] at h
  obtain ⟨x, hx, h⟩ := Option.bind_eq_some_iff.1 h
  obtain ⟨y, hy, h⟩ := Option.bind_eq_some_iff.1 h
  exact ⟨x, y, hx, hy, (Option.some.inj h).symm⟩

/-- UTF-8 keeps the order of texts. -/
lemma encode_lt {s t : PyStr} (hst : s < t) {x y : Bytes} (hx : s.encode = some x)
    (hy : t.encode = some y) : x < y := by
  induction s generalizing t x y with
  | nil =>
    cases hx
    cases t with
    | nil => exact absurd hst (List.lt_irrefl _)
    | cons d t =>
      obtain ⟨b, -, hb, -, rfl⟩ := encode_cons hy
      obtain ⟨a, as, rfl⟩ := List.exists_cons_of_ne_nil (encodeChar_ne_nil hb)
      exact List.nil_lt_cons a _
  | cons c s ih =>
    cases t with
    | nil => exact absurd hst (List.not_lt_nil _)
    | cons d t =>
      obtain ⟨a, u, ha, hu, rfl⟩ := encode_cons hx
      obtain ⟨b, v, hb, hv, rfl⟩ := encode_cons hy
      rcases List.cons_lt_cons_iff.1 hst with hcd | ⟨rfl, hrest⟩
      · exact encodeChar_lt hcd ha hb u v
      · obtain rfl : a = b := Option.some.inj (ha.symm.trans hb)
        exact List.append_left_lt (ih hrest hu hv)

end PyStr

namespace Bytes

open PyStr

variable {p : Bool} {n least k : ℕ}

/-- A byte within a character brings six bits. -/
lemma decodeUtf8From_within (hk : k < 0x40) (m : ℕ) (bs : Bytes) :
    decodeUtf8From p (m + 2) n least ((0x80 + k).toUInt8 :: bs) =
      decodeUtf8From p (m + 1) (0x40 * n + k) least bs := by
  have hbyte : (0x80 + k).toUInt8.toNat = 0x80 + k := toNat_toUInt8 (by omega)
  have hsix : (0x80 + k) % 0x40 = k := by omega
  rw [decodeUtf8From, hbyte, if_pos (by omega), hsix, if_pos (Nat.succ_ne_zero m)]

/-- The last byte of a character. -/
lemma decodeUtf8From_last (hk : k < 0x40) (hok : utf8Ok p least (0x40 * n + k)) (bs : Bytes) :
    decodeUtf8From p 1 n least ((0x80 + k).toUInt8 :: bs) =
      (decodeUtf8From p 0 0 0 bs).map (Fin.ofNat _ (0x40 * n + k) :: ·) := by
  have hbyte : (0x80 + k).toUInt8.toNat = 0x80 + k := toNat_toUInt8 (by omega)
  have hsix : (0x80 + k) % 0x40 = k := by omega
  rw [decodeUtf8From, hbyte, if_pos (by omega), hsix, if_neg (by simp), if_pos hok]

/-- A character that was encoded is read back. -/
lemma decodeUtf8From_encodeChar {c : PyChar} {b : Bytes} (h : encodeChar c = some b)
    (rest : Bytes) :
    decodeUtf8From p 0 0 0 (b ++ rest) = (decodeUtf8From p 0 0 0 rest).map (c :: ·) := by
  have hlast := c.isLt
  obtain ⟨hs, h⟩ := encodeChar_cases h
  have hchar : Fin.ofNat 0x110000 c.val = c := Fin.ofNat_val_eq_self c
  have hsurrogate : ¬(0xD800 ≤ c.val ∧ c.val ≤ 0xDFFF) := by
    simpa [PyChar.isSurrogate] using hs
  rcases h with ⟨h1, rfl⟩ | ⟨h0, h1, rfl⟩ | ⟨h0, h1, rfl⟩ | ⟨h0, rfl⟩
  · rw [List.singleton_append, decodeUtf8From, toNat_toUInt8 (by omega), if_pos h1, hchar]
  · have hbits : 0x40 * (c.val / 0x40) + c.val % 0x40 = c.val := by omega
    rw [List.cons_append, decodeUtf8From, toNat_toUInt8 (by omega), if_neg (by omega),
      if_neg (by omega), if_pos (by omega), Nat.add_sub_cancel_left, List.singleton_append,
      decodeUtf8From_last (by omega) (by rw [hbits]; exact ⟨h0, hlast, .inr hsurrogate⟩), hbits,
      hchar]
  · have hbits : 0x40 * (0x40 * (c.val / 0x1000) + c.val / 0x40 % 0x40) + c.val % 0x40 = c.val := by
      omega
    rw [List.cons_append, decodeUtf8From, toNat_toUInt8 (by omega), if_neg (by omega),
      if_neg (by omega), if_neg (by omega), if_pos (by omega), Nat.add_sub_cancel_left,
      List.cons_append, decodeUtf8From_within (by omega), List.singleton_append,
      decodeUtf8From_last (by omega) (by rw [hbits]; exact ⟨h0, hlast, .inr hsurrogate⟩), hbits,
      hchar]
  · have hbits : 0x40 * (0x40 * (0x40 * (c.val / 0x40000) + c.val / 0x1000 % 0x40) +
        c.val / 0x40 % 0x40) + c.val % 0x40 = c.val := by
      omega
    rw [List.cons_append, decodeUtf8From, toNat_toUInt8 (by omega), if_neg (by omega),
      if_neg (by omega), if_neg (by omega), if_neg (by omega), if_pos (by omega),
      Nat.add_sub_cancel_left, List.cons_append, decodeUtf8From_within (by omega),
      List.cons_append, decodeUtf8From_within (by omega), List.singleton_append,
      decodeUtf8From_last (by omega) (by rw [hbits]; exact ⟨h0, hlast, .inr hsurrogate⟩), hbits,
      hchar]

/-- A text that was encoded is read back. -/
lemma decodeUtf8_encode {s : PyStr} {b : Bytes} (h : s.encode = some b) :
    decodeUtf8 p b = some s := by
  induction s generalizing b with
  | nil =>
    cases h
    rfl
  | cons c s ih =>
    obtain ⟨x, y, hx, hy, rfl⟩ := encode_cons h
    rw [decodeUtf8, decodeUtf8From_encodeChar hx, ← decodeUtf8, ih hy, Option.map_some]

end Bytes

end MailGate
