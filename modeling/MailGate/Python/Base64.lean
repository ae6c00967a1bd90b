import MailGate.Python.Bytes

/-!
# Base64

`base64.b64encode` as text and `base64.b64decode` with `validate=True`, which accepts groups of
four digits with the padding at the end and nothing else.
-/

namespace MailGate

namespace Base64

/-- `BASE64_PAD`. -/
def pad : PyChar := ofChar '='

/-- `table_b2a_base64`. -/
def digit (n : ℕ) : PyChar :=
  (py "ABCDEFGHIJKLMNOPQRSTUVWXYZabcdefghijklmnopqrstuvwxyz0123456789+/").getD n pad

/-- `table_a2b_base64`. -/
def value (c : PyChar) : Option ℕ :=
  let n := c.val
  if 0x41 ≤ n ∧ n ≤ 0x5A then some (n - 0x41)
  else if 0x61 ≤ n ∧ n ≤ 0x7A then some (n - 0x61 + 26)
  else if 0x30 ≤ n ∧ n ≤ 0x39 then some (n - 0x30 + 52)
  else if n = 0x2B then some 62
  else if n = 0x2F then some 63
  else none

/-- `base64.b64encode(b).decode("ascii")`. -/
def b64encode : Bytes → PyStr
  | [] => []
  | [x] => [digit (x.toNat / 4), digit (x.toNat % 4 * 16), pad, pad]
  | [x, y] =>
      [digit (x.toNat / 4), digit (x.toNat % 4 * 16 + y.toNat / 16), digit (y.toNat % 16 * 4), pad]
  | x :: y :: z :: bs =>
      digit (x.toNat / 4) :: digit (x.toNat % 4 * 16 + y.toNat / 16) ::
        digit (y.toNat % 16 * 4 + z.toNat / 64) :: digit (z.toNat % 64) :: b64encode bs

/-- The bytes of a group, of which the first digits carry `n`. -/
def group (a b c d : ℕ) (n : ℕ) : Bytes :=
  [(a * 4 + b / 16).toUInt8, (b % 16 * 16 + c / 4).toUInt8, (c % 4 * 64 + d).toUInt8].take n

/-- `base64.b64decode(s, validate=True)`; `none` is the `ValueError`. -/
def b64decode : PyStr → Option Bytes
  | [] => some []
  | a :: b :: c :: d :: s =>
      if s = [] ∧ c = pad ∧ d = pad then do
        return group (← value a) (← value b) 0 0 1
      else if s = [] ∧ d = pad then do
        return group (← value a) (← value b) (← value c) 0 2
      else do
        let bs := group (← value a) (← value b) (← value c) (← value d) 3
        return bs ++ (← b64decode s)
  | _ => none

/-! ## What is encoded can be decoded -/

lemma value_digit {n : ℕ} (h : n < 64) : value (digit n) = some n := by
  revert n
  decide +kernel

lemma digit_ne_pad {n : ℕ} (h : n < 64) : digit n ≠ pad := by
  intro heq
  have hvalue := value_digit h
  rw [heq] at hvalue
  cases hvalue

/-- The bytes of a group are those that its digits were made of. -/
lemma group_digits (x y z : UInt8) (n : ℕ) :
    group (x.toNat / 4) (x.toNat % 4 * 16 + y.toNat / 16) (y.toNat % 16 * 4 + z.toNat / 64)
      (z.toNat % 64) n = [x, y, z].take n := by
  have hx := x.toNat_lt
  have hy := y.toNat_lt
  have hz := z.toNat_lt
  have hfirst : x.toNat / 4 * 4 + (x.toNat % 4 * 16 + y.toNat / 16) / 16 = x.toNat := by omega
  have hsecond : (x.toNat % 4 * 16 + y.toNat / 16) % 16 * 16 +
      (y.toNat % 16 * 4 + z.toNat / 64) / 4 = y.toNat := by omega
  have hthird : (y.toNat % 16 * 4 + z.toNat / 64) % 4 * 64 + z.toNat % 64 = z.toNat := by omega
  rw [group, hfirst, hsecond, hthird]
  simp

theorem b64decode_b64encode (b : Bytes) : b64decode (b64encode b) = some b := by
  induction b using b64encode.induct with
  | case1 => rfl
  | case2 x =>
    have hx := x.toNat_lt
    have hgroup := group_digits x 0 0 1
    simp only [UInt8.toNat_zero, Nat.zero_div, Nat.add_zero, Nat.zero_mod, Nat.zero_mul] at hgroup
    rw [b64encode, b64decode, if_pos ⟨rfl, rfl, rfl⟩, value_digit (by omega),
      value_digit (by omega)]
    exact congrArg some hgroup
  | case3 x y =>
    have hx := x.toNat_lt
    have hy := y.toNat_lt
    have hgroup := group_digits x y 0 2
    simp only [UInt8.toNat_zero, Nat.zero_div, Nat.add_zero, Nat.zero_mod] at hgroup
    have hpad : ¬(([] : PyStr) = [] ∧ digit (y.toNat % 16 * 4) = pad ∧ pad = pad) :=
      fun h => digit_ne_pad (by omega) h.2.1
    rw [b64encode, b64decode, if_neg hpad, if_pos ⟨rfl, rfl⟩, value_digit (by omega),
      value_digit (by omega), value_digit (by omega)]
    exact congrArg some hgroup
  | case4 x y z bs ih =>
    have hx := x.toNat_lt
    have hy := y.toNat_lt
    have hz := z.toNat_lt
    have hpad : digit (z.toNat % 64) ≠ pad := digit_ne_pad (by omega)
    rw [b64encode, b64decode, if_neg (fun h => hpad h.2.2), if_neg (fun h => hpad h.2),
      value_digit (by omega), value_digit (by omega), value_digit (by omega),
      value_digit (by omega), ih]
    exact congrArg (fun g => some (g ++ bs)) (group_digits x y z 3)

lemma b64encode_length (b : Bytes) : (b64encode b).length = 4 * ((b.length + 2) / 3) := by
  induction b using b64encode.induct with
  | case1 => rfl
  | case2 x => simp [b64encode]
  | case3 x y => simp [b64encode]
  | case4 x y z bs ih =>
    simp only [b64encode, List.length_cons, ih]
    omega

lemma b64encode_chars (b : Bytes) : ∀ c ∈ b64encode b, c = pad ∨ ∃ n < 64, c = digit n := by
  induction b using b64encode.induct with
  | case1 => simp [b64encode]
  | case2 x =>
    have hx := x.toNat_lt
    simp only [b64encode, List.forall_mem_cons]
    refine ⟨.inr ⟨_, ?_, rfl⟩, .inr ⟨_, ?_, rfl⟩, .inl trivial, .inl trivial, by simp⟩
    · omega
    · omega
  | case3 x y =>
    have hx := x.toNat_lt
    have hy := y.toNat_lt
    simp only [b64encode, List.forall_mem_cons]
    refine ⟨.inr ⟨_, ?_, rfl⟩, .inr ⟨_, ?_, rfl⟩, .inr ⟨_, ?_, rfl⟩, .inl trivial, by simp⟩
    · omega
    · omega
    · omega
  | case4 x y z bs ih =>
    have hx := x.toNat_lt
    have hy := y.toNat_lt
    have hz := z.toNat_lt
    simp only [b64encode, List.forall_mem_cons]
    refine ⟨.inr ⟨_, ?_, rfl⟩, .inr ⟨_, ?_, rfl⟩, .inr ⟨_, ?_, rfl⟩, .inr ⟨_, ?_, rfl⟩, ih⟩
    · omega
    · omega
    · omega
    · omega

end Base64

end MailGate
