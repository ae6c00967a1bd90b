import MailGate.Python.Str

/-!
# Numbers in four bytes

`struct.pack(">I", n)` and `n.to_bytes(4, "big")`, which give the same, and their inverses.  The
other order of the bytes, and several numbers in one call of `struct.pack`.
-/

namespace MailGate

namespace Bytes

/-- `n.to_bytes(4, "big")` of a number below `2 ** 32`. -/
def bigEndian (n : ℕ) : Bytes :=
  [(n / 0x1000000).toUInt8, (n / 0x10000).toUInt8, (n / 0x100).toUInt8, n.toUInt8]

/-- `int.from_bytes(b, "big")`. -/
def fromBigEndian (b : Bytes) : ℕ := b.foldl (fun n x => 0x100 * n + x.toNat) 0

@[simp] lemma bigEndian_length (n : ℕ) : (bigEndian n).length = 4 := rfl

/-- Four bytes hold every number below `2 ** 32`. -/
lemma fromBigEndian_bigEndian {n : ℕ} (h : n < 0x100000000) : fromBigEndian (bigEndian n) = n := by
  simp only [fromBigEndian, bigEndian, List.foldl_cons, List.foldl_nil, Nat.toUInt8,
    UInt8.toNat_ofNat']
  omega

/-- `n.to_bytes(4, "little")` of a number below `2 ** 32`. -/
def littleEndian (n : ℕ) : Bytes := (bigEndian n).reverse

/-- `int.from_bytes(b, "little")`. -/
def fromLittleEndian (b : Bytes) : ℕ := fromBigEndian b.reverse

@[simp] lemma littleEndian_length (n : ℕ) : (littleEndian n).length = 4 := rfl

lemma fromLittleEndian_littleEndian {n : ℕ} (h : n < 0x100000000) :
    fromLittleEndian (littleEndian n) = n := by
  rw [fromLittleEndian, littleEndian, List.reverse_reverse, fromBigEndian_bigEndian h]

/-- `struct.pack("<4I", *words)`, with the number of words in the format; `none` is the
`struct.error` of a word that has no four bytes. -/
def packWords (words : List ℕ) : Option Bytes :=
  if ∀ n ∈ words, n < 0x100000000 then some (words.map littleEndian).flatten else none

end Bytes

end MailGate
