import MailGate.Python.Json.RoundTrip
import MailGate.Python.Utf8

/-!
# JSON in bytes

`json.loads` of a bytes object finds out in which Unicode encoding it is written.
-/

namespace MailGate

namespace Json

/-- The encodings that `json.detect_encoding` names. -/
inductive Encoding where
  | utf32
  | utf16
  | utf8Sig
  | utf16be
  | utf32be
  | utf16le
  | utf32le
  | utf8
deriving DecidableEq, Repr

/-- `json.detect_encoding`. -/
def detectEncoding (b : Bytes) : Encoding :=
  if Bytes.startswith b [0x00, 0x00, 0xFE, 0xFF] || Bytes.startswith b [0xFF, 0xFE, 0x00, 0x00] then
    .utf32
  else if Bytes.startswith b [0xFE, 0xFF] || Bytes.startswith b [0xFF, 0xFE] then .utf16
  else if Bytes.startswith b [0xEF, 0xBB, 0xBF] then .utf8Sig
  else
    match b with
    | x :: y :: z :: w :: _ =>
        if x = 0 then if y = 0 then .utf32be else .utf16be
        else if y = 0 then if z = 0 ∧ w = 0 then .utf32le else .utf16le
        else .utf8
    | [x, y] => if x = 0 then .utf16be else if y = 0 then .utf16le else .utf8
    | _ => .utf8

/-- The decoders of UTF-16 and UTF-32 with the handler `surrogatepass`. -/
abbrev WideCodec : Type := Encoding → Bytes → Option PyStr

/-- `b.decode(detect_encoding(b), "surrogatepass")`; `none` is the `UnicodeDecodeError`. -/
def decodeBytes (wide : WideCodec) (b : Bytes) : Option PyStr :=
  match detectEncoding b with
  | .utf8 => Bytes.decodeUtf8 true b
  | .utf8Sig => Bytes.decodeUtf8 true (b.drop 3)
  | encoding => wide encoding b

variable {F : Type} (floats : Floats F)

/-- `json.loads(b)` of a bytes object. -/
def loadsBytes (wide : WideCodec) (b : Bytes) : Except LoadExn (Json F) :=
  match decodeBytes wide b with
  | none => .error .unicode
  | some s => loads floats dictHook s

/-- Bytes that are ASCII and not zero are read as UTF-8. -/
lemma detectEncoding_ascii {b : Bytes} (h : ∀ x ∈ b, x ≠ 0 ∧ x.toNat < 0x80) :
    detectEncoding b = .utf8 := by
  have hbom : ∀ w : Bytes, (∃ x ∈ w, x = 0 ∨ 0x80 ≤ x.toNat) → Bytes.startswith b w = false := by
    rintro w ⟨x, hx, hbad⟩
    rw [Bytes.startswith, Bool.eq_false_iff]
    intro hhead
    obtain ⟨hne, hlt⟩ := h x ((List.isPrefixOf_iff_prefix.1 hhead).subset hx)
    rcases hbad with hzero | hge
    · exact hne hzero
    · omega
  unfold detectEncoding
  rw [hbom _ ⟨0x00, by simp⟩, hbom _ ⟨0x00, by simp⟩, hbom _ ⟨0xFE, by simp⟩,
    hbom _ ⟨0xFF, by simp⟩, hbom _ ⟨0xEF, by simp⟩]
  match b, h with
  | [], _ => rfl
  | [x], _ => rfl
  | [x, y], h =>
    have hx := (h x (by simp)).1
    have hy := (h y (by simp)).1
    simp [hx, hy]
  | [x, y, z], _ => rfl
  | x :: y :: z :: w :: bs, h =>
    have hx := (h x (by simp)).1
    have hy := (h y (by simp)).1
    simp [hx, hy]

/-- A document that was written is read from the bytes of its text. -/
theorem loadsBytes_render (wide : WideCodec) {v : Json F} (hv : v.Ok floats)
    {b : Bytes} (hb : PyStr.encodeAscii (render floats v) = some b) :
    loadsBytes floats wide b = .ok v := by
  have hascii : ∀ x ∈ b, x ≠ 0 ∧ x.toNat < 0x80 := by
    intro x hx
    obtain ⟨c, hc, hval⟩ := PyStr.mem_of_mem_encodeAscii hb hx
    obtain ⟨hge, hlt⟩ := render_printable v hv c hc
    refine ⟨?_, by omega⟩
    rintro rfl
    have hzero : c.val = 0 := hval
    omega
  have hdecode : decodeBytes wide b = some (render floats v) := by
    rw [decodeBytes, detectEncoding_ascii hascii]
    exact Bytes.decodeUtf8_of_decodeAscii (PyStr.decodeAscii_of_encodeAscii hb)
  rw [loadsBytes, hdecode]
  exact loads_render dictHook_makesDict hv

end Json

end MailGate
