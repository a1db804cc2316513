/-!
Byte strings: storing into a buffer, little-endian numbers, UTF-8. Main statements: a store never
changes a buffer's length, and says which byte lies at each place afterwards.
-/

namespace EfiLoader

abbrev Bytes := List UInt8

namespace Bytes

/-- The UTF-8 encoding of a text. -/
def utf8 (text : String) : Bytes := text.toList.flatMap String.utf8EncodeChar

theorem utf8_inj {s t : String} : utf8 s = utf8 t ↔ s = t := by
  constructor
  · intro same
    rw [← String.toByteArray_inj, ← String.utf8Encode_toList, ← String.utf8Encode_toList]
    exact congrArg List.toByteArray same
  · exact congrArg _

/-- At most `count` bytes from `offset` on. -/
def slice (bytes : Bytes) (offset count : Nat) : Bytes := (bytes.drop offset).take count

/-- `data` stored from `offset` on; what would lie past the buffer's end is dropped. -/
def overlay (buffer : Bytes) (offset : Nat) (data : Bytes) : Bytes :=
  buffer.take offset ++ data.take (buffer.length - offset) ++ buffer.drop (offset + data.length)

@[simp] theorem length_overlay (buffer : Bytes) (offset : Nat) (data : Bytes) :
    (buffer.overlay offset data).length = buffer.length := by
  simp only [overlay, List.length_append, List.length_take, List.length_drop]
  omega

theorem getElem?_overlay (buffer : Bytes) (offset : Nat) (data : Bytes) (i : Nat) :
    (buffer.overlay offset data)[i]? =
      if offset ≤ i ∧ i < offset + data.length ∧ i < buffer.length then data[i - offset]?
      else buffer[i]? := by
  simp only [overlay, List.getElem?_append, List.length_append, List.length_take,
    List.getElem?_take, List.getElem?_drop]
  split <;> split
  · split <;> grind
  · grind
  · grind
  · grind

/-- The number whose little-endian digits the bytes are. -/
def toNatLE : Bytes → Nat
  | [] => 0
  | b :: rest => b.toNat + 256 * toNatLE rest

/-- The `width` low bytes of a number, least significant first. -/
def ofNatLE : Nat → Nat → Bytes
  | 0, _ => []
  | width + 1, n => UInt8.ofNat n :: ofNatLE width (n / 256)

@[simp] theorem length_ofNatLE (width n : Nat) : (ofNatLE width n).length = width := by
  induction width generalizing n with
  | zero => rfl
  | succ width ih => simp [ofNatLE, ih]

theorem toNatLE_ofNatLE (width n : Nat) : toNatLE (ofNatLE width n) = n % Nat.pow 256 width := by
  change _ = n % 256 ^ width
  induction width generalizing n with
  | zero => simp [ofNatLE, toNatLE, Nat.mod_one]
  | succ width ih =>
    have low : (UInt8.ofNat n).toNat = n % 256 := UInt8.toNat_ofNat'
    rw [ofNatLE, toNatLE, ih, low, Nat.pow_succ, Nat.mul_comm (256 ^ width) 256, Nat.mod_mul]

/-- The little-endian number of `width` bytes at `offset`; bytes past the end count as zero. -/
def numberAt (bytes : Bytes) (width offset : Nat) : Nat := toNatLE (bytes.slice offset width)

end Bytes

end EfiLoader
