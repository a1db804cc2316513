import EfiLoader.Bytes

/-!
Facts about byte strings: windows of a string, stores that are next to each other or read back,
little-endian numbers in parts, and the UTF-8 encoding of a text put together of others.
-/

namespace EfiLoader.Bytes

theorem slice_slice (bytes : Bytes) {offset count i width : Nat} (inside : i + width ≤ count) :
    (bytes.slice offset count).slice i width = bytes.slice (offset + i) width := by
  have short : min width (count - i) = width := by omega
  rw [slice, slice, slice, List.drop_take, List.take_take, List.drop_drop, short]

theorem slice_take (bytes : Bytes) {size offset count : Nat} (inside : offset + count ≤ size) :
    slice (bytes.take size) offset count = bytes.slice offset count := by
  have short : min count (size - offset) = count := by omega
  rw [slice, slice, List.drop_take, List.take_take, short]

theorem length_slice_of_le {bytes : Bytes} {offset count : Nat}
    (inside : offset + count ≤ bytes.length) : (bytes.slice offset count).length = count := by
  rw [slice, List.length_take, List.length_drop]
  omega

theorem slice_congr {bytes others : Bytes} {offset count : Nat}
    (same : ∀ i, offset ≤ i → i < offset + count → bytes[i]? = others[i]?) :
    bytes.slice offset count = others.slice offset count := by
  apply List.ext_getElem?
  intro i
  rw [slice, slice, List.getElem?_take, List.getElem?_take, List.getElem?_drop,
    List.getElem?_drop]
  split
  · rw [same _ (by omega) (by omega)]
  · rfl

/-- Two stores next to each other are one. -/
theorem overlay_append {buffer first second : Bytes} {offset length : Nat}
    (adjacent : first.length = length) :
    (buffer.overlay offset first).overlay (offset + length) second =
      buffer.overlay offset (first ++ second) := by
  subst adjacent
  apply List.ext_getElem?
  intro i
  simp only [getElem?_overlay, length_overlay, List.length_append, List.getElem?_append]
  grind

theorem slice_overlay {buffer data : Bytes} {offset : Nat}
    (fits : offset + data.length ≤ buffer.length) :
    (buffer.overlay offset data).slice offset data.length = data := by
  apply List.ext_getElem?
  intro i
  rw [slice, List.getElem?_take, List.getElem?_drop, getElem?_overlay]
  grind

/-- A store at the start leaves what lies behind it. -/
theorem overlay_zero {buffer data : Bytes} (fits : data.length ≤ buffer.length) :
    buffer.overlay 0 data = data ++ buffer.drop data.length := by
  rw [overlay, List.take_zero, List.nil_append, Nat.sub_zero, Nat.zero_add,
    List.take_of_length_le fits]

theorem overlay_whole {buffer data : Bytes} (length : buffer.length = data.length) :
    buffer.overlay 0 data = data := by
  rw [overlay_zero (Nat.le_of_eq length.symm), List.drop_eq_nil_of_le (Nat.le_of_eq length),
    List.append_nil]

theorem ofNatLE_add (width more n : Nat) :
    ofNatLE (width + more) n = ofNatLE width n ++ ofNatLE more (n / Nat.pow 256 width) := by
  change _ = _ ++ ofNatLE more (n / 256 ^ width)
  induction width generalizing n with
  | zero => simp [ofNatLE]
  | succ width ih =>
    rw [Nat.succ_add, ofNatLE, ofNatLE, ih, Nat.div_div_eq_div_mul, Nat.pow_succ,
      Nat.mul_comm (256 ^ width), List.cons_append]

theorem toNatLE_ofNatLE_of_lt {width n : Nat} (bounded : n < Nat.pow 256 width) :
    toNatLE (ofNatLE width n) = n := by
  rw [toNatLE_ofNatLE, Nat.mod_eq_of_lt bounded]

theorem utf8_append (s t : String) : utf8 (s ++ t) = utf8 s ++ utf8 t := by
  simp [utf8]

theorem utf8_join (pieces : List String) : utf8 (String.join pieces) = pieces.flatMap utf8 := by
  induction pieces with
  | nil => rfl
  | cons piece pieces ih => rw [String.join_cons, utf8_append, List.flatMap_cons, ih]

@[simp] theorem length_utf8_append (s t : String) :
    (utf8 (s ++ t)).length = (utf8 s).length + (utf8 t).length := by
  simp only [utf8, String.toList_append, List.flatMap_append, List.length_append]

theorem length_utf8_ofList {cs : List Char} (narrow : ∀ c ∈ cs, c.utf8Size = 1) :
    (utf8 (String.ofList cs)).length = cs.length := by
  rw [utf8, String.toList_ofList]
  induction cs with
  | nil => rfl
  | cons c rest ih =>
    rw [List.flatMap_cons, List.length_append, String.length_utf8EncodeChar,
      narrow c List.mem_cons_self, ih fun d hd => narrow d (List.mem_cons_of_mem c hd),
      List.length_cons, Nat.add_comm]

end EfiLoader.Bytes
