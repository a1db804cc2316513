import EfiLoader.Proofs.MemoryMap.Lifetime

/-!
Descriptors in memory: what is laid out at a stride that has room for a descriptor is read back
unchanged (`Descriptor.read_layOut`).
-/

namespace EfiLoader

namespace MemoryMap.Descriptor

theorem read_toBytes (d : Descriptor) : read d.toBytes 0 = d := by
  have type : d.toBytes.slice 0 4 = Bytes.ofNatLE 4 d.type.toNat := rfl
  have start : d.toBytes.slice 8 8 = Bytes.ofNatLE 8 d.physicalStart.toNat := rfl
  have virtual : d.toBytes.slice 16 8 = Bytes.ofNatLE 8 d.virtualStart.toNat := rfl
  have pages : d.toBytes.slice 24 8 = Bytes.ofNatLE 8 d.pageCount.toNat := rfl
  have attributes : d.toBytes.slice 32 8 = Bytes.ofNatLE 8 d.attributes.toNat := rfl
  have half : Bytes.toNatLE (Bytes.ofNatLE 4 d.type.toNat) = d.type.toNat :=
    Bytes.toNatLE_ofNatLE_of_lt d.type.toNat_lt
  have word (n : UInt64) : Bytes.toNatLE (Bytes.ofNatLE 8 n.toNat) = n.toNat :=
    Bytes.toNatLE_ofNatLE_of_lt n.toNat_lt
  simp only [read, Bytes.numberAt, Nat.zero_add, type, start, virtual, pages, attributes, half,
    word, UInt32.ofNat_toNat, UInt64.ofNat_toNat]

/-- Nothing is stored before the place of the first descriptor. -/
theorem getElem?_layOut_of_lt {stride offset i : Nat} {ds : List Descriptor} {buffer : Bytes}
    (before : i < offset) : (layOut stride offset ds buffer)[i]? = buffer[i]? := by
  induction ds generalizing offset buffer with
  | nil => rfl
  | cons d rest ih =>
    rw [layOut, ih (by omega), Bytes.getElem?_overlay, if_neg (by omega)]

theorem read_layOut {stride offset index : Nat} {ds : List Descriptor} {d : Descriptor}
    {buffer : Bytes} (wide : size ≤ stride) (found : ds[index]? = some d)
    (room : offset + index * stride + size ≤ buffer.length) :
    read (layOut stride offset ds buffer) (offset + index * stride) = d := by
  induction ds generalizing offset index buffer with
  | nil => cases found
  | cons head rest ih =>
    rw [layOut, List.take_of_length_le (by rw [length_toBytes]; exact wide)]
    cases index with
    | zero =>
      cases found
      rw [Nat.zero_mul, Nat.add_zero] at room ⊢
      have kept : (layOut stride (offset + stride) rest (buffer.overlay offset d.toBytes)).slice
          offset size = (buffer.overlay offset d.toBytes).slice offset size :=
        Bytes.slice_congr fun i _ inside => getElem?_layOut_of_lt (by omega)
      have fits : offset + d.toBytes.length ≤ buffer.length := by rw [length_toBytes]; exact room
      have whole := Bytes.slice_overlay fits
      rw [length_toBytes] at whole
      rw [← read_slice, kept, whole, read_toBytes]
    | succ index =>
      rw [Nat.succ_mul, Nat.add_comm (index * stride), ← Nat.add_assoc] at room ⊢
      exact ih found (by rw [Bytes.length_overlay]; exact room)

end MemoryMap.Descriptor

end EfiLoader
