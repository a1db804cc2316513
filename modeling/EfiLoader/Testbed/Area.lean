import EfiLoader.Kernel.Segment
import EfiLoader.Screen.Mode

/-!
Pieces of memory at fixed addresses.
-/

namespace EfiLoader.Testbed

structure Area where
  base : Nat
  bytes : Bytes
  deriving DecidableEq, Repr

namespace Area

def limit (area : Area) : Nat := area.base + area.bytes.length

/-- Whether pages from `first` up to `last` can be granted: they are whole pages of the area, and
meet no taken range. -/
def isFree (area : Area) (taken : List (Nat × Nat)) (first last : Nat) : Bool :=
  first % Kernel.pageSize = 0 ∧ area.base ≤ first ∧ last ≤ area.limit
    ∧ ¬ taken.any fun (start, stop) => first < stop && start < last

/-- Stores what falls into the area. -/
def store (area : Area) (address : Nat) (data : Bytes) : Area :=
  if address < area.base then
    { area with bytes := area.bytes.overlay 0 (data.drop (area.base - address)) }
  else { area with bytes := area.bytes.overlay (address - area.base) data }

/-- Sets the bytes that fall into the area. -/
def fill (area : Area) (address count : Nat) (value : UInt8) : Area :=
  let first := max address area.base
  let last := min (address + count) area.limit
  area.store first (List.replicate (last - first) value)

/-- The pages around a mode's frame buffer, where test memory can be had for them. -/
def ofMode? (mode : Screen.Mode) : Option Area :=
  let first := mode.base.toNat / Kernel.pageSize * Kernel.pageSize
  let pages := (mode.base.toNat + mode.size.toNat + (Kernel.pageSize - 1)) / Kernel.pageSize
  let last := pages * Kernel.pageSize
  if 0 < mode.size ∧ mode.size ≤ 0x100000 ∧ 0x10000000 ≤ first ∧ last ≤ 0x100000000000 then
    some ⟨first, List.replicate (last - first) 0x11⟩
  else none

end Area

end EfiLoader.Testbed
