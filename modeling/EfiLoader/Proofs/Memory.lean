import EfiLoader.Proofs.Attempts

/-!
Physical memory under a history. Only stores and fills change it; the firmware's own memory, pool
blocks and the buffer for the memory map among them, lies elsewhere.
-/

namespace EfiLoader

/-- The request stores to that address. -/
def Services.Request.Writes : Services.Request → Nat → Prop
  | .store address data, a => address.toNat ≤ a ∧ a < address.toNat + data.length
  | .fill address count _, a => address.toNat ≤ a ∧ a < address.toNat + count.toNat
  | _, _ => False

abbrev Memory := Nat → UInt8

namespace Memory

def store (memory : Memory) (address : Nat) (data : Bytes) : Memory := fun a =>
  if address ≤ a then (data[a - address]?).getD (memory a) else memory a

def apply (memory : Memory) : Services.Request → Memory
  | .store address data => memory.store address.toNat data
  | .fill address count value => memory.store address.toNat (List.replicate count.toNat value)
  | _ => memory

/-- What the exchanges of a history leave of `memory`. -/
def after (memory : Memory) (h : List (Exchange Services)) : Memory :=
  h.foldl (fun memory e => memory.apply e.request) memory

@[simp] theorem after_nil (memory : Memory) : memory.after [] = memory := rfl

@[simp] theorem after_cons (memory : Memory) (e : Exchange Services)
    (h : List (Exchange Services)) : memory.after (e :: h) = (memory.apply e.request).after h := rfl

@[simp] theorem after_append (memory : Memory) (h h' : List (Exchange Services)) :
    memory.after (h ++ h') = (memory.after h).after h' := List.foldl_append

theorem store_outside {memory : Memory} {address : Nat} {data : Bytes} {a : Nat}
    (outside : a < address ∨ address + data.length ≤ a) :
    memory.store address data a = memory a := by
  unfold store
  split
  · rw [List.getElem?_eq_none (by omega)]
    rfl
  · rfl

theorem store_inside {memory : Memory} {address : Nat} {data : Bytes} {a : Nat}
    (first : address ≤ a) (last : a < address + data.length) :
    data[a - address]? = some (memory.store address data a) := by
  unfold store
  rw [if_pos first, List.getElem?_eq_getElem (by omega)]
  rfl

theorem apply_fill {memory : Memory} {address count : UInt64} {value : UInt8} {a : Nat}
    (writes : (Services.Request.fill address count value).Writes a) :
    memory.apply (.fill address count value) a = value := by
  obtain ⟨first, last⟩ := writes
  have inside : a < address.toNat + (List.replicate count.toNat value).length := by
    rwa [List.length_replicate]
  have filled := @store_inside memory _ _ _ first inside
  rw [List.getElem?_replicate, if_pos (by omega)] at filled
  exact (Option.some.inj filled).symm

theorem apply_of_not_writes {memory : Memory} {request : Services.Request} {a : Nat}
    (misses : ¬ request.Writes a) : memory.apply request a = memory a := by
  cases request with
  | store address data =>
    rw [Services.Request.Writes] at misses
    exact store_outside (by omega)
  | fill address count value =>
    rw [Services.Request.Writes] at misses
    exact store_outside (by rw [List.length_replicate]; omega)
  | _ => rfl

theorem after_of_not_writes {memory : Memory} {h : List (Exchange Services)} {a : Nat}
    (misses : ∀ e ∈ h, ¬ e.request.Writes a) : memory.after h a = memory a := by
  induction h generalizing memory with
  | nil => rfl
  | cons e rest ih =>
    rw [after_cons, ih fun e he => misses e (List.mem_cons_of_mem _ he)]
    exact apply_of_not_writes (misses e List.mem_cons_self)

end Memory

end EfiLoader
