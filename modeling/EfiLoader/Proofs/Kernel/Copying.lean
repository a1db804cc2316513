import EfiLoader.Proofs.Kernel.Placement

/-!
Kernels in buffers of any size, for spans that need not be their own. `place_exact`: a kernel is
placed unless one of its segments oversteps the buffer; then the segments before the first such one
are placed and nothing else. Placing a kernel again changes nothing.
-/

namespace EfiLoader

namespace Memory

/-- A store into a buffer is one into the memory that the buffer stands for. -/
theorem store_overlay (memory : Memory) (address : Nat) {offset : Nat} {buffer data : Bytes}
    (fits : offset + data.length ≤ buffer.length) :
    memory.store address (buffer.overlay offset data) =
      (memory.store address buffer).store (address + offset) data := by
  funext a
  simp only [store, Bytes.getElem?_overlay]
  grind

/-- A buffer of known length is told by the memory that it stands for. -/
theorem store_inj {memory : Memory} {address : Nat} {buffer other : Bytes}
    (length : other.length = buffer.length)
    (same : memory.store address other = memory.store address buffer) : other = buffer := by
  apply List.ext_getElem?
  intro i
  by_cases inside : i < buffer.length
  · have shown := @store_inside memory address buffer (address + i) (by omega) (by omega)
    have otherShown := @store_inside memory address other (address + i) (by omega) (by omega)
    rw [Nat.add_sub_cancel_left] at shown otherShown
    rw [shown, otherShown, same]
  · rw [List.getElem?_eq_none (by omega), List.getElem?_eq_none (by omega)]

end Memory

namespace Kernel

variable {ε : Type}

namespace Segment

variable {file : Bytes} {base : UInt64} {size : Nat} {s : Segment}

/-- The segment does not lie in the `size` bytes of memory from `base` on. -/
def Oversteps (base : UInt64) (size : Nat) (s : Segment) : Prop :=
  s.address < base ∨ size < s.address.toNat - base.toNat + s.memorySize.toNat

instance : Decidable (s.Oversteps base size) := inferInstanceAs (Decidable (_ ∨ _))

theorem store?_of_oversteps (oversteps : s.Oversteps base size) :
    s.store? file base size = none := by
  refine if_neg fun ⟨_, _, above, fits⟩ => ?_
  rcases oversteps with below | past
  · exact UInt64.not_le.mpr below above
  · omega

theorem store?_of_inside (valid : s.Valid file.length) (inside : ¬ s.Oversteps base size) :
    s.store? file base size = some (s.address.toNat - base.toNat, s.contents file) := by
  obtain ⟨above, fits⟩ := not_or.mp inside
  exact if_pos ⟨valid.file, valid.sizes, UInt64.not_lt.mp above, Nat.not_lt.mp fits⟩

end Segment

section Again

variable {file : Bytes} {segments : List Segment} {before after later : Memory}

theorem exists_last_covering {a : Nat} (covered : ∃ s ∈ segments, s.Covers a) :
    ∃ earlier s later, segments = earlier ++ s :: later ∧ s.Covers a ∧
      ∀ t ∈ later, ¬ t.Covers a := by
  induction segments using List.reverseRecOn with
  | nil => simp at covered
  | append_singleton earlier s ih =>
    by_cases covers : s.Covers a
    · exact ⟨earlier, s, [], rfl, covers, nofun⟩
    · obtain ⟨first, t, rest, rfl, covers', last⟩ := ih (by simpa [covers] using covered)
      refine ⟨first, t, rest ++ [s], by simp, covers', ?_⟩
      simpa [or_imp, forall_and, covers] using last

/-- Where a segment covers an address, what was there before makes no difference. -/
theorem PlacesSegments.again (places : PlacesSegments file segments before after)
    (replaces : PlacesSegments file segments after later) : later = after := by
  funext a
  by_cases covered : ∃ s ∈ segments, s.Covers a
  · obtain ⟨earlier, s, rest, split, covers, last⟩ := exists_last_covering covered
    by_cases early : a - s.address.toNat < s.fileSize.toNat
    · have shown := places.fromFile a earlier s rest split covers last early
      have shownAgain := replaces.fromFile a earlier s rest split covers last early
      exact Option.some.inj (shownAgain.symm.trans shown)
    · rw [places.zeroed a earlier s rest split covers last (Nat.not_lt.mp early),
        replaces.zeroed a earlier s rest split covers last (Nat.not_lt.mp early)]
  · exact replaces.uncovered a fun s member covers => covered ⟨s, member, covers⟩

end Again

/-- The buffer `after`, which stands for memory from `base` on, shows the segments, and else what
was in it `before`. -/
structure PlacesInto (file : Bytes) (base : UInt64) (segments : List Segment)
    (before after : Bytes) : Prop where
  length : after.length = before.length
  places : ∀ memory : Memory, PlacesSegments file segments (memory.store base.toNat before)
    (memory.store base.toNat after)

/-- The buffer `after` is what the stores of the segments make of `before`. -/
structure Stores (file : Bytes) (base : UInt64) (segments : List Segment)
    (before after : Bytes) : Prop where
  length : after.length = before.length
  stored : ∀ memory : Memory, memory.store base.toNat after =
    (memory.store base.toNat before).after (segments.map (Segment.stored file base base))

/-- The ways to place segments into a buffer. -/
inductive Copying (file : Bytes) (base : UInt64) (segments : List Segment) (buffer : Bytes) :
    Bytes × Outcome ε Unit → Prop
  | whole {after : Bytes} (inside : ∀ s ∈ segments, ¬ s.Oversteps base buffer.length)
      (stores : Stores file base segments buffer after) :
      Copying file base segments buffer (after, .ok ())
  | cut {after : Bytes} (earlier : List Segment) (s : Segment) (later : List Segment)
      (split : segments = earlier ++ s :: later)
      (inside : ∀ t ∈ earlier, ¬ t.Oversteps base buffer.length)
      (oversteps : s.Oversteps base buffer.length)
      (stores : Stores file base earlier buffer after) :
      Copying file base segments buffer (after, .crash)

namespace Stores

variable {file : Bytes} {base : UInt64} {segments : List Segment} {before after : Bytes}

theorem nil : Stores file base [] before before := ⟨rfl, fun _ => rfl⟩

theorem cons {s : Segment} (valid : s.Valid file.length)
    (inside : ¬ s.Oversteps base before.length)
    (stores : Stores file base segments
      (before.overlay (s.address.toNat - base.toNat) (s.contents file)) after) :
    Stores file base (s :: segments) before after := by
  obtain ⟨above, fits⟩ := not_or.mp inside
  have first := UInt64.le_iff_toNat_le.mp (UInt64.not_lt.mp above)
  constructor
  · rw [stores.length, Bytes.length_overlay]
  · intro memory
    rw [stores.stored, List.map_cons, Memory.after_cons, apply_stored _ (UInt64.not_lt.mp above),
      Memory.store_overlay _ _ (by rw [Segment.length_contents valid]; omega),
      Nat.add_sub_cancel' first]

theorem placesInto (stores : Stores file base segments before after)
    (valid : ∀ s ∈ segments, s.Valid file.length)
    (inside : ∀ s ∈ segments, ¬ s.Oversteps base before.length) :
    PlacesInto file base segments before after where
  length := stores.length
  places memory := by
    rw [stores.stored]
    exact placesSegments_after_stored _ valid fun s member =>
      UInt64.not_lt.mp (not_or.mp (inside s member)).1

end Stores

theorem copying {kernel : Executable} {span : Span} {segments : List Segment}
    (valid : ∀ s ∈ segments, s.Valid kernel.file.length) (buffer : Bytes) :
    Copying kernel.file span.base segments buffer
      (Executable.place.go kernel span segments buffer : Bytes × Outcome ε Unit) := by
  induction segments generalizing buffer with
  | nil => exact .whole nofun .nil
  | cons s rest ih =>
    rw [Executable.place.go]
    by_cases oversteps : s.Oversteps span.base buffer.length
    · rw [Segment.store?_of_oversteps oversteps]
      exact .cut [] s rest rfl nofun oversteps .nil
    have sValid := valid s List.mem_cons_self
    simp only [Segment.store?_of_inside sValid oversteps]
    have copied := ih (fun t member => valid t (List.mem_cons_of_mem s member))
      (buffer.overlay (s.address.toNat - span.base.toNat) (s.contents kernel.file))
    generalize Executable.place.go kernel span rest _ = placed at copied
    cases copied with
    | whole inside stores =>
      rw [Bytes.length_overlay] at inside
      exact .whole (List.forall_mem_cons.mpr ⟨oversteps, inside⟩) (stores.cons sValid oversteps)
    | cut earlier t later split inside past stores =>
      rw [Bytes.length_overlay] at inside past
      exact .cut (s :: earlier) t later (by rw [split]; rfl)
        (List.forall_mem_cons.mpr ⟨oversteps, inside⟩) past (stores.cons sValid oversteps)

/-- **Placing a kernel into a buffer crashes exactly if a segment oversteps it.** After a crash the
buffer shows the segments before the first one that does, and nothing of that or of later ones.
Otherwise it shows all of them, also where they overlap, and placing the kernel once more leaves it
as it is. -/
theorem place_exact {file : Bytes} {kernel : Executable}
    (parsed : Executable.parse file = .ok kernel) (span : Span) (buffer : Bytes) :
    let placed : Bytes × Outcome ε Unit := kernel.place span buffer
    (placed.2 = .crash ↔ ∃ s ∈ kernel.segments, s.Oversteps span.base buffer.length) ∧
    (placed.2 = .crash → ∃ earlier s later, kernel.segments = earlier ++ s :: later ∧
      s.Oversteps span.base buffer.length ∧
      (∀ t ∈ earlier, ¬ t.Oversteps span.base buffer.length) ∧
      PlacesInto file span.base earlier buffer placed.1) ∧
    (placed.2 ≠ .crash → placed.2 = .ok () ∧
      PlacesInto file span.base kernel.segments buffer placed.1 ∧
      kernel.place span placed.1 = placed) := by
  intro placed
  obtain ⟨elf, reads⟩ := Executable.parse_reads parsed
  obtain rfl := reads.file_eq
  have valid := reads.valid
  have copied : Copying kernel.file span.base kernel.segments buffer placed := copying valid buffer
  clear_value placed
  cases copied with
  | @whole after inside stores =>
    have places := stores.placesInto valid inside
    refine ⟨⟨nofun, fun ⟨s, member, oversteps⟩ => absurd oversteps (inside s member)⟩, nofun,
      fun _ => ⟨rfl, places, ?_⟩⟩
    have again : Copying kernel.file span.base kernel.segments after
        (kernel.place span after : Bytes × Outcome ε Unit) := copying valid after
    rw [← stores.length] at inside
    generalize kernel.place span after = placedAgain at again
    cases again with
    | whole _ storesAgain =>
      have replaces := storesAgain.placesInto valid inside
      have same := (places.places fun _ => 0).again (replaces.places fun _ => 0)
      rw [Memory.store_inj replaces.length same]
    | cut earlier s later split _ oversteps _ =>
      exact absurd oversteps (inside s (by simp [split]))
  | cut earlier s later split inside oversteps stores =>
    have earlierValid : ∀ t ∈ earlier, t.Valid kernel.file.length :=
      fun t member => valid t (by simp [split, member])
    exact ⟨⟨fun _ => ⟨s, by simp [split], oversteps⟩, fun _ => rfl⟩,
      fun _ => ⟨earlier, s, later, split, oversteps, inside,
        stores.placesInto earlierValid inside⟩,
      fun returned => absurd rfl returned⟩

/-- Two segments, the second around the first. -/
def crossing : Bytes :=
  image 0x100010 [⟨182, 0x100014, 1, 2⟩, ⟨176, 0x100010, 6, 8⟩] [1, 2, 3, 4, 5, 6, 7]

/-- A buffer that is one byte short for the second segment, and one that has room for both. -/
theorem place_crossing :
    let span : Span := ⟨0x100fff, 0⟩
    let short : Bytes := List.replicate 23 0xcc
    let long : Bytes := List.replicate 24 0xcc
    ∃ kernel, Executable.parse crossing = .ok kernel ∧
      (kernel.place span short : Bytes × Outcome Empty Unit).2 = .crash ∧
      PlacesInto crossing span.base [⟨182, 0x100014, 1, 2⟩] short
        (kernel.place span short : Bytes × Outcome Empty Unit).1 ∧
      (kernel.place span long : Bytes × Outcome Empty Unit).2 = .ok () ∧
      (kernel.place span (kernel.place span long : Bytes × Outcome Empty Unit).1 :
        Bytes × Outcome Empty Unit) = kernel.place span long := by
  intro span short long
  let inner : Segment := ⟨182, 0x100014, 1, 2⟩
  let outer : Segment := ⟨176, 0x100010, 6, 8⟩
  let kernel : Executable := ⟨crossing, 0x100010, [inner, outer]⟩
  have parsed : Executable.parse crossing = .ok kernel := by cbv
  obtain ⟨crashes, cut, _⟩ := place_exact (ε := Empty) parsed span short
  obtain ⟨crashesLong, _, whole⟩ := place_exact (ε := Empty) parsed span long
  have crashed := crashes.mpr ⟨outer, by decide, by decide⟩
  obtain ⟨earlier, s, later, split, oversteps, inside, places⟩ := cut crashed
  have placed : earlier = [inner] := by
    rcases earlier with _ | ⟨t, _ | ⟨u, rest⟩⟩
    · cases split
      exact absurd oversteps (by decide)
    · cases split
      rfl
    · have length := congrArg List.length split
      simp [kernel] at length
  obtain ⟨returned, _, again⟩ := whole (by rw [ne_eq, crashesLong]; decide)
  subst placed
  exact ⟨kernel, parsed, crashed, places, returned, again⟩

end Kernel

end EfiLoader
