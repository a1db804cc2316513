import EfiLoader.Proofs.Testbed.Effects
import EfiLoader.Proofs.Testbed.Loading

/-!
Pages that firmware in memory grants. Its book of taken ranges has every range that a test reserved
and every grant, in their order, and nothing is struck out (`Booked`). Main statement: whatever is
done with the firmware, granted pages are whole pages of its memory and have no byte in common with
anything that was taken before (`grants_stay_apart`).
-/

namespace EfiLoader.Testbed

open Kernel (pageSize)

/-- The ranges have no address in common. -/
def Apart (range other : Nat × Nat) : Prop :=
  ∀ a, range.1 ≤ a → a < range.2 → ¬ (other.1 ≤ a ∧ a < other.2)

/-- The range is one of whole pages of the area, apart from all that is taken. -/
structure Area.Spare (area : Area) (taken : List (Nat × Nat)) (range : Nat × Nat) : Prop
    extends area.HasPages range.1 range.2 where
  apart : ∀ other ∈ taken, Apart other range

theorem Area.spare_of_isFree {area : Area} {taken : List (Nat × Nat)} {first last : Nat}
    (free : area.isFree taken first last = true) : area.Spare taken (first, last) := by
  obtain ⟨pages, unmet⟩ := Area.isFree_iff.mp free
  refine ⟨pages, fun other member a first' last' inside => ?_⟩
  exact unmet other member ⟨Nat.lt_of_le_of_lt inside.1 last', Nat.lt_of_le_of_lt first' inside.2⟩

namespace MemoryFirmware

/-- What a test does with the firmware: it takes a range itself, changes another of the settings, or
runs a program, be it a single call, a load or a whole boot attempt. -/
inductive Use where
  | reserve (first last : UInt64)
  | set (change : MemoryFirmware → MemoryFirmware)
      (keeps : ∀ firmware, (change firmware).reserved = firmware.reserved ∧
        (change firmware).physical = firmware.physical)
  | run {α : Type} (program : Program Services α)

/-- What comes of it, in steps: a range that the test took, or a request with its reply. -/
inductive Event where
  | reserved (first last : UInt64)
  | called (e : Exchange Services)

namespace Event

/-- The range that is taken from then on. -/
def taken : Event → List (Nat × Nat)
  | reserved first last => [(first.toNat, last.toNat)]
  | called e => e.granted

/-- If pages were granted, then those that were asked for, and they were spare. -/
def Sound (area : Area) (takenBefore : List (Nat × Nat)) : Event → Prop
  | called ⟨.allocatePages address count, .ok destination⟩ =>
    destination = address ∧
      area.Spare takenBefore (address.toNat, address.toNat + count * pageSize)
  | _ => True

/-- All events are sound, each for what was taken before it. -/
def AllSound (area : Area) : List (Nat × Nat) → List Event → Prop
  | _, [] => True
  | takenBefore, event :: rest =>
    event.Sound area takenBefore ∧ AllSound area (takenBefore ++ event.taken) rest

theorem allSound_append {area : Area} {takenBefore : List (Nat × Nat)} {events more : List Event} :
    AllSound area takenBefore (events ++ more) ↔
      AllSound area takenBefore events ∧
        AllSound area (takenBefore ++ events.flatMap taken) more := by
  induction events generalizing takenBefore with
  | nil => simp [AllSound]
  | cons event rest ih => simp [AllSound, ih, and_assoc, List.append_assoc]

theorem AllSound.congr {area other : Area} {takenBefore : List (Nat × Nat)} {events : List Event}
    (base : area.base = other.base) (limit : area.limit = other.limit)
    (sound : AllSound area takenBefore events) : AllSound other takenBefore events := by
  induction events generalizing takenBefore with
  | nil => exact True.intro
  | cons event rest ih =>
    refine ⟨?_, ih sound.2⟩
    have here := sound.1
    unfold Sound at here ⊢
    split
    · obtain ⟨place, ⟨aligned, above, below⟩, apart⟩ := here
      exact ⟨place, ⟨aligned, base ▸ above, limit ▸ below⟩, apart⟩
    · exact True.intro

end Event

def Use.after : Use → MemoryFirmware → MemoryFirmware
  | .reserve first last, firmware => firmware.claimed first.toNat last.toNat
  | .set change _, firmware => change firmware
  | .run program, firmware => (program.run answer firmware).2

def Use.events : Use → MemoryFirmware → List Event
  | .reserve first last, _ => [.reserved first last]
  | .set _ _, _ => []
  | .run program, firmware => (program.history answer firmware).map .called

/-- What comes of several uses, one after the other. -/
def events : List Use → MemoryFirmware → List Event
  | [], _ => []
  | use :: rest, firmware => use.events firmware ++ events rest (use.after firmware)

/-- The events are sound, and have been entered in the book. -/
structure Booked (firmware : MemoryFirmware) (events : List Event) (later : MemoryFirmware) :
    Prop where
  sound : Event.AllSound firmware.physical firmware.reserved events
  book : later.reserved = firmware.reserved ++ events.flatMap Event.taken
  base : later.physical.base = firmware.physical.base
  limit : later.physical.limit = firmware.physical.limit

variable {firmware later : MemoryFirmware}

namespace Booked

theorem nil (keeps : later.reserved = firmware.reserved ∧ later.physical = firmware.physical) :
    firmware.Booked [] later :=
  ⟨True.intro, by simp [keeps.1], by rw [keeps.2], by rw [keeps.2]⟩

theorem append {events more : List Event} {last : MemoryFirmware}
    (first : firmware.Booked events later) (second : later.Booked more last) :
    firmware.Booked (events ++ more) last where
  sound := by
    refine Event.allSound_append.mpr ⟨first.sound, ?_⟩
    -- The book at the seam has just what the events up to there took.
    rw [← first.book]
    exact second.sound.congr first.base first.limit
  book := by rw [second.book, first.book, List.flatMap_append, List.append_assoc]
  base := second.base.trans first.base
  limit := second.limit.trans first.limit

end Booked

/-- A refused request leaves the book and the memory alone. -/
theorem of_allocatePages_error {address : UInt64} {count : Nat} {stop : Stop Status}
    (refused : (answer (.allocatePages address count) firmware).1 = .error stop) :
    (answer (.allocatePages address count) firmware).2.reserved = firmware.reserved ∧
      (answer (.allocatePages address count) firmware).2.physical = firmware.physical := by
  have follows := follows_answer firmware (.allocatePages address count)
  rw [refused] at follows
  exact ⟨follows.reserved.trans (List.append_nil _), follows.physical⟩

/-- Pages are granted where they were asked for, and they were spare. -/
theorem of_allocatePages_ok {address destination : UInt64} {count : Nat}
    (granted : (answer (.allocatePages address count) firmware).1 = .ok destination) :
    destination = address ∧ firmware.physical.Spare firmware.reserved
      (address.toNat, address.toNat + count * pageSize) := by
  have isOpen : firmware.exited = false := isOpen_of_allocating granted
  have run : answer (.allocatePages address count) firmware = _ :=
    run_allocatePages isOpen address count
  rw [run] at granted
  dsimp only at granted
  split at granted
  · cases granted
  split at granted
  · rename_i free
    exact ⟨(Except.ok.inj granted).symm, Area.spare_of_isFree free⟩
  · cases granted

theorem sound_answer (firmware : MemoryFirmware) (request : Services.Request) :
    Event.Sound firmware.physical firmware.reserved
      (.called ⟨request, (answer request firmware).1⟩) := by
  cases request with
  | allocatePages address count =>
    rcases replied : (answer (.allocatePages address count) firmware).1 with stop | destination
    · exact True.intro
    · exact of_allocatePages_ok replied
  | _ => exact True.intro

namespace Booked

/-- What one request does to the book: a grant is entered, and nothing else. -/
theorem step (firmware : MemoryFirmware) (request : Services.Request) :
    firmware.Booked [.called ⟨request, (answer request firmware).1⟩]
      (answer request firmware).2 := by
  have follows := follows_answer firmware request
  obtain ⟨base, limit⟩ := firmware.physical.range_after ⟨request, (answer request firmware).1⟩
  rw [← follows.physical] at base limit
  refine ⟨⟨sound_answer firmware request, True.intro⟩, ?_, base, limit⟩
  rw [follows.reserved, List.flatMap_singleton]
  rfl

theorem run {α : Type} (program : Program Services α) (firmware : MemoryFirmware) :
    firmware.Booked ((program.history answer firmware).map .called)
      (program.run answer firmware).2 := by
  induction program generalizing firmware with
  | done value => exact .nil ⟨rfl, rfl⟩
  | ask request next ih =>
    have rest := ih (answer request firmware).1 (answer request firmware).2
    exact (step firmware request).append rest

theorem use (use : Use) (firmware : MemoryFirmware) :
    firmware.Booked (use.events firmware) (use.after firmware) := by
  cases use with
  | reserve first last => exact ⟨⟨True.intro, True.intro⟩, rfl, rfl, rfl⟩
  | set change keeps => exact .nil (keeps firmware)
  | run program => exact .run program firmware

/-- The book is kept through all that is done with the firmware. -/
theorem uses (uses : List Use) (firmware : MemoryFirmware) :
    firmware.Booked (events uses firmware)
      (uses.foldl (fun state use => use.after state) firmware) := by
  induction uses generalizing firmware with
  | nil => exact .nil ⟨rfl, rfl⟩
  | cons first rest ih => exact (use first firmware).append (ih (first.after firmware))

end Booked

/-- **Granted pages never collide**, whatever is done with the firmware: ranges are reserved, any of
them; settings are changed; single services are called, kernels loaded, boots attempted. Pages are
granted just where they were asked for, as whole pages of the memory, and have no byte in common
with any range that was reserved or granted before. A request that is refused leaves the taken
ranges and the memory as they are. -/
theorem grants_stay_apart (firmware : MemoryFirmware) (uses : List Use) :
    (∀ earlier address count destination later,
      events uses firmware =
        earlier ++ .called ⟨.allocatePages address count, .ok destination⟩ :: later →
      destination = address ∧
        firmware.physical.Spare (firmware.reserved ++ earlier.flatMap Event.taken)
          (address.toNat, address.toNat + count * pageSize)) ∧
    ∀ (here : MemoryFirmware) address count stop,
      (answer (.allocatePages address count) here).1 = .error stop →
      (answer (.allocatePages address count) here).2.reserved = here.reserved ∧
        (answer (.allocatePages address count) here).2.physical = here.physical := by
  refine ⟨fun earlier address count destination later split => ?_,
    fun _ _ _ _ => of_allocatePages_error⟩
  have sound := (Booked.uses uses firmware).sound
  rw [split] at sound
  exact (Event.allSound_append.mp sound).2.1

/-- Half a page is reserved. The pages on both sides of its page are granted, its page is not. -/
theorem grants_stay_apart_between :
    let firmware : MemoryFirmware := { physical := ⟨0x100000, List.replicate 0x3000 0xcc⟩ }
    let uses : List Use :=
      [.reserve 0x101800 0x102000, .run (Services.allocatePages 0x100000 1),
        .run (Services.allocatePages 0x101000 1), .run (Services.allocatePages 0x102000 1)]
    let earlier : List Event := [.reserved 0x101800 0x102000,
      .called ⟨.allocatePages 0x100000 1, .ok 0x100000⟩,
      .called ⟨.allocatePages 0x101000 1, .fail .notFound⟩]
    let reserved := (Use.reserve 0x101800 0x102000).after firmware
    events uses firmware =
        earlier ++ .called ⟨.allocatePages 0x102000 1, .ok 0x102000⟩ :: [] ∧
      firmware.physical.Spare [(0x101800, 0x102000), (0x100000, 0x101000)] (0x102000, 0x103000) ∧
      (answer (.allocatePages 0x101000 1) reserved).1 = .error (.failed .notFound) ∧
      (answer (.allocatePages 0x101000 1) reserved).2.reserved = [(0x101800, 0x102000)] := by
  intro firmware uses earlier reserved
  let middle := (answer (.allocatePages 0x100000 1) reserved).2
  let last := (answer (.allocatePages 0x101000 1) middle).2
  have first : (answer (.allocatePages 0x100000 1) reserved).1 = .ok 0x100000 := by decide +kernel
  have second : (answer (.allocatePages 0x101000 1) middle).1 = .fail .notFound := by
    decide +kernel
  have third : (answer (.allocatePages 0x102000 1) last).1 = .ok 0x102000 := by decide +kernel
  have reserving (rest : List Use) : events (.reserve 0x101800 0x102000 :: rest) firmware =
      .reserved 0x101800 0x102000 :: events rest reserved := rfl
  have asking (address : UInt64) (rest : List Use) (state : MemoryFirmware) :
      events (.run (Services.allocatePages address 1) :: rest) state =
        .called ⟨.allocatePages address 1, (answer (.allocatePages address 1) state).1⟩ ::
          events rest (answer (.allocatePages address 1) state).2 := rfl
  have split : events uses firmware =
      earlier ++ .called ⟨.allocatePages 0x102000 1, .ok 0x102000⟩ :: [] := by
    rw [reserving, asking, asking, asking, first, second, third]
    rfl
  have failed : (answer (.allocatePages 0x101000 1) reserved).1 = .error (.failed .notFound) := by
    decide +kernel
  have taken : firmware.reserved ++ earlier.flatMap Event.taken =
      [(0x101800, 0x102000), (0x100000, 0x101000)] := by
    decide +kernel
  obtain ⟨granted, kept⟩ := grants_stay_apart firmware uses
  have spare := (granted _ _ _ _ _ split).2
  rw [taken] at spare
  have left := (kept reserved 0x101000 1 _ failed).1
  exact ⟨split, spare, failed, left⟩

end MemoryFirmware

end EfiLoader.Testbed
