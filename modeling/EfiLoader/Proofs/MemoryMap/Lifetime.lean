import EfiLoader.Proofs.Bytes
import EfiLoader.Proofs.MemoryMap.Refusal

/-!
Snapshots over their lifetime: taken once, and taken again any number of times into the same buffer,
whatever comes of it. `Kept` gives the snapshots that exist after a list of such calls. Main
statement: each of them can be viewed, its descriptors lie where its report says, and its report is
that of the last reply that was accepted (`snapshot_stays_intact`).
-/

namespace EfiLoader

namespace MemoryMap

open Boot (Cause)
open Services (MapReport MapReply)

/-- A descriptor is read from the bytes of its own size and no others. -/
theorem Descriptor.read_slice (bytes : Bytes) (offset : Nat) :
    Descriptor.read (bytes.slice offset Descriptor.size) 0 = Descriptor.read bytes offset := by
  have field (width i : Nat) (inside : i + width ≤ Descriptor.size) :
      (bytes.slice offset Descriptor.size).numberAt width i =
        bytes.numberAt width (offset + i) := by
    rw [Bytes.numberAt, Bytes.numberAt, Bytes.slice_slice bytes inside]
  simp only [Descriptor.read, Nat.zero_add, Nat.add_zero, field 4 0 (by decide),
    field 8 8 (by decide), field 8 16 (by decide), field 8 24 (by decide), field 8 32 (by decide)]

/-- The bytes of the descriptor at an index, as far as they are among those that the report
counts. -/
def window (map : MemoryMap) (index : Nat) : Bytes :=
  Bytes.slice (map.buffer.bytes.take map.report.size.toNat) (index * map.report.stride.toNat)
    Descriptor.size

/-- A snapshot that lies in the buffer as its report says. -/
structure Intact (buffer : Buffer) (map : MemoryMap) : Prop where
  sameAddress : map.buffer.address = buffer.address
  sameLength : map.buffer.bytes.length = buffer.bytes.length
  wide : Descriptor.size ≤ map.report.stride.toNat
  fits : map.report.size.toNat ≤ map.buffer.bytes.length
  whole : map.report.size.toNat = map.length * map.report.stride.toNat
  viewed : ∃ ds, map.inspect = .ok ds ∧ ds.length = map.length ∧
    ∀ (index : Nat) (d : Descriptor), ds[index]? = some d →
      (map.window index).length = Descriptor.size ∧ d = Descriptor.read (map.window index) 0

section View

variable {map : MemoryMap}

theorem Sound.whole_length (sound : Sound map.buffer.bytes.length map.report) :
    map.report.size.toNat = map.length * map.report.stride.toNat :=
  (Nat.div_mul_cancel sound.whole).symm

/-- The descriptor at an index ends before the bytes that the report counts do. -/
theorem Sound.window_inside (sound : Sound map.buffer.bytes.length map.report) {index : Nat}
    (counted : index < map.length) :
    index * map.report.stride.toNat + Descriptor.size ≤ map.report.size.toNat := by
  have wide := sound.wide
  have next : (index + 1) * map.report.stride.toNat ≤ map.length * map.report.stride.toNat :=
    Nat.mul_le_mul_right _ counted
  rw [Nat.succ_mul] at next
  rw [sound.whole_length]
  omega

theorem Sound.length_window (sound : Sound map.buffer.bytes.length map.report) {index : Nat}
    (counted : index < map.length) : (map.window index).length = Descriptor.size := by
  have inside := sound.window_inside counted
  have fits := sound.fits
  apply Bytes.length_slice_of_le
  rw [List.length_take]
  omega

theorem Sound.read_window (sound : Sound map.buffer.bytes.length map.report) {index : Nat}
    (counted : index < map.length) :
    Descriptor.read (map.window index) 0 =
      Descriptor.read map.buffer.bytes (index * map.report.stride.toNat) := by
  rw [window, Bytes.slice_take _ (sound.window_inside counted), Descriptor.read_slice]

theorem Sound.inspect (sound : Sound map.buffer.bytes.length map.report)
    (aligned : map.buffer.IsAligned) : map.inspect = .ok map.descriptors := by
  have stepping : map.report.stride ≠ 0 := by
    intro zero
    have wide := sound.wide
    rw [zero] at wide
    exact absurd wide (by decide)
  have reached : map.buffer.reach map.report = .ok () :=
    reach_eq_ok_iff.mpr ⟨aligned, sound.fits, stepping, sound.whole⟩
  rw [MemoryMap.inspect, reached]
  rfl

@[simp] theorem length_descriptors (map : MemoryMap) : map.descriptors.length = map.length := by
  simp [descriptors]

theorem Sound.viewed (sound : Sound map.buffer.bytes.length map.report)
    (aligned : map.buffer.IsAligned) :
    ∃ ds, map.inspect = .ok ds ∧ ds.length = map.length ∧
      ∀ (index : Nat) (d : Descriptor), ds[index]? = some d →
        (map.window index).length = Descriptor.size ∧
          d = Descriptor.read (map.window index) 0 := by
  refine ⟨map.descriptors, sound.inspect aligned, length_descriptors map, ?_⟩
  intro index d found
  have counted : index < map.length := by
    obtain ⟨inside, _⟩ := List.getElem?_eq_some_iff.mp found
    simpa using inside
  have read : d = Descriptor.read map.buffer.bytes (index * map.report.stride.toNat) := by
    simpa [descriptors, counted] using found.symm
  exact ⟨sound.length_window counted, read.trans (sound.read_window counted).symm⟩

end View

/-- A call that takes a snapshot, for the first time or again: what was asked and replied, and how
it ended. -/
structure Call where
  history : List (Exchange Services)
  outcome : Outcome Cause Unit

/-- The snapshots that exist after some calls, oldest first, none of which crashed. -/
inductive Kept (buffer : Buffer) : List Call → MemoryMap → Prop
  | taken {h : List (Exchange Services)} {map : MemoryMap}
      (took : (take buffer).Yields h (map, .ok ())) : Kept buffer [⟨h, .ok ()⟩] map
  | retaken {calls : List Call} {map later : MemoryMap} {h : List (Exchange Services)}
      {o : Outcome Cause Unit} (kept : Kept buffer calls map)
      (retook : map.retake.Yields h (later, o)) (returned : o ≠ .crash) :
      Kept buffer (calls ++ [⟨h, o⟩]) later

/-- The last of the calls that was accepted is one whose reply carried that report. -/
def LastAccepted (calls : List Call) (report : MapReport) : Prop :=
  ∃ (before after : List Call) (bytes : Bytes) (reply : MapReply),
    calls = before ++ ⟨[⟨.memoryMap bytes, reply⟩], .ok ()⟩ :: after ∧
      reply.outcome = .ok report ∧ ∀ call ∈ after, call.outcome ≠ .ok ()

theorem LastAccepted.afterRefused {calls : List Call} {report : MapReport} {call : Call}
    (last : LastAccepted calls report) (refused : call.outcome ≠ .ok ()) :
    LastAccepted (calls ++ [call]) report := by
  obtain ⟨before, after, bytes, reply, rfl, reported, others⟩ := last
  refine ⟨before, after ++ [call], bytes, reply, by simp, reported, ?_⟩
  intro other member
  rcases List.mem_append.mp member with earlier | latest
  · exact others other earlier
  · rw [List.mem_singleton.mp latest]
    exact refused

section Steps

variable {h : List (Exchange Services)} {map later : MemoryMap} {o : Outcome Cause Unit}

theorem Retaking.yields {result : MemoryMap × Outcome Cause Unit}
    (retaking : Retaking map h result) : map.retake.Yields h result := by
  unfold retake
  cases retaking with
  | noRoom empty =>
    rw [if_pos empty]
    exact Program.yields_pure.mpr ⟨rfl, rfl⟩
  | stopped reply stop room judged | taken reply report room judged =>
    simp only [if_neg room]
    apply Program.yields_bind.mpr
    refine ⟨_, reply, [], (List.append_nil _).symm, Program.yields_request.mpr rfl, ?_⟩
    rw [Buffer.fill] at judged
    simp only [judged]
    exact Program.yields_pure.mpr ⟨rfl, rfl⟩

theorem Retaking.sameBuffer (retaking : Retaking map h (later, o)) :
    later.buffer.address = map.buffer.address ∧
      later.buffer.bytes.length = map.buffer.bytes.length := by
  cases retaking with
  | noRoom => exact ⟨rfl, rfl⟩
  | stopped reply | taken reply => exact ⟨rfl, Buffer.length_fill _ _⟩

/-- A refusal leaves the report as it was. -/
theorem Retaking.sameReport (retaking : Retaking map h (later, o)) (refused : o ≠ .ok ()) :
    later.report = map.report := by
  cases retaking with
  | noRoom | stopped => rfl
  | taken => exact absurd rfl refused

theorem Retaking.lastAccepted (retaking : Retaking map h (later, .ok ())) (calls : List Call) :
    LastAccepted (calls ++ [⟨h, .ok ()⟩]) later.report := by
  obtain ⟨reply, report, rfl, rfl, reported, _⟩ := retaking.sound
  exact ⟨calls, [], map.buffer.bytes, reply, rfl, reported, nofun⟩

/-- What a call makes of a snapshot that is in order, or of none at all if it is accepted. -/
theorem Retaking.described (retaking : Retaking map h (later, .ok ())) :
    later.buffer.IsAligned ∧ Sound later.buffer.bytes.length later.report := by
  obtain ⟨reply, report, rfl, rfl, _, aligned, sound⟩ := retaking.sound
  refine ⟨aligned, ?_⟩
  rw [Buffer.length_fill]
  exact sound

end Steps

namespace Kept

variable {buffer : Buffer} {calls : List Call} {map : MemoryMap}

theorem sameBuffer (kept : Kept buffer calls map) :
    map.buffer.address = buffer.address ∧
      map.buffer.bytes.length = buffer.bytes.length := by
  induction kept with
  | taken took => exact (retaking_of_yields took).sameBuffer
  | retaken _ retook _ ih =>
    have same := (retaking_of_yields retook).sameBuffer
    exact ⟨same.1.trans ih.1, same.2.trans ih.2⟩

/-- Every accepted call describes the snapshot anew, every refused one leaves what it was. -/
theorem described (kept : Kept buffer calls map) :
    map.buffer.IsAligned ∧ Sound map.buffer.bytes.length map.report := by
  induction kept with
  | taken took => exact (retaking_of_yields took).described
  | @retaken calls map later h o _ retook _ ih =>
    have retaking := retaking_of_yields retook
    by_cases accepted : o = .ok ()
    · subst accepted
      exact retaking.described
    · have same := retaking.sameBuffer
      rw [Buffer.IsAligned, same.1, same.2, retaking.sameReport accepted]
      exact ih

/-- No snapshot is taken into a buffer without room. -/
theorem room (kept : Kept buffer calls map) : map.buffer.bytes ≠ [] := by
  induction kept with
  | taken took => exact (retaking_of_yields took).room
  | retaken _ retook _ ih =>
    have same := (retaking_of_yields retook).sameBuffer
    intro empty
    rw [empty] at same
    exact ih (List.length_eq_zero_iff.mp same.2.symm)

/-- A first reply that is accepted makes a snapshot. -/
theorem of_accepted {reply : MapReply} {report : MapReport} (room : buffer.bytes ≠ [])
    (accepted : accept (buffer.fill reply) reply.outcome = .ok report) :
    Kept buffer [⟨[⟨.memoryMap buffer.bytes, reply⟩], .ok ()⟩] ⟨buffer.fill reply, report⟩ := by
  have took : Retaking (.blank buffer) [⟨.memoryMap buffer.bytes, reply⟩]
      (⟨buffer.fill reply, report⟩, .ok ()) := .taken reply report room accepted
  exact .taken took.yields

theorem lastAccepted (kept : Kept buffer calls map) : LastAccepted calls map.report := by
  induction kept with
  | taken took => exact (retaking_of_yields took).lastAccepted []
  | @retaken calls map later h o _ retook _ ih =>
    have retaking := retaking_of_yields retook
    by_cases accepted : o = .ok ()
    · subst accepted
      exact retaking.lastAccepted calls
    · rw [retaking.sameReport accepted]
      exact ih.afterRefused accepted

end Kept

/-- **A snapshot that exists is intact**, however often it was taken again, whatever the firmware
replied and whether or not that was accepted. It is described by the last reply that was accepted;
all its descriptors can be viewed, each read from bytes of its own within those that were
reported. -/
theorem snapshot_stays_intact {buffer : Buffer} {calls : List Call} {map : MemoryMap}
    (kept : Kept buffer calls map) : Intact buffer map ∧ LastAccepted calls map.report := by
  obtain ⟨aligned, sound⟩ := kept.described
  obtain ⟨sameAddress, sameLength⟩ := kept.sameBuffer
  have intact : Intact buffer map :=
    { sameAddress, sameLength
      wide := sound.wide
      fits := sound.fits
      whole := sound.whole_length
      viewed := sound.viewed aligned }
  exact ⟨intact, kept.lastAccepted⟩

/-- Two descriptors eight bytes further apart than they are long. -/
def spaced : MapReport := ⟨96, 7, 48, 1⟩

/-- Descriptors that are too short. -/
def narrow : MapReport := ⟨96, 8, 39, 1⟩

/-- A refused reply overwrites the bytes of a snapshot, which keeps its report nevertheless. -/
theorem snapshot_stays_intact_overwritten :
    let buffer : Buffer := ⟨0x2000, List.replicate 96 0⟩
    let first : MapReply := ⟨List.replicate 96 1, .ok spaced⟩
    let second : MapReply := ⟨List.replicate 96 2, .ok narrow⟩
    let map : MemoryMap := ⟨(buffer.fill first).fill second, spaced⟩
    Kept buffer
        ([⟨[⟨.memoryMap buffer.bytes, first⟩], .ok ()⟩] ++
          [⟨[⟨.memoryMap (buffer.fill first).bytes, second⟩],
            .fail (.memoryMap .invalidParameter)⟩])
        map ∧
      ∃ ds, map.inspect = .ok ds ∧ ds.length = 2 := by
  intro buffer first second map
  have accepted : accept (buffer.fill first) (.ok spaced) = .ok spaced := by decide +kernel
  have took : Retaking (blank buffer) [⟨.memoryMap buffer.bytes, first⟩]
      (⟨buffer.fill first, spaced⟩, .ok ()) := .taken first spaced (by decide) accepted
  have room : (buffer.fill first).bytes ≠ [] := by decide
  have retook : Retaking ⟨buffer.fill first, spaced⟩
      [⟨.memoryMap (buffer.fill first).bytes, second⟩]
      (map, .fail (.memoryMap .invalidParameter)) := .stopped second _ room rfl
  have kept := (Kept.taken took.yields).retaken retook.yields nofun
  obtain ⟨ds, seen, counted, _⟩ := (snapshot_stays_intact kept).1.viewed
  have two : map.length = 2 := by decide
  exact ⟨kept, ds, seen, counted.trans two⟩

end MemoryMap

end EfiLoader
