import EfiLoader.MemoryMap.Snapshot
import EfiLoader.Proofs.Firmware

/-!
Which reports of the firmware are accepted as a memory map. `snapshot_takes_up`: in an aligned
buffer that has room, what becomes of a report depends on its size and stride alone, and the one
kind that is neither accepted nor told as a failure is a report of descriptors of which the last is
cut off.
-/

namespace EfiLoader.MemoryMap

open Boot (Cause)
open Services (MapReply MapReport)

variable {h : List (Exchange Services)}

/-- The buffer after a reply. -/
def Buffer.fill (buffer : Buffer) (reply : MapReply) : Buffer :=
  { buffer with bytes := buffer.bytes.overlay 0 reply.written }

/-- The ways to ask for the map again, with what is left of it. -/
inductive Retaking (map : MemoryMap) :
    List (Exchange Services) → MemoryMap × Outcome Cause Unit → Prop
  | noRoom (empty : map.buffer.bytes = []) : Retaking map [] (map, .fail .bufferTooSmall)
  | stopped (reply : MapReply) (stop : Stop Cause) (room : map.buffer.bytes ≠ [])
      (judged : accept (map.buffer.fill reply) reply.outcome = .error stop) :
      Retaking map [⟨.memoryMap map.buffer.bytes, reply⟩]
        (⟨map.buffer.fill reply, map.report⟩, .error stop)
  | taken (reply : MapReply) (report : MapReport) (room : map.buffer.bytes ≠ [])
      (judged : accept (map.buffer.fill reply) reply.outcome = .ok report) :
      Retaking map [⟨.memoryMap map.buffer.bytes, reply⟩] (⟨map.buffer.fill reply, report⟩, .ok ())

theorem retaking_of_yields {map : MemoryMap} {result : MemoryMap × Outcome Cause Unit}
    (yields : map.retake.Yields h result) : Retaking map h result := by
  unfold retake at yields
  by_cases empty : map.buffer.bytes = []
  · rw [if_pos empty] at yields
    obtain ⟨rfl, rfl⟩ := Program.yields_pure.mp yields
    exact .noRoom empty
  · simp only [if_neg empty] at yields
    obtain ⟨_, reply, _, rfl, asked, judging⟩ := Program.yields_bind.mp yields
    cases Program.yields_request.mp asked
    split at judging
    · rename_i report judged
      obtain ⟨rfl, rfl⟩ := Program.yields_pure.mp judging
      exact .taken reply report empty judged
    · rename_i stop judged
      obtain ⟨rfl, rfl⟩ := Program.yields_pure.mp judging
      exact .stopped reply stop empty judged

theorem mod_eq_zero_iff {size stride : UInt64} : size % stride = 0 ↔ stride.toNat ∣ size.toNat := by
  rw [← UInt64.toNat_inj, UInt64.toNat_mod, Nat.dvd_iff_mod_eq_zero]
  rfl

/-- The report describes whole descriptors that lie in a buffer of that length. -/
structure Sound (length : Nat) (report : MapReport) : Prop where
  wide : Descriptor.size ≤ report.stride.toNat
  fits : report.size.toNat ≤ length
  whole : report.stride.toNat ∣ report.size.toNat

/-- The report breaks a rule that is checked. -/
def Refutable (length : Nat) (report : MapReport) : Prop :=
  report.stride.toNat < Descriptor.size ∨ length < report.size.toNat

/-- What is neither: descriptors of a good stride, the last of them cut off. -/
structure Uneven (length : Nat) (report : MapReport) : Prop where
  wide : Descriptor.size ≤ report.stride.toNat
  fits : report.size.toNat ≤ length
  uneven : ¬ report.stride.toNat ∣ report.size.toNat

theorem accept_cases {buffer : Buffer} (aligned : buffer.IsAligned) (report : MapReport) :
    (Sound buffer.bytes.length report ∧ accept buffer (.ok report) = .ok report) ∨
      (Refutable buffer.bytes.length report ∧
        accept buffer (.ok report) = .fail (.memoryMap .invalidParameter)) ∨
      (Uneven buffer.bytes.length report ∧ accept buffer (.ok report) = .crash) := by
  have accepting : accept buffer (.ok report) =
      if report.stride.toNat < Descriptor.size then .fail (.memoryMap .invalidParameter)
      else do
        (buffer.reach report).explain fun _ => Cause.memoryMap .invalidParameter
        return report := rfl
  by_cases narrow : report.stride.toNat < Descriptor.size
  · exact .inr (.inl ⟨.inl narrow, by rw [accepting, if_pos narrow]⟩)
  rw [accepting, if_neg narrow]
  by_cases long : buffer.bytes.length < report.size.toNat
  · have reached : buffer.reach report = .fail .invalidParameter := if_pos (.inr long)
    exact .inr (.inl ⟨.inr long, by rw [reached]; rfl⟩)
  have wide := Nat.not_lt.mp narrow
  have fits := Nat.not_lt.mp long
  have holds : ¬ (¬ buffer.IsAligned ∨ buffer.bytes.length < report.size.toNat) := by
    rintro (misaligned | longer)
    · exact misaligned aligned
    · exact long longer
  by_cases whole : report.stride.toNat ∣ report.size.toNat
  · have reached : buffer.reach report = .ok () := by
      rw [Buffer.reach, if_neg holds, if_neg]
      rintro (none | uneven)
      · rw [none] at narrow
        exact narrow (by decide)
      · exact uneven (mod_eq_zero_iff.mpr whole)
    exact .inl ⟨⟨wide, fits, whole⟩, by rw [reached]; rfl⟩
  · have reached : buffer.reach report = .crash := by
      rw [Buffer.reach, if_neg holds, if_pos (.inr (mt mod_eq_zero_iff.mp whole))]
    exact .inr (.inr ⟨⟨wide, fits, whole⟩, by rw [reached]; rfl⟩)

section Kinds

variable {length : Nat} {report : MapReport}

theorem Sound.not_refutable (sound : Sound length report) : ¬ Refutable length report := by
  rintro (narrow | long)
  · exact Nat.not_lt.mpr sound.wide narrow
  · exact Nat.not_lt.mpr sound.fits long

theorem Sound.not_uneven (sound : Sound length report) : ¬ Uneven length report :=
  fun uneven => uneven.uneven sound.whole

theorem Uneven.not_refutable (uneven : Uneven length report) : ¬ Refutable length report := by
  rintro (narrow | long)
  · exact Nat.not_lt.mpr uneven.wide narrow
  · exact Nat.not_lt.mpr uneven.fits long

end Kinds

/-- What becomes of an answer for a buffer of that length. -/
structure TakesUp (length : Nat) (answer : Outcome Status MapReport) (o : Outcome Cause Unit) :
    Prop where
  accepted : ∀ report, answer = .ok report → (o = .ok () ↔ Sound length report)
  rejected : ∀ report, answer = .ok report →
    (o = .fail (.memoryMap .invalidParameter) ↔ Refutable length report)
  crashed : ∀ report, answer = .ok report → (o = .crash ↔ Uneven length report)
  tooSmall : answer = .fail .bufferTooSmall → o = .fail .bufferTooSmall
  failed : ∀ status, answer = .fail status → status ≠ .bufferTooSmall →
    o = .fail (.memoryMap status)

theorem accept_takesUp {buffer : Buffer} (aligned : buffer.IsAligned)
    (answer : Outcome Status MapReport) :
    TakesUp buffer.bytes.length answer ((accept buffer answer).map fun _ => ()) where
  accepted := by
    rintro report rfl
    rcases accept_cases aligned report with ⟨sound, ended⟩ | ⟨refutable, ended⟩ | ⟨uneven, ended⟩
    all_goals rw [ended]
    · exact ⟨fun _ => sound, fun _ => rfl⟩
    · exact ⟨nofun, fun sound => absurd refutable sound.not_refutable⟩
    · exact ⟨nofun, fun sound => absurd uneven sound.not_uneven⟩
  rejected := by
    rintro report rfl
    rcases accept_cases aligned report with ⟨sound, ended⟩ | ⟨refutable, ended⟩ | ⟨uneven, ended⟩
    all_goals rw [ended]
    · exact ⟨nofun, fun refutable => absurd refutable sound.not_refutable⟩
    · exact ⟨fun _ => refutable, fun _ => rfl⟩
    · exact ⟨nofun, fun refutable => absurd refutable uneven.not_refutable⟩
  crashed := by
    rintro report rfl
    rcases accept_cases aligned report with ⟨sound, ended⟩ | ⟨refutable, ended⟩ | ⟨uneven, ended⟩
    all_goals rw [ended]
    · exact ⟨nofun, fun uneven => absurd uneven sound.not_uneven⟩
    · exact ⟨nofun, fun uneven => absurd refutable uneven.not_refutable⟩
    · exact ⟨fun _ => uneven, fun _ => rfl⟩
  tooSmall := by
    rintro rfl
    rfl
  failed := by
    rintro status rfl other
    change Outcome.fail (failedCall status) = _
    rw [failedCall, if_neg other]

theorem Retaking.takesUp {map : MemoryMap} {result : MemoryMap × Outcome Cause Unit}
    (retaking : Retaking map h result) (aligned : map.buffer.IsAligned)
    (room : map.buffer.bytes ≠ []) :
    ∃ reply : MapReply, h = [⟨.memoryMap map.buffer.bytes, reply⟩] ∧
      TakesUp map.buffer.bytes.length reply.outcome result.2 := by
  have taken (reply : MapReply) : TakesUp map.buffer.bytes.length reply.outcome
      ((accept (map.buffer.fill reply) reply.outcome).map fun _ => ()) := by
    have filled : (map.buffer.fill reply).bytes.length = map.buffer.bytes.length :=
      Bytes.length_overlay _ _ _
    have alignedStill : (map.buffer.fill reply).IsAligned := aligned
    rw [← filled]
    exact accept_takesUp alignedStill reply.outcome
  cases retaking with
  | noRoom empty => exact absurd empty room
  | stopped reply stop _ judged =>
    refine ⟨reply, rfl, ?_⟩
    have ended := taken reply
    rw [judged] at ended
    exact ended
  | taken reply report _ judged =>
    refine ⟨reply, rfl, ?_⟩
    have ended := taken reply
    rw [judged] at ended
    exact ended

/-- **What becomes of a reply is settled by its status, or by the size and the stride that it
reports**, for the first snapshot in an aligned buffer as for every later one. The firmware is asked
once. Reports that are not sound are told as failures, except for uneven ones: these end in a
crash. -/
theorem snapshot_takes_up {σ : Type} (machine : Machine Services σ) (state : σ) (buffer : Buffer)
    (aligned : buffer.IsAligned) (room : buffer.bytes ≠ []) :
    (∃ reply : MapReply,
      (take buffer).history machine state = [⟨.memoryMap buffer.bytes, reply⟩] ∧
      TakesUp buffer.bytes.length reply.outcome ((take buffer).run machine state).1.2) ∧
    ∀ last : MapReport, ∃ reply : MapReply,
      (retake ⟨buffer, last⟩).history machine state = [⟨.memoryMap buffer.bytes, reply⟩] ∧
      TakesUp buffer.bytes.length reply.outcome ((retake ⟨buffer, last⟩).run machine state).1.2 :=
  ⟨(retaking_of_yields (Program.yields_run machine _ state)).takesUp aligned room,
    fun _ => (retaking_of_yields (Program.yields_run machine _ state)).takesUp aligned room⟩

/-- A descriptor and a half. -/
def halved : MapReport := ⟨60, 1, 40, 1⟩

theorem snapshot_takes_up_halved :
    let buffer : Buffer := ⟨0x2000, List.replicate 64 0⟩
    let firmware : Firmware := { report := halved }
    buffer.IsAligned ∧ buffer.bytes ≠ [] ∧ ((take buffer).run firmware.serve ()).1.2 = .crash := by
  intro buffer firmware
  have aligned : buffer.IsAligned := by decide
  have room : buffer.bytes ≠ [] := by decide
  obtain ⟨⟨reply, asked, takes⟩, _⟩ := snapshot_takes_up firmware.serve () buffer aligned room
  have reports : ∀ e ∈ (take buffer).history firmware.serve (),
      Services.Reports halved e.request e.reply :=
    Program.forall_mem_history firmware.serve_reports _ _
  rw [asked] at reports
  have reported : reply.outcome = .ok halved := reports _ (List.mem_singleton_self _)
  exact ⟨aligned, room, (takes.crashed halved reported).mpr ⟨by decide, by decide, by decide⟩⟩

end EfiLoader.MemoryMap
