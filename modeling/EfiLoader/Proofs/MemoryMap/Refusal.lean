import EfiLoader.Proofs.MemoryMap.Acceptance

/-!
Which answers to a request for the map are taken up, and what is told of the others. An accepted
answer is `Sound` (`sound_of_accept`), a refused one has the `Flaw` that is told (`flaw_of_accept`);
no answer has two flaws, and a sound one has none.
-/

namespace EfiLoader.MemoryMap

open Boot (Cause)
open Services (MapReport)

variable {h : List (Exchange Services)} {buffer : Buffer}

theorem reach_of_accept {outcome : Outcome Status MapReport} {report : MapReport}
    (accepted : accept buffer outcome = .ok report) :
    outcome = .ok report ∧ Descriptor.size ≤ report.stride.toNat ∧
      buffer.reach report = .ok () := by
  cases outcome with
  | error stop => cases accepted
  | ok reported =>
    by_cases narrow : reported.stride.toNat < Descriptor.size
    · have refused : accept buffer (.ok reported) = .fail (.memoryMap .invalidParameter) :=
        if_pos narrow
      cases refused.symm.trans accepted
    · have judged : accept buffer (.ok reported) = (do
          (buffer.reach reported).explain fun _ => Cause.memoryMap .invalidParameter
          return reported) := if_neg narrow
      rw [judged] at accepted
      cases reached : buffer.reach reported with
      | error stop => rw [reached] at accepted; cases accepted
      | ok _ =>
        rw [reached] at accepted
        cases accepted
        exact ⟨rfl, Nat.not_lt.mp narrow, reached⟩

theorem reach_eq_ok_iff {report : MapReport} :
    buffer.reach report = .ok () ↔ buffer.IsAligned ∧ report.size.toNat ≤ buffer.bytes.length ∧
      report.stride ≠ 0 ∧ report.stride.toNat ∣ report.size.toNat := by
  unfold Buffer.reach
  by_cases bad : ¬ buffer.IsAligned ∨ buffer.bytes.length < report.size.toNat
  · rw [if_pos bad]
    refine ⟨nofun, ?_⟩
    rintro ⟨aligned, fits, _⟩
    rcases bad with misaligned | long
    · exact absurd aligned misaligned
    · omega
  · rw [if_neg bad]
    by_cases uneven : report.stride = 0 ∨ report.size % report.stride ≠ 0
    · rw [if_pos uneven]
      refine ⟨nofun, ?_⟩
      rintro ⟨_, _, some, whole⟩
      rcases uneven with none | uneven
      · exact absurd none some
      · exact absurd (mod_eq_zero_iff.mpr whole) uneven
    · rw [if_neg uneven]
      simp only [not_or, Decidable.not_not, Nat.not_lt] at bad uneven
      exact ⟨fun _ => ⟨bad.1, bad.2, uneven.1, mod_eq_zero_iff.mp uneven.2⟩, fun _ => rfl⟩

theorem sound_of_accept {answer : Outcome Status MapReport} {report : MapReport}
    (accepted : accept buffer answer = .ok report) :
    answer = .ok report ∧ buffer.IsAligned ∧ Sound buffer.bytes.length report := by
  obtain ⟨answered, wide, reached⟩ := reach_of_accept accepted
  obtain ⟨aligned, fits, _, whole⟩ := reach_eq_ok_iff.mp reached
  exact ⟨answered, aligned, wide, fits, whole⟩

theorem accept_of_sound (aligned : buffer.IsAligned) {report : MapReport}
    (sound : Sound buffer.bytes.length report) : accept buffer (.ok report) = .ok report := by
  rcases accept_cases aligned report with ⟨_, ended⟩ | ⟨refutable, _⟩ | ⟨uneven, _⟩
  · exact ended
  · exact absurd refutable sound.not_refutable
  · exact absurd uneven sound.not_uneven

/-- What is wrong with the answer to a request for the map, as it is told. -/
inductive Flaw (buffer : Buffer) (answer : Outcome Status MapReport) : Cause → Prop
  | tooSmall (failed : answer = .fail .bufferTooSmall) : Flaw buffer answer .bufferTooSmall
  | failed (status : Status) (failed : answer = .fail status) (other : status ≠ .bufferTooSmall) :
      Flaw buffer answer (.memoryMap status)
  | malformed (report : MapReport) (answered : answer = .ok report)
      (bad : ¬ buffer.IsAligned ∨ Refutable buffer.bytes.length report) :
      Flaw buffer answer (.memoryMap .invalidParameter)

theorem Flaw.unique {answer : Outcome Status MapReport} {cause cause' : Cause}
    (flaw : Flaw buffer answer cause) (flaw' : Flaw buffer answer cause') :
    cause = cause' := by
  cases flaw with
  | tooSmall failed =>
    subst failed
    cases flaw' with
    | tooSmall => rfl
    | failed status failed other => cases failed; exact absurd rfl other
    | malformed _ answered => cases answered
  | failed status failed other =>
    subst failed
    cases flaw' with
    | tooSmall failed => cases failed; exact absurd rfl other
    | failed _ failed => cases failed; rfl
    | malformed _ answered => cases answered
  | malformed report answered =>
    subst answered
    cases flaw' with
    | malformed => rfl
    | tooSmall failed | failed _ failed => cases failed

theorem Flaw.not_sound {answer : Outcome Status MapReport} {cause : Cause} {report : MapReport}
    (flaw : Flaw buffer answer cause) (answered : answer = .ok report)
    (aligned : buffer.IsAligned) (sound : Sound buffer.bytes.length report) : False := by
  subst answered
  cases flaw with
  | malformed _ answered bad =>
    cases answered
    rcases bad with misaligned | refutable
    · exact misaligned aligned
    · exact sound.not_refutable refutable
  | tooSmall failed | failed _ failed => cases failed

theorem flaw_of_accept {answer : Outcome Status MapReport} {cause : Cause}
    (refused : accept buffer answer = .fail cause) : Flaw buffer answer cause := by
  rcases answer with (status | _) | report
  · have told : failedCall status = cause := by injection refused with told; injection told
    rw [failedCall] at told
    split at told
    · rename_i small
      rw [← told, small]
      exact .tooSmall rfl
    · rename_i other
      rw [← told]
      exact .failed status rfl other
  · cases refused
  · by_cases aligned : buffer.IsAligned
    · rcases accept_cases aligned report with ⟨_, ended⟩ | ⟨refutable, ended⟩ | ⟨_, ended⟩
      all_goals cases refused.symm.trans ended
      exact .malformed report rfl (.inr refutable)
    · have judged : accept buffer (.ok report) = .fail (.memoryMap .invalidParameter) := by
        by_cases narrow : report.stride.toNat < Descriptor.size
        · exact if_pos narrow
        · have reached : buffer.reach report = .fail .invalidParameter := if_pos (.inl aligned)
          refine (if_neg narrow).trans ?_
          rw [reached]
          rfl
      cases refused.symm.trans judged
      exact .malformed report rfl (.inl aligned)

@[simp] theorem Buffer.length_fill (buffer : Buffer) (reply : Services.MapReply) :
    (buffer.fill reply).bytes.length = buffer.bytes.length := Bytes.length_overlay _ _ _

theorem Flaw.of_fill {reply : Services.MapReply}
    {answer : Outcome Status MapReport} {cause : Cause}
    (flaw : Flaw (buffer.fill reply) answer cause) : Flaw buffer answer cause := by
  cases flaw with
  | tooSmall failed => exact .tooSmall failed
  | failed status failed other => exact .failed status failed other
  | malformed report answered bad =>
    rw [Buffer.length_fill] at bad
    exact .malformed report answered bad

section Retaking

variable {map later : MemoryMap}

theorem Retaking.sound (retaking : Retaking map h (later, .ok ())) :
    ∃ reply report, h = [⟨.memoryMap map.buffer.bytes, reply⟩] ∧
      later = ⟨map.buffer.fill reply, report⟩ ∧ reply.outcome = .ok report ∧
      map.buffer.IsAligned ∧ Sound map.buffer.bytes.length report := by
  cases retaking with
  | taken reply report _ judged =>
    obtain ⟨answered, aligned, sound⟩ := sound_of_accept judged
    rw [Buffer.length_fill] at sound
    exact ⟨reply, report, rfl, rfl, answered, aligned, sound⟩

/-- A sound report is taken up. -/
theorem Retaking.of_sound {o : Outcome Cause Unit} (retaking : Retaking map h (later, o))
    (aligned : map.buffer.IsAligned) {reply : Services.MapReply} {report : MapReport}
    (answered : h = [⟨.memoryMap map.buffer.bytes, reply⟩]) (reported : reply.outcome = .ok report)
    (sound : Sound map.buffer.bytes.length report) : o = .ok () ∧ later.report = report := by
  have alignedStill : (map.buffer.fill reply).IsAligned := aligned
  rw [← Buffer.length_fill map.buffer reply] at sound
  have accepts := accept_of_sound alignedStill sound
  cases retaking with
  | noRoom => cases answered
  | stopped _ _ _ judged =>
    cases answered
    rw [reported, accepts] at judged
    cases judged
  | taken _ _ _ judged =>
    cases answered
    rw [reported, accepts] at judged
    cases judged
    exact ⟨rfl, rfl⟩

theorem Retaking.flaw {cause : Cause} (room : map.buffer.bytes ≠ [])
    (retaking : Retaking map h (later, .fail cause)) :
    ∃ reply, h = [⟨.memoryMap map.buffer.bytes, reply⟩] ∧ Flaw map.buffer reply.outcome cause := by
  cases retaking with
  | noRoom empty => exact absurd empty room
  | stopped reply _ _ judged => exact ⟨reply, rfl, (flaw_of_accept judged).of_fill⟩

theorem Retaking.room (retaking : Retaking map h (later, .ok ())) : later.buffer.bytes ≠ [] := by
  cases retaking with
  | taken reply report room =>
    rw [← List.length_pos_iff, Buffer.length_fill]
    exact List.length_pos_iff.mpr room

theorem Retaking.of_empty {result : MemoryMap × Outcome Cause Unit}
    (retaking : Retaking map h result) (empty : map.buffer.bytes = []) :
    h = [] ∧ result = (map, .fail .bufferTooSmall) := by
  cases retaking with
  | noRoom => exact ⟨rfl, rfl⟩
  | stopped _ _ room | taken _ _ room => exact absurd empty room

end Retaking

end EfiLoader.MemoryMap
