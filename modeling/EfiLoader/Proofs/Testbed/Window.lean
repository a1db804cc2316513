import EfiLoader.Proofs.Testbed.Launch

/-!
Requests for pages that firmware in memory does not have, from single calls and from loads of
kernels. The firmware refuses those whose end is an address; it crashes where the end is past the
last one, which the pages of an accepted kernel may just reach. Main statement: `outside_refused`.
-/

namespace EfiLoader.Testbed.MemoryFirmware

open Boot (Cause)
open Kernel (Executable Fits Span pageSize wordLimit)

variable {firmware : MemoryFirmware}

/-- What a request for pages outside the memory comes to, told as the caller tells it. -/
def refusal {ε α : Type} (last : Nat) (cause : Status → ε) : Outcome ε α :=
  if last < wordLimit then .fail (cause .notFound) else .crash

theorem run_allocatePages_outside {address : UInt64} {count : Nat}
    (isOpen : firmware.exited = false)
    (outside : ¬ firmware.physical.HasPages address.toNat (address.toNat + count * pageSize)) :
    (Services.allocatePages address count).run answer firmware =
      (refusal (address.toNat + count * pageSize) id, firmware.requested address count) := by
  have busy : ¬ firmware.physical.isFree firmware.reserved address.toNat
      (address.toNat + count * pageSize) = true :=
    fun free => outside (Area.isFree_iff.mp free).1
  rw [run_allocatePages isOpen, refusal]
  by_cases ends : address.toNat + count * pageSize < wordLimit
  · simp only [if_neg (Nat.not_le.mpr ends), if_neg busy, if_pos ends, id]
  · simp only [if_pos (Nat.not_lt.mp ends), if_neg ends]

variable {path : String} {file : Bytes} {kernel : Executable} {span : Span} {pages : Nat}

theorem placeFile_outside (isOpen : firmware.exited = false) (fits : Fits file kernel span pages)
    (outside : ¬ firmware.physical.HasPages span.base.toNat
      (span.base.toNat + pages * pageSize)) :
    (Kernel.placeFile file).result answer firmware =
      (refusal (span.base.toNat + pages * pageSize) Cause.addressRangeUnavailable,
        firmware.requested span.base pages) := by
  have asked := run_allocatePages_outside isOpen outside
  unfold Kernel.placeFile
  simp only [fits.parsed, fits.spanned, fits.counted, Outcome.mapError_ok,
    Attempt.ofExcept_ok_bind, Attempt.ofOutcome_ok_bind]
  rw [refusal] at asked ⊢
  by_cases ends : span.base.toNat + pages * pageSize < wordLimit
  · rw [if_pos ends] at asked ⊢
    rw [Attempt.result_reply_bind_failed asked]
    dsimp only
    rw [Services.log, Attempt.result_lift_bind]
    rfl
  · rw [if_neg ends] at asked ⊢
    exact Attempt.result_reply_bind_crash asked

/-- The firmware after a load for which it had no pages. -/
structure Unplaced (firmware : MemoryFirmware) (last : Nat) (later : MemoryFirmware) : Prop where
  reserved : later.reserved = firmware.reserved
  physical : later.physical = firmware.physical
  released : last < wordLimit → later.pool.Perm firmware.pool
  /-- A crash leaves the block of the file behind. -/
  kept : wordLimit ≤ last → later.pool = firmware.pool ++ [blockAddress firmware.blockCount]

theorem load_outside (isOpen : firmware.exited = false) (can : firmware.CanStage path file)
    (fits : Fits file kernel span pages)
    (outside : ¬ firmware.physical.HasPages span.base.toNat
      (span.base.toNat + pages * pageSize)) :
    ∃ later, (Kernel.load path).result answer firmware =
        (refusal (span.base.toNat + pages * pageSize) Cause.addressRangeUnavailable, later) ∧
      firmware.Unplaced (span.base.toNat + pages * pageSize) later := by
  have placing := @placeFile_outside (firmware.reading path file.length) file kernel span pages
    (by simpa [reading] using isOpen) fits (by simpa [reading] using outside)
  have ended := load_of_placeFile isOpen can placing (by simpa [reading] using isOpen) rfl
  refine ⟨_, ended, ?_⟩
  -- After a refusal the loader frees the block; a crash leaves no one to do so.
  rw [refusal]
  by_cases ends : span.base.toNat + pages * pageSize < wordLimit
  · have failed : (.fail (.addressRangeUnavailable .notFound) : Outcome Cause Kernel.Loaded) ≠
        .crash := fun same => by cases same
    rw [if_pos ends, if_neg failed]
    refine ⟨by simp [reading], by simp [reading], fun _ => ?_, fun past => absurd past ?_⟩
    · simpa [reading] using perm_erase_append firmware.pool _
    · exact Nat.not_le.mpr ends
  · rw [if_neg ends, if_pos rfl]
    exact ⟨by simp [reading], by simp [reading], fun before => absurd before ends,
      fun _ => by simp [reading]⟩

/-- **Pages outside the memory are never granted.** A request for such pages is refused, and so is a
load of an accepted kernel that is linked there, with its block released. Both crash if the end of
the pages does not fit in a word. Of a kernel's pages that is so only if they reach the very end of
the address space. -/
theorem outside_refused (isOpen : firmware.exited = false) :
    (∀ (address : UInt64) (count : Nat),
      ¬ firmware.physical.HasPages address.toNat (address.toNat + count * pageSize) →
        (Services.allocatePages address count).run answer firmware =
          (if address.toNat + count * pageSize < wordLimit then .fail .notFound else .crash,
            firmware.requested address count)) ∧
    ∀ path file kernel, firmware.CanStage path file → Executable.parse file = .ok kernel →
      kernel.segments ≠ [] →
      ∃ span pages, Fits file kernel span pages ∧
        span.base.toNat + pages * pageSize ≤ wordLimit ∧
        (¬ firmware.physical.HasPages span.base.toNat (span.base.toNat + pages * pageSize) →
          ∃ later, (Kernel.load path).result answer firmware =
              (if span.base.toNat + pages * pageSize < wordLimit then
                .fail (.addressRangeUnavailable .notFound) else .crash, later) ∧
            firmware.Unplaced (span.base.toNat + pages * pageSize) later) := by
  refine ⟨fun address count => run_allocatePages_outside isOpen,
    fun path file kernel can parsed some => ?_⟩
  rcases Kernel.exists_fits parsed with ⟨nil, _⟩ | ⟨span, pages, fits⟩
  · exact absurd nil some
  · exact ⟨span, pages, fits, fits.end_le, load_outside isOpen can fits⟩

/-- A kernel in the last page of the address space. -/
def topmost : Bytes := Kernel.image 0x100010 [⟨120, 0xfffffffffffff010, 1, 4⟩] [0xf4]

/-- One kernel below the memory, and one whose pages end where the address space does. -/
theorem outside_refused_topmost :
    let firmware : MemoryFirmware :=
      { files := ⟨[("low", Kernel.overlapping), ("top", topmost)], []⟩
        physical := ⟨0x200000, List.replicate 0x1000 0xcc⟩ }
    firmware.exited = false ∧
      (Services.allocatePages 0x100000 1).run answer firmware =
        (.fail .notFound, firmware.requested 0x100000 1) ∧
      (Services.allocatePages 0xfffffffffffff000 1).run answer firmware =
        (.crash, firmware.requested 0xfffffffffffff000 1) ∧
      (∃ later, (Kernel.load "low").result answer firmware =
          (.fail (.addressRangeUnavailable .notFound), later) ∧ later.pool = []) ∧
      ∃ later, (Kernel.load "top").result answer firmware = (.crash, later) ∧
        later.pool = [blockAddress 0] := by
  intro firmware
  have limit : firmware.physical.limit = 0x201000 := by
    rw [Area.limit, List.length_replicate]
  have below : ¬ firmware.physical.HasPages 0x100000 0x101000 := fun pages =>
    absurd pages.above (by decide)
  have above : ¬ firmware.physical.HasPages 0xfffffffffffff000 0x10000000000000000 := fun pages =>
    absurd pages.below (by rw [limit]; decide)
  have lowParsed : Executable.parse Kernel.overlapping = .ok ⟨Kernel.overlapping, 0x100010,
      [⟨176, 0x100010, 6, 8⟩, ⟨182, 0x100014, 1, 2⟩]⟩ := by cbv
  have topParsed : Executable.parse topmost = .ok ⟨topmost, 0x100010,
      [⟨120, 0xfffffffffffff010, 1, 4⟩]⟩ := by decide +kernel
  have lowCan : firmware.CanStage "low" Kernel.overlapping :=
    ⟨by decide +kernel, (fun _ limited => by cases limited), rfl, by decide +kernel⟩
  have topCan : firmware.CanStage "top" topmost :=
    ⟨by decide +kernel, (fun _ limited => by cases limited), rfl, by decide +kernel⟩
  obtain ⟨asks, loads⟩ := @outside_refused firmware rfl
  have refused := asks 0x100000 1 below
  have crashed := asks 0xfffffffffffff000 1 above
  rw [if_pos (by decide)] at refused
  rw [if_neg (by decide)] at crashed
  refine ⟨rfl, refused, crashed, ?_, ?_⟩
  · obtain ⟨span, pages, fits, _, unplaced⟩ := loads _ _ _ lowCan lowParsed (List.cons_ne_nil _ _)
    obtain rfl : ⟨0x100010, 0x100018⟩ = span := Option.some.inj (Except.ok.inj fits.spanned)
    obtain rfl : 1 = pages := Except.ok.inj fits.counted
    have base : (⟨0x100010, 0x100018⟩ : Span).base.toNat = 0x100000 := by decide +kernel
    rw [base] at unplaced
    obtain ⟨later, ended, unplaced⟩ := unplaced below
    exact ⟨later, ended, (unplaced.released (by decide)).eq_nil⟩
  · obtain ⟨span, pages, fits, _, unplaced⟩ := loads _ _ _ topCan topParsed (List.cons_ne_nil _ _)
    obtain rfl : ⟨0xfffffffffffff010, 0xfffffffffffff014⟩ = span :=
      Option.some.inj (Except.ok.inj fits.spanned)
    obtain rfl : 1 = pages := Except.ok.inj fits.counted
    have base : (⟨0xfffffffffffff010, 0xfffffffffffff014⟩ : Span).base.toNat =
        0xfffffffffffff000 := by decide +kernel
    rw [base] at unplaced
    obtain ⟨later, ended, unplaced⟩ := unplaced above
    exact ⟨later, ended, unplaced.kept (by decide)⟩

end EfiLoader.Testbed.MemoryFirmware
