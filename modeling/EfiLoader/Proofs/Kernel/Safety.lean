import EfiLoader.Proofs.Firmware
import EfiLoader.Proofs.Kernel.Loading

/-!
No kernel file makes the loader crash. What a crash would need is a call that does not come back, or
pages granted past the end of the address space; nothing that a file holds and no status does it.
-/

namespace EfiLoader

/-- Pages are granted only where their end is an address. -/
def Services.GrantEnds : (request : Request) → Reply request → Prop
  | .allocatePages address count, reply => ∀ destination, reply = .ok destination →
    address.toNat + count * Kernel.pageSize < Kernel.wordLimit
  | _, _ => True

/-- The call came back, and pages that it granted end in the address space. -/
structure Exchange.Lawful (e : Exchange Services) : Prop where
  returned : e.Returned
  grantEnds : Services.GrantEnds e.request e.reply

namespace Kernel

open Boot (Cause)

variable {h : List (Exchange Services)}

theorem Staging.crash_cause {file : Services.File} (staging : Staging file h .crash) :
    ∃ e ∈ h, ¬ e.Lawful := by
  cases staging with
  | sizeCrashed => exact ⟨_, List.mem_singleton_self _, fun lawful => lawful.returned rfl⟩
  | poolCrashed size =>
    exact ⟨⟨.allocatePool size, .crash⟩, by simp, fun lawful => lawful.returned rfl⟩
  | readCrashed size block =>
    exact ⟨⟨.readFile file size, .crash⟩, by simp, fun lawful => lawful.returned rfl⟩
  | freeCrashed size block =>
    exact ⟨⟨.freePool block.address, .crash⟩, by simp, fun lawful => lawful.returned rfl⟩

theorem Placing.crash_cause {file : Bytes} (placing : Placing file h .crash) :
    ∃ e ∈ h, ¬ e.Lawful := by
  cases placing with
  | grantCrashed fits => exact ⟨_, List.mem_singleton_self _, fun lawful => lawful.returned rfl⟩
  | tooLarge fits destination large =>
    refine ⟨_, List.mem_singleton_self _, fun lawful => ?_⟩
    have bounded := lawful.grantEnds destination rfl
    omega

theorem Loading.crash_cause {path : String} (loading : Loading path h .crash) :
    ∃ e ∈ h, ¬ e.Lawful := by
  cases loading with
  | openCrashed => exact ⟨_, List.mem_singleton_self _, fun lawful => lawful.returned rfl⟩
  | stagingCrashed crashed =>
    obtain ⟨e, he, unlawful⟩ := crashed.crash_cause
    exact ⟨e, by simp [he], unlawful⟩
  | placingCrashed _ crashed =>
    obtain ⟨e, he, unlawful⟩ := crashed.crash_cause
    exact ⟨e, by simp [he], unlawful⟩
  | @freeCrashed _ _ _ staged =>
    exact ⟨⟨.freePool staged.block, .crash⟩, by simp, fun lawful => lawful.returned rfl⟩

/-- Everything that is computed of an accepted kernel stays in the word, and every part of the file
and of the granted memory that a segment takes exists. -/
structure InRange (file : Bytes) (kernel : Executable) (span : Span) (pages : Nat) : Prop
    extends Fits file kernel span pages where
  sizes : ∀ s ∈ kernel.segments, s.fileSize ≤ s.memorySize
  inWord : ∀ s ∈ kernel.segments, s.address.toNat + s.memorySize.toNat < wordLimit
  inFile : ∀ s ∈ kernel.segments, s.fileOffset.toNat + s.fileSize.toNat ≤ file.length
  fromBase : ∀ s ∈ kernel.segments, span.base ≤ s.address
  inPages : ∀ s ∈ kernel.segments,
    s.address.toNat - span.base.toNat + s.memorySize.toNat ≤ pages * pageSize

theorem Fits.inRange {file : Bytes} {kernel : Executable} {span : Span} {pages : Nat}
    (fits : Fits file kernel span pages) : InRange file kernel span pages := by
  obtain ⟨elf, reads⟩ := Executable.parse_reads fits.parsed
  refine ⟨fits, fun s hs => (reads.valid s hs).sizes, fun s hs => (reads.valid s hs).memory,
    fun s hs => (reads.valid s hs).file, fun s hs => ?_, fun s hs => ?_⟩
  · have first := UInt64.le_iff_toNat_le.mp (fits.encloses s hs).first_le
    exact UInt64.le_iff_toNat_le.mpr (Nat.le_trans span.base_le_first first)
  · have last := (fits.encloses s hs).le_last
    have reaching := fits.reaching
    have first := UInt64.le_iff_toNat_le.mp (fits.encloses s hs).first_le
    have base := span.base_le_first
    rw [Segment.memoryEnd] at last
    omega

/-- Grants all pages that end in the address space. -/
def grantBounded (address : UInt64) (count : Nat) : Outcome Status UInt64 :=
  if address.toNat + count * pageSize < wordLimit then .ok address else .fail .outOfResources

theorem grantBounded_cases (address : UInt64) (count : Nat) :
    (address.toNat + count * pageSize < wordLimit ∧ grantBounded address count = .ok address) ∨
      grantBounded address count = .fail .outOfResources := by
  by_cases ends : address.toNat + count * pageSize < wordLimit
  · exact .inl ⟨ends, if_pos ends⟩
  · exact .inr (if_neg ends)

/-- Firmware that grants no other pages. -/
def cautious (file : Bytes) : Firmware := { file, grant := grantBounded }

/-- The program header table entry of a loadable segment. -/
def Segment.header (s : Segment) : Bytes :=
  Bytes.ofNatLE 4 headerLoadable ++ Bytes.ofNatLE 4 7 ++ Bytes.ofNatLE 8 s.fileOffset.toNat
    ++ Bytes.ofNatLE 8 s.address.toNat ++ Bytes.ofNatLE 8 s.address.toNat
    ++ Bytes.ofNatLE 8 s.fileSize.toNat ++ Bytes.ofNatLE 8 s.memorySize.toNat
    ++ Bytes.ofNatLE 8 pageSize

/-- An executable that loads these segments; `data` follows its headers. -/
def image (entry : UInt64) (segments : List Segment) (data : Bytes) : Bytes :=
  [0x7f, 0x45, 0x4c, 0x46, 2, 1, 1] ++ List.replicate 9 0
    ++ Bytes.ofNatLE 2 typeExecutable ++ Bytes.ofNatLE 2 machineX86_64 ++ Bytes.ofNatLE 4 1
    ++ Bytes.ofNatLE 8 entry.toNat ++ Bytes.ofNatLE 8 64 ++ Bytes.ofNatLE 8 0 ++ Bytes.ofNatLE 4 0
    ++ Bytes.ofNatLE 2 64 ++ Bytes.ofNatLE 2 56 ++ Bytes.ofNatLE 2 segments.length
    ++ List.replicate 6 0 ++ segments.flatMap Segment.header ++ data

theorem cautious_lawful (file : Bytes) (request : Services.Request) (state : Unit) :
    Exchange.Lawful ⟨request, ((cautious file).serve request state).1⟩ := by
  cases request with
  | allocatePages address count =>
    rcases grantBounded_cases address count with ⟨ends, granted⟩ | refused
    · refine ⟨?_, fun _ _ => ends⟩
      change Except.map _ (grantBounded address count) ≠ _
      rw [granted]
      exact nofun
    · constructor
      · change Except.map _ (grantBounded address count) ≠ _
        rw [refused]
        exact nofun
      · intro destination granted
        cases refused.symm.trans granted
  | _ => exact ⟨nofun, True.intro⟩

/-- **No file and no replies make loading crash**, as long as calls come back and granted pages end
in the address space. What an accepted file has in its headers is in range wherever it is used. -/
theorem load_never_crashes {σ : Type} (machine : Machine Services σ) (state : σ) (path : String)
    (lawful : ∀ e ∈ (load path).history machine state, e.Lawful) :
    ((∃ loaded, (load path).outcome machine state = .ok loaded) ∨
      ∃ cause, (load path).outcome machine state = .fail cause) ∧
    ∀ file kernel, Executable.parse file = .ok kernel →
      (kernel.segments = [] ∧ (kernel.span : Outcome Cause (Option Span)) = .ok none) ∨
        ∃ span pages, InRange file kernel span pages := by
  constructor
  · have loading := loading_of_yields ((load path).yields_outcome machine state)
    rcases result : (load path).outcome machine state with (cause | _) | loaded
    · exact .inr ⟨cause, rfl⟩
    · rw [result] at loading
      obtain ⟨e, he, unlawful⟩ := Loading.crash_cause loading
      exact absurd (lawful e he) unlawful
    · exact .inl ⟨loaded, rfl⟩
  · intro file kernel parsed
    rcases exists_fits parsed with nothing | ⟨span, pages, fits⟩
    · exact .inl nothing
    · exact .inr ⟨span, pages, fits.inRange⟩

/-- A file that is accepted with a segment up to the last address but one. -/
def towering : Bytes :=
  image 0x100010 [⟨0, 0x100010, 4, 8⟩, ⟨176, 0xfffffffffffffffe, 1, 1⟩] [0xf4]

theorem load_towering :
    (∀ e ∈ (load "kernel").history (cautious towering).serve (), e.Lawful) ∧
    ((∃ loaded, (load "kernel").outcome (cautious towering).serve () = .ok loaded) ∨
      ∃ cause, (load "kernel").outcome (cautious towering).serve () = .fail cause) ∧
    ∃ kernel span pages, kernel.segments.length = 2 ∧ InRange towering kernel span pages := by
  have lawful : ∀ e ∈ (load "kernel").history (cautious towering).serve (), e.Lawful :=
    Program.forall_mem_history (cautious_lawful towering) _ _
  have parsed : Executable.parse towering =
      .ok ⟨towering, 0x100010, [⟨0, 0x100010, 4, 8⟩, ⟨176, 0xfffffffffffffffe, 1, 1⟩]⟩ := by cbv
  obtain ⟨ends, computes⟩ := load_never_crashes (cautious towering).serve () "kernel" lawful
  refine ⟨lawful, ends, ?_⟩
  rcases computes _ _ parsed with ⟨nothing, _⟩ | ⟨span, pages, inRange⟩
  · cases nothing
  · exact ⟨_, span, pages, rfl, inRange⟩

end Kernel

end EfiLoader
