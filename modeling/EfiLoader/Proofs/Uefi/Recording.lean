import EfiLoader.Proofs.Execution
import EfiLoader.Proofs.Testbed.BootVolume
import EfiLoader.Proofs.Testbed.Recording
import EfiLoader.Proofs.Uefi.Files
import EfiLoader.Proofs.Uefi.Serving

/-!
Saving the listing of a map on UEFI. Main statement: a listing that was saved lies over what the
created file was left with, which is nothing if the old file could be opened to be deleted
(`saved_over_leftover`).
-/

namespace EfiLoader

theorem MemoryMap.of_inspect_ok {map : MemoryMap} {ds : List MemoryMap.Descriptor}
    (viewed : map.inspect = .ok ds) : ds = map.descriptors := by
  unfold inspect at viewed
  cases reached : (map.buffer.reach map.report).explain fun _ =>
      Boot.Cause.memoryMap .invalidParameter with
  | error stop =>
    rw [reached] at viewed
    cases viewed
  | ok _ =>
    rw [reached] at viewed
    exact (Except.ok.inj viewed).symm

namespace Uefi

open Boot (Cause)
open MemoryMap
open Testbed (UefiMachine)

variable {σ : Type} {machine : Machine Uefi σ} {name : String}
variable {start later : LoaderState × σ} {handle : File}

/-- Looking for consoles, printing and sending leave files alone. -/
theorem Logs.untouched {request : Request} (logs : Logs request) :
    request.touchesFiles = false := by
  obtain prints | ⟨access, rfl⟩ := logs
  · cases request <;> first | rfl | cases prints
  · rfl

namespace NamedFile

/-- The file stands behind what was written to it since it was created with `leftover`. -/
structure Holding (file : NamedFile machine name) (handle : File) (written leftover : Bytes)
    (state : σ) : Prop where
  position : file.position state handle = some written.length
  contents : file.contents state = some (written ++ leftover.drop written.length)

namespace Holding

variable {file : NamedFile machine name} {written leftover data : Bytes} {state : σ}

theorem write (holding : file.Holding handle written leftover start.2)
    (wrote : (Services.writeFile handle data).run (served machine) start = (.ok (), later)) :
    file.Holding handle (written ++ data) leftover later.2 := by
  have call : (Call.ofReply (ask (.writeFile handle data))).result machine start =
      (.ok (), later) := wrote
  have answered : machine (.writeFile handle data) start.2 = (.ok (), later.2) :=
    Call.of_result_ofReply_ok call
  have within : written.length ≤ (written ++ leftover.drop written.length).length := by simp
  obtain ⟨position, contents⟩ := file.writes holding.position holding.contents within answered
  constructor
  · rw [position, List.length_append]
  · rw [contents, List.take_left, List.drop_append, List.length_append]
    simp [List.drop_drop]

theorem untouched (holding : file.Holding handle written leftover state) {request : Request}
    (others : request.touchesFiles = false) :
    file.Holding handle written leftover (machine request state).2 := by
  obtain ⟨contents, position⟩ := file.others request state others
  exact ⟨by rw [position, holding.position], by rw [contents, holding.contents]⟩

/-- Logging leaves files alone. -/
theorem log (holding : file.Holding handle written leftover start.2) (level : Log.Level)
    (target text : String) :
    file.Holding handle written leftover
      ((Services.log level target text).run (served machine) start).2.2 := by
  have asks : (answer (.log { level, target, text })).Asks Logs :=
    (log_asks _).bind fun _ => .pure _
  exact (asks start.1).run_invariant (fun _ _ logs holding => holding.untouched logs.untouched)
    holding

end Holding

/-- What a listing's lines leave, if all of them could be written. -/
theorem of_writeLines_ok {file : NamedFile machine name} {written leftover : Bytes} {index : Nat}
    {ds : List Descriptor} (holding : file.Holding handle written leftover start.2)
    (ended : (Listing.writeLines handle index ds).result (served machine) start = (.ok (), later)) :
    file.Holding handle (written ++ (Listing.linesFrom index ds).flatten) leftover later.2 := by
  induction ds generalizing index written start with
  | nil =>
    cases ended
    simpa [Listing.linesFrom] using holding
  | cons d rest ih =>
    rw [Listing.writeLines] at ended
    split at ended
    · cases ended
    · obtain ⟨_, wrote, line, lines⟩ := Attempt.of_result_bind_ok ended
      have held := ih (holding.write (Attempt.of_result_require_ok line)) lines
      rwa [List.append_assoc] at held

theorem of_write_ok {file : NamedFile machine name} {leftover : Bytes} {map : MemoryMap}
    (holding : file.Holding handle [] leftover start.2)
    (ended : (Listing.write map handle).result (served machine) start = (.ok (), later)) :
    file.Holding handle (Listing.texts map).flatten leftover later.2 := by
  obtain ⟨_, headed, header, rest⟩ := Attempt.of_result_bind_ok ended
  have first := holding.write (Attempt.of_result_require_ok header)
  rw [Services.log, Attempt.result_lift_bind] at rest
  have noted := first.log .debug Listing.target
    ("map->buffer = " ++ Numeral.wideAddress map.buffer.address.toNat
      ++ ", map->map_size = " ++ Numeral.wideAddress map.report.size.toNat)
  obtain ⟨ds, viewed, viewing, lines⟩ := Attempt.of_result_bind_ok rest
  have listed : map.inspect = .ok ds := congrArg Prod.fst viewing
  have same : _ = viewed := congrArg Prod.snd viewing
  rw [← same] at lines
  have held := of_writeLines_ok noted lines
  rw [of_inspect_ok listed] at held
  exact held

/-- A listing that was saved was written to a created file, which was then closed. -/
theorem of_save_ok (file : NamedFile machine name) {map : MemoryMap}
    (ended : (Listing.save map name).result (served machine) start = (.ok (), later)) :
    ∃ opened created wrote, (createFile name).result machine start = (.ok opened, created) ∧
      (Listing.write map opened).result (served machine) created = (.ok (), wrote) ∧
      file.contents later.2 = file.contents wrote.2 := by
  obtain ⟨opened, created, creating, rest⟩ := Attempt.of_result_bind_ok ended
  obtain ⟨written, wrote, settling, rest⟩ := Attempt.of_result_bind_ok rest
  rw [Services.closeFile, Attempt.result_lift_bind, Attempt.result_ofExcept] at rest
  obtain ⟨ends, rfl⟩ := Prod.mk.inj rest
  refine ⟨opened, created, wrote, Attempt.of_result_require_ok creating, ?_, file.closes _ _⟩
  rw [Attempt.result_settle] at settling
  rcases result : (Listing.write map opened).result (served machine) created with
    ⟨(cause | _) | _, last⟩
  all_goals
    rw [result] at settling
    cases settling
  · cases ends
  · rfl

/-- **A created file is empty at its start if the old file could be opened to be deleted; if it
could not, the created file still holds what the old one held.** A listing that was saved over it
then ends in the old file's tail, which is nothing unless the old file was longer. -/
theorem saved_over_leftover (file : NamedFile machine name) (map : MemoryMap)
    (start : LoaderState × σ) :
    let leftover := match ((openRegular name .readWrite).result machine start).1 with
      | .ok _ => []
      | .error _ => (file.contents start.2).getD []
    let dump := (Listing.texts map).flatten
    (∀ opened created, (createFile name).result machine start = (.ok opened, created) →
      file.position created.2 opened = some 0 ∧ file.contents created.2 = some leftover) ∧
    ∀ later, (Listing.save map name).result (served machine) start = (.ok (), later) →
      file.contents later.2 = some (dump ++ leftover.drop dump.length) := by
  intro leftover dump
  refine ⟨fun opened created creating => file.of_createFile_ok creating, fun later saved => ?_⟩
  obtain ⟨opened, created, wrote, creating, writing, closed⟩ := file.of_save_ok saved
  obtain ⟨position, contents⟩ := file.of_createFile_ok creating
  have begun : file.Holding opened [] leftover created.2 := ⟨position, contents⟩
  rw [closed]
  exact (of_write_ok begun writing).contents

/-- The one failure of a first attempt to open the old file leaves its tail behind the listing. -/
theorem saved_over_leftover_refused :
    let map : MemoryMap := ⟨⟨0x2000, Descriptor.toBytes ⟨7, 0x1000, 0, 2, 0xf⟩⟩, ⟨40, 7, 40, 1⟩⟩
    let machine : UefiMachine :=
      { files := [("memmap", List.replicate 200 120)], script := [(.open, [.status (.ofError 7)])] }
    let created := (createFile "memmap").result UefiMachine.answer ({}, machine)
    let saved := (Listing.save map "memmap").result (served UefiMachine.answer) ({}, machine)
    created.1 = .ok 0 ∧
      UefiMachine.contentsOf "memmap" created.2.2 = some (List.replicate 200 120) ∧
      saved.1 = .ok () ∧ UefiMachine.contentsOf "memmap" saved.2.2 = some
        (Bytes.utf8 (Listing.header ++ "0, 7, EfiConventionalMemory, 00001000, 2, f\n") ++
          List.replicate 91 120) := by
  intro map machine created saved
  have refused : ((openRegular "memmap" .readWrite).result UefiMachine.answer ({}, machine)).1 =
      .error (.failed (.ofError 7)) := by decide +kernel
  have opened : created.1 = .ok 0 := by decide +kernel
  have ended : saved.1 = .ok () := by decide +kernel
  obtain ⟨creating, saving⟩ := saved_over_leftover (UefiMachine.named "memmap") map ({}, machine)
  rw [refused] at creating saving
  have kept := (creating 0 created.2 (by rw [← opened])).2
  have listing := saving saved.2 (by rw [← ended])
  have left : UefiMachine.contentsOf "memmap" machine = some (List.replicate 200 120) := by
    decide +kernel
  simp only [UefiMachine.named_contents, left, Option.getD_some] at kept listing
  refine ⟨opened, kept, ended, listing.trans ?_⟩
  decide +kernel

end NamedFile

end Uefi

end EfiLoader
