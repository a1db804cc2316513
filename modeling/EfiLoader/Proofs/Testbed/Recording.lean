import EfiLoader.Proofs.Execution
import EfiLoader.Proofs.MemoryMap.Lifetime
import EfiLoader.Proofs.MemoryMap.Recording
import EfiLoader.Proofs.Testbed.Answers
import EfiLoader.Proofs.Testbed.Files

/-!
Saving the listing of a map on firmware in memory, whose writes may start to fail at any point. Main
statement: the file has the lines of the writes before that point and nothing else
(`listing_recorded`).
-/

namespace EfiLoader

namespace MemoryMap.Listing

@[simp] theorem length_texts (map : MemoryMap) : (texts map).length = map.length + 1 := by
  simp [texts, lines]

/-- Each line has the number of its descriptor. -/
theorem linesFrom_map_range' (index count : Nat) (descriptor : Nat → Descriptor) :
    linesFrom index ((List.range' index count).map descriptor) =
      (List.range' index count).map fun i => Bytes.utf8 (line i (descriptor i)) := by
  induction count generalizing index with
  | zero => rfl
  | succ count ih => rw [List.range'_succ, List.map_cons, linesFrom, ih, List.map_cons]

theorem lines_eq (map : MemoryMap) :
    lines map = (List.range map.length).map fun i =>
      Bytes.utf8 (line i (Descriptor.read map.buffer.bytes (i * map.report.stride.toNat))) := by
  rw [lines, descriptors, List.range_eq_range']
  exact linesFrom_map_range' _ _ _

end MemoryMap.Listing

namespace Testbed.MemoryFirmware

open Boot (Cause)
open MemoryMap
open Services (File)

variable {firmware : MemoryFirmware} {file : File}

/-- Those of the texts that can be written before writes fail. -/
def letThrough (firmware : MemoryFirmware) (texts : List Bytes) : List Bytes :=
  match firmware.writesBeforeFailure with
  | none => texts
  | some (count, _) => texts.take count

/-- What writing the texts ends with. -/
def writesEnd (firmware : MemoryFirmware) (texts : List Bytes) : Outcome Cause Unit :=
  match firmware.writesBeforeFailure with
  | none => .ok ()
  | some (count, status) => if texts.length ≤ count then .ok () else .fail (.io status)

/-- The firmware after several writes to a file. -/
@[simps] def wroteAll (firmware : MemoryFirmware) (file : File) (texts : List Bytes) :
    MemoryFirmware :=
  { firmware with
    writesBeforeFailure := firmware.writesBeforeFailure.map fun (count, status) =>
      (count - texts.length, status)
    files := texts.foldl (·.write file ·) firmware.files }

theorem wroteAll_nil : firmware.wroteAll file [] = firmware := by simp [wroteAll]

theorem wroteAll_cons (text : Bytes) (rest : List Bytes) :
    firmware.wroteAll file (text :: rest) = (firmware.wrote file text).wroteAll file rest := by
  simp [wroteAll, wrote, Function.comp_def, Nat.sub_sub, Nat.add_comm]

theorem letThrough_nil : firmware.letThrough [] = [] := by
  rcases left : firmware.writesBeforeFailure with _ | ⟨count, status⟩ <;> simp [letThrough, left]

theorem writesEnd_nil : firmware.writesEnd [] = .ok () := by
  rcases left : firmware.writesBeforeFailure with _ | ⟨count, status⟩ <;> simp [writesEnd, left]

/-- A write goes through, or writes fail from now on. -/
theorem run_writeFile_cases (firmware : MemoryFirmware) (file : File) (text : Bytes) :
    (∃ status, firmware.writesBeforeFailure = some (0, status) ∧
      (Services.writeFile file text).run answer firmware = (.fail status, firmware)) ∨
    ((∀ rest, firmware.letThrough (text :: rest) =
        text :: (firmware.wrote file text).letThrough rest) ∧
      (∀ rest, firmware.writesEnd (text :: rest) = (firmware.wrote file text).writesEnd rest) ∧
      (Services.writeFile file text).run answer firmware = (.ok (), firmware.wrote file text)) := by
  rw [run_writeFile]
  rcases left : firmware.writesBeforeFailure with _ | ⟨_ | count, status⟩
  · exact .inr ⟨by simp [letThrough, left], by simp [writesEnd, left], rfl⟩
  · exact .inl ⟨status, rfl, rfl⟩
  · exact .inr ⟨by simp [letThrough, left], by simp [writesEnd, left], rfl⟩

/-- Lines are written until one fails. No line is too long. -/
theorem writeLines_result {index : Nat} {ds : List MemoryMap.Descriptor}
    (bounded : index + ds.length ≤ UInt64.size) :
    (Listing.writeLines file index ds).result answer firmware =
      (firmware.writesEnd (Listing.linesFrom index ds),
        firmware.wroteAll file (firmware.letThrough (Listing.linesFrom index ds))) := by
  induction ds generalizing index firmware with
  | nil => rw [Listing.linesFrom, letThrough_nil, writesEnd_nil, wroteAll_nil]; rfl
  | cons d rest ih =>
    rw [List.length_cons] at bounded
    have small : index < UInt64.size := by omega
    have fits := Listing.line_fits small d
    rw [Listing.writeLines]
    simp only [if_neg (Nat.not_lt.mpr fits)]
    rcases run_writeFile_cases firmware file (Bytes.utf8 (Listing.line index d)) with
      ⟨status, left, answered⟩ | ⟨through, ends, answered⟩
    · rw [Attempt.result_require_bind_failed answered]
      simp [Listing.linesFrom, letThrough, writesEnd, left, wroteAll_nil]
    · rw [Attempt.result_require_bind_ok answered, ih (by omega), Listing.linesFrom, through, ends,
        wroteAll_cons]

theorem write_result {map : MemoryMap} (viewed : map.inspect = .ok map.descriptors) :
    (Listing.write map file).result answer firmware =
      (firmware.writesEnd (Listing.texts map),
        firmware.wroteAll file (firmware.letThrough (Listing.texts map))) := by
  have bounded : 0 + map.descriptors.length ≤ UInt64.size := by
    rw [Nat.zero_add]
    exact map.length_descriptors_le
  rw [Listing.write]
  rcases run_writeFile_cases firmware file (Bytes.utf8 Listing.header) with
    ⟨status, left, answered⟩ | ⟨through, ends, answered⟩
  · rw [Attempt.result_require_bind_failed answered]
    simp [Listing.texts, letThrough, writesEnd, left, wroteAll_nil]
  · rw [Attempt.result_require_bind_ok answered, Services.log, Attempt.result_lift_bind, viewed,
      Attempt.ofOutcome_ok_bind, Listing.texts, through, ends, wroteAll_cons]
    exact writeLines_result bounded

/-- Closing a file changes neither the firmware nor what an attempt ended with. -/
theorem closing_result {ε α : Type} {attempt : Attempt ε α} {o : Outcome ε α}
    {later : MemoryFirmware} (ended : attempt.result answer firmware = (o, later)) (file : File) :
    (do
      let result ← attempt.settle
      Services.closeFile file
      Attempt.ofExcept result : Attempt ε α).result answer firmware = (o, later) := by
  rw [Attempt.result_bind, Attempt.result_settle, ended]
  rcases o with (_ | _) | _ <;> rfl

theorem save_result {map : MemoryMap} (viewed : map.inspect = .ok map.descriptors)
    (isOpen : firmware.exited = false) (path : String) :
    (Listing.save map path).result answer firmware =
      (firmware.writesEnd (Listing.texts map),
        (firmware.created path).wroteAll firmware.files.handles.length
          (firmware.letThrough (Listing.texts map))) := by
  rw [Listing.save, Attempt.result_require_bind_ok (run_createFile isOpen path)]
  exact closing_result (write_result viewed) _

/-- The firmware has a listing with these lines at a path, and its other files as they were. -/
structure Lists (firmware : MemoryFirmware) (path : String) (texts : List Bytes)
    (later : MemoryFirmware) : Prop where
  listing : later.files.volume.contents? path = some texts.flatten
  others : ∀ other, other ≠ path →
    later.files.volume.contents? other = firmware.files.volume.contents? other

theorem lists_save (firmware : MemoryFirmware) (path : String) (texts : List Bytes) :
    firmware.Lists path texts
      ((firmware.created path).wroteAll firmware.files.handles.length texts) where
  listing := (FileTable.AtEnd.create firmware.files path).writeAll texts |>.holds
  others other differs := by
    have atEnd := FileTable.AtEnd.create firmware.files path
    exact (atEnd.contents?_writeAll_of_ne texts differs).trans
      ((Volume.contents?_put _ _ _ _).trans (if_neg differs))

/-- **A listing is recorded exactly, as far as writes succeed**: the header, then a line for each
descriptor in the order in which they lie, in place of whatever the file held. The first write that
fails is told; nothing else can go wrong, since a kept map can be viewed and every line fits. -/
theorem listing_recorded {buffer : MemoryMap.Buffer} {calls : List MemoryMap.Call} {map : MemoryMap}
    (kept : MemoryMap.Kept buffer calls map) (firmware : MemoryFirmware)
    (isOpen : firmware.exited = false) (path : String) {count : Nat} {status : Status}
    (failing : firmware.writesBeforeFailure = some (count, status)) :
    let texts := Bytes.utf8 Listing.header :: (List.range map.length).map fun i =>
      Bytes.utf8 (Listing.line i
        (Descriptor.read map.buffer.bytes (i * map.report.stride.toNat)))
    let run := (Listing.save map path).result answer firmware
    firmware.Lists path (texts.take (min count (map.length + 1))) run.2 ∧
      run.1 = (if map.length + 1 ≤ count then .ok () else .fail (.io status)) ∧
      map.inspect = .ok map.descriptors ∧
      ∀ index d, index < UInt64.size →
        (Bytes.utf8 (Listing.line index d)).length ≤ Listing.lineCapacity := by
  intro texts run
  obtain ⟨aligned, sound⟩ := kept.described
  have viewed : map.inspect = .ok map.descriptors := sound.inspect aligned
  have same : Listing.texts map = texts := congrArg _ (Listing.lines_eq map)
  have through : firmware.letThrough texts = texts.take (min count (map.length + 1)) := by
    rw [letThrough, failing, ← same, ← Listing.length_texts map]
    exact List.take_eq_take_min
  have saved : run = (firmware.writesEnd texts, (firmware.created path).wroteAll
      firmware.files.handles.length (firmware.letThrough texts)) := by
    rw [← same]
    exact save_result viewed isOpen path
  rw [saved, through]
  refine ⟨firmware.lists_save path _, ?_, viewed, fun _ d bounded => Listing.line_fits bounded d⟩
  rw [← same, writesEnd, failing, Listing.length_texts]

/-- Two regions, of which writes fail after the first. -/
theorem listing_recorded_cut :
    let regions : List Descriptor := [⟨7, 0x1000, 0, 2, 0xf⟩, ⟨4, 0x3000, 0, 1, 0xf⟩]
    let buffer : MemoryMap.Buffer := ⟨0x2000, List.replicate 80 0⟩
    let reply : Services.MapReply := ⟨regions.flatMap Descriptor.toBytes, .ok ⟨80, 7, 40, 1⟩⟩
    let map : MemoryMap := ⟨buffer.fill reply, ⟨80, 7, 40, 1⟩⟩
    let firmware : MemoryFirmware :=
      { files := ⟨[("map", Bytes.utf8 "old"), ("other", [1])], []⟩
        writesBeforeFailure := some (2, .ofError 7) }
    let run := (Listing.save map "map").result answer firmware
    MemoryMap.Kept buffer [⟨[⟨.memoryMap buffer.bytes, reply⟩], .ok ()⟩] map ∧
      firmware.exited = false ∧ firmware.writesBeforeFailure = some (2, .ofError 7) ∧
      run.1 = .fail (.io (.ofError 7)) ∧
      run.2.files.volume.contents? "map" = some (Bytes.utf8
        (Listing.header ++ "0, 7, EfiConventionalMemory, 00001000, 2, f\n")) ∧
      run.2.files.volume.contents? "other" = some [1] := by
  intro regions buffer reply map firmware run
  have accepted : MemoryMap.accept (buffer.fill reply) reply.outcome = .ok ⟨80, 7, 40, 1⟩ := by
    decide +kernel
  have kept : MemoryMap.Kept buffer [⟨[⟨.memoryMap buffer.bytes, reply⟩], .ok ()⟩] map :=
    .of_accepted (by decide) accepted
  obtain ⟨lists, ended, _⟩ := listing_recorded kept firmware rfl "map" rfl
  have cut : ¬ map.length + 1 ≤ 2 := by decide
  rw [if_neg cut] at ended
  refine ⟨kept, rfl, rfl, ended, lists.listing.trans ?_, lists.others "other" (by decide)⟩
  decide +kernel

end Testbed.MemoryFirmware

end EfiLoader
