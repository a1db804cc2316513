import EfiLoader.Proofs.Testbed.Keys
import EfiLoader.Proofs.Testbed.Loading

/-!
What an answer of firmware in memory does to its files, its memory and the ranges that are taken.
All of it can be told from the request and the reply, so what has become of them after a run can be
read off the history. Main statement: `follows_answer`.
-/

namespace EfiLoader

/-- The pages that a call granted, as a range without its end. -/
def Exchange.granted : Exchange Services → List (Nat × Nat)
  | ⟨.allocatePages _ count, .ok destination⟩ =>
    [(destination.toNat, destination.toNat + count * Kernel.pageSize)]
  | _ => []

namespace Testbed

/-- The files after a call. -/
def FileTable.after (table : FileTable) : Exchange Services → FileTable
  | ⟨.openFile path, .ok _⟩ => (table.openAt path).2
  | ⟨.createFile path, .ok _⟩ => ((table.put path []).openAt path).2
  | ⟨.readFile file _, .ok reply⟩ => table.advance file reply.data.length
  | ⟨.writeFile file data, .ok _⟩ => table.write file data
  | _ => table

/-- The memory after a call. -/
def Area.after (area : Area) : Exchange Services → Area
  | ⟨.store address data, _⟩ => area.store address.toNat data
  | ⟨.fill address count value, _⟩ => area.fill address.toNat count.toNat value
  | _ => area

theorem Area.range_after (area : Area) (e : Exchange Services) :
    (area.after e).base = area.base ∧ (area.after e).limit = area.limit := by
  unfold Area.after
  split
  · exact area.range_store _ _
  · exact area.range_store _ _
  · exact ⟨rfl, rfl⟩

namespace MemoryFirmware

variable {firmware : MemoryFirmware}

theorem isOpen_of_allocating {α : Type} {call : StateM MemoryFirmware (Outcome Status α)}
    {value : α} (replied : ((allocating call).run firmware).1 = .ok value) :
    firmware.exited = false := by
  cases state : firmware.exited with
  | false => rfl
  | true =>
    rw [allocating_of_exited state] at replied
    cases replied

/-- A call made of the one firmware the other, as far as files and memory go. -/
structure Follows (firmware : MemoryFirmware) (e : Exchange Services) (later : MemoryFirmware) :
    Prop where
  files : later.files = firmware.files.after e
  readLimit : later.readLimit = firmware.readLimit
  reserved : later.reserved = firmware.reserved ++ e.granted
  physical : later.physical = firmware.physical.after e

/-- A call that crashed did nothing to them. -/
theorem follows_self {e : Exchange Services} (crashed : e.verdict = .crash) :
    firmware.Follows e firmware := by
  constructor
  · unfold FileTable.after
    split <;> first | rfl | cases crashed
  · rfl
  · unfold Exchange.granted
    split
    · cases crashed
    · exact (List.append_nil _).symm
  · unfold Area.after
    split <;> first | rfl | cases crashed

theorem follows_answer_of_open (isOpen : firmware.exited = false) {request : Services.Request}
    (service : request.isService = true) :
    firmware.Follows ⟨request, (answer request firmware).1⟩ (answer request firmware).2 := by
  have nothing : firmware.reserved = firmware.reserved ++ [] := (List.append_nil _).symm
  cases request with
  | fileSize | readFile | writeFile | closeFile | store | fill | log => cases service
  | memoryMap buffer =>
    have run : answer (.memoryMap buffer) firmware = _ := run_memoryMap isOpen buffer
    rw [run]
    dsimp only
    repeat' split
    all_goals exact ⟨rfl, rfl, nothing, rfl⟩
  | openFile path =>
    have run : answer (.openFile path) firmware = _ := run_openFile isOpen path
    rw [run]
    split <;> exact ⟨rfl, rfl, nothing, rfl⟩
  | createFile path =>
    have run : answer (.createFile path) firmware = _ := run_createFile isOpen path
    rw [run]
    exact ⟨rfl, rfl, nothing, rfl⟩
  | allocatePool size =>
    have run : answer (.allocatePool size) firmware = _ := run_allocatePool isOpen size
    rw [run]
    repeat' split
    all_goals exact ⟨rfl, rfl, nothing, rfl⟩
  | freePool block =>
    have run : answer (.freePool block) firmware = _ := run_freePool isOpen block
    rw [run]
    split <;> exact ⟨rfl, rfl, nothing, rfl⟩
  | allocatePages address count =>
    have run : answer (.allocatePages address count) firmware = _ :=
      run_allocatePages isOpen address count
    rw [run]
    dsimp only
    split
    · exact ⟨rfl, rfl, nothing, rfl⟩
    split
    · exact ⟨rfl, rfl, rfl, rfl⟩
    · exact ⟨rfl, rfl, nothing, rfl⟩
  | graphicsMode =>
    have run : answer .graphicsMode firmware = _ := run_graphicsMode isOpen
    rw [run]
    exact ⟨rfl, rfl, nothing, rfl⟩
  | exitBootServices key =>
    have run : answer (.exitBootServices key) firmware = _ := run_exitBootServices isOpen key
    rw [run]
    repeat' split
    all_goals exact ⟨rfl, rfl, nothing, rfl⟩

theorem follows_answer (firmware : MemoryFirmware) (request : Services.Request) :
    firmware.Follows ⟨request, (answer request firmware).1⟩ (answer request firmware).2 := by
  have nothing : firmware.reserved = firmware.reserved ++ [] := (List.append_nil _).symm
  cases service : request.isService with
  | true =>
    cases state : firmware.exited with
    | true =>
      obtain ⟨crashed, same⟩ := answer_of_exited state service
      rw [same]
      exact follows_self crashed
    | false => exact follows_answer_of_open state service
  | false =>
    -- Open files, memory and the log work after the exit as before it.
    cases request with
    | fileSize | closeFile | store | fill | log => exact ⟨rfl, rfl, nothing, rfl⟩
    | readFile file count =>
      have run : answer (.readFile file count) firmware = _ := run_readFile file count
      rw [run]
      split <;> exact ⟨rfl, rfl, nothing, rfl⟩
    | writeFile file data =>
      have run : answer (.writeFile file data) firmware = _ := run_writeFile file data
      rw [run]
      split <;> exact ⟨rfl, rfl, nothing, rfl⟩
    | _ => cases service

end MemoryFirmware

end Testbed

end EfiLoader
