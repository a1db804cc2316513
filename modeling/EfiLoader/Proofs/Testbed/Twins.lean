import EfiLoader.Proofs.Agreement
import EfiLoader.Proofs.Boot.Resources
import EfiLoader.Proofs.Testbed.Answers
import EfiLoader.Proofs.Testbed.Files

/-!
Two firmwares with the same memory and, but for one that is set aside, the same files. Their keys
and screens may differ, and so may the numbers of their open files. Main statement: a kernel that is
not at the path set aside is loaded alike (`Alike.load`).
-/

namespace EfiLoader.Testbed

open Boot (Cause)
open Services (File)

namespace FileTable

/-- The same files, but for the one that is set aside. -/
def SameFiles (aside : String) (table twin : FileTable) : Prop :=
  ∀ path, path ≠ aside → twin.volume.contents? path = table.volume.contents? path

/-- Moreover both tables have a file open at the same place, each by a number of its own. -/
structure SameReading (aside path : String) (number twinNumber : File) (table twin : FileTable) :
    Prop where
  files : SameFiles aside table twin
  place : ∃ position, table.Opened number path position ∧ twin.Opened twinNumber path position

variable {aside path : String} {number twinNumber : File} {table twin : FileTable}

theorem SameFiles.contains (same : SameFiles aside table twin) (differs : path ≠ aside) :
    twin.contains path = table.contains path := by
  rw [FileTable.contains, FileTable.contains, same path differs]

theorem SameFiles.opened (same : SameFiles aside table twin) (path : String) :
    SameReading aside path table.handles.length twin.handles.length (table.openAt path).2
      (twin.openAt path).2 where
  files := same
  place := ⟨0, opened_openAt table path, opened_openAt twin path⟩

theorem SameReading.whole (same : SameReading aside path number twinNumber table twin)
    (differs : path ≠ aside) : twin.whole twinNumber = table.whole number := by
  obtain ⟨position, opened, twinOpened⟩ := same.place
  rw [opened.whole, twinOpened.whole, FileTable.contents, FileTable.contents,
    same.files path differs]

theorem SameReading.advance (same : SameReading aside path number twinNumber table twin)
    (count : Nat) :
    SameReading aside path number twinNumber (table.advance number count)
      (twin.advance twinNumber count) where
  files := same.files
  place := by
    obtain ⟨position, opened, twinOpened⟩ := same.place
    exact ⟨position + count, opened.advance count, twinOpened.advance count⟩

end FileTable

/-- The second firmware is the first but for what a listing or a painted screen may change. Neither
has let go. -/
inductive Alike (Files : FileTable → FileTable → Prop) (firmware : MemoryFirmware) :
    MemoryFirmware → Prop
  | mk (key : UInt64) (mapCalls : Nat) (files : FileTable)
      (writesBeforeFailure : Option (Nat × Status)) (screen : Option Area)
      (exitAttempts : List UInt64) (isOpen : firmware.exited = false)
      (sameFiles : Files firmware.files files)
      (tries : exitAttempts.length = firmware.exitAttempts.length) :
      Alike Files firmware
        { firmware with key, mapCalls, files, writesBeforeFailure, screen, exitAttempts }

namespace Alike

open MemoryFirmware

variable {Files Others : FileTable → FileTable → Prop} {firmware twin : MemoryFirmware}

theorem mono (weaken : ∀ {table other}, Files table other → Others table other)
    (alike : Alike Files firmware twin) : Alike Others firmware twin := by
  obtain ⟨_, _, _, _, _, _, isOpen, same, tries⟩ := alike
  exact .mk _ _ _ _ _ _ isOpen (weaken same) tries

section Calls

variable (alike : Alike Files firmware twin)

include alike

theorem isOpen : firmware.exited = false := by
  obtain ⟨_, _, _, _, _, _, isOpen, _, _⟩ := alike
  exact isOpen

theorem twin_isOpen : twin.exited = false := by
  obtain ⟨_, _, _, _, _, _, isOpen, _, _⟩ := alike
  exact isOpen

theorem sameFiles : Files firmware.files twin.files := by
  obtain ⟨_, _, _, _, _, _, _, same, _⟩ := alike
  exact same

theorem exitFailures : twin.exitFailures = firmware.exitFailures := by
  obtain ⟨⟩ := alike
  rfl

theorem tick : Alike Files firmware.tick twin.tick := by
  obtain ⟨_, _, _, _, _, _, isOpen, same, tries⟩ := alike
  exact .mk _ _ _ _ _ _ isOpen same tries

theorem asked : Alike Files firmware.asked twin.asked := by
  obtain ⟨_, _, _, _, _, _, isOpen, same, tries⟩ := alike
  exact .mk _ _ _ _ _ _ isOpen same tries

/-- After a try each, with keys of their own, with or without a failure used up. -/
theorem tried (key twinKey : UInt64) :
    Alike Files (firmware.tried key) (twin.tried twinKey) ∧
      ∀ exitFailures, Alike Files { firmware.tried key with exitFailures }
        { twin.tried twinKey with exitFailures } := by
  obtain ⟨_, _, _, _, _, exitAttempts, isOpen, same, tries⟩ := alike
  have longer : (exitAttempts ++ [twinKey]).length = (firmware.exitAttempts ++ [key]).length := by
    rw [List.length_append, List.length_append, tries]
    rfl
  exact ⟨.mk _ _ _ _ _ _ isOpen same longer, fun exitFailures =>
    @mk Files { firmware.tried key with exitFailures } _ _ _ _ _ _ isOpen same longer⟩

theorem log (level : Log.Level) (target text : String) :
    Agree (Alike Files) ((Services.log level target text).run answer firmware)
      ((Services.log level target text).run answer twin) :=
  ⟨rfl, alike⟩

theorem allocatePool (size : UInt64) :
    Agree (Alike Files) ((Services.allocatePool size).run answer firmware)
      ((Services.allocatePool size).run answer twin) := by
  have failure : twin.poolFailure = firmware.poolFailure := by
    obtain ⟨⟩ := alike
    rfl
  have count : twin.blockCount = firmware.blockCount := by
    obtain ⟨⟩ := alike
    rfl
  have lent : Alike Files firmware.lent twin.lent := by
    obtain ⟨_, _, _, _, _, _, isOpen, same, tries⟩ := alike
    exact .mk _ _ _ _ _ _ isOpen same tries
  rw [run_allocatePool alike.isOpen, run_allocatePool alike.twin_isOpen, failure, count]
  cases firmware.poolFailure with
  | some status => exact ⟨rfl, alike.tick⟩
  | none =>
    by_cases large : blockLimit < size.toNat
    · simp only [large, if_true]
      exact ⟨rfl, alike.tick⟩
    · simp only [large, if_false]
      exact ⟨rfl, lent⟩

theorem freePool (block : UInt64) :
    Agree (Alike Files) ((Services.freePool block).run answer firmware)
      ((Services.freePool block).run answer twin) := by
  rw [run_freePool alike.isOpen, run_freePool alike.twin_isOpen]
  obtain ⟨_, _, _, _, _, _, isOpen, same, tries⟩ := alike
  by_cases live : block ∈ firmware.pool
  · simp only [live, if_true]
    exact ⟨rfl, .mk _ _ _ _ _ _ isOpen same tries⟩
  · simp only [live, if_false]
    exact ⟨rfl, .mk _ _ _ _ _ _ isOpen same tries⟩

theorem graphicsMode :
    Agree (Alike Files) (Services.graphicsMode.run answer firmware)
      (Services.graphicsMode.run answer twin) := by
  rw [run_graphicsMode alike.isOpen, run_graphicsMode alike.twin_isOpen]
  obtain ⟨_, _, _, _, _, _, isOpen, same, tries⟩ := alike
  exact ⟨rfl, .mk _ _ _ _ _ _ isOpen same tries⟩

theorem allocatePages (address : UInt64) (count : Nat) :
    Agree (Alike Files) ((Services.allocatePages address count).run answer firmware)
      ((Services.allocatePages address count).run answer twin) := by
  rw [run_allocatePages alike.isOpen, run_allocatePages alike.twin_isOpen]
  obtain ⟨_, _, _, _, _, _, isOpen, same, tries⟩ := alike
  by_cases large : Kernel.wordLimit ≤ address.toNat + count * Kernel.pageSize
  · simp only [large, if_true]
    exact ⟨rfl, .mk _ _ _ _ _ _ isOpen same tries⟩
  · cases free : firmware.physical.isFree firmware.reserved address.toNat
      (address.toNat + count * Kernel.pageSize)
    all_goals
      simp only [large, free, if_false, if_true]
      exact ⟨rfl, .mk _ _ _ _ _ _ isOpen same tries⟩

theorem store (address : UInt64) (data : Bytes) :
    Agree (Alike Files) ((Services.store address data).run answer firmware)
      ((Services.store address data).run answer twin) := by
  obtain ⟨_, _, _, _, _, _, isOpen, same, tries⟩ := alike
  exact ⟨rfl, .mk _ _ _ _ _ _ isOpen same tries⟩

/-- The calls that put a kernel into memory are answered alike. -/
theorem places {request : Services.Request} (places : request.Places) :
    Agree (Alike Files) (answer request firmware) (answer request twin) := by
  cases request with
  | allocatePages address count => exact alike.allocatePages address count
  | store address data => exact alike.store address data
  | log record => exact ⟨rfl, alike⟩
  | _ => cases places

theorem placeFile (file : Bytes) :
    Agree (Alike Files) ((Kernel.placeFile file).result answer firmware)
      ((Kernel.placeFile file).result answer twin) :=
  Program.run_agree (fun _ places _ _ alike => Alike.places alike places)
    (fun _ _ yields => (Kernel.placing_of_yields yields).places) alike

end Calls

section Reading

variable {aside path : String} {number twinNumber : File}
  (alike : Alike (FileTable.SameReading aside path number twinNumber) firmware twin)
  (differs : path ≠ aside)

include alike differs

theorem fileSize :
    Agree (Alike (FileTable.SameReading aside path number twinNumber))
      ((Services.fileSize number).run answer firmware)
      ((Services.fileSize twinNumber).run answer twin) := by
  rw [run_fileSize, run_fileSize, alike.sameFiles.whole differs]
  exact ⟨rfl, alike⟩

theorem readFile (count : UInt64) :
    Agree (Alike (FileTable.SameReading aside path number twinNumber))
      ((Services.readFile number count).run answer firmware)
      ((Services.readFile twinNumber count).run answer twin) := by
  obtain ⟨position, opened, twinOpened⟩ := alike.sameFiles.place
  have whole := alike.sameFiles.whole differs
  rw [run_readFile, run_readFile, whole, opened.handle, twinOpened.handle]
  obtain ⟨_, _, _, _, _, _, isOpen, same, tries⟩ := alike
  by_cases beyond : (firmware.files.whole number).length < position
  · simp only [beyond, if_true]
    exact ⟨rfl, .mk _ _ _ _ _ _ isOpen same tries⟩
  · simp only [beyond, if_false]
    exact ⟨rfl, .mk _ _ _ _ _ _ isOpen (same.advance _) tries⟩

theorem stage :
    Agree (Alike (FileTable.SameReading aside path number twinNumber))
      ((Kernel.stage number).result answer firmware)
      ((Kernel.stage twinNumber).result answer twin) := by
  refine .bind ((alike.fileSize differs).require _) fun size alike => ?_
  refine .bind (alike.allocatePool size).reply fun granted alike => ?_
  cases granted with
  | error status =>
    exact .bind (alike.log _ _ _).lift fun _ alike => ⟨rfl, alike⟩
  | ok block =>
    -- Both a failed and a short read end in these calls.
    have givenUp (status : Status) {s t : MemoryFirmware}
        (alike : Alike (FileTable.SameReading aside path number twinNumber) s t) :
        let giveUp : Attempt Cause Kernel.Staged := do
          Services.log .error Kernel.target (Kernel.readFailure block size status)
          let _ ← Attempt.reply (Services.freePool block.address)
          Attempt.fail (.io status)
        Agree (Alike (FileTable.SameReading aside path number twinNumber))
          (giveUp.result answer s) (giveUp.result answer t) :=
      .bind (alike.log _ _ _).lift fun _ alike =>
        .bind (alike.freePool _).reply fun _ alike => ⟨rfl, alike⟩
    refine .bind (alike.readFile differs size).reply fun read alike => ?_
    cases read with
    | error status => exact givenUp status alike
    | ok reply =>
      dsimp only
      by_cases full : reply.count = size
      · simp only [if_pos full]
        exact ⟨rfl, alike⟩
      · simp only [if_neg full]
        exact givenUp .endOfFile alike

end Reading

/-- **A kernel is loaded alike** wherever only a listing was saved or the screen painted before. -/
theorem load {aside path : String} (alike : Alike (FileTable.SameFiles aside) firmware twin)
    (differs : path ≠ aside) :
    Agree (Alike (FileTable.SameFiles aside)) ((Kernel.load path).result answer firmware)
      ((Kernel.load path).result answer twin) := by
  have opens := run_openFile alike.isOpen path
  have twinOpens := run_openFile alike.twin_isOpen path
  rw [alike.sameFiles.contains differs] at twinOpens
  rw [Kernel.load]
  cases found : firmware.files.contains path with
  | false =>
    rw [found] at opens twinOpens
    rw [Attempt.result_reply_bind_failed opens, Attempt.result_reply_bind_failed twinOpens]
    exact .bind (alike.tick.log _ _ _).lift fun _ alike => ⟨rfl, alike⟩
  | true =>
    rw [found] at opens twinOpens
    rw [Attempt.result_reply_bind_ok opens, Attempt.result_reply_bind_ok twinOpens]
    have reading : Alike (FileTable.SameReading aside path firmware.files.handles.length
        twin.files.handles.length) (firmware.opened path) (twin.opened path) := by
      obtain ⟨_, _, _, _, _, _, isOpen, same, tries⟩ := alike
      exact .mk _ _ _ _ _ _ isOpen (same.opened path) tries
    refine .bindInto (mono FileTable.SameReading.files) (reading.stage differs).settle
      fun staged _ _ _ _ alike => ?_
    have alike := alike.mono FileTable.SameReading.files
    rw [Attempt.result_lift_bind, Attempt.result_lift_bind, run_closeFile, run_closeFile]
    cases staged with
    | error cause => exact ⟨rfl, alike⟩
    | ok staged =>
      rw [Attempt.ofExcept_ok_bind]
      refine .bind (alike.placeFile staged.bytes).settle fun placed alike => ?_
      refine .bind (alike.freePool staged.block).reply fun freed alike => ?_
      cases placed with
      | error cause => exact ⟨rfl, alike⟩
      | ok loaded =>
        rw [Attempt.ofExcept_ok_bind]
        cases freed with
        | ok _ => exact ⟨rfl, alike⟩
        | error status =>
          exact .bind (alike.log _ _ _).lift fun _ alike => ⟨rfl, alike⟩

end Alike

end EfiLoader.Testbed
