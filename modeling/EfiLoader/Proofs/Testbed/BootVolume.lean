import EfiLoader.Proofs.Uefi.Files
import EfiLoader.Testbed.UefiMachine

/-!
Files of the simulated machine. Each of its names is a file as UEFI promises one (`named`), whatever
the script says.
-/

namespace EfiLoader.Testbed

namespace Volume

theorem contents?_remove_self (volume : Volume) (path : String) :
    (volume.remove path).contents? path = none := by
  refine List.lookup_eq_none_iff.mpr fun entry kept => ?_
  have other : entry.1 ≠ path := of_decide_eq_true (List.mem_filter.mp kept).2
  simpa using Ne.symm other

end Volume

namespace UefiMachine

open Uefi (Request Reply FileMode NamedFile)

variable {α β : Type}

/-- The part changes neither files nor where open ones stand. -/
def KeepsFiles (part : StateM UefiMachine α) : Prop :=
  ∀ machine, (part.run machine).2.files = machine.files ∧
    (part.run machine).2.handles = machine.handles

namespace KeepsFiles

theorem pure (value : α) : KeepsFiles (pure value) := fun _ => ⟨rfl, rfl⟩

theorem bind {first : StateM UefiMachine α} {rest : α → StateM UefiMachine β}
    (keeps : KeepsFiles first) (keeps_rest : ∀ value, KeepsFiles (rest value)) :
    KeepsFiles (first >>= rest) := by
  intro machine
  obtain ⟨files, handles⟩ := keeps machine
  obtain ⟨files_rest, handles_rest⟩ := keeps_rest (first.run machine).1 (first.run machine).2
  exact ⟨files_rest.trans files, handles_rest.trans handles⟩

theorem get_bind {rest : UefiMachine → StateM UefiMachine β}
    (keeps : ∀ machine, ((rest machine).run machine).2.files = machine.files ∧
      ((rest machine).run machine).2.handles = machine.handles) :
    KeepsFiles (get >>= rest) := keeps

theorem modify {f : UefiMachine → UefiMachine}
    (keeps : ∀ machine, (f machine).files = machine.files ∧ (f machine).handles = machine.handles) :
    KeepsFiles (modify f) := keeps

theorem turn (service : UefiService) : KeepsFiles (turn service) := fun _ => ⟨rfl, rfl⟩

theorem changeKey : KeepsFiles changeKey := by
  refine modify fun machine => ?_
  split <;> exact ⟨rfl, rfl⟩

theorem scripted {service : UefiService} {call : Turn → StateM UefiMachine (Except Status α)}
    (keeps : ∀ turn, KeepsFiles (call turn)) : KeepsFiles (scripted service call) := by
  refine (turn service).bind fun turn => ?_
  cases turn with
  | status status => exact .pure _
  | normal => exact keeps .normal
  | limit count => exact keeps (.limit count)
  | report report => exact keeps (.report report)

theorem plain (service : UefiService) : KeepsFiles (plain service) :=
  .scripted fun _ => .pure _

theorem locate (service : UefiService) (present : Bool) : KeepsFiles (locate service present) := by
  refine .bind .changeKey fun _ => .scripted fun turn => ?_
  cases turn.reported.count with
  | some count => exact .pure _
  | none => split <;> exact .pure _

end KeepsFiles

/-- Whatever is asked that has nothing to do with files leaves them alone. -/
theorem keepsFiles_answer {request : Request} (others : request.touchesFiles = false) :
    KeepsFiles (answer request) := by
  cases request with
  | openFile | deleteFile | closeFile | setPosition | readFile | writeFile => cases others
  | revisions => exact .get_bind fun _ => ⟨rfl, rfl⟩
  | openLoadedImage => exact .scripted fun _ => .get_bind fun _ => ⟨rfl, rfl⟩
  | openDevicePath => exact .plain _
  | locateDevicePath => exact .bind .changeKey fun _ => .plain _
  | openFileSystem => exact .plain _
  | openVolume => exact .plain _
  | getPosition file =>
    refine .get_bind fun machine => ?_
    dsimp only
    split
    · exact ⟨rfl, rfl⟩
    · exact KeepsFiles.scripted (fun _ => .pure _) machine
  | allocatePool size =>
    refine .bind .changeKey fun _ => .scripted fun _ => ?_
    split
    · exact .pure _
    · exact .get_bind fun _ => ⟨rfl, rfl⟩
  | freePool block =>
    refine .bind .changeKey fun _ => .scripted fun _ => ?_
    exact .bind (.modify fun _ => ⟨rfl, rfl⟩) fun _ => .pure _
  | allocatePages address count =>
    refine .bind .changeKey fun _ => .bind (.modify fun _ => ⟨rfl, rfl⟩) fun _ => ?_
    refine .scripted fun _ => .get_bind fun machine => ?_
    dsimp only
    split <;> exact ⟨rfl, rfl⟩
  | memoryMap buffer =>
    refine .bind (.turn .map) fun turn => .get_bind fun machine => ?_
    dsimp only
    split
    · exact ⟨rfl, rfl⟩
    · split <;> exact ⟨rfl, rfl⟩
  | exitBootServices key => exact .bind (.turn .exit) fun _ => .get_bind fun _ => ⟨rfl, rfl⟩
  | locateGraphics => exact .get_bind fun machine => KeepsFiles.locate _ _ machine
  | openGraphics =>
    refine .scripted fun _ => .get_bind fun machine => ?_
    cases machine.graphics <;> exact ⟨rfl, rfl⟩
  | locateConsole => exact .get_bind fun machine => KeepsFiles.locate _ _ machine
  | openConsole => exact .plain _
  | clearConsole => exact .bind (.modify fun _ => ⟨rfl, rfl⟩) fun _ => .plain _
  | printConsole text => exact .bind (.modify fun _ => ⟨rfl, rfl⟩) fun _ => .pure _
  | register request => exact fun _ => ⟨rfl, rfl⟩
  | store address data => exact .modify fun _ => ⟨rfl, rfl⟩
  | fill address count value => exact .modify fun _ => ⟨rfl, rfl⟩
  | enterKernel entry argument => exact .modify fun _ => ⟨rfl, rfl⟩

/-- The file of a name on the simulated machine. -/
def contentsOf (name : String) (machine : UefiMachine) : Option Bytes :=
  machine.files.contents? (localName name)

/-- Where an open file of a name stands. -/
def positionOf (name : String) (machine : UefiMachine) (file : Uefi.File) : Option Nat :=
  (machine.handles[file]?).bind fun handle =>
    if handle.name = localName name ∧ handle.isDirectory = false then some handle.position else none

section

variable {name : String} {file : Uefi.File} {machine later : UefiMachine} {place : Nat}

theorem positionOf_eq_some : positionOf name machine file = some place ↔
    machine.handles[file]? = some ⟨localName name, place, false⟩ := by
  unfold positionOf
  constructor
  · intro stands
    obtain ⟨handle, found, stands⟩ := Option.bind_eq_some_iff.mp stands
    split at stands
    case isTrue regular =>
      obtain rfl := Option.some.inj stands
      rw [found, ← regular.1, ← regular.2]
    case isFalse => cases stands
  · intro found
    simp [found]

theorem handle_of_positionOf (stands : positionOf name machine file = some place) :
    machine.handle file = ⟨localName name, place, false⟩ := by
  rw [handle, positionOf_eq_some.mp stands]
  rfl

/-- The machine with an empty file of a name. -/
def making (machine : UefiMachine) (name : String) : UefiMachine :=
  { machine with files := machine.files.put (localName name) [] }.touch (localName name)

theorem contentsOf_making (machine : UefiMachine) (name : String) :
    contentsOf name (machine.making name) = some [] :=
  (Volume.contents?_put _ _ _ _).trans (if_pos rfl)

/-- The machine with one more open file or directory. -/
def opening (machine : UefiMachine) (name : String) (directory : Bool) : UefiMachine :=
  { machine with handles := machine.handles ++ [⟨name, 0, directory⟩] }

theorem positionOf_opening (machine : UefiMachine) (name : String) :
    positionOf name (machine.opening (localName name) false) machine.handles.length = some 0 := by
  simp [positionOf_eq_some, opening]

/-- A directory has no position. -/
theorem getPosition_opening (machine : UefiMachine) (name : String) :
    (getPosition machine.handles.length (machine.opening name true)).1 = .error .unsupported := by
  have opened : (machine.opening name true).handle machine.handles.length = ⟨name, 0, true⟩ := by
    simp [handle, opening]
  have asked : getPosition machine.handles.length (machine.opening name true) =
      (if ((machine.opening name true).handle machine.handles.length).isDirectory
        then pure (.error .unsupported)
        else scripted .getPosition fun _ => pure (.ok (.ofNat
          ((machine.opening name true).handle machine.handles.length).position)) :
        StateM UefiMachine (Except Status UInt64)) (machine.opening name true) := rfl
  rw [asked, opened]
  rfl

/-- The machine after a write, which goes over what the file holds. -/
def overwriting (machine : UefiMachine) (file : Uefi.File) (data : Bytes) : UefiMachine :=
  let handle := machine.handle file
  let old := machine.contents handle.name
  let new := old.take handle.position ++ data ++ old.drop (handle.position + data.length)
  { { machine with files := machine.files.put handle.name new }.touch handle.name with
    handles := machine.handles.modify file fun h =>
      { h with position := handle.position + data.length } }

theorem positionOf_overwriting (stands : positionOf name machine file = some place)
    (data : Bytes) :
    positionOf name (machine.overwriting file data) file = some (place + data.length) := by
  rw [positionOf_eq_some, overwriting, List.getElem?_modify_eq, positionOf_eq_some.mp stands,
    handle_of_positionOf stands]
  rfl

theorem contentsOf_overwriting {old : Bytes} (stands : positionOf name machine file = some place)
    (holds : contentsOf name machine = some old) (data : Bytes) :
    contentsOf name (machine.overwriting file data) =
      some (old.take place ++ data ++ old.drop (place + data.length)) := by
  have contents : machine.contents (localName name) = old := congrArg (Option.getD · []) holds
  rw [overwriting, handle_of_positionOf stands, contents]
  exact (Volume.contents?_put _ _ _ _).trans (if_pos rfl)

/-- A scripted call is answered with a status, or runs with all but its turn in the script. -/
theorem scripted_cases (service : UefiService)
    (call : Turn → StateM UefiMachine (Except Status α)) (machine : UefiMachine) :
    let waiting := { machine with script := (machine.script.next service).2 }
    (∃ status, scripted service call machine = (.error status, waiting)) ∨
      ∃ turn, scripted service call machine = call turn waiting := by
  intro waiting
  have asked : turn service machine = ((machine.script.next service).1, waiting) := rfl
  simp only [scripted, bind, StateT.bind, asked]
  cases (machine.script.next service).1 with
  | status status => exact .inl ⟨status, rfl⟩
  | normal => exact .inr ⟨.normal, rfl⟩
  | limit count => exact .inr ⟨.limit count, rfl⟩
  | report report => exact .inr ⟨.report report, rfl⟩

theorem openFile_cases (name : String) (mode : FileMode) (machine : UefiMachine) :
    (∃ status later, openFile name mode machine = (.error status, later) ∧
      later.files = machine.files) ∨
    ∃ (ready : UefiMachine) (directory : Bool),
      openFile name mode machine =
        (.ok machine.handles.length, ready.opening (localName name) directory) ∧
      ready.handles = machine.handles ∧
      if directory then ready.files = machine.files
      else contentsOf name ready = some ((contentsOf name machine).getD []) := by
  obtain ⟨files, handles⟩ := KeepsFiles.changeKey machine
  let keyed := (changeKey.run machine).2
  change (∃ status later, scripted .open _ keyed = _ ∧ _) ∨
    ∃ ready directory, scripted .open _ keyed = _ ∧ _
  obtain ⟨status, refused⟩ | ⟨turn, opened⟩ := scripted_cases .open _ keyed
  · exact .inl ⟨status, _, refused, files⟩
  rw [opened]
  generalize waits : ({ keyed with script := _ } : UefiMachine) = waiting
  have files : waiting.files = machine.files := waits ▸ files
  have handles : waiting.handles = machine.handles := waits ▸ handles
  have same : contentsOf name machine = waiting.files.contents? (localName name) := by
    rw [contentsOf, files]
  rw [same, ← handles]
  simp only [bind, StateT.bind, get, getThe, MonadStateOf.get, StateT.get, pure]
  by_cases directory : localName name ∈ waiting.directories
  · rw [if_pos directory]
    exact .inr ⟨waiting, true, rfl, rfl, files⟩
  rw [if_neg directory]
  cases held : waiting.files.contents? (localName name) with
  | some bytes => exact .inr ⟨waiting, false, rfl, rfl, held⟩
  | none =>
    by_cases creates : mode = .createReadWrite
    · subst creates
      exact .inr ⟨waiting.making name, false, rfl, rfl, waiting.contentsOf_making name⟩
    · refine .inl ⟨.notFound, waiting, ?_, files⟩
      simp [creates]
      rfl

/-- A deletion that succeeds removes the file from the volume. -/
theorem of_deleteFile_ok (stands : positionOf name machine file = some place)
    (deleted : deleteFile file machine = (.ok (), later)) : contentsOf name later = none := by
  unfold deleteFile at deleted
  obtain ⟨status, refused⟩ | ⟨turn, ran⟩ := scripted_cases .delete _ machine
  · cases deleted.symm.trans refused
  · obtain ⟨-, rfl⟩ := Prod.mk.inj (deleted.symm.trans ran)
    have removed : (machine.files.remove (machine.handle file).name).contents? (localName name) =
        none := by
      rw [handle_of_positionOf stands]
      exact Volume.contents?_remove_self _ _
    exact removed

/-- A write that succeeds goes over what is there. -/
theorem of_writeFile_ok {old data : Bytes} (stands : positionOf name machine file = some place)
    (holds : contentsOf name machine = some old)
    (wrote : writeFile file data machine = (.ok (), later)) :
    positionOf name later file = some (place + data.length) ∧
      contentsOf name later = some (old.take place ++ data ++ old.drop (place + data.length)) := by
  unfold writeFile at wrote
  obtain ⟨status, refused⟩ | ⟨turn, ran⟩ := scripted_cases .write _ machine
  · cases wrote.symm.trans refused
  · obtain ⟨-, rfl⟩ := Prod.mk.inj (wrote.symm.trans ran)
    exact ⟨positionOf_overwriting stands data, contentsOf_overwriting stands holds data⟩

end

/-- Each name of the simulated machine is a file as UEFI promises one. -/
def named (name : String) : NamedFile answer name where
  contents := contentsOf name
  position := positionOf name
  opens := by
    intro mode state file later ended
    obtain ⟨status, _, refused, -⟩ | ⟨ready, directory, opened, handles, held⟩ :=
      openFile_cases name mode state
    · cases ended.symm.trans refused
    · obtain ⟨file_eq, rfl⟩ := Prod.mk.inj (ended.symm.trans opened)
      obtain rfl := Except.ok.inj file_eq
      rw [← handles]
      cases directory with
      | false => exact .inl ⟨positionOf_opening ready _, held⟩
      | true => exact .inr ⟨⟨_, getPosition_opening ready _⟩, congrArg (Volume.contents? · _) held⟩
  refuses := by
    intro mode state status later ended
    obtain ⟨status, _, refused, files⟩ | ⟨_, _, opened, -⟩ := openFile_cases name mode state
    · cases ended.symm.trans refused
      exact congrArg (Volume.contents? · _) files
    · cases ended.symm.trans opened
  deletes := of_deleteFile_ok
  writes stands holds _ wrote := of_writeFile_ok stands holds wrote
  closes _ _ := rfl
  others request state others := by
    obtain ⟨files, handles⟩ := keepsFiles_answer others state
    refine ⟨congrArg (Volume.contents? · _) files, funext fun file => ?_⟩
    rw [positionOf, positionOf]
    exact congrArg (fun handles : List UefiHandle => (handles[file]?).bind _) handles

theorem named_contents (name : String) (machine : UefiMachine) :
    (named name).contents machine = contentsOf name machine := rfl

end UefiMachine

end EfiLoader.Testbed
