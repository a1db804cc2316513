import EfiLoader.Proofs.Uefi.Calls

/-!
Files of the boot volume. `NamedFile` is what UEFI promises about the file of one name, for any
machine; calls that fail promise nothing but that an open file keeps what it holds. Main statement:
a file that `createFile` returns is empty if the old one could be opened to be deleted, and holds
what the old one held if it could not (`of_createFile_ok`).
-/

namespace EfiLoader.Uefi

variable {σ : Type}

/-- Requests that can change what a file holds or where an open file stands. -/
def Request.touchesFiles : Request → Bool
  | .openFile _ _ | .deleteFile _ | .closeFile _ | .setPosition _ _ | .readFile _ _
  | .writeFile _ _ => true
  | _ => false

/-- The file of a name on a machine, and what UEFI promises about it. -/
structure NamedFile (machine : Machine Uefi σ) (name : String) where
  /-- What the file holds, nothing if there is none. -/
  contents : σ → Option Bytes
  /-- Where an open file of the name stands. -/
  position : σ → File → Option Nat
  /-- Opening keeps what is there; what was opened is a directory if it has no position. -/
  opens : ∀ {mode state file later}, machine (.openFile name mode) state = (.ok file, later) →
    (position later file = some 0 ∧ contents later = some ((contents state).getD [])) ∨
    (∃ status, (machine (.getPosition file) later).1 = .error status) ∧
      contents later = contents state
  refuses : ∀ {mode state status later},
    machine (.openFile name mode) state = (.error status, later) →
    contents later = contents state
  deletes : ∀ {state file place later}, position state file = some place →
    machine (.deleteFile file) state = (.ok (), later) → contents later = none
  /-- A write replaces as many bytes as it writes and keeps what lies behind. -/
  writes : ∀ {state file place old data later}, position state file = some place →
    contents state = some old → place ≤ old.length →
    machine (.writeFile file data) state = (.ok (), later) →
    position later file = some (place + data.length) ∧
      contents later = some (old.take place ++ data ++ old.drop (place + data.length))
  closes : ∀ state file, contents (machine (.closeFile file) state).2 = contents state
  others : ∀ request state, request.touchesFiles = false →
    contents (machine request state).2 = contents state ∧
      position (machine request state).2 = position state

/-- Nothing that is asked to open the volume touches files. -/
theorem openBootVolume_asks : openBootVolume.Asks (·.touchesFiles = false) := by
  refine .bind (.ofReply (.request rfl)) fun fromDevice => ?_
  have rest : (do
      Call.ofReply (ask .openDevicePath)
      Call.ofReply (ask .locateDevicePath)
      Call.ofReply (ask .openFileSystem)
      Call.ofReply (ask .openVolume) : Call Unit).Asks (·.touchesFiles = false) := by
    refine .bind (.ofReply (.request rfl)) fun _ => ?_
    refine .bind (.ofReply (.request rfl)) fun _ => ?_
    refine .bind (.ofReply (.request rfl)) fun _ => ?_
    exact .ofReply (.request rfl)
  cases fromDevice with
  | true => exact rest
  | false => exact .bind (.fail _) fun _ => rest

/-- Besides, the file is opened. -/
theorem openRegular_asks (name : String) (mode : FileMode) :
    (openRegular name mode).Asks fun request =>
      request.touchesFiles = false ∨ request = .openFile name mode := by
  refine .bind (openBootVolume_asks.mono fun _ => .inl) fun _ => ?_
  refine .bind (.ofReply (.request (.inr rfl))) fun file => ?_
  refine .bind (.lift (.request (.inl rfl))) fun place => ?_
  cases place with
  | ok _ => exact .pure _
  | error _ => exact .fail _

namespace NamedFile

variable {machine : Machine Uefi σ} {name : String} (file : NamedFile machine name)
variable {start later : LoaderState × σ} {mode : FileMode} {opened : File}

/-- An attempt to open the file, successful or not, loses nothing that it holds. -/
theorem contents_openRegular {outcome : Outcome Status File}
    (ended : (openRegular name mode).result machine start = (outcome, later)) :
    (file.contents later.2).getD [] = (file.contents start.2).getD [] := by
  refine Call.invariant
    (fun state => (file.contents state).getD [] = (file.contents start.2).getD [])
    (openRegular_asks name mode) (fun request state asked kept => ?_) ended rfl
  obtain untouched | rfl := asked
  · rw [(file.others request state untouched).1, kept]
  · rcases answered : machine (.openFile name mode) state with ⟨status | opened, after⟩
    · rw [file.refuses answered, kept]
    · obtain ⟨-, contents⟩ | ⟨-, contents⟩ := file.opens answered
      · rw [contents, Option.getD_some, kept]
      · rw [contents, kept]

/-- A file that was opened stands at its start and holds what the file of the name held. -/
theorem of_openRegular_ok
    (ended : (openRegular name mode).result machine start = (.ok opened, later)) :
    file.position later.2 opened = some 0 ∧
      file.contents later.2 = some ((file.contents start.2).getD []) := by
  obtain ⟨_, ready, volume, rest⟩ := Call.of_result_bind_ok ended
  have before : file.contents ready.2 = file.contents start.2 :=
    Call.invariant (fun state => file.contents state = file.contents start.2)
      openBootVolume_asks
      (fun request state untouched kept => (file.others request state untouched).1.trans kept)
      volume rfl
  obtain ⟨handle, reached, opening, rest⟩ := Call.of_result_bind_ok rest
  have answered : machine (.openFile name mode) ready.2 = (.ok handle, reached.2) :=
    Call.of_result_ofReply_ok opening
  obtain ⟨place, asked, placed, rest⟩ := Call.of_result_bind_ok rest
  rw [Call.result_lift] at placed
  cases place with
  | error status => cases rest
  | ok place =>
    have place_eq : (machine (.getPosition handle) reached.2).1 = .ok place :=
      Except.ok.inj (congrArg Prod.fst placed)
    have asked_eq : (machine (.getPosition handle) reached.2).2 = later.2 := by
      cases rest
      exact congrArg (·.2.2) placed
    obtain rfl : handle = opened := Except.ok.inj (congrArg Prod.fst rest)
    obtain ⟨contents, position⟩ := file.others (.getPosition handle) reached.2 rfl
    rw [← asked_eq, contents, position, ← before]
    obtain found | ⟨⟨status, refused⟩, -⟩ := file.opens answered
    · exact found
    · cases refused.symm.trans place_eq

/-- **A created file is empty if the old one could be opened, and holds what the old one held if it
could not.** -/
theorem of_createFile_ok (ended : (createFile name).result machine start = (.ok opened, later)) :
    file.position later.2 opened = some 0 ∧
      file.contents later.2 = some
        (match ((openRegular name .readWrite).result machine start).1 with
        | .ok _ => []
        | .error _ => (file.contents start.2).getD []) := by
  obtain ⟨settled, middle, tried, rest⟩ := Call.of_result_bind_ok ended
  rw [Call.result_settle] at tried
  rcases first : (openRegular name .readWrite).result machine start with ⟨outcome, reached⟩
  rw [first] at tried
  cases outcome with
  | error stop =>
    cases stop with
    | crashed => cases tried
    | failed status =>
      cases tried
      have created := file.of_openRegular_ok rest
      rw [file.contents_openRegular first] at created
      exact created
  | ok old =>
    cases tried
    obtain ⟨_, emptied, deleting, rest⟩ := Call.of_result_bind_ok rest
    have deleted : machine (.deleteFile old) reached.2 = (.ok (), emptied.2) :=
      Call.of_result_ofReply_ok deleting
    have created := file.of_openRegular_ok rest
    rw [file.deletes (file.of_openRegular_ok first).1 deleted] at created
    exact created

end NamedFile

end EfiLoader.Uefi
