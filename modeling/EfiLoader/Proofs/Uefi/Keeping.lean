import EfiLoader.Proofs.Uefi.Histories
import EfiLoader.Uefi.Loader

/-!
Parts of the loader that neither leave the boot services nor enter the kernel. Whatever the replies
are, the requests of such a part are of one kind and the system table is there as it was before
(`Keeps`). That holds of the settings, the log, and every service of a boot attempt but the exit
(`answer_keeps`).
-/

namespace EfiLoader

theorem Program.forall_mem_of_yields {I : Interface} {α : Type} {P : I.Request → Prop}
    {program : Program I α} {h : List (Exchange I)} {value : α} (asks : program.Asks P)
    (yields : program.Yields h value) : ∀ e ∈ h, P e.request := by
  induction yields with
  | done => exact nofun
  | ask _ ih => exact List.forall_mem_cons.mpr ⟨asks.1, ih (asks.2 _)⟩

namespace Uefi

variable {α β : Type} {P : Request → Prop}

namespace Request

/-- Neither an attempt to leave the boot services nor the call of the kernel. -/
def Stays : Request → Prop
  | .exitBootServices _ | .enterKernel _ _ => False
  | _ => True

/-- Besides, nothing is read from a file. -/
def StaysBlind : Request → Prop
  | .exitBootServices _ | .enterKernel _ _ | .readFile _ _ => False
  | _ => True

theorem StaysBlind.stays {request : Request} (blind : request.StaysBlind) : request.Stays := by
  cases request with
  | exitBootServices | enterKernel | readFile => exact blind.elim
  | _ => trivial

end Request

/-- Whatever the replies are, `P` holds of all requests, and the system table is there afterwards
if it was there before. -/
def Loader.Keeps (P : Request → Prop) (part : Loader α) : Prop :=
  ∀ loader h value later, Loader.Yields part loader h value later →
    (∀ e ∈ h, P e.request) ∧ later.systemTable = loader.systemTable

def Call.Keeps (P : Request → Prop) (call : Call α) : Prop := Loader.Keeps P call.run

namespace Loader.Keeps

theorem pure (value : α) : Loader.Keeps P (pure value) := by
  intro loader h result later yields
  obtain ⟨rfl, -, rfl⟩ := yields_pure.mp yields
  exact ⟨nofun, rfl⟩

theorem lift {program : Program Uefi α} (asks : program.Asks P) :
    Loader.Keeps P (program : Loader α) := by
  intro loader h value later yields
  obtain ⟨made, rfl⟩ := yields_lift.mp yields
  exact ⟨Program.forall_mem_of_yields asks made, rfl⟩

theorem bind {first : Loader α} {rest : α → Loader β} (keeps : Loader.Keeps P first)
    (keeps_rest : ∀ value, Loader.Keeps P (rest value)) : Loader.Keeps P (first >>= rest) := by
  intro loader h result later yields
  obtain ⟨_, value, middle, _, rfl, before, after⟩ := yields_bind.mp yields
  obtain ⟨asked, same⟩ := keeps _ _ _ _ before
  obtain ⟨asked', same'⟩ := keeps_rest value _ _ _ _ after
  exact ⟨List.forall_mem_append.mpr ⟨asked, asked'⟩, same'.trans same⟩

theorem get_bind {rest : LoaderState → Loader β} (keeps : ∀ state, Loader.Keeps P (rest state)) :
    Loader.Keeps P (get >>= rest) := by
  intro loader h result later yields
  exact keeps loader _ _ _ _ (yields_get_bind.mp yields)

theorem modify {f : LoaderState → LoaderState}
    (same : ∀ state, (f state).systemTable = state.systemTable) :
    Loader.Keeps P (modify f : Loader PUnit) := by
  intro loader h value later yields
  obtain ⟨rfl, rfl⟩ := yields_modify.mp yields
  exact ⟨nofun, same loader⟩

theorem mono {Q : Request → Prop} {part : Loader α} (keeps : Loader.Keeps P part)
    (wider : ∀ r, P r → Q r) : Loader.Keeps Q part := by
  intro loader h value later yields
  obtain ⟨asked, same⟩ := keeps _ _ _ _ yields
  exact ⟨fun e he => wider _ (asked e he), same⟩

end Loader.Keeps

namespace Call.Keeps

theorem pure (value : α) : (pure value : Call α).Keeps P := Loader.Keeps.pure _

theorem throw (stop : Stop Status) : (throw stop : Call α).Keeps P := Loader.Keeps.pure _

theorem fail (status : Status) : (fail status : Call α).Keeps P := Loader.Keeps.pure _

theorem lift {program : Program Uefi α} (asks : program.Asks P) :
    (liftM program : Call α).Keeps P :=
  Loader.Keeps.bind (Loader.Keeps.lift asks) fun _ => Loader.Keeps.pure _

theorem bind {call : Call α} {f : α → Call β} (keeps : call.Keeps P)
    (keeps_rest : ∀ value, (f value).Keeps P) : (call >>= f : Call β).Keeps P := by
  refine Loader.Keeps.bind keeps fun outcome => ?_
  cases outcome with
  | ok value => exact keeps_rest value
  | error stop => exact Loader.Keeps.pure _

theorem ofReply {reply : Program Uefi (Except Status α)} (asks : reply.Asks P) :
    (ofReply reply).Keeps P := by
  refine (lift asks).bind fun replied => ?_
  cases replied with
  | ok value => exact .pure value
  | error status => exact .fail status

theorem settle {call : Call α} (keeps : call.Keeps P) : call.settle.Keeps P := by
  refine Loader.Keeps.bind keeps fun outcome => ?_
  rcases outcome with (status | _) | value
  all_goals exact Loader.Keeps.pure _

theorem mono {Q : Request → Prop} {call : Call α} (keeps : call.Keeps P)
    (wider : ∀ r, P r → Q r) : call.Keeps Q := Loader.Keeps.mono keeps wider

end Call.Keeps

open Request (Stays StaysBlind)

section Files

theorem openBootVolume_keeps : openBootVolume.Keeps StaysBlind := by
  refine .bind (.ofReply (.request trivial)) fun fromDevice => ?_
  have rest : (do
      Call.ofReply (ask .openDevicePath)
      Call.ofReply (ask .locateDevicePath)
      Call.ofReply (ask .openFileSystem)
      Call.ofReply (ask .openVolume) : Call Unit).Keeps StaysBlind := by
    refine .bind (.ofReply (.request trivial)) fun _ => ?_
    refine .bind (.ofReply (.request trivial)) fun _ => ?_
    refine .bind (.ofReply (.request trivial)) fun _ => ?_
    exact .ofReply (.request trivial)
  cases fromDevice with
  | true => exact rest
  | false => exact .bind (.fail _) fun _ => rest

theorem openRegular_keeps (name : String) (mode : FileMode) :
    (openRegular name mode).Keeps StaysBlind := by
  refine .bind openBootVolume_keeps fun _ => ?_
  refine .bind (.ofReply (.request trivial)) fun file => ?_
  refine .bind (.lift (.request trivial)) fun place => ?_
  cases place with
  | ok _ => exact .pure _
  | error _ => exact .fail _

theorem createFile_keeps (name : String) : (createFile name).Keeps StaysBlind := by
  refine .bind (openRegular_keeps name _).settle fun old => ?_
  cases old with
  | ok file => exact .bind (.ofReply (.request trivial)) fun _ => openRegular_keeps name _
  | error _ => exact openRegular_keeps name _

theorem fileSize_keeps (file : File) : (fileSize file).Keeps StaysBlind := by
  refine .bind (.ofReply (.request trivial)) fun _ => ?_
  refine .bind (.ofReply (.request trivial)) fun size => ?_
  exact .bind (.ofReply (.request trivial)) fun _ => .pure _

theorem readFile_keeps (file : File) (count : Nat) : (readFile file count).Keeps Stays := by
  fun_induction readFile file count with
  | case1 => exact .pure _
  | case2 count wanted ih =>
    refine .bind (.ofReply (.request trivial)) fun data => ?_
    extract_lets rest
    have rests (u : PUnit) : (rest u).Keeps Stays := by
      dsimp only [rest]
      split
      · exact .pure _
      · exact .bind (ih data) fun _ => .pure _
    split
    · exact .bind (.throw _) rests
    · exact rests ()

theorem readSettings_keeps : readSettings.Keeps Stays := by
  refine .bind ((openRegular_keeps _ _).mono fun _ => StaysBlind.stays) fun file => ?_
  refine .bind (readFile_keeps file _).settle fun data => ?_
  exact .bind (.lift (.request trivial)) fun _ => .pure _

theorem settings_keeps : Loader.Keeps Stays settings := by
  refine .bind readSettings_keeps fun read => ?_
  rcases read with (_ | _) | _
  all_goals exact .pure _

end Files

theorem memoryMap_keeps (buffer : Bytes) : Loader.Keeps StaysBlind (memoryMap buffer) := by
  refine .get_bind fun state => ?_
  split
  · exact .pure _
  · exact .bind (.lift (.request trivial)) fun _ => .pure _

theorem graphicsMode_keeps : graphicsMode.Keeps StaysBlind := by
  refine .bind (.lift (.request trivial)) fun located => ?_
  rcases located with status | _ | others
  · dsimp only
    split
    · exact .pure _
    · exact .fail _
  · exact .pure _
  · refine .bind (.ofReply (.request trivial)) fun mode => ?_
    split
    · exact .bind (.throw _) fun _ => .pure _
    · exact .pure _

section Log

theorem Logs.staysBlind {request : Request} (logs : Logs request) : request.StaysBlind := by
  rcases logs with prints | ⟨access, rfl⟩
  · cases request with
    | locateConsole | openConsole | printConsole => trivial
    | _ => exact prints.elim
  · trivial

theorem openFirst_staysBlind : Console.openFirst.Asks StaysBlind :=
  Console.openFirst_asks.mono fun _ prints => Logs.staysBlind (.inl prints)

theorem emit_keeps (logger : Logger) (record : Log.Record) :
    Loader.Keeps StaysBlind (logger.emit record) := by
  unfold Logger.emit
  generalize record.parts logger.sourcePath = parts
  split
  · exact .pure _
  · refine .get_bind fun state => ?_
    split
    · refine (Loader.Keeps.lift openFirst_staysBlind).bind fun found => ?_
      split
      · exact .lift ((Logger.printParts_asks parts).mono fun _ => Logs.staysBlind)
      · exact .pure _
    · exact .pure _
  · exact .lift ((onRegisters_asks _).mono fun _ => Logs.staysBlind)

theorem log_keeps (record : Log.Record) : Loader.Keeps StaysBlind (log record) := by
  refine .get_bind fun state => ?_
  split
  · exact .pure _
  · cases state.cell with
    | made logger => exact (emit_keeps logger record).bind fun _ => .pure _
    | empty | poisoned => exact .pure _

theorem consoleOutput_keeps : Loader.Keeps StaysBlind Logger.consoleOutput := by
  refine .get_bind fun state => ?_
  split
  · exact .pure _
  · refine (Loader.Keeps.lift openFirst_staysBlind).bind fun found => ?_
    split
    · exact .bind (.lift (.request trivial)) fun _ => .pure _
    · exact .pure _

theorem openOutput_keeps (device : Log.Device) :
    Loader.Keeps StaysBlind (Logger.openOutput device) := by
  have serial (com : Serial.Com) : Loader.Keeps StaysBlind (Logger.serialOutput com) := by
    refine .bind (.lift ((onRegisters_asks _).mono fun _ => Logs.staysBlind)) fun uart => ?_
    split
    · exact .pure _
    · exact consoleOutput_keeps
  cases device with
  | console => exact consoleOutput_keeps
  | com1 | com2 => exact serial _
  | null => exact .pure _

theorem getOrMake_keeps (settings : Settings) :
    Loader.Keeps StaysBlind (Logger.getOrMake settings) := by
  refine .get_bind fun state => ?_
  cases state.cell with
  | made logger => exact .pure _
  | poisoned => exact .pure _
  | empty =>
    refine (openOutput_keeps settings.logDevice).bind fun opened => ?_
    cases opened with
    | ok output => exact .bind (.modify fun _ => rfl) fun _ => .pure _
    | error stop => exact .bind (.modify fun _ => rfl) fun _ => .pure _

theorem setUp_keeps (settings : Settings) : Loader.Keeps StaysBlind (Logger.setUp settings) := by
  refine (getOrMake_keeps settings).bind fun made => ?_
  cases made with
  | error stop => exact .pure _
  | ok logger =>
    refine .get_bind fun state => ?_
    split
    · exact .pure _
    · exact .bind (.modify fun _ => rfl) fun _ => .pure _

theorem tell_keeps (level : Log.Level) (text : String) :
    Loader.Keeps StaysBlind (tell level text) := (log_keeps _).bind fun _ => .pure _

theorem greet_keeps : Loader.Keeps StaysBlind greet := by
  refine (tell_keeps _ _).bind fun _ => ?_
  exact .bind (.lift (.request trivial)) fun _ => tell_keeps _ _

end Log

/-- Services of a boot attempt that neither leave nor read. -/
theorem answer_keeps {request : Services.Request} (stays : ∀ key, request ≠ .exitBootServices key)
    (blind : ∀ file count, request ≠ .readFile file count) :
    Loader.Keeps StaysBlind (answer request) := by
  cases request with
  | memoryMap buffer => exact memoryMap_keeps buffer
  | openFile path => exact openRegular_keeps path _
  | createFile path => exact createFile_keeps path
  | fileSize file => exact fileSize_keeps file
  | readFile file count => exact absurd rfl (blind file count)
  | graphicsMode => exact graphicsMode_keeps
  | exitBootServices key => exact absurd rfl (stays key)
  | log record => exact (log_keeps record).bind fun _ => .pure _
  | closeFile file => exact .lift (.request trivial)
  | store address data => exact .lift (.request trivial)
  | fill address count value => exact .lift (.request trivial)
  | writeFile file data => exact Call.Keeps.ofReply (.request trivial)
  | allocatePool size => exact Call.Keeps.ofReply (.request trivial)
  | freePool block => exact Call.Keeps.ofReply (.request trivial)
  | allocatePages address count => exact Call.Keeps.ofReply (.request trivial)

theorem answer_stays {request : Services.Request}
    (stays : ∀ key, request ≠ .exitBootServices key) : Loader.Keeps Stays (answer request) := by
  by_cases reads : ∃ file count, request = .readFile file count
  · obtain ⟨file, count, rfl⟩ := reads
    exact Call.Keeps.bind (readFile_keeps file count.toNat) fun _ => .pure _
  · refine (answer_keeps stays fun file count same => reads ⟨file, count, same⟩).mono ?_
    exact fun _ => StaysBlind.stays

end Uefi

end EfiLoader
