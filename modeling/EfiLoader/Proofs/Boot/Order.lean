import EfiLoader.Proofs.Boot.Path
import EfiLoader.Proofs.Boot.Stages
import EfiLoader.Proofs.Firmware

/-!
The order of the calls of a boot attempt, and what its failures say. `prepare_keeps_order`: an
attempt that comes to an end goes along the path of `Move`s up to the first call whose status or
reply `Breaks` it, then makes the releases that are still due, and tells the failure of that call.

Each stage of an attempt goes a part of the path (`Run`) or breaks it (`BreaksOff`).
-/

namespace EfiLoader

open Boot (Cause Failure Position Run Breaks Move)
open Services (MapReport)

variable {h : List (Exchange Services)} {options : Boot.Options}

namespace Boot

/-- Some calls on the path from a position, one that breaks it, and the releases then due. -/
def BreaksOff (buffer : MemoryMap.Buffer) (options : Options) (p : Position)
    (h : List (Exchange Services)) (failure : Failure) : Prop :=
  ∃ front last cleanup q, calls h = front ++ last :: cleanup ∧ Run buffer options p front q ∧
    Breaks buffer q last failure ∧ cleanup.map Exchange.request = last.dueAfter q.due

theorem BreaksOff.after {buffer : MemoryMap.Buffer} {p q : Position}
    {first rest : List (Exchange Services)} {failure : Failure}
    (run : Run buffer options p (calls first) q)
    (breaks : BreaksOff buffer options q rest failure) :
    BreaksOff buffer options p (first ++ rest) failure := by
  obtain ⟨front, last, cleanup, r, split, onward, breaks, releases⟩ := breaks
  refine ⟨calls first ++ front, last, cleanup, r, ?_, run.append onward, breaks, releases⟩
  rw [calls_append, split, List.append_assoc]

end Boot

open Boot (BreaksOff)

section Stages

variable {buffer : MemoryMap.Buffer} {map : MemoryMap}

namespace MemoryMap

variable {later : MemoryMap} {cause : Cause}

theorem Retaking.run_start (options : Boot.Options)
    (taken : Retaking (.blank buffer) h (map, .ok ())) :
    Run buffer options .start (calls h)
      (if options.saveMemoryMap then .creating map else .searching map) := by
  obtain ⟨reply, report, rfl, rfl, answered, aligned, sound⟩ := taken.sound
  exact .single (.taken reply report answered aligned sound)

theorem Retaking.breaks_start (room : buffer.bytes ≠ [])
    (stopped : Retaking (.blank buffer) h (map, .fail cause)) :
    BreaksOff buffer options .start h ⟨.getMemoryMap, cause⟩ := by
  obtain ⟨reply, rfl, flaw⟩ := stopped.flaw room
  exact ⟨[], _, [], .start, rfl, .nil _, .notTaken reply cause flaw, rfl⟩

namespace Listing

theorem Writing.run {file : Services.File} {texts : List Bytes}
    (writing : Writing file texts h (.ok ())) :
    Run buffer options (.writing map file texts) (calls h) (.writing map file []) := by
  generalize ended : Except.ok () = o at writing
  induction writing with
  | done => exact .nil _
  | stopped => cases ended
  | wrote _ ih => exact .cons (.wrote map file _ _) (ih ended)

theorem Writing.breaks (buffer : MemoryMap.Buffer) (options : Boot.Options) (map : MemoryMap)
    {file : Services.File} {texts : List Bytes} (writing : Writing file texts h (.fail cause)) :
    ∃ front text rest status, calls h = front ++ [⟨.writeFile file text, .fail status⟩] ∧
      Run buffer options (.writing map file texts) front (.writing map file (text :: rest)) ∧
      cause = .io status := by
  generalize ended : Outcome.fail cause = o at writing
  induction writing with
  | done => cases ended
  | stopped text rest stop =>
    cases stop <;> cases ended
    exact ⟨[], text, rest, _, rfl, .nil _, rfl⟩
  | wrote _ ih =>
    obtain ⟨front, text, rest, status, split, run, told⟩ := ih ended
    refine ⟨_ :: front, text, rest, status, ?_, .cons (.wrote map file _ _) run, told⟩
    exact congrArg (List.cons _) split

theorem Saving.run (saving : Saving map Boot.listingPath h (.ok ())) :
    Run buffer options (.creating map) (calls h) (.searching map) := by
  generalize ended : Except.ok () = o at saving
  cases saving with
  | @closed file record writing result wrote =>
    cases result <;> cases ended
    have writes : Run buffer options (.writing map file (lines map)) (calls writing)
        (.writing map file []) := wrote.run
    have run := Run.cons (.created map file)
      (.cons (.wrote map file _ _) (writes.append (.single (.recorded map file))))
    simpa [Exchange.isCall] using run
  | notCreated stop => cases stop <;> cases ended
  | _ => cases ended

theorem Saving.breaks (saving : Saving map Boot.listingPath h (.fail cause)) :
    BreaksOff buffer options (.creating map) h ⟨.saveMemoryMap, cause⟩ := by
  generalize ended : Outcome.fail cause = o at saving
  cases saving with
  | notCreated stop =>
    cases stop <;> cases ended
    exact ⟨[], _, [], _, rfl, .nil _, .notCreated map _, rfl⟩
  | noHeader file status =>
    cases ended
    refine ⟨[_], _, [_], _, rfl, .single (.created map file), .notWritten map file _ _ status, ?_⟩
    simp [Exchange.dueAfter, Exchange.release?, Position.due]
  | @closed file record writing result wrote =>
    cases result <;> cases ended
    obtain ⟨front, text, rest, status, split, run, rfl⟩ := wrote.breaks buffer options map
    refine ⟨_ :: _ :: front, _, [⟨.closeFile file, ()⟩], _, ?_,
      .cons (.created map file) (.cons (.wrote map file _ _) run),
      .notWritten map file text rest status, ?_⟩
    · simp [Exchange.isCall, split]
    · simp [Exchange.dueAfter, Exchange.release?, Position.due]
  | _ => cases ended

end Listing

end MemoryMap

namespace Screen

theorem Finding.run {mode : Mode} {frameBuffer : FrameBuffer} (found : Finding h (.ok mode))
    (described : describe mode = .ok frameBuffer) :
    Run buffer options (.searching map) (calls h) (.opening map) := by
  cases found with
  | found _ first second =>
    rcases Boot.describe_cases mode with ⟨supported, _⟩ | ⟨_, unknown⟩
    · exact .single (.found map mode supported)
    · cases unknown.symm.trans described

theorem Finding.breaks {cause : Cause} (finding : Finding h (.fail cause)) :
    BreaksOff buffer options (.searching map) h ⟨.openGraphicsOutput, cause⟩ := by
  cases finding with
  | failed status record => exact ⟨[], _, [], _, rfl, .nil _, .notSearched map status, rfl⟩
  | noDevice => exact ⟨[], _, [], _, rfl, .nil _, .noDevice map, rfl⟩

theorem Finding.breaks_describing {mode : Mode} {cause : Cause} (found : Finding h (.ok mode))
    (unknown : describe mode = .error cause) :
    BreaksOff buffer options (.searching map) h ⟨.describeFrameBuffer, cause⟩ := by
  cases found with
  | found _ first second =>
    rcases Boot.describe_cases mode with ⟨_, _, described⟩ | ⟨other, told⟩
    · cases described.symm.trans unknown
    · cases told.symm.trans unknown
      exact ⟨[], _, [], _, rfl, .nil _, .unsupported map mode other, rfl⟩

end Screen

namespace Kernel

variable {cause : Cause}

theorem calls_stored {file : Bytes} {base destination : UInt64} (segments : List Segment) :
    calls (segments.map (Segment.stored file base destination)) = [] := by
  induction segments with
  | nil => rfl
  | cons s rest ih => exact ih

theorem Staging.run {file : Services.File} {staged : Staged}
    (staging : Staging file h (.ok staged)) :
    Run buffer options (.sizing map file) (calls h)
      (.closing map file staged.block staged.bytes) := by
  cases staging with
  | staged size block reply full =>
    exact .cons (.sized map file size)
      (.cons (.allocated map file size block) (.single (.read map file size block reply full)))

/-- A file that could not be read is closed after what staging it made due. -/
theorem Staging.breaks {file : Services.File} (staging : Staging file h (.fail cause)) :
    BreaksOff buffer options (.sizing map file) (h ++ [⟨.closeFile file, ()⟩])
      ⟨.loadKernel, cause⟩ := by
  cases staging with
  | noSize status =>
    refine ⟨[], _, [_], _, rfl, .nil _, .notSized map file status, ?_⟩
    simp [Exchange.dueAfter, Exchange.release?, Position.due]
  | noMemory size status record =>
    exact ⟨[_], _, [_], _, rfl, .single (.sized map file size), .noMemory map file size status, rfl⟩
  | notRead size block reply status record freed shortfall =>
    have run : Run buffer options (.sizing map file)
        [⟨.fileSize file, .ok size⟩, ⟨.allocatePool size, .ok block⟩]
        (.reading map file size block) :=
      .cons (.sized map file size) (.single (.allocated map file size block))
    refine ⟨[_, _], ⟨.readFile file size, reply⟩, [_, _], _, rfl, run, ?_, ?_⟩
    · cases shortfall with
      | failed => exact .notRead map file size block status
      | short reply differs => exact .short map file size block reply differs
    · cases shortfall <;> simp [Exchange.dueAfter, Exchange.release?, Position.due]

theorem Placing.run {file : Services.File} {block : UInt64} {contents : Bytes} {loaded : Loaded}
    (placing : Placing contents h (.ok loaded)) :
    Run buffer options (.closing map file block contents) (⟨.closeFile file, ()⟩ :: calls h)
      (.releasing map block) := by
  cases placing with
  | @placed kernel span pages fits destination record bounded =>
    have run : Run buffer options (.closing map file block contents)
        [⟨.closeFile file, ()⟩, ⟨.allocatePages span.base pages, .ok destination⟩]
        (.releasing map block) :=
      .cons (.accepted map file block contents fits) (.single (.claimed map block _ _ destination))
    simpa [Exchange.isCall, calls_stored] using run

/-- The block is released after whatever kept the kernel from its place. -/
theorem Placing.breaks {file : Services.File} {block : UInt64} {contents : Bytes}
    (placing : Placing contents h (.fail cause)) (freed : Outcome Status Unit) :
    BreaksOff buffer options (.closing map file block contents)
      (⟨.closeFile file, ()⟩ :: (h ++ [⟨.freePool block, freed⟩])) ⟨.loadKernel, cause⟩ := by
  cases placing with
  | rejected rejection parsed =>
    refine ⟨[], _, [_], _, rfl, .nil _, .rejected map file block contents rejection parsed, ?_⟩
    simp [Exchange.dueAfter, Exchange.release?, Position.due]
  | nothing kernel parsed nil =>
    refine ⟨[], _, [_], _, rfl, .nil _, .nothing map file block contents kernel parsed nil, ?_⟩
    simp [Exchange.dueAfter, Exchange.release?, Position.due]
  | refused fits status record =>
    refine ⟨[_], _, [_], _, rfl, .single (.accepted map file block contents fits),
      .notClaimed map block _ _ status, ?_⟩
    simp [Exchange.dueAfter, Exchange.release?, Position.due]

theorem Loading.run {loaded : Loaded} (loading : Loading Boot.kernelPath h (.ok loaded)) :
    Run buffer options (.opening map) (calls h) (.leaving map) := by
  cases loading with
  | @loaded file staging placing staged _ read placed =>
    have places : Run buffer options (.closing map file staged.block staged.bytes)
        (⟨.closeFile file, ()⟩ :: calls placing) (.releasing map staged.block) := placed.run
    have run := Run.cons (.opened map file)
      (read.run.append (places.append (.single (.released map staged.block))))
    simpa [Exchange.isCall] using run

theorem Loading.breaks (loading : Loading Boot.kernelPath h (.fail cause)) :
    BreaksOff buffer options (.opening map) h ⟨.loadKernel, cause⟩ := by
  have opens (file : Services.File) :
      Run buffer options (.opening map) (calls [⟨.openFile Boot.kernelPath, .ok file⟩])
        (.sizing map file) := .single (.opened map file)
  cases loading with
  | notOpened status record =>
    refine ⟨[], _, [], _, rfl, .nil _, ?_, rfl⟩
    unfold openFailure
    split
    · rename_i missing
      rw [missing]
      exact .noFile map
    · rename_i other
      exact .notOpened map status other
  | notStaged failed => exact .after (opens _) failed.breaks
  | notPlaced read failed freed =>
    exact .after (opens _) (.after read.run (failed.breaks _))
  | @notReleased file staging placing staged loaded read placed status record =>
    refine .after (opens file) (.after read.run ?_)
    refine ⟨_ :: calls placing, _, [], _, ?_, placed.run, .notReleased map staged.block status, ?_⟩
    · simp [Exchange.isCall]
    · simp [Exchange.dueAfter, Exchange.release?, Position.due]

end Kernel

namespace Boot

variable {later : MemoryMap} {cause : Cause}

theorem Leaving.run (left : Leaving map h (later, .ok ())) :
    Run buffer options (.leaving map) (calls h) .left := by
  generalize ended : (later, Except.ok ()) = result at left
  cases left with
  | exited => exact .single (.exited map)
  | @again retaking again result retaken =>
    obtain ⟨reply, report, rfl, rfl, answered, aligned, sound⟩ := retaken.sound
    cases result <;> cases ended
    exact .cons (.refused map) (.cons (.retaken map reply report answered aligned sound)
      (.single (.exitedAgain _)))
  | _ => cases ended

theorem Leaving.breaks (room : map.buffer.bytes ≠ []) (left : Leaving map h (later, .fail cause)) :
    BreaksOff buffer options (.leaving map) h ⟨.exitBootServices, cause⟩ := by
  have refused : Run buffer options (.leaving map) [_] (.retaking map) := .single (.refused map)
  generalize ended : (later, Outcome.fail cause) = result at left
  cases left with
  | refused status other =>
    cases ended
    exact ⟨[], _, [], _, rfl, .nil _, .notLeft map status other, rfl⟩
  | notRetaken retaken =>
    cases ended
    obtain ⟨reply, rfl, flaw⟩ := retaken.flaw room
    exact ⟨[_], _, [], _, rfl, refused, .notRetaken map reply cause flaw, rfl⟩
  | @again retaking again result retaken =>
    obtain ⟨reply, report, rfl, rfl, answered, aligned, sound⟩ := retaken.sound
    rcases result with (status | _) | _ <;> cases ended
    exact ⟨[_, _], _, [], _, rfl,
      refused.append (.single (.retaken map reply report answered aligned sound)),
      .notLeftAgain _ status, rfl⟩
  | _ => cases ended

theorem FromKernel.run {frameBuffer : Screen.FrameBuffer} {launch : Launch}
    (way : FromKernel options map frameBuffer h (.ok launch)) :
    Run buffer options (.opening map) (calls h) .left := by
  generalize ended : Except.ok launch = o at way
  cases way with
  | notLoaded => cases ended
  | @left loading leaving kernel later result loaded entry notice left =>
    cases result <;> cases ended
    simpa [Exchange.isCall] using loaded.run.append left.run

theorem FromKernel.breaks {frameBuffer : Screen.FrameBuffer} {failure : Failure}
    (room : map.buffer.bytes ≠ [])
    (way : FromKernel options map frameBuffer h (.fail failure)) :
    BreaksOff buffer options (.opening map) h failure := by
  generalize ended : Outcome.fail failure = o at way
  cases way with
  | @notLoaded _ stop stopped =>
    cases stop <;> cases ended
    exact stopped.breaks
  | @left loading leaving kernel later result loaded entry notice left =>
    rcases result with (cause | _) | _ <;> cases ended
    have noted : Run buffer options (.opening map)
        (calls (loading ++ [⟨.log entry, ()⟩, ⟨.log notice, ()⟩])) (.leaving map) := by
      simpa [Exchange.isCall] using loaded.run
    simpa using BreaksOff.after noted (left.breaks room)

theorem painting_calls (mode : Screen.Mode) : calls (painting options mode) = [] := by
  unfold painting
  split <;> rfl

theorem FromScreen.run {launch : Launch} (way : FromScreen options map h (.ok launch)) :
    Run buffer options (.searching map) (calls h) .left := by
  generalize ended : Except.ok launch = o at way
  cases way with
  | notFound | notDescribed => cases ended
  | described found described onward =>
    subst ended
    have shown : Run buffer options (.searching map) _ (.opening map) := found.run described
    simpa [painting_calls] using shown.append onward.run

theorem FromScreen.breaks {failure : Failure} (room : map.buffer.bytes ≠ [])
    (way : FromScreen options map h (.fail failure)) :
    BreaksOff buffer options (.searching map) h failure := by
  generalize ended : Outcome.fail failure = o at way
  cases way with
  | @notFound _ stop stopped =>
    cases stop <;> cases ended
    exact stopped.breaks
  | notDescribed found unknown =>
    cases ended
    exact found.breaks_describing unknown
  | @described finding rest mode frameBuffer _ found described onward =>
    subst ended
    have shown : Run buffer options (.searching map) (calls (finding ++ painting options mode))
        (.opening map) := by
      simpa [painting_calls] using found.run described
    simpa using BreaksOff.after shown (onward.breaks room)

theorem Preparing.run {launch : Launch} (way : Preparing buffer options h (.ok launch)) :
    Run buffer options .start (calls h) .left := by
  generalize ended : Except.ok launch = o at way
  cases way with
  | notTaken | notSaved => cases ended
  | saved taken record wanted saved notice onward =>
    subst ended
    have takes := taken.run_start options
    rw [if_pos wanted] at takes
    simpa [Exchange.isCall] using takes.append (saved.run.append onward.run)
  | notWanted taken record unwanted onward =>
    subst ended
    have takes := taken.run_start options
    rw [unwanted] at takes
    simpa [Exchange.isCall] using takes.append onward.run

theorem Preparing.breaks {failure : Failure} (room : buffer.bytes ≠ [])
    (way : Preparing buffer options h (.fail failure)) :
    BreaksOff buffer options .start h failure := by
  generalize ended : Outcome.fail failure = o at way
  cases way with
  | @notTaken _ _ stop stopped =>
    cases stop <;> cases ended
    exact stopped.breaks_start room
  | @notSaved taking saving map stop taken record wanted stopped =>
    cases stop <;> cases ended
    have takes : Run buffer options .start (calls (taking ++ [⟨.log record, ()⟩]))
        (.creating map) := by
      simpa [Exchange.isCall, wanted] using taken.run_start options
    simpa using BreaksOff.after takes stopped.breaks
  | @saved taking saving rest map _ taken record wanted saved notice onward =>
    subst ended
    have takes := taken.run_start options
    rw [if_pos wanted] at takes
    have saves : Run buffer options .start
        (calls (taking ++ [⟨.log record, ()⟩] ++ saving ++ [⟨.log notice, ()⟩]))
        (.searching map) := by
      simpa [Exchange.isCall] using takes.append saved.run
    simpa using BreaksOff.after saves (onward.breaks taken.room)
  | @notWanted taking rest map _ taken record unwanted onward =>
    subst ended
    have takes : Run buffer options .start (calls (taking ++ [⟨.log record, ()⟩]))
        (.searching map) := by
      simpa [Exchange.isCall, unwanted] using taken.run_start options
    simpa using BreaksOff.after takes (onward.breaks taken.room)

end Boot

end Stages

namespace Boot

variable {buffer : MemoryMap.Buffer} {o : Outcome Failure Launch}

/-- How the calls of an attempt go with what it ends with. -/
inductive Orderly (buffer : MemoryMap.Buffer) (options : Options) :
    List (Exchange Services) → Outcome Failure Launch → Prop
  /-- The firmware is not asked for a map that has no room. -/
  | noRoom (empty : buffer.bytes = []) :
      Orderly buffer options [] (.fail ⟨.getMemoryMap, .bufferTooSmall⟩)
  /-- After the first call that failed, or failed a check, there is nothing but what is due. -/
  | broken {front cleanup : List (Exchange Services)} {last : Exchange Services} {p : Position}
      {failure : Failure} (run : Run buffer options .start front p)
      (sound : ∀ e ∈ front, e.Succeeded ∨ Refused e) (breaks : Breaks buffer p last failure)
      (releases : cleanup.map Exchange.request = due (front ++ [last])) :
      Orderly buffer options (front ++ last :: cleanup) (.fail failure)
  | left {h : List (Exchange Services)} (run : Run buffer options .start h .left)
      (sound : ∀ e ∈ h, e.Succeeded ∨ Refused e) (launch : Launch) :
      Orderly buffer options h (.ok launch)

theorem Preparing.of_empty (way : Preparing buffer options h o) (empty : buffer.bytes = []) :
    h = [] ∧ o = .fail ⟨.getMemoryMap, .bufferTooSmall⟩ := by
  cases way with
  | notTaken stopped =>
    obtain ⟨rfl, told⟩ := stopped.of_empty empty
    cases told
    exact ⟨rfl, rfl⟩
  | notSaved taken | saved taken | notWanted taken => cases (taken.of_empty empty).2

theorem Preparing.orderly (way : Preparing buffer options h o) (returns : o ≠ .crash) :
    Orderly buffer options (calls h) o := by
  rcases o with (failure | _) | launch
  · by_cases empty : buffer.bytes = []
    · obtain ⟨rfl, told⟩ := way.of_empty empty
      rw [told]
      exact .noRoom empty
    · obtain ⟨front, last, cleanup, p, split, run, breaks, releases⟩ := way.breaks empty
      rw [split]
      exact .broken run run.succeeded breaks (by rw [releases, due_of_run run])
  · exact absurd rfl returns
  · exact .left way.run way.run.succeeded launch

theorem Orderly.told {h : List (Exchange Services)} {failure failure' : Failure}
    (orderly : Orderly buffer options h (.fail failure))
    (orderly' : Orderly buffer options h (.fail failure')) : failure = failure' := by
  generalize calls : h = h' at orderly'
  cases orderly with
  | noRoom empty =>
    cases orderly' with
    | noRoom => rfl
    | broken => simp at calls
  | broken run _ breaks _ =>
    cases orderly' with
    | noRoom => simp at calls
    | broken run' _ breaks' _ => exact run.break_unique breaks run' breaks' calls

/-- **An attempt goes along its path up to the first call that fails, in status or in what is
checked of its reply, then releases what it still holds, and tells that failure**, whatever the
firmware replies. What is told is settled by the calls. -/
theorem prepare_keeps_order {σ : Type} (machine : Machine Services σ) (state : σ)
    (buffer : MemoryMap.Buffer) (options : Options)
    (returns : (prepare buffer options).outcome machine state ≠ .crash) :
    Orderly buffer options (calls ((prepare buffer options).history machine state))
      ((prepare buffer options).outcome machine state) ∧
    ∀ failure failure',
      Orderly buffer options (calls ((prepare buffer options).history machine state))
        (.fail failure) →
      Orderly buffer options (calls ((prepare buffer options).history machine state))
        (.fail failure') → failure = failure' := by
  have way := preparing_of_yields ((prepare buffer options).yields_outcome machine state)
  exact ⟨way.orderly returns, fun _ _ orderly orderly' => orderly.told orderly'⟩

/-- Firmware that can neither read a file nor release what it allocated. -/
def unreadable : Machine Services Unit
  | .readFile _ _ => pure (.fail (.ofError 7))
  | .freePool _ => pure (.fail .notFound)
  | request => Firmware.serve {} request

/-- The read is told, not the release that fails after it. -/
theorem prepare_unreadable :
    let buffer : MemoryMap.Buffer := ⟨0x2000, List.replicate 64 0⟩
    let h := (prepare buffer {}).history unreadable ()
    let failure : Failure := ⟨.loadKernel, .io (.ofError 7)⟩
    (prepare buffer {}).outcome unreadable () = .fail failure ∧
    (calls h).map Exchange.request =
      [.memoryMap buffer.bytes, .createFile listingPath,
        .writeFile 1 (Bytes.utf8 MemoryMap.Listing.header), .closeFile 1, .graphicsMode,
        .openFile kernelPath, .fileSize 0, .allocatePool 0, .readFile 0 0, .freePool 0x1000,
        .closeFile 0] ∧
    Orderly buffer {} (calls h) (.fail failure) ∧
    ∀ other, Orderly buffer {} (calls h) (.fail other) → other = failure := by
  intro buffer h failure
  have told : (prepare buffer {}).outcome unreadable () = .fail failure := by decide +kernel
  obtain ⟨orderly, settled⟩ :=
    prepare_keeps_order unreadable () buffer {} (by rw [told]; exact nofun)
  rw [told] at orderly
  exact ⟨told, by decide +kernel, orderly, fun other again => settled _ _ again orderly⟩

end Boot

end EfiLoader
