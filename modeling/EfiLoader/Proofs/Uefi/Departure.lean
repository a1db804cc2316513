import EfiLoader.Proofs.Boot.Stages
import EfiLoader.Proofs.Kernel.Placement
import EfiLoader.Proofs.Uefi.Answering
import EfiLoader.Proofs.Uefi.SettingsFile

/-!
What comes after the exit from the boot services. `Loading.reads` and `Preparing.launches` say where
a launch comes from, `Departure` how a history of the loader may end. Main statement: once the exit
has gone well nothing is called any more but the kernel, which is called on no other way
(`silent_after_exit`).
-/

namespace EfiLoader

open Boot (Cause Failure Launch Options)

/-- Nothing is read from a file. -/
def ReadsNothing (services : List (Exchange Services)) : Prop :=
  ∀ e ∈ services, ∀ file count, e.request ≠ .readFile file count

theorem ReadsNothing.append {services services' : List (Exchange Services)}
    (first : ReadsNothing services) (rest : ReadsNothing services') :
    ReadsNothing (services ++ services') := List.forall_mem_append.mpr ⟨first, rest⟩

namespace Kernel

variable {services : List (Exchange Services)}

/-- A loaded kernel is that of the file which was opened and then read once, as a whole. -/
theorem Loading.reads {path : String} {loaded : Loaded}
    (loading : Loading path services (.ok loaded)) :
    ∃ file size reply block kernel before after,
      services = ⟨.openFile path, .ok file⟩ ::
        (before ++ ⟨.readFile file size, .ok reply⟩ :: after) ∧
      ReadsNothing before ∧ ReadsNothing after ∧ reply.count = size ∧
      Executable.parse (fillBlock size block reply.data) = .ok kernel ∧
      loaded.entry = kernel.entry := by
  cases loading with
  | @loaded file _ _ _ _ read placed =>
    cases read with
    | staged size block reply full =>
      cases placed with
      | @placed kernel span pages fits destination record bounded =>
        refine ⟨file, size, reply, block, kernel, [_, _], _ :: (_ ++ [_]), rfl, ?_, ?_, full,
          fits.parsed, rfl⟩
        · simp [ReadsNothing]
        · have stores : ReadsNothing (kernel.segments.map
              (Segment.stored (fillBlock size block reply.data) span.base destination)) := by
            intro e he
            obtain ⟨s, -, rfl⟩ := List.mem_map.mp he
            exact nofun
          have ends : ReadsNothing [⟨.log record, ()⟩, ⟨.freePool block.address, .ok ()⟩] := by
            simp [ReadsNothing]
          simpa [ReadsNothing] using stores.append ends

end Kernel

theorem MemoryMap.Retaking.readsNothing {map : MemoryMap} {services : List (Exchange Services)}
    {result : MemoryMap × Outcome Cause Unit} (retaking : Retaking map services result) :
    ReadsNothing services := by
  cases retaking <;> simp [ReadsNothing]

namespace Boot

variable {options : Options} {map : MemoryMap} {launch : Launch}
  {services : List (Exchange Services)}

theorem Leaving.readsNothing {result : MemoryMap × Outcome Cause Unit}
    (left : Leaving map services result) : ReadsNothing services := by
  have exit (key : UInt64) (reply : Outcome Status Unit) :
      ReadsNothing [⟨.exitBootServices key, reply⟩] := by simp [ReadsNothing]
  cases left with
  | exited | crashed | refused => exact exit _ _
  | notRetaken retaken => exact (exit _ _).append retaken.readsNothing
  | again result retaken => exact (exit _ _).append (retaken.readsNothing.append (exit _ _))

/-- Where a launch comes from: the screen that was found, and the kernel that was loaded last. -/
inductive Launches (options : Options) : List (Exchange Services) → Launch → Prop
  | loaded {before loading after : List (Exchange Services)} {mode : Screen.Mode}
      {frameBuffer : Screen.FrameBuffer} {kernel : Kernel.Loaded}
      (shown : ⟨.graphicsMode, .ok (some mode)⟩ ∈ before)
      (described : Screen.describe mode = .ok frameBuffer)
      (loads : Kernel.Loading kernelPath loading (.ok kernel)) (quiet : ReadsNothing after)
      (goesOn : after ≠ []) :
      Launches options (before ++ (loading ++ after))
        ⟨kernel.entry, frameBuffer, options.entryCall⟩

theorem Launches.after (launches : Launches options services launch)
    (first : List (Exchange Services)) : Launches options (first ++ services) launch := by
  cases launches with
  | loaded shown described loads quiet goesOn =>
    rw [← List.append_assoc]
    exact .loaded (List.mem_append_right first shown) described loads quiet goesOn

theorem FromScreen.launches (way : FromScreen options map services (.ok launch)) :
    Launches options services launch := by
  generalize ended : (.ok launch : Outcome Failure Launch) = o at way
  cases way with
  | notFound | notDescribed => cases ended
  | described found shown onward =>
    cases onward with
    | notLoaded => cases ended
    | @left _ _ _ _ result loads entry notice left =>
      cases result with
      | error stop => cases ended
      | ok _ =>
        cases ended
        cases found with
        | found mode first second =>
          rw [← List.append_assoc]
          refine .loaded (List.mem_append_left _ List.mem_cons_self) shown loads ?_ nofun
          have notes : ReadsNothing [⟨.log entry, ()⟩, ⟨.log notice, ()⟩] := by
            simp [ReadsNothing]
          exact notes.append left.readsNothing

theorem Preparing.launches {buffer : MemoryMap.Buffer}
    (way : Preparing buffer options services (.ok launch)) :
    Launches options services launch := by
  generalize ended : (.ok launch : Outcome Failure Launch) = o at way
  cases way with
  | notTaken | notSaved => cases ended
  | @saved taking saving _ _ _ taken record wanted saved notice onward =>
    subst ended
    have launches := onward.launches.after
      (taking ++ ⟨.log record, ()⟩ :: (saving ++ [⟨.log notice, ()⟩]))
    simpa using launches
  | @notWanted taking _ _ _ taken record unwanted onward =>
    subst ended
    have launches := onward.launches.after (taking ++ [⟨.log record, ()⟩])
    simpa using launches

end Boot

namespace Uefi

variable {h : List (Exchange Uefi)} {loader later : LoaderState} {ended : End}

/-- A block into which as many bytes were read as it has holds these. -/
theorem fillBlock_of_full {size : UInt64} {block : Services.Block} {data : Bytes}
    (full : data.length = size.toNat) : Kernel.fillBlock size block data = data := by
  unfold Kernel.fillBlock
  generalize sized : Bytes.overlay (List.replicate size.toNat 0) 0 block.contents = memory
  have length : memory.length = size.toNat := by
    rw [← sized, Bytes.length_overlay, List.length_replicate]
  rw [Bytes.overlay, List.take_zero, List.nil_append, Nat.sub_zero, Nat.zero_add,
    List.take_of_length_le (by omega), List.drop_eq_nil_of_le (by omega), List.append_nil]

/-- The file of the kernel was opened, and what was read of it since then is an executable. -/
inductive ReadKernel : List (Exchange Uefi) → Kernel.Elf.File → Prop
  | read {before after : List (Exchange Uefi)} {file : File} {kernel : Kernel.Executable}
      {elf : Kernel.Elf.File}
      (parsed : Kernel.Executable.parse (dataOf file after) = .ok kernel)
      (reads : kernel.Reads (dataOf file after) elf) :
      ReadKernel (before ++ ⟨.openFile Boot.kernelPath .read, .ok file⟩ :: after) elf

theorem Serves.readKernel {loading after : List (Exchange Services)} {kernel : Kernel.Loaded}
    (serves : Serves loader (loading ++ after) h later)
    (loads : Kernel.Loading Boot.kernelPath loading (.ok kernel)) (quiet : ReadsNothing after) :
    ∃ elf, ReadKernel h elf ∧ kernel.entry = elf.entry := by
  obtain ⟨file, size, reply, block, executable, before, behind, rfl, blind, blind', full, parsed,
    entry⟩ := loads.reads
  rw [List.cons_append, List.append_assoc, List.cons_append] at serves
  cases serves with
  | cons opened serves =>
    obtain ⟨first, middle, rest, rfl, here, there⟩ := serves.of_append
    cases there with
    | @cons _ _ _ _ _ piece last read there =>
      obtain ⟨early, late, rfl, unread⟩ := of_answer_openFile_ok opened
      obtain ⟨told, counted, bound⟩ := of_answer_readFile_ok read
      have data : dataOf file (late ++ (first ++ (piece ++ last))) = reply.data := by
        rw [dataOf_append, dataOf_append, dataOf_append, Uefi.dataOf_eq_nil file unread,
          here.dataOf_eq_nil file blind, told, there.dataOf_eq_nil file (blind'.append quiet)]
        simp
      have length : reply.data.length = size.toNat := by
        have small : reply.data.length < 2 ^ 64 := Nat.lt_of_le_of_lt bound size.toNat_lt
        rw [← full, counted, UInt64.toNat_ofNat_of_lt' small]
      rw [fillBlock_of_full length, ← data] at parsed
      obtain ⟨elf, reads⟩ := Kernel.Executable.parse_reads parsed
      refine ⟨elf, ?_, entry.trans reads.entry_eq⟩
      rw [List.append_assoc, List.cons_append]
      exact .read parsed reads

theorem Serves.shown {services : List (Exchange Services)} {mode : Screen.Mode}
    (serves : Serves loader services h later)
    (found : ⟨.graphicsMode, .ok (some mode)⟩ ∈ services) : ⟨.openGraphics, .ok mode⟩ ∈ h := by
  induction serves with
  | nil => cases found
  | cons answered _ ih =>
    rcases List.mem_cons.mp found with rfl | found
    · exact List.mem_append_left _ (of_answer_graphicsMode_ok answered)
    · exact List.mem_append_right _ (ih found)

/-- How the kernel is called. -/
def argument (options : Options) (frameBuffer : Screen.FrameBuffer) : Option Screen.FrameBuffer :=
  match options.entryCall with
  | .withFrameBuffer => some frameBuffer
  | .bare => none

theorem argument_ofSettings (used : Settings) (frameBuffer : Screen.FrameBuffer) :
    argument (.ofSettings used) frameBuffer =
      if used.bareEntry then none else some frameBuffer := by
  unfold argument Options.ofSettings
  cases used.bareEntry <;> rfl

/-- The boot services are not left and the kernel is not called, or they are left in the last call
but one and the last one is that of the kernel. -/
inductive Departure (options : Options) : List (Exchange Uefi) → End → LoaderState → Prop
  | stayed {h : List (Exchange Uefi)} {ended : End} {later : LoaderState}
      (stays : ∀ x ∈ h, ¬ Departs x.request x.reply) : Departure options h ended later
  | left {before : List (Exchange Uefi)} {key : UInt64} {status : Status} {mode : Screen.Mode}
      {frameBuffer : Screen.FrameBuffer} {elf : Kernel.Elf.File} {later : LoaderState}
      (stays : ∀ x ∈ before, ¬ Departs x.request x.reply) (leaves : status.isError = false)
      (gone : later.systemTable = false) (shown : ⟨.openGraphics, .ok mode⟩ ∈ before)
      (described : Screen.describe mode = .ok frameBuffer) (loaded : ReadKernel before elf) :
      Departure options
        (before ++ [⟨.exitBootServices key, status⟩,
          ⟨.enterKernel elf.entry (argument options frameBuffer), ()⟩])
        .halted later

theorem ReadKernel.after {elf : Kernel.Elf.File} (loaded : ReadKernel h elf)
    (first : List (Exchange Uefi)) : ReadKernel (first ++ h) elf := by
  cases loaded with
  | read parsed reads =>
    rw [← List.append_assoc]
    exact .read parsed reads

theorem Departure.after {options : Options} {first : List (Exchange Uefi)}
    (departure : Departure options h ended later)
    (stays : ∀ x ∈ first, ¬ Departs x.request x.reply) :
    Departure options (first ++ h) ended later := by
  cases departure with
  | stayed stays' => exact .stayed (List.forall_mem_append.mpr ⟨stays, stays'⟩)
  | left stays' leaves gone shown described loaded =>
    rw [← List.append_assoc]
    exact .left (List.forall_mem_append.mpr ⟨stays, stays'⟩) leaves gone
      (List.mem_append_right first shown) described (loaded.after first)

theorem Loader.Keeps.not_departs {α : Type} {part : Loader α} {value : α}
    (keeps : Loader.Keeps Request.Stays part) (yields : Loader.Yields part loader h value later) :
    ∀ x ∈ h, ¬ Departs x.request x.reply :=
  fun x hx => ((keeps _ _ _ _ yields).1 x hx).not_departs x.reply

/-- An attempt that was let go ends with the exit; it knows the kernel and the screen by then. -/
theorem Serves.left {options : Options} {services : List (Exchange Services)} {launch : Launch}
    (serves : Serves loader services h later) (launches : Boot.Launches options services launch)
    (leaves : Boot.LeavesLast services (.ok launch)) :
    ∃ before key status mode elf, h = before ++ [⟨.exitBootServices key, status⟩] ∧
      (∀ x ∈ before, ¬ Departs x.request x.reply) ∧ status.isError = false ∧
      later.systemTable = false ∧ ⟨.openGraphics, .ok mode⟩ ∈ before ∧
      Screen.describe mode = .ok launch.frameBuffer ∧ ReadKernel before elf ∧
      launch.entry = elf.entry ∧ launch.entryCall = options.entryCall := by
  obtain ⟨x, member, exits, succeeded⟩ := leaves.ok_iff.mp ⟨launch, rfl⟩
  cases launches with
  | @loaded early loading after mode frameBuffer kernel shown described loads quiet goesOn =>
    have split : early ++ (loading ++ after) =
        early ++ (loading ++ after.dropLast) ++ [after.getLast goesOn] := by
      rw [List.append_assoc, List.append_assoc, List.dropLast_concat_getLast]
    rw [split] at serves member leaves
    have unsuccessful := leaves.last
    rw [List.dropLast_concat] at unsuccessful
    obtain ⟨first, middle, piece, rfl, here, there⟩ := serves.of_append
    -- The exit that succeeded is none of the earlier services, so it is the last one.
    rcases List.mem_append.mp member with earlier | final
    · exact absurd ⟨exits, succeeded⟩ (unsuccessful x earlier)
    rw [← List.mem_singleton.mp final] at there
    obtain ⟨request, reply⟩ := x
    cases request with
    | exitBootServices key =>
      have answered := there.of_singleton
      rw [show reply = .ok () from succeeded] at answered
      rcases of_answer_exit answered with
        ⟨-, impossible, -⟩ | ⟨status, rfl, ⟨-, impossible, -⟩ | ⟨leaves, -, rfl⟩⟩
      · cases impossible
      · cases impossible
      · obtain ⟨start, ready, rest, rfl, finding, loading⟩ := here.of_append
        obtain ⟨elf, loaded, entry⟩ := loading.readKernel loads fun e he =>
          quiet e (List.dropLast_subset after he)
        exact ⟨start ++ rest, key, status, mode, elf, rfl, (here.stays unsuccessful).1, leaves, rfl,
          List.mem_append_left _ (finding.shown shown), described, loaded.after start, entry, rfl⟩
    | _ => cases exits

theorem departure_of_boot {options : Options}
    (yields : Loader.Yields (boot options) loader h ended later) :
    Departure options h ended later := by
  rw [boot_eq] at yields
  obtain ⟨first, o, middle, rest, rfl, prepared, concluded⟩ := Loader.yields_bind.mp yields
  obtain ⟨services, made, serves⟩ := serves_of_yields prepared
  have leaves := ((Boot.prepare_takes mapBuffer options).course made).leavesLast
  have way := Boot.preparing_of_yields made
  rcases o with stop | launch
  · have unsuccessful : ∀ e ∈ services, ¬ (e.exits = true ∧ e.Succeeded) := by
      intro e he exited
      obtain ⟨launch, impossible⟩ := leaves.ok_iff.mpr ⟨e, he, exited⟩
      cases impossible
    refine Departure.after (.stayed ?_) (serves.stays unsuccessful).1
    have told : Loader.Keeps Request.Stays (conclude (.error stop)) := by
      cases stop with
      | failed failure =>
        exact ((tell_keeps _ _).mono fun _ => Request.StaysBlind.stays).bind fun _ => .pure _
      | crashed => exact .pure _
    exact told.not_departs concluded
  · obtain ⟨before, key, status, mode, elf, rfl, stays, left, gone, shown, described, loaded,
      entry, entryCall⟩ := serves.left way.launches leaves
    obtain ⟨last, _, _, after, rfl, entering, ended⟩ := Loader.yields_bind.mp concluded
    obtain ⟨asked, rfl⟩ := Loader.yields_lift.mp entering
    obtain rfl := yields_ask.mp asked
    obtain ⟨rfl, rfl, rfl⟩ := Loader.yields_pure.mp ended
    rw [entry, entryCall, List.append_nil, List.append_assoc]
    exact .left stays left gone shown described loaded

theorem departure_of_startWith {used : Settings}
    (yields : Loader.Yields (startWith used) loader h ended later) :
    Departure (.ofSettings used) h ended later := by
  obtain ⟨first, made, middle, rest, rfl, setUp, onward⟩ := Loader.yields_bind.mp yields
  have quiet := (setUp_keeps used).mono fun _ => Request.StaysBlind.stays
  refine Departure.after ?_ (quiet.not_departs setUp)
  have booted {loader : LoaderState} {h : List (Exchange Uefi)}
      (yields : Loader.Yields (do greet; boot (.ofSettings used)) loader h ended later) :
      Departure (.ofSettings used) h ended later := by
    obtain ⟨first, _, _, rest, rfl, greeted, onward⟩ := Loader.yields_bind.mp yields
    exact (departure_of_boot onward).after
      ((greet_keeps.mono fun _ => Request.StaysBlind.stays).not_departs greeted)
  rcases made with (failure | _) | _
  · exact booted onward
  · obtain ⟨rfl, -, -⟩ := Loader.yields_pure.mp onward
    exact .stayed nofun
  · exact booted onward

variable {σ : Type}

/-- Without settings the loader does not come to a boot attempt. -/
theorem departure_of_start (machine : Machine Uefi σ) (state : σ) :
    let h := (start.run {}).history machine state
    let ended := ((start.run {}).run machine state).1
    (∀ x ∈ h, ¬ Departs x.request x.reply) ∨
      ∃ used, ((settings.run {}).run machine state).1.1 = .ok used ∧
        Departure (.ofSettings used) h ended.1 ended.2 := by
  have read := settings_keeps.not_departs (Loader.yields_run machine settings {} state)
  rw [start_eq, StateT.run_bind, Program.history_bind, Program.run_bind_state]
  intro h ended
  rcases came : Program.run machine (settings.run {}) state with ⟨⟨stop | used, loader⟩, later⟩
  · left
    simp only [h, came]
    exact List.forall_mem_append.mpr ⟨read, nofun⟩
  · refine .inr ⟨used, rfl, ?_⟩
    simp only [h, ended, came]
    exact (departure_of_startWith (Loader.yields_run machine (startWith used) loader later)).after
      read

/-- A call that departs does so in the part of a history that no others come before. -/
theorem of_append_eq {before rest earlier later : List (Exchange Uefi)} {x : Exchange Uefi}
    (split : before ++ rest = earlier ++ x :: later)
    (stays : ∀ x ∈ before, ¬ Departs x.request x.reply) (departs : Departs x.request x.reply) :
    ∃ between, earlier = before ++ between ∧ rest = between ++ x :: later := by
  induction before generalizing earlier with
  | nil => exact ⟨earlier, rfl, split⟩
  | cons y before ih =>
    obtain ⟨here, there⟩ := List.forall_mem_cons.mp stays
    cases earlier with
    | nil =>
      obtain ⟨rfl, -⟩ := List.cons.inj split
      exact absurd departs here
    | cons z earlier =>
      obtain ⟨rfl, tails⟩ := List.cons.inj split
      obtain ⟨between, rfl, same⟩ := ih tails there
      exact ⟨between, rfl, same⟩

namespace Departure

variable {options : Options}

/-- Behind the exit there is the call of the kernel, and nothing else. -/
theorem behind_exit {earlier rest : List (Exchange Uefi)} {key : UInt64} {status : Status}
    (departure : Departure options (earlier ++ ⟨.exitBootServices key, status⟩ :: rest) ended later)
    (leaves : status.isError = false) :
    later.systemTable = false ∧ ended = .halted ∧ ∃ mode frameBuffer elf,
      ⟨.openGraphics, .ok mode⟩ ∈ earlier ∧ Screen.describe mode = .ok frameBuffer ∧
        ReadKernel earlier elf ∧
        rest = [⟨.enterKernel elf.entry (argument options frameBuffer), ()⟩] := by
  generalize whole : earlier ++ ⟨.exitBootServices key, status⟩ :: rest = h at departure
  cases departure with
  | stayed stays =>
    rw [← whole] at stays
    exact absurd leaves (stays ⟨.exitBootServices key, status⟩ (by simp))
  | @left before _ _ mode frameBuffer elf _ stays _ gone shown described loaded =>
    obtain ⟨between, rfl, last⟩ := of_append_eq whole.symm stays leaves
    -- Of the last two calls only the first one is an exit.
    rcases between with _ | ⟨_, _ | ⟨_, _⟩⟩
    · obtain ⟨-, rfl⟩ := List.cons.inj last
      rw [List.append_nil]
      exact ⟨gone, rfl, mode, frameBuffer, elf, shown, described, loaded, rfl⟩
    · cases last
    · simp at last

/-- The kernel is called behind an exit that has gone well. -/
theorem exit_of_enters {entry : UInt64} {argument : Option Screen.FrameBuffer}
    (departure : Departure options h ended later)
    (enters : ⟨.enterKernel entry argument, ()⟩ ∈ h) :
    ∃ key status, ⟨.exitBootServices key, status⟩ ∈ h ∧ status.isError = false := by
  cases departure with
  | stayed stays => exact absurd trivial (stays _ enters)
  | @left _ key status _ _ _ _ _ leaves => exact ⟨key, status, by simp, leaves⟩

end Departure

/-- **Once the exit from the boot services has gone well, nothing is called any more but the
kernel**, whatever the firmware replies, and it is called on no other way. -/
theorem silent_after_exit (machine : Machine Uefi σ) (state : σ) :
    let h := (start.run {}).history machine state
    let ended := ((start.run {}).run machine state).1
    (∀ earlier key status later, h = earlier ++ ⟨.exitBootServices key, status⟩ :: later →
      status.isError = false → ended.2.systemTable = false ∧ ended.1 = .halted ∧
        ∃ used mode frameBuffer elf, ((settings.run {}).run machine state).1.1 = .ok used ∧
          ⟨.openGraphics, .ok mode⟩ ∈ earlier ∧ Screen.describe mode = .ok frameBuffer ∧
          ReadKernel earlier elf ∧
          later = [⟨.enterKernel elf.entry (if used.bareEntry then none else some frameBuffer),
            ()⟩]) ∧
    ∀ entry argument, ⟨.enterKernel entry argument, ()⟩ ∈ h →
      ∃ key status, ⟨.exitBootServices key, status⟩ ∈ h ∧ status.isError = false := by
  intro h ended
  rcases departure_of_start machine state with stays | ⟨used, read, departure⟩
  · refine ⟨fun earlier key status later split leaves => ?_, fun entry argument enters => ?_⟩
    · have exit : ⟨.exitBootServices key, status⟩ ∈ h := by simp [split]
      exact absurd leaves (stays _ exit)
    · exact absurd trivial (stays _ enters)
  · refine ⟨fun earlier key status later split leaves => ?_, fun entry argument enters => ?_⟩
    · change Departure _ h ended.1 ended.2 at departure
      rw [split] at departure
      obtain ⟨gone, halted, mode, frameBuffer, elf, shown, described, loaded, last⟩ :=
        departure.behind_exit leaves
      refine ⟨gone, halted, used, mode, frameBuffer, elf, read, shown, described, loaded, ?_⟩
      rw [last, argument_ofSettings]
    · exact departure.exit_of_enters enters

/-- The last two calls of a loader that is let go at once. -/
theorem silent_after_exit_launched :
    let machine := delivering Kernel.overlapping
    ∃ earlier key status, (start.run {}).history machine () =
        earlier ++ [⟨.exitBootServices key, status⟩,
          ⟨.enterKernel 0x100010 (some ⟨0, 800, 800, 600, .rgb⟩), ()⟩] ∧
      status.isError = false ∧ ((start.run {}).run machine ()).1.2.systemTable = false := by
  intro machine
  obtain ⟨silent, reached⟩ := silent_after_exit machine ()
  have enters : (((start.run {}).history machine ()).map Exchange.request).getLast? =
      some (.enterKernel 0x100010 (some ⟨0, 800, 800, 600, .rgb⟩)) := by decide +kernel
  obtain ⟨⟨request, reply⟩, member, rfl⟩ := List.mem_map.mp (List.mem_of_getLast? enters)
  obtain ⟨key, status, exits, leaves⟩ := reached _ _ member
  obtain ⟨earlier, later, split⟩ := List.append_of_mem exits
  obtain ⟨gone, -, used, mode, frameBuffer, elf, -, -, -, -, last⟩ :=
    silent earlier key status later split leaves
  rw [split, last, List.map_append, List.map_cons, List.map_singleton, List.getLast?_append,
    List.getLast?_cons_cons, List.getLast?_singleton, Option.some_or, Option.some.injEq] at enters
  obtain ⟨entry, argument⟩ := Request.enterKernel.inj enters
  refine ⟨earlier, key, status, ?_, leaves, gone⟩
  rw [split, last, entry, argument]

end Uefi

end EfiLoader
