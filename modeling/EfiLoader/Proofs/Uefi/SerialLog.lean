import EfiLoader.Proofs.Bytes
import EfiLoader.Proofs.Serial.Output
import EfiLoader.Testbed.UefiMachine

/-!
The log on a serial line. A machine is a bus of registers next to services that leave the registers
alone. Whatever happens to a log in place there puts bytes on the line and leaves the log in place
(`event_puts`), so that a history of events puts the bytes of one event after those of another
(`events_put`). Main statement: from its set up on, a log on a serial line transmits the records of
its level and below, whole and in order, and nothing besides.
-/

namespace EfiLoader.Log

/-- The level in seven columns. -/
def Level.column : Level → String
  | error => "ERROR  "
  | warn => "WARN   "
  | info => "INFO   "
  | debug => "DEBUG  "
  | trace => "TRACE  "

theorem join_levelPieces (level : Level) : String.join (levelPieces level) = level.column := by
  cases level <;> decide

def Device.ofCom : Serial.Com → Device
  | .com1 => .com1
  | .com2 => .com2

/-- What the program hands to the log. Where it speaks may be unknown. -/
structure Entry where
  level : Level
  modulePath : Option String := none
  text : String
  file : Option String := none
  line : Option Nat := none

namespace Entry

def record (entry : Entry) : Record where
  level := entry.level
  target := entry.modulePath.getD ""
  text := entry.text
  file := entry.file.getD ""
  line := entry.line.getD 0

/-- The place behind the module, as `file@line`. -/
def place (entry : Entry) : String :=
  " " ++ entry.file.getD "" ++ "@" ++ toString (entry.line.getD 0)

/-- The line of text that the log shows. -/
def shown (entry : Entry) (sourcePath : Bool) : String :=
  "[" ++ entry.level.column ++ "][" ++ entry.modulePath.getD "" ++
    (if sourcePath then entry.place else "") ++ "] " ++ entry.text ++ "\n"

theorem rendered_record (entry : Entry) (sourcePath : Bool) :
    entry.record.rendered sourcePath = entry.shown sourcePath := by
  have decimal (n : Nat) : Numeral.decimal n = toString n := rfl
  cases sourcePath with
  | false =>
    simp [Record.rendered, Record.parts, record, shown, join_levelPieces, String.append_assoc]
  | true =>
    simp [Record.rendered, Record.parts, record, shown, place, join_levelPieces, decimal,
      String.append_assoc]

example :
    shown ⟨.error, some "boot_loader", "halting", some "src/main.rs", some 42⟩ true =
      "[ERROR  ][boot_loader src/main.rs@42] halting\n" := by decide

end Entry

/-- The pieces of a record make up its line. -/
theorem Record.join_parts (record : Record) (sourcePath : Bool) :
    String.join (record.parts sourcePath).flatten = record.rendered sourcePath := by
  rw [rendered]
  induction record.parts sourcePath with
  | nil => rfl
  | cons part parts ih =>
    rw [List.flatten_cons, String.join_append, ih, List.map_cons, String.join_cons]

end EfiLoader.Log

namespace EfiLoader.Serial

variable {σ : Type}

/-- A machine with these registers, where all else is served without access to them. -/
noncomputable def Bus.uefi (bus : Bus σ) (services : Machine Uefi σ) :
    (request : Uefi.Request) → StateT (Traced σ) Option (Uefi.Reply request)
  | .register access => bus.answer access
  | request => fun traced =>
    let (reply, device) := services request traced.device
    some (reply, ⟨device, traced.accesses⟩)

namespace Bus

variable (bus : Bus σ) (services : Machine Uefi σ) {α β : Type}

theorem run_onRegisters (program : Program Registers α) :
    (Uefi.onRegisters program).run (bus.uefi services) = program.run bus.answer := by
  induction program with
  | done value => rfl
  | ask request next ih =>
    change (bus.answer request >>= fun reply =>
      (Uefi.onRegisters (next reply)).run (bus.uefi services)) = _
    simp only [ih]
    rfl

/-- What is not asked of the registers is served, and leaves no access behind. -/
theorem uefi_aside {request : Uefi.Request} (aside : ∀ access, request ≠ .register access)
    (traced : Traced σ) :
    bus.uefi services request traced =
      some ((services request traced.device).1,
        ⟨(services request traced.device).2, traced.accesses⟩) := by
  cases request with
  | register access => exact absurd rfl (aside access)
  | _ => rfl

/-- Runs a part of the loader. -/
noncomputable def runLoader (part : Uefi.Loader α) (loader : Uefi.LoaderState)
    (traced : Traced σ) : Option ((α × Uefi.LoaderState) × Traced σ) :=
  (part.run loader).run (bus.uefi services) traced

theorem runLoader_bind (part : Uefi.Loader α) (rest : α → Uefi.Loader β)
    (loader : Uefi.LoaderState) (traced : Traced σ) :
    bus.runLoader services (part >>= rest) loader traced =
      (bus.runLoader services part loader traced).bind fun ended =>
        bus.runLoader services (rest ended.1.1) ended.1.2 ended.2 := by
  unfold runLoader
  rw [StateT.run_bind, Program.run_bind]
  rfl

/-- A part of the loader that does no more than access registers. -/
theorem runLoader_registers {part : Uefi.Loader β} {loader : Uefi.LoaderState}
    {program : Program Registers α} {f : α → β × Uefi.LoaderState}
    (run : part.run loader = Uefi.onRegisters program >>= fun value => pure (f value))
    (traced : Traced σ) :
    bus.runLoader services part loader traced =
      (program.run bus.answer traced).map fun ended => (f ended.1, ended.2) := by
  unfold runLoader
  rw [run, Program.run_bind, run_onRegisters]
  exact (Option.map_eq_bind ..).symm

end Bus

end EfiLoader.Serial

namespace EfiLoader.Uefi

open Serial (Bus Com RegisterFile Sent Traced Transmits Uart probe scratch written?)
open Serial.Uart (onLine)

/-- What can happen to a log. -/
inductive LogEvent where
  | record (entry : Log.Entry)
  | setUp (settings : Settings)
  /-- The boot services are gone, and the system table with them. -/
  | exit
  /-- The loader asks for something else. -/
  | call (request : Request) (aside : ∀ access, request ≠ .register access)

namespace LogEvent

def perform : LogEvent → Loader Unit
  | record entry => do let _ ← log entry.record
  | setUp settings => do let _ ← Logger.setUp settings
  | exit => modify fun state => { state with systemTable := false }
  | call request _ => do let _ ← ask request

/-- The text that an event adds to a log with these settings. -/
def shown? (settings : Settings) : LogEvent → Option String
  | record entry =>
    if entry.level.rank ≤ settings.logLevel.rank then some (entry.shown settings.logSourcePath)
    else none
  | _ => none

end LogEvent

/-- The text of a log with these settings. -/
def transcript (settings : Settings) (events : List LogEvent) : String :=
  String.join (events.filterMap (LogEvent.shown? settings))

/-- A log with these settings is in place, on the device of `com`. -/
structure Wired (com : Com) (settings : Settings) (loader : LoaderState) : Prop where
  cell : loader.cell = .made ⟨some (.serial ⟨com.base, true⟩), settings.logSourcePath⟩
  installed : loader.installed = true
  maxLevel : loader.maxLevel = some settings.logLevel

variable {σ : Type} {com : Com} {settings : Settings} {loader : LoaderState}

/-- A part of the loader puts these bytes on the line of a log that is in place, and leaves it in
place. It ends if the line does not stay busy for ever. -/
def Puts (bus : Bus σ) (services : Machine Uefi σ) (com : Com) (settings : Settings)
    (bytes : Bytes) (part : Loader Unit) : Prop :=
  ∀ loader traced, Wired com settings loader →
    (bus.Settles com.base → (bus.runLoader services part loader traced).isSome) ∧
    ∀ later ended, bus.runLoader services part loader traced = some (((), later), ended) →
      Wired com settings later ∧
      ∃ accesses, ended.accesses = traced.accesses ++ accesses ∧ Sent com.base bytes accesses

namespace Puts

variable {bus : Bus σ} {services : Machine Uefi σ} {bytes more : Bytes}

theorem of_registers {part : Loader Unit}
    (runs : ∀ loader, Wired com settings loader → ∃ program later,
      part.run loader = onRegisters program >>= (fun _ => pure ((), later)) ∧
      Transmits bus com.base bytes program ∧ Wired com settings later) :
    Puts bus services com settings bytes part := by
  intro loader traced wired
  obtain ⟨program, state, run, transmits, stays⟩ := runs loader wired
  rw [bus.runLoader_registers services run]
  obtain ⟨ends, sends⟩ := transmits traced
  refine ⟨fun settles => by simpa using ends settles, fun later ended ran => ?_⟩
  obtain ⟨⟨⟨⟩, sent⟩, went, same⟩ := Option.map_eq_some_iff.mp ran
  cases same
  exact ⟨stays, sends sent went⟩

theorem nothing : Puts bus services com settings [] (pure ()) :=
  of_registers fun loader wired => ⟨pure (), loader, rfl, .nothing, wired⟩

theorem bind {first : Loader Unit} {rest : Unit → Loader Unit}
    (puts : Puts bus services com settings bytes first)
    (puts_more : Puts bus services com settings more (rest ())) :
    Puts bus services com settings (bytes ++ more) (first >>= rest) := by
  intro loader traced wired
  rw [bus.runLoader_bind]
  constructor
  · intro settles
    obtain ⟨⟨⟨⟨⟩, middle⟩, between⟩, ran⟩ :=
      Option.isSome_iff_exists.mp ((puts loader traced wired).1 settles)
    obtain ⟨stays, -⟩ := (puts loader traced wired).2 middle between ran
    rw [ran]
    exact (puts_more middle between stays).1 settles
  · intro later ended ran
    obtain ⟨⟨⟨⟨⟩, middle⟩, between⟩, ran_first, ran_rest⟩ := Option.bind_eq_some_iff.mp ran
    obtain ⟨stays, accesses, left, sent⟩ := (puts loader traced wired).2 middle between ran_first
    obtain ⟨stays', later_accesses, left', sent'⟩ :=
      (puts_more middle between stays).2 later ended ran_rest
    refine ⟨stays', accesses ++ later_accesses, ?_, sent.append sent'⟩
    rw [left', left, List.append_assoc]

end Puts

theorem Logger.sendPieces_eq (uart : Uart) (pieces : List String) :
    Logger.sendPieces uart pieces = pieces.forM uart.sendText := by
  induction pieces with
  | nil => rfl
  | cons piece pieces ih => exact congrArg (uart.sendText piece >>= fun _ => ·) ih

theorem Logger.run_emit_serial (uart : Uart) (sourcePath : Bool) (record : Log.Record)
    (loader : LoaderState) :
    (Logger.emit ⟨some (.serial uart), sourcePath⟩ record).run loader =
      onRegisters (Logger.sendPieces uart (record.parts sourcePath).flatten) >>= fun sent =>
        pure (sent, loader) := by
  unfold Logger.emit
  dsimp only
  generalize (record.parts sourcePath).flatten = pieces
  rfl

theorem run_log {logger : Logger} (made : loader.cell = .made logger) (record : Log.Record) :
    (log record).run loader =
      if loader.isEnabled record.level then
        (logger.emit record).run loader >>= fun ended => pure (true, ended.2)
      else pure (false, loader) := by
  cases enabled : loader.isEnabled record.level with
  | false => simp [log, enabled]
  | true => simp [log, enabled, made]

/-- The logger of a process is set up once. -/
theorem Logger.run_setUp_again {logger : Logger} (made : loader.cell = .made logger)
    (installed : loader.installed = true) (other : Settings) :
    (Logger.setUp other).run loader = pure (.fail .alreadySet, loader) := by
  obtain ⟨systemTable, cell, _, maxLevel⟩ := loader
  obtain rfl := made
  obtain rfl := installed
  rfl

theorem Wired.isEnabled (wired : Wired com settings loader) (level : Log.Level) :
    loader.isEnabled level = decide (level.rank ≤ settings.logLevel.rank) := by
  rw [LoaderState.isEnabled, wired.maxLevel]

section
variable (bus : Bus σ) (services : Machine Uefi σ) (com : Com) (settings : Settings)

/-- The pieces of a record go over the line as the text that the log shows. -/
theorem sendPieces_transmits (entry : Log.Entry) (sourcePath : Bool) :
    Transmits bus com.base (onLine (Bytes.utf8 (entry.shown sourcePath)))
      (Logger.sendPieces ⟨com.base, true⟩ (entry.record.parts sourcePath).flatten) := by
  have sends := Uart.sendTexts_transmits bus ⟨com.base, true⟩ rfl
    (entry.record.parts sourcePath).flatten
  rwa [← Bytes.utf8_join, Log.Record.join_parts, entry.rendered_record,
    ← Logger.sendPieces_eq] at sends

theorem record_puts (entry : Log.Entry) :
    Puts bus services com settings
      (onLine (Bytes.utf8 (((LogEvent.record entry).shown? settings).getD "")))
      (LogEvent.record entry).perform := by
  refine .of_registers fun loader wired => ?_
  have performed : (LogEvent.record entry).perform.run loader =
      (log entry.record).run loader >>= fun ended => pure ((), ended.2) := rfl
  have level : entry.record.level = entry.level := rfl
  rw [performed, run_log wired.cell, wired.isEnabled, level, LogEvent.shown?]
  by_cases enabled : entry.level.rank ≤ settings.logLevel.rank
  · rw [if_pos enabled]
    refine ⟨_, loader, ?_, sendPieces_transmits bus com entry settings.logSourcePath, wired⟩
    simp only [enabled, decide_true, if_true, Logger.run_emit_serial, bind_assoc, pure_bind]
  · rw [if_neg enabled]
    refine ⟨pure (), loader, ?_, .nothing, wired⟩
    simp only [enabled, decide_false, Bool.false_eq_true, if_false, pure_bind]
    rfl

theorem event_puts (event : LogEvent) :
    Puts bus services com settings (onLine (Bytes.utf8 ((event.shown? settings).getD "")))
      event.perform := by
  cases event with
  | record entry => exact record_puts bus services com settings entry
  | setUp other =>
    refine .of_registers fun loader wired => ⟨pure (), loader, ?_, .nothing, wired⟩
    have performed : (LogEvent.setUp other).perform.run loader =
        (Logger.setUp other).run loader >>= fun ended => pure ((), ended.2) := rfl
    rw [performed, Logger.run_setUp_again wired.cell wired.installed]
    rfl
  | exit =>
    exact .of_registers fun loader wired =>
      ⟨pure (), _, rfl, .nothing, wired.cell, wired.installed, wired.maxLevel⟩
  | call request aside =>
    intro loader traced wired
    have served : bus.runLoader services (LogEvent.call request aside).perform loader traced =
        (bus.uefi services request traced).map fun ended => (((), loader), ended.2) :=
      (Option.map_eq_bind ..).symm
    rw [served, bus.uefi_aside services aside]
    refine ⟨fun _ => rfl, fun later ended ran => ?_⟩
    cases ran
    exact ⟨wired, [], (List.append_nil _).symm, .nothing⟩

theorem events_put (events : List LogEvent) :
    Puts bus services com settings (onLine (Bytes.utf8 (transcript settings events)))
      (events.forM LogEvent.perform) := by
  induction events with
  | nil => exact .nothing
  | cons event events ih =>
    have texts : transcript settings (event :: events) =
        (event.shown? settings).getD "" ++ transcript settings events := by
      cases shown : event.shown? settings with
      | none => simp [transcript, shown]
      | some text => simp [transcript, shown]
    rw [texts, Bytes.utf8_append, onLine, List.flatMap_append]
    exact (event_puts bus services com settings event).bind ih

/-- Where a device answers, the output that is opened is its line. -/
theorem Logger.run_serialOutput {start : Traced σ} (present : Uart.echo bus com.base start = probe)
    (loader : LoaderState) :
    ∃ opened,
      bus.runLoader services (Logger.serialOutput com) loader start =
        some ((.ok (some (.serial ⟨com.base, true⟩)), loader), opened) ∧
      opened.accesses = start.accesses ++
        (Uart.probing com.base probe ++ Uart.setting com.base .baud115200) := by
  obtain ⟨opened, ran, accesses⟩ := Uart.setUp_run_echo bus com .baud115200 start
  rw [present, if_pos rfl] at accesses
  rw [present, beq_self_eq_true] at ran
  refine ⟨opened, ?_, accesses⟩
  have answered : bus.runLoader services (onRegisters (Uart.setUp com .baud115200) : Loader Uart)
      loader start = some ((⟨com.base, true⟩, loader), opened) := by
    rw [bus.runLoader_registers services rfl, ran]
    rfl
  rw [Logger.serialOutput, bus.runLoader_bind, answered]
  rfl

/-- Where a device answers, the first set up puts a log in place on its line. -/
theorem Logger.run_setUp_first {start : Traced σ} (device : settings.logDevice = .ofCom com)
    (unmade : loader.cell = .empty) (uninstalled : loader.installed = false)
    (present : Uart.echo bus com.base start = probe) :
    ∃ ready opened,
      bus.runLoader services (Logger.setUp settings) loader start = some ((.ok (), ready), opened) ∧
      Wired com settings ready ∧
      opened.accesses = start.accesses ++
        (Uart.probing com.base probe ++ Uart.setting com.base .baud115200) := by
  obtain ⟨systemTable, cell, installed, maxLevel⟩ := loader
  obtain rfl : cell = .empty := unmade
  obtain rfl : installed = false := uninstalled
  let first : LoaderState := ⟨systemTable, .empty, false, maxLevel⟩
  let logger : Logger := ⟨some (.serial ⟨com.base, true⟩), settings.logSourcePath⟩
  obtain ⟨opened, ran, accesses⟩ := Logger.run_serialOutput bus services com present first
  have opens : Logger.openOutput settings.logDevice = Logger.serialOutput com := by
    rw [device]
    cases com <;> rfl
  have made : bus.runLoader services (Logger.getOrMake settings) first start =
      some ((.ok logger, { first with cell := .made logger }), opened) := by
    have state : bus.runLoader services get first start = some ((first, first), start) := rfl
    rw [Logger.getOrMake, bus.runLoader_bind, state]
    change bus.runLoader services (Logger.openOutput settings.logDevice >>= _) first start = _
    rw [opens, bus.runLoader_bind, ran]
    rfl
  refine ⟨⟨systemTable, .made logger, true, some settings.logLevel⟩, opened, ?_, ⟨rfl, rfl, rfl⟩,
    accesses⟩
  rw [Logger.setUp, bus.runLoader_bind, made]
  rfl

/-- **A log on a serial line is faithful.** Where the device answers, the first set up succeeds; and
from then on, whatever else the loader asks for, without a system table as with one, all that is
written to registers is the log's text in UTF-8, with line ends of two bytes: the lines of the
records of its level and below, whole and in order. Logging ends if the line does not stay busy for
ever. -/
theorem logs_exactly (loader : LoaderState) (start : σ)
    (device : settings.logDevice = .ofCom com) (unmade : loader.cell = .empty)
    (uninstalled : loader.installed = false)
    (present : Uart.echo bus com.base ⟨start, []⟩ = probe) :
    ∃ ready opened,
      bus.runLoader services (Logger.setUp settings) loader ⟨start, []⟩ =
        some ((.ok (), ready), opened) ∧
      ∀ events : List LogEvent,
        let bytes := [13, 10].intercalate ((Bytes.utf8 (transcript settings events)).splitOn 10)
        let logging := bus.runLoader services (events.forM LogEvent.perform) ready opened
        (bus.Settles com.base → logging.isSome) ∧
        ∀ later ended, logging = some (((), later), ended) →
          ∃ accesses, ended.accesses = opened.accesses ++ accesses ∧
            accesses.filterMap written? = bytes.map (com.base, ·) ∧
            ∀ file : RegisterFile,
              (file.after com.base ended.accesses).transmitted = file.transmitted ++ bytes := by
  obtain ⟨ready, opened, ran, wired, set_up⟩ :=
    Logger.run_setUp_first bus services com settings device unmade uninstalled present
  rw [List.nil_append] at set_up
  refine ⟨ready, opened, ran, fun events => ?_⟩
  obtain ⟨ends, puts⟩ := events_put bus services com settings events ready opened wired
  refine ⟨ends, fun later ended logged => ?_⟩
  obtain ⟨-, accesses, left, sent⟩ := puts later ended logged
  rw [Uart.onLine_eq] at sent
  refine ⟨accesses, left, sent.filterMap_written, fun file => ?_⟩
  rw [left, RegisterFile.after_append, set_up,
    sent.after (Uart.not_latched_after_setUp com.base .baud115200 file), Uart.after_setUp]

end

/-- A line that is busy at first takes a message of two lines before the exit and a record without a
place behind it; a record above the level leaves nothing. -/
theorem logs_exactly_com2 :
    let bus := Testbed.UartBank.bus
    let services : Machine Uefi Testbed.UartBank :=
      fun request bank => (((Testbed.UefiMachine.answer request).run {}).1, bank)
    let settings : Settings := { logDevice := .com2, logLevel := .warn, logSourcePath := true }
    let events : List LogEvent :=
      [.record ⟨.warn, some "m", "a\nb", some "f", some 42⟩, .call .locateGraphics nofun, .exit,
        .record { level := .info, text := "c" }, .record { level := .error, text := "d" }]
    ∃ ready opened later ended accesses,
      bus.runLoader services (Logger.setUp settings) {}
        ⟨{ com2 := some { lineStatus := [0] } }, []⟩ = some ((.ok (), ready), opened) ∧
      bus.runLoader services (events.forM LogEvent.perform) ready opened =
        some (((), later), ended) ∧
      ended.accesses = opened.accesses ++ accesses ∧
      accesses.filterMap written? =
        (Bytes.utf8 "[WARN   ][m f@42] a\r\nb\r\n[ERROR  ][ @0] d\r\n").map (0x2f8, ·) := by
  intro bus services settings events
  obtain ⟨ready, opened, ran, logs⟩ := logs_exactly bus services .com2 settings {}
    { com2 := some { lineStatus := [0] } } rfl rfl rfl rfl
  obtain ⟨ends, spec⟩ := logs events
  obtain ⟨⟨⟨⟨⟩, later⟩, ended⟩, logged⟩ :=
    Option.isSome_iff_exists.mp (ends (Testbed.UartBank.bus_settles .com2))
  obtain ⟨accesses, left, written, -⟩ := spec later ended logged
  refine ⟨ready, opened, later, ended, accesses, ran, logged, left, ?_⟩
  rw [written]
  decide +kernel

end EfiLoader.Uefi
