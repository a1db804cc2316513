import EfiLoader.Proofs.Uefi.Histories
import EfiLoader.Proofs.Uefi.SerialLog

/-!
The set-up of the log. The first one makes the logger out of what its device answers (`Opens`), and
crashes where it turns to the console (`Turns`) without a system table. No event behind it changes
the logger or the level (`LogEvent.perform_keeps`). Main statement: set-ups behind the first count
for nothing (`first_set_up_counts`).
-/

namespace EfiLoader

/-- The exchange that an access to a register is. -/
def Testbed.RegisterAccess.exchange : Testbed.RegisterAccess → Exchange Uefi
  | .wrote address value => ⟨.register (.write address value), ()⟩
  | .read address value => ⟨.register (.read address), value⟩

namespace Uefi

open Serial (Com Uart probe)
open Testbed (RegisterAccess)

/-- The accesses up to the place where the console is turned to: none, or those that look for a
serial device in vain. -/
inductive Turns : Log.Device → List (Exchange Uefi) → Prop
  | console : Turns .console []
  | silent (com : Com) {value : UInt8} (other : value ≠ probe) :
      Turns (.ofCom com) ((Uart.probing com.base value).map RegisterAccess.exchange)

/-- What opening the console comes to. -/
inductive OpensConsole : List (Exchange Uefi) → Option Sink → Prop
  | unlocated (status : Status) : OpensConsole [⟨.locateConsole, .error status⟩] none
  | missing : OpensConsole [⟨.locateConsole, .ok 0⟩] none
  | refused (others : Nat) (status : Status) :
      OpensConsole [⟨.locateConsole, .ok (others + 1)⟩, ⟨.openConsole, .error status⟩] none
  | cleared (others : Nat) (reply : Except Status Unit) :
      OpensConsole [⟨.locateConsole, .ok (others + 1)⟩, ⟨.openConsole, .ok ()⟩,
        ⟨.clearConsole, reply⟩] (some .console)

/-- The output that a device comes to: none, the serial line if its device answers, and else the
console if that is opened. -/
inductive Opens : Log.Device → List (Exchange Uefi) → Option Sink → Prop
  | null : Opens .null [] none
  | serial (com : Com) :
      Opens (.ofCom com)
        ((Uart.probing com.base probe ++ Uart.setting com.base .baud115200).map
          RegisterAccess.exchange)
        (some (.serial ⟨com.base, true⟩))
  | console {device : Log.Device} {before after : List (Exchange Uefi)} {output : Option Sink}
      (turns : Turns device before) (opens : OpensConsole after output) :
      Opens device (before ++ after) output

variable {loader later : LoaderState} {h : List (Exchange Uefi)}

section Registers

variable {α : Type} {result : α} {address : UInt16}

theorem yields_write {value : UInt8} {rest : Unit → Program Registers α} :
    (onRegisters (Registers.write address value >>= rest)).Yields h result ↔
      ∃ after, h = (RegisterAccess.wrote address value).exchange :: after ∧
        (onRegisters (rest ())).Yields after result := by
  constructor
  · intro yields
    cases yields with
    | ask yields => exact ⟨_, rfl, yields⟩
  · rintro ⟨after, rfl, yields⟩
    exact .ask yields

theorem yields_read {rest : UInt8 → Program Registers α} :
    (onRegisters (Registers.read address >>= rest)).Yields h result ↔
      ∃ value after, h = (RegisterAccess.read address value).exchange :: after ∧
        (onRegisters (rest value)).Yields after result := by
  constructor
  · intro yields
    cases yields with
    | ask yields => exact ⟨_, _, rfl, yields⟩
  · rintro ⟨value, after, rfl, yields⟩
    exact .ask yields

theorem yields_onRegisters_pure {value : α} :
    (onRegisters (pure value : Program Registers α)).Yields h result ↔ h = [] ∧ result = value :=
  Program.yields_pure

theorem Uart.accesses_of_yields {com : Com} {baud : Serial.Baud} {uart : Uart}
    (yields : (onRegisters (Uart.setUp com baud)).Yields h uart) :
    ∃ value, uart = ⟨com.base, value == probe⟩ ∧
      h = (Uart.probing com.base value ++
        if value = probe then Uart.setting com.base baud else []).map RegisterAccess.exchange := by
  simp only [Uart.setUp, yields_write, yields_read] at yields
  obtain ⟨_, rfl, value, after, rfl, yields⟩ := yields
  refine ⟨value, ?_⟩
  by_cases answers : value = probe
  · simp only [answers, beq_self_eq_true, if_true, yields_write, yields_onRegisters_pure] at yields
    obtain ⟨_, rfl, _, rfl, _, rfl, _, rfl, _, rfl, _, rfl, _, rfl, rfl, rfl⟩ := yields
    rw [if_pos answers, answers]
    exact ⟨rfl, rfl⟩
  · simp only [beq_false_of_ne answers, Bool.false_eq_true, if_false, yields_onRegisters_pure]
      at yields
    obtain ⟨rfl, rfl⟩ := yields
    rw [if_neg answers, beq_false_of_ne answers]
    exact ⟨rfl, rfl⟩

end Registers

theorem Console.opens_of_yields {found : Bool} (yields : Console.openFirst.Yields h found) :
    (found = false ∧ OpensConsole h none) ∨ (found = true ∧ ∃ others,
      h = [⟨.locateConsole, .ok (others + 1)⟩, ⟨.openConsole, .ok ()⟩]) := by
  cases yields with
  | @ask _ _ reply _ _ yields =>
  rcases reply with status | _ | others
  · cases yields
    exact .inl ⟨rfl, .unlocated status⟩
  · cases yields
    exact .inl ⟨rfl, .missing⟩
  · cases yields with
    | @ask _ _ reply _ _ yields =>
    rcases reply with status | _
    · cases yields
      exact .inl ⟨rfl, .refused others status⟩
    · cases yields
      exact .inr ⟨rfl, others, rfl⟩

namespace Logger

/-- What comes of opening an output. -/
inductive Opening (loader : LoaderState) (device : Log.Device) (h : List (Exchange Uefi)) :
    Outcome SetUpError (Option Sink) → Prop
  | opens {output : Option Sink} (opens : Opens device h output) :
      Opening loader device h (.ok output)
  | gone (table : loader.systemTable = false) (turns : Turns device h) :
      Opening loader device h .crash

variable {outcome : Outcome SetUpError (Option Sink)}

theorem consoleOutput_yields {device : Log.Device} {before : List (Exchange Uefi)}
    (turns : Turns device before) (yields : Loader.Yields consoleOutput loader h outcome later) :
    later = loader ∧ Opening loader device (before ++ h) outcome := by
  rw [consoleOutput, Loader.yields_get_bind] at yields
  cases table : loader.systemTable with
  | false =>
    simp only [table] at yields
    obtain ⟨rfl, rfl, rfl⟩ := Loader.yields_pure.mp yields
    refine ⟨rfl, ?_⟩
    rw [List.append_nil]
    exact .gone table turns
  | true =>
    simp only [table, not_true_eq_false, if_false] at yields
    obtain ⟨_, found, _, _, rfl, opening, onward⟩ := Loader.yields_bind.mp yields
    obtain ⟨opened, rfl⟩ := Loader.yields_lift.mp opening
    rcases Console.opens_of_yields opened with ⟨rfl, none⟩ | ⟨rfl, others, rfl⟩
    · obtain ⟨rfl, rfl, rfl⟩ := Loader.yields_pure.mp onward
      rw [List.append_nil]
      exact ⟨rfl, .opens (.console turns none)⟩
    · obtain ⟨_, reply, _, _, rfl, clearing, ended⟩ := Loader.yields_bind.mp onward
      obtain ⟨cleared, rfl⟩ := Loader.yields_lift.mp clearing
      obtain ⟨rfl, rfl, rfl⟩ := Loader.yields_pure.mp ended
      obtain rfl := yields_ask.mp cleared
      exact ⟨rfl, .opens (.console turns (.cleared others reply))⟩

theorem serialOutput_yields {com : Com}
    (yields : Loader.Yields (serialOutput com) loader h outcome later) :
    later = loader ∧ Opening loader (.ofCom com) h outcome := by
  rw [serialOutput] at yields
  obtain ⟨_, uart, _, _, rfl, setting, onward⟩ := Loader.yields_bind.mp yields
  obtain ⟨set, rfl⟩ := Loader.yields_lift.mp setting
  obtain ⟨value, rfl, rfl⟩ := Uart.accesses_of_yields set
  by_cases answers : value = probe
  · simp only [answers, beq_self_eq_true, if_true] at onward
    obtain ⟨rfl, rfl, rfl⟩ := Loader.yields_pure.mp onward
    rw [if_pos answers, answers, List.append_nil]
    exact ⟨rfl, .opens (.serial com)⟩
  · simp only [beq_false_of_ne answers, Bool.false_eq_true, if_false] at onward
    rw [if_neg answers, List.append_nil]
    exact consoleOutput_yields (.silent com answers) onward

theorem openOutput_yields {device : Log.Device}
    (yields : Loader.Yields (openOutput device) loader h outcome later) :
    later = loader ∧ Opening loader device h outcome := by
  cases device with
  | console => exact consoleOutput_yields .console yields
  | com1 => exact @serialOutput_yields _ _ _ _ .com1 yields
  | com2 => exact @serialOutput_yields _ _ _ _ .com2 yields
  | null =>
    obtain ⟨rfl, rfl, rfl⟩ := Loader.yields_pure.mp yields
    exact ⟨rfl, .opens .null⟩

/-- The ways of the first set-up. -/
inductive First (settings : Settings) (loader : LoaderState) (h : List (Exchange Uefi)) :
    Outcome SetUpError Unit → LoaderState → Prop
  | made {output : Option Sink} (opens : Opens settings.logDevice h output) :
      First settings loader h (.ok ())
        { loader with
          cell := .made ⟨output, settings.logSourcePath⟩
          installed := true
          maxLevel := some settings.logLevel }
  | crashed (table : loader.systemTable = false) (turns : Turns settings.logDevice h) :
      First settings loader h .crash { loader with cell := .poisoned }

theorem first_of_yields {settings : Settings} {outcome : Outcome SetUpError Unit}
    (unmade : loader.cell = .empty) (uninstalled : loader.installed = false)
    (yields : Loader.Yields (setUp settings) loader h outcome later) :
    First settings loader h outcome later := by
  rw [setUp] at yields
  obtain ⟨_, _, _, _, rfl, making, onward⟩ := Loader.yields_bind.mp yields
  rw [getOrMake, Loader.yields_get_bind, unmade] at making
  obtain ⟨_, _, _, _, rfl, opening, kept⟩ := Loader.yields_bind.mp making
  obtain ⟨rfl, way⟩ := openOutput_yields opening
  cases way with
  | opens opens =>
    have stored := Loader.yields_modify_bind.mp kept
    obtain ⟨rfl, rfl, rfl⟩ := Loader.yields_pure.mp stored
    rw [Loader.yields_get_bind, if_neg (by simp [uninstalled]), Loader.yields_modify_bind] at onward
    obtain ⟨rfl, rfl, rfl⟩ := Loader.yields_pure.mp onward
    rw [List.append_nil, List.append_nil]
    exact .made opens
  | gone table turns =>
    have stored := Loader.yields_modify_bind.mp kept
    obtain ⟨rfl, rfl, rfl⟩ := Loader.yields_pure.mp stored
    obtain ⟨rfl, rfl, rfl⟩ := Loader.yields_pure.mp onward
    rw [List.append_nil, List.append_nil]
    exact .crashed table turns

end Logger

/-! ## Behind the first set-up -/

/-- Whatever the replies are, the loader is left in the state in which it was. -/
def Loader.Still {α : Type} (part : Loader α) : Prop :=
  ∀ loader h value later, Loader.Yields part loader h value later → later = loader

namespace Loader.Still

variable {α β : Type}

theorem pure (value : α) : Loader.Still (pure value) := fun _ _ _ _ yields =>
  (yields_pure.mp yields).2.2

theorem lift (program : Program Uefi α) : Loader.Still (program : Loader α) :=
  fun _ _ _ _ yields => (yields_lift.mp yields).2

theorem bind {part : Loader α} {rest : α → Loader β} (still : part.Still)
    (still_rest : ∀ value, (rest value).Still) : Loader.Still (part >>= rest) := by
  intro loader h result later yields
  obtain ⟨_, value, middle, _, _, before, after⟩ := yields_bind.mp yields
  exact (still_rest value _ _ _ _ after).trans (still _ _ _ _ before)

theorem get_bind {rest : LoaderState → Loader β} (still : ∀ state, (rest state).Still) :
    Loader.Still (get >>= rest) := fun loader _ _ _ yields =>
  still loader _ _ _ _ (yields_get_bind.mp yields)

end Loader.Still

theorem Logger.emit_still (logger : Logger) (record : Log.Record) :
    (logger.emit record).Still := by
  unfold Logger.emit
  dsimp only
  split
  · exact .pure _
  · refine .get_bind fun state => ?_
    split
    · refine .bind (.lift _) fun found => ?_
      split
      · exact .lift _
      · exact .pure _
    · exact .pure _
  · exact .lift _

theorem log_still (record : Log.Record) : (log record).Still := by
  refine .get_bind fun state => ?_
  split
  · exact .pure _
  · cases state.cell with
    | made logger => exact (logger.emit_still record).bind fun _ => .pure _
    | empty | poisoned => exact .pure _

namespace LogEvent

def isSetUp : LogEvent → Bool
  | setUp _ => true
  | _ => false

variable {logger : Logger}

theorem run_perform_setUp (made : loader.cell = .made logger) (installed : loader.installed = true)
    (other : Settings) : (LogEvent.setUp other).perform.run loader = pure ((), loader) := by
  have performed : (LogEvent.setUp other).perform.run loader =
      (Logger.setUp other).run loader >>= fun ended => pure ((), ended.2) := rfl
  rw [performed, Logger.run_setUp_again made installed, pure_bind]

/-- No event of a log that is in place changes more than the system table's presence. -/
theorem perform_keeps (made : loader.cell = .made logger) (installed : loader.installed = true)
    {event : LogEvent} (yields : Loader.Yields event.perform loader h () later) :
    later = { loader with systemTable := later.systemTable } := by
  cases event with
  | record entry =>
    rw [((log_still entry.record).bind fun _ => .pure _) _ _ _ _ yields]
  | setUp other =>
    rw [Loader.Yields, run_perform_setUp made installed] at yields
    obtain ⟨-, same⟩ := Program.yields_pure.mp yields
    cases same
    rfl
  | exit =>
    obtain ⟨rfl, rfl⟩ := Loader.yields_modify.mp yields
    rfl
  | call request aside =>
    rw [((Loader.Still.lift (ask request)).bind fun _ => .pure _) _ _ _ _ yields]

theorem events_keep (made : loader.cell = .made logger) (installed : loader.installed = true)
    {events : List LogEvent}
    (yields : Loader.Yields (events.forM LogEvent.perform) loader h () later) :
    later = { loader with systemTable := later.systemTable } := by
  induction events generalizing loader h with
  | nil =>
    obtain ⟨-, -, rfl⟩ := Loader.yields_pure.mp yields
    rfl
  | cons event events ih =>
    obtain ⟨_, ⟨⟩, middle, _, rfl, before, after⟩ := Loader.yields_bind.mp yields
    have first := perform_keeps made installed before
    have rest := ih (by rw [first]; exact made) (by rw [first]; exact installed) after
    rw [rest, first]

/-- Set-ups in a row of events are as good as none. -/
theorem forM_without_setUps (made : loader.cell = .made logger)
    (installed : loader.installed = true) (events : List LogEvent) :
    (events.forM LogEvent.perform).run loader =
      ((events.filter fun event => !event.isSetUp).forM LogEvent.perform).run loader := by
  induction events generalizing loader with
  | nil => rfl
  | cons event events ih =>
    have onward (rest : List LogEvent) : ((event :: rest).forM perform).run loader =
        event.perform.run loader >>= fun ended => (rest.forM perform).run ended.2 := rfl
    rw [onward]
    cases repeated : event.isSetUp with
    | true =>
      obtain ⟨other, rfl⟩ : ∃ other, event = .setUp other := by
        cases event with
        | setUp other => exact ⟨other, rfl⟩
        | record | exit | call => cases repeated
      rw [run_perform_setUp made installed, pure_bind, ih made installed, List.filter_cons_of_neg]
      simp [repeated]
    | false =>
      rw [List.filter_cons_of_pos (by simp [repeated]), onward]
      refine Program.bind_congr fun h ended yields => ?_
      have kept := perform_keeps made installed yields
      exact ih (by rw [kept]; exact made) (by rw [kept]; exact installed)

end LogEvent

variable {σ : Type}

/-- **The first set-up of the log counts, and no other.** It succeeds and fixes the output, the
layout and the greatest level, unless it turns to the console without a system table; there it
crashes. From then on every set-up fails, asks for nothing and changes nothing, so that all that
happens to the log happens as without it. -/
theorem first_set_up_counts (machine : Machine Uefi σ) (state : σ) (first : Settings)
    (loader : LoaderState) (unmade : loader.cell = .empty)
    (uninstalled : loader.installed = false) :
    let h := ((Logger.setUp first).run loader).history machine state
    let ended := (((Logger.setUp first).run loader).run machine state).1
    (loader.systemTable = false ∧ Turns first.logDevice h ∧
      ended = (.crash, { loader with cell := .poisoned })) ∨
    ∃ output,
      let ready : LoaderState := { loader with
        cell := .made ⟨output, first.logSourcePath⟩
        installed := true
        maxLevel := some first.logLevel }
      Opens first.logDevice h output ∧ ended = (.ok (), ready) ∧
      ∀ events : List LogEvent,
        (events.forM LogEvent.perform).run ready =
          ((events.filter fun event => !event.isSetUp).forM LogEvent.perform).run ready ∧
        ∀ h' later, Loader.Yields (events.forM LogEvent.perform) ready h' () later →
          later = { ready with systemTable := later.systemTable } ∧
          ∀ other, (Logger.setUp other).run later = pure (.fail .alreadySet, later) := by
  intro h ended
  have yields := Loader.yields_run machine (Logger.setUp first) loader state
  have way := Logger.first_of_yields unmade uninstalled yields
  generalize outcome : (((Logger.setUp first).run loader).run machine state).1.1 = answer at way
  generalize left : (((Logger.setUp first).run loader).run machine state).1.2 = later at way
  have whole : ended = (answer, later) := Prod.ext outcome left
  rw [whole]
  cases way with
  | crashed table turns => exact .inl ⟨table, turns, rfl⟩
  | @made output opens =>
    refine .inr ⟨output, opens, rfl, fun events => ?_⟩
    refine ⟨LogEvent.forM_without_setUps rfl rfl events, fun h' later yields => ?_⟩
    have kept := LogEvent.events_keep rfl rfl yields
    refine ⟨kept, fun other => ?_⟩
    exact Logger.run_setUp_again (by rw [kept]) (by rw [kept]) other

/-- A serial line that does not answer leaves the log to the console, and set-ups before and behind
a record do nothing. Without a system table the console cannot be turned to. -/
theorem first_set_up_counts_fallback :
    let machine := Testbed.UefiMachine.answer
    let first : Settings := { logDevice := .com1, logLevel := .warn, logSourcePath := true }
    let ready : LoaderState :=
      { cell := .made ⟨some .console, true⟩, installed := true, maxLevel := some .warn }
    (((Logger.setUp first).run {}).run machine {}).1 = (.ok (), ready) ∧
    (∀ other entry last,
      ([.setUp other, .record entry, .setUp other, .exit, .record last].forM
        LogEvent.perform).run ready =
      ([.record entry, .exit, .record last].forM LogEvent.perform).run ready) ∧
    (((Logger.setUp {}).run { systemTable := false }).run machine {}).1 =
      (.crash, { systemTable := false, cell := .poisoned }) := by
  intro machine first ready
  have ran : (((Logger.setUp first).run {}).run machine {}).1 = (.ok (), ready) := by
    decide +kernel
  refine ⟨ran, fun other entry last => ?_, by decide +kernel⟩
  rcases first_set_up_counts machine {} first {} rfl rfl with
    ⟨-, -, crashed⟩ | ⟨output, -, ended, counts⟩
  · rw [ran] at crashed
    cases crashed
  · rw [ran] at ended
    have made := LoggerCell.made.inj (congrArg (fun ended => ended.2.cell) ended)
    obtain rfl : some Sink.console = output := congrArg Logger.output made
    exact (counts [.setUp other, .record entry, .setUp other, .exit, .record last]).1

end Uefi

end EfiLoader
