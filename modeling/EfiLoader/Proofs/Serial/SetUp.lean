import EfiLoader.Proofs.Serial.RegisterFile

/-!
Setting up a device that was in use before. Where a machine has a device of the 16550 kind
(`Bus.Hosts`), a request changes its registers as the accesses that it makes say, and so does a
whole program (`Bus.Hosts.run`). Main statement: a set up leaves the divisor, the line format and
the modem lines that were chosen, whatever the registers held. Interrupts are turned off while it
is not known yet whether the latch is set; if it was left set, it takes that write, and interrupts
stay as they were.
-/

namespace EfiLoader.Serial

namespace Bus

variable {σ : Type}

/-- The machine has a device of the 16550 kind at `base` with these registers. Reads do not change
them. -/
structure Hosts (bus : Bus σ) (base : UInt16) (registers : σ → RegisterFile) : Prop where
  write : ∀ address value machine,
    registers (bus.write address value machine) = (registers machine).write (address - base) value
  read : ∀ address machine, registers (bus.read address machine).2 = registers machine

namespace Hosts

variable {bus : Bus σ} {base : UInt16} {registers : σ → RegisterFile} {traced later : Traced σ}
  (hosts : bus.Hosts base registers)
include hosts

theorem afterReads (address : UInt16) (count : Nat) :
    registers (bus.afterReads address count traced).device = registers traced.device := by
  induction count with
  | zero => rfl
  | succ count ih =>
    rw [afterReads_succ, ← ih]
    exact hosts.read _ _

theorem poll {address : UInt16} {polls : Polls}
    (ended : bus.poll address traced = some (polls, later)) :
    registers later.device = registers traced.device := by
  unfold Bus.poll at ended
  split at ended
  · obtain ⟨-, rfl⟩ := Prod.mk.inj (Option.some.inj ended)
    exact hosts.afterReads address _
  · cases ended

/-- A request does to the registers what its accesses say. -/
theorem answer {request : RegisterRequest} {reply : RegisterReply request}
    (answered : bus.answer request traced = some (reply, later)) :
    ∃ accesses, later.accesses = traced.accesses ++ accesses ∧
      registers later.device = (registers traced.device).after base accesses := by
  cases request with
  | write address value =>
    obtain ⟨-, rfl⟩ := Prod.mk.inj (Option.some.inj answered)
    exact ⟨[.wrote address value], rfl, hosts.write address value _⟩
  | read address =>
    cases Option.some.inj answered
    exact ⟨_, rfl, hosts.read address _⟩
  | await address =>
    -- Waiting makes no writes, so its accesses change nothing either.
    refine ⟨_, bus.poll_accesses answered, ?_⟩
    rw [RegisterFile.after_of_reads _ (pollAccesses_written address reply)]
    exact hosts.poll answered

/-- A run does to the registers what all its accesses say, one after another. -/
theorem run {α : Type} {program : Program Registers α} {value : α}
    (ran : program.run bus.answer traced = some (value, later)) :
    ∃ accesses, later.accesses = traced.accesses ++ accesses ∧
      registers later.device = (registers traced.device).after base accesses := by
  induction program generalizing traced with
  | done value =>
    obtain ⟨-, rfl⟩ := Prod.mk.inj (Option.some.inj ran)
    exact ⟨[], (List.append_nil _).symm, rfl⟩
  | ask request next ih =>
    obtain ⟨⟨reply, middle⟩, answered, went⟩ := Option.bind_eq_some_iff.mp ran
    obtain ⟨first, first_accesses, first_registers⟩ := hosts.answer answered
    obtain ⟨rest, rest_accesses, rest_registers⟩ := ih reply went
    refine ⟨first ++ rest, ?_, ?_⟩
    · rw [rest_accesses, first_accesses, List.append_assoc]
    · rw [rest_registers, first_registers, RegisterFile.after_append]

/-- On a machine without accesses so far, the trace tells what became of the registers. -/
theorem registers_of_run {α : Type} {program : Program Registers α} {value : α} {start : σ}
    (ran : program.run bus.answer ⟨start, []⟩ = some (value, later)) :
    registers later.device = (registers start).after base later.accesses := by
  obtain ⟨accesses, all, changed⟩ := hosts.run ran
  obtain rfl : later.accesses = accesses := all
  exact changed

end Hosts

end Bus

namespace RegisterFile

/-- What a register reads as on a device that received nothing, has sent everything and asks for no
interrupt. -/
def read (file : RegisterFile) (register : UInt16) : UInt8 :=
  if register = 0 then if file.Latched then file.divisorLow else 0
  else if register = Serial.interruptEnable then
    if file.Latched then file.divisorHigh else file.interruptEnable
  else if register = Serial.fifoControl then 0x01
  else if register = Serial.lineControl then file.lineControl
  else if register = Serial.modemControl then file.modemControl
  else if register = Serial.lineStatus then 0x60
  else if register = Serial.scratch then file.scratch
  else 0

/-- A machine that is nothing but the device at `base`. -/
def bus (base : UInt16) : Bus RegisterFile where
  write address value file := file.write (address - base) value
  read address file := (file.read (address - base), file)

theorem bus_hosts (base : UInt16) : (bus base).Hosts base id where
  write _ _ _ := rfl
  read _ _ := rfl

end RegisterFile

namespace Uart

/-- **A set up does not depend on what was left in the device, but for its interrupts.** If the
scratch register gives back the probe, then on every device the divisor, the line control and the
modem control are the ones that were chosen, and the latch is clear. Interrupts are off, unless the
latch was set before: then they are as they were. If it does not give it back, nothing else was
accessed. -/
theorem registers_after_setUp {σ : Type} (bus : Bus σ) (com : Com) (baud : Baud) (start : σ) :
    ∃ opened : Traced σ,
      let back := (bus.read (com.base + scratch) (bus.write (com.base + scratch) probe start)).1
      (setUp com baud).run bus.answer ⟨start, []⟩ = some (⟨com.base, back == probe⟩, opened) ∧
      if back = probe then
        ∀ registers, bus.Hosts com.base registers →
          let left := registers start
          let now := registers opened.device
          now.divisor = baud.divisor ∧ now.lineControl = 0x03 ∧ ¬ now.Latched ∧
          now.modemControl = 0x03 ∧
          now.interruptEnable = if left.Latched then left.interruptEnable else 0
      else
        opened.accesses =
          [.wrote (com.base + scratch) probe, .read (com.base + scratch) back] := by
  obtain ⟨opened, ran, accesses⟩ := setUp_run_echo bus com baud ⟨start, []⟩
  refine ⟨opened, ran, ?_⟩
  split
  case isTrue answers =>
    intro registers hosts left now
    have present : echo bus com.base ⟨start, []⟩ = probe := answers
    have set_up : opened.accesses = probing com.base probe ++ setting com.base baud := by
      simpa [present] using accesses
    have after : now = left.after com.base (probing com.base probe ++ setting com.base baud) := by
      rw [← set_up]
      exact hosts.registers_of_run ran
    have clear : ¬ now.Latched := by
      rw [after]
      exact not_latched_after_setUp com.base baud left
    rw [after_setUp] at after
    refine ⟨?_, congrArg RegisterFile.lineControl after, clear,
      congrArg RegisterFile.modemControl after, congrArg RegisterFile.interruptEnable after⟩
    rw [after]
    exact baud.divisor_of_halves
  case isFalse silent =>
    have absent : echo bus com.base ⟨start, []⟩ ≠ probe := silent
    rw [if_neg absent] at accesses
    exact accesses

/-- With the latch left set, interrupts that were on stay on. -/
theorem registers_after_setUp_latched :
    let left : RegisterFile :=
      { divisorLow := 0x60, divisorHigh := 0, interruptEnable := 0x0f, fifoControl := 0,
        lineControl := 0x83, modemControl := 0x0b, scratch := 0, transmitted := [] }
    (RegisterFile.bus 0x3f8).Hosts 0x3f8 id ∧
      ∃ opened : Traced RegisterFile,
        (setUp .com1 .baud9600).run (RegisterFile.bus 0x3f8).answer ⟨left, []⟩ =
          some (⟨0x3f8, true⟩, opened) ∧
        opened.device.divisor = 12 ∧ opened.device.lineControl = 0x03 ∧
        opened.device.modemControl = 0x03 ∧ opened.device.interruptEnable = 0x0f := by
  intro left
  have hosts := RegisterFile.bus_hosts 0x3f8
  obtain ⟨opened, ran, spec⟩ := registers_after_setUp (RegisterFile.bus 0x3f8) .com1 .baud9600 left
  have answers : ((RegisterFile.bus 0x3f8).read (Com.com1.base + scratch)
      ((RegisterFile.bus 0x3f8).write (Com.com1.base + scratch) probe left)).1 = probe := by
    decide +kernel
  rw [if_pos answers] at spec
  obtain ⟨divisor, line, -, modem, interrupts⟩ := spec id hosts
  have latched : left.Latched := by decide
  rw [answers] at ran
  exact ⟨hosts, opened, ran, divisor, line, modem, interrupts.trans (if_pos latched)⟩

end Uart

end EfiLoader.Serial
