import EfiLoader.Testbed.Uart

/-!
Test sessions on serial lines.
-/

namespace EfiLoader.Testbed

open Serial (Baud Com Uart)

inductive UartStep where
  | setUp (com : Com) (baud : Baud)
  | sendByte (byte : UInt8)
  | sendText (text : String)

structure UartSession where
  bank : UartBank
  /-- The device that was set up last. -/
  uart : Option Uart := none

/-- Whether there is a device after a step, and what the step accessed and sent. -/
structure UartReport where
  present : Bool
  accesses : List RegisterAccess
  sent : Bytes

namespace UartSession

def perform {α : Type} (program : Program Registers α) : StateM UartSession α :=
  modifyGet fun session =>
    let (value, bank) := (program.run UartBank.answer).run session.bank
    (value, { session with bank })

def step : UartStep → StateM UartSession Unit
  | .setUp com baud => do
    let uart ← perform (Uart.setUp com baud)
    modify fun session => { session with uart := some uart }
  | .sendByte byte => do
    if let some uart := (← get).uart then perform (uart.sendByte byte)
  | .sendText text => do
    if let some uart := (← get).uart then perform (uart.sendText text)

def play (steps : List UartStep) : StateM UartSession (List UartReport) :=
  steps.mapM fun s => do
    modify fun session => { session with bank := session.bank.forget }
    step s
    let session ← get
    return ⟨(session.uart.map (·.present)).getD false, session.bank.accesses.reverse,
      session.bank.sent.reverse⟩

end UartSession

end EfiLoader.Testbed
