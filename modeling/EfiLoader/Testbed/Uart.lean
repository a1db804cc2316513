import EfiLoader.Serial.Uart
import EfiLoader.Numeral

/-!
Simulated serial devices, with a trace of every register access.
-/

namespace EfiLoader.Testbed

open Serial (Com RegisterRequest RegisterReply Polls transmitterReady)

structure UartDevice where
  /-- What the scratch register always reads as; if nothing, as what was written to it. -/
  fixedScratch : Option UInt8 := none
  scratch : UInt8 := 0
  /-- The next values of the line status; after them it says ready. -/
  lineStatus : List UInt8 := []
  divisorLatch : Bool := false
  deriving DecidableEq, Repr

inductive RegisterAccess where
  | wrote (address : UInt16) (value : UInt8)
  | read (address : UInt16) (value : UInt8)
  deriving DecidableEq, Repr

def RegisterAccess.text : RegisterAccess → String
  | wrote address value =>
    "w" ++ Numeral.hex address.toNat ++ "=" ++ Numeral.zeroHex 2 value.toNat
  | read address value => "r" ++ Numeral.hex address.toNat ++ "=" ++ Numeral.zeroHex 2 value.toNat

structure UartBank where
  com1 : Option UartDevice := none
  com2 : Option UartDevice := none
  /-- Latest first. -/
  accesses : List RegisterAccess := []
  /-- What the devices transmitted, latest first. -/
  sent : Bytes := []
  deriving DecidableEq, Repr

namespace UartBank

/-- The line status of an idle device. -/
def idleStatus : UInt8 := 0x60

/-- What reads as nothing drives it. -/
def floating : UInt8 := 0xff

def device? (bank : UartBank) : Com → Option UartDevice
  | .com1 => bank.com1
  | .com2 => bank.com2

def setDevice (bank : UartBank) (com : Com) (device : UartDevice) : UartBank :=
  match com with
  | .com1 => { bank with com1 := some device }
  | .com2 => { bank with com2 := some device }

/-- The device at an address, and which of its registers that is. -/
def register? (bank : UartBank) (address : UInt16) : Option (Com × UartDevice × UInt16) :=
  let find (com : Com) : Option (Com × UartDevice × UInt16) :=
    if com.base ≤ address ∧ address < com.base + 8 then
      (bank.device? com).map fun device => (com, device, address - com.base)
    else none
  find .com1 <|> find .com2

def trace (access : RegisterAccess) : StateM UartBank Unit :=
  modify fun bank => { bank with accesses := access :: bank.accesses }

def write (address : UInt16) (value : UInt8) : StateM UartBank Unit := do
  trace (.wrote address value)
  modify fun bank =>
    match bank.register? address with
    | none => bank
    | some (com, device, register) =>
      if register = 0 then
        if device.divisorLatch then bank else { bank with sent := value :: bank.sent }
      else if register = Serial.lineControl then
        bank.setDevice com { device with divisorLatch := value &&& Serial.divisorLatch ≠ 0 }
      else if register = Serial.scratch then bank.setDevice com { device with scratch := value }
      else bank

/-- What is read now, and the bank after the reading. -/
def readValue (bank : UartBank) (address : UInt16) : UInt8 × UartBank :=
  match bank.register? address with
  | none => (floating, bank)
  | some (com, device, register) =>
    if register = Serial.scratch then (device.fixedScratch.getD device.scratch, bank)
    else if register = Serial.lineStatus then
      match device.lineStatus with
      | [] => (idleStatus, bank)
      | value :: rest => (value, bank.setDevice com { device with lineStatus := rest })
    else (floating, bank)

def read (address : UInt16) : StateM UartBank UInt8 := do
  let value ← modifyGet fun bank => bank.readValue address
  trace (.read address value)
  return value

def isBusy (value : UInt8) : Bool := value &&& transmitterReady = 0

theorem isBusy_takeWhile {values : List UInt8} :
    ∀ value ∈ values.takeWhile isBusy, value &&& transmitterReady = 0 :=
  fun value mem => of_decide_eq_true (List.all_eq_true.mp List.all_takeWhile value mem)

/-- The polls of a line status that takes these values and then says ready, and the values left. -/
def polls (values : List UInt8) : Polls × List UInt8 :=
  match h : values.dropWhile isBusy with
  | [] => (⟨values.takeWhile isBusy, idleStatus, isBusy_takeWhile, by decide⟩, [])
  | value :: rest =>
    (⟨values.takeWhile isBusy, value, isBusy_takeWhile, by
      have := List.head?_dropWhile_not isBusy values
      simpa [h, isBusy] using this⟩, rest)

def await (base : UInt16) : StateM UartBank Polls := do
  let address := base + Serial.lineStatus
  let polled ← modifyGet fun bank =>
    match bank.register? address with
    | none => (⟨[], floating, by simp, by decide⟩, bank)
    | some (com, device, _) =>
      let (polled, rest) := polls device.lineStatus
      (polled, bank.setDevice com { device with lineStatus := rest })
  for value in polled.busy do trace (.read address value)
  trace (.read address polled.ready)
  return polled

def answer : (request : RegisterRequest) → StateM UartBank (RegisterReply request)
  | .write address value => write address value
  | .read address => read address
  | .await base => await base

/-- The bank without its trace. -/
def forget (bank : UartBank) : UartBank := { bank with accesses := [], sent := [] }

end UartBank

end EfiLoader.Testbed
