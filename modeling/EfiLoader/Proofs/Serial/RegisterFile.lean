import EfiLoader.Proofs.Serial.Bus

/-!
Registers of a device of the 16550 kind, and what accesses do to them. The line control says with
one bit whether the first two registers are the divisor, so that what a write does depends on the
writes before it. Main statement: the accesses of a set up leave the divisor that was chosen, and
decide every other register but the one that enables interrupts, whatever was there before.
-/

namespace EfiLoader.Serial

open Testbed (RegisterAccess)

/-- The address and the value of an access that is a write. -/
def written? : RegisterAccess → Option (UInt16 × UInt8)
  | .wrote address value => some (address, value)
  | .read _ _ => none

theorem Bus.pollAccesses_written (base : UInt16) (polls : Polls) :
    (Bus.pollAccesses base polls).filterMap written? = [] := by
  simp [Bus.pollAccesses, written?, List.filterMap_append, List.filterMap_map]

/-- The registers that can be written, and the bytes that went over the line. -/
structure RegisterFile where
  divisorLow : UInt8
  divisorHigh : UInt8
  interruptEnable : UInt8
  fifoControl : UInt8
  lineControl : UInt8
  modemControl : UInt8
  scratch : UInt8
  transmitted : Bytes

namespace RegisterFile

/-- The first two registers are the divisor. -/
def Latched (file : RegisterFile) : Prop := file.lineControl &&& divisorLatch ≠ 0

instance (file : RegisterFile) : Decidable file.Latched :=
  inferInstanceAs (Decidable (file.lineControl &&& divisorLatch ≠ 0))

def divisor (file : RegisterFile) : UInt16 :=
  file.divisorHigh.toUInt16 <<< 8 ||| file.divisorLow.toUInt16

/-- Writes a register, which is named by its distance from the first one. -/
def write (file : RegisterFile) (register : UInt16) (value : UInt8) : RegisterFile :=
  if register = 0 then
    if file.Latched then { file with divisorLow := value }
    else { file with transmitted := file.transmitted ++ [value] }
  else if register = Serial.interruptEnable then
    if file.Latched then { file with divisorHigh := value }
    else { file with interruptEnable := value }
  else if register = Serial.fifoControl then { file with fifoControl := value }
  else if register = Serial.lineControl then { file with lineControl := value }
  else if register = Serial.modemControl then { file with modemControl := value }
  else if register = Serial.scratch then { file with scratch := value }
  else file

section
variable (file : RegisterFile) (value : UInt8)

@[simp] theorem write_zero : file.write 0 value =
    if file.Latched then { file with divisorLow := value }
    else { file with transmitted := file.transmitted ++ [value] } := rfl

@[simp] theorem write_interruptEnable : file.write Serial.interruptEnable value =
    if file.Latched then { file with divisorHigh := value }
    else { file with interruptEnable := value } := rfl

@[simp] theorem write_fifoControl :
    file.write Serial.fifoControl value = { file with fifoControl := value } := rfl

@[simp] theorem write_lineControl :
    file.write Serial.lineControl value = { file with lineControl := value } := rfl

@[simp] theorem write_modemControl :
    file.write Serial.modemControl value = { file with modemControl := value } := rfl

@[simp] theorem write_scratch :
    file.write Serial.scratch value = { file with scratch := value } := rfl

end

/-- The registers of the device at `base` after an access. -/
def access (base : UInt16) (file : RegisterFile) : RegisterAccess → RegisterFile
  | .wrote address value => file.write (address - base) value
  | .read _ _ => file

/-- The registers of the device at `base` after accesses in their order. -/
def after (base : UInt16) (file : RegisterFile) (accesses : List RegisterAccess) : RegisterFile :=
  accesses.foldl (access base) file

theorem after_append (base : UInt16) (file : RegisterFile) (first second : List RegisterAccess) :
    file.after base (first ++ second) = (file.after base first).after base second :=
  List.foldl_append

@[simp] theorem after_nil (base : UInt16) (file : RegisterFile) : file.after base [] = file := rfl

@[simp] theorem after_read (base address : UInt16) (value : UInt8) (file : RegisterFile)
    (rest : List RegisterAccess) :
    file.after base (.read address value :: rest) = file.after base rest := rfl

theorem after_of_reads {base : UInt16} {accesses : List RegisterAccess} (file : RegisterFile)
    (reads : accesses.filterMap written? = []) : file.after base accesses = file := by
  induction accesses with
  | nil => rfl
  | cons access rest ih =>
    cases access with
    | wrote address value => simp [written?] at reads
    | read address value => exact ih (by simpa [written?] using reads)

@[simp] theorem after_wrote (base register : UInt16) (value : UInt8) (file : RegisterFile)
    (rest : List RegisterAccess) :
    file.after base (.wrote (base + register) value :: rest) =
      (file.write register value).after base rest := by
  have offset : base + register - base = register := by
    rw [UInt16.add_comm, UInt16.add_sub_cancel]
  simp [after, access, offset]

@[simp] theorem after_wrote_first (base : UInt16) (value : UInt8) (file : RegisterFile)
    (rest : List RegisterAccess) :
    file.after base (.wrote base value :: rest) = (file.write 0 value).after base rest := by
  simp [after, access]

end RegisterFile

/-- The two registers of the divisor hold all of it. -/
theorem Baud.divisor_of_halves (baud : Baud) :
    (baud.divisor >>> 8).toUInt8.toUInt16 <<< 8 ||| baud.divisor.toUInt8.toUInt16 =
      baud.divisor := by
  cases baud <;> rfl

namespace Uart

/-- The accesses that look for a device, which gave back `value`. -/
def probing (base : UInt16) (value : UInt8) : List RegisterAccess :=
  [.wrote (base + scratch) probe, .read (base + scratch) value]

/-- The accesses that set a device up. -/
def setting (base : UInt16) (baud : Baud) : List RegisterAccess :=
  [.wrote (base + interruptEnable) 0, .wrote (base + lineControl) (divisorLatch ||| eightDataBits),
    .wrote base baud.divisor.toUInt8, .wrote (base + interruptEnable) (baud.divisor >>> 8).toUInt8,
    .wrote (base + lineControl) eightDataBits, .wrote (base + fifoControl) 0x07,
    .wrote (base + modemControl) 0x03]

variable {σ : Type} (bus : Bus σ)

/-- What the scratch register of the device at `base` reads as after the probe was written to it. -/
def echo (base : UInt16) (traced : Traced σ) : UInt8 :=
  (bus.tracedRead (base + scratch) (bus.tracedWrite (base + scratch) probe traced)).1

theorem setUp_run_echo (com : Com) (baud : Baud) (traced : Traced σ) :
    ∃ opened : Traced σ,
      (setUp com baud).run bus.answer traced =
        some (⟨com.base, echo bus com.base traced == probe⟩, opened) ∧
      opened.accesses = traced.accesses ++ (probing com.base (echo bus com.base traced) ++
        if echo bus com.base traced = probe then setting com.base baud else []) := by
  simp only [setUp, Bus.run_write, Bus.run_read]
  unfold echo
  generalize reading : bus.tracedRead (com.base + scratch) _ = probed
  have seen : probed.2.accesses = traced.accesses ++ probing com.base probed.1 := by
    simp [← reading, probing]
  cases answers : probed.1 == probe with
  | true =>
    have present : probed.1 = probe := eq_of_beq answers
    simp only [if_true, Bus.run_write, Bus.run_pure]
    exact ⟨_, rfl, by simp [setting, seen, present]⟩
  | false =>
    have absent : probed.1 ≠ probe := ne_of_beq_false answers
    exact ⟨_, rfl, by simp [seen, absent]⟩

theorem setUp_run (com : Com) (baud : Baud) (traced : Traced σ) :
    ∃ (value : UInt8) (opened : Traced σ),
      (setUp com baud).run bus.answer traced = some (⟨com.base, value == probe⟩, opened) ∧
      opened.accesses = traced.accesses ++
        (probing com.base value ++ if value = probe then setting com.base baud else []) :=
  ⟨_, setUp_run_echo bus com baud traced⟩

/-- **A set up leaves the divisor that was chosen, whatever was there before.** The register that
enables interrupts is the exception: a latch that was left set takes what is written to it. -/
theorem after_setUp (base : UInt16) (baud : Baud) (file : RegisterFile) :
    file.after base (probing base probe ++ setting base baud) =
      { divisorLow := baud.divisor.toUInt8, divisorHigh := (baud.divisor >>> 8).toUInt8,
        interruptEnable := if file.Latched then file.interruptEnable else 0, fifoControl := 0x07,
        lineControl := eightDataBits, modemControl := 0x03, scratch := probe,
        transmitted := file.transmitted } := by
  have set : (divisorLatch ||| eightDataBits) &&& divisorLatch ≠ 0 := by decide
  by_cases latched : file.lineControl &&& divisorLatch ≠ 0
  · simp [probing, setting, RegisterFile.Latched, latched, set]
  · simp [probing, setting, RegisterFile.Latched, latched, set]

theorem not_latched_after_setUp (base : UInt16) (baud : Baud) (file : RegisterFile) :
    ¬ (file.after base (probing base probe ++ setting base baud)).Latched := by
  have clear : ¬ eightDataBits &&& divisorLatch ≠ 0 := by decide
  rw [after_setUp]
  exact clear

end Uart

end EfiLoader.Serial
