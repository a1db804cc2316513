import EfiLoader.Proofs.Serial.RegisterFile

/-!
Output over a serial line. `Sent` says what accesses a device gets when bytes are sent to it: for
each byte reads of the line status up to one that says ready, and then one write of the byte. Main
statement: texts that are sent after a set up go over the line whole and in order, with line ends
of two bytes, and the divisor of the set up stays in place; without a device nothing is accessed.
-/

namespace EfiLoader.Serial

open Testbed (RegisterAccess UartBank)

/-- Splitting at each `a` and joining with a separator puts the separator in the place of `a`. -/
theorem intercalate_splitOn_eq_flatMap {α : Type} [DecidableEq α] (separator : List α) (a : α)
    (xs : List α) :
    separator.intercalate (xs.splitOn a) =
      xs.flatMap fun x => if x = a then separator else [x] := by
  induction xs with
  | nil => rfl
  | cons x xs ih =>
    rw [List.splitOn_cons_eq_if_modifyHead, List.flatMap_cons, ← ih]
    by_cases here : x = a
    · simp [here, List.intercalate_cons_of_ne_nil (List.splitOn_ne_nil a xs)]
    · obtain ⟨line, lines, split⟩ := List.exists_cons_of_ne_nil (List.splitOn_ne_nil a xs)
      simp [here, split, List.intercalate_cons_cons_left]

/-- The accesses with which the device at `base` gets bytes to transmit. -/
inductive Sent (base : UInt16) : Bytes → List RegisterAccess → Prop
  | nothing : Sent base [] []
  | byte {b : UInt8} {rest : Bytes} {accesses : List RegisterAccess} (polls : Polls) :
      Sent base rest accesses →
      Sent base (b :: rest) (Bus.pollAccesses base polls ++ .wrote base b :: accesses)

namespace Sent

variable {base : UInt16} {bytes : Bytes} {accesses : List RegisterAccess}

theorem append {more : Bytes} {later : List RegisterAccess} (sent : Sent base bytes accesses)
    (next : Sent base more later) : Sent base (bytes ++ more) (accesses ++ later) := by
  induction sent with
  | nothing => exact next
  | byte polls _ ih =>
    rw [List.append_assoc, List.cons_append, List.cons_append]
    exact .byte polls ih

theorem wrote_not_mem_pollAccesses (base : UInt16) (polls : Polls) {address : UInt16}
    {value : UInt8} : .wrote address value ∉ Bus.pollAccesses base polls := by
  simp [Bus.pollAccesses]

/-- The bytes are written one by one, and nothing else is. -/
theorem filterMap_written (sent : Sent base bytes accesses) :
    accesses.filterMap written? = bytes.map (base, ·) := by
  induction sent with
  | nothing => rfl
  | byte polls _ ih =>
    rw [List.filterMap_append, Bus.pollAccesses_written, List.nil_append, List.map_cons, ← ih]
    rfl

/-- The access right before a write is a read that says ready. -/
theorem read_before (sent : Sent base bytes accesses) {earlier later : List RegisterAccess}
    {address : UInt16} {value : UInt8}
    (split : accesses = earlier ++ .wrote address value :: later) :
    ∃ (before : List RegisterAccess) (status : UInt8),
      earlier = before ++ [.read (base + lineStatus) status] ∧ status &&& transmitterReady ≠ 0 := by
  induction sent generalizing earlier with
  | nothing => simp at split
  | @byte b rest accesses polls _ ih =>
    have polled (all : earlier = Bus.pollAccesses base polls) :
        ∃ (before : List RegisterAccess) (status : UInt8),
          earlier = before ++ [.read (base + lineStatus) status] ∧
            status &&& transmitterReady ≠ 0 := ⟨_, polls.ready, all, polls.ready_set⟩
    obtain ⟨tail, past, here⟩ | ⟨tail, within, here⟩ := List.append_eq_append_iff.mp split
    · cases tail with
      | nil => exact polled (past.trans (List.append_nil _))
      | cons first tail =>
        obtain ⟨rfl, later_split⟩ := List.cons.inj here
        obtain ⟨before, status, rfl, ready⟩ := ih later_split
        exact ⟨Bus.pollAccesses base polls ++ .wrote base b :: before, status, by simp [past],
          ready⟩
    · cases tail with
      | nil => exact polled ((List.append_nil _).symm.trans within.symm)
      | cons first tail =>
        obtain ⟨rfl, -⟩ := List.cons.inj here
        have read : RegisterAccess.wrote address value ∈ Bus.pollAccesses base polls := by
          simp [within]
        exact absurd read (wrote_not_mem_pollAccesses base polls)

/-- Without the latch the bytes go out, and no register changes. -/
theorem after (sent : Sent base bytes accesses) {file : RegisterFile} (clear : ¬ file.Latched) :
    file.after base accesses = { file with transmitted := file.transmitted ++ bytes } := by
  induction sent generalizing file with
  | nothing => simp
  | byte polls _ ih =>
    rw [RegisterFile.after_append, file.after_of_reads (Bus.pollAccesses_written base polls),
      RegisterFile.after_wrote_first, RegisterFile.write_zero, if_neg clear, ih (by exact clear)]
    simp

end Sent

/-- The program sends the bytes to the device at `base`, and it ends if the line there does not stay
busy for ever. -/
def Transmits {σ : Type} (bus : Bus σ) (base : UInt16) (bytes : Bytes)
    (program : Program Registers Unit) : Prop :=
  ∀ traced, (bus.Settles base → (program.run bus.answer traced).isSome) ∧
    ∀ later, program.run bus.answer traced = some ((), later) →
      ∃ accesses, later.accesses = traced.accesses ++ accesses ∧ Sent base bytes accesses

namespace Transmits

variable {σ : Type} {bus : Bus σ} {base : UInt16} {bytes more : Bytes}

theorem nothing : Transmits bus base [] (pure ()) := by
  intro traced
  refine ⟨fun _ => rfl, fun later ran => ⟨[], ?_, .nothing⟩⟩
  obtain ⟨-, rfl⟩ := Prod.mk.inj (Option.some.inj ran)
  exact (List.append_nil _).symm

theorem bind {first : Program Registers Unit} {second : Unit → Program Registers Unit}
    (sends : Transmits bus base bytes first) (sends_more : Transmits bus base more (second ())) :
    Transmits bus base (bytes ++ more) (first >>= second) := by
  intro traced
  have ran : (first >>= second).run bus.answer traced =
      (first.run bus.answer traced).bind fun middle =>
        (second ()).run bus.answer middle.2 := by
    rw [Program.run_bind]
    rfl
  rw [ran]
  constructor
  · intro settles
    obtain ⟨⟨⟨⟩, middle⟩, ended⟩ := Option.isSome_iff_exists.mp ((sends traced).1 settles)
    rw [ended]
    exact (sends_more middle).1 settles
  · intro later ended
    obtain ⟨⟨⟨⟩, middle⟩, ended_first, ended_second⟩ := Option.bind_eq_some_iff.mp ended
    obtain ⟨accesses, first_accesses, sent⟩ := (sends traced).2 middle ended_first
    obtain ⟨rest, second_accesses, sent_more⟩ := (sends_more middle).2 later ended_second
    refine ⟨accesses ++ rest, ?_, sent.append sent_more⟩
    rw [second_accesses, first_accesses, List.append_assoc]

end Transmits

namespace Uart

variable {σ : Type} (bus : Bus σ) (uart : Uart)

theorem sendByte_transmits (present : uart.present = true) (byte : UInt8) :
    Transmits bus uart.base [byte] (uart.sendByte byte) := by
  intro traced
  have ran : (uart.sendByte byte).run bus.answer traced =
      (bus.poll uart.base traced).bind fun polled =>
        some ((), bus.tracedWrite uart.base byte polled.2) := by
    rw [sendByte, if_pos present, Bus.run_await]
    rfl
  rw [ran]
  constructor
  · intro settles
    obtain ⟨polled, ended⟩ := Option.isSome_iff_exists.mp (bus.poll_ends settles traced)
    rw [ended]
    rfl
  · intro later ended
    obtain ⟨⟨polls, polled⟩, poll_ended, write⟩ := Option.bind_eq_some_iff.mp ended
    obtain ⟨-, rfl⟩ := Prod.mk.inj (Option.some.inj write)
    refine ⟨_, ?_, .byte polls .nothing⟩
    simp [bus.poll_accesses poll_ended]

theorem sendBytes_transmits (present : uart.present = true) (bytes : Bytes) :
    Transmits bus uart.base bytes (uart.sendBytes bytes) := by
  induction bytes with
  | nil => exact .nothing
  | cons b rest ih => exact (sendByte_transmits bus uart present b).bind ih

/-- Each line feed becomes a line end of two bytes. -/
theorem onLine_eq (bytes : Bytes) : onLine bytes = [13, 10].intercalate (bytes.splitOn 10) :=
  (intercalate_splitOn_eq_flatMap [13, 10] 10 bytes).symm

theorem sendTexts_transmits (present : uart.present = true) (texts : List String) :
    Transmits bus uart.base (onLine (texts.flatMap Bytes.utf8)) (texts.forM uart.sendText) := by
  induction texts with
  | nil => exact .nothing
  | cons text texts ih =>
    rw [List.flatMap_cons, onLine, List.flatMap_append]
    exact (sendBytes_transmits bus uart present (onLine (Bytes.utf8 text))).bind ih

/-- Nothing is asked of a device that is absent. -/
theorem sendBytes_absent (absent : uart.present = false) (bytes : Bytes) :
    uart.sendBytes bytes = pure () := by
  induction bytes with
  | nil => rfl
  | cons b rest ih =>
    simp [sendBytes, sendByte, absent, ih]

theorem sendTexts_absent (absent : uart.present = false) (texts : List String) :
    texts.forM uart.sendText = pure () := by
  induction texts with
  | nil => rfl
  | cons text texts ih =>
    have first : uart.sendText text = pure () := sendBytes_absent uart absent _
    rw [← ih]
    change (uart.sendText text >>= fun _ => texts.forM uart.sendText) = _
    rw [first]
    rfl

/-- **Output is complete and never overruns the transmitter.** On any bus, texts that are sent to a
device that a set up found are transmitted as their UTF-8 bytes with line ends of two bytes, each
write right after the line status said ready, and what the registers held before decides neither
what goes out nor at which rate. Sending ends if the line does not stay busy for ever. Without a
device the machine stays as it is. -/
theorem transmits_exactly {σ : Type} (bus : Bus σ) (com : Com) (baud : Baud) (texts : List String)
    (start : σ) :
    ∃ (uart : Uart) (opened : Traced σ),
      (setUp com baud).run bus.answer ⟨start, []⟩ = some (uart, opened) ∧
      let sending := (texts.forM uart.sendText).run bus.answer ⟨opened.device, []⟩
      let bytes := [13, 10].intercalate ((texts.flatMap Bytes.utf8).splitOn 10)
      if uart.present then
        (bus.Settles com.base → sending.isSome) ∧
        ∀ sent, sending = some ((), sent) →
          sent.accesses.filterMap written? = bytes.map (com.base, ·) ∧
          (∀ earlier address value later,
            sent.accesses = earlier ++ .wrote address value :: later →
            ∃ before status, earlier = before ++ [.read (com.base + lineStatus) status] ∧
              status &&& transmitterReady ≠ 0) ∧
          ∀ file : RegisterFile,
            let now := file.after com.base (opened.accesses ++ sent.accesses)
            now.divisor = baud.divisor ∧ now.transmitted = file.transmitted ++ bytes
      else sending = some ((), ⟨opened.device, []⟩) := by
  obtain ⟨value, opened, ran, accesses⟩ := setUp_run bus com baud ⟨start, []⟩
  refine ⟨_, opened, ran, ?_⟩
  intro sending bytes
  cases answers : value == probe with
  | false =>
    have nothing := sendTexts_absent ⟨com.base, false⟩ rfl texts
    simp [sending, nothing, answers]
  | true =>
    obtain rfl : value = probe := eq_of_beq answers
    have set_up : opened.accesses = probing com.base probe ++ setting com.base baud := by
      simpa using accesses
    obtain ⟨ends, transmitted⟩ :=
      sendTexts_transmits bus ⟨com.base, true⟩ rfl texts ⟨opened.device, []⟩
    rw [onLine_eq] at transmitted
    refine ⟨ends, fun sent returned => ?_⟩
    obtain ⟨rest, rest_eq, went⟩ := transmitted sent returned
    obtain rfl : sent.accesses = rest := rest_eq
    refine ⟨went.filterMap_written, fun _ _ _ _ split => went.read_before split, fun file => ?_⟩
    rw [RegisterFile.after_append, set_up, went.after (not_latched_after_setUp _ baud file),
      after_setUp]
    exact ⟨baud.divisor_of_halves, rfl⟩

theorem transmits_exactly_busy :
    ∃ (uart : Uart) (opened sent : Traced UartBank),
      (setUp .com1 .baud9600).run UartBank.bus.answer
        ⟨{ com1 := some { lineStatus := [0, 0x20, 0] } }, []⟩ = some (uart, opened) ∧
      uart.present = true ∧
      (["a\n", "b"].forM uart.sendText).run UartBank.bus.answer ⟨opened.device, []⟩ =
        some ((), sent) ∧
      sent.accesses.filterMap written? =
        [(0x3f8, 97), (0x3f8, 13), (0x3f8, 10), (0x3f8, 98)] := by
  obtain ⟨uart, opened, ran, sends⟩ := transmits_exactly UartBank.bus .com1 .baud9600 ["a\n", "b"]
    { com1 := some { lineStatus := [0, 0x20, 0] } }
  have found : (some (uart, opened)).map Prod.fst = some ⟨0x3f8, true⟩ := by
    rw [← ran]
    rfl
  have present : uart.present = true := congrArg present (Option.some.inj found)
  rw [if_pos present] at sends
  obtain ⟨ends, sent_spec⟩ := sends
  obtain ⟨⟨⟨⟩, sent⟩, returned⟩ := Option.isSome_iff_exists.mp (ends (UartBank.bus_settles .com1))
  refine ⟨uart, opened, sent, ran, present, returned, ?_⟩
  rw [(sent_spec sent returned).1]
  decide +kernel

end Uart

end EfiLoader.Serial
