import EfiLoader.Proofs.History
import EfiLoader.Testbed.Uart
import Mathlib.Data.Nat.Find
import Mathlib.Logic.Function.Iterate

/-!
Buses: what single accesses to registers do on a machine, and the trace that they leave. A request
to wait for a line is served by reads of the line status up to the first one that says ready, which
need not come: `poll_busy` and `poll_ready` are the two turns of that loop. `poll_accesses`: a loop
that ends leaves its reads in the trace, the last of them alone ready; `poll_ends`: it ends where
the line becomes ready after finitely many reads.
-/

namespace EfiLoader.Serial

open Testbed (RegisterAccess)

/-- What accesses to registers do on a machine with a state. -/
structure Bus (σ : Type) where
  write : UInt16 → UInt8 → σ → σ
  read : UInt16 → σ → UInt8 × σ

/-- The state of a machine, and the accesses so far in their order. -/
structure Traced (σ : Type) where
  device : σ
  accesses : List RegisterAccess

/-- Polls with one more before them. -/
def Polls.afterBusy (polls : Polls) {value : UInt8} (busy : value &&& transmitterReady = 0) :
    Polls :=
  ⟨value :: polls.busy, polls.ready, List.forall_mem_cons.mpr ⟨busy, polls.busy_clear⟩,
    polls.ready_set⟩

namespace Bus

variable {σ : Type} (bus : Bus σ)

def tracedWrite (address : UInt16) (value : UInt8) (traced : Traced σ) : Traced σ :=
  ⟨bus.write address value traced.device, traced.accesses ++ [.wrote address value]⟩

def tracedRead (address : UInt16) (traced : Traced σ) : UInt8 × Traced σ :=
  let (value, device) := bus.read address traced.device
  (value, ⟨device, traced.accesses ++ [.read address value]⟩)

@[simp] theorem tracedWrite_accesses (address : UInt16) (value : UInt8) (traced : Traced σ) :
    (bus.tracedWrite address value traced).accesses = traced.accesses ++ [.wrote address value] :=
  rfl

@[simp] theorem tracedRead_accesses (address : UInt16) (traced : Traced σ) :
    (bus.tracedRead address traced).2.accesses =
      traced.accesses ++ [.read address (bus.tracedRead address traced).1] := rfl

section
variable (base : UInt16)

/-- The machine after `count` reads of the line status at `base`. -/
def afterReads (count : Nat) : Traced σ → Traced σ :=
  (fun traced => (bus.tracedRead (base + lineStatus) traced).2)^[count]

/-- What the line status at `base` reads as after `count` reads of it. -/
def statusAfter (count : Nat) (traced : Traced σ) : UInt8 :=
  (bus.tracedRead (base + lineStatus) (bus.afterReads base count traced)).1

/-- The read of the line status at `base` that comes after `count` others says ready. -/
def ReadyAfter (traced : Traced σ) (count : Nat) : Prop :=
  bus.statusAfter base count traced &&& transmitterReady ≠ 0

/-- From each state on, the line at `base` becomes ready after finitely many reads of its status. -/
def Settles : Prop := ∀ traced, ∃ count, bus.ReadyAfter base traced count

instance (traced : Traced σ) : DecidablePred (bus.ReadyAfter base traced) :=
  fun _ => inferInstanceAs (Decidable (_ ≠ _))

/-- The reads of the line status at `base` up to the first one that says ready. -/
def pollsOf {traced : Traced σ} (settles : ∃ count, bus.ReadyAfter base traced count) : Polls where
  busy := (List.range (Nat.find settles)).map fun count => bus.statusAfter base count traced
  ready := bus.statusAfter base (Nat.find settles) traced
  busy_clear := by
    intro value read
    obtain ⟨count, earlier, rfl⟩ := List.mem_map.mp read
    exact of_not_not (Nat.find_min settles (List.mem_range.mp earlier))
  ready_set := Nat.find_spec settles

open Classical in
/-- Reads the line status of the device at `base` until it says ready; nothing if it never does. -/
noncomputable def poll (traced : Traced σ) : Option (Polls × Traced σ) :=
  if settles : ∃ count, bus.ReadyAfter base traced count then
    some (bus.pollsOf base settles, bus.afterReads base (Nat.find settles + 1) traced)
  else none

variable {base} {traced : Traced σ}

/-- A line that is ready is read once. -/
theorem poll_ready
    (ready : (bus.tracedRead (base + lineStatus) traced).1 &&& transmitterReady ≠ 0) :
    bus.poll base traced =
      some (⟨[], (bus.tracedRead (base + lineStatus) traced).1, nofun, ready⟩,
        (bus.tracedRead (base + lineStatus) traced).2) := by
  have settles : ∃ count, bus.ReadyAfter base traced count := ⟨0, ready⟩
  have first : Nat.find settles = 0 := (Nat.find_eq_zero settles).mpr ready
  simp only [poll, dif_pos settles, pollsOf, first]
  rfl

/-- A line that is busy is read once more than from then on. -/
theorem poll_busy
    (busy : (bus.tracedRead (base + lineStatus) traced).1 &&& transmitterReady = 0) :
    bus.poll base traced =
      (bus.poll base (bus.tracedRead (base + lineStatus) traced).2).map fun polled =>
        (polled.1.afterBusy busy, polled.2) := by
  let next := (bus.tracedRead (base + lineStatus) traced).2
  change bus.poll base traced = (bus.poll base next).map _
  have waits : ¬ bus.ReadyAfter base traced 0 := not_not.mpr busy
  have shifted (count : Nat) :
      bus.ReadyAfter base traced (count + 1) ↔ bus.ReadyAfter base next count := Iff.rfl
  by_cases later : ∃ count, bus.ReadyAfter base next count
  · have settles : ∃ count, bus.ReadyAfter base traced count := by
      obtain ⟨count, ready⟩ := later
      exact ⟨count + 1, (shifted count).mpr ready⟩
    have one_more : Nat.find settles = Nat.find later + 1 := Nat.find_comp_succ settles later waits
    simp only [poll, dif_pos settles, dif_pos later, pollsOf, one_more, List.range_succ_eq_map,
      List.map_cons, List.map_map]
    rfl
  · have never : ¬ ∃ count, bus.ReadyAfter base traced count := by
      rintro ⟨_ | count, ready⟩
      · exact waits ready
      · exact later ⟨count, ready⟩
    simp only [poll, dif_neg never, dif_neg later]
    rfl

end

/-- The bus as what answers a driver. -/
noncomputable def answer :
    (request : RegisterRequest) → StateT (Traced σ) Option (RegisterReply request)
  | .write address value => fun traced => some ((), bus.tracedWrite address value traced)
  | .read address => fun traced => some (bus.tracedRead address traced)
  | .await base => fun traced => bus.poll base traced

section
variable {α : Type} (traced : Traced σ)

@[simp] theorem run_pure (value : α) :
    (pure value : Program Registers α).run bus.answer traced = some (value, traced) := rfl

@[simp] theorem run_write (address : UInt16) (value : UInt8) (next : Unit → Program Registers α) :
    (Registers.write address value >>= next).run bus.answer traced =
      (next ()).run bus.answer (bus.tracedWrite address value traced) := rfl

@[simp] theorem run_read (address : UInt16) (next : UInt8 → Program Registers α) :
    (Registers.read address >>= next).run bus.answer traced =
      (next (bus.tracedRead address traced).1).run bus.answer (bus.tracedRead address traced).2 :=
  rfl

theorem run_await (base : UInt16) (next : Polls → Program Registers α) :
    (Registers.await base >>= next).run bus.answer traced =
      (bus.poll base traced).bind fun polled => (next polled.1).run bus.answer polled.2 := rfl

end

/-- The reads of a poll that ended. -/
def pollAccesses (base : UInt16) (polls : Polls) : List RegisterAccess :=
  polls.busy.map (.read (base + lineStatus)) ++ [.read (base + lineStatus) polls.ready]

theorem afterReads_succ (base : UInt16) (count : Nat) (traced : Traced σ) :
    bus.afterReads base (count + 1) traced =
      (bus.tracedRead (base + lineStatus) (bus.afterReads base count traced)).2 :=
  Function.iterate_succ_apply' _ count traced

theorem afterReads_accesses (base : UInt16) (count : Nat) (traced : Traced σ) :
    (bus.afterReads base count traced).accesses =
      traced.accesses ++ (List.range count).map fun earlier =>
        .read (base + lineStatus) (bus.statusAfter base earlier traced) := by
  induction count with
  | zero => simp [afterReads]
  | succ count ih =>
    rw [afterReads_succ, tracedRead_accesses, ih, List.range_succ, List.map_append,
      List.append_assoc]
    rfl

theorem poll_accesses {base : UInt16} {traced later : Traced σ} {polls : Polls}
    (ended : bus.poll base traced = some (polls, later)) :
    later.accesses = traced.accesses ++ pollAccesses base polls := by
  unfold poll at ended
  split at ended
  case isTrue settles =>
    obtain ⟨rfl, rfl⟩ := Prod.mk.inj (Option.some.inj ended)
    rw [afterReads_accesses, List.range_succ, List.map_append, pollAccesses, pollsOf, List.map_map]
    rfl
  case isFalse => cases ended

theorem poll_ends {base : UInt16} (settles : bus.Settles base) (traced : Traced σ) :
    (bus.poll base traced).isSome := by
  rw [poll, dif_pos (settles traced)]
  rfl

end Bus

end EfiLoader.Serial

namespace EfiLoader.Testbed.UartBank

open Serial (Bus Com lineStatus transmitterReady)

/-- The simulated devices, one access at a time. -/
def bus : Bus UartBank where
  write address value bank := ((UartBank.write address value).run bank).2
  read address bank := bank.readValue address

theorem register?_lineStatus (bank : UartBank) (com : Com) :
    bank.register? (com.base + lineStatus) =
      (bank.device? com).map fun device => (com, device, lineStatus) := by
  cases com <;> simp [register?, Com.base, lineStatus]

theorem readValue_lineStatus {bank : UartBank} {com : Com} {device : UartDevice}
    (found : bank.device? com = some device) :
    bank.readValue (com.base + lineStatus) =
      match device.lineStatus with
      | [] => (idleStatus, bank)
      | value :: rest => (value, bank.setDevice com { device with lineStatus := rest }) := by
  rw [readValue, register?_lineStatus, found]
  rfl

theorem device?_setDevice (bank : UartBank) (com : Com) (device : UartDevice) :
    (bank.setDevice com device).device? com = some device := by
  cases com <;> rfl

/-- A simulated line is busy as long as it has values left that say so. -/
theorem bus_settles (com : Com) : bus.Settles com.base := by
  have floats : floating &&& transmitterReady ≠ 0 := by decide
  have idles : idleStatus &&& transmitterReady ≠ 0 := by decide
  rintro ⟨bank, accesses⟩
  cases found : bank.device? com with
  | none =>
    refine ⟨0, ?_⟩
    change (bank.readValue (com.base + lineStatus)).1 &&& transmitterReady ≠ 0
    rw [readValue, register?_lineStatus, found]
    exact floats
  | some device =>
    induction values : device.lineStatus generalizing bank device accesses with
    | nil =>
      refine ⟨0, ?_⟩
      change (bank.readValue (com.base + lineStatus)).1 &&& transmitterReady ≠ 0
      rw [readValue_lineStatus found, values]
      exact idles
    | cons value rest ih =>
      have next : (bank.readValue (com.base + lineStatus)).2 =
          bank.setDevice com { device with lineStatus := rest } := by
        rw [readValue_lineStatus found, values]
      obtain ⟨count, ready⟩ :=
        ih _ (accesses ++ [.read (com.base + lineStatus) _]) { device with lineStatus := rest }
          (bank.device?_setDevice com _) rfl
      rw [← next] at ready
      exact ⟨count + 1, ready⟩

end EfiLoader.Testbed.UartBank
