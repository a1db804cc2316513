import EfiLoader.Proofs.Boot.Exit
import EfiLoader.Proofs.MemoryMap.Lifetime

/-!
What is said between the loader and the firmware at the exit from the boot services. `Handshake`
lists it: a key that is refused is asked for anew once, and what is tried then is the key of that
very answer. Main statement: nothing else is ever said, and firmware that refuses only keys that
are out of date lets the loader go (`exit_handshake`).
-/

namespace EfiLoader

/-- The key that is handed over, if this is a call for the exit. -/
def Exchange.exitKey? (e : Exchange Services) : Option UInt64 :=
  match e.request with
  | .exitBootServices key => some key
  | _ => none

theorem Outcome.explain_eq_ok_iff {ε ε' : Type} {outcome : Outcome ε Unit} {f : ε → ε'} :
    outcome.explain f = .ok () ↔ outcome = .ok () := by
  cases outcome with
  | ok => exact ⟨fun _ => rfl, fun _ => rfl⟩
  | error stop => exact ⟨nofun, nofun⟩

namespace Boot

open Services (MapReply MapReport)
open MemoryMap (Buffer Call Flaw Kept Retaking Sound)

variable {h : List (Exchange Services)} {σ : Type}

/-- The calls of an exit with a map and what it comes to. No reply about the map is both sound and
flawed, so the replies settle which of these it is. -/
inductive Handshake (map : MemoryMap) : List (Exchange Services) → Outcome Cause Unit → Prop
  | settled (first : Outcome Status Unit) (other : first ≠ .fail .invalidParameter) :
      Handshake map [⟨.exitBootServices map.report.key, first⟩] (first.explain .exitBootServices)
  | notRetaken (reply : MapReply) (cause : Cause)
      (flaw : Flaw map.buffer reply.outcome cause) :
      Handshake map
        [⟨.exitBootServices map.report.key, .fail .invalidParameter⟩,
          ⟨.memoryMap map.buffer.bytes, reply⟩]
        (.fail cause)
  | retried (reply : MapReply) (report : MapReport) (last : Outcome Status Unit)
      (reported : reply.outcome = .ok report)
      (sound : Sound map.buffer.bytes.length report) :
      Handshake map
        [⟨.exitBootServices map.report.key, .fail .invalidParameter⟩,
          ⟨.memoryMap map.buffer.bytes, reply⟩, ⟨.exitBootServices report.key, last⟩]
        (last.explain .exitBootServices)

theorem Leaving.handshake {map later : MemoryMap} {o : Outcome Cause Unit}
    (left : Leaving map h (later, o)) (room : map.buffer.bytes ≠ []) (returned : o ≠ .crash) :
    Handshake map h o := by
  cases left with
  | exited => exact .settled (.ok ()) nofun
  | crashed => exact absurd rfl returned
  | refused status other =>
    apply Handshake.settled (.fail status)
    intro refused
    cases refused
    exact other rfl
  | @notRetaken _ _ stop retaken =>
    cases stop with
    | crashed => exact absurd rfl returned
    | failed cause =>
      obtain ⟨reply, rfl, flaw⟩ := retaken.flaw room
      exact .notRetaken reply cause flaw
  | again last retaken =>
    obtain ⟨reply, report, rfl, rfl, reported, _, sound⟩ := retaken.sound
    exact .retried reply report last reported sound

/-- The exit succeeds exactly if its last call is one for the exit that did. -/
theorem Handshake.ok_iff {map : MemoryMap} {o : Outcome Cause Unit} (shaken : Handshake map h o) :
    o = .ok () ↔ ∃ e, h.getLast? = some e ∧ e.exits = true ∧ e.Succeeded := by
  cases shaken with
  | settled first | retried _ _ last =>
    rw [Outcome.explain_eq_ok_iff]
    constructor
    · intro exited
      exact ⟨_, rfl, rfl, exited⟩
    · rintro ⟨e, same, _, exited⟩
      cases same
      exact exited
  | notRetaken reply cause =>
    refine ⟨nofun, ?_⟩
    rintro ⟨e, same, exits, _⟩
    cases same
    exact absurd exits Bool.false_ne_true

/-- Firmware that refuses a key only if it is not the current one, that keeps its key through calls
for the map and for the exit, and whose map fits into that many bytes. -/
structure KeepsKey (machine : Machine Services σ) (current : σ → UInt64) (length : Nat) :
    Prop where
  exits : ∀ (key : UInt64) (state : σ), (machine (.exitBootServices key) state).1 =
    if key = current state then .ok () else .fail .invalidParameter
  exitKeeps : ∀ (key : UInt64) (state : σ),
    current (machine (.exitBootServices key) state).2 = current state
  reports : ∀ (bytes : Bytes) (state : σ), bytes.length = length →
    ∃ report : MapReport, (machine (.memoryMap bytes) state).1.outcome = .ok report ∧
      report.key = current state ∧ Sound length report
  mapKeeps : ∀ (bytes : Bytes) (state : σ),
    current (machine (.memoryMap bytes) state).2 = current state

section KeepsKey

variable {machine : Machine Services σ} {current : σ → UInt64} {map later : MemoryMap}
  {o : Outcome Cause Unit} {state : σ}

theorem KeepsKey.answer {length : Nat} (keeps : KeepsKey machine current length)
    (key : UInt64) (state : σ) :
    ((machine (.exitBootServices key) state).1 = .ok () ∧ key = current state) ∨
      ((machine (.exitBootServices key) state).1 = .fail .invalidParameter ∧
        key ≠ current state) := by
  rw [keeps.exits]
  by_cases same : key = current state
  · rw [if_pos same]
    exact .inl ⟨rfl, same⟩
  · rw [if_neg same]
    exact .inr ⟨rfl, same⟩

/-- Such firmware has its map accepted, with the key that is current. -/
theorem KeepsKey.retakes (keeps : KeepsKey machine current map.buffer.bytes.length)
    (room : map.buffer.bytes ≠ []) (aligned : map.buffer.IsAligned)
    (retaken : Retaking map h (later, o)) {rest : List (Exchange Services)}
    (served : Program.Served machine state (h ++ rest)) :
    o = .ok () ∧ later.report.key = current state ∧ h.filterMap Exchange.exitKey? = [] ∧
      ∃ after, current after = current state ∧ Program.Served machine after rest := by
  obtain ⟨reply, rfl, _⟩ := retaken.takesUp aligned room
  obtain ⟨same, onward⟩ := served
  obtain ⟨report, reported, isCurrent, sound⟩ := keeps.reports map.buffer.bytes state rfl
  rw [← same] at reported
  obtain ⟨accepted, taken⟩ := retaken.of_sound aligned rfl reported sound
  rw [taken]
  exact ⟨accepted, isCurrent, rfl, _, keeps.mapKeeps _ _, onward⟩

/-- **Firmware that refuses only keys that are out of date lets the loader go**, at once or at the
second try. -/
theorem Leaving.lets_go (left : Leaving map h (later, o))
    (keeps : KeepsKey machine current map.buffer.bytes.length)
    (room : map.buffer.bytes ≠ []) (aligned : map.buffer.IsAligned)
    (served : Program.Served machine state h) :
    o = .ok () ∧ h.filterMap Exchange.exitKey? =
      if map.report.key = current state then [map.report.key]
      else [map.report.key, current state] := by
  cases left with
  | exited =>
    obtain ⟨same, _⟩ := served
    rcases keeps.answer map.report.key state with ⟨_, isCurrent⟩ | ⟨answered, _⟩
    · rw [if_pos isCurrent]
      exact ⟨rfl, rfl⟩
    · cases same.trans answered
  | crashed =>
    obtain ⟨same, _⟩ := served
    rcases keeps.answer map.report.key state with ⟨answered, _⟩ | ⟨answered, _⟩
    all_goals cases same.trans answered
  | refused status other =>
    obtain ⟨same, _⟩ := served
    rcases keeps.answer map.report.key state with ⟨answered, _⟩ | ⟨answered, _⟩
    · cases same.trans answered
    · cases same.trans answered
      exact absurd rfl other
  | @notRetaken retaking _ _ retaken =>
    obtain ⟨_, onward⟩ := served
    rw [← List.append_nil retaking] at onward
    obtain ⟨accepted, _⟩ := keeps.retakes room aligned retaken onward
    cases accepted
  | @again retaking later last retaken =>
    obtain ⟨same, onward⟩ := served
    obtain ⟨_, isCurrent, quiet, after, kept, exiting⟩ :=
      keeps.retakes room aligned retaken onward
    rw [keeps.exitKeeps] at isCurrent kept
    have stale : map.report.key ≠ current state := by
      rcases keeps.answer map.report.key state with ⟨answered, _⟩ | ⟨_, stale⟩
      · cases same.trans answered
      · exact stale
    have exited : last = .ok () := by
      rcases keeps.answer later.report.key after with ⟨answered, _⟩ | ⟨_, other⟩
      · exact exiting.1.trans answered
      · exact absurd (isCurrent.trans kept.symm) other
    have tried : (⟨.exitBootServices map.report.key, .fail .invalidParameter⟩ :: (retaking ++
          [⟨.exitBootServices later.report.key, last⟩])).filterMap Exchange.exitKey? =
        [map.report.key, later.report.key] := by
      simp [Exchange.exitKey?, quiet]
    rw [if_neg stale, tried, isCurrent, exited]
    exact ⟨rfl, rfl⟩

end KeepsKey

/-- **Nothing is said at the exit but this**: the key of the map is tried; if it is refused as out
of date, and only then, the map is asked for once; if that answer is accepted, and only then, its
own key is tried. The exit succeeds exactly if its last call does, and a failure is that of this
call or of the answer about the map. Firmware that refuses only keys that are out of date lets the
loader go, at once with a current key and at the second try with an old one. -/
theorem exit_handshake (machine : Machine Services σ) (state : σ) {buffer : Buffer}
    {calls : List Call} {map : MemoryMap} (kept : Kept buffer calls map) :
    let history := (leave map).history machine state
    let outcome := ((leave map).run machine state).1.2
    (outcome ≠ .crash → Handshake map history outcome ∧
      (outcome = .ok () ↔ ∃ e, history.getLast? = some e ∧ e.exits = true ∧ e.Succeeded)) ∧
    ∀ current, KeepsKey machine current map.buffer.bytes.length →
      outcome = .ok () ∧ history.filterMap Exchange.exitKey? =
        if map.report.key = current state then [map.report.key]
        else [map.report.key, current state] := by
  intro history outcome
  have left : Leaving map history ((leave map).run machine state).1 :=
    leaving_of_yields (Program.yields_run machine _ state)
  have served : Program.Served machine state history := Program.served_history machine _ state
  constructor
  · intro returned
    have shaken := left.handshake kept.room returned
    exact ⟨shaken, shaken.ok_iff⟩
  · intro current keeps
    exact left.lets_go keeps kept.room kept.described.1 served

/-- Firmware that always has the same key and the same map. -/
def keyed : Machine Services Unit := fun request => pure <|
  match request with
  | .exitBootServices key => if key = 9 then .ok () else .fail .invalidParameter
  | request => (Firmware.serve { report := ⟨96, 9, 48, 1⟩ } request ()).1

theorem keyed_keepsKey : KeepsKey keyed (fun _ => 9) 96 where
  exits _ _ := rfl
  exitKeeps _ _ := rfl
  reports _ _ _ := ⟨⟨96, 9, 48, 1⟩, rfl, rfl, by decide, by decide, by decide⟩
  mapKeeps _ _ := rfl

theorem exit_handshake_stale :
    let buffer : Buffer := ⟨0x2000, List.replicate 96 0⟩
    let first : MapReply := ⟨List.replicate 96 1, .ok MemoryMap.spaced⟩
    let map : MemoryMap := ⟨buffer.fill first, MemoryMap.spaced⟩
    let history := (leave map).history keyed ()
    Kept buffer [⟨[⟨.memoryMap buffer.bytes, first⟩], .ok ()⟩] map ∧
      KeepsKey keyed (fun _ => 9) map.buffer.bytes.length ∧ Handshake map history (.ok ()) ∧
      history.filterMap Exchange.exitKey? = [7, 9] := by
  intro buffer first map history
  have accepted : MemoryMap.accept (buffer.fill first) (.ok MemoryMap.spaced) =
      .ok MemoryMap.spaced := by decide +kernel
  have took : Retaking (MemoryMap.blank buffer) [⟨.memoryMap buffer.bytes, first⟩] (map, .ok ()) :=
    .taken first MemoryMap.spaced (by decide) accepted
  have kept := Kept.taken took.yields
  have length : map.buffer.bytes.length = 96 :=
    (MemoryMap.Buffer.length_fill buffer first).trans List.length_replicate
  have keeps : KeepsKey keyed (fun _ => 9) map.buffer.bytes.length := length ▸ keyed_keepsKey
  obtain ⟨shakes, letsGo⟩ := exit_handshake keyed () kept
  obtain ⟨exited, tried⟩ := letsGo _ keeps
  have returned : ((leave map).run keyed ()).1.2 ≠ .crash := by
    rw [exited]
    exact nofun
  have shaken := (shakes returned).1
  rw [exited] at shaken
  exact ⟨kept, keeps, shaken, tried⟩

end Boot

end EfiLoader
