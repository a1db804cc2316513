import EfiLoader.Proofs.Attempts
import EfiLoader.Uefi.BootServices

/-!
Calls to UEFI, part by part. `Call.result` is what a call ends with and what it leaves behind;
the lemmas named `of_result_` take a call that ended well apart. `Program.Asks` says that all
requests of a program are of one kind, whatever the replies, and `Asks.run_invariant` that it then
keeps what each of them keeps.
-/

namespace EfiLoader

namespace Program

variable {I J : Interface} {α β σ : Type} {P : I.Request → Prop}

/-- Whatever the replies are, `P` holds of all requests. -/
def Asks (P : I.Request → Prop) : Program I α → Prop
  | done _ => True
  | ask request next => P request ∧ ∀ reply, (next reply).Asks P

namespace Asks

theorem pure (value : α) : (pure value : Program I α).Asks P := True.intro

theorem request {r : I.Request} (asked : P r) : (Program.request r).Asks P :=
  ⟨asked, fun _ => True.intro⟩

theorem bind {program : Program I α} {f : α → Program I β} (first : program.Asks P)
    (rest : ∀ value, (f value).Asks P) : (program >>= f).Asks P := by
  change (program.bind f).Asks P
  induction program with
  | done value => exact rest value
  | ask request next ih => exact ⟨first.1, fun reply => ih reply (first.2 reply)⟩

theorem mono {Q : I.Request → Prop} {program : Program I α} (asks : program.Asks P)
    (wider : ∀ r, P r → Q r) : program.Asks Q := by
  induction program with
  | done value => exact True.intro
  | ask request next ih => exact ⟨wider _ asks.1, fun reply => ih reply (asks.2 reply)⟩

/-- A program in which every request is answered by such a program is one. -/
theorem run {answer : (r : J.Request) → Program I (J.Reply r)} (answers : ∀ r, (answer r).Asks P)
    (program : Program J α) : (program.run answer).Asks P := by
  induction program with
  | done value => exact True.intro
  | ask request next ih => exact (answers request).bind ih

/-- What every request keeps is kept by the whole. -/
theorem run_invariant {machine : Machine I σ} {Inv : σ → Prop} {program : Program I α}
    (asks : program.Asks P)
    (keeps : ∀ request state, P request → Inv state → Inv (machine request state).2) {state : σ}
    (start : Inv state) : Inv (program.run machine state).2 := by
  induction program generalizing state with
  | done value => exact start
  | ask request next ih => exact ih _ (asks.2 _) (keeps request state asks.1 start)

end Asks

end Program

namespace Uefi

variable {α β σ : Type} {P : Request → Prop}

/-- Whatever the replies and the loader's state are, `P` holds of all requests. -/
def Loader.Asks (P : Request → Prop) (part : Loader α) : Prop :=
  ∀ loader, (part.run loader).Asks P

namespace Loader.Asks

theorem pure (value : α) : Loader.Asks P (pure value) := fun _ => True.intro

theorem lift {program : Program Uefi α} (asks : program.Asks P) :
    Loader.Asks P (program : Loader α) := fun _ => asks.bind fun _ => .pure _

theorem bind {first : Loader α} {rest : α → Loader β} (asks : Loader.Asks P first)
    (asks_rest : ∀ value, Loader.Asks P (rest value)) : Loader.Asks P (first >>= rest) :=
  fun loader => (asks loader).bind fun (value, later) => asks_rest value later

theorem get_bind {rest : LoaderState → Loader β} (asks : ∀ state, Loader.Asks P (rest state)) :
    Loader.Asks P (get >>= rest) := fun loader => asks loader loader

end Loader.Asks

namespace Call

/-- Whatever the replies and the loader's state are, `P` holds of all requests. -/
def Asks (P : Request → Prop) (call : Call α) : Prop := Loader.Asks P call.run

namespace Asks

theorem pure (value : α) : Asks P (pure value) := fun _ => True.intro

theorem fail (status : Status) : (fail status : Call α).Asks P := fun _ => True.intro

theorem lift {program : Program Uefi α} (asks : program.Asks P) : Asks P (program : Call α) :=
  (Loader.Asks.lift asks).bind fun _ => .pure _

theorem bind {call : Call α} {f : α → Call β} (asks : call.Asks P)
    (asks_rest : ∀ value, (f value).Asks P) : (call >>= f : Call β).Asks P := by
  refine Loader.Asks.bind asks fun outcome => ?_
  cases outcome with
  | ok value => exact asks_rest value
  | error stop => exact .pure _

theorem mono {Q : Request → Prop} {call : Call α} (asks : call.Asks P) (wider : ∀ r, P r → Q r) :
    call.Asks Q := fun loader => (asks loader).mono wider

theorem ofReply {reply : Program Uefi (Except Status α)} (asks : reply.Asks P) :
    (ofReply reply).Asks P := by
  refine (lift asks).bind fun replied => ?_
  cases replied with
  | ok value => exact .pure value
  | error status => exact .fail status

end Asks

/-- What a call ends with on a machine, and the states of the loader and the machine then. -/
def result (call : Call α) (machine : Machine Uefi σ) (start : LoaderState × σ) :
    Outcome Status α × LoaderState × σ :=
  let ((outcome, loader), state) := (call.run.run start.1).run machine start.2
  (outcome, loader, state)

variable {machine : Machine Uefi σ} {start later : LoaderState × σ}

theorem result_bind (call : Call α) (f : α → Call β) :
    (call >>= f : Call β).result machine start =
      match call.result machine start with
      | (.ok value, later) => (f value).result machine later
      | (.error stop, later) => (.error stop, later) := by
  unfold result
  rw [ExceptT.run_bind, StateT.run_bind, Program.run_bind_state]
  obtain ⟨⟨_ | _, _⟩, _⟩ := Program.run machine (call.run.run start.1) start.2 <;> rfl

theorem of_result_bind_ok {call : Call α} {f : α → Call β} {value : β}
    (ended : (call >>= f : Call β).result machine start = (.ok value, later)) :
    ∃ first middle, call.result machine start = (.ok first, middle) ∧
      (f first).result machine middle = (.ok value, later) := by
  rw [result_bind] at ended
  rcases came : call.result machine start with ⟨_ | first, middle⟩
  · rw [came] at ended
    cases ended
  · rw [came] at ended
    exact ⟨first, middle, rfl, ended⟩

theorem result_lift (program : Program Uefi α) :
    (liftM program : Call α).result machine start =
      (.ok (program.run machine start.2).1, start.1, (program.run machine start.2).2) := by
  have lifted : (liftM program : Call α).run.run start.1 =
      (program >>= fun value => Pure.pure (value, start.1)) >>= fun (value, loader) =>
        Pure.pure (.ok value, loader) := rfl
  rw [result, lifted, Program.run_bind_state, Program.run_bind_state]
  rfl

theorem result_ofReply (reply : Program Uefi (Except Status α)) :
    (ofReply reply).result machine start =
      ((reply.run machine start.2).1.mapError .failed, start.1, (reply.run machine start.2).2) := by
  unfold ofReply
  rw [result_bind, result_lift]
  obtain ⟨_ | _, _⟩ := reply.run machine start.2 <;> rfl

theorem of_result_ofReply_ok {reply : Program Uefi (Except Status α)} {value : α}
    (ended : (ofReply reply).result machine start = (.ok value, later)) :
    reply.run machine start.2 = (.ok value, later.2) := by
  rw [result_ofReply] at ended
  rcases replied : reply.run machine start.2 with ⟨_ | _, _⟩
  all_goals
    rw [replied] at ended
    cases ended
  rfl

theorem result_settle (call : Call α) :
    call.settle.result machine start =
      ((call.result machine start).1.settled, (call.result machine start).2) := by
  unfold result
  rw [settle, ExceptT.run_mk, StateT.run_bind, Program.run_bind_state]
  obtain ⟨⟨(_ | _) | _, _⟩, _⟩ := Program.run machine (call.run.run start.1) start.2 <;> rfl

/-- What each of its requests keeps is kept by a call, however it ends. -/
theorem invariant (Inv : σ → Prop) {call : Call α} {outcome : Outcome Status α}
    (asks : call.Asks P)
    (keeps : ∀ request state, P request → Inv state → Inv (machine request state).2)
    (ended : call.result machine start = (outcome, later)) (begins : Inv start.2) :
    Inv later.2 := by
  have kept := (asks start.1).run_invariant keeps begins
  have last : (Program.run machine (call.run.run start.1) start.2).2 = later.2 :=
    congrArg (·.2.2) ended
  rwa [last] at kept

end Call

namespace Console

/-- Looking for a console, opening it and printing to it. -/
def Prints : Request → Prop
  | .locateConsole | .openConsole | .printConsole _ => True
  | _ => False

theorem openFirst_asks : openFirst.Asks Prints := by
  refine .bind (.request True.intro) fun located => ?_
  rcases located with _ | _ | _
  · exact .pure _
  · exact .pure _
  · refine .bind (.request True.intro) fun opened => ?_
    cases opened <;> exact .pure _

theorem printChunks_asks (chunks : List (List Char)) : (printChunks chunks).Asks Prints := by
  induction chunks with
  | nil => exact .pure _
  | cons chunk rest ih =>
    rw [printChunks]
    split
    · exact .pure _
    · refine .bind (.request True.intro) fun printed => ?_
      cases printed with
      | error status => exact .pure _
      | ok _ => exact ih

theorem printPieces_asks (pieces : List String) : (printPieces pieces).Asks Prints := by
  induction pieces with
  | nil => exact .pure _
  | cons piece rest ih =>
    refine .bind ((printChunks_asks _).bind fun _ => .pure _) fun taken => ?_
    cases taken with
    | false => exact .pure _
    | true => exact ih

end Console

/-- What a log asks for: a console, or registers of a serial line. -/
def Logs (request : Request) : Prop :=
  Console.Prints request ∨ ∃ access, request = .register access

theorem onRegisters_asks (program : Program Registers α) : (onRegisters program).Asks Logs := by
  have registers (access : Serial.RegisterRequest) : (ask (.register access)).Asks Logs :=
    .request (Or.inr ⟨access, rfl⟩)
  exact Program.Asks.run registers program

namespace Logger

theorem printParts_asks (parts : List (List String)) : (printParts parts).Asks Logs := by
  induction parts with
  | nil => exact .pure _
  | cons part rest ih =>
    exact ((Console.printPieces_asks part).mono fun _ => .inl).bind fun _ => ih

theorem emit_asks (logger : Logger) (record : Log.Record) : (logger.emit record).Asks Logs := by
  unfold emit
  generalize record.parts logger.sourcePath = parts
  split
  · exact .pure _
  · refine .get_bind fun state => ?_
    split
    · refine (Loader.Asks.lift (Console.openFirst_asks.mono fun _ => .inl)).bind fun found => ?_
      split
      · exact .lift (printParts_asks parts)
      · exact .pure _
    · exact .pure _
  · exact .lift (onRegisters_asks _)

end Logger

/-- A record goes to the console or to a serial line. -/
theorem log_asks (record : Log.Record) : (log record).Asks Logs := by
  refine .get_bind fun state => ?_
  split
  · exact .pure _
  · cases state.cell with
    | made logger => exact (logger.emit_asks record).bind fun _ => .pure _
    | empty | poisoned => exact .pure _

end Uefi

end EfiLoader
