/-!
Programs that ask their surroundings: a program is a value, or a request together with what to do
after each possible reply. What answers the requests is left open: `run` takes any answering
machine, and a statement about every machine is a statement about every reply. Main statement:
running respects sequencing.
-/

namespace EfiLoader

/-- Requests, and for each the type of its replies. -/
structure Interface where
  Request : Type
  Reply : Request → Type

inductive Program (I : Interface) (α : Type) where
  | done (value : α)
  | ask (request : I.Request) (next : I.Reply request → Program I α)

namespace Program

variable {I : Interface} {α β : Type}

def bind (program : Program I α) (f : α → Program I β) : Program I β :=
  match program with
  | done value => f value
  | ask request next => ask request fun reply => (next reply).bind f

instance : Monad (Program I) where
  pure := done
  bind := bind

/-- One request. -/
def request (r : I.Request) : Program I (I.Reply r) := ask r done

/-- The run of a program whose requests `answer` answers. -/
def run {m : Type → Type} [Monad m] (answer : (r : I.Request) → m (I.Reply r)) :
    Program I α → m α
  | done value => pure value
  | ask request next => do run answer (next (← answer request))

@[simp] theorem bind_done (program : Program I α) : program.bind done = program := by
  induction program with
  | done _ => rfl
  | ask request next ih => simp only [bind, ih]

theorem bind_assoc {γ : Type} (program : Program I α) (f : α → Program I β)
    (g : β → Program I γ) : (program.bind f).bind g = program.bind fun a => (f a).bind g := by
  induction program with
  | done _ => rfl
  | ask request next ih => simp only [bind, ih]

instance : LawfulMonad (Program I) :=
  LawfulMonad.mk' _ bind_done (fun _ _ => rfl) bind_assoc

theorem run_bind {m : Type → Type} [Monad m] [LawfulMonad m]
    (answer : (r : I.Request) → m (I.Reply r)) (program : Program I α) (f : α → Program I β) :
    (program >>= f).run answer = program.run answer >>= fun a => (f a).run answer := by
  change (program.bind f).run answer = _
  induction program with
  | done value => simp [bind, run]
  | ask request next ih => simp [bind, run, ih]

end Program

end EfiLoader
