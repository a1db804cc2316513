import EfiLoader.Program

/-!
Histories: the requests of a run in order, each with the reply that it got. `Yields` gives all
histories that a program can have, whatever answers it; `yields_run` finds the run on a given
machine among them. Main statement: a history of two programs in sequence is one of the first
followed by one of the second.
-/

namespace EfiLoader

/-- A request with the reply that it got. -/
structure Exchange (I : Interface) where
  request : I.Request
  reply : I.Reply request

/-- What answers requests from a state of its own. -/
abbrev Machine (I : Interface) (σ : Type) := (request : I.Request) → StateM σ (I.Reply request)

namespace Program

variable {I : Interface} {α β σ : Type}

/-- The exchanges of a run that starts in `state`. -/
def history (machine : Machine I σ) : Program I α → σ → List (Exchange I)
  | done _, _ => []
  | ask request next, state =>
    let (reply, state) := machine request state
    ⟨request, reply⟩ :: history machine (next reply) state

theorem run_bind_state {machine : Machine I σ} (program : Program I α) (f : α → Program I β)
    (state : σ) :
    (program >>= f).run machine state =
      (f (program.run machine state).1).run machine (program.run machine state).2 := by
  rw [run_bind]
  rfl

theorem history_bind {machine : Machine I σ} (program : Program I α) (f : α → Program I β)
    (state : σ) :
    (program >>= f).history machine state =
      program.history machine state ++
        (f (program.run machine state).1).history machine (program.run machine state).2 := by
  change (program.bind f).history machine state = _
  induction program generalizing state with
  | done value => rfl
  | ask request next ih => exact congrArg (_ :: ·) (ih _ _)

/-- With the replies of a history the program makes its requests and ends with a value. -/
inductive Yields : Program I α → List (Exchange I) → α → Prop
  | done (value : α) : Yields (done value) [] value
  | ask {request : I.Request} {next : I.Reply request → Program I α} {reply : I.Reply request}
      {history : List (Exchange I)} {value : α} :
      Yields (next reply) history value →
      Yields (ask request next) (⟨request, reply⟩ :: history) value

/-- Every run on a machine, which always comes to an end, is one of the program's histories. -/
theorem yields_run (machine : Machine I σ) (program : Program I α) (state : σ) :
    program.Yields (program.history machine state) (program.run machine state).1 := by
  induction program generalizing state with
  | done value => exact .done value
  | ask request next ih => exact .ask (ih _ _)

/-- What holds of all replies of a machine holds of all exchanges of a run on it. -/
theorem forall_mem_history {P : Exchange I → Prop} {machine : Machine I σ}
    (replies : ∀ request state, P ⟨request, (machine request state).1⟩)
    (program : Program I α) (state : σ) : ∀ e ∈ program.history machine state, P e := by
  induction program generalizing state with
  | done value => intro e he; cases he
  | ask request next ih =>
    intro e he
    rcases List.mem_cons.mp he with rfl | he
    · exact replies request state
    · exact ih _ _ e he

/-- The replies of a history are those of a machine that starts in `state`. -/
def Served (machine : Machine I σ) : σ → List (Exchange I) → Prop
  | _, [] => True
  | state, e :: rest =>
    e.reply = (machine e.request state).1 ∧ Served machine (machine e.request state).2 rest

theorem served_history (machine : Machine I σ) (program : Program I α) (state : σ) :
    Served machine state (program.history machine state) := by
  induction program generalizing state with
  | done value => exact True.intro
  | ask request next ih => exact ⟨rfl, ih _ _⟩

/-- At any of its exchanges a run is in some state, and the rest of it is a run from there. -/
theorem exists_of_history_eq {machine : Machine I σ} {program : Program I α} {state : σ}
    {earlier later : List (Exchange I)} {e : Exchange I}
    (split : program.history machine state = earlier ++ e :: later) :
    ∃ (here : σ) (rest : Program I α), e.reply = (machine e.request here).1 ∧
      rest.history machine (machine e.request here).2 = later ∧
      rest.run machine (machine e.request here).2 = program.run machine state := by
  induction earlier generalizing program state with
  | nil =>
    cases program with
    | done value => cases split
    | ask request next =>
      obtain ⟨rfl, rfl⟩ := List.cons.inj split
      exact ⟨state, next (machine request state).1, rfl, rfl, rfl⟩
  | cons first earlier ih =>
    cases program with
    | done value => cases split
    | ask request next =>
      have found := ih (List.cons.inj split).2
      exact found

@[simp] theorem yields_pure {value : α} {h : List (Exchange I)} {result : α} :
    Yields (pure value : Program I α) h result ↔ h = [] ∧ result = value := by
  constructor
  · intro yields
    cases yields
    exact ⟨rfl, rfl⟩
  · rintro ⟨rfl, rfl⟩
    exact .done _

@[simp] theorem yields_request {request : I.Request} {h : List (Exchange I)}
    {reply : I.Reply request} :
    (Program.request request).Yields h reply ↔ h = [⟨request, reply⟩] := by
  constructor
  · intro yields
    cases yields with
    | ask rest => cases rest; rfl
  · rintro rfl
    exact .ask (.done _)

theorem yields_bind {program : Program I α} {f : α → Program I β} {h : List (Exchange I)}
    {result : β} :
    (program >>= f).Yields h result ↔
      ∃ first value rest, h = first ++ rest ∧ program.Yields first value ∧
        (f value).Yields rest result := by
  change (program.bind f).Yields h result ↔ _
  constructor
  · intro yields
    induction program generalizing h with
    | done value => exact ⟨[], value, h, rfl, .done value, yields⟩
    | ask request next ih =>
      cases yields with
      | @ask _ _ reply _ _ rest =>
        obtain ⟨first, value, last, rfl, hfirst, hlast⟩ := ih reply rest
        exact ⟨_ :: first, value, last, rfl, .ask hfirst, hlast⟩
  · rintro ⟨first, value, rest, rfl, hfirst, hrest⟩
    induction hfirst with
    | done value => exact hrest
    | ask _ ih => exact .ask (ih hrest)

/-- What goes on behind a program matters for the values that it can end with alone. -/
theorem bind_congr {program : Program I α}
    {f g : α → Program I β} (same : ∀ h value, program.Yields h value → f value = g value) :
    program >>= f = program >>= g := by
  change program.bind f = program.bind g
  induction program with
  | done value => exact same [] value (.done value)
  | ask request next ih =>
    have rest (reply : I.Reply request) : (next reply).bind f = (next reply).bind g :=
      ih reply fun h value yields => same _ value (.ask yields)
    simp only [bind, rest]

end Program

end EfiLoader
