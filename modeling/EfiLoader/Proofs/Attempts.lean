import EfiLoader.Attempt
import EfiLoader.Proofs.History

/-!
Histories of attempts. `verdict` says how a single service call ended. The lemmas named `yields_`
take an attempt apart: which exchanges each part has, and what the whole ends with. Those named
`of_` start from the history of a sequence and go past its first part.
-/

namespace EfiLoader

namespace Services

/-- How a service call ended, without the value. Requests that cannot fail succeed. -/
def verdict : (request : Request) → Reply request → Outcome Status Unit
  | .memoryMap _, reply => reply.outcome.map fun _ => ()
  | .openFile _, reply => Except.map (fun _ => ()) reply
  | .createFile _, reply => Except.map (fun _ => ()) reply
  | .fileSize _, reply => Except.map (fun _ => ()) reply
  | .readFile _ _, reply => Except.map (fun _ => ()) reply
  | .writeFile _ _, reply => reply
  | .closeFile _, _ => .ok ()
  | .allocatePool _, reply => Except.map (fun _ => ()) reply
  | .freePool _, reply => reply
  | .allocatePages _ _, reply => Except.map (fun _ => ()) reply
  | .graphicsMode, reply => Except.map (fun _ => ()) reply
  | .exitBootServices _, reply => reply
  | .store _ _, _ => .ok ()
  | .fill _ _ _, _ => .ok ()
  | .log _, _ => .ok ()

end Services

namespace Exchange

def verdict (e : Exchange Services) : Outcome Status Unit := Services.verdict e.request e.reply

def Succeeded (e : Exchange Services) : Prop := e.verdict = .ok ()

/-- The call came back, with whatever status. -/
def Returned (e : Exchange Services) : Prop := e.verdict ≠ .error .crashed

end Exchange

namespace Outcome

variable {ε ε' α : Type}

@[simp] theorem mapError_ok {f : ε → ε'} {value : α} :
    Except.mapError f (.ok value) = .ok value := rfl

@[simp] theorem mapError_error {f : ε → ε'} {cause : ε} :
    (Except.mapError f (.error cause) : Except ε' α) = .error (f cause) := rfl

/-- What is left of an outcome once its failure was taken up. -/
def settled : Outcome ε α → Outcome ε' (Except ε α)
  | .ok value => .ok (.ok value)
  | .error (.failed cause) => .ok (.error cause)
  | .error .crashed => .error .crashed

end Outcome

namespace Attempt

variable {ε ε' α β σ : Type}

/-- The exchanges of the attempt on a machine that starts in `state`. -/
def history (attempt : Attempt ε α) (machine : Machine Services σ) (state : σ) :
    List (Exchange Services) :=
  Program.history machine attempt.run state

/-- What the attempt ends with on a machine that starts in `state`. -/
def outcome (attempt : Attempt ε α) (machine : Machine Services σ) (state : σ) : Outcome ε α :=
  (Program.run machine attempt.run state).1

/-- With the replies of a history the attempt makes its requests and ends with an outcome. -/
def Yields (attempt : Attempt ε α) (h : List (Exchange Services)) (o : Outcome ε α) : Prop :=
  Program.Yields attempt.run h o

theorem yields_outcome (attempt : Attempt ε α) (machine : Machine Services σ) (state : σ) :
    attempt.Yields (attempt.history machine state) (attempt.outcome machine state) :=
  Program.yields_run machine _ state

theorem served_history (attempt : Attempt ε α) (machine : Machine Services σ) (state : σ) :
    Program.Served machine state (attempt.history machine state) :=
  Program.served_history machine _ state

variable {h : List (Exchange Services)}

theorem yields_bind {attempt : Attempt ε α} {f : α → Attempt ε β} {o : Outcome ε β} :
    (attempt >>= f : Attempt ε β).Yields h o ↔
      (∃ stop, attempt.Yields h (.error stop) ∧ o = .error stop) ∨
      ∃ first value rest, h = first ++ rest ∧ attempt.Yields first (.ok value) ∧
        (f value).Yields rest o := by
  unfold Yields
  rw [ExceptT.run_bind, Program.yields_bind]
  constructor
  · rintro ⟨first, result, rest, rfl, hfirst, hrest⟩
    cases result with
    | ok value => exact .inr ⟨first, value, rest, rfl, hfirst, hrest⟩
    | error stop =>
      obtain ⟨rfl, rfl⟩ := Program.yields_pure.mp hrest
      exact .inl ⟨stop, by simpa using hfirst, rfl⟩
  · rintro (⟨stop, hstop, rfl⟩ | ⟨first, value, rest, rfl, hfirst, hrest⟩)
    · exact ⟨h, .error stop, [], by simp, hstop, Program.yields_pure.mpr ⟨rfl, rfl⟩⟩
    · exact ⟨first, .ok value, rest, rfl, hfirst, hrest⟩

@[simp] theorem yields_pure {value : α} {o : Outcome ε α} :
    (pure value : Attempt ε α).Yields h o ↔ h = [] ∧ o = .ok value := Program.yields_pure

@[simp] theorem yields_fail {cause : ε} {o : Outcome ε α} :
    (fail cause : Attempt ε α).Yields h o ↔ h = [] ∧ o = .fail cause := Program.yields_pure

@[simp] theorem yields_crash {o : Outcome ε α} :
    (crash : Attempt ε α).Yields h o ↔ h = [] ∧ o = .crash := Program.yields_pure

@[simp] theorem yields_ofOutcome {outcome o : Outcome ε α} :
    (ofOutcome outcome).Yields h o ↔ h = [] ∧ o = outcome := Program.yields_pure

@[simp] theorem yields_ofExcept {result : Except ε α} {o : Outcome ε α} :
    (ofExcept result).Yields h o ↔ h = [] ∧ o = result.mapError .failed := by
  cases result with
  | ok value => exact yields_pure
  | error cause => exact yields_fail

@[simp] theorem crash_bind {f : α → Attempt ε β} : (crash >>= f : Attempt ε β) = crash := rfl

@[simp] theorem ofExcept_error_bind {cause : ε} {f : α → Attempt ε β} :
    (ofExcept (.error cause) >>= f : Attempt ε β) = fail cause := rfl

@[simp] theorem ofExcept_ok_bind {value : α} {f : α → Attempt ε β} :
    (ofExcept (.ok value) >>= f : Attempt ε β) = f value := rfl

@[simp] theorem ofOutcome_ok_bind {value : α} {f : α → Attempt ε β} :
    (ofOutcome (.ok value) >>= f : Attempt ε β) = f value := rfl

/-- Calls that cannot fail, such as notes for the log. -/
theorem yields_lift {service : Program Services α} {o : Outcome ε α} :
    (liftM service : Attempt ε α).Yields h o ↔ ∃ value, service.Yields h value ∧ o = .ok value := by
  change Program.Yields (service >>= fun value => pure (.ok value)) h o ↔ _
  rw [Program.yields_bind]
  constructor
  · rintro ⟨first, value, rest, rfl, hfirst, hrest⟩
    obtain ⟨rfl, rfl⟩ := Program.yields_pure.mp hrest
    exact ⟨value, by simpa using hfirst, rfl⟩
  · rintro ⟨value, hvalue, rfl⟩
    exact ⟨h, value, [], by simp, hvalue, Program.yields_pure.mpr ⟨rfl, rfl⟩⟩

theorem yields_lift_bind {request : Services.Request} {f : Services.Reply request → Attempt ε β}
    {o : Outcome ε β} :
    ((liftM (Services.ask request) : Attempt ε _) >>= f : Attempt ε β).Yields h o ↔
      ∃ reply rest, h = ⟨request, reply⟩ :: rest ∧ (f reply).Yields rest o := by
  rw [yields_bind]
  constructor
  · rintro (⟨stop, hstop, rfl⟩ | ⟨first, reply, rest, rfl, hfirst, hrest⟩)
    · obtain ⟨_, _, impossible⟩ := yields_lift.mp hstop
      cases impossible
    · obtain ⟨_, asked, same⟩ := yields_lift.mp hfirst
      cases same
      rw [Program.yields_request.mp asked]
      exact ⟨reply, rest, rfl, hrest⟩
  · rintro ⟨reply, rest, rfl, hrest⟩
    exact .inr ⟨[_], reply, rest, rfl, yields_lift.mpr ⟨reply, Program.yields_request.mpr rfl, rfl⟩,
      hrest⟩

theorem yields_reply {service : Program Services (Outcome Status α)}
    {o : Outcome ε (Except Status α)} :
    (reply service : Attempt ε _).Yields h o ↔
      ∃ outcome, service.Yields h outcome ∧ o = outcome.settled := by
  unfold reply
  rw [yields_bind]
  constructor
  · rintro (⟨stop, hstop, rfl⟩ | ⟨first, outcome, rest, rfl, hfirst, hrest⟩)
    · obtain ⟨_, _, impossible⟩ := yields_lift.mp hstop
      cases impossible
    · obtain ⟨_, asked, same⟩ := yields_lift.mp hfirst
      cases same
      refine ⟨outcome, ?_⟩
      rcases outcome with (status | _) | value
      all_goals
        obtain ⟨rfl, rfl⟩ := Program.yields_pure.mp hrest
        exact ⟨by simpa using asked, rfl⟩
  · rintro ⟨outcome, asked, rfl⟩
    refine .inr ⟨h, outcome, [], by simp, yields_lift.mpr ⟨outcome, asked, rfl⟩, ?_⟩
    rcases outcome with (status | _) | value
    all_goals exact Program.yields_pure.mpr ⟨rfl, rfl⟩

theorem yields_settle {attempt : Attempt ε α} {o : Outcome ε (Except ε α)} :
    attempt.settle.Yields h o ↔ ∃ outcome, attempt.Yields h outcome ∧ o = outcome.settled := by
  refine Program.yields_bind.trans ⟨?_, ?_⟩
  · rintro ⟨first, outcome, rest, rfl, hfirst, hrest⟩
    refine ⟨outcome, ?_⟩
    rcases outcome with (cause | _) | value
    all_goals
      obtain ⟨rfl, rfl⟩ := Program.yields_pure.mp hrest
      rw [List.append_nil]
      exact ⟨hfirst, rfl⟩
  · rintro ⟨outcome, hattempt, rfl⟩
    refine ⟨h, outcome, [], by simp, hattempt, ?_⟩
    rcases outcome with (cause | _) | value
    all_goals exact Program.yields_pure.mpr ⟨rfl, rfl⟩

theorem yields_explain {attempt : Attempt ε α} {f : ε → ε'} {o : Outcome ε' α} :
    (attempt.explain f).Yields h o ↔
      ∃ outcome, attempt.Yields h outcome ∧ o = outcome.explain f := by
  refine Program.yields_bind.trans ⟨?_, ?_⟩
  · rintro ⟨first, outcome, rest, rfl, hfirst, hrest⟩
    obtain ⟨rfl, rfl⟩ := Program.yields_pure.mp hrest
    rw [List.append_nil]
    exact ⟨outcome, hfirst, rfl⟩
  · rintro ⟨outcome, hattempt, rfl⟩
    exact ⟨h, outcome, [], by simp, hattempt, Program.yields_pure.mpr ⟨rfl, rfl⟩⟩

theorem of_explain_ok {attempt : Attempt ε α} {f : ε → ε'} {value : α}
    (yields : (attempt.explain f).Yields h (.ok value)) : attempt.Yields h (.ok value) := by
  obtain ⟨outcome, explained, told⟩ := yields_explain.mp yields
  cases outcome with
  | error stop => cases told
  | ok _ => cases told; exact explained

/-- The ways past a part whose failure was taken up: only a crash ends the whole with it. -/
theorem of_settled_bind {part : Attempt ε (Except ε' α)}
    {Ends : List (Exchange Services) → Outcome ε' α → Prop}
    (settles : ∀ {h o}, part.Yields h o → ∃ outcome, Ends h outcome ∧ o = outcome.settled)
    {f : Except ε' α → Attempt ε β} {o : Outcome ε β}
    (yields : (part >>= f : Attempt ε β).Yields h o) :
    (Ends h .crash ∧ o = .crash) ∨
      ∃ first result rest, h = first ++ rest ∧ Ends first (result.mapError .failed) ∧
        (f result).Yields rest o := by
  rcases yields_bind.mp yields with ⟨stop, hstop, rfl⟩ | ⟨first, result, rest, rfl, hfirst, hrest⟩
  · obtain ⟨outcome, ends, same⟩ := settles hstop
    rcases outcome with (cause | _) | value <;> cases same
    exact .inl ⟨ends, rfl⟩
  · obtain ⟨outcome, ends, same⟩ := settles hfirst
    rcases outcome with (cause | _) | value <;> cases same
    · exact .inr ⟨first, .error cause, rest, rfl, ends, hrest⟩
    · exact .inr ⟨first, .ok value, rest, rfl, ends, hrest⟩

theorem of_settle_bind {attempt : Attempt ε α} {f : Except ε α → Attempt ε β} {o : Outcome ε β}
    (yields : (attempt.settle >>= f : Attempt ε β).Yields h o) :
    (attempt.Yields h .crash ∧ o = .crash) ∨
      ∃ first result rest, h = first ++ rest ∧ attempt.Yields first (result.mapError .failed) ∧
        (f result).Yields rest o :=
  of_settled_bind yields_settle.mp yields

theorem of_reply_bind {service : Program Services (Outcome Status α)}
    {f : Except Status α → Attempt ε β} {o : Outcome ε β}
    (yields : (reply service >>= f : Attempt ε β).Yields h o) :
    (service.Yields h .crash ∧ o = .crash) ∨
      ∃ asked result rest, h = asked ++ rest ∧ service.Yields asked (result.mapError .failed) ∧
        (f result).Yields rest o :=
  of_settled_bind yields_reply.mp yields

theorem yields_require {service : Program Services (Outcome Status α)} {cause : Status → ε}
    {o : Outcome ε α} (yields : (require service cause).Yields h o) :
    ∃ outcome, service.Yields h outcome ∧ o = outcome.explain cause := by
  rcases of_reply_bind yields with ⟨asked, rfl⟩ | ⟨asked, result, rest, rfl, hasked, hrest⟩
  · exact ⟨.crash, asked, rfl⟩
  · cases result with
    | error status =>
      obtain ⟨rfl, rfl⟩ := yields_fail.mp hrest
      rw [List.append_nil]
      exact ⟨.fail status, hasked, rfl⟩
    | ok value =>
      obtain ⟨rfl, rfl⟩ := yields_pure.mp hrest
      rw [List.append_nil]
      exact ⟨.ok value, hasked, rfl⟩

/-- The ways past a call whose failure ends the whole. -/
theorem of_require_bind {service : Program Services (Outcome Status α)} {cause : Status → ε}
    {f : α → Attempt ε β} {o : Outcome ε β}
    (yields : (require service cause >>= f : Attempt ε β).Yields h o) :
    (∃ stop, service.Yields h (.error stop) ∧ o = .error (stop.map cause)) ∨
      ∃ asked value rest, h = asked ++ rest ∧ service.Yields asked (.ok value) ∧
        (f value).Yields rest o := by
  rcases yields_bind.mp yields with ⟨stop, hstop, rfl⟩ | ⟨first, value, rest, rfl, hfirst, hrest⟩
  · obtain ⟨outcome, asked, same⟩ := yields_require hstop
    cases outcome with
    | error stop => cases same; exact .inl ⟨stop, asked, rfl⟩
    | ok value => cases same
  · obtain ⟨outcome, asked, same⟩ := yields_require hfirst
    cases outcome with
    | error stop => cases same
    | ok value => cases same; exact .inr ⟨first, value, rest, rfl, asked, hrest⟩

end Attempt

end EfiLoader
