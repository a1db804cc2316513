import EfiLoader.Proofs.Attempts

/-!
What an attempt ends with and the state in which it leaves a machine, part by part: one rule for
each way of putting attempts together. `result_bind_ok` and `result_bind_error` go past the first
part of a sequence.
-/

namespace EfiLoader.Attempt

variable {ε ε' α β σ : Type} {machine : Machine Services σ} {state later : σ}

/-- How the attempt ends on a machine that starts in `state`, and the machine's state then. -/
def result (attempt : Attempt ε α) (machine : Machine Services σ) (state : σ) : Outcome ε α × σ :=
  Program.run machine attempt.run state

theorem result_bind (attempt : Attempt ε α) (f : α → Attempt ε β) :
    (attempt >>= f : Attempt ε β).result machine state =
      match attempt.result machine state with
      | (.ok value, later) => (f value).result machine later
      | (.error stop, later) => (.error stop, later) := by
  unfold result
  rw [ExceptT.run_bind, Program.run_bind_state]
  obtain ⟨_ | _, _⟩ := Program.run machine attempt.run state <;> rfl

theorem result_bind_ok {attempt : Attempt ε α} {f : α → Attempt ε β} {value : α}
    (ended : attempt.result machine state = (.ok value, later)) :
    (attempt >>= f : Attempt ε β).result machine state = (f value).result machine later := by
  rw [result_bind, ended]

theorem result_bind_error {attempt : Attempt ε α} {f : α → Attempt ε β} {stop : Stop ε}
    (ended : attempt.result machine state = (.error stop, later)) :
    (attempt >>= f : Attempt ε β).result machine state = (.error stop, later) := by
  rw [result_bind, ended]

/-- A sequence that ends with a value went past its first part. -/
theorem of_result_bind_ok {attempt : Attempt ε α} {f : α → Attempt ε β} {value : β}
    (ended : (attempt >>= f : Attempt ε β).result machine state = (.ok value, later)) :
    ∃ first middle, attempt.result machine state = (.ok first, middle) ∧
      (f first).result machine middle = (.ok value, later) := by
  rw [result_bind] at ended
  rcases came : attempt.result machine state with ⟨_ | first, middle⟩
  · rw [came] at ended
    cases ended
  · rw [came] at ended
    exact ⟨first, middle, rfl, ended⟩

@[simp] theorem result_pure (value : α) :
    (pure value : Attempt ε α).result machine state = (.ok value, state) := rfl

@[simp] theorem result_fail (cause : ε) :
    (fail cause : Attempt ε α).result machine state = (.fail cause, state) := rfl

@[simp] theorem result_ofExcept (result : Except ε α) :
    (ofExcept result).result machine state = (result.mapError .failed, state) := by
  cases result <;> rfl

theorem result_lift (service : Program Services α) :
    (liftM service : Attempt ε α).result machine state =
      (.ok (service.run machine state).1, (service.run machine state).2) :=
  Program.run_bind_state service _ state

theorem result_reply (service : Program Services (Outcome Status α)) :
    (reply service : Attempt ε _).result machine state =
      ((service.run machine state).1.settled, (service.run machine state).2) := by
  unfold reply
  rw [result_bind, result_lift]
  obtain ⟨(_ | _) | _, _⟩ := service.run machine state <;> rfl

theorem result_require (service : Program Services (Outcome Status α)) (cause : Status → ε) :
    (require service cause).result machine state =
      ((service.run machine state).1.explain cause, (service.run machine state).2) := by
  unfold require
  rw [result_bind, result_reply]
  obtain ⟨(_ | _) | _, _⟩ := service.run machine state <;> rfl

theorem of_result_require_ok {service : Program Services (Outcome Status α)} {cause : Status → ε}
    {value : α} (ended : (require service cause).result machine state = (.ok value, later)) :
    service.run machine state = (.ok value, later) := by
  rw [result_require] at ended
  rcases replied : service.run machine state with ⟨_ | _, _⟩
  all_goals
    rw [replied] at ended
    cases ended
  rfl

theorem result_settle (attempt : Attempt ε α) :
    attempt.settle.result machine state =
      ((attempt.result machine state).1.settled, (attempt.result machine state).2) := by
  refine (Program.run_bind_state attempt.run _ state).trans ?_
  unfold result
  obtain ⟨(_ | _) | _, _⟩ := Program.run machine attempt.run state <;> rfl

theorem result_explain (attempt : Attempt ε α) (f : ε → ε') :
    (attempt.explain f).result machine state =
      ((attempt.result machine state).1.explain f, (attempt.result machine state).2) :=
  Program.run_bind_state attempt.run _ state

theorem of_result_explain_ok {attempt : Attempt ε α} {f : ε → ε'} {value : α}
    (ended : (attempt.explain f).result machine state = (.ok value, later)) :
    attempt.result machine state = (.ok value, later) := by
  rw [result_explain] at ended
  rcases came : attempt.result machine state with ⟨_ | reached, last⟩
  · rw [came] at ended
    cases ended
  · rw [came] at ended
    cases ended
    rfl

theorem result_settle_bind_ok {attempt : Attempt ε α} {f : Except ε α → Attempt ε β} {value : α}
    (ended : attempt.result machine state = (.ok value, later)) :
    (attempt.settle >>= f : Attempt ε β).result machine state =
      (f (.ok value)).result machine later :=
  result_bind_ok (by rw [result_settle, ended]; rfl)

theorem result_settle_bind_failed {attempt : Attempt ε α} {f : Except ε α → Attempt ε β}
    {cause : ε} (ended : attempt.result machine state = (.fail cause, later)) :
    (attempt.settle >>= f : Attempt ε β).result machine state =
      (f (.error cause)).result machine later :=
  result_bind_ok (by rw [result_settle, ended]; rfl)

theorem result_settle_bind_crash {attempt : Attempt ε α} {f : Except ε α → Attempt ε β}
    (ended : attempt.result machine state = (.crash, later)) :
    (attempt.settle >>= f : Attempt ε β).result machine state = (.crash, later) :=
  result_bind_error (by rw [result_settle, ended]; rfl)

theorem result_explain_bind_ok {attempt : Attempt ε α} {f : ε → ε'} {g : α → Attempt ε' β}
    {value : α} (ended : attempt.result machine state = (.ok value, later)) :
    (attempt.explain f >>= g : Attempt ε' β).result machine state =
      (g value).result machine later :=
  result_bind_ok (by rw [result_explain, ended]; rfl)

section Requests

theorem result_lift_bind (service : Program Services α) (f : α → Attempt ε β) :
    ((liftM service : Attempt ε α) >>= f : Attempt ε β).result machine state =
      (f (service.run machine state).1).result machine (service.run machine state).2 :=
  result_bind_ok (result_lift service)

variable {service : Program Services (Outcome Status α)}

theorem result_reply_bind_ok {f : Except Status α → Attempt ε β} {value : α}
    (replied : service.run machine state = (.ok value, later)) :
    (reply service >>= f : Attempt ε β).result machine state =
      (f (.ok value)).result machine later :=
  result_bind_ok (by rw [result_reply, replied]; rfl)

theorem result_reply_bind_failed {f : Except Status α → Attempt ε β} {status : Status}
    (replied : service.run machine state = (.fail status, later)) :
    (reply service >>= f : Attempt ε β).result machine state =
      (f (.error status)).result machine later :=
  result_bind_ok (by rw [result_reply, replied]; rfl)

theorem result_reply_bind_crash {f : Except Status α → Attempt ε β}
    (replied : service.run machine state = (.crash, later)) :
    (reply service >>= f : Attempt ε β).result machine state = (.crash, later) :=
  result_bind_error (by rw [result_reply, replied]; rfl)

theorem result_require_bind_ok {cause : Status → ε} {f : α → Attempt ε β} {value : α}
    (replied : service.run machine state = (.ok value, later)) :
    (require service cause >>= f : Attempt ε β).result machine state =
      (f value).result machine later :=
  result_bind_ok (by rw [result_require, replied]; rfl)

theorem result_require_bind_failed {cause : Status → ε} {f : α → Attempt ε β} {status : Status}
    (replied : service.run machine state = (.fail status, later)) :
    (require service cause >>= f : Attempt ε β).result machine state =
      (.fail (cause status), later) :=
  result_bind_error (by rw [result_require, replied]; rfl)

end Requests

end EfiLoader.Attempt
