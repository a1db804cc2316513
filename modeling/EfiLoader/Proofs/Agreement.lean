import EfiLoader.Proofs.Execution

/-!
Two runs side by side: they agree if they end with the same outcome, in related states. Agreement is
carried from the parts of two attempts to the attempts, one rule for each way of putting attempts
together.
-/

namespace EfiLoader

structure Agree {β σ : Type} (R : σ → σ → Prop) (first second : β × σ) : Prop where
  same : first.1 = second.1
  related : R first.2 second.2

namespace Agree

open Attempt (result_bind_ok result_bind_error result_lift result_reply result_require
  result_settle result_explain)

variable {ε ε' α β σ : Type} {machine : Machine Services σ} {R Q : σ → σ → Prop} {s t : σ}

theorem map {γ : Type} {first second : β × σ} (f : β → γ) (agree : Agree R first second) :
    Agree R (f first.1, first.2) (f second.1, second.2) :=
  ⟨congrArg f agree.same, agree.related⟩

/-- The rest of two sequences has to agree only where their first parts came to a value. -/
theorem bindInto {p q : Attempt ε α} {f g : α → Attempt ε β} (weaken : ∀ {s t}, R s t → Q s t)
    (first : Agree R (p.result machine s) (q.result machine t))
    (rest : ∀ value s' t', p.result machine s = (.ok value, s') →
      q.result machine t = (.ok value, t') → R s' t' →
      Agree Q ((f value).result machine s') ((g value).result machine t')) :
    Agree Q ((p >>= f : Attempt ε β).result machine s)
      ((q >>= g : Attempt ε β).result machine t) := by
  obtain ⟨same, related⟩ := first
  rcases left : p.result machine s with ⟨outcome, s'⟩
  rcases right : q.result machine t with ⟨outcome', t'⟩
  rw [left, right] at same related
  cases same
  cases outcome with
  | error stop =>
    rw [result_bind_error left, result_bind_error right]
    exact ⟨rfl, weaken related⟩
  | ok value =>
    rw [result_bind_ok left, result_bind_ok right]
    exact rest value s' t' left right related

theorem bind {p q : Attempt ε α} {f g : α → Attempt ε β}
    (first : Agree R (p.result machine s) (q.result machine t))
    (rest : ∀ {s' t'} value, R s' t' →
      Agree R ((f value).result machine s') ((g value).result machine t')) :
    Agree R ((p >>= f : Attempt ε β).result machine s)
      ((q >>= g : Attempt ε β).result machine t) :=
  first.bindInto (fun related => related) fun value _ _ _ _ related => rest value related

theorem settle {p q : Attempt ε α} (agree : Agree R (p.result machine s) (q.result machine t)) :
    Agree R (p.settle.result machine s) (q.settle.result machine t) := by
  rw [result_settle, result_settle]
  exact agree.map _

theorem explain {p q : Attempt ε α} (f : ε → ε')
    (agree : Agree R (p.result machine s) (q.result machine t)) :
    Agree R ((p.explain f).result machine s) ((q.explain f).result machine t) := by
  rw [result_explain, result_explain]
  exact agree.map _

theorem lift {service other : Program Services α}
    (agree : Agree R (service.run machine s) (other.run machine t)) :
    Agree R ((liftM service : Attempt ε α).result machine s)
      ((liftM other : Attempt ε α).result machine t) := by
  rw [result_lift, result_lift]
  exact agree.map _

section Calls

variable {service other : Program Services (Outcome Status α)}

theorem reply (agree : Agree R (service.run machine s) (other.run machine t)) :
    Agree R ((Attempt.reply service : Attempt ε _).result machine s)
      ((Attempt.reply other : Attempt ε _).result machine t) := by
  rw [result_reply, result_reply]
  exact agree.map _

theorem require (cause : Status → ε)
    (agree : Agree R (service.run machine s) (other.run machine t)) :
    Agree R ((Attempt.require service cause).result machine s)
      ((Attempt.require other cause).result machine t) := by
  rw [result_require, result_require]
  exact agree.map _

end Calls

end Agree

/-- What single requests keep, whole programs keep: from related states a program has the same
replies, and with them goes on in the same way. -/
theorem Program.run_agree {I : Interface} {α σ : Type} {machine : Machine I σ} {R : σ → σ → Prop}
    {P : I.Request → Prop}
    (step : ∀ request, P request → ∀ {s t}, R s t → Agree R (machine request s) (machine request t))
    {program : Program I α} (asks : ∀ h value, program.Yields h value → ∀ e ∈ h, P e.request)
    {s t : σ} (related : R s t) : Agree R (program.run machine s) (program.run machine t) := by
  induction program generalizing s t with
  | done value => exact ⟨rfl, related⟩
  | ask request next ih =>
    have asked : P request :=
      asks _ _ (.ask (yields_run machine (next (machine request s).1) s)) ⟨request, _⟩
        List.mem_cons_self
    obtain ⟨same, related⟩ := step request asked related
    have rest := ih (machine request s).1 (fun h value yields e he =>
      asks _ value (.ask yields) e (List.mem_cons_of_mem _ he)) related
    change Agree R ((next (machine request s).1).run machine (machine request s).2)
      ((next (machine request t).1).run machine (machine request t).2)
    rw [← same]
    exact rest

end EfiLoader
