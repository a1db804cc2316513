import EfiLoader.Proofs.Uefi.Calls

/-!
Histories of the loader's parts on UEFI: the calls that a part makes, the replies that it gets, what
it comes to and the state in which it leaves the loader. The lemmas named `yields_` take a part
apart as those of attempts do.
-/

namespace EfiLoader.Uefi

variable {α β σ : Type} {loader later : LoaderState} {h : List (Exchange Uefi)}

@[simp] theorem yields_ask {request : Request} {reply : Reply request} :
    (ask request).Yields h reply ↔ h = [⟨request, reply⟩] :=
  Program.yields_request

namespace Loader

/-- With the replies of a history the part makes its requests, comes to a value and leaves the
loader in the state `later`. -/
def Yields (part : Loader α) (loader : LoaderState) (h : List (Exchange Uefi)) (value : α)
    (later : LoaderState) : Prop :=
  (part.run loader).Yields h (value, later)

theorem yields_run (machine : Machine Uefi σ) (part : Loader α) (loader : LoaderState)
    (state : σ) :
    Yields part loader ((part.run loader).history machine state)
      ((part.run loader).run machine state).1.1 ((part.run loader).run machine state).1.2 :=
  Program.yields_run machine _ state

@[simp] theorem yields_pure {value result : α} :
    Yields (pure value) loader h result later ↔ h = [] ∧ result = value ∧ later = loader := by
  have single : Yields (pure value) loader h result later ↔
      h = [] ∧ (result, later) = (value, loader) := Program.yields_pure
  rw [single, Prod.mk.injEq]

theorem yields_bind {part : Loader α} {f : α → Loader β} {result : β} :
    Yields (part >>= f) loader h result later ↔
      ∃ first value middle rest, h = first ++ rest ∧ Yields part loader first value middle ∧
        Yields (f value) middle rest result later := by
  unfold Yields
  rw [StateT.run_bind, Program.yields_bind]
  constructor
  · rintro ⟨first, ⟨value, middle⟩, rest, split, before, after⟩
    exact ⟨first, value, middle, rest, split, before, after⟩
  · rintro ⟨first, value, middle, rest, split, before, after⟩
    exact ⟨first, (value, middle), rest, split, before, after⟩

@[simp] theorem yields_lift {program : Program Uefi α} {value : α} :
    Yields (liftM program) loader h value later ↔ program.Yields h value ∧ later = loader := by
  change (program >>= fun value => pure (value, loader)).Yields h (value, later) ↔ _
  rw [Program.yields_bind]
  constructor
  · rintro ⟨first, value, rest, rfl, before, after⟩
    obtain ⟨rfl, same⟩ := Program.yields_pure.mp after
    cases same
    exact ⟨by simpa using before, rfl⟩
  · rintro ⟨before, rfl⟩
    exact ⟨h, value, [], by simp, before, Program.yields_pure.mpr ⟨rfl, rfl⟩⟩

@[simp] theorem yields_get {value : LoaderState} :
    Yields get loader h value later ↔ h = [] ∧ value = loader ∧ later = loader := by
  have single : Yields get loader h value later ↔
      h = [] ∧ (value, later) = (loader, loader) := Program.yields_pure
  rw [single, Prod.mk.injEq]

@[simp] theorem yields_modify {f : LoaderState → LoaderState} {value : PUnit} :
    Yields (modify f) loader h value later ↔ h = [] ∧ later = f loader := by
  have single : Yields (modify f) loader h value later ↔
      h = [] ∧ (value, later) = (⟨⟩, f loader) := Program.yields_pure
  rw [single, Prod.mk.injEq]
  simp

theorem yields_get_bind {f : LoaderState → Loader β} {result : β} :
    Yields (get >>= f) loader h result later ↔ Yields (f loader) loader h result later := by
  rw [yields_bind]
  constructor
  · rintro ⟨first, value, middle, rest, rfl, before, after⟩
    obtain ⟨rfl, rfl, rfl⟩ := yields_get.mp before
    exact after
  · intro yields
    exact ⟨[], loader, loader, h, rfl, yields_get.mpr ⟨rfl, rfl, rfl⟩, yields⟩

theorem yields_modify_bind {f : LoaderState → LoaderState} {rest : PUnit → Loader β} {result : β} :
    Yields (modify f >>= rest) loader h result later ↔
      Yields (rest ⟨⟩) (f loader) h result later := by
  rw [yields_bind]
  constructor
  · rintro ⟨first, value, middle, last, rfl, before, after⟩
    obtain ⟨rfl, rfl⟩ := yields_modify.mp before
    exact after
  · intro yields
    exact ⟨[], ⟨⟩, f loader, h, rfl, yields_modify.mpr ⟨rfl, rfl⟩, yields⟩

end Loader

namespace Call

/-- With the replies of a history the call makes its requests, ends with an outcome and leaves the
loader in the state `later`. -/
def Yields (call : Call α) (loader : LoaderState) (h : List (Exchange Uefi))
    (outcome : Outcome Status α) (later : LoaderState) : Prop :=
  Loader.Yields call.run loader h outcome later

variable {outcome : Outcome Status α}

@[simp] theorem yields_pure {value : α} :
    (pure value : Call α).Yields loader h outcome later ↔
      h = [] ∧ outcome = .ok value ∧ later = loader := Loader.yields_pure

@[simp] theorem yields_throw {stop : Stop Status} :
    (throw stop : Call α).Yields loader h outcome later ↔
      h = [] ∧ outcome = .error stop ∧ later = loader := Loader.yields_pure

@[simp] theorem yields_fail {status : Status} :
    (fail status : Call α).Yields loader h outcome later ↔
      h = [] ∧ outcome = .fail status ∧ later = loader := Loader.yields_pure

theorem yields_bind {call : Call α} {f : α → Call β} {result : Outcome Status β} :
    (call >>= f : Call β).Yields loader h result later ↔
      (∃ stop, call.Yields loader h (.error stop) later ∧ result = .error stop) ∨
      ∃ first value middle rest, h = first ++ rest ∧
        call.Yields loader first (.ok value) middle ∧
        (f value).Yields middle rest result later := by
  unfold Yields
  rw [ExceptT.run_bind, Loader.yields_bind]
  constructor
  · rintro ⟨first, ended, middle, rest, rfl, before, after⟩
    cases ended with
    | ok value => exact .inr ⟨first, value, middle, rest, rfl, before, after⟩
    | error stop =>
      obtain ⟨rfl, rfl, rfl⟩ := Loader.yields_pure.mp after
      exact .inl ⟨stop, by simpa using before, rfl⟩
  · rintro (⟨stop, before, rfl⟩ | ⟨first, value, middle, rest, rfl, before, after⟩)
    · exact ⟨h, .error stop, later, [], by simp, before, Loader.yields_pure.mpr ⟨rfl, rfl, rfl⟩⟩
    · exact ⟨first, .ok value, middle, rest, rfl, before, after⟩

theorem yields_throw_bind {stop : Stop Status} {f : β → Call α} :
    (throw stop >>= f : Call α).Yields loader h outcome later ↔
      h = [] ∧ outcome = .error stop ∧ later = loader := yields_throw

theorem yields_fail_bind {status : Status} {f : β → Call α} :
    (fail status >>= f : Call α).Yields loader h outcome later ↔
      h = [] ∧ outcome = .fail status ∧ later = loader := yields_fail

theorem yields_get_bind {f : LoaderState → Call α} :
    (get >>= f : Call α).Yields loader h outcome later ↔
      (f loader).Yields loader h outcome later := Loader.yields_get_bind

@[simp] theorem yields_modify {f : LoaderState → LoaderState} {outcome : Outcome Status PUnit} :
    (modify f : Call PUnit).Yields loader h outcome later ↔
      h = [] ∧ outcome = .ok ⟨⟩ ∧ later = f loader := by
  have single : (modify f : Call PUnit).Yields loader h outcome later ↔
      h = [] ∧ (outcome, later) = (.ok ⟨⟩, f loader) := Program.yields_pure
  rw [single, Prod.mk.injEq]

@[simp] theorem yields_lift {program : Program Uefi α} :
    (liftM program : Call α).Yields loader h outcome later ↔
      ∃ value, program.Yields h value ∧ outcome = .ok value ∧ later = loader := by
  change Loader.Yields ((liftM program : Loader α) >>= fun value => pure (.ok value)) loader h
    outcome later ↔ _
  rw [Loader.yields_bind]
  constructor
  · rintro ⟨first, value, middle, rest, rfl, before, after⟩
    obtain ⟨before, rfl⟩ := Loader.yields_lift.mp before
    obtain ⟨rfl, rfl, rfl⟩ := Loader.yields_pure.mp after
    exact ⟨value, by simpa using before, rfl, rfl⟩
  · rintro ⟨value, before, rfl, rfl⟩
    exact ⟨h, value, later, [], by simp, Loader.yields_lift.mpr ⟨before, rfl⟩,
      Loader.yields_pure.mpr ⟨rfl, rfl, rfl⟩⟩

theorem yields_lift_bind {program : Program Uefi β} {f : β → Call α} :
    (liftM program >>= f : Call α).Yields loader h outcome later ↔
      ∃ first value rest, h = first ++ rest ∧ program.Yields first value ∧
        (f value).Yields loader rest outcome later := by
  rw [yields_bind]
  constructor
  · rintro (⟨stop, before, -⟩ | ⟨first, value, middle, rest, rfl, before, after⟩)
    · obtain ⟨_, _, impossible, _⟩ := yields_lift.mp before
      cases impossible
    · obtain ⟨value, made, same, rfl⟩ := yields_lift.mp before
      cases same
      exact ⟨first, value, rest, rfl, made, after⟩
  · rintro ⟨first, value, rest, rfl, made, after⟩
    exact .inr ⟨first, value, loader, rest, rfl, yields_lift.mpr ⟨value, made, rfl, rfl⟩, after⟩

theorem yields_ask_bind {request : Request} {f : Reply request → Call α} :
    (liftM (ask request) >>= f : Call α).Yields loader h outcome later ↔
      ∃ reply rest, h = ⟨request, reply⟩ :: rest ∧ (f reply).Yields loader rest outcome later := by
  rw [yields_lift_bind]
  constructor
  · rintro ⟨first, reply, rest, rfl, asked, after⟩
    obtain rfl := yields_ask.mp asked
    exact ⟨reply, rest, rfl, after⟩
  · rintro ⟨reply, rest, rfl, after⟩
    exact ⟨_, reply, rest, List.singleton_append.symm, yields_ask.mpr rfl, after⟩

@[simp] theorem yields_ofReply {program : Program Uefi (Except Status α)} :
    (ofReply program).Yields loader h outcome later ↔
      ∃ reply, program.Yields h reply ∧ outcome = reply.mapError .failed ∧ later = loader := by
  rw [ofReply, yields_lift_bind]
  constructor
  · rintro ⟨first, reply, rest, rfl, replied, after⟩
    refine ⟨reply, ?_⟩
    cases reply with
    | ok value =>
      obtain ⟨rfl, rfl, rfl⟩ := yields_pure.mp after
      exact ⟨by rwa [List.append_nil], rfl, rfl⟩
    | error status =>
      obtain ⟨rfl, rfl, rfl⟩ := yields_fail.mp after
      exact ⟨by rwa [List.append_nil], rfl, rfl⟩
  · rintro ⟨reply, replied, rfl, rfl⟩
    refine ⟨h, reply, [], (List.append_nil h).symm, replied, ?_⟩
    cases reply with
    | ok value => exact yields_pure.mpr ⟨rfl, rfl, rfl⟩
    | error status => exact yields_fail.mpr ⟨rfl, rfl, rfl⟩

theorem of_bind_ok {call : Call α} {f : α → Call β} {value : β}
    (yields : (call >>= f : Call β).Yields loader h (.ok value) later) :
    ∃ first between middle rest, h = first ++ rest ∧
      call.Yields loader first (.ok between) middle ∧
      (f between).Yields middle rest (.ok value) later := by
  rcases yields_bind.mp yields with ⟨stop, -, impossible⟩ | went
  · cases impossible
  · exact went

theorem of_ofReply_ok {program : Program Uefi (Except Status α)} {value : α}
    (yields : (ofReply program).Yields loader h (.ok value) later) :
    program.Yields h (.ok value) ∧ later = loader := by
  obtain ⟨reply, replied, told, rfl⟩ := yields_ofReply.mp yields
  cases reply with
  | error status => cases told
  | ok value => cases told; exact ⟨replied, rfl⟩

@[simp] theorem yields_settle {call : Call α} {result : Outcome Status (Except Status α)} :
    call.settle.Yields loader h result later ↔
      ∃ outcome, call.Yields loader h outcome later ∧ result = outcome.settled := by
  rw [settle, Yields, ExceptT.run_mk, Loader.yields_bind]
  constructor
  · rintro ⟨first, outcome, middle, rest, rfl, before, after⟩
    refine ⟨outcome, ?_⟩
    rcases outcome with (status | _) | value
    all_goals
      obtain ⟨rfl, rfl, rfl⟩ := Loader.yields_pure.mp after
      exact ⟨by rwa [List.append_nil], rfl⟩
  · rintro ⟨outcome, before, rfl⟩
    refine ⟨h, outcome, later, [], (List.append_nil h).symm, before, ?_⟩
    rcases outcome with (status | _) | value
    all_goals exact Loader.yields_pure.mpr ⟨rfl, rfl, rfl⟩

end Call

end EfiLoader.Uefi
