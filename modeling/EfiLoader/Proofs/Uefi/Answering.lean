import EfiLoader.Proofs.Boot.Preparation
import EfiLoader.Proofs.Uefi.Keeping

/-!
How the calls of a boot attempt become calls on UEFI. `Serves` puts the history on UEFI together of
one piece for each service; the lemmas named `of_answer_` say what is in the piece of a service.
Main statement: without an exit that succeeds, the boot services are not left (`Serves.stays`).
-/

namespace EfiLoader.Uefi

variable {α : Type} {loader later : LoaderState} {h : List (Exchange Uefi)}

/-- The histories on UEFI of services that are answered one after another. -/
inductive Serves : LoaderState → List (Exchange Services) → List (Exchange Uefi) → LoaderState →
    Prop
  | nil (loader : LoaderState) : Serves loader [] [] loader
  | cons {loader middle later : LoaderState} {e : Exchange Services}
      {services : List (Exchange Services)} {piece rest : List (Exchange Uefi)}
      (answered : Loader.Yields (answer e.request) loader piece e.reply middle)
      (serves : Serves middle services rest later) :
      Serves loader (e :: services) (piece ++ rest) later

/-- Whatever the replies are, a program over the services is run by answering them. -/
theorem serves_of_yields {program : Program Services α} {value : α}
    (yields : Loader.Yields (program.run answer) loader h value later) :
    ∃ services, program.Yields services value ∧ Serves loader services h later := by
  induction program generalizing loader h with
  | done result =>
    obtain ⟨rfl, rfl, rfl⟩ := Loader.yields_pure.mp yields
    exact ⟨[], .done _, .nil _⟩
  | ask request next ih =>
    obtain ⟨piece, reply, middle, rest, rfl, answered, onward⟩ := Loader.yields_bind.mp yields
    obtain ⟨services, made, serves⟩ := ih reply onward
    exact ⟨⟨request, reply⟩ :: services, .ask made, .cons answered serves⟩

theorem Serves.of_append {before after : List (Exchange Services)}
    (serves : Serves loader (before ++ after) h later) :
    ∃ first middle rest, h = first ++ rest ∧ Serves loader before first middle ∧
      Serves middle after rest later := by
  induction before generalizing loader h with
  | nil => exact ⟨[], loader, h, rfl, .nil loader, serves⟩
  | cons e before ih =>
    cases serves with
    | cons answered serves =>
      obtain ⟨first, middle, rest, rfl, here, there⟩ := ih serves
      exact ⟨_ ++ first, middle, rest, (List.append_assoc _ _ _).symm, .cons answered here, there⟩

theorem Serves.of_singleton {e : Exchange Services} (serves : Serves loader [e] h later) :
    Loader.Yields (answer e.request) loader h e.reply later := by
  cases serves with
  | cons answered rest =>
    cases rest
    rwa [List.append_nil]

/-- The boot services are left, or the kernel is entered. -/
def Departs : (request : Request) → Reply request → Prop
  | .exitBootServices _, status => status.isError = false
  | .enterKernel _ _, _ => True
  | _, _ => False

theorem Request.Stays.not_departs {request : Request} (stays : request.Stays)
    (reply : Reply request) : ¬ Departs request reply := by
  cases request with
  | exitBootServices | enterKernel => exact stays.elim
  | _ => exact id

/-- What a call reads from an open file. -/
def callData (file : File) : Exchange Uefi → Bytes
  | ⟨.readFile file' _, .ok data⟩ => if file' = file then data else []
  | _ => []

/-- What some calls read from an open file, one after another. -/
def dataOf (file : File) (h : List (Exchange Uefi)) : Bytes := h.flatMap (callData file)

theorem dataOf_append (file : File) (h h' : List (Exchange Uefi)) :
    dataOf file (h ++ h') = dataOf file h ++ dataOf file h' := List.flatMap_append

theorem dataOf_eq_nil (file : File) (blind : ∀ e ∈ h, e.request.StaysBlind) :
    dataOf file h = [] := by
  rw [dataOf, List.flatMap_eq_nil_iff]
  rintro ⟨request, reply⟩ he
  have blind := blind _ he
  cases request with
  | readFile => exact blind.elim
  | _ => rfl

section Pieces

/-- Without a system table nothing is asked; with it, the exit goes well unless its status is an
error, and then the table is gone. -/
theorem of_answer_exit {key : UInt64} {reply : Outcome Status Unit}
    (yields : Loader.Yields (answer (.exitBootServices key)) loader h reply later) :
    (h = [] ∧ reply = .fail .unsupported ∧ later = loader) ∨
      ∃ status, h = [⟨.exitBootServices key, status⟩] ∧
        ((status.isError = true ∧ reply = .fail status ∧ later = loader) ∨
          (status.isError = false ∧ reply = .ok () ∧
            later = { loader with systemTable := false })) := by
  have tried := Call.yields_get_bind.mp yields
  dsimp only at tried
  split at tried
  · exact .inl (Call.yields_fail_bind.mp tried)
  · obtain ⟨status, rest, rfl, onward⟩ := Call.yields_ask_bind.mp tried
    refine .inr ⟨status, ?_⟩
    by_cases refused : status.isError = true
    · rw [if_pos refused] at onward
      obtain ⟨rfl, failed, rfl⟩ := Call.yields_fail_bind.mp onward
      exact ⟨rfl, .inl ⟨refused, failed, rfl⟩⟩
    · rw [if_neg refused] at onward
      obtain ⟨rfl, left, rfl⟩ := Call.yields_modify.mp onward
      exact ⟨rfl, .inr ⟨Bool.not_eq_true _ ▸ refused, left, rfl⟩⟩

theorem of_answer_openFile_ok {path : String} {file : File}
    (yields : Loader.Yields (answer (.openFile path)) loader h (.ok file) later) :
    ∃ before after, h = before ++ ⟨.openFile path .read, .ok file⟩ :: after ∧
      ∀ e ∈ after, e.request.StaysBlind := by
  obtain ⟨before, _, _, rest, rfl, -, opening⟩ := Call.of_bind_ok yields
  obtain ⟨first, handle, _, after, rfl, opened, placing⟩ := Call.of_bind_ok opening
  obtain ⟨asked, rfl⟩ := Call.of_ofReply_ok opened
  obtain rfl := yields_ask.mp asked
  obtain ⟨place, last, rfl, ended⟩ := Call.yields_ask_bind.mp placing
  cases place with
  | error status =>
    obtain ⟨-, impossible, -⟩ := Call.yields_fail.mp ended
    cases impossible
  | ok place =>
    obtain ⟨rfl, same, -⟩ := Call.yields_pure.mp ended
    cases same
    exact ⟨before, _, rfl, List.forall_mem_singleton.mpr trivial⟩

theorem of_readFile_ok {file : File} {count : Nat} {data : Bytes}
    (yields : (readFile file count).Yields loader h (.ok data) later) :
    dataOf file h = data ∧ data.length ≤ count := by
  induction count using Nat.strongRecOn generalizing loader h data later with
  | ind count ih =>
    cases count with
    | zero =>
      rw [readFile] at yields
      obtain ⟨rfl, same, -⟩ := Call.yields_pure.mp yields
      cases same
      exact ⟨rfl, Nat.le_refl 0⟩
    | succ count =>
      rw [readFile] at yields
      obtain ⟨first, chunk, _, rest, rfl, read, onward⟩ := Call.of_bind_ok yields
      obtain ⟨asked, rfl⟩ := Call.of_ofReply_ok read
      obtain rfl := yields_ask.mp asked
      have wanted : min (count + 1) readChunk ≤ count + 1 := Nat.min_le_left _ _
      have here : dataOf file
          (⟨.readFile file (min (count + 1) readChunk), .ok chunk⟩ :: rest) =
            chunk ++ dataOf file rest := by
        rw [dataOf, List.flatMap_cons, callData, if_pos rfl]
        rfl
      rw [List.singleton_append, here]
      extract_lets more at onward
      split at onward
      · obtain ⟨-, impossible, -⟩ := Call.yields_throw_bind.mp onward
        cases impossible
      · dsimp only [more] at onward
        split at onward
        · obtain ⟨rfl, same, -⟩ := Call.yields_pure.mp onward
          cases same
          exact ⟨List.append_nil _, by omega⟩
        · obtain ⟨reading, tail, _, last, rfl, read, ended⟩ := Call.of_bind_ok onward
          obtain ⟨rfl, same, -⟩ := Call.yields_pure.mp ended
          cases same
          have shorter : count + 1 - min (count + 1) readChunk < count + 1 := by
            simp only [readChunk]
            omega
          obtain ⟨told, bound⟩ := ih _ shorter read
          rw [List.append_nil, told, List.length_append]
          exact ⟨rfl, by omega⟩

theorem of_answer_readFile_ok {file : File} {count : UInt64} {reply : Services.ReadReply}
    (yields : Loader.Yields (answer (.readFile file count)) loader h (.ok reply) later) :
    dataOf file h = reply.data ∧ reply.count = .ofNat reply.data.length ∧
      reply.data.length ≤ count.toNat := by
  obtain ⟨first, data, _, rest, rfl, read, ended⟩ := Call.of_bind_ok yields
  obtain ⟨rfl, same, -⟩ := Call.yields_pure.mp ended
  cases same
  obtain ⟨told, bound⟩ := of_readFile_ok read
  rw [List.append_nil]
  exact ⟨told, rfl, bound⟩

theorem of_answer_graphicsMode_ok {mode : Screen.Mode}
    (yields : Loader.Yields (answer .graphicsMode) loader h (.ok (some mode)) later) :
    ⟨.openGraphics, .ok mode⟩ ∈ h := by
  obtain ⟨located, rest, rfl, onward⟩ := Call.yields_ask_bind.mp yields
  rcases located with status | _ | others
  · dsimp only at onward
    split at onward
    · obtain ⟨-, same, -⟩ := Call.yields_pure.mp onward
      cases same
    · obtain ⟨-, impossible, -⟩ := Call.yields_fail.mp onward
      cases impossible
  · obtain ⟨-, same, -⟩ := Call.yields_pure.mp onward
    cases same
  · obtain ⟨second, shown, _, last, rfl, opened, ended⟩ := Call.of_bind_ok onward
    obtain ⟨asked, rfl⟩ := Call.of_ofReply_ok opened
    obtain rfl := yields_ask.mp asked
    split at ended
    · obtain ⟨-, impossible, -⟩ := Call.yields_throw_bind.mp ended
      cases impossible
    · obtain ⟨-, same, -⟩ := Call.yields_pure.mp ended
      cases same
      simp

end Pieces

/-- An exit that does not succeed leaves all as it is, like any other service. -/
theorem of_answer_unsuccessful {e : Exchange Services}
    (yields : Loader.Yields (answer e.request) loader h e.reply later)
    (unsuccessful : ¬ (e.exits = true ∧ e.Succeeded)) :
    (∀ x ∈ h, ¬ Departs x.request x.reply) ∧ later.systemTable = loader.systemTable := by
  obtain ⟨request, reply⟩ := e
  by_cases exits : ∃ key, request = .exitBootServices key
  · obtain ⟨key, rfl⟩ := exits
    rcases of_answer_exit yields with
      ⟨rfl, -, rfl⟩ | ⟨status, rfl, ⟨refused, -, rfl⟩ | ⟨-, rfl, -⟩⟩
    · exact ⟨nofun, rfl⟩
    · refine ⟨List.forall_mem_singleton.mpr ?_, rfl⟩
      exact fun left => Bool.false_ne_true (left.symm.trans refused)
    · exact absurd ⟨rfl, rfl⟩ unsuccessful
  · obtain ⟨stays, same⟩ := answer_stays (fun key here => exits ⟨key, here⟩) _ _ _ _ yields
    exact ⟨fun x hx => (stays x hx).not_departs x.reply, same⟩

namespace Serves

variable {services : List (Exchange Services)}

/-- Without an exit that succeeds the boot services are not left, and the system table stays. -/
theorem stays (serves : Serves loader services h later)
    (unsuccessful : ∀ e ∈ services, ¬ (e.exits = true ∧ e.Succeeded)) :
    (∀ x ∈ h, ¬ Departs x.request x.reply) ∧ later.systemTable = loader.systemTable := by
  induction serves with
  | nil => exact ⟨nofun, rfl⟩
  | cons answered _ ih =>
    obtain ⟨here, there⟩ := List.forall_mem_cons.mp unsuccessful
    obtain ⟨stays, same⟩ := of_answer_unsuccessful answered here
    obtain ⟨stays', same'⟩ := ih there
    exact ⟨List.forall_mem_append.mpr ⟨stays, stays'⟩, same'.trans same⟩

/-- Services that read nothing make no calls that do. -/
theorem dataOf_eq_nil (serves : Serves loader services h later) (file : File)
    (blind : ∀ e ∈ services, ∀ file count, e.request ≠ .readFile file count) :
    dataOf file h = [] := by
  induction serves with
  | nil => rfl
  | @cons _ _ _ e _ _ _ answered _ ih =>
    obtain ⟨here, there⟩ := List.forall_mem_cons.mp blind
    rw [dataOf_append, ih there, List.append_nil]
    obtain ⟨request, reply⟩ := e
    by_cases exits : ∃ key, request = .exitBootServices key
    · obtain ⟨key, rfl⟩ := exits
      rcases of_answer_exit answered with ⟨rfl, -⟩ | ⟨status, rfl, -⟩ <;> rfl
    · exact Uefi.dataOf_eq_nil file
        (answer_keeps (fun key same => exits ⟨key, same⟩) here _ _ _ _ answered).1

end Serves

end EfiLoader.Uefi
