import EfiLoader.Proofs.Boot.Preparation

/-!
The exit from the boot services in a whole boot attempt. `prepare_leaves_last`: the attempt succeeds
exactly if the firmware let it go, nothing is asked after that, and nothing before it went wrong but
for a first try with a map that was out of date.

`Course` gives the histories of an attempt part by part; what is claimed of all attempts is kept by
each of its parts.
-/

namespace EfiLoader.Boot

variable {h : List (Exchange Services)}

/-- The ways to leave with a map. -/
inductive Leaving (map : MemoryMap) :
    List (Exchange Services) → MemoryMap × Outcome Cause Unit → Prop
  | exited : Leaving map [⟨.exitBootServices map.report.key, .ok ()⟩] (map, .ok ())
  | crashed : Leaving map [⟨.exitBootServices map.report.key, .crash⟩] (map, .crash)
  | refused (status : Status) (other : status ≠ .invalidParameter) :
      Leaving map [⟨.exitBootServices map.report.key, .fail status⟩]
        (map, .fail (.exitBootServices status))
  | notRetaken {retaking : List (Exchange Services)} {later : MemoryMap} {stop : Stop Cause}
      (retaken : MemoryMap.Retaking map retaking (later, .error stop)) :
      Leaving map (⟨.exitBootServices map.report.key, .fail .invalidParameter⟩ :: retaking)
        (later, .error stop)
  | again {retaking : List (Exchange Services)} {later : MemoryMap} (result : Outcome Status Unit)
      (retaken : MemoryMap.Retaking map retaking (later, .ok ())) :
      Leaving map
        (⟨.exitBootServices map.report.key, .fail .invalidParameter⟩ :: (retaking ++
          [⟨.exitBootServices later.report.key, result⟩]))
        (later, result.explain .exitBootServices)

theorem leaving_of_yields {map : MemoryMap} {result : MemoryMap × Outcome Cause Unit}
    (yields : (leave map).Yields h result) : Leaving map h result := by
  obtain ⟨_, first, _, rfl, asked, rest⟩ := Program.yields_bind.mp yields
  cases Program.yields_request.mp asked
  rcases first with (status | _) | _
  · by_cases other : status ≠ .invalidParameter
    · simp only [if_pos other] at rest
      obtain ⟨rfl, rfl⟩ := Program.yields_pure.mp rest
      exact .refused status other
    · simp only [if_neg other] at rest
      obtain rfl : status = .invalidParameter := by simpa using other
      obtain ⟨_, ⟨later, outcome⟩, _, rfl, retaken, last⟩ := Program.yields_bind.mp rest
      have retaken := MemoryMap.retaking_of_yields retaken
      cases outcome with
      | error stop =>
        obtain ⟨rfl, rfl⟩ := Program.yields_pure.mp last
        rw [List.append_nil]
        exact .notRetaken retaken
      | ok _ =>
        obtain ⟨_, exited, _, rfl, asked, ended⟩ := Program.yields_bind.mp last
        cases Program.yields_request.mp asked
        obtain ⟨rfl, rfl⟩ := Program.yields_pure.mp ended
        exact .again exited retaken
  · obtain ⟨rfl, rfl⟩ := Program.yields_pure.mp rest
    exact .crashed
  · obtain ⟨rfl, rfl⟩ := Program.yields_pure.mp rest
    exact .exited

/-- The histories of what is left of an attempt when the kernel was `loaded` already, or was not. -/
inductive Course : Bool → List (Exchange Services) → Outcome Failure Launch → Prop
  | stopped {loaded : Bool} {h : List (Exchange Services)} (stop : Stop Failure)
      (stays : ∀ e ∈ h, e.exits = false) : Course loaded h (.error stop)
  | prepared {loaded : Bool} {first rest : List (Exchange Services)} {o : Outcome Failure Launch}
      (prepares : ∀ e ∈ first, e.Prepares) (course : Course loaded rest o) :
      Course loaded (first ++ rest) o
  | loading {first rest : List (Exchange Services)} {o : Outcome Failure Launch}
      (loads : Kernel.Loads kernelPath first) (course : Course true rest o) :
      Course false (first ++ rest) o
  | leaving {map later : MemoryMap} {h : List (Exchange Services)} {result : Outcome Cause Unit}
      (left : Leaving map h (later, result)) (launch : Launch) :
      Course true h ((result.explain (Failure.mk .exitBootServices)).map fun _ => launch)

/-- Whatever the replies, the attempt takes such a course. -/
structure Takes (loaded : Bool) (attempt : Attempt Failure Launch) : Prop where
  course : ∀ {h o}, attempt.Yields h o → Course loaded h o

namespace Takes

variable {α : Type} {part : Attempt Failure α} {f : α → Attempt Failure Launch}

theorem after {loaded : Bool} (preparatory : part.Preparatory)
    (next : ∀ value, Takes loaded (f value)) : Takes loaded (part >>= f) where
  course yields := by
    rcases Attempt.yields_bind.mp yields with ⟨stop, stopped, rfl⟩ | ⟨_, value, _, rfl, came, rest⟩
    · exact .stopped stop (preparatory.stays stopped)
    · exact .prepared (preparatory.prepares came) ((next value).course rest)

theorem afterLoad {f : Kernel.Loaded → Attempt Failure Launch}
    (next : ∀ kernel, Takes true (f kernel)) :
    Takes false (atStep .loadKernel (Kernel.load kernelPath) >>= f) where
  course yields := by
    rcases Attempt.yields_bind.mp yields with ⟨stop, stopped, rfl⟩ | ⟨_, kernel, _, rfl, came, rest⟩
    · exact .stopped stop (((Kernel.preparatory_load kernelPath).explain _).stays stopped)
    · have loading := Kernel.loading_of_yields (Attempt.of_explain_ok came)
      exact .loading loading.loads ((next kernel).course rest)

theorem exit (map : MemoryMap) (launch : Launch) :
    Takes true (do
      let _ ← atStep .exitBootServices (mapOrFail (leave map))
      return launch) where
  course yields := by
    rcases Attempt.yields_bind.mp yields with ⟨stop, stopped, rfl⟩ | ⟨_, _, _, rfl, came, rest⟩
    · obtain ⟨_, tried, told⟩ := Attempt.yields_explain.mp stopped
      obtain ⟨⟨later, result⟩, left, rfl⟩ := yields_mapOrFail.mp tried
      cases result with
      | error stop => cases told; exact .leaving (leaving_of_yields left) launch
      | ok _ => cases told
    · obtain ⟨rfl, rfl⟩ := Attempt.yields_pure.mp rest
      have left := leaving_of_yields (of_mapOrFail_ok (Attempt.of_explain_ok came))
      rw [List.append_nil]
      exact .leaving left launch

end Takes

theorem prepare_takes (buffer : MemoryMap.Buffer) (options : Options) :
    Takes false (prepare buffer options) := by
  unfold prepare
  refine .after ((preparatory_take buffer).explain _) fun map => ?_
  refine .after (.log _ _ _) fun _ => ?_
  -- Both branches over the listing go on in the same way, and so do both over the painting.
  extract_lets onScreen
  have screens (u : Unit) : Takes false (onScreen u) := by
    refine .after (Screen.preparatory_find.explain _) fun mode => ?_
    refine .after (.explain (.ofExcept _) _) fun frameBuffer => ?_
    extract_lets load
    have loads (u : Unit) : Takes false (load u) := by
      refine .afterLoad fun kernel => ?_
      refine .after (.log _ _ _) fun _ => .after (.log _ _ _) fun _ => ?_
      exact .exit map _
    split
    · exact .after (Screen.preparatory_paint mode paintValue) loads
    · exact loads ()
  split
  · refine .after (.explain (MemoryMap.Listing.preparatory_save map listingPath) _) fun _ => ?_
    exact .after (.log _ _ _) screens
  · exact screens ()

/-- Every call succeeded, but for the first call for the exit that may have been refused as one with
an old map. -/
def NothingHidden (h : List (Exchange Services)) : Prop :=
  (∀ e ∈ h, e.Succeeded) ∨
    ∃ before key after, h = before ++ ⟨.exitBootServices key, .fail .invalidParameter⟩ :: after ∧
      (∀ e ∈ before, e.Prepares) ∧ ∀ e ∈ after, e.Succeeded

/-- How the calls for the exit in a history go with what the attempt ends with. -/
structure LeavesLast (h : List (Exchange Services)) (o : Outcome Failure Launch) : Prop where
  ok_iff : (∃ launch, o = .ok launch) ↔ ∃ e ∈ h, e.exits = true ∧ e.Succeeded
  last : ∀ e ∈ h.dropLast, ¬ (e.exits = true ∧ e.Succeeded)
  tries : h.countP Exchange.exits ≤ 2
  nothingHidden : ∀ launch, o = .ok launch → NothingHidden h

/-- Before any call for the exit the kernel was loaded, each call of the load with success. -/
def LoadsFirst (h : List (Exchange Services)) : Prop :=
  (∀ e ∈ h, e.exits = false) ∨
    ∃ before loading rest, h = before ++ (loading ++ rest) ∧ (∀ e ∈ before, e.exits = false) ∧
      Kernel.Loads kernelPath loading

theorem not_exits_of_stays (stays : ∀ e ∈ h, e.exits = false) :
    ∀ e ∈ h, ¬ (e.exits = true ∧ e.Succeeded) := by
  rintro e he ⟨exits, _⟩
  rw [stays e he] at exits
  cases exits

theorem countP_exits_of_stays (stays : ∀ e ∈ h, e.exits = false) : h.countP Exchange.exits = 0 := by
  rw [List.countP_eq_zero]
  intro e he
  rw [stays e he]
  exact Bool.false_ne_true

namespace LeavesLast

theorem of_unsuccessful (stop : Stop Failure)
    (unsuccessful : ∀ e ∈ h, ¬ (e.exits = true ∧ e.Succeeded))
    (tries : h.countP Exchange.exits ≤ 2) : LeavesLast h (.error stop) where
  ok_iff := by
    refine ⟨nofun, ?_⟩
    rintro ⟨e, he, exited⟩
    exact absurd exited (unsuccessful e he)
  last e he := unsuccessful e (List.dropLast_subset h he)
  tries := tries
  nothingHidden := nofun

theorem of_stays (stop : Stop Failure) (stays : ∀ e ∈ h, e.exits = false) :
    LeavesLast h (.error stop) := by
  refine of_unsuccessful stop (not_exits_of_stays stays) ?_
  rw [countP_exits_of_stays stays]
  exact Nat.zero_le _

theorem after {first rest : List (Exchange Services)} {o : Outcome Failure Launch}
    (prepares : ∀ e ∈ first, e.Prepares) (leaves : LeavesLast rest o) :
    LeavesLast (first ++ rest) o where
  ok_iff := by
    rw [leaves.ok_iff]
    constructor
    · rintro ⟨e, he, exited⟩
      exact ⟨e, List.mem_append_right _ he, exited⟩
    · rintro ⟨e, he, exited⟩
      rcases List.mem_append.mp he with he | he
      · exact absurd exited (not_exits_of_stays (Exchange.stays_of_prepares prepares) e he)
      · exact ⟨e, he, exited⟩
  last e he := by
    have early := not_exits_of_stays (Exchange.stays_of_prepares prepares)
    by_cases none : rest = []
    · rw [none, List.append_nil] at he
      exact early e (List.dropLast_subset first he)
    · rw [List.dropLast_append_of_ne_nil none] at he
      rcases List.mem_append.mp he with he | he
      · exact early e he
      · exact leaves.last e he
  tries := by
    rw [List.countP_append, countP_exits_of_stays (Exchange.stays_of_prepares prepares),
      Nat.zero_add]
    exact leaves.tries
  nothingHidden launch ended := by
    rcases leaves.nothingHidden launch ended with succeeded | ⟨before, key, later, rfl, early, late⟩
    · exact .inl (List.forall_mem_append.mpr ⟨fun e he => (prepares e he).succeeded, succeeded⟩)
    · refine .inr ⟨first ++ before, key, later, by simp, ?_, late⟩
      exact List.forall_mem_append.mpr ⟨prepares, early⟩

end LeavesLast

theorem Leaving.leavesLast {map later : MemoryMap} {result : Outcome Cause Unit}
    (left : Leaving map h (later, result)) (launch : Launch) :
    LeavesLast h ((result.explain (Failure.mk .exitBootServices)).map fun _ => launch) := by
  cases left with
  | exited =>
    constructor
    · exact ⟨fun _ => ⟨_, List.mem_singleton_self _, rfl, rfl⟩, fun _ => ⟨launch, rfl⟩⟩
    · exact nofun
    · exact Nat.le_succ 1
    · exact fun _ _ => .inl (List.forall_mem_cons.mpr ⟨rfl, nofun⟩)
  | crashed =>
    refine .of_unsuccessful _ (List.forall_mem_cons.mpr ⟨?_, nofun⟩) (Nat.le_succ 1)
    exact fun exited => nomatch exited.2
  | refused status =>
    refine .of_unsuccessful _ (List.forall_mem_cons.mpr ⟨?_, nofun⟩) (Nat.le_succ 1)
    exact fun exited => nomatch exited.2
  | notRetaken retaken =>
    refine .of_unsuccessful _ (List.forall_mem_cons.mpr ⟨?_, not_exits_of_stays retaken.stays⟩) ?_
    · exact fun exited => nomatch exited.2
    · rw [List.countP_cons, countP_exits_of_stays retaken.stays]
      exact Nat.le_succ 1
  | @again retaking later result retaken =>
    have tries : (⟨.exitBootServices map.report.key, .fail .invalidParameter⟩ :: (retaking ++
        [⟨.exitBootServices later.report.key, result⟩])).countP Exchange.exits ≤ 2 := by
      rw [List.countP_cons, List.countP_append, countP_exits_of_stays retaken.stays]
      exact Nat.le_refl 2
    have refused :
        ¬ Exchange.Succeeded ⟨.exitBootServices map.report.key, .fail .invalidParameter⟩ := nofun
    cases result with
    | error stop =>
      refine .of_unsuccessful _ ?_ tries
      simp only [List.forall_mem_cons, List.forall_mem_append]
      exact ⟨fun exited => refused exited.2, not_exits_of_stays retaken.stays,
        fun exited => (nomatch exited.2), nofun⟩
    | ok _ =>
      constructor
      · exact ⟨fun _ => ⟨⟨.exitBootServices later.report.key, .ok ()⟩, by simp, rfl, rfl⟩,
          fun _ => ⟨launch, rfl⟩⟩
      · rw [List.dropLast_cons_of_ne_nil (by simp), List.dropLast_concat]
        exact List.forall_mem_cons.mpr
          ⟨fun exited => refused exited.2, not_exits_of_stays retaken.stays⟩
      · exact tries
      · refine fun _ _ => .inr ⟨[], map.report.key, _, rfl, nofun, ?_⟩
        exact List.forall_mem_append.mpr
          ⟨retaken.succeeded, List.forall_mem_cons.mpr ⟨rfl, nofun⟩⟩

theorem Course.leavesLast {loaded : Bool} {o : Outcome Failure Launch}
    (course : Course loaded h o) : LeavesLast h o := by
  induction course with
  | stopped stop stays => exact .of_stays stop stays
  | prepared prepares _ ih => exact .after prepares ih
  | loading loads _ ih => exact .after loads.prepares ih
  | leaving left launch => exact left.leavesLast launch

-- Only a course with nothing loaded yet is claimed to load first, and its parts before that are all
-- free of exits.
theorem Course.loadsFirst {loaded : Bool} {o : Outcome Failure Launch} (course : Course loaded h o)
    (fresh : loaded = false) : LoadsFirst h := by
  induction course with
  | stopped stop stays => exact .inl stays
  | prepared prepares _ ih =>
    rcases ih fresh with stays | ⟨before, loading, rest, rfl, early, loads⟩
    · exact .inl (List.forall_mem_append.mpr ⟨Exchange.stays_of_prepares prepares, stays⟩)
    · refine .inr ⟨_ ++ before, loading, rest, (List.append_assoc _ _ _).symm, ?_, loads⟩
      exact List.forall_mem_append.mpr ⟨Exchange.stays_of_prepares prepares, early⟩
  | loading loads _ _ => exact .inr ⟨[], _, _, rfl, nofun, loads⟩
  | leaving left launch => cases fresh

/-- **Boot services are left last, once, and only for a kernel that is in place**, whatever the
firmware replies. The attempt succeeds exactly if the firmware let it go, and hides no failure. -/
theorem prepare_leaves_last {σ : Type} (machine : Machine Services σ) (state : σ)
    (buffer : MemoryMap.Buffer) (options : Options) :
    LeavesLast ((prepare buffer options).history machine state)
        ((prepare buffer options).outcome machine state) ∧
      LoadsFirst ((prepare buffer options).history machine state) := by
  have course := (prepare_takes buffer options).course
    ((prepare buffer options).yields_outcome machine state)
  exact ⟨course.leavesLast, course.loadsFirst rfl⟩

end EfiLoader.Boot
