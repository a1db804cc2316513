import EfiLoader.MemoryMap.Listing
import EfiLoader.Proofs.MemoryMap.Refusal
import EfiLoader.Proofs.Numeral

/-!
Every history that saving the listing of an accepted map can have. Main statements: no line is
longer than its room (`line_fits`), its descriptors can be reached (`Accepted.inspect`), and so
nothing but a failing call keeps a listing from being saved (`saving_of_yields`).
-/

namespace EfiLoader

namespace MemoryMap

open Boot (Cause)
open Services (MapReport)

variable {h : List (Exchange Services)}

/-- What holds of the names of the known types, and of the one for all others, holds of any. -/
theorem forall_typeName {P : String → Prop} (known : ∀ i < 16, P (typeName (.ofNat i)))
    (unknown : P "InvalidMemoryType") (type : UInt32) : P (typeName type) := by
  by_cases small : type.toNat < 16
  · have name := known type.toNat small
    rwa [UInt32.ofNat_toNat] at name
  · rw [typeName, List.getElem?_eq_none (by simpa using small)]
    exact unknown

theorem length_typeName_le : ∀ type, (Bytes.utf8 (typeName type)).length ≤ 26 :=
  forall_typeName (P := fun name => (Bytes.utf8 name).length ≤ 26) (by decide) (by decide)

namespace Listing

theorem line_fits {index : Nat} (bounded : index < UInt64.size) (d : Descriptor) :
    (Bytes.utf8 (line index d)).length ≤ lineCapacity := by
  have indexed : (Bytes.utf8 (Numeral.decimal index)).length ≤ 20 :=
    Numeral.length_decimal_le (by decide) (Nat.lt_trans bounded (by decide))
  have type : (Bytes.utf8 (Numeral.hex d.type.toNat)).length ≤ 8 :=
    Numeral.length_hex_le (by decide) d.type.toNat_lt
  have start : (Bytes.utf8 (Numeral.zeroHex 8 d.physicalStart.toNat)).length ≤ 16 :=
    Numeral.length_zeroHex_le (by decide) (by decide) d.physicalStart.toNat_lt
  have pages : (Bytes.utf8 (Numeral.hex d.pageCount.toNat)).length ≤ 16 :=
    Numeral.length_hex_le (by decide) d.pageCount.toNat_lt
  have attributes : (Bytes.utf8 (Numeral.hex (d.attributes &&& attributeMask).toNat)).length ≤ 16 :=
    Numeral.length_hex_le (by decide) (d.attributes &&& attributeMask).toNat_lt
  have named := length_typeName_le d.type
  have comma : (Bytes.utf8 ", ").length = 2 := by decide
  have newline : (Bytes.utf8 "\n").length = 1 := by decide
  simp only [line, Bytes.length_utf8_append, comma, newline, lineCapacity]
  omega

end Listing

/-- No map has more descriptors than an index can count. -/
theorem length_descriptors_le (map : MemoryMap) : map.descriptors.length ≤ UInt64.size := by
  rw [descriptors, List.length_map, List.length_range, length]
  exact Nat.le_trans (Nat.div_le_self _ _) (Nat.le_of_lt map.report.size.toNat_lt)

/-- The map was accepted with its report. -/
def Accepted (map : MemoryMap) : Prop :=
  ∃ outcome, accept map.buffer outcome = .ok map.report

theorem Accepted.inspect {map : MemoryMap} (accepted : map.Accepted) :
    map.inspect = .ok map.descriptors := by
  obtain ⟨_, judged⟩ := accepted
  rw [MemoryMap.inspect, (reach_of_accept judged).2.2]
  rfl

theorem Retaking.accepted {map taken : MemoryMap} (retaking : Retaking map h (taken, .ok ())) :
    taken.Accepted := by
  cases retaking with
  | taken reply report _ judged => exact ⟨reply.outcome, judged⟩

namespace Listing

/-- The lines of descriptors that are counted from `index` on. -/
def linesFrom : Nat → List Descriptor → List Bytes
  | _, [] => []
  | index, d :: rest => Bytes.utf8 (line index d) :: linesFrom (index + 1) rest

@[simp] theorem length_linesFrom (index : Nat) (ds : List Descriptor) :
    (linesFrom index ds).length = ds.length := by
  induction ds generalizing index with
  | nil => rfl
  | cons d rest ih => rw [linesFrom, List.length_cons, List.length_cons, ih]

/-- The lines of a map's listing after its header. -/
def lines (map : MemoryMap) : List Bytes := linesFrom 0 map.descriptors

/-- What is written for a map, one text for each write. -/
def texts (map : MemoryMap) : List Bytes := Bytes.utf8 header :: lines map

/-- The ways to write texts to a file, one call for each. -/
inductive Writing (file : Services.File) :
    List Bytes → List (Exchange Services) → Outcome Cause Unit → Prop
  | done : Writing file [] [] (.ok ())
  | stopped (text : Bytes) (rest : List Bytes) (stop : Stop Status) :
      Writing file (text :: rest) [⟨.writeFile file text, .error stop⟩] (.error (stop.map .io))
  | wrote {text : Bytes} {rest : List Bytes} {h : List (Exchange Services)}
      {o : Outcome Cause Unit} (writing : Writing file rest h o) :
      Writing file (text :: rest) (⟨.writeFile file text, .ok ()⟩ :: h) o

theorem writing_of_yields {file : Services.File} {index : Nat} {ds : List Descriptor}
    {o : Outcome Cause Unit} (bounded : index + ds.length ≤ UInt64.size)
    (yields : (writeLines file index ds).Yields h o) : Writing file (linesFrom index ds) h o := by
  induction ds generalizing index h with
  | nil =>
    obtain ⟨rfl, rfl⟩ := Attempt.yields_pure.mp yields
    exact .done
  | cons d rest ih =>
    rw [List.length_cons] at bounded
    have small : index < UInt64.size := by omega
    have fits := line_fits small d
    rw [writeLines] at yields
    simp only [if_neg (Nat.not_lt.mpr fits)] at yields
    rcases Attempt.of_require_bind yields with ⟨stop, asked, rfl⟩ | ⟨_, _, _, rfl, asked, rest⟩
    · cases Program.yields_request.mp asked
      exact .stopped _ _ stop
    · cases Program.yields_request.mp asked
      exact .wrote (ih (by omega) rest)

/-- The ways to save the listing of a map. -/
inductive Saving (map : MemoryMap) (path : String) :
    List (Exchange Services) → Outcome Cause Unit → Prop
  | notCreated (stop : Stop Status) :
      Saving map path [⟨.createFile path, .error stop⟩] (.error (stop.map .io))
  | headerCrashed (file : Services.File) :
      Saving map path
        [⟨.createFile path, .ok file⟩, ⟨.writeFile file (Bytes.utf8 header), .crash⟩] .crash
  | noHeader (file : Services.File) (status : Status) :
      Saving map path
        [⟨.createFile path, .ok file⟩, ⟨.writeFile file (Bytes.utf8 header), .fail status⟩,
          ⟨.closeFile file, ()⟩]
        (.fail (.io status))
  | linesCrashed {file : Services.File} {record : Log.Record} {writing : List (Exchange Services)}
      (crashed : Writing file (lines map) writing .crash) :
      Saving map path
        (⟨.createFile path, .ok file⟩ :: ⟨.writeFile file (Bytes.utf8 header), .ok ()⟩ ::
          ⟨.log record, ()⟩ :: writing)
        .crash
  | closed {file : Services.File} {record : Log.Record} {writing : List (Exchange Services)}
      {result : Except Cause Unit}
      (wrote : Writing file (lines map) writing (result.mapError .failed)) :
      Saving map path
        (⟨.createFile path, .ok file⟩ :: ⟨.writeFile file (Bytes.utf8 header), .ok ()⟩ ::
          ⟨.log record, ()⟩ :: (writing ++ [⟨.closeFile file, ()⟩]))
        (result.mapError .failed)

section ForAll

variable {P : Exchange Services → Prop}

theorem Writing.forall_mem {file : Services.File} {texts : List Bytes} {o : Outcome Cause Unit}
    (write : ∀ text reply, P ⟨.writeFile file text, reply⟩) (writing : Writing file texts h o) :
    ∀ e ∈ h, P e := by
  induction writing with
  | done => exact nofun
  | stopped => exact List.forall_mem_singleton.mpr (write _ _)
  | wrote _ ih => exact List.forall_mem_cons.mpr ⟨write _ _, ih⟩

/-- Listings are saved by these calls alone. -/
theorem Saving.forall_mem {map : MemoryMap} {path : String} {o : Outcome Cause Unit}
    (create : ∀ reply, P ⟨.createFile path, reply⟩)
    (write : ∀ file text reply, P ⟨.writeFile file text, reply⟩)
    (close : ∀ file, P ⟨.closeFile file, ()⟩) (log : ∀ record, P ⟨.log record, ()⟩)
    (saving : Saving map path h o) : ∀ e ∈ h, P e := by
  cases saving with
  | notCreated => exact List.forall_mem_singleton.mpr (create _)
  | headerCrashed file => simp [create, write]
  | noHeader file status => simp [create, write, close]
  | linesCrashed crashed =>
    simp only [List.forall_mem_cons]
    exact ⟨create _, write _ _ _, log _, crashed.forall_mem (write _)⟩
  | closed wrote =>
    simp only [List.forall_mem_cons, List.forall_mem_append]
    exact ⟨create _, write _ _ _, log _, wrote.forall_mem (write _), close _, nofun⟩

end ForAll

/-- What a listing is written as, once its file is there. -/
theorem of_write_yields {map : MemoryMap} {file : Services.File} {o : Outcome Cause Unit}
    (viewed : map.inspect = .ok map.descriptors) (yields : (write map file).Yields h o) :
    (∃ stop, h = [⟨.writeFile file (Bytes.utf8 header), .error stop⟩] ∧
      o = .error (stop.map .io)) ∨
    ∃ record writing, h = ⟨.writeFile file (Bytes.utf8 header), .ok ()⟩ :: ⟨.log record, ()⟩ ::
      writing ∧ Writing file (lines map) writing o := by
  have bounded : 0 + map.descriptors.length ≤ UInt64.size := by
    rw [Nat.zero_add]
    exact map.length_descriptors_le
  rcases Attempt.of_require_bind yields with ⟨stop, asked, rfl⟩ | ⟨_, _, _, rfl, asked, rest⟩
  · cases Program.yields_request.mp asked
    exact .inl ⟨stop, rfl, rfl⟩
  · cases Program.yields_request.mp asked
    obtain ⟨_, _, rfl, noted⟩ := Attempt.yields_lift_bind.mp rest
    rw [viewed, Attempt.ofOutcome_ok_bind] at noted
    exact .inr ⟨_, _, rfl, writing_of_yields bounded noted⟩

theorem saving_of_yields {map : MemoryMap} {path : String} {o : Outcome Cause Unit}
    (accepted : map.Accepted) (yields : (save map path).Yields h o) : Saving map path h o := by
  rcases Attempt.of_require_bind yields with ⟨stop, asked, rfl⟩ | ⟨_, file, _, rfl, asked, rest⟩
  · cases Program.yields_request.mp asked
    exact .notCreated stop
  cases Program.yields_request.mp asked
  rcases Attempt.of_settle_bind rest with ⟨crashed, rfl⟩ | ⟨_, result, _, rfl, writes, settled⟩
  · rcases of_write_yields accepted.inspect crashed with
      ⟨stop, rfl, stopped⟩ | ⟨record, writing, rfl, wrote⟩
    · cases stop <;> cases stopped
      exact .headerCrashed file
    · exact .linesCrashed wrote
  · obtain ⟨_, _, rfl, closed⟩ := Attempt.yields_lift_bind.mp settled
    obtain ⟨rfl, rfl⟩ := Attempt.yields_ofExcept.mp closed
    rcases of_write_yields accepted.inspect writes with
      ⟨stop, rfl, stopped⟩ | ⟨record, writing, rfl, wrote⟩
    · cases stop <;> cases result <;> cases stopped
      exact .noHeader file _
    · exact .closed wrote

end Listing

end MemoryMap

end EfiLoader
