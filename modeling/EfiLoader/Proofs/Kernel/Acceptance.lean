import EfiLoader.Proofs.Kernel.Safety

/-!
Which kernel files are accepted, and what the others are told. `parse_exact`: a file is accepted if
it breaks none of the rules, and rejected for the first that it breaks. The rules for the header
rank before those for the loadable entries, and entries before later ones; entries of other types
are under no rule.
-/

namespace EfiLoader.Kernel

/-- What a file with these violations is told: the first counts. -/
def firstOf : List Rejection → Except Rejection Unit
  | [] => .ok ()
  | rejection :: _ => .error rejection

theorem firstOf_append (before after : List Rejection) :
    firstOf (before ++ after) = firstOf before >>= fun _ => firstOf after := by
  cases before with
  | nil => rfl
  | cons rejection rest => rfl

theorem firstOf_eq_ok_iff {violations : List Rejection} :
    firstOf violations = .ok () ↔ violations = [] := by
  cases violations with
  | nil => simp [firstOf]
  | cons rejection rest => simp [firstOf]

theorem firstOf_eq_error_iff {violations : List Rejection} {rejection : Rejection} :
    firstOf violations = .error rejection ↔ violations.head? = some rejection := by
  cases violations with
  | nil => simp [firstOf]
  | cons first rest => simp [firstOf]

/-- The violation of one rule, if it is `broken`. -/
def violationIf (broken : Prop) [Decidable broken] (rejection : Rejection) : List Rejection :=
  if broken then [rejection] else []

section Rule

variable {broken : Prop} [Decidable broken] {rejection : Rejection}

theorem violationIf_eq_nil_iff : violationIf broken rejection = [] ↔ ¬ broken := by
  unfold violationIf
  split <;> simp_all

theorem firstOf_violationIf_append (rest : List Rejection) :
    firstOf (violationIf broken rejection ++ rest) =
      if broken then .error rejection else firstOf rest := by
  unfold violationIf
  split <;> rfl

end Rule

namespace Segment

/-- The rules that a loadable entry breaks. -/
def violations (fileLength : Nat) (s : Segment) : List Rejection :=
  violationIf (s.memorySize < s.fileSize) (.fileSizeExceedsMemorySize s.address)
    ++ violationIf (wordLimit ≤ s.memoryEnd) (.segmentWrapsAround s.address)
    ++ violationIf (fileLength < s.fileEnd) (.segmentOutsideFile s.address)

theorem check_eq_firstOf (fileLength : Nat) (s : Segment) :
    s.check fileLength = firstOf (s.violations fileLength) := by
  rw [violations, List.append_assoc, firstOf_violationIf_append, firstOf_violationIf_append,
    ← List.append_nil (violationIf (fileLength < s.fileEnd) _), firstOf_violationIf_append]
  rfl

theorem violations_eq_nil_iff {fileLength : Nat} {s : Segment} :
    s.violations fileLength = [] ↔ s.Valid fileLength := by
  rw [← check_eq_ok_iff, check_eq_firstOf, firstOf_eq_ok_iff]

end Segment

theorem forM_check_eq_firstOf (fileLength : Nat) (segments : List Segment) :
    segments.forM (Segment.check fileLength) =
      firstOf (segments.flatMap (Segment.violations fileLength)) := by
  induction segments with
  | nil => rfl
  | cons s rest ih =>
    rw [List.flatMap_cons, firstOf_append, ← ih, ← Segment.check_eq_firstOf]
    rfl

namespace Elf.File

/-- The rules that a file of that length breaks, in the order of their rank. -/
def violations (fileLength : Nat) (elf : Elf.File) : List Rejection :=
  violationIf (elf.fileClass ≠ .elf64) .notElf64
    ++ violationIf (elf.machine ≠ machineX86_64) .notX86_64
    ++ violationIf (elf.type ≠ typeExecutable) .notExecutable
    ++ violationIf (elf.programHeaders.getD [] = []) .noProgramHeaders
    ++ elf.loadable.flatMap (Segment.violations fileLength)

/-- A program header table with entries, and a header of the right kind. Only loadable entries have
to be right themselves. -/
structure Acceptable (fileLength : Nat) (elf : Elf.File) : Prop where
  elf64 : elf.fileClass = .elf64
  x86_64 : elf.machine = machineX86_64
  executable : elf.type = typeExecutable
  table : ∃ headers, elf.programHeaders = some headers ∧ headers ≠ []
  entries : ∀ headers, elf.programHeaders = some headers → ∀ p ∈ headers,
    p.type = headerLoadable → (Segment.ofHeader p).Valid fileLength

theorem forall_mem_loadable {elf : Elf.File} {P : Segment → Prop} :
    (∀ s ∈ elf.loadable, P s) ↔
      ∀ headers, elf.programHeaders = some headers → ∀ p ∈ headers, p.type = headerLoadable →
        P (.ofHeader p) := by
  cases table : elf.programHeaders with
  | none => simp [loadable, table]
  | some headers =>
    simp only [loadable, table, Option.getD_some, List.forall_mem_map, List.mem_filter,
      decide_eq_true_eq, and_imp, Option.some.injEq, forall_eq']

theorem hasTable_iff {elf : Elf.File} :
    elf.programHeaders.getD [] ≠ [] ↔
      ∃ headers, elf.programHeaders = some headers ∧ headers ≠ [] := by
  cases table : elf.programHeaders with
  | none => simp
  | some headers => simp

theorem violations_eq_nil_iff {fileLength : Nat} {elf : Elf.File} :
    elf.violations fileLength = [] ↔ elf.Acceptable fileLength := by
  simp only [violations, List.append_eq_nil_iff, violationIf_eq_nil_iff, ne_eq, Decidable.not_not,
    List.flatMap_eq_nil_iff, Segment.violations_eq_nil_iff, forall_mem_loadable]
  constructor
  · rintro ⟨⟨⟨⟨elf64, x86_64⟩, executable⟩, table⟩, entries⟩
    exact ⟨elf64, x86_64, executable, hasTable_iff.mp table, entries⟩
  · rintro ⟨elf64, x86_64, executable, table, entries⟩
    exact ⟨⟨⟨⟨elf64, x86_64⟩, executable⟩, hasTable_iff.mpr table⟩, entries⟩

/-- Two files that differ at most in entries that are not loadable. -/
structure AgreesOnLoadable (elf other : Elf.File) : Prop where
  fileClass : elf.fileClass = other.fileClass
  machine : elf.machine = other.machine
  type : elf.type = other.type
  entry : elf.entry = other.entry
  table : elf.programHeaders.getD [] = [] ↔ other.programHeaders.getD [] = []
  loadable : elf.loadable = other.loadable

theorem AgreesOnLoadable.violations_eq {elf other : Elf.File} (agrees : elf.AgreesOnLoadable other)
    (fileLength : Nat) : elf.violations fileLength = other.violations fileLength := by
  simp only [violations, violationIf, agrees.fileClass, agrees.machine, agrees.type, agrees.table,
    agrees.loadable]

end Elf.File

namespace Executable

theorem parse_eq_firstOf {file : Bytes} {elf : Elf.File} (read : Elf.parse? file = some elf) :
    parse file = do
      firstOf (elf.violations file.length)
      return ⟨file, elf.entry, elf.loadable⟩ := by
  rw [parse_of_elf read, forM_check_eq_firstOf, Elf.File.violations]
  simp only [List.append_assoc, firstOf_violationIf_append]
  repeat' split
  all_goals rfl

theorem acceptable_of_parse {file : Bytes} {kernel : Executable} {elf : Elf.File}
    (parsed : parse file = .ok kernel) (read : Elf.parse? file = some elf) :
    elf.Acceptable file.length := by
  rw [parse_eq_firstOf read] at parsed
  cases told : firstOf (elf.violations file.length) with
  | error rejection => rw [told] at parsed; cases parsed
  | ok _ => exact Elf.File.violations_eq_nil_iff.mp (firstOf_eq_ok_iff.mp told)

/-- The part of a kernel that does not depend on what else is in its file. -/
def outline (kernel : Executable) : UInt64 × List Segment := (kernel.entry, kernel.segments)

/-- **A file is accepted exactly if it breaks no rule, and else rejected for the first one that it
breaks.** Entries that are not loadable make no difference to either. -/
theorem parse_exact (file : Bytes) :
    (Elf.parse? file = none → parse file = .error .malformed) ∧
    ∀ elf, Elf.parse? file = some elf →
      ((∃ kernel, parse file = .ok kernel) ↔ elf.Acceptable file.length) ∧
      (∀ kernel, parse file = .ok kernel → kernel = ⟨file, elf.entry, elf.loadable⟩) ∧
      (∀ rejection, parse file = .error rejection ↔
        (elf.violations file.length).head? = some rejection) ∧
      ∀ other elf', Elf.parse? other = some elf' → other.length = file.length →
        elf.AgreesOnLoadable elf' → (parse other).map outline = (parse file).map outline := by
  constructor
  · intro unread
    unfold parse
    rw [unread]
    rfl
  intro elf read
  have parsed := parse_eq_firstOf read
  refine ⟨?_, ?_, ?_, ?_⟩
  · rw [parsed, ← Elf.File.violations_eq_nil_iff, ← firstOf_eq_ok_iff]
    cases firstOf (elf.violations file.length) with
    | error rejection => exact ⟨fun ⟨_, accepted⟩ => (nomatch accepted), nofun⟩
    | ok _ => exact ⟨fun _ => rfl, fun _ => ⟨_, rfl⟩⟩
  · intro kernel accepted
    rw [parsed] at accepted
    cases told : firstOf (elf.violations file.length) with
    | error rejection => rw [told] at accepted; cases accepted
    | ok _ => rw [told] at accepted; cases accepted; rfl
  · intro rejection
    rw [parsed, ← firstOf_eq_error_iff]
    cases firstOf (elf.violations file.length) with
    | error first => exact ⟨by rintro ⟨⟩; rfl, by rintro ⟨⟩; rfl⟩
    | ok _ => exact ⟨nofun, nofun⟩
  · intro other elf' read' sameLength agrees
    rw [parsed, parse_eq_firstOf read', sameLength, ← agrees.violations_eq]
    cases firstOf (elf.violations file.length) with
    | error rejection => rfl
    | ok _ =>
      change Except.ok (elf'.entry, elf'.loadable) = Except.ok (elf.entry, elf.loadable)
      rw [agrees.entry, agrees.loadable]

/-- The second entry passes both the end of the address space and that of the file, and the third
has more bytes in the file than in memory. -/
def overreaching : Bytes :=
  image 0x1000 [⟨0, 0x1000, 1, 1⟩, ⟨0x10000, 0xfffffffffffffff0, 16, 32⟩, ⟨0, 0x2000, 2, 1⟩] []

theorem parse_overreaching :
    ∃ elf, Elf.parse? overreaching = some elf ∧
      (elf.violations overreaching.length).length = 3 ∧ ¬ elf.Acceptable overreaching.length ∧
      parse overreaching = .error (.segmentWrapsAround 0xfffffffffffffff0) := by
  have violated : (Elf.parse? overreaching).map (Elf.File.violations overreaching.length) =
      some [.segmentWrapsAround 0xfffffffffffffff0, .segmentOutsideFile 0xfffffffffffffff0,
        .fileSizeExceedsMemorySize 0x2000] := by
    decide +kernel
  obtain ⟨elf, read, violations⟩ := Option.map_eq_some_iff.mp violated
  obtain ⟨accepted, _, rejected, _⟩ := (parse_exact overreaching).2 elf read
  have told := (rejected _).mpr (by rw [violations]; rfl)
  refine ⟨elf, read, by rw [violations]; rfl, ?_, told⟩
  rw [← accepted, told]
  exact nofun

end Executable

end EfiLoader.Kernel
