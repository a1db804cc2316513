import EfiLoader.Kernel.Executable
import Mathlib.Data.List.Induction
import Mathlib.Order.Bounds.Basic

/-!
Bounds of accepted kernels. The checks that every segment passed carry all arithmetic after them:

* `parse_reads`: the segments of an accepted file lie in the file and in the address space;
* `cover_enclosing`: their span is found without passing the word, and encloses them all;
* `pages_reaching`: the pages of that span reach its last address;
* `store?_of_enclosed`: so every segment has its place in the memory of these pages.
-/

namespace EfiLoader.Kernel

variable {ε : Type}

/-- The segment lies in a file of that length and in the address space. -/
structure Segment.Valid (fileLength : Nat) (s : Segment) : Prop where
  sizes : s.fileSize ≤ s.memorySize
  memory : s.memoryEnd < wordLimit
  file : s.fileEnd ≤ fileLength

theorem Segment.check_eq_ok_iff {fileLength : Nat} {s : Segment} :
    s.check fileLength = .ok () ↔ s.Valid fileLength := by
  unfold Segment.check
  constructor
  · intro passed
    by_cases sizes : s.memorySize < s.fileSize
    · rw [if_pos sizes] at passed; cases passed
    by_cases memory : wordLimit ≤ s.memoryEnd
    · rw [if_neg sizes, if_pos memory] at passed; cases passed
    by_cases file : fileLength < s.fileEnd
    · rw [if_neg sizes, if_neg memory, if_pos file] at passed; cases passed
    · exact ⟨UInt64.not_lt.mp sizes, Nat.not_le.mp memory, Nat.not_lt.mp file⟩
  · rintro ⟨sizes, memory, file⟩
    rw [if_neg (UInt64.not_lt.mpr sizes), if_neg (Nat.not_le.mpr memory),
      if_neg (Nat.not_lt.mpr file)]

theorem forM_check_eq_ok {fileLength : Nat} {segments : List Segment}
    (passed : segments.forM (Segment.check fileLength) = .ok ()) :
    ∀ s ∈ segments, s.Valid fileLength := by
  induction segments with
  | nil => intro s hs; cases hs
  | cons first rest ih =>
    change first.check fileLength >>= (fun _ => rest.forM (Segment.check fileLength)) = .ok ()
      at passed
    cases checked : first.check fileLength with
    | error rejection => rw [checked] at passed; cases passed
    | ok _ =>
      rw [checked] at passed
      intro s hs
      rcases List.mem_cons.mp hs with rfl | hs
      · exact Segment.check_eq_ok_iff.mp checked
      · exact ih passed s hs

/-- The loadable entries of a file in the order of its program header table. -/
def Elf.File.loadable (elf : Elf.File) : List Segment :=
  ((elf.programHeaders.getD []).filter (·.type = headerLoadable)).map Segment.ofHeader

namespace Executable

/-- The checks of a file that could be read, in their order. -/
theorem parse_of_elf {file : Bytes} {elf : Elf.File} (read : Elf.parse? file = some elf) :
    parse file =
      if elf.fileClass ≠ .elf64 then .error .notElf64
      else if elf.machine ≠ machineX86_64 then .error .notX86_64
      else if elf.type ≠ typeExecutable then .error .notExecutable
      else if elf.programHeaders.getD [] = [] then .error .noProgramHeaders
      else do
        elf.loadable.forM (Segment.check file.length)
        return ⟨file, elf.entry, elf.loadable⟩ := by
  unfold parse
  rw [read]
  by_cases hclass : elf.fileClass ≠ .elf64
  · simp only [if_pos hclass]; rfl
  by_cases hmachine : elf.machine ≠ machineX86_64
  · simp only [if_neg hclass, if_pos hmachine]; rfl
  by_cases htype : elf.type ≠ typeExecutable
  · simp only [if_neg hclass, if_neg hmachine, if_pos htype]; rfl
  by_cases hheaders : elf.programHeaders.getD [] = []
  · simp only [if_neg hclass, if_neg hmachine, if_neg htype, if_pos hheaders]; rfl
  · simp only [if_neg hclass, if_neg hmachine, if_neg htype, if_neg hheaders]; rfl

/-- What a kernel is to the file that it was read from. -/
structure Reads (file : Bytes) (elf : Elf.File) (kernel : Executable) : Prop where
  elf_eq : Elf.parse? file = some elf
  file_eq : kernel.file = file
  entry_eq : kernel.entry = elf.entry
  segments_eq : kernel.segments = elf.loadable
  valid : ∀ s ∈ kernel.segments, s.Valid file.length

theorem parse_reads {file : Bytes} {kernel : Executable} (parsed : parse file = .ok kernel) :
    ∃ elf, kernel.Reads file elf := by
  cases read : Elf.parse? file with
  | none => unfold parse at parsed; rw [read] at parsed; cases parsed
  | some elf =>
    rw [parse_of_elf read] at parsed
    split at parsed
    · cases parsed
    split at parsed
    · cases parsed
    split at parsed
    · cases parsed
    split at parsed
    · cases parsed
    cases checked : elf.loadable.forM (Segment.check file.length) with
    | error rejection => rw [checked] at parsed; cases parsed
    | ok _ =>
      rw [checked] at parsed
      cases parsed
      exact ⟨elf, read, rfl, rfl, rfl, forM_check_eq_ok checked⟩

end Executable

namespace Span

/-- The memory of the segment lies in the span. -/
structure Encloses (span : Span) (s : Segment) : Prop where
  first_le : span.first ≤ s.address
  le_last : s.memoryEnd ≤ span.last.toNat

/-- One step of `cover`. -/
def extend (joined : Option Span) (s : Segment) : Outcome ε (Option Span) := do
  let own ← ofSegment s
  return some (match joined with
    | none => own
    | some span => span.join own)

/-- The least span of the segments: it starts where the first of them in memory starts, and ends
where the last one ends. -/
structure Tight (span : Span) (segments : List Segment) : Prop where
  first : IsLeast {a | ∃ s ∈ segments, s.address.toNat = a} span.first.toNat
  last : IsGreatest {a | ∃ s ∈ segments, s.memoryEnd = a} span.last.toNat

theorem Tight.encloses {span : Span} {segments : List Segment} (tight : span.Tight segments) :
    ∀ s ∈ segments, span.Encloses s := fun s hs =>
  ⟨UInt64.le_iff_toNat_le.mpr (tight.first.2 ⟨s, hs, rfl⟩), tight.last.2 ⟨s, hs, rfl⟩⟩

theorem toNat_first_join (a b : Span) :
    (a.join b).first.toNat = min a.first.toNat b.first.toNat := by
  change (if a.first ≤ b.first then a.first else b.first).toNat = _
  split <;> rename_i order <;> rw [UInt64.le_iff_toNat_le] at order <;> omega

theorem toNat_last_join (a b : Span) : (a.join b).last.toNat = max a.last.toNat b.last.toNat := by
  change (if a.last ≤ b.last then b.last else a.last).toNat = _
  split <;> rename_i order <;> rw [UInt64.le_iff_toNat_le] at order <;> omega

theorem Tight.join {a b : Span} {segments others : List Segment} (tight : a.Tight segments)
    (othersTight : b.Tight others) : (a.join b).Tight (segments ++ others) where
  first := by
    have both := tight.first.union othersTight.first
    rw [toNat_first_join]
    simpa [← Set.ofPred_or, ← exists_or, ← or_and_right] using both
  last := by
    have both := tight.last.union othersTight.last
    rw [toNat_last_join]
    simpa [← Set.ofPred_or, ← exists_or, ← or_and_right] using both

theorem ofSegment_tight {s : Segment} (memory : s.memoryEnd < wordLimit) :
    ∃ own, (ofSegment s : Outcome ε Span) = .ok own ∧ own.Tight [s] := by
  have last : (s.address + s.memorySize).toNat = s.memoryEnd := by
    rw [UInt64.toNat_add]
    exact Nat.mod_eq_of_lt memory
  refine ⟨⟨s.address, s.address + s.memorySize⟩, if_pos memory, ?_, ?_⟩
  · simp [isLeast_singleton]
  · simp [last, isGreatest_singleton]

theorem cover_concat (segments : List Segment) (s : Segment) :
    (cover (segments ++ [s]) : Outcome ε (Option Span)) = cover segments >>= (extend · s) := by
  change List.foldlM extend none (segments ++ [s]) = _
  rw [List.foldlM_append]
  exact bind_congr fun joined => bind_pure _

/-- The span that is found is the least one. -/
theorem cover_tight {segments : List Segment} (memory : ∀ s ∈ segments, s.memoryEnd < wordLimit)
    (nonempty : segments ≠ []) :
    ∃ span, (cover segments : Outcome ε (Option Span)) = .ok (some span) ∧
      span.Tight segments := by
  induction segments using List.reverseRecOn with
  | nil => exact absurd rfl nonempty
  | append_singleton earlier s ih =>
    obtain ⟨own, found, tight⟩ := ofSegment_tight (ε := ε) (memory s (by simp))
    rw [cover_concat]
    by_cases alone : earlier = []
    · subst alone
      refine ⟨own, ?_, tight⟩
      change extend none s = _
      rw [extend, found]
      rfl
    · obtain ⟨span, covered, earlierTight⟩ := ih (fun t ht => memory t (by simp [ht])) alone
      refine ⟨span.join own, ?_, earlierTight.join tight⟩
      rw [covered]
      change extend (some span) s = _
      rw [extend, found]
      rfl

/-- Segments in the address space have a span, unless there are none. -/
theorem cover_enclosing {segments : List Segment}
    (memory : ∀ s ∈ segments, s.memoryEnd < wordLimit) :
    (segments = [] ∧ (cover segments : Outcome ε (Option Span)) = .ok none) ∨
      ∃ span, (cover segments : Outcome ε (Option Span)) = .ok (some span) ∧ segments ≠ [] ∧
        ∀ s ∈ segments, span.Encloses s := by
  by_cases empty : segments = []
  · subst empty
    exact .inl ⟨rfl, rfl⟩
  · obtain ⟨span, covered, tight⟩ := cover_tight memory empty
    exact .inr ⟨span, covered, empty, tight.encloses⟩

theorem Encloses.first_le_last {span : Span} {s : Segment} (encloses : span.Encloses s) :
    span.first ≤ span.last := by
  have first := UInt64.le_iff_toNat_le.mp encloses.first_le
  have last := encloses.le_last
  rw [Segment.memoryEnd] at last
  rw [UInt64.le_iff_toNat_le]
  omega

theorem toNat_base (span : Span) : span.base.toNat = span.first.toNat / pageSize * pageSize := by
  have bound := span.first.toNat_lt
  rw [base, UInt64.toNat_mul, UInt64.toNat_div]
  exact Nat.mod_eq_of_lt (Nat.lt_of_le_of_lt (Nat.div_mul_le_self _ _) bound)

theorem base_le_first (span : Span) : span.base.toNat ≤ span.first.toNat := by
  rw [toNat_base]
  exact Nat.div_mul_le_self _ _

/-- The pages of a span are the fewest that reach its last address. -/
theorem pages_least {span : Span} (ordered : span.first ≤ span.last) :
    ∃ pages, (span.pages : Outcome ε Nat) = .ok pages ∧
      IsLeast {n | span.last.toNat ≤ span.base.toNat + n * pageSize} pages := by
  have base := base_le_first span
  have last := UInt64.le_iff_toNat_le.mp ordered
  refine ⟨_, if_pos (UInt64.le_iff_toNat_le.mpr (Nat.le_trans base last)), ?_, ?_⟩
  · simp only [Set.mem_ofPred_eq, pageSize]
    omega
  · intro n reaching
    simp only [Set.mem_ofPred_eq, pageSize] at reaching ⊢
    omega

theorem pages_reaching {span : Span} (ordered : span.first ≤ span.last) :
    ∃ pages, (span.pages : Outcome ε Nat) = .ok pages ∧
      span.last.toNat ≤ span.base.toNat + pages * pageSize := by
  obtain ⟨pages, counted, least⟩ := pages_least ordered
  exact ⟨pages, counted, least.1⟩

end Span

/-- A segment in the span of a kernel fits into the span's pages. -/
theorem Segment.store?_of_enclosed {file : Bytes} {s : Segment} {span : Span} {pages : Nat}
    (valid : s.Valid file.length) (encloses : span.Encloses s)
    (reaching : span.last.toNat ≤ span.base.toNat + pages * pageSize) :
    s.store? file span.base (pages * pageSize) =
      some (s.address.toNat - span.base.toNat, s.contents file) := by
  have base := Span.base_le_first span
  have first := UInt64.le_iff_toNat_le.mp encloses.first_le
  have last := encloses.le_last
  rw [memoryEnd] at last
  refine if_pos ⟨valid.file, valid.sizes, ?_, by omega⟩
  exact UInt64.le_iff_toNat_le.mpr (Nat.le_trans base first)

end EfiLoader.Kernel
