import EfiLoader.Proofs.Kernel.Acceptance
import EfiLoader.Proofs.Kernel.Copying
import EfiLoader.Proofs.Kernel.Cover
import Mathlib.Data.List.Pairwise

/-!
Kernel files that differ in the order of their program header tables. `placing_reordered`: if no two
loadable segments share memory and none has its bytes from the table, the order makes no difference
to where the kernel goes, what it asks for and what it leaves in memory. It makes none to where the
kernel is entered if the table lies behind the entry point in the file header.
-/

namespace EfiLoader

namespace Memory

/-- Stores to different addresses can change places. -/
theorem store_comm (memory : Memory) {address address' : Nat} {data data' : Bytes}
    (disjoint : ∀ a, address ≤ a → a < address + data.length →
      ¬ (address' ≤ a ∧ a < address' + data'.length)) :
    (memory.store address data).store address' data' =
      (memory.store address' data').store address data := by
  funext a
  by_cases first : address ≤ a ∧ a < address + data.length
  · have second := disjoint a first.1 first.2
    have shown := @store_inside memory address data a first.1 first.2
    have shownLast := @store_inside (memory.store address' data') address data a first.1 first.2
    rw [store_outside (by omega)]
    exact Option.some.inj (shown.symm.trans shownLast)
  · rw [@store_outside (memory.store address' data') address data a (by omega)]
    by_cases second : address' ≤ a ∧ a < address' + data'.length
    · have shown := @store_inside memory address' data' a second.1 second.2
      have shownLast := @store_inside (memory.store address data) address' data' a second.1 second.2
      exact Option.some.inj (shownLast.symm.trans shown)
    · rw [store_outside (by omega), store_outside (by omega), store_outside (by omega)]

/-- What two exchanges do to memory does not depend on which is first. -/
def Commute (e e' : Exchange Services) : Prop :=
  ∀ memory : Memory,
    (memory.apply e.request).apply e'.request = (memory.apply e'.request).apply e.request

instance : Std.Symm Commute := ⟨fun _ _ commute memory => (commute memory).symm⟩

theorem after_perm {h h' : List (Exchange Services)} (perm : h'.Perm h)
    (commute : h.Pairwise Commute) (memory : Memory) : memory.after h' = memory.after h := by
  have anyTwo := commute.forall_of_forall fun _ _ _ => rfl
  exact perm.foldl_eq' (fun e member e' member' memory =>
    anyTwo (perm.mem_iff.mp member) (perm.mem_iff.mp member') memory) memory

end Memory

namespace Kernel

open Boot (Cause)

namespace Elf

/-- How many program headers the file says it has. -/
def programHeaderCount? (layout : Layout) (file : Bytes) : Option Nat :=
  let count := file.numberAt 2 (layout.programEntrySizeAt + 2)
  if count = extendedCount then
    (firstSection? layout file (file.numberAt layout.wordSize layout.sectionTableAt)).map
      (·.numberAt 4 layout.sectionInfoAt)
  else some count

/-- Where the program header table is, with the bytes of its entries; nothing if there is none. -/
def programTable? (layout : Layout) (file : Bytes) : Option (Nat × List Bytes) := do
  let offset := file.numberAt layout.wordSize layout.programTableAt
  if offset = 0 then none
  else
    let count ← programHeaderCount? layout file
    let table ← table? file offset count layout.programHeaderSize
    some (offset, table)

theorem programHeaders?_eq (layout : Layout) (file : Bytes) :
    programHeaders? layout file =
      if file.numberAt layout.wordSize layout.programTableAt = 0 then some none
      else if file.numberAt 2 layout.programEntrySizeAt ≠ layout.programHeaderSize then none
      else (programTable? layout file).map fun placed =>
        some (placed.2.map (programHeader layout)) := by
  by_cases named : file.numberAt layout.wordSize layout.programTableAt = 0
  · simp only [programHeaders?, if_pos named]
  have counting : programHeaders? layout file = (programHeaderCount? layout file).bind fun count =>
      if file.numberAt 2 layout.programEntrySizeAt ≠ layout.programHeaderSize then none
      else (table? file (file.numberAt layout.wordSize layout.programTableAt) count
        (file.numberAt 2 layout.programEntrySizeAt)).bind fun table =>
          some (some (table.map (programHeader layout))) := by
    simp only [programHeaders?, programHeaderCount?, if_neg named]
    split <;> rfl
  simp only [counting, programTable?, if_neg named]
  split
  · exact Option.bind_fun_none _
  · rename_i size
    rw [Decidable.not_not.mp size]
    simp only [Option.bind_eq_bind, Option.map_bind, Function.comp_def, Option.map_some]

theorem exists_programTable {layout : Layout} {file : Bytes} {headers : List ProgramHeader}
    (read : programHeaders? layout file = some (some headers)) :
    ∃ offset table, programTable? layout file = some (offset, table) ∧
      headers = table.map (programHeader layout) := by
  rw [programHeaders?_eq] at read
  split at read
  · cases read
  split at read
  · cases read
  obtain ⟨⟨offset, table⟩, found, named⟩ := Option.map_eq_some_iff.mp read
  exact ⟨offset, table, found, (Option.some.inj named).symm⟩

theorem of_parse? {file : Bytes} {elf : File} (read : parse? file = some elf) :
    elf.entry =
        .ofNat (file.numberAt elf.fileClass.layout.wordSize elf.fileClass.layout.entryAt) ∧
      programHeaders? elf.fileClass.layout file = some elf.programHeaders := by
  obtain ⟨fileClass, _, read⟩ := Option.bind_eq_some_iff.mp read
  dsimp only at read
  split at read
  · cases read
  obtain ⟨headers, table, read⟩ := Option.bind_eq_some_iff.mp read
  cases read
  exact ⟨rfl, table⟩

/-- The files differ only in the order of the entries of their program header tables, `table` and
`table'`. Nothing keeps `table` from lying over a part of the file header, which tells the entry
point and where the other table is. -/
structure Reordered (file other : Bytes) (offset : Nat) (table table' : List Bytes) : Prop where
  ofFile : programTable? layout64 file = some (offset, table)
  ofOther : ∃ offset', programTable? layout64 other = some (offset', table')
  entries : table'.Perm table
  before : other.take offset = file.take offset
  behind : other.drop (offset + table.length * layout64.programHeaderSize) =
    file.drop (offset + table.length * layout64.programHeaderSize)

namespace Reordered

variable {file other : Bytes} {offset : Nat} {table table' : List Bytes}

theorem numberAt_eq (reordered : Reordered file other offset table table') {i width : Nat}
    (early : i + width ≤ offset) : other.numberAt width i = file.numberAt width i := by
  rw [Bytes.numberAt, Bytes.numberAt, ← Bytes.slice_take other early, reordered.before,
    Bytes.slice_take file early]

theorem getElem?_eq (reordered : Reordered file other offset table table') {i : Nat}
    (outside : i < offset ∨ offset + table.length * layout64.programHeaderSize ≤ i) :
    other[i]? = file[i]? := by
  rcases outside with early | late
  · rw [← List.getElem?_take_of_lt early, reordered.before, List.getElem?_take_of_lt early]
  · have same := congrArg
      (·[i - (offset + table.length * layout64.programHeaderSize)]?) reordered.behind
    simpa only [List.getElem?_drop, Nat.add_sub_cancel' late] using same

end Reordered

end Elf

namespace Executable

/-- The loadable ones of these entries of a program header table. -/
def loadableOf (table : List Bytes) : List Segment :=
  ((table.map (Elf.programHeader Elf.layout64)).filter (·.type = headerLoadable)).map
    Segment.ofHeader

theorem exists_table {file : Bytes} {kernel : Executable} (parsed : parse file = .ok kernel) :
    kernel.entry = .ofNat (file.numberAt Elf.layout64.wordSize Elf.layout64.entryAt) ∧
      ∃ offset table, Elf.programTable? Elf.layout64 file = some (offset, table) ∧
        kernel.segments = loadableOf table := by
  obtain ⟨elf, reads⟩ := parse_reads parsed
  have acceptable := acceptable_of_parse parsed reads.elf_eq
  obtain ⟨entry, named⟩ := Elf.of_parse? reads.elf_eq
  rw [acceptable.elf64] at entry named
  obtain ⟨headers, listed, _⟩ := acceptable.table
  rw [listed] at named
  obtain ⟨offset, table, found, rfl⟩ := Elf.exists_programTable named
  refine ⟨reads.entry_eq.trans entry, offset, table, found, ?_⟩
  rw [reads.segments_eq, Elf.File.loadable, listed]
  rfl

end Executable

/-- The byte of the file at that place is one of the segment's. -/
def Segment.Reads (s : Segment) (i : Nat) : Prop := s.fileOffset.toNat ≤ i ∧ i < s.fileEnd

/-- No address is one of both segments. -/
def Segment.DisjointFrom (s t : Segment) : Prop := ∀ a, s.Covers a → ¬ t.Covers a

/-- The kernels have the same segments with the same bytes, but perhaps in another order. -/
structure Executable.Permuted (kernel other : Executable) : Prop where
  segments : other.segments.Perm kernel.segments
  contents : ∀ s ∈ kernel.segments, s.contents other.file = s.contents kernel.file

namespace Elf.Reordered

variable {file other : Bytes} {kernel kernel' : Executable} {offset : Nat}
  {table table' : List Bytes}

theorem entry_eq (reordered : Elf.Reordered file other offset table table')
    (parsed : Executable.parse file = .ok kernel) (reparsed : Executable.parse other = .ok kernel')
    (behindEntry : Elf.layout64.entryAt + Elf.layout64.wordSize ≤ offset) :
    kernel'.entry = kernel.entry := by
  rw [(Executable.exists_table parsed).1, (Executable.exists_table reparsed).1,
    reordered.numberAt_eq behindEntry]

theorem permuted (reordered : Elf.Reordered file other offset table table')
    (parsed : Executable.parse file = .ok kernel) (reparsed : Executable.parse other = .ok kernel')
    (apart : ∀ s ∈ kernel.segments, ∀ i, s.Reads i →
      i < offset ∨ offset + table.length * Elf.layout64.programHeaderSize ≤ i) :
    kernel.Permuted kernel' := by
  obtain ⟨_, _, _, found, segments⟩ := Executable.exists_table parsed
  obtain ⟨_, _, _, found', segments'⟩ := Executable.exists_table reparsed
  cases reordered.ofFile.symm.trans found
  obtain ⟨_, listed⟩ := reordered.ofOther
  cases listed.symm.trans found'
  obtain ⟨_, reads⟩ := Executable.parse_reads parsed
  obtain ⟨_, reads'⟩ := Executable.parse_reads reparsed
  refine ⟨?_, fun s member => ?_⟩
  · rw [segments, segments']
    exact ((reordered.entries.map _).filter _).map _
  · rw [reads.file_eq, reads'.file_eq, Segment.contents, Segment.contents,
      Bytes.slice_congr fun i first last =>
        reordered.getElem?_eq (apart s member i ⟨first, last⟩)]

end Elf.Reordered

namespace Segment

variable {file : Bytes} {base : UInt64} {s t : Segment}

/-- One of two disjoint segments is empty, or they lie one behind the other. -/
theorem DisjointFrom.apart (disjoint : s.DisjointFrom t) :
    s.memorySize.toNat = 0 ∨ t.memorySize.toNat = 0 ∨ s.memoryEnd ≤ t.address.toNat ∨
      t.memoryEnd ≤ s.address.toNat := by
  by_contra overlap
  have first := disjoint (max s.address.toNat t.address.toNat)
  simp only [Covers, memoryEnd] at first overlap
  omega

/-- Wherever the memory is, also across the end of the address space, disjoint segments are stored
to different addresses. -/
theorem stored_commute (destination : UInt64) (valid : s.Valid file.length)
    (valid' : t.Valid file.length) (above : base ≤ s.address) (above' : base ≤ t.address)
    (disjoint : s.DisjointFrom t) :
    Memory.Commute (s.stored file base destination) (t.stored file base destination) := by
  intro memory
  apply Memory.store_comm
  have apart := disjoint.apart
  have memory := valid.memory
  have memory' := valid'.memory
  rw [UInt64.le_iff_toNat_le] at above above'
  rw [length_contents valid, length_contents valid', UInt64.toNat_add, UInt64.toNat_add,
    UInt64.toNat_ofNat', UInt64.toNat_ofNat']
  simp only [memoryEnd, wordLimit] at apart memory memory'
  have bound := destination.toNat_lt
  omega

end Segment

namespace Executable.Permuted

variable {ε : Type} {kernel other : Executable} {base : UInt64}

theorem after_stored (permuted : kernel.Permuted other)
    (valid : ∀ s ∈ kernel.segments, s.Valid kernel.file.length)
    (disjoint : kernel.segments.Pairwise Segment.DisjointFrom)
    (above : ∀ s ∈ kernel.segments, base ≤ s.address) (destination : UInt64) (memory : Memory) :
    memory.after (other.segments.map (Segment.stored other.file base destination)) =
      memory.after (kernel.segments.map (Segment.stored kernel.file base destination)) := by
  have stored : kernel.segments.map (Segment.stored other.file base destination) =
      kernel.segments.map (Segment.stored kernel.file base destination) :=
    List.map_congr_left fun s member => by
      rw [Segment.stored, Segment.stored, permuted.contents s member]
  rw [← stored]
  apply Memory.after_perm (permuted.segments.map _)
  rw [stored, List.pairwise_map]
  exact disjoint.imp_of_mem fun member member' apart =>
    Segment.stored_commute destination (valid _ member) (valid _ member') (above _ member)
      (above _ member') apart

/-- Whether a buffer has room for the segments, and what it holds if it does, does not depend on
their order. -/
theorem place_eq (permuted : kernel.Permuted other)
    (valid : ∀ s ∈ kernel.segments, s.Valid kernel.file.length)
    (valid' : ∀ s ∈ other.segments, s.Valid other.file.length)
    (disjoint : kernel.segments.Pairwise Segment.DisjointFrom) (span : Span) (buffer : Bytes) :
    (other.place span buffer : Bytes × Outcome ε Unit).2 = (kernel.place span buffer).2 ∧
      ((kernel.place span buffer : Bytes × Outcome ε Unit).2 ≠ .crash →
        (other.place span buffer : Bytes × Outcome ε Unit) = kernel.place span buffer) := by
  have copied : Copying kernel.file span.base kernel.segments buffer
      (kernel.place span buffer : Bytes × Outcome ε Unit) := copying valid buffer
  have copied' : Copying other.file span.base other.segments buffer
      (other.place span buffer : Bytes × Outcome ε Unit) := copying valid' buffer
  generalize (kernel.place span buffer : Bytes × Outcome ε Unit) = placed at copied ⊢
  generalize (other.place span buffer : Bytes × Outcome ε Unit) = placed' at copied' ⊢
  cases copied with
  | whole inside stores =>
    cases copied' with
    | whole _ stores' =>
      have same := stores'.stored fun _ => 0
      rw [permuted.after_stored valid disjoint
        (fun s member => UInt64.not_lt.mp (not_or.mp (inside s member)).1), ← stores.stored] at same
      rw [Memory.store_inj (stores'.length.trans stores.length.symm) same]
      exact ⟨rfl, fun _ => rfl⟩
    | cut _ s _ split _ oversteps _ =>
      have member : s ∈ kernel.segments := permuted.segments.mem_iff.mp (by simp [split])
      exact absurd oversteps (inside s member)
  | cut _ s _ split _ oversteps _ =>
    cases copied' with
    | whole inside _ =>
      have member : s ∈ other.segments := permuted.segments.mem_iff.mpr (by simp [split])
      exact absurd oversteps (inside s member)
    | cut => exact ⟨rfl, fun returned => absurd rfl returned⟩

end Executable.Permuted

section Replies

variable {file : Bytes} {kernel : Executable} {span : Span} {pages : Nat}
  {h : List (Exchange Services)} {o : Outcome Cause Loaded}

theorem Fits.unique {kernel' : Executable} {span' : Span} {pages' : Nat}
    (fits : Fits file kernel span pages) (other : Fits file kernel' span' pages') :
    kernel' = kernel ∧ span' = span ∧ pages' = pages := by
  cases other.parsed.symm.trans fits.parsed
  cases other.spanned.symm.trans fits.spanned
  cases other.counted.symm.trans fits.counted
  exact ⟨rfl, rfl, rfl⟩

/-- What follows the reply to the request for the pages: stores, and how it ends. -/
def afterReply (file : Bytes) (kernel : Executable) (span : Span) (pages : Nat) :
    Outcome Status UInt64 → List (Exchange Services) × Outcome Cause Loaded
  | .ok destination =>
    if pages * pageSize < wordLimit then
      (kernel.segments.map (Segment.stored file span.base destination), .ok ⟨kernel.entry, span⟩)
    else ([], .crash)
  | .error (.failed status) => ([], .fail (.addressRangeUnavailable status))
  | .error .crashed => ([], .crash)

theorem Placing.of_fits (placing : Placing file h o) (fits : Fits file kernel span pages) :
    ∃ reply rest, h = ⟨.allocatePages span.base pages, reply⟩ :: rest ∧
      pageRequests h = [(span.base, pages)] ∧ o = (afterReply file kernel span pages reply).2 ∧
      ∀ memory : Memory,
        memory.after h = memory.after (afterReply file kernel span pages reply).1 := by
  cases placing with
  | rejected rejection rejected => cases rejected.symm.trans fits.parsed
  | nothing kernel' parsed nil =>
    cases parsed.symm.trans fits.parsed
    exact absurd nil fits.segments_ne_nil
  | grantCrashed fits' =>
    obtain ⟨rfl, rfl, rfl⟩ := fits.unique fits'
    exact ⟨_, _, rfl, rfl, rfl, fun _ => rfl⟩
  | refused fits' status record =>
    obtain ⟨rfl, rfl, rfl⟩ := fits.unique fits'
    exact ⟨_, _, rfl, rfl, rfl, fun _ => rfl⟩
  | tooLarge fits' destination large =>
    obtain ⟨rfl, rfl, rfl⟩ := fits.unique fits'
    refine ⟨_, _, rfl, rfl, ?_, fun memory => ?_⟩
    · rw [afterReply, if_neg (Nat.not_lt.mpr large)]
    · rw [afterReply, if_neg (Nat.not_lt.mpr large)]
      rfl
  | placed fits' destination record bounded =>
    obtain ⟨rfl, rfl, rfl⟩ := fits.unique fits'
    refine ⟨_, _, rfl, ?_, ?_, fun memory => ?_⟩
    · simp [pageRequests_stored, pagesAsked]
    · rw [afterReply, if_pos bounded]
    · rw [afterReply, if_pos bounded, Memory.after_cons, Memory.after_append]
      rfl

theorem Placing.of_nil (placing : Placing file h o) (parsed : Executable.parse file = .ok kernel)
    (nil : kernel.segments = []) : h = [] ∧ o = .fail .noLoadSegments := by
  have unfit {kernel' : Executable} {span : Span} {pages : Nat}
      (fits : Fits file kernel' span pages) : False := by
    cases fits.parsed.symm.trans parsed
    exact fits.segments_ne_nil nil
  cases placing with
  | nothing => exact ⟨rfl, rfl⟩
  | rejected rejection rejected => cases rejected.symm.trans parsed
  | grantCrashed fits => exact (unfit fits).elim
  | refused fits => exact (unfit fits).elim
  | tooLarge fits => exact (unfit fits).elim
  | placed fits => exact (unfit fits).elim

namespace Executable.Permuted

variable {other : Executable}

/-- What follows the same reply is the same, but for where the kernel is entered. -/
theorem afterReply_eq (permuted : kernel.Permuted other) (fits : Fits kernel.file kernel span pages)
    (disjoint : kernel.segments.Pairwise Segment.DisjointFrom) (reply : Outcome Status UInt64) :
    (afterReply other.file other span pages reply).2.map Loaded.span =
        (afterReply kernel.file kernel span pages reply).2.map Loaded.span ∧
      (other.entry = kernel.entry → (afterReply other.file other span pages reply).2 =
        (afterReply kernel.file kernel span pages reply).2) ∧
      ∀ memory : Memory, memory.after (afterReply other.file other span pages reply).1 =
        memory.after (afterReply kernel.file kernel span pages reply).1 := by
  obtain ⟨_, reads⟩ := Executable.parse_reads fits.parsed
  rcases reply with (status | _) | destination
  · exact ⟨rfl, fun _ => rfl, fun _ => rfl⟩
  · exact ⟨rfl, fun _ => rfl, fun _ => rfl⟩
  · simp only [afterReply]
    split
    · exact ⟨rfl, fun entry => by rw [entry],
        permuted.after_stored reads.valid disjoint fits.inRange.fromBase destination⟩
    · exact ⟨rfl, fun _ => rfl, fun _ => rfl⟩

theorem placeFile_eq {σ : Type} (permuted : kernel.Permuted other)
    (parsed : Executable.parse kernel.file = .ok kernel)
    (reparsed : Executable.parse other.file = .ok other)
    (disjoint : kernel.segments.Pairwise Segment.DisjointFrom) (machine : Machine Services σ)
    (state : σ) :
    ((placeFile other.file).outcome machine state).map Loaded.span =
        ((placeFile kernel.file).outcome machine state).map Loaded.span ∧
      (other.entry = kernel.entry → (placeFile other.file).outcome machine state =
        (placeFile kernel.file).outcome machine state) ∧
      pageRequests ((placeFile other.file).history machine state) =
        pageRequests ((placeFile kernel.file).history machine state) ∧
      ∀ memory : Memory, memory.after ((placeFile other.file).history machine state) =
        memory.after ((placeFile kernel.file).history machine state) := by
  have placing := placing_of_yields ((placeFile kernel.file).yields_outcome machine state)
  have placing' := placing_of_yields ((placeFile other.file).yields_outcome machine state)
  rcases exists_fits parsed with ⟨nil, _⟩ | ⟨span, pages, fits⟩
  · have nil' := permuted.segments
    rw [nil, List.perm_nil] at nil'
    obtain ⟨unasked, failed⟩ := placing.of_nil parsed nil
    obtain ⟨unasked', failed'⟩ := placing'.of_nil reparsed nil'
    rw [unasked, unasked', failed, failed']
    exact ⟨rfl, fun _ => rfl, rfl, fun _ => rfl⟩
  have fits' : Fits other.file other span pages :=
    ⟨reparsed, (Span.cover_perm permuted.segments).trans fits.spanned, fits.counted⟩
  obtain ⟨reply, rest, first, asked, ended, left⟩ := placing.of_fits fits
  obtain ⟨reply', rest', first', asked', ended', left'⟩ := placing'.of_fits fits'
  -- Both runs begin with the same request, so they get the same reply.
  have served := (placeFile kernel.file).served_history machine state
  have served' := (placeFile other.file).served_history machine state
  rw [first] at served
  rw [first'] at served'
  obtain rfl : reply' = reply := served'.1.trans served.1.symm
  obtain ⟨sameSpan, sameEnd, sameMemory⟩ := permuted.afterReply_eq fits disjoint reply'
  rw [ended, ended', asked, asked']
  exact ⟨sameSpan, sameEnd, rfl, fun memory =>
    (left' memory).trans ((sameMemory memory).trans (left memory).symm)⟩

end Executable.Permuted

end Replies

/-- **The order of disjoint segments makes no difference.** Of two accepted files that differ only
in the order of their program header tables, both kernels have the same span, ask for the same
pages, and leave the same memory, whatever the machine replies. In buffers it is the same. They are
entered at the same place, too, if the first table lies behind the entry point of its header. -/
theorem placing_reordered {ε : Type} {file other : Bytes} {kernel kernel' : Executable}
    {offset : Nat} {table table' : List Bytes} (parsed : Executable.parse file = .ok kernel)
    (reparsed : Executable.parse other = .ok kernel')
    (reordered : Elf.Reordered file other offset table table')
    (disjoint : kernel.segments.Pairwise Segment.DisjointFrom)
    (apart : ∀ s ∈ kernel.segments, ∀ i, s.Reads i →
      i < offset ∨ offset + table.length * Elf.layout64.programHeaderSize ≤ i) :
    (kernel'.span : Outcome ε (Option Span)) = kernel.span ∧
    (∀ span buffer,
      (kernel'.place span buffer : Bytes × Outcome ε Unit).2 = (kernel.place span buffer).2 ∧
      ((kernel.place span buffer : Bytes × Outcome ε Unit).2 ≠ .crash →
        (kernel'.place span buffer : Bytes × Outcome ε Unit) = kernel.place span buffer)) ∧
    (∀ (σ : Type) (machine : Machine Services σ) (state : σ) (memory : Memory),
      ((placeFile other).outcome machine state).map Loaded.span =
        ((placeFile file).outcome machine state).map Loaded.span ∧
      pageRequests ((placeFile other).history machine state) =
        pageRequests ((placeFile file).history machine state) ∧
      memory.after ((placeFile other).history machine state) =
        memory.after ((placeFile file).history machine state)) ∧
    (Elf.layout64.entryAt + Elf.layout64.wordSize ≤ offset →
      kernel'.entry = kernel.entry ∧
      ∀ (σ : Type) (machine : Machine Services σ) (state : σ),
        (placeFile other).outcome machine state = (placeFile file).outcome machine state) := by
  have permuted := reordered.permuted parsed reparsed apart
  have entry := reordered.entry_eq parsed reparsed
  obtain ⟨_, reads⟩ := Executable.parse_reads parsed
  obtain ⟨_, reads'⟩ := Executable.parse_reads reparsed
  obtain rfl := reads.file_eq
  obtain rfl := reads'.file_eq
  refine ⟨Span.cover_perm permuted.segments,
    permuted.place_eq reads.valid reads'.valid disjoint, fun σ machine state memory => ?_,
    fun behindEntry => ⟨entry behindEntry, fun σ machine state => ?_⟩⟩
  · obtain ⟨span, _, asked, left⟩ :=
      permuted.placeFile_eq parsed reparsed disjoint machine state
    exact ⟨span, asked, left memory⟩
  · obtain ⟨_, ended, _⟩ := permuted.placeFile_eq parsed reparsed disjoint machine state
    exact ended (entry behindEntry)

/-- A segment with zeros behind its bytes, and one with the last of these bytes in the same page. -/
def forward : Bytes :=
  image 0x100010 [⟨176, 0x100010, 4, 8⟩, ⟨178, 0x100018, 2, 2⟩] [1, 2, 3, 4]

def backward : Bytes :=
  image 0x100010 [⟨178, 0x100018, 2, 2⟩, ⟨176, 0x100010, 4, 8⟩] [1, 2, 3, 4]

theorem placing_backward :
    let machine := Firmware.serve {}
    ∃ kernel kernel', Executable.parse forward = .ok kernel ∧
      Executable.parse backward = .ok kernel' ∧ kernel'.segments ≠ kernel.segments ∧
      (kernel'.span : Outcome Empty (Option Span)) = kernel.span ∧
      (placeFile backward).outcome machine () = (placeFile forward).outcome machine () ∧
      ∀ memory : Memory, memory.after ((placeFile backward).history machine ()) =
        memory.after ((placeFile forward).history machine ()) := by
  intro machine
  have parsed : Executable.parse forward =
      .ok ⟨forward, 0x100010, [⟨176, 0x100010, 4, 8⟩, ⟨178, 0x100018, 2, 2⟩]⟩ := by
    decide +kernel
  have parsed' : Executable.parse backward =
      .ok ⟨backward, 0x100010, [⟨178, 0x100018, 2, 2⟩, ⟨176, 0x100010, 4, 8⟩]⟩ := by
    decide +kernel
  let first : Segment := ⟨176, 0x100010, 4, 8⟩
  let second : Segment := ⟨178, 0x100018, 2, 2⟩
  have reordered : Elf.Reordered forward backward 64 [first.header, second.header]
      [second.header, first.header] :=
    ⟨by decide +kernel, ⟨64, by decide +kernel⟩, .swap _ _ _, by decide +kernel, by decide +kernel⟩
  have disjoint : [first, second].Pairwise Segment.DisjointFrom := by
    refine List.pairwise_pair.mpr fun a covers covers' => ?_
    exact absurd (Nat.lt_of_lt_of_le covers.2 (by decide : first.memoryEnd ≤ second.address.toNat))
      (Nat.not_lt.mpr covers'.1)
  have behind : ∀ s ∈ [first, second],
      64 + [first.header, second.header].length * Elf.layout64.programHeaderSize ≤
        s.fileOffset.toNat := by
    decide
  obtain ⟨span, _, runs, entered⟩ := placing_reordered (ε := Empty) parsed parsed' reordered
    disjoint fun s member i reads => .inr (Nat.le_trans (behind s member) reads.1)
  exact ⟨_, _, parsed, parsed', by decide, span, (entered (by decide)).2 Unit machine (),
    fun memory => (runs Unit machine () memory).2.2⟩

/-- The rest of a file header from its entry point on. It says that a table of three program headers
begins there, and is itself the first of them, one that is not loadable. -/
def headerFrom (entry : UInt64) : Bytes :=
  Bytes.ofNatLE 8 entry.toNat ++ Bytes.ofNatLE 8 24 ++ Bytes.ofNatLE 8 0 ++ Bytes.ofNatLE 4 0
    ++ Bytes.ofNatLE 2 64 ++ Bytes.ofNatLE 2 56 ++ Bytes.ofNatLE 2 3 ++ List.replicate 22 0

/-- A file with two such headers. The one that comes first is in force. The segment is empty, so that
one memory takes kernels like this one after the other. -/
def overlaid (entry next : UInt64) : Bytes :=
  (image 0 [] []).take 24 ++ headerFrom entry ++ headerFrom next
    ++ Segment.header ⟨192, 0x100000, 0, 0⟩

/-- If the table lies over the entry point, its order decides where the kernel is entered. -/
theorem entry_moves_with_table :
    let file := overlaid 0x100000 0x100010
    let other := overlaid 0x100010 0x100000
    let machine := Firmware.serve {}
    ∃ kernel kernel' table table', Executable.parse file = .ok kernel ∧
      Executable.parse other = .ok kernel' ∧ Elf.Reordered file other 24 table table' ∧
      kernel.segments.Pairwise Segment.DisjointFrom ∧
      (∀ s ∈ kernel.segments, ∀ i, s.Reads i →
        i < 24 ∨ 24 + table.length * Elf.layout64.programHeaderSize ≤ i) ∧
      kernel'.entry ≠ kernel.entry ∧
      (placeFile file).outcome machine () = .ok ⟨0x100000, ⟨0x100000, 0x100000⟩⟩ ∧
      (placeFile other).outcome machine () = .ok ⟨0x100010, ⟨0x100000, 0x100000⟩⟩ := by
  intro file other machine
  let segment : Segment := ⟨192, 0x100000, 0, 0⟩
  have parsed : Executable.parse file = .ok ⟨file, 0x100000, [segment]⟩ := by decide +kernel
  have parsed' : Executable.parse other = .ok ⟨other, 0x100010, [segment]⟩ := by decide +kernel
  have reordered : Elf.Reordered file other 24
      [headerFrom 0x100000, headerFrom 0x100010, segment.header]
      [headerFrom 0x100010, headerFrom 0x100000, segment.header] :=
    ⟨by decide +kernel, ⟨24, by decide +kernel⟩, .swap _ _ _, by decide +kernel, by decide +kernel⟩
  refine ⟨_, _, _, _, parsed, parsed', reordered, List.pairwise_singleton _ _, ?_, by decide,
    by decide +kernel, by decide +kernel⟩
  intro s member i reads
  obtain rfl := List.mem_singleton.mp member
  exact .inr reads.1

end Kernel

end EfiLoader
