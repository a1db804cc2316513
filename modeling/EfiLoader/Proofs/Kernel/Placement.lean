import EfiLoader.Proofs.Bytes
import EfiLoader.Proofs.Kernel.Safety
import EfiLoader.Proofs.Memory

/-!
Where a kernel ends up. `load_places_segments`: on firmware that delivers a file and grants pages in
place, a successful load leaves exactly the segments of that file in memory, the last one in table
order where they overlap, and nothing but failing calls keeps an acceptable file from being loaded.
-/

namespace EfiLoader

namespace Services

/-- The size and the bytes that are told of a file are those of `file`. -/
def Delivers (file : Bytes) : (request : Request) → Reply request → Prop
  | .fileSize _, reply => ∀ size, reply = .ok size → size.toNat = file.length
  | .readFile _ _, reply => ∀ read, reply = .ok read → read.data = file.take read.count.toNat
  | _, _ => True

/-- The memory of granted pages is reached at the address that was asked for. -/
def GrantsInPlace : (request : Request) → Reply request → Prop
  | .allocatePages address _, reply => ∀ destination, reply = .ok destination →
    destination = address
  | _, _ => True

/-- A read gives as many bytes as it was asked for. -/
def ReadsInFull : (request : Request) → Reply request → Prop
  | .readFile _ count, reply => ∀ read, reply = .ok read → read.count = count
  | _, _ => True

end Services

/-- The first address and the number of pages that a request asks for. -/
def pagesAsked : Services.Request → List (UInt64 × Nat)
  | .allocatePages address count => [(address, count)]
  | _ => []

def pageRequests (h : List (Exchange Services)) : List (UInt64 × Nat) :=
  h.flatMap fun e => pagesAsked e.request

@[simp] theorem pageRequests_nil : pageRequests [] = [] := rfl

@[simp] theorem pageRequests_cons (e : Exchange Services) (h : List (Exchange Services)) :
    pageRequests (e :: h) = pagesAsked e.request ++ pageRequests h := rfl

@[simp] theorem pageRequests_append (h h' : List (Exchange Services)) :
    pageRequests (h ++ h') = pageRequests h ++ pageRequests h' := List.flatMap_append

namespace Kernel

open Boot (Cause)

variable {h : List (Exchange Services)}

/-- The byte at that address is one of the segment's. -/
def Segment.Covers (s : Segment) (a : Nat) : Prop := s.address.toNat ≤ a ∧ a < s.memoryEnd

instance (s : Segment) (a : Nat) : Decidable (s.Covers a) := inferInstanceAs (Decidable (_ ∧ _))

/-- `after` shows, at each address, the last segment that covers it, and what was there `before`
where none does. -/
structure PlacesSegments (file : Bytes) (segments : List Segment) (before after : Memory) :
    Prop where
  uncovered : ∀ a, (∀ s ∈ segments, ¬ s.Covers a) → after a = before a
  fromFile : ∀ a earlier s later, segments = earlier ++ s :: later → s.Covers a →
    (∀ t ∈ later, ¬ t.Covers a) → a - s.address.toNat < s.fileSize.toNat →
    file[s.fileOffset.toNat + (a - s.address.toNat)]? = some (after a)
  zeroed : ∀ a earlier s later, segments = earlier ++ s :: later → s.Covers a →
    (∀ t ∈ later, ¬ t.Covers a) → s.fileSize.toNat ≤ a - s.address.toNat → after a = 0

namespace Segment

variable {file : Bytes} {s : Segment}

theorem length_slice (valid : s.Valid file.length) :
    (file.slice s.fileOffset.toNat s.fileSize.toNat).length = s.fileSize.toNat :=
  Bytes.length_slice_of_le valid.file

theorem length_contents (valid : s.Valid file.length) :
    (s.contents file).length = s.memorySize.toNat := by
  have sizes := UInt64.le_iff_toNat_le.mp valid.sizes
  rw [contents, List.length_append, length_slice valid, List.length_replicate]
  omega

theorem contents_fromFile (valid : s.Valid file.length) {i : Nat} (early : i < s.fileSize.toNat) :
    (s.contents file)[i]? = file[s.fileOffset.toNat + i]? := by
  rw [contents, List.getElem?_append_left (by rw [length_slice valid]; exact early), Bytes.slice,
    List.getElem?_take_of_lt early, List.getElem?_drop]

theorem contents_zeroed (valid : s.Valid file.length) {i : Nat} (late : s.fileSize.toNat ≤ i)
    (inside : i < s.memorySize.toNat) : (s.contents file)[i]? = some 0 := by
  rw [contents, List.getElem?_append_right (by rw [length_slice valid]; exact late),
    length_slice valid, List.getElem?_replicate]
  exact if_pos (by omega)

end Segment

section Stores

variable {file : Bytes} {base : UInt64} (memory : Memory)

/-- In memory that is reached at its own address, a segment is stored at its address. -/
theorem apply_stored {s : Segment} (above : base ≤ s.address) :
    memory.apply (s.stored file base base).request =
      memory.store s.address.toNat (s.contents file) := by
  have above := UInt64.le_iff_toNat_le.mp above
  have bound := s.address.toNat_lt
  have address : (base + .ofNat (s.address.toNat - base.toNat)).toNat = s.address.toNat := by
    rw [UInt64.toNat_add, UInt64.toNat_ofNat']
    omega
  rw [← address]
  rfl

variable {segments : List Segment} (valid : ∀ s ∈ segments, s.Valid file.length)
  (above : ∀ s ∈ segments, base ≤ s.address)

include valid above

theorem after_stored_uncovered {a : Nat} (uncovered : ∀ s ∈ segments, ¬ s.Covers a) :
    memory.after (segments.map (Segment.stored file base base)) a = memory a := by
  induction segments generalizing memory with
  | nil => rfl
  | cons s rest ih =>
    rw [List.map_cons, Memory.after_cons, apply_stored _ (above s List.mem_cons_self),
      ih _ (fun t ht => valid t (List.mem_cons_of_mem s ht))
        (fun t ht => above t (List.mem_cons_of_mem s ht))
        (fun t ht => uncovered t (List.mem_cons_of_mem s ht))]
    apply Memory.store_outside
    have outside := uncovered s List.mem_cons_self
    rw [Segment.Covers, Segment.memoryEnd] at outside
    rw [Segment.length_contents (valid s List.mem_cons_self)]
    omega

/-- The last store that covers an address is the one that shows. -/
theorem after_stored_covered {earlier later : List Segment} {s : Segment} {a : Nat}
    (split : segments = earlier ++ s :: later) (covers : s.Covers a)
    (last : ∀ t ∈ later, ¬ t.Covers a) :
    (s.contents file)[a - s.address.toNat]? =
      some (memory.after (segments.map (Segment.stored file base base)) a) := by
  have hs : s ∈ segments := by rw [split]; simp
  have hlater : ∀ t ∈ later, t ∈ segments := by intro t ht; rw [split]; simp [ht]
  obtain ⟨first, beyond⟩ := covers
  rw [Segment.memoryEnd] at beyond
  rw [split, List.map_append, List.map_cons, Memory.after_append, Memory.after_cons,
    apply_stored _ (above s hs), after_stored_uncovered _ (fun t ht => valid t (hlater t ht))
      (fun t ht => above t (hlater t ht)) last]
  exact Memory.store_inside first (by rw [Segment.length_contents (valid s hs)]; exact beyond)

theorem placesSegments_after_stored :
    PlacesSegments file segments memory
      (memory.after (segments.map (Segment.stored file base base))) where
  uncovered a none := after_stored_uncovered memory valid above none
  fromFile a earlier s later split covers last early := by
    have hs : s ∈ segments := by rw [split]; simp
    rw [← Segment.contents_fromFile (valid s hs) early]
    exact after_stored_covered memory valid above split covers last
  zeroed a earlier s later split covers last late := by
    have hs : s ∈ segments := by rw [split]; simp
    have shown := after_stored_covered memory valid above split covers last
    obtain ⟨first, beyond⟩ := covers
    rw [Segment.memoryEnd] at beyond
    rw [Segment.contents_zeroed (valid s hs) late (by omega)] at shown
    exact (Option.some.inj shown).symm

end Stores

theorem fillBlock_of_length {size : UInt64} {block : Services.Block} {data : Bytes}
    (length : size.toNat = data.length) : fillBlock size block data = data :=
  Bytes.overlay_whole (by rw [Bytes.length_overlay, List.length_replicate, length])

theorem Staging.bytes_eq {handle : Services.File} {staged : Staged} {file : Bytes}
    (staging : Staging handle h (.ok staged))
    (delivers : ∀ e ∈ h, Services.Delivers file e.request e.reply) : staged.bytes = file := by
  cases staging with
  | staged size block reply full =>
    have length : size.toNat = file.length :=
      delivers ⟨.fileSize handle, .ok size⟩ (by simp) size rfl
    have data : reply.data = file.take reply.count.toNat :=
      delivers ⟨.readFile handle size, .ok reply⟩ (by simp) reply rfl
    rw [full, length, List.take_length] at data
    rw [data]
    exact fillBlock_of_length length

/-- Reading the file into the block writes nothing else and asks for no pages. -/
theorem Staging.quiet {handle : Services.File} {o : Outcome Cause Staged}
    (staging : Staging handle h o) (memory : Memory) :
    memory.after h = memory ∧ pageRequests h = [] := by
  cases staging <;> exact ⟨rfl, rfl⟩

theorem pageRequests_stored {file : Bytes} {base destination : UInt64} {segments : List Segment} :
    pageRequests (segments.map (Segment.stored file base destination)) = [] := by
  induction segments with
  | nil => rfl
  | cons s rest ih => exact ih

/-- What a load that succeeds found in the file that was read, and what it did with it. -/
theorem Loading.of_ok {path : String} {loaded : Loaded} {file : Bytes} {memory : Memory}
    (loading : Loading path h (.ok loaded))
    (delivers : ∀ e ∈ h, Services.Delivers file e.request e.reply)
    (inPlace : ∀ e ∈ h, Services.GrantsInPlace e.request e.reply) :
    ∃ kernel pages, Fits file kernel loaded.span pages ∧ loaded.entry = kernel.entry ∧
      pageRequests h = [(loaded.span.base, pages)] ∧
      PlacesSegments file kernel.segments memory (memory.after h) := by
  cases loading with
  | @loaded handle staging placing staged _ read placed =>
    have bytes : staged.bytes = file := read.bytes_eq fun e he => delivers e (by simp [he])
    obtain ⟨unchanged, unasked⟩ := read.quiet memory
    cases placed with
    | @placed kernel span pages fits destination record bounded =>
      rw [bytes] at fits
      have reached : destination = span.base :=
        inPlace ⟨.allocatePages span.base pages, .ok destination⟩ (by simp) destination rfl
      subst reached
      obtain ⟨elf, reads⟩ := Executable.parse_reads fits.parsed
      refine ⟨kernel, pages, fits, rfl, ?_, ?_⟩
      · simp [unasked, pageRequests_stored, pagesAsked]
      · have stored := placesSegments_after_stored memory reads.valid
          fun s hs => fits.inRange.fromBase s hs
        simpa [Memory.apply, unchanged, bytes] using stored

/-- Staging ends with a block if every call succeeds and the read is not cut short. -/
theorem Staging.ok_of_succeeded {handle : Services.File} {o : Outcome Cause Staged}
    (staging : Staging handle h o) (succeeded : ∀ e ∈ h, e.Succeeded)
    (full : ∀ e ∈ h, Services.ReadsInFull e.request e.reply) : ∃ staged, o = .ok staged := by
  cases staging with
  | staged size block reply full => exact ⟨_, rfl⟩
  | notRead size block reply status record freed shortfall =>
    have read := succeeded ⟨.readFile handle size, reply⟩ (by simp)
    cases shortfall with
    | failed => cases read
    | short reply differs =>
      exact absurd (full ⟨.readFile handle size, .ok reply⟩ (by simp) reply rfl) differs
  | sizeCrashed => cases succeeded _ (List.mem_singleton_self _)
  | noSize status => cases succeeded _ (List.mem_singleton_self _)
  | poolCrashed size => cases succeeded ⟨.allocatePool size, .crash⟩ (by simp)
  | noMemory size status => cases succeeded ⟨.allocatePool size, .fail status⟩ (by simp)
  | readCrashed size => cases succeeded ⟨.readFile handle size, .crash⟩ (by simp)
  | freeCrashed size block => cases succeeded ⟨.freePool block.address, .crash⟩ (by simp)

theorem Placing.ok_of_succeeded {file : Bytes} {o : Outcome Cause Loaded} {kernel : Executable}
    (placing : Placing file h o) (succeeded : ∀ e ∈ h, e.Succeeded)
    (parsed : Executable.parse file = .ok kernel) (some : kernel.segments ≠ [])
    (ends : ∀ span pages, Fits file kernel span pages →
      span.base.toNat + pages * pageSize < wordLimit) : ∃ loaded, o = .ok loaded := by
  cases placing with
  | placed => exact ⟨_, rfl⟩
  | rejected rejection rejected => cases rejected.symm.trans parsed
  | nothing other accepted nil =>
    cases accepted.symm.trans parsed
    exact absurd nil some
  | tooLarge fits destination large =>
    cases fits.parsed.symm.trans parsed
    have bounded := ends _ _ fits
    omega
  | grantCrashed => cases succeeded _ (List.mem_singleton_self _)
  | @refused _ span pages _ status =>
    cases succeeded ⟨.allocatePages span.base pages, .fail status⟩ (by simp)

theorem Loading.ok_of_succeeded {path : String} {o : Outcome Cause Loaded} {file : Bytes}
    {kernel : Executable} (loading : Loading path h o)
    (delivers : ∀ e ∈ h, Services.Delivers file e.request e.reply)
    (succeeded : ∀ e ∈ h, e.Succeeded)
    (full : ∀ e ∈ h, Services.ReadsInFull e.request e.reply)
    (parsed : Executable.parse file = .ok kernel) (some : kernel.segments ≠ [])
    (ends : ∀ span pages, Fits file kernel span pages →
      span.base.toNat + pages * pageSize < wordLimit) : ∃ loaded, o = .ok loaded := by
  cases loading with
  | loaded => exact ⟨_, rfl⟩
  | openCrashed => cases succeeded _ (List.mem_singleton_self _)
  | notOpened status => cases succeeded ⟨.openFile path, .fail status⟩ (by simp)
  | stagingCrashed crashed =>
    cases (crashed.ok_of_succeeded (fun e he => succeeded e (by simp [he]))
      fun e he => full e (by simp [he])).choose_spec
  | notStaged failed =>
    cases (failed.ok_of_succeeded (fun e he => succeeded e (by simp [he]))
      fun e he => full e (by simp [he])).choose_spec
  | placingCrashed read crashed =>
    rw [read.bytes_eq fun e he => delivers e (by simp [he])] at crashed
    cases (crashed.ok_of_succeeded (fun e he => succeeded e (by simp [he])) parsed some
      ends).choose_spec
  | notPlaced read failed =>
    rw [read.bytes_eq fun e he => delivers e (by simp [he])] at failed
    cases (failed.ok_of_succeeded (fun e he => succeeded e (by simp [he])) parsed some
      ends).choose_spec
  | @freeCrashed _ _ _ staged => cases succeeded ⟨.freePool staged.block, .crash⟩ (by simp)
  | @notReleased _ _ _ staged _ _ _ status =>
    cases succeeded ⟨.freePool staged.block, .fail status⟩ (by simp)

/-- **A kernel is placed exactly as its file says, and is placed whenever it can be.** The file may
hold any bytes, memory anything before. -/
theorem load_places_segments {σ : Type} (machine : Machine Services σ) (state : σ) (path : String)
    (file : Bytes) (memory : Memory)
    (delivers : ∀ e ∈ (load path).history machine state, Services.Delivers file e.request e.reply)
    (inPlace : ∀ e ∈ (load path).history machine state,
      Services.GrantsInPlace e.request e.reply) :
    (∀ loaded, (load path).outcome machine state = .ok loaded →
      ∃ elf kernel pages, Elf.parse? file = some elf ∧ Executable.parse file = .ok kernel ∧
        kernel.segments = elf.loadable ∧ loaded.entry = elf.entry ∧
        (Span.cover elf.loadable : Outcome Cause (Option Span)) = .ok (some loaded.span) ∧
        (loaded.span.pages : Outcome Cause Nat) = .ok pages ∧
        pageRequests ((load path).history machine state) = [(loaded.span.base, pages)] ∧
        PlacesSegments file elf.loadable memory
          (memory.after ((load path).history machine state))) ∧
    ∀ kernel, Executable.parse file = .ok kernel → kernel.segments ≠ [] →
      (∀ span pages, Fits file kernel span pages →
        span.base.toNat + pages * pageSize < wordLimit) →
      (∀ e ∈ (load path).history machine state,
        e.Succeeded ∧ Services.ReadsInFull e.request e.reply) →
      ∃ loaded, (load path).outcome machine state = .ok loaded := by
  have loading := loading_of_yields ((load path).yields_outcome machine state)
  constructor
  · intro loaded ended
    rw [ended] at loading
    obtain ⟨kernel, pages, fits, entry, asked, places⟩ := loading.of_ok delivers inPlace
    obtain ⟨elf, reads⟩ := Executable.parse_reads fits.parsed
    have spanned := fits.spanned
    rw [Executable.span, reads.segments_eq] at spanned
    rw [reads.segments_eq] at places
    exact ⟨elf, kernel, pages, reads.elf_eq, fits.parsed, reads.segments_eq,
      entry.trans reads.entry_eq, spanned, fits.counted, asked, places⟩
  · intro kernel parsed some ends succeeded
    exact loading.ok_of_succeeded delivers (fun e he => (succeeded e he).1)
      (fun e he => (succeeded e he).2) parsed some ends

section Serve

variable (firmware : Firmware) (request : Services.Request) (state : Unit)

theorem serve_delivers (inWord : firmware.file.length < wordLimit) :
    Services.Delivers firmware.file request (firmware.serve request state).1 := by
  cases request with
  | fileSize _ =>
    rintro _ ⟨⟩
    exact UInt64.toNat_ofNat_of_lt' inWord
  | readFile _ _ => rintro _ ⟨⟩; rfl
  | _ => exact True.intro

theorem serve_grantsInPlace
    (inPlace : ∀ address count destination, firmware.grant address count = .ok destination →
      destination = address) :
    Services.GrantsInPlace request (firmware.serve request state).1 := by
  cases request with
  | allocatePages address count => exact inPlace address count
  | _ => exact True.intro

theorem serve_readsInFull : Services.ReadsInFull request (firmware.serve request state).1 := by
  cases request with
  | readFile _ _ => rintro _ ⟨⟩; rfl
  | _ => exact True.intro

end Serve

/-- Two segments, the second over the end of the first. -/
def overlapping : Bytes :=
  image 0x100010 [⟨176, 0x100010, 6, 8⟩, ⟨182, 0x100014, 1, 2⟩] [1, 2, 3, 4, 5, 6, 7]

theorem load_overlapping :
    let machine := Firmware.serve { file := overlapping }
    ∃ loaded, (load "kernel").outcome machine () = .ok loaded ∧ loaded.entry = 0x100010 ∧
      pageRequests ((load "kernel").history machine ()) = [(0x100000, 1)] ∧
      [0x10000f, 0x100013, 0x100014, 0x100015, 0x100016].map
        (Memory.after (fun _ => 0xcc) ((load "kernel").history machine ())) =
          [0xcc, 4, 7, 0, 0] := by
  intro machine
  let first : Segment := ⟨176, 0x100010, 6, 8⟩
  let second : Segment := ⟨182, 0x100014, 1, 2⟩
  have parsed : Executable.parse overlapping = .ok ⟨overlapping, 0x100010, [first, second]⟩ := by
    cbv
  have spanned : (Span.cover [first, second] : Outcome Cause (Option Span)) =
      .ok (some ⟨0x100010, 0x100018⟩) := rfl
  obtain ⟨places, comes⟩ := load_places_segments machine () "kernel" overlapping
    (fun _ => 0xcc)
    (Program.forall_mem_history
      (fun request state => serve_delivers _ request state (by decide +kernel)) _ _)
    (Program.forall_mem_history
      (fun request state => serve_grantsInPlace _ request state (by rintro _ _ _ ⟨⟩; rfl)) _ _)
  obtain ⟨loaded, ended⟩ := comes _ parsed (by simp)
    (by
      intro span pages fits
      cases fits.spanned.symm.trans spanned
      cases fits.counted
      decide)
    (Program.forall_mem_history
      (fun request state => ⟨Firmware.serve_succeeded _ request state fun _ _ => rfl,
        serve_readsInFull _ request state⟩) _ _)
  obtain ⟨elf, kernel, pages, accepted, same, segments, entry, covered, counted, asked, places⟩ :=
    places loaded ended
  cases same.symm.trans parsed
  rw [← segments] at covered places
  have span : loaded.span = ⟨0x100010, 0x100018⟩ :=
    Option.some.inj (Except.ok.inj (covered.symm.trans spanned))
  rw [span] at counted asked
  cases counted
  have read : (Elf.parse? overlapping).map Elf.File.entry = some 0x100010 := by decide +kernel
  rw [accepted] at read
  refine ⟨loaded, ended, entry.trans (Option.some.inj read), asked, ?_⟩
  have untouched := places.uncovered 0x10000f (by decide)
  have ofFirst := places.fromFile 0x100013 [] first [second] rfl (by decide) (by decide) (by decide)
  have ofSecond := places.fromFile 0x100014 [first] second [] rfl (by decide) (by decide)
    (by decide)
  have zeroOfSecond := places.zeroed 0x100015 [first] second [] rfl (by decide) (by decide)
    (by decide)
  have zeroOfFirst := places.zeroed 0x100016 [] first [second] rfl (by decide) (by decide)
    (by decide)
  have fourth : overlapping[179]? = some 4 := by decide +kernel
  have seventh : overlapping[182]? = some 7 := by decide +kernel
  rw [List.map_cons, List.map_cons, List.map_cons, List.map_cons, List.map_cons, untouched,
    Option.some.inj (ofFirst.symm.trans fourth), Option.some.inj (ofSecond.symm.trans seventh),
    zeroOfSecond, zeroOfFirst]
  rfl

end Kernel

end EfiLoader
