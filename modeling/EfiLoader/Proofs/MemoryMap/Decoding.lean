import EfiLoader.Proofs.MemoryMap.Lifetime
import EfiLoader.Proofs.MemoryMap.Recording

/-!
Listings read back: `entries?` finds in a listing what its lines tell of the descriptors. A listing
that was written as a whole tells the map but for what it does not list (`listing_tells_map`).
-/

namespace EfiLoader

namespace Bytes

/-- The text with that UTF-8 encoding. -/
def text? (bytes : Bytes) : Option String := String.fromUTF8? bytes.toByteArray

theorem text?_utf8 (text : String) : text? (utf8 text) = some text := by
  have encoded : (utf8 text).toByteArray = text.toByteArray := String.utf8Encode_toList
  rw [text?, encoded, String.fromUTF8?, dif_pos text.isValidUTF8]
  rfl

end Bytes

/-- The bytes that a request wrote to the file; none if it failed. -/
def Services.writtenTo (file : File) : (request : Request) → Reply request → Bytes
  | .writeFile target data, reply =>
    if target = file ∧ (reply : Outcome Status Unit) = .ok () then data else []
  | _, _ => []

/-- The bytes that a history wrote to the file. -/
def writtenTo (file : Services.File) (h : List (Exchange Services)) : Bytes :=
  h.flatMap fun e => Services.writtenTo file e.request e.reply

/-- Pieces that end in a separator are what the separator splits their text into. -/
theorem splitOn_flatMap_append {α : Type} [DecidableEq α] {a : α} {pieces : List (List α)}
    (apart : ∀ piece ∈ pieces, a ∉ piece) :
    (pieces.flatMap (· ++ [a])).splitOn a = pieces ++ [[]] := by
  induction pieces with
  | nil => rfl
  | cons piece rest ih =>
    obtain ⟨here, later⟩ := List.forall_mem_cons.mp apart
    rw [List.flatMap_cons, List.append_assoc, List.singleton_append,
      List.splitOn_append_cons_self_of_not_mem here, ih later, List.cons_append]

namespace MemoryMap

open Boot (Cause)

/-- What a listing tells of a descriptor. -/
structure Listing.Entry where
  type : UInt32
  physicalStart : UInt64
  pageCount : UInt64
  /-- The low 20 bits. -/
  attributes : UInt64
  deriving DecidableEq, Repr

def Descriptor.listed (d : Descriptor) : Listing.Entry where
  type := d.type
  physicalStart := d.physicalStart
  pageCount := d.pageCount
  attributes := d.attributes % 0x100000

namespace Listing

/-- The number in a column, which begins with a blank. -/
def number? (column : List Char) : Option Nat := Numeral.ofHex? column.tail

/-- Reads a line. Index and name are left out. -/
def ofRow? (row : List Char) : Option Entry :=
  match row.splitOn ',' with
  | [_, type, _, start, pages, attributes] => do
    return {
      type := .ofNat (← number? type)
      physicalStart := .ofNat (← number? start)
      pageCount := .ofNat (← number? pages)
      attributes := .ofNat (← number? attributes) }
  | _ => none

/-- Reads a listing: the lines after the first, up to the last one that is ended. -/
def entries? (bytes : Bytes) : Option (List Entry) := do
  let text ← bytes.text?
  (text.toList.splitOn '\n').tail.dropLast.mapM ofRow?

/-- What stands between the commas of a line. -/
def columns (index : Nat) (d : Descriptor) : List (List Char) :=
  [(Numeral.decimal index).toList, ' ' :: (Numeral.hex d.type.toNat).toList,
    ' ' :: (typeName d.type).toList, ' ' :: (Numeral.zeroHex 8 d.physicalStart.toNat).toList,
    ' ' :: (Numeral.hex d.pageCount.toNat).toList,
    ' ' :: (Numeral.hex (d.attributes &&& attributeMask).toNat).toList]

/-- A line without its end. -/
def row (index : Nat) (d : Descriptor) : List Char := [','].intercalate (columns index d)

theorem toList_line (index : Nat) (d : Descriptor) :
    (line index d).toList = row index d ++ ['\n'] := by
  simp [line, row, columns, List.intercalate, String.toList_append]

/-- No digit and no letter of a name is a separator. -/
theorem columns_apart (index : Nat) (d : Descriptor) :
    ∀ column ∈ columns index d, ∀ c ∈ column, c ≠ ',' ∧ c ≠ '\n' := by
  have digit : ∀ digit < 16, Nat.digitChar digit ≠ ',' ∧ Nat.digitChar digit ≠ '\n' := by decide
  have hex (n : Nat) : ∀ c ∈ Nat.toDigits 16 n, c ≠ ',' ∧ c ≠ '\n' :=
    Numeral.forall_mem_toDigits (by decide) digit n
  have decimal : ∀ c ∈ Nat.toDigits 10 index, c ≠ ',' ∧ c ≠ '\n' :=
    Numeral.forall_mem_toDigits (by decide) (fun d small => digit d (by omega)) index
  have padded (n : Nat) : ∀ c ∈ (Nat.toDigits 16 n).leftpad 8 '0', c ≠ ',' ∧ c ≠ '\n' :=
    Numeral.forall_mem_leftpad (P := fun c => c ≠ ',' ∧ c ≠ '\n') (by decide) (hex n) 8
  have apart : ',' ∉ (typeName d.type).toList ∧ '\n' ∉ (typeName d.type).toList :=
    forall_typeName (P := fun name => ',' ∉ name.toList ∧ '\n' ∉ name.toList) (by decide)
      (by decide) d.type
  have named : ∀ c ∈ (typeName d.type).toList, c ≠ ',' ∧ c ≠ '\n' := fun c inside =>
    ⟨fun comma => apart.1 (comma ▸ inside), fun newline => apart.2 (newline ▸ inside)⟩
  have blank : ' ' ≠ ',' ∧ ' ' ≠ '\n' := by decide
  simp only [columns, List.forall_mem_cons, Numeral.decimal, Numeral.hex, Numeral.zeroHex,
    String.toList_ofList]
  exact ⟨decimal, ⟨blank, hex _⟩, ⟨blank, named⟩, ⟨blank, padded _⟩, ⟨blank, hex _⟩,
    ⟨blank, hex _⟩, List.forall_mem_nil _⟩

theorem newline_not_mem_row (index : Nat) (d : Descriptor) : '\n' ∉ row index d := by
  have apart : ∀ column ∈ columns index d, '\n' ∉ column := fun column member inside =>
    (columns_apart index d column member _ inside).2 rfl
  simpa [row, columns] using apart

theorem and_attributeMask (attributes : UInt64) :
    attributes &&& attributeMask = attributes % 0x100000 := by
  rw [← UInt64.toNat_inj, UInt64.toNat_and, UInt64.toNat_mod]
  exact Nat.and_two_pow_sub_one_eq_mod _ 20

/-- A line tells what is listed of its descriptor. -/
theorem ofRow?_row (index : Nat) (d : Descriptor) : ofRow? (row index d) = some d.listed := by
  have split : (row index d).splitOn ',' = columns index d :=
    List.splitOn_intercalate ',' (fun column member inside =>
      (columns_apart index d column member _ inside).1 rfl) (by simp [columns])
  rw [ofRow?, split]
  simp only [columns, number?, List.tail_cons, Numeral.ofHex?_hex, Numeral.ofHex?_zeroHex,
    Option.bind_eq_bind, Option.bind_some, and_attributeMask, UInt32.ofNat_toNat,
    UInt64.ofNat_toNat]
  rfl

/-- The lines of descriptors that are counted from `index` on, without their ends. -/
def rows : Nat → List Descriptor → List (List Char)
  | _, [] => []
  | index, d :: rest => row index d :: rows (index + 1) rest

theorem flatten_linesFrom (index : Nat) (ds : List Descriptor) :
    (linesFrom index ds).flatten =
      Bytes.utf8 (String.ofList ((rows index ds).flatMap (· ++ ['\n']))) := by
  induction ds generalizing index with
  | nil => rfl
  | cons d rest ih =>
    rw [linesFrom, List.flatten_cons, ih, rows, List.flatMap_cons, ← toList_line,
      String.ofList_append, String.ofList_toList, Bytes.utf8_append]

theorem mapM_ofRow?_rows (index : Nat) (ds : List Descriptor) :
    (rows index ds).mapM ofRow? = some (ds.map Descriptor.listed) := by
  induction ds generalizing index with
  | nil => rfl
  | cons d rest ih =>
    rw [rows, List.mapM_cons, ofRow?_row, ih]
    rfl

theorem newline_not_mem_rows (index : Nat) (ds : List Descriptor) :
    ∀ piece ∈ rows index ds, '\n' ∉ piece := by
  induction ds generalizing index with
  | nil => exact nofun
  | cons d rest ih => exact List.forall_mem_cons.mpr ⟨newline_not_mem_row index d, ih _⟩

/-- Reading a listing gives what is listed. -/
theorem entries?_listing (ds : List Descriptor) :
    entries? (Bytes.utf8 header :: linesFrom 0 ds).flatten = some (ds.map Descriptor.listed) := by
  let title : List Char :=
    "Index, Type, Type(name), PhysicalStart, NumberOfPages, Attribute".toList
  have headed : header = String.ofList (title ++ ['\n']) := by decide
  have whole : (Bytes.utf8 header :: linesFrom 0 ds).flatten =
      Bytes.utf8 (String.ofList ((title :: rows 0 ds).flatMap (· ++ ['\n']))) := by
    rw [List.flatten_cons, flatten_linesFrom, headed, ← Bytes.utf8_append, ← String.ofList_append,
      List.flatMap_cons]
  have apart : ∀ piece ∈ title :: rows 0 ds, '\n' ∉ piece :=
    List.forall_mem_cons.mpr ⟨by decide, newline_not_mem_rows 0 ds⟩
  rw [entries?, whole, Bytes.text?_utf8]
  simp only [Option.bind_eq_bind, Option.bind_some, String.toList_ofList]
  rw [splitOn_flatMap_append apart, List.cons_append, List.tail_cons, List.dropLast_concat,
    mapM_ofRow?_rows]

theorem linesFrom_take (index count : Nat) (ds : List Descriptor) :
    (linesFrom index ds).take count = linesFrom index (ds.take count) := by
  induction ds generalizing index count with
  | nil => rw [linesFrom, List.take_nil, List.take_nil, linesFrom]
  | cons d rest ih =>
    cases count with
    | zero => rfl
    | succ count => rw [linesFrom, List.take_succ_cons, ih, List.take_succ_cons, linesFrom]

/-- A listing that was cut off between two lines tells of the descriptors before. -/
theorem entries?_take_texts (map : MemoryMap) (count : Nat) :
    entries? ((texts map).take count).flatten =
      some ((map.descriptors.map Descriptor.listed).take (count - 1)) := by
  cases count with
  | zero => rfl
  | succ count =>
    rw [texts, List.take_succ_cons, lines, linesFrom_take, entries?_listing, List.map_take]
    rfl

section Runs

variable {h : List (Exchange Services)} {o : Outcome Cause Unit} {file : Services.File}

theorem Writing.written {pieces : List Bytes} (writing : Writing file pieces h o) :
    (∃ count, writtenTo file h = (pieces.take count).flatten ∧
      (o = .ok () → count = pieces.length)) ∧
    ((∀ e ∈ h, e.Succeeded) → o = .ok ()) := by
  induction writing with
  | done => exact ⟨⟨0, rfl, fun _ => rfl⟩, fun _ => rfl⟩
  | stopped text rest stop =>
    refine ⟨⟨0, ?_, nofun⟩, fun succeeded => ?_⟩
    · simp [writtenTo, Services.writtenTo]
    · cases succeeded _ (List.mem_singleton_self _)
  | @wrote text rest h o writing ih =>
    obtain ⟨⟨count, written, whole⟩, comes⟩ := ih
    refine ⟨⟨count + 1, ?_, fun ended => by rw [whole ended, List.length_cons]⟩,
      fun succeeded => comes fun e member => succeeded e (List.mem_cons_of_mem _ member)⟩
    rw [List.take_succ_cons, List.flatten_cons, ← written]
    simp [writtenTo, Services.writtenTo]

/-- What a run wrote is its texts up to some point, all of them if it ended well. Nothing but a
failing call keeps it from that. -/
theorem written_of_yields {map : MemoryMap} (viewed : map.inspect = .ok map.descriptors)
    (yields : (write map file).Yields h o) :
    (∃ count, writtenTo file h = ((texts map).take count).flatten ∧
      (o = .ok () → count = (texts map).length)) ∧
    ((∀ e ∈ h, e.Succeeded) → o = .ok ()) := by
  rcases of_write_yields viewed yields with
    ⟨stop, rfl, rfl⟩ | ⟨record, writing, rfl, wrote⟩
  · exact (Writing.stopped (Bytes.utf8 header) (lines map) stop).written
  · have all : Writing file (texts map)
        (⟨.writeFile file (Bytes.utf8 header), .ok ()⟩ :: writing) o := .wrote wrote
    obtain ⟨⟨count, written, whole⟩, comes⟩ := all.written
    refine ⟨⟨count, ?_, whole⟩, fun succeeded => comes fun e member => succeeded e ?_⟩
    · rw [← written]
      rfl
    · rcases List.mem_cons.mp member with rfl | later
      · exact List.mem_cons_self
      · exact List.mem_cons_of_mem _ (List.mem_cons_of_mem _ later)

theorem entries?_written {σ : Type} {buffer : Buffer} {calls : List Call} {map : MemoryMap}
    (kept : Kept buffer calls map) (machine : Machine Services σ) (state : σ)
    (file : Services.File) :
    let written := writtenTo file ((write map file).history machine state)
    let outcome := (write map file).outcome machine state
    (∃ count, entries? written = some ((map.descriptors.map Descriptor.listed).take count)) ∧
    (outcome = .ok () → entries? written = some (map.descriptors.map Descriptor.listed)) ∧
    ((∀ e ∈ (write map file).history machine state, e.Succeeded) → outcome = .ok ()) := by
  intro written outcome
  obtain ⟨aligned, sound⟩ := kept.described
  obtain ⟨⟨count, cut, whole⟩, comes⟩ :=
    written_of_yields (sound.inspect aligned) ((write map file).yields_outcome machine state)
  have read : entries? written = _ := (congrArg entries? cut).trans (entries?_take_texts map count)
  refine ⟨⟨count - 1, read⟩, fun ended => ?_, comes⟩
  have all : count - 1 = (map.descriptors.map Descriptor.listed).length := by
    rw [whole ended, texts, lines, List.length_cons, length_linesFrom, List.length_map,
      Nat.add_sub_cancel]
  rw [read, all, List.take_length]

end Runs

/-- **A listing can be read back.** It gives the type, the start, the number of pages and the low 20
attribute bits of every descriptor in order, if it was written as a whole, and else of the first
ones. So maps with the same listing have as many descriptors and agree in all of these. Every map
that was taken is listed, unless a call fails. -/
theorem listing_tells_map {σ : Type} {buffer : Buffer} {calls : List Call} {map : MemoryMap}
    (kept : Kept buffer calls map) (machine : Machine Services σ) (state : σ)
    (file : Services.File) :
    let written := writtenTo file ((write map file).history machine state)
    let outcome := (write map file).outcome machine state
    (∃ count, entries? written = some ((map.descriptors.map Descriptor.listed).take count)) ∧
    (outcome = .ok () → entries? written = some (map.descriptors.map Descriptor.listed)) ∧
    ((∀ e ∈ (write map file).history machine state, e.Succeeded) → outcome = .ok ()) ∧
    ∀ {τ : Type} {buffer' : Buffer} {calls' : List Call} {map' : MemoryMap}
      (machine' : Machine Services τ) (state' : τ) (file' : Services.File),
      Kept buffer' calls' map' →
      outcome = .ok () → (write map' file').outcome machine' state' = .ok () →
      writtenTo file' ((write map' file').history machine' state') = written →
      map'.length = map.length ∧
      ∀ (index : Nat) (d d' : Descriptor), map.descriptors[index]? = some d →
        map'.descriptors[index]? = some d' →
        d'.type = d.type ∧ d'.physicalStart = d.physicalStart ∧ d'.pageCount = d.pageCount ∧
          d'.attributes % 0x100000 = d.attributes % 0x100000 := by
  intro written outcome
  obtain ⟨cut, whole, comes⟩ := entries?_written kept machine state file
  refine ⟨cut, whole, comes, fun machine' state' file' kept' ended ended' sameBytes => ?_⟩
  obtain ⟨_, whole', _⟩ := entries?_written kept' machine' state' file'
  have told := whole' ended'
  rw [sameBytes, whole ended] at told
  have same := Option.some.inj told
  constructor
  · have length := congrArg List.length same
    rw [List.length_map, List.length_map, length_descriptors, length_descriptors] at length
    exact length.symm
  · intro index d d' found found'
    have listed := congrArg (·[index]?) same
    simp only [List.getElem?_map, found, found', Option.map_some, Option.some.injEq] at listed
    obtain ⟨type, start, pages, attributes⟩ := Listing.Entry.mk.inj listed
    exact ⟨type.symm, start.symm, pages.symm, attributes.symm⟩

/-- Two maps that are listed as one: of their descriptors only attribute bits that are not listed
differ, and how far apart they lie. -/
theorem listing_tells_map_high_bits :
    let regions (high : UInt64) : List Descriptor :=
      [⟨0x80000001, 0x1000, 0, 2, high + 0xf⟩, ⟨4, 0x123456789a, 0, 1, 0xf⟩]
    let reply (high stride : UInt64) : Services.MapReply :=
      ⟨Descriptor.layOut stride.toNat 0 (regions high) (List.replicate 96 0),
        .ok ⟨2 * stride, 7, stride, 1⟩⟩
    let buffer : Buffer := ⟨0x2000, List.replicate 96 0⟩
    let map (high stride : UInt64) : MemoryMap :=
      ⟨buffer.fill (reply high stride), ⟨2 * stride, 7, stride, 1⟩⟩
    let near := map 0 40
    let far := map 0x8000000000000000 48
    let machine := Firmware.serve {}
    entries? (writtenTo 1 ((write near 1).history machine ())) = some
        [⟨0x80000001, 0x1000, 2, 0xf⟩, ⟨4, 0x123456789a, 1, 0xf⟩] ∧
      far.descriptors ≠ near.descriptors ∧ far.length = near.length ∧
      ∀ (index : Nat) (d d' : Descriptor), near.descriptors[index]? = some d →
        far.descriptors[index]? = some d' →
        d'.type = d.type ∧ d'.physicalStart = d.physicalStart ∧ d'.pageCount = d.pageCount ∧
          d'.attributes % 0x100000 = d.attributes % 0x100000 := by
  intro regions reply buffer map near far machine
  have kept : Kept buffer [⟨[⟨.memoryMap buffer.bytes, reply 0 40⟩], .ok ()⟩] near :=
    .of_accepted (by decide) (by decide +kernel)
  have kept' : Kept buffer
      [⟨[⟨.memoryMap buffer.bytes, reply 0x8000000000000000 48⟩], .ok ()⟩] far :=
    .of_accepted (by decide) (by decide +kernel)
  have succeeds (map : MemoryMap) : ∀ e ∈ (write map 1).history machine (), e.Succeeded :=
    Program.forall_mem_history
      (fun request state => Firmware.serve_succeeded _ request state fun _ _ => rfl) _ _
  obtain ⟨_, whole, comes, determines⟩ := listing_tells_map kept machine () 1
  obtain ⟨_, _, comes', _⟩ := listing_tells_map kept' machine () 1
  have ended := comes (succeeds near)
  obtain ⟨length, fields⟩ :=
    determines machine () 1 kept' ended (comes' (succeeds far)) (by decide +kernel)
  refine ⟨(whole ended).trans ?_, by decide +kernel, length, fields⟩
  decide +kernel

end Listing

end MemoryMap

end EfiLoader
