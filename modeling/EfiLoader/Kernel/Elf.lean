import EfiLoader.Bytes

/-!
The part of little-endian ELF files that a loader reads: the file header, and the program header
table with its entries. A file whose tables do not lie inside it is not read at all.
-/

namespace EfiLoader.Kernel.Elf

/-- Widths and places of the fields that are read; they differ between the two file classes. -/
structure Layout where
  wordSize : Nat
  headerSize : Nat
  entryAt : Nat
  programTableAt : Nat
  sectionTableAt : Nat
  programEntrySizeAt : Nat
  programHeaderSize : Nat
  sectionHeaderSize : Nat
  sectionSizeAt : Nat
  sectionInfoAt : Nat
  segmentOffsetAt : Nat
  segmentAddressAt : Nat
  segmentFileSizeAt : Nat
  segmentMemorySizeAt : Nat

def layout32 : Layout where
  wordSize := 4
  headerSize := 52
  entryAt := 24
  programTableAt := 28
  sectionTableAt := 32
  programEntrySizeAt := 42
  programHeaderSize := 32
  sectionHeaderSize := 40
  sectionSizeAt := 20
  sectionInfoAt := 28
  segmentOffsetAt := 4
  segmentAddressAt := 8
  segmentFileSizeAt := 16
  segmentMemorySizeAt := 20

def layout64 : Layout where
  wordSize := 8
  headerSize := 64
  entryAt := 24
  programTableAt := 32
  sectionTableAt := 40
  programEntrySizeAt := 54
  programHeaderSize := 56
  sectionHeaderSize := 64
  sectionSizeAt := 32
  sectionInfoAt := 44
  segmentOffsetAt := 8
  segmentAddressAt := 16
  segmentFileSizeAt := 32
  segmentMemorySizeAt := 40

inductive FileClass where
  | elf32
  | elf64
  deriving DecidableEq, Repr

def FileClass.layout : FileClass → Layout
  | elf32 => layout32
  | elf64 => layout64

structure ProgramHeader where
  type : Nat
  offset : UInt64
  address : UInt64
  fileSize : UInt64
  memorySize : UInt64
  deriving DecidableEq, Repr

structure File where
  fileClass : FileClass
  type : Nat
  machine : Nat
  entry : UInt64
  /-- Nothing if the header names no program header table. -/
  programHeaders : Option (List ProgramHeader)
  deriving DecidableEq, Repr

/-- Program header count that says: the real one is in the first section header. -/
def extendedCount : Nat := 0xffff

/-- The class that the identification bytes name; the only byte order read is little-endian. -/
def fileClass? (file : Bytes) : Option FileClass :=
  if file.length < 16 ∨ file.take 4 ≠ [0x7f, 0x45, 0x4c, 0x46] ∨ file[6]? ≠ some 1
      ∨ file[5]? ≠ some 1 then none
  else if file[4]? = some 1 then some .elf32
  else if file[4]? = some 2 then some .elf64
  else none

/-- The table of `count` entries of `size` bytes at `offset`, if it lies in the file. -/
def table? (file : Bytes) (offset count size : Nat) : Option (List Bytes) :=
  if offset + count * size ≤ file.length then
    let table : Bytes := file.drop offset
    some ((List.range count).map fun i => table.slice (i * size) size)
  else none

/-- The first section header, if it lies in the file. -/
def firstSection? (layout : Layout) (file : Bytes) (offset : Nat) : Option Bytes :=
  if offset + layout.sectionHeaderSize ≤ file.length then
    some (file.slice offset layout.sectionHeaderSize)
  else none

/-- A section header table, if there is one, lies in the file. -/
def sectionsFit (layout : Layout) (file : Bytes) : Bool :=
  let offset := file.numberAt layout.wordSize layout.sectionTableAt
  let entrySize := file.numberAt 2 (layout.programEntrySizeAt + 4)
  let count := file.numberAt 2 (layout.programEntrySizeAt + 6)
  if offset = 0 then true
  else
    let count? :=
      if count = 0 then
        (firstSection? layout file offset).map (·.numberAt layout.wordSize layout.sectionSizeAt)
      else some count
    match count? with
    | none => false
    | some count =>
      entrySize = layout.sectionHeaderSize ∧ offset + count * entrySize ≤ file.length

def programHeader (layout : Layout) (entry : Bytes) : ProgramHeader where
  type := entry.numberAt 4 0
  offset := .ofNat (entry.numberAt layout.wordSize layout.segmentOffsetAt)
  address := .ofNat (entry.numberAt layout.wordSize layout.segmentAddressAt)
  fileSize := .ofNat (entry.numberAt layout.wordSize layout.segmentFileSizeAt)
  memorySize := .ofNat (entry.numberAt layout.wordSize layout.segmentMemorySizeAt)

/-- The program header table: outside nothing if it does not lie in the file, inside nothing if the
file has none. -/
def programHeaders? (layout : Layout) (file : Bytes) : Option (Option (List ProgramHeader)) :=
  let offset := file.numberAt layout.wordSize layout.programTableAt
  let entrySize := file.numberAt 2 layout.programEntrySizeAt
  let count := file.numberAt 2 (layout.programEntrySizeAt + 2)
  if offset = 0 then some none
  else do
    let count ←
      if count = extendedCount then
        (firstSection? layout file (file.numberAt layout.wordSize layout.sectionTableAt)).map
          (·.numberAt 4 layout.sectionInfoAt)
      else some count
    if entrySize ≠ layout.programHeaderSize then none
    else
      let table ← table? file offset count entrySize
      some (some (table.map (programHeader layout)))

def parse? (file : Bytes) : Option File := do
  let fileClass ← fileClass? file
  let layout := fileClass.layout
  if file.length < layout.headerSize ∨ ¬ sectionsFit layout file then none
  else
    let headers ← programHeaders? layout file
    some {
      fileClass
      type := file.numberAt 2 16
      machine := file.numberAt 2 18
      entry := .ofNat (file.numberAt layout.wordSize layout.entryAt)
      programHeaders := headers }

end EfiLoader.Kernel.Elf
