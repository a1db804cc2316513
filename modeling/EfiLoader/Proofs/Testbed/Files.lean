import EfiLoader.Testbed.FileTable

/-!
What reads and writes do to open files. A file that is open at its end grows by what is written to
it, and no other file changes (`AtEnd.write`, `contents?_write_of_ne`).
-/

namespace EfiLoader.Testbed.FileTable

open Services (File)

variable {table : FileTable} {file : File} {path other : String} {position : Nat} {bytes : Bytes}

/-- The file is open at that place of its path. -/
def Opened (table : FileTable) (file : File) (path : String) (position : Nat) : Prop :=
  table.handles[file]? = some ⟨path, position⟩

theorem opened_openAt (table : FileTable) (path : String) :
    (table.openAt path).2.Opened table.handles.length path 0 := by
  simp [Opened, openAt]

namespace Opened

theorem handle (opened : table.Opened file path position) :
    table.handle file = ⟨path, position⟩ := by
  rw [FileTable.handle, opened]
  rfl

theorem whole (opened : table.Opened file path position) :
    table.whole file = table.contents path := by
  rw [FileTable.whole, opened.handle]

theorem advance (opened : table.Opened file path position) (count : Nat) :
    (table.advance file count).Opened file path (position + count) := by
  rw [Opened, FileTable.advance, List.getElem?_modify_eq, opened]
  rfl

theorem read (opened : table.Opened file path position) (count : Nat) :
    table.read file count =
      ((table.contents path).slice position count,
        table.advance file ((table.contents path).slice position count).length) := by
  rw [FileTable.read, opened.whole, opened.handle]

theorem write (opened : table.Opened file path position) (data : Bytes) :
    table.write file data =
      (table.put path ((table.contents path).take position ++ data)).advance file data.length := by
  rw [FileTable.write, opened.whole, opened.handle]

theorem contents?_write_of_ne (opened : table.Opened file path position) (data : Bytes)
    (differs : other ≠ path) :
    (table.write file data).volume.contents? other = table.volume.contents? other := by
  rw [opened.write]
  exact (Volume.contents?_put _ _ _ _).trans (if_neg differs)

end Opened

/-- The file is open behind all the bytes that it holds. -/
structure AtEnd (table : FileTable) (file : File) (path : String) (bytes : Bytes) : Prop where
  opened : table.Opened file path bytes.length
  holds : table.volume.contents? path = some bytes

namespace AtEnd

theorem create (table : FileTable) (path : String) :
    ((table.put path []).openAt path).2.AtEnd table.handles.length path [] where
  opened := opened_openAt (table.put path []) path
  holds := (Volume.contents?_put _ _ _ _).trans (if_pos rfl)

theorem write (atEnd : table.AtEnd file path bytes) (data : Bytes) :
    (table.write file data).AtEnd file path (bytes ++ data) := by
  have contents : table.contents path = bytes := by rw [FileTable.contents, atEnd.holds]; rfl
  rw [atEnd.opened.write, contents, List.take_length]
  constructor
  · have opened : (table.put path (bytes ++ data)).Opened file path bytes.length := atEnd.opened
    rw [List.length_append]
    exact opened.advance data.length
  · exact (Volume.contents?_put _ _ _ _).trans (if_pos rfl)

/-- Every write continues where the one before ended. -/
theorem writeAll (atEnd : table.AtEnd file path bytes) (texts : List Bytes) :
    (texts.foldl (·.write file ·) table).AtEnd file path (bytes ++ texts.flatten) := by
  induction texts generalizing table bytes with
  | nil => simpa using atEnd
  | cons text rest ih =>
    rw [List.foldl_cons, List.flatten_cons, ← List.append_assoc]
    exact ih (atEnd.write text)

theorem contents?_writeAll_of_ne (atEnd : table.AtEnd file path bytes) (texts : List Bytes)
    (differs : other ≠ path) :
    (texts.foldl (·.write file ·) table).volume.contents? other =
      table.volume.contents? other := by
  induction texts generalizing table bytes with
  | nil => rfl
  | cons text rest ih =>
    rw [List.foldl_cons, ih (atEnd.write text)]
    exact atEnd.opened.contents?_write_of_ne text differs

end AtEnd

end EfiLoader.Testbed.FileTable
