import EfiLoader.Proofs.Testbed.Effects

/-!
Reads of open files on firmware in memory. Open files share what their path holds, while each stands
where its own reads and writes have brought it since it was opened (`travelled`); another one may
have cut what lies before that place. Main statement: a read gives the bytes from there on, and
crashes if the file ends before it (`read_gives_rest`).
-/

namespace EfiLoader

open Services (File)

/-- The call opened a path under that number. -/
inductive Exchange.Opens (file : File) (path : String) : Exchange Services → Prop
  | opened : Opens file path ⟨.openFile path, .ok file⟩
  | created : Opens file path ⟨.createFile path, .ok file⟩

/-- How far the call brought an open file. -/
def Exchange.moves (file : File) : Exchange Services → Nat
  | ⟨.readFile other _, .ok reply⟩ => if other = file then reply.data.length else 0
  | ⟨.writeFile other data, .ok _⟩ => if other = file then data.length else 0
  | _ => 0

/-- How far a history brought an open file. -/
def travelled (file : File) : List (Exchange Services) → Nat
  | [] => 0
  | e :: rest => e.moves file + travelled file rest

namespace Testbed

namespace FileTable

variable {table : FileTable} {file other : File} {path : String} {position : Nat}

/-- The file is open at that place of its path, and the path is still one of a file. -/
structure Stands (table : FileTable) (file : File) (path : String) (position : Nat) : Prop where
  opened : table.Opened file path position
  present : (table.volume.contents? path).isSome

theorem Opened.openAt (opened : table.Opened file path position) (another : String) :
    (table.openAt another).2.Opened file path position := by
  -- The file that is opened now gets a number behind all others.
  obtain ⟨inside, _⟩ := List.getElem?_eq_some_iff.mp opened
  exact (List.getElem?_append_left inside).trans opened

theorem Opened.advance_of_ne (opened : table.Opened file path position) (differs : other ≠ file)
    (count : Nat) : (table.advance other count).Opened file path position :=
  (List.getElem?_modify_ne _ _ differs).trans opened

theorem isSome_put (present : (table.volume.contents? path).isSome) (another : String)
    (bytes : Bytes) : ((table.put another bytes).volume.contents? path).isSome := by
  rw [put, Volume.contents?_put]
  split
  · rfl
  · exact present

namespace Stands

theorem openAt (stands : table.Stands file path position) (another : String) :
    (table.openAt another).2.Stands file path position :=
  ⟨stands.opened.openAt another, stands.present⟩

theorem put (stands : table.Stands file path position) (another : String) (bytes : Bytes) :
    (table.put another bytes).Stands file path position :=
  ⟨stands.opened, isSome_put stands.present another bytes⟩

theorem advance (stands : table.Stands file path position) (other : File) (count : Nat) :
    (table.advance other count).Stands file path
      (position + if other = file then count else 0) := by
  split
  · rename_i same
    subst same
    exact ⟨stands.opened.advance count, stands.present⟩
  · rename_i differs
    exact ⟨stands.opened.advance_of_ne differs count, stands.present⟩

/-- A call brings an open file as far as can be told from the reply. -/
theorem after (stands : table.Stands file path position) (e : Exchange Services) :
    (table.after e).Stands file path (position + e.moves file) := by
  obtain ⟨request, reply⟩ := e
  cases request with
  | openFile another =>
    cases reply with
    | ok _ => exact stands.openAt another
    | error _ => exact stands
  | createFile another =>
    cases reply with
    | ok _ => exact (stands.put another []).openAt another
    | error _ => exact stands
  | readFile other count =>
    cases reply with
    | ok reply => exact stands.advance other reply.data.length
    | error _ => exact stands
  | writeFile other data =>
    cases reply with
    | ok _ => exact (stands.put _ _).advance other data.length
    | error _ => exact stands
  | _ => exact stands

end Stands

end FileTable

/-- How many bytes a read gives that asks for `count` of them, with `rest` of them left. -/
def readable (limit : Option Nat) (rest count : Nat) : Nat :=
  min (min count rest) (limit.getD count)

namespace MemoryFirmware

open FileTable (Stands)

variable {firmware : MemoryFirmware} {file : File} {path : String} {position : Nat}

/-- A file that was opened stands at the start of its path. -/
theorem stands_of_opens {e : Exchange Services} (opens : e.Opens file path)
    (replied : e.reply = (answer e.request firmware).1) :
    (answer e.request firmware).2.files.Stands file path 0 := by
  cases opens with
  | opened =>
    have isOpen : firmware.exited = false := isOpen_of_allocating replied.symm
    have run : answer (.openFile path) firmware = _ := run_openFile isOpen path
    rw [run] at replied ⊢
    by_cases found : firmware.files.contains path = true
    · rw [if_pos found] at replied ⊢
      cases replied
      exact ⟨FileTable.opened_openAt firmware.files path, found⟩
    · rw [if_neg found] at replied
      cases replied
  | created =>
    have isOpen : firmware.exited = false := isOpen_of_allocating replied.symm
    have run : answer (.createFile path) firmware = _ := run_createFile isOpen path
    rw [run] at replied ⊢
    cases replied
    have atEnd := FileTable.AtEnd.create firmware.files path
    exact ⟨atEnd.opened, Option.isSome_of_mem atEnd.holds⟩

/-- A run brings an open file as far as its history says. -/
theorem stands_run {α : Type} (program : Program Services α)
    (stands : firmware.files.Stands file path position) :
    (program.run answer firmware).2.files.Stands file path
      (position + travelled file (program.history answer firmware)) := by
  induction program generalizing firmware position with
  | done value => exact stands
  | ask request next ih =>
    have first := stands.after ⟨request, (answer request firmware).1⟩
    rw [← (follows_answer firmware request).files] at first
    have last := ih (answer request firmware).1 first
    rw [Nat.add_assoc] at last
    exact last

theorem readLimit_run {α : Type} (program : Program Services α) (firmware : MemoryFirmware) :
    (program.run answer firmware).2.readLimit = firmware.readLimit := by
  induction program generalizing firmware with
  | done value => rfl
  | ask request next ih => exact (ih _ _).trans (follows_answer firmware request).readLimit

theorem slice_readable (contents : Bytes) (position count : Nat) (limit : Option Nat) :
    contents.slice position (min count (limit.getD count)) =
      contents.slice position (readable limit (contents.length - position) count) := by
  rw [Bytes.slice, Bytes.slice, List.take_eq_take_iff, List.length_drop, readable]
  omega

theorem length_slice_readable {contents : Bytes} (inside : position ≤ contents.length)
    (count : Nat) (limit : Option Nat) :
    (contents.slice position (readable limit (contents.length - position) count)).length =
      readable limit (contents.length - position) count := by
  refine Bytes.length_slice_of_le ?_
  unfold readable
  omega

section Read

variable (stands : firmware.files.Stands file path position) {contents : Bytes}
  (present : firmware.files.volume.contents? path = some contents)

include stands present

theorem whole_of_stands : firmware.files.whole file = contents := by
  rw [stands.opened.whole, FileTable.contents, present]
  rfl

theorem run_readFile_of_le (inside : position ≤ contents.length) (count : UInt64) :
    let c := readable firmware.readLimit (contents.length - position) count.toNat
    (Services.readFile file count).run answer firmware =
      (.ok ⟨.ofNat c, contents.slice position c⟩, firmware.advanced file c) := by
  rw [run_readFile, whole_of_stands stands present, stands.opened.handle,
    if_neg (Nat.not_lt.mpr inside)]
  dsimp only
  rw [slice_readable, length_slice_readable inside]

theorem run_readFile_of_lt (past : contents.length < position) (count : UInt64) :
    (Services.readFile file count).run answer firmware = (.crash, firmware) := by
  rw [run_readFile, whole_of_stands stands present, stands.opened.handle, if_pos past]

end Read

/-- **A read gives what lies ahead of the file's own place**, whatever was done with the firmware
since the file was opened, also through other open files of the same path: as many bytes as were
asked for, as the limit allows and as there are. They fill the front of the buffer, and the file
stands behind them then. At the very end a read gives nothing; past the end, where a file stands
once another one has cut off its front, it crashes and nothing changes. -/
theorem read_gives_rest {α : Type} (program : Program Services α) (firmware : MemoryFirmware) :
    ∀ earlier e since file path,
      program.history answer firmware = earlier ++ e :: since → e.Opens file path →
      let later := (program.run answer firmware).2
      let position := travelled file since
      ∃ contents, later.files.volume.contents? path = some contents ∧ ∀ count : UInt64,
        let c := readable firmware.readLimit (contents.length - position) count.toNat
        (position ≤ contents.length →
          ∃ reply : Services.ReadReply,
            (Services.readFile file count).run answer later =
              (.ok reply, later.advanced file c) ∧
            reply.count.toNat = c ∧
            (∀ buffer : Bytes, buffer.length = count.toNat →
              buffer.overlay 0 reply.data = contents.slice position c ++ buffer.drop c) ∧
            (later.advanced file c).files.Opened file path (position + c)) ∧
        (contents.length < position →
          (Services.readFile file count).run answer later = (.crash, later)) := by
  intro earlier e since file path split opens later position
  obtain ⟨here, rest, replied, rest_history, rest_run⟩ := Program.exists_of_history_eq split
  -- From the call that opened the file on, its place is what the rest of the history made it.
  have stands : later.files.Stands file path position := by
    have run := stands_run rest (stands_of_opens opens replied)
    rwa [rest_history, rest_run, Nat.zero_add] at run
  obtain ⟨contents, present⟩ := Option.isSome_iff_exists.mp stands.present
  refine ⟨contents, present, fun count => ⟨fun inside => ?_, fun past => ?_⟩⟩
  · have read := run_readFile_of_le stands present inside count
    rw [readLimit_run program firmware] at read
    have length := length_slice_readable inside count.toNat firmware.readLimit
    have bounded : readable firmware.readLimit (contents.length - position) count.toNat ≤
        count.toNat := Nat.le_trans (Nat.min_le_left _ _) (Nat.min_le_left _ _)
    refine ⟨_, read, ?_, fun buffer size => ?_, stands.opened.advance _⟩
    · exact UInt64.toNat_ofNat_of_lt' (Nat.lt_of_le_of_lt bounded count.toNat_lt)
    · rw [Bytes.overlay_zero (by rw [length, size]; exact bounded), length]
  · exact run_readFile_of_lt stands present past count

/-- A file is written, and emptied while it is open. -/
def emptying : Program Services (Outcome Status File) := do
  let _ ← Services.createFile "f"
  let _ ← Services.writeFile 0 [1, 2, 3]
  Services.createFile "f"

/-- Then more is written to it than it had. -/
def refilling : Program Services (Outcome Status Unit) := do
  let _ ← emptying
  Services.writeFile 1 [9, 8, 7, 6, 5]

/-- The file that wrote first stands past the end, and has something ahead of it again later. -/
theorem read_gives_rest_emptied :
    let emptied := (emptying.run answer {}).2
    let refilled := (refilling.run answer {}).2
    let buffer : Bytes := List.replicate 4 0xa5
    emptying.history answer {} = [] ++ ⟨.createFile "f", .ok 0⟩ ::
        [⟨.writeFile 0 [1, 2, 3], .ok ()⟩, ⟨.createFile "f", .ok 1⟩] ∧
      (Services.readFile 0 4).run answer emptied = (.crash, emptied) ∧
      (∃ reply, (Services.readFile 1 4).run answer emptied = (.ok reply, emptied.advanced 1 0) ∧
        reply.count.toNat = 0 ∧ buffer.overlay 0 reply.data = buffer) ∧
      ∃ reply, (Services.readFile 0 4).run answer refilled = (.ok reply, refilled.advanced 0 2) ∧
        reply.count.toNat = 2 ∧ buffer.overlay 0 reply.data = [6, 5, 0xa5, 0xa5] := by
  intro emptied refilled buffer
  have empty : emptied.files.volume.contents? "f" = some [] := rfl
  have full : refilled.files.volume.contents? "f" = some [9, 8, 7, 6, 5] := rfl
  obtain ⟨contents, present, reads⟩ := read_gives_rest emptying {} [] _ _ 0 "f" rfl .created
  obtain rfl : [] = contents := Option.some.inj (empty.symm.trans present)
  obtain ⟨contents, present, readsOther⟩ := read_gives_rest emptying {}
    [⟨.createFile "f", .ok 0⟩, ⟨.writeFile 0 [1, 2, 3], .ok ()⟩] _ _ 1 "f" rfl .created
  obtain rfl : [] = contents := Option.some.inj (empty.symm.trans present)
  obtain ⟨contents, present, readsAgain⟩ := read_gives_rest refilling {} [] _ _ 0 "f" rfl .created
  obtain rfl : [9, 8, 7, 6, 5] = contents := Option.some.inj (full.symm.trans present)
  obtain ⟨nothing, ranOther, none, kept, _⟩ := (readsOther 4).1 (by decide)
  obtain ⟨two, ranAgain, counted, filled, _⟩ := (readsAgain 4).1 (by decide)
  exact ⟨rfl, (reads 4).2 (by decide), ⟨nothing, ranOther, none, kept buffer rfl⟩,
    two, ranAgain, counted, filled buffer rfl⟩

end MemoryFirmware

end Testbed

end EfiLoader
