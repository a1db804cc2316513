import EfiLoader.Boot.Cause
import EfiLoader.Proofs.Numeral

/-!
The texts of failures. A text is a label, followed by a colon and details if there are any; no label
has a colon, so both can be told from the text (`labelled_inj`). With statuses, addresses and
formats told apart in the details, no two failures have the same text (`failures_told_apart`).
-/

namespace EfiLoader

/-- Where the rest of a text starts with a character that its front does not have, if there is a
rest, front and rest can be told apart. -/
theorem append_inj_at {c : Char} {front other rest tail : List Char} (clear : c ∉ front)
    (otherClear : c ∉ other) (starts : ∀ d ∈ rest.head?, d = c)
    (tailStarts : ∀ d ∈ tail.head?, d = c) :
    front ++ rest = other ++ tail ↔ front = other ∧ rest = tail := by
  have cut {front rest : List Char} (clear : c ∉ front) (starts : ∀ d ∈ rest.head?, d = c) :
      (front ++ rest).takeWhile (· ≠ c) = front := by
    have passes : ∀ d ∈ front, decide (d ≠ c) = true := fun d inside =>
      decide_eq_true fun same => clear (same ▸ inside)
    rw [List.takeWhile_append_of_pos passes]
    cases rest with
    | nil => simp
    | cons d rest => simp [starts d rfl]
  constructor
  · intro same
    have fronts : front = other := by
      rw [← cut clear starts, same, cut otherClear tailStarts]
    exact ⟨fronts, List.append_cancel_left (fronts ▸ same)⟩
  · rintro ⟨rfl, rfl⟩
    rfl

/-- A text with details, if there are any. -/
def labelled (label : String) (details : Option String) : String :=
  label ++ details.elim "" (": " ++ ·)

theorem toList_labelled (label : String) (details : Option String) :
    (labelled label details).toList =
      label.toList ++ details.elim [] (':' :: ' ' :: ·.toList) := by
  cases details <;> simp [labelled, String.toList_append]

theorem labelled_inj {label other : String} {details others : Option String}
    (clear : ':' ∉ label.toList) (otherClear : ':' ∉ other.toList) :
    labelled label details = labelled other others ↔ label = other ∧ details = others := by
  have starts (details : Option String) :
      ∀ c ∈ (details.elim [] (':' :: ' ' :: ·.toList)).head?, c = ':' := by
    cases details <;> simp
  rw [← String.toList_inj, toList_labelled, toList_labelled,
    append_inj_at clear otherClear (starts details) (starts others), String.toList_inj]
  cases details <;> cases others <;> simp [String.toList_inj]

namespace Status

theorem mem_names {status : Status} {name : String} (named : status.name? = some name) :
    (status, name) ∈ names := by
  obtain ⟨earlier, later, split, -⟩ := List.lookup_eq_some_iff.mp named
  rw [split]
  exact List.mem_append_right _ List.mem_cons_self

/-- No two statuses have the same name. -/
theorem ofName?_of_mem : ∀ entry ∈ names, ofName? entry.2 = some entry.1 := by decide +kernel

theorem paren_not_mem_name : ∀ entry ∈ names, '(' ∉ entry.2.toList := by decide +kernel

/-- A code in parentheses is no name. -/
theorem name_ne_code {status : Status} {name : String} (named : status.name? = some name)
    (code : Nat) : name ≠ "Status(" ++ Numeral.decimal code ++ ")" := by
  rintro rfl
  refine paren_not_mem_name _ (mem_names named) ?_
  simp [String.toList_append]

theorem text_inj {a b : Status} : a.text = b.text ↔ a = b := by
  refine ⟨fun same => ?_, congrArg text⟩
  unfold text at same
  cases named : a.name? with
  | some name =>
    cases other : b.name? with
    | some name' =>
      rw [named, other, Option.getD_some, Option.getD_some] at same
      have found := ofName?_of_mem _ (mem_names named)
      rw [same, ofName?_of_mem _ (mem_names other)] at found
      exact (Option.some.inj found).symm
    | none =>
      rw [named, other] at same
      exact absurd same (name_ne_code named _)
  | none =>
    cases other : b.name? with
    | some name =>
      rw [named, other] at same
      exact absurd same.symm (name_ne_code other _)
    | none =>
      rw [named, other] at same
      simp only [Option.getD_none, String.append_left_inj, String.append_right_inj,
        Numeral.decimal_inj, UInt64.toNat_inj] at same
      cases a
      cases b
      exact congrArg _ same

end Status

namespace Kernel.Rejection

/-- The address of the segment that a file is rejected for. -/
def segment? : Rejection → Option UInt64
  | fileSizeExceedsMemorySize address | segmentOutsideFile address
  | segmentWrapsAround address => some address
  | _ => none

/-- What is wrong with the segment, or with the file. -/
def complaint : Rejection → String
  | fileSizeExceedsMemorySize _ => " has p_filesz > p_memsz"
  | segmentOutsideFile _ => " lies outside the file"
  | segmentWrapsAround _ => " wraps around the address space"
  | rejection => rejection.message

theorem message_eq (rejection : Rejection) :
    rejection.message =
      match rejection.segment? with
      | some address => "segment at " ++ Numeral.address address.toNat ++ rejection.complaint
      | none => rejection.complaint := by
  cases rejection <;> rfl

theorem eq_of_complaint {a b : Rejection} (segments : a.segment? = b.segment?)
    (complaints : a.complaint = b.complaint) : a = b := by
  cases a <;> cases b <;> simp_all [segment?, complaint, message]

/-- The texts about segments are told apart from the others by their first letter. -/
theorem head?_message (rejection : Rejection) :
    rejection.message.toList.head? = some 's' ↔ rejection.segment?.isSome = true := by
  cases rejection <;> simp [message, segment?, String.toList_append]

theorem head?_complaint {rejection : Rejection} {address : UInt64}
    (segment : rejection.segment? = some address) :
    rejection.complaint.toList.head? = some ' ' := by
  cases rejection with
  | fileSizeExceedsMemorySize | segmentOutsideFile | segmentWrapsAround => simp [complaint]
  | _ => cases segment

/-- The digits of an address end where a complaint starts. -/
theorem segment_inj {m n : Nat} {text other : String} (starts : text.toList.head? = some ' ')
    (otherStarts : other.toList.head? = some ' ') :
    "segment at " ++ Numeral.address m ++ text = "segment at " ++ Numeral.address n ++ other ↔
      m = n ∧ text = other := by
  have blank {text : String} (starts : text.toList.head? = some ' ') :
      ∀ d ∈ text.toList.head?, d = ' ' := by
    rw [starts]
    simp
  rw [Numeral.address, Numeral.address, ← String.toList_inj]
  simp only [String.toList_append, List.append_assoc, List.append_cancel_left_eq]
  rw [append_inj_at (Numeral.blank_not_mem_hex m) (Numeral.blank_not_mem_hex n) (blank starts)
    (blank otherStarts), String.toList_inj, String.toList_inj, Numeral.hex_inj]

theorem message_inj {a b : Rejection} : a.message = b.message ↔ a = b := by
  refine ⟨fun same => ?_, congrArg message⟩
  -- Only texts about a segment start with an s, so both are about one or neither is.
  have sort : a.segment?.isSome = true ↔ b.segment?.isSome = true := by
    rw [← head?_message, ← head?_message, same]
  rw [message_eq a, message_eq b] at same
  cases ofA : a.segment? with
  | none =>
    cases ofB : b.segment? with
    | none =>
      rw [ofA, ofB] at same
      exact eq_of_complaint (ofA.trans ofB.symm) same
    | some n => simp [ofA, ofB] at sort
  | some m =>
    cases ofB : b.segment? with
    | none => simp [ofA, ofB] at sort
    | some n =>
      rw [ofA, ofB] at same
      obtain ⟨addresses, complaints⟩ :=
        (segment_inj (head?_complaint ofA) (head?_complaint ofB)).mp same
      have segments : a.segment? = b.segment? := by
        rw [ofA, ofB, UInt64.toNat_inj.mp addresses]
      exact eq_of_complaint segments complaints

end Kernel.Rejection

theorem Screen.PixelFormat.name_inj {a b : PixelFormat} : a.name = b.name ↔ a = b := by
  cases a <;> cases b <;> decide

namespace Boot

/-- What went wrong, in general. -/
def Cause.label : Cause → String
  | fileNotFound _ => "file not found"
  | io _ => "I/O error"
  | outOfMemory _ => "out of memory"
  | addressRangeUnavailable _ => "address range unavailable"
  | memoryMap _ => "can't get memory map"
  | invalidKernel _ => "invalid kernel image"
  | graphicsNotFound _ => "no graphics output device"
  | unsupportedPixelFormat _ => "unimplemented pixel format"
  | exitBootServices _ => "could not exit boot services"
  | bufferTooSmall => "memory map buffer too small"
  | noLoadSegments => "kernel image has no PT_LOAD segments"

/-- The status, the format or the rejection that a cause tells of. -/
def Cause.details : Cause → Option String
  | fileNotFound status | io status | outOfMemory status | addressRangeUnavailable status
  | memoryMap status | exitBootServices status => some status.text
  | graphicsNotFound status => status.map Status.text
  | invalidKernel rejection => some rejection.message
  | unsupportedPixelFormat format => some format.name
  | bufferTooSmall | noLoadSegments => none

theorem Cause.message_eq_labelled (cause : Cause) :
    cause.message = labelled cause.label cause.details := by
  cases cause with
  | graphicsNotFound status => cases status <;> rfl
  | _ => rfl

theorem Cause.colon_not_mem_label (cause : Cause) : ':' ∉ cause.label.toList := by
  cases cause <;> simp [label]

theorem Cause.message_inj {a b : Cause} : a.message = b.message ↔ a = b := by
  have texts {status other : Option Status} :
      status.map Status.text = other.map Status.text ↔ status = other :=
    (Option.map_injective fun _ _ => Status.text_inj.mp).eq_iff
  rw [message_eq_labelled, message_eq_labelled,
    labelled_inj a.colon_not_mem_label b.colon_not_mem_label]
  cases a <;> cases b <;>
    simp [label, details, Status.text_inj, Kernel.Rejection.message_inj, texts,
      Screen.PixelFormat.name_inj]

theorem Step.text_inj {a b : Step} : a.text = b.text ↔ a = b := by
  cases a <;> cases b <;> decide

theorem Step.colon_not_mem_text (step : Step) : ':' ∉ step.text.toList := by
  cases step <;> decide

/-- **Different failures have different texts**, whatever the step, the status, known or not, the
segment and its address. -/
theorem failures_told_apart {a b : Failure} : a.message = b.message ↔ a = b := by
  have labelled_eq (failure : Failure) :
      failure.message = labelled failure.step.text (some failure.cause.message) :=
    String.append_assoc
  rw [labelled_eq, labelled_eq,
    labelled_inj a.step.colon_not_mem_text b.step.colon_not_mem_text, Option.some_inj,
    Step.text_inj, Cause.message_inj]
  cases a
  cases b
  simp

end Boot

end EfiLoader
