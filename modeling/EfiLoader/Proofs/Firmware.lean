import EfiLoader.Proofs.Attempts

/-!
Firmware to try the loader on: a screen, a memory map, and one file that every path leads to. It
keeps no state, and no call fails but those for pages that it does not grant.
-/

namespace EfiLoader

/-- The answer to every call for the memory map is that report. -/
def Services.Reports (report : MapReport) : (request : Request) → Reply request → Prop
  | .memoryMap _, reply => reply.outcome = .ok report
  | _, _ => True

structure Firmware where
  file : Bytes := []
  report : Services.MapReport := ⟨0, 1, 40, 1⟩
  grant : UInt64 → Nat → Outcome Status UInt64 := fun address _ => .ok address

namespace Firmware

def serve (firmware : Firmware) : Machine Services Unit := fun request => pure <|
  match request with
  | .memoryMap _ => ⟨[], .ok firmware.report⟩
  | .openFile _ => .ok 0
  | .createFile _ => .ok 1
  | .fileSize _ => .ok (.ofNat firmware.file.length)
  | .readFile _ count => .ok ⟨count, firmware.file.take count.toNat⟩
  | .writeFile _ _ => .ok ()
  | .closeFile _ => ()
  | .allocatePool _ => .ok ⟨0x1000, []⟩
  | .freePool _ => .ok ()
  | .allocatePages address count => firmware.grant address count
  | .graphicsMode => .ok (some ⟨0x80000000, 0x1000, 32, 32, 32, .rgb⟩)
  | .exitBootServices _ => .ok ()
  | .store _ _ => ()
  | .fill _ _ _ => ()
  | .log _ => ()

theorem serve_succeeded (firmware : Firmware) (request : Services.Request) (state : Unit)
    (grants : ∀ address count, (firmware.grant address count).isOk = true) :
    Exchange.Succeeded ⟨request, (firmware.serve request state).1⟩ := by
  cases request with
  | allocatePages address count =>
    change Except.map (fun _ => ()) (firmware.grant address count) = _
    have granted := grants address count
    cases grant : firmware.grant address count with
    | error stop => rw [grant] at granted; cases granted
    | ok destination => rfl
  | _ => rfl

theorem serve_reports (firmware : Firmware) (request : Services.Request) (state : Unit) :
    Services.Reports firmware.report request (firmware.serve request state).1 := by
  cases request with
  | memoryMap _ => rfl
  | _ => exact True.intro

end Firmware

end EfiLoader
