import EfiLoader.MemoryMap.Snapshot

/-!
Leaving the boot services. The firmware refuses the key of a map that is out of date; the map is
then taken again and the exit tried once more.
-/

namespace EfiLoader.Boot

def leave (map : MemoryMap) : Program Services (MemoryMap × Outcome Cause Unit) := do
  match ← Services.exitBootServices map.report.key with
  | .ok () => return (map, .ok ())
  | .error .crashed => return (map, .crash)
  | .error (.failed status) =>
    if status ≠ .invalidParameter then return (map, .fail (.exitBootServices status))
    match ← map.retake with
    | (map, .error stop) => return (map, .error stop)
    | (map, .ok ()) =>
      let exited ← Services.exitBootServices map.report.key
      return (map, exited.explain .exitBootServices)

end EfiLoader.Boot
