import EfiLoader.Status

/-!
Scripts for test firmware: for each service a queue of turns. A call takes the next turn of its
service; behind the end of its queue a service behaves as it normally does.
-/

namespace EfiLoader.Testbed

/-- Numbers that a call reports in place of its own. -/
structure Report where
  claim : Option UInt64 := none
  count : Option Nat := none
  mapSize : Option UInt64 := none
  key : Option UInt64 := none
  stride : Option UInt64 := none
  version : Option UInt32 := none
  deriving DecidableEq, Repr

inductive Turn where
  | normal
  | status (status : Status)
  /-- At most so many bytes. -/
  | limit (count : Nat)
  | report (report : Report)
  deriving DecidableEq, Repr

namespace Turn

def status? : Turn → Option Status
  | status s => some s
  | _ => none

def limit? : Turn → Option Nat
  | limit n => some n
  | _ => none

def reported : Turn → Report
  | report r => r
  | _ => {}

end Turn

abbrev Script (Service : Type) := List (Service × List Turn)

namespace Script

variable {Service : Type} [DecidableEq Service]

def queue (script : Script Service) (service : Service) : List Turn :=
  (script.lookup service).getD []

def put (script : Script Service) (service : Service) (turns : List Turn) : Script Service :=
  (service, turns) :: script.filter fun entry => entry.1 ≠ service

/-- The turn of a call, and the script after it. -/
def next (script : Script Service) (service : Service) : Turn × Script Service :=
  match script.queue service with
  | [] => (.normal, script)
  | turn :: rest => (turn, script.put service rest)

end Script

end EfiLoader.Testbed
