/-!
Addresses of pool blocks on test firmware: blocks are numbered in the order in which they were
handed out, and each number has a place of its own.
-/

namespace EfiLoader.Testbed

/-- Largest pool block. -/
def poolLimit : Nat := 0x100000

def poolBase : Nat := 0x7f0000000000

def blockAddress (number : Nat) : UInt64 := .ofNat (poolBase + number * poolLimit)

def blockNumber (address : UInt64) : Nat := (address.toNat - poolBase) / poolLimit

end EfiLoader.Testbed
