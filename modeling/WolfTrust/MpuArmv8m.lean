import WolfTrust.Pmsav8
import WolfTrust.SpmSched

namespace WolfTrust.MpuArmv8m

open Domain Pmsav8 SpmGate SpmSched

/-- The address of the last byte of `[base, base + size)`. -/
def lastByte (base size : Nat) : Register :=
  BitVec.ofNat 32 base + BitVec.ofNat 32 size - 1

def clearedRegion : Region := { rbar := 0, rlar := 0 }

/-- Slot `i` of a table that is written with `program`. -/
def programmed (program : MemoryRegion → Region) (regions : List MemoryRegion) (i : Nat) : Region :=
  match regions[i]? with
  | some region => if region.size ≠ 0 then program region else clearedRegion
  | none => clearedRegion

/-- What the image and the silicon contribute: the Secure flash and the end of
its code, the boot-handoff scratch, the bounds of the SPM's own RAM and the
number of secure regions. -/
structure SpmImage where
  flashSBase : Nat
  flashSSize : Nat
  eSecureText : Nat
  handoffBase : Nat
  handoffSize : Nat
  sdata : Nat
  estack : Nat
  dregion : Nat

end WolfTrust.MpuArmv8m
