import WolfTrust.GuestBinding
import WolfTrust.MpuArmv8m

/-!
The curtain over the RAM of the guests (`src/fabric_windows.c`): a dispatch
closes all of it to the Non-secure side and opens the windows of the guest that
arrives. The STM32H563 port does so with the block filter of the RAM
(`port/stm32h563/platform_stm32h563.c`), the MIMXRT700 port with regions of the
security attribution unit (`port/mimxrt700/platform_mimxrt700.c`,
`src/arch/armv8m/sau_armv8m.c`). The two ports also bind the manifest each in
its own way.
-/

namespace WolfTrust.FabricWindows

open Domain Manifest Pmsav8 SpmGate SpmSched GuestBinding

/-- The extent of the guests' RAM, and the two primitives that change its
security; the barrier after them changes nothing. -/
structure Fabric (σ : Type) where
  extentBase : Nat
  extentEnd : Nat
  closeAll : σ → σ
  openWindow : σ → Nat → Nat → σ

variable {σ : Type}

def Fabric.opens (fabric : Fabric σ) (window : MemoryResource) : Bool :=
  let stop := addPtr window.base window.size
  anySet window.attributes memoryAttrWrite &&
    !(decide (stop ≤ window.base) || decide (window.base < fabric.extentBase) ||
      decide (fabric.extentEnd < stop))

def fabricApplyWindows (fabric : Fabric σ) (windows : List MemoryResource) (s : σ) : σ :=
  windows.foldl (fun s window =>
      if fabric.opens window then fabric.openWindow s window.base window.size else s)
    (fabric.closeAll s)

/-- A guest of a port's table: its image, its RAM and its console, and where the
monitor reads its vectors. -/
structure GuestLayout where
  guestId : Nat
  flashBase : Nat
  flashSize : Nat
  ramBase : Nat
  ramSize : Nat
  usartBase : Nat
  usartSize : Nat
  vectorReadAddress : Nat

def guestConfig (board : Board) (layout : GuestLayout) : GuestConfig :=
  { guestId := layout.guestId
    vectorTable := layout.flashBase
    initialMspNs := layout.ramBase + layout.ramSize
    irqMask := List.replicate maxIrqWords 0
    memoryWindows :=
      [{ base := layout.flashBase, size := layout.flashSize
         attributes := memAttrRead ||| memAttrExec, shareId := resourceShareNone },
        { base := layout.ramBase, size := layout.ramSize
          attributes := memAttrRead ||| memAttrWrite ||| memoryAttrRestartClear
          shareId := resourceShareNone }]
    memoryRegions :=
      [{ base := layout.flashBase, size := layout.flashSize
         attributes := memAttrRead ||| memAttrExec },
        { base := layout.ramBase, size := layout.ramSize
          attributes := memAttrRead ||| memAttrWrite },
        { base := layout.usartBase, size := layout.usartSize
          attributes := memAttrRead ||| memAttrWrite ||| memAttrDevice },
        nscRegion board]
    restartLimit := 3
    restartWindowTicks := 64
    initialDelayTicks := 1
    initialState := .ready
    launchRequired := 0
    port :=
      { requiredCapabilities := portCapabilityAll
        providedCapabilities := portCapabilityAll
        vectorReadAddress := layout.vectorReadAddress } }

namespace Stm32h563

def ramNsBase : Nat := 0x20000000
def guest0RamBase : Nat := 0x20000000
def guest1RamBase : Nat := 0x20010000
def guestRamSize : Nat := 0x10000
def flashNsBase : Nat := 0x08000000
def flashSAliasBase : Nat := 0x0C000000
def guest0FlashBase : Nat := 0x08020000
def guest1FlashBase : Nat := 0x08040000
def guestFlashSize : Nat := 0x20000

def flashToSAlias (address : Nat) : Nat := address - flashNsBase + flashSAliasBase

def partitionConfigs (board : Board) : List GuestConfig :=
  [guestConfig board
      { guestId := 0, flashBase := guest0FlashBase, flashSize := guestFlashSize
        ramBase := guest0RamBase, ramSize := guestRamSize
        usartBase := board.guest0UsartBase, usartSize := usartRegionSize
        vectorReadAddress := flashToSAlias guest0FlashBase },
    guestConfig board
      { guestId := 1, flashBase := guest1FlashBase, flashSize := guestFlashSize
        ramBase := guest1RamBase, ramSize := guestRamSize
        usartBase := board.guest1UsartBase, usartSize := usartRegionSize
        vectorReadAddress := flashToSAlias guest1FlashBase }]

/-- The words of `MPCBB1_SECCFGR`: one bit for each block of the RAM, set where
the block is Secure. -/
abbrev Gtzc := Nat → BitVec 32

def nsWords : Nat :=
  (guest1RamBase + guestRamSize - ramNsBase) / (gtzcMpcbbBlock * 32)

def secureWord : BitVec 32 := 0xFFFFFFFF

/-- The filter as `wt_gtzc_init` leaves it: the guests' RAM is open. -/
def gtzcInit (seccfgr : Gtzc) : Gtzc := fun i =>
  if i < nsWords ∧ i < 16 then 0 else if i < 16 then secureWord else seccfgr i

def gtzcCloseAll (seccfgr : Gtzc) : Gtzc := fun i =>
  if i < nsWords ∧ i < 16 then secureWord else seccfgr i

def clearBlock (seccfgr : Gtzc) (block : Nat) : Gtzc :=
  Function.update seccfgr (block / 32)
    (seccfgr (block / 32) &&& ~~~((1 : BitVec 32) <<< (block % 32)))

def gtzcOpenWindow (seccfgr : Gtzc) (base size : Nat) : Gtzc :=
  let first := (base - ramNsBase) / gtzcMpcbbBlock
  let last := (base + size - ramNsBase + 511) / gtzcMpcbbBlock
  (List.range' first (last - first)).foldl clearBlock seccfgr

def fabric : Fabric Gtzc :=
  { extentBase := ramNsBase
    extentEnd := guest1RamBase + guestRamSize
    closeAll := gtzcCloseAll
    openWindow := gtzcOpenWindow }

/-- The filter lets the Non-secure side at a byte of the RAM. -/
def nonsecure (seccfgr : Gtzc) (address : Nat) : Bool :=
  let block := (address - ramNsBase) / gtzcMpcbbBlock
  !(seccfgr (block / 32)).getLsbD (block % 32)

end Stm32h563

namespace Mimxrt700

def ramNsBase : Nat := 0x20100000
def guestStackWindowSize : Nat := 0x80000
def guest0RamBase : Nat := 0x20100000
def guest1RamBase : Nat := 0x20140000
def guestRamSize : Nat := 0x40000
def flashNsBase : Nat := 0x28000000
def flashSAliasBase : Nat := 0x38000000
def guest0FlashBase : Nat := 0x28080000
def guest0FlashSize : Nat := 0x80000
def guest1FlashBase : Nat := 0x28100000
def guest1FlashSize : Nat := 0x40000
def nscBase : Nat := 0x10200000
def nscEnd : Nat := nscBase + 0x3FF
def lpuart0BaseNs : Nat := 0x40110000
def usartRegionSize : Nat := 0x1000

def flashToSAlias (address : Nat) : Nat := address - flashNsBase + flashSAliasBase

def partitionConfigs (board : Board) : List GuestConfig :=
  [guestConfig board
      { guestId := 0, flashBase := guest0FlashBase, flashSize := guest0FlashSize
        ramBase := guest0RamBase, ramSize := guestRamSize
        usartBase := board.guest0UsartBase, usartSize := usartRegionSize
        vectorReadAddress := flashToSAlias guest0FlashBase },
    guestConfig board
      { guestId := 1, flashBase := guest1FlashBase, flashSize := guest1FlashSize
        ramBase := guest1RamBase, ramSize := guestRamSize
        usartBase := board.guest1UsartBase, usartSize := usartRegionSize
        vectorReadAddress := flashToSAlias guest1FlashBase }]

/-- As on the other port, without its rule about whole blocks. -/
def bindResource (usartBase windowCount : Nat) (bound : List MemoryResource × List MemoryRegion)
    (resource : MemoryResource) : Option (List MemoryResource × List MemoryRegion) :=
  if anySet resource.attributes memAttrDevice then
    if resource.base ≠ usartBase ∨ resource.size ≠ usartRegionSize then none
    else some (bound.1, bound.2 ++ [guestRegion resource])
  else if bound.1.length ≥ windowCount then none
  else some (bound.1 ++ [resource], bound.2 ++ [guestRegion resource])

/-- The regions of the attribution unit, whose two registers have the layout of
those of a protection region, and the next one that a window gets. -/
structure Sau where
  regions : Nat → Region
  dynNext : Nat

def sauRegionCount : Nat := 8
def sauDynFirst : Nat := 3
def sauDynLast : Nat := 6

def sauSetRegion (base limitInclusive : Register) (nsc : Bool) : Region :=
  { rbar := base &&& 0xFFFFFFE0
    rlar := (limitInclusive &&& 0xFFFFFFE0) ||| (if nsc then 2 else 0) ||| 1 }

def sauProgramRegion (sau : Sau) (rnr : Nat) (base limitInclusive : Register)
    (nsc enable : Bool) : Sau :=
  { sau with
    regions := Function.update sau.regions rnr (if enable then sauSetRegion base limitInclusive nsc
      else { sau.regions rnr with rlar := 0 }) }

/-- The port's own regions: the guests' images, the gateway and the console. -/
def sauRegions : List Region :=
  [sauSetRegion (BitVec.ofNat 32 guest0FlashBase)
      (BitVec.ofNat 32 (guest1FlashBase + guest1FlashSize - 1)) false,
    sauSetRegion (BitVec.ofNat 32 nscBase) (BitVec.ofNat 32 nscEnd) true,
    sauSetRegion (BitVec.ofNat 32 lpuart0BaseNs) (BitVec.ofNat 32 (lpuart0BaseNs + 0xFFF)) false]

/-- Every implemented region is cleared before the port's own are set. -/
def sauInit (sau : Sau) : Sau :=
  { sau with
    regions := fun i =>
      sauRegions.getD i (if i < sauRegionCount then { sau.regions i with rlar := 0 }
        else sau.regions i) }

def sauCloseAll (sau : Sau) : Sau :=
  { (List.range' sauDynFirst (sauDynLast + 1 - sauDynFirst)).foldl
      (fun sau rnr => sauProgramRegion sau rnr 0 0 false false) sau with
    dynNext := sauDynFirst }

def sauOpenWindow (sau : Sau) (base size : Nat) : Sau :=
  if sau.dynNext ≤ sauDynLast then
    { sauProgramRegion sau sau.dynNext (BitVec.ofNat 32 base)
        (MpuArmv8m.lastByte base size) false true with
      dynNext := sau.dynNext + 1 }
  else sau

def fabric : Fabric Sau :=
  { extentBase := ramNsBase
    extentEnd := ramNsBase + guestStackWindowSize
    closeAll := sauCloseAll
    openWindow := sauOpenWindow }

def sauMatches (sau : Sau) (address : Nat) : List Nat :=
  (List.range sauRegionCount).filter fun rnr =>
    (sau.regions rnr).covers (BitVec.ofNat 32 address)

/-- The architecture's rule: a byte is Non-secure that one region matches which is
not of the gateway; one that no region or several match is Secure. -/
def nonsecure (sau : Sau) (address : Nat) : Bool :=
  match sauMatches sau address with
  | [rnr] => !(sau.regions rnr).rlar.getLsbD 1
  | _ => false

end Mimxrt700

end WolfTrust.FabricWindows
