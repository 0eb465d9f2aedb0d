import WolfTrust.FwuService
import WolfTrust.NorFlash

/-!
The staging backends of the two ports (`wt_fwu_backend_*` in
`port/stm32h563/hsm_flash.c` and `port/mimxrt700/hsm_flash.c`), the gate through
which the confined partition reaches them (`WT_SPM_OP_FWU_BACKEND` in
`src/arch/common/spm_gate_core.c`), and the image header they check. The flash
drivers are `NorFlash` behind the argument checks of `wt_hsm_flash_*`; addresses
are offsets into the update partition.
-/

namespace WolfTrust.FwuFlash

open NorFlash FwuService

/-- `wt_hsm_flash_config_t`. -/
structure Geometry where
  base : Nat
  size : Nat
  sectorSize : Nat
  programUnit : Nat
  deriving DecidableEq, Repr

/-- The first byte of the trailer sector, which is no staging capacity. -/
def Geometry.reserved (cfg : Geometry) : Nat := cfg.size - cfg.sectorSize

/-- The update partition and the flag of its flash context. -/
structure Part where
  flash : Flash
  writeLocked : Bool

def hsmFlashInit (cfg : Geometry) (part : Part) : Bool × Part :=
  if cfg.base = 0 ∨ cfg.size = 0 ∨ cfg.sectorSize = 0 ∨ cfg.programUnit = 0 ∨
      cfg.size % cfg.sectorSize ≠ 0 ∨ cfg.sectorSize % cfg.programUnit ≠ 0 then
    (false, part)
  else (true, { part with writeLocked := false })

def flashRangeOk (cfg : Geometry) (offset size : Nat) : Bool :=
  decide (cfg.sectorSize ≠ 0 ∧ cfg.programUnit ≠ 0 ∧ offset ≤ cfg.size ∧ size ≤ cfg.size - offset)

def hsmFlashErase (cfg : Geometry) (faults : Faults) (offset size : Nat)
    (part : Part) : Bool × Part :=
  if ¬flashRangeOk cfg offset size ∨ offset % cfg.sectorSize ≠ 0 ∨ size % cfg.sectorSize ≠ 0 then
    (false, part)
  else if size ≠ 0 ∧ part.writeLocked then (false, part)
  else if size = 0 then (true, part)
  else
    let erased := erase faults offset size part.flash
    (erased.1, { part with flash := erased.2 })

def hsmFlashProgram (cfg : Geometry) (faults : Faults) (offset : Nat)
    (data : Bytes) (part : Part) : Bool × Part :=
  if ¬flashRangeOk cfg offset data.length ∨ offset % cfg.programUnit ≠ 0 ∨
      data.length % cfg.programUnit ≠ 0 then
    (false, part)
  else if data.length ≠ 0 ∧ part.writeLocked then (false, part)
  else if data.length = 0 then (true, part)
  else
    let programmed := program faults offset data part.flash
    (programmed.1, { part with flash := programmed.2 })

def imageHeaderSize : Nat := 0x400
def imageMagic : UInt32 := 0x464C4F57
def hdrTagVersion : Nat := 0x0001

/-- The two and the four bytes at an offset, little endian. -/
def halfAt (hdr : Contents) (offset : Nat) : Nat :=
  (hdr offset).toNat + 2 ^ 8 * (hdr (offset + 1)).toNat

def longAt (hdr : Contents) (offset : Nat) : UInt32 :=
  UInt32.ofNat (halfAt hdr offset + 2 ^ 16 * halfAt hdr (offset + 2))

/-- The walk over the header's tags. It gives the last version it meets, and
`none` where a tag leaves the header; each round moves the offset, so that as
many rounds as the header has bytes are enough. -/
def scanTags (hdr : Contents) : Nat → Nat → Option UInt32 → Option (Option UInt32)
  | 0, _, version => some version
  | rounds + 1, offset, version =>
    if imageHeaderSize < offset + 4 then some version
    else if hdr offset = 0xFF then scanTags hdr rounds (offset + 1) version
    else
      let tag := halfAt hdr offset
      let len := halfAt hdr (offset + 2)
      if tag = 0 then some version
      else if imageHeaderSize < offset + 4 + len then none
      else
        scanTags hdr rounds (offset + 4 + len)
          (if tag = hdrTagVersion ∧ len = 4 then some (longAt hdr (offset + 4))
            else version)

def imageVersion (hdr : Contents) : Option UInt32 :=
  if longAt hdr 0 ≠ imageMagic then none
  else (scanTags hdr imageHeaderSize 8 none).join

/-- The header checks that both ports make of a staged extent. -/
def headerVersion (hdr : Contents) (stagedSize : Nat) : Option UInt32 :=
  if stagedSize < imageHeaderSize then none
  else if stagedSize - imageHeaderSize < (longAt hdr 4).toNat then none
  else imageVersion hdr

def triggerBlock (cfg : Geometry) : Option Bytes :=
  fwuWolfbootArmTrailer cfg.programUnit

/-- The boot loader finds an update pending. -/
def Triggered (cfg : Geometry) (bytes : Contents) : Prop :=
  bytes (cfg.size - 5) = wolfbootImgStateUpdating ∧
    longAt bytes (cfg.size - 4) = UInt32.ofNat wolfbootMagicTrail

instance (cfg : Geometry) (bytes : Contents) : Decidable (Triggered cfg bytes) :=
  inferInstanceAs (Decidable (_ ∧ _))

namespace Stm32h563

def cfg : Geometry :=
  { base := 0x0C100000, size := 0x40000, sectorSize := 0x2000, programUnit := 16 }

/-- The partition and `g_fwu_erased_sectors`. -/
structure Store where
  part : Part
  erasedSectors : BitVec 32

/-- One sector, unless the mask says it has been erased; the mask has no bits
for sectors from 32 on. -/
def eraseSector (faults : Faults) (s : Nat) (store : Store) : Bool × Store :=
  if s < 32 ∧ store.erasedSectors.getLsbD s then (true, store)
  else
    let erased := hsmFlashErase cfg faults (s * cfg.sectorSize) cfg.sectorSize store.part
    let mask :=
      if erased.1 ∧ s < 32 then store.erasedSectors ||| BitVec.twoPow 32 s
      else store.erasedSectors
    (erased.1, { part := erased.2, erasedSectors := mask })

/-- The last sector is that of the byte before the end, computed in 32 bits. -/
def fwuEnsureErased (faults : Faults) (offset size : Nat) (store : Store) : Bool × Store :=
  let first := offset / cfg.sectorSize
  let final := if offset + size = 0 then 2 ^ 32 - 1 else offset + size - 1
  let last := final / cfg.sectorSize
  untilFailure (eraseSector faults) (List.range' first (last + 1 - first)) store

def fwuBackendBegin (store : Store) : Bool × Store :=
  let started := hsmFlashInit cfg store.part
  if started.1 then (true, { part := started.2, erasedSectors := 0 })
  else (false, { store with part := started.2 })

def programChecked (faults : Faults) (offset : Nat) (data : Bytes) (store : Store) : Bool × Store :=
  let programmed := hsmFlashProgram cfg faults offset data store.part
  (programmed.1 && holds programmed.2.flash offset data,
    { store with part := programmed.2 })

def fwuBackendWrite (faults : Faults) (offset : UInt32) (data : Bytes)
    (store : Store) : Bool × Store :=
  if cfg.reserved ≤ offset.toNat ∨ cfg.reserved - offset.toNat < data.length then
    (false, store)
  else
    let blank := fwuEnsureErased faults offset.toNat data.length store
    if blank.1 then programChecked faults offset.toNat data blank.2 else blank

def fwuBackendDisarm (faults : Faults) (store : Store) : Bool × Store :=
  let erased := hsmFlashErase cfg faults cfg.reserved cfg.sectorSize store.part
  (erased.1, { store with part := erased.2 })

/-- The trailer is erased only where the mask asks for it. -/
def fwuBackendArm (faults : Faults) (_imageSize _version : UInt32) (store : Store) : Bool × Store :=
  match triggerBlock cfg with
  | none => (false, store)
  | some block =>
    let offset := cfg.size - cfg.programUnit
    let blank := fwuEnsureErased faults offset block.length store
    if blank.1 then
      let armed := programChecked faults offset block blank.2
      if armed.1 then armed else (false, (fwuBackendDisarm faults armed.2).2)
    else blank

def fwuBackendVerify (stagedSize : UInt32) (store : Store) : Option UInt32 × Store :=
  match headerVersion store.part.flash.bytes stagedSize.toNat with
  | none => (none, store)
  | some version =>
    (some version,
      { store with
        part := { store.part with flash := approve store.part.flash } })

def fwuFlashBackend (faults : Faults) : Backend Store :=
  { begin := some fwuBackendBegin
    write := some (fwuBackendWrite faults)
    arm := some (fwuBackendArm faults)
    disarm := some (fwuBackendDisarm faults)
    capacity := 0x40000 - 0x2000
    align := 16
    verify := some fwuBackendVerify }

end Stm32h563

namespace Mimxrt700

def cfg : Geometry :=
  { base := 0x38180000, size := 0x40000, sectorSize := 0x1000, programUnit := 16 }

/-- The partition, `g_fwu_erased_end` and `g_fwu_written_end`. -/
structure Store where
  part : Part
  erasedEnd : Nat
  writtenEnd : Nat

def eraseAt (faults : Faults) (s : Nat) (store : Store) : Bool × Store :=
  let erased := hsmFlashErase cfg faults s cfg.sectorSize store.part
  if erased.1 then
    (true, { store with part := erased.2, erasedEnd := s + cfg.sectorSize })
  else (false, { store with part := erased.2 })

/-- The sectors from the erased end up to the end of the range, rounded up. -/
def fwuEnsureErased (faults : Faults) (offset size : Nat) (store : Store) : Bool × Store :=
  let last := (offset + size + cfg.sectorSize - 1) / cfg.sectorSize * cfg.sectorSize
  let count := (last - store.erasedEnd + cfg.sectorSize - 1) / cfg.sectorSize
  untilFailure (eraseAt faults) (List.range' store.erasedEnd count cfg.sectorSize) store

def fwuBackendBegin (store : Store) : Bool × Store :=
  let started := hsmFlashInit cfg store.part
  if started.1 then (true, { part := started.2, erasedEnd := 0, writtenEnd := 0 })
  else (false, { store with part := started.2 })

def programChecked (faults : Faults) (offset : Nat) (data : Bytes) (store : Store) : Bool × Store :=
  let programmed := hsmFlashProgram cfg faults offset data store.part
  (programmed.1 && holds programmed.2.flash offset data,
    { store with part := programmed.2 })

/-- Staging is contiguous, and a block counts once it reads back. -/
def fwuBackendWrite (faults : Faults) (offset : UInt32) (data : Bytes)
    (store : Store) : Bool × Store :=
  if cfg.reserved ≤ offset.toNat ∨ cfg.reserved - offset.toNat < data.length ∨
      offset.toNat ≠ store.writtenEnd then
    (false, store)
  else
    let blank := fwuEnsureErased faults offset.toNat data.length store
    if blank.1 then
      let programmed := programChecked faults offset.toNat data blank.2
      if programmed.1 then
        (true, { programmed.2 with writtenEnd := offset.toNat + data.length })
      else programmed
    else blank

def fwuBackendDisarm (faults : Faults) (store : Store) : Bool × Store :=
  let erased := hsmFlashErase cfg faults cfg.reserved cfg.sectorSize store.part
  (erased.1, { store with part := erased.2 })

/-- The trailer never holds staged data and is erased outright. -/
def fwuBackendArm (faults : Faults) (_imageSize _version : UInt32) (store : Store) : Bool × Store :=
  match triggerBlock cfg with
  | none => (false, store)
  | some block =>
    let blank := fwuBackendDisarm faults store
    if blank.1 then
      let armed := programChecked faults (cfg.size - cfg.programUnit) block blank.2
      if armed.1 then armed else (false, (fwuBackendDisarm faults armed.2).2)
    else blank

/-- The staged extent must be all that was written. -/
def fwuBackendVerify (stagedSize : UInt32) (store : Store) : Option UInt32 × Store :=
  if stagedSize.toNat < imageHeaderSize ∨ stagedSize.toNat ≠ store.writtenEnd then
    (none, store)
  else
    match headerVersion store.part.flash.bytes stagedSize.toNat with
    | none => (none, store)
    | some version =>
      (some version,
        { store with
          part := { store.part with flash := approve store.part.flash } })

def fwuFlashBackend (faults : Faults) : Backend Store :=
  { begin := some fwuBackendBegin
    write := some (fwuBackendWrite faults)
    arm := some (fwuBackendArm faults)
    disarm := some (fwuBackendDisarm faults)
    capacity := 0x40000 - 0x1000
    align := 16
    verify := some fwuBackendVerify }

end Mimxrt700

/-- The backend of the confined partition: every call traps to the gate, which
calls the port's backend and fails where that has no such callback. -/
def spmFwuGate {σ : Type} (flash : Backend σ) : Backend σ :=
  { begin := some fun store =>
      match flash.begin with
      | some begin => begin store
      | none => (false, store)
    write := some fun offset data store =>
      match flash.write with
      | some write => write offset data store
      | none => (false, store)
    arm := some fun size version store =>
      match flash.arm with
      | some arm => arm size version store
      | none => (false, store)
    disarm := some fun store =>
      match flash.disarm with
      | some disarm => disarm store
      | none => (false, store)
    capacity := flash.capacity
    align := flash.align
    verify := some fun size store =>
      match flash.verify with
      | some verify => verify size store
      | none => (none, store) }

/-- What the context of the partition points to. Whether a requested reset is
granted is left open; on target it does not return. -/
def spmFwuLinks {σ : Type} (flash : Backend σ) (granted : Bool) : Links σ :=
  { backend := some (spmFwuGate flash)
    transport := some fun store => (granted, store) }

end WolfTrust.FwuFlash
