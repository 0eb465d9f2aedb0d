import WolfTrust.SpmSched

/-!
The privileged dispatcher of the partitions' traps
(`src/arch/common/spm_gate_core.c`): it reads the call block out of the caller's
memory, runs the platform services itself, hands everything else to the gate,
and writes the block back. The conformance build's extra services are left out.
-/

namespace WolfTrust.SpmDispatch

open Domain ByteMemory FfmRuntime SpmGate SpmSched

def spmFwuBegin : Int := 0
def spmFwuWrite : Int := 1
def spmFwuArm : Int := 2
def spmFwuDisarm : Int := 3
def spmFwuReboot : Int := 4
def spmFwuFloor : Int := 5
def spmFwuVerify : Int := 6
def spmFwuActive : Int := 7

def spmKsFlashRead : Int := 0
def spmKsFlashProgram : Int := 1
def spmKsFlashErase : Int := 2
def spmKsFlashVerify : Int := 3
def spmKsFlashBlankcheck : Int := 4
def spmKsFlashCleanup : Int := 5

def spmKsLockAcquire : Int := 0
def spmKsLockRelease : Int := 1

def psaBlock : Word := 0x80000000

def sizeofCall : Nat := 168
def sizeofMeasurement : Nat := 44

/-- What the port does for the dispatcher, over its own state: the firmware
staging backend, the flash callbacks, the entropy source, the lock of the store
and the guest measurements. A callback that fills a buffer of the caller fills
no more than it was asked to. -/
structure PlatformOps (σ : Type*) where
  monotonicTicks : σ → Nat
  fwuBegin : Option (σ → Int × σ)
  fwuWrite : Option (σ → Nat → List UInt8 → Int × σ)
  fwuArm : Option (σ → Nat → Nat → Int × σ)
  fwuDisarm : Option (σ → Int × σ)
  fwuVerify : Option (σ → Nat → (Int × Nat) × σ)
  rollbackImageFloor : σ → Option Nat
  activeImageVersion : σ → Nat
  flashRead : σ → Nat → Nat → (Int × List UInt8) × σ
  flashProgram : σ → Nat → List UInt8 → Int × σ
  flashErase : σ → Nat → Nat → Int × σ
  flashVerify : σ → Nat → List UInt8 → Int × σ
  flashBlankCheck : σ → Nat → Nat → Int × σ
  flashCleanup : σ → Int × σ
  rngGenerateBlock : σ → Nat → (Int × List UInt8) × σ
  mutexAcquireQueued : σ → Nat → Int × σ
  mutexRelease : σ → Int × σ
  measurementCount : σ → Nat
  measurement : σ → Nat → Option (List UInt8)
  secureIrqEnable : σ → Nat → σ
  flashRead_length : ∀ s offset size, (flashRead s offset size).1.2.length ≤ size
  rngGenerateBlock_length : ∀ s size, (rngGenerateBlock s size).1.2.length ≤ size
  measurement_length : ∀ s index record, measurement s index = some record →
    record.length = sizeofMeasurement

/-- The partitions the platform services are pinned to; a manifest may have no
firmware update partition. -/
structure PinnedIds where
  fwu : Option Int
  vault : Int
  hsm : Int
  attest : Int

inductive WaitKind
  | none
  | signal
  | message
  | lock
  deriving DecidableEq, Repr

/-- Why a partition is suspended. -/
structure Wait where
  kind : WaitKind
  mask : Word
  msg : Nat
  deriving DecidableEq, Repr

/-- What a trap works on: the block as it was read, and the state around it. -/
structure DispatchState (σ : Type*) where
  call : SpmCall
  runtime : Runtime
  memory : Memory
  platform : σ
  wait : Wait
  panicTrap : Bool

/-- A granted reset does not return. -/
inductive Dispatched
  | returned (status : Int)
  | reset
  deriving DecidableEq, Repr

section Services

variable {σ : Type*} (ops : PlatformOps σ) (slot : SpmSp)

def bufferOk (d : DispatchState σ) (needWrite : Bool) : Bool :=
  secureDomainContains slot.table d.call.buffer d.call.numBytes needWrite

def DispatchState.answer (d : DispatchState σ) (ret : Int) : Dispatched × DispatchState σ :=
  (.returned ffmSuccess, { d with call := { d.call with retInt := ret } })

def DispatchState.ran (d : DispatchState σ) (result : Int × σ) : Dispatched × DispatchState σ :=
  DispatchState.answer { d with platform := result.2 } result.1

/-- A callback that is given the bytes of the caller's buffer. -/
def DispatchState.gives (d : DispatchState σ)
    (run : List UInt8 → Int × σ) : Dispatched × DispatchState σ :=
  let data := d.memory.read d.call.buffer d.call.numBytes
  DispatchState.ran { d with memory := data.2 } (run data.1)

def DispatchState.fills (d : DispatchState σ)
    (result : (Int × List UInt8) × σ) : Dispatched × DispatchState σ :=
  DispatchState.ran
    { d with memory := d.memory.write d.call.buffer result.1.2 }
    (result.1.1, result.2)

def dispatchFwu (d : DispatchState σ) : Dispatched × DispatchState σ :=
  let call := d.call
  let platform := d.platform
  if call.callType = spmFwuBegin then
    match ops.fwuBegin with
    | none => d.answer (-1)
    | some run => d.ran (run platform)
  else if call.callType = spmFwuWrite then
    match ops.fwuWrite with
    | none => d.answer (-1)
    | some run =>
      if bufferOk slot d false then d.gives (run platform call.vecIdx)
      else d.answer (-1)
  else if call.callType = spmFwuArm then
    match ops.fwuArm with
    | none => d.answer (-1)
    | some run => d.ran (run platform call.numBytes call.version)
  else if call.callType = spmFwuDisarm then
    match ops.fwuDisarm with
    | none => d.answer (-1)
    | some run => d.ran (run platform)
  else if call.callType = spmFwuReboot then (.reset, d)
  else if call.callType = spmFwuFloor then
    match ops.rollbackImageFloor platform with
    | none => d.answer (-1)
    | some floor =>
      DispatchState.answer
        { d with call := { call with retVersion := floor } } 0
  else if call.callType = spmFwuVerify then
    match ops.fwuVerify with
    | none => d.answer (-1)
    | some run =>
      let verified := run platform call.numBytes
      let version :=
        if verified.1.1 = 0 then verified.1.2 else call.retVersion
      DispatchState.ran
        { d with call := { call with retVersion := version } }
        (verified.1.1, verified.2)
  else if call.callType = spmFwuActive then
    DispatchState.answer
      { d with
        call := { call with retVersion := ops.activeImageVersion platform } } 0
  else d.answer (-1)

/-- `wt_spm_keystore_op_pinned` -/
def keystoreOpPinned (op : SpmOp) (caller vault crypto : Int) : Bool :=
  if caller ≤ 0 then false
  else caller == vault || (op == .keystoreEntropy && caller == crypto)

def dispatchFlash (d : DispatchState σ) : Dispatched × DispatchState σ :=
  let call := d.call
  let platform := d.platform
  if call.callType = spmKsFlashRead ∧ bufferOk slot d true then
    d.fills (ops.flashRead platform call.vecIdx call.numBytes)
  else if call.callType = spmKsFlashProgram ∧ bufferOk slot d false then
    d.gives (ops.flashProgram platform call.vecIdx)
  else if call.callType = spmKsFlashErase then
    d.ran (ops.flashErase platform call.vecIdx call.numBytes)
  else if call.callType = spmKsFlashVerify ∧ bufferOk slot d false then
    d.gives (ops.flashVerify platform call.vecIdx)
  else if call.callType = spmKsFlashBlankcheck then
    d.ran (ops.flashBlankCheck platform call.vecIdx call.numBytes)
  else if call.callType = spmKsFlashCleanup then
    d.ran (ops.flashCleanup platform)
  else d.answer (-1)

def dispatchEntropy (d : DispatchState σ) : Dispatched × DispatchState σ :=
  if bufferOk slot d true then
    d.fills (ops.rngGenerateBlock d.platform d.call.numBytes)
  else d.answer (-1)

/-- Behind the holder of the lock the caller is queued and blocks; it is told to
retry. -/
def dispatchLock (d : DispatchState σ) : Dispatched × DispatchState σ :=
  if d.call.callType = spmKsLockAcquire then
    let acquired := ops.mutexAcquireQueued d.platform slot.co
    let wait :=
      if acquired.1 = 1 then { d.wait with kind := .lock }
      else if acquired.1 = 0 then { d.wait with kind := .none }
      else d.wait
    DispatchState.ran { d with wait } acquired
  else if d.call.callType = spmKsLockRelease then
    d.ran (ops.mutexRelease d.platform)
  else d.answer (-1)

def dispatchMeasure (d : DispatchState σ) : Dispatched × DispatchState σ :=
  let counted : DispatchState σ :=
    { d with
      call := { d.call with retSize := ops.measurementCount d.platform } }
  if d.call.buffer = 0 then counted.answer 0
  else
    match ops.measurement d.platform d.call.vecIdx with
    | none => counted.answer (-1)
    | some record =>
      if d.call.numBytes = sizeofMeasurement ∧ bufferOk slot d true then
        DispatchState.answer
          { counted with memory := d.memory.write d.call.buffer record } 0
      else counted.answer (-1)

end Services

/-- Whether the caller has to wait. -/
def spmCallWouldBlock (call : SpmCall) : Bool :=
  call.retInt == FfmError.notReady.code &&
    match call.op with
    | .wait => anySet call.timeout psaBlock
    | .connect | .call | .close => true
    | _ => false

section Dispatch

variable {σ : Type*} (ops : PlatformOps σ) (ids : PinnedIds) (ports : PortOps) (slot : SpmSp)

/-- Everything that is no platform service. The caller's identity is the
scheduled slot's, never the field of the block. -/
def dispatchGate (d : DispatchState σ) : Dispatched × DispatchState σ :=
  let gated := spmGate ports (some slot.table)
    { call := { d.call with partitionId := slot.partitionId }
      runtime := d.runtime, memory := d.memory }
  let call := gated.2.call
  let platform :=
    if (call.op = .irqEnable ∨ call.op = .eoi) ∧ call.retInt = ffmSuccess then
      ops.secureIrqEnable d.platform call.retVersion
    else d.platform
  let wait :=
    if gated.1 = ffmSuccess ∧ spmCallWouldBlock call then
      if call.op = .wait then
        { d.wait with kind := .signal, mask := call.signalMask }
      else { d.wait with kind := .message, msg := call.pendingMsg }
    else { d.wait with kind := .none }
  (.returned gated.1,
    { call, runtime := gated.2.runtime, memory := gated.2.memory, platform, wait
      panicTrap := call.mustPanic })

def spmDispatchHeld (d : DispatchState σ) : Dispatched × DispatchState σ :=
  let refused := (Dispatched.returned FfmError.argument.code, d)
  match d.call.op with
  | .fwuBackend =>
    match ids.fwu with
    | none => dispatchGate ops ports slot d
    | some fwu =>
      if slot.partitionId ≠ fwu then refused else dispatchFwu ops slot d
  | .keystoreFlash =>
    if keystoreOpPinned .keystoreFlash slot.partitionId ids.vault ids.hsm then
      dispatchFlash ops slot d
    else refused
  | .keystoreEntropy =>
    if keystoreOpPinned .keystoreEntropy slot.partitionId ids.vault ids.hsm then
      dispatchEntropy ops slot d
    else refused
  | .keystoreLock =>
    if keystoreOpPinned .keystoreLock slot.partitionId ids.vault ids.hsm then
      dispatchLock ops slot d
    else refused
  | .measureRead =>
    if slot.partitionId ≠ ids.attest then refused
    else dispatchMeasure ops slot d
  | _ => dispatchGate ops ports slot d

/-- How the target lays out a call block in memory. -/
structure CallLayout where
  decode : List UInt8 → SpmCall
  encode : SpmCall → List UInt8
  encode_length : ∀ call, (encode call).length = sizeofCall

/-- The state the dispatcher keeps between traps; each scheduled partition waits
under its coroutine. -/
structure SpmState (σ : Type*) where
  runtime : Runtime
  memory : Memory
  platform : σ
  waits : Nat → Wait
  panicTrap : Bool

/-- A trap of coroutine `current` with a call block at `address`. The block is
read once, so that every check and every use sees the same request. -/
def spmDispatchCall (layout : CallLayout) (slots : List SpmSp) (current address : Nat)
    (state : SpmState σ) : Dispatched × SpmState σ :=
  let refused := (Dispatched.returned FfmError.argument.code, state)
  match spmSlotForCurrent slots current with
  | none => refused
  | some slot =>
    if !secureDomainContains slot.table address sizeofCall true then refused
    else
      let block := state.memory.read address sizeofCall
      let dispatched := spmDispatchHeld ops ids ports slot
        { call :=
            { layout.decode block.1 with
              retTick := ops.monotonicTicks state.platform }
          runtime := state.runtime, memory := block.2
          platform := state.platform, wait := state.waits current
          panicTrap := false }
      let d := dispatched.2
      let memory :=
        match dispatched.1 with
        | .reset => d.memory
        | .returned _ => d.memory.write address (layout.encode d.call)
      (dispatched.1,
        { runtime := d.runtime, memory, platform := d.platform
          waits := Function.update state.waits current d.wait
          panicTrap := d.panicTrap })

end Dispatch

end WolfTrust.SpmDispatch
