import WolfTrust.FfmClient
import WolfTrust.FfmService

namespace WolfTrust.SpmGate

open Domain ByteMemory FfmRuntime FfmClient FfmService

structure MemoryRegion where
  base : Nat
  size : Nat
  attributes : Word
  deriving DecidableEq, Repr

/-- The resolved protection domain of a partition. -/
structure SecureDomain where
  domainId : Nat
  regions : List MemoryRegion
  deriving DecidableEq, Repr

def memAttrRead : Word := memoryAttrRead
def memAttrWrite : Word := memoryAttrWrite

/-- A region that holds `[addr, addr + len)` with the access asked for. -/
def regionContains (addr len : Nat) (needWrite : Bool) (region : MemoryRegion) : Bool :=
  !(region.size == 0 || region.base > uintptrMax - region.size) &&
    anySet region.attributes memAttrRead &&
    !(needWrite && !anySet region.attributes memAttrWrite) &&
    region.base ≤ addr && addr + len ≤ region.base + region.size

def secureDomainContains (domain : SecureDomain) (addr len : Nat) (needWrite : Bool) : Bool :=
  if len = 0 then false
  else if addr > uintptrMax - len then false
  else domain.regions.any (regionContains addr len needWrite)

inductive SpmOp
  | wait
  | get
  | setRhandle
  | read
  | skip
  | write
  | reply
  | notify
  | clear
  | version
  | connect
  | call
  | close
  | eoi
  | irqEnable
  | lifecycle
  | fwuBackend
  | keystoreFlash
  | keystoreEntropy
  | keystoreLock
  | measureRead
  | other (value : Nat)
  deriving DecidableEq, Repr

structure SpmCall where
  op : SpmOp
  partitionId : Int
  notifyPartition : Int
  msgHandle : Int
  signalMask : Word
  timeout : Word
  signal : Word
  vecIdx : Nat
  buffer : Nat
  numBytes : Nat
  status : Int
  msg : Nat
  asserted : Nat
  rhandle : Nat
  sid : Nat
  version : Nat
  callType : Int
  spIn : Nat → IoVec
  spOut : Nat → IoVec
  spInLen : Nat
  spOutLen : Nat
  pendingMsg : Nat
  pendingValid : Bool
  retStatus : Int
  retSize : Nat
  retInt : Int
  retHandle : Int
  retVersion : Nat
  retTick : Nat
  mustPanic : Bool

def queueNone : Nat := 2 ^ 16 - 1
def spmSpIovec : Nat := 4
def sizeofSignal : Nat := 4
def sizeofMsg : Nat := 48

/-- Without a domain the caller owns the range; a zero-length transfer moves
nothing. -/
def spmCheckBuffer (domain : Option SecureDomain) (buffer len : Nat)
    (needWrite : Bool) : Except FfmError Unit :=
  match domain with
  | none => .ok ()
  | some domain =>
    if len = 0 then .ok ()
    else if buffer = 0 then .error .buffer
    else if secureDomainContains domain buffer len needWrite then .ok ()
    else .error .buffer

/-- The message a resumed call may harvest: an allocated one of the acting
partition. -/
def spmPendingOwned (runtime : Runtime) (call : SpmCall) : Option MessageIndex :=
  if h : call.pendingMsg < 8 then
    let m : MessageIndex := ⟨call.pendingMsg, h⟩
    if (runtime.messages m).allocated = true ∧
        (runtime.messages m).caller = call.partitionId then some m
    else none
  else none

theorem spmPendingOwned_eq_some {runtime : Runtime} {call : SpmCall}
    {m : MessageIndex} (h : spmPendingOwned runtime call = some m) :
    (runtime.messages m).allocated = true ∧ (runtime.messages m).caller = call.partitionId := by
  unfold spmPendingOwned at h
  split at h
  · simp only at h
    split at h
    · rename_i howned
      cases h
      exact howned
    · cases h
  · cases h

def SpmCall.inVec (call : SpmCall) : List IoVec :=
  (List.range call.spInLen).map call.spIn

def SpmCall.outVec (call : SpmCall) : List IoVec :=
  (List.range call.spOutLen).map call.spOut

def checkVectors (domain : Option SecureDomain) (needWrite : Bool) :
    List IoVec → Except FfmError Unit
  | [] => .ok ()
  | vector :: rest =>
    match spmCheckBuffer domain vector.base vector.len needWrite with
    | .error e => .error e
    | .ok _ => checkVectors domain needWrite rest

def spmCheckSpVectors (domain : Option SecureDomain) (call : SpmCall) : Except FfmError Unit :=
  if call.spInLen > spmSpIovec ∨ call.spOutLen > spmSpIovec then
    .error .argument
  else
    match checkVectors domain false call.inVec with
    | .error e => .error e
    | .ok _ => checkVectors domain true call.outVec

/-- The result fields as the gate presets them. -/
def SpmCall.preset (call : SpmCall) : SpmCall :=
  { call with
    retStatus := psaErrorProgrammerError, retSize := 0
    retInt := FfmError.argument.code, mustPanic := false }

/-- An integer result that is a programmer error unless it is a success. -/
def SpmCall.result (call : SpmCall) (ret : Int) : SpmCall :=
  { call with retInt := ret, mustPanic := ret != ffmSuccess }

/-- A call block with the runtime and the memory it runs on. -/
structure GateState where
  call : SpmCall
  runtime : Runtime
  memory : Memory

def gateWait (domain : Option SecureDomain) (g : GateState) : GateState :=
  match spmCheckBuffer domain g.call.asserted sizeofSignal true with
  | .error e => { g with call := g.call.result e.code }
  | .ok _ =>
    let waited := ffmWait g.runtime g.call.partitionId g.call.signalMask
    { g with
      call :=
        { g.call with
          retInt := waited.1
          mustPanic := waited.1 == FfmError.argument.code }
      memory :=
        match waited.2 with
        | none => g.memory
        | some asserted =>
          g.memory.write g.call.asserted (wordBytes asserted.toNat) }

def gateGet (domain : Option SecureDomain) (g : GateState) : GateState :=
  match spmCheckBuffer domain g.call.msg sizeofMsg true with
  | .error e =>
    { g with call := { g.call.result e.code with retStatus := e.code } }
  | .ok _ =>
    let got := ffmGet g.runtime g.call.partitionId g.call.signal
    match got.1 with
    | .error status =>
      { g with
        call :=
          { g.call with
            retStatus := status, retInt := ffmSuccess
            mustPanic := status != psaSuccess }
        runtime := got.2 }
    | .ok msg =>
      { call :=
          { g.call with retStatus := psaSuccess, retInt := ffmSuccess }
        runtime := got.2
        memory := g.memory.write g.call.msg msg.bytes }

def gateSetRhandle (g : GateState) : GateState :=
  let set := ffmSetRhandle g.runtime g.call.partitionId g.call.msgHandle g.call.rhandle
  { g with call := g.call.result set.1, runtime := set.2 }

def gateRead (domain : Option SecureDomain) (g : GateState) : GateState :=
  let access := ffmMsgAccessCheck g.runtime g.call.partitionId g.call.msgHandle g.call.vecIdx
  if access ≠ ffmSuccess then { g with call := g.call.result access }
  else
    match spmCheckBuffer domain g.call.buffer g.call.numBytes true with
    | .error e => { g with call := g.call.result e.code }
    | .ok _ =>
      let read := ffmRead g.runtime g.memory g.call.partitionId
        g.call.msgHandle g.call.vecIdx g.call.buffer g.call.numBytes
      { call := { g.call with retSize := read.1, retInt := ffmSuccess }
        runtime := read.2.1
        memory := read.2.2 }

def gateSkip (g : GateState) : GateState :=
  let access := ffmMsgAccessCheck g.runtime g.call.partitionId g.call.msgHandle g.call.vecIdx
  if access ≠ ffmSuccess then { g with call := g.call.result access }
  else
    let skipped := ffmSkip g.runtime g.call.partitionId g.call.msgHandle
      g.call.vecIdx g.call.numBytes
    { g with
      call := { g.call with retSize := skipped.1, retInt := ffmSuccess }
      runtime := skipped.2 }

def gateWrite (domain : Option SecureDomain) (g : GateState) : GateState :=
  match spmCheckBuffer domain g.call.buffer g.call.numBytes false with
  | .error e => { g with call := g.call.result e.code }
  | .ok _ =>
    let written := ffmWrite g.runtime g.memory g.call.partitionId
      g.call.msgHandle g.call.vecIdx g.call.buffer g.call.numBytes
    { call := g.call.result written.1
      runtime := written.2.1
      memory := written.2.2 }

def gateReply (g : GateState) : GateState :=
  let replied := ffmReply g.runtime g.call.partitionId g.call.msgHandle g.call.status
  { g with call := g.call.result replied.1, runtime := replied.2 }

def gateNotify (g : GateState) : GateState :=
  let notified := ffmNotify g.runtime g.call.notifyPartition
  { g with call := g.call.result notified.1, runtime := notified.2 }

def gateClear (g : GateState) : GateState :=
  let cleared := ffmClear g.runtime g.call.partitionId
  { g with call := g.call.result cleared.1, runtime := cleared.2 }

/-- The number of a declared interrupt, for the platform to enable. -/
def gateIrqLookup (g : GateState) : GateState :=
  match ffmIrqLookup g.runtime g.call.partitionId g.call.signalMask with
  | .error e => { g with call := { g.call with retInt := e.code } }
  | .ok irq =>
    { g with call := { g.call with retInt := ffmSuccess, retVersion := irq } }

def gateEoi (g : GateState) : GateState :=
  let ended := ffmEoi g.runtime g.call.partitionId g.call.signalMask
  if ended.1 ≠ ffmSuccess then { g with call := g.call.result ended.1 }
  else gateIrqLookup { g with runtime := ended.2 }

def gateIrqEnable (g : GateState) : GateState :=
  let looked := gateIrqLookup g
  { looked with
    call :=
      { looked.call with mustPanic := looked.call.retInt != ffmSuccess } }

def ffmServiceVersion (runtime : Runtime) (caller : Int) (sid : Nat) : Nat :=
  match findService runtime sid with
  | .error _ => psaVersionNone
  | .ok service =>
    if callerAllowed runtime caller service then
      (runtime.layout.descriptor service).version
    else psaVersionNone

def gateVersion (g : GateState) : GateState :=
  { g with
    call :=
      { g.call with
        retVersion := ffmServiceVersion g.runtime g.call.partitionId g.call.sid
        retInt := ffmSuccess } }

def gateLifecycle (g : GateState) : GateState :=
  { g with
    call :=
      { g.call with retVersion := g.runtime.lifecycle, retInt := ffmSuccess } }

/-- A begun request: the client blocks until the message completes. -/
def SpmCall.pend (call : SpmCall) (m : MessageIndex) : SpmCall :=
  { call with
    pendingMsg := m, pendingValid := true, retInt := FfmError.notReady.code }

/-- The resume half the three client operations share. -/
def gateResume (g : GateState) (finish : MessageIndex → GateState) : GateState :=
  match spmPendingOwned g.runtime g.call with
  | none => { g with call := { g.call with retInt := FfmError.argument.code } }
  | some m =>
    if !ffmMsgComplete g.runtime m then
      { g with call := { g.call with retInt := FfmError.notReady.code } }
    else finish m

def gateConnectBegin (g : GateState) : GateState :=
  let begun := connectRequest g.runtime g.call.partitionId g.call.sid g.call.version
  match begun.1 with
  | .error status =>
    { g with
      call :=
        { g.call with
          retHandle := status, retInt := ffmSuccess
          mustPanic := status == psaErrorConnectionRefused || status == psaErrorNotSupported }
      runtime := begun.2 }
  | .ok request =>
    { g with call := g.call.pend request.message, runtime := begun.2 }

def gateConnectFinish (g : GateState) (m : MessageIndex) : GateState :=
  let finished := ffmConnectFinish g.runtime m
  { g with
    call :=
      { g.call with
        retHandle := finished.1, pendingValid := false, retInt := ffmSuccess }
    runtime := finished.2 }

def gateConnect (g : GateState) : GateState :=
  if g.call.pendingValid = false then gateConnectBegin g
  else gateResume g (gateConnectFinish g)

def gateCallBegin (ports : PortOps) (domain : Option SecureDomain) (g : GateState) : GateState :=
  match spmCheckSpVectors domain g.call with
  | .error _ =>
    { g with
      call :=
        { g.call with
          retStatus := psaErrorProgrammerError, retInt := ffmSuccess
          mustPanic := true } }
  | .ok _ =>
    let begun := callRequest ports g.runtime g.memory g.call.partitionId
      g.call.msgHandle g.call.callType g.call.inVec g.call.outVec
    match begun.1 with
    | .error status =>
      { call :=
          { g.call with
            retStatus := status, retInt := ffmSuccess
            mustPanic := status == psaErrorProgrammerError }
        runtime := begun.2.1
        memory := begun.2.2 }
    | .ok request =>
      { call :=
          { g.call.pend request.message with retStatus := psaSuccess }
        runtime := begun.2.1
        memory := begun.2.2 }

def gateCallFinish (ports : PortOps) (g : GateState) (m : MessageIndex) : GateState :=
  let finished := ffmCallFinish ports g.runtime g.memory m g.call.outVec
  { call :=
      { g.call with
        retStatus := finished.1, pendingValid := false, retInt := ffmSuccess
        mustPanic := finished.1 == psaErrorProgrammerError
        spOut := fun i => finished.2.1.getD i (g.call.spOut i) }
    runtime := finished.2.2.1
    memory := finished.2.2.2 }

def gateCall (ports : PortOps) (domain : Option SecureDomain) (g : GateState) : GateState :=
  if g.call.pendingValid = false then gateCallBegin ports domain g
  else gateResume g (gateCallFinish ports g)

def gateCloseBegin (g : GateState) : GateState :=
  let begun := closeRequest g.runtime g.call.partitionId g.call.msgHandle
  match begun.1 with
  | .error e => { g with call := g.call.result e.code, runtime := begun.2 }
  | .ok none =>
    { g with
      call := { g.call with pendingMsg := queueNone, retInt := ffmSuccess }
      runtime := begun.2 }
  | .ok (some request) =>
    { g with call := g.call.pend request.message, runtime := begun.2 }

def gateCloseFinish (g : GateState) (m : MessageIndex) : GateState :=
  let finished := ffmCloseFinish g.runtime m
  { g with
    call := { g.call with retInt := finished.1, pendingValid := false }
    runtime := finished.2 }

def gateClose (g : GateState) : GateState :=
  if g.call.pendingValid = false then gateCloseBegin g
  else gateResume g (gateCloseFinish g)

/-- `wt_spm_gate`: whether the operation ran, and the state after it. The
block is read once and written back once. -/
def spmGate (ports : PortOps) (domain : Option SecureDomain) (g : GateState) : Int × GateState :=
  let held := { g with call := g.call.preset }
  match g.call.op with
  | .wait => (ffmSuccess, gateWait domain held)
  | .get => (ffmSuccess, gateGet domain held)
  | .setRhandle => (ffmSuccess, gateSetRhandle held)
  | .read => (ffmSuccess, gateRead domain held)
  | .skip => (ffmSuccess, gateSkip held)
  | .write => (ffmSuccess, gateWrite domain held)
  | .reply => (ffmSuccess, gateReply held)
  | .notify => (ffmSuccess, gateNotify held)
  | .clear => (ffmSuccess, gateClear held)
  | .version => (ffmSuccess, gateVersion held)
  | .connect => (ffmSuccess, gateConnect held)
  | .call => (ffmSuccess, gateCall ports domain held)
  | .close => (ffmSuccess, gateClose held)
  | .eoi => (ffmSuccess, gateEoi held)
  | .irqEnable => (ffmSuccess, gateIrqEnable held)
  | .lifecycle => (ffmSuccess, gateLifecycle held)
  | .fwuBackend | .keystoreFlash | .keystoreEntropy | .keystoreLock
  | .measureRead | .other _ => (FfmError.argument.code, held)

end WolfTrust.SpmGate
