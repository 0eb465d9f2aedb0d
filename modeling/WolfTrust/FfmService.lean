import WolfTrust.FfmRuntime

namespace WolfTrust.FfmService

open Domain Manifest ByteMemory FfmRuntime

def interruptMask (manifest : PartitionManifest) : Word :=
  manifest.interrupts.foldl (fun mask interrupt => mask ||| interrupt.signal) 0

def partitionSignalSet (runtime : Runtime) (p : PartitionIndex) : Word :=
  let services := (List.finRange 20).foldl (fun set i =>
    if i.val < runtime.layout.serviceCount ∧ runtime.layout.partitionIndex i = p then
      set ||| (runtime.layout.descriptor i).signal
    else set) psaDoorbell
  (runtime.layout.manifest p).interrupts.foldl
    (fun set interrupt => set ||| interrupt.signal) services

/-- The result and, where the mask is accepted, the signals stored. -/
def ffmWait (runtime : Runtime) (partitionId : Int) (signalMask : Word) : Int × Option Word :=
  if signalMask = 0 then (FfmError.argument.code, none)
  else
    match findPartition runtime partitionId with
    | .error _ => (FfmError.policy.code, none)
    | .ok p =>
      if !anySet signalMask (partitionSignalSet runtime p) then
        (FfmError.argument.code, none)
      else
        let asserted := runtime.asserted p &&& signalMask
        (if asserted = 0 then FfmError.notReady.code else ffmSuccess, some asserted)

def ffmNotify (runtime : Runtime) (partitionId : Int) : Int × Runtime :=
  match findPartition runtime partitionId with
  | .error _ => (FfmError.policy.code, runtime)
  | .ok p =>
    (ffmSuccess, runtime.setAsserted p (runtime.asserted p ||| psaDoorbell))

def ffmClear (runtime : Runtime) (partitionId : Int) : Int × Runtime :=
  match findPartition runtime partitionId with
  | .error _ => (FfmError.policy.code, runtime)
  | .ok p =>
    if !anySet (runtime.asserted p) psaDoorbell then
      (FfmError.state.code, runtime)
    else
      (ffmSuccess, runtime.setAsserted p (runtime.asserted p &&& ~~~psaDoorbell))

def singleSignal (signal : Word) : Bool :=
  signal != 0 && signal &&& (signal - 1) == 0

def ffmEoi (runtime : Runtime) (partitionId : Int) (irqSignal : Word) : Int × Runtime :=
  match findPartition runtime partitionId with
  | .error _ => (FfmError.policy.code, runtime)
  | .ok p =>
    if !singleSignal irqSignal then (FfmError.argument.code, runtime)
    else if !anySet irqSignal (interruptMask (runtime.layout.manifest p)) then
      (FfmError.policy.code, runtime)
    else if !anySet (runtime.asserted p) irqSignal then
      (FfmError.state.code, runtime)
    else
      (ffmSuccess, runtime.setAsserted p (runtime.asserted p &&& ~~~irqSignal))

def ffmIrqLookup (runtime : Runtime) (partitionId : Int) (irqSignal : Word) : Except FfmError Nat :=
  match findPartition runtime partitionId with
  | .error _ => .error .policy
  | .ok p =>
    if !singleSignal irqSignal then .error .argument
    else
      match (runtime.layout.manifest p).interrupts.find? fun interrupt =>
          interrupt.signal == irqSignal with
      | none => .error .policy
      | some interrupt => .ok interrupt.interrupt

def ffmIrqRoute (runtime : Runtime) (irq : Nat) : Except FfmError (Int × Word) :=
  match (List.finRange 9).findSome? fun p =>
      if p.val < runtime.layout.partitionCount then
        ((runtime.layout.manifest p).interrupts.find? fun interrupt =>
            interrupt.interrupt == irq).map fun interrupt =>
          (((runtime.layout.manifest p).domainId : Int), interrupt.signal)
      else none with
  | some route => .ok route
  | none => .error .policy

def ffmAssertSignal (runtime : Runtime) (partitionId : Int) (irqSignal : Word) : Int × Runtime :=
  match ffmIrqLookup runtime partitionId irqSignal with
  | .error e => (e.code, runtime)
  | .ok _ =>
    match findPartition runtime partitionId with
    | .error _ => (FfmError.policy.code, runtime)
    | .ok p =>
      (ffmSuccess, runtime.setAsserted p (runtime.asserted p ||| irqSignal))

/-- `psa_msg_t` -/
structure PsaMsg where
  type : Int
  handle : Int
  clientId : Int
  rhandle : Nat
  inSize : Nat → Nat
  outSize : Nat → Nat

/-- The 48 bytes of a `psa_msg_t` on the 32-bit target. -/
def PsaMsg.bytes (msg : PsaMsg) : List UInt8 :=
  let signed (value : Int) : Nat := (value % 2 ^ 32).toNat
  ([signed msg.type, signed msg.handle, signed msg.clientId, msg.rhandle] ++
    (List.range 4).map msg.inSize ++ (List.range 4).map msg.outSize).flatMap
    wordBytes

def findServiceBySignal (runtime : Runtime) (p : PartitionIndex)
    (signal : Word) : Option ServiceIndex :=
  (List.finRange 20).find? fun i =>
    i.val < runtime.layout.serviceCount && runtime.layout.partitionIndex i == p &&
      (runtime.layout.descriptor i).signal == signal

def deliveredState (type : Int) (state : ConnectionState) : ConnectionState :=
  if type = psaIpcConnect then .connecting
  else if type ≥ psaIpcCall then .active
  else state

/-- Take message `m` off the queue of `service` and mark it active. -/
def deliverMessage (runtime : Runtime) (partitionId : Int)
    (service : ServiceIndex) (m : MessageIndex) : PsaMsg × Runtime :=
  let popped := { runtime with queues := runtime.queues.pop service m }
  let activated := popped.setMessage m fun message =>
    { message with active := true }
  let message := activated.messages m
  let signalled := updateServiceSignal activated message.serviceIndex
  let c := message.connectionIndex
  let delivered := signalled.setState c
    (deliveredState message.type (signalled.connections c).state)
  let handle := makeHandle handleMessage m message.generation
  ({ type := message.type, handle, clientId := message.caller
     rhandle := (delivered.connections c).rhandle
     inSize := message.inSize, outSize := message.outSize },
    delivered.record (.messageDelivered partitionId handle m message.releases))

def ffmGet (runtime : Runtime) (partitionId : Int) (signal : Word) : Except Int PsaMsg × Runtime :=
  if signal = 0 then (.error psaErrorProgrammerError, runtime)
  else
    match findPartition runtime partitionId with
    | .error _ => (.error psaErrorProgrammerError, runtime)
    | .ok p =>
      match findServiceBySignal runtime p signal with
      | none => (.error psaErrorDoesNotExist, runtime)
      | some service =>
        match runtime.queues.head service with
        | none => (.error psaErrorDoesNotExist, runtime)
        | some m =>
          let delivered := deliverMessage runtime partitionId service m
          (.ok delivered.1, delivered.2)

def ffmSetRhandle (runtime : Runtime) (partitionId handle : Int) (rhandle : Nat) : Int × Runtime :=
  match messageFromHandle runtime partitionId handle with
  | .error _ => (FfmError.handle.code, runtime)
  | .ok m =>
    if (runtime.messages m).type = psaIpcDisconnect then
      (ffmSuccess, runtime)
    else
      (ffmSuccess, runtime.setConnection (runtime.messages m).connectionIndex fun connection =>
          { connection with rhandle := rhandle })

def ffmMsgAccessCheck (runtime : Runtime) (partitionId handle : Int) (vecIdx : Nat) : Int :=
  if vecIdx ≥ psaMaxIovec then FfmError.argument.code
  else
    match messageFromHandle runtime partitionId handle with
    | .error _ => FfmError.handle.code
    | .ok m =>
      if (runtime.messages m).type < psaIpcCall then FfmError.state.code
      else ffmSuccess

/-- The rest of an input vector, as far as a read or skip may go. -/
def inputRemaining (message : Message) (vec : Nat) : Nat :=
  message.inSize vec - message.inPosition vec

def advanceInput (runtime : Runtime) (m : MessageIndex) (vec length : Nat) : Runtime :=
  runtime.setMessage m fun message =>
    { message with
      inPosition := Function.update message.inPosition vec (message.inPosition vec + length) }

def ffmRead (runtime : Runtime) (memory : Memory) (partitionId handle : Int)
    (vec buffer numBytes : Nat) : Nat × Runtime × Memory :=
  if buffer = 0 ∨ vec ≥ psaMaxIovec then (0, runtime, memory)
  else
    match messageFromHandle runtime partitionId handle with
    | .error _ => (0, runtime, memory)
    | .ok m =>
      let message := runtime.messages m
      if message.type < psaIpcCall ∨ vec ≥ message.inCount then
        (0, runtime, memory)
      else
        let length := min numBytes (inputRemaining message vec)
        let bytes := load message.input (message.inOffset vec + message.inPosition vec) length
        (length, (advanceInput runtime m vec length).record
            (.chunkRead m message.releases vec bytes),
          memory.write buffer bytes)

def ffmSkip (runtime : Runtime) (partitionId handle : Int) (vec numBytes : Nat) : Nat × Runtime :=
  if vec ≥ psaMaxIovec then (0, runtime)
  else
    match messageFromHandle runtime partitionId handle with
    | .error _ => (0, runtime)
    | .ok m =>
      let message := runtime.messages m
      if message.type < psaIpcCall ∨ vec ≥ message.inCount then (0, runtime)
      else
        let length := min numBytes (inputRemaining message vec)
        (length, (advanceInput runtime m vec length).record
          (.chunkSkipped m message.releases vec length))

def ffmWrite (runtime : Runtime) (memory : Memory) (partitionId handle : Int)
    (vec buffer numBytes : Nat) : Int × Runtime × Memory :=
  if (buffer = 0 ∧ numBytes ≠ 0) ∨ vec ≥ psaMaxIovec then
    (FfmError.argument.code, runtime, memory)
  else
    match messageFromHandle runtime partitionId handle with
    | .error _ => (FfmError.argument.code, runtime, memory)
    | .ok m =>
      let message := runtime.messages m
      if message.type < psaIpcCall then
        (FfmError.state.code, runtime, memory)
      else if vec ≥ message.outCount then
        (if numBytes = 0 then ffmSuccess else FfmError.buffer.code, runtime, memory)
      else if numBytes > message.outSize vec - message.outPosition vec then
        (FfmError.buffer.code, runtime, memory)
      else
        let payload := memory.read buffer numBytes
        let written := runtime.setMessage m fun message =>
          { message with
            output := store message.output
              (message.outOffset vec + message.outPosition vec) payload.1
            outPosition := Function.update message.outPosition vec
              (message.outPosition vec + numBytes) }
        (ffmSuccess, written.record (.chunkWritten m message.releases vec payload.1), payload.2)

/-- The reply to an abandoned message that still owes the service a
disconnection turns its slot into that disconnection. -/
def owesDisconnect (message : Message) : Bool :=
  (message.type == psaIpcConnect && message.replyStatus == psaSuccess) ||
    (message.type ≥ psaIpcCall && message.abandoned == .close)

def finishAbandoned (runtime : Runtime) (m : MessageIndex) : Runtime :=
  let message := runtime.messages m
  let c := message.connectionIndex
  let disconnect := owesDisconnect message
  let dropped :=
    if !disconnect && message.type < psaIpcCall then
      releaseConnection runtime c
    else runtime
  let released := releaseMessage dropped m
  if disconnect then
    let connection := released.connections c
    let reused := released.setMessage m fun message =>
      { message with
        allocated := true, abandoned := .close, caller := connection.caller
        connectionIndex := c, serviceIndex := connection.serviceIndex
        type := psaIpcDisconnect }
    enqueue (reused.setState c .disconnecting) connection.serviceIndex m
  else released

/-- The state a reply moves the connection to, or the refusal of a status the
message type does not allow. -/
def repliedState (type status : Int) (errorLatch : Bool) : Except FfmError ConnectionState :=
  if type = psaIpcConnect then
    if status ≠ psaSuccess ∧ status ≠ psaErrorConnectionRefused ∧
        status ≠ psaErrorConnectionBusy then .error .argument
    else if status = psaSuccess then .ok .idle
    else .ok .error
  else if type = psaIpcDisconnect then .ok .terminal
  else if type ≥ psaIpcCall then
    if status = psaErrorConnectionRefused ∨ status = psaErrorConnectionBusy then .error .argument
    else if status = psaErrorProgrammerError ∨ errorLatch = true then
      .ok .error
    else .ok .idle
  else .error .state

def ffmReply (runtime : Runtime) (partitionId handle status : Int) : Int × Runtime :=
  match messageFromHandle runtime partitionId handle with
  | .error _ => (FfmError.handle.code, runtime)
  | .ok m =>
    let message := runtime.messages m
    let c := message.connectionIndex
    match repliedState message.type status (runtime.connections c).errorLatch with
    | .error e => (e.code, runtime)
    | .ok state =>
      let answered := ((runtime.setState c state).setMessage m fun message =>
          { message with
            replyStatus := status, active := false
            complete := true }).record (.messageAnswered m message.releases)
      (ffmSuccess,
        if message.abandoned ≠ .no then finishAbandoned answered m
        else answered)

end WolfTrust.FfmService
