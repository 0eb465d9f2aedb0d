import WolfTrust.FfmVectors

/-!
The client side of the runtime: connect, call and close, in the synchronous
form that dispatches the service and in the deferred form of a begin and a
finish. A synchronous request is two functions here, the code before the
dispatch and the code after it; in between any other operation may run.
-/

namespace WolfTrust.FfmClient

open ByteMemory FfmRuntime FfmVectors

structure Request where
  caller : Int
  handle : Int
  connection : ConnectionIndex
  message : MessageIndex
  service : ServiceIndex
  deriving DecidableEq, Repr

def clientConnectionCount (runtime : Runtime) (caller : Int) : Nat :=
  (List.finRange 16).countP fun i =>
    (runtime.connections i).allocated && (runtime.connections i).caller == caller

def nsConnectionCount (runtime : Runtime) : Nat :=
  (List.finRange 16).countP fun i =>
    (runtime.connections i).allocated && (runtime.connections i).caller < 0

/-- Fill the allocated pair of slots of a connect request and queue it. -/
def openConnection (runtime : Runtime) (caller : Int) (service : ServiceIndex)
    (c : ConnectionIndex) (m : MessageIndex) : Request × Runtime :=
  let connected := runtime.setConnection c fun connection =>
    { connection with
      caller, clientInstance := callerInstance runtime caller
      serviceIndex := service, state := .pendingConnect }
  let handle := makeHandle handleConnection c (connected.connections c).generation
  let addressed := connected.setMessage m fun message =>
    { message with
      caller, connectionIndex := c, serviceIndex := service
      type := psaIpcConnect }
  let opened := addressed.record
    (.connectionOpened caller handle c (connected.connections c).releases)
  ({ caller, handle, connection := c, message := m, service }, enqueue opened service m)

/-- `wt_ffm_connect` up to the dispatch, which is also `wt_ffm_connect_begin`.
A refusal is the status the client gets. -/
def connectRequest (runtime : Runtime) (caller : Int) (sid version : Nat) :
    Except Int Request × Runtime :=
  if caller = 0 then (.error psaErrorInvalidArgument, runtime)
  else
    match findService runtime sid with
    | .error _ => (.error psaErrorConnectionRefused, runtime)
    | .ok service =>
      let descriptor := runtime.layout.descriptor service
      if !callerAllowed runtime caller service || !versionAllowed descriptor version then
        (.error psaErrorConnectionRefused, runtime)
      else if descriptor.connectionBased = 0 then
        (.error psaErrorNotSupported, runtime)
      else if clientConnectionCount runtime caller ≥ ffmMaxConnectionsPerClient then
        (.error psaErrorConnectionBusy, runtime)
      else if caller < 0 ∧ nsConnectionCount runtime ≥ ffmMaxNsConnections then
        (.error psaErrorConnectionBusy, runtime)
      else
        match allocConnection runtime with
        | none => (.error psaErrorConnectionBusy, runtime)
        | some (c, reserved) =>
          match allocMessage reserved with
          | none =>
            (.error psaErrorConnectionBusy, releaseConnection reserved c)
          | some (m, allocated) =>
            let opened := openConnection allocated caller service c m
            (.ok opened.1, opened.2)

/-- A programmer error on a valid connection: an idle one drops to the error
state, a busy one is latched. -/
def refuseConnection (runtime : Runtime) (c : ConnectionIndex) : Runtime :=
  if (runtime.connections c).state = .idle then runtime.setState c .error
  else runtime.setConnection c fun connection =>
    { connection with errorLatch := true }

/-- `wt_ffm_call` up to the dispatch, which is also `wt_ffm_call_begin`. -/
def callRequest (ports : PortOps) (runtime : Runtime) (memory : Memory) (caller handle type : Int)
    (inVec outVec : List IoVec) : Except Int Request × Runtime × Memory :=
  if caller = 0 then (.error psaErrorInvalidArgument, runtime, memory)
  else
    match connectionFromHandle runtime caller handle with
    | .error _ => (.error psaErrorProgrammerError, runtime, memory)
    | .ok c =>
      if type < 0 ∨ inVec.length > psaMaxIovec ∨ outVec.length > psaMaxIovec ∨
          inVec.length + outVec.length > psaMaxIovec then
        (.error psaErrorProgrammerError, refuseConnection runtime c, memory)
      else if (runtime.connections c).state ≠ .idle then
        (.error psaErrorProgrammerError, runtime.setConnection c fun connection =>
            { connection with errorLatch := true }, memory)
      else
        match allocMessage runtime with
        | none => (.error psaErrorInsufficientMemory, runtime, memory)
        | some (m, allocated) =>
          let service := (allocated.connections c).serviceIndex
          let addressed := allocated.setMessage m fun message =>
            { message with
              caller, connectionIndex := c, serviceIndex := service, type }
          match prepareVectors ports (addressed.messages m) memory inVec outVec with
          | .error .buffer =>
            (.error psaErrorInvalidArgument, releaseMessage addressed m, memory)
          | .error _ =>
            (.error psaErrorProgrammerError, (releaseMessage addressed m).setState c .error, memory)
          | .ok (prepared, memory') =>
            let captured := (addressed.setMessage m fun _ =>
              prepared).record (.callIssued m prepared.releases
                  (inVec.map fun v => load memory.bytes v.base v.len)
                  outVec)
            (.ok { caller, handle, connection := c, message := m, service },
              enqueue (captured.setState c .pendingRequest) service m,
              memory')

/-- `wt_ffm_close` up to the dispatch, which is also `wt_ffm_close_begin`.
There is no request when nothing has to be sent. -/
def closeRequest (runtime : Runtime) (caller handle : Int) :
    Except FfmError (Option Request) × Runtime :=
  if handle = psaNullHandle then (.ok none, runtime)
  else if caller = 0 then (.error .argument, runtime)
  else
    match connectionFromHandle runtime caller handle with
    | .error e => (.error e, runtime)
    | .ok c =>
      if (runtime.connections c).state ≠ .idle ∧ (runtime.connections c).state ≠ .error then
        (.error .state, runtime)
      else
        match closeAbandoned runtime c with
        | some closed => (.ok none, closed)
        | none =>
          match allocMessage runtime with
          | none => (.error .resource, runtime)
          | some (m, allocated) =>
            let service := (allocated.connections c).serviceIndex
            let addressed := (allocated.setState c .disconnecting).setMessage m fun message =>
                { message with
                  caller, connectionIndex := c, serviceIndex := service
                  type := psaIpcDisconnect }
            (.ok (some { caller, handle, connection := c, message := m, service }),
              enqueue addressed service m)

/-- The result of `wt_ffm_dispatch_message` when the dispatch function
returned `ret`. -/
def dispatchResult (runtime : Runtime) (m : MessageIndex) (ret : Int) : Int :=
  if ret ≠ ffmSuccess then ret
  else if (runtime.messages m).complete = false then FfmError.notReady.code
  else ffmSuccess

/-- `wt_ffm_connect` after the dispatch. -/
def connectReturn (runtime : Runtime) (request : Request) (ret : Int) : Int × Runtime :=
  let m := request.message
  let status := (runtime.messages m).replyStatus
  let busyOr (other : Int) : Int :=
    if ret = FfmError.resource.code then psaErrorConnectionBusy else other
  if ret ≠ ffmSuccess ∧ (runtime.messages m).active = true then
    (busyOr psaErrorGenericError, runtime.setMessage m fun message =>
      { message with abandoned := .close })
  else
    let unlinked :=
      if ret ≠ ffmSuccess then dequeueMessage runtime request.service m
      else runtime
    let released := releaseMessage unlinked m
    if ret ≠ ffmSuccess ∨ status ≠ psaSuccess then
      (busyOr (if status = psaSuccess then psaErrorGenericError else status),
        releaseConnection released request.connection)
    else
      let c := request.connection
      (request.handle, released.record (.connectionIssued request.caller
        request.handle c (released.connections c).releases))

/-- `wt_ffm_call` after the dispatch: the status, the output vectors as the
client finds them, and the new state. -/
def callReturn (ports : PortOps) (runtime : Runtime) (memory : Memory) (request : Request)
    (outVec : List IoVec) (ret : Int) : Int × List IoVec × Runtime × Memory :=
  let m := request.message
  let c := request.connection
  if ret ≠ ffmSuccess then
    let failed := runtime.setState c .error
    if (runtime.messages m).active = true then
      let latched := failed.setConnection c fun connection =>
        { connection with errorLatch := true }
      (psaErrorGenericError, outVec, latched.setMessage m fun message =>
        { message with abandoned := .reply, clientOutput := fun _ => 0 },
        memory)
    else
      (psaErrorGenericError, outVec, releaseMessage
          (dequeueMessage failed (failed.connections c).serviceIndex m) m,
        memory)
  else
    let message := runtime.messages m
    if !outputsWritable ports message then
      (psaErrorProgrammerError, outVec, releaseMessage (runtime.setState c .error) m, memory)
    else
      (message.replyStatus, reportLengths message outVec,
        releaseMessage runtime m, publishOutputs message memory)

/-- `wt_ffm_close` after the dispatch. -/
def closeReturn (runtime : Runtime) (request : Request) (ret : Int) : Int × Runtime :=
  let m := request.message
  let c := request.connection
  if ret ≠ ffmSuccess ∧ (runtime.messages m).active = true then
    (ret, runtime.setMessage m fun message =>
      { message with abandoned := .close })
  else
    let unlinked :=
      if ret ≠ ffmSuccess then
        dequeueMessage runtime (runtime.connections c).serviceIndex m
      else runtime
    let released := releaseMessage unlinked m
    if ret = ffmSuccess then (ret, releaseConnection released c)
    else (ret, released)

/-- Drop a valid connection after a call the gateway refused; an unknown
handle is left alone. -/
def ffmCallRefuse (runtime : Runtime) (caller handle : Int) : Runtime :=
  if caller = 0 then runtime
  else
    match connectionFromHandle runtime caller handle with
    | .error _ => runtime
    | .ok c => refuseConnection runtime c

def ffmMsgComplete (runtime : Runtime) (m : MessageIndex) : Bool :=
  (runtime.messages m).allocated && (runtime.messages m).complete

def ffmConnectFinish (runtime : Runtime) (m : MessageIndex) : Int × Runtime :=
  let c := (runtime.messages m).connectionIndex
  let status := (runtime.messages m).replyStatus
  let released := releaseMessage runtime m
  if status ≠ psaSuccess then (status, releaseConnection released c)
  else
    let handle := makeHandle handleConnection c (released.connections c).generation
    (handle, released.record (.connectionIssued (runtime.messages m).caller
      handle c (released.connections c).releases))

def ffmCallFinish (ports : PortOps) (runtime : Runtime) (memory : Memory) (m : MessageIndex)
    (outVec : List IoVec) : Int × List IoVec × Runtime × Memory :=
  let message := runtime.messages m
  if !outputsWritable ports message then
    (psaErrorProgrammerError, outVec,
      releaseMessage (runtime.setState message.connectionIndex .error) m,
      memory)
  else
    (message.replyStatus, reportLengths message outVec,
      releaseMessage runtime m, publishOutputs message memory)

def ffmCloseFinish (runtime : Runtime) (m : MessageIndex) : Int × Runtime :=
  let c := (runtime.messages m).connectionIndex
  (ffmSuccess, releaseConnection (releaseMessage runtime m) c)

end WolfTrust.FfmClient
