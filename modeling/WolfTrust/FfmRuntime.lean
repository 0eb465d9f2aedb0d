import Mathlib.Data.Fintype.Basic
import WolfTrust.ByteMemory
import WolfTrust.LinkedQueue
import WolfTrust.Manifest

/-!
The state of the FF-M runtime and its internal helpers (`src/ffm.c`). The
runtime's tables are functions on their index ranges. What never changes after
`wt_ffm_init` is the `Layout`; the queue heads, tails and message links are one
`Queues`. Null-pointer branches have no counterpart, and the debug records
`g_wt_ffm_*`, which nothing reads back, are left out.
-/

namespace WolfTrust.FfmRuntime

open Domain Manifest LinkedQueue

def ffmMaxPartitions : Nat := 9
def ffmMaxServices : Nat := 20
def ffmMaxConnections : Nat := 16
def ffmMaxConnectionsPerClient : Nat := 8
def ffmMaxNsConnections : Nat := 12
def ffmMaxMessages : Nat := 8
def ffmTransferBytes : Nat := 1024
def psaMaxIovec : Nat := 4

abbrev PartitionIndex := Fin 9
abbrev ServiceIndex := Fin 20
abbrev ConnectionIndex := Fin 16
abbrev MessageIndex := Fin 8

def psaSuccess : Int := 0
def psaErrorProgrammerError : Int := -129
def psaErrorConnectionRefused : Int := -130
def psaErrorConnectionBusy : Int := -131
def psaErrorGenericError : Int := -132
def psaErrorNotSupported : Int := -134
def psaErrorInvalidArgument : Int := -135
def psaErrorDoesNotExist : Int := -140
def psaErrorInsufficientMemory : Int := -141

def psaNullHandle : Int := 0
def psaVersionNone : Nat := 0
def psaFrameworkVersion : Nat := 0x0100
def psaDoorbell : Word := 0x8
def psaIpcCall : Int := 0
def psaIpcConnect : Int := -1
def psaIpcDisconnect : Int := -2

inductive FfmError
  | argument
  | manifest
  | policy
  | resource
  | handle
  | state
  | notReady
  | buffer
  | isolation
  deriving DecidableEq, Repr

def ffmSuccess : Int := 0

def FfmError.code : FfmError → Int
  | .argument => -600
  | .manifest => -601
  | .policy => -602
  | .resource => -603
  | .handle => -604
  | .state => -605
  | .notReady => -606
  | .buffer => -607
  | .isolation => -608

theorem FfmError.code_ne_success (e : FfmError) : e.code ≠ ffmSuccess := by
  cases e <;> decide

inductive ConnectionState
  | free
  | pendingConnect
  | connecting
  | idle
  | pendingRequest
  | active
  | disconnecting
  | error
  | terminal
  deriving DecidableEq, Repr

/-- Whether the client of a message has returned, and what is left to do when
the service replies. -/
inductive Abandoned
  | no
  | reply
  | close
  deriving DecidableEq, Repr

/-- `releases` counts how often the slot was released; no code reads it. -/
structure Connection where
  state : ConnectionState
  caller : Int
  generation : Nat
  clientInstance : Nat
  rhandle : Nat
  serviceIndex : ServiceIndex
  allocated : Bool
  errorLatch : Bool
  releases : Nat

/-- A message slot without its queue link. `releases` is as in `Connection`. -/
structure Message where
  caller : Int
  replyStatus : Int
  generation : Nat
  connectionIndex : ConnectionIndex
  serviceIndex : ServiceIndex
  type : Int
  inCount : Nat
  outCount : Nat
  inSize : Nat → Nat
  outSize : Nat → Nat
  inOffset : Nat → Nat
  outOffset : Nat → Nat
  inPosition : Nat → Nat
  outPosition : Nat → Nat
  clientOutput : Nat → Nat
  input : Nat → UInt8
  output : Nat → UInt8
  allocated : Bool
  active : Bool
  complete : Bool
  abandoned : Abandoned
  releases : Nat

/-- One `psa_invec` or `psa_outvec`. -/
structure IoVec where
  base : Nat
  len : Nat
  deriving DecidableEq, Repr

/-- What happened so far, for statements about whole runs; no code reads it.
An allocation of a slot is named by the slot's release count. -/
inductive Event
  | connectionOpened (caller handle : Int) (slot : ConnectionIndex)
      (allocation : Nat)
  | connectionIssued (caller handle : Int) (slot : ConnectionIndex)
      (allocation : Nat)
  | messageDelivered (partition handle : Int) (slot : MessageIndex)
      (allocation : Nat)
  | messageAnswered (slot : MessageIndex) (allocation : Nat)
  | partitionRestarted (partition : Int)
  | callIssued (slot : MessageIndex) (allocation : Nat)
      (inputs : List (List UInt8)) (outputs : List IoVec)
  | chunkRead (slot : MessageIndex) (allocation vec : Nat)
      (bytes : List UInt8)
  | chunkSkipped (slot : MessageIndex) (allocation vec count : Nat)
  | chunkWritten (slot : MessageIndex) (allocation vec : Nat)
      (bytes : List UInt8)
  deriving DecidableEq, Repr

/-- The tables `wt_ffm_init` fills in from the manifest. -/
structure Layout where
  partitionCount : Nat
  serviceCount : Nat
  manifest : PartitionIndex → PartitionManifest
  descriptor : ServiceIndex → ServiceDescriptor
  partitionIndex : ServiceIndex → PartitionIndex

structure Runtime where
  layout : Layout
  asserted : PartitionIndex → Word
  instances : PartitionIndex → Nat
  queues : Queues ServiceIndex MessageIndex
  connections : ConnectionIndex → Connection
  messages : MessageIndex → Message
  lifecycle : Nat
  history : List Event

/-- The port's checks of a caller's memory. -/
structure PortOps where
  checkRead : Int → Nat → Nat → Bool
  checkWrite : Int → Nat → Nat → Bool

/-- The domain id of the partition behind a service, as a signed client id.
Validation keeps domain ids within `INT32_MAX`. -/
def Layout.server (layout : Layout) (service : ServiceIndex) : Int :=
  (layout.manifest (layout.partitionIndex service)).domainId

def Runtime.setConnection (runtime : Runtime) (c : ConnectionIndex)
    (change : Connection → Connection) : Runtime :=
  { runtime with
    connections :=
      Function.update runtime.connections c (change (runtime.connections c)) }

def Runtime.setMessage (runtime : Runtime) (m : MessageIndex)
    (change : Message → Message) : Runtime :=
  { runtime with
    messages :=
      Function.update runtime.messages m (change (runtime.messages m)) }

def Runtime.setState (runtime : Runtime) (c : ConnectionIndex)
    (state : ConnectionState) : Runtime :=
  runtime.setConnection c fun connection => { connection with state := state }

def Runtime.setAsserted (runtime : Runtime) (p : PartitionIndex) (signals : Word) : Runtime :=
  { runtime with asserted := Function.update runtime.asserted p signals }

def Runtime.record (runtime : Runtime) (event : Event) : Runtime :=
  { runtime with history := event :: runtime.history }

def handleIndexMask : Nat := 0x1F
def handleTypeShift : Nat := 5
def handleTypeMask : Nat := 0x3
def handleGenShift : Nat := 7
def handleGenMask : Nat := 0x00FFFFFF
def handleConnection : Nat := 1
def handleMessage : Nat := 2

def nextGeneration (generation : Nat) : Nat :=
  let next := (generation + 1) &&& handleGenMask
  if next = 0 then 1 else next

def makeHandle (type index generation : Nat) : Int :=
  (((generation &&& handleGenMask) <<< handleGenShift) |||
    ((type &&& handleTypeMask) <<< handleTypeShift) ||| (index + 1) : Nat)

/-- The slot index and generation a handle encodes. -/
def decodeHandle (handle : Int) (type limit : Nat) : Except FfmError (Nat × Nat) :=
  if handle ≤ 0 then .error .handle
  else
    let value := handle.toNat
    let encodedType := (value >>> handleTypeShift) &&& handleTypeMask
    let encodedIndex := value &&& handleIndexMask
    if encodedType ≠ type ∨ encodedIndex = 0 ∨ encodedIndex > limit then
      .error .handle
    else if value >>> handleGenShift = 0 then .error .handle
    else .ok (encodedIndex - 1, value >>> handleGenShift)

def findPartition (runtime : Runtime) (partitionId : Int) : Except FfmError PartitionIndex :=
  if partitionId ≤ 0 then .error .argument
  else
    match (List.finRange 9).find? fun i =>
        i.val < runtime.layout.partitionCount &&
          ((runtime.layout.manifest i).domainId : Int) == partitionId with
    | some i => .ok i
    | none => .error .policy

def callerInstance (runtime : Runtime) (caller : Int) : Nat :=
  match findPartition runtime caller with
  | .ok i => runtime.instances i
  | .error _ => 0

def findService (runtime : Runtime) (sid : Nat) : Except FfmError ServiceIndex :=
  if sid = 0 then .error .argument
  else
    match (List.finRange 20).find? fun i =>
        i.val < runtime.layout.serviceCount && (runtime.layout.descriptor i).sid == sid with
    | some i => .ok i
    | none => .error .policy

def callerAllowed (runtime : Runtime) (caller : Int) (service : ServiceIndex) : Bool :=
  if caller = 0 ∨ runtime.layout.serviceCount ≤ service.val then false
  else if caller < 0 then
    (runtime.layout.descriptor service).nonsecureClients != 0
  else
    match (List.finRange 9).find? fun i =>
        i.val < runtime.layout.partitionCount &&
          ((runtime.layout.manifest i).domainId : Int) == caller with
    | none => false
    | some i =>
      if i = runtime.layout.partitionIndex service then false
      else (runtime.layout.manifest i).dependencies.any fun sid =>
        sid == (runtime.layout.descriptor service).sid

def versionAllowed (service : ServiceDescriptor) (requested : Nat) : Bool :=
  if requested = 0 then false
  else
    match service.versionPolicy with
    | .unspecified => true
    | .strict => requested == service.version
    | .relaxed => requested ≤ service.version

def takeConnection (runtime : Runtime) (c : ConnectionIndex) : Runtime :=
  runtime.setConnection c fun connection =>
    { connection with allocated := true, state := .free, errorLatch := false }

/-- The first free connection slot, marked allocated. -/
def allocConnection (runtime : Runtime) : Option (ConnectionIndex × Runtime) :=
  match (List.finRange 16).find? fun i =>
      !(runtime.connections i).allocated with
  | none => none
  | some i => some (i, takeConnection runtime i)

def clearedConnection (generation releases : Nat) : Connection :=
  { state := .free, caller := 0, generation, clientInstance := 0
    rhandle := 0, serviceIndex := 0, allocated := false, errorLatch := false
    releases }

def clearedMessage (generation releases : Nat) : Message :=
  { caller := 0, replyStatus := 0, generation, connectionIndex := 0
    serviceIndex := 0, type := 0, inCount := 0, outCount := 0
    inSize := fun _ => 0, outSize := fun _ => 0
    inOffset := fun _ => 0, outOffset := fun _ => 0
    inPosition := fun _ => 0, outPosition := fun _ => 0
    clientOutput := fun _ => 0, input := fun _ => 0, output := fun _ => 0
    allocated := false, active := false, complete := false
    abandoned := .no, releases }

/-- A slot as its release leaves it. -/
def Connection.released (connection : Connection) : Connection :=
  clearedConnection (nextGeneration connection.generation) (connection.releases + 1)

@[inherit_doc Connection.released]
def Message.released (message : Message) : Message :=
  clearedMessage (nextGeneration message.generation) (message.releases + 1)

def releaseConnection (runtime : Runtime) (c : ConnectionIndex) : Runtime :=
  runtime.setConnection c Connection.released

def connectionFromHandle (runtime : Runtime) (caller handle : Int) :
    Except FfmError ConnectionIndex :=
  match decodeHandle handle handleConnection ffmMaxConnections with
  | .error e => .error e
  | .ok (index, generation) =>
    let c : ConnectionIndex := Fin.ofNat 16 index
    let connection := runtime.connections c
    if connection.allocated = false ∨ connection.generation ≠ generation then
      .error .handle
    else if connection.caller ≠ caller then .error .policy
    else if connection.clientInstance ≠ callerInstance runtime caller then
      .error .handle
    else .ok c

def takeMessage (runtime : Runtime) (m : MessageIndex) : Runtime :=
  let marked := runtime.setMessage m fun message =>
    { message with allocated := true }
  { marked with queues := marked.queues.detach m }

/-- The first free message slot, marked allocated and out of any queue. -/
def allocMessage (runtime : Runtime) : Option (MessageIndex × Runtime) :=
  match (List.finRange 8).find? fun i => !(runtime.messages i).allocated with
  | none => none
  | some i => some (i, takeMessage runtime i)

def releaseMessage (runtime : Runtime) (m : MessageIndex) : Runtime :=
  let cleared := runtime.setMessage m Message.released
  { cleared with queues := cleared.queues.detach m }

def messageFromHandle (runtime : Runtime) (partitionId handle : Int) :
    Except FfmError MessageIndex :=
  match decodeHandle handle handleMessage ffmMaxMessages with
  | .error e => .error e
  | .ok (index, generation) =>
    let m : MessageIndex := Fin.ofNat 8 index
    let message := runtime.messages m
    if message.allocated = false ∨ message.active = false ∨
        message.generation ≠ generation then .error .handle
    else if runtime.layout.server message.serviceIndex ≠ partitionId then
      .error .policy
    else .ok m

/-- Closing a connection whose abandoned message still waits for its reply
leaves the disconnect to that reply. -/
def closeAbandoned (runtime : Runtime) (c : ConnectionIndex) : Option Runtime :=
  match (List.finRange 8).find? fun i =>
      (runtime.messages i).allocated && (runtime.messages i).abandoned != .no &&
        (runtime.messages i).connectionIndex == c with
  | none => none
  | some i =>
    some ((runtime.setMessage i fun message =>
      { message with abandoned := .close }).setState c .disconnecting)

def updateServiceSignal (runtime : Runtime) (s : ServiceIndex) : Runtime :=
  let p := runtime.layout.partitionIndex s
  let signal := (runtime.layout.descriptor s).signal
  { runtime with
    asserted := Function.update runtime.asserted p (match runtime.queues.head s with
        | none => runtime.asserted p &&& ~~~signal
        | some _ => runtime.asserted p ||| signal) }

def enqueue (runtime : Runtime) (s : ServiceIndex) (m : MessageIndex) : Runtime :=
  updateServiceSignal { runtime with queues := runtime.queues.push s m } s

/-- Unlink an undelivered message. A duplicate-free queue has at most
`ffmMaxMessages` members, so the walk ends within its fuel. -/
def dequeueMessage (runtime : Runtime) (s : ServiceIndex) (m : MessageIndex) : Runtime :=
  updateServiceSignal
    { runtime with queues := runtime.queues.remove (ffmMaxMessages + 1) s m } s

/-- The entries of unused table slots, which the code leaves null. -/
def noPartition : PartitionManifest :=
  { name := [], domainId := 0, frameworkVersion := 0, model := .ipc
    priority := .low, services := [], dependencies := [], interrupts := [] }

def noService : ServiceDescriptor :=
  { name := [], sid := 0, version := 0, versionPolicy := .strict, signal := 0
    statelessHandleIndex := 0, nonsecureClients := 0, connectionBased := 0 }

/-- The service count after the checks of `wt_ffm_init` on each partition. -/
def countServices : List PartitionManifest → Nat → Except FfmError Nat
  | [], count => .ok count
  | partition :: rest, count =>
    if partition.model ≠ .ipc then .error .manifest
    else if partition.frameworkVersion > psaFrameworkVersion then
      .error .manifest
    else if partition.services.length > ffmMaxServices - count then
      .error .manifest
    else countServices rest (count + partition.services.length)

/-- Every service with the index of its partition, in manifest order. -/
def flatServices (manifest : SystemManifest) : List (ServiceDescriptor × Nat) :=
  manifest.partitions.zipIdx.flatMap fun (partition, i) =>
    partition.services.map fun service => (service, i)

def layoutOf (manifest : SystemManifest) (serviceCount : Nat) : Layout :=
  { partitionCount := manifest.partitions.length
    serviceCount
    manifest := fun i => manifest.partitions.getD i noPartition
    descriptor := fun s => ((flatServices manifest).getD s (noService, 0)).1
    partitionIndex := fun s =>
      Fin.ofNat 9 ((flatServices manifest).getD s (noService, 0)).2 }

def ffmInit (manifest : SystemManifest) : Except FfmError Runtime :=
  if manifest.partitions.length > ffmMaxPartitions then .error .manifest
  else
    match countServices manifest.partitions 0 with
    | .error e => .error e
    | .ok serviceCount =>
      .ok
        { layout := layoutOf manifest serviceCount
          asserted := fun _ => 0
          instances := fun _ => 0
          queues :=
            { head := fun _ => none
              tail := fun _ => none
              next := fun _ => none }
          connections := fun _ => clearedConnection 1 0
          messages := fun _ => clearedMessage 1 0
          lifecycle := 0
          history := [] }

theorem allocConnection_eq_some {runtime runtime' : Runtime}
    {c : ConnectionIndex} (h : allocConnection runtime = some (c, runtime')) :
    (runtime.connections c).allocated = false ∧ runtime' = takeConnection runtime c := by
  unfold allocConnection at h
  split at h
  · cases h
  · rename_i i hi
    obtain ⟨rfl, rfl⟩ := Prod.mk.inj (Option.some.inj h)
    exact ⟨by simpa using List.find?_some hi, rfl⟩

theorem allocMessage_eq_some {runtime runtime' : Runtime} {m : MessageIndex}
    (h : allocMessage runtime = some (m, runtime')) :
    (runtime.messages m).allocated = false ∧ runtime' = takeMessage runtime m := by
  unfold allocMessage at h
  split at h
  · cases h
  · rename_i i hi
    obtain ⟨rfl, rfl⟩ := Prod.mk.inj (Option.some.inj h)
    exact ⟨by simpa using List.find?_some hi, rfl⟩

variable {runtime : Runtime}

theorem findService_eq_ok {sid : Nat} {s : ServiceIndex}
    (h : findService runtime sid = .ok s) : s.val < runtime.layout.serviceCount := by
  unfold findService at h
  split at h
  · cases h
  · split at h
    · rename_i i hi
      cases h
      have hfound := List.find?_some hi
      simp only [Bool.and_eq_true, decide_eq_true_eq] at hfound
      exact hfound.1
    · cases h

theorem findPartition_eq_ok {partitionId : Int}
    {p : PartitionIndex} (h : findPartition runtime partitionId = .ok p) :
    0 < partitionId ∧ p.val < runtime.layout.partitionCount ∧
      ((runtime.layout.manifest p).domainId : Int) = partitionId := by
  unfold findPartition at h
  split at h
  · cases h
  · rename_i hpos
    split at h
    · rename_i i hi
      cases h
      have hfound := List.find?_some hi
      simp only [Bool.and_eq_true, decide_eq_true_eq, beq_iff_eq] at hfound
      exact ⟨by omega, hfound⟩
    · cases h

theorem connectionFromHandle_eq_ok {caller handle : Int} {c : ConnectionIndex}
    (h : connectionFromHandle runtime caller handle = .ok c) :
    (runtime.connections c).allocated = true ∧ (runtime.connections c).caller = caller ∧
      (runtime.connections c).clientInstance = callerInstance runtime caller ∧
      ∃ index, decodeHandle handle handleConnection ffmMaxConnections =
        .ok (index, (runtime.connections c).generation) ∧
        c = Fin.ofNat 16 index := by
  unfold connectionFromHandle at h
  split at h
  · cases h
  · rename_i index generation hdecode
    simp only at h
    split_ifs at h with hslot hcaller hinstance
    cases h
    push Not at hslot hcaller hinstance
    refine ⟨by simpa using hslot.1, hcaller, hinstance, index, ?_, rfl⟩
    rw [hslot.2]
    exact hdecode

theorem messageFromHandle_eq_ok {partitionId handle : Int} {m : MessageIndex}
    (h : messageFromHandle runtime partitionId handle = .ok m) :
    (runtime.messages m).allocated = true ∧ (runtime.messages m).active = true ∧
      runtime.layout.server (runtime.messages m).serviceIndex = partitionId ∧
      ∃ index, decodeHandle handle handleMessage ffmMaxMessages =
        .ok (index, (runtime.messages m).generation) ∧
        m = Fin.ofNat 8 index := by
  unfold messageFromHandle at h
  split at h
  · cases h
  · rename_i index generation hdecode
    simp only at h
    split_ifs at h with hslot hserver
    cases h
    push Not at hslot hserver
    refine ⟨by simpa using hslot.1, by simpa using hslot.2.1, hserver, index, ?_, rfl⟩
    rw [hslot.2.2]
    exact hdecode

end WolfTrust.FfmRuntime
