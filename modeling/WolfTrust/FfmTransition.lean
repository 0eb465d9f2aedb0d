import WolfTrust.FfmMachine
import WolfTrust.FfmTables

/-!
What an operation can do to the tables, said once. Every operation except the
two recovery loops is one `Transition`; the invariants are derived from its
cases.
-/

namespace WolfTrust.FfmTransition

open Domain ByteMemory FfmRuntime FfmVectors FfmClient FfmService FfmTables

/-- A request whose client has not returned is still on connection `c`. -/
def Unharvested (runtime : Runtime) (c : ConnectionIndex) : Prop :=
  ∃ m, (runtime.messages m).allocated = true ∧ (runtime.messages m).abandoned = .no ∧
    (runtime.messages m).connectionIndex = c

instance (runtime : Runtime) (c : ConnectionIndex) : Decidable (Unharvested runtime c) :=
  inferInstanceAs (Decidable (∃ _, _ ∧ _ ∧ _))

/-- What becomes of a connection when its message goes. -/
inductive Fate
  | kept
  | failed
  | freed
  deriving DecidableEq

def Fate.apply : Fate → Connection → Connection
  | .kept, connection => connection
  | .failed, connection => { connection with state := .error }
  | .freed, connection => connection.released

def OwnSignal (layout : Layout) (p : PartitionIndex) (bit : Word) : Prop :=
  bit = psaDoorbell ∨ singleSignal bit = true ∧
    anySet bit (interruptMask (layout.manifest p)) = true

/-- Partition `actor` holds the delivered message `m`. -/
structure Serves (runtime : Runtime) (actor : Int) (m : MessageIndex) :
    Prop where
  allocated : (runtime.messages m).allocated = true
  active : (runtime.messages m).active = true
  server : runtime.layout.server (runtime.messages m).serviceIndex = actor

/-- Client `actor` has the request `m` on connection `c`. -/
structure Owns (runtime : Runtime) (actor : Int) (c : ConnectionIndex)
    (m : MessageIndex) : Prop where
  allocated : (runtime.messages m).allocated = true
  caller : (runtime.messages m).caller = actor
  connection : (runtime.messages m).connectionIndex = c

/-- What a connect request passed before it was given its slots. -/
structure Admits (runtime : Runtime) (caller : Int) (s : ServiceIndex) :
    Prop where
  allowed : callerAllowed runtime caller s = true
  client : clientConnectionCount runtime caller < ffmMaxConnectionsPerClient
  nonsecure : caller < 0 → nsConnectionCount runtime < ffmMaxNsConnections

/-- A read, a skip or a write on a message, with the event it records. -/
inductive Chunk (m : MessageIndex) (message : Message) :
    Message → Event → Prop
  | read (vec count : Nat) (hvec : vec < message.inCount)
      (hcount : count ≤ inputRemaining message vec) :
      Chunk m message
        { message with
          inPosition := Function.update message.inPosition vec (message.inPosition vec + count) }
        (.chunkRead m message.releases vec (load message.input
          (message.inOffset vec + message.inPosition vec) count))
  | skip (vec count : Nat) (hvec : vec < message.inCount)
      (hcount : count ≤ inputRemaining message vec) :
      Chunk m message
        { message with
          inPosition := Function.update message.inPosition vec (message.inPosition vec + count) }
        (.chunkSkipped m message.releases vec count)
  | write (vec : Nat) (payload : List UInt8) (hvec : vec < message.outCount)
      (hcount : payload.length ≤ message.outSize vec - message.outPosition vec) :
      Chunk m message
        { message with
          output := store message.output (message.outOffset vec + message.outPosition vec) payload
          outPosition := Function.update message.outPosition vec
            (message.outPosition vec + payload.length) }
        (.chunkWritten m message.releases vec payload)

theorem Chunk.header {m : MessageIndex} {message changed : Message} {event : Event}
    (h : Chunk m message changed event) : SameHeader message changed := by
  cases h <;>
    exact ⟨⟨rfl, rfl, rfl, rfl, rfl, rfl, rfl⟩, rfl, rfl, rfl, rfl⟩

section Forms

variable (runtime : Runtime)

/-- A new message `m` of connection `c` joins the queue of `s`. -/
def queued (c : ConnectionIndex) (connection : Connection) (m : MessageIndex)
    (message : Message) (events : List Event) (s : ServiceIndex) : Runtime :=
  enqueue
    { runtime with
      connections := Function.update runtime.connections c connection
      messages := Function.update runtime.messages m message
      queues := runtime.queues.detach m
      history := events ++ runtime.history } s m

/-- Message `m` is released, and its connection becomes `connection`. -/
def settled (c : ConnectionIndex) (connection : Connection) (m : MessageIndex)
    (events : List Event) : Runtime :=
  { runtime with
    connections := Function.update runtime.connections c connection
    messages := Function.update runtime.messages m (runtime.messages m).released
    queues := runtime.queues.detach m
    history := events ++ runtime.history }

/-- A message and its connection change and the queues do not. -/
def changed (c : ConnectionIndex) (connection : Connection) (m : MessageIndex)
    (message : Message) (events : List Event) : Runtime :=
  { runtime with
    connections := Function.update runtime.connections c connection
    messages := Function.update runtime.messages m message
    history := events ++ runtime.history }

/-- Message `m` is unlinked from the queue of `s` and released. -/
def unlinked (c : ConnectionIndex) (connection : Connection)
    (m : MessageIndex) (s : ServiceIndex) : Runtime :=
  releaseMessage (dequeueMessage
      { runtime with
        connections := Function.update runtime.connections c connection } s m)
    m

@[simp] theorem queued_connections (c : ConnectionIndex) (connection : Connection)
    (m : MessageIndex) (message : Message) (events : List Event) (s : ServiceIndex) :
    (queued runtime c connection m message events s).connections =
      Function.update runtime.connections c connection :=
  rfl

@[simp] theorem queued_messages (c : ConnectionIndex) (connection : Connection) (m : MessageIndex)
    (message : Message) (events : List Event) (s : ServiceIndex) :
    (queued runtime c connection m message events s).messages =
      Function.update runtime.messages m message :=
  rfl

@[simp] theorem queued_layout (c : ConnectionIndex) (connection : Connection) (m : MessageIndex)
    (message : Message) (events : List Event) (s : ServiceIndex) :
    (queued runtime c connection m message events s).layout =
      runtime.layout :=
  rfl

@[simp] theorem queued_history (c : ConnectionIndex) (connection : Connection) (m : MessageIndex)
    (message : Message) (events : List Event) (s : ServiceIndex) :
    (queued runtime c connection m message events s).history = events ++ runtime.history :=
  rfl

@[simp] theorem settled_connections (c : ConnectionIndex) (connection : Connection)
    (m : MessageIndex) (events : List Event) :
    (settled runtime c connection m events).connections =
      Function.update runtime.connections c connection :=
  rfl

@[simp] theorem settled_messages (c : ConnectionIndex) (connection : Connection)
    (m : MessageIndex) (events : List Event) :
    (settled runtime c connection m events).messages = Function.update runtime.messages m
        (runtime.messages m).released :=
  rfl

@[simp] theorem settled_layout (c : ConnectionIndex) (connection : Connection)
    (m : MessageIndex) (events : List Event) :
    (settled runtime c connection m events).layout =
      runtime.layout :=
  rfl

@[simp] theorem settled_history (c : ConnectionIndex) (connection : Connection)
    (m : MessageIndex) (events : List Event) :
    (settled runtime c connection m events).history = events ++ runtime.history :=
  rfl

@[simp] theorem changed_connections (c : ConnectionIndex) (connection : Connection)
    (m : MessageIndex) (message : Message) (events : List Event) :
    (changed runtime c connection m message events).connections =
      Function.update runtime.connections c connection :=
  rfl

@[simp] theorem changed_messages (c : ConnectionIndex) (connection : Connection)
    (m : MessageIndex) (message : Message) (events : List Event) :
    (changed runtime c connection m message events).messages =
      Function.update runtime.messages m message :=
  rfl

@[simp] theorem changed_layout (c : ConnectionIndex) (connection : Connection)
    (m : MessageIndex) (message : Message) (events : List Event) :
    (changed runtime c connection m message events).layout =
      runtime.layout :=
  rfl

@[simp] theorem changed_history (c : ConnectionIndex) (connection : Connection)
    (m : MessageIndex) (message : Message) (events : List Event) :
    (changed runtime c connection m message events).history = events ++ runtime.history :=
  rfl

@[simp] theorem unlinked_connections (c : ConnectionIndex) (connection : Connection)
    (m : MessageIndex) (s : ServiceIndex) :
    (unlinked runtime c connection m s).connections =
      Function.update runtime.connections c connection :=
  rfl

@[simp] theorem unlinked_messages (c : ConnectionIndex) (connection : Connection)
    (m : MessageIndex) (s : ServiceIndex) :
    (unlinked runtime c connection m s).messages = Function.update runtime.messages m
        (runtime.messages m).released :=
  rfl

@[simp] theorem unlinked_layout (c : ConnectionIndex) (connection : Connection)
    (m : MessageIndex) (s : ServiceIndex) :
    (unlinked runtime c connection m s).layout =
      runtime.layout :=
  rfl

@[simp] theorem unlinked_history (c : ConnectionIndex) (connection : Connection)
    (m : MessageIndex) (s : ServiceIndex) :
    (unlinked runtime c connection m s).history =
      runtime.history :=
  rfl

def openedConnection (caller : Int) (s : ServiceIndex) (c : ConnectionIndex) : Connection :=
  { runtime.connections c with
    allocated := true, errorLatch := false, caller
    clientInstance := callerInstance runtime caller
    serviceIndex := s, state := .pendingConnect }

/-- The message slot of a request, before any vectors are prepared. -/
def addressed (caller : Int) (c : ConnectionIndex) (s : ServiceIndex)
    (m : MessageIndex) (type : Int) : Message :=
  { runtime.messages m with
    allocated := true, caller, connectionIndex := c, serviceIndex := s, type }

def withState (c : ConnectionIndex) (state : ConnectionState) : Connection :=
  { runtime.connections c with state := state }

/-- The slot of an answered message that becomes the disconnect it owes. -/
def owedDisconnect (c : ConnectionIndex) (m : MessageIndex) : Message :=
  { (runtime.messages m).released with
    allocated := true, abandoned := .close
    caller := (runtime.connections c).caller, connectionIndex := c
    serviceIndex := (runtime.connections c).serviceIndex
    type := psaIpcDisconnect }

def answeredMessage (m : MessageIndex) (status : Int) : Message :=
  { runtime.messages m with
    replyStatus := status, active := false, complete := true }

end Forms

/-- What a client gets when its request ends and the connection stays: nothing,
or the connection's handle. -/
inductive Gives (guarded : Prop) (runtime : Runtime) (actor : Int)
    (c : ConnectionIndex) : Fate → List Event → Prop
  | nothing (fate : Fate) : Gives guarded runtime actor c fate []
  | handle (handle : Int)
      (hhandle : guarded → handle =
        makeHandle handleConnection c (runtime.connections c).generation) :
      Gives guarded runtime actor c .kept
        [.connectionIssued actor handle c (runtime.connections c).releases]

/-- One operation, done for `actor`: the client of a request or the partition
that serves it. It changes only the signals of its own that it `rings`. A
`fresh` one begins no request on a connection that still has one; in a
`guarded` one, what a request finds when it ends is its own. The messages of the
other suspended requests are `kept`: no request harvests them. -/
inductive Transition (rings : PartitionIndex → Word → Prop)
    (fresh guarded : Prop) (kept : Set MessageIndex) (actor : Int)
    (runtime : Runtime) : Runtime → Prop
  | stay : Transition rings fresh guarded kept actor runtime runtime
  | lifecycle (lifecycle : Nat) :
      Transition rings fresh guarded kept actor runtime
        { runtime with lifecycle := lifecycle }
  | raised (p : PartitionIndex) (bit : Word)
      (hp : p.val < runtime.layout.partitionCount)
      (hbit : OwnSignal runtime.layout p bit) (hrings : rings p bit) :
      Transition rings fresh guarded kept actor runtime
        (runtime.setAsserted p (runtime.asserted p ||| bit))
  | cleared (p : PartitionIndex) (bit : Word)
      (hp : p.val < runtime.layout.partitionCount)
      (hbit : OwnSignal runtime.layout p bit) (hrings : rings p bit) :
      Transition rings fresh guarded kept actor runtime
        (runtime.setAsserted p (runtime.asserted p &&& ~~~bit))
  | rejected (c : ConnectionIndex)
      (hc : (runtime.connections c).allocated = false) :
      Transition rings fresh guarded kept actor runtime (releaseConnection runtime c)
  | opened (c : ConnectionIndex) (m : MessageIndex) (s : ServiceIndex)
      (hactor : actor ≠ 0) (hs : s.val < runtime.layout.serviceCount)
      (hc : (runtime.connections c).allocated = false)
      (hm : (runtime.messages m).allocated = false)
      (hadmits : Admits runtime actor s) :
      Transition rings fresh guarded kept actor runtime
        (queued runtime c (openedConnection runtime actor s c) m
          (addressed runtime actor c s m psaIpcConnect)
          [.connectionOpened actor
            (makeHandle handleConnection c (runtime.connections c).generation)
            c (runtime.connections c).releases] s)
  | refused (c : ConnectionIndex)
      (hc : (runtime.connections c).allocated = true)
      (hcaller : (runtime.connections c).caller = actor) :
      Transition rings fresh guarded kept actor runtime (refuseConnection runtime c)
  | givenBack (c : ConnectionIndex) (m : MessageIndex) (fate : Fate)
      (hc : (runtime.connections c).allocated = true)
      (hcaller : (runtime.connections c).caller = actor)
      (hidle : (runtime.connections c).state = .idle)
      (hm : (runtime.messages m).allocated = false) (hfate : fate ≠ .freed) :
      Transition rings fresh guarded kept actor runtime
        (settled runtime c (fate.apply (runtime.connections c)) m [])
  | called (c : ConnectionIndex) (m : MessageIndex) (type : Int)
      (ports : PortOps) (memory memory' : Memory) (inVec outVec : List IoVec)
      (prepared : Message) (hc : (runtime.connections c).allocated = true)
      (hcaller : (runtime.connections c).caller = actor)
      (hidle : (runtime.connections c).state = .idle)
      (hfree : fresh → ¬Unharvested runtime c)
      (hm : (runtime.messages m).allocated = false)
      (htype : psaIpcCall ≤ type)
      (hprepared : prepareVectors ports
        (addressed runtime actor c (runtime.connections c).serviceIndex m type)
        memory inVec outVec = .ok (prepared, memory')) :
      Transition rings fresh guarded kept actor runtime
        (queued runtime c (withState runtime c .pendingRequest) m prepared
          [.callIssued m prepared.releases
            (inVec.map fun v => load memory.bytes v.base v.len) outVec]
          (runtime.connections c).serviceIndex)
  | closeLeft (c : ConnectionIndex) (m : MessageIndex)
      (hc : (runtime.connections c).allocated = true)
      (hcaller : (runtime.connections c).caller = actor)
      (hstate : (runtime.connections c).state = .idle ∨ (runtime.connections c).state = .error)
      (hm : (runtime.messages m).allocated = true)
      (habandoned : (runtime.messages m).abandoned ≠ .no)
      (hon : (runtime.messages m).connectionIndex = c) :
      Transition rings fresh guarded kept actor runtime
        (changed runtime c (withState runtime c .disconnecting) m
          { runtime.messages m with abandoned := .close } [])
  | closeSent (c : ConnectionIndex) (m : MessageIndex)
      (hc : (runtime.connections c).allocated = true)
      (hcaller : (runtime.connections c).caller = actor)
      (hstate : (runtime.connections c).state = .idle ∨ (runtime.connections c).state = .error)
      (hnone : ∀ n, (runtime.messages n).allocated = true → (runtime.messages n).abandoned ≠ .no →
        (runtime.messages n).connectionIndex ≠ c)
      (hfree : fresh → ¬Unharvested runtime c)
      (hm : (runtime.messages m).allocated = false) :
      Transition rings fresh guarded kept actor runtime
        (queued runtime c (withState runtime c .disconnecting) m
          (addressed runtime actor c (runtime.connections c).serviceIndex m psaIpcDisconnect) []
          (runtime.connections c).serviceIndex)
  | delivered (s : ServiceIndex) (m : MessageIndex)
      (hs : s.val < runtime.layout.serviceCount)
      (hserver : runtime.layout.server s = actor)
      (hhead : runtime.queues.head s = some m) :
      Transition rings fresh guarded kept actor runtime (deliverMessage runtime actor s m).2
  | reversed (m : MessageIndex) (rhandle : Nat)
      (hserves : Serves runtime actor m) :
      Transition rings fresh guarded kept actor runtime
        (runtime.setConnection (runtime.messages m).connectionIndex
          fun connection => { connection with rhandle := rhandle })
  | chunk (m : MessageIndex) (message : Message) (event : Event)
      (hserves : Serves runtime actor m)
      (hchunk : Chunk m (runtime.messages m) message event) :
      Transition rings fresh guarded kept actor runtime
        ((runtime.setMessage m fun _ => message).record event)
  | answered (c : ConnectionIndex) (m : MessageIndex) (status : Int)
      (state : ConnectionState) (hserves : Serves runtime actor m)
      (hon : (runtime.messages m).connectionIndex = c)
      (hstate : repliedState (runtime.messages m).type status
        (runtime.connections c).errorLatch = .ok state)
      (habandoned : (runtime.messages m).abandoned = .no) :
      Transition rings fresh guarded kept actor runtime
        (changed runtime c (withState runtime c state) m (answeredMessage runtime m status)
          [.messageAnswered m (runtime.messages m).releases])
  | requeued (c : ConnectionIndex) (m : MessageIndex) (status : Int)
      (hserves : Serves runtime actor m)
      (hon : (runtime.messages m).connectionIndex = c)
      (habandoned : (runtime.messages m).abandoned ≠ .no)
      (howes : owesDisconnect (answeredMessage runtime m status) = true) :
      Transition rings fresh guarded kept actor runtime
        (queued runtime c (withState runtime c .disconnecting) m (owedDisconnect runtime c m)
          [.messageAnswered m (runtime.messages m).releases]
          (runtime.connections c).serviceIndex)
  | retired (c : ConnectionIndex) (m : MessageIndex) (status : Int)
      (state : ConnectionState) (fate : Fate)
      (hserves : Serves runtime actor m)
      (hon : (runtime.messages m).connectionIndex = c)
      (hstate : repliedState (runtime.messages m).type status
        (runtime.connections c).errorLatch = .ok state)
      (habandoned : (runtime.messages m).abandoned ≠ .no)
      (howes : owesDisconnect (answeredMessage runtime m status) = false)
      (hfate : fate = if (runtime.messages m).type < psaIpcCall then .freed
        else .kept) :
      Transition rings fresh guarded kept actor runtime
        (settled runtime c (fate.apply (withState runtime c state)) m
          [.messageAnswered m (runtime.messages m).releases])
  | left (c : ConnectionIndex) (m : MessageIndex) (hkept : m ∉ kept)
      (hactive : (runtime.messages m).active = true)
      (howns : guarded → Owns runtime actor c m ∧ (runtime.messages m).abandoned = .no ∧
        (runtime.messages m).type < psaIpcCall) :
      Transition rings fresh guarded kept actor runtime (runtime.setMessage m fun message =>
          { message with abandoned := .close })
  | callLeft (c : ConnectionIndex) (m : MessageIndex) (hkept : m ∉ kept)
      (hactive : (runtime.messages m).active = true)
      (howns : guarded → Owns runtime actor c m ∧ (runtime.messages m).abandoned = .no ∧
        psaIpcCall ≤ (runtime.messages m).type) :
      Transition rings fresh guarded kept actor runtime (changed runtime c
          { runtime.connections c with state := .error, errorLatch := true } m
          { runtime.messages m with
            abandoned := .reply, clientOutput := fun _ => 0 } [])
  | cancelled (c : ConnectionIndex) (m : MessageIndex) (s : ServiceIndex)
      (fate : Fate) (hkept : m ∉ kept)
      (hinactive : (runtime.messages m).active = false)
      (howns : guarded → Owns runtime actor c m ∧ (runtime.messages m).serviceIndex = s ∧
        (fate = .kept → (runtime.messages m).type = psaIpcDisconnect)) :
      Transition rings fresh guarded kept actor runtime
        (unlinked runtime c (fate.apply (runtime.connections c)) m s)
  | harvested (c : ConnectionIndex) (m : MessageIndex) (fate : Fate)
      (hkept : m ∉ kept)
      (hcomplete : (runtime.messages m).complete = true)
      (howns : guarded → Owns runtime actor c m) (events : List Event)
      (hgives : Gives guarded runtime actor c fate events) :
      Transition rings fresh guarded kept actor runtime
        (settled runtime c (fate.apply (runtime.connections c)) m events)

end WolfTrust.FfmTransition
