import WolfTrust.FfmTransition
import WolfTrust.SignalBits

namespace WolfTrust.FfmOperations

open Domain ByteMemory LinkedQueue SignalBits FfmRuntime FfmVectors FfmClient
  FfmService FfmMachine FfmTransition

def Sends : Suspended → Int → Prop
  | .connect _, type => type = psaIpcConnect
  | .call _ _, type => psaIpcCall ≤ type
  | .close _, type => type = psaIpcDisconnect

/-- The handle that a suspended connect is to return is its connection's. -/
def Names (connections : ConnectionIndex → Connection) : Suspended → Prop
  | .connect request => request.handle = makeHandle handleConnection
      request.connection (connections request.connection).generation
  | .call .. | .close _ => True

/-- The message of a suspended request is still the one it sent. -/
structure Pinned (runtime : Runtime) (suspended : Suspended) : Prop where
  owns : Owns runtime suspended.request.caller suspended.request.connection
    suspended.request.message
  service : (runtime.messages suspended.request.message).serviceIndex = suspended.request.service
  abandoned : (runtime.messages suspended.request.message).abandoned = .no
  type : Sends suspended (runtime.messages suspended.request.message).type
  names : Names runtime.connections suspended

/-- The first half of a request: a transition and, where it was accepted, a
pinned message in a slot that was free. -/
structure Begins (rings : PartitionIndex → Word → Prop)
    (fresh guarded : Prop) (kept : Set MessageIndex)
    (caller : Int) (before after : Runtime) (suspended : Option Suspended) : Prop where
  transition : Transition rings fresh guarded kept caller before after
  free : ∀ f ∈ suspended, (before.messages f.request.message).allocated = false
  pinned : ∀ f ∈ suspended, (before.messages f.request.message).abandoned = .no → Pinned after f

theorem Begins.refused {rings : PartitionIndex → Word → Prop} {fresh guarded : Prop}
  {kept : Set MessageIndex} {caller : Int}
    {before after : Runtime} (h : Transition rings fresh guarded kept caller before after) :
    Begins rings fresh guarded kept caller before after none :=
  ⟨h, fun _ hf => (by cases hf), fun _ hf => (by cases hf)⟩

variable {c : ConnectionIndex}

theorem Begins.queued {rings : PartitionIndex → Word → Prop} {fresh guarded : Prop}
  {kept : Set MessageIndex} {caller : Int} {runtime : Runtime}
    {connection : Connection} {m : MessageIndex}
    {message : Message} {events : List Event} {s : ServiceIndex}
    {f : Suspended}
    (h : Transition rings fresh guarded kept caller runtime
      (queued runtime c connection m message events s))
    (hm : f.request.message = m)
    (hfree : (runtime.messages m).allocated = false)
    (hallocated : message.allocated = true)
    (hcaller : message.caller = f.request.caller)
    (hon : message.connectionIndex = f.request.connection)
    (hservice : message.serviceIndex = f.request.service)
    (habandoned : message.abandoned = (runtime.messages m).abandoned)
    (htype : Sends f message.type)
    (hnames : Names (Function.update runtime.connections c connection) f) :
    Begins rings fresh guarded kept caller runtime
      (queued runtime c connection m message events s) (some f) := by
  subst hm
  have hmessage : (FfmTransition.queued runtime c connection
      f.request.message message events s).messages f.request.message =
        message := by
    rw [queued_messages, Function.update_self]
  refine ⟨h, ?_, ?_⟩
  · rintro _ ⟨⟩
    exact hfree
  · rintro _ ⟨⟩ hno
    refine ⟨⟨?_, ?_, ?_⟩, ?_, ?_, ?_, hnames⟩
    all_goals rw [hmessage]
    · exact hallocated
    · exact hcaller
    · exact hon
    · exact hservice
    · exact habandoned.trans hno
    · exact htype

section Connect

theorem openConnection_eq (runtime : Runtime) (caller : Int)
    (s : ServiceIndex) (c : ConnectionIndex) (m : MessageIndex) :
    (openConnection (takeMessage (takeConnection runtime c) m) caller s c m).2 =
      queued runtime c (openedConnection runtime caller s c) m
        (addressed runtime caller c s m psaIpcConnect)
        [.connectionOpened caller (makeHandle handleConnection c (runtime.connections c).generation)
          c (runtime.connections c).releases] s := by
  have hinstance : callerInstance (takeMessage (takeConnection runtime c) m)
      caller = callerInstance runtime caller := rfl
  simp only [openConnection, hinstance]
  simp [takeMessage, takeConnection, Runtime.setConnection,
    Runtime.setMessage, Runtime.record, openedConnection, addressed, queued]

theorem releaseConnection_takeConnection (runtime : Runtime) (c : ConnectionIndex) :
    releaseConnection (takeConnection runtime c) c = releaseConnection runtime c := by
  simp [releaseConnection, takeConnection, Runtime.setConnection, Connection.released]

theorem connectRequest_begins {rings : PartitionIndex → Word → Prop} {fresh guarded : Prop}
  {kept : Set MessageIndex} (runtime : Runtime) (caller : Int) (sid version : Nat) :
    Begins rings fresh guarded kept caller runtime (connectRequest runtime caller sid version).2
      ((connectRequest runtime caller sid version).1.toOption.map .connect) := by
  unfold connectRequest
  split
  · exact .refused .stay
  rename_i hcaller
  split
  · exact .refused .stay
  rename_i s hs
  simp only
  split
  · exact .refused .stay
  rename_i hpolicy
  split
  · exact .refused .stay
  split
  · exact .refused .stay
  rename_i hclient
  split
  · exact .refused .stay
  rename_i hnonsecure
  split
  · exact .refused .stay
  rename_i c reserved halloc
  have hadmits : Admits runtime caller s := by
    refine ⟨?_, by omega, fun hns => ?_⟩
    · simp only [Bool.or_eq_true, Bool.not_eq_true', not_or, Bool.not_eq_false] at hpolicy
      exact hpolicy.1
    · by_contra hfull
      exact hnonsecure ⟨hns, by omega⟩
  obtain ⟨hc, rfl⟩ := allocConnection_eq_some halloc
  split
  · rw [releaseConnection_takeConnection]
    exact .refused (.rejected c hc)
  · rename_i m allocated hmessage
    obtain ⟨hm, rfl⟩ := allocMessage_eq_some hmessage
    rw [openConnection_eq]
    refine .queued (.opened c m s hcaller (findService_eq_ok hs) hc hm hadmits)
      rfl hm rfl rfl rfl rfl rfl rfl ?_
    simp [Names, openConnection, openedConnection, takeMessage, takeConnection,
      Runtime.setConnection, Runtime.setMessage]

end Connect

section Call

theorem releaseMessage_addressed (runtime : Runtime) (caller type : Int)
    (c : ConnectionIndex) (m : MessageIndex) :
    releaseMessage ((takeMessage runtime m).setMessage m fun message =>
      { message with
        caller, connectionIndex := c
        serviceIndex := (runtime.connections c).serviceIndex, type }) m =
      settled runtime c (Fate.kept.apply (runtime.connections c)) m [] := by
  simp [releaseMessage, takeMessage, Runtime.setMessage, Queues.detach,
    Message.released, settled, Fate.apply]

theorem failMessage_addressed (runtime : Runtime) (caller type : Int)
    (c : ConnectionIndex) (m : MessageIndex) :
    (releaseMessage ((takeMessage runtime m).setMessage m fun message =>
      { message with
        caller, connectionIndex := c
        serviceIndex := (runtime.connections c).serviceIndex, type }) m).setState c .error =
      settled runtime c (Fate.failed.apply (runtime.connections c)) m [] := by
  rw [releaseMessage_addressed]
  simp [settled, Fate.apply, Runtime.setState, Runtime.setConnection]

theorem enqueue_called (runtime : Runtime) (c : ConnectionIndex) (m : MessageIndex)
    (change : Message → Message) (prepared : Message) (event : Event) (s : ServiceIndex) :
    enqueue (((((takeMessage runtime m).setMessage m change).setMessage m
        fun _ => prepared).record event).setState c .pendingRequest) s m =
      queued runtime c (withState runtime c .pendingRequest) m prepared [event] s := by
  simp [takeMessage, Runtime.setMessage, Runtime.setState,
    Runtime.setConnection, Runtime.record, queued, withState]

theorem callRequest_begins {rings : PartitionIndex → Word → Prop} {fresh guarded : Prop}
  {kept : Set MessageIndex} (ports : PortOps)
    (runtime : Runtime) (memory : Memory) (caller handle type : Int)
    (inVec outVec : List IoVec)
    (hfresh : fresh → ∀ c, connectionFromHandle runtime caller handle =
      .ok c → (runtime.connections c).state = .idle → ¬Unharvested runtime c) :
    let begun := callRequest ports runtime memory caller handle type inVec outVec
    Begins rings fresh guarded kept caller runtime begun.2.1
      (begun.1.toOption.map fun request => .call request outVec) := by
  unfold callRequest
  split
  · exact .refused .stay
  rename_i hcaller
  split
  · exact .refused .stay
  rename_i c hc
  obtain ⟨hallocated, howner, -, -⟩ := connectionFromHandle_eq_ok hc
  split
  · exact .refused (.refused c hallocated howner)
  rename_i hshape
  push Not at hshape
  split
  · -- A busy connection is latched, which is what a refusal does to it.
    rename_i hbusy
    have hlatched : runtime.setConnection c (fun connection =>
        { connection with errorLatch := true }) =
          refuseConnection runtime c := by
      simp [refuseConnection, hbusy]
    simp only [hlatched]
    exact .refused (.refused c hallocated howner)
  rename_i hidle
  push Not at hidle
  split
  · exact .refused .stay
  rename_i m allocated halloc
  obtain ⟨hm, rfl⟩ := allocMessage_eq_some halloc
  have hmessage : ((takeMessage runtime m).setMessage m fun message =>
      { message with
        caller, connectionIndex := c
        serviceIndex := (runtime.connections c).serviceIndex,
        type }).messages m = addressed runtime caller c (runtime.connections c).serviceIndex m
            type := by
    simp [takeMessage, Runtime.setMessage, addressed]
  simp only
  split
  · refine .refused ?_
    rw [show (takeMessage runtime m).connections = runtime.connections from rfl,
      releaseMessage_addressed]
    exact .givenBack c m .kept hallocated howner hidle hm (by decide)
  · refine .refused ?_
    rw [show (takeMessage runtime m).connections = runtime.connections from rfl,
      failMessage_addressed]
    exact .givenBack c m .failed hallocated howner hidle hm (by decide)
  · rename_i prepared memory' hprepared
    rw [show (takeMessage runtime m).connections = runtime.connections from rfl,
      hmessage] at hprepared
    have hheader := prepareVectors_header hprepared
    have hqueued : Transition rings fresh guarded kept caller runtime _ :=
      .called c m type ports memory memory' inVec outVec prepared hallocated
        howner hidle (fun hg => hfresh hg c hc hidle) hm hshape.1 hprepared
    rw [enqueue_called]
    refine .queued hqueued rfl hm ?_ ?_ ?_ ?_ ?_ ?_ trivial
    · exact hheader.allocated
    · exact hheader.caller
    · exact hheader.connectionIndex
    · exact hheader.serviceIndex
    · exact hheader.abandoned
    · change psaIpcCall ≤ prepared.type
      rw [hheader.type]
      exact hshape.1

end Call

section Close

theorem closeAbandoned_eq_some {runtime closed : Runtime}
    (h : closeAbandoned runtime c = some closed) :
    ∃ m, (runtime.messages m).allocated = true ∧ (runtime.messages m).abandoned ≠ .no ∧
      (runtime.messages m).connectionIndex = c ∧
      closed = changed runtime c (withState runtime c .disconnecting) m
        { runtime.messages m with abandoned := .close } [] := by
  unfold closeAbandoned at h
  split at h
  · cases h
  · rename_i m hm
    have hfound := List.find?_some hm
    simp only [Bool.and_eq_true, bne_iff_ne, beq_iff_eq] at hfound
    refine ⟨m, hfound.1.1, hfound.1.2, hfound.2, ?_⟩
    rw [← Option.some.inj h]
    rfl

theorem closeAbandoned_eq_none {runtime : Runtime} (h : closeAbandoned runtime c = none)
    (m : MessageIndex) (hm : (runtime.messages m).allocated = true)
    (habandoned : (runtime.messages m).abandoned ≠ .no) :
    (runtime.messages m).connectionIndex ≠ c := by
  unfold closeAbandoned at h
  split at h
  · rename_i hnone
    intro hon
    have hmissed := List.find?_eq_none.mp hnone m (List.mem_finRange m)
    simp [hm, habandoned, hon] at hmissed
  · cases h

theorem closeRequest_begins {rings : PartitionIndex → Word → Prop} {fresh guarded : Prop}
  {kept : Set MessageIndex} (runtime : Runtime) (caller handle : Int)
    (hfresh : fresh → ∀ c, connectionFromHandle runtime caller handle =
      .ok c → (runtime.connections c).state = .idle ∨
        (runtime.connections c).state = .error → ¬Unharvested runtime c) :
    Begins rings fresh guarded kept caller runtime (closeRequest runtime caller handle).2
      ((closeRequest runtime caller handle).1.toOption.join.map .close) := by
  unfold closeRequest
  split
  · exact .refused .stay
  split
  · exact .refused .stay
  split
  · exact .refused .stay
  rename_i c hc
  obtain ⟨hallocated, howner, -, -⟩ := connectionFromHandle_eq_ok hc
  split
  · exact .refused .stay
  rename_i hstate
  rw [not_and_or, not_not, not_not] at hstate
  split
  · rename_i closed hclosed
    obtain ⟨m, hm, habandoned, hon, rfl⟩ := closeAbandoned_eq_some hclosed
    exact .refused (.closeLeft c m hallocated howner hstate hm habandoned hon)
  rename_i hnone
  split
  · exact .refused .stay
  rename_i m allocated halloc
  obtain ⟨hm, rfl⟩ := allocMessage_eq_some halloc
  have hsent : enqueue (((takeMessage runtime m).setState c
      .disconnecting).setMessage m fun message =>
        { message with
          caller, connectionIndex := c
          serviceIndex := (runtime.connections c).serviceIndex
          type := psaIpcDisconnect })
      (runtime.connections c).serviceIndex m =
        queued runtime c (withState runtime c .disconnecting) m
          (addressed runtime caller c (runtime.connections c).serviceIndex m
            psaIpcDisconnect) [] (runtime.connections c).serviceIndex := by
    simp [takeMessage, Runtime.setMessage, Runtime.setState,
      Runtime.setConnection, queued, withState, addressed]
  simp only
  rw [show (takeMessage runtime m).connections = runtime.connections from rfl, hsent]
  exact .queued (.closeSent c m hallocated howner hstate
    (closeAbandoned_eq_none hnone) (fun hg => hfresh hg c hc hstate) hm)
    rfl hm rfl rfl rfl rfl rfl rfl trivial

end Close

section Return

theorem complete_of_dispatchResult {runtime : Runtime} {m : MessageIndex} {ret : Int}
    (h : dispatchResult runtime m ret = ffmSuccess) : (runtime.messages m).complete = true := by
  unfold dispatchResult at h
  split at h
  · contradiction
  · split at h
    · cases h
    · rename_i hcomplete
      simpa using hcomplete

theorem releaseMessage_eq (runtime : Runtime) (c : ConnectionIndex) (m : MessageIndex) :
    releaseMessage runtime m =
      settled runtime c (Fate.kept.apply (runtime.connections c)) m [] := by
  simp [releaseMessage, settled, Fate.apply, Runtime.setMessage]

theorem releaseIssued_eq (runtime : Runtime) (c : ConnectionIndex)
    (m : MessageIndex) (event : Event) :
    (releaseMessage runtime m).record event =
      settled runtime c (Fate.kept.apply (runtime.connections c)) m [event] := by
  rw [releaseMessage_eq runtime c]
  rfl

theorem releaseBoth_eq (runtime : Runtime) (c : ConnectionIndex) (m : MessageIndex) :
    releaseConnection (releaseMessage runtime m) c =
      settled runtime c (Fate.freed.apply (runtime.connections c)) m [] :=
  rfl

theorem releaseFailed_eq (runtime : Runtime) (c : ConnectionIndex) (m : MessageIndex) :
    releaseMessage (runtime.setState c .error) m =
      settled runtime c (Fate.failed.apply (runtime.connections c)) m [] :=
  rfl

theorem dequeueFailed_eq (runtime : Runtime) (c : ConnectionIndex)
    (m : MessageIndex) (s : ServiceIndex) :
    releaseMessage (dequeueMessage (runtime.setState c .error) s m) m =
      unlinked runtime c (Fate.failed.apply (runtime.connections c)) m s :=
  rfl

theorem dequeueBoth_eq (runtime : Runtime) (c : ConnectionIndex)
    (m : MessageIndex) (s : ServiceIndex) :
    releaseConnection (releaseMessage (dequeueMessage runtime s m) m) c =
      unlinked runtime c (Fate.freed.apply (runtime.connections c)) m s :=
  rfl

theorem dequeue_eq (runtime : Runtime) (c : ConnectionIndex) (m : MessageIndex) (s : ServiceIndex) :
    releaseMessage (dequeueMessage runtime s m) m =
      unlinked runtime c (Fate.kept.apply (runtime.connections c)) m s := by
  simp [unlinked, Fate.apply]

variable {rings : PartitionIndex → Word → Prop} {fresh guarded : Prop}
  {kept : Set MessageIndex} {runtime : Runtime} {request : Request} {ret : Int}

theorem connectReturn_transition (hkept : request.message ∉ kept) (hret : ret = ffmSuccess →
      (runtime.messages request.message).complete = true)
    (hpinned : guarded → Pinned runtime (.connect request)) :
    Transition rings fresh guarded kept request.caller runtime
      (connectReturn runtime request ret).2 := by
  unfold connectReturn
  simp only
  split
  · rename_i hleft
    refine .left request.connection request.message hkept hleft.2 fun hg => ?_
    refine ⟨(hpinned hg).owns, (hpinned hg).abandoned, ?_⟩
    have htype : (runtime.messages request.message).type = psaIpcConnect := (hpinned hg).type
    rw [htype]
    decide
  · rename_i hstays
    by_cases hok : ret = ffmSuccess
    · rw [if_neg (not_not.mpr hok)]
      split
      · rw [releaseBoth_eq]
        exact .harvested _ _ .freed hkept (hret hok) (fun hg => (hpinned hg).owns) _ (.nothing _)
      · rw [releaseIssued_eq runtime request.connection]
        exact .harvested _ _ .kept hkept (hret hok) (fun hg => (hpinned hg).owns) _
          (.handle request.handle fun hg => (hpinned hg).names)
    · have hinactive : (runtime.messages request.message).active = false := by
        simpa [hok] using hstays
      rw [if_pos hok, if_pos (Or.inl hok), dequeueBoth_eq]
      refine .cancelled _ _ _ .freed hkept hinactive fun hg => ?_
      exact ⟨(hpinned hg).owns, (hpinned hg).service, fun h => by cases h⟩

theorem callReturn_transition (ports : PortOps) (memory : Memory) (outVec : List IoVec)
    (hkept : request.message ∉ kept)
    (hret : ret = ffmSuccess → (runtime.messages request.message).complete = true)
    (hpinned : guarded → Pinned runtime (.call request outVec))
    (hservice : guarded → (runtime.connections request.connection).serviceIndex = request.service) :
    Transition rings fresh guarded kept request.caller runtime
      (callReturn ports runtime memory request outVec ret).2.2.1 := by
  unfold callReturn
  simp only
  split
  · split
    · rename_i hactive
      have hleft : ((runtime.setState request.connection .error).setConnection
          request.connection fun connection =>
            { connection with errorLatch := true }).setMessage request.message
          (fun message =>
            { message with abandoned := .reply, clientOutput := fun _ => 0 }) =
          changed runtime request.connection
            { runtime.connections request.connection with
              state := .error, errorLatch := true } request.message
            { runtime.messages request.message with
              abandoned := .reply, clientOutput := fun _ => 0 } [] := by
        simp [Runtime.setState, Runtime.setConnection, Runtime.setMessage, changed]
      rw [hleft]
      exact .callLeft _ _ hkept hactive fun hg =>
        ⟨(hpinned hg).owns, (hpinned hg).abandoned, (hpinned hg).type⟩
    · rename_i hinactive
      rw [dequeueFailed_eq]
      refine .cancelled _ _ _ .failed hkept (by simpa using hinactive) fun hg => ?_
      refine ⟨(hpinned hg).owns, ?_, fun h => by cases h⟩
      simp only [Runtime.setState, Runtime.setConnection, Function.update_self]
      exact (hpinned hg).service.trans (hservice hg).symm
  · rename_i hok
    rw [not_not] at hok
    split
    · rw [releaseFailed_eq]
      exact .harvested _ _ .failed hkept (hret hok) (fun hg => (hpinned hg).owns) _ (.nothing _)
    · rw [releaseMessage_eq runtime request.connection]
      exact .harvested _ _ .kept hkept (hret hok) (fun hg => (hpinned hg).owns) _ (.nothing _)

theorem closeReturn_transition (hkept : request.message ∉ kept) (hret : ret = ffmSuccess →
      (runtime.messages request.message).complete = true)
    (hpinned : guarded → Pinned runtime (.close request))
    (hservice : guarded → (runtime.connections request.connection).serviceIndex = request.service) :
    Transition rings fresh guarded kept request.caller runtime
      (closeReturn runtime request ret).2 := by
  have htype (hg : guarded) : (runtime.messages request.message).type = psaIpcDisconnect :=
    (hpinned hg).type
  unfold closeReturn
  simp only
  split
  · rename_i hleft
    refine .left request.connection request.message hkept hleft.2 fun hg => ?_
    refine ⟨(hpinned hg).owns, (hpinned hg).abandoned, ?_⟩
    rw [htype hg]
    decide
  · rename_i hstays
    by_cases hok : ret = ffmSuccess
    · rw [if_neg (not_not.mpr hok), if_pos hok, releaseBoth_eq]
      exact .harvested _ _ .freed hkept (hret hok) (fun hg => (hpinned hg).owns) _ (.nothing _)
    · have hinactive : (runtime.messages request.message).active = false := by
        simpa [hok] using hstays
      rw [if_pos hok, if_neg hok, dequeue_eq runtime request.connection]
      refine .cancelled _ _ _ .kept hkept hinactive fun hg => ?_
      exact ⟨(hpinned hg).owns, (hpinned hg).service.trans (hservice hg).symm, fun _ => htype hg⟩

end Return

section Finish

variable {rings : PartitionIndex → Word → Prop} {fresh guarded : Prop} {kept : Set MessageIndex}
  {runtime : Runtime} {m : MessageIndex} {caller : Int}

theorem ffmCallRefuse_transition (caller handle : Int) :
    Transition rings fresh guarded kept caller runtime (ffmCallRefuse runtime caller handle) := by
  unfold ffmCallRefuse
  split
  · exact .stay
  split
  · exact .stay
  · rename_i c hc
    obtain ⟨hallocated, howner, -, -⟩ := connectionFromHandle_eq_ok hc
    exact .refused c hallocated howner

theorem ffmConnectFinish_transition
    (hkept : m ∉ kept) (hcomplete : (runtime.messages m).complete = true)
    (hallocated : (runtime.messages m).allocated = true)
    (hcaller : (runtime.messages m).caller = caller) :
    Transition rings fresh guarded kept caller runtime (ffmConnectFinish runtime m).2 := by
  unfold ffmConnectFinish
  simp only
  split
  · rw [releaseBoth_eq]
    exact .harvested _ _ .freed hkept hcomplete (fun _ => ⟨hallocated, hcaller, rfl⟩) _ (.nothing _)
  · rw [releaseIssued_eq runtime (runtime.messages m).connectionIndex, hcaller]
    exact .harvested _ _ .kept hkept hcomplete
      (fun _ => ⟨hallocated, hcaller, rfl⟩) _ (.handle _ fun _ => rfl)

theorem ffmCallFinish_transition (ports : PortOps) (memory : Memory)
    (outVec : List IoVec) (hkept : m ∉ kept) (hcomplete : (runtime.messages m).complete = true)
    (hallocated : (runtime.messages m).allocated = true)
    (hcaller : (runtime.messages m).caller = caller) :
    Transition rings fresh guarded kept caller runtime
      (ffmCallFinish ports runtime memory m outVec).2.2.1 := by
  unfold ffmCallFinish
  simp only
  split
  · rw [releaseFailed_eq]
    exact .harvested _ _ .failed hkept hcomplete
      (fun _ => ⟨hallocated, hcaller, rfl⟩) _ (.nothing _)
  · rw [releaseMessage_eq runtime (runtime.messages m).connectionIndex]
    exact .harvested _ _ .kept hkept hcomplete (fun _ => ⟨hallocated, hcaller, rfl⟩) _ (.nothing _)

theorem ffmCloseFinish_transition
    (hkept : m ∉ kept) (hcomplete : (runtime.messages m).complete = true)
    (hallocated : (runtime.messages m).allocated = true)
    (hcaller : (runtime.messages m).caller = caller) :
    Transition rings fresh guarded kept caller runtime (ffmCloseFinish runtime m).2 := by
  unfold ffmCloseFinish
  simp only
  rw [releaseBoth_eq]
  exact .harvested _ _ .freed hkept hcomplete (fun _ => ⟨hallocated, hcaller, rfl⟩) _ (.nothing _)

end Finish

section Signals

variable {rings : PartitionIndex → Word → Prop} {fresh guarded : Prop}
  {kept : Set MessageIndex} {runtime : Runtime} {actor : Int}

theorem ffmNotify_transition (partitionId : Int)
    (hrings : ∀ p, findPartition runtime partitionId = .ok p → rings p psaDoorbell) :
    Transition rings fresh guarded kept actor runtime (ffmNotify runtime partitionId).2 := by
  unfold ffmNotify
  split
  · exact .stay
  · rename_i p hp
    exact .raised p psaDoorbell (findPartition_eq_ok hp).2.1 (.inl rfl) (hrings p hp)

theorem ffmClear_transition (partitionId : Int)
    (hrings : ∀ p, findPartition runtime partitionId = .ok p → rings p psaDoorbell) :
    Transition rings fresh guarded kept actor runtime (ffmClear runtime partitionId).2 := by
  unfold ffmClear
  split
  · exact .stay
  rename_i p hp
  split
  · exact .stay
  · exact .cleared p psaDoorbell (findPartition_eq_ok hp).2.1 (.inl rfl) (hrings p hp)

theorem ffmEoi_transition (partitionId : Int) (irqSignal : Word)
    (hrings : ∀ p, findPartition runtime partitionId = .ok p → rings p irqSignal) :
    Transition rings fresh guarded kept actor runtime (ffmEoi runtime partitionId irqSignal).2 := by
  unfold ffmEoi
  split
  · exact .stay
  rename_i p hp
  split
  · exact .stay
  rename_i hsingle
  split
  · exact .stay
  rename_i hdeclared
  split
  · exact .stay
  · refine .cleared p irqSignal (findPartition_eq_ok hp).2.1 (.inr ⟨?_, ?_⟩) (hrings p hp)
    · simpa using hsingle
    · simpa using hdeclared

theorem singleSignal_oneBit {signal : Word} (h : singleSignal signal = true) : OneBit signal := by
  simp only [singleSignal, Bool.and_eq_true, bne_iff_ne, beq_iff_eq] at h
  exact oneBit_of_and_sub_one h.1 h.2

theorem ffmIrqLookup_eq_ok {partitionId : Int} {irqSignal : Word} {irq : Nat}
    (h : ffmIrqLookup runtime partitionId irqSignal = .ok irq) :
    singleSignal irqSignal = true ∧ ∃ p, findPartition runtime partitionId = .ok p ∧
        ∃ i ∈ (runtime.layout.manifest p).interrupts, i.signal = irqSignal ∧ i.interrupt = irq := by
  unfold ffmIrqLookup at h
  split at h
  · cases h
  rename_i p hp
  split at h
  · cases h
  rename_i hsingle
  split at h
  · cases h
  · rename_i i hi
    refine ⟨by simpa using hsingle, p, hp, i, List.mem_of_find?_eq_some hi, ?_, Except.ok.inj h⟩
    simpa using List.find?_some hi

theorem ffmAssertSignal_transition (partitionId : Int) (irqSignal : Word)
    (hrings : ∀ p, findPartition runtime partitionId = .ok p → rings p irqSignal) :
    Transition rings fresh guarded kept actor runtime
      (ffmAssertSignal runtime partitionId irqSignal).2 := by
  unfold ffmAssertSignal
  split
  · exact .stay
  rename_i irq hirq
  obtain ⟨hsingle, q, hq, i, hi, rfl, -⟩ := ffmIrqLookup_eq_ok hirq
  split
  · exact .stay
  · rename_i p hp
    obtain rfl : p = q := Except.ok.inj (hp.symm.trans hq)
    refine .raised p i.signal (findPartition_eq_ok hp).2.1 (.inr ⟨hsingle, ?_⟩) (hrings p hp)
    have hbit := singleSignal_oneBit hsingle
    have hself : i.signal &&& i.signal ≠ 0 := by
      rw [BitVec.and_self]
      intro hzero
      simp [singleSignal, hzero] at hsingle
    have hmember := (hbit.mem_union _ _ 0).mpr (.inr ⟨i, hi, hself⟩)
    rw [BitVec.and_comm] at hmember
    simpa [anySet, interruptMask] using hmember

end Signals

section Service

variable {rings : PartitionIndex → Word → Prop} {fresh guarded : Prop}
  {kept : Set MessageIndex} {runtime : Runtime} {actor handle : Int}

theorem serves_of_handle {m : MessageIndex} (h : messageFromHandle runtime actor handle = .ok m) :
    Serves runtime actor m := by
  obtain ⟨hallocated, hactive, hserver, -⟩ := messageFromHandle_eq_ok h
  exact ⟨hallocated, hactive, hserver⟩

theorem findServiceBySignal_eq_some {p : PartitionIndex} {signal : Word} {s : ServiceIndex}
    (h : findServiceBySignal runtime p signal = some s) :
    s.val < runtime.layout.serviceCount ∧ runtime.layout.partitionIndex s = p ∧
      (runtime.layout.descriptor s).signal = signal := by
  have hfound := List.find?_some h
  simp only [Bool.and_eq_true, decide_eq_true_eq, beq_iff_eq] at hfound
  exact ⟨hfound.1.1, hfound.1.2, hfound.2⟩

theorem ffmGet_transition (signal : Word) :
    Transition rings fresh guarded kept actor runtime (ffmGet runtime actor signal).2 := by
  unfold ffmGet
  split
  · exact .stay
  split
  · exact .stay
  rename_i p hp
  split
  · exact .stay
  rename_i s hs
  obtain ⟨hcount, hpartition, -⟩ := findServiceBySignal_eq_some hs
  split
  · exact .stay
  · rename_i m hhead
    refine .delivered s m hcount ?_ hhead
    rw [Layout.server, hpartition]
    exact (findPartition_eq_ok hp).2.2

theorem ffmSetRhandle_transition (rhandle : Nat) : Transition rings fresh guarded kept actor runtime
      (ffmSetRhandle runtime actor handle rhandle).2 := by
  unfold ffmSetRhandle
  split
  · exact .stay
  rename_i m hm
  split
  · exact .stay
  · exact .reversed m rhandle (serves_of_handle hm)

theorem ffmRead_transition (memory : Memory) (vec buffer numBytes : Nat) :
    Transition rings fresh guarded kept actor runtime
      (ffmRead runtime memory actor handle vec buffer numBytes).2.1 := by
  unfold ffmRead
  split
  · exact .stay
  split
  · exact .stay
  rename_i m hm
  simp only
  split
  · exact .stay
  · rename_i hvec
    push Not at hvec
    exact .chunk m _ _ (serves_of_handle hm) (.read vec _ hvec.2 (Nat.min_le_right _ _))

theorem ffmSkip_transition (vec numBytes : Nat) : Transition rings fresh guarded kept actor runtime
      (ffmSkip runtime actor handle vec numBytes).2 := by
  unfold ffmSkip
  split
  · exact .stay
  split
  · exact .stay
  rename_i m hm
  simp only
  split
  · exact .stay
  · rename_i hvec
    push Not at hvec
    exact .chunk m _ _ (serves_of_handle hm) (.skip vec _ hvec.2 (Nat.min_le_right _ _))

theorem ffmWrite_transition (memory : Memory) (vec buffer numBytes : Nat) :
    Transition rings fresh guarded kept actor runtime
      (ffmWrite runtime memory actor handle vec buffer numBytes).2.1 := by
  unfold ffmWrite
  split
  · exact .stay
  split
  · exact .stay
  rename_i m hm
  simp only
  split
  · exact .stay
  split
  · exact .stay
  rename_i hvec
  split
  · exact .stay
  · rename_i hfits
    have hlength : (memory.read buffer numBytes).1.length = numBytes := length_load _ _ _
    have hchunk : Transition rings fresh guarded kept actor runtime _ :=
      .chunk m _ _ (serves_of_handle hm)
        (.write vec (memory.read buffer numBytes).1 (by omega) (by omega))
    rw [hlength] at hchunk
    exact hchunk

variable {m : MessageIndex} {status : Int} {state : ConnectionState}

theorem reply_eq (c : ConnectionIndex) (event : Event) :
    ((runtime.setState c state).setMessage m fun message =>
      { message with
        replyStatus := status, active := false
        complete := true }).record event =
      changed runtime c (withState runtime c state) m (answeredMessage runtime m status) [event] :=
  rfl

theorem finishAbandoned_eq (hon : (runtime.messages m).connectionIndex = c) (event : Event) :
    finishAbandoned (changed runtime c (withState runtime c state) m
        (answeredMessage runtime m status) [event]) m =
      if owesDisconnect (answeredMessage runtime m status) = true then
        queued runtime c (withState runtime c .disconnecting) m (owedDisconnect runtime c m) [event]
          (runtime.connections c).serviceIndex
      else
        settled runtime c ((if (runtime.messages m).type < psaIpcCall then Fate.freed
            else .kept).apply (withState runtime c state)) m [event] := by
  have hmessage : (changed runtime c (withState runtime c state) m
      (answeredMessage runtime m status) [event]).messages m =
        answeredMessage runtime m status := by
    rw [changed_messages, Function.update_self]
  have hanswered : (answeredMessage runtime m status).connectionIndex = c := hon
  have hreleased : (answeredMessage runtime m status).released =
      (runtime.messages m).released := rfl
  have hkind : (answeredMessage runtime m status).type = (runtime.messages m).type := rfl
  unfold finishAbandoned
  simp only [hmessage, hanswered, hkind]
  by_cases howes : owesDisconnect (answeredMessage runtime m status) = true
  · simp [howes, releaseMessage, Runtime.setMessage, Runtime.setState,
      Runtime.setConnection, changed, queued, withState, hreleased,
      owedDisconnect, Queues.detach]
  · rw [Bool.not_eq_true] at howes
    by_cases htype : (runtime.messages m).type < psaIpcCall
    · simp [howes, htype, releaseMessage, releaseConnection,
        Runtime.setMessage, Runtime.setConnection, changed, settled,
        hreleased, Fate.apply]
    · simp [howes, htype, releaseMessage, Runtime.setMessage, changed,
        settled, hreleased, Fate.apply]

theorem finishAbandoned_transition (hserves : Serves runtime actor m)
    (hon : (runtime.messages m).connectionIndex = c)
    (hstate : repliedState (runtime.messages m).type status
      (runtime.connections c).errorLatch = .ok state)
    (habandoned : (runtime.messages m).abandoned ≠ .no) :
    Transition rings fresh guarded kept actor runtime
      (finishAbandoned (changed runtime c (withState runtime c state) m
        (answeredMessage runtime m status)
        [.messageAnswered m (runtime.messages m).releases]) m) := by
  rw [finishAbandoned_eq hon]
  split
  · rename_i howes
    exact .requeued c m status hserves hon habandoned howes
  · rename_i howes
    rw [Bool.not_eq_true] at howes
    exact .retired c m status state _ hserves hon hstate habandoned howes rfl

theorem ffmReply_transition : Transition rings fresh guarded kept actor runtime
      (ffmReply runtime actor handle status).2 := by
  unfold ffmReply
  split
  · exact .stay
  rename_i m hm
  simp only
  split
  · exact .stay
  rename_i state hstate
  rw [reply_eq]
  split
  · rename_i habandoned
    exact finishAbandoned_transition (serves_of_handle hm) rfl hstate habandoned
  · rename_i habandoned
    rw [not_not] at habandoned
    exact .answered _ m status state (serves_of_handle hm) rfl hstate habandoned

end Service

end WolfTrust.FfmOperations
