import WolfTrust.FfmInvariant
import WolfTrust.FfmOperations

namespace WolfTrust.FfmPreservation

open Domain SignalBits FfmRuntime FfmVectors FfmClient FfmService FfmTables
  FfmQueues FfmInvariant FfmTransition FfmOperations

variable {runtime : Runtime} {actor : Int} {c : ConnectionIndex} {m : MessageIndex}
  {s : ServiceIndex} {status : Int}

section Signals

variable {p : PartitionIndex} {bit : Word}

theorem ownSignal_ne {layout : Layout} (h : LayoutOk layout)
    (hp : p.val < layout.partitionCount) (hbit : OwnSignal layout p bit) :
    OneBit bit ∧ ∀ s : ServiceIndex, s.val < layout.serviceCount →
      layout.partitionIndex s = p → bit ≠ (layout.descriptor s).signal := by
  rcases hbit with rfl | ⟨hsingle, hdeclared⟩
  · refine ⟨⟨3, by decide, by decide⟩, fun s hs _ => ?_⟩
    exact (h.doorbell s hs).symm
  · have hone := singleSignal_oneBit hsingle
    have hmask : interruptMask (layout.manifest p) &&& bit ≠ 0 := by
      rw [BitVec.and_comm]
      simpa [anySet] using hdeclared
    obtain hzero | ⟨i, hi, hmeet⟩ := (hone.mem_union _ _ 0).mp hmask
    · exact absurd BitVec.zero_and hzero
    · obtain ⟨hinterrupt, hother⟩ := h.interrupt p hp i hi
      obtain rfl := hinterrupt.eq_of_and hone hmeet
      exact ⟨hone, fun s hs hsp => (hother s hs hsp).symm⟩

theorem setAsserted_ok (h : RuntimeOk runtime)
    {signals : Word}
    (hsame : ∀ s : ServiceIndex, s.val < runtime.layout.serviceCount →
      runtime.layout.partitionIndex s = p →
      (signals &&& (runtime.layout.descriptor s).signal ≠ 0 ↔
        runtime.asserted p &&& (runtime.layout.descriptor s).signal ≠ 0)) :
    RuntimeOk (runtime.setAsserted p signals) := by
  refine ⟨h.layout, h.tables, h.queues, fun s hs => ?_⟩
  refine Iff.trans ?_ (h.signals s hs)
  by_cases hsp : runtime.layout.partitionIndex s = p
  · simp only [Runtime.setAsserted, hsp, Function.update_self]
    exact hsame s hs hsp
  · simp only [Runtime.setAsserted, Function.update_of_ne hsp]

theorem raised_ok (h : RuntimeOk runtime)
    (hp : p.val < runtime.layout.partitionCount) (hbit : OwnSignal runtime.layout p bit) :
    RuntimeOk (runtime.setAsserted p (runtime.asserted p ||| bit)) := by
  obtain ⟨hone, hne⟩ := ownSignal_ne h.layout hp hbit
  apply setAsserted_ok h
  intro s hs hsp
  exact hone.or_other (h.layout.oneBit s hs) (hne s hs hsp) _

theorem cleared_ok (h : RuntimeOk runtime)
    (hp : p.val < runtime.layout.partitionCount) (hbit : OwnSignal runtime.layout p bit) :
    RuntimeOk (runtime.setAsserted p (runtime.asserted p &&& ~~~bit)) := by
  obtain ⟨hone, hne⟩ := ownSignal_ne h.layout hp hbit
  apply setAsserted_ok h
  intro s hs hsp
  exact hone.clear_other (h.layout.oneBit s hs) (hne s hs hsp) _

end Signals

section Client

theorem rejected_ok (h : RuntimeOk runtime) (hc : (runtime.connections c).allocated = false) :
    RuntimeOk (releaseConnection runtime c) := by
  refine h.change_connections ?_
  exact h.tables.update_alone (h.tables.no_message hc)
    (h.tables.connection c).released (fun hallocated => by cases hallocated)

theorem addressed_ok (h : RuntimeOk runtime) {s : ServiceIndex} {type : Int}
    (hm : (runtime.messages m).allocated = false)
    (htype : type = psaIpcConnect ∨ type = psaIpcDisconnect ∨ psaIpcCall ≤ type) :
    MessageOk (addressed runtime actor c s m type) ∧
      waiting (addressed runtime actor c s m type) = some s := by
  obtain ⟨hactive, hcomplete, -⟩ := (h.tables.message m).free hm
  refine ⟨⟨(h.tables.message m).generation, fun hfree => ?_, htype⟩, ?_⟩
  · cases hfree
  · simp [waiting, addressed, hactive, hcomplete]

variable {events : List Event} {connection : Connection} {message : Message} {fate : Fate}

theorem opened_ok (h : RuntimeOk runtime)
    (hactor : actor ≠ 0) (hs : s.val < runtime.layout.serviceCount)
    (hc : (runtime.connections c).allocated = false) (hm : (runtime.messages m).allocated = false) :
    RuntimeOk (queued runtime c (openedConnection runtime actor s c) m
      (addressed runtime actor c s m psaIpcConnect) events s) := by
  obtain ⟨hactive, hcomplete, habandoned⟩ := (h.tables.message m).free hm
  obtain ⟨hmessage, hwaits⟩ := addressed_ok h hm (.inl rfl)
  have hconnection : ConnectionOk runtime.layout (openedConnection runtime actor s c) := by
    refine ⟨(h.tables.connection c).generation, fun hfree => ?_, fun _ => hs, fun _ => hactor⟩
    cases hfree
  have hbelongs : Belongs (addressed runtime actor c s m psaIpcConnect)
      (openedConnection runtime actor s c) := by
    refine ⟨rfl, rfl, rfl, ?_⟩
    simp [Legal, addressed, openedConnection, hactive, hcomplete, habandoned]
  refine h.enqueue hs (waiting_of_free hm) hwaits ?_
  exact h.tables.update_pair (fun hallocated => by rw [hm] at hallocated; cases hallocated)
    (fun n _ => h.tables.no_message hc n) hconnection hmessage
    (fun _ => ⟨rfl, hbelongs⟩) (fun _ hfree => by cases hfree)

theorem sameOwner_withState (runtime : Runtime) (c : ConnectionIndex) (state : ConnectionState) :
    SameOwner (runtime.connections c) (withState runtime c state) :=
  ⟨rfl, rfl, rfl, rfl, rfl⟩

theorem owner_ok (h : RuntimeOk runtime)
    (hc : (runtime.connections c).allocated = true)
    (howner : SameOwner (runtime.connections c) connection)
    (hlegal : ∀ n, (runtime.messages n).allocated = true →
      (runtime.messages n).connectionIndex = c →
      Legal (runtime.messages n) (runtime.connections c).state →
      Legal (runtime.messages n) connection.state)
    (halone : Alone (runtime.connections c).state → Alone connection.state) :
    TablesOk runtime.layout (Function.update runtime.connections c connection)
      runtime.messages := by
  refine h.tables.update_connection (howner.connectionOk (h.tables.connection c) hc) ?_ ?_
  · rintro n hn rfl
    have hbelongs := h.tables.belongs n hn
    exact hbelongs.change (.refl _) howner (hlegal n hn rfl hbelongs.legal)
  · intro hnone _
    exact halone (h.tables.alone c hc hnone)

theorem Legal.idle (h : Legal message .idle) :
    message.complete = true ∧ message.abandoned = .no ∧ Legal message .error := by
  unfold Legal at h
  split at h
  · rename_i hcomplete
    refine ⟨hcomplete, h.2.1, ?_⟩
    unfold Legal
    rw [if_pos hcomplete]
    exact ⟨h.1, h.2.1, .inr (.inl rfl)⟩
  · split_ifs at h
    · cases h.1
    · cases h.1
    · cases h.1
    · split at h <;> cases h
    · cases h.1

theorem failed_ok (h : RuntimeOk runtime) (hc : (runtime.connections c).allocated = true)
    (hidle : (runtime.connections c).state = .idle) :
    TablesOk runtime.layout (Function.update runtime.connections c (withState runtime c .error))
      runtime.messages := by
  refine owner_ok h hc ⟨rfl, rfl, rfl, rfl, rfl⟩ ?_ ?_
  · intro n _ _ hlegal
    rw [hidle] at hlegal
    exact (Legal.idle hlegal).2.2
  · intro _
    exact .inr (.inl rfl)

theorem refused_ok (h : RuntimeOk runtime) (hc : (runtime.connections c).allocated = true) :
    RuntimeOk (refuseConnection runtime c) := by
  unfold refuseConnection
  split
  · rename_i hidle
    exact h.change_connections (failed_ok h hc hidle)
  · refine h.change_connections (owner_ok h hc ⟨rfl, rfl, rfl, rfl, rfl⟩ ?_ ?_)
    · intro n _ _ hlegal
      exact hlegal
    · exact id

theorem givenBack_ok (h : RuntimeOk runtime) (hc : (runtime.connections c).allocated = true)
    (hidle : (runtime.connections c).state = .idle) (hm : (runtime.messages m).allocated = false)
    (hfate : fate ≠ .freed) :
    RuntimeOk (settled runtime c (fate.apply (runtime.connections c)) m []) := by
  have hreleased := (h.tables.message m).released
  refine h.release (waiting_of_free hm) rfl ?_
  cases fate with
  | kept =>
    rw [Fate.apply, Function.update_eq_self]
    exact h.tables.update_free hm hreleased rfl
  | failed => exact (failed_ok h hc hidle).update_free hm hreleased rfl
  | freed => exact absurd rfl hfate

theorem sent_ok (h : RuntimeOk runtime)
    {state : ConnectionState} {type : Int}
    (hc : (runtime.connections c).allocated = true)
    (hcaller : (runtime.connections c).caller = actor)
    (hnone : ∀ n, (runtime.messages n).allocated = true → (runtime.messages n).connectionIndex ≠ c)
    (hm : (runtime.messages m).allocated = false)
    (htype : type = psaIpcConnect ∨ type = psaIpcDisconnect ∨ psaIpcCall ≤ type)
    (hheader : SameHeader (addressed runtime actor c
      (runtime.connections c).serviceIndex m type) message)
    (hlegal : Legal (addressed runtime actor c (runtime.connections c).serviceIndex m type) state) :
    RuntimeOk (queued runtime c (withState runtime c state) m message events
      (runtime.connections c).serviceIndex) := by
  obtain ⟨hmessage, hwaits⟩ := @addressed_ok _ actor c _ h
    (runtime.connections c).serviceIndex _ hm htype
  have howner := sameOwner_withState runtime c state
  have hbelongs : Belongs message (withState runtime c state) := by
    refine ⟨hc, ?_, ?_, (hheader.legal state).mpr hlegal⟩
    · rw [hheader.caller]
      exact hcaller
    · rw [hheader.serviceIndex]
      rfl
  refine h.enqueue ((h.tables.connection c).service hc) (waiting_of_free hm) ?_ ?_
  · rw [waiting, hheader.allocated, hheader.active, hheader.complete, hheader.serviceIndex]
    exact hwaits
  · refine h.tables.update_pair ?_ (fun n _ => hnone n)
      (howner.connectionOk (h.tables.connection c) hc)
      (hheader.messageOk hmessage rfl)
      (fun _ => ⟨hheader.connectionIndex, hbelongs⟩) ?_
    · intro hallocated
      rw [hm] at hallocated
      cases hallocated
    · intro _ hfree
      rw [hheader.allocated] at hfree
      cases hfree

theorem no_message_of_idle (h : RuntimeOk runtime) (hidle : (runtime.connections c).state = .idle)
    (hfree : ¬Unharvested runtime c) (n : MessageIndex)
    (hn : (runtime.messages n).allocated = true) : (runtime.messages n).connectionIndex ≠ c := by
  rintro rfl
  have hlegal := (h.tables.belongs n hn).legal
  rw [hidle] at hlegal
  exact hfree ⟨n, hn, (Legal.idle hlegal).2.1, rfl⟩

theorem called_ok (h : RuntimeOk runtime) {type : Int} {prepared : Message}
    (hc : (runtime.connections c).allocated = true)
    (hcaller : (runtime.connections c).caller = actor)
    (hidle : (runtime.connections c).state = .idle)
    (hfree : ¬Unharvested runtime c)
    (hm : (runtime.messages m).allocated = false) (htype : psaIpcCall ≤ type)
    (hheader : SameHeader (addressed runtime actor c
      (runtime.connections c).serviceIndex m type) prepared) :
    RuntimeOk (queued runtime c (withState runtime c .pendingRequest) m
      prepared events (runtime.connections c).serviceIndex) := by
  obtain ⟨hactive, hcomplete, habandoned⟩ := (h.tables.message m).free hm
  have hcall : type ≠ psaIpcConnect ∧ type ≠ psaIpcDisconnect := by
    unfold psaIpcCall at htype
    unfold psaIpcConnect psaIpcDisconnect
    omega
  refine sent_ok h hc hcaller (no_message_of_idle h hidle hfree) hm (.inr (.inr htype)) hheader ?_
  simp [Legal, addressed, hactive, hcomplete, habandoned, hcall.1, hcall.2]

theorem closeSent_ok (h : RuntimeOk runtime)
    (hc : (runtime.connections c).allocated = true)
    (hcaller : (runtime.connections c).caller = actor)
    (hnone : ∀ n, (runtime.messages n).allocated = true → (runtime.messages n).abandoned ≠ .no →
      (runtime.messages n).connectionIndex ≠ c)
    (hfree : ¬Unharvested runtime c)
    (hm : (runtime.messages m).allocated = false) :
    RuntimeOk (queued runtime c (withState runtime c .disconnecting) m
      (addressed runtime actor c (runtime.connections c).serviceIndex m
        psaIpcDisconnect) events (runtime.connections c).serviceIndex) := by
  obtain ⟨hactive, hcomplete, habandoned⟩ := (h.tables.message m).free hm
  have hempty : ∀ n, (runtime.messages n).allocated = true →
      (runtime.messages n).connectionIndex ≠ c := by
    rintro n hn hon
    by_cases hleft : (runtime.messages n).abandoned = .no
    · exact hfree ⟨n, hn, hleft, hon⟩
    · exact hnone n hn hleft hon
  refine sent_ok h hc hcaller hempty hm (.inr (.inl rfl)) (.refl _) ?_
  simp [Legal, addressed, hcomplete, habandoned, psaIpcConnect, psaIpcDisconnect]

theorem changed_ok (h : RuntimeOk runtime) (hm : (runtime.messages m).allocated = true)
    (hon : (runtime.messages m).connectionIndex = c)
    (howner : SameOwner (runtime.connections c) connection)
    (hsame : SameRequest (runtime.messages m) message)
    (hwaiting : waiting message = waiting (runtime.messages m))
    (hlegal : Legal message connection.state) :
    RuntimeOk (changed runtime c connection m message events) := by
  subst hon
  have hbelongs := h.tables.belongs m hm
  refine h.change_message hwaiting (h.tables.update_both hm
    (howner.connectionOk (h.tables.connection _) hbelongs.allocated)
    (hsame.messageOk (h.tables.message m) hm) (fun _ => ?_) ?_)
  · exact ⟨hsame.connectionIndex, hbelongs.change hsame howner hlegal⟩
  · intro _ hfree
    rw [hsame.allocated, hm] at hfree
    cases hfree

theorem settled_ok (h : RuntimeOk runtime)
    (hm : (runtime.messages m).allocated = true) (hon : (runtime.messages m).connectionIndex = c)
    (hwaiting : waiting (runtime.messages m) = none)
    (hconnection : ConnectionOk runtime.layout connection)
    (halone : connection.allocated = true → Alone connection.state) :
    RuntimeOk (settled runtime c connection m events) := by
  subst hon
  refine h.release hwaiting rfl (h.tables.update_both hm hconnection
    (h.tables.message m).released (fun hallocated => ?_) ?_)
  · cases hallocated
  · intro hallocated _
    exact halone hallocated

theorem fate_connectionOk {layout : Layout} (h : ConnectionOk layout connection)
    (hallocated : connection.allocated = true) : ConnectionOk layout (fate.apply connection) := by
  have howner : SameOwner connection { connection with state := .error } :=
    ⟨rfl, rfl, rfl, rfl, rfl⟩
  cases fate with
  | kept => exact h
  | failed => exact howner.connectionOk h hallocated
  | freed => exact h.released

theorem fate_alone (h : Alone connection.state)
    (hallocated : (fate.apply connection).allocated = true) :
    Alone (fate.apply connection).state := by
  cases fate with
  | kept => exact h
  | failed => exact .inr (.inl rfl)
  | freed => cases hallocated

theorem Legal.abandoned {state : ConnectionState} (h : Legal message state)
    (hstate : state = .idle ∨ state = .error) (habandoned : message.abandoned ≠ .no) :
    message.complete = false ∧ message.active = true ∧
      message.type ≠ psaIpcConnect ∧ message.type ≠ psaIpcDisconnect := by
  unfold Legal at h
  split_ifs at h with hcomplete hconnect hactive hdisconnect hactive
  · exact absurd h.2.1 habandoned
  · rcases hstate with rfl | rfl <;> cases h.1
  · exact absurd h.2 habandoned
  · rcases hstate with rfl | rfl <;> cases h.1
  · exact ⟨by simpa using hcomplete, hactive, hconnect, hdisconnect⟩
  · exact absurd h.2 habandoned

theorem closeLeft_ok (h : RuntimeOk runtime) (hstate : (runtime.connections c).state = .idle ∨
      (runtime.connections c).state = .error)
    (hm : (runtime.messages m).allocated = true)
    (habandoned : (runtime.messages m).abandoned ≠ .no)
    (hon : (runtime.messages m).connectionIndex = c) :
    RuntimeOk (changed runtime c (withState runtime c .disconnecting) m
      { runtime.messages m with abandoned := .close } []) := by
  have hlegal := (h.tables.belongs m hm).legal
  rw [hon] at hlegal
  obtain ⟨hcomplete, hactive, hconnect, hdisconnect⟩ :=
    Legal.abandoned hlegal hstate habandoned
  refine changed_ok h hm hon ⟨rfl, rfl, rfl, rfl, rfl⟩ ⟨rfl, rfl, rfl, rfl, rfl, rfl, rfl⟩ rfl ?_
  simp [Legal, withState, hcomplete, hactive, hconnect, hdisconnect]

end Client

section Service

theorem reversed_ok (h : RuntimeOk runtime) (rhandle : Nat) (hserves : Serves runtime actor m) :
    RuntimeOk (runtime.setConnection (runtime.messages m).connectionIndex
      fun connection => { connection with rhandle := rhandle }) := by
  have hallocated := (h.tables.belongs m hserves.allocated).allocated
  refine h.change_connections (owner_ok h hallocated ⟨rfl, rfl, rfl, rfl, rfl⟩ ?_ id)
  intro n _ _ hlegal
  exact hlegal

theorem chunk_ok (h : RuntimeOk runtime) {message : Message} {event : Event}
    (hserves : Serves runtime actor m) (hchunk : Chunk m (runtime.messages m) message event) :
    RuntimeOk ((runtime.setMessage m fun _ => message).record event) := by
  have hheader := hchunk.header
  have hbelongs := h.tables.belongs m hserves.allocated
  have hwaiting : waiting message = waiting (runtime.messages m) := by
    rw [waiting, waiting, hheader.allocated, hheader.active, hheader.complete, hheader.serviceIndex]
  refine h.change_message hwaiting (h.tables.update_message hserves.allocated
    (hheader.messageOk (h.tables.message m) hserves.allocated)
    (fun _ => ⟨hheader.connectionIndex, ?_⟩) fun hfree => ?_)
  · exact hbelongs.change hheader.toSameRequest ⟨rfl, rfl, rfl, rfl, rfl⟩
      ((hheader.legal _).mpr hbelongs.legal)
  · rw [hheader.allocated, hserves.allocated] at hfree
    cases hfree

variable {state : ConnectionState} {events : List Event} {latch : Bool}

theorem repliedState_eq_ok {type status : Int} (h : repliedState type status latch = .ok state) :
    state = .idle ∨ state = .error ∨ state = .terminal := by
  unfold repliedState at h
  split_ifs at h <;> cases h <;> simp

theorem answered_ok (h : RuntimeOk runtime) (hserves : Serves runtime actor m)
    (hon : (runtime.messages m).connectionIndex = c)
    (hstate : repliedState (runtime.messages m).type status latch = .ok state)
    (habandoned : (runtime.messages m).abandoned = .no) :
    RuntimeOk (changed runtime c (withState runtime c state) m
      (answeredMessage runtime m status) events) := by
  refine changed_ok h hserves.allocated hon ⟨rfl, rfl, rfl, rfl, rfl⟩
    ⟨rfl, rfl, rfl, rfl, rfl, rfl, rfl⟩ ?_ ?_
  · rw [waiting_of_active hserves.active]
    exact waiting_of_complete rfl
  · exact ⟨rfl, habandoned, repliedState_eq_ok hstate⟩

theorem retired_ok (h : RuntimeOk runtime) {fate : Fate} (hserves : Serves runtime actor m)
    (hon : (runtime.messages m).connectionIndex = c)
    (hstate : repliedState (runtime.messages m).type status latch = .ok state) :
    RuntimeOk (settled runtime c (fate.apply (withState runtime c state)) m events) := by
  have hbelongs := h.tables.belongs m hserves.allocated
  rw [hon] at hbelongs
  have howner := sameOwner_withState runtime c state
  have hok := howner.connectionOk (h.tables.connection c) hbelongs.allocated
  refine settled_ok h hserves.allocated hon (waiting_of_active hserves.active)
    (fate_connectionOk hok hbelongs.allocated) (fate_alone ?_)
  rcases repliedState_eq_ok hstate with rfl | rfl | rfl
  · exact .inl rfl
  · exact .inr (.inl rfl)
  · exact .inr (.inr (.inr rfl))

theorem Legal.delivered {message : Message}
    (h : Legal message state) (htype : message.type = psaIpcConnect ∨
      message.type = psaIpcDisconnect ∨ psaIpcCall ≤ message.type)
    (hactive : message.active = false)
    (hcomplete : message.complete = false) :
    Legal { message with active := true } (deliveredState message.type state) := by
  unfold Legal deliveredState at *
  rw [hcomplete, hactive] at h
  rcases htype with htype | htype | htype
  · simp_all
  · simp_all [psaIpcConnect, psaIpcDisconnect, psaIpcCall]
  · have hcall : message.type ≠ psaIpcConnect ∧ message.type ≠ psaIpcDisconnect := by
      unfold psaIpcCall at htype
      unfold psaIpcConnect psaIpcDisconnect
      omega
    simp_all

theorem deliverMessage_eq (hservice : (runtime.messages m).serviceIndex = s)
    (hon : (runtime.messages m).connectionIndex = c) :
    (deliverMessage runtime actor s m).2 = updateServiceSignal
        { runtime with
          connections := Function.update runtime.connections c
            (withState runtime c (deliveredState (runtime.messages m).type
              (runtime.connections c).state))
          messages := Function.update runtime.messages m
            { runtime.messages m with active := true }
          queues := runtime.queues.pop s m
          history := .messageDelivered actor
            (makeHandle handleMessage m (runtime.messages m).generation) m
            (runtime.messages m).releases :: runtime.history } s := by
  simp [deliverMessage, Runtime.setMessage, Runtime.setState,
    Runtime.setConnection, Runtime.record, updateServiceSignal, withState,
    hservice, hon]

theorem delivered_ok (h : RuntimeOk runtime) (hs : s.val < runtime.layout.serviceCount)
    (hhead : runtime.queues.head s = some m) : RuntimeOk (deliverMessage runtime actor s m).2 := by
  obtain ⟨hm, hactive, hcomplete, hservice⟩ :=
    waiting_service (h.queues.waiting_of_head hhead)
  have hbelongs := h.tables.belongs m hm
  have howner := sameOwner_withState runtime (runtime.messages m).connectionIndex
  have hsame : SameRequest (runtime.messages m)
      { runtime.messages m with active := true } :=
    ⟨rfl, rfl, rfl, rfl, rfl, rfl, rfl⟩
  rw [deliverMessage_eq hservice rfl]
  refine h.deliver hs hhead (waiting_of_active rfl) (h.tables.update_both hm
      ((howner _).connectionOk (h.tables.connection _) hbelongs.allocated)
      (hsame.messageOk (h.tables.message m) hm) (fun _ => ⟨rfl, ?_⟩) ?_)
  · exact hbelongs.change hsame (howner _)
      (Legal.delivered hbelongs.legal (h.tables.message m).type hactive hcomplete)
  · intro _ hfree
    rw [hm] at hfree
    cases hfree

theorem requeued_ok (h : RuntimeOk runtime) (hserves : Serves runtime actor m)
    (hon : (runtime.messages m).connectionIndex = c) :
    RuntimeOk (queued runtime c (withState runtime c .disconnecting) m
      (owedDisconnect runtime c m) events
      (runtime.connections c).serviceIndex) := by
  subst hon
  have hbelongs := h.tables.belongs m hserves.allocated
  have howner := sameOwner_withState runtime (runtime.messages m).connectionIndex .disconnecting
  have hmessage : MessageOk (owedDisconnect runtime (runtime.messages m).connectionIndex m) := by
    refine ⟨(h.tables.message m).released.generation, fun hfree => ?_, .inr (.inl rfl)⟩
    cases hfree
  refine h.enqueue ((h.tables.connection _).service hbelongs.allocated)
    (waiting_of_active hserves.active) rfl
    (h.tables.update_both hserves.allocated
      (howner.connectionOk (h.tables.connection _) hbelongs.allocated)
      hmessage (fun _ => ⟨rfl, hbelongs.allocated, rfl, rfl, ?_⟩)
      fun _ hfree => by cases hfree)
  -- The slot waits for the service with a disconnect of an absent client.
  exact ⟨rfl, fun heq : Abandoned.close = .reply => by cases heq⟩

end Service

section Return

variable {state : ConnectionState} {message : Message}

theorem Legal.active (h : Legal message state)
    (hactive : message.active = true) : message.complete = false := by
  unfold Legal at h
  split at h
  · rw [hactive] at h
    cases h.1
  · rename_i hcomplete
    simpa using hcomplete

theorem left_ok (h : RuntimeOk runtime) (hactive : (runtime.messages m).active = true)
    (hm : (runtime.messages m).allocated = true) (htype : (runtime.messages m).type < psaIpcCall) :
    RuntimeOk (runtime.setMessage m fun message =>
      { message with abandoned := .close }) := by
  have hbelongs := h.tables.belongs m hm
  have hsame : SameRequest (runtime.messages m)
      { runtime.messages m with abandoned := .close } :=
    ⟨rfl, rfl, rfl, rfl, rfl, rfl, rfl⟩
  have hlegal : Legal { runtime.messages m with abandoned := .close }
      (runtime.connections (runtime.messages m).connectionIndex).state := by
    have hbefore := hbelongs.legal
    have hcomplete := Legal.active hbefore hactive
    unfold Legal at hbefore ⊢
    rcases (h.tables.message m).type with hconnect | hdisconnect | hcall
    · simp_all
    · simp_all [psaIpcConnect, psaIpcDisconnect]
    · omega
  refine h.change_message rfl (h.tables.update_message hm (hsame.messageOk (h.tables.message m) hm)
    (fun _ => ⟨rfl, hbelongs.change hsame ⟨rfl, rfl, rfl, rfl, rfl⟩ hlegal⟩)
    fun hfree => ?_)
  rw [hm] at hfree
  cases hfree

theorem callLeft_ok (h : RuntimeOk runtime) (hactive : (runtime.messages m).active = true)
    (hm : (runtime.messages m).allocated = true) (hon : (runtime.messages m).connectionIndex = c)
    (htype : psaIpcCall ≤ (runtime.messages m).type) :
    RuntimeOk (changed runtime c
      { runtime.connections c with state := .error, errorLatch := true } m
      { runtime.messages m with
        abandoned := .reply, clientOutput := fun _ => 0 } []) := by
  have hcomplete := Legal.active (h.tables.belongs m hm).legal hactive
  have hcall : (runtime.messages m).type ≠ psaIpcConnect ∧
      (runtime.messages m).type ≠ psaIpcDisconnect := by
    unfold psaIpcCall at htype
    unfold psaIpcConnect psaIpcDisconnect
    omega
  refine changed_ok h hm hon ⟨rfl, rfl, rfl, rfl, rfl⟩ ⟨rfl, rfl, rfl, rfl, rfl, rfl, rfl⟩ rfl ?_
  simp [Legal, hcomplete, hactive, hcall.1, hcall.2]

theorem Legal.complete (h : Legal message state)
    (hcomplete : message.complete = true) : Alone state := by
  unfold Legal at h
  rw [if_pos hcomplete] at h
  rcases h.2.2 with rfl | rfl | rfl
  · exact .inl rfl
  · exact .inr (.inl rfl)
  · exact .inr (.inr (.inr rfl))

theorem call_ne (h : psaIpcCall ≤ message.type) :
    message.type ≠ psaIpcConnect ∧ message.type ≠ psaIpcDisconnect := by
  constructor
  · intro heq
    rw [heq] at h
    exact absurd h (by decide)
  · intro heq
    rw [heq] at h
    exact absurd h (by decide)

theorem Legal.connect (h : Legal message state)
    (htype : message.type = psaIpcConnect) (hcomplete : message.complete = false) :
    state = if message.active then .connecting else .pendingConnect := by
  unfold Legal at h
  rw [if_neg (by simp [hcomplete]), if_pos htype] at h
  split at h
  · rename_i hactive
    rw [if_pos hactive]
    exact h.1
  · rename_i hactive
    rw [if_neg hactive]
    exact h.1

theorem Legal.call (h : Legal message state)
    (htype : psaIpcCall ≤ message.type) (hcomplete : message.complete = false) :
    state =
      if message.active then
        match message.abandoned with
        | .no => .active
        | .reply => .error
        | .close => .disconnecting
      else .pendingRequest := by
  obtain ⟨hconnect, hdisconnect⟩ := call_ne htype
  unfold Legal at h
  rw [if_neg (by simp [hcomplete]), if_neg hconnect, if_neg hdisconnect] at h
  split at h
  · rename_i hactive
    rw [if_pos hactive]
    cases habandoned : message.abandoned <;> rw [habandoned] at h <;> exact h
  · rename_i hactive
    rw [if_neg hactive]
    exact h.1

theorem repliedState_latched (htype : psaIpcCall ≤ message.type)
    (h : repliedState message.type status true = .ok state) : state = .error := by
  obtain ⟨hconnect, hdisconnect⟩ := call_ne htype
  unfold repliedState at h
  rw [if_neg hconnect, if_neg hdisconnect, if_pos htype] at h
  split at h
  · cases h
  · rw [if_pos (.inr rfl)] at h
    exact (Except.ok.inj h).symm

theorem Legal.disconnecting (h : Legal message state) (htype : message.type = psaIpcDisconnect)
    (hcomplete : message.complete = false) : state = .disconnecting := by
  unfold Legal at h
  rw [if_neg (by simp [hcomplete]), htype, if_neg (by decide), if_pos rfl] at h
  exact h.1

theorem Legal.disconnect (h : Legal message state)
    (htype : message.type = psaIpcDisconnect) : Alone state := by
  by_cases hcomplete : message.complete = true
  · exact Legal.complete h hcomplete
  · rw [Bool.not_eq_true] at hcomplete
    exact .inr (.inr (.inl (Legal.disconnecting h htype hcomplete)))

theorem harvested_ok (h : RuntimeOk runtime) {fate : Fate} {events : List Event}
    (hcomplete : (runtime.messages m).complete = true)
    (hm : (runtime.messages m).allocated = true) (hon : (runtime.messages m).connectionIndex = c) :
    RuntimeOk (settled runtime c (fate.apply (runtime.connections c)) m events) := by
  have hbelongs := h.tables.belongs m hm
  rw [hon] at hbelongs
  exact settled_ok h hm hon (waiting_of_complete hcomplete)
    (fate_connectionOk (h.tables.connection c) hbelongs.allocated)
    (fate_alone (Legal.complete hbelongs.legal hcomplete))

theorem cancelled_ok (h : RuntimeOk runtime) {fate : Fate}
    (hm : (runtime.messages m).allocated = true) (hon : (runtime.messages m).connectionIndex = c)
    (hservice : (runtime.messages m).serviceIndex = s)
    (hfate : fate = .kept → (runtime.messages m).type = psaIpcDisconnect) :
    RuntimeOk (unlinked runtime c (fate.apply (runtime.connections c)) m s) := by
  subst hon hservice
  have hbelongs := h.tables.belongs m hm
  refine h.unlink (h.service_lt hm) ?_ (h.tables.update_both hm
    (fate_connectionOk (h.tables.connection _) hbelongs.allocated)
    (h.tables.message m).released (fun hallocated => ?_) ?_)
  · intro t ht
    exact (waiting_service ht).2.2.2.symm
  · cases hallocated
  · intro hallocated _
    cases fate with
    | kept => exact Legal.disconnect hbelongs.legal (hfate rfl)
    | failed => exact .inr (.inl rfl)
    | freed => cases hallocated

end Return

theorem Transition.ok {rings : PartitionIndex → Word → Prop} {fresh guarded : Prop}
  {kept : Set MessageIndex}
    {runtime' : Runtime} (t : Transition rings fresh guarded kept actor runtime runtime')
    (hfresh : fresh) (hguarded : guarded) (h : RuntimeOk runtime) : RuntimeOk runtime' := by
  cases t with
  | stay => exact h
  | lifecycle => exact ⟨h.layout, h.tables, h.queues, h.signals⟩
  | raised p bit hp hbit => exact raised_ok h hp hbit
  | cleared p bit hp hbit => exact cleared_ok h hp hbit
  | rejected c hc => exact rejected_ok h hc
  | opened c m s hactor hs hc hm => exact opened_ok h hactor hs hc hm
  | refused c hc => exact refused_ok h hc
  | givenBack c m fate hc hcaller hidle hm hfate => exact givenBack_ok h hc hidle hm hfate
  | called c m type ports memory memory' inVec outVec prepared hc hcaller hidle
      hfree hm htype hprepared =>
      exact called_ok h hc hcaller hidle (hfree hfresh) hm htype (prepareVectors_header hprepared)
  | closeLeft c m hc hcaller hstate hm habandoned hon =>
    exact closeLeft_ok h hstate hm habandoned hon
  | closeSent c m hc hcaller hstate hnone hfree hm =>
    exact closeSent_ok h hc hcaller hnone (hfree hfresh) hm
  | delivered s m hs hserver hhead => exact delivered_ok h hs hhead
  | reversed m rhandle hserves => exact reversed_ok h rhandle hserves
  | chunk m message event hserves hchunk => exact chunk_ok h hserves hchunk
  | answered c m status state hserves hon hstate habandoned =>
    exact answered_ok h hserves hon hstate habandoned
  | requeued c m status hserves hon => exact requeued_ok h hserves hon
  | retired c m status state fate hserves hon hstate => exact retired_ok h hserves hon hstate
  | left c m hkept hactive howns =>
    obtain ⟨hm, -, htype⟩ := howns hguarded
    exact left_ok h hactive hm.allocated htype
  | callLeft c m hkept hactive howns =>
    obtain ⟨hm, -, htype⟩ := howns hguarded
    exact callLeft_ok h hactive hm.allocated hm.connection htype
  | cancelled c m s fate hkept hinactive howns =>
    obtain ⟨hm, hservice, hfate⟩ := howns hguarded
    exact cancelled_ok h hm.allocated hm.connection hservice hfate
  | harvested c m fate hkept hcomplete howns =>
    have hm := howns hguarded
    exact harvested_ok h hcomplete hm.allocated hm.connection

end WolfTrust.FfmPreservation
