import WolfTrust.FfmSessionRuns

namespace WolfTrust.FfmCloses

open Domain Manifest ByteMemory FfmRuntime FfmClient FfmService FfmMachine
  FfmTables FfmInvariant FfmTransition FfmOperations FfmPreservation
  FfmTermination FfmRestart FfmLayout FfmDiscipline FfmHandles FfmSessions
  FfmSessionRuns

section Instances

variable {before after : Runtime} {caller : Int}

theorem transition_instances {rings : PartitionIndex → Word → Prop}
    {fresh guarded : Prop} {kept : Set MessageIndex} {actor : Int}
    (t : Transition rings fresh guarded kept actor before after) :
    after.layout = before.layout ∧ after.instances = before.instances := by
  cases t with
  | refused =>
    unfold refuseConnection
    split
    · exact ⟨rfl, rfl⟩
    · exact ⟨rfl, rfl⟩
  | _ => exact ⟨rfl, rfl⟩

theorem callerInstance_congr (hlayout : after.layout = before.layout)
    (hinstances : after.instances = before.instances) :
    callerInstance after caller = callerInstance before caller := by
  simp only [callerInstance, findPartition, hlayout, hinstances]

theorem callerInstance_restarted {id : Int} {p : PartitionIndex}
    (hp : findPartition before id = .ok p) (hcaller : caller ≠ id)
    (hlayout : after.layout = before.layout)
    (hinstances : ∀ q, q ≠ p → after.instances q = before.instances q) :
    callerInstance after caller = callerInstance before caller := by
  have hfind : findPartition after caller = findPartition before caller := by
    simp only [findPartition, hlayout]
  unfold callerInstance
  rw [hfind]
  cases hq : findPartition before caller with
  | error => rfl
  | ok q =>
    have hne : q ≠ p := by
      rintro rfl
      exact hcaller ((findPartition_eq_ok hq).2.2.symm.trans (findPartition_eq_ok hp).2.2)
    exact hinstances q hne

theorem step_callerInstance {machine : Machine} (s : Step) (h : MachineOk machine)
    (hcaller : ∀ id status, s = .partitionRestarted id status → caller ≠ id) :
    callerInstance (step machine s).runtime caller = callerInstance machine.runtime caller := by
  obtain ⟨contents, hlists⟩ := lists_of_holds h.runtime.queues
  by_cases hrecovers : Recovers s
  · cases s with
    | partitionRestarted id status =>
      cases hp : findPartition machine.runtime id with
      | error => simp only [step, FfmRecovery.ffmPartitionRestarted, hp]
      | ok =>
        obtain ⟨failed, released, hfailed, hgone, hafter⟩ :=
          ffmPartitionRestarted_restarted h.runtime hlists status hp
        simp only [step, hafter]
        refine callerInstance_restarted hp (hcaller id status rfl)
          (hgone.layout.trans hfailed.layout) fun q hq => ?_
        rw [← hfailed.instances, ← hgone.instances]
        exact Function.update_of_ne hq _ _
    | failClient gone =>
      have hgone := ffmFailClientConnections_gone h.runtime hlists gone
      exact callerInstance_congr hgone.layout hgone.instances
    | _ => exact absurd hrecovers not_false
  · have hsame := transition_instances
      (@step_transition False machine s (fun hfalse => hfalse.elim) hrecovers)
    exact callerInstance_congr hsame.1 hsame.2

theorem connectionFromHandle_congr {handle : Int} {c : ConnectionIndex}
    (h : connectionFromHandle before caller handle = .ok c)
    (howner : SameOwner (before.connections c) (after.connections c))
    (hclient : (after.connections c).clientInstance = (before.connections c).clientInstance)
    (hinstance : callerInstance after caller = callerInstance before caller) :
    connectionFromHandle after caller handle = .ok c := by
  obtain ⟨hallocated, hcaller, hcurrent, index, hdecode, hc⟩ :=
    connectionFromHandle_eq_ok h
  unfold connectionFromHandle
  simp only [hdecode, ← hc, howner.allocated, howner.generation, howner.caller,
    hallocated, hcaller, hclient, hcurrent, hinstance]
  simp

end Instances

section Held

variable {machine : Machine}

theorem step_owner (s : Step) (h : MachineOk machine) (hs : Disciplined machine s) {f : Suspended}
    (hf : f ∈ (step machine s).stack)
    (hc : (machine.runtime.connections f.request.connection).allocated = true) :
    SameOwner (machine.runtime.connections f.request.connection)
        ((step machine s).runtime.connections f.request.connection) ∧
      ((step machine s).runtime.connections f.request.connection).clientInstance =
        (machine.runtime.connections f.request.connection).clientInstance := by
  have hafter := step_ok s h hs
  have howns := (hafter.pinned f hf).owns
  have hbelongs := hafter.runtime.tables.belongs _ howns.allocated
  rw [howns.connection] at hbelongs
  obtain ⟨s₀, hs₀⟩ := exists_shows h.runtime f.request.connection
  obtain ⟨s₁, hs₁, hmoves⟩ := step_session s h hs hc hs₀
  rw [hs₁.connection] at hbelongs
  rw [hs₀.connection, hs₁.connection]
  rcases hmoves.owner with hsame | ⟨hfree, -⟩
  · exact hsame
  · rw [hbelongs.allocated] at hfree
    cases hfree

def Held (runtime : Runtime) : Suspended → Prop
  | .close request =>
    connectionFromHandle runtime request.caller request.handle = .ok request.connection
  | .connect _ | .call .. => True

theorem closeRequest_eq_ok {runtime : Runtime} {caller handle : Int} {request : Request}
    (h : (closeRequest runtime caller handle).1 = .ok (some request)) :
    connectionFromHandle runtime request.caller request.handle = .ok request.connection := by
  unfold closeRequest at h
  repeat' split at h
  all_goals cases h
  assumption

theorem close_of_step (s : Step) {request : Request}
    (hf : .close request ∈ (step machine s).stack) :
    .close request ∈ machine.stack ∨ ∃ caller handle, s = .close caller handle ∧
        (closeRequest machine.runtime caller handle).1 = .ok (some request) := by
  cases s with
  | close caller handle =>
    simp only [step] at hf
    cases hclose : (closeRequest machine.runtime caller handle).1 with
    | error =>
      rw [hclose] at hf
      exact .inl hf
    | ok result =>
      rw [hclose] at hf
      cases result with
      | none => exact .inl hf
      | some =>
        rcases List.mem_cons.mp hf with heq | hf
        · obtain rfl := Suspended.close.inj heq
          exact .inr ⟨caller, handle, rfl, hclose⟩
        · exact .inl hf
  | connect caller sid version =>
    simp only [step] at hf
    cases hconnect : (connectRequest machine.runtime caller sid version).1 with
    | error =>
      rw [hconnect] at hf
      exact .inl hf
    | ok =>
      rw [hconnect] at hf
      rcases List.mem_cons.mp hf with heq | hf
      · cases heq
      · exact .inl hf
  | call ports caller handle type inVec outVec =>
    simp only [step] at hf
    cases hcall : (callRequest ports machine.runtime machine.memory caller
        handle type inVec outVec).1 with
    | error e =>
      rw [hcall] at hf
      exact .inl hf
    | ok begun =>
      rw [hcall] at hf
      rcases List.mem_cons.mp hf with heq | hf
      · cases heq
      · exact .inl hf
  | dispatched ports ret =>
    simp only [step, Machine.dispatched] at hf
    split at hf
    · exact .inl hf
    · rename_i g rest hstack
      rw [hstack]
      refine .inl (List.mem_cons_of_mem _ ?_)
      cases g <;> exact hf
  | _ => exact .inl hf

theorem step_held (s : Step) (h : MachineOk machine) (hs : Disciplined machine s)
    (hheld : ∀ f ∈ machine.stack, Held machine.runtime f) :
    ∀ f ∈ (step machine s).stack, Held (step machine s).runtime f := by
  intro f hf
  cases f with
  | connect | call => trivial
  | close request =>
    have hstart : connectionFromHandle machine.runtime request.caller
        request.handle = .ok request.connection ∧
        ∀ id status, s = .partitionRestarted id status → request.caller ≠ id := by
      rcases close_of_step s hf with hold | ⟨caller, handle, rfl, hbegun⟩
      · refine ⟨hheld _ hold, ?_⟩
        rintro id status rfl
        exact hs.1 _ hold
      · refine ⟨closeRequest_eq_ok hbegun, ?_⟩
        rintro id status ⟨⟩
    obtain ⟨howner, hclient⟩ := step_owner s h hs hf (connectionFromHandle_eq_ok hstart.1).1
    exact connectionFromHandle_congr hstart.1 howner hclient (step_callerInstance s h hstart.2)

theorem run_held (steps : List Step) (h : MachineOk machine)
    (hheld : ∀ f ∈ machine.stack, Held machine.runtime f)
    (hsteps : Along Disciplined machine steps) :
    ∀ f ∈ (run machine steps).stack, Held (run machine steps).runtime f :=
  (run_induction (I := fun machine => MachineOk machine ∧
      ∀ f ∈ machine.stack, Held machine.runtime f)
    (fun _ s hinv hs => ⟨step_ok s hinv.1 hs, step_held s hinv.1 hs hinv.2⟩)
    steps machine ⟨h, hheld⟩ hsteps).2

end Held

/-- A close of the handle is refused at most for want of a message slot. -/
def Closable (runtime : Runtime) (caller handle : Int) : Prop :=
  (∃ c, connectionFromHandle runtime caller handle = .ok c ∧
    ((runtime.connections c).state = .idle ∨ (runtime.connections c).state = .error)) ∧
  ∀ e, (closeRequest runtime caller handle).1 = .error e →
    e = .resource ∧ ∀ m, (runtime.messages m).allocated = true

/-- The service holds the disconnect `m` of connection `c`, and its answer
releases both. -/
structure DisconnectPending (runtime : Runtime) (c : ConnectionIndex)
    (m : MessageIndex) : Prop where
  on : On runtime c m
  active : (runtime.messages m).active = true
  type : (runtime.messages m).type = psaIpcDisconnect
  answer : ∀ status,
    let answered := ffmReply runtime (runtime.layout.server (runtime.messages m).serviceIndex)
      (makeHandle handleMessage m (runtime.messages m).generation) status
    answered.1 = ffmSuccess ∧ answered.2.connections c = (runtime.connections c).released ∧
      answered.2.messages m = (runtime.messages m).released

section Returned

variable {runtime : Runtime} {c : ConnectionIndex} {m : MessageIndex}

theorem allocMessage_eq_none (h : allocMessage runtime = none)
    (m : MessageIndex) : (runtime.messages m).allocated = true := by
  unfold allocMessage at h
  split at h
  · rename_i hnone
    simpa using List.find?_eq_none.mp hnone m (List.mem_finRange m)
  · cases h

theorem closable_of_state (h : RuntimeOk runtime) {caller handle : Int}
    (hc : connectionFromHandle runtime caller handle = .ok c)
    (hstate : (runtime.connections c).state = .idle ∨ (runtime.connections c).state = .error) :
    Closable runtime caller handle := by
  refine ⟨⟨c, hc, hstate⟩, fun e he => ?_⟩
  obtain ⟨hallocated, hcaller, -, index, hdecode, -⟩ :=
    connectionFromHandle_eq_ok hc
  have hpositive := (decodeHandle_iff.mp hdecode).1
  have hclient := (h.tables.connection c).caller hallocated
  rw [hcaller] at hclient
  unfold closeRequest at he
  rw [if_neg (show handle ≠ psaNullHandle from hpositive.ne'), if_neg hclient, hc] at he
  simp only at he
  rw [if_neg (by tauto)] at he
  split at he
  · cases he
  split at he
  · rename_i hfull
    cases he
    exact ⟨rfl, allocMessage_eq_none hfull⟩
  · cases he

theorem closeRequest_refused {caller handle : Int} {e : FfmError}
    (h : (closeRequest runtime caller handle).1 = .error e) :
    (closeRequest runtime caller handle).2 = runtime := by
  generalize hresult : closeRequest runtime caller handle = result at h ⊢
  unfold closeRequest at hresult
  repeat' split at hresult
  all_goals subst hresult
  all_goals first | rfl | cases h

theorem ffmReply_disconnect (h : RuntimeOk runtime) (hon : On runtime c m)
    (hactive : (runtime.messages m).active = true)
    (htype : (runtime.messages m).type = psaIpcDisconnect)
    (hleft : (runtime.messages m).abandoned = .close) : DisconnectPending runtime c m := by
  refine ⟨hon, hactive, htype, fun status => ?_⟩
  have howes : owesDisconnect (answeredMessage runtime m status) = false := by
    rw [← Bool.not_eq_true, owesDisconnect_iff, htype]
    simp [psaIpcDisconnect, psaIpcConnect, psaIpcCall]
  have hreplied (latch : Bool) :
      repliedState (runtime.messages m).type status latch = .ok .terminal := by
    rw [htype]
    rfl
  unfold ffmReply
  simp only [messageFromHandle_of_active h hactive, hreplied, reply_eq]
  rw [if_pos (by simp [hleft]), finishAbandoned_eq rfl, howes]
  simp [hon.2, htype, psaIpcDisconnect, psaIpcCall, Fate.apply, withState, Connection.released]

def LeftClose (m : MessageIndex) (s : Session) : Prop :=
  ∃ message, s.message = some (m, message) ∧ message.active = true ∧
    message.type = psaIpcDisconnect ∧ message.abandoned = .close ∧
    s.connection.state = .disconnecting

theorem leftClose_move {recovers : Prop} {kept : Set MessageIndex} {s s' : Session}
    (hok : SessionOk s) (h : LeftClose m s) (hmove : SessionMove recovers kept s s')
    (hallocated : s'.connection.allocated = true) : LeftClose m s' := by
  obtain ⟨message, hm, hactive, htype, hleft, hstate⟩ := h
  have hcomplete : message.complete = false :=
    Legal.active (hok.belongs m message hm).1.legal hactive
  have hnot : ¬psaIpcCall ≤ psaIpcDisconnect := by decide
  have hunleft {n : MessageIndex} {other : Message} {abandoned : Abandoned}
      (hn : s.message = some (n, other)) (hother : other.abandoned = abandoned)
      (hne : abandoned ≠ .close) : LeftClose m s' := by
    obtain ⟨rfl, rfl⟩ := message_unique hm hn
    exact absurd (hother.symm.trans hleft) hne
  cases hmove with
  | stay | reversed => exact ⟨message, hm, hactive, htype, hleft, hstate⟩
  | refused =>
    refine ⟨message, hm, hactive, htype, hleft, ?_⟩
    rw [refusedConnection, if_neg (by simp [hstate])]
    exact hstate
  | failed hidle =>
    rw [hstate] at hidle
    cases hidle
  | called n other hnone =>
    rw [hm] at hnone
    cases hnone
  | closeLeft n other hn hclosable =>
    rw [hstate] at hclosable
    simp at hclosable
  | closeSent n other hnone =>
    rw [hm] at hnone
    cases hnone
  | delivered n other hn hwaits =>
    obtain ⟨rfl, rfl⟩ := message_unique hm hn
    rw [hwaits.active] at hactive
    cases hactive
  | chunk n other changed hn hserved hheader =>
    obtain ⟨rfl, rfl⟩ := message_unique hm hn
    exact ⟨changed, rfl, hheader.active.trans hactive,
      hheader.type.trans htype, hheader.abandoned.trans hleft, hstate⟩
  | answered n other status state hn hserved hno => exact hunleft hn hno (by decide)
  | requeued n other owed status hn hserved habandoned howes =>
    obtain ⟨rfl, rfl⟩ := message_unique hm hn
    rw [htype] at howes
    rcases howes with ⟨hconnect, -⟩ | ⟨hcall, -⟩
    · exact absurd hconnect (by decide)
    · exact absurd hcall hnot
  | retired n other status state hn =>
    obtain ⟨rfl, rfl⟩ := message_unique hm hn
    rw [htype] at hallocated
    exact absurd hallocated Bool.false_ne_true
  | left n other hkept hn hserved hno => exact hunleft hn hno (by decide)
  | callLeft n other hkept hn hserved hno => exact hunleft hn hno (by decide)
  | cancelled n other fate hkept hn hinactive =>
    obtain ⟨rfl, rfl⟩ := message_unique hm hn
    rw [hactive] at hinactive
    cases hinactive
  | harvested n other fate hkept hn hdone =>
    obtain ⟨rfl, rfl⟩ := message_unique hm hn
    rw [hcomplete] at hdone
    cases hdone
  | clientGone | closeDropped => exact absurd hallocated Bool.false_ne_true
  | serverGone hdone =>
    have hended := hdone m message hm
    rw [hcomplete] at hended
    cases hended
  | answeredFor n other status hn hpending hno => exact hunleft hn hno (by decide)
  | replyDropped n other hn hpending hreply => exact hunleft hn hreply (by decide)

theorem LeftClose.pending {s : Session} (h : RuntimeOk runtime) (hs : Shows runtime c s)
    (hleft : LeftClose m s) : DisconnectPending runtime c m := by
  obtain ⟨message, hm, hactive, htype, hclose, -⟩ := hleft
  obtain ⟨hon, rfl⟩ := (hs.message m message).mp hm
  exact ffmReply_disconnect h hon hactive htype hclose

end Returned

/-- The dispatch of a close returns with the disconnect answered or taken, or
after the failure of the service. -/
def TakesDisconnect (machine : Machine) : Step → Prop
  | .dispatched _ ret =>
    match machine.stack with
    | .close request :: _ =>
      dispatchResult machine.runtime request.message ret = ffmSuccess ∨
        (machine.runtime.messages request.message).active = true ∨
        (machine.runtime.connections request.connection).state = .error
    | _ => True
  | _ => True

section Dispatched

variable {machine : Machine} {request : Request} {rest : List Suspended}

theorem dispatched_close (hstack : machine.stack = .close request :: rest)
    (ports : PortOps) (ret : Int) :
    (step machine (.dispatched ports ret)).runtime = (closeReturn machine.runtime request
        (dispatchResult machine.runtime request.message ret)).2 := by
  simp only [step, Machine.dispatched, hstack, Suspended.request]

theorem tracked_leftClose (h : MachineOk machine)
    (hstack : machine.stack = .close request :: rest) (ports : PortOps) {ret : Int}
    (hret : dispatchResult machine.runtime request.message ret ≠ ffmSuccess)
    (hactive : (machine.runtime.messages request.message).active = true) :
    Tracked (LeftClose request.message) request.connection
      (machine.runtime.connections request.connection).releases
      (step machine (.dispatched ports ret)).runtime := by
  have hpinned := h.pinned (.close request) (by simp [hstack])
  have hon : On machine.runtime request.connection request.message :=
    ⟨hpinned.owns.allocated, hpinned.owns.connection⟩
  have hbelongs := h.runtime.tables.belongs _ hon.1
  rw [hon.2] at hbelongs
  have htype : (machine.runtime.messages request.message).type =
      psaIpcDisconnect := hpinned.type
  have hstate := Legal.disconnecting hbelongs.legal htype (Legal.active hbelongs.legal hactive)
  obtain ⟨s₀, hs₀⟩ := exists_shows h.runtime request.connection
  rw [dispatched_close hstack, closeReturn, if_pos ⟨hret, hactive⟩]
  exact .inr ⟨hbelongs.allocated, rfl, _, Shows.replace rfl rfl (fun n hn => hs₀.only hon hn) hon,
    _, rfl, hactive, htype, rfl, hstate⟩

theorem closable_of_failed (h : MachineOk machine)
    (hheld : ∀ f ∈ machine.stack, Held machine.runtime f)
    (hstack : machine.stack = .close request :: rest) (ports : PortOps) {ret : Int}
    (hret : dispatchResult machine.runtime request.message ret ≠ ffmSuccess)
    (hinactive : (machine.runtime.messages request.message).active ≠ true)
    (herror : (machine.runtime.connections request.connection).state = .error) :
    Closable (step machine (.dispatched ports ret)).runtime request.caller
      request.handle := by
  have hok : RuntimeOk (step machine (.dispatched ports ret)).runtime :=
    (step_ok (.dispatched ports ret) h ⟨trivial, trivial⟩).runtime
  have hhandle := hheld (.close request) (by simp [hstack])
  rw [dispatched_close hstack] at hok ⊢
  simp only [closeReturn, hret, hinactive, ne_eq, not_false_eq_true, if_false, if_true] at hok ⊢
  exact closable_of_state hok (connectionFromHandle_congr hhandle
    ⟨rfl, rfl, rfl, rfl, rfl⟩ rfl rfl) (.inr herror)

end Dispatched

/-- A close that is refused leaves the handle to be closed again. One whose
dispatch fails does too when the service failed; and when the service has taken
the disconnect, it stays with it, through every later step, until its answer
releases the connection. -/
theorem failed_close_reclaimable {manifest : SystemManifest} {features : Word}
    {platform : ProfileCapabilities} {runtime : Runtime}
    (hboot : Booted manifest features platform runtime) (memory : Memory) (steps : List Step)
    (hsteps : Along Disciplined (start runtime memory) steps) :
    let machine := run (start runtime memory) steps
    (∀ caller handle c e, connectionFromHandle machine.runtime caller handle = .ok c →
      ((machine.runtime.connections c).state = .idle ∨
        (machine.runtime.connections c).state = .error) →
      (closeRequest machine.runtime caller handle).1 = .error e →
      Closable (closeRequest machine.runtime caller handle).2 caller handle) ∧
    ∀ request rest ports ret, machine.stack = .close request :: rest →
      TakesDisconnect machine (.dispatched ports ret) →
      (closeReturn machine.runtime request
        (dispatchResult machine.runtime request.message ret)).1 ≠ ffmSuccess →
      let returned := step machine (.dispatched ports ret)
      Closable returned.runtime request.caller request.handle ∨
        ∀ later, Along Disciplined returned later →
          (machine.runtime.connections request.connection).releases <
              ((run returned later).runtime.connections request.connection).releases ∨
            DisconnectPending (run returned later).runtime request.connection request.message := by
  intro machine
  have hok : MachineOk machine := run_ok hboot memory steps hsteps
  have hheld : ∀ f ∈ machine.stack, Held machine.runtime f := by
    refine run_held steps ?_ ?_ hsteps
    · exact run_ok hboot memory [] trivial
    · intro f hf
      cases hf
  refine ⟨fun caller handle c e hc hstate herror => ?_,
    fun request rest ports ret hstack htakes hfails => ?_⟩
  · rw [closeRequest_refused herror]
    exact closable_of_state hok.runtime hc hstate
  have hret : dispatchResult machine.runtime request.message ret ≠
      ffmSuccess := by
    intro hsuccess
    rw [hsuccess] at hfails
    simp [closeReturn] at hfails
  by_cases hactive : (machine.runtime.messages request.message).active = true
  · refine .inr fun later hlater => ?_
    have hreturned := step_ok (.dispatched ports ret) hok ⟨trivial, trivial⟩
    have hlast : MachineOk (run (step machine (.dispatched ports ret)) later) :=
      run_induction (fun machine s h hs => step_ok s h hs) later _ hreturned hlater
    rcases run_tracked later hreturned hlater (fun _ _ _ _ hs h hmove hallocated =>
        leftClose_move hs h hmove hallocated)
      (tracked_leftClose hok hstack ports hret hactive) with
      hover | ⟨-, -, s, hs, hleft⟩
    · exact .inl hover
    · exact .inr (hleft.pending hlast.runtime hs)
  · have herror : (machine.runtime.connections request.connection).state =
        .error := by
      simp only [TakesDisconnect, hstack] at htakes
      rcases htakes with hsuccess | hserved | herror
      · exact absurd hsuccess hret
      · exact absurd hserved hactive
      · exact herror
    exact .inl (closable_of_failed hok hheld hstack ports hret hactive herror)

/-- Client -1 connects to the service of partition 3 and closes the connection;
`taken` says whether the service takes the disconnect. -/
def closeRun (taken : Bool) : List Step :=
  [.connect (-1) 200 1, sampleGate (getBlock 3),
    sampleGate (replyBlock 3 193), .dispatched openPorts ffmSuccess,
    .close (-1) 161] ++ if taken then [sampleGate (getBlock 3)] else []

def sampleClose : Request :=
  { caller := -1, handle := 161, connection := ⟨0, by decide⟩
    message := ⟨0, by decide⟩, service := ⟨1, by decide⟩ }

theorem failed_close_reclaimable_sample :
    let machine := run sampleMachine (closeRun true)
    let returned := step machine (.dispatched openPorts ffmSuccess)
    machine.stack = [.close sampleClose] ∧
      dispatchResult machine.runtime 0 ffmSuccess = FfmError.notReady.code ∧
      (Closable returned.runtime (-1) 161 ∨ ∀ later, Along Disciplined returned later →
          (machine.runtime.connections 0).releases <
              ((run returned later).runtime.connections 0).releases ∨
            DisconnectPending (run returned later).runtime 0 0) := by
  have hstack : (run (start sampleRuntime sampleMemory)
      (closeRun true)).stack = [.close sampleClose] := by decide +kernel
  refine ⟨hstack, by decide +kernel, ?_⟩
  refine (failed_close_reclaimable sampleRuntime_booted sampleMemory
    (closeRun true) (by decide +kernel)).2 sampleClose [] openPorts ffmSuccess
    hstack ?_ (by decide +kernel)
  rw [TakesDisconnect, hstack]
  decide +kernel

/-- The dispatch fails before the service takes the disconnect, which is then
dropped: the connection stays allocated, nothing is pending for it, and its
client cannot close it again. -/
theorem failed_close_leaks :
    let machine := run sampleMachine (closeRun false)
    let returned := step machine (.dispatched openPorts ffmSuccess)
    machine.stack = [.close sampleClose] ∧ Along Disciplined sampleMachine (closeRun false) ∧
      (closeReturn machine.runtime sampleClose (dispatchResult machine.runtime 0 ffmSuccess)).1 =
        FfmError.notReady.code ∧
      (returned.runtime.connections 0).allocated = true ∧
      (returned.runtime.connections 0).releases = (machine.runtime.connections 0).releases ∧
      (∀ m, (returned.runtime.messages m).allocated = false) ∧
      (closeRequest returned.runtime (-1) 161).1 = .error .state := by
  refine ⟨by decide +kernel, by decide +kernel, by decide +kernel,
    by decide +kernel, by decide +kernel, by decide +kernel, ?_⟩
  decide +kernel

end WolfTrust.FfmCloses
