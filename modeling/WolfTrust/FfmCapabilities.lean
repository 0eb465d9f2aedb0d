import WolfTrust.FfmSessionRuns

namespace WolfTrust.FfmCapabilities

open Domain Manifest ByteMemory SlotLease FfmRuntime FfmClient SpmGate
  FfmMachine FfmTables FfmInvariant FfmTransition FfmOperations GateOperations
  FfmLayout FfmDiscipline FfmHandles FfmSessions FfmSessionRuns

/-- A CONNECT whose client has not got the handle, or a request that the service
ends for a client that left. -/
def Unreturned (message : Message) : Prop :=
  message.type = psaIpcConnect ∨ message.abandoned = .close

def Outstanding (runtime : Runtime) (c : ConnectionIndex) : Prop :=
  ∃ m, On runtime c m ∧ Unreturned (runtime.messages m)

instance (runtime : Runtime) (c : ConnectionIndex) : Decidable (Outstanding runtime c) :=
  inferInstanceAs (Decidable (∃ _, (_ ∧ _) ∧ (_ ∨ _)))

/-- A resumed gate call that harvests a CONNECT is itself a CONNECT. -/
def Collects (machine : Machine) : Step → Prop
  | .gate _ _ call => ∀ m, Harvests machine.runtime call m →
      (machine.runtime.messages m).type = psaIpcConnect → call.op = .connect
  | _ => True

instance (machine : Machine) (s : Step) : Decidable (Collects machine s) :=
  match s with
  | .gate _ _ call =>
    inferInstanceAs (Decidable (∀ m, Harvests machine.runtime call m →
      (machine.runtime.messages m).type = psaIpcConnect → call.op = .connect))
  | .connect .. | .call .. | .close .. | .dispatched .. | .callRefuse ..
  | .assertSignal .. | .partitionRestarted .. | .failClient _
  | .setLifecycle _ | .scribble _ => .isTrue trivial

/-- The event that hands out the handle of an open connection. -/
def issuance (c : ConnectionIndex) (connection : Connection) : Event :=
  .connectionIssued connection.caller
    (makeHandle handleConnection c connection.generation) c connection.releases

section Owed

variable {recovers : Prop} {kept : Set MessageIndex} {s s' : Session}

/-- The session still has a message of `kept` that was not returned. -/
def Owed (kept : Set MessageIndex) (s : Session) : Prop :=
  ∃ m message, s.message = some (m, message) ∧ Unreturned message ∧ m ∈ kept

theorem owed_move (hs : SessionOk s) (h : Owed kept s) (hmove : SessionMove recovers kept s s')
    (hallocated : s'.connection.allocated = true) : Owed kept s' := by
  obtain ⟨m, message, hm, hunreturned, hkept⟩ := h
  have hsame {n : MessageIndex} {other changed : Message}
      (hn : s.message = some (n, other)) (htype : changed.type = other.type)
      (habandoned : other.abandoned = .close → changed.abandoned = .close)
      {connection : Connection} : Owed kept ⟨connection, some (n, changed)⟩ := by
    obtain ⟨rfl, rfl⟩ := message_unique hm hn
    exact ⟨_, changed, rfl, hunreturned.imp htype.trans habandoned, hkept⟩
  have hended {n : MessageIndex} {other : Message} (hn : s.message = some (n, other)) : n ∈ kept :=
    (message_unique hm hn).1 ▸ hkept
  cases hmove with
  | stay | refused | failed | reversed | serverGone => exact ⟨m, message, hm, hunreturned, hkept⟩
  | called n other hnone | closeSent n other hnone =>
    rw [hm] at hnone
    cases hnone
  | closeLeft n other hn => exact hsame hn (by rfl) (by simp)
  | delivered n other hn => exact hsame hn (by rfl) (by simp)
  | chunk n other changed hn hactive hheader => exact hsame hn hheader.type hheader.abandoned.trans
  | answered n other status state hn => exact hsame hn (by rfl) (by simp)
  | requeued n other owed status hn hactive hleft howes htype hwaits hclose =>
    exact ⟨n, owed, rfl, .inr hclose, hended hn⟩
  | retired n other status state hn hactive hleft howes hstate =>
    obtain ⟨rfl, rfl⟩ := message_unique hm hn
    -- A CONNECT goes with its connection, and a call left to be closed owes a
    -- DISCONNECT.
    split at hallocated
    · cases hallocated
    · rename_i htype
      rcases hunreturned with hconnect | hclose
      · rw [hconnect] at htype
        exact absurd (by decide) htype
      · exact absurd (.inr ⟨by omega, hclose⟩) howes
  | left n other hn hsome | callLeft n other hn hsome
  | cancelled n other fate hn hsome | harvested n other fate hn hsome =>
    exact absurd (hended hsome) hn
  | clientGone | closeDropped => cases hallocated
  | answeredFor n other status hn => exact hsame hn (by rfl) (by simp)
  | replyDropped n other hn hcomplete hreply =>
    obtain ⟨rfl, rfl⟩ := message_unique hm hn
    have hlegal := (hs.belongs _ _ hn).1.legal
    rcases hunreturned with hconnect | hclose
    · simp only [Legal, hcomplete, hconnect, hreply] at hlegal
      split at hlegal <;> simp_all
    · rw [hreply] at hclose
      cases hclose

end Owed

section Ends

variable {machine : Machine} {s : Step} {m : MessageIndex}
  {c : ConnectionIndex}

theorem ends_not_abandoned (h : MachineOk machine) (hends : Ends machine s m)
    (hm : (machine.runtime.messages m).allocated = true) :
    (machine.runtime.messages m).abandoned = .no := by
  cases s with
  | gate =>
    have hlegal := (h.runtime.tables.belongs m hm).legal
    rw [Legal, if_pos hends.2.2.2] at hlegal
    exact hlegal.2.1
  | dispatched =>
    obtain ⟨f, hf, rfl⟩ := hends
    exact (h.pinned f (List.mem_of_mem_head? hf)).abandoned
  | _ => exact hends.elim

theorem connectReturn_issues (runtime : Runtime) (request : Request) (ret : Int) :
    let after := (connectReturn runtime request ret).2
    after.messages request.message =
        { runtime.messages request.message with abandoned := .close } ∨
      (after.connections request.connection).allocated = false ∨
      .connectionIssued request.caller request.handle request.connection
        (runtime.connections request.connection).releases ∈ after.history := by
  intro after
  simp only [after, connectReturn]
  split
  · exact .inl (by simp [Runtime.setMessage])
  · split
    · exact .inr (.inl (by simp [releaseConnection, Runtime.setConnection,
        Connection.released, clearedConnection]))
    · rename_i hok
      rw [if_neg fun hret => hok (.inl hret)]
      exact .inr (.inr List.mem_cons_self)

theorem ffmConnectFinish_issues (runtime : Runtime) (m : MessageIndex) :
    let after := (ffmConnectFinish runtime m).2
    let c := (runtime.messages m).connectionIndex
    (after.connections c).allocated = false ∨ .connectionIssued (runtime.messages m).caller
        (makeHandle handleConnection c (runtime.connections c).generation) c
        (runtime.connections c).releases ∈ after.history := by
  intro after c
  simp only [after, ffmConnectFinish]
  split
  · exact .inl (by simp [c, releaseConnection, Runtime.setConnection,
      Connection.released, clearedConnection])
  · exact .inr List.mem_cons_self

theorem gate_connectFinish (ports : PortOps) (domain : Option SecureDomain) {call : SpmCall}
    (hop : call.op = .connect) (hharvests : Harvests machine.runtime call m) :
    (step machine (.gate ports domain call)).runtime = (ffmConnectFinish machine.runtime m).2 := by
  obtain ⟨hheld, hmessage, hdone⟩ := hharvests.resumes
  simp only [step, Machine.gate, spmGate, hop, gateConnect, if_neg hheld,
    gateResume, hmessage, hdone]
  rfl

/-- A step that ends a CONNECT leaves it to the service, drops the connection or
issues the handle. -/
theorem ends_connect (h : MachineOk machine) (hs : Collects machine s) (hends : Ends machine s m)
    (hm : On machine.runtime c m) (hconnect : (machine.runtime.messages m).type = psaIpcConnect) :
    Outstanding (step machine s).runtime c ∨
      ((step machine s).runtime.connections c).allocated = false ∨
      issuance c (machine.runtime.connections c) ∈ (step machine s).runtime.history := by
  obtain ⟨hallocated, rfl⟩ := hm
  have hcaller := (h.runtime.tables.belongs m hallocated).caller
  cases s with
  | gate ports domain =>
    rw [gate_connectFinish ports domain (hs m hends hconnect) hends, issuance, hcaller]
    exact .inr (ffmConnectFinish_issues machine.runtime m)
  | dispatched =>
    obtain ⟨f, hf, rfl⟩ := hends
    obtain ⟨rest, hstack⟩ := List.head?_eq_some_iff.mp hf
    have hpinned := h.pinned f (by simp [hstack])
    have htype := hpinned.type
    rw [hconnect] at htype
    cases f with
    | connect request =>
      obtain ⟨-, howner, hon⟩ := hpinned.owns
      have hnames := hpinned.names
      simp only [Names, Suspended.request] at howner hon hcaller hnames ⊢
      simp only [step, Machine.dispatched, hstack]
      rw [issuance, hcaller, howner, hon, ← hnames]
      refine (connectReturn_issues machine.runtime request _).imp_left
        fun hleft => ⟨request.message, ?_, ?_⟩
      · rw [On, hleft]
        exact ⟨hallocated, hon⟩
      · rw [hleft]
        exact .inr rfl
    | call => exact absurd htype (show ¬psaIpcCall ≤ psaIpcConnect by decide)
    | close => exact absurd htype (show psaIpcConnect ≠ psaIpcDisconnect by decide)
  | _ => exact hends.elim

end Ends

section Returned

variable {machine : Machine}

/-- Every open connection whose handle was not issued is still waited for. -/
def Returned (runtime : Runtime) : Prop :=
  ∀ c, (runtime.connections c).allocated = true → Outstanding runtime c ∨
    issuance c (runtime.connections c) ∈ runtime.history

theorem step_history (s : Step) (h : MachineOk machine) (hs : Orderly machine s) {e : Event}
    (he : e ∈ machine.runtime.history) : e ∈ (step machine s).runtime.history := by
  have hrun := step_connectionRun s h hs 0
  generalize (step machine s).runtime = after at hrun ⊢
  induction hrun with
  | refl => exact he
  | tail _ hstep ih =>
    obtain ⟨events, hhistory, -⟩ := hstep
    rw [hhistory]
    exact List.mem_append_right _ ih

theorem outstanding_of_pendingConnect {runtime : Runtime} (h : RuntimeOk runtime)
    {c : ConnectionIndex} (hc : (runtime.connections c).allocated = true)
    (hstate : (runtime.connections c).state = .pendingConnect) : Outstanding runtime c := by
  by_cases hon : ∃ m, On runtime c m
  · obtain ⟨m, hm⟩ := hon
    refine ⟨m, hm, .inl ?_⟩
    have hlegal := (h.tables.belongs m hm.1).legal
    rw [hm.2, hstate] at hlegal
    unfold Legal at hlegal
    split_ifs at hlegal <;> simp_all
    split at hlegal <;> cases hlegal
  · have halone := h.tables.alone c hc fun m hm hmc => hon ⟨m, hm, hmc⟩
    simp [Alone, hstate] at halone

theorem step_returned (s : Step) (h : MachineOk machine) (hs : Disciplined machine s)
    (hcollects : Collects machine s) (hreturned : Returned machine.runtime) :
    Returned (step machine s).runtime := by
  intro c hc
  by_cases hbefore : (machine.runtime.connections c).allocated = true
  · obtain ⟨s₀, hs₀⟩ := exists_shows h.runtime c
    let kept : Set MessageIndex := {m | ¬Ends machine s m}
    obtain ⟨s₁, hs₁, hmoves⟩ := @step_session_ends _ _ _ s h hs kept
      (fun m hm hk => hk hm) hbefore hs₀
    rw [hs₁.connection] at hc
    obtain ⟨hsame, -⟩ | ⟨hfree, -⟩ := hmoves.owner
    · have hissuance : issuance c ((step machine s).runtime.connections c) =
          issuance c (machine.runtime.connections c) := by
        rw [hs₁.connection, hs₀.connection, issuance, issuance, hsame.caller,
          hsame.generation, hsame.releases]
      rw [hissuance]
      obtain ⟨m, hm, hunreturned⟩ | hissued := hreturned c hbefore
      · by_cases hends : Ends machine s m
        · have hno := ends_not_abandoned h hends hm.1
          have hconnect := hunreturned.resolve_right (by simp [hno])
          refine (ends_connect h hcollects hends hm hconnect).imp_right
            fun hrest => hrest.resolve_left ?_
          simp [hs₁.connection, hc]
        · have howed : Owed kept s₀ := ⟨m, _, hs₀.eq_of_on hm, hunreturned, hends⟩
          obtain ⟨n, message, hn, hleft, -⟩ :=
            hmoves.preserve (fun _ _ => owed_move) howed hc
          obtain ⟨hon, rfl⟩ := (hs₁.message n message).mp hn
          exact .inl ⟨n, hon, hleft⟩
      · exact .inr (step_history s h hs.2 hissued)
    · rw [hc] at hfree
      cases hfree
  · rw [Bool.not_eq_true] at hbefore
    refine .inl (outstanding_of_pendingConnect (step_ok s h hs).runtime hc ?_)
    refine (step_opened s h hs hbefore).resolve_left ?_
    simp [hc]

theorem run_returned {manifest : SystemManifest} {features : Word}
    {platform : ProfileCapabilities} {runtime : Runtime}
    (hboot : Booted manifest features platform runtime) (memory : Memory) (steps : List Step)
    (hsteps : Along Disciplined (start runtime memory) steps)
    (hcollects : Along Collects (start runtime memory) steps) :
    Returned (run (start runtime memory) steps).runtime := by
  refine (run_induction (I := fun machine => MachineOk machine ∧ Returned machine.runtime)
    (fun machine s h hs => ⟨step_ok s h.1 hs.1, step_returned s h.1 hs.1 hs.2 h.2⟩) steps _
    ⟨run_ok hboot memory [] trivial, fun c hc => ?_⟩
    (along_and hsteps hcollects)).2
  obtain ⟨count, -, -, rfl⟩ := ffmInit_eq_ok hboot.started
  cases hc

end Returned

/-- The connection was opened for the caller and the caller has not restarted
since. -/
def OpenedFor (history : List Event) (caller handle : Int) (c : ConnectionIndex) (a : Nat) : Prop :=
  Event.connectionOpened caller handle c a ∈ history ∧
    Since history (.connectionOpened caller handle c a) (· = .partitionRestarted caller)

/-- What makes a connection handle good: it was issued to the caller for this
allocation of the slot and the caller has not restarted since. -/
def IssuedTo (history : List Event) (caller handle : Int) (c : ConnectionIndex) (a : Nat) : Prop :=
  Event.connectionIssued caller handle c a ∈ history ∧
    Since history (.connectionIssued caller handle c a) (· = .partitionRestarted caller)

section Issued

variable {machine : Machine} {caller handle : Int} {c : ConnectionIndex}
  {a : Nat}

theorem opened_of_issued (h : Accounted machine)
    (hissued : Event.connectionIssued caller handle c a ∈ machine.runtime.history) :
    Event.connectionOpened caller handle c a ∈ machine.runtime.history := by
  obtain ⟨later, earlier, hsplit⟩ := List.append_of_mem hissued
  rw [hsplit]
  exact List.mem_append_right _ (List.mem_cons_of_mem _
    ((h.connection c).issued later earlier caller handle a hsplit))

theorem since_issued (h : Accounted machine) (hsince : Since machine.runtime.history
      (.connectionOpened caller handle c a) (· = .partitionRestarted caller)) :
    Since machine.runtime.history (.connectionIssued caller handle c a)
      (· = .partitionRestarted caller) :=
  hsince.of_precedes fun later earlier =>
    (h.connection c).issued later earlier caller handle a

theorem openedFor_of_accepted (h : Accounted machine)
    (haccept : connectionFromHandle machine.runtime caller handle = .ok c) :
    OpenedFor machine.runtime.history caller handle c (machine.runtime.connections c).releases := by
  have hheld := connection_accepted h haccept
  exact ⟨((h.connection c).opened.granted _ hheld).1, (h.connection c).opened.since _ hheld⟩

theorem issuedTo_of_accepted (h : Accounted machine) (hreturned : Returned machine.runtime)
    (haccept : connectionFromHandle machine.runtime caller handle = .ok c) :
    IssuedTo machine.runtime.history caller handle c (machine.runtime.connections c).releases ∨
      Outstanding machine.runtime c := by
  obtain ⟨hallocated, rfl, rfl⟩ :=
    connectionFromHandle_makeHandle h.ok haccept
  exact (hreturned c hallocated).symm.imp_left fun hissued =>
    ⟨hissued, since_issued h (openedFor_of_accepted h haccept).2⟩

end Issued

/-- In every state a disciplined run reaches, an accepted connection handle is
that of a connection which was opened for the presenter. It was issued to the
presenter as well where every CONNECT is collected as one, unless the CONNECT is
still outstanding. An accepted message handle was delivered to the presenter. A
handle that was issued but is no longer good is refused, whoever presents it,
until its slot has gone through all generations. -/
theorem handle_capabilities {manifest : SystemManifest} {features : Word}
    {platform : ProfileCapabilities} {runtime : Runtime}
    (hboot : Booted manifest features platform runtime) (memory : Memory) (steps : List Step)
    (hsteps : Along Disciplined (start runtime memory) steps) :
    let reached := (run (start runtime memory) steps).runtime
    (∀ caller handle c, connectionFromHandle reached caller handle = .ok c →
      OpenedFor reached.history caller handle c (reached.connections c).releases ∧
      (Along Collects (start runtime memory) steps → IssuedTo reached.history caller handle c
          (reached.connections c).releases ∨ Outstanding reached c)) ∧
    (∀ partition handle m, messageFromHandle reached partition handle = .ok m →
      DeliveredTo reached.history partition handle m (reached.messages m).releases) ∧
    (∀ caller handle c a, Event.connectionIssued caller handle c a ∈ reached.history →
      (reached.connections c).releases - a < 2 ^ 24 - 1 →
      (reached.connections c).releases ≠ a ∨ ¬IssuedTo reached.history caller handle c a →
      ∀ presenter d, connectionFromHandle reached presenter handle ≠ .ok d) ∧
    (∀ partition handle m a, Event.messageDelivered partition handle m a ∈ reached.history →
      (reached.messages m).releases - a < 2 ^ 24 - 1 →
      (reached.messages m).releases ≠ a ∨ ¬DeliveredTo reached.history partition handle m a →
      ∀ presenter n, messageFromHandle reached presenter handle ≠ .ok n) := by
  intro reached
  have h := run_accounted hboot memory steps hsteps
  refine ⟨fun caller handle c haccept => ⟨openedFor_of_accepted h haccept, fun hcollects => ?_⟩,
    fun partition handle m haccept => ?_,
    fun caller handle c a hissued hclose hstale presenter d haccept => ?_,
    fun partition handle m a hdelivered hclose hstale presenter n haccept =>
      ?_⟩
  · exact issuedTo_of_accepted h (run_returned hboot memory steps hsteps hcollects) haccept
  · have hheld := message_accepted h haccept
    exact ⟨((h.message m).granted _ hheld).1, (h.message m).since _ hheld⟩
  · obtain ⟨hcurrent, hsince⟩ :=
      connection_current h (opened_of_issued h hissued) hclose haccept
    exact hstale.elim (fun hne => hne hcurrent) fun hbad => hbad ⟨hissued, since_issued h hsince⟩
  · obtain ⟨hcurrent, hsince⟩ := message_current h hdelivered hclose haccept
    exact hstale.elim (fun hne => hne hcurrent) fun hbad => hbad ⟨hdelivered, hsince⟩

/-- Client -1 connects to service 1, and its handle is issued to it; it closes
again, and the handle is then refused. -/
theorem handle_capabilities_sample : let opening : List Step :=
      [.connect (-1) 200 1, sampleGate (getBlock 3),
       sampleGate (replyBlock 3 193), .dispatched openPorts 0]
    let steps := opening ++
      [.close (-1) 161, sampleGate (getBlock 3),
       sampleGate (replyBlock 3 321), .dispatched openPorts 0]
    let reached := (run sampleMachine steps).runtime
    Along Disciplined sampleMachine steps ∧
      IssuedTo (run sampleMachine opening).runtime.history (-1) 161 0 0 ∧
      Event.connectionIssued (-1) 161 0 0 ∈ reached.history ∧
      connectionFromHandle reached (-1) 161 ≠ .ok 0 := by
  intro opening steps reached
  have hsteps : Along Disciplined sampleMachine steps := by decide +kernel
  have hissued : Event.connectionIssued (-1) 161 0 0 ∈ reached.history := by decide +kernel
  have hopen : IssuedTo (run sampleMachine opening).runtime.history (-1) 161 0
      ((run sampleMachine opening).runtime.connections 0).releases :=
    (((handle_capabilities sampleRuntime_booted sampleMemory opening
      (by decide +kernel)).1 (-1) 161 0 (by decide +kernel)).2
      (by decide +kernel)).resolve_right (by decide +kernel)
  rw [show ((run sampleMachine opening).runtime.connections 0).releases = 0 by
    decide +kernel] at hopen
  exact ⟨hsteps, hopen, hissued, (handle_capabilities sampleRuntime_booted
    sampleMemory steps hsteps).2.2.1 (-1) 161 0 0 hissued (by decide +kernel)
    (.inl (by decide +kernel)) (-1) 0⟩

/-- A message that was released while it was queued at service 1 is allocated
again for service 0, and the queue of service 1 delivers it to partition 3.
Partition 2 presents its handle, which it never got, and is accepted. So is the
handle of a connection whose CONNECT partition 2 has only begun. -/
theorem unissued_handles_accepted :
    let steps := staleRun ++
      [sampleGate (getBlock 3), sampleGate (replyBlock 3 322),
        .dispatched openPorts 0, .call openPorts (-1) 289 0 [] [],
        sampleGate (resumeBlock .close 2 0), .dispatched openPorts 0,
        .connect (-1) 100 1, sampleGate (getBlock 2), .connect (-2) 100 1,
        sampleGate (getBlock 3)]
    let reached := (run sampleMachine steps).runtime
    let begun := step sampleMachine (sampleGate (connectBlock 2 200))
    (Along SparesServed sampleMachine steps ∧ messageFromHandle reached 2 578 = .ok 1 ∧
      Event.messageDelivered 2 578 1 (reached.messages 1).releases ∉ reached.history) ∧
    (Along Disciplined sampleMachine [sampleGate (connectBlock 2 200)] ∧
      connectionFromHandle begun.runtime 2 161 = .ok 0 ∧
      begun.runtime.history = [.connectionOpened 2 161 0 0]) := by
  decide +kernel

end WolfTrust.FfmCapabilities
