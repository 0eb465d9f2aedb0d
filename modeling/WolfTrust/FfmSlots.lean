import WolfTrust.FfmRestartFrame

namespace WolfTrust.FfmSlots

open Domain ByteMemory TableLoops FfmRuntime FfmVectors FfmClient FfmService
  FfmRecovery FfmTables FfmInvariant FfmTransition FfmPreservation
  FfmTermination FfmRestart FfmRestartFrame FfmMachine FfmDiscipline

/-- The message allocation an event is about. -/
def allocationOf : Event → Option (MessageIndex × Nat)
  | .messageDelivered _ _ m a => some (m, a)
  | .messageAnswered m a => some (m, a)
  | .callIssued m a _ _ => some (m, a)
  | .chunkRead m a _ _ => some (m, a)
  | .chunkSkipped m a _ _ => some (m, a)
  | .chunkWritten m a _ _ => some (m, a)
  | .connectionOpened .. | .connectionIssued .. | .partitionRestarted _ => none

def About (m : MessageIndex) (e : Event) : Prop :=
  ∃ a, allocationOf e = some (m, a)

/-- A message slot after its allocation for a request. -/
def placed (message : Message) (caller : Int) (c : ConnectionIndex)
    (s : ServiceIndex) (type : Int) : Message :=
  { message with
    allocated := true, caller, connectionIndex := c, serviceIndex := s, type }

/-- One move of message slot `m`, with the events that are recorded
meanwhile. -/
inductive MessageMove (ok spared : Prop) (layout : Layout) (m : MessageIndex)
    (message : Message) : Message → List Event → Prop
  | kept (events : List Event) (hquiet : ∀ e ∈ events, ¬About m e)
      (hserver : ok → message.active = true → ∀ id, Event.partitionRestarted id ∈ events →
          layout.server message.serviceIndex ≠ id) :
      MessageMove ok spared layout m message message events
  | left :
      MessageMove ok spared layout m message
        { message with abandoned := .close } []
  | callLeft :
      MessageMove ok spared layout m message
        { message with abandoned := .reply, clientOutput := fun _ => 0 } []
  | addressed (caller : Int) (c : ConnectionIndex) (s : ServiceIndex)
      (type : Int) (events : List Event) (hquiet : ∀ e ∈ events, ¬About m e)
      (hfree : message.allocated = false)
      (hidle : ok → message.active = false ∧ message.complete = false) :
      MessageMove ok spared layout m message (placed message caller c s type) events
  | called (ports : PortOps) (caller : Int) (c : ConnectionIndex)
      (s : ServiceIndex) (type : Int) (memory memory' : Memory)
      (inVec outVec : List IoVec) (prepared : Message)
      (hfree : message.allocated = false)
      (hidle : ok → message.active = false ∧ message.complete = false)
      (hprepared : prepareVectors ports (placed message caller c s type) memory
        inVec outVec = .ok (prepared, memory')) :
      MessageMove ok spared layout m message prepared
        [.callIssued m prepared.releases (inVec.map fun v => load memory.bytes v.base v.len) outVec]
  | delivered (actor : Int)
      (hwaits : ok → message.active = false ∧ message.complete = false ∧
        message.generation = generationAfter message.releases ∧
        layout.server message.serviceIndex = actor) :
      MessageMove ok spared layout m message { message with active := true }
        [.messageDelivered actor (makeHandle handleMessage m message.generation) m message.releases]
  | chunk (changed : Message) (event : Event)
      (hallocated : message.allocated = true)
      (hchunk : Chunk m message changed event) :
      MessageMove ok spared layout m message changed [event]
  | answered (status : Int) (events : List Event)
      (hanswered : Event.messageAnswered m message.releases ∈ events)
      (hquiet : ∀ e ∈ events, About m e → e = .messageAnswered m message.releases) :
      MessageMove ok spared layout m message
        { message with
          replyStatus := status, active := false, complete := true } events
  | replaced (caller : Int) (c : ConnectionIndex) (s : ServiceIndex) :
      MessageMove ok spared layout m message
        { placed message.released caller c s psaIpcDisconnect with
          abandoned := .close }
        [.messageAnswered m message.releases]
  | released (events : List Event)
      (hquiet : ∀ e ∈ events, About m e → e = .messageAnswered m message.releases)
      (hrevoked : ok → spared → message.active = true →
        Event.messageAnswered m message.releases ∈ events) :
      MessageMove ok spared layout m message message.released events

def MessageStep (ok spared : Prop) (m : MessageIndex) (before after : Runtime) : Prop :=
  ∃ events, after.history = events ++ before.history ∧ after.layout = before.layout ∧
    MessageMove ok spared before.layout m (before.messages m) (after.messages m) events

section Transition

variable {rings : PartitionIndex → Word → Prop} {fresh guarded : Prop} {kept : Set MessageIndex}
  {actor : Int} {before after : Runtime} {ok spared : Prop} {m n : MessageIndex}
  {events : List Event} {message : Message}

theorem not_about_nil : ∀ e ∈ ([] : List Event), ¬About m e := by
  intro e he
  cases he

theorem RuntimeOk.inactive (h : RuntimeOk before) (hm : (before.messages m).complete = true ∨
      (before.messages m).allocated = false) :
    (before.messages m).active = false := by
  cases hallocated : (before.messages m).allocated with
  | false => exact ((h.tables.message m).free hallocated).1
  | true =>
    have hcomplete : (before.messages m).complete = true := by simpa [hallocated] using hm
    have hlegal := (h.tables.belongs m hallocated).legal
    unfold Legal at hlegal
    rw [if_pos hcomplete] at hlegal
    exact hlegal.1

theorem move_update (habout : ∀ e ∈ events, ∀ a, About a e → a = n)
    (hrestart : ∀ e ∈ events, ∀ id, e ≠ .partitionRestarted id)
    (h : MessageMove ok spared before.layout n (before.messages n) message events) :
    MessageMove ok spared before.layout m (before.messages m)
      (Function.update before.messages n message m) events := by
  by_cases hmn : m = n
  · subst hmn
    rw [Function.update_self]
    exact h
  · rw [Function.update_of_ne hmn]
    refine .kept events (fun e he hm => hmn (habout e he m hm)) ?_
    intro _ _ id hid
    exact absurd rfl (hrestart _ hid id)

theorem about_eq {e : Event} {a : Nat} (he : allocationOf e = some (n, a)) :
    ∀ x ∈ [e], ∀ m, About m x → m = n := by
  rintro x hx m ⟨b, hb⟩
  obtain rfl := List.mem_singleton.mp hx
  rw [he] at hb
  exact (congrArg Prod.fst (Option.some.inj hb)).symm

theorem Chunk.allocation {message changed : Message} {event : Event}
    (h : Chunk m message changed event) : allocationOf event = some (m, message.releases) := by
  cases h <;> rfl

theorem ne_restart {e : Event} {a : Nat} (he : allocationOf e = some (n, a)) :
    ∀ x ∈ [e], ∀ id, x ≠ .partitionRestarted id := by
  rintro x hx id rfl
  rw [← List.mem_singleton.mp hx] at he
  cases he

theorem step_update {e : Event} {a : Nat} (he : allocationOf e = some (n, a))
    (hhistory : after.history = [e] ++ before.history) (hlayout : after.layout = before.layout)
    (hmessages : after.messages = Function.update before.messages n message)
    (h : MessageMove ok spared before.layout n (before.messages n) message [e]) :
    MessageStep ok spared m before after := by
  refine ⟨[e], hhistory, hlayout, ?_⟩
  rw [hmessages]
  exact move_update (about_eq he) (ne_restart he) h

theorem step_quiet
    (hevents : ∀ e ∈ events, allocationOf e = none ∧ ∀ id, e ≠ .partitionRestarted id)
    (hhistory : after.history = events ++ before.history) (hlayout : after.layout = before.layout)
    (hmessages : after.messages = Function.update before.messages n message)
    (h : MessageMove ok spared before.layout n (before.messages n) message events) :
    MessageStep ok spared m before after := by
  refine ⟨events, hhistory, hlayout, ?_⟩
  rw [hmessages]
  refine move_update (fun e he k hk => ?_) (fun e he => (hevents e he).2) h
  obtain ⟨a, ha⟩ := hk
  rw [(hevents e he).1] at ha
  cases ha

theorem step_same (hhistory : after.history = before.history)
    (hlayout : after.layout = before.layout) (hmessages : after.messages = before.messages) :
    MessageStep ok spared m before after := by
  refine ⟨[], hhistory, hlayout, ?_⟩
  rw [hmessages]
  exact .kept [] not_about_nil fun _ _ _ hid => (by cases hid)

theorem quiet_nil : ∀ e ∈ ([] : List Event), allocationOf e = none ∧
    ∀ id, e ≠ .partitionRestarted id := by
  intro e he
  cases he

theorem quiet_gives {c : ConnectionIndex} {fate : Fate}
    (h : Gives guarded before actor c fate events) :
    ∀ e ∈ events, allocationOf e = none ∧ ∀ id, e ≠ .partitionRestarted id := by
  cases h with
  | nothing => exact quiet_nil
  | handle => simp [allocationOf]

theorem move_release (hquiet : ∀ e ∈ events, allocationOf e = none ∧
      ∀ id, e ≠ .partitionRestarted id)
    (hinactive : ok → (before.messages n).active = false) :
    MessageMove ok spared before.layout n (before.messages n)
      (before.messages n).released events := by
  refine .released events ?_ fun hok _ hactive => ?_
  · rintro e he ⟨a, ha⟩
    rw [(hquiet e he).1] at ha
    cases ha
  · rw [hinactive hok] at hactive
    cases hactive

theorem Transition.messageStep (t : Transition rings fresh guarded kept actor before after)
    (hok : ok → RuntimeOk before) : MessageStep ok spared m before after := by
  have hidle {n : MessageIndex} (hn : (before.messages n).allocated = false)
      (h : ok) : (before.messages n).active = false ∧ (before.messages n).complete = false := by
    have hfree := ((hok h).tables.message n).free hn
    exact ⟨hfree.1, hfree.2.1⟩
  cases t with
  | stay | lifecycle | raised | cleared | rejected | reversed => exact step_same rfl rfl rfl
  | opened c n s hactor hs hc hn =>
    refine step_quiet ?_ rfl rfl rfl (.addressed actor c s psaIpcConnect _ ?_ hn (hidle hn))
    · simp [allocationOf]
    · simp [About, allocationOf]
  | refused =>
    unfold refuseConnection
    split
    · exact step_same rfl rfl rfl
    · exact step_same rfl rfl rfl
  | givenBack c n fate hc hcaller hstate hn =>
    exact step_quiet quiet_nil rfl rfl rfl (move_release quiet_nil fun h => (hidle hn h).1)
  | called c n type ports memory memory' inVec outVec prepared hc hcaller
      hstate hfree hn htype hprepared =>
      exact step_update rfl rfl rfl rfl
        (.called ports actor c _ type memory memory' inVec outVec prepared hn (hidle hn) hprepared)
  | closeLeft | left => exact step_quiet quiet_nil rfl rfl rfl .left
  | closeSent c n hc hcaller hstate hnone hfree hn =>
    exact step_quiet quiet_nil rfl rfl rfl
      (.addressed actor c _ psaIpcDisconnect [] not_about_nil hn (hidle hn))
  | delivered s n hs hserver hhead =>
    have hmove : MessageMove ok spared before.layout n (before.messages n)
        { before.messages n with active := true }
        [.messageDelivered actor (makeHandle handleMessage n (before.messages n).generation) n
          (before.messages n).releases] := by
      refine .delivered actor fun h => ?_
      obtain ⟨-, hactive, hcomplete, hservice⟩ :=
        waiting_service ((hok h).queues.waiting_of_head hhead)
      rw [hservice]
      exact ⟨hactive, hcomplete, ((hok h).tables.message n).generation, hserver⟩
    refine step_update rfl ?_ rfl rfl hmove
    simp [deliverMessage, Runtime.record, Runtime.setMessage,
      Runtime.setState, Runtime.setConnection, updateServiceSignal]
  | chunk n message event hserves hchunk =>
    exact step_update (Chunk.allocation hchunk) rfl rfl rfl
      (.chunk message event hserves.allocated hchunk)
  | answered c n status =>
    refine step_update rfl rfl rfl rfl (.answered status _ (by simp) ?_)
    intro e he _
    exact List.mem_singleton.mp he
  | requeued c => exact step_update rfl rfl rfl rfl (.replaced _ c _)
  | retired =>
    refine step_update rfl rfl rfl rfl (.released _ ?_ fun _ _ _ => by simp)
    intro e he _
    exact List.mem_singleton.mp he
  | callLeft => exact step_quiet quiet_nil rfl rfl rfl .callLeft
  | cancelled c n s fate hkept hinactive =>
    exact step_quiet quiet_nil rfl rfl rfl (move_release quiet_nil fun _ => hinactive)
  | harvested c n fate hkept hcomplete howns events hgives =>
    exact step_quiet (quiet_gives hgives) rfl rfl rfl (move_release (quiet_gives hgives) fun h =>
        RuntimeOk.inactive (hok h) (.inl hcomplete))

end Transition

def MessageRun (ok spared : Prop) (m : MessageIndex) : Runtime → Runtime → Prop :=
  Relation.ReflTransGen (MessageStep ok spared m)

section Loops

variable {ok spared : Prop} {m : MessageIndex}

theorem failServedMessage_messageStep (p status : Int) (state : Runtime × Nat) (i : MessageIndex) :
    MessageStep False spared m state.1 (failServedMessage p status state i).1 := by
  by_cases hawaits : Awaits p state.1 i
  · rw [failServedMessage_eq hawaits]
    refine step_update rfl rfl rfl rfl ?_
    have hquiet : ∀ e ∈ [Event.messageAnswered i (state.1.messages i).releases],
        About i e → e = .messageAnswered i (state.1.messages i).releases := by
      intro e he _
      exact List.mem_singleton.mp he
    unfold failedMessage
    split
    · exact .answered status _ (by simp) hquiet
    · exact .released _ hquiet False.elim
  · rw [failServedMessage_skip hawaits]
    exact step_same rfl rfl rfl

theorem drainService_messageStep (p : Int) (runtime : Runtime) (s : ServiceIndex) :
    MessageStep ok spared m runtime (drainService p runtime s) := by
  unfold drainService
  split
  · exact step_same rfl rfl rfl
  · exact step_same rfl rfl rfl

theorem failConnection_messageStep (p : Int) (runtime : Runtime) (c : ConnectionIndex) :
    MessageStep ok spared m runtime (failConnection p runtime c) := by
  unfold failConnection
  simp only
  split
  · exact step_same rfl rfl rfl
  · split
    · exact step_same rfl rfl rfl
    · exact step_same rfl rfl rfl

theorem releaseClientMessage_messageStep (caller : Int) (runtime : Runtime) (i : MessageIndex) :
    MessageStep False spared m runtime (releaseClientMessage caller runtime i) := by
  unfold releaseClientMessage
  simp only
  split
  · exact step_same rfl rfl rfl
  · split
    · exact step_quiet quiet_nil rfl rfl rfl (move_release quiet_nil False.elim)
    · exact step_quiet quiet_nil rfl rfl rfl (move_release quiet_nil False.elim)

theorem releaseClientConnection_messageStep (caller : Int)
    (state : Runtime × Nat) (c : ConnectionIndex) :
    MessageStep ok spared m state.1 (releaseClientConnection caller state c).1 := by
  unfold releaseClientConnection
  simp only
  split
  · exact step_same rfl rfl rfl
  · exact step_same rfl rfl rfl

theorem ffmFailPartitionMessages_messageRun (runtime : Runtime) (p status : Int) :
    MessageRun False spared m runtime (ffmFailPartitionMessages runtime p status).2 := by
  have hfailed : MessageRun False spared m runtime
      ((List.finRange 8).foldl (failServedMessage p status) (runtime, 0)).1 :=
    (foldl_reflTransGen (failServedMessage_messageStep p status)
      (List.finRange 8) (runtime, 0)).lift Prod.fst fun _ _ h => h
  simp only [ffmFailPartitionMessages]
  generalize (List.finRange 8).foldl (failServedMessage p status) (runtime, 0) = failed at hfailed ⊢
  have hdrained : MessageRun False spared m failed.1
      ((List.finRange 20).foldl (drainService p) failed.1) :=
    foldl_reflTransGen (drainService_messageStep p) _ _
  generalize (List.finRange 20).foldl (drainService p) failed.1 = drained at hdrained ⊢
  have hdropped : MessageRun False spared m drained
      ((List.finRange 16).foldl (failConnection p) drained) :=
    foldl_reflTransGen (failConnection_messageStep p) _ _
  exact (hfailed.trans hdrained).trans hdropped

theorem ffmFailClientConnections_messageRun (runtime : Runtime) (caller : Int) :
    MessageRun False spared m runtime (ffmFailClientConnections runtime caller).2 := by
  have hreleased : MessageRun False spared m runtime
      ((List.finRange 8).foldl (releaseClientMessage caller) runtime) :=
    foldl_reflTransGen (releaseClientMessage_messageStep caller) _ _
  simp only [ffmFailClientConnections]
  generalize (List.finRange 8).foldl (releaseClientMessage caller) runtime = released at hreleased ⊢
  exact hreleased.trans ((foldl_reflTransGen (releaseClientConnection_messageStep caller)
      (List.finRange 16) (released, 0)).lift Prod.fst fun _ _ h => h)

theorem ffmPartitionRestarted_messageRun (runtime : Runtime) (id status : Int) :
    MessageRun False spared m runtime (ffmPartitionRestarted runtime id status).2 := by
  unfold ffmPartitionRestarted
  split
  · exact .refl
  · have hfailed : MessageRun False spared m runtime
        (ffmFailPartitionMessages runtime id status).2 :=
      ffmFailPartitionMessages_messageRun runtime id status
    have hreleased : MessageRun False spared m (ffmFailPartitionMessages runtime id status).2
        (ffmFailClientConnections (ffmFailPartitionMessages runtime id status).2 id).2 :=
      ffmFailClientConnections_messageRun _ id
    simp only
    generalize (ffmFailClientConnections
      (ffmFailPartitionMessages runtime id status).2 id).2 = released
      at hreleased ⊢
    refine (hfailed.trans hreleased).tail ⟨[.partitionRestarted id], rfl, rfl, ?_⟩
    refine .kept _ (fun e he habout => ?_) False.elim
    obtain rfl := List.mem_singleton.mp he
    obtain ⟨a, ha⟩ := habout
    cases ha

end Loops

section Recovery

variable {spared : Prop} {m : MessageIndex} {before failed released : Runtime}
  {id status : Int} {contents left : ServiceIndex → List MessageIndex}

theorem ClientGone.messageStep {ok : Prop} (h : ClientGone id before left released)
    (hspared : spared → Sent id (before.messages m) → (before.messages m).active = false) :
    MessageStep ok spared m before released := by
  refine ⟨[], h.history, h.layout, ?_⟩
  rw [h.message m]
  split
  · rename_i hsent
    refine .released [] (fun e he => (by cases he)) fun _ hs hactive => ?_
    rw [hspared hs hsent] at hactive
    cases hactive
  · exact .kept [] not_about_nil fun _ _ _ hid => (by cases hid)

theorem Failed.messageStep {ok : Prop} (h : Failed id status before contents failed) :
    MessageStep ok spared m before failed := by
  obtain ⟨events, hhistory, hevents⟩ := h.events
  have hquiet : ∀ e ∈ events, About m e → e = .messageAnswered m (before.messages m).releases ∧
        Awaits id before m := by
    intro e he habout
    obtain ⟨n, hn, rfl⟩ := (hevents e).mp he
    obtain ⟨a, ha⟩ := habout
    obtain ⟨rfl, -⟩ := Prod.mk.inj (Option.some.inj ha)
    exact ⟨rfl, hn⟩
  refine ⟨events, hhistory, h.layout, ?_⟩
  rw [h.message m]
  split
  · rename_i hawaits
    have hmem : Event.messageAnswered m (before.messages m).releases ∈
        events := (hevents _).mpr ⟨m, hawaits, rfl⟩
    unfold failedMessage
    split
    · exact .answered status events hmem fun e he ha => (hquiet e he ha).1
    · exact .released events (fun e he ha => (hquiet e he ha).1) fun _ _ _ => hmem
  · rename_i hawaits
    refine .kept events (fun e he ha => hawaits (hquiet e he ha).2) ?_
    intro _ _ k hk
    obtain ⟨n, -, hn⟩ := (hevents _).mp hk
    cases hn

theorem RuntimeOk.active (h : RuntimeOk before) (hactive : (before.messages m).active = true) :
    (before.messages m).allocated = true ∧ (before.messages m).complete = false := by
  constructor
  · by_contra hfree
    rw [RuntimeOk.inactive h (.inr (by simpa using hfree))] at hactive
    cases hactive
  · by_contra hcomplete
    rw [RuntimeOk.inactive h (.inl (by simpa using hcomplete))] at hactive
    cases hactive

theorem ffmPartitionRestarted_messageRun_ok {p : PartitionIndex}
    (h : RuntimeOk before) (status : Int)
    (hp : findPartition before id = .ok p)
    (hspared : spared → (before.messages m).active = true → (before.messages m).caller = id →
      before.layout.server (before.messages m).serviceIndex = id) :
    MessageRun True spared m before (ffmPartitionRestarted before id status).2 := by
  obtain ⟨contents, hlists⟩ := lists_of_holds h.queues
  obtain ⟨failed, released, hfailed, hgone, hafter⟩ :=
    ffmPartitionRestarted_restarted h hlists status hp
  have hfirst : MessageStep True spared m before failed := Failed.messageStep hfailed
  have hsecond : MessageStep True spared m failed released := by
    refine ClientGone.messageStep hgone fun hs hsent => ?_
    by_contra hactive
    rw [Bool.not_eq_false] at hactive
    -- An active message that the failure left alone awaits another partition.
    obtain ⟨hallocated, hrequest, hanswered, hkept⟩ := hfailed.allocated hsent.1
    by_cases hawaits : Awaits id before m
    · rw [(hanswered hawaits).2] at hactive
      cases hactive
    · rw [hkept hawaits] at hactive
      refine hawaits ⟨hallocated, (RuntimeOk.active h hactive).2, ?_⟩
      exact hspared hs hactive (hrequest.caller.symm.trans hsent.2)
  refine ((Relation.ReflTransGen.single hfirst).tail hsecond).tail ?_
  rw [hafter]
  refine ⟨[.partitionRestarted id], rfl, rfl, ?_⟩
  refine .kept _ (fun e he habout => ?_) fun _ hactive k hk => ?_
  · obtain rfl := List.mem_singleton.mp he
    obtain ⟨a, ha⟩ := habout
    cases ha
  · obtain ⟨hallocated, hcomplete⟩ :=
      RuntimeOk.active (hgone.ok (hfailed.ok h)) hactive
    obtain rfl := Event.partitionRestarted.inj (List.mem_singleton.mp hk)
    exact (left_message hfailed hgone hallocated).2 hcomplete

end Recovery

/-- No client with an active request is terminated. -/
def SparesActive (machine : Machine) : Step → Prop
  | .partitionRestarted id _ =>
    ∀ m, (machine.runtime.messages m).active = true → (machine.runtime.messages m).caller = id →
      machine.runtime.layout.server (machine.runtime.messages m).serviceIndex = id
  | .failClient caller =>
    ∀ m, (machine.runtime.messages m).active = true → (machine.runtime.messages m).caller ≠ caller
  | _ => True

instance (machine : Machine) (s : Step) : Decidable (SparesActive machine s) :=
  match s with
  | .partitionRestarted id _ =>
    inferInstanceAs (Decidable (∀ m, (machine.runtime.messages m).active = true →
        (machine.runtime.messages m).caller = id →
        machine.runtime.layout.server (machine.runtime.messages m).serviceIndex = id))
  | .failClient caller =>
    inferInstanceAs (Decidable (∀ m, (machine.runtime.messages m).active = true →
        (machine.runtime.messages m).caller ≠ caller))
  | .gate .. | .connect .. | .call .. | .close .. | .dispatched ..
  | .callRefuse .. | .assertSignal .. | .setLifecycle _ | .scribble _ =>
    .isTrue trivial

section Step

variable {machine : Machine} {m : MessageIndex}

/-- Every step moves every message slot; nothing is assumed of the state. -/
theorem step_messageRun (machine : Machine) (s : Step) (m : MessageIndex) :
    MessageRun False False m machine.runtime (step machine s).runtime := by
  by_cases hrecovers : Recovers s
  · cases s with
    | partitionRestarted id status =>
      exact ffmPartitionRestarted_messageRun machine.runtime id status
    | failClient caller => exact ffmFailClientConnections_messageRun machine.runtime caller
    | _ => exact absurd hrecovers not_false
  · have t := @step_transition False machine s False.elim hrecovers
    exact .single (Transition.messageStep t False.elim)

theorem step_messageRun_ok {spared : Prop} (s : Step) (h : MachineOk machine)
    (hs : Orderly machine s) (hspared : spared → SparesActive machine s) (m : MessageIndex) :
    MessageRun True spared m machine.runtime (step machine s).runtime := by
  by_cases hrecovers : Recovers s
  · cases s with
    | partitionRestarted id status =>
      cases hp : findPartition machine.runtime id with
      | error =>
        simp only [step, ffmPartitionRestarted, hp]
        exact .refl
      | ok => exact ffmPartitionRestarted_messageRun_ok h.runtime status hp fun hsp => hspared hsp m
    | failClient caller =>
      obtain ⟨contents, hlists⟩ := lists_of_holds h.runtime.queues
      refine .single (ClientGone.messageStep (ffmFailClientConnections_gone h.runtime hlists caller)
        fun hsp hsent => ?_)
      by_contra hactive
      exact hspared hsp m (by simpa using hactive) hsent.2
    | _ => exact absurd hrecovers not_false
  · have t := @step_transition True machine s (fun _ => ⟨h, hs⟩) hrecovers
    exact .single (Transition.messageStep t fun _ => h.runtime)

end Step

end WolfTrust.FfmSlots
