import WolfTrust.FfmDiscipline

namespace WolfTrust.FfmAdmission

open Domain Manifest ByteMemory TableLoops FfmRuntime FfmVectors FfmClient
  FfmRecovery FfmMachine FfmTransition FfmDiscipline FfmLayout

def ffmSecureReservedConnections : Nat := 4

/-! ### What an operation leaves of the owners -/

/-- A connection slot keeps its owner or is cleared. -/
inductive Narrowed (old new : Connection) : Prop
  | kept (allocated : new.allocated = old.allocated)
      (caller : new.caller = old.caller)
      (service : new.serviceIndex = old.serviceIndex)
  | cleared (allocated : new.allocated = false) (caller : new.caller = 0)

/-- An allocated message is an old one or speaks for a connection. -/
def Traced (connections : ConnectionIndex → Connection) (old new : Message) : Prop :=
  new.allocated = true → (old.allocated = true ∧ new.caller = old.caller ∧
      new.serviceIndex = old.serviceIndex) ∨
    ∃ c, new.caller = (connections c).caller ∧ new.serviceIndex = (connections c).serviceIndex

structure Narrows (before after : Runtime) : Prop where
  layout : after.layout = before.layout
  connection : ∀ c, Narrowed (before.connections c) (after.connections c)
  message : ∀ m, Traced before.connections (before.messages m) (after.messages m)

theorem Narrowed.refl (connection : Connection) : Narrowed connection connection :=
  .kept rfl rfl rfl

theorem Narrowed.fate (fate : Fate) {old new : Connection}
    (h : Narrowed old new) : Narrowed old (fate.apply new) := by
  cases fate with
  | kept => exact h
  | failed =>
    cases h with
    | kept hallocated hcaller hservice => exact .kept hallocated hcaller hservice
    | cleared hallocated hcaller => exact .cleared hallocated hcaller
  | freed => exact .cleared rfl rfl

theorem Traced.refl (connections : ConnectionIndex → Connection)
    (message : Message) : Traced connections message message :=
  fun h => .inl ⟨h, rfl, rfl⟩

theorem Traced.of_free {connections : ConnectionIndex → Connection} {old new : Message}
    (h : new.allocated = false) : Traced connections old new := by
  intro hallocated
  rw [h] at hallocated
  cases hallocated

section Narrows

variable {before after : Runtime}

theorem Narrows.of_eq (hlayout : after.layout = before.layout)
    (hconnections : after.connections = before.connections)
    (hmessages : after.messages = before.messages) : Narrows before after := by
  refine ⟨hlayout, fun c => ?_, fun m => ?_⟩
  · rw [hconnections]
    exact .refl _
  · rw [hmessages]
    exact .refl _ _

theorem Narrows.pair {c : ConnectionIndex} {connection : Connection} {m : MessageIndex}
    {message : Message} (hlayout : after.layout = before.layout)
    (hconnections : after.connections = Function.update before.connections c connection)
    (hmessages : after.messages = Function.update before.messages m message)
    (hc : Narrowed (before.connections c) connection)
    (hm : Traced before.connections (before.messages m) message) : Narrows before after := by
  refine ⟨hlayout, fun d => ?_, fun n => ?_⟩
  · rw [hconnections]
    rcases eq_or_ne d c with rfl | hd
    · rwa [Function.update_self]
    · rw [Function.update_of_ne hd]
      exact .refl _
  · rw [hmessages]
    rcases eq_or_ne n m with rfl | hn
    · rwa [Function.update_self]
    · rw [Function.update_of_ne hn]
      exact .refl _ _

theorem Narrows.setConnection (c : ConnectionIndex) {change : Connection → Connection}
    (hc : Narrowed (before.connections c) (change (before.connections c))) :
    Narrows before (before.setConnection c change) := by
  refine .pair rfl rfl (Function.update_eq_self 0 _).symm hc (.refl _ _)

theorem Narrows.setMessage (m : MessageIndex) {change : Message → Message}
    (hm : Traced before.connections (before.messages m) (change (before.messages m))) :
    Narrows before (before.setMessage m change) := by
  refine .pair rfl (Function.update_eq_self 0 _).symm rfl (.refl _) hm

end Narrows

variable {runtime : Runtime} {actor : Int}

theorem transition_narrows {rings : PartitionIndex → Word → Prop} {fresh guarded : Prop}
    {kept : Set MessageIndex} {before after : Runtime}
    (h : Transition rings fresh guarded kept actor before after) :
    Narrows before after ∨ ∃ c m s, Admits before actor s ∧
        (before.connections c).allocated = false ∧
        after.layout = before.layout ∧
        after.connections = Function.update before.connections c
          (openedConnection before actor s c) ∧
        after.messages = Function.update before.messages m
          (addressed before actor c s m psaIpcConnect) := by
  cases h with
  | opened c m s hactor hs hc hm hadmits => exact .inr ⟨c, m, s, hadmits, hc, rfl, rfl, rfl⟩
  | stay | lifecycle | raised | cleared => exact .inl (.of_eq rfl rfl rfl)
  | rejected c => exact .inl (.setConnection c (.cleared rfl rfl))
  | refused c =>
    unfold refuseConnection
    split
    · exact .inl (.setConnection c (.kept rfl rfl rfl))
    · exact .inl (.setConnection c (.kept rfl rfl rfl))
  | givenBack c m fate => exact .inl (.pair rfl rfl rfl (.fate fate (.refl _)) (.of_free rfl))
  | called c m type ports memory memory' inVec outVec prepared hc hcaller
      hidle hfree hm htype hprepared =>
      have hheader := prepareVectors_header hprepared
      refine .inl (.pair rfl rfl rfl (.kept rfl rfl rfl) fun _ =>
        .inr ⟨c, ?_, ?_⟩)
      · exact hheader.caller.trans hcaller.symm
      · exact hheader.serviceIndex
  | closeLeft | delivered | answered | callLeft =>
    exact .inl (.pair rfl rfl rfl (.kept rfl rfl rfl) fun h => .inl ⟨h, rfl, rfl⟩)
  | closeSent c m hc hcaller =>
    exact .inl (.pair rfl rfl rfl (.kept rfl rfl rfl) fun _ => .inr ⟨c, hcaller.symm, rfl⟩)
  | reversed => exact .inl (.setConnection _ (.kept rfl rfl rfl))
  | chunk m message event hserves hchunk =>
    have hheader := hchunk.header
    refine .inl (.pair rfl (Function.update_eq_self 0 _).symm rfl (.refl _)
      fun _ => .inl ⟨hserves.allocated, ?_, ?_⟩)
    · exact hheader.caller
    · exact hheader.serviceIndex
  | requeued c => exact .inl (.pair rfl rfl rfl (.kept rfl rfl rfl) fun _ => .inr ⟨c, rfl, rfl⟩)
  | retired c m status state fate =>
    exact .inl (.pair rfl rfl rfl (.fate fate (.kept rfl rfl rfl)) (.of_free rfl))
  | left c m => exact .inl (.setMessage m fun h => .inl ⟨h, rfl, rfl⟩)
  | cancelled c m s fate => exact .inl (.pair rfl rfl rfl (.fate fate (.refl _)) (.of_free rfl))
  | harvested c m fate => exact .inl (.pair rfl rfl rfl (.fate fate (.refl _)) (.of_free rfl))

/-! ### The recovery loops -/

theorem Narrows.releaseMessage {before after : Runtime} (h : Narrows before after)
    (m : MessageIndex) : Narrows before (releaseMessage after m) := by
  refine ⟨h.layout, h.connection, fun n => ?_⟩
  change Traced _ _ (Function.update after.messages m _ n)
  rcases eq_or_ne n m with rfl | hn
  · rw [Function.update_self]
    exact .of_free rfl
  · rw [Function.update_of_ne hn]
    exact h.message n

theorem Narrows.releaseConnection {before after : Runtime} (h : Narrows before after)
    (c : ConnectionIndex) : Narrows before (releaseConnection after c) := by
  refine ⟨h.layout, fun d => ?_, h.message⟩
  change Narrowed _ (Function.update after.connections c _ d)
  rcases eq_or_ne d c with rfl | hd
  · rw [Function.update_self]
    exact .cleared rfl rfl
  · rw [Function.update_of_ne hd]
    exact h.connection d

theorem failServedMessage_narrows (id status : Int) (state : Runtime × Nat) (i : MessageIndex) :
    Narrows state.1 (failServedMessage id status state i).1 := by
  unfold failServedMessage
  dsimp only
  split
  · exact .of_eq rfl rfl rfl
  split
  · exact .of_eq rfl rfl rfl
  dsimp only
  have hcompleted : Narrows state.1 (((state.1.setMessage i fun message =>
        { message with
          replyStatus := status, active := false
          complete := true }).setState (state.1.messages i).connectionIndex
            .error).record (.messageAnswered i (state.1.messages i).releases)) :=
    .pair rfl rfl rfl (.kept rfl rfl rfl) fun h => .inl ⟨h, rfl, rfl⟩
  split
  · exact hcompleted
  apply Narrows.releaseMessage
  split
  · exact hcompleted.releaseConnection _
  · exact hcompleted

theorem drainService_narrows (id : Int) (runtime : Runtime)
    (s : ServiceIndex) : Narrows runtime (drainService id runtime s) := by
  unfold drainService
  split <;> exact .of_eq rfl rfl rfl

theorem failConnection_narrows (id : Int) (runtime : Runtime)
    (c : ConnectionIndex) : Narrows runtime (failConnection id runtime c) := by
  unfold failConnection
  dsimp only
  split
  · exact .of_eq rfl rfl rfl
  split
  · exact .of_eq rfl rfl rfl
  · exact .setConnection c (.kept rfl rfl rfl)

theorem releaseClientMessage_narrows (caller : Int) (runtime : Runtime) (m : MessageIndex) :
    Narrows runtime (releaseClientMessage caller runtime m) := by
  unfold releaseClientMessage
  dsimp only
  split
  · exact .of_eq rfl rfl rfl
  apply Narrows.releaseMessage
  split <;> exact .of_eq rfl rfl rfl

theorem releaseClientConnection_narrows (caller : Int) (state : Runtime × Nat)
    (c : ConnectionIndex) : Narrows state.1 (releaseClientConnection caller state c).1 := by
  unfold releaseClientConnection
  dsimp only
  split
  · exact .of_eq rfl rfl rfl
  · exact .setConnection c (.cleared rfl rfl)

/-! ### The invariant -/

/-- Every allocated connection has a caller its service admits, every message
speaks for such a caller or for nobody, and the quotas are kept. -/
structure Accounted (runtime : Runtime) : Prop where
  connection : ∀ c, (runtime.connections c).allocated = true →
    callerAllowed runtime (runtime.connections c).caller (runtime.connections c).serviceIndex = true
  free : ∀ c, (runtime.connections c).allocated = false → (runtime.connections c).caller = 0
  message : ∀ m, (runtime.messages m).allocated = true → (runtime.messages m).caller = 0 ∨
      callerAllowed runtime (runtime.messages m).caller (runtime.messages m).serviceIndex = true
  client : ∀ caller, clientConnectionCount runtime caller ≤ ffmMaxConnectionsPerClient
  nonsecure : nsConnectionCount runtime ≤ ffmMaxNsConnections

theorem callerAllowed_congr {before after : Runtime}
    (h : after.layout = before.layout) (caller : Int) (s : ServiceIndex) :
    callerAllowed after caller s = callerAllowed before caller s := by
  unfold callerAllowed
  rw [h]

theorem Accounted.speaks (h : Accounted runtime) (c : ConnectionIndex) :
    (runtime.connections c).caller = 0 ∨ callerAllowed runtime (runtime.connections c).caller
        (runtime.connections c).serviceIndex = true := by
  cases hc : (runtime.connections c).allocated with
  | false => exact .inl (h.free c hc)
  | true => exact .inr (h.connection c hc)

theorem Narrowed.owner {old new : Connection} (h : Narrowed old new) (hnew : new.allocated = true) :
    old.allocated = true ∧ new.caller = old.caller ∧ new.serviceIndex = old.serviceIndex := by
  cases h with
  | kept hallocated hcaller hservice => exact ⟨hallocated ▸ hnew, hcaller, hservice⟩
  | cleared hallocated =>
    rw [hallocated] at hnew
    cases hnew

theorem Accounted.narrows {before after : Runtime} (h : Accounted before)
    (hnarrows : Narrows before after) : Accounted after := by
  have hallowed := callerAllowed_congr hnarrows.layout
  refine ⟨fun c hc => ?_, fun c hc => ?_, fun m hm => ?_, fun caller => ?_, ?_⟩
  · obtain ⟨hold, hcaller, hservice⟩ := (hnarrows.connection c).owner hc
    rw [hallowed, hcaller, hservice]
    exact h.connection c hold
  · cases hnarrows.connection c with
    | kept hallocated hcaller =>
      rw [hcaller]
      exact h.free c (hallocated.symm.trans hc)
    | cleared hallocated hcaller => exact hcaller
  · rcases hnarrows.message m hm with ⟨hold, hcaller, hservice⟩ | ⟨c, hcaller, hservice⟩
    · rw [hallowed, hcaller, hservice]
      exact h.message m hold
    · rw [hallowed, hcaller, hservice]
      exact h.speaks c
  · refine (List.countP_mono_left fun c _ hc => ?_).trans (h.client caller)
    simp only [Bool.and_eq_true, beq_iff_eq] at hc ⊢
    obtain ⟨hold, hcaller, -⟩ := (hnarrows.connection c).owner hc.1
    exact ⟨hold, hcaller ▸ hc.2⟩
  · refine (List.countP_mono_left fun c _ hc => ?_).trans h.nonsecure
    simp only [Bool.and_eq_true, decide_eq_true_eq] at hc ⊢
    obtain ⟨hold, hcaller, -⟩ := (hnarrows.connection c).owner hc.1
    exact ⟨hold, hcaller ▸ hc.2⟩

theorem Accounted.opened {before after : Runtime} (h : Accounted before)
    {c : ConnectionIndex} {m : MessageIndex} {s : ServiceIndex}
    (hadmits : Admits before actor s)
    (hlayout : after.layout = before.layout)
    (hconnections : after.connections = Function.update before.connections c
      (openedConnection before actor s c))
    (hmessages : after.messages = Function.update before.messages m
      (addressed before actor c s m psaIpcConnect)) : Accounted after := by
  have hallowed := callerAllowed_congr hlayout
  have hself : after.connections c = openedConnection before actor s c := by
    rw [hconnections, Function.update_self]
  have hother (d : ConnectionIndex) (hd : d ≠ c) : after.connections d = before.connections d := by
    rw [hconnections, Function.update_of_ne hd]
  refine ⟨fun d hd => ?_, fun d hd => ?_, fun n hn => ?_, fun caller => ?_, ?_⟩
  · rw [hallowed]
    rcases eq_or_ne d c with rfl | hdc
    · rw [hself]
      exact hadmits.allowed
    · rw [hother d hdc] at hd ⊢
      exact h.connection d hd
  · rcases eq_or_ne d c with rfl | hdc
    · rw [hself] at hd
      cases hd
    · rw [hother d hdc] at hd ⊢
      exact h.free d hd
  · rw [hallowed]
    rw [hmessages] at hn ⊢
    rcases eq_or_ne n m with rfl | hnm
    · rw [Function.update_self]
      exact .inr hadmits.allowed
    · rw [Function.update_of_ne hnm] at hn ⊢
      exact h.message n hn
  · -- Only the count of the new connection's caller grows.
    rcases eq_or_ne caller actor with rfl | hcaller
    · refine (countP_le_succ (List.nodup_finRange 16) c fun d _ hd hp => ?_).trans hadmits.client
      rwa [hother d hd] at hp
    · refine (List.countP_mono_left fun d _ hp => ?_).trans (h.client caller)
      rcases eq_or_ne d c with rfl | hd
      · simp only [hself, openedConnection, Bool.true_and, beq_iff_eq] at hp
        exact absurd hp.symm hcaller
      · rwa [hother d hd] at hp
  · by_cases hns : actor < 0
    · refine (countP_le_succ (List.nodup_finRange 16) c fun d _ hd hp => ?_).trans
        (hadmits.nonsecure hns)
      rwa [hother d hd] at hp
    · refine (List.countP_mono_left fun d _ hp => ?_).trans h.nonsecure
      rcases eq_or_ne d c with rfl | hd
      · simp only [hself, openedConnection, Bool.true_and, decide_eq_true_eq] at hp
        exact absurd hp hns
      · rwa [hother d hd] at hp

/-! ### Every run -/

def Kept (layout : Layout) (runtime : Runtime) : Prop :=
  runtime.layout = layout ∧ Accounted runtime

section Kept

variable {layout : Layout} {before after : Runtime}

theorem Kept.narrows (h : Kept layout before) (hnarrows : Narrows before after) :
    Kept layout after :=
  ⟨hnarrows.layout.trans h.1, h.2.narrows hnarrows⟩

theorem Kept.loop {α : Type*} {body : Runtime → α → Runtime}
    (hbody : ∀ runtime i, Narrows runtime (body runtime i)) (h : Kept layout before)
    (slots : List α) : Kept layout (slots.foldl body before) :=
  List.foldlRecOn slots body h fun runtime hkept i _ =>
    hkept.narrows (hbody runtime i)

theorem Kept.loop_counted {α : Type*} {body : Runtime × Nat → α → Runtime × Nat}
    (hbody : ∀ state i, Narrows state.1 (body state i).1) {state : Runtime × Nat}
    (h : Kept layout state.1) (slots : List α) : Kept layout (slots.foldl body state).1 :=
  List.foldlRecOn (motive := fun state => Kept layout state.1) slots body h
    fun state hkept i _ => hkept.narrows (hbody state i)

theorem Kept.failClient (h : Kept layout before) (caller : Int) :
    Kept layout (ffmFailClientConnections before caller).2 := by
  have hreleased := h.loop (releaseClientMessage_narrows caller) (List.finRange 8)
  exact Kept.loop_counted (releaseClientConnection_narrows caller) hreleased (List.finRange 16)

theorem Kept.failPartition (h : Kept layout before) (id status : Int) :
    Kept layout (ffmFailPartitionMessages before id status).2 := by
  have hfailed : Kept layout ((List.finRange 8).foldl
      (failServedMessage id status) (before, 0)).1 :=
    Kept.loop_counted (failServedMessage_narrows id status) h (List.finRange 8)
  unfold ffmFailPartitionMessages
  dsimp only
  apply Kept.loop (failConnection_narrows id)
  apply Kept.loop (drainService_narrows id)
  exact hfailed

theorem Kept.partitionRestarted (h : Kept layout before) (id status : Int) :
    Kept layout (ffmPartitionRestarted before id status).2 := by
  unfold ffmPartitionRestarted
  split
  · exact h
  have hreleased := (h.failPartition id status).failClient id
  simp only
  generalize (ffmFailClientConnections
    (ffmFailPartitionMessages before id status).2 id).2 = released
    at hreleased ⊢
  exact hreleased.narrows (.of_eq rfl rfl rfl)

theorem Kept.transition {rings : PartitionIndex → Word → Prop} {fresh guarded : Prop}
    {kept : Set MessageIndex} (h : Kept layout before)
    (ht : Transition rings fresh guarded kept actor before after) : Kept layout after := by
  rcases transition_narrows ht with hnarrows |
    ⟨c, m, s, hadmits, -, hlayout, hconnections, hmessages⟩
  · exact h.narrows hnarrows
  · exact ⟨hlayout.trans h.1, h.2.opened hadmits hlayout hconnections hmessages⟩

end Kept

theorem step_kept {layout : Layout} {machine : Machine} (s : Step)
    (h : Kept layout machine.runtime) : Kept layout (step machine s).runtime := by
  by_cases hs : Recovers s
  · cases s with
    | partitionRestarted id status => exact h.partitionRestarted id status
    | failClient caller => exact h.failClient caller
    | _ => exact absurd hs id
  · exact h.transition (step_transition (G := False) s False.elim hs)

theorem run_kept {layout : Layout} (steps : List Step) {machine : Machine}
    (h : Kept layout machine.runtime) : Kept layout (run machine steps).runtime :=
  List.foldlRecOn (motive := fun machine => Kept layout machine.runtime) steps
    step h fun _ hkept s _ => step_kept s hkept

theorem kept_of_booted {manifest : SystemManifest} {features : Word}
    {platform : ProfileCapabilities}
    (h : Booted manifest features platform runtime) : Kept runtime.layout runtime := by
  obtain ⟨count, -, -, rfl⟩ := ffmInit_eq_ok h.started
  refine ⟨rfl, fun c hc => ?_, fun c _ => rfl, fun m hm => ?_, fun caller => ?_, ?_⟩
  · cases hc
  · cases hm
  · simp [clientConnectionCount, clearedConnection]
  · simp [nsConnectionCount, clearedConnection]

/-! ### The quotas -/

/-- The slots that are free or belong to a Secure Partition. -/
def secureConnectionCount (runtime : Runtime) : Nat :=
  (List.finRange 16).countP fun c =>
    !(runtime.connections c).allocated ||
      (findPartition runtime (runtime.connections c).caller).isOk

theorem findPartition_of_allowed {caller : Int}
    {s : ServiceIndex} (h : callerAllowed runtime caller s = true)
    (hsecure : ¬caller < 0) : (findPartition runtime caller).isOk = true := by
  unfold callerAllowed at h
  split at h
  · cases h
  rename_i hvalid
  have hpositive : ¬caller ≤ 0 := by
    push Not at hvalid
    omega
  unfold findPartition
  rw [if_neg hpositive]
  split at h
  · cases h
  · rename_i i hi
    rw [hi]
    rfl

theorem Accounted.reserved (h : Accounted runtime) :
    ffmSecureReservedConnections ≤ secureConnectionCount runtime := by
  have hsplit := List.length_eq_countP_add_countP (fun c => (runtime.connections c).allocated &&
      decide ((runtime.connections c).caller < 0)) (l := List.finRange 16)
  have hrest : (List.finRange 16).countP (fun c =>
      !((runtime.connections c).allocated &&
        decide ((runtime.connections c).caller < 0))) ≤
      secureConnectionCount runtime := by
    refine List.countP_mono_left fun c _ hc => ?_
    cases hallocated : (runtime.connections c).allocated with
    | false => simp
    | true =>
      have hsecure : ¬(runtime.connections c).caller < 0 := by simpa [hallocated] using hc
      simp [findPartition_of_allowed (h.connection c hallocated) hsecure]
  have hnonsecure := h.nonsecure
  simp only [List.length_finRange, Bool.not_eq_true, Bool.decide_eq_false] at hsplit
  simp only [nsConnectionCount, ffmMaxNsConnections, ffmSecureReservedConnections] at hnonsecure ⊢
  omega

/-- In every state of every run the quotas are kept, and the reserved slots are
left to the Secure Partitions. -/
theorem connection_quotas {manifest : SystemManifest} {features : Word}
    {platform : ProfileCapabilities} {runtime : Runtime}
    (hboot : Booted manifest features platform runtime) (memory : Memory) (steps : List Step) :
    (∀ caller, clientConnectionCount (run (start runtime memory) steps).runtime
      caller ≤ ffmMaxConnectionsPerClient) ∧
    nsConnectionCount (run (start runtime memory) steps).runtime ≤ ffmMaxNsConnections ∧
    ffmSecureReservedConnections ≤
      secureConnectionCount (run (start runtime memory) steps).runtime := by
  have hkept : Kept runtime.layout (run (start runtime memory) steps).runtime :=
    run_kept steps (kept_of_booted hboot)
  exact ⟨hkept.2.client, hkept.2.nonsecure, hkept.2.reserved⟩

/-- Client -1 asks for nine connections and gets eight. -/
theorem connection_quotas_sample : clientConnectionCount (run (start sampleRuntime sampleMemory)
      (List.replicate 9 (.connect (-1) 200 1))).runtime (-1) = 8 ∧
    ffmSecureReservedConnections ≤ secureConnectionCount (run (start sampleRuntime sampleMemory)
        (List.replicate 9 (.connect (-1) 200 1))).runtime :=
  ⟨by decide +kernel, (connection_quotas sampleRuntime_booted sampleMemory
      (List.replicate 9 (.connect (-1) 200 1))).2.2⟩

end WolfTrust.FfmAdmission
