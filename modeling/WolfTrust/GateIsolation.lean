import WolfTrust.FfmDiscipline

namespace WolfTrust.GateIsolation

open Domain Manifest ByteMemory FfmRuntime FfmClient SpmGate FfmMachine
  FfmInvariant FfmTransition GateOperations FfmPreservation FfmLayout
  FfmDiscipline

/-- A slot `actor` may write: it is free, or its client or its server. -/
def Reaches (layout : Layout) (actor : Int) (allocated : Bool) (caller : Int)
    (s : ServiceIndex) : Prop :=
  allocated = false ∨ caller = actor ∨ layout.server s = actor

def ReachesMessage (runtime : Runtime) (actor : Int) (m : MessageIndex) : Prop :=
  Reaches runtime.layout actor (runtime.messages m).allocated
    (runtime.messages m).caller (runtime.messages m).serviceIndex

def ReachesConnection (runtime : Runtime) (actor : Int) (c : ConnectionIndex) : Prop :=
  Reaches runtime.layout actor (runtime.connections c).allocated
    (runtime.connections c).caller (runtime.connections c).serviceIndex

/-- Only slots that `actor` may write have changed. -/
structure Confined (before : Runtime) (actor : Int) (after : Runtime) :
    Prop where
  message : ∀ m, after.messages m ≠ before.messages m → ReachesMessage before actor m
  connection : ∀ c, after.connections c ≠ before.connections c → ReachesConnection before actor c

section Confined

variable {rings : PartitionIndex → Word → Prop} {fresh : Prop}
  {kept : Set MessageIndex} {actor : Int} {before after : Runtime}
  {m : MessageIndex} {c : ConnectionIndex}

theorem message_update {message : Message} (h : ReachesMessage before actor m) (n : MessageIndex)
    (hn : Function.update before.messages m message n ≠ before.messages n) :
    ReachesMessage before actor n := by
  by_cases hnm : n = m
  · rw [hnm]
    exact h
  · exact absurd (Function.update_of_ne hnm _ _) hn

theorem connection_update {connection : Connection}
    (h : ReachesConnection before actor c) (d : ConnectionIndex)
    (hd : Function.update before.connections c connection d ≠ before.connections d) :
    ReachesConnection before actor d := by
  by_cases hdc : d = c
  · rw [hdc]
    exact h
  · exact absurd (Function.update_of_ne hdc _ _) hd

theorem reaches_connection (h : RuntimeOk before) (hm : (before.messages m).allocated = true)
    (hreach : ReachesMessage before actor m) (hon : (before.messages m).connectionIndex = c) :
    ReachesConnection before actor c := by
  have hbelongs := h.tables.belongs m hm
  rw [hon] at hbelongs
  rcases hreach with hfree | hcaller | hserver
  · rw [hm] at hfree
    cases hfree
  · exact .inr (.inl (hbelongs.caller.trans hcaller))
  · refine .inr (.inr ?_)
    rw [hbelongs.service]
    exact hserver

theorem Serves.confined (h : RuntimeOk before) (hserves : Serves before actor m)
    (hon : (before.messages m).connectionIndex = c) :
    ReachesMessage before actor m ∧ ReachesConnection before actor c :=
  ⟨.inr (.inr hserves.server),
    reaches_connection h hserves.allocated (.inr (.inr hserves.server)) hon⟩

theorem Owns.confined (h : RuntimeOk before) (howns : Owns before actor c m) :
    ReachesMessage before actor m ∧ ReachesConnection before actor c :=
  ⟨.inr (.inl howns.caller), reaches_connection h howns.allocated (.inr (.inl howns.caller))
      howns.connection⟩

theorem Transition.confined (t : Transition rings fresh True kept actor before after)
    (h : RuntimeOk before) : Confined before actor after := by
  have hsame {m : MessageIndex} (hne : before.messages m ≠ before.messages m) :
      ReachesMessage before actor m := absurd rfl hne
  have hkeep {c : ConnectionIndex} (hne : before.connections c ≠ before.connections c) :
      ReachesConnection before actor c := absurd rfl hne
  cases t with
  | stay | lifecycle | raised | cleared => exact ⟨fun _ => hsame, fun _ => hkeep⟩
  | rejected c hc => exact ⟨fun _ => hsame, connection_update (.inl hc)⟩
  | opened c m s hactor hs hc hm => exact ⟨message_update (.inl hm), connection_update (.inl hc)⟩
  | refused c hc hcaller =>
    unfold refuseConnection
    split
    all_goals exact ⟨fun _ => hsame, connection_update (.inr (.inl hcaller))⟩
  | givenBack c m fate hc hcaller hidle hm =>
    exact ⟨message_update (.inl hm), connection_update (.inr (.inl hcaller))⟩
  | called c m type ports memory memory' inVec outVec prepared hc hcaller hidle hfree hm =>
    exact ⟨message_update (.inl hm), connection_update (.inr (.inl hcaller))⟩
  | closeLeft c m hc hcaller hstate hm habandoned hon =>
    have hbelongs := h.tables.belongs m hm
    rw [hon] at hbelongs
    exact ⟨message_update (.inr (.inl (hbelongs.caller.symm.trans hcaller))),
      connection_update (.inr (.inl hcaller))⟩
  | closeSent c m hc hcaller hstate hnone hfree hm =>
    exact ⟨message_update (.inl hm), connection_update (.inr (.inl hcaller))⟩
  | delivered s m hs hserver hhead =>
    obtain ⟨hm, -, -, hservice⟩ :=
      waiting_service (h.queues.waiting_of_head hhead)
    have hreach : ReachesMessage before actor m := by
      refine .inr (.inr ?_)
      rw [hservice]
      exact hserver
    rw [deliverMessage_eq hservice rfl]
    exact ⟨message_update hreach, connection_update (reaches_connection h hm hreach rfl)⟩
  | reversed m rhandle hserves =>
    exact ⟨fun _ => hsame, connection_update (Serves.confined h hserves rfl).2⟩
  | chunk m message event hserves =>
    exact ⟨message_update (Serves.confined h hserves rfl).1, fun _ => hkeep⟩
  | left c m hkept hactive howns =>
    exact ⟨message_update (Owns.confined h (howns trivial).1).1, fun _ => hkeep⟩
  | callLeft c m hkept hactive howns =>
    obtain ⟨hm, hc⟩ := Owns.confined h (howns trivial).1
    exact ⟨message_update hm, connection_update hc⟩
  | cancelled c m s fate hkept hinactive howns =>
    obtain ⟨hm, hc⟩ := Owns.confined h (howns trivial).1
    exact ⟨message_update hm, connection_update hc⟩
  | harvested c m fate hkept hcomplete howns =>
    obtain ⟨hm, hc⟩ := Owns.confined h (howns trivial)
    exact ⟨message_update hm, connection_update hc⟩
  | answered | requeued | retired =>
    obtain ⟨hm, hc⟩ := Serves.confined h ‹_› ‹_›
    exact ⟨message_update hm, connection_update hc⟩

theorem Confined.message_eq (h : Confined before actor after)
    (hm : (before.messages m).allocated = true) (hcaller : (before.messages m).caller ≠ actor)
    (hserver : before.layout.server (before.messages m).serviceIndex ≠ actor) :
    after.messages m = before.messages m := by
  by_contra hne
  rcases h.message m hne with hfree | hmine | hserves
  · rw [hm] at hfree
    cases hfree
  · exact hcaller hmine
  · exact hserver hserves

theorem Confined.connection_eq (h : Confined before actor after)
    (hc : (before.connections c).allocated = true)
    (hcaller : (before.connections c).caller ≠ actor)
    (hserver : before.layout.server (before.connections c).serviceIndex ≠ actor) :
    after.connections c = before.connections c := by
  by_contra hne
  rcases h.connection c hne with hfree | hmine | hserves
  · rw [hc] at hfree
    cases hfree
  · exact hcaller hmine
  · exact hserver hserves

end Confined

/-- In every state a disciplined run reaches, a call of a partition through the
gate, with any block, leaves alone what other clients have with other
servers. -/
theorem gate_keeps_foreign {manifest : SystemManifest} {features : Word}
    {platform : ProfileCapabilities} {runtime : Runtime}
    (hboot : Booted manifest features platform runtime) (memory : Memory) (steps : List Step)
    (hsteps : Along Disciplined (start runtime memory) steps) (ports : PortOps)
    (domain : Option SecureDomain) (call : SpmCall) :
    let before := run (start runtime memory) steps
    let after := (before.gate ports domain call).runtime
    (∀ m, (before.runtime.messages m).allocated = true →
      (before.runtime.messages m).caller ≠ call.partitionId →
      before.runtime.layout.server (before.runtime.messages m).serviceIndex ≠ call.partitionId →
      after.messages m = before.runtime.messages m) ∧
    (∀ c, (before.runtime.connections c).allocated = true →
      (before.runtime.connections c).caller ≠ call.partitionId →
      before.runtime.layout.server (before.runtime.connections c).serviceIndex ≠ call.partitionId →
      after.connections c = before.runtime.connections c) := by
  intro before after
  have hok := (run_ok hboot memory steps hsteps).runtime
  have t : Transition (fun _ _ => True) False True ∅ call.partitionId before.runtime after :=
    @spmGate_transition _ False True ∅
      { call, runtime := before.runtime, memory := before.memory } ports domain
      (fun _ _ _ => trivial) False.elim fun m _ => Set.notMem_empty m
  have hconfined := Transition.confined t hok
  constructor
  · intro m hm hcaller hserver
    exact hconfined.message_eq hm hcaller hserver
  · intro c hc hcaller hserver
    exact hconfined.connection_eq hc hcaller hserver

/-- Client -1 is on service 1; partition 2 resumes a request it never made. -/
theorem gate_keeps_foreign_sample : Along Disciplined sampleMachine [.connect (-1) 200 1] ∧
      ((run sampleMachine [.connect (-1) 200 1]).runtime.connections 0).state = .pendingConnect ∧
      (((run sampleMachine [.connect (-1) 200 1]).gate openPorts none
        (resumeBlock .close 2 0)).runtime.connections 0).state =
          .pendingConnect := by
  have hsteps : Along Disciplined sampleMachine [.connect (-1) 200 1] := by decide +kernel
  have hstate : ((run sampleMachine [.connect (-1) 200 1]).runtime.connections
      0).state = .pendingConnect := by decide +kernel
  refine ⟨hsteps, hstate, ?_⟩
  have hkeeps := (gate_keeps_foreign sampleRuntime_booted sampleMemory
    [.connect (-1) 200 1] hsteps openPorts none (resumeBlock .close 2 0)).2 0
    (by decide +kernel) (by decide +kernel) (by decide +kernel)
  unfold sampleMachine at hstate ⊢
  rw [hkeeps]
  exact hstate

/-- Resuming the connect whose connection was opened again for client -1
releases the connection of client -1. -/
theorem gate_releases_foreign :
    let before := run sampleMachine
      (staleRun ++ [sampleGate (getBlock 3), sampleGate (replyBlock 3 322),
        .dispatched openPorts 0])
    let call := resumeBlock .close 2 0
    let after := (before.gate openPorts none call).runtime
    (before.runtime.connections 0).allocated = true ∧ (before.runtime.connections 0).caller = -1 ∧
      before.runtime.layout.server (before.runtime.connections 0).serviceIndex = 3 ∧
      call.partitionId = 2 ∧
      (after.connections 0).allocated = false := by
  decide +kernel

end WolfTrust.GateIsolation
