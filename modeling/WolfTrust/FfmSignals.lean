import WolfTrust.FfmDiscipline

namespace WolfTrust.FfmSignals

open Domain Manifest ByteMemory SignalBits LinkedQueue FfmRuntime FfmClient
  FfmMachine FfmQueues FfmInvariant FfmTransition FfmPreservation FfmTermination
  FfmRestart FfmLayout FfmDiscipline

def OwnBit (layout : Layout) (p : PartitionIndex) (bit : Word) : Prop :=
  bit = psaDoorbell ∨ ∃ i ∈ (layout.manifest p).interrupts, i.signal = bit

def SameBit (before after : Runtime) (p : PartitionIndex) (bit : Word) : Prop :=
  after.asserted p &&& bit ≠ 0 ↔ before.asserted p &&& bit ≠ 0

section OwnBit

variable {layout : Layout} {p : PartitionIndex} {bit : Word}

theorem OwnBit.oneBit (hbit : OwnBit layout p bit) (h : LayoutOk layout)
    (hp : p.val < layout.partitionCount) : OneBit bit := by
  rcases hbit with rfl | ⟨i, hi, rfl⟩
  · exact ⟨3, by decide, by decide⟩
  · exact (h.interrupt p hp i hi).1

variable {s : ServiceIndex}

theorem OwnBit.ne_service (hbit : OwnBit layout p bit) (h : LayoutOk layout)
    (hp : p.val < layout.partitionCount) (hs : s.val < layout.serviceCount)
    (hsp : layout.partitionIndex s = p) : (layout.descriptor s).signal ≠ bit := by
  rcases hbit with rfl | ⟨i, hi, rfl⟩
  · exact h.doorbell s hs
  · exact (h.interrupt p hp i hi).2 s hs hsp

end OwnBit

section Transition

variable {rings : PartitionIndex → Word → Prop} {fresh : Prop}
  {kept : Set MessageIndex} {actor : Int} {before after : Runtime}
  {p : PartitionIndex} {bit : Word}

theorem OwnBit.update_service (hbit : OwnBit before.layout p bit) (h : LayoutOk before.layout)
    (hp : p.val < before.layout.partitionCount) (hs : s.val < before.layout.serviceCount)
    {queues : Queues ServiceIndex MessageIndex} {connections : ConnectionIndex → Connection}
    {messages : MessageIndex → Message} {history : List Event} :
    SameBit before (updateServiceSignal
        { before with
          queues := queues, connections := connections, messages := messages
          history := history } s) p bit :=
  @updateServiceSignal_bit
    { before with
      queues := queues, connections := connections, messages := messages
      history := history } s (h.oneBit s hs) p bit (hbit.oneBit h hp)
    fun hsp => hbit.ne_service h hp hs hsp

theorem sameBit_setAsserted {q : PartitionIndex} {other signals : Word}
    (hne : ¬(q = p ∧ other = bit))
    (hsignals : other ≠ bit → (signals &&& bit ≠ 0 ↔ before.asserted q &&& bit ≠ 0)) :
    SameBit before (before.setAsserted q signals) p bit := by
  simp only [SameBit, Runtime.setAsserted]
  by_cases hpq : p = q
  · subst hpq
    rw [Function.update_self]
    exact hsignals fun heq => hne ⟨rfl, heq⟩
  · rw [Function.update_of_ne hpq]

theorem Transition.sameBit (t : Transition rings fresh True kept actor before after)
    (h : RuntimeOk before) (hp : p.val < before.layout.partitionCount)
    (hbit : OwnBit before.layout p bit) (hrings : ¬rings p bit) : SameBit before after p bit := by
  have hservice {c : ConnectionIndex} (hc : (before.connections c).allocated = true) :
      (before.connections c).serviceIndex.val < before.layout.serviceCount :=
    (h.tables.connection c).service hc
  have hother {q : PartitionIndex} {other : Word} (hq : rings q other) :
      ¬(q = p ∧ other = bit) := by
    rintro ⟨rfl, rfl⟩
    exact hrings hq
  cases t with

  | stay | lifecycle | rejected | givenBack | closeLeft | reversed | chunk | answered | left
  | callLeft | harvested | retired => exact Iff.rfl
  | raised q other hq hown hring =>
    obtain ⟨hone, -⟩ := ownSignal_ne h.layout hq hown
    exact sameBit_setAsserted (hother hring)
      fun hne => hone.or_other (hbit.oneBit h.layout hp) hne _
  | cleared q other hq hown hring =>
    obtain ⟨hone, -⟩ := ownSignal_ne h.layout hq hown
    exact sameBit_setAsserted (hother hring)
      fun hne => hone.clear_other (hbit.oneBit h.layout hp) hne _
  | opened c m s hactor hs => exact hbit.update_service h.layout hp hs
  | refused =>
    unfold refuseConnection
    split
    · exact Iff.rfl
    · exact Iff.rfl
  | called c m type ports memory memory' inVec outVec prepared hc =>
    exact hbit.update_service h.layout hp (hservice hc)
  | closeSent c m hc => exact hbit.update_service h.layout hp (hservice hc)
  | delivered s m hs hserver hhead =>
    obtain ⟨-, -, -, hon⟩ :=
      waiting_service (h.queues.waiting_of_head hhead)
    rw [deliverMessage_eq hon rfl]
    exact hbit.update_service h.layout hp hs
  | requeued c m status hserves hon =>
    have hbelongs := h.tables.belongs m hserves.allocated
    rw [hon] at hbelongs
    exact hbit.update_service h.layout hp (hservice hbelongs.allocated)
  | cancelled c m s fate hkept hinactive howns =>
    obtain ⟨hm, rfl, -⟩ := howns trivial
    exact hbit.update_service h.layout hp (h.service_lt hm.allocated)

end Transition

section Step

variable {machine : Machine} {p : PartitionIndex} {bit : Word}

theorem untouched_of_ownBit {runtime : Runtime} (h : RuntimeOk runtime)
    (hp : p.val < runtime.layout.partitionCount) (hbit : OwnBit runtime.layout p bit)
    (gone : MessageIndex → Prop) : Untouched runtime.layout runtime.messages gone p bit := by
  intro s hsp hsignal m hm
  obtain ⟨hallocated, -, -, rfl⟩ := waiting_service hm
  exact absurd hsignal (hbit.ne_service h.layout hp (h.service_lt hallocated) hsp)

theorem failClient_sameBit (h : RuntimeOk machine.runtime) (caller : Int)
    (hp : p.val < machine.runtime.layout.partitionCount)
    (hbit : OwnBit machine.runtime.layout p bit) :
    SameBit machine.runtime (step machine (.failClient caller)).runtime p
      bit := by
  obtain ⟨contents, hlists⟩ := lists_of_holds h.queues
  have hgone := ffmFailClientConnections_gone h hlists caller
  exact hgone.bits p bit (hbit.oneBit h.layout hp) (untouched_of_ownBit h hp hbit _)

theorem partitionRestarted_sameBit (h : RuntimeOk machine.runtime)
    (id status : Int) (hp : p.val < machine.runtime.layout.partitionCount)
    (hbit : OwnBit machine.runtime.layout p bit)
    (hother : findPartition machine.runtime id ≠ .ok p) :
    SameBit machine.runtime (step machine (.partitionRestarted id status)).runtime p bit := by
  cases hq : findPartition machine.runtime id with
  | error =>
    simp only [step, FfmRecovery.ffmPartitionRestarted, hq]
    exact Iff.rfl
  | ok q =>
    obtain ⟨contents, hlists⟩ := lists_of_holds h.queues
    obtain ⟨failed, released, hfailed, hgone, hafter⟩ :=
      ffmPartitionRestarted_restarted h hlists status hq
    have hone := hbit.oneBit h.layout hp
    have hpq : p ≠ q := by
      rintro rfl
      exact hother hq
    have hfirst : SameBit machine.runtime failed p bit :=
      hfailed.bits p bit hone fun s hs hsp =>
        hbit.ne_service h.layout hp hs.1 hsp
    have hsecond : SameBit failed released p bit := by
      have hlayout := hfailed.layout
      exact hgone.bits p bit hone
        (untouched_of_ownBit (hfailed.ok h) (hlayout ▸ hp) (hlayout ▸ hbit) _)
    have hasserted : (step machine (.partitionRestarted id
        status)).runtime.asserted p = released.asserted p := by
      simp only [step, hafter, Runtime.setAsserted, Function.update_of_ne hpq]
    unfold SameBit
    rw [hasserted]
    exact hsecond.trans hfirst

/-- One step of a disciplined run changes only the own signals it rings. -/
theorem step_sameBit (s : Step) (h : MachineOk machine) (hs : Orderly machine s)
    (hp : p.val < machine.runtime.layout.partitionCount)
    (hbit : OwnBit machine.runtime.layout p bit) (hrings : ¬Rings machine s p bit) :
    SameBit machine.runtime (step machine s).runtime p bit := by
  by_cases hrecovers : Recovers s
  · cases s with
    | partitionRestarted id status =>
      exact partitionRestarted_sameBit h.runtime id status hp hbit hrings
    | failClient caller => exact failClient_sameBit h.runtime caller hp hbit
    | _ => exact absurd hrecovers not_false
  · have t := @step_transition True machine s (fun _ => ⟨h, hs⟩) hrecovers
    exact Transition.sameBit t h.runtime hp hbit hrings

end Step

/-- The queue of service `s`, walked from its head. -/
structure QueueWalk (runtime : Runtime) (s : ServiceIndex)
    (walk : List MessageIndex) : Prop where
  path : Path runtime.queues.next (runtime.queues.head s) walk
  nodup : walk.Nodup
  tail : runtime.queues.tail s = walk.getLast?
  members : ∀ m, m ∈ walk ↔ (runtime.messages m).allocated = true ∧
      (runtime.messages m).active = false ∧
      (runtime.messages m).complete = false ∧
      (runtime.messages m).serviceIndex = s

theorem waiting_iff {message : Message} :
    waiting message = some s ↔ message.allocated = true ∧
      message.active = false ∧ message.complete = false ∧
      message.serviceIndex = s := by
  constructor
  · exact waiting_service
  · rintro ⟨hallocated, hactive, hcomplete, rfl⟩
    simp [waiting, hallocated, hactive, hcomplete]

theorem Lists.walk {runtime : Runtime} {contents : ServiceIndex → List MessageIndex}
    (h : Lists runtime contents) (s : ServiceIndex) : QueueWalk runtime s (contents s) :=
  ⟨h.represents.path s, h.represents.nodup s, h.represents.tail s,
    fun m => (h.waits s m).trans waiting_iff⟩

/-- In every state a disciplined run reaches, the queues are disjoint lists of
exactly the waiting messages and their signals say which are empty; and its next
step changes no doorbell or interrupt but those it rings. -/
theorem queues_and_signals {manifest : SystemManifest} {features : Word}
    {platform : ProfileCapabilities} {runtime : Runtime}
    (hboot : Booted manifest features platform runtime) (memory : Memory) (steps : List Step)
    (hsteps : Along Disciplined (start runtime memory) steps) :
    let machine := run (start runtime memory) steps
    let layout := machine.runtime.layout
    (∃ walks : ServiceIndex → List MessageIndex, (∀ s, QueueWalk machine.runtime s (walks s)) ∧
      (∀ s t, s ≠ t → (walks s).Disjoint (walks t)) ∧
      ∀ s : ServiceIndex, s.val < layout.serviceCount →
        (machine.runtime.asserted (layout.partitionIndex s) &&&
          (layout.descriptor s).signal ≠ 0 ↔ walks s ≠ [])) ∧
    ∀ s, Disciplined machine s → ∀ p : PartitionIndex, p.val < layout.partitionCount →
      ∀ bit, OwnBit layout p bit → ¬SameBit machine.runtime (step machine s).runtime p bit →
        Rings machine s p bit := by
  intro machine layout
  have hok := run_ok hboot memory steps hsteps
  constructor
  · obtain ⟨walks, hlists⟩ := lists_of_holds hok.runtime.queues
    have hrep := hlists.represents
    refine ⟨walks, fun s => Lists.walk hlists s,
      fun s t hst m hs ht => hst (hrep.disjoint s t m hs ht), fun s hs => ?_⟩
    refine (hok.runtime.signals s hs).trans ?_
    rw [hrep.head_eq]
    simp
  · intro s hs p hp bit hbit hchanged
    by_contra hrings
    exact hchanged (step_sameBit s hok hs.2 hp hbit hrings)

/-- A request of client -1 waits for service 1, and the doorbell of partition 3
rings next. -/
theorem queues_and_signals_sample :
    let machine := run sampleMachine [.connect (-1) 200 1]
    let ring : Step := sampleGate { blankCall .notify 2 with notifyPartition := 3 }
    (∃ walk, QueueWalk machine.runtime 1 walk ∧ walk ≠ []) ∧ Rings machine ring 1 psaDoorbell := by
  intro machine ring
  have hclaim := queues_and_signals sampleRuntime_booted
    sampleMemory [.connect (-1) 200 1] (by decide +kernel)
  obtain ⟨⟨walks, hwalks, -, hsignals⟩, hrings⟩ := hclaim
  refine ⟨⟨walks 1, hwalks 1, (hsignals 1 (by decide)).mp (by decide +kernel)⟩,
    hrings ring (by decide +kernel) 1 (by decide) psaDoorbell (.inl rfl) ?_⟩
  unfold SameBit
  decide +kernel

/-- Partition 2 resumes its connect while the call of client -1 is on the
connection that was opened again. The dispatch returns, the message of client -1
is released, and the queue of service 1 still holds it. -/
theorem queue_holds_released_message :
    let steps := staleRun ++
      [sampleGate (getBlock 3), sampleGate (replyBlock 3 322),
        .dispatched openPorts 0, .call openPorts (-1) 289 0 [] [],
        sampleGate (resumeBlock .close 2 0), .dispatched openPorts 0]
    let after := (run sampleMachine steps).runtime
    Along SparesServed sampleMachine steps ∧ after.queues.head 1 = some 1 ∧
      (after.messages 1).allocated = false := by
  decide +kernel

end WolfTrust.FfmSignals
