import WolfTrust.FfmSignals

namespace WolfTrust.FfmRestartFrame

open Domain Manifest ByteMemory SignalBits FfmRuntime FfmRecovery FfmMachine
  FfmTables FfmInvariant FfmTermination FfmRestart FfmLayout FfmDiscipline
  FfmSignals

/-- Nothing is left of partition `id` as a client, and everything that waited on
it as a server has ended. -/
structure RestartComplete (id status : Int) (p : PartitionIndex)
    (before after : Runtime) : Prop where
  served : ∀ m, (after.messages m).allocated = true → (after.messages m).complete = false →
    after.layout.server (after.messages m).serviceIndex ≠ id
  queues : ∀ s : ServiceIndex, s.val < after.layout.serviceCount →
    after.layout.server s = id → QueueWalk after s []
  signals : after.asserted p = 0
  connections : ∀ c, (before.connections c).allocated = true →
    before.layout.server (before.connections c).serviceIndex = id →
    (before.connections c).state ≠ .terminal →
    (after.connections c).allocated = false ∨
      (after.connections c).state = .error ∧ (after.connections c).rhandle = 0
  sent : ∀ m, (after.messages m).allocated = true → (after.messages m).caller ≠ id
  opened : ∀ c, (after.connections c).allocated = true → (after.connections c).caller ≠ id
  answered : ∀ m, Awaits id before m → (before.messages m).caller ≠ id →
    (before.messages m).abandoned = .no →
    after.messages m =
      { before.messages m with
        replyStatus := status, active := false, complete := true }
  dropped : ∀ m, Awaits id before m → (before.messages m).abandoned ≠ .no →
    (after.messages m).allocated = false

/-- What involves partition `id` neither as client nor as server is as it
was. -/
structure RestartFramed (id : Int) (p : PartitionIndex)
    (before after : Runtime) : Prop where
  message : ∀ m, (before.messages m).caller ≠ id →
    before.layout.server (before.messages m).serviceIndex ≠ id →
    after.messages m = before.messages m
  connection : ∀ c, (before.connections c).caller ≠ id →
    before.layout.server (before.connections c).serviceIndex ≠ id →
    after.connections c = before.connections c
  queue : ∀ s walk, before.layout.server s ≠ id → QueueWalk before s walk →
    (∀ m ∈ walk, (before.messages m).caller ≠ id) → QueueWalk after s walk
  signal : ∀ q bit, q ≠ p → q.val < before.layout.partitionCount → OneBit bit →
    (∀ s, before.layout.partitionIndex s = q → (before.layout.descriptor s).signal = bit →
      ∀ walk, QueueWalk before s walk →
      ∀ m ∈ walk, (before.messages m).caller ≠ id) →
    SameBit before after q bit

theorem state_ne_free {runtime : Runtime} (h : RuntimeOk runtime) {c : ConnectionIndex}
    (hc : (runtime.connections c).allocated = true) : (runtime.connections c).state ≠ .free := by
  intro hfree
  by_cases hmessage : ∃ m, (runtime.messages m).allocated = true ∧
      (runtime.messages m).connectionIndex = c
  · obtain ⟨m, hm, rfl⟩ := hmessage
    have hlegal := (h.tables.belongs m hm).legal
    cases hcomplete : (runtime.messages m).complete with
    | false => exact (Legal.incomplete hlegal hcomplete).1 hfree
    | true =>
      unfold Legal at hlegal
      rw [if_pos hcomplete, hfree] at hlegal
      simp at hlegal
  · push Not at hmessage
    have halone := h.tables.alone c hc hmessage
    rw [hfree] at halone
    simp [Alone] at halone

section Restart

variable {id status : Int} {p : PartitionIndex}
  {before failed released : Runtime}
  {contents left : ServiceIndex → List MessageIndex}

theorem left_message (hfailed : Failed id status before contents failed)
    (hgone : ClientGone id failed left released) {m : MessageIndex}
    (hm : (released.messages m).allocated = true) :
    (released.messages m).caller ≠ id ∧ ((released.messages m).complete = false →
        released.layout.server (released.messages m).serviceIndex ≠ id) := by
  obtain ⟨hsame, hcaller⟩ := hgone.allocated hm
  rw [hsame] at hm ⊢
  refine ⟨hcaller, fun hcomplete hserver => ?_⟩
  obtain ⟨hallocated, hrequest, hanswered, hkept⟩ := hfailed.allocated hm
  rw [hgone.layout, hfailed.layout, hrequest.serviceIndex] at hserver
  by_cases hawaits : Awaits id before m
  · rw [(hanswered hawaits).2] at hcomplete
    cases hcomplete
  · rw [hkept hawaits] at hcomplete
    exact hawaits ⟨hallocated, hcomplete, hserver⟩

theorem left_connection (h : RuntimeOk before) (hfailed : Failed id status before contents failed)
    (hgone : ClientGone id failed left released) {c : ConnectionIndex}
    (hc : (before.connections c).allocated = true)
    (hserver : before.layout.server (before.connections c).serviceIndex = id)
    (hstate : (before.connections c).state ≠ .terminal) :
    (released.connections c).allocated = false ∨ (released.connections c).state = .error ∧
        (released.connections c).rhandle = 0 := by
  have hterminated := hgone.connection c
  split at hterminated
  · left
    rw [hterminated]
    rfl
  rw [hterminated]
  rcases hfailed.connection c with
    ⟨-, -, -, -, hclosed⟩ | ⟨-, ⟨-, hdropped⟩ | ⟨hnot, -⟩⟩
  · left
    rw [hclosed]
    rfl
  · right
    rw [hdropped]
    exact ⟨rfl, rfl⟩
  · exact absurd ⟨hc, state_ne_free h hc, hstate, hserver⟩ hnot

theorem kept_connection (h : RuntimeOk before) (hfailed : Failed id status before contents failed)
    (hgone : ClientGone id failed left released) {c : ConnectionIndex}
    (hcaller : (before.connections c).caller ≠ id)
    (hserver : before.layout.server (before.connections c).serviceIndex ≠ id) :
    released.connections c = before.connections c := by
  have hsame : failed.connections c = before.connections c := by
    rcases hfailed.connection c with
      ⟨m, hm, -, rfl, -⟩ | ⟨-, ⟨hfailable, -⟩ | ⟨-, hsame⟩⟩
    · exact absurd (failable_of_awaits h hm).2.2.2 hserver
    · exact absurd hfailable.2.2.2 hserver
    · exact hsame
  rw [hgone.connection_of_ne (hsame ▸ hcaller), hsame]

theorem kept_message (hfailed : Failed id status before contents failed)
    (hgone : ClientGone id failed left released) {m : MessageIndex}
    (hcaller : (before.messages m).caller ≠ id)
    (hserver : before.layout.server (before.messages m).serviceIndex ≠ id) :
    released.messages m = before.messages m := by
  have hsame : failed.messages m = before.messages m := by
    rw [hfailed.message m, if_neg fun hawaits => hserver hawaits.2.2]
  rw [hgone.message_of_ne (hsame ▸ hcaller), hsame]

theorem kept_queue (hlists : Lists before contents)
    (hfailed : Failed id status before contents failed)
    (hgone : ClientGone id failed
      (fun s => if Hosts before.layout id s then [] else contents s) released)
    {s : ServiceIndex} (hserver : before.layout.server s ≠ id)
    (hcallers : ∀ m ∈ contents s, (before.messages m).caller ≠ id) :
    QueueWalk released s (contents s) := by
  obtain ⟨rest, hrest, hsublist⟩ := hgone.lists
  have hsub : (rest s).Sublist (contents s) := by
    have hs := hsublist s
    rwa [if_neg fun hosts => hserver hosts.2] at hs
  have hsubset : contents s ⊆ rest s := by
    intro m hm
    have hwaits := (hlists.waits s m).mp hm
    have hservice := (waiting_service hwaits).2.2.2
    have hsame := kept_message hfailed hgone (hcallers m hm) (by rw [hservice]; exact hserver)
    rw [hrest.waits, hsame]
    exact hwaits
  have hlength : (contents s).length ≤ (rest s).length :=
    ((hlists.represents.nodup s).subperm hsubset).length_le
  rw [← hsub.eq_of_length_le hlength]
  exact Lists.walk hrest s

theorem kept_signal (h : RuntimeOk before) (hp : findPartition before id = .ok p)
    (hfailed : Failed id status before contents failed)
    (hgone : ClientGone id failed left released) {q : PartitionIndex}
    {bit : Word} (hqp : q ≠ p) (hq : q.val < before.layout.partitionCount)
    (hbit : OneBit bit)
    (hcallers : ∀ s, before.layout.partitionIndex s = q →
      (before.layout.descriptor s).signal = bit →
      ∀ m ∈ contents s, (before.messages m).caller ≠ id) :
    SameBit before released q bit := by
  obtain ⟨-, hcount, hid⟩ := findPartition_eq_ok hp
  have hother (s : ServiceIndex) (hs : before.layout.server s = id)
      (hsq : before.layout.partitionIndex s = q) : False := by
    refine hqp (h.layout.domainId q p hq hcount ?_)
    rw [Layout.server, hsq, ← hid] at hs
    exact_mod_cast hs
  have hfirst : SameBit before failed q bit :=
    hfailed.bits q bit hbit fun s hs hsq _ => hother s hs.2 hsq
  have hsecond : SameBit failed released q bit := by
    refine hgone.bits q bit hbit fun s hsq hsignal m hm hsent => ?_
    rw [hfailed.layout] at hsq hsignal
    have hmem := (hfailed.lists.waits s m).mpr hm
    rw [if_neg fun hosts => hother s hosts.2 hsq] at hmem
    obtain ⟨-, hrequest, -, -⟩ := hfailed.allocated hsent.1
    exact hcallers s hsq hsignal m hmem (hrequest.caller.symm.trans hsent.2)
  exact hsecond.trans hfirst

theorem restart_complete (h : RuntimeOk before) (hp : findPartition before id = .ok p) :
    RestartComplete id status p before (ffmPartitionRestarted before id status).2 := by
  obtain ⟨contents, hlists⟩ := lists_of_holds h.queues
  obtain ⟨failed, released, hfailed, hgone, hafter⟩ :=
    ffmPartitionRestarted_restarted h hlists status hp
  rw [hafter]
  refine ⟨fun m hm => (left_message hfailed hgone hm).2, fun s hs hserver => ?_,
    Function.update_self .., fun c hc => left_connection h hfailed hgone hc,
    fun m hm => (left_message hfailed hgone hm).1,
    fun c hc => ?_, fun m hm hcaller hno => ?_, fun m hm hleft => ?_⟩
  · -- Its queue was drained, and the client loop only removes cells.
    obtain ⟨rest, hrest, hsublist⟩ := hgone.lists
    have hlayout := hgone.layout.trans hfailed.layout
    have hs' := hsublist s
    rw [if_pos ⟨hlayout ▸ hs, hlayout ▸ hserver⟩] at hs'
    rw [← List.sublist_nil.mp hs']
    obtain ⟨hpath, hnodup, htail, hmembers⟩ := Lists.walk hrest s
    exact ⟨hpath, hnodup, htail, hmembers⟩
  · obtain ⟨hsame, hcaller⟩ := hgone.connection_allocated hc
    exact fun heq => hcaller (hsame ▸ heq)
  · have hmessage := hfailed.message m
    rw [if_pos hm, failedMessage, if_pos hno] at hmessage
    have hgoneMessage := hgone.message m
    rw [if_neg fun hsent => hcaller (by rw [← hsent.2, hmessage])] at hgoneMessage
    exact hgoneMessage.trans hmessage
  · have hmessage := hfailed.message m
    rw [if_pos hm, failedMessage, if_neg hleft] at hmessage
    have hgoneMessage := hgone.message m
    rw [if_neg fun hsent => by rw [hmessage] at hsent; cases hsent.1] at hgoneMessage
    change (released.messages m).allocated = false
    rw [hgoneMessage, hmessage]
    rfl

theorem restart_framed (h : RuntimeOk before) (hp : findPartition before id = .ok p) :
    RestartFramed id p before (ffmPartitionRestarted before id status).2 := by
  obtain ⟨contents, hlists⟩ := lists_of_holds h.queues
  obtain ⟨failed, released, hfailed, hgone, hafter⟩ :=
    ffmPartitionRestarted_restarted h hlists status hp
  have hwalk {s : ServiceIndex} {walk : List MessageIndex}
      (hs : QueueWalk before s walk) : walk = contents s :=
    hs.path.unique (hlists.represents.path s)
  rw [hafter]
  refine ⟨fun m hcaller hserver => kept_message hfailed hgone hcaller hserver,
    fun c hcaller hserver => kept_connection h hfailed hgone hcaller hserver,
    fun s walk hserver hs hcallers => ?_,
    fun q bit hqp hq hbit hcallers => ?_⟩
  · obtain rfl := hwalk hs
    obtain ⟨hpath, hnodup, htail, hmembers⟩ :=
      kept_queue hlists hfailed hgone hserver hcallers
    exact ⟨hpath, hnodup, htail, hmembers⟩
  · have hkept := kept_signal h hp hfailed hgone hqp hq hbit
      fun s hsq hsignal => hcallers s hsq hsignal _ (Lists.walk hlists s)
    simp only [SameBit, Runtime.setAsserted, Function.update_of_ne hqp]
    exact hkept

end Restart

/-- From every state a disciplined run reaches, the restart of a partition is
complete, and framed. -/
theorem partition_restart {manifest : SystemManifest} {features : Word}
    {platform : ProfileCapabilities} {runtime : Runtime}
    (hboot : Booted manifest features platform runtime) (memory : Memory) (steps : List Step)
    (hsteps : Along Disciplined (start runtime memory) steps) (id status : Int)
    (p : PartitionIndex)
    (hp : findPartition (run (start runtime memory) steps).runtime id = .ok p) :
    let before := (run (start runtime memory) steps).runtime
    let after := (ffmPartitionRestarted before id status).2
    RestartComplete id status p before after ∧ RestartFramed id p before after := by
  intro before after
  have hok := (run_ok hboot memory steps hsteps).runtime
  exact ⟨restart_complete hok hp, restart_framed hok hp⟩

/-- Client -1 waits on partition 3, which restarts. -/
theorem partition_restart_sample :
    let steps : List Step := [.connect (-1) 200 1, sampleGate (getBlock 3)]
    let before := (run (start sampleRuntime sampleMemory) steps).runtime
    let after := (ffmPartitionRestarted before 3 (-145)).2
    Along Disciplined (start sampleRuntime sampleMemory) steps ∧
      (after.messages 0).complete = true := by
  intro steps
  have hsteps : Along Disciplined (start sampleRuntime sampleMemory) steps := by decide +kernel
  have hanswered := (partition_restart sampleRuntime_booted sampleMemory steps
    hsteps 3 (-145) 1 (by decide +kernel)).1.answered 0 (by decide +kernel)
    (by decide +kernel) (by decide +kernel)
  simp only [hanswered, hsteps, and_self]

/-- Partition 2 calls service 1 before it resumes its connect and then resumes
it as a close: its call outlives connection 0, which client -1 opens to service
0. The restart of partition 3 puts the connection of client -1 in error. -/
theorem restart_fails_foreign_connection : let steps : List Step :=
      [sampleGate (connectBlock 2 200), sampleGate (getBlock 3), sampleGate (replyBlock 3 193),
       sampleGate { blankCall .call 2 with msgHandle := 161 },
       sampleGate (resumeBlock .close 2 0), .connect (-1) 100 1]
    let before := (run sampleMachine steps).runtime
    let after := (ffmPartitionRestarted before 3 (-145)).2
    findPartition before 3 = .ok 1 ∧ (before.connections 0).allocated = true ∧
      (before.connections 0).caller = -1 ∧
      before.layout.server (before.connections 0).serviceIndex = 2 ∧
      (before.connections 0).state = .pendingConnect ∧
      (after.connections 0).state = .error := by
  decide +kernel

end WolfTrust.FfmRestartFrame
