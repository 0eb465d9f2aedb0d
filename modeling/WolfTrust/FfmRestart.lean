import WolfTrust.FfmTermination

namespace WolfTrust.FfmRestart

open LinkedQueue SignalBits TableLoops FfmRuntime FfmRecovery FfmTables
  FfmQueues FfmInvariant FfmTransition FfmTermination

def Awaits (p : Int) (runtime : Runtime) (m : MessageIndex) : Prop :=
  (runtime.messages m).allocated = true ∧ (runtime.messages m).complete = false ∧
    runtime.layout.server (runtime.messages m).serviceIndex = p

instance (p : Int) (runtime : Runtime) (m : MessageIndex) : Decidable (Awaits p runtime m) :=
  inferInstanceAs (Decidable (_ ∧ _ ∧ _))

/-- A message of a failed partition: answered for it, or released when its
client is gone. -/
def failedMessage (status : Int) (message : Message) : Message :=
  if message.abandoned = .no then
    { message with replyStatus := status, active := false, complete := true }
  else message.released

def failedConnection (abandoned : Abandoned) (connection : Connection) : Connection :=
  if abandoned = .close then connection.released
  else { connection with state := .error }

/-- The message loop after it visited some slots. -/
structure Failing (p status : Int) (before : Runtime)
    (visited : Set MessageIndex) (runtime : Runtime) : Prop where
  layout : runtime.layout = before.layout
  asserted : runtime.asserted = before.asserted
  instances : runtime.instances = before.instances
  ends : runtime.queues.head = before.queues.head ∧ runtime.queues.tail = before.queues.tail
  links : ∀ m, ¬(m ∈ visited ∧ Awaits p before m) → runtime.queues.next m = before.queues.next m
  failed : ∀ m ∈ visited, Awaits p before m →
    runtime.messages m = failedMessage status (before.messages m) ∧
      runtime.connections (before.messages m).connectionIndex =
        failedConnection (before.messages m).abandoned
          (before.connections (before.messages m).connectionIndex)
  stays : ∀ m, ¬(m ∈ visited ∧ Awaits p before m) → runtime.messages m = before.messages m
  missed : ∀ c, (∀ m ∈ visited, Awaits p before m → (before.messages m).connectionIndex ≠ c) →
    runtime.connections c = before.connections c
  events : ∃ events, runtime.history = events ++ before.history ∧
    ∀ e, e ∈ events ↔ ∃ m ∈ visited, Awaits p before m ∧
      e = .messageAnswered m (before.messages m).releases

section MessageLoop

variable {p status : Int} {before : Runtime} {visited : Set MessageIndex}
  {state : Runtime × Nat} {i : MessageIndex}

theorem Failing.skip (h : Failing p status before visited state.1) (hi : ¬Awaits p before i) :
    Failing p status before (insert i visited) state.1 := by
  have hsame : ∀ m, m ∈ insert i visited ∧ Awaits p before m ↔ m ∈ visited ∧ Awaits p before m := by
    intro m
    constructor
    · rintro ⟨rfl | hm, ha⟩
      · exact absurd ha hi
      · exact ⟨hm, ha⟩
    · rintro ⟨hm, ha⟩
      exact ⟨.inr hm, ha⟩
  obtain ⟨events, hhistory, hevents⟩ := h.events
  refine ⟨h.layout, h.asserted, h.instances, h.ends,
    fun m hm => h.links m fun hv => hm ((hsame m).mpr hv),
    fun m hm ha => h.failed m ((hsame m).mp ⟨hm, ha⟩).1 ha,
    fun m hm => h.stays m fun hv => hm ((hsame m).mpr hv),
    fun c hc => h.missed c fun m hm => hc m (.inr hm),
    events, hhistory, fun e => (hevents e).trans ?_⟩
  constructor
  · rintro ⟨m, hm, ha, he⟩
    exact ⟨m, .inr hm, ha, he⟩
  · rintro ⟨m, hm, ha, he⟩
    exact ⟨m, ((hsame m).mp ⟨hm, ha⟩).1, ha, he⟩

theorem failServedMessage_eq {runtime : Runtime} {n : Nat} (hi : Awaits p runtime i) :
    (failServedMessage p status (runtime, n) i).1 =
      { runtime with
        messages := Function.update runtime.messages i (failedMessage status (runtime.messages i))
        connections := Function.update runtime.connections (runtime.messages i).connectionIndex
          (failedConnection (runtime.messages i).abandoned
            (runtime.connections (runtime.messages i).connectionIndex))
        queues :=
          if (runtime.messages i).abandoned = .no then runtime.queues
          else runtime.queues.detach i
        history := .messageAnswered i (runtime.messages i).releases :: runtime.history } := by
  obtain ⟨hallocated, hcomplete, hserver⟩ := hi
  cases habandoned : (runtime.messages i).abandoned <;>
    simp [failServedMessage, hallocated, hcomplete, hserver, habandoned,
      failedMessage, failedConnection, releaseMessage, releaseConnection,
      Runtime.setMessage, Runtime.setState, Runtime.setConnection,
      Runtime.record, Message.released, Connection.released, Queues.detach]

theorem failServedMessage_skip (hi : ¬Awaits p state.1 i) :
    (failServedMessage p status state i).1 = state.1 := by
  unfold failServedMessage
  simp only
  split
  · rfl
  · rename_i hpending
    split
    · rfl
    · rename_i hserver
      push Not at hpending hserver
      exact absurd ⟨by simpa using hpending.1, by simpa using hpending.2, hserver⟩ hi

theorem failServedMessage_step (hunique : ∀ m n, Awaits p before m → Awaits p before n →
      (before.messages m).connectionIndex = (before.messages n).connectionIndex → m = n)
    (h : Failing p status before visited state.1) (hi : i ∉ visited) :
    Failing p status before (insert i visited) (failServedMessage p status state i).1 := by
  have hmessage : state.1.messages i = before.messages i := h.stays i fun hv => hi hv.1
  have hsame : Awaits p state.1 i ↔ Awaits p before i := by
    unfold Awaits
    rw [hmessage, h.layout]
  by_cases hawaits : Awaits p before i
  · have hconnection : state.1.connections (before.messages i).connectionIndex =
          before.connections (before.messages i).connectionIndex := by
      refine h.missed _ fun m hm ha hon => hi ?_
      rw [← hunique m i ha hawaits hon]
      exact hm
    obtain ⟨events, hhistory, hevents⟩ := h.events
    rw [failServedMessage_eq (hsame.mpr hawaits), hmessage, hconnection]
    refine ⟨h.layout, h.asserted, h.instances, ?_, ?_, ?_, ?_, ?_, ?_⟩
    · split
      · exact h.ends
      · exact h.ends
    · intro m hm
      have hmi : m ≠ i := by
        rintro rfl
        exact hm ⟨.inl rfl, hawaits⟩
      have hbefore := h.links m fun hv => hm ⟨.inr hv.1, hv.2⟩
      simp only
      split
      · exact hbefore
      · simp only [Queues.detach, Function.update_of_ne hmi]
        exact hbefore
    · intro m hm ha
      by_cases hmi : m = i
      · subst hmi
        simp only [Function.update_self, and_self]
      · have hon : (before.messages m).connectionIndex ≠ (before.messages i).connectionIndex :=
          fun hon => hmi (hunique m i ha hawaits hon)
        simp only [Function.update_of_ne hmi, Function.update_of_ne hon]
        exact h.failed m (hm.resolve_left hmi) ha
    · intro m hm
      have hmi : m ≠ i := by
        rintro rfl
        exact hm ⟨.inl rfl, hawaits⟩
      simp only [Function.update_of_ne hmi]
      exact h.stays m fun hv => hm ⟨.inr hv.1, hv.2⟩
    · intro c hc
      have hci : c ≠ (before.messages i).connectionIndex :=
        fun hci => hc i (.inl rfl) hawaits hci.symm
      simp only [Function.update_of_ne hci]
      exact h.missed c fun m hm => hc m (.inr hm)
    · refine ⟨.messageAnswered i (before.messages i).releases :: events, ?_, fun e => ?_⟩
      · simp [hhistory]
      · rw [List.mem_cons, hevents]
        constructor
        · rintro (rfl | ⟨m, hm, ha, he⟩)
          · exact ⟨i, .inl rfl, hawaits, rfl⟩
          · exact ⟨m, .inr hm, ha, he⟩
        · rintro ⟨m, rfl | hm, ha, he⟩
          · exact .inl he
          · exact .inr ⟨m, hm, ha, he⟩
  · rw [failServedMessage_skip fun hi => hawaits (hsame.mp hi)]
    exact h.skip hawaits

end MessageLoop

def Hosts (layout : Layout) (p : Int) (s : ServiceIndex) : Prop :=
  s.val < layout.serviceCount ∧ layout.server s = p

instance (layout : Layout) (p : Int) (s : ServiceIndex) : Decidable (Hosts layout p s) :=
  inferInstanceAs (Decidable (_ ∧ _))

/-- The service loop after it visited some services. -/
structure Draining (p : Int) (before : Runtime) (visited : Set ServiceIndex)
    (runtime : Runtime) : Prop where
  layout : runtime.layout = before.layout
  instances : runtime.instances = before.instances
  messages : runtime.messages = before.messages
  connections : runtime.connections = before.connections
  history : runtime.history = before.history
  next : runtime.queues.next = before.queues.next
  drained : ∀ s ∈ visited, Hosts before.layout p s →
    runtime.queues.head s = none ∧ runtime.queues.tail s = none
  stays : ∀ s, ¬(s ∈ visited ∧ Hosts before.layout p s) →
    runtime.queues.head s = before.queues.head s ∧ runtime.queues.tail s = before.queues.tail s
  signals : SignalsOk runtime.layout runtime.asserted runtime.queues
  bits : ∀ q bit, OneBit bit → (∀ s ∈ visited, Hosts before.layout p s →
      before.layout.partitionIndex s = q →
      (before.layout.descriptor s).signal ≠ bit) →
    (runtime.asserted q &&& bit ≠ 0 ↔ before.asserted q &&& bit ≠ 0)

theorem drainService_step {p : Int} {before runtime : Runtime} {visited : Set ServiceIndex}
    {i : ServiceIndex} (hlayout : LayoutOk before.layout) (h : Draining p before visited runtime) :
    Draining p before (insert i visited) (drainService p runtime i) := by
  have hhosts : (i.val < runtime.layout.serviceCount ∧
      runtime.layout.server i = p) ↔ Hosts before.layout p i := by
    rw [h.layout]
    rfl
  unfold drainService
  split
  · rename_i hcond
    have hi := hhosts.mp hcond
    have hsignals := @SignalsOk.update
      { runtime with queues := runtime.queues.drain i }
      (h.layout ▸ hlayout) i hcond.1 runtime.queues h.signals
      (fun t hti => Function.update_of_ne hti _ _)
    refine ⟨h.layout, h.instances, h.messages, h.connections, h.history,
      h.next, ?_, ?_, hsignals, ?_⟩
    · intro s hs hosts
      by_cases hsi : s = i
      · subst hsi
        exact ⟨Function.update_self _ _ _, Function.update_self _ _ _⟩
      · have hbefore := h.drained s (hs.resolve_left hsi) hosts
        simp only [updateServiceSignal, Queues.drain, Function.update_of_ne hsi]
        exact hbefore
    · intro s hs
      have hsi : s ≠ i := by
        rintro rfl
        exact hs ⟨.inl rfl, hi⟩
      simp only [updateServiceSignal, Queues.drain, Function.update_of_ne hsi]
      exact h.stays s fun hv => hs ⟨.inr hv.1, hv.2⟩
    · intro q bit hbit hnone
      refine (@updateServiceSignal_bit
        { runtime with queues := runtime.queues.drain i } i
        (h.layout ▸ hlayout.oneBit i hi.1) q bit hbit fun hq hs => ?_).trans
        (h.bits q bit hbit fun s hs => hnone s (.inr hs))
      exact hnone i (.inl rfl) hi (h.layout ▸ hq) (h.layout ▸ hs)
  · rename_i hcond
    have hi : ¬Hosts before.layout p i := fun hi => hcond (hhosts.mpr hi)
    refine ⟨h.layout, h.instances, h.messages, h.connections, h.history,
      h.next, ?_, ?_, h.signals, ?_⟩
    · rintro s (rfl | hs) hosts
      · exact absurd hosts hi
      · exact h.drained s hs hosts
    · intro s hs
      exact h.stays s fun hv => hs ⟨.inr hv.1, hv.2⟩
    · intro q bit hbit hnone
      exact h.bits q bit hbit fun s hs => hnone s (.inr hs)

def Failable (p : Int) (layout : Layout) (connection : Connection) : Prop :=
  connection.allocated = true ∧ connection.state ≠ .free ∧
    connection.state ≠ .terminal ∧ layout.server connection.serviceIndex = p

instance (p : Int) (layout : Layout) (connection : Connection) :
    Decidable (Failable p layout connection) :=
  inferInstanceAs (Decidable (_ ∧ _ ∧ _ ∧ _))

/-- The connection loop after it visited some slots. -/
structure Dropping (p : Int) (before : Runtime)
    (visited : Set ConnectionIndex) (runtime : Runtime) : Prop where
  others : runtime = { before with connections := runtime.connections }
  failed : ∀ c ∈ visited, Failable p before.layout (before.connections c) → runtime.connections c =
      { before.connections c with state := .error, rhandle := 0 }
  stays : ∀ c, ¬(c ∈ visited ∧ Failable p before.layout (before.connections c)) →
    runtime.connections c = before.connections c

theorem failConnection_step {p : Int} {before runtime : Runtime} {visited : Set ConnectionIndex}
    {i : ConnectionIndex} (h : Dropping p before visited runtime) (hi : i ∉ visited) :
    Dropping p before (insert i visited) (failConnection p runtime i) := by
  have hbefore : runtime.connections i = before.connections i := h.stays i fun hv => hi hv.1
  have hlayout : runtime.layout = before.layout := by rw [h.others]
  by_cases hfailable : Failable p before.layout (before.connections i)
  · have hconnections : failConnection p runtime i =
        { before with
          connections := Function.update runtime.connections i
            { before.connections i with state := .error, rhandle := 0 } } := by
      obtain ⟨hallocated, hfree, hterminal, hserver⟩ := hfailable
      unfold failConnection
      simp only [hbefore, hlayout]
      rw [if_neg (by simp [hallocated, hfree, hterminal]), if_neg (not_not.mpr hserver)]
      simp only [Runtime.setConnection, hbefore, hlayout, Runtime.mk.injEq, true_and]
      refine ⟨?_, ?_, ?_, ?_, ?_, ?_⟩ <;> rw [h.others]
    rw [hconnections]
    refine ⟨rfl, ?_, ?_⟩
    · intro c hc hc'
      by_cases hci : c = i
      · simp only [hci, Function.update_self]
      · simp only [Function.update_of_ne hci]
        exact h.failed c (hc.resolve_left hci) hc'
    · intro c hc
      have hci : c ≠ i := by
        rintro rfl
        exact hc ⟨.inl rfl, hfailable⟩
      simp only [Function.update_of_ne hci]
      exact h.stays c fun hv => hc ⟨.inr hv.1, hv.2⟩
  · have hsame : failConnection p runtime i = runtime := by
      unfold failConnection
      simp only [hbefore, hlayout]
      split
      · rfl
      · rename_i hlive
        split
        · rfl
        · rename_i hserver
          push Not at hlive hserver
          exact absurd ⟨by simpa using hlive.1, hlive.2.1, hlive.2.2, hserver⟩ hfailable
    rw [hsame]
    refine ⟨h.others, ?_, ?_⟩
    · rintro c (rfl | hc) hc'
      · exact absurd hc' hfailable
      · exact h.failed c hc hc'
    · intro c hc
      exact h.stays c fun hv => hc ⟨.inr hv.1, hv.2⟩

/-- The state after the services of partition `p` failed. -/
structure Failed (p status : Int) (before : Runtime)
    (contents : ServiceIndex → List MessageIndex) (after : Runtime) :
    Prop where
  layout : after.layout = before.layout
  instances : after.instances = before.instances
  message : ∀ m, after.messages m =
    if Awaits p before m then failedMessage status (before.messages m)
    else before.messages m
  released : ∀ m, Awaits p before m → (before.messages m).abandoned = .close →
    after.connections (before.messages m).connectionIndex =
      (before.connections (before.messages m).connectionIndex).released
  failed : ∀ c, (∀ m, Awaits p before m → (before.messages m).abandoned = .close →
      (before.messages m).connectionIndex ≠ c) →
    after.connections c =
      if Failable p before.layout (before.connections c) then
        { before.connections c with state := .error, rhandle := 0 }
      else before.connections c
  lists : Lists after fun s =>
    if Hosts before.layout p s then [] else contents s
  signals : SignalsOk after.layout after.asserted after.queues
  bits : ∀ q bit, OneBit bit → (∀ s, Hosts before.layout p s → before.layout.partitionIndex s = q →
      (before.layout.descriptor s).signal ≠ bit) →
    (after.asserted q &&& bit ≠ 0 ↔ before.asserted q &&& bit ≠ 0)
  events : ∃ events, after.history = events ++ before.history ∧
    ∀ e, e ∈ events ↔ ∃ m, Awaits p before m ∧ e = .messageAnswered m (before.messages m).releases

theorem Legal.incomplete {message : Message} {state : ConnectionState} (h : Legal message state)
    (hcomplete : message.complete = false) : state ≠ .free ∧ state ≠ .terminal ∧ state ≠ .idle := by
  unfold Legal at h
  rw [hcomplete] at h
  simp only [Bool.false_eq_true, if_false] at h
  split_ifs at h
  · simp [h.1]
  · simp [h.1]
  · simp [h.1]
  · split at h <;> simp [h]
  · simp [h.1]

section Failed

variable {runtime : Runtime} {p status : Int} {contents : ServiceIndex → List MessageIndex}

variable {m : MessageIndex}

theorem failable_of_awaits (h : RuntimeOk runtime) (hm : Awaits p runtime m) :
    Failable p runtime.layout (runtime.connections (runtime.messages m).connectionIndex) := by
  obtain ⟨hallocated, hcomplete, hserver⟩ := hm
  have hbelongs := h.tables.belongs m hallocated
  obtain ⟨hfree, hterminal, -⟩ := Legal.incomplete hbelongs.legal hcomplete
  exact ⟨hbelongs.allocated, hfree, hterminal, hbelongs.service ▸ hserver⟩

theorem awaits_unique (h : RuntimeOk runtime) (m n : MessageIndex)
    (hm : Awaits p runtime m) (hn : Awaits p runtime n)
    (hon : (runtime.messages m).connectionIndex = (runtime.messages n).connectionIndex) : m = n :=
  h.tables.unique m n hm.1 hn.1 hon

theorem awaits_of_waiting (h : RuntimeOk runtime)
    {s : ServiceIndex} (hm : waiting (runtime.messages m) = some s) :
    Awaits p runtime m ↔ Hosts runtime.layout p s := by
  obtain ⟨hallocated, -, hcomplete, rfl⟩ := waiting_service hm
  constructor
  · rintro ⟨-, -, hserver⟩
    exact ⟨h.service_lt hallocated, hserver⟩
  · rintro ⟨-, hserver⟩
    exact ⟨hallocated, hcomplete, hserver⟩

theorem waiting_failedMessage (message : Message) :
    waiting (failedMessage status message) = none := by
  unfold failedMessage
  split
  · exact waiting_of_complete rfl
  · rfl

theorem failed_lists (h : RuntimeOk runtime) (hlists : Lists runtime contents)
    {failing drained : Runtime} (hfailing : Failing p status runtime Set.univ failing)
    (hdrained : Draining p failing Set.univ drained) :
    Lists drained fun s =>
      if Hosts runtime.layout p s then [] else contents s := by
  have hlayout := hfailing.layout
  have hother {s : ServiceIndex} (hs : ¬Hosts runtime.layout p s) :
      drained.queues.head s = runtime.queues.head s ∧
        drained.queues.tail s = runtime.queues.tail s := by
    have hstays := hdrained.stays s fun hv => hs (hlayout ▸ hv.2)
    rw [hfailing.ends.1, hfailing.ends.2] at hstays
    exact hstays
  have hgone {s : ServiceIndex} (hs : Hosts runtime.layout p s) :
      drained.queues.head s = none ∧ drained.queues.tail s = none :=
    hdrained.drained s trivial (hlayout.symm ▸ hs)
  refine ⟨⟨fun s => ?_, fun s => ?_, fun s => ?_, fun s t m hm hm' => ?_⟩, fun s m => ?_⟩
  · split
    · rename_i hs
      exact (hgone hs).1
    · rename_i hs
      rw [(hother hs).1, hdrained.next]
      refine (hlists.represents.path s).congr fun m hm => ?_
      refine hfailing.links m fun hv => hs ?_
      exact (awaits_of_waiting h ((hlists.waits s m).mp hm)).mp hv.2
  · split
    · rename_i hs
      exact (hgone hs).2
    · rename_i hs
      rw [(hother hs).2]
      exact hlists.represents.tail s
  · split
    · exact List.nodup_nil
    · exact hlists.represents.nodup s
  · split at hm
    · cases hm
    · split at hm'
      · cases hm'
      · exact hlists.represents.disjoint s t m hm hm'
  · rw [hdrained.messages]
    by_cases hm : Awaits p runtime m
    · rw [(hfailing.failed m trivial hm).1, waiting_failedMessage]
      refine iff_of_false (fun hmem => ?_) (by simp)
      split at hmem
      · cases hmem
      · rename_i hs
        exact hs ((awaits_of_waiting h ((hlists.waits s m).mp hmem)).mp hm)
    · rw [hfailing.stays m fun hv => hm hv.2]
      split
      · rename_i hs
        refine iff_of_false List.not_mem_nil fun hwaits => hm ?_
        exact (awaits_of_waiting h hwaits).mpr hs
      · exact hlists.waits s m

theorem failed_connections (h : RuntimeOk runtime)
    {failing drained dropped : Runtime}
    (hfailing : Failing p status runtime Set.univ failing)
    (hlayout : drained.layout = runtime.layout)
    (hsame : drained.connections = failing.connections)
    (hdropped : Dropping p drained Set.univ dropped) (c : ConnectionIndex)
    (hc : ∀ m, Awaits p runtime m → (runtime.messages m).abandoned = .close →
      (runtime.messages m).connectionIndex ≠ c) :
    dropped.connections c =
      if Failable p runtime.layout (runtime.connections c) then
        { runtime.connections c with state := .error, rhandle := 0 }
      else runtime.connections c := by
  by_cases hhit : ∃ m, Awaits p runtime m ∧ (runtime.messages m).connectionIndex = c
  · obtain ⟨m, hm, rfl⟩ := hhit
    have hfailable := failable_of_awaits h hm
    have hfailed := (hfailing.failed m trivial hm).2
    rw [failedConnection, if_neg fun hclose => hc m hm hclose rfl] at hfailed
    rw [← hsame] at hfailed
    have hstill : Failable p drained.layout
        (drained.connections (runtime.messages m).connectionIndex) := by
      rw [hfailed, hlayout]
      refine ⟨hfailable.1, ?_, ?_, hfailable.2.2.2⟩
      · simp
      · simp
    rw [if_pos hfailable, hdropped.failed _ trivial hstill, hfailed]
  · have hmissed := hfailing.missed c fun m _ hm hon => hhit ⟨m, hm, hon⟩
    rw [← hsame] at hmissed
    split
    · rename_i hfailable
      rw [hdropped.failed c trivial (by rw [hmissed, hlayout]; exact hfailable), hmissed]
    · rename_i hfailable
      rw [hdropped.stays c fun hv => hfailable (by
        rw [hmissed, hlayout] at hv
        exact hv.2), hmissed]

theorem ffmFailPartitionMessages_failed (h : RuntimeOk runtime)
    (hlists : Lists runtime contents) (p status : Int) :
    Failed p status runtime contents (ffmFailPartitionMessages runtime p status).2 := by
  have hstart : Failing p status runtime ∅ runtime := by
    refine ⟨rfl, rfl, rfl, ⟨rfl, rfl⟩, fun _ _ => rfl,
      fun m hm => absurd hm (Set.notMem_empty m), fun _ _ => rfl,
      fun _ _ => rfl, [], rfl, fun e => ?_⟩
    simp
  have hfailing : Failing p status runtime Set.univ
      ((List.finRange 8).foldl (failServedMessage p status) (runtime, 0)).1 :=
    foldl_finRange (P := fun visited (state : Runtime × Nat) =>
        Failing p status runtime visited state.1)
      hstart fun _ _ _ hi hs =>
        failServedMessage_step (awaits_unique h) hs hi
  have hresult : (ffmFailPartitionMessages runtime p status).2 =
      (List.finRange 16).foldl (failConnection p) ((List.finRange 20).foldl (drainService p)
          ((List.finRange 8).foldl (failServedMessage p status) (runtime, 0)).1) := by
    simp only [ffmFailPartitionMessages]
  rw [hresult]
  generalize ((List.finRange 8).foldl (failServedMessage p status)
    (runtime, 0)).1 = failing at hfailing
  have hsignals : SignalsOk failing.layout failing.asserted failing.queues := by
    rw [hfailing.layout, hfailing.asserted]
    exact h.signals.congr hfailing.ends.1
  have hdrained : Draining p failing Set.univ ((List.finRange 20).foldl (drainService p) failing) :=
    foldl_finRange ⟨rfl, rfl, rfl, rfl, rfl, rfl, fun s hs => absurd hs (Set.notMem_empty s),
        fun _ _ => ⟨rfl, rfl⟩, hsignals, fun _ _ _ _ => Iff.rfl⟩
      fun _ _ _ _ hs => drainService_step (hfailing.layout ▸ h.layout) hs
  generalize (List.finRange 20).foldl (drainService p) failing = drained at hdrained
  have hdropped : Dropping p drained Set.univ
      ((List.finRange 16).foldl (failConnection p) drained) :=
    foldl_finRange ⟨rfl, fun c hc => absurd hc (Set.notMem_empty c), fun _ _ => rfl⟩
      fun _ _ _ hi hs => failConnection_step hs hi
  generalize (List.finRange 16).foldl (failConnection p) drained = dropped at hdropped
  have hlayout : drained.layout = runtime.layout := hdrained.layout.trans hfailing.layout
  have hothers := hdropped.others
  have hdroppedLists := failed_lists h hlists hfailing hdrained
  refine ⟨?_, ?_, fun m => ?_, fun m hm hclose => ?_,
    failed_connections h hfailing hlayout hdrained.connections hdropped, ?_, ?_,
    fun q bit hbit hnone => ?_, ?_⟩
  · rw [hothers]
    exact hlayout
  · rw [hothers]
    exact hdrained.instances.trans hfailing.instances
  · rw [hothers]
    simp only [hdrained.messages]
    split
    · rename_i hm
      exact (hfailing.failed m trivial hm).1
    · rename_i hm
      exact hfailing.stays m fun hv => hm hv.2
  · have hreleased := (hfailing.failed m trivial hm).2
    rw [hclose, failedConnection, if_pos rfl, ← hdrained.connections] at hreleased
    rw [hdropped.stays, hreleased]
    rintro ⟨-, hfailable⟩
    rw [hreleased] at hfailable
    cases hfailable.1
  · rw [hothers]
    exact ⟨hdroppedLists.represents, hdroppedLists.waits⟩
  · rw [hothers]
    exact hdrained.signals
  · rw [hothers]
    have hbits := hdrained.bits q bit hbit fun s _ hs hq => by
      rw [hfailing.layout] at hs hq ⊢
      exact hnone s hs hq
    rw [hfailing.asserted] at hbits
    exact hbits
  · rw [hothers]
    simp only [hdrained.history]
    obtain ⟨events, hhistory, hevents⟩ := hfailing.events
    refine ⟨events, hhistory, fun e => (hevents e).trans ?_⟩
    simp

end Failed

section Kept

variable {p status : Int} {before after : Runtime}
  {contents : ServiceIndex → List MessageIndex}

theorem Failed.allocated (h : Failed p status before contents after)
    (hm : (after.messages m).allocated = true) :
    (before.messages m).allocated = true ∧ SameRequest (before.messages m) (after.messages m) ∧
      (Awaits p before m → (before.messages m).abandoned = .no ∧
        after.messages m = answeredMessage before m status) ∧
      (¬Awaits p before m → after.messages m = before.messages m) := by
  have hmessage := h.message m
  by_cases hawaits : Awaits p before m
  · rw [if_pos hawaits, failedMessage] at hmessage
    split at hmessage
    · rename_i habandoned
      refine ⟨hawaits.1, ?_, fun _ => ⟨habandoned, hmessage⟩, fun hnot => absurd hawaits hnot⟩
      rw [hmessage]
      exact ⟨rfl, rfl, rfl, rfl, rfl, rfl, rfl⟩
    · rw [hmessage] at hm
      cases hm
  · rw [if_neg hawaits] at hmessage
    refine ⟨hmessage ▸ hm, ?_, fun hyes => absurd hyes hawaits, fun _ => hmessage⟩
    rw [hmessage]
    exact .refl _

theorem Failed.connection (h : Failed p status before contents after) (c : ConnectionIndex) :
    (∃ m, Awaits p before m ∧ (before.messages m).abandoned = .close ∧
        (before.messages m).connectionIndex = c ∧
        after.connections c = (before.connections c).released) ∨
      (∀ m, Awaits p before m → (before.messages m).abandoned = .close →
          (before.messages m).connectionIndex ≠ c) ∧
        (Failable p before.layout (before.connections c) ∧ after.connections c =
              { before.connections c with state := .error, rhandle := 0 } ∨
          ¬Failable p before.layout (before.connections c) ∧
            after.connections c = before.connections c) := by
  by_cases hclosed : ∃ m, Awaits p before m ∧ (before.messages m).abandoned = .close ∧
      (before.messages m).connectionIndex = c
  · obtain ⟨m, hm, hclose, rfl⟩ := hclosed
    exact .inl ⟨m, hm, hclose, rfl, h.released m hm hclose⟩
  · push Not at hclosed
    refine .inr ⟨hclosed, ?_⟩
    have hconnection := h.failed c hclosed
    split at hconnection
    · rename_i hfailable
      exact .inl ⟨hfailable, hconnection⟩
    · rename_i hfailable
      exact .inr ⟨hfailable, hconnection⟩

theorem Failed.connectionOk (h : Failed p status before contents after) (hok : RuntimeOk before)
    (c : ConnectionIndex) : ConnectionOk after.layout (after.connections c) := by
  rw [h.layout]
  have hbefore := hok.tables.connection c
  rcases h.connection c with ⟨_, -, -, -, hc⟩ | ⟨-, ⟨hf, hc⟩ | ⟨-, hc⟩⟩
  · rw [hc]
    exact hbefore.released
  · have howner : SameOwner (before.connections c)
        { before.connections c with state := .error, rhandle := 0 } :=
      ⟨rfl, rfl, rfl, rfl, rfl⟩
    rw [hc]
    exact howner.connectionOk hbefore hf.1
  · rw [hc]
    exact hbefore

theorem Failed.belongs (h : Failed p status before contents after) (hok : RuntimeOk before)
    (hm : (after.messages m).allocated = true) :
    Belongs (after.messages m) (after.connections (after.messages m).connectionIndex) := by
  obtain ⟨hallocated, hsame, hanswered, hkept⟩ := h.allocated hm
  have hbelongs := hok.tables.belongs m hallocated
  rw [hsame.connectionIndex]
  rcases h.connection (before.messages m).connectionIndex with
    ⟨n, hn, hclose, hon, -⟩ | ⟨-, ⟨hf, hc⟩ | ⟨hf, hc⟩⟩
  · -- The message that took the connection with it would be `m` itself.
    obtain rfl := hok.tables.unique n m hn.1 hallocated hon
    rw [(hanswered hn).1] at hclose
    cases hclose
  · rw [hc]
    refine hbelongs.change hsame ⟨rfl, rfl, rfl, rfl, rfl⟩ ?_
    by_cases hawaits : Awaits p before m
    · obtain ⟨hno, hmessage⟩ := hanswered hawaits
      rw [hmessage]
      exact ⟨rfl, hno, .inr (.inl rfl)⟩
    · have hcomplete : (before.messages m).complete = true := by
        by_contra hpending
        rw [Bool.not_eq_true] at hpending
        exact hawaits ⟨hallocated, hpending, hbelongs.service ▸ hf.2.2.2⟩
      have hlegal := hbelongs.legal
      rw [hkept hawaits]
      unfold Legal at hlegal ⊢
      rw [if_pos hcomplete] at hlegal ⊢
      exact ⟨hlegal.1, hlegal.2.1, .inr (.inl rfl)⟩
  · have hawaits : ¬Awaits p before m :=
      fun hawaits => hf (failable_of_awaits hok hawaits)
    rw [hc, hkept hawaits]
    exact hbelongs

theorem Failed.ok (h : Failed p status before contents after)
    (hok : RuntimeOk before) : RuntimeOk after := by
  refine ⟨h.layout ▸ hok.layout, ⟨h.connectionOk hok, fun m => ?_, fun m hm => h.belongs hok hm,
      fun m n hm hn hon => ?_, fun c hc hnone => ?_⟩, h.lists.holds, h.signals⟩
  · have hbefore := hok.tables.message m
    rw [h.message m]
    split
    · rename_i hm
      unfold failedMessage
      split
      · have hsame : SameRequest (before.messages m) (answeredMessage before m status) :=
          ⟨rfl, rfl, rfl, rfl, rfl, rfl, rfl⟩
        exact hsame.messageOk hbefore hm.1
      · exact hbefore.released
    · exact hbefore
  · obtain ⟨hm', hsame, -, -⟩ := h.allocated hm
    obtain ⟨hn', hsame', -, -⟩ := h.allocated hn
    rw [hsame.connectionIndex, hsame'.connectionIndex] at hon
    exact hok.tables.unique m n hm' hn' hon
  · rcases h.connection c with ⟨_, -, -, -, hgone⟩ | ⟨-, ⟨-, hfailed⟩ | ⟨hf, hsame⟩⟩
    · rw [hgone] at hc
      cases hc
    · rw [hfailed]
      exact .inr (.inl rfl)
    · rw [hsame] at hc ⊢
      refine hok.tables.alone c hc fun m hm hon => ?_
      have hawaits : ¬Awaits p before m := by
        intro hawaits
        have hfailable := failable_of_awaits hok hawaits
        rw [hon] at hfailable
        exact hf hfailable
      have hkept := h.message m
      rw [if_neg hawaits] at hkept
      exact hnone m (by rw [hkept]; exact hm) (by rw [hkept]; exact hon)

end Kept

/-- A restart is the failure of a server, the termination of a client and the
reset of the partition's signals, instance and history. -/
def Restarted (id status : Int) (p : PartitionIndex) (before : Runtime)
    (contents : ServiceIndex → List MessageIndex) (after : Runtime) : Prop :=
  ∃ failed released, Failed id status before contents failed ∧ ClientGone id failed
      (fun s => if Hosts before.layout id s then [] else contents s)
      released ∧
    after =
      { released.setAsserted p 0 with
        instances := Function.update released.instances p ((released.instances p + 1) % 2 ^ 32)
        history := .partitionRestarted id :: released.history }

theorem ffmPartitionRestarted_restarted {runtime : Runtime} (h : RuntimeOk runtime)
    {contents : ServiceIndex → List MessageIndex} (hlists : Lists runtime contents) {id : Int}
    (status : Int) {p : PartitionIndex} (hp : findPartition runtime id = .ok p) :
    Restarted id status p runtime contents (ffmPartitionRestarted runtime id status).2 := by
  have hfailed := ffmFailPartitionMessages_failed h hlists id status
  have hgone := ffmFailClientConnections_gone (hfailed.ok h) hfailed.lists id
  refine ⟨_, _, hfailed, hgone, ?_⟩
  unfold ffmPartitionRestarted
  rw [hp]

theorem ffmPartitionRestarted_ok {runtime : Runtime} (h : RuntimeOk runtime) (id status : Int) :
    RuntimeOk (ffmPartitionRestarted runtime id status).2 := by
  cases hp : findPartition runtime id with
  | error =>
    unfold ffmPartitionRestarted
    rw [hp]
    exact h
  | ok p =>
    obtain ⟨contents, hlists⟩ := lists_of_holds h.queues
    obtain ⟨failed, released, hfailed, hgone, hafter⟩ :=
      ffmPartitionRestarted_restarted h hlists status hp
    have hok := hgone.ok (hfailed.ok h)
    obtain ⟨left, hleft, hsublist⟩ := hgone.lists
    have hlayout : released.layout = runtime.layout := hgone.layout.trans hfailed.layout
    rw [hafter]
    refine ⟨hok.layout, hok.tables, hok.queues, fun s hs => ?_⟩
    by_cases hsp : released.layout.partitionIndex s = p
    · have hosts : Hosts runtime.layout id s := by
        refine ⟨hlayout ▸ hs, ?_⟩
        rw [Layout.server, ← hlayout, hsp, hlayout]
        exact (findPartition_eq_ok hp).2.2
      have hempty : left s = [] := by
        have hsub := hsublist s
        rw [if_pos hosts] at hsub
        exact List.sublist_nil.mp hsub
      have hhead : released.queues.head s = none := by
        rw [hleft.represents.head_eq, hempty]
        rfl
      simp [Runtime.setAsserted, hsp, hhead]
    · simp only [Runtime.setAsserted, Function.update_of_ne hsp]
      exact hok.signals s hs

end WolfTrust.FfmRestart
