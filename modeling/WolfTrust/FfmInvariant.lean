import WolfTrust.FfmClient
import WolfTrust.FfmQueues
import WolfTrust.FfmTables

namespace WolfTrust.FfmInvariant

open LinkedQueue FfmRuntime FfmTables FfmQueues

structure RuntimeOk (runtime : Runtime) : Prop where
  layout : LayoutOk runtime.layout
  tables : TablesOk runtime.layout runtime.connections runtime.messages
  queues : Holds runtime.queues runtime.messages
  signals : SignalsOk runtime.layout runtime.asserted runtime.queues

theorem waiting_of_free {message : Message}
    (h : message.allocated = false) : waiting message = none := by
  simp [waiting, h]

theorem waiting_of_active {message : Message}
    (h : message.active = true) : waiting message = none := by
  simp [waiting, h]

theorem waiting_of_complete {message : Message}
    (h : message.complete = true) : waiting message = none := by
  simp [waiting, h]

theorem waiting_service {message : Message} {s : ServiceIndex} (h : waiting message = some s) :
    message.allocated = true ∧ message.active = false ∧
      message.complete = false ∧ message.serviceIndex = s := by
  unfold waiting at h
  split at h
  · rename_i hwaits
    simp only [Bool.and_eq_true, Bool.not_eq_true'] at hwaits
    exact ⟨hwaits.1.1, hwaits.1.2, hwaits.2, Option.some.inj h⟩
  · cases h

theorem RuntimeOk.service_lt {runtime : Runtime} (h : RuntimeOk runtime)
    {m : MessageIndex} (hm : (runtime.messages m).allocated = true) :
    (runtime.messages m).serviceIndex.val < runtime.layout.serviceCount := by
  have hbelongs := h.tables.belongs m hm
  rw [← hbelongs.service]
  exact (h.tables.connection _).service hbelongs.allocated

section Transitions

variable {runtime : Runtime} {connections : ConnectionIndex → Connection} {history : List Event}
  {m : MessageIndex} {message : Message} {s : ServiceIndex}

theorem RuntimeOk.change_connections (h : RuntimeOk runtime)
    (htables : TablesOk runtime.layout connections runtime.messages) :
    RuntimeOk { runtime with connections := connections, history := history } :=
  ⟨h.layout, htables, h.queues, h.signals⟩

theorem RuntimeOk.change_message (h : RuntimeOk runtime)
    (hwaiting : waiting message = waiting (runtime.messages m))
    (htables : TablesOk runtime.layout connections (Function.update runtime.messages m message)) :
    RuntimeOk
      { runtime with
        connections := connections
        messages := Function.update runtime.messages m message
        history := history } :=
  ⟨h.layout, htables, h.queues.update_message hwaiting, h.signals⟩

theorem RuntimeOk.enqueue (h : RuntimeOk runtime) (hs : s.val < runtime.layout.serviceCount)
    (hm : waiting (runtime.messages m) = none) (hmessage : waiting message = some s)
    (htables : TablesOk runtime.layout connections (Function.update runtime.messages m message)) :
    RuntimeOk (enqueue
      { runtime with
        connections := connections
        messages := Function.update runtime.messages m message
        queues := runtime.queues.detach m
        history := history } s m) := by
  have hlink : (runtime.queues.detach m).next m = none := by simp [Queues.detach]
  have hheads : ∀ t, t ≠ s →
      ((runtime.queues.detach m).push s m).head t = runtime.queues.head t := by
    intro t hts
    rw [Queues.head_push _ hts]
    rfl
  have hsignals := @SignalsOk.update
    { runtime with
      connections := connections
      messages := Function.update runtime.messages m message
      queues := (runtime.queues.detach m).push s m
      history := history } h.layout s hs runtime.queues h.signals hheads
  exact ⟨h.layout, htables, (h.queues.detach hm).push hm hlink hmessage, hsignals⟩

theorem RuntimeOk.deliver (h : RuntimeOk runtime) (hs : s.val < runtime.layout.serviceCount)
    (hhead : runtime.queues.head s = some m) (hmessage : waiting message = none)
    (htables : TablesOk runtime.layout connections (Function.update runtime.messages m message)) :
    RuntimeOk (updateServiceSignal
      { runtime with
        connections := connections
        messages := Function.update runtime.messages m message
        queues := runtime.queues.pop s m
        history := history } s) := by
  have hheads : ∀ t, t ≠ s → (runtime.queues.pop s m).head t = runtime.queues.head t :=
    fun t hts => Queues.head_pop _ hts m
  have hsignals := @SignalsOk.update
    { runtime with
      connections := connections
      messages := Function.update runtime.messages m message
      queues := runtime.queues.pop s m
      history := history } h.layout s hs runtime.queues h.signals hheads
  exact ⟨h.layout, htables, h.queues.pop hhead hmessage, hsignals⟩

theorem RuntimeOk.release (h : RuntimeOk runtime) (hm : waiting (runtime.messages m) = none)
    (hmessage : waiting message = none)
    (htables : TablesOk runtime.layout connections (Function.update runtime.messages m message)) :
    RuntimeOk
      { runtime with
        connections := connections
        messages := Function.update runtime.messages m message
        queues := runtime.queues.detach m
        history := history } :=
  ⟨h.layout, htables, (h.queues.detach hm).update_message (hmessage.trans hm.symm),
    h.signals.congr rfl⟩

theorem RuntimeOk.unlink (h : RuntimeOk runtime)
    (hs : s.val < runtime.layout.serviceCount)
    (hm : ∀ t, waiting (runtime.messages m) = some t → t = s)
    (htables : TablesOk runtime.layout connections
      (Function.update runtime.messages m (runtime.messages m).released)) :
    RuntimeOk (releaseMessage (dequeueMessage
      { runtime with connections := connections, history := history } s m)
      m) := by
  have hcleared : waiting (runtime.messages m).released = none := rfl
  have hheads : ∀ t, t ≠ s → (runtime.queues.remove (ffmMaxMessages + 1) s m).head t =
        runtime.queues.head t :=
    fun t hts => Queues.head_remove _ hts _ _
  have hsignals := @SignalsOk.update
    { runtime with
      connections := connections
      queues := runtime.queues.remove (ffmMaxMessages + 1) s m
      history := history } h.layout s hs runtime.queues h.signals hheads
  have hqueues := (h.queues.remove hm hcleared).detach
    (by rw [Function.update_self]; exact hcleared)
  exact ⟨h.layout, htables, hqueues, hsignals.congr rfl⟩

end Transitions

end WolfTrust.FfmInvariant
