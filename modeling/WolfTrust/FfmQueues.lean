import WolfTrust.FfmRuntime
import WolfTrust.SignalBits

namespace WolfTrust.FfmQueues

open Domain SignalBits LinkedQueue FfmRuntime

/-- The service a message waits for: it is allocated, not active and not
complete. -/
def waiting (message : Message) : Option ServiceIndex :=
  if message.allocated && !message.active && !message.complete then
    some message.serviceIndex
  else none

def Holds (queues : Queues ServiceIndex MessageIndex) (messages : MessageIndex → Message) : Prop :=
  ∃ contents, Represents queues contents ∧ ∀ s m, m ∈ contents s ↔ waiting (messages m) = some s

section Holds

variable {queues : Queues ServiceIndex MessageIndex} {messages : MessageIndex → Message}
  {m : MessageIndex} {message : Message} {s : ServiceIndex}

theorem Holds.waiting_of_head (h : Holds queues messages)
    (hhead : queues.head s = some m) : waiting (messages m) = some s := by
  obtain ⟨contents, hrep, hmem⟩ := h
  rw [hrep.head_eq] at hhead
  exact (hmem s m).mp (List.mem_of_mem_head? hhead)

theorem Holds.update_message (h : Holds queues messages)
    (hsame : waiting message = waiting (messages m)) :
    Holds queues (Function.update messages m message) := by
  obtain ⟨contents, hrep, hmem⟩ := h
  refine ⟨contents, hrep, fun s n => ?_⟩
  by_cases hnm : n = m
  · rw [hnm, Function.update_self, hsame]
    exact hmem s m
  · rw [Function.update_of_ne hnm]
    exact hmem s n

theorem Holds.detach (h : Holds queues messages)
    (hm : waiting (messages m) = none) : Holds (queues.detach m) messages := by
  obtain ⟨contents, hrep, hmem⟩ := h
  refine ⟨contents, hrep.detach fun s hs => ?_, hmem⟩
  rw [hmem, hm] at hs
  cases hs

theorem mem_update_iff {contents : ServiceIndex → List MessageIndex}
    (hmem : ∀ s m, m ∈ contents s ↔ waiting (messages m) = some s) {cells : List MessageIndex}
    (hcells : ∀ n, n ≠ m → (n ∈ cells ↔ n ∈ contents s))
    (hself : m ∈ cells ↔ waiting message = some s)
    (hother : ∀ t, t ≠ s → (m ∈ contents t ↔ waiting message = some t)) (t : ServiceIndex)
    (n : MessageIndex) :
    n ∈ Function.update contents s cells t ↔
      waiting (Function.update messages m message n) = some t := by
  by_cases hts : t = s <;> by_cases hnm : n = m
  · rw [hts, hnm, Function.update_self, Function.update_self]
    exact hself
  · rw [hts, Function.update_self, Function.update_of_ne hnm, hcells n hnm]
    exact hmem s n
  · rw [hnm, Function.update_of_ne hts, Function.update_self]
    exact hother t hts
  · rw [Function.update_of_ne hts, Function.update_of_ne hnm]
    exact hmem t n

theorem Holds.push (h : Holds queues messages) (hm : waiting (messages m) = none)
    (hlink : queues.next m = none) (hmessage : waiting message = some s) :
    Holds (queues.push s m) (Function.update messages m message) := by
  obtain ⟨contents, hrep, hmem⟩ := h
  have hfree : ∀ t, m ∉ contents t := by
    intro t ht
    rw [hmem, hm] at ht
    cases ht
  refine ⟨_, hrep.push hfree hlink, mem_update_iff hmem ?_ ?_ ?_⟩
  · intro n hnm
    simp [hnm]
  · simp [hmessage]
  · intro t hts
    rw [hmessage]
    exact iff_of_false (hfree t) fun heq => hts (Option.some.inj heq).symm

theorem Holds.pop (h : Holds queues messages)
    (hhead : queues.head s = some m) (hmessage : waiting message = none) :
    Holds (queues.pop s m) (Function.update messages m message) := by
  obtain ⟨contents, hrep, hmem⟩ := h
  obtain ⟨rest, hs⟩ : ∃ rest, contents s = m :: rest := by
    rw [hrep.head_eq] at hhead
    exact List.head?_eq_some_iff.mp hhead
  have hnodup := hrep.nodup s
  rw [hs] at hnodup
  refine ⟨_, hrep.pop hs, mem_update_iff hmem ?_ ?_ ?_⟩
  · intro n hnm
    simp [hs, hnm]
  · rw [hmessage]
    exact iff_of_false (List.nodup_cons.mp hnodup).1 (by simp)
  · intro t hts
    rw [hmessage]
    refine iff_of_false (fun ht => hts ?_) (by simp)
    exact hrep.disjoint t s m ht (by simp [hs])

theorem Holds.remove (h : Holds queues messages) (hm : ∀ t, waiting (messages m) = some t → t = s)
    (hmessage : waiting message = none) :
    Holds (queues.remove (ffmMaxMessages + 1) s m) (Function.update messages m message) := by
  obtain ⟨contents, hrep, hmem⟩ := h
  have hfuel : (contents s).length < ffmMaxMessages + 1 := by
    have hcard := (hrep.nodup s).length_le_card
    rw [Fintype.card_fin] at hcard
    unfold ffmMaxMessages
    omega
  refine ⟨_, hrep.remove hfuel, mem_update_iff hmem ?_ ?_ ?_⟩
  · intro n hnm
    exact List.mem_erase_of_ne hnm
  · rw [hmessage]
    exact iff_of_false (hrep.nodup s).not_mem_erase (by simp)
  · intro t hts
    rw [hmessage]
    refine iff_of_false (fun ht => hts ?_) (by simp)
    exact hm t ((hmem t m).mp ht)

end Holds

/-- What the runtime relies on in the tables made from the manifest. -/
structure LayoutOk (layout : Layout) : Prop where
  partition : ∀ s : ServiceIndex, s.val < layout.serviceCount →
    (layout.partitionIndex s).val < layout.partitionCount
  oneBit : ∀ s : ServiceIndex, s.val < layout.serviceCount → OneBit (layout.descriptor s).signal
  distinct : ∀ s t : ServiceIndex, s.val < layout.serviceCount → t.val < layout.serviceCount →
    layout.partitionIndex s = layout.partitionIndex t →
    (layout.descriptor s).signal = (layout.descriptor t).signal → s = t
  doorbell : ∀ s : ServiceIndex, s.val < layout.serviceCount →
    (layout.descriptor s).signal ≠ psaDoorbell
  interrupt : ∀ p : PartitionIndex, p.val < layout.partitionCount →
    ∀ i ∈ (layout.manifest p).interrupts, OneBit i.signal ∧
      ∀ s : ServiceIndex, s.val < layout.serviceCount →
        layout.partitionIndex s = p → (layout.descriptor s).signal ≠ i.signal
  domainId : ∀ p q : PartitionIndex, p.val < layout.partitionCount → q.val < layout.partitionCount →
    (layout.manifest p).domainId = (layout.manifest q).domainId → p = q

/-- A service's signal is asserted exactly while its queue is not empty. -/
def SignalsOk (layout : Layout) (asserted : PartitionIndex → Word)
    (queues : Queues ServiceIndex MessageIndex) : Prop :=
  ∀ s : ServiceIndex, s.val < layout.serviceCount →
    (asserted (layout.partitionIndex s) &&& (layout.descriptor s).signal ≠ 0 ↔ queues.head s ≠ none)

theorem SignalsOk.congr {layout : Layout} {asserted : PartitionIndex → Word}
    {queues queues' : Queues ServiceIndex MessageIndex} (h : SignalsOk layout asserted queues)
    (hheads : queues'.head = queues.head) : SignalsOk layout asserted queues' := by
  intro s hs
  rw [hheads]
  exact h s hs

theorem SignalsOk.update {runtime : Runtime} (hlayout : LayoutOk runtime.layout)
    {s : ServiceIndex} (hs : s.val < runtime.layout.serviceCount)
    {queues : Queues ServiceIndex MessageIndex}
    (h : SignalsOk runtime.layout runtime.asserted queues)
    (hheads : ∀ t, t ≠ s → runtime.queues.head t = queues.head t) :
    SignalsOk runtime.layout (updateServiceSignal runtime s).asserted
      runtime.queues := by
  intro t ht
  have hbit := hlayout.oneBit s hs
  by_cases hts : t = s
  · subst hts
    simp only [updateServiceSignal, Function.update_self]
    cases hhead : runtime.queues.head t with
    | none => simpa using hbit.clear_self (runtime.asserted _)
    | some => simpa using hbit.or_self (runtime.asserted _)
  · rw [hheads t hts, ← h t ht]
    simp only [updateServiceSignal]
    by_cases hp : runtime.layout.partitionIndex t = runtime.layout.partitionIndex s
    · have hne : (runtime.layout.descriptor s).signal ≠ (runtime.layout.descriptor t).signal :=
        fun heq => hts (hlayout.distinct t s ht hs hp heq.symm)
      rw [hp, Function.update_self]
      split
      · exact hbit.clear_other (hlayout.oneBit t ht) hne _
      · exact hbit.or_other (hlayout.oneBit t ht) hne _
    · rw [Function.update_of_ne hp]

end WolfTrust.FfmQueues
