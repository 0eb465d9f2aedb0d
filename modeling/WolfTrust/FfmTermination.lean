import WolfTrust.FfmPreservation
import WolfTrust.TableLoops

namespace WolfTrust.FfmTermination

open Domain LinkedQueue SignalBits TableLoops FfmRuntime FfmRecovery FfmTables
  FfmQueues FfmInvariant

def Sent (caller : Int) (message : Message) : Prop :=
  message.allocated = true ∧ message.caller = caller

instance (caller : Int) (message : Message) : Decidable (Sent caller message) :=
  inferInstanceAs (Decidable (_ ∧ _))

def Opened (caller : Int) (connection : Connection) : Prop :=
  connection.allocated = true ∧ connection.caller = caller

instance (caller : Int) (connection : Connection) : Decidable (Opened caller connection) :=
  inferInstanceAs (Decidable (_ ∧ _))

/-- The queues are these lists of the waiting messages. -/
structure Lists (runtime : Runtime)
    (contents : ServiceIndex → List MessageIndex) : Prop where
  represents : Represents runtime.queues contents
  waits : ∀ s m, m ∈ contents s ↔ waiting (runtime.messages m) = some s

theorem Lists.holds {runtime : Runtime} {contents : ServiceIndex → List MessageIndex}
    (h : Lists runtime contents) : Holds runtime.queues runtime.messages :=
  ⟨contents, h.represents, h.waits⟩

theorem lists_of_holds {runtime : Runtime} (h : Holds runtime.queues runtime.messages) :
    ∃ contents, Lists runtime contents := by
  obtain ⟨contents, hrep, hmem⟩ := h
  exact ⟨contents, hrep, hmem⟩

variable {m : MessageIndex}

theorem Lists.release {runtime : Runtime} {contents : ServiceIndex → List MessageIndex}
    (h : Lists runtime contents) (hm : waiting (runtime.messages m) = none) :
    Lists (releaseMessage runtime m) contents := by
  refine ⟨h.represents.detach fun s hs => ?_, fun s n => ?_⟩
  · rw [h.waits, hm] at hs
    cases hs
  · rw [h.waits]
    by_cases hnm : n = m
    · subst hnm
      simp only [releaseMessage, Runtime.setMessage, Function.update_self]
      rw [hm]
      rfl
    · simp only [releaseMessage, Runtime.setMessage, Function.update_of_ne hnm]

theorem Lists.unlink {runtime : Runtime} {contents : ServiceIndex → List MessageIndex}
    (h : Lists runtime contents) {s : ServiceIndex}
    (hm : ∀ t, waiting (runtime.messages m) = some t → t = s) :
    Lists (releaseMessage (dequeueMessage runtime s m) m)
      (Function.update contents s ((contents s).erase m)) := by
  have hfuel : (contents s).length < ffmMaxMessages + 1 := by
    have hcard := (h.represents.nodup s).length_le_card
    rw [Fintype.card_fin] at hcard
    unfold ffmMaxMessages
    omega
  have hwaits := mem_update_iff h.waits (fun n hnm => List.mem_erase_of_ne hnm)
    (iff_of_false (h.represents.nodup s).not_mem_erase
      (show waiting (runtime.messages m).released ≠ some s by simp [waiting,
        Message.released, clearedMessage]))
    (fun t hts => iff_of_false (fun ht => hts (hm t ((h.waits t m).mp ht)))
      (show waiting (runtime.messages m).released ≠ some t by simp [waiting,
        Message.released, clearedMessage]))
  refine ⟨(h.represents.remove hfuel).detach fun t ht => ?_, hwaits⟩
  rw [hwaits, Function.update_self] at ht
  cases ht

theorem update_erase_sublist (contents : ServiceIndex → List MessageIndex) (s : ServiceIndex)
    (m : MessageIndex) (t : ServiceIndex) :
    (Function.update contents s ((contents s).erase m) t).Sublist (contents t) := by
  by_cases hts : t = s
  · rw [hts, Function.update_self]
    exact List.erase_sublist
  · rw [Function.update_of_ne hts]

theorem updateServiceSignal_bit {runtime : Runtime} {s : ServiceIndex}
    (hs : OneBit (runtime.layout.descriptor s).signal) {p : PartitionIndex}
    {bit : Word} (hbit : OneBit bit)
    (hne : runtime.layout.partitionIndex s = p → (runtime.layout.descriptor s).signal ≠ bit) :
    (updateServiceSignal runtime s).asserted p &&& bit ≠ 0 ↔ runtime.asserted p &&& bit ≠ 0 := by
  simp only [updateServiceSignal]
  by_cases hp : p = runtime.layout.partitionIndex s
  · rw [hp, Function.update_self]
    split
    · exact hs.clear_other hbit (hne hp.symm) _
    · exact hs.or_other hbit (hne hp.symm) _
  · rw [Function.update_of_ne hp]

/-- The signal bit of a service that keeps its queue. -/
def Untouched (layout : Layout) (messages : MessageIndex → Message)
    (gone : MessageIndex → Prop) (p : PartitionIndex) (bit : Word) : Prop :=
  ∀ s : ServiceIndex, layout.partitionIndex s = p → (layout.descriptor s).signal = bit →
    ∀ m, waiting (messages m) = some s → ¬gone m

/-- The message loop of a termination after it visited some slots. -/
structure Releasing (caller : Int) (before : Runtime)
    (contents : ServiceIndex → List MessageIndex)
    (visited : Set MessageIndex) (runtime : Runtime) : Prop where
  layout : runtime.layout = before.layout
  instances : runtime.instances = before.instances
  history : runtime.history = before.history
  connections : runtime.connections = before.connections
  gone : ∀ m ∈ visited, Sent caller (before.messages m) →
    runtime.messages m = (before.messages m).released
  stays : ∀ m, ¬(m ∈ visited ∧ Sent caller (before.messages m)) →
    runtime.messages m = before.messages m
  lists : ∃ left, Lists runtime left ∧ ∀ s, (left s).Sublist (contents s)
  signals : SignalsOk runtime.layout runtime.asserted runtime.queues
  bits : ∀ p bit, OneBit bit → Untouched before.layout before.messages
      (fun m => m ∈ visited ∧ Sent caller (before.messages m)) p bit →
    (runtime.asserted p &&& bit ≠ 0 ↔ before.asserted p &&& bit ≠ 0)

section MessageLoop

variable {caller : Int} {before runtime : Runtime}
  {contents : ServiceIndex → List MessageIndex} {visited : Set MessageIndex}
  {i : MessageIndex}

theorem Releasing.skip (h : Releasing caller before contents visited runtime)
    (hsent : ¬Sent caller (before.messages i)) :
    Releasing caller before contents (insert i visited) runtime := by
  have hsame : ∀ m, m ∈ insert i visited ∧ Sent caller (before.messages m) ↔
      m ∈ visited ∧ Sent caller (before.messages m) := by
    intro m
    constructor
    · rintro ⟨rfl | hm, hs⟩
      · exact absurd hs hsent
      · exact ⟨hm, hs⟩
    · rintro ⟨hm, hs⟩
      exact ⟨.inr hm, hs⟩
  refine ⟨h.layout, h.instances, h.history, h.connections, ?_, ?_, h.lists, h.signals, ?_⟩
  · intro m hm hs
    exact h.gone m ((hsame m).mp ⟨hm, hs⟩).1 hs
  · intro m hm
    exact h.stays m fun hv => hm ((hsame m).mpr hv)
  · intro p bit hbit huntouched
    refine h.bits p bit hbit fun s hp hs m hm hv => ?_
    exact huntouched s hp hs m hm ((hsame m).mpr hv)

theorem Releasing.extend (h : Releasing caller before contents visited runtime) (hi : i ∉ visited)
    (hsent : Sent caller (before.messages i)) {after : Runtime}
    (hlayout : after.layout = runtime.layout)
    (hinstances : after.instances = runtime.instances)
    (hhistory : after.history = runtime.history)
    (hconnections : after.connections = runtime.connections)
    (hmessages : after.messages = Function.update runtime.messages i (runtime.messages i).released)
    (hlists : ∃ left, Lists after left ∧ ∀ s, (left s).Sublist (contents s))
    (hsignals : SignalsOk after.layout after.asserted after.queues)
    (hbits : ∀ p bit, OneBit bit → Untouched before.layout before.messages (· = i) p bit →
      (after.asserted p &&& bit ≠ 0 ↔ runtime.asserted p &&& bit ≠ 0)) :
    Releasing caller before contents (insert i visited) after := by
  have hbefore : runtime.messages i = before.messages i := h.stays i fun hv => hi hv.1
  refine ⟨hlayout.trans h.layout, hinstances.trans h.instances,
    hhistory.trans h.history, hconnections.trans h.connections, ?_, ?_,
    hlists, hsignals, ?_⟩
  · intro m hm hs
    rw [hmessages]
    by_cases hmi : m = i
    · rw [hmi, Function.update_self, hbefore]
    · rw [Function.update_of_ne hmi]
      exact h.gone m (hm.resolve_left hmi) hs
  · intro m hm
    have hmi : m ≠ i := by
      rintro rfl
      exact hm ⟨.inl rfl, hsent⟩
    rw [hmessages, Function.update_of_ne hmi]
    exact h.stays m fun hv => hm ⟨.inr hv.1, hv.2⟩
  · intro p bit hbit huntouched
    refine (hbits p bit hbit fun s hp hs m hm hmi => ?_).trans
      (h.bits p bit hbit fun s hp hs m hm hv => ?_)
    · exact huntouched s hp hs m hm ⟨.inl hmi, hmi ▸ hsent⟩
    · exact huntouched s hp hs m hm ⟨.inr hv.1, hv.2⟩

theorem releaseClientMessage_step (hlayout : LayoutOk before.layout)
    (hbound : ∀ m s, waiting (before.messages m) = some s → s.val < before.layout.serviceCount)
    (h : Releasing caller before contents visited runtime) (hi : i ∉ visited) :
    Releasing caller before contents (insert i visited)
      (releaseClientMessage caller runtime i) := by
  have hbefore : runtime.messages i = before.messages i := h.stays i fun hv => hi hv.1
  obtain ⟨left, hlists, hsublist⟩ := h.lists
  unfold releaseClientMessage
  simp only [hbefore]
  split
  · rename_i hother
    refine h.skip fun hsent => ?_
    rcases hother with hfree | hcaller
    · rw [hsent.1] at hfree
      cases hfree
    · exact hcaller hsent.2
  rename_i hmine
  push Not at hmine
  have hsent : Sent caller (before.messages i) := ⟨by simpa using hmine.1, hmine.2⟩
  split
  · -- The message is queued: it is unlinked, and its service's signal follows.
    rename_i hqueued
    have hwaits : waiting (before.messages i) = some (before.messages i).serviceIndex := by
      simp [waiting, hsent.1, hqueued.1, hqueued.2]
    have hcount := hbound i _ hwaits
    have hown : ∀ t, waiting (runtime.messages i) = some t →
        t = (before.messages i).serviceIndex := by
      intro t ht
      rw [hbefore, hwaits] at ht
      exact (Option.some.inj ht).symm
    have hsignals := @SignalsOk.update
      { runtime with
        queues := runtime.queues.remove (ffmMaxMessages + 1) (before.messages i).serviceIndex i }
      (h.layout ▸ hlayout) (before.messages i).serviceIndex
      (h.layout ▸ hcount) runtime.queues h.signals
      (fun t hts => Queues.head_remove _ hts _ _)
    refine h.extend hi hsent rfl rfl rfl rfl rfl
      ⟨_, hlists.unlink hown, fun t => ?_⟩ (hsignals.congr rfl) ?_
    · exact (update_erase_sublist left _ i t).trans (hsublist t)
    · intro p bit hbit huntouched
      refine @updateServiceSignal_bit
        { runtime with
          queues := runtime.queues.remove (ffmMaxMessages + 1)
            (before.messages i).serviceIndex i } _
        (h.layout ▸ hlayout.oneBit _ hcount) p bit hbit fun hp hs => ?_
      exact huntouched _ (h.layout ▸ hp) (h.layout ▸ hs) i hwaits rfl
  · rename_i hqueued
    have hwaits : waiting (runtime.messages i) = none := by
      rw [hbefore]
      simp only [waiting]
      split
      · rename_i hwaiting
        simp only [Bool.and_eq_true, Bool.not_eq_true'] at hwaiting
        exact absurd ⟨hwaiting.2, hwaiting.1.2⟩ hqueued
      · rfl
    refine h.extend hi hsent rfl rfl rfl rfl rfl
      ⟨left, hlists.release hwaits, hsublist⟩ (h.signals.congr rfl) ?_
    intro p bit _ _
    exact Iff.rfl

end MessageLoop

section ConnectionLoop

variable {caller : Int} {before : Runtime}

/-- What the connection loop of a termination changes. -/
structure Freeing (caller : Int) (before : Runtime)
    (visited : Set ConnectionIndex) (runtime : Runtime) : Prop where
  others : runtime =
    { before with connections := runtime.connections }
  gone : ∀ c ∈ visited, Opened caller (before.connections c) →
    runtime.connections c = (before.connections c).released
  stays : ∀ c, ¬(c ∈ visited ∧ Opened caller (before.connections c)) →
    runtime.connections c = before.connections c

theorem releaseClientConnection_step {visited : Set ConnectionIndex} {state : Runtime × Nat}
    {i : ConnectionIndex} (h : Freeing caller before visited state.1) (hi : i ∉ visited) :
    Freeing caller before (insert i visited) (releaseClientConnection caller state i).1 := by
  have hbefore : state.1.connections i = before.connections i := h.stays i fun hv => hi hv.1
  unfold releaseClientConnection
  simp only [hbefore]
  split
  · rename_i hother
    have hclosed : ¬Opened caller (before.connections i) := by
      rintro ⟨hallocated, hcaller⟩
      rcases hother with hfree | hne
      · rw [hallocated] at hfree
        cases hfree
      · exact hne hcaller
    refine ⟨h.others, ?_, ?_⟩
    · rintro c (rfl | hc) hopened
      · exact absurd hopened hclosed
      · exact h.gone c hc hopened
    · intro c hc
      exact h.stays c fun hv => hc ⟨.inr hv.1, hv.2⟩
  · rename_i hmine
    push Not at hmine
    have hopened : Opened caller (before.connections i) := ⟨by simpa using hmine.1, hmine.2⟩
    have hconnections : (releaseConnection state.1 i).connections =
        Function.update state.1.connections i (before.connections i).released := by
      simp [releaseConnection, Runtime.setConnection, hbefore]
    refine ⟨?_, ?_, ?_⟩
    · rw [hconnections]
      nth_rewrite 1 [h.others]
      simp [releaseConnection, Runtime.setConnection, hbefore]
    · intro c hc hc'
      rw [hconnections]
      by_cases hci : c = i
      · rw [hci, Function.update_self]
      · rw [Function.update_of_ne hci]
        exact h.gone c (hc.resolve_left hci) hc'
    · intro c hc
      have hci : c ≠ i := by
        rintro rfl
        exact hc ⟨.inl rfl, hopened⟩
      rw [hconnections, Function.update_of_ne hci]
      exact h.stays c fun hv => hc ⟨.inr hv.1, hv.2⟩

end ConnectionLoop

/-- The state after client `caller` is gone. -/
structure ClientGone (caller : Int) (before : Runtime)
    (contents : ServiceIndex → List MessageIndex) (after : Runtime) :
    Prop where
  layout : after.layout = before.layout
  instances : after.instances = before.instances
  history : after.history = before.history
  message : ∀ m, after.messages m =
    if Sent caller (before.messages m) then (before.messages m).released
    else before.messages m
  connection : ∀ c, after.connections c =
    if Opened caller (before.connections c) then
      (before.connections c).released
    else before.connections c
  lists : ∃ left, Lists after left ∧ ∀ s, (left s).Sublist (contents s)
  signals : SignalsOk after.layout after.asserted after.queues
  bits : ∀ p bit, OneBit bit → Untouched before.layout before.messages
      (fun m => Sent caller (before.messages m)) p bit →
    (after.asserted p &&& bit ≠ 0 ↔ before.asserted p &&& bit ≠ 0)

/-- The termination of a client, from any state that keeps the invariant. -/
theorem ffmFailClientConnections_gone {runtime : Runtime} (h : RuntimeOk runtime)
    {contents : ServiceIndex → List MessageIndex} (hlists : Lists runtime contents) (caller : Int) :
    ClientGone caller runtime contents (ffmFailClientConnections runtime caller).2 := by
  have hbound : ∀ m s, waiting (runtime.messages m) = some s →
      s.val < runtime.layout.serviceCount := by
    intro m s hm
    obtain ⟨hallocated, -, -, rfl⟩ := waiting_service hm
    exact h.service_lt hallocated
  have hstart : Releasing caller runtime contents ∅ runtime := by
    refine ⟨rfl, rfl, rfl, rfl, fun m hm => absurd hm (Set.notMem_empty m),
      fun _ _ => rfl, ⟨contents, hlists, fun _ => .refl _⟩, h.signals,
      fun _ _ _ _ => Iff.rfl⟩
  have hmessages : Releasing caller runtime contents Set.univ
      ((List.finRange 8).foldl (releaseClientMessage caller) runtime) :=
    foldl_finRange hstart fun _ _ _ hi hs =>
      releaseClientMessage_step h.layout hbound hs hi
  generalize hreleased : (List.finRange 8).foldl (releaseClientMessage caller)
    runtime = released at hmessages
  have hconnections : Freeing caller released Set.univ
      ((List.finRange 16).foldl (releaseClientConnection caller) (released, 0)).1 :=
    foldl_finRange (P := fun visited (state : Runtime × Nat) =>
        Freeing caller released visited state.1)
      ⟨rfl, fun c hc => absurd hc (Set.notMem_empty c), fun _ _ => rfl⟩
      fun _ _ _ hi hs => releaseClientConnection_step hs hi
  have hresult : (ffmFailClientConnections runtime caller).2 =
      ((List.finRange 16).foldl (releaseClientConnection caller) (released, 0)).1 := by
    rw [← hreleased]
    rfl
  rw [hresult]
  generalize ((List.finRange 16).foldl (releaseClientConnection caller)
    (released, 0)).1 = freed at hconnections
  obtain ⟨left, hleft, hsublist⟩ := hmessages.lists
  have hothers := hconnections.others
  refine ⟨?_, ?_, ?_, fun m => ?_, fun c => ?_, ⟨left, ?_, hsublist⟩, ?_,
    fun p bit hbit huntouched => ?_⟩
  · rw [hothers]
    exact hmessages.layout
  · rw [hothers]
    exact hmessages.instances
  · rw [hothers]
    exact hmessages.history
  · rw [hothers]
    split
    · rename_i hsent
      exact hmessages.gone m trivial hsent
    · rename_i hsent
      exact hmessages.stays m fun hv => hsent hv.2
  · have hsame := congrFun hmessages.connections c
    rw [← hsame]
    split
    · rename_i hopened
      exact hconnections.gone c trivial hopened
    · rename_i hopened
      exact hconnections.stays c fun hv => hopened hv.2
  · rw [hothers]
    exact ⟨hleft.represents, hleft.waits⟩
  · rw [hothers]
    exact hmessages.signals
  · rw [hothers]
    refine hmessages.bits p bit hbit fun s hp hs m hm hv => ?_
    exact huntouched s hp hs m hm hv.2

section Gone

variable {caller : Int} {before after : Runtime}
  {contents : ServiceIndex → List MessageIndex}

theorem ClientGone.allocated (h : ClientGone caller before contents after)
    (hm : (after.messages m).allocated = true) :
    after.messages m = before.messages m ∧ (before.messages m).caller ≠ caller := by
  have hmessage := h.message m
  split at hmessage
  · rw [hmessage] at hm
    cases hm
  · rename_i hsent
    refine ⟨hmessage, fun hcaller => hsent ⟨?_, hcaller⟩⟩
    rw [← hmessage]
    exact hm

theorem ClientGone.connection_allocated (h : ClientGone caller before contents after)
    {c : ConnectionIndex} (hc : (after.connections c).allocated = true) :
    after.connections c = before.connections c ∧ (before.connections c).caller ≠ caller := by
  have hconnection := h.connection c
  split at hconnection
  · rw [hconnection] at hc
    cases hc
  · rename_i hopened
    refine ⟨hconnection, fun hcaller => hopened ⟨?_, hcaller⟩⟩
    rw [← hconnection]
    exact hc

theorem ClientGone.message_of_ne (h : ClientGone caller before contents after)
    (hm : (before.messages m).caller ≠ caller) : after.messages m = before.messages m := by
  rw [h.message m, if_neg fun hsent => hm hsent.2]

theorem ClientGone.connection_of_ne (h : ClientGone caller before contents after)
    {c : ConnectionIndex} (hc : (before.connections c).caller ≠ caller) :
    after.connections c = before.connections c := by
  rw [h.connection c, if_neg fun hopened => hc hopened.2]

theorem ClientGone.tables (h : ClientGone caller before contents after)
    (hok : TablesOk before.layout before.connections before.messages) :
    TablesOk after.layout after.connections after.messages := by
  refine ⟨fun c => ?_, fun m => ?_, fun m hm => ?_, fun m n hm hn hon => ?_, fun c hc hnone => ?_⟩
  · rw [h.layout, h.connection c]
    split
    · exact (hok.connection c).released
    · exact hok.connection c
  · rw [h.message m]
    split
    · exact (hok.message m).released
    · exact hok.message m
  · obtain ⟨hsame, hcaller⟩ := h.allocated hm
    rw [hsame] at hm ⊢
    have hbelongs := hok.belongs m hm
    rw [h.connection_of_ne (by rw [hbelongs.caller]; exact hcaller)]
    exact hbelongs
  · have hsame := (h.allocated hm).1
    have hsame' := (h.allocated hn).1
    rw [hsame] at hm hon
    rw [hsame'] at hn hon
    exact hok.unique m n hm hn hon
  · obtain ⟨hsame, hcaller⟩ := h.connection_allocated hc
    rw [hsame] at hc ⊢
    refine hok.alone c hc fun m hm hon => ?_
    -- A message on the connection has its caller, so it is still there.
    have hbelongs := hok.belongs m hm
    rw [hon] at hbelongs
    have hkept := h.message_of_ne (by rw [← hbelongs.caller]; exact hcaller)
    exact hnone m (by rw [hkept]; exact hm) (by rw [hkept]; exact hon)

theorem ClientGone.ok (h : ClientGone caller before contents after)
    (hok : RuntimeOk before) : RuntimeOk after := by
  obtain ⟨left, hleft, -⟩ := h.lists
  refine ⟨?_, h.tables hok.tables, hleft.holds, h.signals⟩
  rw [h.layout]
  exact hok.layout

end Gone

end WolfTrust.FfmTermination
