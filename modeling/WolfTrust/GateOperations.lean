import WolfTrust.FfmOperations

namespace WolfTrust.GateOperations

open Domain FfmRuntime FfmClient FfmTransition FfmOperations SpmGate

/-- A call on an idle connection finds no request of its client there. -/
def FreshCall (runtime : Runtime) (caller handle : Int) : Prop :=
  ∀ c, connectionFromHandle runtime caller handle = .ok c →
    (runtime.connections c).state = .idle → ¬Unharvested runtime c

instance (runtime : Runtime) (caller handle : Int) : Decidable (FreshCall runtime caller handle) :=
  inferInstanceAs (Decidable (∀ _, _ → _ → _))

/-- A close finds no request of its client on the connection. -/
def FreshClose (runtime : Runtime) (caller handle : Int) : Prop :=
  ∀ c, connectionFromHandle runtime caller handle = .ok c → (runtime.connections c).state = .idle ∨
      (runtime.connections c).state = .error → ¬Unharvested runtime c

instance (runtime : Runtime) (caller handle : Int) : Decidable (FreshClose runtime caller handle) :=
  inferInstanceAs (Decidable (∀ _, _ → _ → _))

/-- The message a resumed client operation harvests. -/
def Harvests (runtime : Runtime) (call : SpmCall) (m : MessageIndex) : Prop :=
  (call.op = .connect ∨ call.op = .call ∨ call.op = .close) ∧
    call.pendingValid = true ∧ spmPendingOwned runtime call = some m ∧
    (runtime.messages m).complete = true

instance (runtime : Runtime) (call : SpmCall) (m : MessageIndex) :
    Decidable (Harvests runtime call m) :=
  inferInstanceAs (Decidable (_ ∧ _ ∧ _ ∧ _))

theorem Harvests.resumes {runtime : Runtime} {call : SpmCall} {m : MessageIndex}
    (h : Harvests runtime call m) : call.preset.pendingValid ≠ false ∧
      spmPendingOwned runtime call.preset = some m ∧ ffmMsgComplete runtime m = true := by
  obtain ⟨-, hpending, howned, hcomplete⟩ := h
  refine ⟨?_, howned, by simp [ffmMsgComplete, hcomplete, (spmPendingOwned_eq_some howned).1]⟩
  rw [show call.preset.pendingValid = true from hpending]
  decide

def FreshBlock (runtime : Runtime) (call : SpmCall) : Prop :=
  call.pendingValid = false → (call.op = .call →
      FreshCall runtime call.partitionId call.msgHandle) ∧
    (call.op = .close → FreshClose runtime call.partitionId call.msgHandle)

instance (runtime : Runtime) (call : SpmCall) : Decidable (FreshBlock runtime call) :=
  inferInstanceAs (Decidable (_ → _))

/-- The signals that a call block changes besides those of the services: the
doorbell it rings or clears and the interrupt it ends. -/
def RingsBlock (runtime : Runtime) (call : SpmCall) (p : PartitionIndex) (bit : Word) : Prop :=
  (call.op = .notify ∧ findPartition runtime call.notifyPartition = .ok p ∧ bit = psaDoorbell) ∨
  (call.op = .clear ∧ findPartition runtime call.partitionId = .ok p ∧ bit = psaDoorbell) ∨
  (call.op = .eoi ∧ findPartition runtime call.partitionId = .ok p ∧ bit = call.signalMask)

section Gate

variable {rings : PartitionIndex → Word → Prop} {fresh guarded : Prop}
  {kept : Set MessageIndex} {g : GateState}

theorem gateResume_transition {finish : MessageIndex → GateState}
    (hfinish : ∀ m, spmPendingOwned g.runtime g.call = some m →
      (g.runtime.messages m).complete = true →
      Transition rings fresh guarded kept g.call.partitionId g.runtime (finish m).runtime) :
    Transition rings fresh guarded kept g.call.partitionId g.runtime
      (gateResume g finish).runtime := by
  unfold gateResume
  split
  · exact .stay
  rename_i m hm
  split
  · exact .stay
  · rename_i hcomplete
    simp only [ffmMsgComplete, Bool.not_eq_true', Bool.not_eq_false, Bool.and_eq_true] at hcomplete
    exact hfinish m hm hcomplete.2

theorem gateConnect_transition (hkept : g.call.pendingValid = true → ∀ m,
      spmPendingOwned g.runtime g.call = some m →
      (g.runtime.messages m).complete = true → m ∉ kept) :
    Transition rings fresh guarded kept g.call.partitionId g.runtime (gateConnect g).runtime := by
  unfold gateConnect
  split
  · have hbegins : Begins rings fresh guarded kept _ _ _ _ := connectRequest_begins g.runtime
      g.call.partitionId g.call.sid g.call.version
    unfold gateConnectBegin
    simp only
    split
    · exact hbegins.transition
    · exact hbegins.transition
  · rename_i hpending
    refine gateResume_transition fun m hm hcomplete => ?_
    obtain ⟨hallocated, hcaller⟩ := spmPendingOwned_eq_some hm
    exact ffmConnectFinish_transition
      (hkept (by simpa using hpending) m hm hcomplete) hcomplete hallocated
      hcaller

theorem gateCall_transition (ports : PortOps) (domain : Option SecureDomain)
    (hfresh : fresh → g.call.pendingValid = false →
      FreshCall g.runtime g.call.partitionId g.call.msgHandle)
    (hkept : g.call.pendingValid = true → ∀ m, spmPendingOwned g.runtime g.call = some m →
      (g.runtime.messages m).complete = true → m ∉ kept) :
    Transition rings fresh guarded kept g.call.partitionId g.runtime
      (gateCall ports domain g).runtime := by
  unfold gateCall
  split
  · rename_i hpending
    have hbegins : Begins rings fresh guarded kept _ _ _ _ := callRequest_begins ports
      g.runtime g.memory g.call.partitionId g.call.msgHandle g.call.callType
      g.call.inVec g.call.outVec fun hg => hfresh hg hpending
    unfold gateCallBegin
    split
    · exact .stay
    simp only
    split
    · exact hbegins.transition
    · exact hbegins.transition
  · rename_i hpending
    refine gateResume_transition fun m hm hcomplete => ?_
    obtain ⟨hallocated, hcaller⟩ := spmPendingOwned_eq_some hm
    exact ffmCallFinish_transition ports g.memory g.call.outVec
      (hkept (by simpa using hpending) m hm hcomplete) hcomplete hallocated
      hcaller

theorem gateClose_transition (hfresh : fresh → g.call.pendingValid = false →
      FreshClose g.runtime g.call.partitionId g.call.msgHandle)
    (hkept : g.call.pendingValid = true → ∀ m, spmPendingOwned g.runtime g.call = some m →
      (g.runtime.messages m).complete = true → m ∉ kept) :
    Transition rings fresh guarded kept g.call.partitionId g.runtime (gateClose g).runtime := by
  unfold gateClose
  split
  · rename_i hpending
    have hbegins : Begins rings fresh guarded kept _ _ _ _ := closeRequest_begins
      g.runtime g.call.partitionId g.call.msgHandle
      fun hg => hfresh hg hpending
    unfold gateCloseBegin
    simp only
    split
    · exact hbegins.transition
    · exact hbegins.transition
    · exact hbegins.transition
  · rename_i hpending
    refine gateResume_transition fun m hm hcomplete => ?_
    obtain ⟨hallocated, hcaller⟩ := spmPendingOwned_eq_some hm
    exact ffmCloseFinish_transition
      (hkept (by simpa using hpending) m hm hcomplete) hcomplete hallocated
      hcaller

theorem gateGet_transition (domain : Option SecureDomain) :
    Transition rings fresh guarded kept g.call.partitionId g.runtime
      (gateGet domain g).runtime := by
  unfold gateGet
  split
  · exact .stay
  simp only
  split
  · exact ffmGet_transition _
  · exact ffmGet_transition _

theorem gateRead_transition (domain : Option SecureDomain) :
    Transition rings fresh guarded kept g.call.partitionId g.runtime
      (gateRead domain g).runtime := by
  unfold gateRead
  simp only
  split
  · exact .stay
  split
  · exact .stay
  · exact ffmRead_transition _ _ _ _

theorem gateSkip_transition : Transition rings fresh guarded kept g.call.partitionId g.runtime
      (gateSkip g).runtime := by
  unfold gateSkip
  simp only
  split
  · exact .stay
  · exact ffmSkip_transition _ _

theorem gateWrite_transition (domain : Option SecureDomain) :
    Transition rings fresh guarded kept g.call.partitionId g.runtime
      (gateWrite domain g).runtime := by
  unfold gateWrite
  split
  · exact .stay
  · exact ffmWrite_transition _ _ _ _

theorem gateIrqLookup_runtime (g : GateState) : (gateIrqLookup g).runtime = g.runtime := by
  unfold gateIrqLookup
  split <;> rfl

theorem gateEoi_transition (hrings : ∀ p, findPartition g.runtime g.call.partitionId = .ok p →
      rings p g.call.signalMask) :
    Transition rings fresh guarded kept g.call.partitionId g.runtime (gateEoi g).runtime := by
  unfold gateEoi
  simp only
  split
  · exact .stay
  · rw [gateIrqLookup_runtime]
    exact ffmEoi_transition _ _ hrings

theorem spmGate_transition (ports : PortOps) (domain : Option SecureDomain)
    (hrings : ∀ p bit, RingsBlock g.runtime g.call p bit → rings p bit)
    (hfresh : fresh → FreshBlock g.runtime g.call)
    (hkept : ∀ m, Harvests g.runtime g.call m → m ∉ kept) :
    Transition rings fresh guarded kept g.call.partitionId g.runtime
      (spmGate ports domain g).2.runtime := by
  have hpending (hop : g.call.op = .connect ∨ g.call.op = .call ∨
      g.call.op = .close) (hvalid : g.call.pendingValid = true)
      (m : MessageIndex) (hm : spmPendingOwned g.runtime g.call = some m)
      (hcomplete : (g.runtime.messages m).complete = true) : m ∉ kept :=
    hkept m ⟨hop, hvalid, hm, hcomplete⟩
  let held : GateState := { g with call := g.call.preset }
  unfold spmGate
  simp only
  split
  · change Transition rings fresh guarded kept _ _ (gateWait domain held).runtime
    unfold gateWait
    split
    · exact .stay
    · exact .stay
  · exact @gateGet_transition rings fresh guarded kept held domain
  · exact ffmSetRhandle_transition _
  · exact @gateRead_transition rings fresh guarded kept held domain
  · exact @gateSkip_transition rings fresh guarded kept held
  · exact @gateWrite_transition rings fresh guarded kept held domain
  · exact ffmReply_transition
  · rename_i hop
    exact ffmNotify_transition _ fun p hp => hrings p _ (.inl ⟨hop, hp, rfl⟩)
  · rename_i hop
    exact ffmClear_transition _ fun p hp => hrings p _ (.inr (.inl ⟨hop, hp, rfl⟩))
  · exact .stay
  · rename_i hop
    exact @gateConnect_transition rings fresh guarded kept held (hpending (.inl hop))
  · rename_i hop
    exact @gateCall_transition rings fresh guarded kept held ports domain
      (fun hg hvalid => (hfresh hg hvalid).1 hop)
      (hpending (.inr (.inl hop)))
  · rename_i hop
    exact @gateClose_transition rings fresh guarded kept held
      (fun hg hvalid => (hfresh hg hvalid).2 hop)
      (hpending (.inr (.inr hop)))
  · rename_i hop
    exact @gateEoi_transition rings fresh guarded kept held
      fun p hp => hrings p _ (.inr (.inr ⟨hop, hp, rfl⟩))
  · change Transition rings fresh guarded kept _ _ (gateIrqLookup held).runtime
    rw [gateIrqLookup_runtime]
    exact .stay
  all_goals exact .stay

end Gate

end WolfTrust.GateOperations
