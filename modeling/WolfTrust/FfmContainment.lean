import WolfTrust.FfmBuffers
import WolfTrust.FfmHandles

namespace WolfTrust.FfmContainment

open Domain Manifest ByteMemory SlotLease FfmRuntime FfmService SpmGate
  FfmTables FfmLayout FfmMachine FfmDiscipline FfmSlots FfmHandles FfmBuffers

section Lasting

variable {before after : Runtime} {m : MessageIndex} {machine : Machine}

/-- Every delivery that is not answered and whose partition has not restarted
is what its slot holds. -/
def MessageLasting (runtime : Runtime) (m : MessageIndex) : Prop :=
  Lasting (messageGrants m) messageRevokes
    (messageLease runtime.layout m (runtime.messages m)) runtime.history

theorem MessageRun.lasting (h : MessageRun True True m before after)
    (hrecorded : MessageRecorded before m)
    (hlasting : MessageLasting before m) : MessageLasting after m := by
  -- the record is carried along, the move lemma asks for it at every step
  suffices MessageRecorded after m ∧ MessageLasting after m from this.2
  induction h with
  | refl => exact ⟨hrecorded, hlasting⟩
  | tail _ hstep ih =>
    obtain ⟨hrecorded, hlasting⟩ := ih
    refine ⟨MessageRun.recorded (.single hstep) hrecorded, ?_⟩
    obtain ⟨events, hhistory, hlayout, hmove⟩ := hstep
    unfold MessageLasting
    rw [hhistory, hlayout]
    exact (MessageMove.lease hmove).lasting hrecorded hlasting
      fun g hg => MessageMove.revoked hmove hg

/-- The steps that keep the invariant and terminate no client whose request is
active. -/
def Sparing (machine : Machine) (s : Step) : Prop :=
  Disciplined machine s ∧ SparesActive machine s

instance (machine : Machine) (s : Step) : Decidable (Sparing machine s) :=
  inferInstanceAs (Decidable (_ ∧ _))

/-- The record is complete: what was delivered lasts. -/
structure Contained (machine : Machine) : Prop where
  accounted : Accounted machine
  lasting : ∀ m, MessageLasting machine.runtime m

theorem step_contained (s : Step) (h : Contained machine)
    (hs : Sparing machine s) : Contained (step machine s) := by
  refine ⟨step_accounted s h.accounted hs.1, fun m => ?_⟩
  have hrun : MessageRun True True m machine.runtime _ :=
    step_messageRun_ok s h.accounted.ok hs.1.2 (fun _ => hs.2) m
  exact MessageRun.lasting hrun (h.accounted.message m) (h.lasting m)

theorem run_contained {manifest : SystemManifest} {features : Word}
    {platform : ProfileCapabilities} {runtime : Runtime}
    (hboot : Booted manifest features platform runtime) (memory : Memory) (steps : List Step)
    (hsteps : Along Sparing (start runtime memory) steps) :
    Contained (run (start runtime memory) steps) := by
  refine run_induction (fun machine s h hs => step_contained s h hs) steps _
    ⟨start_accounted hboot memory, fun m => ?_⟩ hsteps
  obtain ⟨count, -, -, rfl⟩ := ffmInit_eq_ok hboot.started
  exact .nil

end Lasting

section Accepted

variable {machine : Machine} {partition handle : Int} {m : MessageIndex}
  {a : Nat}

theorem Contained.accepted (h : Contained machine)
    (hdelivered : DeliveredTo machine.runtime.history partition handle m a) :
    messageFromHandle machine.runtime partition handle = .ok m := by
  obtain ⟨hheld, rfl⟩ := h.lasting m _ a hdelivered.1 (by simp [messageGrants]) hdelivered.2
  obtain ⟨hactive, hevent⟩ := held_eq hheld
  obtain ⟨rfl, rfl, -, -⟩ := Event.messageDelivered.inj hevent
  exact messageFromHandle_of_active h.accounted.ok.runtime hactive

end Accepted

/-- The statuses a server may answer a message of this type with. -/
def LegalReply (type status : Int) : Prop :=
  (type = psaIpcConnect → status = psaSuccess ∨
      status = psaErrorConnectionRefused ∨ status = psaErrorConnectionBusy) ∧
    (psaIpcCall ≤ type → status ≠ psaErrorConnectionRefused ∧ status ≠ psaErrorConnectionBusy)

instance (type status : Int) : Decidable (LegalReply type status) :=
  inferInstanceAs (Decidable (_ ∧ _))

/-- A call of a careful server on its message: it reads and skips a request
through its own memory, writes within the capacity that is left, and replies
with a legal status. -/
def Careful (message : Message) (domain : Option SecureDomain) (call : SpmCall) : Prop :=
  match call.op with
  | .setRhandle => True
  | .read => psaIpcCall ≤ message.type ∧ call.vecIdx < psaMaxIovec ∧
      spmCheckBuffer domain call.buffer call.numBytes true = .ok ()
  | .skip => psaIpcCall ≤ message.type ∧ call.vecIdx < psaMaxIovec
  | .write => psaIpcCall ≤ message.type ∧ call.vecIdx < psaMaxIovec ∧
      spmCheckBuffer domain call.buffer call.numBytes false = .ok () ∧
      (call.buffer = 0 → call.numBytes = 0) ∧
      call.numBytes ≤ message.outSize call.vecIdx - message.outPosition call.vecIdx
  | .reply => LegalReply message.type call.status
  | _ => False

section Gate

variable {runtime : Runtime} {partition handle : Int} {m : MessageIndex}

theorem ffmMsgAccessCheck_ok {vec : Nat} (hm : messageFromHandle runtime partition handle = .ok m)
    (htype : psaIpcCall ≤ (runtime.messages m).type) (hvec : vec < psaMaxIovec) :
    ffmMsgAccessCheck runtime partition handle vec = ffmSuccess := by
  unfold ffmMsgAccessCheck
  rw [if_neg (by omega), hm]
  exact if_neg (by omega)

theorem ffmSetRhandle_ok (rhandle : Nat) (hm : messageFromHandle runtime partition handle = .ok m) :
    (ffmSetRhandle runtime partition handle rhandle).1 = ffmSuccess := by
  unfold ffmSetRhandle
  rw [hm]
  dsimp only
  split <;> rfl

theorem Ledger.outSize_eq_zero {message : Message} {history : List Event}
    (h : Ledger m message history) {vec : Nat} (hvec : message.outCount ≤ vec) :
    message.outSize vec = 0 := by
  obtain ⟨hblank, -⟩ | ⟨-, inputs, outputs, -, hcarries⟩ := h.current
  · rw [hblank.outSize]
  · rw [hcarries.outCount] at hvec
    rw [hcarries.outSize]
    exact List.getD_eq_default _ _ (by simpa using hvec)

theorem ffmWrite_ok {memory : Memory} {vec buffer numBytes : Nat}
    (hm : messageFromHandle runtime partition handle = .ok m)
    (hledger : Ledger m (runtime.messages m) runtime.history)
    (htype : psaIpcCall ≤ (runtime.messages m).type)
    (hvec : vec < psaMaxIovec) (hbuffer : buffer = 0 → numBytes = 0)
    (hcapacity : numBytes ≤ (runtime.messages m).outSize vec -
      (runtime.messages m).outPosition vec) :
    (ffmWrite runtime memory partition handle vec buffer numBytes).1 =
      ffmSuccess := by
  have hrefused : ¬((buffer = 0 ∧ numBytes ≠ 0) ∨ vec ≥ psaMaxIovec) := by
    rintro (⟨hnull, hne⟩ | hlarge)
    · exact hne (hbuffer hnull)
    · omega
  unfold ffmWrite
  rw [if_neg hrefused, hm]
  dsimp only
  rw [if_neg (by omega)]
  by_cases homitted : vec ≥ (runtime.messages m).outCount
  · have hnone := Ledger.outSize_eq_zero hledger homitted
    rw [if_pos homitted]
    exact if_pos (by omega)
  · rw [if_neg homitted, if_neg (by omega)]

theorem repliedState_ok {type status : Int} (latch : Bool)
    (htype : type = psaIpcConnect ∨ type = psaIpcDisconnect ∨ psaIpcCall ≤ type)
    (hlegal : LegalReply type status) : ∃ state, repliedState type status latch = .ok state := by
  obtain ⟨hconnect, hcall⟩ := hlegal
  unfold repliedState
  rcases htype with rfl | rfl | htype
  · rw [if_pos rfl]
    rcases hconnect rfl with rfl | rfl | rfl
    · exact ⟨.idle, rfl⟩
    · exact ⟨.error, rfl⟩
    · exact ⟨.error, rfl⟩
  · exact ⟨.terminal, rfl⟩
  · obtain ⟨hrefused, hbusy⟩ := hcall htype
    have hc : type ≠ psaIpcConnect := by
      rintro rfl
      exact absurd htype (by decide)
    have hd : type ≠ psaIpcDisconnect := by
      rintro rfl
      exact absurd htype (by decide)
    rw [if_neg hc, if_neg hd, if_pos htype, if_neg (by simp [hrefused, hbusy])]
    split
    · exact ⟨.error, rfl⟩
    · exact ⟨.idle, rfl⟩

theorem ffmReply_ok {status : Int} (hm : messageFromHandle runtime partition handle = .ok m)
    (htype : (runtime.messages m).type = psaIpcConnect ∨
      (runtime.messages m).type = psaIpcDisconnect ∨
      psaIpcCall ≤ (runtime.messages m).type)
    (hlegal : LegalReply (runtime.messages m).type status) :
    (ffmReply runtime partition handle status).1 = ffmSuccess := by
  obtain ⟨state, hstate⟩ := repliedState_ok (runtime.connections
    (runtime.messages m).connectionIndex).errorLatch htype hlegal
  unfold ffmReply
  rw [hm]
  dsimp only
  rw [hstate]

theorem careful_call {machine : Machine} {ports : PortOps}
    {domain : Option SecureDomain} {call : SpmCall}
    (hm : messageFromHandle machine.runtime call.partitionId call.msgHandle = .ok m)
    (hok : MessageOk (machine.runtime.messages m))
    (hledger : Ledger m (machine.runtime.messages m) machine.runtime.history)
    (hcareful : Careful (machine.runtime.messages m) domain call) :
    (machine.gate ports domain call).call.mustPanic = false := by
  unfold Careful at hcareful
  unfold Machine.gate spmGate
  split at hcareful
  · rename_i hop
    simp [hop, gateSetRhandle, SpmCall.preset, SpmCall.result, ffmSetRhandle_ok call.rhandle hm]
  · rename_i hop
    obtain ⟨hcall, hvec, hbuffer⟩ := hcareful
    simp [hop, gateRead, SpmCall.preset, ffmMsgAccessCheck_ok hm hcall hvec, hbuffer]
  · rename_i hop
    obtain ⟨hcall, hvec⟩ := hcareful
    simp [hop, gateSkip, SpmCall.preset, ffmMsgAccessCheck_ok hm hcall hvec]
  · rename_i hop
    obtain ⟨hcall, hvec, hbuffer, hnull, hcapacity⟩ := hcareful
    simp [hop, gateWrite, SpmCall.preset, SpmCall.result, hbuffer,
      ffmWrite_ok hm hledger hcall hvec hnull hcapacity]
  · rename_i hop
    simp [hop, gateReply, SpmCall.preset, SpmCall.result, ffmReply_ok hm hok.type hcareful]
  · exact hcareful.elim

end Gate

/-- In every run that terminates no client while its request is active, a
careful call of a server on a message that was delivered to it and is not yet
answered is no programmer error. -/
theorem server_containment {manifest : SystemManifest} {features : Word}
    {platform : ProfileCapabilities} {runtime : Runtime}
    (hboot : Booted manifest features platform runtime) (memory : Memory) (steps : List Step)
    (hsteps : Along Sparing (start runtime memory) steps) :
    let machine := run (start runtime memory) steps
    ∀ partition handle m a, DeliveredTo machine.runtime.history partition handle m a →
      ∀ ports domain (call : SpmCall), call.partitionId = partition → call.msgHandle = handle →
        Careful (machine.runtime.messages m) domain call →
        (machine.gate ports domain call).call.mustPanic = false := by
  intro machine partition handle m a hdelivered ports domain call hid hhandle hcareful
  subst hid hhandle
  have hcontained := run_contained hboot memory steps hsteps
  exact careful_call (hcontained.accepted hdelivered)
    (hcontained.accounted.ok.runtime.tables.message m)
    (run_ledger hboot memory steps m) hcareful

/-- Service 1 of partition 3 takes the connect request of client -1. -/
def takenRun : List Step :=
  [.connect (-1) 200 1, sampleGate (getBlock 3)]

/-- The call of client -1 ended, and partition 3 still answers. -/
theorem server_containment_sample :
    let steps := takenRun ++ [.dispatched openPorts 0]
    let machine := run sampleMachine steps
    Along Sparing sampleMachine steps ∧ Event.messageDelivered 3 193 0 0 ∈ machine.runtime.history ∧
      (machine.gate openPorts none (replyBlock 3 193)).call.mustPanic =
        false := by
  intro steps machine
  have hsteps : Along Sparing sampleMachine steps := by decide +kernel
  have hhistory : machine.runtime.history =
      [.messageDelivered 3 193 0 0, .connectionOpened (-1) 161 0 0] := by
    decide +kernel
  have hdelivered : DeliveredTo machine.runtime.history 3 193 0 0 := by
    rw [hhistory]
    exact ⟨List.mem_cons_self, .first (by decide)⟩
  have hlegal : LegalReply (machine.runtime.messages 0).type psaSuccess := by decide +kernel
  exact ⟨hsteps, hdelivered.1, server_containment sampleRuntime_booted
    sampleMemory steps hsteps 3 193 0 0 hdelivered openPorts none
    (replyBlock 3 193) rfl rfl hlegal⟩

/-- The same, but client -1 is terminated before the answer: its message is
released and the server's answer is a programmer error. -/
theorem terminated_client_panics_server :
    let got := run sampleMachine takenRun
    let steps := takenRun ++ [.dispatched openPorts 0, .failClient (-1)]
    let machine := run sampleMachine steps
    Along Disciplined sampleMachine steps ∧
      Careful (got.runtime.messages 0) none (replyBlock 3 193) ∧
      machine.runtime.history = [.messageDelivered 3 193 0 0, .connectionOpened (-1) 161 0 0] ∧
      (machine.gate openPorts none (replyBlock 3 193)).call.mustPanic =
        true := by
  intro got steps machine
  have hlegal : LegalReply (got.runtime.messages 0).type psaSuccess := by decide +kernel
  exact ⟨by decide +kernel, hlegal, by decide +kernel, by decide +kernel⟩

end WolfTrust.FfmContainment
