import WolfTrust.FfmTables

namespace WolfTrust.FfmVectors

open Domain ByteMemory FfmRuntime FfmTables

inductive IpcError
  | vectorCount
  | vectorAddress
  | vectorOverflow
  | vectorLimit
  deriving DecidableEq, Repr

def sizeMax : Nat := 2 ^ 32 - 1
def ipcMaxVectors : Nat := 4

def ipcValidateVectorList : List IoVec → Nat → Except IpcError Nat
  | [], total => .ok total
  | vector :: rest, total =>
    if vector.len ≠ 0 ∧ vector.base = 0 then .error .vectorAddress
    else if vector.len > uintptrMax - vector.base then .error .vectorOverflow
    else if vector.len > sizeMax - total then .error .vectorOverflow
    else ipcValidateVectorList rest (total + vector.len)

def ipcValidateVectors (inputs outputs : List IoVec) (totalLimit : Nat) : Except IpcError Nat :=
  if inputs.length > ipcMaxVectors ∨ outputs.length > ipcMaxVectors ∨
      inputs.length > ipcMaxVectors - outputs.length then .error .vectorCount
  else
    match ipcValidateVectorList inputs 0 with
    | .error e => .error e
    | .ok inputTotal =>
      match ipcValidateVectorList outputs inputTotal with
      | .error e => .error e
      | .ok total =>
        if totalLimit ≠ 0 ∧ total > totalLimit then .error .vectorLimit
        else .ok total

/-- Copy the input vectors from `offset` on, starting with vector `i`. -/
def captureInputs : List IoVec → Nat → Nat → Message → Memory → Message × Memory
  | [], _, _, message, memory => (message, memory)
  | vector :: rest, i, offset, message, memory =>
    let captured := memory.read vector.base vector.len
    captureInputs rest (i + 1) (offset + vector.len)
      { message with
        inOffset := Function.update message.inOffset i offset
        inSize := Function.update message.inSize i vector.len
        input := store message.input offset captured.1 }
      captured.2

def declareOutputs : List IoVec → Nat → Nat → Message → Message
  | [], _, _, message => message
  | vector :: rest, i, offset, message =>
    declareOutputs rest (i + 1) (offset + vector.len)
      { message with
        outOffset := Function.update message.outOffset i offset
        outSize := Function.update message.outSize i vector.len
        clientOutput := Function.update message.clientOutput i vector.base }

/-- Memory the caller cannot access is refused before the transfer cap is
judged. -/
def prepareVectors (ports : PortOps) (message : Message) (memory : Memory)
    (inVec outVec : List IoVec) : Except FfmError (Message × Memory) :=
  if (inVec.take psaMaxIovec).any fun vector =>
      vector.len != 0 && !ports.checkRead message.caller vector.base vector.len then
    .error .policy
  else if (outVec.take psaMaxIovec).any fun vector =>
      vector.len != 0 && !ports.checkWrite message.caller vector.base vector.len then
    .error .policy
  else
    match ipcValidateVectors inVec outVec ffmTransferBytes with
    | .error _ => .error .buffer
    | .ok _ =>
      let counted :=
        { message with inCount := inVec.length, outCount := outVec.length }
      let captured := captureInputs inVec 0 0 counted memory
      .ok (declareOutputs outVec 0 0 captured.1, captured.2)

/-- Every written output may still be written to its destination. -/
def outputsWritable (ports : PortOps) (message : Message) : Bool :=
  (List.range message.outCount).all fun i =>
    message.outPosition i == 0 || ports.checkWrite message.caller (message.clientOutput i)
        (message.outPosition i)

def publishOutput (message : Message) (memory : Memory) (i : Nat) : Memory :=
  memory.write (message.clientOutput i)
    (load message.output (message.outOffset i) (message.outPosition i))

def publishOutputs (message : Message) (memory : Memory) : Memory :=
  (List.range message.outCount).foldl (publishOutput message) memory

/-- The client's output vectors with the lengths written. -/
def reportLengths (message : Message) (outVec : List IoVec) : List IoVec :=
  outVec.zipIdx.map fun (vector, i) =>
    if i < message.outCount then
      { vector with len := message.outPosition i }
    else vector

theorem captureInputs_header (vectors : List IoVec) (i offset : Nat) (message : Message)
    (memory : Memory) : SameHeader message (captureInputs vectors i offset message memory).1 := by
  induction vectors generalizing i offset message memory with
  | nil => exact .refl message
  | cons vector rest ih =>
    rw [captureInputs]
    refine SameHeader.trans ?_ (ih _ _ _ _)
    exact ⟨⟨rfl, rfl, rfl, rfl, rfl, rfl, rfl⟩, rfl, rfl, rfl, rfl⟩

theorem declareOutputs_header (vectors : List IoVec) (i offset : Nat) (message : Message) :
    SameHeader message (declareOutputs vectors i offset message) := by
  induction vectors generalizing i offset message with
  | nil => exact .refl message
  | cons vector rest ih =>
    rw [declareOutputs]
    refine SameHeader.trans ?_ (ih _ _ _)
    exact ⟨⟨rfl, rfl, rfl, rfl, rfl, rfl, rfl⟩, rfl, rfl, rfl, rfl⟩

theorem prepareVectors_eq_ok {ports : PortOps} {message prepared : Message}
    {memory memory' : Memory} {inVec outVec : List IoVec}
    (h : prepareVectors ports message memory inVec outVec = .ok (prepared, memory')) :
    (∃ total, ipcValidateVectors inVec outVec ffmTransferBytes = .ok total) ∧
      let captured := captureInputs inVec 0 0
        { message with inCount := inVec.length, outCount := outVec.length }
        memory
      prepared = declareOutputs outVec 0 0 captured.1 ∧ memory' = captured.2 := by
  unfold prepareVectors at h
  split at h
  · cases h
  · split at h
    · cases h
    · split at h
      · cases h
      · rename_i total htotal
        simp only [Except.ok.injEq, Prod.mk.injEq] at h
        exact ⟨⟨total, htotal⟩, h.1.symm, h.2.symm⟩

theorem prepareVectors_header {ports : PortOps} {message prepared : Message}
    {memory memory' : Memory} {inVec outVec : List IoVec}
    (h : prepareVectors ports message memory inVec outVec =
      .ok (prepared, memory')) : SameHeader message prepared := by
  obtain ⟨-, rfl, -⟩ := prepareVectors_eq_ok h
  refine SameHeader.trans ?_ (declareOutputs_header _ _ _ _)
  refine SameHeader.trans ?_ (captureInputs_header _ _ _ _ _)
  exact ⟨⟨rfl, rfl, rfl, rfl, rfl, rfl, rfl⟩, rfl, rfl, rfl, rfl⟩

end WolfTrust.FfmVectors
