import WolfTrust.FfmCopies

namespace WolfTrust.FfmPublication

open ByteMemory PackedRuns FfmRuntime FfmVectors FfmClient FfmCopies

/-- The end of a completed call of message `m` on connection `c`, where
`answers j` is what the destination check says when it is asked about vector
`j`. A check that depends on anything else, like the time it is asked, gives
some such sequence. -/
def publishReply (answers : Nat → Bool) (runtime : Runtime) (memory : Memory)
    (c : ConnectionIndex) (m : MessageIndex) (outVec : List IoVec) :
    Int × List IoVec × Runtime × Memory :=
  let message := runtime.messages m
  if !(List.range message.outCount).all fun j =>
      message.outPosition j == 0 || answers j then
    (psaErrorProgrammerError, outVec, releaseMessage (runtime.setState c .error) m, memory)
  else
    (message.replyStatus, reportLengths message outVec,
      releaseMessage runtime m, publishOutputs message memory)

def portAnswers (ports : PortOps) (message : Message) (j : Nat) : Bool :=
  ports.checkWrite message.caller (message.clientOutput j) (message.outPosition j)

theorem callReturn_eq (ports : PortOps) (runtime : Runtime) (memory : Memory)
    (request : Request) (outVec : List IoVec) :
    callReturn ports runtime memory request outVec ffmSuccess =
      publishReply (portAnswers ports (runtime.messages request.message))
        runtime memory request.connection request.message outVec :=
  rfl

theorem ffmCallFinish_eq (ports : PortOps) (runtime : Runtime)
    (memory : Memory) (m : MessageIndex) (outVec : List IoVec) :
    ffmCallFinish ports runtime memory m outVec =
      publishReply (portAnswers ports (runtime.messages m)) runtime memory
        (runtime.messages m).connectionIndex m outVec :=
  rfl

/-- The client has every output: each byte of a vector is the one the service
wrote, or that of a later vector over it; no other byte changed; every vector
passed has its length. -/
structure PublishedAll (message : Message) (before after : Memory)
    (passed reported : List IoVec) : Prop where
  bytes : ∀ j < message.outCount, ∀ i < message.outPosition j, (∀ k, j < k → k < message.outCount →
      message.clientOutput j + i < message.clientOutput k ∨
        message.clientOutput k + message.outPosition k ≤ message.clientOutput j + i) →
    after.bytes (message.clientOutput j + i) = message.output (message.outOffset j + i)
  others : ∀ x, (∀ j < message.outCount, x < message.clientOutput j ∨
      message.clientOutput j + message.outPosition j ≤ x) →
    after.bytes x = before.bytes x
  count : reported.length = passed.length
  lengths : ∀ j vector, passed[j]? = some vector → reported[j]? = some (if j < message.outCount then
      { vector with len := message.outPosition j } else vector)

theorem publishOutputs_all (message : Message) (memory : Memory) (passed : List IoVec) :
    PublishedAll message memory (publishOutputs message memory) passed
      (reportLengths message passed) := by
  refine ⟨fun j hj i hi hlater => ?_, fun x hx => ?_, by simp [reportLengths],
    fun j vector hvector => ?_⟩
  · rw [publishOutputs_bytes]
    have hi' : i < (load message.output (message.outOffset j)
        (message.outPosition j)).length := by rwa [length_load]
    rw [← getElem_load message.output _ _ i hi']
    refine storeEach_range hj hi' fun k hjk hk => ?_
    simpa using hlater k hjk hk
  · rw [publishOutputs_bytes]
    refine storeEach_of_outside fun run hrun => ?_
    obtain ⟨j, hj, rfl⟩ := List.mem_map.mp hrun
    simpa using hx j (List.mem_range.mp hj)
  · simp [reportLengths, List.getElem?_zipIdx, hvector]

/-- The client has nothing: its memory and its vectors are as before. -/
structure Withheld (before : Memory) (passed : List IoVec)
    (c : ConnectionIndex) (result : Int × List IoVec × Runtime × Memory) :
    Prop where
  status : result.1 = psaErrorProgrammerError
  lengths : result.2.1 = passed
  memory : result.2.2.2 = before
  error : (result.2.2.1.connections c).state = .error

/-- The publication of message `m` on connection `c` under these answers: the
slot is free, and the client has all outputs or none of them. -/
def AllOrNothing (answers : Nat → Bool) (message : Message) (memory : Memory)
    (c : ConnectionIndex) (m : MessageIndex) (outVec : List IoVec)
    (result : Int × List IoVec × Runtime × Memory) : Prop :=
  (result.2.2.1.messages m).allocated = false ∧
    (((∀ j < message.outCount, message.outPosition j ≠ 0 → answers j = true) ∧
      result.1 = message.replyStatus ∧
      PublishedAll message memory result.2.2.2 outVec result.2.1) ∨
    ((∃ j < message.outCount, message.outPosition j ≠ 0 ∧ answers j = false) ∧
      Withheld memory outVec c result))

theorem publishReply_allOrNothing (answers : Nat → Bool) (runtime : Runtime) (memory : Memory)
    (c : ConnectionIndex) (m : MessageIndex) (outVec : List IoVec) :
    AllOrNothing answers (runtime.messages m) memory c m outVec
      (publishReply answers runtime memory c m outVec) := by
  unfold publishReply
  dsimp only
  split
  · rename_i hrefused
    simp only [Bool.not_eq_true', List.all_eq_false, List.mem_range,
      Bool.or_eq_true, not_or, beq_iff_eq, Bool.not_eq_true] at hrefused
    refine ⟨?_, .inr ⟨hrefused, rfl, rfl, rfl, ?_⟩⟩
    · simp [releaseMessage, Runtime.setMessage, Message.released, clearedMessage]
    · simp [releaseMessage, Runtime.setMessage, Runtime.setState, Runtime.setConnection]
  · rename_i haccepted
    simp only [Bool.not_eq_true', Bool.not_eq_false, List.all_eq_true,
      List.mem_range, Bool.or_eq_true, beq_iff_eq] at haccepted
    refine ⟨?_, .inl ⟨fun j hj hne => (haccepted j hj).resolve_left hne, rfl,
      publishOutputs_all _ _ _⟩⟩
    simp [releaseMessage, Runtime.setMessage, Message.released, clearedMessage]

/-- For every answer sequence, and so at the end of a synchronous and of a
deferred call, publication is all or nothing; a synchronous call whose dispatch
failed publishes nothing. -/
theorem output_publication_atomic (runtime : Runtime) (memory : Memory) (outVec : List IoVec) :
    (∀ answers c m, AllOrNothing answers (runtime.messages m) memory c m outVec
      (publishReply answers runtime memory c m outVec)) ∧
    (∀ ports (request : Request),
      AllOrNothing (portAnswers ports (runtime.messages request.message))
        (runtime.messages request.message) memory request.connection
        request.message outVec
        (callReturn ports runtime memory request outVec ffmSuccess)) ∧
    (∀ ports m, AllOrNothing (portAnswers ports (runtime.messages m))
      (runtime.messages m) memory (runtime.messages m).connectionIndex m outVec
      (ffmCallFinish ports runtime memory m outVec)) ∧
    ∀ ports request ret, ret ≠ ffmSuccess →
      (callReturn ports runtime memory request outVec ret).2.1 = outVec ∧
        (callReturn ports runtime memory request outVec ret).2.2.2 = memory := by
  refine ⟨fun answers c m => publishReply_allOrNothing _ _ _ _ _ _,
    fun ports request => ?_, fun ports m => ?_, fun ports request ret hret => ?_⟩
  · rw [callReturn_eq]
    exact publishReply_allOrNothing _ _ _ _ _ _
  · rw [ffmCallFinish_eq]
    exact publishReply_allOrNothing _ _ _ _ _ _
  · unfold callReturn
    simp only [if_pos hret]
    split <;> exact ⟨rfl, rfl⟩

end WolfTrust.FfmPublication
