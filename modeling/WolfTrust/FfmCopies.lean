import WolfTrust.FfmBuffers

namespace WolfTrust.FfmCopies

open Domain ByteMemory PackedRuns Manifest FfmRuntime FfmVectors FfmClient
  FfmService FfmLayout FfmMachine FfmDiscipline FfmBuffers

section Publish

theorem publishOutputs_bytes (message : Message) (memory : Memory) :
    (publishOutputs message memory).bytes =
      storeEach memory.bytes ((List.range message.outCount).map fun j =>
        (message.clientOutput j, load message.output (message.outOffset j)
            (message.outPosition j))) := by
  unfold publishOutputs storeEach
  rw [List.foldl_map]
  generalize List.range message.outCount = vectors
  induction vectors generalizing memory with
  | nil => rfl
  | cons j vectors ih =>
    rw [List.foldl_cons, List.foldl_cons, ih, publishOutput, Memory.write_bytes]

/-- What a client with these output vectors finds after its call completed:
each byte a payload covers holds the payload of the last vector over it, every
other byte is as before, and the reported lengths are those of the payloads. -/
structure Published (outputs : List IoVec) (payload : Nat → List UInt8)
    (before after : Memory) (passed reported : List IoVec) : Prop where
  holds : ∀ j < outputs.length, ∀ i (hi : i < (payload j).length),
    (∀ k, j < k → k < outputs.length → (outputs.map IoVec.base).getD j 0 + i <
          (outputs.map IoVec.base).getD k 0 ∨
        (outputs.map IoVec.base).getD k 0 + (payload k).length ≤
          (outputs.map IoVec.base).getD j 0 + i) →
    after.bytes ((outputs.map IoVec.base).getD j 0 + i) = (payload j)[i]
  others : ∀ x, (∀ j < outputs.length, x < (outputs.map IoVec.base).getD j 0 ∨
        (outputs.map IoVec.base).getD j 0 + (payload j).length ≤ x) →
    after.bytes x = before.bytes x
  count : reported.length = passed.length
  lengths : ∀ j vector, passed[j]? = some vector → reported[j]? = some (if j < outputs.length then
      { vector with len := (payload j).length } else vector)

variable {message : Message} {inputs : List (List UInt8)}
  {outputs : List IoVec} {taken : Nat → Nat} {put : Nat → List UInt8}

theorem Carries.published (h : Carries message inputs outputs taken put)
    (hno : message.abandoned = .no) (memory : Memory) (passed : List IoVec) :
    Published outputs put memory (publishOutputs message memory) passed
      (reportLengths message passed) := by
  have hruns : (List.range message.outCount).map (fun j =>
      (message.clientOutput j, load message.output (message.outOffset j) (message.outPosition j))) =
      (List.range outputs.length).map fun j =>
        ((outputs.map IoVec.base).getD j 0, put j) := by
    rw [h.outCount]
    refine List.map_congr_left fun j hj => ?_
    rw [List.mem_range] at hj
    rw [h.client hno j hj, h.outPosition, h.output j hj]
  refine ⟨fun j hj i hi hlater => ?_, fun x hx => ?_, by simp [reportLengths],
    fun j vector hvector => ?_⟩
  · rw [publishOutputs_bytes, hruns]
    exact storeEach_range hj hi hlater
  · rw [publishOutputs_bytes, hruns]
    refine storeEach_of_outside fun run hrun => ?_
    obtain ⟨j, hj, rfl⟩ := List.mem_map.mp hrun
    exact hx j (List.mem_range.mp hj)
  · have hcount := h.outCount
    have hposition := h.outPosition j
    simp [reportLengths, List.getElem?_map, List.getElem?_zipIdx, hvector, hcount, hposition]

end Publish

/-- The chunks of a call so far: reads and skips go through each input vector in
order and not past its end, and the payloads of an output vector stay within its
declared size. -/
structure PastChunks (history : List Event) (m : MessageIndex) (a : Nat)
    (inputs : List (List UInt8)) (outputs : List IoVec) : Prop where
  read : ∀ vec bytes earlier, Event.chunkRead m a vec bytes :: earlier <:+ history →
    consumed m a vec earlier + bytes.length ≤ (inputs.getD vec []).length ∧
      bytes = ((inputs.getD vec []).drop (consumed m a vec earlier)).take bytes.length
  skipped : ∀ vec count earlier, Event.chunkSkipped m a vec count :: earlier <:+ history →
    consumed m a vec earlier + count ≤ (inputs.getD vec []).length
  written : ∀ vec, (written m a vec history).length ≤ (outputs.map IoVec.len).getD vec 0

/-- The vectors of a message share no byte of its buffers and lie within them,
and no position is past the end of its vector. -/
structure Separate (message : Message) : Prop where
  inputs : ∀ i k, i < message.inCount → k < message.inCount → i ≠ k →
    message.inOffset i + message.inSize i ≤ message.inOffset k ∨
      message.inOffset k + message.inSize k ≤ message.inOffset i
  outputs : ∀ j k, j < message.outCount → k < message.outCount → j ≠ k →
    message.outOffset j + message.outSize j ≤ message.outOffset k ∨
      message.outOffset k + message.outSize k ≤ message.outOffset j
  inBound : ∀ i < message.inCount, message.inOffset i + message.inSize i ≤ ffmTransferBytes
  outBound : ∀ j < message.outCount, message.outOffset j + message.outSize j ≤ ffmTransferBytes
  inPosition : ∀ i, message.inPosition i ≤ message.inSize i
  outPosition : ∀ j, message.outPosition j ≤ message.outSize j

structure NextChunks (machine : Machine) (m : MessageIndex) (a : Nat)
    (inputs : List (List UInt8)) : Prop where
  /-- A read puts the next bytes of the client's vector into the buffer of the
  service and leaves the message buffers alone. -/
  read : ∀ partition handle vec buffer numBytes,
    messageFromHandle machine.runtime partition handle = .ok m →
    let read := ffmRead machine.runtime machine.memory partition handle vec buffer numBytes
    let position := consumed m a vec machine.runtime.history
    position + read.1 ≤ (inputs.getD vec []).length ∧
      read.2.2.bytes = store machine.memory.bytes buffer
        (((inputs.getD vec []).drop position).take read.1) ∧
      consumed m a vec read.2.1.history = position + read.1 ∧
      (read.2.1.messages m).input = (machine.runtime.messages m).input ∧
      (read.2.1.messages m).output = (machine.runtime.messages m).output
  /-- A skip moves over the next bytes. -/
  skip : ∀ partition handle vec numBytes,
    messageFromHandle machine.runtime partition handle = .ok m →
    let skip := ffmSkip machine.runtime partition handle vec numBytes
    let position := consumed m a vec machine.runtime.history
    position + skip.1 ≤ (inputs.getD vec []).length ∧
      consumed m a vec skip.2.history = position + skip.1 ∧
      (skip.2.messages m).input = (machine.runtime.messages m).input ∧
      (skip.2.messages m).output = (machine.runtime.messages m).output
  /-- A write appends the payload to its vector and alters no byte of another
  vector. -/
  write : ∀ partition handle vec buffer numBytes,
    messageFromHandle machine.runtime partition handle = .ok m →
    let write := ffmWrite machine.runtime machine.memory partition handle vec buffer numBytes
    let message := machine.runtime.messages m
    (write.1 = ffmSuccess → written m a vec write.2.1.history =
          written m a vec machine.runtime.history ++ load machine.memory.bytes buffer numBytes) ∧
      (write.1 ≠ ffmSuccess → write.2.1 = machine.runtime) ∧
      (write.2.1.messages m).input = message.input ∧
      ∀ k < message.outCount, k ≠ vec → load (write.2.1.messages m).output (message.outOffset k)
            (message.outSize k) =
          load message.output (message.outOffset k) (message.outSize k)

/-- A completed call gives its client what was written, on the synchronous and
on the deferred path. -/
def Completes (machine : Machine) (m : MessageIndex) (a : Nat) (outputs : List IoVec) : Prop :=
  ∀ ports request passed, request.message = m →
    outputsWritable ports (machine.runtime.messages m) = true →
    let payload vec := written m a vec machine.runtime.history
    let returned := callReturn ports machine.runtime machine.memory request passed ffmSuccess
    let finished := ffmCallFinish ports machine.runtime machine.memory m passed
    returned.1 = (machine.runtime.messages m).replyStatus ∧
      Published outputs payload machine.memory returned.2.2.2 passed returned.2.1 ∧
      finished.1 = (machine.runtime.messages m).replyStatus ∧
      Published outputs payload machine.memory finished.2.2.2 passed finished.2.1

section Ledger

variable {m : MessageIndex} {a : Nat} {machine : Machine} {message : Message} {history : List Event}
  {inputs : List (List UInt8)} {outputs : List IoVec} {partition handle : Int} {runtime : Runtime}

theorem SoundHistory.pastChunks (h : SoundHistory m history)
    (hissued : Event.callIssued m a inputs outputs ∈ history) :
    PastChunks history m a inputs outputs := by
  refine ⟨fun vec bytes earlier hsuffix => ?_,
    fun vec count earlier hsuffix => ?_, h.written_le hissued⟩
  · have hmem := hsuffix.subset
    obtain ⟨inputs', outputs', hissued', -, hle, hbytes⟩ :=
      h.of_suffix hsuffix rfl
    obtain ⟨rfl, -⟩ := h.issued_unique hissued (hmem (List.mem_cons_of_mem _ hissued'))
    exact ⟨hle, hbytes⟩
  · have hmem := hsuffix.subset
    obtain ⟨inputs', outputs', hissued', -, hle⟩ := h.of_suffix hsuffix rfl
    obtain ⟨rfl, -⟩ := h.issued_unique hissued (hmem (List.mem_cons_of_mem _ hissued'))
    exact hle

theorem Ledger.carries (h : Ledger m message history)
    (hissued : Event.callIssued m message.releases inputs outputs ∈ history) :
    Carries message inputs outputs (fun i => consumed m message.releases i history)
      (fun j => written m message.releases j history) := by
  obtain ⟨-, hnone⟩ | ⟨-, inputs', outputs', hissued', hcarries⟩ := h.current
  · exact absurd rfl (hnone _ hissued)
  · obtain ⟨rfl, rfl⟩ := h.sound.issued_unique hissued hissued'
    exact hcarries

theorem Carries.separate {taken : Nat → Nat} {put : Nat → List UInt8}
    (h : Carries message inputs outputs taken put) : Separate message := by
  have hfits := h.fits
  refine ⟨fun i k hi hk hne => ?_, fun j k hj hk hne => ?_, fun i hi => ?_,
    fun j hj => ?_, fun i => ?_, fun j => ?_⟩
  · rw [h.inCount] at hi hk
    rw [h.inOffset i hi, h.inOffset k hk, h.inSize, h.inSize]
    exact offset_disjoint hne
  · rw [h.outCount] at hj hk
    exact h.clear hk hj hne
  · rw [h.inCount] at hi
    have hend := offset_add_le_sum (inputs.map List.length) i
    rw [h.inOffset i hi, h.inSize]
    omega
  · rw [h.outCount] at hj
    have hend := offset_add_le_sum (outputs.map IoVec.len) j
    rw [h.outOffset j hj, h.outSize]
    omega
  · rw [h.inPosition]
    exact h.taken_le i
  · rw [h.outPosition]
    exact h.put_le j

theorem ffmRead_cases (hm : messageFromHandle runtime partition handle = .ok m) (memory : Memory)
    (vec buffer numBytes : Nat) :
    let message := runtime.messages m
    let count := min numBytes (inputRemaining message vec)
    let bytes := load message.input (message.inOffset vec + message.inPosition vec) count
    ffmRead runtime memory partition handle vec buffer numBytes = (0, runtime, memory) ∨
      vec < message.inCount ∧ ffmRead runtime memory partition handle vec buffer numBytes =
          (count, (advanceInput runtime m vec count).record
            (.chunkRead m message.releases vec bytes),
            memory.write buffer bytes) := by
  intro message count bytes
  unfold ffmRead
  by_cases hrefused : buffer = 0 ∨ vec ≥ psaMaxIovec
  · exact .inl (if_pos hrefused)
  · rw [if_neg hrefused, hm]
    by_cases hvec : message.type < psaIpcCall ∨ vec ≥ message.inCount
    · exact .inl (if_pos hvec)
    · refine .inr ⟨?_, if_neg hvec⟩
      omega

theorem ffmSkip_cases
    (hm : messageFromHandle runtime partition handle = .ok m) (vec numBytes : Nat) :
    let message := runtime.messages m
    let count := min numBytes (inputRemaining message vec)
    ffmSkip runtime partition handle vec numBytes = (0, runtime) ∨ vec < message.inCount ∧
        ffmSkip runtime partition handle vec numBytes =
          (count, (advanceInput runtime m vec count).record
            (.chunkSkipped m message.releases vec count)) := by
  intro message count
  unfold ffmSkip
  by_cases hrefused : vec ≥ psaMaxIovec
  · exact .inl (if_pos hrefused)
  · rw [if_neg hrefused, hm]
    by_cases hvec : message.type < psaIpcCall ∨ vec ≥ message.inCount
    · exact .inl (if_pos hvec)
    · refine .inr ⟨?_, if_neg hvec⟩
      omega

theorem ffmWrite_cases (hm : messageFromHandle runtime partition handle = .ok m) (memory : Memory)
    (vec buffer numBytes : Nat) :
    let message := runtime.messages m
    let write := ffmWrite runtime memory partition handle vec buffer numBytes
    (write.1 ≠ ffmSuccess ∧ write.2.1 = runtime) ∨ (numBytes = 0 ∧ write.2.1 = runtime) ∨
      vec < message.outCount ∧ numBytes ≤ message.outSize vec - message.outPosition vec ∧
        write.1 = ffmSuccess ∧
        write.2.1 = (runtime.setMessage m fun message =>
          { message with
            output := store message.output (message.outOffset vec + message.outPosition vec)
              (load memory.bytes buffer numBytes)
            outPosition := Function.update message.outPosition vec
              (message.outPosition vec + numBytes) }).record
          (.chunkWritten m message.releases vec (load memory.bytes buffer numBytes)) := by
  dsimp only
  unfold ffmWrite
  by_cases hrefused : (buffer = 0 ∧ numBytes ≠ 0) ∨ vec ≥ psaMaxIovec
  · rw [if_pos hrefused]
    exact .inl ⟨FfmError.code_ne_success .argument, rfl⟩
  · rw [if_neg hrefused, hm]
    dsimp only
    by_cases htype : (runtime.messages m).type < psaIpcCall
    · rw [if_pos htype]
      exact .inl ⟨FfmError.code_ne_success .state, rfl⟩
    · rw [if_neg htype]
      by_cases hvec : vec ≥ (runtime.messages m).outCount
      · rw [if_pos hvec]
        by_cases hzero : numBytes = 0
        · exact .inr (.inl ⟨hzero, rfl⟩)
        · rw [if_neg hzero]
          exact .inl ⟨FfmError.code_ne_success .buffer, rfl⟩
      · rw [if_neg hvec]
        by_cases hlong : numBytes > (runtime.messages m).outSize vec -
            (runtime.messages m).outPosition vec
        · rw [if_pos hlong]
          exact .inl ⟨FfmError.code_ne_success .buffer, rfl⟩
        · rw [if_neg hlong]
          exact .inr (.inr ⟨by omega, by omega, rfl, rfl⟩)

theorem Carries.nextChunks (h : Carries (machine.runtime.messages m) inputs outputs
      (fun i => consumed m (machine.runtime.messages m).releases i machine.runtime.history)
      (fun j => written m (machine.runtime.messages m).releases j machine.runtime.history)) :
    NextChunks machine m (machine.runtime.messages m).releases inputs := by
  have hbound (i : Nat) (count : Nat)
      (hcount : count ≤ inputRemaining (machine.runtime.messages m) i) :
      consumed m (machine.runtime.messages m).releases i
        machine.runtime.history + count ≤ (inputs.getD i []).length := by
    have hposition := h.inPosition i
    have htaken := h.taken_le i
    unfold inputRemaining at hcount
    rw [← h.inSize_eq]
    omega
  refine ⟨fun partition handle vec buffer numBytes hm => ?_,
    fun partition handle vec numBytes hm => ?_,
    fun partition handle vec buffer numBytes hm => ?_⟩
  · dsimp only
    obtain hread | ⟨hvec, hread⟩ :=
      ffmRead_cases hm machine.memory vec buffer numBytes
    · rw [hread]
      refine ⟨hbound vec 0 (Nat.zero_le _), ?_, rfl, rfl, rfl⟩
      rw [List.take_zero, store_nil]
    · have hcount := Nat.min_le_right numBytes (inputRemaining (machine.runtime.messages m) vec)
      have hnext := h.next (h.inCount ▸ hvec) hcount
      rw [hread]
      refine ⟨hbound vec _ hcount, ?_, ?_, ?_, ?_⟩
      · rw [Memory.write_bytes, hnext]
      · simp [Runtime.record, advanceInput, Runtime.setMessage, consumed_cons,
          consumedBy, Nat.add_comm]
      · simp [Runtime.record, advanceInput, Runtime.setMessage]
      · simp [Runtime.record, advanceInput, Runtime.setMessage]
  · dsimp only
    obtain hskip | ⟨hvec, hskip⟩ := ffmSkip_cases hm vec numBytes
    · rw [hskip]
      exact ⟨hbound vec 0 (Nat.zero_le _), rfl, rfl, rfl⟩
    · rw [hskip]
      refine ⟨hbound vec _ (Nat.min_le_right _ _), ?_, ?_, ?_⟩
      · simp [Runtime.record, advanceInput, Runtime.setMessage, consumed_cons,
          consumedBy, Nat.add_comm]
      · simp [Runtime.record, advanceInput, Runtime.setMessage]
      · simp [Runtime.record, advanceInput, Runtime.setMessage]
  · dsimp only
    obtain ⟨hfailed, hsame⟩ | ⟨rfl, hsame⟩ | ⟨hvec, hcount, hok, hwritten⟩ :=
      ffmWrite_cases hm machine.memory vec buffer numBytes
    · rw [hsame]
      exact ⟨fun hok => absurd hok hfailed, fun _ => rfl, rfl, fun _ _ _ => rfl⟩
    · rw [hsame]
      refine ⟨fun _ => ?_, fun _ => rfl, rfl, fun _ _ _ => rfl⟩
      exact (List.append_nil _).symm
    · rw [hwritten]
      refine ⟨fun _ => ?_, fun hne => absurd hok hne, ?_, fun k hk hne => ?_⟩
      · simp [Runtime.record, Runtime.setMessage, written_cons, writtenBy]
      · simp [Runtime.record, Runtime.setMessage]
      · rw [h.outCount] at hvec hk
        have hclear := h.clear hvec hk hne
        have hposition := h.outPosition vec
        have hput := h.put_le vec
        simp only [Runtime.record, Runtime.setMessage, Function.update_self]
        apply load_store_disjoint
        rw [length_load]
        omega

theorem Carries.completes (h : Carries (machine.runtime.messages m) inputs outputs
      (fun i => consumed m a i machine.runtime.history)
      (fun j => written m a j machine.runtime.history))
    (hno : (machine.runtime.messages m).abandoned = .no) :
    Completes machine m a outputs := by
  rintro ports request passed rfl hwritable
  have hpublished := Carries.published h hno machine.memory passed
  have hblocked : (!outputsWritable ports (machine.runtime.messages request.message)) ≠ true := by
    simp [hwritable]
  simp only [callReturn, ffmCallFinish, if_neg hblocked, ne_eq, not_true, if_false]
  exact ⟨trivial, hpublished, trivial, hpublished⟩

end Ledger

/-- In every run, whatever its steps: the chunks of a call that was issued are
faithful, and as long as its message is not released the next chunk is, too, and
so is the completion of the call for a client that still waits for it. -/
theorem call_copies {manifest : SystemManifest} {features : Word}
    {platform : ProfileCapabilities} {runtime : Runtime}
    (hboot : Booted manifest features platform runtime) (memory : Memory)
    (steps : List Step) {m : MessageIndex} {a : Nat}
    {inputs : List (List UInt8)} {outputs : List IoVec}
    (hissued : Event.callIssued m a inputs outputs ∈
      (run (start runtime memory) steps).runtime.history) :
    let machine := run (start runtime memory) steps
    let message := machine.runtime.messages m
    PastChunks machine.runtime.history m a inputs outputs ∧ (message.releases = a →
        Separate message ∧ NextChunks machine m a inputs ∧
          (message.abandoned = .no → Completes machine m a outputs)) := by
  intro machine message
  have hledger : Ledger m message machine.runtime.history := run_ledger hboot memory steps m
  refine ⟨SoundHistory.pastChunks hledger.sound hissued, ?_⟩
  rintro rfl
  have hcarries := Ledger.carries hledger hissued
  exact ⟨Carries.separate hcarries, Carries.nextChunks hcarries, Carries.completes hcarries⟩

/-- Client -1 calls service 1 with two output vectors of one byte, the second
one at `second`; the service writes 1 to the first and 2 to the second. -/
def sampleCall (second : Nat) : List Step :=
  [.connect (-1) 200 1, sampleGate (getBlock 3),
    sampleGate (replyBlock 3 193), .dispatched openPorts 0,
    .call openPorts (-1) 161 0 [] [⟨100, 1⟩, ⟨second, 1⟩],
    sampleGate (getBlock 3),
    .scribble fun x => if x = 500 then 1 else if x = 501 then 2 else 0,
    sampleGate { blankCall .write 3 with
      msgHandle := 321, buffer := 500, numBytes := 1 },
    sampleGate { blankCall .write 3 with
      msgHandle := 321, vecIdx := 1, buffer := 501, numBytes := 1 },
    sampleGate (replyBlock 3 321)]

theorem call_copies_sample :
    let machine := run sampleMachine (sampleCall 200)
    Event.callIssued 0 1 [] [⟨100, 1⟩, ⟨200, 1⟩] ∈ machine.runtime.history ∧
      Completes machine 0 1 [⟨100, 1⟩, ⟨200, 1⟩] := by
  intro machine
  have hissued : Event.callIssued 0 1 [] [⟨100, 1⟩, ⟨200, 1⟩] ∈
      machine.runtime.history := by
    decide +kernel
  exact ⟨hissued, ((call_copies sampleRuntime_booted sampleMemory
    (sampleCall 200) hissued).2 (by decide +kernel)).2.2 (by decide +kernel)⟩

/-- With both output vectors at one address the payload of the first is lost. -/
theorem overlapping_output_lost :
    let machine := run sampleMachine (sampleCall 100)
    let completed := step machine (.dispatched openPorts 0)
    Event.callIssued 0 1 [] [⟨100, 1⟩, ⟨100, 1⟩] ∈ machine.runtime.history ∧
      written 0 1 0 machine.runtime.history = [1] ∧
      completed.stack.length = 0 ∧
      load completed.memory.bytes 100 1 = [2] := by
  decide +kernel

end WolfTrust.FfmCopies
