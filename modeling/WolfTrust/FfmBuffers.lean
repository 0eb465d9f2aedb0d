import Mathlib.Data.List.GetD
import WolfTrust.PackedRuns
import WolfTrust.FfmSlots

namespace WolfTrust.FfmBuffers

open Domain ByteMemory PackedRuns Manifest FfmRuntime FfmVectors FfmService
  FfmTransition FfmLayout FfmMachine FfmSlots

section Prepared

theorem captureInputs_eq (vectors : List IoVec) (i base : Nat)
    (message : Message) (memory : Memory) :
    (captureInputs vectors i base message memory).1 =
      { message with
        inOffset := store message.inOffset i (offsets base (vectors.map IoVec.len))
        inSize := store message.inSize i (vectors.map IoVec.len)
        input := storeRuns message.input base
          (vectors.map fun v => load memory.bytes v.base v.len) } := by
  induction vectors generalizing i base message memory with
  | nil => simp [captureInputs, offsets, storeRuns]
  | cons vector rest ih =>
    rw [captureInputs, ih]
    simp only [List.map_cons, offsets_cons, store_cons, storeRuns, length_load, Memory.read_bytes]
    rfl

theorem declareOutputs_eq (vectors : List IoVec) (i base : Nat) (message : Message) :
    declareOutputs vectors i base message =
      { message with
        outOffset := store message.outOffset i (offsets base (vectors.map IoVec.len))
        outSize := store message.outSize i (vectors.map IoVec.len)
        clientOutput := store message.clientOutput i (vectors.map IoVec.base) } := by
  induction vectors generalizing i base message with
  | nil => simp [declareOutputs, offsets]
  | cons vector rest ih =>
    rw [declareOutputs, ih]
    simp only [List.map_cons, offsets_cons, store_cons]

theorem ipcValidateVectorList_eq_ok {vectors : List IoVec} {total total' : Nat}
    (h : ipcValidateVectorList vectors total = .ok total') :
    total' = total + (vectors.map IoVec.len).sum := by
  induction vectors generalizing total with
  | nil =>
    cases h
    simp
  | cons vector rest ih =>
    rw [ipcValidateVectorList] at h
    split_ifs at h
    rw [ih h, List.map_cons, List.sum_cons]
    omega

theorem ipcValidateVectors_le {inputs outputs : List IoVec} {total : Nat}
    (h : ipcValidateVectors inputs outputs ffmTransferBytes = .ok total) :
    (inputs.map IoVec.len).sum + (outputs.map IoVec.len).sum ≤
      ffmTransferBytes := by
  unfold ipcValidateVectors at h
  split at h
  · cases h
  · split at h
    · cases h
    · rename_i inputTotal hinputs
      split at h
      · cases h
      · rename_i all houtputs
        have hsum := ipcValidateVectorList_eq_ok houtputs
        rw [ipcValidateVectorList_eq_ok hinputs, Nat.zero_add] at hsum
        split_ifs at h with hlimit
        have hne : ffmTransferBytes ≠ 0 := by decide
        push Not at hlimit
        rw [← hsum]
        exact hlimit hne

end Prepared

/-- The call whose bytes an event is about. -/
def transferOf : Event → Option (MessageIndex × Nat)
  | .callIssued m a _ _ => some (m, a)
  | .chunkRead m a _ _ => some (m, a)
  | .chunkSkipped m a _ _ => some (m, a)
  | .chunkWritten m a _ _ => some (m, a)
  | .messageDelivered .. | .messageAnswered .. | .connectionOpened ..
  | .connectionIssued .. | .partitionRestarted _ => none

section Accounts

variable (m : MessageIndex) (a vec : Nat)

/-- The bytes of input vector `vec` an event takes from the call. -/
def consumedBy : Event → Nat
  | .chunkRead n b v bytes =>
    if n = m ∧ b = a ∧ v = vec then bytes.length else 0
  | .chunkSkipped n b v count =>
    if n = m ∧ b = a ∧ v = vec then count else 0
  | _ => 0

/-- The bytes an event puts into output vector `vec` of the call. -/
def writtenBy : Event → List UInt8
  | .chunkWritten n b v bytes =>
    if n = m ∧ b = a ∧ v = vec then bytes else []
  | _ => []

def consumed (history : List Event) : Nat :=
  (history.map (consumedBy m a vec)).sum

def written (history : List Event) : List UInt8 :=
  history.reverse.flatMap (writtenBy m a vec)

theorem consumed_cons (e : Event) (history : List Event) : consumed m a vec (e :: history) =
      consumedBy m a vec e + consumed m a vec history := by
  simp [consumed]

theorem written_cons (e : Event) (history : List Event) : written m a vec (e :: history) =
      written m a vec history ++ writtenBy m a vec e := by
  simp [written]

variable {m a vec} {events history : List Event}

variable {e : Event}

theorem consumedBy_of_ne (h : transferOf e ≠ some (m, a)) : consumedBy m a vec e = 0 := by
  cases e <;> simp_all [transferOf, consumedBy]

theorem writtenBy_of_ne (h : transferOf e ≠ some (m, a)) : writtenBy m a vec e = [] := by
  cases e <;> simp_all [transferOf, writtenBy]

theorem consumed_append (h : ∀ e ∈ events, transferOf e ≠ some (m, a)) :
    consumed m a vec (events ++ history) = consumed m a vec history := by
  induction events with
  | nil => rfl
  | cons e events ih =>
    rw [List.cons_append, consumed_cons, consumedBy_of_ne (h e List.mem_cons_self), Nat.zero_add]
    exact ih fun e' he' => h e' (List.mem_cons_of_mem _ he')

theorem written_append (h : ∀ e ∈ events, transferOf e ≠ some (m, a)) :
    written m a vec (events ++ history) = written m a vec history := by
  induction events with
  | nil => rfl
  | cons e events ih =>
    rw [List.cons_append, written_cons, writtenBy_of_ne (h e List.mem_cons_self), List.append_nil]
    exact ih fun e' he' => h e' (List.mem_cons_of_mem _ he')

theorem consumed_eq_zero {history : List Event} (h : ∀ e ∈ history, transferOf e ≠ some (m, a)) :
    consumed m a vec history = 0 := by
  rw [← List.append_nil history, consumed_append h]
  rfl

theorem written_eq_nil {history : List Event} (h : ∀ e ∈ history, transferOf e ≠ some (m, a)) :
    written m a vec history = [] := by
  rw [← List.append_nil history, written_append h]
  rfl

end Accounts

/-- An event agrees with what happened before it: a call is issued once, a chunk
is the next part of its input vector, and payloads stay within the declared
size. -/
def Sound (earlier : List Event) : Event → Prop
  | .callIssued m a _ _ => ∀ e ∈ earlier, transferOf e ≠ some (m, a)
  | .chunkRead m a vec bytes =>
    ∃ inputs outputs, Event.callIssued m a inputs outputs ∈ earlier ∧ vec < inputs.length ∧
      consumed m a vec earlier + bytes.length ≤ (inputs.getD vec []).length ∧
      bytes = ((inputs.getD vec []).drop (consumed m a vec earlier)).take bytes.length
  | .chunkSkipped m a vec count =>
    ∃ inputs outputs, Event.callIssued m a inputs outputs ∈ earlier ∧ vec < inputs.length ∧
      consumed m a vec earlier + count ≤ (inputs.getD vec []).length
  | .chunkWritten m a vec bytes =>
    ∃ inputs outputs, Event.callIssued m a inputs outputs ∈ earlier ∧ vec < outputs.length ∧
      (written m a vec earlier).length + bytes.length ≤ (outputs.map IoVec.len).getD vec 0
  | _ => True

def SoundHistory (m : MessageIndex) : List Event → Prop
  | [] => True
  | e :: earlier =>
    (∀ a, transferOf e = some (m, a) → Sound earlier e) ∧ SoundHistory m earlier

theorem SoundHistory.append {m : MessageIndex} {events history : List Event}
    (hquiet : ∀ e ∈ events, ∀ a, transferOf e ≠ some (m, a))
    (h : SoundHistory m history) : SoundHistory m (events ++ history) := by
  induction events with
  | nil => exact h
  | cons e events ih =>
    refine ⟨fun a ha => absurd ha (hquiet e List.mem_cons_self a), ?_⟩
    exact ih fun e' he' => hquiet e' (List.mem_cons_of_mem _ he')

theorem SoundHistory.of_suffix {m : MessageIndex} {a : Nat}
    {earlier history : List Event} (h : SoundHistory m history)
    (hsuffix : e :: earlier <:+ history) (he : transferOf e = some (m, a)) : Sound earlier e := by
  induction history with
  | nil => exact absurd hsuffix (by simp)
  | cons x history ih =>
    rcases List.suffix_cons_iff.mp hsuffix with heq | hsuffix
    · obtain ⟨rfl, rfl⟩ := List.cons.inj heq
      exact h.1 a he
    · exact ih h.2 hsuffix

section Past

variable {m : MessageIndex} {a : Nat} {history : List Event}
  {inputs inputs' : List (List UInt8)} {outputs outputs' : List IoVec}

theorem SoundHistory.issued_unique (h : SoundHistory m history)
    (hissued : Event.callIssued m a inputs outputs ∈ history)
    (hissued' : Event.callIssued m a inputs' outputs' ∈ history) :
    inputs = inputs' ∧ outputs = outputs' := by
  induction history with
  | nil => cases hissued
  | cons e history ih =>
    rcases List.mem_cons.mp hissued with heq | hmem
    · subst heq
      rcases List.mem_cons.mp hissued' with heq' | hmem'
      · injection heq' with _ _ hinputs houtputs
        exact ⟨hinputs.symm, houtputs.symm⟩
      · exact absurd rfl (h.1 a rfl _ hmem')
    · rcases List.mem_cons.mp hissued' with heq' | hmem'
      · subst heq'
        exact absurd rfl (h.1 a rfl _ hmem)
      · exact ih h.2 hmem hmem'

theorem SoundHistory.written_le (h : SoundHistory m history)
    (hissued : Event.callIssued m a inputs outputs ∈ history) (vec : Nat) :
    (written m a vec history).length ≤ (outputs.map IoVec.len).getD vec 0 := by
  induction history with
  | nil => cases hissued
  | cons e history ih =>
    rw [written_cons, List.length_append]
    rcases List.mem_cons.mp hissued with heq | hmem
    · subst heq
      rw [written_eq_nil (h.1 a rfl)]
      exact Nat.zero_le _
    · have hrest := ih h.2 hmem
      by_cases he : transferOf e = some (m, a)
      · have hsound := h.1 a he
        cases e with
        | chunkWritten n b v =>
          obtain ⟨rfl, rfl⟩ := Prod.mk.inj (Option.some.inj he)
          obtain ⟨inputs', outputs', hissued', -, hle⟩ := hsound
          obtain ⟨-, rfl⟩ := h.2.issued_unique hmem hissued'
          simp only [writtenBy, true_and]
          by_cases hv : v = vec
          · subst hv
            rw [if_pos rfl]
            exact hle
          · rw [if_neg hv]
            exact hrest
        | _ => exact hrest
      · rw [writtenBy_of_ne he]
        exact hrest

end Past

structure Blank (message : Message) : Prop where
  inCount : message.inCount = 0
  outCount : message.outCount = 0
  inSize : message.inSize = fun _ => 0
  outSize : message.outSize = fun _ => 0
  inPosition : message.inPosition = fun _ => 0
  outPosition : message.outPosition = fun _ => 0

/-- The message of a call holds the input vectors, end to end, and what was
written to each output vector, at its place. -/
structure Carries (message : Message) (inputs : List (List UInt8))
    (outputs : List IoVec) (taken : Nat → Nat) (put : Nat → List UInt8) :
    Prop where
  inCount : message.inCount = inputs.length
  outCount : message.outCount = outputs.length
  inSize : ∀ i, message.inSize i = (inputs.map List.length).getD i 0
  outSize : ∀ j, message.outSize j = (outputs.map IoVec.len).getD j 0
  inOffset : ∀ i < inputs.length, message.inOffset i = offset (inputs.map List.length) i
  outOffset : ∀ j < outputs.length, message.outOffset j = offset (outputs.map IoVec.len) j
  fits : (inputs.map List.length).sum + (outputs.map IoVec.len).sum ≤ ffmTransferBytes
  input : ∀ i < inputs.length, load message.input (message.inOffset i) (message.inSize i) =
      inputs.getD i []
  output : ∀ j < outputs.length, load message.output (message.outOffset j) (put j).length = put j
  inPosition : ∀ i, message.inPosition i = taken i
  outPosition : ∀ j, message.outPosition j = (put j).length
  taken_le : ∀ i, taken i ≤ message.inSize i
  put_le : ∀ j, (put j).length ≤ message.outSize j
  client : message.abandoned = .no → ∀ j < outputs.length,
    message.clientOutput j = (outputs.map IoVec.base).getD j 0

section Carries

variable {message changed : Message} {inputs : List (List UInt8)}
  {outputs : List IoVec} {m : MessageIndex} {history : List Event}

theorem map_length_load (vectors : List IoVec) (bytes : Nat → UInt8) :
    (vectors.map fun v => load bytes v.base v.len).map List.length = vectors.map IoVec.len := by
  rw [List.map_map]
  exact List.map_congr_left fun v _ => length_load bytes v.base v.len

theorem Carries.prepared {ports : PortOps} {prepared : Message} {memory memory' : Memory}
    {inVec outVec : List IoVec} (hblank : Blank message)
    (h : prepareVectors ports message memory inVec outVec = .ok (prepared, memory')) :
    Carries prepared (inVec.map fun v => load memory.bytes v.base v.len)
      outVec (fun _ => 0) (fun _ => []) := by
  obtain ⟨⟨total, htotal⟩, rfl, -⟩ := prepareVectors_eq_ok h
  have hfits := ipcValidateVectors_le htotal
  rw [← map_length_load inVec memory.bytes] at hfits
  rw [declareOutputs_eq, captureInputs_eq]
  refine
    { inCount := (List.length_map _).symm
      outCount := rfl
      inSize := fun i => ?_
      outSize := fun j => ?_
      inOffset := fun i hi => ?_
      outOffset := fun j hj => ?_
      fits := hfits
      input := fun i hi => ?_
      output := fun j _ => rfl
      inPosition := fun i => congrFun hblank.inPosition i
      outPosition := fun j => congrFun hblank.outPosition j
      taken_le := fun i => Nat.zero_le _
      put_le := fun j => Nat.zero_le _
      client := fun _ j hj => ?_ }
  all_goals dsimp only
  · rw [map_length_load, store_zero, hblank.inSize]
  · rw [store_zero, hblank.outSize]
  · rw [map_length_load, store_zero, getD_offsets (by simpa using hi)]
  · rw [store_zero, getD_offsets (by simpa using hj)]
  · have hi' : i < inVec.length := by simpa using hi
    rw [store_zero, store_zero, getD_offsets (by simpa using hi'),
      ← map_length_load inVec memory.bytes]
    have hload := @load_storeRuns _ message.input 0 _ i hi
    rw [Nat.zero_add] at hload
    rw [List.getD_eq_getElem _ _ hi, List.getD_eq_getElem _ _ (by simpa), List.getElem_map]
    exact hload
  · rw [store_zero, List.getD_eq_getElem _ _ (by simpa using hj),
      List.getD_eq_getElem _ _ (by simpa using hj)]

variable {taken taken' : Nat → Nat} {put put' : Nat → List UInt8} {vec : Nat}

theorem Carries.inSize_eq (h : Carries message inputs outputs taken put)
    (i : Nat) : message.inSize i = (inputs.getD i []).length :=
  (h.inSize i).trans (List.getD_map inputs [] List.length)

theorem Carries.advance (h : Carries message inputs outputs taken put)
    {count : Nat} (hcount : count ≤ inputRemaining message vec)
    (htaken : ∀ v, taken' v = (if vec = v then count else 0) + taken v) :
    Carries
      { message with
        inPosition := Function.update message.inPosition vec (message.inPosition vec + count) }
      inputs outputs taken' put := by
  have hposition := h.inPosition vec
  have hbound := h.taken_le vec
  unfold inputRemaining at hcount
  refine { h with inPosition := fun i => ?_, taken_le := fun i => ?_ }
  all_goals dsimp only
  · rw [htaken i]
    by_cases hi : vec = i
    · subst hi
      rw [Function.update_self, if_pos rfl, hposition, Nat.add_comm]
    · rw [Function.update_of_ne (Ne.symm hi), if_neg hi, Nat.zero_add]
      exact h.inPosition i
  · rw [htaken i]
    by_cases hi : vec = i
    · subst hi
      rw [if_pos rfl]
      omega
    · rw [if_neg hi, Nat.zero_add]
      exact h.taken_le i

theorem Carries.next (h : Carries message inputs outputs taken put) {count : Nat}
    (hvec : vec < inputs.length) (hcount : count ≤ inputRemaining message vec) :
    load message.input (message.inOffset vec + message.inPosition vec) count =
      ((inputs.getD vec []).drop (taken vec)).take count := by
  have hposition := h.inPosition vec
  have hbound := h.taken_le vec
  unfold inputRemaining at hcount
  rw [← h.input vec hvec, hposition]
  exact load_part (by omega)

theorem Carries.clear (h : Carries message inputs outputs taken put) {j : Nat}
    (hvec : vec < outputs.length) (hj : j < outputs.length) (hne : j ≠ vec) :
    message.outOffset j + message.outSize j ≤ message.outOffset vec ∨
      message.outOffset vec + message.outSize vec ≤ message.outOffset j := by
  rw [h.outOffset j hj, h.outOffset vec hvec, h.outSize j, h.outSize vec]
  exact offset_disjoint hne

theorem Carries.append (h : Carries message inputs outputs taken put)
    {payload : List UInt8} (hvec : vec < message.outCount)
    (hcount : payload.length ≤ message.outSize vec - message.outPosition vec)
    (hput : ∀ v, put' v = put v ++ if vec = v then payload else []) :
    Carries
      { message with
        output := store message.output (message.outOffset vec + message.outPosition vec) payload
        outPosition := Function.update message.outPosition vec
          (message.outPosition vec + payload.length) }
      inputs outputs taken put' := by
  rw [h.outCount] at hvec
  have hposition := h.outPosition vec
  have hbound := h.put_le vec
  have hsame : put' vec = put vec ++ payload := by rw [hput, if_pos rfl]
  have hother {v : Nat} (hv : v ≠ vec) : put' v = put v := by
    rw [hput, if_neg (Ne.symm hv), List.append_nil]
  refine
    { h with
      output := fun j hj => ?_
      outPosition := fun j => ?_
      put_le := fun j => ?_ }
  all_goals dsimp only
  · by_cases hjv : j = vec
    · subst hjv
      rw [hsame, List.length_append, load_add, hposition]
      congr 1
      · rw [load_store_disjoint (.inl (Nat.le_refl _))]
        exact h.output j hj
      · exact load_store_same _ _ _
    · have hclear := h.clear hvec hj hjv
      have hsize := h.put_le j
      rw [hother hjv, load_store_disjoint (by omega)]
      exact h.output j hj
  · by_cases hjv : j = vec
    · subst hjv
      rw [hsame, Function.update_self, List.length_append, hposition]
    · rw [hother hjv, Function.update_of_ne hjv]
      exact h.outPosition j
  · by_cases hjv : j = vec
    · subst hjv
      rw [hsame, List.length_append]
      omega
    · rw [hother hjv]
      exact h.put_le j

theorem Carries.chunk {event : Event} (h : Carries message inputs outputs
      (fun i => consumed m message.releases i history)
      (fun j => written m message.releases j history))
    (hchunk : Chunk m message changed event) :
    Carries changed inputs outputs (fun i => consumed m message.releases i (event :: history))
      (fun j => written m message.releases j (event :: history)) := by
  cases hchunk with
  | read vec count hvec hcount =>
    simp only [written_cons, writtenBy, List.append_nil]
    refine h.advance hcount fun v => ?_
    simp [consumed_cons, consumedBy]
  | skip vec count hvec hcount =>
    simp only [written_cons, writtenBy, List.append_nil]
    refine h.advance hcount fun v => ?_
    simp [consumed_cons, consumedBy]
  | write vec payload hvec hcount =>
    simp only [consumed_cons, consumedBy, Nat.zero_add]
    refine h.append hvec hcount fun v => ?_
    simp [written_cons, writtenBy]

theorem Carries.sound {event : Event} (h : Carries message inputs outputs
      (fun i => consumed m message.releases i history)
      (fun j => written m message.releases j history))
    (hissued : Event.callIssued m message.releases inputs outputs ∈ history)
    (hchunk : Chunk m message changed event) : Sound history event := by
  cases hchunk with
  | read vec count hvec hcount =>
    have hremaining := hcount
    have hposition := h.inPosition vec
    have hbound := h.taken_le vec
    rw [h.inCount] at hvec
    unfold inputRemaining at hremaining
    refine ⟨inputs, outputs, hissued, hvec, ?_, ?_⟩
    · rw [length_load, ← h.inSize_eq]
      omega
    · rw [length_load]
      exact h.next hvec hcount
  | skip vec count hvec hcount =>
    have hposition := h.inPosition vec
    have hbound := h.taken_le vec
    rw [h.inCount] at hvec
    unfold inputRemaining at hcount
    refine ⟨inputs, outputs, hissued, hvec, ?_⟩
    rw [← h.inSize_eq]
    omega
  | write vec payload hvec =>
    have hposition := h.outPosition vec
    have hbound := h.put_le vec
    rw [h.outCount] at hvec
    refine ⟨inputs, outputs, hissued, hvec, ?_⟩
    rw [← h.outSize]
    omega

end Carries

/-- The history accounts for the bytes in message slot `m`: nothing is recorded
of a later call than the current one, and the message is blank or carries the
call it was allocated for. -/
structure Ledger (m : MessageIndex) (message : Message)
    (history : List Event) : Prop where
  sound : SoundHistory m history
  past : ∀ e ∈ history, ∀ a, transferOf e = some (m, a) → a ≤ message.releases
  current : (Blank message ∧ ∀ e ∈ history, transferOf e ≠ some (m, message.releases)) ∨
    message.allocated = true ∧ ∃ inputs outputs,
        Event.callIssued m message.releases inputs outputs ∈ history ∧
        Carries message inputs outputs (fun i => consumed m message.releases i history)
          (fun j => written m message.releases j history)

structure SameTransfer (message changed : Message) : Prop where
  releases : changed.releases = message.releases
  allocated : message.allocated = true → changed.allocated = true
  inCount : changed.inCount = message.inCount
  outCount : changed.outCount = message.outCount
  inSize : changed.inSize = message.inSize
  outSize : changed.outSize = message.outSize
  inOffset : changed.inOffset = message.inOffset
  outOffset : changed.outOffset = message.outOffset
  inPosition : changed.inPosition = message.inPosition
  outPosition : changed.outPosition = message.outPosition
  input : changed.input = message.input
  output : changed.output = message.output
  client : changed.abandoned = .no →
    message.abandoned = .no ∧ changed.clientOutput = message.clientOutput

section Ledger

variable {m : MessageIndex} {message changed : Message}
  {history events : List Event}

theorem Blank.of_same (h : Blank message) (hsame : SameTransfer message changed) : Blank changed :=
  ⟨hsame.inCount.trans h.inCount, hsame.outCount.trans h.outCount,
    hsame.inSize.trans h.inSize, hsame.outSize.trans h.outSize,
    hsame.inPosition.trans h.inPosition,
    hsame.outPosition.trans h.outPosition⟩

theorem Carries.of_same {inputs : List (List UInt8)} {outputs : List IoVec} {taken : Nat → Nat}
    {put : Nat → List UInt8} (h : Carries message inputs outputs taken put)
    (hsame : SameTransfer message changed) : Carries changed inputs outputs taken put := by
  refine ⟨hsame.inCount ▸ h.inCount, hsame.outCount ▸ h.outCount,
    hsame.inSize ▸ h.inSize, hsame.outSize ▸ h.outSize,
    hsame.inOffset ▸ h.inOffset, hsame.outOffset ▸ h.outOffset, h.fits, ?_, ?_,
    hsame.inPosition ▸ h.inPosition, hsame.outPosition ▸ h.outPosition,
    hsame.inSize ▸ h.taken_le, hsame.outSize ▸ h.put_le, fun hno => ?_⟩
  · rw [hsame.input, hsame.inOffset, hsame.inSize]
    exact h.input
  · rw [hsame.output, hsame.outOffset]
    exact h.output
  · obtain ⟨hwas, hclient⟩ := hsame.client hno
    rw [hclient]
    exact h.client hwas

theorem Ledger.quiet (h : Ledger m message history) (hsame : SameTransfer message changed)
    (hquiet : ∀ e ∈ events, ∀ a, transferOf e ≠ some (m, a)) :
    Ledger m changed (events ++ history) := by
  refine ⟨h.sound.append hquiet, fun e he a ha => ?_, ?_⟩
  · rcases List.mem_append.mp he with he | he
    · exact absurd ha (hquiet e he a)
    · rw [hsame.releases]
      exact h.past e he a ha
  · rw [hsame.releases]
    rcases h.current with ⟨hblank, hnone⟩ | ⟨hallocated, inputs, outputs, hissued, hcarries⟩
    · refine .inl ⟨hblank.of_same hsame, fun e he => ?_⟩
      rcases List.mem_append.mp he with he | he
      · exact hquiet e he _
      · exact hnone e he
    · refine .inr ⟨hsame.allocated hallocated, inputs, outputs, List.mem_append_right _ hissued, ?_⟩
      simp only [consumed_append fun e he => hquiet e he message.releases,
        written_append fun e he => hquiet e he message.releases]
      exact hcarries.of_same hsame

theorem Ledger.renew (h : Ledger m message history)
    (hreleases : changed.releases = message.releases + 1) (hblank : Blank changed)
    (hquiet : ∀ e ∈ events, ∀ a, transferOf e ≠ some (m, a)) :
    Ledger m changed (events ++ history) := by
  have hpast : ∀ e ∈ events ++ history, ∀ a, transferOf e = some (m, a) → a ≤ message.releases := by
    intro e he a ha
    rcases List.mem_append.mp he with he | he
    · exact absurd ha (hquiet e he a)
    · exact h.past e he a ha
  refine ⟨h.sound.append hquiet, fun e he a ha => ?_, .inl ⟨hblank, fun e he ha => ?_⟩⟩
  · have hle := hpast e he a ha
    omega
  · have hle := hpast e he _ ha
    omega

theorem Ledger.called (h : Ledger m message history) {ports : PortOps}
    {caller type : Int} {c : ConnectionIndex} {s : ServiceIndex}
    {memory memory' : Memory} {inVec outVec : List IoVec} {prepared : Message}
    (hfree : message.allocated = false)
    (hprepared : prepareVectors ports (placed message caller c s type) memory
      inVec outVec = .ok (prepared, memory')) :
    Ledger m prepared (.callIssued m prepared.releases
        (inVec.map fun v => load memory.bytes v.base v.len) outVec :: history) := by
  have hheader := prepareVectors_header hprepared
  have hreleases : prepared.releases = message.releases := hheader.releases
  obtain ⟨hblank, hnone⟩ | ⟨hallocated, -⟩ := h.current
  · have hplaced : Blank (placed message caller c s type) :=
      ⟨hblank.inCount, hblank.outCount, hblank.inSize, hblank.outSize,
        hblank.inPosition, hblank.outPosition⟩
    rw [hreleases]
    refine ⟨⟨fun _ _ => hnone, h.sound⟩, fun e he a ha => ?_, .inr ⟨hheader.allocated,
        inVec.map fun v => load memory.bytes v.base v.len, outVec, ?_, ?_⟩⟩
    · rw [hreleases]
      rcases List.mem_cons.mp he with rfl | he
      · cases ha
        exact Nat.le_refl _
      · exact h.past e he a ha
    · rw [hreleases]
      exact List.mem_cons_self
    · simp only [hreleases, consumed_cons, written_cons,
        consumed_eq_zero hnone, written_eq_nil hnone]
      exact .prepared hplaced hprepared
  · rw [hfree] at hallocated
    cases hallocated

theorem Ledger.chunk (h : Ledger m message history) {event : Event}
    (hchunk : Chunk m message changed event) : Ledger m changed (event :: history) := by
  obtain ⟨hblank, -⟩ | ⟨hallocated, inputs, outputs, hissued, hcarries⟩ :=
    h.current
  · exfalso
    cases hchunk with
    | read vec count hvec => exact absurd (hblank.inCount ▸ hvec) (by omega)
    | skip vec count hvec => exact absurd (hblank.inCount ▸ hvec) (by omega)
    | write vec payload hvec => exact absurd (hblank.outCount ▸ hvec) (by omega)
  · have hreleases := hchunk.header.releases
    refine ⟨⟨fun _ _ => hcarries.sound hissued hchunk, h.sound⟩, fun e he a ha => ?_, ?_⟩
    · rw [hreleases]
      rcases List.mem_cons.mp he with rfl | he
      · cases hchunk <;> cases ha <;> exact Nat.le_refl _
      · exact h.past e he a ha
    · rw [hreleases]
      exact .inr ⟨hchunk.header.allocated.trans hallocated, inputs, outputs,
        List.mem_cons_of_mem _ hissued, hcarries.chunk hchunk⟩

theorem about_of_transfer {a : Nat} (h : transferOf e = some (m, a)) : About m e := by
  refine ⟨a, ?_⟩
  cases e with
  | callIssued | chunkRead | chunkSkipped | chunkWritten => exact h
  | messageDelivered | messageAnswered | connectionOpened | connectionIssued
  | partitionRestarted => cases h

theorem answered_no_transfer (hquiet : ∀ e ∈ events, About m e →
      e = .messageAnswered m message.releases) :
    ∀ e ∈ events, ∀ a, transferOf e ≠ some (m, a) := by
  intro e he a ha
  rw [hquiet e he (about_of_transfer ha)] at ha
  cases ha

theorem not_about_no_transfer (hquiet : ∀ e ∈ events, ¬About m e) :
    ∀ e ∈ events, ∀ a, transferOf e ≠ some (m, a) :=
  fun e he _ ha => hquiet e he (about_of_transfer ha)

variable {ok spared : Prop} {layout : Layout}

theorem MessageMove.ledger (hmove : MessageMove ok spared layout m message changed events)
    (h : Ledger m message history) : Ledger m changed (events ++ history) := by
  have hblank : Blank message.released := ⟨rfl, rfl, rfl, rfl, rfl, rfl⟩
  cases hmove with
  | kept _ hquiet =>
    refine h.quiet ?_ (not_about_no_transfer hquiet)
    exact ⟨rfl, id, rfl, rfl, rfl, rfl, rfl, rfl, rfl, rfl, rfl, rfl, fun hno => ⟨hno, rfl⟩⟩
  | left | callLeft =>
    refine h.quiet ?_ (not_about_no_transfer not_about_nil)
    refine ⟨rfl, id, rfl, rfl, rfl, rfl, rfl, rfl, rfl, rfl, rfl, rfl, fun hno => ?_⟩
    cases hno
  | addressed caller c s type _ hquiet =>
    refine h.quiet ?_ (not_about_no_transfer hquiet)
    exact ⟨rfl, fun _ => rfl, rfl, rfl, rfl, rfl, rfl, rfl, rfl, rfl, rfl,
      rfl, fun hno => ⟨hno, rfl⟩⟩
  | called ports caller c s type memory memory' inVec outVec _ hfree _
      hprepared =>
      exact h.called hfree hprepared
  | delivered =>
    refine h.quiet ?_ fun e he a ha => ?_
    · exact ⟨rfl, id, rfl, rfl, rfl, rfl, rfl, rfl, rfl, rfl, rfl, rfl, fun hno => ⟨hno, rfl⟩⟩
    · rw [List.mem_singleton.mp he] at ha
      cases ha
  | chunk _ event hallocated hchunk => exact h.chunk hchunk
  | answered status _ hanswered hquiet =>
    refine h.quiet ?_ (answered_no_transfer hquiet)
    exact ⟨rfl, id, rfl, rfl, rfl, rfl, rfl, rfl, rfl, rfl, rfl, rfl, fun hno => ⟨hno, rfl⟩⟩
  | replaced =>
    refine h.renew rfl ?_ (answered_no_transfer fun e he _ =>
      List.mem_singleton.mp he)
    exact ⟨rfl, rfl, rfl, rfl, rfl, rfl⟩
  | released _ hquiet => exact h.renew rfl hblank (answered_no_transfer hquiet)

theorem MessageRun.ledger {before after : Runtime} (hrun : MessageRun ok spared m before after)
    (h : Ledger m (before.messages m) before.history) :
    Ledger m (after.messages m) after.history := by
  induction hrun with
  | refl => exact h
  | tail _ hstep ih =>
    obtain ⟨events, hhistory, -, hmove⟩ := hstep
    rw [hhistory]
    exact MessageMove.ledger hmove ih

end Ledger

/-- In every run, whatever its steps, the history accounts for the bytes of
every message. -/
theorem run_ledger {manifest : SystemManifest} {features : Word} {platform : ProfileCapabilities}
    {runtime : Runtime} (hboot : Booted manifest features platform runtime) (memory : Memory)
    (steps : List Step) (m : MessageIndex) :
    let reached := (run (start runtime memory) steps).runtime
    Ledger m (reached.messages m) reached.history := by
  have hstart : Ledger m (runtime.messages m) runtime.history := by
    obtain ⟨count, -, -, rfl⟩ := ffmInit_eq_ok hboot.started
    refine ⟨trivial, fun e he => ?_, .inl ⟨⟨rfl, rfl, rfl, rfl, rfl, rfl⟩, fun e he => ?_⟩⟩
    · cases he
    · cases he
  induction steps using List.reverseRecOn with
  | nil => exact hstart
  | append_singleton steps s ih =>
    dsimp only
    rw [run, List.foldl_append]
    exact MessageRun.ledger (step_messageRun _ s m) ih

end WolfTrust.FfmBuffers
