import WolfTrust.FfmBuffers

/-!
The validation of a call's vectors on machine words (`wt_ipc_validate_vectors`,
`src/ipc.c`) and the offsets that `wt_ffm_prepare_vectors` then computes. Bases,
lengths, counts and sums are 32-bit words and wrap; the unbounded arithmetic of
the message buffers is what they compute.
-/

namespace WolfTrust.IpcVectors

open Domain ByteMemory PackedRuns FfmRuntime FfmVectors FfmBuffers

/-- `wt_ipc_vector_t`. -/
structure IpcVector where
  base : Word
  length : Word
  deriving DecidableEq, Repr

/-- The same vector in unbounded numbers. -/
def IpcVector.toIoVec (vector : IpcVector) : IoVec :=
  ⟨vector.base.toNat, vector.length.toNat⟩

inductive VectorError
  | argument
  | refused (e : IpcError)
  deriving DecidableEq, Repr

/-- The loop of `wt_ipc_validate_vector_list`. -/
def validateVectorList : List IpcVector → Word → Except IpcError Word
  | [], total => .ok total
  | vector :: rest, total =>
    if vector.length ≠ 0 ∧ vector.base = 0 then .error .vectorAddress
    else if vector.length > 0xFFFFFFFF - vector.base then .error .vectorOverflow
    else if vector.length > 0xFFFFFFFF - total then .error .vectorOverflow
    else validateVectorList rest (total + vector.length)

def vectorsOf (vectors : Option (Nat → IpcVector)) (count : Word) : List IpcVector :=
  match vectors with
  | none => []
  | some array => (List.range count.toNat).map array

def validateVectorArray (vectors : Option (Nat → IpcVector))
    (count total : Word) : Except VectorError Word :=
  if count ≠ 0 ∧ vectors.isNone then .error .argument
  else
    match validateVectorList (vectorsOf vectors count) total with
    | .error e => .error (.refused e)
    | .ok total => .ok total

def validateVectors (inputs : Option (Nat → IpcVector)) (inputCount : Word)
    (outputs : Option (Nat → IpcVector)) (outputCount totalLimit : Word) :
    Except VectorError Word :=
  if inputCount > 4 ∨ outputCount > 4 ∨ inputCount > 4 - outputCount then
    .error (.refused .vectorCount)
  else
    match validateVectorArray inputs inputCount 0 with
    | .error e => .error e
    | .ok inputTotal =>
      match validateVectorArray outputs outputCount inputTotal with
      | .error e => .error e
      | .ok total =>
        if totalLimit ≠ 0 ∧ total > totalLimit then
          .error (.refused .vectorLimit)
        else .ok total

/-- The offsets of the loops of `wt_ffm_prepare_vectors`. -/
def packOffsets : List IpcVector → Word → List Word
  | [], _ => []
  | vector :: rest, offset =>
    offset :: packOffsets rest (offset + vector.length)

def lengthSum (vectors : List IpcVector) : Nat :=
  (vectors.map fun vector => vector.length.toNat).sum

/-- A vector that is not empty has a base, and ends below the last address. -/
def Addressable (vector : IpcVector) : Prop :=
  vector.length ≠ 0 → vector.base ≠ 0 ∧ vector.base.toNat + vector.length.toNat ≤ uintptrMax

theorem toNat_rest (x : Word) : (0xFFFFFFFF - x).toNat = uintptrMax - x.toNat := by
  have hmax : (0xFFFFFFFF : Word).toNat = uintptrMax := rfl
  rw [BitVec.toNat_sub_of_le, hmax]
  rw [BitVec.le_def, hmax, uintptrMax]
  have hlt := x.isLt
  omega

theorem lt_rest_iff (x y : Word) : y > 0xFFFFFFFF - x ↔ uintptrMax < x.toNat + y.toNat := by
  have hlt := x.isLt
  rw [gt_iff_lt, BitVec.lt_def, toNat_rest, uintptrMax]
  omega

theorem validateVectorList_eq_ok_iff (vectors : List IpcVector) (total total' : Word) :
    validateVectorList vectors total = .ok total' ↔ (∀ vector ∈ vectors, Addressable vector) ∧
        total.toNat + lengthSum vectors ≤ sizeMax ∧
        total'.toNat = total.toNat + lengthSum vectors := by
  induction vectors generalizing total with
  | nil =>
    have hlt := total.isLt
    have hle : total.toNat ≤ sizeMax := by
      rw [sizeMax]
      omega
    simp only [validateVectorList, Except.ok.injEq, List.not_mem_nil,
      false_implies, implies_true, true_and, lengthSum, List.map_nil,
      List.sum_nil, Nat.add_zero, hle]
    exact eq_comm.trans BitVec.toNat_inj.symm
  | cons vector rest ih =>
    have hsum : lengthSum (vector :: rest) = vector.length.toNat + lengthSum rest := rfl
    rw [validateVectorList, hsum, List.forall_mem_cons]
    split_ifs with hbase hrange htotal
    · refine iff_of_false nofun fun h => ?_
      exact (h.1.1 hbase.1).1 hbase.2
    · refine iff_of_false nofun fun h => ?_
      have hend := (lt_rest_iff _ _).mp hrange
      have hne : vector.length ≠ 0 := by
        intro hzero
        rw [hzero] at hrange
        exact absurd hrange (BitVec.not_lt_zero)
      have hle := (h.1.1 hne).2
      omega
    · refine iff_of_false nofun fun h => ?_
      have hover := (lt_rest_iff _ _).mp htotal
      have hle := h.2.1
      rw [uintptrMax] at hover
      rw [sizeMax] at hle
      omega
    · have hfits : total.toNat + vector.length.toNat < 2 ^ 32 := by
        rw [lt_rest_iff, uintptrMax] at htotal
        omega
      have haddressable : Addressable vector := by
        intro hne
        rw [lt_rest_iff] at hrange
        exact ⟨fun hzero => hbase ⟨hne, hzero⟩, Nat.le_of_not_lt hrange⟩
      rw [ih, BitVec.toNat_add_of_lt hfits, Nat.add_assoc]
      simp only [haddressable, true_and]

/-- The count of an array that is missing is zero. -/
def Given (vectors : Option (Nat → IpcVector)) (count : Word) : Prop :=
  count ≠ 0 → vectors.isSome

theorem validateVectorArray_eq_ok_iff (vectors : Option (Nat → IpcVector))
    (count total total' : Word) :
    validateVectorArray vectors count total = .ok total' ↔ Given vectors count ∧
        validateVectorList (vectorsOf vectors count) total = .ok total' := by
  unfold validateVectorArray
  split_ifs with hmissing
  · refine iff_of_false nofun fun h => ?_
    have hgiven := h.1 hmissing.1
    rw [← Option.not_isNone] at hgiven
    simp [hmissing.2] at hgiven
  · have hgiven : Given vectors count := by
      intro hne
      by_contra hnone
      exact hmissing ⟨hne, by simpa using hnone⟩
    split
    · rename_i e he
      simp [he]
    · rename_i result hresult
      simp [hgiven, hresult]

theorem counts_iff (inputCount outputCount : Word) :
    ¬(inputCount > 4 ∨ outputCount > 4 ∨ inputCount > 4 - outputCount) ↔
      inputCount.toNat + outputCount.toNat ≤ ipcMaxVectors := by
  have hfour : (4 : Word).toNat = 4 := rfl
  rw [ipcMaxVectors, gt_iff_lt, gt_iff_lt, gt_iff_lt, BitVec.lt_def,
    BitVec.lt_def, BitVec.lt_def, hfour]
  by_cases hout : outputCount.toNat ≤ 4
  · rw [BitVec.toNat_sub_of_le (by rw [BitVec.le_def, hfour]; exact hout), hfour]
    omega
  · omega

/-- What the call's limit allows: zero is no limit but the largest word. -/
def allowed (totalLimit : Word) : Nat :=
  if totalLimit = 0 then sizeMax else totalLimit.toNat

/-- What an accepted call is, in unbounded numbers. -/
structure Accepted (inputs : Option (Nat → IpcVector)) (inputCount : Word)
    (outputs : Option (Nat → IpcVector)) (outputCount totalLimit : Word) :
    Prop where
  counts : inputCount.toNat + outputCount.toNat ≤ ipcMaxVectors
  inputs_given : Given inputs inputCount
  outputs_given : Given outputs outputCount
  addressable : ∀ vector ∈ vectorsOf inputs inputCount ++
    vectorsOf outputs outputCount, Addressable vector
  sum_le : lengthSum (vectorsOf inputs inputCount ++
    vectorsOf outputs outputCount) ≤ allowed totalLimit

theorem lengthSum_append (inputs outputs : List IpcVector) :
    lengthSum (inputs ++ outputs) = lengthSum inputs + lengthSum outputs := by
  simp [lengthSum]

section Exact

variable (inputs outputs : Option (Nat → IpcVector)) (inputCount outputCount totalLimit : Word)

theorem toNat_zeroWord : (0 : Word).toNat = 0 := rfl

theorem limit_iff (total : Word) : ¬(totalLimit ≠ 0 ∧ total > totalLimit) ↔
      total.toNat ≤ allowed totalLimit := by
  unfold allowed
  split_ifs with hzero
  · have hlt := total.isLt
    have hle : total.toNat ≤ sizeMax := by
      rw [sizeMax]
      omega
    simp [hzero, hle]
  · rw [not_and, gt_iff_lt, BitVec.lt_def, Nat.not_lt]
    exact ⟨fun h => h hzero, fun h _ => h⟩

theorem allowed_le : allowed totalLimit ≤ sizeMax := by
  have hlt := totalLimit.isLt
  unfold allowed
  split_ifs
  · exact le_rfl
  · rw [sizeMax]
    omega

theorem validateVectors_eq_ok_iff (total : Word) :
    validateVectors inputs inputCount outputs outputCount totalLimit = .ok total ↔
      Accepted inputs inputCount outputs outputCount totalLimit ∧
        total.toNat = lengthSum (vectorsOf inputs inputCount ++ vectorsOf outputs outputCount) := by
  constructor
  · intro h
    unfold validateVectors at h
    split_ifs at h with hcounts
    split at h
    · cases h
    · rename_i inputTotal hinputs
      split at h
      · cases h
      · rename_i all houtputs
        split_ifs at h with hlimit
        obtain rfl := Except.ok.inj h
        rw [validateVectorArray_eq_ok_iff, validateVectorList_eq_ok_iff] at hinputs houtputs
        obtain ⟨hin, hinputs, -, hinsum⟩ := hinputs
        obtain ⟨hout, houtputs, -, houtsum⟩ := houtputs
        rw [toNat_zeroWord, Nat.zero_add] at hinsum
        rw [hinsum, ← lengthSum_append] at houtsum
        refine ⟨⟨(counts_iff _ _).mp hcounts, hin, hout, ?_, ?_⟩, houtsum⟩
        · exact List.forall_mem_append.mpr ⟨hinputs, houtputs⟩
        · rw [← houtsum]
          exact (limit_iff _ _).mp hlimit
  · rintro ⟨haccepted, htotal⟩
    have hle := haccepted.sum_le.trans (allowed_le totalLimit)
    obtain ⟨hinputs, houtputs⟩ :=
      List.forall_mem_append.mp haccepted.addressable
    have hsplit := lengthSum_append (vectorsOf inputs inputCount) (vectorsOf outputs outputCount)
    -- the total after the input vectors is the word of their sum
    have hword : (BitVec.ofNat 32 (lengthSum (vectorsOf inputs inputCount))).toNat
        = lengthSum (vectorsOf inputs inputCount) := by
      rw [BitVec.toNat_ofNat]
      refine Nat.mod_eq_of_lt ?_
      rw [sizeMax] at hle
      omega
    have hfirst := (validateVectorArray_eq_ok_iff inputs inputCount 0 _).mpr
      ⟨haccepted.inputs_given, (validateVectorList_eq_ok_iff _ _ _).mpr
        ⟨hinputs, by rw [toNat_zeroWord]; omega,
          by rw [hword, toNat_zeroWord, Nat.zero_add]⟩⟩
    have hsecond := (validateVectorArray_eq_ok_iff outputs outputCount _ total).mpr
      ⟨haccepted.outputs_given, (validateVectorList_eq_ok_iff _ _ _).mpr
        ⟨houtputs, by rw [hword]; omega, by rw [hword]; omega⟩⟩
    unfold validateVectors
    rw [if_neg ((counts_iff _ _).mpr haccepted.counts), hfirst]
    dsimp only
    rw [hsecond]
    dsimp only
    rw [if_neg]
    rw [limit_iff, htotal]
    exact haccepted.sum_le

end Exact

section Words

theorem toIoVec_len (vector : IpcVector) : vector.toIoVec.len = vector.length.toNat := rfl

theorem toIoVec_base (vector : IpcVector) : vector.toIoVec.base = vector.base.toNat := rfl

theorem ipcValidateVectorList_words (vectors : List IpcVector) (total : Word) :
    ipcValidateVectorList (vectors.map IpcVector.toIoVec) total.toNat =
      (validateVectorList vectors total).map BitVec.toNat := by
  induction vectors generalizing total with
  | nil => rfl
  | cons vector rest ih =>
    have haddress : (vector.length ≠ 0 ∧ vector.base = 0) ↔
        vector.toIoVec.len ≠ 0 ∧ vector.toIoVec.base = 0 := by
      rw [toIoVec_len, toIoVec_base, ← toNat_zeroWord, ne_eq, ne_eq,
        BitVec.toNat_inj, BitVec.toNat_inj]
    have hrange : vector.length > 0xFFFFFFFF - vector.base ↔
        vector.toIoVec.len > uintptrMax - vector.toIoVec.base := by
      rw [gt_iff_lt, BitVec.lt_def, toNat_rest]
      rfl
    have htotal : vector.length > 0xFFFFFFFF - total ↔
        vector.toIoVec.len > sizeMax - total.toNat := by
      rw [gt_iff_lt, BitVec.lt_def, toNat_rest]
      rfl
    rw [List.map_cons, ipcValidateVectorList, validateVectorList]
    by_cases hbase : vector.length ≠ 0 ∧ vector.base = 0
    · rw [if_pos hbase, if_pos (haddress.mp hbase)]
      rfl
    rw [if_neg hbase, if_neg (mt haddress.mpr hbase)]
    by_cases hend : vector.length > 0xFFFFFFFF - vector.base
    · rw [if_pos hend, if_pos (hrange.mp hend)]
      rfl
    rw [if_neg hend, if_neg (mt hrange.mpr hend)]
    by_cases hsum : vector.length > 0xFFFFFFFF - total
    · rw [if_pos hsum, if_pos (htotal.mp hsum)]
      rfl
    have hfits : total.toNat + vector.length.toNat < 2 ^ 32 := by
      rw [lt_rest_iff, uintptrMax] at hsum
      omega
    rw [if_neg hsum, if_neg (mt htotal.mpr hsum), ← ih, BitVec.toNat_add_of_lt hfits, toIoVec_len]

theorem validateVectorArray_of_given {vectors : Option (Nat → IpcVector)}
    {count : Word} (hgiven : Given vectors count) (total : Word) :
    validateVectorArray vectors count total =
      (validateVectorList (vectorsOf vectors count) total).mapError
        VectorError.refused := by
  unfold validateVectorArray
  rw [if_neg]
  · cases validateVectorList (vectorsOf vectors count) total <;> rfl
  · rintro ⟨hne, hnone⟩
    have hsome := hgiven hne
    rw [Option.isNone_iff_eq_none.mp hnone] at hsome
    cases hsome

theorem length_vectorsOf {vectors : Option (Nat → IpcVector)} {count : Word}
    (hgiven : Given vectors count) : (vectorsOf vectors count).length = count.toNat := by
  cases vectors with
  | none =>
    have hzero : count = 0 := by
      by_contra hne
      exact absurd (hgiven hne) (by simp)
    rw [hzero]
    rfl
  | some => simp [vectorsOf]

theorem ipcValidateVectors_words {inputs outputs : Option (Nat → IpcVector)}
    {inputCount outputCount : Word} (hin : Given inputs inputCount)
    (hout : Given outputs outputCount) (totalLimit : Word) :
    (ipcValidateVectors ((vectorsOf inputs inputCount).map IpcVector.toIoVec)
        ((vectorsOf outputs outputCount).map IpcVector.toIoVec)
        totalLimit.toNat).mapError VectorError.refused =
      (validateVectors inputs inputCount outputs outputCount totalLimit).map
        BitVec.toNat := by
  have hcounts := counts_iff inputCount outputCount
  have hfirst := ipcValidateVectorList_words (vectorsOf inputs inputCount) 0
  unfold ipcValidateVectors validateVectors
  rw [List.length_map, List.length_map, length_vectorsOf hin, length_vectorsOf hout]
  split_ifs with hnat hword hword
  · rfl
  · have hle := hcounts.mp hword
    omega
  · have hle := mt hcounts.mpr (not_not.mpr hword)
    omega
  · rw [toNat_zeroWord] at hfirst
    rw [hfirst, validateVectorArray_of_given hin]
    cases validateVectorList (vectorsOf inputs inputCount) 0 with
    | error => rfl
    | ok inputTotal =>
      dsimp only [Except.map, Except.mapError]
      rw [ipcValidateVectorList_words, validateVectorArray_of_given hout]
      cases validateVectorList (vectorsOf outputs outputCount) inputTotal with
      | error => rfl
      | ok total =>
        dsimp only [Except.map, Except.mapError]
        have hlimit : (totalLimit ≠ 0 ∧ total > totalLimit) ↔
            totalLimit.toNat ≠ 0 ∧ total.toNat > totalLimit.toNat := by
          rw [← toNat_zeroWord, ne_eq, ne_eq, BitVec.toNat_inj, gt_iff_lt, BitVec.lt_def]
        by_cases hover : totalLimit ≠ 0 ∧ total > totalLimit
        · rw [if_pos hover, if_pos (hlimit.mp hover)]
        · rw [if_neg hover, if_neg (mt hlimit.mpr hover)]

end Words

/-- A vector of one byte at the last address does not wrap around, and is
refused. -/
theorem last_byte_refused :
    let vector : IpcVector := ⟨0xFFFFFFFF, 1⟩
    vector.base ≠ 0 ∧ vector.base.toNat + (vector.length.toNat - 1) ≤ uintptrMax ∧
      lengthSum [vector] ≤ ffmTransferBytes ∧
      validateVectors (some fun _ => vector) 1 none 0 (BitVec.ofNat 32 ffmTransferBytes) =
        .error (.refused .vectorOverflow) := by
  decide +kernel

section Packing

theorem packOffsets_toNat (vectors : List IpcVector) (start : Word)
    (hsum : start.toNat + lengthSum vectors ≤ sizeMax) :
    (packOffsets vectors start).map BitVec.toNat =
      offsets start.toNat (vectors.map fun vector => vector.length.toNat) := by
  induction vectors generalizing start with
  | nil => rfl
  | cons vector rest ih =>
    have hcons : lengthSum (vector :: rest) = vector.length.toNat + lengthSum rest := rfl
    have hword : (start + vector.length).toNat = start.toNat + vector.length.toNat := by
      refine BitVec.toNat_add_of_lt ?_
      rw [sizeMax] at hsum
      omega
    rw [packOffsets, List.map_cons, List.map_cons, offsets_cons, ih _ (by rw [hword]; omega), hword]

/-- The vectors of a prepared message lie at the word offsets, inside its
buffer. -/
structure PackedInside (vectors : List IpcVector) (offset size : Nat → Nat) :
    Prop where
  offset_eq : ∀ i < vectors.length, offset i = ((packOffsets vectors 0).map BitVec.toNat).getD i 0
  size_eq : ∀ i < vectors.length, size i = (vectors.map fun vector => vector.length.toNat).getD i 0
  inside : ∀ i < vectors.length, offset i + size i ≤ ffmTransferBytes

theorem PackedInside.of_stored {vectors : List IpcVector}
    (hsum : lengthSum vectors ≤ ffmTransferBytes) (offset size : Nat → Nat) :
    PackedInside vectors (store offset 0
        (offsets 0 ((vectors.map IpcVector.toIoVec).map IoVec.len)))
      (store size 0 ((vectors.map IpcVector.toIoVec).map IoVec.len)) := by
  have hlengths : (vectors.map IpcVector.toIoVec).map IoVec.len =
      vectors.map fun vector => vector.length.toNat := by
    rw [List.map_map]
    rfl
  have hpack := packOffsets_toNat vectors 0
    (by rw [toNat_zeroWord, Nat.zero_add]; exact hsum.trans (by decide))
  rw [toNat_zeroWord] at hpack
  have hoffset : ∀ i < vectors.length, ∀ default,
      (offsets 0 (vectors.map fun vector => vector.length.toNat)).getD i
        default = PackedRuns.offset (vectors.map fun vector => vector.length.toNat) i :=
    fun i hi => getD_offsets (by simpa using hi)
  rw [hlengths]
  refine ⟨fun i hi => ?_, fun i hi => ?_, fun i hi => ?_⟩
  · rw [store_zero, hpack, hoffset i hi, hoffset i hi]
  · rw [store_zero, List.getD_eq_getElem _ _ (by simpa using hi),
      List.getD_eq_getElem _ _ (by simpa using hi)]
  · have hle := offset_add_le_sum (vectors.map fun vector => vector.length.toNat) i
    rw [store_zero, store_zero, hoffset i hi, List.getD_eq_getElem _ _ (by simpa using hi)]
    rw [List.getD_eq_getElem _ _ (by simpa using hi)] at hle
    exact hle.trans hsum

theorem toNat_transferBytes : (BitVec.ofNat 32 ffmTransferBytes).toNat = ffmTransferBytes := by
  decide

theorem prepareVectors_packed {inputs outputs : Option (Nat → IpcVector)}
    {inputCount outputCount : Word} (hin : Given inputs inputCount)
    (hout : Given outputs outputCount) {ports : PortOps}
    {message prepared : Message} {memory memory' : Memory}
    (h : prepareVectors ports message memory ((vectorsOf inputs inputCount).map IpcVector.toIoVec)
      ((vectorsOf outputs outputCount).map IpcVector.toIoVec) = .ok (prepared, memory')) :
    (∃ total, validateVectors inputs inputCount outputs outputCount
        (BitVec.ofNat 32 ffmTransferBytes) = .ok total) ∧
      PackedInside (vectorsOf inputs inputCount) prepared.inOffset prepared.inSize ∧
      PackedInside (vectorsOf outputs outputCount) prepared.outOffset
        prepared.outSize := by
  obtain ⟨⟨total, htotal⟩, rfl, -⟩ := prepareVectors_eq_ok h
  have hwords := ipcValidateVectors_words hin hout (BitVec.ofNat 32 ffmTransferBytes)
  rw [toNat_transferBytes, htotal] at hwords
  cases hresult : validateVectors inputs inputCount outputs outputCount
      (BitVec.ofNat 32 ffmTransferBytes) with
  | error e =>
    rw [hresult] at hwords
    cases hwords
  | ok word =>
    obtain ⟨haccepted, -⟩ :=
      (validateVectors_eq_ok_iff _ _ _ _ _ _).mp hresult
    have hsum := haccepted.sum_le
    have hallowed : allowed (BitVec.ofNat 32 ffmTransferBytes) =
        ffmTransferBytes := by decide
    rw [hallowed, lengthSum_append] at hsum
    rw [declareOutputs_eq, captureInputs_eq]
    exact ⟨⟨word, rfl⟩, .of_stored (by omega) _ _, .of_stored (by omega) _ _⟩

end Packing

/-- Vector validation is exact. A call is accepted exactly if it has at most four
vectors, its arrays are there, each vector that is not empty has a base and ends
below the last address, and the sum of the lengths without wrapping is within the
limit; the total reported is that sum. A prepared message holds each vector inside
its buffer. -/
theorem vector_validation_exact (inputs outputs : Option (Nat → IpcVector))
    (inputCount outputCount : Word) :
    (∀ totalLimit total, validateVectors inputs inputCount outputs outputCount totalLimit =
          .ok total ↔
        Accepted inputs inputCount outputs outputCount totalLimit ∧
          total.toNat = lengthSum (vectorsOf inputs inputCount ++ vectorsOf outputs outputCount)) ∧
      (Given inputs inputCount → Given outputs outputCount →
        ∀ ports message memory prepared memory', prepareVectors ports message memory
              ((vectorsOf inputs inputCount).map IpcVector.toIoVec)
              ((vectorsOf outputs outputCount).map IpcVector.toIoVec) =
            .ok (prepared, memory') →
          (∃ total, validateVectors inputs inputCount outputs outputCount
              (BitVec.ofNat 32 ffmTransferBytes) = .ok total) ∧
            PackedInside (vectorsOf inputs inputCount) prepared.inOffset prepared.inSize ∧
            PackedInside (vectorsOf outputs outputCount) prepared.outOffset prepared.outSize) :=
  ⟨fun totalLimit total => validateVectors_eq_ok_iff _ _ _ _ totalLimit total,
    fun hin hout _ _ _ _ _ h => prepareVectors_packed hin hout h⟩

def sampleInputs : Option (Nat → IpcVector) :=
  some fun i => if i = 0 then ⟨0x20000000, 16⟩ else ⟨0x20000100, 8⟩

def sampleOutputs : Option (Nat → IpcVector) := some fun _ => ⟨0x20000200, 32⟩

theorem vector_validation_exact_sample : validateVectors sampleInputs 2 sampleOutputs 1
        (BitVec.ofNat 32 ffmTransferBytes) = .ok 56 ∧
      ∃ prepared memory', prepareVectors ⟨fun _ _ _ => true, fun _ _ _ => true⟩
            (clearedMessage 1 0) ⟨fun _ => 0, []⟩
            ((vectorsOf sampleInputs 2).map IpcVector.toIoVec)
            ((vectorsOf sampleOutputs 1).map IpcVector.toIoVec) =
          .ok (prepared, memory') ∧
        PackedInside (vectorsOf sampleInputs 2) prepared.inOffset prepared.inSize ∧
        PackedInside (vectorsOf sampleOutputs 1) prepared.outOffset
          prepared.outSize := by
  refine ⟨by decide +kernel, _, _, rfl, ?_⟩
  obtain ⟨-, hpacked⟩ :=
    vector_validation_exact sampleInputs sampleOutputs 2 1
  exact (hpacked (fun _ => rfl) (fun _ => rfl)
    ⟨fun _ _ _ => true, fun _ _ _ => true⟩ (clearedMessage 1 0)
    ⟨fun _ => 0, []⟩ _ _ rfl).2

end WolfTrust.IpcVectors
