import WolfTrust.VaultSteps

namespace WolfTrust.VaultWriteOnce

open Domain CrashLogic VaultStore VaultRecovery VaultAtomicity VaultPowerLoss VaultSteps
open WolfTrust.VaultTampering (objects_reslot objects_restage stage_reslot)

/-- A write-once object of a key, with its place and its counter. -/
structure Frozen (key : Key) where
  slot : Slot
  object : Object
  counter : Counter
  match_key : vaultLabelMatch object.label key = true
  once : anySet object.label.flags vaultFlagWriteOnce = true

/-- At most one slot is of the key, also once the stage is back in its place,
and the frozen object, if there is one, is where it was. -/
structure Once (key : Key) (frozen : Option (Frozen key)) (nvm : Nvm) :
    Prop where
  lone : ∀ i j found found', Finds nvm key i found → Finds nvm key j found' → i = j
  staged : ∀ slot staged, (tableOf nvm).reserved = slot.val + 1 →
    nvm.objects vaultStageId = some staged →
    vaultLabelMatch staged.label key = true →
    ∀ other found, Finds nvm key other found → other = slot
  object_eq : ∀ f ∈ frozen, nvm.objects (slotId f.slot) = some f.object
  counter_eq : ∀ f ∈ frozen, (tableOf nvm).slots f.slot = f.counter
  not_pending : ∀ f ∈ frozen, ¬ Pending nvm f.slot

section Steps

variable {sealer : Option Sealer} {key asked : Key} {frozen : Option (Frozen key)} {nvm nvm' : Nvm}
  {slot : Slot} {table : Table}

theorem Once.retable (h : Once key frozen nvm)
    (hstage : table.reserved = 0 ∨ nvm.objects vaultStageId = none)
    (hcounter : ∀ f ∈ frozen, table.slots f.slot = f.counter)
    (hpending : ∀ f ∈ frozen, ¬ Pending (withTable nvm table) f.slot) :
    Once key frozen (withTable nvm table) where
  lone := h.lone
  staged := by
    intro slot staged hreserved hstaged
    rcases hstage with hidle | hnone
    · have hreserved : table.reserved = slot.val + 1 := hreserved
      omega
    · cases hnone.symm.trans hstaged
  object_eq := h.object_eq
  counter_eq := hcounter
  not_pending := hpending

theorem Once.reslot {found : Option Object} (h : Once key frozen nvm)
    (hfixed : ∀ f ∈ frozen, f.slot ≠ slot)
    (hlone : ∀ object ∈ found, vaultLabelMatch object.label key = true →
      ∀ other object', Finds nvm key other object' → other = slot)
    (hstaged : ∀ object ∈ found, vaultLabelMatch object.label key = true →
      ∀ other : Slot, (tableOf nvm).reserved = other.val + 1 → other = slot) :
    Once key frozen (withObject nvm (slotId slot) found) where
  lone := by
    rintro i j object object' ⟨hi, hmatch⟩ ⟨hj, hmatch'⟩
    rcases objects_reslot hi with ⟨rfl, hnew⟩ | hold
    · rcases objects_reslot hj with ⟨rfl, -⟩ | hold'
      · rfl
      · exact (hlone object hnew hmatch j object' ⟨hold', hmatch'⟩).symm
    · rcases objects_reslot hj with ⟨rfl, hnew'⟩ | hold'
      · exact hlone object' hnew' hmatch' i object ⟨hold, hmatch⟩
      · exact h.lone i j object object' ⟨hold, hmatch⟩ ⟨hold', hmatch'⟩
  staged := by
    intro other staged hreserved hstage hmatch
    rw [stage_reslot] at hstage
    rintro i object ⟨hi, hmatch'⟩
    rcases objects_reslot hi with ⟨rfl, hnew⟩ | hold
    · exact (hstaged object hnew hmatch' other hreserved).symm
    · exact h.staged other staged hreserved hstage hmatch i object ⟨hold, hmatch'⟩
  object_eq := fun f hf =>
    (objects_withObject_of_ne (slotId_injective.ne (hfixed f hf))).trans (h.object_eq f hf)
  counter_eq := h.counter_eq
  not_pending := h.not_pending

theorem Once.restage {found : Option Object} (h : Once key frozen nvm)
    (hstaged : ∀ staged ∈ found, vaultLabelMatch staged.label key = true →
      ∀ slot : Slot, (tableOf nvm).reserved = slot.val + 1 →
      ∀ other object, Finds nvm key other object → other = slot) :
    Once key frozen (withObject nvm vaultStageId found) := by
  have hfinds : ∀ {i object}, Finds (withObject nvm vaultStageId found) key i
      object → Finds nvm key i object := by
    rintro i object ⟨hi, hmatch⟩
    rw [objects_restage] at hi
    exact ⟨hi, hmatch⟩
  refine ⟨fun i j object object' hi hj =>
      h.lone i j object object' (hfinds hi) (hfinds hj),
    fun slot staged hreserved hstage hmatch other object hother => ?_,
    fun f hf => ?_, h.counter_eq, h.not_pending⟩
  · rw [objects_withObject_self] at hstage
    exact hstaged staged hstage hmatch slot hreserved other object (hfinds hother)
  · rw [objects_restage]
    exact h.object_eq f hf

theorem Once.ne_of_changeable {object : Object} (h : Once key frozen nvm)
    (hchangeable : Changeable nvm asked slot object) (f : Frozen key)
    (hf : f ∈ frozen) : f.slot ≠ slot := by
  rintro rfl
  have hobject := h.object_eq f hf
  rw [hchangeable.object_eq] at hobject
  cases hobject
  have honce := hchangeable.notOnce
  rw [f.once] at honce
  cases honce

theorem Once.ne_of_writable (h : Once key frozen nvm) (hwritable : Writable nvm asked slot)
    (f : Frozen key) (hf : f ∈ frozen) : f.slot ≠ slot := by
  rcases hwritable with ⟨object, hchangeable⟩ | ⟨hnone, -⟩
  · exact h.ne_of_changeable hchangeable f hf
  · rintro rfl
    cases hnone.symm.trans (h.object_eq f hf)

theorem Once.ne_of_pending (h : Once key frozen nvm) (hpending : Pending nvm slot)
    (f : Frozen key) (hf : f ∈ frozen) : f.slot ≠ slot := by
  rintro rfl
  exact h.not_pending f hf hpending

theorem not_pending_of_idle (h : table.reserved = 0)
    (slot : Slot) : ¬ Pending (withTable nvm table) slot := by
  have hreserved : (tableOf (withTable nvm table)).reserved = 0 := h
  rintro (hpending | hpending) <;> omega

theorem pending_unique {i j : Slot} (hi : Pending nvm i) (hj : Pending nvm j) : i = j := by
  have hi' := i.isLt
  have hj' := j.isLt
  unfold Pending deleteMarkerBase vaultIdCount at hi hj
  exact Fin.ext (by omega)

theorem Once.recount {counter : Counter} (h : Once key frozen nvm) (hidle : table.reserved = 0)
    (hslots : table.slots = Function.update (tableOf nvm).slots slot counter)
    (hfixed : ∀ f ∈ frozen, f.slot ≠ slot) : Once key frozen (withTable nvm table) := by
  refine h.retable (.inl hidle) (fun f hf => ?_) fun f _ => not_pending_of_idle hidle f.slot
  rw [hslots, Function.update_of_ne (hfixed f hf)]
  exact h.counter_eq f hf

theorem Once.announce (h : Once key frozen nvm) (hstage : nvm.objects vaultStageId = none)
    (hslots : table.slots = (tableOf nvm).slots) (hnames : Pending (withTable nvm table) slot)
    (hfixed : ∀ f ∈ frozen, f.slot ≠ slot) : Once key frozen (withTable nvm table) := by
  refine h.retable (.inr hstage) (fun f hf => ?_) fun f hf hpending => ?_
  · rw [hslots]
    exact h.counter_eq f hf
  · exact hfixed f hf (pending_unique hpending hnames)

theorem Once.only_writable (h : Once key frozen nvm) (hwritable : Writable nvm key slot)
    (other : Slot) (object : Object) (hother : Finds nvm key other object) : other = slot := by
  rcases hwritable with ⟨found, hchangeable⟩ | ⟨-, hmissing⟩
  · exact h.lone other slot object found hother ⟨hchangeable.object_eq, hchangeable.match_key⟩
  · exact absurd (VaultTampering.names_iff.mpr ⟨object, hother⟩) (hmissing other)

theorem Once.write (h : Once key frozen nvm)
    (hwrite : Write sealer asked nvm nvm') : Once key frozen nvm' := by
  cases hwrite with
  | unstage => exact h.restage fun staged hnone => by cases hnone
  | restore slot staged plain reserved stage =>
    refine h.reslot (h.ne_of_pending (.inl reserved)) ?_ ?_
    · rintro object ⟨⟩ hmatch
      exact h.staged slot staged reserved stage hmatch
    · intro _ _ _ other hother
      exact Fin.ext (by omega)
  | clear slot pending =>
    exact h.reslot (h.ne_of_pending pending) (fun object hnone => by cases hnone)
      fun object hnone => by cases hnone
  | settle => exact h.retable (.inl rfl) h.counter_eq fun f _ => not_pending_of_idle rfl f.slot
  | forget slot pending => exact h.recount rfl rfl (h.ne_of_pending pending)
  | count slot counter global idle writable => exact h.recount idle rfl (h.ne_of_writable writable)
  | mark slot old global stage changeable =>
    exact h.announce stage rfl (.inl rfl) (h.ne_of_changeable changeable)
  | stage slot old reserved changeable =>
    refine h.restage ?_
    rintro staged ⟨⟩ hmatch other hother i object hi
    have hsame : other = slot := Fin.ext (by omega)
    subst hsame
    exact h.lone i other object old hi ⟨changeable.object_eq, hmatch⟩
  | place slot flags payload reserved writable =>
    refine h.reslot (h.ne_of_writable writable) ?_ ?_
    · rintro object ⟨⟩ hmatch
      obtain rfl : key = asked := labelMatch_unique hmatch (labelMatch_makeLabel asked flags)
      exact h.only_writable writable
    · intro _ _ _ other hother
      exact Fin.ext (by omega)
  | commit slot counter reserved => exact h.recount rfl rfl (h.ne_of_pending (.inl reserved))
  | condemn slot object stage changeable =>
    exact h.announce stage rfl (.inr rfl) (h.ne_of_changeable changeable)
  | remove slot object changeable =>
    exact h.reslot (h.ne_of_changeable changeable)
      (fun object hnone => by cases hnone) fun object hnone => by cases hnone

theorem once_invariant : Invariant sealer (Once key frozen) :=
  fun _ _ _ h hwrite => h.write hwrite

end Steps

section Runs

variable {sealer : Option Sealer} {key : Key} {w : World} {flags : Word}
  {data payload : Bytes} {slot : Slot} {nvm : Nvm}

/-- The object of a write-once set, frozen where it was put. -/
def frozenAt (key : Key) (flags : Word) (honce : anySet flags vaultFlagWriteOnce = true)
    (slot : Slot) (payload : Bytes) (nvm : Nvm) : Frozen key where
  slot := slot
  object := setObject flags (vaultMakeLabel key flags) payload
  counter := (tableOf nvm).slots slot
  match_key := labelMatch_makeLabel key flags
  once := honce

theorem Once.freeze (h : Once key none nvm) (honce : anySet flags vaultFlagWriteOnce = true)
    (hplaced : Placed sealer key flags data slot payload nvm) :
    Once key (some (frozenAt key flags honce slot payload nvm)) nvm where
  lone := h.lone
  staged := h.staged
  object_eq := by
    rintro f ⟨⟩
    exact hplaced.object_eq
  counter_eq := by
    rintro f ⟨⟩
    rfl
  not_pending := by
    rintro f ⟨⟩ (hpending | hpending)
    · exact absurd (hplaced.idle.symm.trans hpending) (Nat.succ_ne_zero _).symm
    · exact absurd (hplaced.idle.symm.trans hpending) (Nat.succ_ne_zero _).symm

theorem Once.read {f : Frozen key} {tells : Object → Counter → Prop} (h : Once key (some f) nvm)
    (hread : Read sealer key key nvm tells w) : tells f.object f.counter := by
  obtain ⟨nvm', -, hpath, slot, object, hfinds, htells⟩ := hread
  have hlater : Once key (some f) nvm' := once_invariant.path h hpath
  have hobject := hlater.object_eq f rfl
  obtain rfl := hlater.lone slot f.slot object f.object hfinds ⟨hobject, f.match_key⟩
  cases hfinds.1.symm.trans hobject
  rw [hlater.counter_eq f rfl] at htells
  exact htells

/-- A write-once object is immutable. Once a set with the flag has returned
success, whatever is requested and whatever faults strike, the object and its
counter stay where they are, no other slot is of the key, and a get or get_info
of the key that succeeds returns what was set. -/
theorem write_once_immutable (sealer : Option Sealer) (hround : RoundTrip sealer) (w : World)
    (key : Key) (flags : Word) (data : Bytes) (htidy : Tidy w.nvm) (hlone : Once key none w.nvm)
    (honce : anySet flags vaultFlagWriteOnce = true) (earlier later : List Attempt)
    (faults : List Fault) (hearlier : ∀ a ∈ earlier, a.Benign) (hlater : ∀ a ∈ later, a.Benign)
    (hfaults : ∀ fault ∈ faults, Fault.Benign fault) :
    let set := serve sealer (serveAll sealer w earlier)
      { request := .set key flags data, faults }
    let after := serveAll sealer set.2 later
    set.1 = .done () → ∃ slot object, object.label = vaultMakeLabel key flags ∧
      set.2.nvm.objects (slotId slot) = some object ∧
      after.nvm.objects (slotId slot) = some object ∧
      (tableOf after.nvm).slots slot = (tableOf set.2.nvm).slots slot ∧
      (∀ other found, Finds after.nvm key other found → other = slot) ∧
      ∀ struck : List Fault, (∀ fault ∈ struck, Fault.Benign fault) → (∀ offset size bytes,
          (vaultGet sealer key offset size
            { after with faults := struck }).1 = .done bytes →
          offset ≤ data.length ∧ bytes = (data.drop offset).take size) ∧
        ∀ info, (vaultGetInfo sealer key
            { after with faults := struck }).1 = .done info →
          info = { size := data.length, flags } := by
  intro set after hdone
  let before := serveAll sealer w earlier
  have htidy₀ : Tidy before.nvm := tidy_invariant.serveAll htidy htidy earlier hearlier
  have honce₀ : Once key none before.nvm := once_invariant.serveAll htidy hlone earlier hearlier
  have hset : wp (vaultSet sealer key flags data) (fun _ => Sets sealer key flags data before.nvm)
      (fun _ => Left sealer key before.nvm) (Left sealer key before.nvm)
      { before with faults } := set_path ⟨rfl, hfaults⟩ htidy₀
  obtain ⟨nvm, hat, hpath, slot, payload, hplaced⟩ := hset.of_done hdone
  have hnvm : set.2.nvm = nvm := hat.nvm_eq
  let f := frozenAt key flags honce slot payload nvm
  have hfrozen : Once key (some f) nvm := (once_invariant.path honce₀ hpath).freeze honce hplaced
  have htidy₁ : Tidy nvm := tidy_invariant.path htidy₀ hpath
  have hend : Once key (some f) after.nvm :=
    once_invariant.serveAll (hnvm ▸ htidy₁) (hnvm ▸ hfrozen) later hlater
  have htidy₂ : Tidy after.nvm :=
    tidy_invariant.serveAll (hnvm ▸ htidy₁) (hnvm ▸ htidy₁) later hlater
  refine ⟨slot, f.object, rfl, ?_, hend.object_eq f rfl, ?_, ?_,
    fun struck hstruck => ⟨fun offset size bytes hget => ?_, fun info hget => ?_⟩⟩
  · rw [hnvm]
    exact hplaced.object_eq
  · rw [hnvm]
    exact hend.counter_eq f rfl
  · exact fun other found hother =>
      hend.lone other slot found f.object hother ⟨hend.object_eq f rfl, f.match_key⟩
  · have hat' : At after.nvm { after with faults := struck } := ⟨rfl, hstruck⟩
    exact hplaced.answers hround (hend.read ((get_path hat' htidy₂ offset size).of_done hget))
  · have hat' : At after.nvm { after with faults := struck } := ⟨rfl, hstruck⟩
    exact hplaced.describes hround (hend.read ((getInfo_path hat' htidy₂).of_done hget))

end Runs

section Sample

theorem emptyVault_once (key : Key) (counter : Counter) :
    Tidy (emptyVault counter).nvm ∧ Once key none (emptyVault counter).nvm := by
  refine ⟨fun _ => rfl, ?_, ?_, ?_, ?_, ?_⟩
  · rintro i j found found' ⟨hi, -⟩
    cases hi
  · rintro slot staged hreserved
    cases hreserved
  · rintro f ⟨⟩
  · rintro f ⟨⟩
  · rintro f ⟨⟩

def onceFlags : Word := vaultFlagSealed ||| vaultFlagWriteOnce

def otherKey : Key := { sampleKey with uid := 10 }

/-- Another set and a removal of the key, and a replacement of another object
that loses power between the new object and its table. -/
def intrusions : List Attempt :=
  [{ request := .set sampleKey vaultFlagSealed [7], faults := [] },
   { request := .remove sampleKey, faults := [] },
   { request := .set otherKey vaultFlagSealed [1], faults := [] },
   { request := .set otherKey vaultFlagSealed [2], faults := powerLossAt 10 }]

theorem write_once_immutable_sample :
    let set := serve (some sampleSealer) (emptyVault 0)
      { request := .set sampleKey onceFlags [1, 2, 3], faults := [] }
    let after := serveAll (some sampleSealer) set.2 intrusions
    set.1 = .done () ∧ (tableOf after.nvm).reserved ≠ 0 ∧
      readBack (some sampleSealer) after.nvm sampleKey 0 10 = .done [1, 2, 3] ∧
      ∃ slot object, set.2.nvm.objects (slotId slot) = some object ∧
        after.nvm.objects (slotId slot) = some object := by
  intro set after
  have hbenign : ∀ a ∈ intrusions, a.Benign := by
    intro a ha fault hfault
    simp only [intrusions, List.mem_cons, List.not_mem_nil, or_false] at ha
    rcases ha with rfl | rfl | rfl | rfl
    · cases hfault
    · cases hfault
    · cases hfault
    · exact powerLossAt_benign 10 fault hfault
  have hdone : set.1 = .done () := by decide +kernel
  obtain ⟨htidy, hlone⟩ := emptyVault_once sampleKey 0
  obtain ⟨slot, object, -, hset, hafter, -⟩ := write_once_immutable
    (some sampleSealer) sampleSealer_roundTrip (emptyVault 0) sampleKey
    onceFlags [1, 2, 3] htidy hlone (by decide) [] intrusions []
    (fun _ hnone => by cases hnone) hbenign (fun _ hnone => by cases hnone)
    hdone
  exact ⟨hdone, by decide +kernel, by decide +kernel, slot, object, hset, hafter⟩

end Sample

end WolfTrust.VaultWriteOnce
