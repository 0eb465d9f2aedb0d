import WolfTrust.VaultSeparation

namespace WolfTrust.VaultDurability

open Domain CrashLogic VaultStore VaultRecovery VaultAtomicity VaultPowerLoss
  VaultSteps VaultSeparation VaultWriteOnce

/-- The store is `nvm` and no fault is to come. -/
structure Calm (nvm : Nvm) (w : World) : Prop where
  nvm_eq : w.nvm = nvm
  faults_eq : w.faults = []

def Succeeds {α : Type} (p : VaultM α) (Q : α → World → Prop) (w : World) : Prop :=
  wp p Q (fun _ _ => False) (fun _ => False) w

section Reads

variable {sealer : Option Sealer} {nvm : Nvm} {w : World} {key : Key}
  {slot : Slot} {object : Object}

theorem Calm.fault (h : Calm nvm w) : w.fault = noFault := by
  unfold World.fault
  rw [h.faults_eq]
  rfl

theorem Calm.next (h : Calm nvm w) : Calm nvm w.next := by
  refine ⟨h.nvm_eq, ?_⟩
  show w.faults.tail = []
  rw [h.faults_eq]
  rfl

theorem nvmQuery_calm {α : Type} {answer : World → Except NvmError α} (h : Calm nvm w) :
    wp (nvmQuery answer) (fun value w' => answer w = .ok value ∧ Calm nvm w')
      (fun code w' => answer w = .error code ∧ Calm nvm w') (fun _ => False)
      w := by
  unfold wp nvmQuery
  rw [h.fault]
  dsimp only [noFault]
  cases answer w with
  | ok | error => exact ⟨rfl, h.next⟩

theorem nvmReadChecked_calm {id : Nat} (h : Calm nvm w) (hobject : nvm.objects id = some object)
    (hexport : object.flags.nonexportable = false) (offset length : Nat) :
    Succeeds (mapped (nvmReadChecked id offset length))
      (fun bytes w' => bytes = (object.data.drop offset).take length ∧ Calm nvm w') w := by
  unfold Succeeds nvmReadChecked
  rw [wp_mapped]
  refine (nvmQuery_calm h).mono ?_ ?_ fun _ h => h
  all_goals
    rintro result w' ⟨hanswer, hcalm⟩
    rw [h.nvm_eq, hobject] at hanswer
    dsimp only at hanswer
    rw [hexport] at hanswer
    cases hanswer
  exact ⟨rfl, hcalm⟩

theorem nvmGetMetadata_calm (h : Calm nvm w) (id : Nat) : Succeeds (tried (nvmGetMetadata id))
      (fun found w' => found = (nvm.objects id).elim (.error .notfound) .ok ∧ Calm nvm w') w := by
  unfold Succeeds nvmGetMetadata
  rw [wp_tried]
  refine (nvmQuery_calm h).mono ?_ ?_ fun _ h => h
  all_goals
    rintro result w' ⟨hanswer, hcalm⟩
    rw [h.nvm_eq] at hanswer
    exact ⟨hanswer.symm, hcalm⟩

theorem nvmGetMetadata_object (h : Calm nvm w) (id : Nat) : wp (nvmGetMetadata id)
      (fun object w' => nvm.objects id = some object ∧ Calm nvm w')
      (fun code w' => nvm.objects id = none ∧ code = .notfound ∧ Calm nvm w')
      (fun _ => False) w := by
  refine (wp_tried.mp (nvmGetMetadata_calm h id)).mono ?_ ?_ fun _ h => h
  all_goals
    rintro found w' ⟨hfound, hcalm⟩
    cases hobject : nvm.objects id <;> rw [hobject] at hfound <;> cases hfound
  · exact ⟨rfl, hcalm⟩
  · exact ⟨rfl, rfl, hcalm⟩

theorem nvmReadTable_calm (h : Calm nvm w) :
    wp nvmReadTable (fun table w' => tableOf nvm = table ∧ Calm nvm w')
      (fun code w' => code = .notfound ∧ tableOf nvm = emptyTable ∧ Calm nvm w')
      (fun _ => False) w := by
  have hread := h.next
  unfold wp nvmReadTable nvmQuery storedTable tableOf
  rw [h.fault, h.nvm_eq]
  dsimp only [noFault]
  cases nvm.table with
  | none => exact ⟨rfl, rfl, hread⟩
  | some => exact ⟨rfl, hread⟩

theorem vaultReadSealed_calm {id : Nat} {counter : Counter} {plain : Bytes}
    (h : Calm nvm w) (hobject : nvm.objects id = some object)
    (hcontent : sealedContent sealer object counter = .ok plain) :
    Succeeds (vaultReadSealed sealer id object counter)
      (fun read w' => read.2 = plain ∧ Calm nvm w') w := by
  unfold sealedContent at hcontent
  unfold vaultReadSealed Succeeds
  cases sealer with
  | none => cases hcontent
  | some s =>
    dsimp only at hcontent ⊢
    split at hcontent
    · cases hcontent
    · rename_i hvalid
      rw [if_neg hvalid, wp_bind]
      split at hcontent
      · cases hcontent
      · rename_i hexport
        refine (nvmReadChecked_calm h hobject (Bool.eq_false_iff.mpr hexport)
          0 object.data.length).mono ?_ (fun _ _ h => h) (fun _ h => h)
        rintro cipher w' ⟨rfl, hcalm⟩
        rw [List.drop_zero, List.take_length, hcontent]
        exact ⟨rfl, hcalm⟩

theorem lookupFrom_calm (h : Calm nvm w) (hfinds : Finds nvm key slot object)
    (hlone : ∀ other found, Finds nvm key other found → other = slot)
    (slots : List Slot) (hmem : slot ∈ slots) (free : Option Slot) :
    Succeeds (vaultLookupFrom key slots free)
      (fun looked w' => looked.found = some (slot, object) ∧ Calm nvm w')
      w := by
  induction slots generalizing w free with
  | nil => cases hmem
  | cons other later ih =>
    have hlater : ¬ Finds nvm key other object → slot ∈ later := by
      rcases List.mem_cons.mp hmem with rfl | hlater
      · exact fun hnot => absurd hfinds hnot
      · exact fun _ => hlater
    unfold vaultLookupFrom Succeeds
    refine (nvmGetMetadata_calm h (slotId other)).bind ?_
    rintro found w' ⟨rfl, hcalm⟩
    rcases hother : nvm.objects (slotId other) with _ | found
    · refine ih hcalm (hlater fun hfound => ?_) _
      cases hother.symm.trans hfound.1
    · dsimp only [Option.elim]
      split
      · rename_i hmatch
        obtain rfl := hlone other found ⟨hother, hmatch⟩
        cases hfinds.1.symm.trans hother
        exact ⟨rfl, hcalm⟩
      · rename_i hmatch
        refine ih hcalm (hlater fun hfound => ?_) free
        cases hother.symm.trans hfound.1
        exact hmatch hfound.2

theorem vaultFind_calm (h : Calm nvm w) (hfinds : Finds nvm key slot object)
    (hlone : ∀ other found, Finds nvm key other found → other = slot) :
    Succeeds (vaultFind key) (fun found w' => found = (slot, object) ∧ Calm nvm w') w := by
  unfold vaultFind Succeeds
  refine (lookupFrom_calm h hfinds hlone _ (List.mem_finRange slot) none).bind ?_
  rintro looked w' ⟨hfound, hcalm⟩
  rw [hfound]
  exact ⟨rfl, hcalm⟩

end Reads

/-- The store is one that the vault leaves: its table is valid, what may be
changed or is being removed can be destroyed, and a replacement under way can be
taken back. -/
structure Recoverable (sealer : Option Sealer) (nvm : Nvm) : Prop where
  magic : (tableOf nvm).magic = vaultTableMagic
  bounded : (tableOf nvm).reserved ≤ deleteMarkerBase + vaultIdCount
  changeable : ∀ slot object, nvm.objects (slotId slot) = some object → isKey object.label = false →
    anySet object.label.flags vaultFlagWriteOnce = false →
    destroyable object = true
  replaced : ∀ slot : Slot, (tableOf nvm).reserved = slot.val + 1 → Restorable sealer nvm slot
  removed : ∀ (slot : Slot) object, (tableOf nvm).reserved = deleteMarkerBase + slot.val + 1 →
    nvm.objects (slotId slot) = some object → destroyable object = true

section Recoverable

variable {sealer : Option Sealer} {key : Key} {nvm nvm' : Nvm} {slot : Slot}
  {table : Table}

theorem replacing_ne_removing (slot other : Slot) :
    slot.val + 1 ≠ deleteMarkerBase + other.val + 1 := by
  have hslot := slot.isLt
  unfold deleteMarkerBase vaultIdCount
  omega

theorem Recoverable.idle (h : Recoverable sealer nvm) (hmagic : table.magic = (tableOf nvm).magic)
    (hidle : table.reserved = 0) : Recoverable sealer (withTable nvm table) := by
  have hreserved : (tableOf (withTable nvm table)).reserved = 0 := hidle
  refine ⟨hmagic.trans h.magic, by omega, h.changeable, fun slot hslot => ?_,
    fun slot object hslot => ?_⟩
  · omega
  · omega

theorem Recoverable.reslot {found : Option Object} (h : Recoverable sealer nvm)
    (hnew : ∀ object ∈ found, isKey object.label = false →
      anySet object.label.flags vaultFlagWriteOnce = false →
      destroyable object = true)
    (hreplaced : ∀ other : Slot, (tableOf nvm).reserved = other.val + 1 → Staged sealer nvm other)
    (hremoved : (tableOf nvm).reserved = deleteMarkerBase + slot.val + 1 → found = none) :
    Recoverable sealer (withObject nvm (slotId slot) found) := by
  refine ⟨h.magic, h.bounded, fun other object hobject hkey honce => ?_,
    fun other hother => .inl ?_, fun other object hother hobject => ?_⟩
  · rcases VaultTampering.objects_reslot hobject with ⟨-, hfound⟩ | hold
    · exact hnew object hfound hkey honce
    · exact h.changeable other object hold hkey honce
  · obtain ⟨staged, hstaged, hauthentic⟩ := hreplaced other hother
    exact ⟨staged, (VaultTampering.stage_reslot _ _ _).trans hstaged, hauthentic⟩
  · rcases VaultTampering.objects_reslot hobject with ⟨rfl, hfound⟩ | hold
    · rw [hremoved hother] at hfound
      cases hfound
    · exact h.removed other object hother hold

theorem Recoverable.restage {found : Option Object} (h : Recoverable sealer nvm)
    (hreplaced : ∀ other : Slot, (tableOf nvm).reserved = other.val + 1 →
      ∃ staged ∈ found, Authentic sealer nvm other staged) :
    Recoverable sealer (withObject nvm vaultStageId found) := by
  refine ⟨h.magic, h.bounded, fun other object hobject => ?_,
    fun other hother => .inl ?_, fun other object hother hobject => ?_⟩
  · rw [VaultTampering.objects_restage] at hobject
    exact h.changeable other object hobject
  · obtain ⟨staged, hstaged, hauthentic⟩ := hreplaced other hother
    exact ⟨staged, objects_withObject_self.trans hstaged, hauthentic⟩
  · rw [VaultTampering.objects_restage] at hobject
    exact h.removed other object hother hobject

theorem Recoverable.write (h : Recoverable sealer nvm)
    (hwrite : Write sealer key nvm nvm') : Recoverable sealer nvm' := by
  -- the table names one slot, for a replacement or for a removal
  have hsame : ∀ {i j : Slot}, (tableOf nvm).reserved = i.val + 1 →
      (tableOf nvm).reserved = j.val + 1 → j = i :=
    fun hi hj => Fin.ext (by omega)
  cases hwrite with
  | unstage => exact h.restage fun other hother => by omega
  | restore slot staged plain reserved stage authentic =>
    refine h.reslot ?_ ?_ fun hremoving =>
      absurd (reserved.symm.trans hremoving) (replacing_ne_removing slot slot)
    · rintro object ⟨⟩ - -
      rfl
    · intro other hother
      exact hsame reserved hother ▸ ⟨staged, stage, plain, authentic⟩
  | clear slot pending lost =>
    refine h.reslot (fun _ hnone => by cases hnone) ?_ fun _ => rfl
    intro other hother
    rcases pending with hreserved | hreserved
    · exact absurd (h.replaced slot hreserved) (lost hreserved)
    · exact absurd (hother.symm.trans hreserved) (replacing_ne_removing other slot)
  | settle | forget | commit => exact h.idle rfl rfl
  | count slot counter global idle => exact h.idle rfl idle
  | mark slot old global stage changeable authentic =>
    refine ⟨h.magic, ?_, h.changeable, fun other hother => ?_,
      fun other _ hother => absurd hother (replacing_ne_removing slot other)⟩
    · have hslot := slot.isLt
      show slot.val + 1 ≤ deleteMarkerBase + vaultIdCount
      unfold deleteMarkerBase vaultIdCount
      omega
    · obtain rfl : slot = other := Fin.ext (Nat.succ.inj hother)
      exact .inr ⟨stage, old, changeable.object_eq, authentic⟩
  | stage slot old reserved changeable authentic =>
    refine h.restage fun other hother => ?_
    exact ⟨_, rfl, hsame reserved hother ▸ authentic.sensitive⟩
  | place slot flags payload reserved writable staged =>
    refine h.reslot ?_ ?_ fun hremoving => ?_
    · rintro object ⟨⟩ - honce
      have honce : anySet flags vaultFlagWriteOnce = false := honce
      simp [setObject, destroyable, objectFlags, honce]
    · intro other hother
      have hreserved := reserved.resolve_left (by omega)
      exact hsame hreserved hother ▸ staged hreserved
    · rcases reserved with hreserved | hreserved
      · omega
      · exact absurd (hreserved.symm.trans hremoving) (replacing_ne_removing slot slot)
  | condemn slot object stage changeable =>
    refine ⟨h.magic, ?_, h.changeable, fun other hother =>
      absurd hother.symm (replacing_ne_removing other slot),
      fun other found hother hfound => ?_⟩
    · have hslot := slot.isLt
      show deleteMarkerBase + slot.val + 1 ≤ deleteMarkerBase + vaultIdCount
      unfold vaultIdCount
      omega
    · have hmarker : deleteMarkerBase + slot.val + 1 = deleteMarkerBase + other.val + 1 := hother
      obtain rfl : slot = other := Fin.ext (by omega)
      cases changeable.object_eq.symm.trans hfound
      exact h.changeable slot object hfound changeable.notKey changeable.notOnce
  | remove slot object changeable announced =>
    refine h.reslot (fun _ hnone => by cases hnone) ?_ fun _ => rfl
    intro other hother
    rcases announced with hidle | hmarker
    · omega
    · exact absurd (hother.symm.trans hmarker) (replacing_ne_removing other slot)

theorem recoverable_invariant : Invariant sealer (Recoverable sealer) :=
  fun _ _ _ h hwrite => h.write hwrite

end Recoverable

section Loads

variable {sealer : Option Sealer} {nvm : Nvm} {w : World} {slot : Slot}
  {table : Table} {object : Object}

def Completes {α : Type} (p : VaultM α) (w : World) : Prop :=
  Succeeds p (fun _ w' => w'.faults = []) w

theorem Succeeds.bind {α β : Type} {p : VaultM α} {f : α → VaultM β} {Q : α → World → Prop}
    (hp : Succeeds p Q w) (hf : ∀ value w', Q value w' → Completes (f value) w') :
    Completes (p >>= f) w := by
  unfold Completes Succeeds
  rw [wp_bind]
  exact hp.mono hf (fun _ _ h => h) fun _ h => h

theorem Completes.bind {α β : Type} {p : VaultM α} {f : α → VaultM β} (hp : Completes p w)
    (hf : ∀ value w', w'.faults = [] → Completes (f value) w') : Completes (p >>= f) w :=
  Succeeds.bind hp hf

theorem nvmChange_completes (h : w.faults = []) (id : Nat)
    (object : Option Object) : Completes (mapped (nvmChange id object)) w := by
  have hcalm : Calm w.nvm w := ⟨rfl, h⟩
  unfold Completes Succeeds
  rw [wp_mapped]
  unfold wp nvmChange
  rw [hcalm.fault]
  exact hcalm.next.faults_eq

theorem vaultReserve_calm (h : Calm nvm w) {size objects : Nat} (hsize : size ≤ 0x10000)
    (hobjects : objects ≤ 64) : Succeeds (vaultReserve size objects) (fun _ => Calm nvm) w := by
  unfold Succeeds vaultReserve nvmGetAvailable
  rw [wp_bind, wp_mapped]
  refine (nvmQuery_calm h).mono ?_ (fun _ _ h => by cases h.1) (fun _ h => h)
  rintro room w' ⟨hroom, hcalm⟩
  rw [h.fault] at hroom
  cases hroom
  have hample : ¬(noFault.room.size < size ∨ noFault.room.objects < objects) := by
    show ¬(0x10000 < size ∨ 64 < objects)
    omega
  rw [if_neg hample]
  exact hcalm

theorem vaultTableStore_completes (h : w.faults = []) (table : Table) :
    Completes (vaultTableStore table) w := by
  unfold vaultTableStore
  have hcalm : Calm w.nvm w := ⟨rfl, h⟩
  refine (vaultReserve_calm hcalm (by decide) (by decide)).bind fun _ w' hcalm' => ?_
  unfold Completes Succeeds
  rw [wp_orStorageFailure]
  unfold wp nvmAddTable
  rw [hcalm'.fault]
  exact hcalm'.next.faults_eq

theorem vaultDestroyStage_completes (h : w.faults = []) : Completes vaultDestroyStage w := by
  unfold vaultDestroyStage
  have hcalm : Calm w.nvm w := ⟨rfl, h⟩
  refine (nvmGetMetadata_calm hcalm vaultStageId).bind ?_
  rintro found w' ⟨rfl, hcalm'⟩
  cases w.nvm.objects vaultStageId with
  | none => exact hcalm'.faults_eq
  | some => exact nvmChange_completes hcalm'.faults_eq _ _

/-- The end of a recovery: the table is stored and the stage is cleared. -/
theorem close_completes (h : w.faults = []) (table : Table) :
    Completes (vaultTableStore table >>= fun _ => vaultDestroyStage >>= fun _ =>
      pure table) w :=
  (vaultTableStore_completes h table).bind fun _ _ h' =>
    (vaultDestroyStage_completes h').bind fun _ _ h'' => h''

theorem sealedContent_length {counter : Counter} {plain : Bytes}
    (h : sealedContent sealer object counter = .ok plain) :
    object.data.length ≤ vaultObjectMax + vaultSealTagLen := by
  unfold sealedContent at h
  cases sealer with
  | none => cases h
  | some s =>
    dsimp only at h
    split at h
    · cases h
    · rename_i hvalid
      push Not at hvalid
      exact hvalid.2.2.2

theorem vaultRestore_completes (h : w.faults = [])
    (hlength : object.data.length ≤ vaultObjectMax + vaultSealTagLen)
    (cipher : Bytes) : Completes (vaultRestore table slot object cipher) w := by
  unfold vaultRestore
  have hcalm : Calm w.nvm w := ⟨rfl, h⟩
  have hsize : vaultStorageSize object.data.length + vaultStorageSize sizeofTable ≤ 0x10000 := by
    unfold vaultObjectMax vaultSealTagLen at hlength
    unfold vaultStorageSize sizeofTable
    omega
  refine (vaultReserve_calm hcalm hsize (by decide)).bind fun _ w₁ h₁ => ?_
  refine (nvmChange_completes h₁.faults_eq _ _).bind fun _ w₂ h₂ => ?_
  exact close_completes h₂ _

theorem recoverLive_completes (h : Calm nvm w) (hreserved : (tableOf nvm).reserved = slot.val + 1)
    (hobject : nvm.objects (slotId slot) = some object)
    (hauthentic : Authentic sealer nvm slot object) :
    Completes (vaultRecoverLive sealer (tableOf nvm)) w := by
  obtain ⟨plain, hcontent⟩ := hauthentic
  have hindex : (Fin.ofNat 32 ((tableOf nvm).reserved - 1) : Slot) = slot := by
    rw [hreserved, Nat.add_sub_cancel]
    exact slot_of_reserved slot
  unfold vaultRecoverLive
  dsimp only
  rw [hindex]
  refine (nvmGetMetadata_calm h (slotId slot)).bind ?_
  rintro found w₁ ⟨rfl, h₁⟩
  rw [hobject]
  have hread : Succeeds (liveStatus sealer (tableOf nvm) slot (.ok object))
      (fun status w' => (∃ read, status = .ok read) ∧ w'.faults = []) w₁ := by
    unfold Succeeds liveStatus
    dsimp only
    rw [wp_attempt]
    exact (vaultReadSealed_calm h₁ hobject hcontent).mono
      (fun read _ h' => ⟨⟨read, rfl⟩, h'.2.faults_eq⟩) (fun _ _ h => h.elim)
      (fun _ h => h)
  refine hread.bind ?_
  rintro _ w₂ ⟨⟨read, rfl⟩, h₂⟩
  exact close_completes h₂ _

theorem recoverDelete_completes (h : Calm nvm w)
    (hreserved : (tableOf nvm).reserved = deleteMarkerBase + slot.val + 1)
    (hremoved : ∀ object, nvm.objects (slotId slot) = some object → destroyable object = true) :
    Completes (vaultRecoverDelete (tableOf nvm)) w := by
  have hindex : (Fin.ofNat 32 ((tableOf nvm).reserved - deleteMarkerBase - 1) : Slot) = slot := by
    rw [show (tableOf nvm).reserved - deleteMarkerBase - 1 = slot.val by omega]
    exact slot_of_reserved slot
  have hclose : ∀ w', w'.faults = [] →
      Completes (vaultTableStore ((tableOf nvm).close slot 0) >>= fun _ =>
        pure ((tableOf nvm).close slot 0)) w' :=
    fun w' h' => (vaultTableStore_completes h' _).bind fun _ _ h'' => h''
  unfold vaultRecoverDelete Completes Succeeds
  rw [hindex, wp_bind, wp_attempt, wp_mapped]
  refine (nvmGetMetadata_object h (slotId slot)).mono ?_ ?_ (fun _ h => h)
  · rintro object w₁ ⟨hobject, h₁⟩
    dsimp only
    split
    · exact hclose w₁ h₁.faults_eq
    · rw [wp_bind, wp_attempt, wp_mapped]
      unfold nvmDestroyObjectChecked
      rw [wp_bind]
      have hallowed : [slotId slot].all (fun id =>
          (w₁.nvm.objects id).all destroyable) = true := by
        simp [h₁.nvm_eq, hobject, hremoved object hobject]
      have hpolicy : nvmPolicy destroyable [slotId slot] w₁ = (.done (), w₁) := if_pos hallowed
      rw [wp_of_eq hpolicy]
      exact (wp_mapped.mp (nvmChange_completes h₁.faults_eq _ _)).mono
        (fun _ => hclose) (fun _ _ h => h.elim) (fun _ h => h)
  · rintro _ w₁ ⟨-, rfl, h₁⟩
    exact hclose w₁ h₁.faults_eq

theorem recover_completes (h : Recoverable sealer nvm) (hcalm : Calm nvm w) :
    Completes (vaultRecover sealer (tableOf nvm)) w := by
  unfold vaultRecover
  split
  · rename_i hremoving
    have hbounded := h.bounded
    unfold vaultIdCount at hbounded
    have hlt : (tableOf nvm).reserved - deleteMarkerBase - 1 < 32 := by omega
    have hreserved : (tableOf nvm).reserved = deleteMarkerBase + (⟨_, hlt⟩ : Slot).val + 1 := by
      show _ = _ + (_ - _ - 1) + 1
      omega
    exact recoverDelete_completes hcalm hreserved fun object =>
      h.removed _ object hreserved
  · split
    · exact (vaultDestroyStage_completes hcalm.faults_eq).bind fun _ _ h' => h'
    · rename_i hnotRemoving hbusy
      let slot : Slot := Fin.ofNat 32 ((tableOf nvm).reserved - 1)
      have hreserved : (tableOf nvm).reserved = slot.val + 1 := by
        have hval : slot.val = ((tableOf nvm).reserved - 1) % 32 := rfl
        unfold deleteMarkerBase vaultIdCount at hnotRemoving
        omega
      unfold Completes Succeeds
      rw [wp_bind, wp_attempt, wp_bind, wp_mapped]
      refine (nvmGetMetadata_object hcalm vaultStageId).mono ?_ ?_ (fun _ h => h)
      · rintro staged w₁ ⟨hstage, h₁⟩
        rcases h.replaced slot hreserved with
          ⟨object, hobject, plain, hcontent⟩ | ⟨hnone, -⟩
        · cases hstage.symm.trans hobject
          rw [wp_bind]
          refine (vaultReadSealed_calm h₁ hstage hcontent).mono ?_
            (fun _ _ h => h.elim) (fun _ h => h)
          rintro read w₂ ⟨-, h₂⟩
          exact vaultRestore_completes h₂.faults_eq (sealedContent_length hcontent) read.1
        · cases hnone.symm.trans hstage
      · rintro _ w₁ ⟨hstage, rfl, h₁⟩
        rcases h.replaced slot hreserved with
          ⟨object, hobject, -⟩ | ⟨-, object, hobject, hauthentic⟩
        · cases hstage.symm.trans hobject
        · exact recoverLive_completes h₁ hreserved hobject hauthentic

/-- The vault loads its table, and no fault strikes after that. -/
def Loaded (sealer : Option Sealer) (w : World) : Prop :=
  succeeded (vaultTableLoad sealer w).1 = true ∧ (vaultTableLoad sealer w).2.faults = []

theorem loaded_of_recoverable (h : Recoverable sealer w.nvm)
    (hfaults : w.faults = []) : Loaded sealer w := by
  have hcalm : Calm w.nvm w := ⟨rfl, hfaults⟩
  have hload : Completes (vaultTableLoad sealer) w := by
    unfold vaultTableLoad Completes Succeeds
    rw [wp_bind, wp_tried]
    refine (nvmReadTable_calm hcalm).mono ?_ ?_ (fun _ h => h)
    · rintro table w₁ ⟨rfl, h₁⟩
      have hvalid : ¬((tableOf w.nvm).magic ≠ vaultTableMagic ∨
          (tableOf w.nvm).reserved > deleteMarkerBase + vaultIdCount) := by
        rintro (hmagic | hreserved)
        · exact hmagic h.magic
        · exact absurd h.bounded (Nat.not_le.mpr hreserved)
      dsimp only
      rw [if_neg hvalid]
      exact recover_completes h h₁
    · rintro code w₁ ⟨rfl, hempty, h₁⟩
      have hrecover := recover_completes h h₁
      rw [hempty] at hrecover
      exact hrecover
  unfold Completes Succeeds wp at hload
  unfold Loaded
  split at hload
  · exact ⟨by simp [succeeded, *], by simp [*]⟩
  · exact hload.elim
  · exact hload.elim

end Loads

/-- The object holds the data, under the counter of its slot if it is sealed. -/
structure Holds (sealer : Option Sealer) (object : Object) (counter : Counter)
    (data : Bytes) : Prop where
  notKey : isKey object.label = false
  exportable : object.flags.nonexportable = false
  plain : isSealed object.label = false → object.data = data
  sealed : isSealed object.label = true → sealedContent sealer object counter = .ok data ∧
      object.data.length = data.length + vaultSealTagLen

/-- What a get of `size` bytes at an offset answers for these bytes. -/
def slice (data : Bytes) (offset size : Nat) : Outcome PsaStatus Bytes :=
  if offset ≤ data.length then .done ((data.drop offset).take size)
  else .failed .invalidArgument

/-- The object under the key was not sealed under a counter that had wrapped
to zero, which the vault takes for none. -/
def Counted (key : Key) (nvm : Nvm) : Prop :=
  ∀ slot object, Finds nvm key slot object → isSealed object.label = true →
    (tableOf nvm).slots slot ≠ 0

section Answers

variable {sealer : Option Sealer} {nvm : Nvm} {w w' : World} {key : Key}
  {slot : Slot} {object : Object} {table : Table} {data : Bytes} {flags : Word}

theorem take_min_drop (data : Bytes) (offset size : Nat) :
    (data.drop offset).take (min (data.length - offset) size) = (data.drop offset).take size := by
  rw [List.take_eq_take_iff, List.length_drop]
  omega

theorem vaultGet_calm (hload : vaultTableLoad sealer w = (.done table, w'))
    (hcalm : Calm nvm w') (hfinds : Finds nvm key slot object)
    (hlone : ∀ other found, Finds nvm key other found → other = slot)
    (hholds : Holds sealer object (table.slots slot) data) (offset size : Nat) :
    (vaultGet sealer key offset size w).1 = slice data offset size := by
  refine wp.outcome_eq ?_
  unfold vaultGet
  rw [wp_bind, wp_of_eq hload, wp_bind]
  refine (vaultFind_calm hcalm hfinds hlone).mono ?_ (fun _ _ h => h.elim) (fun _ h => h)
  rintro _ w₁ ⟨rfl, hcalm₁⟩
  dsimp only
  rw [hholds.notKey, if_neg Bool.false_ne_true]
  by_cases hsealed : isSealed object.label = true
  · obtain ⟨hcontent, hlength⟩ := hholds.sealed hsealed
    have hcounter := (VaultTampering.sealedContent_ok hcontent).1
    rw [if_pos hsealed, if_neg hcounter, wp_bind]
    refine (vaultReadSealed_calm hcalm₁ hfinds.1 hcontent).mono ?_
      (fun _ _ h => h.elim) (fun _ h => h)
    rintro ⟨cipher, plain⟩ w₂ ⟨rfl, -⟩
    dsimp only
    rw [hlength, Nat.add_sub_cancel, take_min_drop]
    unfold slice
    by_cases hoffset : offset ≤ plain.length
    · rw [if_pos hoffset, if_neg (Nat.not_lt.mpr hoffset)]
      rfl
    · rw [if_neg hoffset, if_pos (Nat.not_le.mp hoffset)]
      rfl
  · rw [if_neg hsealed, hholds.plain (Bool.eq_false_iff.mpr hsealed)]
    unfold slice
    by_cases hoffset : offset ≤ data.length
    · rw [if_pos hoffset, if_neg (Nat.not_lt.mpr hoffset)]
      split
      · refine (nvmReadChecked_calm hcalm₁ hfinds.1 hholds.exportable _ _).mono
          ?_ (fun _ _ h => h.elim) (fun _ h => h)
        rintro bytes w₂ ⟨rfl, -⟩
        rw [hholds.plain (Bool.eq_false_iff.mpr hsealed), take_min_drop]
      · rename_i hempty
        rw [← take_min_drop, Nat.eq_zero_of_not_pos hempty]
        rfl
    · rw [if_neg hoffset, if_pos (Nat.not_le.mp hoffset)]
      rfl

theorem vaultGetInfo_calm (hload : vaultTableLoad sealer w = (.done table, w'))
    (hcalm : Calm nvm w') (hfinds : Finds nvm key slot object)
    (hlone : ∀ other found, Finds nvm key other found → other = slot)
    (hholds : Holds sealer object (table.slots slot) data) :
    (vaultGetInfo sealer key w).1 = .done { size := data.length, flags := object.label.flags } := by
  refine wp.outcome_eq ?_
  unfold vaultGetInfo
  rw [wp_bind, wp_of_eq hload, wp_bind]
  refine (vaultFind_calm hcalm hfinds hlone).mono ?_ (fun _ _ h => h.elim) (fun _ h => h)
  rintro _ w₁ ⟨rfl, -⟩
  dsimp only
  by_cases hsealed : isSealed object.label = true
  · rw [if_pos hsealed, (hholds.sealed hsealed).2, if_neg (by omega), Nat.add_sub_cancel]
    rfl
  · rw [if_neg hsealed, hholds.plain (Bool.eq_false_iff.mpr hsealed)]
    rfl

theorem vaultSet_accepts (hdone : (vaultSet sealer key flags data w).1 = .done ()) :
    data.length ≤ vaultObjectMax ∧ anySet flags vaultFlagKey = false := by
  unfold vaultSet at hdone
  dsimp only at hdone
  split at hdone
  · cases hdone
  · rename_i haccepted
    obtain ⟨hlength, hflags⟩ := not_or.mp haccepted
    have hmask : vaultFlagKey = ~~~ vaultFlagMask &&& vaultFlagKey := by decide
    refine ⟨Nat.not_lt.mp hlength, ?_⟩
    unfold anySet
    rw [hmask, ← BitVec.and_assoc, not_not.mp hflags]
    decide

theorem placed_holds {payload : Bytes} (hround : RoundTrip sealer)
    (hplaced : Placed sealer key flags data slot payload nvm)
    (hlength : data.length ≤ vaultObjectMax)
    (hkey : anySet flags vaultFlagKey = false) (hcounted : Counted key nvm) :
    Holds sealer (setObject flags (vaultMakeLabel key flags) payload)
      ((tableOf nvm).slots slot) data := by
  refine ⟨hkey, rfl, hplaced.plain, fun hsealed => ?_⟩
  obtain ⟨s, hs, hseal⟩ := hplaced.sealed hsealed
  have hopen := hround.opens s hs _ _ _ _ hseal
  have hpayload := hround.length s hs _ _ _ _ hopen
  have hcounter := hcounted slot _ ⟨hplaced.object_eq, labelMatch_makeLabel key flags⟩ hsealed
  refine ⟨?_, hpayload⟩
  have hvalid : ¬ ((tableOf nvm).slots slot = 0 ∨ isSealed (vaultMakeLabel key flags) = false ∨
      payload.length < vaultSealTagLen ∨
      payload.length > vaultObjectMax + vaultSealTagLen) := by
    rintro (hzero | hplain | hshort | hlong)
    · exact hcounter hzero
    · exact Bool.noConfusion (hplain.symm.trans hsealed)
    · omega
    · omega
  unfold sealedContent
  rw [Option.mem_def.mp hs]
  exact (if_neg hvalid).trans ((if_neg Bool.false_ne_true).trans hopen)

end Answers

section Runs

variable {sealer : Option Sealer} {key : Key}

theorem set_left {w : World} {flags : Word} {data : Bytes}
    {faults : List Fault} (hround : RoundTrip sealer) (htidy : Tidy w.nvm)
    (honce : Once key none w.nvm) (hfaults : ∀ f ∈ faults, Fault.Benign f)
    (hdone : (vaultSet sealer key flags data { w with faults }).1 = .done ())
    (hcounted : Counted key (vaultSet sealer key flags data { w with faults }).2.nvm) :
    ∃ nvm slot payload, (vaultSet sealer key flags data { w with faults }).2.nvm = nvm ∧
      Tidy nvm ∧ Once key none nvm ∧ AtRest key nvm ∧
      Finds nvm key slot (setObject flags (vaultMakeLabel key flags) payload) ∧
      Holds sealer (setObject flags (vaultMakeLabel key flags) payload)
        ((tableOf nvm).slots slot) data := by
  have hset : wp (vaultSet sealer key flags data) (fun _ => Sets sealer key flags data w.nvm)
      (fun _ => Left sealer key w.nvm) (Left sealer key w.nvm)
      { w with faults } := set_path ⟨rfl, hfaults⟩ htidy
  obtain ⟨nvm, hat, hpath, slot, payload, hplaced⟩ := hset.of_done hdone
  obtain ⟨hlength, hkey⟩ := vaultSet_accepts hdone
  rw [hat.nvm_eq] at hcounted
  refine ⟨nvm, slot, payload, hat.nvm_eq, tidy_invariant.path htidy hpath,
    once_invariant.path honce hpath, ⟨?_, ?_⟩,
    ⟨hplaced.object_eq, labelMatch_makeLabel key flags⟩,
    placed_holds hround hplaced hlength hkey hcounted⟩
  · intro other object _ hpending
    unfold Pending at hpending
    have hidle := hplaced.idle
    omega
  · intro other staged hreserved
    rw [hplaced.idle] at hreserved
    cases hreserved

theorem spared_read {start : Nvm} {w : World} {slot : Slot} {object : Object} {data : Bytes}
    {struck : List Fault} (hspared : Spared key start w.nvm) (htidy : Tidy w.nvm)
    (honce : Once key none w.nvm) (hfinds : Finds start key slot object)
    (hholds : Holds sealer object ((tableOf start).slots slot) data)
    (hstruck : ∀ f ∈ struck, Fault.Benign f) (hloaded : Loaded sealer { w with faults := struck }) :
    (∀ offset size, (vaultGet sealer key offset size
      { w with faults := struck }).1 = slice data offset size) ∧
    (vaultGetInfo sealer key { w with faults := struck }).1 =
      .done { size := data.length, flags := object.label.flags } := by
  -- no key has a part in the recovery, so it is taken as one for another key
  have hpath : wp (vaultTableLoad sealer) (Loads sealer (elsewhere key) w.nvm)
      (fun _ => Left sealer (elsewhere key) w.nvm)
      (Left sealer (elsewhere key) w.nvm) { w with faults := struck } :=
    load_path ⟨rfl, hstruck⟩ htidy
  obtain ⟨hsucceeded, hcalm⟩ := hloaded
  obtain ⟨table, w', hload⟩ : ∃ table w',
      vaultTableLoad sealer { w with faults := struck } = (.done table, w') := by
    rcases hresult : vaultTableLoad sealer { w with faults := struck } with
      ⟨table | _ | _, w'⟩ <;> rw [hresult] at hsucceeded <;> cases hsucceeded
    exact ⟨table, w', rfl⟩
  rw [hload] at hcalm
  rw [wp_of_eq hload] at hpath
  obtain ⟨nvm, hat, hpath, rfl, -, -⟩ := hpath
  have hspared' : Spared key start nvm := hspared.path (elsewhere_ne key) hpath
  have hfinds' : Finds nvm key slot object := (hspared'.finds slot object).mpr hfinds
  have honce' : Once key none nvm := once_invariant.path honce hpath
  have hlone : ∀ other found, Finds nvm key other found → other = slot :=
    fun other found hother => honce'.lone other slot found object hother hfinds'
  rw [← hspared'.counter slot object hfinds'] at hholds
  have hcalm' : Calm nvm w' := ⟨hat.nvm_eq, hcalm⟩
  exact ⟨vaultGet_calm hload hcalm' hfinds' hlone hholds,
    vaultGetInfo_calm hload hcalm' hfinds' hlone hholds⟩

/-- What was set stays and is read back. After a set that succeeded, whatever
requests for other keys come and whatever faults strike them, a get that loads
the table and is then not struck returns the bytes that it asks for of those
that were set, or reports an offset past their end, and get_info returns their
number and the flags. -/
theorem set_outlasts_others (sealer : Option Sealer) (hround : RoundTrip sealer) (w : World)
    (key : Key) (flags : Word) (data : Bytes) (htidy : Tidy w.nvm) (honce : Once key none w.nvm)
    (faults : List Fault) (hfaults : ∀ f ∈ faults, Fault.Benign f) (later : List Attempt)
    (hlater : ∀ a ∈ later, a.Benign) (hother : ∀ a ∈ later, a.request.key ≠ key) :
    let set := serve sealer w { request := .set key flags data, faults }
    let after := serveAll sealer set.2 later
    set.1 = .done () → Counted key set.2.nvm →
    ∀ struck, (∀ f ∈ struck, Fault.Benign f) → Loaded sealer { after with faults := struck } →
      (∀ offset size, (vaultGet sealer key offset size
        { after with faults := struck }).1 = slice data offset size) ∧
      (vaultGetInfo sealer key { after with faults := struck }).1 =
        .done { size := data.length, flags } := by
  intro set after hdone hcounted struck hstruck hloaded
  obtain ⟨nvm, slot, payload, hnvm, htidy₁, honce₁, hrest, hfinds, hholds⟩ :=
    set_left hround htidy honce hfaults hdone hcounted
  have hstart : set.2.nvm = nvm := hnvm
  rw [← hstart] at htidy₁ honce₁ hrest hfinds hholds
  exact spared_read (serveAll_spared later hlater hother htidy₁ (.refl hrest))
    (tidy_invariant.serveAll htidy₁ htidy₁ later hlater)
    (once_invariant.serveAll htidy₁ honce₁ later hlater) hfinds hholds hstruck
    hloaded

end Runs

section Sample

theorem emptyVault_recoverable (sealer : Option Sealer) (counter : Counter) :
    Recoverable sealer (emptyVault counter).nvm where
  magic := rfl
  bounded := Nat.zero_le _
  changeable := fun _ _ h => by cases h
  replaced := fun _ h => by cases h
  removed := fun _ _ _ h => by cases h

theorem set_outlasts_others_sample :
    let sealer := some sampleSealer
    let set := serve sealer (emptyVault 0) firstSet
    let after := serveAll sealer set.2 sampleAttempts
    set.1 = .done () ∧ ∀ offset size,
      (vaultGet sealer sampleKey offset size { after with faults := [] }).1 =
        slice [1, 2, 3] offset size := by
  intro sealer set after
  have hdone : set.1 = .done () := by decide +kernel
  obtain ⟨htidy, honce⟩ := emptyVault_once sampleKey 0
  have hcounted : Counted sampleKey set.2.nvm := by
    rintro slot object hfinds -
    have hall : ∀ slot, (set.2.nvm.objects (slotId slot)).isSome →
        (tableOf set.2.nvm).slots slot ≠ 0 := by decide +kernel
    exact hall slot (hfinds.1 ▸ rfl)
  have hloaded : Loaded sealer { after with faults := [] } := ⟨by decide +kernel, by decide +kernel⟩
  refine ⟨hdone, (set_outlasts_others sealer sampleSealer_roundTrip
    (emptyVault 0) sampleKey vaultFlagSealed [1, 2, 3] htidy honce [] nofun
    sampleAttempts (fun a ha => (sampleAttempts_other a ha).1)
    (fun a ha => (sampleAttempts_other a ha).2) hdone hcounted [] nofun
    hloaded).1⟩

end Sample

end WolfTrust.VaultDurability
