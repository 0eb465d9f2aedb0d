import WolfTrust.VaultStore

namespace WolfTrust.VaultRecovery

open CrashLogic VaultStore

/-- A write that does not succeed leaves the old object or the new one, and a
failure never says that an object is missing or forbidden when it is not. -/
def Fault.Benign (fault : Fault) : Prop :=
  (∀ object, fault.remains ≠ .garbled object) ∧
    fault.ending ≠ .error .access ∧ fault.ending ≠ .error .notfound

/-- The store is `nvm` and the faults to come are benign. -/
structure At (nvm : Nvm) (w : World) : Prop where
  nvm_eq : w.nvm = nvm
  benign : ∀ fault ∈ w.faults, Fault.Benign fault

def withObject (nvm : Nvm) (id : Nat) (object : Option Object) : Nvm :=
  { nvm with objects := Function.update nvm.objects id object }

def withTable (nvm : Nvm) (table : Table) : Nvm :=
  { nvm with table := some table }

section Primitives

variable {nvm : Nvm} {w : World} {α : Type}

theorem noFault_benign : Fault.Benign noFault := by
  refine ⟨fun object h => ?_, fun h => ?_, fun h => ?_⟩ <;> cases h

theorem At.fault (h : At nvm w) : Fault.Benign w.fault := by
  unfold World.fault
  cases hfaults : w.faults with
  | nil => exact noFault_benign
  | cons fault => exact h.benign fault (hfaults ▸ List.mem_cons_self)

theorem At.next (h : At nvm w) : At nvm w.next :=
  ⟨h.nvm_eq, fun fault hfault => h.benign fault (List.mem_of_mem_tail hfault)⟩

theorem At.setObject (h : At nvm w) (id : Nat) (object : Option Object) :
    At (withObject nvm id object) (w.setObject id object) := by
  refine ⟨?_, h.benign⟩
  rw [← h.nvm_eq]
  rfl

theorem At.setTable (h : At nvm w) (table : Table) :
    At (withTable nvm table) (w.setTable table) := by
  refine ⟨?_, h.benign⟩
  rw [← h.nvm_eq]
  rfl

theorem nvmQuery_wp {answer : World → Except NvmError α}
    {found : Except NvmError α} (h : At nvm w) (hanswer : answer w = found) :
    wp (nvmQuery answer) (fun value w' => found = .ok value ∧ At nvm w')
      (fun code w' => (found = .error code ∨ code = .nospace ∨ code = .other) ∧ At nvm w')
      (At nvm) w := by
  have hbenign := h.fault
  unfold wp nvmQuery
  rcases hending : w.fault.ending with _ | code | _
  · rw [hanswer]
    cases found with
    | error => exact ⟨.inl rfl, h.next⟩
    | ok => exact ⟨rfl, h.next⟩
  · refine ⟨.inr ?_, h.next⟩
    cases code with
    | access => exact absurd hending hbenign.2.1
    | notfound => exact absurd hending hbenign.2.2
    | nospace => exact .inl rfl
    | other => exact .inr rfl
  · exact h.next

theorem nvmChange_wp (h : At nvm w) (id : Nat) (object : Option Object) : wp (nvmChange id object)
      (fun _ => At (withObject nvm id object))
      (fun code w' => (code = .nospace ∨ code = .other) ∧
        (At nvm w' ∨ At (withObject nvm id object) w'))
      (fun w' => At nvm w' ∨ At (withObject nvm id object) w') w := by
  have hbenign := h.fault
  unfold wp nvmChange
  rcases hending : w.fault.ending with _ | code | _
  · exact h.next.setObject id object
  · have hcode : code = .nospace ∨ code = .other := by
      cases code with
      | access => exact absurd hending hbenign.2.1
      | notfound => exact absurd hending hbenign.2.2
      | nospace => exact .inl rfl
      | other => exact .inr rfl
    refine ⟨hcode, ?_⟩
    rcases hremains : w.fault.remains with _ | _ | found
    · exact .inl h.next
    · exact .inr (h.next.setObject id object)
    · exact absurd hremains (hbenign.1 found)
  · rcases hremains : w.fault.remains with _ | _ | found
    · exact .inl h.next
    · exact .inr (h.next.setObject id object)
    · exact absurd hremains (hbenign.1 found)

/-- The store an interrupted write leaves. -/
def Either (nvm nvm' : Nvm) (w : World) : Prop := At nvm w ∨ At nvm' w

/-- The statuses of a fault: none of them says that nothing valid is stored. -/
def Faulty (status : PsaStatus) : Prop :=
  status = .insufficientStorage ∨ status = .storageFailure

theorem faulty_of_code {code : NvmError} (h : code = .nospace ∨ code = .other) :
    Faulty (vaultMapErr code) := by
  rcases h with rfl | rfl
  · exact .inl rfl
  · exact .inr rfl

theorem vaultReserve_wp (h : At nvm w) (needSize needObjects : Nat) :
    wp (vaultReserve needSize needObjects) (fun _ => At nvm)
      (fun status w' => Faulty status ∧ At nvm w') (At nvm) w := by
  -- both queries answer without an error of their own
  have hquery : ∀ {β : Type} {w : World} (value : β) (answer), At nvm w → answer w = .ok value →
      wp (mapped (nvmQuery answer)) (fun _ => At nvm)
        (fun status w' => Faulty status ∧ At nvm w') (At nvm) w := by
    intro β w value answer hat hanswer
    rw [wp_mapped]
    refine (nvmQuery_wp hat hanswer).mono (fun _ _ h => h.2) ?_ (fun _ h => h)
    rintro code w' ⟨herror | hcode, hat'⟩
    · cases herror
    · exact ⟨faulty_of_code hcode, hat'⟩
  unfold vaultReserve nvmGetAvailable nvmCompact
  refine (hquery w.fault.room (fun w => .ok w.fault.room) h rfl).bind fun room w' hat => ?_
  split
  · split
    · exact hquery () (fun _ => .ok ()) hat rfl
    · exact ⟨.inl rfl, hat⟩
  · exact hat

theorem nvmAddTable_wp (h : At nvm w) (table : Table) :
    wp (nvmAddTable table) (fun _ => At (withTable nvm table))
      (fun _ => Either nvm (withTable nvm table))
      (Either nvm (withTable nvm table)) w := by
  unfold wp nvmAddTable
  rcases w.fault.ending with _ | code | _
  · exact h.next.setTable table
  all_goals
    rcases w.fault.remains with _ | _ | found
    · exact .inl h.next
    · exact .inr (h.next.setTable table)
    · exact .inl h.next

theorem vaultTableStore_wp (h : At nvm w) (table : Table) :
    wp (vaultTableStore table) (fun _ => At (withTable nvm table))
      (fun status w' => Faulty status ∧ Either nvm (withTable nvm table) w')
      (Either nvm (withTable nvm table)) w := by
  unfold vaultTableStore
  rw [wp_bind]
  refine (vaultReserve_wp h _ _).mono (fun _ w' hat => ?_)
    (fun _ _ h => ⟨h.1, .inl h.2⟩) (fun _ h => .inl h)
  rw [wp_orStorageFailure]
  exact (nvmAddTable_wp hat table).mono (fun _ _ h => h) (fun _ _ h => ⟨.inr rfl, h⟩) (fun _ h => h)

theorem withObject_eq_self {id : Nat} {object : Option Object}
    (h : nvm.objects id = object) : withObject nvm id object = nvm := by
  unfold withObject
  rw [← h, Function.update_eq_self]

theorem nvmGetMetadata_wp (h : At nvm w) (id : Nat) : wp (nvmGetMetadata id)
      (fun object w' => nvm.objects id = some object ∧ At nvm w')
      (fun code w' => (nvm.objects id = none ∧ code = .notfound ∨
        code = .nospace ∨ code = .other) ∧ At nvm w')
      (At nvm) w := by
  refine (nvmQuery_wp h rfl).mono ?_ ?_ (fun _ h => h)
  · rintro object w' ⟨hfound, hat⟩
    rw [h.nvm_eq] at hfound
    cases hobject : nvm.objects id with
    | none =>
      rw [hobject] at hfound
      cases hfound
    | some =>
      rw [hobject] at hfound
      exact ⟨congrArg some (Except.ok.inj hfound), hat⟩
  · rintro code w' ⟨herror | hcode, hat⟩
    · rw [h.nvm_eq] at herror
      cases hobject : nvm.objects id with
      | none =>
        rw [hobject] at herror
        exact ⟨.inl ⟨rfl, (Except.error.inj herror).symm⟩, hat⟩
      | some =>
        rw [hobject] at herror
        cases herror
    · exact ⟨.inr hcode, hat⟩

theorem vaultDestroyStage_wp (h : At nvm w) :
    wp vaultDestroyStage (fun _ => At (withObject nvm vaultStageId none))
      (fun status w' => Faulty status ∧ Either nvm (withObject nvm vaultStageId none) w')
      (Either nvm (withObject nvm vaultStageId none)) w := by
  unfold vaultDestroyStage
  rw [wp_bind, wp_tried]
  refine (nvmGetMetadata_wp h vaultStageId).mono ?_ ?_ (fun _ h => .inl h)
  · rintro object w' ⟨-, hat⟩
    dsimp only
    rw [wp_mapped]
    exact (nvmChange_wp hat vaultStageId none).mono (fun _ _ h => h)
      (fun _ _ h => ⟨faulty_of_code h.1, h.2⟩) (fun _ h => h)
  · rintro code w' ⟨⟨hnone, rfl⟩ | rfl | rfl, hat⟩
    · show At (withObject nvm vaultStageId none) w'
      rw [withObject_eq_self hnone]
      exact hat
    · exact ⟨.inr rfl, .inl hat⟩
    · exact ⟨.inr rfl, .inl hat⟩

end Primitives

/-- What reading a sealed object gives when no fault strikes. -/
def sealedContent (sealer : Option Sealer) (object : Object)
    (counter : Counter) : Except PsaStatus Bytes :=
  match sealer with
  | none => .error .notSupported
  | some s =>
    if counter = 0 ∨ isSealed object.label = false ∨ object.data.length < vaultSealTagLen ∨
        object.data.length > vaultObjectMax + vaultSealTagLen then
      .error .invalidSignature
    else if object.flags.nonexportable then .error .notPermitted
    else s.unsealBytes object.label counter object.data

section Read

variable {nvm : Nvm} {w : World} {sealer : Option Sealer}

theorem nvmReadChecked_wp (h : At nvm w) {id : Nat} {object : Object}
    (hobject : nvm.objects id = some object) (offset length : Nat) :
    wp (nvmReadChecked id offset length) (fun bytes w' => object.flags.nonexportable = false ∧
        bytes = (object.data.drop offset).take length ∧ At nvm w')
      (fun code w' => (object.flags.nonexportable = true ∧ code = .access ∨
        code = .nospace ∨ code = .other) ∧ At nvm w')
      (At nvm) w := by
  refine (nvmQuery_wp h rfl).mono ?_ ?_ (fun _ h => h)
  · rintro bytes w' ⟨hfound, hat⟩
    simp only [h.nvm_eq, hobject] at hfound
    split at hfound
    · cases hfound
    · rename_i hflag
      exact ⟨by simpa using hflag, (Except.ok.inj hfound).symm, hat⟩
  · rintro code w' ⟨herror | hcode, hat⟩
    · simp only [h.nvm_eq, hobject] at herror
      split at herror
      · rename_i hflag
        exact ⟨.inl ⟨hflag, (Except.error.inj herror).symm⟩, hat⟩
      · cases herror
    · exact ⟨.inr hcode, hat⟩

theorem vaultReadSealed_wp (h : At nvm w) {id : Nat} {object : Object}
    (hobject : nvm.objects id = some object) (counter : Counter) :
    wp (vaultReadSealed sealer id object counter) (fun read w' => read.1 = object.data ∧
        sealedContent sealer object counter = .ok read.2 ∧ At nvm w')
      (fun status w' => (sealedContent sealer object counter = .error status ∨
        Faulty status) ∧ At nvm w')
      (At nvm) w := by
  unfold vaultReadSealed sealedContent
  cases sealer with
  | none => exact ⟨.inl rfl, h⟩
  | some s =>
    dsimp only
    split
    · exact ⟨.inl rfl, h⟩
    · rw [wp_bind, wp_mapped]
      refine (nvmReadChecked_wp h hobject 0 object.data.length).mono ?_ ?_ (fun _ h => h)
      · rintro cipher w' ⟨hflag, rfl, hat⟩
        rw [List.drop_zero, List.take_length, if_neg (by simp [hflag])]
        cases hopen : s.unsealBytes object.label counter object.data with
        | error => exact ⟨.inl rfl, hat⟩
        | ok => exact ⟨rfl, rfl, hat⟩
      · rintro code w' ⟨⟨hflag, rfl⟩ | hcode, hat⟩
        · rw [if_pos hflag]
          exact ⟨.inl rfl, hat⟩
        · exact ⟨.inr (faulty_of_code hcode), hat⟩

end Read

def tableOf (nvm : Nvm) : Table := nvm.table.getD emptyTable

section Frames

variable {nvm : Nvm} {table : Table} {slot : Slot}

theorem slotId_injective : Function.Injective slotId := fun _ _ h =>
  Fin.ext (Nat.add_left_cancel h)

theorem slotId_ne_stage (slot : Slot) : slotId slot ≠ vaultStageId := by
  have hlt := slot.isLt
  unfold slotId vaultIdBase vaultStageId
  omega

@[simp] theorem tableOf_withTable : tableOf (withTable nvm table) = table := rfl

@[simp] theorem tableOf_withObject {id : Nat} {object : Option Object} :
    tableOf (withObject nvm id object) = tableOf nvm := rfl

@[simp] theorem objects_withTable : (withTable nvm table).objects = nvm.objects := rfl

@[simp] theorem objects_withObject_self {id : Nat} {object : Option Object} :
    (withObject nvm id object).objects id = object :=
  Function.update_self _ _ _

theorem objects_withObject_of_ne {id other : Nat} {object : Option Object} (h : other ≠ id) :
    (withObject nvm id object).objects other = nvm.objects other :=
  Function.update_of_ne h _ _

theorem slots_close_self (counter : Counter) : (table.close slot counter).slots slot = counter :=
  Function.update_self _ _ _

end Frames

section Load

variable {nvm : Nvm} {w : World} {table : Table}

theorem slot_of_reserved (slot : Slot) : Fin.ofNat 32 slot.val = slot :=
  Fin.ofNat_val_eq_self slot

theorem nvmPolicy_wp (h : At nvm w) (allowed : Object → Bool) (ids : List Nat) :
    wp (nvmPolicy allowed ids) (fun _ => At nvm)
      (fun code w' => code = .access ∧ At nvm w') (At nvm) w := by
  unfold wp nvmPolicy
  split
  · rename_i heq
    split at heq
    · cases heq
      exact h
    · cases heq
  · rename_i heq
    split at heq
    · cases heq
    · cases heq
      exact ⟨rfl, h⟩
  · rename_i heq
    split at heq <;> cases heq

theorem nvmReadTable_wp (h : At nvm w) :
    wp nvmReadTable (fun table w' => nvm.table = some table ∧ At nvm w')
      (fun code w' => (code = .notfound → nvm.table = none) ∧ At nvm w')
      (At nvm) w := by
  have hquery := nvmQuery_wp h (rfl : storedTable w = storedTable w)
  unfold wp at hquery
  unfold wp nvmReadTable
  rcases hresult : nvmQuery storedTable w with ⟨value | code | _, w'⟩
  · rw [hresult] at hquery
    obtain ⟨hfound, hat⟩ := hquery
    rw [storedTable, h.nvm_eq] at hfound
    cases htable : nvm.table with
    | none =>
      rw [htable] at hfound
      cases hfound
    | some =>
      rw [htable] at hfound
      exact ⟨congrArg some (Except.ok.inj hfound), hat⟩
  · rw [hresult] at hquery
    obtain ⟨-, hat⟩ := hquery
    cases code with
    | notfound =>
      refine ⟨fun hcode => ?_, hat⟩
      rw [h.nvm_eq] at hcode
      cases htable : nvm.table with
      | none => rfl
      | some =>
        rw [htable] at hcode
        cases hcode
    | access | nospace | other => exact ⟨fun hcode => (by cases hcode), hat⟩
  · rw [hresult] at hquery
    exact hquery

end Load

end WolfTrust.VaultRecovery
