import WolfTrust.VaultNonces

namespace WolfTrust.VaultTampering

open Domain CrashLogic VaultStore VaultRecovery VaultAtomicity

def Opens (sealer : Option Sealer) (label : Label) (counter : Counter)
    (data plain : Bytes) : Prop :=
  ∃ s ∈ sealer, s.unsealBytes label counter data = .ok plain

section Frames

variable {sealer : Option Sealer} {nvm : Nvm} {slot : Slot} {counter : Counter}
  {plain : Bytes} {object : Object}

theorem sealedContent_ok (h : sealedContent sealer object counter = .ok plain) :
    counter ≠ 0 ∧ isSealed object.label = true ∧
      Opens sealer object.label counter object.data plain := by
  unfold sealedContent at h
  cases sealer with
  | none => cases h
  | some s =>
    dsimp only at h
    split at h
    · cases h
    · rename_i hvalid
      push Not at hvalid
      split at h
      · cases h
      · exact ⟨hvalid.1, by simpa using hvalid.2.1, s, rfl, h⟩

theorem objects_reslot {found : Option Object} {other : Slot}
    (hobject : (withObject nvm (slotId slot) found).objects (slotId other) = some object) :
    other = slot ∧ object ∈ found ∨ nvm.objects (slotId other) = some object := by
  by_cases hother : other = slot
  · subst hother
    rw [objects_withObject_self] at hobject
    exact .inl ⟨rfl, hobject⟩
  · rw [objects_withObject_of_ne (slotId_injective.ne hother)] at hobject
    exact .inr hobject

theorem stage_reslot (nvm : Nvm) (slot : Slot) (found : Option Object) :
    (withObject nvm (slotId slot) found).objects vaultStageId = nvm.objects vaultStageId :=
  objects_withObject_of_ne (slotId_ne_stage slot).symm

theorem objects_restage (nvm : Nvm) (slot : Slot) (found : Option Object) :
    (withObject nvm vaultStageId found).objects (slotId slot) = nvm.objects (slotId slot) :=
  objects_withObject_of_ne (slotId_ne_stage slot)

end Frames

section Requests

variable {asked : Key} {nvm : Nvm} {w : World}

theorem names_iff {slot : Slot} : names nvm asked slot = true ↔
    ∃ object, nvm.objects (slotId slot) = some object ∧
      vaultLabelMatch object.label asked = true := by
  unfold names
  cases nvm.objects (slotId slot) with
  | none | some => simp

theorem find_names (h : At nvm w) : wp (vaultFind asked) (fun found w' => At nvm w' ∧
        nvm.objects (slotId found.1) = some found.2 ∧
        vaultLabelMatch found.2.label asked = true)
      (fun _ => At nvm) (At nvm) w := by
  unfold vaultFind
  rw [wp_bind]
  refine (lookup_names h).mono ?_ (fun _ _ h => h.2) (fun _ h => h)
  rintro looked w' ⟨hat, hfound, hobjects, -⟩
  rcases hlooked : looked.found with _ | ⟨slot, object⟩
  · exact hat
  · rw [hlooked] at hfound hobjects
    have hobject := hobjects (slot, object) rfl
    obtain ⟨found, hsame, hmatch⟩ :=
      names_iff.mp (List.find?_some hfound.symm)
    cases hobject.symm.trans hsame
    exact ⟨hat, hobject, hmatch⟩

theorem destroyChecked_wp (h : At nvm w) (id : Nat) : wp (mapped (nvmDestroyObjectChecked id))
      (fun _ => At (withObject nvm id none))
      (fun _ => Either nvm (withObject nvm id none))
      (Either nvm (withObject nvm id none)) w := by
  rw [wp_mapped]
  unfold nvmDestroyObjectChecked
  rw [wp_bind]
  exact (nvmPolicy_wp h _ _).mono (fun _ w' hat => (nvmChange_wp hat id none).mono (fun _ _ h => h)
      (fun _ _ h => h.2) (fun _ h => h))
    (fun _ _ h => .inl h.2) (fun _ h => .inl h)

end Requests

section Set

variable {nvm : Nvm} {w : World} {table : Table} {slot : Slot} {flags : Word}

def bump (table : Table) (flags : Word) : Table :=
  { table with
    global := if anySet flags vaultFlagSealed then table.global + 1
      else table.global }

def setCounter (table : Table) (flags : Word) : Counter :=
  if anySet flags vaultFlagSealed then table.global + 1 else 0

theorem setReserve_wp (h : At nvm w) (table : Table) (slot : Slot)
    (replaced : Option (Object × Bytes)) (sealing : Bool) (storeLen : Nat) :
    wp (setReserve table slot replaced sealing storeLen) (fun _ => At nvm)
      (fun _ => At nvm) (At nvm) w := by
  unfold setReserve
  split
  · exact (vaultReserve_wp h _ _).mono (fun _ _ h => h) (fun _ _ h => h.2) (fun _ h => h)
  · exact (vaultReserve_wp h _ _).mono (fun _ _ h => h) (fun _ _ h => h.2) (fun _ h => h)

end Set

end WolfTrust.VaultTampering
