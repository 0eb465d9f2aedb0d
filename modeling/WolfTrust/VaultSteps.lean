import WolfTrust.VaultTampering
import Mathlib.Logic.Relation

namespace WolfTrust.VaultSteps

open Domain CrashLogic VaultStore VaultRecovery VaultAtomicity VaultPowerLoss
open WolfTrust.VaultTampering (bump setCounter)

/-- The slot that the table says is being replaced or removed. -/
def Pending (nvm : Nvm) (slot : Slot) : Prop :=
  (tableOf nvm).reserved = slot.val + 1 ∨ (tableOf nvm).reserved = deleteMarkerBase + slot.val + 1

/-- The slot holds an object of the key that may be changed. -/
structure Changeable (nvm : Nvm) (key : Key) (slot : Slot) (object : Object) :
    Prop where
  object_eq : nvm.objects (slotId slot) = some object
  match_key : vaultLabelMatch object.label key = true
  notKey : isKey object.label = false
  notOnce : anySet object.label.flags vaultFlagWriteOnce = false

def Writable (nvm : Nvm) (key : Key) (slot : Slot) : Prop :=
  (∃ object, Changeable nvm key slot object) ∨
    nvm.objects (slotId slot) = none ∧ ∀ other, ¬ names nvm key other = true

section Frames

variable {nvm nvm' : Nvm} {key : Key} {slot : Slot} {object : Object}

theorem Changeable.frame (h : Changeable nvm key slot object)
    (hsame : nvm'.objects (slotId slot) = nvm.objects (slotId slot)) :
    Changeable nvm' key slot object :=
  { h with object_eq := hsame.trans h.object_eq }

theorem Writable.frame (h : Writable nvm key slot)
    (hsame : ∀ slot, nvm'.objects (slotId slot) = nvm.objects (slotId slot)) :
    Writable nvm' key slot := by
  rcases h with ⟨object, hchangeable⟩ | ⟨hnone, hmissing⟩
  · exact .inl ⟨object, hchangeable.frame (hsame slot)⟩
  · refine .inr ⟨(hsame slot).trans hnone, fun other hnames => ?_⟩
    unfold names at hnames
    rw [hsame other] at hnames
    exact hmissing other hnames

end Frames

/-- The object is authentic under the counter of the slot. -/
def Authentic (sealer : Option Sealer) (nvm : Nvm) (slot : Slot) (object : Object) : Prop :=
  ∃ plain, sealedContent sealer object ((tableOf nvm).slots slot) = .ok plain

/-- An authentic object is staged for the slot. -/
def Staged (sealer : Option Sealer) (nvm : Nvm) (slot : Slot) : Prop :=
  ∃ staged, nvm.objects vaultStageId = some staged ∧ Authentic sealer nvm slot staged

/-- What a replacement can be taken back to: the stage, or the object itself
while nothing is staged. -/
def Restorable (sealer : Option Sealer) (nvm : Nvm) (slot : Slot) : Prop :=
  Staged sealer nvm slot ∨ nvm.objects vaultStageId = none ∧
    ∃ object, nvm.objects (slotId slot) = some object ∧ Authentic sealer nvm slot object

/-- One write of a request for a key, the writes of recovery included. -/
inductive Write (sealer : Option Sealer) (key : Key) (nvm : Nvm) : Nvm → Prop
  /-- The stage is cleared when nothing is under way. -/
  | unstage (idle : (tableOf nvm).reserved = 0) :
      Write sealer key nvm (withObject nvm vaultStageId none)
  /-- An authentic stage goes back in its place. -/
  | restore (slot : Slot) (staged : Object) (plain : Bytes)
      (reserved : (tableOf nvm).reserved = slot.val + 1)
      (stage : nvm.objects vaultStageId = some staged)
      (authentic : sealedContent sealer staged ((tableOf nvm).slots slot) = .ok plain) :
      Write sealer key nvm (withObject nvm (slotId slot)
        (some { staged with flags := sensitiveFlags }))
  /-- What the table says is under way is taken out of the store. -/
  | clear (slot : Slot) (pending : Pending nvm slot)
      (lost : (tableOf nvm).reserved = slot.val + 1 → ¬ Restorable sealer nvm slot) :
      Write sealer key nvm (withObject nvm (slotId slot) none)
  /-- What is under way ends and the counters stay. -/
  | settle :
      Write sealer key nvm (withTable nvm { tableOf nvm with reserved := 0 })
  /-- What is under way ends and its slot has no counter. -/
  | forget (slot : Slot) (pending : Pending nvm slot) :
      Write sealer key nvm (withTable nvm ((tableOf nvm).close slot 0))
  /-- A set that stages nothing stores the counter before the object. -/
  | count (slot : Slot) (counter global : Counter)
      (idle : (tableOf nvm).reserved = 0) (writable : Writable nvm key slot) :
      Write sealer key nvm (withTable nvm { tableOf nvm with
        global, slots := Function.update (tableOf nvm).slots slot counter })
  /-- A replacement is announced. -/
  | mark (slot : Slot) (old : Object) (global : Counter)
      (stage : nvm.objects vaultStageId = none)
      (changeable : Changeable nvm key slot old)
      (authentic : Authentic sealer nvm slot old) :
      Write sealer key nvm (withTable nvm { tableOf nvm with
        global, reserved := slot.val + 1 })
  /-- The object to be replaced is copied. -/
  | stage (slot : Slot) (old : Object)
      (reserved : (tableOf nvm).reserved = slot.val + 1)
      (changeable : Changeable nvm key slot old)
      (authentic : Authentic sealer nvm slot old) :
      Write sealer key nvm (withObject nvm vaultStageId (some { old with flags := sensitiveFlags }))
  /-- The new object is written. -/
  | place (slot : Slot) (flags : Word) (payload : Bytes)
      (reserved : (tableOf nvm).reserved = 0 ∨ (tableOf nvm).reserved = slot.val + 1)
      (writable : Writable nvm key slot)
      (staged : (tableOf nvm).reserved = slot.val + 1 → Staged sealer nvm slot) :
      Write sealer key nvm (withObject nvm (slotId slot)
        (some (setObject flags (vaultMakeLabel key flags) payload)))
  /-- The replacement is committed. -/
  | commit (slot : Slot) (counter : Counter)
      (reserved : (tableOf nvm).reserved = slot.val + 1) :
      Write sealer key nvm (withTable nvm ((tableOf nvm).close slot counter))
  /-- The removal of a sealed object is announced. -/
  | condemn (slot : Slot) (object : Object)
      (stage : nvm.objects vaultStageId = none)
      (changeable : Changeable nvm key slot object) :
      Write sealer key nvm (withTable nvm { tableOf nvm with
        reserved := deleteMarkerBase + slot.val + 1 })
  /-- An object is removed. -/
  | remove (slot : Slot) (object : Object)
      (changeable : Changeable nvm key slot object)
      (announced : (tableOf nvm).reserved = 0 ∨
        (tableOf nvm).reserved = deleteMarkerBase + slot.val + 1) :
      Write sealer key nvm (withObject nvm (slotId slot) none)

def Path (sealer : Option Sealer) (key : Key) : Nvm → Nvm → Prop :=
  Relation.ReflTransGen (Write sealer key)

/-- Nothing is staged while an object is being removed. -/
def Tidy (nvm : Nvm) : Prop :=
  (tableOf nvm).reserved > deleteMarkerBase → nvm.objects vaultStageId = none

section Rules

variable {sealer : Option Sealer} {key : Key} {start nvm nvm' : Nvm}
  {w : World}

def Left (sealer : Option Sealer) (key : Key) (start : Nvm) (w : World) : Prop :=
  ∃ nvm, At nvm w ∧ Path sealer key start nvm

theorem wp_write {α : Type} {p : VaultM Unit} {f : Unit → VaultM α}
    {Q : α → World → Prop} (hpath : Path sealer key start nvm)
    (hwrite : Write sealer key nvm nvm')
    (hp : wp p (fun _ => At nvm') (fun _ => Either nvm nvm') (Either nvm nvm') w)
    (hf : ∀ w', At nvm' w' → wp (f ()) Q (fun _ => Left sealer key start)
      (Left sealer key start) w') :
    wp (p >>= f) Q (fun _ => Left sealer key start) (Left sealer key start)
      w := by
  have hleft : ∀ w', Either nvm nvm' w' → Left sealer key start w' := by
    rintro w' (hat | hat)
    · exact ⟨nvm, hat, hpath⟩
    · exact ⟨nvm', hat, hpath.tail hwrite⟩
  rw [wp_bind]
  exact hp.mono (fun _ => hf) (fun _ => hleft) hleft

theorem wp_read {α β : Type} {p : VaultM α} {f : α → VaultM β}
    {Q : β → World → Prop} {V : α → Prop}
    (hpath : Path sealer key start nvm)
    (hp : wp p (fun value w' => At nvm w' ∧ V value) (fun _ => At nvm) (At nvm) w)
    (hf : ∀ value w', At nvm w' → V value →
      wp (f value) Q (fun _ => Left sealer key start) (Left sealer key start) w') :
    wp (p >>= f) Q (fun _ => Left sealer key start) (Left sealer key start)
      w := by
  rw [wp_bind]
  exact hp.mono (fun value w' h => hf value w' h.1 h.2)
    (fun _ w' hat => ⟨nvm, hat, hpath⟩) (fun w' hat => ⟨nvm, hat, hpath⟩)

end Rules

section Load

variable {sealer : Option Sealer} {key : Key} {start nvm : Nvm} {w : World} {table : Table}
  {slot : Slot}

structure Clear (table : Table) (nvm : Nvm) : Prop where
  table_eq : tableOf nvm = table
  idle : table.reserved = 0
  stage : nvm.objects vaultStageId = none

/-- A load that succeeded left a clear store on a path. -/
def Loads (sealer : Option Sealer) (key : Key) (start : Nvm) (table : Table) (w : World) : Prop :=
  ∃ nvm, At nvm w ∧ Path sealer key start nvm ∧ Clear table nvm

theorem clearStage_path (h : At nvm w) (hpath : Path sealer key start nvm)
    (htable : tableOf nvm = table) (hidle : table.reserved = 0) :
    wp (vaultDestroyStage >>= fun _ => pure table) (Loads sealer key start)
      (fun _ => Left sealer key start) (Left sealer key start) w := by
  subst htable
  have hwrite : Write sealer key nvm (withObject nvm vaultStageId none) := .unstage hidle
  refine wp_write hpath hwrite ((vaultDestroyStage_wp h).mono (fun _ _ h => h)
    (fun _ _ h => h.2) (fun _ h => h)) fun w' hat => ?_
  exact ⟨_, hat, hpath.tail hwrite, rfl, hidle, objects_withObject_self⟩

theorem tableStore_write (h : At nvm w) (table : Table) :
    wp (vaultTableStore table) (fun _ => At (withTable nvm table))
      (fun _ => Either nvm (withTable nvm table))
      (Either nvm (withTable nvm table)) w :=
  (vaultTableStore_wp h table).mono (fun _ _ h => h) (fun _ _ h => h.2) (fun _ h => h)

theorem close_path (h : At nvm w) (hpath : Path sealer key start nvm)
    (hwrite : Write sealer key nvm (withTable nvm table)) (hidle : table.reserved = 0) :
    wp (vaultTableStore table >>= fun _ => vaultDestroyStage >>= fun _ =>
        pure table)
      (Loads sealer key start) (fun _ => Left sealer key start)
      (Left sealer key start) w :=
  wp_write hpath hwrite (tableStore_write h table) fun _ hat =>
    clearStage_path hat (hpath.tail hwrite) rfl hidle

theorem changed_write (h : At nvm w) (id : Nat) (object : Option Object) :
    wp (mapped (nvmChange id object)) (fun _ => At (withObject nvm id object))
      (fun _ => Either nvm (withObject nvm id object))
      (Either nvm (withObject nvm id object)) w := by
  rw [wp_mapped]
  exact (nvmChange_wp h id object).mono (fun _ _ h => h) (fun _ _ h => h.2) (fun _ h => h)

theorem readable_of_faulty {status : PsaStatus} (h : Faulty status) :
    ¬ unreadable status = true := by
  rcases h with rfl | rfl <;> decide

theorem recoverLive_path (h : At nvm w) (hpath : Path sealer key start nvm)
    (hreserved : (tableOf nvm).reserved = slot.val + 1) (hstage : ¬ Staged sealer nvm slot) :
    wp (vaultRecoverLive sealer (tableOf nvm)) (Loads sealer key start)
      (fun _ => Left sealer key start) (Left sealer key start) w := by
  have hindex : (Fin.ofNat 32 ((tableOf nvm).reserved - 1) : Slot) = slot := by
    rw [hreserved, Nat.add_sub_cancel]
    exact slot_of_reserved slot
  have hsame : ∀ w', At nvm w' → Left sealer key start w' :=
    fun w' hat => ⟨nvm, hat, hpath⟩
  unfold vaultRecoverLive
  rw [hindex, wp_bind, wp_tried]
  refine (nvmGetMetadata_wp h (slotId slot)).mono ?_ ?_ hsame
  · rintro object w₁ ⟨hobject, hat₁⟩
    rw [wp_bind]
    unfold liveStatus
    dsimp only
    rw [wp_attempt]
    refine (vaultReadSealed_wp hat₁ hobject _).mono ?_ ?_ hsame
    · rintro read w₂ ⟨-, -, hat₂⟩
      exact close_path hat₂ hpath .settle rfl
    · rintro status w₂ ⟨hstatus, hat₂⟩
      unfold liveSettled
      dsimp only
      rw [wp_bind]
      split
      · rename_i hunreadable
        have hclear : Write sealer key nvm (withObject nvm (slotId slot) none) := by
          refine .clear slot (.inl hreserved) fun _ => ?_
          rintro (hstaged | ⟨-, live, hlive, plain, hplain⟩)
          · exact hstage hstaged
          · cases hobject.symm.trans hlive
            rcases hstatus with hcontent | hfaulty
            · cases hcontent.symm.trans hplain
            · exact readable_of_faulty hfaulty hunreadable
        refine wp_write hpath hclear (changed_write hat₂ _ _) fun w₃ hat₃ => ?_
        exact close_path hat₃ (hpath.tail hclear) (.forget slot (.inl hreserved))
          rfl
      · exact hsame w₂ hat₂
  · rintro code w₁ ⟨hcode, hat₁⟩
    rw [wp_bind]
    unfold liveStatus
    rcases hcode with ⟨-, rfl⟩ | rfl | rfl
    · exact close_path hat₁ hpath (.forget slot (.inl hreserved)) rfl
    · exact hsame w₁ hat₁
    · exact hsame w₁ hat₁

theorem recoverDelete_path (h : At nvm w) (hpath : Path sealer key start nvm)
    (hreserved : (tableOf nvm).reserved = deleteMarkerBase + slot.val + 1)
    (hstage : nvm.objects vaultStageId = none) :
    wp (vaultRecoverDelete (tableOf nvm)) (Loads sealer key start)
      (fun _ => Left sealer key start) (Left sealer key start) w := by
  have hindex : (Fin.ofNat 32 ((tableOf nvm).reserved - deleteMarkerBase - 1) : Slot) = slot := by
    rw [show (tableOf nvm).reserved - deleteMarkerBase - 1 = slot.val by omega]
    exact slot_of_reserved slot
  have hsame : ∀ w', At nvm w' → Left sealer key start w' :=
    fun w' hat => ⟨nvm, hat, hpath⟩
  -- the table is closed over the slot, whether the object was there or not
  have hclose : ∀ {nvm' : Nvm} w', At nvm' w' → Path sealer key start nvm' →
      tableOf nvm' = tableOf nvm → nvm'.objects vaultStageId = none →
      wp (vaultTableStore ((tableOf nvm).close slot 0) >>= fun _ =>
        pure ((tableOf nvm).close slot 0)) (Loads sealer key start)
      (fun _ => Left sealer key start) (Left sealer key start) w' := by
    intro nvm' w' hat hpath' htable hnone
    have hforget : Write sealer key nvm' (withTable nvm' ((tableOf nvm).close slot 0)) := by
      rw [← htable]
      exact .forget slot (.inr (htable ▸ hreserved))
    exact wp_write hpath' hforget (tableStore_write hat _) fun w'' hat' =>
      ⟨_, hat', hpath'.tail hforget, rfl, rfl, hnone⟩
  have hclear : Write sealer key nvm (withObject nvm (slotId slot) none) := by
    refine .clear slot (.inr hreserved) fun hreplacing => ?_
    unfold deleteMarkerBase vaultIdCount at hreserved
    omega
  have heither : ∀ w', Either nvm (withObject nvm (slotId slot) none) w' →
      Left sealer key start w' := by
    rintro w' (hat | hat)
    · exact hsame w' hat
    · exact ⟨_, hat, hpath.tail hclear⟩
  have hcleared : ∀ w', At (withObject nvm (slotId slot) none) w' →
      wp (vaultTableStore ((tableOf nvm).close slot 0) >>= fun _ =>
        pure ((tableOf nvm).close slot 0)) (Loads sealer key start)
      (fun _ => Left sealer key start) (Left sealer key start) w' :=
    fun w' hat => hclose w' hat (hpath.tail hclear) rfl
      ((VaultTampering.stage_reslot nvm slot none).trans hstage)
  unfold vaultRecoverDelete
  rw [hindex, wp_bind, wp_attempt, wp_mapped]
  refine (nvmGetMetadata_wp h (slotId slot)).mono ?_ ?_ hsame
  · rintro object w₁ ⟨-, hat₁⟩
    dsimp only
    split
    · exact hclose w₁ hat₁ hpath rfl hstage
    · rw [wp_bind, wp_attempt]
      refine (VaultTampering.destroyChecked_wp hat₁ (slotId slot)).mono
        (fun _ => hcleared) (fun status w₂ h₂ => ?_) heither
      cases status with
      | doesNotExist =>
        rcases h₂ with hat₂ | hat₂
        · exact hclose w₂ hat₂ hpath rfl hstage
        · exact hcleared w₂ hat₂
      | _ => exact heither w₂ h₂
  · rintro code w₁ ⟨⟨-, rfl⟩ | rfl | rfl, hat₁⟩
    · exact hclose w₁ hat₁ hpath rfl hstage
    · exact hsame w₁ hat₁
    · exact hsame w₁ hat₁

theorem restore_path {staged : Object} {plain : Bytes} (h : At nvm w)
    (hpath : Path sealer key start nvm) (hreserved : (tableOf nvm).reserved = slot.val + 1)
    (hstaged : nvm.objects vaultStageId = some staged)
    (hcontent : sealedContent sealer staged ((tableOf nvm).slots slot) = .ok plain) :
    wp (vaultRestore (tableOf nvm) slot staged staged.data)
      (Loads sealer key start) (fun _ => Left sealer key start)
      (Left sealer key start) w := by
  have hrestore : Write sealer key nvm (withObject nvm (slotId slot)
      (some { staged with flags := sensitiveFlags })) :=
    .restore slot staged plain hreserved hstaged hcontent
  unfold vaultRestore
  refine wp_read (V := fun _ => True) hpath ((vaultReserve_wp h _ _).mono
    (fun _ _ h => ⟨h, trivial⟩) (fun _ _ h => h.2) (fun _ h => h))
    fun _ w₁ hat₁ _ => ?_
  refine wp_write hpath hrestore (changed_write hat₁ _ _) fun w₂ hat₂ => ?_
  exact close_path hat₂ (hpath.tail hrestore) .settle rfl

theorem recover_path (h : At nvm w) (hpath : Path sealer key start nvm) (htidy : Tidy nvm)
    (hvalid : (tableOf nvm).reserved ≤ deleteMarkerBase + vaultIdCount) :
    wp (vaultRecover sealer (tableOf nvm)) (Loads sealer key start)
      (fun _ => Left sealer key start) (Left sealer key start) w := by
  have hsame : ∀ w', At nvm w' → Left sealer key start w' :=
    fun w' hat => ⟨nvm, hat, hpath⟩
  unfold vaultRecover
  split
  · rename_i hdeleting
    have hlt : (tableOf nvm).reserved - deleteMarkerBase - 1 < 32 := by
      unfold vaultIdCount at hvalid
      omega
    let slot : Slot := ⟨_, hlt⟩
    have hreserved : (tableOf nvm).reserved = deleteMarkerBase + slot.val + 1 := by
      have hval : slot.val = (tableOf nvm).reserved - deleteMarkerBase - 1 := rfl
      omega
    exact recoverDelete_path h hpath hreserved (htidy hdeleting)
  · rename_i hnotDeleting
    split
    · rename_i hidle
      exact clearStage_path h hpath rfl hidle
    · rename_i hbusy
      let slot : Slot := Fin.ofNat 32 ((tableOf nvm).reserved - 1)
      have hreserved : (tableOf nvm).reserved = slot.val + 1 := by
        have hval : slot.val = ((tableOf nvm).reserved - 1) % 32 := rfl
        unfold deleteMarkerBase vaultIdCount at hnotDeleting
        omega
      rw [wp_bind, wp_attempt, wp_bind, wp_mapped]
      refine (nvmGetMetadata_wp h vaultStageId).mono ?_ ?_ hsame
      · rintro staged w₁ ⟨hstaged, hat₁⟩
        rw [wp_bind]
        refine (vaultReadSealed_wp hat₁ hstaged _).mono ?_ ?_ hsame
        · rintro ⟨cipher, plain⟩ w₂ ⟨rfl, hcontent, hat₂⟩
          exact restore_path hat₂ hpath hreserved hstaged hcontent
        · rintro status w₂ ⟨hstatus, hat₂⟩
          dsimp only
          split
          · rename_i hunreadable
            refine recoverLive_path hat₂ hpath hreserved ?_
            rintro ⟨object, hobject, plain, hplain⟩
            cases hstaged.symm.trans hobject
            rcases hstatus with hcontent | hfaulty
            · cases hcontent.symm.trans hplain
            · exact readable_of_faulty hfaulty hunreadable
          · exact hsame w₂ hat₂
      · rintro code w₁ ⟨⟨hnone, rfl⟩ | rfl | rfl, hat₁⟩
        · refine recoverLive_path hat₁ hpath hreserved ?_
          rintro ⟨object, hobject, -⟩
          cases hnone.symm.trans hobject
        · exact hsame w₁ hat₁
        · exact hsame w₁ hat₁

theorem load_path (h : At nvm w) (htidy : Tidy nvm) :
    wp (vaultTableLoad sealer) (Loads sealer key nvm)
      (fun _ => Left sealer key nvm) (Left sealer key nvm) w := by
  have hsame : ∀ w', At nvm w' → Left sealer key nvm w' :=
    fun w' hat => ⟨nvm, hat, .refl⟩
  unfold vaultTableLoad
  rw [wp_bind, wp_tried]
  refine (nvmReadTable_wp h).mono ?_ ?_ hsame
  · rintro table w' ⟨htable, hat⟩
    have hstored : tableOf nvm = table := by
      unfold tableOf
      rw [htable, Option.getD_some]
    subst hstored
    dsimp only
    split
    · exact hsame w' hat
    · rename_i hvalid
      exact recover_path hat .refl htidy (by omega)
  · rintro code w' ⟨hcode, hat⟩
    cases code with
    | notfound =>
      have hempty : tableOf nvm = emptyTable := by
        unfold tableOf
        rw [hcode rfl, Option.getD_none]
      have hrecover := @recover_path sealer key nvm nvm w' hat .refl htidy
        (by rw [hempty]; exact Nat.zero_le _)
      rw [hempty] at hrecover
      exact hrecover
    | access | nospace | other => exact hsame w' hat

end Load

section Reads

variable {sealer : Option Sealer} {asked key : Key} {start nvm : Nvm} {w : World}
  {table : Table}

/-- The object of the key that a store holds. -/
def Finds (nvm : Nvm) (key : Key) (slot : Slot) (object : Object) : Prop :=
  nvm.objects (slotId slot) = some object ∧ vaultLabelMatch object.label key = true

/-- What a get returns, from the object and its counter. -/
def Answers (sealer : Option Sealer) (object : Object) (counter : Counter)
    (offset size : Nat) (bytes : Bytes) : Prop :=
  isKey object.label = false ∧
    if isSealed object.label then
      ∃ plain, sealedContent sealer object counter = .ok plain ∧
        offset ≤ object.data.length - vaultSealTagLen ∧
        bytes = (plain.drop offset).take (min (object.data.length - vaultSealTagLen - offset) size)
    else offset ≤ object.data.length ∧ bytes = (object.data.drop offset).take
        (min (object.data.length - offset) size)

/-- The store at the end of a path, and the object found there. A read only ends
what was begun, so the path is one of any key. -/
def Read (sealer : Option Sealer) (asked key : Key) (start : Nvm)
    (tells : Object → Counter → Prop) (w : World) : Prop :=
  ∃ nvm, At nvm w ∧ Path sealer asked start nvm ∧ ∃ slot object,
    Finds nvm key slot object ∧ tells object ((tableOf nvm).slots slot)

theorem Read.left {tells : Object → Counter → Prop} (h : Read sealer asked key start tells w) :
    Left sealer asked start w := by
  obtain ⟨nvm, hat, hpath, -⟩ := h
  exact ⟨nvm, hat, hpath⟩

theorem find_read (h : At nvm w) : wp (vaultFind key)
      (fun found w' => At nvm w' ∧ Finds nvm key found.1 found.2)
      (fun _ => At nvm) (At nvm) w :=
  (VaultTampering.find_names h).mono (fun _ _ h => ⟨h.1, h.2⟩) (fun _ _ h => h) (fun _ h => h)

theorem get_path (h : At nvm w) (htidy : Tidy nvm) (offset size : Nat) :
    wp (vaultGet sealer key offset size)
      (fun bytes => Read sealer asked key nvm fun object counter =>
        Answers sealer object counter offset size bytes)
      (fun _ => Left sealer asked nvm) (Left sealer asked nvm) w := by
  unfold vaultGet
  refine (load_path h htidy).bind ?_
  rintro table w₁ ⟨nvm₁, hat₁, hpath, hclear⟩
  have hsame : ∀ w', At nvm₁ w' → Left sealer asked nvm w' :=
    fun w' hat => ⟨nvm₁, hat, hpath⟩
  refine wp_read hpath (find_read hat₁) ?_
  rintro ⟨slot, object⟩ w₂ hat₂ hfinds
  have hread : ∀ w' bytes, At nvm₁ w' → Answers sealer object (table.slots slot) offset size bytes →
      Read sealer asked key nvm (fun object counter =>
        Answers sealer object counter offset size bytes) w' :=
    fun w' bytes hat hanswers => ⟨nvm₁, hat, hpath, slot, object, hfinds,
      by rw [hclear.table_eq]; exact hanswers⟩
  dsimp only
  split
  · exact hsame w₂ hat₂
  · rename_i hkey
    have hnotKey : isKey object.label = false := Bool.eq_false_iff.mpr hkey
    split
    · rename_i hsealed
      split
      · exact hsame w₂ hat₂
      · rw [wp_bind]
        refine (vaultReadSealed_wp hat₂ hfinds.1 _).mono ?_ (fun _ w' h => hsame w' h.2) hsame
        rintro read w₃ ⟨-, hcontent, hat₃⟩
        split
        · exact hsame w₃ hat₃
        · rename_i hoffset
          refine hread w₃ _ hat₃ ⟨hnotKey, ?_⟩
          rw [if_pos hsealed]
          exact ⟨read.2, hcontent, Nat.not_lt.mp hoffset, rfl⟩
    · rename_i hplain
      split
      · exact hsame w₂ hat₂
      · rename_i hoffset
        have hanswers : Answers sealer object (table.slots slot) offset size
            ((object.data.drop offset).take (min (object.data.length - offset) size)) := by
          refine ⟨hnotKey, ?_⟩
          rw [if_neg hplain]
          exact ⟨Nat.not_lt.mp hoffset, rfl⟩
        split
        · rw [wp_mapped]
          refine (nvmReadChecked_wp hat₂ hfinds.1 _ _).mono ?_ (fun _ w' h => hsame w' h.2) hsame
          rintro bytes w₃ ⟨-, rfl, hat₃⟩
          exact hread w₃ _ hat₃ hanswers
        · rename_i hnone
          rw [Nat.eq_zero_of_not_pos hnone, List.take_zero] at hanswers
          exact hread w₂ _ hat₂ hanswers

def Describes (object : Object) (info : VaultInfo) : Prop :=
  info = { size := object.data.length -
             if isSealed object.label then vaultSealTagLen else 0
           flags := object.label.flags }

theorem getInfo_path (h : At nvm w) (htidy : Tidy nvm) : wp (vaultGetInfo sealer key)
      (fun info => Read sealer asked key nvm fun object _ => Describes object info)
      (fun _ => Left sealer asked nvm) (Left sealer asked nvm) w := by
  unfold vaultGetInfo
  refine (load_path h htidy).bind ?_
  rintro table w₁ ⟨nvm₁, hat₁, hpath, -⟩
  refine wp_read hpath (find_read hat₁) ?_
  rintro ⟨slot, object⟩ w₂ hat₂ hfinds
  have hread : ∀ info, Describes object info →
      Read sealer asked key nvm (fun object _ => Describes object info) w₂ :=
    fun info hinfo => ⟨nvm₁, hat₂, hpath, slot, object, hfinds, hinfo⟩
  dsimp only
  split
  · rename_i hsealed
    split
    · exact ⟨nvm₁, hat₂, hpath⟩
    · refine hread _ ?_
      unfold Describes
      rw [if_pos hsealed]
  · rename_i hplain
    refine hread _ ?_
    unfold Describes
    rw [if_neg hplain, Nat.sub_zero]

end Reads

section Set

variable {sealer : Option Sealer} {key : Key} {start nvm : Nvm} {w : World} {table : Table}
  {slot : Slot} {flags : Word} {data : Bytes} {target : Slot × Option Object}

/-- What a lookup tells a set. -/
structure Looked (nvm : Nvm) (key : Key) (looked : Lookup) : Prop where
  found : ∀ found ∈ looked.found, Finds nvm key found.1 found.2
  missing : looked.found = none → ∀ slot, ¬ names nvm key slot = true
  free : ∀ slot ∈ looked.free, nvm.objects (slotId slot) = none

theorem lookup_read (h : At nvm w) :
    wp (vaultLookup key) (fun looked w' => At nvm w' ∧ Looked nvm key looked)
      (fun _ => At nvm) (At nvm) w := by
  refine (lookup_names h).mono ?_ (fun _ _ h => h.2) (fun _ h => h)
  rintro looked w' ⟨hat, hfirst, hobjects, hfree⟩
  refine ⟨hat, fun found hfound => ?_, fun hnone slot => ?_, hfree⟩
  · have hobject := hobjects found hfound
    rw [hfound, Option.map_some] at hfirst
    obtain ⟨object, hsame, hmatch⟩ :=
      VaultTampering.names_iff.mp (List.find?_some hfirst.symm)
    cases hobject.symm.trans hsame
    exact ⟨hobject, hmatch⟩
  · rw [hnone] at hfirst
    exact List.find?_eq_none.mp hfirst.symm slot (List.mem_finRange slot)

/-- Where a set writes, with the object it finds there. -/
def Aimed (nvm : Nvm) (key : Key) (target : Slot × Option Object) : Prop :=
  match target.2 with
  | some object => Changeable nvm key target.1 object
  | none => nvm.objects (slotId target.1) = none ∧
      ∀ other, ¬ names nvm key other = true

theorem Aimed.writable (h : Aimed nvm key target) : Writable nvm key target.1 := by
  unfold Aimed at h
  split at h
  · exact .inl ⟨_, h⟩
  · exact .inr h

theorem setTarget_read {looked : Lookup} (h : At nvm w) (hlooked : Looked nvm key looked) :
    wp (setTarget looked) (fun target w' => At nvm w' ∧ Aimed nvm key target)
      (fun _ => At nvm) (At nvm) w := by
  unfold setTarget
  rcases hfound : looked.found with _ | ⟨slot, object⟩
  · dsimp only
    rcases hfree : looked.free with _ | slot
    · exact h
    · exact ⟨h, hlooked.free slot hfree, hlooked.missing hfound⟩
  · dsimp only
    split
    · exact h
    · rename_i hflags
      obtain ⟨hkey, honce⟩ : isKey object.label = false ∧
          anySet object.label.flags vaultFlagWriteOnce = false := by
        simpa using hflags
      obtain ⟨hobject, hmatch⟩ := hlooked.found (slot, object) hfound
      exact ⟨h, hobject, hmatch, hkey, honce⟩

theorem setReplaced_read (h : At nvm w) (haimed : Aimed nvm key target) :
    wp (setReplaced sealer (tableOf nvm) target.1 target.2)
      (fun replaced w' => At nvm w' ∧ ∀ found ∈ replaced,
        found.2 = found.1.data ∧ Changeable nvm key target.1 found.1 ∧
          Authentic sealer nvm target.1 found.1)
      (fun _ => At nvm) (At nvm) w := by
  have hnone : ∀ w', At nvm w' → At nvm w' ∧ ∀ found ∈ (none : Option (Object × Bytes)),
        found.2 = found.1.data ∧ Changeable nvm key target.1 found.1 ∧
          Authentic sealer nvm target.1 found.1 :=
    fun w' hat => ⟨hat, fun _ hsome => by cases hsome⟩
  obtain ⟨slot, found⟩ := target
  unfold setReplaced
  cases found with
  | none => exact hnone w h
  | some object =>
    have hchangeable : Changeable nvm key slot object := haimed
    dsimp only
    split
    · rw [wp_bind, wp_attempt]
      refine (vaultReadSealed_wp h hchangeable.object_eq _).mono ?_ ?_ (fun _ h => h)
      · rintro read w' ⟨hcipher, hcontent, hat⟩
        refine ⟨hat, fun found hsome => ?_⟩
        cases hsome
        exact ⟨hcipher, hchangeable, read.2, hcontent⟩
      · rintro status w' ⟨-, hat⟩
        cases status <;> first | exact hat | exact hnone w' hat
    · exact hnone w h

/-- What a set that succeeded left: the object in its place, made of the data
under the counter of its slot, and nothing under way. -/
structure Placed (sealer : Option Sealer) (key : Key) (flags : Word)
    (data : Bytes) (slot : Slot) (payload : Bytes) (nvm : Nvm) : Prop where
  object_eq : nvm.objects (slotId slot) = some (setObject flags (vaultMakeLabel key flags) payload)
  idle : (tableOf nvm).reserved = 0
  plain : anySet flags vaultFlagSealed = false → payload = data
  sealed : anySet flags vaultFlagSealed = true → ∃ s ∈ sealer,
    s.sealBytes (vaultMakeLabel key flags) ((tableOf nvm).slots slot) data = .ok payload

theorem Placed.answers {payload bytes : Bytes} {offset size : Nat} (hround : RoundTrip sealer)
    (hplaced : Placed sealer key flags data slot payload nvm)
    (h : Answers sealer (setObject flags (vaultMakeLabel key flags) payload)
      ((tableOf nvm).slots slot) offset size bytes) :
    offset ≤ data.length ∧ bytes = (data.drop offset).take size := by
  have htake : ∀ plain : Bytes, (plain.drop offset).take
      (min (plain.length - offset) size) = (plain.drop offset).take size := by
    intro plain
    rw [List.take_eq_take_iff, List.length_drop]
    omega
  obtain ⟨-, hanswer⟩ := h
  split at hanswer
  · rename_i hsealed
    obtain ⟨plain, hcontent, hoffset, rfl⟩ := hanswer
    obtain ⟨s, hs, hseal⟩ := hplaced.sealed hsealed
    have hopen := hround.opens s hs _ _ _ _ hseal
    obtain ⟨-, -, s', hs', hopen'⟩ :=
      VaultTampering.sealedContent_ok hcontent
    cases hs.symm.trans hs'
    cases hopen.symm.trans hopen'
    have hlength : payload.length - vaultSealTagLen = data.length := by
      rw [hround.length s hs _ _ _ _ hopen, Nat.add_sub_cancel]
    dsimp only [setObject] at hoffset ⊢
    rw [hlength] at hoffset ⊢
    exact ⟨hoffset, htake data⟩
  · rename_i hplain
    obtain ⟨hoffset, rfl⟩ := hanswer
    obtain rfl := hplaced.plain (Bool.eq_false_iff.mpr hplain)
    exact ⟨hoffset, htake payload⟩

theorem Placed.describes {payload : Bytes} {info : VaultInfo} (hround : RoundTrip sealer)
    (hplaced : Placed sealer key flags data slot payload nvm)
    (h : Describes (setObject flags (vaultMakeLabel key flags) payload) info) :
    info = { size := data.length, flags } := by
  unfold Describes at h
  subst h
  split
  · rename_i hsealed
    obtain ⟨s, hs, hseal⟩ := hplaced.sealed hsealed
    have hlength := hround.length s hs _ _ _ _ (hround.opens s hs _ _ _ _ hseal)
    dsimp only [setObject]
    rw [hlength, Nat.add_sub_cancel]
    rfl
  · rename_i hplain
    obtain rfl := hplaced.plain (Bool.eq_false_iff.mpr hplain)
    rfl

def Sets (sealer : Option Sealer) (key : Key) (flags : Word) (data : Bytes)
    (start : Nvm) (w : World) : Prop :=
  ∃ nvm, At nvm w ∧ Path sealer key start nvm ∧
    ∃ slot payload, Placed sealer key flags data slot payload nvm

theorem setFresh_add_path {counter : Counter} (h : At nvm w) (hpath : Path sealer key start nvm)
    (hwritable : Writable nvm key slot) (hidle : (tableOf nvm).reserved = 0)
    (hcounter : anySet flags vaultFlagSealed = true → (tableOf nvm).slots slot = counter) :
    wp (setPayload sealer (anySet flags vaultFlagSealed)
          (vaultMakeLabel key flags) counter data >>= fun payload =>
        mapped (nvmAddObjectChecked (slotId slot)
          (setObject flags (vaultMakeLabel key flags) payload)))
      (fun _ => Sets sealer key flags data start)
      (fun _ => Left sealer key start) (Left sealer key start) w := by
  refine wp_read hpath (setPayload_seals h _ _ data) ?_
  rintro payload w₁ hat₁ ⟨hplain, hseals⟩
  have hplace : Write sealer key nvm (withObject nvm (slotId slot)
      (some (setObject flags (vaultMakeLabel key flags) payload))) :=
    .place slot flags payload (.inl hidle) hwritable fun hreplacing => by
      rw [hidle] at hreplacing
      cases hreplacing
  have heither : ∀ w', Either nvm (withObject nvm (slotId slot)
      (some (setObject flags (vaultMakeLabel key flags) payload))) w' →
      Left sealer key start w' := by
    rintro w' (hat | hat)
    · exact ⟨nvm, hat, hpath⟩
    · exact ⟨_, hat, hpath.tail hplace⟩
  refine (addObjectChecked_wp hat₁ _ _).mono (fun _ w₂ hat₂ => ?_) (fun _ => heither) heither
  refine ⟨_, hat₂, hpath.tail hplace, slot, payload, objects_withObject_self,
    hidle, hplain, fun hsealing => ?_⟩
  have hsame : (tableOf (withObject nvm (slotId slot)
      (some (setObject flags (vaultMakeLabel key flags) payload)))).slots slot =
      counter := hcounter hsealing
  rw [hsame]
  exact hseals hsealing

theorem setFresh_path (h : At nvm w) (hpath : Path sealer key start nvm)
    (hclear : Clear table nvm) (hwritable : Writable nvm key slot) :
    wp (setFresh sealer (bump table flags) slot (vaultMakeLabel key flags)
        (setCounter table flags) (anySet flags vaultFlagSealed) flags data)
      (fun _ => Sets sealer key flags data start)
      (fun _ => Left sealer key start) (Left sealer key start) w := by
  obtain ⟨rfl, hidle, -⟩ := hclear
  unfold setFresh
  split
  · have hcount : Write sealer key nvm (withTable nvm
        { bump (tableOf nvm) flags with
          slots := Function.update (tableOf nvm).slots slot (setCounter (tableOf nvm) flags) }) :=
      .count slot _ _ hidle hwritable
    refine wp_write hpath hcount (tableStore_write h _) fun w₁ hat₁ => ?_
    exact setFresh_add_path hat₁ (hpath.tail hcount)
      (hwritable.frame fun _ => rfl) hidle fun _ => Function.update_self _ _ _
  · rename_i hquiet
    refine setFresh_add_path h hpath hwritable hidle fun hsealing => ?_
    rw [hsealing, Bool.true_or] at hquiet
    exact absurd rfl hquiet

theorem Authentic.sensitive {object : Object} (h : Authentic sealer nvm slot object) :
    Authentic sealer nvm slot { object with flags := sensitiveFlags } := by
  obtain ⟨plain, hcontent⟩ := h
  refine ⟨plain, ?_⟩
  unfold sealedContent at hcontent ⊢
  cases sealer with
  | none => cases hcontent
  | some s =>
    dsimp only at hcontent ⊢
    split at hcontent
    · cases hcontent
    · rename_i hvalid
      split at hcontent
      · cases hcontent
      · rw [if_neg hvalid]
        exact hcontent

theorem setReplace_path {old : Object} (h : At nvm w)
    (hpath : Path sealer key start nvm) (hstage : nvm.objects vaultStageId = none)
    (hold : Changeable nvm key slot old) (hauthentic : Authentic sealer nvm slot old) :
    wp (setReplace sealer (bump (tableOf nvm) flags) slot old old.data
        (vaultMakeLabel key flags) (setCounter (tableOf nvm) flags)
        (anySet flags vaultFlagSealed) flags data)
      (fun _ => Sets sealer key flags data start)
      (fun _ => Left sealer key start) (Left sealer key start) w := by
  let marked : Table :=
    { bump (tableOf nvm) flags with reserved := slot.val + 1 }
  let nvm₁ := withTable nvm marked
  let nvm₂ := withObject nvm₁ vaultStageId (some { old with flags := sensitiveFlags })
  have hmark : Write sealer key nvm nvm₁ := .mark slot old _ hstage hold hauthentic
  have hcopy : Write sealer key nvm₁ nvm₂ := .stage slot old rfl (hold.frame rfl) hauthentic
  have hpath₁ : Path sealer key start nvm₁ := hpath.tail hmark
  have hpath₂ : Path sealer key start nvm₂ := hpath₁.tail hcopy
  unfold setReplace
  refine wp_write hpath hmark (tableStore_write h marked) fun w₁ hat₁ => ?_
  refine wp_write hpath₁ hcopy (changed_write hat₁ _ _) fun w₂ hat₂ => ?_
  refine wp_read hpath₂ (setPayload_seals hat₂ _ _ data) ?_
  rintro payload w₃ hat₃ ⟨hplain, hseals⟩
  let object := setObject flags (vaultMakeLabel key flags) payload
  let nvm₃ := withObject nvm₂ (slotId slot) (some object)
  have hplace : Write sealer key nvm₂ nvm₃ := by
    refine .place slot flags payload (.inr rfl) (.inl ⟨old, hold.frame ?_⟩)
      fun _ => ⟨_, objects_withObject_self, hauthentic.sensitive⟩
    exact VaultTampering.objects_restage nvm₁ slot _
  let nvm₄ := withTable nvm₃ ((tableOf nvm₃).close slot (setCounter (tableOf nvm) flags))
  let nvm₅ := withObject nvm₄ vaultStageId none
  have hcommit : Write sealer key nvm₃ nvm₄ := .commit slot _ rfl
  have hunstage : Write sealer key nvm₄ nvm₅ := .unstage rfl
  have hpath₄ : Path sealer key start nvm₄ := (hpath₂.tail hplace).tail hcommit
  refine wp_write hpath₂ hplace (addObjectChecked_wp hat₃ _ _) fun w₄ hat₄ => ?_
  refine wp_write (hpath₂.tail hplace) hcommit (tableStore_write hat₄ _) fun w₅ hat₅ => ?_
  have heither : ∀ w', Either nvm₄ nvm₅ w' → Left sealer key start w' := by
    rintro w' (hat | hat)
    · exact ⟨_, hat, hpath₄⟩
    · exact ⟨_, hat, hpath₄.tail hunstage⟩
  refine (vaultDestroyStage_wp hat₅).mono (fun _ w₆ hat₆ => ?_)
    (fun _ w' h => heither w' h.2) heither
  refine ⟨nvm₅, hat₆, hpath₄.tail hunstage, slot, payload, ?_, rfl, hplain, fun hsealing => ?_⟩
  · rw [VaultTampering.objects_restage]
    exact objects_withObject_self
  · have hcounter : (tableOf nvm₅).slots slot = setCounter (tableOf nvm) flags := slots_close_self _
    rw [hcounter]
    exact hseals hsealing

theorem set_path (h : At nvm w) (htidy : Tidy nvm) : wp (vaultSet sealer key flags data)
      (fun _ => Sets sealer key flags data nvm)
      (fun _ => Left sealer key nvm) (Left sealer key nvm) w := by
  unfold vaultSet
  dsimp only
  split
  · exact ⟨nvm, h, .refl⟩
  · split
    · exact ⟨nvm, h, .refl⟩
    · refine (load_path h htidy).bind ?_
      rintro table w₁ ⟨nvm₁, hat₁, hpath, rfl, hidle, hstage⟩
      refine wp_read hpath (lookup_read hat₁) fun looked w₂ hat₂ hlooked => ?_
      refine wp_read hpath (setTarget_read hat₂ hlooked) fun target w₃ hat₃ haimed => ?_
      refine wp_read hpath (setReplaced_read hat₃ haimed) fun replaced w₄ hat₄ hreplaced => ?_
      refine wp_read (V := fun _ => True) hpath ((VaultTampering.setReserve_wp hat₄ _ _ _ _ _).mono
          (fun _ _ h => ⟨h, trivial⟩) (fun _ _ h => h) (fun _ h => h))
        fun _ w₅ hat₅ _ => ?_
      rcases replaced with _ | ⟨old, cipher⟩
      · exact setFresh_path hat₅ hpath ⟨rfl, hidle, hstage⟩ haimed.writable
      · obtain ⟨hcipher, hold, hauthentic⟩ := hreplaced (old, cipher) rfl
        dsimp only at hcipher hold hauthentic
        subst hcipher
        exact setReplace_path hat₅ hpath hstage hold hauthentic

end Set

section Remove

variable {sealer : Option Sealer} {key : Key} {start nvm : Nvm} {w : World}
  {table : Table}

theorem removeCancel_path {slot : Slot} {reserved : Nat} (h : At nvm w)
    (hpath : Path sealer key start nvm) (htable : tableOf nvm = { table with reserved }) :
    wp (removeCancel sealer table key slot) (fun _ => Left sealer key start)
      (fun _ => Left sealer key start) (Left sealer key start) w := by
  have hsame : ∀ w', At nvm w' → Left sealer key start w' :=
    fun w' hat => ⟨nvm, hat, hpath⟩
  have hsettle : Write sealer key nvm (withTable nvm { table with reserved := 0 }) := by
    have hwrite : Write sealer key nvm _ := .settle
    rw [htable] at hwrite
    exact hwrite
  have heither : ∀ w', Either nvm (withTable nvm { table with reserved := 0 })
      w' → Left sealer key start w' := by
    rintro w' (hat | hat)
    · exact hsame w' hat
    · exact ⟨_, hat, hpath.tail hsettle⟩
  unfold removeCancel
  rw [wp_bind, wp_tried]
  refine (nvmGetMetadata_wp h (slotId slot)).mono ?_ (fun _ w' h => hsame w' h.2) hsame
  rintro object w₁ ⟨hobject, hat₁⟩
  dsimp only
  split
  · rw [wp_bind, wp_attempt]
    refine (vaultReadSealed_wp hat₁ hobject _).mono ?_ (fun _ w' h => hsame w' h.2) hsame
    rintro read w₂ ⟨-, -, hat₂⟩
    dsimp only
    rw [wp_bind, wp_attempt]
    exact (tableStore_write hat₂ _).mono
      (fun _ w' hat => ⟨_, hat, hpath.tail hsettle⟩) (fun _ => heither) heither
  · exact hsame w₁ hat₁

theorem remove_path (h : At nvm w) (htidy : Tidy nvm) :
    wp (vaultRemove sealer key) (fun _ => Left sealer key nvm)
      (fun _ => Left sealer key nvm) (Left sealer key nvm) w := by
  unfold vaultRemove
  refine (load_path h htidy).bind ?_
  rintro table w₁ ⟨nvm₁, hat₁, hpath, rfl, hidle, hstage⟩
  refine wp_read hpath (find_read hat₁) ?_
  rintro ⟨slot, object⟩ w₂ hat₂ ⟨hobject, hmatch⟩
  dsimp only at hobject hmatch ⊢
  split
  · exact ⟨nvm₁, hat₂, hpath⟩
  · rename_i hflags
    obtain ⟨hkey, honce⟩ : isKey object.label = false ∧
        anySet object.label.flags vaultFlagWriteOnce = false := by
      simpa using hflags
    have hchangeable : Changeable nvm₁ key slot object := ⟨hobject, hmatch, hkey, honce⟩
    have hremove : ∀ {nvm' : Nvm}, Path sealer key nvm nvm' →
        nvm'.objects (slotId slot) = nvm₁.objects (slotId slot) →
        ((tableOf nvm').reserved = 0 ∨
          (tableOf nvm').reserved = deleteMarkerBase + slot.val + 1) → ∀ w',
        Either nvm' (withObject nvm' (slotId slot) none) w' →
        Left sealer key nvm w' := by
      rintro nvm' hpath' hsame hannounced w' (hat | hat)
      · exact ⟨nvm', hat, hpath'⟩
      · exact ⟨_, hat, hpath'.tail (.remove slot object (hchangeable.frame hsame) hannounced)⟩
    split
    · let marked : Table :=
        { tableOf nvm₁ with reserved := deleteMarkerBase + slot.val + 1 }
      let nvm₂ := withTable nvm₁ marked
      let nvm₃ := withObject nvm₂ (slotId slot) none
      have hcondemn : Write sealer key nvm₁ nvm₂ := .condemn slot object hstage hchangeable
      have hpath₂ : Path sealer key nvm nvm₂ := hpath.tail hcondemn
      have hpath₃ : Path sealer key nvm nvm₃ :=
        hpath₂.tail (.remove slot object (hchangeable.frame rfl) (.inr rfl))
      refine wp_write hpath hcondemn (tableStore_write hat₂ marked) fun w₃ hat₃ => ?_
      rw [wp_bind, wp_attempt]
      refine (VaultTampering.destroyChecked_wp hat₃ (slotId slot)).mono
        (fun _ w₄ hat₄ => ?_) (fun status w₄ h₄ => ?_) (hremove hpath₂ rfl (.inr rfl))
      · have hforget : Write sealer key nvm₃ (withTable nvm₃ ((tableOf nvm₁).close slot 0)) :=
          .forget slot (.inr rfl)
        have heither : ∀ w', Either nvm₃ (withTable nvm₃ ((tableOf nvm₁).close slot 0)) w' →
            Left sealer key nvm w' := by
          rintro w' (hat | hat)
          · exact ⟨nvm₃, hat, hpath₃⟩
          · exact ⟨_, hat, hpath₃.tail hforget⟩
        exact (tableStore_write hat₄ _).mono
          (fun _ w' hat => heither w' (.inr hat)) (fun _ => heither) heither
      · dsimp only
        rw [wp_bind]
        rcases h₄ with hat₄ | hat₄
        · exact (removeCancel_path hat₄ hpath₂ rfl).mono (fun _ _ h => h)
            (fun _ _ h => h) (fun _ h => h)
        · exact (removeCancel_path hat₄ hpath₃ rfl).mono (fun _ _ h => h)
            (fun _ _ h => h) (fun _ h => h)
    · rw [wp_bind, wp_attempt]
      exact (VaultTampering.destroyChecked_wp hat₂ (slotId slot)).mono
        (fun _ w' hat => hremove hpath rfl (.inl hidle) w' (.inr hat))
        (fun _ => hremove hpath rfl (.inl hidle)) (hremove hpath rfl (.inl hidle))

end Remove

section Runs

variable {sealer : Option Sealer} {key : Key} {nvm nvm' : Nvm} {w : World}

theorem Write.tidy (h : Write sealer key nvm nvm') (htidy : Tidy nvm) : Tidy nvm' := by
  -- a replacement under way is not a removal
  have hreplacing : ∀ {slot : Slot} {n : Nat}, n = slot.val + 1 → ¬ n > deleteMarkerBase := by
    intro slot n hn hgt
    have hslot := slot.isLt
    unfold deleteMarkerBase vaultIdCount at hgt
    omega
  have hidle : ∀ {n : Nat}, n = 0 → ¬ n > deleteMarkerBase :=
    fun hn hgt => absurd (hn ▸ hgt) (Nat.not_lt_zero _)
  intro hdeleting
  cases h with
  | unstage => exact objects_withObject_self
  | restore slot staged plain reserved => exact absurd hdeleting (hreplacing reserved)
  | clear | remove => exact (VaultTampering.stage_reslot _ _ _).trans (htidy hdeleting)
  | settle | forget | commit => exact absurd hdeleting (hidle rfl)
  | count slot counter global idle => exact absurd hdeleting (hidle idle)
  | mark => exact absurd hdeleting (hreplacing rfl)
  | stage slot old reserved => exact absurd hdeleting (hreplacing reserved)
  | place slot flags payload reserved => exact absurd hdeleting (reserved.elim hidle hreplacing)
  | condemn slot object stage => exact stage

/-- A property that every write keeps, whatever the key. -/
def Invariant (sealer : Option Sealer) (I : Nvm → Prop) : Prop :=
  ∀ key nvm nvm', I nvm → Write sealer key nvm nvm' → I nvm'

theorem Invariant.path {I : Nvm → Prop} (hI : Invariant sealer I)
    (h : I nvm) (hpath : Path sealer key nvm nvm') : I nvm' := by
  induction hpath with
  | refl => exact h
  | tail _ hwrite ih => exact hI key _ _ ih hwrite

theorem tidy_invariant : Invariant sealer Tidy :=
  fun _ _ _ htidy hwrite => hwrite.tidy htidy

theorem serve_path (htidy : Tidy w.nvm) {attempt : Attempt} (hbenign : attempt.Benign) :
    Path sealer attempt.request.key w.nvm (serve sealer w attempt).2.nvm := by
  obtain ⟨request, faults⟩ := attempt
  have hat : At w.nvm { w with faults } := ⟨rfl, hbenign⟩
  have hend : ∀ {p : VaultM Unit} {key : Key}, wp p
      (fun _ => Left sealer key w.nvm) (fun _ => Left sealer key w.nvm)
      (Left sealer key w.nvm) { w with faults } →
      Path sealer key w.nvm (p { w with faults }).2.nvm := by
    intro p key hp
    rcases wp_result hp with ⟨-, nvm', hat', hpath⟩ | ⟨-, nvm', hat', hpath⟩
    · exact hat'.nvm_eq ▸ hpath
    · exact hat'.nvm_eq ▸ hpath
  unfold serve
  cases request with
  | set =>
    refine hend ((set_path hat htidy).mono ?_ (fun _ _ h => h) (fun _ h => h))
    rintro _ w' ⟨nvm', hat', hpath, -⟩
    exact ⟨nvm', hat', hpath⟩
  | get key offset size =>
    refine hend (p := Request.run sealer (.get key offset size)) ?_
    unfold Request.run
    exact (get_path hat htidy offset size).bind fun _ _ h => h.left
  | getInfo key =>
    refine hend (p := Request.run sealer (.getInfo key)) ?_
    unfold Request.run
    exact (getInfo_path hat htidy).bind fun _ _ h => h.left
  | remove => exact hend (remove_path hat htidy)

theorem Invariant.serveAll {I : Nvm → Prop} (hI : Invariant sealer I) (htidy : Tidy w.nvm)
    (h : I w.nvm) (attempts : List Attempt) (hbenign : ∀ a ∈ attempts, a.Benign) :
    I (serveAll sealer w attempts).nvm := by
  induction attempts generalizing w with
  | nil => exact h
  | cons attempt later ih =>
    have hpath : Path sealer attempt.request.key w.nvm (serve sealer w attempt).2.nvm :=
      serve_path htidy (hbenign attempt List.mem_cons_self)
    exact ih (tidy_invariant.path htidy hpath) (hI.path h hpath)
      fun a ha => hbenign a (List.mem_cons_of_mem _ ha)

end Runs

end WolfTrust.VaultSteps
