import WolfTrust.VaultWriteOnce

namespace WolfTrust.VaultSeparation

open CrashLogic VaultStore VaultRecovery VaultAtomicity VaultPowerLoss VaultSteps VaultWriteOnce

/-- No change of an object of the key is under way. -/
structure AtRest (key : Key) (nvm : Nvm) : Prop where
  slots : ∀ slot object, Finds nvm key slot object → ¬ Pending nvm slot
  stage : ∀ (slot : Slot) staged, (tableOf nvm).reserved = slot.val + 1 →
    nvm.objects vaultStageId = some staged →
    ¬ vaultLabelMatch staged.label key = true

/-- The store holds of the key what it held at the start: the same objects, in
the same slots and under the same counters. -/
structure Spared (key : Key) (start nvm : Nvm) : Prop where
  finds : ∀ slot object, Finds nvm key slot object ↔ Finds start key slot object
  counter : ∀ slot object, Finds nvm key slot object →
    (tableOf nvm).slots slot = (tableOf start).slots slot
  rests : AtRest key nvm

section Writes

variable {sealer : Option Sealer} {key asked : Key} {start nvm nvm' : Nvm}
  {slot : Slot}

theorem Spared.refl (h : AtRest key nvm) : Spared key nvm nvm :=
  ⟨fun _ _ => Iff.rfl, fun _ _ _ => rfl, h⟩

theorem Spared.reslot {found : Option Object} (h : Spared key start nvm)
    (hold : ∀ object, ¬ Finds nvm key slot object)
    (hnew : ∀ object ∈ found, ¬ vaultLabelMatch object.label key = true) :
    Spared key start (withObject nvm (slotId slot) found) := by
  have hsame : ∀ other object, Finds (withObject nvm (slotId slot) found) key other object ↔
        Finds nvm key other object := by
    intro other object
    by_cases heq : other = slot
    · subst heq
      constructor
      · rintro ⟨hobject, hmatch⟩
        rw [objects_withObject_self] at hobject
        exact absurd hmatch (hnew object hobject)
      · exact fun hfinds => absurd hfinds (hold object)
    · unfold Finds
      rw [objects_withObject_of_ne fun hid => heq (slotId_injective hid)]
  refine ⟨fun other object => (hsame other object).trans (h.finds other object), ?_, ?_, ?_⟩
  · intro other object hfinds
    exact h.counter other object ((hsame other object).mp hfinds)
  · intro other object hfinds
    exact h.rests.slots other object ((hsame other object).mp hfinds)
  · intro other staged hreserved hstaged
    rw [objects_withObject_of_ne (slotId_ne_stage slot).symm] at hstaged
    exact h.rests.stage other staged hreserved hstaged

theorem Spared.restage {found : Option Object} (h : Spared key start nvm)
    (hnew : ∀ staged ∈ found, ¬ vaultLabelMatch staged.label key = true) :
    Spared key start (withObject nvm vaultStageId found) := by
  have hsame : ∀ other object, Finds (withObject nvm vaultStageId found) key other object ↔
        Finds nvm key other object := by
    intro other object
    unfold Finds
    rw [objects_withObject_of_ne (slotId_ne_stage other)]
  refine ⟨fun other object => (hsame other object).trans (h.finds other object), ?_, ?_, ?_⟩
  · intro other object hfinds
    exact h.counter other object ((hsame other object).mp hfinds)
  · intro other object hfinds
    exact h.rests.slots other object ((hsame other object).mp hfinds)
  · intro other staged _ hstaged
    rw [objects_withObject_self] at hstaged
    exact hnew staged hstaged

theorem Spared.retable {table : Table} (h : Spared key start nvm)
    (hstage : table.reserved = 0 ∨ nvm.objects vaultStageId = none)
    (hslots : ∀ other object, Finds nvm key other object →
      table.slots other = (tableOf nvm).slots other)
    (hpending : ∀ other object, Finds nvm key other object →
      ¬ Pending (withTable nvm table) other) :
    Spared key start (withTable nvm table) := by
  refine ⟨h.finds, fun other object hfinds => ?_, hpending, ?_⟩
  · rw [tableOf_withTable, hslots other object hfinds]
    exact h.counter other object hfinds
  · intro other staged hreserved hstaged
    rw [tableOf_withTable] at hreserved
    rcases hstage with hidle | hnone
    · omega
    · rw [objects_withTable, hnone] at hstaged
      cases hstaged

theorem not_finds_of_changeable {object : Object} (hne : asked ≠ key)
    (h : Changeable nvm asked slot object) (found : Object) : ¬ Finds nvm key slot found := by
  rintro ⟨hobject, hmatch⟩
  obtain rfl := Option.some.inj (h.object_eq.symm.trans hobject)
  exact hne (labelMatch_unique h.match_key hmatch)

theorem not_finds_of_writable (hne : asked ≠ key) (h : Writable nvm asked slot) (found : Object) :
    ¬ Finds nvm key slot found := by
  rcases h with ⟨object, hchangeable⟩ | ⟨hnone, -⟩
  · exact not_finds_of_changeable hne hchangeable found
  · rintro ⟨hobject, -⟩
    rw [hnone] at hobject
    cases hobject

theorem not_pending_named {table : Table} (hold : ∀ object, ¬ Finds nvm key slot object)
    (hnamed : table.reserved = slot.val + 1 ∨ table.reserved = deleteMarkerBase + slot.val + 1)
    (other : Slot) (object : Object) (hfinds : Finds nvm key other object) :
    ¬ Pending (withTable nvm table) other := by
  unfold Pending
  rw [tableOf_withTable]
  intro hpending
  have hbase : deleteMarkerBase ≥ 32 := by decide
  have heq : other = slot := Fin.ext (by omega)
  exact hold object (heq ▸ hfinds)

theorem slots_changed {slots : Slot → Counter} {counter : Counter}
    (hold : ∀ object, ¬ Finds nvm key slot object) (other : Slot)
    (object : Object) (hfinds : Finds nvm key other object) :
    Function.update slots slot counter other = slots other :=
  Function.update_of_ne (fun heq : other = slot => hold object (heq ▸ hfinds)) _ _

theorem Spared.write (h : Spared key start nvm) (hne : asked ≠ key)
    (hwrite : Write sealer asked nvm nvm') : Spared key start nvm' := by
  have hnamed : ∀ slot, Pending nvm slot → ∀ object, ¬ Finds nvm key slot object :=
    fun slot hpending object hfinds => h.rests.slots slot object hfinds hpending
  cases hwrite with
  | unstage => exact h.restage nofun
  | restore slot staged plain reserved stage =>
    refine h.reslot (hnamed slot (.inl reserved)) fun object hobject => ?_
    obtain rfl := Option.some.inj hobject
    exact h.rests.stage slot staged reserved stage
  | clear slot pending => exact h.reslot (hnamed slot pending) nofun
  | settle =>
    exact h.retable (.inl rfl) (fun _ _ _ => rfl) fun other _ _ => not_pending_of_idle rfl other
  | forget slot pending =>
    exact h.retable (.inl rfl) (slots_changed (hnamed slot pending))
      fun other _ _ => not_pending_of_idle rfl other
  | count slot counter global idle writable =>
    refine h.retable (.inl idle)
      (slots_changed (not_finds_of_writable hne writable)) fun other _ _ => ?_
    apply not_pending_of_idle
    exact idle
  | mark slot old global stage changeable =>
    exact h.retable (.inr stage) (fun _ _ _ => rfl)
      (not_pending_named (not_finds_of_changeable hne changeable) (.inl rfl))
  | stage slot old reserved changeable =>
    refine h.restage fun staged hstaged hmatch => ?_
    obtain rfl := Option.some.inj hstaged
    exact hne (labelMatch_unique changeable.match_key hmatch)
  | place slot flags payload reserved writable =>
    refine h.reslot (not_finds_of_writable hne writable) fun object hobject => ?_
    obtain rfl := Option.some.inj hobject
    exact fun hmatch => hne (labelMatch_unique (labelMatch_makeLabel asked flags) hmatch)
  | commit slot counter reserved =>
    exact h.retable (.inl rfl) (slots_changed (hnamed slot (.inl reserved)))
      fun other _ _ => not_pending_of_idle rfl other
  | condemn slot object stage changeable =>
    exact h.retable (.inr stage) (fun _ _ _ => rfl)
      (not_pending_named (not_finds_of_changeable hne changeable) (.inr rfl))
  | remove slot object changeable => exact h.reslot (not_finds_of_changeable hne changeable) nofun

theorem Spared.path (h : Spared key start nvm) (hne : asked ≠ key)
    (hpath : Path sealer asked nvm nvm') : Spared key start nvm' := by
  induction hpath with
  | refl => exact h
  | tail _ hwrite ih => exact ih.write hne hwrite

end Writes

def elsewhere (key : Key) : Key := { key with uid := key.uid + 1 }

theorem elsewhere_ne (key : Key) : elsewhere key ≠ key := by
  intro heq
  have huid : key.uid + 1 = key.uid := congrArg Key.uid heq
  bv_omega

section Runs

variable {sealer : Option Sealer} {key : Key} {start : Nvm} {w : World}

theorem serveAll_spared (attempts : List Attempt) (hbenign : ∀ a ∈ attempts, a.Benign)
    (hother : ∀ a ∈ attempts, a.request.key ≠ key) (htidy : Tidy w.nvm)
    (h : Spared key start w.nvm) : Spared key start (serveAll sealer w attempts).nvm := by
  induction attempts generalizing w with
  | nil => exact h
  | cons attempt attempts ih =>
    have hpath : Path sealer attempt.request.key w.nvm (serve sealer w attempt).2.nvm :=
      serve_path htidy (hbenign attempt List.mem_cons_self)
    exact ih (fun a ha => hbenign a (List.mem_cons_of_mem _ ha))
      (fun a ha => hother a (List.mem_cons_of_mem _ ha))
      (tidy_invariant.path htidy hpath)
      (h.path (hother attempt List.mem_cons_self) hpath)

/-- Requests leave what the store holds of other keys. Whatever faults strike
them, after requests that are not about a key of which no change is under way,
the store holds the objects of that key that it held, label, data and flags, in
the slots where they were and under the same counters, and no others. -/
theorem other_keys_spared (sealer : Option Sealer) (w : World) (key : Key) (htidy : Tidy w.nvm)
    (hrest : AtRest key w.nvm) (attempts : List Attempt) (hbenign : ∀ a ∈ attempts, a.Benign)
    (hother : ∀ a ∈ attempts, a.request.key ≠ key) :
    let after := serveAll sealer w attempts
    ∀ slot object, (Finds after.nvm key slot object ↔ Finds w.nvm key slot object) ∧
      (Finds w.nvm key slot object →
        (tableOf after.nvm).slots slot = (tableOf w.nvm).slots slot) := by
  intro after slot object
  have hspared : Spared key w.nvm after.nvm :=
    serveAll_spared attempts hbenign hother htidy (.refl hrest)
  have hfinds := hspared.finds slot object
  exact ⟨hfinds, fun hfound => hspared.counter slot object (hfinds.mpr hfound)⟩

/-- The store never holds two objects of one key, whatever is requested and
wherever power is lost. -/
theorem one_object_per_key (sealer : Option Sealer) (w : World) (htidy : Tidy w.nvm)
    (honce : ∀ key, Once key none w.nvm) (attempts : List Attempt)
    (hbenign : ∀ a ∈ attempts, a.Benign) (key : Key) (slot other : Slot) (object found : Object)
    (hobject : Finds (serveAll sealer w attempts).nvm key slot object)
    (hfound : Finds (serveAll sealer w attempts).nvm key other found) :
    slot = other ∧ object = found := by
  have honce' : Once key none (serveAll sealer w attempts).nvm :=
    once_invariant.serveAll htidy (honce key) attempts hbenign
  obtain rfl := honce'.lone slot other object found hobject hfound
  exact ⟨rfl, Option.some.inj (hobject.1.symm.trans hfound.1)⟩

end Runs

section Sample

/-- A sealed object; then another key is set, replaced and removed, and power is
lost in the replacement. -/
def sampleAttempts : List Attempt :=
  [{ request := .set { sampleKey with uid := 10 } vaultFlagSealed [7]
     faults := [] },
   { request := .set { sampleKey with uid := 10 } vaultFlagSealed [8, 8]
     faults := powerLossAt 10 },
   { request := .remove { sampleKey with uid := 10 }, faults := [] }]

def sampleStore : World := (serve (some sampleSealer) (emptyVault 0) firstSet).2

theorem sampleStore_idle : (tableOf sampleStore.nvm).reserved = 0 := by
  decide +kernel

theorem sampleAttempts_other : ∀ a ∈ sampleAttempts, a.Benign ∧ a.request.key ≠ sampleKey := by
  intro a ha
  simp only [sampleAttempts, List.mem_cons, List.not_mem_nil, or_false] at ha
  rcases ha with rfl | rfl | rfl
  · exact ⟨nofun, by decide⟩
  · exact ⟨powerLossAt_benign 10, by decide⟩
  · exact ⟨nofun, by decide⟩

theorem other_keys_spared_sample :
    (serve (some sampleSealer) (emptyVault 0) firstSet).1 = .done () ∧
      ∀ slot object, Finds (serveAll (some sampleSealer) sampleStore
        sampleAttempts).nvm sampleKey slot object ↔
          Finds sampleStore.nvm sampleKey slot object := by
  have hidle := sampleStore_idle
  have hrest : AtRest sampleKey sampleStore.nvm := by
    refine ⟨fun slot object _ hpending => ?_, fun slot staged hreserved => ?_⟩
    · unfold Pending at hpending
      omega
    · omega
  have htidy : Tidy sampleStore.nvm := fun hmarked => by omega
  refine ⟨by decide +kernel, fun slot object => ?_⟩
  exact (other_keys_spared (some sampleSealer) sampleStore sampleKey htidy hrest
    sampleAttempts (fun a ha => (sampleAttempts_other a ha).1)
    (fun a ha => (sampleAttempts_other a ha).2) slot object).1

theorem one_object_per_key_sample :
    let after := serveAll (some sampleSealer) (emptyVault 0) (firstSet :: sampleAttempts)
    (after.nvm.objects (slotId 0)).isSome ∧ ∀ other found,
      Finds after.nvm sampleKey other found → 0 = other := by
  intro after
  have hobject : ∃ object, Finds after.nvm sampleKey 0 object :=
    VaultTampering.names_iff.mp (by decide +kernel)
  obtain ⟨object, hobject⟩ := hobject
  refine ⟨hobject.1 ▸ rfl, fun other found hfound => ?_⟩
  refine (one_object_per_key (some sampleSealer) (emptyVault 0)
    (emptyVault_once sampleKey 0).1 (fun key => (emptyVault_once key 0).2)
    (firstSet :: sampleAttempts) ?_ sampleKey 0 other object found hobject
    hfound).1
  intro a ha
  rcases List.mem_cons.mp ha with rfl | ha
  · exact fun _ h => by cases h
  · exact (sampleAttempts_other a ha).1

end Sample

end WolfTrust.VaultSeparation
