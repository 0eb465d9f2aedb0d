import WolfTrust.VaultRecovery
import Mathlib.Data.List.FinRange

namespace WolfTrust.VaultAtomicity

open Domain CrashLogic VaultStore VaultRecovery

def names (nvm : Nvm) (key : Key) (slot : Slot) : Bool :=
  (nvm.objects (slotId slot)).any fun object => vaultLabelMatch object.label key

section Lookup

variable {nvm : Nvm} {w : World} {key : Key}

/-- The loop of a lookup, started with a free slot: it finds the first slot of
the list that names the key, or none, and then a slot it reports free is so. -/
theorem lookupFrom_names (h : At nvm w) (slots : List Slot) (free : Option Slot)
    (hfree : ∀ slot ∈ free, nvm.objects (slotId slot) = none) :
    wp (vaultLookupFrom key slots free) (fun looked w' => At nvm w' ∧
        looked.found.map Prod.fst = slots.find? (names nvm key) ∧
        (∀ found ∈ looked.found, nvm.objects (slotId found.1) = some found.2) ∧
        ∀ slot ∈ looked.free, nvm.objects (slotId slot) = none)
      (fun status w' => Faulty status ∧ At nvm w') (At nvm) w := by
  induction slots generalizing w free with
  | nil => exact ⟨h, rfl, fun _ hfound => (by cases hfound), hfree⟩
  | cons slot later ih =>
    unfold vaultLookupFrom
    rw [wp_bind, wp_tried]
    refine (nvmGetMetadata_wp h (slotId slot)).mono ?_ ?_ (fun _ h => h)
    · rintro object w' ⟨hobject, hat⟩
      have hnames : names nvm key slot = vaultLabelMatch object.label key := by
        rw [names, hobject, Option.any_some]
      dsimp only
      split
      · rename_i hmatch
        refine ⟨hat, ?_, ?_, hfree⟩
        · rw [List.find?_cons_of_pos (hnames.trans hmatch)]
          rfl
        · intro found hfound
          cases hfound
          exact hobject
      · rename_i hmatch
        rw [List.find?_cons_of_neg (by rw [hnames]; exact hmatch)]
        exact ih hat free hfree
    · rintro code w' ⟨⟨hnone, rfl⟩ | rfl | rfl, hat⟩
      · have hnames : ¬ names nvm key slot = true := by
          rw [names, hnone]
          exact Bool.false_ne_true
        rw [List.find?_cons_of_neg hnames]
        refine ih hat _ fun other hother => ?_
        cases free with
        | none =>
          cases hother
          exact hnone
        | some => exact hfree other hother
      · exact ⟨.inr rfl, hat⟩
      · exact ⟨.inr rfl, hat⟩

theorem lookup_names (h : At nvm w) : wp (vaultLookup key) (fun looked w' => At nvm w' ∧
        looked.found.map Prod.fst = (List.finRange 32).find? (names nvm key) ∧
        (∀ found ∈ looked.found, nvm.objects (slotId found.1) = some found.2) ∧
        ∀ slot ∈ looked.free, nvm.objects (slotId slot) = none)
      (fun status w' => Faulty status ∧ At nvm w') (At nvm) w :=
  lookupFrom_names h _ none fun _ hslot => by cases hslot

end Lookup

/-- What the vault needs of the sealer: what it seals it opens again, and the
tag adds a fixed length. -/
structure RoundTrip (sealer : Option Sealer) : Prop where
  opens : ∀ s ∈ sealer, ∀ label counter plain cipher, s.sealBytes label counter plain = .ok cipher →
      s.unsealBytes label counter cipher = .ok plain
  length : ∀ s ∈ sealer, ∀ label counter plain cipher,
    s.unsealBytes label counter cipher = .ok plain → cipher.length = plain.length + vaultSealTagLen

section Parts

variable {nvm : Nvm} {w : World} {sealer : Option Sealer} {counter : Counter}

theorem setPayload_seals (h : At nvm w) (sealing : Bool) (label : Label) (data : Bytes) :
    wp (setPayload sealer sealing label counter data) (fun payload w' => At nvm w' ∧
        (sealing = false → payload = data) ∧
        (sealing = true → ∃ s ∈ sealer, s.sealBytes label counter data = .ok payload))
      (fun _ => At nvm) (At nvm) w := by
  unfold setPayload
  cases sealing with
  | false => exact ⟨h, fun _ => rfl, fun hfalse => (by cases hfalse)⟩
  | true =>
    rw [if_pos rfl]
    cases sealer with
    | none => exact h
    | some s =>
      have hat : ∀ log, At nvm { w with sealLog := log } :=
        fun _ => ⟨h.nvm_eq, h.benign⟩
      refine wp_sealerCall (fun cipher hseal => ?_) (fun _ _ => hat _)
      exact ⟨hat _, fun hfalse => (by cases hfalse), fun _ => ⟨s, rfl, hseal⟩⟩

theorem addObjectChecked_wp (h : At nvm w) (id : Nat) (object : Object) :
    wp (mapped (nvmAddObjectChecked id object)) (fun _ => At (withObject nvm id (some object)))
      (fun _ => Either nvm (withObject nvm id (some object)))
      (Either nvm (withObject nvm id (some object))) w := by
  rw [wp_mapped]
  unfold nvmAddObjectChecked
  rw [wp_bind]
  refine (nvmPolicy_wp h _ _).mono (fun _ w' hat => ?_) (fun _ _ h => .inl h.2) (fun _ h => .inl h)
  exact (nvmChange_wp hat id (some object)).mono (fun _ _ h => h) (fun _ _ h => h.2) (fun _ h => h)

def setObject (flags : Word) (label : Label) (payload : Bytes) : Object :=
  { access := nvmAccessAny, flags := objectFlags flags, label, data := payload }

end Parts

section Keys

variable {key key' : Key}

theorem labelMatch_unique {label : Label} (h : vaultLabelMatch label key = true)
    (h' : vaultLabelMatch label key' = true) : key = key' := by
  simp only [vaultLabelMatch, Bool.and_eq_true, beq_iff_eq] at h h'
  obtain ⟨⟨⟨-, howner⟩, hsub⟩, huid⟩ := h
  obtain ⟨⟨⟨-, howner'⟩, hsub'⟩, huid'⟩ := h'
  cases key
  cases key'
  simp_all

theorem labelMatch_makeLabel (key : Key) (flags : Word) :
    vaultLabelMatch (vaultMakeLabel key flags) key = true := by
  simp [vaultLabelMatch, vaultMakeLabel]

end Keys

end WolfTrust.VaultAtomicity
