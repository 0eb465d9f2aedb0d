import WolfTrust.VaultAtomicity

namespace WolfTrust.VaultPowerLoss

open Domain CrashLogic VaultStore VaultRecovery VaultAtomicity

inductive Request
  | set (key : Key) (flags : Word) (data : Bytes)
  | get (key : Key) (offset size : Nat)
  | getInfo (key : Key)
  | remove (key : Key)
  deriving DecidableEq, Repr

def Request.key : Request → Key
  | .set key _ _ => key
  | .get key _ _ => key
  | .getInfo key => key
  | .remove key => key

def Request.run (sealer : Option Sealer) : Request → VaultM Unit
  | .set key flags data => vaultSet sealer key flags data
  | .get key offset size => vaultGet sealer key offset size >>= fun _ => pure ()
  | .getInfo key => vaultGetInfo sealer key >>= fun _ => pure ()
  | .remove key => vaultRemove sealer key

structure Attempt where
  request : Request
  faults : List Fault

/-- A request on the store that the last one left. -/
def serve (sealer : Option Sealer) (w : World) (attempt : Attempt) :
    Outcome PsaStatus Unit × World :=
  attempt.request.run sealer { w with faults := attempt.faults }

def serveAll (sealer : Option Sealer) (w : World) (attempts : List Attempt) : World :=
  attempts.foldl (fun w attempt => (serve sealer w attempt).2) w

section Runs

variable {w : World} {sealer : Option Sealer}

def Attempt.Benign (attempt : Attempt) : Prop :=
  ∀ fault ∈ attempt.faults, Fault.Benign fault

def succeeded {α : Type} : Outcome PsaStatus α → Bool
  | .done _ => true
  | _ => false

theorem wp_result {p : VaultM Unit} {Q : World → Prop} {L : World → Prop}
    (h : wp p (fun _ => Q) (fun _ => L) L w) :
    succeeded (p w).1 = true ∧ Q (p w).2 ∨ succeeded (p w).1 = false ∧ L (p w).2 := by
  unfold wp at h
  rcases hp : p w with ⟨_ | _ | _, w'⟩ <;> rw [hp] at h
  · exact .inl ⟨rfl, h⟩
  · exact .inr ⟨rfl, h⟩
  · exact .inr ⟨rfl, h⟩

/-- What a get answers on a store when no fault strikes. -/
def readBack (sealer : Option Sealer) (nvm : Nvm) (key : Key)
    (offset size : Nat) : Outcome PsaStatus Bytes :=
  (vaultGet sealer key offset size { nvm, faults := [], sealLog := [] }).1

end Runs

section Sample

/-- A tag that depends on the flags of the label and on the counter. -/
def sampleTag (label : Label) (counter : Counter) : Bytes :=
  List.replicate 14 0 ++ [UInt8.ofNat (label.flags.toNat / 2 ^ 16), UInt8.ofNat counter.toNat]

theorem length_sampleTag (label : Label) (counter : Counter) :
    (sampleTag label counter).length = vaultSealTagLen := rfl

def sampleSealer : Sealer :=
  { sealBytes := fun label counter plain =>
      .ok (plain ++ sampleTag label counter)
    unsealBytes := fun label counter cipher =>
      if vaultSealTagLen ≤ cipher.length ∧ cipher.drop (cipher.length - vaultSealTagLen) =
            sampleTag label counter then
        .ok (cipher.take (cipher.length - vaultSealTagLen))
      else .error .invalidSignature }

theorem sampleSealer_roundTrip : RoundTrip (some sampleSealer) := by
  constructor
  · rintro s ⟨⟩ label counter plain cipher hseal
    cases hseal
    have hlength : (plain ++ sampleTag label counter).length - vaultSealTagLen = plain.length := by
      rw [List.length_append, length_sampleTag, Nat.add_sub_cancel]
    show (if _ then _ else _) = _
    rw [hlength, if_pos, List.take_left]
    refine ⟨?_, List.drop_left⟩
    rw [List.length_append, length_sampleTag]
    exact Nat.le_add_left _ _
  · rintro s ⟨⟩ label counter plain cipher hopen
    change (if _ then _ else _) = _ at hopen
    split at hopen
    · rename_i hvalid
      cases hopen
      rw [List.length_take]
      omega
    · cases hopen

def sampleKey : Key := { owner := 5, sub := 0, uid := 9 }

/-- An empty store whose counter has the given value. -/
def emptyVault (counter : Counter) : World :=
  { nvm := { objects := fun _ => none
             table := some { emptyTable with global := counter } }
    faults := [], sealLog := [] }

def powerLossAt (n : Nat) : List Fault :=
  List.replicate n noFault ++ [{ noFault with ending := .powerLoss }]

theorem powerLossAt_benign (n : Nat) : ∀ fault ∈ powerLossAt n, Fault.Benign fault := by
  intro fault hfault
  rcases List.mem_append.mp hfault with hquiet | hloss
  · rw [List.eq_of_mem_replicate hquiet]
    exact noFault_benign
  · rw [List.mem_singleton.mp hloss]
    refine ⟨fun object h => ?_, fun h => ?_, fun h => ?_⟩ <;> cases h

def firstSet : Attempt :=
  { request := .set sampleKey vaultFlagSealed [1, 2, 3], faults := [] }

end Sample

end WolfTrust.VaultPowerLoss
