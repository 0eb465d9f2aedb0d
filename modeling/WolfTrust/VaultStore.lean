import WolfTrust.CrashLogic
import WolfTrust.Domain
import Mathlib.Logic.Function.Basic

/-!
The sealed vault (`src/services/wolfhsm/wt_hsm_vault.c`): storage objects kept
as NVM objects, the counter table, and the recovery that every request starts
with. The NVM library is outside the repository; its primitives consult a
schedule of faults, so that a request may fail or lose power at each of them.
-/

namespace WolfTrust.VaultStore

open Domain CrashLogic

abbrev Counter := BitVec 64
abbrev Bytes := List UInt8

abbrev Slot := Fin 32

def vaultIdBase : Nat := 0x100
def vaultIdCount : Nat := 32
def vaultStageId : Nat := 0x123
def deleteMarkerBase : Nat := vaultIdCount

def vaultLabelMagic : Word := 0x31565457
def vaultTableMagic : Word := 0x43565457

def vaultFlagWriteOnce : Word := 0x1
def vaultFlagNoConfidentiality : Word := 0x2
def vaultFlagNoReplay : Word := 0x4
def vaultFlagSealed : Word := 0x10000
def vaultFlagKey : Word := 0x20000

def vaultFlagMask : Word :=
  vaultFlagWriteOnce ||| vaultFlagNoConfidentiality ||| vaultFlagNoReplay ||| vaultFlagSealed

def nvmAccessAny : Nat := 0xFFFF

def vaultObjectMax : Nat := 1024
def vaultSealTagLen : Nat := 16
def sizeofTable : Nat := 272

inductive PsaStatus
  | notSupported
  | invalidArgument
  | notPermitted
  | doesNotExist
  | insufficientStorage
  | storageFailure
  | invalidSignature
  | genericError
  deriving DecidableEq, Repr

inductive NvmError
  | access
  | nospace
  | notfound
  | other
  deriving DecidableEq, Repr

def vaultMapErr : NvmError → PsaStatus
  | .access => .notPermitted
  | .nospace => .insufficientStorage
  | .notfound => .doesNotExist
  | .other => .storageFailure

/-- The 24 bytes of a label, read as the vault lays them out. -/
structure Label where
  magic : Word
  owner : Word
  uid : BitVec 64
  flags : Word
  sub : Word
  deriving DecidableEq, Repr

structure Key where
  owner : Word
  sub : Word
  uid : BitVec 64
  deriving DecidableEq, Repr

/-- The NVM flags of an object that the library enforces or the vault reads. -/
structure NvmFlags where
  nonmodifiable : Bool
  nondestroyable : Bool
  nonexportable : Bool
  sensitive : Bool
  deriving DecidableEq, Repr

/-- A stored object; the length in its metadata is that of its data. -/
structure Object where
  access : Nat
  flags : NvmFlags
  label : Label
  data : Bytes
  deriving DecidableEq, Repr

structure Table where
  magic : Word
  reserved : Nat
  global : Counter
  slots : Slot → Counter

/-- The objects by id, and the counter table, which has an id of its own. -/
structure Nvm where
  objects : Nat → Option Object
  table : Option Table

structure Available where
  size : Nat
  objects : Nat
  reclaimSize : Nat
  reclaimObjects : Nat
  deriving DecidableEq, Repr

inductive Ending
  | ok
  | error (code : NvmError)
  | powerLoss
  deriving DecidableEq, Repr

/-- What a write that did not end well left under its id. -/
inductive Remains
  | unchanged
  | written
  | garbled (object : Option Object)
  deriving DecidableEq, Repr

/-- What happens at one primitive: how it ends, what an interrupted write
leaves, and the room the library would report. -/
structure Fault where
  ending : Ending
  remains : Remains
  room : Available
  deriving DecidableEq, Repr

def ample : Available :=
  { size := 0x10000, objects := 64, reclaimSize := 0, reclaimObjects := 0 }

def noFault : Fault := { ending := .ok, remains := .unchanged, room := ample }

structure SealRecord where
  label : Label
  counter : Counter
  plain : Bytes
  deriving DecidableEq, Repr

/-- The durable state, the faults to come (none after the last) and every call
of the sealer so far, newest first, which no code reads. -/
structure World where
  nvm : Nvm
  faults : List Fault
  sealLog : List SealRecord

abbrev VaultM := Prog PsaStatus World

def World.fault (w : World) : Fault := w.faults.headD noFault

def World.next (w : World) : World := { w with faults := w.faults.tail }

def World.setObject (w : World) (id : Nat) (object : Option Object) : World :=
  { w with nvm :=
      { w.nvm with objects := Function.update w.nvm.objects id object } }

def World.setTable (w : World) (table : Table) : World :=
  { w with nvm := { w.nvm with table := some table } }

section Primitives

/-- A primitive that only reads; its own answer if no fault strikes. -/
def nvmQuery {α : Type} (answer : World → Except NvmError α) : Prog NvmError World α := fun w =>
  match w.fault.ending with
  | .powerLoss => (.crashed, w.next)
  | .error code => (.failed code, w.next)
  | .ok =>
    match answer w with
    | .ok value => (.done value, w.next)
    | .error code => (.failed code, w.next)

/-- A primitive that changes the object under one id. -/
def nvmChange (id : Nat) (object : Option Object) : Prog NvmError World Unit :=
  fun w =>
    let left :=
      match w.fault.remains with
      | .unchanged => w.next
      | .written => w.next.setObject id object
      | .garbled found => w.next.setObject id found
    match w.fault.ending with
    | .powerLoss => (.crashed, left)
    | .error code => (.failed code, left)
    | .ok => (.done (), w.next.setObject id object)

def nvmGetMetadata (id : Nat) : Prog NvmError World Object :=
  nvmQuery fun w => (w.nvm.objects id).elim (.error .notfound) .ok

/-- `wh_Nvm_ReadChecked` refuses what may not be exported. -/
def nvmReadChecked (id offset length : Nat) : Prog NvmError World Bytes :=
  nvmQuery fun w =>
    match w.nvm.objects id with
    | none => .error .notfound
    | some object =>
      if object.flags.nonexportable then .error .access
      else .ok ((object.data.drop offset).take length)

def nvmGetAvailable : Prog NvmError World Available :=
  nvmQuery fun w => .ok w.fault.room

def nvmAddObject (id : Nat) (object : Object) : Prog NvmError World Unit :=
  nvmChange id (some object)

/-- The policy of a checked operation: the objects found under the ids allow
it. -/
def nvmPolicy (allowed : Object → Bool) (ids : List Nat) : Prog NvmError World Unit := fun w =>
  if ids.all fun id => (w.nvm.objects id).all allowed then (.done (), w)
  else (.failed .access, w)

def nvmAddObjectChecked (id : Nat) (object : Object) : Prog NvmError World Unit := do
  nvmPolicy (fun found => !found.flags.nonmodifiable) [id]
  nvmAddObject id object

def nvmDestroyObject (id : Nat) : Prog NvmError World Unit := nvmChange id none

def destroyable (found : Object) : Bool :=
  !found.flags.nonmodifiable && !found.flags.nondestroyable

def nvmDestroyObjectChecked (id : Nat) : Prog NvmError World Unit := do
  nvmPolicy destroyable [id]
  nvmDestroyObject id

/-- The compaction that a destroy of no objects is: it moves nothing out of the
store. -/
def nvmCompact : Prog NvmError World Unit := nvmQuery fun _ => .ok ()

def storedTable (w : World) : Except NvmError Table :=
  w.nvm.table.elim (.error .notfound) .ok

/-- The table is not lost once it is stored: a fault does not hide it. -/
def nvmReadTable : Prog NvmError World Table := fun w =>
  match nvmQuery storedTable w with
  | (.failed .notfound, w') =>
    (.failed (if w.nvm.table.isSome then .other else .notfound), w')
  | result => result

/-- An interrupted store leaves the old table or the new one. -/
def nvmAddTable (table : Table) : Prog NvmError World Unit := fun w =>
  let left :=
    match w.fault.remains with
    | .written => w.next.setTable table
    | _ => w.next
  match w.fault.ending with
  | .powerLoss => (.crashed, left)
  | .error code => (.failed code, left)
  | .ok => (.done (), w.next.setTable table)

/-- The statuses of the library as those of the vault. -/
def mapped {α : Type} (p : Prog NvmError World α) : VaultM α := fun w =>
  match p w with
  | (.done value, w') => (.done value, w')
  | (.failed code, w') => (.failed (vaultMapErr code), w')
  | (.crashed, w') => (.crashed, w')

/-- For calls of which only success is told from failure. -/
def orStorageFailure {α : Type} (p : Prog NvmError World α) : VaultM α :=
  fun w =>
    match p w with
    | (.done value, w') => (.done value, w')
    | (.failed _, w') => (.failed .storageFailure, w')
    | (.crashed, w') => (.crashed, w')

/-- The code of a call that the vault looks at itself. -/
def tried {α : Type} (p : Prog NvmError World α) : VaultM (Except NvmError α) := fun w =>
  match p w with
  | (.done value, w') => (.done (.ok value), w')
  | (.failed code, w') => (.done (.error code), w')
  | (.crashed, w') => (.crashed, w')

section Rules

variable {α : Type} {p : Prog NvmError World α} {w : World}
  {Q : α → World → Prop} {E : PsaStatus → World → Prop} {C : World → Prop}

theorem wp_mapped : wp (mapped p) Q E C w ↔ wp p Q (fun code => E (vaultMapErr code)) C w := by
  unfold wp mapped
  rcases p w with ⟨_ | _ | _, w'⟩ <;> exact Iff.rfl

theorem wp_orStorageFailure : wp (orStorageFailure p) Q E C w ↔
      wp p Q (fun _ => E .storageFailure) C w := by
  unfold wp orStorageFailure
  rcases p w with ⟨_ | _ | _, w'⟩ <;> exact Iff.rfl

theorem wp_tried {R : Except NvmError α → World → Prop} : wp (tried p) R E C w ↔
      wp p (fun value => R (.ok value)) (fun code => R (.error code)) C w := by
  unfold wp tried
  rcases p w with ⟨_ | _ | _, w'⟩ <;> exact Iff.rfl

end Rules

end Primitives

/-- The sealer the vault is given. The label is authenticated with the data and
the counter is the nonce. -/
structure Sealer where
  sealBytes : Label → Counter → Bytes → Except PsaStatus Bytes
  unsealBytes : Label → Counter → Bytes → Except PsaStatus Bytes

def slotId (slot : Slot) : Nat := vaultIdBase + slot.val

def vaultMakeLabel (key : Key) (flags : Word) : Label :=
  { magic := vaultLabelMagic, owner := key.owner, uid := key.uid, flags
    sub := key.sub }

def vaultLabelMatch (label : Label) (key : Key) : Bool :=
  label.magic == vaultLabelMagic && label.owner == key.owner &&
    label.sub == key.sub && label.uid == key.uid

def isSealed (label : Label) : Bool := anySet label.flags vaultFlagSealed

def isKey (label : Label) : Bool := anySet label.flags vaultFlagKey

/-- The flash is written in units of eight bytes. -/
def vaultStorageSize (length : Nat) : Nat := (length + 7) / 8 * 8

def vaultReserve (needSize needObjects : Nat) : VaultM Unit := do
  let room ← mapped nvmGetAvailable
  if room.size < needSize ∨ room.objects < needObjects then
    if (room.size + room.reclaimSize) % 2 ^ 32 ≥ needSize ∧
        room.objects + room.reclaimObjects ≥ needObjects then
      mapped nvmCompact
    else fail .insufficientStorage
  else pure ()

def vaultTableStore (table : Table) : VaultM Unit := do
  vaultReserve (vaultStorageSize sizeofTable) 1
  orStorageFailure (nvmAddTable table)

def vaultDestroyStage : VaultM Unit := do
  match ← tried (nvmGetMetadata vaultStageId) with
  | .error .notfound => pure ()
  | .error _ => fail .storageFailure
  | .ok _ => mapped (nvmDestroyObject vaultStageId)

section Vault

variable (sealer : Option Sealer)

/-- The stored bytes of a sealed object and what they hold. -/
def vaultReadSealed (id : Nat) (found : Object) (counter : Counter) : VaultM (Bytes × Bytes) :=
  match sealer with
  | none => fail .notSupported
  | some s =>
    if counter = 0 ∨ isSealed found.label = false ∨ found.data.length < vaultSealTagLen ∨
        found.data.length > vaultObjectMax + vaultSealTagLen then
      fail .invalidSignature
    else do
      let cipher ← mapped (nvmReadChecked id 0 found.data.length)
      match s.unsealBytes found.label counter cipher with
      | .error status => fail status
      | .ok plain => pure (cipher, plain)

/-- The statuses that say that nothing valid is stored. -/
def unreadable (status : PsaStatus) : Bool :=
  status == .invalidSignature || status == .notPermitted || status == .doesNotExist

def Table.close (table : Table) (slot : Slot) (counter : Counter) : Table :=
  { table with
    reserved := 0, slots := Function.update table.slots slot counter }

/-- Whether the live object is authentic under the committed counter. -/
def liveStatus (table : Table) (slot : Slot) (found : Except NvmError Object) :
    VaultM (Except PsaStatus (Bytes × Bytes)) :=
  match found with
  | .ok object =>
    attempt (vaultReadSealed sealer (slotId slot) object (table.slots slot))
  | .error .notfound => pure (.error .doesNotExist)
  | .error _ => fail .storageFailure

/-- An authentic object stays; any other is an uncommitted replacement and is
destroyed. -/
def liveSettled (table : Table) (slot : Slot) (found : Except NvmError Object)
    (status : Except PsaStatus (Bytes × Bytes)) : VaultM Table :=
  match status with
  | .ok _ => pure { table with reserved := 0 }
  | .error status =>
    if unreadable status then
      match found with
      | .ok _ => do
          mapped (nvmDestroyObject (slotId slot))
          pure (table.close slot 0)
      | .error _ => pure (table.close slot 0)
    else fail status

/-- No valid object is staged: the live one decides. -/
def vaultRecoverLive (table : Table) : VaultM Table := do
  let slot : Slot := Fin.ofNat 32 (table.reserved - 1)
  let found ← tried (nvmGetMetadata (slotId slot))
  let status ← liveStatus sealer table slot found
  let settled ← liveSettled table slot found status
  vaultTableStore settled
  vaultDestroyStage
  pure settled

def reusedByKey (object : Object) : Bool :=
  object.label.magic == vaultLabelMagic && isKey object.label &&
    !isSealed object.label && object.flags.nonexportable

def vaultRecoverDelete (table : Table) : VaultM Table := do
  let slot : Slot := Fin.ofNat 32 (table.reserved - deleteMarkerBase - 1)
  match ← attempt (mapped (nvmGetMetadata (slotId slot))) with
  | .ok object =>
    if reusedByKey object then pure ()
    else
      match ← attempt (mapped (nvmDestroyObjectChecked (slotId slot))) with
      | .ok _ => pure ()
      | .error .doesNotExist => pure ()
      | .error status => fail status
  | .error .doesNotExist => pure ()
  | .error status => fail status
  vaultTableStore (table.close slot 0)
  pure (table.close slot 0)

def sensitiveFlags : NvmFlags :=
  { nonmodifiable := false, nondestroyable := false, nonexportable := false
    sensitive := true }

/-- The staged object goes back in its place. -/
def vaultRestore (table : Table) (slot : Slot) (staged : Object)
    (cipher : Bytes) : VaultM Table := do
  vaultReserve (vaultStorageSize staged.data.length + vaultStorageSize sizeofTable) 2
  mapped (nvmAddObject (slotId slot)
    { staged with flags := sensitiveFlags, data := cipher })
  vaultTableStore { table with reserved := 0 }
  vaultDestroyStage
  pure { table with reserved := 0 }

def vaultRecover (table : Table) : VaultM Table :=
  if table.reserved > deleteMarkerBase then vaultRecoverDelete table
  else if table.reserved = 0 then do
    vaultDestroyStage
    pure table
  else do
    let slot : Slot := Fin.ofNat 32 (table.reserved - 1)
    let staged ← attempt do
      let object ← mapped (nvmGetMetadata vaultStageId)
      let read ← vaultReadSealed sealer vaultStageId object (table.slots slot)
      pure (object, read.1)
    match staged with
    | .ok (object, cipher) => vaultRestore table slot object cipher
    | .error status =>
      if unreadable status then vaultRecoverLive sealer table
      else fail status

def emptyTable : Table :=
  { magic := vaultTableMagic, reserved := 0, global := 0, slots := fun _ => 0 }

def vaultTableLoad : VaultM Table := do
  match ← tried nvmReadTable with
  | .error .notfound => vaultRecover sealer emptyTable
  | .error _ => fail .storageFailure
  | .ok table =>
    if table.magic ≠ vaultTableMagic ∨ table.reserved > deleteMarkerBase + vaultIdCount then
      fail .storageFailure
    else vaultRecover sealer table

end Vault

/-- The object of a key, if one is found, and the lowest free slot passed on
the way. -/
structure Lookup where
  found : Option (Slot × Object)
  free : Option Slot

def vaultLookupFrom (key : Key) : List Slot → Option Slot → VaultM Lookup
  | [], free => pure { found := none, free }
  | slot :: later, free => do
      match ← tried (nvmGetMetadata (slotId slot)) with
      | .error .notfound => vaultLookupFrom key later (free.or (some slot))
      | .error _ => fail .storageFailure
      | .ok object =>
        if vaultLabelMatch object.label key then
          pure { found := some (slot, object), free }
        else vaultLookupFrom key later free

def vaultLookup (key : Key) : VaultM Lookup :=
  vaultLookupFrom key (List.finRange 32) none

/-- A get goes no further without an object. -/
def vaultFind (key : Key) : VaultM (Slot × Object) := do
  match (← vaultLookup key).found with
  | none => fail .doesNotExist
  | some found => pure found

def objectFlags (flags : Word) : NvmFlags :=
  { sensitiveFlags with
    nonmodifiable := anySet flags vaultFlagWriteOnce
    nondestroyable := anySet flags vaultFlagWriteOnce }

def sealerCall (s : Sealer) (label : Label) (counter : Counter)
    (plain : Bytes) : VaultM Bytes := fun w =>
  let w' := { w with sealLog := ⟨label, counter, plain⟩ :: w.sealLog }
  match s.sealBytes label counter plain with
  | .error status => (.failed status, w')
  | .ok cipher => (.done cipher, w')

theorem wp_sealerCall {s : Sealer} {label : Label} {counter : Counter}
    {plain : Bytes} {w : World} {Q : Bytes → World → Prop}
    {E : PsaStatus → World → Prop} {C : World → Prop}
    (hok : ∀ cipher, s.sealBytes label counter plain = .ok cipher →
      Q cipher { w with sealLog := ⟨label, counter, plain⟩ :: w.sealLog })
    (herror : ∀ status, s.sealBytes label counter plain = .error status →
      E status { w with sealLog := ⟨label, counter, plain⟩ :: w.sealLog }) :
    wp (sealerCall s label counter plain) Q E C w := by
  unfold wp sealerCall
  dsimp only
  cases hseal : s.sealBytes label counter plain with
  | error status => exact herror status hseal
  | ok cipher => exact hok cipher hseal

section Requests

variable (sealer : Option Sealer)

/-- Where a set writes: the object it finds must not be a key or write-once,
and otherwise there must be a free slot. -/
def setTarget (looked : Lookup) : VaultM (Slot × Option Object) :=
  match looked.found with
  | some (slot, object) =>
    if isKey object.label || anySet object.label.flags vaultFlagWriteOnce then
      fail .notPermitted
    else pure (slot, some object)
  | none =>
    match looked.free with
    | none => fail .insufficientStorage
    | some slot => pure (slot, none)

/-- The old object with its stored bytes, if it is sealed and authentic; it is
then staged while it is replaced. -/
def setReplaced (table : Table) (slot : Slot) (old : Option Object) :
    VaultM (Option (Object × Bytes)) :=
  match old with
  | none => pure none
  | some object =>
    if isSealed object.label then do
      match ← attempt (vaultReadSealed sealer (slotId slot) object (table.slots slot)) with
      | .ok read => pure (some (object, read.1))
      | .error .invalidSignature => pure none
      | .error status => fail status
    else pure none

def setReserve (table : Table) (slot : Slot) (replaced : Option (Object × Bytes))
    (sealing : Bool) (storeLen : Nat) : VaultM Unit :=
  let need := vaultStorageSize storeLen + vaultStorageSize sizeofTable
  match replaced with
  | some (object, _) =>
    vaultReserve (need + 2 * vaultStorageSize object.data.length + vaultStorageSize sizeofTable) 4
  | none =>
    vaultReserve need (if sealing || table.slots slot != 0 then 2 else 1)

def setPayload (sealing : Bool) (label : Label) (counter : Counter) (data : Bytes) : VaultM Bytes :=
  if sealing then
    match sealer with
    | none => fail .notSupported
    | some s => sealerCall s label counter data
  else pure data

/-- Replacing a sealed object: the old one is staged under a table that names
its slot, and the new table is what commits the new one. -/
def setReplace (table : Table) (slot : Slot) (old : Object) (oldCipher : Bytes) (label : Label)
    (counter : Counter) (sealing : Bool) (flags : Word) (data : Bytes) : VaultM Unit := do
  vaultTableStore { table with reserved := slot.val + 1 }
  mapped (nvmAddObject vaultStageId
    { old with flags := sensitiveFlags, data := oldCipher })
  let payload ← setPayload sealer sealing label counter data
  mapped (nvmAddObjectChecked (slotId slot)
    { access := nvmAccessAny, flags := objectFlags flags, label, data := payload })
  vaultTableStore (table.close slot counter)
  vaultDestroyStage

/-- Any other set: a counter that changes is stored before the object. -/
def setFresh (table : Table) (slot : Slot) (label : Label) (counter : Counter)
    (sealing : Bool) (flags : Word) (data : Bytes) : VaultM Unit := do
  if sealing || table.slots slot != 0 then
    vaultTableStore
      { table with slots := Function.update table.slots slot counter }
  else pure ()
  let payload ← setPayload sealer sealing label counter data
  mapped (nvmAddObjectChecked (slotId slot)
    { access := nvmAccessAny, flags := objectFlags flags, label, data := payload })

def vaultSet (key : Key) (flags : Word) (data : Bytes) : VaultM Unit :=
  let sealing := anySet flags vaultFlagSealed
  if data.length > vaultObjectMax ∨ flags &&& ~~~ vaultFlagMask ≠ 0 then
    fail .invalidArgument
  else if sealing && sealer.isNone then fail .notSupported
  else do
    let table ← vaultTableLoad sealer
    let target ← setTarget (← vaultLookup key)
    let slot := target.1
    let replaced ← setReplaced sealer table slot target.2
    setReserve table slot replaced sealing (data.length + if sealing then vaultSealTagLen else 0)
    let label := vaultMakeLabel key flags
    let counter : Counter := if sealing then table.global + 1 else 0
    let bumped : Table :=
      { table with
        global := if sealing then table.global + 1 else table.global }
    match replaced with
    | some (old, cipher) =>
      setReplace sealer bumped slot old cipher label counter sealing flags data
    | none => setFresh sealer bumped slot label counter sealing flags data

def vaultGet (key : Key) (offset size : Nat) : VaultM Bytes := do
  let table ← vaultTableLoad sealer
  let (slot, object) ← vaultFind key
  if isKey object.label then fail .notPermitted
  else if isSealed object.label then
    if table.slots slot = 0 then fail .invalidSignature
    else do
      let read ← vaultReadSealed sealer (slotId slot) object (table.slots slot)
      let plainLen := object.data.length - vaultSealTagLen
      if offset > plainLen then fail .invalidArgument
      else pure ((read.2.drop offset).take (min (plainLen - offset) size))
  else if offset > object.data.length then fail .invalidArgument
  else
    let n := min (object.data.length - offset) size
    if n > 0 then mapped (nvmReadChecked (slotId slot) offset n) else pure []

structure VaultInfo where
  size : Nat
  flags : Word
  deriving DecidableEq, Repr

def vaultGetInfo (key : Key) : VaultM VaultInfo := do
  let _ ← vaultTableLoad sealer
  let (_, object) ← vaultFind key
  if isSealed object.label then
    if object.data.length < vaultSealTagLen then fail .storageFailure
    else
      pure { size := object.data.length - vaultSealTagLen
             flags := object.label.flags }
  else pure { size := object.data.length, flags := object.label.flags }

/-- A sealed object that a failed removal left intact is not removed later. -/
def removeCancel (table : Table) (key : Key) (slot : Slot) : VaultM Unit := do
  match ← tried (nvmGetMetadata (slotId slot)) with
  | .error _ => pure ()
  | .ok object =>
    if vaultLabelMatch object.label key then
      match ← attempt (vaultReadSealed sealer (slotId slot) object (table.slots slot)) with
      | .error _ => pure ()
      | .ok _ =>
        match ← attempt (vaultTableStore { table with reserved := 0 }) with
        | .error _ => fail .storageFailure
        | .ok _ => pure ()
    else pure ()

def vaultRemove (key : Key) : VaultM Unit := do
  let table ← vaultTableLoad sealer
  let (slot, object) ← vaultFind key
  let wasSealed := isSealed object.label
  if isKey object.label || anySet object.label.flags vaultFlagWriteOnce then
    fail .notPermitted
  else do
    if wasSealed then
      vaultTableStore
        { table with reserved := deleteMarkerBase + slot.val + 1 }
    else pure ()
    match ← attempt (mapped (nvmDestroyObjectChecked (slotId slot))) with
    | .error status =>
      if wasSealed then removeCancel sealer table key slot else pure ()
      fail status
    | .ok _ =>
      if wasSealed then vaultTableStore (table.close slot 0) else pure ()

end Requests

end WolfTrust.VaultStore
