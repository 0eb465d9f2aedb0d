import WolfTrust.LittleEndian
import WolfTrust.FfmRuntime
import WolfTrust.VaultStore

/-!
A storage request on its way to the store: the client's marshalling
(`src/client/psa_storage_client.c`), the ITS and PS front ends
(`src/services/storage_service.c`), the storage face of the vault service
(`wt_vault_service_serve` in `src/services/vault_service.c`) and the vault. Both
hand-overs are calls of the framework, which copies the vectors of a call within
one budget; whether it has a connection and a message for a call is left open.
-/

namespace WolfTrust.StorageService

open Domain CrashLogic LittleEndian
open WolfTrust.FfmRuntime (ffmTransferBytes psaMaxIovec)
open VaultStore

/-- The two front ends. -/
inductive Face
  | its
  | ps
  deriving DecidableEq, Repr

def Face.clientFlagsMask : Face → Word
  | .its => vaultFlagWriteOnce
  | .ps => vaultFlagWriteOnce ||| vaultFlagNoConfidentiality ||| vaultFlagNoReplay

/-- The flags that the front end adds to every set. -/
def Face.vaultFlags : Face → Word
  | .its => 0
  | .ps => vaultFlagSealed

def Face.caps : Face → Word := fun _ => 0

/-- The partitions around the vault; the manifest gives each an id of its own. -/
structure Platform where
  its : Word
  ps : Word
  keystoreClient : Word
  its_pos : 0 < its.toInt
  ps_pos : 0 < ps.toInt
  distinct : its ≠ ps
  its_ne_keystore : its ≠ keystoreClient
  ps_ne_keystore : ps ≠ keystoreClient

def Platform.partition (p : Platform) : Face → Word
  | .its => p.its
  | .ps => p.ps

inductive Reply
  | nothing
  | bytes (data : Bytes)
  | info (value : VaultInfo)
  | support (caps : Word)
  deriving DecidableEq, Repr

section Vault

inductive VaultOp
  | set
  | get
  | getInfo
  | remove
  deriving DecidableEq, Repr

structure VaultReq where
  uid : BitVec 64
  flags : Word
  offset : Word
  subOwner : Word
  deriving DecidableEq, Repr

def sizeofVaultReq : Nat := 24
def sizeofVaultInfo : Nat := 16

/-- A message of the vault service, with its second input vector. -/
structure VaultMsg where
  clientId : Word
  op : VaultOp
  req : VaultReq
  data : Bytes
  outSize0 : Nat
  deriving DecidableEq, Repr

def VaultMsg.key (msg : VaultMsg) : Key :=
  { owner := msg.clientId, sub := msg.req.subOwner, uid := msg.req.uid }

/-- A payload is written to an output vector that has room for it. -/
def writeReply (outSize : Nat) (data : Bytes) : VaultM Reply :=
  if data.length > outSize then fail .genericError else pure (.bytes data)

variable (sealer : Option Sealer)

def vaultServiceServe (msg : VaultMsg) : VaultM Reply :=
  match msg.op with
  | .set =>
    if msg.data.length > vaultObjectMax then fail .insufficientStorage
    else do
      vaultSet sealer msg.key msg.req.flags msg.data
      pure .nothing
  | .get => do
      let data ← vaultGet sealer msg.key msg.req.offset.toNat (min msg.outSize0 vaultObjectMax)
      writeReply msg.outSize0 data
  | .getInfo =>
    if msg.outSize0 < sizeofVaultInfo then fail .invalidArgument
    else do
      let info ← vaultGetInfo sealer msg.key
      pure (.info info)
  | .remove => do
      vaultRemove sealer msg.key
      pure .nothing

/-- The keystore's partition has a door of its own. -/
def vaultServiceDispatch (keystoreClient : Word) (msg : VaultMsg) : VaultM Reply :=
  if keystoreClient ≠ 0 ∧ msg.clientId = keystoreClient then fail .notPermitted
  else vaultServiceServe sealer msg

end Vault

/-- Whether the framework has a connection and a message for the call of a
client, and for the call that the front end then makes. -/
structure Framework where
  carried : Bool
  linked : Bool
  deriving DecidableEq, Repr

section FrontEnd

def opSet : Int := 1
def opGet : Int := 2
def opGetInfo : Int := 3
def opRemove : Int := 4
def opCreate : Int := 5
def opSetExtended : Int := 6
def opGetSupport : Int := 7

structure ItsReq where
  uid : BitVec 64
  flags : Word
  offset : Word
  deriving DecidableEq, Repr

def sizeofItsReq : Nat := 16

def itsReq (input : Bytes) : ItsReq :=
  { uid := field input 64 0 8
    flags := field input 32 8 4
    offset := field input 32 12 4 }

/-- A message of a front end, with its first input vector. -/
structure StorageMsg where
  clientId : Word
  type : Int
  input : Bytes
  outSize0 : Nat
  deriving DecidableEq, Repr

variable (p : Platform) (sealer : Option Sealer) (face : Face)

/-- The header and the data share the budget of the call with the reply. -/
def storageVaultCall (op : VaultOp) (req : VaultReq) (data : Bytes) (outCap : Nat) : VaultM Reply :=
  if sizeofVaultReq + data.length + outCap > ffmTransferBytes then
    fail .invalidArgument
  else
    vaultServiceDispatch sealer p.keystoreClient
      { clientId := p.partition face, op, req, data, outSize0 := outCap }

/-- The vault takes connections of Secure Partitions only. -/
def storageVaultHandle (framework : Framework) : VaultM Unit :=
  if framework.linked ∧ 0 < (p.partition face).toInt then pure ()
  else fail .genericError

/-- What a get asks of the vault at most. -/
def getCap (outSize : Nat) : Nat :=
  min (min outSize vaultObjectMax) (ffmTransferBytes - sizeofVaultReq)

/-- The request as the vault gets it: the client id is the delegated owner. -/
def vaultReq (clientId : Word) (req : ItsReq) : VaultReq :=
  { uid := req.uid, flags := req.flags, offset := req.offset
    subOwner := clientId }

def serviceSet (msg : StorageMsg) (req : ItsReq) : VaultM Reply :=
  if req.flags &&& ~~~ face.clientFlagsMask ≠ 0 then fail .notSupported
  else
    storageVaultCall p sealer face .set
      { vaultReq msg.clientId req with flags := req.flags ||| face.vaultFlags }
      (msg.input.drop sizeofItsReq) 0

def serviceGet (msg : StorageMsg) (req : ItsReq) : VaultM Reply := do
  match ← storageVaultCall p sealer face .get (vaultReq msg.clientId req) []
    (getCap msg.outSize0) with
  | .bytes data => writeReply msg.outSize0 data
  | _ => fail .genericError

/-- The front end hides the flags that it adds. -/
def serviceGetInfo (msg : StorageMsg) (req : ItsReq) : VaultM Reply :=
  if msg.outSize0 < sizeofVaultInfo then fail .invalidArgument
  else do
    match ← storageVaultCall p sealer face .getInfo (vaultReq msg.clientId req)
      [] sizeofVaultInfo with
    | .info value =>
      pure (.info { value with flags := value.flags &&& ~~~ face.vaultFlags })
    | _ => fail .genericError

def storageServiceCall (framework : Framework) (msg : StorageMsg) : VaultM Reply :=
  if msg.input.length < sizeofItsReq then fail .invalidArgument
  else if msg.input.length > sizeofItsReq + vaultObjectMax then
    fail .insufficientStorage
  else
    let req := itsReq msg.input
    if req.uid = 0 then fail .invalidArgument
    else if msg.type = opCreate ∨ msg.type = opSetExtended then
      fail .notSupported
    else do
      storageVaultHandle p face framework
      if msg.type = opSet then serviceSet p sealer face msg req
      else if msg.type = opGet then serviceGet p sealer face msg req
      else if msg.type = opGetInfo then serviceGetInfo p sealer face msg req
      else if msg.type = opRemove then
        storageVaultCall p sealer face .remove (vaultReq msg.clientId req) [] 0
      else fail .notSupported

def storageServiceDispatch (framework : Framework) (msg : StorageMsg) : VaultM Reply :=
  if msg.type = opGetSupport then
    if msg.outSize0 < 4 then fail .invalidArgument
    else pure (.support face.caps)
  else if opSet ≤ msg.type ∧ msg.type ≤ opSetExtended then
    storageServiceCall p sealer face framework msg
  else fail .notSupported

end FrontEnd

/-- The statuses of a call: those of the service and the framework's own. -/
inductive CallStatus
  | psa (status : PsaStatus)
  | programmerError
  | insufficientMemory
  deriving DecidableEq, Repr

abbrev CallM := Prog CallStatus World

/-- A call to a front end: its type, its input vectors and the sizes of its
output vectors. -/
structure PsaCall where
  face : Face
  client : Word
  type : Int
  inputs : List Bytes
  outputs : List Nat
  framework : Framework
  deriving DecidableEq, Repr

def PsaCall.total (call : PsaCall) : Nat :=
  (call.inputs.map List.length).sum + call.outputs.sum

def PsaCall.msg (call : PsaCall) : StorageMsg :=
  { clientId := call.client, type := call.type
    input := call.inputs.headD [], outSize0 := call.outputs.headD 0 }

def PsaCall.hdr (call : PsaCall) : ItsReq := itsReq call.msg.input

def PsaCall.data (call : PsaCall) : Bytes := call.msg.input.drop sizeofItsReq

def PsaCall.size (call : PsaCall) : Nat := call.msg.outSize0

def PsaCall.key (p : Platform) (call : PsaCall) : Key :=
  { owner := p.partition call.face, sub := call.client, uid := call.hdr.uid }

def PsaCall.flags (call : PsaCall) : Word :=
  call.hdr.flags ||| call.face.vaultFlags

section Client

variable (p : Platform) (sealer : Option Sealer)

def psaCall (call : PsaCall) : CallM Reply :=
  if call.type < 0 ∨ call.inputs.length + call.outputs.length > psaMaxIovec then
    fail .programmerError
  else if call.framework.carried = false then fail .insufficientMemory
  else if call.total > ffmTransferBytes then fail (.psa .invalidArgument)
  else
    mapError .psa (storageServiceDispatch p sealer call.face call.framework call.msg)

def nsStorageMax : Nat := 512
def nsStorageTransfer : Nat := 1024

def wireHeader (uid : BitVec 64) (flags offset : Word) : Bytes :=
  toBytes 8 uid.toNat ++ (toBytes 4 flags.toNat ++ toBytes 4 offset.toNat)

variable (face : Face) (client : Word) (framework : Framework)

def storageNsWrite (op : Int) (uid : BitVec 64) (flags offset : Word)
    (data : Bytes) : CallM Reply :=
  if data.length > nsStorageMax then fail (.psa .insufficientStorage)
  else
    psaCall p sealer
      { face, client, type := op
        inputs := [wireHeader uid flags offset ++ data], outputs := []
        framework }

def storageNsRead (op : Int) (uid : BitVec 64) (offset : Word) (outCap : Nat) : CallM Reply :=
  psaCall p sealer
    { face, client, type := op, inputs := [wireHeader uid 0 offset]
      outputs := [min outCap (nsStorageTransfer - sizeofItsReq)], framework }

/-- `psa_its_set` and `psa_ps_set`. -/
def psaStorageSet (uid : BitVec 64) (data : Bytes) (flags : Word) : CallM Reply :=
  storageNsWrite p sealer face client framework opSet uid flags 0 data

/-- `psa_its_get` and `psa_ps_get`. -/
def psaStorageGet (uid : BitVec 64) (offset : Word) (size : Nat) : CallM Reply :=
  storageNsRead p sealer face client framework opGet uid offset size

end Client

end WolfTrust.StorageService
