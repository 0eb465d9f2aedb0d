import WolfTrust.StorageService
import WolfTrust.VaultDurability

namespace WolfTrust.StorageSeparation

open Domain CrashLogic LittleEndian
open WolfTrust.FfmRuntime (ffmTransferBytes psaMaxIovec)
open VaultStore VaultRecovery VaultAtomicity VaultPowerLoss VaultSteps
  VaultSeparation VaultWriteOnce VaultDurability StorageService

section Calls

variable {p : Platform} {sealer : Option Sealer} {face : Face} {call : PsaCall}

theorem partition_ne_keystore (p : Platform) (face : Face) :
    p.partition face ≠ p.keystoreClient := by
  cases face with
  | its => exact p.its_ne_keystore
  | ps => exact p.ps_ne_keystore

theorem partition_pos (p : Platform) (face : Face) : 0 < (p.partition face).toInt := by
  cases face with
  | its => exact p.its_pos
  | ps => exact p.ps_pos

theorem storageVaultCall_eq (op : VaultOp) (req : VaultReq) (data : Bytes) (outCap : Nat) :
    storageVaultCall p sealer face op req data outCap =
      if sizeofVaultReq + data.length + outCap > ffmTransferBytes then
        fail .invalidArgument
      else vaultServiceServe sealer
        { clientId := p.partition face, op, req, data, outSize0 := outCap } := by
  have hdoor : ¬ (p.keystoreClient ≠ 0 ∧ p.partition face = p.keystoreClient) :=
    fun h => partition_ne_keystore p face h.2
  unfold storageVaultCall vaultServiceDispatch
  dsimp only
  rw [if_neg hdoor]

theorem getCap_le (outSize : Nat) : getCap outSize ≤ outSize ∧ getCap outSize ≤ vaultObjectMax ∧
      sizeofVaultReq + getCap outSize ≤ ffmTransferBytes := by
  unfold getCap
  have hbudget : sizeofVaultReq + (ffmTransferBytes - sizeofVaultReq) =
      ffmTransferBytes := rfl
  omega

theorem serviceGet_eq (msg : StorageMsg) (req : ItsReq) : serviceGet p sealer face msg req =
      vaultGet sealer ⟨p.partition face, msg.clientId, req.uid⟩
        req.offset.toNat (getCap msg.outSize0) >>= fun data =>
        writeReply (getCap msg.outSize0) data := by
  obtain ⟨hsize, hmax, hbudget⟩ := getCap_le msg.outSize0
  unfold serviceGet
  rw [storageVaultCall_eq, if_neg (by rw [List.length_nil]; omega)]
  dsimp only [vaultServiceServe]
  rw [Nat.min_eq_left hmax, bind_bind]
  congr 1
  funext data
  unfold writeReply
  by_cases hlong : data.length > getCap msg.outSize0
  · rw [if_pos hlong]
    rfl
  · rw [if_neg hlong]
    show (if data.length > msg.outSize0 then _ else _) = _
    rw [if_neg (by omega)]

theorem serviceSet_eq (msg : StorageMsg) (req : ItsReq)
    (hflags : req.flags &&& ~~~ face.clientFlagsMask = 0)
    (hroom : sizeofVaultReq + (msg.input.drop sizeofItsReq).length ≤ ffmTransferBytes) :
    serviceSet p sealer face msg req = vaultSet sealer ⟨p.partition face, msg.clientId, req.uid⟩
        (req.flags ||| face.vaultFlags) (msg.input.drop sizeofItsReq) >>=
        fun _ => pure .nothing := by
  have hbudget : sizeofVaultReq + vaultObjectMax > ffmTransferBytes := by decide
  unfold serviceSet
  rw [if_neg (not_not.mpr hflags), storageVaultCall_eq, Nat.add_zero, if_neg (Nat.not_lt.mpr hroom)]
  dsimp only [vaultServiceServe]
  rw [if_neg (by omega)]
  rfl

/-- What the front end shows of an object's metadata. -/
def shown (face : Face) (info : VaultInfo) : VaultInfo :=
  { info with flags := info.flags &&& ~~~ face.vaultFlags }

theorem serviceGetInfo_eq (msg : StorageMsg) (req : ItsReq)
    (hsize : sizeofVaultInfo ≤ msg.outSize0) :
    serviceGetInfo p sealer face msg req =
      vaultGetInfo sealer ⟨p.partition face, msg.clientId, req.uid⟩ >>=
        fun info => pure (.info (shown face info)) := by
  unfold serviceGetInfo
  rw [if_neg (Nat.not_lt.mpr hsize), storageVaultCall_eq, if_neg (by decide)]
  dsimp only [vaultServiceServe]
  rw [if_neg (by decide), bind_bind]
  rfl

theorem remove_eq (client : Word) (req : ItsReq) :
    storageVaultCall p sealer face .remove (vaultReq client req) [] 0 =
      vaultRemove sealer ⟨p.partition face, client, req.uid⟩ >>= fun _ => pure .nothing := by
  rw [storageVaultCall_eq, if_neg (by decide)]
  rfl

/-- What a call comes to: an answer that the vault has no part in, or one
request to the vault about the object that the call names. -/
inductive Acts (p : Platform) (sealer : Option Sealer) (call : PsaCall) :
    CallM Reply → Prop
  | refused (status : CallStatus) : Acts p sealer call (fail status)
  | support (type : call.type = opGetSupport) (caps : Word) :
      Acts p sealer call (pure (.support caps))
  | set (type : call.type = opSet)
      (flags : call.hdr.flags &&& ~~~ call.face.clientFlagsMask = 0)
      (room : sizeofVaultReq + call.data.length ≤ ffmTransferBytes) :
      Acts p sealer call (mapError .psa
        (vaultSet sealer (call.key p) call.flags call.data >>= fun _ =>
          pure .nothing))
  | get (type : call.type = opGet) :
      Acts p sealer call (mapError .psa (vaultGet sealer (call.key p) call.hdr.offset.toNat
          (getCap call.size) >>= writeReply (getCap call.size)))
  | getInfo (type : call.type = opGetInfo) :
      Acts p sealer call (mapError .psa (vaultGetInfo sealer (call.key p) >>= fun info =>
          pure (.info (shown call.face info))))
  | remove (type : call.type = opRemove) :
      Acts p sealer call (mapError .psa
        (vaultRemove sealer (call.key p) >>= fun _ => pure .nothing))

theorem Acts.fail_psa (status : PsaStatus) : Acts p sealer call (mapError .psa (fail status)) :=
  .refused (.psa status)

theorem serviceSet_acts (htype : call.type = opSet) :
    Acts p sealer call (mapError .psa (serviceSet p sealer call.face call.msg call.hdr)) := by
  by_cases hflags : call.hdr.flags &&& ~~~ call.face.clientFlagsMask = 0
  · by_cases hroom : sizeofVaultReq + call.data.length ≤ ffmTransferBytes
    · rw [serviceSet_eq call.msg call.hdr hflags hroom]
      exact .set htype hflags hroom
    · unfold PsaCall.data at hroom
      unfold serviceSet
      rw [if_neg (not_not.mpr hflags), storageVaultCall_eq, Nat.add_zero,
        if_pos (Nat.not_le.mp hroom)]
      exact .fail_psa _
  · unfold serviceSet
    rw [if_pos hflags]
    exact .fail_psa _

theorem serviceGetInfo_acts (htype : call.type = opGetInfo) :
    Acts p sealer call (mapError .psa (serviceGetInfo p sealer call.face call.msg call.hdr)) := by
  by_cases hsize : sizeofVaultInfo ≤ call.msg.outSize0
  · rw [serviceGetInfo_eq call.msg call.hdr hsize]
    exact .getInfo htype
  · unfold serviceGetInfo
    rw [if_pos (Nat.not_le.mp hsize)]
    exact .fail_psa _

theorem storageServiceCall_acts (call : PsaCall) : Acts p sealer call (mapError .psa
      (storageServiceCall p sealer call.face call.framework call.msg)) := by
  unfold storageServiceCall storageVaultHandle
  dsimp only
  split
  · exact .fail_psa _
  split
  · exact .fail_psa _
  split
  · exact .fail_psa _
  split
  · exact .fail_psa _
  split
  · show Acts p sealer call (mapError .psa (if call.type = opSet then _ else _))
    split
    · exact serviceSet_acts ‹_›
    split
    · rw [serviceGet_eq]
      exact .get ‹_›
    split
    · exact serviceGetInfo_acts ‹_›
    split
    · rw [remove_eq]
      exact .remove ‹_›
    · exact .fail_psa _
  · exact .fail_psa _

theorem psaCall_acts (p : Platform) (sealer : Option Sealer) (call : PsaCall) :
    Acts p sealer call (psaCall p sealer call) := by
  unfold psaCall storageServiceDispatch
  split
  · exact .refused _
  split
  · exact .refused _
  split
  · exact .refused _
  split
  · split
    · exact .fail_psa _
    · exact .support ‹_› _
  split
  · exact storageServiceCall_acts call
  · exact .fail_psa _

end Calls

structure Turn where
  call : PsaCall
  faults : List Fault

def Turn.Benign (turn : Turn) : Prop :=
  ∀ fault ∈ turn.faults, Fault.Benign fault

/-- A call on the store that the last one left. -/
def issue (p : Platform) (sealer : Option Sealer) (w : World) (turn : Turn) :
    Outcome CallStatus Reply × World :=
  psaCall p sealer turn.call { w with faults := turn.faults }

def issueAll (p : Platform) (sealer : Option Sealer) (w : World) (turns : List Turn) : World :=
  turns.foldl (fun w turn => (issue p sealer w turn).2) w

/-- What an answer holds: something of an object of the key that the call
names. -/
def Answered (p : Platform) (sealer : Option Sealer) (call : PsaCall) (nvm : Nvm) : Reply → Prop
  | .bytes data => ∃ slot object, Finds nvm (call.key p) slot object ∧
      Answers sealer object ((tableOf nvm).slots slot) call.hdr.offset.toNat (getCap call.size) data
  | .info value => ∃ slot object info, Finds nvm (call.key p) slot object ∧
      Describes object info ∧ value = shown call.face info
  | .nothing => True
  | .support _ => True

/-- The call leaves the object of the key as it is meant to. -/
def Spares (p : Platform) (key : Key) (call : PsaCall) : Prop :=
  call.key p = key → call.type ≠ opSet ∧ call.type ≠ opRemove

section Runs

variable {p : Platform} {sealer : Option Sealer} {w : World} {turn : Turn}

theorem partition_injective : Function.Injective p.partition := by
  intro face face' h
  cases face <;> cases face'
  · rfl
  · exact absurd h p.distinct
  · exact absurd h.symm p.distinct
  · rfl

/-- The front ends have objects of their own. -/
theorem spares_other_face {face : Face} {call : PsaCall} (hface : call.face ≠ face)
    (client : Word) (uid : BitVec 64) :
    Spares p ⟨p.partition face, client, uid⟩ call := fun hkey =>
  absurd (partition_injective (congrArg Key.owner hkey)) hface

theorem writeReply_state (size : Nat) (data : Bytes) (w : World) :
    (writeReply size data w).2 = w := by
  unfold writeReply
  split <;> rfl

/-- The step: a call makes writes of a request, for another key than one that it
spares. -/
theorem issue_path (key : Key) (htidy : Tidy w.nvm) (hbenign : turn.Benign) :
    ∃ asked, (Spares p key turn.call → asked ≠ key) ∧
      Path sealer asked w.nvm (issue p sealer w turn).2.nvm := by
  have hat : At w.nvm { w with faults := turn.faults } := ⟨rfl, hbenign⟩
  have hleft : ∀ {asked : Key} {w' : World}, Left sealer asked w.nvm w' →
      Path sealer asked w.nvm w'.nvm := by
    rintro asked w' ⟨nvm, hat', hpath⟩
    rw [hat'.nvm_eq]
    exact hpath
  have hacts := psaCall_acts p sealer turn.call
  unfold issue
  generalize psaCall p sealer turn.call = program at hacts ⊢
  cases hacts with
  | refused | support => exact ⟨elsewhere key, fun _ => elsewhere_ne key, .refl⟩
  | set type =>
    refine ⟨turn.call.key p, fun hspares hkey => (hspares hkey).1 type, ?_⟩
    rw [mapError_state, bind_state fun _ _ => rfl]
    refine hleft (wp.state ((set_path hat htidy).mono ?_ (fun _ _ h => h) (fun _ h => h)))
    rintro _ w' ⟨nvm, hat', hpath, -⟩
    exact ⟨nvm, hat', hpath⟩
  | get =>
    refine ⟨elsewhere key, fun _ => elsewhere_ne key, ?_⟩
    rw [mapError_state, bind_state (writeReply_state _)]
    exact hleft (wp.state ((get_path hat htidy _ _).mono (fun _ _ h => h.left)
      (fun _ _ h => h) (fun _ h => h)))
  | getInfo =>
    refine ⟨elsewhere key, fun _ => elsewhere_ne key, ?_⟩
    rw [mapError_state, bind_state fun _ _ => rfl]
    exact hleft (wp.state ((getInfo_path hat htidy).mono (fun _ _ h => h.left)
      (fun _ _ h => h) (fun _ h => h)))
  | remove type =>
    refine ⟨turn.call.key p, fun hspares hkey => (hspares hkey).2 type, ?_⟩
    rw [mapError_state, bind_state fun _ _ => rfl]
    exact hleft (remove_path hat htidy).state

variable {reply : Reply} {data : Bytes}

theorem issue_answered (htidy : Tidy w.nvm) (hbenign : turn.Benign)
    (hdone : (issue p sealer w turn).1 = .done reply) :
    Answered p sealer turn.call (issue p sealer w turn).2.nvm reply := by
  have hat : At w.nvm { w with faults := turn.faults } := ⟨rfl, hbenign⟩
  suffices hwp : wp (psaCall p sealer turn.call)
      (fun reply w' => Answered p sealer turn.call w'.nvm reply)
      (fun _ _ => True) (fun _ => True) { w with faults := turn.faults } from
    hwp.of_done hdone
  have hacts := psaCall_acts p sealer turn.call
  generalize psaCall p sealer turn.call = program at hacts ⊢
  cases hacts with
  | refused | support => trivial
  | set =>
    rw [wp_mapError, wp_bind]
    exact (set_path hat htidy).mono (fun _ _ _ => trivial)
      (fun _ _ _ => trivial) (fun _ _ => trivial)
  | get =>
    rw [wp_mapError, wp_bind]
    refine (@get_path _ (turn.call.key p) _ _ _ hat htidy _ _).mono ?_
      (fun _ _ _ => trivial) (fun _ _ => trivial)
    rintro data w' ⟨nvm, hat', -, slot, object, hfinds, hanswers⟩
    obtain rfl := hat'.nvm_eq
    unfold writeReply
    split
    · trivial
    · exact ⟨slot, object, hfinds, hanswers⟩
  | getInfo =>
    rw [wp_mapError, wp_bind]
    refine (@getInfo_path _ (turn.call.key p) _ _ _ hat htidy).mono ?_
      (fun _ _ _ => trivial) (fun _ _ => trivial)
    rintro info w' ⟨nvm, hat', -, slot, object, hfinds, hdescribes⟩
    obtain rfl := hat'.nvm_eq
    exact ⟨slot, object, info, hfinds, hdescribes, rfl⟩
  | remove =>
    rw [wp_mapError, wp_bind]
    exact (remove_path hat htidy).mono (fun _ _ _ => trivial)
      (fun _ _ _ => trivial) (fun _ _ => trivial)

theorem issueAll_invariant {I : Nvm → Prop} (hI : Invariant sealer I)
    (htidy : Tidy w.nvm) (h : I w.nvm) (turns : List Turn)
    (hbenign : ∀ t ∈ turns, t.Benign) : I (issueAll p sealer w turns).nvm := by
  induction turns generalizing w with
  | nil => exact h
  | cons turn turns ih =>
    obtain ⟨asked, -, hpath⟩ := issue_path (turn.call.key p) htidy (hbenign turn List.mem_cons_self)
    exact ih (tidy_invariant.path htidy hpath) (hI.path h hpath)
      fun t ht => hbenign t (List.mem_cons_of_mem _ ht)

/-- The run: it keeps what the store holds of a key that it spares. -/
theorem issueAll_spared {key : Key} {start : Nvm} (turns : List Turn)
    (hbenign : ∀ t ∈ turns, t.Benign) (htidy : Tidy w.nvm)
    (hspares : ∀ t ∈ turns, Spares p key t.call) (h : Spared key start w.nvm) :
    Spared key start (issueAll p sealer w turns).nvm := by
  induction turns generalizing w with
  | nil => exact h
  | cons turn turns ih =>
    obtain ⟨asked, hne, hpath⟩ := issue_path key htidy (hbenign turn List.mem_cons_self)
    exact ih (fun t ht => hbenign t (List.mem_cons_of_mem _ ht)) (tidy_invariant.path htidy hpath)
      (fun t ht => hspares t (List.mem_cons_of_mem _ ht))
      (h.path (hne (hspares turn List.mem_cons_self)) hpath)

theorem issue_set (htype : turn.call.type = opSet)
    (hdone : (issue p sealer w turn).1 = .done reply) :
    let set := vaultSet sealer (turn.call.key p) turn.call.flags turn.call.data
      { w with faults := turn.faults }
    set.1 = .done () ∧ (issue p sealer w turn).2 = set.2 ∧
      sizeofVaultReq + turn.call.data.length ≤ ffmTransferBytes := by
  intro set
  have hacts := psaCall_acts p sealer turn.call
  unfold issue at hdone ⊢
  generalize psaCall p sealer turn.call = program at hacts hdone ⊢
  cases hacts with
  | refused => cases hdone
  | support type => exact absurd (htype.symm.trans type) (by decide)
  | set type flags room =>
    rw [mapError_state, bind_state fun _ _ => rfl]
    obtain ⟨⟨⟩, hset⟩ := bind_done (mapError_done hdone)
    exact ⟨hset, rfl, room⟩
  | get type => exact absurd (htype.symm.trans type) (by decide)
  | getInfo type => exact absurd (htype.symm.trans type) (by decide)
  | remove type => exact absurd (htype.symm.trans type) (by decide)

end Runs

/-- The call reaches the vault: the framework carries it within its limits, and
it has a header that names an object. -/
structure Carried (call : PsaCall) : Prop where
  vectors : call.inputs.length + call.outputs.length ≤ psaMaxIovec
  carried : call.framework.carried = true
  linked : call.framework.linked = true
  budget : call.total ≤ ffmTransferBytes
  header : sizeofItsReq ≤ call.msg.input.length
  named : call.hdr.uid ≠ 0

/-- What a get of `size` bytes at an offset answers for these bytes. -/
def answer (data : Bytes) (offset size : Nat) : Outcome CallStatus Reply :=
  if offset ≤ data.length then .done (.bytes ((data.drop offset).take size))
  else .failed (.psa .invalidArgument)

section Gets

variable {p : Platform} {sealer : Option Sealer} {w : World} {call : PsaCall}

theorem Carried.input_le (h : Carried call) : call.msg.input.length ≤ ffmTransferBytes := by
  refine Nat.le_trans ?_ h.budget
  unfold PsaCall.total PsaCall.msg
  cases call.inputs with
  | nil => exact Nat.zero_le _
  | cons input =>
    show input.length ≤ _
    rw [List.map_cons, List.sum_cons]
    omega

theorem psaCall_get (h : Carried call) (htype : call.type = opGet) :
    psaCall p sealer call = mapError .psa
      (vaultGet sealer (call.key p) call.hdr.offset.toNat (getCap call.size) >>=
        writeReply (getCap call.size)) := by
  have hinput : ¬ call.msg.input.length > sizeofItsReq + vaultObjectMax := by
    have hmax : ffmTransferBytes ≤ sizeofItsReq + vaultObjectMax := by decide
    have := h.input_le
    omega
  have hmsg : call.msg.type = opGet := htype
  have hnamed : (itsReq call.msg.input).uid ≠ 0 := h.named
  unfold psaCall
  rw [if_neg (by rw [htype]; have := h.vectors; unfold opGet; omega),
    if_neg (by rw [h.carried]; exact Bool.noConfusion),
    if_neg (Nat.not_lt.mpr h.budget)]
  unfold storageServiceDispatch
  rw [hmsg, if_neg (by decide), if_pos (by decide)]
  unfold storageServiceCall storageVaultHandle
  rw [hmsg, if_neg (Nat.not_lt.mpr h.header), if_neg hinput]
  dsimp only
  rw [if_neg hnamed, if_neg (by decide), if_pos ⟨h.linked, partition_pos p call.face⟩,
    if_neg (show opGet ≠ opSet by decide), if_pos rfl, serviceGet_eq]
  rfl

theorem answer_min {offset size bound : Nat} (h : data.length ≤ bound) :
    answer data offset (min size bound) = answer data offset size := by
  unfold answer
  rw [show (data.drop offset).take (min size bound) = (data.drop offset).take size by
    rw [List.take_eq_take_iff, List.length_drop]
    omega]

theorem getCap_eq (size : Nat) : getCap size = min size (ffmTransferBytes - sizeofVaultReq) := by
  have hmax : ffmTransferBytes - sizeofVaultReq ≤ vaultObjectMax := by decide
  unfold getCap
  omega

theorem get_answer (h : Carried call) (htype : call.type = opGet)
    (hdata : sizeofVaultReq + data.length ≤ ffmTransferBytes)
    (hget : (vaultGet sealer (call.key p) call.hdr.offset.toNat (getCap call.size) w).1 =
        slice data call.hdr.offset.toNat (getCap call.size)) :
    (psaCall p sealer call w).1 = answer data call.hdr.offset.toNat call.size := by
  have hcap : answer data call.hdr.offset.toNat (getCap call.size) =
      answer data call.hdr.offset.toNat call.size := by
    rw [getCap_eq]
    exact answer_min (Nat.le_sub_of_add_le' hdata)
  rw [psaCall_get h htype, ← hcap]
  refine wp.outcome_eq ?_
  rw [wp_mapError, wp_bind]
  unfold slice at hget
  unfold answer wp
  rcases hrun : vaultGet sealer (call.key p) call.hdr.offset.toNat
    (getCap call.size) w with ⟨bytes | status | _, w'⟩ <;> rw [hrun] at hget
  · split at hget
    · rename_i hoffset
      cases hget
      have hlength : ¬ ((data.drop call.hdr.offset.toNat).take
          (getCap call.size)).length > getCap call.size :=
        Nat.not_lt.mpr (List.length_take_le _ _)
      rw [if_pos hoffset]
      dsimp only
      unfold writeReply
      rw [if_neg hlength]
      rfl
    · cases hget
  · split at hget
    · cases hget
    · rename_i hoffset
      cases hget
      rw [if_neg hoffset]
  · split at hget <;> cases hget

end Gets

section Client

variable (face : Face) (client : Word) (framework : Framework)

def setCall (uid : BitVec 64) (data : Bytes) (flags : Word) : PsaCall :=
  { face, client, type := opSet
    inputs := [wireHeader uid flags 0 ++ data], outputs := [], framework }

def getCall (uid : BitVec 64) (offset : Word) (size : Nat) : PsaCall :=
  { face, client, type := opGet, inputs := [wireHeader uid 0 offset]
    outputs := [min size (nsStorageTransfer - sizeofItsReq)], framework }

theorem length_wireHeader (uid : BitVec 64) (flags offset : Word) :
    (wireHeader uid flags offset).length = sizeofItsReq := by
  unfold wireHeader
  rw [List.length_append, List.length_append, length_toBytes, length_toBytes, length_toBytes]
  rfl

theorem itsReq_wireHeader (uid : BitVec 64) (flags offset : Word) (data : Bytes) :
    itsReq (wireHeader uid flags offset ++ data) = ⟨uid, flags, offset⟩ := by
  have huid := field_toBytes (show 2 ^ 64 = 256 ^ 8 from rfl) []
    (toBytes 4 flags.toNat ++ (toBytes 4 offset.toNat ++ data)) uid
  have hflags := field_toBytes (show 2 ^ 32 = 256 ^ 4 from rfl)
    (toBytes 8 uid.toNat) (toBytes 4 offset.toNat ++ data) flags
  have hoffset := field_toBytes (show 2 ^ 32 = 256 ^ 4 from rfl)
    (toBytes 8 uid.toNat ++ toBytes 4 flags.toNat) data offset
  rw [List.nil_append, List.length_nil] at huid
  rw [length_toBytes] at hflags
  rw [List.length_append, length_toBytes, length_toBytes, List.append_assoc] at hoffset
  unfold itsReq wireHeader
  rw [List.append_assoc, List.append_assoc, huid, hflags, hoffset]

end Client

/-- From this store on, while calls spare the key and whatever faults strike
them, a get answers for these bytes, one that the framework carries and that of
the client library. If the vault could recover from the store at the start, it
is every get that nothing strikes; and it is one that nothing strikes once the
table is loaded. -/
def ReadsBack (p : Platform) (sealer : Option Sealer) (start : Nvm) (key : Key)
    (data : Bytes) (w : World) : Prop :=
  ∀ later, (∀ t ∈ later, t.Benign) → (∀ t ∈ later, Spares p key t.call) →
  ∀ struck, (∀ f ∈ struck, Fault.Benign f) →
    let last := issueAll p sealer w later
    (Recoverable sealer start ∧ struck = []) ∨ Loaded sealer { last with faults := struck } →
    (∀ get, Carried get → get.type = opGet → get.key p = key →
      (psaCall p sealer get { last with faults := struck }).1 =
        answer data get.hdr.offset.toNat get.size) ∧
    ∀ face client (framework : Framework) uid offset size,
      key = ⟨p.partition face, client, uid⟩ → uid ≠ 0 →
      framework.carried = true → framework.linked = true →
      (psaStorageGet p sealer face client framework uid offset size
        { last with faults := struck }).1 = answer data offset.toNat size

section RoundTrips

variable {p : Platform} {sealer : Option Sealer} {w : World}

variable {face : Face} {client : Word} {framework : Framework} {uid : BitVec 64}

theorem setCall_hdr (data : Bytes) (flags : Word) :
    (setCall face client framework uid data flags).hdr = ⟨uid, flags, 0⟩ :=
  itsReq_wireHeader uid flags 0 data

theorem setCall_data (data : Bytes) (flags : Word) :
    (setCall face client framework uid data flags).data = data :=
  List.drop_left' (length_wireHeader uid flags 0)

theorem getCall_hdr (offset : Word) (size : Nat) :
    (getCall face client framework uid offset size).hdr = ⟨uid, 0, offset⟩ := by
  have hhdr := itsReq_wireHeader uid 0 offset []
  rw [List.append_nil] at hhdr
  exact hhdr

theorem getCall_carried (hcarried : framework.carried = true)
    (hlinked : framework.linked = true) (huid : uid ≠ 0) (offset : Word)
    (size : Nat) : Carried (getCall face client framework uid offset size) where
  vectors := show 1 + 1 ≤ psaMaxIovec by decide
  carried := hcarried
  linked := hlinked
  budget := by
    show ((wireHeader uid 0 offset).length + 0) +
      (min size (nsStorageTransfer - sizeofItsReq) + 0) ≤ ffmTransferBytes
    have hbudget : sizeofItsReq + (nsStorageTransfer - sizeofItsReq) =
        ffmTransferBytes := rfl
    rw [length_wireHeader]
    omega
  header := Nat.le_of_eq (length_wireHeader uid 0 offset).symm
  named := by
    rw [getCall_hdr]
    exact huid

theorem psaStorageSet_done {flags : Word}
    (hdone : (psaStorageSet p sealer face client framework uid data flags w).1 = .done reply) :
    psaStorageSet p sealer face client framework uid data flags =
      psaCall p sealer (setCall face client framework uid data flags) := by
  unfold psaStorageSet storageNsWrite at hdone ⊢
  split at hdone
  · cases hdone
  · rename_i hshort
    exact if_neg hshort

theorem setCall_key (data : Bytes) (flags : Word) :
    (setCall face client framework uid data flags).key p = ⟨p.partition face, client, uid⟩ := by
  unfold PsaCall.key
  rw [setCall_hdr]
  rfl

theorem getCall_key (offset : Word) (size : Nat) :
    (getCall face client framework uid offset size).key p = ⟨p.partition face, client, uid⟩ := by
  unfold PsaCall.key
  rw [getCall_hdr]
  rfl

/-- What was set is read back: by every get that the framework carries, whatever
was called between that spared it. -/
theorem set_reads_back {turn : Turn} {start : Nvm} (hround : RoundTrip sealer)
    (hstore : Recoverable sealer start → Recoverable sealer w.nvm) (htidy : Tidy w.nvm)
    (honce : Once (turn.call.key p) none w.nvm) (hbenign : turn.Benign)
    (htype : turn.call.type = opSet) (hdone : (issue p sealer w turn).1 = .done reply)
    (hcounted : Counted (turn.call.key p) (issue p sealer w turn).2.nvm) :
    ReadsBack p sealer start (turn.call.key p) turn.call.data (issue p sealer w turn).2 := by
  intro later hlater hspares struck hstruck last hload
  have hloaded : Loaded sealer { last with faults := struck } := by
    rcases hload with ⟨hstart, rfl⟩ | hloaded
    · exact loaded_of_recoverable (issueAll_invariant recoverable_invariant htidy
        (hstore hstart) (turn :: later) (List.forall_mem_cons.mpr ⟨hbenign, hlater⟩)) rfl
    · exact hloaded
  obtain ⟨hset, hstate, hroom⟩ := issue_set htype hdone
  rw [hstate] at hcounted
  obtain ⟨nvm, slot, payload, hnvm, htidy₁, honce₁, hrest, hfinds, hholds⟩ :=
    set_left hround htidy honce hbenign hset hcounted
  have hstart : (issue p sealer w turn).2.nvm = nvm := hstate ▸ hnvm
  rw [← hstart] at htidy₁ honce₁ hrest hfinds hholds
  have hread := spared_read (issueAll_spared later hlater htidy₁ hspares (.refl hrest))
    (issueAll_invariant tidy_invariant htidy₁ htidy₁ later hlater)
    (issueAll_invariant once_invariant htidy₁ honce₁ later hlater)
    hfinds hholds hstruck hloaded
  have hget : ∀ get, Carried get → get.type = opGet → get.key p = turn.call.key p →
      (psaCall p sealer get { last with faults := struck }).1 =
        answer turn.call.data get.hdr.offset.toNat get.size := by
    intro get hcarried hget hkey
    refine get_answer hcarried hget hroom ?_
    rw [hkey]
    exact hread.1 _ _
  refine ⟨hget, ?_⟩
  intro face client framework uid offset size hkey huid hcarried hlinked
  have hlibrary := hget (getCall face client framework uid offset size)
    (getCall_carried hcarried hlinked huid offset size) rfl
    (by rw [getCall_key, hkey])
  have hdata : turn.call.data.length ≤ nsStorageTransfer - sizeofItsReq := by
    have hbudget : ffmTransferBytes ≤
        sizeofVaultReq + (nsStorageTransfer - sizeofItsReq) := by decide
    omega
  rw [getCall_hdr] at hlibrary
  exact hlibrary.trans (answer_min hdata)

end RoundTrips

/-- Storage clients are isolated end to end. Whatever is called through both
front ends and whatever faults strike: of a key that no call sets or removes,
and of which no change was under way, the store holds the objects that it held,
in their slots and under their counters, and no others; a call is answered with
bytes or metadata of an object of the key that it names; and what was set, by a
call or by the client library, is read back, unless the counter of the vault
wrapped to zero in the set. -/
theorem storage_clients_isolated (p : Platform) (sealer : Option Sealer)
    (hround : RoundTrip sealer) (w : World) (htidy : Tidy w.nvm)
    (honce : ∀ key, Once key none w.nvm) (turns : List Turn) (hbenign : ∀ t ∈ turns, t.Benign) :
    let after := issueAll p sealer w turns
    (∀ key, AtRest key w.nvm → (∀ t ∈ turns, Spares p key t.call) → ∀ slot object,
        (Finds after.nvm key slot object ↔ Finds w.nvm key slot object) ∧
        (Finds w.nvm key slot object →
          (tableOf after.nvm).slots slot = (tableOf w.nvm).slots slot)) ∧
    (∀ turn reply, turn.Benign → (issue p sealer after turn).1 = .done reply →
      Answered p sealer turn.call (issue p sealer after turn).2.nvm reply) ∧
    (∀ turn reply, turn.Benign → turn.call.type = opSet →
      (issue p sealer after turn).1 = .done reply →
      Counted (turn.call.key p) (issue p sealer after turn).2.nvm →
      ReadsBack p sealer w.nvm (turn.call.key p) turn.call.data (issue p sealer after turn).2) ∧
    ∀ face client framework uid data flags faults reply, (∀ f ∈ faults, Fault.Benign f) →
      let key : Key := ⟨p.partition face, client, uid⟩
      let set := psaStorageSet p sealer face client framework uid data flags
        { after with faults }
      set.1 = .done reply → Counted key set.2.nvm →
      ReadsBack p sealer w.nvm key data set.2 := by
  intro after
  have hstore : Recoverable sealer w.nvm → Recoverable sealer after.nvm :=
    fun h => issueAll_invariant recoverable_invariant htidy h turns hbenign
  have htidy' : Tidy after.nvm := issueAll_invariant tidy_invariant htidy htidy turns hbenign
  have honce' : ∀ key, Once key none after.nvm := fun key =>
    issueAll_invariant once_invariant htidy (honce key) turns hbenign
  refine ⟨?_, ?_, ?_, ?_⟩
  · intro key hrest hspares slot object
    have hspared : Spared key w.nvm after.nvm :=
      issueAll_spared turns hbenign htidy hspares (.refl hrest)
    have hfinds := hspared.finds slot object
    exact ⟨hfinds, fun hfound => hspared.counter slot object (hfinds.mpr hfound)⟩
  · intro turn reply hturn hdone
    exact issue_answered htidy' hturn hdone
  · intro turn reply hturn htype hdone hcounted
    exact set_reads_back hround hstore htidy' (honce' _) hturn htype hdone hcounted
  · intro face client framework uid data flags faults reply hfaults key set hdone hcounted
    let turn : Turn := ⟨setCall face client framework uid data flags, faults⟩
    have hissue : set = issue p sealer after turn := congrFun (psaStorageSet_done hdone) _
    have hkey : turn.call.key p = key := setCall_key data flags
    have hdata : turn.call.data = data := setCall_data data flags
    rw [hissue, ← hkey] at hcounted
    rw [hissue] at hdone
    have hturn : turn.Benign := hfaults
    have hreads := set_reads_back hround hstore htidy' (honce' _) hturn rfl hdone hcounted
    rw [hkey, hdata, ← hissue] at hreads
    exact hreads

section Sample

def samplePlatform : Platform :=
  { its := 3, ps := 4, keystoreClient := 5, its_pos := by decide
    ps_pos := by decide, distinct := by decide, its_ne_keystore := by decide
    ps_ne_keystore := by decide }

def sampleFramework : Framework := { carried := true, linked := true }

def sampleClient : Word := BitVec.allOnes 32

/-- The store after its set of three bytes of protected storage. -/
def sampleSet (counter : Counter) : Outcome CallStatus Reply × World :=
  psaStorageSet samplePlatform (some sampleSealer) .ps sampleClient
    sampleFramework 9 [1, 2, 3] 0 { emptyVault counter with faults := [] }

/-- Another client sets an object of the same uid, and power is lost. -/
def sampleOther : Turn :=
  { call := setCall .ps 7 sampleFramework 9 [8, 8] 0, faults := powerLossAt 4 }

/-- The client sets an object of the same uid through the other front end. -/
def sampleIts : Turn :=
  { call := setCall .its sampleClient sampleFramework 9 [7] 0, faults := [] }

def sampleGet (w : World) (offset : Word) (size : Nat) : Outcome CallStatus Reply :=
  (psaStorageGet samplePlatform (some sampleSealer) .ps sampleClient
    sampleFramework 9 offset size { w with faults := [] }).1

theorem storage_clients_isolated_sample : (sampleSet 0).1 = .done .nothing ∧ ∀ offset size,
      sampleGet (issueAll samplePlatform (some sampleSealer) (sampleSet 0).2
        [sampleOther, sampleIts]) offset size = answer [1, 2, 3] offset.toNat size := by
  let key : Key := ⟨samplePlatform.ps, sampleClient, 9⟩
  have hset : (sampleSet 0).1 = .done .nothing := by decide +kernel
  have hcounted : Counted key (sampleSet 0).2.nvm := by
    rintro slot object hfinds -
    have hall : ∀ slot, ((sampleSet 0).2.nvm.objects (slotId slot)).isSome →
        (tableOf (sampleSet 0).2.nvm).slots slot ≠ 0 := by decide +kernel
    exact hall slot (hfinds.1 ▸ rfl)
  have hother : ∀ t ∈ [sampleOther, sampleIts], t.Benign ∧ Spares samplePlatform key t.call := by
    intro t ht
    rcases List.mem_pair.mp ht with rfl | rfl
    · exact ⟨powerLossAt_benign 4, fun hkey =>
        absurd (congrArg Key.sub hkey) (by decide)⟩
    · have hface : sampleIts.call.face ≠ .ps := by decide
      exact ⟨fun _ h => (by cases h), spares_other_face hface _ _⟩
  obtain ⟨-, -, -, hreads⟩ := storage_clients_isolated samplePlatform
    (some sampleSealer) sampleSealer_roundTrip (emptyVault 0)
    (emptyVault_once key 0).1 (fun key => (emptyVault_once key 0).2) []
    (fun _ h => by cases h)
  have hget := hreads .ps sampleClient sampleFramework 9 [1, 2, 3] 0 [] .nothing
    (fun _ h => by cases h) hset hcounted [sampleOther, sampleIts]
    (fun t ht => (hother t ht).1) (fun t ht => (hother t ht).2) []
    (fun _ h => by cases h) (.inl ⟨emptyVault_recoverable _ 0, rfl⟩)
  exact ⟨hset, fun offset size => hget.2 .ps sampleClient sampleFramework 9
    offset size rfl (by decide) rfl rfl⟩

/-- A get past the end of what was set reports an error; and a vault that has
given out its last counter reports success for a set of protected storage, and
then cannot read the object. -/
theorem get_after_set_fails : (sampleSet 0).1 = .done .nothing ∧
      sampleGet (sampleSet 0).2 4 10 = .failed (.psa .invalidArgument) ∧
      (sampleSet (BitVec.allOnes 64)).1 = .done .nothing ∧
      sampleGet (sampleSet (BitVec.allOnes 64)).2 0 10 = .failed (.psa .invalidSignature) := by
  decide +kernel

end Sample

end WolfTrust.StorageSeparation
