import WolfTrust.FwuService

/-!
The client of the update service (`src/client/psa_fwu_client.c`), up to the
message that a call of it delivers, and that the service reads back what the
client marshalled. A call that is refused before it reaches the service is
`none`.
-/

namespace WolfTrust.FwuClient

open FwuService

def psaFwuMaxWriteSize : Nat := 1008

def typeOf : Op → Int
  | .query => 1
  | .start => 2
  | .write => 3
  | .finish => 4
  | .install => 5
  | .cancel => 6
  | .clean => 7
  | .reject => 8
  | .reboot => 9
  | .accept => 10

@[simp] theorem ofType_typeOf (op : Op) : Op.ofType (typeOf op) = some op := by
  cases op <;> rfl

def byteOf (word : UInt32) (i : Nat) : UInt8 :=
  UInt8.ofNat (word.toNat / 2 ^ (8 * i))

def wordBytes (word : UInt32) : Bytes :=
  [byteOf word 0, byteOf word 1, byteOf word 2, byteOf word 3]

def reqBytes (req : Req) : Bytes :=
  wordBytes req.component ++ wordBytes req.offset ++ wordBytes req.size ++ wordBytes req.version

/-- The runtime hands a whole vector over in one read. -/
def fwuClientCall (client : Int) (op : Op) (req : Req) (block : Bytes)
    (info : Bool) : Option Message :=
  if psaFwuMaxWriteSize < block.length then none
  else
    some
      { type := typeOf op
        clientId := client
        inSize := sizeofReq + block.length
        outSize := if info then sizeofInfo else 0
        reads := [some (reqBytes req ++ block)]
        writable := info }

def plainReq (component : UInt32) : Req :=
  { component, offset := 0, size := 0, version := 0 }

/-- A detached manifest is the version word; without one the version is left to
the image header. -/
def psaFwuStart (client : Int) (component : UInt32) (manifest : Option Bytes) : Option Message :=
  match manifest with
  | none =>
    fwuClientCall client .start
      { plainReq component with version := fwuVersionUndeclared } [] false
  | some bytes =>
    if bytes.length ≠ 4 ∨ wordAt bytes 0 = fwuVersionUndeclared then none
    else
      fwuClientCall client .start
        { plainReq component with version := wordAt bytes 0 } [] false

def psaFwuWrite (client : Int) (component offset : UInt32) (block : Bytes) : Option Message :=
  if block = [] then none
  else
    fwuClientCall client .write
      { plainReq component with
        offset, size := UInt32.ofNat block.length } block false

def psaFwuFinish (client : Int) (component : UInt32) : Option Message :=
  fwuClientCall client .finish (plainReq component) [] false

def psaFwuInstall (client : Int) : Option Message :=
  fwuClientCall client .install (plainReq 0) [] false

/-- The arrival of a call at a tick; a refused call does not arrive. -/
def arrivalOf (call : Option Message) (tick : UInt32) : Arrival :=
  match call with
  | some msg => .message msg tick true
  | none => .idle

theorem wordAt_wordBytes (before after : Bytes) (word : UInt32) {i : Nat} (hi : i = before.length) :
    wordAt (before ++ (wordBytes word ++ after)) i = word := by
  subst hi
  have hbyte : ∀ k (hk : k < 4), (before ++ (wordBytes word ++ after)).getD (before.length + k) 0 =
        byteOf word k := by
    intro k hk
    simp only [List.getD_eq_getElem?_getD]
    rw [List.getElem?_append_right (by omega)]
    obtain rfl | rfl | rfl | rfl : k = 0 ∨ k = 1 ∨ k = 2 ∨ k = 3 := by omega
    all_goals simp [wordBytes]
  have hzero := hbyte 0 (by omega)
  rw [Nat.add_zero] at hzero
  apply UInt32.toNat.inj
  have hword := word.toNat_lt
  simp only [wordAt, hzero, hbyte 1 (by omega), hbyte 2 (by omega),
    hbyte 3 (by omega), byteOf, UInt8.toNat_ofNat', UInt32.toNat_ofNat']
  omega

theorem reqOfBytes_reqBytes (req : Req) (block : Bytes) :
    reqOfBytes (reqBytes req ++ block) = req := by
  have hcomponent := wordAt_wordBytes [] (wordBytes req.offset ++
    (wordBytes req.size ++ (wordBytes req.version ++ block))) req.component rfl
  have hoffset := wordAt_wordBytes (wordBytes req.component)
    (wordBytes req.size ++ (wordBytes req.version ++ block)) req.offset rfl
  have hsize := wordAt_wordBytes (wordBytes req.component ++ wordBytes req.offset)
    (wordBytes req.version ++ block) req.size rfl
  have hversion := wordAt_wordBytes
    (wordBytes req.component ++ wordBytes req.offset ++ wordBytes req.size)
    block req.version rfl
  simp only [wordBytes, List.length_append, List.length_cons, List.length_nil,
    List.nil_append, List.append_assoc] at hcomponent hoffset hsize hversion
  simp only [reqOfBytes, reqBytes, wordBytes, List.append_assoc]
  rw [hcomponent, hoffset, hsize, hversion]

@[simp] theorem reqBytes_length (req : Req) : (reqBytes req).length = sizeofReq := rfl

theorem fwuReadIn_whole {capacity : Nat} {input : Bytes} (hne : input ≠ [])
    (h : input.length < capacity) : fwuReadIn capacity [some input] [] = some input := by
  have htake : input.take capacity = input := List.take_of_length_le (by omega)
  simp only [fwuReadIn, List.length_nil, Nat.sub_zero, htake, if_neg hne,
    List.nil_append, if_neg (Nat.not_le.mpr h)]

theorem fwuClientCall_decode {client : Int} {op : Op} {req : Req} {block : Bytes} {info : Bool}
    {msg : Message} (h : fwuClientCall client op req block info = some msg) :
    msg.decode = some (req, block) ∧ Op.ofType msg.type = some op ∧ msg.clientId = client := by
  unfold fwuClientCall at h
  split at h
  · cases h
  case isFalse hsize =>
    cases h
    refine ⟨?_, ofType_typeOf op, rfl⟩
    have hlength : (reqBytes req ++ block).length = sizeofReq + block.length := by simp
    have hread : fwuReadIn (sizeofReq + fwuBlockMax)
        [some (reqBytes req ++ block)] [] = some (reqBytes req ++ block) := by
      refine fwuReadIn_whole (List.ne_nil_of_length_pos ?_) ?_ <;>
      · simp only [hlength, sizeofReq, fwuBlockMax, psaFwuMaxWriteSize] at *
        omega
    have hsmall : ¬sizeofReq + block.length < sizeofReq := by omega
    have hlarge : ¬sizeofReq + fwuBlockMax < sizeofReq + block.length := by
      simp only [fwuBlockMax, psaFwuMaxWriteSize] at *
      omega
    simp only [Message.decode, hread, hlength, if_neg hsmall, if_neg hlarge]
    rw [reqOfBytes_reqBytes, List.drop_left' (reqBytes_length req)]

end WolfTrust.FwuClient
