import WolfTrust.VaultPowerLoss

namespace WolfTrust.VaultNonces

open Domain CrashLogic VaultStore VaultRecovery VaultPowerLoss

/-- The stored counter and the calls of the sealer so far. -/
structure Has (last : Counter) (log : List SealRecord) (w : World) : Prop where
  global : (tableOf w.nvm).global = last
  sealLog : w.sealLog = log

section Primitives

variable {last : Counter} {log : List SealRecord} {w : World} {α : Type}

/-- The program neither changes the stored counter nor calls the sealer, and
what it returns satisfies `Q`. -/
def Stays (last : Counter) (log : List SealRecord) (p : VaultM α) (Q : α → Prop) : Prop :=
  ∀ w, Has last log w → wp p (fun value w' => Q value ∧ Has last log w')
    (fun _ => Has last log) (Has last log) w

/-- The same of a call of the library. -/
def NvmStays (last : Counter) (log : List SealRecord)
    (p : Prog NvmError World α) (Q : α → Prop) : Prop :=
  ∀ w, Has last log w → wp p (fun value w' => Q value ∧ Has last log w')
    (fun _ => Has last log) (Has last log) w

theorem Has.next (h : Has last log w) : Has last log w.next := ⟨h.1, h.2⟩

theorem Has.setObject (h : Has last log w) (id : Nat)
    (object : Option Object) : Has last log (w.setObject id object) :=
  ⟨h.1, h.2⟩

theorem nvmQuery_stays (answer : World → Except NvmError α) :
    NvmStays last log (nvmQuery answer) fun _ => True := by
  intro w h
  unfold wp nvmQuery
  rcases w.fault.ending with _ | code | _
  · cases answer w with
    | ok => exact ⟨trivial, h.next⟩
    | error => exact h.next
  · exact h.next
  · exact h.next

theorem nvmChange_stays (id : Nat) (object : Option Object) :
    NvmStays last log (nvmChange id object) fun _ => True := by
  intro w h
  unfold wp nvmChange
  rcases w.fault.ending with _ | code | _
  · exact ⟨trivial, h.next.setObject id object⟩
  all_goals
    rcases w.fault.remains with _ | _ | found
    · exact h.next
    · exact h.next.setObject id object
    · exact h.next.setObject id found

theorem nvmPolicy_stays (allowed : Object → Bool) (ids : List Nat) :
    NvmStays last log (nvmPolicy allowed ids) fun _ => True := by
  intro w h
  unfold wp nvmPolicy
  split
  · rename_i heq
    split at heq <;> cases heq
    exact ⟨trivial, h⟩
  · rename_i heq
    split at heq <;> cases heq
    exact h
  · rename_i heq
    split at heq <;> cases heq

theorem NvmStays.policy {p : Prog NvmError World α} {Q : α → Prop}
    (hp : NvmStays last log p Q) (allowed : Object → Bool) (ids : List Nat) :
    NvmStays last log (nvmPolicy allowed ids >>= fun _ => p) Q := by
  intro w h
  exact (nvmPolicy_stays allowed ids w h).bind fun _ w' h => hp w' h.2

variable {p : Prog NvmError World α} {Q : α → Prop}

theorem NvmStays.mapped (h : NvmStays last log p Q) : Stays last log (VaultStore.mapped p) Q := by
  intro w hw
  rw [wp_mapped]
  exact (h w hw).mono (fun _ _ h => h) (fun _ _ h => h) (fun _ h => h)

theorem NvmStays.tried (h : NvmStays last log p Q) :
    Stays last log (VaultStore.tried p) fun _ => True := by
  intro w hw
  rw [wp_tried]
  exact (h w hw).mono (fun _ _ h => ⟨trivial, h.2⟩) (fun _ _ h => ⟨trivial, h⟩) (fun _ h => h)

end Primitives

section Programs

variable {last last' : Counter} {log : List SealRecord} {w : World}
  {α β : Type} {p : VaultM α} {Q : α → Prop}

theorem Stays.pure {value : α} (h : Q value) :
    Stays last log (pure value : VaultM α) Q := fun _ hw => ⟨h, hw⟩

theorem Stays.fail (status : PsaStatus) :
    Stays last log (fail status : VaultM α) Q := fun _ hw => hw

theorem Stays.bind {f : α → VaultM β} {R : β → Prop} (hp : Stays last log p Q)
    (hf : ∀ value, Q value → Stays last log (f value) R) : Stays last log (p >>= f) R := by
  intro w hw
  exact (hp w hw).bind fun value w' h => hf value h.1 w' h.2

theorem Stays.attempt (h : Stays last log p Q) :
    Stays last log (attempt p) fun result => ∀ value, result = .ok value → Q value := by
  intro w hw
  rw [wp_attempt]
  refine (h w hw).mono (fun value w' h => ⟨fun found hfound => ?_, h.2⟩)
    (fun status w' h => ⟨fun found hfound => ?_, h⟩) (fun _ h => h)
  · exact Except.ok.inj hfound ▸ h.1
  · cases hfound

theorem vaultReserve_stays (needSize needObjects : Nat) :
    Stays last log (vaultReserve needSize needObjects) fun _ => True := by
  unfold vaultReserve nvmGetAvailable nvmCompact
  refine (nvmQuery_stays _).mapped.bind fun room _ => ?_
  split
  · split
    · exact (nvmQuery_stays _).mapped
    · exact .fail _
  · exact .pure trivial

theorem vaultTableStore_raises {table : Table} (hglobal : table.global = last')
    (h : Has last log w) :
    wp (vaultTableStore table) (fun _ => Has last' log)
      (fun _ w' => Has last log w' ∨ Has last' log w')
      (fun w' => Has last log w' ∨ Has last' log w') w := by
  unfold vaultTableStore
  rw [wp_bind]
  refine (vaultReserve_stays _ _ w h).mono (fun _ w' h => ?_)
    (fun _ _ h => .inl h) (fun _ h => .inl h)
  rw [wp_orStorageFailure]
  have hstored : Has last' log (w'.next.setTable table) := ⟨hglobal, h.2.2⟩
  unfold wp nvmAddTable
  rcases w'.fault.ending with _ | code | _
  · exact hstored
  all_goals
    rcases w'.fault.remains with _ | _ | found
    · exact .inl h.2.next
    · exact .inr hstored
    · exact .inl h.2.next

theorem vaultTableStore_stays {table : Table} (hglobal : table.global = last) :
    Stays last log (vaultTableStore table) fun _ => True := by
  intro w h
  exact (vaultTableStore_raises hglobal h).mono (fun _ _ h => ⟨trivial, h⟩)
    (fun _ _ h => h.elim id id) (fun _ h => h.elim id id)

theorem vaultDestroyStage_stays : Stays last log vaultDestroyStage fun _ => True := by
  unfold vaultDestroyStage nvmGetMetadata nvmDestroyObject
  refine (nvmQuery_stays _).tried.bind fun found _ => ?_
  split
  · exact .pure trivial
  · exact .fail _
  · exact (nvmChange_stays _ _).mapped

end Programs

section Requests

variable {last : Counter} {log : List SealRecord} {w : World}
  {sealer : Option Sealer} {table : Table}

theorem getMetadata_stays (id : Nat) :
    NvmStays last log (nvmGetMetadata id) fun _ => True := nvmQuery_stays _

theorem vaultReadSealed_stays (id : Nat) (object : Object) (counter : Counter) :
    Stays last log (vaultReadSealed sealer id object counter) fun _ => True := by
  unfold vaultReadSealed
  split
  · exact .fail _
  · split
    · exact .fail _
    · refine (nvmQuery_stays _).mapped.bind fun cipher _ => ?_
      split
      · exact .fail _
      · exact .pure trivial

theorem close_stays {closed : Table} (hglobal : closed.global = last) :
    Stays last log (vaultTableStore closed >>= fun _ =>
      vaultDestroyStage >>= fun _ => pure closed)
      fun found => found.global = last :=
  (vaultTableStore_stays hglobal).bind fun _ _ =>
    vaultDestroyStage_stays.bind fun _ _ => .pure hglobal

theorem vaultRecoverLive_stays (hglobal : table.global = last) :
    Stays last log (vaultRecoverLive sealer table) fun found => found.global = last := by
  unfold vaultRecoverLive
  refine (getMetadata_stays _).tried.bind fun found _ => ?_
  have hstatus : Stays last log (liveStatus sealer table
      (Fin.ofNat 32 (table.reserved - 1)) found) fun _ => True := by
    unfold liveStatus
    split
    · intro w hw
      exact ((vaultReadSealed_stays _ _ _).attempt w hw).mono
        (fun _ _ h => ⟨trivial, h.2⟩) (fun _ _ h => h) (fun _ h => h)
    · exact .pure trivial
    · exact .fail _
  refine hstatus.bind fun status _ => ?_
  have hsettled : Stays last log (liveSettled table
      (Fin.ofNat 32 (table.reserved - 1)) found status)
      fun settled => settled.global = last := by
    unfold liveSettled
    split
    · exact .pure hglobal
    · split
      · split
        · exact (nvmChange_stays _ _).mapped.bind fun _ _ => .pure hglobal
        · exact .pure hglobal
      · exact .fail _
  exact hsettled.bind fun settled hsettled => close_stays hsettled

theorem vaultRecoverDelete_stays (hglobal : table.global = last) :
    Stays last log (vaultRecoverDelete table) fun found => found.global = last := by
  have hclose : ∀ slot, Stays last log (vaultTableStore (table.close slot 0) >>=
      fun _ => pure (table.close slot 0)) fun found => found.global = last := by
    intro slot
    have hclosed : (table.close slot 0).global = last := hglobal
    exact (vaultTableStore_stays hclosed).bind fun _ _ => .pure hclosed
  unfold vaultRecoverDelete
  refine (getMetadata_stays _).mapped.attempt.bind fun found _ => ?_
  split
  · split
    · exact hclose _
    · refine ((nvmChange_stays _ _).policy _ _).mapped.attempt.bind fun destroyed _ => ?_
      split
      · exact hclose _
      · exact hclose _
      · exact (Stays.fail _ : Stays last log _ fun _ => True).bind fun _ _ => hclose _
  · exact hclose _
  · exact (Stays.fail _ : Stays last log _ fun _ => True).bind fun _ _ => hclose _

theorem vaultRecover_stays (hglobal : table.global = last) :
    Stays last log (vaultRecover sealer table) fun found => found.global = last := by
  unfold vaultRecover
  split
  · exact vaultRecoverDelete_stays hglobal
  · split
    · exact vaultDestroyStage_stays.bind fun _ _ => .pure hglobal
    · have hstaged : Stays last log (mapped (nvmGetMetadata vaultStageId) >>=
          fun object => vaultReadSealed sealer vaultStageId object
            (table.slots (Fin.ofNat 32 (table.reserved - 1))) >>=
          fun read => pure (object, read.1)) fun _ => True :=
        (getMetadata_stays _).mapped.bind fun object _ =>
          (vaultReadSealed_stays _ _ _).bind fun read _ => .pure trivial
      refine hstaged.attempt.bind fun staged _ => ?_
      split
      · unfold vaultRestore
        refine (vaultReserve_stays _ _).bind fun _ _ => ?_
        refine (nvmChange_stays _ _).mapped.bind fun _ _ => ?_
        exact close_stays hglobal
      · split
        · exact vaultRecoverLive_stays hglobal
        · exact .fail _

theorem vaultTableLoad_stays :
    Stays last log (vaultTableLoad sealer) fun found => found.global = last := by
  intro w h
  have hread : wp nvmReadTable (fun table w' => table.global = last ∧ Has last log w')
      (fun code w' => (code = .notfound → emptyTable.global = last) ∧
        Has last log w') (Has last log) w := by
    unfold wp nvmReadTable nvmQuery storedTable
    have hglobal := h.global
    unfold tableOf at hglobal
    rcases w.fault.ending with _ | code | _
    · cases htable : w.nvm.table with
      | none =>
        rw [htable] at hglobal
        exact ⟨fun _ => hglobal, h.next⟩
      | some =>
        rw [htable] at hglobal
        exact ⟨hglobal, h.next⟩
    · cases htable : w.nvm.table with
      | none =>
        rw [htable] at hglobal
        cases code <;> exact ⟨fun _ => hglobal, h.next⟩
      | some => cases code <;> exact ⟨fun hcode => (by cases hcode), h.next⟩
    · exact h.next
  unfold vaultTableLoad
  rw [wp_bind, wp_tried]
  refine hread.mono ?_ ?_ (fun _ h => h)
  · rintro table w' ⟨hglobal, hw'⟩
    dsimp only
    split
    · exact hw'
    · exact vaultRecover_stays hglobal w' hw'
  · rintro code w' ⟨hcode, hw'⟩
    cases code with
    | notfound => exact vaultRecover_stays (hcode rfl) w' hw'
    | access | nospace | other => exact hw'

theorem vaultLookupFrom_stays (key : Key) (slots : List Slot) (free : Option Slot) :
    Stays last log (vaultLookupFrom key slots free) fun _ => True := by
  induction slots generalizing free with
  | nil => exact .pure trivial
  | cons slot later ih =>
    unfold vaultLookupFrom
    refine (getMetadata_stays _).tried.bind fun found _ => ?_
    split
    · exact ih _
    · exact .fail _
    · split
      · exact .pure trivial
      · exact ih _

theorem vaultFind_stays (key : Key) : Stays last log (vaultFind key) fun _ => True := by
  unfold vaultFind vaultLookup
  refine (vaultLookupFrom_stays key _ _).bind fun looked _ => ?_
  split
  · exact .fail _
  · exact .pure trivial

/-- What a request does to the counter and to the calls of the sealer: nothing,
or, if it seals, it raises the counter, and may then seal under it. -/
def Advances (sealing : Bool) (last : Counter) (log : List SealRecord) (w : World) : Prop :=
  Has last log w ∨ sealing = true ∧ (Has (last + 1) log w ∨
    ∃ record, record.counter = last + 1 ∧ Has (last + 1) (record :: log) w)

/-- However the program ends, the counter has advanced so. -/
def Moves {α : Type} (sealing : Bool) (last : Counter) (log : List SealRecord)
    (p : VaultM α) (w : World) : Prop :=
  wp p (fun _ => Advances sealing last log) (fun _ => Advances sealing last log)
    (Advances sealing last log) w

variable {sealing : Bool} {α β : Type} {counter : Counter} {label : Label} {data : Bytes}

theorem Has.advances (h : Has (if sealing then last + 1 else last) log w) :
    Advances sealing last log w := by
  cases sealing with
  | false => exact .inl h
  | true => exact .inr ⟨rfl, .inl h⟩

theorem Stays.moves {p : VaultM α} {Q : α → Prop} (h : Stays last log p Q)
    (hw : Has last log w) : Moves sealing last log p w :=
  (h w hw).mono (fun _ _ h => .inl h.2) (fun _ _ h => .inl h) (fun _ h => .inl h)

theorem Stays.then_moves {p : VaultM α} {Q : α → Prop} {f : α → VaultM β}
    (hp : Stays last log p Q) (hw : Has last log w)
    (hf : ∀ value w', Q value → Has last log w' → Moves sealing last log (f value) w') :
    Moves sealing last log (p >>= f) w := by
  unfold Moves
  rw [wp_bind]
  exact (hp w hw).mono (fun value w' h => hf value w' h.1 h.2)
    (fun _ _ h => .inl h) (fun _ h => .inl h)

theorem payload_moves {f : Bytes → VaultM β} (hcounter : sealing = true → counter = last + 1)
    (hf : ∀ payload log', Stays (if sealing then last + 1 else last) log' (f payload) fun _ => True)
    (hw : Has (if sealing then last + 1 else last) log w) :
    Moves sealing last log (setPayload sealer sealing label counter data >>= f) w := by
  unfold Moves setPayload
  cases sealing with
  | false =>
    rw [if_neg Bool.false_ne_true, wp_bind]
    exact Stays.moves (hf data log) hw
  | true =>
    have hraised : Has (last + 1) log w := hw
    rw [if_pos rfl]
    cases sealer with
    | none => exact .inr ⟨rfl, .inl hraised⟩
    | some =>
      rw [wp_bind]
      let record : SealRecord := ⟨label, counter, data⟩
      have hsealed : ∀ {w' : World}, Has (last + 1) (record :: log) w' →
          Advances true last log w' :=
        fun h => .inr ⟨rfl, .inr ⟨record, hcounter rfl, h⟩⟩
      have hlogged : Has (last + 1) (record :: log)
          { w with sealLog := record :: w.sealLog } :=
        ⟨hraised.global, congrArg (record :: ·) hraised.sealLog⟩
      refine wp_sealerCall (fun cipher _ => ?_) fun _ _ => hsealed hlogged
      exact (hf cipher (record :: log) _ hlogged).mono
        (fun _ _ h => hsealed h.2) (fun _ _ h => hsealed h)
        (fun _ h => hsealed h)

theorem addChecked_stays (id : Nat) (object : Object) :
    Stays last log (mapped (nvmAddObjectChecked id object)) fun _ => True :=
  ((nvmChange_stays id (some object)).policy _ _).mapped

theorem tableStore_moves {raised : Table} {f : Unit → VaultM β}
    (hglobal : raised.global = if sealing then last + 1 else last)
    (hw : Has last log w)
    (hf : ∀ w', Has (if sealing then last + 1 else last) log w' →
      Moves sealing last log (f ()) w') :
    Moves sealing last log (vaultTableStore raised >>= f) w := by
  have heither : ∀ w', Has last log w' ∨ Has (if sealing then last + 1 else last) log w' →
      Advances sealing last log w' :=
    fun w' h => h.elim .inl Has.advances
  unfold Moves
  rw [wp_bind]
  exact (vaultTableStore_raises hglobal hw).mono (fun _ w' h => hf w' h) (fun _ => heither) heither

theorem setFresh_moves {slot : Slot} {flags : Word}
    (hglobal : table.global = if sealing then last + 1 else last)
    (hcounter : sealing = true → counter = last + 1) (hw : Has last log w) :
    Moves sealing last log (setFresh sealer table slot label counter sealing flags data) w := by
  have hpayload : ∀ w', Has (if sealing then last + 1 else last) log w' → Moves sealing last log
        (setPayload sealer sealing label counter data >>= fun payload =>
          mapped (nvmAddObjectChecked (slotId slot)
            { access := nvmAccessAny, flags := objectFlags flags, label
              data := payload })) w' :=
    fun w' h => payload_moves hcounter (fun payload log' => addChecked_stays _ _) h
  unfold setFresh
  split
  · exact tableStore_moves hglobal hw hpayload
  · rename_i hquiet
    have hplain : sealing = false := by
      cases sealing with
      | false => rfl
      | true => exact absurd rfl hquiet
    subst hplain
    exact hpayload w hw

theorem setReplace_moves {slot : Slot} {old : Object} {cipher : Bytes} {flags : Word}
    (hglobal : table.global = if sealing then last + 1 else last)
    (hcounter : sealing = true → counter = last + 1) (hw : Has last log w) :
    Moves sealing last log (setReplace sealer table slot old cipher label counter sealing flags
        data) w := by
  unfold setReplace
  refine tableStore_moves hglobal hw fun w' hw' => ?_
  have hstage : Stays (if sealing then last + 1 else last) log (mapped (nvmAddObject vaultStageId
        { old with flags := sensitiveFlags, data := cipher })) fun _ => True :=
    (nvmChange_stays _ _).mapped
  unfold Moves
  rw [wp_bind]
  refine (hstage w' hw').mono (fun _ w₁ h₁ => ?_) (fun _ _ => Has.advances) (fun _ => Has.advances)
  refine payload_moves hcounter (fun payload log' => ?_) h₁.2
  refine (addChecked_stays _ _).bind fun _ _ => ?_
  have hclosed : (table.close slot counter).global =
      if sealing then last + 1 else last := hglobal
  exact (vaultTableStore_stays hclosed).bind fun _ _ => vaultDestroyStage_stays

theorem setTarget_stays (looked : Lookup) : Stays last log (setTarget looked) fun _ => True := by
  unfold setTarget
  split
  · split
    · exact .fail _
    · exact .pure trivial
  · split
    · exact .fail _
    · exact .pure trivial

theorem setReplaced_stays (slot : Slot) (old : Option Object) :
    Stays last log (setReplaced sealer table slot old) fun _ => True := by
  unfold setReplaced
  split
  · exact .pure trivial
  · split
    · refine (vaultReadSealed_stays _ _ _).attempt.bind fun read _ => ?_
      split
      · exact .pure trivial
      · exact .pure trivial
      · exact .fail _
    · exact .pure trivial

theorem setReserve_stays (slot : Slot) (replaced : Option (Object × Bytes))
    (sealing : Bool) (storeLen : Nat) :
    Stays last log (setReserve table slot replaced sealing storeLen) fun _ => True := by
  unfold setReserve
  split
  · exact vaultReserve_stays _ _
  · exact vaultReserve_stays _ _

theorem vaultSet_moves (key : Key) (flags : Word) (data : Bytes) (hw : Has last log w) :
    Moves (anySet flags vaultFlagSealed) last log (vaultSet sealer key flags data) w := by
  unfold vaultSet
  dsimp only
  split
  · exact .inl hw
  · split
    · exact .inl hw
    · refine vaultTableLoad_stays.then_moves hw fun table w hglobal hw => ?_
      refine (vaultLookupFrom_stays _ _ _).then_moves hw fun looked w _ hw => ?_
      refine (setTarget_stays looked).then_moves hw fun target w _ hw => ?_
      refine (setReplaced_stays _ _).then_moves hw fun replaced w _ hw => ?_
      refine (setReserve_stays _ _ _ _).then_moves hw fun _ w _ hw => ?_
      have hbumped : (if anySet flags vaultFlagSealed = true then
          table.global + 1 else table.global) =
          if anySet flags vaultFlagSealed = true then last + 1 else last := by
        rw [hglobal]
      have hcounter : anySet flags vaultFlagSealed = true →
          (if anySet flags vaultFlagSealed = true then table.global + 1
            else 0) = last + 1 := by
        intro hsealing
        rw [if_pos hsealing, hglobal]
      split
      · exact setReplace_moves hbumped hcounter hw
      · exact setFresh_moves hbumped hcounter hw

theorem vaultGet_stays (key : Key) (offset size : Nat) :
    Stays last log (vaultGet sealer key offset size) fun _ => True := by
  unfold vaultGet
  refine vaultTableLoad_stays.bind fun table _ => ?_
  refine (vaultFind_stays key).bind fun found _ => ?_
  dsimp only
  split
  · exact .fail _
  · split
    · split
      · exact .fail _
      · refine (vaultReadSealed_stays _ _ _).bind fun read _ => ?_
        split
        · exact .fail _
        · exact .pure trivial
    · split
      · exact .fail _
      · split
        · exact (nvmQuery_stays _).mapped
        · exact .pure trivial

theorem vaultGetInfo_stays (key : Key) :
    Stays last log (vaultGetInfo sealer key) fun _ => True := by
  unfold vaultGetInfo
  refine vaultTableLoad_stays.bind fun table _ => ?_
  refine (vaultFind_stays key).bind fun found _ => ?_
  dsimp only
  split
  · split
    · exact .fail _
    · exact .pure trivial
  · exact .pure trivial

theorem removeCancel_stays (hglobal : table.global = last) (key : Key) (slot : Slot) :
    Stays last log (removeCancel sealer table key slot) fun _ => True := by
  unfold removeCancel
  refine (getMetadata_stays _).tried.bind fun found _ => ?_
  split
  · exact .pure trivial
  · split
    · refine (vaultReadSealed_stays _ _ _).attempt.bind fun read _ => ?_
      split
      · exact .pure trivial
      · have hcancelled : ({ table with reserved := 0 } : Table).global = last := hglobal
        refine (vaultTableStore_stays hcancelled).attempt.bind fun _ _ => ?_
        split
        · exact .fail _
        · exact .pure trivial
    · exact .pure trivial

theorem vaultRemove_stays (key : Key) : Stays last log (vaultRemove sealer key) fun _ => True := by
  unfold vaultRemove
  refine vaultTableLoad_stays.bind fun table hglobal => ?_
  refine (vaultFind_stays key).bind fun found _ => ?_
  dsimp only
  have hdestroy : Stays last log (attempt (mapped (nvmDestroyObjectChecked (slotId found.1))))
      fun _ => True := by
    intro w hw
    exact (((nvmChange_stays _ _).policy _ _).mapped.attempt w hw).mono
      (fun _ _ h => ⟨trivial, h.2⟩) (fun _ _ h => h) (fun _ h => h)
  split
  · exact .fail _
  · split
    · have hmarked : ({ table with
          reserved := deleteMarkerBase + found.1.val + 1 } : Table).global =
          last := hglobal
      have hclosed : (table.close found.1 0).global = last := hglobal
      refine (vaultTableStore_stays hmarked).bind fun _ _ => ?_
      refine hdestroy.bind fun result _ => ?_
      split
      · exact (removeCancel_stays hglobal key _).bind fun _ _ => .fail _
      · exact vaultTableStore_stays hclosed
    · refine hdestroy.bind fun result _ => ?_
      split
      · exact .fail _
      · exact .pure trivial

end Requests

section Runs

variable {last : Counter} {log : List SealRecord} {w : World}
  {sealer : Option Sealer}

def seals : Request → Bool
  | .set _ flags _ => anySet flags vaultFlagSealed
  | _ => false

theorem Moves.after {α : Type} {p : VaultM α} {sealing : Bool}
    (h : Moves sealing last log p w) : Advances sealing last log (p w).2 := by
  unfold Moves wp at h
  rcases hp : p w with ⟨_ | _ | _, w'⟩ <;> rw [hp] at h <;> exact h

theorem serve_advances (sealer : Option Sealer) (h : Has last log w) (attempt : Attempt) :
    Advances (seals attempt.request) last log (serve sealer w attempt).2 := by
  obtain ⟨request, faults⟩ := attempt
  have hstart : Has last log { w with faults } := ⟨h.global, h.sealLog⟩
  cases request with
  | set key flags data => exact (vaultSet_moves key flags data hstart).after
  | get key offset size =>
    have hget : Stays last log (Request.run sealer (.get key offset size)) fun _ => True :=
      (vaultGet_stays key offset size).bind fun _ _ => .pure trivial
    exact (hget.moves hstart).after
  | getInfo key =>
    have hinfo : Stays last log (Request.run sealer (.getInfo key)) fun _ => True :=
      (vaultGetInfo_stays key).bind fun _ _ => .pure trivial
    exact (hinfo.moves hstart).after
  | remove key => exact ((vaultRemove_stays key).moves hstart).after

/-- The calls of the sealer, newest first, went up, and none went above the
stored counter. -/
structure Ordered (w : World) : Prop where
  below : ∀ record ∈ w.sealLog, record.counter ≤ (tableOf w.nvm).global
  rising : w.sealLog.Pairwise fun newer older => older.counter < newer.counter

theorem lt_succ {counter : Counter} (hroom : counter.toNat + 1 < 2 ^ 64) :
    counter < counter + 1 := by
  bv_omega

theorem Has.ordered {newer : List SealRecord} {raised : Counter} {w' : World}
    (h : Has raised newer w') (hbelow : ∀ record ∈ newer, record.counter ≤ raised)
    (hrising : newer.Pairwise fun newer older => older.counter < newer.counter) : Ordered w' := by
  refine ⟨?_, ?_⟩
  · rw [h.global, h.sealLog]
    exact hbelow
  · rw [h.sealLog]
    exact hrising

/-- A request that does not exhaust the counter keeps the order, and takes at
most one counter, and only to seal. -/
theorem Ordered.serve (sealer : Option Sealer) (hordered : Ordered w) (attempt : Attempt)
    (hroom : (tableOf w.nvm).global.toNat + (if seals attempt.request then 1 else 0) < 2 ^ 64) :
    Ordered (serve sealer w attempt).2 ∧
      (tableOf (VaultPowerLoss.serve sealer w attempt).2.nvm).global.toNat ≤
        (tableOf w.nvm).global.toNat +
          if seals attempt.request then 1 else 0 := by
  have hadvance := serve_advances sealer
    (⟨rfl, rfl⟩ : Has (tableOf w.nvm).global w.sealLog w) attempt
  rcases hadvance with hsame | ⟨hseals, hraised | ⟨record, hcounter, hsealed⟩⟩
  · refine ⟨Has.ordered hsame hordered.below hordered.rising, ?_⟩
    rw [hsame.global]
    exact Nat.le_add_right _ _
  all_goals
    rw [if_pos hseals] at hroom ⊢
    have hlt := lt_succ hroom
    have hbelow : ∀ record ∈ w.sealLog, record.counter < (tableOf w.nvm).global + 1 :=
      fun record hrecord =>
        Nat.lt_of_le_of_lt (hordered.below record hrecord) hlt
    have htoNat : ((tableOf w.nvm).global + 1).toNat ≤ (tableOf w.nvm).global.toNat + 1 := by
      bv_omega
  · refine ⟨Has.ordered hraised (fun record hrecord => BitVec.le_of_lt (hbelow record hrecord))
      hordered.rising, ?_⟩
    rw [hraised.global]
    exact htoNat
  · refine ⟨Has.ordered hsealed ?_ ?_, ?_⟩
    · intro found hfound
      rcases List.mem_cons.mp hfound with rfl | hold
      · rw [hcounter]
        exact BitVec.le_refl _
      · exact BitVec.le_of_lt (hbelow found hold)
    · refine List.pairwise_cons.mpr ⟨fun older holder => ?_, hordered.rising⟩
      rw [hcounter]
      exact hbelow older holder
    · rw [hsealed.global]
      exact htoNat

theorem Ordered.serveAll (hordered : Ordered w) (attempts : List Attempt)
    (hroom : (tableOf w.nvm).global.toNat +
      attempts.countP (fun attempt => seals attempt.request) < 2 ^ 64) :
    Ordered (serveAll sealer w attempts) := by
  induction attempts generalizing w with
  | nil => exact hordered
  | cons attempt rest ih =>
    rw [List.countP_cons] at hroom
    obtain ⟨hordered', hspent⟩ := Ordered.serve sealer hordered attempt (by omega)
    have hrest : (tableOf (VaultPowerLoss.serve sealer w attempt).2.nvm).global.toNat +
        rest.countP (fun attempt => seals attempt.request) < 2 ^ 64 := by
      omega
    exact ih hordered' hrest

/-- The nonce: the bytes of the counter, low byte first, and `WTPS`. -/
def sealNonce (counter : Counter) : Bytes :=
  List.ofFn (fun i : Fin 8 => UInt8.ofNat (counter.toNat / 256 ^ i.val)) ++ [0x57, 0x54, 0x50, 0x53]

theorem mod_pow_eq_of_digits {base a b : Nat} (n : Nat)
    (h : ∀ i < n, a / base ^ i % base = b / base ^ i % base) : a % base ^ n = b % base ^ n := by
  induction n with
  | zero => rw [pow_zero, Nat.mod_one, Nat.mod_one]
  | succ n ih =>
    rw [Nat.mod_pow_succ, Nat.mod_pow_succ, h n (Nat.lt_succ_self n),
      ih fun i hi => h i (Nat.lt_succ_of_lt hi)]

theorem sealNonce_injective : Function.Injective sealNonce := by
  intro a b h
  have hbytes := List.ofFn_injective (List.append_cancel_right h)
  have hdigit : ∀ i < 8, a.toNat / 256 ^ i % 256 = b.toNat / 256 ^ i % 256 :=
    fun i hi => congrArg UInt8.toNat (congrFun hbytes ⟨i, hi⟩)
  have hmod : a.toNat % 2 ^ 64 = b.toNat % 2 ^ 64 := mod_pow_eq_of_digits 8 hdigit
  rw [Nat.mod_eq_of_lt a.isLt, Nat.mod_eq_of_lt b.isLt] at hmod
  exact BitVec.eq_of_toNat_eq hmod

/-- Over every run of requests, whatever strikes them, the sealer is given
rising counters, and so never the same nonce twice, until a sealed set takes
the last of the counters. -/
theorem nonces_never_repeat (sealer : Option Sealer) (start : World)
    (attempts : List Attempt) (hstart : start.sealLog = [])
    (hroom : (tableOf start.nvm).global.toNat +
      attempts.countP (fun attempt => seals attempt.request) < 2 ^ 64) :
    let calls := (serveAll sealer start attempts).sealLog
    calls.Pairwise (fun newer older => older.counter < newer.counter) ∧
      (calls.map fun record => sealNonce record.counter).Nodup := by
  intro calls
  have hordered : Ordered start := by
    refine ⟨fun record hrecord => ?_, ?_⟩
    · rw [hstart] at hrecord
      cases hrecord
    · rw [hstart]
      exact List.Pairwise.nil
  have hrising : calls.Pairwise fun newer older =>
      older.counter < newer.counter := (hordered.serveAll attempts hroom).rising
  refine ⟨hrising, List.pairwise_map.mpr (hrising.imp ?_)⟩
  intro newer older hlt hsame
  rw [sealNonce_injective hsame] at hlt
  exact Nat.lt_irrefl _ hlt

/-- A set whose object is not written after its seal, and then another set. -/
theorem nonces_never_repeat_sample :
    let failed : Attempt := { firstSet with
      faults := List.replicate 37 noFault ++ [{ noFault with ending := .error .other }] }
    let calls := (serveAll (some sampleSealer) (emptyVault 6) [failed, firstSet]).sealLog
    calls.map SealRecord.counter = [8, 7] ∧
      (calls.map fun record => sealNonce record.counter).Nodup := by
  intro failed calls
  exact ⟨by decide +kernel, (nonces_never_repeat (some sampleSealer)
    (emptyVault 6) [failed, firstSet] rfl (by decide +kernel)).2⟩

/-- The counter wraps: two sealed sets at its end go down to zero. -/
theorem exhausted_counter_wraps : (serveAll (some sampleSealer) (emptyVault (BitVec.allOnes 64 - 1))
      [firstSet, firstSet]).sealLog.map SealRecord.counter = [0, BitVec.allOnes 64] := by
  decide +kernel

end Runs

end WolfTrust.VaultNonces
