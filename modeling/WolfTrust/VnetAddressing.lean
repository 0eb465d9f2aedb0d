import WolfTrust.VnetSwitch

namespace WolfTrust.VnetAddressing

open VnetFdb VnetSwitch

variable {fdb : Fdb} {mac : Mac} {i : Nat} {vm : Nat}

theorem Fdb.find_some {p : FdbEntry → Bool}
    (h : fdb.find p = some i) : i < fdb.capacity ∧ p (fdb.entries i) = true := by
  unfold Fdb.find at h
  have hp := List.find?_some h
  exact ⟨List.mem_range.mp (List.mem_of_find?_eq_some h), hp⟩

theorem Fdb.find_none {p : FdbEntry → Bool} (h : fdb.find p = none)
    (hi : i < fdb.capacity) : p (fdb.entries i) = false := by
  unfold Fdb.find at h
  simpa using List.find?_eq_none.mp h i (List.mem_range.mpr hi)

theorem findMac_some (h : fdb.findMac mac = some i) :
    i < fdb.capacity ∧ (fdb.entries i).kind ≠ .empty ∧ (fdb.entries i).mac = mac := by
  obtain ⟨hi, hp⟩ := Fdb.find_some h
  rw [Bool.and_eq_true, bne_iff_ne, macEquals_iff] at hp
  exact ⟨hi, hp⟩

theorem findMac_none (h : fdb.findMac mac = none) (hi : i < fdb.capacity)
    (hkind : (fdb.entries i).kind ≠ .empty) : (fdb.entries i).mac ≠ mac := by
  intro heq
  have hp := Fdb.find_none h hi
  rw [heq, (macEquals_iff mac mac).mpr rfl, Bool.and_true, bne_eq_false_iff_eq] at hp
  exact hkind hp

/-- What the forwarding of a frame looks at. -/
@[ext]
structure Directory where
  fdb : Fdb
  mac : Nat → Option Mac
  nvm : Nat
  unknownUnicastFlood : Bool

def directory (sw : Switch) : Directory :=
  { fdb := sw.fdb
    mac := fun vm => (sw.vnics vm).mac
    nvm := sw.nvm
    unknownUnicastFlood := sw.unknownUnicastFlood }

/-- The table holds the guests' own addresses, and all of them. -/
structure Addressed (dir : Directory) : Prop where
  owned : ∀ i < dir.fdb.capacity, (dir.fdb.entries i).kind ≠ .empty →
    (dir.fdb.entries i).kind = .assigned ∧ (dir.fdb.entries i).guestId ≠ fdbNoVm ∧
      dir.mac (dir.fdb.entries i).guestId = some (dir.fdb.entries i).mac
  listed : ∀ vm mac, dir.mac vm = some mac → ∃ i < dir.fdb.capacity,
    dir.fdb.entries i = { mac, guestId := vm, kind := .assigned }

section Forwarding

variable {sw : Switch} (h : Addressed (directory sw))

include h

theorem fdbLearn_eq (hmac : (sw.vnics vm).mac = some mac)
    (guest : Nat) : (fdbLearn sw.fdb guest mac).2 = sw.fdb := by
  obtain ⟨i, hi, hentry⟩ := h.listed vm mac hmac
  have hi : i < sw.fdb.capacity := hi
  have hentry : sw.fdb.entries i =
      { mac, guestId := vm, kind := .assigned } := hentry
  unfold fdbLearn
  split
  · rfl
  split
  · rfl
  split
  · rename_i k hfound
    obtain ⟨hk, hkind, -⟩ := findMac_some hfound
    have hassigned : (sw.fdb.entries k).kind = .assigned := (h.owned k hk hkind).1
    rw [if_pos hassigned]
    split
    · rfl
    · rfl
  · rename_i hnone
    exact absurd (by rw [hentry]) (findMac_none hnone hi (by rw [hentry]; simp))

theorem fdbLookup_cases (mac : Mac) : fdbLookup sw.fdb mac ≠ fdbNoVm ∧
        (sw.vnics (fdbLookup sw.fdb mac)).mac = some mac ∨
      fdbLookup sw.fdb mac = fdbNoVm ∧ ((macIsMulticast mac || macIsZero mac) = true ∨
          ∀ vm, (sw.vnics vm).mac ≠ some mac) := by
  unfold fdbLookup
  split
  · rename_i hbad
    exact .inr ⟨rfl, .inl hbad⟩
  cases hfound : sw.fdb.findMac mac with
  | some i =>
    obtain ⟨hi, hkind, hmac⟩ := findMac_some hfound
    obtain ⟨-, hvm, howner⟩ := h.owned i hi hkind
    refine .inl ⟨hvm, ?_⟩
    rw [← hmac]
    exact howner
  | none =>
    refine .inr ⟨rfl, .inr fun vm hvm => ?_⟩
    obtain ⟨i, hi, hentry⟩ := h.listed vm mac hvm
    have hentry : sw.fdb.entries i =
        { mac, guestId := vm, kind := .assigned } := hentry
    exact findMac_none hfound hi (by rw [hentry]; simp) (by rw [hentry])

end Forwarding

/-- The rule by which a frame for `dst` may go to guest `j`. -/
def Admits (sw : Switch) (dst : Mac) (j : Nat) : Prop :=
  macIsMulticast dst = true ∨ (sw.vnics j).mac = some dst ∨
    sw.unknownUnicastFlood = true ∧ ∀ vm, (sw.vnics vm).mac ≠ some dst

theorem destinations_admitted {sw : Switch} (h : Addressed (directory sw))
    {srcVm : Nat} {dst : Mac} (hdst : macIsZero dst = false) {j : Nat}
    (hj : j ∈ destinations sw srcVm dst) : j ≠ srcVm ∧ Admits sw dst j := by
  have hothers : j ∈ (List.range sw.nvm).filter (· ≠ srcVm) → j ≠ srcVm :=
    fun hmem => of_decide_eq_true (List.mem_filter.mp hmem).2
  unfold destinations at hj
  split at hj
  · rename_i hmulti
    exact ⟨hothers hj, .inl hmulti⟩
  rename_i huni
  rw [Bool.not_eq_true] at huni
  dsimp only at hj
  split at hj
  · rename_i hfound
    split at hj
    · obtain rfl := List.mem_singleton.mp hj
      rcases fdbLookup_cases h dst with ⟨-, howner⟩ | ⟨hnone, -⟩
      · exact ⟨hfound.2, .inr (.inl howner)⟩
      · exact absurd hnone hfound.1
    · cases hj
  · split at hj
    · rename_i hflood
      rcases fdbLookup_cases h dst with ⟨hsome, -⟩ | ⟨-, hbad | hnone⟩
      · exact absurd hflood.1 hsome
      · rw [huni, hdst] at hbad
        cases hbad
      · exact ⟨hothers hj, .inr (.inr ⟨hflood.2, hnone⟩)⟩
    · cases hj

section Steps

theorem directory_setVnic {sw : Switch} {v : Vnic} (hmac : v.mac = (sw.vnics vm).mac) :
    directory (sw.setVnic vm v) = directory sw := by
  refine Directory.ext rfl (funext fun other => ?_) rfl rfl
  show (Function.update sw.vnics vm v other).mac = (sw.vnics other).mac
  by_cases heq : other = vm
  · rw [heq, Function.update_self, hmac]
  · rw [Function.update_of_ne heq]

theorem directory_tryDeliverOne (sw : Switch) (dst slot : Nat) (gen : UInt16) (len srcVm : Nat) :
    directory (tryDeliverOne sw dst slot gen len srcVm).2 = directory sw := by
  unfold tryDeliverOne
  dsimp only
  split
  · rfl
  split
  · rfl
  · rename_i rxq _
    split
    · exact directory_setVnic rfl
    · exact directory_setVnic (v := { sw.vnics dst with rxq, rxIrqPending := true }) rfl

theorem directory_deliveries (slot : Nat) (gen : UInt16) (len srcVm : Nat)
    (dsts : List Nat) (n : Nat) (sw : Switch) :
    directory (dsts.foldl (deliver slot gen len srcVm) (n, sw)).2 = directory sw := by
  induction dsts generalizing n sw with
  | nil => rfl
  | cons dst dsts ih =>
    have hone := directory_tryDeliverOne sw dst slot gen len srcVm
    rw [List.foldl_cons, deliver]
    split
    · rename_i sent hsent
      rw [hsent] at hone
      exact (ih _ sent).trans hone
    · rename_i sent hsent
      rw [hsent] at hone
      exact (ih _ sent).trans hone

theorem directory_dropScratch (sw : Switch) (slot : Nat) (gen : UInt16) :
    directory (dropScratch sw slot gen) = directory sw := by
  unfold dropScratch
  split
  · rfl
  · rfl

theorem directory_forward (sw : Switch) (srcVm slot : Nat) (frame : List UInt8) :
    directory (forward sw srcVm slot frame).2 = directory sw := by
  have hsent := directory_deliveries slot (sw.pool.slots slot).gen frame.length
    srcVm (destinations sw srcVm (macAt frame 0)) 0 sw
  unfold forward
  dsimp only
  split
  · exact directory_dropScratch ..
  split
  · split
    · exact (directory_dropScratch ..).trans hsent
    · exact (directory_dropScratch ..).trans hsent
  · exact (directory_dropScratch ..).trans hsent

theorem directory_skipStaleHead (sw : Switch) (vm : Nat) :
    directory (skipStaleHead sw vm) = directory sw := directory_setVnic rfl

theorem directory_setIrq (sw : Switch) (vm : Nat) (pending : Bool) :
    directory (sw.setIrq vm pending) = directory sw := directory_setVnic rfl

theorem directory_sweep (sw : Switch) (vm : Nat) : directory (sweep sw vm) = directory sw := by
  unfold sweep
  dsimp only
  split
  · exact (directory_setIrq ..).trans (directory_skipStaleHead sw vm)
  · exact directory_skipStaleHead sw vm

theorem directory_consumeHead (sw : Switch) (vm slot : Nat) (gen : UInt16) :
    directory (consumeHead sw vm slot gen).2 = directory sw := by
  have hdropped : directory (sw.setVnic vm
      { sw.vnics vm with
        rxq := (ringDropHead (sw.vnics vm).rxq).toOption.getD (sw.vnics vm).rxq })
      = directory sw := directory_setVnic rfl
  unfold consumeHead
  dsimp only
  split
  · exact hdropped
  · split
    · exact (directory_setIrq ..).trans hdropped
    · exact hdropped

/-- Only an assignment changes who owns which address, where the guests' own
addresses are not learned anew. -/
theorem directory_step {sw : Switch} (h : ∀ vm mac, (sw.vnics vm).mac = some mac → ∀ guest,
      (fdbLearn sw.fdb guest mac).2 = sw.fdb) {op : Op}
    (hop : ∀ vm mac, op ≠ .assignMac vm mac) :
    directory (step sw op) = directory sw := by
  cases op with
  | openVnic =>
    unfold step switchOpen
    dsimp only
    split
    · rfl
    · exact directory_setVnic rfl
  | assignMac vm mac => exact absurd rfl (hop vm mac)
  | tx srcVm frame tick =>
    show directory (switchTx sw srcVm frame (UInt32.ofNat tick)).2 = _
    obtain ⟨e, heq⟩ | ⟨hmac, heq⟩ := switchTx_checked sw srcVm frame (UInt32.ofNat tick)
    · rw [heq]
    rw [h srcVm _ hmac srcVm] at heq
    obtain heq | ⟨slot, pool, -, heq⟩ := heq <;> rw [heq]
    exact directory_forward ..
  | pollRx vm =>
    unfold step switchPollRx
    dsimp only
    repeat' split
    any_goals rfl
    · exact (directory_setIrq ..).trans (directory_skipStaleHead sw vm)
    all_goals exact directory_skipStaleHead sw vm
  | readRx vm =>
    unfold step switchReadRx
    dsimp only
    repeat' split
    any_goals rfl
    all_goals exact directory_skipStaleHead sw vm
  | releaseRx vm =>
    unfold step switchReleaseRx
    dsimp only
    repeat' split
    any_goals rfl
    iterate 2 exact directory_skipStaleHead sw vm
    exact (directory_consumeHead ..).trans (directory_skipStaleHead sw vm)
  | irqAck vm =>
    unfold step switchIrqAck
    dsimp only
    repeat' split
    any_goals rfl
    all_goals exact (directory_setIrq ..).trans (directory_skipStaleHead sw vm)
  | dropExpired =>
    unfold step switchDropExpired
    dsimp only
    split
    · refine List.foldlRecOn (motive := fun after => directory after =
        directory sw) _ sweep rfl fun after hafter vm _ => ?_
      exact (directory_sweep after vm).trans hafter
    · rfl

end Steps

section Assignment

variable {dir : Directory} (h : Addressed dir)

include h

theorem room_empty (hroom : dir.fdb.room = some i) :
    i < dir.fdb.capacity ∧ (dir.fdb.entries i).kind = .empty := by
  unfold Fdb.room at hroom
  cases hempty : dir.fdb.findEmpty with
  | some =>
    rw [hempty, Option.some_or] at hroom
    obtain rfl := Option.some.inj hroom
    obtain ⟨hk, hkind⟩ := Fdb.find_some hempty
    exact ⟨hk, eq_of_beq hkind⟩
  | none =>
    rw [hempty, Option.none_or] at hroom
    obtain ⟨hi, hkind⟩ := Fdb.find_some hroom
    have hlearned : (dir.fdb.entries i).kind = .learned := eq_of_beq hkind
    have howned := (h.owned i hi (by rw [hlearned]; simp)).1
    rw [hlearned] at howned
    cases howned

theorem Addressed.assign (hassign : fdbAssign dir.fdb vm mac = (.ok (), fdb)) :
    Addressed { dir with fdb, mac := Function.update dir.mac vm (some mac) } := by
  unfold fdbAssign at hassign
  split at hassign
  · cases hassign
  rename_i hvm
  split at hassign
  · cases hassign
  split at hassign
  · -- the address is in the table: it is the guest's already
    rename_i i hfound
    obtain ⟨hi, hkind, hmac⟩ := findMac_some hfound
    obtain ⟨hassigned, -, howner⟩ := h.owned i hi hkind
    rw [if_pos hassigned] at hassign
    split at hassign
    · rename_i hguest
      obtain rfl : dir.fdb = fdb := congrArg Prod.snd hassign
      rw [hguest, hmac] at howner
      rw [← howner, Function.update_eq_self]
      exact h
    · cases hassign
  · rename_i hnone
    split at hassign
    · cases hassign
    rename_i hfirst
    have hfresh : dir.fdb.findAssignedByGuest vm = none := by simpa using hfirst
    split at hassign
    · cases hassign
    rename_i i hroom
    obtain ⟨hi, hempty⟩ := room_empty h hroom
    obtain rfl : dir.fdb.set i { mac, guestId := vm, kind := .assigned } = fdb :=
      congrArg Prod.snd hassign
    constructor
    · intro k hk hkind
      by_cases heq : k = i
      · subst heq
        simpa [Fdb.set] using hvm
      · simp only [Fdb.set, Function.update_of_ne heq] at hkind ⊢
        obtain ⟨hassigned, hid, howner⟩ := h.owned k hk hkind
        have hother : (dir.fdb.entries k).guestId ≠ vm := by
          intro hsame
          have hp := Fdb.find_none hfresh hk
          simp [hassigned, hsame] at hp
        rw [Function.update_of_ne hother]
        exact ⟨hassigned, hid, howner⟩
    · intro other own hother
      dsimp only at hother
      by_cases heq : other = vm
      · subst heq
        rw [Function.update_self] at hother
        obtain rfl := Option.some.inj hother
        exact ⟨i, hi, by simp [Fdb.set]⟩
      · rw [Function.update_of_ne heq] at hother
        obtain ⟨k, hk, hentry⟩ := h.listed other own hother
        have hne : k ≠ i := by
          rintro rfl
          rw [hentry] at hempty
          cases hempty
        exact ⟨k, hk, by simp [Fdb.set, hne, hentry]⟩

end Assignment

theorem directory_assign (sw : Switch) (vm : Nat) (mac : Mac) (fdb : Fdb) :
    directory { sw.setVnic vm { sw.vnics vm with mac := some mac } with fdb } =
      { directory sw with fdb, mac := Function.update (directory sw).mac vm (some mac) } := by
  have hmacs : (fun other => (Function.update sw.vnics vm
      { sw.vnics vm with mac := some mac } other).mac) =
        Function.update (directory sw).mac vm (some mac) :=
    Function.comp_update Vnic.mac sw.vnics vm _
  rw [← hmacs]
  rfl

theorem switchAssignMac_addressed {sw : Switch} (h : Addressed (directory sw)) (vm : Nat)
    (mac : Mac) : Addressed (directory (switchAssignMac sw vm mac).2) := by
  obtain ⟨e, heq⟩ | ⟨fdb, hassign, heq⟩ := switchAssignMac_checked sw vm mac <;> rw [heq]
  · exact h
  · rw [directory_assign]
    exact Addressed.assign h hassign

theorem step_addressed {sw : Switch} (h : Addressed (directory sw)) (op : Op) :
    Addressed (directory (step sw op)) := by
  by_cases hop : ∀ vm mac, op ≠ .assignMac vm mac
  · rw [directory_step (fun _ _ hmac => fdbLearn_eq h hmac) hop]
    exact h
  · push Not at hop
    obtain ⟨vm, mac, rfl⟩ := hop
    exact switchAssignMac_addressed h vm mac

theorem switchInit_addressed {s : Storage} {sw : Switch}
    (h : switchInit s = .ok sw) : Addressed (directory sw) := by
  unfold switchInit at h
  split at h
  · cases h
  · cases h
    constructor
    · intro i hi hkind
      have hi : i < s.fdbCapacity := hi
      simp [directory, fdbInit, hi] at hkind
    · intro vm mac hmac
      cases hmac

end WolfTrust.VnetAddressing
