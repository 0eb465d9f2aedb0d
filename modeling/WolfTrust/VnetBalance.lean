import WolfTrust.VnetAccounting

namespace WolfTrust.VnetBalance

open RingBuffer StepRuns VnetAccounting VnetFdb VnetSwitch

theorem ringPush_cases {r r' : Circular Desc} {d : Desc} (h : ringPush r d = .ok r') :
    r'.toList = r.toList ++ [d] := by
  unfold ringPush at h
  split at h
  · cases h
  · split at h
    case isTrue hroom =>
      cases h
      exact Circular.toList_push r d hroom
    case isFalse => cases h

theorem ringPeek_cases {r : Circular Desc} {d : Desc} (h : ringPeek r = .ok d) :
    ∃ q, r.toList = d :: q ∧ ∃ r', ringDropHead r = .ok r' ∧ r'.toList = q := by
  unfold ringPeek at h
  split at h
  case isTrue => cases h
  case isFalse hcap =>
    by_cases hcount : r.count = 0
    · simp [Circular.peek, hcount] at h
    · simp only [Circular.peek, if_neg hcount, Except.ok.injEq] at h
      refine ⟨_, h ▸ Circular.toList_eq_cons r hcount, r.dropHead hcount, ?_, rfl⟩
      rw [ringDropHead, if_neg hcap, dif_pos hcount]

theorem poolRef_cases {p p' : Pool} {slot : Nat} {gen : UInt16} (h : poolRef p slot gen = .ok p') :
    p' = recount p slot ((p.slots slot).refcnt + 1) := by
  unfold poolRef at h
  split_ifs at h
  exact (Except.ok.inj h).symm

theorem poolRelease_of_used {p : Pool} {slot : Nat} (hslot : slot < p.slotCount)
    (hused : (p.slots slot).refcnt ≠ 0) :
    poolRelease p slot (p.slots slot).gen =
      .ok (decide ((p.slots slot).refcnt - 1 = 0), p.unref slot) := by
  simp [poolRelease, Nat.not_le.mpr hslot, hused]

section Quiet

variable {sw : Switch} {vm : Nat}

theorem ledger_setVnic_same {v : Vnic} (hrxq : v.rxq.toList = (sw.vnics vm).rxq.toList)
    (hirq : v.rxIrqPending = (sw.vnics vm).rxIrqPending) :
    ledger (sw.setVnic vm v) = ledger sw := by
  rw [ledger_setVnic, hrxq, hirq]
  exact congrArg₂ (fun queue pending => { ledger sw with queue, pending })
    (Function.update_eq_self vm (ledger sw).queue)
    (Function.update_eq_self vm (ledger sw).pending)

theorem ledger_skipStaleHead {start now : Nat} {scratch : Option Nat}
    (h : Accounts start now scratch (ledger sw)) (hvm : vm < sw.nvm) :
    ledger (skipStaleHead sw vm) = ledger sw := by
  refine ledger_setVnic_same ?_ rfl
  rw [Circular.toList_dropStale (Nat.le_refl _)]
  cases hq : (sw.vnics vm).rxq.toList with
  | nil => rfl
  | cons d =>
    have hfresh : stale sw.pool d = false :=
      h.live vm hvm d (show d ∈ (sw.vnics vm).rxq.toList by simp [hq])
    rw [List.dropWhile_cons_of_neg (by simp [hfresh])]

theorem ledger_setIrq {start now : Nat} {scratch : Option Nat}
    (h : Accounts start now scratch (ledger sw)) (hvm : vm < sw.nvm) {b : Bool}
    (hb : b = true ↔ (sw.vnics vm).rxq.count ≠ 0) : ledger (sw.setIrq vm b) = ledger sw := by
  refine ledger_setVnic_same rfl (Bool.eq_iff_iff.mpr ?_)
  have hnil := not_congr (Circular.toList_eq_nil_iff (sw.vnics vm).rxq)
  exact hb.trans (hnil.symm.trans (h.irq vm hvm).symm)

end Quiet

/-- A transmission with its frame in a slot. -/
structure Carrying (start now nvm slot : Nat) (gen : UInt16) (sw : Switch) : Prop where
  accounts : Accounts start now (some slot) (ledger sw)
  nvm_eq : sw.nvm = nvm
  slot_lt : slot < sw.pool.slotCount
  gen_eq : (sw.pool.slots slot).gen = gen
  born : age start (sw.pool.slots slot).bornTick = now - start

section Transmission

variable {start now nvm slot : Nat} {gen : UInt16} {sw : Switch}

theorem tryDeliverOne_carrying (h : Carrying start now nvm slot gen sw) {dst : Nat}
    (hdst : dst < nvm) (len srcVm : Nat) :
    Carrying start now nvm slot gen (tryDeliverOne sw dst slot gen len srcVm).2 := by
  unfold tryDeliverOne
  dsimp only
  split
  case isTrue => exact h
  case isFalse =>
    split
    case h_1 => exact h
    case h_2 rxq hpush =>
      have hlist := ringPush_cases hpush
      split
      case h_1 =>
        -- the ring is as it was before the push
        have hcount : rxq.count ≠ 0 := by
          rw [← Circular.toList_length, hlist]
          simp
        have hsame : ledger (sw.setVnic dst
            { sw.vnics dst with rxq := rxq.unpush hcount }) = ledger sw := by
          refine ledger_setVnic_same ?_ rfl
          rw [Circular.toList_unpush, hlist, List.dropLast_concat]
        simp only [dif_pos hcount]
        exact { h with accounts := hsame ▸ h.accounts }
      case h_2 pool hpool =>
        obtain rfl := poolRef_cases hpool
        constructor
        case accounts =>
          have hmore := h.accounts.enqueue (d := { slot, gen, len, flags := 0, srcVm })
            (show dst < sw.nvm from h.nvm_eq ▸ hdst) h.slot_lt h.gen_eq h.born
          have hledger := ledger_setVnic sw dst
            { sw.vnics dst with rxq, rxIrqPending := true }
          rw [hlist] at hledger
          exact (congrArg (fun l : Ledger =>
            Accounts start now (some slot)
              { l with pool := recount sw.pool slot ((sw.pool.slots slot).refcnt + 1) })
            hledger).mpr hmore
        case nvm_eq => exact h.nvm_eq
        case slot_lt => exact h.slot_lt
        case gen_eq => exact (recount_gen _ _ _ _).trans h.gen_eq
        case born =>
          show age start ((recount _ _ _).slots slot).bornTick = _
          rw [recount_bornTick]
          exact h.born

theorem deliveries_carrying (h : Carrying start now nvm slot gen sw) {dsts : List Nat}
    (hdsts : ∀ dst ∈ dsts, dst < nvm) (len srcVm n : Nat) :
    Carrying start now nvm slot gen (dsts.foldl (deliver slot gen len srcVm) (n, sw)).2 := by
  induction dsts generalizing n sw with
  | nil => exact h
  | cons dst dsts ih =>
    have hone := tryDeliverOne_carrying h (hdsts dst List.mem_cons_self) len srcVm
    have hrest : ∀ d ∈ dsts, d < nvm := fun d hd => hdsts d (List.mem_cons_of_mem dst hd)
    rw [List.foldl_cons, deliver]
    split
    case h_1 sent hsent =>
      rw [hsent] at hone
      exact ih hone hrest _
    case h_2 sent hsent =>
      rw [hsent] at hone
      exact ih hone hrest _

theorem destinations_lt (sw : Switch) (srcVm : Nat) (mac : Mac) :
    ∀ dst ∈ destinations sw srcVm mac, dst < sw.nvm := by
  have hall : ∀ dst ∈ (List.range sw.nvm).filter (· ≠ srcVm), dst < sw.nvm :=
    fun dst hdst => List.mem_range.mp (List.mem_filter.mp hdst).1
  unfold destinations
  split
  · exact hall
  · dsimp only
    split
    · split
      case isTrue hlt =>
        intro dst hdst
        rwa [List.mem_singleton.mp hdst]
      case isFalse => simp
    · split
      · exact hall
      · simp

theorem dropScratch_accounts (h : Carrying start now nvm slot gen sw) :
    Accounts start now none (ledger (dropScratch sw slot gen)) := by
  have hcount := h.accounts.counted slot h.slot_lt
  rw [if_pos rfl] at hcount
  have hused : (sw.pool.slots slot).refcnt ≠ 0 := by
    rw [show (sw.pool.slots slot).refcnt = _ from hcount]
    omega
  have hrelease := poolRelease_of_used h.slot_lt hused
  rw [h.gen_eq] at hrelease
  rw [dropScratch, hrelease]
  exact h.accounts.unref h.slot_lt

theorem forward_accounts (h : Carrying start now nvm slot (sw.pool.slots slot).gen sw)
    (srcVm : Nat) (frame : List UInt8) :
    Accounts start now none (ledger (forward sw srcVm slot frame).2) := by
  unfold forward
  dsimp only
  split
  · exact dropScratch_accounts h
  · have hsent := deliveries_carrying h
      (fun dst hdst => h.nvm_eq ▸ destinations_lt sw srcVm (macAt frame 0) dst hdst)
      frame.length srcVm 0
    have hdropped := dropScratch_accounts hsent
    split
    · split
      · exact hdropped
      · exact hdropped
    · exact hdropped

theorem fill_accounts {l : Ledger} (h : Accounts start now (some slot) l)
    (frame : List UInt8) (srcVm : Nat) :
    Accounts start now (some slot) { l with pool := l.pool.fill slot frame srcVm } := by
  have hsame : ∀ i, ((l.pool.fill slot frame srcVm).slots i).refcnt = (l.pool.slots i).refcnt ∧
      ((l.pool.fill slot frame srcVm).slots i).gen = (l.pool.slots i).gen ∧
      ((l.pool.fill slot frame srcVm).slots i).bornTick = (l.pool.slots i).bornTick := by
    intro i
    by_cases heq : i = slot
    · simp [Pool.fill, Pool.set, heq]
    · simp [Pool.fill, Pool.set, heq]
  constructor
  case counted => exact fun i hi => (hsame i).1.trans (h.counted i hi)
  case live =>
    intro vm hvm d hd
    have hfresh := (stale_eq_false_iff _ _).mp (h.live vm hvm d hd)
    rw [stale_eq_false_iff]
    dsimp only
    rw [(hsame d.slot).1, (hsame d.slot).2.1]
    exact hfresh
  case used =>
    refine h.used.trans (Finset.sum_congr rfl fun i _ => ?_)
    simp only [busy, (hsame i).1]
  case aged =>
    intro i hi hused
    dsimp only at hused ⊢
    rw [(hsame i).1] at hused
    rw [(hsame i).2.2]
    exact h.aged i hi hused
  case ordered =>
    exact fun vm hvm => (h.ordered vm hvm).congr fun d _ => (hsame d.slot).2.2
  case irq => exact h.irq

end Transmission

section Operations

variable {start now : Nat} {sw : Switch}

theorem switchTx_accounts (h : Accounts start now none (ledger sw)) (srcVm : Nat)
    (frame : List UInt8) (hfrom : start ≤ now) (hspan : now < start + 2 ^ 32) :
    Accounts start now none (ledger (switchTx sw srcVm frame (UInt32.ofNat now)).2) := by
  obtain ⟨e, heq⟩ | ⟨-, heq | ⟨slot, pool, halloc, heq⟩⟩ :=
    switchTx_checked sw srcVm frame (UInt32.ofNat now) <;> rw [heq]
  iterate 2 exact h
  unfold poolAlloc at halloc
  obtain ⟨_, hfree, hpool⟩ := Option.map_eq_some_iff.mp halloc
  cases hpool
  have hslot : slot < sw.pool.slotCount := List.mem_range.mp (List.mem_of_find?_eq_some hfree)
  have hborn : (((sw.pool.take slot (UInt32.ofNat now)).fill slot frame
      srcVm).slots slot).bornTick = UInt32.ofNat now := by
    simp [Pool.fill, Pool.take, Pool.set]
  show Accounts start now none (ledger (forward
    { sw with
      fdb := (fdbLearn sw.fdb srcVm (macAt frame vnetMacLen)).2
      pool := (sw.pool.take slot (UInt32.ofNat now)).fill slot frame srcVm }
    srcVm slot frame).2)
  apply forward_accounts
  constructor
  case accounts => exact fill_accounts (h.take hfree hfrom hspan) frame srcVm
  case nvm_eq => rfl
  case slot_lt => exact hslot
  case gen_eq => rfl
  case born =>
    dsimp only
    rw [hborn, age_ofNat hfrom hspan]

theorem consumeHead_ledger (h : Accounts start now none (ledger sw)) {vm : Nat}
    (hvm : vm < sw.nvm) {d : Desc} (hpeek : ringPeek (sw.vnics vm).rxq = .ok d) :
    (consumeHead sw vm d.slot d.gen).1 = .ok () ∧ ∃ q, (ledger sw).queue vm = d :: q ∧
        ledger (consumeHead sw vm d.slot d.gen).2 =
          { ledger sw with
            pool := sw.pool.unref d.slot
            queue := Function.update (ledger sw).queue vm q
            pending := Function.update (ledger sw).pending vm (!q.isEmpty) } := by
  obtain ⟨q, hq, rxq, hdrop, hrest⟩ := ringPeek_cases hpeek
  have hin : d ∈ (sw.vnics vm).rxq.toList := by
    rw [hq]
    exact List.mem_cons_self
  obtain ⟨hslot, hused, hgen⟩ := (stale_eq_false_iff _ _).mp (h.live vm hvm d hin)
  have hrelease := poolRelease_of_used hslot hused
  rw [hgen] at hrelease
  change poolRelease sw.pool d.slot d.gen = _ at hrelease
  -- the interrupt stays pending as long as the ring has a descriptor
  have hpending : (sw.vnics vm).rxIrqPending = true := (h.irq vm hvm).mpr (List.ne_nil_of_mem hin)
  have hempty : rxq.count = 0 ↔ q = [] := by rw [← hrest, Circular.toList_eq_nil_iff]
  have hpool : (sw.setVnic vm { sw.vnics vm with rxq }).pool = sw.pool := rfl
  simp only [consumeHead, hdrop, Except.toOption, Option.getD_some, hpool, hrelease, true_and]
  refine ⟨q, hq, ?_⟩
  simp only [ledger]
  congr 1
  · split <;> rfl
  · split <;> rfl
  · funext v
    by_cases heq : v = vm
    · subst heq
      split <;> simp [Switch.setIrq, Switch.setVnic, hrest]
    · split <;> simp [Switch.setIrq, Switch.setVnic, heq]
  · funext v
    by_cases heq : v = vm
    · subst heq
      split
      case isTrue hnone => simp [Switch.setIrq, Switch.setVnic, hempty.mp hnone]
      case isFalse hsome =>
        have hne : q ≠ [] := fun hnil => hsome (hempty.mpr hnil)
        simp [Switch.setVnic, hpending, hne]
    · split <;> simp [Switch.setIrq, Switch.setVnic, heq]

theorem ledger_switchPollRx (h : Accounts start now none (ledger sw)) (vm : Nat) :
    ledger (switchPollRx sw vm).2 = ledger sw := by
  unfold switchPollRx
  split
  · rfl
  case isFalse hvm =>
    split
    · rfl
    · have hskip := ledger_skipStaleHead h (Nat.not_le.mp hvm)
      rw [← hskip] at h
      dsimp only
      split
      case isTrue hempty =>
        rw [ledger_setIrq h (Nat.not_le.mp hvm) (by simp [hempty]), hskip]
      case isFalse =>
        split
        · exact hskip
        · exact hskip

theorem ledger_switchReadRx (h : Accounts start now none (ledger sw)) (vm slot : Nat)
    (gen : UInt16) (dstLen : Nat) : ledger (switchReadRx sw vm slot gen dstLen).2 = ledger sw := by
  unfold switchReadRx
  split
  · rfl
  rename_i hvm
  have hskip := ledger_skipStaleHead h (Nat.not_le.mp hvm)
  dsimp only
  repeat' split
  any_goals rfl
  all_goals exact hskip

theorem switchReleaseRx_cases (h : Accounts start now none (ledger sw))
    (vm slot : Nat) (gen : UInt16) :
    (∃ e, (switchReleaseRx sw vm slot gen).1 = .error e ∧
        ledger (switchReleaseRx sw vm slot gen).2 = ledger sw) ∨
      (switchReleaseRx sw vm slot gen).1 = .ok () ∧ vm < sw.nvm ∧
        ∃ d q, (ledger sw).queue vm = d :: q ∧ d.slot = slot ∧ d.gen = gen ∧
          ledger (switchReleaseRx sw vm slot gen).2 =
            { ledger sw with
              pool := sw.pool.unref d.slot
              queue := Function.update (ledger sw).queue vm q
              pending := Function.update (ledger sw).pending vm (!q.isEmpty) } := by
  unfold switchReleaseRx
  split
  · exact .inl ⟨_, rfl, rfl⟩
  case isFalse hvm =>
    split
    · exact .inl ⟨_, rfl, rfl⟩
    · have hskip := ledger_skipStaleHead h (Nat.not_le.mp hvm)
      have hpool : (skipStaleHead sw vm).pool = sw.pool := rfl
      rw [← hskip] at h
      dsimp only
      split
      · exact .inl ⟨_, rfl, hskip⟩
      case h_2 head hpeek =>
        split
        · exact .inl ⟨_, rfl, hskip⟩
        case isFalse hown =>
          obtain ⟨rfl, rfl⟩ : head.slot = slot ∧ head.gen = gen := by
            simpa only [not_or, not_not] using hown
          obtain ⟨hok, q, hq, hledger⟩ :=
            consumeHead_ledger h (Nat.not_le.mp hvm) hpeek
          rw [hskip] at hq hledger
          rw [hpool] at hledger
          exact .inr ⟨hok, Nat.not_le.mp hvm, head, q, hq, rfl, rfl, hledger⟩

theorem switchReleaseRx_accounts (h : Accounts start now none (ledger sw)) (vm slot : Nat)
    (gen : UInt16) : Accounts start now none (ledger (switchReleaseRx sw vm slot gen).2) := by
  obtain ⟨e, -, hledger⟩ | ⟨-, hvm, d, q, hq, -, -, hledger⟩ :=
    switchReleaseRx_cases h vm slot gen
  · rw [hledger]
    exact h
  · have hin : d ∈ (ledger sw).queue vm := by
      rw [hq]
      exact List.mem_cons_self
    have hslot := ((stale_eq_false_iff _ _).mp (h.live vm hvm d hin)).1
    rw [hledger]
    exact (h.dequeue hvm hq).unref hslot

theorem ledger_switchIrqAck (h : Accounts start now none (ledger sw)) (vm : Nat) :
    ledger (switchIrqAck sw vm).2 = ledger sw := by
  unfold switchIrqAck
  split
  · rfl
  case isFalse hvm =>
    split
    · rfl
    · have hskip := ledger_skipStaleHead h (Nat.not_le.mp hvm)
      rw [← hskip] at h
      dsimp only
      split
      case isTrue hempty =>
        rw [ledger_setIrq h (Nat.not_le.mp hvm) (by simp [hempty]), hskip]
      case isFalse hsome =>
        rw [ledger_setIrq h (Nat.not_le.mp hvm) (by simp [hsome]), hskip]

theorem ledger_sweep (sw : Switch) (vm : Nat) : ledger (sweep sw vm) =
      { ledger sw with
        queue := Function.update (ledger sw).queue vm
          (((ledger sw).queue vm).dropWhile (stale sw.pool))
        pending := Function.update (ledger sw).pending vm ((ledger sw).pending vm &&
            !(((ledger sw).queue vm).dropWhile (stale sw.pool)).isEmpty) } := by
  have hlist : ((skipStaleHead sw vm).vnics vm).rxq.toList =
      ((ledger sw).queue vm).dropWhile (stale sw.pool) := by
    simp only [skipStaleHead, Switch.setVnic, Function.update_self]
    exact Circular.toList_dropStale (Nat.le_refl _)
  have hempty := Circular.toList_eq_nil_iff ((skipStaleHead sw vm).vnics vm).rxq
  rw [hlist] at hempty
  have hskip : ledger (skipStaleHead sw vm) =
      { ledger sw with
        queue := Function.update (ledger sw).queue vm
          (((ledger sw).queue vm).dropWhile (stale sw.pool)) } := by
    rw [skipStaleHead, ledger_setVnic, Circular.toList_dropStale (Nat.le_refl _)]
    exact congrArg (fun pending => Ledger.mk _ _ _ pending)
      (Function.update_eq_self vm (ledger sw).pending)
  unfold sweep
  dsimp only
  split
  case isTrue hnone =>
    rw [Switch.setIrq, ledger_setVnic, hskip, hempty.mpr hnone]
    simp [hlist, hempty.mpr hnone]
  case isFalse hsome =>
    have hne : ((ledger sw).queue vm).dropWhile (stale sw.pool) ≠ [] :=
      fun hnil => hsome (hempty.mp hnil)
    have hkept : (!(((ledger sw).queue vm).dropWhile (stale sw.pool)).isEmpty) = true := by
      simpa using hne
    rw [hskip, hkept, Bool.and_true, Function.update_eq_self]

theorem sweep_loop (sw : Switch) (k : Nat) :
    let swept := (List.range k).foldl sweep sw
    swept.pool = sw.pool ∧ swept.nvm = sw.nvm ∧ ∀ vm, (ledger swept).queue vm =
          (if vm < k then ((ledger sw).queue vm).dropWhile (stale sw.pool)
          else (ledger sw).queue vm) ∧
        (ledger swept).pending vm =
          if vm < k then ((ledger sw).pending vm && !((ledger swept).queue vm).isEmpty)
          else (ledger sw).pending vm := by
  induction k with
  | zero => simp
  | succ k ih =>
    rw [List.range_succ, List.foldl_append]
    generalize (List.range k).foldl sweep sw = swept at *
    obtain ⟨hpool, hnvm, hrings⟩ := ih
    have hone := ledger_sweep swept k
    rw [hpool] at hone
    simp only [List.foldl_cons, List.foldl_nil]
    refine ⟨(congrArg Ledger.pool hone).trans hpool,
      (congrArg Ledger.nvm hone).trans hnvm, fun vm => ?_⟩
    rw [hone]
    dsimp only
    obtain ⟨hqueue, hpending⟩ := hrings vm
    by_cases heq : vm = k
    · subst heq
      simp only [Nat.lt_irrefl, if_false] at hqueue hpending
      simp [hqueue, hpending]
    · have hiff : vm < k + 1 ↔ vm < k := by omega
      simp only [Function.update_of_ne heq, hiff]
      exact ⟨hqueue, hpending⟩

theorem switchDropExpired_accounts (h : Accounts start now none (ledger sw))
    (timeout : UInt32) (hfrom : start ≤ now) (hspan : now < start + 2 ^ 32) :
    Accounts start now none (ledger (switchDropExpired sw (UInt32.ofNat now) timeout).2) := by
  unfold switchDropExpired poolDropExpired
  by_cases hzero : timeout = 0
  · rw [if_pos hzero]
    exact h
  rw [if_neg hzero]
  obtain ⟨hslots, hsize, huse, hnone⟩ := reap_loop sw.pool (UInt32.ofNat now) timeout
    h.used (Nat.le_refl _)
  generalize (List.range sw.pool.slotCount).foldl
    (reapExpired (UInt32.ofNat now) timeout) (0, sw.pool) = r at *
  obtain ⟨freed, pool⟩ := r
  dsimp only at *
  split
  case isTrue =>
    obtain ⟨hpool, hnvm, hrings⟩ := sweep_loop { sw with pool } sw.nvm
    generalize (List.range sw.nvm).foldl sweep { sw with pool } = swept at *
    have hp : (ledger swept).pool = pool := hpool
    refine Accounts.expire h hfrom hspan (hp ▸ hslots) (hp ▸ hsize) (hp ▸ huse) hnvm ?_ ?_
    · intro vm hvm
      rw [(hrings vm).1, if_pos (show vm < sw.nvm from hvm), hp]
      rfl
    · intro vm hvm
      rw [(hrings vm).2, if_pos (show vm < sw.nvm from hvm)]
      rfl
  case isFalse hfreed =>
    -- nothing expired, and the pool is the one before
    have hkept : pool.slots = sw.pool.slots := by
      funext i
      have hno : ¬(i < sw.pool.slotCount ∧ sw.pool.expired (UInt32.ofNat now) timeout i = true) :=
        fun hi => by simp [hnone (by omega) i hi.1] at hi
      rw [hslots, reaped, if_neg hno]
    have hcount : pool.inUseCount = sw.pool.inUseCount := by
      rw [huse, inUse, hkept, hsize]
      exact h.used.symm
    rw [show pool = sw.pool from Pool.ext hkept hsize hcount]
    exact h

theorem ledger_switchOpen (sw : Switch) (vm : Nat) : ledger (switchOpen sw vm).2 = ledger sw := by
  unfold switchOpen
  split
  · rfl
  · exact ledger_setVnic_same rfl rfl

theorem ledger_switchAssignMac (sw : Switch) (vm : Nat) (mac : Mac) :
    ledger (switchAssignMac sw vm mac).2 = ledger sw := by
  obtain ⟨e, heq⟩ | ⟨fdb, -, heq⟩ := switchAssignMac_checked sw vm mac <;> rw [heq]
  exact ledger_setVnic_same (v := { sw.vnics vm with mac := some mac }) rfl rfl

/-- The time after a call: that of its tick, if it has one. -/
def after (now : Nat) (op : Op) : Nat := op.tick.getD now

theorem step_accounts (h : Accounts start now none (ledger sw)) {op : Op} (hfrom : start ≤ now)
    (htick : ∀ t ∈ op.tick, now ≤ t ∧ t < start + 2 ^ 32) :
    Accounts start (after now op) none (ledger (step sw op)) := by
  cases op with
  | openVnic vm => exact (ledger_switchOpen sw vm).symm ▸ h
  | assignMac vm mac => exact (ledger_switchAssignMac sw vm mac).symm ▸ h
  | tx srcVm frame tick =>
    obtain ⟨hlate, hspan⟩ := htick tick rfl
    exact switchTx_accounts (h.later hlate) srcVm frame (hfrom.trans hlate) hspan
  | pollRx vm => exact (ledger_switchPollRx h vm).symm ▸ h
  | readRx vm slot gen dstLen => exact (ledger_switchReadRx h vm slot gen dstLen).symm ▸ h
  | releaseRx vm slot gen => exact switchReleaseRx_accounts h vm slot gen
  | irqAck vm => exact (ledger_switchIrqAck h vm).symm ▸ h
  | dropExpired tick timeout =>
    obtain ⟨hlate, hspan⟩ := htick tick rfl
    exact switchDropExpired_accounts (h.later hlate) timeout (hfrom.trans hlate) hspan

end Operations

/-- The ticks of a run do not decrease, and span less than the 32 bits of a tick. -/
structure Ticking (start : Nat) (ops : List Op) : Prop where
  sorted : (ops.filterMap Op.tick).Pairwise (· ≤ ·)
  span : ∀ t ∈ ops.filterMap Op.tick, start ≤ t ∧ t < start + 2 ^ 32

theorem run_accounts {start now : Nat} {sw : Switch} {ops : List Op}
    (h : Accounts start now none (ledger sw)) (hfrom : start ≤ now)
    (hsorted : (ops.filterMap Op.tick).Pairwise (· ≤ ·))
    (hspan : ∀ t ∈ ops.filterMap Op.tick, now ≤ t ∧ t < start + 2 ^ 32) :
    ∃ now', Accounts start now' none (ledger (run step sw ops)) := by
  induction ops generalizing now sw with
  | nil => exact ⟨now, h⟩
  | cons op ops ih =>
    have hnext := @step_accounts start now sw h op hfrom fun t ht =>
      hspan t (List.mem_filterMap.mpr ⟨op, List.mem_cons_self, ht⟩)
    rw [run_cons]
    cases htick : op.tick with
    | none =>
      rw [List.filterMap_cons_none htick] at hsorted hspan
      rw [after, htick] at hnext
      exact ih hnext hfrom hsorted hspan
    | some t =>
      rw [List.filterMap_cons_some htick] at hsorted hspan
      rw [after, htick] at hnext
      obtain ⟨hfirst, hrest⟩ := List.pairwise_cons.mp hsorted
      refine ih hnext (hfrom.trans (hspan t List.mem_cons_self).1) hrest fun u hu => ?_
      exact ⟨hfirst u hu, (hspan u (List.mem_cons_of_mem t hu)).2⟩

theorem switchInit_accounts {s : Storage} {sw : Switch} (h : switchInit s = .ok sw)
    (start : Nat) : Accounts start start none (ledger sw) := by
  unfold switchInit at h
  split at h
  · cases h
  · cases h
    have hfree : ∀ i < s.frameCount,
        ((poolInit s.frames s.frameCount s.frameCount_lt).slots i).refcnt = 0 := by
      intro i hi
      simp [poolInit, hi]
    constructor
    case counted =>
      intro slot hslot
      refine (hfree slot hslot).trans ?_
      simp [held, ledger, vnicReset]
    case live => simp [ledger, vnicReset]
    case used =>
      refine (Finset.sum_eq_zero fun i hi => ?_).symm
      exact if_pos (hfree i (Finset.mem_range.mp hi))
    case aged => exact fun slot hslot hused => absurd (hfree slot hslot) hused
    case ordered => simp [Ordered, ledger, vnicReset]
    case irq => simp [ledger, vnicReset]

/-- The accounts between two calls, of the pool and of the rings as they are. -/
structure Balanced (sw : Switch) : Prop where
  counted : ∀ slot < sw.pool.slotCount, (sw.pool.slots slot).refcnt =
    ∑ vm ∈ Finset.range sw.nvm, (sw.vnics vm).rxq.toList.countP fun d =>
      decide (d.slot = slot ∧ d.gen = (sw.pool.slots slot).gen)
  live : ∀ vm < sw.nvm, ∀ d ∈ (sw.vnics vm).rxq.toList, (poolSlot sw.pool d.slot d.gen).isSome
  inUse : sw.pool.inUseCount =
    ((Finset.range sw.pool.slotCount).filter fun i => (sw.pool.slots i).refcnt ≠ 0).card
  fits : ∀ vm < sw.nvm, (sw.vnics vm).rxq.toList.length ≤ (sw.vnics vm).rxq.capacity
  irq : ∀ vm < sw.nvm, (sw.vnics vm).rxIrqPending = true ↔ (sw.vnics vm).rxq.toList ≠ []

theorem Balanced.of_accounts {start now : Nat} {sw : Switch}
    (h : Accounts start now none (ledger sw)) : Balanced sw := by
  constructor
  case counted =>
    intro slot hslot
    have hcount := h.counted slot hslot
    simp only [reduceCtorEq, if_false, Nat.add_zero] at hcount
    refine hcount.trans (Finset.sum_congr rfl fun vm hvm => ?_)
    refine List.countP_congr fun d hd => ?_
    -- a descriptor is live, so it has the generation of its slot
    have hlive := h.live vm (Finset.mem_range.mp hvm) d hd
    have hgen : (sw.pool.slots d.slot).gen = d.gen := ((stale_eq_false_iff _ _).mp hlive).2.2
    simp only [decide_eq_true_eq]
    constructor
    · rintro rfl
      exact ⟨rfl, hgen.symm⟩
    · exact fun hboth => hboth.1
  case live =>
    intro vm hvm d hd
    have hlive : (poolSlot sw.pool d.slot d.gen).isNone = false := h.live vm hvm d hd
    rwa [← Option.not_isSome, Bool.not_eq_false'] at hlive
  case inUse =>
    rw [Finset.card_filter]
    refine (show sw.pool.inUseCount = _ from h.used).trans (Finset.sum_congr rfl fun i _ => ?_)
    by_cases hzero : (sw.pool.slots i).refcnt = 0
    · simp [busy, ledger, hzero]
    · simp [busy, ledger, hzero]
  case fits =>
    intro vm _
    rw [Circular.toList_length]
    exact (sw.vnics vm).rxq.bounded
  case irq => exact h.irq

/-- After every run of calls the accounts of the frame pool balance. -/
theorem frame_pool_balanced {s : Storage} {sw : Switch} (hinit : switchInit s = .ok sw)
    {start : Nat} {ops : List Op} (hticks : Ticking start ops) : Balanced (run step sw ops) := by
  have hnone := switchInit_accounts hinit start
  obtain ⟨now, hend⟩ := run_accounts hnone (Nat.le_refl start) hticks.sorted hticks.span
  exact Balanced.of_accounts hend

section Sample

def sampleStorage : Storage :=
  { nvm := 2
    frames := fun _ => { len := 7, gen := 7, refcnt := 7, srcVm := 7, bornTick := 7, data := [] }
    frameCount := 2
    frameCount_lt := by decide
    fdb := fun _ => { mac := #v[0, 0, 0, 0, 0, 0], guestId := 0, kind := .learned }
    fdbCapacity := 2
    rings := fun _ _ => { slot := 7, gen := 7, len := 7, flags := 0, srcVm := 7 }
    ringCapacity := 2
    unknownUnicastFlood := false }

/-- A frame to every guest, from the address that the first one assigns itself. -/
def sampleFrame : List UInt8 :=
  [0xFF, 0xFF, 0xFF, 0xFF, 0xFF, 0xFF, 2, 0, 0, 0, 0, 1, 8, 0]

def sampleMac : Mac := #v[2, 0, 0, 0, 0, 1]

/-- Two frames on either side of the wrap of the ticks; the first one expires. -/
def sampleOps : List Op :=
  [.openVnic 0, .openVnic 1, .assignMac 0 sampleMac,
    .tx 0 sampleFrame 0xFFFFFFF0, .irqAck 1, .tx 0 sampleFrame 0x100000010,
    .dropExpired 0x100000010 5, .pollRx 1]

theorem frame_pool_balanced_sample :
    ∃ sw, switchInit sampleStorage = .ok sw ∧ Ticking 0xFFFFFFF0 sampleOps ∧
      ((run step sw sampleOps).vnics 1).rxq.toList.map Desc.slot = [1] ∧
      Balanced (run step sw sampleOps) := by
  have hticks : Ticking 0xFFFFFFF0 sampleOps := ⟨by decide, by decide⟩
  exact ⟨_, rfl, hticks, by decide +kernel, frame_pool_balanced (s := sampleStorage) rfl hticks⟩

end Sample

end WolfTrust.VnetBalance
