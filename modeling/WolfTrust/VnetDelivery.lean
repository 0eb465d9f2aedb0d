import WolfTrust.VnetAddressing
import WolfTrust.VnetBalance

namespace WolfTrust.VnetDelivery

open RingBuffer StepRuns VnetAccounting VnetAddressing VnetBalance VnetFdb VnetSwitch

def content (f : Frame) : List UInt8 := f.data.take f.len

def SameFrame (f f' : Frame) : Prop := content f' = content f ∧ f'.gen = f.gen

/-- No frame changes, and of a ring the first descriptors may go. -/
structure Shrinks (before after : Ledger) : Prop where
  slots : ∀ i, SameFrame (before.pool.slots i) (after.pool.slots i)
  queue : ∀ vm < before.nvm, after.queue vm <:+ before.queue vm

theorem Shrinks.of_eq {before after : Ledger} (h : after = before) : Shrinks before after := by
  subst h
  exact ⟨fun _ => ⟨rfl, rfl⟩, fun _ _ => List.suffix_rfl⟩

/-- A descriptor of the slot goes to some of the rings. -/
structure Spreads (slot : Nat) (To : Nat → Prop) (before after : Ledger) :
    Prop where
  slots : ∀ i, SameFrame (before.pool.slots i) (after.pool.slots i)
  queue : ∀ vm, after.queue vm = before.queue vm ∨
    To vm ∧ ∃ d, d.slot = slot ∧ after.queue vm = before.queue vm ++ [d]

section Spreading

variable {slot : Nat} {gen : UInt16}

theorem sameFrame_recount (p : Pool) (slot refcnt i : Nat) :
    SameFrame (p.slots i) ((recount p slot refcnt).slots i) := by
  by_cases heq : i = slot
  · subst heq
    simp [SameFrame, content, recount, Pool.set]
  · simp [SameFrame, content, recount, Pool.set, heq]

theorem tryDeliverOne_spreads (sw : Switch) (dst slot : Nat) (gen : UInt16) (len srcVm : Nat) :
    Spreads slot (· = dst) (ledger sw) (ledger (tryDeliverOne sw dst slot gen len srcVm).2) := by
  have hsame : Spreads slot (· = dst) (ledger sw) (ledger sw) :=
    ⟨fun _ => ⟨rfl, rfl⟩, fun _ => .inl rfl⟩
  unfold tryDeliverOne
  dsimp only
  split
  · exact hsame
  split
  · exact hsame
  rename_i rxq hpush
  have hlist := ringPush_cases hpush
  split
  · have hcount : rxq.count ≠ 0 := by
      rw [← Circular.toList_length, hlist]
      simp
    have hundone : ledger (sw.setVnic dst
        { sw.vnics dst with rxq := rxq.unpush hcount }) = ledger sw := by
      refine ledger_setVnic_same ?_ rfl
      rw [Circular.toList_unpush, hlist, List.dropLast_concat]
    simp only [dif_pos hcount]
    rw [hundone]
    exact hsame
  · rename_i pool hpool
    obtain rfl := poolRef_cases hpool
    refine ⟨fun i => sameFrame_recount _ _ _ i, fun vm => ?_⟩
    by_cases heq : vm = dst
    · refine .inr ⟨heq, { slot, gen, len, flags := 0, srcVm }, rfl, ?_⟩
      subst heq
      simp only [ledger, Switch.setVnic, Function.update_self]
      exact hlist
    · refine .inl ?_
      simp only [ledger, Switch.setVnic, Function.update_of_ne heq]

theorem deliveries_spread (slot : Nat) (gen : UInt16) (len srcVm : Nat)
    {dsts : List Nat} (hdsts : dsts.Nodup) (n : Nat) (sw : Switch) :
    Spreads slot (· ∈ dsts) (ledger sw)
      (ledger (dsts.foldl (deliver slot gen len srcVm) (n, sw)).2) := by
  induction dsts generalizing n sw with
  | nil => exact ⟨fun _ => ⟨rfl, rfl⟩, fun _ => .inl rfl⟩
  | cons dst dsts ih =>
    obtain ⟨hnot, hrest⟩ := List.nodup_cons.mp hdsts
    have hone := tryDeliverOne_spreads sw dst slot gen len srcVm
    have hnext : ∀ n sent, (tryDeliverOne sw dst slot gen len srcVm).2 = sent →
        Spreads slot (· ∈ dst :: dsts) (ledger sw)
          (ledger (dsts.foldl (deliver slot gen len srcVm) (n, sent)).2) := by
      rintro n sent rfl
      have hlater := ih hrest n (tryDeliverOne sw dst slot gen len srcVm).2
      refine ⟨fun i => ⟨(hlater.slots i).1.trans (hone.slots i).1,
        (hlater.slots i).2.trans (hone.slots i).2⟩, fun vm => ?_⟩
      rcases hlater.queue vm with hkept | ⟨hin, d, hd, happend⟩
      · rcases hone.queue vm with hfirst | ⟨heq, d, hd, happend⟩
        · exact .inl (hkept.trans hfirst)
        · refine .inr ⟨?_, d, hd, hkept.trans happend⟩
          exact heq ▸ List.mem_cons_self
      · rcases hone.queue vm with hfirst | ⟨heq, -⟩
        · exact .inr ⟨List.mem_cons_of_mem _ hin, d, hd, hfirst ▸ happend⟩
        · exact absurd (heq ▸ hin) hnot
    rw [List.foldl_cons, deliver]
    split
    · rename_i sent hsent
      exact hnext _ sent (congrArg Prod.snd hsent)
    · rename_i sent hsent
      exact hnext _ sent (congrArg Prod.snd hsent)

theorem dropScratch_spreads {To : Nat → Prop} {before : Ledger} {sw : Switch}
    (h : Spreads slot To before (ledger sw)) :
    Spreads slot To before (ledger (dropScratch sw slot gen)) := by
  unfold dropScratch
  split
  · exact h
  · rename_i freed pool hrelease
    have hpool : ∀ i, SameFrame (sw.pool.slots i) (pool.slots i) := by
      unfold poolRelease at hrelease
      split at hrelease
      · cases hrelease
      split at hrelease
      · cases hrelease
      split at hrelease
      · cases hrelease
      obtain ⟨-, rfl⟩ := Prod.mk.inj (Except.ok.inj hrelease)
      intro i
      rw [(unref_eq sw.pool slot).1]
      exact sameFrame_recount _ _ _ i
    exact ⟨fun i => ⟨(hpool i).1.trans (h.slots i).1, (hpool i).2.trans (h.slots i).2⟩, h.queue⟩

theorem destinations_nodup (sw : Switch) (srcVm : Nat) (mac : Mac) :
    (destinations sw srcVm mac).Nodup := by
  have hall : ((List.range sw.nvm).filter (· ≠ srcVm)).Nodup := List.nodup_range.filter _
  unfold destinations
  dsimp only
  split_ifs
  all_goals first | exact hall | exact List.nodup_singleton _ | exact List.nodup_nil

theorem forward_spreads {sw : Switch} (h : Addressed (directory sw))
    (srcVm slot : Nat) (frame : List UInt8) :
    Spreads slot (fun vm => vm ≠ srcVm ∧ Admits sw (macAt frame 0) vm)
      (ledger sw) (ledger (forward sw srcVm slot frame).2) := by
  unfold forward
  dsimp only
  split
  · exact dropScratch_spreads ⟨fun _ => ⟨rfl, rfl⟩, fun _ => .inl rfl⟩
  rename_i hzero
  rw [Bool.not_eq_true] at hzero
  have hsent := deliveries_spread slot (sw.pool.slots slot).gen frame.length
    srcVm (destinations_nodup sw srcVm (macAt frame 0)) 0 sw
  have hadmitted : Spreads slot (fun vm => vm ≠ srcVm ∧ Admits sw (macAt frame 0) vm) (ledger sw)
      (ledger ((destinations sw srcVm (macAt frame 0)).foldl
        (deliver slot (sw.pool.slots slot).gen frame.length srcVm) (0, sw)).2) :=
    ⟨hsent.slots, fun vm => (hsent.queue vm).imp_right fun hto =>
      ⟨destinations_admitted h hzero hto.1, hto.2⟩⟩
  split
  · split
    · exact dropScratch_spreads hadmitted
    · exact dropScratch_spreads hadmitted
  · exact dropScratch_spreads hadmitted

end Spreading

/-- A transmission takes a free slot for its frame, and a descriptor of the slot
goes to some of the guests that the frame may go to. -/
structure Transmits (sw : Switch) (srcVm : Nat) (frame : List UInt8) (slot : Nat)
    (after : Ledger) : Prop where
  mac : (sw.vnics srcVm).mac = some (macAt frame vnetMacLen)
  free : (sw.pool.slots slot).refcnt = 0
  gen : (after.pool.slots slot).gen = (sw.pool.slots slot).gen + 1
  stored : content (after.pool.slots slot) = frame
  others : ∀ i, i ≠ slot → SameFrame (sw.pool.slots i) (after.pool.slots i)
  queue : ∀ vm, after.queue vm = (ledger sw).queue vm ∨
    (vm ≠ srcVm ∧ Admits sw (macAt frame 0) vm) ∧
      ∃ d, d.slot = slot ∧ after.queue vm = (ledger sw).queue vm ++ [d]

theorem switchTx_cases {sw : Switch} (h : Addressed (directory sw))
    (srcVm : Nat) (frame : List UInt8) (now : UInt32) :
    ledger (switchTx sw srcVm frame now).2 = ledger sw ∨ ∃ slot, Transmits sw srcVm frame slot
        (ledger (switchTx sw srcVm frame now).2) := by
  obtain ⟨e, heq⟩ | ⟨hmac, heq⟩ := switchTx_checked sw srcVm frame now
  · rw [heq]
    exact .inl rfl
  rw [fdbLearn_eq h hmac srcVm] at heq
  obtain heq | ⟨slot, pool, halloc, heq⟩ := heq <;> rw [heq]
  · exact .inl rfl
  unfold poolAlloc at halloc
  obtain ⟨_, hfree, hpool⟩ := Option.map_eq_some_iff.mp halloc
  cases hpool
  have hrefcnt : (sw.pool.slots slot).refcnt = 0 := by simpa using List.find?_some hfree
  refine .inr ⟨slot, ?_⟩
  have hspread := @forward_spreads
    { sw with pool := (sw.pool.take slot now).fill slot frame srcVm } h srcVm
    slot frame
  constructor
  · exact hmac
  · exact hrefcnt
  · refine (hspread.slots slot).2.trans ?_
    simp [ledger, Pool.fill, Pool.take, Pool.set]
  · refine (hspread.slots slot).1.trans ?_
    simp [ledger, content, Pool.fill, Pool.take, Pool.set]
  · intro i hi
    refine ⟨(hspread.slots i).1.trans ?_, (hspread.slots i).2.trans ?_⟩
    · simp [ledger, content, Pool.fill, Pool.take, Pool.set, hi]
    · simp [ledger, Pool.fill, Pool.take, Pool.set, hi]
  · exact hspread.queue

theorem switchDropExpired_shrinks {start before : Nat} {sw : Switch}
    (h : Accounts start before none (ledger sw)) (now timeout : UInt32) :
    Shrinks (ledger sw) (ledger (switchDropExpired sw now timeout).2) := by
  unfold switchDropExpired poolDropExpired
  by_cases hzero : timeout = 0
  · rw [if_pos hzero]
    exact .of_eq rfl
  rw [if_neg hzero]
  obtain ⟨hslots, -⟩ := reap_loop sw.pool now timeout h.used (Nat.le_refl _)
  generalize (List.range sw.pool.slotCount).foldl (reapExpired now timeout) (0, sw.pool) = r at *
  obtain ⟨freed, pool⟩ := r
  dsimp only at *
  have hframes : ∀ i, SameFrame (sw.pool.slots i) (pool.slots i) := by
    intro i
    rw [hslots, reaped]
    split
    · exact ⟨rfl, rfl⟩
    · exact ⟨rfl, rfl⟩
  split
  · obtain ⟨hpool, -, hrings⟩ := sweep_loop { sw with pool } sw.nvm
    generalize (List.range sw.nvm).foldl sweep { sw with pool } = swept at *
    refine ⟨fun i => ?_, fun vm hvm => ?_⟩
    · show SameFrame _ (swept.pool.slots i)
      rw [hpool]
      exact hframes i
    · rw [(hrings vm).1, if_pos (show vm < sw.nvm from hvm)]
      exact List.dropWhile_suffix _
  · exact ⟨hframes, fun _ _ => List.suffix_rfl⟩

theorem step_cases {start now : Nat} {sw : Switch} (h : Accounts start now none (ledger sw))
    (haddr : Addressed (directory sw)) (op : Op) :
    Shrinks (ledger sw) (ledger (step sw op)) ∨ ∃ srcVm frame tick slot, op = .tx srcVm frame tick ∧
        Transmits sw srcVm frame slot (ledger (step sw op)) := by
  cases op with
  | openVnic vm => exact .inl (.of_eq (ledger_switchOpen sw vm))
  | assignMac vm mac => exact .inl (.of_eq (ledger_switchAssignMac sw vm mac))
  | tx srcVm frame tick =>
    rcases switchTx_cases haddr srcVm frame (UInt32.ofNat tick) with
      hsame | ⟨slot, hsent⟩
    · exact .inl (.of_eq hsame)
    · exact .inr ⟨srcVm, frame, tick, slot, rfl, hsent⟩
  | pollRx vm => exact .inl (.of_eq (ledger_switchPollRx h vm))
  | readRx vm slot gen dstLen => exact .inl (.of_eq (ledger_switchReadRx h vm slot gen dstLen))
  | releaseRx vm slot gen =>
    refine .inl ?_
    obtain ⟨e, -, hledger⟩ | ⟨-, hvm, d, q, hq, -, -, hledger⟩ :=
      switchReleaseRx_cases h vm slot gen
    · exact .of_eq hledger
    · refine ⟨fun i => ?_, fun other hother => ?_⟩
      · rw [step, hledger]
        dsimp only
        rw [(unref_eq sw.pool d.slot).1]
        exact sameFrame_recount _ _ _ i
      · rw [step, hledger]
        dsimp only
        by_cases heq : other = vm
        · subst heq
          rw [Function.update_self, hq]
          exact List.suffix_cons d q
        · rw [Function.update_of_ne heq]
  | irqAck vm => exact .inl (.of_eq (ledger_switchIrqAck h vm))
  | dropExpired tick timeout => exact .inl (switchDropExpired_shrinks h (UInt32.ofNat tick) timeout)

section Runs

variable (sw : Switch) (ops : List Op)

/-- The generation of a slot when the call at `t` is made. -/
def generation (t slot : Nat) : UInt16 :=
  ((stateAt step sw ops t).pool.slots slot).gen

/-- How often the slot was given to a new frame by the calls from `a` to `b`. -/
def births (slot a b : Nat) : Nat :=
  ((Finset.Ico a b).filter fun t =>
    generation sw ops (t + 1) slot ≠ generation sw ops t slot).card

/-- The call before `t` that last put a frame into the slot. -/
def holder : Nat → Nat → Nat
  | 0, _ => 0
  | t + 1, slot =>
    if generation sw ops (t + 1) slot = generation sw ops t slot then
      holder t slot
    else t

/-- The call at `k` transmits the frame, which enters the ring of `j`: it comes
from another guest, under that guest's address, and may go to `j`. -/
def Delivered (j k : Nat) (frame : List UInt8) : Prop :=
  ∃ i tick, ops[k]? = some (.tx i frame tick) ∧ i ≠ j ∧
    ((stateAt step sw ops k).vnics i).mac = some (macAt frame vnetMacLen) ∧
    Admits (stateAt step sw ops k) (macAt frame 0) j ∧
    ((stateAt step sw ops (k + 1)).vnics j).rxq.count =
      ((stateAt step sw ops k).vnics j).rxq.count + 1

/-- The ring of `j` when the call at `t` is made. -/
def ring (j t : Nat) : List Desc := (ledger (stateAt step sw ops t)).queue j

theorem holder_of_same {t slot : Nat}
    (h : generation sw ops (t + 1) slot = generation sw ops t slot) :
    holder sw ops (t + 1) slot = holder sw ops t slot :=
  if_pos h

theorem holder_of_ne {t slot : Nat}
    (h : generation sw ops (t + 1) slot ≠ generation sw ops t slot) :
    holder sw ops (t + 1) slot = t :=
  if_neg h

variable {sw ops}

theorem Ticking.take {start : Nat} (hticks : Ticking start ops) (t : Nat) :
    Ticking start (ops.take t) := by
  have hsub := (List.take_sublist t ops).filterMap Op.tick
  exact ⟨hticks.sorted.sublist hsub, fun u hu => hticks.span u (hsub.subset hu)⟩

theorem run_addressed (h : Addressed (directory sw)) (ops : List Op) :
    Addressed (directory (run step sw ops)) := by
  induction ops generalizing sw with
  | nil => exact h
  | cons op ops ih => exact ih (step_addressed h op)

theorem step_nvm (h : Addressed (directory sw)) (op : Op) : (step sw op).nvm = sw.nvm := by
  by_cases hop : ∀ vm mac, op ≠ .assignMac vm mac
  · exact congrArg Directory.nvm (directory_step (fun _ _ hmac => fdbLearn_eq h hmac) hop)
  · push Not at hop
    obtain ⟨vm, mac, rfl⟩ := hop
    exact congrArg Ledger.nvm (ledger_switchAssignMac sw vm mac)

theorem run_nvm (h : Addressed (directory sw)) (ops : List Op) :
    (run step sw ops).nvm = sw.nvm := by
  induction ops generalizing sw with
  | nil => rfl
  | cons op ops ih => exact (ih (step_addressed h op)).trans (step_nvm h op)

theorem switchInit_queue {s : Storage} (h : switchInit s = .ok sw) (j : Nat) :
    (ledger sw).queue j = [] := by
  unfold switchInit at h
  split at h
  · cases h
  · cases h
    rfl

/-- The accounts and the addresses are right at every call, and no ring holds
anything at first. -/
structure Sound (sw : Switch) (ops : List Op) : Prop where
  accounts : ∀ t, ∃ start now, Accounts start now none (ledger (stateAt step sw ops t))
  addressed : ∀ t, Addressed (directory (stateAt step sw ops t))
  nvm : ∀ t, (stateAt step sw ops t).nvm = sw.nvm
  empty : ∀ j, ring sw ops j 0 = []

theorem Sound.of_init {s : Storage} (hinit : switchInit s = .ok sw) {start : Nat}
    (hticks : Ticking start ops) : Sound sw ops := by
  have haddressed := switchInit_addressed hinit
  refine ⟨fun t => ?_, fun t => run_addressed haddressed _,
    fun t => run_nvm haddressed _, fun j => switchInit_queue hinit j⟩
  have htaken := Ticking.take hticks t
  obtain ⟨now, haccounts⟩ := run_accounts (switchInit_accounts hinit start)
    (Nat.le_refl start) htaken.sorted htaken.span
  exact ⟨start, now, haccounts⟩

theorem holder_eq {slot k t : Nat} (hlt : k < t)
    (htaken : generation sw ops (k + 1) slot ≠ generation sw ops k slot)
    (hquiet : births sw ops slot (k + 1) t = 0) : holder sw ops t slot = k := by
  induction t, hlt using Nat.le_induction with
  | base => exact holder_of_ne sw ops htaken
  | succ t hle ih =>
    have hall := Finset.filter_eq_empty_iff.mp (Finset.card_eq_zero.mp hquiet)
    have hsame : generation sw ops (t + 1) slot = generation sw ops t slot := by
      simpa using hall (Finset.mem_Ico.mpr ⟨hle, Nat.lt_succ_self t⟩)
    rw [holder_of_same sw ops hsame]
    refine ih (Finset.card_eq_zero.mpr (Finset.filter_eq_empty_iff.mpr ?_))
    intro u hu
    have hu := Finset.mem_Ico.mp hu
    exact hall (Finset.mem_Ico.mpr ⟨hu.1, by omega⟩)

section Steps

variable (h : Sound sw ops) {j : Nat}

include h

theorem at_cases (t : Nat) : Shrinks (ledger (stateAt step sw ops t))
        (ledger (stateAt step sw ops (t + 1))) ∨
      ∃ i frame tick slot, ops[t]? = some (.tx i frame tick) ∧
        Transmits (stateAt step sw ops t) i frame slot (ledger (stateAt step sw ops (t + 1))) := by
  cases hop : ops[t]? with
  | none =>
    refine .inl (.of_eq ?_)
    rw [stateAt_succ_of_none hop]
  | some op =>
    rw [stateAt_succ hop]
    obtain ⟨start, now, haccounts⟩ := h.accounts t
    rcases step_cases haccounts (h.addressed t) op with
      hshrinks | ⟨i, frame, tick, slot, rfl, hsent⟩
    · exact .inl hshrinks
    · exact .inr ⟨i, frame, tick, slot, rfl, hsent⟩

theorem generation_succ (t slot : Nat) : generation sw ops (t + 1) slot = generation sw ops t slot ∨
      generation sw ops (t + 1) slot = generation sw ops t slot + 1 := by
  rcases at_cases h t with hshrinks | ⟨i, frame, tick, taken, -, hsent⟩
  · exact .inl (hshrinks.slots slot).2
  · by_cases heq : slot = taken
    · subst heq
      exact .inr hsent.gen
    · exact .inl (hsent.others slot heq).2

theorem ring_kept (hj : j < sw.nvm) {t : Nat} {d : Desc} (hd : d ∈ ring sw ops j t) :
    holder sw ops (t + 1) d.slot = holder sw ops t d.slot ∧
      SameFrame ((stateAt step sw ops t).pool.slots d.slot)
        ((stateAt step sw ops (t + 1)).pool.slots d.slot) := by
  have hsame : SameFrame ((stateAt step sw ops t).pool.slots d.slot)
      ((stateAt step sw ops (t + 1)).pool.slots d.slot) := by
    rcases at_cases h t with hshrinks | ⟨i, frame, tick, slot, -, hsent⟩
    · exact hshrinks.slots d.slot
    · obtain ⟨start, now, haccounts⟩ := h.accounts t
      have hvm : j < (stateAt step sw ops t).nvm := (h.nvm t).symm ▸ hj
      exact hsent.others d.slot (haccounts.not_named hvm hd hsent.free)
  exact ⟨holder_of_same sw ops hsame.2, hsame⟩

theorem ring_succ (hj : j < sw.nvm) (t : Nat) :
    ring sw ops j (t + 1) <:+ ring sw ops j t ∨
      ∃ d, ring sw ops j (t + 1) = ring sw ops j t ++ [d] ∧ holder sw ops (t + 1) d.slot = t ∧
        Delivered sw ops j t (content ((stateAt step sw ops (t + 1)).pool.slots d.slot)) := by
  rcases at_cases h t with hshrinks | ⟨i, frame, tick, slot, hop, hsent⟩
  · have hvm : j < (stateAt step sw ops t).nvm := (h.nvm t).symm ▸ hj
    exact .inl (hshrinks.queue j hvm)
  · rcases hsent.queue j with hsame | ⟨⟨hne, hadmits⟩, d, rfl, happend⟩
    · refine .inl ?_
      rw [ring, hsame]
      exact List.suffix_rfl
    · have hgen : generation sw ops (t + 1) d.slot ≠ generation sw ops t d.slot :=
        fun hsame => by
          have hnext : generation sw ops t d.slot + 1 =
              generation sw ops t d.slot := hsent.gen.symm.trans hsame
          simp at hnext
      have hcount := congrArg List.length happend
      rw [List.length_append, List.length_singleton] at hcount
      have hstored : content ((stateAt step sw ops (t + 1)).pool.slots d.slot) =
          frame := hsent.stored
      refine .inr ⟨d, happend, holder_of_ne sw ops hgen, ?_⟩
      rw [hstored]
      refine ⟨i, tick, hop, hne.symm, hsent.mac, hadmits, ?_⟩
      simpa [ledger] using hcount

theorem ring_delivered (hj : j < sw.nvm) (t : Nat) :
    ∀ d ∈ ring sw ops j t, holder sw ops t d.slot < t ∧ Delivered sw ops j (holder sw ops t d.slot)
        (content ((stateAt step sw ops t).pool.slots d.slot)) := by
  induction t with
  | zero => simp [h.empty]
  | succ t ih =>
    have hkept : ∀ d ∈ ring sw ops j t, holder sw ops (t + 1) d.slot < t + 1 ∧
        Delivered sw ops j (holder sw ops (t + 1) d.slot)
          (content ((stateAt step sw ops (t + 1)).pool.slots d.slot)) := by
      intro d hd
      obtain ⟨hholder, hframe, -⟩ := ring_kept h hj hd
      obtain ⟨hlt, hdelivered⟩ := ih d hd
      rw [hholder, hframe]
      exact ⟨by omega, hdelivered⟩
    intro d hd
    rcases ring_succ h hj t with hsuffix | ⟨new, happend, hholder, hdelivered⟩
    · exact hkept d (hsuffix.subset hd)
    · rw [happend, List.mem_append, List.mem_singleton] at hd
      rcases hd with hd | rfl
      · exact hkept d hd
      · rw [hholder]
        exact ⟨by omega, hdelivered⟩

theorem ring_sorted (hj : j < sw.nvm) (t : Nat) : (ring sw ops j t).Pairwise fun a b =>
      holder sw ops t a.slot < holder sw ops t b.slot := by
  induction t with
  | zero => simp [h.empty]
  | succ t ih =>
    have hkept : (ring sw ops j t).Pairwise fun a b =>
        holder sw ops (t + 1) a.slot < holder sw ops (t + 1) b.slot := by
      refine List.Pairwise.imp_of_mem (fun {a b} ha hb hab => ?_) ih
      rw [(ring_kept h hj ha).1, (ring_kept h hj hb).1]
      exact hab
    rcases ring_succ h hj t with hsuffix | ⟨new, happend, hholder, -⟩
    · exact hkept.sublist hsuffix.sublist
    · rw [happend]
      refine List.pairwise_append.mpr ⟨hkept, List.pairwise_singleton _ _, fun d hd d' hd' => ?_⟩
      rw [List.mem_singleton.mp hd', hholder, (ring_kept h hj hd).1]
      exact (ring_delivered h hj t d hd).1

theorem ring_behind (hj : j < sw.nvm) {k t t' : Nat} (hk : k < t)
    (hbehind : ∀ d ∈ ring sw ops j t, k < holder sw ops t d.slot) (hle : t ≤ t') :
    ∀ d ∈ ring sw ops j t', k < holder sw ops t' d.slot := by
  induction t', hle using Nat.le_induction with
  | base => exact hbehind
  | succ t' hle ih =>
    have hkept : ∀ d ∈ ring sw ops j t', k < holder sw ops (t' + 1) d.slot := by
      intro d hd
      rw [(ring_kept h hj hd).1]
      exact ih d hd
    intro d hd
    rcases ring_succ h hj t' with hsuffix | ⟨new, happend, hholder, -⟩
    · exact hkept d (hsuffix.subset hd)
    · rw [happend, List.mem_append, List.mem_singleton] at hd
      rcases hd with hd | rfl
      · exact hkept d hd
      · omega

theorem generation_add (slot : Nat) {a b : Nat} (hle : a ≤ b) : generation sw ops b slot =
      generation sw ops a slot + UInt16.ofNat (births sw ops slot a b) := by
  induction b, hle using Nat.le_induction with
  | base => simp [births]
  | succ b hle ih =>
    have hsplit : births sw ops slot a (b + 1) = births sw ops slot a b +
        if generation sw ops (b + 1) slot ≠ generation sw ops b slot then 1
        else 0 := by
      rw [births, births, ← Finset.insert_Ico_right_eq_Ico_add_one hle, Finset.filter_insert]
      split
      · rw [Finset.card_insert_of_notMem (by simp)]
      · rfl
    rcases generation_succ h b slot with hsame | hnext
    · rw [hsplit, if_neg (not_not.mpr hsame), hsame, ih, Nat.add_zero]
    · have hne : generation sw ops (b + 1) slot ≠ generation sw ops b slot := by
        rw [hnext]
        simp
      rw [hsplit, if_pos hne, hnext, ih, UInt16.ofNat_add, UInt16.add_assoc]
      rfl

end Steps

end Runs

def HeadToken (sw : Switch) (j slot : Nat) (gen : UInt16) : Prop :=
  ∃ d q, (sw.vnics j).rxq.toList = d :: q ∧ d.slot = slot ∧ d.gen = gen

/-- A call fails, and neither the pool nor a ring changes. -/
def Refused {α : Type} (before : Switch) (result : Except VnetError α × Switch) : Prop :=
  (∃ e, result.1 = .error e) ∧ result.2.pool = before.pool ∧
    ∀ vm, (result.2.vnics vm).rxq.toList = (before.vnics vm).rxq.toList

theorem refused_of_ledger {α : Type} {before : Switch} {result : Except VnetError α × Switch}
    {e : VnetError} (herror : result.1 = .error e) (h : ledger result.2 = ledger before) :
    Refused before result :=
  ⟨⟨e, herror⟩, congrArg Ledger.pool h, fun vm => congrFun (congrArg Ledger.queue h) vm⟩

section Calls

variable {start now : Nat} {sw : Switch} (h : Accounts start now none (ledger sw)) {gen : UInt16}

include h

theorem switchReadRx_ok {j slot dstLen : Nat}
    {frame : List UInt8} (hok : (switchReadRx sw j slot gen dstLen).1 = .ok frame) :
    j < sw.nvm ∧ HeadToken sw j slot gen ∧ frame = content (sw.pool.slots slot) := by
  unfold switchReadRx at hok
  split at hok
  · cases hok
  rename_i hj
  have hj : j < sw.nvm := Nat.not_le.mp hj
  split at hok
  · cases hok
  have hskip := congrFun (congrArg Ledger.queue (ledger_skipStaleHead h hj)) j
  dsimp only at hok
  split at hok
  · cases hok
  rename_i head hpeek
  obtain ⟨q, hq, -⟩ := ringPeek_cases hpeek
  split at hok
  · cases hok
  rename_i hown
  rw [not_or, not_not, not_not] at hown
  split at hok
  · cases hok
  rename_i f hslot
  split at hok
  · cases hok
  refine ⟨hj, ⟨head, q, hskip.symm.trans hq, hown⟩, ?_⟩
  have hf : f = sw.pool.slots slot := by
    unfold poolSlot at hslot
    split at hslot
    · cases hslot
    split at hslot
    · cases hslot
    split at hslot
    · cases hslot
    exact (Option.some.inj hslot).symm
  rw [← hf]
  exact (Except.ok.inj hok).symm

theorem switchReadRx_refused {j slot : Nat} (dstLen : Nat)
    (htoken : ¬HeadToken sw j slot gen) : Refused sw (switchReadRx sw j slot gen dstLen) := by
  cases hresult : (switchReadRx sw j slot gen dstLen).1 with
  | ok => exact absurd (switchReadRx_ok h hresult).2.1 htoken
  | error => exact refused_of_ledger hresult (ledger_switchReadRx h j slot gen dstLen)

theorem switchReleaseRx_refused {j slot : Nat} (htoken : ¬HeadToken sw j slot gen) :
    Refused sw (switchReleaseRx sw j slot gen) := by
  obtain ⟨e, herror, hledger⟩ | ⟨-, -, d, q, hq, hslot, hgen, -⟩ :=
    switchReleaseRx_cases h j slot gen
  · exact refused_of_ledger herror hledger
  · exact absurd ⟨d, q, hq, hslot, hgen⟩ htoken

end Calls

/-- The call at `t` gives guest `j` the frame, under the token. -/
def Reads (sw : Switch) (ops : List Op) (j t slot : Nat) (gen : UInt16)
    (frame : List UInt8) : Prop :=
  ∃ dstLen, ops[t]? = some (.readRx j slot gen dstLen) ∧
    (switchReadRx (stateAt step sw ops t) j slot gen dstLen).1 = .ok frame

/-- The call at `t` releases the frame at the head of the ring of `j`. -/
def Releases (sw : Switch) (ops : List Op) (j t slot : Nat) (gen : UInt16) : Prop :=
  ops[t]? = some (.releaseRx j slot gen) ∧
    (switchReleaseRx (stateAt step sw ops t) j slot gen).1 = .ok ()

/-- The call at `t` gives `j` a frame or releases one, under the token. -/
def Serves (sw : Switch) (ops : List Op) (j t slot : Nat) (gen : UInt16) : Prop :=
  Releases sw ops j t slot gen ∨ ∃ frame, Reads sw ops j t slot gen frame

/-- The call at `k` puts a frame into the slot, whose token this is. -/
def TokenOf (sw : Switch) (ops : List Op) (k slot : Nat) (gen : UInt16) : Prop :=
  generation sw ops (k + 1) slot = gen ∧ generation sw ops k slot ≠ gen

/-- What guest `j` gets of a run; `source t` is the transmission whose frame is
at the head of its ring when the call at `t` is made. -/
structure Delivery (sw : Switch) (ops : List Op) (j : Nat) (source : Nat → Nat) :
    Prop where
  /-- Every frame read was transmitted to `j`. -/
  read : ∀ t slot gen frame, Reads sw ops j t slot gen frame →
    source t < t ∧ Delivered sw ops j (source t) frame
  /-- So was every frame released. -/
  released : ∀ t slot gen, Releases sw ops j t slot gen →
    source t < t ∧ Delivered sw ops j (source t) (content ((stateAt step sw ops t).pool.slots slot))
  /-- After a release there are later transmissions only. -/
  ordered : ∀ t t', t < t' → (∃ slot gen, Releases sw ops j t slot gen) →
    (∃ slot gen, Serves sw ops j t' slot gen) → source t < source t'
  /-- A token that is not that of the head is refused. -/
  refused : ∀ t slot gen, ¬HeadToken (stateAt step sw ops t) j slot gen →
    (∀ dstLen, Refused (stateAt step sw ops t)
      (switchReadRx (stateAt step sw ops t) j slot gen dstLen)) ∧
    Refused (stateAt step sw ops t) (switchReleaseRx (stateAt step sw ops t) j slot gen)
  /-- The token of a frame serves for that frame only, up to the wrap of the
  generations of its slot. -/
  token : ∀ t k slot gen, k < t → TokenOf sw ops k slot gen →
    births sw ops slot (k + 1) t < 2 ^ 16 → Serves sw ops j t slot gen →
    source t = k

section Sources

variable {sw : Switch} {ops : List Op} (h : Sound sw ops) {j t slot : Nat}
  {gen : UInt16}

/-- The transmission whose frame is at the head of the ring of `j`. -/
def headSource (sw : Switch) (ops : List Op) (j t : Nat) : Nat :=
  match ring sw ops j t with
  | [] => 0
  | d :: _ => holder sw ops t d.slot

include h

theorem releases_cases (hreleases : Releases sw ops j t slot gen) :
    j < sw.nvm ∧ ∃ d, ring sw ops j t = d :: ring sw ops j (t + 1) ∧
      d.slot = slot ∧ d.gen = gen := by
  obtain ⟨hop, hok⟩ := hreleases
  obtain ⟨start, now, haccounts⟩ := h.accounts t
  obtain ⟨e, herror, -⟩ | ⟨-, hj, d, q, hq, hslot, hgen, hledger⟩ :=
    switchReleaseRx_cases haccounts j slot gen
  · rw [hok] at herror
    cases herror
  · have hnext : ring sw ops j (t + 1) = q := by
      rw [ring, stateAt_succ hop, step, hledger]
      exact Function.update_self ..
    exact ⟨h.nvm t ▸ hj, d, hnext ▸ hq, hslot, hgen⟩

theorem serves_head (hserves : Serves sw ops j t slot gen) :
    j < sw.nvm ∧ headSource sw ops j t = holder sw ops t slot ∧
      generation sw ops t slot = gen ∧ ∃ d ∈ ring sw ops j t, d.slot = slot := by
  have hhead : j < sw.nvm ∧ ∃ d q, ring sw ops j t = d :: q ∧ d.slot = slot ∧ d.gen = gen := by
    rcases hserves with hreleases | ⟨frame, dstLen, hop, hok⟩
    · obtain ⟨hj, d, hring, htoken⟩ := releases_cases h hreleases
      exact ⟨hj, d, _, hring, htoken⟩
    · obtain ⟨start, now, haccounts⟩ := h.accounts t
      obtain ⟨hj, hhead, -⟩ := switchReadRx_ok haccounts hok
      exact ⟨h.nvm t ▸ hj, hhead⟩
  obtain ⟨hj, d, q, hring, rfl, rfl⟩ := hhead
  have hmem : d ∈ ring sw ops j t := by
    rw [hring]
    exact List.mem_cons_self
  obtain ⟨start, now, haccounts⟩ := h.accounts t
  have hvm : j < (stateAt step sw ops t).nvm := (h.nvm t).symm ▸ hj
  have hlive := haccounts.live j hvm d hmem
  refine ⟨hj, ?_, ((stale_eq_false_iff _ _).mp hlive).2.2, d, hmem, rfl⟩
  rw [headSource, hring]

theorem serves_delivered (hserves : Serves sw ops j t slot gen) :
    headSource sw ops j t < t ∧ Delivered sw ops j (headSource sw ops j t)
      (content ((stateAt step sw ops t).pool.slots slot)) := by
  obtain ⟨hj, hsource, -, d, hmem, rfl⟩ := serves_head h hserves
  rw [hsource]
  exact ring_delivered h hj t d hmem

theorem releases_before {t' slot' : Nat} {gen' : UInt16} (hlt : t < t')
    (hreleases : Releases sw ops j t slot gen) (hserves : Serves sw ops j t' slot' gen') :
    headSource sw ops j t < headSource sw ops j t' := by
  obtain ⟨hj, d, hring, rfl, rfl⟩ := releases_cases h hreleases
  obtain ⟨-, hsource, -⟩ := serves_head h (.inl hreleases)
  have hbefore := (serves_delivered h (.inl hreleases)).1
  have hsorted := ring_sorted h hj t
  rw [hring] at hsorted
  have hbehind : ∀ e ∈ ring sw ops j (t + 1),
      headSource sw ops j t < holder sw ops (t + 1) e.slot := by
    intro e he
    have hmem : e ∈ ring sw ops j t := by
      rw [hring]
      exact List.mem_cons_of_mem d he
    rw [hsource, (ring_kept h hj hmem).1]
    exact (List.pairwise_cons.mp hsorted).1 e he
  obtain ⟨-, hsource', -, e, hmem', rfl⟩ := serves_head h hserves
  rw [hsource']
  exact ring_behind h hj (by omega) hbehind hlt e hmem'

/-- A token serves for the frame it was made for, as long as its slot has not
gone through all generations. -/
theorem serves_token {k : Nat} (hlt : k < t) (htoken : TokenOf sw ops k slot gen)
    (hbirths : births sw ops slot (k + 1) t < 2 ^ 16)
    (hserves : Serves sw ops j t slot gen) : headSource sw ops j t = k := by
  obtain ⟨-, hsource, hgen, -⟩ := serves_head h hserves
  have hadd := generation_add h slot (show k + 1 ≤ t from hlt)
  rw [hgen, htoken.1] at hadd
  have hzero : births sw ops slot (k + 1) t = 0 := by
    have hnat := congrArg UInt16.toNat hadd
    rw [UInt16.toNat_add, UInt16.toNat_ofNat_of_lt' hbirths] at hnat
    have hgenlt := gen.toNat_lt
    omega
  rw [hsource]
  refine holder_eq hlt ?_ hzero
  rw [htoken.1]
  exact htoken.2.symm

end Sources

/-- In every run each guest reads and releases frames that other guests sent it,
in their order and at most once, and only under the token of the frame at the
head of its ring. -/
theorem switch_delivery {s : Storage} {sw : Switch} (hinit : switchInit s = .ok sw)
    {start : Nat} {ops : List Op} (hticks : Ticking start ops) (j : Nat) :
    ∃ source, Delivery sw ops j source := by
  have h := Sound.of_init hinit hticks
  refine ⟨headSource sw ops j, ?_, ?_, ?_, ?_, ?_⟩
  · rintro t slot gen frame hreads
    obtain ⟨start, now, haccounts⟩ := h.accounts t
    have hdelivered := serves_delivered h (.inr ⟨frame, hreads⟩)
    obtain ⟨dstLen, -, hok⟩ := hreads
    rw [(switchReadRx_ok haccounts hok).2.2]
    exact hdelivered
  · exact fun t slot gen hreleases => serves_delivered h (.inl hreleases)
  · rintro t t' hlt ⟨slot, gen, hreleases⟩ ⟨slot', gen', hserves⟩
    exact releases_before h hlt hreleases hserves
  · intro t slot gen htoken
    obtain ⟨start, now, haccounts⟩ := h.accounts t
    exact ⟨fun dstLen => switchReadRx_refused haccounts dstLen htoken,
      switchReleaseRx_refused haccounts htoken⟩
  · exact fun t k slot gen hlt htoken hbirths hserves =>
      serves_token h hlt htoken hbirths hserves

section Sample

/-- A frame to every guest, from the address that the first one assigns itself. -/
def deliveryOps : List Op :=
  [.openVnic 0, .openVnic 1, .assignMac 0 sampleMac,
    .tx 0 sampleFrame 0, .readRx 1 0 1 1536, .releaseRx 1 0 1]

theorem switch_delivery_sample : ∃ sw, switchInit sampleStorage = .ok sw ∧ Ticking 0 deliveryOps ∧
      Reads sw deliveryOps 1 4 0 1 sampleFrame ∧
      Releases sw deliveryOps 1 5 0 1 ∧ ∃ source, Delivery sw deliveryOps 1 source := by
  have hticks : Ticking 0 deliveryOps := ⟨by decide, by decide⟩
  exact ⟨_, rfl, hticks, ⟨1536, rfl, by decide +kernel⟩, ⟨rfl, by decide +kernel⟩,
    switch_delivery (s := sampleStorage) rfl hticks 1⟩

end Sample

section Wrap

variable {sw : Switch} {srcVm slot : Nat} {frame : List UInt8} {now : UInt32}

/-- A guest that may transmit the frame, which goes nowhere. -/
structure Futile (sw : Switch) (srcVm : Nat) (frame : List UInt8) (slot : Nat) :
    Prop where
  nvm : srcVm < sw.nvm
  isOpen : (sw.vnics srcVm).isOpen = true
  mac : (sw.vnics srcVm).mac = some (macAt frame vnetMacLen)
  length : ¬(frame.length < frameMin ∨ frameMax < frame.length)
  source : (macIsZero (macAt frame vnetMacLen) || macIsMulticast (macAt frame vnetMacLen)) = false
  destination : macIsZero (macAt frame 0) = true
  learned : (fdbLearn sw.fdb srcVm (macAt frame vnetMacLen)).2 = sw.fdb
  free : sw.pool.free = some slot
  used : sw.pool.inUseCount + 1 < 2 ^ 16

/-- What `n` such transmissions leave in the slot. -/
def spent (frame : List UInt8) (srcVm : Nat) (now : UInt32) (n : Nat) (f : Frame) : Frame :=
  { len := frame.length, gen := f.gen + UInt16.ofNat n, refcnt := 0, srcVm
    bornTick := now, data := frame ++ f.data.drop frame.length }

theorem Futile.switchTx_eq (h : Futile sw srcVm frame slot) : (switchTx sw srcVm frame now).2 =
      { sw with
        pool := sw.pool.set slot (spent frame srcVm now 1 (sw.pool.slots slot)) } := by
  have hslot : slot < sw.pool.slotCount := List.mem_range.mp (List.mem_of_find?_eq_some h.free)
  have hequals : macEquals (macAt frame vnetMacLen) (macAt frame vnetMacLen) =
      true := (macEquals_iff _ _).mpr rfl
  have hfilled : ((sw.pool.take slot now).fill slot frame srcVm).slots slot =
      { len := frame.length, gen := (sw.pool.slots slot).gen + 1, refcnt := 1, srcVm
        bornTick := now
        data := frame ++ (sw.pool.slots slot).data.drop frame.length } := by
    simp [Pool.fill, Pool.take, Pool.set]
  have hfreed : ((sw.pool.take slot now).fill slot frame srcVm).unref slot =
      sw.pool.set slot (spent frame srcVm now 1 (sw.pool.slots slot)) := by
    obtain ⟨hslots, hcount, huse⟩ :=
      unref_eq ((sw.pool.take slot now).fill slot frame srcVm) slot
    rw [if_pos (by rw [hfilled]; rfl)] at huse
    rw [hfilled] at hslots
    refine Pool.ext ?_ hcount ?_
    · rw [hslots]
      funext i
      by_cases heq : i = slot
      · subst heq
        simp [recount, spent, Pool.fill, Pool.take, Pool.set]
      · simp [recount, Pool.fill, Pool.take, Pool.set, heq]
    · rw [huse]
      show (sw.pool.inUseCount + 1) % 2 ^ 16 - 1 = sw.pool.inUseCount
      rw [Nat.mod_eq_of_lt h.used, Nat.add_sub_cancel]
  have hrelease := poolRelease_of_used (p := (sw.pool.take slot now).fill slot frame srcVm) hslot
    (by rw [hfilled]; exact Nat.one_ne_zero)
  simp only [switchTx, Nat.not_le.mpr h.nvm, h.isOpen, h.mac, h.length, h.source,
    hequals, h.learned, poolAlloc, h.free, Option.map_some, if_false,
    Bool.true_eq_false, Bool.false_eq_true, forward, h.destination, if_true,
    dropScratch, hrelease, hfreed]

theorem Futile.again (h : Futile sw srcVm frame slot) (n : Nat) : Futile
      { sw with
        pool := sw.pool.set slot (spent frame srcVm now n (sw.pool.slots slot)) }
      srcVm frame slot := by
  have hrefcnt : (sw.pool.slots slot).refcnt = 0 := by simpa using List.find?_some h.free
  refine { h with free := ?_ }
  rw [← h.free]
  unfold Pool.free
  refine congrArg (List.find? · _) (funext fun i => ?_)
  by_cases heq : i = slot
  · subst heq
    simp [Pool.set, spent, hrefcnt]
  · simp [Pool.set, heq]

theorem Futile.run_eq (h : Futile sw srcVm frame slot) (tick n : Nat) :
    run step sw (List.replicate (n + 1) (.tx srcVm frame tick)) =
      { sw with
        pool := sw.pool.set slot
          (spent frame srcVm (UInt32.ofNat tick) (n + 1) (sw.pool.slots slot)) } := by
  induction n with
  | zero => exact h.switchTx_eq
  | succ n ih =>
    rw [List.replicate_succ', run_snoc, ih]
    refine (h.again (n + 1)).switchTx_eq.trans ?_
    have hspent : spent frame srcVm (UInt32.ofNat tick) 1
        (spent frame srcVm (UInt32.ofNat tick) (n + 1) (sw.pool.slots slot)) =
          spent frame srcVm (UInt32.ofNat tick) (n + 1 + 1) (sw.pool.slots slot) := by
      simp [spent, UInt16.ofNat_add, UInt16.add_assoc]
    simp only [Pool.set, Function.update_self, Function.update_idem, hspent]

theorem stateAt_append (sw : Switch) (earlier later : List Op) {t : Nat} (ht : earlier.length = t) :
    stateAt step sw (earlier ++ later) t = run step sw earlier := by
  rw [stateAt, List.take_left' ht]

def otherFrame : List UInt8 :=
  [0xFF, 0xFF, 0xFF, 0xFF, 0xFF, 0xFF, 2, 0, 0, 0, 0, 1, 9, 9]

/-- No guest has the address zero. -/
def lostFrame : List UInt8 := [0, 0, 0, 0, 0, 0, 2, 0, 0, 0, 0, 1, 8, 0]

/-- The first guest's frame is released; then its slot goes through all its other
generations. -/
def wrapOps : List Op :=
  deliveryOps ++ List.replicate 65535 (.tx 0 lostFrame 0)

/-- A frame in the generation of the first one. -/
def reuseOps : List Op :=
  wrapOps ++ [.tx 0 otherFrame 0, .readRx 1 0 1 1536, .releaseRx 1 0 1]

def sampleSwitch : Switch :=
  { vnics := fun vm => vnicReset (sampleStorage.rings vm) sampleStorage.ringCapacity
    nvm := sampleStorage.nvm
    pool := poolInit sampleStorage.frames sampleStorage.frameCount sampleStorage.frameCount_lt
    fdb := fdbInit sampleStorage.fdb sampleStorage.fdbCapacity
    unknownUnicastFlood := sampleStorage.unknownUnicastFlood }

theorem deliveryOps_futile : Futile (run step sampleSwitch deliveryOps) 0 lostFrame 0 := by
  have hinit : switchInit sampleStorage = .ok sampleSwitch := rfl
  have haddressed := run_addressed (switchInit_addressed hinit) deliveryOps
  have hmac : ((run step sampleSwitch deliveryOps).vnics 0).mac =
      some (macAt lostFrame vnetMacLen) := by decide +kernel
  exact
    { nvm := by decide +kernel
      isOpen := by decide +kernel
      mac := hmac
      length := by decide
      source := by decide
      destination := by decide
      learned := fdbLearn_eq haddressed hmac 0
      free := by decide +kernel
      used := by decide +kernel }

/-- The switch once the slot is back in its first generation but one. -/
def wrappedSwitch : Switch :=
  let sw := run step sampleSwitch deliveryOps
  { sw with pool := sw.pool.set 0 (spent lostFrame 0 0 65535 (sw.pool.slots 0)) }

theorem run_wrapOps : run step sampleSwitch wrapOps = wrappedSwitch := by
  rw [wrapOps, run, List.foldl_append]
  exact deliveryOps_futile.run_eq 0 65534

theorem wrapOps_length : wrapOps.length = 65541 := by
  rw [wrapOps, List.length_append, List.length_replicate]
  rfl

/-- The token of the first frame, released long ago, reads and releases another
one: the generations of the slot have wrapped. -/
theorem token_serves_later_frame :
    switchInit sampleStorage = .ok sampleSwitch ∧ Ticking 0 reuseOps ∧
      TokenOf sampleSwitch reuseOps 3 0 1 ∧
      Delivered sampleSwitch reuseOps 1 3 sampleFrame ∧
      Releases sampleSwitch reuseOps 1 5 0 1 ∧
      Reads sampleSwitch reuseOps 1 65542 0 1 otherFrame ∧
      Releases sampleSwitch reuseOps 1 65543 0 1 := by
  have hticks : ∀ t ∈ reuseOps.filterMap Op.tick, t = 0 := by
    intro t ht
    obtain ⟨op, hop, htick⟩ := List.mem_filterMap.mp ht
    rw [reuseOps, wrapOps, List.mem_append, List.mem_append] at hop
    rcases hop with (hop | hop) | hop
    · have hall : ∀ op ∈ deliveryOps, ∀ t ∈ op.tick, t = 0 := by decide
      exact hall op hop t htick
    · rw [List.eq_of_mem_replicate hop] at htick
      exact (Option.some.inj htick).symm
    · have hall : ∀ op ∈ [Op.tx 0 otherFrame 0, .readRx 1 0 1 1536,
          .releaseRx 1 0 1], ∀ t ∈ op.tick, t = 0 := by decide
      exact hall op hop t htick
  have hsorted : (reuseOps.filterMap Op.tick).Pairwise (· ≤ ·) :=
    List.pairwise_of_forall_mem_list fun a ha b _ => by
      rw [hticks a ha]
      exact Nat.zero_le b
  have hearly : ∀ t ≤ 6, stateAt step sampleSwitch reuseOps t =
      stateAt step sampleSwitch deliveryOps t := by
    intro t ht
    rw [stateAt, reuseOps, wrapOps, List.append_assoc,
      List.take_append_of_le_length (show t ≤ deliveryOps.length from ht), stateAt]
  have hat : ∀ t < 6, reuseOps[t]? = deliveryOps[t]? := by
    intro t ht
    rw [reuseOps, wrapOps, List.append_assoc,
      List.getElem?_append_left (show t < deliveryOps.length from ht)]
  have hlate : ∀ i, reuseOps[65541 + i]? =
      [Op.tx 0 otherFrame 0, .readRx 1 0 1 1536, .releaseRx 1 0 1][i]? := by
    intro i
    rw [reuseOps, List.getElem?_append_right (by rw [wrapOps_length]; omega),
      wrapOps_length, Nat.add_sub_cancel_left]
  have hread : stateAt step sampleSwitch reuseOps 65542 =
      step wrappedSwitch (.tx 0 otherFrame 0) := by
    have hfirst := stateAt_append sampleSwitch wrapOps
      [.tx 0 otherFrame 0, .readRx 1 0 1 1536, .releaseRx 1 0 1] wrapOps_length
    rw [run_wrapOps] at hfirst
    rw [← hfirst]
    exact stateAt_succ (hlate 0)
  have hrelease : stateAt step sampleSwitch reuseOps 65543 =
      step (step wrappedSwitch (.tx 0 otherFrame 0)) (.readRx 1 0 1 1536) := by
    rw [← hread]
    exact stateAt_succ (hlate 1)
  refine ⟨rfl, ⟨hsorted, fun t ht => ?_⟩, ⟨?_, ?_⟩, ⟨0, 0, ?_⟩, ⟨hat 5 (by decide), ?_⟩,
    ⟨1536, hlate 1, ?_⟩, hlate 2, ?_⟩
  · rw [hticks t ht]
    decide
  · rw [generation, hearly 4 (by decide)]
    decide +kernel
  · rw [generation, hearly 3 (by decide)]
    decide +kernel
  · rw [hearly 3 (by decide), hearly 4 (by decide)]
    exact ⟨hat 3 (by decide), by decide, by decide +kernel, .inl (by decide),
      by decide +kernel⟩
  · rw [hearly 5 (by decide)]
    decide +kernel
  · rw [hread]
    decide +kernel
  · rw [hrelease]
    decide +kernel

end Wrap

end WolfTrust.VnetDelivery
