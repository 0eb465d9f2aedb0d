import Mathlib.Algebra.BigOperators.Group.Finset.Basic
import Mathlib.Algebra.BigOperators.Group.Finset.Piecewise
import Mathlib.Algebra.Order.BigOperators.Group.Finset
import Mathlib.Algebra.BigOperators.Intervals
import WolfTrust.StepRuns
import WolfTrust.VnetSwitch

namespace WolfTrust.VnetAccounting

open VnetSwitch

theorem sum_update {α : Type*} (f : Nat → α) (g : α → Nat) {n a : Nat} (h : a < n) (x : α) :
    ∑ i ∈ Finset.range n, g (Function.update f a x i) + g (f a) =
      ∑ i ∈ Finset.range n, g (f i) + g x := by
  have hmem : a ∈ Finset.range n := Finset.mem_range.mpr h
  have hcomp : (fun i => g (Function.update f a x i)) =
      Function.update (fun i => g (f i)) a (g x) :=
    Function.comp_update g f a x
  rw [hcomp, Finset.sum_update_of_mem hmem, Finset.sdiff_singleton_eq_erase,
    ← Finset.add_sum_erase _ _ hmem]
  omega

/-- What the accounts are about: the pool, and the rings as lists. -/
structure Ledger where
  pool : Pool
  nvm : Nat
  queue : Nat → List Desc
  pending : Nat → Bool

def ledger (sw : Switch) : Ledger :=
  { pool := sw.pool
    nvm := sw.nvm
    queue := fun vm => (sw.vnics vm).rxq.toList
    pending := fun vm => (sw.vnics vm).rxIrqPending }

theorem ledger_setVnic (sw : Switch) (vm : Nat) (v : Vnic) : ledger (sw.setVnic vm v) =
      { ledger sw with
        queue := Function.update (ledger sw).queue vm v.rxq.toList
        pending := Function.update (ledger sw).pending vm v.rxIrqPending } := by
  simp only [ledger, Switch.setVnic]
  congr 1
  · exact Function.comp_update (fun v : Vnic => v.rxq.toList) sw.vnics vm v
  · exact Function.comp_update (fun v : Vnic => v.rxIrqPending) sw.vnics vm v

def held (nvm : Nat) (queue : Nat → List Desc) (slot : Nat) : Nat :=
  ∑ vm ∈ Finset.range nvm, (queue vm).countP (·.slot = slot)

variable {d : Desc} {nvm vm : Nat}

theorem held_update (queue : Nat → List Desc) (slot : Nat) (h : vm < nvm) (q : List Desc) :
    held nvm (Function.update queue vm q) slot + (queue vm).countP (·.slot = slot) =
      held nvm queue slot + q.countP (·.slot = slot) :=
  sum_update queue (List.countP fun d : Desc => decide (d.slot = slot)) h q

theorem countP_le_held (queue : Nat → List Desc) (slot : Nat)
    (h : vm < nvm) : (queue vm).countP (·.slot = slot) ≤ held nvm queue slot :=
  Finset.single_le_sum (f := fun vm => (queue vm).countP (·.slot = slot))
    (fun _ _ => Nat.zero_le _) (Finset.mem_range.mpr h)

theorem held_pos {queue : Nat → List Desc} (h : vm < nvm)
    (hd : d ∈ queue vm) : 0 < held nvm queue d.slot := by
  refine Nat.lt_of_lt_of_le ?_ (countP_le_held queue d.slot h)
  exact List.countP_pos_iff.mpr ⟨d, hd, decide_eq_true rfl⟩

def busy (f : Frame) : Nat := if f.refcnt = 0 then 0 else 1

def inUse (p : Pool) : Nat := ∑ i ∈ Finset.range p.slotCount, busy (p.slots i)

theorem inUse_set (p : Pool) (f : Frame) {slot : Nat} (h : slot < p.slotCount) :
    inUse (p.set slot f) + busy (p.slots slot) = inUse p + busy f :=
  sum_update p.slots busy h f

theorem inUse_le (p : Pool) : inUse p ≤ p.slotCount := by
  have hle : inUse p ≤ ∑ _i ∈ Finset.range p.slotCount, 1 :=
    Finset.sum_le_sum fun i _ => by
      unfold busy
      split <;> omega
  simpa using hle

/-- The time from `start` to a tick of the code. -/
def age (start : Nat) (tick : UInt32) : Nat := (tick - UInt32.ofNat start).toNat

theorem age_ofNat {start now : Nat} (hfrom : start ≤ now) (hspan : now < start + 2 ^ 32) :
    age start (UInt32.ofNat now) = now - start := by
  rw [age, ← UInt32.ofNat_sub hfrom, UInt32.toNat_ofNat_of_lt']
  show now - start < 2 ^ 32
  omega

theorem age_sub {start : Nat} {born now : UInt32} (h : age start born ≤ age start now) :
    (now - born).toNat = age start now - age start born := by
  have hsub : now - born = now - UInt32.ofNat start - (born - UInt32.ofNat start) := by
    apply UInt32.toBitVec_inj.mp
    simp only [UInt32.toBitVec_sub]
    bv_omega
  rw [hsub, UInt32.toNat_sub_of_le _ _ (UInt32.le_iff_toNat_le.mpr h)]
  rfl

theorem stale_eq_false_iff (p : Pool) (d : Desc) : stale p d = false ↔
      d.slot < p.slotCount ∧ (p.slots d.slot).refcnt ≠ 0 ∧ (p.slots d.slot).gen = d.gen := by
  unfold stale poolSlot
  split
  case isTrue h => simp [Nat.not_lt.mpr h]
  case isFalse h =>
    split
    case isTrue hfree => simp [hfree]
    case isFalse hused =>
      split
      case isTrue hgen => simp [hgen]
      case isFalse hgen => simp [Nat.not_le.mp h, hused, not_not.mp hgen]

theorem stale_set_of_ne (p : Pool) (f : Frame) {slot : Nat}
    (h : d.slot ≠ slot) : stale (p.set slot f) d = stale p d := by
  simp only [stale, poolSlot, Pool.set, Function.update_of_ne h]

/-- The descriptors of a ring are in the order of their frames' births. -/
def Ordered (start : Nat) (p : Pool) (q : List Desc) : Prop :=
  q.Pairwise fun a b =>
    age start (p.slots a.slot).bornTick ≤ age start (p.slots b.slot).bornTick

theorem Ordered.congr {start : Nat} {p p' : Pool} {q : List Desc} (h : Ordered start p q)
    (hborn : ∀ d ∈ q, (p'.slots d.slot).bornTick = (p.slots d.slot).bornTick) :
    Ordered start p' q := by
  refine List.Pairwise.imp_of_mem (fun {a b} ha hb hab => ?_) h
  rw [hborn a ha, hborn b hb]
  exact hab

/-- A slot with other references, in the same generation and of the same birth. -/
def recount (p : Pool) (slot refcnt : Nat) : Pool :=
  p.set slot { p.slots slot with refcnt }

section Recount

variable (p : Pool) (slot refcnt : Nat)

theorem recount_refcnt (other : Nat) : ((recount p slot refcnt).slots other).refcnt =
      if other = slot then refcnt else (p.slots other).refcnt := by
  by_cases heq : other = slot
  · simp [recount, Pool.set, heq]
  · simp [recount, Pool.set, heq]

theorem recount_gen (other : Nat) :
    ((recount p slot refcnt).slots other).gen = (p.slots other).gen := by
  by_cases heq : other = slot
  · simp [recount, Pool.set, heq]
  · simp [recount, Pool.set, heq]

theorem recount_bornTick (other : Nat) :
    ((recount p slot refcnt).slots other).bornTick = (p.slots other).bornTick := by
  by_cases heq : other = slot
  · simp [recount, Pool.set, heq]
  · simp [recount, Pool.set, heq]

theorem inUse_recount (h : slot < p.slotCount) :
    inUse (recount p slot refcnt) + (if (p.slots slot).refcnt = 0 then 0 else 1) =
      inUse p + if refcnt = 0 then 0 else 1 :=
  inUse_set p _ h

theorem stale_recount (h : stale p d = false)
    (hrefs : d.slot = slot → refcnt ≠ 0) : stale (recount p slot refcnt) d = false := by
  obtain ⟨hslot, hused, hgen⟩ := (stale_eq_false_iff p d).mp h
  rw [stale_eq_false_iff, recount_refcnt, recount_gen]
  refine ⟨hslot, ?_, hgen⟩
  split
  case isTrue heq => exact hrefs heq
  case isFalse => exact hused

end Recount

theorem unref_eq (p : Pool) (slot : Nat) :
    (p.unref slot).slots = (recount p slot ((p.slots slot).refcnt - 1)).slots ∧
      (p.unref slot).slotCount = p.slotCount ∧
      (p.unref slot).inUseCount =
        if (p.slots slot).refcnt - 1 = 0 then p.inUseCount - 1 else p.inUseCount := by
  unfold Pool.unref
  split
  · exact ⟨rfl, rfl, rfl⟩
  · exact ⟨rfl, rfl, rfl⟩

/-- The accounts at time `now`. `scratch` is the slot that a transmission holds a
reference of its own to. -/
structure Accounts (start now : Nat) (scratch : Option Nat) (l : Ledger) : Prop where
  counted : ∀ slot < l.pool.slotCount, (l.pool.slots slot).refcnt =
    held l.nvm l.queue slot + if scratch = some slot then 1 else 0
  live : ∀ vm < l.nvm, ∀ d ∈ l.queue vm, stale l.pool d = false
  used : l.pool.inUseCount = inUse l.pool
  aged : ∀ slot < l.pool.slotCount, (l.pool.slots slot).refcnt ≠ 0 →
    age start (l.pool.slots slot).bornTick ≤ now - start
  ordered : ∀ vm < l.nvm, Ordered start l.pool (l.queue vm)
  irq : ∀ vm < l.nvm, l.pending vm = true ↔ l.queue vm ≠ []

namespace Accounts

variable {start now slot : Nat} {scratch : Option Nat} {l : Ledger}

theorem later {now' : Nat} (h : Accounts start now scratch l) (hle : now ≤ now') :
    Accounts start now' scratch l :=
  { h with
    aged := fun slot hslot hused => (h.aged slot hslot hused).trans (by omega) }

theorem not_named (h : Accounts start now scratch l) {vm : Nat} (hvm : vm < l.nvm)
    (hd : d ∈ l.queue vm) (hfree : (l.pool.slots slot).refcnt = 0) : d.slot ≠ slot := by
  rintro rfl
  exact ((stale_eq_false_iff _ _).mp (h.live vm hvm d hd)).2.1 hfree

theorem take (h : Accounts start now none l) (hfree : l.pool.free = some slot)
    (hfrom : start ≤ now) (hspan : now < start + 2 ^ 32) :
    Accounts start now (some slot)
      { l with pool := l.pool.take slot (UInt32.ofNat now) } := by
  have hslot : slot < l.pool.slotCount := List.mem_range.mp (List.mem_of_find?_eq_some hfree)
  have hrefcnt : (l.pool.slots slot).refcnt = 0 := by simpa using List.find?_some hfree
  refine ⟨fun other hother => ?_, fun vm hvm d hd => ?_, ?_, fun other hother hused => ?_,
    fun vm hvm => ?_, h.irq⟩
  · have hcount := h.counted other hother
    simp only [reduceCtorEq, if_false, Nat.add_zero] at hcount
    by_cases heq : other = slot
    · subst heq
      simp [Pool.take, Pool.set, ← hcount, hrefcnt]
    · have hne : ¬slot = other := fun hsame => heq hsame.symm
      simp [Pool.take, Pool.set, Function.update_of_ne heq, hcount, hne]
  · have hne := h.not_named hvm hd hrefcnt
    exact (stale_set_of_ne _ _ hne).trans (h.live vm hvm d hd)
  · have hset := inUse_set l.pool
      { l.pool.slots slot with
        gen := (l.pool.slots slot).gen + 1
        refcnt := 1
        len := 0
        srcVm := 0
        bornTick := UInt32.ofNat now } hslot
    rw [busy, if_pos hrefcnt, busy, if_neg Nat.one_ne_zero] at hset
    -- one more slot is in use, and there is a slot for each, so nothing wraps
    have hle := inUse_le (l.pool.take slot (UInt32.ofNat now))
    have hlt := l.pool.slotCount_lt
    show (l.pool.inUseCount + 1) % 2 ^ 16 = inUse (l.pool.take slot (UInt32.ofNat now))
    change inUse (l.pool.take slot (UInt32.ofNat now)) + 0 = inUse l.pool + 1 at hset
    change inUse (l.pool.take slot (UInt32.ofNat now)) ≤ l.pool.slotCount at hle
    rw [h.used, ← hset, Nat.add_zero, Nat.mod_eq_of_lt (by omega)]
  · by_cases heq : other = slot
    · subst heq
      simp [Pool.take, Pool.set, age_ofNat hfrom hspan]
    · simp only [Pool.take, Pool.set, Function.update_of_ne heq] at hused ⊢
      exact h.aged other hother hused
  · refine (h.ordered vm hvm).congr fun d hd => ?_
    simp only [Pool.take, Pool.set, Function.update_of_ne (h.not_named hvm hd hrefcnt)]

theorem enqueue {vm : Nat} (h : Accounts start now (some d.slot) l) (hvm : vm < l.nvm)
    (hslot : d.slot < l.pool.slotCount) (hgen : (l.pool.slots d.slot).gen = d.gen)
    (hborn : age start (l.pool.slots d.slot).bornTick = now - start) :
    Accounts start now (some d.slot)
      { l with
        pool := recount l.pool d.slot ((l.pool.slots d.slot).refcnt + 1)
        queue := Function.update l.queue vm (l.queue vm ++ [d])
        pending := Function.update l.pending vm true } := by
  have hused : (l.pool.slots d.slot).refcnt ≠ 0 := by
    rw [h.counted d.slot hslot, if_pos rfl]
    omega
  have hlive : ∀ v < l.nvm, ∀ e ∈ Function.update l.queue vm (l.queue vm ++ [d]) v,
      stale l.pool e = false := by
    intro v hv e he
    by_cases heq : v = vm
    · rw [heq, Function.update_self, List.mem_append, List.mem_singleton] at he
      obtain he | rfl := he
      · exact h.live vm hvm e he
      · exact (stale_eq_false_iff _ _).mpr ⟨hslot, hused, hgen⟩
    · rw [Function.update_of_ne heq] at he
      exact h.live v hv e he
  have hordered : ∀ v < l.nvm,
      Ordered start l.pool (Function.update l.queue vm (l.queue vm ++ [d]) v) := by
    intro v hv
    by_cases heq : v = vm
    · rw [heq, Function.update_self]
      refine List.pairwise_append.mpr
        ⟨h.ordered vm hvm, List.pairwise_singleton _ _, fun e he e' he' => ?_⟩
      -- what is in the ring was born by now
      rw [List.mem_singleton.mp he', hborn]
      have hfresh := (stale_eq_false_iff _ _).mp (h.live vm hvm e he)
      exact h.aged e.slot hfresh.1 hfresh.2.1
    · rw [Function.update_of_ne heq]
      exact h.ordered v hv
  constructor
  case counted =>
    intro other hother
    have hheld := held_update l.queue other hvm (l.queue vm ++ [d])
    have hcount := h.counted other hother
    simp only [List.countP_append, List.countP_singleton, decide_eq_true_eq] at hheld
    simp only [Option.some.injEq] at hcount ⊢
    rw [recount_refcnt]
    by_cases heq : other = d.slot
    · subst heq
      simp only [if_true] at hcount hheld ⊢
      omega
    · have hne : ¬d.slot = other := fun hsame => heq hsame.symm
      simp only [if_neg heq, if_neg hne] at hcount hheld ⊢
      omega
  case live =>
    exact fun v hv e he => stale_recount _ _ _ (hlive v hv e he) fun _ => Nat.succ_ne_zero _
  case used =>
    have hset := inUse_recount l.pool d.slot ((l.pool.slots d.slot).refcnt + 1) hslot
    rw [if_neg hused, if_neg (Nat.succ_ne_zero _)] at hset
    exact h.used.trans (Nat.add_right_cancel hset).symm
  case aged =>
    intro other hother hrefs
    rw [recount_bornTick]
    rw [recount_refcnt] at hrefs
    refine h.aged other hother ?_
    by_cases heq : other = d.slot
    · rwa [heq]
    · rwa [if_neg heq] at hrefs
  case ordered =>
    exact fun v hv => (hordered v hv).congr fun e _ => recount_bornTick _ _ _ e.slot
  case irq =>
    intro v hv
    by_cases heq : v = vm
    · subst heq
      simp
    · simp only [Function.update_of_ne heq]
      exact h.irq v hv

theorem dequeue {q : List Desc} {vm : Nat} (h : Accounts start now none l)
    (hvm : vm < l.nvm) (hq : l.queue vm = d :: q) :
    Accounts start now (some d.slot)
      { l with
        queue := Function.update l.queue vm q
        pending := Function.update l.pending vm (!q.isEmpty) } := by
  have hsub : ∀ v, (Function.update l.queue vm q v).Sublist (l.queue v) := by
    intro v
    by_cases heq : v = vm
    · rw [heq, Function.update_self, hq]
      exact List.sublist_cons_self d q
    · rw [Function.update_of_ne heq]
  refine ⟨fun other hother => ?_, fun v hv e he => ?_, h.used, h.aged,
    fun v hv => (h.ordered v hv).sublist (hsub v), fun v hv => ?_⟩
  · have hheld := held_update l.queue other hvm q
    have hcount := h.counted other hother
    simp only [hq, List.countP_cons, decide_eq_true_eq] at hheld
    simp only [reduceCtorEq, if_false, Nat.add_zero] at hcount
    simp only [Option.some.injEq]
    omega
  · exact h.live v hv e ((hsub v).subset he)
  · by_cases heq : v = vm
    · subst heq
      simp
    · simp only [Function.update_of_ne heq]
      exact h.irq v hv

theorem unref (h : Accounts start now (some slot) l) (hslot : slot < l.pool.slotCount) :
    Accounts start now none { l with pool := l.pool.unref slot } := by
  have hcount := h.counted slot hslot
  rw [if_pos rfl] at hcount
  obtain ⟨hslots, hsize, huse⟩ := unref_eq l.pool slot
  constructor
  case counted =>
    intro other hother
    have hthis := h.counted other (hsize ▸ hother)
    simp only [hslots, recount_refcnt, reduceCtorEq, if_false, Nat.add_zero]
    simp only [Option.some.injEq] at hthis
    by_cases heq : other = slot
    · subst heq
      simp only [if_true]
      omega
    · have hne : ¬slot = other := fun hsame => heq hsame.symm
      rw [if_neg hne] at hthis
      rw [if_neg heq]
      exact hthis
  case live =>
    intro vm hvm d hd
    have hfresh := stale_recount _ slot ((l.pool.slots slot).refcnt - 1)
      (h.live vm hvm d hd) fun heq => by
        -- a descriptor is left, so this was not the last reference
        have hpos : 0 < held l.nvm l.queue d.slot := held_pos hvm hd
        rw [heq] at hpos
        omega
    rw [stale_eq_false_iff] at hfresh ⊢
    rw [hslots, hsize]
    exact hfresh
  case used =>
    have hset := inUse_recount l.pool slot ((l.pool.slots slot).refcnt - 1) hslot
    have hused : (l.pool.slots slot).refcnt ≠ 0 := by omega
    have hsame : inUse (l.pool.unref slot) =
        inUse (recount l.pool slot ((l.pool.slots slot).refcnt - 1)) := by
      unfold inUse
      rw [hslots, hsize]
      rfl
    have hbefore := h.used
    rw [if_neg hused] at hset
    rw [hsame]
    dsimp only
    by_cases hlast : (l.pool.slots slot).refcnt - 1 = 0
    · rw [if_pos hlast] at hset huse
      omega
    · rw [if_neg hlast] at hset huse
      omega
  case aged =>
    intro other hother hrefs
    simp only [hslots, recount_refcnt, recount_bornTick] at hrefs ⊢
    refine h.aged other (hsize ▸ hother) ?_
    by_cases heq : other = slot
    · rw [heq]
      omega
    · rwa [if_neg heq] at hrefs
  case ordered =>
    exact fun vm hvm => (h.ordered vm hvm).congr fun d _ => by rw [hslots, recount_bornTick]
  case irq => exact h.irq

end Accounts

section Expiry

variable (p : Pool) (now timeout : UInt32)

/-- The slots once the reaper has passed the first `k`. -/
def reaped (k i : Nat) : Frame :=
  if i < k ∧ p.expired now timeout i = true then { p.slots i with refcnt := 0 }
  else p.slots i

theorem reap_loop (hused : p.inUseCount = inUse p) {k : Nat} (hk : k ≤ p.slotCount) :
    let r := (List.range k).foldl (reapExpired now timeout) (0, p)
    r.2.slots = reaped p now timeout k ∧ r.2.slotCount = p.slotCount ∧ r.2.inUseCount = inUse r.2 ∧
      (r.1 = 0 → ∀ i < k, p.expired now timeout i = false) := by
  induction k with
  | zero => exact ⟨by funext i; simp [reaped], rfl, hused, fun _ i hi => by omega⟩
  | succ k ih =>
    obtain ⟨hslots, hsize, huse, hnone⟩ := ih (by omega)
    rw [List.range_succ, List.foldl_append]
    generalize (List.range k).foldl (reapExpired now timeout) (0, p) = r at *
    simp only [List.foldl_cons, List.foldl_nil]
    have hself : r.2.slots k = p.slots k := by
      rw [hslots, reaped, if_neg (fun h => Nat.lt_irrefl k h.1)]
    have hexpired : r.2.expired now timeout k = p.expired now timeout k := by
      simp only [Pool.expired, hself]
    have hother : ∀ i, i ≠ k → reaped p now timeout (k + 1) i = reaped p now timeout k i := by
      intro i hi
      have hiff : i < k + 1 ↔ i < k := by omega
      simp only [reaped, hiff]
    unfold reapExpired
    rw [hexpired]
    split
    case isTrue hyes =>
      refine ⟨?_, hsize, ?_, fun h => absurd h (Nat.succ_ne_zero _)⟩
      · funext i
        by_cases heq : i = k
        · subst heq
          simp [Pool.reap, Pool.set, reaped, hyes, hself]
        · rw [hother i heq, ← hslots]
          simp [Pool.reap, Pool.set, heq]
      · have hset := inUse_recount r.2 k 0 (by omega)
        have hlive : (r.2.slots k).refcnt ≠ 0 := by
          rw [← hexpired] at hyes
          simp only [Pool.expired, Bool.and_eq_true, bne_iff_ne] at hyes
          exact hyes.1
        rw [if_neg hlive, if_pos rfl] at hset
        show r.2.inUseCount - 1 = inUse (recount r.2 k 0)
        omega
    case isFalse hno =>
      refine ⟨?_, hsize, huse, fun h i hi => ?_⟩
      · funext i
        by_cases heq : i = k
        · subst heq
          rw [hself, reaped, if_neg (fun h => hno h.2)]
        · rw [hother i heq, hslots]
      · obtain hlt | rfl : i < k ∨ i = k := by omega
        · exact hnone h i hlt
        · simpa using hno

end Expiry

section DropWhile

variable {α : Type*} {p q : α → Bool} {l : List α}

theorem of_mem_dropWhile (hfirst : l.Pairwise fun a b => p b = true → p a = true)
    {x : α} (hx : x ∈ l.dropWhile p) : p x = false := by
  induction l with
  | nil => cases hx
  | cons a l ih =>
    obtain ⟨ha, hl⟩ := List.pairwise_cons.mp hfirst
    by_cases hpa : p a = true
    · rw [List.dropWhile_cons_of_pos hpa] at hx
      exact ih hl hx
    · rw [List.dropWhile_cons_of_neg hpa, List.mem_cons] at hx
      obtain rfl | hx := hx
      · exact Bool.eq_false_iff.mpr hpa
      · exact Bool.eq_false_iff.mpr fun hpx => hpa (ha x hx hpx)

theorem countP_dropWhile (h : ∀ x ∈ l, p x = true → q x = false) :
    (l.dropWhile p).countP q = l.countP q := by
  induction l with
  | nil => rfl
  | cons a l ih =>
    by_cases hpa : p a = true
    · rw [List.dropWhile_cons_of_pos hpa, ih fun x hx => h x (List.mem_cons_of_mem a hx),
        List.countP_cons_of_neg]
      simp [h a List.mem_cons_self hpa]
    · rw [List.dropWhile_cons_of_neg hpa]

end DropWhile

theorem expired_first {start now : Nat} {l : Ledger} {vm : Nat} {timeout : UInt32}
    (h : Accounts start now none l) (hvm : vm < l.nvm) (hfrom : start ≤ now)
    (hspan : now < start + 2 ^ 32) :
    (l.queue vm).Pairwise fun a b =>
      l.pool.expired (UInt32.ofNat now) timeout b.slot = true →
        l.pool.expired (UInt32.ofNat now) timeout a.slot = true := by
  have helapsed : ∀ d ∈ l.queue vm, (l.pool.slots d.slot).refcnt ≠ 0 ∧
      (UInt32.ofNat now - (l.pool.slots d.slot).bornTick).toNat =
        now - start - age start (l.pool.slots d.slot).bornTick := by
    intro d hd
    obtain ⟨hslot, hused, -⟩ := (stale_eq_false_iff _ _).mp (h.live vm hvm d hd)
    have hage := h.aged d.slot hslot hused
    rw [← age_ofNat hfrom hspan] at hage ⊢
    exact ⟨hused, age_sub hage⟩
  refine List.Pairwise.imp_of_mem (fun {a b} ha hb hab => ?_) (h.ordered vm hvm)
  obtain ⟨hused, ha⟩ := helapsed a ha
  obtain ⟨-, hb⟩ := helapsed b hb
  simp only [Pool.expired, Bool.and_eq_true, bne_iff_ne, decide_eq_true_eq,
    UInt32.le_iff_toNat_le, ha, hb]
  rintro ⟨-, hold⟩
  exact ⟨hused, by omega⟩

namespace Accounts

variable {start now : Nat} {l : Ledger}

theorem expire {l' : Ledger} {timeout : UInt32} (h : Accounts start now none l)
    (hfrom : start ≤ now) (hspan : now < start + 2 ^ 32)
    (hslots : l'.pool.slots = reaped l.pool (UInt32.ofNat now) timeout l.pool.slotCount)
    (hsize : l'.pool.slotCount = l.pool.slotCount)
    (huse : l'.pool.inUseCount = inUse l'.pool) (hnvm : l'.nvm = l.nvm)
    (hqueue : ∀ vm < l.nvm, l'.queue vm = (l.queue vm).dropWhile (stale l'.pool))
    (hpending : ∀ vm < l.nvm, l'.pending vm = (l.pending vm && !(l'.queue vm).isEmpty)) :
    Accounts start now none l' := by
  have hframe : ∀ slot < l.pool.slotCount, l'.pool.slots slot =
      if l.pool.expired (UInt32.ofNat now) timeout slot = true then
        { l.pool.slots slot with refcnt := 0 }
      else l.pool.slots slot := by
    intro slot hslot
    simp only [hslots, reaped, hslot, true_and]
  -- of the descriptors, the reaper makes those stale whose frame expired
  have hstale : ∀ vm < l.nvm, ∀ d ∈ l.queue vm,
      stale l'.pool d = l.pool.expired (UInt32.ofNat now) timeout d.slot := by
    intro vm hvm d hd
    obtain ⟨hslot, hused, hgen⟩ := (stale_eq_false_iff _ _).mp (h.live vm hvm d hd)
    cases hexp : l.pool.expired (UInt32.ofNat now) timeout d.slot with
    | true =>
      rw [← Bool.not_eq_false, stale_eq_false_iff, hframe d.slot hslot, if_pos hexp]
      exact fun hfresh => hfresh.2.1 rfl
    | false =>
      rw [stale_eq_false_iff, hframe d.slot hslot, if_neg (by simp [hexp]), hsize]
      exact ⟨hslot, hused, hgen⟩
  have hsub : ∀ vm < l.nvm, (l'.queue vm).Sublist (l.queue vm) := by
    intro vm hvm
    rw [hqueue vm hvm]
    exact List.dropWhile_sublist _
  have hleft : ∀ vm < l.nvm, ∀ d ∈ l'.queue vm, stale l'.pool d = false := by
    intro vm hvm d hd
    rw [hqueue vm hvm] at hd
    refine of_mem_dropWhile ?_ hd
    refine List.Pairwise.imp_of_mem (fun {a b} ha hb hab => ?_)
      (@expired_first _ _ _ _ timeout h hvm hfrom hspan)
    rw [hstale vm hvm a ha, hstale vm hvm b hb]
    exact hab
  constructor
  case counted =>
    intro slot hslot
    rw [hsize] at hslot
    rw [hframe slot hslot, hnvm]
    simp only [reduceCtorEq, if_false, Nat.add_zero]
    have hcount := h.counted slot hslot
    simp only [reduceCtorEq, if_false, Nat.add_zero] at hcount
    unfold held at hcount ⊢
    split
    case isTrue hexp =>
      refine (Finset.sum_eq_zero fun vm hvm => ?_).symm
      have hvm := Finset.mem_range.mp hvm
      refine List.countP_eq_zero.mpr fun d hd => ?_
      have hfresh := hleft vm hvm d hd
      rw [hstale vm hvm d ((hsub vm hvm).subset hd)] at hfresh
      rintro heq
      rw [of_decide_eq_true heq, hexp] at hfresh
      cases hfresh
    case isFalse hexp =>
      rw [hcount]
      refine Finset.sum_congr rfl fun vm hvm => ?_
      have hvm := Finset.mem_range.mp hvm
      rw [hqueue vm hvm]
      refine (countP_dropWhile fun d hd hd' => ?_).symm
      rw [hstale vm hvm d hd] at hd'
      exact decide_eq_false fun heq => hexp (heq ▸ hd')
  case live => exact fun vm hvm => hleft vm (hnvm ▸ hvm)
  case used => exact huse
  case aged =>
    intro slot hslot hused
    rw [hsize] at hslot
    rw [hframe slot hslot] at hused ⊢
    split at hused
    case isTrue => exact absurd rfl hused
    case isFalse hexp =>
      rw [if_neg hexp]
      exact h.aged slot hslot hused
  case ordered =>
    intro vm hvm
    rw [hnvm] at hvm
    refine Ordered.congr ((h.ordered vm hvm).sublist (hsub vm hvm)) fun d _ => ?_
    rw [hslots, reaped]
    split <;> rfl
  case irq =>
    intro vm hvm
    rw [hnvm] at hvm
    have hbefore := h.irq vm hvm
    rw [hpending vm hvm, Bool.and_eq_true, hbefore]
    constructor
    · rintro ⟨-, hsome⟩
      simpa using hsome
    · intro hsome
      refine ⟨fun hnil => hsome ?_, by simpa using hsome⟩
      exact List.sublist_nil.mp (hnil ▸ hsub vm hvm)

end Accounts

end WolfTrust.VnetAccounting
