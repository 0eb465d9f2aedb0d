import WolfTrust.VnetBalance
import WolfTrust.VnetAddressing

namespace WolfTrust.VnetOwnership

open StepRuns RingBuffer VnetFdb VnetSwitch VnetAddressing

/-- An operation of a guest, or an address that is learned from outside. -/
inductive Action
  | guest (op : Op)
  | learn (guestId : Nat) (mac : Mac)

def act (sw : Switch) : Action → Switch
  | .guest op => step sw op
  | .learn guestId mac => { sw with fdb := (fdbLearn sw.fdb guestId mac).2 }

def Distinct (fdb : Fdb) : Prop :=
  ∀ i < fdb.capacity, ∀ k < fdb.capacity, (fdb.entries i).kind ≠ .empty →
    (fdb.entries k).kind ≠ .empty → (fdb.entries i).mac = (fdb.entries k).mac →
    i = k

/-- The guests own their addresses: an address stands in the table once, a guest
has one entry of its own at most, and the entries of that kind are the addresses
that are set. -/
structure Owned (dir : Directory) : Prop where
  distinct : Distinct dir.fdb
  single : ∀ i < dir.fdb.capacity, ∀ k < dir.fdb.capacity, (dir.fdb.entries i).kind = .assigned →
    (dir.fdb.entries k).kind = .assigned →
    (dir.fdb.entries i).guestId = (dir.fdb.entries k).guestId → i = k
  owned : ∀ i < dir.fdb.capacity, (dir.fdb.entries i).kind = .assigned →
    (dir.fdb.entries i).guestId ≠ fdbNoVm ∧
      dir.mac (dir.fdb.entries i).guestId = some (dir.fdb.entries i).mac
  listed : ∀ vm mac, dir.mac vm = some mac → ∃ i < dir.fdb.capacity,
    dir.fdb.entries i = { mac, guestId := vm, kind := .assigned }

theorem Distinct.findMac {fdb : Fdb} (h : Distinct fdb) {i : Nat} (hi : i < fdb.capacity)
    (hkind : (fdb.entries i).kind ≠ .empty) : fdb.findMac (fdb.entries i).mac = some i := by
  cases hfound : fdb.findMac (fdb.entries i).mac with
  | none => exact absurd rfl (findMac_none hfound hi hkind)
  | some k =>
    obtain ⟨hk, hkind', hmac⟩ := findMac_some hfound
    rw [h k hk i hi hkind' hkind hmac]

/-- Where an entry may be written: none of a guest's own is there, and no other
entry has the address. -/
structure Vacant (fdb : Fdb) (mac : Mac) (i : Nat) : Prop where
  lt : i < fdb.capacity
  kind : (fdb.entries i).kind ≠ .assigned
  other : ∀ k < fdb.capacity, k ≠ i → (fdb.entries k).kind ≠ .empty → (fdb.entries k).mac ≠ mac

/-- What a table becomes: the same, or one vacant entry is written. -/
inductive Writes (fdb : Fdb) (entry : FdbEntry) : Fdb → Prop
  | nothing : Writes fdb entry fdb
  | entry {i : Nat} (h : Vacant fdb entry.mac i) :
      Writes fdb entry (fdb.set i entry)

variable {mac : Mac} {vm : Nat}

theorem vacant_of_room {fdb : Fdb} {i : Nat} (hnone : fdb.findMac mac = none)
    (hroom : fdb.room = some i) : Vacant fdb mac i := by
  have hi : i < fdb.capacity ∧ (fdb.entries i).kind ≠ .assigned := by
    rcases Option.or_eq_some_iff.mp hroom with hempty | ⟨-, hlearned⟩
    · obtain ⟨hi, hkind⟩ := Fdb.find_some hempty
      exact ⟨hi, by rw [eq_of_beq hkind]; simp⟩
    · obtain ⟨hi, hkind⟩ := Fdb.find_some hlearned
      exact ⟨hi, by rw [eq_of_beq hkind]; simp⟩
  exact ⟨hi.1, hi.2, fun k hk _ hkind => findMac_none hnone hk hkind⟩

theorem vacant_of_found {fdb : Fdb} (h : Distinct fdb) {i : Nat}
    (hfound : fdb.findMac mac = some i)
    (hkind : (fdb.entries i).kind ≠ .assigned) : Vacant fdb mac i := by
  obtain ⟨hi, hlive, hmac⟩ := findMac_some hfound
  refine ⟨hi, hkind, fun k hk hne hkind' hsame => hne ?_⟩
  exact h k hk i hi hkind' hlive (hsame.trans hmac.symm)

theorem fdbLearn_writes {fdb : Fdb} (h : Distinct fdb) (guestId : Nat) (mac : Mac) :
    Writes fdb { mac, guestId, kind := .learned } (fdbLearn fdb guestId mac).2 := by
  unfold fdbLearn
  split
  · exact .nothing
  split
  · exact .nothing
  split
  · rename_i i hfound
    have hmac := (findMac_some hfound).2.2
    split
    · split
      · exact .nothing
      · exact .nothing
    · rename_i hkind
      dsimp only
      rw [hmac]
      exact .entry (vacant_of_found h hfound hkind)
  · rename_i hnone
    split
    · exact .nothing
    · rename_i i hroom
      exact .entry (vacant_of_room hnone hroom)

theorem findAssigned_of {fdb : Fdb} {k vm : Nat} (hk : k < fdb.capacity)
    (hkind : (fdb.entries k).kind = .assigned) (hguest : (fdb.entries k).guestId = vm) :
    ∃ j, fdb.findAssignedByGuest vm = some j ∧ (fdb.entries j).kind = .assigned := by
  cases hfound : fdb.findAssignedByGuest vm with
  | none =>
    have hp := Fdb.find_none hfound hk
    simp [hkind, hguest] at hp
  | some j =>
    have hp := (Fdb.find_some hfound).2
    rw [Bool.and_eq_true, beq_iff_eq] at hp
    exact ⟨j, rfl, hp.1⟩

theorem fdbAssign_writes {fdb fdb' : Fdb} (h : Distinct fdb)
    (hassign : fdbAssign fdb vm mac = (.ok (), fdb')) :
    vm ≠ fdbNoVm ∧ ((fdb' = fdb ∧ ∃ i < fdb.capacity,
          fdb.entries i = { mac, guestId := vm, kind := .assigned }) ∨
        (∀ k < fdb.capacity, (fdb.entries k).kind = .assigned → (fdb.entries k).guestId ≠ vm) ∧
        ∃ i, Vacant fdb mac i ∧ fdb' = fdb.set i { mac, guestId := vm, kind := .assigned }) := by
  unfold fdbAssign at hassign
  split at hassign
  · cases hassign
  rename_i hvm
  refine ⟨hvm, ?_⟩
  split at hassign
  · cases hassign
  split at hassign
  · rename_i i hfound
    obtain ⟨hi, -, hmac⟩ := findMac_some hfound
    split at hassign
    · rename_i hkind
      split at hassign
      · rename_i hguest
        obtain rfl : fdb = fdb' := congrArg Prod.snd hassign
        refine .inl ⟨rfl, i, hi, ?_⟩
        rw [← hmac, ← hguest, ← hkind]
      · cases hassign
    · rename_i hkind
      split at hassign
      · cases hassign
      rename_i hnone
      obtain rfl := congrArg Prod.snd hassign
      refine .inr ⟨fun k hk hassigned hguest => hnone ?_, i, vacant_of_found h hfound hkind, ?_⟩
      · obtain ⟨j, hj, hkind'⟩ := findAssigned_of hk hassigned hguest
        refine ⟨j, hj, ?_⟩
        rintro rfl
        exact hkind hkind'
      · dsimp only
        rw [hmac]
  · rename_i hnone
    split at hassign
    · cases hassign
    rename_i hfresh
    split at hassign
    · cases hassign
    rename_i i hroom
    obtain rfl := congrArg Prod.snd hassign
    refine .inr ⟨fun k hk hassigned hguest => ?_, i, vacant_of_room hnone hroom, rfl⟩
    obtain ⟨j, hj, -⟩ := findAssigned_of hk hassigned hguest
    simp [hj] at hfresh

section Tables

variable {fdb : Fdb} {entry : FdbEntry} {i : Nat}

theorem Vacant.kept (h : Vacant fdb mac i) {k : Nat}
    (hkind : (fdb.entries k).kind = .assigned) : (fdb.set i entry).entries k = fdb.entries k := by
  refine Function.update_of_ne ?_ _ _
  rintro rfl
  exact h.kind hkind

theorem Writes.kept {after : Fdb} (h : Writes fdb entry after) {k : Nat}
    (hkind : (fdb.entries k).kind = .assigned) : after.entries k = fdb.entries k := by
  cases h with
  | nothing => rfl
  | entry hvacant => exact hvacant.kept hkind

theorem Writes.capacity {after : Fdb} (h : Writes fdb entry after) :
    after.capacity = fdb.capacity := by
  cases h with
  | nothing | entry => rfl

theorem set_entries_of_ne {k : Nat} (h : k ≠ i) :
    (fdb.set i entry).entries k = fdb.entries k := Function.update_of_ne h _ _

theorem set_entries_self : (fdb.set i entry).entries i = entry :=
  Function.update_self _ _ _

theorem Distinct.set (h : Distinct fdb) (hvacant : Vacant fdb entry.mac i) :
    Distinct (fdb.set i entry) := by
  intro a ha b hb hkinda hkindb hmac
  by_cases hai : a = i
  · by_cases hbi : b = i
    · rw [hai, hbi]
    · rw [hai, set_entries_self, set_entries_of_ne hbi] at hmac
      rw [set_entries_of_ne hbi] at hkindb
      exact absurd hmac.symm (hvacant.other b hb hbi hkindb)
  · rw [set_entries_of_ne hai] at hkinda hmac
    by_cases hbi : b = i
    · rw [hbi, set_entries_self] at hmac
      exact absurd hmac (hvacant.other a ha hai hkinda)
    · rw [set_entries_of_ne hbi] at hkindb hmac
      exact h a ha b hb hkinda hkindb hmac

variable {dir : Directory}

theorem Owned.learn (h : Owned dir) (hwrites : Writes dir.fdb entry fdb)
    (hlearned : entry.kind = .learned) : Owned { dir with fdb } := by
  cases hwrites with
  | nothing => exact h
  | @entry i hvacant =>
    have hold : ∀ {k}, ((dir.fdb.set i entry).entries k).kind = .assigned →
        (dir.fdb.set i entry).entries k = dir.fdb.entries k := by
      intro k hkind
      refine set_entries_of_ne ?_
      rintro rfl
      rw [set_entries_self, hlearned] at hkind
      cases hkind
    refine ⟨h.distinct.set hvacant, fun a ha b hb hkinda hkindb => ?_,
      fun a ha hkind => ?_, fun vm mac hmac => ?_⟩
    · dsimp only at hkinda hkindb ⊢
      have holda := hold hkinda
      have holdb := hold hkindb
      rw [holda] at hkinda ⊢
      rw [holdb] at hkindb ⊢
      exact h.single a ha b hb hkinda hkindb
    · dsimp only at hkind ⊢
      have holda := hold hkind
      rw [holda] at hkind ⊢
      exact h.owned a ha hkind
    · obtain ⟨k, hk, hentry⟩ := h.listed vm mac hmac
      exact ⟨k, hk, (hvacant.kept (by rw [hentry])).trans hentry⟩

theorem Owned.assign (h : Owned dir) (hvm : vm ≠ fdbNoVm)
    (hfresh : ∀ k < dir.fdb.capacity, (dir.fdb.entries k).kind = .assigned →
      (dir.fdb.entries k).guestId ≠ vm) (hvacant : Vacant dir.fdb mac i) :
    Owned
      { dir with
        fdb := dir.fdb.set i { mac, guestId := vm, kind := .assigned }
        mac := Function.update dir.mac vm (some mac) } := by
  refine ⟨h.distinct.set hvacant, fun a ha b hb hkinda hkindb hguest => ?_,
    fun a ha hkind => ?_, fun other own hown => ?_⟩
  · dsimp only at hkinda hkindb hguest
    by_cases hai : a = i
    · by_cases hbi : b = i
      · rw [hai, hbi]
      · rw [hai, set_entries_self, set_entries_of_ne hbi] at hguest
        rw [set_entries_of_ne hbi] at hkindb
        exact absurd hguest.symm (hfresh b hb hkindb)
    · rw [set_entries_of_ne hai] at hkinda hguest
      by_cases hbi : b = i
      · rw [hbi, set_entries_self] at hguest
        exact absurd hguest (hfresh a ha hkinda)
      · rw [set_entries_of_ne hbi] at hkindb hguest
        exact h.single a ha b hb hkinda hkindb hguest
  · dsimp only at hkind ⊢
    by_cases hai : a = i
    · rw [hai, set_entries_self]
      exact ⟨hvm, Function.update_self _ _ _⟩
    · rw [set_entries_of_ne hai] at hkind ⊢
      obtain ⟨hid, hmac⟩ := h.owned a ha hkind
      rw [Function.update_of_ne (hfresh a ha hkind)]
      exact ⟨hid, hmac⟩
  · dsimp only at hown
    by_cases heq : other = vm
    · subst heq
      rw [Function.update_self] at hown
      obtain rfl := Option.some.inj hown
      exact ⟨i, hvacant.lt, set_entries_self⟩
    · rw [Function.update_of_ne heq] at hown
      obtain ⟨k, hk, hentry⟩ := h.listed other own hown
      exact ⟨k, hk, (hvacant.kept (by rw [hentry])).trans hentry⟩

end Tables

section Steps

variable {sw : Switch}

theorem Owned.findMac (h : Owned (directory sw)) (hmac : (sw.vnics vm).mac = some mac) :
    ∃ i, sw.fdb.findMac mac = some i ∧
      sw.fdb.entries i = { mac, guestId := vm, kind := .assigned } := by
  obtain ⟨i, hi, hentry⟩ := h.listed vm mac hmac
  have hkind : ((directory sw).fdb.entries i).kind ≠ .empty := by
    rw [hentry]
    simp
  have hfound := h.distinct.findMac hi hkind
  rw [hentry] at hfound
  exact ⟨i, hfound, hentry⟩

theorem Owned.fdbLearn_eq (h : Owned (directory sw)) (hmac : (sw.vnics vm).mac = some mac)
    (guest : Nat) : (fdbLearn sw.fdb guest mac).2 = sw.fdb := by
  obtain ⟨i, hfound, hentry⟩ := h.findMac hmac
  have hkind : (sw.fdb.entries i).kind = .assigned := by rw [hentry]
  unfold fdbLearn
  split
  · rfl
  split
  · rfl
  rw [hfound]
  dsimp only
  rw [if_pos hkind]
  split
  · rfl
  · rfl

theorem Owned.fdbLookup_eq (h : Owned (directory sw))
    (hmac : (sw.vnics vm).mac = some mac) (hmulti : macIsMulticast mac = false)
    (hzero : macIsZero mac = false) : fdbLookup sw.fdb mac = vm := by
  obtain ⟨i, hfound, hentry⟩ := h.findMac hmac
  unfold fdbLookup
  rw [hmulti, hzero, hfound]
  exact congrArg FdbEntry.guestId hentry

/-- What one action keeps: the guests' own entries, and their ownership. -/
structure Keeps (before after : Directory) : Prop where
  owned : Owned after
  capacity : after.fdb.capacity = before.fdb.capacity
  entries : ∀ i, (before.fdb.entries i).kind = .assigned →
    after.fdb.entries i = before.fdb.entries i

theorem Keeps.refl {dir : Directory} (h : Owned dir) : Keeps dir dir :=
  ⟨h, rfl, fun _ _ => rfl⟩

theorem switchAssignMac_keeps (h : Owned (directory sw)) (vm : Nat) (mac : Mac) :
    Keeps (directory sw) (directory (switchAssignMac sw vm mac).2) := by
  obtain ⟨e, heq⟩ | ⟨fdb, hassign, heq⟩ := switchAssignMac_checked sw vm mac <;> rw [heq]
  · exact .refl h
  · rw [directory_assign]
    obtain ⟨hvm, ⟨rfl, i, hi, hentry⟩ | ⟨hfresh, i, hvacant, rfl⟩⟩ :=
      fdbAssign_writes h.distinct hassign
    · have hown := (h.owned i hi (by rw [show (directory sw).fdb.entries i = _ from hentry])).2
      rw [show (directory sw).fdb.entries i = _ from hentry] at hown
      rw [← hown, Function.update_eq_self]
      exact .refl h
    · exact ⟨h.assign hvm hfresh hvacant, rfl, fun k hk => hvacant.kept hk⟩

theorem act_keeps (h : Owned (directory sw)) (action : Action) :
    Keeps (directory sw) (directory (act sw action)) := by
  cases action with
  | guest op =>
    by_cases hop : ∀ vm mac, op ≠ .assignMac vm mac
    · have hsame : directory (act sw (.guest op)) = directory sw :=
        directory_step (fun _ _ hmac => h.fdbLearn_eq hmac) hop
      rw [hsame]
      exact .refl h
    · push Not at hop
      obtain ⟨vm, mac, rfl⟩ := hop
      exact switchAssignMac_keeps h vm mac
  | learn guestId mac =>
    have hwrites := fdbLearn_writes h.distinct guestId mac
    exact ⟨h.learn hwrites rfl, hwrites.capacity, fun i => hwrites.kept⟩

end Steps

section Frames

theorem tryDeliverOne_vnics {sw : Switch} {dst slot : Nat} {gen : UInt16} {len srcVm vm : Nat}
    (hne : vm ≠ dst) : (tryDeliverOne sw dst slot gen len srcVm).2.vnics vm = sw.vnics vm := by
  unfold tryDeliverOne
  dsimp only
  split
  · rfl
  split
  · rfl
  split
  · exact Function.update_of_ne hne _ _
  · exact Function.update_of_ne hne _ _

theorem dropScratch_vnics (sw : Switch) (slot : Nat) (gen : UInt16) :
    (dropScratch sw slot gen).vnics = sw.vnics := by
  unfold dropScratch
  split
  · rfl
  · rfl

theorem tryDeliverOne_ok {sw sw' : Switch} {dst slot : Nat} {gen : UInt16} {len srcVm : Nat}
    (h : tryDeliverOne sw dst slot gen len srcVm = (.ok (), sw')) :
    (sw'.vnics dst).rxq.toList =
      (sw.vnics dst).rxq.toList ++ [{ slot, gen, len, flags := 0, srcVm }] := by
  unfold tryDeliverOne at h
  dsimp only at h
  split at h
  · cases h
  split at h
  · cases h
  rename_i rxq hpush
  split at h
  · cases h
  obtain rfl := congrArg Prod.snd h
  unfold ringPush at hpush
  split at hpush
  · cases hpush
  split at hpush
  · rename_i hroom
    obtain rfl := Except.ok.inj hpush
    show (Function.update sw.vnics dst _ dst).rxq.toList = _
    rw [Function.update_self]
    exact Circular.toList_push _ _ hroom
  · cases hpush

/-- Only the interface of `owner` may have changed, and if the frame was accepted
its ring grew by the frame. -/
structure Queued (sw : Switch) (srcVm : Nat) (frame : List UInt8) (owner : Nat)
    (result : Except VnetError Unit × Switch) : Prop where
  others : ∀ vm ≠ owner, result.2.vnics vm = sw.vnics vm
  accepted : result.1 = .ok () → owner ≠ srcVm ∧ ∃ slot gen,
    (result.2.vnics owner).rxq.toList = (sw.vnics owner).rxq.toList ++
      [{ slot, gen, len := frame.length, flags := 0, srcVm }]

theorem Queued.nothing {sw : Switch} {srcVm owner : Nat} {frame : List UInt8}
    {result : Except VnetError Unit × Switch} (hvnics : result.2.vnics = sw.vnics)
    (hrefused : result.1 ≠ .ok ()) : Queued sw srcVm frame owner result :=
  ⟨fun _ _ => by rw [hvnics], fun h => absurd h hrefused⟩

theorem destinations_owner {sw : Switch} (h : Owned (directory sw)) {srcVm : Nat}
    {dst : Mac} {owner : Nat} (howner : (sw.vnics owner).mac = some dst)
    (hunicast : macIsMulticast dst = false) (hzero : macIsZero dst = false) :
    destinations sw srcVm dst = [] ∨ owner ≠ srcVm ∧ destinations sw srcVm dst = [owner] := by
  have hlookup := h.fdbLookup_eq howner hunicast hzero
  obtain ⟨i, hi, hentry⟩ := h.listed owner dst howner
  have hid : owner ≠ fdbNoVm := by
    have howned := (h.owned i hi (by rw [hentry])).1
    rwa [hentry] at howned
  unfold destinations
  rw [hunicast, hlookup]
  dsimp only
  rw [if_neg Bool.false_ne_true]
  split
  · rename_i hother
    split
    · exact .inr ⟨hother.2, rfl⟩
    · exact .inl rfl
  · rw [if_neg fun hnone => hid hnone.1]
    exact .inl rfl

theorem forward_queued {sw : Switch} (h : Owned (directory sw)) (srcVm slot : Nat)
    {frame : List UInt8} {owner : Nat} (howner : (sw.vnics owner).mac = some (macAt frame 0))
    (hunicast : macIsMulticast (macAt frame 0) = false) :
    Queued sw srcVm frame owner (forward sw srcVm slot frame) := by
  unfold forward
  dsimp only
  split
  · exact .nothing (dropScratch_vnics ..) (fun h => by cases h)
  rename_i hzero
  have hzero : macIsZero (macAt frame 0) = false := by simpa using hzero
  obtain hnone | ⟨hother, hone⟩ :=
    @destinations_owner sw h srcVm _ owner howner hunicast hzero
  · rw [hnone, List.foldl_nil, if_pos rfl, if_neg (by rw [hunicast]; simp)]
    exact .nothing (dropScratch_vnics ..) (fun h => by cases h)
  · rw [hone, List.foldl_cons, List.foldl_nil, deliver]
    dsimp only
    cases hsent : tryDeliverOne sw owner slot (sw.pool.slots slot).gen frame.length srcVm with
    | mk answer after =>
    have hothers : ∀ vm ≠ owner, after.vnics vm = sw.vnics vm := by
      intro vm hvm
      have hvnics := @tryDeliverOne_vnics sw owner slot (sw.pool.slots slot).gen
        frame.length srcVm vm hvm
      rwa [hsent] at hvnics
    cases answer with
    | error =>
      dsimp only
      rw [if_pos rfl, if_neg (by rw [hunicast]; simp)]
      refine ⟨fun vm hvm => ?_, fun h => by cases h⟩
      rw [dropScratch_vnics]
      exact hothers vm hvm
    | ok =>
      dsimp only
      rw [if_neg (by simp)]
      refine ⟨fun vm hvm => ?_, fun _ =>
        ⟨hother, slot, (sw.pool.slots slot).gen, ?_⟩⟩
      · rw [dropScratch_vnics]
        exact hothers vm hvm
      · rw [dropScratch_vnics]
        exact tryDeliverOne_ok hsent

theorem switchTx_queued {sw : Switch} (h : Owned (directory sw)) (srcVm : Nat)
    {frame : List UInt8} (now : UInt32) {owner : Nat}
    (howner : (sw.vnics owner).mac = some (macAt frame 0))
    (hunicast : macIsMulticast (macAt frame 0) = false) :
    Queued sw srcVm frame owner (switchTx sw srcVm frame now) := by
  obtain ⟨e, heq⟩ | ⟨hmac, heq⟩ := switchTx_checked sw srcVm frame now
  · rw [heq]
    exact .nothing rfl nofun
  rw [h.fdbLearn_eq hmac srcVm] at heq
  obtain heq | ⟨slot, pool, -, heq⟩ := heq <;> rw [heq]
  · exact .nothing rfl nofun
  -- the frame's slot changes nothing that the forwarding looks at
  have hqueued := @forward_queued { sw with pool := pool.fill slot frame srcVm }
    h srcVm slot frame owner howner hunicast
  exact ⟨hqueued.others, hqueued.accepted⟩

end Frames

theorem switchInit_owned {s : Storage} {sw : Switch}
    (h : switchInit s = .ok sw) : Owned (directory sw) := by
  unfold switchInit at h
  split at h
  · cases h
  · cases h
    have hempty : ∀ i < s.fdbCapacity, ((fdbInit s.fdb s.fdbCapacity).entries i).kind = .empty := by
      intro i hi
      simp [fdbInit, hi]
    refine ⟨fun i hi _ _ hkind => absurd (hempty i hi) hkind,
      fun i hi _ _ hkind => ?_, fun i hi hkind => ?_, fun vm mac hmac => ?_⟩
    · cases (hempty i hi).symm.trans hkind
    · cases (hempty i hi).symm.trans hkind
    · cases hmac

theorem Owned.mac_injective {sw : Switch} (h : Owned (directory sw))
    {vm other : Nat} (hvm : (sw.vnics vm).mac = some mac)
    (hother : (sw.vnics other).mac = some mac) : vm = other := by
  obtain ⟨i, hfound, hentry⟩ := h.findMac hvm
  obtain ⟨k, hfound', hentry'⟩ := h.findMac hother
  obtain rfl : i = k := Option.some.inj (hfound.symm.trans hfound')
  exact congrArg FdbEntry.guestId (hentry.symm.trans hentry')

/-- In every run of guest operations and of addresses learned for any guest, the
table holds an address once and a guest's own entry once, the guests' own entries
are the addresses that are set, and no two guests have the same; no operation
changes a guest's own entry; and a unicast frame to a guest's address is queued to
that guest only. -/
theorem mac_ownership {s : Storage} {start : Switch}
    (hinit : switchInit s = .ok start) (actions : List Action) :
    let sw := run act start actions
    Owned (directory sw) ∧ (∀ vm other mac, (sw.vnics vm).mac = some mac →
        (sw.vnics other).mac = some mac → vm = other) ∧
      (∀ action i, (sw.fdb.entries i).kind = .assigned →
        (act sw action).fdb.entries i = sw.fdb.entries i) ∧
      ∀ srcVm frame now owner, (sw.vnics owner).mac = some (macAt frame 0) →
        macIsMulticast (macAt frame 0) = false →
        Queued sw srcVm frame owner (switchTx sw srcVm frame now) := by
  intro sw
  have howned : Owned (directory sw) :=
    run_induction (P := fun _ _ => True) (I := fun sw => Owned (directory sw))
      (fun _ action h _ => (act_keeps h action).owned) (switchInit_owned hinit)
      (along_of_forall fun _ _ => trivial)
  exact ⟨howned, fun vm other mac => howned.mac_injective,
    fun action i => (act_keeps howned action).entries i,
    fun srcVm frame now owner => switchTx_queued howned srcVm now⟩

/-- The first guest's address is learned for a stranger before it is assigned, the
second guest's after; then the table is full. -/
def contestedActions : List Action :=
  [.learn 7 VnetBalance.sampleMac, .guest (.openVnic 0), .guest (.openVnic 1),
    .guest (.assignMac 0 VnetBalance.sampleMac),
    .guest (.assignMac 1 #v[2, 0, 0, 0, 0, 2]), .learn 7 #v[2, 0, 0, 0, 0, 2],
    .learn 7 #v[2, 0, 0, 0, 0, 3]]

/-- A frame from the first guest to the second. -/
def unicastFrame : List UInt8 := [2, 0, 0, 0, 0, 2, 2, 0, 0, 0, 0, 1, 8, 0]

theorem mac_ownership_sample : ∃ start, switchInit VnetBalance.sampleStorage = .ok start ∧
      let sw := run act start contestedActions
      (sw.vnics 1).mac = some (macAt unicastFrame 0) ∧ Owned (directory sw) ∧
        (switchTx sw 0 unicastFrame 0).1 = .ok () ∧
        Queued sw 0 unicastFrame 1 (switchTx sw 0 unicastFrame 0) := by
  refine ⟨_, rfl, ?_⟩
  intro sw
  obtain ⟨howned, -, -, hqueued⟩ :=
    mac_ownership (s := VnetBalance.sampleStorage) rfl contestedActions
  have hmac : (sw.vnics 1).mac = some (macAt unicastFrame 0) := by decide +kernel
  exact ⟨hmac, howned, by decide +kernel, hqueued 0 unicastFrame 0 1 hmac (by decide)⟩

end WolfTrust.VnetOwnership
