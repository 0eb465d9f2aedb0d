import Mathlib.Data.List.Nodup
import Mathlib.Logic.Function.Basic

namespace WolfTrust.LinkedQueue

variable {σ μ : Type*} {next : μ → Option μ} {start : Option μ} {cells : List μ}

structure Queues (σ μ : Type*) where
  head : σ → Option μ
  tail : σ → Option μ
  next : μ → Option μ

section Operations

variable [DecidableEq σ] [DecidableEq μ]

/-- Append a cell. Its own link is not written. -/
def Queues.push (Q : Queues σ μ) (s : σ) (m : μ) : Queues σ μ :=
  match Q.tail s with
  | none =>
    { Q with
      head := Function.update Q.head s (some m)
      tail := Function.update Q.tail s (some m) }
  | some last =>
    { Q with
      next := Function.update Q.next last (some m)
      tail := Function.update Q.tail s (some m) }

/-- Take cell `m`, known to be the head, off its queue. -/
def Queues.pop (Q : Queues σ μ) (s : σ) (m : μ) : Queues σ μ :=
  { head := Function.update Q.head s (Q.next m)
    tail := if Q.next m = none then Function.update Q.tail s none else Q.tail
    next := Function.update Q.next m none }

/-- Unlink cell `m`, whose predecessor is `previous`. -/
def Queues.unlink (Q : Queues σ μ) (s : σ) (m : μ) (previous : Option μ) : Queues σ μ :=
  { head := match previous with
      | none => Function.update Q.head s (Q.next m)
      | some _ => Q.head
    tail := if Q.tail s = some m then Function.update Q.tail s previous
      else Q.tail
    next := Function.update (match previous with
        | none => Q.next
        | some p => Function.update Q.next p (Q.next m)) m none }

/-- The search for `m` from cell `current`; the fuel bounds the walk. -/
def Queues.removeFrom (Q : Queues σ μ) (s : σ) (m : μ) : Nat → Option μ → Option μ → Queues σ μ
  | 0, _, _ => Q
  | _ + 1, none, _ => Q
  | fuel + 1, some c, previous =>
    if c = m then Q.unlink s m previous
    else removeFrom Q s m fuel (Q.next c) (some c)

/-- Search a queue for `m` and unlink it. Kept folded, so that a concrete fuel
is not run by unification. -/
@[irreducible] def Queues.remove (Q : Queues σ μ) (fuel : Nat) (s : σ) (m : μ) : Queues σ μ :=
  Q.removeFrom s m fuel (Q.head s) none

/-- Drop a whole queue, links and all. -/
def Queues.drain (Q : Queues σ μ) (s : σ) : Queues σ μ :=
  { Q with
    head := Function.update Q.head s none
    tail := Function.update Q.tail s none }

def Queues.detach (Q : Queues σ μ) (m : μ) : Queues σ μ :=
  { Q with next := Function.update Q.next m none }

end Operations

section Heads

variable [DecidableEq σ] [DecidableEq μ] {s t : σ}

theorem Queues.head_push (Q : Queues σ μ) (hts : t ≠ s) (m : μ) :
    (Q.push s m).head t = Q.head t := by
  unfold Queues.push
  split
  · exact Function.update_of_ne hts _ _
  · rfl

theorem Queues.head_pop (Q : Queues σ μ) (hts : t ≠ s) (m : μ) : (Q.pop s m).head t = Q.head t :=
  Function.update_of_ne hts _ _

theorem Queues.head_removeFrom (Q : Queues σ μ) (hts : t ≠ s) (m : μ) (fuel : Nat)
    (current previous : Option μ) : (Q.removeFrom s m fuel current previous).head t = Q.head t := by
  induction fuel generalizing current previous with
  | zero => rfl
  | succ fuel ih =>
    rcases current with _ | c
    · rfl
    · simp only [Queues.removeFrom]
      split
      · rcases previous with _ | p
        · exact Function.update_of_ne hts _ _
        · rfl
      · exact ih _ _

theorem Queues.head_remove (Q : Queues σ μ) (hts : t ≠ s)
    (fuel : Nat) (m : μ) : (Q.remove fuel s m).head t = Q.head t := by
  unfold Queues.remove
  exact Q.head_removeFrom hts m fuel _ _

end Heads

/-- Following the links from `start` visits exactly these cells, then ends. -/
def Path (next : μ → Option μ) : Option μ → List μ → Prop
  | start, [] => start = none
  | start, m :: rest => start = some m ∧ Path next (next m) rest

/-- The queues hold these lists of cells. -/
structure Represents (Q : Queues σ μ) (contents : σ → List μ) : Prop where
  path : ∀ s, Path Q.next (Q.head s) (contents s)
  tail : ∀ s, Q.tail s = (contents s).getLast?
  nodup : ∀ s, (contents s).Nodup
  disjoint : ∀ s t m, m ∈ contents s → m ∈ contents t → s = t

theorem Path.congr {next next' : μ → Option μ} (h : Path next start cells)
    (hagree : ∀ m ∈ cells, next' m = next m) : Path next' start cells := by
  induction cells generalizing start with
  | nil => exact h
  | cons m rest ih =>
    obtain ⟨hstart, hrest⟩ := h
    refine ⟨hstart, ?_⟩
    rw [hagree m (by simp)]
    exact ih hrest fun a ha => hagree a (by simp [ha])

theorem Path.unique :
    ∀ {start : Option μ} {cells others : List μ}, Path next start cells →
      Path next start others → cells = others
  | _, [], [], _, _ => rfl
  | _, [], _ :: _, hnone, hsome => by
      rw [hnone] at hsome
      cases hsome.1
  | _, _ :: _, [], hsome, hnone => by
      rw [hnone] at hsome
      cases hsome.1
  | _, _ :: _, _ :: _, h, h' => by
      obtain rfl := Option.some.inj (h.1.symm.trans h'.1)
      rw [unique h.2 h'.2]

theorem Path.head_eq (h : Path next start cells) : start = cells.head? := by
  cases cells with
  | nil => exact h
  | cons => exact h.1

theorem Path.append_last [DecidableEq μ] {last m : μ} (h : Path next start cells)
    (hnodup : cells.Nodup) (hlast : cells.getLast? = some last) (hfresh : m ∉ cells)
    (hlink : next m = none) : Path (Function.update next last (some m)) start (cells ++ [m]) := by
  induction cells generalizing start with
  | nil => simp at hlast
  | cons a rest ih =>
    obtain ⟨hstart, hrest⟩ := h
    obtain ⟨ha, hnodup'⟩ := List.nodup_cons.mp hnodup
    have hfreshRest : m ∉ rest := fun hm => hfresh (by simp [hm])
    rcases rest with _ | ⟨b, rest⟩
    · obtain rfl : a = last := by simpa using hlast
      have hma : m ≠ a := fun h => hfresh (by simp [h])
      refine ⟨hstart, ?_, ?_⟩
      · simp
      · change Function.update next a (some m) m = none
        rw [Function.update_of_ne hma]
        exact hlink
    · have hlast' : (b :: rest).getLast? = some last := by simpa using hlast
      have hne : a ≠ last := by
        rintro rfl
        exact ha (List.mem_of_getLast? hlast')
      refine ⟨hstart, ?_⟩
      rw [Function.update_of_ne hne]
      exact ih hrest hnodup' hlast' hfreshRest

theorem Path.unlink [DecidableEq μ] {m : μ} {before after : List μ}
    (h : Path next start (before ++ m :: after)) (hnodup : (before ++ m :: after).Nodup) :
    Path (Function.update (match before.getLast? with
          | none => next
          | some p => Function.update next p (next m)) m none)
      (match before.getLast? with
        | none => next m
        | some _ => start) (before ++ after) := by
  induction before generalizing start with
  | nil =>
    have hm : m ∉ after := (List.nodup_cons.mp hnodup).1
    refine h.2.congr fun a ha => Function.update_of_ne ?_ _ _
    rintro rfl
    exact hm ha
  | cons a before ih =>
    obtain ⟨hstart, hrest⟩ := h
    obtain ⟨ha, hnodup'⟩ := List.nodup_cons.mp hnodup
    have ham : a ≠ m := by
      rintro rfl
      exact ha (by simp)
    rcases before with _ | ⟨b, before⟩
    · have hm : m ∉ after := (List.nodup_cons.mp hnodup').1
      refine ⟨hstart, ?_⟩
      simp only [List.getLast?_singleton]
      rw [Function.update_of_ne ham, Function.update_self]
      refine hrest.2.congr fun c hc => ?_
      have hcm : c ≠ m := fun h => hm (h ▸ hc)
      have hca : c ≠ a := fun h => ha (by simp [← h, hc])
      rw [Function.update_of_ne hcm, Function.update_of_ne hca]
    · obtain ⟨p, hp⟩ : ∃ p, (b :: before).getLast? = some p :=
        ⟨_, List.getLast?_eq_getLast_of_ne_nil (by simp)⟩
      have hap : a ≠ p := by
        rintro rfl
        exact ha (List.mem_append_left _ (List.mem_of_getLast? hp))
      have hcons : (a :: b :: before).getLast? = some p := by simpa using hp
      have hpath := ih hrest hnodup'
      rw [hp] at hpath
      rw [hcons]
      refine ⟨hstart, ?_⟩
      change Path _ (Function.update (Function.update next p (next m)) m none a) _
      rw [Function.update_of_ne ham, Function.update_of_ne hap]
      exact hpath

section Represents

variable {Q : Queues σ μ} {contents : σ → List μ} {s : σ} {m : μ}

theorem Represents.head_eq (h : Represents Q contents) (s : σ) : Q.head s = (contents s).head? :=
  (h.path s).head_eq

/-- Rewriting one queue, of its own cells or of cells in no queue, leaves the
others as they are. -/
theorem Represents.replace [DecidableEq σ] (h : Represents Q contents) {Q' : Queues σ μ}
    (hpath : Path Q'.next (Q'.head s) cells) (htail : Q'.tail s = cells.getLast?)
    (hnodup : cells.Nodup) (hcells : ∀ m ∈ cells, m ∈ contents s ∨ ∀ t, m ∉ contents t)
    (hother : ∀ t, t ≠ s → Q'.head t = Q.head t ∧ Q'.tail t = Q.tail t)
    (hnext : ∀ t, t ≠ s → ∀ m ∈ contents t, Q'.next m = Q.next m) :
    Represents Q' (Function.update contents s cells) := by
  refine ⟨fun t => ?_, fun t => ?_, fun t => ?_, fun t u m ht hu => ?_⟩
  · by_cases hts : t = s
    · subst hts
      rwa [Function.update_self]
    · rw [Function.update_of_ne hts, (hother t hts).1]
      exact (h.path t).congr (hnext t hts)
  · by_cases hts : t = s
    · subst hts
      rwa [Function.update_self]
    · rw [Function.update_of_ne hts, (hother t hts).2]
      exact h.tail t
  · by_cases hts : t = s
    · subst hts
      rwa [Function.update_self]
    · rw [Function.update_of_ne hts]
      exact h.nodup t
  · by_cases hts : t = s <;> by_cases hus : u = s
    · rw [hts, hus]
    · subst hts
      rw [Function.update_self] at ht
      rw [Function.update_of_ne hus] at hu
      rcases hcells m ht with hm | hm
      · exact h.disjoint t u m hm hu
      · exact absurd hu (hm u)
    · subst hus
      rw [Function.update_of_ne hts] at ht
      rw [Function.update_self] at hu
      rcases hcells m hu with hm | hm
      · exact h.disjoint t u m ht hm
      · exact absurd ht (hm t)
    · rw [Function.update_of_ne hts] at ht
      rw [Function.update_of_ne hus] at hu
      exact h.disjoint t u m ht hu

theorem Represents.detach [DecidableEq μ] (h : Represents Q contents)
    (hfree : ∀ s, m ∉ contents s) : Represents (Q.detach m) contents := by
  refine ⟨fun s => (h.path s).congr fun a ha => ?_, h.tail, h.nodup, h.disjoint⟩
  refine Function.update_of_ne ?_ _ _
  rintro rfl
  exact hfree s ha

theorem Represents.push [DecidableEq σ] [DecidableEq μ] (h : Represents Q contents)
    (hfree : ∀ t, m ∉ contents t) (hlink : Q.next m = none) :
    Represents (Q.push s m) (Function.update contents s (contents s ++ [m])) := by
  have hnodup : (contents s ++ [m]).Nodup :=
    List.nodup_append.mpr ⟨h.nodup s, List.nodup_singleton m, fun a ha b hb hab => hfree s (by
        rw [List.mem_singleton] at hb
        rwa [← hb, ← hab])⟩
  have hcells : ∀ a ∈ contents s ++ [m], a ∈ contents s ∨ ∀ t, a ∉ contents t := by
    intro a ha
    rcases List.mem_append.mp ha with ha | ha
    · exact .inl ha
    · rw [List.mem_singleton] at ha
      exact .inr (ha ▸ hfree)
  rcases htail : Q.tail s with _ | last
  · have hempty : contents s = [] := by simpa using (h.tail s).symm.trans htail
    simp only [Queues.push, htail]
    refine h.replace ?_ ?_ hnodup hcells (fun t ht => ?_) (fun _ _ _ _ => rfl)
    · simp [hempty, Path, hlink]
    · simp
    · exact ⟨Function.update_of_ne ht _ _, Function.update_of_ne ht _ _⟩
  · have hlast : (contents s).getLast? = some last := (h.tail s).symm.trans htail
    have hmem : last ∈ contents s := List.mem_of_getLast? hlast
    simp only [Queues.push, htail]
    refine h.replace ?_ ?_ hnodup hcells (fun t ht => ?_) (fun t ht a ha => ?_)
    · exact (h.path s).append_last (h.nodup s) hlast (hfree s) hlink
    · simp
    · exact ⟨rfl, Function.update_of_ne ht _ _⟩
    · refine Function.update_of_ne ?_ _ _
      rintro rfl
      exact ht (h.disjoint t s a ha hmem)

/-- The links written by an operation on queue `s` are links of its cells. -/
theorem Represents.ne_of_mem (h : Represents Q contents) {s t : σ} (hts : t ≠ s) {a m : μ}
    (ha : a ∈ contents t) (hm : m ∈ contents s) : a ≠ m := by
  rintro rfl
  exact hts (h.disjoint t s a ha hm)

theorem Represents.pop [DecidableEq σ] [DecidableEq μ] (h : Represents Q contents) {rest : List μ}
    (hs : contents s = m :: rest) : Represents (Q.pop s m) (Function.update contents s rest) := by
  have hpath := h.path s
  have hnodup := h.nodup s
  have htail := h.tail s
  rw [hs] at hpath hnodup htail
  obtain ⟨hm, hrest⟩ := List.nodup_cons.mp hnodup
  have hnext : Q.next m = rest.head? := hpath.2.head_eq
  refine h.replace ?_ ?_ hrest (fun a ha => .inl (by simp [hs, ha]))
    (fun t ht => ⟨Function.update_of_ne ht _ _, ?_⟩) (fun t ht a ha => ?_)
  · simp only [Queues.pop, Function.update_self]
    refine hpath.2.congr fun a ha => Function.update_of_ne ?_ _ _
    rintro rfl
    exact hm ha
  · rcases rest with _ | ⟨b, rest⟩
    · simp [Queues.pop, hnext]
    · simpa [Queues.pop, hnext] using htail
  · simp only [Queues.pop]
    split
    · exact Function.update_of_ne ht _ _
    · rfl
  · exact Function.update_of_ne (h.ne_of_mem ht ha (by simp [hs])) _ _

theorem Represents.unlink [DecidableEq σ] [DecidableEq μ] (h : Represents Q contents)
    {before after : List μ} (hs : contents s = before ++ m :: after) :
    Represents (Q.unlink s m before.getLast?) (Function.update contents s (before ++ after)) := by
  have hpath := h.path s
  have hnodup := h.nodup s
  have htail := h.tail s
  rw [hs] at hpath hnodup htail
  have hsub : (before ++ after).Sublist (before ++ m :: after) :=
    List.Sublist.append_left (List.sublist_cons_self m after) before
  have hcells : ∀ a ∈ before ++ after, a ∈ contents s ∨ ∀ t, a ∉ contents t :=
    fun a ha => .inl (hs ▸ hsub.subset ha)
  have hlinked := hpath.unlink hnodup
  refine h.replace ?_ ?_ (hnodup.sublist hsub) hcells (fun t ht => ?_) (fun t ht a ha => ?_)
  · rcases hp : before.getLast? with _ | p
    · simpa [Queues.unlink, hp] using hlinked
    · simpa [Queues.unlink, hp] using hlinked
  · rcases after with _ | ⟨b, after⟩
    · have hlast : Q.tail s = some m := by simpa using htail
      simp [Queues.unlink, hlast]
    · -- A later cell is the tail, and `m` cannot be that cell.
      have hne : Q.tail s ≠ some m := by
        rw [htail]
        intro hlast
        have hmem : m ∈ b :: after := by
          refine List.mem_of_getLast? ?_
          simpa using hlast
        exact (List.nodup_cons.mp (List.nodup_append.mp hnodup).2.1).1 hmem
      simp only [Queues.unlink, if_neg hne]
      simpa using htail
  · constructor
    · rcases hp : before.getLast? with _ | p
      · exact Function.update_of_ne ht _ _
      · rfl
    · simp only [Queues.unlink]
      split
      · exact Function.update_of_ne ht _ _
      · rfl
  · have ham : a ≠ m := h.ne_of_mem ht ha (by simp [hs])
    simp only [Queues.unlink, Function.update_of_ne ham]
    rcases hp : before.getLast? with _ | p
    · rfl
    · refine Function.update_of_ne (h.ne_of_mem ht ha ?_) _ _
      rw [hs]
      exact List.mem_append_left _ (List.mem_of_getLast? hp)

/-- The walk has passed `before` and stands at the start of `rest`. -/
theorem Represents.removeFrom [DecidableEq σ] [DecidableEq μ] (h : Represents Q contents)
    {fuel : Nat} {current : Option μ} {before rest : List μ} (hs : contents s = before ++ rest)
    (hfuel : rest.length < fuel) (hpath : Path Q.next current rest) (hm : m ∉ before) :
    Represents (Q.removeFrom s m fuel current before.getLast?)
      (Function.update contents s ((contents s).erase m)) := by
  induction fuel generalizing current before rest with
  | zero => omega
  | succ fuel ih =>
    rcases rest with _ | ⟨c, rest⟩
    · have hnone : current = none := hpath
      have hmem : m ∉ contents s := by rwa [hs, List.append_nil]
      subst hnone
      rw [List.erase_of_not_mem hmem, Function.update_eq_self]
      exact h
    · obtain ⟨rfl, hrest⟩ := hpath
      by_cases hcm : c = m
      · subst hcm
        have herase : (contents s).erase c = before ++ rest := by
          rw [hs, List.erase_append_right _ hm, List.erase_cons_head]
        simp only [Queues.removeFrom, if_true]
        rw [herase]
        exact h.unlink hs
      · simp only [Queues.removeFrom, if_neg hcm]
        have hlast : (before ++ [c]).getLast? = some c := by simp
        rw [← hlast]
        refine ih (by simp [hs]) (by simpa using hfuel) hrest ?_
        simp [hm, Ne.symm hcm]

theorem Represents.remove [DecidableEq σ] [DecidableEq μ] (h : Represents Q contents)
    {fuel : Nat} (hfuel : (contents s).length < fuel) :
    Represents (Q.remove fuel s m) (Function.update contents s ((contents s).erase m)) := by
  have hwalk : Represents (Q.removeFrom s m fuel (Q.head s) ([] : List μ).getLast?)
      (Function.update contents s ((contents s).erase m)) :=
    h.removeFrom (List.nil_append _).symm hfuel (h.path s) List.not_mem_nil
  unfold Queues.remove
  exact hwalk

end Represents

theorem update_unit {α : Type*} (f : Unit → α) (x : α) : Function.update f () x = fun _ => x := by
  funext _
  rfl

end WolfTrust.LinkedQueue
