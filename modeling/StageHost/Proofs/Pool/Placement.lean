import StageHost.Proofs.Pool.Bookkeeping
import Mathlib.Data.List.Nodup
import Mathlib.Data.List.Pairwise
/-
  Every guest is in exactly one place.
  `placed` lists the guests of the slot, the binding entries and the free list. `Accounts` says that
  with the guests in hand in the middle of an operation they are just the guests ever made, each
  once. Every part of an operation keeps it, also where a new guest finds its place taken by then,
  so every reachable pool accounts for its guests with nothing in hand (`Reachable.accounts`).
  `placed_of_run` says what that means for a run and its attempts at making guests.
-/
namespace StageHost
namespace Pool

variable {γ ε : Type}

/-- The guests of all places. -/
def placed (p : Pool γ) : List Nat :=
  p.slot.toList.map (·.guest) ++ p.binding.map (·.2) ++ p.free

/-- The numbers of all guests ever made. -/
def ids (p : Pool γ) : List Nat := p.guests.map (·.1)

/-- The guests in all places and in hand are those ever made. No number is used twice, and the
next one is above all others; no pod has two entries. -/
structure Accounts (p : Pool γ) (hand : List Nat) : Prop where
  keys : (p.binding.map (·.1)).Nodup
  perm : (hand ++ p.placed).Perm p.ids
  decreasing : p.ids.Pairwise (· > ·)
  fresh : ∀ id ∈ p.ids, id < p.nextId

/-- An entry of a list with distinct keys, beside the entries of other keys. -/
theorem perm_of_lookup {l : List (String × Nat)} (hl : (l.map (·.1)).Nodup) {k : String}
    {v : Nat} (h : l.lookup k = some v) : l.Perm ((k, v) :: l.filter (·.1 ≠ k)) := by
  induction l with
  | nil => simp at h
  | cons e l ih =>
    rw [List.map_cons, List.nodup_cons] at hl
    by_cases hk : k = e.1
    · have hrest : l.lookup k = none := by
        rw [List.lookup_eq_none_iff]
        intro d hd
        have hne : k ≠ d.1 := fun hkd => hl.1 (List.mem_map.2 ⟨d, hd, by rw [← hkd, hk]⟩)
        simpa using hne
      rw [hk, List.lookup_cons_self] at h
      cases h
      rw [List.filter_cons_of_neg (by simpa using hk.symm), filter_of_lookup_none hrest, hk]
    · have hk' : (k == e.1) = false := by simpa using hk
      rw [List.lookup_cons, hk'] at h
      rw [List.filter_cons_of_pos (by simpa using Ne.symm hk)]
      exact ((ih hl.2 h).cons _).trans (List.Perm.swap _ _ _)

namespace Accounts

variable {p : Pool γ} {hand : List Nat} {id : Nat}

theorem empty : (Pool.empty : Pool γ).Accounts [] := by
  constructor <;> simp [Pool.empty, placed, ids]

theorem nodup (h : p.Accounts hand) : (hand ++ p.placed).Nodup :=
  h.perm.nodup_iff.2 (h.decreasing.imp fun hgt => Nat.ne_of_gt hgt)

theorem nodup_placed (h : p.Accounts hand) : p.placed.Nodup := (List.nodup_append.1 h.nodup).2.1

/-- A guest in some place is one that was made. -/
theorem mem_ids (h : p.Accounts hand) (hm : id ∈ p.placed) : id ∈ p.ids :=
  h.perm.subset (List.mem_append_right _ hm)

/-! ## Parts of operations -/

theorem giveBack (h : p.Accounts (id :: hand)) : (p.giveBack id).Accounts hand := by
  refine ⟨h.keys, ?_, h.decreasing, h.fresh⟩
  refine List.Perm.trans ?_ h.perm
  rw [List.perm_iff_count]
  intro x
  simp only [placed, Pool.giveBack, List.count_append, List.count_cons, List.cons_append]
  omega

theorem hold (h : p.Accounts (id :: hand)) {pod : String} (hb : p.binding.lookup pod = none) :
    (p.hold pod id).Accounts hand := by
  refine ⟨?_, ?_, h.decreasing, h.fresh⟩
  · show (((pod, id) :: p.binding).map (·.1)).Nodup
    rw [List.map_cons, List.nodup_cons]
    refine ⟨?_, h.keys⟩
    intro hm
    obtain ⟨e, he, hep⟩ := List.mem_map.1 hm
    have hne : pod ≠ e.1 := by simpa using List.lookup_eq_none_iff.1 hb e he
    exact hne hep.symm
  · refine List.Perm.trans ?_ h.perm
    rw [List.perm_iff_count]
    intro x
    simp only [placed, Pool.hold, List.count_append, List.count_cons, List.cons_append,
      List.map_cons]
    omega

theorem install (h : p.Accounts (id :: hand)) (hs : p.slot = none) (cycle : UInt64)
    (pod : String) : (p.install cycle pod id).Accounts hand := by
  refine ⟨h.keys, ?_, h.decreasing, h.fresh⟩
  refine List.Perm.trans ?_ h.perm
  rw [List.perm_iff_count]
  intro x
  simp only [placed, Pool.install, hs, List.count_append, List.count_cons, List.cons_append,
    Option.toList_some, Option.toList_none, List.map_cons, List.map_nil, List.count_nil]
  omega

/-- The guest of the slot in hand, and the slot empty. -/
theorem emptySlot (h : p.Accounts hand) {s : Slot} (hs : p.slot = some s) :
    { p with slot := none }.Accounts (s.guest :: hand) := by
  refine ⟨h.keys, ?_, h.decreasing, h.fresh⟩
  refine List.Perm.trans ?_ h.perm
  rw [List.perm_iff_count]
  intro x
  simp only [placed, hs, List.count_append, List.count_cons, List.cons_append,
    Option.toList_some, Option.toList_none, List.map_cons, List.map_nil, List.count_nil]
  omega

/-- The slot may change if its guest stays. -/
theorem setSlot (h : p.Accounts hand) {slot : Option Slot}
    (hs : slot.map (·.guest) = p.slot.map (·.guest)) : { p with slot }.Accounts hand := by
  refine ⟨h.keys, ?_, h.decreasing, h.fresh⟩
  have hl : slot.toList.map (·.guest) = p.slot.toList.map (·.guest) := by
    rw [← Option.toList_map, ← Option.toList_map, hs]
  have hp : { p with slot }.placed = p.placed := by rw [placed, placed, hl]
  rw [hp]
  exact h.perm

/-- The parked queue and the reclaimed marks hold no guests. -/
theorem setQueue (h : p.Accounts hand) (parked reclaimed : List String) :
    { p with parked, reclaimed }.Accounts hand := ⟨h.keys, h.perm, h.decreasing, h.fresh⟩

theorem freeBinding (h : p.Accounts hand) (pod : String) : (p.freeBinding pod).Accounts hand := by
  cases hb : p.binding.lookup pod with
  | none =>
    rw [freeBinding_eq, hb, filter_of_lookup_none hb]
    exact h
  | some other =>
    rw [freeBinding_eq, hb]
    refine ⟨?_, ?_, h.decreasing, h.fresh⟩
    · exact h.keys.sublist (List.filter_sublist.map _)
    · refine List.Perm.trans ?_ h.perm
      have hsplit := ((perm_of_lookup h.keys hb).map (·.2))
      rw [List.perm_iff_count] at hsplit ⊢
      intro x
      have hx := hsplit x
      simp only [placed, List.count_append, List.count_cons, List.map_cons, Option.toList_some,
        List.cons_append, List.nil_append] at hx ⊢
      omega

theorem abandon (h : p.Accounts hand) (pod : String) : (p.abandon pod).Accounts hand := by
  unfold Pool.abandon
  split
  · exact ((h.setQueue _ _).freeBinding pod).setQueue _ _
  · exact h.setQueue _ _

theorem reclaimOldest (h : p.Accounts hand) : p.reclaimOldest.Accounts hand := by
  unfold Pool.reclaimOldest
  split
  · exact h
  · exact ((h.setQueue _ _).freeBinding _).setQueue _ _

theorem park (h : p.Accounts (id :: hand)) (pod : String) (r : Retention) :
    (p.park pod id r).Accounts hand := by
  unfold Pool.park
  split
  · exact h.giveBack
  · rename_i hb
    rw [Option.not_isSome_iff_eq_none] at hb
    refine repeat_reclaimOldest (I := fun q => q.Accounts hand) (fun _ hq => hq.reclaimOldest) _ ?_
    split
    · exact (h.hold hb).setQueue _ _
    · exact h.hold hb

/-- A slot that can serve the cycle keeps its place, and one that cannot is emptied. -/
theorem takeSlot (h : p.Accounts hand) (cycle : UInt64) (pod : String) :
    (p.takeSlot cycle pod).2.Accounts hand ∧
      ((p.takeSlot cycle pod).1 = none → (p.takeSlot cycle pod).2.slot = none) := by
  unfold Pool.takeSlot
  split
  · exact ⟨h, fun _ => by assumption⟩
  · rename_i s hs
    split
    · exact ⟨h, fun hn => by cases hn⟩
    · dsimp only
      split
      · refine ⟨?_, fun hn => by cases hn⟩
        exact ((h.emptySlot hs).abandon pod).install (slot_abandon _ _) cycle pod
      · refine ⟨((h.emptySlot hs).park _ _).abandon pod, fun _ => ?_⟩
        rw [slot_abandon, slot_park]

theorem takeFree (h : p.Accounts hand) :
    p.takeFree.2.Accounts (p.takeFree.1.toList ++ hand) := by
  unfold Pool.takeFree
  split
  · exact h
  · rename_i id rest hf
    refine ⟨h.keys, ?_, h.decreasing, h.fresh⟩
    refine List.Perm.trans ?_ h.perm
    rw [List.perm_iff_count]
    intro x
    simp only [placed, hf, List.count_append, List.count_cons, Option.toList_some,
      List.count_nil]
    omega

/-- A new guest is in hand. A number that came to nothing is used up all the same. -/
theorem make (h : p.Accounts hand) (create : Nat → Except ε γ) :
    (p.make create).2.Accounts ((p.make create).1.toOption.toList ++ hand) := by
  have hfresh : ∀ id ∈ p.ids, id < p.nextId + 1 := fun id hm => Nat.lt_succ_of_lt (h.fresh id hm)
  unfold Pool.make takeId
  dsimp only
  cases create p.nextId with
  | error e => exact ⟨h.keys, h.perm, h.decreasing, hfresh⟩
  | ok guest =>
    refine ⟨h.keys, h.perm.cons p.nextId, ?_, ?_⟩
    · show (p.nextId :: p.ids).Pairwise (· > ·)
      rw [List.pairwise_cons]
      exact ⟨h.fresh, h.decreasing⟩
    · intro id hm
      rcases List.mem_cons.1 hm with hm | hm
      · exact hm ▸ Nat.lt_succ_self _
      · exact hfresh id hm

/-! ## Operations -/

theorem borrow (h : p.Accounts hand) (create : Nat → Except ε γ) :
    (p.borrow create).2.Accounts ((p.borrow create).1.toOption.toList ++ hand) := by
  have ht := h.takeFree
  unfold Pool.borrow
  rcases hp : p.takeFree with ⟨_ | id, q⟩ <;> rw [hp] at ht
  · exact ht.make create
  · exact ht

theorem prewarm (h : p.Accounts hand) (create : Nat → Except ε γ) :
    (p.prewarm create).2.Accounts hand := by
  have hm := h.make create
  unfold Pool.prewarm
  rcases hp : p.make create with ⟨_ | id, q⟩ <;> rw [hp] at hm
  · exact hm
  · exact hm.giveBack

/-- Guests may change under their handles. -/
theorem touch (h : p.Accounts hand) (change : Nat → γ → γ) : (p.touch change).Accounts hand := by
  have hi : (p.touch change).ids = p.ids := by
    unfold ids Pool.touch
    dsimp only
    rw [List.map_map]
    rfl
  exact ⟨h.keys, hi ▸ h.perm, hi ▸ h.decreasing, fun id hm => h.fresh id (hi ▸ hm)⟩

theorem withFree (h : p.Accounts hand) (create : Nat → Except ε γ) (use : γ → γ) :
    (p.withFree create use).2.Accounts hand := by
  have hb := h.borrow create
  unfold Pool.withFree
  rcases hp : p.borrow create with ⟨_ | id, q⟩ <;> rw [hp] at hb
  · exact hb
  · dsimp only
    rw [modifyGuest_eq]
    exact (hb.touch _).giveBack

theorem pick (h : p.Accounts hand) (cycle : UInt64) (pod : String) :
    (p.pick cycle pod).2.Accounts hand := by
  obtain ⟨ht, hn⟩ := h.takeSlot cycle pod
  unfold Pool.pick
  rcases hp : p.takeSlot cycle pod with ⟨_ | id, q⟩ <;> rw [hp] at ht hn
  · have hf := ht.takeFree
    dsimp only
    rcases hq : q.takeFree with ⟨_ | id, q'⟩ <;> rw [hq] at hf
    · exact hf
    · refine hf.install ?_ cycle pod
      have hs := (agrees_takeFree q).slot
      rw [hq] at hs
      exact hs.trans (hn rfl)
  · exact ht

/-- Also when the slot serves the cycle by now, the new guest has a place. -/
theorem settle (h : p.Accounts (id :: hand)) (cycle : UInt64) (pod : String) :
    (p.settle cycle pod id).2.Accounts hand := by
  obtain ⟨ht, hn⟩ := h.takeSlot cycle pod
  unfold Pool.settle
  rcases hp : p.takeSlot cycle pod with ⟨_ | other, q⟩ <;> rw [hp] at ht hn
  · exact ht.install (hn rfl) cycle pod
  · exact ht.giveBack

theorem schedule (h : p.Accounts hand) (create : Nat → Except ε γ) (cycle : UInt64)
    (pod : String) : (p.schedule create cycle pod).2.Accounts hand := by
  have hk := h.pick cycle pod
  unfold Pool.schedule
  rcases hp : p.pick cycle pod with ⟨_ | id, q⟩ <;> rw [hp] at hk
  · have hm := hk.make create
    dsimp only
    rcases hq : q.make create with ⟨_ | id, q'⟩ <;> rw [hq] at hm
    · exact hm
    · exact hm.settle cycle pod
  · exact hk

theorem retain (h : p.Accounts hand) (cycle : UInt64) (r : Retention) :
    (p.retain cycle r).Accounts hand := by
  unfold Pool.retain
  split
  · rename_i s hs
    split
    · exact h.setSlot (by rw [hs]; rfl)
    · exact h
  · exact h

theorem claim (h : p.Accounts hand) (pod : String) : (p.claim pod).2.Accounts hand := by
  cases hb : p.binding.lookup pod with
  | some id =>
    rw [claim_of_entry hb]
    exact h.setQueue _ _
  | none =>
    by_cases hs : ∃ s ∈ p.slot, s.pod = pod
    · obtain ⟨s, hs, rfl⟩ := hs
      rw [claim_of_slot hs hb]
      exact (h.emptySlot hs).hold hb
    · rw [claim_of_none hb fun s hm hp => hs ⟨s, hm, hp⟩]
      exact h

theorem pickDetached (h : p.Accounts hand) (pod : String) :
    (p.pickDetached pod).2.Accounts hand := by
  unfold Pool.pickDetached
  cases hb : p.binding.lookup pod with
  | some id => exact h
  | none =>
    have hf := h.takeFree
    dsimp only
    rcases hq : p.takeFree with ⟨_ | id, q⟩ <;> rw [hq] at hf
    · exact hf
    · refine hf.hold ?_
      have hbind := (agrees_takeFree p).binding
      rw [hq] at hbind
      exact hbind ▸ hb

/-- Also when the pod has an entry by now, the new guest has a place. -/
theorem settleDetached (h : p.Accounts (id :: hand)) (pod : String) :
    (p.settleDetached pod id).2.Accounts hand := by
  unfold Pool.settleDetached
  split
  · exact h.giveBack
  · rename_i hb
    exact h.hold hb

theorem detach (h : p.Accounts hand) (create : Nat → Except ε γ) (pod : String) :
    (p.detach create pod).2.Accounts hand := by
  have hk := h.pickDetached pod
  unfold Pool.detach
  rcases hp : p.pickDetached pod with ⟨_ | id, q⟩ <;> rw [hp] at hk
  · have hm := hk.make create
    dsimp only
    rcases hq : q.make create with ⟨_ | id, q'⟩ <;> rw [hq] at hm
    · exact hm
    · exact hm.settleDetached pod
  · exact hk

theorem release (h : p.Accounts hand) (pod : String) : (p.release pod).Accounts hand := by
  have hs : (p.slot.map (Slot.unretain pod)).map (·.guest) = p.slot.map (·.guest) := by
    rw [Option.map_map]
    congr 1
    funext s
    unfold Function.comp Slot.unretain
    split <;> rfl
  have hq := h.setQueue (p.parked.filter (· ≠ pod)) p.reclaimed
  exact (hq.setSlot hs).freeBinding pod

theorem step (h : p.Accounts hand) (op : Op γ ε) : (p.step op).Accounts hand := by
  cases op with
  | prewarm create => exact h.prewarm create
  | withFree create use => exact h.withFree create use
  | schedule create cycle pod => exact h.schedule create cycle pod
  | retain cycle r => exact h.retain cycle r
  | claim pod => exact h.claim pod
  | bind pod =>
    rw [Pool.step, bind_snd]
    exact h.claim pod
  | detach create pod => exact h.detach create pod
  | release pod => exact h.release pod
  | touch change => exact h.touch change

end Accounts

theorem Reachable.accounts {p : Pool γ} (hp : p.Reachable ε) : p.Accounts [] :=
  hp.induction (I := fun p => p.Accounts []) Accounts.empty fun _ op h => h.step op

end Pool
end StageHost
