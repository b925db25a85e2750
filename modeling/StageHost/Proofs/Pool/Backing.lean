import StageHost.Proofs.Pool.Departure
import StageHost.Proofs.Pool.Demand
/-
  How many binding entries there can be, and how many guests.
  `Backed` says that every entry is parked or of a pod whose binding cycle is open, and that the
  slot is not retained firmly. Operations within the open cycles keep it (`Steps.backed`), and the
  entries are then at most the parked ones and one for each open cycle (`binding_le`). As guests are
  made on demand, those ever made are at most one more than the entries were at some time
  (`bounds_of_run`). A pool that only schedules has no entries (`bare_of_run`).
-/
namespace StageHost
namespace Pool

variable {γ ε : Type}

/-! ## Entries -/

/-- Every entry is parked or of one of some pods, and no firm retention is to come. -/
structure Backed (p : Pool γ) (opened : List String) : Prop where
  entry : ∀ e ∈ p.binding, e.1 ∈ p.parked ∨ e.1 ∈ opened
  slot : ∀ s ∈ p.slot, s.retention ≠ some .firm

/-- Whether an operation belongs to a cycle, to an open one if it is a binding cycle, and does not
retain firmly. -/
def Op.Within (opened : List String) : Op γ ε → Prop
  | .schedule .. | .release _ | .touch _ => True
  | .retain _ r => r = .tentative
  | .claim pod | .bind pod | .detach _ pod => pod ∈ opened
  | .prewarm _ | .withFree .. => False

section

variable {p q : Pool γ} {opened : List String}

theorem Agrees.backed (h : p.Agrees q) (hp : p.Backed opened) : q.Backed opened := by
  obtain ⟨hs, hb, hk, -⟩ := h
  refine ⟨?_, hs ▸ hp.slot⟩
  rw [hb, hk]
  exact hp.entry

theorem Backed.mono (h : p.Backed opened) {more : List String} (hsub : opened ⊆ more) :
    p.Backed more := by
  refine ⟨fun e he => ?_, h.slot⟩
  exact (h.entry e he).imp_right fun hm => hsub hm

theorem Backed.emptySlot (h : p.Backed opened) : { p with slot := none }.Backed opened :=
  ⟨h.entry, fun _ hs => by cases hs⟩

theorem Backed.unpark (h : p.Backed opened) {x : String} (hx : x ∈ opened) :
    (p.unpark x).Backed opened := by
  refine ⟨fun e he => ?_, h.slot⟩
  rcases h.entry e he with hk | ho
  · by_cases hex : e.1 = x
    · exact .inr (hex ▸ hx)
    · exact .inl (mem_filter_ne.2 ⟨hk, hex⟩)
  · exact .inr ho

theorem Backed.hold (h : p.Backed opened) {x : String} (hx : x ∈ p.parked ∨ x ∈ opened)
    (id : Nat) : (p.hold x id).Backed opened := by
  refine ⟨fun e he => ?_, h.slot⟩
  rcases List.mem_cons.1 he with rfl | he
  · exact hx
  · exact h.entry e he

/-- Entry and place in the queue go together. -/
theorem Backed.drop (h : p.Backed opened) (x : String) :
    { p with
      binding := p.binding.filter (·.1 ≠ x)
      parked := p.parked.filter (· ≠ x) }.Backed (opened.filter (· ≠ x)) := by
  refine ⟨fun e he => ?_, h.slot⟩
  obtain ⟨hm, hdec⟩ := List.mem_filter.1 he
  have hne : e.1 ≠ x := by simpa using hdec
  rcases h.entry e hm with hk | ho
  · exact .inl (mem_filter_ne.2 ⟨hk, hne⟩)
  · exact .inr (mem_filter_ne.2 ⟨ho, hne⟩)

theorem Backed.released (h : p.Backed opened) (x : String) :
    { p with
      slot := p.slot.map (Slot.unretain x)
      binding := p.binding.filter (·.1 ≠ x)
      parked := p.parked.filter (· ≠ x) }.Backed (opened.filter (· ≠ x)) := by
  refine ⟨(h.drop x).entry, fun s hs => ?_⟩
  obtain ⟨t, ht, rfl⟩ := Option.map_eq_some_iff.1 hs
  unfold Slot.unretain
  split
  · simp
  · exact h.slot t ht

/-- A release backs the remaining entries without the pod. -/
theorem Backed.release (h : p.Backed opened) (x : String) :
    (p.release x).Backed (opened.filter (· ≠ x)) := (agrees_release p x).backed (h.released x)

theorem Backed.abandon (h : p.Backed opened) (x : String) : (p.abandon x).Backed opened := by
  refine ⟨fun e he => ?_, by simpa using h.slot⟩
  rw [parked_abandon]
  rw [binding_abandon] at he
  split at he
  · have hdropped := (h.drop x).entry e he
    exact hdropped.imp_right fun hm => (mem_filter_ne.1 hm).1
  · rename_i hx
    rw [filter_ne_of_not_mem hx]
    exact h.entry e he

theorem Backed.parks {x : String} {id : Nat} {r : Retention} (h : p.Backed opened)
    (hr : r ≠ .firm) (hq : p.Parks x id r q) : q.Backed opened := by
  cases hq with
  | taken => exact (Agrees.refl p).unbooked.backed h
  | firm => exact absurd rfl hr
  | room =>
    refine ⟨fun e he => ?_, h.slot⟩
    rcases List.mem_cons.1 he with rfl | he
    · exact .inl (by simp)
    · exact (h.entry e he).imp_left fun hk => List.mem_append_left _ hk
  | @overflow oldest rest hb hk hlen =>
    refine ⟨fun e he => ?_, ?_⟩
    · have he' : e ∈ ((x, id) :: p.binding).filter (·.1 ≠ oldest) := by
        rw [Pool.remember, binding_freeBinding] at he
        exact he
      obtain ⟨hm, hdec⟩ := List.mem_filter.1 he'
      have hne : e.1 ≠ oldest := by simpa using hdec
      have hparked : e.1 ∈ rest ++ [x] ∨ e.1 ∈ opened := by
        rcases List.mem_cons.1 hm with rfl | hm
        · exact .inl (by simp)
        · have hentry := h.entry e hm
          rw [hk, List.mem_cons] at hentry
          simp only [List.mem_append]
          tauto
      simpa [Pool.remember] using hparked
    · simpa [Pool.remember, Pool.hold] using h.slot

theorem Backed.turns {x : String} (h : p.Backed opened) (hq : p.Turns x q) :
    q.Backed opened := by
  cases hq with
  | empty => exact h
  | unretained => exact h.emptySlot.abandon x
  | @retained s r q hs hr hq =>
    have hfirm : r ≠ .firm := by
      rintro rfl
      exact h.slot s hs hr
    exact (h.emptySlot.parks hfirm hq).abandon x

end

/-- Operations within the open binding cycles back every entry. -/
theorem Steps.backed {p q : Pool γ} {op : Op γ ε} {opened : List String} (hqueue : p.Queued)
    (h : p.Backed opened) (hop : op.Within opened) (hs : p.Steps q op) : q.Backed opened := by
  have hclaims : ∀ {x : String}, op.Claims x → x ∈ opened := by
    rintro x (rfl | rfl) <;> exact hop
  cases hs with
  | idle _ ha => exact ha.backed h
  | @retained s r hs ha =>
    obtain rfl : r = .tentative := hop
    refine ha.backed ⟨h.entry, ?_⟩
    rintro t ht
    cases ht
    have hslot := h.slot s hs
    cases hr : s.retention with
    | none => simp [Retention.strengthen]
    | some old =>
      cases old with
      | tentative => simp [Retention.strengthen]
      | firm => exact absurd hr hslot
  | claimed hx _ ha => exact ha.backed (h.unpark (hclaims hx))
  | takenOver hx _ _ ha => exact ha.backed (h.emptySlot.hold (.inr (hclaims hx)) _)
  | detached _ ha => exact ha.backed (h.hold (.inr hop) _)
  | @released x ha =>
    exact ha.backed ((h.released x).mono (List.filter_subset_self opened))
  | @started create cycle x g _ ha =>
    have hturned := h.turns (hqueue.turns x)
    refine ha.backed ⟨hturned.entry, ?_⟩
    intro s hs
    obtain ⟨id, -, rfl⟩ := Option.map_eq_some_iff.1 hs
    simp

/-- There are at most as many entries as may be parked, and one for each open binding cycle. -/
theorem binding_le {p : Pool γ} (hp : p.Reachable ε) {opened : List String}
    (h : p.Backed opened) : p.binding.length ≤ parkedLimit + opened.length := by
  have hsub : p.binding.map (·.1) ⊆ p.parked ++ opened := by
    intro x hx
    obtain ⟨e, he, rfl⟩ := List.mem_map.1 hx
    exact List.mem_append.2 (h.entry e he)
  have hlen := (List.subperm_of_subset hp.accounts.keys hsub).length_le
  have hparked := hp.queued.parked_le
  rw [List.length_map, List.length_append] at hlen
  omega

/-! ## Guests -/

theorem inCycle_of_within {op : Op γ ε} {opened : List String} (h : op.Within opened) :
    op.InCycle := by
  cases op with
  | prewarm | withFree => exact absurd h id
  | schedule | retain | claim | bind | detach | release | touch => trivial

theorem occupied_le (p : Pool γ) : p.occupied ≤ p.binding.length + 1 := by
  have hslot : p.slot.toList.length ≤ 1 := by cases p.slot <;> simp
  unfold occupied
  omega

/-- A run within the open binding cycles backs every entry, and makes no more guests than there may
be entries and one. -/
theorem bounds_of_run {p : Pool γ} (hp : p.Reachable ε) {opened : List String}
    (h : p.Backed opened) {ops : List (Op γ ε)} (hops : ∀ op ∈ ops, op.Within opened) :
    (p.run ops).Backed opened ∧
      (p.run ops).created ≤ max p.created (parkedLimit + opened.length + 1) := by
  have hdone := run_induction_of (C := Op.Within opened)
    (I := fun q => q.Reachable ε ∧ q.Backed opened ∧
      q.created ≤ max p.created (parkedLimit + opened.length + 1))
    (fun q op hop ⟨hq, hback, hmade⟩ => by
      have hback' := (steps_step q op).backed hq.queued hback hop
      refine ⟨hq.step op, hback', ?_⟩
      have hentries := binding_le (hq.step op) hback'
      have hoccupied := occupied_le (q.step op)
      rcases created_step hq (inCycle_of_within hop) with hsame | ⟨-, hnew⟩ <;> omega)
    ⟨hp, h, by omega⟩ hops
  exact hdone.2

/-! ## Without binding cycles -/

/-- No entry, and none to come. -/
structure Bare (p : Pool γ) : Prop where
  binding : p.binding = []
  slot : ∀ s ∈ p.slot, s.retention = none

theorem Bare.backed {p : Pool γ} (h : p.Bare) (opened : List String) : p.Backed opened := by
  refine ⟨fun e he => ?_, fun s hs => ?_⟩
  · rw [h.binding] at he
    cases he
  · rw [h.slot s hs]
    simp

/-- Whether an operation only schedules, and retains nothing. -/
def Op.Schedules : Op γ ε → Prop
  | .schedule .. | .touch _ => True
  | _ => False

theorem Agrees.bare {p q : Pool γ} (h : p.Agrees q) (hp : p.Bare) : q.Bare :=
  ⟨h.binding.trans hp.binding, h.slot ▸ hp.slot⟩

theorem Bare.turns {p q : Pool γ} {x : String} (h : p.Bare) (hq : p.Turns x q) :
    q.binding = [] := by
  cases hq with
  | empty => exact h.binding
  | unretained =>
    rw [binding_abandon]
    simp [h.binding]
  | retained hs hr =>
    have hnone := h.slot _ hs
    rw [hr] at hnone
    cases hnone

theorem Steps.bare {p q : Pool γ} {op : Op γ ε} (hqueue : p.Queued) (h : p.Bare)
    (hop : op.Schedules) (hs : p.Steps q op) : q.Bare := by
  cases hs with
  | idle _ ha => exact ha.bare h
  | @started create cycle x g _ ha =>
    have hturned := h.turns (hqueue.turns x)
    refine ha.bare ⟨hturned, ?_⟩
    intro s hs
    obtain ⟨id, -, rfl⟩ := Option.map_eq_some_iff.1 hs
    rfl
  | claimed hx | takenOver hx => rcases hx with rfl | rfl <;> exact absurd hop id
  | retained | detached | released => exact absurd hop id

theorem inCycle_of_schedules {op : Op γ ε} (h : op.Schedules) : op.InCycle := by
  cases op with
  | schedule | touch => trivial
  | _ => exact absurd h id

/-- A pool that only schedules stays without entries, and needs one guest. -/
theorem bare_of_run {p : Pool γ} (hp : p.Reachable ε) (h : p.Bare) {ops : List (Op γ ε)}
    (hops : ∀ op ∈ ops, op.Schedules) :
    (p.run ops).Bare ∧ (p.run ops).created ≤ max p.created 1 := by
  have hdone := run_induction_of (C := Op.Schedules)
    (I := fun q => q.Reachable ε ∧ q.Bare ∧ q.created ≤ max p.created 1)
    (fun q op hop ⟨hq, hbare, hmade⟩ => by
      have hbare' := (steps_step q op).bare hq.queued hbare hop
      refine ⟨hq.step op, hbare', ?_⟩
      have hentries : (q.step op).binding.length = 0 := by rw [hbare'.binding, List.length_nil]
      have hoccupied := occupied_le (q.step op)
      rcases created_step hq (inCycle_of_schedules hop) with hsame | ⟨-, hnew⟩ <;> omega)
    ⟨hp, h, by omega⟩ hops
  exact hdone.2

end Pool
end StageHost
