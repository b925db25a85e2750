import Mathlib.Data.List.Induction
import StageHost.Proofs.Pool.Queue
/-
  Pods that are done with.
  A release leaves a pod with no binding entry and no place in the queue, and with no claim on the
  slot (`Gone`). As long as no operation names the pod and its cycle in the slot is not retained,
  it stays so, whatever is done for other pods (`Steps.gone`).
-/
namespace StageHost
namespace Pool

variable {γ ε : Type}

/-- Whether a pool has nothing of a pod: no entry, no place in the queue, and if the slot is still
of the pod, the guest there is not retained. -/
structure Gone (p : Pool γ) (pod : String) : Prop where
  entry : p.binding.lookup pod = none
  parked : pod ∉ p.parked
  slot : ∀ s ∈ p.slot, s.pod = pod → s.retention = none

theorem Agrees.gone {p q : Pool γ} (h : p.Agrees q) {pod : String} (hp : p.Gone pod) :
    q.Gone pod := by
  obtain ⟨hs, hb, hk, -⟩ := h
  exact ⟨hb ▸ hp.entry, hk ▸ hp.parked, hs ▸ hp.slot⟩

theorem gone_release (p : Pool γ) (pod : String) : (p.release pod).Gone pod := by
  refine (agrees_release p pod).gone ⟨lookup_filter_self _ _, ?_, ?_⟩
  · intro hm
    exact (mem_filter_ne.1 hm).2 rfl
  · intro s hs hpod
    obtain ⟨t, -, rfl⟩ := Option.map_eq_some_iff.1 hs
    unfold Slot.unretain at hpod ⊢
    split
    · rfl
    · rename_i hne
      rw [if_neg hne] at hpod
      exact absurd hpod hne

/-! ## What is done for other pods -/

section

variable {p : Pool γ} {pod x : String}

theorem Gone.emptySlot (h : p.Gone pod) : { p with slot := none }.Gone pod :=
  ⟨h.entry, h.parked, fun _ hs => by cases hs⟩

theorem Gone.hold (h : p.Gone pod) (hx : pod ≠ x) (id : Nat) : (p.hold x id).Gone pod :=
  ⟨(lookup_cons_ne _ hx id).trans h.entry, h.parked, h.slot⟩

theorem Gone.unpark (h : p.Gone pod) (x : String) : (p.unpark x).Gone pod := by
  refine ⟨h.entry, fun hm => h.parked (mem_filter_ne.1 hm).1, h.slot⟩

theorem Gone.freeBinding (h : p.Gone pod) (x : String) : (p.freeBinding x).Gone pod := by
  refine ⟨?_, by simpa using h.parked, by simpa using h.slot⟩
  have hentry := h.entry
  rw [binding_freeBinding]
  rw [List.lookup_eq_none_iff] at hentry ⊢
  intro e he
  exact hentry e (List.mem_filter.1 he).1

theorem Gone.abandon (h : p.Gone pod) (x : String) : (p.abandon x).Gone pod := by
  refine ⟨lookup_abandon_none h.entry x, ?_, by simpa using h.slot⟩
  rw [parked_abandon]
  exact fun hm => h.parked (mem_filter_ne.1 hm).1

/-- The guest of another pod is parked. -/
theorem Gone.parks {q : Pool γ} {id : Nat} {r : Retention} (h : p.Gone pod) (hx : pod ≠ x)
    (hq : p.Parks x id r q) : q.Gone pod := by
  cases hq with
  | taken => exact (Agrees.refl p).unbooked.gone h
  | firm => exact h.hold hx id
  | room =>
    refine ⟨(h.hold hx id).entry, ?_, h.slot⟩
    simpa [hx] using h.parked
  | @overflow oldest rest hb hk hlen =>
    have hpushed : { p.hold x id with parked := rest ++ [x] }.Gone pod := by
      have hparked := h.parked
      rw [hk] at hparked
      refine ⟨(h.hold hx id).entry, ?_, h.slot⟩
      simp_all
    have hfreed := hpushed.freeBinding oldest
    exact ⟨hfreed.entry, hfreed.parked, hfreed.slot⟩

/-- A cycle of another pod begins. A guest that is not retained is not parked. -/
theorem Gone.turns {q : Pool γ} (h : p.Gone pod) (hq : p.Turns x q) : q.Gone pod := by
  cases hq with
  | empty => exact h
  | unretained => exact h.emptySlot.abandon x
  | @retained s r q hs hr hq =>
    have hne : pod ≠ s.pod := by
      intro hpod
      have hnone := h.slot s hs hpod.symm
      rw [hr] at hnone
      cases hnone
    exact (h.emptySlot.parks hne hq).abandon x

end

/-- Whether an operation leaves a pod alone: it does not name the pod, and does not retain the guest
of the pod's cycle. -/
def LeavesAlone (pod : String) (p : Pool γ) (op : Op γ ε) : Prop :=
  op.pod? ≠ some pod ∧
    ∀ cycle r, op = .retain cycle r → ∀ s ∈ p.slot, s.pod = pod → s.cycle ≠ cycle

/-- A pod that is done with stays so. -/
theorem Steps.gone {p q : Pool γ} {op : Op γ ε} {pod : String} (hqueue : p.Queued)
    (h : p.Gone pod) (halone : p.LeavesAlone pod op) (hs : p.Steps q op) : q.Gone pod := by
  obtain ⟨hname, hretain⟩ := halone
  have hclaims : ∀ {x : String}, op.Claims x → pod ≠ x := by
    rintro x (rfl | rfl) rfl <;> exact hname rfl
  cases hs with
  | idle _ ha => exact ha.gone h
  | @retained s r hs ha =>
    refine ha.gone ⟨h.entry, h.parked, ?_⟩
    rintro t ht hpod
    cases ht
    exact absurd rfl (hretain s.cycle r rfl s hs hpod)
  | claimed _ _ ha => exact ha.gone (h.unpark _)
  | takenOver hop _ _ ha => exact ha.gone (h.emptySlot.hold (hclaims hop) _)
  | @detached create x id _ ha =>
    have hne : pod ≠ x := fun hx => hname (by rw [hx]; rfl)
    exact ha.gone (h.hold hne id)
  | @released x ha =>
    have hfreed := (h.unpark x).freeBinding x
    rw [freeBinding_eq] at hfreed
    refine ha.gone ⟨hfreed.entry, hfreed.parked, ?_⟩
    intro s hs hpod
    obtain ⟨t, ht, rfl⟩ := Option.map_eq_some_iff.1 hs
    unfold Slot.unretain at hpod ⊢
    split
    · rfl
    · rename_i hne
      rw [if_neg hne] at hpod
      exact h.slot t ht hpod
  | @started create cycle x g _ ha =>
    have hne : pod ≠ x := fun hx => hname (by rw [hx]; rfl)
    have hturned := h.turns (hqueue.turns x)
    refine ha.gone ⟨hturned.entry, hturned.parked, ?_⟩
    intro s hs hpod
    obtain ⟨id, -, rfl⟩ := Option.map_eq_some_iff.1 hs
    exact absurd hpod hne.symm

/-- Nothing of a pod comes back after its release, whatever comes of the makings in the run. -/
theorem gone_of_run {p : Pool γ} (hp : p.Reachable ε) {pod : String} {ops : List (Op γ ε)}
    (halone : (p.release pod).Along (LeavesAlone pod) ops) :
    ((p.release pod).run ops).Gone pod := by
  induction ops using List.reverseRecOn with
  | nil => exact gone_release p pod
  | append_singleton ops op ih =>
    obtain ⟨hbefore, hlast⟩ := along_snoc.1 halone
    have hqueue : ((p.release pod).run ops).Queued :=
      ((hp.step (.release pod)).run ops).queued
    rw [run_append]
    exact (steps_step _ op).gone hqueue (ih hbefore) hlast

/-! ## Cycles in the slot -/

/-- Whether the cycle and the pod of the slot are of some kind. -/
def Slots (P : UInt64 → String → Prop) (p : Pool γ) : Prop := ∀ s ∈ p.slot, P s.cycle s.pod

theorem Agrees.slots {p q : Pool γ} (h : p.Agrees q) {P : UInt64 → String → Prop}
    (hp : p.Slots P) : q.Slots P := by
  unfold Slots at hp ⊢
  rw [h.slot]
  exact hp

/-- The slot is of a cycle that was scheduled. -/
theorem Steps.slots {p q : Pool γ} {op : Op γ ε} {P : UInt64 → String → Prop} (h : p.Slots P)
    (hop : ∀ create cycle pod, op = .schedule create cycle pod → P cycle pod)
    (hs : p.Steps q op) : q.Slots P := by
  cases hs with
  | idle _ ha => exact ha.slots h
  | @retained s r hs ha =>
    refine ha.slots ?_
    rintro t ht
    cases ht
    exact h s hs
  | claimed _ _ ha => exact ha.slots h
  | takenOver _ _ _ ha => exact ha.slots fun _ hs => by cases hs
  | detached _ ha => exact ha.slots h
  | released ha =>
    refine ha.slots ?_
    intro s hs
    obtain ⟨t, ht, rfl⟩ := Option.map_eq_some_iff.1 hs
    unfold Slot.unretain
    split <;> exact h t ht
  | started _ ha =>
    refine ha.slots ?_
    intro s hs
    obtain ⟨id, -, rfl⟩ := Option.map_eq_some_iff.1 hs
    exact hop _ _ _ rfl

end Pool
end StageHost
