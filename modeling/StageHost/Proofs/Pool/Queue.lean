import StageHost.Proofs.Pool.Bookkeeping
/-
  The parked queue fits the binding entries.
  `Queued` says so, with the bounds of both memories, and every reachable pool is `Queued`
  (`Reachable.queued`). In such a pool `park` has four outcomes (`Parks`), and with them the
  beginning of a cycle has few (`Turns`).
-/
namespace StageHost
namespace Pool

variable {γ ε : Type}

/-! ## The parked queue -/

/-- The parked queue fits the binding entries, and both memories are bounded. -/
structure Queued (p : Pool γ) : Prop where
  nodup : p.parked.Nodup
  entry : ∀ pod ∈ p.parked, (p.binding.lookup pod).isSome
  parked_le : p.parked.length ≤ parkedLimit
  reclaimed_le : p.reclaimed.length ≤ reclaimedLimit

theorem queued_empty : (empty : Pool γ).Queued := by
  constructor <;> simp [empty]

theorem Queued.not_mem {p : Pool γ} (h : p.Queued) {pod : String}
    (hb : p.binding.lookup pod = none) : pod ∉ p.parked := by
  intro hm
  have := h.entry pod hm
  rw [hb] at this
  cases this

/-- What parking a guest for a pod can come to. -/
inductive Parks (p : Pool γ) (pod : String) (id : Nat) : Retention → Pool γ → Prop
  /-- The pod has a guest already. -/
  | taken {r : Retention} {other : Nat} (hb : p.binding.lookup pod = some other) :
    Parks p pod id r (p.giveBack id)
  | firm (hb : p.binding.lookup pod = none) : Parks p pod id .firm (p.hold pod id)
  | room (hb : p.binding.lookup pod = none) (hlen : p.parked.length < parkedLimit) :
    Parks p pod id .tentative { p.hold pod id with parked := p.parked ++ [pod] }
  /-- The queue is full, so the pod at its head is reclaimed. -/
  | overflow {oldest : String} {rest : List String} (hb : p.binding.lookup pod = none)
    (hq : p.parked = oldest :: rest) (hlen : rest.length + 1 = parkedLimit) :
    Parks p pod id .tentative
      (({ p.hold pod id with parked := rest ++ [pod] }.freeBinding oldest).remember oldest)

theorem parked_overflow (p : Pool γ) (pod oldest : String) (id : Nat) (queue : List String) :
    (({ p.hold pod id with parked := queue }.freeBinding oldest).remember oldest).parked = queue :=
  parked_freeBinding _ _

theorem binding_overflow (p : Pool γ) (pod oldest : String) (id : Nat) (queue : List String) :
    (({ p.hold pod id with parked := queue }.freeBinding oldest).remember oldest).binding =
      ((pod, id) :: p.binding).filter (·.1 ≠ oldest) := binding_freeBinding _ _

theorem Queued.parks {p : Pool γ} (h : p.Queued) (pod : String) (id : Nat) (r : Retention) :
    p.Parks pod id r (p.park pod id r) := by
  unfold park
  cases hb : p.binding.lookup pod with
  | some other => exact .taken hb
  | none =>
    have hle := h.parked_le
    cases r with
    | firm =>
      have hz : p.parked.length - parkedLimit = 0 := by omega
      simp only [Option.isSome_none, Bool.false_eq_true, if_false, reduceCtorEq, hold, hz]
      exact .firm hb
    | tentative =>
      simp only [Option.isSome_none, Bool.false_eq_true, if_false, if_true, hold,
        List.length_append, List.length_singleton]
      rcases Nat.lt_or_ge p.parked.length parkedLimit with hlt | hge
      · have hz : p.parked.length + 1 - parkedLimit = 0 := by omega
        rw [hz]
        exact .room hb hlt
      · have hz : p.parked.length + 1 - parkedLimit = 1 := by omega
        rw [hz]
        cases hq : p.parked with
        | nil => rw [hq] at hge; simp [parkedLimit] at hge
        | cons oldest rest =>
          refine .overflow hb hq ?_
          rw [hq, List.length_cons] at hle hge
          omega

/-! ## The queue fits the entries in every reachable pool -/

theorem Agrees.queued {p q : Pool γ} (h : p.Agrees q) (hp : p.Queued) : q.Queued := by
  obtain ⟨-, hb, hk, hr⟩ := h
  exact ⟨hk ▸ hp.nodup, by rw [hk, hb]; exact hp.entry, hk ▸ hp.parked_le, hr ▸ hp.reclaimed_le⟩

theorem Queued.hold {p : Pool γ} (h : p.Queued) (pod : String) (id : Nat) :
    (p.hold pod id).Queued := by
  refine ⟨h.nodup, ?_, h.parked_le, h.reclaimed_le⟩
  intro x hx
  show (((pod, id) :: p.binding).lookup x).isSome
  rw [List.lookup_cons]
  split
  · rfl
  · exact h.entry x hx

theorem Queued.unpark {p : Pool γ} (h : p.Queued) (pod : String) : (p.unpark pod).Queued := by
  refine ⟨h.nodup.filter _, ?_, ?_, h.reclaimed_le⟩
  · intro x hx
    exact h.entry x (mem_filter_ne.1 hx).1
  · exact Nat.le_trans (List.length_filter_le _ _) h.parked_le

/-- The entry of a pod that is not parked may go. -/
theorem Queued.freeBinding {p : Pool γ} (h : p.Queued) {pod : String} (hp : pod ∉ p.parked) :
    (p.freeBinding pod).Queued := by
  refine ⟨by simpa using h.nodup, ?_, by simpa using h.parked_le, by simpa using h.reclaimed_le⟩
  intro x hx
  rw [parked_freeBinding] at hx
  have hne : x ≠ pod := fun hxp => hp (hxp ▸ hx)
  rw [binding_freeBinding, lookup_filter_ne _ hne]
  exact h.entry x hx

theorem Queued.push {p : Pool γ} (h : p.Queued) {pod : String}
    (hb : (p.binding.lookup pod).isSome) (hp : pod ∉ p.parked)
    (hlen : p.parked.length < parkedLimit) :
    { p with parked := p.parked ++ [pod] }.Queued := by
  refine ⟨?_, ?_, ?_, h.reclaimed_le⟩
  · rw [List.nodup_append]
    refine ⟨h.nodup, by simp, ?_⟩
    intro x hx y hy
    rw [List.mem_singleton] at hy
    subst hy
    exact fun hxp => hp (hxp ▸ hx)
  · intro x hx
    rcases List.mem_append.1 hx with hx | hx
    · exact h.entry x hx
    · rw [List.mem_singleton] at hx
      exact hx ▸ hb
  · show (p.parked ++ [pod]).length ≤ parkedLimit
    rw [List.length_append, List.length_singleton]
    omega

theorem Queued.remember {p : Pool γ} (h : p.Queued) (pod : String) : (p.remember pod).Queued := by
  refine ⟨h.nodup, h.entry, h.parked_le, ?_⟩
  have hle := h.reclaimed_le
  unfold Pool.remember
  dsimp only
  split
  · rw [List.length_drop, List.length_append, List.length_singleton]
    omega
  · omega

theorem Queued.abandon {p : Pool γ} (h : p.Queued) (pod : String) : (p.abandon pod).Queued := by
  have hsub : (p.reclaimed.filter (· ≠ pod)).length ≤ reclaimedLimit :=
    Nat.le_trans (List.length_filter_le _ _) h.reclaimed_le
  unfold Pool.abandon
  split
  · have hp : pod ∉ (p.unpark pod).parked := fun hm => (mem_filter_ne.1 hm).2 rfl
    have hf := (h.unpark pod).freeBinding hp
    exact ⟨hf.nodup, hf.entry, hf.parked_le, by simpa [Pool.unpark] using hsub⟩
  · exact ⟨h.nodup, h.entry, h.parked_le, hsub⟩

theorem Parks.queued {p q : Pool γ} {pod : String} {id : Nat} {r : Retention} (h : p.Queued)
    (hq : p.Parks pod id r q) : q.Queued := by
  have hentry : ((p.hold pod id).binding.lookup pod).isSome := by simp [Pool.hold]
  cases hq with
  | taken => exact ⟨h.nodup, h.entry, h.parked_le, h.reclaimed_le⟩
  | firm => exact h.hold pod id
  | room hb hlen => exact (h.hold pod id).push hentry (h.not_mem hb) hlen
  | @overflow oldest rest hb hk hlen =>
    have hp : pod ∉ rest := fun hm => h.not_mem hb (hk ▸ List.mem_cons_of_mem _ hm)
    have hne : oldest ≠ pod := by
      rintro rfl
      exact h.not_mem hb (hk ▸ List.mem_cons_self)
    have hnodup := h.nodup
    rw [hk, List.nodup_cons] at hnodup
    have htail : { p.hold pod id with parked := rest }.Queued :=
      ⟨hnodup.2, fun x hx => (h.hold pod id).entry x (hk ▸ List.mem_cons_of_mem _ hx),
        by show rest.length ≤ _; omega, h.reclaimed_le⟩
    have hpush := htail.push hentry hp (by show rest.length < _; omega)
    refine (hpush.freeBinding ?_).remember oldest
    intro hm
    rcases List.mem_append.1 hm with hm | hm
    · exact hnodup.1 hm
    · exact hne (List.mem_singleton.1 hm)

/-- What becomes of the books, the slot apart, when a cycle of a pod begins. -/
inductive Turns (p : Pool γ) (pod : String) : Pool γ → Prop
  | empty (hs : p.slot = none) : Turns p pod p
  | unretained {s : Slot} (hs : p.slot = some s) (hr : s.retention = none) :
    Turns p pod ({ p with slot := none }.abandon pod)
  | retained {s : Slot} {r : Retention} {q : Pool γ} (hs : p.slot = some s)
    (hr : s.retention = some r) (hq : { p with slot := none }.Parks s.pod s.guest r q) :
    Turns p pod (q.abandon pod)

theorem Queued.setSlot {p : Pool γ} (h : p.Queued) (s : Option Slot) :
    { p with slot := s }.Queued := ⟨h.nodup, h.entry, h.parked_le, h.reclaimed_le⟩

theorem Queued.turns {p : Pool γ} (h : p.Queued) (pod : String) :
    p.Turns pod (p.turnOver pod) := by
  unfold turnOver
  cases hs : p.slot with
  | none => exact .empty hs
  | some s =>
    dsimp only
    cases hr : s.retention with
    | none => exact .unretained hs hr
    | some r => exact .retained hs hr ((h.setSlot none).parks s.pod s.guest r)

theorem Turns.queued {p q : Pool γ} {pod : String} (h : p.Queued) (hq : p.Turns pod q) :
    q.Queued := by
  cases hq with
  | empty => exact h
  | unretained => exact (h.setSlot none).abandon pod
  | retained hs hr hq => exact (hq.queued (h.setSlot none)).abandon pod

theorem Steps.queued {p q : Pool γ} {op : Op γ ε} (h : p.Queued) (hs : p.Steps q op) :
    q.Queued := by
  cases hs with
  | idle _ ha => exact ha.queued h
  | retained _ ha => exact ha.queued (h.setSlot _)
  | claimed _ _ ha => exact ha.queued (h.unpark _)
  | takenOver _ _ _ ha => exact ha.queued ((h.setSlot none).hold _ _)
  | detached _ ha => exact ha.queued (h.hold _ _)
  | @released pod ha =>
    have hp : pod ∉ (p.unpark pod).parked := fun hm => (mem_filter_ne.1 hm).2 rfl
    have hf := (h.unpark pod).freeBinding hp
    rw [freeBinding_eq] at hf
    exact ha.queued ⟨hf.nodup, hf.entry, hf.parked_le, hf.reclaimed_le⟩
  | started _ ha => exact ha.queued (((h.turns _).queued h).setSlot _)

theorem Reachable.queued {p : Pool γ} (hp : p.Reachable ε) : p.Queued :=
  hp.induction queued_empty fun p op h => (steps_step p op).queued h

end Pool
end StageHost
