import StageHost.Proofs.Pool.Conservation
/-
  Guests are made on demand.
  An operation for a cycle comes to making a guest only if none is free, with those that it has just
  freed itself (`free_step`); so after each making all guests are occupied (`created_step`). The
  guests ever made are then as many as were occupied at some time, or as there were to begin with
  (`created_run`). `created_eq_peak` says so of a pool that began with one guest.
-/
namespace StageHost
namespace Pool

variable {γ ε : Type}

/-- How many guests are in the slot and in binding entries. -/
def occupied (p : Pool γ) : Nat := p.slot.toList.length + p.binding.length

/-- The most guests that are occupied at a time in a run. -/
def peak (p : Pool γ) : List (Op γ ε) → Nat
  | [] => p.occupied
  | op :: ops => max p.occupied ((p.step op).peak ops)

/-- Whether an operation is one of a cycle: guests are neither made in advance nor used outside of
cycles. -/
def Op.InCycle : Op γ ε → Prop
  | .schedule .. | .retain .. | .claim _ | .bind _ | .detach .. | .release _ | .touch _ => True
  | .prewarm _ | .withFree .. => False

/-! ## Counts -/

/-- All guests are in the slot, in entries or free. -/
theorem created_eq {p : Pool γ} (h : p.Accounts []) :
    p.created = p.slot.toList.length + p.binding.length + p.free.length := by
  have hlen := h.perm.length_eq
  simp only [List.nil_append, placed, ids, List.length_append, List.length_map] at hlen
  exact hlen.symm

theorem created_eq_ids (p : Pool γ) : p.created = p.ids.length :=
  (List.length_map _).symm

theorem created_le_run (p : Pool γ) (ops : List (Op γ ε)) : p.created ≤ (p.run ops).created := by
  have hids := (numbers_attempts p ops).2
  rw [created_eq_ids, created_eq_ids, hids, List.length_append]
  omega

theorem created_release (p : Pool γ) (pod : String) : (p.release pod).created = p.created := by
  unfold release created
  rw [freeBinding_eq]
  rfl

theorem takeFree_none {p : Pool γ} (h : p.takeFree.1 = none) : p.free = [] ∧ p.takeFree.2 = p := by
  unfold takeFree at h ⊢
  split at h
  · rename_i hfree
    rw [hfree]
    exact ⟨rfl, rfl⟩
  · cases h

/-- A scheduling cycle that needs a new guest finds the slot empty and no guest free. -/
theorem pick_none {p : Pool γ} {hand : List Nat} (ha : p.Accounts hand) {cycle : UInt64}
    {pod : String} (h : (p.pick cycle pod).1 = none) :
    (p.pick cycle pod).2.slot = none ∧ (p.pick cycle pod).2.free = [] := by
  have hslot := (ha.takeSlot cycle pod).2
  unfold pick at h ⊢
  rcases ht : p.takeSlot cycle pod with ⟨_ | id, q⟩ <;> rw [ht] at h hslot
  · dsimp only at h hslot ⊢
    rcases hf : q.takeFree with ⟨_ | id, q'⟩ <;> rw [hf] at h
    · obtain ⟨hfree, hq⟩ := takeFree_none (p := q) (by rw [hf])
      rw [hf] at hq
      dsimp only at hq ⊢
      rw [hq]
      exact ⟨hslot rfl, hfree⟩
    · cases h
  · cases h

/-- A detached binding cycle that needs a new guest finds no entry and no guest free. -/
theorem pickDetached_none {p : Pool γ} {pod : String} (h : (p.pickDetached pod).1 = none) :
    (p.pickDetached pod).2.binding.lookup pod = none ∧ (p.pickDetached pod).2.free = [] := by
  unfold pickDetached at h ⊢
  cases hb : p.binding.lookup pod with
  | some id =>
    rw [hb] at h
    cases h
  | none =>
    rw [hb] at h
    dsimp only at h ⊢
    rcases hf : p.takeFree with ⟨_ | id, q⟩ <;> rw [hf] at h
    · obtain ⟨hfree, hq⟩ := takeFree_none (p := p) (by rw [hf])
      rw [hf] at hq
      dsimp only at hq ⊢
      rw [hq]
      exact ⟨hb, hfree⟩
    · cases h

theorem free_schedule {p : Pool γ} {hand : List Nat} (ha : p.Accounts hand) {cycle : UInt64}
    {pod : String} (h : (p.pick cycle pod).1 = none) (create : Nat → Except ε γ) :
    (p.schedule create cycle pod).2.free = [] := by
  obtain ⟨hslot, hfree⟩ := pick_none ha h
  unfold schedule
  rcases hp : p.pick cycle pod with ⟨_ | id, q⟩ <;> rw [hp] at h hslot hfree
  · dsimp only at hslot hfree ⊢
    unfold make takeId
    dsimp only
    cases create q.nextId with
    | error e => exact hfree
    | ok guest =>
      -- the slot is still empty, so the new guest is not given back
      unfold settle takeSlot enroll
      dsimp only
      rw [hslot]
      exact hfree
  · cases h

theorem free_detach {p : Pool γ} {pod : String} (h : (p.pickDetached pod).1 = none)
    (create : Nat → Except ε γ) : (p.detach create pod).2.free = [] := by
  obtain ⟨hentry, hfree⟩ := pickDetached_none h
  unfold detach
  rcases hp : p.pickDetached pod with ⟨_ | id, q⟩ <;> rw [hp] at h hentry hfree
  · dsimp only at hentry hfree ⊢
    unfold make takeId
    dsimp only
    cases create q.nextId with
    | error e => exact hfree
    | ok guest =>
      unfold settleDetached enroll
      dsimp only
      rw [hentry]
      exact hfree
  · cases h

/-- A making for a cycle leaves no guest free, and found none free. -/
theorem free_step {p : Pool γ} {hand : List Nat} (ha : p.Accounts hand) {op : Op γ ε}
    (hop : op.InCycle) (h : p.attempt? op ≠ none) : (p.step op).free = [] := by
  cases op with
  | schedule create cycle pod =>
    have hnone : (p.pick cycle pod).1 = none := by
      by_contra hsome
      exact h (if_neg hsome)
    exact free_schedule ha hnone create
  | detach create pod =>
    have hnone : (p.pickDetached pod).1 = none := by
      by_contra hsome
      exact h (if_neg hsome)
    exact free_detach hnone create
  | prewarm | withFree => exact absurd hop id
  | retain | claim | bind | release | touch => exact absurd rfl h

/-- After a step the guests are as many as before, or all of them are occupied. -/
theorem created_step {p : Pool γ} (hp : p.Reachable ε) {op : Op γ ε} (hop : op.InCycle) :
    (p.step op).created = p.created ∨
      p.created ≤ (p.step op).created ∧ (p.step op).created = (p.step op).occupied := by
  by_cases hnone : p.attempt? op = none
  · have htally := tally_step p op
    rw [hnone] at htally
    have hids : (p.step op).ids = p.ids := congrArg Prod.fst htally
    rw [created_eq_ids, created_eq_ids, hids]
    exact .inl rfl
  · have hall := created_eq (hp.step op).accounts
    rw [free_step hp.accounts hop hnone, List.length_nil] at hall
    exact .inr ⟨created_le_run p [op], hall⟩

/-! ## Runs -/

theorem occupied_le_created {p : Pool γ} (h : p.Accounts []) : p.occupied ≤ p.created := by
  rw [created_eq h, occupied]
  omega

theorem occupied_le_peak (p : Pool γ) (ops : List (Op γ ε)) : p.occupied ≤ p.peak ops := by
  cases ops with
  | nil => exact Nat.le_refl _
  | cons op ops => exact Nat.le_max_left _ _

/-- The guests after a run are those from before it, or as many as were occupied at some time. -/
theorem created_run {p : Pool γ} (hp : p.Reachable ε) {ops : List (Op γ ε)}
    (hops : ∀ op ∈ ops, op.InCycle) : (p.run ops).created = max p.created (p.peak ops) := by
  induction ops generalizing p with
  | nil =>
    have hle := occupied_le_created hp.accounts
    exact (Nat.max_eq_left hle).symm
  | cons op ops ih =>
    have hrest := ih (hp.step op) fun o ho => hops o (List.mem_cons_of_mem _ ho)
    have hle := occupied_le_created hp.accounts
    have hpeak := occupied_le_peak (p.step op) ops
    rw [run_cons, hrest, peak]
    rcases created_step hp (hops op List.mem_cons_self) with hsame | ⟨hmore, hall⟩ <;> omega

/-- Guests are made on demand only. If one guest is made in advance and all operations from then on
are those of cycles, whether their makings succeed or not, then the guests ever made are as many as
were ever occupied at a time, and at least that one. Each making found no guest free, not even one
that its own operation had freed. -/
theorem created_eq_peak {create : Nat → Except ε γ} {guest : γ} (hfirst : create 1 = .ok guest)
    {ops : List (Op γ ε)} (hops : ∀ op ∈ ops, op.InCycle) :
    ((empty : Pool γ).run (.prewarm create :: ops)).created =
        max 1 ((empty : Pool γ).peak (.prewarm create :: ops)) ∧
      ((empty : Pool γ).step (.prewarm create)).Along
        (fun q op => q.attempt? op ≠ none → (q.step op).free = []) ops := by
  have hp : ((empty : Pool γ).step (.prewarm create)).Reachable ε := reachable_empty.step _
  have hone : ((empty : Pool γ).step (.prewarm create)).created = 1 := by
    unfold step prewarm make takeId empty
    dsimp only
    rw [hfirst]
    rfl
  constructor
  · have hrun := created_run hp hops
    have hzero : (empty : Pool γ).occupied = 0 := rfl
    rw [run_cons, hrun, hone, peak, hzero]
    omega
  · have hall := along_induction_of (I := fun q => q.Reachable ε)
      (fun q op _ hq => hq.step op) hp hops
    exact hall.imp fun q op ⟨hq, hop⟩ => free_step hq.accounts hop

/-- Four makings, of which the second fails, give three guests; those of p, q and r are occupied
together. The last cycle frees the guest that it finds parked for its own pod, so it makes none. -/
theorem three_made_for_three_pods :
    let busy : Nat → Except String Nat := fun _ => .error "busy"
    let ops : List (Op Nat String) := [.schedule .ok 1 "p", .retain 1 .tentative,
      .schedule busy 2 "q", .schedule .ok 2 "q", .retain 2 .firm, .detach .ok "r",
      .schedule busy 3 "p"]
    (∀ op ∈ ops, op.InCycle) ∧ ((empty : Pool Nat).run (.prewarm .ok :: ops)).created = 3 ∧
      ((empty : Pool Nat).run (.prewarm .ok :: ops.take 2)).attempt? (.schedule busy 2 "q") =
        some (2, false) ∧
      ((empty : Pool Nat).run (.prewarm .ok :: ops.take 3)).free = [] := by
  intro busy ops
  have hops : ∀ op ∈ ops, op.InCycle := by
    simp [ops, Op.InCycle]
  have hpeak : max 1 ((empty : Pool Nat).peak (.prewarm .ok :: ops)) = 3 := by decide +kernel
  have hfirst : (.ok 1 : Except String Nat) = .ok 1 := rfl
  obtain ⟨hmade, -, -, hthird, -⟩ := created_eq_peak hfirst hops
  exact ⟨hops, hmade.trans hpeak, rfl, hthird (by decide)⟩

end Pool
end StageHost
