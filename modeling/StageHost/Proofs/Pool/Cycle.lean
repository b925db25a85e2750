import StageHost.Proofs.Pool.Ownership
/-
  The guest of a scheduling cycle.
  As long as no other cycle begins and nobody claims the slot's pod, the slot stays of its cycle and
  its pod and keeps its guest, whatever else is done (`Steps.seats`). That guest is in no other
  place, so it is handed out to the calls of the cycle and to nothing else (`gives_iff_of_seats`).
  `guest_of_cycle` says so of every operation in a run.
-/
namespace StageHost
namespace Pool

variable {γ ε : Type}

/-- Whether the slot is of the cycle, the pod and the guest of a slot, retained or not. -/
def Seats (p : Pool γ) (s : Slot) : Prop := ∃ retention, p.slot = some { s with retention }

/-- Whether an operation leaves a slot in its place: it begins no other cycle and does not claim
the slot's pod. -/
def Op.Respects (s : Slot) : Op γ ε → Prop
  | .schedule _ cycle _ => cycle = s.cycle
  | .claim pod | .bind pod => pod ≠ s.pod
  | .prewarm _ | .withFree .. | .retain .. | .detach .. | .release _ | .touch _ => True

theorem Agrees.seats {p q : Pool γ} (h : p.Agrees q) {s : Slot} (hs : p.Seats s) : q.Seats s := by
  obtain ⟨retention, hslot⟩ := hs
  exact ⟨retention, h.slot.trans hslot⟩

theorem Steps.seats {p q : Pool γ} {op : Op γ ε} {s : Slot} (h : p.Seats s) (hop : op.Respects s)
    (hs : p.Steps q op) : q.Seats s := by
  obtain ⟨retention, hslot⟩ := h
  cases hs with
  | idle _ ha => exact ha.seats ⟨retention, hslot⟩
  | retained hs' ha =>
    rw [hslot] at hs'
    cases hs'
    exact ha.seats ⟨_, rfl⟩
  | claimed _ _ ha => exact ha.seats ⟨retention, hslot⟩
  | takenOver hclaims hs' =>
    rw [hslot] at hs'
    cases hs'
    rcases hclaims with rfl | rfl <;> exact absurd rfl hop
  | detached _ ha => exact ha.seats ⟨retention, hslot⟩
  | @released pod ha =>
    refine ha.seats ?_
    by_cases hpod : s.pod = pod
    · exact ⟨none, by simp [hslot, Slot.unretain, hpod]⟩
    · exact ⟨retention, by simp [hslot, Slot.unretain, hpod]⟩
  | started hc => exact absurd hop.symm (hc { s with retention } hslot)

/-- A call of the slot's cycle gets the slot's guest and leaves the pool as it is. -/
theorem schedule_of_seats {p : Pool γ} {s : Slot} (h : p.Seats s) (create : Nat → Except ε γ)
    (pod : String) : p.schedule create s.cycle pod = (.ok s.guest, p) := by
  obtain ⟨retention, hslot⟩ := h
  exact schedule_of_same hslot create pod

theorem gives_iff_of_seats {p : Pool γ} (ha : p.Accounts []) {s : Slot} (h : p.Seats s)
    {op : Op γ ε} (hop : op.Respects s) :
    p.gives op = some s.guest ↔ ∃ create pod, op = .schedule create s.cycle pod := by
  constructor
  · intro hg
    have hafter : (p.step op).Accounts [] := ha.step op
    obtain ⟨retention, hslot⟩ := (steps_step p op).seats h hop
    have hin : s.guest ∈ (p.step op).slot.toList.map (·.guest) := by simp [hslot]
    -- the guest sits in the slot after the operation, so it was not left anywhere else
    cases handed_step hg with
    | free hfree =>
      have hapart := (List.nodup_append.1 hafter.nodup_placed).2.2
      exact absurd rfl (hapart _ (List.mem_append_left _ hin) _ hfree)
    | @slot create cycle pod =>
      obtain rfl : cycle = s.cycle := hop
      exact ⟨create, pod, rfl⟩
    | entry _ hentry => exact absurd rfl (hafter.slot_ne (s := { s with retention }) hentry hslot)
  · rintro ⟨create, pod, rfl⟩
    show (p.schedule create s.cycle pod).1.toOption = _
    rw [schedule_of_seats h]
    rfl

/-- One guest for each scheduling cycle. In a run that begins no cycle but that of the slot and
never claims the slot's pod, each scheduling call gets the slot's guest and leaves the pool as it
is, so none is made; and no other operation hands that guest out. -/
theorem guest_of_cycle {p : Pool γ} (hp : p.Reachable ε) {s : Slot} (hs : p.slot = some s)
    {ops : List (Op γ ε)} (hops : ∀ op ∈ ops, op.Respects s) :
    p.Along (fun q op =>
      (∀ create cycle pod, op = .schedule create cycle pod →
        q.schedule create cycle pod = (.ok s.guest, q)) ∧
      (q.gives op = some s.guest ↔ ∃ create cycle pod, op = .schedule create cycle pod)) ops := by
  have hall := along_induction_of (I := fun q => q.Reachable ε ∧ q.Seats s)
    (fun q op hop ⟨hq, hseats⟩ => ⟨hq.step op, (steps_step q op).seats hseats hop⟩)
    ⟨hp, s.retention, hs⟩ hops
  refine hall.imp ?_
  rintro q op ⟨⟨hq, hseats⟩, hop⟩
  have hsched : ∀ create cycle pod, op = .schedule create cycle pod →
      q.schedule create cycle pod = (.ok s.guest, q) := by
    rintro create cycle pod rfl
    obtain rfl : cycle = s.cycle := hop
    exact schedule_of_seats hseats create pod
  refine ⟨hsched, fun hg => ?_, ?_⟩
  · obtain ⟨create, pod, rfl⟩ := (gives_iff_of_seats hq.accounts hseats hop).1 hg
    exact ⟨create, s.cycle, pod, rfl⟩
  · rintro ⟨create, cycle, pod, rfl⟩
    show (q.schedule create cycle pod).1.toOption = _
    rw [hsched create cycle pod rfl]
    rfl

/-- The guest of a cycle is still its own after its pod was released and bound on another guest;
that one, and the one used outside of cycles, are others. -/
theorem same_guest_after_release_and_detach :
    let p := (empty : Pool Nat).run (parkingRun .tentative)
    let ops : List (Op Nat String) := [.retain 2 .firm, .release "q", .detach .ok "q", .claim "p",
      .withFree .ok id, .schedule .ok 2 "q"]
    p.slot = some ⟨2, "q", none, 2⟩ ∧ (∀ op ∈ ops, op.Respects ⟨2, "q", none, 2⟩) ∧
      (p.run (ops.take 5)).gives (.schedule .ok 2 "q" : Op Nat String) = some 2 ∧
      (p.run (ops.take 2)).gives (.detach .ok "q" : Op Nat String) ≠ some 2 := by
  intro p ops
  have hslot : p.slot = some ⟨2, "q", none, 2⟩ := rfl
  have hops : ∀ op ∈ ops, op.Respects ⟨2, "q", none, 2⟩ := by
    simp [ops, Op.Respects]
  obtain ⟨-, -, hdetach, -, -, hsched, -⟩ :=
    guest_of_cycle (ε := String) ⟨parkingRun .tentative, rfl⟩ hslot hops
  refine ⟨hslot, hops, hsched.2.2 ⟨_, _, _, rfl⟩, fun hg => ?_⟩
  obtain ⟨_, _, _, h⟩ := hdetach.2.1 hg
  cases h

end Pool
end StageHost
